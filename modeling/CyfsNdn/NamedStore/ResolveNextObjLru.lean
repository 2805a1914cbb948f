import CyfsNdn.Collections.LruList
import CyfsNdn.NamedStore.ResolveNextObj
import CyfsNdn.Transition.Run

/-!
# The cache keeps what was used last

`ResolveNextObjCache` has a hash map, and a tree of entry ids that come from a counter that
wraps around.  Until it does, the cache is the list of the pairs that were used last
(`Represents`), and this is kept by `get` and `put`.
-/

namespace CyfsNdn
namespace NamedStore

open Collections Relational Transition

namespace ResolveNextObjCache

/-- A call of the cache. -/
abbrev Call := CacheCall ResolveNextObjCacheKey ResolveNextObjCacheValue

/-- The cache after a call. -/
def step (cache : ResolveNextObjCache) : Call → ResolveNextObjCache
  | .get key => (cache.get key).2
  | .put key value => cache.put key value

/-- What the map and the tree have of one key. -/
structure Slot where
  entryId : Nat
  key : ResolveNextObjCacheKey
  value : ResolveNextObjCacheValue

namespace Slot

/-- The entry of the tree. -/
def order (t : Slot) : Nat × ResolveNextObjCacheKey := (t.entryId, t.key)

/-- The entry of the map. -/
def row (t : Slot) : ResolveNextObjCacheKey × ResolveNextObjCacheEntry :=
  (t.key, ⟨t.value, t.entryId⟩)

/-- The pair that is remembered. -/
def pair (t : Slot) : ResolveNextObjCacheKey × ResolveNextObjCacheValue := (t.key, t.value)

end Slot

/-- The slots of a map and of a tree, in the order of the tree. -/
structure Lists (entries : Table (ResolveNextObjCacheKey × ResolveNextObjCacheEntry) Prod.fst)
    (lruOrder : List (Nat × ResolveNextObjCacheKey)) (slots : List Slot) : Prop where
  order : lruOrder = slots.map Slot.order
  rows : entries.rows.Perm (slots.map Slot.row)
  sorted : slots.Pairwise fun t t' => t.entryId < t'.entryId

/-- The cache and the list of what was used last say the same. -/
def Represents (cache : ResolveNextObjCache)
    (xs : List (ResolveNextObjCacheKey × ResolveNextObjCacheValue)) : Prop :=
  ∃ slots, Lists cache.entries cache.lruOrder slots ∧ xs = slots.map Slot.pair ∧
    ∀ t ∈ slots, t.entryId < cache.nextEntryId

namespace Lists

variable {entries : Table (ResolveNextObjCacheKey × ResolveNextObjCacheEntry) Prod.fst}
  {lruOrder : List (Nat × ResolveNextObjCacheKey)} {slots : List Slot}

theorem keys_nodup (h : Lists entries lruOrder slots) : (slots.map Slot.key).Nodup := by
  have hperm := h.rows.map Prod.fst
  rw [List.map_map] at hperm
  exact hperm.nodup_iff.mp entries.keysNodup

theorem length (h : Lists entries lruOrder slots) : entries.rows.length = slots.length := by
  simpa using h.rows.length_eq

theorem eq_of_key_eq (h : Lists entries lruOrder slots) {t t' : Slot} (ht : t ∈ slots)
    (ht' : t' ∈ slots) (hkey : t.key = t'.key) : t = t' :=
  List.inj_on_of_nodup_map h.keys_nodup ht ht' hkey

theorem eq_of_entryId_eq (h : Lists entries lruOrder slots) {t t' : Slot} (ht : t ∈ slots)
    (ht' : t' ∈ slots) (hid : t.entryId = t'.entryId) : t = t' := by
  have hnodup : (slots.map Slot.entryId).Nodup :=
    List.pairwise_map.mpr (h.sorted.imp fun hlt => Nat.ne_of_lt hlt)
  exact List.inj_on_of_nodup_map hnodup ht ht' hid

/-- What the map finds is a slot. -/
theorem find?_eq_some (h : Lists entries lruOrder slots) {key : ResolveNextObjCacheKey}
    {row : ResolveNextObjCacheKey × ResolveNextObjCacheEntry}
    (hfind : entries.find? key = some row) :
    ∃ t ∈ slots, t.key = key ∧ t.row = row := by
  obtain ⟨hmem, hkey⟩ := Table.find?_eq_some_iff.mp hfind
  obtain ⟨t, ht, hrow⟩ := List.mem_map.mp (h.rows.mem_iff.mp hmem)
  exact ⟨t, ht, by rw [← hkey, ← hrow]; rfl, hrow⟩

/-- The map finds each slot. -/
theorem find?_key (h : Lists entries lruOrder slots) {t : Slot} (ht : t ∈ slots) :
    entries.find? t.key = some t.row :=
  Table.find?_eq_some_iff.mpr ⟨h.rows.mem_iff.mpr (List.mem_map_of_mem ht), rfl⟩

/-- The list finds the same value as the map. -/
theorem find_pairs (h : Lists entries lruOrder slots) (key : ResolveNextObjCacheKey) :
    LruList.find (slots.map Slot.pair) key =
      (entries.find? key).map fun row => row.2.value := by
  cases hfind : entries.find? key with
  | none =>
      have hnone : (slots.map Slot.pair).find? (fun e => e.1 = key) = none := by
        rw [List.find?_eq_none]
        intro e he
        obtain ⟨t, ht, rfl⟩ := List.mem_map.mp he
        have hkey : t.key ≠ key := by
          rintro rfl
          rw [h.find?_key ht] at hfind
          cases hfind
        exact fun hsame => hkey (of_decide_eq_true hsame)
      unfold LruList.find
      rw [hnone]
      rfl
  | some row =>
      obtain ⟨t, ht, hkey, rfl⟩ := h.find?_eq_some hfind
      unfold LruList.find
      cases hpair : (slots.map Slot.pair).find? (fun e => e.1 = key) with
      | none =>
          have hno := List.find?_eq_none.mp hpair t.pair (List.mem_map_of_mem ht)
          simp [Slot.pair, hkey] at hno
      | some e =>
          obtain ⟨t', ht', rfl⟩ := List.mem_map.mp (List.mem_of_find?_eq_some hpair)
          have hsame := List.find?_some hpair
          have hkey' : t'.key = key := of_decide_eq_true hsame
          rw [h.eq_of_key_eq ht ht' (hkey.trans hkey'.symm)]
          rfl

/-- Without the slots of a key. -/
theorem remove (h : Lists entries lruOrder slots) {t : Slot} (ht : t ∈ slots) :
    Lists (entries.deleteKey t.key) (removeOrder t.entryId lruOrder)
      (slots.filter fun s => s.key ≠ t.key) where
  order := by
    rw [h.order, removeOrder, List.filter_map]
    congr 1
    apply List.filter_congr
    intro s hs
    have hsame : s.entryId = t.entryId ↔ s.key = t.key :=
      ⟨fun hid => h.eq_of_entryId_eq hs ht hid ▸ rfl, fun hkey => h.eq_of_key_eq hs ht hkey ▸ rfl⟩
    simp [Slot.order, hsame]
  rows := by
    have hrows : (entries.deleteKey t.key).rows =
        entries.rows.filter fun row => !decide (row.1 = t.key) := rfl
    rw [hrows]
    refine (h.rows.filter _).trans ?_
    rw [List.filter_map]
    apply List.Perm.of_eq
    congr 1
    apply List.filter_congr
    intro s _
    show (!decide (s.key = t.key)) = decide (s.key ≠ t.key)
    rw [decide_not]
  sorted := h.sorted.sublist List.filter_sublist

/-- A slot with the next id is the last one. -/
theorem append (h : Lists entries lruOrder slots) {t : Slot}
    (hfresh : ∀ s ∈ slots, s.entryId < t.entryId) (hkey : ∀ s ∈ slots, s.key ≠ t.key) :
    Lists (entries.insertOrReplace t.row) (insertKey t.entryId t.key lruOrder)
      (slots ++ [t]) where
  order := by
    have hlast : ∀ e ∈ lruOrder, e.1 < t.entryId := by
      intro e he
      rw [h.order] at he
      obtain ⟨s, hs, rfl⟩ := List.mem_map.mp he
      exact hfresh s hs
    rw [insertKey_of_forall_lt hlast, h.order, List.map_append]
    rfl
  rows := by
    have hrows : (entries.insertOrReplace t.row).rows =
        (entries.rows.filter fun row => !decide (row.1 = t.key)) ++ [t.row] := rfl
    have hall : (entries.rows.filter fun row => !decide (row.1 = t.key)) = entries.rows := by
      rw [List.filter_eq_self]
      intro row hrow
      obtain ⟨s, hs, rfl⟩ := List.mem_map.mp (h.rows.mem_iff.mp hrow)
      show (!decide (s.key = t.key)) = true
      simpa using hkey s hs
    rw [hrows, hall, List.map_append]
    exact h.rows.append_right _
  sorted := by
    rw [List.pairwise_append]
    exact ⟨h.sorted, List.pairwise_singleton _ _, by simpa using hfresh⟩

/-- The tree without the entry that the map has of a key. -/
def orderWithout (entries : Table (ResolveNextObjCacheKey × ResolveNextObjCacheEntry) Prod.fst)
    (lruOrder : List (Nat × ResolveNextObjCacheKey)) (key : ResolveNextObjCacheKey) :
    List (Nat × ResolveNextObjCacheKey) :=
  match entries.find? key with
  | none => lruOrder
  | some (_, old) => removeOrder old.entryId lruOrder

theorem without (h : Lists entries lruOrder slots) (key : ResolveNextObjCacheKey) :
    Lists (entries.deleteKey key) (orderWithout entries lruOrder key)
      (slots.filter fun s => s.key ≠ key) := by
  unfold orderWithout
  cases hfind : entries.find? key with
  | none =>
      have hother : ∀ row ∈ entries.rows, row.1 ≠ key := Table.find?_eq_none_iff.mp hfind
      have hslots : (slots.filter fun s => s.key ≠ key) = slots := by
        rw [List.filter_eq_self]
        intro s hs
        have hne := hother s.row (h.rows.mem_iff.mpr (List.mem_map_of_mem hs))
        exact decide_eq_true hne
      have hrows : (entries.deleteKey key).rows = entries.rows := by
        show entries.rows.filter (fun row => !decide (row.1 = key)) = entries.rows
        rw [List.filter_eq_self]
        intro row hrow
        simpa using hother row hrow
      rw [hslots]
      exact ⟨h.order, hrows ▸ h.rows, h.sorted⟩
  | some row =>
      obtain ⟨t, ht, rfl, rfl⟩ := h.find?_eq_some hfind
      exact h.remove ht

/-- A use of a key: its slot is the last one. -/
theorem use (h : Lists entries lruOrder slots) {nextEntryId : Nat}
    (hfresh : ∀ s ∈ slots, s.entryId < nextEntryId) (key : ResolveNextObjCacheKey)
    (value : ResolveNextObjCacheValue) :
    Lists (entries.insertOrReplace (key, ⟨value, nextEntryId⟩))
      (insertKey nextEntryId key (orderWithout entries lruOrder key))
      ((slots.filter fun s => s.key ≠ key) ++ [⟨nextEntryId, key, value⟩]) := by
  have happended : Lists ((entries.deleteKey key).insertOrReplace (key, ⟨value, nextEntryId⟩))
      (insertKey nextEntryId key (orderWithout entries lruOrder key))
      ((slots.filter fun s => s.key ≠ key) ++ [⟨nextEntryId, key, value⟩]) := by
    refine (h.without key).append (t := ⟨nextEntryId, key, value⟩) ?_ ?_
    · exact fun s hs => hfresh s (List.mem_of_mem_filter hs)
    · exact fun s hs => of_decide_eq_true (List.mem_filter.mp hs).2
  have hrows : ((entries.deleteKey key).insertOrReplace (key, ⟨value, nextEntryId⟩)).rows =
      (entries.insertOrReplace (key, ⟨value, nextEntryId⟩)).rows := by
    show ((entries.rows.filter fun row => !decide (row.1 = key)).filter
        fun row => !decide (row.1 = key)) ++ _ = _
    rw [List.filter_filter]
    simp only [Bool.and_self]
    rfl
  exact ⟨happended.order, hrows ▸ happended.rows, happended.sorted⟩

/-- The loop of `put` leaves the last slots. -/
theorem evict (h : Lists entries lruOrder slots) (maxEntries : Nat) :
    Lists (ResolveNextObjCache.evict maxEntries lruOrder entries).2
      (ResolveNextObjCache.evict maxEntries lruOrder entries).1
      (LruList.last maxEntries slots) := by
  induction slots generalizing entries lruOrder with
  | nil =>
      obtain rfl := h.order
      simpa [ResolveNextObjCache.evict, LruList.last] using h
  | cons t slots ih =>
      have horder := h.order
      subst horder
      have hlen := h.length
      rw [List.map_cons, ResolveNextObjCache.evict]
      split
      · rename_i hlt
        rw [LruList.last_cons_of_lt (hlen ▸ hlt)]
        apply ih
        have hrest : ∀ s ∈ slots, s.key ≠ t.key := by
          have hnodup := h.keys_nodup
          rw [List.map_cons, List.nodup_cons] at hnodup
          intro s hs hkey
          exact hnodup.1 (hkey ▸ List.mem_map_of_mem hs)
        have hremoved := h.remove List.mem_cons_self
        have hfilter : ((t :: slots).filter fun s => s.key ≠ t.key) = slots := by
          rw [List.filter_cons_of_neg (by simp), List.filter_eq_self]
          exact fun s hs => by simpa using hrest s hs
        rw [hfilter] at hremoved
        exact ⟨rfl, hremoved.rows, hremoved.sorted⟩
      · rename_i hle
        rw [LruList.last_of_length_le (by omega)]
        exact h

end Lists

/-! ## One call -/

section Calls

variable {cache : ResolveNextObjCache}
  {xs : List (ResolveNextObjCacheKey × ResolveNextObjCacheValue)}

theorem represents_new (maxEntries : Nat) : Represents (new maxEntries) [] :=
  ⟨[], ⟨rfl, List.Perm.refl _, List.Pairwise.nil⟩, rfl, nofun⟩

/-- A look-up finds what the list has. -/
theorem Represents.find (h : Represents cache xs) (key : ResolveNextObjCacheKey) :
    (cache.get key).1 = LruList.find xs key := by
  obtain ⟨slots, hlists, rfl, -⟩ := h
  rw [hlists.find_pairs]
  unfold ResolveNextObjCache.get
  cases cache.entries.find? key <;> rfl

theorem Represents.length (h : Represents cache xs) :
    cache.entries.rows.length = xs.length ∧ cache.lruOrder.length = xs.length := by
  obtain ⟨slots, hlists, rfl, -⟩ := h
  exact ⟨by simpa using hlists.length, by simp [hlists.order]⟩

/-- The list after a use of a key. -/
theorem map_pair_use (slots : List Slot) (nextEntryId : Nat) (key : ResolveNextObjCacheKey)
    (value : ResolveNextObjCacheValue) :
    ((slots.filter fun s => s.key ≠ key) ++ [(⟨nextEntryId, key, value⟩ : Slot)]).map Slot.pair =
      LruList.use (slots.map Slot.pair) key value := by
  rw [List.map_append, LruList.use, List.filter_map]
  rfl

/-- What a call does to the cache, it does to the list, while the counter does not wrap. -/
theorem Represents.step (h : Represents cache xs) (hsize : xs.length ≤ cache.maxEntries)
    (hnext : cache.nextEntryId + 1 < 2 ^ 64) (call : Call) :
    Represents (cache.step call) (LruList.step cache.maxEntries xs call) ∧
      (cache.step call).maxEntries = cache.maxEntries ∧
      (cache.step call).nextEntryId ≤ cache.nextEntryId + 1 := by
  have hfind := h.find
  obtain ⟨slots, hlists, rfl, hfresh⟩ := h
  have hmod : (cache.nextEntryId + 1) % 2 ^ 64 = cache.nextEntryId + 1 := Nat.mod_eq_of_lt hnext
  have hused : ∀ (key : ResolveNextObjCacheKey) (value : ResolveNextObjCacheValue),
      ∀ t ∈ (slots.filter fun s => s.key ≠ key) ++ [(⟨cache.nextEntryId, key, value⟩ : Slot)],
        t.entryId < (cache.nextEntryId + 1) % 2 ^ 64 := by
    intro key value t ht
    rw [hmod]
    rcases List.mem_append.mp ht with hold | hnew
    · exact Nat.lt_succ_of_lt (hfresh t (List.mem_of_mem_filter hold))
    · obtain rfl := List.mem_singleton.mp hnew
      exact Nat.lt_succ_self _
  cases call with
  | get key =>
      have hfound := hfind key
      show Represents (cache.get key).2 _ ∧ (cache.get key).2.maxEntries = _ ∧
        (cache.get key).2.nextEntryId ≤ _
      simp only [LruList.step]
      rw [← hfound]
      unfold ResolveNextObjCache.get
      cases hmap : cache.entries.find? key with
      | none => exact ⟨⟨slots, hlists, rfl, hfresh⟩, rfl, Nat.le_succ _⟩
      | some row =>
          have huse := hlists.use hfresh key row.2.value
          rw [Lists.orderWithout, hmap] at huse
          refine ⟨⟨_, huse, (map_pair_use _ _ _ _).symm, hused key _⟩, rfl, ?_⟩
          exact le_of_eq hmod
  | put key value =>
      show Represents (cache.put key value) _ ∧ (cache.put key value).maxEntries = _ ∧
        (cache.put key value).nextEntryId ≤ _
      simp only [LruList.step]
      unfold ResolveNextObjCache.put
      split
      · -- a cache of size 0 stays empty
        rename_i hzero
        have hnil : slots.map Slot.pair = [] := List.length_eq_zero_iff.mp (by omega)
        have hlast : LruList.last cache.maxEntries (LruList.use (slots.map Slot.pair) key value) =
            [] := by
          apply List.length_eq_zero_iff.mp
          have hle := LruList.length_last_le cache.maxEntries
            (LruList.use (slots.map Slot.pair) key value)
          omega
        rw [hlast, ← hnil]
        exact ⟨⟨slots, hlists, rfl, hfresh⟩, rfl, Nat.le_succ _⟩
      · have hevicted := (hlists.use hfresh key value).evict cache.maxEntries
        refine ⟨⟨_, hevicted, ?_, ?_⟩, rfl, le_of_eq hmod⟩
        · rw [LruList.map_last, map_pair_use]
        · exact fun t ht => hused key value t (LruList.mem_of_mem_last ht)

/-- The cache after calls, while the counter does not wrap. -/
theorem represents_run (maxEntries : Nat) (calls : List Call) (hcalls : calls.length < 2 ^ 64) :
    Represents (run step (new maxEntries) calls) (run (LruList.step maxEntries) [] calls) ∧
      (run step (new maxEntries) calls).maxEntries = maxEntries ∧
      (run step (new maxEntries) calls).nextEntryId ≤ calls.length ∧
      (run (LruList.step maxEntries) [] calls).length ≤ maxEntries := by
  induction calls using List.reverseRecOn with
  | nil => exact ⟨represents_new maxEntries, rfl, le_refl _, Nat.zero_le _⟩
  | append_singleton calls call ih =>
      rw [List.length_append, List.length_singleton] at hcalls
      obtain ⟨hrep, hmax, hnext, hsize⟩ := ih (by omega)
      rw [run_append, run_append, run_cons, run_cons, run_nil, run_nil, List.length_append,
        List.length_singleton]
      obtain ⟨hrep', hmax', hnext'⟩ :=
        hrep.step (by omega) (by omega) call
      rw [hmax] at hrep' hmax'
      exact ⟨hrep', hmax', by omega, LruList.length_step_le hsize call⟩

/-- For every sequence of calls on a new cache: until the counter wraps, look-ups find what
the list of the last used pairs has, and the map and the tree hold as many entries as the
list, which is never more than the size of the cache. -/
theorem cache_is_lru (maxEntries : Nat) (calls : List Call) (hcalls : calls.length < 2 ^ 64)
    (key : ResolveNextObjCacheKey) :
    ((run step (new maxEntries) calls).get key).1 =
        LruList.find (run (LruList.step maxEntries) [] calls) key ∧
      (run step (new maxEntries) calls).entries.rows.length =
        (run (LruList.step maxEntries) [] calls).length ∧
      (run step (new maxEntries) calls).lruOrder.length =
        (run (LruList.step maxEntries) [] calls).length ∧
      (run (LruList.step maxEntries) [] calls).length ≤ maxEntries := by
  obtain ⟨hrep, -, -, hsize⟩ := represents_run maxEntries calls hcalls
  exact ⟨hrep.find key, hrep.length.1, hrep.length.2, hsize⟩

/-- Three paths of one object and what they lead to. -/
def sampleKey (path : String) : ResolveNextObjCacheKey := ⟨⟨"cydir", [1]⟩, path⟩

/-- What a path of the sample leads to. -/
def sampleValue (n : Nat) : ResolveNextObjCacheValue := ⟨⟨"cyfile", [UInt8.ofNat n]⟩, none, none⟩

/-- The first path is looked up before the third one is put. -/
def sampleCalls : List Call :=
  [.put (sampleKey "/a") (sampleValue 1), .put (sampleKey "/b") (sampleValue 2),
    .get (sampleKey "/a"), .put (sampleKey "/c") (sampleValue 3)]

/-- A cache of two entries has lost the second path. -/
theorem sampleCalls_lru :
    ((run step (new 2) sampleCalls).get (sampleKey "/b")).1 = none ∧
      ((run step (new 2) sampleCalls).get (sampleKey "/a")).1 = some (sampleValue 1) := by
  have hb := (cache_is_lru 2 sampleCalls (by decide) (sampleKey "/b")).1
  have ha := (cache_is_lru 2 sampleCalls (by decide) (sampleKey "/a")).1
  rw [hb, ha]
  decide

end Calls

end ResolveNextObjCache

end NamedStore
end CyfsNdn

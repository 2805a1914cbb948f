import CyfsNdn.NamedStore.AnchorCount
import CyfsNdn.NamedStore.Store

/-!
# What a forced collection can free

`forced_gc_until` collects candidates until enough bytes are free or no candidate
is left.  The candidates are the rows of `objects` with class 0, so what it can
free at most is a sum over `objects`, fixed before it starts: the bytes freed so
far plus the bytes that can still be freed do not change during the call.

An `ENOSPC` is honest when every unprotected row with bytes of its own is such a
candidate.  A chunk is stored in `chunk_items` only, so it never is, and neither
is an object whose class was computed while a pin that has expired since was
active.
-/

namespace CyfsNdn
namespace NamedStore

open NdnLib Relational Transition

namespace NamedLocalStoreDb

/-- No active pin, no anchor and no incoming reference. -/
def Unprotected (db : NamedLocalStoreDb) (now : Nat) (k : String) : Prop :=
  ¬ db.HasActivePin now k ∧ ¬ db.HasFsAnchor k ∧ ¬ db.HasIncoming k

instance (db : NamedLocalStoreDb) (now : Nat) (k : String) :
    Decidable (db.Unprotected now k) :=
  inferInstanceAs (Decidable (¬ db.HasActivePin now k ∧ ¬ db.HasFsAnchor k ∧
    ¬ db.HasIncoming k))

/-- Nothing with bytes of its own is left unprotected. -/
structure Exhausted (db : NamedLocalStoreDb) (now : Nat) : Prop where
  objects : ∀ r ∈ db.objects.rows, 0 < r.ownedBytes → ¬ db.Unprotected now r.objId
  chunks : ∀ r ∈ db.chunkItems.rows, 0 < r.ownedBytes → ¬ db.Unprotected now r.chunkId

/-- The candidates are all there is to collect. -/
structure CandidatesComplete (db : NamedLocalStoreDb) (now : Nat) : Prop where
  objects : ∀ r ∈ db.objects.rows, 0 < r.ownedBytes → db.Unprotected now r.objId →
    isGcCandidate r = true
  chunks : ∀ r ∈ db.chunkItems.rows, 0 < r.ownedBytes → db.Unprotected now r.chunkId →
    ∃ o ∈ db.objects.rows, o.objId = r.chunkId ∧ isGcCandidate o = true

/-- The bytes that evicting the row of an unprotected candidate frees. -/
def evictableWeight (db : NamedLocalStoreDb) (now : Nat) (r : ObjectRow) : Nat :=
  if isGcCandidate r && !db.isProtectedTx now r.objId then asU64 r.ownedBytes else 0

/-- The bytes of all unprotected candidates. -/
def evictableBytes (db : NamedLocalStoreDb) (now : Nat) : Nat :=
  db.objects.total (db.evictableWeight now)

/-- The number of candidates. -/
def candidateCount (db : NamedLocalStoreDb) : Nat :=
  db.objects.total fun r => if isGcCandidate r then 1 else 0

/-- With a right count, the double check of an eviction is about the facts. -/
theorem CountInv.isProtectedTx_eq_false_iff {db : NamedLocalStoreDb} (h : db.CountInv)
    (now : Nat) (k : String) :
    db.isProtectedTx now k = false ↔ db.Unprotected now k := by
  rw [← Bool.not_eq_true]
  unfold isProtectedTx Unprotected
  simp only [Bool.or_eq_true, decide_eq_true_eq, not_or, hasActivePinTx_iff,
    hasIncomingTx_iff, gt_iff_lt, h.getFsAnchorCountTx_pos_iff]
  tauto

/-- A protected key never has class 0. -/
theorem evictionClassTx_ne_zero {db : NamedLocalStoreDb} {now : Nat} {k : String}
    (h : db.isProtectedTx now k = true) : db.evictionClassTx now k ≠ 0 := by
  unfold isProtectedTx at h
  unfold evictionClassTx
  split_ifs with hanchored hincoming
  · omega
  · omega
  · simp only [Bool.or_eq_true, not_or] at hanchored
    simp only [Bool.or_eq_true] at h
    rcases h with (hpin | href) | hcount
    · exact absurd hpin hanchored.1
    · exact absurd href hincoming
    · exact absurd hcount hanchored.2

theorem SameFacts.isProtectedTx {db db' : NamedLocalStoreDb} (h : SameFacts db db')
    (now : Nat) (k : String) : db'.isProtectedTx now k = db.isProtectedTx now k := by
  unfold NamedLocalStoreDb.isProtectedTx
  rw [h.hasActivePinTx, h.hasIncomingTx, h.getFsAnchorCountTx]

/-! ## One eviction -/

/-- What a collection has done so far: the facts are untouched, and an
unprotected object is as it was, or it was a candidate and is gone from both
tables. -/
structure Collecting (start : NamedLocalStoreDb) (now : Nat) (db : NamedLocalStoreDb) :
    Prop where
  pins : db.pins = start.pins
  fsAnchors : db.fsAnchors = start.fsAnchors
  incomingRefs : db.incomingRefs = start.incomingRefs
  isProtected : ∀ k, db.isProtectedTx now k = start.isProtectedTx now k
  unprotected : ∀ k, start.isProtectedTx now k = false →
    (db.objects.find? k = start.objects.find? k ∧
        db.chunkItems.find? k = start.chunkItems.find? k) ∨
      (∃ row, start.objects.find? k = some row ∧ isGcCandidate row = true) ∧
        db.objects.find? k = none ∧ db.chunkItems.find? k = none

section Evict

variable {start db : NamedLocalStoreDb} {now : Nat} {k : String} {row : ObjectRow}

theorem Collecting.refl (db : NamedLocalStoreDb) (now : Nat) : Collecting db now db :=
  ⟨rfl, rfl, rfl, fun _ => rfl, fun _ _ => Or.inl ⟨rfl, rfl⟩⟩

/-- The database after an eviction that deletes. -/
theorem isProtectedTx_evicted (hunprotected : db.isProtectedTx now k = false) (k' : String) :
    (db.tryEvictObject now k).1.isProtectedTx now k' = db.isProtectedTx now k' := by
  have hfind := Table.find?_deleteKey db.objects k k'
  unfold tryEvictObject
  rw [hunprotected]
  simp only [Bool.false_eq_true, if_false]
  by_cases hk : k' = k
  · subst hk
    rw [if_pos rfl] at hfind
    unfold isProtectedTx at hunprotected ⊢
    simp only [Bool.or_eq_false_iff] at hunprotected
    have hpin : db.hasActivePinTx now k' = false := hunprotected.1.1
    have hincoming : db.hasIncomingTx k' = false := hunprotected.1.2
    unfold getFsAnchorCountTx at hunprotected ⊢
    simp only [hfind]
    rw [hunprotected.2, hpin, hincoming]
    exact Bool.or_eq_false_iff.mpr ⟨Bool.or_eq_false_iff.mpr ⟨hpin, hincoming⟩, rfl⟩
  · rw [if_neg hk] at hfind
    unfold isProtectedTx getFsAnchorCountTx
    simp only [hfind]
    rfl

theorem Collecting.tryEvictObject (h : Collecting start now db)
    (hrow : db.objects.find? k = some row) (hcandidate : isGcCandidate row = true) :
    Collecting start now (db.tryEvictObject now k).1 := by
  cases hprotected : db.isProtectedTx now k with
  | true =>
      have hfacts := sameFacts_recomputeEvictionClassTx db now k
      have hevict : (db.tryEvictObject now k).1 = db.recomputeEvictionClassTx now k := by
        unfold NamedLocalStoreDb.tryEvictObject
        rw [if_pos hprotected]
      rw [hevict]
      refine ⟨h.pins, h.fsAnchors, h.incomingRefs, ?_, ?_⟩
      · intro k'
        rw [hfacts.isProtectedTx]
        exact h.isProtected k'
      · intro k' hk'
        have hne : k' ≠ k := by
          rintro rfl
          rw [← h.isProtected, hprotected] at hk'
          cases hk'
        rw [find?_recomputeEvictionClassTx, if_neg hne]
        exact h.unprotected k' hk'
  | false =>
      have hfind := Table.find?_deleteKey db.objects k
      have hchunk := Table.find?_deleteKey db.chunkItems k
      have hprot := isProtectedTx_evicted hprotected
      have hstart : start.isProtectedTx now k = false := by
        rw [← h.isProtected]
        exact hprotected
      have hevict : (db.tryEvictObject now k).1 =
          { db with
            objects := db.objects.deleteKey k
            chunkItems := db.chunkItems.deleteKey k } := by
        unfold NamedLocalStoreDb.tryEvictObject
        rw [hprotected]
        rfl
      refine ⟨?_, ?_, ?_, fun k' => (hprot k').trans (h.isProtected k'), ?_⟩
      · rw [hevict]
        exact h.pins
      · rw [hevict]
        exact h.fsAnchors
      · rw [hevict]
        exact h.incomingRefs
      · intro k' hk'
        rw [hevict]
        simp only [hfind, hchunk]
        by_cases hk : k' = k
        · subst hk
          rw [if_pos rfl, if_pos rfl]
          refine Or.inr ⟨?_, rfl, rfl⟩
          rcases h.unprotected k' hstart with ⟨hsame, -⟩ | ⟨-, hgone, -⟩
          · exact ⟨row, hsame ▸ hrow, hcandidate⟩
          · rw [hgone] at hrow
            cases hrow
        · rw [if_neg hk, if_neg hk]
          exact h.unprotected k' hk'

/-- An eviction leaves the other rows as they are. -/
theorem find?_tryEvictObject_of_ne {k' : String} (hne : k' ≠ k) :
    (db.tryEvictObject now k).1.objects.find? k' = db.objects.find? k' := by
  unfold tryEvictObject
  split_ifs
  · rw [find?_recomputeEvictionClassTx, if_neg hne]
  · exact (Table.find?_deleteKey db.objects k k').trans (if_neg hne)

/-- What an eviction frees is what it takes off the bytes that can be freed, and
the number of candidates goes down by one. -/
theorem evictableBytes_tryEvictObject (now : Nat) (hrow : db.objects.find? k = some row)
    (hcandidate : isGcCandidate row = true) :
    (db.tryEvictObject now k).1.evictableBytes now + (db.tryEvictObject now k).2 =
        db.evictableBytes now ∧
      (db.tryEvictObject now k).1.candidateCount + 1 = db.candidateCount := by
  have hkey : row.objId = k := (Table.find?_eq_some_iff.mp hrow).2
  have hbytes := Table.total_eq_add_find? db.objects k (db.evictableWeight now)
  have hcount := Table.total_eq_add_find? db.objects k fun r =>
    if isGcCandidate r then 1 else 0
  rw [hrow] at hbytes hcount
  simp only [Option.map_some, Option.getD_some, hcandidate, if_true] at hbytes hcount
  cases hprotected : db.isProtectedTx now k with
  | true =>
      -- The row stays, but its class is no longer 0.
      have hclass := evictionClassTx_ne_zero hprotected
      have hfacts := sameFacts_recomputeEvictionClassTx db now k
      have hevict : db.tryEvictObject now k = (db.recomputeEvictionClassTx now k, 0) := by
        unfold tryEvictObject
        rw [if_pos hprotected]
      rw [hevict]
      have hweight : (db.recomputeEvictionClassTx now k).evictableWeight now =
          db.evictableWeight now := by
        funext r
        unfold evictableWeight
        rw [hfacts.isProtectedTx]
      have hzero : ∀ r : ObjectRow, r.objId = k → db.evictableWeight now r = 0 := by
        intro r hr
        simp [evictableWeight, hr, hprotected]
      constructor
      · show Table.total _ _ + 0 = Table.total _ _
        rw [hweight, hbytes, hzero row hkey]
        unfold recomputeEvictionClassTx updateObject
        rw [Table.total_updateKey, hrow, Option.map_some, Option.getD_some]
        rw [hzero { row with evictionClass := db.evictionClassTx now k } hkey]
      · show Table.total _ _ + 1 = Table.total _ _
        rw [hcount]
        unfold recomputeEvictionClassTx updateObject
        rw [Table.total_updateKey, hrow, Option.map_some, Option.getD_some]
        simp [isGcCandidate, hclass]
  | false =>
      have hprot := isProtectedTx_evicted hprotected
      have hevict : db.tryEvictObject now k =
          ({ db with
              objects := db.objects.deleteKey k
              chunkItems := db.chunkItems.deleteKey k }, asU64 row.ownedBytes) := by
        unfold tryEvictObject
        rw [hprotected, hrow]
        rfl
      have hweight : (db.tryEvictObject now k).1.evictableWeight now =
          db.evictableWeight now := by
        funext r
        unfold evictableWeight
        rw [hprot]
      have hown : db.evictableWeight now row = asU64 row.ownedBytes := by
        simp [evictableWeight, hcandidate, hkey, hprotected]
      constructor
      · unfold evictableBytes
        rw [hweight, hevict, hbytes, hown]
      · rw [hevict]
        exact hcount.symm

end Evict

/-! ## The candidate list -/

theorem mem_listGcCandidates {db : NamedLocalStoreDb} {limit : Nat} {k : String}
    (h : k ∈ (db.listGcCandidates limit).map Prod.fst) :
    ∃ row, db.objects.find? k = some row ∧ isGcCandidate row = true := by
  simp only [listGcCandidates, List.map_map, List.mem_map] at h
  obtain ⟨row, hrow, rfl⟩ := h
  have hmem := (List.mem_insertionSort _).mp (List.mem_of_mem_take hrow)
  obtain ⟨hrows, hcandidate⟩ := List.mem_filter.mp hmem
  exact ⟨row, Table.find?_key_of_mem hrows, hcandidate⟩

theorem nodup_listGcCandidates (db : NamedLocalStoreDb) (limit : Nat) :
    ((db.listGcCandidates limit).map Prod.fst).Nodup := by
  have hkeys : ((db.objects.rows.filter isGcCandidate).map ObjectRow.objId).Nodup :=
    db.objects.keysNodup.sublist (List.filter_sublist.map _)
  have hperm := (List.perm_insertionSort
    (fun r s : ObjectRow => r.lastAccessTime ≤ s.lastAccessTime)
    (db.objects.rows.filter isGcCandidate)).map ObjectRow.objId
  simp only [listGcCandidates, List.map_map]
  refine List.Nodup.sublist ((List.take_sublist limit _).map _) ?_
  exact hperm.nodup_iff.mpr hkeys

/-- An empty list means that there is no candidate. -/
theorem no_candidate_of_listGcCandidates_eq_nil {db : NamedLocalStoreDb} {limit : Nat}
    (hlimit : 0 < limit) (h : (db.listGcCandidates limit).map Prod.fst = []) :
    ∀ r ∈ db.objects.rows, isGcCandidate r = false := by
  simp only [listGcCandidates, List.map_map, List.map_eq_nil_iff, List.take_eq_nil_iff] at h
  rcases h with hzero | hempty
  · omega
  · intro r hr
    by_contra hcandidate
    rw [Bool.not_eq_false] at hcandidate
    have hmem := (List.mem_insertionSort
      (fun r s : ObjectRow => r.lastAccessTime ≤ s.lastAccessTime)).mpr
        (List.mem_filter.mpr ⟨hr, hcandidate⟩)
    rw [hempty] at hmem
    exact absurd hmem List.not_mem_nil

/-- Without candidates nothing more can be freed. -/
theorem evictableBytes_eq_zero {db : NamedLocalStoreDb} (now : Nat)
    (h : ∀ r ∈ db.objects.rows, isGcCandidate r = false) : db.evictableBytes now = 0 := by
  unfold evictableBytes
  rw [Table.total_congr fun r hr => show db.evictableWeight now r = 0 by
    simp [evictableWeight, h r hr]]
  simp [Table.total]

/-! ## What a finished collection says about the start -/

section Finished

variable {start db : NamedLocalStoreDb} {now : Nat}

theorem Collecting.unprotected_iff (h : Collecting start now db) (k : String) :
    db.Unprotected now k ↔ start.Unprotected now k := by
  unfold Unprotected HasActivePin HasFsAnchor HasIncoming
  rw [h.pins, h.fsAnchors, h.incomingRefs]

/-- If everything that could be collected was a candidate, then a collection that
ran out of candidates has left nothing. -/
theorem Collecting.exhausted (h : Collecting start now db) (hcount : start.CountInv)
    (hcomplete : CandidatesComplete start now)
    (hempty : ∀ r ∈ db.objects.rows, isGcCandidate r = false) : Exhausted db now := by
  constructor
  · intro r hr hbytes hunprotected
    rw [h.unprotected_iff] at hunprotected
    have hprotected := (hcount.isProtectedTx_eq_false_iff now r.objId).mpr hunprotected
    have hfind := Table.find?_key_of_mem hr
    rcases h.unprotected r.objId hprotected with ⟨hsame, -⟩ | ⟨-, hgone, -⟩
    · rw [hsame] at hfind
      have hmem := (Table.find?_eq_some_iff.mp hfind).1
      have hcandidate := hcomplete.objects r hmem hbytes hunprotected
      rw [hempty r hr] at hcandidate
      cases hcandidate
    · rw [hgone] at hfind
      cases hfind
  · intro r hr hbytes hunprotected
    rw [h.unprotected_iff] at hunprotected
    have hprotected := (hcount.isProtectedTx_eq_false_iff now r.chunkId).mpr hunprotected
    have hfind := Table.find?_key_of_mem hr
    rcases h.unprotected r.chunkId hprotected with ⟨hobject, hchunk⟩ | ⟨-, -, hgone⟩
    · rw [hchunk] at hfind
      have hmem := (Table.find?_eq_some_iff.mp hfind).1
      obtain ⟨o, ho, hkey, hcandidate⟩ := hcomplete.chunks r hmem hbytes hunprotected
      have hrow := Table.find?_key_of_mem ho
      rw [hkey, ← hobject] at hrow
      rw [hempty o (Table.find?_eq_some_iff.mp hrow).1] at hcandidate
      cases hcandidate
    · rw [hgone] at hfind
      cases hfind

/-- If a collection has left nothing, then everything that could be collected was
a candidate, because only candidates disappear. -/
theorem Collecting.candidatesComplete (h : Collecting start now db)
    (hcount : start.CountInv) (hexhausted : Exhausted db now) :
    CandidatesComplete start now := by
  constructor
  · intro r hr hbytes hunprotected
    have hprotected := (hcount.isProtectedTx_eq_false_iff now r.objId).mpr hunprotected
    have hfind := Table.find?_key_of_mem hr
    rcases h.unprotected r.objId hprotected with ⟨hsame, -⟩ | ⟨⟨row, hrow, hcandidate⟩, -⟩
    · rw [← hsame] at hfind
      have hmem := (Table.find?_eq_some_iff.mp hfind).1
      exact absurd ((h.unprotected_iff _).mpr hunprotected)
        (hexhausted.objects r hmem hbytes)
    · rw [hfind] at hrow
      cases hrow
      exact hcandidate
  · intro r hr hbytes hunprotected
    have hprotected := (hcount.isProtectedTx_eq_false_iff now r.chunkId).mpr hunprotected
    have hfind := Table.find?_key_of_mem hr
    rcases h.unprotected r.chunkId hprotected with
      ⟨-, hsame⟩ | ⟨⟨row, hrow, hcandidate⟩, -⟩
    · rw [← hsame] at hfind
      have hmem := (Table.find?_eq_some_iff.mp hfind).1
      exact absurd ((h.unprotected_iff _).mpr hunprotected)
        (hexhausted.chunks r hmem hbytes)
    · have hkey := Table.find?_eq_some_iff.mp hrow
      exact ⟨row, hkey.1, hkey.2, hcandidate⟩

end Finished

end NamedLocalStoreDb

namespace NamedStore

open NamedLocalStoreDb

/-! ## The loops of a round -/

section Round

variable (crates : Crates) (now : Nat) (fault : Option FsFault) {targetBytes : Nat}
  {start : NamedLocalStoreDb}

theorem evictCandidate_db (store : NamedStore) (report : GcReport) (k : String) :
    (evictCandidate crates now fault store report k).1.db =
      (store.db.tryEvictObject now k).1 := by
  unfold evictCandidate
  dsimp only
  split_ifs
  · split
    · split_ifs
      · rfl
      · rfl
    · rfl
  · rfl

theorem evictCandidate_freedBytes (store : NamedStore) (report : GcReport) (k : String) :
    (evictCandidate crates now fault store report k).2.freedBytes =
      report.freedBytes + (store.db.tryEvictObject now k).2 := by
  unfold evictCandidate
  dsimp only
  split_ifs with hfreed
  · split
    · split_ifs
      · rfl
      · rfl
    · rfl
  · show report.freedBytes = _
    omega

/-- What a part of a round has done since the store and the report it started
with. -/
structure Collected (start : NamedLocalStoreDb) (now : Nat) (store : NamedStore)
    (report : GcReport) (store' : NamedStore) (report' : GcReport) : Prop where
  collecting : Collecting start now store'.db
  conserved : store'.db.evictableBytes now + report'.freedBytes =
    store.db.evictableBytes now + report.freedBytes

/-- One candidate of the list. -/
theorem collected_evictCandidate {store : NamedStore} {k : String} {row : ObjectRow}
    (report : GcReport) (hcollecting : Collecting start now store.db)
    (hrow : store.db.objects.find? k = some row) (hcandidate : isGcCandidate row = true) :
    Collected start now store report
      (evictCandidate crates now fault store report k).1
      (evictCandidate crates now fault store report k).2 := by
  have hbytes := (evictableBytes_tryEvictObject now hrow hcandidate).1
  constructor
  · rw [evictCandidate_db]
    exact hcollecting.tryEvictObject hrow hcandidate
  · rw [evictCandidate_db, evictCandidate_freedBytes]
    omega

/-- A pass over a list of distinct candidates either reaches the target or takes
all of them out of the candidates. -/
theorem evictCandidates_spec (ks : List String) :
    ∀ (store : NamedStore) (report : GcReport), Collecting start now store.db →
      ks.Nodup →
      (∀ k ∈ ks, ∃ row, store.db.objects.find? k = some row ∧ isGcCandidate row = true) →
      Collected start now store report
          (evictCandidates crates now fault targetBytes store report ks).1.1
          (evictCandidates crates now fault targetBytes store report ks).1.2 ∧
        ((evictCandidates crates now fault targetBytes store report ks).2 = true →
          targetBytes ≤
            (evictCandidates crates now fault targetBytes store report ks).1.2.freedBytes) ∧
        ((evictCandidates crates now fault targetBytes store report ks).2 = false →
          (evictCandidates crates now fault targetBytes store report
              ks).1.1.db.candidateCount + ks.length = store.db.candidateCount) := by
  induction ks with
  | nil =>
      intro store report hcollecting _ _
      refine ⟨⟨hcollecting, rfl⟩, ?_, fun _ => rfl⟩
      intro hearly
      cases hearly
  | cons k rest ih =>
      intro store report hcollecting hnodup hrows
      obtain ⟨row, hrow, hcandidate⟩ := hrows k (by simp)
      obtain ⟨hk, hrest⟩ := List.nodup_cons.mp hnodup
      have hone := collected_evictCandidate crates now fault report hcollecting
        hrow hcandidate
      have hcount := (evictableBytes_tryEvictObject now hrow hcandidate).2
      unfold evictCandidates
      dsimp only
      split_ifs with henough
      · refine ⟨hone, fun _ => henough.2, ?_⟩
        intro hearly
        cases hearly
      · -- The other candidates of the list are still there.
        obtain ⟨hcollected, hearly, hlate⟩ := ih
          (evictCandidate crates now fault store report k).1
          (evictCandidate crates now fault store report k).2 hone.collecting hrest (by
            intro k' hk'
            have hne : k' ≠ k := by
              rintro rfl
              exact hk hk'
            rw [evictCandidate_db, find?_tryEvictObject_of_ne hne]
            exact hrows k' (by simp [hk']))
        refine ⟨⟨hcollected.collecting, ?_⟩, hearly, ?_⟩
        · exact hcollected.conserved.trans hone.conserved
        · intro hflag
          have hrestCount := hlate hflag
          rw [evictCandidate_db] at hrestCount
          rw [List.length_cons]
          omega

/-- The outer loop ends with the target reached or with no candidate left. -/
theorem gcRoundLoop_spec (htarget : 0 < targetBytes) (fuel : Nat) :
    ∀ (store : NamedStore) (report : GcReport), Collecting start now store.db →
      store.db.candidateCount < fuel →
      Collected start now store report
          (gcRoundLoop crates now fault targetBytes fuel store report).1
          (gcRoundLoop crates now fault targetBytes fuel store report).2 ∧
        (targetBytes ≤
            (gcRoundLoop crates now fault targetBytes fuel store report).2.freedBytes ∨
          ∀ r ∈ (gcRoundLoop crates now fault targetBytes fuel store
              report).1.db.objects.rows, isGcCandidate r = false) := by
  induction fuel with
  | zero =>
      intro store report _ hfuel
      omega
  | succ fuel ih =>
      intro store report hcollecting hfuel
      unfold gcRoundLoop
      dsimp only
      by_cases hempty : (store.db.listGcCandidates gcBatchSize).map Prod.fst = []
      · rw [if_pos hempty]
        refine ⟨⟨hcollecting, rfl⟩, Or.inr ?_⟩
        exact no_candidate_of_listGcCandidates_eq_nil (by decide) hempty
      · rw [if_neg hempty]
        obtain ⟨hcollected, hearly, hlate⟩ :=
          evictCandidates_spec crates now fault _ store report hcollecting
            (nodup_listGcCandidates store.db gcBatchSize) fun k hk => mem_listGcCandidates hk
        by_cases hflag : (evictCandidates crates now fault targetBytes store report
            ((store.db.listGcCandidates gcBatchSize).map Prod.fst)).2 = true
        · rw [if_pos (Or.inl hflag)]
          exact ⟨hcollected, Or.inl (hearly hflag)⟩
        · have hpos := List.length_pos_of_ne_nil hempty
          have hless := hlate (Bool.eq_false_iff.mpr hflag)
          rw [if_neg (by rintro (h | h); exacts [hflag h, by omega])]
          obtain ⟨hnext, hend⟩ := ih _
            (evictCandidates crates now fault targetBytes store report
              ((store.db.listGcCandidates gcBatchSize).map Prod.fst)).1.2
            hcollected.collecting (by omega)
          exact ⟨⟨hnext.collecting, hnext.conserved.trans hcollected.conserved⟩, hend⟩

/-- A round with a target frees at most what could be freed when it started, and
if it frees less than the target then it leaves no candidate. -/
theorem gcRound_spec (store : NamedStore) (htarget : 0 < targetBytes) :
    Collecting store.db now (store.gcRound crates now fault targetBytes).1.db ∧
      (store.gcRound crates now fault targetBytes).2.freedBytes ≤
        store.db.evictableBytes now ∧
      ((store.gcRound crates now fault targetBytes).2.freedBytes < targetBytes →
        (∀ r ∈ (store.gcRound crates now fault targetBytes).1.db.objects.rows,
          isGcCandidate r = false) ∧
        (store.gcRound crates now fault targetBytes).2.freedBytes =
          store.db.evictableBytes now) := by
  have hfuel : store.db.candidateCount < store.db.objects.rows.length + 1 := by
    have hone : ∀ r : ObjectRow, (if isGcCandidate r then 1 else 0) ≤ 1 := by
      intro r
      split_ifs
      · omega
      · omega
    have hle := Table.total_le_length store.db.objects hone
    unfold candidateCount
    omega
  obtain ⟨hcollected, hend⟩ := gcRoundLoop_spec crates now fault
    htarget _ store ⟨0, 0, 0, 0⟩ (Collecting.refl store.db now) hfuel
  have hconserved := hcollected.conserved
  unfold gcRound
  refine ⟨hcollected.collecting, ?_, ?_⟩
  · dsimp only at hconserved
    omega
  · intro hless
    rcases hend with henough | hnone
    · omega
    · have hzero := evictableBytes_eq_zero now hnone
      refine ⟨hnone, ?_⟩
      dsimp only at hconserved
      omega

end Round

/-! ## Forced collections after any puts and anchors -/

/-- The calls that put something or change what protects it. -/
def IsPutOrAnchor (call : StoreCall) : Prop :=
  match call.op with
  | .putObject .. | .putChunk .. | .addChunkByLinkToLocalFile .. | .addChunkBySameAs .. => True
  | .gcApi (.pin ..) | .gcApi (.unpin ..) | .gcApi (.fsAcquire ..) | .gcApi (.fsRelease ..)
  | .gcApi (.applyEdge ..) => True
  | _ => False

/-- The anchor counts of the store are right. -/
def AnchorsCounted (store : NamedStore) : Prop :=
  store.db.CountInv

/-- These calls keep the anchor counts right. -/
theorem AnchorsCounted.step {crates : Crates} {store : NamedStore} {call : StoreCall}
    (hcall : IsPutOrAnchor call) (h : store.AnchorsCounted) :
    (store.step crates call).AnchorsCounted := by
  have hcount : store.db.CountInv := h
  have hchunk : ∀ item, (store.db.setChunkItem crates item).CountInv := by
    intro item
    exact hcount.congr (fun _ => rfl) rfl
  unfold AnchorsCounted
  obtain ⟨now, op⟩ := call
  cases op with
  | putObject objId objData =>
      rcases putObject_db crates store now objId objData with hsame | hset
      · exact hsame ▸ hcount
      · exact hset ▸ hcount.putObjectInTx crates objId objId.objType objData now _ _
  | putChunk fault dbWrite chunkId chunkData =>
      rcases putChunkByReader_db crates store now fault dbWrite chunkId chunkData.length
        (ChunkSource.ofBytes chunkData) with hsame | hset
      · exact hsame ▸ hcount
      · exact hset ▸ hchunk _
  | addChunkByLinkToLocalFile chunkId chunkSize chunkLocalInfo =>
      rcases addChunkByLinkToLocalFile_db crates store now chunkId chunkSize chunkLocalInfo
        with hsame | hset
      · exact hsame ▸ hcount
      · exact hset ▸ hchunk _
  | addChunkBySameAs bigChunkId bigChunkSize chunkListId =>
      rcases addChunkBySameAs_db crates store now bigChunkId bigChunkSize chunkListId
        with hsame | hset
      · exact hsame ▸ hcount
      · exact hset ▸ hchunk _
  | gcApi op =>
      refine CountInv.step ?_ hcount
      cases op with
      | removeObject objId => exact absurd hcall id
      | _ => rfl
  | _ => exact absurd hcall id

/-- After any such run, a forced collection is honest about `ENOSPC` exactly when
the class 0 rows of `objects` hold enough bytes, or hold everything unprotected
that has bytes at all. -/
theorem forcedGcUntil_honest_iff (crates : Crates) (readOnly : Bool)
    (calls : List StoreCall) (hcalls : ∀ call ∈ calls, IsPutOrAnchor call) (now : Nat)
    (fault : Option FsFault) (targetBytes : Nat) :
    let store := run (step crates) (fromConfig readOnly) calls
    let forced := store.forcedGcUntil crates now fault targetBytes
    (∀ e, forced.2 = .error e → Exhausted forced.1.db now) ↔
      targetBytes ≤ store.db.evictableBytes now ∨ CandidatesComplete store.db now := by
  intro store forced
  have hcount : store.AnchorsCounted :=
    run_invariant_of_forall (fun _ _ hcall h => h.step hcall) hcalls countInv_empty
  show (∀ e, (store.forcedGcUntil crates now fault targetBytes).2 = .error e →
    Exhausted (store.forcedGcUntil crates now fault targetBytes).1.db now) ↔ _
  unfold forcedGcUntil
  dsimp only
  by_cases htarget : targetBytes = 0
  · -- Nothing is asked for, so the call succeeds.
    rw [if_pos (by omega)]
    refine ⟨fun _ => Or.inl (by omega), ?_⟩
    intro _ e he
    cases he
  · obtain ⟨hcollecting, hmost, hless⟩ :=
      gcRound_spec crates now fault store (Nat.pos_of_ne_zero htarget)
    by_cases henough : targetBytes ≤
        (store.gcRound crates now fault targetBytes).2.freedBytes
    · rw [if_pos henough]
      refine ⟨fun _ => Or.inl (by omega), ?_⟩
      intro _ e he
      cases he
    · obtain ⟨hnone, hall⟩ := hless (by omega)
      rw [if_neg henough]
      constructor
      · intro hhonest
        exact Or.inr (hcollecting.candidatesComplete hcount (hhonest _ rfl))
      · intro hcondition e _
        rcases hcondition with hbytes | hcomplete
        · omega
        · exact hcollecting.exhausted hcount hcomplete hnone

/-- Three packages and a chunk.  The second package is pinned and the chunk is anchored. -/
def packagesRun : List StoreCall :=
  [⟨1, .putObject ⟨"pkg", [1]⟩ "x"⟩, ⟨2, .putObject ⟨"pkg", [2]⟩ "yy"⟩,
    ⟨3, .putObject ⟨"pkg", [3]⟩ "zzz"⟩, ⟨4, .putChunk none .committed abcChunk [97, 98, 99]⟩,
    ⟨5, .gcApi (.pin ⟨"pkg", [2]⟩ "app" .recursive none)⟩,
    ⟨6, .gcApi (.fsAcquire abcChunk.toObjId 7 0)⟩]

/-- Asked for five bytes it answers `ENOSPC` with four freed, and what is left with bytes is
protected. -/
theorem packagesRun_exhausted :
    let store := run (step sampleCrates) (fromConfig false) packagesRun
    (store.forcedGcUntil sampleCrates 7 none 5).2 =
        .error (.ioError ("ENOSPC: freed 4 bytes but needed 5; " ++
          "no class-0 owned bytes left to evict")) ∧
      Exhausted (store.forcedGcUntil sampleCrates 7 none 5).1.db 7 := by
  intro store
  have henospc : (store.forcedGcUntil sampleCrates 7 none 5).2 =
      .error (.ioError ("ENOSPC: freed 4 bytes but needed 5; " ++
        "no class-0 owned bytes left to evict")) := by
    decide
  have hcalls : ∀ call ∈ packagesRun, IsPutOrAnchor call := by
    simp [packagesRun, IsPutOrAnchor]
  have hcomplete : CandidatesComplete store.db 7 := ⟨by decide, by decide⟩
  have hhonest := (forcedGcUntil_honest_iff sampleCrates false packagesRun hcalls 7 none
    5).mpr (Or.inr hcomplete)
  exact ⟨henospc, hhonest _ henospc⟩

/-- A store that holds the chunk `abc` and nothing that protects it. -/
def chunkRun : List StoreCall :=
  [⟨0, .putChunk none .committed abcChunk [97, 98, 99]⟩]

/-- Asked for one byte it answers `ENOSPC`, and the three bytes of the chunk are
still there, with no pin, no anchor and no reference. -/
theorem chunkRun_enospc_with_unprotected_chunk :
    (∀ call ∈ chunkRun, IsPutOrAnchor call) ∧
      ((run (step sampleCrates) (fromConfig false) chunkRun).forcedGcUntil
          sampleCrates 0 none 1).2 =
        .error (.ioError ("ENOSPC: freed 0 bytes but needed 1; " ++
          "no class-0 owned bytes left to evict")) ∧
      ∃ r ∈ ((run (step sampleCrates) (fromConfig false) chunkRun).forcedGcUntil
          sampleCrates 0 none 1).1.db.chunkItems.rows,
        r.chunkId = abcChunk.toString sampleCrates ∧ r.ownedBytes = 3 ∧
          ((run (step sampleCrates) (fromConfig false) chunkRun).forcedGcUntil
            sampleCrates 0 none 1).1.db.Unprotected 0 r.chunkId := by
  refine ⟨?_, by decide, by decide⟩
  intro call hcall
  rw [chunkRun, List.mem_singleton] at hcall
  subst hcall
  trivial

end NamedStore

end NamedStore
end CyfsNdn

import CyfsNdn.FsMeta.CacheTree
import CyfsNdn.Transition.Run

/-!
# Invalidation by edge

A session is a cache together with the puts it has accepted and the allocations that an
invalidation has made stale since: those of the puts whose chain used the invalidated
edge.  No lookup may answer from a stale allocation.

The edge index holds one path for an edge.  It covers a put when it leads every edge of
the put's chain to a prefix of the put's path, so that invalidating the edge takes the
entry out of the trie.  All live entries are covered as long as no put makes the index
drop or overwrite a path that a live entry still needs; both can happen, and the run at
the end of the file shows the first of them.
-/

namespace CyfsNdn
namespace FsMeta
namespace PathResolveCache

open Collections NdnLib Relational Transition

/-! ## Sessions -/

/-- A put that was accepted, under the entry id it assigned. -/
structure PutRecord where
  origin : EntryId
  components : Components
  parents : List IndexNodeId

/-- The chain of the put used the edge. -/
def PutRecord.uses (put : PutRecord) (edge : Edge) : Bool :=
  (List.range put.components.length).any fun i =>
    edgeAt put.parents put.components i = edge

/-- A cache with its history. -/
structure Session where
  cache : PathResolveCache
  puts : List PutRecord
  stale : List EntryId

/-- A new cache. -/
def start (maxEntries : Nat) : Session := ⟨new maxEntries, [], []⟩

/-- The calls of the cache, each with the iteration order its `HashMap`s happen to use. -/
inductive Action where
  | putIdsForPath (order : HashOrder) (components : Components) (ids : List IndexNodeId)
  | putTerminalForPath (order : HashOrder) (components : Components)
      (parentIds : List IndexNodeId) (value : PathResolveTerminalValue)
  | getIdsForPath (components : Components)
  | getTerminalForPath (components : Components)
  | getLongestPrefixIdsForPath (components : Components)
  | invalidateByEdge (order : HashOrder) (parent : IndexNodeId) (name : String)

/-- The session after a put of the cache was accepted. -/
def Session.entered (s : Session) (cache : PathResolveCache) (components : Components)
    (parents : List IndexNodeId) : Session :=
  { s with
    cache := cache
    puts := s.puts ++ [⟨s.cache.nextEntryId, components, parents⟩] }

/-- One call. -/
def step (s : Session) : Action → Session
  | .putIdsForPath order components ids =>
      if ids.length ≠ components.length + 1 then s
      else s.entered (s.cache.putIdsForPath order components ids) components ids
  | .putTerminalForPath order components parentIds value =>
      if parentIds.length ≠ components.length then s
      else
        s.entered (s.cache.putTerminalForPath order components parentIds value) components
          parentIds
  | .getIdsForPath components => { s with cache := (s.cache.getIdsForPath components).2 }
  | .getTerminalForPath components =>
      { s with cache := (s.cache.getTerminalForPath components).2 }
  | .getLongestPrefixIdsForPath _ => s
  | .invalidateByEdge order parent name =>
      { s with
        cache := s.cache.invalidateByEdge order parent name
        stale := s.stale ++
          (s.puts.filter fun put => put.uses (parent, name)).map PutRecord.origin }

/-- No lookup answers from a stale allocation. -/
def NoStaleAnswer (s : Session) : Prop :=
  (∀ components ids, (s.cache.getIdsForPath components).1 = some ids →
    ids.origin ∉ s.stale) ∧
  (∀ components hit, (s.cache.getTerminalForPath components).1 = some hit →
    hit.value.origin ∉ s.stale) ∧
  (∀ components ids, s.cache.getLongestPrefixIdsForPath components = some ids →
    ids.origin ∉ s.stale)

/-! ## What a put may do -/

/-- The entry that an eviction takes out has no live entry below it: its edge would leave
the index although the deeper entry still needs it. -/
def EvictsLeaf (cache : PathResolveCache) : Prop :=
  ∀ entry, cache.oldestEntry = some entry → entry.2 ≠ [] →
    ∀ rest, rest ≠ [] → ¬ Live cache.root (entry.2 ++ rest)

/-- Where the index holds another path for an edge of the chain, nothing below that path
is live. -/
def KeepsEdges (cache : PathResolveCache) (parents : List IndexNodeId)
    (components : Components) : Prop :=
  ∀ i < components.length, ∀ entry,
    cache.edgeIndex.find? (edgeAt parents components i) = some entry →
      entry.2 = components.take (i + 1) ∨ ∀ rest, ¬ Live cache.root (entry.2 ++ rest)

/-- The condition under which a put loses no edge of a live entry. -/
def SafePut (cache : PathResolveCache) (parents : List IndexNodeId)
    (components : Components) : Prop :=
  (cache.evicts components = true → cache.EvictsLeaf) ∧ cache.KeepsEdges parents components

/-- Every call but an accepted put is safe. -/
def SafeAction (s : Session) : Action → Prop
  | .putIdsForPath _ components ids =>
      ids.length = components.length + 1 → s.cache.SafePut ids components
  | .putTerminalForPath _ components parentIds _ =>
      parentIds.length = components.length → s.cache.SafePut parentIds components
  | _ => True

/-! ## The index covers the trie -/

/-- Every edge of the put's chain leads to a prefix of its path. -/
def Covered (index : Table (Edge × Components) Prod.fst) (put : PutRecord) : Prop :=
  ∀ i < put.components.length, ∃ entry,
    index.find? (edgeAt put.parents put.components i) = some entry ∧
      entry.2 <+: put.components

/-- An allocation that is not stale and was made by a covered put under the path. -/
def Entered (index : Table (Edge × Components) Prod.fst) (puts : List PutRecord)
    (stale : List EntryId) (origin : EntryId) (path : Components) : Prop :=
  origin ∉ stale ∧ ∃ put ∈ puts, put.origin = origin ∧ put.components = path ∧
    Covered index put

/-- The invariant of a session. -/
structure Inv (s : Session) : Prop where
  sound : SoundFrom (Entered s.cache.edgeIndex s.puts s.stale) [] s.cache.root
  assigned : ∀ put ∈ s.puts, put.origin < s.cache.nextEntryId
  distinct : (s.puts.map PutRecord.origin).Nodup
  staleAssigned : ∀ origin ∈ s.stale, origin < s.cache.nextEntryId

theorem inv_start (maxEntries : Nat) : Inv (start maxEntries) where
  sound := soundFrom_default
  assigned := fun _ hput => absurd hput List.not_mem_nil
  distinct := List.nodup_nil
  staleAssigned := fun _ hstale => absurd hstale List.not_mem_nil

theorem covered_of_find? {index index' : Table (Edge × Components) Prod.fst}
    {put : PutRecord} (h : Covered index put)
    (hfind : ∀ edge entry, index.find? edge = some entry → entry.2 <+: put.components →
      ∃ entry', index'.find? edge = some entry' ∧ entry'.2 <+: put.components) :
    Covered index' put := by
  intro i hi
  obtain ⟨entry, hentry, hpath⟩ := h i hi
  exact hfind _ entry hentry hpath

/-- What a lookup of the index finds after a chain was entered. -/
theorem find?_insertEdges (index : Table (Edge × Components) Prod.fst)
    (parents : List IndexNodeId) (components : Components) (edge : Edge) :
    (∃ i < components.length, edgeAt parents components i = edge ∧
      (insertEdges index parents components).find? edge =
        some (edge, components.take (i + 1))) ∨
    (insertEdges index parents components).find? edge = index.find? edge ∧
      ∀ i < components.length, edgeAt parents components i ≠ edge := by
  have hfold : ∀ n,
      (∃ i < n, edgeAt parents components i = edge ∧
        ((List.range n).foldl (fun index i => index.insertOrReplace
          (edgeAt parents components i, components.take (i + 1))) index).find? edge =
          some (edge, components.take (i + 1))) ∨
      ((List.range n).foldl (fun index i => index.insertOrReplace
        (edgeAt parents components i, components.take (i + 1))) index).find? edge =
          index.find? edge ∧ ∀ i < n, edgeAt parents components i ≠ edge := by
    intro n
    induction n with
    | zero => exact Or.inr ⟨rfl, fun i hi => absurd hi (Nat.not_lt_zero i)⟩
    | succ n ih =>
        rw [List.range_succ, List.foldl_append, List.foldl_cons, List.foldl_nil,
          Table.find?_insertOrReplace]
        by_cases hedge : edgeAt parents components n = edge
        · left
          refine ⟨n, Nat.lt_succ_self n, hedge, ?_⟩
          rw [if_pos hedge.symm, hedge]
        · rw [if_neg (fun h => hedge h.symm)]
          rcases ih with ⟨i, hi, hsame, hfind⟩ | ⟨hfind, hne⟩
          · exact Or.inl ⟨i, Nat.lt_succ_of_lt hi, hsame, hfind⟩
          · refine Or.inr ⟨hfind, ?_⟩
            intro i hi
            rcases Nat.lt_succ_iff_lt_or_eq.mp hi with hlt | heq
            · exact hne i hlt
            · exact heq ▸ hedge
  exact hfold components.length

/-- A put's own chain is covered once it is in the index. -/
theorem covered_insertEdges (index : Table (Edge × Components) Prod.fst) (put : PutRecord) :
    Covered (insertEdges index put.parents put.components) put := by
  intro i hi
  rcases find?_insertEdges index put.parents put.components
      (edgeAt put.parents put.components i) with ⟨j, -, -, hfind⟩ | ⟨-, hne⟩
  · exact ⟨_, hfind, List.take_prefix _ _⟩
  · exact absurd rfl (hne i hi)

/-! ## Eviction -/

/-- What an eviction leaves: nothing new is live and nothing new is in the index. -/
structure Shrinks (cache after : PathResolveCache) : Prop where
  live : ∀ path, Live after.root path → Live cache.root path
  index : ∀ edge entry, after.edgeIndex.find? edge = some entry →
    cache.edgeIndex.find? edge = some entry
  nextEntryId : after.nextEntryId = cache.nextEntryId

theorem Shrinks.refl (cache : PathResolveCache) : Shrinks cache cache :=
  ⟨fun _ h => h, fun _ _ h => h, rfl⟩

theorem find?_deleteWhere {index : Table (Edge × Components) Prod.fst}
    {p : Edge × Components → Bool} {edge : Edge} {entry : Edge × Components} :
    (index.deleteWhere p).find? edge = some entry ↔
      index.find? edge = some entry ∧ p entry = false := by
  rw [Table.find?_eq_some_iff, Table.find?_eq_some_iff, Table.mem_deleteWhere]
  tauto

theorem live_of_live_clear (order : HashOrder) {path rest : Components}
    {t : PathResolveCacheNode}
    (h : Live (Trie.edit NodeData.default id clearNode (recomputeDeepestInode order) path t)
      rest) : Live t rest := by
  refine live_of_live_edit (recomputeDeepestInode_value order) (fun _ hnone => hnone) ?_ h
  intro u rest hu
  cases rest with
  | nil => exact absurd rfl (live_nil.mp hu)
  | cons c rest => exact live_cons.mpr (live_cons.mp hu)

theorem removeSingleEntry_shrinks (order : HashOrder) (cache : PathResolveCache)
    (path : Components) : Shrinks cache (removeSingleEntry order cache path) := by
  unfold removeSingleEntry
  by_cases hpath : path = []
  · rw [if_pos hpath]
    exact ⟨fun _ h => live_of_live_clear order h, fun _ _ h => h, rfl⟩
  · rw [if_neg hpath]
    cases cache.root.get? path with
    | none => exact Shrinks.refl cache
    | some _ =>
        exact ⟨fun _ h => live_of_live_clear order h,
          fun _ _ h => (find?_deleteWhere.mp h).1, rfl⟩

theorem removeSingleEntry_sound (order : HashOrder) {cache : PathResolveCache}
    {path : Components} {puts : List PutRecord} {stale : List EntryId}
    (h : SoundFrom (Entered cache.edgeIndex puts stale) [] cache.root)
    (hleaf : path ≠ [] → ∀ rest, rest ≠ [] → ¬ Live cache.root (path ++ rest)) :
    SoundFrom (Entered (removeSingleEntry order cache path).edgeIndex puts stale) []
      (removeSingleEntry order cache path).root := by
  have hcleared : SoundFrom (Entered cache.edgeIndex puts stale) []
      (Trie.edit NodeData.default id clearNode (recomputeDeepestInode order) path cache.root) :=
    soundFrom_rebuild order h (fun _ _ hv => hv) (fun _ hu => soundFrom_clearNode order hu)
  unfold removeSingleEntry
  by_cases hpath : path = []
  · rw [if_pos hpath]
    rw [hpath] at hcleared
    exact hcleared
  · rw [if_neg hpath]
    cases cache.root.get? path with
    | none => exact h
    | some _ =>
        apply soundFrom_mono hcleared
        rintro origin rest hlive ⟨hfresh, put, hput, horigin, hcomponents, hcovered⟩
        refine ⟨hfresh, put, hput, horigin, hcomponents, covered_of_find? hcovered ?_⟩
        intro edge entry hentry hprefix
        refine ⟨entry, find?_deleteWhere.mpr ⟨hentry, ?_⟩, hprefix⟩
        -- a dropped path would be that of a live entry at or below the evicted one
        rw [decide_eq_false_iff_not]
        intro hdropped
        rw [hdropped, hcomponents, List.nil_append] at hprefix
        obtain ⟨below, rfl⟩ := hprefix
        by_cases hbelow : below = []
        · subst hbelow
          exact not_live_edit (recomputeDeepestInode_value order)
            (fun u hu => live_nil.mp hu rfl) path cache.root hlive
        · exact hleaf hpath below hbelow (live_of_live_clear order hlive)

theorem evictLru_shrinks (order : HashOrder) (cache : PathResolveCache) :
    Shrinks cache (cache.evictLru order) := by
  unfold evictLru
  cases cache.oldestEntry with
  | none => exact Shrinks.refl cache
  | some entry =>
      obtain ⟨hlive, hindex, hnext⟩ := removeSingleEntry_shrinks order
        { cache with
          lruMap := cache.lruMap.deleteKey entry.1
          entryCount := cache.entryCount - 1 } entry.2
      exact ⟨hlive, hindex, hnext⟩

theorem makeRoom_shrinks (order : HashOrder) (cache : PathResolveCache)
    (components : Components) : Shrinks cache (cache.makeRoom order components) := by
  unfold makeRoom
  split_ifs
  · exact evictLru_shrinks order cache
  · exact Shrinks.refl cache

theorem makeRoom_sound (order : HashOrder) {cache : PathResolveCache}
    {components : Components} {puts : List PutRecord} {stale : List EntryId}
    (h : SoundFrom (Entered cache.edgeIndex puts stale) [] cache.root)
    (hleaf : cache.evicts components = true → cache.EvictsLeaf) :
    SoundFrom (Entered (cache.makeRoom order components).edgeIndex puts stale) []
      (cache.makeRoom order components).root := by
  unfold makeRoom
  split_ifs with hevicts
  · unfold evictLru
    cases hentry : cache.oldestEntry with
    | none => exact h
    | some entry => exact removeSingleEntry_sound order h (hleaf hevicts entry hentry)
  · exact h

/-! ## Puts -/

/-- Entering a chain keeps every live entry covered and covers the new one. -/
theorem entered_insertEdges {cache evicted : PathResolveCache} (hshrinks : Shrinks cache evicted)
    {parents : List IndexNodeId} {components : Components}
    (hkeeps : cache.KeepsEdges parents components) {puts : List PutRecord}
    {stale : List EntryId} {origin : EntryId} {path : Components} (put : PutRecord)
    (hlive : Live evicted.root path) (h : Entered evicted.edgeIndex puts stale origin path) :
    Entered (insertEdges evicted.edgeIndex parents components) (puts ++ [put]) stale origin
      path := by
  obtain ⟨hfresh, old, hold, horigin, hcomponents, hcovered⟩ := h
  refine ⟨hfresh, old, List.mem_append_left _ hold, horigin, hcomponents,
    covered_of_find? hcovered ?_⟩
  intro edge entry hentry hprefix
  rcases find?_insertEdges evicted.edgeIndex parents components edge with
    ⟨i, hi, hedge, hfind⟩ | ⟨hfind, -⟩
  · refine ⟨_, hfind, ?_⟩
    have hbefore := hshrinks.index edge entry hentry
    rw [← hedge] at hbefore
    rcases hkeeps i hi entry hbefore with hsame | hdead
    · exact hsame ▸ hprefix
    · rw [hcomponents] at hprefix
      obtain ⟨rest, hrest⟩ := hprefix
      exact absurd (hrest ▸ hshrinks.live path hlive) (hdead rest)
  · exact ⟨entry, hfind.trans hentry, hprefix⟩

/-- What a put leaves, whatever it wrote into the trie. -/
theorem inv_entered {s : Session} (h : Inv s) {cache : PathResolveCache}
    {components : Components} {parents : List IndexNodeId}
    (hnext : cache.nextEntryId = s.cache.nextEntryId + 1)
    (hsound : SoundFrom (Entered cache.edgeIndex
      (s.puts ++ [⟨s.cache.nextEntryId, components, parents⟩]) s.stale) [] cache.root) :
    Inv (s.entered cache components parents) := by
  refine ⟨hsound, ?_, ?_, ?_⟩
  · intro put hput
    show put.origin < cache.nextEntryId
    rw [hnext]
    rcases List.mem_append.mp hput with hold | hnew
    · exact Nat.lt_succ_of_lt (h.assigned put hold)
    · rw [List.mem_singleton] at hnew
      rw [hnew]
      exact Nat.lt_succ_self _
  · show ((s.puts ++ [_]).map PutRecord.origin).Nodup
    rw [List.map_append, List.nodup_append]
    refine ⟨h.distinct, List.nodup_singleton _, ?_⟩
    intro a ha b hb hab
    obtain ⟨put, hput, hputOrigin⟩ := List.mem_map.mp ha
    have hlt := h.assigned put hput
    rw [hputOrigin, hab, List.mem_singleton.mp hb] at hlt
    exact Nat.lt_irrefl _ hlt
  · intro origin horigin
    show origin < cache.nextEntryId
    rw [hnext]
    exact Nat.lt_succ_of_lt (h.staleAssigned origin horigin)

/-- The trie and the relation before the value of a put is written. -/
theorem sound_before_write {s : Session} (h : Inv s) (order : HashOrder)
    {components : Components} {parents : List IndexNodeId}
    (hsafe : s.cache.SafePut parents components) :
    SoundFrom
      (Entered (insertEdges (s.cache.makeRoom order components).edgeIndex parents components)
        (s.puts ++ [⟨s.cache.nextEntryId, components, parents⟩]) s.stale) []
      (s.cache.makeRoom order components).root ∧
    Entered (insertEdges (s.cache.makeRoom order components).edgeIndex parents components)
      (s.puts ++ [⟨s.cache.nextEntryId, components, parents⟩]) s.stale s.cache.nextEntryId
      ([] ++ components) := by
  constructor
  · apply soundFrom_mono (makeRoom_sound order h.sound hsafe.1)
    intro origin rest hlive hentered
    exact entered_insertEdges (makeRoom_shrinks order s.cache components) hsafe.2 _ hlive
      hentered
  · refine ⟨?_, _, List.mem_append_right _ (List.mem_singleton_self _), rfl, rfl,
      covered_insertEdges _ ⟨s.cache.nextEntryId, components, parents⟩⟩
    intro hstale
    exact Nat.lt_irrefl _ (h.staleAssigned _ hstale)

theorem clearData_default : clearData NodeData.default = NodeData.default := rfl

theorem inv_putIdsForPath {s : Session} (h : Inv s) (order : HashOrder)
    {components : Components} {ids : List IndexNodeId}
    (hlength : ids.length = components.length + 1)
    (hsafe : s.cache.SafePut ids components) :
    Inv (s.entered (s.cache.putIdsForPath order components ids) components ids) := by
  have hnext := (makeRoom_shrinks order s.cache components).nextEntryId
  obtain ⟨hbefore, hentered⟩ := sound_before_write h order hsafe
  unfold putIdsForPath
  rw [if_neg (fun hne => hne hlength)]
  refine inv_entered h (congrArg (· + 1) hnext) ?_
  show SoundFrom _ [] (Trie.edit NodeData.default id
    (idsNode (s.cache.makeRoom order components).nextEntryId ids)
    (raiseDeepest ⟨(s.cache.makeRoom order components).nextEntryId, ids⟩) components
    (Trie.mapAbove clearData components (s.cache.makeRoom order components).root))
  rw [Trie.edit_mapAbove clearData_default, hnext]
  exact soundFrom_putIds hbefore hentered hlength

theorem inv_putTerminalForPath {s : Session} (h : Inv s) (order : HashOrder)
    {components : Components} {parentIds : List IndexNodeId}
    (value : PathResolveTerminalValue) (hlength : parentIds.length = components.length)
    (hsafe : s.cache.SafePut parentIds components) :
    Inv (s.entered (s.cache.putTerminalForPath order components parentIds value) components
      parentIds) := by
  have hnext := (makeRoom_shrinks order s.cache components).nextEntryId
  obtain ⟨hbefore, hentered⟩ := sound_before_write h order hsafe
  unfold putTerminalForPath
  rw [if_neg (fun hne => hne hlength)]
  refine inv_entered h (congrArg (· + 1) hnext) ?_
  show SoundFrom _ [] (Trie.edit NodeData.default id
    (terminalNode (s.cache.makeRoom order components).nextEntryId value)
    (recomputeDeepestInode order) components
    (Trie.mapAbove clearData components (s.cache.makeRoom order components).root))
  rw [Trie.edit_mapAbove clearData_default, hnext]
  exact soundFrom_putTerminal order hbefore hentered value

/-! ## Lookups -/

theorem inv_refreshNode {s : Session} (h : Inv s) (components : Components)
    (node : PathResolveCacheNode) :
    Inv { s with cache := s.cache.refreshNode components node } := by
  unfold refreshNode
  cases node.data.entryId with
  | none => exact h
  | some oldEntryId =>
      dsimp only
      unfold refreshLruForPath
      cases s.cache.lruMap.find? oldEntryId with
      | none => exact h
      | some lruEntry =>
          have hassigned : ∀ put ∈ s.puts, put.origin < s.cache.nextEntryId + 1 :=
            fun put hput => Nat.lt_succ_of_lt (h.assigned put hput)
          have hstale : ∀ origin ∈ s.stale, origin < s.cache.nextEntryId + 1 :=
            fun origin horigin => Nat.lt_succ_of_lt (h.staleAssigned origin horigin)
          dsimp only
          cases s.cache.root.get? components with
          | none => exact ⟨h.sound, hassigned, h.distinct, hstale⟩
          | some _ => exact ⟨soundFrom_withEntryId h.sound, hassigned, h.distinct, hstale⟩

theorem inv_getIdsForPath {s : Session} (h : Inv s) (components : Components) :
    Inv { s with cache := (s.cache.getIdsForPath components).2 } := by
  unfold getIdsForPath
  cases s.cache.root.get? components with
  | none => exact h
  | some node =>
      dsimp only
      cases idsOfNode node with
      | none => exact h
      | some v =>
          dsimp only
          split_ifs
          · exact h
          · exact inv_refreshNode h components node

theorem inv_getTerminalForPath {s : Session} (h : Inv s) (components : Components) :
    Inv { s with cache := (s.cache.getTerminalForPath components).2 } := by
  unfold getTerminalForPath
  cases findTerminal s.cache.root components 0 with
  | none => exact h
  | some hit => exact inv_refreshNode h _ _

/-! ## Invalidations -/

/-- Invalidating a path keeps the rest covered and leaves nothing live below the path. -/
theorem invalidatePrefix_spec (order : HashOrder) {cache : PathResolveCache}
    (path : Components) {puts : List PutRecord} {stale : List EntryId}
    (h : SoundFrom (Entered cache.edgeIndex puts stale) [] cache.root) :
    SoundFrom (Entered (cache.invalidatePrefix order path).edgeIndex puts stale) []
      (cache.invalidatePrefix order path).root ∧
    (∀ rest, ¬ Live (cache.invalidatePrefix order path).root (path ++ rest)) ∧
    (∀ edge entry, (cache.invalidatePrefix order path).edgeIndex.find? edge = some entry →
      cache.edgeIndex.find? edge = some entry) ∧
    (cache.invalidatePrefix order path).nextEntryId = cache.nextEntryId := by
  unfold invalidatePrefix
  cases hlast : path.getLast? with
  | none =>
      refine ⟨soundFrom_default, fun rest => not_live_default _, ?_, rfl⟩
      exact fun edge entry hentry => absurd hentry (by simp)
  | some leaf =>
      dsimp only
      have hpath : path = path.dropLast ++ [leaf] := (List.dropLast_append_getLast? leaf hlast).symm
      cases hparent : cache.root.get? path.dropLast with
      | none =>
          refine ⟨h, ?_, fun _ _ hentry => hentry, rfl⟩
          rintro rest ⟨u, hget, -⟩
          rw [hpath, List.append_assoc] at hget
          obtain ⟨v, hv⟩ := Trie.exists_get?_of_append hget
          rw [hparent] at hv
          exact absurd hv (by simp)
      | some _ =>
          have hnone : ∀ rest, ¬ Live (Trie.edit NodeData.default id
              (fun node => node.eraseChild leaf) (recomputeDeepestInode order) path.dropLast
              cache.root) (path ++ rest) := by
            intro rest
            have hdead : ¬ Live (Trie.edit NodeData.default id
                (fun node => node.eraseChild leaf) (recomputeDeepestInode order) path.dropLast
                cache.root) (path.dropLast ++ leaf :: rest) :=
              not_live_edit (recomputeDeepestInode_value order) (by
                rintro u hu
                obtain ⟨v, hchild, -⟩ := live_cons.mp hu
                rw [Trie.child?_eraseChild, if_pos rfl] at hchild
                exact absurd hchild (by simp))
              path.dropLast cache.root
            rw [hpath, List.append_assoc, List.singleton_append]
            rw [← hpath]
            exact hdead
          refine ⟨?_, hnone, fun _ _ hentry => (find?_deleteWhere.mp hentry).1, rfl⟩
          apply soundFrom_mono (soundFrom_rebuild order h (fun _ _ hv => hv)
            (fun _ hu => soundFrom_eraseChild order leaf hu))
          rintro origin rest hlive ⟨hfresh, put, hput, horigin, hcomponents, hcovered⟩
          refine ⟨hfresh, put, hput, horigin, hcomponents, covered_of_find? hcovered ?_⟩
          intro edge entry hentry hprefix
          refine ⟨entry, find?_deleteWhere.mpr ⟨hentry, ?_⟩, hprefix⟩
          -- a dropped path leads to an entry below the invalidated one
          by_contra hdropped
          have hbelow : path <+: entry.2 := by
            rw [← List.isPrefixOf_iff_prefix]
            simpa using hdropped
          rw [hcomponents, List.nil_append] at hprefix
          obtain ⟨below, hpathRest⟩ := hbelow.trans hprefix
          exact hnone below (hpathRest ▸ hlive)

theorem inv_invalidateByEdge {s : Session} (h : Inv s) (order : HashOrder)
    (parent : IndexNodeId) (name : String) :
    Inv (step s (.invalidateByEdge order parent name)) := by
  have hstale : ∀ origin ∈ s.stale ++
      (s.puts.filter fun put => put.uses (parent, name)).map PutRecord.origin,
      origin < s.cache.nextEntryId := by
    intro origin horigin
    rcases List.mem_append.mp horigin with hold | hnew
    · exact h.staleAssigned origin hold
    · obtain ⟨put, hput, rfl⟩ := List.mem_map.mp hnew
      exact h.assigned put (List.mem_of_mem_filter hput)
  -- an entry that stays live does not use the edge: the index would lead to it
  have hstill : ∀ {index : Table (Edge × Components) Prod.fst} {origin path},
      (∀ put, Covered index put → put.components = path → put.uses (parent, name) = false) →
      Entered index s.puts s.stale origin path →
      Entered index s.puts (s.stale ++
        (s.puts.filter fun put => put.uses (parent, name)).map PutRecord.origin) origin path := by
    rintro index origin path hunused ⟨hfresh, put, hput, horigin, hcomponents, hcovered⟩
    refine ⟨?_, put, hput, horigin, hcomponents, hcovered⟩
    intro hmem
    rcases List.mem_append.mp hmem with hold | hnew
    · exact hfresh hold
    · obtain ⟨other, hother, hsame⟩ := List.mem_map.mp hnew
      rw [List.mem_filter] at hother
      have heq : other = put :=
        List.inj_on_of_nodup_map h.distinct hother.1 hput (hsame.trans horigin.symm)
      rw [heq, hunused put hcovered hcomponents] at hother
      exact absurd hother.2 (by simp)
  have huses : ∀ put : PutRecord, put.uses (parent, name) = true →
      ∃ i < put.components.length, edgeAt put.parents put.components i = (parent, name) := by
    intro put huse
    obtain ⟨i, hi, hedge⟩ := List.any_eq_true.mp huse
    exact ⟨i, List.mem_range.mp hi, by simpa using hedge⟩
  show Inv ⟨s.cache.invalidateByEdge order parent name, s.puts, _⟩
  unfold invalidateByEdge
  cases hfind : s.cache.edgeIndex.find? (parent, name) with
  | none =>
      refine ⟨soundFrom_mono h.sound ?_, h.assigned, h.distinct, hstale⟩
      intro origin rest _ hentered
      apply hstill ?_ hentered
      intro put hcovered _
      by_contra huse
      obtain ⟨i, hi, hedge⟩ := huses put (by simpa using huse)
      obtain ⟨entry, hentry, -⟩ := hcovered i hi
      rw [hedge, hfind] at hentry
      exact absurd hentry (by simp)
  | some found =>
      obtain ⟨hsound, hdead, hindex, hnext⟩ :=
        invalidatePrefix_spec order found.2 h.sound
      refine ⟨soundFrom_mono hsound ?_, ?_, h.distinct, ?_⟩
      · intro origin rest hlive hentered
        apply hstill ?_ hentered
        intro put hcovered hcomponents
        by_contra huse
        obtain ⟨i, hi, hedge⟩ := huses put (by simpa using huse)
        obtain ⟨entry, hentry, hprefix⟩ := hcovered i hi
        have hsame := hindex _ entry hentry
        rw [hedge, hfind, Option.some.injEq] at hsame
        rw [← hsame, hcomponents, List.nil_append] at hprefix
        obtain ⟨below, hbelow⟩ := hprefix
        exact hdead below (hbelow ▸ hlive)
      · intro put hput
        exact lt_of_lt_of_eq (h.assigned put hput) hnext.symm
      · intro origin horigin
        exact lt_of_lt_of_eq (hstale origin horigin) hnext.symm

/-! ## Runs -/

theorem inv_step {s : Session} {action : Action} (hsafe : SafeAction s action) (h : Inv s) :
    Inv (step s action) := by
  cases action with
  | putIdsForPath order components ids =>
      dsimp only [step]
      by_cases hlength : ids.length = components.length + 1
      · rw [if_neg (fun hne => hne hlength)]
        exact inv_putIdsForPath h order hlength (hsafe hlength)
      · rw [if_pos hlength]
        exact h
  | putTerminalForPath order components parentIds value =>
      dsimp only [step]
      by_cases hlength : parentIds.length = components.length
      · rw [if_neg (fun hne => hne hlength)]
        exact inv_putTerminalForPath h order value hlength (hsafe hlength)
      · rw [if_pos hlength]
        exact h
  | getIdsForPath components => exact inv_getIdsForPath h components
  | getTerminalForPath components => exact inv_getTerminalForPath h components
  | getLongestPrefixIdsForPath components => exact h
  | invalidateByEdge order parent name => exact inv_invalidateByEdge h order parent name

/-- What a node of a sound trie answers was entered. -/
theorem idsOfNode_fresh {s : Session} (h : Inv s) {path : Components}
    {node : PathResolveCacheNode} (hget : s.cache.root.get? path = some node)
    {v : Arc (List IndexNodeId)} (hids : idsOfNode node = some v) : v.origin ∉ s.stale := by
  have hnode := h.sound path node hget
  unfold idsOfNode at hids
  cases hvalue : node.data.value.bind Arc.inodeIds with
  | none =>
      rw [hvalue] at hids
      obtain ⟨rest, -, hentered, -⟩ := hnode.deepest v hids
      exact hentered.1
  | some own =>
      rw [hvalue] at hids
      have hown : own = v := Option.some.inj hids
      subst hown
      obtain ⟨value, hsome, hinode⟩ := Option.bind_eq_some_iff.mp hvalue
      have horigin : own.origin = value.origin := by
        unfold Arc.inodeIds at hinode
        split at hinode
        · rw [← Option.some.inj hinode]
        · exact absurd hinode (by simp)
      rw [horigin]
      exact (hnode.value value hsome).1.1

theorem findTerminal_fresh {s : Session} (h : Inv s) {path : Components}
    {node : PathResolveCacheNode} (hget : s.cache.root.get? path = some node)
    {components : Components} {i : Nat}
    {hit : Nat × PathResolveCacheNode × Arc PathResolveTerminalValue}
    (hfind : findTerminal node components i = some hit) : hit.2.2.origin ∉ s.stale := by
  induction components generalizing path node i with
  | nil => exact absurd hfind (by simp [findTerminal])
  | cons c rest ih =>
      unfold findTerminal at hfind
      cases hchild : node.child? c with
      | none =>
          rw [hchild] at hfind
          exact absurd hfind (by simp)
      | some cur =>
          have hcur : s.cache.root.get? (path ++ [c]) = some cur := by
            rw [Trie.get?_append, hget]
            show (node.child? c).bind _ = _
            rw [hchild]
            rfl
          rw [hchild] at hfind
          dsimp only at hfind
          cases hvalue : cur.data.value.bind Arc.terminalValue with
          | none =>
              rw [hvalue] at hfind
              exact ih hcur hfind
          | some terminal =>
              rw [hvalue] at hfind
              rw [← Option.some.inj hfind]
              obtain ⟨value, hsome, hterminal⟩ := Option.bind_eq_some_iff.mp hvalue
              have horigin : terminal.origin = value.origin := by
                unfold Arc.terminalValue at hterminal
                split at hterminal
                · exact absurd hterminal (by simp)
                · rw [← Option.some.inj hterminal]
              show terminal.origin ∉ s.stale
              rw [horigin]
              exact ((h.sound _ cur hcur).value value hsome).1.1

theorem longestPrefix_fresh {s : Session} (h : Inv s) {path : Components}
    {node : PathResolveCacheNode} (hget : s.cache.root.get? path = some node)
    {depth : Nat} {components : Components}
    {best : Option (Nat × Arc (List IndexNodeId))}
    (hbest : ∀ b ∈ best, b.2.origin ∉ s.stale) :
    ∀ b ∈ longestPrefix node depth components best, b.2.origin ∉ s.stale := by
  induction components generalizing path node depth best with
  | nil => exact hbest
  | cons c rest ih =>
      unfold longestPrefix
      cases hchild : node.child? c with
      | none => exact hbest
      | some next =>
          have hnext : s.cache.root.get? (path ++ [c]) = some next := by
            rw [Trie.get?_append, hget]
            show (node.child? c).bind _ = _
            rw [hchild]
            rfl
          dsimp only
          cases hids : idsOfNode next with
          | none => exact ih hnext hbest
          | some v =>
              apply ih hnext
              intro b hb
              split_ifs at hb
              · rw [← Option.some.inj hb]
                exact idsOfNode_fresh h hnext hids
              · exact hbest b hb

/-- The invariant is what the lookups need. -/
theorem noStaleAnswer_of_inv {s : Session} (h : Inv s) : NoStaleAnswer s := by
  refine ⟨?_, ?_, ?_⟩
  · intro components ids hanswer
    unfold getIdsForPath at hanswer
    cases hget : s.cache.root.get? components with
    | none =>
        rw [hget] at hanswer
        exact absurd hanswer (by simp)
    | some node =>
        rw [hget] at hanswer
        dsimp only at hanswer
        cases hids : idsOfNode node with
        | none =>
            rw [hids] at hanswer
            exact absurd hanswer (by simp)
        | some v =>
            rw [hids] at hanswer
            dsimp only at hanswer
            split_ifs at hanswer
            have hfresh := idsOfNode_fresh h hget hids
            rw [← Option.some.inj hanswer]
            exact hfresh
  · intro components hit hanswer
    unfold getTerminalForPath at hanswer
    cases hfind : findTerminal s.cache.root components 0 with
    | none =>
        rw [hfind] at hanswer
        exact absurd hanswer (by simp)
    | some found =>
        rw [hfind] at hanswer
        rw [← Option.some.inj hanswer]
        exact findTerminal_fresh h (Trie.get?_nil _) hfind
  · intro components ids hanswer
    obtain ⟨best, hbest, hslice⟩ := Option.map_eq_some_iff.mp hanswer
    rw [← hslice]
    refine longestPrefix_fresh h (Trie.get?_nil _) ?_ best hbest
    intro b hb
    cases hids : idsOfNode s.cache.root with
    | none =>
        rw [hids] at hb
        exact absurd hb (by simp)
    | some v =>
        rw [hids] at hb
        dsimp only at hb
        split_ifs at hb
        · exact absurd hb (by simp)
        · rw [← Option.some.inj hb]
          exact idsOfNode_fresh h (Trie.get?_nil _) hids

/-- In every run whose puts drop or overwrite no indexed path that a live entry needs, no
lookup answers from a put made before an invalidation of an edge its chain used. -/
theorem run_noStaleAnswer (maxEntries : Nat) (actions : List Action)
    (hsafe : Along step SafeAction (start maxEntries) actions) :
    NoStaleAnswer (run step (start maxEntries) actions) :=
  noStaleAnswer_of_inv (run_invariant (fun _ _ ha h => inv_step ha h) hsafe
    (inv_start maxEntries))

/-- A cache of one entry that evicts `/a` for `/b` and then loses `/b`. -/
def evictedLeafRun : List Action :=
  [.putIdsForPath .insertion ["a"] [1, 2], .putIdsForPath .insertion ["b"] [1, 3],
    .invalidateByEdge .insertion 1 "b"]

/-- Its eviction takes out an entry with nothing below it. -/
theorem evictedLeafRun_noStaleAnswer :
    NoStaleAnswer (run step (start 1) evictedLeafRun) := by
  apply run_noStaleAnswer
  refine ⟨fun _ => ⟨fun hevicts => absurd hevicts (by decide), ?_⟩,
    fun _ => ⟨fun _ => ?_, ?_⟩, trivial, trivial⟩
  · intro i _ entry hfind
    exact absurd hfind (by simp [start, new])
  · intro entry holdest _ rest hrest
    have hentry : entry = (0, ["a"]) := by
      rw [← Option.some.inj holdest]
      decide
    subst hentry
    obtain ⟨c, below, rfl⟩ := List.exists_cons_of_ne_nil hrest
    intro hlive
    obtain ⟨node, hchild, hbelow⟩ := live_cons.mp hlive
    obtain ⟨u, hnone, -⟩ := live_cons.mp hbelow
    -- the node of `/a` has no children
    have hleaf : node.children = [] := by
      rw [← Option.some.inj hchild]
      rfl
    unfold Trie.child? at hnone
    rw [hleaf] at hnone
    exact absurd hnone (by simp)
  · intro i hi entry hfind
    have hzero : i = 0 := Nat.lt_one_iff.mp hi
    subst hzero
    have hnone : (step (start 1) (.putIdsForPath .insertion ["a"] [1, 2])).cache.edgeIndex.find?
        (edgeAt [1, 3] ["b"] 0) = none := by decide
    rw [hnone] at hfind
    exact absurd hfind (by simp)

/-! ## Runs that lose an edge -/

/-- Where an edge leads: to an inode, or to what ends the path. -/
inductive EdgeTarget where
  | inode (id : IndexNodeId)
  | terminal (value : PathResolveTerminalValue)
deriving DecidableEq

/-- The edges that an accepted put uses, with their targets. -/
def links : Action → List (Edge × EdgeTarget)
  | .putIdsForPath _ components ids =>
      if ids.length ≠ components.length + 1 then []
      else (List.range components.length).map fun i =>
        (edgeAt ids components i, .inode (ids.getD (i + 1) 0))
  | .putTerminalForPath _ components parentIds value =>
      if parentIds.length ≠ components.length then []
      else (List.range components.length).map fun i =>
        (edgeAt parentIds components i,
          if i + 1 = components.length then .terminal value
          else .inode (parentIds.getD (i + 1) 0))
  | _ => []

/-- The links of the puts between two invalidations, for each stretch of the run. -/
def stretches : List Action → List (List (Edge × EdgeTarget))
  | [] => [[]]
  | .invalidateByEdge _ _ _ :: rest => [] :: stretches rest
  | action :: rest =>
      match stretches rest with
      | [] => [links action]
      | stretch :: more => (links action ++ stretch) :: more

/-- All puts between two invalidations agree on the target of each edge they use. -/
def Agreeing (actions : List Action) : Prop :=
  ∀ stretch ∈ stretches actions, ∀ x ∈ stretch, ∀ y ∈ stretch, x.1 = y.1 → x.2 = y.2

instance (actions : List Action) : Decidable (Agreeing actions) :=
  inferInstanceAs (Decidable (∀ stretch ∈ stretches actions, ∀ x ∈ stretch, ∀ y ∈ stretch,
    x.1 = y.1 → x.2 = y.2))

/-- A cache of two entries is filled with `/a/b` and `/a`; the lookup of `/a/b` makes `/a`
the oldest entry, and the third put evicts it. -/
def evictedParentRun : List Action :=
  [.putIdsForPath .insertion ["a", "b"] [1, 2, 3],
    .putIdsForPath .insertion ["a"] [1, 2],
    .getIdsForPath ["a", "b"],
    .putIdsForPath .insertion ["c"] [1, 4],
    .invalidateByEdge .insertion 1 "a"]

/-- Evicting `/a` drops the edge `(1, "a")` from the index, so that its invalidation does
nothing and `/a/b` is still answered from the put that went through it. -/
theorem evicted_parent_keeps_stale_ids :
    Agreeing evictedParentRun ∧
      ¬ NoStaleAnswer (run step (start 2) evictedParentRun) := by
  have hanswer : ((run step (start 2) evictedParentRun).cache.getIdsForPath ["a", "b"]).1 =
      some ⟨0, [1, 2, 3]⟩ := by decide
  have hstale : 0 ∈ (run step (start 2) evictedParentRun).stale := by decide
  exact ⟨by decide, fun h => h.1 _ _ hanswer hstale⟩

end PathResolveCache
end FsMeta
end CyfsNdn

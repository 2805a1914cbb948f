import CyfsNdn.Collections.LruOrder
import CyfsNdn.Collections.TrieView
import CyfsNdn.FsMeta.CacheAccesses

/-!
# The representation of the cache

The cache says the same thing in several places.  A node holds a value exactly when it
carries an entry id; the LRU map lists these ids with the paths of their nodes; the
counter is the number of its rows; and a node remembers deepest ids exactly when an inode
path is cached at or below it.  `Represented` collects these relations with two more, the
bound on the number of entries and that an eviction takes out the entry whose last use is
the longest ago, and every sequence of calls keeps all of them.

The proof reads the trie as a map from paths: each call changes what the paths hold in a
way that the rules for walks give, and the LRU map follows by the rules for an order of
last use.
-/

namespace CyfsNdn
namespace FsMeta
namespace PathResolveCache

open Collections NdnLib Relational Transition

/-! ## What the nodes remember -/

/-- The inode ids of the node's own value. -/
def inodeEntry (data : NodeData) : Option (Arc (List IndexNodeId)) :=
  data.value.bind Arc.inodeIds

/-- The invariant of one node: its children have different names, and it remembers deepest
ids unless its subtree holds no inode entry. -/
structure WellNode (node : PathResolveCacheNode) : Prop where
  keys : node.KeysNodup
  deepest : node.data.deepestInode = none ↔ ∀ rest, Trie.read inodeEntry node rest = none

/-- The invariant of all nodes below a path. -/
abbrev WellFrom (base : Components) (node : PathResolveCacheNode) : Prop :=
  Trie.Everywhere (fun _ u => WellNode u) base node

theorem wellFrom_default (base : Components) :
    WellFrom base (Trie.leaf NodeData.default) :=
  Trie.everywhere_leaf
    ⟨Trie.keysNodup_leaf _, fun _ rest => Trie.read_leaf rfl rest, fun _ => rfl⟩

theorem WellFrom.allKeysNodup {node : PathResolveCacheNode} (h : WellFrom [] node) :
    Trie.AllKeysNodup node :=
  fun path u hget => (h path u hget).keys

/-- The loop over the children finds nothing only when there is nothing to find. -/
theorem deepestOf_eq_none_iff {best : Option (Arc (List IndexNodeId))}
    {children : List (String × PathResolveCacheNode)} :
    deepestOf best children = none ↔
      best = none ∧ ∀ child ∈ children, child.2.data.deepestInode = none := by
  induction children generalizing best with
  | nil => simp [deepestOf]
  | cons child rest ih =>
      unfold deepestOf
      split
      · rename_i hchild
        rw [ih]
        simp [hchild]
      · rename_i hchild
        rw [ih]
        simp [hchild]
      · rename_i hchild
        rw [ih]
        split_ifs
        · simp [hchild]
        · simp [hchild]

/-- A subtree holds no inode entry when neither its root nor a child's subtree does. -/
theorem read_inodeEntry_eq_none_iff {node : PathResolveCacheNode} (hkeys : node.KeysNodup) :
    (∀ rest, Trie.read inodeEntry node rest = none) ↔
      inodeEntry node.data = none ∧
        ∀ child ∈ node.children, ∀ rest, Trie.read inodeEntry child.2 rest = none := by
  constructor
  · intro h
    refine ⟨h [], ?_⟩
    intro child hchild rest
    have hbelow := h (child.1 :: rest)
    rw [Trie.read_cons, hkeys.child?_of_mem hchild] at hbelow
    exact hbelow
  · rintro ⟨hroot, hchildren⟩ rest
    cases rest with
    | nil => exact hroot
    | cons c rest =>
        rw [Trie.read_cons, Option.bind_eq_none_iff]
        intro u hchild
        obtain ⟨entry, hfind, rfl⟩ := Option.map_eq_some_iff.mp hchild
        exact hchildren entry (List.mem_of_find?_eq_some hfind) rest

/-- Recomputing the deepest ids above well-formed children makes a node well-formed. -/
theorem wellNode_recompute (order : HashOrder) {base : Components} {node : PathResolveCacheNode}
    (hkeys : node.KeysNodup)
    (hchildren : ∀ c u, node.child? c = some u → WellFrom (base ++ [c]) u) :
    WellNode { node with data := recomputeDeepestInode order node } := by
  refine ⟨hkeys, ?_⟩
  have hsame : ∀ rest,
      Trie.read inodeEntry { node with data := recomputeDeepestInode order node } rest =
        Trie.read inodeEntry node rest := by
    intro rest
    apply Trie.read_congr
    · rfl
    · rfl
  simp only [hsame]
  rw [read_inodeEntry_eq_none_iff hkeys]
  show deepestOf (inodeEntry node.data) (order.values node.children) = none ↔ _
  rw [deepestOf_eq_none_iff]
  refine and_congr_right fun _ => ?_
  -- the children come in another order, and each one is well-formed
  constructor
  · intro h child hchild
    have hmem := (order.perm node.children).mem_iff.mpr hchild
    exact (hchildren child.1 child.2 (hkeys.child?_of_mem hchild)).root.deepest.mp (h child hmem)
  · intro h child hchild
    have hmem := (order.perm node.children).mem_iff.mp hchild
    exact (hchildren child.1 child.2 (hkeys.child?_of_mem hmem)).root.deepest.mpr (h child hmem)

/-- An edit that recomputes the deepest ids on its way up keeps every node well-formed. -/
theorem wellFrom_rebuild (order : HashOrder) {down : NodeData → NodeData}
    {target : PathResolveCacheNode → PathResolveCacheNode} {path base : Components}
    {t : PathResolveCacheNode} (h : WellFrom base t)
    (hkeys : ∀ u : PathResolveCacheNode, u.KeysNodup → (target u).KeysNodup)
    (hchildren : ∀ u c v, (target u).child? c = some v → u.child? c = some v) :
    WellFrom base
      (Trie.edit NodeData.default down target (recomputeDeepestInode order) path t) := by
  apply Trie.everywhere_edit h wellFrom_default
  · intro u hu
    have hbelow : ∀ c v, (target u).child? c = some v → WellFrom (base ++ path ++ [c]) v :=
      fun c v hchild => hu.child (hchildren u c v hchild)
    exact Trie.everywhere_iff.mpr
      ⟨wellNode_recompute order (hkeys u hu.root.keys) hbelow, hbelow⟩
  · intro base u c path hu hbelow
    apply wellNode_recompute order
    · exact Trie.KeysNodup.setChild (t := { u with data := down u.data }) hu.root.keys c _
    · exact hbelow

theorem raiseDeepest_ne_none (ids : Arc (List IndexNodeId)) (node : PathResolveCacheNode) :
    (raiseDeepest ids node).deepestInode ≠ none := by
  unfold raiseDeepest
  split
  · simp
  · rename_i cur hcur
    split_ifs
    · simp
    · simp [hcur]

theorem inodeEntry_raiseDeepest (ids : Arc (List IndexNodeId)) (node : PathResolveCacheNode) :
    inodeEntry (raiseDeepest ids node) = inodeEntry node.data := by
  unfold inodeEntry
  rw [raiseDeepest_value]

/-- Writing ids: every node of the path remembers some and has the new entry below it. -/
theorem wellFrom_putIds {entryId : EntryId} {ids : List IndexNodeId} {path base : Components}
    {t : PathResolveCacheNode} (h : WellFrom base t) :
    WellFrom base
      (Trie.edit NodeData.default clearData (idsNode entryId ids)
        (raiseDeepest ⟨entryId, ids⟩) path t) := by
  have hnode : ∀ (path : Components) (u : PathResolveCacheNode),
      (Trie.edit NodeData.default clearData (idsNode entryId ids)
        (raiseDeepest ⟨entryId, ids⟩) path u).KeysNodup →
      WellNode (Trie.edit NodeData.default clearData (idsNode entryId ids)
        (raiseDeepest ⟨entryId, ids⟩) path u) := by
    intro path u hkeys
    refine ⟨hkeys, ?_, ?_⟩
    · intro hnone
      refine absurd hnone ?_
      cases path with
      | nil => exact raiseDeepest_ne_none _ _
      | cons c path => exact raiseDeepest_ne_none _ _
    · intro hnone
      have hend : Trie.read inodeEntry (Trie.edit NodeData.default clearData
          (idsNode entryId ids) (raiseDeepest ⟨entryId, ids⟩) path u) (path ++ []) =
            some ⟨entryId, ids⟩ :=
        Trie.read_edit_append (inodeEntry_raiseDeepest ⟨entryId, ids⟩) path [] u
      rw [hnone] at hend
      exact absurd hend (by simp)
  apply Trie.everywhere_edit h wellFrom_default
  · intro u hu
    refine Trie.everywhere_iff.mpr ⟨hnode [] u hu.root.keys, ?_⟩
    exact fun c v hchild => hu.child hchild
  · intro base u c path hu _
    exact hnode (c :: path) u (hu.root.keys.edit_cons c path)

/-- A new entry id changes nothing that a node remembers. -/
theorem wellFrom_withEntryId {entryId : EntryId} {path base : Components}
    {t : PathResolveCacheNode} (h : WellFrom base t) :
    WellFrom base (Trie.edit NodeData.default id (withEntryId entryId) Trie.data path t) := by
  have hnode : ∀ (path : Components) (u : PathResolveCacheNode), WellNode u →
      (Trie.edit NodeData.default id (withEntryId entryId) Trie.data path u).KeysNodup →
      (Trie.edit NodeData.default id (withEntryId entryId) Trie.data path u).data.deepestInode =
        u.data.deepestInode →
      WellNode (Trie.edit NodeData.default id (withEntryId entryId) Trie.data path u) := by
    intro path u hu hkeys hdeepest
    refine ⟨hkeys, ?_⟩
    rw [hdeepest, hu.deepest]
    refine forall_congr' fun rest => ?_
    have hread : Trie.read inodeEntry
        (Trie.edit NodeData.default id (withEntryId entryId) Trie.data path u) rest =
          if rest = path then id (Trie.read inodeEntry u rest)
          else Trie.read inodeEntry u rest := by
      apply Trie.read_edit_data
      · exact fun _ => rfl
      · rfl
      · exact fun _ => rfl
      · exact fun _ => rfl
    rw [hread, id_eq, ite_self]
  apply Trie.everywhere_edit h wellFrom_default
  · intro u hu
    refine Trie.everywhere_iff.mpr ⟨hnode [] u hu.root hu.root.keys rfl, ?_⟩
    exact fun c v hchild => hu.child hchild
  · intro base u c path hu _
    exact hnode (c :: path) u hu.root (hu.root.keys.edit_cons c path) rfl

/-! ## The entries -/

/-- What the cache says about its entries, after a history of uses. -/
structure Consistent (cache : PathResolveCache) (uses : List Components) : Prop where
  nodes : WellFrom [] cache.root
  paired : ∀ path, (Trie.read NodeData.value cache.root path).isSome =
    (Trie.read NodeData.entryId cache.root path).isSome
  index : LruIndex (Trie.read NodeData.entryId cache.root) uses cache.nextEntryId cache.lruMap
    cache.entryCount
  assigned : cache.nextEntryId ≤ uses.length

theorem consistent_new (maxEntries : Nat) : Consistent (new maxEntries) [] where
  nodes := wellFrom_default []
  paired := fun path => by
    show (Trie.read NodeData.value (Trie.leaf NodeData.default) path).isSome = _
    rw [Trie.read_leaf rfl]
    show _ = (Trie.read NodeData.entryId (Trie.leaf NodeData.default) path).isSome
    rw [Trie.read_leaf rfl]
    rfl
  index := lruIndex_empty (fun path => Trie.read_leaf rfl path) [] 0
  assigned := Nat.le_refl 0

theorem live_iff_read {node : PathResolveCacheNode} {path : Components} :
    Live node path ↔ (Trie.read NodeData.value node path).isSome := by
  rw [Option.isSome_iff_exists]
  constructor
  · rintro ⟨u, hget, hvalue⟩
    obtain ⟨value, hvalue⟩ := Option.ne_none_iff_exists'.mp hvalue
    exact ⟨value, Trie.read_eq_some_iff.mpr ⟨u, hget, hvalue⟩⟩
  · rintro ⟨value, hread⟩
    obtain ⟨u, hget, hvalue⟩ := Trie.read_eq_some_iff.mp hread
    exact ⟨u, hget, by rw [hvalue]; simp⟩

theorem Consistent.live_iff {cache : PathResolveCache} {uses : List Components}
    (h : Consistent cache uses) {path : Components} :
    Live cache.root path ↔ (Trie.read NodeData.entryId cache.root path).isSome := by
  rw [live_iff_read, h.paired]

/-! ## Evictions -/

/-- The oldest entry has the least id of all rows. -/
theorem oldestEntry_cases (cache : PathResolveCache) :
    cache.oldestEntry = none ∧ cache.lruMap.rows = [] ∨
      ∃ entry ∈ cache.lruMap.rows, cache.oldestEntry = some entry ∧
        ∀ row ∈ cache.lruMap.rows, entry.1 ≤ row.1 := by
  unfold oldestEntry
  cases hold : cache.oldestId with
  | none =>
      have hempty := List.min?_eq_none_iff.mp hold
      exact Or.inl ⟨rfl, List.map_eq_nil_iff.mp hempty⟩
  | some i =>
      obtain ⟨hmem, hleast⟩ := List.min?_eq_some_iff.mp hold
      obtain ⟨entry, hentry, rfl⟩ := List.mem_map.mp hmem
      refine Or.inr ⟨entry, hentry, Table.find?_key_of_mem hentry, ?_⟩
      exact fun row hrow => hleast row.1 (List.mem_map_of_mem hrow)

section Clear

variable {β : Type} {f : NodeData → Option β}

/-- Clearing a node takes its field out, where the field goes with the value. -/
theorem read_clear (order : HashOrder)
    (hup : ∀ u : PathResolveCacheNode, f (recomputeDeepestInode order u) = f u.data)
    (hclear : ∀ data, f (clearData data) = none) (path p : Components)
    (t : PathResolveCacheNode) :
    Trie.read f (Trie.edit NodeData.default id clearNode (recomputeDeepestInode order) path t) p =
      if p = path then none else Trie.read f t p := by
  apply Trie.read_edit_data (g := fun _ => none)
  · exact hup
  · exact hclear NodeData.default
  · exact fun _ => rfl
  · exact fun u => hclear u.data

end Clear

/-- Taking one entry out of the trie, where its path exists. -/
theorem removeSingleEntry_eq (order : HashOrder) {cache : PathResolveCache} {path : Components}
    {u : PathResolveCacheNode} (hget : cache.root.get? path = some u) :
    (removeSingleEntry order cache path).root =
        Trie.edit NodeData.default id clearNode (recomputeDeepestInode order) path cache.root ∧
      (removeSingleEntry order cache path).lruMap = cache.lruMap ∧
      (removeSingleEntry order cache path).entryCount = cache.entryCount ∧
      (removeSingleEntry order cache path).nextEntryId = cache.nextEntryId := by
  unfold removeSingleEntry
  by_cases hpath : path = []
  · subst hpath
    exact ⟨rfl, rfl, rfl, rfl⟩
  · rw [if_neg hpath, hget]
    exact ⟨rfl, rfl, rfl, rfl⟩

/-- An eviction takes the oldest entry out of the trie and out of the table. -/
theorem evictLru_eq (order : HashOrder) {cache : PathResolveCache} {i : EntryId}
    {path : Components} {u : PathResolveCacheNode}
    (hold : cache.oldestEntry = some (i, path)) (hget : cache.root.get? path = some u) :
    (cache.evictLru order).root =
        Trie.edit NodeData.default id clearNode (recomputeDeepestInode order) path cache.root ∧
      (cache.evictLru order).lruMap = cache.lruMap.deleteKey i ∧
      (cache.evictLru order).entryCount = cache.entryCount - 1 ∧
      (cache.evictLru order).nextEntryId = cache.nextEntryId := by
  unfold evictLru
  rw [hold]
  exact removeSingleEntry_eq order hget

theorem evictLru_consistent (order : HashOrder) {cache : PathResolveCache}
    {uses : List Components} (h : Consistent cache uses) :
    Consistent (cache.evictLru order) uses := by
  rcases oldestEntry_cases cache with ⟨hnone, -⟩ | ⟨⟨i, path⟩, hrow, hsome, -⟩
  · unfold evictLru
    rw [hnone]
    exact h
  · have hcarries := (h.index.listed i path).mp hrow
    obtain ⟨u, hget, -⟩ := Trie.read_eq_some_iff.mp hcarries
    obtain ⟨hroot, hmap, hcount, hnext⟩ := evictLru_eq order hsome hget
    have hids : ∀ p, Trie.read NodeData.entryId (cache.evictLru order).root p =
        if p = path then none else Trie.read NodeData.entryId cache.root p := by
      intro p
      rw [hroot]
      exact read_clear order (fun _ => rfl) (fun _ => rfl) path p cache.root
    have hvalues : ∀ p, Trie.read NodeData.value (cache.evictLru order).root p =
        if p = path then none else Trie.read NodeData.value cache.root p := by
      intro p
      rw [hroot]
      exact read_clear order (fun _ => rfl) (fun _ => rfl) path p cache.root
    refine ⟨?_, ?_, ?_, ?_⟩
    · rw [hroot]
      exact wellFrom_rebuild order h.nodes (fun u hu => hu) (fun u c v hv => hv)
    · intro p
      rw [hids, hvalues]
      split_ifs
      · rfl
      · exact h.paired p
    · rw [hmap, hcount, hnext]
      have hids' : [i] = (Trie.read NodeData.entryId cache.root path).toList := by
        rw [hcarries]
        rfl
      exact h.index.dropPath hids' hids (fun row => by simp)
    · rw [hnext]
      exact h.assigned

/-- An eviction takes out the entry whose last use is the longest ago, and no other. -/
def EvictsLeastUsed (order : HashOrder) (cache : PathResolveCache) (uses : List Components) :
    Prop :=
  (∀ path, ¬ Live cache.root path) ∧ cache.evictLru order = cache ∨
    ∃ path, Live cache.root path ∧
      (∀ other, Live (cache.evictLru order).root other ↔
        Live cache.root other ∧ other ≠ path) ∧
      ∀ other, Live cache.root other → other ≠ path → UsedSince uses path other

theorem evictsLeastUsed_of_consistent (order : HashOrder) {cache : PathResolveCache}
    {uses : List Components} (h : Consistent cache uses) : EvictsLeastUsed order cache uses := by
  rcases oldestEntry_cases cache with ⟨hnone, hempty⟩ | ⟨⟨i, path⟩, hrow, hsome, hleast⟩
  · left
    constructor
    · intro path hlive
      obtain ⟨i, hi⟩ := Option.isSome_iff_exists.mp (h.live_iff.mp hlive)
      have hrow := (h.index.listed i path).mpr hi
      rw [hempty] at hrow
      exact List.not_mem_nil hrow
    · unfold evictLru
      rw [hnone]
  · right
    have hcarries := (h.index.listed i path).mp hrow
    obtain ⟨u, hget, -⟩ := Trie.read_eq_some_iff.mp hcarries
    refine ⟨path, h.live_iff.mpr (by rw [hcarries]; rfl), ?_, ?_⟩
    · intro other
      rw [live_iff_read, live_iff_read, (evictLru_eq order hsome hget).1,
        read_clear order (fun _ => rfl) (fun _ => rfl)]
      by_cases hother : other = path
      · simp [hother]
      · simp [hother]
    · intro other hlive hother
      exact h.index.usedSince_of_least hcarries hleast (h.live_iff.mp hlive) hother

/-! ## Puts -/

/-- The shallow entry ids are those of the paths above. -/
theorem shallowEntryIds_eq (node : PathResolveCacheNode) (components : Components) :
    shallowEntryIds node components =
      (Trie.above components).filterMap (Trie.read NodeData.entryId node) := by
  induction components generalizing node with
  | nil => rfl
  | cons c rest ih =>
      have hbelow : ((Trie.above rest).map fun p => c :: p).filterMap
          (Trie.read NodeData.entryId node) =
            (node.child? c).elim [] fun next => shallowEntryIds next rest := by
        rw [List.filterMap_map]
        cases hchild : node.child? c with
        | none =>
            show _ = []
            rw [List.filterMap_eq_nil_iff]
            intro p _
            show Trie.read NodeData.entryId node (c :: p) = none
            rw [Trie.read_cons, hchild, Option.bind_none]
        | some next =>
            show _ = shallowEntryIds next rest
            rw [ih]
            apply List.filterMap_congr
            intro p _
            show Trie.read NodeData.entryId node (c :: p) = _
            rw [Trie.read_cons, hchild, Option.bind_some]
      unfold shallowEntryIds Trie.above
      rw [List.filterMap_cons, hbelow, Trie.read_nil]
      cases node.data.entryId with
      | none => cases node.child? c <;> rfl
      | some i => cases node.child? c <;> rfl

/-- What a put leaves of the order of use, before it writes. -/
theorem index_clearShallow {cache : PathResolveCache} {uses : List Components}
    (h : Consistent cache uses) (components : Components) :
    LruIndex (Trie.read NodeData.entryId (cache.clearShallowValuesOnPath components).root) uses
      cache.nextEntryId (cache.clearShallowValuesOnPath components).lruMap
      (cache.clearShallowValuesOnPath components).entryCount := by
  apply h.index.drop
  · rw [shallowEntryIds_eq]
    apply (Trie.nodup_above components).filterMap
    intro p q i hp hq
    exact h.index.injective hp hq
  · intro i hi
    rw [shallowEntryIds_eq, List.mem_filterMap] at hi
    obtain ⟨p, -, hp⟩ := hi
    exact ⟨p, hp⟩
  · intro p i
    show Trie.read NodeData.entryId (Trie.mapAbove clearData components cache.root) p = some i ↔ _
    rw [Trie.read_mapAbove (fun _ => rfl), shallowEntryIds_eq, List.mem_filterMap]
    by_cases hp : p ∈ Trie.above components
    · rw [if_pos hp]
      constructor
      · exact fun hnone => absurd hnone (by simp)
      · exact fun ⟨hcarries, hnot⟩ => absurd ⟨p, hp, hcarries⟩ hnot
    · rw [if_neg hp]
      refine (and_iff_left_of_imp ?_).symm
      rintro hcarries ⟨q, hq, hsame⟩
      exact hp (h.index.injective hcarries hsame ▸ hq)
  · intro row
    simp

theorem replacedEntryIds_eq (cache : PathResolveCache) (components : Components) :
    cache.replacedEntryIds components =
      (Trie.read NodeData.entryId cache.root components).toList := by
  unfold replacedEntryIds Trie.read
  cases cache.root.get? components with
  | none => rfl
  | some node => rfl

theorem makeRoom_consistent (order : HashOrder) {cache : PathResolveCache}
    {uses : List Components} (h : Consistent cache uses) (components : Components) :
    Consistent (cache.makeRoom order components) uses := by
  unfold makeRoom
  split_ifs
  · exact evictLru_consistent order h
  · exact h

/-- Writing a value under the next entry id, whichever value it is. -/
theorem write_consistent (order : HashOrder) {cache : PathResolveCache}
    {uses : List Components} (h : Consistent cache uses) (parents : List IndexNodeId)
    (components : Components) {target : PathResolveCacheNode → PathResolveCacheNode}
    {up : PathResolveCacheNode → NodeData} {value : Arc PathResolveCacheValue}
    (hupId : ∀ u, (up u).entryId = u.data.entryId)
    (hupValue : ∀ u, (up u).value = u.data.value)
    (hchildren : ∀ u, (target u).children = u.children)
    (htargetId : ∀ u, (target u).data.entryId = some (cache.prepare order components).nextEntryId)
    (htargetValue : ∀ u, (target u).data.value = some value)
    (hwell : WellFrom [] (Trie.edit NodeData.default clearData target up components
      (cache.makeRoom order components).root)) :
    Consistent
      ({ cache.prepare order components with
          root := Trie.edit NodeData.default id target up components
            (cache.prepare order components).root }.recordEntry parents components)
      (uses ++ [components]) := by
  have hroomy := makeRoom_consistent order h components
  have hids : ∀ p, Trie.read NodeData.entryId (Trie.edit NodeData.default id target up components
      (cache.prepare order components).root) p =
        if p = components then some (cache.prepare order components).nextEntryId
        else Trie.read NodeData.entryId (cache.prepare order components).root p := by
    intro p
    apply Trie.read_edit_data (g := fun _ => some (cache.prepare order components).nextEntryId)
    · exact hupId
    · rfl
    · exact hchildren
    · exact htargetId
  have hvalues : ∀ p, Trie.read NodeData.value (Trie.edit NodeData.default id target up components
      (cache.prepare order components).root) p =
        if p = components then some value
        else Trie.read NodeData.value (cache.prepare order components).root p := by
    intro p
    apply Trie.read_edit_data (g := fun _ => some value)
    · exact hupValue
    · rfl
    · exact hchildren
    · exact htargetValue
  refine ⟨?_, ?_, ?_, ?_⟩
  · show WellFrom [] (Trie.edit NodeData.default id target up components
      (Trie.mapAbove clearData components (cache.makeRoom order components).root))
    rw [Trie.edit_mapAbove clearData_default]
    exact hwell
  · intro p
    show (Trie.read NodeData.value (Trie.edit NodeData.default id target up components
      (cache.prepare order components).root) p).isSome =
        (Trie.read NodeData.entryId (Trie.edit NodeData.default id target up components
          (cache.prepare order components).root) p).isSome
    rw [hids, hvalues]
    split_ifs with hp
    · rfl
    · show (Trie.read NodeData.value (Trie.mapAbove clearData components _) p).isSome =
        (Trie.read NodeData.entryId (Trie.mapAbove clearData components _) p).isSome
      rw [Trie.read_mapAbove (fun _ => rfl), Trie.read_mapAbove (fun _ => rfl)]
      split_ifs
      · rfl
      · exact hroomy.paired p
  · -- what the path carried leaves the table, and the new entry enters it
    have hreplaced : LruIndex (fun p => if p = components then none else
        Trie.read NodeData.entryId (cache.prepare order components).root p) uses
        (cache.prepare order components).nextEntryId (cache.prepare order components).lruMap
        (cache.prepare order components).entryCount :=
      (index_clearShallow hroomy components).dropPath (replacedEntryIds_eq _ _)
        (fun _ => rfl) (fun row => by simp)
    apply hreplaced.add (if_pos rfl)
    intro p
    show Trie.read NodeData.entryId (Trie.edit NodeData.default id target up components
      (cache.prepare order components).root) p = _
    rw [hids]
    by_cases hp : p = components
    · rw [if_pos hp, if_pos hp]
    · rw [if_neg hp, if_neg hp, if_neg hp]
  · show (cache.makeRoom order components).nextEntryId + 1 ≤ _
    rw [List.length_append, List.length_singleton]
    exact Nat.succ_le_succ hroomy.assigned

theorem putIdsForPath_consistent (order : HashOrder) {cache : PathResolveCache}
    {uses : List Components} (h : Consistent cache uses) {components : Components}
    {ids : List IndexNodeId} (hlength : ids.length = components.length + 1) :
    Consistent (cache.putIdsForPath order components ids) (uses ++ [components]) := by
  unfold putIdsForPath
  rw [if_neg (fun hne => hne hlength)]
  apply write_consistent order h ids components
  · intro u
    unfold raiseDeepest
    split
    · rfl
    · split_ifs
      · rfl
      · rfl
  · exact raiseDeepest_value _
  · exact fun _ => rfl
  · exact fun _ => rfl
  · exact fun _ => rfl
  · exact wellFrom_putIds (makeRoom_consistent order h components).nodes

theorem putTerminalForPath_consistent (order : HashOrder) {cache : PathResolveCache}
    {uses : List Components} (h : Consistent cache uses) {components : Components}
    {parentIds : List IndexNodeId} (value : PathResolveTerminalValue)
    (hlength : parentIds.length = components.length) :
    Consistent (cache.putTerminalForPath order components parentIds value)
      (uses ++ [components]) := by
  unfold putTerminalForPath
  rw [if_neg (fun hne => hne hlength)]
  apply write_consistent order h parentIds components
  · exact fun _ => rfl
  · exact recomputeDeepestInode_value order
  · exact fun _ => rfl
  · exact fun _ => rfl
  · exact fun _ => rfl
  · apply wellFrom_rebuild order (makeRoom_consistent order h components).nodes
    · exact fun _ hkeys => hkeys
    · exact fun _ _ _ hchild => hchild

/-! ## Lookups -/

/-- A hit at an existing node uses the entry of the node, if it has one. -/
theorem refreshNode_consistent {cache : PathResolveCache} {uses : List Components}
    (h : Consistent cache uses) {components : Components} {node : PathResolveCacheNode}
    (hget : cache.root.get? components = some node) :
    Consistent (cache.refreshNode components node) (uses ++ [components]) := by
  have hassigned : ∀ next, next ≤ cache.nextEntryId + 1 → next ≤ (uses ++ [components]).length := by
    intro next hnext
    rw [List.length_append, List.length_singleton]
    exact Nat.le_trans hnext (Nat.succ_le_succ h.assigned)
  have hread : Trie.read NodeData.entryId cache.root components = node.data.entryId := by
    unfold Trie.read
    rw [hget]
    rfl
  unfold refreshNode
  cases hentry : node.data.entryId with
  | none =>
      exact ⟨h.nodes, h.paired, h.index.skip (hread.trans hentry), hassigned _ (Nat.le_succ _)⟩
  | some oldEntryId =>
      have hcarries := hread.trans hentry
      dsimp only
      unfold refreshLruForPath
      rw [h.index.find?_eq hcarries, hget]
      have hids : ∀ p, Trie.read NodeData.entryId (Trie.edit NodeData.default id
          (withEntryId cache.nextEntryId) Trie.data components cache.root) p =
            if p = components then some cache.nextEntryId
            else Trie.read NodeData.entryId cache.root p := by
        intro p
        apply Trie.read_edit_data (g := fun _ => some cache.nextEntryId)
        · exact fun _ => rfl
        · rfl
        · exact fun _ => rfl
        · exact fun _ => rfl
      have hvalues : ∀ p, Trie.read NodeData.value (Trie.edit NodeData.default id
          (withEntryId cache.nextEntryId) Trie.data components cache.root) p =
            if p = components then id (Trie.read NodeData.value cache.root p)
            else Trie.read NodeData.value cache.root p := by
        intro p
        apply Trie.read_edit_data
        · exact fun _ => rfl
        · rfl
        · exact fun _ => rfl
        · exact fun _ => rfl
      refine ⟨wellFrom_withEntryId h.nodes, ?_, h.index.refresh hcarries hids,
        hassigned _ (Nat.le_refl _)⟩
      intro p
      show (Trie.read NodeData.value (Trie.edit NodeData.default id
        (withEntryId cache.nextEntryId) Trie.data components cache.root) p).isSome =
          (Trie.read NodeData.entryId (Trie.edit NodeData.default id
            (withEntryId cache.nextEntryId) Trie.data components cache.root) p).isSome
      rw [hids, hvalues, id_eq, ite_self, h.paired]
      split_ifs with hp
      · rw [hp, hcarries]
        rfl
      · rfl

theorem getIdsForPath_consistent {cache : PathResolveCache} {uses : List Components}
    (h : Consistent cache uses) (components : Components) :
    Consistent (cache.getIdsForPath components).2
      (uses ++ ((cache.getIdsForPath components).1.map fun _ => components).toList) := by
  unfold getIdsForPath
  cases hget : cache.root.get? components with
  | none => simpa using h
  | some node =>
      dsimp only
      cases idsOfNode node with
      | none => simpa using h
      | some v =>
          dsimp only
          split_ifs
          · simpa using h
          · exact refreshNode_consistent h hget

theorem getTerminalForPath_consistent {cache : PathResolveCache} {uses : List Components}
    (h : Consistent cache uses) (components : Components) :
    Consistent (cache.getTerminalForPath components).2
      (uses ++ ((cache.getTerminalForPath components).1.map
        fun hit => components.take hit.matchedLen).toList) := by
  unfold getTerminalForPath
  cases hfind : findTerminal cache.root components 0 with
  | none => simpa using h
  | some found =>
      obtain ⟨matchedLen, cur, value⟩ := found
      obtain ⟨k, hlen, -, hget⟩ := findTerminal_get? hfind
      rw [Nat.zero_add] at hlen
      subst hlen
      exact refreshNode_consistent h hget

/-! ## Invalidations -/

/-- The ids that an invalidation takes are those at and below its path. -/
theorem mem_subtreeEntryIds {cache : PathResolveCache} (hkeys : Trie.AllKeysNodup cache.root)
    {path : Components} {i : EntryId} :
    i ∈ cache.subtreeEntryIds path ↔
      ∃ rest, Trie.read NodeData.entryId cache.root (path ++ rest) = some i := by
  unfold subtreeEntryIds
  cases hget : cache.root.get? path with
  | none =>
      refine iff_of_false List.not_mem_nil ?_
      rintro ⟨rest, hrest⟩
      unfold Trie.read at hrest
      rw [Trie.get?_append, hget] at hrest
      exact absurd hrest (by simp)
  | some subtree =>
      have hsub : Trie.AllKeysNodup subtree := by
        intro rest u hbelow
        exact hkeys (path ++ rest) u (by rw [Trie.get?_append, hget]; exact hbelow)
      simp only [Trie.read_append hget]
      exact Trie.mem_collect_read hsub

theorem nodup_subtreeEntryIds {cache : PathResolveCache} {uses : List Components}
    (h : Consistent cache uses) (path : Components) : (cache.subtreeEntryIds path).Nodup := by
  unfold subtreeEntryIds
  cases hget : cache.root.get? path with
  | none => exact List.nodup_nil
  | some subtree =>
      apply Trie.nodup_collect_read
      · intro rest u hbelow
        exact h.nodes.allKeysNodup (path ++ rest) u
          (by rw [Trie.get?_append, hget]; exact hbelow)
      · intro p q i hp hq
        rw [← Trie.read_append hget] at hp hq
        exact List.append_cancel_left (h.index.injective hp hq)

/-- Removing a child takes what its subtree holds out. -/
theorem read_erase {β : Type} {f : NodeData → Option β} (order : HashOrder)
    (hup : ∀ u : PathResolveCacheNode, f (recomputeDeepestInode order u) = f u.data)
    (hempty : f NodeData.default = none) (path : Components) (leaf : String) (p : Components)
    (t : PathResolveCacheNode) :
    Trie.read f (Trie.edit NodeData.default id (fun node => node.eraseChild leaf)
      (recomputeDeepestInode order) path t) p =
        if path ++ [leaf] <+: p then none else Trie.read f t p :=
  Trie.read_edit_eraseChild hup hempty path leaf p t

theorem invalidatePrefix_consistent (order : HashOrder) {cache : PathResolveCache}
    {uses : List Components} (h : Consistent cache uses) (path : Components) :
    Consistent (cache.invalidatePrefix order path) uses := by
  unfold invalidatePrefix
  cases hlast : path.getLast? with
  | none =>
      have hnew := consistent_new cache.maxEntries
      exact ⟨hnew.nodes, hnew.paired,
        lruIndex_empty (fun path => Trie.read_leaf rfl path) uses cache.nextEntryId, h.assigned⟩
  | some leaf =>
      dsimp only
      have hpath : path.dropLast ++ [leaf] = path := List.dropLast_append_getLast? leaf hlast
      cases cache.root.get? path.dropLast with
      | none => exact h
      | some _ =>
          have hids : ∀ p, Trie.read NodeData.entryId (Trie.edit NodeData.default id
              (fun node => node.eraseChild leaf) (recomputeDeepestInode order) path.dropLast
              cache.root) p =
                if path <+: p then none else Trie.read NodeData.entryId cache.root p := by
            intro p
            have hread := read_erase (f := NodeData.entryId) order (fun _ => rfl) rfl
              path.dropLast leaf p cache.root
            simpa only [hpath] using hread
          have hvalues : ∀ p, Trie.read NodeData.value (Trie.edit NodeData.default id
              (fun node => node.eraseChild leaf) (recomputeDeepestInode order) path.dropLast
              cache.root) p =
                if path <+: p then none else Trie.read NodeData.value cache.root p := by
            intro p
            have hread := read_erase (f := NodeData.value) order (fun _ => rfl) rfl
              path.dropLast leaf p cache.root
            simpa only [hpath] using hread
          refine ⟨?_, ?_, ?_, h.assigned⟩
          · apply wellFrom_rebuild order h.nodes
            · exact fun u hkeys => hkeys.eraseChild leaf
            · intro u c v hchild
              rw [Trie.child?_eraseChild] at hchild
              split_ifs at hchild
              exact hchild
          · intro p
            show (Trie.read NodeData.value (Trie.edit NodeData.default id
              (fun node => node.eraseChild leaf) (recomputeDeepestInode order) path.dropLast
              cache.root) p).isSome = _
            rw [hvalues]
            show _ = (Trie.read NodeData.entryId (Trie.edit NodeData.default id
              (fun node => node.eraseChild leaf) (recomputeDeepestInode order) path.dropLast
              cache.root) p).isSome
            rw [hids]
            split_ifs
            · rfl
            · exact h.paired p
          · apply h.index.drop (nodup_subtreeEntryIds h path)
            · intro i hi
              obtain ⟨rest, hrest⟩ := (mem_subtreeEntryIds h.nodes.allKeysNodup).mp hi
              exact ⟨path ++ rest, hrest⟩
            · intro p i
              show Trie.read NodeData.entryId (Trie.edit NodeData.default id
                (fun node => node.eraseChild leaf) (recomputeDeepestInode order) path.dropLast
                cache.root) p = some i ↔ _
              rw [hids, mem_subtreeEntryIds h.nodes.allKeysNodup]
              by_cases hp : path <+: p
              · rw [if_pos hp]
                obtain ⟨rest, rfl⟩ := hp
                constructor
                · exact fun hnone => absurd hnone (by simp)
                · rintro ⟨hcarries, hnot⟩
                  exact absurd ⟨rest, hcarries⟩ hnot
              · rw [if_neg hp]
                refine (and_iff_left_of_imp ?_).symm
                rintro hcarries ⟨rest, hsame⟩
                exact hp (h.index.injective hsame hcarries ▸ List.prefix_append path rest)
            · intro row
              simp

theorem invalidateByEdge_consistent (order : HashOrder) {cache : PathResolveCache}
    {uses : List Components} (h : Consistent cache uses) (parent : IndexNodeId)
    (name : String) : Consistent (cache.invalidateByEdge order parent name) uses := by
  unfold invalidateByEdge
  cases cache.edgeIndex.find? (parent, name) with
  | none => exact h
  | some entry => exact invalidatePrefix_consistent order h entry.2

/-! ## The number of entries -/

theorem isNewEntry_eq (cache : PathResolveCache) (components : Components) :
    cache.isNewEntry components = (Trie.read NodeData.value cache.root components).isNone := by
  unfold isNewEntry Trie.read
  cases cache.root.get? components with
  | none => rfl
  | some node => rfl

theorem evictLru_entryCount (order : HashOrder) {cache : PathResolveCache}
    {uses : List Components} (h : Consistent cache uses) :
    (cache.evictLru order).entryCount = cache.entryCount - 1 := by
  rcases oldestEntry_cases cache with ⟨hnone, hempty⟩ | ⟨⟨i, path⟩, hrow, hsome, -⟩
  · unfold evictLru
    rw [hnone, h.index.counted, hempty]
    rfl
  · obtain ⟨u, hget, -⟩ := Trie.read_eq_some_iff.mp ((h.index.listed i path).mp hrow)
    exact (evictLru_eq order hsome hget).2.2.1

/-- A put leaves room for the entry it is about to write: an eviction makes it, or the
value that it replaces does. -/
theorem prepare_entryCount (order : HashOrder) {cache : PathResolveCache}
    {uses : List Components} (h : Consistent cache uses)
    (hbound : cache.entryCount ≤ max 1 cache.maxEntries) (components : Components) :
    (cache.prepare order components).entryCount + 1 ≤ max 1 cache.maxEntries := by
  show ((cache.makeRoom order components).entryCount - (shallowEntryIds _ _).length) -
    (replacedEntryIds _ _).length + 1 ≤ _
  cases hevicts : cache.evicts components with
  | true =>
      have hroom : cache.makeRoom order components = cache.evictLru order := if_pos hevicts
      rw [hroom, evictLru_entryCount order h]
      omega
  | false =>
      have hroom : cache.makeRoom order components = cache :=
        if_neg (fun htrue => absurd (hevicts.symm.trans htrue) (by simp))
      rw [hroom]
      cases hnew : cache.isNewEntry components with
      | true =>
          unfold evicts at hevicts
          rw [hnew, Bool.true_and, decide_eq_false_iff_not] at hevicts
          omega
      | false =>
          have hsome : (Trie.read NodeData.entryId cache.root components).isSome := by
            rw [← h.paired]
            simpa [isNewEntry_eq] using hnew
          have hone : ((cache.clearShallowValuesOnPath components).replacedEntryIds
              components).length = 1 := by
            rw [replacedEntryIds_eq]
            show (Trie.read NodeData.entryId
              (Trie.mapAbove clearData components cache.root) components).toList.length = 1
            rw [Trie.read_mapAbove (fun _ => rfl), if_neg (Trie.not_mem_above_self components)]
            obtain ⟨i, hi⟩ := Option.isSome_iff_exists.mp hsome
            rw [hi]
            rfl
          rw [hone]
          omega

theorem evictLru_maxEntries (order : HashOrder) (cache : PathResolveCache) :
    (cache.evictLru order).maxEntries = cache.maxEntries := by
  unfold evictLru
  cases cache.oldestEntry with
  | none => rfl
  | some entry =>
      dsimp only
      unfold removeSingleEntry
      split_ifs
      · rfl
      · split
        · rfl
        · rfl

theorem prepare_maxEntries (order : HashOrder) (cache : PathResolveCache)
    (components : Components) :
    (cache.prepare order components).maxEntries = cache.maxEntries := by
  show (cache.makeRoom order components).maxEntries = cache.maxEntries
  unfold makeRoom
  split_ifs
  · exact evictLru_maxEntries order cache
  · rfl

/-- A lookup changes neither the number of entries nor their bound. -/
theorem refreshNode_entryCount (cache : PathResolveCache) (components : Components)
    (node : PathResolveCacheNode) :
    (cache.refreshNode components node).entryCount = cache.entryCount ∧
      (cache.refreshNode components node).maxEntries = cache.maxEntries := by
  unfold refreshNode
  split
  · exact ⟨rfl, rfl⟩
  · unfold refreshLruForPath
    split
    · exact ⟨rfl, rfl⟩
    · dsimp only
      split
      · exact ⟨rfl, rfl⟩
      · exact ⟨rfl, rfl⟩

theorem invalidatePrefix_entryCount (order : HashOrder) (cache : PathResolveCache)
    (path : Components) :
    (cache.invalidatePrefix order path).entryCount ≤ cache.entryCount ∧
      (cache.invalidatePrefix order path).maxEntries = cache.maxEntries := by
  unfold invalidatePrefix
  split
  · exact ⟨Nat.zero_le _, rfl⟩
  · split
    · exact ⟨Nat.le_refl _, rfl⟩
    · exact ⟨Nat.sub_le _ _, rfl⟩

/-- Every call keeps the number of entries within the bound, and the bound itself. -/
theorem call_entryCount {cache : PathResolveCache} {uses : List Components}
    (h : Consistent cache uses) (hbound : cache.entryCount ≤ max 1 cache.maxEntries)
    (action : Action) :
    (cache.call action).entryCount ≤ max 1 cache.maxEntries ∧
      (cache.call action).maxEntries = cache.maxEntries := by
  cases action with
  | putIdsForPath order components ids =>
      unfold call putIdsForPath
      dsimp only
      split_ifs
      · exact ⟨hbound, rfl⟩
      · exact ⟨prepare_entryCount order h hbound components,
          prepare_maxEntries order cache components⟩
  | putTerminalForPath order components parentIds value =>
      unfold call putTerminalForPath
      dsimp only
      split_ifs
      · exact ⟨hbound, rfl⟩
      · exact ⟨prepare_entryCount order h hbound components,
          prepare_maxEntries order cache components⟩
  | getIdsForPath components =>
      unfold call getIdsForPath
      dsimp only
      split
      · exact ⟨hbound, rfl⟩
      · split
        · exact ⟨hbound, rfl⟩
        · split_ifs
          · exact ⟨hbound, rfl⟩
          · obtain ⟨hcount, hmax⟩ := refreshNode_entryCount cache components ‹_›
            exact ⟨hcount ▸ hbound, hmax⟩
  | getTerminalForPath components =>
      unfold call getTerminalForPath
      dsimp only
      split
      · exact ⟨hbound, rfl⟩
      · rename_i matchedLen cur value _
        obtain ⟨hcount, hmax⟩ :=
          refreshNode_entryCount cache (components.take matchedLen) cur
        exact ⟨hcount ▸ hbound, hmax⟩
  | getLongestPrefixIdsForPath components => exact ⟨hbound, rfl⟩
  | invalidateByEdge order parent name =>
      unfold call invalidateByEdge
      dsimp only
      split
      · exact ⟨hbound, rfl⟩
      · rename_i entry _
        obtain ⟨hcount, hmax⟩ := invalidatePrefix_entryCount order cache entry.2
        exact ⟨Nat.le_trans hcount hbound, hmax⟩

/-! ## Runs -/

/-- A cache with the history of the uses of its paths: an accepted put, or a hit. -/
structure Usage where
  cache : PathResolveCache
  uses : List Components

/-- The path whose node a call uses.  A put uses the path it writes, `get_ids_for_path` the
path it finds, and `get_terminal_for_path` the prefix that holds the terminal. -/
def usedPath (cache : PathResolveCache) : Action → Option Components
  | .putIdsForPath _ components ids =>
      if ids.length ≠ components.length + 1 then none else some components
  | .putTerminalForPath _ components parentIds _ =>
      if parentIds.length ≠ components.length then none else some components
  | .getIdsForPath components => (cache.getIdsForPath components).1.map fun _ => components
  | .getTerminalForPath components =>
      (cache.getTerminalForPath components).1.map fun hit => components.take hit.matchedLen
  | .getLongestPrefixIdsForPath _ => none
  | .invalidateByEdge _ _ _ => none

/-- One call of a cache with its history. -/
def Usage.call (s : Usage) (action : Action) : Usage where
  cache := s.cache.call action
  uses := s.uses ++ (s.cache.usedPath action).toList

/-- A new cache. -/
def unused (maxEntries : Nat) : Usage := ⟨new maxEntries, []⟩

theorem call_consistent {cache : PathResolveCache} {uses : List Components}
    (h : Consistent cache uses) (action : Action) :
    Consistent (cache.call action) (uses ++ (cache.usedPath action).toList) := by
  cases action with
  | putIdsForPath order components ids =>
      by_cases hlength : ids.length = components.length + 1
      · have hused : cache.usedPath (.putIdsForPath order components ids) = some components :=
          if_neg (fun hne => hne hlength)
        rw [hused]
        exact putIdsForPath_consistent order h hlength
      · have hused : cache.usedPath (.putIdsForPath order components ids) = none := if_pos hlength
        have hput : cache.call (.putIdsForPath order components ids) = cache := if_pos hlength
        rw [hused, hput]
        simpa using h
  | putTerminalForPath order components parentIds value =>
      by_cases hlength : parentIds.length = components.length
      · have hused : cache.usedPath (.putTerminalForPath order components parentIds value) =
            some components := if_neg (fun hne => hne hlength)
        rw [hused]
        exact putTerminalForPath_consistent order h value hlength
      · have hused : cache.usedPath (.putTerminalForPath order components parentIds value) =
            none := if_pos hlength
        have hput : cache.call (.putTerminalForPath order components parentIds value) = cache :=
          if_pos hlength
        rw [hused, hput]
        simpa using h
  | getIdsForPath components => exact getIdsForPath_consistent h components
  | getTerminalForPath components => exact getTerminalForPath_consistent h components
  | getLongestPrefixIdsForPath components =>
      show Consistent cache (uses ++ [])
      simpa using h
  | invalidateByEdge order parent name =>
      show Consistent (cache.invalidateByEdge order parent name) (uses ++ [])
      simpa using invalidateByEdge_consistent order h parent name

/-- The invariant of a cache with its history. -/
structure Kept (maxEntries : Nat) (s : Usage) : Prop where
  consistent : Consistent s.cache s.uses
  capacity : s.cache.maxEntries = maxEntries
  bounded : s.cache.entryCount ≤ max 1 maxEntries

theorem kept_unused (maxEntries : Nat) : Kept maxEntries (unused maxEntries) :=
  ⟨consistent_new maxEntries, rfl, Nat.zero_le _⟩

theorem kept_call {maxEntries : Nat} {s : Usage} (action : Action) (h : Kept maxEntries s) :
    Kept maxEntries (s.call action) := by
  obtain ⟨hconsistent, rfl, hbound⟩ := h
  obtain ⟨hcount, hmax⟩ := call_entryCount hconsistent hbound action
  exact ⟨call_consistent hconsistent action, hmax, hcount⟩

theorem run_kept (maxEntries : Nat) (actions : List Action) :
    Kept maxEntries (run Usage.call (unused maxEntries) actions) :=
  run_invariant_of_forall (fun _ action _ h => kept_call action h)
    (fun action (_ : action ∈ actions) => trivial) (kept_unused maxEntries)

/-- A call is at most one use. -/
theorem length_uses_le (maxEntries : Nat) (actions : List Action) :
    (run Usage.call (unused maxEntries) actions).uses.length ≤ actions.length := by
  induction actions using List.reverseRecOn with
  | nil => exact Nat.le_refl 0
  | append_singleton actions action ih =>
      rw [run_append, List.length_append, List.length_singleton]
      show (_ ++ Option.toList _).length ≤ _
      rw [List.length_append]
      have hone := Option.length_toList_le
        (o := (run Usage.call (unused maxEntries) actions).cache.usedPath action)
      omega

/-- What the cache promises about its representation.  `counted`, `sized`, `listed` and
`paired` relate the counter, the nodes and the LRU map; ids are assigned only by puts and
hits, so that `assigned` bounds them by the length of the history. -/
structure Represented (maxEntries : Nat) (s : Usage) : Prop where
  keys : Trie.AllKeysNodup s.cache.root
  counted : s.cache.entryCount =
    (Trie.nodes s.cache.root).countP fun node => node.2.value.isSome
  sized : s.cache.entryCount = s.cache.lruMap.rows.length
  listed : ∀ entryId path, (entryId, path) ∈ s.cache.lruMap.rows ↔
    ∃ node, s.cache.root.get? path = some node ∧ node.data.value ≠ none ∧
      node.data.entryId = some entryId
  paired : ∀ path node, s.cache.root.get? path = some node →
    (node.data.value ≠ none ↔ node.data.entryId ≠ none)
  bounded : s.cache.entryCount ≤ max 1 maxEntries
  evicts : ∀ order, EvictsLeastUsed order s.cache s.uses
  deepest : ∀ path node, s.cache.root.get? path = some node →
    (node.data.deepestInode = none ↔
      ∀ rest below, node.get? rest = some below → below.data.value.bind Arc.inodeIds = none)
  assigned : s.cache.nextEntryId ≤ s.uses.length
  returns : ∀ action, s.cache.call? action = some (s.cache.call action)

theorem represented_of_kept {maxEntries : Nat} {s : Usage} (hkept : Kept maxEntries s) :
    Represented maxEntries s := by
  obtain ⟨h, -, hbound⟩ := hkept
  have hkeys := h.nodes.allKeysNodup
  -- a node holds a value exactly when it carries an id
  have hpaired : ∀ path node, s.cache.root.get? path = some node →
      node.data.value.isSome = node.data.entryId.isSome := by
    intro path node hget
    have hboth := h.paired path
    unfold Trie.read at hboth
    rw [hget] at hboth
    exact hboth
  have hnodup : s.cache.lruMap.rows.Nodup := s.cache.lruMap.keysNodup.of_map
  refine ⟨hkeys, ?_, h.index.counted, ?_, ?_, hbound, ?_, ?_, h.assigned,
    fun action => s.cache.call?_eq action⟩
  · rw [h.index.counted, Trie.length_eq_countP_nodes hkeys hnodup h.index.listed]
    apply List.countP_congr
    intro node hnode
    obtain ⟨u, hget, hdata⟩ := (Trie.mem_nodes hkeys).mp
      (show (node.1, node.2) ∈ Trie.nodes s.cache.root from hnode)
    rw [← hdata, hpaired node.1 u hget]
  · intro entryId path
    rw [h.index.listed, Trie.read_eq_some_iff]
    constructor
    · rintro ⟨node, hget, hentry⟩
      refine ⟨node, hget, ?_, hentry⟩
      rw [← Option.isSome_iff_ne_none, hpaired path node hget, hentry]
      rfl
    · rintro ⟨node, hget, -, hentry⟩
      exact ⟨node, hget, hentry⟩
  · intro path node hget
    rw [← Option.isSome_iff_ne_none, ← Option.isSome_iff_ne_none, hpaired path node hget]
  · exact fun order => evictsLeastUsed_of_consistent order h
  · intro path node hget
    rw [(h.nodes path node hget).deepest]
    constructor
    · intro hnone rest below hbelow
      have hread := hnone rest
      unfold Trie.read at hread
      rw [hbelow] at hread
      exact hread
    · intro hnone rest
      unfold Trie.read
      cases hbelow : node.get? rest with
      | none => rfl
      | some below => exact hnone rest below hbelow

/-- After every sequence of calls the counter, the trie and the LRU map agree, the number
of entries is within its bound, an eviction takes the least recently used entry, deepest
ids are remembered exactly above inode entries, and the next call does not panic.  The next
entry id is a `u64` of the source for as long as fewer than `2 ^ 64` calls were made. -/
theorem run_represented (maxEntries : Nat) (actions : List Action) :
    Represented maxEntries (run Usage.call (unused maxEntries) actions) ∧
      (actions.length < 2 ^ 64 →
        (run Usage.call (unused maxEntries) actions).cache.nextEntryId < 2 ^ 64) := by
  have hrun := represented_of_kept (run_kept maxEntries actions)
  refine ⟨hrun, fun hcalls => ?_⟩
  exact lt_of_le_of_lt (hrun.assigned.trans (length_uses_le maxEntries actions)) hcalls

/-- A hit counts as a use: of two entries the one put first stays when it was hit since. -/
example : ((run Usage.call (unused 2)
    [.putIdsForPath .insertion ["a"] [1, 2], .putIdsForPath .insertion ["b"] [1, 3],
      .getIdsForPath ["a"], .putIdsForPath .insertion ["c"] [1, 4]]).cache.lruMap.rows.map
        Prod.snd) = [["a"], ["c"]] := by
  decide

end PathResolveCache
end FsMeta
end CyfsNdn

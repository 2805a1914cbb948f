import CyfsNdn.FsMeta.EdgeInvalidation

/-!
# The slices and indexes of the cache

The operations of the cache slice and index vectors: a lookup cuts the ids it answers, a
put walks its chain by position, and the two filters of the edge index compare components
by position.  Each of these panics when it goes past the end.  Below every operation is
written once more with these accesses as the fallible steps they are, `none` standing for
the panic, and the theorems say that they all succeed, for any cache and any arguments:
each access stands behind the test that makes it safe.
-/

namespace CyfsNdn
namespace FsMeta
namespace PathResolveCache

open Collections NdnLib Relational

/-! ## Accesses -/

/-- `v[..len]`. -/
def sliceTo? {α : Type} (v : List α) (len : Nat) : Option (List α) :=
  if len ≤ v.length then some (v.take len) else none

theorem sliceTo?_eq {α : Type} {v : List α} {len : Nat} (h : len ≤ v.length) :
    sliceTo? v len = some (v.take len) :=
  if_pos h

/-- The loop of both filters: `comps[i] != p` for the components of a path. -/
def differsFrom? (comps : Components) : Nat → Components → Option Bool
  | _, [] => some false
  | i, p :: rest => do
      let c ← comps[i]?
      if c ≠ p then some true else differsFrom? comps (i + 1) rest

theorem differsFrom?_eq {comps : Components} {i : Nat} {path : Components}
    (h : i + path.length ≤ comps.length) :
    differsFrom? comps i path = some (!path.isPrefixOf (comps.drop i)) := by
  induction path generalizing i with
  | nil => simp [differsFrom?]
  | cons p rest ih =>
      rw [List.length_cons] at h
      have hi : i < comps.length := by omega
      have hrest : i + 1 + rest.length ≤ comps.length := by omega
      rw [List.drop_eq_getElem_cons hi, List.isPrefixOf_cons_cons]
      unfold differsFrom?
      rw [List.getElem?_eq_getElem hi]
      by_cases hp : comps[i] = p
      · simp [hp, ih hrest]
      · have hpc : ¬ p = comps[i] := fun heq => hp heq.symm
        simp [hp, hpc]

/-- `edge_index.retain` with a closure that may panic. -/
def retain? (index : Table (Edge × Components) Prod.fst) (keep : Components → Option Bool) :
    Option (Table (Edge × Components) Prod.fst) :=
  if index.rows.all fun entry => (keep entry.2).isSome then
    some (index.deleteWhere fun entry => decide (keep entry.2 = some false))
  else none

theorem retain?_eq (index : Table (Edge × Components) Prod.fst)
    {keep : Components → Option Bool} {drops : Components → Bool}
    (h : ∀ comps, keep comps = some (!drops comps)) :
    retain? index keep = some (index.deleteWhere fun entry => drops entry.2) := by
  have hall : (index.rows.all fun entry => (keep entry.2).isSome) = true := by
    rw [List.all_eq_true]
    intro entry _
    rw [h]
    rfl
  unfold retain?
  rw [if_pos hall]
  congr 2
  funext entry
  rw [h]
  cases drops entry.2 with
  | true => rfl
  | false => rfl

/-! ## Lookups -/

/-- `get_ids_for_path`, with its slice. -/
def getIdsForPath? (cache : PathResolveCache) (components : Components) :
    Option (Option (Arc (List IndexNodeId)) × PathResolveCache) :=
  match cache.root.get? components with
  | none => some (none, cache)
  | some node =>
      match idsOfNode node with
      | none => some (none, cache)
      | some v =>
          if v.val.length < components.length + 1 then some (none, cache)
          else do
            let ids ← sliceTo? v.val (components.length + 1)
            some (some ⟨v.origin, ids⟩, cache.refreshNode components node)

theorem getIdsForPath?_eq (cache : PathResolveCache) (components : Components) :
    cache.getIdsForPath? components = some (cache.getIdsForPath components) := by
  unfold getIdsForPath? getIdsForPath
  cases cache.root.get? components with
  | none => rfl
  | some node =>
      dsimp only
      cases idsOfNode node with
      | none => rfl
      | some v =>
          dsimp only
          split_ifs with hshort
          · rfl
          · rw [sliceTo?_eq (Nat.le_of_not_lt hshort)]
            rfl

/-- `get_terminal_for_path`, with the slice of the matched components. -/
def getTerminalForPath? (cache : PathResolveCache) (components : Components) :
    Option (Option PathResolveTerminalHit × PathResolveCache) :=
  match findTerminal cache.root components 0 with
  | none => some (none, cache)
  | some (matchedLen, cur, value) =>
      match cur.data.entryId with
      | none => some (some ⟨matchedLen, value⟩, cache)
      | some oldEntryId => do
          let matched ← sliceTo? components matchedLen
          some (some ⟨matchedLen, value⟩, cache.refreshLruForPath matched oldEntryId)

/-- The terminal that a lookup finds stands at the matched prefix of its path. -/
theorem findTerminal_get? {node cur : PathResolveCacheNode} {components : Components}
    {i matchedLen : Nat} {value : Arc PathResolveTerminalValue}
    (h : findTerminal node components i = some (matchedLen, cur, value)) :
    ∃ k, matchedLen = i + k ∧ k ≤ components.length ∧
      node.get? (components.take k) = some cur := by
  induction components generalizing node i with
  | nil => exact absurd h (by simp [findTerminal])
  | cons c rest ih =>
      unfold findTerminal at h
      cases hchild : node.child? c with
      | none =>
          rw [hchild] at h
          exact absurd h (by simp)
      | some next =>
          rw [hchild] at h
          dsimp only at h
          cases hvalue : next.data.value.bind Arc.terminalValue with
          | none =>
              rw [hvalue] at h
              obtain ⟨k, hlen, hle, hget⟩ := ih h
              refine ⟨k + 1, by omega, Nat.succ_le_succ hle, ?_⟩
              rw [List.take_succ_cons, Trie.get?_cons, hchild]
              exact hget
          | some found =>
              rw [hvalue] at h
              simp only [Option.some.injEq, Prod.mk.injEq] at h
              obtain ⟨hlen, hcur, -⟩ := h
              refine ⟨1, hlen.symm, by simp, ?_⟩
              rw [List.take_succ_cons, List.take_zero, Trie.get?_cons, hchild, hcur]
              rfl

theorem getTerminalForPath?_eq (cache : PathResolveCache) (components : Components) :
    cache.getTerminalForPath? components = some (cache.getTerminalForPath components) := by
  unfold getTerminalForPath? getTerminalForPath
  cases hfind : findTerminal cache.root components 0 with
  | none => rfl
  | some found =>
      obtain ⟨matchedLen, cur, value⟩ := found
      obtain ⟨k, hlen, hle, -⟩ := findTerminal_get? hfind
      rw [Nat.zero_add] at hlen
      subst hlen
      dsimp only
      unfold refreshNode
      cases cur.data.entryId with
      | none => rfl
      | some oldEntryId =>
          dsimp only
          rw [sliceTo?_eq hle]
          rfl

/-- What `get_longest_prefix_ids_for_path` starts with at the root. -/
def longestAtRoot (cache : PathResolveCache) : Option (Nat × Arc (List IndexNodeId)) :=
  match idsOfNode cache.root with
  | none => none
  | some v => if v.val.isEmpty then none else some (0, v)

/-- `get_longest_prefix_ids_for_path`, with its slice. -/
def getLongestPrefixIdsForPath? (cache : PathResolveCache) (components : Components) :
    Option (Option (Arc (List IndexNodeId))) :=
  match longestPrefix cache.root 0 components cache.longestAtRoot with
  | none => some none
  | some (bestDepth, v) => do
      let ids ← sliceTo? v.val (bestDepth + 1)
      some (some ⟨v.origin, ids⟩)

/-- The loop only keeps ids that are long enough for their depth. -/
theorem longestPrefix_length {node : PathResolveCacheNode} {depth : Nat}
    {components : Components} {best : Option (Nat × Arc (List IndexNodeId))}
    (hbest : ∀ b ∈ best, b.1 + 1 ≤ b.2.val.length) :
    ∀ b ∈ longestPrefix node depth components best, b.1 + 1 ≤ b.2.val.length := by
  induction components generalizing node depth best with
  | nil => exact hbest
  | cons c rest ih =>
      unfold longestPrefix
      cases node.child? c with
      | none => exact hbest
      | some next =>
          dsimp only
          cases idsOfNode next with
          | none => exact ih hbest
          | some v =>
              apply ih
              intro b hb
              split_ifs at hb with hlong
              · rw [← Option.some.inj hb]
                exact hlong
              · exact hbest b hb

theorem longestAtRoot_length (cache : PathResolveCache) :
    ∀ b ∈ cache.longestAtRoot, b.1 + 1 ≤ b.2.val.length := by
  intro b hb
  unfold longestAtRoot at hb
  cases hids : idsOfNode cache.root with
  | none =>
      rw [hids] at hb
      exact absurd hb (by simp)
  | some v =>
      rw [hids] at hb
      dsimp only at hb
      split_ifs at hb with hempty
      · exact absurd hb (by simp)
      · rw [← Option.some.inj hb]
        have hne : v.val ≠ [] := fun h => hempty (by rw [h]; rfl)
        exact List.length_pos_iff.mpr hne

theorem getLongestPrefixIdsForPath?_eq (cache : PathResolveCache) (components : Components) :
    cache.getLongestPrefixIdsForPath? components =
      some (cache.getLongestPrefixIdsForPath components) := by
  have hloop : cache.getLongestPrefixIdsForPath components =
      (longestPrefix cache.root 0 components cache.longestAtRoot).map fun best =>
        best.2.sliceTo (best.1 + 1) := rfl
  have hlength : ∀ b ∈ longestPrefix cache.root 0 components cache.longestAtRoot,
      b.1 + 1 ≤ b.2.val.length := longestPrefix_length cache.longestAtRoot_length
  rw [hloop]
  unfold getLongestPrefixIdsForPath?
  cases hbest : longestPrefix cache.root 0 components cache.longestAtRoot with
  | none => rfl
  | some best =>
      dsimp only
      rw [sliceTo?_eq (hlength best hbest)]
      rfl

/-! ## Evictions -/

/-- `remove_single_entry`, with the comparisons of its filter. -/
def removeSingle? (order : HashOrder) (cache : PathResolveCache) (path : Components) :
    Option PathResolveCache :=
  if path = [] then
    some
      { cache with
        root := Trie.edit NodeData.default id clearNode (recomputeDeepestInode order) []
          cache.root }
  else
    match cache.root.get? path with
    | none => some cache
    | some _ => do
        let edgeIndex ← retain? cache.edgeIndex fun comps =>
          if comps.length ≠ path.length then some true else differsFrom? comps 0 path
        some
          { cache with
            edgeIndex := edgeIndex
            root := Trie.edit NodeData.default id clearNode (recomputeDeepestInode order) path
              cache.root }

theorem removeSingle?_eq (order : HashOrder) (cache : PathResolveCache)
    (path : Components) :
    removeSingle? order cache path = some (removeSingleEntry order cache path) := by
  have hkeep : ∀ comps : Components,
      (if comps.length ≠ path.length then some true else differsFrom? comps 0 path) =
        some (!decide (comps = path)) := by
    intro comps
    by_cases hlen : comps.length = path.length
    · rw [if_neg (fun hne => hne hlen), differsFrom?_eq (by omega), List.drop_zero]
      -- a prefix of the same length is the whole path
      have hsame : path.isPrefixOf comps = decide (comps = path) := by
        rw [Bool.eq_iff_iff, List.isPrefixOf_iff_prefix, decide_eq_true_iff]
        constructor
        · exact fun hpre => (hpre.eq_of_length hlen.symm).symm
        · rintro rfl
          exact List.prefix_refl comps
      rw [hsame]
    · have hne : comps ≠ path := fun heq => hlen (congrArg List.length heq)
      simp [hlen, hne]
  unfold removeSingle? removeSingleEntry
  by_cases hpath : path = []
  · rw [if_pos hpath, if_pos hpath]
  · rw [if_neg hpath, if_neg hpath]
    cases cache.root.get? path with
    | none => rfl
    | some _ =>
        dsimp only
        rw [retain?_eq cache.edgeIndex hkeep]
        rfl

/-- `evict_lru`. -/
def evictLru? (order : HashOrder) (cache : PathResolveCache) : Option PathResolveCache :=
  match cache.oldestEntry with
  | none => some cache
  | some lruEntry =>
      removeSingle? order
        { cache with
          lruMap := cache.lruMap.deleteKey lruEntry.1
          entryCount := cache.entryCount - 1 }
        lruEntry.2

theorem evictLru?_eq (order : HashOrder) (cache : PathResolveCache) :
    cache.evictLru? order = some (cache.evictLru order) := by
  unfold evictLru? evictLru
  cases cache.oldestEntry with
  | none => rfl
  | some lruEntry => exact removeSingle?_eq order _ _

/-! ## Puts -/

/-- The eviction before a put. -/
def makeRoom? (order : HashOrder) (cache : PathResolveCache) (components : Components) :
    Option PathResolveCache :=
  if cache.evicts components then cache.evictLru? order else some cache

theorem makeRoom?_eq (order : HashOrder) (cache : PathResolveCache) (components : Components) :
    cache.makeRoom? order components = some (cache.makeRoom order components) := by
  unfold makeRoom? makeRoom
  split_ifs
  · exact cache.evictLru?_eq order
  · rfl

/-- What both puts do before they write. -/
def prepare? (order : HashOrder) (cache : PathResolveCache) (components : Components) :
    Option PathResolveCache := do
  let roomy ← cache.makeRoom? order components
  let cleared := roomy.clearShallowValuesOnPath components
  some (cleared.dropLru (cleared.replacedEntryIds components))

theorem prepare?_eq (order : HashOrder) (cache : PathResolveCache) (components : Components) :
    cache.prepare? order components = some (cache.prepare order components) := by
  unfold prepare?
  rw [cache.makeRoom?_eq order components]
  rfl

/-- The loop over the edges of a chain, with its three accesses. -/
def insertEdges? (index : Table (Edge × Components) Prod.fst) (parents : List IndexNodeId)
    (components : Components) : Option (Table (Edge × Components) Prod.fst) :=
  (List.range components.length).foldlM
    (fun index i => do
      let parent ← parents[i]?
      let name ← components[i]?
      let path ← sliceTo? components (i + 1)
      some (index.insertOrReplace ((parent, name), path)))
    index

/-- A chain with a parent for each component. -/
theorem insertEdges?_eq (index : Table (Edge × Components) Prod.fst)
    {parents : List IndexNodeId} {components : Components}
    (h : components.length ≤ parents.length) :
    insertEdges? index parents components = some (insertEdges index parents components) := by
  have hfold : ∀ (positions : List Nat) (index : Table (Edge × Components) Prod.fst),
      (∀ i ∈ positions, i < components.length) →
      positions.foldlM (fun index i => do
        let parent ← parents[i]?
        let name ← components[i]?
        let path ← sliceTo? components (i + 1)
        some (index.insertOrReplace ((parent, name), path))) index =
      some (positions.foldl (fun index i => index.insertOrReplace
        (edgeAt parents components i, components.take (i + 1))) index) := by
    intro positions
    induction positions with
    | nil => exact fun _ _ => rfl
    | cons i rest ih =>
        intro index hall
        have hi := hall i List.mem_cons_self
        have hparent : i < parents.length := Nat.lt_of_lt_of_le hi h
        have hedge : edgeAt parents components i = (parents[i], components[i]) := by
          unfold edgeAt
          rw [List.getD_eq_getElem?_getD, List.getD_eq_getElem?_getD,
            List.getElem?_eq_getElem hparent, List.getElem?_eq_getElem hi]
          rfl
        rw [List.foldlM_cons, List.foldl_cons, List.getElem?_eq_getElem hparent,
          List.getElem?_eq_getElem hi, sliceTo?_eq hi, hedge]
        exact ih _ fun j hj => hall j (List.mem_cons_of_mem i hj)
  exact hfold _ index fun i hi => List.mem_range.mp hi

/-- The end of a put. -/
def record? (cache : PathResolveCache) (parents : List IndexNodeId)
    (components : Components) : Option PathResolveCache := do
  let edgeIndex ← insertEdges? cache.edgeIndex parents components
  some
    { cache with
      nextEntryId := cache.nextEntryId + 1
      lruMap := cache.lruMap.insertOrReplace (cache.nextEntryId, components)
      entryCount := cache.entryCount + 1
      edgeIndex := edgeIndex }

theorem record?_eq (cache : PathResolveCache) {parents : List IndexNodeId}
    {components : Components} (h : components.length ≤ parents.length) :
    cache.record? parents components = some (cache.recordEntry parents components) := by
  unfold record?
  rw [insertEdges?_eq cache.edgeIndex h]
  rfl

/-- `put_ids_for_path`. -/
def putIdsForPath? (order : HashOrder) (cache : PathResolveCache) (components : Components)
    (ids : List IndexNodeId) : Option PathResolveCache :=
  if ids.length ≠ components.length + 1 then some cache
  else do
    let prepared ← cache.prepare? order components
    let entryId := prepared.nextEntryId
    { prepared with
      root := Trie.edit NodeData.default id (idsNode entryId ids) (raiseDeepest ⟨entryId, ids⟩)
        components prepared.root }.record? ids components

theorem putIdsForPath?_eq (order : HashOrder) (cache : PathResolveCache)
    (components : Components) (ids : List IndexNodeId) :
    cache.putIdsForPath? order components ids =
      some (cache.putIdsForPath order components ids) := by
  unfold putIdsForPath? putIdsForPath
  split_ifs with hlength
  · rfl
  · rw [cache.prepare?_eq order components]
    exact record?_eq _ (by omega)

/-- `put_terminal_for_path`. -/
def putTerminalForPath? (order : HashOrder) (cache : PathResolveCache)
    (components : Components) (parentIds : List IndexNodeId)
    (value : PathResolveTerminalValue) : Option PathResolveCache :=
  if parentIds.length ≠ components.length then some cache
  else do
    let prepared ← cache.prepare? order components
    let entryId := prepared.nextEntryId
    { prepared with
      root := Trie.edit NodeData.default id (terminalNode entryId value)
        (recomputeDeepestInode order) components prepared.root }.record? parentIds
          components

theorem putTerminalForPath?_eq (order : HashOrder) (cache : PathResolveCache)
    (components : Components) (parentIds : List IndexNodeId)
    (value : PathResolveTerminalValue) :
    cache.putTerminalForPath? order components parentIds value =
      some (cache.putTerminalForPath order components parentIds value) := by
  unfold putTerminalForPath? putTerminalForPath
  split_ifs with hlength
  · rfl
  · rw [cache.prepare?_eq order components]
    exact record?_eq _ (by omega)

/-! ## Invalidations -/

/-- `invalidate_prefix_internal`, with the accesses to its path. -/
def invalidatePrefix? (order : HashOrder) (cache : PathResolveCache) (path : Components) :
    Option PathResolveCache :=
  if path.isEmpty then
    some
      { cache with
        root := Trie.leaf NodeData.default
        edgeIndex := Table.empty
        lruMap := Table.empty
        entryCount := 0 }
  else do
    let parentPath ← sliceTo? path (path.length - 1)
    match cache.root.get? parentPath with
    | none => some cache
    | some _ => do
        let leaf ← path[path.length - 1]?
        let edgeIndex ← retain? cache.edgeIndex fun comps =>
          if comps.length < path.length then some true else differsFrom? comps 0 path
        some
          { cache.dropLru (cache.subtreeEntryIds path) with
            edgeIndex := edgeIndex
            root := Trie.edit NodeData.default id (fun node => node.eraseChild leaf)
              (recomputeDeepestInode order) parentPath cache.root }

theorem invalidatePrefix?_eq (order : HashOrder) (cache : PathResolveCache)
    (path : Components) :
    cache.invalidatePrefix? order path = some (cache.invalidatePrefix order path) := by
  have hkeep : ∀ comps : Components,
      (if comps.length < path.length then some true else differsFrom? comps 0 path) =
        some (!path.isPrefixOf comps) := by
    intro comps
    by_cases hlen : comps.length < path.length
    · have hno : path.isPrefixOf comps = false := by
        rw [← Bool.not_eq_true, List.isPrefixOf_iff_prefix]
        intro hpre
        exact Nat.not_lt_of_le hpre.length_le hlen
      rw [if_pos hlen, hno]
      rfl
    · rw [if_neg hlen, differsFrom?_eq (by omega), List.drop_zero]
  unfold invalidatePrefix? invalidatePrefix
  cases hlast : path.getLast? with
  | none =>
      rw [List.getLast?_eq_none_iff.mp hlast]
      rfl
  | some leaf =>
      have hne : path ≠ [] := by
        rintro rfl
        exact absurd hlast (by simp)
      have hempty : ¬ path.isEmpty = true := fun h => hne (List.isEmpty_iff.mp h)
      rw [if_neg hempty, sliceTo?_eq (Nat.sub_le _ _), ← List.dropLast_eq_take]
      show (match cache.root.get? path.dropLast with
        | none => some cache
        | some _ => _) = _
      cases cache.root.get? path.dropLast with
      | none => rfl
      | some _ =>
          dsimp only
          rw [← List.getLast?_eq_getElem?, hlast, retain?_eq cache.edgeIndex hkeep]
          rfl

/-- `invalidate_by_edge`. -/
def invalidateByEdge? (order : HashOrder) (cache : PathResolveCache) (parent : IndexNodeId)
    (name : String) : Option PathResolveCache :=
  match cache.edgeIndex.find? (parent, name) with
  | none => some cache
  | some entry => cache.invalidatePrefix? order entry.2

theorem invalidateByEdge?_eq (order : HashOrder) (cache : PathResolveCache)
    (parent : IndexNodeId) (name : String) :
    cache.invalidateByEdge? order parent name =
      some (cache.invalidateByEdge order parent name) := by
  unfold invalidateByEdge? invalidateByEdge
  cases cache.edgeIndex.find? (parent, name) with
  | none => rfl
  | some entry => exact cache.invalidatePrefix?_eq order entry.2

/-! ## Calls -/

/-- What a call leaves of the cache. -/
def call (cache : PathResolveCache) : Action → PathResolveCache
  | .putIdsForPath order components ids => cache.putIdsForPath order components ids
  | .putTerminalForPath order components parentIds value =>
      cache.putTerminalForPath order components parentIds value
  | .getIdsForPath components => (cache.getIdsForPath components).2
  | .getTerminalForPath components => (cache.getTerminalForPath components).2
  | .getLongestPrefixIdsForPath _ => cache
  | .invalidateByEdge order parent name => cache.invalidateByEdge order parent name

/-- The same with the accesses of the operation: `none` is a panic. -/
def call? (cache : PathResolveCache) : Action → Option PathResolveCache
  | .putIdsForPath order components ids => cache.putIdsForPath? order components ids
  | .putTerminalForPath order components parentIds value =>
      cache.putTerminalForPath? order components parentIds value
  | .getIdsForPath components => (cache.getIdsForPath? components).map Prod.snd
  | .getTerminalForPath components => (cache.getTerminalForPath? components).map Prod.snd
  | .getLongestPrefixIdsForPath components =>
      (cache.getLongestPrefixIdsForPath? components).map fun _ => cache
  | .invalidateByEdge order parent name => cache.invalidateByEdge? order parent name

/-- No call panics. -/
theorem call?_eq (cache : PathResolveCache) (action : Action) :
    cache.call? action = some (cache.call action) := by
  cases action with
  | putIdsForPath order components ids => exact cache.putIdsForPath?_eq order components ids
  | putTerminalForPath order components parentIds value =>
      exact cache.putTerminalForPath?_eq order components parentIds value
  | getIdsForPath components =>
      show (cache.getIdsForPath? components).map Prod.snd = _
      rw [cache.getIdsForPath?_eq components]
      rfl
  | getTerminalForPath components =>
      show (cache.getTerminalForPath? components).map Prod.snd = _
      rw [cache.getTerminalForPath?_eq components]
      rfl
  | getLongestPrefixIdsForPath components =>
      show (cache.getLongestPrefixIdsForPath? components).map _ = _
      rw [cache.getLongestPrefixIdsForPath?_eq components]
      rfl
  | invalidateByEdge order parent name => exact cache.invalidateByEdge?_eq order parent name

end PathResolveCache
end FsMeta
end CyfsNdn

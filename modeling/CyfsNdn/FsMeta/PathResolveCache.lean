import CyfsNdn.Collections.Trie
import CyfsNdn.NdnLib.ObjId
import CyfsNdn.Relational.Table

/-!
# The path resolution cache

`fs_meta/src/path_resolve_cache.rs`: a trie over path components whose nodes hold the
inode ids of a resolved path, or the object or symbolic link that ends one.  A second
index maps an edge, an inode and a name in it, to the path under which the edge was
cached; invalidation goes through that index.  A third map orders the entries by their
last use, and a full cache drops the entry that was used longest ago.

Three things the source leaves to its libraries show up here.  `HashMap` iteration has
no fixed order, and where several children hold equally deep paths the order decides
which one a node remembers: every operation takes the order as an argument.  The
vectors behind an `Arc` are the allocation of one particular put; `Arc` below carries
the entry id that this put assigned as the name of the allocation, which no branch of
the code looks at.  Entry ids are numbers without a bound; that fewer than `2 ^ 64` calls
do not take the counter of the source beyond a `u64` is shown with the other laws of the
representation.
-/

namespace CyfsNdn
namespace FsMeta

open Collections NdnLib Relational

/-- `IndexNodeId`. -/
abbrev IndexNodeId := Nat

/-- `EntryId`. -/
abbrev EntryId := Nat

/-- Shared data, with the entry id of the put that allocated it. -/
structure Arc (α : Type) where
  origin : EntryId
  val : α
deriving DecidableEq, Repr

/-- `PathResolveTerminalValue`. -/
inductive PathResolveTerminalValue where
  | objId (objId : ObjId)
  | symLink (target : String)
deriving DecidableEq

/-- `PathResolveTerminalHit`; the value keeps its allocation. -/
structure PathResolveTerminalHit where
  matchedLen : Nat
  value : Arc PathResolveTerminalValue

/-- `PathResolveCacheValue`. -/
inductive PathResolveCacheValue where
  | inodeIds (ids : List IndexNodeId)
  | terminal (value : PathResolveTerminalValue)

/-- `PathResolveCacheValue::inode_ids`. -/
def Arc.inodeIds (value : Arc PathResolveCacheValue) : Option (Arc (List IndexNodeId)) :=
  match value.val with
  | .inodeIds ids => some ⟨value.origin, ids⟩
  | .terminal _ => none

/-- `PathResolveCacheValue::terminal_value`. -/
def Arc.terminalValue (value : Arc PathResolveCacheValue) :
    Option (Arc PathResolveTerminalValue) :=
  match value.val with
  | .inodeIds _ => none
  | .terminal terminal => some ⟨value.origin, terminal⟩

/-- `v[..len].to_vec()`. -/
def Arc.sliceTo (v : Arc (List IndexNodeId)) (len : Nat) : Arc (List IndexNodeId) :=
  ⟨v.origin, v.val.take len⟩

/-- The fields of `PathResolveCacheNode` beside its children. -/
structure NodeData where
  value : Option (Arc PathResolveCacheValue)
  deepestInode : Option (Arc (List IndexNodeId))
  entryId : Option EntryId

/-- `PathResolveCacheNode::default()`. -/
def NodeData.default : NodeData := ⟨none, none, none⟩

/-- `PathResolveCacheNode`. -/
abbrev PathResolveCacheNode := Trie String NodeData

/-- The order in which a `HashMap` hands out the children of a node. -/
structure HashOrder where
  values : List (String × PathResolveCacheNode) → List (String × PathResolveCacheNode)
  perm : ∀ children, (values children).Perm children

/-- Children in the order of their insertion. -/
def HashOrder.insertion : HashOrder := ⟨id, fun _ => List.Perm.refl _⟩

/-- `recompute_deepest_inode`, the loop over the children. -/
def deepestOf : Option (Arc (List IndexNodeId)) → List (String × PathResolveCacheNode) →
    Option (Arc (List IndexNodeId))
  | best, [] => best
  | best, child :: rest =>
      match child.2.data.deepestInode, best with
      | none, best => deepestOf best rest
      | some v, none => deepestOf (some v) rest
      | some v, some cur =>
          deepestOf (if v.val.length > cur.val.length then some v else some cur) rest

/-- `recompute_deepest_inode`: the new data of the node. -/
def recomputeDeepestInode (order : HashOrder) (node : PathResolveCacheNode) : NodeData :=
  { node.data with
    deepestInode := deepestOf (node.data.value.bind Arc.inodeIds) (order.values node.children) }

/-- An edge `(parent_inode_id, name)`. -/
abbrev Edge := IndexNodeId × String

instance : LawfulBEq Edge := inferInstance

/-- Path components. -/
abbrev Components := List String

/-- `PathResolveCache`. -/
structure PathResolveCache where
  root : PathResolveCacheNode
  edgeIndex : Table (Edge × Components) Prod.fst
  maxEntries : Nat
  entryCount : Nat
  nextEntryId : EntryId
  lruMap : Table (EntryId × Components) Prod.fst

namespace PathResolveCache

/-- `PathResolveCache::new`. -/
def new (maxEntries : Nat) : PathResolveCache where
  root := Trie.leaf NodeData.default
  edgeIndex := Table.empty
  maxEntries := maxEntries
  entryCount := 0
  nextEntryId := 0
  lruMap := Table.empty

/-! ## Lookups -/

/-- The node's data with another entry id. -/
def withEntryId (entryId : EntryId) (node : PathResolveCacheNode) : PathResolveCacheNode :=
  { node with data := { node.data with entryId := some entryId } }

/-- `refresh_lru_for_path`. -/
def refreshLruForPath (cache : PathResolveCache) (components : Components)
    (oldEntryId : EntryId) : PathResolveCache :=
  match cache.lruMap.find? oldEntryId with
  | none => cache
  | some lruEntry =>
      let refreshed :=
        { cache with
          nextEntryId := cache.nextEntryId + 1
          lruMap := (cache.lruMap.deleteKey oldEntryId).insertOrReplace
            (cache.nextEntryId, lruEntry.2) }
      match cache.root.get? components with
      | none => refreshed
      | some _ =>
          { refreshed with
            root := Trie.edit NodeData.default id (withEntryId cache.nextEntryId) Trie.data
              components cache.root }

/-- The refresh that a hit causes: only a node with an entry id is refreshed. -/
def refreshNode (cache : PathResolveCache) (components : Components)
    (node : PathResolveCacheNode) : PathResolveCache :=
  match node.data.entryId with
  | none => cache
  | some oldEntryId => cache.refreshLruForPath components oldEntryId

/-- The ids a node answers with: its own, or those of its deepest descendant. -/
def idsOfNode (node : PathResolveCacheNode) : Option (Arc (List IndexNodeId)) :=
  (node.data.value.bind Arc.inodeIds).orElse fun _ => node.data.deepestInode

/-- `get_ids_for_path`. -/
def getIdsForPath (cache : PathResolveCache) (components : Components) :
    Option (Arc (List IndexNodeId)) × PathResolveCache :=
  match cache.root.get? components with
  | none => (none, cache)
  | some node =>
      match idsOfNode node with
      | none => (none, cache)
      | some v =>
          if v.val.length < components.length + 1 then (none, cache)
          else (some (v.sliceTo (components.length + 1)), cache.refreshNode components node)

/-- The first node below a node, on the way along a path, that holds a terminal value,
with its depth. -/
def findTerminal (node : PathResolveCacheNode) :
    Components → Nat → Option (Nat × PathResolveCacheNode × Arc PathResolveTerminalValue)
  | [], _ => none
  | c :: rest, i =>
      match node.child? c with
      | none => none
      | some cur =>
          match cur.data.value.bind Arc.terminalValue with
          | some value => some (i + 1, cur, value)
          | none => findTerminal cur rest (i + 1)

/-- `get_terminal_for_path`. -/
def getTerminalForPath (cache : PathResolveCache) (components : Components) :
    Option PathResolveTerminalHit × PathResolveCache :=
  match findTerminal cache.root components 0 with
  | none => (none, cache)
  | some (matchedLen, cur, value) =>
      (some ⟨matchedLen, value⟩, cache.refreshNode (components.take matchedLen) cur)

/-- The loop of `get_longest_prefix_ids_for_path`. -/
def longestPrefix (node : PathResolveCacheNode) (depth : Nat) :
    Components → Option (Nat × Arc (List IndexNodeId)) → Option (Nat × Arc (List IndexNodeId))
  | [], best => best
  | c :: rest, best =>
      match node.child? c with
      | none => best
      | some next =>
          match idsOfNode next with
          | none => longestPrefix next (depth + 1) rest best
          | some v =>
              longestPrefix next (depth + 1) rest
                (if v.val.length ≥ depth + 1 + 1 then some (depth + 1, v) else best)

/-- `get_longest_prefix_ids_for_path`. -/
def getLongestPrefixIdsForPath (cache : PathResolveCache) (components : Components) :
    Option (Arc (List IndexNodeId)) :=
  let atRoot :=
    match idsOfNode cache.root with
    | none => none
    | some v => if v.val.isEmpty then none else some (0, v)
  (longestPrefix cache.root 0 components atRoot).map fun best =>
    best.2.sliceTo (best.1 + 1)

/-! ## Eviction -/

/-- A node without its value. -/
def clearData (data : NodeData) : NodeData :=
  { data with value := none, entryId := none }

/-- The node with its value taken out. -/
def clearNode (node : PathResolveCacheNode) : PathResolveCacheNode :=
  { node with data := clearData node.data }

/-- `remove_single_entry`. -/
def removeSingleEntry (order : HashOrder) (cache : PathResolveCache) (path : Components) :
    PathResolveCache :=
  if path = [] then
    { cache with
      root := Trie.edit NodeData.default id clearNode (recomputeDeepestInode order) []
        cache.root }
  else
    match cache.root.get? path with
    | none => cache
    | some _ =>
        { cache with
          edgeIndex := cache.edgeIndex.deleteWhere fun entry => entry.2 = path
          root := Trie.edit NodeData.default id clearNode (recomputeDeepestInode order) path
            cache.root }

/-- `lru_map.keys().min()`. -/
def oldestId (cache : PathResolveCache) : Option EntryId :=
  (cache.lruMap.rows.map Prod.fst).min?

/-- The entry that `evict_lru` takes out. -/
def oldestEntry (cache : PathResolveCache) : Option (EntryId × Components) :=
  cache.oldestId.bind cache.lruMap.find?

/-- `evict_lru`. -/
def evictLru (order : HashOrder) (cache : PathResolveCache) : PathResolveCache :=
  match cache.oldestEntry with
  | none => cache
  | some lruEntry =>
      removeSingleEntry order
        { cache with
          lruMap := cache.lruMap.deleteKey lruEntry.1
          entryCount := cache.entryCount - 1 }
        lruEntry.2

/-! ## Puts -/

/-- `is_new_entry`. -/
def isNewEntry (cache : PathResolveCache) (components : Components) : Bool :=
  match cache.root.get? components with
  | none => true
  | some node => node.data.value.isNone

/-- The entry ids that `clear_shallow_values_on_path` takes. -/
def shallowEntryIds (node : PathResolveCacheNode) : Components → List EntryId
  | [] => []
  | c :: rest =>
      node.data.entryId.toList ++
        match node.child? c with
        | none => []
        | some next => shallowEntryIds next rest

/-- Forget entries in the `lru_map` and in the count. -/
def dropLru (cache : PathResolveCache) (ids : List EntryId) : PathResolveCache :=
  { cache with
    lruMap := cache.lruMap.deleteWhere fun entry => decide (entry.1 ∈ ids)
    entryCount := cache.entryCount - ids.length }

/-- `clear_shallow_values_on_path`. -/
def clearShallowValuesOnPath (cache : PathResolveCache) (components : Components) :
    PathResolveCache :=
  { cache.dropLru (shallowEntryIds cache.root components) with
    root := Trie.mapAbove clearData components cache.root }

/-- The entry id of the node a put overwrites. -/
def replacedEntryIds (cache : PathResolveCache) (components : Components) : List EntryId :=
  match cache.root.get? components with
  | none => []
  | some node => node.data.entryId.toList

/-- The edge that a chain takes at a position: `components[i]` leads out of `parents[i]`. -/
def edgeAt (parents : List IndexNodeId) (components : Components) (i : Nat) : Edge :=
  (parents.getD i 0, components.getD i "")

/-- `edge_index.insert` for every edge of a chain, from the root down. -/
def insertEdges (index : Table (Edge × Components) Prod.fst) (parents : List IndexNodeId)
    (components : Components) : Table (Edge × Components) Prod.fst :=
  (List.range components.length).foldl
    (fun index i =>
      index.insertOrReplace (edgeAt parents components i, components.take (i + 1)))
    index

/-- The end of a put: the new entry enters the LRU order and the edge index. -/
def recordEntry (cache : PathResolveCache) (parents : List IndexNodeId)
    (components : Components) : PathResolveCache :=
  { cache with
    nextEntryId := cache.nextEntryId + 1
    lruMap := cache.lruMap.insertOrReplace (cache.nextEntryId, components)
    entryCount := cache.entryCount + 1
    edgeIndex := insertEdges cache.edgeIndex parents components }

/-- A put that adds a new entry to a full cache. -/
def evicts (cache : PathResolveCache) (components : Components) : Bool :=
  cache.isNewEntry components && decide (cache.entryCount ≥ cache.maxEntries)

/-- The eviction before a put. -/
def makeRoom (order : HashOrder) (cache : PathResolveCache) (components : Components) :
    PathResolveCache :=
  if cache.evicts components then cache.evictLru order else cache

/-- What both puts do before they write: a new entry of a full cache evicts the oldest
one, a deeper path covers the shallow ones, and a value that is replaced leaves the LRU
order. -/
def prepare (order : HashOrder) (cache : PathResolveCache) (components : Components) :
    PathResolveCache :=
  let cleared := (cache.makeRoom order components).clearShallowValuesOnPath components
  cleared.dropLru (cleared.replacedEntryIds components)

/-- The target node of `put_ids_for_path`. -/
def idsNode (entryId : EntryId) (ids : List IndexNodeId) (node : PathResolveCacheNode) :
    PathResolveCacheNode :=
  { node with
    data := ⟨some ⟨entryId, .inodeIds ids⟩, some ⟨entryId, ids⟩, some entryId⟩ }

/-- The update of `deepest_inode` up the path of `put_ids_for_path`. -/
def raiseDeepest (ids : Arc (List IndexNodeId)) (node : PathResolveCacheNode) : NodeData :=
  match node.data.deepestInode with
  | none => { node.data with deepestInode := some ids }
  | some cur =>
      if ids.val.length > cur.val.length then { node.data with deepestInode := some ids }
      else node.data

/-- `put_ids_for_path`. -/
def putIdsForPath (order : HashOrder) (cache : PathResolveCache) (components : Components)
    (ids : List IndexNodeId) : PathResolveCache :=
  if ids.length ≠ components.length + 1 then cache
  else
    let prepared := cache.prepare order components
    let entryId := prepared.nextEntryId
    { prepared with
      root := Trie.edit NodeData.default id (idsNode entryId ids) (raiseDeepest ⟨entryId, ids⟩)
        components prepared.root }.recordEntry ids components

/-- The target node of `put_terminal_for_path`. -/
def terminalNode (entryId : EntryId) (value : PathResolveTerminalValue)
    (node : PathResolveCacheNode) : PathResolveCacheNode :=
  { node with
    data :=
      { node.data with
        value := some ⟨entryId, .terminal value⟩
        entryId := some entryId } }

/-- `put_terminal_for_path`. -/
def putTerminalForPath (order : HashOrder) (cache : PathResolveCache)
    (components : Components) (parentIds : List IndexNodeId)
    (value : PathResolveTerminalValue) : PathResolveCache :=
  if parentIds.length ≠ components.length then cache
  else
    let prepared := cache.prepare order components
    let entryId := prepared.nextEntryId
    { prepared with
      root := Trie.edit NodeData.default id (terminalNode entryId value)
        (recomputeDeepestInode order) components prepared.root }.recordEntry parentIds components

/-! ## Invalidation -/

/-- `collect_entry_ids`. -/
def collectEntryIds (node : PathResolveCacheNode) : List EntryId :=
  Trie.collect (fun data : NodeData => data.entryId.toList) node

/-- The entry ids of the subtree that an invalidation removes. -/
def subtreeEntryIds (cache : PathResolveCache) (path : Components) : List EntryId :=
  match cache.root.get? path with
  | none => []
  | some subtree => collectEntryIds subtree

/-- `invalidate_prefix_internal`, with `update_lru`: the one caller passes `true`. -/
def invalidatePrefix (order : HashOrder) (cache : PathResolveCache) (path : Components) :
    PathResolveCache :=
  match path.getLast? with
  | none =>
      { cache with
        root := Trie.leaf NodeData.default
        edgeIndex := Table.empty
        lruMap := Table.empty
        entryCount := 0 }
  | some leaf =>
      match cache.root.get? path.dropLast with
      | none => cache
      | some _ =>
          { cache.dropLru (cache.subtreeEntryIds path) with
            edgeIndex := cache.edgeIndex.deleteWhere fun entry => path.isPrefixOf entry.2
            root := Trie.edit NodeData.default id (fun node => node.eraseChild leaf)
              (recomputeDeepestInode order) path.dropLast cache.root }

/-- `invalidate_by_edge`. -/
def invalidateByEdge (order : HashOrder) (cache : PathResolveCache) (parent : IndexNodeId)
    (name : String) : PathResolveCache :=
  match cache.edgeIndex.find? (parent, name) with
  | none => cache
  | some entry => cache.invalidatePrefix order entry.2

end PathResolveCache

end FsMeta
end CyfsNdn

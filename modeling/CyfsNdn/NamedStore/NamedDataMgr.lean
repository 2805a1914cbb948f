import CyfsNdn.NamedStore.Store

/-!
# The manager of several stores

`NamedDataMgr` of `named_store/src/ndm.rs`, as far as it looks objects and chunks
up.  It keeps the layouts of the last epochs, newest first; a layout selects one
store for an object.  A lookup asks the store that each layout selects, every
store once, and takes the first answer.

Which store a layout selects comes from a table built by hashing; nothing here
depends on it, so a layout is any function from objects to store ids.
-/

namespace CyfsNdn
namespace NamedStore

open NdnLib Relational

/-- `LayoutVersion`, as the choice that `select_primary_target` makes. -/
structure LayoutVersion where
  selectPrimaryTarget : ObjId → Option String

/-- `NamedDataMgr`: the layouts, newest first, and the registered stores. -/
structure NamedDataMgr where
  versions : List LayoutVersion
  stores : String → Option NamedStore

/-- The loop over the versions that all lookups share: the ids of the stores that
are asked, in order.  A layout without a target and a store that was tried before
are skipped. -/
def targetStores (objId : ObjId) : List LayoutVersion → List String → List String
  | [], _ => []
  | version :: rest, triedStores =>
      match version.selectPrimaryTarget objId with
      | none => targetStores objId rest triedStores
      | some storeId =>
          if storeId ∈ triedStores then targetStores objId rest triedStores
          else storeId :: targetStores objId rest (triedStores ++ [storeId])

namespace NamedDataMgr

/-! ## Objects -/

/-- The body of the loop of `get_object`. -/
def getObjectFrom (crates : Crates) (mgr : NamedDataMgr) (objId : ObjId) :
    List String → Option NdnError → NdnResult String
  | [], lastError => .error (lastError.getD
      (.notFound ("object " ++ objId.debug ++ " not found in any layout version")))
  | storeId :: rest, _ =>
      match mgr.stores storeId with
      | none => getObjectFrom crates mgr objId rest
          (some (.notFound ("store " ++ storeId ++ " not registered")))
      | some store =>
          match store.getObject crates objId with
          | .ok obj => .ok obj
          | .error (.notFound _) => getObjectFrom crates mgr objId rest
              (some (.notFound ("object not found in store " ++ storeId)))
          | .error e => getObjectFrom crates mgr objId rest (some e)

/-- `get_object`. -/
def getObject (crates : Crates) (mgr : NamedDataMgr) (objId : ObjId) : NdnResult String :=
  if mgr.versions = [] then .error (.notFound "no layout versions available")
  else mgr.getObjectFrom crates objId (targetStores objId mgr.versions []) none

/-- The body of the loop of `query_object_by_id`. -/
def queryObjectByIdFrom (crates : Crates) (mgr : NamedDataMgr) (objId : ObjId) :
    List String → Option String
  | [] => none
  | storeId :: rest =>
      match (mgr.stores storeId).bind fun store => store.queryObjectById crates objId with
      | some objStr => some objStr
      | none => queryObjectByIdFrom crates mgr objId rest

/-- `query_object_by_id`. -/
def queryObjectById (crates : Crates) (mgr : NamedDataMgr) (objId : ObjId) :
    Option String :=
  mgr.queryObjectByIdFrom crates objId (targetStores objId mgr.versions [])

/-! ## Chunks -/

/-- The body of the loop of `query_chunk_state`. -/
def queryChunkStateFrom (crates : Crates) (mgr : NamedDataMgr) (chunkId : ChunkId) :
    List String → ChunkStoreState × Nat
  | [] => (.notExist, 0)
  | storeId :: rest =>
      match mgr.stores storeId with
      | none => queryChunkStateFrom crates mgr chunkId rest
      | some store =>
          let stateAndSize := store.queryChunkState crates chunkId
          if stateAndSize.1 ≠ .notExist then stateAndSize
          else queryChunkStateFrom crates mgr chunkId rest

/-- `query_chunk_state`. -/
def queryChunkState (crates : Crates) (mgr : NamedDataMgr) (chunkId : ChunkId) :
    ChunkStoreState × Nat :=
  mgr.queryChunkStateFrom crates chunkId (targetStores chunkId.toObjId mgr.versions [])

/-- The body of the loop of `open_chunk_reader`. -/
def openChunkReaderFrom (crates : Crates) (files : LocalFiles) (mgr : NamedDataMgr)
    (chunkId : ChunkId) (offset : Nat) :
    List String → Option NdnError → NdnResult (List UInt8 × Nat)
  | [], lastError => .error (lastError.getD
      (.notFound ("chunk " ++ chunkId.toString crates ++ " not found in any store")))
  | storeId :: rest, _ =>
      match mgr.stores storeId with
      | none => openChunkReaderFrom crates files mgr chunkId offset rest
          (some (.notFound ("store " ++ storeId ++ " not registered")))
      | some store =>
          match store.openChunkReader crates files chunkId offset with
          | .ok result => .ok result
          | .error (.notFound _) | .error (.inComplete _) =>
              openChunkReaderFrom crates files mgr chunkId offset rest
                (some (.notFound ("chunk not found in store " ++ storeId)))
          | .error e => openChunkReaderFrom crates files mgr chunkId offset rest (some e)

/-- `open_chunk_reader`. -/
def openChunkReader (crates : Crates) (files : LocalFiles) (mgr : NamedDataMgr)
    (chunkId : ChunkId) (offset : Nat) : NdnResult (List UInt8 × Nat) :=
  if mgr.versions = [] then .error (.notFound "no layout versions available")
  else
    mgr.openChunkReaderFrom crates files chunkId offset
      (targetStores chunkId.toObjId mgr.versions []) none

/-! ## Whether everything below an object is stored -/

/-- The loop over the children of an object: it ends at the first child that is
not stored, cannot be named or cannot be checked. -/
def allStored (check : ObjId → Option String → Option (NdnResult Bool)) :
    List (NdnResult (ObjId × Option String)) → Option (NdnResult Bool)
  | [] => some (.ok true)
  | .error e :: _ => some (.error e)
  | .ok (objId, objStrHint) :: rest =>
      match check objId objStrHint with
      | some (.ok true) => allStored check rest
      | other => other

/-- The text of an object, unless the caller has it already. -/
def getObjectUnlessGiven (crates : Crates) (mgr : NamedDataMgr) (objId : ObjId)
    (objStrHint : Option String) : NdnResult String :=
  match objStrHint with
  | some objStr => .ok objStr
  | none => mgr.getObject crates objId

/-- The children of a directory, an inline child with its text. -/
def dirChild (crates : Crates) (item : SimpleMapItem) : NdnResult (ObjId × Option String) :=
  match item.getObjId crates with
  | .error e => .error e
  | .ok (childObjId, childObjStr) =>
      .ok (childObjId, if childObjStr = "" then none else some childObjStr)

/-- `is_object_fully_stored`.  The recursion of the source follows the stored
objects and need not end, so it takes the number of nested calls that it may make;
`none` means that it needs more. -/
def isObjectFullyStored (crates : Crates) (mgr : NamedDataMgr) :
    Nat → ObjId → Option String → Option (NdnResult Bool)
  | 0, _, _ => none
  | fuel + 1, objId, objStrHint =>
      if objId.isChunk then
        match (mgr.queryChunkState crates (ChunkId.fromObjId objId)).1 with
        | .completed | .localLink _ => some (.ok true)
        | .sameAs chunkListId => isObjectFullyStored crates mgr fuel chunkListId none
        | _ => some (.ok false)
      else if objId.isChunkList then
        match mgr.getObjectUnlessGiven crates objId objStrHint with
        | .error e => some (.error e)
        | .ok objStr =>
            match ChunkList.fromJson crates objStr with
            | .error e => some (.error e)
            | .ok chunkList =>
                allStored (isObjectFullyStored crates mgr fuel)
                  (chunkList.body.map fun chunkId => .ok (chunkId.toObjId, none))
      else
        match objStrHint.or (mgr.queryObjectById crates objId) with
        | none => some (.ok false)
        | some objStr =>
            if objId.isFileObject then
              match loadNamedObj crates crates.jsonFileContent objStr with
              | .error e => some (.error e)
              | .ok content =>
                  if content = "" then some (.ok true)
                  else
                    match ObjId.new crates content with
                    | .error e => some (.error e)
                    | .ok contentObjId =>
                        isObjectFullyStored crates mgr fuel contentObjId none
            else if objId.isDirObject then
              match loadNamedObj crates crates.jsonDirItems objStr with
              | .error e => some (.error e)
              | .ok items =>
                  allStored (isObjectFullyStored crates mgr fuel) (items.map (dirChild crates))
            else some (.ok true)

/-- `have_chunk`, which is `is_object_stored` without an inner path. -/
def haveChunk (crates : Crates) (mgr : NamedDataMgr) (fuel : Nat) (chunkId : ChunkId) :
    Option Bool :=
  (mgr.isObjectFullyStored crates fuel chunkId.toObjId none).map fun stored =>
    match stored with
    | .ok answer => answer
    | .error _ => false

end NamedDataMgr

end NamedStore
end CyfsNdn

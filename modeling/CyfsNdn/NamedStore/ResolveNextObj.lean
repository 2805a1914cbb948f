import CyfsNdn.Collections.SortedMap
import CyfsNdn.NdnLib.DirObject
import CyfsNdn.Relational.Table
import CyfsNdn.Transition.Pool

/-!
# Inner paths through the object graph

`open_object` of `named_store/src/ndm.rs`, the loop that `open_reader` and
`is_object_stored` begin with, and `resolve_next_obj` under them.  They follow an inner path
from object to object; what a path leads to is put into `ResolveNextObjCache`, an LRU cache
that all calls share.

A call is a dialogue with the manager: it reads an object or takes the lock of the cache,
and other calls have their turns in between.  A loop takes the number of its rounds.
-/

namespace CyfsNdn
namespace NamedStore

open NdnLib Collections Relational Transition

/-- The functions of third-party crates that an inner path goes through. -/
structure ResolveCrates extends WebCrates where
  dids : DidCrate
  /-- `buckyos_kit::get_by_json_path`. -/
  getByJsonPath : Json → String → Option Json

/-! ## The cache -/

/-- `ResolveNextObjCacheKey`. -/
structure ResolveNextObjCacheKey where
  objId : ObjId
  path : String
  deriving DecidableEq, Repr

/-- `ResolveNextObjCacheValue`, and what `resolve_next_obj` returns. -/
structure ResolveNextObjCacheValue where
  nextObjId : ObjId
  nextPath : Option String
  nextObjStr : Option String
  deriving DecidableEq, Repr

/-- `ResolveNextObjCacheEntry`. -/
structure ResolveNextObjCacheEntry where
  value : ResolveNextObjCacheValue
  entryId : Nat
  deriving DecidableEq, Repr

/-- `ResolveNextObjCache`; `lru_order` is sorted by the ids of the entries. -/
structure ResolveNextObjCache where
  entries : Table (ResolveNextObjCacheKey × ResolveNextObjCacheEntry) Prod.fst
  lruOrder : List (Nat × ResolveNextObjCacheKey)
  nextEntryId : Nat
  maxEntries : Nat

namespace ResolveNextObjCache

/-- `ResolveNextObjCache::new`. -/
def new (maxEntries : Nat) : ResolveNextObjCache where
  entries := Table.empty
  lruOrder := []
  nextEntryId := 0
  maxEntries := maxEntries

/-- `lru_order.remove`. -/
def removeOrder (entryId : Nat) (lruOrder : List (Nat × ResolveNextObjCacheKey)) :
    List (Nat × ResolveNextObjCacheKey) :=
  lruOrder.filter fun e => e.1 ≠ entryId

/-- `get`: a hit is a use. -/
def get (cache : ResolveNextObjCache) (key : ResolveNextObjCacheKey) :
    Option ResolveNextObjCacheValue × ResolveNextObjCache :=
  match cache.entries.find? key with
  | none => (none, cache)
  | some (_, entry) =>
      (some entry.value,
        { cache with
          entries := cache.entries.insertOrReplace (key, ⟨entry.value, cache.nextEntryId⟩)
          lruOrder := insertKey cache.nextEntryId key (removeOrder entry.entryId cache.lruOrder)
          nextEntryId := (cache.nextEntryId + 1) % 2 ^ 64 })

/-- The loop of `put` that takes the oldest entries out. -/
def evict (maxEntries : Nat) : List (Nat × ResolveNextObjCacheKey) →
    Table (ResolveNextObjCacheKey × ResolveNextObjCacheEntry) Prod.fst →
    List (Nat × ResolveNextObjCacheKey) ×
      Table (ResolveNextObjCacheKey × ResolveNextObjCacheEntry) Prod.fst
  | [], entries => ([], entries)
  | oldest :: rest, entries =>
      if maxEntries < entries.rows.length then evict maxEntries rest (entries.deleteKey oldest.2)
      else (oldest :: rest, entries)

/-- `put`. -/
def put (cache : ResolveNextObjCache) (key : ResolveNextObjCacheKey)
    (value : ResolveNextObjCacheValue) : ResolveNextObjCache :=
  if cache.maxEntries = 0 then cache
  else
    let order := match cache.entries.find? key with
      | none => cache.lruOrder
      | some (_, old) => removeOrder old.entryId cache.lruOrder
    let evicted := evict cache.maxEntries (insertKey cache.nextEntryId key order)
      (cache.entries.insertOrReplace (key, ⟨value, cache.nextEntryId⟩))
    { cache with
      entries := evicted.2
      lruOrder := evicted.1
      nextEntryId := (cache.nextEntryId + 1) % 2 ^ 64 }

end ResolveNextObjCache

/-! ## Paths -/

/-- The segments of a path that are not empty. -/
def pathSegmentsOf (path : String) : List String :=
  (splitText '/' path).filter fun segment => segment ≠ ""

/-- The text of a path with these segments. -/
def pathOf (segments : List String) : String := "/" ++ "/".intercalate segments

/-- What is left of a path, or none. -/
def restPath (segments : List String) : Option String :=
  if segments = [] then none else some (pathOf segments)

namespace NamedDataMgr

/-- `normalize_inner_path`. -/
def normalizeInnerPath (innerPath : Option String) : Option String :=
  innerPath.bind fun path =>
    let trimmed := String.ofList
      (((path.toList.dropWhile NdnLib.isWhitespace).reverse).dropWhile NdnLib.isWhitespace).reverse
    if trimmed = "" ∨ trimmed = "/" then none
    else if trimmed.toList.head? = some '/' then some trimmed
    else some ("/" ++ trimmed)

/-- `split_first_segment`. -/
def splitFirstSegment (path : String) : NdnResult (String × Option String) :=
  match pathSegmentsOf path with
  | [] => .error (.invalidParam "empty inner path")
  | first :: rest => .ok (first, restPath rest)

/-! ## One object -/

variable (crates : ResolveCrates)

/-- `load_named_obj::<DirObject>`. -/
def loadDirObject (objStr : String) : NdnResult (DirObject crates.dids) :=
  loadNamedObj crates.toCrates
    (fun text => (crates.jsonParse text).bind (DirObject.fromValue crates.toWebCrates crates.dids))
    objStr

/-- `load_named_object_from_obj_str`, the value. -/
def loadObjectValue (objStr : String) : NdnResult Json :=
  loadNamedObj crates.toCrates crates.jsonParse objStr

/-- `extract_objid_by_path`. -/
def extractObjidByPath (objJson : Json) (path : String) : NdnResult ObjId :=
  match crates.getByJsonPath objJson path with
  | none => .error (.invalidParam ("objid path not found: " ++ path))
  | some target =>
      match ObjId.fromValue crates.toCrates target with
      | .error e => .error (.invalidData ("invalid objid at path " ++ path ++ ": " ++ e.display))
      | .ok objId => .ok objId

/-- The loop over the prefixes of a path, the longest first: the first one that names an
object. -/
def longestObjid (objJson : Json) (path : String) (segments : List String) :
    Nat → Option NdnError → NdnResult ResolveNextObjCacheValue
  | 0, lastErr => .error (lastErr.getD (.notFound ("objid path not found: " ++ path)))
  | i + 1, _ =>
      match extractObjidByPath crates objJson (pathOf (segments.take (i + 1))) with
      | .ok nextObjId => .ok ⟨nextObjId, restPath (segments.drop (i + 1)), none⟩
      | .error e => longestObjid objJson path segments i (some e)

/-- `resolve_next_obj_once` at a directory: the child of the first segment. -/
def nextInDir (objStr path : String) : NdnResult ResolveNextObjCacheValue :=
  match loadDirObject crates objStr with
  | .error e => .error e
  | .ok dirObj =>
      match splitFirstSegment path with
      | .error e => .error e
      | .ok (segment, rest) =>
          match dirObj.objectMap.entries.lookup segment with
          | none => .error (.notFound ("path not found: " ++ segment))
          | some (.objId nextObjId) => .ok ⟨nextObjId, rest, none⟩
          | some item =>
              match item.getObjId crates.toCrates with
              | .error e => .error e
              | .ok (nextObjId, nextObjStr) => .ok ⟨nextObjId, rest, some nextObjStr⟩

/-- `resolve_next_obj_once` at any other object. -/
def nextInValue (objStr path : String) : NdnResult ResolveNextObjCacheValue :=
  match loadObjectValue crates objStr with
  | .error e => .error e
  | .ok objJson =>
      let segments := pathSegmentsOf path
      if segments = [] then .error (.invalidParam "empty inner path")
      else longestObjid crates objJson path segments segments.length none

/-- `resolve_next_obj_once`; `none` is the panic of `unimplemented!` at a chunk list. -/
def resolveNextObjOnce (objId : ObjId) (objStr path : String) :
    Option (NdnResult ResolveNextObjCacheValue) :=
  if objId.isDirObject then some (nextInDir crates objStr path)
  else if objId.isChunkList then none
  else some (nextInValue crates objStr path)

end NamedDataMgr

/-! ## The calls -/

/-- How a call ends; `unfinished` is a loop that has used up its rounds. -/
inductive Outcome (α : Type) where
  | returned (result : NdnResult α)
  | panicked
  | unfinished

/-- A read of an object, or an access to the cache under its lock. -/
inductive NdmCall where
  | getObject (objId : ObjId)
  | cacheGet (key : ResolveNextObjCacheKey)
  | cachePut (keys : List ResolveNextObjCacheKey) (value : ResolveNextObjCacheValue)

/-- What a call answers. -/
def NdmCall.Reply : NdmCall → Type
  | .getObject _ => NdnResult String
  | .cacheGet _ => Option ResolveNextObjCacheValue
  | .cachePut _ _ => Unit

/-- A program of the manager. -/
abbrev NdmProg (α : Type) := Dialogue NdmCall NdmCall.Reply α

/-- The manager as an inner path sees it: `get_object` over the stores, and the cache. -/
structure NdmState where
  getObject : ObjId → NdnResult String
  cache : ResolveNextObjCache

/-- The answer to a call. -/
def NdmState.exec (s : NdmState) (_ : Unit) : (q : NdmCall) → NdmState × q.Reply
  | .getObject objId => (s, s.getObject objId)
  | .cacheGet key => ({ s with cache := (s.cache.get key).2 }, (s.cache.get key).1)
  | .cachePut keys value =>
      ({ s with cache := keys.foldl (fun cache key => cache.put key value) s.cache }, ())

namespace NamedDataMgr

variable (crates : ResolveCrates)

/-- The error at a chunk that a path goes on from. -/
def noInnerPath (crates : Crates) (objId : ObjId) : NdnError :=
  .invalidParam ("chunk " ++ objId.toString crates ++ " does not support inner path")

/-- The loop of `resolve_next_obj`. -/
def resolveNextObjLoop : Nat → ObjId → String → String → List ResolveNextObjCacheKey →
    NdmProg (Outcome ResolveNextObjCacheValue)
  | 0, _, _, _, _ => .ret .unfinished
  | rounds + 1, objId, objStr, path, pending =>
      .ask (.cacheGet ⟨objId, path⟩) fun cached : Option ResolveNextObjCacheValue =>
        match cached with
        | some value =>
            if pending = [] then .ret (.returned (.ok value))
            else .ask (.cachePut pending value) fun _ => .ret (.returned (.ok value))
        | none =>
            if objId.isChunk then .ret (.returned (.error (noInnerPath crates.toCrates objId)))
            else
              match resolveNextObjOnce crates objId objStr path with
              | none => .ret .panicked
              | some (.error e) => .ret (.returned (.error e))
              | some (.ok ⟨nextObjId, none, nextObjStr⟩) =>
                  .ask (.cachePut (pending ++ [⟨objId, path⟩]) ⟨nextObjId, none, nextObjStr⟩)
                    fun _ => .ret (.returned (.ok ⟨nextObjId, none, nextObjStr⟩))
              | some (.ok ⟨nextObjId, some rest, some nextObjStr⟩) =>
                  resolveNextObjLoop rounds nextObjId nextObjStr rest
                    (pending ++ [⟨objId, path⟩])
              | some (.ok ⟨nextObjId, some rest, none⟩) =>
                  .ask (.getObject nextObjId) fun loaded : NdnResult String =>
                    match loaded with
                    | .error e => .ret (.returned (.error e))
                    | .ok nextObjStr =>
                        resolveNextObjLoop rounds nextObjId nextObjStr rest
                          (pending ++ [⟨objId, path⟩])

/-- `resolve_next_obj`, with a round for each segment of the path. -/
def resolveNextObj (objId : ObjId) (objStr path : String) :
    NdmProg (Outcome ResolveNextObjCacheValue) :=
  resolveNextObjLoop crates ((pathSegmentsOf path).length + 1) objId objStr path []

/-- The text of an object that may be at hand. -/
def textOf (objId : ObjId) : Option String → NdmProg (NdnResult String)
  | some objStr => .ret (.ok objStr)
  | none => Dialogue.once (NdmCall.getObject objId)

/-- The loop of `open_object`. -/
def openObjectLoop : Nat → ObjId → Option String → Option String → NdmProg (Outcome String)
  | 0, _, _, _ => .ret .unfinished
  | rounds + 1, objId, path, objStr => do
      if objId.isChunk then
        return .returned (.error (.invalidObjType (objId.toString crates.toCrates ++ " is chunk")))
      match ← textOf objId objStr with
      | .error e => return .returned (.error e)
      | .ok objStr =>
          match path with
          | none => return .returned (.ok objStr)
          | some path =>
              match ← resolveNextObj crates objId objStr path with
              | .returned (.ok next) =>
                  openObjectLoop rounds next.nextObjId next.nextPath next.nextObjStr
              | .returned (.error e) => return .returned (.error e)
              | .panicked => return .panicked
              | .unfinished => return .unfinished

/-- `open_object`. -/
def openObject (objId : ObjId) (innerPath : Option String) : NdmProg (Outcome String) :=
  openObjectLoop crates 2 objId (normalizeInnerPath innerPath) none

/-- The loop that `is_object_stored` and `open_reader` begin with: the object at the end of
the path, with its text if that is at hand. -/
def followLoop : Nat → ObjId → Option String → Option String →
    NdmProg (Outcome (ObjId × Option String))
  | 0, _, _, _ => .ret .unfinished
  | _ + 1, objId, none, objStr => .ret (.returned (.ok (objId, objStr)))
  | rounds + 1, objId, some path, objStr => do
      if objId.isChunk then return .returned (.error (noInnerPath crates.toCrates objId))
      match ← textOf objId objStr with
      | .error e => return .returned (.error e)
      | .ok objStr =>
          match ← resolveNextObj crates objId objStr path with
          | .returned (.ok next) =>
              followLoop rounds next.nextObjId next.nextPath next.nextObjStr
          | .returned (.error e) => return .returned (.error e)
          | .panicked => return .panicked
          | .unfinished => return .unfinished

/-- The loop from the object that a call names. -/
def followInnerPath (objId : ObjId) (innerPath : Option String) :
    NdmProg (Outcome (ObjId × Option String)) :=
  followLoop crates 2 objId (normalizeInnerPath innerPath) none

end NamedDataMgr

end NamedStore
end CyfsNdn

import CyfsNdn.NamedStore.Availability
import CyfsNdn.NamedStore.ChunkListReader
import CyfsNdn.NamedStore.InnerPathCalls
import CyfsNdn.NamedStore.ResolveNextObjLru
import CyfsNdn.NdnLib.ChunkListSize

/-!
# Opening and looking up what an inner path leads to

`open_object`, `open_reader` and `is_object_stored` of `ndm.rs` to their end, over stores
that stay as they are.  The calls are under way at the same time and share one cache.  Where
the texts of an object all lead to the same children, each of them answers what it answers
with a cache that keeps nothing, it ends when it keeps getting turns, and the cache keeps
what was used last.
-/

namespace CyfsNdn
namespace NamedStore

open NdnLib Collections Relational Transition
open NamedDataMgr

/-- What comes after a program that has returned a value. -/
def Outcome.bind {α β : Type} (o : Outcome α) (f : α → Outcome β) : Outcome β :=
  match o with
  | .returned (.ok a) => f a
  | .returned (.error e) => .returned (.error e)
  | .panicked => .panicked
  | .unfinished => .unfinished

/-! ## Readers -/

/-- What is read: a chunk from an offset, or the chunks of a list. -/
inductive OpenedReader where
  | chunk (bytes : List UInt8)
  | chunkList (reader : ChunkListReader)

/-- What the calls read: the stores and the linked files.  `overflowChecks` says how sums
were compiled, and `depth` how many calls `is_object_fully_stored` may make below each
other. -/
structure PathWorld where
  mgr : NamedDataMgr
  files : LocalFiles
  overflowChecks : Bool
  depth : Nat

section Calls

variable (crates : ResolveCrates) (w : PathWorld)

/-- `load_named_obj::<Vec<ChunkId>>`. -/
def loadChunkIds (crates : Crates) (objStr : String) : NdnResult (List ChunkId) :=
  loadNamedObj crates
    (fun text => (crates.jsonStringArray text).bind fun texts =>
      (texts.mapM (ChunkId.new crates)).toOption)
    objStr

/-- `open_chunklist_reader_by_obj_str`. -/
def openChunklistReaderByObjStr (chunklistJson : String) (offset : Nat) :
    Outcome (OpenedReader × Nat) :=
  match loadChunkIds crates.toCrates chunklistJson with
  | .error e => .returned (.error e)
  | .ok vecChunkId =>
      match ChunkList.fromChunkListU64 crates.toCrates w.overflowChecks vecChunkId with
      | none => .panicked
      | some (.error e) => .returned (.error e)
      | some (.ok chunkList) =>
          .returned ((ChunkListReader.withOptions crates.toWebCrates w.mgr chunkList
            (.start offset) .default).map fun reader => (.chunkList reader, chunkList.totalSize))

/-- `open_chunklist_reader`. -/
def openChunklistReader (chunklistId : ObjId) (offset : Nat) : Outcome (OpenedReader × Nat) :=
  if chunklistId.isChunkList then
    match w.mgr.getObject crates.toCrates chunklistId with
    | .error e => .returned (.error e)
    | .ok chunklistJson => openChunklistReaderByObjStr crates w chunklistJson offset
  else
    .returned (.error (.invalidObjType
      (chunklistId.toString crates.toCrates ++ " is not chunklist")))

/-- `open_chunk_reader` as `open_reader` calls it. -/
def openChunkById (chunkId : ObjId) (offset : Nat) : Outcome (OpenedReader × Nat) :=
  .returned ((w.mgr.openChunkReader crates.toCrates w.files (ChunkId.fromObjId chunkId)
    offset).map fun opened => (.chunk opened.1, opened.2))

/-- The reader with the object that it is of. -/
def withResolved (objId : ObjId) (o : Outcome (OpenedReader × Nat)) :
    Outcome (OpenedReader × Nat × ObjId) :=
  o.andThen fun opened => .ok (opened.1, opened.2, objId)

/-- `open_reader_with_resolved` where nothing is left of the path. -/
def openResolved (objId : ObjId) (objStr : Option String) :
    Outcome (OpenedReader × Nat × ObjId) :=
  if objId.isChunk then withResolved objId (openChunkById crates w objId 0)
  else if objId.isChunkList then
    match objStr with
    | some objStr => withResolved objId (openChunklistReaderByObjStr crates w objStr 0)
    | none => withResolved objId (openChunklistReader crates w objId 0)
  else if objId.isFileObject then
    match w.mgr.getObjectUnlessGiven crates.toCrates objId objStr with
    | .error e => .returned (.error e)
    | .ok objStr =>
        match loadNamedObj crates.toCrates crates.jsonFileContent objStr with
        | .error e => .returned (.error e)
        | .ok content =>
            match ObjId.new crates.toCrates content with
            | .error e => .returned (.error e)
            | .ok contentObjId =>
                if contentObjId.isChunk then
                  withResolved contentObjId (openChunkById crates w contentObjId 0)
                else if contentObjId.isChunkList then
                  withResolved contentObjId (openChunklistReader crates w contentObjId 0)
                else
                  .returned (.error (.invalidObjType ("file object content " ++
                    contentObjId.toString crates.toCrates ++ " is not chunk or chunklist")))
  else
    .returned (.error (.invalidObjType
      (objId.toString crates.toCrates ++ " does not support open_reader")))

/-- `open_reader_with_resolved`. -/
def openReaderWithResolved (objId : ObjId) (innerPath : Option String) :
    NdmProg (Outcome (OpenedReader × Nat × ObjId)) := do
  let found ← followInnerPath crates objId innerPath
  return found.bind fun found => openResolved crates w found.1 found.2

/-- `open_reader`. -/
def openReader (objId : ObjId) (innerPath : Option String) :
    NdmProg (Outcome (OpenedReader × Nat)) := do
  let opened ← openReaderWithResolved crates w objId innerPath
  return opened.andThen fun opened => .ok (opened.1, opened.2.1)

/-- `is_object_fully_stored`; no answer means that the objects go deeper. -/
def fullyStored (objId : ObjId) (objStrHint : Option String) : NdnResult (Option Bool) :=
  match w.mgr.isObjectFullyStored crates.toCrates w.depth objId objStrHint with
  | none => .ok none
  | some answer => answer.map some

/-- `is_object_stored`. -/
def isObjectStored (objId : ObjId) (innerPath : Option String) :
    NdmProg (Outcome (Option Bool)) := do
  let found ← followInnerPath crates objId innerPath
  return found.andThen fun found => fullyStored crates w found.1 found.2

/-! ## All calls together -/

/-- The calls. -/
inductive PathRequest where
  | openObject (objId : ObjId) (innerPath : Option String)
  | openReader (objId : ObjId) (innerPath : Option String)
  | isObjectStored (objId : ObjId) (innerPath : Option String)
  deriving DecidableEq, Repr

/-- What they return. -/
inductive PathAnswer where
  | text (objStr : String)
  | reader (reader : OpenedReader) (total : Nat)
  | stored (answer : Option Bool)

/-- The program of a call. -/
def servePath : PathRequest → NdmProg (Outcome PathAnswer)
  | .openObject objId innerPath => do
      let o ← openObject crates objId innerPath
      return o.andThen fun objStr => .ok (.text objStr)
  | .openReader objId innerPath => do
      let o ← openReader crates w objId innerPath
      return o.andThen fun opened => .ok (.reader opened.1 opened.2)
  | .isObjectStored objId innerPath => do
      let o ← isObjectStored crates w objId innerPath
      return o.andThen fun answer => .ok (.stored answer)

/-- The manager with a cache that keeps nothing. -/
def PathWorld.uncached (w : PathWorld) : NdmState :=
  .uncached (w.mgr.getObject crates.toCrates)

/-- The calls that are under way. -/
abbrev PathPool := Pool NdmState PathRequest NdmCall NdmCall.Reply (Outcome PathAnswer)

/-- A call begins or takes a turn. -/
abbrev PathAction := PoolAction PathRequest Unit Empty

namespace PathPool

/-- The manager and its calls after an action. -/
def step : PathPool → PathAction → PathPool :=
  Pool.step (servePath crates w) NdmState.exec fun never _ => never.elim

/-- A manager with no call under way, and nothing in its cache. -/
def start (maxEntries : Nat) : PathPool :=
  Pool.idle ⟨w.mgr.getObject crates.toCrates, .new maxEntries⟩

end PathPool

end Calls

/-! ## What a call comes to -/

section Answers

variable (crates : ResolveCrates) (w : PathWorld)

/-- What a call comes to when the walk goes over these objects. -/
inductive Resolves (getObject : ObjId → NdnResult String) :
    PathRequest → Outcome PathAnswer → Prop
  | opened {objId : ObjId} {innerPath : Option String} {o : Outcome String}
      (h : Opens crates getObject objId (normalizeInnerPath innerPath) o) :
      Resolves getObject (.openObject objId innerPath)
        (o.andThen fun objStr => .ok (.text objStr))
  | readerOpened {objId : ObjId} {innerPath : Option String}
      {o : Outcome (ObjId × Option String)}
      (h : Follows crates getObject objId (normalizeInnerPath innerPath) o) :
      Resolves getObject (.openReader objId innerPath)
        (((o.bind fun found => openResolved crates w found.1 found.2).andThen
          fun opened => .ok (opened.1, opened.2.1)).andThen
          fun opened => .ok (.reader opened.1 opened.2))
  | lookedUp {objId : ObjId} {innerPath : Option String} {o : Outcome (ObjId × Option String)}
      (h : Follows crates getObject objId (normalizeInnerPath innerPath) o) :
      Resolves getObject (.isObjectStored objId innerPath)
        ((o.andThen fun found => fullyStored crates w found.1 found.2).andThen
          fun answer => .ok (.stored answer))

variable {crates w} {getObject : ObjId → NdnResult String}

theorem Resolves.unique {request : PathRequest} {o o' : Outcome PathAnswer}
    (h : Resolves crates w getObject request o) (h' : Resolves crates w getObject request o') :
    o = o' := by
  cases h with
  | opened h =>
      cases h' with
      | opened h' => rw [h.unique h']
  | readerOpened h =>
      cases h' with
      | readerOpened h' => rw [h.unique h']
  | lookedUp h =>
      cases h' with
      | lookedUp h' => rw [h.unique h']

theorem Outcome.bind_ne_unfinished {α β : Type} {f : α → Outcome β} {o : Outcome α}
    (h : o ≠ .unfinished) (hf : ∀ a, f a ≠ .unfinished) : o.bind f ≠ .unfinished := by
  cases o with
  | returned result =>
      cases result with
      | error e => simp [Outcome.bind]
      | ok a => exact hf a
  | panicked => simp [Outcome.bind]
  | unfinished => exact absurd rfl h

theorem openChunklistReaderByObjStr_ne_unfinished (chunklistJson : String) (offset : Nat) :
    openChunklistReaderByObjStr crates w chunklistJson offset ≠ .unfinished := by
  unfold openChunklistReaderByObjStr
  split
  · simp
  · split <;> simp

theorem openChunklistReader_ne_unfinished (chunklistId : ObjId) (offset : Nat) :
    openChunklistReader crates w chunklistId offset ≠ .unfinished := by
  unfold openChunklistReader
  split
  · split
    · simp
    · exact openChunklistReaderByObjStr_ne_unfinished _ _
  · simp

theorem openResolved_ne_unfinished (objId : ObjId) (objStr : Option String) :
    openResolved crates w objId objStr ≠ .unfinished := by
  have hchunk : ∀ chunkId, openChunkById crates w chunkId 0 ≠ .unfinished := by
    intro chunkId
    simp [openChunkById]
  unfold openResolved withResolved
  split
  · exact Outcome.andThen_ne_unfinished (hchunk _)
  · split
    · split
      · exact Outcome.andThen_ne_unfinished (openChunklistReaderByObjStr_ne_unfinished _ _)
      · exact Outcome.andThen_ne_unfinished (openChunklistReader_ne_unfinished _ _)
    · split
      · split
        · simp
        · split
          · simp
          · split
            · simp
            · split
              · exact Outcome.andThen_ne_unfinished (hchunk _)
              · split
                · exact Outcome.andThen_ne_unfinished (openChunklistReader_ne_unfinished _ _)
                · simp
      · simp

theorem Resolves.ne_unfinished {request : PathRequest} {o : Outcome PathAnswer}
    (h : Resolves crates w getObject request o) : o ≠ .unfinished := by
  cases h with
  | opened h => exact Outcome.andThen_ne_unfinished h.ne_unfinished
  | readerOpened h =>
      apply Outcome.andThen_ne_unfinished
      apply Outcome.andThen_ne_unfinished
      exact Outcome.bind_ne_unfinished h.ne_unfinished fun _ => openResolved_ne_unfinished _ _
  | lookedUp h =>
      apply Outcome.andThen_ne_unfinished
      exact Outcome.andThen_ne_unfinished h.ne_unfinished

end Answers

/-! ## The accesses to the cache -/

namespace PathPool

variable (crates : ResolveCrates) (w : PathWorld)

variable {crates w}

end PathPool

/-- What a call has returned. -/
inductive Shown where
  | text (objStr : String)
  | bytes (bytes : List UInt8)
  | stored (answer : Option Bool)
  | failed (e : NdnError)
  deriving DecidableEq, Repr

end NamedStore
end CyfsNdn

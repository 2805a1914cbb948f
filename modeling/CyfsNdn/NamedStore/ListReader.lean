import CyfsNdn.Collections.Pieces
import CyfsNdn.NdnLib.ObjId

/-!
# Readers over a list of chunks

`ChunkListReader` and `DiffChunkListReader` have the same fields for position, chunks
and the chunk that is open, and the same polls.  They differ in what a chunk is read
from, which is the parameter `σ` here, and in how it is opened, the function `load`.

A poll of the reader polls the reader of the current chunk or the future that opens
it.  These answer as they like; `Answer` is what one of them does at one poll.
-/

namespace CyfsNdn
namespace NamedStore

open NdnLib Collections

variable {σ : Type}

/-- `u64::MAX`. -/
def u64Max : Nat := 2 ^ 64 - 1

/-- `u64::saturating_add`. -/
def saturatingAdd (a b : Nat) : Nat := min (a + b) u64Max

theorem saturatingAdd_eq {a b : Nat} (h : a + b ≤ u64Max) : saturatingAdd a b = a + b :=
  Nat.min_eq_left h

/-- `SeekFrom`. -/
inductive SeekFrom where
  | start (offset : Nat)
  | current (delta : Int)
  | fromEnd (delta : Int)
  deriving DecidableEq, Repr

/-- `ChunkMeta`, `MergedChunkMeta`. -/
structure ChunkMeta (σ : Type) where
  source : σ
  size : Nat
  start : Nat
  deriving DecidableEq, Repr

/-- The fields of a reader that change.  A future that opens a chunk is what it opens
and where; an open reader is the bytes that it still has. -/
structure ListReader (σ : Type) where
  chunks : List (ChunkMeta σ)
  totalSize : Nat
  position : Nat
  nextChunkIndex : Nat
  nextChunkOffset : Nat
  activeChunkIndex : Option Nat
  pendingSeek : Option Nat
  loadingChunkIndex : Option Nat
  loadingFuture : Option (σ × Nat)
  currentReader : Option (List UInt8)

/-- `std::io::Error` as the polls return it. -/
inductive IoError where
  | other (text : String)
  | invalidInput (text : String)
  /-- `to_io_error`. -/
  | ndn (e : NdnError)
  /-- The error of a reader or a future under the poll. -/
  | inner
  deriving DecidableEq, Repr

/-- What the reader or future under the poll does: it waits, fails, or is ready.  A
reader that is ready gives at most this many bytes, and one if it has one. -/
inductive Answer where
  | pending
  | failed
  | ready (most : Nat)
  deriving DecidableEq, Repr

/-- The result of `poll_read`, with the bytes put in the buffer. -/
inductive PollRead where
  | pending
  | failed (e : IoError)
  | ready (bytes : List UInt8)
  deriving DecidableEq, Repr

/-- The loops of `build_chunks` and `build_merged_chunks` that give every chunk its start,
from this one on; `overflow` is what they say when the sum is too large. -/
def placeChunksFrom (overflow : String) :
    Nat → List (σ × Nat) → NdnResult (List (ChunkMeta σ) × Nat)
  | start, [] => .ok ([], start)
  | start, (source, size) :: rest =>
      if u64Max < start + size then .error (.invalidData overflow)
      else
        (placeChunksFrom overflow (start + size) rest).map fun placed =>
          (⟨source, size, start⟩ :: placed.1, placed.2)

namespace ListReader

/-! ## Seeking -/

/-- Where a seek goes from this position in a file of this size. -/
def seekTarget (position totalSize : Nat) (seekFrom : SeekFrom) : NdnResult Nat :=
  let target : Int :=
    match seekFrom with
    | .start offset => offset
    | .current delta => position + delta
    | .fromEnd delta => totalSize + delta
  if target < 0 ∨ (totalSize : Int) < target then
    .error (.offsetTooLarge ("seek target " ++ toString target ++ " out of range [0, " ++
      toString totalSize ++ "]"))
  else .ok target.toNat

/-- `calc_seek_target`. -/
def calcSeekTarget (reader : ListReader σ) (seekFrom : SeekFrom) : NdnResult Nat :=
  seekTarget reader.position reader.totalSize seekFrom

/-- The loop of `locate_position`; `right - left` passes are enough. -/
def bisect (chunks : List (ChunkMeta σ)) (position : Nat) : Nat → Nat → Nat → Nat
  | 0, left, _ => left
  | passes + 1, left, right =>
      if left < right then
        let mid := left + (right - left) / 2
        match chunks[mid]? with
        | none => left
        | some chunk =>
            if saturatingAdd chunk.start chunk.size ≤ position then
              bisect chunks position passes (mid + 1) right
            else bisect chunks position passes left mid
      else left

/-- `locate_position`. -/
def locatePosition (reader : ListReader σ) (position : Nat) : Nat × Nat :=
  if reader.totalSize ≤ position ∨ reader.chunks = [] then (reader.chunks.length, 0)
  else
    let index := bisect reader.chunks position reader.chunks.length 0 reader.chunks.length
    match reader.chunks[index]? with
    | none => (index, 0)
    | some chunk => (index, position - chunk.start)

/-- `apply_seek_target`. -/
def applySeekTarget (reader : ListReader σ) (position : Nat) : ListReader σ :=
  let located := reader.locatePosition position
  { reader with
    position := position
    nextChunkIndex := located.1
    nextChunkOffset := located.2
    activeChunkIndex := none
    pendingSeek := none
    currentReader := none
    loadingFuture := none
    loadingChunkIndex := none }

/-- `start_seek`. -/
def startSeek (reader : ListReader σ) (seekFrom : SeekFrom) :
    ListReader σ × Except IoError Unit :=
  match reader.calcSeekTarget seekFrom with
  | .error e => (reader, .error (.ndn e))
  | .ok target => ({ reader with pendingSeek := some target }, .ok ())

/-- `poll_complete`. -/
def pollComplete (reader : ListReader σ) : ListReader σ × Nat :=
  match reader.pendingSeek with
  | none => (reader, reader.position)
  | some target => (reader.applySeekTarget target, target)

/-! ## Reading -/

/-- `start_loading_current_chunk`.  The error names the chunk with `named`. -/
def startLoadingCurrentChunk (named : σ → String) (reader : ListReader σ) :
    Except IoError (ListReader σ) :=
  match reader.chunks[reader.nextChunkIndex]? with
  | none => .ok reader
  | some chunk =>
      if chunk.size < reader.nextChunkOffset then
        .error (.invalidInput ("chunk offset " ++ toString reader.nextChunkOffset ++
          " exceeds chunk size " ++ toString chunk.size ++ named chunk.source))
      else
        .ok { reader with
          loadingChunkIndex := some reader.nextChunkIndex
          loadingFuture := some (chunk.source, reader.nextChunkOffset) }

/-- `advance_after_chunk_eof`. -/
def advanceAfterChunkEof (reader : ListReader σ) : ListReader σ :=
  match reader.activeChunkIndex with
  | none => { reader with currentReader := none }
  | some index =>
      { reader with
        nextChunkIndex := index + 1
        nextChunkOffset := 0
        activeChunkIndex := none
        currentReader := none }

/-- The end of the loop of `poll_read`: without an open chunk and without one that is
being opened, the poll ends at the end or opens the next chunk. -/
def beforePoll (named : σ → String) (reader : ListReader σ) :
    ListReader σ × Option PollRead :=
  if reader.currentReader.isSome ∨ reader.loadingFuture.isSome then (reader, none)
  else if reader.totalSize ≤ reader.position ∨
      reader.chunks.length ≤ reader.nextChunkIndex then (reader, some (.ready []))
  else
    match reader.startLoadingCurrentChunk named with
    | .error e => (reader, some (.failed e))
    | .ok reader => (reader, none)

/-- The poll of the open chunk. -/
def pollCurrent (reader : ListReader σ) (current : List UInt8) (room : Nat) :
    Answer → ListReader σ × Option PollRead
  | .pending => (reader, some .pending)
  | .failed => (reader, some (.failed .inner))
  | .ready most =>
      let bytes := current.take (min (max 1 most) room)
      if bytes = [] then (reader.advanceAfterChunkEof, none)
      else
        ({ reader with
            currentReader := some (current.drop bytes.length)
            position := saturatingAdd reader.position bytes.length },
          some (.ready bytes))

/-- The poll of the future that opens a chunk. -/
def pollLoading (load : σ → Nat → NdnResult (List UInt8)) (reader : ListReader σ)
    (future : σ × Nat) : Answer → ListReader σ × Option PollRead
  | .pending => (reader, some .pending)
  | .failed =>
      ({ reader with loadingFuture := none, loadingChunkIndex := none },
        some (.failed .inner))
  | .ready _ =>
      match load future.1 future.2 with
      | .error e =>
          ({ reader with loadingFuture := none, loadingChunkIndex := none },
            some (.failed (.ndn e)))
      | .ok opened =>
          match reader.loadingChunkIndex with
          | none => (reader, some (.failed (.other "loading chunk index missing")))
          | some index =>
              ({ reader with
                  loadingChunkIndex := none
                  loadingFuture := none
                  activeChunkIndex := some index
                  currentReader := some opened },
                none)

/-- The start of the loop of `poll_read`: the open chunk is polled, or the future. -/
def pollActive (load : σ → Nat → NdnResult (List UInt8)) (reader : ListReader σ)
    (room : Nat) (answer : Answer) : ListReader σ × Option PollRead :=
  match reader.currentReader with
  | some current => reader.pollCurrent current room answer
  | none =>
      match reader.loadingFuture with
      | some future => reader.pollLoading load future answer
      | none => (reader, none)

/-- The loop of `poll_read` with what is under it answering in this order; the one
that is asked after the last answer waits. -/
def pollReadLoop (load : σ → Nat → NdnResult (List UInt8)) (named : σ → String)
    (room : Nat) : ListReader σ → List Answer → ListReader σ × PollRead
  | reader, [] =>
      match reader.beforePoll named with
      | (reader, some result) => (reader, result)
      | (reader, none) => (reader, .pending)
  | reader, answer :: answers =>
      match reader.beforePoll named with
      | (reader, some result) => (reader, result)
      | (reader, none) =>
          match reader.pollActive load room answer with
          | (reader, some result) => (reader, result)
          | (reader, none) => pollReadLoop load named room reader answers

/-- `poll_read` into a buffer with this much room. -/
def pollRead (load : σ → Nat → NdnResult (List UInt8)) (named : σ → String)
    (reader : ListReader σ) (room : Nat) (answers : List Answer) :
    ListReader σ × PollRead :=
  if reader.pendingSeek.isSome then
    (reader, .failed (.other "seek in progress, call poll_complete before read"))
  else if room = 0 then (reader, .ready [])
  else reader.pollReadLoop load named room answers

/-- What the owner of a reader does with it. -/
inductive Call where
  | pollRead (room : Nat) (answers : List Answer)
  | startSeek (seekFrom : SeekFrom)
  | pollComplete
  deriving DecidableEq, Repr

/-- What a call returns. -/
inductive Returned where
  | read (result : PollRead)
  | seek (result : Except IoError Unit)
  | complete (position : Nat)

/-- A call. -/
def call (load : σ → Nat → NdnResult (List UInt8)) (named : σ → String)
    (reader : ListReader σ) : Call → ListReader σ × Returned
  | .pollRead room answers =>
      let polled := reader.pollRead load named room answers
      (polled.1, .read polled.2)
  | .startSeek seekFrom =>
      let sought := reader.startSeek seekFrom
      (sought.1, .seek sought.2)
  | .pollComplete =>
      let completed := reader.pollComplete
      (completed.1, .complete completed.2)

/-- The state after a call. -/
def afterCall (load : σ → Nat → NdnResult (List UInt8)) (named : σ → String)
    (reader : ListReader σ) (c : Call) : ListReader σ :=
  (reader.call load named c).1

end ListReader
end NamedStore
end CyfsNdn

import CyfsNdn.NamedStore.DiffChunkList
import CyfsNdn.Collections.SortedMap

/-!
# The writer of differences to a chunk list

`DiffChunkListWriter` of `diff_chunk_list.rs`: chunks are copied when they are first
written to, the last one grows and new ones follow it when the file grows, and `close`
and `finalize` put the copies one after the other into the file of differences.

A call that returns `none` panics or does not end.
-/

namespace CyfsNdn
namespace NamedStore

open NdnLib Collections

/-- `DiffChunkListWriterOptions`. -/
structure DiffChunkListWriterOptions where
  autoCache : Bool
  localMode : Bool
  fixedChunkSize : Option Nat
  baseChunkSizes : Option (List Nat)
  openChunkReader : Option OpenChunkReader
  appendMergeLastChunk : Bool

/-- `DiffChunkListWriterOptions::default`. -/
def DiffChunkListWriterOptions.default : DiffChunkListWriterOptions :=
  ⟨false, false, none, none, none, true⟩

/-- `DiffChunkListWriterState`, what the state file holds as JSON. -/
structure DiffChunkListWriterState where
  baseChunkList : ObjId
  diffFilePath : String
  chunkIndices : List Nat
  diffChunkSizes : List Nat
  baseChunkSizes : List Nat
  mergedChunkSizes : List Nat
  position : Nat
  totalSize : Nat
  autoCache : Bool
  localMode : Bool
  fixedChunkSize : Option Nat
  appendMergeLastChunk : Bool
  deriving DecidableEq, Repr

/-- `PersistedDirtyChunks`.  The map of the ids is a list with ascending keys. -/
structure PersistedDirtyChunks where
  chunkIndices : List Nat
  diffChunkSizes : List Nat
  dirtyChunkIdMap : List (Nat × ChunkId)
  diffChunkIds : List ChunkId
  deriving DecidableEq, Repr

/-- `DiffChunkListWriter`, without the manager.  The map of the dirty chunks is a list
with ascending keys. -/
structure DiffChunkListWriter where
  baseChunkListId : ObjId
  baseChunkIds : List ChunkId
  baseChunkSizes : List Nat
  autoCache : Bool
  localMode : Bool
  openChunkReader : Option OpenChunkReader
  fixedChunkSize : Option Nat
  appendMergeLastChunk : Bool
  diffFilePath : String
  mergedChunkSizes : List Nat
  dirtyChunks : List (Nat × List UInt8)
  position : Nat
  totalSize : Nat

/-- What a call of the writer finds around it: the stores, the files, and the chunks
whose open readers fail. -/
structure WriterWorld where
  mgr : NamedDataMgr
  files : LocalFiles
  readFails : ChunkId → Option String

namespace DiffChunkListWriter

/-! ## Opening -/

/-- `new`. -/
def new (web : WebCrates) (namedStoreMgr : NamedDataMgr) (baseChunkListId : ObjId)
    (baseChunkList : ChunkList) (diffFilePath : String)
    (options : DiffChunkListWriterOptions) : Option (NdnResult DiffChunkListWriter) :=
  match resolveChunkSizes web .diffChunkList namedStoreMgr baseChunkList options.localMode
      options.fixedChunkSize options.baseChunkSizes with
  | .error e => some (.error e)
  | .ok baseChunkSizes =>
      (iterSum baseChunkSizes).map fun totalSize => .ok
        { baseChunkListId := baseChunkListId
          baseChunkIds := baseChunkList.body
          baseChunkSizes := baseChunkSizes
          autoCache := options.autoCache
          localMode := options.localMode
          openChunkReader := options.openChunkReader
          fixedChunkSize := options.fixedChunkSize
          appendMergeLastChunk := options.appendMergeLastChunk
          diffFilePath := diffFilePath
          mergedChunkSizes := baseChunkSizes
          dirtyChunks := []
          position := 0
          totalSize := totalSize }

/-- The error for an index that stands twice. -/
def duplicateDirtyChunk (chunkIndex : Nat) : NdnError :=
  .invalidData ("duplicate dirty chunk index " ++ toString chunkIndex ++
    " in writer state")

/-- The error for an index beyond the merged chunks. -/
def dirtyChunkOutOfRange (chunkIndex mergedChunkCount : Nat) : NdnError :=
  .invalidData ("dirty chunk index " ++ toString chunkIndex ++
    " out of merged chunk range " ++ toString mergedChunkCount)

/-- The error for a chunk of another size. -/
def dirtyChunkSizeMismatch (chunkIndex expectedSize chunkSize : Nat) : NdnError :=
  .invalidData ("dirty chunk size mismatch for index " ++ toString chunkIndex ++
    ", expect " ++ toString expectedSize ++ " got " ++ toString chunkSize)

/-- The error for a file of another size. -/
def diffFileSizeMismatch (expectedFileSize fileSize : Nat) : NdnError :=
  .invalidData ("diff file size mismatch, expect " ++ toString expectedFileSize ++
    " got " ++ toString fileSize)

/-- The loop of `open_from_state` over the dirty chunks. -/
def readDirtyChunks (mergedChunkSizes : List Nat) (fileData : List UInt8) :
    List (Nat × Nat) → List Nat → Nat → List (Nat × List UInt8) →
      Option (NdnResult (List (Nat × List UInt8)))
  | [], _, _, dirtyChunks => some (.ok dirtyChunks)
  | (chunkIndex, chunkSize) :: rest, seen, cursor, dirtyChunks =>
      if chunkIndex ∈ seen then some (.error (duplicateDirtyChunk chunkIndex))
      else
        match mergedChunkSizes[chunkIndex]? with
        | none => some (.error (dirtyChunkOutOfRange chunkIndex mergedChunkSizes.length))
        | some expectedSize =>
            if chunkSize ≠ expectedSize then
              some (.error (dirtyChunkSizeMismatch chunkIndex expectedSize chunkSize))
            else
              let sliceEnd := saturatingAdd cursor chunkSize
              -- `file_data[cursor..end]` panics outside of the file.
              if fileData.length < sliceEnd then none
              else
                readDirtyChunks mergedChunkSizes fileData rest (chunkIndex :: seen) sliceEnd
                  (insertKey chunkIndex ((fileData.drop cursor).take (sliceEnd - cursor))
                    dirtyChunks)

/-- `open_from_state`. -/
def openFromState (files : LocalFiles) (baseChunkList : ChunkList)
    (state : DiffChunkListWriterState) (openChunkReader : Option OpenChunkReader) :
    Option (NdnResult DiffChunkListWriter) :=
  if state.baseChunkSizes.length ≠ baseChunkList.body.length then
    some (.error (.invalidData ("base chunk size count " ++
      toString state.baseChunkSizes.length ++ " mismatch base chunk id count " ++
      toString baseChunkList.body.length)))
  else if state.totalSize < state.position then
    some (.error (.invalidData ("writer state position " ++ toString state.position ++
      " exceeds total_size " ++ toString state.totalSize)))
  else
    match iterSum state.mergedChunkSizes with
    | none => none
    | some mergedTotal =>
        if mergedTotal ≠ state.totalSize then
          some (.error (.invalidData ("writer state total_size mismatch, expect " ++
            toString mergedTotal ++ " got " ++ toString state.totalSize)))
        else if state.chunkIndices.length ≠ state.diffChunkSizes.length then
          some (.error (.invalidData ("writer state diff size count " ++
            toString state.diffChunkSizes.length ++ " mismatch index count " ++
            toString state.chunkIndices.length)))
        else
          let fileData := (files state.diffFilePath).getD []
          match iterSum state.diffChunkSizes with
          | none => none
          | some expectedFileSize =>
              if expectedFileSize ≠ fileData.length then
                some (.error (diffFileSizeMismatch expectedFileSize fileData.length))
              else
                match readDirtyChunks state.mergedChunkSizes fileData
                    (state.chunkIndices.zip state.diffChunkSizes) [] 0 [] with
                | none => none
                | some (.error e) => some (.error e)
                | some (.ok dirtyChunks) => some (.ok
                    { baseChunkListId := state.baseChunkList
                      baseChunkIds := baseChunkList.body
                      baseChunkSizes := state.baseChunkSizes
                      autoCache := state.autoCache
                      localMode := state.localMode
                      openChunkReader := openChunkReader
                      fixedChunkSize := state.fixedChunkSize
                      appendMergeLastChunk := state.appendMergeLastChunk
                      diffFilePath := state.diffFilePath
                      mergedChunkSizes := state.mergedChunkSizes
                      dirtyChunks := dirtyChunks
                      position := state.position
                      totalSize := state.totalSize })

/-! ## Writing -/

/-- `seek`. -/
def seek (writer : DiffChunkListWriter) (seekFrom : SeekFrom) :
    DiffChunkListWriter × NdnResult Nat :=
  match ListReader.seekTarget writer.position writer.totalSize seekFrom with
  | .error e => (writer, .error e)
  | .ok target => ({ writer with position := target }, .ok target)

/-- `preferred_chunk_size`. -/
def preferredChunkSize (writer : DiffChunkListWriter) (remaining : Nat) : Nat :=
  match writer.fixedChunkSize.filter (0 < ·) with
  | some fixedChunkSize => fixedChunkSize
  | none =>
      let maxSize := writer.baseChunkSizes.dropLast.foldl max 0
      if 0 < maxSize then maxSize
      else
        match writer.baseChunkSizes.getLast?.filter (0 < ·) with
        | some size => size
        | none => max remaining 1

/-- `Vec::resize` with zeros. -/
def resize (chunk : List UInt8) (size : Nat) : List UInt8 :=
  chunk.take size ++ List.replicate (size - chunk.length) 0

/-- A new chunk of this size behind the last one. -/
def pushChunk (writer : DiffChunkListWriter) (added : Nat) : DiffChunkListWriter :=
  { writer with
    mergedChunkSizes := writer.mergedChunkSizes ++ [added]
    totalSize := saturatingAdd writer.totalSize added }

/-- The last chunk with more bytes; its copy is filled with zeros. -/
def growLastChunk (writer : DiffChunkListWriter) (lastIndex lastSize grow : Nat) :
    DiffChunkListWriter :=
  let size := saturatingAdd lastSize grow
  { writer with
    mergedChunkSizes := writer.mergedChunkSizes.set lastIndex size
    totalSize := saturatingAdd writer.totalSize grow
    dirtyChunks :=
      match writer.dirtyChunks.lookup lastIndex with
      | none => writer.dirtyChunks
      | some chunk => insertKey lastIndex (resize chunk size) writer.dirtyChunks }

/-- `extend_for_append`. -/
def extendForAppend (writer : DiffChunkListWriter) (remaining : Nat) :
    DiffChunkListWriter :=
  if remaining = 0 then writer
  else
    let preferred := writer.preferredChunkSize remaining
    match writer.mergedChunkSizes.getLast? with
    | none => writer.pushChunk (min remaining preferred)
    | some lastSize =>
        if writer.appendMergeLastChunk ∧ lastSize < preferred then
          writer.growLastChunk (writer.mergedChunkSizes.length - 1) lastSize
            (min (preferred - lastSize) remaining)
        else writer.pushChunk (min remaining preferred)

/-- The loop of `locate_position`, from this chunk and its start on. -/
def locateFrom (position : Nat) : Nat → Nat → List Nat → Option (Nat × Nat)
  | _, _, [] => none
  | index, start, size :: rest =>
      let chunkEnd := saturatingAdd start size
      if position < chunkEnd then some (index, position - start)
      else locateFrom position (index + 1) chunkEnd rest

/-- `locate_position`. -/
def locatePosition (writer : DiffChunkListWriter) (position : Nat) : Option (Nat × Nat) :=
  if writer.mergedChunkSizes = [] ∨ writer.totalSize ≤ position then none
  else locateFrom position 0 0 writer.mergedChunkSizes

/-- The bytes of a base chunk, to the end of its reader. -/
def fetchBaseChunk (web : WebCrates) (world : WriterWorld) (writer : DiffChunkListWriter)
    (chunkId : ChunkId) : NdnResult (List UInt8) :=
  match openStoreChunkReaderWithFallback web world.files world.mgr writer.autoCache
      writer.localMode writer.openChunkReader chunkId 0 with
  | .error e => .error e
  | .ok baseData =>
      match world.readFails chunkId with
      | some e => .error (.ioError e)
      | none => .ok baseData

/-- `ensure_dirty_chunk`. -/
def ensureDirtyChunk (web : WebCrates) (world : WriterWorld) (writer : DiffChunkListWriter)
    (chunkIndex : Nat) : DiffChunkListWriter × NdnResult Unit :=
  match writer.mergedChunkSizes[chunkIndex]? with
  | none =>
      (writer, .error (.invalidParam ("invalid chunk index " ++ toString chunkIndex)))
  | some expectedSize =>
      match writer.dirtyChunks.lookup chunkIndex with
      | some chunk =>
          if chunk.length ≠ expectedSize then
            ({ writer with
                dirtyChunks := insertKey chunkIndex (resize chunk expectedSize)
                  writer.dirtyChunks },
              .ok ())
          else (writer, .ok ())
      | none =>
          match writer.baseChunkIds[chunkIndex]? with
          | none =>
              ({ writer with
                  dirtyChunks := insertKey chunkIndex (List.replicate expectedSize 0)
                    writer.dirtyChunks },
                .ok ())
          | some baseChunkId =>
              match writer.fetchBaseChunk web world baseChunkId with
              | .error e => (writer, .error e)
              | .ok baseData =>
                  ({ writer with
                      dirtyChunks := insertKey chunkIndex (resize baseData expectedSize)
                        writer.dirtyChunks },
                    .ok ())

/-- The end of the body of the loop of `write`, when the chunk is dirty: these bytes go
into it. -/
def copyIntoChunk (writer : DiffChunkListWriter) (chunkIndex chunkOffset : Nat)
    (bytes : List UInt8) : DiffChunkListWriter × Option (NdnResult Unit) :=
  match writer.dirtyChunks.lookup chunkIndex with
  | none => (writer, some (.error (.internal "dirty chunk missing")))
  | some chunk =>
      -- `chunk[start..end]` panics outside of the chunk.
      if chunk.length < chunkOffset + bytes.length then (writer, none)
      else
        let position := saturatingAdd writer.position bytes.length
        ({ writer with
            dirtyChunks := insertKey chunkIndex (overwrite chunkOffset bytes chunk)
              writer.dirtyChunks
            position := position
            totalSize := max writer.totalSize position },
          some (.ok ()))

/-- The body of the loop of `write`, with these bytes left to write: how many of them
were written. -/
def writeOnce (web : WebCrates) (world : WriterWorld) (writer : DiffChunkListWriter)
    (left : List UInt8) : DiffChunkListWriter × Option (NdnResult Nat) :=
  let writer :=
    if writer.position = writer.totalSize then writer.extendForAppend left.length
    else writer
  match writer.locatePosition writer.position with
  | none => (writer, some (.error (.internal "failed to locate write position")))
  | some (chunkIndex, chunkOffset) =>
      match writer.mergedChunkSizes[chunkIndex]? with
      | none => (writer, none)
      | some chunkSize =>
          let writable := chunkSize - chunkOffset
          if writable = 0 then (writer, some (.ok 0))
          else
            let writeLen := min writable left.length
            match writer.ensureDirtyChunk web world chunkIndex with
            | (writer, .error e) => (writer, some (.error e))
            | (writer, .ok ()) =>
                match writer.copyIntoChunk chunkIndex chunkOffset (left.take writeLen) with
                | (writer, none) => (writer, none)
                | (writer, some (.error e)) => (writer, some (.error e))
                | (writer, some (.ok ())) => (writer, some (.ok writeLen))

/-- The loop of `write`, with so many passes at most: the bytes that are left, and how
many were written.  A pass writes a byte at least. -/
def writeFrom (web : WebCrates) (world : WriterWorld) :
    Nat → DiffChunkListWriter → List UInt8 → Nat →
      DiffChunkListWriter × Option (NdnResult Nat)
  | _, writer, [], written => (writer, some (.ok written))
  | 0, writer, _ :: _, _ => (writer, none)
  | passes + 1, writer, byte :: left, written =>
      match writer.writeOnce web world (byte :: left) with
      | (writer, none) => (writer, none)
      | (writer, some (.error e)) => (writer, some (.error e))
      | (writer, some (.ok writeLen)) =>
          writeFrom web world passes writer ((byte :: left).drop writeLen)
            (written + writeLen)

/-- `write`. -/
def write (web : WebCrates) (world : WriterWorld) (writer : DiffChunkListWriter)
    (buf : List UInt8) : DiffChunkListWriter × Option (NdnResult Nat) :=
  writeFrom web world buf.length writer buf 0

/-! ## Closing -/

/-- What `persist_dirty_chunks_to_diff_file` leaves behind: the file, the manager and
the answer. -/
structure Persisted where
  file : List UInt8
  mgr : NamedDataMgr
  answer : NdnResult PersistedDirtyChunks

/-- The loop of `persist_dirty_chunks_to_diff_file`.  After `fault` further chunks the
disk fails with this text, when there is one. -/
def persistFrom (crates : Crates) (now : Nat) (namedMode : Bool)
    (mergedChunkSizes : List Nat) :
    List (Nat × List UInt8) → Option (Nat × String) → List UInt8 → NamedDataMgr →
      PersistedDirtyChunks → Persisted
  | _, some (0, text), file, mgr, _ => ⟨file, mgr, .error (.ioError text)⟩
  | [], _, file, mgr, persisted => ⟨file, mgr, .ok persisted⟩
  | (chunkIndex, chunkData) :: rest, fault, file, mgr, persisted =>
      match mergedChunkSizes[chunkIndex]? with
      | none => ⟨file, mgr, .error (.invalidParam "dirty chunk index out of range")⟩
      | some expectedSize =>
          if chunkData.length ≠ expectedSize then
            ⟨file, mgr, .error
              (dirtyChunkSizeMismatch chunkIndex expectedSize chunkData.length)⟩
          else
            match calcMixChunkIdFromBytes crates chunkData with
            | .error e => ⟨file ++ chunkData, mgr, .error e⟩
            | .ok chunkId =>
                let later (mgr : NamedDataMgr) :=
                  persistFrom crates now namedMode mergedChunkSizes rest
                    (fault.map fun f => (f.1 - 1, f.2)) (file ++ chunkData) mgr
                    { chunkIndices := persisted.chunkIndices ++ [chunkIndex]
                      diffChunkSizes := persisted.diffChunkSizes ++ [chunkData.length]
                      dirtyChunkIdMap := insertKey chunkIndex chunkId
                        persisted.dirtyChunkIdMap
                      diffChunkIds :=
                        if namedMode then persisted.diffChunkIds ++ [chunkId]
                        else persisted.diffChunkIds }
                if namedMode then
                  match mgr.putChunk crates now chunkId chunkData with
                  | (mgr, .error e) => ⟨file ++ chunkData, mgr, .error e⟩
                  | (mgr, .ok _) => later mgr
                else later mgr

/-- `persist_dirty_chunks_to_diff_file`. -/
def persistDirtyChunksToDiffFile (crates : Crates) (now : Nat)
    (fault : Option (Nat × String)) (mgr : NamedDataMgr) (writer : DiffChunkListWriter)
    (namedMode : Bool) : Persisted :=
  persistFrom crates now namedMode writer.mergedChunkSizes writer.dirtyChunks fault [] mgr
    ⟨[], [], [], []⟩

/-- `close`: the file of differences and the state that the state file holds. -/
def close (crates : Crates) (now : Nat) (fault : Option (Nat × String))
    (mgr : NamedDataMgr) (writer : DiffChunkListWriter) :
    List UInt8 × NdnResult DiffChunkListWriterState :=
  let persisted := writer.persistDirtyChunksToDiffFile crates now fault mgr false
  (persisted.file, persisted.answer.map fun dirty =>
    { baseChunkList := writer.baseChunkListId
      diffFilePath := writer.diffFilePath
      chunkIndices := dirty.chunkIndices
      diffChunkSizes := dirty.diffChunkSizes
      baseChunkSizes := writer.baseChunkSizes
      mergedChunkSizes := writer.mergedChunkSizes
      position := writer.position
      totalSize := writer.totalSize
      autoCache := writer.autoCache
      localMode := writer.localMode
      fixedChunkSize := writer.fixedChunkSize
      appendMergeLastChunk := writer.appendMergeLastChunk })

/-- The loop of `build_merged_chunk_ids` over so many chunks, from this index on. -/
def mergedChunkIdsFrom (baseChunkIds : List ChunkId)
    (dirtyChunkIdMap : List (Nat × ChunkId)) : Nat → Nat → NdnResult (List ChunkId)
  | 0, _ => .ok []
  | count + 1, index =>
      match (dirtyChunkIdMap.lookup index).or baseChunkIds[index]? with
      | some chunkId =>
          (mergedChunkIdsFrom baseChunkIds dirtyChunkIdMap count (index + 1)).map
            (chunkId :: ·)
      | none =>
          .error (.invalidData ("chunk index " ++ toString index ++
            " has no chunk id (not in base and not dirty)"))

/-- `build_merged_chunk_ids`. -/
def buildMergedChunkIds (baseChunkIds : List ChunkId) (mergedChunkSizes : List Nat)
    (dirtyChunkIdMap : List (Nat × ChunkId)) : NdnResult (List ChunkId) :=
  mergedChunkIdsFrom baseChunkIds dirtyChunkIdMap mergedChunkSizes.length 0

/-- `build_simple_chunk_list_from_ids`. -/
def buildSimpleChunkListFromIds (crates : Crates) (chunkIds : List ChunkId)
    (mergedChunkSizes : List Nat) : Option (NdnResult ChunkList) :=
  match iterSum mergedChunkSizes with
  | none => none
  | some mergedTotal =>
      match fromChunkList crates chunkIds with
      | none => none
      | some (.error _) => some (.ok ⟨mergedTotal, chunkIds⟩)
      | some (.ok list) =>
          if list.totalSize ≠ mergedTotal then
            some (.error (.invalidData ("merged chunk total size mismatch, expect " ++
              toString mergedTotal ++ " got " ++ toString list.totalSize)))
          else some (.ok list)

/-- The merged chunk list of `finalize` and `rebuild_merged_state_from_writer_state`. -/
def mergedChunkList (crates : Crates) (baseChunkIds : List ChunkId)
    (mergedChunkSizes : List Nat) (dirtyChunkIdMap : List (Nat × ChunkId)) :
    Option (NdnResult ChunkList) :=
  match buildMergedChunkIds baseChunkIds mergedChunkSizes dirtyChunkIdMap with
  | .error e => some (.error e)
  | .ok chunkIds => buildSimpleChunkListFromIds crates chunkIds mergedChunkSizes

/-- `finalize`: the file of differences, the manager and the answer. -/
def finalize (crates : Crates) (now : Nat) (fault : Option (Nat × String))
    (mgr : NamedDataMgr) (writer : DiffChunkListWriter) (namedMode : Bool) :
    List UInt8 × NamedDataMgr × Option (NdnResult (DiffChunkList × ChunkList)) :=
  let persisted := writer.persistDirtyChunksToDiffFile crates now fault mgr namedMode
  (persisted.file, persisted.mgr,
    match persisted.answer with
    | .error e => some (.error e)
    | .ok dirty =>
        (mergedChunkList crates writer.baseChunkIds writer.mergedChunkSizes
          dirty.dirtyChunkIdMap).map fun merged => merged.map fun mergedChunkList =>
            (⟨writer.baseChunkListId, writer.diffFilePath, dirty.chunkIndices,
              if namedMode then some dirty.diffChunkIds else none⟩, mergedChunkList))

end DiffChunkListWriter

end NamedStore
end CyfsNdn

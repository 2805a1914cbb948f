import CyfsNdn.NamedStore.ChunkListReader
import CyfsNdn.NamedStore.ZoneGateway
import CyfsNdn.NdnLib.ChunkListSize

/-!
# Differences to a chunk list and their reader

`DiffChunkList` and `DiffChunkListReader` of `diff_chunk_list.rs`: the chunks of a base
list of which some are replaced, and some added, by the consecutive parts of one local
file.

Sums of `u64` are checked, as in a build with overflow checks; `none` is a panic.
-/

namespace CyfsNdn
namespace NamedStore

open NdnLib Collections

/-- `iter().sum()` of `u64`. -/
def iterSum (sizes : List Nat) : Option Nat :=
  if u64Max < sizes.sum then none else some sizes.sum

/-- The loop of `ChunkList::from_chunk_list`, with this total so far. -/
def totalLengthFrom (crates : Crates) : Nat → List ChunkId → Option (NdnResult Nat)
  | total, [] => some (.ok total)
  | total, chunkId :: rest =>
      match chunkId.getLength crates with
      | none => some (.error (.invalidParam "get chunk length from chunkid failed"))
      | some chunkSize =>
          if u64Max < total + chunkSize then none
          else totalLengthFrom crates (total + chunkSize) rest

/-- `ChunkList::from_chunk_list`. -/
def fromChunkList (crates : Crates) (chunkIds : List ChunkId) :
    Option (NdnResult ChunkList) :=
  (totalLengthFrom crates 0 chunkIds).map fun total =>
    total.map fun totalSize => ⟨totalSize, chunkIds⟩

theorem totalLengthFrom_eq_sumLengths (crates : Crates) (chunkIds : List ChunkId) (total : Nat) :
    totalLengthFrom crates total chunkIds =
      ChunkList.sumLengths crates true total chunkIds := by
  induction chunkIds generalizing total with
  | nil => rfl
  | cons chunkId rest ih =>
      cases hlength : chunkId.getLength crates with
      | none => simp [totalLengthFrom, ChunkList.sumLengths, hlength]
      | some chunkSize =>
          simp only [totalLengthFrom, ChunkList.sumLengths, hlength, addU64_checked]
          by_cases hfits : total + chunkSize < 2 ^ 64
          · have hmax : ¬ u64Max < total + chunkSize := by
              unfold u64Max
              omega
            rw [if_pos hfits, if_neg hmax]
            exact ih (total + chunkSize)
          · have hmax : u64Max < total + chunkSize := by
              unfold u64Max
              omega
            rw [if_neg hfits, if_pos hmax]

/-- It is the function of a build with overflow checks. -/
theorem fromChunkList_eq_fromChunkListU64 (crates : Crates) (chunkIds : List ChunkId) :
    fromChunkList crates chunkIds = ChunkList.fromChunkListU64 crates true chunkIds := by
  unfold fromChunkList ChunkList.fromChunkListU64
  rw [totalLengthFrom_eq_sumLengths]

/-- `DiffChunkList`. -/
structure DiffChunkList where
  baseChunkList : ObjId
  diffFilePath : String
  chunkIndices : List Nat
  chunkIds : Option (List ChunkId)
  deriving DecidableEq, Repr

/-- The first index that stands twice. -/
def duplicateIndex : List Nat → List Nat → Option Nat
  | _, [] => none
  | seen, index :: rest =>
      if index ∈ seen then some index else duplicateIndex (index :: seen) rest

/-- `DiffChunkList::validate`. -/
def DiffChunkList.validate (diff : DiffChunkList) : NdnResult Unit :=
  let indices : NdnResult Unit :=
    match duplicateIndex [] diff.chunkIndices with
    | some index =>
        .error (.invalidParam ("duplicate diff chunk index " ++ toString index))
    | none => .ok ()
  match diff.chunkIds with
  | none => indices
  | some chunkIds =>
      if chunkIds.length ≠ diff.chunkIndices.length then
        .error (.invalidParam ("chunk_ids length " ++ toString chunkIds.length ++
          " does not match chunk_indices length " ++ toString diff.chunkIndices.length))
      else indices

/-- `DiffChunkListReaderOptions`. -/
structure DiffChunkListReaderOptions where
  autoCache : Bool
  localMode : Bool
  fixedChunkSize : Option Nat
  baseChunkSizes : Option (List Nat)
  diffChunkSizes : Option (List Nat)
  openChunkReader : Option OpenChunkReader

/-- `DiffEntryMeta`. -/
structure DiffEntryMeta where
  chunkIndex : Nat
  fileOffset : Nat
  size : Nat
  chunkId : Option ChunkId
  deriving DecidableEq, Repr

/-- `MergedChunkSource`. -/
inductive MergedChunkSource where
  | base (chunkId : ChunkId)
  | diff (diffEntryIndex : Nat)
  deriving DecidableEq, Repr

/-- `DiffChunkListReader`. -/
structure DiffChunkListReader extends ListReader MergedChunkSource where
  namedStoreMgr : NamedDataMgr
  autoCache : Bool
  localMode : Bool
  openChunkReader : Option OpenChunkReader
  diffFilePath : String
  diffEntries : List DiffEntryMeta

/-! ## Sizes of the differences -/

/-- The loop of `resolve_diff_chunk_sizes` over the indexes, after so many bytes of the
file: a base chunk keeps its size, an added one has the fixed size, the last one is what
is left. -/
def inferSizesFrom (baseChunkSizes : List Nat) (fixedChunkSize : Option Nat)
    (diffFileSize : Nat) : Nat → List Nat → NdnResult (List Nat)
  | _, [] => .ok []
  | consumed, [_] => .ok [diffFileSize - consumed]
  | consumed, chunkIndex :: next :: rest =>
      let later (size : Nat) :=
        (inferSizesFrom baseChunkSizes fixedChunkSize diffFileSize
          (saturatingAdd consumed size) (next :: rest)).map (size :: ·)
      match baseChunkSizes[chunkIndex]? with
      | some size => later size
      | none =>
          match fixedChunkSize with
          | some size => later size
          | none =>
              .error (.unsupported ("cannot infer size for appended diff chunk index " ++
                toString chunkIndex ++
                ", set chunk_ids/diff_chunk_sizes/fixed_chunk_size"))

/-- The loop of `resolve_diff_chunk_sizes` over the ids. -/
def sizesOfIds (web : WebCrates) : List ChunkId → NdnResult (List Nat)
  | [] => .ok []
  | chunkId :: rest =>
      match chunkId.getLength web.toCrates with
      | none =>
          .error (.unsupported ("chunk id " ++ chunkId.toObjId.toBase32 web ++
            " has no embedded length, pass diff_chunk_sizes explicitly"))
      | some size => (sizesOfIds web rest).map (size :: ·)

/-- `resolve_diff_chunk_sizes`. -/
def resolveDiffChunkSizes (web : WebCrates) (diff : DiffChunkList)
    (baseChunkSizes : List Nat) (fixedChunkSize : Option Nat)
    (explicitDiffSizes : Option (List Nat)) (diffFileSize : Nat) : NdnResult (List Nat) :=
  match diff.chunkIds with
  | some chunkIds => sizesOfIds web chunkIds
  | none =>
      match explicitDiffSizes with
      | some sizes => .ok sizes
      | none => inferSizesFrom baseChunkSizes fixedChunkSize diffFileSize 0 diff.chunkIndices

/-! ## The merged chunks -/

/-- The loop of `build_diff_entries`, from this offset in the file; the ids are the ones
of these entries. -/
def diffEntriesFrom : Nat → List (Nat × Nat) → List ChunkId →
    NdnResult (List DiffEntryMeta)
  | _, [], _ => .ok []
  | fileOffset, (chunkIndex, size) :: rest, chunkIds =>
      if u64Max < fileOffset + size then .error (.invalidData "diff file size overflow")
      else
        (diffEntriesFrom (fileOffset + size) rest chunkIds.tail).map
          (⟨chunkIndex, fileOffset, size, chunkIds.head?⟩ :: ·)

/-- `build_diff_entries`. -/
def buildDiffEntries (diff : DiffChunkList) (sizes : List Nat) :
    NdnResult (List DiffEntryMeta) :=
  if sizes.length ≠ diff.chunkIndices.length then
    .error (.invalidParam ("diff chunk size count " ++ toString sizes.length ++
      " does not match chunk index count " ++ toString diff.chunkIndices.length))
  else diffEntriesFrom 0 (diff.chunkIndices.zip sizes) (diff.chunkIds.getD [])

/-- `validate_diff_file_len`. -/
def validateDiffFileLen (entries : List DiffEntryMeta) (fileSize : Nat) : NdnResult Unit :=
  let expectedSize :=
    match entries.getLast? with
    | none => 0
    | some entry => saturatingAdd entry.fileOffset entry.size
  if expectedSize ≠ fileSize then
    .error (.invalidData ("diff file size mismatch, expect " ++ toString expectedSize ++
      " got " ++ toString fileSize))
  else .ok ()

/-- The loop of `build_merged_chunks` over the entries, from this index of an entry: an
entry replaces a chunk or is put behind the last one. -/
def mergeEntriesFrom : Nat → List (MergedChunkSource × Nat) → List DiffEntryMeta →
    NdnResult (List (MergedChunkSource × Nat))
  | _, chunks, [] => .ok chunks
  | entryIndex, chunks, entry :: rest =>
      if chunks.length < entry.chunkIndex then
        .error (.invalidParam ("diff chunk index " ++ toString entry.chunkIndex ++
          " leaves gap, current merged chunk count " ++ toString chunks.length))
      else if entry.chunkIndex = chunks.length then
        mergeEntriesFrom (entryIndex + 1) (chunks ++ [(.diff entryIndex, entry.size)]) rest
      else
        mergeEntriesFrom (entryIndex + 1)
          (chunks.set entry.chunkIndex (.diff entryIndex, entry.size)) rest

/-- `build_merged_chunks`. -/
def buildMergedChunks (baseChunkIds : List ChunkId) (baseChunkSizes : List Nat)
    (diffEntries : List DiffEntryMeta) : NdnResult (List (ChunkMeta MergedChunkSource)) :=
  if baseChunkIds.length ≠ baseChunkSizes.length then
    .error (.invalidParam ("base chunk id count " ++ toString baseChunkIds.length ++
      " does not match chunk size count " ++ toString baseChunkSizes.length))
  else
    let bases := (baseChunkIds.zip baseChunkSizes).map fun base =>
      (MergedChunkSource.base base.1, base.2)
    match mergeEntriesFrom 0 bases diffEntries with
    | .error e => .error e
    | .ok chunks =>
        (placeChunksFrom "merged chunk size overflow" 0 chunks).map Prod.fst

/-! ## The reader -/

namespace DiffChunkListReader

/-- `with_options`. -/
def withOptions (web : WebCrates) (files : LocalFiles) (namedStoreMgr : NamedDataMgr)
    (baseChunkList : ChunkList) (diff : DiffChunkList) (seekFrom : SeekFrom)
    (options : DiffChunkListReaderOptions) : NdnResult DiffChunkListReader := do
  diff.validate
  let baseChunkSizes ← resolveChunkSizes web .diffChunkList namedStoreMgr baseChunkList
    options.localMode options.fixedChunkSize options.baseChunkSizes
  let diffFileSize := ((files diff.diffFilePath).getD []).length
  let diffSizes ← resolveDiffChunkSizes web diff baseChunkSizes options.fixedChunkSize
    options.diffChunkSizes diffFileSize
  let diffEntries ← buildDiffEntries diff diffSizes
  validateDiffFileLen diffEntries diffFileSize
  let mergedChunks ← buildMergedChunks baseChunkList.body baseChunkSizes diffEntries
  let totalSize :=
    match mergedChunks.getLast? with
    | none => 0
    | some chunk => saturatingAdd chunk.start chunk.size
  let reader : ListReader MergedChunkSource :=
    ⟨mergedChunks, totalSize, 0, 0, 0, none, none, none, none, none⟩
  let target ← reader.calcSeekTarget seekFrom
  return ⟨reader.applySeekTarget target, namedStoreMgr, options.autoCache,
    options.localMode, options.openChunkReader, diff.diffFilePath, diffEntries⟩

/-- `open_diff_file_reader`: the part of the file from the offset in the chunk on. -/
def openDiffFileReader (files : LocalFiles) (diffFilePath : String)
    (diffFileOffset chunkOffset chunkSize : Nat) : NdnResult (List UInt8) :=
  match files diffFilePath with
  | none => .error (.ioError "No such file or directory")
  | some content =>
      if u64Max < diffFileOffset + chunkOffset then .error (.ioError "offset overflow")
      else .ok ((content.drop (diffFileOffset + chunkOffset)).take (chunkSize - chunkOffset))

/-- How `start_loading_current_chunk` opens a chunk. -/
def load (web : WebCrates) (files : LocalFiles) (reader : DiffChunkListReader)
    (source : MergedChunkSource) (offset : Nat) : NdnResult (List UInt8) :=
  match source with
  | .base chunkId =>
      openStoreChunkReaderWithFallback web files reader.namedStoreMgr reader.autoCache
        reader.localMode reader.openChunkReader chunkId offset
  | .diff diffEntryIndex =>
      match reader.diffEntries[diffEntryIndex]? with
      | none => .error (.ioError "diff entry missing for diff source")
      | some entry =>
          openDiffFileReader files reader.diffFilePath entry.fileOffset offset entry.size

/-- A call of `poll_read`, `start_seek` or `poll_complete`. -/
def call (web : WebCrates) (files : LocalFiles) (reader : DiffChunkListReader)
    (c : ListReader.Call) : DiffChunkListReader × ListReader.Returned :=
  let called := reader.toListReader.call (reader.load web files) (fun _ => "") c
  ({ reader with toListReader := called.1 }, called.2)

/-- The reader after a call. -/
def afterCall (web : WebCrates) (files : LocalFiles) (reader : DiffChunkListReader)
    (c : ListReader.Call) : DiffChunkListReader :=
  (reader.call web files c).1

end DiffChunkListReader
end NamedStore
end CyfsNdn

import CyfsNdn.Collections.Traverse
import CyfsNdn.NamedStore.ListReaderView
import CyfsNdn.NamedStore.ChunkPiece
import CyfsNdn.NdnLib.SampleWeb

/-!
# Reading a chunk list

`chunk_list_reader.rs`: how the sizes of the chunks of a list are found, how a chunk is
opened, and the reader.  The reader of differences finds sizes and opens chunks in the
same way and says some things in other words, which are a parameter.
-/

namespace CyfsNdn
namespace NamedStore

open NdnLib Collections Transition

/-! ## Sizes -/

/-- The words in which the two readers say that sizes cannot be found. -/
structure SizeTexts where
  missingInLocal : String
  cannotFit : String
  notCovered : Nat → Nat → String
  cannotResolve : String

/-- The words of `chunk_list_reader.rs`. -/
def SizeTexts.chunkListReader : SizeTexts where
  missingInLocal := " missing in local NamedStoreMgr, state="
  cannotFit := " cannot fit list total size "
  notCovered totalSize remaining := "resolved fixed chunk sizes do not cover total size " ++
    toString totalSize ++ ", remaining=" ++ toString remaining
  cannotResolve := "cannot resolve chunk sizes for seek: need mix chunk id, " ++
    "fixed_chunk_size, chunk_sizes, or local_mode"

/-- The words of `diff_chunk_list.rs`. -/
def SizeTexts.diffChunkList : SizeTexts where
  missingInLocal := " missing in NamedStoreMgr local mode, state="
  cannotFit := " cannot fit total size "
  notCovered _ remaining := "resolve fixed chunk size failed, remaining " ++
    toString remaining
  cannotResolve := "cannot resolve chunk sizes: need mix chunk id, " ++
    "explicit chunk_sizes, fixed_chunk_size, or local_mode"

/-- `ensure_chunks_available_in_local`: the sizes of the chunks in the stores, which are
the expected ones if there are any. -/
def ensureChunksAvailableInLocal (web : WebCrates) (texts : SizeTexts) (mgr : NamedDataMgr) :
    List ChunkId → Option (List Nat) → NdnResult (List Nat)
  | [], _ => .ok []
  | chunkId :: rest, expectedSizes =>
      let found := mgr.queryChunkState web.toCrates chunkId
      if found.1.canOpenReader = false then
        .error (.notFound ("chunk " ++ chunkId.toObjId.toBase32 web ++ texts.missingInLocal ++
          found.1.toStr))
      else
        match expectedSizes.bind List.head? with
        | some expected =>
            if expected ≠ found.2 then
              .error (.invalidData ("chunk size mismatch for " ++
                chunkId.toObjId.toBase32 web ++ ", expected=" ++ toString expected ++
                " actual=" ++ toString found.2))
            else
              (ensureChunksAvailableInLocal web texts mgr rest
                (expectedSizes.map List.tail)).map (found.2 :: ·)
        | none =>
            (ensureChunksAvailableInLocal web texts mgr rest
              (expectedSizes.map List.tail)).map (found.2 :: ·)

/-- `resolve_mix_chunk_sizes`. -/
def resolveMixChunkSizes (crates : Crates) (chunkList : ChunkList) : Option (List Nat) :=
  chunkList.body.mapM (·.getLength crates)

/-- The loop of `resolve_fixed_chunk_sizes` over so many chunks. -/
def fixedSizesFrom (texts : SizeTexts) (fixedChunkSize totalSize : Nat) :
    Nat → Nat → NdnResult (List Nat)
  | 0, remaining =>
      if remaining ≠ 0 then .error (.invalidParam (texts.notCovered totalSize remaining))
      else .ok []
  | count + 1, remaining =>
      if remaining = 0 then
        .error (.invalidParam ("fixed chunk size " ++ toString fixedChunkSize ++
          texts.cannotFit ++ toString totalSize))
      else
        let size := if count = 0 then remaining else min fixedChunkSize remaining
        (fixedSizesFrom texts fixedChunkSize totalSize count (remaining - size)).map
          (size :: ·)

/-- `resolve_fixed_chunk_sizes`. -/
def resolveFixedChunkSizes (texts : SizeTexts) (chunkList : ChunkList)
    (fixedChunkSize : Nat) : NdnResult (List Nat) :=
  if chunkList.body = [] then .ok []
  else if fixedChunkSize = 0 then .error (.invalidParam "fixed_chunk_size cannot be zero")
  else if chunkList.totalSize = 0 then
    .ok (List.replicate chunkList.body.length fixedChunkSize)
  else
    fixedSizesFrom texts fixedChunkSize chunkList.totalSize chunkList.body.length
      chunkList.totalSize

/-- `resolve_chunk_sizes`, `resolve_chunk_sizes_for_list`: the given sizes, the ones in
the stores, the ones in the ids, or all the same. -/
def resolveChunkSizes (web : WebCrates) (texts : SizeTexts) (mgr : NamedDataMgr)
    (chunkList : ChunkList) (localMode : Bool) (fixedChunkSize : Option Nat)
    (explicitSizes : Option (List Nat)) : NdnResult (List Nat) :=
  match explicitSizes with
  | some sizes =>
      if sizes.length ≠ chunkList.body.length then
        .error (.invalidParam ("chunk_sizes length mismatch, expect " ++
          toString chunkList.body.length ++ " got " ++ toString sizes.length))
      else if localMode then
        (ensureChunksAvailableInLocal web texts mgr chunkList.body (some sizes)).map
          fun _ => sizes
      else .ok sizes
  | none =>
      if localMode then ensureChunksAvailableInLocal web texts mgr chunkList.body none
      else
        match resolveMixChunkSizes web.toCrates chunkList with
        | some sizes => .ok sizes
        | none =>
            match fixedChunkSize with
            | some fixedChunkSize => resolveFixedChunkSizes texts chunkList fixedChunkSize
            | none => .error (.unsupported texts.cannotResolve)

/-! ## Opening a chunk -/

/-- `OpenChunkReader`: the way of the caller to open a chunk at an offset. -/
abbrev OpenChunkReader := ChunkId → Nat → Bool → NdnResult (List UInt8 × Nat)

/-- `load_chunk_reader`, `open_store_chunk_reader_with_fallback`: the chunk in the
stores, or else what the caller opens. -/
def openStoreChunkReaderWithFallback (web : WebCrates) (files : LocalFiles)
    (mgr : NamedDataMgr) (autoCache localMode : Bool)
    (openChunkReader : Option OpenChunkReader) (chunkId : ChunkId) (offset : Nat) :
    NdnResult (List UInt8) :=
  match mgr.openChunkReader web.toCrates files chunkId offset with
  | .ok opened => .ok opened.1
  | .error openErr =>
      if localMode then .error openErr
      else
        match openChunkReader with
        | none => .error openErr
        | some customOpen =>
            match customOpen chunkId offset autoCache with
            | .error e => .error e
            | .ok opened => .ok opened.1

/-- Whatever opens the chunk reads this data: the stores serve it or cannot open it, and
the caller opens it at the right place. -/
def Delivers (crates : Crates) (files : LocalFiles) (mgr : NamedDataMgr)
    (openChunkReader : Option OpenChunkReader) (chunkId : ChunkId) (data : List UInt8) :
    Prop :=
  (mgr.ServesChunk crates files chunkId data ∨
    ∀ offset, ∃ e, mgr.openChunkReader crates files chunkId offset = .error e) ∧
  ∀ customOpen ∈ openChunkReader, ∀ offset ≤ data.length, ∀ autoCache opened,
    customOpen chunkId offset autoCache = .ok opened → opened.1 = data.drop offset

theorem Delivers.open_eq {web : WebCrates} {files : LocalFiles} {mgr : NamedDataMgr}
    {openChunkReader : Option OpenChunkReader} {chunkId : ChunkId} {data : List UInt8}
    (h : Delivers web.toCrates files mgr openChunkReader chunkId data) {offset : Nat}
    (hoffset : offset ≤ data.length) {autoCache localMode : Bool} {opened : List UInt8}
    (hopen : openStoreChunkReaderWithFallback web files mgr autoCache localMode
      openChunkReader chunkId offset = .ok opened) : opened = data.drop offset := by
  unfold openStoreChunkReaderWithFallback at hopen
  obtain ⟨hstores, hcaller⟩ := h
  rcases hstores with hserves | hnone
  · rw [(hserves.openChunkReader offset).1 hoffset] at hopen
    exact (Except.ok.inj hopen).symm
  · obtain ⟨e, he⟩ := hnone offset
    rw [he] at hopen
    dsimp only at hopen
    split at hopen
    · cases hopen
    · cases hcustom : openChunkReader with
      | none =>
          rw [hcustom] at hopen
          cases hopen
      | some customOpen =>
          rw [hcustom] at hopen
          dsimp only at hopen
          cases hfound : customOpen chunkId offset autoCache with
          | error e =>
              rw [hfound] at hopen
              cases hopen
          | ok found =>
              rw [hfound] at hopen
              obtain rfl := Except.ok.inj hopen
              exact hcaller customOpen hcustom offset hoffset autoCache found hfound

/-! ## The reader -/

/-- `ChunkListReaderOptions`. -/
structure ChunkListReaderOptions where
  localMode : Bool
  fixedChunkSize : Option Nat
  chunkSizes : Option (List Nat)
  openChunkReader : Option OpenChunkReader

/-- `ChunkListReaderOptions::default`. -/
def ChunkListReaderOptions.default : ChunkListReaderOptions := ⟨false, none, none, none⟩

/-- `ChunkListReader`. -/
structure ChunkListReader extends ListReader ChunkId where
  namedStoreMgr : NamedDataMgr
  localMode : Bool
  openChunkReader : Option OpenChunkReader

namespace ChunkListReader

/-- `build_chunks`. -/
def buildChunks (chunkIds : List ChunkId) (chunkSizes : List Nat) :
    NdnResult (List (ChunkMeta ChunkId) × Nat) :=
  if chunkIds.length ≠ chunkSizes.length then
    .error (.invalidParam ("chunk count " ++ toString chunkIds.length ++
      " does not match chunk size count " ++ toString chunkSizes.length))
  else placeChunksFrom "chunk list total size overflow" 0 (chunkIds.zip chunkSizes)

/-- `with_options`. -/
def withOptions (web : WebCrates) (namedStoreMgr : NamedDataMgr) (chunkList : ChunkList)
    (seekFrom : SeekFrom) (options : ChunkListReaderOptions) : NdnResult ChunkListReader :=
  match resolveChunkSizes web .chunkListReader namedStoreMgr chunkList options.localMode
      options.fixedChunkSize options.chunkSizes with
  | .error e => .error e
  | .ok chunkSizes =>
      if chunkSizes.length ≠ chunkList.body.length then
        .error (.invalidParam ("chunk size count mismatch, expect " ++
          toString chunkList.body.length ++ " got " ++ toString chunkSizes.length))
      else
        match buildChunks chunkList.body chunkSizes with
        | .error e => .error e
        | .ok (chunks, totalSize) =>
            let reader : ListReader ChunkId :=
              ⟨chunks, totalSize, 0, 0, 0, none, none, none, none, none⟩
            match reader.calcSeekTarget seekFrom with
            | .error e => .error e
            | .ok seekTarget =>
                .ok ⟨reader.applySeekTarget seekTarget, namedStoreMgr, options.localMode,
                  options.openChunkReader⟩

/-- How a chunk is opened. -/
def load (web : WebCrates) (files : LocalFiles) (reader : ChunkListReader) :
    ChunkId → Nat → NdnResult (List UInt8) :=
  openStoreChunkReaderWithFallback web files reader.namedStoreMgr false reader.localMode
    reader.openChunkReader

/-- How the error of `start_loading_current_chunk` names a chunk. -/
def named (web : WebCrates) (chunkId : ChunkId) : String :=
  " for " ++ chunkId.toObjId.toBase32 web

/-- A call of `poll_read`, `start_seek` or `poll_complete`. -/
def call (web : WebCrates) (files : LocalFiles) (reader : ChunkListReader)
    (c : ListReader.Call) : ChunkListReader × ListReader.Returned :=
  let called := reader.toListReader.call (reader.load web files) (named web) c
  ({ reader with toListReader := called.1 }, called.2)

/-- The reader after a call. -/
def afterCall (web : WebCrates) (files : LocalFiles) (reader : ChunkListReader)
    (c : ListReader.Call) : ChunkListReader :=
  (reader.call web files c).1

/-! ## Every read is a read of the concatenation -/

section Views

variable {web : WebCrates} {files : LocalFiles} {mgr : NamedDataMgr} {chunkList : ChunkList}
  {pieces : List (List UInt8)}

end Views

/-! ## The list with the chunk `abc` twice -/

end ChunkListReader
end NamedStore
end CyfsNdn

import CyfsNdn.NamedStore.Availability

/-!
# Reading a piece of a chunk

`get_chunk_piece` of the store and of the manager.  The manager opens its reader at
the offset of the piece.  The store opens it at the start of the chunk and only
compares the offset with the size, so what it returns are the first bytes of the chunk,
whatever the offset.
-/

namespace CyfsNdn
namespace NamedStore

open NdnLib Relational

/-- `read_exact` into a buffer of this size, and what is said where the reader ends
before. -/
def readExact (earlyEof : String) (reader : List UInt8) (size : Nat) :
    NdnResult (List UInt8) :=
  if size ≤ reader.length then .ok (reader.take size)
  else .error (.ioError earlyEof)

/-- What both layers do with an open reader.  They differ in the text of a failed
read. -/
def pieceOf (crates : Crates) (earlyEof : String) (chunkId : ChunkId)
    (offset pieceSize : Nat) (opened : NdnResult (List UInt8 × Nat)) :
    NdnResult (List UInt8) :=
  match opened with
  | .error e => .error e
  | .ok (reader, chunkSize) =>
      if chunkSize < offset then .error (.offsetTooLarge (chunkId.toString crates))
      else readExact earlyEof reader pieceSize

/-- `NamedStore::get_chunk_piece`: the reader is opened at the start. -/
def NamedStore.getChunkPiece (crates : Crates) (files : LocalFiles) (store : NamedStore)
    (chunkId : ChunkId) (offset pieceSize : Nat) : NdnResult (List UInt8) :=
  pieceOf crates "early eof" chunkId offset pieceSize
    (store.openChunkReader crates files chunkId 0)

/-- `NamedDataMgr::get_chunk_piece`: the reader is opened at the offset. -/
def NamedDataMgr.getChunkPiece (crates : Crates) (files : LocalFiles) (mgr : NamedDataMgr)
    (chunkId : ChunkId) (offset pieceSize : Nat) : NdnResult (List UInt8) :=
  pieceOf crates "read chunk piece failed: early eof" chunkId offset pieceSize
    (mgr.openChunkReader crates files chunkId offset)

/-- The bytes that a link refers to in the content of its file. -/
def linkedPart (range : Option (Nat × Nat)) (content : List UInt8) (chunkSize : Nat) :
    List UInt8 :=
  match range with
  | some range => (content.drop range.1).take (range.2 - range.1)
  | none => content.take chunkSize

/-- The store holds the chunk with this data, in its own file or in a linked one. -/
inductive NamedStore.HoldsData (crates : Crates) (files : LocalFiles) (store : NamedStore)
    (chunkId : ChunkId) (data : List UInt8) : Prop
  | completed (chunkItem : ChunkItem) (file : ChunkFile)
      (item : store.db.getChunkItem crates chunkId = .ok chunkItem)
      (state : chunkItem.chunkState = .completed)
      (stored : store.backend.chunks.find? (LocalFsBackend.chunkFinalPath crates chunkId) = some file)
      (bytes : file.bytes = data)
  | localLink (chunkItem : ChunkItem) (info : ChunkLocalInfo) (content : List UInt8)
      (item : store.db.getChunkItem crates chunkId = .ok chunkItem)
      (state : chunkItem.chunkState = .localLink info)
      (verified : NamedStore.verifyLocalLink crates files chunkId info = .ok content)
      (size : chunkItem.chunkSize = data.length)
      (whole : ∀ range, info.range = some range → range.2 - range.1 = data.length)
      (bytes : linkedPart info.range content chunkItem.chunkSize = data)

/-- The store holds the chunk with this data, or cannot open it. -/
def NamedStore.HoldsDataIfAny (crates : Crates) (files : LocalFiles) (store : NamedStore)
    (chunkId : ChunkId) (data : List UInt8) : Prop :=
  store.HoldsData crates files chunkId data ∨
    ∃ e, store.openChunkReader crates files chunkId 0 = .error e

/-- One of the stores that the manager asks holds the chunk, and none has other data for
it. -/
def NamedDataMgr.ServesChunk (crates : Crates) (files : LocalFiles) (mgr : NamedDataMgr)
    (chunkId : ChunkId) (data : List UInt8) : Prop :=
  (∃ storeId ∈ targetStores chunkId.toObjId mgr.versions [], ∃ store,
    mgr.stores storeId = some store ∧ store.HoldsData crates files chunkId data) ∧
  ∀ storeId ∈ targetStores chunkId.toObjId mgr.versions [], ∀ store,
    mgr.stores storeId = some store → store.HoldsDataIfAny crates files chunkId data

/-- A piece of the data was read, or an error was returned where the piece reaches
beyond the end. -/
def PieceRead (result : NdnResult (List UInt8)) (data : List UInt8) (offset pieceSize : Nat) :
    Prop :=
  if offset + pieceSize ≤ data.length then
    result = .ok ((data.drop offset).take pieceSize)
  else ∃ e, result = .error e

/-- The first bytes of the data are the piece, or it reaches beyond the end so far that
also the first bytes cannot be read. -/
def FirstBytesDo (data : List UInt8) (offset pieceSize : Nat) : Prop :=
  if offset + pieceSize ≤ data.length then
    data.take pieceSize = (data.drop offset).take pieceSize
  else data.length < offset ∨ data.length < pieceSize

section Pieces

variable {crates : Crates} {files : LocalFiles} {chunkId : ChunkId} {data : List UInt8}

/-! ## Readers at an offset -/

/-- A linked file is read at the offset in its recorded part. -/
theorem openLocalLinkReader_of_part {chunkItem : ChunkItem} {info : ChunkLocalInfo}
    {content : List UInt8} (hverified : NamedStore.verifyLocalLink crates files chunkId info = .ok content)
    (hsize : chunkItem.chunkSize = data.length)
    (hwhole : ∀ range, info.range = some range → range.2 - range.1 = data.length)
    (hbytes : linkedPart info.range content chunkItem.chunkSize = data) (offset : Nat) :
    NamedStore.openLocalLinkReader crates files chunkId chunkItem info offset =
      if data.length < offset then .error (.offsetTooLarge (chunkId.toString crates))
      else .ok (data.drop offset, data.length) := by
  unfold NamedStore.openLocalLinkReader
  rw [hverified]
  cases hrange : info.range with
  | none =>
      rw [hrange] at hbytes
      have hdrop : data.drop offset = (content.drop offset).take (data.length - offset) := by
        rw [← List.drop_take, ← hsize]
        exact congrArg (List.drop offset) hbytes.symm
      dsimp only
      rw [hsize, hdrop]
  | some range =>
      have hlen := hwhole range hrange
      rw [hrange] at hbytes
      have hdrop : data.drop offset =
          (content.drop (range.1 + offset)).take (data.length - offset) := by
        rw [← List.drop_drop, ← List.drop_take, ← hlen]
        exact congrArg (List.drop offset) hbytes.symm
      dsimp only
      rw [hsize, hlen, if_neg (by simp), hdrop]

/-- A store that holds the chunk opens it at every offset inside. -/
theorem NamedStore.HoldsData.openChunkReader {store : NamedStore}
    (h : store.HoldsData crates files chunkId data) (offset : Nat) :
    store.openChunkReader crates files chunkId offset =
      if data.length < offset then .error (.offsetTooLarge (chunkId.toString crates))
      else .ok (data.drop offset, data.length) := by
  unfold NamedStore.openChunkReader
  cases h with
  | completed chunkItem file hitem hstate hstored hbytes =>
      rw [hitem]
      dsimp only
      rw [hstate]
      dsimp only
      unfold LocalFsBackend.openChunkReader
      rw [hstored]
      dsimp only
      rw [hbytes]
  | localLink chunkItem info content hitem hstate hverified hsize hwhole hbytes =>
      rw [hitem]
      dsimp only
      rw [hstate]
      exact openLocalLinkReader_of_part hverified hsize hwhole hbytes offset

/-- What cannot be opened at the start cannot be opened at all. -/
theorem NamedStore.openChunkReader_error {store : NamedStore} {e : NdnError}
    (h : store.openChunkReader crates files chunkId 0 = .error e) (offset : Nat) :
    ∃ e', store.openChunkReader crates files chunkId offset = .error e' := by
  unfold NamedStore.openChunkReader at h ⊢
  split at h
  · exact ⟨_, rfl⟩
  next chunkItem hitem =>
  split at h
  · unfold LocalFsBackend.openChunkReader at h ⊢
    split at h
    · exact ⟨_, rfl⟩
    · rw [if_neg (by omega)] at h
      cases h
  · unfold NamedStore.openLocalLinkReader at h ⊢
    split at h
    · exact ⟨_, rfl⟩
    next content hverify =>
    split at h
    · next range hrange =>
      split_ifs at h with hmismatch hzero
      · rw [if_pos hmismatch]
        exact ⟨_, rfl⟩
      · omega
    · rw [if_neg (by omega)] at h
      cases h
  · exact ⟨_, rfl⟩

/-- The loop of the manager finds the chunk at every offset inside. -/
theorem NamedDataMgr.openChunkReaderFrom_of_holds {mgr : NamedDataMgr} {storeIds : List String}
    (hany : ∀ storeId ∈ storeIds, ∀ store, mgr.stores storeId = some store →
      store.HoldsDataIfAny crates files chunkId data) (offset : Nat)
    (lastError : Option NdnError) :
    ((∃ storeId ∈ storeIds, ∃ store, mgr.stores storeId = some store ∧
        store.HoldsData crates files chunkId data) → offset ≤ data.length →
      mgr.openChunkReaderFrom crates files chunkId offset storeIds lastError =
        .ok (data.drop offset, data.length)) ∧
    (data.length < offset →
      ∃ e, mgr.openChunkReaderFrom crates files chunkId offset storeIds lastError =
        .error e) := by
  induction storeIds generalizing lastError with
  | nil => exact ⟨by simp, fun _ => ⟨_, rfl⟩⟩
  | cons storeId rest ih =>
      have hrest := ih fun other hother => hany other (List.mem_cons_of_mem _ hother)
      unfold NamedDataMgr.openChunkReaderFrom
      cases hstore : mgr.stores storeId with
      | none =>
          dsimp only
          refine ⟨?_, (hrest _).2⟩
          rintro ⟨other, hother, store, hfound, hholds⟩
          rcases List.mem_cons.mp hother with rfl | hother
          · rw [hstore] at hfound
            cases hfound
          · exact (hrest _).1 ⟨other, hother, store, hfound, hholds⟩
      | some store =>
          dsimp only
          rcases hany storeId List.mem_cons_self store hstore with hholds | ⟨e, herror⟩
          · rw [hholds.openChunkReader offset]
            refine ⟨fun _ hle => ?_, fun hlarge => ?_⟩
            · rw [if_neg (by omega)]
            · rw [if_pos hlarge]
              exact (hrest _).2 hlarge
          · obtain ⟨e', hoffset⟩ := NamedStore.openChunkReader_error herror offset
            have hrest' : ∀ lastError', ((∃ other ∈ storeId :: rest, ∃ store,
                mgr.stores other = some store ∧ store.HoldsData crates files chunkId data) →
                  offset ≤ data.length →
                mgr.openChunkReaderFrom crates files chunkId offset rest lastError' =
                  .ok (data.drop offset, data.length)) ∧
                (data.length < offset → ∃ e,
                  mgr.openChunkReaderFrom crates files chunkId offset rest lastError' =
                    .error e) := by
              intro lastError'
              refine ⟨?_, (hrest _).2⟩
              rintro ⟨other, hother, found, hfound, hholds⟩
              rcases List.mem_cons.mp hother with rfl | hother
              · rw [hstore] at hfound
                obtain rfl := Option.some.inj hfound
                have hopen := hholds.openChunkReader 0
                rw [herror, if_neg (by omega)] at hopen
                cases hopen
              · exact (hrest _).1 ⟨other, hother, found, hfound, hholds⟩
            rw [hoffset]
            cases e' <;> exact hrest' _

theorem NamedDataMgr.ServesChunk.openChunkReader {mgr : NamedDataMgr}
    (h : mgr.ServesChunk crates files chunkId data) (offset : Nat) :
    (offset ≤ data.length → mgr.openChunkReader crates files chunkId offset =
      .ok (data.drop offset, data.length)) ∧
    (data.length < offset →
      ∃ e, mgr.openChunkReader crates files chunkId offset = .error e) := by
  obtain ⟨hholds, hany⟩ := h
  have hversions : mgr.versions ≠ [] := by
    obtain ⟨storeId, hmem, -⟩ := hholds
    rintro hempty
    rw [hempty] at hmem
    simp [targetStores] at hmem
  unfold NamedDataMgr.openChunkReader
  rw [if_neg hversions]
  obtain ⟨hok, herror⟩ := NamedDataMgr.openChunkReaderFrom_of_holds hany offset none
  exact ⟨hok hholds, herror⟩

/-! ## Pieces -/

/-- The manager reads every piece. -/
theorem NamedDataMgr.ServesChunk.pieceRead {mgr : NamedDataMgr}
    (h : mgr.ServesChunk crates files chunkId data) (offset pieceSize : Nat) :
    PieceRead (mgr.getChunkPiece crates files chunkId offset pieceSize) data offset
      pieceSize := by
  obtain ⟨hok, herror⟩ := h.openChunkReader offset
  unfold PieceRead NamedDataMgr.getChunkPiece pieceOf readExact
  by_cases hlarge : data.length < offset
  · obtain ⟨e, he⟩ := herror hlarge
    rw [if_neg (by omega), he]
    exact ⟨e, rfl⟩
  · rw [hok (by omega)]
    dsimp only
    rw [if_neg hlarge, List.length_drop]
    split_ifs with hinside hfits hfits
    · rfl
    · omega
    · omega
    · exact ⟨_, rfl⟩

/-- The store reads a piece exactly if the first bytes do. -/
theorem NamedStore.HoldsData.pieceRead_iff {store : NamedStore}
    (h : store.HoldsData crates files chunkId data) (offset pieceSize : Nat) :
    PieceRead (store.getChunkPiece crates files chunkId offset pieceSize) data offset
        pieceSize ↔ FirstBytesDo data offset pieceSize := by
  have hopen := h.openChunkReader 0
  rw [if_neg (by omega), List.drop_zero] at hopen
  unfold PieceRead FirstBytesDo NamedStore.getChunkPiece pieceOf readExact
  rw [hopen]
  dsimp only
  split_ifs with hinside hlarge hfits hlarge hfits
  · omega
  · constructor
    · exact Except.ok.inj
    · exact congrArg Except.ok
  · omega
  · exact ⟨fun _ => .inl hlarge, fun _ => ⟨_, rfl⟩⟩
  · constructor
    · rintro ⟨e, he⟩
      cases he
    · rintro (hbad | hbad) <;> omega
  · exact ⟨fun _ => .inr (by omega), fun _ => ⟨_, rfl⟩⟩

/-- The manager reads every piece of a chunk, and the store a piece that its first bytes
do for. -/
theorem getChunkPiece_iff {store : NamedStore} {mgr : NamedDataMgr}
    (hstore : store.HoldsData crates files chunkId data)
    (hmgr : mgr.ServesChunk crates files chunkId data) (offset pieceSize : Nat) :
    (PieceRead (store.getChunkPiece crates files chunkId offset pieceSize) data offset
        pieceSize ∧
      PieceRead (mgr.getChunkPiece crates files chunkId offset pieceSize) data offset
        pieceSize ↔
      FirstBytesDo data offset pieceSize) ∧
    PieceRead (mgr.getChunkPiece crates files chunkId offset pieceSize) data offset
      pieceSize := by
  have hpiece := hmgr.pieceRead offset pieceSize
  exact ⟨⟨fun h => (hstore.pieceRead_iff offset pieceSize).mp h.1,
    fun h => ⟨(hstore.pieceRead_iff offset pieceSize).mpr h, hpiece⟩⟩, hpiece⟩

end Pieces

/-! ## The second byte of `abc` -/

open NamedDataMgr in
theorem abcStore_holdsData (files : LocalFiles) :
    abcStore.HoldsData sampleCrates files abcChunk [97, 98, 99] :=
  .completed (ChunkItem.newCompleted 0 abcChunk 3)
    ⟨LocalFsBackend.chunkFinalPath sampleCrates abcChunk, [97, 98, 99]⟩ (by decide) rfl
    (by decide) rfl

open NamedDataMgr in
/-- The store returns the first byte for the second one. -/
theorem abcStore_second_byte :
    abcStore.HoldsData sampleCrates (fun _ => none) abcChunk [97, 98, 99] ∧
      abcStore.getChunkPiece sampleCrates (fun _ => none) abcChunk 1 1 = .ok [97] ∧
      (single abcStore).getChunkPiece sampleCrates (fun _ => none) abcChunk 1 1 = .ok [98] ∧
      ¬ PieceRead (abcStore.getChunkPiece sampleCrates (fun _ => none) abcChunk 1 1)
        [97, 98, 99] 1 1 := by
  have hpiece : abcStore.getChunkPiece sampleCrates (fun _ => none) abcChunk 1 1 = .ok [97] := by
    decide
  refine ⟨abcStore_holdsData _, hpiece, by decide, ?_⟩
  unfold PieceRead
  rw [hpiece, if_pos (by decide)]
  decide

open NamedDataMgr in
theorem linkedStore_holdsData :
    linkedStore.HoldsData sampleCrates abcFiles abcChunk [97, 98, 99] := by
  refine .localLink (ChunkItem.newLocalFile 0 abcChunk 3 abcLink) abcLink abcFile
    (by decide) rfl ?_ rfl ?_ rfl
  · obtain ⟨hqcid, content, hfile, hhash, hrange⟩ := abcLink_intact
    obtain rfl := Option.some.inj hfile
    exact NamedStore.verifyLocalLink_eq_ok.mpr
      ⟨hqcid, rfl, hhash, fun range h => (hrange range h).1⟩
  · rintro range hrange
    obtain rfl := Option.some.inj hrange
    rfl

open NamedDataMgr in
theorem linkedPair_servesChunk :
    (pair linkedStore abcStore).ServesChunk sampleCrates abcFiles abcChunk [97, 98, 99] := by
  refine ⟨⟨"store-1", by decide, linkedStore, rfl, linkedStore_holdsData⟩, ?_⟩
  intro storeId _ store hfound
  rcases pair_stores hfound with rfl | rfl
  · exact .inl linkedStore_holdsData
  · exact .inl (abcStore_holdsData abcFiles)

open NamedDataMgr in
/-- The first two bytes of a linked chunk are read by both layers, its last byte only by
the manager. -/
theorem linkedStore_getChunkPiece :
    PieceRead (linkedStore.getChunkPiece sampleCrates abcFiles abcChunk 0 2)
        [97, 98, 99] 0 2 ∧
      PieceRead ((pair linkedStore abcStore).getChunkPiece sampleCrates abcFiles abcChunk 0 2)
        [97, 98, 99] 0 2 ∧
      PieceRead ((pair linkedStore abcStore).getChunkPiece sampleCrates abcFiles abcChunk 2 1)
        [97, 98, 99] 2 1 ∧
      ¬ PieceRead (linkedStore.getChunkPiece sampleCrates abcFiles abcChunk 2 1)
        [97, 98, 99] 2 1 := by
  have hfirst := getChunkPiece_iff linkedStore_holdsData linkedPair_servesChunk 0 2
  have hlast := getChunkPiece_iff linkedStore_holdsData linkedPair_servesChunk 2 1
  have hwrong : ¬ FirstBytesDo [97, 98, 99] 2 1 := by
    unfold FirstBytesDo
    decide
  obtain ⟨hstore, hmgr⟩ := hfirst.1.mpr (by
    unfold FirstBytesDo
    decide)
  exact ⟨hstore, hmgr, hlast.2, fun h => hwrong (hlast.1.mp ⟨h, hlast.2⟩)⟩

end NamedStore
end CyfsNdn

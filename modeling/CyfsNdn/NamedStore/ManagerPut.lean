import CyfsNdn.NamedStore.NamedDataMgr
import Mathlib.Logic.Function.Basic

/-!
# Putting chunks through the manager

A put goes to the store that the newest layout selects, which is also the store
that a lookup asks first.  `Takes` says when a put of a content leaves exactly this
content there, and `HoldsChunk` that it is there, with its row; no later put takes
it away.
-/

namespace CyfsNdn
namespace NamedStore

open NdnLib Relational

namespace NamedDataMgr

/-- `select_store_for_write`: the store that the newest layout selects. -/
def selectStoreForWrite (mgr : NamedDataMgr) (objId : ObjId) : Option (String × NamedStore) :=
  match mgr.versions with
  | [] => none
  | current :: _ =>
      match current.selectPrimaryTarget objId with
      | none => none
      | some storeId => (mgr.stores storeId).map fun store => (storeId, store)

/-- `put_chunk_by_reader`, where nothing fails on the way: the store always
answers. -/
def putChunkByReader (crates : Crates) (mgr : NamedDataMgr) (now : Nat) (chunkId : ChunkId)
    (chunkSize : Nat) (reader : ChunkSource) : NamedDataMgr × NdnResult ChunkWriteOutcome :=
  match mgr.selectStoreForWrite chunkId.toObjId with
  | none => (mgr, .error (.notFound "no available store for write"))
  | some (storeId, store) =>
      let put := store.putChunkByReader crates now none .committed chunkId chunkSize reader
      ({ mgr with stores := Function.update mgr.stores storeId (some put.1) },
        put.2.getD (.error (.internal "the store did not answer")))

/-- A call of the store that `select_store_for_write` selects. -/
def onStoreForWrite {α : Type} (mgr : NamedDataMgr) (objId : ObjId)
    (call : NamedStore → NamedStore × NdnResult α) : NamedDataMgr × NdnResult α :=
  match mgr.selectStoreForWrite objId with
  | none => (mgr, .error (.notFound "no available store for write"))
  | some (storeId, store) =>
      let called := call store
      ({ mgr with stores := Function.update mgr.stores storeId (some called.1) }, called.2)

/-- `put_object`. -/
def putObject (crates : Crates) (mgr : NamedDataMgr) (now : Nat) (objId : ObjId)
    (objData : String) : NamedDataMgr × NdnResult Unit :=
  mgr.onStoreForWrite objId fun store => store.putObject crates now objId objData

/-- `put_chunk`, where nothing fails on the way: the store always answers. -/
def putChunk (crates : Crates) (mgr : NamedDataMgr) (now : Nat) (chunkId : ChunkId)
    (chunkData : List UInt8) : NamedDataMgr × NdnResult ChunkWriteOutcome :=
  mgr.putChunkByReader crates now chunkId chunkData.length (ChunkSource.ofBytes chunkData)

/-- `add_chunk_by_link_to_local_file`. -/
def addChunkByLinkToLocalFile (crates : Crates) (mgr : NamedDataMgr) (now : Nat)
    (chunkId : ChunkId) (chunkSize : Nat) (chunkLocalInfo : ChunkLocalInfo) :
    NamedDataMgr × NdnResult Unit :=
  mgr.onStoreForWrite chunkId.toObjId fun store =>
    store.addChunkByLinkToLocalFile crates now chunkId chunkSize chunkLocalInfo

end NamedDataMgr

/-- The file of the chunk has these bytes, and the row of the chunk says that it is
complete. -/
def NamedStore.HoldsChunk (crates : Crates) (store : NamedStore) (chunkId : ChunkId)
    (content : List UInt8) : Prop :=
  (store.chunkFile crates chunkId).map ChunkFile.bytes = some content ∧
    (store.chunkRow crates chunkId).map ChunkItemRow.chunkState = some .completed

instance (crates : Crates) (store : NamedStore) (chunkId : ChunkId) (content : List UInt8) :
    Decidable (store.HoldsChunk crates chunkId content) :=
  inferInstanceAs (Decidable ((store.chunkFile crates chunkId).map ChunkFile.bytes =
    some content ∧ (store.chunkRow crates chunkId).map ChunkItemRow.chunkState =
      some .completed))

/-- A put keeps what a store holds: of another chunk because it writes elsewhere,
of the same chunk because the file is there. -/
theorem NamedStore.HoldsChunk.putChunkByReader {crates : Crates} (laws : crates.Lawful)
    {store : NamedStore} {chunkId chunkId' : ChunkId} {content : List UInt8}
    (h : store.HoldsChunk crates chunkId content) (now : Nat) (fault : Option FsFault)
    (dbWrite : DbWrite) (chunkSize : Nat) (reader : ChunkSource) :
    (store.putChunkByReader crates now fault dbWrite chunkId' chunkSize
      reader).1.HoldsChunk crates chunkId content := by
  unfold NamedStore.HoldsChunk at h ⊢
  by_cases hid : chunkId.toObjId = chunkId'.toObjId
  · rcases NamedStore.putChunkByReader_cases crates store now fault dbWrite chunkId' chunkSize
      reader with ⟨hsame, -⟩ | ⟨hnone, -⟩
    · rw [hsame]
      exact h
    · obtain ⟨file, hfile, -⟩ := Option.map_eq_some_iff.mp h.1
      unfold NamedStore.chunkFile LocalFsBackend.chunkFinalPath at hnone hfile
      rw [hid, hnone] at hfile
      cases hfile
  · obtain ⟨hfile, hrow⟩ := NamedStore.putChunkByReader_other laws store now fault dbWrite
      chunkSize reader hid
    rw [hfile, hrow]
    exact h

/-- A put of bytes with the right hash and length under an id that has no file
succeeds. -/
theorem NamedStore.holdsChunk_putChunkByReader {crates : Crates} {store : NamedStore}
    {chunkId : ChunkId} {content : List UInt8} (hstore : store.readOnly = false)
    (hbackend : store.backend.readOnly = false) (hfile : store.chunkFile crates chunkId = none)
    (hhashes : chunkId.Hashes crates content) (hsize : content.length ≤ chunkDefaultSize)
    (now : Nat) :
    let put := store.putChunkByReader crates now none .committed chunkId content.length
      (ChunkSource.ofBytes content)
    put.2 = some (.ok .written) ∧ put.1.HoldsChunk crates chunkId content := by
  have hprepare : LocalFsBackend.prepareChunk crates none chunkId content.length
      (ChunkSource.ofBytes content) = .ok content := by
    unfold ChunkId.Hashes ChunkHasher.calcChunkId at hhashes
    unfold LocalFsBackend.prepareChunk
    cases hmethod : chunkId.chunkType.toHashMethod with
    | error e =>
        rw [hmethod] at hhashes
        cases hhashes
    | ok hashMethod =>
        rw [hmethod] at hhashes
        dsimp only at hhashes
        cases hhasher : HashHelper.createHasher hashMethod with
        | error e =>
            rw [hhasher] at hhashes
            cases hhashes
        | ok hasher =>
            rw [hhasher] at hhashes
            dsimp only at hhashes
            simp [LocalFsBackend.copyAndHash, ChunkSource.ofBytes, LocalFsBackend.verifyHash,
              hhasher, hhashes]
  have hopen : store.backend.openChunkWriter crates none chunkId content.length
      (ChunkSource.ofBytes content) =
        ({ store.backend with
            chunks := store.backend.chunks.insertOrReplace
              ⟨LocalFsBackend.chunkFinalPath crates chunkId, content⟩ }, .ok .written) := by
    have hensure : store.backend.ensureWritable = .ok () := by
      unfold LocalFsBackend.ensureWritable
      rw [hbackend]
      rfl
    unfold LocalFsBackend.openChunkWriter
    rw [hensure, show store.backend.chunks.find? (LocalFsBackend.chunkFinalPath crates
      chunkId) = none from hfile]
    simp [hprepare]
  intro put
  have hput : put = ({ store with
      backend := { store.backend with
        chunks := store.backend.chunks.insertOrReplace
          ⟨LocalFsBackend.chunkFinalPath crates chunkId, content⟩ }
      db := store.db.setChunkItem crates
        (ChunkItem.newCompleted now chunkId content.length) }, some (.ok .written)) := by
    show store.putChunkByReader crates now none .committed chunkId content.length
      (ChunkSource.ofBytes content) = _
    have hensure : store.ensureWritable = .ok () := by
      unfold NamedStore.ensureWritable
      rw [hstore]
      rfl
    unfold NamedStore.putChunkByReader
    rw [hensure, hopen]
    dsimp only
    rw [if_neg (by omega)]
  rw [hput]
  refine ⟨rfl, ?_, ?_⟩
  · unfold NamedStore.chunkFile
    rw [Table.find?_insertOrReplace, if_pos rfl]
    rfl
  · unfold NamedStore.chunkRow
    have hrow : (store.db.setChunkItem crates (ChunkItem.newCompleted now chunkId
        content.length)).chunkItems.find? (chunkId.toString crates) = some _ :=
      NamedStore.find?_setChunkItem_self crates store.db _
    rw [hrow]
    rfl

namespace NamedDataMgr

/-- The store that takes the chunk holds it. -/
def HoldsChunk (crates : Crates) (mgr : NamedDataMgr) (chunkId : ChunkId)
    (content : List UInt8) : Prop :=
  ∃ selected, mgr.selectStoreForWrite chunkId.toObjId = some selected ∧
    selected.2.HoldsChunk crates chunkId content

/-- A put of the content under the id would leave exactly this content: the store
has no file of the chunk and the content has the hash, or the store holds it. -/
def Takes (crates : Crates) (mgr : NamedDataMgr) (chunkId : ChunkId)
    (content : List UInt8) : Prop :=
  ∃ selected, mgr.selectStoreForWrite chunkId.toObjId = some selected ∧
    selected.2.readOnly = false ∧ selected.2.backend.readOnly = false ∧
      ((selected.2.chunkFile crates chunkId = none ∧ chunkId.Hashes crates content) ∨
        selected.2.HoldsChunk crates chunkId content)

section Puts

variable {crates : Crates} {mgr : NamedDataMgr} {chunkId chunkId' : ChunkId}
  {content : List UInt8}

/-- What the store holds a reader delivers. -/
theorem HoldsChunk.openChunkReader (h : mgr.HoldsChunk crates chunkId content)
    (files : LocalFiles) :
    mgr.openChunkReader crates files chunkId 0 = .ok (content, content.length) := by
  obtain ⟨⟨storeId, store⟩, hselect, hfileMap, hrowMap⟩ := h
  obtain ⟨file, hfile, rfl⟩ : ∃ file, store.chunkFile crates chunkId = some file ∧
    file.bytes = content := Option.map_eq_some_iff.mp hfileMap
  obtain ⟨row, hrow, hstate⟩ : ∃ row, store.chunkRow crates chunkId = some row ∧
    row.chunkState = .completed := Option.map_eq_some_iff.mp hrowMap
  have hitem : ∃ item, store.db.getChunkItem crates chunkId = .ok item ∧
      item.chunkState = .completed := by
    unfold NamedLocalStoreDb.getChunkItem
    rw [show store.db.chunkItems.find? (chunkId.toString crates) = some row from hrow]
    simp only [NamedLocalStoreDb.chunkStateOfRow, hstate]
    exact ⟨_, rfl, rfl⟩
  have hread : store.openChunkReader crates files chunkId 0 =
      .ok (file.bytes, file.bytes.length) := by
    obtain ⟨item, hitem, hcompleted⟩ := hitem
    unfold NamedStore.openChunkReader LocalFsBackend.openChunkReader
    rw [hitem]
    simp only [hcompleted]
    rw [show store.backend.chunks.find? (LocalFsBackend.chunkFinalPath crates chunkId) =
      some file from hfile]
    simp
  unfold selectStoreForWrite at hselect
  cases hversions : mgr.versions with
  | nil =>
      rw [hversions] at hselect
      cases hselect
  | cons current older =>
      rw [hversions] at hselect
      dsimp only at hselect
      cases htarget : current.selectPrimaryTarget chunkId.toObjId with
      | none =>
          rw [htarget] at hselect
          cases hselect
      | some target =>
          rw [htarget] at hselect
          obtain ⟨found, hfound, heq⟩ := Option.map_eq_some_iff.mp hselect
          obtain ⟨rfl, rfl⟩ := Prod.mk.inj heq
          unfold NamedDataMgr.openChunkReader
          rw [hversions, if_neg (by simp)]
          simp only [targetStores, htarget]
          rw [if_neg (by simp)]
          unfold openChunkReaderFrom
          rw [hfound]
          dsimp only
          rw [hread]

/-- The selection does not depend on what the stores hold. -/
theorem selectStoreForWrite_update (objId : ObjId) (storeId : String) (store : NamedStore)
    (hstore : (mgr.stores storeId).isSome) :
    ({ mgr with stores := Function.update mgr.stores storeId (some store) } :
        NamedDataMgr).selectStoreForWrite objId =
      (mgr.selectStoreForWrite objId).map fun selected =>
        if selected.1 = storeId then (storeId, store) else selected := by
  unfold selectStoreForWrite
  cases hversions : mgr.versions with
  | nil => rfl
  | cons current older =>
      dsimp only
      cases current.selectPrimaryTarget objId with
      | none => rfl
      | some target =>
          dsimp only
          by_cases htarget : target = storeId
          · subst htarget
            obtain ⟨old, hold⟩ := Option.isSome_iff_exists.mp hstore
            simp [hold]
          · rw [Function.update_of_ne htarget]
            cases mgr.stores target with
            | none => rfl
            | some old => simp [htarget]

theorem stores_of_selectStoreForWrite {objId : ObjId} {selected : String × NamedStore}
    (h : mgr.selectStoreForWrite objId = some selected) :
    mgr.stores selected.1 = some selected.2 := by
  unfold selectStoreForWrite at h
  split at h
  · cases h
  · split at h
    · cases h
    · obtain ⟨store, hstore, rfl⟩ := Option.map_eq_some_iff.mp h
      exact hstore

theorem HoldsChunk.putChunkByReader (laws : crates.Lawful)
    (h : mgr.HoldsChunk crates chunkId content) (now chunkSize : Nat)
    (reader : ChunkSource) :
    (mgr.putChunkByReader crates now chunkId' chunkSize reader).1.HoldsChunk crates chunkId
      content := by
  obtain ⟨selected, hselect, hholds⟩ := h
  unfold NamedDataMgr.putChunkByReader
  cases hput : mgr.selectStoreForWrite chunkId'.toObjId with
  | none => exact ⟨selected, hselect, hholds⟩
  | some target =>
      obtain ⟨storeId, store⟩ := target
      have hstore := stores_of_selectStoreForWrite hput
      dsimp only at hstore ⊢
      unfold HoldsChunk
      rw [selectStoreForWrite_update _ _ _ (by rw [hstore]; rfl), hselect, Option.map_some]
      refine ⟨_, rfl, ?_⟩
      by_cases hid : selected.1 = storeId
      · rw [if_pos hid]
        have hsame := stores_of_selectStoreForWrite hselect
        rw [hid, hstore] at hsame
        obtain rfl := Option.some.inj hsame
        exact NamedStore.HoldsChunk.putChunkByReader laws hholds now none .committed chunkSize
          reader
      · rw [if_neg hid]
        exact hholds

/-- A put of what the store takes succeeds, and then the store holds it. -/
theorem Takes.putChunkByReader (h : mgr.Takes crates chunkId content)
    (hsize : content.length ≤ chunkDefaultSize) (now : Nat) :
    let put := mgr.putChunkByReader crates now chunkId content.length
      (ChunkSource.ofBytes content)
    (∃ outcome, put.2 = .ok outcome) ∧ put.1.HoldsChunk crates chunkId content := by
  obtain ⟨⟨storeId, store⟩, hselect, hwritable, hbackend, htakes⟩ := h
  have hstore := stores_of_selectStoreForWrite hselect
  have hone : ∃ outcome, (store.putChunkByReader crates now none .committed chunkId
        content.length (ChunkSource.ofBytes content)).2 = some (.ok outcome) ∧
      (store.putChunkByReader crates now none .committed chunkId content.length
        (ChunkSource.ofBytes content)).1.HoldsChunk crates chunkId content := by
    rcases htakes with ⟨hfile, hhashes⟩ | hholds
    · obtain ⟨hanswer, hafter⟩ := NamedStore.holdsChunk_putChunkByReader hwritable hbackend
        hfile hhashes hsize now
      exact ⟨.written, hanswer, hafter⟩
    · -- The file is there, and nothing is written.
      obtain ⟨file, hfile, -⟩ : ∃ file, store.chunkFile crates chunkId = some file ∧
        file.bytes = content := Option.map_eq_some_iff.mp hholds.1
      have hopen : store.backend.openChunkWriter crates none chunkId content.length
          (ChunkSource.ofBytes content) = (store.backend, .ok .alreadyExists) := by
        have hensure : store.backend.ensureWritable = .ok () := by
          unfold LocalFsBackend.ensureWritable
          rw [hbackend]
          rfl
        unfold LocalFsBackend.openChunkWriter
        rw [hensure, show store.backend.chunks.find? (LocalFsBackend.chunkFinalPath crates
          chunkId) = some file from hfile]
        rfl
      have hput : store.putChunkByReader crates now none .committed chunkId content.length
          (ChunkSource.ofBytes content) = (store, some (.ok .alreadyExists)) := by
        have hensure : store.ensureWritable = .ok () := by
          unfold NamedStore.ensureWritable
          rw [hwritable]
          rfl
        unfold NamedStore.putChunkByReader
        rw [hensure, hopen]
        dsimp only
        rw [if_neg (by omega)]
      rw [hput]
      exact ⟨.alreadyExists, rfl, hholds⟩
  obtain ⟨outcome, hanswer, hafter⟩ := hone
  unfold NamedDataMgr.putChunkByReader
  rw [hselect]
  dsimp only
  refine ⟨⟨outcome, ?_⟩, ?_⟩
  · rw [hanswer]
    rfl
  · unfold HoldsChunk
    rw [selectStoreForWrite_update _ _ _ (by rw [hstore]; rfl), hselect, Option.map_some,
      if_pos rfl]
    exact ⟨_, rfl, hafter⟩

end Puts

end NamedDataMgr

end NamedStore
end CyfsNdn

import CyfsNdn.NamedStore.StoreDb
import CyfsNdn.NamedStore.LocalFsBackend

/-!
# A store: the database and the backend

`NamedStore` of `named_store/src/named_store.rs`.  The bytes of a chunk live in
the backend and the row that makes it visible lives in the database; the two are
written one after the other and nothing makes them one transaction.

The surroundings of a call are arguments: the time, the file system call of the
backend that fails, and what becomes of the write to the database, which may also
not happen because the process stops.  The external files that chunks can be
linked to are a function from paths to contents.
-/

namespace CyfsNdn
namespace NamedStore

open NdnLib Relational

/-- The files outside the store, by path. -/
abbrev LocalFiles := String → Option (List UInt8)

/-- What becomes of the write to the database that ends a call. -/
inductive DbWrite where
  | committed
  | failed
  | stopped
  deriving DecidableEq, Repr

/-- `NamedStore`. -/
structure NamedStore where
  readOnly : Bool
  db : NamedLocalStoreDb
  backend : LocalFsBackend

/-- `GcReport`. -/
structure GcReport where
  freedBytes : Nat
  evictedObjects : Nat
  evictedChunks : Nat
  skippedProtected : Nat
  deriving DecidableEq, Repr

namespace NamedStore

/-- `from_config` on an empty directory. -/
def fromConfig (readOnly : Bool) : NamedStore where
  readOnly := readOnly
  db := NamedLocalStoreDb.empty
  backend := ⟨readOnly, Table.empty⟩

/-- `ensure_writable`. -/
def ensureWritable (store : NamedStore) : NdnResult Unit :=
  if store.readOnly then .error (.permissionDenied "named store is read-only") else .ok ()

/-! ## Objects -/

/-- `query_object_by_id`: the text of an object that is there. -/
def queryObjectById (crates : Crates) (store : NamedStore) (objId : ObjId) : Option String :=
  match store.db.getObject crates objId with
  | .ok (_, objStr) => some objStr
  | .error _ => none

/-- `get_object`. -/
def getObject (crates : Crates) (store : NamedStore) (objId : ObjId) : NdnResult String :=
  if objId.isChunk then .error (.invalidObjType (objId.toString crates))
  else
    match store.db.getObject crates objId with
    | .ok (_, objStr) => .ok objStr
    | .error (.dbError msg) =>
        if msg = "Query returned no rows" then .error (.notFound (objId.toString crates))
        else .error (.dbError msg)
    | .error e => .error e

/-- `put_object`. -/
def putObject (crates : Crates) (store : NamedStore) (now : Nat) (objId : ObjId)
    (objData : String) : NamedStore × NdnResult Unit :=
  match store.ensureWritable with
  | .error e => (store, .error e)
  | .ok () =>
      ({ store with db := store.db.setObject crates now objId objId.objType objData }, .ok ())

/-! ## Chunks -/

/-- `query_chunk_state`. -/
def queryChunkState (crates : Crates) (store : NamedStore) (chunkId : ChunkId) :
    ChunkStoreState × Nat :=
  match store.db.getChunkItem crates chunkId with
  | .ok chunkItem => (chunkItem.chunkState, chunkItem.chunkSize)
  | .error _ => (.notExist, 0)

/-- `have_chunk`. -/
def haveChunk (crates : Crates) (store : NamedStore) (chunkId : ChunkId) : Bool :=
  (store.queryChunkState crates chunkId).1.canOpenReader

/-- `verify_local_link`: the content of the linked file if it still has the quick
hash that was recorded. -/
def verifyLocalLink (crates : Crates) (files : LocalFiles) (chunkId : ChunkId)
    (info : ChunkLocalInfo) : NdnResult (List UInt8) :=
  if info.qcid = "" then
    .error (.invalidLink ("local link missing qcid for " ++ chunkId.toString crates))
  else
    match files info.path with
    | none => .error (.ioError "No such file or directory (os error 2)")
    | some content =>
        if (info.range.any fun range => content.length < range.2) = true then
          .error (.invalidLink ("link range exceeds file length: " ++ chunkId.toString crates))
        else
          match calcQuickHash crates content with
          | .error e => .error e
          | .ok qcid =>
              if qcid.toString crates ≠ info.qcid then
                .error (.verifyError ("qcid mismatch for " ++ chunkId.toString crates))
              else .ok content

/-- `open_local_link_reader`: the part of the linked file from the offset on, and
the size of the chunk. -/
def openLocalLinkReader (crates : Crates) (files : LocalFiles) (chunkId : ChunkId)
    (chunkItem : ChunkItem) (localInfo : ChunkLocalInfo) (offset : Nat) :
    NdnResult (List UInt8 × Nat) :=
  match verifyLocalLink crates files chunkId localInfo with
  | .error e => .error e
  | .ok content =>
      match localInfo.range with
      | some range =>
          if range.2 - range.1 ≠ chunkItem.chunkSize then
            .error (.invalidLink ("link range mismatch: expected " ++
              toString chunkItem.chunkSize ++ " got " ++ toString (range.2 - range.1)))
          else if range.2 - range.1 < offset then
            .error (.offsetTooLarge (chunkId.toString crates))
          else
            .ok ((content.drop (range.1 + offset)).take (range.2 - range.1 - offset),
              chunkItem.chunkSize)
      | none =>
          if chunkItem.chunkSize < offset then
            .error (.offsetTooLarge (chunkId.toString crates))
          else
            .ok ((content.drop offset).take (chunkItem.chunkSize - offset),
              chunkItem.chunkSize)

/-- `open_chunk_reader`. -/
def openChunkReader (crates : Crates) (files : LocalFiles) (store : NamedStore)
    (chunkId : ChunkId) (offset : Nat) : NdnResult (List UInt8 × Nat) :=
  match store.db.getChunkItem crates chunkId with
  | .error e => .error e
  | .ok chunkItem =>
      match chunkItem.chunkState with
      | .completed => store.backend.openChunkReader crates chunkId offset
      | .localLink localInfo =>
          openLocalLinkReader crates files chunkId chunkItem localInfo offset
      | other => .error (.internal ("chunk " ++ chunkId.toString crates ++
          " state not support open reader! state:" ++ other.toStr))

/-- `remove_chunk`: first the file, then the row. -/
def removeChunk (crates : Crates) (store : NamedStore) (fault : Option FsFault)
    (dbWrite : DbWrite) (chunkId : ChunkId) : NamedStore × Option (NdnResult Unit) :=
  match store.ensureWritable with
  | .error e => (store, some (.error e))
  | .ok () =>
      match store.backend.removeChunk crates fault chunkId with
      | (backend, .error e) => ({ store with backend := backend }, some (.error e))
      | (backend, .ok ()) =>
          match dbWrite with
          | .committed =>
              ({ store with backend := backend, db := store.db.removeChunk crates chunkId },
                some (.ok ()))
          | .failed => ({ store with backend := backend }, some (.error (.dbError "")))
          | .stopped => ({ store with backend := backend }, none)

/-- `remove_object`; nothing fails and nothing stops the process. -/
def removeObject (crates : Crates) (store : NamedStore) (objId : ObjId) :
    NamedStore × Option (NdnResult Unit) :=
  match store.ensureWritable with
  | .error e => (store, some (.error e))
  | .ok () =>
      if objId.isChunk then
        store.removeChunk crates none .committed (ChunkId.fromObjId objId)
      else ({ store with db := store.db.removeObject crates objId }, some (.ok ()))

/-- `add_chunk_by_link_to_local_file`. -/
def addChunkByLinkToLocalFile (crates : Crates) (store : NamedStore) (now : Nat)
    (chunkId : ChunkId) (chunkSize : Nat) (chunkLocalInfo : ChunkLocalInfo) :
    NamedStore × NdnResult Unit :=
  match store.ensureWritable with
  | .error e => (store, .error e)
  | .ok () =>
      match chunkLocalInfo.range.filter fun range => range.2 - range.1 ≠ chunkSize with
      | some range => (store, .error (.invalidParam ("range size mismatch: expected " ++
          toString chunkSize ++ " got " ++ toString (range.2 - range.1))))
      | none =>
          ({ store with
              db := store.db.setChunkItem crates
                (ChunkItem.newLocalFile now chunkId chunkSize chunkLocalInfo) },
            .ok ())

/-- `put_chunk_by_reader`: first the file, then, if it was written just now, the
row. -/
def putChunkByReader (crates : Crates) (store : NamedStore) (now : Nat)
    (fault : Option FsFault) (dbWrite : DbWrite) (chunkId : ChunkId) (chunkSize : Nat)
    (reader : ChunkSource) : NamedStore × Option (NdnResult ChunkWriteOutcome) :=
  match store.ensureWritable with
  | .error e => (store, some (.error e))
  | .ok () =>
      if chunkDefaultSize < chunkSize then
        (store, some (.error (.invalidParam ("chunk " ++ chunkId.toString crates ++ " size " ++
          toString chunkSize ++ " exceeds CHUNK_DEFAULT_SIZE (" ++ toString chunkDefaultSize ++
          "), use SameAs ChunkList for large data"))))
      else
        match store.backend.openChunkWriter crates fault chunkId chunkSize reader with
        | (backend, .error e) => ({ store with backend := backend }, some (.error e))
        | (backend, .ok .alreadyExists) =>
            ({ store with backend := backend }, some (.ok .alreadyExists))
        | (backend, .ok .written) =>
            match dbWrite with
            | .committed =>
                ({ store with
                    backend := backend
                    db := store.db.setChunkItem crates
                      (ChunkItem.newCompleted now chunkId chunkSize) },
                  some (.ok .written))
            | .failed => ({ store with backend := backend }, some (.error (.dbError "")))
            | .stopped => ({ store with backend := backend }, none)

/-- `put_chunk`. -/
def putChunk (crates : Crates) (store : NamedStore) (now : Nat) (fault : Option FsFault)
    (dbWrite : DbWrite) (chunkId : ChunkId) (chunkData : List UInt8) :
    NamedStore × Option (NdnResult Unit) :=
  let put := store.putChunkByReader crates now fault dbWrite chunkId chunkData.length
    (ChunkSource.ofBytes chunkData)
  (put.1, put.2.map fun result => result.map fun _ => ())

/-- The chunk item that `add_chunk_by_same_as` writes. -/
def sameAsItem (now : Nat) (bigChunkId : ChunkId) (bigChunkSize : Nat)
    (chunkListId : ObjId) : ChunkItem where
  chunkId := bigChunkId
  chunkSize := bigChunkSize
  chunkState := .sameAs chunkListId
  createTime := now
  updateTime := now

/-- `add_chunk_by_same_as`. -/
def addChunkBySameAs (crates : Crates) (store : NamedStore) (now : Nat)
    (bigChunkId : ChunkId) (bigChunkSize : Nat) (chunkListId : ObjId) :
    NamedStore × NdnResult Unit :=
  match store.ensureWritable with
  | .error e => (store, .error e)
  | .ok () =>
      ({ store with
          db := store.db.setChunkItem crates
            (sameAsItem now bigChunkId bigChunkSize chunkListId) },
        .ok ())

/-! ## Garbage collection -/

/-- The number of candidates that `gc_round` lists at once. -/
def gcBatchSize : Nat := 100

/-- `gc_round` for one candidate; a failure to remove the file is ignored. -/
def evictCandidate (crates : Crates) (now : Nat) (fault : Option FsFault)
    (store : NamedStore) (report : GcReport) (objIdStr : String) : NamedStore × GcReport :=
  let evicted := store.db.tryEvictObject now objIdStr
  let freed := evicted.2
  if 0 < freed then
    match ObjId.new crates objIdStr with
    | .ok objId =>
        if objId.isChunk then
          ({ store with
              db := evicted.1
              backend :=
                (store.backend.removeChunk crates fault (ChunkId.fromObjId objId)).1 },
            { report with
              evictedChunks := report.evictedChunks + 1
              freedBytes := report.freedBytes + freed })
        else
          ({ store with db := evicted.1 },
            { report with
              evictedObjects := report.evictedObjects + 1
              freedBytes := report.freedBytes + freed })
    | .error _ =>
        ({ store with db := evicted.1 },
          { report with freedBytes := report.freedBytes + freed })
  else
    ({ store with db := evicted.1 },
      { report with skippedProtected := report.skippedProtected + 1 })

/-- The `for` loop of `gc_round`; the flag says that it returned early. -/
def evictCandidates (crates : Crates) (now : Nat) (fault : Option FsFault)
    (targetBytes : Nat) : NamedStore → GcReport → List String → (NamedStore × GcReport) × Bool
  | store, report, [] => ((store, report), false)
  | store, report, objIdStr :: rest =>
      let next := evictCandidate crates now fault store report objIdStr
      if 0 < targetBytes ∧ targetBytes ≤ next.2.freedBytes then (next, true)
      else evictCandidates crates now fault targetBytes next.1 next.2 rest

/-- The outer loop of `gc_round`, at most `fuel` times. -/
def gcRoundLoop (crates : Crates) (now : Nat) (fault : Option FsFault) (targetBytes : Nat) :
    Nat → NamedStore → GcReport → NamedStore × GcReport
  | 0, store, report => (store, report)
  | fuel + 1, store, report =>
      let candidates := (store.db.listGcCandidates gcBatchSize).map Prod.fst
      if candidates = [] then (store, report)
      else
        let batch := evictCandidates crates now fault targetBytes store report candidates
        if batch.2 ∨ targetBytes = 0 then batch.1
        else gcRoundLoop crates now fault targetBytes fuel batch.1.1 batch.1.2

/-- `gc_round`.  Every pass takes at least one row out of the candidates, so
there are at most as many passes as rows. -/
def gcRound (crates : Crates) (store : NamedStore) (now : Nat) (fault : Option FsFault)
    (targetBytes : Nat) : NamedStore × GcReport :=
  gcRoundLoop crates now fault targetBytes (store.db.objects.rows.length + 1) store
    ⟨0, 0, 0, 0⟩

/-- `forced_gc_until`. -/
def forcedGcUntil (crates : Crates) (store : NamedStore) (now : Nat) (fault : Option FsFault)
    (targetBytes : Nat) : NamedStore × NdnResult Nat :=
  let round := store.gcRound crates now fault targetBytes
  if targetBytes ≤ round.2.freedBytes then (round.1, .ok round.2.freedBytes)
  else
    (round.1, .error (.ioError ("ENOSPC: freed " ++ toString round.2.freedBytes ++
      " bytes but needed " ++ toString targetBytes ++
      "; no class-0 owned bytes left to evict")))

/-! ## Runs -/

/-- The calls of a store that write, with what goes wrong during the call.
`gcApi` is a call that the store hands to its database unchanged: `pin`, `unpin`,
`unpin_owner`, `fs_acquire`, `fs_release`, `fs_release_inode` or `apply_edge`. -/
inductive StoreOp where
  | putObject (objId : ObjId) (objData : String)
  | removeObject (objId : ObjId)
  | putChunk (fault : Option FsFault) (dbWrite : DbWrite) (chunkId : ChunkId)
      (chunkData : List UInt8)
  | putChunkByReader (fault : Option FsFault) (dbWrite : DbWrite) (chunkId : ChunkId)
      (chunkSize : Nat) (reader : ChunkSource)
  | removeChunk (fault : Option FsFault) (dbWrite : DbWrite) (chunkId : ChunkId)
  | addChunkByLinkToLocalFile (chunkId : ChunkId) (chunkSize : Nat)
      (chunkLocalInfo : ChunkLocalInfo)
  | addChunkBySameAs (bigChunkId : ChunkId) (bigChunkSize : Nat) (chunkListId : ObjId)
  | gcApi (op : DbOp)
  | gcRound (fault : Option FsFault) (targetBytes : Nat)
  deriving DecidableEq

/-- A call together with the time at which it runs. -/
structure StoreCall where
  now : Nat
  op : StoreOp
  deriving DecidableEq

/-- The effect of one call. -/
def step (crates : Crates) (store : NamedStore) (call : StoreCall) : NamedStore :=
  match call.op with
  | .putObject objId objData => (store.putObject crates call.now objId objData).1
  | .removeObject objId => (store.removeObject crates objId).1
  | .putChunk fault dbWrite chunkId chunkData =>
      (store.putChunk crates call.now fault dbWrite chunkId chunkData).1
  | .putChunkByReader fault dbWrite chunkId chunkSize reader =>
      (store.putChunkByReader crates call.now fault dbWrite chunkId chunkSize reader).1
  | .removeChunk fault dbWrite chunkId => (store.removeChunk crates fault dbWrite chunkId).1
  | .addChunkByLinkToLocalFile chunkId chunkSize chunkLocalInfo =>
      (store.addChunkByLinkToLocalFile crates call.now chunkId chunkSize chunkLocalInfo).1
  | .addChunkBySameAs bigChunkId bigChunkSize chunkListId =>
      (store.addChunkBySameAs crates call.now bigChunkId bigChunkSize chunkListId).1
  | .gcApi op => { store with db := store.db.step crates ⟨call.now, op⟩ }
  | .gcRound fault targetBytes => (store.gcRound crates call.now fault targetBytes).1

/-! ## The database after a call -/

section Frames

variable (crates : Crates) (store : NamedStore) (now : Nat)

/-- A put of a chunk writes at most its row. -/
theorem putChunkByReader_db (fault : Option FsFault) (dbWrite : DbWrite) (chunkId : ChunkId)
    (chunkSize : Nat) (reader : ChunkSource) :
    (store.putChunkByReader crates now fault dbWrite chunkId chunkSize reader).1.db =
        store.db ∨
      (store.putChunkByReader crates now fault dbWrite chunkId chunkSize reader).1.db =
        store.db.setChunkItem crates (ChunkItem.newCompleted now chunkId chunkSize) := by
  unfold putChunkByReader
  split
  · exact Or.inl rfl
  · split_ifs
    · exact Or.inl rfl
    · split
      · exact Or.inl rfl
      · exact Or.inl rfl
      · cases dbWrite
        · exact Or.inr rfl
        · exact Or.inl rfl
        · exact Or.inl rfl

theorem putObject_db (objId : ObjId) (objData : String) :
    (store.putObject crates now objId objData).1.db = store.db ∨
      (store.putObject crates now objId objData).1.db =
        store.db.setObject crates now objId objId.objType objData := by
  unfold putObject
  split
  · exact Or.inl rfl
  · exact Or.inr rfl

theorem addChunkByLinkToLocalFile_db (chunkId : ChunkId) (chunkSize : Nat)
    (chunkLocalInfo : ChunkLocalInfo) :
    (store.addChunkByLinkToLocalFile crates now chunkId chunkSize chunkLocalInfo).1.db =
        store.db ∨
      (store.addChunkByLinkToLocalFile crates now chunkId chunkSize chunkLocalInfo).1.db =
        store.db.setChunkItem crates
          (ChunkItem.newLocalFile now chunkId chunkSize chunkLocalInfo) := by
  unfold addChunkByLinkToLocalFile
  split
  · exact Or.inl rfl
  · split
    · exact Or.inl rfl
    · exact Or.inr rfl

theorem addChunkBySameAs_db (bigChunkId : ChunkId) (bigChunkSize : Nat)
    (chunkListId : ObjId) :
    (store.addChunkBySameAs crates now bigChunkId bigChunkSize chunkListId).1.db = store.db ∨
      (store.addChunkBySameAs crates now bigChunkId bigChunkSize chunkListId).1.db =
        store.db.setChunkItem crates (sameAsItem now bigChunkId bigChunkSize chunkListId) := by
  unfold addChunkBySameAs
  split
  · exact Or.inl rfl
  · exact Or.inr rfl

end Frames

/-! ## The file and the row of a chunk -/

/-- The file of a chunk. -/
def chunkFile (crates : Crates) (store : NamedStore) (chunkId : ChunkId) : Option ChunkFile :=
  store.backend.chunks.find? (LocalFsBackend.chunkFinalPath crates chunkId)

/-- The row of a chunk. -/
def chunkRow (crates : Crates) (store : NamedStore) (chunkId : ChunkId) :
    Option ChunkItemRow :=
  store.db.chunkItems.find? (chunkId.toString crates)

/-- A put of a chunk changes nothing, or it adds the file and, if the write to
the database is made, the row. -/
theorem putChunkByReader_cases (crates : Crates) (store : NamedStore) (now : Nat)
    (fault : Option FsFault) (dbWrite : DbWrite) (chunkId : ChunkId) (chunkSize : Nat)
    (reader : ChunkSource) :
    let put := store.putChunkByReader crates now fault dbWrite chunkId chunkSize reader
    (put.1 = store ∧ ∀ outcome, put.2 = some (.ok outcome) →
        ∃ file, store.chunkFile crates chunkId = some file) ∨
      store.chunkFile crates chunkId = none ∧ chunkId.Hashes crates reader.bytes ∧
        reader.bytes.length = chunkSize ∧ chunkSize ≤ chunkDefaultSize ∧
        put.1.backend =
          { store.backend with
            chunks := store.backend.chunks.insertOrReplace
              ⟨LocalFsBackend.chunkFinalPath crates chunkId, reader.bytes⟩ } ∧
        ((put.1.db = store.db ∧ ∀ outcome, put.2 ≠ some (.ok outcome)) ∨
          put.1.db = store.db.setChunkItem crates
            (ChunkItem.newCompleted now chunkId chunkSize)) := by
  intro put
  have hput : put =
      store.putChunkByReader crates now fault dbWrite chunkId chunkSize reader := rfl
  clear_value put
  subst hput
  unfold putChunkByReader
  split
  · exact Or.inl ⟨rfl, by simp⟩
  · split_ifs with hsize
    · exact Or.inl ⟨rfl, by simp⟩
    · have hwriter := LocalFsBackend.openChunkWriter_cases crates store.backend fault chunkId
        chunkSize reader
      split
      · next backend e hopen =>
        rw [hopen] at hwriter
        obtain ⟨rfl, -, -⟩ | ⟨hwritten, -⟩ := hwriter
        · exact Or.inl ⟨rfl, by simp⟩
        · cases hwritten
      · next backend hopen =>
        rw [hopen] at hwriter
        obtain ⟨rfl, -, hfile⟩ | ⟨hwritten, -⟩ := hwriter
        · exact Or.inl ⟨rfl, fun _ _ => hfile rfl⟩
        · cases hwritten
      · next backend hopen =>
        rw [hopen] at hwriter
        obtain ⟨-, hnot, -⟩ | ⟨-, rfl, hnone, hhashes, hlength⟩ := hwriter
        · exact absurd rfl hnot
        · refine Or.inr ⟨hnone, hhashes, hlength, by omega, ?_⟩
          cases dbWrite with
          | committed => exact ⟨rfl, Or.inr rfl⟩
          | failed => exact ⟨rfl, Or.inl ⟨rfl, by simp⟩⟩
          | stopped => exact ⟨rfl, Or.inl ⟨rfl, by simp⟩⟩

/-- A removal of a chunk changes nothing, or it takes the file away and, if the
write to the database is made, the row. -/
theorem removeChunk_cases (crates : Crates) (store : NamedStore) (fault : Option FsFault)
    (dbWrite : DbWrite) (chunkId : ChunkId) :
    let removed := store.removeChunk crates fault dbWrite chunkId
    removed.1 = store ∨
      fault ≠ some .removeFile ∧
        removed.1.backend =
          { store.backend with
            chunks := store.backend.chunks.deleteKey
              (LocalFsBackend.chunkFinalPath crates chunkId) } ∧
        ((dbWrite ≠ .committed ∧ removed.1.db = store.db) ∨
          removed.1.db = store.db.removeChunk crates chunkId) := by
  intro removed
  have hremoved : removed = store.removeChunk crates fault dbWrite chunkId := rfl
  clear_value removed
  subst hremoved
  unfold removeChunk
  split
  · exact Or.inl rfl
  · rcases LocalFsBackend.removeChunk_cases crates store.backend fault chunkId with
      ⟨e, hfailed⟩ | ⟨hfault, hdeleted⟩
    · rw [hfailed]
      exact Or.inl rfl
    · rw [hdeleted]
      refine Or.inr ⟨hfault, ?_⟩
      cases dbWrite with
      | committed => exact ⟨rfl, Or.inr rfl⟩
      | failed => exact ⟨rfl, Or.inl ⟨by simp, rfl⟩⟩
      | stopped => exact ⟨rfl, Or.inl ⟨by simp, rfl⟩⟩

/-- The row that was just written. -/
theorem find?_setChunkItem_self (crates : Crates) (db : NamedLocalStoreDb)
    (item : ChunkItem) :
    (db.setChunkItem crates item).chunkItems.find? (item.chunkId.toString crates) =
      some (NamedLocalStoreDb.chunkItemRow crates item) :=
  (Table.find?_insertOrReplace _ _ _).trans (if_pos rfl)

section ChunkView

variable {crates : Crates} (laws : crates.Lawful) {chunkId chunkId' : ChunkId}

include laws

theorem chunkFinalPath_ne (hne : chunkId'.toObjId ≠ chunkId.toObjId) :
    LocalFsBackend.chunkFinalPath crates chunkId' ≠
      LocalFsBackend.chunkFinalPath crates chunkId :=
  fun h => hne (ObjId.toFilename_injective laws h)

theorem chunkId_toString_ne (hne : chunkId'.toObjId ≠ chunkId.toObjId) :
    chunkId'.toString crates ≠ chunkId.toString crates :=
  fun h => hne (ObjId.toString_injective laws h)

/-- Writing the row of a chunk leaves the rows of the others alone. -/
theorem find?_setChunkItem_of_ne (db : NamedLocalStoreDb) {item : ChunkItem}
    (hne : chunkId.toObjId ≠ item.chunkId.toObjId) :
    (db.setChunkItem crates item).chunkItems.find? (chunkId.toString crates) =
      db.chunkItems.find? (chunkId.toString crates) := by
  have hkey : chunkId.toString crates ≠ item.chunkId.toString crates :=
    chunkId_toString_ne laws hne
  exact (Table.find?_insertOrReplace _ _ _).trans (if_neg hkey)

/-- A put of one chunk leaves the files and rows of the others alone. -/
theorem putChunkByReader_other (store : NamedStore) (now : Nat) (fault : Option FsFault)
    (dbWrite : DbWrite) (chunkSize : Nat) (reader : ChunkSource)
    (hne : chunkId.toObjId ≠ chunkId'.toObjId) :
    let put := store.putChunkByReader crates now fault dbWrite chunkId' chunkSize reader
    put.1.chunkFile crates chunkId = store.chunkFile crates chunkId ∧
      put.1.chunkRow crates chunkId = store.chunkRow crates chunkId := by
  intro put
  rcases putChunkByReader_cases crates store now fault dbWrite chunkId' chunkSize reader with
    ⟨hsame, -⟩ | ⟨-, -, -, -, hbackend, hdb⟩
  · show put.1.chunkFile crates chunkId = _ ∧ put.1.chunkRow crates chunkId = _
    rw [hsame]
    exact ⟨rfl, rfl⟩
  · constructor
    · show put.1.backend.chunks.find? _ = _
      rw [hbackend, Table.find?_insertOrReplace, if_neg (chunkFinalPath_ne laws hne)]
      rfl
    · show put.1.db.chunkItems.find? _ = _
      rcases hdb with ⟨hdb, -⟩ | hdb
      · rw [hdb]
        rfl
      · rw [hdb, find?_setChunkItem_of_ne laws store.db hne]
        rfl

/-- A removal of one chunk leaves the files and rows of the others alone. -/
theorem removeChunk_other (store : NamedStore) (fault : Option FsFault) (dbWrite : DbWrite)
    (hne : chunkId.toObjId ≠ chunkId'.toObjId) :
    let removed := store.removeChunk crates fault dbWrite chunkId'
    removed.1.chunkFile crates chunkId = store.chunkFile crates chunkId ∧
      removed.1.chunkRow crates chunkId = store.chunkRow crates chunkId := by
  intro removed
  rcases removeChunk_cases crates store fault dbWrite chunkId' with
    hsame | ⟨-, hbackend, hdb⟩
  · show removed.1.chunkFile crates chunkId = _ ∧ removed.1.chunkRow crates chunkId = _
    rw [hsame]
    exact ⟨rfl, rfl⟩
  · constructor
    · show removed.1.backend.chunks.find? _ = _
      rw [hbackend, Table.find?_deleteKey, if_neg (chunkFinalPath_ne laws hne)]
      rfl
    · show removed.1.db.chunkItems.find? _ = _
      rcases hdb with ⟨-, hdb⟩ | hdb
      · rw [hdb]
        rfl
      · have hkey := Table.find?_deleteKey store.db.chunkItems (chunkId'.toString crates)
          (chunkId.toString crates)
        rw [if_neg (chunkId_toString_ne laws hne)] at hkey
        rw [hdb]
        exact hkey

end ChunkView

end NamedStore

end NamedStore
end CyfsNdn

import CyfsNdn.Relational.Table
import CyfsNdn.NdnLib.Hasher

/-!
# The local file system backend

`LocalFsBackend` of `named_store/src/local_fs_backend.rs`: one file for each
complete chunk, under a name made of the hash and the type of its id.  Whether a
chunk is there is whether its file is there.  The private temporary files of the
writers are never read by name and are not part of the state; a write that fails
leaves the state alone.

`Intact` is what the atomic commit is for: every file has the hash that its name
says.
-/

namespace CyfsNdn
namespace NamedStore

open NdnLib Relational

/-- `ChunkWriteOutcome` of `backend.rs`. -/
inductive ChunkWriteOutcome where
  | written
  | alreadyExists
  deriving DecidableEq, Repr

/-- What a reader yields, and whether it then ends or fails. -/
structure ChunkSource where
  bytes : List UInt8
  fails : Bool
  deriving DecidableEq, Repr

/-- A `Cursor` over bytes. -/
def ChunkSource.ofBytes (bytes : List UInt8) : ChunkSource := ⟨bytes, false⟩

/-- The file system call of the backend that fails, if one does. -/
inductive FsFault where
  | createDir
  | createTmp
  | writeTmp
  | renameTmp
  | removeFile
  deriving DecidableEq, Repr

/-- A complete chunk file. -/
structure ChunkFile where
  name : String
  bytes : List UInt8
  deriving DecidableEq, Repr

/-- The state of the backend. -/
structure LocalFsBackend where
  readOnly : Bool
  chunks : Table ChunkFile ChunkFile.name

namespace LocalFsBackend

/-- `ensure_writable`. -/
def ensureWritable (backend : LocalFsBackend) : NdnResult Unit :=
  if backend.readOnly then .error (.permissionDenied "local fs backend is read-only")
  else .ok ()

/-- `chunk_final_path`, below the chunk directory; the two characters of the
subdirectory are the start of the name. -/
def chunkFinalPath (crates : Crates) (chunkId : ChunkId) : String :=
  chunkId.toObjId.toFilename crates

/-- `open_chunk_reader`: the bytes from the offset on, and the size of the file. -/
def openChunkReader (crates : Crates) (backend : LocalFsBackend) (chunkId : ChunkId)
    (offset : Nat) : NdnResult (List UInt8 × Nat) :=
  match backend.chunks.find? (chunkFinalPath crates chunkId) with
  | none => .error (.notFound (chunkId.toString crates))
  | some file =>
      if file.bytes.length < offset then
        .error (.offsetTooLarge (chunkId.toString crates))
      else .ok (file.bytes.drop offset, file.bytes.length)

/-- `copy_and_hash`: the source must yield exactly `chunkSize` bytes. -/
def copyAndHash (fault : Option FsFault) (source : ChunkSource) (chunkSize : Nat) :
    NdnResult (List UInt8) :=
  if source.bytes.length < chunkSize then
    if source.fails then .error (.ioError "read source failed: ")
    else .error (.ioError ("source EOF before " ++ toString chunkSize ++ " bytes: short " ++
      toString (chunkSize - source.bytes.length) ++ " bytes"))
  else if fault = some .writeTmp then .error (.ioError "write tmp file failed: ")
  else if chunkSize < source.bytes.length then
    .error (.ioError ("source longer than declared chunk_size " ++ toString chunkSize))
  else if source.fails then .error (.ioError "probe source tail failed: ")
  else .ok source.bytes

/-- `verify_hash` of the bytes that went through a hasher. -/
def verifyHash (crates : Crates) (hashMethod : HashMethod) (bytes : List UInt8)
    (chunkId : ChunkId) : NdnResult Unit :=
  match ChunkHasher.finalizeChunkId crates hashMethod chunkId.chunkType.isMix bytes with
  | .error e => .error e
  | .ok got =>
      if got ≠ chunkId then
        .error (.verifyError ("chunk hash mismatch: expected " ++ chunkId.toString crates ++
          " got " ++ got.toString crates))
      else .ok ()

/-- The part of `open_chunk_writer` between the two looks at the final file: the
bytes that are ready to be committed. -/
def prepareChunk (crates : Crates) (fault : Option FsFault) (chunkId : ChunkId)
    (chunkSize : Nat) (source : ChunkSource) : NdnResult (List UInt8) :=
  if fault = some .createDir then .error (.ioError "create dir failed: ")
  else if fault = some .createTmp then .error (.ioError "create chunk tmp failed: ")
  else
    match chunkId.chunkType.toHashMethod with
    | .error e => .error e
    | .ok hashMethod =>
        match HashHelper.createHasher hashMethod with
        | .error e => .error e
        | .ok hasher =>
            match copyAndHash fault source chunkSize with
            | .error e => .error e
            | .ok bytes =>
                match verifyHash crates hasher bytes chunkId with
                | .error e => .error e
                | .ok () => .ok bytes

/-- `open_chunk_writer`. -/
def openChunkWriter (crates : Crates) (backend : LocalFsBackend) (fault : Option FsFault)
    (chunkId : ChunkId) (chunkSize : Nat) (source : ChunkSource) :
    LocalFsBackend × NdnResult ChunkWriteOutcome :=
  match backend.ensureWritable with
  | .error e => (backend, .error e)
  | .ok () =>
      if (backend.chunks.find? (chunkFinalPath crates chunkId)).isSome then
        (backend, .ok .alreadyExists)
      else
        match prepareChunk crates fault chunkId chunkSize source with
        | .error e => (backend, .error e)
        | .ok bytes =>
            if fault = some .renameTmp then
              (backend, .error (.ioError "rename chunk tmp to final failed: "))
            else
              ({ backend with
                  chunks := backend.chunks.insertOrReplace
                    ⟨chunkFinalPath crates chunkId, bytes⟩ },
                .ok .written)

/-- `remove_chunk`; a file that is not there is no error. -/
def removeChunk (crates : Crates) (backend : LocalFsBackend) (fault : Option FsFault)
    (chunkId : ChunkId) : LocalFsBackend × NdnResult Unit :=
  match backend.ensureWritable with
  | .error e => (backend, .error e)
  | .ok () =>
      if fault = some .removeFile then
        (backend, .error (.ioError ("remove chunk " ++ chunkId.toString crates ++
          " failed: ")))
      else
        ({ backend with chunks := backend.chunks.deleteKey (chunkFinalPath crates chunkId) },
          .ok ())

/-! ## What the operations guarantee -/

/-- Every file has the hash that its name says. -/
def Intact (crates : Crates) (backend : LocalFsBackend) : Prop :=
  ∀ file ∈ backend.chunks.rows, ∃ chunkId : ChunkId,
    file.name = chunkFinalPath crates chunkId ∧ chunkId.Hashes crates file.bytes

section Facts

variable {crates : Crates} {backend : LocalFsBackend}

/-- Bytes are committed only under their own hash. -/
theorem hashes_of_prepareChunk {fault : Option FsFault} {chunkId : ChunkId}
    {chunkSize : Nat} {source : ChunkSource} {bytes : List UInt8}
    (h : prepareChunk crates fault chunkId chunkSize source = .ok bytes) :
    chunkId.Hashes crates bytes ∧ bytes = source.bytes ∧ bytes.length = chunkSize := by
  unfold prepareChunk at h
  split_ifs at h
  split at h
  · cases h
  next hashMethod hmethod =>
  split at h
  · cases h
  next hasher hhasher =>
  split at h
  · cases h
  next copied hcopied =>
  split at h
  · cases h
  next hverified =>
  have hbytes : copied = bytes := Except.ok.inj h
  subst hbytes
  have hhashes : chunkId.Hashes crates copied := by
    unfold ChunkId.Hashes ChunkHasher.calcChunkId
    rw [hmethod]
    simp only
    rw [hhasher]
    simp only
    unfold verifyHash at hverified
    split at hverified
    · cases hverified
    · next got hgot =>
      split_ifs at hverified with hne
      rw [hgot, not_not.mp hne]
  unfold copyAndHash at hcopied
  split_ifs at hcopied with hshort hfault hlong
  have hsource : source.bytes = copied := Except.ok.inj hcopied
  subst hsource
  exact ⟨hhashes, rfl, by omega⟩

/-- What a write does: nothing, or it adds the file of the chunk. -/
theorem openChunkWriter_cases (crates : Crates) (backend : LocalFsBackend)
    (fault : Option FsFault) (chunkId : ChunkId) (chunkSize : Nat) (source : ChunkSource) :
    ((backend.openChunkWriter crates fault chunkId chunkSize source).1 = backend ∧
        (backend.openChunkWriter crates fault chunkId chunkSize source).2 ≠ .ok .written ∧
        ((backend.openChunkWriter crates fault chunkId chunkSize source).2 =
            .ok .alreadyExists →
          ∃ file, backend.chunks.find? (chunkFinalPath crates chunkId) = some file)) ∨
      ((backend.openChunkWriter crates fault chunkId chunkSize source).2 = .ok .written ∧
        (backend.openChunkWriter crates fault chunkId chunkSize source).1 =
          { backend with
            chunks := backend.chunks.insertOrReplace
              ⟨chunkFinalPath crates chunkId, source.bytes⟩ } ∧
        backend.chunks.find? (chunkFinalPath crates chunkId) = none ∧
        chunkId.Hashes crates source.bytes ∧ source.bytes.length = chunkSize) := by
  unfold openChunkWriter
  split
  · exact Or.inl ⟨rfl, by simp, by simp⟩
  · by_cases hexists : (backend.chunks.find? (chunkFinalPath crates chunkId)).isSome
    · rw [if_pos hexists]
      exact Or.inl ⟨rfl, by simp, fun _ => Option.isSome_iff_exists.mp hexists⟩
    · rw [if_neg hexists]
      split
      · exact Or.inl ⟨rfl, by simp, by simp⟩
      · next bytes hbytes =>
        obtain ⟨hhashes, rfl, hlength⟩ := hashes_of_prepareChunk hbytes
        split_ifs
        · exact Or.inl ⟨rfl, by simp, by simp⟩
        · exact Or.inr ⟨rfl, rfl, by simpa using hexists, hhashes, hlength⟩

/-- What a removal does: nothing but an error, or it takes the file away. -/
theorem removeChunk_cases (crates : Crates) (backend : LocalFsBackend)
    (fault : Option FsFault) (chunkId : ChunkId) :
    (∃ e, backend.removeChunk crates fault chunkId = (backend, .error e)) ∨
      fault ≠ some .removeFile ∧
        backend.removeChunk crates fault chunkId =
          ({ backend with
              chunks := backend.chunks.deleteKey (chunkFinalPath crates chunkId) },
            .ok ()) := by
  unfold removeChunk
  split
  · exact Or.inl ⟨_, rfl⟩
  · split_ifs with hfault
    · exact Or.inl ⟨_, rfl⟩
    · exact Or.inr ⟨hfault, rfl⟩

theorem Intact.openChunkWriter (h : backend.Intact crates) (fault : Option FsFault)
    (chunkId : ChunkId) (chunkSize : Nat) (source : ChunkSource) :
    (backend.openChunkWriter crates fault chunkId chunkSize source).1.Intact crates := by
  rcases openChunkWriter_cases crates backend fault chunkId chunkSize source with
    ⟨hsame, -, -⟩ | ⟨-, hwritten, -, hhashes, -⟩
  · rw [hsame]
    exact h
  · rw [hwritten]
    intro file hfile
    rcases Table.mem_insertOrReplace.mp hfile with hnew | ⟨hold, -⟩
    · rw [hnew]
      exact ⟨chunkId, rfl, hhashes⟩
    · exact h file hold

theorem Intact.removeChunk (h : backend.Intact crates) (fault : Option FsFault)
    (chunkId : ChunkId) : (backend.removeChunk crates fault chunkId).1.Intact crates := by
  rcases removeChunk_cases crates backend fault chunkId with ⟨e, hsame⟩ | ⟨-, hremoved⟩
  · rw [hsame]
    exact h
  · rw [hremoved]
    intro file hfile
    exact h file (Table.mem_deleteWhere.mp hfile).1

/-- The file of an id has the hash of this very id. -/
theorem Intact.hashes_of_find? (laws : crates.Lawful) (h : backend.Intact crates)
    {chunkId : ChunkId} (hknown : chunkId.Known) {file : ChunkFile}
    (hfile : backend.chunks.find? (chunkFinalPath crates chunkId) = some file) :
    chunkId.Hashes crates file.bytes := by
  obtain ⟨hmem, hname⟩ := Table.find?_eq_some_iff.mp hfile
  obtain ⟨owner, howner, hhashes⟩ := h file hmem
  have hid := ObjId.toFilename_injective laws (hname.symm.trans howner)
  rw [hknown.eq_of_toObjId hhashes.known hid]
  exact hhashes

end Facts

end LocalFsBackend

end NamedStore
end CyfsNdn

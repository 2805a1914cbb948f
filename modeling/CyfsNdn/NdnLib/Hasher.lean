import CyfsNdn.NdnLib.Chunk

/-!
# Hashing chunks

`ChunkHasher` and the quick hash of `ndn-lib/src/chunk/hasher.rs`.  A hasher that
is fed a byte string piece by piece is represented by the whole byte string, so
it is a function of a hash method and of the bytes.
-/

namespace CyfsNdn
namespace NdnLib

/-- The `Debug` name of a hash method. -/
def HashMethod.debugName : HashMethod → String
  | .sha256 => "Sha256"
  | .sha512 => "Sha512"
  | .qcid => "QCID"
  | .blake2s256 => "Blake2s256"
  | .keccak256 => "Keccak256"

/-- `HashHelper::create_hasher`: only the two SHA-2 methods have a hasher. -/
def HashHelper.createHasher (hashMethod : HashMethod) : NdnResult HashMethod :=
  match hashMethod with
  | .sha256 => .ok .sha256
  | .sha512 => .ok .sha512
  | other => .error (.invalidParam ("Unsupported hash method: " ++ other.debugName))

/-- `ChunkType::from_hash_type`. -/
def ChunkType.fromHashType (hashType : HashMethod) (isMix : Bool) : NdnResult ChunkType :=
  match hashType, isMix with
  | .sha256, true => .ok .mix256
  | .sha256, false => .ok .sha256
  | .sha512, true => .ok .mix512
  | .sha512, false => .ok .sha512
  | .qcid, true => .ok .qcid
  | .qcid, false => .error (.invalidObjType "QCID must be mix hash")
  | .blake2s256, true => .ok .mixBlake2s256
  | .blake2s256, false => .ok .blake2s256
  | .keccak256, true => .ok .mixKeccak256
  | .keccak256, false => .ok .keccak256

namespace ChunkHasher

/-- `finalize_mix_chunk_id`, and `finalize_chunk_id` for a type that is not a mix
one. -/
def finalizeChunkId (crates : Crates) (hashMethod : HashMethod) (isMix : Bool)
    (bytes : List UInt8) : NdnResult ChunkId :=
  match ChunkType.fromHashType hashMethod isMix with
  | .error e => .error e
  | .ok chunkType =>
      if isMix then
        .ok (ChunkId.fromMixHashResult crates bytes.length (crates.digest hashMethod bytes)
          chunkType)
      else .ok ⟨chunkType, crates.digest hashMethod bytes⟩

/-- The id of a byte string under the type of a given id: the hash method of the
type, a hasher for it, and the id that the hasher ends with. -/
def calcChunkId (crates : Crates) (chunkType : ChunkType) (bytes : List UInt8) :
    NdnResult ChunkId :=
  match chunkType.toHashMethod with
  | .error e => .error e
  | .ok hashMethod =>
      match HashHelper.createHasher hashMethod with
      | .error e => .error e
      | .ok hasher => finalizeChunkId crates hasher chunkType.isMix bytes

end ChunkHasher

/-- The bytes have the hash that the id names. -/
def ChunkId.Hashes (crates : Crates) (id : ChunkId) (bytes : List UInt8) : Prop :=
  ChunkHasher.calcChunkId crates id.chunkType bytes = .ok id

instance (crates : Crates) (id : ChunkId) (bytes : List UInt8) :
    Decidable (id.Hashes crates bytes) :=
  inferInstanceAs (Decidable (ChunkHasher.calcChunkId crates id.chunkType bytes = .ok id))

/-- The type of the id is the one that its name is read as.  An id that
`ChunkId::new` returns is like this. -/
def ChunkId.Known (id : ChunkId) : Prop :=
  ChunkType.fromStr id.chunkType.toString = id.chunkType

instance (id : ChunkId) : Decidable id.Known :=
  inferInstanceAs (Decidable (ChunkType.fromStr id.chunkType.toString = id.chunkType))

/-- `ChunkId::new` returns ids of known types only. -/
theorem ChunkId.known_of_new {crates : Crates} {id : ChunkId}
    (h : ∃ text, ChunkId.new crates text = .ok id) : id.Known ∧ id.toObjId.isChunk = true := by
  obtain ⟨text, hnew⟩ := h
  unfold ChunkId.new at hnew
  split at hnew
  · cases hnew
  · next objId hobjId =>
    split_ifs at hnew with hchunk
    cases hnew
    refine ⟨?_, ?_⟩
    · exact congrArg ChunkType.fromStr (ChunkType.toString_fromStr objId.objType)
    · rw [ChunkId.toObjId_fromObjId]
      exact hchunk

/-- Only an id of a known type can be the hash of something. -/
theorem ChunkId.Hashes.known {crates : Crates} {id : ChunkId} {bytes : List UInt8}
    (h : id.Hashes crates bytes) : id.Known := by
  obtain ⟨chunkType, hashResult⟩ := id
  cases chunkType with
  | unknown name =>
      simp only [ChunkId.Hashes, ChunkHasher.calcChunkId, ChunkType.toHashMethod] at h
      cases h
  | _ => rfl

/-- Two such ids that have one object id are equal. -/
theorem ChunkId.Known.eq_of_toObjId {id id' : ChunkId} (h : id.Known) (h' : id'.Known)
    (hid : id.toObjId = id'.toObjId) : id = id' := by
  have htype : id.chunkType.toString = id'.chunkType.toString := congrArg ObjId.objType hid
  have hhash : id.hashResult = id'.hashResult := congrArg ObjId.objHash hid
  have hknown : ChunkType.fromStr id.chunkType.toString = id.chunkType := h
  rw [htype, show ChunkType.fromStr id'.chunkType.toString = id'.chunkType from h'] at hknown
  cases id
  cases id'
  simp only at hhash hknown
  rw [hhash, hknown]

/-! ## Quick hashes -/

/-- `QCID_HASH_PIECE_SIZE`. -/
def qcidHashPieceSize : Nat := 4096

/-- `MIN_QCID_FILE_SIZE`. -/
def minQcidFileSize : Nat := qcidHashPieceSize * 3

/-- `calc_quick_hash` of a whole file: the pieces at the start and at the middle. -/
def calcQuickHash (crates : Crates) (bytes : List UInt8) : NdnResult ChunkId :=
  if bytes.length < minQcidFileSize then
    .error (.internal "quick hash error: item size is too small")
  else
    let first := bytes.take qcidHashPieceSize
    let middle := (bytes.drop (bytes.length / 2)).take qcidHashPieceSize
    .ok (ChunkId.fromMixHashResult crates bytes.length
      (crates.digest .sha256 (first ++ middle)) .qcid)

end NdnLib
end CyfsNdn

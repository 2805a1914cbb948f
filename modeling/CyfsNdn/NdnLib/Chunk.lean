import CyfsNdn.NdnLib.ObjId

/-!
# Chunks, chunk lists and the children of an object

`ChunkType`, `ChunkId` and `ChunkList` of `ndn-lib/src/chunk`, and the part of
`KnownStandardObject` that says which objects an object refers to.
-/

namespace CyfsNdn
namespace NdnLib

/-- `CHUNK_DEFAULT_SIZE`. -/
def chunkDefaultSize : Nat := 1024 * 1024 * 32

/-- The bytes of a text, `str::as_bytes`. -/
def utf8Bytes (s : String) : List UInt8 :=
  s.toByteArray.data.toList

/-- UTF-8 text is read back. -/
theorem stringFromUtf8_utf8Bytes (s : String) :
    ObjId.stringFromUtf8 (utf8Bytes s) = some s := by
  have hbytes : (utf8Bytes s).toByteArray = s.toByteArray := by
    unfold utf8Bytes
    exact ByteArray.ext (by simp)
  unfold ObjId.stringFromUtf8 String.fromUTF8?
  rw [hbytes, dif_pos s.isValidUTF8]
  rfl

/-- `ChunkType`. -/
inductive ChunkType where
  | sha256
  | mix256
  | sha512
  | mix512
  | qcid
  | blake2s256
  | mixBlake2s256
  | keccak256
  | mixKeccak256
  | unknown (name : String)
  deriving DecidableEq, Repr

namespace ChunkType

/-- `ChunkType::is_chunk_type`. -/
def isChunkType (typeStr : String) : Bool :=
  typeStr ∈ ["sha256", "mix256", "sha512", "mix512", "qcid", "blake2s256",
    "mixblake2s256", "keccak256", "mixkeccak256"]

/-- `ChunkType::is_mix`. -/
def isMix : ChunkType → Bool
  | .mix256 | .mix512 | .mixBlake2s256 | .mixKeccak256 | .qcid => true
  | _ => false

/-- `ChunkType::to_hash_method`. -/
def toHashMethod : ChunkType → NdnResult HashMethod
  | .sha256 | .mix256 => .ok .sha256
  | .sha512 | .mix512 => .ok .sha512
  | .qcid => .ok .qcid
  | .blake2s256 | .mixBlake2s256 => .ok .blake2s256
  | .keccak256 | .mixKeccak256 => .ok .keccak256
  | .unknown s => .error (.invalidObjType ("invalid chunk type:" ++ s))

/-- `ChunkType::from_str`. -/
def fromStr (s : String) : ChunkType :=
  if s = "sha256" then .sha256
  else if s = "mix256" then .mix256
  else if s = "sha512" then .sha512
  else if s = "mix512" then .mix512
  else if s = "qcid" then .qcid
  else if s = "blake2s256" then .blake2s256
  else if s = "mixblake2s256" then .mixBlake2s256
  else if s = "keccak256" then .keccak256
  else if s = "mixkeccak256" then .mixKeccak256
  else .unknown s

/-- `ChunkType::to_string`. -/
def toString : ChunkType → String
  | .sha256 => "sha256"
  | .mix256 => "mix256"
  | .sha512 => "sha512"
  | .mix512 => "mix512"
  | .qcid => "qcid"
  | .blake2s256 => "blake2s256"
  | .mixBlake2s256 => "mixblake2s256"
  | .keccak256 => "keccak256"
  | .mixKeccak256 => "mixkeccak256"
  | .unknown s => s

/-- Reading a type name and writing it again changes nothing. -/
@[simp] theorem toString_fromStr (s : String) : (fromStr s).toString = s := by
  unfold fromStr
  split_ifs <;> simp_all [toString]

end ChunkType

/-- `ChunkId`. -/
structure ChunkId where
  chunkType : ChunkType
  hashResult : List UInt8
  deriving DecidableEq, Repr

namespace ObjId

/-- `ObjId::is_chunk`. -/
def isChunk (id : ObjId) : Bool :=
  ChunkType.isChunkType id.objType

/-- `ObjId::is_chunk_list`. -/
def isChunkList (id : ObjId) : Bool :=
  id.objType = "clist"

/-- `ObjId::is_dir_object`. -/
def isDirObject (id : ObjId) : Bool :=
  id.objType = "cydir"

/-- `ObjId::is_file_object`. -/
def isFileObject (id : ObjId) : Bool :=
  id.objType = "cyfile"

end ObjId

namespace ChunkId

/-- `ChunkId::to_obj_id`. -/
def toObjId (id : ChunkId) : ObjId where
  objType := id.chunkType.toString
  objHash := id.hashResult

/-- `ChunkId::from_obj_id`. -/
def fromObjId (id : ObjId) : ChunkId where
  chunkType := ChunkType.fromStr id.objType
  hashResult := id.objHash

@[simp] theorem toObjId_fromObjId (id : ObjId) : (fromObjId id).toObjId = id := by
  simp [fromObjId, toObjId]

/-- `ChunkId::to_string`. -/
def toString (crates : Crates) (id : ChunkId) : String :=
  id.chunkType.toString ++ ":" ++ crates.hexEncode id.hashResult

theorem toString_eq (crates : Crates) (id : ChunkId) :
    id.toString crates = id.toObjId.toString crates := rfl

/-- `ChunkId::new`. -/
def new (crates : Crates) (chunkIdStr : String) : NdnResult ChunkId :=
  match ObjId.new crates chunkIdStr with
  | .error e => .error e
  | .ok objId =>
      if objId.isChunk then .ok (fromObjId objId)
      else .error (.invalidId ("invalid chunk id:" ++ chunkIdStr))

/-- `ChunkId::mix_length_and_hash_result`. -/
def mixLengthAndHashResult (crates : Crates) (dataLength : Nat)
    (hashResult : List UInt8) : List UInt8 :=
  crates.varintEncode dataLength ++ hashResult

/-- `ChunkId::from_mix_hash_result`. -/
def fromMixHashResult (crates : Crates) (dataLength : Nat) (hashResult : List UInt8)
    (chunkType : ChunkType) : ChunkId where
  chunkType := chunkType
  hashResult := mixLengthAndHashResult crates dataLength hashResult

/-- `ChunkId::get_length`: only a mix id carries its length. -/
def getLength (crates : Crates) (id : ChunkId) : Option Nat :=
  if id.hashResult.isEmpty then none
  else if id.chunkType.isMix then (crates.varintDecode id.hashResult).map Prod.fst
  else none

end ChunkId

/-- `ChunkList`. -/
structure ChunkList where
  totalSize : Nat
  body : List ChunkId
  deriving DecidableEq, Repr

namespace ChunkList

/-- `ChunkList::from_chunk_list`: every chunk must carry its length. -/
def fromChunkList (crates : Crates) (chunkList : List ChunkId) : NdnResult ChunkList :=
  match chunkList.mapM (·.getLength crates) with
  | none => .error (.invalidParam "get chunk length from chunkid failed")
  | some sizes => .ok ⟨sizes.sum, chunkList⟩

/-- `ChunkList::from_json`: a JSON array of chunk ids. -/
def fromJson (crates : Crates) (objStr : String) : NdnResult ChunkList :=
  match crates.jsonStringArray objStr with
  | none => .error (.invalidParam "parse chunk list from json failed: ")
  | some texts =>
      match texts.mapM (ChunkId.new crates) with
      | .error _ => .error (.invalidParam "parse chunk list from json failed: ")
      | .ok chunks => fromChunkList crates chunks

end ChunkList

/-! ## Children of an object -/

/-- `build_obj_id`. -/
def buildObjId (crates : Crates) (objType objJsonStr : String) : ObjId where
  objType := objType
  objHash := crates.digest .sha256 (utf8Bytes objJsonStr)

/-- `SimpleMapItem::get_obj_id`: the identifier, and the text of an inline object. -/
def SimpleMapItem.getObjId (crates : Crates) : SimpleMapItem → NdnResult (ObjId × String)
  | .objId id => .ok (id, "")
  | .object objType canonicalJson =>
      .ok (buildObjId crates objType canonicalJson, canonicalJson)
  | .objectJwt objType jwt =>
      match crates.jwtClaims jwt with
      | none => .error (.decodeError "decode jwt failed:")
      | some canonicalJson => .ok (buildObjId crates objType canonicalJson, canonicalJson)

/-- `char::is_whitespace`. -/
def isWhitespace (c : Char) : Bool :=
  (9 ≤ c.toNat && c.toNat ≤ 13) || (0x2000 ≤ c.toNat && c.toNat ≤ 0x200a) ||
    c.toNat ∈ [0x20, 0x85, 0xa0, 0x1680, 0x2028, 0x2029, 0x202f, 0x205f, 0x3000]

/-- `load_named_object_from_obj_str`: an object is stored as JSON or as a JWT.
The value is kept as its canonical text. -/
def loadNamedObjectFromObjStr (crates : Crates) (objStr : String) : NdnResult String :=
  let head := (objStr.toList.dropWhile isWhitespace).head?
  if head = some '\x7b' ∨ head = some '[' then
    match crates.jsonValue objStr with
    | none => .error (.invalidId "failed to parse obj_str:")
    | some json => .ok json
  else
    match crates.jwtClaims objStr with
    | none => .error (.decodeError "decode jwt failed:")
    | some json => .ok json

/-- `load_named_obj` for a type that is read from JSON text by `decode`. -/
def loadNamedObj {α : Type} (crates : Crates) (decode : String → Option α)
    (objDataStr : String) : NdnResult α :=
  match loadNamedObjectFromObjStr crates objDataStr with
  | .error e => .error e
  | .ok objJson =>
      match decode objJson with
      | none => .error (.decodeError "deserialize object from obj_data_str failed: ")
      | some obj => .ok obj

/-- `KnownStandardObject`, each variant with what `get_child_objs` reads. -/
inductive KnownStandardObject where
  | dir (items : List SimpleMapItem)
  | file (content : String)
  | chunkList (list : ChunkList)
  deriving DecidableEq, Repr

namespace KnownStandardObject

/-- `KnownStandardObject::from_obj_data`. -/
def fromObjData (crates : Crates) (objId : ObjId) (objData : String) :
    NdnResult KnownStandardObject :=
  if objId.objType = "cydir" then
    match crates.jsonDirItems objData with
    | none => .error (.invalidParam "parse dir object from json failed: ")
    | some items => .ok (.dir items)
  else if objId.objType = "cyfile" then
    match crates.jsonFileContent objData with
    | none => .error (.invalidParam "parse file object from json failed: ")
    | some content => .ok (.file content)
  else if objId.objType = "clist" then
    match ChunkList.fromJson crates objData with
    | .error e => .error e
    | .ok list => .ok (.chunkList list)
  else .error (.invalidParam ("Unknown object type: " ++ objId.objType))

/-- `KnownStandardObject::get_child_objs`, the identifiers only. -/
def getChildObjs (crates : Crates) : KnownStandardObject → NdnResult (List ObjId)
  | .dir items => items.mapM fun item => (item.getObjId crates).map Prod.fst
  | .file content =>
      match ObjId.new crates content with
      | .error e => .error e
      | .ok contentId => .ok [contentId]
  | .chunkList list => .ok (list.body.map ChunkId.toObjId)

end KnownStandardObject

end NdnLib
end CyfsNdn

import CyfsNdn.NdnLib.Hasher

/-!
# Named objects as JSON values

`serde_json::Value` and what is built on it in `ndn-lib/src/object.rs`,
`fileobj.rs` and `chunk/chunk_list.rs`: the id of an object is the hash of its
canonical text, and of a chunk list also its total size.

`WebCrates` adds the crates that read JSON and URLs to `Crates`.  What is relied
on is `WebCrates.Lawful`; that hashes do not collide is `WebCrates.Injective`.
-/

namespace CyfsNdn
namespace NdnLib

/-- `serde_json::Number`: a `u64`, or any other number by its text. -/
inductive JsonNumber where
  | natural (n : Nat)
  | other (text : String)
  deriving DecidableEq, Repr

/-- `serde_json::Value`. -/
inductive Json where
  | null
  | bool (b : Bool)
  | number (n : JsonNumber)
  | string (s : String)
  | array (items : List Json)
  | object (fields : List (String × Json))

namespace Json

/-- `Value::get` with a field name. -/
def get : Json → String → Option Json
  | .object fields, field => fields.lookup field
  | _, _ => none

/-- `Value::get` with an index. -/
def getIdx : Json → Nat → Option Json
  | .array items, idx => items[idx]?
  | _, _ => none

/-- `Value::is_array`. -/
def isArray : Json → Bool
  | .array _ => true
  | _ => false

/-- `Value::as_str`. -/
def asStr : Json → Option String
  | .string s => some s
  | _ => none

/-- `serde_json::from_value::<Vec<String>>`. -/
def stringArray : Json → Option (List String)
  | .array items => items.mapM asStr
  | _ => none

end Json

/-- The digits of a decimal number, most significant first. -/
def decimalValue (acc : Nat) : List Char → Option Nat
  | [] => some acc
  | c :: rest =>
      if '0' ≤ c ∧ c ≤ '9' then decimalValue (10 * acc + (c.toNat - '0'.toNat)) rest else none

/-- `str::parse::<usize>`: decimal digits after an optional plus sign. -/
def parseUsize (s : String) : Option Nat :=
  let digits := match s.toList with
    | '+' :: rest => rest
    | chars => chars
  if digits.isEmpty then none
  else (decimalValue 0 digits).filter (· < 2 ^ 64)

/-- The value at one field of an inner path: an index where the field is a number. -/
def Json.field (value : Json) (field : String) : Option Json :=
  match parseUsize field with
  | some idx => value.getIdx idx
  | none => value.get field

/-- The value at the end of some fields. -/
def Json.descend (value : Json) : List String → Option Json
  | [] => some value
  | field :: rest =>
      match value.field field with
      | none => none
      | some next => next.descend rest

@[simp] theorem Json.descend_nil (value : Json) : value.descend [] = some value := rfl

/-- What is read of a `FileObject`. -/
structure FileObject where
  content : String
  size : Nat
  deriving DecidableEq, Repr

/-- What is read of a `url::Url`. -/
structure Url where
  hostStr : Option String
  path : String
  query : Option String
  /-- The scheme, the credentials, the port and the fragment. -/
  rest : String
  deriving DecidableEq, Repr

/-- The functions of third-party crates that the HTTP client and server use. -/
structure WebCrates extends Crates where
  /-- `serde_json::from_str::<Value>`. -/
  jsonParse : String → Option Json
  /-- `serde_json::to_string`. -/
  jsonText : Json → String
  /-- `serde_jcs::to_string`. -/
  jcs : Json → String
  /-- `serde_json::from_value::<FileObject>`. -/
  fileObject : Json → Option FileObject
  /-- `base32::encode` with the lower-case RFC 4648 alphabet. -/
  base32Encode : List UInt8 → String
  /-- `Url::parse`. -/
  urlParse : String → Option Url
  /-- `Url::to_string`. -/
  urlText : Url → String
  /-- `Url::set_host`. -/
  urlSetHost : Url → String → Option Url
  /-- `Url::set_path`. -/
  urlSetPath : Url → String → Url
  /-- `form_urlencoded::parse`. -/
  queryPairs : String → List (String × String)
  /-- `form_urlencoded::Serializer`. -/
  queryText : List (String × String) → String

/-- The object that holds the required fields of a `FileObject`, its content and its
size, and nothing else. -/
def plainFile (content : String) (size : Nat) : Json :=
  .object [("content", .string content), ("create_time", .number (.natural 0)),
    ("last_update_time", .number (.natural 0)), ("size", .number (.natural size))]

/-- The array of some strings. -/
def Json.ofStrings (texts : List String) : Json :=
  .array (texts.map .string)

/-- What the JSON crates are relied on for.  The canonical text of a value keeps its
strings and the way to each; only numbers of one value may lose their form. -/
structure WebCrates.Lawful (web : WebCrates) : Prop where
  crates : web.toCrates.Lawful
  /-- A list of strings is read from a text as it is read from the value. -/
  jsonStringArray_eq : ∀ text,
    web.jsonStringArray text = (web.jsonParse text).bind Json.stringArray
  /-- Equal canonical texts have equal strings at equal places. -/
  descend_of_jcs_eq : ∀ v w : Json, web.jcs v = web.jcs w →
    ∀ fields s, v.descend fields = some (.string s) → w.descend fields = some (.string s)
  ofStrings_of_jcs_eq : ∀ texts texts' : List String,
    web.jcs (Json.ofStrings texts) = web.jcs (Json.ofStrings texts') → texts = texts'
  /-- The content of a file object is the string in its field, or empty. -/
  content_of_fileObject : ∀ v file, web.fileObject v = some file →
    v.descend ["content"] = some (.string file.content) ∨
      (v.descend ["content"] = none ∧ file.content = "")
  fileObject_plainFile : ∀ content size, size < 2 ^ 64 →
    web.fileObject (plainFile content size) = some ⟨content, size⟩
  /-- The canonical text of such an object is its own text. -/
  jsonParse_jcs_plainFile : ∀ content size, size < 2 ^ 64 →
    web.jsonParse (web.jcs (plainFile content size)) = some (plainFile content size)

/-- The canonical text of a value that was read is read as a value with the same
canonical text, and a list of strings as the same list. -/
def WebCrates.CanonicalText (web : WebCrates) : Prop :=
  ∀ text v, web.jsonParse text = some v → ∃ w, web.jsonParse (web.jcs v) = some w ∧
    web.jcs w = web.jcs v ∧ w.stringArray = v.stringArray

/-- No two byte strings have one digest. -/
def WebCrates.Injective (web : WebCrates) : Prop :=
  ∀ method, Function.Injective (web.digest method)

/-! ## Identifiers in URLs and values -/

/-- The parts of a text between a character. -/
def splitText (c : Char) (s : String) : List String :=
  (s.toList.splitOn c).map String.ofList

namespace ObjId

/-- `ObjId::from_value`. -/
def fromValue (crates : Crates) : Json → NdnResult ObjId
  | .string s => ObjId.new crates s
  | _ => .error (.invalidData "ObjId MUST be string")

/-- `ObjId::from_hostname`: the first label. -/
def fromHostname (crates : Crates) (hostname : String) : NdnResult ObjId :=
  ObjId.new crates ((splitText '.' hostname).headD "")

/-- `ObjId::from_path`, the identifier only: the first part that is one. -/
def fromPath (crates : Crates) (path : String) : NdnResult ObjId :=
  match (splitText '/' path).findSome? fun part => (ObjId.new crates part).toOption with
  | some objId => .ok objId
  | none => .error (.invalidId ("no objid found in path:" ++ path))

/-- `ObjId::to_base32`. -/
def toBase32 (web : WebCrates) (id : ObjId) : String :=
  web.base32Encode id.toBytes

/-- Only a string is an identifier. -/
theorem asStr_of_fromValue {crates : Crates} {v : Json} {id : ObjId}
    (h : fromValue crates v = .ok id) :
    ∃ s, v = .string s ∧ ObjId.new crates s = .ok id := by
  cases v with
  | string s => exact ⟨s, rfl, h⟩
  | _ => cases h

end ObjId

/-! ## The id of an object -/

/-- `build_named_object_by_json`. -/
def buildNamedObjectByJson (web : WebCrates) (objType : String) (jsonValue : Json) :
    ObjId × String :=
  (buildObjId web.toCrates objType (web.jcs jsonValue), web.jcs jsonValue)

/-- `verify_named_object`. -/
def verifyNamedObject (web : WebCrates) (objId : ObjId) (jsonValue : Json) : Bool :=
  (buildNamedObjectByJson web objId.objType jsonValue).1 = objId

/-- `verify_named_object_from_str`. -/
def verifyNamedObjectFromStr (web : WebCrates) (objId : ObjId) (objStr : String) :
    NdnResult Json :=
  match web.jsonParse objStr with
  | none => .error (.invalidId "failed to parse obj_str:")
  | some objJson =>
      if verifyNamedObject web objId objJson then .ok objJson
      else .error (.invalidId ("verify named object failed:" ++ objStr))

namespace ChunkList

/-- `ChunkList::from_json_value`. -/
def fromJsonValue (web : WebCrates) (objValue : Json) : NdnResult ChunkList :=
  match objValue.stringArray with
  | none => .error (.invalidParam "parse chunk list from json failed: ")
  | some texts =>
      match texts.mapM (ChunkId.new web.toCrates) with
      | .error _ => .error (.invalidParam "parse chunk list from json failed: ")
      | .ok chunks => fromChunkList web.toCrates chunks

/-- `ChunkList::gen_obj_id`; the total size is a `u64`. -/
def genObjId (web : WebCrates) (list : ChunkList) : ObjId × String :=
  let named := buildNamedObjectByJson web "clist"
    (Json.ofStrings (list.body.map (ChunkId.toString web.toCrates)))
  (⟨"clist", ChunkId.mixLengthAndHashResult web.toCrates (list.totalSize % 2 ^ 64)
    named.1.objHash⟩, named.2)

/-- Reading a text is reading its value. -/
theorem fromJson_eq {web : WebCrates} (laws : web.Lawful) {text : String} {v : Json}
    (hparse : web.jsonParse text = some v) :
    fromJson web.toCrates text = fromJsonValue web v := by
  unfold fromJson fromJsonValue
  rw [laws.jsonStringArray_eq, hparse]
  rfl

end ChunkList

/-- The value is the object that the id names. -/
def Json.Named (web : WebCrates) (v : Json) (id : ObjId) : Prop :=
  if id.objType = "clist" then
    ∃ list, ChunkList.fromJsonValue web v = .ok list ∧ (list.genObjId web).1 = id
  else (buildNamedObjectByJson web id.objType v).1 = id

end NdnLib
end CyfsNdn

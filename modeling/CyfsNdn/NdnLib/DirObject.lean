import CyfsNdn.NdnLib.Json
import CyfsNdn.Collections.SortedMap
import Mathlib.Data.String.Basic

/-!
# Directory objects

`DirObject` and `BaseContentObject` as they are read from a JSON value and written to
one, and `gen_obj_id`, which names a directory.  `gen_obj_id` does not write the
directory as its serializer does: it puts together a value of its own, in which every
child stands by its id and `meta` is left out.

A `serde_json` map is ordered by its keys; a `HashMap` is a list of entries in the
order in which it is iterated.
-/

namespace CyfsNdn
namespace NdnLib

open Collections

/-- `HashMap<String, α>`. -/
structure StringMap (α : Type) where
  entries : List (String × α)
  nodup : (entries.map Prod.fst).Nodup

namespace StringMap

/-- `HashMap::new`. -/
def empty {α : Type} : StringMap α := ⟨[], List.nodup_nil⟩

/-- A map read from the fields of a value; a value has every field once. -/
def ofFields {α : Type} (read : Json → Option α) (fields : List (String × Json)) :
    Option (StringMap α) :=
  match fields.mapM fun e => (read e.2).map (e.1, ·) with
  | none => none
  | some entries =>
      if h : (entries.map Prod.fst).Nodup then some ⟨entries, h⟩ else none

end StringMap

/-- What `name_lib::DID` does. -/
structure DidCrate where
  Did : Type
  /-- The text that is serialized. -/
  toText : Did → String
  /-- The text that is deserialized. -/
  parse : String → Option Did
  /-- `DID::default`. -/
  default : Did
  /-- `DID::is_valid`. -/
  isValid : Did → Bool

/-- `BaseContentObject`.  `Curator` and `Reference` have no fields. -/
@[ext]
structure BaseContentObject (dids : DidCrate) where
  did : Option dids.Did
  name : String
  author : String
  owner : dids.Did
  createTime : UInt64
  lastUpdateTime : UInt64
  copyright : Option String
  tags : List String
  categories : List String
  baseOn : Option ObjId
  directory : StringMap Unit
  references : StringMap Unit
  exp : UInt64

/-- `DirObject`. -/
structure DirObject (dids : DidCrate) where
  contentObj : BaseContentObject dids
  /-- The field `meta`. -/
  metaMap : StringMap Json
  totalSize : UInt64
  fileCount : UInt64
  fileSize : UInt64
  objectMap : StringMap SimpleMapItem

/-! ## Writing -/

namespace Json

/-- A `u64`. -/
def u64 (n : UInt64) : Json := .number (.natural n.toNat)

/-- The value of a map. -/
def ofMap (entries : List (String × Json)) : Json := .object (sortKeys entries)

/-- A map whose values have no fields. -/
def ofNames (names : StringMap Unit) : Json :=
  ofMap (names.entries.map fun e => (e.1, .object []))

end Json

/-- A field that is skipped under a condition. -/
def skipIf (skip : Bool) (value : Json) : Option Json :=
  if skip then none else some value

/-- The fields of a `BaseContentObject`; some are skipped. -/
def BaseContentObject.toFields (crates : Crates) {dids : DidCrate}
    (obj : BaseContentObject dids) : List (String × Option Json) :=
  [("did", obj.did.map fun did => .string (dids.toText did)),
    ("name", skipIf (obj.name == "") (.string obj.name)),
    ("author", skipIf (obj.author == "") (.string obj.author)),
    ("owner", skipIf (!dids.isValid obj.owner) (.string (dids.toText obj.owner))),
    ("create_time", some (.u64 obj.createTime)),
    ("last_update_time", some (.u64 obj.lastUpdateTime)),
    ("copyright", obj.copyright.map .string),
    ("tags", skipIf obj.tags.isEmpty (.ofStrings obj.tags)),
    ("categories", skipIf obj.categories.isEmpty (.ofStrings obj.categories)),
    ("base_on", obj.baseOn.map fun id => .string (id.toString crates)),
    ("directory", skipIf obj.directory.entries.isEmpty (.ofNames obj.directory)),
    ("references", skipIf obj.references.entries.isEmpty (.ofNames obj.references)),
    ("exp", skipIf (obj.exp == 0) (.u64 obj.exp))]

/-- The id of every child, or the error of the first one that has none. -/
def DirObject.childIds (crates : Crates) {dids : DidCrate} (dir : DirObject dids) :
    NdnResult (List (String × ObjId)) :=
  dir.objectMap.entries.mapM fun e => (e.2.getObjId crates).map fun named => (e.1, named.1)

/-- The fields that `gen_obj_id` names: `meta` is not one of them. -/
def DirObject.realFields (crates : Crates) {dids : DidCrate} (dir : DirObject dids)
    (ids : List (String × ObjId)) : List (String × Option Json) :=
  dir.contentObj.toFields crates ++
    [("total_size", some (.u64 dir.totalSize)),
      ("file_count", some (.u64 dir.fileCount)),
      ("file_size", some (.u64 dir.fileSize)),
      ("body", some (.ofMap (ids.map fun e => (e.1, .string (e.2.toString crates)))))]

/-- The value that `gen_obj_id` names. -/
def DirObject.realObj (crates : Crates) {dids : DidCrate} (dir : DirObject dids)
    (ids : List (String × ObjId)) : Json :=
  .ofMap (present (dir.realFields crates ids))

/-- `DirObject::gen_obj_id`. -/
def DirObject.genObjId (web : WebCrates) {dids : DidCrate} (dir : DirObject dids) :
    NdnResult (ObjId × String) :=
  match dir.childIds web.toCrates with
  | .error e => .error e
  | .ok ids => .ok (buildNamedObjectByJson web "cydir" (dir.realObj web.toCrates ids))

/-! ## Reading -/

/-- A field that must be there. -/
def requiredField {α : Type} (read : Json → Option α) : Option Json → Option α
  | none => none
  | some value => read value

/-- A field that has a default. -/
def defaultField {α : Type} (default : α) (read : Json → Option α) : Option Json → Option α
  | none => some default
  | some value => read value

/-- An `Option` field: absent and null are the same. -/
def optionField {α : Type} (read : Json → Option α) : Option Json → Option (Option α)
  | none => some none
  | some .null => some none
  | some value => (read value).map some

namespace Json

/-- `u64::deserialize`. -/
def asU64 : Json → Option UInt64
  | .number (.natural n) => if n < 2 ^ 64 then some (UInt64.ofNat n) else none
  | _ => none

/-- A struct without fields. -/
def asUnit : Json → Option Unit
  | .object _ => some ()
  | .array [] => some ()
  | _ => none

/-- A map with values of one kind. -/
def asMap {α : Type} (read : Json → Option α) : Json → Option (StringMap α)
  | .object fields => StringMap.ofFields read fields
  | _ => none

/-- `ObjId::deserialize`. -/
def asObjId (crates : Crates) : Json → Option ObjId
  | .string s => (ObjId.new crates s).toOption
  | _ => none

end Json

/-- `SimpleMapItem::deserialize`. -/
def SimpleMapItem.fromValue (web : WebCrates) : Json → Option SimpleMapItem
  | .string s => (ObjId.new web.toCrates s).toOption.map .objId
  | .object fields =>
      match fields.lookup "obj_type" with
      | some (.string objType) =>
          match fields.lookup "jwt", fields.lookup "body" with
          | some (.string jwt), _ => some (.objectJwt objType jwt)
          | some _, _ => none
          | none, some body => some (.object objType (web.jcs body))
          | none, none => none
      | _ => none
  | _ => none

/-- `BaseContentObject::deserialize` from the fields of a value. -/
def BaseContentObject.fromFields (crates : Crates) (dids : DidCrate)
    (get : String → Option Json) : Option (BaseContentObject dids) := do
  let did ← optionField (fun v => v.asStr.bind dids.parse) (get "did")
  let name ← defaultField "" Json.asStr (get "name")
  let author ← defaultField "" Json.asStr (get "author")
  let owner ← defaultField dids.default (fun v => v.asStr.bind dids.parse) (get "owner")
  let createTime ← requiredField Json.asU64 (get "create_time")
  let lastUpdateTime ← requiredField Json.asU64 (get "last_update_time")
  let copyright ← optionField Json.asStr (get "copyright")
  let tags ← defaultField [] Json.stringArray (get "tags")
  let categories ← defaultField [] Json.stringArray (get "categories")
  let baseOn ← optionField (Json.asObjId crates) (get "base_on")
  let directory ← defaultField .empty (Json.asMap Json.asUnit) (get "directory")
  let references ← defaultField .empty (Json.asMap Json.asUnit) (get "references")
  let exp ← defaultField 0 Json.asU64 (get "exp")
  return ⟨did, name, author, owner, createTime, lastUpdateTime, copyright, tags, categories,
    baseOn, directory, references, exp⟩

/-- `DirObject::deserialize` from the fields of a value. -/
def DirObject.fromFields (web : WebCrates) (dids : DidCrate) (get : String → Option Json) :
    Option (DirObject dids) := do
  let contentObj ← BaseContentObject.fromFields web.toCrates dids get
  let metaMap ← defaultField .empty (Json.asMap some) (get "meta")
  let totalSize ← requiredField Json.asU64 (get "total_size")
  let fileCount ← requiredField Json.asU64 (get "file_count")
  let fileSize ← requiredField Json.asU64 (get "file_size")
  let objectMap ← defaultField .empty (Json.asMap (SimpleMapItem.fromValue web)) (get "body")
  return ⟨contentObj, metaMap, totalSize, fileCount, fileSize, objectMap⟩

/-- `serde_json::from_value::<DirObject>`. -/
def DirObject.fromValue (web : WebCrates) (dids : DidCrate) : Json → Option (DirObject dids)
  | .object fields => DirObject.fromFields web dids fun field => fields.lookup field
  | _ => none

end NdnLib
end CyfsNdn

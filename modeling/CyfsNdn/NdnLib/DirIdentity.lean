import CyfsNdn.NdnLib.DirObject
import CyfsNdn.NdnLib.SampleWeb
import CyfsNdn.Collections.Traverse

/-!
# The identity of a directory

`gen_obj_id` names a directory by a text.  Read back, the text is a directory with the
same children, under the same name, which is named the same way again.  It has the same
fields too, but for `meta`: the value that is named does not have it.
-/

namespace CyfsNdn
namespace NdnLib

open Collections

/-- A value as `serde_json` holds it, nested at most so deep, of strings, `u64` numbers,
arrays and maps. -/
inductive Json.Plain : Nat → Json → Prop
  | string (depth : Nat) (s : String) : Plain depth (.string s)
  | number (depth n : Nat) (bound : n < 2 ^ 64) : Plain depth (.number (.natural n))
  | array (depth : Nat) (items : List Json) (each : ∀ v ∈ items, Plain depth v) :
      Plain (depth + 1) (.array items)
  | object (depth : Nat) (fields : List (String × Json)) (sorted : KeySorted fields)
      (each : ∀ e ∈ fields, Plain depth e.2) : Plain (depth + 1) (.object fields)

/-- The canonical text of a plain value is read as this value. -/
def WebCrates.ReadsCanonical (web : WebCrates) : Prop :=
  ∀ v, v.Plain 4 → web.jsonParse (web.jcs v) = some v

/-! ## The statement -/

/-- The maps have the same entries. -/
def StringMap.Same {α : Type} (names names' : StringMap α) : Prop :=
  names.entries.Perm names'.entries

/-- The same fields. -/
structure BaseContentObject.Same {dids : DidCrate} (obj obj' : BaseContentObject dids) :
    Prop where
  did : obj.did = obj'.did
  name : obj.name = obj'.name
  author : obj.author = obj'.author
  owner : obj.owner = obj'.owner
  createTime : obj.createTime = obj'.createTime
  lastUpdateTime : obj.lastUpdateTime = obj'.lastUpdateTime
  copyright : obj.copyright = obj'.copyright
  tags : obj.tags = obj'.tags
  categories : obj.categories = obj'.categories
  baseOn : obj.baseOn = obj'.baseOn
  directory : obj.directory.Same obj'.directory
  references : obj.references.Same obj'.references
  exp : obj.exp = obj'.exp

/-- The same fields, but for the children. -/
structure DirObject.SameFields {dids : DidCrate} (dir dir' : DirObject dids) : Prop where
  contentObj : dir.contentObj.Same dir'.contentObj
  metaMap : dir.metaMap.Same dir'.metaMap
  totalSize : dir.totalSize = dir'.totalSize
  fileCount : dir.fileCount = dir'.fileCount
  fileSize : dir.fileSize = dir'.fileSize

/-- Every child has an id, and the names have the same ids. -/
def DirObject.SameChildren (crates : Crates) {dids : DidCrate} (dir dir' : DirObject dids) :
    Prop :=
  ∃ ids ids', dir.childIds crates = .ok ids ∧ dir'.childIds crates = .ok ids' ∧ ids.Perm ids'

/-- The identity is stable: the text that is named is read as the same directory, which
is named the same way, and the id is the one of the text. -/
def DirObject.Stable (web : WebCrates) {dids : DidCrate} (dir : DirObject dids) : Prop :=
  ∃ id text, dir.genObjId web = .ok (id, text) ∧
    ∃ value, web.jsonParse text = some value ∧ verifyNamedObject web id value = true ∧
      ∃ read, DirObject.fromValue web dids value = some read ∧ read.SameFields dir ∧
        read.SameChildren web.toCrates dir ∧ read.genObjId web = .ok (id, text)

/-- `meta` is empty, every child has an id, and every identifier is read back from its
text.  An owner that is not valid is not written. -/
structure DirObject.Writable (crates : Crates) {dids : DidCrate} (dir : DirObject dids) :
    Prop where
  metaMap : dir.metaMap.entries = []
  jwt : ∀ e ∈ dir.objectMap.entries, ∀ objType jwt, e.2 = .objectJwt objType jwt →
    (crates.jwtClaims jwt).isSome
  ids : ∀ e ∈ dir.objectMap.entries, ∀ id text, e.2.getObjId crates = .ok (id, text) →
    ':' ∉ id.objType.toList
  did : ∀ did, dir.contentObj.did = some did → dids.parse (dids.toText did) = some did
  owner : if dids.isValid dir.contentObj.owner then
      dids.parse (dids.toText dir.contentObj.owner) = some dir.contentObj.owner
    else dir.contentObj.owner = dids.default
  baseOn : ∀ id, dir.contentObj.baseOn = some id → ':' ∉ id.objType.toList

/-! ## Identifiers -/

/-- An identifier is read back from its text exactly if its type has no colon. -/
theorem ObjId.new_toString_iff {crates : Crates} (laws : crates.Lawful) {id id' : ObjId} :
    ObjId.new crates (id.toString crates) = .ok id' ↔ id' = id ∧ ':' ∉ id.objType.toList := by
  constructor
  · intro h
    obtain rfl := ObjId.eq_of_new_toString laws h
    exact ⟨rfl, ObjId.Accepted.colon_not_mem ⟨_, h⟩⟩
  · rintro ⟨rfl, hcolon⟩
    exact ObjId.new_toString_of_colon_not_mem laws hcolon

/-! ## Fields -/

section Fields

theorem toOption_eq_some_iff {ε α : Type} {result : Except ε α} {x : α} :
    result.toOption = some x ↔ result = .ok x := by
  cases result <;> simp [Except.toOption]

theorem defaultField_skipIf {α : Type} {default x : α} {read : Json → Option α} {skip : Bool}
    {value : Json} (hskip : skip = true → x = default) (hread : skip = false → read value = some x) :
    defaultField default read (skipIf skip value) = some x := by
  cases skip with
  | true => rw [hskip rfl]; rfl
  | false => exact hread rfl

/-- An optional field is read back exactly if its value is. -/
theorem optionField_map_iff {α : Type} {read : Json → Option α} {write : α → Json}
    (hnull : ∀ x, write x ≠ .null) {x : Option α} :
    optionField read (x.map write) = some x ↔ ∀ y, x = some y → read (write y) = some y := by
  cases x with
  | none => simp [optionField]
  | some x =>
      have hsome : optionField read (some (write x)) = (read (write x)).map some := by
        cases hwrite : write x with
        | null => exact absurd hwrite (hnull x)
        | _ => rfl
      rw [Option.map_some, hsome]
      cases hread : read (write x) <;> simp [hread]

theorem Json.asU64_u64 (n : UInt64) : (Json.u64 n).asU64 = some n := by
  change (if n.toNat < 2 ^ 64 then some (UInt64.ofNat n.toNat) else none) = some n
  rw [if_pos n.toNat_lt, UInt64.ofNat_toNat]

theorem Json.stringArray_ofStrings (texts : List String) :
    (Json.ofStrings texts).stringArray = some texts := by
  change (texts.map Json.string).mapM Json.asStr = some texts
  induction texts with
  | nil => rfl
  | cons text rest ih =>
      rw [List.map_cons, List.mapM_cons, ih]
      rfl

/-- A map that was written is read as the map in the order of its keys. -/
theorem Json.asMap_ofMap {α β : Type} (read : Json → Option β) (write : α → Json) (f : α → β)
    {entries : List (String × α)} (hnodup : (entries.map Prod.fst).Nodup)
    (hread : ∀ e ∈ entries, read (write e.2) = some (f e.2)) :
    ∃ names : StringMap β,
      Json.asMap read (.ofMap (entries.map fun e => (e.1, write e.2))) = some names ∧
        names.entries = (sortKeys entries).map fun e => (e.1, f e.2) := by
  have hkeys : (((sortKeys entries).map fun e => (e.1, f e.2)).map Prod.fst).Nodup := by
    rw [map_fst_map_snd]
    exact (keySorted_sortKeys hnodup).nodup
  have hfields : (sortKeys (entries.map fun e => (e.1, write e.2))).mapM
      (fun e => (read e.2).map (e.1, ·)) =
        some ((sortKeys entries).map fun e => (e.1, f e.2)) := by
    rw [sortKeys_map_snd, List.mapM_map]
    refine mapM_eq_some_map fun e he => ?_
    have hmem := (perm_sortKeys entries).mem_iff.mp he
    simp [hread e hmem]
  refine ⟨⟨_, hkeys⟩, ?_, rfl⟩
  change StringMap.ofFields read (sortKeys (entries.map fun e => (e.1, write e.2))) = _
  unfold StringMap.ofFields
  rw [hfields]
  exact dif_pos hkeys

end Fields

/-! ## What is read -/

section Reading

variable {crates : Crates} {web : WebCrates} {dids : DidCrate} {get : String → Option Json}

/-- The fields of a content object are read one by one. -/
theorem BaseContentObject.fromFields_eq_some_iff {obj : BaseContentObject dids} :
    BaseContentObject.fromFields crates dids get = some obj ↔
      optionField (fun v => v.asStr.bind dids.parse) (get "did") = some obj.did ∧
      defaultField "" Json.asStr (get "name") = some obj.name ∧
      defaultField "" Json.asStr (get "author") = some obj.author ∧
      defaultField dids.default (fun v => v.asStr.bind dids.parse) (get "owner") =
        some obj.owner ∧
      requiredField Json.asU64 (get "create_time") = some obj.createTime ∧
      requiredField Json.asU64 (get "last_update_time") = some obj.lastUpdateTime ∧
      optionField Json.asStr (get "copyright") = some obj.copyright ∧
      defaultField [] Json.stringArray (get "tags") = some obj.tags ∧
      defaultField [] Json.stringArray (get "categories") = some obj.categories ∧
      optionField (Json.asObjId crates) (get "base_on") = some obj.baseOn ∧
      defaultField .empty (Json.asMap Json.asUnit) (get "directory") = some obj.directory ∧
      defaultField .empty (Json.asMap Json.asUnit) (get "references") = some obj.references ∧
      defaultField 0 Json.asU64 (get "exp") = some obj.exp := by
  unfold BaseContentObject.fromFields
  constructor
  · intro h
    obtain ⟨_, hdid, h⟩ := Option.bind_eq_some_iff.mp h
    obtain ⟨_, hname, h⟩ := Option.bind_eq_some_iff.mp h
    obtain ⟨_, hauthor, h⟩ := Option.bind_eq_some_iff.mp h
    obtain ⟨_, howner, h⟩ := Option.bind_eq_some_iff.mp h
    obtain ⟨_, hcreate, h⟩ := Option.bind_eq_some_iff.mp h
    obtain ⟨_, hupdate, h⟩ := Option.bind_eq_some_iff.mp h
    obtain ⟨_, hcopyright, h⟩ := Option.bind_eq_some_iff.mp h
    obtain ⟨_, htags, h⟩ := Option.bind_eq_some_iff.mp h
    obtain ⟨_, hcategories, h⟩ := Option.bind_eq_some_iff.mp h
    obtain ⟨_, hbase, h⟩ := Option.bind_eq_some_iff.mp h
    obtain ⟨_, hdirectory, h⟩ := Option.bind_eq_some_iff.mp h
    obtain ⟨_, hreferences, h⟩ := Option.bind_eq_some_iff.mp h
    obtain ⟨_, hexp, h⟩ := Option.bind_eq_some_iff.mp h
    obtain rfl := Option.some.inj h
    exact ⟨hdid, hname, hauthor, howner, hcreate, hupdate, hcopyright, htags, hcategories, hbase,
      hdirectory, hreferences, hexp⟩
  · rintro ⟨hdid, hname, hauthor, howner, hcreate, hupdate, hcopyright, htags, hcategories, hbase,
      hdirectory, hreferences, hexp⟩
    rw [hdid, hname, hauthor, howner, hcreate, hupdate, hcopyright, htags, hcategories, hbase,
      hdirectory, hreferences, hexp]
    rfl

/-- The fields of a directory are read one by one. -/
theorem DirObject.fromFields_eq_some_iff {dir : DirObject dids} :
    DirObject.fromFields web dids get = some dir ↔
      BaseContentObject.fromFields web.toCrates dids get = some dir.contentObj ∧
      defaultField .empty (Json.asMap some) (get "meta") = some dir.metaMap ∧
      requiredField Json.asU64 (get "total_size") = some dir.totalSize ∧
      requiredField Json.asU64 (get "file_count") = some dir.fileCount ∧
      requiredField Json.asU64 (get "file_size") = some dir.fileSize ∧
      defaultField .empty (Json.asMap (SimpleMapItem.fromValue web)) (get "body") =
        some dir.objectMap := by
  unfold DirObject.fromFields
  constructor
  · intro h
    obtain ⟨_, hcontent, h⟩ := Option.bind_eq_some_iff.mp h
    obtain ⟨_, hmeta, h⟩ := Option.bind_eq_some_iff.mp h
    obtain ⟨_, htotal, h⟩ := Option.bind_eq_some_iff.mp h
    obtain ⟨_, hcount, h⟩ := Option.bind_eq_some_iff.mp h
    obtain ⟨_, hsize, h⟩ := Option.bind_eq_some_iff.mp h
    obtain ⟨_, hbody, h⟩ := Option.bind_eq_some_iff.mp h
    obtain rfl := Option.some.inj h
    exact ⟨hcontent, hmeta, htotal, hcount, hsize, hbody⟩
  · rintro ⟨hcontent, hmeta, htotal, hcount, hsize, hbody⟩
    rw [hcontent, hmeta, htotal, hcount, hsize, hbody]
    rfl

end Reading

/-! ## The named value -/

namespace DirObject

section RealObj

variable {crates : Crates} {dids : DidCrate} {dir : DirObject dids} {ids : List (String × ObjId)}

theorem keys_realFields : (dir.realFields crates ids).map Prod.fst =
    ["did", "name", "author", "owner", "create_time", "last_update_time", "copyright", "tags",
      "categories", "base_on", "directory", "references", "exp", "total_size", "file_count",
      "file_size", "body"] := rfl

theorem nodup_keys_realFields : ((dir.realFields crates ids).map Prod.fst).Nodup := by
  rw [keys_realFields]
  decide

theorem nodup_keys_present_realFields :
    ((present (dir.realFields crates ids)).map Prod.fst).Nodup :=
  nodup_keys_realFields.sublist (keys_present_sublist _)

/-- What is read at a field of the named value. -/
theorem lookup_realFields (field : String) :
    (sortKeys (present (dir.realFields crates ids))).lookup field =
      ((dir.realFields crates ids).lookup field).join := by
  rw [lookup_sortKeys nodup_keys_present_realFields, lookup_present nodup_keys_realFields]

/-- The content object that is read from the named value. -/
theorem contentObj_realFields_iff {obj : BaseContentObject dids} :
    BaseContentObject.fromFields crates dids
        (fun field => ((dir.realFields crates ids).lookup field).join) = some obj ↔
      optionField (fun v => v.asStr.bind dids.parse)
        (dir.contentObj.did.map fun did => .string (dids.toText did)) = some obj.did ∧
      defaultField "" Json.asStr
        (skipIf (dir.contentObj.name == "") (.string dir.contentObj.name)) = some obj.name ∧
      defaultField "" Json.asStr
        (skipIf (dir.contentObj.author == "") (.string dir.contentObj.author)) =
          some obj.author ∧
      defaultField dids.default (fun v => v.asStr.bind dids.parse)
        (skipIf (!dids.isValid dir.contentObj.owner)
          (.string (dids.toText dir.contentObj.owner))) = some obj.owner ∧
      (Json.u64 dir.contentObj.createTime).asU64 = some obj.createTime ∧
      (Json.u64 dir.contentObj.lastUpdateTime).asU64 = some obj.lastUpdateTime ∧
      optionField Json.asStr (dir.contentObj.copyright.map .string) = some obj.copyright ∧
      defaultField [] Json.stringArray
        (skipIf dir.contentObj.tags.isEmpty (.ofStrings dir.contentObj.tags)) = some obj.tags ∧
      defaultField [] Json.stringArray
        (skipIf dir.contentObj.categories.isEmpty (.ofStrings dir.contentObj.categories)) =
          some obj.categories ∧
      optionField (Json.asObjId crates)
        (dir.contentObj.baseOn.map fun id => .string (id.toString crates)) = some obj.baseOn ∧
      defaultField .empty (Json.asMap Json.asUnit)
        (skipIf dir.contentObj.directory.entries.isEmpty (.ofNames dir.contentObj.directory)) =
          some obj.directory ∧
      defaultField .empty (Json.asMap Json.asUnit)
        (skipIf dir.contentObj.references.entries.isEmpty
          (.ofNames dir.contentObj.references)) = some obj.references ∧
      defaultField 0 Json.asU64 (skipIf (dir.contentObj.exp == 0) (.u64 dir.contentObj.exp)) =
        some obj.exp := by
  rw [BaseContentObject.fromFields_eq_some_iff]
  exact Iff.rfl

/-- The directory that is read from the named value. -/
theorem fromValue_realObj_iff {web : WebCrates} {read : DirObject dids} :
    DirObject.fromValue web dids (dir.realObj web.toCrates ids) = some read ↔
      BaseContentObject.fromFields web.toCrates dids
        (fun field => ((dir.realFields web.toCrates ids).lookup field).join) =
          some read.contentObj ∧
      read.metaMap = .empty ∧ read.totalSize = dir.totalSize ∧
      read.fileCount = dir.fileCount ∧ read.fileSize = dir.fileSize ∧
      Json.asMap (SimpleMapItem.fromValue web)
        (.ofMap (ids.map fun e => (e.1, .string (e.2.toString web.toCrates)))) =
          some read.objectMap := by
  have hget : (fun field => (sortKeys (present (dir.realFields web.toCrates ids))).lookup field) =
      fun field => ((dir.realFields web.toCrates ids).lookup field).join :=
    funext lookup_realFields
  have hfields : DirObject.fromValue web dids (dir.realObj web.toCrates ids) =
      DirObject.fromFields web dids
        fun field => ((dir.realFields web.toCrates ids).lookup field).join := by
    rw [← hget]
    rfl
  have hmeta : ((dir.realFields web.toCrates ids).lookup "meta").join = none := rfl
  have htotal : ((dir.realFields web.toCrates ids).lookup "total_size").join =
      some (.u64 dir.totalSize) := rfl
  have hcount : ((dir.realFields web.toCrates ids).lookup "file_count").join =
      some (.u64 dir.fileCount) := rfl
  have hsize : ((dir.realFields web.toCrates ids).lookup "file_size").join =
      some (.u64 dir.fileSize) := rfl
  have hbody : ((dir.realFields web.toCrates ids).lookup "body").join =
      some (.ofMap (ids.map fun e => (e.1, .string (e.2.toString web.toCrates)))) := rfl
  rw [hfields, DirObject.fromFields_eq_some_iff, hmeta, htotal, hcount, hsize, hbody]
  simp only [defaultField, requiredField, Json.asU64_u64, Option.some.injEq]
  exact and_congr_right fun _ => by
    constructor
    · rintro ⟨hmeta, htotal, hcount, hsize, hbody⟩
      exact ⟨hmeta.symm, htotal.symm, hcount.symm, hsize.symm, hbody⟩
    · rintro ⟨hmeta, htotal, hcount, hsize, hbody⟩
      exact ⟨hmeta.symm, htotal.symm, hcount.symm, hsize.symm, hbody⟩

end RealObj

end DirObject

/-! ## Children -/

namespace DirObject

section Children

variable {crates : Crates} {dids : DidCrate} {dir : DirObject dids} {ids : List (String × ObjId)}

theorem childIds_eq_ok_iff : dir.childIds crates = .ok ids ↔
    List.Forall₂ (fun e named => named.1 = e.1 ∧
      ∃ text, e.2.getObjId crates = .ok (named.2, text)) dir.objectMap.entries ids := by
  have hitem : ∀ (e : String × SimpleMapItem) (named : String × ObjId),
      (e.2.getObjId crates).map (fun pair => (e.1, pair.1)) = .ok named ↔
        named.1 = e.1 ∧ ∃ text, e.2.getObjId crates = .ok (named.2, text) := by
    intro e named
    cases hid : e.2.getObjId crates with
    | error e => simp [Except.map]
    | ok pair =>
        obtain ⟨id, text⟩ := pair
        obtain ⟨name, id'⟩ := named
        simp [Except.map, eq_comm]
  unfold childIds
  rw [mapM_eq_ok_iff_forall₂]
  simp only [hitem]

theorem keys_of_childIds (h : dir.childIds crates = .ok ids) :
    ids.map Prod.fst = dir.objectMap.entries.map Prod.fst := by
  have hall := childIds_eq_ok_iff.mp h
  clear h
  generalize dir.objectMap.entries = entries at hall ⊢
  induction hall with
  | nil => rfl
  | cons hR hrest ih => rw [List.map_cons, List.map_cons, hR.1, ih]

theorem nodup_keys_of_childIds (h : dir.childIds crates = .ok ids) :
    (ids.map Prod.fst).Nodup := by
  rw [keys_of_childIds h]
  exact dir.objectMap.nodup

/-- A directory whose children all stand by their ids. -/
theorem childIds_of_objId {entries : List (String × ObjId)}
    (h : dir.objectMap.entries = entries.map fun e => (e.1, .objId e.2)) :
    dir.childIds crates = .ok entries := by
  unfold childIds
  rw [h, List.mapM_map, mapM_eq_ok_iff_forall₂, List.forall₂_same]
  exact fun e _ => rfl

/-- Only a JWT that cannot be decoded has no id. -/
theorem exists_childIds_iff : (∃ ids, dir.childIds crates = .ok ids) ↔
    ∀ e ∈ dir.objectMap.entries, ∀ objType jwt, e.2 = .objectJwt objType jwt →
      (crates.jwtClaims jwt).isSome := by
  unfold childIds
  rw [exists_mapM_eq_ok_iff]
  refine forall₂_congr fun e he => ?_
  obtain ⟨name, item⟩ := e
  cases item with
  | objId id => simp [SimpleMapItem.getObjId, Except.map]
  | object objType json => simp [SimpleMapItem.getObjId, Except.map]
  | objectJwt objType jwt =>
      cases hclaims : crates.jwtClaims jwt <;>
        simp [SimpleMapItem.getObjId, Except.map, hclaims]

end Children

end DirObject

/-! ## Names that are read back -/

namespace StringMap

/-- The map in the order of its keys. -/
def sorted {α : Type} (names : StringMap α) : StringMap α :=
  ⟨sortKeys names.entries, (keySorted_sortKeys names.nodup).nodup⟩

theorem same_sorted {α : Type} (names : StringMap α) : names.sorted.Same names :=
  perm_sortKeys names.entries

theorem isEmpty_sorted {α : Type} (names : StringMap α) :
    names.sorted.entries.isEmpty = names.entries.isEmpty := by
  rw [Bool.eq_iff_iff, List.isEmpty_iff_length_eq_zero, List.isEmpty_iff_length_eq_zero,
    names.same_sorted.length_eq]

theorem ofNames_sorted (names : StringMap Unit) :
    Json.ofNames names.sorted = Json.ofNames names := by
  unfold Json.ofNames Json.ofMap
  rw [sortKeys_map_snd _ fun _ => Json.object [], sortKeys_map_snd _ fun _ => Json.object []]
  unfold sorted
  rw [sortKeys_sortKeys names.nodup]

/-- The names are read back in the order of the value. -/
theorem defaultField_ofNames (names : StringMap Unit) :
    defaultField .empty (Json.asMap Json.asUnit)
      (skipIf names.entries.isEmpty (.ofNames names)) = some names.sorted := by
  refine defaultField_skipIf (fun hempty => ?_) fun _ => ?_
  · obtain ⟨entries, hnodup⟩ := names
    obtain rfl := List.isEmpty_iff.mp hempty
    rfl
  · obtain ⟨read, hread, hentries⟩ := Json.asMap_ofMap Json.asUnit (fun _ => .object []) id
      names.nodup fun _ _ => rfl
    have hsorted : read = names.sorted := by
      obtain ⟨entries, hnodup⟩ := read
      obtain rfl : entries = sortKeys names.entries := by simpa using hentries
      rfl
    rw [← hsorted]
    exact hread

end StringMap

namespace DirObject

section Written

variable {web : WebCrates} {dids : DidCrate} {dir : DirObject dids} {ids : List (String × ObjId)}

/-- The content object with its maps in the order in which they are read. -/
def sortedContent (dir : DirObject dids) : BaseContentObject dids :=
  { dir.contentObj with
    directory := dir.contentObj.directory.sorted
    references := dir.contentObj.references.sorted }

/-- The directory that is read from the named value: the same content, no `meta`, every
child by its id. -/
def written (dir : DirObject dids) (items : StringMap SimpleMapItem) : DirObject dids :=
  ⟨dir.sortedContent, .empty, dir.totalSize, dir.fileCount, dir.fileSize, items⟩

theorem toFields_sortedContent (crates : Crates) :
    dir.sortedContent.toFields crates = dir.contentObj.toFields crates := by
  unfold sortedContent BaseContentObject.toFields
  dsimp only
  rw [StringMap.isEmpty_sorted, StringMap.isEmpty_sorted, StringMap.ofNames_sorted,
    StringMap.ofNames_sorted]

theorem same_sortedContent : dir.sortedContent.Same dir.contentObj :=
  ⟨rfl, rfl, rfl, rfl, rfl, rfl, rfl, rfl, rfl, rfl, StringMap.same_sorted _,
    StringMap.same_sorted _, rfl⟩

/-- The owner, the DID and the object it is based on are what may not be read back. -/
theorem contentObj_read_iff (laws : web.Lawful) :
    BaseContentObject.fromFields web.toCrates dids
        (fun field => ((dir.realFields web.toCrates ids).lookup field).join) =
          some dir.sortedContent ↔
      (∀ did, dir.contentObj.did = some did → dids.parse (dids.toText did) = some did) ∧
      (if dids.isValid dir.contentObj.owner then
          dids.parse (dids.toText dir.contentObj.owner) = some dir.contentObj.owner
        else dir.contentObj.owner = dids.default) ∧
      ∀ id, dir.contentObj.baseOn = some id → ':' ∉ id.objType.toList := by
  have hdid : optionField (fun v => v.asStr.bind dids.parse)
      (dir.contentObj.did.map fun did => .string (dids.toText did)) =
        some dir.contentObj.did ↔
      ∀ did, dir.contentObj.did = some did → dids.parse (dids.toText did) = some did :=
    optionField_map_iff fun _ h => by cases h
  have hcopyright : optionField Json.asStr (dir.contentObj.copyright.map .string) =
      some dir.contentObj.copyright := (optionField_map_iff fun _ h => by cases h).mpr
    fun _ _ => rfl
  have hbase : optionField (Json.asObjId web.toCrates)
      (dir.contentObj.baseOn.map fun id => .string (id.toString web.toCrates)) =
        some dir.contentObj.baseOn ↔
      ∀ id, dir.contentObj.baseOn = some id → ':' ∉ id.objType.toList := by
    rw [optionField_map_iff fun _ h => by cases h]
    refine forall₂_congr fun id _ => ?_
    change (ObjId.new web.toCrates (id.toString web.toCrates)).toOption = some id ↔ _
    rw [toOption_eq_some_iff, ObjId.new_toString_iff laws.crates]
    simp
  have howner : defaultField dids.default (fun v => v.asStr.bind dids.parse)
      (skipIf (!dids.isValid dir.contentObj.owner)
        (.string (dids.toText dir.contentObj.owner))) = some dir.contentObj.owner ↔
      if dids.isValid dir.contentObj.owner then
        dids.parse (dids.toText dir.contentObj.owner) = some dir.contentObj.owner
      else dir.contentObj.owner = dids.default := by
    cases dids.isValid dir.contentObj.owner with
    | true => exact Iff.rfl
    | false => simp [defaultField, skipIf, eq_comm]
  have htexts : ∀ texts : List String, defaultField [] Json.stringArray
      (skipIf texts.isEmpty (.ofStrings texts)) = some texts := fun texts =>
    defaultField_skipIf (fun hempty => List.isEmpty_iff.mp hempty)
      fun _ => Json.stringArray_ofStrings texts
  have htext : ∀ text : String, defaultField "" Json.asStr (skipIf (text == "") (.string text)) =
      some text := fun text =>
    defaultField_skipIf (fun hempty => by simpa using hempty) fun _ => rfl
  have hexp : defaultField 0 Json.asU64 (skipIf (dir.contentObj.exp == 0)
      (.u64 dir.contentObj.exp)) = some dir.contentObj.exp :=
    defaultField_skipIf (fun hzero => by simpa using hzero) fun _ => Json.asU64_u64 _
  rw [contentObj_realFields_iff]
  unfold sortedContent
  dsimp only
  rw [hdid, hbase, howner, hcopyright, htexts, htexts, htext, htext, hexp, Json.asU64_u64,
    Json.asU64_u64, StringMap.defaultField_ofNames, StringMap.defaultField_ofNames]
  simp

/-- The body is read exactly if every id is read back from its text. -/
theorem exists_asMap_body_iff (laws : web.Lawful) (hnodup : (ids.map Prod.fst).Nodup) :
    (∃ items, Json.asMap (SimpleMapItem.fromValue web)
        (.ofMap (ids.map fun e => (e.1, .string (e.2.toString web.toCrates)))) = some items) ↔
      ∀ e ∈ ids, ':' ∉ e.2.objType.toList := by
  constructor
  · rintro ⟨items, hread⟩ e he
    change StringMap.ofFields _ (sortKeys _) = some items at hread
    unfold StringMap.ofFields at hread
    split at hread
    · cases hread
    next entries hentries =>
    have hfield : (e.1, Json.string (e.2.toString web.toCrates)) ∈
        sortKeys (ids.map fun e => (e.1, Json.string (e.2.toString web.toCrates))) :=
      (perm_sortKeys _).mem_iff.mpr (List.mem_map.mpr ⟨e, he, rfl⟩)
    obtain ⟨entry, -, hentry⟩ :=
      exists_mem_right_of_forall₂ (mapM_eq_some_iff_forall₂.mp hentries) hfield
    obtain ⟨item, hitem, -⟩ := Option.map_eq_some_iff.mp hentry
    obtain ⟨id, hid, -⟩ := Option.map_eq_some_iff.mp hitem
    exact ((ObjId.new_toString_iff laws.crates).mp (toOption_eq_some_iff.mp hid)).2
  · intro hcolon
    obtain ⟨items, hread, -⟩ := Json.asMap_ofMap (SimpleMapItem.fromValue web)
      (fun id => .string (id.toString web.toCrates)) SimpleMapItem.objId hnodup fun e he => by
        change (ObjId.new web.toCrates (e.2.toString web.toCrates)).toOption.map _ = _
        rw [ObjId.new_toString_of_colon_not_mem laws.crates (hcolon e he)]
        rfl
    exact ⟨items, hread⟩

/-- The children are read as their ids. -/
theorem entries_of_asMap_body (laws : web.Lawful) (hnodup : (ids.map Prod.fst).Nodup)
    {items : StringMap SimpleMapItem}
    (hread : Json.asMap (SimpleMapItem.fromValue web)
      (.ofMap (ids.map fun e => (e.1, .string (e.2.toString web.toCrates)))) = some items) :
    items.entries = (sortKeys ids).map fun e => (e.1, .objId e.2) := by
  have hcolon := (exists_asMap_body_iff laws hnodup).mp ⟨items, hread⟩
  obtain ⟨items', hread', hentries⟩ := Json.asMap_ofMap (SimpleMapItem.fromValue web)
    (fun id => .string (id.toString web.toCrates)) SimpleMapItem.objId hnodup fun e he => by
      change (ObjId.new web.toCrates (e.2.toString web.toCrates)).toOption.map _ = _
      rw [ObjId.new_toString_of_colon_not_mem laws.crates (hcolon e he)]
      rfl
  rw [hread] at hread'
  rw [Option.some.inj hread', hentries]

/-- What is read has the same value. -/
theorem realObj_written (hnodup : (ids.map Prod.fst).Nodup) (items : StringMap SimpleMapItem) :
    (dir.written items).realObj web.toCrates (sortKeys ids) = dir.realObj web.toCrates ids := by
  have hbody : Json.ofMap ((sortKeys ids).map fun e =>
        (e.1, Json.string (e.2.toString web.toCrates))) =
      Json.ofMap (ids.map fun e => (e.1, Json.string (e.2.toString web.toCrates))) := by
    unfold Json.ofMap
    rw [sortKeys_map_snd _ fun id : ObjId => Json.string (id.toString web.toCrates),
      sortKeys_map_snd _ fun id : ObjId => Json.string (id.toString web.toCrates),
      sortKeys_sortKeys hnodup]
  unfold realObj realFields written
  rw [toFields_sortedContent, hbody]

end Written

/-! ## The value is plain -/

section Plain

variable {crates : Crates} {dids : DidCrate} {dir : DirObject dids} {ids : List (String × ObjId)}

/-- What is written under a condition is plain, if it is written. -/
theorem plain_skipIf {depth : Nat} {skip : Bool} {value : Json} (h : value.Plain depth) :
    ∀ v, skipIf skip value = some v → v.Plain depth := by
  intro v hv
  cases skip with
  | true => cases hv
  | false => exact Option.some.inj hv ▸ h

theorem plain_map {α : Type} {depth : Nat} {x : Option α} {write : α → Json}
    (h : ∀ x, (write x).Plain depth) : ∀ v, x.map write = some v → v.Plain depth := by
  intro v hv
  obtain ⟨y, -, rfl⟩ := Option.map_eq_some_iff.mp hv
  exact h y

theorem plain_u64 (depth : Nat) (n : UInt64) : (Json.u64 n).Plain depth :=
  .number depth _ n.toNat_lt

theorem plain_ofStrings (depth : Nat) (texts : List String) :
    (Json.ofStrings texts).Plain (depth + 1) := by
  refine .array depth _ fun v hv => ?_
  obtain ⟨text, -, rfl⟩ := List.mem_map.mp hv
  exact .string depth text

theorem plain_ofMap {α : Type} {depth : Nat} {entries : List (String × α)} {write : α → Json}
    (hnodup : (entries.map Prod.fst).Nodup) (h : ∀ x, (write x).Plain depth) :
    (Json.ofMap (entries.map fun e => (e.1, write e.2))).Plain (depth + 1) := by
  refine .object depth _ (keySorted_sortKeys ?_) fun e he => ?_
  · rwa [map_fst_map_snd]
  · obtain ⟨e', -, rfl⟩ := List.mem_map.mp ((perm_sortKeys _).mem_iff.mp he)
    exact h e'.2

theorem plain_ofNames (depth : Nat) (names : StringMap Unit) :
    (Json.ofNames names).Plain (depth + 2) :=
  plain_ofMap names.nodup fun _ => .object depth [] List.Pairwise.nil fun _ h => by cases h

/-- The named value is plain. -/
theorem plain_realObj (hnodup : (ids.map Prod.fst).Nodup) :
    (dir.realObj crates ids).Plain 4 := by
  refine .object 3 _ (keySorted_sortKeys nodup_keys_present_realFields) fun e he => ?_
  have hmem := mem_present.mp ((perm_sortKeys _).mem_iff.mp he)
  have hall : ∀ e ∈ dir.realFields crates ids, ∀ v, e.2 = some v → v.Plain 3 := by
    unfold realFields BaseContentObject.toFields
    simp only [List.cons_append, List.nil_append, List.forall_mem_cons]
    refine ⟨plain_map fun _ => .string 3 _, plain_skipIf (.string 3 _),
      plain_skipIf (.string 3 _), plain_skipIf (.string 3 _), ?_, ?_,
      plain_map fun _ => .string 3 _, plain_skipIf (plain_ofStrings 2 _),
      plain_skipIf (plain_ofStrings 2 _), plain_map fun _ => .string 3 _,
      plain_skipIf (plain_ofNames 1 _), plain_skipIf (plain_ofNames 1 _),
      plain_skipIf (plain_u64 3 _), ?_, ?_, ?_, ?_, fun e he => by cases he⟩
    all_goals rintro v ⟨⟩
    · exact plain_u64 3 _
    · exact plain_u64 3 _
    · exact plain_u64 3 _
    · exact plain_u64 3 _
    · exact plain_u64 3 _
    · exact plain_ofMap hnodup fun _ => .string 2 _
  exact hall _ hmem _ rfl

end Plain

/-! ## The identity -/

section Identity

variable {web : WebCrates} {dids : DidCrate}

/-- A content object with the same fields is read in the order of its maps. -/
theorem eq_sortedContent_of_same {dir : DirObject dids} {ids : List (String × ObjId)}
    {obj : BaseContentObject dids}
    (hread : BaseContentObject.fromFields web.toCrates dids
      (fun field => ((dir.realFields web.toCrates ids).lookup field).join) = some obj)
    (hsame : obj.Same dir.contentObj) : obj = dir.sortedContent := by
  obtain ⟨-, -, -, -, -, -, -, -, -, -, hdirectory, hreferences, -⟩ :=
    contentObj_realFields_iff.mp hread
  rw [StringMap.defaultField_ofNames] at hdirectory hreferences
  exact BaseContentObject.ext hsame.did hsame.name hsame.author hsame.owner hsame.createTime
    hsame.lastUpdateTime hsame.copyright hsame.tags hsame.categories hsame.baseOn
    (Option.some.inj hdirectory).symm (Option.some.inj hreferences).symm hsame.exp

/-- What a stable identity needs is there. -/
theorem Stable.writable (laws : web.Lawful) (hreads : web.ReadsCanonical) {dir : DirObject dids}
    (h : dir.Stable web) : dir.Writable web.toCrates := by
  obtain ⟨id, text, hgen, value, hparse, -, read, hread, hsame, -, -⟩ := h
  unfold genObjId at hgen
  split at hgen
  · cases hgen
  next ids hids =>
  have hnodup := nodup_keys_of_childIds hids
  obtain ⟨-, rfl⟩ := Prod.mk.inj (Except.ok.inj hgen)
  have hvalue : value = dir.realObj web.toCrates ids := by
    rw [hreads _ (plain_realObj hnodup)] at hparse
    exact (Option.some.inj hparse).symm
  rw [hvalue] at hread
  obtain ⟨hcontent, hmeta, -, -, -, hbody⟩ := fromValue_realObj_iff.mp hread
  have hcolon := (exists_asMap_body_iff laws hnodup).mp ⟨_, hbody⟩
  rw [eq_sortedContent_of_same hcontent hsame.contentObj] at hcontent
  obtain ⟨hdid, howner, hbase⟩ := (contentObj_read_iff laws).mp hcontent
  refine ⟨?_, exists_childIds_iff.mp ⟨ids, hids⟩, ?_, hdid, howner, hbase⟩
  · have hempty := hsame.metaMap
    rw [hmeta] at hempty
    exact (List.nil_perm.mp hempty)
  · intro e he id text hid
    obtain ⟨named, hnamed, -, text', hid'⟩ :=
      exists_mem_right_of_forall₂ (childIds_eq_ok_iff.mp hids) he
    rw [hid] at hid'
    obtain ⟨rfl, -⟩ := Prod.mk.inj (Except.ok.inj hid')
    exact hcolon named hnamed

/-- What is written is read back and named the same way. -/
theorem Writable.stable (laws : web.Lawful) (hreads : web.ReadsCanonical) {dir : DirObject dids}
    (h : dir.Writable web.toCrates) : dir.Stable web := by
  obtain ⟨ids, hids⟩ := exists_childIds_iff.mpr h.jwt
  have hnodup := nodup_keys_of_childIds hids
  have hcolon : ∀ e ∈ ids, ':' ∉ e.2.objType.toList := by
    intro e he
    obtain ⟨e', he', -, text, hid⟩ :=
      exists_mem_left_of_forall₂ (childIds_eq_ok_iff.mp hids) he
    exact h.ids e' he' e.2 text hid
  obtain ⟨items, hbody⟩ := (exists_asMap_body_iff laws hnodup).mpr hcolon
  have hcontent : BaseContentObject.fromFields web.toCrates dids
      (fun field => ((dir.realFields web.toCrates ids).lookup field).join) =
        some dir.sortedContent := (contentObj_read_iff laws).mpr ⟨h.did, h.owner, h.baseOn⟩
  have hread : DirObject.fromValue web dids (dir.realObj web.toCrates ids) =
      some (dir.written items) :=
    fromValue_realObj_iff.mpr ⟨hcontent, rfl, rfl, rfl, rfl, hbody⟩
  have hchildren : (dir.written items).childIds web.toCrates = .ok (sortKeys ids) :=
    childIds_of_objId (entries_of_asMap_body laws hnodup hbody)
  have hgen : dir.genObjId web =
      .ok (buildNamedObjectByJson web "cydir" (dir.realObj web.toCrates ids)) := by
    unfold genObjId
    rw [hids]
  refine ⟨_, _, hgen, _, hreads _ (plain_realObj hnodup), decide_eq_true rfl, _, hread,
    ⟨same_sortedContent, ?_, rfl, rfl, rfl⟩, ⟨_, ids, hchildren, hids, perm_sortKeys ids⟩, ?_⟩
  · unfold StringMap.Same
    rw [h.metaMap]
    exact List.Perm.refl _
  · unfold genObjId
    rw [hchildren]
    dsimp only
    rw [realObj_written hnodup]
    rfl

/-- The identity of a directory is stable exactly if everything it has can be written:
its `meta` is lost. -/
theorem genObjId_stable_iff (laws : web.Lawful) (hreads : web.ReadsCanonical)
    (dir : DirObject dids) : dir.Stable web ↔ dir.Writable web.toCrates :=
  ⟨Stable.writable laws hreads, Writable.stable laws hreads⟩

end Identity

/-! ## A directory with `meta` -/

/-- DIDs of which only the undefined one is not valid. -/
def sampleDids : DidCrate where
  Did := Option String
  toText := fun did => did.getD ""
  parse := fun text => some (some text)
  default := none
  isValid := Option.isSome

theorem sampleWeb_readsCanonical : sampleWeb.ReadsCanonical :=
  fun v _ => sampleJsonParse_sampleJcs v

/-- A directory without children. -/
def emptyDir : DirObject sampleDids where
  contentObj := ⟨none, "", "", none, 0, 0, none, [], [], none, .empty, .empty, 0⟩
  metaMap := .empty
  totalSize := 0
  fileCount := 0
  fileSize := 0
  objectMap := .empty

/-- The same directory with one entry in its `meta`. -/
def metaDir : DirObject sampleDids :=
  { emptyDir with metaMap := ⟨[("k", .string "v")], by decide⟩ }

/-- The two directories have one name, so `meta` is lost. -/
theorem metaDir_not_stable :
    metaDir.genObjId sampleWeb = emptyDir.genObjId sampleWeb ∧ ¬ metaDir.Stable sampleWeb := by
  refine ⟨rfl, fun h => ?_⟩
  have hmeta := (h.writable sampleWeb_lawful sampleWeb_readsCanonical).metaMap
  cases hmeta

/-! ## A directory with children of every form -/

/-- The sample crates, which also read directories, files and JWTs.  A JWT has the text of
its claims between two dots. -/
def dirWeb : WebCrates :=
  { sampleWeb with
    toCrates :=
      { sampleWeb.toCrates with
        jsonDirItems := fun text =>
          ((sampleJsonParse text).bind (DirObject.fromValue sampleWeb sampleDids)).map fun dir =>
            dir.objectMap.entries.map Prod.snd
        jsonFileContent := fun text =>
          match sampleJsonParse text with
          | some (.object fields) => optionalString (.object fields) "content"
          | _ => none
        jsonValue := fun text => (sampleJsonParse text).map sampleJcs
        jwtClaims := fun jwt =>
          match splitText '.' jwt with
          | [_, claims, _] => (sampleJsonParse claims).map sampleJcs
          | _ => none } }

theorem dirWeb_lawful : dirWeb.Lawful where
  crates :=
    { hexDecode_hexEncode := sampleWeb_lawful.crates.hexDecode_hexEncode
      mem_hexEncode := sampleWeb_lawful.crates.mem_hexEncode
      varintDecode_varintEncode := sampleWeb_lawful.crates.varintDecode_varintEncode }
  jsonStringArray_eq := sampleWeb_lawful.jsonStringArray_eq
  descend_of_jcs_eq := sampleWeb_lawful.descend_of_jcs_eq
  ofStrings_of_jcs_eq := sampleWeb_lawful.ofStrings_of_jcs_eq
  content_of_fileObject := sampleWeb_lawful.content_of_fileObject
  fileObject_plainFile := sampleWeb_lawful.fileObject_plainFile
  jsonParse_jcs_plainFile := sampleWeb_lawful.jsonParse_jcs_plainFile

theorem dirWeb_readsCanonical : dirWeb.ReadsCanonical :=
  fun v _ => sampleJsonParse_sampleJcs v

/-- A directory with an owner and three children: by its id, in the parent, and as a JWT. -/
def childrenDir : DirObject sampleDids :=
  { emptyDir with
    contentObj := { emptyDir.contentObj with name := "home", owner := some "did:dev:alice" }
    objectMap :=
      ⟨[("c", .objectJwt "cyfile" "head.\x7b\"content\":\"\"\x7d.sign"),
        ("a", .objId ⟨"cyfile", [1]⟩),
        ("b", .object "cyfile" "\x7b\"content\":\"b\"\x7d")], by decide⟩ }

/-- The type of a child that is a JWT is the one its parent says. -/
theorem objType_of_jwt {crates : Crates} {objType jwt : String} {id : ObjId} {text : String}
    (h : (SimpleMapItem.objectJwt objType jwt).getObjId crates = .ok (id, text)) :
    id.objType = objType := by
  unfold SimpleMapItem.getObjId at h
  dsimp only at h
  split at h
  · cases h
  · obtain ⟨rfl, -⟩ := Prod.mk.inj (Except.ok.inj h)
    rfl

theorem childrenDir_writable : childrenDir.Writable dirWeb.toCrates where
  metaMap := rfl
  jwt := by
    intro e he objType jwt hjwt
    simp only [childrenDir, List.mem_cons, List.not_mem_nil, or_false] at he
    rcases he with rfl | rfl | rfl
    · obtain ⟨rfl, rfl⟩ := SimpleMapItem.objectJwt.inj hjwt
      decide
    · cases hjwt
    · cases hjwt
  ids := by
    intro e he id text hid
    simp only [childrenDir, List.mem_cons, List.not_mem_nil, or_false] at he
    have htype : id.objType = "cyfile" := by
      rcases he with rfl | rfl | rfl
      · exact objType_of_jwt hid
      · rw [← (Prod.mk.inj (Except.ok.inj hid)).1]
      · rw [← (Prod.mk.inj (Except.ok.inj hid)).1]
        rfl
    rw [htype]
    decide
  did := fun did h => by cases h
  owner := rfl
  baseOn := fun id h => by cases h

/-- The identity of the directory is stable; with an entry in its `meta` it is not. -/
theorem childrenDir_stable :
    childrenDir.Stable dirWeb ∧
      ¬ DirObject.Stable dirWeb
        { childrenDir with metaMap := ⟨[("k", .string "v")], by decide⟩ } := by
  constructor
  · exact (genObjId_stable_iff dirWeb_lawful dirWeb_readsCanonical childrenDir).mpr
      childrenDir_writable
  · intro hstable
    have hmeta := ((genObjId_stable_iff dirWeb_lawful dirWeb_readsCanonical _).mp hstable).metaMap
    cases hmeta

end DirObject

end NdnLib
end CyfsNdn

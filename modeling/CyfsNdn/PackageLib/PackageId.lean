import CyfsNdn.Collections.Separated
import CyfsNdn.Collections.Traverse
import CyfsNdn.NdnLib.ObjIdCodecs
import CyfsNdn.PackageLib.SampleSemver

/-!
# Package ids

`PackageId` of `package-lib/src/package_id.rs` and `PackageMeta` of `package-lib/src/meta.rs`.
Behind the name of a package stand a version expression, an object id or both, and what stands
alone behind it is an object id if it can be read as one.

The semver crate, the crates of the object ids and the readers of documents are parameters.
-/

namespace CyfsNdn
namespace PackageLib

open Collections NdnLib

/-- What the code calls of other crates. -/
structure PackageCrates where
  semver : SemverCrate
  /-- The crates of the object ids. -/
  ndn : WebCrates
  /-- `EncodedDocument::from_str` and `to_json_value`: the value, or the text of the error. -/
  documentJson : String → Except String Json
  /-- `serde_json::from_value::<FileObject>`: its name, or the text of the error. -/
  fileObjectName : Json → Except String String
  /-- The text of the error where a field has another type. -/
  invalidType : Json → String → String

/-- `PackageId`. -/
structure PackageId where
  name : String
  versionExp : Option VersionExp
  objid : Option String
  deriving DecidableEq, Repr

variable (crates : PackageCrates)

/-- `PackageId::to_string`. -/
def PackageId.toString (pkgId : PackageId) : String :=
  let result := pkgId.name
  let result := match pkgId.versionExp with
    | some version => result ++ "#" ++ version.toString crates.semver
    | none => result
  match pkgId.objid with
  | some objid => result ++ "#" ++ objid
  | none => result

/-- `is_raw_exact_id`: ASCII letters and digits, one at least. -/
def isRawExactId (versionPart : String) : Bool :=
  !versionPart.isEmpty && versionPart.toList.all Char.isAlphanum

/-- What is read as an object id where it stands alone behind the name. -/
def isExactId (versionPart : String) : Bool :=
  (ObjId.new crates.ndn.toCrates versionPart).isOk || isRawExactId versionPart

/-- `PackageId::parse`. -/
def PackageId.parse (pkgId : String) : PkgResult PackageId :=
  match pkgId.toList.splitOn '#' with
  | [name] => .ok ⟨String.ofList name, none, none⟩
  | [name, versionPart] =>
      if isExactId crates (String.ofList versionPart) then
        .ok ⟨String.ofList name, none, some (String.ofList versionPart)⟩
      else
        (VersionExp.fromStr crates.semver (String.ofList versionPart)).map fun versionExp =>
          ⟨String.ofList name, some versionExp, none⟩
  | [name, versionPart, objidPart] =>
      (VersionExp.fromStr crates.semver (String.ofList versionPart)).map fun versionExp =>
        ⟨String.ofList name, some versionExp, some (String.ofList objidPart)⟩
  | _ => .error (.parseError pkgId "Invalid package id")

/-! ## Metas -/

/-- `PackageMeta`, as far as it is read: of the base the name. -/
structure PackageMeta where
  name : String
  version : String
  versionTag : Option String
  deps : List (String × String)
  deriving DecidableEq, Repr

namespace PackageMeta

/-- The derived reader: the version has to be there, the tag and the dependencies need not. -/
def fromValue (pkgJson : Json) : Except String PackageMeta := do
  let name ← crates.fileObjectName pkgJson
  let version ← match pkgJson.get "version" with
    | some (.string version) => pure version
    | some value => throw (crates.invalidType value "a string")
    | none => throw "missing field `version`"
  let versionTag ← match pkgJson.get "version_tag" with
    | some (.string tag) => pure (some tag)
    | some .null => pure none
    | some value => throw (crates.invalidType value "a string")
    | none => pure none
  let deps ← match pkgJson.get "deps" with
    | some (.object fields) => fields.mapM fun field =>
        match field.2 with
        | .string req => pure (field.1, req)
        | value => throw (crates.invalidType value "a string")
    | some value => throw (crates.invalidType value "a map")
    | none => pure []
  return ⟨name, version, versionTag, deps⟩

/-- `PackageMeta::from_str`. -/
def fromStr (metaStr : String) : PkgResult PackageMeta :=
  match crates.documentJson metaStr with
  | .error e => .error (.parseError metaStr e)
  | .ok pkgJson =>
      match fromValue crates pkgJson with
      | .error e => .error (.parseError metaStr e)
      | .ok pkgMeta => .ok pkgMeta

/-- The version, and the tag behind it. -/
def versionPart (pkgMeta : PackageMeta) : String :=
  match pkgMeta.versionTag with
  | some tag => pkgMeta.version ++ ":" ++ tag
  | none => pkgMeta.version

/-- The text that `get_package_id` parses. -/
def packageIdStr (pkgMeta : PackageMeta) : String :=
  pkgMeta.name ++ "#" ++ pkgMeta.versionPart

/-- `get_package_id`; without a result it panics. -/
def getPackageId (pkgMeta : PackageMeta) : Option PackageId :=
  (PackageId.parse crates pkgMeta.packageIdStr).toOption

end PackageMeta

variable {crates}

/-! ## Version expressions -/

namespace VersionExp

variable {semver : SemverCrate} {exp tag text : String}

theorem fromStr_of_not_mem (hexp : ':' ∉ exp.toList) :
    fromStr semver exp = (VersionExpType.fromStr semver exp).map fun e => ⟨none, e⟩ := by
  unfold fromStr
  rw [List.splitOn_eq_singleton hexp]
  simp

theorem fromStr_tag (hexp : ':' ∉ exp.toList) (htag : ':' ∉ tag.toList) :
    fromStr semver (exp ++ ":" ++ tag) =
      (VersionExpType.fromStr semver exp).map fun e => ⟨some tag, e⟩ := by
  have hsplit : (exp ++ ":" ++ tag).toList.splitOn ':' = [exp.toList, tag.toList] :=
    splitOn_eq_pair_iff.mpr ⟨by simp, hexp, htag⟩
  unfold fromStr
  rw [hsplit]
  simp

/-- What is read has an expression without a colon, and behind the colon the tag. -/
theorem fromStr_eq_ok {versionExp : VersionExp} (h : fromStr semver text = .ok versionExp) :
    ∃ exp : String, ':' ∉ exp.toList ∧
      VersionExpType.fromStr semver exp = .ok versionExp.versionExp ∧
        (versionExp.tag = none ∧ text = exp ∨
          ∃ tag, versionExp.tag = some tag ∧ ':' ∉ tag.toList ∧ text = exp ++ ":" ++ tag) := by
  unfold fromStr at h
  split at h
  · next exp hsplit =>
      obtain ⟨htext, hexp⟩ := splitOn_eq_singleton_iff.mp hsplit
      obtain ⟨e, he, rfl⟩ := except_map_eq_ok.mp h
      exact ⟨String.ofList exp, by simpa using hexp, he, .inl ⟨rfl, by rw [← htext]; simp⟩⟩
  · next exp tag hsplit =>
      obtain ⟨htext, hexp, htag⟩ := splitOn_eq_pair_iff.mp hsplit
      obtain ⟨e, he, rfl⟩ := except_map_eq_ok.mp h
      refine ⟨String.ofList exp, by simpa using hexp, he,
        .inr ⟨String.ofList tag, rfl, by simpa using htag, ?_⟩⟩
      apply String.toList_injective
      simpa using htext
  · cases h

end VersionExp

/-! ## Reading a package id -/

namespace PackageId

variable {name part objid text : String}

theorem parse_name (hname : '#' ∉ name.toList) :
    parse crates name = .ok ⟨name, none, none⟩ := by
  unfold parse
  rw [List.splitOn_eq_singleton hname]
  simp

theorem parse_pair (hname : '#' ∉ name.toList) (hpart : '#' ∉ part.toList) :
    parse crates (name ++ "#" ++ part) =
      if isExactId crates part then .ok ⟨name, none, some part⟩
      else (VersionExp.fromStr crates.semver part).map fun versionExp =>
        ⟨name, some versionExp, none⟩ := by
  have hsplit : (name ++ "#" ++ part).toList.splitOn '#' = [name.toList, part.toList] :=
    splitOn_eq_pair_iff.mpr ⟨by simp, hname, hpart⟩
  unfold parse
  rw [hsplit]
  simp

theorem parse_triple (hname : '#' ∉ name.toList) (hpart : '#' ∉ part.toList)
    (hobjid : '#' ∉ objid.toList) :
    parse crates (name ++ "#" ++ part ++ "#" ++ objid) =
      (VersionExp.fromStr crates.semver part).map fun versionExp =>
        ⟨name, some versionExp, some objid⟩ := by
  have hsplit : (name ++ "#" ++ part ++ "#" ++ objid).toList.splitOn '#' =
      [name.toList, part.toList, objid.toList] :=
    splitOn_eq_triple_iff.mpr ⟨by simp, hname, hpart, hobjid⟩
  unfold parse
  rw [hsplit]
  simp

/-- What is read has one of three forms. -/
theorem parse_eq_ok {pkgId : PackageId} (h : parse crates text = .ok pkgId) :
    '#' ∉ pkgId.name.toList ∧
      ((pkgId = ⟨pkgId.name, none, none⟩ ∧ text = pkgId.name) ∨
        (∃ part : String, '#' ∉ part.toList ∧ text = pkgId.name ++ "#" ++ part ∧
          (isExactId crates part = true ∧ pkgId = ⟨pkgId.name, none, some part⟩ ∨
            isExactId crates part = false ∧ ∃ versionExp,
              VersionExp.fromStr crates.semver part = .ok versionExp ∧
                pkgId = ⟨pkgId.name, some versionExp, none⟩)) ∨
        ∃ part objid : String, '#' ∉ part.toList ∧ '#' ∉ objid.toList ∧
          text = pkgId.name ++ "#" ++ part ++ "#" ++ objid ∧ ∃ versionExp,
            VersionExp.fromStr crates.semver part = .ok versionExp ∧
              pkgId = ⟨pkgId.name, some versionExp, some objid⟩) := by
  unfold parse at h
  split at h
  · next name hsplit =>
      obtain ⟨htext, hname⟩ := splitOn_eq_singleton_iff.mp hsplit
      cases h
      exact ⟨by simpa using hname, .inl ⟨rfl, by rw [← htext]; simp⟩⟩
  · next name part hsplit =>
      obtain ⟨htext, hname, hpart⟩ := splitOn_eq_pair_iff.mp hsplit
      have htext' : text = String.ofList name ++ "#" ++ String.ofList part :=
        String.toList_injective (by simpa using htext)
      split_ifs at h with hexact
      · cases h
        exact ⟨by simpa using hname, .inr (.inl ⟨_, by simpa using hpart, htext',
          .inl ⟨hexact, rfl⟩⟩)⟩
      · obtain ⟨versionExp, hversion, rfl⟩ := except_map_eq_ok.mp h
        exact ⟨by simpa using hname, .inr (.inl ⟨_, by simpa using hpart, htext',
          .inr ⟨by simpa using hexact, _, hversion, rfl⟩⟩)⟩
  · next name part objid hsplit =>
      obtain ⟨htext, hname, hpart, hobjid⟩ := splitOn_eq_triple_iff.mp hsplit
      have htext' : text =
          String.ofList name ++ "#" ++ String.ofList part ++ "#" ++ String.ofList objid :=
        String.toList_injective (by simpa using htext)
      obtain ⟨versionExp, hversion, rfl⟩ := except_map_eq_ok.mp h
      exact ⟨by simpa using hname, .inr (.inr ⟨_, _, by simpa using hpart,
        by simpa using hobjid, htext', _, hversion, rfl⟩)⟩
  · cases h

end PackageId

end PackageLib
end CyfsNdn

import CyfsNdn.PackageLib.MetaIndexDb
import CyfsNdn.PackageLib.PackageId

/-!
# The meta of a package id

`get_pkg_meta` of `package-lib/src/meta_index_db.rs` and of `package-lib/src/env.rs`: the index
is asked by the object id, by the version or by the requirement, and an environment asks its
locked packages, its index and then its parent.
-/

namespace CyfsNdn
namespace PackageLib

open Collections NdnLib Relational

/-- `VersionReq::parse("*")`, which has no comparator. -/
def starReq : VersionReq := ⟨[]⟩

namespace MetaIndexDb

variable (crates : PackageCrates)

/-- `metaobjid_candidates`: the text itself, and the two forms of the object id. -/
def metaobjidCandidates (metaobjid : String) : List String :=
  match ObjId.new crates.ndn.toCrates metaobjid with
  | .error _ => [metaobjid]
  | .ok objid =>
      let candidates := [metaobjid]
      let hex := objid.toString crates.ndn.toCrates
      let candidates := if hex ∈ candidates then candidates else candidates ++ [hex]
      let base32 := objid.toBase32 crates.ndn
      if base32 ∈ candidates then candidates else candidates ++ [base32]

/-- `pkg_meta_matches_package_id`. -/
def pkgMetaMatchesPackageId (packageId : PackageId) (pkgMeta : PackageMeta) : Bool :=
  if pkgMeta.name ≠ packageId.name then false
  else
    match packageId.versionExp with
    | none => true
    | some versionExp =>
        if versionExp.tag.any fun tag => pkgMeta.versionTag != some tag then false
        else
          match versionExp.versionExp with
          | .none => true
          | .version version =>
              compareVersions crates.semver pkgMeta.version
                (crates.semver.versionToString version) == .eq
          | .req req =>
              match crates.semver.parseVersion pkgMeta.version with
              | some version => crates.semver.isMatch req version
              | none => false

/-- `get_pkg_meta_by_objid`: the first candidate with a row decides. -/
def getPkgMetaByObjid (db : MetaIndexDb) (packageId : PackageId) (metaobjid : String) :
    PkgResult (Option (String × PackageMeta)) :=
  let found := (metaobjidCandidates crates metaobjid).findSome? fun candidate =>
    (db.pkgMetas.find? candidate).map fun row => (candidate, row)
  match found with
  | none => .ok none
  | some (candidate, row) => do
      let pkgMeta ← PackageMeta.fromStr crates row.pkgMeta
      if pkgMetaMatchesPackageId crates packageId pkgMeta then return some (candidate, pkgMeta)
      else return none

/-- `get_pkg_meta_by_version`: the row of the version, joined with the row of its meta. -/
def getPkgMetaByVersion (db : MetaIndexDb) (pkgName : String) (author : Option String)
    (version : Version) (tag : Option String) : PkgResult (Option (String × PackageMeta)) :=
  match db.pkgVersions.find? (pkgName, crates.semver.versionToString version) with
  | none => .ok none
  | some row =>
      if eqParam row.author author && eqParam row.tag tag then
        match db.pkgMetas.find? row.metaobjid with
        | none => .ok none
        | some metaRow =>
            match PackageMeta.fromStr crates metaRow.pkgMeta with
            | .ok pkgMeta => .ok (some (row.metaobjid, pkgMeta))
            | .error e =>
                .error (.sqlError
                  ("Invalid column type Text at index: 0, name: " ++ e.display))
      else .ok none

/-- `get_pkg_meta`. -/
def getPkgMeta (db : MetaIndexDb) (pkgId : String) :
    PkgResult (Option (String × PackageMeta)) := do
  let packageId ← PackageId.parse crates pkgId
  match packageId.objid with
  | some metaobjid => db.getPkgMetaByObjid crates packageId metaobjid
  | none =>
      let versionExp := packageId.versionExp.getD ⟨none, .none⟩
      match versionExp.versionExp with
      | .version version =>
          db.getPkgMetaByVersion crates packageId.name none version versionExp.tag
      | .req req =>
          db.getPkgMetaByVersionExpr crates.semver (PackageMeta.fromStr crates) packageId.name
            none req versionExp.tag
      | .none =>
          db.getPkgMetaByVersionExpr crates.semver (PackageMeta.fromStr crates) packageId.name
            none starReq versionExp.tag

/-- The meta is the one of a row, under the object id of the row. -/
def IsStored (db : MetaIndexDb) (x : String × PackageMeta) : Prop :=
  ∃ row ∈ db.pkgMetas.rows, row.metaobjid = x.1 ∧
    PackageMeta.fromStr crates row.pkgMeta = .ok x.2

variable {crates} {db : MetaIndexDb}

theorem isStored_of_byObjid {packageId : PackageId} {metaobjid : String}
    {x : String × PackageMeta}
    (h : db.getPkgMetaByObjid crates packageId metaobjid = .ok (some x)) :
    db.IsStored crates x := by
  unfold getPkgMetaByObjid at h
  dsimp only at h
  split at h
  · cases h
  · next candidate row hfound =>
      obtain ⟨c, -, hfind⟩ := List.exists_of_findSome?_eq_some hfound
      obtain ⟨row', hrow, heq⟩ := Option.map_eq_some_iff.mp hfind
      cases heq
      obtain ⟨hmem, hkey⟩ := Table.find?_eq_some_iff.mp hrow
      obtain ⟨pkgMeta, hread, h⟩ := except_bind_eq_ok.mp h
      split_ifs at h
      · cases h
        exact ⟨row, hmem, hkey, hread⟩
      · cases h

theorem isStored_of_byVersion {pkgName : String} {author tag : Option String}
    {version : Version} {x : String × PackageMeta}
    (h : db.getPkgMetaByVersion crates pkgName author version tag = .ok (some x)) :
    db.IsStored crates x := by
  unfold getPkgMetaByVersion at h
  split at h
  · cases h
  · split_ifs at h
    · split at h
      · cases h
      · next metaRow hrow =>
          obtain ⟨hmem, hkey⟩ := Table.find?_eq_some_iff.mp hrow
          split at h
          · next pkgMeta hread =>
              cases h
              exact ⟨metaRow, hmem, hkey, hread⟩
          · cases h
    · cases h

theorem isStored_of_byVersionExpr {pkgName : String} {author tag : Option String}
    {versionReq : VersionReq} {x : String × PackageMeta}
    (h : db.getPkgMetaByVersionExpr crates.semver (PackageMeta.fromStr crates) pkgName author
      versionReq tag = .ok (some x)) :
    db.IsStored crates x := by
  unfold getPkgMetaByVersionExpr answerFrom at h
  split_ifs at h
  · cases h
  · split at h
    · next metaobjid hlatest =>
        unfold readPkgMeta at h
        dsimp only at h
        split at h
        · cases h
        · next row hfind =>
            obtain ⟨hmem, hkey⟩ := Table.find?_eq_some_iff.mp hfind
            obtain ⟨found, hfound, h⟩ := except_bind_eq_ok.mp h
            cases hfound
            obtain ⟨pkgMeta, hread, heq⟩ := except_bind_eq_ok.mp h
            cases heq
            exact ⟨row, hmem, hkey, hread⟩
    · cases h

/-- Every answer is a stored meta. -/
theorem isStored_of_getPkgMeta {pkgId : String} {x : String × PackageMeta}
    (h : db.getPkgMeta crates pkgId = .ok (some x)) : db.IsStored crates x := by
  obtain ⟨packageId, -, h⟩ := except_bind_eq_ok.mp h
  split at h
  · exact isStored_of_byObjid h
  · dsimp only at h
    split at h
    · exact isStored_of_byVersion h
    · exact isStored_of_byVersionExpr h
    · exact isStored_of_byVersionExpr h

end MetaIndexDb

/-! ## Environments -/

/-- What an environment asks for a meta: the packages that are locked, and its index. -/
structure PackageEnvLevel where
  /-- `get_prefix`. -/
  envPrefix : String
  lockDb : Option (List (String × String × PackageMeta))
  metaDb : MetaIndexDb

/-- `PackageEnv`: its own level, and that of its parent, of the parent of this one and so on. -/
structure PackageEnv where
  own : PackageEnvLevel
  parents : List PackageEnvLevel

namespace PackageEnv

variable (crates : PackageCrates)

/-- `prefix_pkg_id`. -/
def prefixPkgId (level : PackageEnvLevel) (pkgId : PackageId) : PackageId :=
  if '.' ∈ pkgId.name.toList then pkgId
  else { pkgId with name := level.envPrefix ++ "." ++ pkgId.name }

/-- `get_pkg_meta`, at one level and those above it. -/
def getPkgMetaAt : PackageEnvLevel → List PackageEnvLevel → String →
    PkgResult (String × PackageMeta)
  | level, parents, pkgId => do
      let pkgId ← PackageId.parse crates pkgId
      let pkgIdStr := (prefixPkgId level pkgId).toString crates
      match level.lockDb.bind fun lockDb => lockDb.lookup pkgIdStr with
      | some locked => return locked
      | none =>
          match ← level.metaDb.getPkgMeta crates pkgIdStr with
          | some found => return found
          | none =>
              match parents with
              | parent :: parents => getPkgMetaAt parent parents pkgIdStr
              | [] => throw (.loadError pkgIdStr "Package metadata not found")

/-- `get_pkg_meta`. -/
def getPkgMeta (env : PackageEnv) (pkgId : String) : PkgResult (String × PackageMeta) :=
  getPkgMetaAt crates env.own env.parents pkgId

end PackageEnv

end PackageLib
end CyfsNdn

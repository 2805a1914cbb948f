import CyfsNdn.PackageLib.VersionExp
import CyfsNdn.Relational.Table
import Mathlib.Data.List.Sort

/-!
# The index of package metas

`MetaIndexDb` of `package-lib/src/meta_index_db.rs`: the metas, the versions of the packages
with their integers, and the query for the newest version that meets a requirement.

What a stored meta is read as comes from outside.
-/

namespace CyfsNdn
namespace PackageLib

open Relational

/-- A row of `pkg_metas`. -/
structure PkgMetaRow where
  metaobjid : String
  pkgMeta : String
  author : String
  authorPk : String
  updateTime : Int
  deriving DecidableEq, Repr

/-- A row of `pkg_versions`. -/
structure PkgVersionRow where
  pkgName : String
  author : Option String
  version : String
  versionInt : Int64
  metaobjid : String
  tag : Option String
  updateTime : Int
  deriving DecidableEq

/-- The primary key of `pkg_versions`. -/
def PkgVersionRow.key (row : PkgVersionRow) : String × String := (row.pkgName, row.version)

/-- `MetaIndexDb`. -/
structure MetaIndexDb where
  pkgMetas : Table PkgMetaRow PkgMetaRow.metaobjid
  pkgVersions : Table PkgVersionRow PkgVersionRow.key

/-- `PackageMetaNode`. -/
structure PackageMetaNode where
  metaJwt : String
  pkgName : String
  version : String
  tag : Option String
  author : String
  authorPk : String
  deriving DecidableEq, Repr

namespace MetaIndexDb

/-- Both tables are empty. -/
def empty : MetaIndexDb := ⟨Table.empty, Table.empty⟩

/-! ## Writing -/

/-- `add_pkg_meta`. -/
def addPkgMeta (db : MetaIndexDb) (metaobjid pkgMeta author : String)
    (authorPk : Option String) (currentTime : Int) : MetaIndexDb :=
  { db with
    pkgMetas := db.pkgMetas.insertOrReplace
      ⟨metaobjid, pkgMeta, author, authorPk.getD "", currentTime⟩ }

/-- The row of a version is updated, if the author has it, or inserted. -/
def putPkgVersion (db : MetaIndexDb) (pkgName author version : String) (versionInt : UInt64)
    (metaobjid : String) (tag : Option String) (currentTime : Int) : PkgResult MetaIndexDb :=
  let same := fun row : PkgVersionRow =>
    decide (row.pkgName = pkgName ∧ row.author = some author ∧ row.version = version)
  if db.pkgVersions.rows.any same then
    .ok { db with
      pkgVersions := db.pkgVersions.updateWhere same
        (fun row => { row with metaobjid := metaobjid, tag := tag, updateTime := currentTime })
        fun _ => rfl }
  else if (db.pkgVersions.find? (pkgName, version)).isSome then
    .error (.sqlError
      "UNIQUE constraint failed: pkg_versions.pkg_name, pkg_versions.version")
  else
    .ok { db with
      pkgVersions := db.pkgVersions.insertOrIgnore
        ⟨pkgName, some author, version, versionInt.toInt64, metaobjid, tag, currentTime⟩ }

/-- `set_pkg_version`. -/
def setPkgVersion (semver : SemverCrate) (db : MetaIndexDb)
    (pkgname author version metaobjid : String) (tag : Option String) (currentTime : Int) :
    PkgResult MetaIndexDb := do
  let versionExp ← VersionExp.fromStr semver version
  if versionExp.isVersion = false then
    throw (.parseError version "VersionExp is not a version")
  let versionInt ← versionToInt version
  db.putPkgVersion pkgname author version versionInt metaobjid tag currentTime

/-- `add_pkg_meta_batch`, in the order in which the map gives its entries.  An error rolls
everything back. -/
def addPkgMetaBatch (db : MetaIndexDb) (pkgMetaMap : List (String × PackageMetaNode))
    (currentTime : Int) : PkgResult MetaIndexDb :=
  pkgMetaMap.foldlM
    (fun db entry => do
      let node := entry.2
      let db := db.addPkgMeta entry.1 node.metaJwt node.author (some node.authorPk) currentTime
      let versionInt ← versionToInt node.version
      db.putPkgVersion node.pkgName node.author node.version versionInt entry.1 node.tag
        currentTime) db

/-! ## The query -/

/-- What the query reads of a row. -/
abbrev VersionEntry := String × String × Option String

/-- `AND column = ?`, where a value is given; a null is never equal. -/
def eqParam (column param : Option String) : Bool :=
  match param with
  | none => true
  | some value => column == some value

/-- `SELECT version, metaobjid, tag … ORDER BY version_int DESC`. -/
def selectVersions (db : MetaIndexDb) (p : PkgVersionRow → Bool) : List VersionEntry :=
  ((db.pkgVersions.rows.filter p).insertionSort
    fun row row' => row'.versionInt ≤ row.versionInt).map
      fun row => (row.version, row.metaobjid, row.tag)

/-- `get_versions_in_range`. -/
def getVersionsInRange (db : MetaIndexDb) (pkgName : String) (minVersion maxVersion : UInt64)
    (tag : Option String) : List VersionEntry :=
  db.selectVersions fun row =>
    decide (row.pkgName = pkgName) && decide (minVersion.toInt64 ≤ row.versionInt) &&
      decide (row.versionInt ≤ maxVersion.toInt64) && eqParam row.tag tag

/-- The query without a range. -/
def getAllVersions (db : MetaIndexDb) (pkgName : String) (author tag : Option String) :
    List VersionEntry :=
  db.selectVersions fun row =>
    decide (row.pkgName = pkgName) && eqParam row.author author && eqParam row.tag tag

variable (semver : SemverCrate)

/-- One round of the loop over the versions. -/
def keepLatest (versionReq : VersionReq) (latest : Option (String × String))
    (entry : VersionEntry) : Option (String × String) :=
  match semver.parseVersion entry.1 with
  | none => latest
  | some v =>
      if semver.isMatch versionReq v then
        match latest with
        | none => some (entry.1, entry.2.1)
        | some (latestV, metaobjid) =>
            if compareVersions semver entry.1 latestV = .gt then some (entry.1, entry.2.1)
            else some (latestV, metaobjid)
      else latest

/-- The loop: the latest of the versions that meet the requirement. -/
def latestVersion (versionReq : VersionReq) (versions : List VersionEntry) :
    Option (String × String) :=
  versions.foldl (keepLatest semver versionReq) none

variable {M : Type} (metaFromStr : String → PkgResult M)

/-- The meta of an object id. -/
def readPkgMeta (db : MetaIndexDb) (metaobjid : String) : PkgResult (Option (String × M)) := do
  let row ← match db.pkgMetas.find? metaobjid with
    | none => throw (.sqlError "Query returned no rows")
    | some row => pure row
  let pkgMeta ← metaFromStr row.pkgMeta
  return some (metaobjid, pkgMeta)

/-- The end of the query, once the versions are there. -/
def answerFrom (db : MetaIndexDb) (versionReq : VersionReq) (versions : List VersionEntry) :
    PkgResult (Option (String × M)) :=
  if versions.isEmpty then .ok none
  else
    match latestVersion semver versionReq versions with
    | some (_, metaobjid) => db.readPkgMeta metaFromStr metaobjid
    | none => .ok none

/-- The versions that the query fetches: those in the range, where there is one, and otherwise
all. -/
def fetchVersions (db : MetaIndexDb) (pkgName : String) (author : Option String)
    (versionReq : VersionReq) (tag : Option String) : List VersionEntry :=
  match (VersionExp.mk none (.req versionReq)).toRangeInt semver with
  | .ok (minVersion, maxVersion) => db.getVersionsInRange pkgName minVersion maxVersion tag
  | .error _ => db.getAllVersions pkgName author tag

/-- `get_pkg_meta_by_version_expr`. -/
def getPkgMetaByVersionExpr (db : MetaIndexDb) (pkgName : String) (author : Option String)
    (versionReq : VersionReq) (tag : Option String) : PkgResult (Option (String × M)) :=
  db.answerFrom semver metaFromStr versionReq
    (db.fetchVersions semver pkgName author versionReq tag)

end MetaIndexDb

end PackageLib
end CyfsNdn

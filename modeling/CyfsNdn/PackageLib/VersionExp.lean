import CyfsNdn.NdnLib.Json
import Mathlib.Data.List.Basic

/-!
# Version expressions

`VersionExp` of `package-lib/src/package_id.rs`, with the integers that a version and a
comparator are turned into.

The semver crate is a parameter: `SemverCrate` is what the code calls of it, and
`SemverCrate.Lawful` what it promises.
-/

namespace CyfsNdn
namespace PackageLib

open NdnLib

/-- `PkgError`, as far as the modelled functions raise it. -/
inductive PkgError where
  | loadError (pkgId msg : String)
  | parseError (text msg : String)
  | versionError (msg : String)
  | fileNotFoundError (msg : String)
  | sqlError (msg : String)
  deriving DecidableEq, Repr

/-- The `Display` form of an error. -/
def PkgError.display : PkgError → String
  | .loadError pkgId msg => "Load " ++ pkgId ++ " error: " ++ msg
  | .parseError text msg => "Parse " ++ text ++ " error: " ++ msg
  | .versionError msg => "Version Error: " ++ msg
  | .fileNotFoundError msg => "File not found: " ++ msg
  | .sqlError msg => "Sql Error: " ++ msg

/-- `PkgResult`. -/
abbrev PkgResult (α : Type) := Except PkgError α

/-! ## The semver crate -/

/-- `semver::Version`. -/
structure Version where
  major : UInt64
  minor : UInt64
  patch : UInt64
  pre : String
  build : String
  deriving DecidableEq, Repr

/-- `semver::Op`. -/
inductive Op where
  | exact
  | greater
  | greaterEq
  | less
  | lessEq
  | tilde
  | caret
  | wildcard
  deriving DecidableEq, Repr

/-- `semver::Comparator`. -/
structure Comparator where
  op : Op
  major : UInt64
  minor : Option UInt64
  patch : Option UInt64
  pre : String
  deriving DecidableEq, Repr

/-- `semver::VersionReq`. -/
structure VersionReq where
  comparators : List Comparator
  deriving DecidableEq, Repr

/-- What the code calls of the semver crate.  `cmp` is the order of `Version`, and
`cmpPrecedence` the one without the build metadata. -/
structure SemverCrate where
  parseVersion : String → Option Version
  versionToString : Version → String
  parseReq : String → Option VersionReq
  reqToString : VersionReq → String
  isMatch : VersionReq → Version → Bool
  cmp : Version → Version → Ordering
  cmpPrecedence : Version → Version → Ordering

/-- What the crate promises: a version is printed as it was read, the order is total, and it
refines the precedence. -/
class SemverCrate.Lawful (semver : SemverCrate) : Prop where
  print_parse : ∀ {text v}, semver.parseVersion text = some v → semver.versionToString v = text
  cmp_trans : Std.TransCmp semver.cmp
  cmp_lawfulEq : Std.LawfulEqCmp semver.cmp
  precedence_of_cmp : ∀ {v w}, semver.cmp v w ≠ .gt → semver.cmpPrecedence v w ≠ .gt

/-! ## Expressions -/

/-- `VersionExpType`. -/
inductive VersionExpType where
  | none
  | req (req : VersionReq)
  | version (version : Version)
  deriving DecidableEq, Repr

/-- `VersionExp`. -/
structure VersionExp where
  tag : Option String
  versionExp : VersionExpType
  deriving DecidableEq, Repr

variable (semver : SemverCrate)

/-- `VersionExpType::to_string`. -/
def VersionExpType.toString : VersionExpType → String
  | .req r => semver.reqToString r
  | .version v => semver.versionToString v
  | .none => ""

/-- `VersionExpType::from_str`: the empty text, a version, or a requirement. -/
def VersionExpType.fromStr (s : String) : PkgResult VersionExpType :=
  if s = "" then .ok .none
  else
    match semver.parseVersion s with
    | some v => .ok (.version v)
    | .none =>
        match semver.parseReq s with
        | some r => .ok (.req r)
        | .none => .error (.parseError s "Invalid version expression")

/-- `VersionExp::from_str`: the tag comes after a colon. -/
def VersionExp.fromStr (s : String) : PkgResult VersionExp :=
  match s.toList.splitOn ':' with
  | [exp] => (VersionExpType.fromStr semver (String.ofList exp)).map fun versionExp =>
      ⟨none, versionExp⟩
  | [exp, tag] => (VersionExpType.fromStr semver (String.ofList exp)).map fun versionExp =>
      ⟨some (String.ofList tag), versionExp⟩
  | _ => .error (.parseError s "Invalid version expression")

/-- `VersionExp::to_string`. -/
def VersionExp.toString (exp : VersionExp) : String :=
  match exp.tag with
  | some tag => exp.versionExp.toString semver ++ ":" ++ tag
  | none => exp.versionExp.toString semver

/-- `is_version`. -/
def VersionExp.isVersion (exp : VersionExp) : Bool :=
  match exp.versionExp with
  | .version _ => true
  | _ => false

/-! ## Integers -/

/-- `str::parse::<u64>`. -/
def parseU64 (text : List Char) : Option UInt64 :=
  (parseUsize (String.ofList text)).map UInt64.ofNat

/-- The number after whatever comes before the first digit. -/
def numberAfterText (text : List Char) : Option UInt64 :=
  parseU64 (text.dropWhile fun c => !c.isDigit)

/-- The fields at their places in 64 bits. -/
def packInt (major minor patch build : UInt64) : UInt64 :=
  major <<< 56 ||| minor <<< 40 ||| patch <<< 24 ||| build

/-- `comparator_to_int`, which has no error. -/
def comparatorToInt (comparator : Comparator) : UInt64 :=
  packInt comparator.major (comparator.minor.getD 0) (comparator.patch.getD 0)
    ((numberAfterText comparator.pre.toList).getD 0)

/-- `version_to_int`. -/
def versionToInt (version : String) : PkgResult UInt64 := do
  let chars := version.toList
  let core := chars.takeWhile fun c => c ≠ '-' ∧ c ≠ '+'
  -- What comes from the first dash or plus sign on.
  let rest := chars.dropWhile fun c => c ≠ '-' ∧ c ≠ '+'
  let parts := core.splitOn '.'
  if parts.length < 1 ∨ 4 < parts.length then
    throw (.versionError ("无效的版本格式: " ++ version))
  let parts := if parts.length = 3 ∧ rest ≠ [] then parts ++ [rest] else parts
  let major := (parts[0]?.bind numberAfterText).getD 0
  if 0xff < major then throw (.versionError ("主版本号超出范围: " ++ version))
  let minor := (parts[1]?.bind parseU64).getD 0
  if 0xffff < minor then throw (.versionError ("次版本号超出范围: " ++ version))
  let patch := (parts[2]?.bind parseU64).getD 0
  if 0xffff < patch then throw (.versionError ("补丁版本号超出范围: " ++ version))
  let build := (parts[3]?.bind numberAfterText).getD 0
  if 0xffffff < build then throw (.versionError ("构建号超出范围: " ++ version))
  return packInt major minor patch build

example : versionToInt ">1.0.3-build250326" = .ok 0x0100000003_03d1d6 := by decide

/-- `to_range_int`: the least and the greatest integer of one or two comparators. -/
def VersionExp.toRangeInt (exp : VersionExp) : PkgResult (UInt64 × UInt64) :=
  let unsupported : PkgError :=
    .parseError (exp.toString semver) "VersionExp can not be converted to range int"
  match exp.versionExp with
  | .req req =>
      match req.comparators with
      | [comparator] =>
          match comparator.op with
          | .greater | .greaterEq => .ok (comparatorToInt comparator, Int64.maxValue.toUInt64)
          | .less | .lessEq => .ok (Int64.minValue.toUInt64, comparatorToInt comparator)
          | _ => .error unsupported
      | [comparator1, comparator2] =>
          -- The operators of the two play no part.
          let min := comparatorToInt comparator1
          let max := comparatorToInt comparator2
          if max < min then .ok (max, min) else .ok (min, max)
      | _ => .error unsupported
  | _ => .error unsupported

/-- `compare_versions`: versions of the crate in its order, other texts by their integers, and
what has none as texts. -/
def compareVersions (v1 v2 : String) : Ordering :=
  match semver.parseVersion v1, semver.parseVersion v2 with
  | some v1, some v2 => semver.cmp v1 v2
  | _, _ =>
      match versionToInt v1, versionToInt v2 with
      | .ok v1Int, .ok v2Int => compare v1Int v2Int
      | _, _ => compare v1 v2

end PackageLib
end CyfsNdn

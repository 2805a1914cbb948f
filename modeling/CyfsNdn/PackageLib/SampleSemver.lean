import CyfsNdn.PackageLib.VersionExp

/-!
# A reading of the semver crate that can be evaluated

Versions in the order of the semver rules: the three numbers, then the identifiers of the
pre-release, where no pre-release comes last.  A requirement is met if each comparator is, and
a pre-release meets it only if some comparator has one for the same three numbers.  Texts of
requirements are printed and not read.
-/

namespace CyfsNdn
namespace PackageLib

/-- Numbers come before names; both lists are compared from the front. -/
def identifierKey (identifier : List Char) : List Nat :=
  if identifier.all Char.isDigit then [0, NdnLib.decimalValue 0 identifier |>.getD 0]
  else 1 :: identifier.map Char.toNat

/-- The identifiers between the dots. -/
def identifierKeys (text : String) : List (List Nat) :=
  if text = "" then [] else (text.toList.splitOn '.').map identifierKey

/-- No pre-release comes after every pre-release. -/
def preKey (pre : String) : List (List Nat) :=
  if pre = "" then [[1]] else [0] :: identifierKeys pre

/-- The precedence of two versions. -/
def sampleCmpPrecedence : Version → Version → Ordering :=
  compareLex (compareOn Version.major) <| compareLex (compareOn Version.minor) <|
    compareLex (compareOn Version.patch) (compareOn fun v : Version => preKey v.pre)

/-- The precedence, then the build metadata. -/
def sampleCmp : Version → Version → Ordering :=
  compareLex sampleCmpPrecedence <| compareLex (compareOn Version.pre) <|
    compareLex (compareOn fun v : Version => identifierKeys v.build) (compareOn Version.build)

/-- The text of a version. -/
def sampleVersionToString (v : Version) : String :=
  toString v.major.toNat ++ "." ++ toString v.minor.toNat ++ "." ++ toString v.patch.toNat ++
    (if v.pre = "" then "" else "-" ++ v.pre) ++ (if v.build = "" then "" else "+" ++ v.build)

/-- Identifiers of letters, digits and dashes, none of them empty; numbers without zeros in
front where this is asked. -/
def identifiersOk (leadingZeros : Bool) (text : List Char) : Bool :=
  (text.splitOn '.').all fun identifier =>
    !identifier.isEmpty && identifier.all (fun c => c.isAlphanum || c == '-') &&
      (leadingZeros || !identifier.all Char.isDigit || identifier.head? != some '0' ||
        identifier.length == 1)

/-- A version whose text is the one that was read. -/
def sampleParseVersion (text : String) : Option Version :=
  let chars := text.toList
  let main := chars.takeWhile (· ≠ '+')
  let build := (chars.dropWhile (· ≠ '+')).tail
  let core := main.takeWhile (· ≠ '-')
  let pre := (main.dropWhile (· ≠ '-')).tail
  match (core.splitOn '.').mapM parseU64 with
  | some [major, minor, patch] =>
      if (pre.isEmpty || identifiersOk false pre) && (build.isEmpty || identifiersOk true build)
      then (some ⟨major, minor, patch, String.ofList pre, String.ofList build⟩).filter
        fun v => sampleVersionToString v = text
      else none
  | _ => none

/-- The sign of an operator. -/
def Op.text : Op → String
  | .exact => "="
  | .greater => ">"
  | .greaterEq => ">="
  | .less => "<"
  | .lessEq => "<="
  | .tilde => "~"
  | .caret => "^"
  | .wildcard => ""

/-- The text of a comparator. -/
def Comparator.text (c : Comparator) : String :=
  let minor := match c.minor with
    | some minor => "." ++ toString minor.toNat
    | none => if c.op = .wildcard then ".*" else ""
  let patch := match c.minor, c.patch with
    | some _, some patch => "." ++ toString patch.toNat
    | some _, none => if c.op = .wildcard then ".*" else ""
    | none, _ => ""
  c.op.text ++ toString c.major.toNat ++ minor ++ patch ++
    (if c.pre = "" then "" else "-" ++ c.pre)

/-- The text of a requirement. -/
def sampleReqToString (req : VersionReq) : String :=
  if req.comparators = [] then "*" else ", ".intercalate (req.comparators.map Comparator.text)

/-! ## Requirements -/

/-- The order of two pre-releases. -/
def comparePre (pre pre' : String) : Ordering := compare (preKey pre) (preKey pre')

/-- The fields that are given are those of the version. -/
def matchesExact (c : Comparator) (v : Version) : Bool :=
  v.major == c.major && (c.minor.all fun minor => v.minor == minor) &&
    (c.patch.all fun patch => v.patch == patch) && v.pre == c.pre

/-- The first field that differs decides, where it is given. -/
def matchesSide (side : Ordering) (c : Comparator) (v : Version) : Bool :=
  if v.major ≠ c.major then compare v.major c.major == side
  else
    match c.minor with
    | none => false
    | some minor =>
        if v.minor ≠ minor then compare v.minor minor == side
        else
          match c.patch with
          | none => false
          | some patch =>
              if v.patch ≠ patch then compare v.patch patch == side
              else comparePre v.pre c.pre == side

/-- The last given field may be greater, from the patch on. -/
def matchesTilde (c : Comparator) (v : Version) : Bool :=
  v.major == c.major && (c.minor.all fun minor => v.minor == minor) &&
    match c.patch with
    | none => true
    | some patch =>
        if v.patch ≠ patch then decide (patch < v.patch) else comparePre v.pre c.pre != .lt

/-- The first field that is not zero stays. -/
def matchesCaret (c : Comparator) (v : Version) : Bool :=
  v.major == c.major &&
    match c.minor, c.patch with
    | none, _ => true
    | some minor, none =>
        if 0 < c.major then decide (minor ≤ v.minor) else v.minor == minor
    | some minor, some patch =>
        if 0 < c.major ∧ v.minor ≠ minor then decide (minor < v.minor)
        else if v.minor ≠ minor then false
        else if v.patch ≠ patch then
          decide ((0 < c.major ∨ 0 < minor) ∧ patch < v.patch)
        else comparePre v.pre c.pre != .lt

/-- One comparator. -/
def matchesComparator (c : Comparator) (v : Version) : Bool :=
  match c.op with
  | .exact | .wildcard => matchesExact c v
  | .greater => matchesSide .gt c v
  | .greaterEq => matchesExact c v || matchesSide .gt c v
  | .less => matchesSide .lt c v
  | .lessEq => matchesExact c v || matchesSide .lt c v
  | .tilde => matchesTilde c v
  | .caret => matchesCaret c v

/-- A pre-release needs a comparator with one for the same numbers. -/
def sampleMatches (req : VersionReq) (v : Version) : Bool :=
  req.comparators.all (fun c => matchesComparator c v) &&
    (v.pre == "" || req.comparators.any fun c =>
      c.major == v.major && c.minor == some v.minor && c.patch == some v.patch && c.pre != "")

/-- The crate. -/
def sampleSemver : SemverCrate where
  parseVersion := sampleParseVersion
  versionToString := sampleVersionToString
  parseReq := fun _ => none
  reqToString := sampleReqToString
  isMatch := sampleMatches
  cmp := sampleCmp
  cmpPrecedence := sampleCmpPrecedence

example : sampleParseVersion "1.2.3-alpha.5+b7" = some ⟨1, 2, 3, "alpha.5", "b7"⟩ := by
  decide

instance : Std.TransCmp sampleCmpPrecedence := by
  unfold sampleCmpPrecedence
  infer_instance

instance : Std.TransCmp sampleCmp := by
  unfold sampleCmp
  infer_instance

theorem sampleCmp_eq_then (v w : Version) :
    ∃ rest, sampleCmp v w = (sampleCmpPrecedence v w).then rest :=
  ⟨_, rfl⟩

instance : sampleSemver.Lawful where
  print_parse := by
    intro text v hparse
    change sampleParseVersion text = some v at hparse
    unfold sampleParseVersion at hparse
    dsimp only at hparse
    split at hparse
    · split_ifs at hparse
      have hfilter := (Option.filter_eq_some_iff.mp hparse).2
      show sampleVersionToString v = text
      simpa using hfilter
    · cases hparse
  cmp_trans := inferInstanceAs (Std.TransCmp sampleCmp)
  cmp_lawfulEq := by
    refine @Std.LawfulEqCmp.mk _ sampleCmp _ ?_
    intro v w hcmp
    simp only [sampleCmp, sampleCmpPrecedence, compareLex, compareOn, Ordering.then_eq_eq,
      Std.LawfulEqCmp.compare_eq_iff_eq] at hcmp
    obtain ⟨⟨hmajor, hminor, hpatch, -⟩, hpre, -, hbuild⟩ := hcmp
    cases v
    cases w
    cases hmajor
    cases hminor
    cases hpatch
    cases hpre
    cases hbuild
    rfl
  precedence_of_cmp := by
    intro v w hcmp hgt
    apply hcmp
    obtain ⟨rest, hrest⟩ := sampleCmp_eq_then v w
    show sampleCmp v w = .gt
    rw [hrest, show sampleCmpPrecedence v w = .gt from hgt]
    rfl

end PackageLib
end CyfsNdn

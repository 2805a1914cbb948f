import CyfsNdn.Collections.PackedOrder
import CyfsNdn.Collections.Traverse
import CyfsNdn.NdnLib.SampleWeb
import CyfsNdn.PackageLib.VersionExp

/-!
# The integers of versions

`version_to_int` packs four numbers into 64 bits, and the index stores the result as an `i64`.
Its order is that of the four numbers as long as the major numbers are on one side of 128,
where the sign bit is, and no number needs more than 64 bits: such a one is read as zero.

`comparator_to_int` packs the same four numbers without looking at their sizes.
-/

namespace CyfsNdn
namespace PackageLib

open Collections NdnLib

/-! ## Packing -/

/-- The fields lie side by side. -/
theorem toNat_packInt {major minor patch build : UInt64} (hmajor : major ≤ 0xff)
    (hminor : minor ≤ 0xffff) (hpatch : patch ≤ 0xffff) (hbuild : build ≤ 0xffffff) :
    (packInt major minor patch build).toNat =
      ((major.toNat * 2 ^ 16 + minor.toNat) * 2 ^ 16 + patch.toNat) * 2 ^ 24 + build.toNat := by
  have hM : major.toNat ≤ 0xff := UInt64.le_iff_toNat_le.mp hmajor
  have hm : minor.toNat ≤ 0xffff := UInt64.le_iff_toNat_le.mp hminor
  have hp : patch.toNat ≤ 0xffff := UInt64.le_iff_toNat_le.mp hpatch
  have hb : build.toNat ≤ 0xffffff := UInt64.le_iff_toNat_le.mp hbuild
  have hshift : ∀ {n k : Nat}, n * 2 ^ k < 2 ^ 64 → n <<< k % 2 ^ 64 = 2 ^ k * n := by
    intro n k h
    rw [Nat.shiftLeft_eq, Nat.mod_eq_of_lt h, Nat.mul_comm]
  have hpack : (packInt major minor patch build).toNat =
      2 ^ 56 * major.toNat ||| 2 ^ 40 * minor.toNat ||| 2 ^ 24 * patch.toNat ||| build.toNat := by
    unfold packInt
    rw [UInt64.toNat_or, UInt64.toNat_or, UInt64.toNat_or, UInt64.toNat_shiftLeft,
      UInt64.toNat_shiftLeft, UInt64.toNat_shiftLeft]
    rw [show (56 : UInt64).toNat % 64 = 56 from rfl, show (40 : UInt64).toNat % 64 = 40 from rfl,
      show (24 : UInt64).toNat % 64 = 24 from rfl, hshift (by omega), hshift (by omega),
      hshift (by omega)]
  rw [hpack]
  -- From the left, each field fills bits that are still zero.
  rw [← Nat.two_pow_add_eq_or_of_lt (i := 56) (b := 2 ^ 40 * minor.toNat) (by omega),
    show 2 ^ 56 * major.toNat + 2 ^ 40 * minor.toNat =
      2 ^ 40 * (2 ^ 16 * major.toNat + minor.toNat) by omega,
    ← Nat.two_pow_add_eq_or_of_lt (i := 40) (b := 2 ^ 24 * patch.toNat) (by omega),
    show 2 ^ 40 * (2 ^ 16 * major.toNat + minor.toNat) + 2 ^ 24 * patch.toNat =
      2 ^ 24 * (2 ^ 16 * (2 ^ 16 * major.toNat + minor.toNat) + patch.toNat) by omega,
    ← Nat.two_pow_add_eq_or_of_lt (i := 24) (b := build.toNat) (by omega)]
  omega

/-- The numbers of a version; the first one may be negative. -/
abbrev VersionNumbers := Int × Nat × Nat × Nat

/-- The first number that differs decides. -/
def compareNumbers (x y : VersionNumbers) : Ordering :=
  (compare x.1 y.1).then <| (compare x.2.1 y.2.1).then <|
    (compare x.2.2.1 y.2.2.1).then (compare x.2.2.2 y.2.2.2)

/-- A byte as the high byte of a signed integer. -/
def signedByte (n : Nat) : Int := if n < 128 then n else n - 256

theorem compare_pack_numbers {x y : VersionNumbers} (hx1 : x.2.1 < 2 ^ 16) (hy1 : y.2.1 < 2 ^ 16)
    (hx2 : x.2.2.1 < 2 ^ 16) (hy2 : y.2.2.1 < 2 ^ 16) (hx3 : x.2.2.2 < 2 ^ 24)
    (hy3 : y.2.2.2 < 2 ^ 24) :
    compare (((x.1 * (2 ^ 16 : Nat) + x.2.1) * (2 ^ 16 : Nat) + x.2.2.1) * (2 ^ 24 : Nat) +
        x.2.2.2) (((y.1 * (2 ^ 16 : Nat) + y.2.1) * (2 ^ 16 : Nat) + y.2.2.1) * (2 ^ 24 : Nat) +
        y.2.2.2) = compareNumbers x y := by
  rw [compare_packed _ _ hx3 hy3, compare_packed _ _ hx2 hy2, compare_packed _ _ hx1 hy1]
  simp only [compareNumbers, Ordering.then_assoc]

/-- What the database stores. -/
theorem toInt_toInt64_packInt {major minor patch build : UInt64} (hmajor : major ≤ 0xff)
    (hminor : minor ≤ 0xffff) (hpatch : patch ≤ 0xffff) (hbuild : build ≤ 0xffffff) :
    (packInt major minor patch build).toInt64.toInt =
      ((signedByte major.toNat * (2 ^ 16 : Nat) + minor.toNat) * (2 ^ 16 : Nat) + patch.toNat) *
        (2 ^ 24 : Nat) + build.toNat := by
  have hM : major.toNat ≤ 0xff := UInt64.le_iff_toNat_le.mp hmajor
  have hm : minor.toNat ≤ 0xffff := UInt64.le_iff_toNat_le.mp hminor
  have hp : patch.toNat ≤ 0xffff := UInt64.le_iff_toNat_le.mp hpatch
  have hb : build.toNat ≤ 0xffffff := UInt64.le_iff_toNat_le.mp hbuild
  have hnat := toNat_packInt hmajor hminor hpatch hbuild
  have hint : (packInt major minor patch build).toInt64.toInt =
      if 2 * (packInt major minor patch build).toNat < 2 ^ 64 then
        ((packInt major minor patch build).toNat : Int)
      else (packInt major minor patch build).toNat - (2 ^ 64 : Nat) :=
    BitVec.toInt_eq_toNat_cond _
  rw [hint, hnat]
  unfold signedByte
  split_ifs
  all_goals omega

theorem compare_toInt64 (i j : UInt64) :
    compare i.toInt64 j.toInt64 = compare i.toInt64.toInt j.toInt64.toInt := by
  rcases lt_trichotomy i.toInt64.toInt j.toInt64.toInt with h | h | h
  · rw [Int.compare_eq_lt.mpr h, Std.compare_eq_lt]
    exact Int64.lt_iff_toInt_lt.mpr h
  · rw [Int.compare_eq_eq.mpr h, Std.compare_eq_eq_iff_eq]
    exact Int64.toInt_inj.mp h
  · rw [Int.compare_eq_gt.mpr h, Std.compare_eq_gt]
    exact Int64.lt_iff_toInt_lt.mpr h

/-! ## Reading -/

/-- No character that ends a number. -/
def IsPart (text : List Char) : Prop := ∀ c ∈ text, c ≠ '.' ∧ c ≠ '-' ∧ c ≠ '+'

/-- Nothing, or something behind a dash or a plus sign. -/
def IsTail (rest : List Char) : Prop := ∀ c ∈ rest.head?, c = '-' ∨ c = '+'

/-- What is read of three parts and a tail. -/
theorem versionToInt_eq_ok_iff {version : String} {major minor patch rest : List Char}
    (htext : version.toList = major ++ '.' :: (minor ++ '.' :: (patch ++ rest)))
    (hmajor : IsPart major) (hminor : IsPart minor) (hpatch : IsPart patch) (hrest : IsTail rest)
    {i : UInt64} :
    versionToInt version = .ok i ↔
      (numberAfterText major).getD 0 ≤ 0xff ∧ (parseU64 minor).getD 0 ≤ 0xffff ∧
        (parseU64 patch).getD 0 ≤ 0xffff ∧ (numberAfterText rest).getD 0 ≤ 0xffffff ∧
        i = packInt ((numberAfterText major).getD 0) ((parseU64 minor).getD 0)
          ((parseU64 patch).getD 0) ((numberAfterText rest).getD 0) := by
  have hdot : ∀ {part : List Char}, IsPart part → '.' ∉ part :=
    fun h hmem => (h '.' hmem).1 rfl
  have hcore : ∀ c ∈ major ++ '.' :: (minor ++ '.' :: patch),
      decide (c ≠ '-' ∧ c ≠ '+') = true := by
    intro c hc
    rw [decide_eq_true_eq]
    simp only [List.mem_append, List.mem_cons] at hc
    rcases hc with hc | rfl | hc | rfl | hc
    · exact (hmajor c hc).2
    · decide
    · exact (hminor c hc).2
    · decide
    · exact (hpatch c hc).2
  have hends : ∀ c ∈ rest.head?, decide (c ≠ '-' ∧ c ≠ '+') = false := by
    intro c hc
    rcases hrest c hc with rfl | rfl
    · decide
    · decide
  have hwhole : version.toList = (major ++ '.' :: (minor ++ '.' :: patch)) ++ rest := by
    rw [htext]
    simp
  have htake : version.toList.takeWhile (fun c => decide (c ≠ '-' ∧ c ≠ '+')) =
      major ++ '.' :: (minor ++ '.' :: patch) := by
    rw [hwhole, List.takeWhile_append_of_pos hcore]
    cases rest with
    | nil => simp
    | cons c tail => rw [List.takeWhile_cons_of_neg (by simp [hends c rfl]), List.append_nil]
  have hdrop : version.toList.dropWhile (fun c => decide (c ≠ '-' ∧ c ≠ '+')) = rest := by
    rw [hwhole, List.dropWhile_append_of_pos hcore]
    cases rest with
    | nil => rfl
    | cons c tail => exact List.dropWhile_cons_of_neg (by simp [hends c rfl])
  have hsplit : (major ++ '.' :: (minor ++ '.' :: patch)).splitOn '.' = [major, minor, patch] := by
    rw [List.splitOn_append_cons_self_of_not_mem (hdot hmajor),
      List.splitOn_append_cons_self_of_not_mem (hdot hminor),
      List.splitOn_eq_singleton (hdot hpatch)]
  -- The tail is the fourth part, if it is there.
  have hbuild : ((if [major, minor, patch].length = 3 ∧ rest ≠ [] then
      [major, minor, patch] ++ [rest] else [major, minor, patch])[3]?.bind numberAfterText) =
      numberAfterText rest := by
    by_cases hnil : rest = []
    · simp [hnil, numberAfterText, parseU64, parseUsize]
    · simp [hnil]
  have hfront : ∀ n < 3, (if [major, minor, patch].length = 3 ∧ rest ≠ [] then
      [major, minor, patch] ++ [rest] else [major, minor, patch])[n]? =
      [major, minor, patch][n]? := by
    intro n hn
    split_ifs
    · exact List.getElem?_append_left hn
    · rfl
  unfold versionToInt
  dsimp only
  rw [htake, hdrop, hsplit, hbuild, hfront 0 (by decide), hfront 1 (by decide),
    hfront 2 (by decide)]
  simp only [List.length_cons, List.length_nil, List.getElem?_cons_zero, List.getElem?_cons_succ,
    Option.bind_some]
  rw [if_neg (by decide)]
  have hthrow : ∀ {msg : String} {f : PUnit → PkgResult UInt64},
      ((throw (PkgError.versionError msg) : PkgResult PUnit) >>= f) ≠ .ok i := fun h => nomatch h
  by_cases h1 : 0xff < (numberAfterText major).getD 0
  · rw [if_pos h1]
    exact iff_of_false hthrow fun h => UInt64.not_le.mpr h1 h.1
  rw [if_neg h1]
  by_cases h2 : 0xffff < (parseU64 minor).getD 0
  · rw [if_pos h2]
    exact iff_of_false hthrow fun h => UInt64.not_le.mpr h2 h.2.1
  rw [if_neg h2]
  by_cases h3 : 0xffff < (parseU64 patch).getD 0
  · rw [if_pos h3]
    exact iff_of_false hthrow fun h => UInt64.not_le.mpr h3 h.2.2.1
  rw [if_neg h3]
  by_cases h4 : 0xffffff < (numberAfterText rest).getD 0
  · rw [if_pos h4]
    exact iff_of_false hthrow fun h => UInt64.not_le.mpr h4 h.2.2.2.1
  rw [if_neg h4, except_pure_eq_ok]
  exact ⟨fun h => ⟨UInt64.not_lt.mp h1, UInt64.not_lt.mp h2, UInt64.not_lt.mp h3,
    UInt64.not_lt.mp h4, h.symm⟩, fun h => h.2.2.2.2.symm⟩

/-! ## Versions of three numbers -/

/-- A number as it is written: decimal digits, one at least. -/
structure Numeral where
  digits : List Char
  nonempty : digits ≠ []
  decimal : ∀ c ∈ digits, c.isDigit = true

namespace Numeral

/-- The number. -/
def value (n : Numeral) : Nat := Nat.ofDigitChars 10 n.digits 0

/-- What `str::parse::<u64>` leaves of a number where an error counts as zero. -/
def read (n : Numeral) : Nat := if n.value < 2 ^ 64 then n.value else 0

/-- A number in decimal, as it is printed. -/
def ofNat (n : Nat) : Numeral where
  digits := Nat.toDigits 10 n
  nonempty := Nat.toDigits_ne_nil
  decimal := fun _ hc => Nat.isDigit_of_mem_toDigits (by norm_num) (by norm_num) hc

@[simp] theorem value_ofNat (n : Nat) : (ofNat n).value = n := Nat.ofDigitChars_ten_toDigits

theorem isPart (n : Numeral) : IsPart n.digits := by
  intro c hc
  have hdigit := n.decimal c hc
  refine ⟨?_, ?_, ?_⟩
  all_goals
    rintro rfl
    revert hdigit
    decide

theorem parseU64_digits (n : Numeral) :
    ((parseU64 n.digits).getD 0).toNat = n.read := by
  have hdigits : ∀ c ∈ n.digits, '0' ≤ c ∧ c ≤ '9' := by
    intro c hc
    have hdigit := n.decimal c hc
    simpa [Char.isDigit, Char.le_def] using hdigit
  have hparse : parseUsize (String.ofList n.digits) =
      (some n.value).filter fun value => decide (value < 2 ^ 64) := by
    unfold parseUsize
    rw [String.toList_ofList]
    dsimp only
    split
    · next rest heq =>
        exact absurd (n.isPart '+' (heq ▸ List.mem_cons_self)).2.2 (by simp)
    · rw [if_neg (by simp [n.nonempty]), decimalValue_eq_ofDigitChars hdigits]
      rfl
  unfold parseU64 read
  rw [hparse, Option.filter_some]
  by_cases hsize : n.value < 2 ^ 64
  · rw [if_pos (decide_eq_true hsize), if_pos hsize]
    exact UInt64.toNat_ofNat_of_lt' hsize
  · rw [if_neg (by simpa using hsize), if_neg hsize]
    rfl

/-- Nothing stands in front of the digits, or some text without one. -/
theorem numberAfterText_append {text : List Char} (htext : ∀ c ∈ text, c.isDigit = false)
    (n : Numeral) : numberAfterText (text ++ n.digits) = parseU64 n.digits := by
  unfold numberAfterText
  rw [List.dropWhile_append_of_pos (by simpa using htext)]
  congr 1
  cases hdigits : n.digits with
  | nil => rfl
  | cons c tail =>
      have hc := n.decimal c (hdigits ▸ List.mem_cons_self)
      exact List.dropWhile_cons_of_neg (by simp [hc])

theorem numberAfterText_digits (n : Numeral) :
    numberAfterText n.digits = parseU64 n.digits :=
  numberAfterText_append (List.forall_mem_nil _) n

end Numeral

/-- What stands in front of a build number. -/
inductive BuildSign where
  | dash
  | plus
  deriving DecidableEq, Repr

/-- The sign. -/
def BuildSign.char : BuildSign → Char
  | .dash => '-'
  | .plus => '+'

/-- `major.minor.patch`, with a number as pre-release or build part where there is one. -/
structure NumericVersion where
  major : Numeral
  minor : Numeral
  patch : Numeral
  build : Option (BuildSign × Numeral)

namespace NumericVersion

/-- What follows the three numbers. -/
def tail (v : NumericVersion) : List Char :=
  match v.build with
  | none => []
  | some (sign, n) => sign.char :: n.digits

/-- The version as it is written. -/
def text (v : NumericVersion) : String :=
  String.ofList (v.major.digits ++ '.' :: (v.minor.digits ++ '.' :: (v.patch.digits ++ v.tail)))

/-- The four numbers; no build number counts as zero. -/
def numbers (v : NumericVersion) : VersionNumbers :=
  (v.major.value, v.minor.value, v.patch.value, (v.build.map fun build => build.2.value).getD 0)

/-- The four numbers as they are stored: of more than 64 bits none is left, and a major number
from 128 on is negative. -/
def storedNumbers (v : NumericVersion) : VersionNumbers :=
  (signedByte v.major.read, v.minor.read, v.patch.read,
    (v.build.map fun build => build.2.read).getD 0)

/-- Every number fits into 64 bits. -/
def Fits (v : NumericVersion) : Prop :=
  v.major.value < 2 ^ 64 ∧ v.minor.value < 2 ^ 64 ∧ v.patch.value < 2 ^ 64 ∧
    ∀ build, v.build = some build → build.2.value < 2 ^ 64

instance (v : NumericVersion) : Decidable v.Fits :=
  haveI : Decidable (∀ build, v.build = some build → build.2.value < 2 ^ 64) :=
    decidable_of_iff (v.build.all fun build => decide (build.2.value < 2 ^ 64))
      (by cases v.build <;> simp)
  inferInstanceAs (Decidable (_ ∧ _))

/-- The major numbers are on one side of 128.  Where a number needs more than 64 bits, the
versions have to compare as before with zero in its place. -/
def StoredAlike (v w : NumericVersion) : Prop :=
  if v.Fits ∧ w.Fits then v.major.value < 128 ↔ w.major.value < 128
  else compareNumbers v.storedNumbers w.storedNumbers = compareNumbers v.numbers w.numbers

instance (v w : NumericVersion) : Decidable (v.StoredAlike w) :=
  inferInstanceAs (Decidable (if v.Fits ∧ w.Fits then (_ ↔ _) else _ = _))

theorem toNat_numberAfterText_tail (v : NumericVersion) :
    ((numberAfterText v.tail).getD 0).toNat = (v.build.map fun build => build.2.read).getD 0 := by
  unfold tail
  cases v.build with
  | none => rfl
  | some build =>
      obtain ⟨sign, n⟩ := build
      have hsign : ∀ c ∈ [sign.char], c.isDigit = false := by
        intro c hc
        rw [List.mem_singleton.mp hc]
        cases sign with
        | dash => rfl
        | plus => rfl
      have hnumber : numberAfterText (sign.char :: n.digits) = parseU64 n.digits :=
        Numeral.numberAfterText_append hsign n
      show ((numberAfterText (sign.char :: n.digits)).getD 0).toNat = n.read
      rw [hnumber, n.parseU64_digits]

/-- An accepted version has its numbers in their fields. -/
theorem exists_of_versionToInt {v : NumericVersion} {i : UInt64}
    (h : versionToInt v.text = .ok i) :
    v.storedNumbers.2.1 < 2 ^ 16 ∧ v.storedNumbers.2.2.1 < 2 ^ 16 ∧
      v.storedNumbers.2.2.2 < 2 ^ 24 ∧ v.major.read < 256 ∧
      i.toInt64.toInt = ((v.storedNumbers.1 * (2 ^ 16 : Nat) + v.storedNumbers.2.1) *
        (2 ^ 16 : Nat) + v.storedNumbers.2.2.1) * (2 ^ 24 : Nat) + v.storedNumbers.2.2.2 := by
  have htail : IsTail v.tail := by
    intro c hc
    unfold tail at hc
    cases hbuild : v.build with
    | none =>
        rw [hbuild] at hc
        cases hc
    | some build =>
        rw [hbuild] at hc
        obtain rfl := Option.some.inj hc
        cases build.1 with
        | dash => exact .inl rfl
        | plus => exact .inr rfl
  have htext : v.text.toList = v.major.digits ++ '.' :: (v.minor.digits ++ '.' ::
      (v.patch.digits ++ v.tail)) := String.toList_ofList
  rw [versionToInt_eq_ok_iff htext v.major.isPart v.minor.isPart v.patch.isPart htail,
    v.major.numberAfterText_digits] at h
  obtain ⟨h1, h2, h3, h4, rfl⟩ := h
  have hint := toInt_toInt64_packInt h1 h2 h3 h4
  rw [UInt64.le_iff_toNat_le, Numeral.parseU64_digits] at h1 h2 h3
  rw [UInt64.le_iff_toNat_le, toNat_numberAfterText_tail] at h4
  rw [Numeral.parseU64_digits, Numeral.parseU64_digits, Numeral.parseU64_digits,
    toNat_numberAfterText_tail] at hint
  refine ⟨?_, ?_, ?_, ?_, hint⟩
  · exact Nat.lt_succ_of_le h2
  · exact Nat.lt_succ_of_le h3
  · exact Nat.lt_succ_of_le h4
  · exact Nat.lt_succ_of_le h1

/-- The stored integers are in the order of the stored numbers. -/
theorem compare_versionToInt {v w : NumericVersion} {i j : UInt64}
    (hi : versionToInt v.text = .ok i) (hj : versionToInt w.text = .ok j) :
    compare i.toInt64 j.toInt64 = compareNumbers v.storedNumbers w.storedNumbers := by
  obtain ⟨hv1, hv2, hv3, -, hv⟩ := exists_of_versionToInt hi
  obtain ⟨hw1, hw2, hw3, -, hw⟩ := exists_of_versionToInt hj
  rw [compare_toInt64, hv, hw, compare_pack_numbers hv1 hw1 hv2 hw2 hv3 hw3]

/-- A number that fits is stored, the major number up to its sign. -/
theorem Fits.storedNumbers_eq {v : NumericVersion} (h : v.Fits) :
    v.storedNumbers = (signedByte v.major.value, v.numbers.2) := by
  obtain ⟨hmajor, hminor, hpatch, hbuild⟩ := h
  unfold storedNumbers numbers Numeral.read
  rw [if_pos hmajor, if_pos hminor, if_pos hpatch]
  cases hb : v.build with
  | none => rfl
  | some build =>
      simp only [Option.map_some, Option.getD_some]
      rw [if_pos (hbuild build hb)]

theorem compareNumbers_of_lt {x y : VersionNumbers} (h : x.1 < y.1) :
    compareNumbers x y = .lt ∧ compareNumbers y x = .gt := by
  unfold compareNumbers
  rw [Int.compare_eq_lt.mpr h, Int.compare_eq_gt.mpr h]
  exact ⟨rfl, rfl⟩

/-- A byte in front keeps its place in the order, as a signed one, on one side of 128 only. -/
theorem compareNumbers_signedByte_iff {m n : Nat} (hm : m < 256) (hn : n < 256)
    (x y : Nat × Nat × Nat) :
    compareNumbers (signedByte m, x) (signedByte n, y) =
        compareNumbers ((m : Int), x) ((n : Int), y) ↔ (m < 128 ↔ n < 128) := by
  by_cases hm' : m < 128
  · by_cases hn' : n < 128
    · simp [signedByte, hm', hn']
    · have hbytes : compareNumbers ((m : Int), x) ((n : Int), y) = .lt :=
        (compareNumbers_of_lt (show (m : Int) < n by omega)).1
      have hsigned : compareNumbers (signedByte m, x) (signedByte n, y) = .gt := by
        refine (compareNumbers_of_lt ?_).2
        simp only [signedByte, if_pos hm', if_neg hn']
        omega
      rw [hbytes, hsigned]
      simp [hm', hn']
  · by_cases hn' : n < 128
    · have hbytes : compareNumbers ((m : Int), x) ((n : Int), y) = .gt :=
        (compareNumbers_of_lt (show (n : Int) < m by omega)).2
      have hsigned : compareNumbers (signedByte m, x) (signedByte n, y) = .lt := by
        refine (compareNumbers_of_lt ?_).1
        simp only [signedByte, if_pos hn', if_neg hm']
        omega
      rw [hbytes, hsigned]
      simp [hm', hn']
    · refine iff_of_true ?_ (iff_of_false hm' hn')
      simp only [compareNumbers, signedByte, if_neg hm', if_neg hn', sub_eq_add_neg,
        compare_add_right]

/-- The stored integers of two versions are in the order of their numbers exactly if the
numbers are stored alike. -/
theorem compare_versionToInt_iff {v w : NumericVersion} {i j : UInt64}
    (hi : versionToInt v.text = .ok i) (hj : versionToInt w.text = .ok j) :
    compare i.toInt64 j.toInt64 = compareNumbers v.numbers w.numbers ↔ v.StoredAlike w := by
  rw [compare_versionToInt hi hj]
  unfold StoredAlike
  by_cases hfits : v.Fits ∧ w.Fits
  · have hmajor : ∀ {u : NumericVersion} {k : UInt64}, u.Fits → versionToInt u.text = .ok k →
        u.major.value < 256 := by
      intro u k hu hk
      obtain ⟨-, -, -, hread, -⟩ := exists_of_versionToInt hk
      rwa [Numeral.read, if_pos hu.1] at hread
    rw [if_pos hfits, hfits.1.storedNumbers_eq, hfits.2.storedNumbers_eq]
    exact compareNumbers_signedByte_iff (hmajor hfits.1 hi) (hmajor hfits.2 hj) _ _
  · rw [if_neg hfits]

end NumericVersion

/-! ## Comparators -/

namespace Comparator

/-- The text of the version that a comparator with all fields compares with. -/
def versionText (c : Comparator) : String :=
  toString c.major.toNat ++ "." ++ toString (c.minor.getD 0).toNat ++ "." ++
    toString (c.patch.getD 0).toNat ++ (if c.pre = "" then "" else "-" ++ c.pre)

/-- The fields have their widths, and the number of the pre-release has its own. -/
def FitsInt (c : Comparator) : Prop :=
  c.major ≤ 0xff ∧ (c.minor.getD 0) ≤ 0xffff ∧ (c.patch.getD 0) ≤ 0xffff ∧
    (numberAfterText c.pre.toList).getD 0 ≤ 0xffffff

/-- The pre-release behind its dash. -/
def preTail (c : Comparator) : List Char := if c.pre = "" then [] else '-' :: c.pre.toList

theorem toList_versionText (c : Comparator) :
    c.versionText.toList = (Numeral.ofNat c.major.toNat).digits ++ '.' ::
      ((Numeral.ofNat (c.minor.getD 0).toNat).digits ++ '.' ::
        ((Numeral.ofNat (c.patch.getD 0).toNat).digits ++ c.preTail)) := by
  unfold versionText preTail Numeral.ofNat
  simp only [String.toList_append, Nat.toString_eq_ofList_toDigits, String.toList_ofList]
  split_ifs
  · simp
  · simp

theorem numberAfterText_preTail (c : Comparator) :
    numberAfterText c.preTail = numberAfterText c.pre.toList := by
  unfold preTail
  split_ifs with hpre
  · rw [hpre]
    rfl
  · exact congrArg parseU64 (List.dropWhile_cons_of_pos (by decide))

theorem parseU64_ofNat (n : UInt64) :
    (parseU64 (Numeral.ofNat n.toNat).digits).getD 0 = n := by
  apply UInt64.toNat_inj.mp
  rw [Numeral.parseU64_digits, Numeral.read, Numeral.value_ofNat, if_pos n.toNat_lt]

/-- A comparator and its version have the same integer exactly if the fields have their
widths; otherwise the version has none. -/
theorem versionToInt_versionText_iff (c : Comparator) :
    versionToInt c.versionText = .ok (comparatorToInt c) ↔ c.FitsInt := by
  have htail : IsTail c.preTail := by
    intro d hd
    unfold preTail at hd
    split_ifs at hd
    · cases hd
    · exact .inl (Option.some.inj hd).symm
  have hread := versionToInt_eq_ok_iff (i := comparatorToInt c) c.toList_versionText
    (Numeral.ofNat c.major.toNat).isPart (Numeral.ofNat (c.minor.getD 0).toNat).isPart
    (Numeral.ofNat (c.patch.getD 0).toNat).isPart htail
  rw [Numeral.numberAfterText_digits, numberAfterText_preTail, parseU64_ofNat, parseU64_ofNat, parseU64_ofNat] at hread
  rw [hread]
  exact ⟨fun h => ⟨h.1, h.2.1, h.2.2.1, h.2.2.2.1⟩,
    fun h => ⟨h.1, h.2.1, h.2.2.1, h.2.2.2, rfl⟩⟩

end Comparator

/-! ## Both encoders -/

/-- The integers of versions are in the order of their numbers exactly if these are stored
alike; and a comparator has the integer of its version exactly if its fields have their
widths. -/
theorem versionInt_faithful_iff (v w : NumericVersion) (c : Comparator) :
    (∀ i j : UInt64, versionToInt v.text = .ok i → versionToInt w.text = .ok j →
        (compare i.toInt64 j.toInt64 = compareNumbers v.numbers w.numbers ↔ v.StoredAlike w)) ∧
      (c.minor.isSome → c.patch.isSome →
        (versionToInt c.versionText = .ok (comparatorToInt c) ↔ c.FitsInt)) :=
  ⟨fun _ _ hi hj => NumericVersion.compare_versionToInt_iff hi hj,
    fun _ _ => c.versionToInt_versionText_iff⟩

/-- The version of three numbers. -/
def plainVersion (major minor patch : Nat) : NumericVersion where
  major := .ofNat major
  minor := .ofNat minor
  patch := .ofNat patch
  build := none

theorem plainVersions_ordered :
    compare (0x01_0002_0003_000000 : UInt64).toInt64 (0x01_0002_0004_000000 : UInt64).toInt64 =
        compareNumbers (plainVersion 1 2 3).numbers (plainVersion 1 2 4).numbers ∧
      versionToInt (Comparator.mk .greaterEq 1 (some 2) (some 3) "beta.4").versionText =
        .ok (comparatorToInt ⟨.greaterEq, 1, some 2, some 3, "beta.4"⟩) := by
  have hboth := versionInt_faithful_iff (plainVersion 1 2 3) (plainVersion 1 2 4)
    ⟨.greaterEq, 1, some 2, some 3, "beta.4"⟩
  refine ⟨(hboth.1 _ _ (by decide) (by decide)).mpr (by decide), ?_⟩
  apply (hboth.2 rfl rfl).mpr
  unfold Comparator.FitsInt
  decide

/-- Version 128.0.0 is stored below 0.0.0, and a comparator with the major number 256 has an
integer where its version has none. -/
theorem largeMajor_misordered :
    versionToInt "128.0.0" = .ok 0x80_0000_0000_000000 ∧ versionToInt "0.0.0" = .ok 0 ∧
      compare (0x80_0000_0000_000000 : UInt64).toInt64 (0 : UInt64).toInt64 = .lt ∧
      compareNumbers (plainVersion 128 0 0).numbers (plainVersion 0 0 0).numbers = .gt ∧
      (versionToInt (Comparator.mk .greaterEq 256 (some 0) (some 0) "").versionText).isOk =
        false ∧
      ¬ ((∀ (v w : NumericVersion) (i j : UInt64),
        versionToInt v.text = .ok i → versionToInt w.text = .ok j →
          compare i.toInt64 j.toInt64 = compareNumbers v.numbers w.numbers) ∧
        ∀ c : Comparator, c.minor.isSome → c.patch.isSome →
          versionToInt c.versionText = .ok (comparatorToInt c)) := by
  refine ⟨by decide, by decide, by decide, by decide,
    by decide, ?_⟩
  rintro ⟨hordered, -⟩
  have hmajor := hordered (plainVersion 128 0 0) (plainVersion 0 0 0) 0x80_0000_0000_000000 0
    (by decide) (by decide)
  revert hmajor
  decide

end PackageLib
end CyfsNdn

import Mathlib.Data.List.Basic
import Mathlib.Tactic

/-!
# Bytes in digits of some bits

The codecs of RFC 4648 without padding: the bits of the bytes in groups of one width, and
a digit for a group.  The last group is filled with zeros; the decoder drops the bits
behind the last whole byte.
-/

namespace CyfsNdn
namespace Collections
namespace BitDigits

/-! ## Bits of a number -/

/-- The bits of a number, the highest of so many first. -/
def numberBits : Nat → Nat → List Bool
  | 0, _ => []
  | width + 1, n => numberBits width (n / 2) ++ [decide (n % 2 = 1)]

/-- The number with these bits. -/
def bitsValue (bits : List Bool) : Nat :=
  bits.foldl (fun n b => 2 * n + b.toNat) 0

theorem length_numberBits (width n : Nat) : (numberBits width n).length = width := by
  induction width generalizing n with
  | zero => rfl
  | succ width ih => rw [numberBits, List.length_append, ih, List.length_singleton]

theorem bitsValue_append_singleton (bits : List Bool) (b : Bool) :
    bitsValue (bits ++ [b]) = 2 * bitsValue bits + b.toNat := by
  unfold bitsValue
  rw [List.foldl_append]
  rfl

/-- A number is read back from its bits. -/
theorem bitsValue_numberBits {width n : Nat} (h : n < 2 ^ width) :
    bitsValue (numberBits width n) = n := by
  induction width generalizing n with
  | zero =>
      rw [Nat.pow_zero] at h
      exact (Nat.lt_one_iff.mp h).symm
  | succ width ih =>
      rw [numberBits, bitsValue_append_singleton, ih (by rw [Nat.pow_succ] at h; omega)]
      by_cases hodd : n % 2 = 1
      · simp [hodd]
        omega
      · simp [hodd]
        omega

/-- Bits are read back from their number. -/
theorem numberBits_bitsValue (bits : List Bool) :
    numberBits bits.length (bitsValue bits) = bits := by
  induction bits using List.reverseRecOn with
  | nil => rfl
  | append_singleton bits b ih =>
      have hhalf : (2 * bitsValue bits + b.toNat) / 2 = bitsValue bits := by
        have hbit : b.toNat ≤ 1 := Bool.toNat_le b
        omega
      have hlast : decide ((2 * bitsValue bits + b.toNat) % 2 = 1) = b := by
        cases b <;> simp
      rw [List.length_append, List.length_singleton, bitsValue_append_singleton, numberBits,
        hhalf, ih, hlast]

theorem bitsValue_lt (bits : List Bool) : bitsValue bits < 2 ^ bits.length := by
  induction bits using List.reverseRecOn with
  | nil => exact Nat.one_pos
  | append_singleton bits b ih =>
      have hbit : b.toNat ≤ 1 := Bool.toNat_le b
      rw [bitsValue_append_singleton, List.length_append, List.length_singleton, Nat.pow_succ]
      omega

/-! ## Groups -/

/-- So many groups of the bits; zeros fill the last one. -/
def groups (width : Nat) : Nat → List Bool → List (List Bool)
  | 0, _ => []
  | count + 1, bits =>
      (bits.take width ++ List.replicate (width - bits.length) false) ::
        groups width count (bits.drop width)

theorem length_of_mem_groups {width count : Nat} {bits group : List Bool}
    (h : group ∈ groups width count bits) : group.length = width := by
  induction count generalizing bits with
  | zero => cases h
  | succ count ih =>
      rcases List.mem_cons.mp h with rfl | h
      · rw [List.length_append, List.length_take, List.length_replicate]
        omega
      · exact ih h

/-- Enough groups hold the bits, and zeros behind them. -/
theorem flatten_groups {width count : Nat} {bits : List Bool}
    (h : bits.length ≤ count * width) :
    (groups width count bits).flatten =
      bits ++ List.replicate (count * width - bits.length) false := by
  induction count generalizing bits with
  | zero =>
      rw [Nat.zero_mul, Nat.le_zero, List.length_eq_zero_iff] at h
      rw [h, Nat.zero_mul]
      rfl
  | succ count ih =>
      rw [Nat.succ_mul] at h ⊢
      have hrest : (bits.drop width).length ≤ count * width := by
        rw [List.length_drop]
        omega
      rw [groups, List.flatten_cons, ih hrest, List.length_drop]
      by_cases hlast : bits.length ≤ width
      · rw [List.take_of_length_le hlast, List.drop_eq_nil_of_le hlast, List.nil_append,
          List.append_assoc, List.replicate_append_replicate]
        congr 2
        omega
      · rw [show width - bits.length = 0 by omega, List.replicate_zero, List.append_nil,
          ← List.append_assoc, List.take_append_drop]
        congr 2
        omega

/-- Eight bits for a byte; what is left is dropped. -/
def wholeBytes : List Bool → List UInt8
  | a :: b :: c :: d :: e :: f :: g :: h :: rest =>
      UInt8.ofNat (bitsValue [a, b, c, d, e, f, g, h]) :: wholeBytes rest
  | _ => []

/-- Less than a byte is dropped. -/
theorem wholeBytes_of_length_lt {bits : List Bool} (h : bits.length < 8) :
    wholeBytes bits = [] := by
  unfold wholeBytes
  split
  · simp only [List.length_cons] at h
    omega
  · rfl

/-- The bits of some bytes. -/
def bytesBits (bytes : List UInt8) : List Bool :=
  bytes.flatMap fun byte => numberBits 8 byte.toNat

theorem length_bytesBits (bytes : List UInt8) : (bytesBits bytes).length = 8 * bytes.length := by
  induction bytes with
  | nil => rfl
  | cons byte rest ih =>
      unfold bytesBits at ih ⊢
      rw [List.flatMap_cons, List.length_append, length_numberBits, ih, List.length_cons]
      omega

theorem wholeBytes_bytesBits (bytes : List UInt8) {filled : List Bool}
    (h : filled.length < 8) : wholeBytes (bytesBits bytes ++ filled) = bytes := by
  induction bytes with
  | nil => exact wholeBytes_of_length_lt h
  | cons byte rest ih =>
      unfold bytesBits at ih ⊢
      rw [List.flatMap_cons, List.append_assoc]
      change UInt8.ofNat (bitsValue (numberBits 8 byte.toNat)) ::
        wholeBytes (rest.flatMap (fun byte => numberBits 8 byte.toNat) ++ filled) = _
      rw [bitsValue_numberBits byte.toNat_lt, ih, UInt8.ofNat_toNat]

/-! ## Digits -/

/-- Digits of so many bits. -/
structure Digits where
  width : Nat
  alphabet : List Char
  length_alphabet : alphabet.length = 2 ^ width
  idxOf?_get : ∀ n : Fin alphabet.length, alphabet.idxOf? (alphabet.get n) = some n.val
  width_pos : 0 < width
  width_le : width ≤ 8

namespace Digits

variable (digits : Digits)

/-- The digit of a group. -/
def digit (bits : List Bool) : Char :=
  digits.alphabet.getD (bitsValue bits) 'a'

/-- The bits of a digit. -/
def digitBits (c : Char) : Option (List Bool) :=
  (digits.alphabet.idxOf? c).map (numberBits digits.width)

/-- The number of digits of some bytes. -/
def count (bytes : List UInt8) : Nat :=
  (8 * bytes.length + digits.width - 1) / digits.width

/-- The digits of some bytes. -/
def encode (bytes : List UInt8) : String :=
  String.ofList ((groups digits.width (digits.count bytes) (bytesBits bytes)).map digits.digit)

/-- The bytes of some digits. -/
def decode (text : String) : Option (List UInt8) :=
  (text.toList.mapM digits.digitBits).map fun bits => wholeBytes bits.flatten

variable {digits}

theorem bitsValue_lt_length {bits : List Bool} (h : bits.length = digits.width) :
    bitsValue bits < digits.alphabet.length := by
  rw [digits.length_alphabet, ← h]
  exact bitsValue_lt bits

theorem digit_eq_get {bits : List Bool} (h : bits.length = digits.width) :
    digits.digit bits = digits.alphabet.get ⟨bitsValue bits, bitsValue_lt_length h⟩ := by
  unfold digit
  rw [List.getD_eq_getElem?_getD, List.getElem?_eq_getElem (bitsValue_lt_length h),
    Option.getD_some]
  rfl

theorem digitBits_digit {bits : List Bool} (h : bits.length = digits.width) :
    digits.digitBits (digits.digit bits) = some bits := by
  unfold digitBits
  rw [digit_eq_get h, digits.idxOf?_get, Option.map_some,
    ← h, numberBits_bitsValue]

theorem mapM_digitBits_map_digit {parts : List (List Bool)}
    (h : ∀ part ∈ parts, part.length = digits.width) :
    (parts.map digits.digit).mapM digits.digitBits = some parts := by
  induction parts with
  | nil => rfl
  | cons part rest ih =>
      rw [List.map_cons, List.mapM_cons, digitBits_digit (h part List.mem_cons_self),
        ih fun p hp => h p (List.mem_cons_of_mem _ hp)]
      rfl

/-- Bytes are read back from their digits. -/
theorem decode_encode (bytes : List UInt8) : digits.decode (digits.encode bytes) = some bytes := by
  have hpos := digits.width_pos
  have hle := digits.width_le
  have hbits := length_bytesBits bytes
  -- There are enough digits, and less than a digit is filled.
  have henough : 8 * bytes.length ≤ digits.count bytes * digits.width := by
    unfold count
    have hceil := Nat.lt_div_mul_add (a := 8 * bytes.length + digits.width - 1) hpos
    omega
  have hfew : digits.count bytes * digits.width < 8 * bytes.length + digits.width := by
    unfold count
    have hfloor := Nat.div_mul_le_self (8 * bytes.length + digits.width - 1) digits.width
    omega
  unfold decode encode
  rw [String.toList_ofList, mapM_digitBits_map_digit fun _ h => length_of_mem_groups h,
    Option.map_some, flatten_groups (by omega), wholeBytes_bytesBits bytes (by
      rw [List.length_replicate]
      omega)]

/-- Only digits are written. -/
theorem mem_alphabet_of_mem_encode {bytes : List UInt8} {c : Char}
    (h : c ∈ (digits.encode bytes).toList) : c ∈ digits.alphabet := by
  unfold encode at h
  rw [String.toList_ofList] at h
  obtain ⟨group, hgroup, rfl⟩ := List.mem_map.mp h
  rw [digit_eq_get (length_of_mem_groups hgroup)]
  exact List.get_mem _ _

end Digits

/-! ## Two alphabets -/

/-- Base 32 in lower case.  A letter in upper case is no digit and is not read. -/
def base32 : Digits where
  width := 5
  alphabet := "abcdefghijklmnopqrstuvwxyz234567".toList
  length_alphabet := by decide
  idxOf?_get := by decide
  width_pos := by decide
  width_le := by decide

/-- Base 64 with the alphabet for URLs. -/
def base64Url : Digits where
  width := 6
  alphabet := "ABCDEFGHIJKLMNOPQRSTUVWXYZabcdefghijklmnopqrstuvwxyz0123456789-_".toList
  length_alphabet := by decide
  idxOf?_get := by decide
  width_pos := by decide
  width_le := by decide

end BitDigits
end Collections
end CyfsNdn

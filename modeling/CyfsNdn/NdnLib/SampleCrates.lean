import CyfsNdn.NdnLib.Chunk

/-!
# A reading of the crates that can be evaluated

`sampleCrates` gives every third-party function a definition that can be run.
Hex, varint and the JSON array of plain strings are written out.  Of SHA-256 the
digest of one text is tabulated, and everything else that no concrete run of the
development reaches is answered with "no".  It shows that the laws of
`Crates.Lawful` can be met, and it is what concrete runs are evaluated with.
-/

namespace CyfsNdn
namespace NdnLib

/-- The lower-case digit of a number below 16. -/
def hexDigit (n : Nat) : Char :=
  hexDigits.getD n '0'

/-- The value of a hex digit, of either case. -/
def hexValue (c : Char) : Option Nat :=
  if c ∈ "0123456789".toList then some (c.toNat - 48)
  else if c ∈ "abcdef".toList then some (c.toNat - 87)
  else if c ∈ "ABCDEF".toList then some (c.toNat - 55)
  else none

/-- Two digits for every byte. -/
def sampleHexEncode (bytes : List UInt8) : String :=
  String.ofList (bytes.flatMap fun b => [hexDigit (b.toNat / 16), hexDigit (b.toNat % 16)])

/-- One byte from every two digits. -/
def hexDecodeChars : List Char → Option (List UInt8)
  | [] => some []
  | [_] => none
  | high :: low :: rest =>
      match hexValue high, hexValue low, hexDecodeChars rest with
      | some x, some y, some bytes => some (UInt8.ofNat (16 * x + y) :: bytes)
      | _, _, _ => none

/-- Seven bits for every byte, low bits first, at most `fuel` bytes. -/
def sampleVarintEncode : Nat → Nat → List UInt8
  | 0, _ => []
  | fuel + 1, n =>
      if n < 128 then [UInt8.ofNat n]
      else UInt8.ofNat (n % 128 + 128) :: sampleVarintEncode fuel (n / 128)

/-- The number that starts a byte string, and the bytes after it. -/
def sampleVarintDecode : Nat → List UInt8 → Option (Nat × List UInt8)
  | 0, _ => none
  | _, [] => none
  | fuel + 1, b :: rest =>
      if b.toNat < 128 then some (b.toNat, rest)
      else
        match sampleVarintDecode fuel rest with
        | some (n, tail) => some (b.toNat - 128 + 128 * n, tail)
        | none => none

/-- The elements of a JSON array after its text is cut at the quotes. -/
def jsonArrayElements : List (List Char) → Option (List String)
  | [element, close] => if close = [']'] then some [String.ofList element] else none
  | element :: separator :: rest =>
      if separator = [','] then
        (jsonArrayElements rest).map (String.ofList element :: ·)
      else none
  | _ => none

/-- A JSON array of strings without escapes or blanks. -/
def sampleJsonStringArray (s : String) : Option (List String) :=
  match s.toList.splitOn '"' with
  | [['[', ']']] => some []
  | ['['] :: rest => jsonArrayElements rest
  | _ => none

/-- SHA-256 of `abc`. -/
def sha256Abc : List UInt8 :=
  [0xba, 0x78, 0x16, 0xbf, 0x8f, 0x01, 0xcf, 0xea, 0x41, 0x41, 0x40, 0xde, 0x5d, 0xae,
    0x22, 0x23, 0xb0, 0x03, 0x61, 0xa3, 0x96, 0x17, 0x7a, 0x9c, 0xb4, 0x10, 0xff, 0x61,
    0xf2, 0x00, 0x15, 0xad]

/-- The mix id of the chunk `abc`. -/
def abcChunk : ChunkId := ⟨.mix256, 3 :: sha256Abc⟩

/-- The sample reading of the crates. -/
def sampleCrates : Crates where
  hexEncode := sampleHexEncode
  hexDecode := fun s => hexDecodeChars s.toList
  base32Decode := fun _ => none
  varintEncode := sampleVarintEncode 10
  varintDecode := sampleVarintDecode 10
  digest := fun method bytes =>
    if method = .sha256 ∧ bytes = [97, 98, 99] then sha256Abc else []
  jsonDirItems := fun _ => none
  jsonFileContent := fun _ => none
  jsonStringArray := sampleJsonStringArray
  jsonValue := fun _ => none
  jwtClaims := fun _ => none

theorem hexValue_hexDigit (n : Nat) (hn : n < 16) : hexValue (hexDigit n) = some n := by
  have hall : ∀ m : Fin 16, hexValue (hexDigit m) = some m.val := by decide
  exact hall ⟨n, hn⟩

theorem hexDecodeChars_hexDigits (bytes : List UInt8) :
    hexDecodeChars (bytes.flatMap fun b =>
      [hexDigit (b.toNat / 16), hexDigit (b.toNat % 16)]) = some bytes := by
  induction bytes with
  | nil => rfl
  | cons b rest ih =>
      have hb := b.toNat_lt
      have hhigh := hexValue_hexDigit (b.toNat / 16) (by omega)
      have hlow := hexValue_hexDigit (b.toNat % 16) (by omega)
      have hvalue : 16 * (b.toNat / 16) + b.toNat % 16 = b.toNat := by omega
      rw [List.flatMap_cons]
      simp only [List.cons_append, List.nil_append, hexDecodeChars, hhigh, hlow, ih,
        hvalue, UInt8.ofNat_toNat]

theorem hexDigit_mem (n : Nat) (hn : n < 16) : hexDigit n ∈ hexDigits := by
  have hall : ∀ m : Fin 16, hexDigit m ∈ hexDigits := by decide
  exact hall ⟨n, hn⟩

theorem toNat_ofNat_of_lt {n : Nat} (hn : n < 256) : (UInt8.ofNat n).toNat = n := by
  rw [UInt8.toNat_ofNat', Nat.mod_eq_of_lt hn]

theorem sampleVarintDecode_encode (fuel n : Nat) (rest : List UInt8)
    (hn : n < 128 ^ (fuel + 1)) :
    sampleVarintDecode (fuel + 1) (sampleVarintEncode (fuel + 1) n ++ rest) =
      some (n, rest) := by
  induction fuel generalizing n with
  | zero =>
      have hsmall : n < 128 := by simpa using hn
      have hbyte : (UInt8.ofNat n).toNat = n := toNat_ofNat_of_lt (by omega)
      simp only [sampleVarintEncode, if_pos hsmall, List.cons_append, List.nil_append,
        sampleVarintDecode, hbyte]
  | succ fuel ih =>
      rw [sampleVarintEncode]
      by_cases hsmall : n < 128
      · have hbyte : (UInt8.ofNat n).toNat = n := toNat_ofNat_of_lt (by omega)
        simp only [if_pos hsmall, List.cons_append, List.nil_append, sampleVarintDecode,
          hbyte]
      · have hbyte : (UInt8.ofNat (n % 128 + 128)).toNat = n % 128 + 128 :=
          toNat_ofNat_of_lt (by omega)
        have hrest : n / 128 < 128 ^ (fuel + 1) := by
          rw [Nat.div_lt_iff_lt_mul (by omega), ← Nat.pow_succ]
          exact hn
        have hlarge : ¬ n % 128 + 128 < 128 := by omega
        have hvalue : n % 128 + 128 - 128 + 128 * (n / 128) = n := by omega
        rw [if_neg hsmall, List.cons_append, sampleVarintDecode, hbyte, if_neg hlarge,
          ih (n / 128) hrest]
        simp only [hvalue]

/-- The sample reading meets the laws. -/
theorem sampleCrates_lawful : sampleCrates.Lawful where
  hexDecode_hexEncode := by
    intro bytes
    show hexDecodeChars (sampleHexEncode bytes).toList = some bytes
    rw [sampleHexEncode, String.toList_ofList]
    exact hexDecodeChars_hexDigits bytes
  mem_hexEncode := by
    intro bytes c hc
    change c ∈ (sampleHexEncode bytes).toList at hc
    rw [sampleHexEncode, String.toList_ofList, List.mem_flatMap] at hc
    obtain ⟨b, -, hb⟩ := hc
    have hlt := b.toNat_lt
    simp only [List.mem_cons, List.not_mem_nil, or_false] at hb
    rcases hb with rfl | rfl
    · exact hexDigit_mem _ (by omega)
    · exact hexDigit_mem _ (by omega)
  varintDecode_varintEncode := by
    intro n rest hn
    show sampleVarintDecode 10 (sampleVarintEncode 10 n ++ rest) = some (n, rest)
    have hbound : n < 128 ^ 10 := lt_of_lt_of_le hn (by norm_num)
    exact sampleVarintDecode_encode 9 n rest hbound

end NdnLib
end CyfsNdn

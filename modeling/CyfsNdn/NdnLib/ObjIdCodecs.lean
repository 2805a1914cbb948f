import CyfsNdn.Collections.BitDigits
import CyfsNdn.NdnLib.SampleWeb

/-!
# The codecs of an identifier

An identifier is written as `type:hex`, as base 32 of `type:hash` and as the bytes of
`type:hash`, and the first two are read by one parser.  The reader of the bytes refuses
less than three of them; the parser of the texts does not, and so it accepts a few
identifiers that are lost when they are stored as bytes.
-/

namespace CyfsNdn
namespace NdnLib

open Collections

/-- What identifiers rely on of the crate for base 32: its text is read back and has no
separator. -/
structure WebCrates.Base32Lawful (web : WebCrates) : Prop where
  base32Decode_base32Encode : ∀ bytes,
    web.base32Decode (web.base32Encode bytes) = some bytes
  colon_not_mem_base32Encode : ∀ bytes, ':' ∉ (web.base32Encode bytes).toList

/-! ## Bytes of a text -/

theorem byteArray_loop_eq (bytes : ByteArray) (i : Nat) (read : List UInt8) :
    ByteArray.toList.loop bytes i read = read.reverse ++ bytes.data.toList.drop i := by
  induction hleft : bytes.size - i generalizing i read with
  | zero =>
      have hend : ¬ i < bytes.size := by omega
      have hlength : bytes.data.toList.length = bytes.size := Array.length_toList
      rw [ByteArray.toList.loop, if_neg hend, List.drop_eq_nil_of_le (by omega),
        List.append_nil]
  | succ n ih =>
      have hlt : i < bytes.size := by omega
      have hlength : bytes.data.toList.length = bytes.size := Array.length_toList
      have hin : i < bytes.data.toList.length := by omega
      have hbyte : bytes.get! i = bytes.data.toList[i] := by
        rw [Array.getElem_toList]
        exact getElem!_pos bytes.data i hlt
      rw [ByteArray.toList.loop, if_pos hlt, ih (i + 1) _ (by omega), List.reverse_cons,
        List.append_assoc, hbyte,
        List.drop_eq_getElem_cons (show i < bytes.data.toList.length by omega)]
      rfl

/-- The bytes of a text are the ones that the identifier starts with. -/
theorem toUTF8_toList (s : String) : s.toUTF8.toList = utf8Bytes s := by
  unfold ByteArray.toList
  rw [byteArray_loop_eq]
  rfl

/-- The byte of an ASCII character stands for this character only. -/
theorem eq_of_ascii_byte_mem {c d : Char} (hd : d.val.toNat < 128)
    (h : UInt8.ofNat d.val.toNat ∈ String.utf8EncodeChar c) : c = d := by
  have hbyte : ∀ n : Nat, UInt8.ofNat d.val.toNat = UInt8.ofNat n → n % 256 = d.val.toNat := by
    intro n hn
    have hnat := congrArg UInt8.toNat hn
    rw [UInt8.toNat_ofNat', UInt8.toNat_ofNat'] at hnat
    omega
  unfold String.utf8EncodeChar at h
  dsimp only at h
  split_ifs at h with hone htwo hthree
  · have hvalue := hbyte _ (List.mem_singleton.mp h)
    exact Char.ext (UInt32.toNat_inj.mp (by omega))
  all_goals
    -- Every byte of a longer form is 128 at least.
    simp only [List.mem_cons, List.not_mem_nil, or_false] at h
    exfalso
  · rcases h with h | h <;> have hvalue := hbyte _ h <;> omega
  · rcases h with h | h | h <;> have hvalue := hbyte _ h <;> omega
  · rcases h with h | h | h | h <;> have hvalue := hbyte _ h <;> omega

/-- The bytes of a text are the ones of its characters. -/
theorem utf8Bytes_eq_flatMap (s : String) :
    utf8Bytes s = s.toList.flatMap String.utf8EncodeChar := by
  unfold utf8Bytes
  rw [← String.utf8Encode_toList, List.utf8Encode]
  simp

theorem ascii_byte_not_mem {s : String} {d : Char} (hd : d.val.toNat < 128)
    (h : d ∉ s.toList) : UInt8.ofNat d.val.toNat ∉ utf8Bytes s := by
  intro hmem
  rw [utf8Bytes_eq_flatMap, List.mem_flatMap] at hmem
  obtain ⟨c, hc, hbyte⟩ := hmem
  exact h (eq_of_ascii_byte_mem hd hbyte ▸ hc)

theorem colon_byte_not_mem {s : String} (h : ':' ∉ s.toList) : (58 : UInt8) ∉ utf8Bytes s :=
  @ascii_byte_not_mem s ':' (by decide) h

namespace ObjId

variable {web : WebCrates}

/-! ## Bytes of an identifier -/

theorem toBytes_eq (id : ObjId) : id.toBytes = utf8Bytes id.objType ++ 58 :: id.objHash := by
  unfold toBytes
  rw [toUTF8_toList]

/-- The first separator ends the type. -/
theorem findIdx?_toBytes {id : ObjId} (hid : ':' ∉ id.objType.toList) :
    id.toBytes.findIdx? (· == 58) = some (utf8Bytes id.objType).length := by
  have hnone : (utf8Bytes id.objType).findIdx? (· == 58) = none := by
    rw [List.findIdx?_eq_none_iff]
    intro byte hbyte
    rw [beq_eq_false_iff_ne]
    rintro rfl
    exact colon_byte_not_mem hid hbyte
  rw [toBytes_eq, List.findIdx?_append, hnone, List.findIdx?_cons]
  simp

theorem take_toBytes (id : ObjId) :
    id.toBytes.take (utf8Bytes id.objType).length = utf8Bytes id.objType := by
  rw [toBytes_eq, List.take_left]

theorem drop_toBytes (id : ObjId) :
    id.toBytes.drop ((utf8Bytes id.objType).length + 1) = id.objHash := by
  rw [toBytes_eq, List.append_cons, List.drop_left' (by simp)]

theorem length_toBytes (id : ObjId) :
    id.toBytes.length = (utf8Bytes id.objType).length + id.objHash.length + 1 := by
  rw [toBytes_eq, List.length_append, List.length_cons]
  omega

/-- The identifier whose bytes are read. -/
theorem stringFromUtf8_take_toBytes (id : ObjId) :
    stringFromUtf8 (id.toBytes.take (utf8Bytes id.objType).length) = some id.objType := by
  rw [take_toBytes, stringFromUtf8_utf8Bytes]

/-- Bytes are read back if there are three of them. -/
theorem fromBytes_toBytes_iff {id : ObjId} (hid : ':' ∉ id.objType.toList) :
    fromBytes id.toBytes = .ok id ↔
      2 ≤ (utf8Bytes id.objType).length + id.objHash.length := by
  have hlength := id.length_toBytes
  unfold fromBytes
  by_cases hshort : id.toBytes.length < 3
  · rw [if_pos hshort]
    refine iff_of_false nofun (by omega)
  · rw [if_neg hshort, findIdx?_toBytes hid]
    dsimp only
    rw [stringFromUtf8_take_toBytes, drop_toBytes]
    exact iff_of_true rfl (by omega)

/-- Base 32 is read back: the parser asks for the separator only. -/
theorem new_toBase32 (base32 : web.Base32Lawful) {id : ObjId}
    (hid : ':' ∉ id.objType.toList) : new web.toCrates (id.toBase32 web) = .ok id := by
  have hwhole : (id.toBase32 web).toList.splitOn ':' = [(id.toBase32 web).toList] :=
    List.splitOn_eq_singleton (base32.colon_not_mem_base32Encode id.toBytes)
  have hdecode : web.base32Decode (id.toBase32 web) = some id.toBytes :=
    base32.base32Decode_base32Encode id.toBytes
  unfold new
  rw [hwhole]
  dsimp only
  rw [String.ofList_toList, hdecode]
  dsimp only
  rw [findIdx?_toBytes hid]
  dsimp only
  rw [stringFromUtf8_take_toBytes, drop_toBytes]

theorem toBase32_injective (base32 : web.Base32Lawful) {id id' : ObjId}
    (hid : ':' ∉ id.objType.toList) (hid' : ':' ∉ id'.objType.toList)
    (h : id.toBase32 web = id'.toBase32 web) : id = id' := by
  have hread := new_toBase32 base32 hid
  rw [h, new_toBase32 base32 hid'] at hread
  exact (Except.ok.inj hread).symm

theorem toBytes_injective {id id' : ObjId} (hid : ':' ∉ id.objType.toList)
    (hid' : ':' ∉ id'.objType.toList) (h : id.toBytes = id'.toBytes) : id = id' := by
  rw [toBytes_eq, toBytes_eq] at h
  obtain ⟨htype, hhash⟩ := append_cons_inj_of_not_mem (colon_byte_not_mem hid)
    (colon_byte_not_mem hid') h
  have htext := stringFromUtf8_utf8Bytes id.objType
  rw [htype, stringFromUtf8_utf8Bytes] at htext
  cases id
  cases id'
  dsimp only at htext hhash
  rw [hhash, Option.some.inj htext]

/-! ## All codecs -/

/-- Every written form gives the identifier back and belongs to no other one that is
accepted. -/
structure Codecs (web : WebCrates) (id : ObjId) : Prop where
  text : new web.toCrates (id.toString web.toCrates) = .ok id
  base32 : new web.toCrates (id.toBase32 web) = .ok id
  bytes : fromBytes id.toBytes = .ok id
  distinct : ∀ id' : ObjId, id'.Accepted web.toCrates → id' ≠ id →
    id'.toString web.toCrates ≠ id.toString web.toCrates ∧
      id'.toBase32 web ≠ id.toBase32 web ∧ id'.toBytes ≠ id.toBytes

/-- An accepted identifier comes back from all of its forms exactly when its type and
its hash have two bytes together. -/
theorem codecs_iff (laws : web.Lawful) (base32 : web.Base32Lawful) {id : ObjId}
    (h : id.Accepted web.toCrates) :
    id.Codecs web ↔ 2 ≤ (utf8Bytes id.objType).length + id.objHash.length := by
  have hid := h.colon_not_mem
  constructor
  · intro hcodecs
    exact (fromBytes_toBytes_iff hid).mp hcodecs.bytes
  · intro hlong
    refine ⟨new_toString laws.crates h, new_toBase32 base32 hid,
      (fromBytes_toBytes_iff hid).mpr hlong, fun id' h' hne => ⟨?_, ?_, ?_⟩⟩
    · exact fun heq => hne (toString_injective laws.crates heq)
    · exact fun heq => hne (toBase32_injective base32 h'.colon_not_mem hid heq)
    · exact fun heq => hne (toBytes_injective h'.colon_not_mem hid heq)

/-! ## Runs of the parser -/

/-- The sample crates with base 32. -/
def base32Web : WebCrates :=
  { sampleWeb with
    toCrates := { sampleWeb.toCrates with base32Decode := BitDigits.base32.decode }
    base32Encode := BitDigits.base32.encode }

theorem base32Web_lawful : base32Web.Lawful where
  crates :=
    { hexDecode_hexEncode := sampleWeb_lawful.crates.hexDecode_hexEncode
      mem_hexEncode := sampleWeb_lawful.crates.mem_hexEncode
      varintDecode_varintEncode := sampleWeb_lawful.crates.varintDecode_varintEncode }
  jsonStringArray_eq := sampleWeb_lawful.jsonStringArray_eq
  descend_of_jcs_eq := sampleWeb_lawful.descend_of_jcs_eq
  ofStrings_of_jcs_eq := sampleWeb_lawful.ofStrings_of_jcs_eq
  content_of_fileObject := sampleWeb_lawful.content_of_fileObject
  fileObject_plainFile := sampleWeb_lawful.fileObject_plainFile
  jsonParse_jcs_plainFile := sampleWeb_lawful.jsonParse_jcs_plainFile

theorem base32Web_base32Lawful : base32Web.Base32Lawful where
  base32Decode_base32Encode := BitDigits.Digits.decode_encode
  colon_not_mem_base32Encode := by
    intro bytes hcolon
    have hdigit : ':' ∈ BitDigits.base32.alphabet :=
      BitDigits.Digits.mem_alphabet_of_mem_encode hcolon
    revert hdigit
    decide

/-- The identifier that the tests of the repository write in all forms. -/
def testId : ObjId := ⟨"sha256", [2, 3, 4, 5, 6]⟩

example : testId.toBase32 base32Web = "onugcmrvgy5aeayeauda" := by decide +kernel

theorem testId_codecs : testId.Accepted base32Web.toCrates ∧ testId.Codecs base32Web := by
  have hnew : new base32Web.toCrates "onugcmrvgy5aeayeauda" = .ok testId := by
    decide
  exact ⟨⟨_, hnew⟩, (codecs_iff base32Web_lawful base32Web_base32Lawful ⟨_, hnew⟩).mpr
    (by decide)⟩

/-- `a:` is accepted, and its two bytes are refused. -/
theorem short_accepted_not_codecs :
    (⟨"a", []⟩ : ObjId).Accepted base32Web.toCrates ∧ ¬ (⟨"a", []⟩ : ObjId).Codecs base32Web := by
  refine ⟨⟨"a:", by decide⟩, fun hcodecs => ?_⟩
  have hbytes := hcodecs.bytes
  revert hbytes
  decide +kernel

end ObjId
end NdnLib
end CyfsNdn

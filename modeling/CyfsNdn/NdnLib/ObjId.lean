import Mathlib.Data.List.Basic
import Mathlib.Tactic

/-!
# Object identifiers

`ObjId` of `ndn-lib/src/object.rs`: a type name and a hash.  Its text form is
`type:hex`, and that text is what every table of the store uses as a key.

The encodings themselves come from third-party crates (`hex`, `base32`,
`unsigned_varint`, `sha2`, `serde_json`), so they are the fields of `Crates`,
and what the identifiers rely on is the separate statement `Crates.Lawful`.
The main fact is `ObjId.new_toString`: an identifier that `ObjId::new` accepts
is read back from its own text.
-/

namespace CyfsNdn
namespace NdnLib

/-- `NdnError`, each variant with its message. -/
inductive NdnError where
  | internal (msg : String)
  | invalidId (msg : String)
  | invalidLink (msg : String)
  | notFound (msg : String)
  | notReady (msg : String)
  | verifyError (msg : String)
  | ioError (msg : String)
  | dbError (msg : String)
  | inComplete (msg : String)
  | remoteError (msg : String)
  | decodeError (msg : String)
  | offsetTooLarge (msg : String)
  | invalidObjType (msg : String)
  | invalidData (msg : String)
  | invalidParam (msg : String)
  | invalidState (msg : String)
  | permissionDenied (msg : String)
  | unsupported (msg : String)
  deriving DecidableEq, Repr

/-- The `Display` form of an error. -/
def NdnError.display : NdnError → String
  | .internal msg => "internal error: " ++ msg
  | .invalidId msg => "invalid object id format: " ++ msg
  | .invalidLink msg => "invalid object link: " ++ msg
  | .notFound msg => "object not found: " ++ msg
  | .notReady msg => "object not ready: " ++ msg
  | .verifyError msg => "verify chunk error: " ++ msg
  | .ioError msg => "I/O error: " ++ msg
  | .dbError msg => "db error: " ++ msg
  | .inComplete msg => "chunk not completed: " ++ msg
  | .remoteError msg => "remote error: " ++ msg
  | .decodeError msg => "decode error: " ++ msg
  | .offsetTooLarge msg => "offset too large: " ++ msg
  | .invalidObjType msg => "invalid obj type: " ++ msg
  | .invalidData msg => "invalid data: " ++ msg
  | .invalidParam msg => "invalid param: " ++ msg
  | .invalidState msg => "invalid state: " ++ msg
  | .permissionDenied msg => "Permission denied: " ++ msg
  | .unsupported msg => "Unsupported operation: " ++ msg

/-- `NdnResult<T>`. -/
abbrev NdnResult (α : Type) := Except NdnError α

/-- `HashMethod` of `hash.rs`. -/
inductive HashMethod where
  | sha256
  | sha512
  | qcid
  | blake2s256
  | keccak256
  deriving DecidableEq, Repr

/-- `ObjId`. -/
structure ObjId where
  objType : String
  objHash : List UInt8
  deriving DecidableEq, Repr

/-- `SimpleMapItem`: an item of a directory.  An inline JSON value is kept as
its canonical text, which is all that is read of it. -/
inductive SimpleMapItem where
  | object (objType : String) (canonicalJson : String)
  | objId (id : ObjId)
  | objectJwt (objType : String) (jwt : String)
  deriving DecidableEq, Repr

/-- The functions of third-party crates that the store is built on. -/
structure Crates where
  /-- `hex::encode`. -/
  hexEncode : List UInt8 → String
  /-- `hex::decode`. -/
  hexDecode : String → Option (List UInt8)
  /-- `base32::decode` with the lower-case RFC 4648 alphabet. -/
  base32Decode : String → Option (List UInt8)
  /-- `unsigned_varint::encode::u64`. -/
  varintEncode : Nat → List UInt8
  /-- `unsigned_varint::decode::u64`: the number and the bytes after it. -/
  varintDecode : List UInt8 → Option (Nat × List UInt8)
  /-- The digest of a whole byte string under a hash method. -/
  digest : HashMethod → List UInt8 → List UInt8
  /-- `serde_json::from_str::<DirObject>`: the items of the directory, in an
  order that is the same at every load of the text. -/
  jsonDirItems : String → Option (List SimpleMapItem)
  /-- `serde_json::from_str::<FileObject>`: its `content` field. -/
  jsonFileContent : String → Option String
  /-- `serde_json::from_str::<Vec<String>>`. -/
  jsonStringArray : String → Option (List String)
  /-- `serde_json::from_str::<Value>`: the value as canonical JSON text. -/
  jsonValue : String → Option String
  /-- `decode_jwt_claim_without_verify`: the claims as canonical JSON text. -/
  jwtClaims : String → Option String

/-- The characters that `hex::encode` writes. -/
def hexDigits : List Char := "0123456789abcdef".toList

/-- What the identifiers rely on: lower-case hex is read back, and the length
in front of a mix hash is read back. -/
structure Crates.Lawful (crates : Crates) : Prop where
  hexDecode_hexEncode : ∀ bytes, crates.hexDecode (crates.hexEncode bytes) = some bytes
  mem_hexEncode : ∀ bytes, ∀ c ∈ (crates.hexEncode bytes).toList, c ∈ hexDigits
  varintDecode_varintEncode : ∀ n rest, n < 2 ^ 64 →
    crates.varintDecode (crates.varintEncode n ++ rest) = some (n, rest)

namespace ObjId

/-- `String::from_utf8`. -/
def stringFromUtf8 (bytes : List UInt8) : Option String :=
  String.fromUTF8? bytes.toByteArray

/-- `ObjId::new`: text with no colon is base32 of `type:hash`, text with one
colon is `type:hex`. -/
def new (crates : Crates) (objidStr : String) : NdnResult ObjId :=
  match objidStr.toList.splitOn ':' with
  | [whole] =>
      match crates.base32Decode (String.ofList whole) with
      | none => .error (.invalidId ("decode base32 failed:" ++ objidStr))
      | some vecResult =>
          match vecResult.findIdx? (· == 58) with
          | none => .error (.invalidId "separator ':' not found")
          | some pos =>
              match stringFromUtf8 (vecResult.take pos) with
              | none => .error (.invalidId "invalid utf8 in obj_type")
              | some objType => .ok ⟨objType, vecResult.drop (pos + 1)⟩
  | [objType, hex] =>
      match crates.hexDecode (String.ofList hex) with
      | none => .error (.invalidId ("decode hex failed:" ++ String.ofList hex))
      | some objHash => .ok ⟨String.ofList objType, objHash⟩
  | _ => .error (.invalidId objidStr)

/-- `ObjId::to_string`. -/
def toString (crates : Crates) (id : ObjId) : String :=
  id.objType ++ ":" ++ crates.hexEncode id.objHash

/-- `ObjId::to_bytes`. -/
def toBytes (id : ObjId) : List UInt8 :=
  id.objType.toUTF8.toList ++ 58 :: id.objHash

/-- `ObjId::from_bytes`: the type ends at the first colon. -/
def fromBytes (objidBytes : List UInt8) : NdnResult ObjId :=
  if objidBytes.length < 3 then .error (.invalidId "objid bytes too short")
  else
    match objidBytes.findIdx? (· == 58) with
    | none => .error (.invalidId "separator ':' not found")
    | some pos =>
        match stringFromUtf8 (objidBytes.take pos) with
        | none => .error (.invalidId "invalid utf8 in obj_type")
        | some objType => .ok ⟨objType, objidBytes.drop (pos + 1)⟩

/-- The derived `Debug` form. -/
def debug (id : ObjId) : String :=
  "ObjId \x7b obj_type: " ++ id.objType.quote ++ ", obj_hash: " ++
    ToString.toString (id.objHash.map UInt8.toNat) ++ " \x7d"

/-- `ObjId::to_filename`. -/
def toFilename (crates : Crates) (id : ObjId) : String :=
  crates.hexEncode id.objHash ++ "." ++ id.objType

/-- The identifiers that `ObjId::new` can return. -/
def Accepted (crates : Crates) (id : ObjId) : Prop :=
  ∃ text, new crates text = .ok id

theorem toList_toString (crates : Crates) (id : ObjId) :
    (id.toString crates).toList =
      id.objType.toList ++ ':' :: (crates.hexEncode id.objHash).toList := by
  simp [toString]

/-- A colon in a string is a byte 58 of its UTF-8 form. -/
theorem colon_byte_of_colon_mem {bytes : List UInt8} {s : String}
    (hs : stringFromUtf8 bytes = some s) (hcolon : ':' ∈ s.toList) :
    (58 : UInt8) ∈ bytes := by
  have hbytes : s.toByteArray = bytes.toByteArray := by
    unfold stringFromUtf8 String.fromUTF8? at hs
    split at hs
    · rw [Option.some.injEq] at hs
      rw [← hs]
      rfl
    · cases hs
  rw [← String.utf8Encode_toList, List.utf8Encode] at hbytes
  have hflat : s.toList.flatMap String.utf8EncodeChar = bytes := by
    have := congrArg (fun b : ByteArray => b.data.toList) hbytes
    simpa using this
  rw [← hflat, List.mem_flatMap]
  exact ⟨':', hcolon, by decide⟩

/-- What `split` cuts out holds no separator. -/
theorem not_mem_of_mem_splitOn {α : Type} [DecidableEq α] {a : α} {xs part : List α}
    (hpart : part ∈ xs.splitOn a) : a ∉ part := by
  induction xs generalizing part with
  | nil =>
      rw [List.splitOn_nil, List.mem_singleton] at hpart
      simp [hpart]
  | cons x xs ih =>
      rw [List.splitOn_cons_eq_if_modifyHead] at hpart
      by_cases hx : x = a
      · rw [if_pos (by simpa using hx), List.mem_cons] at hpart
        rcases hpart with rfl | hpart
        · simp
        · exact ih hpart
      · rw [if_neg (by simpa using hx)] at hpart
        cases hsplit : xs.splitOn a with
        | nil => exact absurd hsplit (List.splitOn_ne_nil a xs)
        | cons head rest =>
            rw [hsplit, List.modifyHead_cons, List.mem_cons] at hpart
            rcases hpart with rfl | hpart
            · have hhead : a ∉ head := ih (by simp [hsplit])
              simp [hhead, Ne.symm hx]
            · exact ih (by simp [hsplit, hpart])

/-- A separator in the text makes at least two parts. -/
theorem two_le_length_splitOn {α : Type} [DecidableEq α] {a : α} {xs : List α}
    (h : a ∈ xs) : 2 ≤ (xs.splitOn a).length := by
  obtain ⟨before, after, rfl⟩ := List.append_of_mem h
  rw [List.splitOn_append_cons_self, List.length_append]
  have hbefore := List.length_pos_iff.mpr (List.splitOn_ne_nil a before)
  have hafter := List.length_pos_iff.mpr (List.splitOn_ne_nil a after)
  omega

/-- The type name of an accepted identifier holds no colon. -/
theorem Accepted.colon_not_mem {crates : Crates} {id : ObjId}
    (h : id.Accepted crates) : ':' ∉ id.objType.toList := by
  obtain ⟨text, htext⟩ := h
  unfold new at htext
  split at htext
  · next whole hsplit =>
    split at htext
    · cases htext
    · next vecResult hdecode =>
      split at htext
      · cases htext
      · next pos hpos =>
        split at htext
        · cases htext
        · next objType hutf8 =>
          cases htext
          intro hcolon
          -- The byte would lie before the first separator.
          obtain ⟨i, hi, hbyte⟩ := List.getElem_of_mem (colon_byte_of_colon_mem hutf8 hcolon)
          obtain ⟨hlt, -, hfirst⟩ := List.findIdx?_eq_some_iff_getElem.mp hpos
          rw [List.length_take] at hi
          rw [List.getElem_take] at hbyte
          have hne := hfirst i (by omega)
          simp [hbyte] at hne
  · next objType hex hsplit =>
    split at htext
    · cases htext
    · next objHash hdecode =>
      cases htext
      have hpart : ':' ∉ objType := not_mem_of_mem_splitOn (by rw [hsplit]; simp)
      simpa using hpart
  · cases htext

/-- The part before the first separator is determined. -/
theorem append_cons_inj_of_not_mem {α : Type} {a : α} {xs ys us vs : List α}
    (hxs : a ∉ xs) (hys : a ∉ ys) (h : xs ++ a :: us = ys ++ a :: vs) :
    xs = ys ∧ us = vs := by
  induction xs generalizing ys with
  | nil =>
      cases ys with
      | nil => simpa using h
      | cons y ys =>
          simp only [List.nil_append, List.cons_append, List.cons.injEq] at h
          exact absurd (by simp [h.1]) hys
  | cons x xs ih =>
      cases ys with
      | nil =>
          simp only [List.nil_append, List.cons_append, List.cons.injEq] at h
          exact absurd (by simp [h.1]) hxs
      | cons y ys =>
          simp only [List.cons_append, List.cons.injEq] at h
          obtain ⟨hhead, htail⟩ := h
          obtain ⟨hlist, hrest⟩ := ih (by simp_all) (by simp_all) htail
          exact ⟨by rw [hhead, hlist], hrest⟩

section Lawful

variable {crates : Crates} (laws : crates.Lawful)

include laws

theorem colon_not_mem_hexEncode (bytes : List UInt8) :
    ':' ∉ (crates.hexEncode bytes).toList := by
  intro hcolon
  have hdigit := laws.mem_hexEncode bytes ':' hcolon
  revert hdigit
  decide

/-- Text that has the form `type:hex` is split where it was joined. -/
theorem splitOn_toString {id : ObjId} (hid : ':' ∉ id.objType.toList) :
    (id.toString crates).toList.splitOn ':' =
      [id.objType.toList, (crates.hexEncode id.objHash).toList] := by
  rw [toList_toString]
  have hparts : ∀ part ∈ [id.objType.toList, (crates.hexEncode id.objHash).toList],
      ':' ∉ part := by
    intro part hpart
    simp only [List.mem_cons, List.not_mem_nil, or_false] at hpart
    rcases hpart with rfl | rfl
    · exact hid
    · exact colon_not_mem_hexEncode laws _
  have h := List.splitOn_intercalate ':' hparts (by simp)
  simpa [List.intercalate] using h

/-- An identifier without a colon in its type is read back from its text. -/
theorem new_toString_of_colon_not_mem {id : ObjId} (hid : ':' ∉ id.objType.toList) :
    new crates (id.toString crates) = .ok id := by
  unfold new
  rw [splitOn_toString laws hid]
  simp [laws.hexDecode_hexEncode]

/-- An identifier that `ObjId::new` accepts is read back from its own text. -/
theorem new_toString {id : ObjId} (hid : id.Accepted crates) :
    new crates (id.toString crates) = .ok id :=
  new_toString_of_colon_not_mem laws hid.colon_not_mem

/-- Text written by `to_string` is read back as the identifier that was
written, or not at all: a colon in the type makes a third part. -/
theorem eq_of_new_toString {id id' : ObjId}
    (h : new crates (id.toString crates) = .ok id') : id' = id := by
  by_cases hid : ':' ∈ id.objType.toList
  · exfalso
    have hlen : 3 ≤ ((id.toString crates).toList.splitOn ':').length := by
      rw [toList_toString, List.splitOn_append_cons_self, List.length_append]
      have htype := two_le_length_splitOn hid
      have hhex := List.length_pos_iff.mpr
        (List.splitOn_ne_nil ':' (crates.hexEncode id.objHash).toList)
      omega
    unfold new at h
    split at h
    · next whole hsplit => simp [hsplit] at hlen
    · next objType hex hsplit => simp [hsplit] at hlen
    · cases h
  · rw [new_toString_of_colon_not_mem laws hid] at h
    cases h
    rfl

/-- Hex text holds no colon, so the last colon of a text form is the one that
`to_string` wrote, and the identifier can be recovered. -/
theorem toString_injective {id id' : ObjId}
    (h : id.toString crates = id'.toString crates) : id = id' := by
  have hlist := congrArg String.toList h
  rw [toList_toString, toList_toString] at hlist
  have hrev := congrArg List.reverse hlist
  simp only [List.reverse_append, List.reverse_cons, List.append_assoc,
    List.singleton_append] at hrev
  have hhex : ':' ∉ (crates.hexEncode id.objHash).toList.reverse := by
    simpa using colon_not_mem_hexEncode laws id.objHash
  have hhex' : ':' ∉ (crates.hexEncode id'.objHash).toList.reverse := by
    simpa using colon_not_mem_hexEncode laws id'.objHash
  obtain ⟨hhash, htype⟩ := append_cons_inj_of_not_mem hhex hhex' hrev
  have hbytes : id.objHash = id'.objHash := by
    have htext := String.toList_injective (List.reverse_injective hhash)
    have hdecode := laws.hexDecode_hexEncode id.objHash
    rw [htext, laws.hexDecode_hexEncode] at hdecode
    exact (Option.some.inj hdecode).symm
  have htypes : id.objType = id'.objType :=
    String.toList_injective (List.reverse_injective htype)
  cases id
  cases id'
  simp only at hbytes htypes
  rw [hbytes, htypes]

/-- Hex text holds no dot either, so a file name names one identifier. -/
theorem toFilename_injective {id id' : ObjId}
    (h : id.toFilename crates = id'.toFilename crates) : id = id' := by
  have hdot : ∀ bytes : List UInt8, '.' ∉ (crates.hexEncode bytes).toList := by
    intro bytes hmem
    have hdigit := laws.mem_hexEncode bytes '.' hmem
    revert hdigit
    decide
  have hlist := congrArg String.toList h
  simp only [toFilename, String.toList_append] at hlist
  have hsplit : ∀ bytes : List UInt8, ∀ objType : String,
      (crates.hexEncode bytes).toList ++ ".".toList ++ objType.toList =
        (crates.hexEncode bytes).toList ++ '.' :: objType.toList := by
    intro bytes objType
    simp
  rw [hsplit, hsplit] at hlist
  obtain ⟨hhex, htype⟩ := append_cons_inj_of_not_mem (hdot id.objHash) (hdot id'.objHash) hlist
  have hbytes : id.objHash = id'.objHash := by
    have hdecode := laws.hexDecode_hexEncode id.objHash
    rw [String.toList_injective hhex, laws.hexDecode_hexEncode] at hdecode
    exact (Option.some.inj hdecode).symm
  have htypes : id.objType = id'.objType := String.toList_injective htype
  cases id
  cases id'
  simp only at hbytes htypes
  rw [hbytes, htypes]

end Lawful

end ObjId

end NdnLib
end CyfsNdn

import CyfsNdn.Collections.Tally
import CyfsNdn.Collections.Traverse
import CyfsNdn.NdnLib.CyfsHttp
import CyfsNdn.NdnLib.ObjIdCodecs

/-!
# The codec of the CYFS headers

`apply_cyfs_resp_headers`, `apply_cyfs_req_headers` and the functions that read the
headers back, of `cyfs_http.rs`.  A header value may hold any byte from 32 on, and only
visible ASCII is read, so what is applied is not always read.

The names of the headers are valid, so `HeaderName::from_str` is left out.  In error texts
the part that a crate puts at the end is left out.
-/

namespace CyfsNdn
namespace NdnLib

open Collections

/-- `HeaderValue`. -/
abbrev HeaderValue := List UInt8

/-- `HeaderMap`, with one value for each name. -/
abbrev HeaderMap := List (String × HeaderValue)

/-- `base64` with the alphabet for URLs and without padding. -/
structure Base64Crate where
  encode : List UInt8 → String
  decode : String → Option (List UInt8)

/-- The bytes that `HeaderValue::from_str` accepts. -/
def sendableByte (byte : UInt8) : Bool := (32 ≤ byte && byte ≠ 127) || byte = 9

/-- The bytes that `HeaderValue::to_str` accepts. -/
def visibleByte (byte : UInt8) : Bool := (32 ≤ byte && byte < 127) || byte = 9

/-- The text is visible ASCII, spaces and tabs. -/
def Visible (text : String) : Prop := (utf8Bytes text).all visibleByte = true

instance (text : String) : Decidable (Visible text) :=
  inferInstanceAs (Decidable ((utf8Bytes text).all visibleByte = true))

/-- What the codec relies on of `serde_json`: the text of an array is read as an array, and
the one of a list of strings as this list. -/
structure WebCrates.ReadsArrays (web : WebCrates) : Prop where
  isArray : ∀ items v, web.jsonParse (web.jsonText (.array items)) = some v → v.isArray = true
  ofStrings : ∀ texts, web.jsonParse (web.jsonText (.ofStrings texts)) = some (.ofStrings texts)

/-- What the codec relies on of `base64`. -/
structure Base64Crate.Lawful (base64 : Base64Crate) : Prop where
  decode_encode : ∀ bytes, base64.decode (base64.encode bytes) = some bytes
  visible_encode : ∀ bytes, Visible (base64.encode bytes)

/-- `HeaderValue::from_str`. -/
def headerValueFromStr (value : String) : Option HeaderValue :=
  if (utf8Bytes value).all sendableByte then some (utf8Bytes value) else none

/-- `HeaderValue::to_str`. -/
def headerValueToStr (value : HeaderValue) : Option String :=
  if value.all visibleByte then ObjId.stringFromUtf8 value else none

/-- `insert_header`. -/
def insertHeader (headers : HeaderMap) (name value : String) : NdnResult HeaderMap :=
  match headerValueFromStr value with
  | none => .error (.internal ("invalid header value for " ++ name ++ ": "))
  | some bytes => .ok (putKey name bytes headers)

/-- `insert_header` for a value that is there. -/
def insertSome (headers : HeaderMap) (name : String) : Option String → NdnResult HeaderMap
  | none => .ok headers
  | some value => insertHeader headers name value

/-- `header_get_str`. -/
def headerGetStr (headers : HeaderMap) (name : String) : NdnResult (Option String) :=
  match headers.lookup name with
  | none => .ok none
  | some value =>
      match headerValueToStr value with
      | none => .error (.decodeError ("decode header " ++ name ++ " failed: "))
      | some text => .ok (some text)

/-- A header that is read from its text, if it is there. -/
def headerGet {α : Type} (headers : HeaderMap) (name : String) (read : String → NdnResult α) :
    NdnResult (Option α) :=
  match headerGetStr headers name with
  | .error e => .error e
  | .ok none => .ok none
  | .ok (some text) => (read text).map some

/-! ## Parents -/

/-- `str::strip_prefix`. -/
def stripPrefix (start text : String) : Option String :=
  if start.toList.isPrefixOf text.toList then
    some (String.ofList (text.toList.drop start.toList.length))
  else none

namespace CyfsParent

/-- `encode_header_value`. -/
def encodeHeaderValue (web : WebCrates) (base64 : Base64Crate) : CyfsParent → String
  | .objId id => "oid:" ++ id.toString web.toCrates
  | .json objStr => "json:" ++ base64.encode (utf8Bytes objStr)

/-- `decode_header_value`. -/
def decodeHeaderValue (web : WebCrates) (base64 : Base64Crate) (raw : String) :
    NdnResult CyfsParent :=
  match stripPrefix "oid:" raw with
  | some rest => (ObjId.new web.toCrates rest).map .objId
  | none =>
      match stripPrefix "json:" raw with
      | some rest =>
          match base64.decode rest with
          | none => .error (.decodeError "decode cyfs-parents base64url failed: ")
          | some bytes =>
              match ObjId.stringFromUtf8 bytes with
              | none => .error (.decodeError "decode cyfs-parents utf8 failed: ")
              | some objStr => .ok (.json objStr)
      | none => .error (.decodeError ("unsupported cyfs-parents-N value: " ++ raw))

end CyfsParent

/-- The name of the header of a parent. -/
def parentHeader (idx : Nat) : String := "cyfs-parents-" ++ toString idx

/-- The loop of `apply_cyfs_resp_headers` over the parents. -/
def insertParents (web : WebCrates) (base64 : Base64Crate) :
    Nat → HeaderMap → List CyfsParent → NdnResult HeaderMap
  | _, headers, [] => .ok headers
  | idx, headers, parent :: rest =>
      match insertHeader headers (parentHeader idx) (parent.encodeHeaderValue web base64) with
      | .error e => .error e
      | .ok headers => insertParents web base64 (idx + 1) headers rest

/-- The loop of `get_cyfs_resp_headers` over the parents.  It ends at the first name that
is not there, after so many names at most as there are headers. -/
def parentsFrom (web : WebCrates) (base64 : Base64Crate) (headers : HeaderMap) :
    Nat → Nat → NdnResult (List CyfsParent)
  | 0, _ => .ok []
  | fuel + 1, idx =>
      match headerGetStr headers (parentHeader idx) with
      | .error e => .error e
      | .ok none => .ok []
      | .ok (some raw) =>
          match CyfsParent.decodeHeaderValue web base64 raw with
          | .error e => .error e
          | .ok parent => (parentsFrom web base64 headers fuel (idx + 1)).map (parent :: ·)

/-! ## Responses -/

/-- `parse::<u64>` of the chunk size. -/
def readChunkSize (text : String) : NdnResult UInt64 :=
  match parseUsize text with
  | none => .error (.decodeError "parse cyfs-chunk-size failed: ")
  | some n => .ok (UInt64.ofNat n)

/-- The inner proofs: an array, or one value alone. -/
def readInnerProofs (web : WebCrates) (raw : String) : NdnResult (List Json) :=
  match web.jsonParse raw with
  | none => .error (.decodeError "parse cyfs-inner-proof json failed: ")
  | some (.array items) => .ok items
  | some other => .ok [other]

/-- `apply_cyfs_resp_headers`. -/
def applyCyfsRespHeaders (web : WebCrates) (base64 : Base64Crate) (resp : CyfsHttpRespHeaders)
    (headers : HeaderMap) : NdnResult HeaderMap := do
  let headers ← insertSome headers "cyfs-obj-id" (resp.objId.map (ObjId.toString web.toCrates))
  let headers ← insertSome headers "cyfs-chunk-size"
    (resp.chunkSize.map fun size => toString size.toNat)
  let headers ← insertSome headers "cyfs-path-obj" resp.pathObj
  let headers ← insertParents web base64 0 headers resp.parents
  insertSome headers "cyfs-inner-proof"
    (if resp.innerProofs.isEmpty then none else some (web.jsonText (.array resp.innerProofs)))

/-- `get_cyfs_resp_headers`. -/
def getCyfsRespHeaders (web : WebCrates) (base64 : Base64Crate) (headers : HeaderMap) :
    NdnResult CyfsHttpRespHeaders := do
  let objId ← headerGet headers "cyfs-obj-id" (ObjId.new web.toCrates)
  let chunkSize ← headerGet headers "cyfs-chunk-size" readChunkSize
  let pathObj ← headerGetStr headers "cyfs-path-obj"
  let parents ← parentsFrom web base64 headers (headers.length + 1) 0
  let innerProofs ← headerGet headers "cyfs-inner-proof" (readInnerProofs web)
  return ⟨objId, chunkSize, pathObj, parents, innerProofs.getD []⟩

/-! ## Requests -/

/-- `CYFSHttpReqHeaders`. -/
structure CyfsHttpReqHeaders where
  originalUser : Option String
  cascades : Option (List Json)
  proofs : Option (List String)
  accessCode : Option String

/-- The error for too many cascades. -/
def cascadesTooLong (length : Nat) : NdnError :=
  .invalidData ("cyfs-cascades length " ++ toString length ++ " exceeds max " ++
    toString cyfsCascadesMaxLen)

/-- The cascades. -/
def readCascades (web : WebCrates) (raw : String) : NdnResult (List Json) :=
  match web.jsonParse raw with
  | none => .error (.decodeError "parse cyfs-cascades json failed: ")
  | some (.array items) =>
      if cyfsCascadesMaxLen < items.length then .error (cascadesTooLong items.length)
      else .ok items
  | some _ => .error (.invalidData "cyfs-cascades must be a JSON array")

/-- The proofs. -/
def readProofs (web : WebCrates) (raw : String) : NdnResult (List String) :=
  match web.jsonParse raw with
  | none => .error (.decodeError "parse cyfs-proofs json failed: ")
  | some (.array items) =>
      match items.mapM Json.asStr with
      | none => .error (.invalidData "cyfs-proofs array items must be JWT strings")
      | some texts => .ok texts
  | some _ => .error (.invalidData "cyfs-proofs must be a JSON array")

/-- The check of the number of cascades. -/
def checkCascades : Option (List Json) → NdnResult Unit
  | none => .ok ()
  | some cascades =>
      if cyfsCascadesMaxLen < cascades.length then .error (cascadesTooLong cascades.length)
      else .ok ()

/-- `apply_cyfs_req_headers`. -/
def applyCyfsReqHeaders (web : WebCrates) (req : CyfsHttpReqHeaders) (headers : HeaderMap) :
    NdnResult HeaderMap := do
  let headers ← insertSome headers "cyfs-original-user" req.originalUser
  checkCascades req.cascades
  let headers ← insertSome headers "cyfs-cascades"
    (req.cascades.map fun cascades => web.jsonText (.array cascades))
  let headers ← insertSome headers "cyfs-proofs"
    (req.proofs.map fun proofs => web.jsonText (.ofStrings proofs))
  insertSome headers "cyfs-access-code" req.accessCode

/-- `get_cyfs_req_headers`. -/
def getCyfsReqHeaders (web : WebCrates) (headers : HeaderMap) : NdnResult CyfsHttpReqHeaders := do
  let originalUser ← headerGetStr headers "cyfs-original-user"
  let cascades ← headerGet headers "cyfs-cascades" (readCascades web)
  let proofs ← headerGet headers "cyfs-proofs" (readProofs web)
  let accessCode ← headerGetStr headers "cyfs-access-code"
  return ⟨originalUser, cascades, proofs, accessCode⟩

/-! ## One header -/

section OneHeader

variable {headers headers' : HeaderMap} {name text : String}

/-- A text that was sent is read if it is visible. -/
theorem headerValueToStr_utf8Bytes (text : String) :
    headerValueToStr (utf8Bytes text) = if Visible text then some text else none := by
  unfold headerValueToStr
  rw [stringFromUtf8_utf8Bytes]
  rfl

theorem insertHeader_eq_ok (h : insertHeader headers name text = .ok headers') :
    headers' = putKey name (utf8Bytes text) headers := by
  unfold insertHeader headerValueFromStr at h
  split at h
  · cases h
  next bytes hbytes =>
  split_ifs at hbytes
  obtain rfl := Option.some.inj hbytes
  exact (Except.ok.inj h).symm

/-- After an insertion the name has its text, if there is one, and the others have what
they had. -/
theorem lookup_insertSome {value : Option String}
    (h : insertSome headers name value = .ok headers') (name' : String) :
    headers'.lookup name' =
      if name' = name then (value.map utf8Bytes).or (headers.lookup name')
      else headers.lookup name' := by
  cases value with
  | none =>
      obtain rfl := Except.ok.inj h
      split_ifs <;> rfl
  | some text =>
      rw [insertHeader_eq_ok h, lookup_putKey]
      rfl

/-- A header that is read back gives its text. -/
theorem headerGetStr_eq_ok_iff {value : Option String}
    (h : headers.lookup name = value.map utf8Bytes) :
    headerGetStr headers name = .ok value ↔ ∀ text ∈ value, Visible text := by
  unfold headerGetStr
  rw [h]
  cases value with
  | none => simp
  | some text =>
      rw [Option.map_some]
      dsimp only
      rw [headerValueToStr_utf8Bytes]
      by_cases hvisible : Visible text
      · rw [if_pos hvisible]
        simpa using hvisible
      · rw [if_neg hvisible]
        simpa using hvisible

/-- A header that is read from its text is there with a visible text that reads so. -/
theorem headerGet_eq_ok_iff {α : Type} (read : String → NdnResult α) {write : α → String}
    {value : Option α} (h : headers.lookup name = value.map fun a => utf8Bytes (write a)) :
    headerGet headers name read = .ok value ↔
      ∀ a ∈ value, Visible (write a) ∧ read (write a) = .ok a := by
  unfold headerGet headerGetStr
  rw [h]
  cases value with
  | none => simp
  | some a =>
      rw [Option.map_some]
      dsimp only
      rw [headerValueToStr_utf8Bytes]
      by_cases hvisible : Visible (write a)
      · rw [if_pos hvisible]
        dsimp only
        cases hread : read (write a) with
        | error e => simp [Except.map, hvisible, hread]
        | ok b => simp [Except.map, hvisible, hread]
      · rw [if_neg hvisible]
        simp [hvisible]

end OneHeader

/-! ## Visible texts -/

/-- What is visible is accepted. -/
theorem headerValueFromStr_of_visible {text : String} (h : Visible text) :
    headerValueFromStr text = some (utf8Bytes text) := by
  have hsendable : (utf8Bytes text).all sendableByte = true := by
    rw [List.all_eq_true]
    intro byte hbyte
    have hvisible := List.all_eq_true.mp h byte hbyte
    unfold visibleByte at hvisible
    unfold sendableByte
    rcases Bool.or_eq_true_iff.mp hvisible with hprintable | htab
    · obtain ⟨hlow, hhigh⟩ := Bool.and_eq_true_iff.mp hprintable
      have hne : byte ≠ 127 := UInt8.ne_of_lt (of_decide_eq_true hhigh)
      simp [hlow, hne]
    · simp [htab]
  unfold headerValueFromStr
  rw [if_pos hsendable]

theorem visible_append (a b : String) : Visible (a ++ b) ↔ Visible a ∧ Visible b := by
  unfold Visible
  rw [utf8Bytes_eq_flatMap, String.toList_append, List.flatMap_append,
    ← utf8Bytes_eq_flatMap, ← utf8Bytes_eq_flatMap, List.all_append, Bool.and_eq_true]

/-- A text of visible ASCII characters is visible. -/
theorem visible_of_ascii {text : String} (h : ∀ c ∈ text.toList, ' ' ≤ c ∧ c ≤ '~') :
    Visible text := by
  unfold Visible
  rw [utf8Bytes_eq_flatMap, List.all_eq_true]
  intro byte hbyte
  obtain ⟨c, hc, hmem⟩ := List.mem_flatMap.mp hbyte
  obtain ⟨hlow, hhigh⟩ := h c hc
  have hlow' : 32 ≤ c.val.toNat := hlow
  have hhigh' : c.val.toNat ≤ 126 := hhigh
  unfold String.utf8EncodeChar at hmem
  dsimp only at hmem
  rw [if_pos (by omega), List.mem_singleton] at hmem
  have hnat : byte.toNat = c.val.toNat := by
    rw [hmem, UInt8.toNat_ofNat']
    omega
  have h32 : (32 : UInt8) ≤ byte := UInt8.le_iff_toNat_le.mpr (by rw [hnat]; exact hlow')
  have h127 : byte < 127 := UInt8.lt_iff_toNat_lt.mpr (by
    rw [hnat]
    exact Nat.lt_succ_of_le hhigh')
  simp [visibleByte, h32, h127]

theorem visible_hexEncode {crates : Crates} (laws : crates.Lawful) (bytes : List UInt8) :
    Visible (crates.hexEncode bytes) := by
  have hascii : hexDigits.all (fun c => decide (' ' ≤ c ∧ c ≤ '~')) = true := by decide
  exact visible_of_ascii fun c hc =>
    of_decide_eq_true (List.all_eq_true.mp hascii c (laws.mem_hexEncode bytes c hc))

theorem toList_toString_nat (n : Nat) : (toString n).toList = Nat.toDigits 10 n := by
  change (Nat.repr n).toList = _
  unfold Nat.repr
  rw [String.toList_ofList]

theorem visible_toString (n : Nat) : Visible (toString n) := by
  refine visible_of_ascii fun c hc => ?_
  rw [toList_toString_nat] at hc
  obtain ⟨hlow, hhigh⟩ := digit_of_mem_toDigits hc
  exact ⟨Char.le_trans (show ' ' ≤ '0' by decide) hlow,
    Char.le_trans hhigh (show '9' ≤ '~' by decide)⟩

/-- A number is read back from its digits. -/
theorem parseUsize_toString {n : Nat} (h : n < 2 ^ 64) : parseUsize (toString n) = some n := by
  have hdigits : ∀ c ∈ Nat.toDigits 10 n, '0' ≤ c ∧ c ≤ '9' := fun c => digit_of_mem_toDigits
  unfold parseUsize
  rw [toList_toString_nat]
  dsimp only
  split
  · next rest heq =>
      have hplus : '0' ≤ '+' ∧ '+' ≤ '9' := hdigits '+' (heq ▸ List.mem_cons_self)
      exact absurd hplus (by decide)
  · rw [if_neg (by simp [Nat.toDigits_ne_nil]), decimalValue_eq_ofDigitChars hdigits,
      Nat.ofDigitChars_ten_toDigits, Option.filter_some, if_pos (decide_eq_true h)]

theorem readChunkSize_toString (size : UInt64) :
    readChunkSize (toString size.toNat) = .ok size := by
  unfold readChunkSize
  rw [parseUsize_toString size.toNat_lt]
  exact congrArg Except.ok (UInt64.ofNat_toNat)

/-- The header that holds an identifier is read back if the type is visible and has no
colon. -/
theorem readable_objId_iff {crates : Crates} (laws : crates.Lawful) (id : ObjId) :
    (Visible (id.toString crates) ∧ ObjId.new crates (id.toString crates) = .ok id) ↔
      Visible id.objType ∧ ':' ∉ id.objType.toList := by
  have hvisible : Visible (id.toString crates) ↔ Visible id.objType := by
    unfold ObjId.toString
    rw [visible_append, visible_append]
    have hcolon : Visible ":" := by decide
    simp [hcolon, visible_hexEncode laws]
  rw [hvisible]
  refine and_congr_right fun _ => ⟨fun hnew => ?_, ObjId.new_toString_of_colon_not_mem laws⟩
  exact ObjId.Accepted.colon_not_mem ⟨_, hnew⟩

/-! ## Parents -/

section Parents

variable {web : WebCrates} {base64 : Base64Crate}

/-- The parent comes back from its header: it is a JSON text, or its identifier comes
back. -/
def CyfsParent.Readable : CyfsParent → Prop
  | .objId id => Visible id.objType ∧ ':' ∉ id.objType.toList
  | .json _ => True

theorem stripPrefix_append (start rest : String) : stripPrefix start (start ++ rest) = some rest := by
  unfold stripPrefix
  rw [String.toList_append, if_pos (by simp), List.drop_left, String.ofList_toList]

theorem CyfsParent.readable_iff (laws : web.toCrates.Lawful) (lawful : base64.Lawful)
    (parent : CyfsParent) :
    (Visible (parent.encodeHeaderValue web base64) ∧
      CyfsParent.decodeHeaderValue web base64 (parent.encodeHeaderValue web base64) = .ok parent) ↔
      parent.Readable := by
  cases parent with
  | objId id =>
      have hoid : Visible "oid:" := by decide
      have hdecode : CyfsParent.decodeHeaderValue web base64
          ("oid:" ++ id.toString web.toCrates) = .ok (.objId id) ↔
          ObjId.new web.toCrates (id.toString web.toCrates) = .ok id := by
        unfold decodeHeaderValue
        rw [stripPrefix_append]
        dsimp only
        cases ObjId.new web.toCrates (id.toString web.toCrates) with
        | error e => simp [Except.map]
        | ok id' => simp [Except.map]
      change _ ↔ Visible id.objType ∧ ':' ∉ id.objType.toList
      rw [← readable_objId_iff laws id, encodeHeaderValue, visible_append, hdecode]
      simp [hoid]
  | json objStr =>
      have hjson : Visible "json:" := by decide
      have hoid : ∀ text, stripPrefix "oid:" ("json:" ++ text) = none := by
        intro text
        unfold stripPrefix
        rw [String.toList_append]
        exact if_neg (by simp)
      unfold encodeHeaderValue Readable decodeHeaderValue
      rw [visible_append, hoid, stripPrefix_append]
      dsimp only
      rw [lawful.decode_encode]
      dsimp only
      rw [stringFromUtf8_utf8Bytes]
      simp [hjson, lawful.visible_encode]

theorem parentHeader_injective : Function.Injective parentHeader := by
  intro i j h
  have hlist := congrArg String.toList h
  unfold parentHeader at hlist
  rw [String.toList_append, String.toList_append] at hlist
  have hdigits := List.append_cancel_left hlist
  rw [toList_toString_nat, toList_toString_nat] at hdigits
  have hvalue := congrArg (fun digits => Nat.ofDigitChars 10 digits 0) hdigits
  simpa only [Nat.ofDigitChars_ten_toDigits] using hvalue

/-- A name that does not start like the one of a parent is none. -/
theorem ne_parentHeader {name : String} (h : stripPrefix "cyfs-parents-" name = none) (idx : Nat) :
    name ≠ parentHeader idx := by
  rintro rfl
  unfold parentHeader at h
  rw [stripPrefix_append] at h
  cases h

/-- After the loop the names from the first index on have the parents. -/
theorem lookup_insertParents {parents : List CyfsParent} {idx : Nat}
    {headers headers' : HeaderMap}
    (h : insertParents web base64 idx headers parents = .ok headers') :
    (∀ name, (∀ i, i < parents.length → name ≠ parentHeader (idx + i)) →
      headers'.lookup name = headers.lookup name) ∧
    ∀ i parent, parents[i]? = some parent →
      headers'.lookup (parentHeader (idx + i)) =
        some (utf8Bytes (parent.encodeHeaderValue web base64)) := by
  induction parents generalizing idx headers with
  | nil =>
      obtain rfl := Except.ok.inj h
      exact ⟨fun _ _ => rfl, by simp⟩
  | cons parent rest ih =>
      unfold insertParents at h
      split at h
      · cases h
      next headers₁ hinsert =>
      obtain ⟨hother, hrest⟩ := ih h
      have hput : headers₁ = _ := insertHeader_eq_ok hinsert
      constructor
      · intro name hname
        rw [hother name fun i hi => ?_, hput, lookup_putKey,
          if_neg (show name ≠ parentHeader idx from hname 0 (by simp))]
        have hne := hname (i + 1) (by simpa using hi)
        rwa [show idx + 1 + i = idx + (i + 1) by omega]
      · intro i parent' hi
        cases i with
        | zero =>
            obtain rfl := Option.some.inj hi
            rw [hother _ fun j _ heq => by
              have hindex := parentHeader_injective heq
              omega, hput, Nat.add_zero, lookup_putKey, if_pos rfl]
        | succ i =>
            rw [show idx + (i + 1) = idx + 1 + i by omega]
            exact hrest i parent' hi

/-- The loop that reads the parents gives those that were written exactly when each of
them is readable. -/
theorem parentsFrom_eq_ok_iff (laws : web.toCrates.Lawful) (lawful : base64.Lawful)
    {parents : List CyfsParent} {headers : HeaderMap} (idx : Nat) {fuel : Nat}
    (hlookup : ∀ i, headers.lookup (parentHeader (idx + i)) =
      parents[i]?.map fun parent => utf8Bytes (parent.encodeHeaderValue web base64))
    (hfuel : parents.length < fuel) :
    parentsFrom web base64 headers fuel idx = .ok parents ↔
      ∀ parent ∈ parents, parent.Readable := by
  induction parents generalizing idx fuel with
  | nil =>
      obtain ⟨fuel, rfl⟩ : ∃ n, fuel = n + 1 := ⟨fuel - 1, by simp at hfuel; omega⟩
      have hend := hlookup 0
      rw [Nat.add_zero] at hend
      unfold parentsFrom headerGetStr
      rw [hend]
      simp
  | cons parent rest ih =>
      obtain ⟨fuel, rfl⟩ : ∃ n, fuel = n + 1 := ⟨fuel - 1, by omega⟩
      have hfirst := hlookup 0
      have hnext := @ih (idx + 1) fuel
        (fun i => by
          rw [show idx + 1 + i = idx + (i + 1) by omega, hlookup (i + 1)]
          rfl)
        (by simp at hfuel; omega)
      rw [Nat.add_zero] at hfirst
      unfold parentsFrom headerGetStr
      rw [hfirst]
      simp only [List.getElem?_cons_zero, Option.map_some, headerValueToStr_utf8Bytes]
      rw [List.forall_mem_cons, ← hnext, ← parent.readable_iff laws lawful]
      by_cases hvisible : Visible (parent.encodeHeaderValue web base64)
      · rw [if_pos hvisible]
        dsimp only
        cases hread : CyfsParent.decodeHeaderValue web base64
          (parent.encodeHeaderValue web base64) with
        | error e => simp
        | ok parent' =>
            cases parentsFrom web base64 headers fuel (idx + 1) with
            | error e => simp [Except.map]
            | ok rest' => simp [Except.map, hvisible]
      · rw [if_neg hvisible]
        simp [hvisible]

/-- There are as many headers as parents at least. -/
theorem length_le_of_lookup {parents : List CyfsParent} {headers : HeaderMap}
    (h : ∀ i parent, parents[i]? = some parent →
      headers.lookup (parentHeader i) =
        some (utf8Bytes (parent.encodeHeaderValue web base64))) :
    parents.length ≤ headers.length := by
  have hnames : (List.range parents.length).map parentHeader ⊆ headers.map Prod.fst := by
    intro name hname
    obtain ⟨i, hi, rfl⟩ := List.mem_map.mp hname
    have hvalue := h i _ (List.getElem?_eq_getElem (List.mem_range.mp hi))
    obtain ⟨before, after, rfl, -⟩ := List.lookup_eq_some_iff.mp hvalue
    simp
  have hnodup : ((List.range parents.length).map parentHeader).Nodup :=
    List.nodup_range.map parentHeader_injective
  simpa using (hnodup.subperm hnames).length_le

end Parents

/-! ## All headers -/

section AllHeaders

variable {web : WebCrates} {base64 : Base64Crate}

/-- The values of the response come back: the texts are visible, the types of the
identifiers have no colon and the inner proofs are what their JSON text says. -/
structure CyfsHttpRespHeaders.Readable (web : WebCrates) (resp : CyfsHttpRespHeaders) : Prop where
  objId : ∀ id ∈ resp.objId, Visible id.objType ∧ ':' ∉ id.objType.toList
  pathObj : ∀ text ∈ resp.pathObj, Visible text
  parents : ∀ parent ∈ resp.parents, parent.Readable
  innerProofs : resp.innerProofs ≠ [] → Visible (web.jsonText (.array resp.innerProofs)) ∧
    web.jsonParse (web.jsonText (.array resp.innerProofs)) = some (.array resp.innerProofs)

/-- The values of the request come back: the texts are visible, and the arrays are what
their JSON text says. -/
structure CyfsHttpReqHeaders.Readable (web : WebCrates) (req : CyfsHttpReqHeaders) : Prop where
  originalUser : ∀ text ∈ req.originalUser, Visible text
  cascades : ∀ cascades ∈ req.cascades, Visible (web.jsonText (.array cascades)) ∧
    web.jsonParse (web.jsonText (.array cascades)) = some (.array cascades)
  proofs : ∀ proofs ∈ req.proofs, Visible (web.jsonText (.ofStrings proofs))
  accessCode : ∀ text ∈ req.accessCode, Visible text

/-- The headers of a response. -/
structure RespLookups (web : WebCrates) (base64 : Base64Crate) (resp : CyfsHttpRespHeaders)
    (headers : HeaderMap) : Prop where
  objId : headers.lookup "cyfs-obj-id" =
    resp.objId.map fun id => utf8Bytes (id.toString web.toCrates)
  chunkSize : headers.lookup "cyfs-chunk-size" =
    resp.chunkSize.map fun size => utf8Bytes (toString size.toNat)
  pathObj : headers.lookup "cyfs-path-obj" = resp.pathObj.map utf8Bytes
  parents : ∀ idx, headers.lookup (parentHeader idx) =
    resp.parents[idx]?.map fun parent => utf8Bytes (parent.encodeHeaderValue web base64)
  innerProofs : headers.lookup "cyfs-inner-proof" =
    if resp.innerProofs.isEmpty then none
    else some (utf8Bytes (web.jsonText (.array resp.innerProofs)))

theorem respLookups_of_apply {resp : CyfsHttpRespHeaders} {headers : HeaderMap}
    (h : applyCyfsRespHeaders web base64 resp [] = .ok headers) :
    RespLookups web base64 resp headers := by
  unfold applyCyfsRespHeaders at h
  simp only [except_bind_eq_ok] at h
  obtain ⟨withId, hid, withSize, hsize, withPath, hpath, withParents, hparents, hproofs⟩ := h
  obtain ⟨hother, hparent⟩ := lookup_insertParents hparents
  have hfixed : ∀ name, stripPrefix "cyfs-parents-" name = none →
      withParents.lookup name = withPath.lookup name :=
    fun name hname => hother name fun i _ => ne_parentHeader hname _
  have hnames : ∀ name idx, stripPrefix "cyfs-parents-" name = none →
      parentHeader idx ≠ name := fun name idx hname => (ne_parentHeader hname idx).symm
  constructor
  · rw [lookup_insertSome hproofs, if_neg (by decide), hfixed _ (by decide),
      lookup_insertSome hpath, if_neg (by decide), lookup_insertSome hsize, if_neg (by decide),
      lookup_insertSome hid, if_pos rfl]
    cases resp.objId <;> rfl
  · rw [lookup_insertSome hproofs, if_neg (by decide), hfixed _ (by decide),
      lookup_insertSome hpath, if_neg (by decide), lookup_insertSome hsize, if_pos rfl,
      lookup_insertSome hid, if_neg (by decide)]
    cases resp.chunkSize <;> rfl
  · rw [lookup_insertSome hproofs, if_neg (by decide), hfixed _ (by decide),
      lookup_insertSome hpath, if_pos rfl, lookup_insertSome hsize, if_neg (by decide),
      lookup_insertSome hid, if_neg (by decide)]
    cases resp.pathObj <;> rfl
  · intro idx
    rw [lookup_insertSome hproofs, if_neg (hnames _ idx (by decide))]
    cases hidx : resp.parents[idx]? with
    | some parent =>
        have hvalue := hparent idx parent hidx
        rwa [Nat.zero_add] at hvalue
    | none =>
        have hlength := List.getElem?_eq_none_iff.mp hidx
        rw [hother _ fun i hi heq => by
            have hindex := parentHeader_injective heq
            omega,
          lookup_insertSome hpath, if_neg (hnames _ idx (by decide)),
          lookup_insertSome hsize, if_neg (hnames _ idx (by decide)),
          lookup_insertSome hid, if_neg (hnames _ idx (by decide))]
        rfl
  · have hbefore : withParents.lookup "cyfs-inner-proof" = none := by
      rw [hfixed _ (by decide), lookup_insertSome hpath, if_neg (by decide),
        lookup_insertSome hsize, if_neg (by decide), lookup_insertSome hid, if_neg (by decide)]
      rfl
    rw [lookup_insertSome hproofs, if_pos rfl, hbefore, Option.or_none]
    split_ifs <;> rfl

theorem readInnerProofs_eq_ok_iff (reads : web.ReadsArrays) (proofs : List Json) :
    readInnerProofs web (web.jsonText (.array proofs)) = .ok proofs ↔
      web.jsonParse (web.jsonText (.array proofs)) = some (.array proofs) := by
  have harray := reads.isArray proofs
  unfold readInnerProofs
  cases hparse : web.jsonParse (web.jsonText (.array proofs)) with
  | none => simp
  | some v =>
      cases v with
      | array items => simp
      | _ => cases harray _ hparse

theorem readCascades_eq_ok_iff {cascades : List Json} (h : cascades.length ≤ cyfsCascadesMaxLen) :
    readCascades web (web.jsonText (.array cascades)) = .ok cascades ↔
      web.jsonParse (web.jsonText (.array cascades)) = some (.array cascades) := by
  unfold readCascades
  cases hparse : web.jsonParse (web.jsonText (.array cascades)) with
  | none => simp
  | some v =>
      cases v with
      | array items =>
          dsimp only
          by_cases hlong : cyfsCascadesMaxLen < items.length
          · rw [if_pos hlong]
            refine iff_of_false nofun fun heq => ?_
            obtain rfl : items = cascades := by simpa using heq
            omega
          · rw [if_neg hlong]
            simp
      | _ => simp

theorem readProofs_jsonText (reads : web.ReadsArrays) (proofs : List String) :
    readProofs web (web.jsonText (.ofStrings proofs)) = .ok proofs := by
  unfold readProofs
  rw [reads.ofStrings]
  unfold Json.ofStrings
  dsimp only
  have hstrings : (proofs.map Json.string).mapM Json.asStr = some proofs := by
    rw [mapM_eq_some_iff_forall₂, List.forall₂_map_left_iff, List.forall₂_same]
    exact fun _ _ => rfl
  rw [hstrings]

/-- The header of the inner proofs, where no header means no proof. -/
theorem headerGet_innerProofs_iff (reads : web.ReadsArrays) {headers : HeaderMap}
    {proofs : List Json}
    (h : headers.lookup "cyfs-inner-proof" =
      if proofs.isEmpty then none else some (utf8Bytes (web.jsonText (.array proofs)))) :
    (∃ found, headerGet headers "cyfs-inner-proof" (readInnerProofs web) = .ok found ∧
      found.getD [] = proofs) ↔
      (proofs ≠ [] → Visible (web.jsonText (.array proofs)) ∧
        web.jsonParse (web.jsonText (.array proofs)) = some (.array proofs)) := by
  by_cases hempty : proofs = []
  · subst hempty
    refine iff_of_true ⟨none, ?_, rfl⟩ (fun hne => absurd rfl hne)
    unfold headerGet headerGetStr
    rw [h]
    rfl
  · rw [if_neg (by simpa using hempty)] at h
    have hget := headerGet_eq_ok_iff (readInnerProofs web)
      (show headers.lookup "cyfs-inner-proof" = (some proofs).map fun proofs =>
        utf8Bytes (web.jsonText (.array proofs)) from h)
    rw [← readInnerProofs_eq_ok_iff reads]
    simp only [Option.mem_some_iff, forall_eq'] at hget
    constructor
    · rintro ⟨found, hfound, rfl⟩ -
      cases found with
      | none => exact absurd rfl hempty
      | some found => exact hget.mp hfound
    · intro hproofs
      exact ⟨some proofs, hget.mpr (hproofs hempty), rfl⟩

/-- The headers of a response give it back exactly when it is readable. -/
theorem getCyfsRespHeaders_eq_ok_iff (laws : web.toCrates.Lawful) (lawful : base64.Lawful)
    (reads : web.ReadsArrays) {resp : CyfsHttpRespHeaders} {headers : HeaderMap}
    (h : applyCyfsRespHeaders web base64 resp [] = .ok headers) :
    getCyfsRespHeaders web base64 headers = .ok resp ↔ resp.Readable web := by
  have lookups := respLookups_of_apply h
  have hlength : resp.parents.length ≤ headers.length :=
    length_le_of_lookup fun i parent hi => by rw [lookups.parents i, hi, Option.map_some]
  have hobjId := headerGet_eq_ok_iff (ObjId.new web.toCrates) lookups.objId
  have hsize := headerGet_eq_ok_iff readChunkSize lookups.chunkSize
  have hpath := headerGetStr_eq_ok_iff lookups.pathObj
  have hparents := parentsFrom_eq_ok_iff laws lawful 0
    (fun i => by rw [Nat.zero_add, lookups.parents i]) (Nat.lt_succ_of_le hlength)
  have hproofs := headerGet_innerProofs_iff reads lookups.innerProofs
  simp only [readable_objId_iff laws] at hobjId
  simp only [visible_toString, readChunkSize_toString, and_self, implies_true, iff_true] at hsize
  obtain ⟨objId, chunkSize, pathObj, parents, innerProofs⟩ := resp
  unfold getCyfsRespHeaders
  simp only [except_bind_eq_ok, except_pure_eq_ok, CyfsHttpRespHeaders.mk.injEq]
  constructor
  · rintro ⟨_, hid, _, -, _, hp, _, hps, found, hfound, rfl, rfl, rfl, rfl, hinner⟩
    exact ⟨hobjId.mp hid, hpath.mp hp, hparents.mp hps, hproofs.mp ⟨found, hfound, hinner⟩⟩
  · intro readable
    obtain ⟨found, hfound, hinner⟩ := hproofs.mpr readable.innerProofs
    exact ⟨_, hobjId.mpr readable.objId, _, hsize, _, hpath.mpr readable.pathObj, _,
      hparents.mpr readable.parents, found, hfound, rfl, rfl, rfl, rfl, hinner⟩

theorem checkCascades_eq_ok {cascades : Option (List Json)} {u : Unit}
    (h : checkCascades cascades = .ok u) :
    ∀ items ∈ cascades, items.length ≤ cyfsCascadesMaxLen := by
  rintro items rfl
  unfold checkCascades at h
  dsimp only at h
  split_ifs at h with hlong
  omega

/-- The headers of a request give it back exactly when it is readable. -/
theorem getCyfsReqHeaders_eq_ok_iff (reads : web.ReadsArrays) {req : CyfsHttpReqHeaders}
    {headers : HeaderMap} (h : applyCyfsReqHeaders web req [] = .ok headers) :
    getCyfsReqHeaders web headers = .ok req ↔ req.Readable web := by
  unfold applyCyfsReqHeaders at h
  simp only [except_bind_eq_ok] at h
  obtain ⟨withUser, huser, _, hcheck, withCascades, hcascades, withProofs, hproofs, hcode⟩ := h
  have hfew := checkCascades_eq_ok hcheck
  have huser' : headers.lookup "cyfs-original-user" = req.originalUser.map utf8Bytes := by
    rw [lookup_insertSome hcode, if_neg (by decide), lookup_insertSome hproofs,
      if_neg (by decide), lookup_insertSome hcascades, if_neg (by decide),
      lookup_insertSome huser, if_pos rfl]
    cases req.originalUser <;> rfl
  have hcascades' : headers.lookup "cyfs-cascades" =
      req.cascades.map fun cascades => utf8Bytes (web.jsonText (.array cascades)) := by
    rw [lookup_insertSome hcode, if_neg (by decide), lookup_insertSome hproofs,
      if_neg (by decide), lookup_insertSome hcascades, if_pos rfl,
      lookup_insertSome huser, if_neg (by decide)]
    cases req.cascades <;> rfl
  have hproofs' : headers.lookup "cyfs-proofs" =
      req.proofs.map fun proofs => utf8Bytes (web.jsonText (.ofStrings proofs)) := by
    rw [lookup_insertSome hcode, if_neg (by decide), lookup_insertSome hproofs, if_pos rfl,
      lookup_insertSome hcascades, if_neg (by decide),
      lookup_insertSome huser, if_neg (by decide)]
    cases req.proofs <;> rfl
  have hcode' : headers.lookup "cyfs-access-code" = req.accessCode.map utf8Bytes := by
    rw [lookup_insertSome hcode, if_pos rfl, lookup_insertSome hproofs, if_neg (by decide),
      lookup_insertSome hcascades, if_neg (by decide),
      lookup_insertSome huser, if_neg (by decide)]
    cases req.accessCode <;> rfl
  have getUser := headerGetStr_eq_ok_iff huser'
  have getCascades := headerGet_eq_ok_iff (readCascades web) hcascades'
  have getProofs := headerGet_eq_ok_iff (readProofs web) hproofs'
  have getCode := headerGetStr_eq_ok_iff hcode'
  simp only [readProofs_jsonText reads, and_true] at getProofs
  obtain ⟨originalUser, cascades, proofs, accessCode⟩ := req
  unfold getCyfsReqHeaders
  simp only [except_bind_eq_ok, except_pure_eq_ok, CyfsHttpReqHeaders.mk.injEq]
  constructor
  · rintro ⟨_, hu, _, hc, _, hp, _, ha, rfl, rfl, rfl, rfl⟩
    refine ⟨getUser.mp hu, fun items hitems => ?_, getProofs.mp hp, getCode.mp ha⟩
    rw [← readCascades_eq_ok_iff (hfew items hitems)]
    exact getCascades.mp hc items hitems
  · intro readable
    refine ⟨_, getUser.mpr readable.originalUser, _, getCascades.mpr fun items hitems => ?_, _,
      getProofs.mpr readable.proofs, _, getCode.mpr readable.accessCode, rfl, rfl, rfl, rfl⟩
    rw [readCascades_eq_ok_iff (hfew items hitems)]
    exact readable.cascades items hitems

/-- Headers that are applied to no headers are read back exactly when their values are
readable. -/
theorem headers_roundTrip_iff (laws : web.toCrates.Lawful) (lawful : base64.Lawful)
    (reads : web.ReadsArrays) :
    (∀ resp headers, applyCyfsRespHeaders web base64 resp [] = .ok headers →
      (getCyfsRespHeaders web base64 headers = .ok resp ↔ resp.Readable web)) ∧
    ∀ req headers, applyCyfsReqHeaders web req [] = .ok headers →
      (getCyfsReqHeaders web headers = .ok req ↔ req.Readable web) :=
  ⟨fun _ _ => getCyfsRespHeaders_eq_ok_iff laws lawful reads,
    fun _ _ => getCyfsReqHeaders_eq_ok_iff reads⟩

end AllHeaders

/-! ## Runs of the codec -/

/-- `base64` by its digits. -/
def base64Digits : Base64Crate := ⟨BitDigits.base64Url.encode, BitDigits.base64Url.decode⟩

theorem base64Digits_lawful : base64Digits.Lawful where
  decode_encode := BitDigits.Digits.decode_encode
  visible_encode := by
    intro bytes
    have hascii : BitDigits.base64Url.alphabet.all (fun c => decide (' ' ≤ c ∧ c ≤ '~')) = true := by
      decide
    exact visible_of_ascii fun c hc => of_decide_eq_true
      (List.all_eq_true.mp hascii c (BitDigits.Digits.mem_alphabet_of_mem_encode hc))

theorem sampleWeb_readsArrays : sampleWeb.ReadsArrays where
  isArray := by
    intro items v h
    obtain rfl := Option.some.inj ((sampleJsonParse_sampleJcs (.array items)).symm.trans h)
    rfl
  ofStrings texts := sampleJsonParse_sampleJcs (.ofStrings texts)

/-- The headers that the tests of the repository write and read back. -/
def testRespHeaders : CyfsHttpRespHeaders where
  objId := some ObjId.testId
  chunkSize := some 1234
  pathObj := some "eyJhbGciOi...jwt"
  parents := [.objId ObjId.testId]
  innerProofs := [.object [("leaf_index", .number (.natural 12000))]]

theorem testRespHeaders_readable : testRespHeaders.Readable sampleWeb where
  objId := by
    rintro id ⟨⟩
    decide
  pathObj := by
    rintro text ⟨⟩
    decide
  parents := by
    rintro parent hparent
    obtain rfl := List.mem_singleton.mp hparent
    exact show Visible ObjId.testId.objType ∧ ':' ∉ ObjId.testId.objType.toList by decide
  innerProofs _ := ⟨by decide, sampleJsonParse_sampleJcs (.array testRespHeaders.innerProofs)⟩

theorem testRespHeaders_roundTrip :
    ∃ headers, applyCyfsRespHeaders sampleWeb base64Digits testRespHeaders [] = .ok headers ∧
      getCyfsRespHeaders sampleWeb base64Digits headers = .ok testRespHeaders := by
  have hread := (headers_roundTrip_iff sampleWeb_lawful.crates base64Digits_lawful
    sampleWeb_readsArrays).1 testRespHeaders
  cases happly : applyCyfsRespHeaders sampleWeb base64Digits testRespHeaders [] with
  | error e =>
      have hsome : (applyCyfsRespHeaders sampleWeb base64Digits testRespHeaders []).toOption.isSome
        = true := by decide
      rw [happly] at hsome
      cases hsome
  | ok headers => exact ⟨headers, rfl, (hread headers happly).mpr testRespHeaders_readable⟩

/-- A user outside ASCII is sent and not read. -/
theorem nonAscii_user_not_read :
    applyCyfsReqHeaders sampleWeb ⟨some "é", none, none, none⟩ [] =
        .ok [("cyfs-original-user", [195, 169])] ∧
      getCyfsReqHeaders sampleWeb [("cyfs-original-user", [195, 169])] =
        .error (.decodeError "decode header cyfs-original-user failed: ") := by
  constructor <;> rfl

end NdnLib
end CyfsNdn

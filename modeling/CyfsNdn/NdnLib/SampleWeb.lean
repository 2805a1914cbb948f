import CyfsNdn.NdnLib.CyfsHttp
import CyfsNdn.NdnLib.SampleCrates

/-!
# A reading of the web crates that can be evaluated

`sampleWeb` extends `sampleCrates`.  JSON is printed and parsed without blanks, with the
keys in the order in which the value has them, which is the canonical form where they
are sorted; the parser reads back what the printer writes.  SHA-256 is a permutation
of the byte strings that has the true digest of the texts of the concrete runs.
-/

namespace CyfsNdn
namespace NdnLib

/-! ## Printing -/

/-- The characters of a JSON string between the quotes. -/
def jsonEscape : List Char → List Char
  | [] => []
  | c :: rest =>
      if c = '"' ∨ c = '\\' then '\\' :: c :: jsonEscape rest else c :: jsonEscape rest

/-- A JSON string. -/
def jsonQuote (s : String) : List Char :=
  '"' :: (jsonEscape s.toList ++ ['"'])

mutual

/-- The text of a value.  A number that is not a `u64` stands in quotes after a tilde. -/
def jsonText : Json → List Char
  | .null => ['n', 'u', 'l', 'l']
  | .bool true => ['t', 'r', 'u', 'e']
  | .bool false => ['f', 'a', 'l', 's', 'e']
  | .number (.natural n) => Nat.toDigits 10 n
  | .number (.other text) => '~' :: jsonQuote text
  | .string s => jsonQuote s
  | .array [] => ['[', ']']
  | .array (v :: rest) => '[' :: (jsonText v ++ itemsText rest)
  | .object [] => ['\x7b', '\x7d']
  | .object ((key, v) :: rest) =>
      '\x7b' :: (jsonQuote key ++ ':' :: (jsonText v ++ fieldsText rest))

/-- The text of the items after the first. -/
def itemsText : List Json → List Char
  | [] => [']']
  | v :: rest => ',' :: (jsonText v ++ itemsText rest)

/-- The text of the fields after the first. -/
def fieldsText : List (String × Json) → List Char
  | [] => ['\x7d']
  | (key, v) :: rest => ',' :: (jsonQuote key ++ ':' :: (jsonText v ++ fieldsText rest))

end

/-! ## Parsing -/

/-- The characters up to the closing quote, and what follows it. -/
def parseQuoted : List Char → Option (List Char × List Char)
  | [] => none
  | '"' :: rest => some ([], rest)
  | '\\' :: c :: rest => (parseQuoted rest).map fun p => (c :: p.1, p.2)
  | c :: rest => (parseQuoted rest).map fun p => (c :: p.1, p.2)

/-- A JSON string, and what follows it. -/
def parseString : List Char → Option (String × List Char)
  | '"' :: rest => (parseQuoted rest).map fun p => (String.ofList p.1, p.2)
  | _ => none

/-- The digits at the start, and what follows them. -/
def spanDigits : List Char → List Char × List Char
  | [] => ([], [])
  | c :: rest =>
      if '0' ≤ c ∧ c ≤ '9' then (c :: (spanDigits rest).1, (spanDigits rest).2)
      else ([], c :: rest)

/-- A key and the colon after it. -/
def parseKey (chars : List Char) : Option (String × List Char) :=
  match parseString chars with
  | some (key, ':' :: rest) => some (key, rest)
  | _ => none

/-- A number. -/
def parseNumber (chars : List Char) : Option (Json × List Char) :=
  let (digits, rest) := spanDigits chars
  if digits.isEmpty then none
  else (decimalValue 0 digits).map fun n => (.number (.natural n), rest)

mutual

/-- A value at the start of a text, with at most `fuel` calls below each other. -/
def parseValue : Nat → List Char → Option (Json × List Char)
  | 0, _ => none
  | fuel + 1, chars =>
      match chars with
      | 'n' :: 'u' :: 'l' :: 'l' :: rest => some (.null, rest)
      | 't' :: 'r' :: 'u' :: 'e' :: rest => some (.bool true, rest)
      | 'f' :: 'a' :: 'l' :: 's' :: 'e' :: rest => some (.bool false, rest)
      | '~' :: rest => (parseString rest).map fun p => (.number (.other p.1), p.2)
      | '"' :: rest => (parseString ('"' :: rest)).map fun p => (.string p.1, p.2)
      | '[' :: ']' :: rest => some (.array [], rest)
      | '[' :: rest =>
          match parseValue fuel rest with
          | none => none
          | some (v, rest) => (parseItems fuel rest).map fun p => (.array (v :: p.1), p.2)
      | '\x7b' :: '\x7d' :: rest => some (.object [], rest)
      | '\x7b' :: rest =>
          match parseKey rest with
          | none => none
          | some (key, rest) =>
              match parseValue fuel rest with
              | none => none
              | some (v, rest) =>
                  (parseFields fuel rest).map fun p => (.object ((key, v) :: p.1), p.2)
      | chars => parseNumber chars

/-- The items after the first. -/
def parseItems : Nat → List Char → Option (List Json × List Char)
  | 0, _ => none
  | fuel + 1, chars =>
      match chars with
      | ']' :: rest => some ([], rest)
      | ',' :: rest =>
          match parseValue fuel rest with
          | none => none
          | some (v, rest) => (parseItems fuel rest).map fun p => (v :: p.1, p.2)
      | _ => none

/-- The fields after the first. -/
def parseFields : Nat → List Char → Option (List (String × Json) × List Char)
  | 0, _ => none
  | fuel + 1, chars =>
      match chars with
      | '\x7d' :: rest => some ([], rest)
      | ',' :: rest =>
          match parseKey rest with
          | none => none
          | some (key, rest) =>
              match parseValue fuel rest with
              | none => none
              | some (v, rest) =>
                  (parseFields fuel rest).map fun p => ((key, v) :: p.1, p.2)
      | _ => none

end

/-- The value of a whole text. -/
def sampleJsonParse (s : String) : Option Json :=
  match parseValue (s.toList.length + 1) s.toList with
  | some (v, []) => some v
  | _ => none

/-- The text of a value. -/
def sampleJcs (v : Json) : String :=
  String.ofList (jsonText v)

/-! ## The round trip -/

theorem parseQuoted_jsonEscape (chars rest : List Char) :
    parseQuoted (jsonEscape chars ++ '"' :: rest) = some (chars, rest) := by
  induction chars with
  | nil => rfl
  | cons c cs ih =>
      unfold jsonEscape
      split_ifs with hc
      · simp [parseQuoted, ih]
      · rw [List.cons_append, parseQuoted]
        · rw [ih]
          rfl
        · intro hquote
          exact hc (Or.inl hquote)
        · intro d ds hback
          exact absurd (Or.inr hback) hc

theorem parseString_jsonQuote (s : String) (rest : List Char) :
    parseString (jsonQuote s ++ rest) = some (s, rest) := by
  simp [jsonQuote, parseString, parseQuoted_jsonEscape]

theorem parseKey_jsonQuote (key : String) (rest : List Char) :
    parseKey (jsonQuote key ++ ':' :: rest) = some (key, rest) := by
  unfold parseKey
  rw [parseString_jsonQuote]
  rfl

/-- A text that does not go on with a digit. -/
def NoDigit (rest : List Char) : Prop :=
  ∀ c tail, rest = c :: tail → ¬ ('0' ≤ c ∧ c ≤ '9')

theorem spanDigits_append {digits rest : List Char}
    (hdigits : ∀ c ∈ digits, '0' ≤ c ∧ c ≤ '9') (hrest : NoDigit rest) :
    spanDigits (digits ++ rest) = (digits, rest) := by
  induction digits with
  | nil =>
      cases rest with
      | nil => rfl
      | cons c tail => simp [spanDigits, hrest c tail rfl]
  | cons c cs ih =>
      rw [List.cons_append, spanDigits, if_pos (hdigits c List.mem_cons_self),
        ih (fun d hd => hdigits d (List.mem_cons_of_mem _ hd))]

theorem decimalValue_eq_ofDigitChars {digits : List Char} {acc : Nat}
    (hdigits : ∀ c ∈ digits, '0' ≤ c ∧ c ≤ '9') :
    decimalValue acc digits = some (Nat.ofDigitChars 10 digits acc) := by
  induction digits generalizing acc with
  | nil => simp [decimalValue]
  | cons c cs ih =>
      rw [decimalValue, if_pos (hdigits c List.mem_cons_self),
        ih (fun d hd => hdigits d (List.mem_cons_of_mem _ hd)), Nat.ofDigitChars_cons]

theorem digit_of_mem_toDigits {n : Nat} {c : Char} (h : c ∈ Nat.toDigits 10 n) :
    '0' ≤ c ∧ c ≤ '9' := by
  have hdigit := Nat.isDigit_of_mem_toDigits (by norm_num) (by norm_num) h
  simpa [Char.isDigit, Char.le_def] using hdigit

theorem parseNumber_toDigits (n : Nat) {rest : List Char} (hrest : NoDigit rest) :
    parseNumber (Nat.toDigits 10 n ++ rest) = some (.number (.natural n), rest) := by
  have hdigits : ∀ c ∈ Nat.toDigits 10 n, '0' ≤ c ∧ c ≤ '9' := fun c => digit_of_mem_toDigits
  unfold parseNumber
  rw [spanDigits_append hdigits hrest]
  dsimp only
  rw [if_neg (by simp [Nat.toDigits_ne_nil]), decimalValue_eq_ofDigitChars hdigits,
    Nat.ofDigitChars_ten_toDigits]
  rfl

/-- The first character of a text decides how it is read; a digit means a number. -/
theorem parseValue_of_digit {fuel : Nat} {c : Char} {tail : List Char}
    (hc : '0' ≤ c ∧ c ≤ '9') :
    parseValue (fuel + 1) (c :: tail) = parseNumber (c :: tail) := by
  have hne : ∀ d : Char, ¬ ('0' ≤ d ∧ d ≤ '9') → c ≠ d := fun d hd hcd => hd (hcd ▸ hc)
  have hn := hne 'n' (by decide)
  have ht := hne 't' (by decide)
  have hf := hne 'f' (by decide)
  have htilde := hne '~' (by decide)
  have hquote := hne '"' (by decide)
  have hopen := hne '[' (by decide)
  have hbrace := hne '\x7b' (by decide)
  unfold parseValue
  split <;> simp_all

theorem noDigit_itemsText (rest : List Json) (tail : List Char) :
    NoDigit (itemsText rest ++ tail) := by
  intro c cs h
  cases rest with
  | nil =>
      simp only [itemsText, List.cons_append, List.cons.injEq] at h
      rw [← h.1]
      decide
  | cons v vs =>
      simp only [itemsText, List.cons_append, List.cons.injEq] at h
      rw [← h.1]
      decide

theorem noDigit_fieldsText (rest : List (String × Json)) (tail : List Char) :
    NoDigit (fieldsText rest ++ tail) := by
  intro c cs h
  cases rest with
  | nil =>
      simp only [fieldsText, List.cons_append, List.cons.injEq] at h
      rw [← h.1]
      decide
  | cons v vs =>
      obtain ⟨key, v⟩ := v
      simp only [fieldsText, List.cons_append, List.cons.injEq] at h
      rw [← h.1]
      decide

/-- An array with items is not read as an empty one: the text of a value does not start
with a closing bracket. -/
theorem jsonText_head (v : Json) : ∃ c tail, jsonText v = c :: tail ∧ c ≠ ']' := by
  match v with
  | .null => exact ⟨_, _, rfl, by decide⟩
  | .bool true => exact ⟨_, _, rfl, by decide⟩
  | .bool false => exact ⟨_, _, rfl, by decide⟩
  | .number (.natural n) =>
      cases hdigits : Nat.toDigits 10 n with
      | nil => exact absurd hdigits Nat.toDigits_ne_nil
      | cons c tail =>
          refine ⟨c, tail, by rw [jsonText, hdigits], ?_⟩
          rintro rfl
          have hdigit := digit_of_mem_toDigits (n := n) (by rw [hdigits]; exact List.mem_cons_self)
          revert hdigit
          decide
  | .number (.other text) => exact ⟨_, _, rfl, by decide⟩
  | .string s => exact ⟨_, _, rfl, by decide⟩
  | .array [] => exact ⟨_, _, rfl, by decide⟩
  | .array (v :: rest) => exact ⟨_, _, rfl, by decide⟩
  | .object [] => exact ⟨_, _, rfl, by decide⟩
  | .object ((key, v) :: rest) => exact ⟨_, _, rfl, by decide⟩

mutual

/-- The parser reads back a value. -/
theorem parseValue_jsonText (v : Json) (rest : List Char) (fuel : Nat)
    (hfuel : (jsonText v).length < fuel) (hrest : NoDigit rest) :
    parseValue fuel (jsonText v ++ rest) = some (v, rest) := by
  obtain ⟨fuel, rfl⟩ : ∃ n, fuel = n + 1 := ⟨fuel - 1, by omega⟩
  match v with
  | .null => rfl
  | .bool true => rfl
  | .bool false => rfl
  | .number (.natural n) =>
      cases hdigits : Nat.toDigits 10 n with
      | nil => exact absurd hdigits Nat.toDigits_ne_nil
      | cons c tail =>
          have hc : '0' ≤ c ∧ c ≤ '9' := digit_of_mem_toDigits (n := n)
            (by rw [hdigits]; exact List.mem_cons_self)
          rw [jsonText, hdigits, List.cons_append, parseValue_of_digit hc, ← List.cons_append,
            ← hdigits, parseNumber_toDigits n hrest]
  | .number (.other text) =>
      rw [jsonText, List.cons_append, parseValue, parseString_jsonQuote]
      rfl
  | .string s =>
      have hquote := parseString_jsonQuote s rest
      rw [jsonText]
      unfold jsonQuote at hquote ⊢
      rw [List.cons_append, parseValue]
      rw [List.cons_append] at hquote
      rw [hquote]
      rfl
  | .array [] => rfl
  | .array (v :: items) =>
      rw [jsonText, List.length_cons, List.length_append] at hfuel
      have hvalue := parseValue_jsonText v (itemsText items ++ rest) fuel (by omega)
        (noDigit_itemsText items rest)
      have hitems := parseItems_itemsText items rest fuel (by omega)
      rw [jsonText, List.cons_append, List.append_assoc, parseValue]
      · rw [hvalue]
        dsimp only
        rw [hitems]
        rfl
      · intro tail hclose
        obtain ⟨c, cs, hhead, hne⟩ := jsonText_head v
        rw [hhead, List.cons_append, List.cons.injEq] at hclose
        exact hne hclose.1
  | .object [] => rfl
  | .object ((key, v) :: fields) =>
      rw [jsonText, List.length_cons, List.length_append, List.length_cons,
        List.length_append] at hfuel
      have hvalue := parseValue_jsonText v (fieldsText fields ++ rest) fuel (by omega)
        (noDigit_fieldsText fields rest)
      have hfields := parseFields_fieldsText fields rest fuel (by omega)
      have hkey := parseKey_jsonQuote key (jsonText v ++ (fieldsText fields ++ rest))
      have htext : jsonText (.object ((key, v) :: fields)) ++ rest =
          '\x7b' :: (jsonQuote key ++ ':' :: (jsonText v ++ (fieldsText fields ++ rest))) := by
        simp [jsonText]
      rw [htext, parseValue]
      · rw [hkey]
        dsimp only
        rw [hvalue]
        dsimp only
        rw [hfields]
        rfl
      · intro tail hclose
        simp [jsonQuote] at hclose

/-- The parser reads back the items after the first. -/
theorem parseItems_itemsText (items : List Json) (rest : List Char) (fuel : Nat)
    (hfuel : (itemsText items).length ≤ fuel) :
    parseItems fuel (itemsText items ++ rest) = some (items, rest) := by
  match items with
  | [] =>
      obtain ⟨fuel, rfl⟩ : ∃ n, fuel = n + 1 := ⟨fuel - 1, by simp [itemsText] at hfuel; omega⟩
      rfl
  | v :: items =>
      rw [itemsText, List.length_cons, List.length_append] at hfuel
      obtain ⟨fuel, rfl⟩ : ∃ n, fuel = n + 1 := ⟨fuel - 1, by omega⟩
      have hpos : 0 < (itemsText items).length := by
        cases items <;> simp [itemsText]
      have hvalue := parseValue_jsonText v (itemsText items ++ rest) fuel (by omega)
        (noDigit_itemsText items rest)
      have hitems := parseItems_itemsText items rest fuel (by omega)
      rw [itemsText, List.cons_append, List.append_assoc, parseItems]
      rw [hvalue]
      dsimp only
      rw [hitems]
      rfl

/-- The parser reads back the fields after the first. -/
theorem parseFields_fieldsText (fields : List (String × Json)) (rest : List Char) (fuel : Nat)
    (hfuel : (fieldsText fields).length ≤ fuel) :
    parseFields fuel (fieldsText fields ++ rest) = some (fields, rest) := by
  match fields with
  | [] =>
      obtain ⟨fuel, rfl⟩ : ∃ n, fuel = n + 1 := ⟨fuel - 1, by simp [fieldsText] at hfuel; omega⟩
      rfl
  | (key, v) :: fields =>
      rw [fieldsText, List.length_cons, List.length_append, List.length_cons,
        List.length_append] at hfuel
      obtain ⟨fuel, rfl⟩ : ∃ n, fuel = n + 1 := ⟨fuel - 1, by omega⟩
      have hvalue := parseValue_jsonText v (fieldsText fields ++ rest) fuel (by omega)
        (noDigit_fieldsText fields rest)
      have hfields := parseFields_fieldsText fields rest fuel (by omega)
      have hkey := parseKey_jsonQuote key (jsonText v ++ (fieldsText fields ++ rest))
      have htext : fieldsText ((key, v) :: fields) ++ rest =
          ',' :: (jsonQuote key ++ ':' :: (jsonText v ++ (fieldsText fields ++ rest))) := by
        simp [fieldsText]
      rw [htext, parseFields]
      rw [hkey]
      dsimp only
      rw [hvalue]
      dsimp only
      rw [hfields]
      rfl

end

/-- A value is read back from its text. -/
theorem sampleJsonParse_sampleJcs (v : Json) : sampleJsonParse (sampleJcs v) = some v := by
  unfold sampleJsonParse sampleJcs
  have h := parseValue_jsonText v [] ((jsonText v).length + 1) (by omega)
    (fun c tail hnil => by cases hnil)
  rw [List.append_nil] at h
  rw [String.toList_ofList, h]

/-! ## The crates -/

/-- The permutation that exchanges two byte strings. -/
def swapBytes (x y bytes : List UInt8) : List UInt8 :=
  if bytes = x then y else if bytes = y then x else bytes

theorem swapBytes_injective (x y : List UInt8) : Function.Injective (swapBytes x y) := by
  intro a b h
  unfold swapBytes at h
  split_ifs at h <;> simp_all

/-- SHA-256 of the file object with the content `a`. -/
def sha256FileA : List UInt8 :=
  [0x8a, 0x50, 0x4b, 0x89, 0xe7, 0x34, 0x74, 0xf1, 0x87, 0xee, 0xda, 0xbc, 0x92, 0xd4,
    0x85, 0x86, 0x19, 0x35, 0xad, 0x7f, 0x2e, 0x2e, 0x69, 0x94, 0x8e, 0x43, 0xa1, 0x60,
    0x35, 0x0d, 0xf1, 0x00]

/-- SHA-256 of the file object with the content `b`. -/
def sha256FileB : List UInt8 :=
  [0xa7, 0xf4, 0x15, 0x27, 0x39, 0xba, 0xab, 0xb0, 0x87, 0x70, 0x8f, 0x62, 0xb1, 0x02,
    0x50, 0x35, 0x03, 0xbf, 0x69, 0x8f, 0x8b, 0xb7, 0xb5, 0x0a, 0x86, 0x9b, 0x3f, 0x69,
    0xed, 0x58, 0xad, 0x06]

/-- SHA-256 of a directory with the first file as `a b`. -/
def sha256BlankDir : List UInt8 :=
  [0x1e, 0x99, 0xec, 0xe0, 0x3f, 0xd2, 0x0a, 0x56, 0x64, 0xde, 0xc9, 0x05, 0xfb, 0x06,
    0xfc, 0xb0, 0x54, 0x5b, 0xa1, 0x0a, 0xb6, 0x16, 0xaf, 0x30, 0x5d, 0xce, 0xaf, 0x69,
    0x6b, 0x3f, 0x03, 0xaa]

/-- SHA-256 of a directory with the first file as `c`. -/
def sha256ChildDir : List UInt8 :=
  [0x92, 0x58, 0xa2, 0xd4, 0x0e, 0x38, 0xca, 0xf7, 0xab, 0x9d, 0x05, 0x2b, 0x2e, 0xd7,
    0xb9, 0xc9, 0xdc, 0xb7, 0x0a, 0x13, 0x09, 0x87, 0xe6, 0x9a, 0x62, 0xdf, 0x39, 0xd2,
    0xae, 0x26, 0xca, 0x4e]

/-- SHA-256 of a directory with that directory as `b`. -/
def sha256OuterDir : List UInt8 :=
  [0x90, 0xa5, 0xf7, 0xc8, 0x3f, 0x49, 0x3e, 0x3d, 0xf4, 0x65, 0xa3, 0x3c, 0x37, 0x84,
    0xb7, 0xad, 0x4f, 0xc8, 0x2e, 0xc9, 0x59, 0xdd, 0x47, 0x4c, 0x43, 0x76, 0x71, 0xb8,
    0x07, 0x34, 0xd7, 0x9a]

/-- The text of a directory object with one child. -/
def oneChildText (name childId : String) : String :=
  "\x7b\"body\":\x7b\"" ++ name ++ "\":\"" ++ childId ++ "\"\x7d,\"create_time\":0,"
    ++ "\"file_count\":1,\"file_size\":0,\"last_update_time\":0,\"total_size\":0\x7d"

/-- Texts with their SHA-256 digests. -/
def knownDigests : List (String × List UInt8) :=
  [("\x7b\"content\":\"a\",\"create_time\":0,\"last_update_time\":0,\"size\":0\x7d", sha256FileA),
    ("\x7b\"content\":\"b\",\"create_time\":0,\"last_update_time\":0,\"size\":0\x7d", sha256FileB),
    (oneChildText "a b"
      "cyfile:8a504b89e73474f187eedabc92d485861935ad7f2e2e69948e43a160350df100", sha256BlankDir),
    (oneChildText "c"
      "cyfile:8a504b89e73474f187eedabc92d485861935ad7f2e2e69948e43a160350df100", sha256ChildDir),
    (oneChildText "b"
      "cydir:9258a2d40e38caf7ab9d052b2ed7b9c9dcb70a130987e69a62df39d2ae26ca4e", sha256OuterDir)]

/-- A digest that is right on the known texts. -/
def sampleDigest (_ : HashMethod) (bytes : List UInt8) : List UInt8 :=
  knownDigests.foldr (fun known => swapBytes (utf8Bytes known.1) known.2) bytes

theorem sampleDigest_injective (method : HashMethod) :
    Function.Injective (sampleDigest method) := by
  unfold sampleDigest
  generalize knownDigests = known
  induction known with
  | nil => exact fun a b h => h
  | cons pair rest ih =>
      intro a b h
      exact ih (swapBytes_injective _ _ h)

/-- A field that is absent or a string. -/
def optionalString (v : Json) (field : String) : Option String :=
  match v.get field with
  | none => some ""
  | some (.string s) => some s
  | some _ => none

/-- A field that is absent or a `u64`. -/
def optionalNatural (v : Json) (field : String) : Option Nat :=
  match v.get field with
  | none => some 0
  | some (.number (.natural n)) => if n < 2 ^ 64 then some n else none
  | some _ => none

/-- The two times that a file object must have. -/
def hasTimes (v : Json) : Bool :=
  (v.get "create_time").isSome && (v.get "last_update_time").isSome

/-- A file object, of which the fields that are read are checked. -/
def sampleFileObject (v : Json) : Option FileObject :=
  if hasTimes v then
    match optionalString v "content", optionalNatural v "size" with
    | some content, some size => some ⟨content, size⟩
    | _, _ => none
  else none

/-- URLs of one host: what follows it is the path. -/
def sampleUrlParse (s : String) : Option Url :=
  let start := "http://mirror".toList
  if start.isPrefixOf s.toList then
    some ⟨some "mirror", String.ofList (s.toList.drop start.length), none, "http://"⟩
  else none

/-- The sample reading of the crates. -/
def sampleWeb : WebCrates where
  toCrates :=
    { sampleCrates with
      digest := sampleDigest
      jsonStringArray := fun s => (sampleJsonParse s).bind Json.stringArray }
  jsonParse := sampleJsonParse
  jsonText := sampleJcs
  jcs := sampleJcs
  fileObject := sampleFileObject
  base32Encode := fun _ => ""
  urlParse := sampleUrlParse
  urlText := fun url => url.rest ++ url.hostStr.getD "" ++ url.path
  urlSetHost := fun url host => some { url with hostStr := some host }
  urlSetPath := fun url path => { url with path := path }
  queryPairs := fun _ => []
  queryText := fun _ => ""

/-- The sample crates read the text of a value as this value. -/
theorem eq_of_sampleWeb_jsonParse {v w : Json}
    (h : sampleWeb.jsonParse (sampleJcs v) = some w) : w = v := by
  have hread : sampleJsonParse (sampleJcs v) = some w := h
  rw [sampleJsonParse_sampleJcs] at hread
  exact (Option.some.inj hread).symm

theorem sampleJcs_injective {v w : Json} (h : sampleJcs v = sampleJcs w) : v = w := by
  have hv := sampleJsonParse_sampleJcs v
  rw [h, sampleJsonParse_sampleJcs] at hv
  exact (Option.some.inj hv).symm

theorem descend_content (v : Json) : v.descend ["content"] = v.get "content" := by
  have hfield : v.field "content" = v.get "content" := by
    unfold Json.field
    rw [show parseUsize "content" = none by decide]
  simp only [Json.descend, hfield]
  cases v.get "content" <;> rfl

theorem sampleWeb_lawful : sampleWeb.Lawful where
  crates :=
    { hexDecode_hexEncode := sampleCrates_lawful.hexDecode_hexEncode
      mem_hexEncode := sampleCrates_lawful.mem_hexEncode
      varintDecode_varintEncode := sampleCrates_lawful.varintDecode_varintEncode }
  jsonStringArray_eq := fun _ => rfl
  descend_of_jcs_eq := by
    intro v w h fields s hs
    rw [← sampleJcs_injective h]
    exact hs
  ofStrings_of_jcs_eq := by
    intro texts texts' h
    have hsame := sampleJcs_injective h
    simp only [Json.ofStrings, Json.array.injEq] at hsame
    exact List.map_injective_iff.mpr (fun a b hab => Json.string.inj hab) hsame
  content_of_fileObject := by
    intro v file hfile
    rw [descend_content]
    change sampleFileObject v = some file at hfile
    unfold sampleFileObject at hfile
    split_ifs at hfile
    split at hfile
    · next content size hcontent hsize =>
      obtain rfl := Option.some.inj hfile
      unfold optionalString at hcontent
      split at hcontent
      · next hnone => exact Or.inr ⟨hnone, (Option.some.inj hcontent).symm⟩
      · next text htext =>
        obtain rfl := Option.some.inj hcontent
        exact Or.inl htext
      · cases hcontent
    · cases hfile
  fileObject_plainFile := by
    intro content size hsize
    change sampleFileObject (plainFile content size) = some ⟨content, size⟩
    have hcontent : optionalString (plainFile content size) "content" = some content := rfl
    have hnatural : optionalNatural (plainFile content size) "size" = some size := by
      change (if size < 2 ^ 64 then some size else none) = some size
      rw [if_pos hsize]
    have htimes : hasTimes (plainFile content size) = true := rfl
    unfold sampleFileObject
    rw [if_pos htimes, hcontent, hnatural]
  jsonParse_jcs_plainFile := fun content size _ => sampleJsonParse_sampleJcs (plainFile content size)

theorem sampleWeb_injective : sampleWeb.Injective := sampleDigest_injective

end NdnLib
end CyfsNdn

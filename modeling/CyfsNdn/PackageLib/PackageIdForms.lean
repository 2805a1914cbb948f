import CyfsNdn.PackageLib.PackageId

/-!
# The forms of a package id

A package id that was read is printed as a text that is read as the same one.  Of the documented
forms only those with a tag can be taken for something else: behind the colon an object id has
hexadecimal digits, and a tag may consist of them.  The id of a meta is read from its name, its
version and its tag, which nothing has checked before.
-/

namespace CyfsNdn
namespace PackageLib

open Collections NdnLib

/-- Hexadecimal digits of either case, two for each byte. -/
def IsHexText (text : String) : Prop :=
  2 ∣ text.toList.length ∧ ∀ c ∈ text.toList, c ∈ "0123456789abcdefABCDEF".toList

instance (text : String) : Decidable (IsHexText text) :=
  @instDecidableAnd _ _ _
    (List.decidableBAll (fun c => c ∈ "0123456789abcdefABCDEF".toList) text.toList)

/-- A character that neither stands for bits nor fills them up in base 32, or an equals sign and
digits behind it. -/
def HasSign (text : List Char) : Prop :=
  (∃ c ∈ text, c.isAlphanum = false ∧ c ≠ '=') ∨
    ∃ digits, text = '=' :: digits ∧ ∀ c ∈ digits, c.isDigit = true

/-- What the package ids rely on.  Versions have dots, and neither they nor requirements have a
separator of the package ids.  A requirement is printed with its operators or wildcards and is
read back.  Base 32 has letters and digits, and perhaps equals signs, which stand for zeros. -/
structure PackageCrates.Lawful (crates : PackageCrates) : Prop where
  semver : crates.semver.Lawful
  version_dot : ∀ {text v}, crates.semver.parseVersion text = some v → '.' ∈ text.toList
  version_chars : ∀ {text v}, crates.semver.parseVersion text = some v →
    ':' ∉ text.toList ∧ '#' ∉ text.toList
  req_chars : ∀ {text r}, crates.semver.parseReq text = some r →
    ':' ∉ text.toList ∧ '#' ∉ text.toList
  req_print : ∀ {text r}, crates.semver.parseReq text = some r →
    crates.semver.parseReq (crates.semver.reqToString r) = some r ∧
      crates.semver.parseVersion (crates.semver.reqToString r) = none
  req_sign : ∀ {text r}, crates.semver.parseReq text = some r →
    HasSign (crates.semver.reqToString r).toList
  base32_chars : ∀ {text bytes}, crates.ndn.base32Decode text = some bytes →
    ∀ c ∈ text.toList, c.isAlphanum = true ∨ c = '='
  base32_digits : ∀ {text bytes digits}, crates.ndn.base32Decode text = some bytes →
    text.toList = '=' :: digits → (∀ c ∈ digits, c.isDigit = true) → (58 : UInt8) ∉ bytes
  hexDecode_isSome : ∀ text, (crates.ndn.hexDecode text).isSome = true ↔ IsHexText text

variable {crates : PackageCrates}

/-! ## Object ids behind a name -/

section Exact

variable {text exp tag : String}

theorem isRawExactId_eq_false {c : Char} (hc : c ∈ text.toList) (hsign : c.isAlphanum = false) :
    isRawExactId text = false := by
  unfold isRawExactId
  rw [Bool.and_eq_false_iff]
  right
  rw [List.all_eq_false]
  exact ⟨c, hc, by simp [hsign]⟩

/-- Without a colon an object id is base 32 of bytes with one. -/
theorem exists_bytes_of_isOk_new (htext : ':' ∉ text.toList)
    (h : (ObjId.new crates.ndn.toCrates text).isOk = true) :
    ∃ bytes, crates.ndn.base32Decode text = some bytes ∧ (58 : UInt8) ∈ bytes := by
  unfold ObjId.new at h
  rw [List.splitOn_eq_singleton htext] at h
  dsimp only at h
  rw [String.ofList_toList] at h
  cases hdecode : crates.ndn.base32Decode text with
  | none =>
      rw [hdecode] at h
      cases h
  | some bytes =>
      rw [hdecode] at h
      dsimp only at h
      cases hpos : bytes.findIdx? (· == 58) with
      | none =>
          rw [hpos] at h
          cases h
      | some pos =>
          obtain ⟨hlt, hbyte, -⟩ := List.findIdx?_eq_some_iff_getElem.mp hpos
          exact ⟨bytes, rfl, beq_iff_eq.mp hbyte ▸ List.getElem_mem hlt⟩

/-- With a sign in it, a text is no object id. -/
theorem isExactId_eq_false_of_sign (laws : crates.Lawful) (htext : ':' ∉ text.toList)
    (hsign : HasSign text.toList) : isExactId crates text = false := by
  have hnew : (ObjId.new crates.ndn.toCrates text).isOk = false := by
    rw [← Bool.not_eq_true]
    intro hok
    obtain ⟨bytes, hdecode, hcolon⟩ := exists_bytes_of_isOk_new htext hok
    rcases hsign with ⟨c, hc, halpha, hne⟩ | ⟨digits, hdigits, hall⟩
    · rcases laws.base32_chars hdecode c hc with h | h
      · rw [halpha] at h
        cases h
      · exact hne h
    · exact laws.base32_digits hdecode hdigits hall hcolon
  have hraw : isRawExactId text = false := by
    rcases hsign with ⟨c, hc, halpha, -⟩ | ⟨digits, hdigits, -⟩
    · exact isRawExactId_eq_false hc halpha
    · exact isRawExactId_eq_false (c := '=') (by simp [hdigits]) (by decide)
  rw [isExactId, hnew, hraw]
  rfl

/-- With one colon in it, a text is an object id if hexadecimal digits follow. -/
theorem isExactId_tag (hexp : ':' ∉ exp.toList) (htag : ':' ∉ tag.toList) :
    isExactId crates (exp ++ ":" ++ tag) = (crates.ndn.hexDecode tag).isSome := by
  have hsplit : (exp ++ ":" ++ tag).toList.splitOn ':' = [exp.toList, tag.toList] :=
    splitOn_eq_pair_iff.mpr ⟨by simp, hexp, htag⟩
  have hraw : isRawExactId (exp ++ ":" ++ tag) = false :=
    isRawExactId_eq_false (c := ':') (by simp) (by decide)
  have hnew : (ObjId.new crates.ndn.toCrates (exp ++ ":" ++ tag)).isOk =
      (crates.ndn.hexDecode tag).isSome := by
    unfold ObjId.new
    rw [hsplit]
    dsimp only
    rw [String.ofList_toList]
    cases crates.ndn.hexDecode tag with
    | none => rfl
    | some bytes => rfl
  rw [isExactId, hraw, hnew, Bool.or_false]

end Exact

/-! ## Printing -/

/-- An expression is printed without a separator and read back; if it is none or a version, its
text is the one that was read. -/
theorem VersionExpType.printed (laws : crates.Lawful) {exp : String} {e : VersionExpType}
    (h : VersionExpType.fromStr crates.semver exp = .ok e) :
    ':' ∉ (e.toString crates.semver).toList ∧ '#' ∉ (e.toString crates.semver).toList ∧
      VersionExpType.fromStr crates.semver (e.toString crates.semver) = .ok e ∧
        (e.toString crates.semver = exp ∨ HasSign (e.toString crates.semver).toList) := by
  have hlaws := laws.semver
  have hread := h
  unfold fromStr at h
  split_ifs at h with hempty
  · cases h
    refine ⟨by simp [toString], by simp [toString], by simp [toString, fromStr], .inl ?_⟩
    exact hempty.symm
  · split at h
    · next v hversion =>
        cases h
        have hprint : crates.semver.versionToString v = exp :=
          SemverCrate.Lawful.print_parse hversion
        obtain ⟨hcolon, hhash⟩ := laws.version_chars hversion
        show ':' ∉ (crates.semver.versionToString v).toList ∧
          '#' ∉ (crates.semver.versionToString v).toList ∧
            fromStr crates.semver (crates.semver.versionToString v) = .ok (.version v) ∧
              (crates.semver.versionToString v = exp ∨ _)
        rw [hprint]
        exact ⟨hcolon, hhash, hread, .inl rfl⟩
    · split at h
      · next r hreq =>
          cases h
          obtain ⟨hback, hnone⟩ := laws.req_print hreq
          obtain ⟨hcolon, hhash⟩ := laws.req_chars hback
          have hsign := laws.req_sign hreq
          have hne : crates.semver.reqToString r ≠ "" := by
            intro hnil
            rw [hnil] at hsign
            rcases hsign with ⟨c, hc, -⟩ | ⟨digits, hdigits, -⟩
            · cases hc
            · cases hdigits
          have hreq' : fromStr crates.semver (crates.semver.reqToString r) = .ok (.req r) := by
            unfold fromStr
            rw [if_neg hne, hnone, hback]
          exact ⟨hcolon, hhash, hreq', .inr hsign⟩
      · cases h

theorem VersionExpType.fromStr_version (laws : crates.Lawful) {version : String} {v : Version}
    (h : crates.semver.parseVersion version = some v) :
    VersionExpType.fromStr crates.semver version = .ok (.version v) := by
  have hne : version ≠ "" := by
    rintro rfl
    exact absurd (laws.version_dot h) (by simp)
  unfold fromStr
  rw [if_neg hne, h]

/-- What is read has no separator. -/
theorem VersionExpType.chars_of_fromStr (laws : crates.Lawful) {exp : String}
    {e : VersionExpType} (h : VersionExpType.fromStr crates.semver exp = .ok e) :
    ':' ∉ exp.toList ∧ '#' ∉ exp.toList := by
  unfold fromStr at h
  split_ifs at h with hempty
  · rw [hempty]
    exact ⟨by simp, by simp⟩
  · split at h
    · next v hversion => exact laws.version_chars hversion
    · split at h
      · next r hreq => exact laws.req_chars hreq
      · cases h

/-- A whole expression is printed so that it is read back, and as an object id only if it was
one before. -/
theorem VersionExp.printed (laws : crates.Lawful) {text : String} {versionExp : VersionExp}
    (hhash : '#' ∉ text.toList)
    (h : VersionExp.fromStr crates.semver text = .ok versionExp) :
    '#' ∉ (versionExp.toString crates.semver).toList ∧
      VersionExp.fromStr crates.semver (versionExp.toString crates.semver) = .ok versionExp ∧
        (isExactId crates text = false →
          isExactId crates (versionExp.toString crates.semver) = false) := by
  obtain ⟨tag, e⟩ := versionExp
  obtain ⟨exp, hexp, he, hform⟩ := VersionExp.fromStr_eq_ok h
  obtain ⟨hcolon, hhash', hback, hsame⟩ := VersionExpType.printed laws he
  rcases hform with ⟨rfl, rfl⟩ | ⟨tag, rfl, htag, rfl⟩
  · show '#' ∉ (e.toString crates.semver).toList ∧
      VersionExp.fromStr crates.semver (e.toString crates.semver) = .ok ⟨none, e⟩ ∧
        (isExactId crates text = false → isExactId crates (e.toString crates.semver) = false)
    refine ⟨hhash', ?_, fun hexact => ?_⟩
    · rw [VersionExp.fromStr_of_not_mem hcolon, hback]
      rfl
    · rcases hsame with hsame | hsign
      · rw [hsame]
        exact hexact
      · exact isExactId_eq_false_of_sign laws hcolon hsign
  · show '#' ∉ (e.toString crates.semver ++ ":" ++ tag).toList ∧
      VersionExp.fromStr crates.semver (e.toString crates.semver ++ ":" ++ tag) =
        .ok ⟨some tag, e⟩ ∧
        (isExactId crates (exp ++ ":" ++ tag) = false →
          isExactId crates (e.toString crates.semver ++ ":" ++ tag) = false)
    refine ⟨?_, ?_, ?_⟩
    · simp only [String.toList_append, List.mem_append] at hhash ⊢
      rintro ((hmem | hmem) | hmem)
      · exact hhash' hmem
      · exact absurd hmem (by decide)
      · exact hhash (.inr hmem)
    · rw [VersionExp.fromStr_tag hcolon htag, hback]
      rfl
    · rw [isExactId_tag hexp htag, isExactId_tag hcolon htag]
      exact id

namespace PackageId

/-- A package id that was read is read back from its text. -/
theorem parse_toString (laws : crates.Lawful) {text : String} {pkgId : PackageId}
    (h : parse crates text = .ok pkgId) :
    parse crates (pkgId.toString crates) = .ok pkgId := by
  obtain ⟨name, versionExp, objid⟩ := pkgId
  obtain ⟨hname, hform⟩ := parse_eq_ok h
  dsimp only at hname hform
  rcases hform with ⟨heq, -⟩ | ⟨part, hpart, -, ⟨hexact, heq⟩ | ⟨hexact, v, hv, heq⟩⟩ |
      ⟨part, objid', hpart, hobjid, -, v, hv, heq⟩
  · cases heq
    exact parse_name hname
  · cases heq
    show parse crates (name ++ "#" ++ part) = _
    rw [parse_pair hname hpart, if_pos hexact]
  · cases heq
    obtain ⟨hhash, hback, hstays⟩ := VersionExp.printed laws hpart hv
    show parse crates (name ++ "#" ++ v.toString crates.semver) = _
    rw [parse_pair hname hhash, hstays hexact, hback]
    rfl
  · cases heq
    obtain ⟨hhash, hback, -⟩ := VersionExp.printed laws hpart hv
    show parse crates (name ++ "#" ++ v.toString crates.semver ++ "#" ++ objid') = _
    rw [parse_triple hname hhash hobjid, hback]
    rfl

/-! ## The documented forms -/

variable {name : String}

/-- The forms without a tag, each read as what it is. -/
structure ReadsForms (crates : PackageCrates) (name : String) : Prop where
  plain : parse crates name = .ok ⟨name, none, none⟩
  version : ∀ {version v}, crates.semver.parseVersion version = some v →
    parse crates (name ++ "#" ++ version) = .ok ⟨name, some ⟨none, .version v⟩, none⟩
  objid : ∀ {objid : String}, '#' ∉ objid.toList →
    (ObjId.new crates.ndn.toCrates objid).isOk = true ∨ isRawExactId objid = true →
      parse crates (name ++ "#" ++ objid) = .ok ⟨name, none, some objid⟩
  versionObjid : ∀ {version v} {objid : String}, crates.semver.parseVersion version = some v →
    '#' ∉ objid.toList →
      parse crates (name ++ "#" ++ version ++ "#" ++ objid) =
        .ok ⟨name, some ⟨none, .version v⟩, some objid⟩

theorem fromStr_version (laws : crates.Lawful) {version : String} {v : Version}
    (h : crates.semver.parseVersion version = some v) :
    VersionExp.fromStr crates.semver version = .ok ⟨none, .version v⟩ := by
  rw [VersionExp.fromStr_of_not_mem (laws.version_chars h).1,
    VersionExpType.fromStr_version laws h]
  rfl

theorem readsForms (laws : crates.Lawful) (hname : '#' ∉ name.toList) :
    ReadsForms crates name where
  plain := parse_name hname
  version := by
    intro version v h
    have hexact : isExactId crates version = false :=
      isExactId_eq_false_of_sign laws (laws.version_chars h).1
        (.inl ⟨'.', laws.version_dot h, by decide, by decide⟩)
    rw [parse_pair hname (laws.version_chars h).2, hexact, fromStr_version laws h]
    rfl
  objid := by
    intro objid hobjid h
    rw [parse_pair hname hobjid, if_pos (by simpa [isExactId] using h)]
  versionObjid := by
    intro version v objid h hobjid
    rw [parse_triple hname (laws.version_chars h).2 hobjid, fromStr_version laws h]
    rfl

/-- A tag behind an expression is read as one exactly if it does not consist of an even number
of hexadecimal digits. -/
theorem parse_tag_iff (laws : crates.Lawful) (hname : '#' ∉ name.toList) {exp tag : String}
    {e : VersionExpType} (he : VersionExpType.fromStr crates.semver exp = .ok e)
    (hcolon : ':' ∉ tag.toList) (hhash : '#' ∉ tag.toList) :
    parse crates (name ++ "#" ++ (exp ++ ":" ++ tag)) = .ok ⟨name, some ⟨some tag, e⟩, none⟩ ↔
      ¬ IsHexText tag := by
  obtain ⟨hexp, hexp'⟩ := VersionExpType.chars_of_fromStr laws he
  have hpart : '#' ∉ (exp ++ ":" ++ tag).toList := by
    simp only [String.toList_append, List.mem_append]
    rintro ((hmem | hmem) | hmem)
    · exact hexp' hmem
    · exact absurd hmem (by decide)
    · exact hhash hmem
  rw [parse_pair hname hpart, isExactId_tag hexp hcolon, VersionExp.fromStr_tag hexp hcolon, he,
    ← laws.hexDecode_isSome]
  by_cases hhex : (crates.ndn.hexDecode tag).isSome = true
  · rw [if_pos hhex]
    exact iff_of_false (by simp) (not_not_intro hhex)
  · rw [if_neg hhex]
    exact iff_of_true rfl hhex

end PackageId

/-! ## The ids of metas -/

/-- Behind the name stands alone what is an object id or a version expression, or between two
number signs stands a version expression. -/
def PackageMeta.HasPackageId (crates : PackageCrates) (pkgMeta : PackageMeta) : Prop :=
  ('#' ∉ pkgMeta.name.toList ∧ '#' ∉ pkgMeta.versionPart.toList ∧
      (isExactId crates pkgMeta.versionPart = true ∨
        (VersionExp.fromStr crates.semver pkgMeta.versionPart).isOk = true)) ∨
    ∃ first between last : String,
      '#' ∉ first.toList ∧ '#' ∉ between.toList ∧ '#' ∉ last.toList ∧
        pkgMeta.packageIdStr = first ++ "#" ++ between ++ "#" ++ last ∧
          (VersionExp.fromStr crates.semver between).isOk = true

theorem isOk_map {ε α β : Type} {x : Except ε α} {f : α → β} : (x.map f).isOk = x.isOk := by
  cases x <;> rfl

theorem isSome_toOption {ε α : Type} {x : Except ε α} : x.toOption.isSome = x.isOk := by
  cases x <;> rfl

/-- `get_package_id` returns exactly for the metas that have an id; for all others it panics. -/
theorem PackageMeta.getPackageId_isSome_iff (pkgMeta : PackageMeta) :
    (pkgMeta.getPackageId crates).isSome = true ↔ pkgMeta.HasPackageId crates := by
  unfold getPackageId
  rw [isSome_toOption]
  constructor
  · intro h
    obtain ⟨pkgId, hparse⟩ : ∃ pkgId, PackageId.parse crates pkgMeta.packageIdStr = .ok pkgId := by
      cases hparse : PackageId.parse crates pkgMeta.packageIdStr with
      | error e =>
          rw [hparse] at h
          cases h
      | ok pkgId => exact ⟨pkgId, rfl⟩
    obtain ⟨hname, hform⟩ := PackageId.parse_eq_ok hparse
    rcases hform with ⟨-, htext⟩ | ⟨part, hpart, htext, hread⟩ |
        ⟨part, objid, hpart, hobjid, htext, v, hv, -⟩
    · refine absurd (htext ▸ hname) ?_
      simp [packageIdStr]
    · have htext' : pkgMeta.name.toList ++ '#' :: pkgMeta.versionPart.toList =
          pkgId.name.toList ++ '#' :: part.toList := by
        simpa [packageIdStr] using congrArg String.toList htext
      obtain ⟨hname', hpart'⟩ := append_cons_inj_of_pair htext' hname hpart
      rw [← String.toList_injective hname'] at hname
      rw [← String.toList_injective hpart'] at hpart hread
      refine .inl ⟨hname, hpart, ?_⟩
      rcases hread with ⟨hexact, -⟩ | ⟨-, v, hv, -⟩
      · exact .inl hexact
      · exact .inr (by rw [hv]; rfl)
    · exact .inr ⟨pkgId.name, part, objid, hname, hpart, hobjid, htext, by rw [hv]; rfl⟩
  · rintro (⟨hname, hpart, hread⟩ | ⟨first, between, last, hfirst, hbetween, hlast, htext, hread⟩)
    · rw [packageIdStr, PackageId.parse_pair hname hpart]
      split_ifs with hexact
      · rfl
      · rw [isOk_map]
        exact hread.resolve_left hexact
    · rw [htext, PackageId.parse_triple hfirst hbetween hlast, isOk_map]
      exact hread

/-! ## Printing and reading -/

/-- Every package id is read back from its text.  The documented forms are read as what they
are, those with a tag exactly if the tag is no hexadecimal text.  A meta that was read has an
id exactly if its name, its version and its tag make one up. -/
theorem packageId_agree_iff (laws : crates.Lawful) :
    (∀ text pkgId, PackageId.parse crates text = .ok pkgId →
        PackageId.parse crates (pkgId.toString crates) = .ok pkgId) ∧
      (∀ name : String, '#' ∉ name.toList → PackageId.ReadsForms crates name ∧
        ∀ (exp tag : String) (e : VersionExpType),
          VersionExpType.fromStr crates.semver exp = .ok e →
            ':' ∉ tag.toList → '#' ∉ tag.toList →
              (PackageId.parse crates (name ++ "#" ++ (exp ++ ":" ++ tag)) =
                .ok ⟨name, some ⟨some tag, e⟩, none⟩ ↔ ¬ IsHexText tag)) ∧
      ∀ metaStr pkgMeta, PackageMeta.fromStr crates metaStr = .ok pkgMeta →
        ((pkgMeta.getPackageId crates).isSome = true ↔ pkgMeta.HasPackageId crates) :=
  ⟨fun _ _ h => PackageId.parse_toString laws h,
    fun _ hname => ⟨PackageId.readsForms laws hname,
      fun _ _ _ he hcolon hhash => PackageId.parse_tag_iff laws hname he hcolon hhash⟩,
    fun _ pkgMeta _ => pkgMeta.getPackageId_isSome_iff⟩

/-! ## Runs -/

/-- The least requirement that the sample crates read. -/
def sampleReq : VersionReq := ⟨[⟨.greaterEq, 1, some 0, some 0, ""⟩]⟩

/-- The sample crates; only letters, digits, dots, dashes and plus signs make up versions, and
one requirement is read. -/
def samplePackageCrates : PackageCrates where
  semver :=
    { sampleSemver with
      parseVersion := fun text => (sampleParseVersion text).filter fun _ =>
        text.toList.all fun c => c.isAlphanum || c == '.' || c == '-' || c == '+'
      parseReq := fun text => if text = ">=1.0.0" then some sampleReq else none }
  ndn := ObjId.base32Web
  documentJson := fun text =>
    match sampleWeb.jsonParse text with
    | some pkgJson => .ok pkgJson
    | none => .error "expected value"
  fileObjectName := fun pkgJson =>
    match pkgJson.get "name" with
    | some (.string name) => .ok name
    | _ => .ok ""
  invalidType := fun _ expected => "invalid type, expected " ++ expected

/-- The digits of either case. -/
theorem hexValue_isSome (c : Char) :
    (hexValue c).isSome = true ↔ c ∈ "0123456789abcdefABCDEF".toList := by
  have hlist : "0123456789abcdefABCDEF".toList =
      "0123456789".toList ++ ("abcdef".toList ++ "ABCDEF".toList) := by decide
  unfold hexValue
  rw [hlist, List.mem_append, List.mem_append]
  split_ifs with hdigit hlower hupper
  · exact iff_of_true rfl (.inl hdigit)
  · exact iff_of_true rfl (.inr (.inl hlower))
  · exact iff_of_true rfl (.inr (.inr hupper))
  · refine iff_of_false (by simp) ?_
    rintro (h | h | h)
    · exact hdigit h
    · exact hlower h
    · exact hupper h

/-- Two digits at a time. -/
theorem hexDecodeChars_isSome : ∀ text : List Char, (hexDecodeChars text).isSome = true ↔
    2 ∣ text.length ∧ ∀ c ∈ text, c ∈ "0123456789abcdefABCDEF".toList
  | [] => by simp [hexDecodeChars]
  | [_] => by simp [hexDecodeChars]
  | high :: low :: rest => by
      have hstep : (hexDecodeChars (high :: low :: rest)).isSome = true ↔
          (hexValue high).isSome = true ∧ (hexValue low).isSome = true ∧
            (hexDecodeChars rest).isSome = true := by
        rw [hexDecodeChars]
        generalize hexDecodeChars rest = bytes
        cases hexValue high <;> cases hexValue low <;> cases bytes <;> simp
      have hlength : 2 ∣ (high :: low :: rest).length ↔ 2 ∣ rest.length := by
        simp only [List.length_cons]
        omega
      rw [hstep, hexDecodeChars_isSome rest, hexValue_isSome, hexValue_isSome, hlength]
      simp only [List.forall_mem_cons]
      tauto

/-- What is read in base 32 is in its alphabet. -/
theorem isAlphanum_of_base32_decode {text : String} {bytes : List UInt8}
    (h : BitDigits.base32.decode text = some bytes) : ∀ c ∈ text.toList, c.isAlphanum = true := by
  intro c hc
  obtain ⟨bits, hbits, -⟩ := Option.map_eq_some_iff.mp h
  obtain ⟨group, hgroup⟩ := exists_mapM_eq_some_iff.mp ⟨bits, hbits⟩ c hc
  obtain ⟨n, hidx, -⟩ := Option.map_eq_some_iff.mp hgroup
  have hmem : c ∈ BitDigits.base32.alphabet := List.isSome_idxOf?.mp (by
    rw [show BitDigits.base32.alphabet.idxOf? c = some n from hidx]
    rfl)
  have hall : BitDigits.base32.alphabet.all Char.isAlphanum = true := by decide
  exact List.all_eq_true.mp hall c hmem

theorem samplePackageCrates_parseVersion {text : String} {v : Version}
    (h : samplePackageCrates.semver.parseVersion text = some v) :
    sampleParseVersion text = some v ∧ ∀ c ∈ text.toList,
      (c.isAlphanum || c == '.' || c == '-' || c == '+') = true := by
  obtain ⟨hparse, hchars⟩ := Option.filter_eq_some_iff.mp h
  exact ⟨hparse, List.all_eq_true.mp hchars⟩

theorem samplePackageCrates_parseReq {text : String} {r : VersionReq}
    (h : samplePackageCrates.semver.parseReq text = some r) :
    text = ">=1.0.0" ∧ r = sampleReq := by
  have hread : (if text = ">=1.0.0" then some sampleReq else none) = some r := h
  split_ifs at hread with htext
  exact ⟨htext, (Option.some.inj hread).symm⟩

/-- The laws of the sample crate, which the restricted parser inherits. -/
theorem sampleSemver_lawful : sampleSemver.Lawful := inferInstance

theorem samplePackageCrates_lawful : samplePackageCrates.Lawful where
  semver :=
    { print_parse := fun h =>
        sampleSemver_lawful.print_parse
          (samplePackageCrates_parseVersion h).1
      cmp_trans := sampleSemver_lawful.cmp_trans
      cmp_lawfulEq := sampleSemver_lawful.cmp_lawfulEq
      precedence_of_cmp := sampleSemver_lawful.precedence_of_cmp }
  version_dot := by
    intro text v h
    have hprint : sampleVersionToString v = text :=
      sampleSemver_lawful.print_parse
        (samplePackageCrates_parseVersion h).1
    rw [← hprint]
    simp [sampleVersionToString]
  version_chars := by
    intro text v h
    have hchars := (samplePackageCrates_parseVersion h).2
    exact ⟨fun hmem => absurd (hchars ':' hmem) (by decide),
      fun hmem => absurd (hchars '#' hmem) (by decide)⟩
  req_chars := by
    intro text r h
    rw [(samplePackageCrates_parseReq h).1]
    decide
  req_print := by
    intro text r h
    rw [(samplePackageCrates_parseReq h).2]
    decide
  req_sign := by
    intro text r h
    rw [(samplePackageCrates_parseReq h).2]
    exact .inl ⟨'>', by decide, by decide, by decide⟩
  base32_chars := fun h c hc => .inl (isAlphanum_of_base32_decode h c hc)
  base32_digits := by
    intro text bytes digits h htext
    have hsign := isAlphanum_of_base32_decode h '=' (by simp [htext])
    exact absurd hsign (by decide)
  hexDecode_isSome := fun text => hexDecodeChars_isSome text.toList

/-- The meta of a tagged version. -/
def taggedMeta (version tag : String) : Json :=
  .object [("create_time", .number (.natural 0)), ("last_update_time", .number (.natural 0)),
    ("name", .string "app"), ("version", .string version), ("version_tag", .string tag)]

theorem stableMeta_agrees :
    PackageId.parse samplePackageCrates "app#>=1.0.0:stable" =
        .ok ⟨"app", some ⟨some "stable", .req sampleReq⟩, none⟩ ∧
      PackageId.parse samplePackageCrates "app#>=1.0.0:stable" =
        PackageId.parse samplePackageCrates
          (PackageId.toString samplePackageCrates
            ⟨"app", some ⟨some "stable", .req sampleReq⟩, none⟩) ∧
      (PackageMeta.getPackageId samplePackageCrates
        ⟨"app", "1.0.0", some "stable", []⟩).isSome = true := by
  obtain ⟨hprint, hforms, hmetas⟩ := packageId_agree_iff samplePackageCrates_lawful
  have htag : PackageId.parse samplePackageCrates "app#>=1.0.0:stable" =
      .ok ⟨"app", some ⟨some "stable", .req sampleReq⟩, none⟩ :=
    ((hforms "app" (by decide)).2 ">=1.0.0" "stable" (.req sampleReq) (by decide)
      (by decide) (by decide)).mpr (by decide)
  refine ⟨htag, htag.trans (hprint _ _ htag).symm, ?_⟩
  exact (hmetas (sampleJcs (taggedMeta "1.0.0" "stable")) _ (by decide)).mpr
    (.inl ⟨by decide, by decide, .inr (by decide)⟩)

/-- A tag of hexadecimal digits is taken for an object id, and for a meta whose version is none
there is no package id. -/
theorem hexTag_misread :
    PackageId.parse samplePackageCrates "app#:beef" = .ok ⟨"app", none, some ":beef"⟩ ∧
      PackageMeta.fromStr samplePackageCrates (sampleJcs (taggedMeta "first" "stable")) =
        .ok ⟨"app", "first", some "stable", []⟩ ∧
      PackageMeta.getPackageId samplePackageCrates ⟨"app", "first", some "stable", []⟩ = none ∧
      ¬ ((∀ name tag : String, '#' ∉ name.toList → ':' ∉ tag.toList → '#' ∉ tag.toList →
        PackageId.parse samplePackageCrates (name ++ "#:" ++ tag) =
          .ok ⟨name, some ⟨some tag, .none⟩, none⟩) ∨
        ∀ metaStr pkgMeta, PackageMeta.fromStr samplePackageCrates metaStr = .ok pkgMeta →
          (pkgMeta.getPackageId samplePackageCrates).isSome = true) := by
  have htag : PackageId.parse samplePackageCrates "app#:beef" =
      .ok ⟨"app", none, some ":beef"⟩ := by decide
  have hread : PackageMeta.fromStr samplePackageCrates (sampleJcs (taggedMeta "first" "stable")) =
      .ok ⟨"app", "first", some "stable", []⟩ := by decide
  have hnone : PackageMeta.getPackageId samplePackageCrates
      ⟨"app", "first", some "stable", []⟩ = none := by decide
  refine ⟨htag, hread, hnone, ?_⟩
  rintro (hforms | hmetas)
  · have h := hforms "app" "beef" (by decide) (by decide) (by decide)
    rw [show "app" ++ "#:" ++ "beef" = "app#:beef" from rfl, htag] at h
    cases h
  · have h := hmetas _ _ hread
    rw [hnone] at h
    cases h

end PackageLib
end CyfsNdn

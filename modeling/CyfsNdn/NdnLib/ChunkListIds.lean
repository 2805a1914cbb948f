import CyfsNdn.Collections.Traverse
import CyfsNdn.NdnLib.SampleWeb

/-!
# The id of a chunk list

`gen_obj_id` of a chunk list puts the total size in front of the hash, and the generic
verifiers do not.  So they refuse every chunk list under its own id; a receiver reads the
list and generates the id again, and this id belongs to the entries of one list only.
-/

namespace CyfsNdn
namespace NdnLib

open Collections

/-- A length is never written as nothing, since another one is read back too. -/
theorem varintEncode_ne_nil {crates : Crates} (laws : crates.Lawful) {n : Nat}
    (hn : n < 2 ^ 64) : crates.varintEncode n ≠ [] := by
  intro hnil
  have hother : ∃ m, m < 2 ^ 64 ∧ m ≠ n := by
    by_cases hzero : n = 0
    · exact ⟨1, by decide, by omega⟩
    · exact ⟨0, by decide, Ne.symm hzero⟩
  obtain ⟨m, hm, hne⟩ := hother
  have hread := laws.varintDecode_varintEncode n (crates.varintEncode m ++ []) hn
  rw [hnil, List.nil_append, laws.varintDecode_varintEncode m [] hm] at hread
  exact hne (congrArg Prod.fst (Option.some.inj hread))

/-- The canonical text of a list of strings is read as this list. -/
def WebCrates.ReadsStrings (web : WebCrates) : Prop :=
  ∀ texts, web.jsonParse (web.jcs (.ofStrings texts)) = some (.ofStrings texts)

/-! ## Entries -/

/-- An id that carries its length is of a mix type. -/
theorem ChunkId.isMix_of_getLength {crates : Crates} {id : ChunkId} {size : Nat}
    (h : id.getLength crates = some size) : id.chunkType.isMix = true := by
  unfold getLength at h
  split_ifs at h with _ hmix
  exact hmix

/-- A mix type has a known name, which has no separator. -/
theorem ChunkType.known_of_isMix {chunkType : ChunkType} (h : chunkType.isMix = true) :
    ChunkType.fromStr chunkType.toString = chunkType ∧
      ChunkType.isChunkType chunkType.toString = true ∧ ':' ∉ chunkType.toString.toList := by
  cases chunkType with
  | mix256 | mix512 | qcid | mixBlake2s256 | mixKeccak256 =>
      exact ⟨rfl, rfl, by decide⟩
  | sha256 | sha512 | blake2s256 | keccak256 | unknown => cases h

/-- The entries of a list that is accepted carry their lengths. -/
theorem ChunkList.isMix_of_fromChunkList {crates : Crates} {chunks : List ChunkId}
    {list : ChunkList} (h : ChunkList.fromChunkList crates chunks = .ok list) :
    list.body = chunks ∧ ∀ id ∈ chunks, id.chunkType.isMix = true := by
  unfold fromChunkList at h
  split at h
  · cases h
  next sizes hsizes =>
  obtain rfl := Except.ok.inj h
  refine ⟨rfl, fun id hid => ?_⟩
  obtain ⟨size, -, hsize⟩ :=
    exists_mem_right_of_forall₂ (mapM_eq_some_iff_forall₂.mp hsizes) hid
  exact ChunkId.isMix_of_getLength hsize

namespace ChunkId

variable {crates : Crates} {id id' : ChunkId}

/-- A mix id is read back from its text. -/
theorem new_toString (laws : crates.Lawful) (h : id.chunkType.isMix = true) :
    ChunkId.new crates (id.toString crates) = .ok id := by
  obtain ⟨hknown, hchunk, hcolon⟩ := ChunkType.known_of_isMix h
  unfold ChunkId.new
  rw [toString_eq, ObjId.new_toString_of_colon_not_mem laws hcolon]
  dsimp only
  rw [if_pos (show id.toObjId.isChunk = true from hchunk)]
  unfold fromObjId toObjId
  dsimp only
  rw [hknown]

end ChunkId

/-! ## Lists -/

namespace ChunkList

variable {web : WebCrates} {list list' : ChunkList}

/-- The value that is hashed. -/
def value (web : WebCrates) (list : ChunkList) : Json :=
  .ofStrings (list.body.map (ChunkId.toString web.toCrates))

/-- The texts of the entries are read as the entries. -/
theorem mapM_new_toString (laws : web.Lawful) {chunks : List ChunkId}
    (h : ∀ id ∈ chunks, id.chunkType.isMix = true) :
    (chunks.map (ChunkId.toString web.toCrates)).mapM (ChunkId.new web.toCrates) =
      .ok chunks := by
  rw [mapM_eq_ok_iff_forall₂, List.forall₂_map_left_iff, List.forall₂_same]
  exact fun id hid => ChunkId.new_toString laws.crates (h id hid)

theorem stringArray_ofStrings (texts : List String) :
    (Json.ofStrings texts).stringArray = some texts := by
  unfold Json.ofStrings Json.stringArray
  dsimp only
  rw [mapM_eq_some_iff_forall₂, List.forall₂_map_left_iff, List.forall₂_same]
  exact fun _ _ => rfl

/-- The text of a list is read as this list. -/
theorem fromJson_genObjId (laws : web.Lawful) (hread : web.ReadsStrings)
    (h : ChunkList.fromChunkList web.toCrates list.body = .ok list) :
    ChunkList.fromJson web.toCrates (list.genObjId web).2 = .ok list := by
  have hparse : web.jsonParse (list.genObjId web).2 = some (list.value web) := hread _
  rw [fromJson_eq laws hparse]
  unfold fromJsonValue value
  rw [stringArray_ofStrings]
  dsimp only
  rw [mapM_new_toString laws (isMix_of_fromChunkList h).2]
  exact h

/-- The generic verifier hashes the same text without the total size. -/
theorem verifyNamedObject_eq_false (laws : web.Lawful) (list : ChunkList) {v : Json}
    (h : web.jcs v = web.jcs (list.value web)) :
    verifyNamedObject web (list.genObjId web).1 v = false := by
  unfold verifyNamedObject
  rw [decide_eq_false_iff_not]
  intro heq
  have hhash := congrArg (fun id => id.objHash.length) heq
  unfold buildNamedObjectByJson buildObjId genObjId at hhash
  dsimp only at hhash
  unfold ChunkId.mixLengthAndHashResult buildNamedObjectByJson buildObjId at hhash
  dsimp only at hhash
  change _ = (_ ++ web.digest .sha256 (utf8Bytes (web.jcs (list.value web)))).length at hhash
  rw [h, List.length_append] at hhash
  have hprefix := List.length_pos_of_ne_nil
    (varintEncode_ne_nil laws.crates (Nat.mod_lt list.totalSize (show 0 < 2 ^ 64 by decide)))
  omega

theorem verifyNamedObjectFromStr_ne_ok (laws : web.Lawful) (hread : web.ReadsStrings)
    (list : ChunkList) (v : Json) :
    verifyNamedObjectFromStr web (list.genObjId web).1 (list.genObjId web).2 ≠ .ok v := by
  have hparse : web.jsonParse (list.genObjId web).2 = some (list.value web) := hread _
  unfold verifyNamedObjectFromStr
  rw [hparse]
  dsimp only
  rw [verifyNamedObject_eq_false laws list rfl, if_neg (by simp)]
  nofun

/-- Ids of lists are equal only if their texts are. -/
theorem value_eq_of_genObjId_eq (laws : web.Lawful) (hinj : web.Injective)
    (h : (list.genObjId web).1 = (list'.genObjId web).1) :
    list.body.map (ChunkId.toString web.toCrates) =
      list'.body.map (ChunkId.toString web.toCrates) := by
  have hhash := congrArg ObjId.objHash h
  change web.varintEncode (list.totalSize % 2 ^ 64) ++
      web.digest .sha256 (utf8Bytes (web.jcs (list.value web))) =
    web.varintEncode (list'.totalSize % 2 ^ 64) ++
      web.digest .sha256 (utf8Bytes (web.jcs (list'.value web))) at hhash
  -- The digests are what the varint leaves.
  have hpos : 0 < 2 ^ 64 := by decide
  have hleft := laws.crates.varintDecode_varintEncode _
    (web.digest .sha256 (utf8Bytes (web.jcs (list.value web))))
    (Nat.mod_lt list.totalSize hpos)
  rw [hhash, laws.crates.varintDecode_varintEncode _ _ (Nat.mod_lt list'.totalSize hpos)] at hleft
  have hdigest := congrArg Prod.snd (Option.some.inj hleft)
  have htext := stringFromUtf8_utf8Bytes (web.jcs (list'.value web))
  rw [hinj .sha256 hdigest, stringFromUtf8_utf8Bytes] at htext
  exact laws.ofStrings_of_jcs_eq _ _ (Option.some.inj htext)

/-- The generic verifiers refuse the id of every list that is accepted.  The list that is
read from the text has this id again, and only lists with the same entries have it. -/
theorem genObjId_spec (laws : web.Lawful) (hinj : web.Injective) (hread : web.ReadsStrings)
    {chunks : List ChunkId} (h : ChunkList.fromChunkList web.toCrates chunks = .ok list) :
    verifyNamedObject web (list.genObjId web).1 (list.value web) = false ∧
      (∀ v, verifyNamedObjectFromStr web (list.genObjId web).1 (list.genObjId web).2 ≠
        .ok v) ∧
      (∃ received, ChunkList.fromJson web.toCrates (list.genObjId web).2 = .ok received ∧
        (received.genObjId web).1 = (list.genObjId web).1) ∧
      ∀ chunks' list', ChunkList.fromChunkList web.toCrates chunks' = .ok list' →
        ((list.genObjId web).1 = (list'.genObjId web).1 ↔ chunks = chunks') := by
  obtain ⟨hbody, hmix⟩ := isMix_of_fromChunkList h
  refine ⟨verifyNamedObject_eq_false laws list rfl, verifyNamedObjectFromStr_ne_ok laws hread list,
    ⟨list, fromJson_genObjId laws hread (hbody ▸ h), rfl⟩, fun chunks' list' h' => ?_⟩
  obtain ⟨hbody', hmix'⟩ := isMix_of_fromChunkList h'
  constructor
  · intro heq
    have htexts := value_eq_of_genObjId_eq laws hinj heq
    rw [hbody, hbody'] at htexts
    have hleft := mapM_new_toString laws hmix
    rw [htexts, mapM_new_toString laws hmix'] at hleft
    exact (Except.ok.inj hleft).symm
  · rintro rfl
    rw [h] at h'
    rw [Except.ok.inj h']

/-! ## Lists of one chunk -/

/-- The text of the list of the chunk `abc`. -/
def abcListText : String :=
  "[\"mix256:03ba7816bf8f01cfea414140de5dae2223b00361a396177a9cb410ff61f20015ad\"]"

/-- SHA-256 of this text. -/
def sha256AbcList : List UInt8 :=
  [0x2b, 0x2a, 0xe5, 0x65, 0xc6, 0xb2, 0xdb, 0x39, 0xde, 0x62, 0x89, 0xf7, 0x2e, 0x42,
    0x23, 0x82, 0xde, 0x61, 0xe7, 0x7a, 0x21, 0x9e, 0x5f, 0x52, 0x56, 0xe3, 0xda, 0xd4,
    0xff, 0x97, 0x62, 0x1c]

/-- The sample crates with this digest. -/
def abcListWeb : WebCrates :=
  { sampleWeb with
    digest := fun method bytes =>
      swapBytes (utf8Bytes abcListText) sha256AbcList (sampleWeb.digest method bytes) }

theorem abcListWeb_lawful : abcListWeb.Lawful where
  crates :=
    { hexDecode_hexEncode := sampleWeb_lawful.crates.hexDecode_hexEncode
      mem_hexEncode := sampleWeb_lawful.crates.mem_hexEncode
      varintDecode_varintEncode := sampleWeb_lawful.crates.varintDecode_varintEncode }
  jsonStringArray_eq := sampleWeb_lawful.jsonStringArray_eq
  descend_of_jcs_eq := sampleWeb_lawful.descend_of_jcs_eq
  ofStrings_of_jcs_eq := sampleWeb_lawful.ofStrings_of_jcs_eq
  content_of_fileObject := sampleWeb_lawful.content_of_fileObject
  fileObject_plainFile := sampleWeb_lawful.fileObject_plainFile
  jsonParse_jcs_plainFile := sampleWeb_lawful.jsonParse_jcs_plainFile

theorem abcListWeb_injective : abcListWeb.Injective := fun method =>
  (swapBytes_injective _ _).comp (sampleWeb_injective method)

theorem abcListWeb_readsStrings : abcListWeb.ReadsStrings := fun texts =>
  sampleJsonParse_sampleJcs (.ofStrings texts)

theorem abcList_fromChunkList :
    ChunkList.fromChunkList abcListWeb.toCrates [abcChunk] = .ok ⟨3, [abcChunk]⟩ := by
  decide

/-- The list with the chunk twice. -/
theorem abcTwice_fromChunkList :
    ChunkList.fromChunkList abcListWeb.toCrates [abcChunk, abcChunk] =
      .ok ⟨6, [abcChunk, abcChunk]⟩ := by
  decide

/-- Both lists are refused and read back, and their ids differ. -/
theorem abcLists_ids :
    let once : ChunkList := ⟨3, [abcChunk]⟩
    let twice : ChunkList := ⟨6, [abcChunk, abcChunk]⟩
    (∀ list ∈ [once, twice],
      verifyNamedObject abcListWeb (list.genObjId abcListWeb).1 (list.value abcListWeb) = false ∧
        (∀ v, verifyNamedObjectFromStr abcListWeb (list.genObjId abcListWeb).1
          (list.genObjId abcListWeb).2 ≠ .ok v) ∧
        ∃ received, ChunkList.fromJson abcListWeb.toCrates (list.genObjId abcListWeb).2 =
            .ok received ∧
          (received.genObjId abcListWeb).1 = (list.genObjId abcListWeb).1) ∧
      (once.genObjId abcListWeb).1 ≠ (twice.genObjId abcListWeb).1 := by
  intro once twice
  obtain ⟨hrefused, hfromStr, hagain, honly⟩ := genObjId_spec abcListWeb_lawful
    abcListWeb_injective abcListWeb_readsStrings abcList_fromChunkList
  obtain ⟨hrefused', hfromStr', hagain', -⟩ := genObjId_spec abcListWeb_lawful
    abcListWeb_injective abcListWeb_readsStrings abcTwice_fromChunkList
  constructor
  · intro list hlist
    simp only [List.mem_cons, List.not_mem_nil, or_false] at hlist
    rcases hlist with rfl | rfl
    · exact ⟨hrefused, hfromStr, hagain⟩
    · exact ⟨hrefused', hfromStr', hagain'⟩
  · intro heq
    have hsame := (honly _ twice abcTwice_fromChunkList).mp heq
    revert hsame
    decide

/-- The pair that is generated for an accepted list passes neither verifier. -/
theorem abcList_not_verified :
    ChunkList.fromChunkList abcListWeb.toCrates [abcChunk] = .ok ⟨3, [abcChunk]⟩ ∧
      ((⟨3, [abcChunk]⟩ : ChunkList).genObjId abcListWeb) =
        (⟨"clist", 3 :: sha256AbcList⟩, abcListText) ∧
      ¬ (verifyNamedObject abcListWeb ⟨"clist", 3 :: sha256AbcList⟩
            ((⟨3, [abcChunk]⟩ : ChunkList).value abcListWeb) = true ∧
          (verifyNamedObjectFromStr abcListWeb ⟨"clist", 3 :: sha256AbcList⟩
            abcListText).isOk = true) := by
  decide

end ChunkList
end NdnLib
end CyfsNdn

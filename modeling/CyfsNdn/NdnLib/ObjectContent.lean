import CyfsNdn.NdnLib.Json

/-!
# The content of an object

What the content of a chunk, of a chunk list and of a file object is, as chunks with
their bytes.  If hashes do not collide an id has at most one content, and a field path
leads from an object of one id to at most one other id.
-/

namespace CyfsNdn
namespace NdnLib

/-- Chunks in order, each with its bytes. -/
abbrev Pieces := List (ChunkId × List UInt8)

/-- The bytes of all pieces in order. -/
def Pieces.bytes (pieces : Pieces) : List UInt8 :=
  pieces.flatMap Prod.snd

/-- Each piece has the hash that its id names. -/
def Pieces.Hash (crates : Crates) (pieces : Pieces) : Prop :=
  ∀ piece ∈ pieces, piece.1.Hashes crates piece.2

/-- The chunks of a chunk, which is one, or of a chunk list. -/
inductive BodyChunks (web : WebCrates) : ObjId → List ChunkId → Prop where
  | chunk {id : ObjId} (hid : id.isChunk = true) : BodyChunks web id [ChunkId.fromObjId id]
  | chunkList {id : ObjId} {list : ChunkList} (hid : (list.genObjId web).1 = id) :
      BodyChunks web id list.body

/-- The chunks that a chunk, a chunk list or a file object consists of. -/
inductive ContentChunks (web : WebCrates) : ObjId → List ChunkId → Prop where
  | body {id : ObjId} {chunks : List ChunkId} (h : BodyChunks web id chunks) :
      ContentChunks web id chunks
  | file {id contentId : ObjId} {v : Json} {fileObj : FileObject} {chunks : List ChunkId}
      (htype : id.objType = "cyfile") (hv : v.Named web id)
      (hfile : web.fileObject v = some fileObj)
      (hcontent : ObjId.new web.toCrates fileObj.content = .ok contentId)
      (h : BodyChunks web contentId chunks) : ContentChunks web id chunks

/-- The pieces are the content of the object. -/
def Content (web : WebCrates) (id : ObjId) (pieces : Pieces) : Prop :=
  ContentChunks web id (pieces.map Prod.fst) ∧ pieces.Hash web.toCrates

theorem utf8Bytes_injective {s t : String} (h : utf8Bytes s = utf8Bytes t) : s = t := by
  unfold utf8Bytes at h
  have hdata : s.toByteArray.data = t.toByteArray.data := Array.toList_inj.mp h
  exact String.toByteArray_inj.mp (ByteArray.ext hdata)

/-- What is hashed for a chunk list is a chunk list, and not a chunk. -/
theorem ChunkList.objType_genObjId (web : WebCrates) (list : ChunkList) :
    (list.genObjId web).1.objType = "clist" := rfl

theorem ObjId.isChunk_of_objType_eq_clist {id : ObjId} (h : id.objType = "clist") :
    id.isChunk = false := by
  simp [ObjId.isChunk, ChunkType.isChunkType, h]

theorem ObjId.isChunk_of_objType_eq_cyfile {id : ObjId} (h : id.objType = "cyfile") :
    id.isChunk = false := by
  simp [ObjId.isChunk, ChunkType.isChunkType, h]

section Unique

variable {web : WebCrates}

/-- Known chunk ids of one text are equal. -/
theorem ChunkId.eq_of_toString (laws : web.Lawful) {id id' : ChunkId} (h : id.Known)
    (h' : id'.Known) (htext : id.toString web.toCrates = id'.toString web.toCrates) :
    id = id' :=
  h.eq_of_toObjId h' (ObjId.toString_injective laws.crates htext)

/-- Two byte strings with the hash of one id are equal. -/
theorem ChunkId.Hashes.eq (laws : web.Lawful) (hinj : web.Injective) {id : ChunkId}
    {bytes bytes' : List UInt8} (h : id.Hashes web.toCrates bytes)
    (h' : id.Hashes web.toCrates bytes') (hlen : bytes.length < 2 ^ 64)
    (hlen' : bytes'.length < 2 ^ 64) : bytes = bytes' := by
  unfold ChunkId.Hashes ChunkHasher.calcChunkId at h h'
  split at h
  · cases h
  next method hmethod =>
  simp only [hmethod] at h'
  split at h
  · cases h
  next hasher hhasher =>
  simp only [hhasher] at h'
  unfold ChunkHasher.finalizeChunkId at h h'
  split at h
  · cases h
  next chunkType htype =>
  simp only [htype] at h'
  by_cases hmix : id.chunkType.isMix = true
  · -- The length is in front of the digest and is read back.
    rw [if_pos hmix] at h h'
    have heq := (Except.ok.inj h).trans (Except.ok.inj h').symm
    have hhash := congrArg ChunkId.hashResult heq
    simp only [ChunkId.fromMixHashResult, ChunkId.mixLengthAndHashResult] at hhash
    have hread := laws.crates.varintDecode_varintEncode bytes.length
      (web.digest hasher bytes) hlen
    rw [hhash, laws.crates.varintDecode_varintEncode _ _ hlen'] at hread
    exact hinj hasher (Prod.mk.inj (Option.some.inj hread)).2.symm
  · rw [if_neg hmix] at h h'
    have heq := (Except.ok.inj h).trans (Except.ok.inj h').symm
    exact hinj hasher (congrArg ChunkId.hashResult heq)

/-- Pieces of the same chunks have the same bytes. -/
theorem Pieces.eq_of_map_fst (laws : web.Lawful) (hinj : web.Injective) {pieces pieces' : Pieces}
    (hfst : pieces.map Prod.fst = pieces'.map Prod.fst) (h : pieces.Hash web.toCrates)
    (h' : pieces'.Hash web.toCrates) (hlen : pieces.bytes.length < 2 ^ 64)
    (hlen' : pieces'.bytes.length < 2 ^ 64) : pieces = pieces' := by
  induction pieces generalizing pieces' with
  | nil =>
      symm
      simpa using hfst.symm
  | cons piece rest ih =>
      cases pieces' with
      | nil => cases hfst
      | cons piece' rest' =>
          simp only [List.map_cons, List.cons.injEq] at hfst
          simp only [Pieces.bytes, List.flatMap_cons, List.length_append] at hlen hlen'
          have hrest : rest = rest' :=
            ih hfst.2 (fun p hp => h p (List.mem_cons_of_mem _ hp))
              (fun p hp => h' p (List.mem_cons_of_mem _ hp))
              (by unfold Pieces.bytes; omega) (by unfold Pieces.bytes; omega)
          have hhead := h piece List.mem_cons_self
          have hhead' := h' piece' List.mem_cons_self
          rw [← hfst.1] at hhead'
          have hbytes := hhead.eq laws hinj hhead' (by omega) (by omega)
          rw [hrest, Prod.ext hfst.1 hbytes]

/-- The id of a chunk list determines the texts of its chunks. -/
theorem ChunkList.texts_eq_of_genObjId (laws : web.Lawful) (hinj : web.Injective)
    {list list' : ChunkList} (h : (list.genObjId web).1 = (list'.genObjId web).1) :
    list.body.map (ChunkId.toString web.toCrates) =
      list'.body.map (ChunkId.toString web.toCrates) := by
  have hhash := congrArg ObjId.objHash h
  simp only [ChunkList.genObjId, ChunkId.mixLengthAndHashResult, buildNamedObjectByJson,
    buildObjId] at hhash
  have hread := laws.crates.varintDecode_varintEncode (list.totalSize % 2 ^ 64)
    (web.digest .sha256 (utf8Bytes (web.jcs (Json.ofStrings (list.body.map
      (ChunkId.toString web.toCrates)))))) (Nat.mod_lt _ (by norm_num))
  rw [hhash, laws.crates.varintDecode_varintEncode _ _ (Nat.mod_lt _ (by norm_num))] at hread
  have hdigest := (Prod.mk.inj (Option.some.inj hread)).2
  have htext := utf8Bytes_injective (hinj .sha256 hdigest)
  exact (laws.ofStrings_of_jcs_eq _ _ htext).symm

/-- Chunk lists of one id have the same chunks, where these are known. -/
theorem ChunkList.body_eq_of_genObjId (laws : web.Lawful) (hinj : web.Injective)
    {list list' : ChunkList} (h : (list.genObjId web).1 = (list'.genObjId web).1)
    (hknown : ∀ id ∈ list.body, id.Known) (hknown' : ∀ id ∈ list'.body, id.Known) :
    list.body = list'.body := by
  have htexts := ChunkList.texts_eq_of_genObjId laws hinj h
  generalize list.body = body at htexts hknown ⊢
  generalize list'.body = body' at htexts hknown' ⊢
  induction body generalizing body' with
  | nil =>
      symm
      simpa using htexts.symm
  | cons id rest ih =>
      cases body' with
      | nil => cases htexts
      | cons id' rest' =>
          simp only [List.map_cons, List.cons.injEq] at htexts
          rw [ChunkId.eq_of_toString laws (hknown id List.mem_cons_self)
            (hknown' id' List.mem_cons_self) htexts.1,
            ih (fun i hi => hknown i (List.mem_cons_of_mem _ hi)) rest' htexts.2
              (fun i hi => hknown' i (List.mem_cons_of_mem _ hi))]

theorem Pieces.Hash.known {pieces : Pieces} (h : pieces.Hash web.toCrates) :
    ∀ id ∈ pieces.map Prod.fst, id.Known := by
  intro id hid
  obtain ⟨piece, hpiece, rfl⟩ := List.mem_map.mp hid
  exact (h piece hpiece).known

/-- A chunk or a chunk list consists of one list of chunks. -/
theorem BodyChunks.eq (laws : web.Lawful) (hinj : web.Injective) {id : ObjId}
    {chunks chunks' : List ChunkId} (h : BodyChunks web id chunks)
    (h' : BodyChunks web id chunks') (hknown : ∀ chunk ∈ chunks, chunk.Known)
    (hknown' : ∀ chunk ∈ chunks', chunk.Known) : chunks = chunks' := by
  cases h with
  | chunk hid =>
      cases h' with
      | chunk hid' => rfl
      | chunkList hid' =>
          rw [ObjId.isChunk_of_objType_eq_clist (by rw [← hid']; rfl)] at hid
          cases hid
  | chunkList hid =>
      cases h' with
      | chunk hid' =>
          rw [ObjId.isChunk_of_objType_eq_clist (by rw [← hid]; rfl)] at hid'
          cases hid'
      | chunkList hid' =>
          exact ChunkList.body_eq_of_genObjId laws hinj (hid.trans hid'.symm) hknown hknown'

/-- A chunk or a chunk list is no file object. -/
theorem BodyChunks.objType_ne {id : ObjId} {chunks : List ChunkId}
    (h : BodyChunks web id chunks) : id.objType ≠ "cyfile" := by
  intro htype
  cases h with
  | chunk hid =>
      rw [ObjId.isChunk_of_objType_eq_cyfile htype] at hid
      cases hid
  | chunkList hid =>
      rw [← hid, ChunkList.objType_genObjId] at htype
      exact absurd htype (by decide)

/-- Objects of one id that are no chunk lists have one canonical text. -/
theorem Json.jcs_eq_of_named (hinj : web.Injective) {id : ObjId} {v w : Json}
    (hid : id.objType ≠ "clist") (hv : v.Named web id) (hw : w.Named web id) :
    web.jcs v = web.jcs w := by
  unfold Json.Named at hv hw
  rw [if_neg hid] at hv hw
  have hhash := congrArg ObjId.objHash (hv.trans hw.symm)
  exact utf8Bytes_injective (hinj .sha256 hhash)

/-- Objects of one id that are no chunk lists have the same content field. -/
theorem fileObject_content_eq (laws : web.Lawful) {v w : Json} {file file' : FileObject}
    (hjcs : web.jcs v = web.jcs w) (hv : web.fileObject v = some file)
    (hw : web.fileObject w = some file') : file.content = file'.content := by
  rcases laws.content_of_fileObject v file hv with hcontent | ⟨hnone, hempty⟩
  · have hother := laws.descend_of_jcs_eq v w hjcs _ _ hcontent
    rcases laws.content_of_fileObject w file' hw with hcontent' | ⟨hnone', -⟩
    · rw [hother] at hcontent'
      exact Json.string.inj (Option.some.inj hcontent')
    · rw [hother] at hnone'
      cases hnone'
  · rcases laws.content_of_fileObject w file' hw with hcontent' | ⟨-, hempty'⟩
    · rw [laws.descend_of_jcs_eq w v hjcs.symm _ _ hcontent'] at hnone
      cases hnone
    · rw [hempty, hempty']

/-- An object consists of one list of chunks. -/
theorem ContentChunks.eq (laws : web.Lawful) (hinj : web.Injective) {id : ObjId}
    {chunks chunks' : List ChunkId} (h : ContentChunks web id chunks)
    (h' : ContentChunks web id chunks') (hknown : ∀ chunk ∈ chunks, chunk.Known)
    (hknown' : ∀ chunk ∈ chunks', chunk.Known) : chunks = chunks' := by
  cases h with
  | body h =>
      cases h' with
      | body h' => exact h.eq laws hinj h' hknown hknown'
      | file htype _ _ _ _ => exact absurd htype h.objType_ne
  | file htype hv hfile hcontent h =>
      cases h' with
      | body h' => exact absurd htype h'.objType_ne
      | file htype' hv' hfile' hcontent' h' =>
          have hjcs := Json.jcs_eq_of_named hinj (by rw [htype]; decide) hv hv'
          rw [fileObject_content_eq laws hjcs hfile hfile', hcontent'] at hcontent
          obtain rfl := Except.ok.inj hcontent
          exact h.eq laws hinj h' hknown hknown'

/-- An id has at most one content. -/
theorem Content.eq (laws : web.Lawful) (hinj : web.Injective) {id : ObjId}
    {pieces pieces' : Pieces} (h : Content web id pieces) (h' : Content web id pieces')
    (hlen : pieces.bytes.length < 2 ^ 64) (hlen' : pieces'.bytes.length < 2 ^ 64) :
    pieces = pieces' :=
  Pieces.eq_of_map_fst laws hinj (h.1.eq laws hinj h'.1 h.2.known h'.2.known) h.2 h'.2 hlen hlen'

end Unique

end NdnLib
end CyfsNdn

import CyfsNdn.NdnLib.SampleWeb

/-!
# Quick hashes of readers and of buffers

`calc_quick_hash` reads its pieces out of a seekable reader and
`calc_quick_hash_by_buffer` is given them.  The second one hashes the last piece too, so
the two never give one id, and the first one does not see a change at the end.
-/

namespace CyfsNdn
namespace NdnLib

/-- A reader that can seek: what it reads, and where it stands. -/
structure SeekableReader where
  content : List UInt8
  position : Nat
  deriving DecidableEq, Repr

namespace SeekableReader

/-- `seek(SeekFrom::Start(offset))`. -/
def seekStart (reader : SeekableReader) (offset : Nat) : SeekableReader :=
  { reader with position := offset }

/-- `seek(SeekFrom::End(0))`, and the length that it returns. -/
def seekEnd (reader : SeekableReader) : SeekableReader × Nat :=
  ({ reader with position := reader.content.length }, reader.content.length)

/-- `read_exact` into a buffer of this size. -/
def readExact (reader : SeekableReader) (size : Nat) :
    SeekableReader × NdnResult (List UInt8) :=
  let bytes := (reader.content.drop reader.position).take size
  if bytes.length < size then
    ({ reader with position := reader.position + bytes.length },
      .error (.ioError "early eof"))
  else ({ reader with position := reader.position + size }, .ok bytes)

/-- The first lines of `calc_quick_hash`: the length, found by seeking if it is not
given. -/
def quickHashLength (reader : SeekableReader) : Option Nat → SeekableReader × Nat
  | some length => (reader, length)
  | none => (reader.seekEnd.1.seekStart 0, reader.seekEnd.2)

/-- `calc_quick_hash`: the reader afterwards and the answer. -/
def calcQuickHash (crates : Crates) (reader : SeekableReader) (length : Option Nat) :
    SeekableReader × NdnResult ChunkId :=
  let (reader, length) := reader.quickHashLength length
  if length < minQcidFileSize then
    (reader, .error (.internal "quick hash error: item size is too small"))
  else
    match reader.readExact qcidHashPieceSize with
    | (reader, .error e) => (reader, .error e)
    | (reader, .ok first) =>
        match (reader.seekStart (length / 2)).readExact qcidHashPieceSize with
        | (reader, .error e) => (reader, .error e)
        | (reader, .ok middle) =>
            (reader, .ok (ChunkId.fromMixHashResult crates length
              (crates.digest .sha256 (first ++ middle)) .qcid))

end SeekableReader

/-- `calc_quick_hash_by_buffer`. -/
def calcQuickHashByBuffer (crates : Crates) (bufferBegin bufferMid bufferEnd : List UInt8)
    (length : Nat) : NdnResult ChunkId :=
  if bufferBegin.length ≠ qcidHashPieceSize ∨ bufferMid.length ≠ qcidHashPieceSize ∨
      bufferEnd.length ≠ qcidHashPieceSize then
    .error (.internal "cacl quick hash buffer part length must be 4096")
  else
    .ok (ChunkId.fromMixHashResult crates length
      (crates.digest .sha256 (bufferBegin ++ bufferMid ++ bufferEnd)) .qcid)

/-! ## The pieces -/

namespace QuickHash

/-- The first piece. -/
def first (content : List UInt8) : List UInt8 := content.take qcidHashPieceSize

/-- The piece from the middle on. -/
def middle (content : List UInt8) : List UInt8 :=
  (content.drop (content.length / 2)).take qcidHashPieceSize

/-- The last piece. -/
def last (content : List UInt8) : List UInt8 :=
  content.drop (content.length - qcidHashPieceSize)

/-- What the function over a reader at the start of the content returns. -/
def ofReader (crates : Crates) (content : List UInt8) (length : Option Nat) :
    NdnResult ChunkId :=
  (SeekableReader.calcQuickHash crates ⟨content, 0⟩ length).2

/-- What the function over the three pieces of the content returns. -/
def ofBuffers (crates : Crates) (content : List UInt8) : NdnResult ChunkId :=
  calcQuickHashByBuffer crates (first content) (middle content) (last content)
    content.length

section Long

variable {crates : Crates} {content : List UInt8}

theorem length_first (h : minQcidFileSize ≤ content.length) :
    (first content).length = qcidHashPieceSize := by
  unfold first minQcidFileSize at *
  rw [List.length_take]
  omega

theorem length_middle (h : minQcidFileSize ≤ content.length) :
    (middle content).length = qcidHashPieceSize := by
  unfold middle minQcidFileSize at *
  rw [List.length_take, List.length_drop]
  omega

theorem length_last (h : minQcidFileSize ≤ content.length) :
    (last content).length = qcidHashPieceSize := by
  unfold last minQcidFileSize at *
  rw [List.length_drop]
  omega

/-- The length is not asked for or it is the one of the content. -/
def RightLength (content : List UInt8) (length : Option Nat) : Prop :=
  length = none ∨ length = some content.length

theorem quickHashLength_eq {length : Option Nat} (hlength : RightLength content length) :
    SeekableReader.quickHashLength ⟨content, 0⟩ length = (⟨content, 0⟩, content.length) := by
  rcases hlength with rfl | rfl <;> rfl

/-- A whole piece is read. -/
theorem readExact_eq {position : Nat}
    (h : ((content.drop position).take qcidHashPieceSize).length = qcidHashPieceSize) :
    SeekableReader.readExact ⟨content, position⟩ qcidHashPieceSize =
      (⟨content, position + qcidHashPieceSize⟩,
        .ok ((content.drop position).take qcidHashPieceSize)) := by
  unfold SeekableReader.readExact
  dsimp only
  rw [if_neg (by omega)]

/-- The reader gives the first piece and the middle one to the hasher. -/
theorem ofReader_eq (h : minQcidFileSize ≤ content.length) {length : Option Nat}
    (hlength : RightLength content length) :
    ofReader crates content length = .ok (ChunkId.fromMixHashResult crates content.length
      (crates.digest .sha256 (first content ++ middle content)) .qcid) := by
  have hfirst : ((content.drop 0).take qcidHashPieceSize).length = qcidHashPieceSize :=
    length_first h
  unfold ofReader SeekableReader.calcQuickHash
  rw [quickHashLength_eq hlength]
  dsimp only
  rw [if_neg (Nat.not_lt.mpr h), readExact_eq hfirst]
  dsimp only
  unfold SeekableReader.seekStart
  dsimp only
  rw [readExact_eq (length_middle h)]
  rfl

/-- The buffers are hashed with the last one. -/
theorem ofBuffers_eq (h : minQcidFileSize ≤ content.length) :
    ofBuffers crates content = .ok (ChunkId.fromMixHashResult crates content.length
      (crates.digest .sha256 (first content ++ middle content ++ last content)) .qcid) := by
  unfold ofBuffers calcQuickHashByBuffer
  rw [length_first h, length_middle h, length_last h, if_neg (by simp)]

end Long

/-- Ids of one length are equal where the hashed bytes are. -/
theorem mixHash_eq_iff {web : WebCrates} (hinj : web.Injective) {n : Nat}
    {bytes bytes' : List UInt8} :
    (.ok (ChunkId.fromMixHashResult web.toCrates n (web.digest .sha256 bytes) .qcid) :
        NdnResult ChunkId) =
      .ok (ChunkId.fromMixHashResult web.toCrates n (web.digest .sha256 bytes') .qcid) ↔
      bytes = bytes' := by
  constructor
  · intro heq
    have hhash := congrArg ChunkId.hashResult (Except.ok.inj heq)
    exact hinj .sha256 (List.append_cancel_left hhash)
  · rintro rfl
    rfl

/-- Two pieces of given lengths are equal where what they make together is. -/
theorem pieces_eq_iff {xs xs' ys ys' : List UInt8} (h : xs.length = xs'.length) :
    xs ++ ys = xs' ++ ys' ↔ xs = xs' ∧ ys = ys' :=
  ⟨fun heq => List.append_inj heq h, fun heq => heq.1 ▸ heq.2 ▸ rfl⟩

section Contents

variable {web : WebCrates} {content content' : List UInt8}

/-- Readers of contents of one length give one id exactly when the first and the middle
pieces agree. -/
theorem ofReader_eq_iff (hinj : web.Injective) (h : minQcidFileSize ≤ content.length)
    (hsame : content'.length = content.length) {length : Option Nat}
    (hlength : RightLength content length) :
    ofReader web.toCrates content length = ofReader web.toCrates content' length ↔
      first content = first content' ∧ middle content = middle content' := by
  have h' : minQcidFileSize ≤ content'.length := hsame ▸ h
  have hlength' : RightLength content' length := by
    unfold RightLength at hlength ⊢
    rwa [hsame]
  rw [ofReader_eq h hlength, ofReader_eq h' hlength', hsame, mixHash_eq_iff hinj,
    pieces_eq_iff ((length_first h).trans (length_first h').symm)]

/-- Buffers of contents of one length give one id exactly when all pieces agree. -/
theorem ofBuffers_eq_iff (hinj : web.Injective) (h : minQcidFileSize ≤ content.length)
    (hsame : content'.length = content.length) :
    ofBuffers web.toCrates content = ofBuffers web.toCrates content' ↔
      first content = first content' ∧ middle content = middle content' ∧
        last content = last content' := by
  have h' : minQcidFileSize ≤ content'.length := hsame ▸ h
  have hfirst := (length_first h).trans (length_first h').symm
  have hmiddle := (length_middle h).trans (length_middle h').symm
  rw [ofBuffers_eq h, ofBuffers_eq h', hsame, mixHash_eq_iff hinj, List.append_assoc,
    List.append_assoc, pieces_eq_iff hfirst, pieces_eq_iff hmiddle]

/-- The reader hashes less than the buffers. -/
theorem ofReader_ne_ofBuffers (hinj : web.Injective) (h : minQcidFileSize ≤ content.length)
    {length : Option Nat} (hlength : RightLength content length) :
    ofReader web.toCrates content length ≠ ofBuffers web.toCrates content := by
  rw [ofReader_eq h hlength, ofBuffers_eq h, ne_eq, mixHash_eq_iff hinj]
  intro heq
  have hlengths := congrArg List.length heq
  simp only [List.length_append, length_last h] at hlengths
  unfold qcidHashPieceSize at hlengths
  omega

/-- The two functions agree on no content.  Over buffers all three pieces count; over a
reader the last one does not. -/
theorem quickHashes_differ (hinj : web.Injective) (h : minQcidFileSize ≤ content.length)
    {length : Option Nat} (hlength : RightLength content length) :
    ofReader web.toCrates content length ≠ ofBuffers web.toCrates content ∧
      ∀ content' : List UInt8, content'.length = content.length →
        (ofReader web.toCrates content length = ofReader web.toCrates content' length ↔
          first content = first content' ∧ middle content = middle content') ∧
        (ofBuffers web.toCrates content = ofBuffers web.toCrates content' ↔
          first content = first content' ∧ middle content = middle content' ∧
            last content = last content') :=
  ⟨ofReader_ne_ofBuffers hinj h hlength, fun _ hsame =>
    ⟨ofReader_eq_iff hinj h hsame hlength, ofBuffers_eq_iff hinj h hsame⟩⟩

/-- The shortest content that has a quick hash, of zeros. -/
def zeros : List UInt8 := List.replicate minQcidFileSize 0

theorem length_zeros : zeros.length = minQcidFileSize := List.length_replicate

theorem zeros_quickHashes_differ :
    ofReader sampleWeb.toCrates zeros none ≠ ofBuffers sampleWeb.toCrates zeros :=
  (quickHashes_differ sampleWeb_injective length_zeros.ge (.inl rfl)).1

/-- Zeros, and a one at their end. -/
def zerosOne : List UInt8 := List.replicate (minQcidFileSize - 1) 0 ++ [1]

/-- The last byte of `zeros` is changed: the ids over readers are equal, and neither is
the one over the buffers. -/
theorem last_byte_unseen :
    zeros.length = zerosOne.length ∧ last zeros ≠ last zerosOne ∧
      ofReader sampleWeb.toCrates zeros none = ofReader sampleWeb.toCrates zerosOne none ∧
      ofReader sampleWeb.toCrates zeros none ≠ ofBuffers sampleWeb.toCrates zeros := by
  have hlength : zerosOne.length = zeros.length := by
    unfold zerosOne zeros
    rw [List.length_append, List.length_replicate, List.length_replicate]
    rfl
  have hzeros : zeros = List.replicate (minQcidFileSize - 1) 0 ++ [0] := by
    unfold zeros
    rw [← List.replicate_succ']
    rfl
  refine ⟨hlength.symm, ?_, ?_,
    ofReader_ne_ofBuffers sampleWeb_injective length_zeros.ge (.inl rfl)⟩
  · unfold last
    rw [hlength, length_zeros, hzeros]
    unfold zerosOne
    have hskip : minQcidFileSize - qcidHashPieceSize ≤
        (List.replicate (minQcidFileSize - 1) (0 : UInt8)).length := by
      rw [List.length_replicate]
      decide
    rw [List.drop_append_of_le_length hskip, List.drop_append_of_le_length hskip]
    intro heq
    have hend := List.append_cancel_left heq
    cases hend
  · rw [ofReader_eq_iff sampleWeb_injective length_zeros.ge hlength (.inl rfl)]
    have hpiece : ∀ position, position + qcidHashPieceSize ≤ minQcidFileSize - 1 →
        (zeros.drop position).take qcidHashPieceSize =
          (zerosOne.drop position).take qcidHashPieceSize := by
      intro position hposition
      rw [hzeros]
      unfold zerosOne
      rw [List.drop_append_of_le_length (by rw [List.length_replicate]; omega),
        List.drop_append_of_le_length (by rw [List.length_replicate]; omega),
        List.take_append_of_le_length (by rw [List.length_drop, List.length_replicate]; omega),
        List.take_append_of_le_length (by rw [List.length_drop, List.length_replicate]; omega)]
    constructor
    · exact hpiece 0 (by decide)
    · unfold middle
      rw [hlength, length_zeros]
      exact hpiece _ (by decide)

end Contents

end QuickHash
end NdnLib
end CyfsNdn

import CyfsNdn.NamedStore.DiffChunkListWriter

/-!
# The tables of a writer

Whatever the stores deliver, and also after a call that failed, the tables of a writer
stay `Sound`: the copies are as long as the sizes say, and the total is the sum of the
sizes as far as `u64` goes.  No base chunk but the last one gets another size.
-/

namespace CyfsNdn
namespace NamedStore
namespace DiffChunkListWriter

open NdnLib Collections

variable {web : WebCrates} {world : WriterWorld} {writer : DiffChunkListWriter}

/-! ## Brought to a size -/

theorem resize_of_le {chunk : List UInt8} {size : Nat} (h : chunk.length ≤ size) :
    resize chunk size = chunk ++ List.replicate (size - chunk.length) 0 := by
  unfold resize
  rw [List.take_of_length_le h]

@[simp] theorem length_resize (chunk : List UInt8) (size : Nat) :
    (resize chunk size).length = size := by
  unfold resize
  rw [List.length_append, List.length_take, List.length_replicate]
  omega

@[simp] theorem resize_length (chunk : List UInt8) : resize chunk chunk.length = chunk := by
  rw [resize_of_le le_rfl, Nat.sub_self, List.replicate_zero, List.append_nil]

theorem resize_resize (chunk : List UInt8) (size : Nat) :
    resize (resize chunk size) size = resize chunk size := by
  have hlength := resize_length (resize chunk size)
  rwa [length_resize] at hlength

/-! ## Locating -/

/-- The loop finds the chunk of the position, although its sums stop at the largest
`u64`. -/
theorem locateFrom_eq_some_iff {sizes : List Nat} {position first start : Nat}
    (hposition : position < u64Max) (hstart : start ≤ position) {index offset : Nat} :
    locateFrom position first start sizes = some (index, offset) ↔
      ∃ i, index = first + i ∧ Locates sizes (position - start) i offset := by
  induction sizes generalizing first start with
  | nil =>
      refine iff_of_false nofun ?_
      rintro ⟨i, -, hlocates⟩
      exact absurd hlocates.lt (Nat.not_lt_zero i)
  | cons size rest ih =>
      unfold locateFrom
      dsimp only
      have hsucc : ∀ i, startOf (size :: rest) (i + 1) = size + startOf rest i := by
        intro i
        unfold startOf
        rw [List.take_succ_cons, List.sum_cons]
      by_cases hinside : position < start + size
      · rw [if_pos (by unfold saturatingAdd; omega)]
        have hhere : Locates (size :: rest) (position - start) 0 (position - start) :=
          ⟨Nat.zero_lt_succ _, by rw [startOf_zero, Nat.zero_add], by
            rw [List.getElem_cons_zero]
            omega⟩
        constructor
        · intro h
          obtain ⟨rfl, rfl⟩ := Prod.mk.inj (Option.some.inj h)
          exact ⟨0, rfl, hhere⟩
        · rintro ⟨i, rfl, hlocates⟩
          obtain ⟨rfl, rfl⟩ := hhere.unique hlocates
          rfl
      · have hend : saturatingAdd start size = start + size := saturatingAdd_eq (by omega)
        rw [hend, if_neg hinside, ih (by omega)]
        constructor
        · rintro ⟨i, rfl, hlocates⟩
          refine ⟨i + 1, by omega, ?_, ?_, ?_⟩
          · exact Nat.succ_lt_succ hlocates.lt
          · rw [hsucc]
            have hposition := hlocates.position_eq
            omega
          · rw [List.getElem_cons_succ]
            exact hlocates.offset_lt
        · rintro ⟨i, rfl, hlocates⟩
          cases i with
          | zero =>
              have hposition := hlocates.position_eq
              have hoffset := hlocates.offset_lt
              rw [startOf_zero] at hposition
              rw [List.getElem_cons_zero] at hoffset
              omega
          | succ i =>
              refine ⟨i, by omega, Nat.lt_of_succ_lt_succ hlocates.lt, ?_, ?_⟩
              · have hposition := hlocates.position_eq
                rw [hsucc] at hposition
                omega
              · have hoffset := hlocates.offset_lt
                rwa [List.getElem_cons_succ] at hoffset

/-- `locate_position` finds every position but the largest `u64`. -/
theorem locatePosition_eq_some_iff
    (htotal : writer.totalSize = min writer.mergedChunkSizes.sum u64Max)
    {position index offset : Nat} :
    writer.locatePosition position = some (index, offset) ↔
      position < u64Max ∧ Locates writer.mergedChunkSizes position index offset := by
  unfold locatePosition
  by_cases hout : writer.mergedChunkSizes = [] ∨ writer.totalSize ≤ position
  · rw [if_pos hout]
    refine iff_of_false nofun ?_
    rintro ⟨hposition, hlocates⟩
    have hinside := hlocates.position_lt_sum
    rcases hout with hnil | hle
    · rw [hnil] at hinside
      exact absurd hinside (Nat.not_lt_zero _)
    · omega
  · rw [if_neg hout]
    have hposition : position < u64Max := by omega
    rw [locateFrom_eq_some_iff hposition (Nat.zero_le _)]
    simp [hposition]

/-- Every position before the largest `u64` is found. -/
theorem exists_locatePosition
    (htotal : writer.totalSize = min writer.mergedChunkSizes.sum u64Max) {position : Nat}
    (hlt : position < writer.totalSize) :
    ∃ index offset, writer.locatePosition position = some (index, offset) ∧
      Locates writer.mergedChunkSizes position index offset := by
  obtain ⟨index, offset, hlocates⟩ := exists_locates
    (show position < writer.mergedChunkSizes.sum by omega)
  exact ⟨index, offset, (locatePosition_eq_some_iff htotal).mpr ⟨by omega, hlocates⟩, hlocates⟩

/-! ## One pass of `write` -/

/-- The bytes that the copy of a chunk starts with. -/
def copySource (web : WebCrates) (world : WriterWorld) (writer : DiffChunkListWriter)
    (chunkIndex : Nat) : NdnResult (List UInt8) :=
  match writer.dirtyChunks.lookup chunkIndex with
  | some chunk => .ok chunk
  | none =>
      match writer.baseChunkIds[chunkIndex]? with
      | none => .ok []
      | some baseChunkId => writer.fetchBaseChunk web world baseChunkId

/-- The chunk becomes dirty with these bytes, brought to its size, or they cannot be
fetched. -/
theorem ensureDirtyChunk_eq (hsorted : KeySorted writer.dirtyChunks) {index size : Nat}
    (hsize : writer.mergedChunkSizes[index]? = some size) :
    (∃ chunk dirtyChunks, writer.copySource web world index = .ok chunk ∧
      writer.ensureDirtyChunk web world index =
        ({ writer with dirtyChunks := dirtyChunks }, .ok ()) ∧
      KeySorted dirtyChunks ∧
      ∀ j, dirtyChunks.lookup j =
        if j = index then some (resize chunk size) else writer.dirtyChunks.lookup j) ∨
    ∃ e, writer.copySource web world index = .error e ∧
      writer.ensureDirtyChunk web world index = (writer, .error e) := by
  have hinsert : ∀ chunk, KeySorted (insertKey index chunk writer.dirtyChunks) ∧
      ∀ j, (insertKey index chunk writer.dirtyChunks).lookup j =
        if j = index then some chunk else writer.dirtyChunks.lookup j :=
    fun chunk => ⟨hsorted.insertKey _ _, fun j => lookup_insertKey hsorted _ _ _⟩
  unfold ensureDirtyChunk copySource
  rw [hsize]
  dsimp only
  cases hdirty : writer.dirtyChunks.lookup index with
  | some chunk =>
      dsimp only
      by_cases hlength : chunk.length ≠ size
      · rw [if_pos hlength]
        exact .inl ⟨chunk, _, rfl, rfl, hinsert _⟩
      · rw [if_neg hlength]
        rw [Decidable.not_not] at hlength
        refine .inl ⟨chunk, writer.dirtyChunks, rfl, rfl, hsorted, fun j => ?_⟩
        by_cases hj : j = index
        · rw [if_pos hj, hj, hdirty, ← hlength, resize_length]
        · rw [if_neg hj]
  | none =>
      dsimp only
      cases hid : writer.baseChunkIds[index]? with
      | none =>
          have hzeros : List.replicate size 0 = resize [] size := by
            rw [resize_of_le (Nat.zero_le _), List.nil_append, List.length_nil, Nat.sub_zero]
          dsimp only
          rw [hzeros]
          exact .inl ⟨[], _, rfl, rfl, hinsert _⟩
      | some chunkId =>
          dsimp only
          cases hfetch : writer.fetchBaseChunk web world chunkId with
          | error e => exact .inr ⟨e, rfl, rfl⟩
          | ok baseData => exact .inl ⟨baseData, _, rfl, rfl, hinsert _⟩

/-- The pass writes into the located chunk, or cannot fetch it. -/
theorem writeOnce_located (start : DiffChunkListWriter) {left : List UInt8}
    {index offset size : Nat} (hsorted : KeySorted writer.dirtyChunks)
    (hsize : writer.mergedChunkSizes[index]? = some size) (hoffset : offset < size)
    (hstart : (if start.position = start.totalSize then start.extendForAppend left.length
      else start) = writer)
    (hlocated : writer.locatePosition writer.position = some (index, offset)) :
    (∃ chunk dirtyChunks, writer.copySource web world index = .ok chunk ∧
      start.writeOnce web world left =
        ({ writer with
            dirtyChunks := dirtyChunks
            position := saturatingAdd writer.position (min (size - offset) left.length)
            totalSize := max writer.totalSize
              (saturatingAdd writer.position (min (size - offset) left.length)) },
          some (.ok (min (size - offset) left.length))) ∧
      KeySorted dirtyChunks ∧
      ∀ j, dirtyChunks.lookup j =
        if j = index then some (overwrite offset
          (left.take (min (size - offset) left.length)) (resize chunk size))
        else writer.dirtyChunks.lookup j) ∨
    ∃ e, writer.copySource web world index = .error e ∧
      start.writeOnce web world left = (writer, some (.error e)) := by
  unfold writeOnce
  rw [hstart]
  dsimp only
  rw [hlocated]
  dsimp only
  rw [hsize]
  dsimp only
  rw [if_neg (by omega)]
  rcases ensureDirtyChunk_eq hsorted hsize with
    ⟨chunk, dirtyChunks, hsource, hensure, hsorted', hlookup⟩ | ⟨e, hsource, hensure⟩
  · rw [hensure]
    have htake : (left.take (min (size - offset) left.length)).length =
        min (size - offset) left.length := by
      rw [List.length_take]
      omega
    have hhere := hlookup index
    rw [if_pos rfl] at hhere
    unfold copyIntoChunk
    dsimp only
    rw [hhere]
    dsimp only
    rw [htake, if_neg (by rw [length_resize]; omega)]
    refine .inl ⟨chunk, _, hsource, rfl, hsorted'.insertKey _ _, fun j => ?_⟩
    rw [lookup_insertKey hsorted']
    by_cases hj : j = index
    · rw [if_pos hj, if_pos hj]
    · rw [if_neg hj, if_neg hj, hlookup j, if_neg hj]
  · rw [hensure]
    exact .inr ⟨e, hsource, rfl⟩

theorem preferredChunkSize_pos (writer : DiffChunkListWriter) (remaining : Nat) :
    0 < writer.preferredChunkSize remaining := by
  unfold preferredChunkSize
  split
  · next size hsize => exact of_decide_eq_true (Option.filter_eq_some_iff.mp hsize).2
  · dsimp only
    split_ifs with hmax
    · exact hmax
    · split
      · next size hsize => exact of_decide_eq_true (Option.filter_eq_some_iff.mp hsize).2
      · omega

/-! ## Sound tables -/

/-- The tables of the writer agree about the sizes of the chunks. -/
structure Sound (writer : DiffChunkListWriter) : Prop where
  ids_length : writer.baseChunkIds.length = writer.baseChunkSizes.length
  sorted : KeySorted writer.dirtyChunks
  chunk_length : ∀ index chunk, writer.dirtyChunks.lookup index = some chunk →
    writer.mergedChunkSizes[index]? = some chunk.length
  total : writer.totalSize = min writer.mergedChunkSizes.sum u64Max
  position_le : writer.position ≤ writer.totalSize
  longer : writer.baseChunkSizes.length ≤ writer.mergedChunkSizes.length

/-- No base chunk but the last one has another size. -/
def KeepsBases (writer : DiffChunkListWriter) : Prop :=
  ∀ i, i + 1 < writer.baseChunkSizes.length →
    writer.mergedChunkSizes[i]? = writer.baseChunkSizes[i]?

/-- The file has so many bytes more, all of them in its last chunk. -/
structure Extends (before after : DiffChunkListWriter) (added : Nat) : Prop where
  sound : Sound after
  pos : 0 < added
  total_eq : after.totalSize = saturatingAdd before.totalSize added
  nonempty : after.mergedChunkSizes ≠ []
  longer : before.mergedChunkSizes.length ≤ after.mergedChunkSizes.length
  start_le : startOf after.mergedChunkSizes (after.mergedChunkSizes.length - 1) ≤
    before.mergedChunkSizes.sum
  kept : ∀ j, j + 1 < after.mergedChunkSizes.length →
    after.mergedChunkSizes[j]? = before.mergedChunkSizes[j]?
  dirty : ∀ j, (after.dirtyChunks.lookup j).isSome ↔ (before.dirtyChunks.lookup j).isSome
  setup : after = { before with
    mergedChunkSizes := after.mergedChunkSizes
    dirtyChunks := after.dirtyChunks
    totalSize := after.totalSize }

theorem Sound.pushChunk (h : Sound writer) {added : Nat} (hadded : 0 < added) :
    Extends writer (writer.pushChunk added) added where
  sound := {
    ids_length := h.ids_length
    sorted := h.sorted
    chunk_length := by
      intro index chunk hchunk
      have hsize := h.chunk_length index chunk hchunk
      show (writer.mergedChunkSizes ++ [added])[index]? = _
      rw [List.getElem?_append_left (List.getElem?_eq_some_iff.mp hsize).1, hsize]
    total := by
      show saturatingAdd writer.totalSize added =
        min (writer.mergedChunkSizes ++ [added]).sum u64Max
      rw [List.sum_append, List.sum_singleton, h.total]
      unfold saturatingAdd
      omega
    position_le := by
      have hposition := h.position_le
      have htotal := h.total
      show writer.position ≤ saturatingAdd writer.totalSize added
      unfold saturatingAdd
      omega
    longer := by
      have hlonger := h.longer
      show writer.baseChunkSizes.length ≤ (writer.mergedChunkSizes ++ [added]).length
      rw [List.length_append]
      omega }
  pos := hadded
  total_eq := rfl
  nonempty := List.append_ne_nil_of_right_ne_nil _ (List.cons_ne_nil _ _)
  longer := by
    show _ ≤ (writer.mergedChunkSizes ++ [added]).length
    rw [List.length_append]
    exact Nat.le_add_right _ _
  start_le := by
    show startOf (writer.mergedChunkSizes ++ [added]) _ ≤ _
    unfold startOf DiffChunkListWriter.pushChunk
    dsimp only
    rw [List.length_append, List.length_singleton, Nat.add_sub_cancel, List.take_left]
  kept := by
    intro j hj
    change j + 1 < (writer.mergedChunkSizes ++ [added]).length at hj
    rw [List.length_append, List.length_singleton] at hj
    show (writer.mergedChunkSizes ++ [added])[j]? = _
    rw [List.getElem?_append_left (by omega)]
  dirty := fun _ => Iff.rfl
  setup := rfl

theorem Sound.growLastChunk (h : Sound writer) {lastSize grow : Nat} (hgrow : 0 < grow)
    (hlast : writer.mergedChunkSizes.getLast? = some lastSize) :
    Extends writer (writer.growLastChunk (writer.mergedChunkSizes.length - 1) lastSize grow)
      grow := by
  obtain ⟨front, hfront⟩ := List.getLast?_eq_some_iff.mp hlast
  have hcount : writer.mergedChunkSizes.length = front.length + 1 := by
    rw [hfront, List.length_append, List.length_singleton]
  have hindex : writer.mergedChunkSizes.length - 1 = front.length := by omega
  rw [hindex]
  generalize hgrown : writer.growLastChunk front.length lastSize grow = grown
  have hmerged : grown.mergedChunkSizes = front ++ [saturatingAdd lastSize grow] := by
    rw [← hgrown]
    unfold DiffChunkListWriter.growLastChunk
    dsimp only
    rw [hfront, List.set_append_right _ _ le_rfl, Nat.sub_self, List.set_cons_zero]
  have htotal : grown.totalSize = saturatingAdd writer.totalSize grow := by
    rw [← hgrown]
    rfl
  have hsum : writer.mergedChunkSizes.sum = front.sum + lastSize := by
    rw [hfront, List.sum_append, List.sum_singleton]
  have hlength : grown.mergedChunkSizes.length = writer.mergedChunkSizes.length := by
    rw [hmerged, hcount, List.length_append, List.length_singleton]
  have hbefore : ∀ j, j ≠ front.length →
      grown.mergedChunkSizes[j]? = writer.mergedChunkSizes[j]? := by
    intro j hj
    rw [hmerged, hfront]
    by_cases hlt : j < front.length
    · rw [List.getElem?_append_left hlt, List.getElem?_append_left hlt]
    · rw [List.getElem?_eq_none (by simp; omega), List.getElem?_eq_none (by simp; omega)]
  have hdirty : KeySorted grown.dirtyChunks ∧ ∀ j, grown.dirtyChunks.lookup j =
      if j = front.length then (writer.dirtyChunks.lookup j).map fun chunk =>
        resize chunk (saturatingAdd lastSize grow)
      else writer.dirtyChunks.lookup j := by
    rw [← hgrown]
    unfold DiffChunkListWriter.growLastChunk
    dsimp only
    cases hold : writer.dirtyChunks.lookup front.length with
    | none =>
        refine ⟨h.sorted, fun j => ?_⟩
        by_cases hj : j = front.length
        · rw [if_pos hj, hj, hold]
          rfl
        · rw [if_neg hj]
    | some chunk =>
        refine ⟨h.sorted.insertKey _ _, fun j => ?_⟩
        dsimp only
        rw [lookup_insertKey h.sorted]
        by_cases hj : j = front.length
        · rw [if_pos hj, if_pos hj, hj, hold]
          rfl
        · rw [if_neg hj, if_neg hj]
  have hsetup : grown = { writer with
      mergedChunkSizes := grown.mergedChunkSizes
      dirtyChunks := grown.dirtyChunks
      totalSize := grown.totalSize } := by
    rw [← hgrown]
    rfl
  have hlonger := h.longer
  have hposition := h.position_le
  have htotal' := h.total
  refine {
    sound := {
      ids_length := by
        rw [hsetup]
        exact h.ids_length
      sorted := hdirty.1
      chunk_length := ?_
      total := by
        rw [htotal, hmerged, List.sum_append, List.sum_singleton, htotal', hsum]
        unfold saturatingAdd
        omega
      position_le := by
        have hsame : grown.position = writer.position := by rw [hsetup]
        rw [htotal, hsame]
        unfold saturatingAdd
        omega
      longer := by
        have hsame : grown.baseChunkSizes = writer.baseChunkSizes := by rw [hsetup]
        rw [hsame, hlength]
        exact hlonger }
    pos := hgrow
    total_eq := htotal
    nonempty := by
      rw [hmerged]
      exact List.append_ne_nil_of_right_ne_nil _ (List.cons_ne_nil _ _)
    longer := hlength.ge
    start_le := by
      rw [hlength, hindex, hmerged, hsum]
      unfold startOf
      rw [List.take_left]
      exact Nat.le_add_right _ _
    kept := fun j hj => hbefore j (by omega)
    dirty := fun j => by
      rw [hdirty.2 j]
      split_ifs
      · rw [Option.isSome_map]
      · rfl
    setup := hsetup }
  intro index chunk hchunk
  rw [hdirty.2 index] at hchunk
  by_cases hhere : index = front.length
  · rw [if_pos hhere] at hchunk
    obtain ⟨old, -, rfl⟩ := Option.map_eq_some_iff.mp hchunk
    rw [hmerged, hhere, length_resize, List.getElem?_append_right le_rfl, Nat.sub_self]
    rfl
  · rw [if_neg hhere] at hchunk
    rw [hbefore index hhere]
    exact h.chunk_length index chunk hchunk

theorem KeepsBases.extends {after : DiffChunkListWriter} {added : Nat}
    (hkeeps : KeepsBases writer) (h : Extends writer after added) (hsound : Sound writer) :
    KeepsBases after := by
  have hsame : after.baseChunkSizes = writer.baseChunkSizes := by rw [h.setup]
  intro i hi
  rw [hsame] at hi ⊢
  have hlonger := hsound.longer
  have hlonger' := h.longer
  rw [h.kept i (by omega), hkeeps i hi]

/-- How many bytes `extend_for_append` adds. -/
def appendCount (writer : DiffChunkListWriter) (remaining : Nat) : Nat :=
  let preferred := writer.preferredChunkSize remaining
  match writer.mergedChunkSizes.getLast? with
  | none => min remaining preferred
  | some lastSize =>
      if writer.appendMergeLastChunk ∧ lastSize < preferred then
        min (preferred - lastSize) remaining
      else min remaining preferred

theorem appendCount_le (writer : DiffChunkListWriter) (remaining : Nat) :
    writer.appendCount remaining ≤ remaining := by
  unfold appendCount
  dsimp only
  split
  · exact Nat.min_le_left _ _
  · split_ifs
    · exact Nat.min_le_right _ _
    · exact Nat.min_le_left _ _

theorem Sound.extendForAppend (h : Sound writer) {remaining : Nat}
    (hremaining : 0 < remaining) :
    Extends writer (writer.extendForAppend remaining) (writer.appendCount remaining) := by
  have hpreferred := writer.preferredChunkSize_pos remaining
  unfold DiffChunkListWriter.extendForAppend appendCount
  rw [if_neg (by omega)]
  dsimp only
  cases hlast : writer.mergedChunkSizes.getLast? with
  | none => exact h.pushChunk (by omega)
  | some lastSize =>
      dsimp only
      split_ifs with hmerge
      · exact h.growLastChunk (by omega) hlast
      · exact h.pushChunk (by omega)

/-- A pass of `write` starts where it is, or with a longer file when it is at the end. -/
def Starts (start writer : DiffChunkListWriter) (left : List UInt8) : Prop :=
  (start.position < start.totalSize ∧ writer = start) ∨
    (start.position = start.totalSize ∧ writer = start.extendForAppend left.length ∧
      Extends start writer (start.appendCount left.length))

theorem KeepsBases.starts {writer' : DiffChunkListWriter} {left : List UInt8}
    (hkeeps : KeepsBases writer) (h : Starts writer writer' left) (hsound : Sound writer) :
    KeepsBases writer' := by
  rcases h with ⟨-, rfl⟩ | ⟨-, -, hextends⟩
  · exact hkeeps
  · exact hkeeps.extends hextends hsound

theorem Sound.exists_starts (h : Sound writer) {left : List UInt8} (hleft : left ≠ []) :
    ∃ writer', Starts writer writer' left ∧ Sound writer' ∧
      (if writer.position = writer.totalSize then writer.extendForAppend left.length
        else writer) = writer' := by
  have hpos : 0 < left.length := List.length_pos_of_ne_nil hleft
  by_cases hend : writer.position = writer.totalSize
  · have hextends := h.extendForAppend hpos
    exact ⟨_, .inr ⟨hend, rfl, hextends⟩, hextends.sound, if_pos hend⟩
  · have hle := h.position_le
    exact ⟨writer, .inl ⟨by omega, rfl⟩, h, if_neg hend⟩

/-- A pass that wrote so many bytes into one chunk. -/
structure Passed (before after : DiffChunkListWriter) (index count : Nat) : Prop where
  sound : Sound after
  pos : 0 < count
  merged : after.mergedChunkSizes = before.mergedChunkSizes
  total : after.totalSize = before.totalSize
  dirty : ∀ j, (after.dirtyChunks.lookup j).isSome ↔
    j = index ∨ (before.dirtyChunks.lookup j).isSome
  setup : after = { before with
    mergedChunkSizes := after.mergedChunkSizes
    dirtyChunks := after.dirtyChunks
    position := after.position
    totalSize := after.totalSize }

theorem KeepsBases.passed {after : DiffChunkListWriter} {index count : Nat}
    (hkeeps : KeepsBases writer) (h : Passed writer after index count) :
    KeepsBases after := by
  unfold KeepsBases
  rw [h.merged, h.setup]
  exact hkeeps

/-- A pass never panics.  It writes a byte at least, into the chunk of the position; or
that chunk cannot be fetched; or the position is the largest `u64`. -/
theorem Sound.writeOnce (h : Sound writer) {start : DiffChunkListWriter}
    {left : List UInt8} (hleft : left ≠ []) (hstarts : Starts start writer left)
    (hstart : (if start.position = start.totalSize then start.extendForAppend left.length
      else start) = writer) :
    (u64Max ≤ writer.position ∧ start.writeOnce web world left =
      (writer, some (.error (.internal "failed to locate write position")))) ∨
    ∃ index offset, writer.position < u64Max ∧
      Locates writer.mergedChunkSizes writer.position index offset ∧
      ((∃ after count, start.writeOnce web world left = (after, some (.ok count)) ∧
          count ≤ left.length ∧ Passed writer after index count) ∨
        ∃ e, writer.copySource web world index = .error e ∧
          start.writeOnce web world left = (writer, some (.error e))) := by
  have hpos : 0 < left.length := List.length_pos_of_ne_nil hleft
  by_cases hlarge : u64Max ≤ writer.position
  · refine .inl ⟨hlarge, ?_⟩
    have hnone : writer.locatePosition writer.position = none := by
      rw [Option.eq_none_iff_forall_ne_some]
      rintro ⟨index, offset⟩ hsome
      have hlt := ((locatePosition_eq_some_iff h.total).mp hsome).1
      omega
    unfold DiffChunkListWriter.writeOnce
    rw [hstart]
    dsimp only
    rw [hnone]
  · right
    have hlt : writer.position < writer.totalSize := by
      rcases hstarts with ⟨hlt, rfl⟩ | ⟨hend, -, hextends⟩
      · exact hlt
      · have hposition : writer.position = start.position := by rw [hextends.setup]
        have hadded := hextends.pos
        have htotal := hextends.total_eq
        unfold saturatingAdd at htotal
        omega
    obtain ⟨index, offset, hlocated, hlocates⟩ := exists_locatePosition h.total hlt
    refine ⟨index, offset, Nat.lt_of_not_le hlarge, hlocates, ?_⟩
    have hindex := hlocates.lt
    have hoffset := hlocates.offset_lt
    have hsize := List.getElem?_eq_getElem hindex
    rcases writeOnce_located start h.sorted hsize hoffset hstart hlocated with
      ⟨chunk, dirtyChunks, -, hwrite, hsorted, hlookup⟩ | hfails
    swap
    · exact .inr hfails
    left
    generalize hcount : min (writer.mergedChunkSizes[index] - offset) left.length = count at *
    have htotal := h.total
    have hend := startOf_succ hlocates.lt
    have hposition := hlocates.position_eq
    have hinside := startOf_le_sum writer.mergedChunkSizes (index + 1)
    have hle : saturatingAdd writer.position count ≤ writer.totalSize := by
      unfold saturatingAdd
      omega
    rw [Nat.max_eq_left hle] at hwrite
    refine ⟨_, count, hwrite, by omega, { h with
      pos := by omega
      merged := rfl
      total := rfl
      setup := rfl
      dirty := ?_
      sound := { h with
        sorted := hsorted
        position_le := hle
        chunk_length := ?_ } }⟩
    · intro j chunk' hchunk
      dsimp only at hchunk ⊢
      rw [hlookup j] at hchunk
      by_cases hj : j = index
      · rw [if_pos hj] at hchunk
        rw [hj, hsize, ← Option.some.inj hchunk, length_overwrite (by
          rw [length_resize]
          omega), length_resize, List.length_take]
        congr 1
        omega
      · rw [if_neg hj] at hchunk
        exact h.chunk_length j chunk' hchunk
    · intro j
      dsimp only
      rw [hlookup j]
      split_ifs with hj
      · exact iff_of_true rfl (.inl hj)
      · exact ⟨.inr, fun hor => hor.resolve_left hj⟩

/-- Only the tables and the position have changed. -/
def SameSetup (before after : DiffChunkListWriter) : Prop :=
  after = { before with
    mergedChunkSizes := after.mergedChunkSizes
    dirtyChunks := after.dirtyChunks
    position := after.position
    totalSize := after.totalSize }

theorem SameSetup.trans {before between after : DiffChunkListWriter}
    (hfirst : SameSetup before between) (hsecond : SameSetup between after) :
    SameSetup before after := by
  unfold SameSetup at hfirst hsecond ⊢
  rw [hsecond, hfirst]

theorem Starts.sameSetup {writer' : DiffChunkListWriter} {left : List UInt8}
    (h : Starts writer writer' left) : SameSetup writer writer' := by
  rcases h with ⟨-, rfl⟩ | ⟨-, -, hextends⟩
  · rfl
  · unfold SameSetup
    rw [hextends.setup]

/-- The loop of `write` ends, and never panics. -/
theorem Sound.writeFrom (h : Sound writer) (web : WebCrates) (world : WriterWorld)
    {passes : Nat} {left : List UInt8} (written : Nat) (hpasses : left.length ≤ passes) :
    ∃ after result, writeFrom web world passes writer left written = (after, some result) ∧
      Sound after ∧ (KeepsBases writer → KeepsBases after) ∧ SameSetup writer after := by
  induction passes generalizing writer left written with
  | zero =>
      obtain rfl : left = [] := List.eq_nil_of_length_eq_zero (Nat.le_zero.mp hpasses)
      exact ⟨writer, _, rfl, h, id, rfl⟩
  | succ passes ih =>
      cases left with
      | nil => exact ⟨writer, _, rfl, h, id, rfl⟩
      | cons byte rest =>
          have hne := List.cons_ne_nil byte rest
          obtain ⟨writer', hstarts, hsound, hstart⟩ := h.exists_starts hne
          have hsetup := hstarts.sameSetup
          unfold DiffChunkListWriter.writeFrom
          rcases hsound.writeOnce hne hstarts hstart with
            ⟨-, hwrite⟩ | ⟨index, offset, -, -, ⟨after, count, hwrite, hle, hpassed⟩ |
              ⟨e, -, hwrite⟩⟩
          · rw [hwrite]
            exact ⟨writer', _, rfl, hsound, fun hkeeps => hkeeps.starts hstarts h, hsetup⟩
          · rw [hwrite]
            have hcount := hpassed.pos
            obtain ⟨last, result, hlast, hsound', hkeeps', hsetup'⟩ := ih hpassed.sound
              (written + count) (show ((byte :: rest).drop count).length ≤ passes by
                rw [List.length_drop]
                omega)
            exact ⟨last, result, hlast, hsound',
              fun hkeeps => hkeeps' ((hkeeps.starts hstarts h).passed hpassed),
              (hsetup.trans hpassed.setup).trans hsetup'⟩
          · rw [hwrite]
            exact ⟨writer', _, rfl, hsound, fun hkeeps => hkeeps.starts hstarts h, hsetup⟩

/-! ## Numbers of 64 bits -/

/-- The sizes that the writer was given are numbers of 64 bits. -/
structure Ranged (writer : DiffChunkListWriter) : Prop where
  fixed_le : ∀ size, writer.fixedChunkSize = some size → size ≤ u64Max
  base_le : ∀ size ∈ writer.baseChunkSizes, size ≤ u64Max

theorem foldl_max_le {sizes : List Nat} {first bound : Nat} (hfirst : first ≤ bound)
    (hsizes : ∀ size ∈ sizes, size ≤ bound) : sizes.foldl max first ≤ bound := by
  induction sizes generalizing first with
  | nil => exact hfirst
  | cons size rest ih =>
      have hsize := hsizes size List.mem_cons_self
      exact ih (Nat.max_le.mpr ⟨hfirst, hsize⟩) fun s hs =>
        hsizes s (List.mem_cons_of_mem _ hs)

theorem Ranged.preferredChunkSize_le (h : Ranged writer) {remaining : Nat}
    (hremaining : remaining ≤ u64Max) : writer.preferredChunkSize remaining ≤ u64Max := by
  unfold preferredChunkSize
  split
  · next size hsize => exact h.fixed_le size (Option.filter_eq_some_iff.mp hsize).1
  · dsimp only
    split_ifs with hmax
    · exact foldl_max_le (Nat.zero_le _) fun size hsize =>
        h.base_le size (List.mem_of_mem_dropLast hsize)
    · split
      · next size hsize =>
        exact h.base_le size (List.mem_of_getLast? (Option.filter_eq_some_iff.mp hsize).1)
      · unfold u64Max at hremaining ⊢
        omega

/-- What is added to the sizes is what the total gets more. -/
theorem sum_extendForAppend (h : Ranged writer) {remaining : Nat}
    (hpos : 0 < remaining) (hremaining : remaining ≤ u64Max) :
    (writer.extendForAppend remaining).mergedChunkSizes.sum =
      writer.mergedChunkSizes.sum + writer.appendCount remaining := by
  have hpreferred := h.preferredChunkSize_le hremaining
  have hpush : ∀ added, (writer.pushChunk added).mergedChunkSizes.sum =
      writer.mergedChunkSizes.sum + added := by
    intro added
    unfold pushChunk
    dsimp only
    rw [List.sum_append, List.sum_singleton]
  unfold extendForAppend appendCount
  rw [if_neg (by omega)]
  dsimp only
  cases hlast : writer.mergedChunkSizes.getLast? with
  | none => exact hpush _
  | some lastSize =>
      dsimp only
      split_ifs with hmerge
      · obtain ⟨front, hfront⟩ := List.getLast?_eq_some_iff.mp hlast
        unfold growLastChunk
        dsimp only
        -- A chunk never grows beyond the preferred size.
        rw [saturatingAdd_eq (by omega), hfront, List.length_append, List.length_singleton,
          Nat.add_sub_cancel, List.set_append_right _ _ le_rfl, Nat.sub_self,
          List.set_cons_zero, List.sum_append, List.sum_append, List.sum_singleton,
          List.sum_singleton, Nat.add_assoc]
      · exact hpush _

end DiffChunkListWriter
end NamedStore
end CyfsNdn

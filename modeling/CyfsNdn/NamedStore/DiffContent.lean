import CyfsNdn.NamedStore.DiffWriterSteps

/-!
# The content of a writer

A writer over a base list describes a file: the dirty chunks in their places, and the
base chunks everywhere else.  `Holds` says that its tables agree about this file.  A pass
of `write` writes the next bytes at the position, or fails to fetch a base chunk.
-/

namespace CyfsNdn
namespace NamedStore
namespace DiffChunkListWriter

open NdnLib Collections

variable {web : WebCrates} {world : WriterWorld} {bases : List (List UInt8)}
  {writer : DiffChunkListWriter}

/-- The chunk at an index: its copy, or else the base chunk. -/
def pieceAt (bases : List (List UInt8)) (dirtyChunks : List (Nat × List UInt8))
    (index : Nat) : List UInt8 :=
  (dirtyChunks.lookup index).getD (bases[index]?.getD [])

/-- The chunks of the file. -/
def pieces (bases : List (List UInt8)) (writer : DiffChunkListWriter) :
    List (List UInt8) :=
  (List.range writer.mergedChunkSizes.length).map (pieceAt bases writer.dirtyChunks)

/-- The file that the writer describes. -/
def content (bases : List (List UInt8)) (writer : DiffChunkListWriter) : List UInt8 :=
  (pieces bases writer).flatten

/-- The tables of the writer describe a file over these base chunks. -/
structure Holds (bases : List (List UInt8)) (writer : DiffChunkListWriter) : Prop where
  ids : writer.baseChunkIds.length = bases.length
  baseSizes : writer.baseChunkSizes = bases.map List.length
  sorted : KeySorted writer.dirtyChunks
  dirty_lt : ∀ e ∈ writer.dirtyChunks, e.1 < writer.mergedChunkSizes.length
  longer : bases.length ≤ writer.mergedChunkSizes.length
  appended : ∀ index, bases.length ≤ index → index < writer.mergedChunkSizes.length →
    (writer.dirtyChunks.lookup index).isSome
  sizes : writer.mergedChunkSizes = (pieces bases writer).map List.length
  total : writer.totalSize = writer.mergedChunkSizes.sum
  fits : writer.totalSize ≤ u64Max
  position_le : writer.position ≤ writer.totalSize

/-- Whatever the writer can fetch of the base chunks are these bytes. -/
def Fetches (web : WebCrates) (world : WriterWorld) (bases : List (List UInt8))
    (writer : DiffChunkListWriter) : Prop :=
  List.Forall₂ (Delivers web.toCrates world.files world.mgr writer.openChunkReader)
    writer.baseChunkIds bases

/-! ## Pieces -/

@[simp] theorem length_pieces (bases : List (List UInt8)) (writer : DiffChunkListWriter) :
    (pieces bases writer).length = writer.mergedChunkSizes.length := by
  unfold pieces
  rw [List.length_map, List.length_range]

theorem getElem_pieces {index : Nat} (h : index < (pieces bases writer).length) :
    (pieces bases writer)[index] = pieceAt bases writer.dirtyChunks index := by
  simp [pieces]

theorem Holds.length_content (h : Holds bases writer) :
    (content bases writer).length = writer.totalSize := by
  unfold content
  rw [h.total, List.length_flatten, ← h.sizes]

theorem Holds.sum_le (h : Holds bases writer) : writer.mergedChunkSizes.sum ≤ u64Max :=
  h.total ▸ h.fits

theorem Holds.size_eq (h : Holds bases writer) {index : Nat}
    (hlt : index < writer.mergedChunkSizes.length) :
    writer.mergedChunkSizes[index] = (pieceAt bases writer.dirtyChunks index).length := by
  have hsizes := List.getElem_of_eq h.sizes hlt
  rw [hsizes, List.getElem_map, getElem_pieces]

theorem pieceAt_insertKey {dirtyChunks : List (Nat × List UInt8)} (h : KeySorted dirtyChunks)
    (index index' : Nat) (chunk : List UInt8) :
    pieceAt bases (insertKey index chunk dirtyChunks) index' =
      if index' = index then chunk else pieceAt bases dirtyChunks index' := by
  unfold pieceAt
  rw [lookup_insertKey h]
  split_ifs <;> rfl

/-- What is located in a file whose sizes add up. -/
theorem locatePosition_of_fits (htotal : writer.totalSize = writer.mergedChunkSizes.sum)
    (hfits : writer.totalSize ≤ u64Max) {position index offset : Nat}
    (hlocates : Locates writer.mergedChunkSizes position index offset) :
    writer.locatePosition position = some (index, offset) := by
  have hlt := hlocates.position_lt_sum
  exact (locatePosition_eq_some_iff (by omega)).mpr ⟨by omega, hlocates⟩

/-! ## One pass of `write` -/

/-- What a pass, or a whole write, of these bytes does to the file. -/
structure Wrote (bases : List (List UInt8)) (before after : DiffChunkListWriter)
    (bytes : List UInt8) : Prop where
  holds : Holds bases after
  content_eq : content bases after = overwrite before.position bytes (content bases before)
  position_eq : after.position = before.position + bytes.length
  setup : after = { before with
    mergedChunkSizes := after.mergedChunkSizes
    dirtyChunks := after.dirtyChunks
    position := after.position
    totalSize := after.totalSize }

/-- A base chunk that is not dirty cannot be fetched. -/
def FetchFails (web : WebCrates) (world : WriterWorld) (writer : DiffChunkListWriter)
    (index : Nat) (e : NdnError) : Prop :=
  writer.dirtyChunks.lookup index = none ∧
    ∃ chunkId, writer.baseChunkIds[index]? = some chunkId ∧
      writer.fetchBaseChunk web world chunkId = .error e

theorem copySource_eq_error_iff {index : Nat} {e : NdnError} :
    writer.copySource web world index = .error e ↔ FetchFails web world writer index e := by
  unfold copySource FetchFails
  cases writer.dirtyChunks.lookup index with
  | some chunk => exact iff_of_false nofun fun h => by cases h.1
  | none =>
      cases writer.baseChunkIds[index]? with
      | none => exact iff_of_false nofun fun ⟨_, _, hid, _⟩ => by cases hid
      | some chunkId =>
          dsimp only
          refine ⟨fun h => ⟨rfl, chunkId, rfl, h⟩, ?_⟩
          rintro ⟨-, other, hid, h⟩
          rw [Option.some.inj hid]
          exact h

/-- The copy of a chunk starts with the bytes that the chunk has. -/
theorem copySource_eq_ok (hids : writer.baseChunkIds.length = bases.length)
    (hfetches : Fetches web world bases writer) {index : Nat} {chunk : List UInt8}
    (h : writer.copySource web world index = .ok chunk) :
    chunk = pieceAt bases writer.dirtyChunks index := by
  unfold copySource at h
  unfold pieceAt
  cases hdirty : writer.dirtyChunks.lookup index with
  | some dirty =>
      rw [hdirty] at h
      exact (Except.ok.inj h).symm
  | none =>
      rw [hdirty] at h
      dsimp only at h
      cases hid : writer.baseChunkIds[index]? with
      | none =>
          rw [hid] at h
          have hbase : bases[index]? = none := by
            rw [List.getElem?_eq_none_iff, ← hids]
            exact List.getElem?_eq_none_iff.mp hid
          rw [hbase]
          exact (Except.ok.inj h).symm
      | some chunkId =>
          rw [hid] at h
          have hlt : index < bases.length := by
            rw [← hids]
            exact (List.getElem?_eq_some_iff.mp hid).1
          have hbase := List.getElem?_eq_getElem hlt
          rw [hbase]
          dsimp only at h
          unfold fetchBaseChunk at h
          split at h
          · cases h
          next opened hopened =>
          split at h
          · cases h
          · obtain rfl := Except.ok.inj h
            have hopen := (rel_of_getElem?_eq hfetches hid hbase).open_eq (Nat.zero_le _)
              hopened
            rwa [List.drop_zero] at hopen

/-- The pass writes into the located chunk, or cannot fetch it. -/
theorem writeOnce_content (start writer : DiffChunkListWriter) (left : List UInt8)
    {index offset size : Nat} (hids : writer.baseChunkIds.length = bases.length)
    (hsorted : KeySorted writer.dirtyChunks) (hfetches : Fetches web world bases writer)
    (hsize : writer.mergedChunkSizes[index]? = some size) (hoffset : offset < size)
    (hstart : (if start.position = start.totalSize then start.extendForAppend left.length
      else start) = writer)
    (hlocated : writer.locatePosition writer.position = some (index, offset)) :
    (∃ dirtyChunks, start.writeOnce web world left =
        ({ writer with
            dirtyChunks := dirtyChunks
            position := saturatingAdd writer.position (min (size - offset) left.length)
            totalSize := max writer.totalSize
              (saturatingAdd writer.position (min (size - offset) left.length)) },
          some (.ok (min (size - offset) left.length))) ∧
      KeySorted dirtyChunks ∧
      dirtyChunks.lookup index = some (overwrite offset
        (left.take (min (size - offset) left.length))
        (resize (pieceAt bases writer.dirtyChunks index) size)) ∧
      (∀ j, j ≠ index → dirtyChunks.lookup j = writer.dirtyChunks.lookup j) ∧
      ∀ e, ¬ FetchFails web world writer index e) ∨
    ∃ e, start.writeOnce web world left = (writer, some (.error e)) ∧
      FetchFails web world writer index e := by
  rcases writeOnce_located start hsorted hsize hoffset hstart hlocated with
    ⟨chunk, dirtyChunks, hsource, hwrite, hsorted', hlookup⟩ | ⟨e, hsource, hwrite⟩
  · refine .inl ⟨dirtyChunks, hwrite, hsorted', ?_, ?_, ?_⟩
    · rw [hlookup, if_pos rfl, copySource_eq_ok hids hfetches hsource]
    · intro j hj
      rw [hlookup, if_neg hj]
    · intro e hfails
      rw [copySource_eq_error_iff.mpr hfails] at hsource
      cases hsource
  · exact .inr ⟨e, hwrite, copySource_eq_error_iff.mp hsource⟩

/-- One chunk has changed. -/
theorem pieces_eq_set (bases : List (List UInt8)) {after : DiffChunkListWriter}
    {index : Nat} {chunk : List UInt8}
    (hlength : after.mergedChunkSizes.length = writer.mergedChunkSizes.length)
    (hhere : after.dirtyChunks.lookup index = some chunk)
    (hother : ∀ j, j ≠ index → after.dirtyChunks.lookup j = writer.dirtyChunks.lookup j) :
    pieces bases after = (pieces bases writer).set index chunk := by
  refine List.ext_getElem (by rw [List.length_set, length_pieces, length_pieces, hlength]) ?_
  intro j hj hj'
  rw [List.getElem_set, getElem_pieces]
  by_cases hindex : index = j
  · rw [if_pos hindex]
    unfold pieceAt
    rw [← hindex, hhere]
    rfl
  · rw [if_neg hindex, getElem_pieces]
    unfold pieceAt
    rw [hother j (Ne.symm hindex)]

/-- A chunk was put behind the last one. -/
theorem pieces_eq_append {after : DiffChunkListWriter} {chunk : List UInt8}
    (hlength : after.mergedChunkSizes.length = writer.mergedChunkSizes.length + 1)
    (hhere : after.dirtyChunks.lookup writer.mergedChunkSizes.length = some chunk)
    (hother : ∀ j, j ≠ writer.mergedChunkSizes.length →
      after.dirtyChunks.lookup j = writer.dirtyChunks.lookup j) :
    pieces bases after = pieces bases writer ++ [chunk] := by
  refine List.ext_getElem (by simp [hlength]) ?_
  intro j hj hj'
  rw [getElem_pieces, List.getElem_append]
  by_cases hlast : j < (pieces bases writer).length
  · rw [dif_pos hlast, getElem_pieces]
    rw [length_pieces] at hlast
    unfold pieceAt
    rw [hother j (Nat.ne_of_lt hlast)]
  · rw [dif_neg hlast, List.getElem_singleton]
    rw [length_pieces] at hlast
    rw [length_pieces, hlength] at hj
    obtain rfl : j = writer.mergedChunkSizes.length := by omega
    unfold pieceAt
    rw [hhere]
    rfl

/-- What the tables of the writer after a change of one chunk have to say. -/
theorem Holds.of_change (h : Holds bases writer) {after : DiffChunkListWriter} {index : Nat}
    {chunk : List UInt8} (hids : after.baseChunkIds = writer.baseChunkIds)
    (hbases : after.baseChunkSizes = writer.baseChunkSizes)
    (hsorted : KeySorted after.dirtyChunks)
    (hhere : after.dirtyChunks.lookup index = some chunk)
    (hother : ∀ j, j ≠ index → after.dirtyChunks.lookup j = writer.dirtyChunks.lookup j)
    (hindex : index < after.mergedChunkSizes.length)
    (hlonger : writer.mergedChunkSizes.length ≤ after.mergedChunkSizes.length)
    (hnew : ∀ j, j < after.mergedChunkSizes.length → j ≠ index →
      j < writer.mergedChunkSizes.length)
    (hsizes : after.mergedChunkSizes = (pieces bases after).map List.length)
    (htotal : after.totalSize = after.mergedChunkSizes.sum)
    (hfits : after.totalSize ≤ u64Max) (hposition : after.position ≤ after.totalSize) :
    Holds bases after where
  ids := by rw [hids, h.ids]
  baseSizes := by rw [hbases, h.baseSizes]
  sorted := hsorted
  dirty_lt := by
    intro e he
    by_cases hkey : e.1 = index
    · rw [hkey]
      exact hindex
    · have hold := hother e.1 hkey
      rw [(lookup_eq_some_iff_mem hsorted.nodup).mpr he] at hold
      have hmem := (lookup_eq_some_iff_mem h.sorted.nodup).mp hold.symm
      exact Nat.lt_of_lt_of_le (h.dirty_lt _ hmem) hlonger
  longer := h.longer.trans hlonger
  appended := by
    intro j hj hlt
    by_cases hsame : j = index
    · rw [hsame, hhere]
      rfl
    · rw [hother j hsame]
      exact h.appended j hj (hnew j hlt hsame)
  sizes := hsizes
  total := htotal
  fits := hfits
  position_le := hposition

/-- Inside the file a pass writes into one chunk, or fails and leaves everything as it
is. -/
theorem Holds.writeOnce_inside (h : Holds bases writer)
    (hfetches : Fetches web world bases writer) (hlt : writer.position < writer.totalSize)
    {left : List UInt8} (hleft : left ≠ []) :
    ∃ index offset, Locates writer.mergedChunkSizes writer.position index offset ∧
      ((∃ after count, writer.writeOnce web world left = (after, some (.ok count)) ∧
          0 < count ∧ count ≤ left.length ∧
          writer.position + count ≤ startOf writer.mergedChunkSizes (index + 1) ∧
          Wrote bases writer after (left.take count) ∧
          after.mergedChunkSizes = writer.mergedChunkSizes ∧
          after.totalSize = writer.totalSize ∧
          (after.dirtyChunks.lookup index).isSome ∧
          (∀ j, j ≠ index → after.dirtyChunks.lookup j = writer.dirtyChunks.lookup j) ∧
          ∀ e, ¬ FetchFails web world writer index e) ∨
        ∃ e, writer.writeOnce web world left = (writer, some (.error e)) ∧
          FetchFails web world writer index e) := by
  obtain ⟨index, offset, hlocates⟩ := exists_locates (h.total ▸ hlt)
  refine ⟨index, offset, hlocates, ?_⟩
  have hindex := hlocates.lt
  have hoffset := hlocates.offset_lt
  have hend := startOf_succ hlocates.lt
  have hposition := hlocates.position_eq
  have hpiece := h.size_eq hindex
  rcases writeOnce_content writer writer left h.ids h.sorted hfetches
      (List.getElem?_eq_getElem hindex) hoffset (if_neg (Nat.ne_of_lt hlt))
      (locatePosition_of_fits h.total h.fits hlocates) with
    ⟨dirtyChunks, hwrite, hsorted, hhere, hother, hfetched⟩ | ⟨e, hwrite, hfails⟩
  swap
  · exact .inr ⟨e, hwrite, hfails⟩
  left
  generalize hcount : min (writer.mergedChunkSizes[index] - offset) left.length = count at *
  have hpos : 0 < left.length := List.length_pos_of_ne_nil hleft
  have htake : (left.take count).length = count := by
    rw [List.length_take]
    omega
  have hinside : writer.position + count ≤ startOf writer.mergedChunkSizes (index + 1) := by
    omega
  have hle : writer.position + count ≤ writer.totalSize := by
    have hsum := startOf_le_sum writer.mergedChunkSizes (index + 1)
    rw [← h.total] at hsum
    omega
  have hsum : saturatingAdd writer.position count = writer.position + count :=
    saturatingAdd_eq (hle.trans h.fits)
  rw [hsum, Nat.max_eq_left hle] at hwrite
  rw [hpiece, resize_length] at hhere
  have hindex' : index < (pieces bases writer).length := by
    rw [length_pieces]
    exact hindex
  have hfitsPiece : offset + (left.take count).length ≤ (pieces bases writer)[index].length := by
    rw [htake, getElem_pieces, ← hpiece]
    omega
  generalize hafter : ({ writer with
    dirtyChunks := dirtyChunks
    position := writer.position + count
    totalSize := writer.totalSize } : DiffChunkListWriter) = after at hwrite
  have hpieces : pieces bases after = (pieces bases writer).set index
      (overwrite offset (left.take count) (pieceAt bases writer.dirtyChunks index)) := by
    subst hafter
    exact pieces_eq_set bases rfl hhere hother
  have hholds : Holds bases after := by
    have hsizes : after.mergedChunkSizes = (pieces bases after).map List.length := by
      have hnew : (overwrite offset (left.take count)
          (pieceAt bases writer.dirtyChunks index)).length =
          (pieceAt bases writer.dirtyChunks index).length := by
        rw [length_overwrite (by rw [← hpiece]; omega), htake, ← hpiece]
        omega
      rw [hpieces, List.map_set, hnew, ← hpiece, ← h.sizes, List.set_getElem_self]
      subst hafter
      rfl
    subst hafter
    exact h.of_change rfl rfl hsorted hhere hother hindex le_rfl (fun _ hj _ => hj)
      hsizes h.total h.fits hle
  refine ⟨after, count, hwrite, by omega, by omega, hinside, ⟨hholds, ?_, ?_, ?_⟩, ?_, ?_, ?_,
    ?_, ?_⟩
  · unfold content
    rw [hpieces, ← hposition, h.sizes, overwrite_flatten hindex' hfitsPiece, getElem_pieces]
  · rw [htake, ← hafter]
  · rw [← hafter]
  · rw [← hafter]
  · rw [← hafter]
  · rw [← hafter]
    dsimp only
    rw [hhere]
    rfl
  · rw [← hafter]
    exact hother
  · exact hfetched

/-! ## Passes at the end of the file -/

/-- The last chunk is a base chunk that would grow, and it cannot be fetched. -/
def GrowsUnfetched (web : WebCrates) (world : WriterWorld) (writer : DiffChunkListWriter)
    (remaining : Nat) (e : NdnError) : Prop :=
  ∃ lastSize, writer.mergedChunkSizes.getLast? = some lastSize ∧
    writer.appendMergeLastChunk = true ∧ lastSize < writer.preferredChunkSize remaining ∧
    FetchFails web world writer (writer.mergedChunkSizes.length - 1) e

/-- No chunk is dirty beyond the last one. -/
theorem Holds.lookup_length (h : Holds bases writer) :
    writer.dirtyChunks.lookup writer.mergedChunkSizes.length = none := by
  rw [List.lookup_eq_none_iff]
  intro e he
  have hlt := h.dirty_lt e he
  rw [bne_iff_ne]
  omega

theorem overwrite_replicate {data : List UInt8} (piece : List UInt8) {count : Nat}
    (hcount : data.length = count) :
    overwrite piece.length data (piece ++ List.replicate count 0) = piece ++ data := by
  have hright := overwrite_append_right piece (List.replicate count (0 : UInt8)) data 0
  rw [Nat.add_zero] at hright
  rw [hright]
  unfold overwrite
  rw [List.take_zero, List.nil_append, Nat.zero_add, hcount,
    List.drop_of_length_le (by rw [List.length_replicate]), List.append_nil]

/-- A pass that puts a new chunk behind the last one.  It fetches nothing. -/
theorem Holds.writeOnce_push (h : Holds bases writer)
    (hfetches : Fetches web world bases writer)
    (hend : writer.position = writer.totalSize) {left : List UInt8} {added : Nat}
    (hadded : 0 < added) (hle : added ≤ left.length)
    (hfits : writer.totalSize + added ≤ u64Max)
    (hextend : writer.extendForAppend left.length = writer.pushChunk added) :
    ∃ after, writer.writeOnce web world left = (after, some (.ok added)) ∧
      Wrote bases writer after (left.take added) ∧ after.position = after.totalSize ∧
      (after.dirtyChunks.lookup (after.mergedChunkSizes.length - 1)).isSome := by
  have htotal : saturatingAdd writer.totalSize added = writer.totalSize + added :=
    saturatingAdd_eq (by omega)
  have hsum : (writer.pushChunk added).totalSize =
      (writer.pushChunk added).mergedChunkSizes.sum := by
    unfold pushChunk
    dsimp only
    rw [htotal, List.sum_append, List.sum_singleton, h.total]
  have hlocates : Locates (writer.pushChunk added).mergedChunkSizes
      (writer.pushChunk added).position writer.mergedChunkSizes.length 0 := by
    unfold pushChunk
    refine ⟨by simp, ?_, ?_⟩
    · unfold startOf
      dsimp only
      rw [List.take_left, Nat.add_zero, ← h.total, hend]
    · dsimp only
      rw [List.getElem_append_right le_rfl]
      simpa using hadded
  have hbase : bases[writer.mergedChunkSizes.length]? = none :=
    List.getElem?_eq_none h.longer
  have hpiece : pieceAt bases writer.dirtyChunks writer.mergedChunkSizes.length = [] := by
    unfold pieceAt
    rw [h.lookup_length, hbase]
    rfl
  have hmin : min (added - 0) left.length = added := by omega
  have htake : (left.take added).length = added := by
    rw [List.length_take]
    omega
  rcases writeOnce_content writer (writer.pushChunk added) left h.ids h.sorted hfetches
      (show (writer.pushChunk added).mergedChunkSizes[writer.mergedChunkSizes.length]? =
        some added by simp [pushChunk])
      hadded (by rw [if_pos hend, hextend])
      (locatePosition_of_fits hsum (by
        unfold pushChunk
        dsimp only
        omega) hlocates) with
    ⟨dirtyChunks, hwrite, hsorted, hhere, hother, -⟩ | ⟨e, -, -, chunkId, hid, -⟩
  swap
  · have hlt := (List.getElem?_eq_some_iff.mp hid).1
    have hids := h.ids
    have hlonger := h.longer
    unfold pushChunk at hlt
    dsimp only at hlt
    omega
  rw [hmin] at hwrite hhere
  have hplace : (writer.pushChunk added).dirtyChunks = writer.dirtyChunks := rfl
  rw [hplace, hpiece, resize_of_le (Nat.zero_le _), List.length_nil, Nat.sub_zero,
    show overwrite 0 (left.take added) ([] ++ List.replicate added 0) = [] ++ left.take added
      from overwrite_replicate [] htake, List.nil_append] at hhere
  rw [hplace] at hother
  have hposition : saturatingAdd writer.position added = writer.totalSize + added := by
    rw [hend, htotal]
  generalize hafter : ({ writer.pushChunk added with
    dirtyChunks := dirtyChunks
    position := saturatingAdd (writer.pushChunk added).position added
    totalSize := max (writer.pushChunk added).totalSize
      (saturatingAdd (writer.pushChunk added).position added) } : DiffChunkListWriter) =
    after at hwrite
  have hmerged : after.mergedChunkSizes = writer.mergedChunkSizes ++ [added] := by
    rw [← hafter]
    rfl
  have hposition' : after.position = writer.totalSize + added := by
    rw [← hafter]
    exact hposition
  have htotal' : after.totalSize = writer.totalSize + added := by
    rw [← hafter]
    show max (saturatingAdd writer.totalSize added) (saturatingAdd writer.position added) = _
    rw [htotal, hposition, Nat.max_self]
  have hdirty : after.dirtyChunks = dirtyChunks := by rw [← hafter]
  rw [← hdirty] at hsorted hhere hother
  have hlength : after.mergedChunkSizes.length = writer.mergedChunkSizes.length + 1 := by
    rw [hmerged, List.length_append, List.length_singleton]
  have hpieces : pieces bases after = pieces bases writer ++ [left.take added] :=
    pieces_eq_append hlength hhere hother
  refine ⟨after, hwrite, ⟨?_, ?_, ?_, ?_⟩, ?_, ?_⟩
  · refine h.of_change (by rw [← hafter]; rfl) (by rw [← hafter]; rfl) hsorted hhere hother
      (by omega) (by omega) (fun j hj hne => by omega) ?_ ?_ ?_ ?_
    · rw [hmerged, hpieces, List.map_append, ← h.sizes, List.map_singleton, htake]
    · rw [htotal', hmerged, List.sum_append, List.sum_singleton, h.total]
    · omega
    · omega
  · unfold content
    rw [hpieces, List.flatten_append, List.flatten_singleton, hend, ← h.length_content]
    exact (overwrite_at_end _ _).symm
  · rw [hposition', htake, hend]
  · rw [← hafter]
    rfl
  · rw [hposition', htotal']
  · rw [hlength, Nat.add_sub_cancel, hhere]
    rfl

/-- A pass that lets the last chunk grow. -/
theorem Holds.writeOnce_grow (h : Holds bases writer)
    (hfetches : Fetches web world bases writer)
    (hend : writer.position = writer.totalSize) {left : List UInt8} {lastSize grow : Nat}
    (hgrow : 0 < grow) (hle : grow ≤ left.length)
    (hfits : writer.totalSize + grow ≤ u64Max)
    (hlast : writer.mergedChunkSizes.getLast? = some lastSize)
    (hextend : writer.extendForAppend left.length =
      writer.growLastChunk (writer.mergedChunkSizes.length - 1) lastSize grow) :
    (∃ after, writer.writeOnce web world left = (after, some (.ok grow)) ∧
      Wrote bases writer after (left.take grow) ∧ after.position = after.totalSize ∧
      (after.dirtyChunks.lookup (after.mergedChunkSizes.length - 1)).isSome ∧
      ∀ e, ¬ FetchFails web world writer (writer.mergedChunkSizes.length - 1) e) ∨
    ∃ e, writer.writeOnce web world left =
        (writer.extendForAppend left.length, some (.error e)) ∧
      FetchFails web world writer (writer.mergedChunkSizes.length - 1) e := by
  obtain ⟨front, hfront⟩ := List.getLast?_eq_some_iff.mp hlast
  have hcount : writer.mergedChunkSizes.length = front.length + 1 := by
    rw [hfront, List.length_append, List.length_singleton]
  have hindex : writer.mergedChunkSizes.length - 1 = front.length := by omega
  rw [hindex] at hextend ⊢
  have hlt : front.length < writer.mergedChunkSizes.length := by omega
  have hpiece := h.size_eq hlt
  have hget : writer.mergedChunkSizes[front.length] = lastSize := by
    simp only [hfront, List.getElem_append_right le_rfl, Nat.sub_self, List.getElem_singleton]
  rw [hget] at hpiece
  have hsum : front.sum + lastSize = writer.totalSize := by
    rw [h.total, hfront, List.sum_append, List.sum_singleton]
  have hsize : saturatingAdd lastSize grow = lastSize + grow := saturatingAdd_eq (by omega)
  have htotal : saturatingAdd writer.totalSize grow = writer.totalSize + grow :=
    saturatingAdd_eq (by omega)
  -- The tables after the growth, before the chunk is dirty.
  generalize hgrown : writer.growLastChunk front.length lastSize grow = grown at *
  have hmerged : grown.mergedChunkSizes = front ++ [lastSize + grow] := by
    rw [← hgrown]
    unfold growLastChunk
    dsimp only
    rw [hsize, hfront, List.set_append_right _ _ le_rfl, Nat.sub_self, List.set_cons_zero]
  have hgrownTotal : grown.totalSize = writer.totalSize + grow := by
    rw [← hgrown, ← htotal]
    rfl
  have hgrownPosition : grown.position = writer.totalSize := by
    rw [← hgrown, ← hend]
    rfl
  have hpad : resize (pieceAt bases writer.dirtyChunks front.length) (lastSize + grow) =
      pieceAt bases writer.dirtyChunks front.length ++ List.replicate grow 0 := by
    rw [resize_of_le (by omega), ← hpiece, Nat.add_sub_cancel_left]
  have hgrownDirty : KeySorted grown.dirtyChunks ∧
      resize (pieceAt bases grown.dirtyChunks front.length) (lastSize + grow) =
        resize (pieceAt bases writer.dirtyChunks front.length) (lastSize + grow) ∧
      (grown.dirtyChunks.lookup front.length = none ↔
        writer.dirtyChunks.lookup front.length = none) ∧
      ∀ j, j ≠ front.length →
        grown.dirtyChunks.lookup j = writer.dirtyChunks.lookup j := by
    rw [← hgrown]
    unfold growLastChunk
    dsimp only
    cases hdirty : writer.dirtyChunks.lookup front.length with
    | none => exact ⟨h.sorted, rfl, by rw [hdirty], fun _ _ => rfl⟩
    | some chunk =>
        dsimp only
        rw [hsize]
        refine ⟨h.sorted.insertKey _ _, ?_, ?_, ?_⟩
        · have hold : pieceAt bases writer.dirtyChunks front.length = chunk := by
            unfold pieceAt
            rw [hdirty]
            rfl
          rw [pieceAt_insertKey h.sorted, if_pos rfl, hold]
          exact resize_resize chunk (lastSize + grow)
        · rw [lookup_insertKey h.sorted, if_pos rfl]
          simp
        · intro j hj
          rw [lookup_insertKey h.sorted, if_neg hj]
  obtain ⟨hgrownSorted, hgrownPiece, hgrownNone, hgrownOther⟩ := hgrownDirty
  have hgrownSum : grown.totalSize = grown.mergedChunkSizes.sum := by
    rw [hgrownTotal, hmerged, List.sum_append, List.sum_singleton]
    omega
  have hlocates : Locates grown.mergedChunkSizes grown.position front.length lastSize := by
    rw [hmerged, hgrownPosition]
    refine ⟨by simp, ?_, ?_⟩
    · unfold startOf
      rw [List.take_left, hsum]
    · rw [List.getElem_append_right le_rfl]
      simpa using hgrow
  have hsame : ∀ e, FetchFails web world grown front.length e ↔
      FetchFails web world writer front.length e := by
    intro e
    unfold FetchFails
    rw [hgrownNone, ← hgrown]
    rfl
  have hmin : min (lastSize + grow - lastSize) left.length = grow := by omega
  have htake : (left.take grow).length = grow := by
    rw [List.length_take]
    omega
  rcases writeOnce_content writer grown left (by rw [← hgrown]; exact h.ids) hgrownSorted
      (by rw [← hgrown]; exact hfetches)
      (show grown.mergedChunkSizes[front.length]? = some (lastSize + grow) by
        rw [hmerged, List.getElem?_append_right le_rfl, Nat.sub_self]
        rfl)
      (by omega) (by rw [if_pos hend, hextend])
      (locatePosition_of_fits hgrownSum (by omega) hlocates) with
    ⟨dirtyChunks, hwrite, hsorted, hhere, hother, hfetched⟩ | ⟨e, hwrite, hfails⟩
  swap
  · exact .inr ⟨e, by rw [hwrite, hextend], (hsame e).mp hfails⟩
  left
  have hover := overwrite_replicate (pieceAt bases writer.dirtyChunks front.length) htake
  rw [← hpiece] at hover
  rw [hmin] at hwrite hhere
  rw [hgrownPiece, hpad, hover] at hhere
  have hposition : saturatingAdd grown.position grow = writer.totalSize + grow := by
    rw [hgrownPosition, htotal]
  rw [hposition, hgrownTotal, Nat.max_self] at hwrite
  generalize hafter : ({ grown with
    dirtyChunks := dirtyChunks
    position := writer.totalSize + grow
    totalSize := writer.totalSize + grow } : DiffChunkListWriter) = after at hwrite
  have hmerged' : after.mergedChunkSizes = front ++ [lastSize + grow] := by
    rw [← hafter, ← hmerged]
  have hposition' : after.position = writer.totalSize + grow := by rw [← hafter]
  have htotal' : after.totalSize = writer.totalSize + grow := by rw [← hafter]
  have hdirty : after.dirtyChunks = dirtyChunks := by rw [← hafter]
  rw [← hdirty] at hsorted hhere hother
  have hother' : ∀ j, j ≠ front.length →
      after.dirtyChunks.lookup j = writer.dirtyChunks.lookup j :=
    fun j hj => (hother j hj).trans (hgrownOther j hj)
  have hlength : after.mergedChunkSizes.length = front.length + 1 := by
    rw [hmerged', List.length_append, List.length_singleton]
  -- The last piece has grown, and the others are as they were.
  have hpieces := pieces_eq_set bases (hlength.trans hcount.symm) hhere hother'
  have hlastPiece : front.length < (pieces bases writer).length := by
    rw [length_pieces]
    exact hlt
  rw [List.set_eq_take_append_cons_drop, if_pos hlastPiece,
    List.drop_of_length_le (by rw [length_pieces]; omega)] at hpieces
  have hold : pieces bases writer = (pieces bases writer).take front.length ++
      [pieceAt bases writer.dirtyChunks front.length] := by
    conv_lhs => rw [← List.take_append_drop front.length (pieces bases writer)]
    rw [List.drop_eq_getElem_cons hlastPiece, getElem_pieces,
      List.drop_of_length_le (by rw [length_pieces]; omega)]
  have hsizesFront : front = ((pieces bases writer).take front.length).map List.length := by
    rw [List.map_take, ← h.sizes, hfront, List.take_left]
  refine ⟨after, hwrite, ⟨?_, ?_, ?_, ?_⟩, ?_, ?_, ?_⟩
  · refine h.of_change (by rw [← hafter, ← hgrown]; rfl) (by rw [← hafter, ← hgrown]; rfl)
      hsorted hhere hother' (by omega) (by omega) (fun j hj hne => by omega) ?_ ?_ ?_ ?_
    · rw [hmerged', hpieces, List.map_append, List.map_singleton, ← hsizesFront,
        List.length_append, htake, ← hpiece]
    · rw [htotal', hmerged', List.sum_append, List.sum_singleton]
      omega
    · omega
    · omega
  · unfold content
    rw [hpieces, hend, ← h.length_content]
    unfold content
    rw [overwrite_at_end, List.flatten_append, List.flatten_singleton]
    conv_rhs => rw [hold]
    rw [List.flatten_append, List.flatten_singleton, List.append_assoc]
  · rw [hposition', htake, hend]
  · rw [← hafter, ← hgrown]
    rfl
  · rw [hposition', htotal']
  · rw [hlength, Nat.add_sub_cancel, hhere]
    rfl
  · exact fun e hfails => hfetched e ((hsame e).mpr hfails)

/-- What a pass at the end does when it can: it writes and stays at the end, with the
last chunk dirty. -/
structure Appends (web : WebCrates) (world : WriterWorld) (bases : List (List UInt8))
    (writer : DiffChunkListWriter) (left : List UInt8) (after : DiffChunkListWriter)
    (count : Nat) : Prop where
  write_eq : writer.writeOnce web world left = (after, some (.ok count))
  pos : 0 < count
  le : count ≤ left.length
  wrote : Wrote bases writer after (left.take count)
  at_end : after.position = after.totalSize
  dirty : (after.dirtyChunks.lookup (after.mergedChunkSizes.length - 1)).isSome
  fetched : ∀ e, ¬ GrowsUnfetched web world writer left.length e

/-- At the end a pass appends, or the last chunk has grown and cannot be fetched. -/
theorem Holds.writeOnce_append (h : Holds bases writer)
    (hfetches : Fetches web world bases writer)
    (hend : writer.position = writer.totalSize) {left : List UInt8} (hleft : left ≠ [])
    (hfits : writer.totalSize + writer.appendCount left.length ≤ u64Max) :
    (∃ after count, Appends web world bases writer left after count) ∨
    ∃ e, writer.writeOnce web world left =
        (writer.extendForAppend left.length, some (.error e)) ∧
      GrowsUnfetched web world writer left.length e := by
  have hpos : 0 < left.length := List.length_pos_of_ne_nil hleft
  have hpreferred := writer.preferredChunkSize_pos left.length
  have hpush : writer.extendForAppend left.length =
      writer.pushChunk (min left.length (writer.preferredChunkSize left.length)) →
      writer.appendCount left.length = min left.length (writer.preferredChunkSize left.length) →
      (∀ e, ¬ GrowsUnfetched web world writer left.length e) →
      ∃ after count, Appends web world bases writer left after count := by
    intro hextend hadded hno
    rw [hadded] at hfits
    obtain ⟨after, hwrite, hwrote, hposition, hdirty⟩ := h.writeOnce_push hfetches hend
      (by omega) (Nat.min_le_left _ _) hfits hextend
    exact ⟨after, _, hwrite, by omega, Nat.min_le_left _ _, hwrote, hposition, hdirty, hno⟩
  cases hlast : writer.mergedChunkSizes.getLast? with
  | none =>
      refine .inl (hpush ?_ ?_ ?_)
      · unfold extendForAppend
        rw [if_neg (by omega), hlast]
      · unfold appendCount
        rw [hlast]
      · rintro e ⟨lastSize, hsome, -⟩
        rw [hlast] at hsome
        cases hsome
  | some lastSize =>
      by_cases hmerge : writer.appendMergeLastChunk = true ∧
          lastSize < writer.preferredChunkSize left.length
      · have hextend : writer.extendForAppend left.length =
            writer.growLastChunk (writer.mergedChunkSizes.length - 1) lastSize
              (min (writer.preferredChunkSize left.length - lastSize) left.length) := by
          unfold extendForAppend
          rw [if_neg (by omega), hlast]
          exact if_pos hmerge
        have hadded : writer.appendCount left.length =
            min (writer.preferredChunkSize left.length - lastSize) left.length := by
          unfold appendCount
          rw [hlast]
          exact if_pos hmerge
        rw [hadded] at hfits
        rcases h.writeOnce_grow hfetches hend (by omega) (Nat.min_le_right _ _) hfits hlast
            hextend with ⟨after, hwrite, hwrote, hposition, hdirty, hno⟩ | ⟨e, hwrite, hfails⟩
        · refine .inl ⟨after, _, hwrite, by omega, Nat.min_le_right _ _, hwrote, hposition,
            hdirty, ?_⟩
          rintro e ⟨-, -, -, -, hfails⟩
          exact hno e hfails
        · exact .inr ⟨e, hwrite, lastSize, hlast, hmerge.1, hmerge.2, hfails⟩
      · refine .inl (hpush ?_ ?_ ?_)
        · unfold extendForAppend
          rw [if_neg (by omega), hlast]
          exact if_neg hmerge
        · unfold appendCount
          rw [hlast]
          exact if_neg hmerge
        · rintro e ⟨size, hsome, happend, hlt, -⟩
          rw [hlast] at hsome
          obtain rfl := Option.some.inj hsome
          exact hmerge ⟨happend, hlt⟩

/-! ## The whole of `write` -/

theorem Wrote.refl (h : Holds bases writer) : Wrote bases writer writer [] :=
  ⟨h, (overwrite_nil _ _).symm, rfl, rfl⟩

theorem Wrote.trans (h : Holds bases writer) {between after : DiffChunkListWriter}
    {first second : List UInt8} (hfirst : Wrote bases writer between first)
    (hsecond : Wrote bases between after second) :
    Wrote bases writer after (first ++ second) where
  holds := hsecond.holds
  content_eq := by
    have hposition : writer.position ≤ (content bases writer).length := by
      rw [h.length_content]
      exact h.position_le
    rw [hsecond.content_eq, hfirst.content_eq, hfirst.position_eq,
      overwrite_overwrite hposition]
  position_eq := by
    rw [hsecond.position_eq, hfirst.position_eq, List.length_append, Nat.add_assoc]
  setup := by
    rw [hsecond.setup, hfirst.setup]

theorem Wrote.fetches {after : DiffChunkListWriter} {bytes : List UInt8}
    (h : Wrote bases writer after bytes) (hfetches : Fetches web world bases writer) :
    Fetches web world bases after := by
  rw [h.setup]
  exact hfetches

/-- Every chunk from the position on is dirty or can be fetched, so a long write comes to
the end of the file. -/
def ReachesEnd (web : WebCrates) (world : WriterWorld) (writer : DiffChunkListWriter) :
    Prop :=
  ∀ position index offset e, writer.position ≤ position →
    Locates writer.mergedChunkSizes position index offset →
    ¬ FetchFails web world writer index e

/-- The write goes beyond the end of a file whose last chunk is a base chunk that grows
and cannot be fetched, and every chunk before can be. -/
def GrowFails (web : WebCrates) (world : WriterWorld) (writer : DiffChunkListWriter)
    (buf : List UInt8) : Prop :=
  writer.totalSize < writer.position + buf.length ∧
    (∃ lastSize, writer.mergedChunkSizes.getLast? = some lastSize ∧
      writer.appendMergeLastChunk = true ∧
      lastSize < writer.preferredChunkSize
        (writer.position + buf.length - writer.totalSize) ∧
      (writer.position = writer.totalSize ∨ lastSize = 0)) ∧
    (∃ e, FetchFails web world writer (writer.mergedChunkSizes.length - 1) e) ∧
    ReachesEnd web world writer

theorem reachesEnd_of_end (hend : writer.position = writer.totalSize)
    (htotal : writer.totalSize = writer.mergedChunkSizes.sum) :
    ReachesEnd web world writer := by
  intro position index offset e hle hlocates
  have hinside := hlocates.position_lt_sum
  omega

theorem growFails_iff_of_end (hend : writer.position = writer.totalSize)
    (htotal : writer.totalSize = writer.mergedChunkSizes.sum) {left : List UInt8}
    (hleft : left ≠ []) :
    GrowFails web world writer left ↔
      ∃ e, GrowsUnfetched web world writer left.length e := by
  have hpos : 0 < left.length := List.length_pos_of_ne_nil hleft
  have hremaining : writer.position + left.length - writer.totalSize = left.length := by
    omega
  unfold GrowFails GrowsUnfetched
  rw [hremaining]
  constructor
  · rintro ⟨-, ⟨lastSize, hlast, hmerge, hlt, -⟩, ⟨e, hfails⟩, -⟩
    exact ⟨e, lastSize, hlast, hmerge, hlt, hfails⟩
  · rintro ⟨e, lastSize, hlast, hmerge, hlt, hfails⟩
    exact ⟨by omega, ⟨lastSize, hlast, hmerge, hlt, .inl hend⟩, ⟨e, hfails⟩,
      reachesEnd_of_end hend htotal⟩

/-- A pass inside the file changes only whether its own chunk has to be fetched. -/
theorem fetchFails_iff_of_inside {after : DiffChunkListWriter} {bytes : List UInt8}
    {index : Nat} (hwrote : Wrote bases writer after bytes)
    (hhere : (after.dirtyChunks.lookup index).isSome)
    (hother : ∀ j, j ≠ index →
      after.dirtyChunks.lookup j = writer.dirtyChunks.lookup j)
    (hfetched : ∀ e, ¬ FetchFails web world writer index e) (i : Nat) (e : NdnError) :
    FetchFails web world after i e ↔ FetchFails web world writer i e := by
  by_cases hi : i = index
  · subst hi
    refine iff_of_false ?_ (hfetched e)
    rintro ⟨hnone, -⟩
    rw [hnone] at hhere
    cases hhere
  · unfold FetchFails
    rw [hother i hi, hwrote.setup]
    rfl

/-- A pass inside the file does not change whether the write comes to the end. -/
theorem reachesEnd_iff_of_inside {after : DiffChunkListWriter} {index offset : Nat}
    (hlocates : Locates writer.mergedChunkSizes writer.position index offset)
    (hbefore : writer.position ≤ after.position)
    (hinside : after.position ≤ startOf writer.mergedChunkSizes (index + 1))
    (hmerged : after.mergedChunkSizes = writer.mergedChunkSizes)
    (hsame : ∀ i e, FetchFails web world after i e ↔ FetchFails web world writer i e)
    (hfetched : ∀ e, ¬ FetchFails web world writer index e) :
    ReachesEnd web world after ↔ ReachesEnd web world writer := by
  unfold ReachesEnd
  rw [hmerged]
  constructor
  · intro hreaches position i o e hle hi
    by_cases hlater : after.position ≤ position
    · rw [← hsame]
      exact hreaches position i o e hlater hi
    · -- The positions that the pass went over lie in the chunk that it wrote into.
      have hstart := hlocates.position_eq
      have hin := locates_of_first_end hlocates.lt (show startOf writer.mergedChunkSizes
        index ≤ position by omega) (show position < _ by omega)
      obtain ⟨rfl, -⟩ := hi.unique hin
      exact hfetched e
  · intro hreaches position i o e hle hi hfails
    exact hreaches position i o e (by omega) hi ((hsame i e).mp hfails)

/-- A pass inside the file does not change whether the write will fail at the end. -/
theorem growFails_iff_of_inside {after : DiffChunkListWriter} {left : List UInt8}
    {count index offset : Nat} (h : Holds bases writer)
    (hlt : writer.position < writer.totalSize) (hcount : count ≤ left.length)
    (hlocates : Locates writer.mergedChunkSizes writer.position index offset)
    (hinside : writer.position + count ≤ startOf writer.mergedChunkSizes (index + 1))
    (hwrote : Wrote bases writer after (left.take count))
    (hmerged : after.mergedChunkSizes = writer.mergedChunkSizes)
    (htotal : after.totalSize = writer.totalSize)
    (hhere : (after.dirtyChunks.lookup index).isSome)
    (hother : ∀ j, j ≠ index →
      after.dirtyChunks.lookup j = writer.dirtyChunks.lookup j)
    (hfetched : ∀ e, ¬ FetchFails web world writer index e) :
    GrowFails web world after (left.drop count) ↔ GrowFails web world writer left := by
  have hsame := fetchFails_iff_of_inside hwrote hhere hother hfetched
  have htake : (left.take count).length = count := by
    rw [List.length_take]
    omega
  have hposition : after.position = writer.position + count := by
    rw [hwrote.position_eq, htake]
  have hend : after.position + (left.drop count).length = writer.position + left.length := by
    rw [hposition, List.length_drop]
    omega
  have hreach := reachesEnd_iff_of_inside hlocates (by omega) (by omega) hmerged hsame hfetched
  have hpreferred : ∀ remaining,
      after.preferredChunkSize remaining = writer.preferredChunkSize remaining := by
    intro remaining
    rw [hwrote.setup]
    rfl
  have hmerges : after.appendMergeLastChunk = writer.appendMergeLastChunk := by
    rw [hwrote.setup]
  -- A last chunk that is not empty is reached only by writing into it.
  have hlast : ∀ lastSize e, writer.mergedChunkSizes.getLast? = some lastSize →
      FetchFails web world writer (writer.mergedChunkSizes.length - 1) e →
      (after.position = writer.totalSize ∨ lastSize = 0) → lastSize = 0 := by
    intro lastSize e hsome hfails hreached
    rcases hreached with hreached | hzero
    · obtain ⟨front, hfront⟩ := List.getLast?_eq_some_iff.mp hsome
      have hlength : writer.mergedChunkSizes.length = front.length + 1 := by
        rw [hfront, List.length_append, List.length_singleton]
      have hsum : startOf writer.mergedChunkSizes front.length + lastSize =
          writer.totalSize := by
        unfold startOf
        rw [h.total, hfront, List.take_left, List.sum_append, List.sum_singleton]
      have hindex := hlocates.lt
      have hne : index ≠ front.length := by
        rintro rfl
        rw [hlength, Nat.add_sub_cancel] at hfails
        exact hfetched e hfails
      have hmono := startOf_mono writer.mergedChunkSizes
        (show index + 1 ≤ front.length by omega)
      omega
    · exact hzero
  unfold GrowFails
  rw [hend, htotal, hmerged, hmerges]
  constructor
  · rintro ⟨hbeyond, ⟨lastSize, hsome, hmerge, hless, hreached⟩, ⟨e, hfails⟩, hbefore⟩
    rw [hpreferred] at hless
    rw [hsame] at hfails
    exact ⟨hbeyond, ⟨lastSize, hsome, hmerge, hless,
      .inr (hlast lastSize e hsome hfails hreached)⟩, ⟨e, hfails⟩, hreach.mp hbefore⟩
  · rintro ⟨hbeyond, ⟨lastSize, hsome, hmerge, hless, hreached⟩, ⟨e, hfails⟩, hbefore⟩
    have hzero : lastSize = 0 := hreached.resolve_left (Nat.ne_of_lt hlt)
    exact ⟨hbeyond, ⟨lastSize, hsome, hmerge, by rwa [hpreferred], .inr hzero⟩,
      ⟨e, (hsame _ e).mpr hfails⟩, hreach.mpr hbefore⟩

/-- Where the last chunk has grown and was not fetched, the tables describe no file. -/
theorem GrowsUnfetched.not_holds (h : Holds bases writer) {remaining : Nat} {e : NdnError}
    (hgrows : GrowsUnfetched web world writer remaining e) (hremaining : 0 < remaining)
    (hfits : writer.totalSize + writer.appendCount remaining ≤ u64Max) :
    ¬ Holds bases (writer.extendForAppend remaining) := by
  obtain ⟨lastSize, hlast, hmerge, hless, hnone, -⟩ := hgrows
  obtain ⟨front, hfront⟩ := List.getLast?_eq_some_iff.mp hlast
  have hlength : writer.mergedChunkSizes.length - 1 = front.length := by
    rw [hfront, List.length_append, List.length_singleton, Nat.add_sub_cancel]
  rw [hlength] at hnone
  have hlt : front.length < writer.mergedChunkSizes.length := by
    rw [hfront, List.length_append, List.length_singleton]
    omega
  have hpiece := h.size_eq hlt
  have hget : writer.mergedChunkSizes[front.length] = lastSize := by
    simp only [hfront, List.getElem_append_right le_rfl, Nat.sub_self, List.getElem_singleton]
  have hle : lastSize ≤ writer.totalSize := by
    rw [h.total, hfront, List.sum_append, List.sum_singleton]
    exact Nat.le_add_left _ _
  have hadded : writer.appendCount remaining =
      min (writer.preferredChunkSize remaining - lastSize) remaining := by
    unfold appendCount
    rw [hlast]
    exact if_pos ⟨hmerge, hless⟩
  rw [hadded] at hfits
  have hsize : saturatingAdd lastSize
      (min (writer.preferredChunkSize remaining - lastSize) remaining) =
      lastSize + min (writer.preferredChunkSize remaining - lastSize) remaining :=
    saturatingAdd_eq (by omega)
  intro hafter
  have hgrown : writer.extendForAppend remaining = writer.growLastChunk front.length lastSize
      (min (writer.preferredChunkSize remaining - lastSize) remaining) := by
    unfold extendForAppend
    rw [if_neg (by omega), hlast]
    dsimp only
    rw [if_pos ⟨hmerge, hless⟩, hlength]
  rw [hgrown] at hafter
  have hmerged : (writer.growLastChunk front.length lastSize
      (min (writer.preferredChunkSize remaining - lastSize) remaining)).mergedChunkSizes =
      writer.mergedChunkSizes.set front.length
        (lastSize + min (writer.preferredChunkSize remaining - lastSize) remaining) := by
    unfold growLastChunk
    dsimp only
    rw [hsize]
  have hdirty : (writer.growLastChunk front.length lastSize
      (min (writer.preferredChunkSize remaining - lastSize) remaining)).dirtyChunks =
      writer.dirtyChunks := by
    unfold growLastChunk
    rw [hnone]
  have hlt' : front.length < (writer.growLastChunk front.length lastSize
      (min (writer.preferredChunkSize remaining - lastSize)
        remaining)).mergedChunkSizes.length := by
    rw [hmerged, List.length_set]
    exact hlt
  have hpiece' := hafter.size_eq hlt'
  rw [hdirty] at hpiece'
  simp only [hmerged, List.getElem_set_self] at hpiece'
  omega

/-- What a write that failed leaves behind: the file with the bytes before the failure,
or tables that describe no file. -/
def Failed (web : WebCrates) (world : WriterWorld) (bases : List (List UInt8))
    (writer : DiffChunkListWriter) (buf : List UInt8) (after : DiffChunkListWriter) : Prop :=
  (GrowFails web world writer buf → ¬ Holds bases after) ∧
    (¬ GrowFails web world writer buf →
      ∃ count ≤ buf.length, Wrote bases writer after (buf.take count))

/-- The loop of `write` ends.  It writes everything; or a base chunk cannot be fetched,
and then the file has the bytes before it, unless the last chunk has grown. -/
theorem Holds.writeFrom (h : Holds bases writer) (hfetches : Fetches web world bases writer)
    {passes : Nat} {left : List UInt8} (written : Nat) (hpasses : left.length ≤ passes)
    (hfits : writer.position + left.length ≤ u64Max) :
    ∃ after, (writeFrom web world passes writer left written =
          (after, some (.ok (written + left.length))) ∧ Wrote bases writer after left) ∨
      ∃ e, writeFrom web world passes writer left written = (after, some (.error e)) ∧
        Failed web world bases writer left after := by
  induction passes generalizing writer left written with
  | zero =>
      obtain rfl : left = [] := List.eq_nil_of_length_eq_zero (Nat.le_zero.mp hpasses)
      exact ⟨writer, .inl ⟨rfl, Wrote.refl h⟩⟩
  | succ passes ih =>
      cases left with
      | nil => exact ⟨writer, .inl ⟨rfl, Wrote.refl h⟩⟩
      | cons byte rest =>
          generalize hleft : byte :: rest = left at *
          have hne : left ≠ [] := by
            rw [← hleft]
            exact List.cons_ne_nil _ _
          -- A pass that wrote some bytes, and what the later passes do.
          have hpass : ∀ after count, writer.writeOnce web world left =
              (after, some (.ok count)) → 0 < count → count ≤ left.length →
              Wrote bases writer after (left.take count) →
              (GrowFails web world after (left.drop count) ↔
                GrowFails web world writer left) →
              ∃ after, (DiffChunkListWriter.writeFrom web world (passes + 1) writer left
                    written = (after, some (.ok (written + left.length))) ∧
                  Wrote bases writer after left) ∨
                ∃ e, DiffChunkListWriter.writeFrom web world (passes + 1) writer left
                    written = (after, some (.error e)) ∧
                  Failed web world bases writer left after := by
            intro after count hwrite hpos hle hwrote hgrow
            have htake : (left.take count).length = count := by
              rw [List.length_take]
              omega
            have hdrop : (left.drop count).length = left.length - count := List.length_drop
            have hposition := hwrote.position_eq
            have hstep : DiffChunkListWriter.writeFrom web world (passes + 1) writer left
                written = DiffChunkListWriter.writeFrom web world passes after
                  (left.drop count) (written + count) := by
              rw [← hleft] at hwrite ⊢
              conv_lhs => unfold DiffChunkListWriter.writeFrom
              rw [hwrite]
            obtain ⟨last, hrest⟩ := ih hwrote.holds (hwrote.fetches hfetches)
              (written + count) (show (left.drop count).length ≤ passes by omega) (by omega)
            rw [hstep]
            refine ⟨last, hrest.imp ?_ ?_⟩
            · rintro ⟨hok, hlast⟩
              have hall := hwrote.trans h hlast
              rw [List.take_append_drop] at hall
              refine ⟨?_, hall⟩
              rw [hok, hdrop]
              congr 3
              omega
            · rintro ⟨e, herror, hgrown, hlast⟩
              refine ⟨e, herror, fun hfails => hgrown (hgrow.mpr hfails), fun hfails => ?_⟩
              obtain ⟨count', hle', hlast⟩ := hlast fun hno => hfails (hgrow.mp hno)
              refine ⟨count + count', by omega, ?_⟩
              rw [List.take_add]
              exact hwrote.trans h hlast
          have hstop : ∀ after e, writer.writeOnce web world left =
              (after, some (.error e)) →
              DiffChunkListWriter.writeFrom web world (passes + 1) writer left written =
                (after, some (.error e)) := by
            intro after e hwrite
            rw [← hleft] at hwrite ⊢
            unfold DiffChunkListWriter.writeFrom
            rw [hwrite]
          by_cases hlt : writer.position < writer.totalSize
          · obtain ⟨index, offset, hlocates, hcase⟩ := h.writeOnce_inside hfetches hlt hne
            rcases hcase with ⟨after, count, hwrite, hpos, hle, hinside, hwrote, hmerged,
              htotal, hhere, hother, hfetched⟩ | ⟨e, hwrite, hfails⟩
            · exact hpass after count hwrite hpos hle hwrote (growFails_iff_of_inside h hlt hle
                hlocates hinside hwrote hmerged htotal hhere hother hfetched)
            · refine ⟨writer, .inr ⟨e, hstop _ _ hwrite, fun hgrow => ?_, fun _ =>
                ⟨0, Nat.zero_le _, Wrote.refl h⟩⟩⟩
              obtain ⟨-, -, -, hbefore⟩ := hgrow
              exact absurd hfails (hbefore _ _ _ e le_rfl hlocates)
          · have hend : writer.position = writer.totalSize :=
              Nat.le_antisymm h.position_le (Nat.le_of_not_lt hlt)
            have hadded := writer.appendCount_le left.length
            rcases h.writeOnce_append hfetches hend hne (by omega) with
              ⟨after, count, happends⟩ | ⟨e, hwrite, hgrows⟩
            · refine hpass after count happends.write_eq happends.pos happends.le
                happends.wrote ?_
              -- The last chunk is dirty now, so it will not be fetched again.
              refine iff_of_false ?_ ?_
              · rintro ⟨-, -, ⟨e, hnone, -⟩, -⟩
                have hdirty := happends.dirty
                rw [hnone] at hdirty
                cases hdirty
              · intro hgrow
                obtain ⟨e, hgrows⟩ := (growFails_iff_of_end hend h.total hne).mp hgrow
                exact happends.fetched e hgrows
            · refine ⟨_, .inr ⟨e, hstop _ _ hwrite, fun _ => hgrows.not_holds h
                (List.length_pos_of_ne_nil hne) (by omega), fun hno => absurd ?_ hno⟩⟩
              exact (growFails_iff_of_end hend h.total hne).mpr ⟨e, hgrows⟩

end DiffChunkListWriter
end NamedStore
end CyfsNdn

import CyfsNdn.NamedStore.DiffChunkListWriter

/-!
# Opening a writer from a damaged state

`open_from_state` compares the tables of the state with each other before it cuts the
file of differences.  What it does not guard is its two sums: where they do not overflow,
every slice lies inside the file.
-/

namespace CyfsNdn
namespace NamedStore
namespace DiffChunkListWriter

open NdnLib Collections

/-- The two sums that `open_from_state` comes to do not overflow. -/
def SumsFit (baseChunkList : ChunkList) (state : DiffChunkListWriterState) : Prop :=
  state.baseChunkSizes.length ≠ baseChunkList.body.length ∨
    state.totalSize < state.position ∨
    state.mergedChunkSizes.sum ≤ u64Max ∧
      (state.mergedChunkSizes.sum ≠ state.totalSize ∨
        state.chunkIndices.length ≠ state.diffChunkSizes.length ∨
        state.diffChunkSizes.sum ≤ u64Max)

/-- Every dirty chunk is the part of the file that its record names, with its size. -/
def DirtyInside (fileData : List UInt8) (entries : List (Nat × Nat))
    (dirtyChunks : List (Nat × List UInt8)) : Prop :=
  ∀ chunkIndex chunk, (chunkIndex, chunk) ∈ dirtyChunks →
    ∃ i size, entries[i]? = some (chunkIndex, size) ∧
      startOf (entries.map Prod.snd) i + size ≤ fileData.length ∧
      chunk = (fileData.drop (startOf (entries.map Prod.snd) i)).take size ∧
      chunk.length = size

/-- The call returns, and a writer that it returns is sound. -/
def OpensSafely (files : LocalFiles) (baseChunkList : ChunkList)
    (state : DiffChunkListWriterState) (openChunkReader : Option OpenChunkReader) : Prop :=
  ∃ result, openFromState files baseChunkList state openChunkReader = some result ∧
    ∀ writer, result = .ok writer →
      DirtyInside ((files state.diffFilePath).getD [])
        (state.chunkIndices.zip state.diffChunkSizes) writer.dirtyChunks ∧
      writer.mergedChunkSizes.sum = writer.totalSize

theorem iterSum_eq_some {sizes : List Nat} (h : sizes.sum ≤ u64Max) :
    iterSum sizes = some sizes.sum :=
  if_neg (Nat.not_lt.mpr h)

theorem iterSum_eq_none {sizes : List Nat} (h : u64Max < sizes.sum) : iterSum sizes = none :=
  if_pos h

/-- Where the recorded sizes fit into the rest of the file, the loop returns, and cuts
every chunk out of this rest. -/
theorem readDirtyChunks_inside (mergedChunkSizes : List Nat) {fileData : List UInt8}
    (hfile : fileData.length ≤ u64Max) (entries : List (Nat × Nat)) (seen : List Nat)
    (cursor : Nat) (dirtyChunks : List (Nat × List UInt8))
    (hfits : cursor + (entries.map Prod.snd).sum ≤ fileData.length) :
    ∃ result, readDirtyChunks mergedChunkSizes fileData entries seen cursor dirtyChunks =
        some result ∧
      ∀ read, result = .ok read → ∀ chunkIndex chunk, (chunkIndex, chunk) ∈ read →
        (chunkIndex, chunk) ∈ dirtyChunks ∨
        ∃ i size, entries[i]? = some (chunkIndex, size) ∧
          cursor + startOf (entries.map Prod.snd) i + size ≤ fileData.length ∧
          chunk = (fileData.drop (cursor + startOf (entries.map Prod.snd) i)).take size := by
  induction entries generalizing seen cursor dirtyChunks with
  | nil =>
      refine ⟨_, rfl, ?_⟩
      intro read hread chunkIndex chunk hchunk
      obtain rfl := Except.ok.inj hread
      exact .inl hchunk
  | cons entry rest ih =>
      obtain ⟨index, size⟩ := entry
      rw [List.map_cons, List.sum_cons] at hfits
      dsimp only at hfits
      unfold readDirtyChunks
      by_cases hseen : index ∈ seen
      · rw [if_pos hseen]
        exact ⟨_, rfl, nofun⟩
      rw [if_neg hseen]
      cases hmerged : mergedChunkSizes[index]? with
      | none => exact ⟨_, rfl, nofun⟩
      | some expectedSize =>
          dsimp only
          by_cases hsize : size ≠ expectedSize
          · rw [if_pos hsize]
            exact ⟨_, rfl, nofun⟩
          have hend : saturatingAdd cursor size = cursor + size :=
            saturatingAdd_eq (by omega)
          rw [if_neg hsize, hend, if_neg (by omega)]
          obtain ⟨result, hresult, hread⟩ := ih (index :: seen) (cursor + size)
            (insertKey index ((fileData.drop cursor).take (cursor + size - cursor))
              dirtyChunks) (by omega)
          refine ⟨result, hresult, ?_⟩
          intro read hok chunkIndex chunk hchunk
          rcases hread read hok chunkIndex chunk hchunk with hold | ⟨i, later, hi, hle, hcut⟩
          · rcases mem_insertKey hold with hnew | hold
            · obtain ⟨rfl, rfl⟩ := Prod.mk.inj hnew
              refine .inr ⟨0, size, rfl, ?_, ?_⟩
              · rw [startOf_zero]
                omega
              · rw [startOf_zero, Nat.add_zero, Nat.add_sub_cancel_left]
            · exact .inl hold
          · have hstart : startOf (((index, size) :: rest).map Prod.snd) (i + 1) =
                size + startOf (rest.map Prod.snd) i := by
              unfold startOf
              rw [List.map_cons, List.take_succ_cons, List.sum_cons]
            refine .inr ⟨i + 1, later, hi, ?_, ?_⟩
            · rw [hstart]
              omega
            · rw [hstart, ← Nat.add_assoc]
              exact hcut

/-- `open_from_state` is safe exactly if none of the sums that it comes to overflows. -/
theorem opensSafely_iff (files : LocalFiles) (baseChunkList : ChunkList)
    (state : DiffChunkListWriterState) (openChunkReader : Option OpenChunkReader) :
    OpensSafely files baseChunkList state openChunkReader ↔ SumsFit baseChunkList state := by
  unfold OpensSafely SumsFit openFromState
  by_cases hcount : state.baseChunkSizes.length ≠ baseChunkList.body.length
  · rw [if_pos hcount]
    exact iff_of_true ⟨_, rfl, nofun⟩ (.inl hcount)
  rw [if_neg hcount]
  by_cases hposition : state.totalSize < state.position
  · rw [if_pos hposition]
    exact iff_of_true ⟨_, rfl, nofun⟩ (.inr (.inl hposition))
  rw [if_neg hposition]
  by_cases hmerged : state.mergedChunkSizes.sum ≤ u64Max
  swap
  · -- The first sum overflows.
    rw [iterSum_eq_none (Nat.lt_of_not_le hmerged)]
    refine iff_of_false nofun ?_
    rintro (h | h | h)
    · exact hcount h
    · exact hposition h
    · exact hmerged h.1
  rw [iterSum_eq_some hmerged]
  dsimp only
  by_cases htotal : state.mergedChunkSizes.sum ≠ state.totalSize
  · rw [if_pos htotal]
    exact iff_of_true ⟨_, rfl, nofun⟩ (.inr (.inr ⟨hmerged, .inl htotal⟩))
  rw [if_neg htotal]
  by_cases hlengths : state.chunkIndices.length ≠ state.diffChunkSizes.length
  · rw [if_pos hlengths]
    exact iff_of_true ⟨_, rfl, nofun⟩ (.inr (.inr ⟨hmerged, .inr (.inl hlengths)⟩))
  rw [if_neg hlengths]
  by_cases hdiff : state.diffChunkSizes.sum ≤ u64Max
  swap
  · -- The second sum overflows.
    rw [iterSum_eq_none (Nat.lt_of_not_le hdiff)]
    refine iff_of_false nofun ?_
    rintro (h | h | h)
    · exact hcount h
    · exact hposition h
    · rcases h.2 with h | h | h
      · exact htotal h
      · exact hlengths h
      · exact hdiff h
  refine iff_of_true ?_ (.inr (.inr ⟨hmerged, .inr (.inr hdiff)⟩))
  rw [iterSum_eq_some hdiff]
  dsimp only
  generalize hdata : (files state.diffFilePath).getD [] = fileData
  by_cases hsize : state.diffChunkSizes.sum ≠ fileData.length
  · rw [if_pos hsize]
    exact ⟨_, rfl, nofun⟩
  rw [if_neg hsize]
  simp only [ne_eq, Decidable.not_not] at hlengths hsize htotal
  have hsnd : (state.chunkIndices.zip state.diffChunkSizes).map Prod.snd =
      state.diffChunkSizes := List.map_snd_zip (by omega)
  have hfile : fileData.length ≤ u64Max := hsize ▸ hdiff
  obtain ⟨result, hresult, hread⟩ := readDirtyChunks_inside
    state.mergedChunkSizes hfile (state.chunkIndices.zip state.diffChunkSizes) [] 0 []
    (by rw [hsnd]; omega)
  rw [hresult]
  cases result with
  | error e => exact ⟨_, rfl, nofun⟩
  | ok dirtyChunks =>
      refine ⟨_, rfl, ?_⟩
      intro writer hwriter
      obtain rfl := Except.ok.inj hwriter
      refine ⟨?_, htotal⟩
      intro chunkIndex chunk hchunk
      rcases hread dirtyChunks rfl chunkIndex chunk hchunk with hno | ⟨i, size, hi, hle, hcut⟩
      · cases hno
      · rw [Nat.zero_add] at hle hcut
        refine ⟨i, size, hi, hle, hcut, ?_⟩
        rw [hcut, List.length_take, List.length_drop]
        omega

/-! ## Sizes whose sum is too large -/

/-- A state file with two sizes whose sum is `2 ^ 64`. -/
def overflowingState : DiffChunkListWriterState where
  baseChunkList := ⟨"clist", []⟩
  diffFilePath := "diff"
  chunkIndices := []
  diffChunkSizes := []
  baseChunkSizes := []
  mergedChunkSizes := [u64Max, 1]
  position := 0
  totalSize := 0
  autoCache := false
  localMode := false
  fixedChunkSize := none
  appendMergeLastChunk := true

theorem overflowingState_panics :
    openFromState (fun _ => none) ⟨0, []⟩ overflowingState none = none ∧
      ¬ OpensSafely (fun _ => none) ⟨0, []⟩ overflowingState none := by
  have hpanic : openFromState (fun _ => none) ⟨0, []⟩ overflowingState none = none := by
    rfl
  refine ⟨hpanic, ?_⟩
  rintro ⟨result, hresult, -⟩
  rw [hpanic] at hresult
  cases hresult

end DiffChunkListWriter
end NamedStore
end CyfsNdn

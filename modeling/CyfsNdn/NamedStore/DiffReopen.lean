import CyfsNdn.NamedStore.DiffClose

/-!
# Reopening a closed writer

What is read back from the state and the file of a closed writer is this writer, if its
sizes add up to a `u64`.  The merged chunk list that is rebuilt from them is the one of
`finalize`.
-/

namespace CyfsNdn
namespace NamedStore
namespace DiffChunkListWriter

open NdnLib Collections

variable {crates : Crates} {web : WebCrates} {writer : DiffChunkListWriter}

/-! ## Sizes of the copies -/

/-- The values at ascending indexes are some of the values. -/
theorem sublist_of_keySorted {α : Type} {entries : List (Nat × α)} {value : Nat × α → Nat}
    {sizes : List Nat} (first : Nat) (hsorted : KeySorted entries)
    (hvalues : ∀ e ∈ entries, first ≤ e.1 ∧ sizes[e.1 - first]? = some (value e)) :
    (entries.map value).Sublist sizes := by
  induction sizes generalizing first entries with
  | nil =>
      cases entries with
      | nil => exact List.Sublist.slnil
      | cons e rest =>
          have hvalue := (hvalues e List.mem_cons_self).2
          cases hvalue
  | cons size later ih =>
      have hlater : ∀ {rest : List (Nat × α)}, KeySorted rest →
          (∀ e ∈ rest, first < e.1 ∧ (size :: later)[e.1 - first]? = some (value e)) →
          (rest.map value).Sublist later := by
        intro rest hrest hvaluesRest
        refine ih (first + 1) hrest fun e he => ?_
        obtain ⟨hlt, hvalue⟩ := hvaluesRest e he
        refine ⟨hlt, ?_⟩
        rw [show e.1 - first = e.1 - (first + 1) + 1 by omega] at hvalue
        exact hvalue
      cases entries with
      | nil => exact List.nil_sublist _
      | cons e rest =>
          have hrest : ∀ e' ∈ rest, first < e'.1 ∧
              (size :: later)[e'.1 - first]? = some (value e') := by
            intro e' he'
            have hlt := hsorted.lt_of_mem_tail he'
            have hfirst := (hvalues e List.mem_cons_self).1
            exact ⟨by omega, (hvalues e' (List.mem_cons_of_mem _ he')).2⟩
          obtain ⟨hle, hvalue⟩ := hvalues e List.mem_cons_self
          by_cases hhere : e.1 = first
          · rw [hhere, Nat.sub_self] at hvalue
            obtain rfl := Option.some.inj hvalue
            exact (hlater hsorted.tail hrest).cons_cons _
          · refine (hlater hsorted fun e' he' => ?_).cons _
            rcases List.mem_cons.mp he' with rfl | he'
            · exact ⟨by omega, hvalue⟩
            · exact hrest e' he'

theorem Sound.size_of_mem (h : Sound writer) {e : Nat × List UInt8}
    (he : e ∈ writer.dirtyChunks) : writer.mergedChunkSizes[e.1]? = some e.2.length :=
  h.chunk_length e.1 e.2 ((lookup_eq_some_iff_mem h.sorted.nodup).mpr he)

/-- The copies are no larger than the file. -/
theorem Sound.sum_dirtyChunks_le (h : Sound writer) :
    (writer.dirtyChunks.map fun e => e.2.length).sum ≤ writer.mergedChunkSizes.sum :=
  (sublist_of_keySorted 0 h.sorted fun _ he =>
    ⟨Nat.zero_le _, h.size_of_mem he⟩).sum_le_sum fun _ _ => Nat.zero_le _

theorem length_flatten_dirtyChunks (dirtyChunks : List (Nat × List UInt8)) :
    (dirtyChunks.map Prod.snd).flatten.length =
      (dirtyChunks.map fun e => e.2.length).sum := by
  rw [List.length_flatten, List.map_map]
  rfl

/-! ## Cutting the file again -/

/-- The loop of `open_from_state` over what was written reads every copy. -/
theorem readDirtyChunks_written {mergedChunkSizes : List Nat} {file : List UInt8}
    (hfits : file.length ≤ u64Max) (done : List (Nat × List UInt8))
    {rest : List (Nat × List UInt8)} {seen : List Nat}
    (hsorted : KeySorted (done ++ rest))
    (hsizes : ∀ e ∈ rest, mergedChunkSizes[e.1]? = some e.2.length)
    (hseen : ∀ i ∈ seen, i ∈ done.map Prod.fst)
    (hfile : file = (done.map Prod.snd).flatten ++ (rest.map Prod.snd).flatten) :
    readDirtyChunks mergedChunkSizes file
      ((rest.map Prod.fst).zip (rest.map fun e => e.2.length)) seen
      (done.map Prod.snd).flatten.length done = some (.ok (done ++ rest)) := by
  induction rest generalizing done seen with
  | nil =>
      rw [List.append_nil]
      rfl
  | cons e rest ih =>
      obtain ⟨chunkIndex, chunk⟩ := e
      have hall := hsorted
      rw [List.append_cons] at hsorted
      have hlast : ∀ e ∈ done, e.1 < chunkIndex := by
        intro e he
        unfold KeySorted at hall
        rw [List.map_append] at hall
        exact (List.pairwise_append.mp hall).2.2 _ (List.mem_map_of_mem he) _
          List.mem_cons_self
      have hfresh : chunkIndex ∉ seen := by
        intro hmem
        obtain ⟨e, he, heq⟩ := List.mem_map.mp (hseen _ hmem)
        have hlt := hlast e he
        omega
      have hsize := hsizes _ List.mem_cons_self
      rw [List.map_cons, List.flatten_cons] at hfile
      have hlength := congrArg List.length hfile
      rw [List.length_append, List.length_append] at hlength
      dsimp only at hsize hfile hlength
      have hend : saturatingAdd (done.map Prod.snd).flatten.length chunk.length =
          (done.map Prod.snd).flatten.length + chunk.length := saturatingAdd_eq (by omega)
      have hnext : ((done ++ [(chunkIndex, chunk)]).map Prod.snd).flatten.length =
          (done.map Prod.snd).flatten.length + chunk.length := by
        rw [List.map_append, List.flatten_append, List.length_append, List.map_singleton,
          List.flatten_singleton]
      rw [List.map_cons, List.map_cons, List.zip_cons_cons]
      unfold readDirtyChunks
      rw [if_neg hfresh, hsize]
      dsimp only
      rw [if_neg (by simp), hend, if_neg (by omega), hfile, List.drop_left,
        Nat.add_sub_cancel_left, List.take_left, insertKey_of_forall_lt hlast, ← hnext,
        ← hfile, List.append_cons done (chunkIndex, chunk) rest]
      refine ih _ hsorted (fun e he => hsizes e (List.mem_cons_of_mem _ he)) ?_ ?_
      · intro i hi
        rw [List.map_append, List.mem_append]
        rcases List.mem_cons.mp hi with rfl | hi
        · exact .inr (List.mem_singleton.mpr rfl)
        · exact .inl (hseen i hi)
      · rw [hfile, List.map_append, List.flatten_append, List.append_assoc]
        simp

section Written

variable {files : LocalFiles} {baseChunkList : ChunkList}

/-- The state of a closed writer and its file give the writer back. -/
theorem Sound.openFromState (h : Sound writer)
    (hfits : writer.mergedChunkSizes.sum ≤ u64Max)
    (hbase : baseChunkList.body = writer.baseChunkIds)
    (hfile : files writer.diffFilePath = some (writer.dirtyChunks.map Prod.snd).flatten)
    (openChunkReader : Option OpenChunkReader) :
    openFromState files baseChunkList (closedState writer) openChunkReader =
      some (.ok { writer with openChunkReader := openChunkReader }) := by
  have htotal := h.total
  have hsum := h.sum_dirtyChunks_le
  have hids := h.ids_length
  have hposition := h.position_le
  have hread : readDirtyChunks writer.mergedChunkSizes (writer.dirtyChunks.map Prod.snd).flatten
      ((writer.dirtyChunks.map Prod.fst).zip (writer.dirtyChunks.map fun e => e.2.length)) [] 0
      [] = some (.ok writer.dirtyChunks) :=
    readDirtyChunks_written (by rw [length_flatten_dirtyChunks]; omega) [] h.sorted
      (fun e he => h.size_of_mem he) nofun rfl
  unfold DiffChunkListWriter.openFromState closedState
  dsimp only
  rw [hbase, if_neg (by omega), if_neg (by omega)]
  unfold iterSum
  rw [if_neg (by omega)]
  dsimp only
  rw [if_neg (by omega), if_neg (by simp), if_neg (by omega)]
  dsimp only
  rw [hfile, Option.getD_some, length_flatten_dirtyChunks, if_neg (by simp), hread]

end Written

end DiffChunkListWriter
end NamedStore
end CyfsNdn

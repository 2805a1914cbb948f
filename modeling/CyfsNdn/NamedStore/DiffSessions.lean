import CyfsNdn.NamedStore.DiffEdits

/-!
# Editing a file in several sessions

A writer is closed, and later opened again over the state and the file that it left.  As
it comes back as it was, a file that is edited in sessions is the array of all the edits.
-/

namespace CyfsNdn
namespace NamedStore
namespace DiffChunkListWriter

open NdnLib Collections Transition Relation

variable {web : WebCrates} {writer : DiffChunkListWriter}

/-- A writer is edited, or closed and opened again; beside it a plain array is written over at
the same positions. -/
inductive SessionStep (web : WebCrates) (baseChunkList : ChunkList) (bases : List (List UInt8)) :
    DiffChunkListWriter × List UInt8 → DiffChunkListWriter × List UInt8 → Prop where
  | edit {writer after : DiffChunkListWriter} {array content : List UInt8} {edits : List Edit}
      (hpossible : ∀ edit ∈ edits,
        edit.Possible web writer.openChunkReader baseChunkList.body bases)
      (hedited : edited web writer array edits = some (after, content)) :
      SessionStep web baseChunkList bases (writer, array) (after, content)
  | reopen {writer after : DiffChunkListWriter} {array file : List UInt8} {now : Nat}
      {fault : Option (Nat × String)} {mgr : NamedDataMgr} {state : DiffChunkListWriterState}
      {files : LocalFiles} {openChunkReader : Option OpenChunkReader}
      (hclose : writer.close web.toCrates now fault mgr = (file, .ok state))
      (hfile : files state.diffFilePath = some file)
      (hopen : openFromState files baseChunkList state openChunkReader = some (.ok after)) :
      SessionStep web baseChunkList bases (writer, array) (after, array)

section Sessions

variable {baseChunkList : ChunkList} {bases : List (List UInt8)} {array : List UInt8}

/-- Another chunk reader changes nothing that the writer describes. -/
theorem Refines.withReader {start : DiffChunkListWriter} (h : Refines bases start writer array)
    (openChunkReader : Option OpenChunkReader) :
    let after := { writer with openChunkReader := openChunkReader }
    Refines bases after after array := by
  intro after
  refine ⟨⟨h.ranged.fixed_le, h.ranged.base_le⟩, h.bases_eq, ?_, rfl⟩
  rcases h.describes with ⟨hholds, hkeeps, hcontent⟩ | ⟨hout, hlarge⟩
  · exact .inl ⟨⟨hholds.ids, hholds.baseSizes, hholds.sorted, hholds.dirty_lt, hholds.longer,
      hholds.appended, hholds.sizes, hholds.total, hholds.fits, hholds.position_le⟩, hkeeps,
      hcontent⟩
  · have hsound := hout.sound
    exact .inr ⟨⟨⟨hsound.ids_length, hsound.sorted, hsound.chunk_length, hsound.total,
      hsound.position_le, hsound.longer⟩, hout.large, hout.undirty⟩, hlarge⟩

/-- A writer of a session: it refines the array, over the base chunks. -/
structure InSession (baseChunkList : ChunkList) (bases : List (List UInt8))
    (w : DiffChunkListWriter × List UInt8) : Prop where
  refines : Refines bases w.1 w.1 w.2
  ids : w.1.baseChunkIds = baseChunkList.body

/-- What is opened again is the writer that was closed. -/
theorem InSession.eq_of_reopen {w : DiffChunkListWriter × List UInt8}
    (h : InSession baseChunkList bases w) {files : LocalFiles} {after : DiffChunkListWriter}
    {openChunkReader : Option OpenChunkReader}
    (hfile : files w.1.diffFilePath = some (w.1.dirtyChunks.map Prod.snd).flatten)
    (hopen : openFromState files baseChunkList (closedState w.1) openChunkReader =
      some (.ok after)) :
    after = { w.1 with openChunkReader := openChunkReader } := by
  have hsum : w.1.mergedChunkSizes.sum ≤ u64Max := by
    by_contra hlarge
    have hposition := h.refines.sound.position_le
    have hlength := h.refines.sound.ids_length
    have hids := congrArg List.length h.ids
    unfold DiffChunkListWriter.openFromState closedState at hopen
    dsimp only at hopen
    rw [if_neg (by omega), if_neg (by omega)] at hopen
    unfold iterSum at hopen
    rw [if_pos (by omega)] at hopen
    cases hopen
  rw [h.refines.sound.openFromState hsum h.ids.symm hfile] at hopen
  exact (Except.ok.inj (Option.some.inj hopen)).symm

/-- What one step of a session preserves. -/
theorem InSession.step {w w' : DiffChunkListWriter × List UInt8}
    (h : InSession baseChunkList bases w) (hstep : SessionStep web baseChunkList bases w w') :
    InSession baseChunkList bases w' := by
  cases hstep with
  | edit hpossible hedited =>
      rw [← h.ids] at hpossible
      have hafter := h.refines.edited hpossible hedited
      have hsetup := congrArg DiffChunkListWriter.baseChunkIds hafter.setup
      exact ⟨⟨hafter.ranged, hafter.bases_eq, hafter.describes, rfl⟩, hsetup.trans h.ids⟩
  | reopen hclose hfile hopen =>
      obtain ⟨rfl, rfl, -⟩ := close_ok h.refines.sound.sorted hclose
      obtain rfl := h.eq_of_reopen hfile hopen
      exact ⟨h.refines.withReader _, h.ids⟩

end Sessions

/-! ## The list with the chunk `abc` twice, in two sessions -/

section Sample

open NamedDataMgr

end Sample

end DiffChunkListWriter
end NamedStore
end CyfsNdn

import CyfsNdn.NamedStore.DiffBuild

/-!
# A writer refines a plain array

Seeks and writes that succeed do to the writer what they do to an array of bytes.  What
is read afterwards, over the state of the closed writer or over the differences that
`finalize` names, is this array.
-/

namespace CyfsNdn
namespace NamedStore
namespace DiffChunkListWriter

open NdnLib Collections Transition

/-! ## Edits -/

/-- A call on a writer.  A write finds the stores and files of its moment. -/
inductive Edit where
  | seek (seekFrom : SeekFrom)
  | write (world : WriterWorld) (buf : List UInt8)

/-- The stores of the moment deliver the base chunks, if anything. -/
def Edit.Possible (web : WebCrates) (openChunkReader : Option OpenChunkReader)
    (baseChunkIds : List ChunkId) (bases : List (List UInt8)) : Edit → Prop
  | .seek _ => True
  | .write world buf =>
      List.Forall₂ (Delivers web.toCrates world.files world.mgr openChunkReader)
        baseChunkIds bases ∧ buf.length ≤ u64Max

/-- The writer, and a plain array that is written over at the same positions, after these
calls; `none` if a write does not succeed. -/
def edited (web : WebCrates) : DiffChunkListWriter → List UInt8 → List Edit →
    Option (DiffChunkListWriter × List UInt8)
  | writer, array, [] => some (writer, array)
  | writer, array, .seek seekFrom :: rest =>
      edited web (writer.seek seekFrom).1 array rest
  | writer, array, .write world buf :: rest =>
      match writer.write web world buf with
      | (after, some (.ok _)) =>
          edited web after (overwrite writer.position buf array) rest
      | (_, _) => none

variable {web : WebCrates} {bases : List (List UInt8)} {writer : DiffChunkListWriter}
  {array : List UInt8}

/-- The writer describes the array, or it has outgrown every file. -/
structure Refines (bases : List (List UInt8)) (start writer : DiffChunkListWriter)
    (array : List UInt8) : Prop where
  ranged : Ranged writer
  bases_eq : writer.baseChunkSizes = bases.map List.length
  describes : Holds bases writer ∧ KeepsBases writer ∧ content bases writer = array ∨
    Outgrown writer ∧ u64Max < array.length
  setup : SameSetup start writer

theorem Refines.sound {start : DiffChunkListWriter} (h : Refines bases start writer array) :
    Sound writer := by
  rcases h.describes with ⟨hholds, -, -⟩ | ⟨hout, -⟩
  · exact hholds.sound
  · exact hout.sound

theorem Refines.seek {start : DiffChunkListWriter} (h : Refines bases start writer array)
    (seekFrom : SeekFrom) : Refines bases start (writer.seek seekFrom).1 array := by
  unfold DiffChunkListWriter.seek
  cases htarget : ListReader.seekTarget writer.position writer.totalSize seekFrom with
  | error e => exact h
  | ok target =>
      have hle := ListReader.le_of_seekTarget htarget
      refine ⟨⟨h.ranged.fixed_le, h.ranged.base_le⟩, h.bases_eq, h.describes.imp ?_ ?_,
        h.setup.trans rfl⟩
      · rintro ⟨hholds, hkeeps, hcontent⟩
        exact ⟨{ hholds with position_le := hle }, hkeeps, hcontent⟩
      · rintro ⟨hout, hlarge⟩
        exact ⟨⟨{ hout.sound with position_le := hle }, hout.large, hout.undirty⟩, hlarge⟩

theorem Refines.write {start : DiffChunkListWriter} (h : Refines bases start writer array)
    {world : WriterWorld} {buf : List UInt8}
    (hpossible : Edit.Possible web start.openChunkReader start.baseChunkIds bases
      (.write world buf))
    {after : DiffChunkListWriter} {n : Nat}
    (hwrite : writer.write web world buf = (after, some (.ok n))) :
    Refines bases start after (overwrite writer.position buf array) := by
  obtain ⟨hdata, hbuf⟩ := hpossible
  have hstart := h.setup
  have hsound := h.sound
  obtain ⟨after', result, hwrite', -, hkeeps, hsetup⟩ := hsound.writeFrom web world 0
    (le_refl buf.length)
  unfold DiffChunkListWriter.write at hwrite
  obtain ⟨rfl, hresult⟩ := Prod.mk.inj (hwrite'.symm.trans hwrite)
  obtain rfl := Option.some.inj hresult
  have hsame := hsetup
  unfold SameSetup at hsetup hstart
  refine ⟨?_, ?_, ?_, h.setup.trans hsame⟩
  · rw [hsetup]
    exact ⟨h.ranged.fixed_le, h.ranged.base_le⟩
  · rw [hsetup]
    exact h.bases_eq
  · rcases h.describes with ⟨hholds, hkeepsBefore, hcontent⟩ | ⟨hout, hlarge⟩
    · have hfetches : Fetches web world bases writer := by
        unfold Fetches
        rw [hstart]
        exact hdata
      obtain ⟨last, result, hlast, hok, -⟩ := hholds.write hfetches h.ranged hbuf
      unfold DiffChunkListWriter.write at hlast
      obtain ⟨rfl, hresult⟩ := Prod.mk.inj (hlast.symm.trans hwrite)
      refine (hok n (Option.some.inj hresult)).imp ?_ ?_
      · intro hwrote
        exact ⟨hwrote.holds, hkeeps hkeepsBefore, by rw [hwrote.content_eq, hcontent]⟩
      · rintro ⟨hout, hover⟩
        refine ⟨hout, ?_⟩
        have hposition := hholds.position_le
        have hlength := hholds.length_content
        rw [hcontent] at hlength
        rw [length_overwrite (by omega)]
        omega
    · obtain ⟨last, result, hlast, -, hok⟩ := hout.writeFrom web world h.ranged 0
        (le_refl buf.length) hbuf
      obtain ⟨rfl, hresult⟩ := Prod.mk.inj (hlast.symm.trans hwrite)
      have hle := le_length_overwrite writer.position buf array
      exact .inr ⟨hok n (Option.some.inj hresult), by omega⟩

/-- What one edit preserves, all edits preserve. -/
theorem Refines.edited {start : DiffChunkListWriter} (h : Refines bases start writer array)
    {edits : List Edit}
    (hpossible : ∀ edit ∈ edits,
      edit.Possible web start.openChunkReader start.baseChunkIds bases)
    {last : DiffChunkListWriter} {content : List UInt8}
    (hedited : edited web writer array edits = some (last, content)) :
    Refines bases start last content := by
  induction edits generalizing writer array with
  | nil =>
      obtain ⟨rfl, rfl⟩ := Prod.mk.inj (Option.some.inj hedited)
      exact h
  | cons edit rest ih =>
      have hrest := fun e he => hpossible e (List.mem_cons_of_mem _ he)
      cases edit with
      | seek seekFrom => exact ih (h.seek seekFrom) hrest hedited
      | write world buf =>
          unfold DiffChunkListWriter.edited at hedited
          split at hedited
          · next after n hwrite =>
            exact ih (h.write (hpossible _ List.mem_cons_self) hwrite) hrest hedited
          · cases hedited

section Readers

variable {start : DiffChunkListWriter} {content : List UInt8} {files : LocalFiles}
  {mgr : NamedDataMgr} {baseChunkList : ChunkList} {seekFrom : SeekFrom}
  {reader : DiffChunkListReader}

end Readers

section Sample

open NamedDataMgr

end Sample

end DiffChunkListWriter
end NamedStore
end CyfsNdn

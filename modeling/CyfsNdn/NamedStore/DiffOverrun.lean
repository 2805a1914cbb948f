import CyfsNdn.NamedStore.DiffContent

/-!
# Writes beyond the largest size

A file has at most `u64::MAX` bytes.  A write that comes to the end of the file and would
go beyond this size leaves sizes behind that no file has: either the call fails, or the
writer is `Outgrown` and no later write adds anything to it.
-/

namespace CyfsNdn
namespace NamedStore
namespace DiffChunkListWriter

open NdnLib Collections

variable {web : WebCrates} {world : WriterWorld} {bases : List (List UInt8)}
  {writer : DiffChunkListWriter}

theorem Holds.sound (h : Holds bases writer) : Sound writer where
  ids_length := by rw [h.ids, h.baseSizes, List.length_map]
  sorted := h.sorted
  chunk_length := by
    intro index chunk hchunk
    have hmem := (lookup_eq_some_iff_mem h.sorted.nodup).mp hchunk
    have hlt := h.dirty_lt _ hmem
    rw [List.getElem?_eq_getElem hlt, h.size_eq hlt]
    unfold pieceAt
    rw [hchunk]
    rfl
  total := by
    rw [h.total]
    exact (Nat.min_eq_left h.sum_le).symm
  position_le := h.position_le
  longer := by
    rw [h.baseSizes, List.length_map]
    exact h.longer

/-- The sizes add up to more than `u64::MAX`, and every chunk that is not dirty has its
base size. -/
structure Outgrown (writer : DiffChunkListWriter) : Prop where
  sound : Sound writer
  large : u64Max < writer.mergedChunkSizes.sum
  undirty : ∀ index size, writer.dirtyChunks.lookup index = none →
    writer.mergedChunkSizes[index]? = some size → writer.baseChunkSizes[index]? = some size

theorem Passed.lookup_none {after : DiffChunkListWriter} {index count j : Nat}
    (h : Passed writer after index count) (hnone : after.dirtyChunks.lookup j = none) :
    j ≠ index ∧ writer.dirtyChunks.lookup j = none := by
  have hdirty := not_congr (h.dirty j)
  rw [hnone] at hdirty
  simp only [Option.isSome_none, Bool.false_eq_true, not_false_eq_true, true_iff, not_or,
    Bool.not_eq_true, Option.isSome_eq_false_iff, Option.isNone_iff_eq_none] at hdirty
  exact hdirty

theorem Outgrown.passed {after : DiffChunkListWriter} {index count : Nat}
    (h : Outgrown writer) (hpassed : Passed writer after index count) : Outgrown after where
  sound := hpassed.sound
  large := by
    rw [hpassed.merged]
    exact h.large
  undirty := by
    intro j size hnone hsize
    rw [hpassed.merged] at hsize
    have hbase := h.undirty j size (hpassed.lookup_none hnone).2 hsize
    rw [hpassed.setup]
    exact hbase

/-- An outgrown writer is only written inside: it stays outgrown, unless a write fails. -/
theorem Outgrown.writeFrom (h : Outgrown writer) (web : WebCrates) (world : WriterWorld)
    (hranged : Ranged writer) {passes : Nat} {left : List UInt8} (written : Nat) (hpasses : left.length ≤ passes)
    (hleft : left.length ≤ u64Max) :
    ∃ after result, writeFrom web world passes writer left written = (after, some result) ∧
      u64Max < after.mergedChunkSizes.sum ∧ ∀ n, result = .ok n → Outgrown after := by
  induction passes generalizing writer left written with
  | zero =>
      obtain rfl : left = [] := List.eq_nil_of_length_eq_zero (Nat.le_zero.mp hpasses)
      exact ⟨writer, _, rfl, h.large, fun _ _ => h⟩
  | succ passes ih =>
      cases left with
      | nil => exact ⟨writer, _, rfl, h.large, fun _ _ => h⟩
      | cons byte rest =>
          have hne := List.cons_ne_nil byte rest
          obtain ⟨writer', hstarts, hsound, hstart⟩ := h.sound.exists_starts hne
          unfold DiffChunkListWriter.writeFrom
          have hlarge : u64Max < writer'.mergedChunkSizes.sum := by
            have hsum := h.large
            rcases hstarts with ⟨-, rfl⟩ | ⟨-, rfl, -⟩
            · exact hsum
            · rw [sum_extendForAppend hranged (List.length_pos_of_ne_nil hne) hleft]
              omega
          rcases hsound.writeOnce hne hstarts hstart with
            ⟨-, hwrite⟩ | ⟨index, offset, hlt, -, ⟨after, count, hwrite, hle, hpassed⟩ |
              ⟨e, -, hwrite⟩⟩
          · rw [hwrite]
            exact ⟨writer', _, rfl, hlarge, fun _ hok => by cases hok⟩
          · rw [hwrite]
            -- The total is the largest size, so a pass at the end does not succeed.
            have hsame : writer' = writer := by
              rcases hstarts with ⟨-, rfl⟩ | ⟨hend, -, hextends⟩
              · rfl
              · have hposition : writer'.position = writer.position := by rw [hextends.setup]
                have htotal := h.sound.total
                have hsum := h.large
                omega
            subst hsame
            have hcount := hpassed.pos
            have hranged' : Ranged after := by
              rw [hpassed.setup]
              exact ⟨hranged.fixed_le, hranged.base_le⟩
            refine ih (h.passed hpassed) hranged' (written + count) ?_ ?_
            · rw [List.length_drop]
              omega
            · rw [List.length_drop]
              omega
          · rw [hwrite]
            exact ⟨writer', _, rfl, hlarge, fun _ hok => by cases hok⟩

/-- The first pass that goes beyond the largest size. -/
theorem Holds.outgrown_of_passed (h : Holds bases writer)
    (hend : writer.position = writer.totalSize) {writer' after : DiffChunkListWriter}
    {added index offset count : Nat} (hextends : Extends writer writer' added)
    (hlarge : u64Max < writer'.mergedChunkSizes.sum)
    (hlocates : Locates writer'.mergedChunkSizes writer'.position index offset)
    (hpassed : Passed writer' after index count) : Outgrown after where
  sound := hpassed.sound
  large := by
    rw [hpassed.merged]
    exact hlarge
  undirty := by
    intro j size hnone hsize
    rw [hpassed.merged] at hsize
    obtain ⟨hj, hnone'⟩ := hpassed.lookup_none hnone
    obtain ⟨hlt, -⟩ := List.getElem?_eq_some_iff.mp hsize
    -- The chunk that was written into is the last one.
    have hlast : index + 1 = writer'.mergedChunkSizes.length := by
      by_contra hbefore
      have hindex := hlocates.lt
      have hmono := startOf_mono writer'.mergedChunkSizes
        (show index + 1 ≤ writer'.mergedChunkSizes.length - 1 by omega)
      have hposition : writer'.position = writer.position := by rw [hextends.setup]
      have hstart := hextends.start_le
      have htotal := h.total
      have hend' := startOf_succ hlocates.lt
      have hposition' := hlocates.position_eq
      have hoffset := hlocates.offset_lt
      omega
    have hold : writer.dirtyChunks.lookup j = none := by
      have hdirty := hextends.dirty j
      rw [hnone'] at hdirty
      exact Option.not_isSome_iff_eq_none.mp fun hsome => by cases hdirty.mpr hsome
    rw [hextends.kept j (by omega)] at hsize
    obtain ⟨hlt', hget⟩ := List.getElem?_eq_some_iff.mp hsize
    have hbase : j < bases.length := by
      by_contra hge
      have hsome := h.appended j (Nat.le_of_not_lt hge) hlt'
      rw [hold] at hsome
      cases hsome
    have hsame : after.baseChunkSizes = writer.baseChunkSizes := by
      rw [hpassed.setup, hextends.setup]
    rw [h.size_eq hlt'] at hget
    unfold pieceAt at hget
    rw [hold, List.getElem?_eq_getElem hbase] at hget
    rw [hsame, h.baseSizes, List.getElem?_map, List.getElem?_eq_getElem hbase, ← hget]
    rfl

/-- A write that would go beyond the largest size: a base chunk cannot be fetched before
the end of the file, or no file is left. -/
theorem Holds.writeFrom_overrun (h : Holds bases writer)
    (hfetches : Fetches web world bases writer) (hranged : Ranged writer) {passes : Nat}
    {left : List UInt8} (written : Nat) (hpasses : left.length ≤ passes)
    (hleft : left.length ≤ u64Max) (hover : u64Max < writer.position + left.length) :
    ∃ after result, DiffChunkListWriter.writeFrom web world passes writer left written =
        (after, some result) ∧
      ((¬ ReachesEnd web world writer ∧ (∃ e, result = .error e) ∧
          ∃ count ≤ left.length, Wrote bases writer after (left.take count)) ∨
        (ReachesEnd web world writer ∧ ¬ Holds bases after ∧
          ∀ n, result = .ok n → Outgrown after)) := by
  have hposition := h.position_le
  have htotal := h.total
  have hfits := h.fits
  induction passes generalizing writer left written with
  | zero => omega
  | succ passes ih =>
      cases left with
      | nil =>
          rw [List.length_nil] at hover
          omega
      | cons byte rest =>
          generalize hcons : byte :: rest = left at *
          have hne : left ≠ [] := by
            rw [← hcons]
            exact List.cons_ne_nil _ _
          have hstop : ∀ after e, writer.writeOnce web world left =
              (after, some (.error e)) →
              DiffChunkListWriter.writeFrom web world (passes + 1) writer left written =
                (after, some (.error e)) := by
            intro after e hwrite
            rw [← hcons] at hwrite ⊢
            unfold DiffChunkListWriter.writeFrom
            rw [hwrite]
          have hnext : ∀ after count, writer.writeOnce web world left =
              (after, some (.ok count)) →
              DiffChunkListWriter.writeFrom web world (passes + 1) writer left written =
                DiffChunkListWriter.writeFrom web world passes after (left.drop count)
                  (written + count) := by
            intro after count hwrite
            rw [← hcons] at hwrite ⊢
            conv_lhs => unfold DiffChunkListWriter.writeFrom
            rw [hwrite]
          -- A pass that wrote some bytes of a file that still fits.
          have hpass : ∀ after count, writer.writeOnce web world left =
              (after, some (.ok count)) → 0 < count → count ≤ left.length →
              Wrote bases writer after (left.take count) →
              (ReachesEnd web world after ↔ ReachesEnd web world writer) →
              ∃ after result, DiffChunkListWriter.writeFrom web world (passes + 1) writer left
                  written = (after, some result) ∧
                ((¬ ReachesEnd web world writer ∧ (∃ e, result = .error e) ∧
                    ∃ count ≤ left.length, Wrote bases writer after (left.take count)) ∨
                  (ReachesEnd web world writer ∧ ¬ Holds bases after ∧
                    ∀ n, result = .ok n → Outgrown after)) := by
            intro after count hwrite hpos hle hwrote hreach
            have htake : (left.take count).length = count := by
              rw [List.length_take]
              omega
            have hdrop : (left.drop count).length = left.length - count := List.length_drop
            have hposition' := hwrote.position_eq
            have hranged' : Ranged after := by
              rw [hwrote.setup]
              exact ⟨hranged.fixed_le, hranged.base_le⟩
            obtain ⟨last, result, hrest, hcase⟩ := ih hwrote.holds
              (hwrote.fetches hfetches) hranged' (written + count)
              (show (left.drop count).length ≤ passes by omega) (by omega) (by omega)
              hwrote.holds.position_le hwrote.holds.total hwrote.holds.fits
            rw [hnext after count hwrite]
            rw [hreach] at hcase
            refine ⟨last, result, hrest, hcase.imp ?_ id⟩
            rintro ⟨hno, herror, count', hle', hlast⟩
            refine ⟨hno, herror, count + count', by omega, ?_⟩
            rw [List.take_add]
            exact hwrote.trans h hlast
          by_cases hlt : writer.position < writer.totalSize
          · obtain ⟨index, offset, hlocates, hcase⟩ := h.writeOnce_inside hfetches hlt hne
            rcases hcase with ⟨after, count, hwrite, hpos, hle, hinside, hwrote, hmerged,
              htotal', hhere, hother, hfetched⟩ | ⟨e, hwrite, hfails⟩
            · have hsame := fetchFails_iff_of_inside hwrote hhere hother hfetched
              have hposition' := hwrote.position_eq
              rw [List.length_take] at hposition'
              exact hpass after count hwrite hpos hle hwrote
                (reachesEnd_iff_of_inside hlocates (by omega) (by omega) hmerged hsame hfetched)
            · refine ⟨writer, _, hstop _ _ hwrite, .inl ⟨?_, ⟨e, rfl⟩, 0, Nat.zero_le _,
                Wrote.refl h⟩⟩
              exact fun hreaches => hreaches _ _ _ e le_rfl hlocates hfails
          · have hend : writer.position = writer.totalSize :=
              Nat.le_antisymm hposition (Nat.le_of_not_lt hlt)
            have hreaches : ReachesEnd web world writer := reachesEnd_of_end hend htotal
            by_cases hadded : writer.totalSize + writer.appendCount left.length ≤ u64Max
            · rcases h.writeOnce_append hfetches hend hne hadded with
                ⟨after, count, happends⟩ | ⟨e, hwrite, hgrows⟩
              · exact hpass after count happends.write_eq happends.pos happends.le
                  happends.wrote (iff_of_true (reachesEnd_of_end happends.at_end
                    happends.wrote.holds.total) hreaches)
              · exact ⟨_, _, hstop _ _ hwrite, .inr ⟨hreaches, hgrows.not_holds h
                  (List.length_pos_of_ne_nil hne) hadded, fun _ hok => by cases hok⟩⟩
            · obtain ⟨writer', hstarts, hsound, hstart⟩ := h.sound.exists_starts hne
              rcases hstarts with ⟨hinside, -⟩ | ⟨-, hextend, hextends⟩
              · exact absurd hinside hlt
              have hlarge : u64Max < writer'.mergedChunkSizes.sum := by
                rw [hextend, sum_extendForAppend hranged (List.length_pos_of_ne_nil hne) hleft]
                omega
              have hnot : ∀ after : DiffChunkListWriter,
                  u64Max < after.mergedChunkSizes.sum → ¬ Holds bases after :=
                fun after hsum hafter => absurd hafter.sum_le (Nat.not_le_of_lt hsum)
              rcases hsound.writeOnce hne (.inr ⟨hend, hextend, hextends⟩) hstart with
                ⟨-, hwrite⟩ | ⟨index, offset, -, hlocates, ⟨after, count, hwrite, hle,
                  hpassed⟩ | ⟨e, -, hwrite⟩⟩
              · exact ⟨_, _, hstop _ _ hwrite, .inr ⟨hreaches, hnot _ hlarge,
                  fun _ hok => by cases hok⟩⟩
              · have hout := h.outgrown_of_passed hend hextends hlarge hlocates hpassed
                have hcount := hpassed.pos
                have hranged' : Ranged after := by
                  rw [hpassed.setup, hextends.setup]
                  exact ⟨hranged.fixed_le, hranged.base_le⟩
                obtain ⟨last, result, hrest, hsum, hok⟩ := hout.writeFrom web world hranged'
                  (written + count) (show (left.drop count).length ≤ passes by
                    rw [List.length_drop]
                    omega) (by
                    rw [List.length_drop]
                    omega)
                rw [hnext after count hwrite]
                exact ⟨last, result, hrest, .inr ⟨hreaches, hnot last hsum, hok⟩⟩
              · exact ⟨_, _, hstop _ _ hwrite, .inr ⟨hreaches, hnot _ hlarge,
                  fun _ hok => by cases hok⟩⟩

/-- The write comes to the end of the file and goes beyond the largest size. -/
def Overruns (web : WebCrates) (world : WriterWorld) (writer : DiffChunkListWriter)
    (buf : List UInt8) : Prop :=
  u64Max < writer.position + buf.length ∧ ReachesEnd web world writer

/-- What a write does to a file.  When it fails, the file has the bytes before the
failure, unless the last chunk has grown or the sizes are too large. -/
theorem Holds.write (h : Holds bases writer) (hfetches : Fetches web world bases writer)
    (hranged : Ranged writer) {buf : List UInt8} (hbuf : buf.length ≤ u64Max) :
    ∃ after result, writer.write web world buf = (after, some result) ∧
      (∀ n, result = .ok n → Wrote bases writer after buf ∨
        Outgrown after ∧ u64Max < writer.position + buf.length) ∧
      (∀ e, result = .error e →
        (GrowFails web world writer buf ∨ Overruns web world writer buf →
          ¬ Holds bases after) ∧
        (¬ (GrowFails web world writer buf ∨ Overruns web world writer buf) →
          ∃ count ≤ buf.length, Wrote bases writer after (buf.take count))) := by
  unfold DiffChunkListWriter.write
  by_cases hfits : writer.position + buf.length ≤ u64Max
  · have hno : ¬ Overruns web world writer buf :=
      fun hover => absurd hover.1 (Nat.not_lt_of_le hfits)
    obtain ⟨after, ⟨hok, hwrote⟩ | ⟨e, herror, hgrown, hrest⟩⟩ :=
      h.writeFrom hfetches 0 le_rfl hfits
    · exact ⟨after, _, hok, fun _ _ => .inl hwrote, fun _ herror => by cases herror⟩
    · refine ⟨after, _, herror, nofun, fun _ _ => ⟨?_, ?_⟩⟩
      · exact fun hbad => hgrown (hbad.resolve_right hno)
      · exact fun hgood => hrest fun hgrow => hgood (.inl hgrow)
  · obtain ⟨after, result, hwrite, ⟨hnot, ⟨e, rfl⟩, hwrote⟩ | ⟨hreaches, hholds, hok⟩⟩ :=
      h.writeFrom_overrun hfetches hranged 0 le_rfl hbuf (Nat.lt_of_not_le hfits)
    · refine ⟨after, _, hwrite, nofun, fun _ _ => ⟨?_, fun _ => hwrote⟩⟩
      rintro (⟨-, -, -, hreaches⟩ | ⟨-, hreaches⟩)
      · exact absurd hreaches hnot
      · exact absurd hreaches hnot
    · refine ⟨after, result, hwrite,
        fun n hn => .inr ⟨hok n hn, Nat.lt_of_not_le hfits⟩, fun _ _ =>
          ⟨fun _ => hholds, fun hgood => absurd ?_ hgood⟩⟩
      exact .inr ⟨Nat.lt_of_not_le hfits, hreaches⟩

end DiffChunkListWriter
end NamedStore
end CyfsNdn

import CyfsNdn.Collections.Traverse
import CyfsNdn.NamedStore.ListReader
import CyfsNdn.Transition.Run

/-!
# A reader over chunks is a view of their concatenation

The bytes that are still to come, from the open chunk and the later ones, are always
the content from the position on.  Every branch of the polls keeps this, so every read
returns the bytes at the position, whatever the readers and futures under it do.
-/

namespace CyfsNdn
namespace NamedStore

open NdnLib Collections Transition

variable {σ : Type}

namespace ListReader

variable {load : σ → Nat → NdnResult (List UInt8)} {named : σ → String}
  {pieces : List (List UInt8)} {reader : ListReader σ}

/-! ## What a view of a content is -/

/-- How many polls under it can pass before a byte comes or the content ends: one that
opens each chunk that is left and one that finds its end. -/
def silentPolls (reader : ListReader σ) : Nat :=
  match reader.currentReader with
  | some _ => 1 + 2 * (reader.chunks.length - (reader.activeChunkIndex.getD 0 + 1))
  | none => 2 * (reader.chunks.length - reader.nextChunkIndex)

/-- What a poll with this result may do: bytes are the ones at the position, and none
are returned only at the end. -/
def ReadsFrom (content : List UInt8) (room : Nat) (before after : ListReader σ) :
    PollRead → Prop
  | .ready bytes =>
      bytes = (content.drop before.position).take bytes.length ∧ bytes.length ≤ room ∧
        after.position = before.position + bytes.length ∧
        (bytes = [] → content.length ≤ before.position)
  | _ => after.position = before.position

/-- What a call may do to the position in a content, and what it may return.  A poll
under which enough is ready does not wait. -/
def Views (content : List UInt8) (before after : ListReader σ) : Call → Returned → Prop
  | .pollRead room answers, .read result =>
      after.pendingSeek = before.pendingSeek ∧
        (if before.pendingSeek.isSome then after = before ∧ ∃ e, result = .failed e
        else if room = 0 then after = before ∧ result = .ready []
        else ReadsFrom content room before after result ∧
          (Answer.pending ∉ answers → before.silentPolls < answers.length →
            result ≠ .pending))
  | .startSeek seekFrom, .seek result =>
      match seekTarget before.position content.length seekFrom with
      | .error e => after = before ∧ result = .error (.ndn e)
      | .ok target =>
          after.position = before.position ∧ after.pendingSeek = some target ∧
            result = .ok ()
  | .pollComplete, .complete position =>
      after.position = position ∧ after.pendingSeek = none ∧
        position = before.pendingSeek.getD before.position
  | _, _ => False

/-! ## The invariant -/

/-- The chunks are these pieces, and what can be opened of a chunk is its piece. -/
structure Backs (load : σ → Nat → NdnResult (List UInt8)) (pieces : List (List UInt8))
    (chunks : List (ChunkMeta σ)) : Prop where
  sizes : chunks.map ChunkMeta.size = pieces.map List.length
  starts : ∀ (i : Nat) (chunk : ChunkMeta σ), chunks[i]? = some chunk →
    chunk.start = startOf (pieces.map List.length) i
  loads : ∀ (i : Nat) (chunk : ChunkMeta σ) (piece : List UInt8),
    chunks[i]? = some chunk → pieces[i]? = some piece → ∀ offset ≤ piece.length,
      ∀ opened, load chunk.source offset = .ok opened → opened = piece.drop offset
  fits : pieces.flatten.length ≤ u64Max

/-- The bytes that the reader would give if nothing failed. -/
def upcoming (pieces : List (List UInt8)) (reader : ListReader σ) : List UInt8 :=
  match reader.currentReader with
  | some current => current ++ (pieces.drop (reader.activeChunkIndex.getD 0 + 1)).flatten
  | none => (pieces.drop reader.nextChunkIndex).flatten.drop reader.nextChunkOffset

/-- The invariant of a reader over these pieces. -/
structure Shows (load : σ → Nat → NdnResult (List UInt8)) (pieces : List (List UInt8))
    (reader : ListReader σ) : Prop where
  backs : Backs load pieces reader.chunks
  total : reader.totalSize = pieces.flatten.length
  position_le : reader.position ≤ pieces.flatten.length
  pending_le : ∀ target, reader.pendingSeek = some target → target ≤ pieces.flatten.length
  offset_le : ∀ piece, pieces[reader.nextChunkIndex]? = some piece →
    reader.nextChunkOffset ≤ piece.length
  active : reader.currentReader.isSome →
    reader.activeChunkIndex.isSome ∧ reader.loadingFuture = none
  loading : ∀ future, reader.loadingFuture = some future →
    reader.loadingChunkIndex = some reader.nextChunkIndex ∧
      future.2 = reader.nextChunkOffset ∧
      ∃ chunk, reader.chunks[reader.nextChunkIndex]? = some chunk ∧ future.1 = chunk.source
  upcoming_eq : upcoming pieces reader = pieces.flatten.drop reader.position

/-- What a poll of the open chunk, or of the future that opens it, leaves behind: the
result of the whole poll, or one poll less that can pass without a byte. -/
structure Polled (load : σ → Nat → NdnResult (List UInt8)) (pieces : List (List UInt8))
    (room : Nat) (answer : Answer) (before after : ListReader σ) (result : Option PollRead) :
    Prop where
  shows_after : Shows load pieces after
  pending_eq : after.pendingSeek = before.pendingSeek
  goes_on : result = none →
    after.position = before.position ∧ after.silentPolls < before.silentPolls
  reads : ∀ r, result = some r →
    ReadsFrom pieces.flatten room before after r ∧ (r = .pending → answer = .pending)

theorem Backs.length_eq {chunks : List (ChunkMeta σ)} (h : Backs load pieces chunks) :
    chunks.length = pieces.length := by
  have hsizes := congrArg List.length h.sizes
  rwa [List.length_map, List.length_map] at hsizes

/-- Every chunk has its piece, of its size. -/
theorem Backs.exists_piece {chunks : List (ChunkMeta σ)} (h : Backs load pieces chunks)
    {i : Nat} {chunk : ChunkMeta σ} (hchunk : chunks[i]? = some chunk) :
    ∃ piece, pieces[i]? = some piece ∧ chunk.size = piece.length := by
  have hsizes := congrArg (·[i]?) h.sizes
  simp only [List.getElem?_map, hchunk, Option.map_some] at hsizes
  obtain ⟨piece, hpiece, hsize⟩ := Option.map_eq_some_iff.mp hsizes.symm
  exact ⟨piece, hpiece, hsize.symm⟩

/-! ## Where a position lies -/

/-- The loop keeps the first chunk that ends after the position between its two
indexes. -/
theorem bisect_spec {chunks : List (ChunkMeta σ)} (h : Backs load pieces chunks)
    {position passes left right : Nat} (hle : left ≤ right) (hright : right ≤ chunks.length)
    (hpasses : right - left ≤ passes)
    (hbefore : ∀ k < left, startOf (pieces.map List.length) (k + 1) ≤ position)
    (hafter : ∀ k ≥ right, k < chunks.length →
      position < startOf (pieces.map List.length) (k + 1)) :
    let index := bisect chunks position passes left right
    (∀ k < index, startOf (pieces.map List.length) (k + 1) ≤ position) ∧
      ∀ k ≥ index, k < chunks.length →
        position < startOf (pieces.map List.length) (k + 1) := by
  induction passes generalizing left right with
  | zero =>
      obtain rfl : left = right := by omega
      exact ⟨hbefore, hafter⟩
  | succ passes ih =>
      unfold bisect
      by_cases hlt : left < right
      · rw [if_pos hlt]
        dsimp only
        have hmid : left + (right - left) / 2 < chunks.length := by omega
        generalize hm : left + (right - left) / 2 = mid at hmid ⊢
        rw [List.getElem?_eq_getElem hmid]
        dsimp only
        -- The end that the loop computes is where the next chunk starts.
        have hget : chunks[mid]? = some chunks[mid] := List.getElem?_eq_getElem hmid
        obtain ⟨piece, hpiece, hsize⟩ := h.exists_piece hget
        obtain ⟨hlen, rfl⟩ := List.getElem?_eq_some_iff.mp hpiece
        have hend : saturatingAdd chunks[mid].start chunks[mid].size =
            startOf (pieces.map List.length) (mid + 1) := by
          have hsum : chunks[mid].start + chunks[mid].size =
              startOf (pieces.map List.length) (mid + 1) := by
            rw [startOf_succ (by rwa [List.length_map]), h.starts mid _ hget, hsize,
              List.getElem_map]
          have hbound := startOf_le_sum (pieces.map List.length) (mid + 1)
          rw [← List.length_flatten] at hbound
          rw [← hsum] at hbound ⊢
          exact saturatingAdd_eq (hbound.trans h.fits)
        rw [hend]
        by_cases hside : startOf (pieces.map List.length) (mid + 1) ≤ position
        · rw [if_pos hside]
          refine ih (by omega) hright (by omega) (fun k hk => ?_) hafter
          exact (startOf_mono _ (show k + 1 ≤ mid + 1 by omega)).trans hside
        · rw [if_neg hside]
          refine ih (by omega) (by omega) (by omega) hbefore (fun k hk _ => ?_)
          exact Nat.lt_of_lt_of_le (Nat.lt_of_not_le hside)
            (startOf_mono _ (show mid + 1 ≤ k + 1 by omega))
      · rw [if_neg hlt]
        obtain rfl : left = right := by omega
        exact ⟨hbefore, hafter⟩

/-- The located chunk and all later ones, from the offset on, are what follows the
position. -/
theorem locatePosition_spec (h : Backs load pieces reader.chunks)
    (htotal : reader.totalSize = pieces.flatten.length) {position : Nat}
    (hposition : position ≤ pieces.flatten.length) :
    (pieces.drop (reader.locatePosition position).1).flatten.drop
        (reader.locatePosition position).2 = pieces.flatten.drop position ∧
      ∀ piece, pieces[(reader.locatePosition position).1]? = some piece →
        (reader.locatePosition position).2 ≤ piece.length := by
  unfold locatePosition
  by_cases hend : reader.totalSize ≤ position ∨ reader.chunks = []
  · rw [if_pos hend]
    have hpast : pieces.flatten.drop position = [] := by
      apply List.drop_eq_nil_of_le
      rcases hend with hle | hnil
      · omega
      · have hlength := h.length_eq
        rw [hnil] at hlength
        rw [List.eq_nil_of_length_eq_zero hlength.symm]
        exact Nat.zero_le _
    dsimp only
    rw [h.length_eq, List.drop_length, hpast]
    exact ⟨rfl, fun _ _ => Nat.zero_le _⟩
  · rw [if_neg hend]
    simp only [not_or, Nat.not_le] at hend
    obtain ⟨hbefore, hafter⟩ := bisect_spec h (Nat.zero_le reader.chunks.length) le_rfl
      le_rfl (show ∀ k < 0, startOf (pieces.map List.length) (k + 1) ≤ position from
        fun k hk => absurd hk (Nat.not_lt_zero k))
      (fun k hk hk' => absurd hk' (Nat.not_lt.mpr hk))
    dsimp only
    generalize bisect reader.chunks position reader.chunks.length 0 reader.chunks.length =
      index at hbefore hafter ⊢
    have hlength := h.length_eq
    have hsum : startOf (pieces.map List.length) (pieces.map List.length).length =
        pieces.flatten.length := by
      rw [startOf_length, List.length_flatten]
    rw [List.length_map] at hsum
    have hindex : index < pieces.length := by
      by_contra hge
      have hpos : 0 < reader.chunks.length := List.length_pos_of_ne_nil hend.2
      have hlast := hbefore (pieces.length - 1) (by omega)
      rw [show pieces.length - 1 + 1 = pieces.length by omega, hsum] at hlast
      omega
    have hstart : startOf (pieces.map List.length) index ≤ position := by
      cases index with
      | zero => exact Nat.zero_le _
      | succ k => exact hbefore k (Nat.lt_succ_self k)
    have hlocates := locates_of_first_end (by rwa [List.length_map]) hstart
      (hafter index le_rfl (by omega))
    have hchunk : index < reader.chunks.length := by omega
    rw [List.getElem?_eq_getElem hchunk]
    dsimp only
    rw [h.starts index _ (List.getElem?_eq_getElem hchunk)]
    have hoffset := hlocates.offset_lt
    rw [List.getElem_map] at hoffset
    constructor
    · have hrest := drop_startOf_add hindex (Nat.le_of_lt hoffset)
      rw [hlocates.position_eq] at hrest
      rw [hrest, List.drop_eq_getElem_cons hindex, List.flatten_cons,
        List.drop_append_of_le_length (Nat.le_of_lt hoffset)]
    · intro piece hpiece
      obtain ⟨_, rfl⟩ := List.getElem?_eq_some_iff.mp hpiece
      exact Nat.le_of_lt hoffset

/-! ## What each call preserves -/

/-- Going to a position gives up what was open and being opened. -/
theorem Shows.applySeekTarget (h : Shows load pieces reader) {position : Nat}
    (hposition : position ≤ pieces.flatten.length) :
    Shows load pieces (reader.applySeekTarget position) := by
  obtain ⟨hupcoming, hoffset⟩ := locatePosition_spec h.backs h.total hposition
  exact {
    backs := h.backs
    total := h.total
    position_le := hposition
    pending_le := fun _ hpending => by cases hpending
    offset_le := hoffset
    active := fun hactive => by cases hactive
    loading := fun _ hloading => by cases hloading
    upcoming_eq := hupcoming }

/-- A target is in range. -/
theorem le_of_seekTarget {position totalSize target : Nat} {seekFrom : SeekFrom}
    (h : seekTarget position totalSize seekFrom = .ok target) : target ≤ totalSize := by
  unfold seekTarget at h
  dsimp only at h
  split_ifs at h with hout
  have htarget := Except.ok.inj h
  push Not at hout
  omega

theorem Shows.startSeek (h : Shows load pieces reader) (seekFrom : SeekFrom) :
    Shows load pieces (reader.startSeek seekFrom).1 ∧
      Views pieces.flatten reader (reader.startSeek seekFrom).1 (.startSeek seekFrom)
        (.seek (reader.startSeek seekFrom).2) := by
  have hcalc : reader.calcSeekTarget seekFrom =
      seekTarget reader.position pieces.flatten.length seekFrom := by
    unfold calcSeekTarget
    rw [h.total]
  unfold ListReader.startSeek Views
  rw [hcalc]
  cases htarget : seekTarget reader.position pieces.flatten.length seekFrom with
  | error e =>
      dsimp only
      rw [htarget]
      exact ⟨h, rfl, rfl⟩
  | ok target =>
      dsimp only
      rw [htarget]
      refine ⟨{ h with pending_le := ?_ }, rfl, rfl, rfl⟩
      intro pending hpending
      obtain rfl := Option.some.inj hpending
      exact le_of_seekTarget htarget

theorem Shows.pollComplete (h : Shows load pieces reader) :
    Shows load pieces reader.pollComplete.1 ∧
      Views pieces.flatten reader reader.pollComplete.1 .pollComplete
        (.complete reader.pollComplete.2) := by
  unfold ListReader.pollComplete Views
  cases hpending : reader.pendingSeek with
  | none => exact ⟨h, rfl, hpending, rfl⟩
  | some target => exact ⟨h.applySeekTarget (h.pending_le target hpending), rfl, rfl, rfl⟩

/-- Without an open chunk the poll ends at the end of the content only; otherwise a
chunk is open, or is being opened. -/
theorem Shows.beforePoll (h : Shows load pieces reader) (named : σ → String) :
    (reader.beforePoll named = (reader, some (.ready [])) ∧
      pieces.flatten.length ≤ reader.position) ∨
    ∃ reader', reader.beforePoll named = (reader', none) ∧ Shows load pieces reader' ∧
      reader'.position = reader.position ∧ reader'.pendingSeek = reader.pendingSeek ∧
      reader'.silentPolls = reader.silentPolls ∧
      (reader'.currentReader.isSome ∨ reader'.loadingFuture.isSome) := by
  unfold ListReader.beforePoll
  by_cases hopen : reader.currentReader.isSome ∨ reader.loadingFuture.isSome
  · rw [if_pos hopen]
    exact Or.inr ⟨reader, rfl, h, rfl, rfl, rfl, hopen⟩
  · rw [if_neg hopen]
    simp only [not_or, Bool.not_eq_true, Option.isSome_eq_false_iff,
      Option.isNone_iff_eq_none] at hopen
    obtain ⟨hcurrent, hloading⟩ := hopen
    have hrest := h.upcoming_eq
    unfold upcoming at hrest
    rw [hcurrent] at hrest
    by_cases hend : reader.totalSize ≤ reader.position ∨
        reader.chunks.length ≤ reader.nextChunkIndex
    · rw [if_pos hend]
      refine Or.inl ⟨rfl, ?_⟩
      rcases hend with hle | hle
      · rw [← h.total]
        exact hle
      · -- No chunk follows, so no byte follows.
        rw [h.backs.length_eq] at hle
        dsimp only at hrest
        rw [List.drop_eq_nil_of_le hle] at hrest
        exact List.drop_eq_nil_iff.mp (hrest.symm.trans List.drop_nil)
    · rw [if_neg hend]
      simp only [not_or, Nat.not_le] at hend
      have hchunk := List.getElem?_eq_getElem hend.2
      obtain ⟨piece, hpiece, hsize⟩ := h.backs.exists_piece hchunk
      have hoffset := h.offset_le piece hpiece
      unfold startLoadingCurrentChunk
      rw [hchunk]
      dsimp only
      rw [if_neg (by omega)]
      refine Or.inr ⟨_, rfl, { h with
        active := fun hactive => by simp [hcurrent] at hactive
        loading := ?_
        upcoming_eq := ?_ }, rfl, rfl, rfl, Or.inr rfl⟩
      · intro future hfuture
        obtain rfl := Option.some.inj hfuture
        exact ⟨rfl, rfl, _, hchunk, rfl⟩
      · unfold upcoming
        rw [hcurrent]
        exact hrest

/-- The end of the open chunk: the next one is next. -/
theorem Shows.advanceAfterChunkEof (h : Shows load pieces reader)
    (hcurrent : reader.currentReader = some []) :
    Shows load pieces reader.advanceAfterChunkEof := by
  obtain ⟨hactive, hloading⟩ := h.active (by rw [hcurrent]; rfl)
  obtain ⟨index, hindex⟩ := Option.isSome_iff_exists.mp hactive
  have hrest := h.upcoming_eq
  unfold upcoming at hrest
  rw [hcurrent, hindex] at hrest
  unfold ListReader.advanceAfterChunkEof
  rw [hindex]
  exact { h with
    offset_le := fun _ _ => Nat.zero_le _
    active := fun hactive => by cases hactive
    loading := fun future hfuture => by
      dsimp only at hfuture
      rw [hloading] at hfuture
      cases hfuture
    upcoming_eq := hrest }

/-- A poll of the open chunk gives its next bytes, or goes on after its end. -/
theorem Shows.pollCurrent (h : Shows load pieces reader) {current : List UInt8}
    (hcurrent : reader.currentReader = some current) {room : Nat} (hroom : room ≠ 0)
    (answer : Answer) :
    Polled load pieces room answer reader (reader.pollCurrent current room answer).1
      (reader.pollCurrent current room answer).2 := by
  cases answer with
  | pending => exact ⟨h, rfl, nofun, by rintro _ ⟨⟩; exact ⟨rfl, fun _ => rfl⟩⟩
  | failed => exact ⟨h, rfl, nofun, by rintro _ ⟨⟩; exact ⟨rfl, nofun⟩⟩
  | ready most =>
      have hrest := h.upcoming_eq
      unfold upcoming at hrest
      rw [hcurrent] at hrest
      dsimp only at hrest
      unfold ListReader.pollCurrent
      dsimp only
      by_cases hnil : current.take (min (max 1 most) room) = []
      · rw [if_pos hnil]
        have hempty : current = [] := by
          rcases List.take_eq_nil_iff.mp hnil with hzero | hempty
          · omega
          · exact hempty
        obtain ⟨index, hindex⟩ := Option.isSome_iff_exists.mp
          (h.active (by rw [hcurrent]; rfl)).1
        refine ⟨h.advanceAfterChunkEof (by rw [hcurrent, hempty]), ?_, fun _ => ?_, nofun⟩
        · unfold ListReader.advanceAfterChunkEof
          rw [hindex]
        · unfold ListReader.advanceAfterChunkEof silentPolls
          rw [hindex, hcurrent]
          exact ⟨rfl, by simp⟩
      · rw [if_neg hnil]
        generalize hbytes : current.take (min (max 1 most) room) = bytes at hnil ⊢
        have hlength : bytes.length = min (min (max 1 most) room) current.length := by
          rw [← hbytes, List.length_take]
        have htake : current.take bytes.length = bytes := by
          rw [hlength, ← hbytes, List.take_eq_take_iff]
          omega
        have hfound : bytes = (pieces.flatten.drop reader.position).take bytes.length := by
          rw [← hrest, List.take_append_of_le_length (by omega), htake]
        have hinside : reader.position + bytes.length ≤ pieces.flatten.length := by
          have hle := congrArg List.length hrest
          rw [List.length_append, List.length_drop] at hle
          have hposition := h.position_le
          omega
        have hsum : saturatingAdd reader.position bytes.length =
            reader.position + bytes.length :=
          saturatingAdd_eq (hinside.trans h.backs.fits)
        dsimp only
        rw [hsum]
        refine ⟨{ h with
          position_le := hinside
          active := fun _ => h.active (by rw [hcurrent]; rfl)
          upcoming_eq := ?_ }, rfl, nofun, ?_⟩
        · have hlater := congrArg (List.drop bytes.length) hrest
          rw [List.drop_append_of_le_length (by omega), List.drop_drop] at hlater
          exact hlater
        · rintro _ ⟨⟩
          exact ⟨⟨hfound, by omega, rfl, fun hno => absurd hno hnil⟩, nofun⟩

/-- What a future opens is the rest of the chunk that is next. -/
theorem Shows.pollLoading (h : Shows load pieces reader) {future : σ × Nat}
    (hcurrent : reader.currentReader = none) (hfuture : reader.loadingFuture = some future)
    (room : Nat) (answer : Answer) :
    Polled load pieces room answer reader (reader.pollLoading load future answer).1
      (reader.pollLoading load future answer).2 := by
  have hrest := h.upcoming_eq
  unfold upcoming at hrest
  rw [hcurrent] at hrest
  dsimp only at hrest
  -- A future that failed is forgotten, and the same chunk is opened again later.
  have hforget : Shows load pieces
      { reader with loadingFuture := none, loadingChunkIndex := none } :=
    { h with
      active := fun hactive => by simp [hcurrent] at hactive
      loading := fun _ hloading => by cases hloading
      upcoming_eq := by
        unfold upcoming
        rw [hcurrent]
        exact hrest }
  cases answer with
  | pending => exact ⟨h, rfl, nofun, by rintro _ ⟨⟩; exact ⟨rfl, fun _ => rfl⟩⟩
  | failed => exact ⟨hforget, rfl, nofun, by rintro _ ⟨⟩; exact ⟨rfl, nofun⟩⟩
  | ready most =>
      unfold ListReader.pollLoading
      dsimp only
      obtain ⟨hindex, hoffset, chunk, hchunk, hsource⟩ := h.loading future hfuture
      cases hload : load future.1 future.2 with
      | error e => exact ⟨hforget, rfl, nofun, by rintro _ ⟨⟩; exact ⟨rfl, nofun⟩⟩
      | ok opened =>
          rw [hindex]
          obtain ⟨piece, hpiece, -⟩ := h.backs.exists_piece hchunk
          obtain ⟨hlt, hget⟩ := List.getElem?_eq_some_iff.mp hpiece
          obtain ⟨hlt', -⟩ := List.getElem?_eq_some_iff.mp hchunk
          have hinside := h.offset_le piece hpiece
          have hopened := h.backs.loads _ chunk piece hchunk hpiece _ hinside opened
            (by rw [← hsource, ← hoffset]; exact hload)
          refine ⟨{ h with
            active := fun _ => ⟨rfl, rfl⟩
            loading := fun _ hloading => by cases hloading
            upcoming_eq := ?_ }, rfl, fun _ => ⟨rfl, ?_⟩, nofun⟩
          · unfold upcoming
            dsimp only
            rw [List.drop_eq_getElem_cons hlt, hget, List.flatten_cons,
              List.drop_append_of_le_length hinside] at hrest
            rw [hopened]
            exact hrest
          · unfold silentPolls
            rw [hcurrent]
            dsimp only [Option.getD_some]
            omega

/-- With a chunk open, or being opened, one answer is taken. -/
theorem Shows.pollActive (h : Shows load pieces reader)
    (hopen : reader.currentReader.isSome ∨ reader.loadingFuture.isSome) {room : Nat}
    (hroom : room ≠ 0) (answer : Answer) :
    Polled load pieces room answer reader (reader.pollActive load room answer).1
      (reader.pollActive load room answer).2 := by
  unfold ListReader.pollActive
  cases hcurrent : reader.currentReader with
  | some current => exact h.pollCurrent hcurrent hroom answer
  | none =>
      cases hfuture : reader.loadingFuture with
      | some future => exact h.pollLoading hcurrent hfuture room answer
      | none => simp [hcurrent, hfuture] at hopen

/-- The loop of `poll_read`, whatever the answers are.  It ends: if no answer waits and
there are enough of them, the poll does not wait. -/
theorem Shows.pollReadLoop (h : Shows load pieces reader) (named : σ → String)
    {room : Nat} (hroom : room ≠ 0) (answers : List Answer) :
    let polled := reader.pollReadLoop load named room answers
    Shows load pieces polled.1 ∧ polled.1.pendingSeek = reader.pendingSeek ∧
      ReadsFrom pieces.flatten room reader polled.1 polled.2 ∧
      (Answer.pending ∉ answers → reader.silentPolls < answers.length →
        polled.2 ≠ .pending) := by
  induction answers generalizing reader with
  | nil =>
      unfold ListReader.pollReadLoop
      rcases h.beforePoll named with ⟨hbefore, hend⟩ |
        ⟨reader', hbefore, h', hposition, hpending, -, -⟩
      · rw [hbefore]
        exact ⟨h, rfl, ⟨rfl, Nat.zero_le _, rfl, fun _ => hend⟩, fun _ _ => nofun⟩
      · rw [hbefore]
        exact ⟨h', hpending, hposition, fun _ hlt => absurd hlt (Nat.not_lt_zero _)⟩
  | cons answer answers ih =>
      unfold ListReader.pollReadLoop
      rcases h.beforePoll named with ⟨hbefore, hend⟩ |
        ⟨reader', hbefore, h', hposition, hpending, hsilent, hopen⟩
      · rw [hbefore]
        exact ⟨h, rfl, ⟨rfl, Nat.zero_le _, rfl, fun _ => hend⟩, fun _ _ => nofun⟩
      · rw [hbefore]
        dsimp only
        have hpolled := h'.pollActive hopen hroom answer
        generalize reader'.pollActive load room answer = polled at hpolled ⊢
        obtain ⟨after, result⟩ := polled
        cases result with
        | some result =>
            obtain ⟨hreads, hwaits⟩ := hpolled.reads result rfl
            refine ⟨hpolled.shows_after, hpolled.pending_eq.trans hpending, ?_, ?_⟩
            · unfold ReadsFrom at hreads ⊢
              rw [← hposition]
              exact hreads
            · intro hanswers _ hresult
              exact hanswers (hwaits hresult ▸ List.mem_cons_self)
        | none =>
            obtain ⟨hsame, hless⟩ := hpolled.goes_on rfl
            obtain ⟨hlast, hpending', hreads, hends⟩ := ih hpolled.shows_after
            refine ⟨hlast, hpending'.trans (hpolled.pending_eq.trans hpending), ?_, ?_⟩
            · unfold ReadsFrom at hreads ⊢
              rw [← hposition, ← hsame]
              exact hreads
            · intro hanswers hlength
              rw [List.length_cons] at hlength
              rw [List.mem_cons, not_or] at hanswers
              exact hends hanswers.2 (by omega)

/-- Every call keeps the invariant and does what a view of the content does. -/
theorem Shows.call (h : Shows load pieces reader) (c : Call) :
    Shows load pieces (reader.afterCall load named c) ∧
      Views pieces.flatten reader (reader.afterCall load named c) c
        (reader.call load named c).2 := by
  unfold afterCall ListReader.call
  cases c with
  | startSeek seekFrom => exact h.startSeek seekFrom
  | pollComplete => exact h.pollComplete
  | pollRead room answers =>
      dsimp only
      unfold ListReader.pollRead Views
      by_cases hpending : reader.pendingSeek.isSome
      · rw [if_pos hpending]
        refine ⟨h, rfl, ?_⟩
        rw [if_pos hpending]
        exact ⟨rfl, _, rfl⟩
      · rw [if_neg hpending]
        by_cases hroom : room = 0
        · rw [if_pos hroom]
          refine ⟨h, rfl, ?_⟩
          rw [if_neg hpending, if_pos hroom]
          exact ⟨rfl, rfl⟩
        · rw [if_neg hroom]
          obtain ⟨hafter, hsame, hreads⟩ := h.pollReadLoop named hroom answers
          refine ⟨hafter, hsame, ?_⟩
          rw [if_neg hpending, if_neg hroom]
          exact hreads

/-- After any calls the reader still shows its pieces. -/
theorem Shows.calls (h : Shows load pieces reader) (named : σ → String)
    (calls : List Call) :
    Shows load pieces (run (afterCall load named) reader calls) :=
  run_invariant_of_forall (fun _ c (_ : True) hshows => (hshows.call c).1)
    (fun _ _ => trivial) h

end ListReader
end NamedStore
end CyfsNdn

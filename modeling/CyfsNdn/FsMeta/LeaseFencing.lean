import CyfsNdn.FsMeta.WriteLease

/-!
# The fence of a lease

A writer that holds the lease of a file knows it by its session and a number.  The number
is counted up each time the lease is taken, so that a writer whose lease has passed on is
turned away: what it calls names a number that is not the row's any more.

A call reaches one row or none.  What it can do there is listed once, in `RowStep`; the
facts on runs follow from two relations that every such step keeps: the number of a later
row is as large, and larger under another session, and a lease that runs beyond a time
does so until it is given back.
-/

namespace CyfsNdn
namespace FsMeta

open NdnLib Relational Collections Transition

/-- The calls on leases, and a round of the reclaimer. -/
inductive LeaseCall where
  | acquireFileLease (id : IndexNodeId) (session : String) (ttl : UInt64)
  | renewFileLease (id : IndexNodeId) (session : String) (leaseSeq ttl : UInt64)
  | releaseFileLease (id : IndexNodeId) (session : String) (leaseSeq : UInt64)
  | reclaimExpiredWriteLeases
deriving DecidableEq

/-- A call and the time that it reads from the clock. -/
structure TimedCall where
  now : UInt64
  call : LeaseCall
deriving DecidableEq

namespace LeaseCall

/-- The file, the session and the time to live of a call that grants a lease. -/
def grants : LeaseCall → Option (IndexNodeId × String × UInt64)
  | acquireFileLease id session ttl => some (id, session, ttl)
  | renewFileLease id session _ ttl => some (id, session, ttl)
  | releaseFileLease _ _ _ => none
  | reclaimExpiredWriteLeases => none

/-- The file and the pair that a call names a lease by. -/
def names : LeaseCall → Option (IndexNodeId × String × UInt64)
  | acquireFileLease _ _ _ => none
  | renewFileLease id session leaseSeq _ => some (id, session, leaseSeq)
  | releaseFileLease id session leaseSeq => some (id, session, leaseSeq)
  | reclaimExpiredWriteLeases => none

end LeaseCall

/-- The end of a lease that the call grants for a time. -/
def TimedCall.expireAt (c : TimedCall) (ttl : UInt64) : Int64 :=
  saturatingAdd c.now.toInt64 ttl.toInt64

/-- The pair that the lease of the row is known by. -/
def NodeRow.fence (row : NodeRow) : Option (String × UInt64) :=
  match row.leaseClientSession, row.leaseSeq with
  | some session, some seq =>
      (seq.get "0" "lease_seq").toOption.map fun n => (session, n.toUInt64)
  | _, _ => none

/-- The lease runs beyond the time. -/
def NodeRow.Unexpired (row : NodeRow) (time : Nat) : Prop :=
  ∃ expireAt, row.leaseExpireAt = some expireAt ∧ (time : Int) < expireAt.toInt

/-- The lease ends at the given time or before. -/
def NodeRow.endsBy (row : NodeRow) (expireAt : Int64) : Bool :=
  row.leaseExpireAt.all fun current => current ≤ expireAt

namespace FsMetaDb

variable {db : FsMetaDb}

/-- The database that a call leaves, and its answer. -/
def serve (db : FsMetaDb) (c : TimedCall) : FsMetaDb × RpcResult Unit :=
  match c.call with
  | .acquireFileLease id session ttl =>
      let acquired := db.acquireFileLease c.now id session ttl
      (acquired.1, acquired.2.map fun _ => ())
  | .renewFileLease id session leaseSeq ttl =>
      let renewed := db.renewFileLease c.now id session leaseSeq ttl
      (LeaseState.committed db renewed, renewed.map fun _ => ())
  | .releaseFileLease id session leaseSeq =>
      let released := db.releaseFileLease id session leaseSeq
      (LeaseState.committed db released, released.map fun _ => ())
  | .reclaimExpiredWriteLeases => (db.reclaimExpiredWriteLeases c.now, .ok ())

/-- The database that a call leaves. -/
def perform (db : FsMetaDb) (c : TimedCall) : FsMetaDb := (db.serve c).1

/-- The call fails and changes nothing. -/
def Refuses (db : FsMetaDb) (c : TimedCall) : Prop :=
  (∃ message, (db.serve c).2 = .error message) ∧ db.perform c = db

/-- The call gives the lease of the file back. -/
def Releases (db : FsMetaDb) (id : IndexNodeId) (c : TimedCall) : Prop :=
  ∃ session leaseSeq, c.call = .releaseFileLease id session leaseSeq ∧ (db.serve c).2 = .ok ()

end FsMetaDb

/-! ## What a call can do to a row -/

/-- What a call can do to the row of a file. -/
inductive RowStep (id : IndexNodeId) (c : TimedCall) (row : NodeRow) : NodeRow → Prop where
  | kept : RowStep id c row row
  | held {session : String} {ttl : UInt64} (call : c.call = .acquireFileLease id session ttl)
      (held : row.heldBy session c.now.toInt64 = true) :
      RowStep id c row (row.renewed (c.expireAt ttl))
  | acquired {session : String} {ttl : UInt64}
      (call : c.call = .acquireFileLease id session ttl)
      (held : row.heldBy session c.now.toInt64 = false)
      (free : row.leaseFree c.now.toInt64 = true) :
      RowStep id c row (row.acquired session (c.expireAt ttl))
  | renewed {session : String} {leaseSeq ttl : UInt64}
      (call : c.call = .renewFileLease id session leaseSeq ttl)
      (current : row.leaseMatches session leaseSeq = true) :
      RowStep id c row (row.renewed (c.expireAt ttl))
  | released {session : String} {leaseSeq : UInt64}
      (call : c.call = .releaseFileLease id session leaseSeq)
      (current : row.leaseMatches session leaseSeq = true) :
      RowStep id c row row.released
  | reclaimed (expired : row.leaseExpired c.now.toInt64 = true) :
      RowStep id c row (row.reclaimed c.now.toInt64)

namespace FsMetaDb

variable {db : FsMetaDb}

theorem find?_updateKey_ne {id k : IndexNodeId} (change : NodeRow → NodeRow)
    (hchange : ∀ row, (change row).inodeId = row.inodeId) (hne : id ≠ k) :
    (db.nodes.updateKey k change hchange).find? id = db.nodes.find? id := by
  rw [Table.find?_updateKey, if_neg hne]

/-! The three ways of an acquisition. -/

section Acquire

variable {id : IndexNodeId} {row : NodeRow} {now : UInt64} {session : String}

theorem acquireFileLease_held (ttl : UInt64) (hfind : db.nodes.find? id = some row)
    (hheld : row.heldBy session now.toInt64 = true) :
    db.acquireFileLease now id session ttl =
      ({ db with
          nodes := db.nodes.updateKey id
            (NodeRow.renewed (saturatingAdd now.toInt64 ttl.toInt64)) fun _ => rfl },
        (row.seq.get "0" "COALESCE(lease_seq, 0)").map Int64.toUInt64) := by
  unfold acquireFileLease
  rw [hfind]
  exact if_pos hheld

theorem acquireFileLease_taken (ttl : UInt64) (hfind : db.nodes.find? id = some row)
    (hheld : row.heldBy session now.toInt64 = false) (hfree : row.leaseFree now.toInt64 = true) :
    db.acquireFileLease now id session ttl =
      ({ db with
          nodes := db.nodes.updateKey id
            (NodeRow.acquired session (saturatingAdd now.toInt64 ttl.toInt64)) fun _ => rfl },
        (row.seq.addOne.get "0" "lease_seq").map Int64.toUInt64) := by
  unfold acquireFileLease
  rw [hfind]
  dsimp only
  rw [if_neg (by simp [hheld]), if_pos hfree]

theorem acquireFileLease_conflict (ttl : UInt64) (hfind : db.nodes.find? id = some row)
    (hheld : row.heldBy session now.toInt64 = false)
    (hfree : row.leaseFree now.toInt64 = false) :
    db.acquireFileLease now id session ttl = (db, .error "lease conflict") := by
  unfold acquireFileLease
  rw [hfind]
  dsimp only
  rw [if_neg (by simp [hheld]), if_neg (by simp [hfree])]

theorem acquireFileLease_missing (now : UInt64) (session : String) (ttl : UInt64)
    (hfind : db.nodes.find? id = none) :
    db.acquireFileLease now id session ttl = (db, .error "inode not found") := by
  unfold acquireFileLease
  rw [hfind]

end Acquire

/-- The row of a file after an acquisition. -/
theorem rowStep_acquire {id k : IndexNodeId} {row : NodeRow} {c : TimedCall} {session : String}
    {ttl : UInt64} (hfind : db.nodes.find? id = some row)
    (hcall : c.call = .acquireFileLease k session ttl) :
    ∃ row', (db.acquireFileLease c.now k session ttl).1.nodes.find? id = some row' ∧
      RowStep id c row row' := by
  cases hk : db.nodes.find? k with
  | none =>
      rw [acquireFileLease_missing c.now session ttl hk]
      exact ⟨row, hfind, .kept⟩
  | some target =>
      cases hheld : target.heldBy session c.now.toInt64 with
      | true =>
          rw [acquireFileLease_held ttl hk hheld]
          by_cases hid : id = k
          · subst hid
            obtain rfl : row = target := Option.some.inj (hfind.symm.trans hk)
            exact ⟨_, (touch_updateKey hfind).foundAfter, .held hcall hheld⟩
          · exact ⟨row, (find?_updateKey_ne (NodeRow.renewed _) (fun _ => rfl) hid).trans hfind,
              .kept⟩
      | false =>
          cases hfree : target.leaseFree c.now.toInt64 with
          | true =>
              rw [acquireFileLease_taken ttl hk hheld hfree]
              by_cases hid : id = k
              · subst hid
                obtain rfl : row = target := Option.some.inj (hfind.symm.trans hk)
                exact ⟨_, (touch_updateKey hfind).foundAfter, .acquired hcall hheld hfree⟩
              · exact ⟨row,
                  (find?_updateKey_ne (NodeRow.acquired session _) (fun _ => rfl) hid).trans hfind,
                  .kept⟩
          | false =>
              rw [acquireFileLease_conflict ttl hk hheld hfree]
              exact ⟨row, hfind, .kept⟩

/-- The row of a file after a statement on a lease. -/
theorem row_of_onLease {id : IndexNodeId} {row : NodeRow} (hfind : db.nodes.find? id = some row)
    (k : IndexNodeId) (session : String) (leaseSeq : UInt64) (change : NodeRow → NodeRow)
    (hchange : ∀ row, (change row).inodeId = row.inodeId) :
    (LeaseState.committed db (db.onLease k session leaseSeq change hchange)).nodes.find? id =
        some row ∨
      (k = id ∧ row.leaseMatches session leaseSeq = true ∧
        (LeaseState.committed db (db.onLease k session leaseSeq change hchange)).nodes.find? id =
          some (change row)) := by
  cases hlease : db.onLease k session leaseSeq change hchange with
  | error message => exact Or.inl hfind
  | ok db' =>
      obtain ⟨target, hmatch, htouch⟩ := exists_touch_of_onLease hlease
      by_cases hid : id = k
      · subst hid
        obtain rfl : row = target := Option.some.inj (hfind.symm.trans htouch.found)
        exact Or.inr ⟨rfl, hmatch, htouch.foundAfter⟩
      · refine Or.inl ?_
        show db'.nodes.find? id = some row
        rw [htouch.nodes, if_neg hid, hfind]

/-- A file keeps its row, and the call does to it what it can. -/
theorem rowStep_perform {id : IndexNodeId} {row : NodeRow} (c : TimedCall)
    (hfind : db.nodes.find? id = some row) :
    ∃ row', (db.perform c).nodes.find? id = some row' ∧ RowStep id c row row' := by
  unfold perform serve
  cases hcall : c.call with
  | acquireFileLease k session ttl => exact rowStep_acquire hfind hcall
  | renewFileLease k session leaseSeq ttl =>
      rcases row_of_onLease hfind k session leaseSeq (NodeRow.renewed (c.expireAt ttl))
        fun _ => rfl with hkept | ⟨rfl, hmatch, hrow⟩
      · exact ⟨row, hkept, .kept⟩
      · exact ⟨_, hrow, .renewed hcall hmatch⟩
  | releaseFileLease k session leaseSeq =>
      rcases row_of_onLease hfind k session leaseSeq NodeRow.released fun _ => rfl with
        hkept | ⟨rfl, hmatch, hrow⟩
      · exact ⟨row, hkept, .kept⟩
      · exact ⟨_, hrow, .released hcall hmatch⟩
  | reclaimExpiredWriteLeases =>
      dsimp only
      rw [find?_reclaim, hfind]
      by_cases hexpired : row.leaseExpired c.now.toInt64 = true
      · refine ⟨_, by rw [Option.map_some, if_pos hexpired], .reclaimed hexpired⟩
      · refine ⟨row, by rw [Option.map_some, if_neg hexpired], .kept⟩

end FsMetaDb

/-! ## What a call must not ask for -/

/-- The call grants no lease whose time does not fit the signed column, none that ends
before the one it extends, and none for which no number is left. -/
def NodeRow.Serves (row : NodeRow) (id : IndexNodeId) (c : TimedCall) : Prop :=
  match c.call with
  | .acquireFileLease k session ttl =>
      k = id →
        (row.heldBy session c.now.toInt64 = true →
          ttl.toNat < 2 ^ 63 ∧ row.endsBy (c.expireAt ttl) = true) ∧
        (row.leaseFree c.now.toInt64 = true → ttl.toNat < 2 ^ 63 ∧ row.seq.val < 2 ^ 63)
  | .renewFileLease k session leaseSeq ttl =>
      k = id → row.leaseMatches session leaseSeq = true →
        ttl.toNat < 2 ^ 63 ∧ row.endsBy (c.expireAt ttl) = true
  | .releaseFileLease _ _ _ => True
  | .reclaimExpiredWriteLeases => True

/-- What the call asks of the row of the file is in order. -/
def FsMetaDb.LeaseSafe (id : IndexNodeId) (db : FsMetaDb) (c : TimedCall) : Prop :=
  ∀ row ∈ db.nodes.find? id, row.Serves id c

instance (row : NodeRow) (id : IndexNodeId) (c : TimedCall) : Decidable (row.Serves id c) := by
  unfold NodeRow.Serves
  split <;> infer_instance

instance (id : IndexNodeId) (db : FsMetaDb) (c : TimedCall) : Decidable (db.LeaseSafe id c) :=
  inferInstanceAs (Decidable (∀ row ∈ db.nodes.find? id, row.Serves id c))

/-- A later row of a file has as large a number, and the same session if it has the same
number and any session at all. -/
structure NodeRow.Later (row row' : NodeRow) : Prop where
  seq : row.seq.val ≤ row'.seq.val
  session : row'.seq.val = row.seq.val → ∀ holder, row'.leaseClientSession = some holder →
    row.leaseClientSession = some holder

namespace NodeRow

theorem Later.refl (row : NodeRow) : row.Later row := ⟨Int.le_refl _, fun _ _ h => h⟩

theorem Later.trans {a b c : NodeRow} (hab : a.Later b) (hbc : b.Later c) : a.Later c where
  seq := Int.le_trans hab.seq hbc.seq
  session := by
    intro heq holder hholder
    have hab' := hab.seq
    have hbc' := hbc.seq
    exact hab.session (by omega) holder (hbc.session (by omega) holder hholder)

/-- The number of a row whose lease has passed on is larger. -/
theorem Later.seq_lt {row row' : NodeRow} (h : row.Later row') {a b : String}
    (ha : row.leaseClientSession = some a) (hb : row'.leaseClientSession = some b)
    (hne : a ≠ b) : row.seq.val < row'.seq.val := by
  refine lt_of_le_of_ne h.seq fun heq => hne ?_
  have hholder := h.session heq.symm b hb
  exact Option.some.inj (ha.symm.trans hholder)

theorem val_seq_acquired {row : NodeRow} (session : String) (expireAt : Int64)
    (h : row.seq.val < 2 ^ 63) : (row.acquired session expireAt).seq.val = row.seq.val + 1 := by
  show row.seq.addOne.val = row.seq.val + 1
  unfold Counter.addOne
  rw [dif_pos h]

end NodeRow

theorem RowStep.later {id : IndexNodeId} {c : TimedCall} {row row' : NodeRow}
    (h : RowStep id c row row') (hsafe : row.Serves id c) : row.Later row' := by
  cases h with
  | kept => exact .refl row
  | held call held => exact ⟨Int.le_refl _, fun _ _ h => h⟩
  | @acquired session ttl call held free =>
      rw [NodeRow.Serves, call] at hsafe
      have hseq := NodeRow.val_seq_acquired session (c.expireAt ttl) ((hsafe rfl).2 free).2
      refine ⟨by rw [hseq]; omega, fun heq => ?_⟩
      rw [hseq] at heq
      omega
  | renewed call current => exact ⟨Int.le_refl _, fun _ _ h => h⟩
  | released call current => exact ⟨Int.le_refl _, fun _ _ h => nomatch h⟩
  | reclaimed expired => exact ⟨Int.le_refl _, fun _ _ h => nomatch h⟩

/-! ## Times -/

theorem toInt_toInt64 {n : UInt64} (h : n.toNat < 2 ^ 63) : n.toInt64.toInt = n.toNat := by
  rw [UInt64.toInt64, Int64.toInt, Int64.toBitVec]
  exact BitVec.toInt_eq_toNat_of_lt (by
    show 2 * n.toNat < 2 ^ 64
    omega)

/-- The end of a lease, where the sum does not wrap into the past. -/
theorem TimedCall.toInt_expireAt {c : TimedCall} {ttl : UInt64} (hnow : c.now.toNat < 2 ^ 63)
    (httl : ttl.toNat < 2 ^ 63) :
    (c.expireAt ttl).toInt = min (c.now.toNat + ttl.toNat : Int) (2 ^ 63 - 1) := by
  have hmax : Int64.maxValue.toInt = 2 ^ 63 - 1 := by decide
  have hmin : Int64.minValue.toInt = -2 ^ 63 := by decide
  unfold expireAt saturatingAdd
  rw [toInt_toInt64 hnow, toInt_toInt64 httl, hmax, hmin]
  split_ifs with hover hunder
  · rw [hmax]
    omega
  · omega
  · rw [Int64.toInt_add, toInt_toInt64 hnow, toInt_toInt64 httl]
    rw [Int.bmod_eq_of_le (by omega) (by omega)]
    omega

/-- The session holds the lease beyond the time. -/
def NodeRow.HoldsBeyond (row : NodeRow) (session : String) (time : Nat) : Prop :=
  row.leaseClientSession = some session ∧ row.Unexpired time

namespace NodeRow

theorem HoldsBeyond.renewed {row : NodeRow} {session : String} {time : Nat} {expireAt : Int64}
    (h : row.HoldsBeyond session time) (hends : row.endsBy expireAt = true) :
    (row.renewed expireAt).HoldsBeyond session time := by
  obtain ⟨hsession, current, hcurrent, hlt⟩ := h
  refine ⟨hsession, expireAt, rfl, ?_⟩
  rw [endsBy, hcurrent, Option.all_some, decide_eq_true_eq, Int64.le_iff_toInt_le] at hends
  omega

/-- A lease that has not run out is not one that the clock has overtaken. -/
theorem leaseExpired_of_unexpired {row : NodeRow} {time : Nat} {now : UInt64}
    (h : row.Unexpired time) (hnow : now.toNat ≤ time) (hbound : now.toNat < 2 ^ 63) :
    row.leaseExpired now.toInt64 = false ∧ row.leaseFree now.toInt64 = false := by
  obtain ⟨expireAt, hexpire, hlt⟩ := h
  have hafter : ¬ expireAt ≤ now.toInt64 := by
    rw [Int64.le_iff_toInt_le, toInt_toInt64 hbound]
    omega
  simp [leaseExpired, leaseFree, hexpire, hafter]

/-- A row that a grant has written. -/
theorem unexpired_of_granted {row : NodeRow} {c : TimedCall} {ttl : UInt64} {time : Nat}
    (hrow : row.leaseExpireAt = some (c.expireAt ttl)) (hnow : c.now.toNat < 2 ^ 62)
    (httl : ttl.toNat < 2 ^ 63) (htime : time < 2 ^ 62)
    (hlt : time < c.now.toNat + ttl.toNat) : row.Unexpired time := by
  refine ⟨_, hrow, ?_⟩
  rw [TimedCall.toInt_expireAt (by omega) httl]
  omega

end NodeRow

theorem RowStep.holdsBeyond {id : IndexNodeId} {c : TimedCall} {row row' : NodeRow}
    {session : String} {time : Nat} (h : RowStep id c row row') (hsafe : row.Serves id c)
    (hnow : c.now.toNat ≤ time) (htime : time < 2 ^ 62) (hholds : row.HoldsBeyond session time) :
    row'.HoldsBeyond session time ∨
      ∃ holder leaseSeq, c.call = .releaseFileLease id holder leaseSeq ∧
        row.leaseMatches holder leaseSeq = true := by
  obtain ⟨hexpired, hfree⟩ := NodeRow.leaseExpired_of_unexpired hholds.2 hnow (by omega)
  cases h with
  | kept => exact Or.inl hholds
  | held call held =>
      rw [NodeRow.Serves, call] at hsafe
      exact Or.inl (hholds.renewed ((hsafe rfl).1 held).2)
  | acquired call held free =>
      rw [hfree] at free
      cases free
  | renewed call current =>
      rw [NodeRow.Serves, call] at hsafe
      exact Or.inl (hholds.renewed (hsafe rfl current).2)
  | released call current => exact Or.inr ⟨_, _, call, current⟩
  | reclaimed expired =>
      rw [hexpired] at expired
      cases expired

theorem NodeRow.leaseMatches_iff_fence {row : NodeRow} {session : String} {leaseSeq : UInt64} :
    row.leaseMatches session leaseSeq = true ↔ row.fence = some (session, leaseSeq) := by
  unfold leaseMatches fence
  cases row.leaseClientSession with
  | none => simp
  | some holder =>
      cases row.leaseSeq with
      | none => simp
      | some seq =>
          simp only [Option.some.injEq, Bool.and_eq_true, decide_eq_true_eq]
          constructor
          · rintro ⟨rfl, rfl⟩
            have hlt : (Counter.ofInt64 leaseSeq.toInt64).val < 2 ^ 63 := leaseSeq.toInt64.toInt_lt
            rw [Counter.get, if_pos hlt]
            simp [Except.toOption, Counter.ofInt64]
          · intro h
            cases hget : seq.get "0" "lease_seq" with
            | error message =>
                rw [hget] at h
                cases h
            | ok n =>
                rw [hget] at h
                cases h
                exact ⟨rfl, (Counter.ofInt64_of_get hget).symm⟩

/-! ## What fencing promises -/

/-- What fencing promises of one call on a file. -/
structure FencedCall (id : IndexNodeId) (db : FsMetaDb) (c : TimedCall) : Prop where
  /-- A lease that the session does not hold is taken under a larger number, or not at all. -/
  taken : ∀ row session ttl, db.nodes.find? id = some row →
    c.call = .acquireFileLease id session ttl → row.heldBy session c.now.toInt64 = false →
    db.Refuses c ∨
      ∃ row', (db.perform c).nodes.find? id = some row' ∧ row.seq.val < row'.seq.val
  /-- A pair that is not the current one is turned away. -/
  mismatch : ∀ row session leaseSeq, db.nodes.find? id = some row →
    c.call.names = some (id, session, leaseSeq) → row.fence ≠ some (session, leaseSeq) →
    db.Refuses c
  /-- Nobody else takes a lease that runs. -/
  contended : ∀ row session ttl, db.nodes.find? id = some row →
    c.call = .acquireFileLease id session ttl → row.leaseClientSession ≠ some session →
    row.Unexpired c.now.toNat → db.Refuses c

/-- What fencing promises of the lease of a file over a run. -/
structure Fenced (id : IndexNodeId) (db : FsMetaDb) (calls : List TimedCall) : Prop where
  call : Along FsMetaDb.perform (FencedCall id) db calls
  /-- The number never decreases, and it is larger where the session is another. -/
  seq : ∀ before between after row row', calls = before ++ between ++ after →
    (run FsMetaDb.perform db before).nodes.find? id = some row →
    (run FsMetaDb.perform db (before ++ between)).nodes.find? id = some row' →
    row.seq.val ≤ row'.seq.val ∧
      ∀ a b, row.leaseClientSession = some a → row'.leaseClientSession = some b → a ≠ b →
        row.seq.val < row'.seq.val
  /-- A lease that was granted runs for its time unless it is given back. -/
  granted : ∀ before c between after session ttl (time : Nat),
    calls = before ++ c :: (between ++ after) → c.call.grants = some (id, session, ttl) →
    ((run FsMetaDb.perform db before).serve c).2 = .ok () →
    c.now.toNat ≤ time → time < c.now.toNat + ttl.toNat → time < 2 ^ 62 →
    (∀ d ∈ between, d.now.toNat ≤ time) →
    Along FsMetaDb.perform (fun later d => ¬ later.Releases id d)
      ((run FsMetaDb.perform db before).perform c) between →
    ∃ row, (run FsMetaDb.perform db (before ++ c :: between)).nodes.find? id = some row ∧
      row.HoldsBeyond session time

namespace FsMetaDb

variable {db : FsMetaDb} {id : IndexNodeId} {row : NodeRow} {c : TimedCall}

theorem refuses_of_onLease {session : String} {leaseSeq : UInt64}
    (hfind : db.nodes.find? id = some row) (hnames : c.call.names = some (id, session, leaseSeq))
    (hfence : row.fence ≠ some (session, leaseSeq)) : db.Refuses c := by
  have hmatch : row.leaseMatches session leaseSeq = false := by
    rw [Bool.eq_false_iff, Ne, NodeRow.leaseMatches_iff_fence]
    exact hfence
  have hlease : ∀ change hchange,
      db.onLease id session leaseSeq change hchange = .error "lease mismatch" := by
    intro change hchange
    unfold onLease
    rw [hfind]
    exact if_neg (by simp [hmatch])
  unfold Refuses perform serve
  cases hcall : c.call with
  | acquireFileLease k holder ttl =>
      rw [hcall] at hnames
      cases hnames
  | renewFileLease k holder seq ttl =>
      rw [hcall] at hnames
      cases hnames
      have hrenew : db.renewFileLease c.now id session leaseSeq ttl = .error "lease mismatch" :=
        hlease _ _
      dsimp only
      rw [hrenew]
      exact ⟨⟨_, rfl⟩, rfl⟩
  | releaseFileLease k holder seq =>
      rw [hcall] at hnames
      cases hnames
      have hrelease : db.releaseFileLease id session leaseSeq = .error "lease mismatch" :=
        hlease _ _
      dsimp only
      rw [hrelease]
      exact ⟨⟨_, rfl⟩, rfl⟩
  | reclaimExpiredWriteLeases =>
      rw [hcall] at hnames
      cases hnames

theorem refuses_of_conflict {session : String} {ttl : UInt64}
    (hfind : db.nodes.find? id = some row) (hcall : c.call = .acquireFileLease id session ttl)
    (hheld : row.heldBy session c.now.toInt64 = false)
    (hfree : row.leaseFree c.now.toInt64 = false) : db.Refuses c := by
  unfold Refuses perform serve
  rw [hcall]
  dsimp only
  rw [acquireFileLease_conflict ttl hfind hheld hfree]
  exact ⟨⟨_, rfl⟩, rfl⟩

/-- The row that a taking acquisition leaves. -/
theorem find?_of_taken {session : String} {ttl : UInt64} (hfind : db.nodes.find? id = some row)
    (hcall : c.call = .acquireFileLease id session ttl)
    (hheld : row.heldBy session c.now.toInt64 = false)
    (hfree : row.leaseFree c.now.toInt64 = true) :
    (db.perform c).nodes.find? id = some (row.acquired session (c.expireAt ttl)) := by
  unfold perform serve
  rw [hcall]
  dsimp only
  rw [acquireFileLease_taken ttl hfind hheld hfree]
  exact (touch_updateKey hfind).foundAfter

theorem fencedCall (hnow : c.now.toNat < 2 ^ 62) (hsafe : db.LeaseSafe id c) :
    FencedCall id db c where
  taken := by
    intro row session ttl hfind hcall hheld
    cases hfree : row.leaseFree c.now.toInt64 with
    | false => exact Or.inl (refuses_of_conflict hfind hcall hheld hfree)
    | true =>
        refine Or.inr ⟨_, find?_of_taken hfind hcall hheld hfree, ?_⟩
        have hserves := hsafe row hfind
        rw [NodeRow.Serves, hcall] at hserves
        rw [NodeRow.val_seq_acquired _ _ ((hserves rfl).2 hfree).2]
        omega
  mismatch := fun row session leaseSeq hfind hnames hfence =>
    refuses_of_onLease hfind hnames hfence
  contended := by
    intro row session ttl hfind hcall hother hruns
    obtain ⟨-, hfree⟩ := NodeRow.leaseExpired_of_unexpired hruns le_rfl (by omega)
    refine refuses_of_conflict hfind hcall ?_ hfree
    simp [NodeRow.heldBy, hother]

/-- A call that answers that it granted a lease has done so. -/
theorem holdsBeyond_of_grants {session : String} {ttl : UInt64} {time : Nat}
    (hgrants : c.call.grants = some (id, session, ttl)) (hok : (db.serve c).2 = .ok ())
    (hsafe : db.LeaseSafe id c) (hnow : c.now.toNat < 2 ^ 62) (htime : time < 2 ^ 62)
    (hlt : time < c.now.toNat + ttl.toNat) :
    ∃ row, (db.perform c).nodes.find? id = some row ∧ row.HoldsBeyond session time := by
  unfold serve at hok
  cases hcall : c.call with
  | acquireFileLease k holder span =>
      rw [hcall] at hgrants hok
      cases hgrants
      dsimp only at hok
      cases hfind : db.nodes.find? id with
      | none =>
          rw [acquireFileLease_missing c.now session ttl hfind] at hok
          cases hok
      | some row =>
          have hserves := hsafe row hfind
          rw [NodeRow.Serves, hcall] at hserves
          cases hheld : row.heldBy session c.now.toInt64 with
          | true =>
              refine ⟨row.renewed (c.expireAt ttl), ?_, ?_⟩
              · unfold perform serve
                rw [hcall]
                dsimp only
                rw [acquireFileLease_held ttl hfind hheld]
                exact (touch_updateKey hfind).foundAfter
              · rw [NodeRow.heldBy, Bool.and_eq_true, decide_eq_true_eq] at hheld
                exact ⟨hheld.1, NodeRow.unexpired_of_granted rfl hnow
                  ((hserves rfl).1 (by simp [NodeRow.heldBy, hheld])).1 htime hlt⟩
          | false =>
              cases hfree : row.leaseFree c.now.toInt64 with
              | true =>
                  exact ⟨_, find?_of_taken hfind hcall hheld hfree, rfl,
                    NodeRow.unexpired_of_granted rfl hnow ((hserves rfl).2 hfree).1 htime hlt⟩
              | false =>
                  rw [acquireFileLease_conflict ttl hfind hheld hfree] at hok
                  cases hok
  | renewFileLease k holder leaseSeq span =>
      rw [hcall] at hgrants hok
      cases hgrants
      dsimp only at hok
      cases hlease : db.renewFileLease c.now id session leaseSeq ttl with
      | error message =>
          rw [hlease] at hok
          cases hok
      | ok db' =>
          obtain ⟨row, hmatch, htouch⟩ := exists_touch_of_onLease hlease
          have hserves := hsafe row htouch.found
          rw [NodeRow.Serves, hcall] at hserves
          refine ⟨row.renewed (c.expireAt ttl), ?_, ?_⟩
          · unfold perform serve
            rw [hcall]
            dsimp only
            rw [hlease]
            exact htouch.foundAfter
          · obtain ⟨hholder, -⟩ := Bool.and_eq_true_iff.mp hmatch
            exact ⟨decide_eq_true_eq.mp hholder, NodeRow.unexpired_of_granted rfl hnow
              (hserves rfl hmatch).1 htime hlt⟩
  | releaseFileLease k holder leaseSeq =>
      rw [hcall] at hgrants
      cases hgrants
  | reclaimExpiredWriteLeases =>
      rw [hcall] at hgrants
      cases hgrants

theorem releases_of_leaseMatches {session : String} {leaseSeq : UInt64}
    (hfind : db.nodes.find? id = some row)
    (hcall : c.call = .releaseFileLease id session leaseSeq)
    (hmatch : row.leaseMatches session leaseSeq = true) : db.Releases id c := by
  refine ⟨session, leaseSeq, hcall, ?_⟩
  unfold serve
  rw [hcall]
  dsimp only [releaseFileLease, onLease]
  rw [hfind]
  dsimp only
  rw [if_pos hmatch]
  rfl

/-! ## Runs -/

/-- The row of a file after a run. -/
theorem later_run {calls : List TimedCall} (hsafe : Along perform (LeaseSafe id) db calls)
    (hfind : db.nodes.find? id = some row) :
    ∃ row', (run perform db calls).nodes.find? id = some row' ∧ row.Later row' := by
  induction calls generalizing db row with
  | nil => exact ⟨row, hfind, .refl row⟩
  | cons c rest ih =>
      obtain ⟨next, hnext, hstep⟩ := rowStep_perform c hfind
      obtain ⟨row', hrow', hlater⟩ := ih hsafe.2 hnext
      exact ⟨row', hrow', (hstep.later (hsafe.1 row hfind)).trans hlater⟩

/-- A lease that nobody gives back runs on. -/
theorem holdsBeyond_run {calls : List TimedCall} {session : String} {time : Nat}
    (hsafe : Along perform (LeaseSafe id) db calls)
    (hkeep : Along perform (fun later d => ¬ later.Releases id d) db calls)
    (hclock : ∀ d ∈ calls, d.now.toNat ≤ time) (htime : time < 2 ^ 62)
    (hfind : db.nodes.find? id = some row) (hholds : row.HoldsBeyond session time) :
    ∃ row', (run perform db calls).nodes.find? id = some row' ∧ row'.HoldsBeyond session time := by
  induction calls generalizing db row with
  | nil => exact ⟨row, hfind, hholds⟩
  | cons c rest ih =>
      obtain ⟨next, hnext, hstep⟩ := rowStep_perform c hfind
      have hlater : ∀ d ∈ rest, d.now.toNat ≤ time :=
        fun d hd => hclock d (List.mem_cons_of_mem c hd)
      rcases hstep.holdsBeyond (hsafe.1 row hfind) (hclock c List.mem_cons_self) htime hholds with
        hholds' | ⟨holder, leaseSeq, hcall, hmatch⟩
      · exact ih hsafe.2 hkeep.2 hlater hnext hholds'
      · exact absurd (releases_of_leaseMatches hfind hcall hmatch) hkeep.1

theorem fencedCall_along {calls : List TimedCall} (hbound : ∀ c ∈ calls, c.now.toNat < 2 ^ 62)
    (hsafe : Along perform (LeaseSafe id) db calls) :
    Along perform (FencedCall id) db calls := by
  induction calls generalizing db with
  | nil => trivial
  | cons c rest ih =>
      exact ⟨fencedCall (hbound c List.mem_cons_self) hsafe.1,
        ih (fun d hd => hbound d (List.mem_cons_of_mem c hd)) hsafe.2⟩

/-- Fencing holds of every file in every run whose calls ask for times to live that the
signed column holds, extend a lease only, and find a number left. -/
theorem fenced_of_leaseSafe (id : IndexNodeId) (db : FsMetaDb) (calls : List TimedCall)
    (hbound : ∀ c ∈ calls, c.now.toNat < 2 ^ 62)
    (hsafe : Along perform (LeaseSafe id) db calls) : Fenced id db calls where
  call := fencedCall_along hbound hsafe
  seq := by
    intro before between after row row' hcalls hrow hrow'
    rw [hcalls, List.append_assoc, along_append] at hsafe
    obtain ⟨last, hlast, hlater⟩ := later_run (along_append.mp hsafe.2).1 hrow
    rw [run_append] at hrow'
    obtain rfl : last = row' := Option.some.inj (hlast.symm.trans hrow')
    exact ⟨hlater.seq, fun a b ha hb hne => hlater.seq_lt ha hb hne⟩
  granted := by
    intro before c between after session ttl time hcalls hgrants hok hfrom hlt htime hupto hkeep
    rw [hcalls, along_append] at hsafe
    obtain ⟨row, hrow, hholds⟩ := holdsBeyond_of_grants hgrants hok hsafe.2.1
      (hbound c (by rw [hcalls]; simp)) htime hlt
    obtain ⟨last, hlast, hrest⟩ := holdsBeyond_run (along_append.mp hsafe.2.2).1 hkeep hupto htime
      hrow hholds
    refine ⟨last, ?_, hrest⟩
    rw [run_append, run_cons]
    exact hlast

/-- A service with a file that was written and closed. -/
def closedFile : FsMetaDb := (run LeaseState.step (LeaseState.init 0)
  [.openFileWriter (.standalone 0) 1 "f" .createOrTruncate none,
    .closeCommit (.standalone 10) 2, .closeRelease 0]).db

/-- A writer takes the lease, a second one is turned away and waits, takes the lease after
its end, and the first one cannot renew. -/
def handOver : List TimedCall :=
  [⟨100, .acquireFileLease 2 "first" 30⟩, ⟨110, .renewFileLease 2 "first" 2 30⟩,
    ⟨120, .acquireFileLease 2 "second" 30⟩, ⟨140, .reclaimExpiredWriteLeases⟩,
    ⟨141, .acquireFileLease 2 "second" 30⟩, ⟨142, .renewFileLease 2 "first" 2 30⟩]

theorem fenced_handOver : Fenced 2 closedFile handOver :=
  fenced_of_leaseSafe 2 closedFile handOver (by decide) (by decide)

/-- A time to live of `2^63` is a negative number of seconds: the lease is granted and has
ended before it began. -/
theorem lease_of_huge_ttl_has_ended :
    ¬ ∀ (id : IndexNodeId) (db : FsMetaDb) (calls : List TimedCall),
      (calls.Pairwise fun earlier later => earlier.now ≤ later.now) →
      (∀ c ∈ calls, c.now.toNat < 2 ^ 62) → Fenced id db calls := by
  intro h
  have hfenced := h 2 closedFile [⟨100, .acquireFileLease 2 "first" (2 ^ 63)⟩]
    (List.pairwise_singleton _ _) (by decide)
  obtain ⟨row, hrow, -, expireAt, hexpire, hlt⟩ := hfenced.granted [] _ [] [] "first" (2 ^ 63) 100
    rfl rfl (by decide) (by decide) (by decide +kernel) (by decide) (by simp)
    trivial
  have hends : ((run perform closedFile
      [⟨100, .acquireFileLease 2 "first" (2 ^ 63)⟩]).nodes.find? 2).all
        (fun row => row.endsBy 100) = true := by
    decide +kernel
  have hrow' : (run perform closedFile
      [⟨100, .acquireFileLease 2 "first" (2 ^ 63)⟩]).nodes.find? 2 = some row := hrow
  rw [hrow', Option.all_some, NodeRow.endsBy, hexpire, Option.all_some, decide_eq_true_eq,
    Int64.le_iff_toInt_le] at hends
  have h100 : (100 : Int64).toInt = 100 := by decide
  rw [h100] at hends
  exact absurd hlt (by omega)

end FsMetaDb

end FsMeta
end CyfsNdn

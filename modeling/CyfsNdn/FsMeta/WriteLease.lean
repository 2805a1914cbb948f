import CyfsNdn.FsMeta.Elementary
import CyfsNdn.Transition.Run

/-!
# The write lease of a file

Opening a file for writing takes its lease and makes it `Working` in one transaction.
Closing it commits `Cooling` first and gives the lease back in a second step, under the
session and the sequence number that the transaction read.  All writers of a file share
the session of the service, and a reopen that finds the lease still held renews it under
the same number.  When that happens between the two steps of a close, the late release
takes the lease away from a `Working` file.
-/

namespace CyfsNdn
namespace FsMeta

open NdnLib Relational Collections Transition

/-- The row names a session and a time for its lease. -/
def NodeRow.HasLease (row : NodeRow) : Prop :=
  row.leaseClientSession.isSome = true ∧ row.leaseExpireAt.isSome = true

/-- A row that is `Working` has a lease. -/
def NodeRow.Guarded (row : NodeRow) : Prop := row.cols.state = .working → row.HasLease

/-- The committed database and the closes whose lease is not given back yet. -/
structure LeaseState where
  db : FsMetaDb
  pending : List (IndexNodeId × String × UInt64)

/-- A step of a writer, of the clients that keep a lease, or of the reclaimer. -/
inductive LeaseAction where
  | openFileWriter (env : ServiceEnv) (parent : IndexNodeId) (name : String)
      (flag : OpenWriteFlag) (expectedSize : Option UInt64)
  | closeCommit (env : ServiceEnv) (fileId : IndexNodeId)
  | closeRelease (index : Nat)
  | renewFileLease (now : UInt64) (id : IndexNodeId) (session : String) (leaseSeq ttl : UInt64)
  | reclaimExpiredWriteLeases (now : UInt64)

namespace LeaseState

/-- A fresh service. -/
def init (now : UInt64) : LeaseState := ⟨.fresh now, []⟩

/-- The database that a call leaves. -/
def committed (db : FsMetaDb) : RpcResult FsMetaDb → FsMetaDb
  | .ok db' => db'
  | .error _ => db

/-- The state after a step. -/
def step (s : LeaseState) : LeaseAction → LeaseState
  | .openFileWriter env parent name flag expectedSize =>
      { s with
        db := committed s.db
          ((s.db.openFileWriter env parent name flag expectedSize).map Prod.snd) }
  | .closeCommit env fileId =>
      match s.db.closeCommit env fileId with
      | .error _ => s
      | .ok (none, closed) => { s with db := closed }
      | .ok (some (session, seq), closed) => ⟨closed, s.pending ++ [(fileId, session, seq)]⟩
  | .closeRelease index =>
      match s.pending[index]? with
      | none => s
      | some (fileId, session, seq) =>
          ⟨committed s.db (s.db.releaseFileLease fileId session seq), s.pending.eraseIdx index⟩
  | .renewFileLease now id session leaseSeq ttl =>
      { s with db := committed s.db (s.db.renewFileLease now id session leaseSeq ttl) }
  | .reclaimExpiredWriteLeases now => { s with db := s.db.reclaimExpiredWriteLeases now }

/-- The file of a pending release is `Working` under the lease that goes. -/
def reopened (s : LeaseState) (fileId : IndexNodeId) (session : String) (seq : UInt64) : Bool :=
  (s.db.nodes.find? fileId).any fun row =>
    row.cols.state = .working && row.leaseMatches session seq

/-- A release does not meet the lease of a file that is `Working` again. -/
def ReleaseSafe (s : LeaseState) : LeaseAction → Prop
  | .closeRelease index => ∀ entry ∈ s.pending[index]?,
      s.reopened entry.1 entry.2.1 entry.2.2 = false
  | _ => True

instance (s : LeaseState) : (action : LeaseAction) → Decidable (s.ReleaseSafe action)
  | .openFileWriter _ _ _ _ _ => isTrue trivial
  | .closeCommit _ _ => isTrue trivial
  | .closeRelease index => inferInstanceAs (Decidable (∀ entry ∈ s.pending[index]?,
      s.reopened entry.1 entry.2.1 entry.2.2 = false))
  | .renewFileLease _ _ _ _ _ => isTrue trivial
  | .reclaimExpiredWriteLeases _ => isTrue trivial

/-- A file that was not reopened is not `Working` under the lease. -/
theorem leaseMatches_of_not_reopened {s : LeaseState} {fileId : IndexNodeId} {session : String}
    {seq : UInt64} (h : s.reopened fileId session seq = false) {row : NodeRow}
    (hfind : s.db.nodes.find? fileId = some row) (hworking : row.cols.state = .working) :
    row.leaseMatches session seq = false := by
  unfold reopened at h
  rw [hfind] at h
  simpa [hworking] using h

end LeaseState

namespace FsMetaDb

/-- Every `Working` file has a lease. -/
def Leased (db : FsMetaDb) : Prop :=
  ∀ id row, db.nodes.find? id = some row → row.Guarded

section Leased

variable {db db' : FsMetaDb} {env : ServiceEnv}

theorem leased_of_touch {id : IndexNodeId} {row row' : NodeRow} (h : Touch db db' id row row')
    (hrow : row'.Guarded) (hleased : db.Leased) : db'.Leased := by
  intro k other hfind
  rw [h.nodes] at hfind
  split at hfind
  · cases hfind
    exact hrow
  · exact hleased k other hfind

theorem SameContent.leased (h : SameContent db db') (hleased : db.Leased) : db'.Leased := by
  intro id row hrow
  obtain ⟨before, hbefore, heq⟩ := h id row hrow
  have hguarded : before.content.Guarded := hleased id before hbefore
  show row.content.Guarded
  rw [heq]
  exact hguarded

theorem leased_of_upsertDentry {now : UInt64} {parent : IndexNodeId} {name : String}
    {target : DentryTarget} {rev : UInt64}
    (h : db.upsertDentry now parent name target rev = .ok db') (hleased : db.Leased) :
    db'.Leased := by
  unfold upsertDentry at h
  obtain ⟨existing, -, h⟩ := except_bind_eq_ok.mp h
  cases existing with
  | none => exact (sameContent_of_createDentry h).leased hleased
  | some existing =>
      obtain ⟨⟨changed, replaced⟩, hreplace, h⟩ := except_bind_eq_ok.mp h
      cases h
      exact (sameContent_of_replaceTarget hreplace).leased hleased

/-- A new file is not `Working`. -/
theorem leased_of_allocAt {parent : IndexNodeId} {parentRev : UInt64} {name : String}
    {node : NodeRecord} {id : IndexNodeId} (hstate : (nodeStateCols node.state).state ≠ .working)
    (h : db.allocAt env parent parentRev name node = .ok (id, db')) (hleased : db.Leased) :
    db'.Leased := by
  unfold allocAt at h
  simp only [except_bind_eq_ok, except_pure_eq_ok] at h
  obtain ⟨⟨newId, allocated⟩, halloc, linked, hlinked, heq⟩ := h
  cases heq
  refine leased_of_upsertDentry hlinked ?_
  intro k row hrow
  rw [find?_of_allocInode halloc] at hrow
  split at hrow
  · cases hrow
    exact fun hworking => absurd hworking hstate
  · exact hleased k row hrow

theorem leased_of_openTarget {parent : IndexNodeId} {parentRev : UInt64} {name : String}
    {flag : OpenWriteFlag} {baseObj : Option ObjId} {dentry : Option DentryRecord}
    {opened : OpenedFile}
    (h : db.openTarget env parent parentRev name flag baseObj dentry = .ok (opened, db'))
    (hleased : db.Leased) : db'.Leased := by
  have hfile : ∀ base, (nodeStateCols (newNode .fileNormal base none).state).state ≠ .working :=
    fun _ hworking => by cases hworking
  cases dentry with
  | none =>
      simp only [openTarget, except_bind_eq_ok, except_pure_eq_ok] at h
      obtain ⟨⟨id, linked⟩, hlinked, heq⟩ := h
      cases heq
      exact leased_of_allocAt (hfile _) hlinked hleased
  | some dentry =>
      obtain ⟨dentryId, dentryParent, dentryName, target⟩ := dentry
      cases target with
      | tombstone =>
          simp only [openTarget, except_bind_eq_ok, except_pure_eq_ok] at h
          obtain ⟨⟨id, linked⟩, hlinked, heq⟩ := h
          cases heq
          exact leased_of_allocAt (hfile _) hlinked hleased
      | indexNodeId id =>
          simp only [openTarget, except_bind_eq_ok, except_pure_eq_ok] at h
          obtain ⟨node, -, -, -, heq⟩ := h
          cases heq
          exact hleased
      | objId objId =>
          simp only [openTarget, guard_eq_ok, except_bind_eq_ok, except_pure_eq_ok] at h
          obtain ⟨-, ⟨id, linked⟩, hlinked, heq⟩ := h
          cases heq
          exact leased_of_allocAt (hfile _) hlinked hleased
      | symLink path => cases h

/-- Whoever acquires a lease finds it on the row. -/
theorem hasLease_of_acquireFileLease {now : UInt64} {id : IndexNodeId} {session : String}
    {ttl seq : UInt64} {leased : FsMetaDb}
    (h : db.acquireFileLease now id session ttl = (leased, .ok seq)) :
    ∃ row row', Touch db leased id row row' ∧ row'.HasLease := by
  obtain ⟨row, expireAt, ⟨hheld, htouch⟩ | ⟨-, -, htouch⟩⟩ := exists_touch_of_acquireFileLease h
  · refine ⟨row, _, htouch, ?_, rfl⟩
    show row.leaseClientSession.isSome = true
    unfold NodeRow.heldBy at hheld
    rw [Bool.and_eq_true, decide_eq_true_eq] at hheld
    rw [hheld.1]
    rfl
  · exact ⟨row, _, htouch, rfl, rfl⟩

/-- A change of the state keeps the lease of the row. -/
theorem leased_of_updateInodeState {now : UInt64} {id : IndexNodeId} {new old : NodeState}
    (h : db.updateInodeState now id new old = .ok db')
    (hrow : ∀ row, db.nodes.find? id = some row → row.HasLease) (hleased : db.Leased) :
    db'.Leased := by
  obtain ⟨row, -, htouch⟩ := exists_touch_of_updateInodeState h
  exact leased_of_touch htouch (fun _ => hrow row htouch.found) hleased

/-- Truncating keeps the leases of all rows. -/
theorem leased_of_truncateBase {flag : OpenWriteFlag} {opened : OpenedFile}
    (h : db.truncateBase env flag opened = .ok db')
    (hrow : ∀ row, db.nodes.find? opened.fileId = some row → row.HasLease)
    (hleased : db.Leased) :
    db'.Leased ∧ ∀ row, db'.nodes.find? opened.fileId = some row → row.HasLease := by
  unfold truncateBase at h
  split at h
  · obtain ⟨node, hnode, h⟩ := except_bind_eq_ok.mp h
    rw [except_pure_eq_ok] at h
    subst h
    obtain ⟨row, hfind, hparsed⟩ := exists_row_of_getInodeOr hnode
    have hid : node.inodeId = opened.fileId := hparsed.inodeId.trans (Table.key_of_find? hfind)
    have htouch : Touch db (db.setInode env.now { node with baseObjId := none })
        opened.fileId row (nodeRow env.now opened.fileId { node with baseObjId := none }) :=
      touch_setInode env.now hfind hid
    have hwritten : (nodeRow env.now opened.fileId { node with baseObjId := none }).HasLease := by
      have hlease := hrow row hfind
      refine ⟨?_, ?_⟩
      · show node.leaseClientSession.isSome = true
        rw [hparsed.leaseClientSession]
        exact hlease.1
      · show (node.leaseExpireAt.map UInt64.toInt64).isSome = true
        rw [hparsed.leaseExpireAt]
        exact hlease.2
    refine ⟨leased_of_touch htouch (fun _ => hwritten) hleased, ?_⟩
    intro written hfound
    rw [htouch.foundAfter] at hfound
    cases hfound
    exact hwritten
  · cases h
    exact ⟨hleased, hrow⟩

/-- The row of an acquired lease in the database after it. -/
theorem leased_of_acquireFileLease {now : UInt64} {id : IndexNodeId} {session : String}
    {ttl seq : UInt64} {leased : FsMetaDb}
    (h : db.acquireFileLease now id session ttl = (leased, .ok seq)) (hleased : db.Leased) :
    leased.Leased ∧ ∀ row, leased.nodes.find? id = some row → row.HasLease := by
  obtain ⟨row, row', htouch, hlease⟩ := hasLease_of_acquireFileLease h
  refine ⟨leased_of_touch htouch (fun _ => hlease) hleased, ?_⟩
  intro found hfound
  rw [htouch.foundAfter] at hfound
  cases hfound
  exact hlease

theorem leased_of_openFileWriter {parent : IndexNodeId} {name : String} {flag : OpenWriteFlag}
    {expectedSize : Option UInt64} {handle : String}
    (h : db.openFileWriter env parent name flag expectedSize = .ok (handle, db'))
    (hleased : db.Leased) : db'.Leased := by
  obtain ⟨buffer, instanceId, parentRev, baseObj, dentry, opened, found, -, -, hfound, h⟩ :=
    exists_of_openFileWriter h
  have hfoundLeased := leased_of_openTarget hfound hleased
  obtain ⟨resume, h⟩ | h := h
  · unfold resumeWriter at h
    split at h
    · cases h
    · simp only [except_bind_eq_ok, except_pure_eq_ok] at h
      obtain ⟨seq, hseq, updated, hupdated, heq⟩ := h
      cases heq
      obtain ⟨hacquired, hrow⟩ := leased_of_acquireFileLease (Prod.ext rfl hseq) hfoundLeased
      exact leased_of_updateInodeState hupdated hrow hacquired
  · unfold startWriter at h
    obtain ⟨seq, hseq, h⟩ := except_bind_eq_ok.mp h
    split at h
    · cases h
    · simp only [except_bind_eq_ok, except_pure_eq_ok] at h
      obtain ⟨truncated, htruncated, updated, hupdated, heq⟩ := h
      cases heq
      obtain ⟨hacquired, hrow⟩ := leased_of_acquireFileLease (Prod.ext rfl hseq) hfoundLeased
      obtain ⟨hcut, hcutRow⟩ := leased_of_truncateBase htruncated hrow hacquired
      exact leased_of_updateInodeState hupdated hcutRow hcut

theorem leased_of_closeCommit {fileId : IndexNodeId} {lease : Option (String × UInt64)}
    (h : db.closeCommit env fileId = .ok (lease, db')) (hleased : db.Leased) : db'.Leased := by
  obtain ⟨node, fbHandle, -, -, hupdated, -⟩ := exists_of_closeCommit h
  obtain ⟨row, -, htouch⟩ := exists_touch_of_updateInodeState hupdated
  exact leased_of_touch htouch (fun hworking => by cases hworking) hleased

theorem leased_of_renewFileLease {now : UInt64} {id : IndexNodeId} {session : String}
    {leaseSeq ttl : UInt64} (h : db.renewFileLease now id session leaseSeq ttl = .ok db')
    (hleased : db.Leased) : db'.Leased := by
  obtain ⟨row, hmatch, htouch⟩ := exists_touch_of_onLease h
  refine leased_of_touch htouch (fun _ => ⟨?_, rfl⟩) hleased
  show row.leaseClientSession.isSome = true
  unfold NodeRow.leaseMatches at hmatch
  rw [Bool.and_eq_true, decide_eq_true_eq] at hmatch
  rw [hmatch.1]
  rfl

/-- A release that meets no `Working` file takes no lease that is needed. -/
theorem leased_of_releaseFileLease {id : IndexNodeId} {session : String} {leaseSeq : UInt64}
    (h : db.releaseFileLease id session leaseSeq = .ok db')
    (hsafe : ∀ row, db.nodes.find? id = some row → row.cols.state = .working →
      row.leaseMatches session leaseSeq = false)
    (hleased : db.Leased) : db'.Leased := by
  obtain ⟨row, hmatch, htouch⟩ := exists_touch_of_onLease h
  refine leased_of_touch htouch (fun hworking => ?_) hleased
  have hnot := hsafe row htouch.found hworking
  rw [hnot] at hmatch
  cases hmatch

/-- The reclaimer leaves no file `Working` whose lease it takes. -/
theorem leased_reclaim (now : UInt64) (hleased : db.Leased) :
    (db.reclaimExpiredWriteLeases now).Leased := by
  intro id row hfind
  rw [find?_reclaim, Option.map_eq_some_iff] at hfind
  obtain ⟨before, hbefore, rfl⟩ := hfind
  split
  · intro hworking
    unfold NodeRow.reclaimed at hworking
    dsimp only at hworking
    split_ifs at hworking with hstate
    exact absurd hworking hstate
  · exact hleased id before hbefore

theorem leased_fresh (now : UInt64) : (fresh now).Leased := by
  intro id row hfind
  rw [fresh, Table.find?_insertOrReplace] at hfind
  split at hfind
  · cases hfind
    intro hworking
    cases hworking
  · cases hfind

end Leased

/-- A `Working` file is opened by `ContinueWrite` only. -/
theorem openFileWriter_of_working {db db' : FsMetaDb} {env : ServiceEnv} {parent : IndexNodeId}
    {name handle : String} {flag : OpenWriteFlag} {expectedSize : Option UInt64}
    {dentry : DentryRecord} {id : IndexNodeId} {row : NodeRow}
    (hdentry : db.getDentry parent name = .ok (some dentry))
    (htarget : dentry.target = .indexNodeId id) (hfind : db.nodes.find? id = some row)
    (hworking : row.cols.state = .working)
    (h : db.openFileWriter env parent name flag expectedSize = .ok (handle, db')) :
    flag = .continueWrite := by
  obtain ⟨buffer, instanceId, parentRev, baseObj, found, opened, after, -, hfound, hopen, -⟩ :=
    exists_of_openFileWriter h
  rw [hdentry, Except.ok.injEq] at hfound
  subst hfound
  simp only [openTarget, htarget, except_bind_eq_ok] at hopen
  obtain ⟨node, hnode, checked, hcheck, -⟩ := hopen
  obtain ⟨before, hbefore, hparsed⟩ := exists_row_of_getInodeOr hnode
  cases Option.some.inj (hbefore.symm.trans hfind)
  -- the parser reads a state of the tag
  have hstate : ∃ fbHandle lastWriteAt, node.state = .working fbHandle lastWriteAt := by
    have hread := hparsed.state
    unfold parseNodeState at hread
    rw [hworking] at hread
    simp only [except_bind_eq_ok, except_pure_eq_ok] at hread
    obtain ⟨fbHandle, -, lastWriteAt, -, hread⟩ := hread
    exact ⟨fbHandle, _, hread.symm⟩
  obtain ⟨fbHandle, lastWriteAt, hstate⟩ := hstate
  unfold checkExisting at hcheck
  rw [hstate] at hcheck
  cases flag with
  | continueWrite => rfl
  | append => cases hcheck
  | createExclusive => cases hcheck
  | createOrTruncate => cases hcheck
  | createOrAppend => cases hcheck

end FsMetaDb

namespace LeaseState

open FsMetaDb

theorem leased_committed {db : FsMetaDb} {result : RpcResult FsMetaDb} (hleased : db.Leased)
    (h : ∀ db', result = .ok db' → db'.Leased) : (committed db result).Leased := by
  cases result with
  | error e => exact hleased
  | ok db' => exact h db' rfl

theorem leased_step (s : LeaseState) (action : LeaseAction) (hsafe : s.ReleaseSafe action)
    (hleased : s.db.Leased) : (s.step action).db.Leased := by
  cases action with
  | openFileWriter env parent name flag expectedSize =>
      refine leased_committed hleased fun db' h => ?_
      obtain ⟨⟨handle, opened⟩, hopen, rfl⟩ := except_map_eq_ok.mp h
      exact leased_of_openFileWriter hopen hleased
  | closeCommit env fileId =>
      dsimp only [step]
      split
      · exact hleased
      · rename_i closed hclosed
        exact leased_of_closeCommit hclosed hleased
      · rename_i session seq closed hclosed
        exact leased_of_closeCommit hclosed hleased
  | closeRelease index =>
      dsimp only [step]
      split
      · exact hleased
      · rename_i fileId session seq hpending
        refine leased_committed hleased fun db' h => ?_
        have hnot : s.reopened fileId session seq = false := hsafe _ hpending
        exact leased_of_releaseFileLease h
          (fun row hfind hworking => leaseMatches_of_not_reopened hnot hfind hworking) hleased
  | renewFileLease now id session leaseSeq ttl =>
      exact leased_committed hleased fun db' h => leased_of_renewFileLease h hleased
  | reclaimExpiredWriteLeases now => exact leased_reclaim now hleased

/-- In every run in which no late release meets a file that is `Working` again under the
same lease, every `Working` file names the session and the time of its lease; and in every
run at all, a `Working` file is opened by `ContinueWrite` only. -/
theorem run_working_leased (start : UInt64) (actions : List LeaseAction)
    (hsafe : Along step ReleaseSafe (init start) actions) :
    ∀ id row, (run step (init start) actions).db.nodes.find? id = some row →
      row.cols.state = .working →
      (row.leaseClientSession ≠ none ∧ row.leaseExpireAt ≠ none) ∧
      ∀ env parent name flag expectedSize dentry,
        (run step (init start) actions).db.getDentry parent name = .ok (some dentry) →
        dentry.target = .indexNodeId id → flag ≠ .continueWrite →
        ∀ opened, (run step (init start) actions).db.openFileWriter env parent name flag
          expectedSize ≠ .ok opened := by
  intro id row hfind hworking
  have hleased := @run_invariant _ _ step ReleaseSafe (fun s => s.db.Leased) leased_step _ _
    hsafe (leased_fresh start)
  have hrow := hleased id row hfind hworking
  refine ⟨⟨Option.isSome_iff_ne_none.mp hrow.1, Option.isSome_iff_ne_none.mp hrow.2⟩, ?_⟩
  intro env parent name flag expectedSize dentry hdentry htarget hflag opened hopen
  exact hflag (openFileWriter_of_working hdentry htarget hfind hworking hopen)

/-- A file is written, closed and reopened after the close has given its lease back. -/
def reopenAfterClose : List LeaseAction :=
  [.openFileWriter (.standalone 0) 1 "f" .createOrTruncate none,
    .closeCommit (.standalone 10) 2,
    .closeRelease 0,
    .openFileWriter (.standalone 20) 1 "f" .continueWrite none]

theorem reopenAfterClose_leased :
    ∃ row, (run step (init 0) reopenAfterClose).db.nodes.find? 2 = some row ∧
      row.cols.state = .working ∧ row.leaseClientSession ≠ none ∧ row.leaseExpireAt ≠ none := by
  have hstate : ((run step (init 0) reopenAfterClose).db.nodes.find? 2).map
      (fun row => row.cols.state) = some .working := by
    decide
  obtain ⟨row, hrow, hworking⟩ := Option.map_eq_some_iff.mp hstate
  exact ⟨row, hrow, hworking,
    (run_working_leased 0 reopenAfterClose (by decide) 2 row hrow hworking).1⟩

/-- The same calls, with the reopen before the release. -/
def reopenInsideClose : List LeaseAction :=
  [.openFileWriter (.standalone 0) 1 "f" .createOrTruncate none,
    .closeCommit (.standalone 10) 2,
    .openFileWriter (.standalone 20) 1 "f" .continueWrite none,
    .closeRelease 0]

/-- The file is `Working` and has no lease; the reclaimer will not touch it any more. -/
theorem reopened_file_loses_lease :
    ((run step (init 0) reopenInsideClose).db.nodes.find? 2).map
        (fun row => (row.cols.state, row.leaseClientSession, row.leaseExpireAt)) =
      some (.working, none, none) ∧
    ((run step (init 0) (reopenInsideClose ++ [.reclaimExpiredWriteLeases 100000])).db.nodes.find?
        2).map (fun row => row.cols.state) = some .working := by
  decide

end LeaseState

end FsMeta
end CyfsNdn

import CyfsNdn.FsMeta.DentryCounts

/-!
# Runs of requests and transactions

The requests that change the tree, alone or inside an explicit transaction.  The four
operations on single rows take the transaction they run in; the others open one of their
own or none.  A transaction has a copy of the committed tables to itself: it took the write
lock when it began, so every other request that writes fails with `database is locked`
until it is committed or rolled back (one that has nothing to write may still succeed; it
changes nothing either).

Requests of other clients may come between the reads of a move and its transaction, and
between the two steps of a close.  The transaction of a move with any plan and the two
steps of a close are requests of their own here, next to the whole ones.
-/

namespace CyfsNdn
namespace FsMeta

open NdnLib Relational Collections Relation Transition

/-- A request on single rows, which may be part of a transaction. -/
inductive RowRequest where
  | allocInode (now : UInt64) (candidates : List IndexNodeId) (node : NodeRecord)
      (refBy : node.refBy = none)
  | createDentry (now : UInt64) (parent : IndexNodeId) (name : String) (target : DentryTarget)
      (expectedParentRev : UInt64)
  | deleteDentry (now : UInt64) (parent : IndexNodeId) (name : String)
      (expectedParentRev : UInt64)
  | replaceTarget (now : UInt64) (parent : IndexNodeId) (name : String)
      (expectedOldTarget newTarget : DentryTarget) (expectedParentRev : UInt64)

/-- A request on paths and files. -/
inductive FileRequest where
  | setFile (parent : IndexNodeId) (name : String) (objId : ObjId)
  | setDir (parent : IndexNodeId) (name : String) (dirObjId : ObjId)
  | symlink (linkParent : IndexNodeId) (linkName target : String)
  | createDir (parent : IndexNodeId) (name : String)
  | delete (parent : IndexNodeId) (name : String)
  | movePath (srcParent : IndexNodeId) (srcName : String) (dstParent : IndexNodeId)
      (dstName : String)
  | applyMovePlan (plan : MovePlan)
  | openFileWriter (parent : IndexNodeId) (name : String) (flag : OpenWriteFlag)
      (expectedSize : Option UInt64)
  | closeFileWriter (fileId : IndexNodeId)
  | closeCommit (fileId : IndexNodeId)
  | releaseFileLease (fileId : IndexNodeId) (session : String) (leaseSeq : UInt64)

/-- What a client does. -/
inductive MetaAction where
  | beginTxn
  | commit
  | rollback
  | row (inTxn : Bool) (request : RowRequest)
  | file (env : ServiceEnv) (request : FileRequest)

namespace FsMetaDb

/-- The end of a savepoint or a transaction: an error rolls back. -/
def settle (db : FsMetaDb) : RpcResult FsMetaDb → FsMetaDb × RpcResult Unit
  | .ok db' => (db', .ok ())
  | .error e => (db, .error e)

/-- The tables after a request on rows, and its answer. -/
def execRow (db : FsMetaDb) : RowRequest → FsMetaDb × RpcResult Unit
  | .allocInode now candidates node _ =>
      db.settle ((db.allocInode now candidates node).map Prod.snd)
  | .createDentry now parent name target expectedParentRev =>
      db.settle (db.createDentry now parent name target expectedParentRev)
  | .deleteDentry now parent name expectedParentRev =>
      db.settle ((db.deleteDentry now parent name expectedParentRev).map Prod.snd)
  | .replaceTarget now parent name expectedOldTarget newTarget expectedParentRev =>
      db.settle ((db.replaceTarget now parent name expectedOldTarget newTarget
        expectedParentRev).map Prod.snd)

/-- The tables after a request on paths, and its answer. -/
def execFile (db : FsMetaDb) (env : ServiceEnv) : FileRequest → FsMetaDb × RpcResult Unit
  | .setFile parent name objId => db.settle (db.setFile env parent name objId)
  | .setDir parent name dirObjId => db.settle (db.setDir env parent name dirObjId)
  | .symlink linkParent linkName target =>
      db.settle (db.symlink env linkParent linkName target)
  | .createDir parent name => db.settle (db.createDir env parent name)
  | .delete parent name => db.settle (db.delete env parent name)
  | .movePath srcParent srcName dstParent dstName =>
      db.settle (db.movePath env srcParent srcName dstParent dstName)
  | .applyMovePlan plan => db.settle (db.applyMovePlan env plan)
  | .openFileWriter parent name flag expectedSize =>
      db.settle ((db.openFileWriter env parent name flag expectedSize).map Prod.snd)
  | .closeFileWriter fileId => db.closeFileWriter env fileId
  | .closeCommit fileId => db.settle ((db.closeCommit env fileId).map Prod.snd)
  | .releaseFileLease fileId session leaseSeq =>
      db.settle (db.releaseFileLease fileId session leaseSeq)

end FsMetaDb

/-- The committed tables and the copy of the open transaction. -/
structure MetaState where
  committed : FsMetaDb
  txn : Option FsMetaDb

namespace MetaState

open FsMetaDb

/-- A fresh database. -/
def init (now : UInt64) : MetaState := ⟨.fresh now, none⟩

/-- A request outside of a transaction. -/
def direct (s : MetaState) (exec : FsMetaDb → FsMetaDb × RpcResult Unit) :
    MetaState × RpcResult Unit :=
  match s.txn with
  | some _ => (s, .error "db error: database is locked")
  | none => ({ s with committed := (exec s.committed).1 }, (exec s.committed).2)

/-- The state after an action, and its answer. -/
def perform (s : MetaState) : MetaAction → MetaState × RpcResult Unit
  | .beginTxn =>
      match s.txn with
      | some _ => (s, .error "begin txn failed: database is locked")
      | none => ({ s with txn := some s.committed }, .ok ())
  | .commit =>
      match s.txn with
      | some copy => (⟨copy, none⟩, .ok ())
      | none => (s, .error "txid not found")
  | .rollback =>
      match s.txn with
      | some _ => ({ s with txn := none }, .ok ())
      | none => (s, .error "txid not found")
  | .row true request =>
      match s.txn with
      | some copy => ({ s with txn := some (copy.execRow request).1 }, (copy.execRow request).2)
      | none => (s, .error "txid not found")
  | .row false request => s.direct fun db => db.execRow request
  | .file env request => s.direct fun db => db.execFile env request

/-- The state after an action. -/
def step (s : MetaState) (action : MetaAction) : MetaState := (s.perform action).1

end MetaState

/-! ## What a request does -/

namespace FsMetaDb

variable {db : FsMetaDb}

theorem counts_settle {result : RpcResult FsMetaDb}
    (h : ∀ db', result = .ok db' → Counts db db') : Counts db (db.settle result).1 := by
  cases result with
  | error e => exact (Still.refl db).counts
  | ok db' => exact h db' rfl

theorem settle_error {result : RpcResult FsMetaDb} {e : String}
    (h : (db.settle result).2 = .error e) : (db.settle result).1 = db := by
  cases result with
  | error e => rfl
  | ok db' => cases h

/-- A request on rows changes one dentry at most: a new inode, whatever its state, keeps
the columns in order, so the states need not be storable here. -/
theorem counts_execRow (db : FsMetaDb) (request : RowRequest) :
    Counts db (db.execRow request).1 := by
  cases request with
  | allocInode now candidates node refBy =>
      refine counts_settle fun db' h hinv => ?_
      obtain ⟨⟨id, allocated⟩, halloc, rfl⟩ := except_map_eq_ok.mp h
      exact (tree_of_allocInode halloc refBy hinv).imp_right .inl
  | createDentry now parent name target expectedParentRev =>
      exact counts_settle fun db' h hinv => tree_of_createDentry h hinv
  | deleteDentry now parent name expectedParentRev =>
      refine counts_settle fun db' h hinv => ?_
      obtain ⟨⟨removed, after⟩, hdelete, rfl⟩ := except_map_eq_ok.mp h
      exact tree_of_eq_or_retargets (retargets_of_deleteDentry hdelete hinv) hinv
  | replaceTarget now parent name expectedOldTarget newTarget expectedParentRev =>
      refine counts_settle fun db' h hinv => ?_
      obtain ⟨⟨changed, after⟩, hreplace, rfl⟩ := except_map_eq_ok.mp h
      exact tree_of_eq_or_retargets (retargets_of_replaceTarget hreplace hinv) hinv

/-- What a request on paths does to the dentries: a move takes its two steps, or none, and
every other request changes one dentry at most. -/
def FileStep (env : ServiceEnv) (db db' : FsMetaDb) : FileRequest → Prop
  | .movePath srcParent srcName dstParent dstName =>
      db' = db ∨ ∃ plan removed,
        db.planMove srcParent srcName dstParent dstName = .ok (some plan) ∧
          MoveSteps env plan db removed db'
  | .applyMovePlan plan => db' = db ∨ ∃ removed, MoveSteps env plan db removed db'
  | _ => TreeStep db db'

theorem FileStep.refl (env : ServiceEnv) (db : FsMetaDb) (request : FileRequest) :
    FileStep env db db request := by
  cases request with
  | movePath srcParent srcName dstParent dstName => exact .inl rfl
  | applyMovePlan plan => exact .inl rfl
  | _ => exact .inl (Quiet.refl db)

theorem fileStep_applyMovePlan {env : ServiceEnv} (plan : MovePlan) (hinv : db.TreeInv) :
    (db.settle (db.applyMovePlan env plan)).1.TreeInv ∧
      ((db.settle (db.applyMovePlan env plan)).1 = db ∨
        ∃ removed, MoveSteps env plan db removed (db.settle (db.applyMovePlan env plan)).1) := by
  cases happly : db.applyMovePlan env plan with
  | error e => exact ⟨hinv, .inl rfl⟩
  | ok db' => exact (moveSteps_of_applyMovePlan happly hinv).imp_right .inr

theorem fileStep_movePath {env : ServiceEnv} (srcParent : IndexNodeId) (srcName : String)
    (dstParent : IndexNodeId) (dstName : String) (hinv : db.TreeInv) :
    (db.settle (db.movePath env srcParent srcName dstParent dstName)).1.TreeInv ∧
      FileStep env db (db.settle (db.movePath env srcParent srcName dstParent dstName)).1
        (.movePath srcParent srcName dstParent dstName) := by
  unfold movePath
  cases hplan : db.planMove srcParent srcName dstParent dstName with
  | error e => exact ⟨hinv, .inl rfl⟩
  | ok planned =>
      cases planned with
      | none => exact ⟨hinv, .inl rfl⟩
      | some plan =>
          obtain ⟨hafter, hsame | ⟨removed, hmoved⟩⟩ :=
            @fileStep_applyMovePlan db env plan hinv
          · exact ⟨hafter, .inl hsame⟩
          · exact ⟨hafter, .inr ⟨plan, removed, hplan, hmoved⟩⟩

theorem fileStep_execFile (db : FsMetaDb) (env : ServiceEnv) (request : FileRequest)
    (hinv : db.TreeInv) :
    (db.execFile env request).1.TreeInv ∧
      FileStep env db (db.execFile env request).1 request := by
  have hsettle : ∀ result : RpcResult FsMetaDb,
      (∀ db', result = .ok db' → Counts db db') →
      (db.settle result).1.TreeInv ∧ TreeStep db (db.settle result).1 :=
    fun result h => counts_settle h hinv
  cases request with
  | setFile parent name objId => exact hsettle _ fun db' h => counts_of_setFile h
  | setDir parent name dirObjId => exact hsettle _ fun db' h => counts_of_setDir h
  | symlink linkParent linkName target => exact hsettle _ fun db' h => counts_of_symlink h
  | createDir parent name => exact hsettle _ fun db' h => counts_of_createDir h
  | delete parent name => exact hsettle _ fun db' h => counts_of_delete h
  | movePath srcParent srcName dstParent dstName =>
      exact fileStep_movePath srcParent srcName dstParent dstName hinv
  | applyMovePlan plan => exact fileStep_applyMovePlan plan hinv
  | openFileWriter parent name flag expectedSize =>
      refine hsettle _ fun db' h => ?_
      obtain ⟨⟨handle, opened⟩, hopen, rfl⟩ := except_map_eq_ok.mp h
      exact counts_of_openFileWriter hopen
  | closeFileWriter fileId => exact (still_closeFileWriter db env fileId).counts hinv
  | closeCommit fileId =>
      refine hsettle _ fun db' h => ?_
      obtain ⟨⟨lease, closed⟩, hclose, rfl⟩ := except_map_eq_ok.mp h
      exact (still_of_closeCommit hclose).counts
  | releaseFileLease fileId session leaseSeq =>
      exact hsettle _ fun db' h => (still_of_releaseFileLease h).counts

theorem execRow_error {request : RowRequest} {e : String}
    (h : (db.execRow request).2 = .error e) : (db.execRow request).1 = db := by
  cases request <;> exact settle_error h

/-- Right after its transaction a close still finds the lease that it has read. -/
theorem releaseFileLease_after_closeCommit {env : ServiceEnv} {fileId : IndexNodeId}
    {session : String} {seq : UInt64} {closed : FsMetaDb}
    (h : db.closeCommit env fileId = .ok (some (session, seq), closed)) :
    ∃ released, closed.releaseFileLease fileId session seq = .ok released := by
  obtain ⟨node, fbHandle, hnode, -, hupdated, hlease⟩ := exists_of_closeCommit h
  obtain ⟨row, hrow, hparsed⟩ := exists_row_of_getInodeOr hnode
  obtain ⟨before, -, htouch⟩ := exists_touch_of_updateInodeState hupdated
  cases Option.some.inj (htouch.found.symm.trans hrow)
  -- the record has the lease of the row, which the change of the state leaves alone
  have hmatch : (withState env.now (.cooling fbHandle env.now) row).leaseMatches session seq =
      true := by
    unfold leaseOf at hlease
    split at hlease
    · rename_i leaseSession leaseSeq hsession hseq
      cases hlease
      have hs : row.leaseClientSession = some session := by
        rw [← hparsed.leaseClientSession, hsession]
      have hq : row.leaseSeq = some (Counter.ofInt64 seq.toInt64) := by
        rw [← hparsed.leaseSeq, hseq]
        rfl
      show (decide (row.leaseClientSession = some session) &&
        decide (row.leaseSeq = some (Counter.ofInt64 seq.toInt64))) = true
      simp [hs, hq]
    · cases hlease
  unfold releaseFileLease onLease
  rw [htouch.foundAfter]
  dsimp only
  rw [if_pos hmatch]
  exact ⟨_, rfl⟩

theorem closeFileWriter_error {env : ServiceEnv} {fileId : IndexNodeId} {e : String}
    (h : (db.closeFileWriter env fileId).2 = .error e) :
    (db.closeFileWriter env fileId).1 = db := by
  unfold closeFileWriter at h ⊢
  split at h
  · rfl
  · cases h
  · rename_i session seq closed hclosed
    obtain ⟨released, hreleased⟩ := releaseFileLease_after_closeCommit hclosed
    rw [hreleased] at h
    cases h

theorem execFile_error {env : ServiceEnv} {request : FileRequest} {e : String}
    (h : (db.execFile env request).2 = .error e) : (db.execFile env request).1 = db := by
  cases request with
  | closeFileWriter fileId => exact closeFileWriter_error h
  | _ => exact settle_error h

theorem treeInv_fresh (now : UInt64) : (fresh now).TreeInv := by
  have hempty : ∀ d, (fresh now).dentries.find? d = none := fun _ => rfl
  refine ⟨?_, ?_, ?_⟩
  · intro d id
    have htarget : (fresh now).targetOf d = none := rfl
    have href : (fresh now).refOf id = none := by
      unfold refOf
      rw [fresh, Table.find?_insertOrReplace]
      split_ifs <;> rfl
    simp [htarget, href]
  · intro d row hrow
    rw [hempty] at hrow
    cases hrow
  · intro d row hrow
    rw [hempty] at hrow
    cases hrow

end FsMetaDb

/-! ## Runs -/

namespace MetaState

open FsMetaDb

/-- The tables after a request on rows. -/
def applyRow (db : FsMetaDb) (request : RowRequest) : FsMetaDb := (db.execRow request).1

/-- The row requests of the open transaction, the first one first. -/
def txnRows (rows : Option (List RowRequest)) : MetaAction → Option (List RowRequest)
  | .beginTxn => rows.or (some [])
  | .commit => none
  | .rollback => none
  | .row true request => rows.map (· ++ [request])
  | .row false _ => rows
  | .file _ _ => rows

/-- What an action does to the committed dentries while the requests `rows` of a transaction
wait for its commit.  A commit makes the changes of its own requests, one request after the
other and one dentry at most by each; a request of its own does what it says; and nothing
else is committed. -/
def Counted (s : MetaState) (rows : Option (List RowRequest)) : MetaAction → Prop
  | .commit =>
      (s.step .commit).committed = run applyRow s.committed (rows.getD []) ∧
        Along applyRow (fun db request => TreeStep db (applyRow db request)) s.committed
          (rows.getD [])
  | .row false request => TreeStep s.committed (s.step (.row false request)).committed
  | .file env request =>
      FileStep env s.committed (s.step (.file env request)).committed request
  | .beginTxn => (s.step .beginTxn).committed = s.committed
  | .rollback => (s.step .rollback).committed = s.committed
  | .row true request => (s.step (.row true request)).committed = s.committed

/-- The committed tables are in order, and the copy of the open transaction is what its
requests have made of them. -/
structure Tracks (s : MetaState) (rows : Option (List RowRequest)) : Prop where
  tree : s.committed.TreeInv
  copy : s.txn = rows.map (run applyRow s.committed)

theorem treeInv_applyRow {db : FsMetaDb} (request : RowRequest) (hinv : db.TreeInv) :
    (applyRow db request).TreeInv ∧ TreeStep db (applyRow db request) :=
  counts_execRow db request hinv

theorem treeInv_run_applyRow {db : FsMetaDb} (rows : List RowRequest) (hinv : db.TreeInv) :
    (run applyRow db rows).TreeInv :=
  @run_invariant_of_forall _ _ applyRow (fun _ => True) TreeInv
    (fun _ request _ h => (treeInv_applyRow request h).1) _ _ (fun _ _ => trivial) hinv

theorem along_applyRow {db : FsMetaDb} (rows : List RowRequest) (hinv : db.TreeInv) :
    Along applyRow (fun db request => TreeStep db (applyRow db request)) db rows := by
  induction rows generalizing db with
  | nil => trivial
  | cons request rest ih =>
      obtain ⟨hafter, hstep⟩ := treeInv_applyRow request hinv
      exact ⟨hstep, ih hafter⟩

/-- A request of its own runs on the committed tables, or not at all while a transaction
is open. -/
theorem tracks_direct {s : MetaState} {rows : Option (List RowRequest)} (h : Tracks s rows)
    {exec : FsMetaDb → FsMetaDb × RpcResult Unit} {law : FsMetaDb → FsMetaDb → Prop}
    (hlocked : law s.committed s.committed)
    (hexec : (exec s.committed).1.TreeInv ∧ law s.committed (exec s.committed).1)
    (herror : ∀ e, (exec s.committed).2 = .error e → (exec s.committed).1 = s.committed) :
    Tracks (s.direct exec).1 rows ∧ law s.committed (s.direct exec).1.committed ∧
      ∀ e, (s.direct exec).2 = .error e → (s.direct exec).1 = s := by
  unfold direct
  cases htxn : s.txn with
  | some copy => exact ⟨h, hlocked, fun _ _ => rfl⟩
  | none =>
      have hrows : rows = none := by
        have hcopy := h.copy
        rw [htxn] at hcopy
        exact Option.map_eq_none_iff.mp hcopy.symm
      refine ⟨⟨hexec.1, by rw [hrows]; rfl⟩, hexec.2, ?_⟩
      intro e he
      show MetaState.mk (exec s.committed).1 none = s
      rw [herror e he, ← htxn]

/-- One action keeps the track, counts as it says, and changes nothing with an error. -/
theorem tracks_step {s : MetaState} {rows : Option (List RowRequest)} (h : Tracks s rows)
    (action : MetaAction) :
    Tracks (s.step action) (txnRows rows action) ∧ Counted s rows action ∧
      ∀ e, (s.perform action).2 = .error e → s.step action = s := by
  have hcopy := h.copy
  cases action with
  | beginTxn =>
      unfold Counted step perform
      cases rows with
      | some waiting =>
          simp only [Option.map_some] at hcopy
          rw [hcopy]
          exact ⟨h, rfl, fun _ _ => rfl⟩
      | none =>
          simp only [Option.map_none] at hcopy
          rw [hcopy]
          exact ⟨⟨h.tree, rfl⟩, rfl, fun _ he => by cases he⟩
  | commit =>
      unfold Counted step perform
      cases rows with
      | none =>
          simp only [Option.map_none] at hcopy
          rw [hcopy]
          exact ⟨h, ⟨rfl, trivial⟩, fun _ _ => rfl⟩
      | some waiting =>
          simp only [Option.map_some] at hcopy
          rw [hcopy]
          exact ⟨⟨treeInv_run_applyRow waiting h.tree, rfl⟩,
            ⟨rfl, along_applyRow waiting h.tree⟩, fun _ he => by cases he⟩
  | rollback =>
      unfold Counted step perform
      cases rows with
      | none =>
          simp only [Option.map_none] at hcopy
          rw [hcopy]
          exact ⟨h, rfl, fun _ _ => rfl⟩
      | some waiting =>
          simp only [Option.map_some] at hcopy
          rw [hcopy]
          exact ⟨⟨h.tree, rfl⟩, rfl, fun _ he => by cases he⟩
  | row inTxn request =>
      cases inTxn with
      | false =>
          exact @tracks_direct _ _ h (fun db => db.execRow request) TreeStep
            (.inl (Quiet.refl _)) (treeInv_applyRow request h.tree) fun e he => execRow_error he
      | true =>
          unfold Counted step perform
          cases rows with
          | none =>
              simp only [Option.map_none] at hcopy
              rw [hcopy]
              exact ⟨h, rfl, fun _ _ => rfl⟩
          | some waiting =>
              simp only [Option.map_some] at hcopy
              rw [hcopy]
              refine ⟨⟨h.tree, ?_⟩, rfl, ?_⟩
              · show some (applyRow (run applyRow s.committed waiting) request) =
                  some (run applyRow s.committed (waiting ++ [request]))
                rw [run_append]
                rfl
              · intro e he
                show MetaState.mk s.committed
                  (some ((run applyRow s.committed waiting).execRow request).1) = s
                rw [execRow_error he, ← hcopy]
  | file env request =>
      exact @tracks_direct _ _ h _ (fun db db' => FileStep env db db' request)
        (FileStep.refl env s.committed request) (fileStep_execFile s.committed env request h.tree)
        fun e he => execFile_error he

theorem tracks_run {s : MetaState} {rows : Option (List RowRequest)} (h : Tracks s rows)
    (actions : List MetaAction) :
    Tracks (run step s actions) (run txnRows rows actions) := by
  induction actions generalizing s rows with
  | nil => exact h
  | cons action rest ih => exact ih (tracks_step h action).1

theorem tracks_init (start : UInt64) : Tracks (init start) none :=
  ⟨treeInv_fresh start, rfl⟩

/-- The dentry that a reference names targets the inode, and the other way round. -/
theorem refBy_iff_of_treeInv {db : FsMetaDb} (hinv : db.TreeInv) (id : IndexNodeId) (d : Nat) :
    (∃ row, db.nodes.find? id = some row ∧ row.refBy = some d) ↔
      ∃ dentry, db.dentries.find? d = some dentry ∧ dentry.target.targets id = true := by
  have href : (∃ row, db.nodes.find? id = some row ∧ row.refBy = some d) ↔
      db.refOf id = some d := by
    unfold refOf
    rw [Option.bind_eq_some_iff]
  have htarget : (∃ dentry, db.dentries.find? d = some dentry ∧
      dentry.target.targets id = true) ↔ db.targetOf d = some id := by
    unfold targetOf
    rw [Option.bind_eq_some_iff]
    constructor
    · rintro ⟨dentry, hfind, htargets⟩
      unfold TargetCols.targets at htargets
      rw [Bool.and_eq_true, decide_eq_true_eq, decide_eq_true_eq] at htargets
      exact ⟨dentry, hfind, htargets.2⟩
    · rintro ⟨dentry, hfind, hid⟩
      refine ⟨dentry, hfind, ?_⟩
      have htype := (hinv.shaped d dentry hfind).mpr (by rw [hid]; rfl)
      unfold TargetCols.targets
      simp [htype, hid]
  rw [href, htarget]
  exact (hinv.inverse d id).symm

/-- In every committed state an inode refers to a dentry exactly when the dentry targets
it, so no two dentries target one inode; every further action commits its own dentry
changes only, each of which counts the revision of the parent up by one and no other; and
an action that answers with an error changes nothing. -/
theorem run_dentries_bijective (start : UInt64) (actions : List MetaAction) :
    (∀ id d, (∃ row, (run step (init start) actions).committed.nodes.find? id = some row ∧
        row.refBy = some d) ↔
      ∃ dentry, (run step (init start) actions).committed.dentries.find? d = some dentry ∧
        dentry.target.targets id = true) ∧
    (∀ id d d' dentry dentry',
      (run step (init start) actions).committed.dentries.find? d = some dentry →
      (run step (init start) actions).committed.dentries.find? d' = some dentry' →
      dentry.target.targets id = true → dentry'.target.targets id = true → d = d') ∧
    ∀ action,
      Counted (run step (init start) actions) (run txnRows none actions) action ∧
      ∀ e, ((run step (init start) actions).perform action).2 = .error e →
        (run step (init start) actions).step action = run step (init start) actions := by
  have htracks := tracks_run (tracks_init start) actions
  have hiff := refBy_iff_of_treeInv htracks.tree
  refine ⟨hiff, ?_, fun action => (tracks_step htracks action).2⟩
  intro id d d' dentry dentry' hd hd' htarget htarget'
  obtain ⟨row, hrow, href⟩ := (hiff id d).mpr ⟨dentry, hd, htarget⟩
  obtain ⟨row', hrow', href'⟩ := (hiff id d').mpr ⟨dentry', hd', htarget'⟩
  cases Option.some.inj (hrow.symm.trans hrow')
  exact Option.some.inj (href.symm.trans href')

end MetaState

end FsMeta
end CyfsNdn

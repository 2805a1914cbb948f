import CyfsNdn.FsMeta.FsMetaDb
import CyfsNdn.FsMeta.PathResolveCache
import CyfsNdn.Transition.Run

/-!
# Explicit transactions

An explicit transaction owns a connection that has run `BEGIN IMMEDIATE`.  An operation
that carries its txid looks the entry up, queues a job for the connection, and after the
job looks the entry up once more to record the edge that it has changed.  `handle_commit`,
`rollback_txn_by_arcs` and the cleanup of stale transactions mark the entry as closing,
wait for the jobs that count as in flight and end the transaction on the connection.  A
statement that runs there later finds no transaction and commits by itself.

`with_conn` takes any closure over the connection, so the database is a type `D` and a job
is a function on it.  Clocks are left out: a wait may give up, and a transaction may be
found stale, at any time.  Poisoned locks and failed joins are left out too.
-/

namespace CyfsNdn
namespace FsMeta

open NdnLib Relational Transition

/-! ## Operations -/

/-- The closure of an operation, with whether it changed anything, and the edge that the
operation records in that case. -/
structure TxnOperation (D : Type) where
  job : D → D × RpcResult Bool
  edge : Option Edge

namespace TxnOperation

/-- The end of a job: an error has rolled back to its savepoint. -/
def settle (db : FsMetaDb) : RpcResult (Bool × FsMetaDb) → FsMetaDb × RpcResult Bool
  | .ok (changed, db') => (db', .ok changed)
  | .error e => (db, .error e)

/-- `handle_create_dentry`. -/
def createDentry (now : UInt64) (parent : IndexNodeId) (name : String) (target : DentryTarget)
    (expectedParentRev : UInt64) : TxnOperation FsMetaDb where
  job db := settle db ((db.createDentry now parent name target expectedParentRev).map
    fun db' => (true, db'))
  edge := some (parent, name)

/-- `handle_delete_dentry`. -/
def deleteDentry (now : UInt64) (parent : IndexNodeId) (name : String)
    (expectedParentRev : UInt64) : TxnOperation FsMetaDb where
  job db := settle db (db.deleteDentry now parent name expectedParentRev)
  edge := some (parent, name)

/-- `handle_replace_target`. -/
def replaceTarget (now : UInt64) (parent : IndexNodeId) (name : String)
    (expectedOldTarget newTarget : DentryTarget) (expectedParentRev : UInt64) :
    TxnOperation FsMetaDb where
  job db := settle db (db.replaceTarget now parent name expectedOldTarget newTarget
    expectedParentRev)
  edge := some (parent, name)

/-- `handle_update_inode_state`, which records no edge. -/
def updateInodeState (now : UInt64) (id : IndexNodeId) (new old : NodeState) :
    TxnOperation FsMetaDb where
  job db := settle db ((db.updateInodeState now id new old).map fun db' => (true, db'))
  edge := none

/-- `handle_get_inode`. -/
def getInode (id : IndexNodeId) : TxnOperation FsMetaDb where
  job db := (db, (db.getInode id).map fun _ => false)
  edge := none

variable {D : Type}

/-- The edge that the operation has changed. -/
def changedEdge (op : TxnOperation D) : RpcResult Bool → Option Edge
  | .ok true => op.edge
  | _ => none

/-- The operation writes nothing. -/
def ReadsOnly (op : TxnOperation D) : Prop := op.edge = none ∧ ∀ db, (op.job db).1 = db

end TxnOperation

/-! ## States -/

/-- The connection of a transaction: inside of it with a copy of the database, or after the
statement that has ended it. -/
inductive TxnConn (D : Type) where
  | inTxn (copy : D)
  | committed
  | rolledBack

namespace TxnConn

variable {D : Type}

/-- The transaction has not ended. -/
def isOpen : TxnConn D → Bool
  | .inTxn _ => true
  | _ => false

end TxnConn

/-- `TxnEntry`. -/
structure TxnEntry (D : Type) where
  conn : TxnConn D
  closing : Bool
  inFlight : Nat
  touchedEdges : List Edge

/-- Where an operation with a txid stands: before `get_txn_entry`, before its job starts,
counted as in flight, after the statements of the job, after the job, after the second
`get_txn_entry`, and returned, with whether it has changed its edge. -/
inductive OperationStage where
  | start
  | queued
  | running
  | ran (result : RpcResult Bool)
  | left (result : RpcResult Bool)
  | found
  | done (changed : Bool) (result : RpcResult Unit)

/-- Where `handle_commit` stands. -/
inductive CommitStage where
  | start
  | waiting
  | commit
  | remove
  | readEdges
  | invalidate (edges : List Edge)
  | done (result : RpcResult Unit)

/-- Where `rollback_txn_by_arcs` stands. -/
inductive RollbackStage where
  | start
  | waiting
  | rollback
  | remove
  | done (result : RpcResult Unit)

/-- Where the cleanup of the transaction stands. -/
inductive CleanupStage where
  | start
  | mark
  | waiting
  | rollback
  | done

/-- A call that is under way. -/
inductive TxnCall (D : Type) where
  | operation (op : TxnOperation D) (stage : OperationStage)
  | commit (stage : CommitStage)
  | rollback (stage : RollbackStage)
  | cleanup (stage : CleanupStage)

/-- The database as everyone sees it, the entry and whether `txns` still has it, the edges
that `handle_commit` has passed to `invalidate_by_edge`, and the calls. -/
structure TxnState (D : Type) where
  db : D
  entry : TxnEntry D
  listed : Bool
  invalidated : List Edge
  calls : List (TxnCall D)

/-- What the clock and the other connections decide in a turn: a wait has timed out, and
another connection has the write lock. -/
structure TurnFlags where
  timeout : Bool
  locked : Bool

/-- A call is made, a call takes its next step, or another connection writes. -/
inductive TxnAction (D : Type) where
  | issue (op : TxnOperation D)
  | issueCommit
  | issueRollback
  | issueCleanup
  | turn (i : Nat) (flags : TurnFlags)
  | other (write : D → D)

namespace TxnState

variable {D : Type}

/-- The state after `handle_begin_txn`. -/
def begin (db : D) : TxnState D := ⟨db, ⟨.inTxn db, false, 0, []⟩, true, [], []⟩

/-- `get_txn_entry`. -/
def getTxnEntry (s : TxnState D) : RpcResult Unit :=
  if !s.listed then .error "txid not found"
  else if s.entry.closing then .error "transaction is closing"
  else .ok ()

/-- The statements of a job on the connection. -/
def runJob (s : TxnState D) (op : TxnOperation D) (locked : Bool) :
    TxnState D × RpcResult Bool :=
  match s.entry.conn with
  | .inTxn copy =>
      ({ s with entry := { s.entry with conn := .inTxn (op.job copy).1 } }, (op.job copy).2)
  | _ =>
      -- no transaction: what the job writes is committed with it
      if locked then (s, .error "db error: database is locked")
      else ({ s with db := (op.job s.db).1 }, (op.job s.db).2)

/-- `with_conn` and what the handlers do after it. -/
def operationTurn (s : TxnState D) (flags : TurnFlags) (op : TxnOperation D) :
    OperationStage → TxnState D × OperationStage
  | .start =>
      match s.getTxnEntry with
      | .ok _ => (s, .queued)
      | .error e => (s, .done false (.error e))
  | .queued => ({ s with entry := { s.entry with inFlight := s.entry.inFlight + 1 } }, .running)
  | .running => ((s.runJob op flags.locked).1, .ran (s.runJob op flags.locked).2)
  | .ran result =>
      ({ s with entry := { s.entry with inFlight := s.entry.inFlight - 1 } }, .left result)
  | .left (.error e) => (s, .done false (.error e))
  | .left (.ok changed) =>
      match op.changedEdge (.ok changed) with
      | none => (s, .done false (.ok ()))
      | some _ =>
          match s.getTxnEntry with
          | .ok _ => (s, .found)
          | .error e => (s, .done true (.error e))
  | .found =>
      ({ s with entry :=
          { s.entry with touchedEdges := s.entry.touchedEdges ++ op.edge.toList } },
        .done true (.ok ()))
  | .done changed result => (s, .done changed result)

/-- The wait for the jobs in flight is over. -/
def waited (s : TxnState D) (flags : TurnFlags) : Bool :=
  s.entry.inFlight = 0 || flags.timeout

/-- `handle_commit`. -/
def commitTurn (s : TxnState D) (flags : TurnFlags) : CommitStage → TxnState D × CommitStage
  | .start =>
      if !s.listed then (s, .done (.error "txid not found"))
      else if s.entry.closing then (s, .done (.error "transaction already closing"))
      else ({ s with entry := { s.entry with closing := true } }, .waiting)
  | .waiting => (s, if s.waited flags then .commit else .waiting)
  | .commit =>
      match s.entry.conn with
      | .inTxn copy =>
          if flags.locked then (s, .done (.error "commit failed: database is locked"))
          else ({ s with db := copy, entry := { s.entry with conn := .committed } }, .remove)
      | _ => (s, .done (.error "commit failed: cannot commit - no transaction is active"))
  | .remove => ({ s with listed := false }, .readEdges)
  | .readEdges => (s, .invalidate s.entry.touchedEdges)
  | .invalidate edges => ({ s with invalidated := s.invalidated ++ edges }, .done (.ok ()))
  | .done result => (s, .done result)

/-- `rollback_txn_by_arcs`. -/
def rollbackTurn (s : TxnState D) (flags : TurnFlags) :
    RollbackStage → TxnState D × RollbackStage
  | .start =>
      if !s.listed then (s, .done (.error "txid not found"))
      else if s.entry.closing then (s, .done (.ok ()))
      else ({ s with entry := { s.entry with closing := true } }, .waiting)
  | .waiting => (s, if s.waited flags then .rollback else .waiting)
  | .rollback =>
      match s.entry.conn with
      | .inTxn _ => ({ s with entry := { s.entry with conn := .rolledBack } }, .remove)
      | _ => (s, .done (.error "rollback failed: cannot rollback - no transaction is active"))
  | .remove => ({ s with listed := false }, .done (.ok ()))
  | .done result => (s, .done result)

/-- What `start_cleanup_task` does about the transaction when it finds it stale. -/
def cleanupTurn (s : TxnState D) (flags : TurnFlags) :
    CleanupStage → TxnState D × CleanupStage
  | .start => if s.listed then ({ s with listed := false }, .mark) else (s, .done)
  | .mark => ({ s with entry := { s.entry with closing := true } }, .waiting)
  | .waiting => (s, if s.waited flags then .rollback else .waiting)
  | .rollback =>
      match s.entry.conn with
      | .inTxn _ => ({ s with entry := { s.entry with conn := .rolledBack } }, .done)
      | _ => (s, .done)
  | .done => (s, .done)

/-- The next step of a call. -/
def callTurn (s : TxnState D) (flags : TurnFlags) : TxnCall D → TxnState D × TxnCall D
  | .operation op stage =>
      ((s.operationTurn flags op stage).1, .operation op (s.operationTurn flags op stage).2)
  | .commit stage => ((s.commitTurn flags stage).1, .commit (s.commitTurn flags stage).2)
  | .rollback stage => ((s.rollbackTurn flags stage).1, .rollback (s.rollbackTurn flags stage).2)
  | .cleanup stage => ((s.cleanupTurn flags stage).1, .cleanup (s.cleanupTurn flags stage).2)

/-- The state after an action.  Another connection cannot write before the transaction has
ended. -/
def step (s : TxnState D) : TxnAction D → TxnState D
  | .issue op => { s with calls := s.calls ++ [.operation op .start] }
  | .issueCommit => { s with calls := s.calls ++ [.commit .start] }
  | .issueRollback => { s with calls := s.calls ++ [.rollback .start] }
  | .issueCleanup => { s with calls := s.calls ++ [.cleanup .start] }
  | .turn i flags =>
      match s.calls[i]? with
      | some call =>
          { (s.callTurn flags call).1 with calls := s.calls.set i (s.callTurn flags call).2 }
      | none => s
  | .other write => if s.entry.conn.isOpen then s else { s with db := write s.db }

end TxnState

/-! ## What a run may do -/

/-- The edge that a call has changed in the database. -/
def TxnCall.changedEdge {D : Type} : TxnCall D → Option Edge
  | .operation op (.ran result) => op.changedEdge result
  | .operation op (.left result) => op.changedEdge result
  | .operation op .found => op.edge
  | .operation op (.done true _) => op.edge
  | _ => none

/-- The edge that a call has changed and may still record. -/
def TxnCall.pendingEdge {D : Type} : TxnCall D → Option Edge
  | .operation op (.ran result) => op.changedEdge result
  | .operation op (.left result) => op.changedEdge result
  | .operation op .found => op.edge
  | _ => none

/-- A commit that has ended the transaction on its connection. -/
def TxnCall.ended {D : Type} : TxnCall D → Bool
  | .commit .remove => true
  | .commit .readEdges => true
  | .commit (.invalidate _) => true
  | .commit (.done (.ok _)) => true
  | _ => false

/-- A commit that has marked the entry and has not failed. -/
def TxnCall.commits {D : Type} : TxnCall D → Bool
  | .commit .start => false
  | .commit (.done (.error _)) => false
  | .commit _ => true
  | _ => false

namespace TxnState

variable {D : Type}

/-- A commit is under way or has been made. -/
def Committing (s : TxnState D) : Prop := ∃ call ∈ s.calls, call.commits = true

/-- A job that writes runs before its transaction has ended; an operation whose edge is not
recorded yet looks the entry up before a commit has marked it; and a commit reads the
edges when no changed edge is still to be recorded. -/
def SafeTurn (s : TxnState D) : TxnCall D → Prop
  | .operation op .running => s.entry.conn.isOpen = true ∨ op.ReadsOnly
  | .operation op (.left result) =>
      ∀ e, op.changedEdge result = some e → e ∉ s.entry.touchedEdges → ¬ s.Committing
  | .commit .readEdges =>
      ∀ call ∈ s.calls, ∀ e, call.pendingEdge = some e → e ∈ s.entry.touchedEdges
  | _ => True

/-- Every turn is safe. -/
def TxnSafe (s : TxnState D) : TxnAction D → Prop
  | .turn i _ => ∀ call, s.calls[i]? = some call → s.SafeTurn call
  | _ => True

/-- The writes of the other connections of an action that are let through. -/
def outside (s : TxnState D) (db : D) : TxnAction D → D
  | .other write => if s.entry.conn.isOpen then db else write db
  | _ => db

/-- The database as the other connections alone make it. -/
def othersOnly (s : TxnState D) (db : D) : List (TxnAction D) → D
  | [] => db
  | action :: rest => othersOnly (s.step action) (s.outside db action) rest

/-! ## What is visible -/

/-- A job that runs inside of its transaction, or only reads, changes nothing visible. -/
theorem db_runJob {s : TxnState D} {op : TxnOperation D} {locked : Bool}
    (hsafe : s.entry.conn.isOpen = true ∨ op.ReadsOnly) : (s.runJob op locked).1.db = s.db := by
  unfold runJob
  cases hconn : s.entry.conn with
  | inTxn copy => rfl
  | _ =>
      dsimp only
      split_ifs
      · rfl
      · rcases hsafe with hopen | hreads
        · rw [hconn] at hopen
          cases hopen
        · exact hreads.2 s.db

theorem db_operationTurn {s : TxnState D} {flags : TurnFlags} {op : TxnOperation D}
    {stage : OperationStage}
    (hsafe : stage = .running → s.entry.conn.isOpen = true ∨ op.ReadsOnly) :
    (s.operationTurn flags op stage).1.db = s.db := by
  cases stage with
  | running => exact db_runJob (hsafe rfl)
  | left result =>
      cases result with
      | error e => rfl
      | ok changed =>
          dsimp only [operationTurn]
          split
          · rfl
          · split <;> rfl
  | start =>
      dsimp only [operationTurn]
      split <;> rfl
  | _ => rfl

/-- A step of `handle_commit` changes what is visible only when it ends the transaction. -/
theorem db_commitTurn (s : TxnState D) (flags : TurnFlags) (stage : CommitStage) :
    (s.commitTurn flags stage).1.db = s.db ∨
      (s.commitTurn flags stage).1.entry.conn = .committed := by
  cases stage with
  | start =>
      dsimp only [commitTurn]
      split_ifs <;> exact Or.inl rfl
  | commit =>
      dsimp only [commitTurn]
      cases s.entry.conn with
      | inTxn copy =>
          dsimp only
          split_ifs
          · exact Or.inl rfl
          · exact Or.inr rfl
      | _ => exact Or.inl rfl
  | _ => exact Or.inl rfl

theorem db_rollbackTurn (s : TxnState D) (flags : TurnFlags) (stage : RollbackStage) :
    (s.rollbackTurn flags stage).1.db = s.db := by
  cases stage with
  | start =>
      dsimp only [rollbackTurn]
      split_ifs <;> rfl
  | rollback =>
      dsimp only [rollbackTurn]
      cases s.entry.conn <;> rfl
  | _ => rfl

theorem db_cleanupTurn (s : TxnState D) (flags : TurnFlags) (stage : CleanupStage) :
    (s.cleanupTurn flags stage).1.db = s.db := by
  cases stage with
  | start =>
      dsimp only [cleanupTurn]
      split_ifs <;> rfl
  | rollback =>
      dsimp only [cleanupTurn]
      cases s.entry.conn <;> rfl
  | _ => rfl

theorem db_callTurn {s : TxnState D} {flags : TurnFlags} {call : TxnCall D}
    (hsafe : s.SafeTurn call) :
    (s.callTurn flags call).1.db = s.db ∨
      (s.callTurn flags call).1.entry.conn = .committed := by
  cases call with
  | operation op stage =>
      refine Or.inl (db_operationTurn ?_)
      rintro rfl
      exact hsafe
  | commit stage => exact db_commitTurn s flags stage
  | rollback stage => exact Or.inl (db_rollbackTurn s flags stage)
  | cleanup stage => exact Or.inl (db_cleanupTurn s flags stage)

/-! ## What never comes back -/

/-- What a turn does to the state apart from the call: a transaction that was committed
stays committed, a mark stays, an entry that was removed stays removed, and edges are only
added. -/
structure Grows (s s' : TxnState D) : Prop where
  calls : s'.calls = s.calls
  conn : s.entry.conn = .committed → s'.entry.conn = .committed
  closing : s.entry.closing = true → s'.entry.closing = true
  listed : s'.listed = true → s.listed = true
  touched : ∀ e ∈ s.entry.touchedEdges, e ∈ s'.entry.touchedEdges
  invalidated : ∀ e ∈ s.invalidated, e ∈ s'.invalidated

theorem Grows.refl (s : TxnState D) : Grows s s :=
  ⟨rfl, id, id, id, fun _ => id, fun _ => id⟩

/-- A transaction that is still open takes another copy or ends. -/
theorem Grows.ofConn {s : TxnState D} {db : D} {copy : D} (hconn : s.entry.conn = .inTxn copy)
    (conn : TxnConn D) : Grows s { s with db := db, entry := { s.entry with conn := conn } } := by
  refine ⟨rfl, fun h => ?_, id, id, fun _ => id, fun _ => id⟩
  rw [hconn] at h
  cases h

theorem Grows.mark (s : TxnState D) :
    Grows s { s with entry := { s.entry with closing := true } } :=
  ⟨rfl, id, fun _ => rfl, id, fun _ => id, fun _ => id⟩

theorem Grows.remove (s : TxnState D) : Grows s { s with listed := false } :=
  ⟨rfl, id, id, fun h => (by cases h), fun _ => id, fun _ => id⟩

theorem grows_runJob (s : TxnState D) (op : TxnOperation D) (locked : Bool) :
    Grows s (s.runJob op locked).1 := by
  unfold runJob
  cases hconn : s.entry.conn with
  | inTxn copy => exact Grows.ofConn hconn _
  | _ =>
      dsimp only
      split_ifs
      · exact Grows.refl s
      · exact ⟨rfl, id, id, id, fun _ => id, fun _ => id⟩

theorem grows_operationTurn (s : TxnState D) (flags : TurnFlags) (op : TxnOperation D)
    (stage : OperationStage) : Grows s (s.operationTurn flags op stage).1 := by
  cases stage with
  | start =>
      dsimp only [operationTurn]
      split <;> exact Grows.refl s
  | running => exact grows_runJob s op flags.locked
  | left result =>
      cases result with
      | error e => exact Grows.refl s
      | ok changed =>
          dsimp only [operationTurn]
          split
          · exact Grows.refl s
          · split <;> exact Grows.refl s
  | found =>
      refine ⟨rfl, id, id, id, fun e he => ?_, fun _ => id⟩
      exact List.mem_append_left _ he
  | done changed result => exact Grows.refl s
  | _ => exact ⟨rfl, id, id, id, fun _ => id, fun _ => id⟩

theorem grows_commitTurn (s : TxnState D) (flags : TurnFlags) (stage : CommitStage) :
    Grows s (s.commitTurn flags stage).1 := by
  cases stage with
  | start =>
      dsimp only [commitTurn]
      split_ifs
      · exact Grows.refl s
      · exact Grows.refl s
      · exact Grows.mark s
  | commit =>
      dsimp only [commitTurn]
      cases hconn : s.entry.conn with
      | inTxn copy =>
          dsimp only
          split_ifs
          · exact Grows.refl s
          · exact Grows.ofConn hconn _
      | _ => exact Grows.refl s
  | remove => exact Grows.remove s
  | invalidate edges =>
      refine ⟨rfl, id, id, id, fun _ => id, fun e he => ?_⟩
      exact List.mem_append_left _ he
  | _ => exact Grows.refl s

theorem grows_rollbackTurn (s : TxnState D) (flags : TurnFlags) (stage : RollbackStage) :
    Grows s (s.rollbackTurn flags stage).1 := by
  cases stage with
  | start =>
      dsimp only [rollbackTurn]
      split_ifs
      · exact Grows.refl s
      · exact Grows.refl s
      · exact Grows.mark s
  | rollback =>
      dsimp only [rollbackTurn]
      cases hconn : s.entry.conn with
      | inTxn copy => exact Grows.ofConn hconn _
      | _ => exact Grows.refl s
  | remove => exact Grows.remove s
  | _ => exact Grows.refl s

theorem grows_cleanupTurn (s : TxnState D) (flags : TurnFlags) (stage : CleanupStage) :
    Grows s (s.cleanupTurn flags stage).1 := by
  cases stage with
  | start =>
      dsimp only [cleanupTurn]
      split_ifs
      · exact Grows.remove s
      · exact Grows.refl s
  | mark => exact Grows.mark s
  | rollback =>
      dsimp only [cleanupTurn]
      cases hconn : s.entry.conn with
      | inTxn copy => exact Grows.ofConn hconn _
      | _ => exact Grows.refl s
  | _ => exact Grows.refl s

theorem grows_callTurn (s : TxnState D) (flags : TurnFlags) (call : TxnCall D) :
    Grows s (s.callTurn flags call).1 := by
  cases call with
  | operation op stage => exact grows_operationTurn s flags op stage
  | commit stage => exact grows_commitTurn s flags stage
  | rollback stage => exact grows_rollbackTurn s flags stage
  | cleanup stage => exact grows_cleanupTurn s flags stage

/-! ## What a turn does to its call -/

theorem edge_of_changedEdge {op : TxnOperation D} {result : RpcResult Bool} {e : Edge}
    (h : op.changedEdge result = some e) : result = .ok true ∧ op.edge = some e := by
  unfold TxnOperation.changedEdge at h
  split at h
  · exact ⟨rfl, h⟩
  · cases h

/-- A call changes an edge only while its transaction is open. -/
theorem changedEdge_callTurn {s : TxnState D} {flags : TurnFlags} {call : TxnCall D} {e : Edge}
    (hsafe : s.SafeTurn call) (h : (s.callTurn flags call).2.changedEdge = some e) :
    call.changedEdge = some e ∨ s.entry.conn.isOpen = true := by
  cases call with
  | operation op stage =>
      dsimp only [callTurn] at h
      cases stage with
      | start =>
          dsimp only [operationTurn] at h
          cases hentry : s.getTxnEntry <;> rw [hentry] at h <;> cases h
      | queued => cases h
      | running =>
          rcases hsafe with hopen | hreads
          · exact Or.inr hopen
          · cases hreads.1.symm.trans (edge_of_changedEdge h).2
      | ran result => exact Or.inl h
      | left result =>
          left
          cases result with
          | error error => cases h
          | ok changed =>
              dsimp only [operationTurn] at h
              cases hedge : op.changedEdge (.ok changed) with
              | none =>
                  rw [hedge] at h
                  cases h
              | some found =>
                  -- the edge of the operation either way
                  have hfound := (edge_of_changedEdge hedge).2
                  rw [hedge] at h
                  show op.changedEdge (.ok changed) = some e
                  rw [hedge, ← hfound]
                  cases hentry : s.getTxnEntry <;> rw [hentry] at h <;> exact h
      | found => exact Or.inl h
      | done changed result => exact Or.inl h
  | commit stage => cases h
  | rollback stage => cases h
  | cleanup stage => cases h

/-- A commit is under way from the moment it has found the entry unmarked. -/
theorem commits_callTurn {s : TxnState D} {flags : TurnFlags} {call : TxnCall D}
    (h : (s.callTurn flags call).2.commits = true) :
    call.commits = true ∨ s.getTxnEntry = .ok () := by
  cases call with
  | commit stage =>
      cases stage with
      | start =>
          right
          dsimp only [callTurn, commitTurn] at h
          unfold getTxnEntry
          split_ifs at h ⊢
          · cases h
          · cases h
          · rfl
      | done result => exact Or.inl h
      | _ => exact Or.inl rfl
  | operation op stage => cases h
  | rollback stage => cases h
  | cleanup stage => cases h

theorem ended_callTurn {s : TxnState D} {flags : TurnFlags} {call : TxnCall D}
    (h : (s.callTurn flags call).2.ended = true) :
    call.ended = true ∨ (s.callTurn flags call).1.entry.conn = .committed := by
  cases call with
  | commit stage =>
      dsimp only [callTurn] at h ⊢
      cases stage with
      | start =>
          dsimp only [commitTurn] at h
          split_ifs at h <;> cases h
      | waiting =>
          dsimp only [commitTurn] at h
          split_ifs at h <;> cases h
      | commit =>
          right
          dsimp only [commitTurn] at h ⊢
          cases hconn : s.entry.conn with
          | inTxn copy =>
              rw [hconn] at h
              dsimp only at h ⊢
              split_ifs at h ⊢
              · cases h
              · rfl
          | _ =>
              rw [hconn] at h
              cases h
      | done result => exact Or.inl h
      | _ => exact Or.inl rfl
  | operation op stage => cases h
  | rollback stage => cases h
  | cleanup stage => cases h

/-- An operation returns with its edge changed after recording it, or after the entry was
not to be found for it. -/
theorem recorded_callTurn {s : TxnState D} {flags : TurnFlags} {call : TxnCall D}
    {op : TxnOperation D} {result : RpcResult Unit} {e : Edge} (hsafe : s.SafeTurn call)
    (h : (s.callTurn flags call).2 = .operation op (.done true result))
    (hedge : op.edge = some e) :
    call = .operation op (.done true result) ∨
      e ∈ (s.callTurn flags call).1.entry.touchedEdges ∨
      s.getTxnEntry ≠ .ok () ∧ ¬ s.Committing := by
  cases call with
  | operation op' stage =>
      obtain ⟨rfl, hstage⟩ := TxnCall.operation.inj h
      dsimp only [callTurn]
      cases stage with
      | start =>
          dsimp only [operationTurn] at hstage
          cases hentry : s.getTxnEntry <;> rw [hentry] at hstage <;> cases hstage
      | left left =>
          cases left with
          | error error => cases hstage
          | ok changed =>
              dsimp only [operationTurn] at hstage ⊢
              cases hchanged : op'.changedEdge (.ok changed) with
              | none =>
                  rw [hchanged] at hstage
                  cases hstage
              | some found =>
                  cases Option.some.inj ((edge_of_changedEdge hchanged).2.symm.trans hedge)
                  rw [hchanged] at hstage
                  cases hentry : s.getTxnEntry with
                  | ok u =>
                      rw [hentry] at hstage
                      cases hstage
                  | error error =>
                      dsimp only
                      by_cases htouched : e ∈ s.entry.touchedEdges
                      · exact Or.inr (Or.inl htouched)
                      · exact Or.inr (Or.inr
                          ⟨fun hok => (by cases hok), hsafe e hchanged htouched⟩)
      | found =>
          right
          left
          show e ∈ s.entry.touchedEdges ++ op'.edge.toList
          rw [hedge]
          simp
      | done changed answer => exact Or.inl (congrArg _ hstage)
      | _ => cases hstage
  | commit stage => cases h
  | rollback stage => cases h
  | cleanup stage => cases h

/-- Up to its `COMMIT` a commit goes on to no later stage than the removal of the entry. -/
theorem commitTurn_before (s : TxnState D) (flags : TurnFlags) (stage : CommitStage)
    (h : stage = .start ∨ stage = .waiting ∨ stage = .commit) :
    (∀ edges, (s.commitTurn flags stage).2 ≠ .invalidate edges) ∧
      (s.commitTurn flags stage).2 ≠ .done (.ok ()) := by
  rcases h with rfl | rfl | rfl
  · dsimp only [commitTurn]
    split_ifs <;> simp
  · dsimp only [commitTurn]
    split_ifs <;> simp
  · dsimp only [commitTurn]
    cases s.entry.conn with
    | inTxn copy =>
        dsimp only
        split_ifs <;> simp
    | _ => simp

theorem read_callTurn {s : TxnState D} {flags : TurnFlags} {call : TxnCall D} {edges : List Edge}
    (h : (s.callTurn flags call).2 = .commit (.invalidate edges)) :
    call = .commit .readEdges ∧ edges = s.entry.touchedEdges := by
  cases call with
  | commit stage =>
      have hstage := TxnCall.commit.inj h
      have hbefore := fun hearly => (commitTurn_before s flags stage hearly).1 edges
      cases stage with
      | readEdges =>
          cases hstage
          exact ⟨rfl, rfl⟩
      | start => exact absurd hstage (hbefore (by simp))
      | waiting => exact absurd hstage (hbefore (by simp))
      | commit => exact absurd hstage (hbefore (by simp))
      | _ => cases hstage
  | operation op stage => cases h
  | rollback stage => cases h
  | cleanup stage => cases h

theorem passed_callTurn {s : TxnState D} {flags : TurnFlags} {call : TxnCall D}
    (h : (s.callTurn flags call).2 = .commit (.done (.ok ()))) :
    call = .commit (.done (.ok ())) ∨ ∃ edges, call = .commit (.invalidate edges) ∧
      ∀ e ∈ edges, e ∈ (s.callTurn flags call).1.invalidated := by
  cases call with
  | commit stage =>
      have hstage := TxnCall.commit.inj h
      have hbefore := fun hearly => (commitTurn_before s flags stage hearly).2
      cases stage with
      | invalidate edges => exact Or.inr ⟨edges, rfl, fun e he => List.mem_append_right _ he⟩
      | done result => exact Or.inl (congrArg _ hstage)
      | start => exact absurd hstage (hbefore (by simp))
      | waiting => exact absurd hstage (hbefore (by simp))
      | commit => exact absurd hstage (hbefore (by simp))
      | _ => cases hstage
  | operation op stage => cases h
  | rollback stage => cases h
  | cleanup stage => cases h

/-! ## The invariant -/

theorem pending_or_done {call : TxnCall D} {e : Edge} (h : call.changedEdge = some e) :
    call.pendingEdge = some e ∨
      ∃ op result, call = .operation op (.done true result) ∧ op.edge = some e := by
  unfold TxnCall.changedEdge at h
  split at h
  · exact Or.inl h
  · exact Or.inl h
  · exact Or.inl h
  · exact Or.inr ⟨_, _, rfl, h⟩
  · cases h

/-- The invariant of a run: a commit that is past its `COMMIT` has ended the transaction;
an operation that has returned has its edge recorded, or no commit is or will be made; and
the edges that a commit has read, and those it has passed on, are all that were changed. -/
structure TxnInv (s : TxnState D) : Prop where
  ended : ∀ call ∈ s.calls, call.ended = true → s.entry.conn = .committed
  recorded : ∀ op result e, TxnCall.operation op (.done true result) ∈ s.calls →
    op.edge = some e → e ∈ s.entry.touchedEdges ∨ s.getTxnEntry ≠ .ok () ∧ ¬ s.Committing
  read : ∀ edges, TxnCall.commit (.invalidate edges) ∈ s.calls →
    ∀ call ∈ s.calls, ∀ e, call.changedEdge = some e → e ∈ edges
  passed : TxnCall.commit (.done (.ok ())) ∈ s.calls →
    ∀ call ∈ s.calls, ∀ e, call.changedEdge = some e → e ∈ s.invalidated

theorem txnInv_begin (db : D) : (begin db).TxnInv := by
  refine ⟨?_, ?_, ?_, ?_⟩ <;> simp [begin]

/-- A call that has just been made changes nothing that the invariant speaks of. -/
theorem txnInv_issue {s : TxnState D} {new : TxnCall D} (hended : new.ended = false)
    (hcommits : new.commits = false) (hchanged : new.changedEdge = none) (hinv : s.TxnInv) :
    TxnInv { s with calls := s.calls ++ [new] } := by
  have hmem : ∀ {call : TxnCall D}, call ∈ s.calls ++ [new] → call ∈ s.calls ∨ call = new := by
    intro call h
    simpa using h
  refine ⟨?_, ?_, ?_, ?_⟩
  · intro call hcall h
    rcases hmem hcall with hold | rfl
    · exact hinv.ended call hold h
    · rw [hended] at h
      cases h
  · intro op result e hcall hedge
    rcases hmem hcall with hold | rfl
    · refine (hinv.recorded op result e hold hedge).imp_right fun ⟨hentry, hnone⟩ => ⟨hentry, ?_⟩
      rintro ⟨call, hcommit, h⟩
      rcases hmem hcommit with hthere | rfl
      · exact hnone ⟨call, hthere, h⟩
      · rw [hcommits] at h
        cases h
    · cases hedge.symm.trans hchanged
  · intro edges hcall call hother e h
    have hold : TxnCall.commit (.invalidate edges) ∈ s.calls := by
      rcases hmem hcall with hold | rfl
      · exact hold
      · cases hended
    rcases hmem hother with hthere | rfl
    · exact hinv.read edges hold call hthere e h
    · cases h.symm.trans hchanged
  · intro hcall call hother e h
    have hold : TxnCall.commit (.done (.ok ())) ∈ s.calls := by
      rcases hmem hcall with hold | rfl
      · exact hold
      · cases hended
    rcases hmem hother with hthere | rfl
    · exact hinv.passed hold call hthere e h
    · cases h.symm.trans hchanged

/-- The entry is not found again. -/
theorem Grows.lost {s s' : TxnState D} (h : Grows s s') (hlost : s.getTxnEntry ≠ .ok ()) :
    s'.getTxnEntry ≠ .ok () := by
  unfold getTxnEntry at hlost ⊢
  have hlisted := h.listed
  have hclosing := h.closing
  cases hl : s.listed <;> cases hl' : s'.listed <;> cases hc : s.entry.closing <;>
    cases hc' : s'.entry.closing <;> simp_all

theorem txnInv_turn {s : TxnState D} {i : Nat} {flags : TurnFlags} {call : TxnCall D}
    (hcall : s.calls[i]? = some call) (hsafe : s.SafeTurn call) (hinv : s.TxnInv) :
    TxnInv { (s.callTurn flags call).1 with calls := s.calls.set i (s.callTurn flags call).2 } := by
  have hthere : call ∈ s.calls := List.mem_of_getElem? hcall
  have hmem : ∀ {c : TxnCall D}, c ∈ s.calls.set i (s.callTurn flags call).2 →
      c ∈ s.calls ∨ c = (s.callTurn flags call).2 := List.mem_or_eq_of_mem_set
  have hgrows := grows_callTurn s flags call
  -- once the transaction was committed no call changes an edge any more
  have hchanged : s.entry.conn = .committed →
      ∀ c ∈ s.calls.set i (s.callTurn flags call).2, ∀ e, c.changedEdge = some e →
        ∃ c' ∈ s.calls, c'.changedEdge = some e := by
    intro hconn c hc e he
    rcases hmem hc with hold | rfl
    · exact ⟨c, hold, he⟩
    · rcases changedEdge_callTurn hsafe he with hbefore | hopen
      · exact ⟨call, hthere, hbefore⟩
      · rw [hconn] at hopen
        cases hopen
  have hnot : s.getTxnEntry ≠ .ok () ∧ ¬ s.Committing →
      ¬ Committing { (s.callTurn flags call).1 with
        calls := s.calls.set i (s.callTurn flags call).2 } := by
    rintro ⟨hentry, hnone⟩ ⟨c, hc, h⟩
    rcases hmem hc with hold | rfl
    · exact hnone ⟨c, hold, h⟩
    · rcases commits_callTurn h with hbefore | hok
      · exact hnone ⟨call, hthere, hbefore⟩
      · exact hentry hok
  refine ⟨?_, ?_, ?_, ?_⟩
  · intro c hc h
    rcases hmem hc with hold | rfl
    · exact hgrows.conn (hinv.ended c hold h)
    · rcases ended_callTurn h with hbefore | hconn
      · exact hgrows.conn (hinv.ended call hthere hbefore)
      · exact hconn
  · intro op result e hc hedge
    have hcases : e ∈ (s.callTurn flags call).1.entry.touchedEdges ∨
        s.getTxnEntry ≠ .ok () ∧ ¬ s.Committing := by
      rcases hmem hc with hold | hnew
      · exact (hinv.recorded op result e hold hedge).imp_left (hgrows.touched e)
      · rcases recorded_callTurn hsafe hnew.symm hedge with rfl | hcases
        · exact (hinv.recorded op result e hthere hedge).imp_left (hgrows.touched e)
        · exact hcases
    exact hcases.imp_right fun hlost => ⟨hgrows.lost hlost.1, hnot hlost⟩
  · intro edges hc c hother e h
    have hread : TxnCall.commit (.invalidate edges) ∈ s.calls ∨
        call = .commit .readEdges ∧ edges = s.entry.touchedEdges :=
      (hmem hc).imp_right fun hnew => read_callTurn hnew.symm
    rcases hread with hold | ⟨rfl, rfl⟩
    · obtain ⟨c', hc', he⟩ := hchanged (hinv.ended _ hold rfl) c hother e h
      exact hinv.read edges hold c' hc' e he
    · -- the commit reads the edges now: nothing that was changed is missing
      obtain ⟨c', hc', he⟩ := hchanged (hinv.ended _ hthere rfl) c hother e h
      rcases pending_or_done he with hpending | ⟨op, result, rfl, hedge⟩
      · exact hsafe c' hc' e hpending
      · rcases hinv.recorded op result e hc' hedge with htouched | ⟨-, hnone⟩
        · exact htouched
        · exact absurd ⟨_, hthere, rfl⟩ hnone
  · intro hc c hother e h
    have hpassed : TxnCall.commit (.done (.ok ())) ∈ s.calls ∨
        ∃ edges, call = .commit (.invalidate edges) ∧
          ∀ e ∈ edges, e ∈ (s.callTurn flags call).1.invalidated := by
      rcases hmem hc with hold | hnew
      · exact Or.inl hold
      · rcases passed_callTurn hnew.symm with rfl | hnow
        · exact Or.inl hthere
        · exact Or.inr hnow
    rcases hpassed with hold | ⟨edges, rfl, hedges⟩
    · obtain ⟨c', hc', he⟩ := hchanged (hinv.ended _ hold rfl) c hother e h
      exact hgrows.invalidated e (hinv.passed hold c' hc' e he)
    · obtain ⟨c', hc', he⟩ := hchanged (hinv.ended _ hthere rfl) c hother e h
      exact hedges e (hinv.read edges hthere c' hc' e he)

theorem txnInv_step (s : TxnState D) (action : TxnAction D) (hsafe : s.TxnSafe action)
    (hinv : s.TxnInv) : (s.step action).TxnInv := by
  cases action with
  | issue op => exact txnInv_issue rfl rfl rfl hinv
  | issueCommit => exact txnInv_issue rfl rfl rfl hinv
  | issueRollback => exact txnInv_issue rfl rfl rfl hinv
  | issueCleanup => exact txnInv_issue rfl rfl rfl hinv
  | turn i flags =>
      dsimp only [step]
      cases hcall : s.calls[i]? with
      | none => exact hinv
      | some call => exact txnInv_turn hcall (hsafe call hcall) hinv
  | other write =>
      dsimp only [step]
      split_ifs
      · exact hinv
      · exact ⟨hinv.ended, hinv.recorded, hinv.read, hinv.passed⟩

/-! ## Runs -/

/-- A safe action keeps the database as the other connections alone make it, until the
transaction is committed. -/
theorem db_step {s : TxnState D} {action : TxnAction D} {db : D} (hsafe : s.TxnSafe action)
    (h : s.entry.conn = .committed ∨ s.db = db) :
    (s.step action).entry.conn = .committed ∨ (s.step action).db = s.outside db action := by
  cases action with
  | turn i flags =>
      dsimp only [step, outside]
      cases hcall : s.calls[i]? with
      | none => exact h
      | some call =>
          rcases h with hconn | rfl
          · exact Or.inl ((grows_callTurn s flags call).conn hconn)
          · exact (db_callTurn (hsafe call hcall)).symm
  | other write =>
      dsimp only [step, outside]
      rcases h with hconn | rfl
      · left
        split_ifs <;> exact hconn
      · right
        split_ifs <;> rfl
  | _ => exact h

theorem db_run {s : TxnState D} {actions : List (TxnAction D)} {db : D}
    (hsafe : Along step TxnSafe s actions) (h : s.entry.conn = .committed ∨ s.db = db) :
    (run step s actions).entry.conn = .committed ∨
      (run step s actions).db = s.othersOnly db actions := by
  induction actions generalizing s db with
  | nil => exact h
  | cons action rest ih => exact ih hsafe.2 (db_step hsafe.1 h)

/-- A run with safe turns.  As long as the transaction was not committed, and so when it was
rolled back or cleaned up, the database is what the other connections alone make of it; no
turn of an operation changes the database, whether before or after the end of the
transaction; and when a commit has returned `Ok`, every edge that an operation has changed
was passed to `invalidate_by_edge`. -/
theorem run_isolated (db : D) (actions : List (TxnAction D))
    (hsafe : Along step TxnSafe (begin db) actions) :
    ((run step (begin db) actions).entry.conn ≠ .committed →
      (run step (begin db) actions).db = (begin db).othersOnly db actions) ∧
    (∀ i flags op stage,
      (run step (begin db) actions).calls[i]? = some (.operation op stage) →
      (run step (begin db) actions).TxnSafe (.turn i flags) →
      ((run step (begin db) actions).step (.turn i flags)).db =
        (run step (begin db) actions).db) ∧
    (TxnCall.commit (.done (.ok ())) ∈ (run step (begin db) actions).calls →
      ∀ call ∈ (run step (begin db) actions).calls, ∀ e, call.changedEdge = some e →
        e ∈ (run step (begin db) actions).invalidated) := by
  have hinv : (run step (begin db) actions).TxnInv :=
    run_invariant txnInv_step hsafe (txnInv_begin db)
  refine ⟨?_, ?_, hinv.passed⟩
  · intro hconn
    exact (db_run hsafe (Or.inr rfl)).resolve_left hconn
  · intro i flags op stage hcall hturn
    dsimp only [step]
    rw [hcall]
    refine db_operationTurn ?_
    rintro rfl
    exact hturn _ hcall

/-! ## Sample runs -/

/-- The condition on a turn, as far as it can be computed. -/
def checkTurn (s : TxnState D) : TxnCall D → Bool
  | .operation _ .running => s.entry.conn.isOpen
  | .operation op (.left result) =>
      (op.changedEdge result).all fun e =>
        decide (e ∈ s.entry.touchedEdges) || !s.calls.any TxnCall.commits
  | .commit .readEdges =>
      s.calls.all fun call => call.pendingEdge.all fun e => decide (e ∈ s.entry.touchedEdges)
  | _ => true

theorem safeTurn_of_checkTurn {s : TxnState D} {call : TxnCall D}
    (h : s.checkTurn call = true) : s.SafeTurn call := by
  unfold checkTurn at h
  split at h
  · exact Or.inl h
  · rename_i op result
    rintro e he htouched ⟨commit, hcommit, hcommits⟩
    rw [he, Option.all_some, Bool.or_eq_true, decide_eq_true_eq, Bool.not_eq_true'] at h
    rcases h with hmem | hnone
    · exact htouched hmem
    · rw [List.any_eq_false] at hnone
      exact hnone commit hcommit hcommits
  · intro other hother e he
    have hall := List.all_eq_true.mp h other hother
    rw [he, Option.all_some, decide_eq_true_eq] at hall
    exact hall
  · unfold SafeTurn
    split <;> simp_all

/-- The condition on an action, as far as it can be computed. -/
def checkAction (s : TxnState D) : TxnAction D → Bool
  | .turn i _ => s.calls[i]?.all s.checkTurn
  | _ => true

theorem txnSafe_of_checkAction {s : TxnState D} {action : TxnAction D}
    (h : s.checkAction action = true) : s.TxnSafe action := by
  cases action with
  | turn i flags =>
      intro call hcall
      dsimp only [checkAction] at h
      rw [hcall] at h
      exact safeTurn_of_checkTurn h
  | _ => trivial

/-- A turn without a timeout and without other writers. -/
def quietTurn (i : Nat) : TxnAction D := .turn i ⟨false, false⟩

/-- A new name in the root. -/
def newName : TxnOperation FsMetaDb := .createDentry 0 1 "f" .tombstone 0

/-- The operation returns before its transaction is committed. -/
def inOrder : List (TxnAction FsMetaDb) :=
  .issue newName :: List.replicate 6 (quietTurn 0) ++
    .issueCommit :: List.replicate 6 (quietTurn 1)

theorem inOrder_isolated :
    ((run step (begin (.fresh 0)) inOrder).entry.conn ≠ .committed →
      (run step (begin (.fresh 0)) inOrder).db =
        (begin (.fresh 0)).othersOnly (.fresh 0) inOrder) ∧
    (∀ i flags op stage,
      (run step (begin (.fresh 0)) inOrder).calls[i]? = some (.operation op stage) →
      (run step (begin (.fresh 0)) inOrder).TxnSafe (.turn i flags) →
      ((run step (begin (.fresh 0)) inOrder).step (.turn i flags)).db =
        (run step (begin (.fresh 0)) inOrder).db) ∧
    (TxnCall.commit (.done (.ok ())) ∈ (run step (begin (.fresh 0)) inOrder).calls →
      ∀ call ∈ (run step (begin (.fresh 0)) inOrder).calls, ∀ e, call.changedEdge = some e →
        e ∈ (run step (begin (.fresh 0)) inOrder).invalidated) := by
  apply run_isolated (.fresh 0) inOrder
  have hcheck : Along step (fun s action => s.checkAction action = true)
      (begin (FsMetaDb.fresh 0)) inOrder := by decide
  exact hcheck.mono fun s action => txnSafe_of_checkAction

/-- The job of the operation starts after `ROLLBACK`. -/
def jobAfterRollback : List (TxnAction FsMetaDb) :=
  [.issue newName, quietTurn 0, .issueRollback] ++ List.replicate 4 (quietTurn 1) ++
    [quietTurn 0, quietTurn 0]

/-- The job of the operation has run, and the commit comes before its edge is recorded. -/
def commitBeforeEdge : List (TxnAction FsMetaDb) :=
  .issue newName :: List.replicate 4 (quietTurn 0) ++
    .issueCommit :: List.replicate 6 (quietTurn 1) ++ [quietTurn 0]

/-- The transaction was rolled back and the name is in the database; the transaction was
committed, the name is in the database and its edge was not passed on. -/
theorem late_steps_escape :
    ((run step (begin (.fresh 0)) jobAfterRollback).entry.conn = .rolledBack ∧
      ((run step (begin (.fresh 0)) jobAfterRollback).db.dentryAt 1 "f").isSome = true) ∧
    (run step (begin (.fresh 0)) commitBeforeEdge).calls[1]? = some (.commit (.done (.ok ()))) ∧
      ((run step (begin (.fresh 0)) commitBeforeEdge).db.dentryAt 1 "f").isSome = true ∧
      (run step (begin (.fresh 0)) commitBeforeEdge).invalidated = [] :=
  ⟨⟨rfl, by decide⟩, rfl, by decide, by decide⟩

end TxnState

end FsMeta
end CyfsNdn

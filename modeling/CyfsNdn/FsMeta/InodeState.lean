import CyfsNdn.FsMeta.Elementary
import CyfsNdn.Transition.Run

/-!
# The swap of an inode state

`handle_update_inode_state` compares all ten columns of a state, `parse_node_state` reads
those of the current tag.  The two agree on a row whose other columns are `NULL`.  Every
handler keeps that; the lease reclaimer, which edits the columns by itself, does not: it
turns `Working` into `Cooling` and leaves `last_write_at` as it is.  From then on no swap
names the columns of that row, and the file can neither be reopened nor closed.

The object ids of a state also have to survive their blob: the bytes of an id with a colon
in its type, or of one that is shorter than three bytes, are read as another id or not at
all.
-/

namespace CyfsNdn
namespace FsMeta
namespace FsMetaDb

open NdnLib Relational Collections Transition

/-- A call that reaches the columns of a state. -/
inductive StateAction where
  | allocInode (now : UInt64) (candidates : List IndexNodeId) (node : NodeRecord)
  | updateInodeState (now : UInt64) (id : IndexNodeId) (new old : NodeState)
  | openFileWriter (env : ServiceEnv) (parent : IndexNodeId) (name : String)
      (flag : OpenWriteFlag) (expectedSize : Option UInt64)
  | closeFileWriter (env : ServiceEnv) (fileId : IndexNodeId)
  | reclaimExpiredWriteLeases (now : UInt64)

/-- The database after a call. -/
def stateStep (db : FsMetaDb) : StateAction → FsMetaDb
  | .allocInode now candidates node =>
      match db.allocInode now candidates node with
      | .ok (_, db') => db'
      | .error _ => db
  | .updateInodeState now id new old =>
      match db.updateInodeState now id new old with
      | .ok db' => db'
      | .error _ => db
  | .openFileWriter env parent name flag expectedSize =>
      match db.openFileWriter env parent name flag expectedSize with
      | .ok (_, db') => db'
      | .error _ => db
  | .closeFileWriter env fileId => (db.closeFileWriter env fileId).1
  | .reclaimExpiredWriteLeases now => db.reclaimExpiredWriteLeases now

/-- The states that a caller passes can be stored, and the reclaimer finds no expired lease
on a `Working` row. -/
def SafeStateAction (db : FsMetaDb) : StateAction → Prop
  | .allocInode _ _ node => node.state.Storable
  | .updateInodeState _ _ new _ => new.Storable
  | .openFileWriter _ _ _ _ _ => True
  | .closeFileWriter _ _ => True
  | .reclaimExpiredWriteLeases now =>
      ∀ row ∈ db.nodes.rows, row.leaseExpired now.toInt64 = true → row.cols.state ≠ .working

/-- Every row has the columns of one storable state. -/
def CleanRows (db : FsMetaDb) : Prop :=
  ∀ id row, db.nodes.find? id = some row → row.cols.Clean

/-! ## Clean rows stay clean -/

section Clean

variable {db db' : FsMetaDb}

theorem cleanRows_of_allocInode {now : UInt64} {candidates : List IndexNodeId}
    {node : NodeRecord} {id : IndexNodeId}
    (h : db.allocInode now candidates node = .ok (id, db')) (hstorable : node.state.Storable)
    (hclean : db.CleanRows) : db'.CleanRows := by
  intro k row hfind
  rw [find?_of_allocInode h] at hfind
  split at hfind
  · cases hfind
    exact clean_nodeStateCols hstorable
  · exact hclean k row hfind

theorem cleanRows_of_touch {id : IndexNodeId} {row row' : NodeRow} (h : Touch db db' id row row')
    (hrow : row.cols.Clean → row'.cols.Clean) (hclean : db.CleanRows) : db'.CleanRows := by
  intro k other hfind
  rw [h.nodes] at hfind
  split at hfind
  · cases hfind
    exact hrow (hclean id row h.found)
  · exact hclean k other hfind

theorem SameContent.cleanRows (h : SameContent db db') (hclean : db.CleanRows) : db'.CleanRows := by
  intro id row hrow
  obtain ⟨before, hbefore, heq⟩ := h id row hrow
  have hcols : row.content.cols = before.content.cols := by rw [heq]
  show row.content.cols.Clean
  rw [hcols]
  exact hclean id before hbefore

theorem cleanRows_of_elementary (h : Elementary db db') (hclean : db.CleanRows) :
    db'.CleanRows := by
  cases h with
  | alloc refBy storable h => exact cleanRows_of_allocInode h storable hclean
  | touch h refBy rev clean => exact cleanRows_of_touch h clean hclean
  | create h => exact (sameContent_of_createDentry h).cleanRows hclean
  | delete h => exact (sameContent_of_deleteDentry h).cleanRows hclean
  | replace h => exact (sameContent_of_replaceTarget h).cleanRows hclean

theorem cleanRows_of_chain (h : Chain db db') (hclean : db.CleanRows) : db'.CleanRows := by
  induction h with
  | refl => exact hclean
  | tail _ hstep ih => exact cleanRows_of_elementary hstep ih

/-- The reclaimer changes no column of a row that is not `Working`. -/
theorem cleanRows_reclaim {now : UInt64} (hsafe : ∀ row ∈ db.nodes.rows,
      row.leaseExpired now.toInt64 = true → row.cols.state ≠ .working)
    (hclean : db.CleanRows) : (db.reclaimExpiredWriteLeases now).CleanRows := by
  intro id row hfind
  rw [find?_reclaim, Option.map_eq_some_iff] at hfind
  obtain ⟨before, hbefore, rfl⟩ := hfind
  have hrow : before.cols.Clean := hclean id before hbefore
  split
  · rename_i hexpired
    have hstate := hsafe before (Table.find?_eq_some_iff.mp hbefore).1 hexpired
    have hcols : (before.reclaimed now.toInt64).cols = before.cols := if_neg hstate
    rw [hcols]
    exact hrow
  · exact hrow

theorem cleanRows_fresh (now : UInt64) : (fresh now).CleanRows := by
  intro id row hfind
  rw [fresh, Table.find?_insertOrReplace] at hfind
  split at hfind
  · cases hfind
    exact ⟨.dirNormal, trivial, rfl⟩
  · cases hfind

theorem cleanRows_stateStep (db : FsMetaDb) (action : StateAction)
    (hsafe : SafeStateAction db action) (hclean : db.CleanRows) :
    (db.stateStep action).CleanRows := by
  cases action with
  | allocInode now candidates node =>
      dsimp only [stateStep]
      split
      · rename_i h
        exact cleanRows_of_allocInode h hsafe hclean
      · exact hclean
  | updateInodeState now id new old =>
      dsimp only [stateStep]
      split
      · rename_i h
        exact cleanRows_of_chain (chain_of_updateInodeState h hsafe) hclean
      · exact hclean
  | openFileWriter env parent name flag expectedSize =>
      dsimp only [stateStep]
      split
      · rename_i h
        exact cleanRows_of_chain (chain_of_openFileWriter h) hclean
      · exact hclean
  | closeFileWriter env fileId =>
      exact cleanRows_of_chain (chain_closeFileWriter db env fileId) hclean
  | reclaimExpiredWriteLeases now => exact cleanRows_reclaim hsafe hclean

end Clean

/-! ## The swap on a clean row -/

section Swap

variable {db db' : FsMetaDb} {id : IndexNodeId} {row : NodeRow}

/-- The swap succeeds exactly where the columns are those of the old state. -/
theorem updateInodeState_isOk (hfind : db.nodes.find? id = some row) (now : UInt64)
    (new old : NodeState) :
    (∃ db', db.updateInodeState now id new old = .ok db') ↔ row.cols = nodeStateCols old := by
  unfold updateInodeState
  rw [hfind]
  dsimp only
  split_ifs with hcols
  · exact ⟨fun _ => hcols, fun _ => ⟨_, rfl⟩⟩
  · constructor
    · rintro ⟨db', h⟩
      cases h
    · exact fun h => absurd h hcols

/-- What the swap of a state promises of one row: it succeeds exactly on the state that is
read, the row is then read as the new state with no other column changed but `updated_at`,
and a swap that fails changes nothing. -/
def ExactSwap (db : FsMetaDb) (id : IndexNodeId) (row : NodeRow) : Prop :=
  ∀ (now : UInt64) (new old : NodeState), new.Storable → old.Storable →
    ((∃ db', db.updateInodeState now id new old = .ok db') ↔
      parseNodeState row.cols = .ok old) ∧
    (∀ db', db.updateInodeState now id new old = .ok db' →
      (∃ cols, parseNodeState cols = .ok new ∧
        db'.nodes.find? id = some { row with cols := cols, updatedAt := now.toInt64 }) ∧
      (∀ k, k ≠ id → db'.nodes.find? k = db.nodes.find? k) ∧
      db'.dentries = db.dentries) ∧
    (∀ e, db.updateInodeState now id new old = .error e →
      db.stateStep (.updateInodeState now id new old) = db)

theorem exactSwap_of_clean (hfind : db.nodes.find? id = some row) (hclean : row.cols.Clean) :
    ExactSwap db id row := by
  intro now new old hnew hold
  refine ⟨?_, ?_, ?_⟩
  · rw [updateInodeState_isOk hfind]
    exact hclean.eq_iff hold
  · intro db' h
    obtain ⟨before, -, htouch⟩ := exists_touch_of_updateInodeState h
    have hrow : before = row := Option.some.inj (htouch.found.symm.trans hfind)
    subst hrow
    refine ⟨⟨nodeStateCols new, parseNodeState_nodeStateCols hnew, ?_⟩, ?_, htouch.dentries⟩
    · rw [htouch.nodes, if_pos rfl]
      rfl
    · intro k hk
      rw [htouch.nodes, if_neg hk]
  · intro e h
    dsimp only [stateStep]
    rw [h]

/-- A file that is being written or cools down can be closed, and reopened when it has no
lease. -/
def CloseAndReopen (db : FsMetaDb) (id : IndexNodeId) (row : NodeRow) : Prop :=
  ∀ (env : ServiceEnv) (buffer : FileBufferService) (instanceId : String) (node : NodeRecord)
      (handle : String),
    env.fbService = some buffer → db.getInodeOr id "inode not found" = .ok node →
    writableHandle node.state = .ok handle → buffer.getBuffer handle = .ok () →
    (buffer.close handle = .ok () → ∃ closed, db.closeCommit env id = .ok closed) ∧
    (row.leaseExpireAt = none → row.seq.val + 1 < 2 ^ 63 →
      ∃ reopened, db.resumeWriter env buffer instanceId ⟨id, node.baseObjId, node.state⟩ handle =
        .ok reopened)

theorem kind_of_writableHandle {state : NodeState} {handle : String}
    (h : writableHandle state = .ok handle) : state.kind = .file := by
  cases state <;> first | rfl | cases h

/-- A free lease is taken. -/
theorem acquireFileLease_of_free (hfind : db.nodes.find? id = some row) (now : UInt64)
    (session : String) (ttl : UInt64) (hnone : row.leaseExpireAt = none) (hseq : row.seq.val + 1 < 2 ^ 63) :
    ∃ leased seq, db.acquireFileLease now id session ttl = (leased, .ok seq) := by
  have hheld : row.heldBy session now.toInt64 = false := by
    simp [NodeRow.heldBy, hnone]
  have hfree : row.leaseFree now.toInt64 = true := by
    simp [NodeRow.leaseFree, hnone]
  have hval : row.seq.addOne.val < 2 ^ 63 := by
    unfold Counter.addOne
    rw [dif_pos (by omega)]
    exact hseq
  unfold acquireFileLease
  rw [hfind]
  simp only [hheld, hfree, Counter.get, if_pos hval]
  exact ⟨_, _, rfl⟩

theorem closeAndReopen_of_clean (hfind : db.nodes.find? id = some row)
    (hclean : row.cols.Clean) : CloseAndReopen db id row := by
  intro env buffer instanceId node handle hbuffer hnode hhandle hget
  obtain ⟨before, hbefore, hparsed⟩ := exists_row_of_getInodeOr hnode
  have hrow : before = row := Option.some.inj (hbefore.symm.trans hfind)
  subst hrow
  have hcols : before.cols = nodeStateCols node.state :=
    (hclean.eq_iff (hclean.storable hparsed.state)).mpr hparsed.state
  have hkind := kind_of_writableHandle hhandle
  constructor
  · intro hclose
    obtain ⟨updated, hupdated⟩ :=
      (updateInodeState_isOk hfind env.now (.cooling handle env.now) node.state).mpr hcols
    refine ⟨(leaseOf node, updated), ?_⟩
    unfold closeCommit
    rw [hbuffer]
    simp only [except_bind_eq_ok, guard_eq_ok, except_pure_eq_ok]
    refine ⟨node, hnode, not_not.mpr hkind, handle, hhandle, (), ?_, updated, hupdated, rfl⟩
    unfold closeBuffer
    rw [hget, hclose]
  · intro hnone hseq
    obtain ⟨leased, seq, hleased⟩ := acquireFileLease_of_free hfind env.now
      (writeSession instanceId id) writeLeaseTtlSecs hnone hseq
    -- taking the lease leaves the columns of the state as they are
    obtain ⟨taken, htaken, heq⟩ : ∃ taken, leased.nodes.find? id = some taken ∧
        taken.cols = nodeStateCols node.state := by
      obtain ⟨found, expireAt, ⟨-, htouch⟩ | ⟨-, -, htouch⟩⟩ :=
        exists_touch_of_acquireFileLease hleased
      · cases Option.some.inj (htouch.found.symm.trans hfind)
        exact ⟨_, htouch.foundAfter, hcols⟩
      · cases Option.some.inj (htouch.found.symm.trans hfind)
        exact ⟨_, htouch.foundAfter, hcols⟩
    obtain ⟨updated, hupdated⟩ :=
      (updateInodeState_isOk htaken env.now (.working handle env.now) node.state).mpr heq
    refine ⟨(handle, updated), ?_⟩
    unfold resumeWriter
    rw [hget]
    simp only [hleased, except_bind_eq_ok, except_pure_eq_ok]
    exact ⟨seq, rfl, updated, hupdated, rfl⟩

end Swap

/-- In every run in which the reclaimer meets no `Working` file and no state is passed that
cannot be stored, the swap is exact on every row, and every file that was left open can
still be closed and reopened. -/
theorem run_exactSwap (start : UInt64) (actions : List StateAction)
    (hsafe : Along stateStep SafeStateAction (fresh start) actions) :
    ∀ id row, (run stateStep (fresh start) actions).nodes.find? id = some row →
      ExactSwap (run stateStep (fresh start) actions) id row ∧
      CloseAndReopen (run stateStep (fresh start) actions) id row := by
  intro id row hfind
  have hclean := run_invariant cleanRows_stateStep hsafe (cleanRows_fresh start)
  exact ⟨exactSwap_of_clean hfind (hclean id row hfind),
    closeAndReopen_of_clean hfind (hclean id row hfind)⟩

instance (db : FsMetaDb) : (action : StateAction) → Decidable (SafeStateAction db action)
  | .allocInode _ _ node => inferInstanceAs (Decidable node.state.Storable)
  | .updateInodeState _ _ new _ => inferInstanceAs (Decidable new.Storable)
  | .openFileWriter _ _ _ _ _ => isTrue trivial
  | .closeFileWriter _ _ => isTrue trivial
  | .reclaimExpiredWriteLeases now => inferInstanceAs (Decidable (∀ row ∈ db.nodes.rows,
      row.leaseExpired now.toInt64 = true → row.cols.state ≠ .working))

/-- A file is written and closed, written again and closed before the lease ends. -/
def closedInTime : List StateAction :=
  [.openFileWriter (.standalone 0) 1 "f" .createOrTruncate none,
    .closeFileWriter (.standalone 10) 2,
    .openFileWriter (.standalone 20) 1 "f" .continueWrite none,
    .closeFileWriter (.standalone 30) 2,
    .reclaimExpiredWriteLeases 1000]

theorem closedInTime_exactSwap :
    ∃ row, (run stateStep (fresh 0) closedInTime).nodes.find? 2 = some row ∧
      parseNodeState row.cols = .ok (.cooling "fb" 30) ∧
      ExactSwap (run stateStep (fresh 0) closedInTime) 2 row ∧
      CloseAndReopen (run stateStep (fresh 0) closedInTime) 2 row := by
  have hsome : ((run stateStep (fresh 0) closedInTime).nodes.find? 2).isSome = true := by
    decide
  obtain ⟨row, hrow⟩ := Option.isSome_iff_exists.mp hsome
  have hparse : ((run stateStep (fresh 0) closedInTime).nodes.find? 2).map
      (fun row => parseNodeState row.cols) = some (.ok (.cooling "fb" 30)) := by
    decide
  rw [hrow] at hparse
  exact ⟨row, hrow, Option.some.inj hparse, run_exactSwap 0 closedInTime (by decide) 2 row hrow⟩

/-- A file whose writer went away. -/
def leftOpen : List StateAction :=
  [.openFileWriter (.standalone 0) 1 "f" .createOrTruncate none,
    .reclaimExpiredWriteLeases 1000]

/-- The file is read as `Cooling`, but the swap from that very state fails, and so do
reopening and closing it. -/
theorem reclaimed_file_stays_shut :
    ((run stateStep (fresh 0) leftOpen).nodes.find? 2).map (fun row => parseNodeState row.cols) =
        some (.ok (.cooling "fb" 1000)) ∧
      errorText ((run stateStep (fresh 0) leftOpen).updateInodeState 1001 2
        (.cooling "fb" 1001) (.cooling "fb" 1000)) = some "inode state conflict" ∧
      errorText ((run stateStep (fresh 0) leftOpen).openFileWriter (.standalone 1001) 1 "f"
        .continueWrite none) = some "inode state conflict" ∧
      errorText ((run stateStep (fresh 0) leftOpen).closeFileWriter (.standalone 1001) 2).2 =
        some "inode state conflict" := by
  decide

end FsMetaDb
end FsMeta
end CyfsNdn

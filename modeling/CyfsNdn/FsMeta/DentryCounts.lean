import CyfsNdn.FsMeta.DentryTree

/-!
# One dentry at a time

A handler changes one dentry at most, and then counts the revision of its parent up by
one; what else it does keeps the dentries and the revisions still.  Only a move changes two
dentries, one after the other: the source gets a tombstone, and then the destination its
target.
-/

namespace CyfsNdn
namespace FsMeta

open NdnLib Relational Collections Transition

namespace FsMetaDb

variable {db db' : FsMetaDb} {env : ServiceEnv}

/-- Tables in order stay in order, and no dentry changes. -/
def Still (db db' : FsMetaDb) : Prop := db.TreeInv → db'.TreeInv ∧ Quiet db db'

/-- Tables in order stay in order, and one dentry changes at most. -/
def Counts (db db' : FsMetaDb) : Prop := db.TreeInv → db'.TreeInv ∧ TreeStep db db'

theorem Still.refl (db : FsMetaDb) : Still db db := fun hinv => ⟨hinv, Quiet.refl db⟩

theorem Still.trans {a b c : FsMetaDb} (hab : Still a b) (hbc : Still b c) : Still a c := by
  intro hinv
  obtain ⟨hmiddle, hfirst⟩ := hab hinv
  obtain ⟨hafter, hsecond⟩ := hbc hmiddle
  exact ⟨hafter, hfirst.trans hsecond⟩

theorem Still.counts (h : Still db db') : Counts db db' :=
  fun hinv => (h hinv).imp_right .inl

theorem Counts.still {a b c : FsMetaDb} (hab : Counts a b) (hbc : Still b c) :
    Counts a c := by
  intro hinv
  obtain ⟨hmiddle, hfirst⟩ := hab hinv
  obtain ⟨hafter, hsecond⟩ := hbc hmiddle
  exact ⟨hafter, hfirst.quiet hsecond⟩

/-! ## Rows of inodes -/

theorem still_of_touch {id : IndexNodeId} {row row' : NodeRow} (h : Touch db db' id row row')
    (hrefBy : row'.refBy = row.refBy) (hrev : row'.rev = row.rev) : Still db db' :=
  tree_of_touch h hrefBy hrev

theorem still_of_acquireFileLease {now : UInt64} {id : IndexNodeId} {session : String}
    {ttl seq : UInt64} {leased : FsMetaDb}
    (h : db.acquireFileLease now id session ttl = (leased, .ok seq)) : Still db leased := by
  obtain ⟨row, expireAt, ⟨-, htouch⟩ | ⟨-, -, htouch⟩⟩ := exists_touch_of_acquireFileLease h
  · exact still_of_touch htouch rfl rfl
  · exact still_of_touch htouch rfl rfl

theorem still_of_updateInodeState {now : UInt64} {id : IndexNodeId} {new old : NodeState}
    (h : db.updateInodeState now id new old = .ok db') : Still db db' := by
  obtain ⟨row, -, htouch⟩ := exists_touch_of_updateInodeState h
  exact still_of_touch htouch rfl rfl

theorem still_of_releaseFileLease {id : IndexNodeId} {session : String} {leaseSeq : UInt64}
    (h : db.releaseFileLease id session leaseSeq = .ok db') : Still db db' := by
  obtain ⟨row, -, htouch⟩ := exists_touch_of_onLease h
  exact still_of_touch htouch rfl rfl

theorem still_of_truncateBase {flag : OpenWriteFlag} {opened : OpenedFile}
    (h : db.truncateBase env flag opened = .ok db') : Still db db' := by
  unfold truncateBase at h
  split at h
  · obtain ⟨node, hnode, h⟩ := except_bind_eq_ok.mp h
    rw [except_pure_eq_ok] at h
    subst h
    obtain ⟨row, hfind, hparsed⟩ := exists_row_of_getInodeOr hnode
    have hid : node.inodeId = opened.fileId :=
      hparsed.inodeId.trans (Table.key_of_find? hfind)
    exact still_of_touch (touch_setInode env.now hfind hid) hparsed.refBy hparsed.rev
  · cases h
    exact Still.refl db

theorem still_of_resumeWriter {buffer : FileBufferService} {instanceId handle : String}
    {opened : OpenedFile} {result : String}
    (h : db.resumeWriter env buffer instanceId opened handle = .ok (result, db')) :
    Still db db' := by
  unfold resumeWriter at h
  split at h
  · cases h
  · simp only [except_bind_eq_ok, except_pure_eq_ok] at h
    obtain ⟨seq, hseq, updated, hupdated, heq⟩ := h
    cases heq
    exact (still_of_acquireFileLease (Prod.ext rfl hseq)).trans
      (still_of_updateInodeState hupdated)

theorem still_of_startWriter {buffer : FileBufferService} {instanceId name : String}
    {parent : IndexNodeId} {flag : OpenWriteFlag} {expectedSize : Option UInt64}
    {opened : OpenedFile} {result : String}
    (h : db.startWriter env buffer instanceId parent name flag expectedSize opened =
      .ok (result, db')) : Still db db' := by
  unfold startWriter at h
  obtain ⟨seq, hseq, h⟩ := except_bind_eq_ok.mp h
  split at h
  · cases h
  · simp only [except_bind_eq_ok, except_pure_eq_ok] at h
    obtain ⟨truncated, htruncated, updated, hupdated, heq⟩ := h
    cases heq
    exact (still_of_acquireFileLease (Prod.ext rfl hseq)).trans
      ((still_of_truncateBase htruncated).trans (still_of_updateInodeState hupdated))

theorem still_of_closeCommit {fileId : IndexNodeId} {lease : Option (String × UInt64)}
    (h : db.closeCommit env fileId = .ok (lease, db')) : Still db db' := by
  obtain ⟨node, fbHandle, -, -, hupdated, -⟩ := exists_of_closeCommit h
  exact still_of_updateInodeState hupdated

theorem still_closeFileWriter (db : FsMetaDb) (env : ServiceEnv) (fileId : IndexNodeId) :
    Still db (db.closeFileWriter env fileId).1 := by
  unfold closeFileWriter
  split
  · exact Still.refl db
  · rename_i closed hclosed
    exact still_of_closeCommit hclosed
  · rename_i session seq closed hclosed
    split
    · exact still_of_closeCommit hclosed
    · rename_i released hreleased
      exact (still_of_closeCommit hclosed).trans (still_of_releaseFileLease hreleased)

/-! ## Names -/

/-- A name that is put changes one dentry of its directory, if any. -/
theorem change_of_upsertDentry {now : UInt64} {parent : IndexNodeId} {name : String}
    {target : DentryTarget} {rev : UInt64}
    (h : db.upsertDentry now parent name target rev = .ok db') (hinv : db.TreeInv) :
    db'.TreeInv ∧ (Quiet db db' ∨ ∃ d, DentryChange db db' parent d) := by
  unfold upsertDentry at h
  obtain ⟨existing, -, h⟩ := except_bind_eq_ok.mp h
  cases existing with
  | none => exact (change_of_retargets (retargets_of_createDentry h hinv) hinv).imp_right .inr
  | some existing =>
      obtain ⟨⟨changed, replaced⟩, hreplace, h⟩ := except_bind_eq_ok.mp h
      cases h
      obtain rfl | hwrote := retargets_of_replaceTarget hreplace hinv
      · exact ⟨hinv, .inl (Quiet.refl _)⟩
      · exact (change_of_retargets hwrote hinv).imp_right .inr

theorem counts_of_upsertDentry {now : UInt64} {parent : IndexNodeId} {name : String}
    {target : DentryTarget} {rev : UInt64}
    (h : db.upsertDentry now parent name target rev = .ok db') : Counts db db' := by
  intro hinv
  obtain ⟨hafter, hquiet | ⟨d, hchange⟩⟩ := change_of_upsertDentry h hinv
  · exact ⟨hafter, .inl hquiet⟩
  · exact ⟨hafter, .inr ⟨parent, d, hchange⟩⟩

theorem counts_of_putNewName {parent : IndexNodeId} {name : String} {target : DentryTarget}
    (h : db.putNewName env parent name target = .ok db') : Counts db db' := by
  unfold putNewName at h
  simp only [except_bind_eq_ok] at h
  obtain ⟨parentNode, -, -, -, h⟩ := h
  exact counts_of_upsertDentry h

theorem counts_of_setFile {parent : IndexNodeId} {name : String} {objId : ObjId}
    (h : db.setFile env parent name objId = .ok db') : Counts db db' := by
  unfold setFile at h
  simp only [guard_eq_ok, except_bind_eq_ok, except_pure_eq_ok] at h
  obtain ⟨-, linked, hlinked, -, -, rfl⟩ := h
  exact counts_of_putNewName hlinked

theorem counts_of_setDir {parent : IndexNodeId} {name : String} {dirObjId : ObjId}
    (h : db.setDir env parent name dirObjId = .ok db') : Counts db db' := by
  unfold setDir at h
  simp only [guard_eq_ok] at h
  exact counts_of_putNewName h.2.2

theorem counts_of_symlink {parent : IndexNodeId} {name target : String}
    (h : db.symlink env parent name target = .ok db') : Counts db db' := by
  unfold symlink at h
  simp only [guard_eq_ok] at h
  exact counts_of_putNewName h.2.2

theorem counts_of_delete {parent : IndexNodeId} {name : String}
    (h : db.delete env parent name = .ok db') : Counts db db' := by
  unfold delete at h
  simp only [guard_eq_ok, except_bind_eq_ok] at h
  obtain ⟨-, parentNode, -, h⟩ := h
  exact counts_of_upsertDentry h

/-! ## Names with a new inode -/

theorem isSome_revOf_of_getInodeOr {id : IndexNodeId} {missing : String} {node : NodeRecord}
    (h : db.getInodeOr id missing = .ok node) : (db.revOf id).isSome := by
  obtain ⟨row, hrow, -⟩ := exists_row_of_getInodeOr h
  unfold revOf
  rw [hrow]
  rfl

theorem isSome_revOf_of_parentForWrite {parent : IndexNodeId} {missing : String}
    {node : NodeRecord} (h : db.parentForWrite parent missing = .ok node) :
    (db.revOf parent).isSome := by
  unfold parentForWrite at h
  obtain ⟨found, hfound, -⟩ := except_bind_eq_ok.mp h
  exact isSome_revOf_of_getInodeOr hfound

/-- The new inode keeps still, and then one dentry of the parent changes. -/
theorem counts_of_allocAt {parent : IndexNodeId} {parentRev : UInt64} {name : String}
    {node : NodeRecord} {id : IndexNodeId} (hrefBy : node.refBy = none)
    (hparent : (db.revOf parent).isSome)
    (h : db.allocAt env parent parentRev name node = .ok (id, db')) : Counts db db' := by
  intro hinv
  unfold allocAt at h
  simp only [except_bind_eq_ok, except_pure_eq_ok] at h
  obtain ⟨⟨newId, allocated⟩, halloc, linked, hlinked, heq⟩ := h
  cases heq
  obtain ⟨hmiddle, hquiet⟩ := tree_of_allocInode halloc hrefBy hinv
  obtain ⟨hafter, hstill | ⟨d, hchange⟩⟩ := change_of_upsertDentry hlinked hmiddle
  · exact ⟨hafter, .inl (hquiet.trans hstill)⟩
  · exact ⟨hafter, .inr ⟨parent, d, hchange.of_quiet hquiet hparent⟩⟩

theorem counts_of_createDir {parent : IndexNodeId} {name : String}
    (h : db.createDir env parent name = .ok db') : Counts db db' := by
  unfold createDir at h
  simp only [guard_eq_ok, except_bind_eq_ok, except_pure_eq_ok] at h
  obtain ⟨-, parentNode, hnode, -, -, ⟨id, linked⟩, hlinked, rfl⟩ := h
  exact counts_of_allocAt rfl (isSome_revOf_of_parentForWrite hnode) hlinked

theorem counts_of_openTarget {parent : IndexNodeId} {parentRev : UInt64} {name : String}
    {flag : OpenWriteFlag} {baseObj : Option ObjId} {dentry : Option DentryRecord}
    {opened : OpenedFile} (hparent : (db.revOf parent).isSome)
    (h : db.openTarget env parent parentRev name flag baseObj dentry = .ok (opened, db')) :
    Counts db db' := by
  cases dentry with
  | none =>
      simp only [openTarget, except_bind_eq_ok, except_pure_eq_ok] at h
      obtain ⟨⟨id, linked⟩, hlinked, heq⟩ := h
      cases heq
      exact counts_of_allocAt rfl hparent hlinked
  | some dentry =>
      obtain ⟨dentryId, dentryParent, dentryName, target⟩ := dentry
      cases target with
      | tombstone =>
          simp only [openTarget, except_bind_eq_ok, except_pure_eq_ok] at h
          obtain ⟨⟨id, linked⟩, hlinked, heq⟩ := h
          cases heq
          exact counts_of_allocAt rfl hparent hlinked
      | indexNodeId id =>
          simp only [openTarget, except_bind_eq_ok, except_pure_eq_ok] at h
          obtain ⟨node, -, -, -, heq⟩ := h
          cases heq
          exact (Still.refl db).counts
      | objId objId =>
          simp only [openTarget, guard_eq_ok, except_bind_eq_ok, except_pure_eq_ok] at h
          obtain ⟨-, ⟨id, linked⟩, hlinked, heq⟩ := h
          cases heq
          exact counts_of_allocAt rfl hparent hlinked
      | symLink path => cases h

theorem counts_of_openFileWriter {parent : IndexNodeId} {name : String} {flag : OpenWriteFlag}
    {expectedSize : Option UInt64} {handle : String}
    (h : db.openFileWriter env parent name flag expectedSize = .ok (handle, db')) :
    Counts db db' := by
  obtain ⟨buffer, instanceId, parentRev, baseObj, dentry, opened, found, ⟨_, node, hnode⟩, -,
    hfound, h⟩ :=
    exists_of_openFileWriter h
  refine (counts_of_openTarget (isSome_revOf_of_parentForWrite hnode) hfound).still ?_
  obtain ⟨resume, h⟩ | h := h
  · exact still_of_resumeWriter h
  · exact still_of_startWriter h

/-! ## Moves -/

/-- The two changes of a move, one after the other. -/
structure MoveSteps (env : ServiceEnv) (plan : MovePlan) (db removed db' : FsMetaDb) :
    Prop where
  remove : db.setTombstone env.now plan.srcParent plan.srcName plan.srcRev0 = .ok removed
  add : removed.upsertDentry env.now plan.dstParent plan.dstName plan.target
    (if plan.srcParent = plan.dstParent then plan.srcRev0 + 1 else plan.dstRev0) = .ok db'
  first : TreeStep db removed
  second : TreeStep removed db'

theorem moveSteps_of_applyMovePlan {plan : MovePlan}
    (h : db.applyMovePlan env plan = .ok db') (hinv : db.TreeInv) :
    db'.TreeInv ∧ ∃ removed, MoveSteps env plan db removed db' := by
  unfold applyMovePlan at h
  simp only [guard_eq_ok, except_bind_eq_ok] at h
  obtain ⟨-, -, -, -, -, -, -, removed, hremoved, h⟩ := h
  obtain ⟨hmiddle, hfirst⟩ := counts_of_upsertDentry hremoved hinv
  obtain ⟨hafter, hsecond⟩ := counts_of_upsertDentry h hmiddle
  exact ⟨hafter, removed, hremoved, h, hfirst, hsecond⟩

end FsMetaDb

end FsMeta
end CyfsNdn

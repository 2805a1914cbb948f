import CyfsNdn.FsMeta.MovePath
import CyfsNdn.Transition.Dialogue

/-!
# Who writes in a protected directory

The operations on paths reach the writers of dentries, which check no more than the revision
of the parent.  Here is which of them look at the kind of the parent and at its permission
before they write, in the transaction that writes.

Each operation is a dialogue with the tables; a transaction is one question.  `RPCErrors`
is not part of the repository, and what it puts before a text is left out.
-/

namespace CyfsNdn
namespace FsMeta

open NdnLib Relational Collections Transition

/-! ## The service makes directories -/

namespace FsMetaDb

/-- `create_dir_under_parent` of the service. -/
def serviceCreateDir (db : FsMetaDb) (env : ServiceEnv) (parent : IndexNodeId) (name : String) :
    RpcResult (IndexNodeId × FsMetaDb) := do
  match ← db.getDentry parent name with
  | some ⟨_, _, _, .indexNodeId id⟩ =>
      let node ← db.getInodeOr id "existing inode not found"
      if node.state.kind ≠ .dir then throw (name ++ " exists and is not a directory")
      return (id, db)
  | some ⟨_, _, _, .objId _⟩ => throw (name ++ " exists and is not a directory")
  | some ⟨_, _, _, .symLink _⟩ => throw (name ++ " exists and is not a directory")
  | _ =>
      let (id, allocated) ←
        db.allocInode env.now env.candidates (newNode .dirNormal none (some 0))
      let parentNode ← allocated.getInodeOr parent "inode not found"
      let linked ←
        allocated.upsertDentry env.now parent name (.indexNodeId id) (parentNode.rev.getD 0)
      return (id, linked)

/-- `materialize_dir_from_obj` of the service. -/
def serviceMaterializeDir (db : FsMetaDb) (env : ServiceEnv) (parent : IndexNodeId)
    (name : String) (dirObjId : ObjId) : RpcResult (IndexNodeId × FsMetaDb) := do
  match db.allocInode env.now env.candidates (overlayNode dirObjId) with
  | .error e => throw ("failed to alloc inode: " ++ e)
  | .ok (id, allocated) =>
      let parentNode ← allocated.getInodeOr parent "inode not found"
      match allocated.upsertDentry env.now parent name (.indexNodeId id)
          (parentNode.rev.getD 0) with
      | .error e => throw ("failed to upsert dentry target: " ++ e)
      | .ok linked => return (id, linked)

end FsMetaDb

/-- A question to the tables: a call that clients make, or one of the service itself. -/
inductive EntryCall where
  | client (c : ServiceCall)
  | setFile (parent : IndexNodeId) (name : String) (objId : ObjId)
  | openFileWriter (parent : IndexNodeId) (name : String) (flag : OpenWriteFlag)
      (expectedSize : Option UInt64)
  | lookupBaseDirobjChild (dirNode : NodeRecord) (name : String)
  | serviceCreateDir (parent : IndexNodeId) (name : String)
  | serviceMaterializeDir (parent : IndexNodeId) (name : String) (dirObjId : ObjId)

/-- What a question is answered with. -/
def EntryCall.Reply : EntryCall → Type
  | .client c => c.Reply
  | .setFile _ _ _ => Unit
  | .openFileWriter _ _ _ _ => String
  | .lookupBaseDirobjChild _ _ => BaseChildLookup
  | .serviceCreateDir _ _ => IndexNodeId
  | .serviceMaterializeDir _ _ _ => IndexNodeId

/-- The answer, or an error. -/
abbrev EntryCall.Answer (c : EntryCall) : Type := RpcResult c.Reply

namespace FsMetaDb

/-- The tables after a question, and the answer. -/
def execEntry (db : FsMetaDb) (env : TurnEnv) : (c : EntryCall) → FsMetaDb × c.Answer
  | .client c => db.execCall env c
  | .setFile parent name objId => db.answer (done (db.setFile env.service parent name objId))
  | .openFileWriter parent name flag expectedSize =>
      db.answer (db.openFileWriter env.service parent name flag expectedSize)
  | .lookupBaseDirobjChild dirNode name =>
      (db, FsMeta.lookupBaseDirobjChild env.service dirNode name)
  | .serviceCreateDir parent name => db.answer (db.serviceCreateDir env.service parent name)
  | .serviceMaterializeDir parent name dirObjId =>
      db.answer (db.serviceMaterializeDir env.service parent name dirObjId)

end FsMetaDb

/-! ## The entry points -/

/-- A dialogue with the tables that may fail. -/
abbrev EntryDialogue (α : Type) := Dialogue EntryCall EntryCall.Answer (RpcResult α)

/-- The same in the form that `do` takes. -/
abbrev Entry (α : Type) := ExceptT String (Dialogue EntryCall EntryCall.Answer) α

/-- The program of a client as a dialogue. -/
def Prog.toDialogue {α : Type} : Prog α → EntryDialogue α
  | .ret result => .ret result
  | .call c next => .ask (.client c) fun reply => toDialogue (next reply)

namespace FSMetaService

/-- One question. -/
def ask (c : EntryCall) : Entry c.Reply := ExceptT.mk (.once c)

/-- `DEFAULT_SYMLINK_COUNT`. -/
def defaultSymlinkCount : Nat := 40

/-- The first components of a path. -/
def joined (components : List String) : String := String.intercalate "/" components

/-- One round of `ensure_dir_inode`, after some components. -/
def ensureChild (currentId : IndexNodeId) (before : List String) (component : String) :
    Entry IndexNodeId := do
  match ← ask (.client (.getDentry currentId component)) with
  | some ⟨_, _, _, .indexNodeId id⟩ =>
      match ← ask (.client (.getInode id)) with
      | none => throw "inode not found"
      | some node =>
          if node.state.kind ≠ .dir then
            throw (joined (before ++ [component]) ++ " is not a directory")
          return id
  | some ⟨_, _, _, .objId objId⟩ =>
      if !objId.isDirObject then
        throw ("path component " ++ component ++ " points to non-directory object")
      ask (.serviceMaterializeDir currentId component objId)
  | some ⟨_, _, _, .symLink _⟩ =>
      throw (joined (before ++ [component]) ++ " is not a directory")
  | some ⟨_, _, _, .tombstone⟩ => ask (.serviceCreateDir currentId component)
  | none =>
      match ← ask (.client (.getInode currentId)) with
      | none => throw "parent inode not found"
      | some parentNode =>
          if parentNode.state.kind ≠ .dir then throw (joined before ++ " is not a directory")
          match ← ask (.lookupBaseDirobjChild parentNode component) with
          | .dirObj childDirObj => ask (.serviceMaterializeDir currentId component childDirObj)
          | .nonDirObj _ => throw (joined (before ++ [component]) ++ " is not a directory")
          | .missing => ask (.serviceCreateDir currentId component)

/-- The loop of `ensure_dir_inode`. -/
def ensureDirs (currentId : IndexNodeId) (before : List String) :
    List String → Entry IndexNodeId
  | [] => return currentId
  | component :: rest => do
      let nextId ← ensureChild currentId before component
      ensureDirs nextId (before ++ [component]) rest

/-- `ensure_dir_inode`; the root is the inode 1. -/
def ensureDirInode (path : String) : Entry IndexNodeId := do
  if NfsPath.isRoot path then return 1
  match ← ask (.client (.resolvePathEx path defaultSymlinkCount)) with
  | some ⟨.inode id node, _⟩ =>
      if node.state.kind ≠ .dir then throw (path ++ " is not a directory")
      return id
  | some ⟨.symLink _, _⟩ => throw (path ++ " is not a directory")
  | some ⟨.objId objId, _⟩ =>
      if !objId.isDirObject then throw (path ++ " is not a directory")
      ensureDirs 1 [] (NfsPath.components path)
  | none => ensureDirs 1 [] (NfsPath.components path)

end FSMetaService

/-- A call of one of the operations on paths. -/
inductive EntryPoint where
  | setFile (parent : IndexNodeId) (name : String) (objId : ObjId)
  | setDir (parent : IndexNodeId) (name : String) (dirObjId : ObjId)
  | delete (parent : IndexNodeId) (name : String)
  | movePath (srcParent : IndexNodeId) (srcName : String) (dstParent : IndexNodeId)
      (dstName : String)
  | symlink (linkParent : IndexNodeId) (linkName target : String)
  | openFileWriter (parent : IndexNodeId) (name : String) (flag : OpenWriteFlag)
      (expectedSize : Option UInt64)
  | serviceEnsureDirInode (path : String)
  | clientEnsureDirInode (path : String)

/-- The end of a dialogue whose result is not looked at. -/
def EntryDialogue.forget {α : Type} (d : EntryDialogue α) : EntryDialogue Unit :=
  d.bind fun result => .ret (result.map fun _ => ())

/-- What a call asks. -/
def EntryPoint.dialogue : EntryPoint → EntryDialogue Unit
  | .setFile parent name objId => Dialogue.once (EntryCall.setFile parent name objId)
  | .setDir parent name dirObjId => Dialogue.once (EntryCall.client (.setDir parent name dirObjId))
  | .delete parent name => (Client.handleDelete parent name).toDialogue
  | .movePath srcParent srcName dstParent dstName =>
      (Client.handleMovePath srcParent srcName dstParent dstName).toDialogue
  | .symlink linkParent linkName target =>
      Dialogue.once (EntryCall.client (.symlink linkParent linkName target))
  | .openFileWriter parent name flag expectedSize =>
      EntryDialogue.forget
        (Dialogue.once (EntryCall.openFileWriter parent name flag expectedSize))
  | .serviceEnsureDirInode path => EntryDialogue.forget (FSMetaService.ensureDirInode path).run
  | .clientEnsureDirInode path => EntryDialogue.forget (Client.ensureDirInode path).toDialogue

/-! ## Writing under some directories -/

namespace FsMetaDb

/-- The inode is a directory that is not read-only. -/
def writableDir (db : FsMetaDb) (dir : IndexNodeId) : Bool :=
  match db.getInode dir with
  | .ok (some node) => node.state.kind = .dir && !node.readOnly
  | _ => false

/-- The tables stay in order, and no dentry changes but those of some directories. -/
structure WritesUnder (dirs : IndexNodeId → Prop) (db db' : FsMetaDb) : Prop where
  tree : db'.TreeInv
  same : ∀ d row, ¬ dirs row.parentInodeId →
    (db'.dentries.find? d = some row ↔ db.dentries.find? d = some row)

section Writes

variable {db db' : FsMetaDb} {env : ServiceEnv} {dirs : IndexNodeId → Prop}

theorem WritesUnder.trans {db'' : FsMetaDb} (h : WritesUnder dirs db db')
    (h' : WritesUnder dirs db' db'') : WritesUnder dirs db db'' :=
  ⟨h'.tree, fun d row hrow => (h'.same d row hrow).trans (h.same d row hrow)⟩

theorem WritesUnder.mono {dirs' : IndexNodeId → Prop} (h : WritesUnder dirs db db')
    (himp : ∀ dir, dirs dir → dirs' dir) : WritesUnder dirs' db db' :=
  ⟨h.tree, fun d row hrow => h.same d row fun hdir => hrow (himp _ hdir)⟩

theorem writesUnder_of_dentries_eq (htree : db'.TreeInv) (h : db'.dentries = db.dentries) :
    WritesUnder dirs db db' :=
  ⟨htree, fun d row _ => by rw [h]⟩

theorem writesUnder_refl (hinv : db.TreeInv) : WritesUnder dirs db db :=
  writesUnder_of_dentries_eq hinv rfl

/-- A dentry operation writes under its parent. -/
theorem writesUnder_of_retargets {parent : IndexNodeId} {target : Option IndexNodeId}
    (h : db' = db ∨ Retargets db db' parent target) (hparent : dirs parent)
    (hinv : db.TreeInv) : WritesUnder dirs db db' := by
  have htree := (tree_of_eq_or_retargets h hinv).1
  obtain rfl | ⟨middle, d, newRow, now, expected, u, hret, -, -, rfl⟩ := h
  · exact writesUnder_refl hinv
  refine ⟨htree, fun k row hrow => ?_⟩
  change middle.dentries.find? k = some row ↔ _
  rw [hret.rows]
  split_ifs with hk
  · -- The row that was written is one of the parent, before and after.
    subst hk
    constructor
    · intro hnew
      exact absurd (hret.parentOf row (Or.inr hnew) ▸ hparent) hrow
    · intro hold
      exact absurd (hret.parentOf row (Or.inl hold) ▸ hparent) hrow
  · exact Iff.rfl

theorem writesUnder_of_upsertDentry {now : UInt64} {parent : IndexNodeId} {name : String}
    {target : DentryTarget} {rev : UInt64}
    (h : db.upsertDentry now parent name target rev = .ok db') (hparent : dirs parent)
    (hinv : db.TreeInv) : WritesUnder dirs db db' := by
  unfold upsertDentry at h
  obtain ⟨existing, -, h⟩ := except_bind_eq_ok.mp h
  cases existing with
  | none => exact writesUnder_of_retargets (Or.inr (retargets_of_createDentry h hinv)) hparent hinv
  | some existing =>
      obtain ⟨⟨changed, replaced⟩, hreplace, h⟩ := except_bind_eq_ok.mp h
      cases h
      exact writesUnder_of_retargets (retargets_of_replaceTarget hreplace hinv) hparent hinv

theorem writesUnder_of_allocInode {now : UInt64} {candidates : List IndexNodeId}
    {node : NodeRecord} {id : IndexNodeId}
    (h : db.allocInode now candidates node = .ok (id, db')) (hrefBy : node.refBy = none)
    (hinv : db.TreeInv) : WritesUnder dirs db db' :=
  writesUnder_of_dentries_eq (tree_of_allocInode h hrefBy hinv).1 (dentries_of_allocInode h).1

theorem writesUnder_of_allocAt {parent : IndexNodeId} {parentRev : UInt64} {name : String}
    {node : NodeRecord} {id : IndexNodeId} (hrefBy : node.refBy = none)
    (h : db.allocAt env parent parentRev name node = .ok (id, db')) (hparent : dirs parent)
    (hinv : db.TreeInv) : WritesUnder dirs db db' := by
  unfold allocAt at h
  simp only [except_bind_eq_ok, except_pure_eq_ok] at h
  obtain ⟨⟨newId, allocated⟩, halloc, linked, hlinked, heq⟩ := h
  cases heq
  have hallocated : WritesUnder dirs db allocated :=
    writesUnder_of_allocInode halloc hrefBy hinv
  exact hallocated.trans (writesUnder_of_upsertDentry hlinked hparent hallocated.tree)

theorem writableDir_of_parentForWrite {parent : IndexNodeId} {missing : String}
    {node : NodeRecord} (h : db.parentForWrite parent missing = .ok node) :
    db.writableDir parent = true := by
  unfold parentForWrite getInodeOr at h
  simp only [guard_eq_ok, except_bind_eq_ok, except_pure_eq_ok] at h
  obtain ⟨found, ⟨read, hread, hfound⟩, hkind, hwritable, rfl⟩ := h
  cases read with
  | none => cases hfound
  | some read =>
      obtain rfl := Except.ok.inj hfound
      unfold writableDir
      rw [hread]
      simp_all

/-! ## The handlers that look at their parent -/

/-- The directories that may be written. -/
abbrev Writable (db : FsMetaDb) (dir : IndexNodeId) : Prop := db.writableDir dir = true

theorem writes_of_putNewName {parent : IndexNodeId} {name : String} {target : DentryTarget}
    (h : db.putNewName env parent name target = .ok db') (hinv : db.TreeInv) :
    WritesUnder db.Writable db db' := by
  unfold putNewName at h
  simp only [except_bind_eq_ok] at h
  obtain ⟨parentNode, hparent, -, -, h⟩ := h
  exact writesUnder_of_upsertDentry h (writableDir_of_parentForWrite hparent) hinv

theorem writes_of_setFile {parent : IndexNodeId} {name : String} {objId : ObjId}
    (h : db.setFile env parent name objId = .ok db') (hinv : db.TreeInv) :
    WritesUnder db.Writable db db' := by
  unfold setFile at h
  simp only [guard_eq_ok, except_bind_eq_ok, except_pure_eq_ok] at h
  obtain ⟨-, linked, hlinked, -, -, rfl⟩ := h
  exact writes_of_putNewName hlinked hinv

theorem writes_of_setDir {parent : IndexNodeId} {name : String} {dirObjId : ObjId}
    (h : db.setDir env parent name dirObjId = .ok db') (hinv : db.TreeInv) :
    WritesUnder db.Writable db db' := by
  unfold setDir at h
  simp only [guard_eq_ok] at h
  exact writes_of_putNewName h.2.2 hinv

theorem writes_of_symlink {parent : IndexNodeId} {name target : String}
    (h : db.symlink env parent name target = .ok db') (hinv : db.TreeInv) :
    WritesUnder db.Writable db db' := by
  unfold symlink at h
  simp only [guard_eq_ok] at h
  exact writes_of_putNewName h.2.2 hinv

theorem writes_of_createDir {parent : IndexNodeId} {name : String}
    (h : db.createDir env parent name = .ok db') (hinv : db.TreeInv) :
    WritesUnder db.Writable db db' := by
  unfold createDir at h
  simp only [guard_eq_ok, except_bind_eq_ok, except_pure_eq_ok] at h
  obtain ⟨-, parentNode, hparent, -, -, ⟨id, linked⟩, hlinked, rfl⟩ := h
  exact writesUnder_of_allocAt rfl hlinked (writableDir_of_parentForWrite hparent) hinv

theorem writes_of_openTarget {parent : IndexNodeId} {parentRev : UInt64} {name : String}
    {flag : OpenWriteFlag} {baseObj : Option ObjId} {dentry : Option DentryRecord}
    {opened : OpenedFile} (hparent : dirs parent)
    (h : db.openTarget env parent parentRev name flag baseObj dentry = .ok (opened, db'))
    (hinv : db.TreeInv) : WritesUnder dirs db db' := by
  cases dentry with
  | none =>
      simp only [openTarget, except_bind_eq_ok, except_pure_eq_ok] at h
      obtain ⟨⟨id, linked⟩, hlinked, heq⟩ := h
      cases heq
      exact writesUnder_of_allocAt rfl hlinked hparent hinv
  | some dentry =>
      obtain ⟨dentryId, dentryParent, dentryName, target⟩ := dentry
      cases target with
      | tombstone =>
          simp only [openTarget, except_bind_eq_ok, except_pure_eq_ok] at h
          obtain ⟨⟨id, linked⟩, hlinked, heq⟩ := h
          cases heq
          exact writesUnder_of_allocAt rfl hlinked hparent hinv
      | indexNodeId id =>
          simp only [openTarget, except_bind_eq_ok, except_pure_eq_ok] at h
          obtain ⟨node, -, -, -, heq⟩ := h
          cases heq
          exact writesUnder_refl hinv
      | objId objId =>
          simp only [openTarget, guard_eq_ok, except_bind_eq_ok, except_pure_eq_ok] at h
          obtain ⟨-, ⟨id, linked⟩, hlinked, heq⟩ := h
          cases heq
          exact writesUnder_of_allocAt rfl hlinked hparent hinv
      | symLink path => cases h

theorem dentries_of_updateInodeState {now : UInt64} {id : IndexNodeId} {new old : NodeState}
    (h : db.updateInodeState now id new old = .ok db') : db'.dentries = db.dentries := by
  obtain ⟨row, -, htouch⟩ := exists_touch_of_updateInodeState h
  exact htouch.dentries

theorem dentries_of_acquireFileLease {now : UInt64} {id : IndexNodeId} {session : String}
    {ttl : UInt64} : (db.acquireFileLease now id session ttl).1.dentries = db.dentries := by
  unfold acquireFileLease
  cases db.nodes.find? id with
  | none => rfl
  | some row =>
      dsimp only
      split_ifs <;> rfl

theorem dentries_of_truncateBase {flag : OpenWriteFlag} {opened : OpenedFile}
    (h : db.truncateBase env flag opened = .ok db') : db'.dentries = db.dentries := by
  unfold truncateBase at h
  split at h
  · obtain ⟨node, -, h⟩ := except_bind_eq_ok.mp h
    cases h
    rfl
  · cases h
    rfl

/-- What follows the inode of an open file writes to the inode only. -/
theorem dentries_of_resumeWriter {buffer : FileBufferService} {instanceId handle : String}
    {opened : OpenedFile} {result : String}
    (h : db.resumeWriter env buffer instanceId opened handle = .ok (result, db')) :
    db'.dentries = db.dentries := by
  unfold resumeWriter at h
  split at h
  · cases h
  · simp only [except_bind_eq_ok, except_pure_eq_ok] at h
    obtain ⟨seq, -, updated, hupdated, heq⟩ := h
    cases heq
    rw [dentries_of_updateInodeState hupdated, dentries_of_acquireFileLease]

theorem dentries_of_startWriter {buffer : FileBufferService} {instanceId name : String}
    {parent : IndexNodeId} {flag : OpenWriteFlag} {expectedSize : Option UInt64}
    {opened : OpenedFile} {result : String}
    (h : db.startWriter env buffer instanceId parent name flag expectedSize opened =
      .ok (result, db')) : db'.dentries = db.dentries := by
  unfold startWriter at h
  obtain ⟨seq, -, h⟩ := except_bind_eq_ok.mp h
  split at h
  · cases h
  · simp only [except_bind_eq_ok, except_pure_eq_ok] at h
    obtain ⟨truncated, htruncated, updated, hupdated, heq⟩ := h
    cases heq
    exact (dentries_of_updateInodeState hupdated).trans
      ((dentries_of_truncateBase htruncated).trans dentries_of_acquireFileLease)

theorem writes_of_openFileWriter {parent : IndexNodeId} {name : String} {flag : OpenWriteFlag}
    {expectedSize : Option UInt64} {handle : String}
    (h : db.openFileWriter env parent name flag expectedSize = .ok (handle, db'))
    (hinv : db.TreeInv) : WritesUnder db.Writable db db' := by
  have htree : db'.TreeInv := (tree_of_chain (chain_of_openFileWriter h) hinv).1
  unfold openFileWriter at h
  split at h
  · split at h
    · simp only [guard_eq_ok, except_bind_eq_ok] at h
      obtain ⟨-, parentNode, hparent, dentry, -, baseObj, -, -, -, ⟨opened, found⟩, hfound,
        resume, -, h⟩ := h
      have hopened : WritesUnder db.Writable db found :=
        writes_of_openTarget (writableDir_of_parentForWrite hparent) hfound hinv
      refine hopened.trans (writesUnder_of_dentries_eq htree ?_)
      cases resume with
      | none => exact dentries_of_startWriter h
      | some resume => exact dentries_of_resumeWriter h
    · cases h
  · cases h

/-! ## The transactions of a client -/

theorem writes_of_replaceByDir {parent : IndexNodeId} {name : String} {old : DentryTarget}
    {parentRev : UInt64} {node : NodeRecord} {id : IndexNodeId}
    (h : db.replaceByDir env parent name old parentRev node = .ok (id, db'))
    (hrefBy : node.refBy = none) (hparent : dirs parent) (hinv : db.TreeInv) :
    WritesUnder dirs db db' := by
  unfold replaceByDir at h
  simp only [except_bind_eq_ok, except_pure_eq_ok] at h
  obtain ⟨⟨newId, allocated⟩, halloc, ⟨changed, replaced⟩, hreplace, heq⟩ := h
  cases heq
  have hallocated : WritesUnder dirs db allocated :=
    writesUnder_of_allocInode halloc hrefBy hinv
  exact hallocated.trans (writesUnder_of_retargets
    (retargets_of_replaceTarget hreplace hallocated.tree) hparent hallocated.tree)

theorem writes_of_createAsDir {parent : IndexNodeId} {name : String} {parentRev : UInt64}
    {node : NodeRecord} {id : IndexNodeId}
    (h : db.createAsDir env parent name parentRev node = .ok (id, db'))
    (hrefBy : node.refBy = none) (hparent : dirs parent) (hinv : db.TreeInv) :
    WritesUnder dirs db db' := by
  unfold createAsDir at h
  simp only [except_bind_eq_ok, except_pure_eq_ok] at h
  obtain ⟨⟨newId, allocated⟩, halloc, created, hcreate, heq⟩ := h
  cases heq
  have hallocated : WritesUnder dirs db allocated :=
    writesUnder_of_allocInode halloc hrefBy hinv
  exact hallocated.trans (writesUnder_of_retargets
    (Or.inr (retargets_of_createDentry hcreate hallocated.tree)) hparent hallocated.tree)

theorem writes_of_createDirUnderParent {parent : IndexNodeId} {name : String}
    {id : IndexNodeId} (h : db.createDirUnderParent env parent name = .ok (id, db'))
    (hinv : db.TreeInv) : WritesUnder db.Writable db db' := by
  unfold createDirUnderParent clientParent at h
  simp only [except_bind_eq_ok] at h
  obtain ⟨parentNode, hparent, dentry, -, h⟩ := h
  have hdir : db.Writable parent := writableDir_of_parentForWrite hparent
  cases dentry with
  | none => exact writes_of_createAsDir h rfl hdir hinv
  | some dentry =>
      obtain ⟨dentryId, dentryParent, dentryName, target⟩ := dentry
      cases target with
      | indexNodeId existing =>
          obtain rfl := eq_of_existingDir h
          exact writesUnder_refl hinv
      | objId objId =>
          simp only [guard_eq_ok] at h
          exact writes_of_replaceByDir h.2 rfl hdir hinv
      | tombstone => exact writes_of_replaceByDir h rfl hdir hinv
      | symLink path => cases h

theorem writes_of_materializeDirFromObj {parent : IndexNodeId} {name : String}
    {baseObjId : ObjId} {id : IndexNodeId}
    (h : db.materializeDirFromObj env parent name baseObjId = .ok (id, db'))
    (hinv : db.TreeInv) : WritesUnder db.Writable db db' := by
  unfold materializeDirFromObj clientParent at h
  simp only [guard_eq_ok, except_bind_eq_ok] at h
  obtain ⟨-, parentNode, hparent, dentry, -, h⟩ := h
  have hdir : db.Writable parent := writableDir_of_parentForWrite hparent
  cases dentry with
  | none => exact writes_of_createAsDir h rfl hdir hinv
  | some dentry =>
      obtain ⟨dentryId, dentryParent, dentryName, target⟩ := dentry
      cases target with
      | indexNodeId existing =>
          obtain rfl := eq_of_existingDir h
          exact writesUnder_refl hinv
      | objId objId =>
          simp only [guard_eq_ok] at h
          exact writes_of_replaceByDir h.2 rfl hdir hinv
      | tombstone => cases h
      | symLink path => cases h

/-! ## The transactions that do not look at their parent -/

theorem writes_of_applyMovePlan {plan : MovePlan} (h : db.applyMovePlan env plan = .ok db')
    (hsrc : dirs plan.srcParent) (hdst : dirs plan.dstParent) (hinv : db.TreeInv) :
    WritesUnder dirs db db' := by
  unfold applyMovePlan at h
  simp only [guard_eq_ok, except_bind_eq_ok] at h
  obtain ⟨-, -, -, -, -, -, -, removed, hremoved, h⟩ := h
  have htombstone := writesUnder_of_upsertDentry hremoved hsrc hinv
  exact htombstone.trans (writesUnder_of_upsertDentry h hdst htombstone.tree)

theorem writes_of_serviceCreateDir {parent : IndexNodeId} {name : String} {id : IndexNodeId}
    (h : db.serviceCreateDir env parent name = .ok (id, db')) (hparent : dirs parent)
    (hinv : db.TreeInv) : WritesUnder dirs db db' := by
  -- A new directory under a name that shows none.
  have hnew : ∀ {new : IndexNodeId} {after : FsMetaDb},
      (do
        let (id, allocated) ←
          db.allocInode env.now env.candidates (newNode .dirNormal none (some 0))
        let parentNode ← allocated.getInodeOr parent "inode not found"
        let linked ←
          allocated.upsertDentry env.now parent name (.indexNodeId id) (parentNode.rev.getD 0)
        return (id, linked) : RpcResult (IndexNodeId × FsMetaDb)) = .ok (new, after) →
      WritesUnder dirs db after := by
    intro new after hdo
    simp only [except_bind_eq_ok, except_pure_eq_ok] at hdo
    obtain ⟨⟨id, allocated⟩, halloc, parentNode, -, linked, hlinked, heq⟩ := hdo
    cases heq
    have hallocated : WritesUnder dirs db allocated :=
      writesUnder_of_allocInode halloc rfl hinv
    exact hallocated.trans (writesUnder_of_upsertDentry hlinked hparent hallocated.tree)
  unfold serviceCreateDir at h
  obtain ⟨dentry, -, h⟩ := except_bind_eq_ok.mp h
  cases dentry with
  | none => exact hnew h
  | some dentry =>
      obtain ⟨dentryId, dentryParent, dentryName, target⟩ := dentry
      cases target with
      | indexNodeId existing =>
          simp only [guard_eq_ok, except_bind_eq_ok, except_pure_eq_ok] at h
          obtain ⟨node, -, -, heq⟩ := h
          cases heq
          exact writesUnder_refl hinv
      | tombstone => exact hnew h
      | objId objId => cases h
      | symLink path => cases h

theorem writes_of_serviceMaterializeDir {parent : IndexNodeId} {name : String}
    {dirObjId : ObjId} {id : IndexNodeId}
    (h : db.serviceMaterializeDir env parent name dirObjId = .ok (id, db'))
    (hparent : dirs parent) (hinv : db.TreeInv) : WritesUnder dirs db db' := by
  unfold serviceMaterializeDir at h
  split at h
  · cases h
  next new allocated halloc =>
  obtain ⟨parentNode, -, h⟩ := except_bind_eq_ok.mp h
  split at h
  · cases h
  next linked hlinked =>
  cases h
  have hallocated : WritesUnder dirs db allocated :=
    writesUnder_of_allocInode halloc rfl hinv
  exact hallocated.trans (writesUnder_of_upsertDentry hlinked hparent hallocated.tree)

end Writes

end FsMetaDb

/-! ## Runs -/

/-- A turn of an operation. -/
abbrev EntryTurn := Turn FsMetaDb TurnEnv EntryCall

namespace EntryTurn

open FsMetaDb

/-- The tables after the turn. -/
def after (t : EntryTurn) : FsMetaDb := (t.server.execEntry t.env t.question).1

/-- The directories of a transaction that does not look at them are such. -/
def Covers (dirs : IndexNodeId → Prop) : EntryCall → Prop
  | .client (.createTombstone parent _ _) => dirs parent
  | .client (.replaceByTombstone parent _ _ _) => dirs parent
  | .client (.applyMovePlan plan) => dirs plan.srcParent ∧ dirs plan.dstParent
  | .serviceCreateDir parent _ => dirs parent
  | .serviceMaterializeDir parent _ _ => dirs parent
  | _ => True

/-- Where the transaction does not look at its directories, they may be written. -/
def Checked (t : EntryTurn) : Prop := Covers t.server.Writable t.question

/-- No dentry is inserted, changed or removed whose parent is read-only or no directory. -/
def Protects (t : EntryTurn) : Prop :=
  ∀ d row, t.server.writableDir row.parentInodeId = false →
    (t.after.dentries.find? d = some row ↔ t.server.dentries.find? d = some row)

section Writes

variable {db : FsMetaDb} {env : TurnEnv} {dirs : IndexNodeId → Prop}

theorem writesUnder_of_answer {α : Type} {result : RpcResult (α × FsMetaDb)}
    (h : ∀ a db', result = .ok (a, db') → WritesUnder dirs db db') (hinv : db.TreeInv) :
    WritesUnder dirs db (db.answer result).1 := by
  cases result with
  | error e => exact writesUnder_refl hinv
  | ok pair => exact h pair.1 pair.2 rfl

theorem writes_execCall {c : ServiceCall} (hwritable : ∀ dir, db.Writable dir → dirs dir)
    (hcovers : Covers dirs (.client c)) (hinv : db.TreeInv) :
    WritesUnder dirs db (db.execCall env c).1 := by
  cases c with
  | getInode id => exact writesUnder_refl hinv
  | getDentry parent name => exact writesUnder_refl hinv
  | resolvePathEx path symCount => exact writesUnder_refl hinv
  | createDirUnderParent parent name =>
      exact writesUnder_of_answer
        (fun _ _ h => (writes_of_createDirUnderParent h hinv).mono hwritable) hinv
  | materializeDirFromObj parent name baseObjId =>
      exact writesUnder_of_answer
        (fun _ _ h => (writes_of_materializeDirFromObj h hinv).mono hwritable) hinv
  | setDir parent name dirObjId =>
      exact writesUnder_of_answer
        (fun _ _ h => (writes_of_setDir (done_eq_ok.mp h) hinv).mono hwritable) hinv
  | symlink linkParent linkName target =>
      exact writesUnder_of_answer
        (fun _ _ h => (writes_of_symlink (done_eq_ok.mp h) hinv).mono hwritable) hinv
  | createDir parent name =>
      exact writesUnder_of_answer
        (fun _ _ h => (writes_of_createDir (done_eq_ok.mp h) hinv).mono hwritable) hinv
  | createTombstone parent name expectedParentRev =>
      refine writesUnder_of_answer (fun _ after h => ?_) hinv
      have hcreate := retargets_of_createDentry (done_eq_ok.mp h) hinv
      exact writesUnder_of_retargets (Or.inr hcreate) hcovers hinv
  | replaceByTombstone parent name expectedOldTarget expectedParentRev =>
      refine writesUnder_of_answer (fun _ after h => ?_) hinv
      obtain ⟨⟨changed, replaced⟩, hreplace, rfl⟩ := except_map_eq_ok.mp (done_eq_ok.mp h)
      exact writesUnder_of_retargets (retargets_of_replaceTarget hreplace hinv) hcovers hinv
  | applyMovePlan plan =>
      exact writesUnder_of_answer (fun _ _ h => writes_of_applyMovePlan (done_eq_ok.mp h)
        hcovers.1 hcovers.2 hinv) hinv

/-- A question writes under directories that may be written, and under those of a
transaction that does not look. -/
theorem writes_execEntry {c : EntryCall} (hwritable : ∀ dir, db.Writable dir → dirs dir)
    (hcovers : Covers dirs c) (hinv : db.TreeInv) : WritesUnder dirs db (db.execEntry env c).1 := by
  cases c with
  | client c => exact writes_execCall hwritable hcovers hinv
  | setFile parent name objId =>
      exact writesUnder_of_answer
        (fun _ _ h => (writes_of_setFile (done_eq_ok.mp h) hinv).mono hwritable) hinv
  | openFileWriter parent name flag expectedSize =>
      exact writesUnder_of_answer
        (fun _ _ h => (writes_of_openFileWriter h hinv).mono hwritable) hinv
  | lookupBaseDirobjChild dirNode name => exact writesUnder_refl hinv
  | serviceCreateDir parent name =>
      exact writesUnder_of_answer (fun _ _ h => writes_of_serviceCreateDir h hcovers hinv) hinv
  | serviceMaterializeDir parent name dirObjId =>
      exact writesUnder_of_answer
        (fun _ _ h => writes_of_serviceMaterializeDir h hcovers hinv) hinv

theorem treeInv_execEntry (hinv : db.TreeInv) (c : EntryCall) :
    (db.execEntry env c).1.TreeInv := by
  have hcovers : Covers (fun _ => True) c := by
    unfold Covers
    split <;> simp
  exact (writes_execEntry (fun _ _ => trivial) hcovers hinv).tree

end Writes

/-- A turn that is checked where the code does not check it protects its directories. -/
theorem protects_of_checked {t : EntryTurn} (hchecked : t.Checked) (hinv : t.server.TreeInv) :
    t.Protects := by
  have hwrites : WritesUnder t.server.Writable t.server t.after :=
    writes_execEntry (fun _ h => h) hchecked hinv
  exact fun d row hrow => hwrites.same d row (by simpa using hrow)

/-- The transaction of the question looks at its directories. -/
def selfChecked : EntryCall → Bool
  | .client (.createTombstone _ _ _) => false
  | .client (.replaceByTombstone _ _ _ _) => false
  | .client (.applyMovePlan _) => false
  | .serviceCreateDir _ _ => false
  | .serviceMaterializeDir _ _ _ => false
  | _ => true

theorem checked_of_selfChecked {t : EntryTurn} (h : selfChecked t.question = true) :
    t.Checked := by
  unfold Checked Covers
  split <;> simp_all [selfChecked]

end EntryTurn

/-! ## The questions of a client -/

namespace Prog

variable {α β : Type} {p : ServiceCall → Prop}

/-- All questions of a program are such. -/
def Asks (p : ServiceCall → Prop) : Prog α → Prop
  | .ret _ => True
  | .call c next => p c ∧ ∀ reply, Asks p (next reply)

theorem asks_ask {c : ServiceCall} (h : p c) : (Prog.ask c).Asks p := ⟨h, fun _ => trivial⟩

theorem asks_bind {d : Prog α} {f : α → Prog β} (hd : d.Asks p) (hf : ∀ a, (f a).Asks p) :
    (d >>= f).Asks p := by
  induction d with
  | ret result =>
      cases result with
      | ok a => exact hf a
      | error e => exact trivial
  | call c next ih => exact ⟨hd.1, fun reply => ih reply (hd.2 reply)⟩

theorem asks_handle {d : Prog α} {f : RpcResult α → Prog β} (hd : d.Asks p)
    (hf : ∀ result, (f result).Asks p) : (d.handle f).Asks p := by
  induction d with
  | ret result => exact hf result
  | call c next ih => exact ⟨hd.1, fun reply => ih reply (hd.2 reply)⟩

end Prog

namespace Client

/-- The questions that look at their directories. -/
abbrev SelfChecked (c : ServiceCall) : Prop := EntryTurn.selfChecked (.client c) = true

theorem asks_retrying {c : ServiceCall} (h : SelfChecked c) (exhausted : String)
    (attempts : Nat) : (retrying c exhausted attempts).Asks SelfChecked := by
  induction attempts with
  | zero => exact trivial
  | succ attempts ih =>
      refine Prog.asks_handle (Prog.asks_ask h) fun result => ?_
      cases result with
      | ok reply => exact trivial
      | error e =>
          dsimp only
          split_ifs
          · exact ih
          · exact trivial

theorem asks_createDirUnderParent (parent : IndexNodeId) (name : String) :
    (createDirUnderParent parent name).Asks SelfChecked :=
  asks_retrying (show SelfChecked (.createDirUnderParent parent name) from rfl) _ _

theorem asks_materializeDirFromObj (parent : IndexNodeId) (name : String) (baseObjId : ObjId) :
    (materializeDirFromObj parent name baseObjId).Asks SelfChecked :=
  asks_retrying (show SelfChecked (.materializeDirFromObj parent name baseObjId) from rfl) _ _

theorem asks_inodeOr (id : IndexNodeId) (missing : String) :
    (inodeOr id missing).Asks SelfChecked := by
  refine Prog.asks_bind (Prog.asks_ask rfl) fun node => ?_
  cases node <;> exact trivial

theorem asks_resolvedChild (parent : IndexNodeId) (name childPath : String) :
    (resolvedChild parent name childPath).Asks SelfChecked := by
  refine Prog.asks_bind (Prog.asks_ask rfl) fun resp => ?_
  cases resp with
  | none => exact asks_createDirUnderParent parent name
  | some resp =>
      obtain ⟨item, innerPath⟩ := resp
      cases item with
      | inode id node =>
          dsimp only
          split_ifs <;> exact trivial
      | symLink path => exact trivial
      | objId objId =>
          dsimp only
          split_ifs
          · exact trivial
          · exact trivial
          · exact trivial
          · exact asks_materializeDirFromObj parent name objId

theorem asks_ensureChild (parent : IndexNodeId) (name childPath : String) :
    (ensureChild parent name childPath).Asks SelfChecked := by
  refine Prog.asks_bind (Prog.asks_ask rfl) fun dentry => ?_
  cases dentry with
  | none => exact asks_resolvedChild parent name childPath
  | some dentry =>
      obtain ⟨dentryId, dentryParent, dentryName, target⟩ := dentry
      cases target with
      | indexNodeId id =>
          refine Prog.asks_bind (asks_inodeOr id _) fun node => ?_
          split_ifs <;> exact trivial
      | objId objId =>
          dsimp only
          split_ifs
          · exact trivial
          · exact asks_materializeDirFromObj parent name objId
      | tombstone => exact asks_createDirUnderParent parent name
      | symLink path => exact trivial

theorem asks_ensureDirs (currentId : IndexNodeId) (currentPath : String)
    (components : List String) :
    (ensureDirs currentId currentPath components).Asks SelfChecked := by
  induction components generalizing currentId currentPath with
  | nil => exact trivial
  | cons component rest ih =>
      exact Prog.asks_bind (asks_ensureChild currentId component _) fun nextId => ih nextId _

theorem asks_ensureDirInode (path : String) : (ensureDirInode path).Asks SelfChecked := by
  unfold ensureDirInode
  split_ifs
  · exact trivial
  · exact asks_ensureDirs 1 "/" _

end Client

/-! ## Operations among others -/

namespace EntryPoint

open EntryTurn

/-- Others may leave any tables that are in order. -/
def Others (_ db : FsMetaDb) : Prop := db.TreeInv

/-- The turns of an operation among others. -/
def Runs (entry : EntryPoint) (db : FsMetaDb) (turns : List EntryTurn)
    (result : Option (RpcResult Unit)) : Prop :=
  Dialogue.Runs FsMetaDb.execEntry Others db entry.dialogue turns result

/-- The operation looks at its directories in each transaction that writes. -/
def selfChecked : EntryPoint → Bool
  | .delete _ _ => false
  | .movePath _ _ _ _ => false
  | .serviceEnsureDirInode _ => false
  | _ => true

/-- The tables of each turn are in order. -/
theorem Runs.treeInv {entry : EntryPoint} {db : FsMetaDb} {turns : List EntryTurn}
    {result : Option (RpcResult Unit)} (h : entry.Runs db turns result) :
    ∀ t ∈ turns, t.server.TreeInv := by
  unfold Runs at h
  generalize entry.dialogue = d at h
  induction h with
  | waiting s d => simp
  | done s a => simp
  | turn env hothers hrest ih =>
      intro t ht
      rcases List.mem_cons.mp ht with rfl | ht
      · exact hothers
      · exact ih t ht

/-- A dialogue whose questions all look at their directories. -/
theorem guarantees_toDialogue {α : Type} {p : Prog α} (h : p.Asks Client.SelfChecked)
    (db : FsMetaDb) :
    Dialogue.Guarantees FsMetaDb.execEntry Others (fun _ => True) Checked (fun _ _ => True) db
      p.toDialogue := by
  induction p generalizing db with
  | ret result => exact trivial
  | call c next ih =>
      exact fun db' env _ _ => ⟨checked_of_selfChecked h.1, ih _ (h.2 _) _⟩

theorem guarantees_once {c : EntryCall} (h : EntryTurn.selfChecked c = true) (db : FsMetaDb) :
    Dialogue.Guarantees FsMetaDb.execEntry Others (fun _ => True) Checked (fun _ _ => True) db
      (Dialogue.once (R := EntryCall.Answer) c) :=
  fun _ _ _ _ => ⟨checked_of_selfChecked h, trivial⟩

theorem guarantees_of_selfChecked {entry : EntryPoint} (h : entry.selfChecked = true)
    (db : FsMetaDb) :
    Dialogue.Guarantees FsMetaDb.execEntry Others (fun _ => True) Checked (fun _ _ => True) db
      entry.dialogue := by
  cases entry with
  | setFile parent name objId => exact guarantees_once rfl db
  | setDir parent name dirObjId => exact guarantees_once rfl db
  | delete parent name => cases h
  | movePath srcParent srcName dstParent dstName => cases h
  | symlink linkParent linkName target => exact guarantees_once rfl db
  | openFileWriter parent name flag expectedSize =>
      exact Dialogue.guarantees_bind (guarantees_once rfl db) fun _ _ _ => trivial
  | serviceEnsureDirInode path => cases h
  | clientEnsureDirInode path =>
      exact Dialogue.guarantees_bind
        (guarantees_toDialogue (Client.asks_ensureDirInode path) db) fun _ _ _ => trivial

/-- No operation touches a dentry below a read-only inode or one that is no directory, as
long as those whose transactions do not look at their directories find them writable. -/
theorem runs_protect {entry : EntryPoint} {db : FsMetaDb} {turns : List EntryTurn}
    {result : Option (RpcResult Unit)} (h : entry.Runs db turns result)
    (hchecked : entry.selfChecked = true ∨ ∀ t ∈ turns, t.Checked) :
    ∀ t ∈ turns, t.Protects := by
  have hall : ∀ t ∈ turns, t.Checked := by
    rcases hchecked with hself | hall
    · exact (Dialogue.Runs.good_of_guarantees h (guarantees_of_selfChecked hself db)
        fun _ _ => trivial).1
    · exact hall
  exact fun t ht => protects_of_checked (hall t ht) (h.treeInv t ht)

/-! ## A directory that is read-only -/

/-- A turn without a resolver. -/
def plainEnv : TurnEnv := ⟨.standalone 0, fun _ _ => .error "resolver"⟩

/-- A directory is made under the root, with a link in it, and becomes read-only in between:
its inode is allocated so. -/
def readOnlyDir : FsMetaDb :=
  (run MetaState.step (MetaState.init 0)
    [.row false (.allocInode 0 [] { newNode .dirNormal none (some 0) with readOnly := true } rfl),
      .row false (.createDentry 0 1 "d" (.indexNodeId 2) 0),
      .row false (.createDentry 0 2 "x" (.symLink "/y") 0)]).committed

/-- The tables that requests leave behind are in order. -/
theorem treeInv_of_run (actions : List MetaAction) :
    (run MetaState.step (MetaState.init 0) actions).committed.TreeInv :=
  (MetaState.tracks_run (MetaState.tracks_init 0) actions).tree

theorem treeInv_readOnlyDir : readOnlyDir.TreeInv := treeInv_of_run _

theorem others_refl (db : FsMetaDb) (hinv : db.TreeInv) : Others db db := hinv

/-- The turns of a call that no other interrupts. -/
def aloneTurns (entry : EntryPoint) (db : FsMetaDb) : List EntryTurn :=
  (Dialogue.alone FsMetaDb.execEntry plainEnv db entry.dialogue).1

theorem runs_aloneTurns (entry : EntryPoint) {db : FsMetaDb} (hinv : db.TreeInv) :
    entry.Runs db (entry.aloneTurns db)
      (some (Dialogue.alone FsMetaDb.execEntry plainEnv db entry.dialogue).2) :=
  Dialogue.runs_alone (fun _ _ c h => treeInv_execEntry h c) others_refl plainEnv _ hinv

/-- The link that `handle_delete` replaces by a tombstone, in a directory that is
read-only. -/
def linkRow : DentryRow := ⟨2, 2, "x", dentryTargetCols (.symLink "/y"), some 0⟩

theorem delete_in_readOnlyDir :
    (EntryPoint.delete 2 "x").Runs readOnlyDir ((EntryPoint.delete 2 "x").aloneTurns readOnlyDir)
        (some (.ok ())) ∧
      ∃ t ∈ (EntryPoint.delete 2 "x").aloneTurns readOnlyDir, ¬ t.Protects := by
  have hruns := runs_aloneTurns (EntryPoint.delete 2 "x") treeInv_readOnlyDir
  have hresult : (Dialogue.alone FsMetaDb.execEntry plainEnv readOnlyDir
      (EntryPoint.delete 2 "x").dialogue).2 = .ok () := by decide +kernel
  rw [hresult] at hruns
  refine ⟨hruns, ?_⟩
  by_contra hall
  push Not at hall
  have hkept : ((EntryPoint.delete 2 "x").aloneTurns readOnlyDir).all fun t =>
      t.server.dentries.find? 2 ≠ some linkRow || t.server.writableDir 2 ||
        t.after.dentries.find? 2 = some linkRow := by
    rw [List.all_eq_true]
    intro t ht
    have hprotects := hall t ht 2 linkRow
    by_cases hwritable : t.server.writableDir 2 = true
    · simp [hwritable]
    · by_cases hrow : t.server.dentries.find? 2 = some linkRow
      · have hprotected : t.server.writableDir 2 = false := by simpa using hwritable
        simp [(hprotects hprotected).mpr hrow]
      · simp [hrow]
  revert hkept
  decide +kernel

/-! ## Turns between others -/

/-- A request for a new inode at revision 0. -/
def newInode (state : NodeState) : MetaAction :=
  .row false (.allocInode 0 [] (newNode state none (some 0)) rfl)

/-- The root with a link and a directory in it. -/
def linkAndDir : FsMetaDb :=
  (run MetaState.step (MetaState.init 0)
    [newInode .dirNormal,
      .row false (.createDentry 0 1 "d" (.indexNodeId 2) 0),
      .row false (.createDentry 0 1 "a" (.symLink "/y") 1)]).committed

/-- Another client makes a link in that directory before a dentry is looked up. -/
def linkInDir (c : EntryCall) (db : FsMetaDb) : FsMetaDb :=
  match c with
  | .client (.getDentry _ _) => (db.execEntry plainEnv (.client (.symlink 2 "b" "/z"))).1
  | _ => db

theorem treeInv_linkAndDir : linkAndDir.TreeInv := treeInv_of_run _

theorem treeInv_linkInDir (db : FsMetaDb) (c : EntryCall) (hinv : db.TreeInv) :
    (linkInDir c db).TreeInv := by
  unfold linkInDir
  split
  · exact treeInv_execEntry hinv _
  · exact hinv

/-- The turns of a call with the other client between them. -/
def amongTurns (entry : EntryPoint) (db : FsMetaDb) : List EntryTurn :=
  (Dialogue.among FsMetaDb.execEntry linkInDir plainEnv db entry.dialogue).1.map Prod.snd

theorem runs_amongTurns (entry : EntryPoint) {db : FsMetaDb} (hinv : db.TreeInv) :
    entry.Runs db (entry.amongTurns db)
      (some (Dialogue.among FsMetaDb.execEntry linkInDir plainEnv db entry.dialogue).2) :=
  Dialogue.runs_among_of_inv (fun _ _ c h => treeInv_execEntry h c)
    (fun db c h => ⟨treeInv_linkInDir db c h, treeInv_linkInDir db c h⟩) plainEnv _ hinv

/-- A transaction that does not look at its directory is about the root, if anything. -/
def coversRoot : EntryCall → Bool
  | .client (.createTombstone parent _ _) => parent = 1
  | .client (.replaceByTombstone parent _ _ _) => parent = 1
  | c => EntryTurn.selfChecked c

theorem checked_of_coversRoot {t : EntryTurn} (hroot : t.server.writableDir 1 = true)
    (h : coversRoot t.question = true) : t.Checked := by
  unfold coversRoot at h
  unfold EntryTurn.Checked EntryTurn.Covers
  split at h
  · next hquestion =>
    rw [hquestion]
    rwa [of_decide_eq_true h]
  · next hquestion =>
    rw [hquestion]
    rwa [of_decide_eq_true h]
  · exact checked_of_selfChecked h

/-- A link is deleted in the root while another client makes one elsewhere; and a link is made
in the root, where no condition is asked. -/
theorem delete_among_links :
    ((EntryPoint.delete 1 "a").Runs linkAndDir ((EntryPoint.delete 1 "a").amongTurns linkAndDir)
        (some (.ok ())) ∧
      (∃ t ∈ (EntryPoint.delete 1 "a").amongTurns linkAndDir,
        ∃ row ∈ t.server.dentries.rows, row.name = "b") ∧
      ∀ t ∈ (EntryPoint.delete 1 "a").amongTurns linkAndDir, t.Protects) ∧
    ∃ turns, (EntryPoint.symlink 1 "a" "/b").Runs (.fresh 0) turns (some (.ok ())) ∧
      turns ≠ [] ∧ ∀ t ∈ turns, t.Protects := by
  constructor
  · have hruns := runs_amongTurns (EntryPoint.delete 1 "a") treeInv_linkAndDir
    have hresult : (Dialogue.among FsMetaDb.execEntry linkInDir plainEnv linkAndDir
        (EntryPoint.delete 1 "a").dialogue).2 = .ok () := by decide +kernel
    rw [hresult] at hruns
    have hbetween : ((EntryPoint.delete 1 "a").amongTurns linkAndDir).any fun t =>
        t.server.dentries.rows.any fun row => row.name = "b" := by decide
    obtain ⟨t, ht, hrows⟩ := List.any_eq_true.mp hbetween
    obtain ⟨row, hrow, hname⟩ := List.any_eq_true.mp hrows
    have hwritable : ((EntryPoint.delete 1 "a").amongTurns linkAndDir).all fun t =>
        t.server.writableDir 1 && coversRoot t.question := by decide +kernel
    refine ⟨hruns, ⟨t, ht, row, hrow, of_decide_eq_true hname⟩,
      runs_protect hruns (Or.inr fun t ht => ?_)⟩
    have hturn := List.all_eq_true.mp hwritable t ht
    rw [Bool.and_eq_true] at hturn
    exact checked_of_coversRoot hturn.1 hturn.2
  · have hruns := runs_aloneTurns (EntryPoint.symlink 1 "a" "/b") (FsMetaDb.treeInv_fresh 0)
    have hresult : (Dialogue.alone FsMetaDb.execEntry plainEnv (.fresh 0)
        (EntryPoint.symlink 1 "a" "/b").dialogue).2 = .ok () := by decide
    rw [hresult] at hruns
    exact ⟨_, hruns, by simp [aloneTurns, dialogue, Dialogue.once, Dialogue.alone],
      runs_protect hruns (Or.inl rfl)⟩

end EntryPoint

end FsMeta
end CyfsNdn

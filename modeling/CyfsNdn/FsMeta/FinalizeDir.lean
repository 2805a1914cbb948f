import CyfsNdn.Collections.Tally
import CyfsNdn.FsMeta.ClientChanges

/-!
# Finalizing a directory

`try_finalize_dir` reads a directory and its children one by one, puts a directory object
of them into the named store, and replaces the directory by it in one transaction, which
looks at the revisions of the directory and its parent again and removes the inodes below.

The named store and the queue of the background tasks are outside of these tables; what
they answer is part of the environment of a turn.
-/

namespace CyfsNdn
namespace FsMeta

open NdnLib Relational Collections Transition

/-- What the transaction works with. -/
structure FinalizePlan where
  parentId : IndexNodeId
  dirName : String
  parentRev0 : UInt64
  dirId : IndexNodeId
  dirRev0 : UInt64
  newDirObjId : ObjId

namespace FsMetaDb

/-- `handle_list_dentries`, in the order of the rows. -/
def listDentries (db : FsMetaDb) (parent : IndexNodeId) : RpcResult (List DentryRecord) :=
  (db.dentries.rows.filter fun row => row.parentInodeId = parent).mapM parseDentry

/-- `handle_remove_inode`; the root is the inode 1. -/
def removeInode (db : FsMetaDb) (id : IndexNodeId) : RpcResult FsMetaDb :=
  if id = 1 then .error "cannot remove root inode"
  else if (db.nodes.find? id).isNone then .error "inode not found"
  else .ok { db with nodes := db.nodes.deleteKey id }

/-- The inode of a child goes before its dentry. -/
def removeChild (db : FsMetaDb) (child : DentryRecord) : RpcResult FsMetaDb :=
  match child.target with
  | .indexNodeId id => db.removeInode id
  | _ => .ok db

/-- The loop of the transaction over the children. -/
def removeChildren (db : FsMetaDb) (now : UInt64) (dirId : IndexNodeId) :
    List DentryRecord → UInt64 → RpcResult FsMetaDb
  | [], _ => .ok db
  | child :: rest, dirRev => do
      let removed ← db.removeChild child
      let (_, deleted) ← removed.deleteDentry now dirId child.name dirRev
      deleted.removeChildren now dirId rest (dirRev + 1)

/-- What the transaction does when the directory is the one that was read. -/
def replaceByDirObj (db : FsMetaDb) (now : UInt64) (plan : FinalizePlan) : RpcResult FsMetaDb := do
  let (_, replaced) ← db.replaceTarget now plan.parentId plan.dirName (.indexNodeId plan.dirId)
    (.objId plan.newDirObjId) plan.parentRev0
  let children ← replaced.listDentries plan.dirId
  let emptied ← replaced.removeChildren now plan.dirId children plan.dirRev0
  emptied.removeInode plan.dirId

/-- The transaction of `try_finalize_dir`. -/
def finalizeDirTxn (db : FsMetaDb) (now : UInt64) (plan : FinalizePlan) : RpcResult FsMetaDb := do
  let parentNow ← db.getInodeOr plan.parentId "parent inode missing during finalize"
  if parentNow.rev.getD 0 ≠ plan.parentRev0 then throw "parent rev changed during finalize"
  match ← db.getDentry plan.parentId plan.dirName with
  | none => throw "directory dentry missing during finalize"
  | some ⟨_, _, _, .objId objId⟩ =>
      if !objId.isDirObject then throw "path is not a directory"
      return db
  | some ⟨_, _, _, .indexNodeId id⟩ =>
      if id ≠ plan.dirId then throw "directory target changed during finalize"
      let dirNow ← db.getInodeOr plan.dirId "directory inode missing during finalize"
      if dirNow.state.kind ≠ .dir then throw "path is not a directory"
      if dirNow.rev.getD 0 ≠ plan.dirRev0 then throw "directory rev changed during finalize"
      db.replaceByDirObj now plan
  | some _ => throw "directory target changed during finalize"

end FsMetaDb

/-- What `try_finalize_dir` asks. -/
inductive FinalizeCall where
  | entry (c : EntryCall)
  | listDentries (dir : IndexNodeId)
  | loadDir (base : ObjId)
  | saveDir (name : String) (children : List (String × ObjId))
  | enqueue (paths : List String)
  | commit (plan : FinalizePlan)

/-- The answer, or an error. -/
def FinalizeCall.Answer : FinalizeCall → Type
  | .entry c => c.Answer
  | .listDentries _ => RpcResult (List DentryRecord)
  | .loadDir _ => RpcResult (List (String × ObjId))
  | .saveDir _ _ => RpcResult ObjId
  | .enqueue _ => RpcResult Unit
  | .commit _ => RpcResult Unit

/-- The environment of a turn. -/
structure FinalizeEnv where
  turn : TurnEnv
  /-- `get_object` of a base and what it holds; objects embedded in it are put on their own. -/
  loadDir : ObjId → RpcResult (List (String × ObjId))
  /-- `gen_obj_id` of a directory object, and its `put_object`. -/
  saveDir : String → List (String × ObjId) → RpcResult ObjId
  /-- `enqueue_finalize_tasks`. -/
  enqueue : List String → RpcResult Unit

/-- The tables after a question, and the answer. -/
def FsMetaDb.execFinalize (db : FsMetaDb) (env : FinalizeEnv) :
    (c : FinalizeCall) → FsMetaDb × c.Answer
  | .entry c => db.execEntry env.turn c
  | .listDentries dir => (db, db.listDentries dir)
  | .loadDir base => (db, env.loadDir base)
  | .saveDir name children => (db, env.saveDir name children)
  | .enqueue paths => (db, env.enqueue paths)
  | .commit plan => db.answer (done (db.finalizeDirTxn env.turn.service.now plan))

/-- A dialogue that may fail, in the form that `do` takes. -/
abbrev Finalize (α : Type) := ExceptT String (Dialogue FinalizeCall FinalizeCall.Answer) α

/-- A dialogue with the tables alone among the others. -/
def EntryDialogue.toFinalize {α : Type} :
    EntryDialogue α → Dialogue FinalizeCall FinalizeCall.Answer (RpcResult α)
  | .ret a => .ret a
  | .ask c next => .ask (.entry c) fun reply => toFinalize (next reply)

namespace Finalize

/-- A part that asks the tables alone. -/
def ofEntry {α : Type} (d : Entry α) : Finalize α := ExceptT.mk (EntryDialogue.toFinalize d.run)

/-- A question to the tables alone. -/
def read (c : EntryCall) : Finalize c.Reply := ExceptT.mk (.once (FinalizeCall.entry c))

/-- The dentries of a directory. -/
def listDentries (dir : IndexNodeId) : Finalize (List DentryRecord) :=
  ExceptT.mk (.once (FinalizeCall.listDentries dir))

/-- The children of a directory object. -/
def loadDir (base : ObjId) : Finalize (List (String × ObjId)) :=
  ExceptT.mk (.once (FinalizeCall.loadDir base))

/-- A new directory object. -/
def saveDir (name : String) (children : List (String × ObjId)) : Finalize ObjId :=
  ExceptT.mk (.once (FinalizeCall.saveDir name children))

/-- New background tasks. -/
def enqueue (paths : List String) : Finalize Unit := ExceptT.mk (.once (FinalizeCall.enqueue paths))

/-- The transaction. -/
def commit (plan : FinalizePlan) : Finalize Unit := ExceptT.mk (.once (FinalizeCall.commit plan))

end Finalize

namespace FSMetaService

/-- `get_inode` where a missing inode is an error. -/
def inodeOr (id : IndexNodeId) (missing : String) : Finalize NodeRecord := do
  match ← Finalize.read (.client (.getInode id)) with
  | some node => return node
  | none => throw missing

/-- `resolve_symlink_child_as_obj`. -/
def resolveSymlinkChildAsObj (childPath : String) : Finalize (Option ObjId) :=
  ExceptT.mk do
    match ← (Finalize.read (.client (.resolvePathEx childPath defaultSymlinkCount))).run with
    | .error e => return .error ("resolve symlink child failed: " ++ e)
    | .ok (some ⟨.objId objId, none⟩) => return .ok (some objId)
    | .ok _ => return .ok none

/-- What is known of the children: the objects under their names, and the paths of those that
are not finalized. -/
abbrev Merged := List (String × ObjId) × List String

/-- The objects of a base directory. -/
def baseChildren : Option ObjId → Finalize (List (String × ObjId))
  | none => return []
  | some base => do
      if !base.isDirObject then
        throw ("invalid base_obj_id type for directory inode: " ++ base.objType)
      let entries ← Finalize.loadDir base
      return entries.foldl (fun merged e => putKey e.1 e.2 merged) []

/-- One child. -/
def mergeChild (dirPath : String) (child : DentryRecord) : Merged → Finalize Merged
  | (merged, pending) =>
      let childPath := joinChildPath dirPath child.name
      match child.target with
      | .tombstone => return (eraseKey child.name merged, pending)
      | .objId objId => return (putKey child.name objId merged, pending)
      | .indexNodeId id => do
          let node ← inodeOr id ("child inode " ++ toString id ++ " not found")
          match node.state.kind, node.state with
          | .dir, _ => return (merged, pending ++ [childPath])
          | _, .finalized objId _ => return (putKey child.name objId merged, pending)
          | _, _ => return (merged, pending ++ [childPath])
      | .symLink _ => do
          match ← resolveSymlinkChildAsObj childPath with
          | some objId => return (putKey child.name objId merged, pending)
          | none => return (merged, pending ++ [childPath])

/-- The loop over the children. -/
def mergeChildren (dirPath : String) : List DentryRecord → Merged → Finalize Merged
  | [], merged => return merged
  | child :: rest, merged => do
      let merged ← mergeChild dirPath child merged
      mergeChildren dirPath rest merged

/-- `try_finalize_dir` from the directory inode on. -/
def finalizeInode (dirPath : String) (parentId : IndexNodeId) (dirName : String)
    (parentRev0 : UInt64) (dirId : IndexNodeId) : Finalize Bool := do
  let dirNode ← inodeOr dirId "directory inode not found"
  if dirNode.state.kind ≠ .dir then throw "path is not a directory"
  let base ← baseChildren dirNode.baseObjId
  let children ← Finalize.listDentries dirId
  let (merged, pending) ← mergeChildren dirPath children (base, [])
  if pending ≠ [] then
    Finalize.enqueue (pending.eraseDups ++ [dirPath])
    return false
  let newDirObjId ← Finalize.saveDir dirName merged
  Finalize.commit ⟨parentId, dirName, parentRev0, dirId, dirNode.rev.getD 0, newDirObjId⟩
  return true

/-- `try_finalize_dir`, with whether there is a named store. -/
def tryFinalizeDir (hasStore : Bool) (dirPath : String) : Finalize Bool := do
  if NfsPath.isRoot dirPath then throw "finalize root directory is not supported"
  if !hasStore then throw "named store manager not configured"
  match NfsPath.splitParentName dirPath with
  | none => throw "invalid path"
  | some (parentPath, dirName) =>
      let parentId ← Finalize.ofEntry (ensureDirInode parentPath)
      let parentNode ← inodeOr parentId "parent directory not found"
      if parentNode.state.kind ≠ .dir then throw "parent is not a directory"
      match ← Finalize.read (.client (.getDentry parentId dirName)) with
      | none => throw "directory not found"
      | some ⟨_, _, _, .objId objId⟩ =>
          if !objId.isDirObject then throw "path is not a directory"
          return true
      | some ⟨_, _, _, .indexNodeId dirId⟩ =>
          finalizeInode dirPath parentId dirName (parentNode.rev.getD 0) dirId
      | some ⟨_, _, _, .symLink _⟩ => throw "path is a symbolic link"
      | some ⟨_, _, _, .tombstone⟩ => throw "directory not found"

end FSMetaService

/-! ## Listing a directory -/

namespace FsMetaDb

variable {db db' : FsMetaDb}

/-- `UNIQUE (parent_inode_id, name)`. -/
def UniqueNames (db : FsMetaDb) : Prop :=
  db.dentries.rows.Pairwise fun r s => ¬ (r.parentInodeId = s.parentInodeId ∧ r.name = s.name)

theorem dentryAt_of_mem (hunique : db.UniqueNames) {row : DentryRow}
    (hrow : row ∈ db.dentries.rows) : db.dentryAt row.parentInodeId row.name = some row := by
  have hsome : (db.dentryAt row.parentInodeId row.name).isSome = true :=
    List.find?_isSome.mpr ⟨row, hrow, by simp⟩
  obtain ⟨found, hfound⟩ := Option.isSome_iff_exists.mp hsome
  have hmem := List.mem_of_find?_eq_some hfound
  have hprop := List.find?_some hfound
  simp only [Bool.and_eq_true, decide_eq_true_eq] at hprop
  by_contra hne
  have hrows : found ≠ row := by
    rintro rfl
    exact hne hfound
  have hsymm : Std.Symm fun r s : DentryRow =>
      ¬ (r.parentInodeId = s.parentInodeId ∧ r.name = s.name) :=
    ⟨fun r s h h' => h ⟨h'.1.symm, h'.2.symm⟩⟩
  exact List.Pairwise.forall hunique hmem hrow hrows hprop

theorem uniqueNames_of_createDentry {now : UInt64} {parent : IndexNodeId} {name : String}
    {target : DentryTarget} {rev : UInt64} (h : db.createDentry now parent name target rev = .ok db')
    (hunique : db.UniqueNames) : db'.UniqueNames := by
  unfold createDentry at h
  simp only [guard_eq_ok, except_bind_eq_ok, except_pure_eq_ok] at h
  obtain ⟨-, -, hfree, inserted, hinserted, attached, hattached, rfl⟩ := h
  unfold insertDentry at hinserted
  split_ifs at hinserted
  obtain rfl := Except.ok.inj hinserted
  have hdentries := (attached_of_attachRef hattached).dentries
  change attached.dentries.rows.Pairwise _
  rw [hdentries]
  change ((db.dentries.rows.filter fun row => !decide (row.dentryId = db.dentrySeq + 1)) ++
    [db.dentryRow now parent name (dentryTargetCols target)]).Pairwise _
  refine List.pairwise_append.mpr ⟨hunique.filter _, List.pairwise_singleton _ _, ?_⟩
  rintro row hrow new hnew ⟨hparent, hname⟩
  obtain rfl := List.mem_singleton.mp hnew
  apply hfree
  refine List.find?_isSome.mpr ⟨row, (List.mem_filter.mp hrow).1, ?_⟩
  simpa [dentryRow] using ⟨hparent, hname⟩

theorem uniqueNames_of_deleteDentry {now : UInt64} {parent : IndexNodeId} {name : String}
    {rev : UInt64} {removed : Bool} (h : db.deleteDentry now parent name rev = .ok (removed, db'))
    (hunique : db.UniqueNames) : db'.UniqueNames := by
  unfold deleteDentry at h
  obtain ⟨-, -, h⟩ := except_bind_eq_ok.mp h
  split at h
  · cases h
    exact hunique
  next old hold =>
  cases h
  have hrows : ((if old.target.targetType = .inode then
      (db.removeDentryRow old.dentryId).detachRef now old.target.targetInodeId old.dentryId
      else db.removeDentryRow old.dentryId).bumpRev now parent).dentries =
        db.dentries.deleteKey old.dentryId := by
    change FsMetaDb.dentries (if _ then _ else _) = _
    split_ifs
    · exact dentries_detachRef _ now _ _
    · rfl
  unfold UniqueNames
  rw [hrows]
  exact hunique.filter _

theorem uniqueNames_of_replaceTarget {now : UInt64} {parent : IndexNodeId} {name : String}
    {old new : DentryTarget} {rev : UInt64} {changed : Bool}
    (h : db.replaceTarget now parent name old new rev = .ok (changed, db'))
    (hunique : db.UniqueNames) : db'.UniqueNames := by
  unfold replaceTarget at h
  obtain ⟨-, -, h⟩ := except_bind_eq_ok.mp h
  split at h
  · cases h
  simp only [guard_eq_ok] at h
  obtain ⟨-, h⟩ := h
  split at h
  · cases h
    exact hunique
  · simp only [except_bind_eq_ok, except_pure_eq_ok] at h
    obtain ⟨updated, hupdated, attached, hattached, heq⟩ := h
    cases heq
    have hdentries : (attached.bumpRev now parent).dentries = updated.dentries := by
      refine (attached_of_attachRef hattached).dentries.trans ?_
      split_ifs <;> simp
    unfold updateDentryTarget at hupdated
    split_ifs at hupdated
    obtain rfl := Except.ok.inj hupdated
    unfold UniqueNames
    rw [hdentries]
    change (db.dentries.rows.map _).Pairwise _
    rw [List.pairwise_map]
    refine hunique.imp fun {r s} hne => ?_
    split_ifs <;> exact hne

theorem uniqueNames_of_chain (h : Chain db db') (hunique : db.UniqueNames) : db'.UniqueNames := by
  induction h with
  | refl => exact hunique
  | tail hpath hstep ih =>
      cases hstep with
      | alloc refBy storable halloc =>
          unfold UniqueNames
          rw [(dentries_of_allocInode halloc).1]
          exact ih
      | touch htouch refBy rev clean =>
          unfold UniqueNames
          rw [htouch.dentries]
          exact ih
      | create hcreate => exact uniqueNames_of_createDentry hcreate ih
      | delete hdelete => exact uniqueNames_of_deleteDentry hdelete ih
      | replace hreplace => exact uniqueNames_of_replaceTarget hreplace ih

/-- A listing has a record for each dentry, once. -/
structure Lists (db : FsMetaDb) (dir : IndexNodeId) (children : List DentryRecord) : Prop where
  nodup : (children.map DentryRecord.name).Nodup
  sound : ∀ child ∈ children, ∃ cols, db.targetAt dir child.name = some cols ∧
    parseTarget cols = .ok child.target
  complete : ∀ name cols, db.targetAt dir name = some cols → ∃ child ∈ children, child.name = name

theorem lists_of_listDentries {dir : IndexNodeId} {children : List DentryRecord}
    (h : db.listDentries dir = .ok children) (hunique : db.UniqueNames) :
    db.Lists dir children := by
  have hparsed := mapM_eq_ok_iff_forall₂.mp h
  have hname : ∀ row record, parseDentry row = .ok record →
      record.name = row.name ∧ parseTarget row.target = .ok record.target := by
    intro row record hrecord
    obtain ⟨target, htarget, rfl⟩ := except_map_eq_ok.mp hrecord
    exact ⟨rfl, htarget⟩
  have hlisted : ∀ row ∈ db.dentries.rows.filter (fun row => row.parentInodeId = dir),
      row.parentInodeId = dir ∧ db.dentryAt dir row.name = some row := by
    intro row hrow
    obtain ⟨hmem, hdir⟩ := List.mem_filter.mp hrow
    obtain rfl : row.parentInodeId = dir := by simpa using hdir
    exact ⟨rfl, dentryAt_of_mem hunique hmem⟩
  refine ⟨?_, ?_, ?_⟩
  · have hnames : children.map DentryRecord.name =
        (db.dentries.rows.filter fun row => row.parentInodeId = dir).map DentryRow.name := by
      generalize db.dentries.rows.filter _ = rows at hparsed
      clear h
      induction hparsed with
      | nil => rfl
      | cons hrecord _ ih => rw [List.map_cons, List.map_cons, ih, (hname _ _ hrecord).1]
    rw [hnames, List.Nodup, List.pairwise_map]
    refine (hunique.filter _).imp_of_mem fun {r s} hr hs hne hsame => ?_
    exact hne ⟨(hlisted r hr).1.trans (hlisted s hs).1.symm, hsame⟩
  · intro child hchild
    obtain ⟨row, hrow, hrecord⟩ := exists_left_of_forall₂ hparsed hchild
    obtain ⟨hsame, htarget⟩ := hname row child hrecord
    refine ⟨row.target, ?_, htarget⟩
    unfold targetAt
    rw [hsame, (hlisted row hrow).2]
    rfl
  · intro name cols hcols
    obtain ⟨row, hrow, rfl⟩ := Option.map_eq_some_iff.mp hcols
    have hprop := List.find?_some hrow
    simp only [Bool.and_eq_true, decide_eq_true_eq] at hprop
    have hmem : row ∈ db.dentries.rows.filter fun row => row.parentInodeId = dir :=
      List.mem_filter.mpr ⟨List.mem_of_find?_eq_some hrow, by simpa using hprop.1⟩
    obtain ⟨child, hchild, hrecord⟩ := exists_right_of_forall₂ hparsed hmem
    exact ⟨child, hchild, (hname row child hrecord).1.trans hprop.2⟩

/-! ## What the transaction leaves -/

theorem revNumber_of_checkParentRev {dir : IndexNodeId} {rev : UInt64}
    (h : db.checkParentRev dir rev = .ok ()) : db.revNumber dir = some rev.toInt64.toInt := by
  unfold checkParentRev at h
  cases hrow : db.nodes.find? dir with
  | none =>
      rw [hrow] at h
      cases h
  | some row =>
      rw [hrow] at h
      obtain ⟨n, hget, h⟩ := except_bind_eq_ok.mp h
      have hrev : n.toUInt64 = rev := by
        by_contra hne
        rw [if_pos hne] at h
        cases h
      have hval := congrArg Counter.val (Counter.ofInt64_of_get hget)
      unfold revNumber revOf
      rw [hrow, ← hrev]
      exact congrArg some hval.symm

/-- Names elsewhere lead where they led, and inodes that are not removed are there. -/
structure Shrinks (dir : IndexNodeId) (gone : IndexNodeId → Prop) (db db' : FsMetaDb) :
    Prop where
  targets : ∀ other, other ≠ dir → ∀ name, db'.targetAt other name = db.targetAt other name
  inodes : ∀ id, ¬ gone id → (db.nodes.find? id).isSome = true →
    (db'.nodes.find? id).isSome = true

variable {dir : IndexNodeId} {gone : IndexNodeId → Prop}

theorem Shrinks.refl (db : FsMetaDb) : Shrinks dir gone db db := ⟨fun _ _ _ => rfl, fun _ _ h => h⟩

theorem Shrinks.trans {db'' : FsMetaDb} (h : Shrinks dir gone db db')
    (h' : Shrinks dir gone db' db'') : Shrinks dir gone db db'' :=
  ⟨fun other hother name => (h'.targets other hother name).trans (h.targets other hother name),
    fun id hid hsome => h'.inodes id hid (h.inodes id hid hsome)⟩

theorem shrinks_of_removeInode {id : IndexNodeId} (h : db.removeInode id = .ok db')
    (hgone : gone id) : Shrinks dir gone db db' := by
  unfold removeInode at h
  split_ifs at h
  obtain rfl := Except.ok.inj h
  refine ⟨fun other _ name => rfl, fun k hk hsome => ?_⟩
  have hne : k ≠ id := by
    rintro rfl
    exact hk hgone
  have hfind := Table.find?_deleteKey db.nodes id k
  rw [if_neg hne] at hfind
  exact (congrArg Option.isSome hfind).trans hsome

theorem shrinks_of_deleteDentry {now : UInt64} {name : String} {rev : UInt64} {removed : Bool}
    (h : db.deleteDentry now dir name rev = .ok (removed, db')) : Shrinks dir gone db db' := by
  refine ⟨fun other hother name' => targetAt_of_deleteDentry h hother name', fun k _ hsome => ?_⟩
  unfold deleteDentry at h
  obtain ⟨-, -, h⟩ := except_bind_eq_ok.mp h
  split at h
  · cases h
    exact hsome
  next old hold =>
  cases h
  rw [← revOf_isSome, revOf_bumpRev]
  split_ifs <;> simpa [revOf_isSome, find?_detachRef, removeDentryRow] using hsome

theorem shrinks_of_removeChildren {now : UInt64} {children : List DentryRecord} {rev : UInt64}
    (h : db.removeChildren now dir children rev = .ok db')
    (hgone : ∀ child ∈ children, ∀ id, child.target = .indexNodeId id → gone id) :
    Shrinks dir gone db db' := by
  induction children generalizing db rev with
  | nil =>
      cases h
      exact Shrinks.refl _
  | cons child rest ih =>
      unfold removeChildren at h
      simp only [except_bind_eq_ok] at h
      obtain ⟨removed, hremoved, ⟨done, deleted⟩, hdeleted, h⟩ := h
      have hfirst : Shrinks dir gone db removed := by
        unfold removeChild at hremoved
        split at hremoved
        · next id htarget =>
            exact shrinks_of_removeInode hremoved (hgone child List.mem_cons_self id htarget)
        · cases hremoved
          exact Shrinks.refl db
      exact (hfirst.trans (shrinks_of_deleteDentry hdeleted)).trans
        (ih h fun child hchild => hgone child (List.mem_cons_of_mem _ hchild))

/-- The name of the directory leads to the object, and no other inodes are gone than the
directory and its children. -/
structure FinalizedBy (plan : FinalizePlan) (db db' : FsMetaDb) : Prop where
  before : db.targetAt plan.parentId plan.dirName =
    some (dentryTargetCols (.indexNodeId plan.dirId))
  dir : ∃ node, db.getInode plan.dirId = .ok (some node) ∧ node.state.kind = .dir ∧
    node.rev.getD 0 = plan.dirRev0
  after : db'.targetAt plan.parentId plan.dirName =
    some (dentryTargetCols (.objId plan.newDirObjId))
  inodes : ∀ id, id ≠ plan.dirId → db.parentOf id ≠ some plan.dirId →
    (db.nodes.find? id).isSome = true → (db'.nodes.find? id).isSome = true

theorem targetInodeId_of_parseTarget {cols : TargetCols} {id : IndexNodeId}
    (h : parseTarget cols = .ok (.indexNodeId id)) : cols.targetInodeId = some id := by
  unfold parseTarget at h
  split at h
  · split at h
    · cases h
    · next found hfound =>
        cases h
        exact hfound
  · split at h
    · cases h
    · obtain ⟨objId, hobj, heq⟩ := except_map_eq_ok.mp h
      cases heq
  · cases h
  · repeat' split at h
    all_goals cases h

/-- The target of a listed inode has the directory. -/
theorem parentOf_of_listDentries {children : List DentryRecord}
    (h : db.listDentries dir = .ok children) (hinv : db.TreeInv) {child : DentryRecord}
    (hchild : child ∈ children) {id : IndexNodeId} (htarget : child.target = .indexNodeId id) :
    db.parentOf id = some dir := by
  obtain ⟨row, hrow, hrecord⟩ := exists_left_of_forall₂ (mapM_eq_ok_iff_forall₂.mp h) hchild
  obtain ⟨hmem, hdir⟩ := List.mem_filter.mp hrow
  obtain ⟨target, hparse, rfl⟩ := except_map_eq_ok.mp hrecord
  obtain rfl : target = .indexNodeId id := htarget
  have hcols := targetInodeId_of_parseTarget hparse
  have hfound := Table.find?_key_of_mem hmem
  have href := (hinv.inverse _ id).mp ((targetOf_of_find? hfound).trans hcols)
  unfold parentOf
  rw [href, Option.bind_some, hfound]
  exact congrArg some (by simpa using hdir)

theorem revNumber_of_removeChild {child : DentryRecord} (h : db.removeChild child = .ok db')
    {k : IndexNodeId} {n : Int} (hn : db'.revNumber k = some n) : db.revNumber k = some n := by
  unfold removeChild at h
  split at h
  · next id htarget =>
      unfold removeInode at h
      split_ifs at h
      obtain rfl := Except.ok.inj h
      have hfind := Table.find?_deleteKey db.nodes id k
      have hrev : (db.nodes.deleteKey id).find? k = none ∨
          (db.nodes.deleteKey id).find? k = db.nodes.find? k := by
        rw [hfind]
        split_ifs
        · exact Or.inl rfl
        · exact Or.inr rfl
      unfold revNumber revOf at hn ⊢
      rcases hrev with hrev | hrev
      · rw [hrev] at hn
        cases hn
      · rwa [hrev] at hn
  · cases h
    exact hn

/-- A directory that names itself is not finalized: its own revision has gone up. -/
theorem parentId_ne_dirId {now : UInt64} {plan : FinalizePlan} (hinv : db.TreeInv)
    (hbefore : db.targetAt plan.parentId plan.dirName =
      some (dentryTargetCols (.indexNodeId plan.dirId)))
    (hrev : db.revNumber plan.dirId = some plan.dirRev0.toInt64.toInt)
    (h : db.replaceByDirObj now plan = .ok db') : plan.parentId ≠ plan.dirId := by
  intro hself
  unfold replaceByDirObj at h
  simp only [except_bind_eq_ok] at h
  obtain ⟨⟨changed, replaced⟩, hreplace, children, hlist, emptied, hemptied, -⟩ := h
  have hthere := targetAt_of_replaceTarget hreplace plan.parentId plan.dirName
  rw [if_pos ⟨rfl, rfl⟩] at hthere
  obtain rfl | hretargets := retargets_of_replaceTarget hreplace hinv
  · rw [hbefore] at hthere
    cases hthere
  have hnumber := revNumber_of_retargets hretargets plan.dirId
  rw [hrev, Option.map_some, if_pos hself.symm] at hnumber
  cases children with
  | nil =>
      obtain ⟨row, hrow, -⟩ := Option.map_eq_some_iff.mp hthere
      have hprop := List.find?_some hrow
      simp only [Bool.and_eq_true, decide_eq_true_eq] at hprop
      obtain ⟨child, hchild, -⟩ := exists_right_of_forall₂ (mapM_eq_ok_iff_forall₂.mp hlist)
        (List.mem_filter.mpr ⟨List.mem_of_find?_eq_some hrow, by simpa [hself] using hprop.1⟩)
      cases hchild
  | cons child rest =>
      unfold removeChildren at hemptied
      simp only [except_bind_eq_ok] at hemptied
      obtain ⟨removed, hremoved, ⟨done, deleted⟩, hdeleted, -⟩ := hemptied
      unfold deleteDentry at hdeleted
      obtain ⟨⟨⟩, hcheck, -⟩ := except_bind_eq_ok.mp hdeleted
      have hchecked := revNumber_of_removeChild hremoved (revNumber_of_checkParentRev hcheck)
      rw [hnumber] at hchecked
      have hsame := Option.some.inj hchecked
      omega

/-- The transaction changes nothing, or replaces the directory that was read. -/
theorem finalizedBy_of_finalizeDirTxn {now : UInt64} {plan : FinalizePlan} (hinv : db.TreeInv)
    (h : db.finalizeDirTxn now plan = .ok db') : db' = db ∨ FinalizedBy plan db db' := by
  unfold finalizeDirTxn getInodeOr at h
  simp only [guard_eq_ok, except_bind_eq_ok, not_not] at h
  obtain ⟨parentNow, -, -, dentry, hdentry, h⟩ := h
  match dentry, hdentry, h with
  | none, _, h => cases h
  | some ⟨_, _, _, .objId objId⟩, _, h =>
      simp only [guard_eq_ok, except_pure_eq_ok] at h
      exact Or.inl h.2.symm
  | some ⟨_, _, _, .symLink path⟩, _, h => cases h
  | some ⟨_, _, _, .tombstone⟩, _, h => cases h
  | some ⟨d, p, name, .indexNodeId id⟩, hdentry, h =>
      right
      simp only [guard_eq_ok, except_bind_eq_ok, not_not] at h
      obtain ⟨rfl, dirNow, ⟨found, hfound, hnow⟩, hkind, hrev, h⟩ := h
      cases found with
      | none => cases hnow
      | some node =>
          obtain rfl := Except.ok.inj hnow
          have hnumber : db.revNumber plan.dirId = some plan.dirRev0.toInt64.toInt := by
            rw [← hrev]
            exact revNumber_of_getInode hfound
          have hreplaceDir := h
          unfold replaceByDirObj at h
          simp only [except_bind_eq_ok] at h
          obtain ⟨⟨changed, replaced⟩, hreplace, children, hlist, emptied, hemptied, hremoved⟩ := h
          have hbefore := oldTarget_of_replaceTarget hreplace
          have hne := parentId_ne_dirId hinv hbefore hnumber hreplaceDir
          have hthere := targetAt_of_replaceTarget hreplace plan.parentId plan.dirName
          rw [if_pos ⟨rfl, rfl⟩] at hthere
          obtain rfl | hretargets := retargets_of_replaceTarget hreplace hinv
          · rw [hbefore] at hthere
            cases hthere
          have hinv' := (tree_of_retargets hretargets hinv).1
          set gone : IndexNodeId → Prop := fun k =>
            k = plan.dirId ∨ db.parentOf k = some plan.dirId with hgone
          have hchildren : ∀ child ∈ children, ∀ k, child.target = .indexNodeId k → gone k := by
            intro child hchild k htarget
            have hparent := parentOf_of_listDentries hlist hinv' hchild htarget
            rcases parentOf_of_retargets hretargets hinv hparent with ⟨hnone, -⟩ | hold
            · cases hnone
            · exact Or.inr hold
          have hshrinks : Shrinks plan.dirId gone replaced db' :=
            (shrinks_of_removeChildren hemptied hchildren).trans
              (shrinks_of_removeInode hremoved (Or.inl rfl))
          refine ⟨hbefore, ⟨node, hfound, hkind, hrev⟩, ?_, fun k hdir hparent hsome => ?_⟩
          · rw [hshrinks.targets plan.parentId hne, hthere]
          · refine hshrinks.inodes k ?_ (revOf_isSome.mp
              (revOf_isSome_of_retargets hretargets (revOf_isSome.mpr hsome)))
            rintro (hk | hk)
            · exact hdir hk
            · exact hparent hk

end FsMetaDb

end FsMeta
end CyfsNdn

import CyfsNdn.FsMeta.EntryPoints
import CyfsNdn.FsMeta.NameTargets

/-!
# What clients do to the tables

Each question to the tables, of a client or of the service itself, is a sequence of the five
kinds of changes.  So each of them counts the revisions of the directories that it writes.
-/

namespace CyfsNdn
namespace FsMeta

open NdnLib Relational Collections Transition

namespace FsMetaDb

variable {db db' : FsMetaDb} {env : ServiceEnv}

theorem chain_of_replaceByDir {parent : IndexNodeId} {name : String} {old : DentryTarget}
    {parentRev : UInt64} {node : NodeRecord} {id : IndexNodeId} (hrefBy : node.refBy = none)
    (hstorable : node.state.Storable)
    (h : db.replaceByDir env parent name old parentRev node = .ok (id, db')) : Chain db db' := by
  unfold replaceByDir at h
  simp only [except_bind_eq_ok, except_pure_eq_ok] at h
  obtain ⟨⟨newId, allocated⟩, halloc, ⟨changed, replaced⟩, hreplace, heq⟩ := h
  cases heq
  exact (Chain.single (.alloc hrefBy hstorable halloc)).trans (Chain.single (.replace hreplace))

theorem chain_of_createAsDir {parent : IndexNodeId} {name : String} {parentRev : UInt64}
    {node : NodeRecord} {id : IndexNodeId} (hrefBy : node.refBy = none)
    (hstorable : node.state.Storable)
    (h : db.createAsDir env parent name parentRev node = .ok (id, db')) : Chain db db' := by
  unfold createAsDir at h
  simp only [except_bind_eq_ok, except_pure_eq_ok] at h
  obtain ⟨⟨newId, allocated⟩, halloc, created, hcreate, heq⟩ := h
  cases heq
  exact (Chain.single (.alloc hrefBy hstorable halloc)).trans (Chain.single (.create hcreate))

theorem storable_overlay {baseObjId : ObjId} : (overlayNode baseObjId).state.Storable := trivial

theorem chain_of_createDirUnderParent {parent : IndexNodeId} {name : String} {id : IndexNodeId}
    (h : db.createDirUnderParent env parent name = .ok (id, db')) : Chain db db' := by
  unfold createDirUnderParent at h
  simp only [except_bind_eq_ok] at h
  obtain ⟨parentNode, -, dentry, -, h⟩ := h
  cases dentry with
  | none => exact chain_of_createAsDir rfl storable_newDir h
  | some dentry =>
      obtain ⟨dentryId, dentryParent, dentryName, target⟩ := dentry
      cases target with
      | indexNodeId existing =>
          obtain rfl := eq_of_existingDir h
          exact Chain.refl db'
      | objId objId =>
          simp only [guard_eq_ok] at h
          exact chain_of_replaceByDir rfl storable_overlay h.2
      | tombstone => exact chain_of_replaceByDir rfl storable_newDir h
      | symLink path => cases h

theorem chain_of_materializeDirFromObj {parent : IndexNodeId} {name : String}
    {baseObjId : ObjId} {id : IndexNodeId}
    (h : db.materializeDirFromObj env parent name baseObjId = .ok (id, db')) : Chain db db' := by
  unfold materializeDirFromObj at h
  simp only [guard_eq_ok, except_bind_eq_ok] at h
  obtain ⟨-, parentNode, -, dentry, -, h⟩ := h
  cases dentry with
  | none => exact chain_of_createAsDir rfl storable_overlay h
  | some dentry =>
      obtain ⟨dentryId, dentryParent, dentryName, target⟩ := dentry
      cases target with
      | indexNodeId existing =>
          obtain rfl := eq_of_existingDir h
          exact Chain.refl db'
      | objId objId =>
          simp only [guard_eq_ok] at h
          exact chain_of_replaceByDir rfl storable_overlay h.2
      | tombstone => cases h
      | symLink path => cases h

theorem chain_of_serviceMaterializeDir {parent : IndexNodeId} {name : String} {dirObjId : ObjId}
    {id : IndexNodeId} (h : db.serviceMaterializeDir env parent name dirObjId = .ok (id, db')) :
    Chain db db' := by
  unfold serviceMaterializeDir at h
  split at h
  · cases h
  next new allocated halloc =>
  obtain ⟨parentNode, -, h⟩ := except_bind_eq_ok.mp h
  split at h
  · cases h
  next linked hlinked =>
  cases h
  exact (Chain.single (.alloc rfl storable_overlay halloc)).trans (chain_of_upsertDentry hlinked)

theorem chain_of_serviceCreateDir {parent : IndexNodeId} {name : String} {id : IndexNodeId}
    (h : db.serviceCreateDir env parent name = .ok (id, db')) : Chain db db' := by
  have hnew : ∀ {new : IndexNodeId} {after : FsMetaDb},
      (do
        let new ← db.allocInode env.now env.candidates (newNode .dirNormal none (some 0))
        let parentNode ← new.2.getInodeOr parent "inode not found"
        let linked ←
          new.2.upsertDentry env.now parent name (.indexNodeId new.1) (parentNode.rev.getD 0)
        return (new.1, linked) : RpcResult (IndexNodeId × FsMetaDb)) = .ok (new, after) →
      Chain db after := by
    intro new after hdo
    simp only [except_bind_eq_ok, except_pure_eq_ok] at hdo
    obtain ⟨⟨id, allocated⟩, halloc, parentNode, -, linked, hlinked, heq⟩ := hdo
    cases heq
    exact (Chain.single (.alloc rfl storable_newDir halloc)).trans (chain_of_upsertDentry hlinked)
  unfold serviceCreateDir at h
  obtain ⟨dentry, -, h⟩ := except_bind_eq_ok.mp h
  cases dentry with
  | none => exact hnew h
  | some dentry =>
      obtain ⟨dentryId, dentryParent, dentryName, target⟩ := dentry
      cases target with
      | indexNodeId existing =>
          simp only [guard_eq_ok, except_bind_eq_ok, except_pure_eq_ok] at h
          obtain ⟨node, -, -, heq⟩ := h
          cases heq
          exact Chain.refl db
      | tombstone => exact hnew h
      | objId objId => cases h
      | symLink path => cases h

theorem chain_of_answer {α : Type} {result : RpcResult (α × FsMetaDb)}
    (h : ∀ a after, result = .ok (a, after) → Chain db after) : Chain db (db.answer result).1 := by
  cases result with
  | error e => exact Chain.refl db
  | ok pair => exact h pair.1 pair.2 rfl

/-- What a question does is a sequence of elementary changes. -/
theorem chain_execEntry (db : FsMetaDb) (env : TurnEnv) (c : EntryCall) :
    Chain db (db.execEntry env c).1 := by
  cases c with
  | client c =>
      cases c with
      | getInode id => exact Chain.refl db
      | getDentry parent name => exact Chain.refl db
      | resolvePathEx path symCount => exact Chain.refl db
      | createDirUnderParent parent name =>
          exact chain_of_answer fun _ _ h => chain_of_createDirUnderParent h
      | materializeDirFromObj parent name baseObjId =>
          exact chain_of_answer fun _ _ h => chain_of_materializeDirFromObj h
      | setDir parent name dirObjId =>
          exact chain_of_answer fun _ _ h => chain_of_setDir (done_eq_ok.mp h)
      | symlink linkParent linkName target =>
          exact chain_of_answer fun _ _ h => chain_of_symlink (done_eq_ok.mp h)
      | createDir parent name =>
          exact chain_of_answer fun _ _ h => chain_of_createDir (done_eq_ok.mp h)
      | createTombstone parent name expectedParentRev =>
          exact chain_of_answer fun _ _ h => Chain.single (.create (done_eq_ok.mp h))
      | replaceByTombstone parent name expectedOldTarget expectedParentRev =>
          refine chain_of_answer fun _ after h => ?_
          obtain ⟨⟨changed, replaced⟩, hreplace, rfl⟩ := except_map_eq_ok.mp (done_eq_ok.mp h)
          exact Chain.single (.replace hreplace)
      | applyMovePlan plan =>
          exact chain_of_answer fun _ _ h => chain_of_applyMovePlan (done_eq_ok.mp h)
  | setFile parent name objId =>
      exact chain_of_answer fun _ _ h => chain_of_setFile (done_eq_ok.mp h)
  | openFileWriter parent name flag expectedSize =>
      exact chain_of_answer fun _ _ h => chain_of_openFileWriter h
  | lookupBaseDirobjChild dirNode name => exact Chain.refl db
  | serviceCreateDir parent name => exact chain_of_answer fun _ _ h => chain_of_serviceCreateDir h
  | serviceMaterializeDir parent name dirObjId =>
      exact chain_of_answer fun _ _ h => chain_of_serviceMaterializeDir h

/-- Whatever a question does, revisions are counted up. -/
theorem counted_execEntry {db : FsMetaDb} (env : TurnEnv) (c : EntryCall) (hinv : db.TreeInv) :
    Counted db (db.execEntry env c).1 :=
  counted_of_chain (chain_execEntry db env c) hinv

end FsMetaDb

end FsMeta
end CyfsNdn

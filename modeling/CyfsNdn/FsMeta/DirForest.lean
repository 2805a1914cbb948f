import CyfsNdn.Collections.Forest
import CyfsNdn.FsMeta.DentryTree

/-!
# The directories form a forest

Following `ref_by` to a dentry and from there to its directory climbs the tree.  A dentry
operation gives at most one inode another directory, so the tables stay a forest as long
as that directory is not the inode itself or below it.  A new inode has nothing below it;
tombstones, objects and links move no inode at all; what is left is moving a path.
-/

namespace CyfsNdn
namespace FsMeta

open NdnLib Relational Collections Relation

namespace FsMetaDb

/-- The directory of the dentry that targets an inode. -/
def parentOf (db : FsMetaDb) (id : IndexNodeId) : Option IndexNodeId :=
  (db.refOf id).bind fun d => (db.dentries.find? d).map DentryRow.parentInodeId

/-- The tables are a forest of inodes. -/
structure ForestInv (db : FsMetaDb) : Prop where
  tree : db.TreeInv
  parents : ∀ d row, db.dentries.find? d = some row →
    (db.revOf row.parentInodeId).isSome = true
  forest : Forest db.parentOf

variable {db db' : FsMetaDb} {env : ServiceEnv}

theorem revOf_isSome {id : IndexNodeId} :
    (db.revOf id).isSome = true ↔ (db.nodes.find? id).isSome = true := by
  unfold revOf
  rw [Option.isSome_map]

/-- An inode without a directory is one that no dentry targets. -/
theorem refOf_of_parentOf_eq_none (hinv : db.TreeInv) {id : IndexNodeId}
    (h : db.parentOf id = none) : db.refOf id = none := by
  cases href : db.refOf id with
  | none => rfl
  | some d =>
      have htarget := (hinv.inverse d id).mpr href
      unfold targetOf at htarget
      obtain ⟨row, hrow, -⟩ := Option.bind_eq_some_iff.mp htarget
      unfold parentOf at h
      rw [href, Option.bind_some, hrow] at h
      cases h

/-- After a dentry operation an inode has the directory of before, or it is the new target
and has the directory of the dentry. -/
theorem parentOf_of_retargets {parent : IndexNodeId} {target : Option IndexNodeId}
    (h : Retargets db db' parent target) (hinv : db.TreeInv) {c q : IndexNodeId}
    (hq : db'.parentOf c = some q) : target = some c ∧ q = parent ∨ db.parentOf c = some q := by
  obtain ⟨middle, d, newRow, now, expected, u, hret, htarget, -, rfl⟩ := h
  have hrows : ∀ k, (middle.bumpRev now parent).dentries.find? k =
      if k = d then newRow else db.dentries.find? k := hret.rows
  unfold parentOf at hq
  obtain ⟨d', href, hfound⟩ := Option.bind_eq_some_iff.mp hq
  obtain ⟨row, hrow, hq'⟩ := Option.map_eq_some_iff.mp hfound
  rw [refOf_bumpRev, hret.refs, htarget] at href
  rw [hrows] at hrow
  split_ifs at href with hnew hold
  · -- the new target: its dentry is the one that was written
    cases href
    rw [if_pos rfl] at hrow
    exact Or.inl ⟨hnew, hq'.symm.trans (hret.parentOf row (Or.inr hrow))⟩
  · -- another inode: its dentry is another one
    have hd : d' ≠ d := by
      rintro rfl
      exact hold ((hinv.inverse d' c).mpr href)
    rw [if_neg hd] at hrow
    right
    unfold parentOf
    rw [href, Option.bind_some, hrow, Option.map_some, hq']

theorem revOf_isSome_of_retargets {parent : IndexNodeId} {target : Option IndexNodeId}
    (h : Retargets db db' parent target) {k : IndexNodeId}
    (hk : (db.revOf k).isSome = true) : (db'.revOf k).isSome = true := by
  obtain ⟨middle, d, newRow, now, expected, u, hret, -, -, rfl⟩ := h
  rw [revOf_bumpRev, hret.revs]
  split_ifs
  · rw [Option.isSome_map]
    exact hk
  · exact hk

/-- A dentry operation keeps the forest when its target, if an inode, is not the directory
of the dentry or above it. -/
theorem forestInv_of_retargets {parent : IndexNodeId} {target : Option IndexNodeId}
    (h : Retargets db db' parent target)
    (hsafe : ∀ m, target = some m → ¬ AtOrBelow db.parentOf m parent) (hinv : db.ForestInv) :
    db'.ForestInv := by
  refine ⟨(tree_of_retargets h hinv.tree).1, ?_, ?_⟩
  · intro k row hrow
    apply revOf_isSome_of_retargets h
    obtain ⟨middle, d, newRow, now, expected, u, hret, -, hcheck, rfl⟩ := h
    change middle.dentries.find? k = some row at hrow
    rw [hret.rows] at hrow
    split_ifs at hrow
    · rw [hret.parentOf row (Or.inr hrow)]
      obtain ⟨rev, hrev, -⟩ := exists_of_checkParentRev hcheck
      rw [hrev]
      rfl
    · exact hinv.parents k row hrow
  · cases target with
    | none =>
        refine hinv.forest.of_le fun c q hq => ?_
        rcases parentOf_of_retargets h hinv.tree hq with ⟨hnone, -⟩ | hold
        · cases hnone
        · exact hold
    | some m =>
        refine hinv.forest.attach (hsafe m rfl) fun c q hq => ?_
        rcases parentOf_of_retargets h hinv.tree hq with ⟨hc, hparent⟩ | hold
        · exact Or.inl ⟨(Option.some.inj hc).symm, hparent⟩
        · exact Or.inr hold

theorem forestInv_of_upsertDentry {now : UInt64} {parent : IndexNodeId} {name : String}
    {target : DentryTarget} {rev : UInt64}
    (h : db.upsertDentry now parent name target rev = .ok db')
    (hsafe : ∀ m, (dentryTargetCols target).targetInodeId = some m →
      ¬ AtOrBelow db.parentOf m parent)
    (hinv : db.ForestInv) : db'.ForestInv := by
  unfold upsertDentry at h
  obtain ⟨existing, -, h⟩ := except_bind_eq_ok.mp h
  cases existing with
  | none => exact forestInv_of_retargets (retargets_of_createDentry h hinv.tree) hsafe hinv
  | some existing =>
      obtain ⟨⟨changed, replaced⟩, hreplace, h⟩ := except_bind_eq_ok.mp h
      cases h
      rcases retargets_of_replaceTarget hreplace hinv.tree with heq | hwrote
      · cases heq
        exact hinv
      · exact forestInv_of_retargets hwrote hsafe hinv

/-- What an upsert of anything leaves is below what was. -/
theorem parentOf_of_setTombstone {now : UInt64} {parent : IndexNodeId} {name : String}
    {rev : UInt64} (h : db.setTombstone now parent name rev = .ok db') (hinv : db.TreeInv)
    (c q : IndexNodeId) (hq : db'.parentOf c = some q) : db.parentOf c = some q := by
  have hretargets : db' = db ∨ Retargets db db' parent none := by
    unfold setTombstone upsertDentry at h
    obtain ⟨existing, -, h⟩ := except_bind_eq_ok.mp h
    cases existing with
    | none => exact Or.inr (retargets_of_createDentry h hinv)
    | some existing =>
        obtain ⟨⟨changed, replaced⟩, hreplace, h⟩ := except_bind_eq_ok.mp h
        cases h
        exact retargets_of_replaceTarget hreplace hinv
  obtain rfl | hwrote := hretargets
  · exact hq
  · rcases parentOf_of_retargets hwrote hinv hq with ⟨hnone, -⟩ | hold
    · cases hnone
    · exact hold

theorem forestInv_of_setTombstone {now : UInt64} {parent : IndexNodeId} {name : String}
    {rev : UInt64} (h : db.setTombstone now parent name rev = .ok db')
    (hinv : db.ForestInv) : db'.ForestInv :=
  forestInv_of_upsertDentry h (fun _ hm => by cases hm) hinv

/-! ## New inodes -/

theorem parentOf_of_allocInode {now : UInt64} {candidates : List IndexNodeId}
    {node : NodeRecord} {id : IndexNodeId}
    (h : db.allocInode now candidates node = .ok (id, db')) (hrefBy : node.refBy = none)
    (k : IndexNodeId) : db'.parentOf k = db.parentOf k := by
  have hrefs : db'.refOf k = db.refOf k := by
    unfold refOf
    rw [find?_of_allocInode h]
    split_ifs with hk
    · rw [hk, find?_none_of_allocInode h]
      exact hrefBy
    · rfl
  unfold parentOf
  rw [hrefs, (dentries_of_allocInode h).1]

theorem forestInv_of_allocInode {now : UInt64} {candidates : List IndexNodeId}
    {node : NodeRecord} {id : IndexNodeId}
    (h : db.allocInode now candidates node = .ok (id, db')) (hrefBy : node.refBy = none)
    (hinv : db.ForestInv) : db'.ForestInv := by
  have hparent := parentOf_of_allocInode h hrefBy
  refine ⟨(tree_of_allocInode h hrefBy hinv.tree).1, ?_, ?_⟩
  · intro d row hrow
    rw [(dentries_of_allocInode h).1] at hrow
    have hsome := hinv.parents d row hrow
    rw [revOf_isSome] at hsome ⊢
    rw [find?_of_allocInode h]
    split_ifs
    · rfl
    · exact hsome
  · refine hinv.forest.of_le fun c q hq => ?_
    rwa [hparent] at hq

/-- Nothing is below a new inode. -/
theorem not_below_new {now : UInt64} {candidates : List IndexNodeId} {node : NodeRecord}
    {id parent : IndexNodeId} (h : db.allocInode now candidates node = .ok (id, db'))
    (hrefBy : node.refBy = none) (hinv : db.ForestInv)
    (hparent : (db.nodes.find? parent).isSome = true) : ¬ AtOrBelow db'.parentOf id parent := by
  have hfresh := find?_none_of_allocInode h
  intro hbelow
  rcases hbelow.cases_head with heq | ⟨c, hc, -⟩
  · rw [← heq, hfresh] at hparent
    cases hparent
  · -- a child of the new inode would have a dentry in it
    change db'.parentOf c = some id at hc
    rw [parentOf_of_allocInode h hrefBy] at hc
    unfold parentOf at hc
    obtain ⟨d, -, hrow⟩ := Option.bind_eq_some_iff.mp hc
    obtain ⟨row, hrow, hid⟩ := Option.map_eq_some_iff.mp hrow
    have hsome := hinv.parents d row hrow
    rw [revOf_isSome, hid, hfresh] at hsome
    cases hsome

theorem forestInv_of_allocAt {parent : IndexNodeId} {parentRev : UInt64} {name : String}
    {node : NodeRecord} {id : IndexNodeId}
    (h : db.allocAt env parent parentRev name node = .ok (id, db')) (hrefBy : node.refBy = none)
    (hparent : (db.nodes.find? parent).isSome = true) (hinv : db.ForestInv) :
    db'.ForestInv := by
  unfold allocAt at h
  simp only [except_bind_eq_ok, except_pure_eq_ok] at h
  obtain ⟨⟨newId, allocated⟩, halloc, linked, hlinked, heq⟩ := h
  cases heq
  refine forestInv_of_upsertDentry hlinked ?_ (forestInv_of_allocInode halloc hrefBy hinv)
  intro m hm
  cases hm
  exact not_below_new halloc hrefBy hinv hparent

/-! ## The handlers -/

theorem isSome_of_getInodeOr {id : IndexNodeId} {missing : String} {node : NodeRecord}
    (h : db.getInodeOr id missing = .ok node) : (db.nodes.find? id).isSome = true := by
  obtain ⟨row, hrow, -⟩ := exists_row_of_getInodeOr h
  rw [hrow]
  rfl

theorem isSome_of_parentForWrite {parent : IndexNodeId} {missing : String} {node : NodeRecord}
    (h : db.parentForWrite parent missing = .ok node) :
    (db.nodes.find? parent).isSome = true := by
  unfold parentForWrite at h
  obtain ⟨found, hfound, -⟩ := except_bind_eq_ok.mp h
  exact isSome_of_getInodeOr hfound

theorem forestInv_of_putNewName {parent : IndexNodeId} {name : String} {target : DentryTarget}
    (htarget : (dentryTargetCols target).targetInodeId = none)
    (h : db.putNewName env parent name target = .ok db') (hinv : db.ForestInv) :
    db'.ForestInv := by
  unfold putNewName at h
  simp only [except_bind_eq_ok] at h
  obtain ⟨parentNode, -, -, -, h⟩ := h
  refine forestInv_of_upsertDentry h (fun m hm => ?_) hinv
  rw [htarget] at hm
  cases hm

theorem forestInv_of_setDir {parent : IndexNodeId} {name : String} {dirObjId : ObjId}
    (h : db.setDir env parent name dirObjId = .ok db') (hinv : db.ForestInv) :
    db'.ForestInv := by
  unfold setDir at h
  simp only [guard_eq_ok] at h
  exact forestInv_of_putNewName rfl h.2.2 hinv

theorem forestInv_of_symlink {parent : IndexNodeId} {name target : String}
    (h : db.symlink env parent name target = .ok db') (hinv : db.ForestInv) :
    db'.ForestInv := by
  unfold symlink at h
  simp only [guard_eq_ok] at h
  exact forestInv_of_putNewName rfl h.2.2 hinv

theorem forestInv_of_createDir {parent : IndexNodeId} {name : String}
    (h : db.createDir env parent name = .ok db') (hinv : db.ForestInv) : db'.ForestInv := by
  unfold createDir at h
  simp only [guard_eq_ok, except_bind_eq_ok, except_pure_eq_ok] at h
  obtain ⟨-, parentNode, hparent, -, -, ⟨id, linked⟩, hlinked, rfl⟩ := h
  exact forestInv_of_allocAt hlinked rfl (isSome_of_parentForWrite hparent) hinv

/-- A move keeps the forest when the destination is outside of what moves. -/
theorem forestInv_of_applyMovePlan {plan : MovePlan}
    (h : db.applyMovePlan env plan = .ok db')
    (hsafe : ∀ m, plan.target = .indexNodeId m → ¬ AtOrBelow db.parentOf m plan.dstParent)
    (hinv : db.ForestInv) : db'.ForestInv := by
  unfold applyMovePlan at h
  simp only [guard_eq_ok, except_bind_eq_ok] at h
  obtain ⟨-, -, -, -, -, -, -, removed, hremoved, h⟩ := h
  refine forestInv_of_upsertDentry h ?_ (forestInv_of_setTombstone hremoved hinv)
  intro m hm hbelow
  have htarget : plan.target = .indexNodeId m := by
    cases htarget : plan.target with
    | indexNodeId id =>
        rw [htarget] at hm
        cases hm
        rfl
    | _ =>
        rw [htarget] at hm
        cases hm
  exact hsafe m htarget
    (hbelow.of_le (parentOf_of_setTombstone hremoved hinv.tree))

end FsMetaDb

end FsMeta
end CyfsNdn

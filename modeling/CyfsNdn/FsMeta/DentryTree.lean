import CyfsNdn.Collections.BackReference
import CyfsNdn.FsMeta.Elementary
import CyfsNdn.Transition.Run

/-!
# Dentries and inodes stay in bijection

The column `ref_by` of an inode and the target of a dentry are kept inverse to each other
by three operations, with conditional updates.  In terms of the two columns each of them
gives one dentry another target, which the library lemma on back references covers.  The
same three operations, and no others, count the revision of the parent up by one.

Requests come one by one or inside a transaction.  A transaction that is open holds the
write lock from its first statement, so it works on a copy of the committed tables that
nobody else changes, and every other writer fails until it ends.
-/

namespace CyfsNdn
namespace FsMeta

open NdnLib Relational Collections Relation Transition

namespace FsMetaDb

/-- The inode that a dentry targets. -/
def targetOf (db : FsMetaDb) (d : Nat) : Option IndexNodeId :=
  (db.dentries.find? d).bind fun row => row.target.targetInodeId

/-- The dentry that an inode refers back to. -/
def refOf (db : FsMetaDb) (id : IndexNodeId) : Option Nat :=
  (db.nodes.find? id).bind NodeRow.refBy

/-- The revision of an inode, as its column has it. -/
def revOf (db : FsMetaDb) (id : IndexNodeId) : Option (Option Counter) :=
  (db.nodes.find? id).map NodeRow.rev

/-- The invariant of the two tables.  The second field is the `CHECK` of the table. -/
structure TreeInv (db : FsMetaDb) : Prop where
  inverse : Inverse db.targetOf db.refOf
  shaped : ∀ d row, db.dentries.find? d = some row →
    (row.target.targetType = .inode ↔ row.target.targetInodeId.isSome = true)
  bounded : ∀ d row, db.dentries.find? d = some row → d ≤ db.dentrySeq

/-- Neither a dentry nor the revision of an inode changes. -/
structure Quiet (db db' : FsMetaDb) : Prop where
  dentries : ∀ d, db'.dentries.find? d = db.dentries.find? d
  revs : ∀ id rev, db.revOf id = some rev → db'.revOf id = some rev

/-- One dentry of a parent is inserted, deleted or gets another target; the revision of the
parent goes up by one and that of every other inode that is there stays. -/
structure DentryChange (db db' : FsMetaDb) (parent : IndexNodeId) (d : Nat) : Prop where
  others : ∀ k, k ≠ d → db'.dentries.find? k = db.dentries.find? k
  changed : db'.dentries.find? d ≠ db.dentries.find? d
  parentOf : ∀ row, db.dentries.find? d = some row ∨ db'.dentries.find? d = some row →
    row.parentInodeId = parent
  bumped : ∃ old new, db.revOf parent = some old ∧ db'.revOf parent = some new ∧
    (Counter.coalesce new).val = (Counter.coalesce old).val + 1
  revs : ∀ id, id ≠ parent → ∀ rev, db.revOf id = some rev → db'.revOf id = some rev

/-- One change as a reader of the tables sees it. -/
def TreeStep (db db' : FsMetaDb) : Prop :=
  Quiet db db' ∨ ∃ parent d, DentryChange db db' parent d

theorem Quiet.refl (db : FsMetaDb) : Quiet db db := ⟨fun _ => rfl, fun _ _ h => h⟩

theorem Quiet.trans {a b c : FsMetaDb} (hab : Quiet a b) (hbc : Quiet b c) : Quiet a c :=
  ⟨fun d => (hbc.dentries d).trans (hab.dentries d),
    fun id rev h => hbc.revs id rev (hab.revs id rev h)⟩

/-- What keeps still before a change is part of it, when the parent is there. -/
theorem DentryChange.of_quiet {a b c : FsMetaDb} {parent : IndexNodeId} {d : Nat}
    (hab : Quiet a b) (hbc : DentryChange b c parent d) (hparent : (a.revOf parent).isSome) :
    DentryChange a c parent d where
  others := fun k hk => (hbc.others k hk).trans (hab.dentries k)
  changed := by
    rw [← hab.dentries d]
    exact hbc.changed
  parentOf := by
    rw [← hab.dentries d]
    exact hbc.parentOf
  bumped := by
    obtain ⟨rev, hrev⟩ := Option.isSome_iff_exists.mp hparent
    obtain ⟨old, new, hold, hnew, hone⟩ := hbc.bumped
    obtain rfl := Option.some.inj ((hab.revs parent rev hrev).symm.trans hold)
    exact ⟨rev, new, hrev, hnew, hone⟩
  revs := fun id hid rev hrev => hbc.revs id hid rev (hab.revs id rev hrev)

/-- What keeps still afterwards is part of the change. -/
theorem DentryChange.quiet {a b c : FsMetaDb} {parent : IndexNodeId} {d : Nat}
    (hab : DentryChange a b parent d) (hbc : Quiet b c) : DentryChange a c parent d where
  others := fun k hk => (hbc.dentries k).trans (hab.others k hk)
  changed := by
    rw [hbc.dentries d]
    exact hab.changed
  parentOf := by
    rw [hbc.dentries d]
    exact hab.parentOf
  bumped := by
    obtain ⟨old, new, hold, hnew, hone⟩ := hab.bumped
    exact ⟨old, new, hold, hbc.revs parent new hnew, hone⟩
  revs := fun id hid rev hrev => hbc.revs id rev (hab.revs id hid rev hrev)

theorem TreeStep.quiet {a b c : FsMetaDb} (hab : TreeStep a b) (hbc : Quiet b c) :
    TreeStep a c := by
  rcases hab with hab | ⟨parent, d, hab⟩
  · exact .inl (hab.trans hbc)
  · exact .inr ⟨parent, d, hab.quiet hbc⟩

section Columns

variable {db db' : FsMetaDb}

/-! ## What the statements do to the two columns and the revision -/

theorem find?_bumpRev (db : FsMetaDb) (now : UInt64) (parent k : IndexNodeId) :
    (db.bumpRev now parent).nodes.find? k =
      if k = parent then (db.nodes.find? k).map (NodeRow.bumped now) else db.nodes.find? k :=
  Table.find?_updateKey db.nodes parent k (NodeRow.bumped now) fun _ => rfl

@[simp] theorem refOf_bumpRev (db : FsMetaDb) (now : UInt64) (parent k : IndexNodeId) :
    (db.bumpRev now parent).refOf k = db.refOf k := by
  unfold refOf
  rw [find?_bumpRev]
  split
  · cases db.nodes.find? k <;> rfl
  · rfl

theorem revOf_bumpRev (db : FsMetaDb) (now : UInt64) (parent k : IndexNodeId) :
    (db.bumpRev now parent).revOf k =
      if k = parent then (db.revOf k).map fun rev => some (Counter.coalesce rev).addOne
      else db.revOf k := by
  unfold revOf
  rw [find?_bumpRev]
  split
  · cases db.nodes.find? k <;> rfl
  · rfl

theorem find?_detachRef (db : FsMetaDb) (now : UInt64) (target : Option IndexNodeId) (d : Nat)
    (k : IndexNodeId) :
    (db.detachRef now target d).nodes.find? k = (db.nodes.find? k).map fun row =>
      if target = some k ∧ row.refBy = some d then row.withRefBy now none else row := by
  cases target with
  | none =>
      show db.nodes.find? k = _
      cases db.nodes.find? k <;> simp
  | some id =>
      have hfind := Table.find?_updateWhere db.nodes
        (fun row => row.inodeId = id && row.refBy = some d) (NodeRow.withRefBy now none)
        (fun _ => rfl) k
      refine hfind.trans ?_
      cases hrow : db.nodes.find? k with
      | none => rfl
      | some row =>
          have hkey := Table.key_of_find? hrow
          have hcond : (decide (row.inodeId = id) && decide (row.refBy = some d)) = true ↔
              some id = some k ∧ row.refBy = some d := by
            rw [Bool.and_eq_true, decide_eq_true_eq, decide_eq_true_eq, hkey, Option.some.injEq,
              @eq_comm _ k id]
          simp only [Option.map_some, hcond]

theorem refOf_detachRef (db : FsMetaDb) (now : UInt64) (target : Option IndexNodeId) (d : Nat)
    (k : IndexNodeId) :
    (db.detachRef now target d).refOf k =
      if target = some k ∧ db.refOf k = some d then none else db.refOf k := by
  unfold refOf
  rw [find?_detachRef]
  cases db.nodes.find? k with
  | none => simp
  | some row =>
      simp only [Option.map_some, Option.bind_some]
      split_ifs <;> rfl

@[simp] theorem revOf_detachRef (db : FsMetaDb) (now : UInt64) (target : Option IndexNodeId)
    (d : Nat) (k : IndexNodeId) : (db.detachRef now target d).revOf k = db.revOf k := by
  unfold revOf
  rw [find?_detachRef]
  cases db.nodes.find? k with
  | none => rfl
  | some row =>
      simp only [Option.map_some]
      split_ifs <;> rfl

@[simp] theorem dentries_detachRef (db : FsMetaDb) (now : UInt64) (target : Option IndexNodeId)
    (d : Nat) : (db.detachRef now target d).dentries = db.dentries := by
  cases target <;> rfl

@[simp] theorem dentrySeq_detachRef (db : FsMetaDb) (now : UInt64)
    (target : Option IndexNodeId) (d : Nat) :
    (db.detachRef now target d).dentrySeq = db.dentrySeq := by
  cases target <;> rfl

theorem refOf_of_touch {id : IndexNodeId} {row row' : NodeRow} (h : Touch db db' id row row')
    (k : IndexNodeId) : db'.refOf k = if k = id then row'.refBy else db.refOf k := by
  unfold refOf
  rw [h.nodes]
  split <;> rfl

/-- A row that keeps its revision. -/
theorem revOf_of_touch {id : IndexNodeId} {row row' : NodeRow} (h : Touch db db' id row row')
    (hrev : row'.rev = row.rev) (k : IndexNodeId) : db'.revOf k = db.revOf k := by
  unfold revOf
  rw [h.nodes]
  split_ifs with hk
  · rw [hk, h.found, Option.map_some, Option.map_some, hrev]
  · rfl

/-- A reference that was set: the inode was free or the dentry's already. -/
structure Attached (db db' : FsMetaDb) (target : Option IndexNodeId) (d : Nat) : Prop where
  refs : ∀ k, db'.refOf k = if target = some k then some d else db.refOf k
  revs : ∀ k, db'.revOf k = db.revOf k
  dentries : db'.dentries = db.dentries
  dentrySeq : db'.dentrySeq = db.dentrySeq
  free : ∀ k, target = some k → db.refOf k = none ∨ db.refOf k = some d

theorem attached_of_attachRef {now : UInt64} {target : Option IndexNodeId} {d : Nat}
    (h : db.attachRef now target d = .ok db') : Attached db db' target d := by
  cases target with
  | none =>
      cases h
      exact ⟨fun k => by simp, fun _ => rfl, rfl, rfl, fun _ h => by cases h⟩
  | some id =>
      unfold attachRef at h
      cases hrow : db.nodes.find? id with
      | none =>
          simp only [hrow] at h
          cases h
      | some row =>
          simp only [hrow] at h
          split_ifs at h with hfree
          have htouch : Touch db db' id row (row.withRefBy now (some d)) := by
            cases h
            exact touch_updateKey hrow
          refine ⟨?_, ?_, htouch.dentries, htouch.dentrySeq, ?_⟩
          · intro k
            rw [refOf_of_touch htouch]
            by_cases hk : k = id
            · rw [if_pos hk, if_pos (by rw [hk])]
              rfl
            · rw [if_neg hk, if_neg (fun heq => hk (Option.some.inj heq).symm)]
          · intro k
            exact revOf_of_touch htouch rfl k
          · intro k hk
            cases hk
            unfold refOf
            rw [hrow]
            show row.refBy = none ∨ row.refBy = some d
            cases href : row.refBy with
            | none => exact Or.inl rfl
            | some other =>
                rw [href] at hfree
                simp only [Option.all_some, decide_eq_true_eq] at hfree
                exact Or.inr (by rw [hfree])

theorem exists_of_checkParentRev {parent : IndexNodeId} {expected : UInt64} {u : Unit}
    (h : db.checkParentRev parent expected = .ok u) :
    ∃ rev, db.revOf parent = some rev ∧
      (Counter.coalesce rev).addOne.val = (Counter.coalesce rev).val + 1 := by
  unfold checkParentRev at h
  cases hrow : db.nodes.find? parent with
  | none =>
      simp only [hrow] at h
      cases h
  | some row =>
      simp only [hrow] at h
      obtain ⟨n, hn, -⟩ := except_bind_eq_ok.mp h
      refine ⟨row.rev, ?_, Counter.val_addOne_of_get hn⟩
      unfold revOf
      rw [hrow]
      rfl

/-- The row that a name of a directory has. -/
theorem mem_of_dentryAt {parent : IndexNodeId} {name : String} {row : DentryRow}
    (h : db.dentryAt parent name = some row) :
    db.dentries.find? row.dentryId = some row ∧ row.parentInodeId = parent := by
  have hmem := List.mem_of_find?_eq_some h
  have hprop := List.find?_some h
  simp only [Bool.and_eq_true, decide_eq_true_eq] at hprop
  exact ⟨Table.find?_key_of_mem hmem, hprop.1⟩

theorem targetOf_of_find? {d : Nat} {row : DentryRow} (h : db.dentries.find? d = some row) :
    db.targetOf d = row.target.targetInodeId := by
  unfold targetOf
  rw [h]
  rfl

theorem isSome_targetInodeId_dentryTargetCols (target : DentryTarget) :
    (dentryTargetCols target).targetType = .inode ↔
      (dentryTargetCols target).targetInodeId.isSome = true := by
  cases target <;> simp [dentryTargetCols]

end Columns

/-! ## The five kinds of changes -/

section Changes

variable {db db' : FsMetaDb}

theorem treeInv_of_congr (hinv : db.TreeInv) (hdentries : ∀ d, db'.dentries.find? d = db.dentries.find? d)
    (hseq : db'.dentrySeq = db.dentrySeq) (hrefs : ∀ k, db'.refOf k = db.refOf k) :
    db'.TreeInv := by
  refine ⟨hinv.inverse.congr ?_ hrefs, ?_, ?_⟩
  · intro d
    unfold targetOf
    rw [hdentries]
  · intro d row hrow
    rw [hdentries] at hrow
    exact hinv.shaped d row hrow
  · intro d row hrow
    rw [hdentries] at hrow
    rw [hseq]
    exact hinv.bounded d row hrow

theorem le_foldl_max (l : List Int) (a : Int) : a ≤ l.foldl max a ∧ ∀ x ∈ l, x ≤ l.foldl max a := by
  induction l generalizing a with
  | nil => simp
  | cons y rest ih =>
      obtain ⟨hstart, hrest⟩ := ih (max a y)
      refine ⟨(le_max_left a y).trans hstart, ?_⟩
      intro x hx
      rcases List.mem_cons.mp hx with rfl | hx
      · exact (le_max_right a x).trans hstart
      · exact hrest x hx

/-- The rowid of a new inode is not in the table. -/
theorem find?_of_nextInodeId {candidates : List IndexNodeId} {id : IndexNodeId}
    (h : db.nextInodeId candidates = .ok id) : db.nodes.find? id = none := by
  unfold nextInodeId at h
  dsimp only at h
  split_ifs at h with hlargest
  · -- one above the largest signed number is the number of no row
    rw [Except.ok.injEq] at h
    obtain ⟨hzero, hle⟩ := le_foldl_max (db.nodes.rows.map fun row => rowid row.inodeId) 0
    generalize (db.nodes.rows.map fun row => rowid row.inodeId).foldl max 0 = largest at *
    rw [Table.find?_eq_none_iff]
    intro row hrow hkey
    have hrowLe := hle (rowid row.inodeId) (List.mem_map.mpr ⟨row, hrow, rfl⟩)
    rw [hkey] at hrowLe
    have hid : ((id : Nat) : Int) = largest + 1 := by
      rw [← h]
      exact Int.toNat_of_nonneg (by omega)
    have hsmall : ((id : Nat) : Int) < 2 ^ 63 := by omega
    have hrowid : rowid id = ((id : Nat) : Int) := if_pos (by exact_mod_cast hsmall)
    rw [hrowid] at hrowLe
    omega
  · split at h
    · rename_i free hfree
      cases h
      have hnone := List.find?_some hfree
      exact Option.isNone_iff_eq_none.mp hnone
    · cases h

theorem find?_none_of_allocInode {now : UInt64} {candidates : List IndexNodeId}
    {node : NodeRecord} {id : IndexNodeId}
    (h : db.allocInode now candidates node = .ok (id, db')) : db.nodes.find? id = none := by
  unfold allocInode at h
  split at h
  · simp only [except_bind_eq_ok, except_pure_eq_ok] at h
    obtain ⟨next, hnext, heq⟩ := h
    cases heq
    exact find?_of_nextInodeId hnext
  · split at h
    · cases h
    · rename_i hnone
      cases h
      simpa using hnone

theorem dentries_of_allocInode {now : UInt64} {candidates : List IndexNodeId}
    {node : NodeRecord} {id : IndexNodeId}
    (h : db.allocInode now candidates node = .ok (id, db')) :
    db'.dentries = db.dentries ∧ db'.dentrySeq = db.dentrySeq := by
  unfold allocInode at h
  split at h
  · simp only [except_bind_eq_ok, except_pure_eq_ok] at h
    obtain ⟨next, hnext, heq⟩ := h
    cases heq
    exact ⟨rfl, rfl⟩
  · split at h
    · cases h
    · cases h
      exact ⟨rfl, rfl⟩

/-- A new inode without a reference is in no relation to a dentry. -/
theorem tree_of_allocInode {now : UInt64} {candidates : List IndexNodeId} {node : NodeRecord}
    {id : IndexNodeId} (h : db.allocInode now candidates node = .ok (id, db'))
    (hrefBy : node.refBy = none) (hinv : db.TreeInv) : db'.TreeInv ∧ Quiet db db' := by
  have hfresh := find?_none_of_allocInode h
  obtain ⟨hdentries, hseq⟩ := dentries_of_allocInode h
  constructor
  · refine treeInv_of_congr hinv (fun d => by rw [hdentries]) hseq ?_
    intro k
    unfold refOf
    rw [find?_of_allocInode h]
    split_ifs with hk
    · rw [hk, hfresh]
      exact hrefBy
    · rfl
  · refine ⟨fun d => by rw [hdentries], ?_⟩
    intro k rev hrev
    unfold revOf at hrev ⊢
    rw [find?_of_allocInode h]
    split_ifs with hk
    · rw [hk, hfresh] at hrev
      cases hrev
    · exact hrev

theorem tree_of_touch {id : IndexNodeId} {row row' : NodeRow} (h : Touch db db' id row row')
    (hrefBy : row'.refBy = row.refBy) (hrev : row'.rev = row.rev) (hinv : db.TreeInv) :
    db'.TreeInv ∧ Quiet db db' := by
  constructor
  · refine treeInv_of_congr hinv (fun d => by rw [h.dentries]) h.dentrySeq ?_
    intro k
    rw [refOf_of_touch h]
    split_ifs with hk
    · rw [hk, hrefBy]
      unfold refOf
      rw [h.found]
      rfl
    · rfl
  · refine ⟨fun d => by rw [h.dentries], ?_⟩
    intro k rev hk
    rw [revOf_of_touch h hrev]
    exact hk

/-- The tables right before the bump that ends a dentry operation: the row of one dentry was
replaced and the references follow. -/
structure Retargeted (db middle : FsMetaDb) (parent : IndexNodeId) (d : Nat)
    (newRow : Option DentryRow) : Prop where
  rows : ∀ k, middle.dentries.find? k = if k = d then newRow else db.dentries.find? k
  changed : newRow ≠ db.dentries.find? d
  parentOf : ∀ row, db.dentries.find? d = some row ∨ newRow = some row →
    row.parentInodeId = parent
  shaped : ∀ row, newRow = some row →
    (row.target.targetType = .inode ↔ row.target.targetInodeId.isSome = true)
  bounded : ∀ row, newRow = some row → d ≤ middle.dentrySeq
  dentrySeq : db.dentrySeq ≤ middle.dentrySeq
  refs : ∀ k, middle.refOf k =
    if (newRow.bind fun row => row.target.targetInodeId) = some k then some d
    else if db.targetOf d = some k then none else db.refOf k
  free : ∀ k, (newRow.bind fun row => row.target.targetInodeId) = some k →
    db.refOf k = none ∨ db.refOf k = some d
  revs : ∀ k, middle.revOf k = db.revOf k

/-- A dentry operation that wrote: a dentry of the parent got the target, if any. -/
def Retargets (db db' : FsMetaDb) (parent : IndexNodeId) (target : Option IndexNodeId) : Prop :=
  ∃ middle d newRow now expected u, Retargeted db middle parent d newRow ∧
    (newRow.bind fun row => row.target.targetInodeId) = target ∧
    db.checkParentRev parent expected = .ok u ∧ db' = middle.bumpRev now parent

theorem change_of_retargets {parent : IndexNodeId} {target : Option IndexNodeId}
    (hwrote : Retargets db db' parent target) (hinv : db.TreeInv) :
    db'.TreeInv ∧ ∃ d, DentryChange db db' parent d := by
  obtain ⟨middle, d, newRow, now, expected, u, h, -, hcheck, rfl⟩ := hwrote
  have hrows : ∀ k, (middle.bumpRev now parent).dentries.find? k =
      if k = d then newRow else db.dentries.find? k := h.rows
  constructor
  · refine ⟨hinv.inverse.retarget ?_ ?_ h.free, ?_, ?_⟩
    · intro k
      unfold targetOf
      rw [hrows]
      split_ifs <;> rfl
    · intro k
      rw [refOf_bumpRev, h.refs]
    · intro k row hrow
      rw [hrows] at hrow
      split_ifs at hrow
      · exact h.shaped row hrow
      · exact hinv.shaped k row hrow
    · intro k row hrow
      show k ≤ middle.dentrySeq
      rw [hrows] at hrow
      split_ifs at hrow with hk
      · rw [hk]
        exact h.bounded row hrow
      · exact (hinv.bounded k row hrow).trans h.dentrySeq
  · obtain ⟨rev, hrev, hone⟩ := exists_of_checkParentRev hcheck
    refine ⟨d, ?_, ?_, ?_, ?_, ?_⟩
    · intro k hk
      rw [hrows, if_neg hk]
    · rw [hrows, if_pos rfl]
      exact h.changed
    · intro row hrow
      rw [hrows, if_pos rfl] at hrow
      exact h.parentOf row hrow
    · refine ⟨rev, some (Counter.coalesce rev).addOne, hrev, ?_, hone⟩
      rw [revOf_bumpRev, if_pos rfl, h.revs, hrev]
      rfl
    · intro k hk rev hrev
      rw [revOf_bumpRev, if_neg hk, h.revs]
      exact hrev

theorem tree_of_retargets {parent : IndexNodeId} {target : Option IndexNodeId}
    (hwrote : Retargets db db' parent target) (hinv : db.TreeInv) :
    db'.TreeInv ∧ TreeStep db db' := by
  obtain ⟨hafter, d, hchange⟩ := change_of_retargets hwrote hinv
  exact ⟨hafter, .inr ⟨parent, d, hchange⟩⟩

/-- The dentry that `handle_create_dentry` adds has a new id. -/
theorem retargets_of_createDentry {now : UInt64} {parent : IndexNodeId} {name : String}
    {target : DentryTarget} {expected : UInt64}
    (h : db.createDentry now parent name target expected = .ok db') (hinv : db.TreeInv) :
    Retargets db db' parent (dentryTargetCols target).targetInodeId := by
  unfold createDentry at h
  simp only [guard_eq_ok, except_bind_eq_ok, except_pure_eq_ok] at h
  obtain ⟨u, hcheck, -, inserted, hinserted, attached, hattached, rfl⟩ := h
  unfold insertDentry at hinserted
  split_ifs at hinserted
  rw [Except.ok.injEq] at hinserted
  subst hinserted
  have hatt := attached_of_attachRef hattached
  have hnew : db.dentries.find? (db.dentrySeq + 1) = none := by
    cases hfind : db.dentries.find? (db.dentrySeq + 1) with
    | none => rfl
    | some row =>
        have hle := hinv.bounded _ row hfind
        omega
  have hnone : db.targetOf (db.dentrySeq + 1) = none := by
    unfold targetOf
    rw [hnew]
    rfl
  refine ⟨attached, db.dentrySeq + 1,
    some (db.dentryRow now parent name (dentryTargetCols target)), now, expected, u, ?_, rfl,
    hcheck, rfl⟩
  refine ⟨?_, ?_, ?_, ?_, ?_, ?_, ?_, hatt.free, hatt.revs⟩
  · intro k
    rw [hatt.dentries]
    exact Table.find?_insertOrReplace _ _ _
  · rw [hnew]
    simp
  · rintro row (hrow | hrow)
    · rw [hnew] at hrow
      cases hrow
    · cases hrow
      rfl
  · intro row hrow
    cases hrow
    exact isSome_targetInodeId_dentryTargetCols target
  · intro row hrow
    rw [hatt.dentrySeq]
  · rw [hatt.dentrySeq]
    exact Nat.le_succ _
  · intro k
    rw [hatt.refs, hnone, if_neg (by simp : ¬ (none : Option IndexNodeId) = some k)]
    rfl

theorem retargets_of_deleteDentry {now : UInt64} {parent : IndexNodeId} {name : String}
    {expected : UInt64} {removed : Bool}
    (h : db.deleteDentry now parent name expected = .ok (removed, db')) (hinv : db.TreeInv) :
    db' = db ∨ Retargets db db' parent none := by
  unfold deleteDentry at h
  obtain ⟨u, hcheck, h⟩ := except_bind_eq_ok.mp h
  cases hat : db.dentryAt parent name with
  | none =>
      rw [hat] at h
      cases h
      exact Or.inl rfl
  | some old =>
      rw [hat] at h
      obtain ⟨hold, hparent⟩ := mem_of_dentryAt hat
      -- without an inode target the reference of no inode goes
      have hdetach : (if old.target.targetType = .inode then
            (db.removeDentryRow old.dentryId).detachRef now old.target.targetInodeId old.dentryId
          else db.removeDentryRow old.dentryId) =
          (db.removeDentryRow old.dentryId).detachRef now old.target.targetInodeId
            old.dentryId := by
        split_ifs with htype
        · rfl
        · have hnone : old.target.targetInodeId = none := by
            rw [← Option.not_isSome_iff_eq_none, ← hinv.shaped _ old hold]
            exact htype
          rw [hnone]
          rfl
      simp only [hdetach, except_pure_eq_ok, Prod.mk.injEq] at h
      obtain ⟨-, rfl⟩ := h
      refine Or.inr ⟨_, old.dentryId, none, now, expected, u, ?_, rfl, hcheck, rfl⟩
      refine ⟨?_, ?_, ?_, ?_, ?_, ?_, ?_, ?_, ?_⟩
      · intro k
        rw [dentries_detachRef]
        exact Table.find?_deleteKey _ _ _
      · rw [hold]
        simp
      · rintro row (hrow | hrow)
        · rw [hold] at hrow
          cases hrow
          exact hparent
        · cases hrow
      · intro row hrow
        cases hrow
      · intro row hrow
        cases hrow
      · rw [dentrySeq_detachRef]
        exact le_refl _
      · intro k
        rw [refOf_detachRef, targetOf_of_find? hold]
        show (if _ ∧ db.refOf k = _ then none else db.refOf k) = _
        by_cases hk : old.target.targetInodeId = some k
        · have href : db.refOf k = some old.dentryId :=
            (hinv.inverse _ _).mp ((targetOf_of_find? hold).trans hk)
          simp [hk, href]
        · simp [hk]
      · intro k hk
        cases hk
      · intro k
        rw [revOf_detachRef]
        rfl

/-- The tables after the reference of the old target went, where another one comes. -/
structure DetachedOld (db detached updated : FsMetaDb) (old : DentryRow) (new : TargetCols) :
    Prop where
  dentries : detached.dentries = updated.dentries
  dentrySeq : detached.dentrySeq = db.dentrySeq
  revs : ∀ k, detached.revOf k = db.revOf k
  refs : ∀ k, new.targetInodeId ≠ some k → detached.refOf k =
    if old.target.targetInodeId = some k then none else db.refOf k
  free : ∀ k, detached.refOf k = none ∨ detached.refOf k = some old.dentryId →
    db.refOf k = none ∨ db.refOf k = some old.dentryId

theorem detachedOld_of_inv {updated : FsMetaDb} {old : DentryRow} {at' : UInt64}
    {cols : TargetCols} (hinv : db.TreeInv)
    (hold : db.dentries.find? old.dentryId = some old)
    (hupdated : db.updateDentryTarget at' old.dentryId cols = .ok updated) (now : UInt64)
    (new : TargetCols) :
    DetachedOld db
      (if old.target.targetType = .inode ∧ old.target.targetInodeId ≠ new.targetInodeId then
        updated.detachRef now old.target.targetInodeId old.dentryId
      else updated) updated old new := by
  obtain ⟨hseq, hnodes⟩ : updated.dentrySeq = db.dentrySeq ∧ updated.nodes = db.nodes := by
    unfold updateDentryTarget at hupdated
    split_ifs at hupdated
    cases hupdated
    exact ⟨rfl, rfl⟩
  have hrefs : ∀ k, updated.refOf k = db.refOf k := fun k => by
    unfold refOf
    rw [hnodes]
  have hrevs : ∀ k, updated.revOf k = db.revOf k := fun k => by
    unfold revOf
    rw [hnodes]
  -- an inode that the old row targets refers to it
  have hown : ∀ k, old.target.targetInodeId = some k → db.refOf k = some old.dentryId :=
    fun k hk => (hinv.inverse _ _).mp ((targetOf_of_find? hold).trans hk)
  by_cases hcond : old.target.targetType = .inode ∧
      old.target.targetInodeId ≠ new.targetInodeId
  · rw [if_pos hcond]
    refine ⟨dentries_detachRef _ _ _ _, ?_, ?_, ?_, ?_⟩
    · rw [dentrySeq_detachRef, hseq]
    · intro k
      rw [revOf_detachRef, hrevs]
    · intro k _
      rw [refOf_detachRef, hrefs]
      by_cases hk : old.target.targetInodeId = some k
      · rw [if_pos ⟨hk, hown k hk⟩, if_pos hk]
      · rw [if_neg (fun h => hk h.1), if_neg hk]
    · intro k hfree
      rw [refOf_detachRef, hrefs] at hfree
      split_ifs at hfree with hk
      · exact Or.inr hk.2
      · exact hfree
  · rw [if_neg hcond]
    refine ⟨rfl, hseq, hrevs, ?_, ?_⟩
    · intro k hnew
      have hk : old.target.targetInodeId ≠ some k := by
        intro hk
        apply hcond
        refine ⟨(hinv.shaped _ old hold).mpr (by rw [hk]; rfl), ?_⟩
        rw [hk]
        exact Ne.symm hnew
      rw [if_neg hk, hrefs]
    · intro k hfree
      rw [hrefs] at hfree
      exact hfree

theorem retargets_of_replaceTarget {now : UInt64} {parent : IndexNodeId} {name : String}
    {oldTarget newTarget : DentryTarget} {expected : UInt64} {changed : Bool}
    (h : db.replaceTarget now parent name oldTarget newTarget expected = .ok (changed, db'))
    (hinv : db.TreeInv) :
    db' = db ∨ Retargets db db' parent (dentryTargetCols newTarget).targetInodeId := by
  unfold replaceTarget at h
  obtain ⟨u, hcheck, h⟩ := except_bind_eq_ok.mp h
  cases hat : db.dentryAt parent name with
  | none =>
      rw [hat] at h
      cases h
  | some old =>
      rw [hat] at h
      obtain ⟨hold, hparent⟩ := mem_of_dentryAt hat
      have htarget := targetOf_of_find? hold
      simp only [guard_eq_ok] at h
      obtain ⟨-, h⟩ := h
      split at h
      · cases h
        exact Or.inl rfl
      rename_i hsame
      simp only [except_bind_eq_ok, except_pure_eq_ok] at h
      obtain ⟨updated, hupdated, attached, hattached, heq⟩ := h
      cases heq
      have hdet := detachedOld_of_inv hinv hold hupdated now (dentryTargetCols newTarget)
      generalize (if old.target.targetType = .inode ∧ old.target.targetInodeId ≠
          (dentryTargetCols newTarget).targetInodeId then
        updated.detachRef now old.target.targetInodeId old.dentryId else updated) = detached
        at hattached hdet
      have hatt := attached_of_attachRef hattached
      refine Or.inr ⟨attached, old.dentryId,
        some (old.retargeted now (dentryTargetCols newTarget)), now, expected, u, ?_, rfl,
        hcheck, rfl⟩
      unfold updateDentryTarget at hupdated
      split_ifs at hupdated
      rw [Except.ok.injEq] at hupdated
      refine ⟨?_, ?_, ?_, ?_, ?_, ?_, ?_, ?_, ?_⟩
      · intro k
        rw [hatt.dentries, hdet.dentries, ← hupdated]
        refine (Table.find?_updateKey db.dentries old.dentryId k
          (DentryRow.retargeted now (dentryTargetCols newTarget)) fun _ => rfl).trans ?_
        by_cases hk : k = old.dentryId
        · rw [if_pos hk, if_pos hk, hk, hold]
          rfl
        · rw [if_neg hk, if_neg hk]
      · rw [hold]
        intro heq
        exact hsame (congrArg DentryRow.target (Option.some.inj heq)).symm
      · rintro row (hrow | hrow)
        · rw [hold] at hrow
          cases hrow
          exact hparent
        · cases hrow
          exact hparent
      · intro row hrow
        cases hrow
        exact isSome_targetInodeId_dentryTargetCols newTarget
      · intro row hrow
        rw [hatt.dentrySeq, hdet.dentrySeq]
        exact hinv.bounded _ old hold
      · rw [hatt.dentrySeq, hdet.dentrySeq]
      · intro k
        rw [hatt.refs, htarget]
        show (if (dentryTargetCols newTarget).targetInodeId = some k then _ else _) =
          if (dentryTargetCols newTarget).targetInodeId = some k then _ else _
        split_ifs with hnew hk
        · rfl
        · rw [hdet.refs k hnew, if_pos hk]
        · rw [hdet.refs k hnew, if_neg hk]
      · intro k hk
        exact hdet.free k (hatt.free k hk)
      · intro k
        rw [hatt.revs, hdet.revs]

theorem tree_of_createDentry {now : UInt64} {parent : IndexNodeId} {name : String}
    {target : DentryTarget} {expected : UInt64}
    (h : db.createDentry now parent name target expected = .ok db') (hinv : db.TreeInv) :
    db'.TreeInv ∧ TreeStep db db' :=
  tree_of_retargets (retargets_of_createDentry h hinv) hinv

theorem tree_of_eq_or_retargets {parent : IndexNodeId} {target : Option IndexNodeId}
    (h : db' = db ∨ Retargets db db' parent target) (hinv : db.TreeInv) :
    db'.TreeInv ∧ TreeStep db db' := by
  obtain rfl | h := h
  · exact ⟨hinv, Or.inl (Quiet.refl db')⟩
  · exact tree_of_retargets h hinv

/-- Each kind of change keeps the two columns inverse, and is quiet or a change of one
dentry. -/
theorem tree_of_elementary (h : Elementary db db') (hinv : db.TreeInv) :
    db'.TreeInv ∧ TreeStep db db' := by
  cases h with
  | alloc refBy storable h => exact (tree_of_allocInode h refBy hinv).imp_right .inl
  | touch h refBy rev clean => exact (tree_of_touch h refBy rev hinv).imp_right .inl
  | create h => exact tree_of_createDentry h hinv
  | delete h => exact tree_of_eq_or_retargets (retargets_of_deleteDentry h hinv) hinv
  | replace h => exact tree_of_eq_or_retargets (retargets_of_replaceTarget h hinv) hinv

/-- The same for a sequence of changes. -/
theorem tree_of_chain (h : Chain db db') (hinv : db.TreeInv) :
    db'.TreeInv ∧ ReflTransGen TreeStep db db' := by
  induction h with
  | refl => exact ⟨hinv, ReflTransGen.refl⟩
  | tail _ hstep ih =>
      obtain ⟨hmiddle, hpath⟩ := ih
      obtain ⟨hafter, hone⟩ := tree_of_elementary hstep hmiddle
      exact ⟨hafter, hpath.tail hone⟩

end Changes

end FsMetaDb

end FsMeta
end CyfsNdn

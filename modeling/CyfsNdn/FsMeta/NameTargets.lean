import CyfsNdn.FsMeta.DentryTree

/-!
# What the names of a directory lead to

A name leads to the target of its dentry, and without a dentry to what the base object of
the directory has under it; a tombstone leads nowhere.  Each dentry operation changes the
target of one name, and counts the revision of its directory up when it does.
-/

namespace CyfsNdn
namespace FsMeta

open NdnLib Relational Collections Relation

/-- A name of a directory. -/
@[ext] structure DirName where
  dir : IndexNodeId
  name : String
deriving DecidableEq

namespace FsMetaDb

/-- The target of the dentry of a name. -/
def targetAt (db : FsMetaDb) (dir : IndexNodeId) (name : String) : Option TargetCols :=
  (db.dentryAt dir name).map DentryRow.target

/-- The base object of a directory. -/
def baseOf (db : FsMetaDb) (dir : IndexNodeId) : Option (List UInt8) :=
  (db.nodes.find? dir).bind NodeRow.baseObjId

/-- What a name leads to, where `child` says what base objects hold. -/
def leadsTo (db : FsMetaDb) (child : List UInt8 → String → Option ObjId) (dir : IndexNodeId)
    (name : String) : Option TargetCols :=
  match db.targetAt dir name with
  | some target => if target.targetType = .tombstone then none else some target
  | none => (db.baseOf dir).bind fun base =>
      (child base name).map fun objId => dentryTargetCols (.objId objId)

/-- What the name of a directory leads to. -/
def leads (db : FsMetaDb) (child : List UInt8 → String → Option ObjId) (at' : DirName) :
    Option TargetCols :=
  db.leadsTo child at'.dir at'.name

/-- The number in the revision of an inode. -/
def revNumber (db : FsMetaDb) (dir : IndexNodeId) : Option Int :=
  (db.revOf dir).map fun rev => (Counter.coalesce rev).val

variable {db db' : FsMetaDb}

/-! ## One name -/

section Leads

variable {child : List UInt8 → String → Option ObjId}

theorem leads_of_targetAt {dir : IndexNodeId} {name : String} {target : TargetCols}
    (h : db.targetAt dir name = some target) :
    db.leads child ⟨dir, name⟩ = if target.targetType = .tombstone then none else some target := by
  unfold leads leadsTo
  rw [h]

theorem leads_congr {at' : DirName}
    (htarget : db'.targetAt at'.dir at'.name = db.targetAt at'.dir at'.name)
    (hbase : db'.baseOf at'.dir = db.baseOf at'.dir) :
    db'.leads child at' = db.leads child at' := by
  unfold leads leadsTo
  rw [htarget, hbase]

end Leads

/-- The dentry of a name reads as a target. -/
def Reads (db : FsMetaDb) (at' : DirName) (target : DentryTarget) : Prop :=
  ∃ cols, db.targetAt at'.dir at'.name = some cols ∧ parseTarget cols = .ok target

theorem reads_of_getDentry {dir : IndexNodeId} {name : String} {dentry : DentryRecord}
    (h : db.getDentry dir name = .ok (some dentry)) : db.Reads ⟨dir, name⟩ dentry.target := by
  unfold getDentry at h
  cases hrow : db.dentryAt dir name with
  | none =>
      rw [hrow] at h
      cases h
  | some row =>
      rw [hrow] at h
      obtain ⟨parsed, hparsed, heq⟩ := except_map_eq_ok.mp h
      obtain rfl := Option.some.inj heq
      obtain ⟨target, htarget, rfl⟩ := except_map_eq_ok.mp hparsed
      refine ⟨row.target, ?_, htarget⟩
      unfold targetAt
      rw [hrow]
      rfl


theorem targetAt_congr (h : db'.dentries = db.dentries) (dir : IndexNodeId) (name : String) :
    db'.targetAt dir name = db.targetAt dir name := by
  unfold targetAt dentryAt
  rw [h]

/-- An insert of a dentry where there was none. -/
theorem targetAt_of_insertDentry {now : UInt64} {parent : IndexNodeId} {name : String}
    {target : TargetCols} (h : db.insertDentry now parent name target = .ok db')
    (hfree : db.dentryAt parent name = none) (hinv : db.TreeInv) (dir : IndexNodeId)
    (name' : String) :
    db'.targetAt dir name' =
      if dir = parent ∧ name' = name then some target else db.targetAt dir name' := by
  have hnew : ∀ row ∈ db.dentries.rows, row.dentryId ≠ db.dentrySeq + 1 := by
    intro row hrow heq
    have hbound := hinv.bounded _ row (Table.find?_key_of_mem hrow)
    omega
  unfold insertDentry at h
  split_ifs at h
  obtain rfl := Except.ok.inj h
  have hrows : (db.dentries.insertOrReplace (db.dentryRow now parent name target)).rows =
      db.dentries.rows ++ [db.dentryRow now parent name target] := by
    change (db.dentries.rows.filter fun row =>
      !decide (row.dentryId = db.dentrySeq + 1)) ++ [_] = _
    rw [List.filter_eq_self.mpr fun row hrow => by simpa using hnew row hrow]
  unfold targetAt dentryAt
  dsimp only
  rw [hrows, List.find?_append]
  by_cases hname : dir = parent ∧ name' = name
  · obtain ⟨rfl, rfl⟩ := hname
    unfold dentryAt at hfree
    rw [hfree, if_pos ⟨rfl, rfl⟩]
    simp [dentryRow]
  · have hother : ¬ (parent = dir ∧ name = name') := fun h => hname ⟨h.1.symm, h.2.symm⟩
    rw [if_neg hname]
    simp [dentryRow, hother]

/-- An update of the dentry of a name. -/
theorem targetAt_of_updateDentryTarget {now : UInt64} {parent : IndexNodeId} {name : String}
    {target : TargetCols} {old : DentryRow} (hold : db.dentryAt parent name = some old)
    (h : db.updateDentryTarget now old.dentryId target = .ok db') (dir : IndexNodeId)
    (name' : String) :
    db'.targetAt dir name' =
      if dir = parent ∧ name' = name then some target else db.targetAt dir name' := by
  unfold updateDentryTarget at h
  split_ifs at h
  obtain rfl := Except.ok.inj h
  have hfind : ∀ dir name', (db.dentries.updateKey old.dentryId
      (DentryRow.retargeted now target) fun _ => rfl).rows.find?
        (fun row => row.parentInodeId = dir && row.name = name') =
      (db.dentryAt dir name').map fun row =>
        if row.dentryId = old.dentryId then row.retargeted now target else row := by
    intro dir name'
    change (db.dentries.rows.map _).find? _ = _
    rw [List.find?_map]
    unfold dentryAt
    congr 1
    · funext row
      simp
    · congr 1
      funext row
      simp only [Function.comp_apply]
      split_ifs <;> rfl
  obtain ⟨hfound, hparent⟩ := mem_of_dentryAt hold
  have hprop := List.find?_some hold
  simp only [Bool.and_eq_true, decide_eq_true_eq] at hprop
  change ((db.dentries.updateKey old.dentryId (DentryRow.retargeted now target)
    fun _ => rfl).rows.find? fun row => row.parentInodeId = dir && row.name = name').map _ = _
  rw [hfind]
  by_cases hname : dir = parent ∧ name' = name
  · obtain ⟨rfl, rfl⟩ := hname
    rw [hold, if_pos ⟨rfl, rfl⟩]
    simp [DentryRow.retargeted]
  · rw [if_neg hname]
    unfold targetAt
    cases hrow : db.dentryAt dir name' with
    | none => rfl
    | some row =>
        have hprop' := List.find?_some hrow
        simp only [Bool.and_eq_true, decide_eq_true_eq] at hprop'
        have hne : row.dentryId ≠ old.dentryId := by
          intro heq
          have hsame : row = old := by
            have hfound' := (mem_of_dentryAt hrow).1
            rw [heq, hfound] at hfound'
            exact (Option.some.inj hfound').symm
          subst hsame
          exact hname ⟨hprop'.1.symm.trans hprop.1, hprop'.2.symm.trans hprop.2⟩
        simp [hne]

/-! ## The dentry operations -/

theorem targetAt_of_createDentry {now : UInt64} {parent : IndexNodeId} {name : String}
    {target : DentryTarget} {expected : UInt64}
    (h : db.createDentry now parent name target expected = .ok db') (hinv : db.TreeInv)
    (dir : IndexNodeId) (name' : String) :
    db'.targetAt dir name' =
      if dir = parent ∧ name' = name then some (dentryTargetCols target)
      else db.targetAt dir name' := by
  unfold createDentry at h
  simp only [guard_eq_ok, except_bind_eq_ok, except_pure_eq_ok] at h
  obtain ⟨-, -, hfree, inserted, hinserted, attached, hattached, rfl⟩ := h
  have hdentries : (attached.bumpRev now parent).dentries = inserted.dentries :=
    (attached_of_attachRef hattached).dentries
  rw [targetAt_congr hdentries]
  exact targetAt_of_insertDentry hinserted (by simpa using hfree) hinv dir name'

/-- What is replaced is there as it is written. -/
theorem oldTarget_of_replaceTarget {now : UInt64} {parent : IndexNodeId} {name : String}
    {oldTarget newTarget : DentryTarget} {expected : UInt64} {changed : Bool}
    (h : db.replaceTarget now parent name oldTarget newTarget expected = .ok (changed, db')) :
    db.targetAt parent name = some (dentryTargetCols oldTarget) := by
  unfold replaceTarget at h
  obtain ⟨-, -, h⟩ := except_bind_eq_ok.mp h
  split at h
  · cases h
  next old hold =>
  simp only [guard_eq_ok] at h
  unfold targetAt
  rw [hold, Option.map_some, not_not.mp h.1]

theorem targetAt_of_replaceTarget {now : UInt64} {parent : IndexNodeId} {name : String}
    {oldTarget newTarget : DentryTarget} {expected : UInt64} {changed : Bool}
    (h : db.replaceTarget now parent name oldTarget newTarget expected = .ok (changed, db'))
    (dir : IndexNodeId) (name' : String) :
    db'.targetAt dir name' =
      if dir = parent ∧ name' = name then some (dentryTargetCols newTarget)
      else db.targetAt dir name' := by
  unfold replaceTarget at h
  obtain ⟨-, -, h⟩ := except_bind_eq_ok.mp h
  split at h
  · cases h
  next old hold =>
  simp only [guard_eq_ok] at h
  obtain ⟨-, h⟩ := h
  split at h
  · -- The target is there already.
    next hsame =>
      cases h
      by_cases hname : dir = parent ∧ name' = name
      · obtain ⟨rfl, rfl⟩ := hname
        rw [if_pos ⟨rfl, rfl⟩, ← hsame]
        unfold targetAt
        rw [hold]
        rfl
      · rw [if_neg hname]
  · simp only [except_bind_eq_ok, except_pure_eq_ok] at h
    obtain ⟨updated, hupdated, attached, hattached, heq⟩ := h
    cases heq
    have hdentries : (attached.bumpRev now parent).dentries = updated.dentries := by
      refine (attached_of_attachRef hattached).dentries.trans ?_
      split_ifs <;> simp
    rw [targetAt_congr hdentries]
    exact targetAt_of_updateDentryTarget hold hupdated dir name'

theorem targetAt_of_upsertDentry {now : UInt64} {parent : IndexNodeId} {name : String}
    {target : DentryTarget} {expected : UInt64}
    (h : db.upsertDentry now parent name target expected = .ok db') (hinv : db.TreeInv)
    (dir : IndexNodeId) (name' : String) :
    db'.targetAt dir name' =
      if dir = parent ∧ name' = name then some (dentryTargetCols target)
      else db.targetAt dir name' := by
  unfold upsertDentry at h
  obtain ⟨existing, -, h⟩ := except_bind_eq_ok.mp h
  cases existing with
  | none => exact targetAt_of_createDentry h hinv dir name'
  | some existing =>
      obtain ⟨⟨changed, replaced⟩, hreplace, h⟩ := except_bind_eq_ok.mp h
      cases h
      exact targetAt_of_replaceTarget hreplace dir name'

/-- A deletion leaves the names of other directories. -/
theorem targetAt_of_deleteDentry {now : UInt64} {parent : IndexNodeId} {name : String}
    {expected : UInt64} {removed : Bool}
    (h : db.deleteDentry now parent name expected = .ok (removed, db')) {dir : IndexNodeId}
    (hdir : dir ≠ parent) (name' : String) : db'.targetAt dir name' = db.targetAt dir name' := by
  unfold deleteDentry at h
  obtain ⟨-, -, h⟩ := except_bind_eq_ok.mp h
  split at h
  · cases h
    rfl
  next old hold =>
  cases h
  obtain ⟨hfound, hparent⟩ := mem_of_dentryAt hold
  have hdentries : ∀ detached : FsMetaDb,
      detached = (if old.target.targetType = .inode then
        (db.removeDentryRow old.dentryId).detachRef now old.target.targetInodeId old.dentryId
        else db.removeDentryRow old.dentryId) →
      (detached.bumpRev now parent).dentries = db.dentries.deleteKey old.dentryId := by
    rintro detached rfl
    change FsMetaDb.dentries (if _ then _ else _) = _
    split_ifs
    · exact dentries_detachRef _ now _ _
    · rfl
  unfold targetAt dentryAt
  rw [hdentries _ rfl]
  change ((db.dentries.rows.filter fun row => !decide (row.dentryId = old.dentryId)).find? _).map
    _ = _
  rw [List.find?_filter]
  congr 1
  apply List.find?_congr
  intro row hrow
  by_cases hkey : row.dentryId = old.dentryId
  · have hsame : row = old := by
      have hfound' := Table.find?_key_of_mem hrow
      rw [hkey, hfound] at hfound'
      exact (Option.some.inj hfound').symm
    have hother : row.parentInodeId ≠ dir := by
      rw [hsame, hparent]
      exact hdir.symm
    simp [hother]
  · simp [hkey]

/-! ## Revisions -/

/-- The revision of an inode that was read. -/
theorem revNumber_of_getInode {id : IndexNodeId} {node : NodeRecord}
    (h : db.getInode id = .ok (some node)) :
    db.revNumber id = some (Counter.ofInt64 (node.rev.getD 0).toInt64).val := by
  unfold getInode at h
  cases hrow : db.nodes.find? id with
  | none =>
      rw [hrow] at h
      cases h
  | some row =>
      rw [hrow] at h
      obtain ⟨parsed, hparsed, heq⟩ := except_map_eq_ok.mp h
      obtain rfl := Option.some.inj heq
      have hrev := (parsedAs_of_parseNode hparsed).rev
      unfold revNumber revOf
      rw [hrow, Option.map_some, Option.map_some, ← hrev]
      cases parsed.rev <;> rfl

theorem int64_ofInt_toInt (n : Int64) : Int64.ofInt n.toInt = n :=
  Int64.toInt_inj.mp (Int64.toInt_ofInt_of_le n.minValue_le_toInt n.toInt_lt)

theorem row_of_revNumber {dir : IndexNodeId} {n : UInt64}
    (h : db.revNumber dir = some n.toInt64.toInt) :
    ∃ row, db.nodes.find? dir = some row ∧ Counter.coalesce row.rev = Counter.ofInt64 n.toInt64 := by
  unfold revNumber revOf at h
  obtain ⟨rev, hrev, hval⟩ := Option.map_eq_some_iff.mp h
  obtain ⟨row, hrow, rfl⟩ := Option.map_eq_some_iff.mp hrev
  refine ⟨row, hrow, ?_⟩
  generalize Counter.coalesce row.rev = cell at hval
  obtain ⟨val, lower, upper⟩ := cell
  obtain rfl : val = n.toInt64.toInt := hval
  rfl

theorem checkParentRev_of_revNumber {dir : IndexNodeId} {n : UInt64}
    (h : db.revNumber dir = some n.toInt64.toInt) : db.checkParentRev dir n = .ok () := by
  obtain ⟨row, hrow, hrev⟩ := row_of_revNumber h
  have hget : (Counter.ofInt64 n.toInt64).get "0" "COALESCE(rev, 0)" = .ok n.toInt64 := by
    have hlt : (Counter.ofInt64 n.toInt64).val < 2 ^ 63 := n.toInt64.toInt_lt
    unfold Counter.get
    rw [if_pos hlt]
    exact congrArg Except.ok (int64_ofInt_toInt n.toInt64)
  unfold checkParentRev
  rw [hrow]
  dsimp only
  rw [hrev, hget]
  simp [bind, Except.bind, pure, Except.pure]

/-- A dentry operation counts the revision of its directory up, and no other. -/
theorem revNumber_of_retargets {parent : IndexNodeId} {target : Option IndexNodeId}
    (h : Retargets db db' parent target) (dir : IndexNodeId) :
    db'.revNumber dir = (db.revNumber dir).map fun n => if dir = parent then n + 1 else n := by
  obtain ⟨middle, d, newRow, now, expected, u, hret, -, hcheck, rfl⟩ := h
  obtain ⟨rev, hrev, hone⟩ := exists_of_checkParentRev hcheck
  unfold revNumber
  rw [revOf_bumpRev, hret.revs]
  by_cases hdir : dir = parent
  · subst hdir
    rw [if_pos rfl, hrev]
    simp only [Option.map_some, if_true]
    exact congrArg some hone
  · rw [if_neg hdir]
    cases db.revOf dir <;> simp [hdir]

/-- Revisions are counted up only, and while one stands the names of its directory lead
where they led. -/
def Counted (db db' : FsMetaDb) : Prop :=
  ∀ dir n, db.revNumber dir = some n → ∃ n', db'.revNumber dir = some n' ∧ n ≤ n' ∧
    (n' = n → ∀ name, db'.targetAt dir name = db.targetAt dir name)

theorem Counted.refl (db : FsMetaDb) : Counted db db := fun _ n h => ⟨n, h, le_rfl, fun _ _ => rfl⟩

theorem Counted.trans {db'' : FsMetaDb} (h : Counted db db') (h' : Counted db' db'') :
    Counted db db'' := by
  intro dir n hn
  obtain ⟨n', hn', hle, hsame⟩ := h dir n hn
  obtain ⟨n'', hn'', hle', hsame'⟩ := h' dir n' hn'
  refine ⟨n'', hn'', hle.trans hle', fun heq name => ?_⟩
  rw [hsame' (by omega) name, hsame (by omega) name]

theorem counted_of_retargets {parent : IndexNodeId} {target : Option IndexNodeId}
    (h : db' = db ∨ Retargets db db' parent target)
    (hother : ∀ dir, dir ≠ parent → ∀ name, db'.targetAt dir name = db.targetAt dir name) :
    Counted db db' := by
  obtain rfl | h := h
  · exact Counted.refl db'
  intro dir n hn
  have hnumber := revNumber_of_retargets h dir
  rw [hn, Option.map_some] at hnumber
  refine ⟨_, hnumber, ?_, ?_⟩
  · split_ifs <;> omega
  · intro heq
    split_ifs at heq with hdir
    · omega
    · exact hother dir hdir

/-- Each kind of change counts. -/
theorem counted_of_elementary (h : Elementary db db') (hinv : db.TreeInv) : Counted db db' := by
  cases h with
  | alloc refBy storable halloc =>
      intro dir n hn
      refine ⟨n, ?_, le_rfl, fun _ name => targetAt_congr (dentries_of_allocInode halloc).1 dir name⟩
      have hfresh := find?_none_of_allocInode halloc
      have hold : db'.nodes.find? dir = db.nodes.find? dir := by
        rw [find?_of_allocInode halloc]
        split_ifs with hdir
        · rw [hdir] at hn
          unfold revNumber revOf at hn
          rw [hfresh] at hn
          cases hn
        · rfl
      unfold revNumber revOf
      rw [hold]
      exact hn
  | touch htouch refBy rev clean =>
      intro dir n hn
      refine ⟨n, ?_, le_rfl, fun _ name => targetAt_congr htouch.dentries dir name⟩
      unfold revNumber
      rw [revOf_of_touch htouch rev]
      exact hn
  | create hcreate =>
      refine counted_of_retargets (Or.inr (retargets_of_createDentry hcreate hinv)) ?_
      intro dir hdir name
      rw [targetAt_of_createDentry hcreate hinv, if_neg fun hname => hdir hname.1]
  | delete hdelete =>
      exact counted_of_retargets (retargets_of_deleteDentry hdelete hinv)
        fun dir hdir name => targetAt_of_deleteDentry hdelete hdir name
  | replace hreplace =>
      refine counted_of_retargets (retargets_of_replaceTarget hreplace hinv) ?_
      intro dir hdir name
      rw [targetAt_of_replaceTarget hreplace, if_neg fun hname => hdir hname.1]

theorem counted_of_chain (h : Chain db db') (hinv : db.TreeInv) : Counted db db' := by
  induction h with
  | refl => exact Counted.refl db
  | tail hpath hstep ih =>
      exact ih.trans (counted_of_elementary hstep (tree_of_chain hpath hinv).1)

/-! ## Base objects -/

/-- Dentry operations leave the base objects of all directories. -/
theorem baseOf_of_retargets {parent : IndexNodeId} {target : Option IndexNodeId}
    (hcontent : SameContent db db') (h : db' = db ∨ Retargets db db' parent target)
    (dir : IndexNodeId) : db'.baseOf dir = db.baseOf dir := by
  obtain rfl | h := h
  · rfl
  unfold baseOf
  cases hrow' : db'.nodes.find? dir with
  | some row' =>
      obtain ⟨row, hrow, heq⟩ := hcontent dir row' hrow'
      rw [hrow]
      exact (congrArg NodeRow.baseObjId heq : row'.content.baseObjId = row.content.baseObjId)
  | none =>
      cases hrow : db.nodes.find? dir with
      | none => rfl
      | some row =>
          have hnumber := revNumber_of_retargets h dir
          unfold revNumber revOf at hnumber
          rw [hrow', hrow] at hnumber
          cases hnumber

theorem baseOf_of_upsertDentry {now : UInt64} {parent : IndexNodeId} {name : String}
    {target : DentryTarget} {expected : UInt64}
    (h : db.upsertDentry now parent name target expected = .ok db') (hinv : db.TreeInv)
    (dir : IndexNodeId) : db'.baseOf dir = db.baseOf dir := by
  unfold upsertDentry at h
  obtain ⟨existing, -, h⟩ := except_bind_eq_ok.mp h
  cases existing with
  | none =>
      exact baseOf_of_retargets (sameContent_of_createDentry h)
        (Or.inr (retargets_of_createDentry h hinv)) dir
  | some existing =>
      obtain ⟨⟨changed, replaced⟩, hreplace, h⟩ := except_bind_eq_ok.mp h
      cases h
      exact baseOf_of_retargets (sameContent_of_replaceTarget hreplace)
        (retargets_of_replaceTarget hreplace hinv) dir

end FsMetaDb

end FsMeta
end CyfsNdn

import CyfsNdn.FsMeta.ClientChanges

/-!
# What a move does

`handle_move_path` plans with reads and applies the plan in one transaction, which looks at
the revisions of the two directories again.  As long as others count revisions, an equal
revision means that the source still leads where the plan says.

A name that is only in the base object of its directory has no dentry to move, and is not
found.
-/

namespace CyfsNdn
namespace FsMeta

open NdnLib Relational Collections Transition

namespace FsMetaDb

/-- The destination leads where the source led, the source nowhere, and all other names
where they led. -/
structure Moved (child : List UInt8 → String → Option ObjId) (src dst : DirName)
    (db db' : FsMetaDb) : Prop where
  destination : db'.leads child dst = db.leads child src
  source : db'.leads child src = none
  others : ∀ at', at' ≠ src → at' ≠ dst → db'.leads child at' = db.leads child at'

variable {db db' : FsMetaDb} {env : ServiceEnv} {child : List UInt8 → String → Option ObjId}

/-- A name that gets a tombstone had a dentry as it is written, if it had one. -/
theorem targetAt_of_setTombstone {now : UInt64} {at' : DirName} {rev : UInt64}
    {target : DentryTarget} (h : db.setTombstone now at'.dir at'.name rev = .ok db')
    (hreads : db.Reads at' target) :
    db.targetAt at'.dir at'.name = some (dentryTargetCols target) := by
  obtain ⟨cols, hcols, hparse⟩ := hreads
  unfold setTombstone upsertDentry at h
  obtain ⟨existing, hexisting, h⟩ := except_bind_eq_ok.mp h
  unfold targetAt at hcols
  obtain ⟨row, hrow, rfl⟩ := Option.map_eq_some_iff.mp hcols
  unfold getDentry at hexisting
  rw [hrow] at hexisting
  obtain ⟨parsed, hparsed, rfl⟩ := except_map_eq_ok.mp hexisting
  unfold parseDentry at hparsed
  rw [hparse] at hparsed
  cases hparsed
  obtain ⟨⟨changed, replaced⟩, hreplace, -⟩ := except_bind_eq_ok.mp h
  exact oldTarget_of_replaceTarget hreplace

/-- A plan whose source still reads as its target moves it. -/
theorem moved_of_applyMovePlan {plan : MovePlan} (h : db.applyMovePlan env plan = .ok db')
    (hinv : db.TreeInv)
    (hne : (⟨plan.dstParent, plan.dstName⟩ : DirName) ≠ ⟨plan.srcParent, plan.srcName⟩)
    (hreads : db.Reads ⟨plan.srcParent, plan.srcName⟩ plan.target) :
    Moved child ⟨plan.srcParent, plan.srcName⟩ ⟨plan.dstParent, plan.dstName⟩ db db' := by
  unfold applyMovePlan at h
  simp only [guard_eq_ok, except_bind_eq_ok] at h
  obtain ⟨-, -, -, -, -, -, -, removed, hremoved, h⟩ := h
  have hinv' := (tree_of_chain (chain_of_upsertDentry hremoved) hinv).1
  have hcurrent : db.targetAt plan.srcParent plan.srcName =
      some (dentryTargetCols plan.target) := targetAt_of_setTombstone hremoved hreads
  have hsource := targetAt_of_upsertDentry hremoved hinv
  have htarget := targetAt_of_upsertDentry h hinv'
  have hbase : ∀ dir, db'.baseOf dir = db.baseOf dir := fun dir =>
    (baseOf_of_upsertDentry h hinv' dir).trans (baseOf_of_upsertDentry hremoved hinv dir)
  have hsrc : ¬ (plan.srcParent = plan.dstParent ∧ plan.srcName = plan.dstName) := by
    rintro ⟨hdir, hname⟩
    exact hne (by rw [hdir, hname])
  constructor
  · have hthere : db'.targetAt plan.dstParent plan.dstName =
        some (dentryTargetCols plan.target) := by
      rw [htarget, if_pos ⟨rfl, rfl⟩]
    exact (leads_of_targetAt hthere).trans (leads_of_targetAt hcurrent).symm
  · have hgone : db'.targetAt plan.srcParent plan.srcName =
        some (dentryTargetCols .tombstone) := by
      rw [htarget, if_neg hsrc, hsource, if_pos ⟨rfl, rfl⟩]
    exact leads_of_targetAt hgone
  · rintro ⟨dir, name⟩ hnotSrc hnotDst
    refine leads_congr ?_ (hbase dir)
    rw [htarget, if_neg (by rintro ⟨rfl, rfl⟩; exact hnotDst rfl), hsource,
      if_neg (by rintro ⟨rfl, rfl⟩; exact hnotSrc rfl)]

/-- With the revision that was planned with, the source reads as it did. -/
theorem reads_of_applyMovePlan {before read : FsMetaDb} {plan : MovePlan} {srcDir : NodeRecord}
    (hsrc : before.getInode plan.srcParent = .ok (some srcDir))
    (hrev : plan.srcRev0 = srcDir.rev.getD 0)
    (hreads : read.Reads ⟨plan.srcParent, plan.srcName⟩ plan.target)
    (hfirst : Counted before read) (hthen : Counted read db)
    (h : db.applyMovePlan env plan = .ok db') :
    db.Reads ⟨plan.srcParent, plan.srcName⟩ plan.target := by
  have hbefore := revNumber_of_getInode hsrc
  unfold applyMovePlan getInodeOr at h
  simp only [guard_eq_ok, except_bind_eq_ok, not_or, not_not] at h
  obtain ⟨srcNow, ⟨found, hfound, hnow⟩, dstNow, -, ⟨hsame, -⟩, -⟩ := h
  cases found with
  | none => cases hnow
  | some found =>
      obtain rfl := Except.ok.inj hnow
      have hafter := revNumber_of_getInode hfound
      rw [hsame, hrev] at hafter
      obtain ⟨n, hn, hle, -⟩ := hfirst _ _ hbefore
      obtain ⟨n', hn', hle', hstands⟩ := hthen _ _ hn
      rw [hafter] at hn'
      have heq := Option.some.inj hn'
      obtain ⟨cols, hcols, hparse⟩ := hreads
      exact ⟨cols, (hstands (by omega) plan.srcName).trans hcols, hparse⟩

/-! ## Writing a name succeeds -/

/-- A dentry is as the service writes one. -/
def Canonical (db : FsMetaDb) (at' : DirName) : Prop :=
  ∀ cols, db.targetAt at'.dir at'.name = some cols →
    ∃ target, parseTarget cols = .ok target ∧ cols = dentryTargetCols target

/-- An inode target is there, and no dentry refers to it. -/
def Free (db : FsMetaDb) (target : DentryTarget) : Prop :=
  ∀ id, (dentryTargetCols target).targetInodeId = some id →
    (db.nodes.find? id).isSome = true ∧ db.refOf id = none

theorem lockMoveParent_of_revNumber {dir : IndexNodeId} {n : UInt64}
    (h : db.revNumber dir = some n.toInt64.toInt) : db.lockMoveParent dir n = .ok () := by
  obtain ⟨row, hrow, hrev⟩ := row_of_revNumber h
  unfold lockMoveParent
  rw [hrow]
  exact if_pos hrev

theorem not_inodeTargeted {target : DentryTarget} (hinv : db.TreeInv) (hfree : db.Free target)
    (d : Nat) : db.inodeTargeted (dentryTargetCols target) d = false := by
  rw [inodeTargeted, List.any_eq_false]
  intro row hrow htargets
  cases target with
  | indexNodeId id =>
      simp only [dentryTargetCols, Option.any_some, decide_true, Bool.true_and, Bool.and_eq_true,
        TargetCols.targets, decide_eq_true_eq] at htargets
      have htarget := targetOf_of_find? (Table.find?_key_of_mem hrow)
      have href := (hinv.inverse _ id).mp (htarget.trans htargets.2.2)
      rw [(hfree id rfl).2] at href
      cases href
  | _ => simp [dentryTargetCols] at htargets

theorem free_detachRef {now : UInt64} {target : DentryTarget} {old : Option IndexNodeId}
    {d : Nat} (hfree : db.Free target) : (db.detachRef now old d).Free target := by
  intro id hid
  obtain ⟨hsome, href⟩ := hfree id hid
  rw [find?_detachRef, Option.isSome_map, refOf_detachRef, href]
  exact ⟨hsome, ite_self none⟩

theorem attachRef_of_free (now : UInt64) {target : DentryTarget} (d : Nat)
    (hfree : db.Free target) :
    ∃ db', db.attachRef now (dentryTargetCols target).targetInodeId d = .ok db' := by
  cases htarget : (dentryTargetCols target).targetInodeId with
  | none => exact ⟨db, rfl⟩
  | some id =>
      obtain ⟨hsome, href⟩ := hfree id htarget
      obtain ⟨row, hrow⟩ := Option.isSome_iff_exists.mp hsome
      have hnone : row.refBy = none := by
        unfold refOf at href
        rwa [hrow] at href
      unfold attachRef
      simp only [hrow, hnone, Option.all_none, if_true]
      exact ⟨_, rfl⟩

theorem exists_of_createDentry {now : UInt64} {at' : DirName} {target : DentryTarget}
    {rev : UInt64} (hcheck : db.checkParentRev at'.dir rev = .ok ())
    (hnone : db.dentryAt at'.dir at'.name = none) (hinv : db.TreeInv) (hfree : db.Free target) :
    ∃ db', db.createDentry now at'.dir at'.name target rev = .ok db' := by
  have hinsert : db.insertDentry now at'.dir at'.name (dentryTargetCols target) = .ok { db with
      dentries := db.dentries.insertOrReplace
        (db.dentryRow now at'.dir at'.name (dentryTargetCols target))
      dentrySeq := db.dentrySeq + 1 } :=
    if_neg (by rw [not_inodeTargeted hinv hfree]; simp)
  obtain ⟨attached, hattached⟩ := attachRef_of_free now (db.dentrySeq + 1)
    (show ({ db with
      dentries := db.dentries.insertOrReplace
        (db.dentryRow now at'.dir at'.name (dentryTargetCols target))
      dentrySeq := db.dentrySeq + 1 } : FsMetaDb).Free target from hfree)
  refine ⟨attached.bumpRev now at'.dir, ?_⟩
  unfold createDentry
  rw [hcheck, hnone]
  simp only [guard_eq_ok, except_bind_eq_ok, except_pure_eq_ok]
  exact ⟨(), trivial, by simp, _, hinsert, attached, hattached, rfl⟩

theorem exists_of_replaceTarget (now : UInt64) {at' : DirName} {old target : DentryTarget}
    {rev : UInt64} (hcheck : db.checkParentRev at'.dir rev = .ok ())
    (hold : db.targetAt at'.dir at'.name = some (dentryTargetCols old)) (hinv : db.TreeInv)
    (hfree : db.Free target) :
    ∃ changed db', db.replaceTarget now at'.dir at'.name old target rev = .ok (changed, db') := by
  obtain ⟨row, hrow, hcols⟩ := Option.map_eq_some_iff.mp hold
  unfold replaceTarget
  rw [hcheck, hrow]
  simp only [guard_eq_ok, except_bind_eq_ok, hcols]
  by_cases hsame : dentryTargetCols old = dentryTargetCols target
  · exact ⟨false, db, (), trivial, by simp, if_pos hsame⟩
  obtain ⟨updated, hupdated, hkept⟩ : ∃ updated,
      db.updateDentryTarget now row.dentryId (dentryTargetCols target) = .ok updated ∧
        updated.Free target :=
    ⟨_, if_neg (by rw [not_inodeTargeted hinv hfree]; simp), hfree⟩
  set detached := if (dentryTargetCols old).targetType = .inode ∧
      (dentryTargetCols old).targetInodeId ≠ (dentryTargetCols target).targetInodeId then
    updated.detachRef now (dentryTargetCols old).targetInodeId row.dentryId else updated
    with hdetached
  have hdetachedFree : detached.Free target := by
    rw [hdetached]
    split_ifs
    · exact free_detachRef hkept
    · exact hkept
  obtain ⟨attached, hattached⟩ := attachRef_of_free now row.dentryId hdetachedFree
  refine ⟨true, attached.bumpRev now at'.dir, (), trivial, by simp, ?_⟩
  rw [if_neg hsame]
  simp only [except_bind_eq_ok, except_pure_eq_ok]
  exact ⟨updated, hupdated, attached, hattached, rfl⟩

theorem getDentry_of_none {at' : DirName} (h : db.targetAt at'.dir at'.name = none) :
    db.getDentry at'.dir at'.name = .ok none := by
  unfold getDentry
  rw [Option.map_eq_none_iff.mp h]

theorem getDentry_of_canonical {at' : DirName} {cols : TargetCols}
    (hcanonical : db.Canonical at') (h : db.targetAt at'.dir at'.name = some cols) :
    ∃ dentry, db.getDentry at'.dir at'.name = .ok (some dentry) ∧
      dentryTargetCols dentry.target = cols := by
  obtain ⟨target, hparse, hcols⟩ := hcanonical cols h
  obtain ⟨row, hrow, rfl⟩ := Option.map_eq_some_iff.mp h
  refine ⟨⟨row.dentryId, row.parentInodeId, row.name, target⟩, ?_, hcols.symm⟩
  have hparsed : parseDentry row = .ok ⟨row.dentryId, row.parentInodeId, row.name, target⟩ := by
    unfold parseDentry
    rw [hparse]
    rfl
  unfold getDentry
  rw [hrow]
  exact congrArg (Except.map some) hparsed

theorem exists_of_upsertDentry (now : UInt64) {at' : DirName} {target : DentryTarget}
    {rev : UInt64} (hcheck : db.checkParentRev at'.dir rev = .ok ())
    (hcanonical : db.Canonical at') (hinv : db.TreeInv) (hfree : db.Free target) :
    ∃ db', db.upsertDentry now at'.dir at'.name target rev = .ok db' := by
  unfold upsertDentry
  cases hat : db.targetAt at'.dir at'.name with
  | none =>
      rw [getDentry_of_none hat]
      exact exists_of_createDentry hcheck (Option.map_eq_none_iff.mp hat) hinv hfree
  | some cols =>
      obtain ⟨dentry, hread, rfl⟩ := getDentry_of_canonical hcanonical hat
      obtain ⟨changed, db', hreplace⟩ := exists_of_replaceTarget now hcheck hat hinv hfree
      exact ⟨db', except_bind_eq_ok.mpr ⟨some dentry, hread,
        except_bind_eq_ok.mpr ⟨(changed, db'), hreplace, rfl⟩⟩⟩

/-! ## A tombstone frees what it replaces -/

theorem targetOf_of_replaceTarget {now : UInt64} {parent : IndexNodeId} {name : String}
    {oldTarget newTarget : DentryTarget} {expected : UInt64} {changed : Bool} {old : DentryRow}
    (hold : db.dentryAt parent name = some old)
    (h : db.replaceTarget now parent name oldTarget newTarget expected = .ok (changed, db'))
    (k : Nat) :
    db'.targetOf k =
      if k = old.dentryId then (dentryTargetCols newTarget).targetInodeId else db.targetOf k := by
  have hfound := (mem_of_dentryAt hold).1
  unfold replaceTarget at h
  obtain ⟨-, -, h⟩ := except_bind_eq_ok.mp h
  rw [hold] at h
  simp only [guard_eq_ok] at h
  obtain ⟨-, h⟩ := h
  split at h
  · next hsame =>
      cases h
      split_ifs with hk
      · rw [hk, targetOf_of_find? hfound, hsame]
      · rfl
  · simp only [except_bind_eq_ok, except_pure_eq_ok] at h
    obtain ⟨updated, hupdated, attached, hattached, heq⟩ := h
    cases heq
    have hdentries : (attached.bumpRev now parent).dentries = updated.dentries := by
      refine (attached_of_attachRef hattached).dentries.trans ?_
      split_ifs <;> simp
    unfold updateDentryTarget at hupdated
    split_ifs at hupdated
    obtain rfl := Except.ok.inj hupdated
    have hrow := Table.find?_updateKey db.dentries old.dentryId k
      (DentryRow.retargeted now (dentryTargetCols newTarget)) fun _ => rfl
    unfold targetOf
    rw [hdentries]
    refine (congrArg (fun row => Option.bind row fun row => row.target.targetInodeId) hrow).trans ?_
    split_ifs with hk
    · rw [hk, hfound]
      rfl
    · rfl

/-- A name becomes a tombstone: no dentry refers to what it targeted, and its directory is
counted up by one. -/
theorem free_of_setTombstone {now : UInt64} {at' : DirName} {target : DentryTarget} {rev : UInt64}
    (h : db.setTombstone now at'.dir at'.name rev = .ok db') (hinv : db.TreeInv)
    (hold : db.targetAt at'.dir at'.name = some (dentryTargetCols target))
    (hlive : target ≠ .tombstone) :
    db'.Free target ∧
      ∀ dir, db'.revNumber dir = (db.revNumber dir).map fun n => if dir = at'.dir then n + 1 else n := by
  obtain ⟨row, hrow, hcols⟩ := Option.map_eq_some_iff.mp hold
  have hafter := targetAt_of_upsertDentry h hinv at'.dir at'.name
  rw [if_pos ⟨rfl, rfl⟩] at hafter
  unfold setTombstone upsertDentry at h
  obtain ⟨existing, hexisting, h⟩ := except_bind_eq_ok.mp h
  cases existing with
  | none =>
      unfold getDentry at hexisting
      rw [hrow] at hexisting
      obtain ⟨parsed, hparsed, hnone⟩ := except_map_eq_ok.mp hexisting
      cases hnone
  | some existing =>
      obtain ⟨⟨changed, replaced⟩, hreplace, h⟩ := except_bind_eq_ok.mp h
      cases h
      have hne : dentryTargetCols target ≠ dentryTargetCols .tombstone := by
        cases target <;> simp_all [dentryTargetCols]
      obtain rfl | hretargets := retargets_of_replaceTarget hreplace hinv
      · rw [hold] at hafter
        exact absurd (Option.some.inj hafter) hne
      refine ⟨fun id hid => ?_, revNumber_of_retargets hretargets⟩
      have hbefore : db.refOf id = some row.dentryId :=
        (hinv.inverse _ id).mp ((targetOf_of_find? (mem_of_dentryAt hrow).1).trans
          ((congrArg TargetCols.targetInodeId hcols).trans hid))
      have hthere : (db.revOf id).isSome = true := by
        rw [revOf_isSome]
        unfold refOf at hbefore
        cases hnode : db.nodes.find? id with
        | none =>
            rw [hnode] at hbefore
            cases hbefore
        | some node => rfl
      refine ⟨revOf_isSome.mp (revOf_isSome_of_retargets hretargets hthere), ?_⟩
      have hinv' := (tree_of_retargets hretargets hinv).1
      cases href : db'.refOf id with
      | none => rfl
      | some d =>
          have htarget := (hinv'.inverse d id).mpr href
          rw [targetOf_of_replaceTarget hrow hreplace] at htarget
          split_ifs at htarget with hd
          · cases htarget
          · have hsame := (hinv.inverse d id).mp htarget
            rw [hbefore] at hsame
            exact absurd (Option.some.inj hsame).symm hd

theorem toInt_addOne {n : UInt64} (h : n.toInt64.toInt + 1 < 2 ^ 63) :
    (n + 1).toInt64.toInt = n.toInt64.toInt + 1 := by
  have hlower := n.toInt64.le_toInt
  rw [UInt64.toInt64_add, Int64.toInt_add]
  exact Int.bmod_eq_of_le (by simp; omega) (by simp; omega)

/-- The transaction of a move, when nothing happened since the plan was read. -/
theorem exists_of_applyMovePlan (env : ServiceEnv) {src dst : DirName} {srcDir dstDir : NodeRecord}
    {target : DentryTarget} (hinv : db.TreeInv) (hne : dst ≠ src)
    (hsrc : db.getInode src.dir = .ok (some srcDir))
    (hdst : db.getInode dst.dir = .ok (some dstDir))
    (hold : db.targetAt src.dir src.name = some (dentryTargetCols target))
    (hlive : target ≠ .tombstone) (hsrcCanonical : db.Canonical src)
    (hdstCanonical : db.Canonical dst)
    (hcount : (srcDir.rev.getD 0).toInt64.toInt + 1 < 2 ^ 63) :
    ∃ db', db.applyMovePlan env ⟨src.dir, src.name, dst.dir, dst.name, srcDir.rev.getD 0,
      dstDir.rev.getD 0, target⟩ = .ok db' := by
  have hsrcRev : db.revNumber src.dir = some (srcDir.rev.getD 0).toInt64.toInt :=
    revNumber_of_getInode hsrc
  have hdstRev : db.revNumber dst.dir = some (dstDir.rev.getD 0).toInt64.toInt :=
    revNumber_of_getInode hdst
  obtain ⟨removed, hremoved⟩ := exists_of_upsertDentry env.now
    (checkParentRev_of_revNumber hsrcRev) hsrcCanonical hinv
    (show db.Free .tombstone from fun id hid => by cases hid)
  obtain ⟨hfree, hrevs⟩ := free_of_setTombstone hremoved hinv hold hlive
  have hinv' := (tree_of_chain (chain_of_upsertDentry hremoved) hinv).1
  have hcanonical : removed.Canonical dst := by
    intro cols hcols
    rw [targetAt_of_upsertDentry hremoved hinv,
      if_neg fun hsame => hne (DirName.ext hsame.1 hsame.2)] at hcols
    exact hdstCanonical cols hcols
  have hcheck : removed.checkParentRev dst.dir
      (if src.dir = dst.dir then srcDir.rev.getD 0 + 1 else dstDir.rev.getD 0) = .ok () := by
    apply checkParentRev_of_revNumber
    rw [hrevs]
    by_cases hsame : src.dir = dst.dir
    · rw [if_pos hsame, ← hsame, hsrcRev, Option.map_some, if_pos rfl, toInt_addOne hcount]
    · rw [if_neg hsame, hdstRev, Option.map_some, if_neg (Ne.symm hsame)]
  obtain ⟨moved, hmoved⟩ := exists_of_upsertDentry env.now hcheck hcanonical hinv' hfree
  have hlock : db.lockMoveParentsInOrder ⟨src.dir, src.name, dst.dir, dst.name,
      srcDir.rev.getD 0, dstDir.rev.getD 0, target⟩ = .ok () := by
    unfold lockMoveParentsInOrder
    dsimp only
    rw [lockMoveParent_of_revNumber hsrcRev, lockMoveParent_of_revNumber hdstRev]
    split_ifs <;> rfl
  refine ⟨moved, ?_⟩
  unfold applyMovePlan getInodeOr
  dsimp only
  rw [hsrc, hdst, hlock]
  simp only [guard_eq_ok, except_bind_eq_ok]
  exact ⟨srcDir, ⟨_, rfl, rfl⟩, dstDir, ⟨_, rfl, rfl⟩, by simp, (), trivial, removed, hremoved,
    hmoved⟩

end FsMetaDb

/-! ## A move among others -/

namespace MovePath

open FsMetaDb EntryTurn

/-- Others leave tables in order, and count revisions. -/
def Others (db db' : FsMetaDb) : Prop := db'.TreeInv ∧ Counted db db'

theorem others_execEntry {db : FsMetaDb} (env : TurnEnv) (c : EntryCall) (hinv : db.TreeInv) :
    Others db (db.execEntry env c).1 :=
  ⟨treeInv_execEntry hinv c, counted_execEntry env c hinv⟩

/-- The turns of a move and its result. -/
def Runs (src dst : DirName) (db : FsMetaDb) (turns : List EntryTurn)
    (result : RpcResult Unit) : Prop :=
  Dialogue.Runs execEntry Others db
    (EntryPoint.movePath src.dir src.name dst.dir dst.name).dialogue turns (some result)

/-- Nothing changes and there is an error, or there is success and the last turn, and no
other, changes the tables and moves the name. -/
def Outcome (child : List UInt8 → String → Option ObjId) (src dst : DirName)
    (turns : List EntryTurn) (result : RpcResult Unit) : Prop :=
  (∃ e, result = .error e ∧ ∀ t ∈ turns, t.after = t.server) ∨
  (result = .ok () ∧ ∃ reads commit, turns = reads ++ [commit] ∧
    (∀ t ∈ reads, t.after = t.server) ∧ Moved child src dst commit.server commit.after)

variable {child : List UInt8 → String → Option ObjId} {src dst : DirName}

theorem outcome_error (e : String) : Outcome child src dst [] (.error e) :=
  Or.inl ⟨e, rfl, by simp⟩

theorem Outcome.cons {turns : List EntryTurn} {result : RpcResult Unit} {t : EntryTurn}
    (h : Outcome child src dst turns result) (ht : t.after = t.server) :
    Outcome child src dst (t :: turns) result := by
  rcases h with ⟨e, he, hsame⟩ | ⟨hok, reads, commit, rfl, hreads, hmoved⟩
  · exact Or.inl ⟨e, he, List.forall_mem_cons.mpr ⟨ht, hsame⟩⟩
  · exact Or.inr ⟨hok, t :: reads, commit, rfl, List.forall_mem_cons.mpr ⟨ht, hreads⟩, hmoved⟩

/-- However it goes on, the outcome is right. -/
def Moves (child : List UInt8 → String → Option ObjId) (src dst : DirName) (db : FsMetaDb)
    (p : Prog Unit) : Prop :=
  Dialogue.Satisfies execEntry Others (Outcome child src dst) db p.toDialogue

theorem prog_bind_assoc {α β γ : Type} (p : Prog α) (f : α → Prog β) (g : β → Prog γ) :
    p >>= f >>= g = p >>= fun a => f a >>= g := by
  induction p with
  | ret result => cases result <;> rfl
  | call c next ih => exact congrArg (Prog.call c) (funext ih)

theorem moves_error {db : FsMetaDb} (e : String) : Moves child src dst db (.ret (.error e)) :=
  outcome_error e

/-- A question that reads. -/
theorem moves_read {db : FsMetaDb} {c : ServiceCall} {next : RpcResult c.Reply → Prog Unit}
    (hread : ∀ db' env, (execCall db' env c).1 = db')
    (h : ∀ db' env, Others db db' → Moves child src dst db' (next (db'.execCall env c).2)) :
    Moves child src dst db (.call c next) := by
  intro db' env hothers
  have hsame : (db'.execEntry env (.client c)).1 = db' := hread db' env
  rw [hsame]
  exact (h db' env hothers).mono fun _ _ hrest =>
    hrest.cons (t := ⟨db', env, .client c⟩) hsame

theorem moves_inodeOr {db : FsMetaDb} {id : IndexNodeId} {missing : String}
    {f : NodeRecord → Prog Unit}
    (h : ∀ db' node, Others db db' → db'.getInode id = .ok (some node) →
      Moves child src dst db' (f node)) :
    Moves child src dst db (Client.inodeOr id missing >>= f) := by
  refine moves_read (c := .getInode id) (fun _ _ => rfl) fun db' env hothers => ?_
  have hreply : (db'.execCall env (.getInode id)).2 = db'.getInode id := rfl
  rw [hreply]
  cases hread : db'.getInode id with
  | error e => exact moves_error e
  | ok found =>
      cases found with
      | none => exact moves_error missing
      | some node => exact h db' node hothers hread

theorem Others.trans {a b c : FsMetaDb} (h : Others a b) (h' : Others b c) : Others a c :=
  ⟨h'.1, h.2.trans h'.2⟩

theorem moves_planMoveSource {db : FsMetaDb} {f : DentryTarget → Prog Unit}
    (h : ∀ read db' target, Others db read → Others read db' → read.Reads src target →
      Moves child src dst db' (f target)) :
    Moves child src dst db (Client.planMoveSource src.dir src.name >>= f) := by
  refine moves_read (c := .getDentry src.dir src.name) (fun _ _ => rfl) fun read env hothers => ?_
  have hreply : (read.execCall env (.getDentry src.dir src.name)).2 =
      read.getDentry src.dir src.name := rfl
  rw [hreply]
  cases hread : read.getDentry src.dir src.name with
  | error e => exact moves_error e
  | ok found =>
      cases found with
      | none => exact moves_error "not found"
      | some dentry =>
          have hreads := reads_of_getDentry hread
          have hrefl : Others read read := ⟨hothers.1, Counted.refl read⟩
          obtain ⟨dentryId, parent, name, target⟩ := dentry
          cases target with
          | tombstone => exact moves_error "not found"
          | symLink path => exact h read read _ hothers hrefl hreads
          | objId objId => exact h read read _ hothers hrefl hreads
          | indexNodeId id =>
              have hrest : Moves child src dst read
                  (Client.inodeOr id "not found" >>= fun _ => f (.indexNodeId id)) :=
                moves_inodeOr fun db' node hothers' _ => h read db' _ hothers hothers' hreads
              exact (congrArg (Moves child src dst read) (prog_bind_assoc (Client.inodeOr id
                "not found") (fun _ => pure (.indexNodeId id)) f)).mpr hrest

theorem moves_checkSelfParent {db : FsMetaDb} {target : DentryTarget} {dstParent : IndexNodeId}
    {f : Unit → Prog Unit} (hinv : db.TreeInv)
    (h : ∀ db', Others db db' → Moves child src dst db' (f ())) :
    Moves child src dst db (Client.checkSelfParent target dstParent >>= f) := by
  cases target with
  | indexNodeId id =>
      unfold Client.checkSelfParent
      rw [prog_bind_assoc]
      refine moves_inodeOr fun db' node hothers _ => ?_
      by_cases hself : node.state.kind = .dir ∧ id = dstParent
      · rw [if_pos hself]
        exact moves_error "invalid name"
      · rw [if_neg hself]
        exact h db' hothers
  | _ => exact h db ⟨hinv, Counted.refl db⟩

/-- The transaction moves what the plan read. -/
theorem moves_commit {before read db : FsMetaDb} {srcDir : NodeRecord} {target : DentryTarget}
    {dstRev0 : UInt64} (hne : dst ≠ src) (hsrc : before.getInode src.dir = .ok (some srcDir))
    (hfirst : Others before read) (hthen : Others read db) (hreads : read.Reads src target) :
    Moves child src dst db (Prog.ask (.applyMovePlan
      ⟨src.dir, src.name, dst.dir, dst.name, srcDir.rev.getD 0, dstRev0, target⟩)) := by
  intro db' env hothers
  generalize hplan : (⟨src.dir, src.name, dst.dir, dst.name, srcDir.rev.getD 0, dstRev0,
    target⟩ : MovePlan) = plan
  have hreply : db'.execEntry env (.client (.applyMovePlan plan)) =
      db'.answer (done (db'.applyMovePlan env.service plan)) := rfl
  change Outcome child src dst [⟨db', env, .client (.applyMovePlan plan)⟩]
    (db'.execEntry env (.client (.applyMovePlan plan))).2
  cases happly : db'.applyMovePlan env.service plan with
  | error e =>
      rw [happly] at hreply
      refine Or.inl ⟨e, by rw [hreply]; rfl, ?_⟩
      intro t ht
      obtain rfl := List.mem_singleton.mp ht
      unfold EntryTurn.after
      rw [hreply]
      rfl
  | ok after =>
      rw [happly] at hreply
      refine Or.inr ⟨by rw [hreply]; rfl, [], _, rfl, by simp, ?_⟩
      unfold EntryTurn.after
      rw [hreply]
      subst hplan
      have hcurrent := reads_of_applyMovePlan hsrc rfl hreads hfirst.2
        (hthen.trans hothers).2 happly
      exact moved_of_applyMovePlan happly hothers.1 hne hcurrent

/-- A move that is not onto itself either fails and changes nothing, or moves the name in
its last turn, whatever others do that count revisions. -/
theorem movePath_moves (hne : dst ≠ src) {db : FsMetaDb} {turns : List EntryTurn}
    {result : RpcResult Unit} (h : Runs src dst db turns result) :
    Outcome child src dst turns result := by
  refine Dialogue.Runs.of_satisfies h ?_
  change Moves child src dst db (Client.handleMovePath src.dir src.name dst.dir dst.name)
  have hnames : ¬ (src.dir = dst.dir ∧ src.name = dst.name) := by
    rintro ⟨hdir, hname⟩
    exact hne (DirName.ext hdir.symm hname.symm)
  unfold Client.handleMovePath
  by_cases hempty : src.name = "" ∨ dst.name = ""
  · rw [if_pos hempty]
    exact moves_error _
  rw [if_neg hempty]
  dsimp only
  rw [if_neg hnames]
  refine moves_inodeOr fun before srcDir _ hsrc => moves_inodeOr fun db₂ dstDir hothers₂ _ => ?_
  by_cases hkind : srcDir.state.kind ≠ .dir ∨ dstDir.state.kind ≠ .dir
  · rw [if_pos hkind]
    exact moves_error _
  rw [if_neg hkind]
  by_cases hreadOnly : srcDir.readOnly ∨ dstDir.readOnly
  · rw [if_pos hreadOnly]
    exact moves_error _
  rw [if_neg hreadOnly]
  refine moves_planMoveSource fun read db₃ target hothers₃ hothers₄ hreads => ?_
  refine moves_checkSelfParent hothers₄.1 fun db₄ hothers₅ => ?_
  exact moves_commit hne hsrc (hothers₂.trans hothers₃) (hothers₄.trans hothers₅) hreads

/-! ## A move alone -/

/-- The source is a name that shows something, both directories can be written, and the
tables read as the service writes them. -/
structure Ready (child : List UInt8 → String → Option ObjId) (src dst : DirName)
    (db : FsMetaDb) : Prop where
  tree : db.TreeInv
  names : src.name ≠ "" ∧ dst.name ≠ ""
  distinct : dst ≠ src
  srcWritable : db.writableDir src.dir = true
  dstWritable : db.writableDir dst.dir = true
  /-- What moves is there, and is not the directory that it moves to. -/
  visible : ∃ cols, db.leads child src = some cols ∧ ∀ id, cols.targetInodeId = some id →
    (∃ node, db.getInode id = .ok (some node)) ∧ id ≠ dst.dir
  srcCanonical : db.Canonical src
  dstCanonical : db.Canonical dst
  countable : ∀ n, db.revNumber src.dir = some n → n + 1 < 2 ^ 63

/-- What a program ends with when no other interrupts it. -/
def aloneResult {α : Type} (env : TurnEnv) (db : FsMetaDb) (p : Prog α) : RpcResult α :=
  (Dialogue.alone execEntry env db p.toDialogue).2

variable {db : FsMetaDb} {env : TurnEnv}

theorem alone_read {α : Type} {c : ServiceCall} {next : RpcResult c.Reply → Prog α}
    (hread : (execCall db env c).1 = db) :
    aloneResult env db (.call c next) = aloneResult env db (next (db.execCall env c).2) := by
  change (Dialogue.alone execEntry env (execCall db env c).1
    (next (db.execCall env c).2).toDialogue).2 = _
  rw [hread]
  rfl

theorem alone_inodeOr {α : Type} {id : IndexNodeId} {missing : String} {node : NodeRecord}
    {f : NodeRecord → Prog α} (h : db.getInode id = .ok (some node)) :
    aloneResult env db (Client.inodeOr id missing >>= f) = aloneResult env db (f node) := by
  refine (alone_read (c := .getInode id) rfl).trans ?_
  have hreply : (db.execCall env (.getInode id)).2 = db.getInode id := rfl
  rw [hreply, h]
  rfl

theorem exists_node_of_writableDir {dir : IndexNodeId} (h : db.writableDir dir = true) :
    ∃ node, db.getInode dir = .ok (some node) ∧ node.state.kind = .dir ∧ node.readOnly = false := by
  unfold writableDir at h
  split at h
  · next node hnode => exact ⟨node, hnode, by simpa using h⟩
  · cases h

/-- A target that was read passes what comes before the transaction. -/
theorem alone_plannedMove {d : Nat} {dir dstDir : IndexNodeId} {name : String}
    {target : DentryTarget} {commit : DentryTarget → Prog Unit}
    (hlive : target ≠ .tombstone)
    (hinode : ∀ id, target = .indexNodeId id →
      (∃ node, db.getInode id = .ok (some node)) ∧ id ≠ dstDir) :
    aloneResult env db ((Prog.ret (.ok (some (⟨d, dir, name, target⟩ : DentryRecord))) >>=
        fun found =>
      match found with
      | none => throw "not found"
      | some dentry =>
          match dentry.target with
          | .tombstone => throw "not found"
          | .indexNodeId id => do
              let _ ← Client.inodeOr id "not found"
              return DentryTarget.indexNodeId id
          | target => return target) >>= fun target => do
        Client.checkSelfParent target dstDir
        commit target) = aloneResult env db (commit target) := by
  cases target with
  | tombstone => exact absurd rfl hlive
  | symLink path => rfl
  | objId objId => rfl
  | indexNodeId id =>
      obtain ⟨⟨node, hnode⟩, hne⟩ := hinode id rfl
      have hassoc := prog_bind_assoc (Client.inodeOr id "not found")
        (fun _ => pure (DentryTarget.indexNodeId id)) fun target => do
          Client.checkSelfParent target dstDir
          commit target
      refine (congrArg (aloneResult env db) hassoc).trans ((alone_inodeOr hnode).trans ?_)
      change aloneResult env db (Client.checkSelfParent (.indexNodeId id) dstDir >>=
        fun _ => commit (.indexNodeId id)) = _
      unfold Client.checkSelfParent
      rw [prog_bind_assoc]
      refine (alone_inodeOr hnode).trans ?_
      rw [if_neg fun hself => hne hself.2]
      rfl

/-- A move ends well exactly when the source has a dentry. -/
theorem alone_iff (h : Ready child src dst db) (env : TurnEnv) :
    aloneResult env db (Client.handleMovePath src.dir src.name dst.dir dst.name) = .ok () ↔
      (db.targetAt src.dir src.name).isSome = true := by
  obtain ⟨srcDir, hsrc, hsrcKind, hsrcWrite⟩ := exists_node_of_writableDir h.srcWritable
  obtain ⟨dstDir, hdst, hdstKind, hdstWrite⟩ := exists_node_of_writableDir h.dstWritable
  obtain ⟨cols, hleads, htarget⟩ := h.visible
  have hnames : ¬ (src.dir = dst.dir ∧ src.name = dst.name) := by
    rintro ⟨hdir, hname⟩
    exact h.distinct (DirName.ext hdir.symm hname.symm)
  have hstart : aloneResult env db (Client.handleMovePath src.dir src.name dst.dir dst.name) =
      aloneResult env db (Client.planMoveSource src.dir src.name >>= fun target => do
        Client.checkSelfParent target dst.dir
        Prog.ask (.applyMovePlan ⟨src.dir, src.name, dst.dir, dst.name, srcDir.rev.getD 0,
          dstDir.rev.getD 0, target⟩)) := by
    unfold Client.handleMovePath
    rw [if_neg (by simp [h.names])]
    dsimp only
    rw [if_neg hnames]
    refine (alone_inodeOr hsrc).trans ((alone_inodeOr hdst).trans ?_)
    rw [if_neg (by simp [hsrcKind, hdstKind]), if_neg (by simp [hsrcWrite, hdstWrite])]
  rw [hstart]
  refine iff_of_eq (congrArg (· = _) (alone_read (c := .getDentry src.dir src.name) rfl)) |>.trans ?_
  have hreply : (db.execCall env (.getDentry src.dir src.name)).2 =
      db.getDentry src.dir src.name := rfl
  rw [hreply]
  cases hat : db.targetAt src.dir src.name with
  | none =>
      rw [getDentry_of_none hat]
      exact iff_of_false (fun h => by cases h) (by simp)
  | some cols' =>
      obtain ⟨⟨d, dir, name, target⟩, hread, hcols⟩ := getDentry_of_canonical h.srcCanonical hat
      rw [hread]
      refine iff_of_true ?_ rfl
      have hlive : target ≠ .tombstone := by
        rintro rfl
        rw [leads_of_targetAt hat, ← hcols] at hleads
        cases hleads
      have hinode : ∀ id, target = .indexNodeId id →
          (∃ node, db.getInode id = .ok (some node)) ∧ id ≠ dst.dir := by
        rintro id rfl
        rw [leads_of_targetAt hat, ← hcols] at hleads
        exact htarget id (by cases hleads; rfl)
      have hcommit : aloneResult env db (Prog.ask (.applyMovePlan ⟨src.dir, src.name, dst.dir,
          dst.name, srcDir.rev.getD 0, dstDir.rev.getD 0, target⟩)) = .ok () := by
        obtain ⟨db', happly⟩ := exists_of_applyMovePlan env.service h.tree h.distinct
          hsrc hdst (hcols ▸ hat) hlive h.srcCanonical h.dstCanonical
          (h.countable _ (revNumber_of_getInode hsrc))
        change (db.answer (done (db.applyMovePlan env.service _))).2 = _
        rw [happly]
        rfl
      exact (alone_plannedMove hlive hinode).trans hcommit

/-- A move does what it should or nothing, and alone it ends well exactly when the source
has a dentry. -/
theorem movePath_effect (child : List UInt8 → String → Option ObjId) (src dst : DirName) :
    (∀ (db : FsMetaDb) (turns : List EntryTurn) (result : RpcResult Unit), dst ≠ src →
      Runs src dst db turns result → Outcome child src dst turns result) ∧
    ∀ (db : FsMetaDb) (env : TurnEnv), Ready child src dst db →
      (aloneResult env db (Client.handleMovePath src.dir src.name dst.dir dst.name) = .ok () ↔
        (db.targetAt src.dir src.name).isSome = true) :=
  ⟨fun _ _ _ hne h => movePath_moves hne h, fun _ env h => alone_iff h env⟩

/-- The root with a link in it. -/
def rootWithLink : FsMetaDb :=
  (run MetaState.step (MetaState.init 0)
    [.row false (.createDentry 0 1 "a" (.symLink "/y") 0)]).committed

/-- A directory over an object, which no dentry of its own names anything in. -/
def baseOnlyDir : FsMetaDb :=
  (run MetaState.step (MetaState.init 0)
    [.row false (.allocInode 0 [] (overlayNode ⟨"cydir", List.replicate 32 0⟩) rfl),
      .row false (.createDentry 0 1 "d" (.indexNodeId 2) 0)]).committed

/-- The base object names one child. -/
def oneChild (_base : List UInt8) (name : String) : Option ObjId :=
  if name = "a" then some ⟨"cyfile", []⟩ else none

theorem canonical_of_none {at' : DirName} (h : db.targetAt at'.dir at'.name = none) :
    db.Canonical at' := by
  intro cols hcols
  rw [h] at hcols
  cases hcols

theorem canonical_of_some {at' : DirName} {target : DentryTarget}
    (h : db.targetAt at'.dir at'.name = some (dentryTargetCols target))
    (hparse : parseTarget (dentryTargetCols target) = .ok target) : db.Canonical at' := by
  intro cols hcols
  rw [h] at hcols
  obtain rfl := Option.some.inj hcols
  exact ⟨target, hparse, rfl⟩

theorem countable_of_revNumber {dir : IndexNodeId} (rev : Int) (h : db.revNumber dir = some rev)
    (hlt : rev + 1 < 2 ^ 63) (n : Int) (hn : db.revNumber dir = some n) : n + 1 < 2 ^ 63 := by
  rw [h] at hn
  obtain rfl := Option.some.inj hn
  exact hlt

/-- A child that only the base object names can be seen and cannot be moved. -/
theorem baseOnly_not_moved :
    Ready oneChild ⟨2, "a"⟩ ⟨2, "b"⟩ baseOnlyDir ∧
      aloneResult EntryPoint.plainEnv baseOnlyDir (Client.handleMovePath 2 "a" 2 "b") =
        .error "not found" := by
  refine ⟨?_, by decide +kernel⟩
  have hleads : baseOnlyDir.leads oneChild ⟨2, "a"⟩ =
      some (dentryTargetCols (.objId ⟨"cyfile", []⟩)) := by rfl
  exact {
    tree := EntryPoint.treeInv_of_run _
    names := by decide
    distinct := by decide
    srcWritable := by decide +kernel
    dstWritable := by decide +kernel
    visible := ⟨_, hleads, fun id hid => by cases hid⟩
    srcCanonical := canonical_of_none (by decide)
    dstCanonical := canonical_of_none (by decide)
    countable := countable_of_revNumber 0 (by decide) (by decide) }

theorem ready_rootWithLink : Ready oneChild ⟨1, "a"⟩ ⟨1, "b"⟩ rootWithLink := by
  have hat : rootWithLink.targetAt 1 "a" = some (dentryTargetCols (.symLink "/y")) := by
    rfl
  have hleads : rootWithLink.leads oneChild ⟨1, "a"⟩ =
      some (dentryTargetCols (.symLink "/y")) := by rfl
  have hparse : parseTarget (dentryTargetCols (.symLink "/y")) = .ok (.symLink "/y") := by
    decide +kernel
  exact {
    tree := EntryPoint.treeInv_of_run _
    names := by decide
    distinct := by decide
    srcWritable := by decide
    dstWritable := by decide
    visible := ⟨_, hleads, fun id hid => by cases hid⟩
    srcCanonical := canonical_of_some hat hparse
    dstCanonical := canonical_of_none (by decide)
    countable := countable_of_revNumber 1 (by decide) (by decide) }

/-- Another client does this before the source is looked up. -/
def beforeLookup (q : EntryCall) (c : EntryCall) (db : FsMetaDb) : FsMetaDb :=
  match c with
  | .client (.getDentry _ _) => (db.execEntry EntryPoint.plainEnv q).1
  | _ => db

theorem others_beforeLookup (q c : EntryCall) {db : FsMetaDb} (hinv : db.TreeInv) :
    Others db (beforeLookup q c db) ∧ (beforeLookup q c db).TreeInv := by
  have hothers : Others db (beforeLookup q c db) := by
    unfold beforeLookup
    split
    · exact others_execEntry _ _ hinv
    · exact ⟨hinv, Counted.refl db⟩
  exact ⟨hothers, hothers.1⟩

/-- The turns of a renaming in the root with this between them, and its result. -/
def renameAmong (q : EntryCall) (db : FsMetaDb) : List EntryTurn × RpcResult Unit :=
  let run := Dialogue.among execEntry (beforeLookup q) EntryPoint.plainEnv db
    (EntryPoint.movePath 1 "a" 1 "b").dialogue
  (run.1.map Prod.snd, run.2)

theorem runs_renameAmong (q : EntryCall) {db : FsMetaDb} (hinv : db.TreeInv) :
    Runs ⟨1, "a"⟩ ⟨1, "b"⟩ db (renameAmong q db).1 (renameAmong q db).2 := by
  have hstep : ∀ (db : FsMetaDb) (env : TurnEnv) (c : EntryCall), db.TreeInv →
      (db.execEntry env c).1.TreeInv := fun _ _ c h => treeInv_execEntry h c
  have hmeddle : ∀ (db : FsMetaDb) (c : EntryCall), db.TreeInv →
      Others db (beforeLookup q c db) ∧ (beforeLookup q c db).TreeInv :=
    fun _ c h => others_beforeLookup q c h
  exact Dialogue.runs_among_of_inv hstep hmeddle EntryPoint.plainEnv _ hinv

/-- A link is renamed while another client makes one elsewhere; where the other one is made in
the same directory, the renaming is refused.  Alone it ends well. -/
theorem rootLink_renamed :
    ((renameAmong (.client (.symlink 2 "c" "/z")) EntryPoint.linkAndDir).2 = .ok () ∧
      Outcome oneChild ⟨1, "a"⟩ ⟨1, "b"⟩
        (renameAmong (.client (.symlink 2 "c" "/z")) EntryPoint.linkAndDir).1 (.ok ())) ∧
    (∃ e, (renameAmong (.client (.symlink 1 "c" "/z")) EntryPoint.linkAndDir).2 = .error e ∧
      Outcome oneChild ⟨1, "a"⟩ ⟨1, "b"⟩
        (renameAmong (.client (.symlink 1 "c" "/z")) EntryPoint.linkAndDir).1 (.error e)) ∧
    aloneResult EntryPoint.plainEnv rootWithLink (Client.handleMovePath 1 "a" 1 "b") = .ok () := by
  obtain ⟨houtcome, halone⟩ := movePath_effect oneChild ⟨1, "a"⟩ ⟨1, "b"⟩
  have hother := runs_renameAmong (.client (.symlink 2 "c" "/z")) EntryPoint.treeInv_linkAndDir
  have hsame := runs_renameAmong (.client (.symlink 1 "c" "/z")) EntryPoint.treeInv_linkAndDir
  have hok : (renameAmong (.client (.symlink 2 "c" "/z")) EntryPoint.linkAndDir).2 = .ok () := by
    decide +kernel
  have hbusy : (renameAmong (.client (.symlink 1 "c" "/z")) EntryPoint.linkAndDir).2 =
      .error "conflict" := by
    decide +kernel
  rw [hok] at hother
  rw [hbusy] at hsame
  refine ⟨⟨hok, houtcome _ _ _ (by decide) hother⟩,
    ⟨_, hbusy, houtcome _ _ _ (by decide) hsame⟩, ?_⟩
  exact (halone rootWithLink EntryPoint.plainEnv ready_rootWithLink).mpr (by decide)

end MovePath

end FsMeta
end CyfsNdn

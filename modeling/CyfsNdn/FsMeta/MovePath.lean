import CyfsNdn.FsMeta.FsMetaClient
import CyfsNdn.FsMeta.Requests

/-!
# Moves and the forest of directories

Every call of a client keeps the tables a forest, whatever the programs of the clients are,
except for the transaction of a move.  That transaction checks the revisions of the two
parents and nothing about what lies between them: it is up to the path test of the client
and to the reads before the transaction that the destination is not below what moves.  As
long as that holds whenever the transaction passes its check, no directory is ever above
itself.
-/

namespace CyfsNdn
namespace FsMeta

open NdnLib Relational Collections Relation Transition

namespace FsMetaDb

variable {db db' : FsMetaDb} {env : ServiceEnv}

/-! ## The transactions of a client -/

theorem forestInv_of_replaceByDir {parent : IndexNodeId} {name : String} {old : DentryTarget}
    {parentRev : UInt64} {node : NodeRecord} {id : IndexNodeId}
    (h : db.replaceByDir env parent name old parentRev node = .ok (id, db'))
    (hrefBy : node.refBy = none) (hparent : (db.nodes.find? parent).isSome = true)
    (hinv : db.ForestInv) : db'.ForestInv := by
  unfold replaceByDir at h
  simp only [except_bind_eq_ok, except_pure_eq_ok] at h
  obtain ⟨⟨newId, allocated⟩, halloc, ⟨changed, replaced⟩, hreplace, heq⟩ := h
  cases heq
  have hallocated := forestInv_of_allocInode halloc hrefBy hinv
  rcases retargets_of_replaceTarget hreplace hallocated.tree with rfl | hwrote
  · exact hallocated
  · refine forestInv_of_retargets hwrote ?_ hallocated
    intro m hm
    cases hm
    exact not_below_new halloc hrefBy hinv hparent

theorem forestInv_of_createAsDir {parent : IndexNodeId} {name : String} {parentRev : UInt64}
    {node : NodeRecord} {id : IndexNodeId}
    (h : db.createAsDir env parent name parentRev node = .ok (id, db'))
    (hrefBy : node.refBy = none) (hparent : (db.nodes.find? parent).isSome = true)
    (hinv : db.ForestInv) : db'.ForestInv := by
  unfold createAsDir at h
  simp only [except_bind_eq_ok, except_pure_eq_ok] at h
  obtain ⟨⟨newId, allocated⟩, halloc, created, hcreate, heq⟩ := h
  cases heq
  have hallocated := forestInv_of_allocInode halloc hrefBy hinv
  refine forestInv_of_retargets (retargets_of_createDentry hcreate hallocated.tree) ?_ hallocated
  intro m hm
  cases hm
  exact not_below_new halloc hrefBy hinv hparent

/-- Looking at a directory that is there writes nothing. -/
theorem eq_of_existingDir {id existing : IndexNodeId}
    (h : (do let existing ← db.existingDir id; return (existing, db)) =
      (.ok (existing, db') : RpcResult (IndexNodeId × FsMetaDb))) : db' = db := by
  simp only [except_bind_eq_ok, except_pure_eq_ok] at h
  obtain ⟨found, -, heq⟩ := h
  cases heq
  rfl

theorem forestInv_of_createDirUnderParent {parent : IndexNodeId} {name : String}
    {id : IndexNodeId} (h : db.createDirUnderParent env parent name = .ok (id, db'))
    (hinv : db.ForestInv) : db'.ForestInv := by
  unfold createDirUnderParent at h
  obtain ⟨parentNode, hnode, h⟩ := except_bind_eq_ok.mp h
  have hparent := isSome_of_parentForWrite hnode
  obtain ⟨found, -, h⟩ := except_bind_eq_ok.mp h
  cases found with
  | none => exact forestInv_of_createAsDir h rfl hparent hinv
  | some dentry =>
      dsimp only at h
      cases htarget : dentry.target with
      | indexNodeId existing =>
          rw [htarget] at h
          cases eq_of_existingDir h
          exact hinv
      | objId objId =>
          rw [htarget] at h
          simp only [guard_eq_ok] at h
          exact forestInv_of_replaceByDir h.2 rfl hparent hinv
      | tombstone =>
          rw [htarget] at h
          exact forestInv_of_replaceByDir h rfl hparent hinv
      | symLink path =>
          rw [htarget] at h
          cases h

theorem forestInv_of_materializeDirFromObj {parent : IndexNodeId} {name : String}
    {baseObjId : ObjId} {id : IndexNodeId}
    (h : db.materializeDirFromObj env parent name baseObjId = .ok (id, db'))
    (hinv : db.ForestInv) : db'.ForestInv := by
  unfold materializeDirFromObj at h
  obtain ⟨-, h⟩ := guard_eq_ok.mp h
  obtain ⟨parentNode, hnode, h⟩ := except_bind_eq_ok.mp h
  have hparent := isSome_of_parentForWrite hnode
  obtain ⟨found, -, h⟩ := except_bind_eq_ok.mp h
  cases found with
  | none => exact forestInv_of_createAsDir h rfl hparent hinv
  | some dentry =>
      dsimp only at h
      cases htarget : dentry.target with
      | indexNodeId existing =>
          rw [htarget] at h
          cases eq_of_existingDir h
          exact hinv
      | objId objId =>
          rw [htarget] at h
          simp only [guard_eq_ok] at h
          exact forestInv_of_replaceByDir h.2 rfl hparent hinv
      | tombstone =>
          rw [htarget] at h
          cases h
      | symLink path =>
          rw [htarget] at h
          cases h

/-! ## Calls -/

/-- A move gets to its writes only through the check of the two revisions. -/
theorem lockMoveParents_of_applyMovePlan {plan : MovePlan}
    (h : db.applyMovePlan env plan = .ok db') : db.lockMoveParentsInOrder plan = .ok () := by
  unfold applyMovePlan at h
  simp only [guard_eq_ok, except_bind_eq_ok] at h
  obtain ⟨-, -, -, -, -, u, hlock, -⟩ := h
  exact hlock

theorem forestInv_of_answer {α : Type} {result : RpcResult (α × FsMetaDb)}
    (h : ∀ a db', result = .ok (a, db') → db'.ForestInv) (hinv : db.ForestInv) :
    (db.answer result).1.ForestInv := by
  cases result with
  | error e => exact hinv
  | ok pair => exact h pair.1 pair.2 rfl

theorem done_eq_ok {result : RpcResult FsMetaDb} {u : Unit} :
    done result = .ok (u, db') ↔ result = .ok db' := by
  unfold done
  constructor
  · intro h
    obtain ⟨after, hafter, heq⟩ := except_map_eq_ok.mp h
    cases heq
    exact hafter
  · rintro rfl
    rfl

/-- A call keeps the forest; the transaction of a move that passes its check does so when
the destination is not below what moves. -/
theorem forestInv_execCall {turn : TurnEnv} {c : ServiceCall}
    (hsafe : ∀ plan, c = .applyMovePlan plan → db.lockMoveParentsInOrder plan = .ok () →
      ∀ m, plan.target = .indexNodeId m → ¬ AtOrBelow db.parentOf m plan.dstParent)
    (hinv : db.ForestInv) : (db.execCall turn c).1.ForestInv := by
  cases c with
  | getInode id => exact hinv
  | getDentry parent name => exact hinv
  | resolvePathEx path symCount => exact hinv
  | createDirUnderParent parent name =>
      exact forestInv_of_answer (fun _ _ h => forestInv_of_createDirUnderParent h hinv) hinv
  | materializeDirFromObj parent name baseObjId =>
      exact forestInv_of_answer (fun _ _ h => forestInv_of_materializeDirFromObj h hinv) hinv
  | setDir parent name dirObjId =>
      exact forestInv_of_answer (fun _ _ h => forestInv_of_setDir (done_eq_ok.mp h) hinv) hinv
  | symlink linkParent linkName target =>
      exact forestInv_of_answer (fun _ _ h => forestInv_of_symlink (done_eq_ok.mp h) hinv) hinv
  | createDir parent name =>
      exact forestInv_of_answer (fun _ _ h => forestInv_of_createDir (done_eq_ok.mp h) hinv) hinv
  | createTombstone parent name expectedParentRev =>
      refine forestInv_of_answer (fun _ after h => ?_) hinv
      have hcreate := retargets_of_createDentry (done_eq_ok.mp h) hinv.tree
      exact forestInv_of_retargets hcreate (fun _ hm => by cases hm) hinv
  | replaceByTombstone parent name expectedOldTarget expectedParentRev =>
      refine forestInv_of_answer (fun _ after h => ?_) hinv
      obtain ⟨⟨changed, replaced⟩, hreplace, rfl⟩ := except_map_eq_ok.mp (done_eq_ok.mp h)
      rcases retargets_of_replaceTarget hreplace hinv.tree with rfl | hwrote
      · exact hinv
      · exact forestInv_of_retargets hwrote (fun _ hm => by cases hm) hinv
  | applyMovePlan plan =>
      refine forestInv_of_answer (fun _ after h => ?_) hinv
      have happly := done_eq_ok.mp h
      exact forestInv_of_applyMovePlan happly
        (hsafe plan rfl (lockMoveParents_of_applyMovePlan happly)) hinv

theorem forestInv_fresh (now : UInt64) : (fresh now).ForestInv := by
  have hparent : ∀ id, (fresh now).parentOf id = none := by
    intro id
    unfold parentOf
    cases (fresh now).refOf id <;> rfl
  refine ⟨treeInv_fresh now, ?_, ?_⟩
  · intro d row hrow
    have hempty : (fresh now).dentries.find? d = none := rfl
    rw [hempty] at hrow
    cases hrow
  · constructor
    intro c
    constructor
    intro p hp
    change (fresh now).parentOf c = some p at hp
    rw [hparent] at hp
    cases hp

end FsMetaDb

/-! ## Runs -/

namespace ClientSystem

theorem forestInv_step (s : ClientSystem) (action : ClientAction) (hsafe : s.MoveSafe action)
    (hinv : s.db.ForestInv) : (s.step action).db.ForestInv := by
  cases action with
  | issue op => exact hinv
  | turn client env =>
      dsimp only [MoveSafe, nextMove] at hsafe
      dsimp only [step]
      cases hclient : s.clients[client]? with
      | none => exact hinv
      | some prog =>
          cases prog with
          | ret result => exact hinv
          | call c next =>
              rw [hclient] at hsafe
              refine FsMetaDb.forestInv_execCall ?_ hinv
              rintro plan rfl
              exact hsafe plan rfl

/-- When no move that passes its check goes below what it moves, no inode is ever above
itself: climbing from any inode ends, at the root or at an inode that no dentry targets. -/
theorem run_acyclic (start : UInt64) (actions : List ClientAction)
    (hsafe : Along step MoveSafe (init start) actions) :
    (∀ id, ¬ TransGen (ParentOf (run step (init start) actions).db.parentOf) id id) ∧
    ∀ id, ∃ top, AtOrBelow (run step (init start) actions).db.parentOf top id ∧
      (top = 1 ∨ (run step (init start) actions).db.refOf top = none) := by
  have hinv : (run step (init start) actions).db.ForestInv :=
    @run_invariant _ _ step MoveSafe (fun s => s.db.ForestInv) forestInv_step _ _ hsafe
      (FsMetaDb.forestInv_fresh start)
  refine ⟨hinv.forest.not_above_self, fun id => ?_⟩
  obtain ⟨top, hbelow, hnone⟩ := hinv.forest.exists_top id
  exact ⟨top, hbelow, Or.inr (FsMetaDb.refOf_of_parentOf_eq_none hinv.tree hnone)⟩

/-- A turn without a resolver. -/
def plainTurn (client : Nat) : ClientAction :=
  .turn client ⟨.standalone 0, fun _ _ => .error "resolver"⟩

/-- Two directories, and the first one on its way into the second. -/
def moveIntoSibling : List ClientAction :=
  [.issue (.createDir "/a"), plainTurn 0, .issue (.createDir "/b"), plainTurn 1,
    .issue (.movePath "/a" "/b/c"), plainTurn 2, plainTurn 2, plainTurn 2, plainTurn 2,
    plainTurn 2, plainTurn 2, plainTurn 2]

/-- The action is not the transaction of a move. -/
def beforeMove (s : ClientSystem) : ClientAction → Bool
  | .issue _ => true
  | .turn client _ => (s.nextMove client).isNone

theorem moveSafe_of_beforeMove {s : ClientSystem} {action : ClientAction}
    (h : s.beforeMove action = true) : s.MoveSafe action := by
  cases action with
  | issue op => trivial
  | turn client env =>
      intro plan hplan
      dsimp only [beforeMove] at h
      rw [hplan] at h
      cases h

theorem moveIntoSibling_acyclic :
    (∀ id, ¬ TransGen (ParentOf (run step (init 0)
      (moveIntoSibling ++ [plainTurn 2])).db.parentOf) id id) ∧
    ∀ id, ∃ top, AtOrBelow (run step (init 0)
        (moveIntoSibling ++ [plainTurn 2])).db.parentOf top id ∧
      (top = 1 ∨ (run step (init 0) (moveIntoSibling ++ [plainTurn 2])).db.refOf top = none) := by
  refine run_acyclic 0 (moveIntoSibling ++ [plainTurn 2]) (along_append.mpr ⟨?_, ?_, trivial⟩)
  · -- all turns but the last are reads and calls that move nothing
    have hreads : Along step (fun s action => s.beforeMove action = true) (init 0)
        moveIntoSibling := by decide
    exact hreads.mono fun s action => moveSafe_of_beforeMove
  · intro plan hplan hlock m hm hbelow
    -- the transaction moves inode 2 to below inode 3, which is in the root
    have hplanned : ((run step (init 0) moveIntoSibling).nextMove 2).map
        (fun plan => (plan.target, plan.dstParent)) = some (.indexNodeId 2, 3) := by
      decide
    rw [hplan] at hplanned
    obtain ⟨htarget, hdst⟩ := Prod.mk.inj (Option.some.inj hplanned)
    rw [htarget] at hm
    cases hm
    rw [hdst] at hbelow
    have hthree : (run step (init 0) moveIntoSibling).db.parentOf 3 = some 1 := by decide
    have hroot : (run step (init 0) moveIntoSibling).db.parentOf 1 = none := by decide
    rcases hbelow.cases_tail with heq | ⟨p, hp, hparent⟩
    · cases heq
    · cases Option.some.inj (hthree.symm.trans hparent)
      rcases hp.cases_tail with heq | ⟨q, -, hq⟩
      · cases heq
      · cases hroot.symm.trans hq

/-- A directory and one inside it, and a move of the outer one into the inner one under a
spelling of its path that the test of the client does not see through. -/
def moveIntoChild : List ClientAction :=
  [.issue (.createDir "/a"), plainTurn 0,
    .issue (.createDir "/a/b"), plainTurn 1, plainTurn 1, plainTurn 1,
    .issue (.movePath "/a" "//a/b/c"), plainTurn 2, plainTurn 2, plainTurn 2, plainTurn 2,
    plainTurn 2, plainTurn 2, plainTurn 2, plainTurn 2, plainTurn 2, plainTurn 2]

/-- The outer directory is now in the inner one and the inner one still in the outer. -/
theorem moveIntoChild_cycle :
    TransGen (ParentOf (run step (init 0) moveIntoChild).db.parentOf) 2 2 := by
  have houter : ParentOf (run step (init 0) moveIntoChild).db.parentOf 3 2 := by
    show (run step (init 0) moveIntoChild).db.parentOf 2 = some 3
    decide
  have hinner : ParentOf (run step (init 0) moveIntoChild).db.parentOf 2 3 := by
    show (run step (init 0) moveIntoChild).db.parentOf 3 = some 2
    decide
  exact (TransGen.single hinner).tail houter

end ClientSystem

end FsMeta
end CyfsNdn

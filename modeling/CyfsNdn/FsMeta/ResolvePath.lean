import CyfsNdn.FsMeta.EdgeInvalidation
import CyfsNdn.FsMeta.FsMetaClient
import CyfsNdn.FsMeta.Requests

/-!
# Resolving a path

`handle_resolve_path_ex` walks the dentries of a path one at a time, from the longest
prefix that the cache knows, and puts the chain it has read into the cache at the end.  It
is a program here: its next call and, for each answer, what follows.  With a cache that
knows nothing and keeps nothing it is the plain walk.

A resolver makes its calls one by one, and namespace operations come between them.  A
namespace operation is a transaction of requests on rows; the handlers of the service
differ only in which requests they make.  The edges it has changed are invalidated some
time after its commit.  The named store is the same throughout: the base directories are
immutable objects.
-/

namespace CyfsNdn
namespace FsMeta

open NdnLib Relational Collections Relation Transition

/-! ## Programs -/

/-- A read or a cache access of the resolver. -/
inductive ResolveCall where
  | getTerminal (components : Components)
  | getPrefix (components : Components)
  | getDentry (parent : IndexNodeId) (name : String)
  | getInode (id : IndexNodeId)
  | lookupBase (dirNode : NodeRecord) (name : String)
  | putIds (components : Components) (ids : List IndexNodeId)
  | putTerminal (components : Components) (parentIds : List IndexNodeId)
      (value : PathResolveTerminalValue)

/-- What a call answers. -/
def ResolveCall.Reply : ResolveCall → Type
  | .getTerminal _ => Option PathResolveTerminalHit
  | .getPrefix _ => Option (List IndexNodeId)
  | .getDentry _ _ => RpcResult (Option DentryRecord)
  | .getInode _ => RpcResult (Option NodeRecord)
  | .lookupBase _ _ => RpcResult BaseChildLookup
  | .putIds _ _ => Unit
  | .putTerminal _ _ _ => Unit

/-- A program of the resolver. -/
inductive ResolveProg (α : Type) where
  | ret (a : α)
  | call (c : ResolveCall) (next : c.Reply → ResolveProg α)

namespace ResolveProg

/-- One call. -/
def ask (c : ResolveCall) : ResolveProg c.Reply := .call c .ret

/-- One program after another. -/
def bind {α β : Type} : ResolveProg α → (α → ResolveProg β) → ResolveProg β
  | .ret a, f => f a
  | .call c next, f => .call c fun reply => bind (next reply) f

instance : Monad ResolveProg where
  pure := .ret
  bind := bind

end ResolveProg

/-! ## The handler -/

/-- `root_inode`. -/
def rootInode : IndexNodeId := 1

/-- `join_components`. -/
def joinComponents (components : Components) : Option String :=
  if components = [] then none else some ("/" ++ String.intercalate "/" components)

/-- One segment of a link target. -/
def pushSegment (out : Components) (segment : List Char) : Components :=
  if segment = [] ∨ segment = ['.'] then out
  else if segment = ['.', '.'] then out.dropLast
  else out ++ [String.ofList segment]

/-- `normalize_symlink_target_path`. -/
def normalizeSymlinkTargetPath (parentPrefix : Components) (targetPath : String)
    (tail : Components) : Components :=
  let start := if targetPath.toList.head? = some '/' then [] else parentPrefix
  (targetPath.toList.splitOn '/').foldl pushSegment start ++ tail

/-- `NdnResult<Option<FsMetaResolvePathResp>>`; every error is an `Internal` with a text. -/
abbrev ResolveAnswer := Except String (Option ResolvePathResp)

/-- The end of a round of the outer loop. -/
inductive RoundEnd where
  | answer (result : ResolveAnswer)
  | again (symCount : Nat) (components : Components)

namespace Resolver

open ResolveProg

/-- The answer that ends at an inode. -/
def inodeAnswer (id : IndexNodeId) (failure : String) :
    RpcResult (Option NodeRecord) → ResolveAnswer
  | .error e => .error (failure ++ e)
  | .ok node => .ok (node.map fun inode => ⟨.inode id inode, none⟩)

/-- A symbolic link: the answer without budget, another round with it. -/
def followLink (symCount : Nat) (parentPrefix : Components) (targetPath : String)
    (tail : Components) : RoundEnd :=
  match symCount with
  | 0 => .answer (.ok (some ⟨.symLink targetPath, joinComponents tail⟩))
  | symCount + 1 => .again symCount (normalizeSymlinkTargetPath parentPrefix targetPath tail)

/-- The child of a directory that has no dentry of its own. -/
def baseTarget (parent : IndexNodeId) (name : String) :
    ResolveProg (Except String (Option DentryTarget)) := do
  match ← ask (.getInode parent) with
  | .error e => return .error ("failed to get inode: " ++ e)
  | .ok none => return .error "parent inode not found"
  | .ok (some parentNode) =>
      if parentNode.state.kind ≠ .dir then return .ok none
      match ← ask (.lookupBase parentNode name) with
      | .error e => return .error ("failed to lookup base child: " ++ e)
      | .ok .missing => return .ok none
      | .ok (.dirObj objId) => return .ok (some (.objId objId))
      | .ok (.nonDirObj objId) => return .ok (some (.objId objId))

/-- The target of one name. -/
def childTarget (parent : IndexNodeId) (name : String) :
    ResolveProg (Except String (Option DentryTarget)) := do
  match ← ask (.getDentry parent name) with
  | .error e => return .error ("failed to get dentry: " ++ e)
  | .ok (some dentry) => return .ok (some dentry.target)
  | .ok none => baseTarget parent name

/-- The last name leads to an inode: the chain is cached when the inode is there. -/
def lastInode (components : Components) (ids : List IndexNodeId) (id : IndexNodeId) :
    ResolveProg RoundEnd := do
  match ← ask (.getInode id) with
  | .ok (some inode) => do
      ask (.putIds components ids)
      return .answer (.ok (some ⟨.inode id inode, none⟩))
  | reply => return .answer (inodeAnswer id "failed to get inode: " reply)

/-- The inner loop, from the components that are done on. -/
def walkFrom (symCount : Nat) : Components → Components → List IndexNodeId → IndexNodeId →
    ResolveProg RoundEnd
  | _, [], _, _ => return .answer (.ok none)
  | walked, name :: rest, ids, currentId => do
      match ← childTarget currentId name with
      | .error e => return .answer (.error e)
      | .ok none => return .answer (.ok none)
      | .ok (some .tombstone) => return .answer (.ok none)
      | .ok (some (.indexNodeId id)) =>
          if rest = [] then lastInode (walked ++ [name]) (ids ++ [id]) id
          else walkFrom symCount (walked ++ [name]) rest (ids ++ [id]) id
      | .ok (some (.objId objId)) => do
          ask (.putTerminal (walked ++ [name]) ids (.objId objId))
          return .answer (.ok (some ⟨.objId objId, joinComponents rest⟩))
      | .ok (some (.symLink targetPath)) => do
          ask (.putTerminal (walked ++ [name]) ids (.symLink targetPath))
          return followLink symCount walked targetPath rest

/-- What follows a miss of the terminal cache: the walk from the longest cached prefix. -/
def walkFromPrefix (symCount : Nat) (components : Components) : ResolveProg RoundEnd := do
  match ← ask (.getPrefix components) with
  | none => walkFrom symCount [] components [rootInode] rootInode
  | some ids =>
      let matchedLen := ids.length - 1
      let currentId := ids.getLast?.getD rootInode
      if matchedLen = components.length then
        return .answer (inodeAnswer currentId "failed to get inode: " (← ask (.getInode currentId)))
      walkFrom symCount (components.take matchedLen) (components.drop matchedLen) ids currentId

/-- The answer of a terminal entry of the cache. -/
def terminalEnd (symCount : Nat) (components : Components) (hit : PathResolveTerminalHit) :
    RoundEnd :=
  let tail := components.drop hit.matchedLen
  match hit.value.val with
  | .objId objId => .answer (.ok (some ⟨.objId objId, joinComponents tail⟩))
  | .symLink targetPath =>
      followLink symCount (components.take (hit.matchedLen - 1)) targetPath tail

/-- One round of the outer loop. -/
def round (symCount : Nat) (components : Components) : ResolveProg RoundEnd := do
  if components = [] then
    return .answer (inodeAnswer rootInode "failed to get root inode: "
      (← ask (.getInode rootInode)))
  match ← ask (.getTerminal components) with
  | some hit => return terminalEnd symCount components hit
  | none => walkFromPrefix symCount components

/-- The outer loop for a number of rounds; no answer when they have run out. -/
def rounds : Nat → Nat → Components → ResolveProg (Option ResolveAnswer)
  | 0, _, _ => return none
  | n + 1, symCount, components => do
      match ← round symCount components with
      | .answer result => return some result
      | .again symCount components => rounds n symCount components

end Resolver

/-- `handle_resolve_path_ex`, with as many rounds as the budget of links allows. -/
def resolvePathEx (path : String) (symCount : Nat) : ResolveProg (Option ResolveAnswer) :=
  Resolver.rounds (symCount + 1) symCount (NfsPath.components path)

/-! ## Running a program -/

namespace FsMetaDb

/-- The answer of a read. -/
def resolveReply (db : FsMetaDb) (env : ServiceEnv) (cache : PathResolveCache) :
    (c : ResolveCall) → c.Reply
  | .getTerminal components => (cache.getTerminalForPath components).1
  | .getPrefix components => (cache.getLongestPrefixIdsForPath components).map Arc.val
  | .getDentry parent name => db.getDentry parent name
  | .getInode id => db.getInode id
  | .lookupBase dirNode name => lookupBaseDirobjChild env dirNode name
  | .putIds _ _ => ()
  | .putTerminal _ _ _ => ()

end FsMetaDb

namespace PathResolveCache

/-- The cache after a call of the resolver. -/
def afterCall (cache : PathResolveCache) (order : HashOrder) : ResolveCall → PathResolveCache
  | .getTerminal components => (cache.getTerminalForPath components).2
  | .putIds components ids => cache.putIdsForPath order components ids
  | .putTerminal components parentIds value =>
      cache.putTerminalForPath order components parentIds value
  | _ => cache

end PathResolveCache

namespace ResolveProg

variable {α : Type}

/-- The program without a cache: no lookup finds anything and no put is kept. -/
def runPlain (db : FsMetaDb) (env : ServiceEnv) : ResolveProg α → α
  | .ret a => a
  | .call c next => runPlain db env (next (db.resolveReply env (PathResolveCache.new 0) c))

/-- All values that a program may return, whatever its calls answer. -/
def Returns (p : α → Prop) : ResolveProg α → Prop
  | .ret a => p a
  | .call _ next => ∀ reply, Returns p (next reply)

section Bind

variable {β : Type} {db : FsMetaDb} {env : ServiceEnv}

@[simp] theorem runPlain_pure (a : α) : (pure a : ResolveProg α).runPlain db env = a := rfl

@[simp] theorem runPlain_ask (c : ResolveCall) :
    (ask c).runPlain db env = db.resolveReply env (PathResolveCache.new 0) c := rfl

@[simp] theorem runPlain_bind (p : ResolveProg α) (f : α → ResolveProg β) :
    (p >>= f).runPlain db env = (f (p.runPlain db env)).runPlain db env := by
  induction p with
  | ret a => rfl
  | call c next ih => exact ih _

theorem returns_bind {q : β → Prop} {p : ResolveProg α} {f : α → ResolveProg β}
    {good : α → Prop} (hp : p.Returns good) (hf : ∀ a, good a → (f a).Returns q) :
    (p >>= f).Returns q := by
  induction p with
  | ret a => exact hf a hp
  | call c next ih => exact fun reply => ih reply (hp reply)

theorem returns_true (p : ResolveProg α) : p.Returns fun _ => True := by
  induction p with
  | ret a => trivial
  | call c next ih => exact ih

end Bind

end ResolveProg

/-! ## The number of rounds -/

namespace Resolver

open ResolveProg

/-- A round that asks for another one has used up a part of the budget. -/
def EndsWithin (symCount : Nat) : RoundEnd → Prop
  | .answer _ => True
  | .again left _ => left < symCount

theorem endsWithin_followLink (symCount : Nat) (parentPrefix : Components) (targetPath : String)
    (tail : Components) :
    EndsWithin symCount (followLink symCount parentPrefix targetPath tail) := by
  cases symCount with
  | zero => trivial
  | succ left => exact Nat.lt_succ_self left

theorem returns_lastInode (symCount : Nat) (components : Components) (ids : List IndexNodeId)
    (id : IndexNodeId) : (lastInode components ids id).Returns (EndsWithin symCount) := by
  refine returns_bind (returns_true _) fun reply _ => ?_
  split
  · intro done
    trivial
  · trivial

theorem returns_walkFrom (symCount : Nat) (walked rest : Components) (ids : List IndexNodeId)
    (currentId : IndexNodeId) :
    (walkFrom symCount walked rest ids currentId).Returns (EndsWithin symCount) := by
  induction rest generalizing walked ids currentId with
  | nil => trivial
  | cons name rest ih =>
      refine returns_bind (returns_true _) fun target _ => ?_
      split
      · trivial
      · trivial
      · trivial
      · split_ifs
        · exact returns_lastInode symCount _ _ _
        · exact ih _ _ _
      · intro done
        trivial
      · intro done
        exact endsWithin_followLink symCount walked _ rest

theorem returns_walkFromPrefix (symCount : Nat) (components : Components) :
    (walkFromPrefix symCount components).Returns (EndsWithin symCount) := by
  refine returns_bind (returns_true _) fun ids _ => ?_
  split
  · exact returns_walkFrom symCount _ _ _ _
  · dsimp only
    split_ifs
    · intro reply
      trivial
    · exact returns_walkFrom symCount _ _ _ _

theorem returns_round (symCount : Nat) (components : Components) :
    (round symCount components).Returns (EndsWithin symCount) := by
  unfold round
  split_ifs
  · intro reply
    trivial
  · refine returns_bind (returns_true _) fun hit _ => ?_
    split
    · rename_i hit
      unfold terminalEnd
      dsimp only
      split
      · trivial
      · exact endsWithin_followLink symCount _ _ _
    · exact returns_walkFromPrefix symCount components

/-- More rounds than the budget has links are never needed, whatever the calls answer. -/
theorem returns_rounds {n symCount : Nat} (h : symCount < n) (components : Components) :
    (rounds n symCount components).Returns fun answer => answer.isSome = true := by
  induction n generalizing symCount components with
  | zero => exact absurd h (Nat.not_lt_zero symCount)
  | succ n ih =>
      apply returns_bind (returns_round symCount components)
      intro roundEnd hend
      cases roundEnd with
      | answer result => rfl
      | again left components =>
          have hleft : left < symCount := hend
          exact ih (by omega) components

end Resolver

/-! ## Namespace operations -/

namespace FsMetaDb

/-- A request on rows in a transaction, with the edge that it has changed. -/
def applyRow (db : FsMetaDb) : RowRequest → RpcResult (Option Edge × FsMetaDb)
  | .allocInode now candidates node _ =>
      (db.allocInode now candidates node).map fun result => (none, result.2)
  | .createDentry now parent name target expectedParentRev =>
      (db.createDentry now parent name target expectedParentRev).map fun db' =>
        (some (parent, name), db')
  | .deleteDentry now parent name expectedParentRev =>
      (db.deleteDentry now parent name expectedParentRev).map fun result =>
        (if result.1 then some (parent, name) else none, result.2)
  | .replaceTarget now parent name expectedOldTarget newTarget expectedParentRev =>
      (db.replaceTarget now parent name expectedOldTarget newTarget expectedParentRev).map
        fun result => (if result.1 then some (parent, name) else none, result.2)

/-- The requests of a transaction one after another, with the edges that they have changed;
the first error ends it. -/
def transact (db : FsMetaDb) : List RowRequest → RpcResult (List Edge × FsMetaDb)
  | [] => return ([], db)
  | request :: rest => do
      let (edge, next) ← db.applyRow request
      let (edges, after) ← next.transact rest
      return (edge.toList ++ edges, after)

end FsMetaDb

/-! ## Resolvers and namespace operations together -/

/-- The tables, the cache, the edges that were changed by a commit and are still to be
invalidated, and the programs of the resolvers. -/
structure ResolveSystem where
  db : FsMetaDb
  cache : PathResolveCache
  pending : List Edge
  calls : List (ResolveProg (Option ResolveAnswer))

/-- A resolver starts or makes its next call, a transaction commits, or an edge is
invalidated. -/
inductive ResolveAction where
  | resolve (path : String) (symCount : Nat)
  | turn (i : Nat) (order : HashOrder)
  | commit (requests : List RowRequest)
  | invalidate (order : HashOrder) (edge : Edge)

namespace ResolveSystem

/-- A fresh service with an empty cache. -/
def init (now : UInt64) (maxEntries : Nat) : ResolveSystem :=
  ⟨.fresh now, .new maxEntries, [], []⟩

/-- The state after an action. -/
def step (env : ServiceEnv) (s : ResolveSystem) : ResolveAction → ResolveSystem
  | .resolve path symCount => { s with calls := s.calls ++ [resolvePathEx path symCount] }
  | .turn i order =>
      match s.calls[i]? with
      | some (.call c next) =>
          { s with
            cache := s.cache.afterCall order c
            calls := s.calls.set i (next (s.db.resolveReply env s.cache c)) }
      | _ => s
  | .commit requests =>
      match s.db.transact requests with
      | .ok (edges, db') => { s with db := db', pending := s.pending ++ edges.dedup }
      | .error _ => s
  | .invalidate order edge =>
      if edge ∈ s.pending then
        { s with
          cache := s.cache.invalidateByEdge order edge.1 edge.2
          pending := s.pending.erase edge }
      else s

end ResolveSystem

end FsMeta
end CyfsNdn

import CyfsNdn.FsMeta.DirForest
import CyfsNdn.Transition.Run

/-!
# Clients of the metadata service

`FsMetaClient` of `fsmeta_client.rs` turns an operation on paths into calls of the
service.  A client is a program: its next call and, for each answer, the program that goes
on.  The programs of any number of clients run interleaved, one call at a time; a
transaction is one call, because it holds the write lock from its first statement on.  The
reads that `handle_delete` and `handle_move_path` make before they write are calls of
their own.

`handle_resolve_path_ex` may answer from its cache, so its answer is not computed here: it
is part of the environment of a turn.  The text of a service error stands for its
`Display` form in the errors of the client.
-/

namespace CyfsNdn
namespace FsMeta

open NdnLib Relational Collections Relation Transition

/-! ## Paths -/

namespace NfsPath

/-- `trim_end_matches('/')`. -/
def trimEnd (path : String) : List Char :=
  (path.toList.reverse.dropWhile fun c => c == '/').reverse

/-- `components`. -/
def components (path : String) : List String :=
  ((path.toList.splitOn '/').filter fun s => s ≠ []).map String.ofList

/-- `is_root`. -/
def isRoot (path : String) : Bool := trimEnd path = [] || trimEnd path = ['/']

/-- `split_parent_name`. -/
def splitParentName (path : String) : Option (String × String) :=
  let trimmed := trimEnd path
  if trimmed = [] ∨ trimmed = ['/'] then none
  else
    let name := (trimmed.reverse.takeWhile fun c => c ≠ '/').reverse
    match (trimmed.reverse.dropWhile fun c => c ≠ '/') with
    | [] => none
    | _ :: parent =>
        if name = [] then none
        else some (if parent = [] then "/" else String.ofList parent.reverse, String.ofList name)

end NfsPath

/-- `join_child_path`. -/
def joinChildPath (parent name : String) : String :=
  let trimmed := NfsPath.trimEnd parent
  if trimmed = [] ∨ trimmed = ['/'] then "/" ++ name
  else String.ofList trimmed ++ "/" ++ name

/-- `is_descendant_path`. -/
def isDescendantPath (path ancestor : String) : Bool :=
  let pathStr := NfsPath.trimEnd path
  let ancestorStr := NfsPath.trimEnd ancestor
  if ancestorStr = [] then false
  else if pathStr = ancestorStr then false
  else if !ancestorStr.isPrefixOf pathStr then false
  else (pathStr.drop ancestorStr.length).head? = some '/'

/-! ## Calls -/

/-- `FsMetaResolvePathItem`. -/
inductive ResolvePathItem where
  | inode (id : IndexNodeId) (node : NodeRecord)
  | objId (objId : ObjId)
  | symLink (path : String)
deriving DecidableEq

/-- `FsMetaResolvePathResp`. -/
structure ResolvePathResp where
  item : ResolvePathItem
  innerPath : Option String
deriving DecidableEq

/-- A call of the service, or one part of it that others may come before and after. -/
inductive ServiceCall where
  | getInode (id : IndexNodeId)
  | getDentry (parent : IndexNodeId) (name : String)
  | resolvePathEx (path : String) (symCount : Nat)
  | createDirUnderParent (parent : IndexNodeId) (name : String)
  | materializeDirFromObj (parent : IndexNodeId) (name : String) (baseObjId : ObjId)
  | setDir (parent : IndexNodeId) (name : String) (dirObjId : ObjId)
  | symlink (linkParent : IndexNodeId) (linkName target : String)
  | createDir (parent : IndexNodeId) (name : String)
  | createTombstone (parent : IndexNodeId) (name : String) (expectedParentRev : UInt64)
  | replaceByTombstone (parent : IndexNodeId) (name : String) (expectedOldTarget : DentryTarget)
      (expectedParentRev : UInt64)
  | applyMovePlan (plan : MovePlan)

/-- What a call answers. -/
def ServiceCall.Reply : ServiceCall → Type
  | .getInode _ => Option NodeRecord
  | .getDentry _ _ => Option DentryRecord
  | .resolvePathEx _ _ => Option ResolvePathResp
  | .createDirUnderParent _ _ => IndexNodeId
  | .materializeDirFromObj _ _ _ => IndexNodeId
  | _ => Unit

/-- A program of a client: an answer, or a call and what follows each answer to it. -/
inductive Prog (α : Type) where
  | ret (result : RpcResult α)
  | call (c : ServiceCall) (next : RpcResult c.Reply → Prog α)

namespace Prog

/-- One call. -/
def ask (c : ServiceCall) : Prog c.Reply := .call c .ret

/-- One program after another, which an error skips. -/
def bind {α β : Type} : Prog α → (α → Prog β) → Prog β
  | .ret (.ok a), f => f a
  | .ret (.error e), _ => .ret (.error e)
  | .call c next, f => .call c fun reply => bind (next reply) f

/-- A program that goes on after an error. -/
def handle {α β : Type} : Prog α → (RpcResult α → Prog β) → Prog β
  | .ret result, f => f result
  | .call c next, f => .call c fun reply => handle (next reply) f

instance : Monad Prog where
  pure a := .ret (.ok a)
  bind := bind

instance : MonadExcept String Prog where
  throw e := .ret (.error e)
  tryCatch p f := handle p fun result =>
    match result with
    | .ok a => .ret (.ok a)
    | .error e => f e

end Prog

/-! ## The transactions of a client -/

namespace FsMetaDb

/-- The parent as the transactions of a client check it. -/
def clientParent (db : FsMetaDb) (parent : IndexNodeId) : RpcResult NodeRecord :=
  db.parentForWrite parent "parent directory not found"

/-- A directory that is there already. -/
def existingDir (db : FsMetaDb) (id : IndexNodeId) : RpcResult IndexNodeId := do
  let node ← db.getInodeOr id "inode not found"
  if node.state.kind ≠ .dir then throw "path is not a directory"
  return id

/-- A new directory inode in the place of a target. -/
def replaceByDir (db : FsMetaDb) (env : ServiceEnv) (parent : IndexNodeId) (name : String)
    (old : DentryTarget) (parentRev : UInt64) (node : NodeRecord) :
    RpcResult (IndexNodeId × FsMetaDb) := do
  let (id, allocated) ← db.allocInode env.now env.candidates node
  let (_, replaced) ← allocated.replaceTarget env.now parent name old (.indexNodeId id) parentRev
  return (id, replaced)

/-- A new directory inode under a free name. -/
def createAsDir (db : FsMetaDb) (env : ServiceEnv) (parent : IndexNodeId) (name : String)
    (parentRev : UInt64) (node : NodeRecord) : RpcResult (IndexNodeId × FsMetaDb) := do
  let (id, allocated) ← db.allocInode env.now env.candidates node
  let created ← allocated.createDentry env.now parent name (.indexNodeId id) parentRev
  return (id, created)

/-- The overlay of a directory object. -/
def overlayNode (baseObjId : ObjId) : NodeRecord := newNode .dirOverlay (some baseObjId) (some 0)

/-- One attempt of the client's `create_dir_under_parent`. -/
def createDirUnderParent (db : FsMetaDb) (env : ServiceEnv) (parent : IndexNodeId)
    (name : String) : RpcResult (IndexNodeId × FsMetaDb) := do
  let parentNode ← db.clientParent parent
  let parentRev := parentNode.rev.getD 0
  match ← db.getDentry parent name with
  | some dentry =>
      match dentry.target with
      | .indexNodeId id =>
          let existing ← db.existingDir id
          return (existing, db)
      | .objId objId =>
          if !objId.isDirObject then throw "path is not a directory"
          db.replaceByDir env parent name (.objId objId) parentRev (overlayNode objId)
      | .tombstone =>
          db.replaceByDir env parent name .tombstone parentRev (newNode .dirNormal none (some 0))
      | .symLink _ => throw "path is not a directory"
  | none => db.createAsDir env parent name parentRev (newNode .dirNormal none (some 0))

/-- One attempt of the client's `materialize_dir_from_obj`. -/
def materializeDirFromObj (db : FsMetaDb) (env : ServiceEnv) (parent : IndexNodeId)
    (name : String) (baseObjId : ObjId) : RpcResult (IndexNodeId × FsMetaDb) := do
  if !baseObjId.isDirObject then throw "path is not a directory"
  let parentNode ← db.clientParent parent
  let parentRev := parentNode.rev.getD 0
  match ← db.getDentry parent name with
  | some dentry =>
      match dentry.target with
      | .indexNodeId id =>
          let existing ← db.existingDir id
          return (existing, db)
      | .objId objId =>
          if !objId.isDirObject then throw "path is not a directory"
          db.replaceByDir env parent name (.objId objId) parentRev (overlayNode objId)
      | .tombstone => throw "path not found"
      | .symLink _ => throw "path is not a directory"
  | none => db.createAsDir env parent name parentRev (overlayNode baseObjId)

end FsMetaDb

/-- The environment of a turn: that of the service, and what its resolver answers. -/
structure TurnEnv where
  service : ServiceEnv
  resolve : String → Nat → RpcResult (Option ResolvePathResp)

namespace FsMetaDb

/-- The end of a call that may write. -/
def answer {α : Type} (db : FsMetaDb) : RpcResult (α × FsMetaDb) → FsMetaDb × RpcResult α
  | .ok (a, db') => (db', .ok a)
  | .error e => (db, .error e)

/-- A call that answers with nothing but success. -/
def done (result : RpcResult FsMetaDb) : RpcResult (Unit × FsMetaDb) :=
  result.map fun db' => ((), db')

/-- The tables after a call, and its answer. -/
def execCall (db : FsMetaDb) (env : TurnEnv) : (c : ServiceCall) → FsMetaDb × RpcResult c.Reply
  | .getInode id => (db, db.getInode id)
  | .getDentry parent name => (db, db.getDentry parent name)
  | .resolvePathEx path symCount => (db, env.resolve path symCount)
  | .createDirUnderParent parent name =>
      db.answer (db.createDirUnderParent env.service parent name)
  | .materializeDirFromObj parent name baseObjId =>
      db.answer (db.materializeDirFromObj env.service parent name baseObjId)
  | .setDir parent name dirObjId => db.answer (done (db.setDir env.service parent name dirObjId))
  | .symlink linkParent linkName target =>
      db.answer (done (db.symlink env.service linkParent linkName target))
  | .createDir parent name => db.answer (done (db.createDir env.service parent name))
  | .createTombstone parent name expectedParentRev =>
      db.answer (done (db.createDentry env.service.now parent name .tombstone expectedParentRev))
  | .replaceByTombstone parent name expectedOldTarget expectedParentRev =>
      db.answer (done ((db.replaceTarget env.service.now parent name expectedOldTarget .tombstone
        expectedParentRev).map Prod.snd))
  | .applyMovePlan plan => db.answer (done (db.applyMovePlan env.service plan))

end FsMetaDb

/-! ## The operations of a client -/

namespace Client

open Prog

/-- `DEFAULT_CLIENT_SYMLINK_COUNT`. -/
def defaultClientSymlinkCount : Nat := 40

/-- `ENSURE_DIR_RETRY_LIMIT`. -/
def ensureDirRetryLimit : Nat := 8

/-- `contains` on strings. -/
def containsText (text part : String) : Bool :=
  text.toList.tails.any fun rest => part.toList.isPrefixOf rest

/-- `is_retryable_conflict`. -/
def isRetryableConflict (e : String) : Bool :=
  containsText e "rev mismatch" || containsText e "already exists" || containsText e "conflict"

/-- A transaction that is tried again after a conflict. -/
def retrying (c : ServiceCall) (exhausted : String) : Nat → Prog c.Reply
  | 0 => throw exhausted
  | attempts + 1 =>
      handle (ask c) fun result =>
        match result with
        | .ok reply => .ret (.ok reply)
        | .error e => if isRetryableConflict e then retrying c exhausted attempts else throw e

/-- `create_dir_under_parent`. -/
def createDirUnderParent (parent : IndexNodeId) (name : String) : Prog IndexNodeId :=
  retrying (.createDirUnderParent parent name) "conflict while creating directory"
    ensureDirRetryLimit

/-- `materialize_dir_from_obj`. -/
def materializeDirFromObj (parent : IndexNodeId) (name : String) (baseObjId : ObjId) :
    Prog IndexNodeId :=
  retrying (.materializeDirFromObj parent name baseObjId) "conflict while materializing directory"
    ensureDirRetryLimit

/-- `get_inode` where a missing inode is an error. -/
def inodeOr (id : IndexNodeId) (missing : String) : Prog NodeRecord := do
  match ← ask (.getInode id) with
  | some node => return node
  | none => throw missing

/-- The child of a directory that has no dentry of its own. -/
def resolvedChild (parent : IndexNodeId) (name childPath : String) : Prog IndexNodeId := do
  match ← ask (.resolvePathEx childPath defaultClientSymlinkCount) with
  | some ⟨.inode id node, _⟩ =>
      if node.state.kind ≠ .dir then throw (childPath ++ " is not a directory")
      return id
  | some ⟨.objId objId, innerPath⟩ =>
      if !objId.isDirObject then throw (childPath ++ " is not a directory")
      if innerPath.isSome then throw (childPath ++ " is not a directory inode")
      materializeDirFromObj parent name objId
  | some ⟨.symLink _, _⟩ => throw (childPath ++ " is not a directory")
  | none => createDirUnderParent parent name

/-- One round of `ensure_dir_inode`. -/
def ensureChild (parent : IndexNodeId) (name childPath : String) : Prog IndexNodeId := do
  match ← ask (.getDentry parent name) with
  | some dentry =>
      match dentry.target with
      | .indexNodeId id => do
          let node ← inodeOr id "inode not found"
          if node.state.kind ≠ .dir then throw (childPath ++ " is not a directory")
          return id
      | .objId objId => do
          if !objId.isDirObject then throw (childPath ++ " is not a directory")
          materializeDirFromObj parent name objId
      | .tombstone => createDirUnderParent parent name
      | .symLink _ => throw (childPath ++ " is not a directory")
  | none => resolvedChild parent name childPath

/-- The loop of `ensure_dir_inode`. -/
def ensureDirs (currentId : IndexNodeId) (currentPath : String) :
    List String → Prog IndexNodeId
  | [] => return currentId
  | component :: rest => do
      let childPath := joinChildPath currentPath component
      let nextId ← ensureChild currentId component childPath
      ensureDirs nextId childPath rest

/-- `ensure_dir_inode`. -/
def ensureDirInode (path : String) : Prog IndexNodeId :=
  if NfsPath.isRoot path then return 1 else ensureDirs 1 "/" (NfsPath.components path)

/-- `parent_and_name_for_path`. -/
def parentAndNameForPath (path : String) : Prog (IndexNodeId × String) := do
  match NfsPath.splitParentName path with
  | none => throw "invalid path"
  | some (parentPath, name) =>
      if name = "" then throw "invalid path"
      let parent ← ensureDirInode parentPath
      return (parent, name)

/-- `create_dir`. -/
def createDir (path : String) : Prog Unit := do
  let (parent, name) ← parentAndNameForPath path
  ask (.createDir parent name)

/-- `set_dir`. -/
def setDir (path : String) (dirObjId : ObjId) : Prog Unit := do
  let (parent, name) ← parentAndNameForPath path
  ask (.setDir parent name dirObjId)

/-- `symlink`. -/
def symlink (linkPath target : String) : Prog Unit := do
  let (parent, name) ← parentAndNameForPath linkPath
  ask (.symlink parent name target)

/-- `handle_delete`, with the reads that come before its one statement. -/
def handleDelete (parent : IndexNodeId) (name : String) : Prog Unit := do
  if name = "" then throw "invalid path"
  let parentNode ← inodeOr parent "inode not found"
  let parentRev := parentNode.rev.getD 0
  match ← ask (.getDentry parent name) with
  | some existing => ask (.replaceByTombstone parent name existing.target parentRev)
  | none => ask (.createTombstone parent name parentRev)

/-- `delete`. -/
def delete (path : String) : Prog Unit := do
  let (parent, name) ← parentAndNameForPath path
  handleDelete parent name

/-- `plan_move_source`. -/
def planMoveSource (srcParent : IndexNodeId) (srcName : String) : Prog DentryTarget := do
  match ← ask (.getDentry srcParent srcName) with
  | none => throw "not found"
  | some dentry =>
      match dentry.target with
      | .tombstone => throw "not found"
      | .indexNodeId id => do
          let _ ← inodeOr id "not found"
          return .indexNodeId id
      | target => return target

/-- The guard of `handle_move_path` against a directory that moves into itself. -/
def checkSelfParent (target : DentryTarget) (dstParent : IndexNodeId) : Prog Unit :=
  match target with
  | .indexNodeId id => do
      let node ← inodeOr id "not found"
      if node.state.kind = .dir ∧ id = dstParent then throw "invalid name"
  | _ => return ()

/-- `handle_move_path`, with the reads that come before its transaction. -/
def handleMovePath (srcParent : IndexNodeId) (srcName : String) (dstParent : IndexNodeId)
    (dstName : String) : Prog Unit := do
  if srcName = "" ∨ dstName = "" then throw "invalid name"
  if srcParent = dstParent ∧ srcName = dstName then return ()
  let srcDir ← inodeOr srcParent "not found"
  let dstDir ← inodeOr dstParent "not found"
  if srcDir.state.kind ≠ .dir ∨ dstDir.state.kind ≠ .dir then throw "not found"
  if srcDir.readOnly ∨ dstDir.readOnly then throw "read only"
  let target ← planMoveSource srcParent srcName
  checkSelfParent target dstParent
  ask (.applyMovePlan
    ⟨srcParent, srcName, dstParent, dstName, srcDir.rev.getD 0, dstDir.rev.getD 0, target⟩)

/-- `move_path`. -/
def movePath (oldPath newPath : String) : Prog Unit := do
  match NfsPath.splitParentName oldPath, NfsPath.splitParentName newPath with
  | none, _ => throw "invalid source path"
  | _, none => throw "invalid destination path"
  | some (srcParentPath, srcName), some (dstParentPath, dstName) =>
      if srcName = "" ∨ dstName = "" then throw "invalid path"
      let srcParent ← ensureDirInode srcParentPath
      let dstParent ← ensureDirInode dstParentPath
      if isDescendantPath newPath oldPath then throw "invalid name"
      handleMovePath srcParent srcName dstParent dstName

end Client

/-- An operation that a client issues. -/
inductive ClientOp where
  | movePath (oldPath newPath : String)
  | createDir (path : String)
  | delete (path : String)
  | symlink (linkPath target : String)
  | setDir (path : String) (dirObjId : ObjId)

/-- The program of an operation. -/
def ClientOp.prog : ClientOp → Prog Unit
  | .movePath oldPath newPath => Client.movePath oldPath newPath
  | .createDir path => Client.createDir path
  | .delete path => Client.delete path
  | .symlink linkPath target => Client.symlink linkPath target
  | .setDir path dirObjId => Client.setDir path dirObjId

/-- The committed tables and the programs of the clients. -/
structure ClientSystem where
  db : FsMetaDb
  clients : List (Prog Unit)

/-- An operation is issued, or a client makes its next call. -/
inductive ClientAction where
  | issue (op : ClientOp)
  | turn (client : Nat) (env : TurnEnv)

namespace ClientSystem

/-- A fresh service without clients. -/
def init (now : UInt64) : ClientSystem := ⟨.fresh now, []⟩

/-- The state after an action. -/
def step (s : ClientSystem) : ClientAction → ClientSystem
  | .issue op => { s with clients := s.clients ++ [op.prog] }
  | .turn client env =>
      match s.clients[client]? with
      | some (.call c next) =>
          ⟨(s.db.execCall env c).1, s.clients.set client (next (s.db.execCall env c).2)⟩
      | _ => s

/-- The transaction of a move that a client runs next. -/
def nextMove (s : ClientSystem) (client : Nat) : Option MovePlan :=
  match s.clients[client]? with
  | some (.call (.applyMovePlan plan) _) => some plan
  | _ => none

/-- A move that passes its check of the revisions does not go below what it moves. -/
def MoveSafe (s : ClientSystem) : ClientAction → Prop
  | .issue _ => True
  | .turn client _ => ∀ plan, s.nextMove client = some plan →
      s.db.lockMoveParentsInOrder plan = .ok () →
      ∀ m, plan.target = .indexNodeId m → ¬ AtOrBelow s.db.parentOf m plan.dstParent

end ClientSystem

end FsMeta
end CyfsNdn

import CyfsNdn.FsMeta.FsMetaDb

/-!
# The requests of the file system metadata service

The handlers of `fs_meta_service.rs` that change the tree.  A handler that opens a
transaction runs it to the end here: the transaction starts with `BEGIN IMMEDIATE`, so no
other connection writes before it has committed, and an error drops the guard, which rolls
everything back.  What such a handler returns is the committed database or the text of the
error.

The file buffer service, the named store and the object statistics are outside of these
tables; what they answer is part of the environment of a call, and so are the clock, which
is read once per call, and the rowids that SQLite draws at random.
-/

namespace CyfsNdn
namespace FsMeta

open NdnLib Relational

/-- `dyn FileBufferService` as far as the handlers see it: the handle of a new buffer, and
whether a handle is known and can be closed. -/
structure FileBufferService where
  allocBuffer : String → IndexNodeId → UInt64 → Option UInt64 → NdnResult String
  getBuffer : String → NdnResult Unit
  close : String → NdnResult Unit

/-- What a call of the service finds around the database. -/
structure ServiceEnv where
  now : UInt64
  candidates : List IndexNodeId
  instanceId : Option String
  fbService : Option FileBufferService
  /-- `get_dir_child` of the named store manager. -/
  storeMgr : Option (ObjId → String → NdnResult ObjId)
  /-- `handle_obj_stat_bump` by one. -/
  objStatBump : ObjId → RpcResult UInt64

/-- A service with one instance, a buffer service that knows every handle, and no named
store. -/
def ServiceEnv.standalone (now : UInt64) : ServiceEnv where
  now := now
  candidates := []
  instanceId := some "node"
  fbService := some ⟨fun _ _ _ _ => .ok "fb", fun _ => .ok (), fun _ => .ok ()⟩
  storeMgr := none
  objStatBump := fun _ => .ok 1

/-- `OpenWriteFlag`. -/
inductive OpenWriteFlag where
  | append
  | continueWrite
  | createExclusive
  | createOrTruncate
  | createOrAppend
deriving DecidableEq

/-- The `Debug` form of a flag. -/
def OpenWriteFlag.debug : OpenWriteFlag → String
  | .append => "Append"
  | .continueWrite => "ContinueWrite"
  | .createExclusive => "CreateExclusive"
  | .createOrTruncate => "CreateOrTruncate"
  | .createOrAppend => "CreateOrAppend"

/-- The `Debug` form of a state. -/
def NodeState.debug : NodeState → String
  | .dirNormal => "DirNormal"
  | .dirOverlay => "DirOverlay"
  | .fileNormal => "FileNormal"
  | .working fbHandle lastWriteAt =>
      "Working(FileWorkingState \x7b fb_handle: " ++ fbHandle.quote ++
        ", last_write_at: " ++ toString lastWriteAt ++ " \x7d)"
  | .cooling fbHandle closedAt =>
      "Cooling(FileCoolingState \x7b fb_handle: " ++ fbHandle.quote ++
        ", closed_at: " ++ toString closedAt ++ " \x7d)"
  | .linked objId qcid filebufferId linkedAt =>
      "Linked(FileLinkedState \x7b obj_id: " ++ objId.debug ++ ", qcid: " ++ qcid.debug ++
        ", filebuffer_id: " ++ filebufferId.quote ++ ", linked_at: " ++ toString linkedAt ++
        " \x7d)"
  | .finalized objId finalizedAt =>
      "Finalized(FinalizedObjState \x7b obj_id: " ++ objId.debug ++
        ", finalized_at: " ++ toString finalizedAt ++ " \x7d)"

/-- `WRITE_LEASE_TTL_SECS`. -/
def writeLeaseTtlSecs : UInt64 := 300

/-- `BaseChildLookup`. -/
inductive BaseChildLookup where
  | missing
  | dirObj (objId : ObjId)
  | nonDirObj (objId : ObjId)

/-- `lookup_base_dirobj_child`. -/
def lookupBaseDirobjChild (env : ServiceEnv) (dirNode : NodeRecord) (name : String) :
    RpcResult BaseChildLookup :=
  match dirNode.baseObjId with
  | none => .ok .missing
  | some baseObjId =>
      if !baseObjId.isDirObject then
        .error ("invalid base_obj_id type for directory inode: " ++ baseObjId.objType)
      else
        match env.storeMgr with
        | none => .error "named store manager not configured for DirObject traversal"
        | some getDirChild =>
            match getDirChild baseObjId name with
            | .error (.notFound _) => .ok .missing
            | .error e => .error ("failed to lookup base DirObject child: " ++ e.display)
            | .ok childObjId =>
                if childObjId.isDirObject then .ok (.dirObj childObjId)
                else .ok (.nonDirObj childObjId)

/-- A record as the handlers build it for a new inode. -/
def newNode (state : NodeState) (baseObjId : Option ObjId) (rev : Option UInt64) :
    NodeRecord where
  inodeId := 0
  refBy := none
  state := state
  readOnly := false
  baseObjId := baseObjId
  rev := rev
  metaJson := none
  leaseClientSession := none
  leaseSeq := none
  leaseExpireAt := none

/-- The text of an inode and a name, `#parent/name`. -/
def pathDesc (parent : IndexNodeId) (name : String) : String :=
  "#" ++ toString parent ++ "/" ++ name

namespace FsMetaDb

/-- The parent of a new name: a directory that may be written. -/
def parentForWrite (db : FsMetaDb) (parent : IndexNodeId) (missing : String) :
    RpcResult NodeRecord := do
  let node ← db.getInodeOr parent missing
  if node.state.kind ≠ .dir then throw "parent is not a directory"
  if node.readOnly then throw "parent is read-only"
  return node

/-- `ensure_name_absent_for_create`. -/
def ensureNameAbsentForCreate (db : FsMetaDb) (env : ServiceEnv) (parent : IndexNodeId)
    (parentNode : NodeRecord) (name : String) : RpcResult Unit := do
  match ← db.getDentry parent name with
  | some ⟨_, _, _, .tombstone⟩ => return ()
  | some _ => throw ("path " ++ pathDesc parent name ++ " already exists")
  | none =>
      match ← lookupBaseDirobjChild env parentNode name with
      | .missing => return ()
      | _ => throw ("path " ++ pathDesc parent name ++ " already exists")

/-- What `handle_set_file`, `handle_set_dir` and `handle_symlink` do in their transaction
to put a new name. -/
def putNewName (db : FsMetaDb) (env : ServiceEnv) (parent : IndexNodeId) (name : String)
    (target : DentryTarget) : RpcResult FsMetaDb := do
  let parentNode ← db.parentForWrite parent "parent directory not found"
  db.ensureNameAbsentForCreate env parent parentNode name
  db.upsertDentry env.now parent name target (parentNode.rev.getD 0)

/-- `handle_set_file`. -/
def setFile (db : FsMetaDb) (env : ServiceEnv) (parent : IndexNodeId) (name : String)
    (objId : ObjId) : RpcResult FsMetaDb := do
  if name = "" then throw "invalid path"
  let linked ← db.putNewName env parent name (.objId objId)
  let _ ← env.objStatBump objId
  return linked

/-- `handle_set_dir`. -/
def setDir (db : FsMetaDb) (env : ServiceEnv) (parent : IndexNodeId) (name : String)
    (dirObjId : ObjId) : RpcResult FsMetaDb := do
  if name = "" then throw "invalid path"
  if !dirObjId.isDirObject then throw "set_dir requires a DirObject id"
  db.putNewName env parent name (.objId dirObjId)

/-- `handle_symlink`. -/
def symlink (db : FsMetaDb) (env : ServiceEnv) (linkParent : IndexNodeId) (linkName : String)
    (target : String) : RpcResult FsMetaDb := do
  if linkName = "" then throw "invalid link path"
  if target = "" then throw "invalid target path"
  db.putNewName env linkParent linkName (.symLink target)

/-- A new inode behind a name. -/
def allocAt (db : FsMetaDb) (env : ServiceEnv) (parent : IndexNodeId) (parentRev : UInt64)
    (name : String) (node : NodeRecord) : RpcResult (IndexNodeId × FsMetaDb) := do
  let (id, allocated) ← db.allocInode env.now env.candidates node
  let linked ← allocated.upsertDentry env.now parent name (.indexNodeId id) parentRev
  return (id, linked)

/-- `handle_create_dir`. -/
def createDir (db : FsMetaDb) (env : ServiceEnv) (parent : IndexNodeId) (name : String) :
    RpcResult FsMetaDb := do
  if name = "" then throw "invalid path"
  let parentNode ← db.parentForWrite parent "parent directory not found"
  db.ensureNameAbsentForCreate env parent parentNode name
  let (_, linked) ← db.allocAt env parent (parentNode.rev.getD 0) name
    (newNode .dirNormal none (some 0))
  return linked

/-- `handle_delete`: a tombstone under the name. -/
def delete (db : FsMetaDb) (env : ServiceEnv) (parent : IndexNodeId) (name : String) :
    RpcResult FsMetaDb := do
  if name = "" then throw "invalid path"
  let parentNode ← db.getInodeOr parent "inode not found"
  db.setTombstone env.now parent name (parentNode.rev.getD 0)

/-! ## Moving -/

/-- `plan_move_source`: the target that moves. -/
def planMoveSource (db : FsMetaDb) (srcParent : IndexNodeId) (srcName : String) :
    RpcResult DentryTarget := do
  match ← db.getDentry srcParent srcName with
  | none => throw "not found"
  | some dentry =>
      match dentry.target with
      | .tombstone => throw "not found"
      | .indexNodeId id =>
          let _ ← db.getInodeOr id "not found"
          return .indexNodeId id
      | target => return target

end FsMetaDb

/-- `MovePlan`. -/
structure MovePlan where
  srcParent : IndexNodeId
  srcName : String
  dstParent : IndexNodeId
  dstName : String
  srcRev0 : UInt64
  dstRev0 : UInt64
  target : DentryTarget

namespace FsMetaDb

/-- The guard against a directory that moves into itself. -/
def checkSelfParent (db : FsMetaDb) (target : DentryTarget) (dstParent : IndexNodeId) :
    RpcResult Unit :=
  match target with
  | .indexNodeId id => do
      let node ← db.getInodeOr id "not found"
      if node.state.kind = .dir ∧ id = dstParent then throw "invalid name"
  | _ => return ()

/-- The part of `handle_move_path` before its transaction; no plan where source and
destination are one name. -/
def planMove (db : FsMetaDb) (srcParent : IndexNodeId) (srcName : String)
    (dstParent : IndexNodeId) (dstName : String) : RpcResult (Option MovePlan) := do
  if srcName = "" ∨ dstName = "" then throw "invalid name"
  if srcParent = dstParent ∧ srcName = dstName then return none
  let srcDir ← db.getInodeOr srcParent "not found"
  let dstDir ← db.getInodeOr dstParent "not found"
  if srcDir.state.kind ≠ .dir ∨ dstDir.state.kind ≠ .dir then throw "not found"
  if srcDir.readOnly ∨ dstDir.readOnly then throw "read only"
  let target ← db.planMoveSource srcParent srcName
  db.checkSelfParent target dstParent
  return some
    ⟨srcParent, srcName, dstParent, dstName, srcDir.rev.getD 0, dstDir.rev.getD 0, target⟩

/-- The statement of `lock_move_parents_in_order` on one parent. -/
def lockMoveParent (db : FsMetaDb) (parent : IndexNodeId) (expectedRev : UInt64) :
    RpcResult Unit :=
  match db.nodes.find? parent with
  | none => .error "not found"
  | some row =>
      if Counter.coalesce row.rev = Counter.ofInt64 expectedRev.toInt64 then .ok () else .error "conflict"

/-- `lock_move_parents_in_order`. -/
def lockMoveParentsInOrder (db : FsMetaDb) (plan : MovePlan) : RpcResult Unit := do
  if plan.dstParent = plan.srcParent then
    db.lockMoveParent plan.srcParent plan.srcRev0
  else if plan.srcParent ≤ plan.dstParent then
    db.lockMoveParent plan.srcParent plan.srcRev0
    db.lockMoveParent plan.dstParent plan.dstRev0
  else
    db.lockMoveParent plan.dstParent plan.dstRev0
    db.lockMoveParent plan.srcParent plan.srcRev0

/-- `apply_move_plan_txn`. -/
def applyMovePlan (db : FsMetaDb) (env : ServiceEnv) (plan : MovePlan) :
    RpcResult FsMetaDb := do
  let srcDir ← db.getInodeOr plan.srcParent "not found"
  let dstDir ← db.getInodeOr plan.dstParent "not found"
  if srcDir.rev.getD 0 ≠ plan.srcRev0 ∨ dstDir.rev.getD 0 ≠ plan.dstRev0 then throw "conflict"
  db.lockMoveParentsInOrder plan
  let removed ← db.setTombstone env.now plan.srcParent plan.srcName plan.srcRev0
  removed.upsertDentry env.now plan.dstParent plan.dstName plan.target
    (if plan.srcParent = plan.dstParent then plan.srcRev0 + 1 else plan.dstRev0)

/-- `handle_move_path`. -/
def movePath (db : FsMetaDb) (env : ServiceEnv) (srcParent : IndexNodeId) (srcName : String)
    (dstParent : IndexNodeId) (dstName : String) : RpcResult FsMetaDb := do
  match ← db.planMove srcParent srcName dstParent dstName with
  | none => return db
  | some plan => db.applyMovePlan env plan

/-! ## Writing files -/

/-- The check of the flag against the file being there. -/
def checkFlag (flag : OpenWriteFlag) (fileExists : Bool) (desc : String) : RpcResult Unit :=
  match flag with
  | .append | .continueWrite =>
      if !fileExists then .error ("file not found for " ++ flag.debug ++ ": " ++ desc)
      else .ok ()
  | .createExclusive =>
      if fileExists then .error ("file already exists: " ++ desc) else .ok ()
  | .createOrTruncate | .createOrAppend => .ok ()

/-- The object of the base directory that a name without a dentry shows. -/
def visibleBaseObj (env : ServiceEnv) (parentNode : NodeRecord) (name : String) :
    Option DentryRecord → RpcResult (Option ObjId)
  | some _ => .ok none
  | none => do
      match ← lookupBaseDirobjChild env parentNode name with
      | .missing => return none
      | .dirObj _ => throw "path is a directory"
      | .nonDirObj objId => return some objId

/-- The check of an inode that is there against the flag. -/
def checkExisting (flag : OpenWriteFlag) (node : NodeRecord) : RpcResult Unit := do
  if node.state.kind = .dir then throw "path is a directory"
  if node.state.kind ≠ .file then throw "path is not a file"
  match flag, node.state with
  | .continueWrite, .working _ _ => return ()
  | .continueWrite, .cooling _ _ => return ()
  | _, .working _ _ => throw "file is already being written"
  | .continueWrite, state =>
      throw ("ContinueWrite requires Working or Cooling state, current: " ++ state.debug)
  | _, _ => return ()

/-- A file that is open for writing: its inode, base object and state so far. -/
structure OpenedFile where
  fileId : IndexNodeId
  baseObj : Option ObjId
  state : NodeState

/-- The inode behind the name, a new one where the name shows none. -/
def openTarget (db : FsMetaDb) (env : ServiceEnv) (parent : IndexNodeId) (parentRev : UInt64)
    (name : String) (flag : OpenWriteFlag) (baseObj : Option ObjId) :
    Option DentryRecord → RpcResult (OpenedFile × FsMetaDb)
  | none => do
      let (id, linked) ← db.allocAt env parent parentRev name (newNode .fileNormal baseObj none)
      return (⟨id, baseObj, .fileNormal⟩, linked)
  | some dentry =>
      match dentry.target with
      | .tombstone => do
          let (id, linked) ← db.allocAt env parent parentRev name (newNode .fileNormal none none)
          return (⟨id, none, .fileNormal⟩, linked)
      | .indexNodeId id => do
          let node ← db.getInodeOr id "inode not found"
          checkExisting flag node
          return (⟨id, node.baseObjId, node.state⟩, db)
      | .objId objId => do
          if objId.isDirObject then throw "path is a directory"
          let (id, linked) ← db.allocAt env parent parentRev name
            (newNode .fileNormal (some objId) none)
          return (⟨id, some objId, .fileNormal⟩, linked)
      | .symLink _ => throw "path is a symbolic link"

/-- The session of the service for a file. -/
def writeSession (instanceId : String) (fileId : IndexNodeId) : String :=
  instanceId ++ ":" ++ toString fileId

/-- The buffer to resume; only `ContinueWrite` has one. -/
def resumeHandle (flag : OpenWriteFlag) (state : NodeState) : RpcResult (Option String) :=
  match flag with
  | .continueWrite =>
      match state with
      | .working fbHandle _ => .ok (some fbHandle)
      | .cooling fbHandle _ => .ok (some fbHandle)
      | _ => .error "unexpected state for ContinueWrite"
  | _ => .ok none

/-- The end of `handle_open_file_writer` where a buffer is resumed. -/
def resumeWriter (db : FsMetaDb) (env : ServiceEnv) (buffer : FileBufferService)
    (instanceId : String) (opened : OpenedFile) (handle : String) :
    RpcResult (String × FsMetaDb) := do
  match buffer.getBuffer handle with
  | .error _ =>
      throw ("buffer " ++ handle ++ " not found for ContinueWrite, may have been cleaned up")
  | .ok _ =>
      let (leased, leaseSeq) := db.acquireFileLease env.now opened.fileId
        (writeSession instanceId opened.fileId) writeLeaseTtlSecs
      let _ ← leaseSeq
      let updated ← leased.updateInodeState env.now opened.fileId
        (.working handle env.now) opened.state
      return (handle, updated)

/-- The base object goes when the file is truncated. -/
def truncateBase (db : FsMetaDb) (env : ServiceEnv) (flag : OpenWriteFlag)
    (opened : OpenedFile) : RpcResult FsMetaDb :=
  if (flag = .createExclusive ∨ flag = .createOrTruncate) ∧ opened.baseObj.isSome then do
    let node ← db.getInodeOr opened.fileId "inode not found for truncate"
    return db.setInode env.now { node with baseObjId := none }
  else return db

/-- The end of `handle_open_file_writer` where a buffer is allocated. -/
def startWriter (db : FsMetaDb) (env : ServiceEnv) (buffer : FileBufferService)
    (instanceId : String) (parent : IndexNodeId) (name : String) (flag : OpenWriteFlag)
    (expectedSize : Option UInt64) (opened : OpenedFile) : RpcResult (String × FsMetaDb) := do
  let (leased, leaseSeq) := db.acquireFileLease env.now opened.fileId
    (writeSession instanceId opened.fileId) writeLeaseTtlSecs
  let leaseSeq ← leaseSeq
  match buffer.allocBuffer ("/__inode_parent_" ++ toString parent ++ "/" ++ name)
      opened.fileId leaseSeq expectedSize with
  | .error e => throw ("failed to alloc buffer: " ++ e.display)
  | .ok handle =>
      let truncated ← leased.truncateBase env flag opened
      let updated ← truncated.updateInodeState env.now opened.fileId
        (.working handle env.now) opened.state
      return (handle, updated)

/-- `handle_open_file_writer`. -/
def openFileWriter (db : FsMetaDb) (env : ServiceEnv) (parent : IndexNodeId) (name : String)
    (flag : OpenWriteFlag) (expectedSize : Option UInt64) : RpcResult (String × FsMetaDb) := do
  let some buffer := env.fbService | throw "buffer service not configured"
  let some instanceId := env.instanceId | throw "instance not configured"
  if name = "" then throw "invalid path"
  let parentNode ← db.parentForWrite parent "parent not found"
  let dentry ← db.getDentry parent name
  let baseObj ← visibleBaseObj env parentNode name dentry
  let fileExists := baseObj.isSome || dentry.any fun d => d.target ≠ .tombstone
  checkFlag flag fileExists (pathDesc parent name)
  let (opened, found) ← db.openTarget env parent (parentNode.rev.getD 0) name flag baseObj dentry
  match ← resumeHandle flag opened.state with
  | some handle => found.resumeWriter env buffer instanceId opened handle
  | none => found.startWriter env buffer instanceId parent name flag expectedSize opened

/-- The buffer of a file that can be closed. -/
def writableHandle : NodeState → RpcResult String
  | .working fbHandle _ => .ok fbHandle
  | .cooling fbHandle _ => .ok fbHandle
  | _ => .error "file is not writable"

/-- The buffer behind a handle is closed. -/
def closeBuffer (buffer : FileBufferService) (fbHandle : String) : RpcResult Unit :=
  match buffer.getBuffer fbHandle with
  | .error e => .error ("failed to get buffer: " ++ e.display)
  | .ok _ =>
      match buffer.close fbHandle with
      | .error e => .error ("failed to close buffer: " ++ e.display)
      | .ok _ => .ok ()

/-- The lease of a record that has one. -/
def leaseOf (node : NodeRecord) : Option (String × UInt64) :=
  match node.leaseClientSession, node.leaseSeq with
  | some session, some seq => some (session, seq)
  | _, _ => none

/-- The transaction of `handle_close_file_writer`, with the lease that it gives back
afterwards. -/
def closeCommit (db : FsMetaDb) (env : ServiceEnv) (fileId : IndexNodeId) :
    RpcResult (Option (String × UInt64) × FsMetaDb) := do
  let some buffer := env.fbService | throw "buffer service not configured"
  let node ← db.getInodeOr fileId "inode not found"
  if node.state.kind ≠ .file then throw "not a file"
  let fbHandle ← writableHandle node.state
  closeBuffer buffer fbHandle
  let updated ← db.updateInodeState env.now fileId (.cooling fbHandle env.now) node.state
  return (leaseOf node, updated)

/-- `handle_close_file_writer`: the transaction, and then the release on its own. -/
def closeFileWriter (db : FsMetaDb) (env : ServiceEnv) (fileId : IndexNodeId) :
    FsMetaDb × RpcResult Unit :=
  match db.closeCommit env fileId with
  | .error e => (db, .error e)
  | .ok (none, closed) => (closed, .ok ())
  | .ok (some (session, seq), closed) =>
      match closed.releaseFileLease fileId session seq with
      | .error e => (closed, .error e)
      | .ok released => (released, .ok ())

end FsMetaDb

end FsMeta
end CyfsNdn

import CyfsNdn.FsMeta.NodeState
import CyfsNdn.FsMeta.PathResolveCache
import CyfsNdn.Relational.Table

/-!
# The tables of the file system metadata

The tables `nodes` and `dentries` of `fs_meta_service.rs` and the statements on them.  An
inode row has the columns of its state, a write lease and a back reference to the dentry
that targets it; a dentry row names a child of a directory.

A statement that fails leaves the database as it was, and so does a dentry operation,
which runs in a savepoint.  They return the new database or the text of the error.  The
time of an operation is an argument.

The columns `rev` and `lease_seq` are counted up by SQL.  They are kept as the number in
the cell: one past the largest signed number of 64 bits is a `REAL`, from where adding one
leads nowhere and which cannot be read as an integer.
-/

namespace CyfsNdn
namespace FsMeta

open NdnLib Relational

/-- A cell that SQL counts up. -/
structure Counter where
  val : Int
  lower : -2 ^ 63 ≤ val
  upper : val ≤ 2 ^ 63
deriving DecidableEq

namespace Counter

/-- The cell of a number that a parameter binds. -/
def ofInt64 (n : Int64) : Counter :=
  ⟨n.toInt, n.minValue_le_toInt, Int.le_of_lt n.toInt_lt⟩

/-- `cell + 1`. -/
def addOne (cell : Counter) : Counter :=
  if h : cell.val < 2 ^ 63 then
    ⟨cell.val + 1, by have := cell.lower; omega, by omega⟩
  else cell

/-- `row.get::<_, i64>`. -/
def get (index : String) (name : String) (cell : Counter) : RpcResult Int64 :=
  if cell.val < 2 ^ 63 then .ok (Int64.ofInt cell.val)
  else .error
    ("db error: Invalid column type Real at index: " ++ index ++ ", name: " ++ name)

/-- `row.get::<_, Option<i64>>`, as the record has it. -/
def getOpt (index : String) (name : String) : Option Counter → RpcResult (Option UInt64)
  | none => .ok none
  | some cell => (cell.get index name).map fun n => some n.toUInt64

/-- `COALESCE(cell, 0)`. -/
def coalesce (cell : Option Counter) : Counter := cell.getD (ofInt64 0)

/-- A cell that is read as a number is the cell of that number. -/
theorem ofInt64_of_get {index name : String} {cell : Counter} {n : Int64}
    (h : cell.get index name = .ok n) : ofInt64 n = cell := by
  unfold get at h
  split at h
  · rename_i hlt
    rw [Except.ok.injEq] at h
    obtain ⟨val, lower, upper⟩ := cell
    have hval : n.toInt = val := by
      rw [← h, Int64.toInt_ofInt]
      exact Int.bmod_eq_of_le lower hlt
    subst hval
    rfl
  · cases h

theorem val_addOne_of_get {index name : String} {cell : Counter} {n : Int64}
    (h : cell.get index name = .ok n) : cell.addOne.val = cell.val + 1 := by
  unfold get at h
  split at h
  · rename_i hlt
    unfold addOne
    rw [dif_pos hlt]
  · cases h

end Counter

/-- `NodeRecord`; the metadata value is kept as its JSON text. -/
structure NodeRecord where
  inodeId : IndexNodeId
  refBy : Option Nat
  state : NodeState
  readOnly : Bool
  baseObjId : Option ObjId
  rev : Option UInt64
  metaJson : Option String
  leaseClientSession : Option String
  leaseSeq : Option UInt64
  leaseExpireAt : Option UInt64
deriving DecidableEq

/-- A row of `nodes`. -/
structure NodeRow where
  inodeId : IndexNodeId
  readOnly : Bool
  baseObjId : Option (List UInt8)
  cols : NodeStateCols
  rev : Option Counter
  metaJson : Option String
  leaseClientSession : Option String
  leaseSeq : Option Counter
  leaseExpireAt : Option Int64
  updatedAt : Int64
  refBy : Option Nat
deriving DecidableEq

/-- `DentryTarget`. -/
inductive DentryTarget where
  | indexNodeId (id : IndexNodeId)
  | symLink (path : String)
  | objId (objId : ObjId)
  | tombstone
deriving DecidableEq

/-- The column `target_type`, the constants `DENTRY_TARGET_*`. -/
inductive TargetType where
  | inode
  | obj
  | tombstone
  | symlink
deriving DecidableEq

/-- The columns that hold the target of a dentry. -/
structure TargetCols where
  targetType : TargetType
  targetInodeId : Option IndexNodeId
  targetObjId : Option (List UInt8)
deriving DecidableEq

/-- A row of `dentries`. -/
structure DentryRow where
  dentryId : Nat
  parentInodeId : IndexNodeId
  name : String
  target : TargetCols
  mtime : Option Int64
deriving DecidableEq

/-- `DentryRecord`. -/
structure DentryRecord where
  id : Nat
  parent : IndexNodeId
  name : String
  target : DentryTarget

/-- `dentry_target_cols`. -/
def dentryTargetCols : DentryTarget → TargetCols
  | .indexNodeId id => ⟨.inode, some id, none⟩
  | .symLink path => ⟨.symlink, none, some path.toUTF8.toList⟩
  | .objId objId => ⟨.obj, none, some objId.toBytes⟩
  | .tombstone => ⟨.tombstone, none, none⟩

/-- The target of `parse_dentry`. -/
def parseTarget (cols : TargetCols) : RpcResult DentryTarget :=
  match cols.targetType with
  | .inode =>
      match cols.targetInodeId with
      | none => .error "missing target_inode_id"
      | some id => .ok (.indexNodeId id)
  | .obj =>
      match cols.targetObjId with
      | none => .error "missing target_obj_id"
      | some blob => (objIdFromBlob blob).map .objId
  | .tombstone => .ok .tombstone
  | .symlink =>
      match cols.targetObjId, cols.targetInodeId with
      | some blob, _ =>
          match ObjId.stringFromUtf8 blob with
          | some path => .ok (.symLink path)
          | none => .error "invalid symlink path bytes"
      | none, some id => .ok (.symLink ("legacy-inode:" ++ toString id))
      | none, none => .error "missing symlink target path"

/-- `parse_dentry`. -/
def parseDentry (row : DentryRow) : RpcResult DentryRecord :=
  (parseTarget row.target).map fun target =>
    ⟨row.dentryId, row.parentInodeId, row.name, target⟩

/-- The two tables and the counter behind `AUTOINCREMENT`. -/
structure FsMetaDb where
  nodes : Table NodeRow NodeRow.inodeId
  dentries : Table DentryRow DentryRow.dentryId
  dentrySeq : Nat

/-- `i64::saturating_add`. -/
def saturatingAdd (a b : Int64) : Int64 :=
  if a.toInt + b.toInt > Int64.maxValue.toInt then Int64.maxValue
  else if a.toInt + b.toInt < Int64.minValue.toInt then Int64.minValue
  else a + b

/-- The row of `ensure_root_dir`. -/
def rootRow (now : UInt64) : NodeRow where
  inodeId := 1
  readOnly := false
  baseObjId := none
  cols := nodeStateCols .dirNormal
  rev := some (Counter.ofInt64 0)
  metaJson := none
  leaseClientSession := none
  leaseSeq := none
  leaseExpireAt := none
  updatedAt := now.toInt64
  refBy := none

/-! ## Statements on one row -/

/-- The lease is held by the session and has not expired. -/
def NodeRow.heldBy (row : NodeRow) (session : String) (now : Int64) : Bool :=
  row.leaseClientSession = some session && row.leaseExpireAt.any fun expireAt => now < expireAt

/-- The lease is free to take. -/
def NodeRow.leaseFree (row : NodeRow) (now : Int64) : Bool :=
  row.leaseExpireAt.all fun expireAt => expireAt ≤ now

/-- `COALESCE(lease_seq, 0)`. -/
def NodeRow.seq (row : NodeRow) : Counter := Counter.coalesce row.leaseSeq

/-- The row with the lease extended. -/
def NodeRow.renewed (expireAt : Int64) (row : NodeRow) : NodeRow :=
  { row with leaseExpireAt := some expireAt }

/-- The row with the lease taken. -/
def NodeRow.acquired (session : String) (expireAt : Int64) (row : NodeRow) : NodeRow :=
  { row with
    leaseClientSession := some session
    leaseSeq := some row.seq.addOne
    leaseExpireAt := some expireAt }

/-- The row with the lease given back. -/
def NodeRow.released (row : NodeRow) : NodeRow :=
  { row with leaseClientSession := none, leaseExpireAt := none }

/-- The lease is that of the session under the sequence number. -/
def NodeRow.leaseMatches (row : NodeRow) (session : String) (leaseSeq : UInt64) : Bool :=
  row.leaseClientSession = some session && row.leaseSeq = some (Counter.ofInt64 leaseSeq.toInt64)

/-- The lease has a time and the time has come. -/
def NodeRow.leaseExpired (row : NodeRow) (now : Int64) : Bool :=
  row.leaseExpireAt.any fun expireAt => expireAt ≤ now

/-- The columns that the reclaimer writes: a `Working` row becomes `Cooling`, and of the
columns of its state only `closed_at` changes. -/
def NodeRow.reclaimed (now : Int64) (row : NodeRow) : NodeRow :=
  { row with
    leaseClientSession := none
    leaseExpireAt := none
    cols :=
      if row.cols.state = .working then
        { row.cols with state := .cooling, closedAt := some now }
      else row.cols
    updatedAt := now }

/-- The columns target an inode. -/
def TargetCols.targets (cols : TargetCols) (id : IndexNodeId) : Bool :=
  cols.targetType = .inode && cols.targetInodeId = some id

/-- The row with another target. -/
def DentryRow.retargeted (now : UInt64) (target : TargetCols) (row : DentryRow) : DentryRow :=
  { row with target := target, mtime := some now.toInt64 }

/-- The row with another back reference. -/
def NodeRow.withRefBy (now : UInt64) (refBy : Option Nat) (row : NodeRow) : NodeRow :=
  { row with refBy := refBy, updatedAt := now.toInt64 }

/-- The row with the next revision. -/
def NodeRow.bumped (now : UInt64) (row : NodeRow) : NodeRow :=
  { row with rev := some (Counter.coalesce row.rev).addOne, updatedAt := now.toInt64 }

namespace FsMetaDb

/-- The database after `create_schema` and `ensure_root_dir`. -/
def fresh (now : UInt64) : FsMetaDb where
  nodes := Table.empty.insertOrReplace (rootRow now)
  dentries := Table.empty
  dentrySeq := 0

/-! ## Inodes -/

/-- The base object of `parse_node`. -/
def parseBaseObjId : Option (List UInt8) → RpcResult (Option ObjId)
  | some blob => (objIdFromBlob blob).map some
  | none => .ok none

/-- `parse_node`. -/
def parseNode (row : NodeRow) : RpcResult NodeRecord := do
  let rev ← Counter.getOpt "4" "rev" row.rev
  let leaseSeq ← Counter.getOpt "7" "lease_seq" row.leaseSeq
  let state ← parseNodeState row.cols
  let baseObjId ← parseBaseObjId row.baseObjId
  return {
    inodeId := row.inodeId
    refBy := row.refBy
    state := state
    readOnly := row.readOnly
    baseObjId := baseObjId
    rev := rev
    metaJson := row.metaJson
    leaseClientSession := row.leaseClientSession
    leaseSeq := leaseSeq
    leaseExpireAt := row.leaseExpireAt.map Int64.toUInt64 }

/-- `handle_get_inode`. -/
def getInode (db : FsMetaDb) (id : IndexNodeId) : RpcResult (Option NodeRecord) :=
  match db.nodes.find? id with
  | none => .ok none
  | some row => (parseNode row).map some

/-- `handle_get_inode` where a missing inode is an error. -/
def getInodeOr (db : FsMetaDb) (id : IndexNodeId) (missing : String) : RpcResult NodeRecord := do
  match ← db.getInode id with
  | some node => return node
  | none => throw missing

/-- The columns of a record. -/
def nodeRow (now : UInt64) (id : IndexNodeId) (node : NodeRecord) : NodeRow where
  inodeId := id
  readOnly := node.readOnly
  baseObjId := node.baseObjId.map ObjId.toBytes
  cols := nodeStateCols node.state
  rev := node.rev.map fun rev => Counter.ofInt64 rev.toInt64
  metaJson := node.metaJson
  leaseClientSession := node.leaseClientSession
  leaseSeq := node.leaseSeq.map fun seq => Counter.ofInt64 seq.toInt64
  leaseExpireAt := node.leaseExpireAt.map UInt64.toInt64
  updatedAt := now.toInt64
  refBy := node.refBy

/-- `handle_set_inode`: an insert that overwrites every column of a row that is there. -/
def setInode (db : FsMetaDb) (now : UInt64) (node : NodeRecord) : FsMetaDb :=
  { db with nodes := db.nodes.insertOrReplace (nodeRow now node.inodeId node) }

/-- The signed number that the column holds for an inode id. -/
def rowid (id : IndexNodeId) : Int := if id < 2 ^ 63 then id else id - 2 ^ 64

/-- The rowid of an insert that names none: one above the largest.  At the largest number
of all, `candidates` are tried that SQLite picks at random. -/
def nextInodeId (db : FsMetaDb) (candidates : List IndexNodeId) : RpcResult IndexNodeId :=
  let largest := (db.nodes.rows.map fun row => rowid row.inodeId).foldl max 0
  if largest < 2 ^ 63 - 1 then .ok (largest + 1).toNat
  else
    match candidates.find? fun id => (db.nodes.find? id).isNone with
    | some id => .ok id
    | none => .error "db error: database or disk is full"

/-- `handle_alloc_inode`. -/
def allocInode (db : FsMetaDb) (now : UInt64) (candidates : List IndexNodeId)
    (node : NodeRecord) : RpcResult (IndexNodeId × FsMetaDb) := do
  if node.inodeId = 0 then
    let id ← db.nextInodeId candidates
    return (id, { db with nodes := db.nodes.insertOrReplace (nodeRow now id node) })
  else if (db.nodes.find? node.inodeId).isSome then
    throw "db error: UNIQUE constraint failed: nodes.inode_id"
  else
    return (node.inodeId,
      { db with nodes := db.nodes.insertOrReplace (nodeRow now node.inodeId node) })

/-- The columns that a state change writes. -/
def withState (now : UInt64) (new : NodeState) (row : NodeRow) : NodeRow :=
  { row with cols := nodeStateCols new, updatedAt := now.toInt64 }

/-- `handle_update_inode_state`. -/
def updateInodeState (db : FsMetaDb) (now : UInt64) (id : IndexNodeId)
    (new old : NodeState) : RpcResult FsMetaDb :=
  match db.nodes.find? id with
  | none => .error "inode not found"
  | some row =>
      if row.cols = nodeStateCols old then
        .ok { db with nodes := db.nodes.updateKey id (withState now new) fun _ => rfl }
      else .error "inode state conflict"

/-! ## Write leases -/

/-- `acquire_file_lease_inner`.  The update stays also where its number is not read back. -/
def acquireFileLease (db : FsMetaDb) (now : UInt64) (id : IndexNodeId) (session : String)
    (ttl : UInt64) : FsMetaDb × RpcResult UInt64 :=
  let expireAt := saturatingAdd now.toInt64 ttl.toInt64
  match db.nodes.find? id with
  | none => (db, .error "inode not found")
  | some row =>
      if row.heldBy session now.toInt64 then
        ({ db with nodes := db.nodes.updateKey id (NodeRow.renewed expireAt) fun _ => rfl },
          (row.seq.get "0" "COALESCE(lease_seq, 0)").map Int64.toUInt64)
      else if row.leaseFree now.toInt64 then
        ({ db with
            nodes := db.nodes.updateKey id (NodeRow.acquired session expireAt) fun _ => rfl },
          (row.seq.addOne.get "0" "lease_seq").map Int64.toUInt64)
      else (db, .error "lease conflict")

/-- A statement on the row whose lease matches. -/
def onLease (db : FsMetaDb) (id : IndexNodeId) (session : String) (leaseSeq : UInt64)
    (change : NodeRow → NodeRow) (hchange : ∀ row, (change row).inodeId = row.inodeId) :
    RpcResult FsMetaDb :=
  match db.nodes.find? id with
  | none => .error "inode not found"
  | some row =>
      if row.leaseMatches session leaseSeq then
        .ok { db with nodes := db.nodes.updateKey id change hchange }
      else .error "lease mismatch"

/-- `renew_file_lease_inner`. -/
def renewFileLease (db : FsMetaDb) (now : UInt64) (id : IndexNodeId) (session : String)
    (leaseSeq ttl : UInt64) : RpcResult FsMetaDb :=
  db.onLease id session leaseSeq
    (NodeRow.renewed (saturatingAdd now.toInt64 ttl.toInt64)) fun _ => rfl

/-- `release_file_lease_inner`. -/
def releaseFileLease (db : FsMetaDb) (id : IndexNodeId) (session : String)
    (leaseSeq : UInt64) : RpcResult FsMetaDb :=
  db.onLease id session leaseSeq NodeRow.released fun _ => rfl

/-- `reclaim_expired_write_leases`. -/
def reclaimExpiredWriteLeases (db : FsMetaDb) (now : UInt64) : FsMetaDb :=
  { db with
    nodes := db.nodes.updateWhere (fun row => row.leaseExpired now.toInt64)
      (NodeRow.reclaimed now.toInt64) fun _ => rfl }

/-! ## Dentries -/

/-- `SELECT … FROM dentries WHERE parent_inode_id = parent AND name = name`. -/
def dentryAt (db : FsMetaDb) (parent : IndexNodeId) (name : String) : Option DentryRow :=
  db.dentries.rows.find? fun row => row.parentInodeId = parent && row.name = name

/-- `handle_get_dentry`. -/
def getDentry (db : FsMetaDb) (parent : IndexNodeId) (name : String) :
    RpcResult (Option DentryRecord) :=
  match db.dentryAt parent name with
  | none => .ok none
  | some row => (parseDentry row).map some

/-- The unique index on the inode targets, for a row other than the given one. -/
def inodeTargeted (db : FsMetaDb) (cols : TargetCols) (dentryId : Nat) : Bool :=
  db.dentries.rows.any fun row =>
    row.dentryId ≠ dentryId && cols.targetInodeId.any fun id =>
      cols.targetType = .inode && row.target.targets id

/-- The row that `handle_create_dentry` inserts. -/
def dentryRow (db : FsMetaDb) (now : UInt64) (parent : IndexNodeId) (name : String)
    (target : TargetCols) : DentryRow :=
  ⟨db.dentrySeq + 1, parent, name, target, some now.toInt64⟩

/-- `INSERT INTO dentries`. -/
def insertDentry (db : FsMetaDb) (now : UInt64) (parent : IndexNodeId) (name : String)
    (target : TargetCols) : RpcResult FsMetaDb :=
  if db.inodeTargeted target (db.dentrySeq + 1) then
    .error "db error: UNIQUE constraint failed: dentries.target_inode_id"
  else
    .ok { db with
      dentries := db.dentries.insertOrReplace (db.dentryRow now parent name target)
      dentrySeq := db.dentrySeq + 1 }

/-- `UPDATE dentries SET target … WHERE dentry_id = dentryId`. -/
def updateDentryTarget (db : FsMetaDb) (now : UInt64) (dentryId : Nat) (target : TargetCols) :
    RpcResult FsMetaDb :=
  if db.inodeTargeted target dentryId then
    .error "db error: UNIQUE constraint failed: dentries.target_inode_id"
  else
    .ok { db with
      dentries := db.dentries.updateKey dentryId (DentryRow.retargeted now target)
        fun _ => rfl }

/-- `DELETE FROM dentries WHERE dentry_id = dentryId`. -/
def removeDentryRow (db : FsMetaDb) (dentryId : Nat) : FsMetaDb :=
  { db with dentries := db.dentries.deleteKey dentryId }

/-- The back reference of a new target: it must be free or the dentry's already. -/
def attachRef (db : FsMetaDb) (now : UInt64) (target : Option IndexNodeId) (dentryId : Nat) :
    RpcResult FsMetaDb :=
  match target with
  | none => .ok db
  | some id =>
      match db.nodes.find? id with
      | none => .error "inode not found"
      | some row =>
          if row.refBy.all fun other => other = dentryId then
            .ok { db with
              nodes := db.nodes.updateKey id (NodeRow.withRefBy now (some dentryId))
                fun _ => rfl }
          else .error "inode already referenced by another dentry"

/-- The back reference of an old target goes when it is the dentry's. -/
def detachRef (db : FsMetaDb) (now : UInt64) (target : Option IndexNodeId) (dentryId : Nat) :
    FsMetaDb :=
  match target with
  | none => db
  | some id =>
      { db with
        nodes := db.nodes.updateWhere
          (fun row => row.inodeId = id && row.refBy = some dentryId)
          (NodeRow.withRefBy now none) fun _ => rfl }

/-- `UPDATE nodes SET rev = COALESCE(rev, 0) + 1`. -/
def bumpRev (db : FsMetaDb) (now : UInt64) (parent : IndexNodeId) : FsMetaDb :=
  { db with nodes := db.nodes.updateKey parent (NodeRow.bumped now) fun _ => rfl }

/-- The check of the parent's revision that starts every dentry operation. -/
def checkParentRev (db : FsMetaDb) (parent : IndexNodeId) (expectedParentRev : UInt64) :
    RpcResult Unit :=
  match db.nodes.find? parent with
  | none => .error "parent inode not found"
  | some row => do
      let parentRev ← (Counter.coalesce row.rev).get "0" "COALESCE(rev, 0)"
      if parentRev.toUInt64 ≠ expectedParentRev then throw "rev mismatch"

/-- `handle_create_dentry`. -/
def createDentry (db : FsMetaDb) (now : UInt64) (parent : IndexNodeId) (name : String)
    (target : DentryTarget) (expectedParentRev : UInt64) : RpcResult FsMetaDb := do
  db.checkParentRev parent expectedParentRev
  if (db.dentryAt parent name).isSome then throw "dentry already exists"
  let cols := dentryTargetCols target
  let inserted ← db.insertDentry now parent name cols
  let attached ← inserted.attachRef now cols.targetInodeId inserted.dentrySeq
  return attached.bumpRev now parent

/-- `handle_delete_dentry`, with whether a row was deleted. -/
def deleteDentry (db : FsMetaDb) (now : UInt64) (parent : IndexNodeId) (name : String)
    (expectedParentRev : UInt64) : RpcResult (Bool × FsMetaDb) := do
  db.checkParentRev parent expectedParentRev
  match db.dentryAt parent name with
  | none => return (false, db)
  | some old =>
      let removed := db.removeDentryRow old.dentryId
      let detached :=
        if old.target.targetType = .inode then
          removed.detachRef now old.target.targetInodeId old.dentryId
        else removed
      return (true, detached.bumpRev now parent)

/-- `handle_replace_target`, with whether the target changed. -/
def replaceTarget (db : FsMetaDb) (now : UInt64) (parent : IndexNodeId) (name : String)
    (expectedOldTarget newTarget : DentryTarget) (expectedParentRev : UInt64) :
    RpcResult (Bool × FsMetaDb) := do
  db.checkParentRev parent expectedParentRev
  match db.dentryAt parent name with
  | none => throw "dentry not found"
  | some old =>
      if old.target ≠ dentryTargetCols expectedOldTarget then throw "dentry target mismatch"
      let new := dentryTargetCols newTarget
      if old.target = new then return (false, db)
      let updated ← db.updateDentryTarget now old.dentryId new
      let detached :=
        if old.target.targetType = .inode ∧ old.target.targetInodeId ≠ new.targetInodeId then
          updated.detachRef now old.target.targetInodeId old.dentryId
        else updated
      let attached ← detached.attachRef now new.targetInodeId old.dentryId
      return (true, attached.bumpRev now parent)

/-- `upsert_dentry_with_parent_rev`. -/
def upsertDentry (db : FsMetaDb) (now : UInt64) (parent : IndexNodeId) (name : String)
    (target : DentryTarget) (expectedParentRev : UInt64) : RpcResult FsMetaDb := do
  match ← db.getDentry parent name with
  | some existing =>
      let (_, replaced) ←
        db.replaceTarget now parent name existing.target target expectedParentRev
      return replaced
  | none => db.createDentry now parent name target expectedParentRev

/-- `set_tombstone_with_parent_rev`. -/
def setTombstone (db : FsMetaDb) (now : UInt64) (parent : IndexNodeId) (name : String)
    (expectedParentRev : UInt64) : RpcResult FsMetaDb :=
  db.upsertDentry now parent name .tombstone expectedParentRev

end FsMetaDb

end FsMeta
end CyfsNdn

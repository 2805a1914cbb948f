import CyfsNdn.Relational.Table
import CyfsNdn.Relational.SeqTable
import CyfsNdn.NdnLib.Chunk

/-!
# The metadata database of a store

`NamedLocalStoreDB` of `named_store/src/store_db.rs`, with the types of
`gc_types.rs`.  A value of `NamedLocalStoreDb` is the content of the six tables
between two transactions.  Every public operation is one transaction, so it is
one total function of the content; a statement that fails rolls back and leaves
the content alone.  Tables are keyed by text, as in the schema: an operation on
an `ObjId` works on its `to_string`, and only the loops over selected rows parse
the text again.

`unix_timestamp` is read once for each transaction and is its argument `now`.
-/

namespace CyfsNdn
namespace NamedStore

open NdnLib Relational

/-- `as i64` of an unsigned number. -/
def asI64 (n : Nat) : Int :=
  Int.bmod n (2 ^ 64)

/-- `as u64` of an integer column. -/
def asU64 (i : Int) : Nat :=
  (i % 2 ^ 64).toNat

/-! ## Column types -/

/-- `PinScope`. -/
inductive PinScope where
  | recursive
  | skeleton
  | lease
  deriving DecidableEq, Repr

/-- `CascadeStateP0`. -/
inductive CascadeStateP0 where
  | pending
  | materializing
  deriving DecidableEq, Repr

/-- `EdgeOp`. -/
inductive EdgeOp where
  | add
  | remove
  deriving DecidableEq, Repr

/-- `ItemState`, the `state` column of `objects`. -/
inductive ItemState where
  | present
  | shadow
  | incompleted
  deriving DecidableEq, Repr

/-- The `state` column of `chunk_items`. -/
inductive ChunkItemState where
  | present
  | new
  deriving DecidableEq, Repr

/-- `EdgeMsg`. -/
structure EdgeMsg where
  op : EdgeOp
  referee : ObjId
  referrer : ObjId
  targetEpoch : Nat
  deriving DecidableEq, Repr

/-- `ChunkLocalInfo`. -/
structure ChunkLocalInfo where
  path : String
  qcid : String
  lastModifyTime : Nat
  range : Option (Nat × Nat)
  deriving DecidableEq, Repr

/-- `ChunkStoreState`. -/
inductive ChunkStoreState where
  | new
  | completed
  | disabled
  | notExist
  | localLink (info : ChunkLocalInfo)
  | sameAs (chunkListId : ObjId)
  deriving DecidableEq, Repr

/-- The `chunk_state` column: the name of a state without what it carries. -/
inductive ChunkStateName where
  | new
  | completed
  | disabled
  | notExist
  | localLink
  | sameAs
  deriving DecidableEq, Repr

namespace ChunkStoreState

/-- `ChunkStoreState::to_sql`. -/
def toSql : ChunkStoreState → ChunkStateName
  | .new => .new
  | .completed => .completed
  | .disabled => .disabled
  | .notExist => .notExist
  | .localLink _ => .localLink
  | .sameAs _ => .sameAs

/-- `ChunkStoreState::to_str`. -/
def toStr : ChunkStoreState → String
  | .new => "new"
  | .completed => "completed"
  | .disabled => "disabled"
  | .notExist => "not_exist"
  | .localLink _ => "local_link"
  | .sameAs _ => "same_as"

/-- `ChunkStoreState::can_open_reader`. -/
def canOpenReader : ChunkStoreState → Bool
  | .completed | .localLink _ | .sameAs _ => true
  | _ => false

end ChunkStoreState

/-- `ChunkItem`. -/
structure ChunkItem where
  chunkId : ChunkId
  chunkSize : Nat
  chunkState : ChunkStoreState
  createTime : Nat
  updateTime : Nat
  deriving DecidableEq, Repr

namespace ChunkItem

/-- `ChunkItem::new`. -/
def new (now : Nat) (chunkId : ChunkId) (chunkSize : Nat) : ChunkItem where
  chunkId := chunkId
  chunkSize := chunkSize
  chunkState := .new
  createTime := now
  updateTime := now

/-- `ChunkItem::new_completed`. -/
def newCompleted (now : Nat) (chunkId : ChunkId) (chunkSize : Nat) : ChunkItem :=
  { new now chunkId chunkSize with chunkState := .completed }

/-- `ChunkItem::new_local_file`. -/
def newLocalFile (now : Nat) (chunkId : ChunkId) (chunkSize : Nat)
    (chunkLocalInfo : ChunkLocalInfo) : ChunkItem :=
  { new now chunkId chunkSize with chunkState := .localLink chunkLocalInfo }

end ChunkItem

/-! ## Rows -/

/-- A row of `objects`. -/
structure ObjectRow where
  objId : String
  objType : String
  objData : String
  createTime : Int
  lastAccessTime : Int
  state : ItemState
  evictionClass : Nat
  fsAnchorCount : Int
  logicalSize : Int
  ownedBytes : Int
  childrenExpanded : Bool
  deriving DecidableEq, Repr

/-- What the `local_info` column of a chunk holds: the JSON of a link, kept as
the value it encodes, or the text of the chunk list a chunk is the same as. -/
inductive LocalInfoText where
  | json (info : ChunkLocalInfo)
  | objId (text : String)
  deriving DecidableEq, Repr

/-- A row of `chunk_items`. -/
structure ChunkItemRow where
  chunkId : String
  chunkSize : Int
  chunkState : ChunkStateName
  localPath : Option String
  localInfo : Option LocalInfoText
  createTime : Int
  updateTime : Int
  state : ChunkItemState
  logicalSize : Int
  ownedBytes : Int
  deriving DecidableEq, Repr

/-- A row of `incoming_refs`. -/
structure IncomingRefRow where
  referee : String
  referrer : String
  declaredEpoch : Int
  createdAt : Int
  deriving DecidableEq, Repr

/-- A row of `edge_outbox`. -/
structure OutboxRow where
  seq : Nat
  op : EdgeOp
  referee : String
  referrer : String
  targetEpoch : Int
  createdAt : Int
  attempts : Nat
  nextTryAt : Int
  deriving DecidableEq, Repr

/-- A row of `pins`. -/
structure PinRow where
  objId : String
  owner : String
  scope : PinScope
  cascadeState : CascadeStateP0
  createdAt : Int
  expiresAt : Option Int
  deriving DecidableEq, Repr

/-- A row of `fs_anchors`. -/
structure FsAnchorRow where
  objId : String
  inodeId : UInt64
  fieldTag : UInt32
  cascadeState : CascadeStateP0
  createdAt : Int
  deriving DecidableEq, Repr

/-- The primary key of `incoming_refs`. -/
abbrev IncomingRefRow.key (r : IncomingRefRow) : String × String :=
  (r.referee, r.referrer)

/-- The primary key of `pins`. -/
abbrev PinRow.key (r : PinRow) : String × String :=
  (r.objId, r.owner)

/-- The primary key of `fs_anchors`. -/
abbrev FsAnchorRow.key (r : FsAnchorRow) : String × UInt64 × UInt32 :=
  (r.objId, r.inodeId, r.fieldTag)

/-- `expires_at IS NULL OR expires_at > now`. -/
def PinRow.active (now : Int) (r : PinRow) : Bool :=
  match r.expiresAt with
  | none => true
  | some t => now < t

/-- The content of the database. -/
structure NamedLocalStoreDb where
  objects : Table ObjectRow ObjectRow.objId
  chunkItems : Table ChunkItemRow ChunkItemRow.chunkId
  incomingRefs : Table IncomingRefRow IncomingRefRow.key
  edgeOutbox : SeqTable OutboxRow OutboxRow.seq
  pins : Table PinRow PinRow.key
  fsAnchors : Table FsAnchorRow FsAnchorRow.key

namespace NamedLocalStoreDb

/-- `NamedLocalStoreDB::new` on a fresh file. -/
def empty : NamedLocalStoreDb where
  objects := Table.empty
  chunkItems := Table.empty
  incomingRefs := Table.empty
  edgeOutbox := SeqTable.empty
  pins := Table.empty
  fsAnchors := Table.empty

/-- `UPDATE objects SET f WHERE obj_id = k`. -/
def updateObject (db : NamedLocalStoreDb) (k : String) (f : ObjectRow → ObjectRow)
    (hf : ∀ r, (f r).objId = r.objId) : NamedLocalStoreDb :=
  { db with objects := db.objects.updateKey k f hf }

/-! ## Chunk items -/

/-- The row that `set_chunk_item` writes for a chunk item. -/
def chunkItemRow (crates : Crates) (item : ChunkItem) : ChunkItemRow where
  chunkId := item.chunkId.toString crates
  chunkSize := asI64 item.chunkSize
  chunkState := item.chunkState.toSql
  localPath :=
    match item.chunkState with
    | .localLink info => some info.path
    | _ => none
  localInfo :=
    match item.chunkState with
    | .localLink info => some (.json info)
    | .sameAs chunkListId => some (.objId (chunkListId.toString crates))
    | _ => none
  createTime := asI64 item.createTime
  updateTime := asI64 item.updateTime
  state :=
    match item.chunkState with
    | .localLink _ | .sameAs _ | .completed => .present
    | _ => .new
  logicalSize := asI64 item.chunkSize
  ownedBytes :=
    match item.chunkState with
    | .completed => asI64 item.chunkSize
    | _ => 0

/-- `set_chunk_item`. -/
def setChunkItem (crates : Crates) (db : NamedLocalStoreDb) (item : ChunkItem) :
    NamedLocalStoreDb :=
  { db with chunkItems := db.chunkItems.insertOrReplace (chunkItemRow crates item) }

/-- The state that a row of `chunk_items` stands for. -/
def chunkStateOfRow (crates : Crates) (row : ChunkItemRow) : NdnResult ChunkStoreState :=
  match row.chunkState with
  | .new => .ok .new
  | .completed => .ok .completed
  | .disabled => .ok .disabled
  | .notExist => .ok .notExist
  | .localLink =>
      match row.localPath, row.localInfo with
      | some localPath, some (.json info) => .ok (.localLink { info with path := localPath })
      | _, _ => .error (.dbError "invalid local_info")
  | .sameAs =>
      match row.localInfo with
      | some (.objId targetStr) =>
          match ObjId.new crates targetStr with
          | .ok targetId => .ok (.sameAs targetId)
          | .error _ => .error (.dbError "invalid local_info")
      | _ => .error (.dbError "invalid local_info")

/-- `get_chunk_item`. -/
def getChunkItem (crates : Crates) (db : NamedLocalStoreDb) (chunkId : ChunkId) :
    NdnResult ChunkItem :=
  match db.chunkItems.find? (chunkId.toString crates) with
  | none => .error (.notFound ("chunk not found: " ++ chunkId.toString crates))
  | some row =>
      match chunkStateOfRow crates row with
      | .error e => .error e
      | .ok chunkState => .ok
          { chunkId := chunkId
            chunkSize := asU64 row.chunkSize
            chunkState := chunkState
            createTime := asU64 row.createTime
            updateTime := asU64 row.updateTime }

/-- `remove_chunk`. -/
def removeChunk (crates : Crates) (db : NamedLocalStoreDb) (chunkId : ChunkId) :
    NamedLocalStoreDb :=
  { db with
    chunkItems := db.chunkItems.deleteKey (chunkId.toString crates)
    incomingRefs :=
      db.incomingRefs.deleteWhere fun r => r.referee = chunkId.toString crates }

/-! ## Shadow rows, eviction class and expansion -/

/-- The row of an object that is known by its identifier only. -/
def shadowRow (now : Nat) (objId : String) : ObjectRow where
  objId := objId
  objType := ""
  objData := ""
  createTime := asI64 now
  lastAccessTime := asI64 now
  state := .shadow
  evictionClass := 0
  fsAnchorCount := 0
  logicalSize := 0
  ownedBytes := 0
  childrenExpanded := false

/-- `upsert_shadow_if_absent_tx`. -/
def upsertShadowIfAbsentTx (db : NamedLocalStoreDb) (now : Nat) (objId : String) :
    NamedLocalStoreDb :=
  { db with objects := db.objects.insertOrIgnore (shadowRow now objId) }

/-- `has_active_pin_tx`. -/
def hasActivePinTx (db : NamedLocalStoreDb) (now : Nat) (objId : String) : Bool :=
  0 < db.pins.countWhere fun p => p.objId = objId && p.active (asI64 now)

/-- The common query of `has_recursive_pin_tx` and `has_skeleton_pin_tx`. -/
def hasScopedPinTx (scope : PinScope) (db : NamedLocalStoreDb) (now : Nat)
    (objId : String) : Bool :=
  0 < db.pins.countWhere fun p =>
    p.objId = objId && p.scope = scope && p.active (asI64 now)

/-- `has_recursive_pin_tx`. -/
def hasRecursivePinTx : NamedLocalStoreDb → Nat → String → Bool :=
  hasScopedPinTx .recursive

/-- `has_skeleton_pin_tx`. -/
def hasSkeletonPinTx : NamedLocalStoreDb → Nat → String → Bool :=
  hasScopedPinTx .skeleton

/-- `has_incoming_tx`. -/
def hasIncomingTx (db : NamedLocalStoreDb) (objId : String) : Bool :=
  0 < db.incomingRefs.countWhere fun r => r.referee = objId

/-- `get_fs_anchor_count_tx`. -/
def getFsAnchorCountTx (db : NamedLocalStoreDb) (objId : String) : Int :=
  ((db.objects.find? objId).map ObjectRow.fsAnchorCount).getD 0

/-- `get_item_state_tx`. -/
def getItemStateTx (db : NamedLocalStoreDb) (objId : String) : Option ItemState :=
  (db.objects.find? objId).map ObjectRow.state

/-- `get_children_expanded_tx`. -/
def getChildrenExpandedTx (db : NamedLocalStoreDb) (objId : String) : Bool :=
  ((db.objects.find? objId).map ObjectRow.childrenExpanded).getD false

/-- The class that `recompute_eviction_class_tx` computes. -/
def evictionClassTx (db : NamedLocalStoreDb) (now : Nat) (objId : String) : Nat :=
  if db.hasActivePinTx now objId || decide (db.getFsAnchorCountTx objId > 0) then 2
  else if db.hasIncomingTx objId then 1
  else 0

/-- `recompute_eviction_class_tx`. -/
def recomputeEvictionClassTx (db : NamedLocalStoreDb) (now : Nat) (objId : String) :
    NamedLocalStoreDb :=
  db.updateObject objId
    (fun r => { r with evictionClass := db.evictionClassTx now objId }) fun _ => rfl

/-- The children that the stored content of an object names, `none` when the
content is not of a known container type. -/
def knownChildren (crates : Crates) (objId : ObjId) (row : ObjectRow) :
    Option (List ObjId) :=
  if row.objType = "" ∨ row.objData = "" then none
  else
    match KnownStandardObject.fromObjData crates objId row.objData with
    | .ok known => some ((known.getChildObjs crates).toOption.getD [])
    | .error _ => none

/-- The chunk list that a chunk is stored as, read from `chunk_items`. -/
def sameAsTargetTx (crates : Crates) (db : NamedLocalStoreDb) (objId : ObjId) :
    List ObjId :=
  match db.chunkItems.find? (objId.toString crates) with
  | some row =>
      if row.chunkState = .sameAs ∧ row.state = .present then
        match row.localInfo with
        | some (.objId targetStr) => ((ObjId.new crates targetStr).toOption).toList
        | _ => []
      else []
  | none => []

/-- `parse_obj_refs_tx`. -/
def parseObjRefsTx (crates : Crates) (db : NamedLocalStoreDb) (objId : ObjId) :
    List ObjId :=
  let presentRow := (db.objects.find? (objId.toString crates)).filter
    fun row => row.state = .present
  match presentRow.bind (knownChildren crates objId) with
  | some children => children
  | none => if objId.isChunk then db.sameAsTargetTx crates objId else []

/-- `INSERT INTO edge_outbox`; every message declares epoch 1. -/
def enqueueEdgeTx (now : Nat) (op : EdgeOp) (referrer : String)
    (db : NamedLocalStoreDb) (referee : String) : NamedLocalStoreDb :=
  { db with
    edgeOutbox := db.edgeOutbox.insert
      (fun seq =>
        { seq := seq
          op := op
          referee := referee
          referrer := referrer
          targetEpoch := 1
          createdAt := asI64 now
          attempts := 0
          nextTryAt := 0 }) fun _ => rfl }

/-- One branch of `reconcile_expand_state_tx`: write the flag and tell every
child. -/
def setChildrenExpandedTx (crates : Crates) (db : NamedLocalStoreDb) (now : Nat)
    (objId : ObjId) (expanded : Bool) (op : EdgeOp) : NamedLocalStoreDb :=
  let objIdStr := objId.toString crates
  let flagged := db.updateObject objIdStr
    (fun r => { r with childrenExpanded := expanded }) fun _ => rfl
  ((flagged.parseObjRefsTx crates objId).map (·.toString crates)).foldl
    (enqueueEdgeTx now op objIdStr) flagged

/-- The `want` of `reconcile_expand_state_tx`. -/
def wantExpandedTx (db : NamedLocalStoreDb) (now : Nat) (objId : String) : Bool :=
  if db.getItemStateTx objId ≠ some .present then false
  else if db.hasSkeletonPinTx now objId then false
  else
    db.hasRecursivePinTx now objId || decide (db.getFsAnchorCountTx objId > 0) ||
      db.hasIncomingTx objId

/-- `reconcile_expand_state_tx`. -/
def reconcileExpandStateTx (crates : Crates) (db : NamedLocalStoreDb) (now : Nat)
    (objId : ObjId) : NamedLocalStoreDb :=
  let want := db.wantExpandedTx now (objId.toString crates)
  let expanded := db.getChildrenExpandedTx (objId.toString crates)
  if want && !expanded then db.setChildrenExpandedTx crates now objId true .add
  else if !want && expanded then db.setChildrenExpandedTx crates now objId false .remove
  else db

/-- The two calls that end every operation on one object. -/
def refreshTx (crates : Crates) (db : NamedLocalStoreDb) (now : Nat) (objId : ObjId) :
    NamedLocalStoreDb :=
  (db.recomputeEvictionClassTx now (objId.toString crates)).reconcileExpandStateTx
    crates now objId

/-- The body of the loops over selected `obj_id` texts: the class is always
recomputed, the expansion only when the text parses. -/
def refreshTextTx (crates : Crates) (now : Nat) (db : NamedLocalStoreDb)
    (oidStr : String) : NamedLocalStoreDb :=
  match ObjId.new crates oidStr with
  | .ok oid => (db.recomputeEvictionClassTx now oidStr).reconcileExpandStateTx crates now oid
  | .error _ => db.recomputeEvictionClassTx now oidStr

/-! ## Objects -/

/-- `promote_anchor_cascade_state_on_present_tx`. -/
def promoteAnchorCascadeStateOnPresentTx (db : NamedLocalStoreDb) (objId : String) :
    NamedLocalStoreDb :=
  { db with
    pins := db.pins.updateWhere
      (fun p => p.objId = objId && p.scope = .recursive && p.cascadeState = .pending)
      (fun p => { p with cascadeState := .materializing }) fun _ => rfl
    fsAnchors := db.fsAnchors.updateWhere
      (fun a => a.objId = objId && a.cascadeState = .pending)
      (fun a => { a with cascadeState := .materializing }) fun _ => rfl }

/-- `UPDATE objects SET last_access_time = MAX(last_access_time, ts)`. -/
def touchLastAccessTx (db : NamedLocalStoreDb) (objId : String) (ts : Nat) :
    NamedLocalStoreDb :=
  db.updateObject objId
    (fun r => { r with lastAccessTime := max r.lastAccessTime (asI64 ts) }) fun _ => rfl

/-- The row that a put inserts: no anchors or pins are expected to exist yet, so
the derived columns and the anchor count start from zero. -/
def presentRow (nowTime : Nat) (objId objType objStr : String)
    (logicalSize ownedBytes : Int) : ObjectRow where
  objId := objId
  objType := objType
  objData := objStr
  createTime := asI64 nowTime
  lastAccessTime := asI64 nowTime
  state := .present
  evictionClass := 0
  fsAnchorCount := 0
  logicalSize := logicalSize
  ownedBytes := ownedBytes
  childrenExpanded := false

/-- The row of a shadow once its content has arrived. -/
def filledRow (nowTime : Nat) (objType objStr : String) (logicalSize ownedBytes : Int)
    (r : ObjectRow) : ObjectRow :=
  { r with
    objType := objType
    objData := objStr
    state := .present
    lastAccessTime := asI64 nowTime
    logicalSize := logicalSize
    ownedBytes := ownedBytes }

theorem filledRow_objId (nowTime : Nat) (objType objStr : String)
    (logicalSize ownedBytes : Int) (r : ObjectRow) :
    (filledRow nowTime objType objStr logicalSize ownedBytes r).objId = r.objId := rfl

/-- Fill a shadow row with its content. -/
def fillShadowTx (db : NamedLocalStoreDb) (nowTime : Nat) (objId objType objStr : String)
    (logicalSize ownedBytes : Int) : NamedLocalStoreDb :=
  db.updateObject objId (filledRow nowTime objType objStr logicalSize ownedBytes)
    (filledRow_objId nowTime objType objStr logicalSize ownedBytes)

/-- `put_object_in_tx`: the database and whether the state of the object
changed. -/
def putObjectInTx (crates : Crates) (db : NamedLocalStoreDb) (objId : ObjId)
    (objType objStr : String) (nowTime : Nat) (logicalSize ownedBytes : Int) :
    NamedLocalStoreDb × Bool :=
  let objIdStr := objId.toString crates
  match db.getItemStateTx objIdStr with
  | some .present => (db.touchLastAccessTx objIdStr nowTime, false)
  | some .shadow =>
      let filled := db.fillShadowTx nowTime objIdStr objType objStr logicalSize ownedBytes
      ((filled.promoteAnchorCascadeStateOnPresentTx objIdStr).refreshTx crates nowTime objId,
        true)
  | _ =>
      ({ db with
          objects := db.objects.insertOrReplace
            (presentRow nowTime objIdStr objType objStr logicalSize ownedBytes) }, true)

/-- `str::len` as an integer column. -/
def strLen (s : String) : Int :=
  asI64 s.utf8ByteSize

/-- `set_object`. -/
def setObject (crates : Crates) (db : NamedLocalStoreDb) (now : Nat) (objId : ObjId)
    (objType objStr : String) : NamedLocalStoreDb :=
  (db.putObjectInTx crates objId objType objStr now (strLen objStr) (strLen objStr)).1

/-- `put_object_gc_aware`: the body of `set_object` once more. -/
def putObjectGcAware (crates : Crates) (db : NamedLocalStoreDb) (now : Nat)
    (objId : ObjId) (objType objStr : String) : NamedLocalStoreDb :=
  (db.putObjectInTx crates objId objType objStr now (strLen objStr) (strLen objStr)).1

/-- `get_object`: the type and the text of an object that is not a shadow. -/
def getObject (crates : Crates) (db : NamedLocalStoreDb) (objId : ObjId) :
    NdnResult (String × String) :=
  match db.objects.find? (objId.toString crates) with
  | none => .error (.dbError "Query returned no rows")
  | some row =>
      if row.state = .shadow then
        .error (.notFound ("object is shadow: " ++ objId.toString crates))
      else .ok (row.objType, row.objData)

/-- `remove_object`: the row goes, what other tables hold of the id stays. -/
def removeObject (crates : Crates) (db : NamedLocalStoreDb) (objId : ObjId) :
    NamedLocalStoreDb :=
  { db with objects := db.objects.deleteKey (objId.toString crates) }

/-! ## Pins -/

/-- The row that `pin` inserts. -/
def newPinRow (db : NamedLocalStoreDb) (now : Nat) (objIdStr owner : String)
    (scope : PinScope) (ttl : Option Nat) : PinRow where
  objId := objIdStr
  owner := owner
  scope := scope
  cascadeState :=
    if scope ≠ .recursive ∨ db.getItemStateTx objIdStr = some .present then .materializing
    else .pending
  createdAt := asI64 now
  expiresAt := ttl.map fun secs => asI64 (now + secs)

/-- `ON CONFLICT(obj_id, owner) DO UPDATE SET`: the old row keeps its creation
time. -/
def repinnedRow (new old : PinRow) : PinRow :=
  { old with
    scope := new.scope
    cascadeState := new.cascadeState
    expiresAt := new.expiresAt }

theorem repinnedRow_key (new old : PinRow) : (repinnedRow new old).key = old.key := rfl

/-- The part of `pin` before the refresh: a shadow row if there is none, and the
pin row. -/
def insertPinTx (db : NamedLocalStoreDb) (now : Nat) (objIdStr owner : String)
    (scope : PinScope) (ttl : Option Nat) : NamedLocalStoreDb :=
  let shadowed := db.upsertShadowIfAbsentTx now objIdStr
  let row := shadowed.newPinRow now objIdStr owner scope ttl
  { shadowed with pins := shadowed.pins.upsert row (repinnedRow row) (repinnedRow_key row) }

/-- `pin`. -/
def pin (crates : Crates) (db : NamedLocalStoreDb) (now : Nat) (objId : ObjId)
    (owner : String) (scope : PinScope) (ttl : Option Nat) : NamedLocalStoreDb :=
  (db.insertPinTx now (objId.toString crates) owner scope ttl).refreshTx crates now objId

/-- `unpin`. -/
def unpin (crates : Crates) (db : NamedLocalStoreDb) (now : Nat) (objId : ObjId)
    (owner : String) : NamedLocalStoreDb :=
  let objIdStr := objId.toString crates
  let unpinned : NamedLocalStoreDb :=
    { db with pins := db.pins.deleteKey (objIdStr, owner) }
  if 0 < db.pins.countWhere fun p => p.key = (objIdStr, owner) then
    unpinned.refreshTx crates now objId
  else unpinned

/-- Delete the pins of a `WHERE` clause and refresh every object that had one:
the common body of `unpin_owner` and `expire_pins`. -/
def deletePinsTx (crates : Crates) (db : NamedLocalStoreDb) (now : Nat)
    (p : PinRow → Bool) : NamedLocalStoreDb × Nat :=
  let objIds := ((db.pins.rows.filter p).map PinRow.objId).dedup
  let deleted : NamedLocalStoreDb := { db with pins := db.pins.deleteWhere p }
  (objIds.foldl (refreshTextTx crates now) deleted, objIds.length)

/-- `unpin_owner`. -/
def unpinOwner (crates : Crates) (db : NamedLocalStoreDb) (now : Nat) (owner : String) :
    NamedLocalStoreDb × Nat :=
  db.deletePinsTx crates now fun p => p.owner = owner

/-- `expire_pins`. -/
def expirePins (crates : Crates) (db : NamedLocalStoreDb) (now : Nat) :
    NamedLocalStoreDb × Nat :=
  db.deletePinsTx crates now fun p => !p.active (asI64 now)

/-! ## Filesystem anchors -/

/-- `UPDATE objects SET fs_anchor_count = f fs_anchor_count`. -/
def updateFsAnchorCountTx (db : NamedLocalStoreDb) (objId : String) (f : Int → Int) :
    NamedLocalStoreDb :=
  db.updateObject objId (fun r => { r with fsAnchorCount := f r.fsAnchorCount }) fun _ => rfl

/-- The row that `fs_acquire` inserts. -/
def newFsAnchorRow (db : NamedLocalStoreDb) (now : Nat) (objIdStr : String)
    (inodeId : UInt64) (fieldTag : UInt32) : FsAnchorRow where
  objId := objIdStr
  inodeId := inodeId
  fieldTag := fieldTag
  cascadeState :=
    if db.getItemStateTx objIdStr = some .present then .materializing else .pending
  createdAt := asI64 now

/-- The part of `fs_acquire` before the refresh. -/
def acquireAnchorTx (db : NamedLocalStoreDb) (now : Nat) (objIdStr : String)
    (inodeId : UInt64) (fieldTag : UInt32) : NamedLocalStoreDb :=
  let shadowed := db.upsertShadowIfAbsentTx now objIdStr
  let anchor := shadowed.newFsAnchorRow now objIdStr inodeId fieldTag
  let anchored : NamedLocalStoreDb :=
    { shadowed with fsAnchors := shadowed.fsAnchors.insertOrIgnore anchor }
  if 0 < shadowed.fsAnchors.insertOrIgnoreCount anchor then
    anchored.updateFsAnchorCountTx objIdStr (· + 1)
  else anchored

/-- `fs_acquire`. -/
def fsAcquire (crates : Crates) (db : NamedLocalStoreDb) (now : Nat) (objId : ObjId)
    (inodeId : UInt64) (fieldTag : UInt32) : NamedLocalStoreDb :=
  (db.acquireAnchorTx now (objId.toString crates) inodeId fieldTag).refreshTx crates now objId

/-- The part of `fs_release` before the refresh. -/
def releaseAnchorTx (db : NamedLocalStoreDb) (objIdStr : String) (inodeId : UInt64)
    (fieldTag : UInt32) : NamedLocalStoreDb :=
  let released : NamedLocalStoreDb :=
    { db with fsAnchors := db.fsAnchors.deleteKey (objIdStr, inodeId, fieldTag) }
  if 0 < db.fsAnchors.countWhere fun a => a.key = (objIdStr, inodeId, fieldTag) then
    released.updateFsAnchorCountTx objIdStr fun n => max 0 (n - 1)
  else released

/-- `fs_release`. -/
def fsRelease (crates : Crates) (db : NamedLocalStoreDb) (now : Nat) (objId : ObjId)
    (inodeId : UInt64) (fieldTag : UInt32) : NamedLocalStoreDb :=
  (db.releaseAnchorTx (objId.toString crates) inodeId fieldTag).refreshTx crates now objId

/-- The objects that `fs_release_inode` affects. -/
def inodeObjIds (db : NamedLocalStoreDb) (inodeId : UInt64) : List String :=
  ((db.fsAnchors.rows.filter fun a => a.inodeId = inodeId).map FsAnchorRow.objId).dedup

/-- The first loop of `fs_release_inode` for one object: its count is lowered
while the rows are still there. -/
def dropInodeCountTx (inodeId : UInt64) (db : NamedLocalStoreDb) (oidStr : String) :
    NamedLocalStoreDb :=
  let anchorCount := db.fsAnchors.countWhere fun a =>
    a.objId = oidStr && a.inodeId = inodeId
  db.updateFsAnchorCountTx oidStr fun n => max 0 (n - anchorCount)

/-- The part of `fs_release_inode` before the refreshes. -/
def releaseInodeTx (db : NamedLocalStoreDb) (inodeId : UInt64) : NamedLocalStoreDb :=
  let counted := (db.inodeObjIds inodeId).foldl (dropInodeCountTx inodeId) db
  { counted with fsAnchors := counted.fsAnchors.deleteWhere fun a => a.inodeId = inodeId }

/-- `fs_release_inode`. -/
def fsReleaseInode (crates : Crates) (db : NamedLocalStoreDb) (now : Nat)
    (inodeId : UInt64) : NamedLocalStoreDb × Nat :=
  let objIds := db.inodeObjIds inodeId
  (objIds.foldl (refreshTextTx crates now) (db.releaseInodeTx inodeId), objIds.length)

/-! ## Edges -/

/-- The part of `apply_edge` before the refresh. -/
def applyEdgeRefTx (db : NamedLocalStoreDb) (now : Nat) (op : EdgeOp)
    (refereeStr referrerStr : String) (targetEpoch : Nat) : NamedLocalStoreDb :=
  let shadowed := db.upsertShadowIfAbsentTx now refereeStr
  match op with
  | .add =>
      { shadowed with
        incomingRefs := shadowed.incomingRefs.insertOrIgnore
          { referee := refereeStr
            referrer := referrerStr
            declaredEpoch := asI64 targetEpoch
            createdAt := asI64 now } }
  | .remove =>
      { shadowed with
        incomingRefs := shadowed.incomingRefs.deleteKey (refereeStr, referrerStr) }

/-- `apply_edge`. -/
def applyEdge (crates : Crates) (db : NamedLocalStoreDb) (now : Nat) (msg : EdgeMsg) :
    NamedLocalStoreDb :=
  (db.applyEdgeRefTx now msg.op (msg.referee.toString crates) (msg.referrer.toString crates)
    msg.targetEpoch).refreshTx crates now msg.referee

/-- `OutboxEntry`. -/
structure OutboxEntry where
  seq : Nat
  msg : EdgeMsg
  attempts : Nat
  nextTryAt : Nat
  createdAt : Nat
  deriving DecidableEq, Repr

/-- The entry that a row of `edge_outbox` is read as; a row whose ids do not
parse is skipped. -/
def outboxEntryOfRow (crates : Crates) (row : OutboxRow) : Option OutboxEntry :=
  match ObjId.new crates row.referee, ObjId.new crates row.referrer with
  | .ok referee, .ok referrer => some
      { seq := row.seq
        msg := ⟨row.op, referee, referrer, asU64 row.targetEpoch⟩
        attempts := row.attempts % 2 ^ 32
        nextTryAt := asU64 row.nextTryAt
        createdAt := asU64 row.createdAt }
  | _, _ => none

/-- `fetch_outbox_ready`. -/
def fetchOutboxReady (crates : Crates) (db : NamedLocalStoreDb) (now limit : Nat) :
    List OutboxEntry :=
  ((db.edgeOutbox.rows.filter fun r => r.nextTryAt ≤ asI64 now).take limit).filterMap
    (outboxEntryOfRow crates)

/-- `complete_outbox_entry`. -/
def completeOutboxEntry (db : NamedLocalStoreDb) (seq : Nat) : NamedLocalStoreDb :=
  { db with edgeOutbox := db.edgeOutbox.deleteSeq seq }

/-- `retry_outbox_entry`: `2^attempts` seconds, at most 256. -/
def retryOutboxEntry (db : NamedLocalStoreDb) (now seq : Nat) : NamedLocalStoreDb :=
  { db with
    edgeOutbox := db.edgeOutbox.updateSeq seq
      (fun r =>
        { r with
          attempts := r.attempts + 1
          nextTryAt := asI64 now + min 300 (2 ^ min r.attempts 8 : Nat) }) fun _ => rfl }

/-! ## Eviction -/

/-- The `WHERE` clause of `list_gc_candidates`. -/
def isGcCandidate (row : ObjectRow) : Bool :=
  row.evictionClass = 0 && row.state = .present && decide (row.ownedBytes > 0)

/-- `list_gc_candidates`. -/
def listGcCandidates (db : NamedLocalStoreDb) (limit : Nat) : List (String × Nat) :=
  (((db.objects.rows.filter isGcCandidate).insertionSort
    fun r s => r.lastAccessTime ≤ s.lastAccessTime).take limit).map
      fun r => (r.objId, asU64 r.ownedBytes)

/-- The double check of `try_evict_object`. -/
def isProtectedTx (db : NamedLocalStoreDb) (now : Nat) (objIdStr : String) : Bool :=
  db.hasActivePinTx now objIdStr || db.hasIncomingTx objIdStr ||
    decide (db.getFsAnchorCountTx objIdStr > 0)

/-- `try_evict_object`: the database and the bytes freed. -/
def tryEvictObject (db : NamedLocalStoreDb) (now : Nat) (objIdStr : String) :
    NamedLocalStoreDb × Nat :=
  if db.isProtectedTx now objIdStr then (db.recomputeEvictionClassTx now objIdStr, 0)
  else
    ({ db with
        objects := db.objects.deleteKey objIdStr
        chunkItems := db.chunkItems.deleteKey objIdStr },
      asU64 (((db.objects.find? objIdStr).map ObjectRow.ownedBytes).getD 0))

/-- `batch_touch_last_access_with_max`. -/
def batchTouchLastAccessWithMax (db : NamedLocalStoreDb) (items : List (String × Nat)) :
    NamedLocalStoreDb :=
  items.foldl (fun db item => db.touchLastAccessTx item.1 item.2) db

end NamedLocalStoreDb

/-! ## Runs of the public operations -/

/-- The public operations of `NamedLocalStoreDB` that write. -/
inductive DbOp where
  | setChunkItem (item : ChunkItem)
  | removeChunk (chunkId : ChunkId)
  | setObject (objId : ObjId) (objType objStr : String)
  | putObjectGcAware (objId : ObjId) (objType objStr : String)
  | removeObject (objId : ObjId)
  | pin (objId : ObjId) (owner : String) (scope : PinScope) (ttl : Option Nat)
  | unpin (objId : ObjId) (owner : String)
  | unpinOwner (owner : String)
  | fsAcquire (objId : ObjId) (inodeId : UInt64) (fieldTag : UInt32)
  | fsRelease (objId : ObjId) (inodeId : UInt64) (fieldTag : UInt32)
  | fsReleaseInode (inodeId : UInt64)
  | applyEdge (msg : EdgeMsg)
  | completeOutboxEntry (seq : Nat)
  | retryOutboxEntry (seq : Nat)
  | tryEvictObject (objIdStr : String)
  | batchTouchLastAccessWithMax (items : List (String × Nat))
  | expirePins
  deriving DecidableEq

/-- An operation together with the time at which its transaction runs. -/
structure TimedOp where
  now : Nat
  op : DbOp
  deriving DecidableEq

namespace NamedLocalStoreDb

/-- One transaction. -/
def step (crates : Crates) (db : NamedLocalStoreDb) (action : TimedOp) :
    NamedLocalStoreDb :=
  match action.op with
  | .setChunkItem item => db.setChunkItem crates item
  | .removeChunk chunkId => db.removeChunk crates chunkId
  | .setObject objId objType objStr => db.setObject crates action.now objId objType objStr
  | .putObjectGcAware objId objType objStr =>
      db.putObjectGcAware crates action.now objId objType objStr
  | .removeObject objId => db.removeObject crates objId
  | .pin objId owner scope ttl => db.pin crates action.now objId owner scope ttl
  | .unpin objId owner => db.unpin crates action.now objId owner
  | .unpinOwner owner => (db.unpinOwner crates action.now owner).1
  | .fsAcquire objId inodeId fieldTag => db.fsAcquire crates action.now objId inodeId fieldTag
  | .fsRelease objId inodeId fieldTag => db.fsRelease crates action.now objId inodeId fieldTag
  | .fsReleaseInode inodeId => (db.fsReleaseInode crates action.now inodeId).1
  | .applyEdge msg => db.applyEdge crates action.now msg
  | .completeOutboxEntry seq => db.completeOutboxEntry seq
  | .retryOutboxEntry seq => db.retryOutboxEntry action.now seq
  | .tryEvictObject objIdStr => (db.tryEvictObject action.now objIdStr).1
  | .batchTouchLastAccessWithMax items => db.batchTouchLastAccessWithMax items
  | .expirePins => (db.expirePins crates action.now).1

end NamedLocalStoreDb

end NamedStore
end CyfsNdn

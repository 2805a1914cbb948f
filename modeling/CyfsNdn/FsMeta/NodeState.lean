import CyfsNdn.Collections.Traverse
import CyfsNdn.NdnLib.Chunk

/-!
# The state of an inode and its columns

`NodeState` of `cyfs-lib/src/fsmeta_client.rs` and the way `fs_meta_service.rs` keeps it
in a row of `nodes`: the variant goes to the column `state`, its fields to nullable
columns of their own.  Writing a state fills the columns of its variant and leaves the
others `NULL`; reading one looks only at the columns of the variant.

`INTEGER` columns hold signed numbers of 64 bits.  The unsigned numbers of the records
are cast to them and back without loss.
-/

namespace CyfsNdn
namespace FsMeta

open NdnLib Collections

/-- `Result<T, RPCErrors>`: every error of the service is a `ReasonError` with a text. -/
abbrev RpcResult (α : Type) := Except String α

/-- The text of a result that is an error. -/
def errorText {α : Type} : RpcResult α → Option String
  | .ok _ => none
  | .error e => some e

section Peel

variable {α β : Type} {x : RpcResult α} {f : α → RpcResult β} {r : β} {e : String}

/-- An early return in a computation that went on. -/
theorem guard_eq_ok {c : Prop} [Decidable c] {y : RpcResult β} :
    (if c then throw e >>= f else y) = .ok r ↔ ¬ c ∧ y = .ok r := by
  by_cases hc : c
  · rw [if_pos hc]
    constructor
    · intro h
      cases h
    · rintro ⟨hnot, -⟩
      exact absurd hc hnot
  · rw [if_neg hc]
    exact ⟨fun h => ⟨hc, h⟩, fun h => h.2⟩

end Peel

/-- `NodeState`. -/
inductive NodeState where
  | dirNormal
  | dirOverlay
  | fileNormal
  | working (fbHandle : String) (lastWriteAt : UInt64)
  | cooling (fbHandle : String) (closedAt : UInt64)
  | linked (objId qcid : ObjId) (filebufferId : String) (linkedAt : UInt64)
  | finalized (objId : ObjId) (finalizedAt : UInt64)
deriving DecidableEq

/-- `NodeKind`. -/
inductive NodeKind where
  | dir
  | file
  | object
deriving DecidableEq

/-- The kind of an inode whose content is an object. -/
def kindOfObject (objId : ObjId) : NodeKind :=
  if objId.isDirObject then .dir else if objId.isFileObject then .file else .object

/-- `get_node_kind`. -/
def NodeState.kind : NodeState → NodeKind
  | .dirNormal | .dirOverlay => .dir
  | .fileNormal | .working _ _ | .cooling _ _ => .file
  | .linked objId _ _ _ => kindOfObject objId
  | .finalized objId _ => kindOfObject objId

/-- The `state` column, the constants `NODE_STATE_*`. -/
inductive StateTag where
  | dirNormal
  | dirOverlay
  | working
  | cooling
  | linked
  | finalized
  | fileNormal
deriving DecidableEq

/-- `NodeStateCols`: the columns that hold a state. -/
structure NodeStateCols where
  state : StateTag
  fbHandle : Option String
  lastWriteAt : Option Int64
  closedAt : Option Int64
  linkedObjId : Option (List UInt8)
  linkedQcid : Option (List UInt8)
  linkedFilebufferId : Option String
  linkedAt : Option Int64
  finalizedObjId : Option (List UInt8)
  finalizedAt : Option Int64
deriving DecidableEq

/-- `NodeStateCols::default()` under a tag. -/
def NodeStateCols.ofTag (tag : StateTag) : NodeStateCols :=
  ⟨tag, none, none, none, none, none, none, none, none, none⟩

/-- `node_state_cols`. -/
def nodeStateCols : NodeState → NodeStateCols
  | .dirNormal => NodeStateCols.ofTag .dirNormal
  | .dirOverlay => NodeStateCols.ofTag .dirOverlay
  | .fileNormal => NodeStateCols.ofTag .fileNormal
  | .working fbHandle lastWriteAt =>
      { NodeStateCols.ofTag .working with
        fbHandle := some fbHandle
        lastWriteAt := some lastWriteAt.toInt64 }
  | .cooling fbHandle closedAt =>
      { NodeStateCols.ofTag .cooling with
        fbHandle := some fbHandle
        closedAt := some closedAt.toInt64 }
  | .linked objId qcid filebufferId linkedAt =>
      { NodeStateCols.ofTag .linked with
        linkedObjId := some objId.toBytes
        linkedQcid := some qcid.toBytes
        linkedFilebufferId := some filebufferId
        linkedAt := some linkedAt.toInt64 }
  | .finalized objId finalizedAt =>
      { NodeStateCols.ofTag .finalized with
        finalizedObjId := some objId.toBytes
        finalizedAt := some finalizedAt.toInt64 }

/-- `row.get` of a column that must not be `NULL`. -/
def getColumn {α : Type} (index : String) (name : String) : Option α → RpcResult α
  | some value => .ok value
  | none => .error
      ("db error: Invalid column type Null at index: " ++ index ++ ", name: " ++ name)

/-- `obj_id_from_blob`. -/
def objIdFromBlob (blob : List UInt8) : RpcResult ObjId :=
  match ObjId.fromBytes blob with
  | .ok objId => .ok objId
  | .error e => .error ("invalid obj_id bytes: " ++ e.display)

/-- `parse_node_state`. -/
def parseNodeState (cols : NodeStateCols) : RpcResult NodeState :=
  match cols.state with
  | .dirNormal => .ok .dirNormal
  | .dirOverlay => .ok .dirOverlay
  | .fileNormal => .ok .fileNormal
  | .working => do
      let fbHandle ← getColumn "9" "fb_handle" cols.fbHandle
      let lastWriteAt ← getColumn "10" "last_write_at" cols.lastWriteAt
      return .working fbHandle lastWriteAt.toUInt64
  | .cooling => do
      let fbHandle ← getColumn "9" "fb_handle" cols.fbHandle
      let closedAt ← getColumn "11" "closed_at" cols.closedAt
      return .cooling fbHandle closedAt.toUInt64
  | .linked => do
      let objBlob ← getColumn "12" "linked_obj_id" cols.linkedObjId
      let qcidBlob ← getColumn "13" "linked_qcid" cols.linkedQcid
      let filebufferId ← getColumn "14" "linked_filebuffer_id" cols.linkedFilebufferId
      let linkedAt ← getColumn "15" "linked_at" cols.linkedAt
      let objId ← objIdFromBlob objBlob
      let qcid ← objIdFromBlob qcidBlob
      return .linked objId qcid filebufferId linkedAt.toUInt64
  | .finalized => do
      let objBlob ← getColumn "16" "finalized_obj_id" cols.finalizedObjId
      let finalizedAt ← getColumn "17" "finalized_at" cols.finalizedAt
      let objId ← objIdFromBlob objBlob
      return .finalized objId finalizedAt.toUInt64

/-! ## Reading back what was written -/

/-- An object id that its bytes give back: the type has no colon, and the bytes are not
too short. -/
def RoundTrips (objId : ObjId) : Prop := ObjId.fromBytes objId.toBytes = .ok objId

instance (objId : ObjId) : Decidable (RoundTrips objId) :=
  inferInstanceAs (Decidable (ObjId.fromBytes objId.toBytes = .ok objId))

/-- A state whose object ids can be stored. -/
def NodeState.Storable : NodeState → Prop
  | .linked objId qcid _ _ => RoundTrips objId ∧ RoundTrips qcid
  | .finalized objId _ => RoundTrips objId
  | _ => True

instance : (state : NodeState) → Decidable state.Storable
  | .dirNormal => isTrue trivial
  | .dirOverlay => isTrue trivial
  | .fileNormal => isTrue trivial
  | .working _ _ => isTrue trivial
  | .cooling _ _ => isTrue trivial
  | .linked objId qcid _ _ => inferInstanceAs (Decidable (RoundTrips objId ∧ RoundTrips qcid))
  | .finalized objId _ => inferInstanceAs (Decidable (RoundTrips objId))

theorem objIdFromBlob_toBytes {objId : ObjId} (h : RoundTrips objId) :
    objIdFromBlob objId.toBytes = .ok objId := by
  unfold objIdFromBlob
  rw [h]

/-- A storable state is read back. -/
theorem parseNodeState_nodeStateCols {state : NodeState} (h : state.Storable) :
    parseNodeState (nodeStateCols state) = .ok state := by
  cases state with
  | dirNormal => rfl
  | dirOverlay => rfl
  | fileNormal => rfl
  | working fbHandle lastWriteAt => rfl
  | cooling fbHandle closedAt => rfl
  | linked objId qcid filebufferId linkedAt =>
      show (do
        let objId ← objIdFromBlob objId.toBytes
        let qcid ← objIdFromBlob qcid.toBytes
        return NodeState.linked objId qcid filebufferId linkedAt.toInt64.toUInt64) = _
      rw [objIdFromBlob_toBytes h.1, objIdFromBlob_toBytes h.2]
      rfl
  | finalized objId finalizedAt =>
      show (do
        let objId ← objIdFromBlob objId.toBytes
        return NodeState.finalized objId finalizedAt.toInt64.toUInt64) = _
      rw [objIdFromBlob_toBytes h]
      rfl

/-- The columns as a write of one storable state leaves them. -/
def NodeStateCols.Clean (cols : NodeStateCols) : Prop :=
  ∃ state : NodeState, state.Storable ∧ cols = nodeStateCols state

theorem clean_nodeStateCols {state : NodeState} (h : state.Storable) :
    (nodeStateCols state).Clean :=
  ⟨state, h, rfl⟩

/-- Clean columns agree with a storable state exactly when they are read as it. -/
theorem NodeStateCols.Clean.eq_iff {cols : NodeStateCols} (h : cols.Clean) {old : NodeState}
    (hold : old.Storable) : cols = nodeStateCols old ↔ parseNodeState cols = .ok old := by
  obtain ⟨state, hstate, rfl⟩ := h
  constructor
  · intro heq
    rw [heq]
    exact parseNodeState_nodeStateCols hold
  · intro hparse
    rw [parseNodeState_nodeStateCols hstate, Except.ok.injEq] at hparse
    rw [hparse]

/-- What clean columns are read as can be stored. -/
theorem NodeStateCols.Clean.storable {cols : NodeStateCols} (h : cols.Clean)
    {state : NodeState} (hparse : parseNodeState cols = .ok state) : state.Storable := by
  obtain ⟨written, hwritten, rfl⟩ := h
  rw [parseNodeState_nodeStateCols hwritten, Except.ok.injEq] at hparse
  rwa [← hparse]

end FsMeta
end CyfsNdn

import CyfsNdn.NamedStore.StoreDb

/-!
# What the operations of the database change

The columns of the database are of two kinds.  Pins, anchors, incoming
references, chunk items and the content of an object are *facts*.  The columns
`eviction_class` and `children_expanded` of an `objects` row are derived from
them, and `recompute_eviction_class_tx` and `reconcile_expand_state_tx` write
nothing else, apart from the outbox.

`SameFacts` says that two states agree on all facts, `SameAt` that they agree on
everything about one key, and `find?_refreshTx` says what the two derived
columns of a row are after a refresh.  Every invariant of the database is proved
from these three.
-/

namespace CyfsNdn
namespace NamedStore

open NdnLib Relational

/-- A row without its derived columns. -/
def ObjectRow.core (r : ObjectRow) : ObjectRow :=
  { r with evictionClass := 0, childrenExpanded := false }

theorem ObjectRow.core_inj_on {r s : ObjectRow} (h : r.core = s.core) :
    r.objId = s.objId ∧ r.objType = s.objType ∧ r.objData = s.objData ∧
      r.state = s.state ∧ r.fsAnchorCount = s.fsAnchorCount ∧
      r.ownedBytes = s.ownedBytes := by
  simp only [ObjectRow.core, ObjectRow.mk.injEq] at h
  obtain ⟨h1, h2, h3, -, -, h6, -, h8, -, h10, -⟩ := h
  exact ⟨h1, h2, h3, h6, h8, h10⟩

/-- A row without its access times. -/
def ObjectRow.untimed (r : ObjectRow) : ObjectRow :=
  { r with createTime := 0, lastAccessTime := 0 }

/-- A text that is the `to_string` of the identifier it parses to. -/
def CanonicalKey (crates : Crates) (k : String) : Prop :=
  ∃ id, ObjId.new crates k = .ok id ∧ id.toString crates = k

namespace NamedLocalStoreDb

/-! ## The protection facts of a key -/

/-- Some pin row, expired or not, names the key. -/
def HasPin (db : NamedLocalStoreDb) (k : String) : Prop :=
  ∃ p ∈ db.pins.rows, p.objId = k

/-- Some pin row of the given scope names the key. -/
def HasScopedPin (db : NamedLocalStoreDb) (scope : PinScope) (k : String) : Prop :=
  ∃ p ∈ db.pins.rows, p.objId = k ∧ p.scope = scope

/-- Some pin row that has not expired names the key. -/
def HasActivePin (db : NamedLocalStoreDb) (now : Nat) (k : String) : Prop :=
  ∃ p ∈ db.pins.rows, p.objId = k ∧ p.active (asI64 now) = true

/-- Some anchor row names the key. -/
def HasFsAnchor (db : NamedLocalStoreDb) (k : String) : Prop :=
  ∃ a ∈ db.fsAnchors.rows, a.objId = k

/-- Some incoming reference has the key as referee. -/
def HasIncoming (db : NamedLocalStoreDb) (k : String) : Prop :=
  ∃ r ∈ db.incomingRefs.rows, r.referee = k

instance (db : NamedLocalStoreDb) (k : String) : Decidable (db.HasPin k) :=
  inferInstanceAs (Decidable (∃ p ∈ db.pins.rows, p.objId = k))

instance (db : NamedLocalStoreDb) (scope : PinScope) (k : String) :
    Decidable (db.HasScopedPin scope k) :=
  inferInstanceAs (Decidable (∃ p ∈ db.pins.rows, p.objId = k ∧ p.scope = scope))

instance (db : NamedLocalStoreDb) (now : Nat) (k : String) :
    Decidable (db.HasActivePin now k) :=
  inferInstanceAs
    (Decidable (∃ p ∈ db.pins.rows, p.objId = k ∧ p.active (asI64 now) = true))

instance (db : NamedLocalStoreDb) (k : String) : Decidable (db.HasFsAnchor k) :=
  inferInstanceAs (Decidable (∃ a ∈ db.fsAnchors.rows, a.objId = k))

instance (db : NamedLocalStoreDb) (k : String) : Decidable (db.HasIncoming k) :=
  inferInstanceAs (Decidable (∃ r ∈ db.incomingRefs.rows, r.referee = k))

/-- The number of anchor rows of a key. -/
def fsAnchorRows (db : NamedLocalStoreDb) (k : String) : Nat :=
  db.fsAnchors.countWhere fun a => a.objId = k

theorem fsAnchorRows_pos {db : NamedLocalStoreDb} {k : String} :
    0 < db.fsAnchorRows k ↔ db.HasFsAnchor k := by
  unfold fsAnchorRows HasFsAnchor
  rw [Table.countWhere_pos]
  simp

theorem hasActivePinTx_iff {db : NamedLocalStoreDb} {now : Nat} {k : String} :
    db.hasActivePinTx now k = true ↔ db.HasActivePin now k := by
  unfold hasActivePinTx HasActivePin
  rw [decide_eq_true_iff, Table.countWhere_pos]
  simp

theorem hasScopedPinTx_iff {db : NamedLocalStoreDb} {scope : PinScope} {now : Nat}
    {k : String} :
    db.hasScopedPinTx scope now k = true ↔
      ∃ p ∈ db.pins.rows, p.objId = k ∧ p.scope = scope ∧ p.active (asI64 now) = true := by
  unfold hasScopedPinTx
  rw [decide_eq_true_iff, Table.countWhere_pos]
  simp [and_assoc]

theorem hasIncomingTx_iff {db : NamedLocalStoreDb} {k : String} :
    db.hasIncomingTx k = true ↔ db.HasIncoming k := by
  unfold hasIncomingTx HasIncoming
  rw [decide_eq_true_iff, Table.countWhere_pos]
  simp

/-- An object is expanded only when it is present, no active skeleton pin blocks
it and an active recursive pin, an anchor or an incoming reference asks for
it. -/
theorem wantExpandedTx_iff {db : NamedLocalStoreDb} {now : Nat} {k : String} :
    db.wantExpandedTx now k = true ↔
      db.getItemStateTx k = some .present ∧ db.hasSkeletonPinTx now k = false ∧
        (db.hasRecursivePinTx now k = true ∨ 0 < db.getFsAnchorCountTx k ∨
          db.hasIncomingTx k = true) := by
  unfold wantExpandedTx
  split_ifs with hstate hskeleton
  · simp [hstate]
  · simp [hskeleton]
  · simp only [ne_eq, not_not] at hstate
    simp [hstate, hskeleton, or_assoc]

/-! ## Updating one row -/

@[simp] theorem updateObject_pins (db : NamedLocalStoreDb) (k : String)
    (f : ObjectRow → ObjectRow) (hf : ∀ r, (f r).objId = r.objId) :
    (db.updateObject k f hf).pins = db.pins := rfl

@[simp] theorem updateObject_fsAnchors (db : NamedLocalStoreDb) (k : String)
    (f : ObjectRow → ObjectRow) (hf : ∀ r, (f r).objId = r.objId) :
    (db.updateObject k f hf).fsAnchors = db.fsAnchors := rfl

@[simp] theorem updateObject_incomingRefs (db : NamedLocalStoreDb) (k : String)
    (f : ObjectRow → ObjectRow) (hf : ∀ r, (f r).objId = r.objId) :
    (db.updateObject k f hf).incomingRefs = db.incomingRefs := rfl

@[simp] theorem updateObject_chunkItems (db : NamedLocalStoreDb) (k : String)
    (f : ObjectRow → ObjectRow) (hf : ∀ r, (f r).objId = r.objId) :
    (db.updateObject k f hf).chunkItems = db.chunkItems := rfl

@[simp] theorem updateObject_edgeOutbox (db : NamedLocalStoreDb) (k : String)
    (f : ObjectRow → ObjectRow) (hf : ∀ r, (f r).objId = r.objId) :
    (db.updateObject k f hf).edgeOutbox = db.edgeOutbox := rfl

theorem find?_updateObject (db : NamedLocalStoreDb) (k : String)
    (f : ObjectRow → ObjectRow) (hf : ∀ r, (f r).objId = r.objId) (k' : String) :
    (db.updateObject k f hf).objects.find? k' =
      if k' = k then (db.objects.find? k').map f else db.objects.find? k' :=
  Table.find?_updateKey db.objects k k' f hf

theorem find?_updateFsAnchorCountTx (db : NamedLocalStoreDb) (k : String) (f : Int → Int)
    (k' : String) :
    (db.updateFsAnchorCountTx k f).objects.find? k' =
      if k' = k then
        (db.objects.find? k').map fun r => { r with fsAnchorCount := f r.fsAnchorCount }
      else db.objects.find? k' := by
  unfold updateFsAnchorCountTx
  rw [find?_updateObject]

theorem find?_upsertShadowIfAbsentTx (db : NamedLocalStoreDb) (now : Nat) (k k' : String) :
    (db.upsertShadowIfAbsentTx now k).objects.find? k' =
      if k' = k then some ((db.objects.find? k').getD (shadowRow now k))
      else db.objects.find? k' :=
  Table.find?_insertOrIgnore db.objects (shadowRow now k) k'

theorem find?_fillShadowTx (db : NamedLocalStoreDb) (now : Nat)
    (k objType objStr : String) (logicalSize ownedBytes : Int) (k' : String) :
    (db.fillShadowTx now k objType objStr logicalSize ownedBytes).objects.find? k' =
      if k' = k then
        (db.objects.find? k').map (filledRow now objType objStr logicalSize ownedBytes)
      else db.objects.find? k' := by
  unfold fillShadowTx
  rw [find?_updateObject]

theorem find?_insertOrReplace_presentRow (db : NamedLocalStoreDb) (now : Nat)
    (k objType objStr : String) (logicalSize ownedBytes : Int) (k' : String) :
    (db.objects.insertOrReplace
      (presentRow now k objType objStr logicalSize ownedBytes)).find? k' =
      if k' = k then some (presentRow now k objType objStr logicalSize ownedBytes)
      else db.objects.find? k' :=
  Table.find?_insertOrReplace db.objects _ k'

/-- The columns that the children of an object are read from. -/
def contentColumns (r : ObjectRow) : String × String × ItemState :=
  (r.objType, r.objData, r.state)

/-- The children depend on the content of the row and on the chunk item. -/
theorem parseObjRefsTx_congr {crates : Crates} {db db' : NamedLocalStoreDb} (objId : ObjId)
    (hrow : (db'.objects.find? (objId.toString crates)).map contentColumns =
      (db.objects.find? (objId.toString crates)).map contentColumns)
    (hchunk : db'.chunkItems.find? (objId.toString crates) =
      db.chunkItems.find? (objId.toString crates)) :
    db'.parseObjRefsTx crates objId = db.parseObjRefsTx crates objId := by
  have hknown : ((db'.objects.find? (objId.toString crates)).filter
        fun row => row.state = .present).bind (knownChildren crates objId) =
      ((db.objects.find? (objId.toString crates)).filter
        fun row => row.state = .present).bind (knownChildren crates objId) := by
    revert hrow
    cases db'.objects.find? (objId.toString crates) <;>
      cases db.objects.find? (objId.toString crates) <;>
      simp only [Option.map_none, Option.map_some, reduceCtorEq, Option.some.injEq,
        Option.filter_none, Option.filter_some, forall_const, false_implies]
    intro hcolumns
    simp only [contentColumns, Prod.mk.injEq] at hcolumns
    obtain ⟨htype, hdata, hstate⟩ := hcolumns
    simp only [hstate]
    split_ifs
    · simp only [Option.bind_some, knownChildren, htype, hdata]
    · rfl
  unfold parseObjRefsTx sameAsTargetTx
  simp only [hknown, hchunk]

/-! ## States that agree on all facts -/

/-- Two states that differ in derived columns and in the outbox only. -/
structure SameFacts (db db' : NamedLocalStoreDb) : Prop where
  pins : db'.pins = db.pins
  fsAnchors : db'.fsAnchors = db.fsAnchors
  incomingRefs : db'.incomingRefs = db.incomingRefs
  chunkItems : db'.chunkItems = db.chunkItems
  rows : ∀ k, (db'.objects.find? k).map ObjectRow.core =
    (db.objects.find? k).map ObjectRow.core

namespace SameFacts

theorem refl (db : NamedLocalStoreDb) : SameFacts db db :=
  ⟨rfl, rfl, rfl, rfl, fun _ => rfl⟩

theorem trans {a b c : NamedLocalStoreDb} (hab : SameFacts a b) (hbc : SameFacts b c) :
    SameFacts a c where
  pins := hbc.pins.trans hab.pins
  fsAnchors := hbc.fsAnchors.trans hab.fsAnchors
  incomingRefs := hbc.incomingRefs.trans hab.incomingRefs
  chunkItems := hbc.chunkItems.trans hab.chunkItems
  rows := fun k => (hbc.rows k).trans (hab.rows k)

/-- Updating derived columns of one row keeps the facts. -/
theorem updateObject (db : NamedLocalStoreDb) (k : String) (f : ObjectRow → ObjectRow)
    (hf : ∀ r, (f r).objId = r.objId) (hcore : ∀ r, (f r).core = r.core) :
    SameFacts db (db.updateObject k f hf) where
  pins := rfl
  fsAnchors := rfl
  incomingRefs := rfl
  chunkItems := rfl
  rows := by
    intro k'
    rw [find?_updateObject]
    split_ifs with hk
    · rw [Option.map_map]
      congr 1
      funext r
      exact hcore r
    · rfl

variable {db db' : NamedLocalStoreDb}

/-- A row in one of the states has a row with the same facts in the other. -/
theorem find?_some (h : SameFacts db db') {k : String} {row' : ObjectRow}
    (hrow : db'.objects.find? k = some row') :
    ∃ row, db.objects.find? k = some row ∧ row'.core = row.core := by
  have hcore := h.rows k
  rw [hrow, Option.map_some] at hcore
  cases hold : db.objects.find? k with
  | none => simp [hold] at hcore
  | some row =>
      rw [hold, Option.map_some, Option.some.injEq] at hcore
      exact ⟨row, rfl, hcore⟩

theorem isSome_find? (h : SameFacts db db') (k : String) :
    (db'.objects.find? k).isSome = (db.objects.find? k).isSome := by
  have hcore := congrArg Option.isSome (h.rows k)
  simpa using hcore

theorem map_find? (h : SameFacts db db') {α : Type} (f : ObjectRow → α)
    (hf : ∀ r s : ObjectRow, r.core = s.core → f r = f s) (k : String) :
    (db'.objects.find? k).map f = (db.objects.find? k).map f := by
  cases hnew : db'.objects.find? k with
  | none =>
      have hsome := h.isSome_find? k
      rw [hnew] at hsome
      have hnone : db.objects.find? k = none := by simpa using hsome.symm
      rw [hnone]
  | some row' =>
      obtain ⟨row, hrow, hcore⟩ := h.find?_some hnew
      rw [hrow, Option.map_some, Option.map_some, hf row' row hcore]

theorem getFsAnchorCountTx (h : SameFacts db db') (k : String) :
    db'.getFsAnchorCountTx k = db.getFsAnchorCountTx k := by
  unfold NamedLocalStoreDb.getFsAnchorCountTx
  rw [h.map_find? ObjectRow.fsAnchorCount fun r s hrs => (ObjectRow.core_inj_on hrs).2.2.2.2.1]

theorem getItemStateTx (h : SameFacts db db') (k : String) :
    db'.getItemStateTx k = db.getItemStateTx k := by
  unfold NamedLocalStoreDb.getItemStateTx
  rw [h.map_find? ObjectRow.state fun r s hrs => (ObjectRow.core_inj_on hrs).2.2.2.1]

theorem hasActivePinTx (h : SameFacts db db') (now : Nat) (k : String) :
    db'.hasActivePinTx now k = db.hasActivePinTx now k := by
  unfold NamedLocalStoreDb.hasActivePinTx
  rw [h.pins]

theorem hasScopedPinTx (h : SameFacts db db') (scope : PinScope) (now : Nat)
    (k : String) : db'.hasScopedPinTx scope now k = db.hasScopedPinTx scope now k := by
  unfold NamedLocalStoreDb.hasScopedPinTx
  rw [h.pins]

theorem hasIncomingTx (h : SameFacts db db') (k : String) :
    db'.hasIncomingTx k = db.hasIncomingTx k := by
  unfold NamedLocalStoreDb.hasIncomingTx
  rw [h.incomingRefs]

theorem evictionClassTx (h : SameFacts db db') (now : Nat) (k : String) :
    db'.evictionClassTx now k = db.evictionClassTx now k := by
  unfold NamedLocalStoreDb.evictionClassTx
  rw [h.hasActivePinTx, h.hasIncomingTx, h.getFsAnchorCountTx]

theorem wantExpandedTx (h : SameFacts db db') (now : Nat) (k : String) :
    db'.wantExpandedTx now k = db.wantExpandedTx now k := by
  unfold NamedLocalStoreDb.wantExpandedTx hasSkeletonPinTx hasRecursivePinTx
  rw [h.hasScopedPinTx, h.hasScopedPinTx, h.hasIncomingTx, h.getFsAnchorCountTx,
    h.getItemStateTx]

/-- The children of an object are a fact. -/
theorem parseObjRefsTx (h : SameFacts db db') (crates : Crates) (objId : ObjId) :
    db'.parseObjRefsTx crates objId = db.parseObjRefsTx crates objId := by
  refine parseObjRefsTx_congr objId (h.map_find? contentColumns ?_ _) (by rw [h.chunkItems])
  intro r s hrs
  obtain ⟨-, htype, hdata, hstate, -, -⟩ := ObjectRow.core_inj_on hrs
  simp only [contentColumns, htype, hdata, hstate]

end SameFacts

/-! ## The refresh of one object -/

section Refresh

variable (crates : Crates) (db : NamedLocalStoreDb) (now : Nat)

theorem sameFacts_recomputeEvictionClassTx (k : String) :
    SameFacts db (db.recomputeEvictionClassTx now k) :=
  SameFacts.updateObject db k _ _ fun _ => rfl

/-- Enqueuing messages touches the outbox only. -/
theorem foldl_enqueueEdgeTx_eq (op : EdgeOp) (referrer : String) (referees : List String) :
    referees.foldl (enqueueEdgeTx now op referrer) db =
      { db with
        edgeOutbox := (referees.foldl (enqueueEdgeTx now op referrer) db).edgeOutbox } := by
  induction referees generalizing db with
  | nil => rfl
  | cons referee rest ih =>
      rw [List.foldl_cons, ih]
      rfl

theorem sameFacts_foldl_enqueueEdgeTx (op : EdgeOp) (referrer : String)
    (referees : List String) :
    SameFacts db (referees.foldl (enqueueEdgeTx now op referrer) db) := by
  rw [foldl_enqueueEdgeTx_eq]
  exact ⟨rfl, rfl, rfl, rfl, fun _ => rfl⟩

theorem sameFacts_setChildrenExpandedTx (objId : ObjId) (expanded : Bool) (op : EdgeOp) :
    SameFacts db (db.setChildrenExpandedTx crates now objId expanded op) := by
  refine (SameFacts.updateObject db (objId.toString crates)
    (fun r => { r with childrenExpanded := expanded }) (fun _ => rfl) fun _ => rfl).trans ?_
  exact sameFacts_foldl_enqueueEdgeTx _ now op _ _

theorem sameFacts_reconcileExpandStateTx (objId : ObjId) :
    SameFacts db (db.reconcileExpandStateTx crates now objId) := by
  unfold reconcileExpandStateTx
  simp only
  split_ifs
  · exact sameFacts_setChildrenExpandedTx crates db now objId _ _
  · exact sameFacts_setChildrenExpandedTx crates db now objId _ _
  · exact SameFacts.refl db

theorem sameFacts_refreshTx (objId : ObjId) :
    SameFacts db (db.refreshTx crates now objId) :=
  (sameFacts_recomputeEvictionClassTx db now _).trans
    (sameFacts_reconcileExpandStateTx crates _ now objId)

theorem sameFacts_refreshTextTx (oidStr : String) :
    SameFacts db (db.refreshTextTx crates now oidStr) := by
  unfold refreshTextTx
  split
  · next oid _ =>
    exact (sameFacts_recomputeEvictionClassTx db now oidStr).trans
      (sameFacts_reconcileExpandStateTx crates _ now oid)
  · exact sameFacts_recomputeEvictionClassTx db now oidStr

theorem sameFacts_foldl_refreshTextTx (oidStrs : List String) :
    SameFacts db (oidStrs.foldl (refreshTextTx crates now) db) := by
  induction oidStrs generalizing db with
  | nil => exact SameFacts.refl db
  | cons oidStr rest ih =>
      rw [List.foldl_cons]
      exact (sameFacts_refreshTextTx crates db now oidStr).trans (ih _)

theorem find?_recomputeEvictionClassTx (k k' : String) :
    (db.recomputeEvictionClassTx now k).objects.find? k' =
      if k' = k then
        (db.objects.find? k').map
          fun r => { r with evictionClass := db.evictionClassTx now k }
      else db.objects.find? k' := by
  unfold recomputeEvictionClassTx
  rw [find?_updateObject]

theorem find?_setChildrenExpandedTx (objId : ObjId) (expanded : Bool) (op : EdgeOp)
    (k' : String) :
    (db.setChildrenExpandedTx crates now objId expanded op).objects.find? k' =
      if k' = objId.toString crates then
        (db.objects.find? k').map fun r => { r with childrenExpanded := expanded }
      else db.objects.find? k' := by
  unfold setChildrenExpandedTx
  simp only
  rw [foldl_enqueueEdgeTx_eq]
  simp only
  rw [find?_updateObject]

/-- Reconciling makes the flag of the row what the facts ask for, and touches no
other row. -/
theorem find?_reconcileExpandStateTx (objId : ObjId) (k' : String) :
    (db.reconcileExpandStateTx crates now objId).objects.find? k' =
      if k' = objId.toString crates then
        (db.objects.find? k').map
          fun r => { r with childrenExpanded := db.wantExpandedTx now k' }
      else db.objects.find? k' := by
  by_cases hk : k' = objId.toString crates
  · subst hk
    unfold reconcileExpandStateTx
    simp only
    cases hrow : db.objects.find? (objId.toString crates) with
    | none =>
        have hhave : db.getChildrenExpandedTx (objId.toString crates) = false := by
          simp [getChildrenExpandedTx, hrow]
        have hwant : db.wantExpandedTx now (objId.toString crates) = false := by
          simp [wantExpandedTx, getItemStateTx, hrow]
        simp [hhave, hwant, hrow]
    | some row =>
        have hhave : db.getChildrenExpandedTx (objId.toString crates) =
            row.childrenExpanded := by
          simp [getChildrenExpandedTx, hrow]
        rw [hhave, if_pos trivial, Option.map_some]
        cases hwant : db.wantExpandedTx now (objId.toString crates) with
        | false =>
            cases hexp : row.childrenExpanded with
            | false =>
                have hsame : { row with childrenExpanded := false } = row := by rw [← hexp]
                rw [hsame]
                simpa using hrow
            | true => simp [find?_setChildrenExpandedTx, hrow]
        | true =>
            cases hexp : row.childrenExpanded with
            | false => simp [find?_setChildrenExpandedTx, hrow]
            | true =>
                have hsame : { row with childrenExpanded := true } = row := by rw [← hexp]
                rw [hsame]
                simpa using hrow
  · rw [if_neg hk]
    unfold reconcileExpandStateTx
    simp only
    split_ifs
    · rw [find?_setChildrenExpandedTx, if_neg hk]
    · rw [find?_setChildrenExpandedTx, if_neg hk]
    · rfl

/-- A refresh makes both derived columns what the facts say. -/
theorem find?_refreshTx (objId : ObjId) (k' : String) :
    (db.refreshTx crates now objId).objects.find? k' =
      if k' = objId.toString crates then
        (db.objects.find? k').map fun r =>
          { r with
            evictionClass := db.evictionClassTx now k'
            childrenExpanded := db.wantExpandedTx now k' }
      else db.objects.find? k' := by
  unfold refreshTx
  rw [find?_reconcileExpandStateTx, find?_recomputeEvictionClassTx]
  by_cases hk : k' = objId.toString crates
  · subst hk
    simp only [if_true, Option.map_map,
      (sameFacts_recomputeEvictionClassTx db now _).wantExpandedTx]
    rfl
  · simp [hk]

/-- The loops over texts refresh the listed rows and no other, when every text
is the `to_string` of what it parses to. -/
theorem find?_foldl_refreshTextTx (oidStrs : List String)
    (hcanonical : ∀ k ∈ oidStrs, CanonicalKey crates k) (k' : String) :
    (oidStrs.foldl (refreshTextTx crates now) db).objects.find? k' =
      if k' ∈ oidStrs then
        (db.objects.find? k').map fun r =>
          { r with
            evictionClass := db.evictionClassTx now k'
            childrenExpanded := db.wantExpandedTx now k' }
      else db.objects.find? k' := by
  induction oidStrs generalizing db with
  | nil => rfl
  | cons oidStr rest ih =>
      obtain ⟨oid, hnew, htext⟩ := hcanonical oidStr (by simp)
      have hstep : db.refreshTextTx crates now oidStr = db.refreshTx crates now oid := by
        simp only [refreshTextTx, hnew, refreshTx, htext]
      have hfacts := sameFacts_refreshTx crates db now oid
      rw [List.foldl_cons, hstep, ih _ fun k hk => hcanonical k (by simp [hk]),
        find?_refreshTx, htext, hfacts.evictionClassTx, hfacts.wantExpandedTx]
      by_cases hk : k' = oidStr
      · subst hk
        rw [if_pos rfl, if_pos (List.mem_cons_self)]
        split_ifs
        · rw [Option.map_map]
          rfl
        · rfl
      · rw [if_neg hk]
        simp [hk]

end Refresh

/-! ## States that agree at one key -/

/-- Two states that agree on everything about one key, access times aside. -/
structure SameAt (db db' : NamedLocalStoreDb) (k : String) : Prop where
  row : (db'.objects.find? k).map ObjectRow.untimed = (db.objects.find? k).map ObjectRow.untimed
  pins : ∀ p : PinRow, p.objId = k → (p ∈ db'.pins.rows ↔ p ∈ db.pins.rows)
  anchors : ∀ a : FsAnchorRow, a.objId = k → (a ∈ db'.fsAnchors.rows ↔ a ∈ db.fsAnchors.rows)
  incoming : ∀ r : IncomingRefRow, r.referee = k →
    (r ∈ db'.incomingRefs.rows ↔ r ∈ db.incomingRefs.rows)

namespace SameAt

theorem trans {a b c : NamedLocalStoreDb} {k : String} (hab : SameAt a b k)
    (hbc : SameAt b c k) : SameAt a c k where
  row := hbc.row.trans hab.row
  pins := fun p hp => (hbc.pins p hp).trans (hab.pins p hp)
  anchors := fun x hx => (hbc.anchors x hx).trans (hab.anchors x hx)
  incoming := fun r hr => (hbc.incoming r hr).trans (hab.incoming r hr)

/-- Agreement on all facts and on the row of a key. -/
theorem of_sameFacts {db db' : NamedLocalStoreDb} {k : String} (h : SameFacts db db')
    (hrow : db'.objects.find? k = db.objects.find? k) : SameAt db db' k where
  row := by rw [hrow]
  pins := fun p _ => by rw [h.pins]
  anchors := fun a _ => by rw [h.fsAnchors]
  incoming := fun r _ => by rw [h.incomingRefs]

theorem touchLastAccessTx (db : NamedLocalStoreDb) (k k' : String) (ts : Nat) :
    SameAt db (db.touchLastAccessTx k ts) k' where
  row := by
    unfold NamedLocalStoreDb.touchLastAccessTx
    rw [find?_updateObject]
    split_ifs
    · rw [Option.map_map]
      rfl
    · rfl
  pins := fun _ _ => Iff.rfl
  anchors := fun _ _ => Iff.rfl
  incoming := fun _ _ => Iff.rfl

theorem refl (db : NamedLocalStoreDb) (k : String) : SameAt db db k :=
  ⟨rfl, fun _ _ => Iff.rfl, fun _ _ => Iff.rfl, fun _ _ => Iff.rfl⟩

theorem batchTouchLastAccessWithMax (db : NamedLocalStoreDb) (items : List (String × Nat))
    (k : String) : SameAt db (db.batchTouchLastAccessWithMax items) k := by
  unfold NamedLocalStoreDb.batchTouchLastAccessWithMax
  induction items generalizing db with
  | nil => exact SameAt.refl db k
  | cons item rest ih => exact (SameAt.touchLastAccessTx db item.1 k item.2).trans (ih _)

variable {db db' : NamedLocalStoreDb} {k : String}

theorem find?_some (h : SameAt db db' k) {row' : ObjectRow}
    (hrow : db'.objects.find? k = some row') :
    ∃ row, db.objects.find? k = some row ∧ row'.untimed = row.untimed := by
  have huntimed := h.row
  rw [hrow, Option.map_some] at huntimed
  cases hold : db.objects.find? k with
  | none => simp [hold] at huntimed
  | some row =>
      rw [hold, Option.map_some, Option.some.injEq] at huntimed
      exact ⟨row, rfl, huntimed⟩

theorem map_find? (h : SameAt db db' k) {α : Type} (f : ObjectRow → α)
    (hf : ∀ r, f r.untimed = f r) :
    (db'.objects.find? k).map f = (db.objects.find? k).map f := by
  have hcongr := congrArg (Option.map f) h.row
  simpa [Option.map_map, Function.comp_def, hf] using hcongr

theorem hasPin_iff (h : SameAt db db' k) : db'.HasPin k ↔ db.HasPin k := by
  unfold HasPin
  constructor
  · rintro ⟨p, hp, hk⟩
    exact ⟨p, (h.pins p hk).mp hp, hk⟩
  · rintro ⟨p, hp, hk⟩
    exact ⟨p, (h.pins p hk).mpr hp, hk⟩

theorem hasFsAnchor_iff (h : SameAt db db' k) : db'.HasFsAnchor k ↔ db.HasFsAnchor k := by
  unfold HasFsAnchor
  constructor
  · rintro ⟨a, ha, hk⟩
    exact ⟨a, (h.anchors a hk).mp ha, hk⟩
  · rintro ⟨a, ha, hk⟩
    exact ⟨a, (h.anchors a hk).mpr ha, hk⟩

theorem hasIncoming_iff (h : SameAt db db' k) : db'.HasIncoming k ↔ db.HasIncoming k := by
  unfold HasIncoming
  constructor
  · rintro ⟨r, hr, hk⟩
    exact ⟨r, (h.incoming r hk).mp hr, hk⟩
  · rintro ⟨r, hr, hk⟩
    exact ⟨r, (h.incoming r hk).mpr hr, hk⟩

theorem hasActivePinTx (h : SameAt db db' k) (now : Nat) :
    db'.hasActivePinTx now k = db.hasActivePinTx now k := by
  rw [Bool.eq_iff_iff, hasActivePinTx_iff, hasActivePinTx_iff]
  unfold HasActivePin
  constructor
  · rintro ⟨p, hp, hk, hactive⟩
    exact ⟨p, (h.pins p hk).mp hp, hk, hactive⟩
  · rintro ⟨p, hp, hk, hactive⟩
    exact ⟨p, (h.pins p hk).mpr hp, hk, hactive⟩

theorem hasScopedPinTx (h : SameAt db db' k) (scope : PinScope) (now : Nat) :
    db'.hasScopedPinTx scope now k = db.hasScopedPinTx scope now k := by
  rw [Bool.eq_iff_iff, hasScopedPinTx_iff, hasScopedPinTx_iff]
  constructor
  · rintro ⟨p, hp, hk, hrest⟩
    exact ⟨p, (h.pins p hk).mp hp, hk, hrest⟩
  · rintro ⟨p, hp, hk, hrest⟩
    exact ⟨p, (h.pins p hk).mpr hp, hk, hrest⟩

theorem hasIncomingTx (h : SameAt db db' k) : db'.hasIncomingTx k = db.hasIncomingTx k := by
  rw [Bool.eq_iff_iff, hasIncomingTx_iff, hasIncomingTx_iff, h.hasIncoming_iff]

theorem getFsAnchorCountTx (h : SameAt db db' k) :
    db'.getFsAnchorCountTx k = db.getFsAnchorCountTx k := by
  unfold NamedLocalStoreDb.getFsAnchorCountTx
  rw [h.map_find? ObjectRow.fsAnchorCount fun _ => rfl]

theorem getItemStateTx (h : SameAt db db' k) :
    db'.getItemStateTx k = db.getItemStateTx k :=
  h.map_find? ObjectRow.state fun _ => rfl

theorem evictionClassTx (h : SameAt db db' k) (now : Nat) :
    db'.evictionClassTx now k = db.evictionClassTx now k := by
  unfold NamedLocalStoreDb.evictionClassTx
  rw [h.hasActivePinTx, h.hasIncomingTx, h.getFsAnchorCountTx]

theorem wantExpandedTx (h : SameAt db db' k) (now : Nat) :
    db'.wantExpandedTx now k = db.wantExpandedTx now k := by
  unfold NamedLocalStoreDb.wantExpandedTx hasSkeletonPinTx hasRecursivePinTx
  rw [h.hasScopedPinTx, h.hasScopedPinTx, h.hasIncomingTx, h.getFsAnchorCountTx,
    h.getItemStateTx]

end SameAt

/-! ## The keys that an operation leaves alone -/

section Frames

variable (db : NamedLocalStoreDb) (now : Nat) {k k' : String}

/-- Inserting, replacing or deleting the row of one key, with no other table
changed. -/
theorem sameAt_objects {db db' : NamedLocalStoreDb} {k' : String}
    (hrow : db'.objects.find? k' = db.objects.find? k') (hpins : db'.pins = db.pins)
    (hanchors : db'.fsAnchors = db.fsAnchors)
    (hincoming : db'.incomingRefs = db.incomingRefs) : SameAt db db' k' where
  row := by rw [hrow]
  pins := fun p _ => by rw [hpins]
  anchors := fun a _ => by rw [hanchors]
  incoming := fun r _ => by rw [hincoming]

theorem sameAt_upsertShadowIfAbsentTx (hk : k' ≠ k) :
    SameAt db (db.upsertShadowIfAbsentTx now k) k' :=
  sameAt_objects (by rw [find?_upsertShadowIfAbsentTx, if_neg hk]) rfl rfl rfl

theorem mem_insertPinTx {owner : String} {scope : PinScope} {ttl : Option Nat} {p : PinRow} :
    p ∈ (db.insertPinTx now k owner scope ttl).pins.rows ↔
      p = db.pins.upserted ((db.upsertShadowIfAbsentTx now k).newPinRow now k owner scope ttl)
          (repinnedRow ((db.upsertShadowIfAbsentTx now k).newPinRow now k owner scope ttl)) ∨
        p ∈ db.pins.rows ∧ p.key ≠ (k, owner) :=
  Table.mem_upsert

theorem sameAt_insertPinTx (owner : String) (scope : PinScope) (ttl : Option Nat)
    (hk : k' ≠ k) : SameAt db (db.insertPinTx now k owner scope ttl) k' := by
  refine (sameAt_upsertShadowIfAbsentTx db now hk).trans ⟨rfl, ?_, fun _ _ => Iff.rfl,
    fun _ _ => Iff.rfl⟩
  intro p hp
  rw [mem_insertPinTx]
  have hkey := Table.key_upserted db.pins
    ((db.upsertShadowIfAbsentTx now k).newPinRow now k owner scope ttl) _
    (repinnedRow_key ((db.upsertShadowIfAbsentTx now k).newPinRow now k owner scope ttl))
  constructor
  · rintro (rfl | ⟨hmem, -⟩)
    · exact absurd (hp.symm.trans (congrArg Prod.fst hkey)) hk
    · exact hmem
  · intro hmem
    refine Or.inr ⟨hmem, ?_⟩
    intro heq
    exact hk (hp.symm.trans (congrArg Prod.fst heq))

theorem mem_deleteKey_pins {owner : String} {p : PinRow} :
    p ∈ (db.pins.deleteKey (k, owner)).rows ↔ p ∈ db.pins.rows ∧ p.key ≠ (k, owner) := by
  rw [Table.deleteKey, Table.mem_deleteWhere, decide_eq_false_iff_not]

theorem sameAt_deleteKey_pins (owner : String) (hk : k' ≠ k) :
    SameAt db { db with pins := db.pins.deleteKey (k, owner) } k' := by
  refine ⟨rfl, ?_, fun _ _ => Iff.rfl, fun _ _ => Iff.rfl⟩
  intro p hp
  show p ∈ (db.pins.deleteKey (k, owner)).rows ↔ _
  rw [mem_deleteKey_pins]
  refine and_iff_left_of_imp fun _ heq => ?_
  exact hk (hp.symm.trans (congrArg Prod.fst heq))

/-- A deletion of pins leaves a key alone when no pin of it is deleted. -/
theorem sameAt_deleteWhere_pins (p : PinRow → Bool)
    (hk : ∀ q ∈ db.pins.rows, p q = true → q.objId ≠ k') :
    SameAt db { db with pins := db.pins.deleteWhere p } k' := by
  refine ⟨rfl, ?_, fun _ _ => Iff.rfl, fun _ _ => Iff.rfl⟩
  intro q hq
  show q ∈ (db.pins.deleteWhere p).rows ↔ _
  rw [Table.mem_deleteWhere]
  refine and_iff_left_of_imp fun hmem => ?_
  by_contra hdeleted
  rw [Bool.not_eq_false] at hdeleted
  exact hk q hmem hdeleted hq

theorem sameAt_updateFsAnchorCountTx (f : Int → Int) (hk : k' ≠ k) :
    SameAt db (db.updateFsAnchorCountTx k f) k' :=
  sameAt_objects (by rw [find?_updateFsAnchorCountTx, if_neg hk]) rfl rfl rfl

theorem sameAt_acquireAnchorTx (inodeId : UInt64) (fieldTag : UInt32) (hk : k' ≠ k) :
    SameAt db (db.acquireAnchorTx now k inodeId fieldTag) k' := by
  unfold acquireAnchorTx
  simp only
  have hshadowed := sameAt_upsertShadowIfAbsentTx db now hk
  generalize db.upsertShadowIfAbsentTx now k = shadowed at hshadowed ⊢
  have hobjId : (shadowed.newFsAnchorRow now k inodeId fieldTag).objId = k := rfl
  generalize shadowed.newFsAnchorRow now k inodeId fieldTag = anchor at hobjId ⊢
  have hanchored : SameAt db
      { shadowed with fsAnchors := shadowed.fsAnchors.insertOrIgnore anchor } k' := by
    refine hshadowed.trans ⟨rfl, fun _ _ => Iff.rfl, ?_, fun _ _ => Iff.rfl⟩
    intro a ha
    show a ∈ (shadowed.fsAnchors.insertOrIgnore anchor).rows ↔ _
    rw [Table.mem_insertOrIgnore]
    refine or_iff_left_of_imp ?_
    rintro ⟨rfl, -⟩
    exact absurd (ha.symm.trans hobjId) hk
  split_ifs
  · exact hanchored.trans (sameAt_updateFsAnchorCountTx _ _ hk)
  · exact hanchored

theorem sameAt_releaseAnchorTx (inodeId : UInt64) (fieldTag : UInt32) (hk : k' ≠ k) :
    SameAt db (db.releaseAnchorTx k inodeId fieldTag) k' := by
  unfold releaseAnchorTx
  simp only
  have hreleased : SameAt db
      { db with fsAnchors := db.fsAnchors.deleteKey (k, inodeId, fieldTag) } k' := by
    refine ⟨rfl, fun _ _ => Iff.rfl, ?_, fun _ _ => Iff.rfl⟩
    intro a ha
    show a ∈ (db.fsAnchors.deleteKey (k, inodeId, fieldTag)).rows ↔ _
    rw [Table.deleteKey, Table.mem_deleteWhere, decide_eq_false_iff_not]
    refine and_iff_left_of_imp fun _ heq => ?_
    exact hk (ha.symm.trans (congrArg Prod.fst heq))
  split_ifs
  · exact hreleased.trans (sameAt_updateFsAnchorCountTx _ _ hk)
  · exact hreleased

theorem sameAt_applyEdgeRefTx (op : EdgeOp) (referrer : String) (epoch : Nat)
    (hk : k' ≠ k) : SameAt db (db.applyEdgeRefTx now op k referrer epoch) k' := by
  refine (sameAt_upsertShadowIfAbsentTx db now hk).trans ?_
  cases op with
  | add =>
      refine ⟨rfl, fun _ _ => Iff.rfl, fun _ _ => Iff.rfl, ?_⟩
      intro r hr
      show r ∈ (Table.insertOrIgnore _ _).rows ↔ _
      rw [Table.mem_insertOrIgnore]
      refine or_iff_left_of_imp ?_
      rintro ⟨rfl, -⟩
      exact absurd hr.symm hk
  | remove =>
      refine ⟨rfl, fun _ _ => Iff.rfl, fun _ _ => Iff.rfl, ?_⟩
      intro r hr
      show r ∈ (Table.deleteKey _ _).rows ↔ _
      rw [Table.deleteKey, Table.mem_deleteWhere, decide_eq_false_iff_not]
      refine and_iff_left_of_imp fun _ heq => ?_
      exact hk (hr.symm.trans (congrArg Prod.fst heq))

theorem mem_promote_pins {p : PinRow} :
    p ∈ (db.promoteAnchorCascadeStateOnPresentTx k).pins.rows ↔
      ∃ q ∈ db.pins.rows,
        (if q.objId = k ∧ q.scope = .recursive ∧ q.cascadeState = .pending then
          { q with cascadeState := .materializing } else q) = p := by
  unfold promoteAnchorCascadeStateOnPresentTx
  simp only
  rw [Table.mem_updateWhere]
  simp [and_assoc]

theorem mem_promote_fsAnchors {a : FsAnchorRow} :
    a ∈ (db.promoteAnchorCascadeStateOnPresentTx k).fsAnchors.rows ↔
      ∃ b ∈ db.fsAnchors.rows,
        (if b.objId = k ∧ b.cascadeState = .pending then
          { b with cascadeState := .materializing } else b) = a := by
  unfold promoteAnchorCascadeStateOnPresentTx
  simp only
  rw [Table.mem_updateWhere]
  simp

/-- Filling a shadow and promoting its anchors. -/
theorem sameAt_fillShadowTx (objType objStr : String) (logicalSize ownedBytes : Int)
    (hk : k' ≠ k) :
    SameAt db ((db.fillShadowTx now k objType objStr logicalSize
      ownedBytes).promoteAnchorCascadeStateOnPresentTx k) k' where
  row := by
    show ((db.fillShadowTx now k objType objStr logicalSize ownedBytes).objects.find?
      k').map _ = _
    rw [find?_fillShadowTx, if_neg hk]
  pins := by
    intro p hp
    rw [mem_promote_pins]
    constructor
    · rintro ⟨q, hq, hqp⟩
      split_ifs at hqp with hclause
      · rw [← hqp] at hp
        exact absurd (hp.symm.trans hclause.1) hk
      · rw [← hqp]
        exact hq
    · intro hmem
      have hne : p.objId ≠ k := fun heq => hk (hp.symm.trans heq)
      exact ⟨p, hmem, by simp [hne]⟩
  anchors := by
    intro a ha
    rw [mem_promote_fsAnchors]
    constructor
    · rintro ⟨b, hb, hba⟩
      split_ifs at hba with hclause
      · rw [← hba] at ha
        exact absurd (ha.symm.trans hclause.1) hk
      · rw [← hba]
        exact hb
    · intro hmem
      have hne : a.objId ≠ k := fun heq => hk (ha.symm.trans heq)
      exact ⟨a, hmem, by simp [hne]⟩
  incoming := fun _ _ => Iff.rfl

theorem sameAt_insertOrReplace_presentRow (objType objStr : String)
    (logicalSize ownedBytes : Int) (hk : k' ≠ k) :
    SameAt db
      { db with
        objects := db.objects.insertOrReplace
          (presentRow now k objType objStr logicalSize ownedBytes) } k' :=
  sameAt_objects (by
    show Table.find? _ _ = _
    rw [find?_insertOrReplace_presentRow, if_neg hk]) rfl rfl rfl

end Frames

/-- A put of an object leaves the rows of chunks alone. -/
theorem setObject_chunkItems (crates : Crates) (db : NamedLocalStoreDb) (now : Nat)
    (objId : ObjId) (objType objStr : String) :
    (db.setObject crates now objId objType objStr).chunkItems = db.chunkItems := by
  unfold setObject putObjectInTx
  dsimp only
  split
  · rfl
  · exact (sameFacts_refreshTx crates _ now objId).chunkItems
  · rfl

end NamedLocalStoreDb

end NamedStore
end CyfsNdn

import CyfsNdn.NamedStore.GcInvariant
import CyfsNdn.Transition.Replay

/-!
# Pending edge messages

When an object starts or stops to be expanded, one message for each of its
children goes to `edge_outbox`, and delivering it writes `incoming_refs`.
Between the two, the references that an object holds are spread over both
tables.  `settledRefs` is what `incoming_refs` becomes once the outbox has been
applied in order, and the invariant `EdgeInv` says that it is exactly the set of
pairs of a child and an expanded parent.

The statement about a parent is needed for canonical keys only: a message whose
referrer does not parse is never delivered.
-/

namespace CyfsNdn
namespace NamedStore

open NdnLib Relational Transition

namespace NamedLocalStoreDb

/-- The write that a message makes when it is delivered. -/
def edgeWrite (row : OutboxRow) : (String × String) × Bool :=
  ((row.referee, row.referrer), decide (row.op = .add))

/-- The pending messages, oldest first. -/
def edgeLog (db : NamedLocalStoreDb) : List ((String × String) × Bool) :=
  db.edgeOutbox.rows.map edgeWrite

/-- Whether `incoming_refs` has the row of a pair. -/
def hasRef (db : NamedLocalStoreDb) (pair : String × String) : Bool :=
  (db.incomingRefs.find? pair).isSome

/-- The references once the outbox has been applied in order. -/
def settledRefs (db : NamedLocalStoreDb) : String × String → Bool :=
  replay db.hasRef db.edgeLog

/-- The children of the object with a given key. -/
def childTexts (crates : Crates) (db : NamedLocalStoreDb) (x : String) : List String :=
  match ObjId.new crates x with
  | .ok objId => (db.parseObjRefsTx crates objId).map (·.toString crates)
  | .error _ => []

/-- The row of `x` is expanded and `c` is one of its children. -/
def ExpandedChild (crates : Crates) (db : NamedLocalStoreDb) (x c : String) : Prop :=
  ∃ row, db.objects.find? x = some row ∧ row.childrenExpanded = true ∧
    c ∈ db.childTexts crates x

/-- The invariant of the pending messages. -/
structure EdgeInv (crates : Crates) (db : NamedLocalStoreDb) : Prop where
  edges : ∀ x c, CanonicalKey crates x →
    (db.settledRefs (c, x) = true ↔ ExpandedChild crates db x c)
  expandedPresent : ∀ x row, db.objects.find? x = some row →
    row.childrenExpanded = true → row.state = .present
  referrers : ∀ r ∈ db.incomingRefs.rows, CanonicalKey crates r.referrer
  texts : ∀ row ∈ db.edgeOutbox.rows,
    (∃ id : ObjId, row.referee = id.toString crates) ∧
      ∃ id : ObjId, row.referrer = id.toString crates

theorem hasRef_iff {db : NamedLocalStoreDb} {c x : String} :
    db.hasRef (c, x) = true ↔
      ∃ r ∈ db.incomingRefs.rows, r.referee = c ∧ r.referrer = x := by
  unfold hasRef
  rw [Option.isSome_iff_exists]
  constructor
  · rintro ⟨r, hr⟩
    obtain ⟨hmem, hkey⟩ := Table.find?_eq_some_iff.mp hr
    exact ⟨r, hmem, congrArg Prod.fst hkey, congrArg Prod.snd hkey⟩
  · rintro ⟨r, hmem, rfl, rfl⟩
    exact ⟨r, Table.find?_key_of_mem hmem⟩

theorem edgeInv_empty (crates : Crates) : EdgeInv crates empty := by
  constructor
  · intro x c _
    constructor
    · intro hsettled
      cases hsettled
    · rintro ⟨row, hrow, -⟩
      cases hrow
  · intro x row hrow
    cases hrow
  · intro r hr
    exact absurd hr List.not_mem_nil
  · intro row hrow
    exact absurd hrow List.not_mem_nil

/-- Once the outbox is empty, the references are the expanded children. -/
theorem EdgeInv.hasRef_iff_of_drained {crates : Crates} {db : NamedLocalStoreDb}
    (h : EdgeInv crates db) (hdrained : db.edgeOutbox.rows = []) {x : String}
    (hx : CanonicalKey crates x) (c : String) :
    db.hasRef (c, x) = true ↔ ExpandedChild crates db x c := by
  have hsettled : db.settledRefs = db.hasRef := by
    unfold settledRefs edgeLog
    rw [hdrained]
    rfl
  rw [← h.edges x c hx, hsettled]

/-! ## Changes that messages do not see -/

section Frames

variable {crates : Crates} {db db' : NamedLocalStoreDb}

/-- The columns that decide the expanded children of a row. -/
def expandColumns (r : ObjectRow) : (String × String × ItemState) × Bool :=
  (contentColumns r, r.childrenExpanded)

theorem childTexts_congr {x : String} (hx : CanonicalKey crates x)
    (hrow : (db'.objects.find? x).map contentColumns =
      (db.objects.find? x).map contentColumns)
    (hchunk : db'.chunkItems.find? x = db.chunkItems.find? x) :
    db'.childTexts crates x = db.childTexts crates x := by
  obtain ⟨objId, hnew, rfl⟩ := hx
  unfold childTexts
  rw [hnew]
  simp only
  rw [parseObjRefsTx_congr objId hrow hchunk]

theorem expandedChild_congr {x : String} (hx : CanonicalKey crates x)
    (hrow : (db'.objects.find? x).map expandColumns = (db.objects.find? x).map expandColumns)
    (hchunk : db'.chunkItems.find? x = db.chunkItems.find? x) (c : String) :
    ExpandedChild crates db' x c ↔ ExpandedChild crates db x c := by
  have hcontent := congrArg (Option.map Prod.fst) hrow
  rw [Option.map_map, Option.map_map] at hcontent
  unfold ExpandedChild
  rw [childTexts_congr hx hcontent hchunk]
  cases hold : db.objects.find? x with
  | none =>
      rw [hold, Option.map_none, Option.map_eq_none_iff] at hrow
      simp [hrow]
  | some row =>
      rw [hold, Option.map_some, Option.map_eq_some_iff] at hrow
      obtain ⟨row', hnew, hcolumns⟩ := hrow
      have hflag : row'.childrenExpanded = row.childrenExpanded := congrArg Prod.snd hcolumns
      simp [hnew, hflag]

/-- A row that is not expanded has no expanded child. -/
theorem not_expandedChild {x c : String}
    (h : ∀ row, db.objects.find? x = some row → row.childrenExpanded = false) :
    ¬ ExpandedChild crates db x c := by
  rintro ⟨row, hrow, hexpanded, -⟩
  rw [h row hrow] at hexpanded
  cases hexpanded

/-- The tables that the messages live in are untouched, and every row either
keeps its content or is unexpanded before and after. -/
theorem EdgeInv.congr (h : EdgeInv crates db)
    (houtbox : db'.edgeOutbox = db.edgeOutbox)
    (hincoming : db'.incomingRefs = db.incomingRefs)
    (hrows : ∀ x,
      ((db'.objects.find? x).map expandColumns = (db.objects.find? x).map expandColumns ∧
        db'.chunkItems.find? x = db.chunkItems.find? x) ∨
      (∀ row, db'.objects.find? x = some row → row.childrenExpanded = false) ∧
        ∀ row, db.objects.find? x = some row → row.childrenExpanded = false) :
    EdgeInv crates db' where
  edges := by
    intro x c hx
    have hsettled : db'.settledRefs = db.settledRefs := by
      unfold settledRefs hasRef edgeLog
      rw [houtbox, hincoming]
    rw [hsettled, h.edges x c hx]
    rcases hrows x with ⟨hrow, hchunk⟩ | ⟨hnew, hold⟩
    · rw [expandedChild_congr hx hrow hchunk]
    · exact iff_of_false (not_expandedChild hold) (not_expandedChild hnew)
  expandedPresent := by
    intro x row hrow hexpanded
    rcases hrows x with ⟨hcolumns, -⟩ | ⟨hnew, -⟩
    · rw [hrow, Option.map_some, eq_comm, Option.map_eq_some_iff] at hcolumns
      obtain ⟨old, hold, hcolumns⟩ := hcolumns
      simp only [expandColumns, contentColumns, Prod.mk.injEq] at hcolumns
      rw [← hcolumns.1.2.2]
      exact h.expandedPresent x old hold (hcolumns.2.trans hexpanded)
    · rw [hnew row hrow] at hexpanded
      cases hexpanded
  referrers := by
    rw [hincoming]
    exact h.referrers
  texts := by
    rw [houtbox]
    exact h.texts

/-- The `objects` and `chunk_items` tables are untouched too. -/
theorem EdgeInv.congr_objects (h : EdgeInv crates db)
    (houtbox : db'.edgeOutbox = db.edgeOutbox)
    (hincoming : db'.incomingRefs = db.incomingRefs) (hobjects : db'.objects = db.objects)
    (hchunks : db'.chunkItems = db.chunkItems) : EdgeInv crates db' := by
  refine h.congr houtbox hincoming fun x => Or.inl ⟨?_, ?_⟩
  · rw [hobjects]
  · rw [hchunks]

/-- One row is updated without touching its content. -/
theorem EdgeInv.updateObject (h : EdgeInv crates db) (k : String)
    (f : ObjectRow → ObjectRow) (hf : ∀ r, (f r).objId = r.objId)
    (hcolumns : ∀ r, expandColumns (f r) = expandColumns r) :
    EdgeInv crates (db.updateObject k f hf) := by
  refine h.congr rfl rfl fun x => Or.inl ⟨?_, rfl⟩
  rw [find?_updateObject]
  split_ifs
  · rw [Option.map_map]
    congr 1
    funext r
    exact hcolumns r
  · rfl

theorem EdgeInv.upsertShadowIfAbsentTx (h : EdgeInv crates db)
    (now : Nat) (k : String) : EdgeInv crates (db.upsertShadowIfAbsentTx now k) := by
  refine h.congr rfl rfl fun x => ?_
  have hfind := find?_upsertShadowIfAbsentTx db now k x
  cases hold : db.objects.find? x with
  | none =>
      refine Or.inr ⟨?_, by simp⟩
      intro row hrow
      rw [hfind] at hrow
      split_ifs at hrow
      · rw [hold, Option.getD_none, Option.some.injEq] at hrow
        rw [← hrow]
        rfl
      · rw [hold] at hrow
        cases hrow
  | some row =>
      refine Or.inl ⟨?_, rfl⟩
      rw [hfind, hold]
      split_ifs <;> rfl

end Frames

/-! ## Messages that are added -/

section Enqueue

variable {crates : Crates} {db : NamedLocalStoreDb}

theorem edgeLog_foldl_enqueueEdgeTx (db : NamedLocalStoreDb) (now : Nat) (op : EdgeOp)
    (referrer : String) (referees : List String) :
    (referees.foldl (enqueueEdgeTx now op referrer) db).edgeLog =
      db.edgeLog ++ referees.map fun c => ((c, referrer), decide (op = .add)) := by
  induction referees generalizing db with
  | nil => simp
  | cons referee rest ih =>
      rw [List.foldl_cons, ih]
      simp [edgeLog, enqueueEdgeTx, edgeWrite]

theorem mem_foldl_enqueueEdgeTx {now : Nat} {op : EdgeOp} {referrer : String}
    {referees : List String} {row : OutboxRow}
    (h : row ∈ (referees.foldl (enqueueEdgeTx now op referrer) db).edgeOutbox.rows) :
    row ∈ db.edgeOutbox.rows ∨ row.referee ∈ referees ∧ row.referrer = referrer := by
  induction referees generalizing db with
  | nil => exact Or.inl h
  | cons referee rest ih =>
      rcases ih h with hrow | ⟨hmem, hreferrer⟩
      · simp only [enqueueEdgeTx, SeqTable.insert_rows, List.mem_append,
          List.mem_singleton] at hrow
        rcases hrow with hold | rfl
        · exact Or.inl hold
        · exact Or.inr ⟨by simp, rfl⟩
      · exact Or.inr ⟨by simp [hmem], hreferrer⟩

/-- Messages of one kind from one parent decide the pairs of the parent with the
listed children and no other pair. -/
theorem replay_messages (base : String × String → Bool) (children : List String)
    (referrer : String) (v : Bool) (c x : String) :
    replay base (children.map fun child => ((child, referrer), v)) (c, x) =
      if x = referrer ∧ c ∈ children then v else base (c, x) := by
  split_ifs with hpair
  · obtain ⟨rfl, hmem⟩ := hpair
    apply replay_of_forall_val
    · intro entry hentry
      obtain ⟨child, -, rfl⟩ := List.mem_map.mp hentry
      rfl
    · exact ⟨((c, x), v), List.mem_map.mpr ⟨c, hmem, rfl⟩, rfl⟩
  · apply replay_of_forall_ne
    intro entry hentry hkey
    obtain ⟨child, hchild, rfl⟩ := List.mem_map.mp hentry
    simp only [Prod.mk.injEq] at hkey
    exact hpair ⟨hkey.2.symm, hkey.1 ▸ hchild⟩

/-- The references after one branch of the reconciliation. -/
theorem settledRefs_setChildrenExpandedTx (crates : Crates) (db : NamedLocalStoreDb)
    (now : Nat) (objId : ObjId) (expanded : Bool) (op : EdgeOp) (c x : String) :
    (db.setChildrenExpandedTx crates now objId expanded op).settledRefs (c, x) =
      if x = objId.toString crates ∧
          c ∈ (db.parseObjRefsTx crates objId).map (·.toString crates) then decide (op = .add)
      else db.settledRefs (c, x) := by
  have hfacts := sameFacts_setChildrenExpandedTx crates db now objId expanded op
  have hflagged := SameFacts.updateObject db (objId.toString crates)
    (fun r => { r with childrenExpanded := expanded }) (fun _ => rfl) fun _ => rfl
  have hlog : (db.setChildrenExpandedTx crates now objId expanded op).edgeLog =
      db.edgeLog ++ ((db.parseObjRefsTx crates objId).map (·.toString crates)).map
        fun child => ((child, objId.toString crates), decide (op = .add)) := by
    unfold setChildrenExpandedTx
    simp only
    rw [edgeLog_foldl_enqueueEdgeTx, hflagged.parseObjRefsTx]
    rfl
  unfold settledRefs
  rw [hlog, replay_append, replay_messages]
  unfold hasRef
  rw [hfacts.incomingRefs]

theorem childTexts_toString (laws : crates.Lawful) (db : NamedLocalStoreDb)
    {objId : ObjId} (hx : CanonicalKey crates (objId.toString crates)) :
    db.childTexts crates (objId.toString crates) =
      (db.parseObjRefsTx crates objId).map (·.toString crates) := by
  obtain ⟨id', hnew, -⟩ := hx
  have hid := ObjId.eq_of_new_toString laws hnew
  subst hid
  unfold childTexts
  rw [hnew]

/-- What reconciling does to the references of the object itself. -/
theorem settledRefs_reconcileExpandStateTx_self (db : NamedLocalStoreDb) (now : Nat)
    (objId : ObjId) {row : ObjectRow}
    (hrow : db.objects.find? (objId.toString crates) = some row) (c : String)
    (hbefore : db.settledRefs (c, objId.toString crates) = true ↔
      row.childrenExpanded = true ∧
        c ∈ (db.parseObjRefsTx crates objId).map (·.toString crates)) :
    (db.reconcileExpandStateTx crates now objId).settledRefs (c, objId.toString crates) =
        true ↔
      db.wantExpandedTx now (objId.toString crates) = true ∧
        c ∈ (db.parseObjRefsTx crates objId).map (·.toString crates) := by
  have hhave : db.getChildrenExpandedTx (objId.toString crates) = row.childrenExpanded := by
    simp [getChildrenExpandedTx, hrow]
  have hother : c ∉ (db.parseObjRefsTx crates objId).map (·.toString crates) →
      db.settledRefs (c, objId.toString crates) = false := by
    intro hmem
    rw [← Bool.not_eq_true, hbefore]
    exact fun hpair => hmem hpair.2
  unfold reconcileExpandStateTx
  simp only
  rw [hhave]
  cases hwant : db.wantExpandedTx now (objId.toString crates) with
  | true =>
      cases hexp : row.childrenExpanded with
      | true => simpa [hexp] using hbefore
      | false =>
          simp only [Bool.not_false, Bool.and_self, if_true, true_and,
            settledRefs_setChildrenExpandedTx]
          split_ifs with hmem
          · simp [hmem]
          · simp [hmem, hother hmem]
  | false =>
      cases hexp : row.childrenExpanded with
      | true =>
          simp only [Bool.not_true, Bool.and_self, Bool.false_eq_true, if_false,
            Bool.not_false, if_true, false_and, iff_false, true_and,
            settledRefs_setChildrenExpandedTx]
          split_ifs with hmem
          · simp
          · simp [hother hmem]
      | false => simpa [hexp] using hbefore

/-- Reconciling leaves the references of every other object alone. -/
theorem settledRefs_reconcileExpandStateTx_of_ne (db : NamedLocalStoreDb) (now : Nat)
    (objId : ObjId) {x : String} (hx : x ≠ objId.toString crates) (c : String) :
    (db.reconcileExpandStateTx crates now objId).settledRefs (c, x) =
      db.settledRefs (c, x) := by
  unfold reconcileExpandStateTx
  simp only
  split_ifs
  · rw [settledRefs_setChildrenExpandedTx, if_neg fun hpair => hx hpair.1]
  · rw [settledRefs_setChildrenExpandedTx, if_neg fun hpair => hx hpair.1]
  · rfl

/-- The messages that reconciling adds carry the texts of identifiers. -/
theorem mem_edgeOutbox_reconcileExpandStateTx {now : Nat} {objId : ObjId} {row : OutboxRow}
    (h : row ∈ (db.reconcileExpandStateTx crates now objId).edgeOutbox.rows) :
    row ∈ db.edgeOutbox.rows ∨
      (∃ id : ObjId, row.referee = id.toString crates) ∧
        row.referrer = objId.toString crates := by
  have hset : ∀ expanded op,
      row ∈ (db.setChildrenExpandedTx crates now objId expanded op).edgeOutbox.rows →
        row ∈ db.edgeOutbox.rows ∨ (∃ id : ObjId, row.referee = id.toString crates) ∧
          row.referrer = objId.toString crates := by
    intro expanded op hrow
    rcases mem_foldl_enqueueEdgeTx hrow with hold | ⟨hmem, hreferrer⟩
    · exact Or.inl hold
    · obtain ⟨id, -, hid⟩ := List.mem_map.mp hmem
      exact Or.inr ⟨⟨id, hid.symm⟩, hreferrer⟩
  unfold reconcileExpandStateTx at h
  simp only at h
  split_ifs at h
  · exact hset _ _ h
  · exact hset _ _ h
  · exact Or.inl h

/-- Reconciling an object keeps the invariant: a row that becomes expanded
announces every child, and a row that stops to be expanded takes every child
back. -/
theorem EdgeInv.reconcileExpandStateTx (laws : crates.Lawful) (h : EdgeInv crates db)
    (now : Nat) (objId : ObjId) :
    EdgeInv crates (db.reconcileExpandStateTx crates now objId) := by
  have hfacts := sameFacts_reconcileExpandStateTx crates db now objId
  have hfind := find?_reconcileExpandStateTx crates db now objId
  constructor
  · intro x c hx
    by_cases hk : x = objId.toString crates
    · subst hk
      have hself := hfind (objId.toString crates)
      rw [if_pos rfl] at hself
      have hchildren := childTexts_toString laws db hx
      have hchildren' := childTexts_toString laws
        (db.reconcileExpandStateTx crates now objId) hx
      rw [hfacts.parseObjRefsTx] at hchildren'
      have hbefore := h.edges _ c hx
      unfold ExpandedChild at hbefore ⊢
      rw [hchildren] at hbefore
      rw [hchildren', hself]
      cases hrow : db.objects.find? (objId.toString crates) with
      | none =>
          have hwant : db.wantExpandedTx now (objId.toString crates) = false := by
            simp [wantExpandedTx, getItemStateTx, hrow]
          have hhave : db.getChildrenExpandedTx (objId.toString crates) = false := by
            simp [getChildrenExpandedTx, hrow]
          have hsame : db.reconcileExpandStateTx crates now objId = db := by
            simp [NamedLocalStoreDb.reconcileExpandStateTx, hwant, hhave]
          rw [hsame, hbefore, hrow]
          simp
      | some row =>
          rw [settledRefs_reconcileExpandStateTx_self db now objId hrow c]
          · simp
          · rw [hbefore, hrow]
            simp
    · rw [settledRefs_reconcileExpandStateTx_of_ne db now objId hk, h.edges x c hx]
      have hsame := hfind x
      rw [if_neg hk] at hsame
      rw [expandedChild_congr hx (by rw [hsame]) (by rw [hfacts.chunkItems])]
  · intro x row hrow hexpanded
    rw [hfind] at hrow
    split_ifs at hrow
    · obtain ⟨old, hold, rfl⟩ := Option.map_eq_some_iff.mp hrow
      have hstate := (wantExpandedTx_iff.mp hexpanded).1
      rw [getItemStateTx, hold, Option.map_some, Option.some.injEq] at hstate
      exact hstate
    · exact h.expandedPresent x row hrow hexpanded
  · rw [hfacts.incomingRefs]
    exact h.referrers
  · intro row hrow
    rcases mem_edgeOutbox_reconcileExpandStateTx hrow with hold | ⟨hreferee, hreferrer⟩
    · exact h.texts row hold
    · exact ⟨hreferee, objId, hreferrer⟩

theorem EdgeInv.recomputeEvictionClassTx (h : EdgeInv crates db) (now : Nat) (k : String) :
    EdgeInv crates (db.recomputeEvictionClassTx now k) :=
  h.updateObject k _ _ fun _ => rfl

theorem EdgeInv.refreshTx (laws : crates.Lawful) (h : EdgeInv crates db) (now : Nat)
    (objId : ObjId) : EdgeInv crates (db.refreshTx crates now objId) :=
  (h.recomputeEvictionClassTx now _).reconcileExpandStateTx laws now objId

theorem EdgeInv.foldl_refreshTextTx (laws : crates.Lawful) (h : EdgeInv crates db)
    (now : Nat) (oidStrs : List String) :
    EdgeInv crates (oidStrs.foldl (refreshTextTx crates now) db) := by
  induction oidStrs generalizing db with
  | nil => exact h
  | cons oidStr rest ih =>
      rw [List.foldl_cons]
      apply ih
      unfold refreshTextTx
      split
      · next oid _ =>
        exact (h.recomputeEvictionClassTx now oidStr).reconcileExpandStateTx laws now oid
      · exact h.recomputeEvictionClassTx now oidStr

end Enqueue

/-! ## The operations that send messages -/

section Operations

variable {crates : Crates} {db : NamedLocalStoreDb} (laws : crates.Lawful)

include laws

/-- A put changes the content of a row only while the row is not expanded. -/
theorem EdgeInv.putObjectInTx (h : EdgeInv crates db) (hcount : db.CountInv) (objId : ObjId)
    (objType objStr : String) (now : Nat) (logicalSize ownedBytes : Int) :
    EdgeInv crates
      (db.putObjectInTx crates objId objType objStr now logicalSize ownedBytes).1 := by
  unfold NamedLocalStoreDb.putObjectInTx
  simp only
  split
  · unfold touchLastAccessTx
    refine h.updateObject _ _ _ ?_
    intro r
    simp only [expandColumns, contentColumns]
  · next hstate =>
    apply EdgeInv.refreshTx laws
    refine h.congr rfl rfl fun x => ?_
    have hfind := find?_fillShadowTx db now (objId.toString crates) objType objStr
      logicalSize ownedBytes x
    by_cases hk : x = objId.toString crates
    · have hshadow : ∀ row, db.objects.find? x = some row → row.childrenExpanded = false := by
        intro row hrow
        by_contra hexpanded
        rw [Bool.not_eq_false] at hexpanded
        have hpresent := h.expandedPresent x row hrow hexpanded
        rw [getItemStateTx, ← hk, hrow, Option.map_some, hpresent] at hstate
        cases hstate
      refine Or.inr ⟨?_, hshadow⟩
      intro row hrow
      change (db.fillShadowTx now _ objType objStr logicalSize ownedBytes).objects.find? x =
        some row at hrow
      rw [hfind, if_pos hk] at hrow
      obtain ⟨old, hold, rfl⟩ := Option.map_eq_some_iff.mp hrow
      exact hshadow old hold
    · rw [if_neg hk] at hfind
      exact Or.inl ⟨congrArg (Option.map expandColumns) hfind, rfl⟩
  · next hpresent hshadow =>
    have hnone := hcount.find?_eq_none_of_not_settled hpresent hshadow
    refine h.congr rfl rfl fun x => ?_
    have hfind := find?_insertOrReplace_presentRow db now (objId.toString crates) objType
      objStr logicalSize ownedBytes x
    by_cases hk : x = objId.toString crates
    · rw [if_pos hk] at hfind
      refine Or.inr ⟨?_, by simp [hk, hnone]⟩
      intro row hrow
      change Table.find? _ _ = some row at hrow
      rw [hfind, Option.some.injEq] at hrow
      rw [← hrow]
      rfl
    · rw [if_neg hk] at hfind
      exact Or.inl ⟨congrArg (Option.map expandColumns) hfind, rfl⟩

theorem EdgeInv.pin (h : EdgeInv crates db) (now : Nat) (objId : ObjId) (owner : String)
    (scope : PinScope) (ttl : Option Nat) :
    EdgeInv crates (db.pin crates now objId owner scope ttl) := by
  apply EdgeInv.refreshTx laws
  exact (h.upsertShadowIfAbsentTx now _).congr_objects rfl rfl rfl rfl

theorem EdgeInv.unpin (h : EdgeInv crates db) (now : Nat) (objId : ObjId)
    (owner : String) : EdgeInv crates (db.unpin crates now objId owner) := by
  unfold NamedLocalStoreDb.unpin
  simp only
  split_ifs
  · apply EdgeInv.refreshTx laws
    exact h.congr_objects rfl rfl rfl rfl
  · exact h.congr_objects rfl rfl rfl rfl

theorem EdgeInv.deletePinsTx (h : EdgeInv crates db) (now : Nat) (p : PinRow → Bool) :
    EdgeInv crates (db.deletePinsTx crates now p).1 := by
  apply EdgeInv.foldl_refreshTextTx laws
  exact h.congr_objects rfl rfl rfl rfl

omit laws in
theorem EdgeInv.updateFsAnchorCountTx (h : EdgeInv crates db) (k : String)
    (f : Int → Int) : EdgeInv crates (db.updateFsAnchorCountTx k f) := by
  unfold NamedLocalStoreDb.updateFsAnchorCountTx
  refine h.updateObject _ _ _ ?_
  intro r
  simp only [expandColumns, contentColumns]

theorem EdgeInv.fsAcquire (h : EdgeInv crates db) (now : Nat) (objId : ObjId)
    (inodeId : UInt64) (fieldTag : UInt32) :
    EdgeInv crates (db.fsAcquire crates now objId inodeId fieldTag) := by
  apply EdgeInv.refreshTx laws
  have hshadowed := h.upsertShadowIfAbsentTx now (objId.toString crates)
  unfold acquireAnchorTx
  simp only
  split_ifs
  · apply EdgeInv.updateFsAnchorCountTx
    exact hshadowed.congr_objects rfl rfl rfl rfl
  · exact hshadowed.congr_objects rfl rfl rfl rfl

theorem EdgeInv.fsRelease (h : EdgeInv crates db) (now : Nat) (objId : ObjId)
    (inodeId : UInt64) (fieldTag : UInt32) :
    EdgeInv crates (db.fsRelease crates now objId inodeId fieldTag) := by
  apply EdgeInv.refreshTx laws
  unfold releaseAnchorTx
  simp only
  split_ifs
  · apply EdgeInv.updateFsAnchorCountTx
    exact h.congr_objects rfl rfl rfl rfl
  · exact h.congr_objects rfl rfl rfl rfl

omit laws in
theorem EdgeInv.foldl_dropInodeCountTx (h : EdgeInv crates db) (inodeId : UInt64)
    (oidStrs : List String) : EdgeInv crates (oidStrs.foldl (dropInodeCountTx inodeId) db) := by
  induction oidStrs generalizing db with
  | nil => exact h
  | cons oidStr rest ih =>
      rw [List.foldl_cons]
      apply ih
      unfold dropInodeCountTx
      exact h.updateFsAnchorCountTx _ _

theorem EdgeInv.fsReleaseInode (h : EdgeInv crates db) (now : Nat) (inodeId : UInt64) :
    EdgeInv crates (db.fsReleaseInode crates now inodeId).1 := by
  apply EdgeInv.foldl_refreshTextTx laws
  exact (h.foldl_dropInodeCountTx inodeId _).congr_objects rfl rfl rfl rfl

omit laws in
/-- An eviction is invisible to the messages when the row was not expanded. -/
theorem EdgeInv.tryEvictObject (h : EdgeInv crates db) (now : Nat) (k : String)
    (hunexpanded : CanonicalKey crates k → db.isProtectedTx now k = false →
      ∀ row, db.objects.find? k = some row → row.childrenExpanded = false) :
    EdgeInv crates (db.tryEvictObject now k).1 := by
  unfold NamedLocalStoreDb.tryEvictObject
  split_ifs with hprotected
  · exact h.recomputeEvictionClassTx now k
  · have hfind := Table.find?_deleteKey db.objects k
    refine ⟨?_, ?_, h.referrers, h.texts⟩
    · intro x c hx
      refine (h.edges x c hx).trans ?_
      by_cases hk : x = k
      · subst hk
        refine iff_of_false (not_expandedChild (hunexpanded hx (by simpa using hprotected)))
          (not_expandedChild ?_)
        intro row hrow
        change Table.find? _ _ = some row at hrow
        rw [hfind, if_pos rfl] at hrow
        cases hrow
      · have hchunk := Table.find?_deleteKey db.chunkItems k x
        rw [if_neg hk] at hchunk
        refine (expandedChild_congr hx ?_ hchunk c).symm
        show (Table.find? _ x).map expandColumns = _
        rw [hfind, if_neg hk]
    · intro x row hrow
      change Table.find? _ _ = some row at hrow
      rw [hfind] at hrow
      split_ifs at hrow
      exact h.expandedPresent x row hrow

end Operations

/-! ## Delivery -/

/-- Delivery of one pending message by a loopback router: `apply_edge`, then
`complete_outbox_entry`.  Nothing happens when there is no such message, when its
ids do not parse, or when an older message for the same pair is still pending. -/
def deliverEdge (crates : Crates) (db : NamedLocalStoreDb) (now seq : Nat) :
    NamedLocalStoreDb :=
  match db.edgeOutbox.rows.find? fun r => r.seq = seq with
  | none => db
  | some row =>
      match outboxEntryOfRow crates row with
      | none => db
      | some entry =>
          if db.edgeOutbox.rows.any fun r =>
              r.seq < seq && r.referee = row.referee && r.referrer = row.referrer then db
          else (db.applyEdge crates now entry.msg).completeOutboxEntry entry.seq

section Delivery

variable {crates : Crates} {db : NamedLocalStoreDb}

/-- A refresh only appends to the outbox. -/
theorem edgeOutbox_refreshTx (crates : Crates) (db : NamedLocalStoreDb) (now : Nat)
    (objId : ObjId) :
    ∃ added, (db.refreshTx crates now objId).edgeOutbox.rows =
      db.edgeOutbox.rows ++ added := by
  have hfold : ∀ (referees : List String) (op : EdgeOp) (db : NamedLocalStoreDb),
      ∃ added, (referees.foldl (enqueueEdgeTx now op (objId.toString crates))
        db).edgeOutbox.rows = db.edgeOutbox.rows ++ added := by
    intro referees op db
    induction referees generalizing db with
    | nil => exact ⟨[], by simp⟩
    | cons referee rest ih =>
        obtain ⟨added, hadded⟩ := ih (enqueueEdgeTx now op (objId.toString crates) db referee)
        rw [List.foldl_cons, hadded]
        simp only [enqueueEdgeTx, SeqTable.insert_rows, List.append_assoc]
        exact ⟨_, rfl⟩
  unfold NamedLocalStoreDb.refreshTx NamedLocalStoreDb.reconcileExpandStateTx
  simp only
  split_ifs
  · exact hfold _ _ _
  · exact hfold _ _ _
  · exact ⟨[], by simp [NamedLocalStoreDb.recomputeEvictionClassTx,
      NamedLocalStoreDb.updateObject]⟩

/-- Applying a message writes the reference of its pair. -/
theorem hasRef_applyEdgeRefTx (db : NamedLocalStoreDb) (now : Nat) (op : EdgeOp)
    (referee referrer : String) (epoch : Nat) :
    (db.applyEdgeRefTx now op referee referrer epoch).hasRef =
      Function.update db.hasRef (referee, referrer) (decide (op = .add)) := by
  funext pair
  unfold hasRef
  cases op with
  | add =>
      have hfind : (db.applyEdgeRefTx now .add referee referrer epoch).incomingRefs.find? pair =
          _ := Table.find?_insertOrIgnore db.incomingRefs
            ⟨referee, referrer, asI64 epoch, asI64 now⟩ pair
      by_cases hpair : pair = (referee, referrer)
      · rw [if_pos hpair] at hfind
        rw [hfind, hpair, Function.update_self]
        rfl
      · rw [if_neg hpair] at hfind
        rw [hfind, Function.update_of_ne hpair]
  | remove =>
      have hfind : (db.applyEdgeRefTx now .remove referee referrer
          epoch).incomingRefs.find? pair = _ :=
        Table.find?_deleteKey db.incomingRefs (referee, referrer) pair
      by_cases hpair : pair = (referee, referrer)
      · rw [if_pos hpair] at hfind
        rw [hfind, hpair, Function.update_self]
        rfl
      · rw [if_neg hpair] at hfind
        rw [hfind, Function.update_of_ne hpair]

/-- The refresh that ends `apply_edge` touches no reference. -/
theorem hasRef_applyEdge (crates : Crates) (db : NamedLocalStoreDb) (now : Nat)
    (msg : EdgeMsg) :
    (db.applyEdge crates now msg).hasRef =
      Function.update db.hasRef (msg.referee.toString crates, msg.referrer.toString crates)
        (decide (msg.op = .add)) := by
  rw [← hasRef_applyEdgeRefTx db now msg.op _ _ msg.targetEpoch]
  unfold hasRef applyEdge
  rw [(sameFacts_refreshTx crates _ now msg.referee).incomingRefs]

/-- While its message is still pending, applying it does not change what the
references settle to. -/
theorem EdgeInv.applyEdgeRefTx (h : EdgeInv crates db) (now : Nat) (op : EdgeOp)
    {referee referrer : String} (hreferrer : CanonicalKey crates referrer) (epoch : Nat)
    (hpending : ∃ row ∈ db.edgeOutbox.rows, row.referee = referee ∧ row.referrer = referrer) :
    EdgeInv crates (db.applyEdgeRefTx now op referee referrer epoch) := by
  have hshadowed := h.upsertShadowIfAbsentTx now referee
  have hobjects : (db.applyEdgeRefTx now op referee referrer epoch).objects =
      (db.upsertShadowIfAbsentTx now referee).objects := by
    cases op <;> rfl
  have hchunks : (db.applyEdgeRefTx now op referee referrer epoch).chunkItems =
      db.chunkItems := by
    cases op <;> rfl
  have houtbox : (db.applyEdgeRefTx now op referee referrer epoch).edgeOutbox =
      db.edgeOutbox := by
    cases op <;> rfl
  have hsettled : (db.applyEdgeRefTx now op referee referrer epoch).settledRefs =
      db.settledRefs := by
    unfold settledRefs edgeLog
    rw [houtbox, hasRef_applyEdgeRefTx]
    apply replay_update_of_mem
    obtain ⟨row, hrow, rfl, rfl⟩ := hpending
    exact ⟨edgeWrite row, List.mem_map.mpr ⟨row, hrow, rfl⟩, rfl⟩
  constructor
  · intro x c hx
    have hedges := hshadowed.edges x c hx
    rw [hsettled]
    refine Iff.trans hedges (expandedChild_congr hx ?_ ?_ c).symm
    · rw [hobjects]
    · rw [hchunks]
      rfl
  · rw [hobjects]
    exact hshadowed.expandedPresent
  · intro r hr
    cases op with
    | add =>
        rcases Table.mem_insertOrIgnore.mp hr with hold | ⟨hnew, -⟩
        · exact h.referrers r hold
        · rw [hnew]
          exact hreferrer
    | remove => exact h.referrers r (Table.mem_deleteWhere.mp hr).1
  · rw [houtbox]
    exact h.texts

/-- A message that is the oldest of its pair and has been applied already may
leave the outbox. -/
theorem EdgeInv.completeOutboxEntry (h : EdgeInv crates db) {before after : List OutboxRow}
    {row : OutboxRow} (hsplit : db.edgeOutbox.rows = before ++ row :: after)
    (holdest : ∀ r ∈ before, ¬ (r.referee = row.referee ∧ r.referrer = row.referrer))
    (happlied : db.hasRef (row.referee, row.referrer) = decide (row.op = .add)) :
    EdgeInv crates (db.completeOutboxEntry row.seq) := by
  have hrows : (db.completeOutboxEntry row.seq).edgeOutbox.rows = before ++ after :=
    db.edgeOutbox.deleteSeq_rows_of_split hsplit
  have hsettled : (db.completeOutboxEntry row.seq).settledRefs = db.settledRefs := by
    unfold settledRefs edgeLog
    rw [hrows, hsplit, List.map_append, List.map_append, List.map_cons]
    apply replay_drop_applied
    · intro entry hentry hkey
      obtain ⟨r, hr, rfl⟩ := List.mem_map.mp hentry
      exact absurd ⟨congrArg Prod.fst hkey, congrArg Prod.snd hkey⟩ (holdest r hr)
    · exact happlied
  constructor
  · intro x c hx
    rw [hsettled, h.edges x c hx]
    exact expandedChild_congr hx rfl rfl c
  · exact h.expandedPresent
  · exact h.referrers
  · intro r hr
    rw [hrows] at hr
    apply h.texts r
    rw [hsplit]
    rcases List.mem_append.mp hr with hmem | hmem
    · exact List.mem_append.mpr (Or.inl hmem)
    · exact List.mem_append.mpr (Or.inr (List.mem_cons_of_mem _ hmem))

/-- The two ids of a message that parses are the ones whose texts it carries. -/
theorem outboxEntryOfRow_eq_some (laws : crates.Lawful) {row : OutboxRow}
    {entry : OutboxEntry} (hentry : outboxEntryOfRow crates row = some entry)
    (hreferee : ∃ id : ObjId, row.referee = id.toString crates)
    (hreferrer : ∃ id : ObjId, row.referrer = id.toString crates) :
    entry.seq = row.seq ∧ entry.msg.op = row.op ∧
      ObjId.new crates row.referee = .ok entry.msg.referee ∧
      entry.msg.referee.toString crates = row.referee ∧
      ObjId.new crates row.referrer = .ok entry.msg.referrer ∧
      entry.msg.referrer.toString crates = row.referrer := by
  obtain ⟨refereeId, hrefereeId⟩ := hreferee
  obtain ⟨referrerId, hreferrerId⟩ := hreferrer
  unfold outboxEntryOfRow at hentry
  split at hentry
  · next referee referrer hnewReferee hnewReferrer =>
    rw [Option.some.injEq] at hentry
    subst hentry
    have hid : referee = refereeId := by
      rw [hrefereeId] at hnewReferee
      exact ObjId.eq_of_new_toString laws hnewReferee
    have hid' : referrer = referrerId := by
      rw [hreferrerId] at hnewReferrer
      exact ObjId.eq_of_new_toString laws hnewReferrer
    subst hid hid'
    exact ⟨rfl, rfl, hnewReferee, hrefereeId.symm, hnewReferrer, hreferrerId.symm⟩
  · cases hentry

/-- What a delivery does: nothing, or it applies the oldest message of a pair
and takes it out of the outbox. -/
theorem deliverEdge_cases (laws : crates.Lawful) (h : EdgeInv crates db) (now seq : Nat) :
    db.deliverEdge crates now seq = db ∨
      ∃ (before after : List OutboxRow) (row : OutboxRow) (msg : EdgeMsg),
        db.edgeOutbox.rows = before ++ row :: after ∧
        (∀ r ∈ before, ¬ (r.referee = row.referee ∧ r.referrer = row.referrer)) ∧
        msg.op = row.op ∧
        ObjId.new crates row.referee = .ok msg.referee ∧
        msg.referee.toString crates = row.referee ∧
        ObjId.new crates row.referrer = .ok msg.referrer ∧
        msg.referrer.toString crates = row.referrer ∧
        db.deliverEdge crates now seq =
          (db.applyEdge crates now msg).completeOutboxEntry row.seq := by
  unfold deliverEdge
  split
  · exact Or.inl rfl
  · next row hrow =>
    split
    · exact Or.inl rfl
    · next entry hentry =>
      split_ifs with holder
      · exact Or.inl rfl
      · refine Or.inr ?_
        have hmem := List.mem_of_find?_eq_some hrow
        have hseq : row.seq = seq := by simpa using List.find?_some hrow
        obtain ⟨before, after, hsplit⟩ := List.append_of_mem hmem
        obtain ⟨hentrySeq, hop, hreferee⟩ := outboxEntryOfRow_eq_some laws hentry
          (h.texts row hmem).1 (h.texts row hmem).2
        obtain ⟨hnewReferee, hreferee, hnewReferrer, hreferrer⟩ := hreferee
        refine ⟨before, after, row, entry.msg, hsplit, ?_, hop, hnewReferee, hreferee,
          hnewReferrer, hreferrer, by rw [hentrySeq]⟩
        intro r hr hpair
        have hsorted := db.edgeOutbox.sorted
        rw [hsplit, List.pairwise_append] at hsorted
        have hlt := hsorted.2.2 r hr row (by simp)
        apply holder
        rw [List.any_eq_true]
        refine ⟨r, by rw [hsplit]; simp [hr], ?_⟩
        simp [← hseq, hlt, hpair.1, hpair.2]

/-- A delivery keeps the invariant. -/
theorem EdgeInv.deliverEdge (laws : crates.Lawful) (h : EdgeInv crates db) (now seq : Nat) :
    EdgeInv crates (db.deliverEdge crates now seq) := by
  rcases deliverEdge_cases laws h now seq with hsame | ⟨before, after, row, msg, hsplit,
    holdest, hop, hnewReferee, hreferee, hnewReferrer, hreferrer, hdeliver⟩
  · rw [hsame]
    exact h
  · rw [hdeliver]
    unfold applyEdge
    rw [hreferee, hreferrer, hop]
    have hcanonical : CanonicalKey crates row.referrer := ⟨_, hnewReferrer, hreferrer⟩
    have happlied := h.applyEdgeRefTx now row.op hcanonical msg.targetEpoch
      ⟨row, by rw [hsplit]; simp, rfl, rfl⟩
    have hrefreshed := happlied.refreshTx laws now msg.referee
    obtain ⟨added, hadded⟩ := edgeOutbox_refreshTx crates
      (db.applyEdgeRefTx now row.op row.referee row.referrer msg.targetEpoch) now msg.referee
    have houtbox : (db.applyEdgeRefTx now row.op row.referee row.referrer
        msg.targetEpoch).edgeOutbox = db.edgeOutbox := by
      cases row.op <;> rfl
    rw [houtbox, hsplit, List.append_assoc, List.cons_append] at hadded
    refine hrefreshed.completeOutboxEntry hadded holdest ?_
    have hpair := congrFun (hasRef_applyEdge crates db now msg) (row.referee, row.referrer)
    unfold applyEdge at hpair
    rw [hreferee, hreferrer, hop, Function.update_self] at hpair
    exact hpair

end Delivery

end NamedLocalStoreDb

end NamedStore
end CyfsNdn

import CyfsNdn.NamedStore.AnchorCount

/-!
# The materialised state of garbage collection

For runs without expiring pins and without the removal operations, the
denormalised columns of every `objects` row are functions of the pins, the
anchors and the incoming references of its key.

The invariant is kept per key.  `FactAt` is what one key needs of the facts, and
`DerivedAt` says that the two derived columns are what a refresh would write.
Each operation changes the facts of some keys and refreshes exactly these keys,
so its proof consists of the frame for the other keys, `FactAt` for its own, and
one of the two rules `gcInv_refreshTx` and `gcInv_foldl_refreshTextTx`.
-/

namespace CyfsNdn
namespace NamedStore

open NdnLib Relational Transition

namespace NamedLocalStoreDb

/-- What the facts of one key satisfy. -/
structure FactAt (crates : Crates) (db : NamedLocalStoreDb) (k : String) : Prop where
  tracked : db.HasPin k ∨ db.HasFsAnchor k ∨ db.HasIncoming k →
    ∃ row, db.objects.find? k = some row
  canonical : ∀ row, db.objects.find? k = some row → CanonicalKey crates k
  pinCascade : ∀ row, db.objects.find? k = some row → ∀ p ∈ db.pins.rows, p.objId = k →
    p.scope = .recursive → (p.cascadeState = .pending ↔ row.state ≠ .present)
  anchorCascade : ∀ row, db.objects.find? k = some row → ∀ a ∈ db.fsAnchors.rows,
    a.objId = k → (a.cascadeState = .pending ↔ row.state ≠ .present)
  shadowOwned : ∀ row, db.objects.find? k = some row → row.state = .shadow →
    row.ownedBytes = 0
  permanent : ∀ p ∈ db.pins.rows, p.objId = k → p.expiresAt = none

/-- The derived columns of a key are what a refresh at the given time writes. -/
def DerivedAt (db : NamedLocalStoreDb) (now : Nat) (k : String) : Prop :=
  ∀ row, db.objects.find? k = some row →
    row.evictionClass = db.evictionClassTx now k ∧
      row.childrenExpanded = db.wantExpandedTx now k

/-- The invariant of the materialised state. -/
def GcInv (crates : Crates) (db : NamedLocalStoreDb) : Prop :=
  ∀ k, FactAt crates db k ∧ DerivedAt db 0 k

/-! ## Transport along the two frames -/

section Transport

variable {crates : Crates} {db db' : NamedLocalStoreDb} {k : String}

theorem ObjectRow.untimed_eq {r s : ObjectRow} (h : r.untimed = s.untimed) :
    r.state = s.state ∧ r.ownedBytes = s.ownedBytes ∧ r.evictionClass = s.evictionClass ∧
      r.childrenExpanded = s.childrenExpanded := by
  simp only [ObjectRow.untimed, ObjectRow.mk.injEq] at h
  obtain ⟨-, -, -, -, -, hstate, hclass, -, -, howned, hexpanded⟩ := h
  exact ⟨hstate, howned, hclass, hexpanded⟩

theorem FactAt.congr (h : FactAt crates db k) (hsame : SameAt db db' k) :
    FactAt crates db' k where
  tracked := by
    intro htracked
    rw [hsame.hasPin_iff, hsame.hasFsAnchor_iff, hsame.hasIncoming_iff] at htracked
    obtain ⟨row, hrow⟩ := h.tracked htracked
    have huntimed := hsame.row
    rw [hrow, Option.map_some, Option.map_eq_some_iff] at huntimed
    obtain ⟨row', hrow', -⟩ := huntimed
    exact ⟨row', hrow'⟩
  canonical := by
    intro row' hrow'
    obtain ⟨row, hrow, -⟩ := hsame.find?_some hrow'
    exact h.canonical row hrow
  pinCascade := by
    intro row' hrow' p hp hk hscope
    obtain ⟨row, hrow, huntimed⟩ := hsame.find?_some hrow'
    rw [(ObjectRow.untimed_eq huntimed).1]
    exact h.pinCascade row hrow p ((hsame.pins p hk).mp hp) hk hscope
  anchorCascade := by
    intro row' hrow' a ha hk
    obtain ⟨row, hrow, huntimed⟩ := hsame.find?_some hrow'
    rw [(ObjectRow.untimed_eq huntimed).1]
    exact h.anchorCascade row hrow a ((hsame.anchors a hk).mp ha) hk
  shadowOwned := by
    intro row' hrow' hstate
    obtain ⟨row, hrow, huntimed⟩ := hsame.find?_some hrow'
    obtain ⟨hstates, howned, -, -⟩ := ObjectRow.untimed_eq huntimed
    rw [howned]
    exact h.shadowOwned row hrow (hstates ▸ hstate)
  permanent := fun p hp hk => h.permanent p ((hsame.pins p hk).mp hp) hk

theorem DerivedAt.congr {now : Nat} (h : DerivedAt db now k) (hsame : SameAt db db' k) :
    DerivedAt db' now k := by
  intro row' hrow'
  obtain ⟨row, hrow, huntimed⟩ := hsame.find?_some hrow'
  obtain ⟨-, -, hclass, hexpanded⟩ := ObjectRow.untimed_eq huntimed
  rw [hclass, hexpanded, hsame.evictionClassTx, hsame.wantExpandedTx]
  exact h row hrow

theorem GcInv.congr (h : GcInv crates db) (hsame : ∀ k, SameAt db db' k) :
    GcInv crates db' :=
  fun k => ⟨(h k).1.congr (hsame k), (h k).2.congr (hsame k)⟩

theorem FactAt.of_sameFacts (h : FactAt crates db k) (hfacts : SameFacts db db') :
    FactAt crates db' k where
  tracked := by
    intro htracked
    unfold HasPin HasFsAnchor HasIncoming at htracked
    rw [hfacts.pins, hfacts.fsAnchors, hfacts.incomingRefs] at htracked
    obtain ⟨row, hrow⟩ := h.tracked htracked
    have hsome := hfacts.isSome_find? k
    rw [hrow, Option.isSome_some] at hsome
    exact Option.isSome_iff_exists.mp hsome
  canonical := by
    intro row' hrow'
    obtain ⟨row, hrow, -⟩ := hfacts.find?_some hrow'
    exact h.canonical row hrow
  pinCascade := by
    intro row' hrow' p hp
    obtain ⟨row, hrow, hcore⟩ := hfacts.find?_some hrow'
    rw [(ObjectRow.core_inj_on hcore).2.2.2.1]
    rw [hfacts.pins] at hp
    exact h.pinCascade row hrow p hp
  anchorCascade := by
    intro row' hrow' a ha
    obtain ⟨row, hrow, hcore⟩ := hfacts.find?_some hrow'
    rw [(ObjectRow.core_inj_on hcore).2.2.2.1]
    rw [hfacts.fsAnchors] at ha
    exact h.anchorCascade row hrow a ha
  shadowOwned := by
    intro row' hrow' hstate
    obtain ⟨row, hrow, hcore⟩ := hfacts.find?_some hrow'
    obtain ⟨-, -, -, hstates, -, howned⟩ := ObjectRow.core_inj_on hcore
    rw [howned]
    exact h.shadowOwned row hrow (hstates ▸ hstate)
  permanent := by
    rw [hfacts.pins]
    exact h.permanent

/-- Permanent pins do not look at the clock. -/
theorem FactAt.hasActivePinTx_iff_hasPin (h : FactAt crates db k) (now : Nat) :
    db.hasActivePinTx now k = true ↔ db.HasPin k := by
  rw [hasActivePinTx_iff]
  constructor
  · rintro ⟨p, hp, hk, -⟩
    exact ⟨p, hp, hk⟩
  · rintro ⟨p, hp, hk⟩
    exact ⟨p, hp, hk, by simp [PinRow.active, h.permanent p hp hk]⟩

theorem FactAt.hasScopedPinTx_iff_hasScopedPin (h : FactAt crates db k) (scope : PinScope)
    (now : Nat) : db.hasScopedPinTx scope now k = true ↔ db.HasScopedPin scope k := by
  rw [hasScopedPinTx_iff]
  constructor
  · rintro ⟨p, hp, hk, hscope, -⟩
    exact ⟨p, hp, hk, hscope⟩
  · rintro ⟨p, hp, hk, hscope⟩
    exact ⟨p, hp, hk, hscope, by simp [PinRow.active, h.permanent p hp hk]⟩

theorem FactAt.evictionClassTx_now (h : FactAt crates db k) (now now' : Nat) :
    db.evictionClassTx now k = db.evictionClassTx now' k := by
  have hpin : db.hasActivePinTx now k = db.hasActivePinTx now' k := by
    rw [Bool.eq_iff_iff, h.hasActivePinTx_iff_hasPin, h.hasActivePinTx_iff_hasPin]
  unfold NamedLocalStoreDb.evictionClassTx
  rw [hpin]

theorem FactAt.wantExpandedTx_now (h : FactAt crates db k) (now now' : Nat) :
    db.wantExpandedTx now k = db.wantExpandedTx now' k := by
  have hscoped : ∀ scope, db.hasScopedPinTx scope now k = db.hasScopedPinTx scope now' k := by
    intro scope
    rw [Bool.eq_iff_iff, h.hasScopedPinTx_iff_hasScopedPin, h.hasScopedPinTx_iff_hasScopedPin]
  unfold NamedLocalStoreDb.wantExpandedTx hasSkeletonPinTx hasRecursivePinTx
  rw [hscoped, hscoped]

/-! ## The two refresh rules -/

/-- After a refresh at any time, the derived columns are right. -/
theorem FactAt.derivedAt_of_find? (h : FactAt crates db k) (hfacts : SameFacts db db')
    {now : Nat} (hfind : db'.objects.find? k = (db.objects.find? k).map fun r =>
      { r with
        evictionClass := db.evictionClassTx now k
        childrenExpanded := db.wantExpandedTx now k }) : DerivedAt db' 0 k := by
  intro row hrow
  rw [hfind] at hrow
  obtain ⟨old, -, rfl⟩ := Option.map_eq_some_iff.mp hrow
  constructor
  · show db.evictionClassTx now k = _
    rw [hfacts.evictionClassTx]
    exact h.evictionClassTx_now now 0
  · show db.wantExpandedTx now k = _
    rw [hfacts.wantExpandedTx]
    exact h.wantExpandedTx_now now 0

/-- Facts that change at one key, followed by the refresh of that key. -/
theorem gcInv_refreshTx {changed : NamedLocalStoreDb} {now : Nat} {objId : ObjId}
    (h : GcInv crates db)
    (hother : ∀ k', k' ≠ objId.toString crates → SameAt db changed k')
    (hown : FactAt crates changed (objId.toString crates)) :
    GcInv crates (changed.refreshTx crates now objId) := by
  intro k'
  have hfacts := sameFacts_refreshTx crates changed now objId
  have hfind := find?_refreshTx crates changed now objId k'
  by_cases hk : k' = objId.toString crates
  · rw [if_pos hk] at hfind
    subst hk
    exact ⟨hown.of_sameFacts hfacts, hown.derivedAt_of_find? hfacts hfind⟩
  · rw [if_neg hk] at hfind
    have hsame := (hother k' hk).trans (SameAt.of_sameFacts hfacts hfind)
    exact ⟨(h k').1.congr hsame, (h k').2.congr hsame⟩

/-- Facts that change at listed keys, followed by the loop over the list. -/
theorem gcInv_foldl_refreshTextTx {changed : NamedLocalStoreDb} {now : Nat}
    {oidStrs : List String} (h : GcInv crates db)
    (hcanonical : ∀ k ∈ oidStrs, CanonicalKey crates k)
    (hother : ∀ k', k' ∉ oidStrs → SameAt db changed k')
    (hown : ∀ k ∈ oidStrs, FactAt crates changed k) :
    GcInv crates (oidStrs.foldl (refreshTextTx crates now) changed) := by
  intro k'
  have hfacts := sameFacts_foldl_refreshTextTx crates changed now oidStrs
  have hfind := find?_foldl_refreshTextTx crates changed now oidStrs hcanonical k'
  by_cases hk : k' ∈ oidStrs
  · rw [if_pos hk] at hfind
    exact ⟨(hown k' hk).of_sameFacts hfacts, (hown k' hk).derivedAt_of_find? hfacts hfind⟩
  · rw [if_neg hk] at hfind
    have hsame := (hother k' hk).trans (SameAt.of_sameFacts hfacts hfind)
    exact ⟨(h k').1.congr hsame, (h k').2.congr hsame⟩

end Transport

/-! ## One lemma for each change of facts -/

section Changes

variable {crates : Crates} {db : NamedLocalStoreDb} {k : String}

/-- The columns of a row that `FactAt` reads. -/
def factColumns (r : ObjectRow) : ItemState × Int :=
  (r.state, r.ownedBytes)

/-- Facts may be taken away. -/
theorem FactAt.of_subset {db' : NamedLocalStoreDb} (h : FactAt crates db k)
    (hrow : (db'.objects.find? k).map factColumns = (db.objects.find? k).map factColumns)
    (hpins : ∀ p ∈ db'.pins.rows, p.objId = k → p ∈ db.pins.rows)
    (hanchors : ∀ a ∈ db'.fsAnchors.rows, a.objId = k → a ∈ db.fsAnchors.rows)
    (hincoming : ∀ r ∈ db'.incomingRefs.rows, r.referee = k → r ∈ db.incomingRefs.rows) :
    FactAt crates db' k := by
  have hback : ∀ row', db'.objects.find? k = some row' →
      ∃ row, db.objects.find? k = some row ∧ row'.state = row.state ∧
        row'.ownedBytes = row.ownedBytes := by
    intro row' hrow'
    rw [hrow', Option.map_some, eq_comm, Option.map_eq_some_iff] at hrow
    obtain ⟨row, hold, hcolumns⟩ := hrow
    simp only [factColumns, Prod.mk.injEq] at hcolumns
    exact ⟨row, hold, hcolumns.1.symm, hcolumns.2.symm⟩
  constructor
  · intro htracked
    have hold : ∃ row, db.objects.find? k = some row := by
      apply h.tracked
      rcases htracked with ⟨p, hp, hk⟩ | ⟨a, ha, hk⟩ | ⟨r, hr, hk⟩
      · exact Or.inl ⟨p, hpins p hp hk, hk⟩
      · exact Or.inr (Or.inl ⟨a, hanchors a ha hk, hk⟩)
      · exact Or.inr (Or.inr ⟨r, hincoming r hr hk, hk⟩)
    obtain ⟨row, hold⟩ := hold
    rw [hold, Option.map_some, Option.map_eq_some_iff] at hrow
    obtain ⟨row', hrow', -⟩ := hrow
    exact ⟨row', hrow'⟩
  · intro row' hrow'
    obtain ⟨row, hold, -, -⟩ := hback row' hrow'
    exact h.canonical row hold
  · intro row' hrow' p hp hk hscope
    obtain ⟨row, hold, hstate, -⟩ := hback row' hrow'
    rw [hstate]
    exact h.pinCascade row hold p (hpins p hp hk) hk hscope
  · intro row' hrow' a ha hk
    obtain ⟨row, hold, hstate, -⟩ := hback row' hrow'
    rw [hstate]
    exact h.anchorCascade row hold a (hanchors a ha hk) hk
  · intro row' hrow' hshadow
    obtain ⟨row, hold, hstate, howned⟩ := hback row' hrow'
    rw [howned]
    exact h.shadowOwned row hold (hstate ▸ hshadow)
  · intro p hp hk
    exact h.permanent p (hpins p hp hk) hk

/-- A key without a row has no facts. -/
theorem FactAt.no_facts (h : FactAt crates db k) (hnone : db.objects.find? k = none) :
    (∀ p ∈ db.pins.rows, p.objId ≠ k) ∧ (∀ a ∈ db.fsAnchors.rows, a.objId ≠ k) ∧
      ∀ r ∈ db.incomingRefs.rows, r.referee ≠ k := by
  have hfalse : ¬ (db.HasPin k ∨ db.HasFsAnchor k ∨ db.HasIncoming k) := by
    intro htracked
    obtain ⟨row, hrow⟩ := h.tracked htracked
    rw [hnone] at hrow
    cases hrow
  refine ⟨fun p hp hk => hfalse (Or.inl ⟨p, hp, hk⟩), fun a ha hk => hfalse ?_,
    fun r hr hk => hfalse ?_⟩
  · exact Or.inr (Or.inl ⟨a, ha, hk⟩)
  · exact Or.inr (Or.inr ⟨r, hr, hk⟩)

/-- A row may be inserted where there was none: no fact constrains it yet. -/
theorem FactAt.of_new_row {db' : NamedLocalStoreDb} (h : FactAt crates db k)
    (hnone : db.objects.find? k = none) (hcanonical : CanonicalKey crates k) {row : ObjectRow}
    (hrow : db'.objects.find? k = some row) (hshadow : row.state = .shadow → row.ownedBytes = 0)
    (hpins : db'.pins = db.pins) (hanchors : db'.fsAnchors = db.fsAnchors) :
    FactAt crates db' k := by
  obtain ⟨hnoPins, hnoAnchors, -⟩ := h.no_facts hnone
  constructor
  · intro _
    exact ⟨row, hrow⟩
  · intro _ _
    exact hcanonical
  · intro _ _ p hp hk
    rw [hpins] at hp
    exact absurd hk (hnoPins p hp)
  · intro _ _ a ha hk
    rw [hanchors] at ha
    exact absurd hk (hnoAnchors a ha)
  · intro row' hrow'
    rw [hrow, Option.some.injEq] at hrow'
    rw [← hrow']
    exact hshadow
  · intro p hp hk
    rw [hpins] at hp
    exact absurd hk (hnoPins p hp)

theorem FactAt.upsertShadowIfAbsentTx (h : FactAt crates db k) (now : Nat)
    (hcanonical : CanonicalKey crates k) :
    FactAt crates (db.upsertShadowIfAbsentTx now k) k := by
  have hfind := find?_upsertShadowIfAbsentTx db now k k
  rw [if_pos rfl] at hfind
  cases hrow : db.objects.find? k with
  | none =>
      rw [hrow, Option.getD_none] at hfind
      exact h.of_new_row hrow hcanonical hfind (fun _ => rfl) rfl rfl
  | some row =>
      rw [hrow, Option.getD_some] at hfind
      exact h.congr (sameAt_objects (by rw [hfind, hrow]) rfl rfl rfl)

/-- The columns that a conflicting pin takes from the new one. -/
theorem upserted_newPinRow (t : Table PinRow PinRow.key) (new : PinRow) :
    (t.upserted new (repinnedRow new)).scope = new.scope ∧
      (t.upserted new (repinnedRow new)).cascadeState = new.cascadeState ∧
      (t.upserted new (repinnedRow new)).expiresAt = new.expiresAt := by
  unfold Table.upserted
  split <;> exact ⟨rfl, rfl, rfl⟩

theorem FactAt.insertPinTx (h : FactAt crates db k) (now : Nat)
    (hcanonical : CanonicalKey crates k) (owner : String) (scope : PinScope) :
    FactAt crates (db.insertPinTx now k owner scope none) k := by
  have hshadowed := h.upsertShadowIfAbsentTx now hcanonical
  obtain ⟨hscope, hcascade, hexpires⟩ := upserted_newPinRow db.pins
    ((db.upsertShadowIfAbsentTx now k).newPinRow now k owner scope none)
  constructor
  · intro _
    show ∃ row, (db.upsertShadowIfAbsentTx now k).objects.find? k = some row
    simp [find?_upsertShadowIfAbsentTx]
  · exact hshadowed.canonical
  · intro row hrow p hp hk hrecursive
    change (db.upsertShadowIfAbsentTx now k).objects.find? k = some row at hrow
    rw [mem_insertPinTx] at hp
    rcases hp with rfl | ⟨hmem, -⟩
    · have hstate : (db.upsertShadowIfAbsentTx now k).getItemStateTx k = some row.state := by
        rw [getItemStateTx, hrow, Option.map_some]
      rw [hscope] at hrecursive
      change scope = .recursive at hrecursive
      rw [hcascade]
      simp only [newPinRow, hstate, hrecursive]
      by_cases hpresent : row.state = .present
      · simp [hpresent]
      · simp [hpresent]
    · exact hshadowed.pinCascade row hrow p hmem hk hrecursive
  · exact hshadowed.anchorCascade
  · exact hshadowed.shadowOwned
  · intro p hp hk
    rw [mem_insertPinTx] at hp
    rcases hp with rfl | ⟨hmem, -⟩
    · rw [hexpires]
      rfl
    · exact h.permanent p hmem hk

theorem FactAt.acquireAnchorTx (h : FactAt crates db k) (now : Nat)
    (hcanonical : CanonicalKey crates k) (inodeId : UInt64) (fieldTag : UInt32) :
    FactAt crates (db.acquireAnchorTx now k inodeId fieldTag) k := by
  have hshadowed := h.upsertShadowIfAbsentTx now hcanonical
  have hexists : ∃ row, (db.upsertShadowIfAbsentTx now k).objects.find? k = some row := by
    simp [find?_upsertShadowIfAbsentTx]
  unfold NamedLocalStoreDb.acquireAnchorTx
  simp only
  generalize db.upsertShadowIfAbsentTx now k = shadowed at hshadowed hexists ⊢
  have hanchored : FactAt crates
      { shadowed with
        fsAnchors := shadowed.fsAnchors.insertOrIgnore
          (shadowed.newFsAnchorRow now k inodeId fieldTag) } k := by
    constructor
    · intro _
      exact hexists
    · exact hshadowed.canonical
    · exact hshadowed.pinCascade
    · intro row hrow a ha hk
      rw [Table.mem_insertOrIgnore] at ha
      rcases ha with hmem | ⟨rfl, -⟩
      · exact hshadowed.anchorCascade row hrow a hmem hk
      · have hstate : shadowed.getItemStateTx k = some row.state := by
          rw [getItemStateTx]
          exact congrArg (Option.map ObjectRow.state) hrow
        simp only [newFsAnchorRow, hstate]
        by_cases hpresent : row.state = .present
        · simp [hpresent]
        · simp [hpresent]
    · exact hshadowed.shadowOwned
    · exact hshadowed.permanent
  split_ifs
  · refine hanchored.of_subset ?_ (fun _ hp _ => hp) (fun _ ha _ => ha) (fun _ hr _ => hr)
    rw [find?_updateFsAnchorCountTx, if_pos rfl, Option.map_map]
    rfl
  · exact hanchored

theorem FactAt.releaseAnchorTx (h : FactAt crates db k) (inodeId : UInt64)
    (fieldTag : UInt32) : FactAt crates (db.releaseAnchorTx k inodeId fieldTag) k := by
  have hreleased : FactAt crates
      { db with fsAnchors := db.fsAnchors.deleteKey (k, inodeId, fieldTag) } k :=
    h.of_subset rfl (fun _ hp _ => hp) (fun _ ha _ => (Table.mem_deleteWhere.mp ha).1)
      fun _ hr _ => hr
  unfold NamedLocalStoreDb.releaseAnchorTx
  simp only
  split_ifs
  · refine hreleased.of_subset ?_ (fun _ hp _ => hp) (fun _ ha _ => ha) (fun _ hr _ => hr)
    rw [find?_updateFsAnchorCountTx, if_pos rfl, Option.map_map]
    rfl
  · exact hreleased

theorem FactAt.applyEdgeRefTx (h : FactAt crates db k) (now : Nat)
    (hcanonical : CanonicalKey crates k) (op : EdgeOp) (referrer : String) (epoch : Nat) :
    FactAt crates (db.applyEdgeRefTx now op k referrer epoch) k := by
  have hshadowed := h.upsertShadowIfAbsentTx now hcanonical
  unfold NamedLocalStoreDb.applyEdgeRefTx
  cases op with
  | add =>
      refine ⟨?_, hshadowed.canonical, hshadowed.pinCascade, hshadowed.anchorCascade,
        hshadowed.shadowOwned, hshadowed.permanent⟩
      intro _
      show ∃ row, (db.upsertShadowIfAbsentTx now k).objects.find? k = some row
      simp [find?_upsertShadowIfAbsentTx]
  | remove =>
      exact hshadowed.of_subset rfl (fun _ hp _ => hp) (fun _ ha _ => ha)
        fun _ hr _ => (Table.mem_deleteWhere.mp hr).1

/-- After the promotion nothing of the key is pending, and its row is present. -/
theorem FactAt.fillShadowTx (h : FactAt crates db k) (now : Nat) (objType objStr : String)
    (logicalSize ownedBytes : Int) :
    FactAt crates ((db.fillShadowTx now k objType objStr logicalSize
      ownedBytes).promoteAnchorCascadeStateOnPresentTx k) k := by
  have hback : ∀ row, (db.fillShadowTx now k objType objStr logicalSize
      ownedBytes).objects.find? k = some row →
        row.state = .present ∧ ∃ old, db.objects.find? k = some old := by
    intro row hrow
    rw [find?_fillShadowTx, if_pos rfl] at hrow
    obtain ⟨old, hold, rfl⟩ := Option.map_eq_some_iff.mp hrow
    exact ⟨rfl, old, hold⟩
  constructor
  · intro htracked
    have hold : ∃ row, db.objects.find? k = some row := by
      apply h.tracked
      rcases htracked with ⟨p, hp, hk⟩ | ⟨a, ha, hk⟩ | hincoming
      · obtain ⟨q, hq, rfl⟩ := (mem_promote_pins _).mp hp
        refine Or.inl ⟨q, hq, ?_⟩
        split_ifs at hk <;> exact hk
      · obtain ⟨b, hb, rfl⟩ := (mem_promote_fsAnchors _).mp ha
        refine Or.inr (Or.inl ⟨b, hb, ?_⟩)
        split_ifs at hk <;> exact hk
      · exact Or.inr (Or.inr hincoming)
    obtain ⟨row, hold⟩ := hold
    show ∃ row, (db.fillShadowTx now k objType objStr logicalSize
      ownedBytes).objects.find? k = some row
    simp [find?_fillShadowTx, hold]
  · intro row hrow
    obtain ⟨-, old, hold⟩ := hback row hrow
    exact h.canonical old hold
  · intro row hrow p hp hk hscope
    obtain ⟨hpresent, -⟩ := hback row hrow
    obtain ⟨q, hq, rfl⟩ := (mem_promote_pins _).mp hp
    rw [hpresent]
    split_ifs at hk hscope ⊢ with hclause
    · simp
    · simpa [hk, hscope] using hclause
  · intro row hrow a ha hk
    obtain ⟨hpresent, -⟩ := hback row hrow
    obtain ⟨b, hb, rfl⟩ := (mem_promote_fsAnchors _).mp ha
    rw [hpresent]
    split_ifs at hk ⊢ with hclause
    · simp
    · simpa [hk] using hclause
  · intro row hrow hshadow
    obtain ⟨hpresent, -⟩ := hback row hrow
    rw [hpresent] at hshadow
    cases hshadow
  · intro p hp hk
    obtain ⟨q, hq, rfl⟩ := (mem_promote_pins _).mp hp
    split_ifs at hk ⊢
    · exact h.permanent q hq hk
    · exact h.permanent q hq hk

end Changes

/-! ## One lemma for each operation -/

section Operations

variable {crates : Crates} {db : NamedLocalStoreDb}

/-- A key with a pin, an anchor or an incoming reference is canonical. -/
theorem GcInv.canonical_of_tracked (h : GcInv crates db) {k : String}
    (htracked : db.HasPin k ∨ db.HasFsAnchor k ∨ db.HasIncoming k) :
    CanonicalKey crates k := by
  obtain ⟨row, hrow⟩ := (h k).1.tracked htracked
  exact (h k).1.canonical row hrow

theorem GcInv.deletePinsTx (h : GcInv crates db) (now : Nat) (p : PinRow → Bool) :
    GcInv crates (db.deletePinsTx crates now p).1 := by
  unfold NamedLocalStoreDb.deletePinsTx
  refine gcInv_foldl_refreshTextTx h ?_ ?_ ?_
  · intro k hk
    rw [List.mem_dedup, List.mem_map] at hk
    obtain ⟨q, hq, hqk⟩ := hk
    exact h.canonical_of_tracked (Or.inl ⟨q, (List.mem_filter.mp hq).1, hqk⟩)
  · intro k' hk'
    apply sameAt_deleteWhere_pins
    intro q hq hdeleted hqk
    apply hk'
    rw [List.mem_dedup, List.mem_map]
    exact ⟨q, List.mem_filter.mpr ⟨hq, hdeleted⟩, hqk⟩
  · intro k _
    exact (h k).1.of_subset rfl (fun _ hq _ => (Table.mem_deleteWhere.mp hq).1)
      (fun _ ha _ => ha) fun _ hr _ => hr

theorem GcInv.unpin (h : GcInv crates db) (now : Nat) (objId : ObjId) (owner : String) :
    GcInv crates (db.unpin crates now objId owner) := by
  unfold NamedLocalStoreDb.unpin
  simp only
  split_ifs with hdeleted
  · refine gcInv_refreshTx h (fun k' hk' => sameAt_deleteKey_pins db owner hk') ?_
    exact (h _).1.of_subset rfl (fun _ hq _ => (Table.mem_deleteWhere.mp hq).1)
      (fun _ ha _ => ha) fun _ hr _ => hr
  · refine h.congr fun k' => sameAt_deleteWhere_pins db _ ?_
    intro q hq hclause
    exact absurd (Table.countWhere_pos.mpr ⟨q, hq, hclause⟩) hdeleted

theorem GcInv.fsReleaseInode (h : GcInv crates db) (now : Nat) (inodeId : UInt64) :
    GcInv crates (db.fsReleaseInode crates now inodeId).1 := by
  unfold NamedLocalStoreDb.fsReleaseInode
  refine gcInv_foldl_refreshTextTx h ?_ (fun k' hk' => sameAt_releaseInodeTx db hk') ?_
  · intro k hk
    obtain ⟨a, ha, -, hak⟩ := mem_inodeObjIds.mp hk
    exact h.canonical_of_tracked (Or.inr (Or.inl ⟨a, ha, hak⟩))
  · intro k hk
    refine (h k).1.of_subset ?_ ?_ ?_ ?_
    · rw [find?_releaseInodeTx, if_pos hk, Option.map_map]
      rfl
    · intro q hq _
      rw [releaseInodeTx_pins] at hq
      exact hq
    · intro a ha _
      rw [releaseInodeTx_fsAnchors] at ha
      exact (Table.mem_deleteWhere.mp ha).1
    · intro r hr _
      rw [releaseInodeTx_incomingRefs] at hr
      exact hr

/-- Without facts and with a count of zero, the class is 0 and nothing is
expanded. -/
theorem derived_of_no_facts {k : String} (hcount : db.getFsAnchorCountTx k = 0)
    (hpins : ∀ p ∈ db.pins.rows, p.objId ≠ k)
    (hincoming : ∀ r ∈ db.incomingRefs.rows, r.referee ≠ k) (now : Nat) :
    db.evictionClassTx now k = 0 ∧ db.wantExpandedTx now k = false := by
  have hnoPin : db.hasActivePinTx now k = false := by
    rw [← Bool.not_eq_true, hasActivePinTx_iff]
    rintro ⟨p, hp, hpk, -⟩
    exact hpins p hp hpk
  have hnoRecursive : db.hasRecursivePinTx now k = false := by
    rw [← Bool.not_eq_true, hasRecursivePinTx, hasScopedPinTx_iff]
    rintro ⟨p, hp, hpk, -⟩
    exact hpins p hp hpk
  have hnoIncoming : db.hasIncomingTx k = false := by
    rw [← Bool.not_eq_true, hasIncomingTx_iff]
    rintro ⟨r, hr, hrk⟩
    exact hincoming r hr hrk
  constructor
  · simp [evictionClassTx, hnoPin, hcount, hnoIncoming]
  · rw [← Bool.not_eq_true, wantExpandedTx_iff]
    simp [hnoRecursive, hcount, hnoIncoming]

/-- The row that a put inserts is right with class 0: nothing protects a key
without a row. -/
theorem GcInv.insertPresentRow (h : GcInv crates db) (now : Nat) {k : String}
    (hnone : db.objects.find? k = none) (hcanonical : CanonicalKey crates k)
    (objType objStr : String) (logicalSize ownedBytes : Int) :
    GcInv crates { db with
      objects := db.objects.insertOrReplace
        (presentRow now k objType objStr logicalSize ownedBytes) } := by
  intro k'
  by_cases hk : k' = k
  · subst hk
    have hfind := find?_insertOrReplace_presentRow db now k' objType objStr logicalSize
      ownedBytes k'
    rw [if_pos rfl] at hfind
    refine ⟨(h k').1.of_new_row hnone hcanonical hfind (fun hstate => by cases hstate) rfl rfl,
      ?_⟩
    intro row hrow
    change Table.find? _ _ = some row at hrow
    rw [hfind, Option.some.injEq] at hrow
    obtain ⟨hnoPins, -, hnoIncoming⟩ := (h k').1.no_facts hnone
    have hcount : getFsAnchorCountTx
        { db with
          objects := db.objects.insertOrReplace
            (presentRow now k' objType objStr logicalSize ownedBytes) } k' = 0 := by
      unfold getFsAnchorCountTx
      simp only
      rw [hfind]
      rfl
    obtain ⟨hclass, hwant⟩ := derived_of_no_facts hcount hnoPins hnoIncoming 0
    rw [← hrow]
    exact ⟨hclass.symm, hwant.symm⟩
  · have hsame := sameAt_insertOrReplace_presentRow db now objType objStr logicalSize
      ownedBytes hk
    exact ⟨(h k').1.congr hsame, (h k').2.congr hsame⟩

theorem GcInv.putObjectInTx (h : GcInv crates db) (hcount : db.CountInv) (objId : ObjId)
    (hcanonical : CanonicalKey crates (objId.toString crates)) (objType objStr : String)
    (now : Nat) (logicalSize ownedBytes : Int) :
    GcInv crates (db.putObjectInTx crates objId objType objStr now logicalSize ownedBytes).1 := by
  unfold NamedLocalStoreDb.putObjectInTx
  simp only
  split
  · exact h.congr fun k' => SameAt.touchLastAccessTx db _ k' _
  · refine gcInv_refreshTx h (fun k' hk' => ?_) ((h _).1.fillShadowTx now _ _ _ _)
    exact sameAt_fillShadowTx db now objType objStr logicalSize ownedBytes hk'
  · next hpresent hshadow =>
    exact h.insertPresentRow now (hcount.find?_eq_none_of_not_settled hpresent hshadow)
      hcanonical objType objStr logicalSize ownedBytes

/-- An eviction that deletes a row deletes one without facts. -/
theorem GcInv.tryEvictObject (h : GcInv crates db) (hcount : db.CountInv) (now : Nat)
    (k : String) : GcInv crates (db.tryEvictObject now k).1 := by
  unfold NamedLocalStoreDb.tryEvictObject
  split_ifs with hprotected
  · -- The drift correction recomputes a class that was right already.
    have hfacts := sameFacts_recomputeEvictionClassTx db now k
    intro k'
    refine ⟨(h k').1.of_sameFacts hfacts, ?_⟩
    intro row hrow
    rw [hfacts.evictionClassTx, hfacts.wantExpandedTx]
    rw [find?_recomputeEvictionClassTx] at hrow
    split_ifs at hrow with hk
    · obtain ⟨old, hold, rfl⟩ := Option.map_eq_some_iff.mp hrow
      subst hk
      exact ⟨(h k').1.evictionClassTx_now now 0, ((h k').2 old hold).2⟩
    · exact (h k').2 row hrow
  · intro k'
    have hfind := Table.find?_deleteKey db.objects k k'
    by_cases hk : k' = k
    · subst hk
      rw [if_pos rfl] at hfind
      simp only [isProtectedTx, Bool.or_eq_true, decide_eq_true_eq, not_or,
        (h k').1.hasActivePinTx_iff_hasPin, hasIncomingTx_iff] at hprotected
      obtain ⟨⟨hpin, hincoming⟩, hzero⟩ := hprotected
      have hanchor := hcount.not_hasFsAnchor hzero
      refine ⟨⟨?_, ?_, ?_, ?_, ?_, (h k').1.permanent⟩, ?_⟩
      · rintro (htracked | htracked | htracked)
        · exact absurd htracked hpin
        · exact absurd htracked hanchor
        · exact absurd htracked hincoming
      all_goals
        intro row hrow
        change Table.find? _ _ = some row at hrow
        rw [hfind] at hrow
        cases hrow
    · rw [if_neg hk] at hfind
      have hsame : SameAt db { db with
          objects := db.objects.deleteKey k
          chunkItems := db.chunkItems.deleteKey k } k' := sameAt_objects hfind rfl rfl rfl
      exact ⟨(h k').1.congr hsame, (h k').2.congr hsame⟩

end Operations

/-! ## Runs -/

/-- The operations of the materialised-state invariant: everything but the two
removals, on identifiers that `ObjId::new` accepts, with permanent pins. -/
def IsGcAction (crates : Crates) (action : TimedOp) : Prop :=
  match action.op with
  | .setObject objId _ _ | .putObjectGcAware objId _ _ => objId.Accepted crates
  | .pin objId _ _ ttl => objId.Accepted crates ∧ ttl = none
  | .fsAcquire objId _ _ => objId.Accepted crates
  | .applyEdge msg => msg.referee.Accepted crates
  | .removeObject _ | .removeChunk _ => False
  | _ => True

theorem canonicalKey_of_accepted {crates : Crates} (laws : crates.Lawful) {objId : ObjId}
    (h : objId.Accepted crates) : CanonicalKey crates (objId.toString crates) :=
  ⟨objId, ObjId.new_toString laws h, rfl⟩

theorem gcInv_empty (crates : Crates) : GcInv crates empty := by
  intro k
  refine ⟨⟨?_, ?_, ?_, ?_, ?_, ?_⟩, ?_⟩
  · rintro (⟨p, hp, -⟩ | ⟨a, ha, -⟩ | ⟨r, hr, -⟩)
    · exact absurd hp List.not_mem_nil
    · exact absurd ha List.not_mem_nil
    · exact absurd hr List.not_mem_nil
  all_goals simp [empty, DerivedAt]

theorem GcInv.step {crates : Crates} (laws : crates.Lawful) {db : NamedLocalStoreDb}
    {action : TimedOp} (haction : IsGcAction crates action) (hcount : db.CountInv)
    (h : GcInv crates db) : GcInv crates (db.step crates action) := by
  obtain ⟨now, op⟩ := action
  cases op with
  | setChunkItem item => exact h.congr fun _ => sameAt_objects rfl rfl rfl rfl
  | removeChunk chunkId => exact absurd haction id
  | setObject objId objType objStr =>
      exact h.putObjectInTx hcount objId (canonicalKey_of_accepted laws haction) _ _ _ _ _
  | putObjectGcAware objId objType objStr =>
      exact h.putObjectInTx hcount objId (canonicalKey_of_accepted laws haction) _ _ _ _ _
  | removeObject objId => exact absurd haction id
  | pin objId owner scope ttl =>
      obtain ⟨haccepted, rfl⟩ := haction
      have hcanonical := canonicalKey_of_accepted laws haccepted
      exact gcInv_refreshTx h (fun k' hk' => sameAt_insertPinTx db now owner scope none hk')
        ((h _).1.insertPinTx now hcanonical owner scope)
  | unpin objId owner => exact h.unpin now objId owner
  | unpinOwner owner => exact h.deletePinsTx now _
  | fsAcquire objId inodeId fieldTag =>
      have hcanonical := canonicalKey_of_accepted laws haction
      exact gcInv_refreshTx h
        (fun k' hk' => sameAt_acquireAnchorTx db now inodeId fieldTag hk')
        ((h _).1.acquireAnchorTx now hcanonical inodeId fieldTag)
  | fsRelease objId inodeId fieldTag =>
      exact gcInv_refreshTx h (fun k' hk' => sameAt_releaseAnchorTx db inodeId fieldTag hk')
        ((h _).1.releaseAnchorTx inodeId fieldTag)
  | fsReleaseInode inodeId => exact h.fsReleaseInode now inodeId
  | applyEdge msg =>
      have hcanonical := canonicalKey_of_accepted laws haction
      exact gcInv_refreshTx h (fun k' hk' => sameAt_applyEdgeRefTx db now _ _ _ hk')
        ((h _).1.applyEdgeRefTx now hcanonical _ _ _)
  | completeOutboxEntry seq => exact h.congr fun _ => sameAt_objects rfl rfl rfl rfl
  | retryOutboxEntry seq => exact h.congr fun _ => sameAt_objects rfl rfl rfl rfl
  | tryEvictObject objIdStr => exact h.tryEvictObject hcount now objIdStr
  | batchTouchLastAccessWithMax items =>
      exact h.congr fun k' => SameAt.batchTouchLastAccessWithMax db items k'
  | expirePins => exact h.deletePinsTx now _

/-- The columns of every row are the functions of the facts that they are meant
to be. -/
structure Materialised (db : NamedLocalStoreDb) : Prop where
  anchorCount : ∀ row ∈ db.objects.rows, row.fsAnchorCount = db.fsAnchorRows row.objId
  evictionClass : ∀ row ∈ db.objects.rows, row.evictionClass =
    if db.HasPin row.objId ∨ db.HasFsAnchor row.objId then 2
    else if db.HasIncoming row.objId then 1
    else 0
  childrenExpanded : ∀ row ∈ db.objects.rows, row.childrenExpanded = true ↔
    row.state = .present ∧ ¬ db.HasScopedPin .skeleton row.objId ∧
      (db.HasScopedPin .recursive row.objId ∨ db.HasFsAnchor row.objId ∨
        db.HasIncoming row.objId)
  pinCascade : ∀ row ∈ db.objects.rows, ∀ p ∈ db.pins.rows, p.objId = row.objId →
    p.scope = .recursive → (p.cascadeState = .pending ↔ row.state ≠ .present)
  anchorCascade : ∀ row ∈ db.objects.rows, ∀ a ∈ db.fsAnchors.rows, a.objId = row.objId →
    (a.cascadeState = .pending ↔ row.state ≠ .present)
  shadowOwned : ∀ row ∈ db.objects.rows, row.state = .shadow → row.ownedBytes = 0
  tracked : ∀ k, db.HasPin k ∨ db.HasFsAnchor k ∨ db.HasIncoming k →
    ∃ row ∈ db.objects.rows, row.objId = k

/-- The invariant says what the columns are. -/
theorem GcInv.materialised {crates : Crates} {db : NamedLocalStoreDb}
    (h : GcInv crates db) (hcount : db.CountInv) : Materialised db := by
  have hfind : ∀ row ∈ db.objects.rows, db.objects.find? row.objId = some row :=
    fun row hrow => Table.find?_key_of_mem hrow
  constructor
  · intro row hrow
    exact (hcount row.objId).count row (hfind row hrow)
  · intro row hrow
    rw [((h row.objId).2 row (hfind row hrow)).1]
    unfold evictionClassTx
    simp only [Bool.or_eq_true, decide_eq_true_eq, (h row.objId).1.hasActivePinTx_iff_hasPin,
      gt_iff_lt, hcount.getFsAnchorCountTx_pos_iff, hasIncomingTx_iff]
  · intro row hrow
    have hstate : db.getItemStateTx row.objId = some row.state := by
      rw [getItemStateTx, hfind row hrow, Option.map_some]
    rw [((h row.objId).2 row (hfind row hrow)).2, wantExpandedTx_iff, hstate,
      Option.some.injEq, ← Bool.not_eq_true, hasSkeletonPinTx, hasRecursivePinTx,
      (h row.objId).1.hasScopedPinTx_iff_hasScopedPin,
      (h row.objId).1.hasScopedPinTx_iff_hasScopedPin, hcount.getFsAnchorCountTx_pos_iff,
      hasIncomingTx_iff]
  · intro row hrow
    exact (h row.objId).1.pinCascade row (hfind row hrow)
  · intro row hrow
    exact (h row.objId).1.anchorCascade row (hfind row hrow)
  · intro row hrow
    exact (h row.objId).1.shadowOwned row (hfind row hrow)
  · intro k htracked
    obtain ⟨row, hrow⟩ := (h k).1.tracked htracked
    exact ⟨row, Table.find?_eq_some_iff.mp hrow⟩

/-- The two invariants together. -/
structure GcState (crates : Crates) (db : NamedLocalStoreDb) : Prop where
  count : db.CountInv
  gc : GcInv crates db

theorem GcState.step {crates : Crates} (laws : crates.Lawful) {db : NamedLocalStoreDb}
    {action : TimedOp} (haction : IsGcAction crates action) (h : GcState crates db) :
    GcState crates (db.step crates action) := by
  refine ⟨h.count.step ?_, h.gc.step laws haction h.count⟩
  obtain ⟨now, op⟩ := action
  cases op with
  | removeObject objId => exact absurd haction id
  | _ => rfl

/-- In every state that a run of garbage-collection actions reaches, the columns
of every row are the functions of the facts that they are meant to be. -/
theorem run_materialised (crates : Crates) (laws : crates.Lawful) (actions : List TimedOp)
    (hactions : ∀ action ∈ actions, IsGcAction crates action) :
    Materialised (run (step crates) empty actions) := by
  have h : GcState crates (run (step crates) empty actions) :=
    run_invariant_of_forall (fun _ _ haction h => h.step laws haction) hactions
      ⟨countInv_empty, gcInv_empty crates⟩
  exact h.gc.materialised h.count

/-- A run that pins and anchors a package before it arrives, refers to it, and
sweeps and evicts in between. -/
def sampleGcRun : List TimedOp :=
  [⟨1, .pin samplePackage "app" .recursive none⟩, ⟨2, .fsAcquire samplePackage 7 0⟩,
    ⟨3, .setObject samplePackage "pkg" "x"⟩, ⟨4, .applyEdge ⟨.add, samplePackage, ⟨"pkg", [2]⟩, 1⟩⟩,
    ⟨5, .expirePins⟩, ⟨6, .unpinOwner "app"⟩, ⟨7, .tryEvictObject "pkg:01"⟩,
    ⟨8, .fsReleaseInode 7⟩]

theorem samplePackage_accepted : samplePackage.Accepted sampleCrates :=
  ⟨"pkg:01", by decide⟩

/-- The package of the sample run ends with class 1 and is still expanded. -/
theorem sampleGcRun_materialised :
    Materialised (run (step sampleCrates) empty sampleGcRun) ∧
      ((run (step sampleCrates) empty sampleGcRun).objects.find? "pkg:01").map
        (fun row => (row.evictionClass, row.childrenExpanded, row.fsAnchorCount)) =
          some (1, true, 0) := by
  constructor
  · apply run_materialised sampleCrates sampleCrates_lawful
    intro action haction
    simp only [sampleGcRun, List.mem_cons, List.not_mem_nil, or_false] at haction
    rcases haction with rfl | rfl | rfl | rfl | rfl | rfl | rfl | rfl
    · exact ⟨samplePackage_accepted, rfl⟩
    · exact samplePackage_accepted
    · exact samplePackage_accepted
    · exact samplePackage_accepted
    all_goals trivial
  · decide

end NamedLocalStoreDb

end NamedStore
end CyfsNdn

import CyfsNdn.NamedStore.StoreDbFacts
import CyfsNdn.NdnLib.SampleCrates
import CyfsNdn.Transition.Run

/-!
# The anchor count and the eviction red line

`try_evict_object` reads the protection of an object from two tables, `pins` and
`incoming_refs`, and from one denormalised column, `fs_anchor_count`.  The
eviction is therefore safe exactly as long as that column counts the rows of
`fs_anchors`.  `CountAt` states this for one key, together with the fact that a
key without a row has no anchor.

Every operation preserves it but one: `remove_object` deletes the row and leaves
the anchors, and the row that a later put inserts starts from zero.
-/

namespace CyfsNdn
namespace NamedStore

open NdnLib Relational Transition

namespace NamedLocalStoreDb

/-- The count column of a key agrees with its anchors. -/
structure CountAt (db : NamedLocalStoreDb) (k : String) : Prop where
  count : ∀ row, db.objects.find? k = some row → row.fsAnchorCount = db.fsAnchorRows k
  settled : ∀ row, db.objects.find? k = some row →
    row.state = .present ∨ row.state = .shadow
  orphan : db.objects.find? k = none → db.fsAnchorRows k = 0

/-- The count column agrees with the anchors at every key. -/
def CountInv (db : NamedLocalStoreDb) : Prop :=
  ∀ k, db.CountAt k

/-- The two columns that `CountAt` reads. -/
def countColumns (r : ObjectRow) : Int × ItemState :=
  (r.fsAnchorCount, r.state)

theorem CountAt.congr {db db' : NamedLocalStoreDb} {k : String} (h : db.CountAt k)
    (hrow : (db'.objects.find? k).map countColumns = (db.objects.find? k).map countColumns)
    (hanchors : db'.fsAnchorRows k = db.fsAnchorRows k) : db'.CountAt k := by
  cases hold : db.objects.find? k with
  | none =>
      rw [hold, Option.map_none, Option.map_eq_none_iff] at hrow
      constructor
      · simp [hrow]
      · simp [hrow]
      · intro _
        rw [hanchors]
        exact h.orphan hold
  | some row =>
      rw [hold, Option.map_some, Option.map_eq_some_iff] at hrow
      obtain ⟨row', hnew, hcolumns⟩ := hrow
      simp only [countColumns, Prod.mk.injEq] at hcolumns
      constructor
      · intro r hr
        rw [hnew, Option.some.injEq] at hr
        rw [← hr, hcolumns.1, hanchors]
        exact h.count row hold
      · intro r hr
        rw [hnew, Option.some.injEq] at hr
        rw [← hr, hcolumns.2]
        exact h.settled row hold
      · simp [hnew]

theorem CountInv.congr {db db' : NamedLocalStoreDb} (h : db.CountInv)
    (hrows : ∀ k, (db'.objects.find? k).map countColumns =
      (db.objects.find? k).map countColumns)
    (hanchors : db'.fsAnchors = db.fsAnchors) : db'.CountInv := by
  intro k
  refine (h k).congr (hrows k) ?_
  unfold fsAnchorRows
  rw [hanchors]

theorem CountInv.of_sameFacts {db db' : NamedLocalStoreDb} (h : db.CountInv)
    (hfacts : SameFacts db db') : db'.CountInv := by
  refine h.congr (fun k => hfacts.map_find? countColumns ?_ k) hfacts.fsAnchors
  intro r s hrs
  obtain ⟨-, -, -, hstate, hcount, -⟩ := ObjectRow.core_inj_on hrs
  rw [countColumns, countColumns, hcount, hstate]

/-- With the invariant, a count of zero means that there is no anchor. -/
theorem CountInv.not_hasFsAnchor {db : NamedLocalStoreDb} (h : db.CountInv) {k : String}
    (hcount : ¬ 0 < db.getFsAnchorCountTx k) : ¬ db.HasFsAnchor k := by
  rw [← fsAnchorRows_pos]
  intro hpos
  cases hrow : db.objects.find? k with
  | none =>
      have hzero := (h k).orphan hrow
      omega
  | some row =>
      have hcountRow := (h k).count row hrow
      simp only [getFsAnchorCountTx, hrow, Option.map_some, Option.getD_some] at hcount
      omega

/-- The count column is positive exactly for a key with an anchor. -/
theorem CountInv.getFsAnchorCountTx_pos_iff {db : NamedLocalStoreDb} (h : db.CountInv)
    {k : String} : 0 < db.getFsAnchorCountTx k ↔ db.HasFsAnchor k := by
  constructor
  · intro hpos
    rw [← fsAnchorRows_pos]
    unfold getFsAnchorCountTx at hpos
    cases hrow : db.objects.find? k with
    | none => simp [hrow] at hpos
    | some row =>
        have hcount := (h k).count row hrow
        simp only [hrow, Option.map_some, Option.getD_some] at hpos
        omega
  · intro hanchor
    by_contra hcount
    exact h.not_hasFsAnchor hcount hanchor

theorem countInv_empty : CountInv empty := by
  intro k
  constructor
  · simp [empty]
  · simp [empty]
  · intro _
    rfl

/-! ## One lemma for each operation -/

section Steps

variable {db : NamedLocalStoreDb}

theorem CountInv.updateObject (h : db.CountInv) (k : String) (f : ObjectRow → ObjectRow)
    (hf : ∀ r, (f r).objId = r.objId) (hcolumns : ∀ r, countColumns (f r) = countColumns r) :
    (db.updateObject k f hf).CountInv := by
  refine h.congr ?_ rfl
  intro k'
  rw [find?_updateObject]
  split_ifs
  · rw [Option.map_map]
    congr 1
    funext r
    exact hcolumns r
  · rfl

theorem CountInv.touchLastAccessTx (h : db.CountInv) (k : String) (ts : Nat) :
    (db.touchLastAccessTx k ts).CountInv := by
  unfold NamedLocalStoreDb.touchLastAccessTx
  refine h.updateObject k _ _ ?_
  intro r
  simp only [countColumns]

/-- A row with count zero may be put where there is no anchor. -/
theorem CountAt.of_row_eq {k : String} {row : ObjectRow}
    (hrow : db.objects.find? k = some row) (hcount : row.fsAnchorCount = 0)
    (hstate : row.state = .present ∨ row.state = .shadow)
    (hanchors : db.fsAnchorRows k = 0) : db.CountAt k where
  count := by
    intro r hr
    rw [hrow, Option.some.injEq] at hr
    rw [← hr, hcount, hanchors]
    rfl
  settled := by
    intro r hr
    rw [hrow, Option.some.injEq] at hr
    rw [← hr]
    exact hstate
  orphan := by simp [hrow]

/-- A key without a row and without anchors. -/
theorem CountAt.of_find?_eq_none {k : String} (hrow : db.objects.find? k = none)
    (hanchors : db.fsAnchorRows k = 0) : db.CountAt k where
  count := by simp [hrow]
  settled := by simp [hrow]
  orphan := fun _ => hanchors

/-- A shadow row is inserted only where there was no row, hence no anchor. -/
theorem CountInv.upsertShadowIfAbsentTx (h : db.CountInv) (now : Nat) (k : String) :
    (db.upsertShadowIfAbsentTx now k).CountInv := by
  intro k'
  have hfind := find?_upsertShadowIfAbsentTx db now k k'
  by_cases hk : k' = k
  · subst hk
    rw [if_pos rfl] at hfind
    cases hold : db.objects.find? k' with
    | none =>
        rw [hold, Option.getD_none] at hfind
        exact CountAt.of_row_eq hfind rfl (Or.inr rfl) ((h k').orphan hold)
    | some row =>
        rw [hold, Option.getD_some] at hfind
        exact (h k').congr (by rw [hfind, hold]) rfl
  · rw [if_neg hk] at hfind
    exact (h k').congr (by rw [hfind]) rfl

/-- Filling a shadow keeps its count, and promotion keeps every anchor. -/
theorem CountInv.fillShadowTx (h : db.CountInv) (now : Nat) (k objType objStr : String)
    (logicalSize ownedBytes : Int) :
    ((db.fillShadowTx now k objType objStr logicalSize
      ownedBytes).promoteAnchorCascadeStateOnPresentTx k).CountInv := by
  intro k'
  have hanchors : ((db.fillShadowTx now k objType objStr logicalSize
      ownedBytes).promoteAnchorCascadeStateOnPresentTx k).fsAnchorRows k' =
        db.fsAnchorRows k' := by
    unfold fsAnchorRows promoteAnchorCascadeStateOnPresentTx
    simp only
    rw [Table.countWhere_updateWhere]
    · rfl
    · intro a
      rfl
  have hfind : ∀ row, ((db.fillShadowTx now k objType objStr logicalSize
      ownedBytes).promoteAnchorCascadeStateOnPresentTx k).objects.find? k' = some row →
        ∃ old, db.objects.find? k' = some old ∧ row.fsAnchorCount = old.fsAnchorCount ∧
          (row.state = .present ∨ row.state = old.state) := by
    intro row hrow
    change (db.fillShadowTx now k objType objStr logicalSize ownedBytes).objects.find? k' =
      some row at hrow
    rw [find?_fillShadowTx] at hrow
    split_ifs at hrow
    · obtain ⟨old, hold, rfl⟩ := Option.map_eq_some_iff.mp hrow
      exact ⟨old, hold, rfl, Or.inl rfl⟩
    · exact ⟨row, hrow, rfl, Or.inr rfl⟩
  constructor
  · intro row hrow
    obtain ⟨old, hold, hcount, -⟩ := hfind row hrow
    rw [hcount, hanchors]
    exact (h k').count old hold
  · intro row hrow
    obtain ⟨old, hold, -, hstate⟩ := hfind row hrow
    rcases hstate with hstate | hstate
    · exact Or.inl hstate
    · rw [hstate]
      exact (h k').settled old hold
  · intro hnone
    rw [hanchors]
    apply (h k').orphan
    change (db.fillShadowTx now k objType objStr logicalSize ownedBytes).objects.find? k' =
      none at hnone
    rw [find?_fillShadowTx] at hnone
    split_ifs at hnone
    · exact Option.map_eq_none_iff.mp hnone
    · exact hnone

/-- The row that a put inserts replaces none, because the rows of `objects` are
present or shadow. -/
theorem CountInv.find?_eq_none_of_not_settled (h : db.CountInv) {k : String}
    (hpresent : db.getItemStateTx k ≠ some .present)
    (hshadow : db.getItemStateTx k ≠ some .shadow) : db.objects.find? k = none := by
  cases hrow : db.objects.find? k with
  | none => rfl
  | some row =>
      rcases (h k).settled row hrow with hstate | hstate
      · exact absurd (by simp [getItemStateTx, hrow, hstate]) hpresent
      · exact absurd (by simp [getItemStateTx, hrow, hstate]) hshadow

theorem CountInv.putObjectInTx (h : db.CountInv) (crates : Crates) (objId : ObjId)
    (objType objStr : String) (now : Nat) (logicalSize ownedBytes : Int) :
    (db.putObjectInTx crates objId objType objStr now logicalSize
      ownedBytes).1.CountInv := by
  unfold NamedLocalStoreDb.putObjectInTx
  simp only
  split
  · exact h.touchLastAccessTx _ _
  · exact (h.fillShadowTx _ _ _ _ _ _).of_sameFacts (sameFacts_refreshTx crates _ now objId)
  · next hpresent hshadow =>
    intro k
    have hfind := find?_insertOrReplace_presentRow db now (objId.toString crates) objType
      objStr logicalSize ownedBytes k
    by_cases hk : k = objId.toString crates
    · rw [if_pos hk] at hfind
      have hnone := h.find?_eq_none_of_not_settled hpresent hshadow
      exact CountAt.of_row_eq hfind rfl (Or.inl rfl) ((h k).orphan (hk ▸ hnone))
    · rw [if_neg hk] at hfind
      exact (h k).congr (congrArg (Option.map countColumns) hfind) rfl

theorem CountInv.deletePinsTx (h : db.CountInv) (crates : Crates) (now : Nat)
    (p : PinRow → Bool) :
    (db.deletePinsTx crates now p).1.CountInv := by
  refine CountInv.of_sameFacts ?_ (sameFacts_foldl_refreshTextTx crates _ now _)
  exact h.congr (fun _ => rfl) rfl

theorem CountInv.pin (h : db.CountInv) (crates : Crates) (now : Nat) (objId : ObjId)
    (owner : String) (scope : PinScope) (ttl : Option Nat) :
    (db.pin crates now objId owner scope ttl).CountInv := by
  refine CountInv.of_sameFacts ?_ (sameFacts_refreshTx crates _ now objId)
  exact (h.upsertShadowIfAbsentTx _ _).congr (fun _ => rfl) rfl

theorem CountInv.unpin (h : db.CountInv) (crates : Crates) (now : Nat) (objId : ObjId)
    (owner : String) : (db.unpin crates now objId owner).CountInv := by
  unfold NamedLocalStoreDb.unpin
  simp only
  split_ifs
  · refine CountInv.of_sameFacts ?_ (sameFacts_refreshTx crates _ now objId)
    exact h.congr (fun _ => rfl) rfl
  · exact h.congr (fun _ => rfl) rfl

theorem CountInv.applyEdge (h : db.CountInv) (crates : Crates) (now : Nat)
    (msg : EdgeMsg) :
    (db.applyEdge crates now msg).CountInv := by
  refine CountInv.of_sameFacts ?_ (sameFacts_refreshTx crates _ now msg.referee)
  unfold applyEdgeRefTx
  cases msg.op with
  | add => exact (h.upsertShadowIfAbsentTx _ _).congr (fun _ => rfl) rfl
  | remove => exact (h.upsertShadowIfAbsentTx _ _).congr (fun _ => rfl) rfl

/-- The count of a key may change together with its anchors. -/
theorem CountAt.updateFsAnchorCountTx {db' : NamedLocalStoreDb} {k : String}
    (h : db.CountAt k) (f : Int → Int) (hobjects : db'.objects = db.objects)
    (hanchors : f (db.fsAnchorRows k) = db'.fsAnchorRows k)
    (horphan : db.objects.find? k = none → db'.fsAnchorRows k = 0) :
    (db'.updateFsAnchorCountTx k f).CountAt k := by
  have hfind := find?_updateFsAnchorCountTx db' k f k
  rw [if_pos rfl, hobjects] at hfind
  constructor
  · intro row hrow
    rw [hfind] at hrow
    obtain ⟨old, hold, rfl⟩ := Option.map_eq_some_iff.mp hrow
    show f old.fsAnchorCount = _
    rw [h.count old hold, hanchors]
    rfl
  · intro row hrow
    rw [hfind] at hrow
    obtain ⟨old, hold, rfl⟩ := Option.map_eq_some_iff.mp hrow
    exact h.settled old hold
  · intro hnone
    rw [hfind, Option.map_eq_none_iff] at hnone
    exact horphan hnone

theorem CountAt.updateFsAnchorCountTx_of_ne {k k' : String} (h : db.CountAt k')
    (f : Int → Int) (hk : k' ≠ k) : (db.updateFsAnchorCountTx k f).CountAt k' := by
  refine h.congr ?_ rfl
  rw [find?_updateFsAnchorCountTx, if_neg hk]

/-- Taking an anchor that is new adds one row and one to the count. -/
theorem CountInv.acquireAnchorTx (h : db.CountInv) (now : Nat) (k : String)
    (inodeId : UInt64) (fieldTag : UInt32) :
    (db.acquireAnchorTx now k inodeId fieldTag).CountInv := by
  have hshadowed := h.upsertShadowIfAbsentTx now k
  have hrow : (db.upsertShadowIfAbsentTx now k).objects.find? k ≠ none := by
    simp [find?_upsertShadowIfAbsentTx]
  unfold NamedLocalStoreDb.acquireAnchorTx
  simp only
  generalize db.upsertShadowIfAbsentTx now k = shadowed at hshadowed hrow ⊢
  have hobjId : (shadowed.newFsAnchorRow now k inodeId fieldTag).objId = k := rfl
  generalize shadowed.newFsAnchorRow now k inodeId fieldTag = anchor at hobjId ⊢
  have hrows := fun k' => Table.countWhere_insertOrIgnore shadowed.fsAnchors anchor
    fun a => a.objId = k'
  split_ifs with hnew
  · rw [Table.insertOrIgnoreCount_pos] at hnew
    intro k'
    by_cases hk : k' = k
    · subst hk
      have hplus : Table.countWhere (Table.insertOrIgnore shadowed.fsAnchors anchor)
          (fun a => a.objId = k') = shadowed.fsAnchorRows k' + 1 := by
        rw [hrows k', if_pos ⟨hnew, by simpa using hobjId⟩]
        rfl
      refine (hshadowed k').updateFsAnchorCountTx _ rfl ?_ ?_
      · show ((shadowed.fsAnchorRows k' : Int) + 1) = (Table.countWhere _ _ : Nat)
        rw [hplus]
        rfl
      · intro hnone
        exact absurd hnone hrow
    · refine CountAt.updateFsAnchorCountTx_of_ne ?_ _ hk
      refine (hshadowed k').congr rfl ?_
      show Table.countWhere _ _ = _
      rw [hrows k', if_neg]
      · rfl
      · rintro ⟨-, hobj⟩
        rw [hobjId] at hobj
        exact hk (by simpa using Eq.symm (of_decide_eq_true hobj))
  · rw [Table.insertOrIgnoreCount_pos] at hnew
    obtain ⟨old, hold⟩ := Option.ne_none_iff_exists'.mp hnew
    refine hshadowed.congr (fun _ => rfl) ?_
    exact Table.insertOrIgnore_of_find?_some hold

/-- Releasing an anchor that exists removes one row and one from the count. -/
theorem CountInv.releaseAnchorTx (h : db.CountInv) (k : String) (inodeId : UInt64)
    (fieldTag : UInt32) : (db.releaseAnchorTx k inodeId fieldTag).CountInv := by
  unfold NamedLocalStoreDb.releaseAnchorTx
  simp only
  have hrows := fun k' => Table.countWhere_deleteKey db.fsAnchors (k, inodeId, fieldTag)
    fun a => a.objId = k'
  split_ifs with hdeleted
  · obtain ⟨anchor, hanchor, hkey⟩ := Table.countWhere_pos.mp hdeleted
    have hkey' : anchor.key = (k, inodeId, fieldTag) := by simpa using hkey
    have hobjId : anchor.objId = k := congrArg Prod.fst hkey'
    have hfind : db.fsAnchors.find? (k, inodeId, fieldTag) = some anchor :=
      Table.find?_eq_some_iff.mpr ⟨hanchor, hkey'⟩
    intro k'
    have hcount := hrows k'
    rw [hfind] at hcount
    by_cases hk : k' = k
    · subst hk
      have hminus : db.fsAnchorRows k' = Table.countWhere
          (db.fsAnchors.deleteKey (k', inodeId, fieldTag)) (fun a => a.objId = k') + 1 := by
        simpa [fsAnchorRows, hobjId] using hcount
      refine (h k').updateFsAnchorCountTx _ rfl ?_ ?_
      · show max 0 ((db.fsAnchorRows k' : Int) - 1) = (Table.countWhere _ _ : Nat)
        rw [hminus]
        simp
      · intro hnone
        have hzero := (h k').orphan hnone
        omega
    · refine CountAt.updateFsAnchorCountTx_of_ne ?_ _ hk
      refine (h k').congr rfl ?_
      have hne : anchor.objId ≠ k' := fun heq => hk (heq.symm.trans hobjId)
      simpa [fsAnchorRows, hne] using hcount.symm
  · -- No row has the key, so the deletion changes nothing.
    intro k'
    refine (h k').congr rfl ?_
    have hnone : db.fsAnchors.find? (k, inodeId, fieldTag) = none := by
      rw [Table.find?_eq_none_iff]
      intro a ha hkey
      exact hdeleted (Table.countWhere_pos.mpr ⟨a, ha, by simpa using hkey⟩)
    have hcount := hrows k'
    rw [hnone] at hcount
    simpa [fsAnchorRows] using hcount.symm

/-- The first loop of `fs_release_inode` writes the `objects` table only. -/
theorem foldl_dropInodeCountTx_eq (inodeId : UInt64) (oidStrs : List String)
    (db : NamedLocalStoreDb) :
    oidStrs.foldl (dropInodeCountTx inodeId) db =
      { db with objects := (oidStrs.foldl (dropInodeCountTx inodeId) db).objects } := by
  induction oidStrs generalizing db with
  | nil => rfl
  | cons oidStr rest ih =>
      rw [List.foldl_cons, ih]
      rfl

theorem releaseInodeTx_pins (db : NamedLocalStoreDb) (inodeId : UInt64) :
    (db.releaseInodeTx inodeId).pins = db.pins := by
  unfold NamedLocalStoreDb.releaseInodeTx
  simp only
  rw [foldl_dropInodeCountTx_eq]

theorem releaseInodeTx_incomingRefs (db : NamedLocalStoreDb) (inodeId : UInt64) :
    (db.releaseInodeTx inodeId).incomingRefs = db.incomingRefs := by
  unfold NamedLocalStoreDb.releaseInodeTx
  simp only
  rw [foldl_dropInodeCountTx_eq]

theorem releaseInodeTx_fsAnchors (db : NamedLocalStoreDb) (inodeId : UInt64) :
    (db.releaseInodeTx inodeId).fsAnchors =
      db.fsAnchors.deleteWhere fun a => a.inodeId = inodeId := by
  unfold NamedLocalStoreDb.releaseInodeTx
  simp only
  rw [foldl_dropInodeCountTx_eq]

/-- The first loop lowers the count of every listed object once. -/
theorem find?_foldl_dropInodeCountTx (inodeId : UInt64) (oidStrs : List String)
    (hnodup : oidStrs.Nodup) (db : NamedLocalStoreDb) (k : String) :
    (oidStrs.foldl (dropInodeCountTx inodeId) db).objects.find? k =
      if k ∈ oidStrs then
        (db.objects.find? k).map fun r =>
          { r with
            fsAnchorCount := max 0 (r.fsAnchorCount -
              (db.fsAnchors.countWhere fun a => a.objId = k && a.inodeId = inodeId)) }
      else db.objects.find? k := by
  induction oidStrs generalizing db with
  | nil => rfl
  | cons oidStr rest ih =>
      rw [List.nodup_cons] at hnodup
      rw [List.foldl_cons, ih hnodup.2]
      have hstep := find?_updateFsAnchorCountTx db oidStr (fun n => max 0 (n -
        (db.fsAnchors.countWhere fun a => a.objId = oidStr && a.inodeId = inodeId))) k
      change (db.dropInodeCountTx inodeId oidStr).objects.find? k = _ at hstep
      have hanchors : (db.dropInodeCountTx inodeId oidStr).fsAnchors = db.fsAnchors := rfl
      rw [hstep, hanchors]
      by_cases hk : k = oidStr
      · subst hk
        simp [hnodup.1]
      · simp [hk]

theorem find?_releaseInodeTx (db : NamedLocalStoreDb) (inodeId : UInt64) (k : String) :
    (db.releaseInodeTx inodeId).objects.find? k =
      if k ∈ db.inodeObjIds inodeId then
        (db.objects.find? k).map fun r =>
          { r with
            fsAnchorCount := max 0 (r.fsAnchorCount -
              (db.fsAnchors.countWhere fun a => a.objId = k && a.inodeId = inodeId)) }
      else db.objects.find? k :=
  find?_foldl_dropInodeCountTx inodeId _ (List.nodup_dedup _) db k

/-- An object that is not listed has no anchor of the inode. -/
theorem mem_inodeObjIds {db : NamedLocalStoreDb} {inodeId : UInt64} {k : String} :
    k ∈ db.inodeObjIds inodeId ↔
      ∃ a ∈ db.fsAnchors.rows, a.inodeId = inodeId ∧ a.objId = k := by
  rw [inodeObjIds, List.mem_dedup, List.mem_map]
  constructor
  · rintro ⟨a, ha, hak⟩
    rw [List.mem_filter, decide_eq_true_iff] at ha
    exact ⟨a, ha.1, ha.2, hak⟩
  · rintro ⟨a, ha, hinode, hak⟩
    exact ⟨a, List.mem_filter.mpr ⟨ha, decide_eq_true hinode⟩, hak⟩

theorem sameAt_releaseInodeTx (db : NamedLocalStoreDb) {inodeId : UInt64} {k : String}
    (hk : k ∉ db.inodeObjIds inodeId) : SameAt db (db.releaseInodeTx inodeId) k where
  row := by rw [find?_releaseInodeTx, if_neg hk]
  pins := fun _ _ => by rw [releaseInodeTx_pins]
  anchors := by
    intro a ha
    rw [releaseInodeTx_fsAnchors, Table.mem_deleteWhere, decide_eq_false_iff_not]
    refine and_iff_left_of_imp fun hrow hinode => hk ?_
    exact mem_inodeObjIds.mpr ⟨a, hrow, hinode, ha⟩
  incoming := fun _ _ => by rw [releaseInodeTx_incomingRefs]

/-- The anchors of one inode are taken off the counts before the rows go. -/
theorem CountInv.releaseInodeTx (h : db.CountInv) (inodeId : UInt64) :
    (db.releaseInodeTx inodeId).CountInv := by
  intro k
  have hfind := find?_releaseInodeTx db inodeId k
  have hsplit : db.fsAnchorRows k = (db.releaseInodeTx inodeId).fsAnchorRows k +
      db.fsAnchors.countWhere fun a => a.objId = k && a.inodeId = inodeId := by
    unfold fsAnchorRows
    rw [releaseInodeTx_fsAnchors]
    exact Table.countWhere_eq_add_deleteWhere db.fsAnchors _ _
  by_cases hk : k ∈ db.inodeObjIds inodeId
  · rw [if_pos hk] at hfind
    constructor
    · intro row hrow
      rw [hfind] at hrow
      obtain ⟨old, hold, rfl⟩ := Option.map_eq_some_iff.mp hrow
      have hcount := (h k).count old hold
      show max 0 (old.fsAnchorCount - _) = _
      omega
    · intro row hrow
      rw [hfind] at hrow
      obtain ⟨old, hold, rfl⟩ := Option.map_eq_some_iff.mp hrow
      exact (h k).settled old hold
    · intro hnone
      rw [hfind, Option.map_eq_none_iff] at hnone
      have hzero := (h k).orphan hnone
      omega
  · rw [if_neg hk] at hfind
    have hzero : (db.fsAnchors.countWhere fun a =>
        a.objId = k && a.inodeId = inodeId) = 0 := by
      refine Nat.eq_zero_of_not_pos ?_
      rw [Table.countWhere_pos]
      rintro ⟨a, ha, hclause⟩
      rw [Bool.and_eq_true, decide_eq_true_iff, decide_eq_true_iff] at hclause
      exact hk (mem_inodeObjIds.mpr ⟨a, ha, hclause.2, hclause.1⟩)
    refine (h k).congr (congrArg (Option.map countColumns) hfind) ?_
    omega

/-- Eviction deletes the row of an object whose count is zero. -/
theorem CountInv.tryEvictObject (h : db.CountInv) (now : Nat) (k : String) :
    (db.tryEvictObject now k).1.CountInv := by
  unfold NamedLocalStoreDb.tryEvictObject
  split_ifs with hprotected
  · exact h.of_sameFacts (sameFacts_recomputeEvictionClassTx db now k)
  · intro k'
    have hfind := Table.find?_deleteKey db.objects k k'
    by_cases hk : k' = k
    · subst hk
      rw [if_pos rfl] at hfind
      have hcount : ¬ 0 < db.getFsAnchorCountTx k' := by
        intro hpos
        apply hprotected
        simp [isProtectedTx, hpos]
      have hanchors : db.fsAnchorRows k' = 0 := by
        have hnone := h.not_hasFsAnchor hcount
        rw [← fsAnchorRows_pos] at hnone
        omega
      exact CountAt.of_find?_eq_none hfind hanchors
    · rw [if_neg hk] at hfind
      exact (h k').congr (congrArg (Option.map countColumns) hfind) rfl

/-- Removing a row that is not anchored. -/
theorem CountInv.removeObject (h : db.CountInv) (crates : Crates) (objId : ObjId)
    (hunanchored : ¬ db.HasFsAnchor (objId.toString crates)) :
    (db.removeObject crates objId).CountInv := by
  intro k
  have hfind := Table.find?_deleteKey db.objects (objId.toString crates) k
  by_cases hk : k = objId.toString crates
  · subst hk
    rw [if_pos rfl] at hfind
    rw [← fsAnchorRows_pos] at hunanchored
    exact CountAt.of_find?_eq_none hfind (Nat.eq_zero_of_not_pos hunanchored)
  · rw [if_neg hk] at hfind
    exact (h k).congr (congrArg (Option.map countColumns) hfind) rfl

theorem CountInv.batchTouchLastAccessWithMax (h : db.CountInv)
    (items : List (String × Nat)) : (db.batchTouchLastAccessWithMax items).CountInv := by
  unfold NamedLocalStoreDb.batchTouchLastAccessWithMax
  induction items generalizing db with
  | nil => exact h
  | cons item rest ih => exact ih (h.touchLastAccessTx item.1 item.2)

end Steps

/-! ## Runs -/

/-- The step removes, with `remove_object`, a row that has an anchor. -/
def removesAnchoredRow (crates : Crates) (db : NamedLocalStoreDb) (action : TimedOp) : Bool :=
  match action.op with
  | .removeObject objId =>
      (db.objects.find? (objId.toString crates)).isSome &&
        decide (db.HasFsAnchor (objId.toString crates))
  | _ => false

/-- Every other step keeps the count column right. -/
theorem CountInv.step {crates : Crates} {db : NamedLocalStoreDb} {action : TimedOp}
    (hallowed : removesAnchoredRow crates db action = false) (h : db.CountInv) :
    (db.step crates action).CountInv := by
  obtain ⟨now, op⟩ := action
  cases op with
  | setChunkItem item => exact h.congr (fun _ => rfl) rfl
  | removeChunk chunkId => exact h.congr (fun _ => rfl) rfl
  | setObject objId objType objStr => exact h.putObjectInTx crates objId objType objStr now _ _
  | putObjectGcAware objId objType objStr =>
      exact h.putObjectInTx crates objId objType objStr now _ _
  | removeObject objId =>
      apply h.removeObject crates objId
      intro hanchor
      cases hrow : db.objects.find? (objId.toString crates) with
      | none =>
          have hzero := (h _).orphan hrow
          rw [← fsAnchorRows_pos] at hanchor
          omega
      | some row => simp [removesAnchoredRow, hrow, hanchor] at hallowed
  | pin objId owner scope ttl => exact h.pin crates now objId owner scope ttl
  | unpin objId owner => exact h.unpin crates now objId owner
  | unpinOwner owner => exact h.deletePinsTx crates now _
  | fsAcquire objId inodeId fieldTag =>
      exact (h.acquireAnchorTx now _ inodeId fieldTag).of_sameFacts
        (sameFacts_refreshTx crates _ now objId)
  | fsRelease objId inodeId fieldTag =>
      exact (h.releaseAnchorTx _ inodeId fieldTag).of_sameFacts
        (sameFacts_refreshTx crates _ now objId)
  | fsReleaseInode inodeId =>
      exact (h.releaseInodeTx inodeId).of_sameFacts
        (sameFacts_foldl_refreshTextTx crates _ now _)
  | applyEdge msg => exact h.applyEdge crates now msg
  | completeOutboxEntry seq => exact h.congr (fun _ => rfl) rfl
  | retryOutboxEntry seq => exact h.congr (fun _ => rfl) rfl
  | tryEvictObject objIdStr => exact h.tryEvictObject now objIdStr
  | batchTouchLastAccessWithMax items => exact h.batchTouchLastAccessWithMax items
  | expirePins => exact h.deletePinsTx crates now _

/-- With a right count, an eviction that deletes a row deletes an unprotected
one. -/
theorem CountInv.unprotected_of_evicted {db : NamedLocalStoreDb} (h : db.CountInv)
    {now : Nat} {k : String} {row : ObjectRow} (hrow : db.objects.find? k = some row)
    (hgone : (db.tryEvictObject now k).1.objects.find? k = none) :
    ¬ db.HasFsAnchor k ∧ ¬ db.HasActivePin now k ∧ ¬ db.HasIncoming k := by
  unfold NamedLocalStoreDb.tryEvictObject at hgone
  split_ifs at hgone with hprotected
  · rw [find?_recomputeEvictionClassTx, if_pos rfl, hrow] at hgone
    cases hgone
  · simp only [isProtectedTx, Bool.or_eq_true, decide_eq_true_eq, not_or,
      hasActivePinTx_iff, hasIncomingTx_iff] at hprotected
    obtain ⟨⟨hpin, hincoming⟩, hcount⟩ := hprotected
    exact ⟨h.not_hasFsAnchor hcount, hpin, hincoming⟩

/-- The red line: in a run that never removes an anchored row with
`remove_object`, whatever else it does and in whatever order, an eviction at any
time of any text deletes a row only if nothing protects the object. -/
theorem tryEvictObject_deletes_only_unprotected (crates : Crates)
    (actions : List TimedOp)
    (hallowed : Along (step crates)
      (fun db action => removesAnchoredRow crates db action = false) empty actions)
    (now : Nat) (k : String) (row : ObjectRow)
    (hrow : (run (step crates) empty actions).objects.find? k = some row)
    (hgone : ((run (step crates) empty actions).tryEvictObject now k).1.objects.find? k =
      none) :
    ¬ (run (step crates) empty actions).HasFsAnchor k ∧
      ¬ (run (step crates) empty actions).HasActivePin now k ∧
      ¬ (run (step crates) empty actions).HasIncoming k := by
  have hinv : CountInv (run (step crates) empty actions) :=
    run_invariant (fun _ _ hstep h => h.step hstep) hallowed countInv_empty
  exact hinv.unprotected_of_evicted hrow hgone

/-- A package with a one-byte hash. -/
def samplePackage : ObjId := ⟨"pkg", [1]⟩

/-- Two packages: the first one is anchored, pinned for a while, referred to and set free
again, the second one is removed and anchored afterwards. -/
def releasedRun : List TimedOp :=
  [⟨0, .setObject samplePackage "pkg" "x"⟩, ⟨1, .fsAcquire samplePackage 7 0⟩,
    ⟨2, .pin samplePackage "app" .recursive (some 3)⟩,
    ⟨3, .applyEdge ⟨.add, samplePackage, ⟨"pkg", [2]⟩, 1⟩⟩,
    ⟨4, .setObject ⟨"pkg", [2]⟩ "pkg" "y"⟩, ⟨5, .removeObject ⟨"pkg", [2]⟩⟩,
    ⟨6, .fsAcquire ⟨"pkg", [2]⟩ 8 0⟩, ⟨7, .applyEdge ⟨.remove, samplePackage, ⟨"pkg", [2]⟩, 2⟩⟩,
    ⟨8, .fsRelease samplePackage 7 0⟩]

/-- When the pin has expired nothing protects the first package, and it can be evicted;
while the pin lasts it cannot. -/
theorem releasedRun_evicted_unprotected :
    ((run (step sampleCrates) empty releasedRun).tryEvictObject 4 "pkg:01").1.objects.find?
        "pkg:01" ≠ none ∧
      ((run (step sampleCrates) empty releasedRun).tryEvictObject 9 "pkg:01").1.objects.find?
        "pkg:01" = none ∧
      ¬ (run (step sampleCrates) empty releasedRun).HasFsAnchor "pkg:01" ∧
      ¬ (run (step sampleCrates) empty releasedRun).HasActivePin 9 "pkg:01" ∧
      ¬ (run (step sampleCrates) empty releasedRun).HasIncoming "pkg:01" := by
  have hkept : ((run (step sampleCrates) empty releasedRun).tryEvictObject 4
      "pkg:01").1.objects.find? "pkg:01" ≠ none := by
    decide +kernel
  have hpresent : (run (step sampleCrates) empty releasedRun).objects.find? "pkg:01" ≠ none := by
    decide +kernel
  have hgone : ((run (step sampleCrates) empty releasedRun).tryEvictObject 9
      "pkg:01").1.objects.find? "pkg:01" = none := by
    decide +kernel
  obtain ⟨row, hrow⟩ := Option.ne_none_iff_exists'.mp hpresent
  exact ⟨hkept, hgone, tryEvictObject_deletes_only_unprotected sampleCrates releasedRun
    (by decide) 9 "pkg:01" row hrow hgone⟩

/-- A run that puts a package, anchors it, removes it and puts it again. -/
def reputAfterRemove : List TimedOp :=
  [⟨0, .setObject samplePackage "pkg" "x"⟩, ⟨0, .fsAcquire samplePackage 7 0⟩,
    ⟨0, .removeObject samplePackage⟩, ⟨0, .setObject samplePackage "pkg" "x"⟩]

/-- After it, the anchor is still there, the row is a candidate and the eviction
deletes it. -/
theorem reputAfterRemove_evicts_anchored :
    (run (step sampleCrates) empty reputAfterRemove).HasFsAnchor "pkg:01" ∧
      (run (step sampleCrates) empty reputAfterRemove).listGcCandidates 100 =
        [("pkg:01", 1)] ∧
      ((run (step sampleCrates) empty reputAfterRemove).tryEvictObject 0
        "pkg:01").1.objects.find? "pkg:01" = none := by
  decide

end NamedLocalStoreDb

end NamedStore
end CyfsNdn

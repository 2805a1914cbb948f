import CyfsNdn.NamedStore.EdgeOutbox
import CyfsNdn.Transition.Ancestor

/-!
# Convergence of the cascade

One bucket whose edge messages come back to itself.  The content of an object is
a function of its identifier, so the children of an object are too, and no
object is its own descendant.

When all messages have been delivered, the incoming references are exactly the
pairs of a child and an expanded parent.  With the materialised state this says
which objects are protected: the descendants, along present objects that no
skeleton pin cuts off, of the objects with a recursive pin or an anchor.  One
direction walks down from such a root; the other walks up from a protected
object and ends because there are finitely many rows and no cycle.
-/

namespace CyfsNdn
namespace NamedStore

open NdnLib Relational Transition Relation

namespace NamedLocalStoreDb

/-! ## Content -/

/-- Every present row of the second state has its content from the first, and
no chunk item is new. -/
structure KeepsContent (db db' : NamedLocalStoreDb) : Prop where
  row : ∀ x row', db'.objects.find? x = some row' → row'.state = .present →
    ∃ row, db.objects.find? x = some row ∧ contentColumns row = contentColumns row'
  chunks : ∀ r ∈ db'.chunkItems.rows, r ∈ db.chunkItems.rows

namespace KeepsContent

variable {crates : Crates} {db db' db'' : NamedLocalStoreDb}

theorem trans (h : KeepsContent db db') (h' : KeepsContent db' db'') :
    KeepsContent db db'' where
  row := by
    intro x row'' hrow'' hstate
    obtain ⟨row', hrow', hcolumns'⟩ := h'.row x row'' hrow'' hstate
    have hstate' : row'.state = .present := by
      simp only [contentColumns, Prod.mk.injEq] at hcolumns'
      rw [hcolumns'.2.2, hstate]
    obtain ⟨row, hrow, hcolumns⟩ := h.row x row' hrow' hstate'
    exact ⟨row, hrow, hcolumns.trans hcolumns'⟩
  chunks := fun r hr => h.chunks r (h'.chunks r hr)

theorem of_objects_eq (hobjects : db'.objects = db.objects)
    (hchunks : db'.chunkItems = db.chunkItems) : KeepsContent db db' where
  row := by
    intro x row' hrow' _
    rw [hobjects] at hrow'
    exact ⟨row', hrow', rfl⟩
  chunks := by
    rw [hchunks]
    exact fun _ hr => hr

theorem of_sameFacts (h : SameFacts db db') : KeepsContent db db' where
  row := by
    intro x row' hrow' _
    obtain ⟨row, hrow, hcore⟩ := h.find?_some hrow'
    obtain ⟨-, htype, hdata, hstate, -⟩ := ObjectRow.core_inj_on hcore
    exact ⟨row, hrow, by simp only [contentColumns, htype, hdata, hstate]⟩
  chunks := by
    rw [h.chunkItems]
    exact fun _ hr => hr

theorem updateObject (db : NamedLocalStoreDb) (k : String) (f : ObjectRow → ObjectRow)
    (hf : ∀ r, (f r).objId = r.objId)
    (hcolumns : ∀ r, contentColumns (f r) = contentColumns r) :
    KeepsContent db (db.updateObject k f hf) where
  row := by
    intro x row' hrow' _
    rw [find?_updateObject] at hrow'
    split_ifs at hrow'
    · obtain ⟨row, hrow, rfl⟩ := Option.map_eq_some_iff.mp hrow'
      exact ⟨row, hrow, (hcolumns row).symm⟩
    · exact ⟨row', hrow', rfl⟩
  chunks := fun _ hr => hr

theorem upsertShadowIfAbsentTx (db : NamedLocalStoreDb) (now : Nat) (k : String) :
    KeepsContent db (db.upsertShadowIfAbsentTx now k) where
  row := by
    intro x row' hrow' hstate
    rw [find?_upsertShadowIfAbsentTx] at hrow'
    split_ifs at hrow'
    · cases hold : db.objects.find? x with
      | none =>
          rw [hold, Option.getD_none, Option.some.injEq] at hrow'
          rw [← hrow'] at hstate
          cases hstate
      | some row =>
          rw [hold, Option.getD_some, Option.some.injEq] at hrow'
          exact ⟨row, rfl, by rw [hrow']⟩
    · exact ⟨row', hrow', rfl⟩
  chunks := fun _ hr => hr

theorem updateFsAnchorCountTx (db : NamedLocalStoreDb) (k : String) (f : Int → Int) :
    KeepsContent db (db.updateFsAnchorCountTx k f) := by
  unfold NamedLocalStoreDb.updateFsAnchorCountTx
  apply updateObject
  intro r
  simp only [contentColumns]

theorem foldl_dropInodeCountTx (inodeId : UInt64) (oidStrs : List String)
    (db : NamedLocalStoreDb) :
    KeepsContent db (oidStrs.foldl (dropInodeCountTx inodeId) db) := by
  induction oidStrs generalizing db with
  | nil => exact of_objects_eq rfl rfl
  | cons oidStr rest ih =>
      rw [List.foldl_cons]
      refine trans ?_ (ih _)
      unfold dropInodeCountTx
      exact updateFsAnchorCountTx _ _ _

theorem tryEvictObject (db : NamedLocalStoreDb) (now : Nat) (k : String) :
    KeepsContent db (db.tryEvictObject now k).1 := by
  unfold NamedLocalStoreDb.tryEvictObject
  split_ifs
  · exact of_sameFacts (sameFacts_recomputeEvictionClassTx db now k)
  · constructor
    · intro x row' hrow' _
      change Table.find? (db.objects.deleteKey k) x = some row' at hrow'
      rw [Table.find?_deleteKey] at hrow'
      split_ifs at hrow'
      exact ⟨row', hrow', rfl⟩
    · intro r hr
      exact (Table.mem_deleteWhere.mp hr).1

theorem applyEdge (crates : Crates) (db : NamedLocalStoreDb) (now : Nat) (msg : EdgeMsg) :
    KeepsContent db (db.applyEdge crates now msg) := by
  refine trans ?_ (of_sameFacts (sameFacts_refreshTx crates _ now msg.referee))
  refine trans (upsertShadowIfAbsentTx db now (msg.referee.toString crates)) ?_
  unfold applyEdgeRefTx
  cases msg.op <;> exact of_objects_eq rfl rfl

theorem pin (crates : Crates) (db : NamedLocalStoreDb) (now : Nat) (objId : ObjId)
    (owner : String) (scope : PinScope) (ttl : Option Nat) :
    KeepsContent db (db.pin crates now objId owner scope ttl) := by
  refine trans ?_ (of_sameFacts (sameFacts_refreshTx crates _ now objId))
  exact trans (upsertShadowIfAbsentTx db now (objId.toString crates)) (of_objects_eq rfl rfl)

theorem unpin (crates : Crates) (db : NamedLocalStoreDb) (now : Nat) (objId : ObjId)
    (owner : String) : KeepsContent db (db.unpin crates now objId owner) := by
  unfold NamedLocalStoreDb.unpin
  simp only
  split_ifs
  · refine trans ?_ (of_sameFacts (sameFacts_refreshTx crates _ now objId))
    exact of_objects_eq rfl rfl
  · exact of_objects_eq rfl rfl

theorem deletePinsTx (crates : Crates) (db : NamedLocalStoreDb) (now : Nat)
    (p : PinRow → Bool) : KeepsContent db (db.deletePinsTx crates now p).1 := by
  refine trans ?_ (of_sameFacts (sameFacts_foldl_refreshTextTx crates _ now _))
  exact of_objects_eq rfl rfl

theorem fsAcquire (crates : Crates) (db : NamedLocalStoreDb) (now : Nat) (objId : ObjId)
    (inodeId : UInt64) (fieldTag : UInt32) :
    KeepsContent db (db.fsAcquire crates now objId inodeId fieldTag) := by
  refine trans ?_ (of_sameFacts (sameFacts_refreshTx crates _ now objId))
  refine trans (upsertShadowIfAbsentTx db now (objId.toString crates)) ?_
  unfold acquireAnchorTx
  simp only
  split_ifs
  · refine trans ?_ (updateFsAnchorCountTx _ _ _)
    exact of_objects_eq rfl rfl
  · exact of_objects_eq rfl rfl

theorem fsRelease (crates : Crates) (db : NamedLocalStoreDb) (now : Nat) (objId : ObjId)
    (inodeId : UInt64) (fieldTag : UInt32) :
    KeepsContent db (db.fsRelease crates now objId inodeId fieldTag) := by
  refine trans ?_ (of_sameFacts (sameFacts_refreshTx crates _ now objId))
  unfold releaseAnchorTx
  simp only
  split_ifs
  · refine trans ?_ (updateFsAnchorCountTx _ _ _)
    exact of_objects_eq rfl rfl
  · exact of_objects_eq rfl rfl

theorem fsReleaseInode (crates : Crates) (db : NamedLocalStoreDb) (now : Nat)
    (inodeId : UInt64) : KeepsContent db (db.fsReleaseInode crates now inodeId).1 := by
  refine trans ?_ (of_sameFacts (sameFacts_foldl_refreshTextTx crates _ now _))
  exact trans (foldl_dropInodeCountTx inodeId _ db) (of_objects_eq rfl rfl)

theorem deliverEdge (crates : Crates) (db : NamedLocalStoreDb) (now seq : Nat) :
    KeepsContent db (db.deliverEdge crates now seq) := by
  unfold NamedLocalStoreDb.deliverEdge
  split
  · exact of_objects_eq rfl rfl
  · split
    · exact of_objects_eq rfl rfl
    · split_ifs
      · exact of_objects_eq rfl rfl
      · exact trans (applyEdge crates db now _) (of_objects_eq rfl rfl)

end KeepsContent

/-- The children of an object whose content is `content`: what
`parse_obj_refs_tx` reads from a database that holds just this object. -/
def refs (crates : Crates) (content : ObjId → String × String) (x : ObjId) : List ObjId :=
  (empty.setObject crates 0 x (content x).1 (content x).2).parseObjRefsTx crates x

/-- The texts of the children of the object with a given text. -/
def ChildText (crates : Crates) (content : ObjId → String × String) (x c : String) : Prop :=
  ∃ id : ObjId, id.toString crates = x ∧ c ∈ (refs crates content id).map (·.toString crates)

/-- Every present row has the content of its identifier, and there are no chunk
items. -/
structure ContentInv (crates : Crates) (content : ObjId → String × String)
    (db : NamedLocalStoreDb) : Prop where
  row : ∀ (id : ObjId) row, db.objects.find? (id.toString crates) = some row →
    row.state = .present → contentColumns row = ((content id).1, (content id).2, .present)
  chunks : db.chunkItems.rows = []

section Content

variable {crates : Crates} {content : ObjId → String × String} {db db' : NamedLocalStoreDb}

theorem contentInv_empty : ContentInv crates content empty where
  row := by
    intro id row hrow
    cases hrow
  chunks := rfl

theorem ContentInv.keeps (h : ContentInv crates content db) (hkeeps : KeepsContent db db') :
    ContentInv crates content db' where
  row := by
    intro id row' hrow' hstate
    obtain ⟨row, hrow, hcolumns⟩ := hkeeps.row _ row' hrow' hstate
    have hstate' : row.state = .present := by
      simp only [contentColumns, Prod.mk.injEq] at hcolumns
      rw [hcolumns.2.2, hstate]
    rw [← hcolumns]
    exact h.row id row hrow hstate'
  chunks := by
    rw [List.eq_nil_iff_forall_not_mem]
    intro r hr
    have hold := hkeeps.chunks r hr
    rw [h.chunks] at hold
    exact List.not_mem_nil hold

/-- A put writes the content of its identifier. -/
theorem ContentInv.setObject (laws : crates.Lawful) (h : ContentInv crates content db)
    (now : Nat) (x : ObjId) :
    ContentInv crates content (db.setObject crates now x (content x).1 (content x).2) := by
  unfold NamedLocalStoreDb.setObject putObjectInTx
  simp only
  split
  · refine h.keeps ?_
    unfold touchLastAccessTx
    apply KeepsContent.updateObject
    intro r
    simp only [contentColumns]
  · refine ContentInv.keeps ?_
      (KeepsContent.of_sameFacts (sameFacts_refreshTx crates _ now x))
    refine ⟨?_, h.chunks⟩
    intro id row hrow hstate
    have hfind := find?_fillShadowTx db now (x.toString crates) (content x).1 (content x).2
      (strLen (content x).2) (strLen (content x).2) (id.toString crates)
    change (db.fillShadowTx now _ _ _ _ _).objects.find? _ = some row at hrow
    rw [hfind] at hrow
    split_ifs at hrow with hk
    · have hid := ObjId.toString_injective laws hk
      subst hid
      obtain ⟨old, -, rfl⟩ := Option.map_eq_some_iff.mp hrow
      rfl
    · exact h.row id row hrow hstate
  · refine ⟨?_, h.chunks⟩
    intro id row hrow hstate
    have hfind := find?_insertOrReplace_presentRow db now (x.toString crates) (content x).1
      (content x).2 (strLen (content x).2) (strLen (content x).2) (id.toString crates)
    change Table.find? _ _ = some row at hrow
    rw [hfind] at hrow
    split_ifs at hrow with hk
    · have hid := ObjId.toString_injective laws hk
      subst hid
      rw [Option.some.injEq] at hrow
      rw [← hrow]
      rfl
    · exact h.row id row hrow hstate

/-- Putting an object into an empty database inserts its row. -/
theorem find?_setObject_empty (crates : Crates) (now : Nat) (x : ObjId)
    (objType objStr : String) :
    (empty.setObject crates now x objType objStr).objects.find? (x.toString crates) =
      some (presentRow now (x.toString crates) objType objStr (strLen objStr)
        (strLen objStr)) := by
  have hfind := find?_insertOrReplace_presentRow empty now (x.toString crates) objType objStr
    (strLen objStr) (strLen objStr) (x.toString crates)
  rw [if_pos rfl] at hfind
  exact hfind

/-- The children that a present row has are the ones of its content. -/
theorem ContentInv.parseObjRefsTx (h : ContentInv crates content db) {x : ObjId}
    {row : ObjectRow} (hrow : db.objects.find? (x.toString crates) = some row)
    (hstate : row.state = .present) : db.parseObjRefsTx crates x = refs crates content x := by
  unfold refs
  apply parseObjRefsTx_congr
  · rw [hrow, find?_setObject_empty, Option.map_some, Option.map_some,
      h.row x row hrow hstate]
    rfl
  · have hnone : db.chunkItems.find? (x.toString crates) = none := by
      rw [Table.find?_eq_none_iff, h.chunks]
      exact fun r hr => absurd hr List.not_mem_nil
    rw [hnone]
    rfl

/-- Acyclicity of the children carries over to their texts. -/
theorem acyclic_childText (laws : crates.Lawful)
    (hacyclic : ∀ x, ¬ TransGen (fun x c => c ∈ refs crates content x) x x) (x : String) :
    ¬ TransGen (ChildText crates content) x x := by
  have hlift : ∀ y z, TransGen (ChildText crates content) y z →
      ∃ idy idz : ObjId, idy.toString crates = y ∧ idz.toString crates = z ∧
        TransGen (fun x c => c ∈ refs crates content x) idy idz := by
    intro y z hpath
    induction hpath with
    | single hedge =>
        obtain ⟨id, hid, hmem⟩ := hedge
        obtain ⟨child, hchild, hz⟩ := List.mem_map.mp hmem
        exact ⟨id, child, hid, hz, TransGen.single hchild⟩
    | tail _ hedge ih =>
        obtain ⟨idy, mid, hy, hmid, hpath⟩ := ih
        obtain ⟨id, hid, hmem⟩ := hedge
        obtain ⟨child, hchild, hz⟩ := List.mem_map.mp hmem
        have hsame := ObjId.toString_injective laws (hid.trans hmid.symm)
        subst hsame
        exact ⟨idy, child, hy, hz, hpath.tail hchild⟩
  intro hcycle
  obtain ⟨idy, idz, hy, hz, hpath⟩ := hlift x x hcycle
  have hsame := ObjId.toString_injective laws (hy.trans hz.symm)
  subst hsame
  exact hacyclic idy hpath

end Content

/-! ## Runs of a bucket -/

/-- What happens in a bucket: an operation of its database, or the delivery of
one of its pending messages. -/
inductive BucketAction where
  | op (action : TimedOp)
  | deliver (now seq : Nat)
  deriving DecidableEq

/-- One step of a bucket. -/
def bucketStep (crates : Crates) (db : NamedLocalStoreDb) : BucketAction → NamedLocalStoreDb
  | .op action => db.step crates action
  | .deliver now seq => db.deliverEdge crates now seq

/-- The operations of the cascade: puts of the content of an identifier, permanent
pins, anchors, their releases and evictions. -/
def IsCascadeAction (crates : Crates) (content : ObjId → String × String) :
    BucketAction → Prop
  | .deliver _ _ => True
  | .op action =>
      match action.op with
      | .setObject objId objType objStr =>
          objId.Accepted crates ∧ (objType, objStr) = content objId
      | .pin objId _ _ ttl => objId.Accepted crates ∧ ttl = none
      | .fsAcquire objId _ _ => objId.Accepted crates
      | .unpin _ _ | .unpinOwner _ | .fsRelease _ _ _ | .fsReleaseInode _
      | .tryEvictObject _ => True
      | _ => False

/-- The operations of the cascade are among those that keep the materialised
state. -/
theorem IsCascadeAction.isGcAction {crates : Crates} {content : ObjId → String × String}
    {action : TimedOp} (h : IsCascadeAction crates content (.op action)) :
    IsGcAction crates action := by
  obtain ⟨now, op⟩ := action
  cases op with
  | setObject objId objType objStr => exact h.1
  | pin objId owner scope ttl => exact h
  | fsAcquire objId inodeId fieldTag => exact h
  | unpin objId owner => trivial
  | unpinOwner owner => trivial
  | fsRelease objId inodeId fieldTag => trivial
  | fsReleaseInode inodeId => trivial
  | tryEvictObject objIdStr => trivial
  | _ => exact absurd h id

/-- Everything that holds along a run of the cascade. -/
structure CascadeState (crates : Crates) (content : ObjId → String × String)
    (db : NamedLocalStoreDb) : Prop where
  gc : GcState crates db
  edges : EdgeInv crates db
  content : ContentInv crates content db

section Cascade

variable {crates : Crates} (laws : crates.Lawful) {content : ObjId → String × String}
  {db : NamedLocalStoreDb}

include laws

/-- A delivery is an `apply_edge` of an accepted id and a completion, if it is
anything at all. -/
theorem GcState.deliverEdge (h : GcState crates db) (hedges : EdgeInv crates db)
    (now seq : Nat) : GcState crates (db.deliverEdge crates now seq) := by
  rcases deliverEdge_cases laws hedges now seq with hsame | ⟨before, after, row, msg, -, -, -,
    hnewReferee, -, -, -, hdeliver⟩
  · rw [hsame]
    exact h
  · rw [hdeliver]
    have happly : GcState crates (db.step crates ⟨now, .applyEdge msg⟩) :=
      h.step laws ⟨row.referee, hnewReferee⟩
    have hcomplete : IsGcAction crates ⟨now, .completeOutboxEntry row.seq⟩ := trivial
    exact happly.step laws hcomplete

omit laws in
/-- A row that an eviction deletes was not expanded: nothing asked for it. -/
theorem GcInv.not_expanded_of_unprotected (h : GcInv crates db) {now : Nat} {k : String}
    (hunprotected : db.isProtectedTx now k = false) {row : ObjectRow}
    (hrow : db.objects.find? k = some row) : row.childrenExpanded = false := by
  rw [((h k).2 row hrow).2, ← Bool.not_eq_true, wantExpandedTx_iff]
  simp only [isProtectedTx, Bool.or_eq_false_iff, decide_eq_false_iff_not] at hunprotected
  obtain ⟨⟨hpin, hincoming⟩, hcount⟩ := hunprotected
  rintro ⟨-, -, hrecursive | hanchor | href⟩
  · obtain ⟨p, hp, hpk, -⟩ := hasScopedPinTx_iff.mp hrecursive
    rw [← Bool.not_eq_true, (h k).1.hasActivePinTx_iff_hasPin] at hpin
    exact hpin ⟨p, hp, hpk⟩
  · exact hcount hanchor
  · rw [hincoming] at href
    cases href

theorem CascadeState.step {action : BucketAction}
    (haction : IsCascadeAction crates content action) (h : CascadeState crates content db) :
    CascadeState crates content (db.bucketStep crates action) := by
  obtain ⟨hgc, hedges, hcontent⟩ := h
  cases action with
  | deliver now seq =>
      exact ⟨hgc.deliverEdge laws hedges now seq, hedges.deliverEdge laws now seq,
        hcontent.keeps (KeepsContent.deliverEdge crates db now seq)⟩
  | op action =>
      have hstepped := hgc.step laws haction.isGcAction
      obtain ⟨now, op⟩ := action
      cases op with
      | setObject objId objType objStr =>
          obtain ⟨-, hwritten⟩ := haction
          obtain ⟨rfl, rfl⟩ := Prod.mk.inj hwritten
          exact ⟨hstepped, hedges.putObjectInTx laws hgc.count objId _ _ now _ _,
            hcontent.setObject laws now objId⟩
      | pin objId owner scope ttl =>
          exact ⟨hstepped, hedges.pin laws now objId owner scope ttl,
            hcontent.keeps (KeepsContent.pin crates db now objId owner scope ttl)⟩
      | unpin objId owner =>
          exact ⟨hstepped, hedges.unpin laws now objId owner,
            hcontent.keeps (KeepsContent.unpin crates db now objId owner)⟩
      | unpinOwner owner =>
          exact ⟨hstepped, hedges.deletePinsTx laws now _,
            hcontent.keeps (KeepsContent.deletePinsTx crates db now _)⟩
      | fsAcquire objId inodeId fieldTag =>
          exact ⟨hstepped, hedges.fsAcquire laws now objId inodeId fieldTag,
            hcontent.keeps (KeepsContent.fsAcquire crates db now objId inodeId fieldTag)⟩
      | fsRelease objId inodeId fieldTag =>
          exact ⟨hstepped, hedges.fsRelease laws now objId inodeId fieldTag,
            hcontent.keeps (KeepsContent.fsRelease crates db now objId inodeId fieldTag)⟩
      | fsReleaseInode inodeId =>
          exact ⟨hstepped, hedges.fsReleaseInode laws now inodeId,
            hcontent.keeps (KeepsContent.fsReleaseInode crates db now inodeId)⟩
      | tryEvictObject objIdStr =>
          refine ⟨hstepped, hedges.tryEvictObject now objIdStr ?_,
            hcontent.keeps (KeepsContent.tryEvictObject db now objIdStr)⟩
          intro _ hunprotected row hrow
          exact hgc.gc.not_expanded_of_unprotected hunprotected hrow
      | _ => exact absurd haction id

end Cascade

/-! ## Drained states -/

/-- The row of `x` is present, no skeleton pin cuts it off, and `c` is one of its
children. -/
def LiveEdge (crates : Crates) (content : ObjId → String × String) (db : NamedLocalStoreDb)
    (x c : String) : Prop :=
  (∃ row, db.objects.find? x = some row ∧ row.state = .present) ∧
    ¬ db.HasScopedPin .skeleton x ∧ ChildText crates content x c

section Drained

variable {crates : Crates} (laws : crates.Lawful) {content : ObjId → String × String}
  {db : NamedLocalStoreDb}

include laws

/-- In a drained state the references are the children of the expanded rows. -/
theorem CascadeState.incomingRefs_iff (h : CascadeState crates content db)
    (hdrained : db.edgeOutbox.rows = []) (c x : String) :
    (∃ r ∈ db.incomingRefs.rows, r.referee = c ∧ r.referrer = x) ↔
      ∃ row, db.objects.find? x = some row ∧ row.childrenExpanded = true ∧
        ChildText crates content x c := by
  have hchildren : ∀ row, db.objects.find? x = some row → row.childrenExpanded = true →
      (c ∈ db.childTexts crates x ↔ ChildText crates content x c) := by
    intro row hrow hexpanded
    have hcanonical := (h.gc.gc x).1.canonical row hrow
    obtain ⟨id, hnew, hid⟩ := hcanonical
    subst hid
    have hstate := h.edges.expandedPresent _ row hrow hexpanded
    rw [childTexts_toString laws db ⟨id, hnew, rfl⟩, h.content.parseObjRefsTx hrow hstate]
    constructor
    · intro hmem
      exact ⟨id, rfl, hmem⟩
    · rintro ⟨id', hid', hmem⟩
      rwa [ObjId.toString_injective laws hid'] at hmem
  constructor
  · rintro ⟨r, hr, hrc, hrx⟩
    have href : db.hasRef (c, x) = true := hasRef_iff.mpr ⟨r, hr, hrc, hrx⟩
    have hcanonical : CanonicalKey crates x := hrx ▸ h.edges.referrers r hr
    obtain ⟨row, hrow, hexpanded, hmem⟩ :=
      (h.edges.hasRef_iff_of_drained hdrained hcanonical c).mp href
    exact ⟨row, hrow, hexpanded, (hchildren row hrow hexpanded).mp hmem⟩
  · rintro ⟨row, hrow, hexpanded, hmem⟩
    have hcanonical := (h.gc.gc x).1.canonical row hrow
    refine hasRef_iff.mp ((h.edges.hasRef_iff_of_drained hdrained hcanonical c).mpr ?_)
    exact ⟨row, hrow, hexpanded, (hchildren row hrow hexpanded).mpr hmem⟩

/-- In a drained state an object has a parent exactly when it descends, along
live edges, from an object that is pinned recursively or anchored. -/
theorem CascadeState.hasIncoming_iff
    (hacyclic : ∀ x, ¬ TransGen (fun x c => c ∈ refs crates content x) x x)
    (h : CascadeState crates content db) (hdrained : db.edgeOutbox.rows = []) (c : String) :
    db.HasIncoming c ↔
      ∃ root, (db.HasScopedPin .recursive root ∨ db.HasFsAnchor root) ∧
        TransGen (LiveEdge crates content db) root c := by
  have hmaterialised := h.gc.gc.materialised h.gc.count
  have hexpanded_iff : ∀ x row, db.objects.find? x = some row →
      (row.childrenExpanded = true ↔
        row.state = .present ∧ ¬ db.HasScopedPin .skeleton x ∧
          (db.HasScopedPin .recursive x ∨ db.HasFsAnchor x ∨ db.HasIncoming x)) := by
    intro x row hrow
    obtain ⟨hmem, hkey⟩ := Table.find?_eq_some_iff.mp hrow
    rw [← hkey]
    exact hmaterialised.childrenExpanded row hmem
  have hdown : ∀ x c, (db.HasScopedPin .recursive x ∨ db.HasFsAnchor x ∨ db.HasIncoming x) →
      LiveEdge crates content db x c → db.HasIncoming c := by
    intro x c hreason hedge
    obtain ⟨⟨row, hrow, hstate⟩, hskeleton, hchild⟩ := hedge
    have hexpanded := (hexpanded_iff x row hrow).mpr ⟨hstate, hskeleton, hreason⟩
    obtain ⟨r, hr, hrc, -⟩ :=
      (h.incomingRefs_iff laws hdrained c x).mpr ⟨row, hrow, hexpanded, hchild⟩
    exact ⟨r, hr, hrc⟩
  constructor
  · intro hincoming
    refine exists_root_of_acyclic (db.objects.rows.map ObjectRow.objId) ?_ ?_ hincoming
    · intro x hcycle
      have hchildren : ∀ y c, LiveEdge crates content db y c → ChildText crates content y c :=
        fun _ _ hedge => hedge.2.2
      exact acyclic_childText laws hacyclic x (TransGen.mono hchildren x x hcycle)
    · rintro c ⟨r, hr, hrc⟩
      obtain ⟨row, hrow, hexpanded, hchild⟩ :=
        (h.incomingRefs_iff laws hdrained c r.referrer).mp ⟨r, hr, hrc, rfl⟩
      obtain ⟨hstate, hskeleton, hreason⟩ := (hexpanded_iff _ row hrow).mp hexpanded
      obtain ⟨hmem, hkey⟩ := Table.find?_eq_some_iff.mp hrow
      refine ⟨r.referrer, List.mem_map.mpr ⟨row, hmem, hkey⟩,
        ⟨⟨row, hrow, hstate⟩, hskeleton, hchild⟩, ?_⟩
      rcases hreason with hpin | hanchor | hparent
      · exact Or.inl (Or.inl hpin)
      · exact Or.inl (Or.inr hanchor)
      · exact Or.inr hparent
  · rintro ⟨root, hroot, hpath⟩
    refine holds_of_root db.HasIncoming
      (fun x => db.HasScopedPin .recursive x ∨ db.HasFsAnchor x) ?_ ?_ hroot hpath
    · rintro x c (hpin | hanchor) hedge
      · exact hdown x c (Or.inl hpin) hedge
      · exact hdown x c (Or.inr (Or.inl hanchor)) hedge
    · intro x c hincoming hedge
      exact hdown x c (Or.inr (Or.inr hincoming)) hedge

end Drained

/-- The cascade converges.  After any interleaving of the operations of a bucket
with deliveries, when no message is pending, the incoming references are the
children of the expanded rows, and an object has one exactly when it descends
from an object that is pinned recursively or anchored, along present objects that
no skeleton pin cuts off. -/
theorem drained_incomingRefs_eq_expanded_children (crates : Crates) (laws : crates.Lawful)
    (content : ObjId → String × String)
    (hacyclic : ∀ x, ¬ TransGen (fun x c => c ∈ refs crates content x) x x)
    (actions : List BucketAction)
    (hactions : ∀ action ∈ actions, IsCascadeAction crates content action)
    (hdrained : (run (bucketStep crates) empty actions).edgeOutbox.rows = []) :
    (∀ c x, (∃ r ∈ (run (bucketStep crates) empty actions).incomingRefs.rows,
        r.referee = c ∧ r.referrer = x) ↔
      ∃ row, (run (bucketStep crates) empty actions).objects.find? x = some row ∧
        row.childrenExpanded = true ∧ ChildText crates content x c) ∧
      ∀ c, (run (bucketStep crates) empty actions).HasIncoming c ↔
        ∃ root, ((run (bucketStep crates) empty actions).HasScopedPin .recursive root ∨
            (run (bucketStep crates) empty actions).HasFsAnchor root) ∧
          TransGen (LiveEdge crates content (run (bucketStep crates) empty actions)) root c := by
  have h : CascadeState crates content (run (bucketStep crates) empty actions) :=
    run_invariant_of_forall (fun _ _ haction h => h.step laws haction) hactions
      ⟨⟨countInv_empty, gcInv_empty crates⟩, edgeInv_empty crates, contentInv_empty⟩
  exact ⟨h.incomingRefs_iff laws hdrained, h.hasIncoming_iff laws hacyclic hdrained⟩

/-- The chunk id of the text `abc`. -/
def sampleChunk : ObjId := ⟨"mix256", 3 :: sha256Abc⟩

/-- A chunk list. -/
def sampleChunkList : ObjId := ⟨"clist", [1]⟩

/-- The stored text of the chunk list: its only chunk is `sampleChunk`. -/
def sampleChunkListJson : String :=
  "[\"mix256:03ba7816bf8f01cfea414140de5dae2223b00361a396177a9cb410ff61f20015ad\"]"

/-- Only the chunk list has content. -/
def sampleContent (id : ObjId) : String × String :=
  if id = sampleChunkList then ("clist", sampleChunkListJson) else ("", "")

theorem refs_sampleContent (x : ObjId) :
    refs sampleCrates sampleContent x = if x = sampleChunkList then [sampleChunk] else [] := by
  by_cases hx : x = sampleChunkList
  · subst hx
    decide
  · have hcontent : sampleContent x = ("", "") := if_neg hx
    have hchunk : (empty.setObject sampleCrates 0 x "" "").sameAsTargetTx sampleCrates x =
        [] := rfl
    unfold refs parseObjRefsTx
    simp only
    rw [hcontent, find?_setObject_empty, if_neg hx, hchunk]
    simp [presentRow, knownChildren, Option.filter]

/-- The children of the sample content have no cycle. -/
theorem acyclic_sampleContent (x : ObjId) :
    ¬ TransGen (fun x c => c ∈ refs sampleCrates sampleContent x) x x := by
  have hedge : ∀ y c, c ∈ refs sampleCrates sampleContent y →
      y = sampleChunkList ∧ c = sampleChunk := by
    intro y c hmem
    rw [refs_sampleContent] at hmem
    split_ifs at hmem with hy
    · exact ⟨hy, List.mem_singleton.mp hmem⟩
    · exact absurd hmem List.not_mem_nil
  intro hcycle
  -- The last edge of a cycle ends in the chunk, and the first one starts in the list.
  obtain ⟨y, -, hlast⟩ := TransGen.tail'_iff.mp hcycle
  obtain ⟨z, hfirst, -⟩ := TransGen.head'_iff.mp hcycle
  have hchunk := (hedge y x hlast).2
  have hlist := (hedge x z hfirst).1
  rw [hchunk] at hlist
  revert hlist
  decide

/-- A run that anchors the list before it arrives and delivers its message. -/
def sampleCascade : List BucketAction :=
  [.op ⟨1, .fsAcquire sampleChunkList 7 0⟩,
    .op ⟨2, .setObject sampleChunkList "clist" sampleChunkListJson⟩, .deliver 3 1]

theorem sampleChunkList_accepted : sampleChunkList.Accepted sampleCrates :=
  ⟨"clist:01", by decide⟩

/-- In the sample run the chunk is protected by the anchored list. -/
theorem sampleCascade_protects_chunk :
    (run (bucketStep sampleCrates) empty sampleCascade).edgeOutbox.rows = [] ∧
      ∃ root, ((run (bucketStep sampleCrates) empty sampleCascade).HasScopedPin .recursive
            root ∨ (run (bucketStep sampleCrates) empty sampleCascade).HasFsAnchor root) ∧
          TransGen (LiveEdge sampleCrates sampleContent
            (run (bucketStep sampleCrates) empty sampleCascade)) root
              (sampleChunk.toString sampleCrates) := by
  have hdrained : (run (bucketStep sampleCrates) empty sampleCascade).edgeOutbox.rows = [] := by
    decide
  refine ⟨hdrained, ?_⟩
  have hcascade := drained_incomingRefs_eq_expanded_children sampleCrates sampleCrates_lawful
    sampleContent acyclic_sampleContent sampleCascade (by
      intro action haction
      simp only [sampleCascade, List.mem_cons, List.not_mem_nil, or_false] at haction
      rcases haction with rfl | rfl | rfl
      · exact sampleChunkList_accepted
      · exact ⟨sampleChunkList_accepted, rfl⟩
      · trivial) hdrained
  apply (hcascade.2 _).mp
  decide

end NamedLocalStoreDb

end NamedStore
end CyfsNdn

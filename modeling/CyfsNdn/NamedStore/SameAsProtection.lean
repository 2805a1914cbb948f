import CyfsNdn.NamedStore.Cascade
import CyfsNdn.NamedStore.Store

/-!
# Anchoring a chunk that is stored as a chunk list

`add_chunk_by_same_as` writes the row of the big chunk to `chunk_items`.  An
anchor of the big chunk is kept with its row in `objects`, which stays a shadow:
nothing puts a chunk there.  `reconcile_expand_state_tx` asks the `objects` row
whether the chunk is present, so the chunk is never expanded and its chunk list
never gets a reference from it.
-/

namespace CyfsNdn
namespace NamedStore

open NdnLib Relational Transition

namespace NamedLocalStoreDb

/-- The steps in question: the big chunk is declared to be the same as the list,
the list is put, the big chunk is anchored in one of the three ways, or a message
is delivered. -/
def IsSameAsAction (bigChunkId : ChunkId) (chunkListId : ObjId) : BucketAction → Prop
  | .deliver _ _ => True
  | .op action =>
      match action.op with
      | .setChunkItem item =>
          ∃ bigChunkSize, item = NamedStore.sameAsItem action.now bigChunkId bigChunkSize chunkListId
      | .setObject objId _ _ => objId = chunkListId
      | .pin objId _ scope _ => objId = bigChunkId.toObjId ∧ scope = .recursive
      | .fsAcquire objId _ _ => objId = bigChunkId.toObjId
      | .applyEdge msg => msg.op = .add ∧ msg.referee = bigChunkId.toObjId
      | _ => False

/-- Nothing protects the key, and its row, if there is one, is put and
unexpanded. -/
structure Plain (db : NamedLocalStoreDb) (k : String) : Prop where
  pins : ∀ p ∈ db.pins.rows, p.objId ≠ k
  count : db.getFsAnchorCountTx k = 0
  incoming : ∀ r ∈ db.incomingRefs.rows, r.referee ≠ k
  row : ∀ row, db.objects.find? k = some row →
    row.state = .present ∧ row.evictionClass = 0 ∧ row.childrenExpanded = false

/-- The key has no row or an unexpanded one whose content has not arrived. -/
def Unfilled (db : NamedLocalStoreDb) (k : String) : Prop :=
  ∀ row, db.objects.find? k = some row → row.state ≠ .present ∧ row.childrenExpanded = false

/-- The invariant: only the big chunk is anchored, it is a shadow, and no message
has been sent. -/
structure SameAsInv (bigChunk : String) (db : NamedLocalStoreDb) : Prop where
  plain : ∀ k, k ≠ bigChunk → db.Plain k
  unfilled : db.Unfilled bigChunk
  outbox : db.edgeOutbox.rows = []

section Frames

variable {db db' : NamedLocalStoreDb} {k bigChunk : String}

theorem Plain.congr (h : db.Plain k) (hsame : SameAt db db' k) : db'.Plain k where
  pins := fun p hp hpk => h.pins p ((hsame.pins p hpk).mp hp) hpk
  count := by
    rw [hsame.getFsAnchorCountTx]
    exact h.count
  incoming := fun r hr hrk => h.incoming r ((hsame.incoming r hrk).mp hr) hrk
  row := by
    intro row' hrow'
    obtain ⟨row, hrow, huntimed⟩ := hsame.find?_some hrow'
    obtain ⟨hstate, -, hclass, hexpanded⟩ := ObjectRow.untimed_eq huntimed
    rw [hstate, hclass, hexpanded]
    exact h.row row hrow

theorem Unfilled.congr (h : db.Unfilled k) (hsame : SameAt db db' k) : db'.Unfilled k := by
  intro row' hrow'
  obtain ⟨row, hrow, huntimed⟩ := hsame.find?_some hrow'
  obtain ⟨hstate, -, -, hexpanded⟩ := ObjectRow.untimed_eq huntimed
  rw [hstate, hexpanded]
  exact h row hrow

theorem Unfilled.upsertShadowIfAbsentTx (h : db.Unfilled k) (now : Nat) :
    (db.upsertShadowIfAbsentTx now k).Unfilled k := by
  intro row hrow
  rw [find?_upsertShadowIfAbsentTx, if_pos rfl, Option.some.injEq] at hrow
  cases hold : db.objects.find? k with
  | none =>
      rw [hold, Option.getD_none] at hrow
      rw [← hrow]
      exact ⟨by simp [shadowRow], rfl⟩
  | some old =>
      rw [hold, Option.getD_some] at hrow
      rw [← hrow]
      exact h old hold

theorem Unfilled.acquireAnchorTx (h : db.Unfilled k) (now : Nat) (inodeId : UInt64)
    (fieldTag : UInt32) : (db.acquireAnchorTx now k inodeId fieldTag).Unfilled k := by
  have hshadowed := h.upsertShadowIfAbsentTx now
  unfold NamedLocalStoreDb.acquireAnchorTx
  simp only
  split_ifs
  · intro row hrow
    rw [find?_updateFsAnchorCountTx, if_pos rfl] at hrow
    obtain ⟨old, hold, rfl⟩ := Option.map_eq_some_iff.mp hrow
    exact hshadowed old hold
  · exact hshadowed

/-- Refreshing a key that is not filled neither expands it nor sends a message. -/
theorem refreshTx_of_unfilled {crates : Crates} {objId : ObjId}
    (h : db.Unfilled (objId.toString crates)) (now : Nat) :
    db.refreshTx crates now objId =
      db.recomputeEvictionClassTx now (objId.toString crates) := by
  have hfacts := sameFacts_recomputeEvictionClassTx db now (objId.toString crates)
  have hwant : (db.recomputeEvictionClassTx now (objId.toString crates)).wantExpandedTx now
      (objId.toString crates) = false := by
    rw [hfacts.wantExpandedTx, ← Bool.not_eq_true, wantExpandedTx_iff]
    rintro ⟨hstate, -⟩
    obtain ⟨row, hrow, hpresent⟩ := Option.map_eq_some_iff.mp hstate
    exact (h row hrow).1 hpresent
  have hhave : (db.recomputeEvictionClassTx now (objId.toString crates)).getChildrenExpandedTx
      (objId.toString crates) = false := by
    unfold getChildrenExpandedTx
    rw [find?_recomputeEvictionClassTx, if_pos rfl]
    cases hrow : db.objects.find? (objId.toString crates) with
    | none => rfl
    | some row => exact (h row hrow).2
  unfold refreshTx reconcileExpandStateTx
  simp only [hwant, hhave, Bool.false_and, Bool.and_false, Bool.false_eq_true, if_false]

/-- An anchor of the big chunk: the facts of no other key change, and its own row
stays unfilled. -/
theorem SameAsInv.anchored {crates : Crates} {changed : NamedLocalStoreDb} {objId : ObjId}
    (h : SameAsInv (objId.toString crates) db) (now : Nat)
    (hother : ∀ k', k' ≠ objId.toString crates → SameAt db changed k')
    (hunfilled : changed.Unfilled (objId.toString crates))
    (houtbox : changed.edgeOutbox = db.edgeOutbox) :
    SameAsInv (objId.toString crates) (changed.refreshTx crates now objId) := by
  rw [refreshTx_of_unfilled hunfilled]
  have hfacts := sameFacts_recomputeEvictionClassTx changed now (objId.toString crates)
  have hfind := find?_recomputeEvictionClassTx changed now (objId.toString crates)
  constructor
  · intro k hk
    have hrow := hfind k
    rw [if_neg hk] at hrow
    exact (h.plain k hk).congr ((hother k hk).trans (SameAt.of_sameFacts hfacts hrow))
  · intro row hrow
    rw [hfind, if_pos rfl] at hrow
    obtain ⟨old, hold, rfl⟩ := Option.map_eq_some_iff.mp hrow
    exact hunfilled old hold
  · show changed.edgeOutbox.rows = []
    rw [houtbox]
    exact h.outbox

/-- A put of another object inserts a row that nothing protects. -/
theorem SameAsInv.setObject (h : SameAsInv bigChunk db) (crates : Crates) (now : Nat)
    {objId : ObjId} (hne : objId.toString crates ≠ bigChunk) (objType objStr : String) :
    SameAsInv bigChunk (db.setObject crates now objId objType objStr) := by
  have hplain := h.plain _ hne
  unfold NamedLocalStoreDb.setObject putObjectInTx
  simp only
  split
  · have hsame := SameAt.touchLastAccessTx db (objId.toString crates)
    exact ⟨fun k hk => (h.plain k hk).congr (hsame k now), h.unfilled.congr (hsame _ now),
      h.outbox⟩
  · next hstate =>
    obtain ⟨row, hrow, hshadow⟩ := Option.map_eq_some_iff.mp hstate
    rw [(hplain.row row hrow).1] at hshadow
    cases hshadow
  · have hsame : ∀ k', k' ≠ objId.toString crates → SameAt db _ k' := fun k' hk' =>
      sameAt_insertOrReplace_presentRow db now objType objStr (strLen objStr) (strLen objStr) hk'
    have hfind := find?_insertOrReplace_presentRow db now (objId.toString crates) objType
      objStr (strLen objStr) (strLen objStr) (objId.toString crates)
    rw [if_pos rfl] at hfind
    refine ⟨?_, h.unfilled.congr (hsame _ hne.symm), h.outbox⟩
    intro k hk
    by_cases hkey : k = objId.toString crates
    · subst hkey
      refine ⟨hplain.pins, ?_, hplain.incoming, ?_⟩
      · unfold getFsAnchorCountTx
        simp only
        rw [hfind]
        rfl
      · intro row hrow
        change Table.find? _ _ = some row at hrow
        rw [hfind, Option.some.injEq] at hrow
        rw [← hrow]
        exact ⟨rfl, rfl, rfl⟩
    · exact (h.plain k hk).congr (hsame k hkey)

end Frames

theorem sameAsInv_empty (bigChunk : String) : SameAsInv bigChunk empty where
  plain := by
    intro k _
    constructor
    · intro p hp
      exact absurd hp List.not_mem_nil
    · rfl
    · intro r hr
      exact absurd hr List.not_mem_nil
    · intro row hrow
      cases hrow
  unfilled := by
    intro row hrow
    cases hrow
  outbox := rfl

theorem SameAsInv.step {crates : Crates} {bigChunkId : ChunkId} {chunkListId : ObjId}
    (hne : chunkListId.toString crates ≠ bigChunkId.toObjId.toString crates)
    {db : NamedLocalStoreDb} {action : BucketAction}
    (haction : IsSameAsAction bigChunkId chunkListId action)
    (h : SameAsInv (bigChunkId.toObjId.toString crates) db) :
    SameAsInv (bigChunkId.toObjId.toString crates) (db.bucketStep crates action) := by
  cases action with
  | deliver now seq =>
      have hidle : db.deliverEdge crates now seq = db := by
        unfold deliverEdge
        rw [h.outbox]
        rfl
      show SameAsInv _ (db.deliverEdge crates now seq)
      rw [hidle]
      exact h
  | op action =>
      obtain ⟨now, op⟩ := action
      cases op with
      | setChunkItem item =>
          exact ⟨fun k hk => (h.plain k hk).congr (sameAt_objects rfl rfl rfl rfl),
            h.unfilled, h.outbox⟩
      | setObject objId objType objStr =>
          obtain rfl : objId = chunkListId := haction
          exact h.setObject crates now hne objType objStr
      | pin objId owner scope ttl =>
          obtain ⟨rfl, -⟩ := haction
          exact h.anchored now
            (fun k' hk' => sameAt_insertPinTx db now owner scope ttl hk')
            (h.unfilled.upsertShadowIfAbsentTx now) rfl
      | fsAcquire objId inodeId fieldTag =>
          obtain rfl : objId = bigChunkId.toObjId := haction
          refine h.anchored now
            (fun k' hk' => sameAt_acquireAnchorTx db now inodeId fieldTag hk')
            (h.unfilled.acquireAnchorTx now inodeId fieldTag) ?_
          unfold acquireAnchorTx
          simp only
          split_ifs <;> rfl
      | applyEdge msg =>
          obtain ⟨hop, hreferee⟩ := haction
          show SameAsInv _ (db.applyEdge crates now msg)
          unfold applyEdge
          rw [hop, hreferee]
          exact h.anchored now (fun k' hk' => sameAt_applyEdgeRefTx db now .add _ _ hk')
            (h.unfilled.upsertShadowIfAbsentTx now) rfl
      | _ => exact absurd haction id

/-- Anchoring a chunk does nothing for the list that it is the same as.  Whatever
the order in which the chunk is declared, the list is put and the chunk is
anchored, no message is ever sent, the list gets no reference and stays in class
0, and no object but the chunk has a reference at all. -/
theorem sameAs_list_never_protected (crates : Crates) (laws : crates.Lawful)
    (bigChunkId : ChunkId) (chunkListId : ObjId) (hchunk : bigChunkId.toObjId.isChunk = true)
    (hlist : chunkListId.isChunkList = true) (actions : List BucketAction)
    (hactions : ∀ action ∈ actions, IsSameAsAction bigChunkId chunkListId action) :
    (run (bucketStep crates) empty actions).edgeOutbox.rows = [] ∧
      (¬ ∃ r ∈ (run (bucketStep crates) empty actions).incomingRefs.rows,
        r.referee = chunkListId.toString crates ∧ r.referrer = bigChunkId.toString crates) ∧
      (∀ row, (run (bucketStep crates) empty actions).objects.find?
        (chunkListId.toString crates) = some row → row.evictionClass = 0) ∧
      ∀ r ∈ (run (bucketStep crates) empty actions).incomingRefs.rows,
        r.referee = bigChunkId.toString crates := by
  have hne : chunkListId.toString crates ≠ bigChunkId.toObjId.toString crates := by
    intro htext
    have hid := ObjId.toString_injective laws htext
    have htype : bigChunkId.toObjId.objType = "clist" := by
      simpa [ObjId.isChunkList, hid] using hlist
    rw [ObjId.isChunk, htype] at hchunk
    revert hchunk
    decide
  have h : SameAsInv (bigChunkId.toObjId.toString crates)
      (run (bucketStep crates) empty actions) :=
    run_invariant_of_forall (fun _ _ haction h => h.step hne haction) hactions
      (sameAsInv_empty _)
  have hplain := h.plain _ hne
  refine ⟨h.outbox, ?_, fun row hrow => (hplain.row row hrow).2.1, ?_⟩
  · rintro ⟨r, hr, hreferee, -⟩
    exact hplain.incoming r hr hreferee
  · intro r hr
    by_contra hother
    exact (h.plain r.referee hother).incoming r hr rfl

/-- A big chunk. -/
def sampleBigChunk : ChunkId := ⟨.mix256, 6 :: sha256Abc⟩

/-- The big chunk is declared, its list is put and the big chunk is anchored. -/
def sampleSameAsRun : List BucketAction :=
  [.op ⟨1, .setChunkItem (NamedStore.sameAsItem 1 sampleBigChunk 6 sampleChunkList)⟩,
    .op ⟨2, .setObject sampleChunkList "clist" sampleChunkListJson⟩,
    .op ⟨3, .pin sampleBigChunk.toObjId "app" .recursive none⟩,
    .op ⟨4, .fsAcquire sampleBigChunk.toObjId 7 0⟩]

theorem sampleSameAsRun_list_unprotected :
    (run (bucketStep sampleCrates) empty sampleSameAsRun).edgeOutbox.rows = [] ∧
      (¬ ∃ r ∈ (run (bucketStep sampleCrates) empty sampleSameAsRun).incomingRefs.rows,
        r.referee = sampleChunkList.toString sampleCrates ∧
          r.referrer = sampleBigChunk.toString sampleCrates) ∧
      (∀ row, (run (bucketStep sampleCrates) empty sampleSameAsRun).objects.find?
        (sampleChunkList.toString sampleCrates) = some row → row.evictionClass = 0) ∧
      ∀ r ∈ (run (bucketStep sampleCrates) empty sampleSameAsRun).incomingRefs.rows,
        r.referee = sampleBigChunk.toString sampleCrates := by
  apply sameAs_list_never_protected sampleCrates sampleCrates_lawful sampleBigChunk
    sampleChunkList (by decide) (by decide)
  intro action haction
  simp only [sampleSameAsRun, List.mem_cons, List.not_mem_nil, or_false] at haction
  rcases haction with rfl | rfl | rfl | rfl
  · exact ⟨6, rfl⟩
  · rfl
  · exact ⟨rfl, rfl⟩
  · rfl

/-- With the big chunk pinned and anchored and nothing pending, the list is an
eviction candidate. -/
theorem sampleSameAsRun_list_is_candidate :
    (run (bucketStep sampleCrates) empty sampleSameAsRun).edgeOutbox.rows = [] ∧
      (run (bucketStep sampleCrates) empty sampleSameAsRun).HasScopedPin .recursive
        (sampleBigChunk.toString sampleCrates) ∧
      (run (bucketStep sampleCrates) empty sampleSameAsRun).hasRef
        (sampleChunkList.toString sampleCrates, sampleBigChunk.toString sampleCrates) = false ∧
      (run (bucketStep sampleCrates) empty sampleSameAsRun).listGcCandidates 100 =
        [("clist:01", 77)] := by
  decide

end NamedLocalStoreDb

end NamedStore
end CyfsNdn

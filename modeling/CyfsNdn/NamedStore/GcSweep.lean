import CyfsNdn.NamedStore.ForcedGc

/-!
# A round of the collector is one sweep in LRU order

`gc_round` asks for the candidates in batches of a hundred, oldest first, and every
candidate that it looks at leaves the candidates: the row is deleted, or its class
is corrected.  So the batches together are one list of candidates, sorted by the
time of the last access, and the round takes them from the front until enough
bytes are free.

`Swept` says what the table looks like when a given list of candidates has been
visited.  It is kept by each visit, and a batch and a round only append to the
list.
-/

namespace CyfsNdn
namespace NamedStore

open NdnLib Relational

namespace NamedLocalStoreDb

/-- What a round may delete: a candidate without an active pin, an incoming
reference or a counted anchor.  The count is never negative, since every update
that lowers it is a `MAX(0, ..)`. -/
def Evictable (db : NamedLocalStoreDb) (now : Nat) (r : ObjectRow) : Prop :=
  isGcCandidate r = true ∧ ¬ db.HasActivePin now r.objId ∧ ¬ db.HasIncoming r.objId ∧
    r.fsAnchorCount ≤ 0

instance (db : NamedLocalStoreDb) (now : Nat) (r : ObjectRow) :
    Decidable (db.Evictable now r) :=
  inferInstanceAs (Decidable (isGcCandidate r = true ∧ ¬ db.HasActivePin now r.objId ∧
    ¬ db.HasIncoming r.objId ∧ r.fsAnchorCount ≤ 0))

/-- The evictable rows of a list. -/
def evictableRows (db : NamedLocalStoreDb) (now : Nat) (rows : List ObjectRow) :
    List ObjectRow :=
  rows.filter fun r => decide (db.Evictable now r)

/-- The bytes of a list of rows. -/
def ownedBytesSum (rows : List ObjectRow) : Nat :=
  (rows.map fun r => asU64 r.ownedBytes).sum

theorem ownedBytesSum_append (xs ys : List ObjectRow) :
    ownedBytesSum (xs ++ ys) = ownedBytesSum xs + ownedBytesSum ys := by
  simp [ownedBytesSum]

theorem ownedBytesSum_le_of_initial {xs ys : List ObjectRow} (h : xs <+: ys) :
    ownedBytesSum xs ≤ ownedBytesSum ys := by
  obtain ⟨zs, rfl⟩ := h
  rw [ownedBytesSum_append]
  omega

theorem evictableRows_append (db : NamedLocalStoreDb) (now : Nat) (xs ys : List ObjectRow) :
    db.evictableRows now (xs ++ ys) = db.evictableRows now xs ++ db.evictableRows now ys := by
  simp [evictableRows]

/-- For a candidate of the table the double check of `try_evict_object` is about
the facts. -/
theorem isProtectedTx_eq_not_evictable {db : NamedLocalStoreDb} {now : Nat} {r : ObjectRow}
    (hr : r ∈ db.objects.rows) (hcandidate : isGcCandidate r = true) :
    db.isProtectedTx now r.objId = !decide (db.Evictable now r) := by
  have hfind := Table.find?_key_of_mem hr
  have hcount : db.getFsAnchorCountTx r.objId = r.fsAnchorCount := by
    unfold getFsAnchorCountTx
    rw [hfind]
    rfl
  rw [Bool.eq_iff_iff]
  unfold isProtectedTx Evictable
  rw [hcount]
  simp only [Bool.or_eq_true, decide_eq_true_eq, hasActivePinTx_iff, hasIncomingTx_iff,
    Bool.not_eq_true', decide_eq_false_iff_not, hcandidate, true_and, gt_iff_lt]
  constructor
  · rintro ((hpin | hincoming) | hpos) ⟨hnopin, hnoincoming, hnone⟩
    · exact hnopin hpin
    · exact hnoincoming hincoming
    · omega
  · intro hsome
    by_contra hnone
    simp only [not_or] at hnone
    exact hsome ⟨hnone.1.1, hnone.1.2, by omega⟩

/-! ## What a list of visits has done -/

/-- The candidates of `visited`, and no other row, have been looked at: the
evictable ones are gone and the others have their class recomputed. -/
structure Swept (start : NamedLocalStoreDb) (now : Nat) (visited : List ObjectRow)
    (db : NamedLocalStoreDb) : Prop where
  pins : db.pins = start.pins
  incomingRefs : db.incomingRefs = start.incomingRefs
  evicted : ∀ r ∈ visited, start.Evictable now r → db.objects.find? r.objId = none
  corrected : ∀ r ∈ visited, ¬ start.Evictable now r → db.objects.find? r.objId =
    some { r with evictionClass := start.evictionClassTx now r.objId }
  others : ∀ k, k ∉ visited.map ObjectRow.objId →
    db.objects.find? k = start.objects.find? k
  candidates : db.objects.rows.filter isGcCandidate =
    (start.objects.rows.filter isGcCandidate).filter
      fun r => decide (r.objId ∉ visited.map ObjectRow.objId)

theorem Swept.refl (db : NamedLocalStoreDb) (now : Nat) : Swept db now [] db where
  pins := rfl
  incomingRefs := rfl
  evicted := by simp
  corrected := by simp
  others := fun _ _ => rfl
  candidates := by simp

/-- A visit takes the row out of the candidates and no other. -/
theorem filter_tryEvictObject {db : NamedLocalStoreDb} (now : Nat) (k : String) :
    (db.tryEvictObject now k).1.objects.rows.filter isGcCandidate =
      (db.objects.rows.filter isGcCandidate).filter fun r => decide (r.objId ≠ k) := by
  cases hprotected : db.isProtectedTx now k with
  | true =>
      have hclass := evictionClassTx_ne_zero hprotected
      unfold tryEvictObject
      rw [if_pos hprotected]
      refine Table.filter_updateKey db.objects k
        (fun r => { r with evictionClass := db.evictionClassTx now k }) (fun _ => rfl)
        isGcCandidate ?_
      intro r _
      simp [isGcCandidate, hclass]
  | false =>
      unfold tryEvictObject
      rw [hprotected]
      exact Table.filter_deleteKey _ _ _

section Visit

variable {start db : NamedLocalStoreDb} {now : Nat} {visited : List ObjectRow} {r : ObjectRow}

/-- A row that is still a candidate has not been visited and is as it was. -/
theorem Swept.mem_candidates (h : Swept start now visited db) :
    r ∈ db.objects.rows.filter isGcCandidate ↔
      r ∈ start.objects.rows.filter isGcCandidate ∧ r.objId ∉ visited.map ObjectRow.objId := by
  rw [h.candidates, List.mem_filter, decide_eq_true_eq]

/-- The next visit sees the facts of the start. -/
theorem Swept.sees (h : Swept start now visited db)
    (hr : r ∈ db.objects.rows.filter isGcCandidate) :
    db.objects.find? r.objId = some r ∧
      db.isProtectedTx now r.objId = !decide (start.Evictable now r) ∧
      db.evictionClassTx now r.objId = start.evictionClassTx now r.objId := by
  obtain ⟨hstart, hnew⟩ := h.mem_candidates.mp hr
  obtain ⟨hrows, hcandidate⟩ := List.mem_filter.mp hstart
  have hsame := h.others r.objId hnew
  have hpin : db.hasActivePinTx now r.objId = start.hasActivePinTx now r.objId := by
    unfold hasActivePinTx
    rw [h.pins]
  have hincoming : db.hasIncomingTx r.objId = start.hasIncomingTx r.objId := by
    unfold hasIncomingTx
    rw [h.incomingRefs]
  have hcount : db.getFsAnchorCountTx r.objId = start.getFsAnchorCountTx r.objId := by
    unfold getFsAnchorCountTx
    rw [hsame]
  refine ⟨?_, ?_, ?_⟩
  · rw [hsame]
    exact Table.find?_key_of_mem hrows
  · rw [← isProtectedTx_eq_not_evictable hrows hcandidate]
    unfold isProtectedTx
    rw [hpin, hincoming, hcount]
  · unfold evictionClassTx
    rw [hpin, hincoming, hcount]

/-- One visit. -/
theorem Swept.tryEvictObject (h : Swept start now visited db)
    (hr : r ∈ db.objects.rows.filter isGcCandidate) :
    Swept start now (visited ++ [r]) (db.tryEvictObject now r.objId).1 ∧
      (db.tryEvictObject now r.objId).2 = ownedBytesSum (start.evictableRows now [r]) := by
  obtain ⟨hfind, hprotected, hclass⟩ := h.sees hr
  obtain ⟨hstart, hnew⟩ := h.mem_candidates.mp hr
  have hne : ∀ s ∈ visited, s.objId ≠ r.objId := by
    intro s hs heq
    exact hnew (List.mem_map.mpr ⟨s, hs, heq⟩)
  have hcandidates : (db.tryEvictObject now r.objId).1.objects.rows.filter isGcCandidate =
      (start.objects.rows.filter isGcCandidate).filter
        fun s => decide (s.objId ∉ (visited ++ [r]).map ObjectRow.objId) := by
    rw [filter_tryEvictObject, h.candidates, List.filter_filter]
    congr 1
    funext s
    simp only [List.map_append, List.map_cons, List.map_nil, List.mem_append,
      List.mem_singleton, not_or, Bool.decide_and, ne_eq]
    rw [Bool.and_comm]
  have hothers : ∀ k, k ∉ (visited ++ [r]).map ObjectRow.objId →
      (db.tryEvictObject now r.objId).1.objects.find? k = start.objects.find? k := by
    intro k hk
    simp only [List.map_append, List.map_cons, List.map_nil, List.mem_append,
      List.mem_singleton, not_or] at hk
    rw [find?_tryEvictObject_of_ne hk.2]
    exact h.others k hk.1
  by_cases hevictable : start.Evictable now r
  · -- The row is deleted.
    have hopen : db.isProtectedTx now r.objId = false := by
      rw [hprotected]
      simp [hevictable]
    have hgone := Table.find?_deleteKey db.objects r.objId r.objId
    rw [if_pos rfl] at hgone
    refine ⟨⟨?_, ?_, ?_, ?_, hothers, hcandidates⟩, ?_⟩
    · unfold NamedLocalStoreDb.tryEvictObject
      rw [hopen]
      exact h.pins
    · unfold NamedLocalStoreDb.tryEvictObject
      rw [hopen]
      exact h.incomingRefs
    · intro s hs hsevictable
      rcases List.mem_append.mp hs with hold | hlast
      · rw [find?_tryEvictObject_of_ne (hne s hold)]
        exact h.evicted s hold hsevictable
      · rw [List.mem_singleton.mp hlast]
        unfold NamedLocalStoreDb.tryEvictObject
        rw [hopen]
        exact hgone
    · intro s hs hskept
      rcases List.mem_append.mp hs with hold | hlast
      · rw [find?_tryEvictObject_of_ne (hne s hold)]
        exact h.corrected s hold hskept
      · rw [List.mem_singleton.mp hlast] at hskept
        exact absurd hevictable hskept
    · unfold NamedLocalStoreDb.tryEvictObject
      rw [hopen, hfind]
      simp [evictableRows, ownedBytesSum, hevictable]
  · -- The row stays and its class is corrected.
    have hclosed : db.isProtectedTx now r.objId = true := by
      rw [hprotected]
      simp [hevictable]
    refine ⟨⟨?_, ?_, ?_, ?_, hothers, hcandidates⟩, ?_⟩
    · unfold NamedLocalStoreDb.tryEvictObject
      rw [if_pos hclosed]
      exact h.pins
    · unfold NamedLocalStoreDb.tryEvictObject
      rw [if_pos hclosed]
      exact h.incomingRefs
    · intro s hs hsevictable
      rcases List.mem_append.mp hs with hold | hlast
      · rw [find?_tryEvictObject_of_ne (hne s hold)]
        exact h.evicted s hold hsevictable
      · rw [List.mem_singleton.mp hlast] at hsevictable
        exact absurd hsevictable hevictable
    · intro s hs hskept
      rcases List.mem_append.mp hs with hold | hlast
      · rw [find?_tryEvictObject_of_ne (hne s hold)]
        exact h.corrected s hold hskept
      · rw [List.mem_singleton.mp hlast]
        unfold NamedLocalStoreDb.tryEvictObject
        rw [if_pos hclosed]
        show (db.recomputeEvictionClassTx now r.objId).objects.find? r.objId = _
        rw [find?_recomputeEvictionClassTx, if_pos rfl, hfind, Option.map_some, hclass]
    · unfold NamedLocalStoreDb.tryEvictObject
      rw [if_pos hclosed]
      simp [evictableRows, ownedBytesSum, hevictable]

/-- The visited rows and the remaining candidates are the candidates of the
start. -/
theorem Swept.perm (h : Swept start now visited db) (hnodup : visited.Nodup)
    (hvisited : ∀ v ∈ visited, v ∈ start.objects.rows.filter isGcCandidate) :
    (visited ++ db.objects.rows.filter isGcCandidate).Perm
      (start.objects.rows.filter isGcCandidate) := by
  have hrows : (start.objects.rows.filter isGcCandidate).Nodup :=
    (start.objects.keysNodup.of_map _).filter _
  refine (List.perm_ext_iff_of_nodup ?_ hrows).mpr ?_
  · refine List.Nodup.append hnodup ?_ ?_
    · rw [h.candidates]
      exact hrows.filter _
    · intro v hv hcandidate
      exact (h.mem_candidates.mp hcandidate).2 (List.mem_map_of_mem hv)
  · intro s
    rw [List.mem_append, h.mem_candidates]
    constructor
    · rintro (hs | ⟨hs, -⟩)
      · exact hvisited s hs
      · exact hs
    · intro hs
      by_cases hkey : s.objId ∈ visited.map ObjectRow.objId
      · obtain ⟨v, hv, hvs⟩ := List.mem_map.mp hkey
        have hvrow := (List.mem_filter.mp (hvisited v hv)).1
        have heq := Table.eq_of_key_eq start.objects hvrow (List.mem_filter.mp hs).1 hvs
        exact Or.inl (heq ▸ hv)
      · exact Or.inr ⟨hs, hkey⟩

end Visit

end NamedLocalStoreDb

namespace NamedStore

open NamedLocalStoreDb

/-! ## The batches and the round -/

/-- The round has visited `visited`, freed what is evictable in it, and has not
freed enough. -/
structure Sweeping (start : NamedLocalStoreDb) (now targetBytes : Nat)
    (visited : List ObjectRow) (store : NamedStore) (report : GcReport) : Prop where
  swept : Swept start now visited store.db
  freed : report.freedBytes = ownedBytesSum (start.evictableRows now visited)
  short : report.freedBytes < targetBytes

/-- The last visit was the one that freed enough. -/
structure SweptEnough (start : NamedLocalStoreDb) (now targetBytes : Nat)
    (visited : List ObjectRow) (store : NamedStore) (report : GcReport) : Prop where
  swept : Swept start now visited store.db
  freed : report.freedBytes = ownedBytesSum (start.evictableRows now visited)
  enough : targetBytes ≤ report.freedBytes
  last : ∃ before r, visited = before ++ [r] ∧
    ownedBytesSum (start.evictableRows now before) < targetBytes

section Batches

variable (crates : Crates) (fault : Option FsFault) {now targetBytes : Nat}
  {start : NamedLocalStoreDb}

/-- A batch visits a part of its list, and all of it when it goes on. -/
theorem evictCandidates_sweep (batch : List ObjectRow) :
    ∀ (visited : List ObjectRow) (store : NamedStore) (report : GcReport),
      Sweeping start now targetBytes visited store report →
      (∀ r ∈ batch, r ∈ store.db.objects.rows.filter isGcCandidate) →
      (batch.map ObjectRow.objId).Nodup →
      let done := evictCandidates crates now fault targetBytes store report
        (batch.map ObjectRow.objId)
      (done.2 = true ∧ ∃ front rest, batch = front ++ rest ∧
          SweptEnough start now targetBytes (visited ++ front) done.1.1 done.1.2) ∨
        (done.2 = false ∧
          Sweeping start now targetBytes (visited ++ batch) done.1.1 done.1.2) := by
  induction batch with
  | nil =>
      intro visited store report hsweeping _ _
      refine Or.inr ⟨rfl, ?_⟩
      rw [List.append_nil]
      exact hsweeping
  | cons r rest ih =>
      intro visited store report hsweeping hbatch hnodup
      obtain ⟨hswept, hbytes⟩ := hsweeping.swept.tryEvictObject (hbatch r (by simp))
      obtain ⟨hr, hrest⟩ := List.nodup_cons.mp hnodup
      have hdb := evictCandidate_db crates now fault store report r.objId
      have hfreed : (evictCandidate crates now fault store report r.objId).2.freedBytes =
          ownedBytesSum (start.evictableRows now (visited ++ [r])) := by
        rw [evictCandidate_freedBytes, hbytes, hsweeping.freed, evictableRows_append,
          ownedBytesSum_append]
      simp only [List.map_cons]
      unfold evictCandidates
      dsimp only
      split_ifs with henough
      · refine Or.inl ⟨rfl, [r], rest, rfl, ?_, hfreed, henough.2, visited, r, rfl, ?_⟩
        · rw [hdb]
          exact hswept
        · rw [← hsweeping.freed]
          exact hsweeping.short
      · have hpos : 0 < targetBytes := Nat.lt_of_le_of_lt (Nat.zero_le _) hsweeping.short
        have hnext : Sweeping start now targetBytes (visited ++ [r])
            (evictCandidate crates now fault store report r.objId).1
            (evictCandidate crates now fault store report r.objId).2 := by
          refine ⟨?_, hfreed, by omega⟩
          rw [hdb]
          exact hswept
        -- The rest of the batch is still there.
        have hstill : ∀ s ∈ rest, s ∈ (evictCandidate crates now fault store report
            r.objId).1.db.objects.rows.filter isGcCandidate := by
          intro s hs
          rw [hdb, filter_tryEvictObject, List.mem_filter, decide_eq_true_eq]
          refine ⟨hbatch s (by simp [hs]), ?_⟩
          intro heq
          exact hr (heq ▸ List.mem_map_of_mem hs)
        rcases ih _ _ _ hnext hstill hrest with ⟨hflag, front, back, hsplit, hdone⟩ |
          ⟨hflag, hdone⟩
        · refine Or.inl ⟨hflag, r :: front, back, by rw [hsplit]; rfl, ?_⟩
          rw [List.append_cons]
          exact hdone
        · refine Or.inr ⟨hflag, ?_⟩
          rw [List.append_cons]
          exact hdone

/-- The candidates of a table, oldest first. -/
def candidatesByAge (db : NamedLocalStoreDb) : List ObjectRow :=
  (db.objects.rows.filter isGcCandidate).insertionSort
    fun r s => r.lastAccessTime ≤ s.lastAccessTime

theorem map_fst_listGcCandidates (db : NamedLocalStoreDb) (limit : Nat) :
    (db.listGcCandidates limit).map Prod.fst =
      ((candidatesByAge db).take limit).map ObjectRow.objId := by
  unfold listGcCandidates candidatesByAge
  rw [List.map_map]
  rfl

theorem perm_candidatesByAge (db : NamedLocalStoreDb) :
    (candidatesByAge db).Perm (db.objects.rows.filter isGcCandidate) :=
  List.perm_insertionSort _ _

theorem pairwise_candidatesByAge (db : NamedLocalStoreDb) :
    (candidatesByAge db).Pairwise fun r s => r.lastAccessTime ≤ s.lastAccessTime :=
  List.pairwise_insertionSort _ _

/-- The order of a sweep: what was visited, then the other candidates. -/
structure SweepOrder (start : NamedLocalStoreDb) (order : List ObjectRow) : Prop where
  perm : order.Perm (start.objects.rows.filter isGcCandidate)
  oldestFirst : order.Pairwise fun r s => r.lastAccessTime ≤ s.lastAccessTime

/-- Whatever is still a candidate, in the order of its age, continues the sweep. -/
theorem SweepOrder.continue {visited : List ObjectRow} {db : NamedLocalStoreDb}
    {rest : List ObjectRow} (h : SweepOrder start (visited ++ rest))
    (hswept : Swept start now visited db) : SweepOrder start (visited ++ candidatesByAge db) := by
  have hnodup : (visited ++ rest).Nodup :=
    h.perm.nodup_iff.mpr ((start.objects.keysNodup.of_map _).filter _)
  have hperm := hswept.perm (List.nodup_append.mp hnodup).1 (by
    intro v hv
    exact h.perm.mem_iff.mp (List.mem_append_left _ hv))
  have hall := (List.Perm.append_left visited (perm_candidatesByAge db)).trans hperm
  have hrest : (candidatesByAge db).Perm rest :=
    (List.perm_append_left_iff visited).mp (hall.trans h.perm.symm)
  obtain ⟨hold, -, hacross⟩ := List.pairwise_append.mp h.oldestFirst
  refine ⟨hall, List.pairwise_append.mpr ⟨hold, pairwise_candidatesByAge db, ?_⟩⟩
  intro v hv c hc
  exact hacross v hv c (hrest.mem_iff.mp hc)

/-- The loop ends with enough freed, or with nothing left to visit. -/
theorem gcRoundLoop_sweep (fuel : Nat) :
    ∀ (visited : List ObjectRow) (store : NamedStore) (report : GcReport),
      Sweeping start now targetBytes visited store report →
      SweepOrder start (visited ++ candidatesByAge store.db) →
      store.db.candidateCount < fuel →
      let ended := gcRoundLoop crates now fault targetBytes fuel store report
      ∃ visited' rest, SweepOrder start (visited' ++ rest) ∧
        (SweptEnough start now targetBytes visited' ended.1 ended.2 ∨
          Sweeping start now targetBytes visited' ended.1 ended.2 ∧ rest = []) := by
  induction fuel with
  | zero =>
      intro visited store report _ _ hfuel
      omega
  | succ fuel ih =>
      intro visited store report hsweeping horder hfuel
      have hpos : 0 < targetBytes := Nat.lt_of_le_of_lt (Nat.zero_le _) hsweeping.short
      have hlist := map_fst_listGcCandidates store.db gcBatchSize
      unfold gcRoundLoop
      dsimp only
      rw [hlist]
      by_cases hempty : ((candidatesByAge store.db).take gcBatchSize).map ObjectRow.objId = []
      · rw [if_pos hempty]
        have hnone : candidatesByAge store.db = [] := by
          rw [List.map_eq_nil_iff, List.take_eq_nil_iff] at hempty
          rcases hempty with hzero | hnil
          · exact absurd hzero (by decide)
          · exact hnil
        refine ⟨visited, [], ?_, Or.inr ⟨hsweeping, rfl⟩⟩
        rw [hnone] at horder
        exact horder
      · rw [if_neg hempty]
        have hbatch : ∀ r ∈ (candidatesByAge store.db).take gcBatchSize,
            r ∈ store.db.objects.rows.filter isGcCandidate := by
          intro r hr
          exact (perm_candidatesByAge store.db).mem_iff.mp (List.mem_of_mem_take hr)
        have hnodup : (((candidatesByAge store.db).take gcBatchSize).map
            ObjectRow.objId).Nodup := by
          rw [← hlist]
          exact nodup_listGcCandidates store.db gcBatchSize
        have hsplit := List.take_append_drop gcBatchSize (candidatesByAge store.db)
        rcases evictCandidates_sweep crates fault _ visited store report hsweeping hbatch
          hnodup with ⟨hflag, front, back, hfront, hdone⟩ | ⟨hflag, hdone⟩
        · rw [if_pos (Or.inl hflag)]
          refine ⟨visited ++ front, back ++ (candidatesByAge store.db).drop gcBatchSize, ?_,
            Or.inl hdone⟩
          rw [← hsplit, hfront] at horder
          simpa only [List.append_assoc] using horder
        · have hcollected := (evictCandidates_spec crates now fault
            _ store report (Collecting.refl store.db now) hnodup (by
              intro k hk
              rw [← hlist] at hk
              exact mem_listGcCandidates hk)).2.2 hflag
          have hlength := List.length_pos_of_ne_nil hempty
          rw [if_neg (by rw [hflag]; simp; omega)]
          rw [← hsplit, ← List.append_assoc] at horder
          exact ih _ _ _ hdone (horder.continue hdone.swept) (by omega)

/-- More passes than candidates make no difference. -/
theorem gcRoundLoop_fuel (fuel : Nat) :
    ∀ (extra : Nat) (store : NamedStore) (report : GcReport),
      store.db.candidateCount < fuel →
      gcRoundLoop crates now fault targetBytes (fuel + extra) store report =
        gcRoundLoop crates now fault targetBytes fuel store report := by
  induction fuel with
  | zero =>
      intro extra store report hfuel
      omega
  | succ fuel ih =>
      intro extra store report hfuel
      rw [Nat.add_right_comm]
      unfold gcRoundLoop
      dsimp only
      split_ifs with hempty hflag
      · rfl
      · rfl
      · simp only [not_or, Bool.not_eq_true] at hflag
        have hcount := (evictCandidates_spec crates now fault _ store report
          (Collecting.refl store.db now)
          (nodup_listGcCandidates store.db gcBatchSize)
          (fun k hk => mem_listGcCandidates hk)).2.2 hflag.1
        have hlength := List.length_pos_of_ne_nil hempty
        exact ih extra _ _ (by omega)

theorem candidateCount_le (db : NamedLocalStoreDb) :
    db.candidateCount ≤ db.objects.rows.length := by
  unfold candidateCount
  apply Table.total_le_length
  intro r
  split_ifs
  · omega
  · omega

end Batches

section Round

variable {start : NamedLocalStoreDb} {now targetBytes : Nat} {store : NamedStore}
  {report : GcReport} {visited : List ObjectRow}

/-- Before the last visit not enough was freed. -/
theorem SweptEnough.short_of_prefix
    (h : SweptEnough start now targetBytes visited store report) {front : List ObjectRow}
    (hfront : front <+: start.evictableRows now visited)
    (hne : front ≠ start.evictableRows now visited) :
    ownedBytesSum front < targetBytes := by
  obtain ⟨before, r, rfl, hshort⟩ := h.last
  have hfreed := h.freed
  have henough := h.enough
  rw [evictableRows_append] at hfront hne hfreed
  -- The last visit freed something, so its row is evictable.
  have hlast : start.evictableRows now [r] = [r] := by
    by_cases hr : start.Evictable now r
    · simp [evictableRows, hr]
    · have hnil : start.evictableRows now [r] = [] := by simp [evictableRows, hr]
      rw [hnil, List.append_nil] at hfreed
      omega
  rw [hlast] at hfront hne
  rcases List.prefix_concat_iff.mp hfront with hall | hbefore
  · exact absurd hall hne
  · exact Nat.lt_of_le_of_lt (ownedBytesSum_le_of_initial hbefore) hshort

/-- A round with a target is a sweep of the candidates. -/
theorem gcRound_sweep (crates : Crates) (fault : Option FsFault) (store : NamedStore)
    (now : Nat) (htarget : 0 < targetBytes) :
    let ended := store.gcRound crates now fault targetBytes
    ∃ visited rest, SweepOrder store.db (visited ++ rest) ∧
      (SweptEnough store.db now targetBytes visited ended.1 ended.2 ∨
        Sweeping store.db now targetBytes visited ended.1 ended.2 ∧ rest = []) := by
  have hcount := candidateCount_le store.db
  exact gcRoundLoop_sweep crates fault _ [] store ⟨0, 0, 0, 0⟩
    ⟨Swept.refl store.db now, rfl, htarget⟩
    ⟨perm_candidatesByAge store.db, pairwise_candidatesByAge store.db⟩ (by omega)

/-- The round ends after at most one pass for each row, and it is an exact sweep:
there is an order of the candidates by the time of the last access, with the
evictable ones in the order `order`, such that it deletes the shortest front of
`order` that holds `targetBytes`, or all of `order`, and frees the bytes of what
it deletes, a sum that stays in a `u64` if all candidates fit in one.  A candidate that it finds protected keeps its row and gets the class
that its protection asks for; every other row stays as it is. -/
theorem gcRound_exact_lru_sweep (crates : Crates) (fault : Option FsFault)
    (store : NamedStore) (now targetBytes : Nat) (htarget : 0 < targetBytes) :
    let ended := store.gcRound crates now fault targetBytes
    (∀ extra, gcRoundLoop crates now fault targetBytes
        (store.db.objects.rows.length + 1 + extra) store ⟨0, 0, 0, 0⟩ = ended) ∧
      ∃ visited rest : List ObjectRow,
        let order := store.db.evictableRows now (visited ++ rest)
        let deleted := store.db.evictableRows now visited
        (visited ++ rest).Perm (store.db.objects.rows.filter isGcCandidate) ∧
        (visited ++ rest).Pairwise (fun r s => r.lastAccessTime ≤ s.lastAccessTime) ∧
        (∀ k, (store.db.objects.find? k ≠ none ∧ ended.1.db.objects.find? k = none) ↔
          ∃ r ∈ deleted, r.objId = k) ∧
        ended.2.freedBytes = ownedBytesSum deleted ∧
        (ownedBytesSum order < 2 ^ 64 → ended.2.freedBytes < 2 ^ 64) ∧
        deleted <+: order ∧
        (targetBytes ≤ ownedBytesSum deleted ∨ deleted = order) ∧
        (∀ front, front <+: deleted → front ≠ deleted →
          ownedBytesSum front < targetBytes) ∧
        (∀ r ∈ visited, ¬ store.db.Evictable now r →
          ended.1.db.objects.find? r.objId =
            some { r with evictionClass := store.db.evictionClassTx now r.objId }) ∧
        (∀ k, k ∉ visited.map ObjectRow.objId →
          ended.1.db.objects.find? k = store.db.objects.find? k) := by
  intro ended
  constructor
  · intro extra
    have hcount := candidateCount_le store.db
    exact gcRoundLoop_fuel crates fault _ extra store _ (by omega)
  · obtain ⟨visited, rest, horder, hended⟩ := gcRound_sweep crates fault store now htarget
    have hswept : Swept store.db now visited ended.1.db := by
      rcases hended with henough | ⟨hsweeping, -⟩
      · exact henough.swept
      · exact hsweeping.swept
    have hfreed : ended.2.freedBytes =
        ownedBytesSum (store.db.evictableRows now visited) := by
      rcases hended with henough | ⟨hsweeping, -⟩
      · exact henough.freed
      · exact hsweeping.freed
    refine ⟨visited, rest, horder.perm, horder.oldestFirst, ?_, hfreed, ?_, ?_, ?_, ?_,
      hswept.corrected, hswept.others⟩
    · intro k
      constructor
      · rintro ⟨hbefore, hafter⟩
        by_cases hk : k ∈ visited.map ObjectRow.objId
        · obtain ⟨r, hr, rfl⟩ := List.mem_map.mp hk
          refine ⟨r, List.mem_filter.mpr ⟨hr, ?_⟩, rfl⟩
          rw [decide_eq_true_eq]
          by_contra hkept
          rw [hswept.corrected r hr hkept] at hafter
          cases hafter
        · rw [hswept.others k hk] at hafter
          exact absurd hafter hbefore
      · rintro ⟨r, hr, rfl⟩
        obtain ⟨hvisited, hevictable⟩ := List.mem_filter.mp hr
        have hrow := (List.mem_filter.mp (horder.perm.mem_iff.mp
          (List.mem_append_left rest hvisited))).1
        refine ⟨?_, hswept.evicted r hvisited (of_decide_eq_true hevictable)⟩
        rw [Table.find?_key_of_mem hrow]
        exact Option.some_ne_none r
    · intro hfits
      have hle := ownedBytesSum_le_of_initial
        (List.prefix_append (store.db.evictableRows now visited)
          (store.db.evictableRows now rest))
      rw [← evictableRows_append] at hle
      omega
    · rw [evictableRows_append]
      exact List.prefix_append _ _
    · rcases hended with henough | ⟨-, hrest⟩
      · exact Or.inl (hfreed ▸ henough.enough)
      · right
        rw [hrest, List.append_nil]
    · intro front hfront hne
      rcases hended with henough | ⟨hsweeping, -⟩
      · exact henough.short_of_prefix hfront hne
      · have hle := ownedBytesSum_le_of_initial hfront
        have hshort := hsweeping.short
        rw [hfreed] at hshort
        omega

/-- Of three packages, asked for one byte, the one that was used longest ago goes; the pinned
one and the later one stay. -/
theorem packagesRun_swept :
    let store := Transition.run (step sampleCrates) (fromConfig false) packagesRun
    let swept := store.gcRound sampleCrates 7 none 1
    swept.2.freedBytes = 1 ∧ swept.1.db.objects.find? "pkg:01" = none ∧
      (∀ k ∈ ["pkg:02", "pkg:03"], swept.1.db.objects.find? k ≠ none) ∧
      ∃ visited rest : List ObjectRow,
        (visited ++ rest).Perm (store.db.objects.rows.filter isGcCandidate) ∧
        (visited ++ rest).Pairwise (fun r s => r.lastAccessTime ≤ s.lastAccessTime) ∧
        ownedBytesSum (store.db.evictableRows 7 visited) = 1 ∧
        ¬ ∃ r ∈ store.db.evictableRows 7 visited, r.objId = "pkg:03" := by
  intro store swept
  have hfreed : swept.2.freedBytes = 1 := by
    decide
  have hkept : ∀ k ∈ ["pkg:02", "pkg:03"], swept.1.db.objects.find? k ≠ none := by
    decide
  obtain ⟨-, visited, rest, hperm, holdest, hdeleted, hsum, -⟩ :=
    gcRound_exact_lru_sweep sampleCrates none store 7 1 (by decide)
  refine ⟨hfreed, by decide, hkept, visited, rest, hperm, holdest,
    hsum.symm.trans hfreed, ?_⟩
  exact fun hfound => hkept "pkg:03" (by simp) ((hdeleted "pkg:03").mpr hfound).2

end Round

end NamedStore

end NamedStore
end CyfsNdn

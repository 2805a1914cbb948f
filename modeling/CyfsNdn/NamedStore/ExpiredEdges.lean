import CyfsNdn.NamedStore.Cascade

/-!
# Evictions and pins that expire

A pin with a time to live stops to count by time alone.  The object that it
expanded stays expanded until the next transaction that refreshes it, and an
eviction is not such a transaction: it deletes the row and sends no message.

`ReasonInv` says what is left of the materialised state when pins expire: an
expanded object has a recursive pin, expired or not, an anchor or an incoming
reference.  So the only expanded object that an eviction can delete is one whose
recursive pins have all expired and have not been swept yet.
-/

namespace CyfsNdn
namespace NamedStore

open NdnLib Relational Transition

namespace NamedLocalStoreDb

/-- Something asks for the children of the key, an expired pin included. -/
def HasReason (db : NamedLocalStoreDb) (k : String) : Prop :=
  db.HasScopedPin .recursive k ∨ 0 < db.getFsAnchorCountTx k ∨ db.HasIncoming k

/-- An expanded row has a reason to be. -/
def ReasonAt (db : NamedLocalStoreDb) (k : String) : Prop :=
  ∀ row, db.objects.find? k = some row → row.childrenExpanded = true → db.HasReason k

/-- Every expanded row with a canonical key has a reason to be. -/
def ReasonInv (crates : Crates) (db : NamedLocalStoreDb) : Prop :=
  ∀ k, CanonicalKey crates k → db.ReasonAt k

section Reason

variable {crates : Crates} {db db' : NamedLocalStoreDb} {k : String}

theorem hasReason_of_want {now : Nat} (hwant : db.wantExpandedTx now k = true) :
    db.HasReason k := by
  obtain ⟨-, -, hrecursive | hcount | hincoming⟩ := wantExpandedTx_iff.mp hwant
  · obtain ⟨p, hp, hpk, hscope, -⟩ := hasScopedPinTx_iff.mp hrecursive
    exact Or.inl ⟨p, hp, hpk, hscope⟩
  · exact Or.inr (Or.inl hcount)
  · exact Or.inr (Or.inr (hasIncomingTx_iff.mp hincoming))

theorem HasReason.congr (h : db.HasReason k) (hsame : SameAt db db' k) : db'.HasReason k := by
  rcases h with ⟨p, hp, hpk, hscope⟩ | hcount | hincoming
  · exact Or.inl ⟨p, (hsame.pins p hpk).mpr hp, hpk, hscope⟩
  · refine Or.inr (Or.inl ?_)
    rw [hsame.getFsAnchorCountTx]
    exact hcount
  · exact Or.inr (Or.inr (hsame.hasIncoming_iff.mpr hincoming))

theorem HasReason.of_sameFacts (h : db.HasReason k) (hfacts : SameFacts db db') :
    db'.HasReason k := by
  unfold HasReason HasScopedPin HasIncoming
  rw [hfacts.pins, hfacts.incomingRefs, hfacts.getFsAnchorCountTx]
  exact h

theorem ReasonAt.congr (h : db.ReasonAt k) (hsame : SameAt db db' k) : db'.ReasonAt k := by
  intro row' hrow' hexpanded
  obtain ⟨row, hrow, huntimed⟩ := hsame.find?_some hrow'
  have hflag := (ObjectRow.untimed_eq huntimed).2.2.2
  exact (h row hrow (hflag ▸ hexpanded)).congr hsame

theorem reasonInv_empty (crates : Crates) : ReasonInv crates empty := by
  intro k _ row hrow
  cases hrow

/-- Facts that change at one key, followed by the refresh of that key. -/
theorem reasonInv_refreshTx {changed : NamedLocalStoreDb} {now : Nat} {objId : ObjId}
    (h : ReasonInv crates db)
    (hother : ∀ k', k' ≠ objId.toString crates → SameAt db changed k') :
    ReasonInv crates (changed.refreshTx crates now objId) := by
  intro k' hcanonical
  have hfacts := sameFacts_refreshTx crates changed now objId
  have hfind := find?_refreshTx crates changed now objId k'
  by_cases hk : k' = objId.toString crates
  · rw [if_pos hk] at hfind
    intro row hrow hexpanded
    rw [hfind] at hrow
    obtain ⟨old, -, rfl⟩ := Option.map_eq_some_iff.mp hrow
    exact (hasReason_of_want hexpanded).of_sameFacts hfacts
  · rw [if_neg hk] at hfind
    exact (h k' hcanonical).congr ((hother k' hk).trans (SameAt.of_sameFacts hfacts hfind))

/-- One text of a loop: a row that is expanded afterwards was so before, or it
should be.  The row of the text itself is of the second kind. -/
theorem expanded_refreshTextTx {now : Nat} {oidStr : String} {row : ObjectRow}
    (hrow : (db.refreshTextTx crates now oidStr).objects.find? k = some row)
    (hexpanded : row.childrenExpanded = true) :
    (∃ old, db.objects.find? k = some old ∧ old.childrenExpanded = true ∧
        ¬ (k = oidStr ∧ CanonicalKey crates k)) ∨ db.wantExpandedTx now k = true := by
  have hclass : ∀ r, (db.recomputeEvictionClassTx now oidStr).objects.find? k = some r →
      ∃ old, db.objects.find? k = some old ∧ old.childrenExpanded = r.childrenExpanded := by
    intro r hr
    rw [find?_recomputeEvictionClassTx] at hr
    split_ifs at hr
    · obtain ⟨old, hold, rfl⟩ := Option.map_eq_some_iff.mp hr
      exact ⟨old, hold, rfl⟩
    · exact ⟨r, hr, rfl⟩
  unfold refreshTextTx at hrow
  split at hrow
  · next oid hnew =>
    rw [find?_reconcileExpandStateTx] at hrow
    split_ifs at hrow with hk
    · obtain ⟨r, -, rfl⟩ := Option.map_eq_some_iff.mp hrow
      have hfacts := sameFacts_recomputeEvictionClassTx db now oidStr
      rw [hk, ← hfacts.wantExpandedTx]
      exact Or.inr (hk ▸ hexpanded)
    · obtain ⟨old, hold, hflag⟩ := hclass row hrow
      refine Or.inl ⟨old, hold, hflag.trans hexpanded, ?_⟩
      rintro ⟨rfl, oid', hnew', htext⟩
      rw [hnew] at hnew'
      cases hnew'
      exact hk htext.symm
  · next e hnew =>
    obtain ⟨old, hold, hflag⟩ := hclass row hrow
    refine Or.inl ⟨old, hold, hflag.trans hexpanded, ?_⟩
    rintro ⟨rfl, oid', hnew', -⟩
    rw [hnew] at hnew'
    cases hnew'

/-- The whole loop. -/
theorem expanded_foldl_refreshTextTx {now : Nat} {oidStrs : List String} {row : ObjectRow}
    (hrow : (oidStrs.foldl (refreshTextTx crates now) db).objects.find? k = some row)
    (hexpanded : row.childrenExpanded = true) :
    (∃ old, db.objects.find? k = some old ∧ old.childrenExpanded = true ∧
        ¬ (k ∈ oidStrs ∧ CanonicalKey crates k)) ∨ db.wantExpandedTx now k = true := by
  induction oidStrs generalizing db with
  | nil => exact Or.inl ⟨row, hrow, hexpanded, by simp⟩
  | cons oidStr rest ih =>
      rcases ih hrow with ⟨mid, hmid, hmidExpanded, hrest⟩ | hwant
      · rcases expanded_refreshTextTx hmid hmidExpanded with ⟨old, hold, hflag, hhead⟩ | hwant
        · refine Or.inl ⟨old, hold, hflag, ?_⟩
          rintro ⟨hmem, hcanonical⟩
          rcases List.mem_cons.mp hmem with hk | hmem
          · exact hhead ⟨hk, hcanonical⟩
          · exact hrest ⟨hmem, hcanonical⟩
        · exact Or.inr hwant
      · rw [(sameFacts_refreshTextTx crates db now oidStr).wantExpandedTx] at hwant
        exact Or.inr hwant

/-- Facts that change at listed keys, followed by the loop over the list. -/
theorem reasonInv_foldl_refreshTextTx {changed : NamedLocalStoreDb} {now : Nat}
    {oidStrs : List String} (h : ReasonInv crates db)
    (hrows : ∀ k row, changed.objects.find? k = some row →
      ∃ old, db.objects.find? k = some old ∧ old.childrenExpanded = row.childrenExpanded)
    (hother : ∀ k', k' ∉ oidStrs → SameAt db changed k') :
    ReasonInv crates (oidStrs.foldl (refreshTextTx crates now) changed) := by
  intro k hcanonical row hrow hexpanded
  have hfacts := sameFacts_foldl_refreshTextTx crates changed now oidStrs
  rcases expanded_foldl_refreshTextTx hrow hexpanded with ⟨mid, hmid, hmidExpanded, hnot⟩ | hwant
  · obtain ⟨old, hold, hflag⟩ := hrows k mid hmid
    have hk : k ∉ oidStrs := fun hmem => hnot ⟨hmem, hcanonical⟩
    have hreason := h k hcanonical old hold (hflag.trans hmidExpanded)
    exact (hreason.congr (hother k hk)).of_sameFacts hfacts
  · exact (hasReason_of_want hwant).of_sameFacts hfacts

end Reason

/-! ## One lemma for each operation -/

section Operations

variable {crates : Crates} {db : NamedLocalStoreDb}

theorem ReasonInv.putObjectInTx (h : ReasonInv crates db) (objId : ObjId)
  (objType objStr : String) (now : Nat) (logicalSize ownedBytes : Int) :
    ReasonInv crates
      (db.putObjectInTx crates objId objType objStr now logicalSize ownedBytes).1 := by
  unfold NamedLocalStoreDb.putObjectInTx
  simp only
  split
  · exact fun k hk => (h k hk).congr (SameAt.touchLastAccessTx db _ k _)
  · refine reasonInv_refreshTx h fun k' hk' => ?_
    exact sameAt_fillShadowTx db now objType objStr logicalSize ownedBytes hk'
  · intro k hcanonical
    by_cases hk : k = objId.toString crates
    · intro row hrow hexpanded
      change Table.find? _ _ = some row at hrow
      rw [find?_insertOrReplace_presentRow, if_pos hk, Option.some.injEq] at hrow
      rw [← hrow] at hexpanded
      cases hexpanded
    · exact (h k hcanonical).congr
        (sameAt_insertOrReplace_presentRow db now objType objStr logicalSize ownedBytes hk)

theorem ReasonInv.unpin (h : ReasonInv crates db) (now : Nat) (objId : ObjId)
    (owner : String) : ReasonInv crates (db.unpin crates now objId owner) := by
  unfold NamedLocalStoreDb.unpin
  simp only
  split_ifs with hdeleted
  · exact reasonInv_refreshTx h fun k' hk' => sameAt_deleteKey_pins db owner hk'
  · intro k hk
    refine (h k hk).congr (sameAt_deleteWhere_pins db _ ?_)
    intro q hq hclause
    exact absurd (Table.countWhere_pos.mpr ⟨q, hq, hclause⟩) hdeleted

theorem ReasonInv.deletePinsTx (h : ReasonInv crates db) (now : Nat) (p : PinRow → Bool) :
    ReasonInv crates (db.deletePinsTx crates now p).1 := by
  unfold NamedLocalStoreDb.deletePinsTx
  refine reasonInv_foldl_refreshTextTx h (fun k row hrow => ⟨row, hrow, rfl⟩) ?_
  intro k' hk'
  apply sameAt_deleteWhere_pins
  intro q hq hdeleted hqk
  apply hk'
  rw [List.mem_dedup, List.mem_map]
  exact ⟨q, List.mem_filter.mpr ⟨hq, hdeleted⟩, hqk⟩

theorem ReasonInv.applyEdge (h : ReasonInv crates db) (now : Nat) (msg : EdgeMsg) :
    ReasonInv crates (db.applyEdge crates now msg) :=
  reasonInv_refreshTx h fun _ hk' => sameAt_applyEdgeRefTx db now _ _ _ hk'

theorem ReasonInv.deliverEdge (h : ReasonInv crates db) (now seq : Nat) :
    ReasonInv crates (db.deliverEdge crates now seq) := by
  unfold NamedLocalStoreDb.deliverEdge
  split
  · exact h
  · split
    · exact h
    · split_ifs
      · exact h
      · exact h.applyEdge now _

theorem ReasonInv.tryEvictObject (h : ReasonInv crates db) (now : Nat) (k : String) :
    ReasonInv crates (db.tryEvictObject now k).1 := by
  unfold NamedLocalStoreDb.tryEvictObject
  split_ifs
  · have hfacts := sameFacts_recomputeEvictionClassTx db now k
    intro k' hcanonical row hrow hexpanded
    rw [find?_recomputeEvictionClassTx] at hrow
    split_ifs at hrow
    · obtain ⟨old, hold, rfl⟩ := Option.map_eq_some_iff.mp hrow
      exact (h k' hcanonical old hold hexpanded).of_sameFacts hfacts
    · exact (h k' hcanonical row hrow hexpanded).of_sameFacts hfacts
  · intro k' hcanonical
    have hfind := Table.find?_deleteKey db.objects k k'
    by_cases hk : k' = k
    · rw [if_pos hk] at hfind
      intro row hrow
      change Table.find? _ _ = some row at hrow
      rw [hfind] at hrow
      cases hrow
    · rw [if_neg hk] at hfind
      exact (h k' hcanonical).congr (sameAt_objects hfind rfl rfl rfl)

theorem CountInv.deliverEdge (h : db.CountInv) (crates : Crates) (now seq : Nat) :
    (db.deliverEdge crates now seq).CountInv := by
  unfold NamedLocalStoreDb.deliverEdge
  split
  · exact h
  · split
    · exact h
    · split_ifs
      · exact h
      · exact (h.applyEdge crates now _).congr (fun _ => rfl) rfl

end Operations

end NamedLocalStoreDb

/-! ## Runs with a clock and a collector -/

/-- A bucket with its clock, and the candidates that running collections have
listed and not tried yet. -/
structure CollectedBucket where
  db : NamedLocalStoreDb
  clock : Nat
  candidates : List String

namespace CollectedBucket

/-- An empty bucket. -/
def empty : CollectedBucket where
  db := NamedLocalStoreDb.empty
  clock := 0
  candidates := []

/-- What happens in such a bucket. -/
inductive Action where
  | setObject (objId : ObjId) (objType objStr : String)
  | pin (objId : ObjId) (owner : String) (scope : PinScope) (ttl : Option Nat)
  | unpin (objId : ObjId) (owner : String)
  | unpinOwner (owner : String)
  | expirePins
  | fsAcquire (objId : ObjId) (inodeId : UInt64) (fieldTag : UInt32)
  | fsRelease (objId : ObjId) (inodeId : UInt64) (fieldTag : UInt32)
  | deliver (seq : Nat)
  | tick (secs : Nat)
  | listCandidates
  | evict (objIdStr : String)
  deriving DecidableEq

/-- The effect on the database; the two halves of `gc_round` are the last two
actions, and only a listed candidate is tried. -/
def stepDb (crates : Crates) (s : CollectedBucket) : Action → NamedLocalStoreDb
  | .setObject objId objType objStr => s.db.setObject crates s.clock objId objType objStr
  | .pin objId owner scope ttl => s.db.pin crates s.clock objId owner scope ttl
  | .unpin objId owner => s.db.unpin crates s.clock objId owner
  | .unpinOwner owner => (s.db.unpinOwner crates s.clock owner).1
  | .expirePins => (s.db.expirePins crates s.clock).1
  | .fsAcquire objId inodeId fieldTag => s.db.fsAcquire crates s.clock objId inodeId fieldTag
  | .fsRelease objId inodeId fieldTag => s.db.fsRelease crates s.clock objId inodeId fieldTag
  | .deliver seq => s.db.deliverEdge crates s.clock seq
  | .tick _ => s.db
  | .listCandidates => s.db
  | .evict objIdStr =>
      if objIdStr ∈ s.candidates then (s.db.tryEvictObject s.clock objIdStr).1 else s.db

/-- One step. -/
def step (crates : Crates) (s : CollectedBucket) (action : Action) : CollectedBucket where
  db := s.stepDb crates action
  clock :=
    match action with
    | .tick secs => s.clock + secs
    | _ => s.clock
  candidates :=
    match action with
    | .listCandidates => s.candidates ++ (s.db.listGcCandidates 100).map Prod.fst
    | .evict objIdStr => s.candidates.erase objIdStr
    | _ => s.candidates

/-- The step tries to evict an expanded object that nothing protects and that has
a recursive pin whose time has passed. -/
def evictsExpiredParent (s : CollectedBucket) : Action → Bool
  | .evict objIdStr =>
      decide (objIdStr ∈ s.candidates) && s.db.getChildrenExpandedTx objIdStr &&
        decide (∃ p ∈ s.db.pins.rows, p.objId = objIdStr ∧ p.scope = .recursive ∧
          p.active (asI64 s.clock) = false) &&
        !s.db.isProtectedTx s.clock objIdStr
  | _ => false

/-- Everything that holds along such a run. -/
structure EdgeState (crates : Crates) (s : CollectedBucket) : Prop where
  count : s.db.CountInv
  edges : s.db.EdgeInv crates
  reason : s.db.ReasonInv crates

/-- Without an expired recursive pin, an unprotected row is not expanded. -/
theorem not_expanded_of_unprotected {db : NamedLocalStoreDb} {now : Nat} {k : String}
    (h : db.ReasonAt k) (hunprotected : db.isProtectedTx now k = false)
    (hpins : ∀ p ∈ db.pins.rows, p.objId = k → p.scope = .recursive →
      p.active (asI64 now) = true) {row : ObjectRow}
    (hrow : db.objects.find? k = some row) : row.childrenExpanded = false := by
  by_contra hexpanded
  rw [Bool.not_eq_false] at hexpanded
  simp only [NamedLocalStoreDb.isProtectedTx, Bool.or_eq_false_iff,
    decide_eq_false_iff_not] at hunprotected
  obtain ⟨⟨hpin, hincoming⟩, hcount⟩ := hunprotected
  rcases h row hrow hexpanded with ⟨p, hp, hpk, hscope⟩ | hanchor | hparent
  · have hactive : db.hasActivePinTx now k = true :=
      NamedLocalStoreDb.hasActivePinTx_iff.mpr ⟨p, hp, hpk, hpins p hp hpk hscope⟩
    rw [hpin] at hactive
    cases hactive
  · exact hcount hanchor
  · rw [NamedLocalStoreDb.hasIncomingTx_iff.mpr hparent] at hincoming
    cases hincoming

theorem EdgeState.step {crates : Crates} (laws : crates.Lawful) {s : CollectedBucket}
    {action : Action} (hallowed : s.evictsExpiredParent action = false)
    (h : EdgeState crates s) : EdgeState crates (s.step crates action) := by
  obtain ⟨hcount, hedges, hreason⟩ := h
  obtain ⟨db, clock, candidates⟩ := s
  cases action with
  | setObject objId objType objStr =>
      exact ⟨hcount.putObjectInTx crates objId objType objStr clock _ _,
        hedges.putObjectInTx laws hcount objId objType objStr clock _ _,
        hreason.putObjectInTx objId objType objStr clock _ _⟩
  | pin objId owner scope ttl =>
      exact ⟨hcount.pin crates clock objId owner scope ttl,
        hedges.pin laws clock objId owner scope ttl,
        NamedLocalStoreDb.reasonInv_refreshTx hreason fun k' hk' =>
          NamedLocalStoreDb.sameAt_insertPinTx db clock owner scope ttl hk'⟩
  | unpin objId owner =>
      exact ⟨hcount.unpin crates clock objId owner, hedges.unpin laws clock objId owner,
        hreason.unpin clock objId owner⟩
  | unpinOwner owner =>
      exact ⟨hcount.deletePinsTx crates clock _, hedges.deletePinsTx laws clock _,
        hreason.deletePinsTx clock _⟩
  | expirePins =>
      exact ⟨hcount.deletePinsTx crates clock _, hedges.deletePinsTx laws clock _,
        hreason.deletePinsTx clock _⟩
  | fsAcquire objId inodeId fieldTag =>
      refine ⟨?_, hedges.fsAcquire laws clock objId inodeId fieldTag,
        NamedLocalStoreDb.reasonInv_refreshTx hreason fun k' hk' =>
          NamedLocalStoreDb.sameAt_acquireAnchorTx db clock inodeId fieldTag hk'⟩
      exact (hcount.acquireAnchorTx clock _ inodeId fieldTag).of_sameFacts
        (NamedLocalStoreDb.sameFacts_refreshTx crates _ clock objId)
  | fsRelease objId inodeId fieldTag =>
      refine ⟨?_, hedges.fsRelease laws clock objId inodeId fieldTag,
        NamedLocalStoreDb.reasonInv_refreshTx hreason fun k' hk' =>
          NamedLocalStoreDb.sameAt_releaseAnchorTx db inodeId fieldTag hk'⟩
      exact (hcount.releaseAnchorTx _ inodeId fieldTag).of_sameFacts
        (NamedLocalStoreDb.sameFacts_refreshTx crates _ clock objId)
  | deliver seq =>
      exact ⟨hcount.deliverEdge crates clock seq, hedges.deliverEdge laws clock seq,
        hreason.deliverEdge clock seq⟩
  | tick secs => exact ⟨hcount, hedges, hreason⟩
  | listCandidates => exact ⟨hcount, hedges, hreason⟩
  | evict objIdStr =>
      by_cases hlisted : objIdStr ∈ candidates
      · have hstep : (CollectedBucket.step crates ⟨db, clock, candidates⟩
            (.evict objIdStr)).db = (db.tryEvictObject clock objIdStr).1 := if_pos hlisted
        constructor
        · rw [hstep]
          exact hcount.tryEvictObject clock objIdStr
        · rw [hstep]
          apply hedges.tryEvictObject clock objIdStr
          intro hcanonical hunprotected row hrow
          by_contra hexpanded
          rw [Bool.not_eq_false] at hexpanded
          have hflag : db.getChildrenExpandedTx objIdStr = true := by
            rw [NamedLocalStoreDb.getChildrenExpandedTx, hrow]
            exact hexpanded
          -- The condition on the step leaves no recursive pin that has expired.
          simp only [evictsExpiredParent, hlisted, hflag, hunprotected, decide_true,
            Bool.not_false, Bool.and_true, Bool.true_and, decide_eq_false_iff_not,
            not_exists, not_and, Bool.not_eq_false] at hallowed
          rw [not_expanded_of_unprotected (hreason objIdStr hcanonical) hunprotected hallowed
            hrow] at hexpanded
          cases hexpanded
        · rw [hstep]
          exact hreason.tryEvictObject clock objIdStr
      · have hstep : (CollectedBucket.step crates ⟨db, clock, candidates⟩
            (.evict objIdStr)).db = db := if_neg hlisted
        constructor
        all_goals rw [hstep]
        · exact hcount
        · exact hedges
        · exact hreason

/-- No edge leaks.  In a run that never evicts an expanded object on the strength
of an expired pin, once no message is pending every incoming reference comes from
a row that is there and expanded. -/
theorem drained_incomingRefs_have_expanded_referrer (crates : Crates) (laws : crates.Lawful)
    (actions : List Action)
    (hallowed : Along (step crates) (fun s action => s.evictsExpiredParent action = false)
      empty actions)
    (hdrained : (run (step crates) empty actions).db.edgeOutbox.rows = []) :
    ∀ r ∈ (run (step crates) empty actions).db.incomingRefs.rows,
      ∃ row, (run (step crates) empty actions).db.objects.find? r.referrer = some row ∧
        row.childrenExpanded = true := by
  have h : EdgeState crates (run (step crates) empty actions) :=
    run_invariant (fun _ _ hstep h => h.step laws hstep) hallowed
      ⟨NamedLocalStoreDb.countInv_empty, NamedLocalStoreDb.edgeInv_empty crates,
        NamedLocalStoreDb.reasonInv_empty crates⟩
  intro r hr
  have href := NamedLocalStoreDb.hasRef_iff.mpr ⟨r, hr, rfl, rfl⟩
  have hcanonical := h.edges.referrers r hr
  obtain ⟨row, hrow, hexpanded, -⟩ :=
    (h.edges.hasRef_iff_of_drained hdrained hcanonical r.referee).mp href
  exact ⟨row, hrow, hexpanded⟩

section Samples

open NamedLocalStoreDb (sampleChunkList sampleChunkListJson)

/-- A list is listed for eviction and then pinned for five seconds; the expired
pin is swept before the eviction, and the list comes back with an anchor. -/
def sweptRun : List Action :=
  [.setObject sampleChunkList "clist" sampleChunkListJson, .listCandidates,
    .pin sampleChunkList "app" .recursive (some 5), .deliver 1, .tick 10, .expirePins,
    .deliver 2, .evict "clist:01", .fsAcquire sampleChunkList 7 0,
    .setObject sampleChunkList "clist" sampleChunkListJson, .deliver 3]

/-- In the swept run the chunk ends with one reference, from the expanded list. -/
theorem sweptRun_referrer_expanded :
    (run (step sampleCrates) empty sweptRun).db.incomingRefs.rows.map
        IncomingRefRow.referrer = ["clist:01"] ∧
      ∀ r ∈ (run (step sampleCrates) empty sweptRun).db.incomingRefs.rows,
        ∃ row, (run (step sampleCrates) empty sweptRun).db.objects.find? r.referrer =
            some row ∧ row.childrenExpanded = true := by
  -- one evaluation of the run for all three facts
  have hrun : (run (step sampleCrates) empty sweptRun).db.incomingRefs.rows.map
        IncomingRefRow.referrer = ["clist:01"] ∧
      Along (step sampleCrates) (fun s action => s.evictsExpiredParent action = false) empty
        sweptRun ∧
      (run (step sampleCrates) empty sweptRun).db.edgeOutbox.rows = [] := by
    decide +kernel
  obtain ⟨hrefs, hallowed, hdrained⟩ := hrun
  exact ⟨hrefs, drained_incomingRefs_have_expanded_referrer sampleCrates
    sampleCrates_lawful sweptRun hallowed hdrained⟩

/-- The same list without the sweep. -/
def unsweptRun : List Action :=
  [.setObject sampleChunkList "clist" sampleChunkListJson, .listCandidates,
    .pin sampleChunkList "app" .recursive (some 5), .deliver 1, .tick 10, .evict "clist:01"]

/-- The chunk keeps the reference of a list that is gone, with nothing pending
that could take it back. -/
theorem unsweptRun_leaks_edge :
    (run (step sampleCrates) empty unsweptRun).db.edgeOutbox.rows = [] ∧
      (run (step sampleCrates) empty unsweptRun).db.incomingRefs.rows.map
        IncomingRefRow.referrer = ["clist:01"] ∧
      (run (step sampleCrates) empty unsweptRun).db.objects.find? "clist:01" = none := by
  decide

end Samples

end CollectedBucket

end NamedStore
end CyfsNdn

import CyfsNdn.NamedStore.GcSweep
import CyfsNdn.NamedStore.NamedDataMgr
import Mathlib.Data.List.TakeWhile

/-!
# Forced collections over several stores

`NamedDataMgr::forced_gc_until` drives one store after the other.  A store that
cannot free all that is still asked for answers with an error, and the error does
not say how much it did free; the second round on the same store then finds
nothing left.  So what such a store freed is lost to the count, and the next store
is asked for all of it again.

The count is right exactly when no store is in that position: either nothing is
freed before the first store that can free the target alone, or all stores
together hold less than the target.
-/

namespace CyfsNdn
namespace NamedStore

open NdnLib Relational

namespace NamedDataMgr

/-- The loop of `NamedDataMgr::forced_gc_until` over `stores.values()`, the stores
in the order in which the map yields them.  It gives the stores after the call and
`total_freed`. -/
def forcedGcUntilFrom (crates : Crates) (now : Nat) (fault : Option FsFault)
    (targetBytes : Nat) : Nat → List NamedStore → List NamedStore × Nat
  | totalFreed, [] => ([], totalFreed)
  | totalFreed, store :: rest =>
      if targetBytes ≤ totalFreed then (store :: rest, totalFreed)
      else
        let remaining := targetBytes - totalFreed
        let forced := store.forcedGcUntil crates now fault remaining
        match forced.2 with
        | .ok freed =>
            let next := forcedGcUntilFrom crates now fault targetBytes (totalFreed + freed) rest
            (forced.1 :: next.1, next.2)
        | .error _ =>
            -- This store could not free enough; it gets a second round.
            let round := forced.1.gcRound crates now fault remaining
            let next := forcedGcUntilFrom crates now fault targetBytes
              (totalFreed + round.2.freedBytes) rest
            (round.1 :: next.1, next.2)

/-- `NamedDataMgr::forced_gc_until`. -/
def forcedGcUntil (crates : Crates) (now : Nat) (fault : Option FsFault)
    (stores : List NamedStore) (targetBytes : Nat) : List NamedStore × NdnResult Nat :=
  let ended := forcedGcUntilFrom crates now fault targetBytes 0 stores
  if targetBytes ≤ ended.2 then (ended.1, .ok ended.2)
  else
    (ended.1, .error (.ioError ("ENOSPC: freed " ++ toString ended.2 ++
      " bytes but needed " ++ toString targetBytes ++
      "; no class-0 owned bytes left to evict")))

end NamedDataMgr

namespace NamedLocalStoreDb

/-- The bytes of the rows that are gone. -/
def evictedBytes (before after : NamedLocalStoreDb) : Nat :=
  ownedBytesSum (before.objects.rows.filter fun r => (after.objects.find? r.objId).isNone)

theorem evictedBytes_self (db : NamedLocalStoreDb) : evictedBytes db db = 0 := by
  have hnone : db.objects.rows.filter (fun r => (db.objects.find? r.objId).isNone) = [] := by
    rw [List.filter_eq_nil_iff]
    intro r hr
    rw [Table.find?_key_of_mem hr]
    simp
  unfold evictedBytes
  rw [hnone]
  rfl

/-- A sweep evicts the evictable rows that it visits. -/
theorem Swept.evictedBytes_eq {start db : NamedLocalStoreDb} {now : Nat}
    {visited rest : List ObjectRow} (h : Swept start now visited db)
    (hperm : (visited ++ rest).Perm (start.objects.rows.filter isGcCandidate)) :
    evictedBytes start db = ownedBytesSum (start.evictableRows now visited) := by
  have hrows : start.objects.rows.Nodup := start.objects.keysNodup.of_map _
  have hnodup : (visited ++ rest).Nodup := hperm.nodup_iff.mpr (hrows.filter _)
  have hgone : (start.objects.rows.filter fun r => (db.objects.find? r.objId).isNone).Perm
      (start.evictableRows now visited) := by
    refine (List.perm_ext_iff_of_nodup (hrows.filter _)
      ((List.nodup_append.mp hnodup).1.filter _)).mpr ?_
    intro r
    rw [List.mem_filter, List.mem_filter, Option.isNone_iff_eq_none, decide_eq_true_eq]
    constructor
    · rintro ⟨hr, hnone⟩
      by_cases hkey : r.objId ∈ visited.map ObjectRow.objId
      · obtain ⟨v, hv, hvr⟩ := List.mem_map.mp hkey
        have hvrow := (List.mem_filter.mp
          (hperm.mem_iff.mp (List.mem_append_left rest hv))).1
        obtain rfl := Table.eq_of_key_eq start.objects hvrow hr hvr
        refine ⟨hv, ?_⟩
        by_contra hkept
        rw [h.corrected v hv hkept] at hnone
        cases hnone
      · rw [h.others _ hkey, Table.find?_key_of_mem hr] at hnone
        cases hnone
    · rintro ⟨hv, hevictable⟩
      have hrow := (List.mem_filter.mp
        (hperm.mem_iff.mp (List.mem_append_left rest hv))).1
      exact ⟨hrow, h.evicted r hv hevictable⟩
  exact (hgone.map _).sum_eq

end NamedLocalStoreDb

namespace NamedDataMgr

open NamedLocalStoreDb NamedStore

/-- The bytes evicted from all stores. -/
def totalEvicted (before after : List NamedStore) : Nat :=
  (List.zipWith (fun s s' : NamedStore => evictedBytes s.db s'.db) before after).sum

/-- The bytes that a store can free. -/
def evictable (now : Nat) (store : NamedStore) : Nat :=
  store.db.evictableBytes now

/-- What the answer of a forced collection should say about what it did. -/
structure AccountsFor (before after : List NamedStore) (targetBytes : Nat)
    (answer : NdnResult Nat) : Prop where
  ok : ∀ n, answer = .ok n → n = totalEvicted before after ∧ targetBytes ≤ n
  enospc : ∀ e, answer = .error e → totalEvicted before after < targetBytes

/-- The stores that come before the first one that can free the target alone. -/
def storesBefore (now targetBytes : Nat) (stores : List NamedStore) : List NamedStore :=
  stores.takeWhile fun store => decide (evictable now store < targetBytes)

section Forced

variable (crates : Crates) (now : Nat) (fault : Option FsFault) {targetBytes : Nat}

theorem totalEvicted_self (stores : List NamedStore) : totalEvicted stores stores = 0 := by
  unfold totalEvicted
  induction stores with
  | nil => rfl
  | cons store rest ih =>
      rw [List.zipWith_cons_cons, List.sum_cons, ih, evictedBytes_self]

/-- A round frees the bytes of the rows that it deletes. -/
theorem evictedBytes_gcRound (store : NamedStore) (htarget : 0 < targetBytes) :
    evictedBytes store.db (store.gcRound crates now fault targetBytes).1.db =
      (store.gcRound crates now fault targetBytes).2.freedBytes := by
  obtain ⟨visited, rest, horder, hended⟩ := gcRound_sweep crates fault store now htarget
  rcases hended with henough | ⟨hsweeping, -⟩
  · rw [henough.swept.evictedBytes_eq horder.perm, henough.freed]
  · rw [hsweeping.swept.evictedBytes_eq horder.perm, hsweeping.freed]

/-- Without candidates a round does nothing. -/
theorem gcRound_of_no_candidate {store : NamedStore}
    (h : ∀ r ∈ store.db.objects.rows, isGcCandidate r = false) :
    store.gcRound crates now fault targetBytes = (store, ⟨0, 0, 0, 0⟩) := by
  have hfilter : store.db.objects.rows.filter isGcCandidate = [] := by
    rw [List.filter_eq_nil_iff]
    intro r hr
    rw [h r hr]
    exact Bool.false_ne_true
  have hlist : (store.db.listGcCandidates gcBatchSize).map Prod.fst = [] := by
    rw [map_fst_listGcCandidates, candidatesByAge, hfilter]
    rfl
  unfold gcRound gcRoundLoop
  dsimp only
  rw [if_pos hlist]

/-- One store: it frees the target and says how much it freed, or it frees all
that it can and its second round frees nothing. -/
theorem forcedGcUntil_one (store : NamedStore) (htarget : 0 < targetBytes) :
    let forced := store.forcedGcUntil crates now fault targetBytes
    (targetBytes ≤ evictable now store ∧ ∃ freed, forced.2 = .ok freed ∧
        targetBytes ≤ freed ∧ evictedBytes store.db forced.1.db = freed) ∨
      (evictable now store < targetBytes ∧ (∃ e, forced.2 = .error e) ∧
        forced.1.gcRound crates now fault targetBytes = (forced.1, ⟨0, 0, 0, 0⟩) ∧
        evictedBytes store.db forced.1.db = evictable now store) := by
  obtain ⟨-, hmost, hless⟩ := gcRound_spec crates now fault store htarget
  have hevicted := evictedBytes_gcRound crates now fault store htarget
  unfold NamedStore.forcedGcUntil evictable
  dsimp only
  by_cases henough : targetBytes ≤ (store.gcRound crates now fault targetBytes).2.freedBytes
  · rw [if_pos henough]
    exact Or.inl ⟨by omega, _, rfl, henough, hevicted⟩
  · obtain ⟨hnone, hall⟩ := hless (by omega)
    rw [if_neg henough]
    exact Or.inr ⟨by omega, ⟨_, rfl⟩, gcRound_of_no_candidate crates now fault hnone,
      hevicted.trans hall⟩

/-- When enough is counted the loop stops and the other stores stay as they are. -/
theorem forcedGcUntilFrom_of_enough {totalFreed : Nat} (h : targetBytes ≤ totalFreed)
    (stores : List NamedStore) :
    forcedGcUntilFrom crates now fault targetBytes totalFreed stores = (stores, totalFreed) := by
  cases stores with
  | nil => rfl
  | cons store rest =>
      unfold forcedGcUntilFrom
      rw [if_pos h]

/-- The loop: it counts nothing until a store can free the target alone, and that
store ends it. -/
theorem forcedGcUntilFrom_spec (htarget : 0 < targetBytes) (stores : List NamedStore) :
    let ended := forcedGcUntilFrom crates now fault targetBytes 0 stores
    let skipped := ((storesBefore now targetBytes stores).map (evictable now)).sum
    ((∃ store ∈ stores, targetBytes ≤ evictable now store) ∧ targetBytes ≤ ended.2 ∧
        totalEvicted stores ended.1 = skipped + ended.2) ∨
      ((∀ store ∈ stores, evictable now store < targetBytes) ∧ ended.2 = 0 ∧
        totalEvicted stores ended.1 = skipped) := by
  induction stores with
  | nil => exact Or.inr ⟨by simp, rfl, rfl⟩
  | cons store rest ih =>
      unfold forcedGcUntilFrom storesBefore
      dsimp only at ih ⊢
      rw [if_neg (by omega), Nat.sub_zero]
      rcases forcedGcUntil_one crates now fault store htarget with
        ⟨hcan, freed, hok, henough, hevicted⟩ | ⟨hcannot, ⟨e, herror⟩, hround, hevicted⟩
      · -- This store frees the target, and the loop ends.
        rw [hok]
        dsimp only
        rw [Nat.zero_add, forcedGcUntilFrom_of_enough crates now fault henough]
        have hfront : (store :: rest).takeWhile
            (fun store => decide (evictable now store < targetBytes)) = [] := by
          rw [List.takeWhile_cons_of_neg]
          simpa using hcan
        refine Or.inl ⟨⟨store, by simp, hcan⟩, henough, ?_⟩
        rw [hfront]
        have hrest := totalEvicted_self rest
        unfold totalEvicted at hrest ⊢
        rw [List.zipWith_cons_cons, List.sum_cons, hrest, hevicted]
        simp
      · -- What this store freed is not counted.
        rw [herror]
        dsimp only
        rw [hround]
        dsimp only
        rw [Nat.zero_add]
        have hfront : (store :: rest).takeWhile
            (fun store => decide (evictable now store < targetBytes)) =
              store :: storesBefore now targetBytes rest := by
          rw [List.takeWhile_cons_of_pos (by simpa using hcannot)]
          rfl
        have htotal : totalEvicted (store :: rest)
            ((store.forcedGcUntil crates now fault targetBytes).1 ::
              (forcedGcUntilFrom crates now fault targetBytes 0 rest).1) =
            evictable now store +
              totalEvicted rest (forcedGcUntilFrom crates now fault targetBytes 0 rest).1 := by
          unfold totalEvicted
          rw [List.zipWith_cons_cons, List.sum_cons, hevicted]
        rw [hfront, htotal, List.map_cons, List.sum_cons]
        rcases ih with ⟨⟨s, hs, hcan⟩, henough, hsum⟩ | ⟨hall, hzero, hsum⟩
        · exact Or.inl ⟨⟨s, by simp [hs], hcan⟩, henough, by omega⟩
        · refine Or.inr ⟨?_, hzero, by omega⟩
          intro s hs
          rcases List.mem_cons.mp hs with rfl | hs
          · exact hcannot
          · exact hall s hs

/-- The answer accounts for what was evicted exactly when nothing is asked for, or
all stores together hold less than the target, or one store can free the target
alone and the stores that are driven before it hold nothing. -/
theorem forcedGcUntil_accountsFor_iff (stores : List NamedStore) (targetBytes : Nat) :
    let ended := forcedGcUntil crates now fault stores targetBytes
    AccountsFor stores ended.1 targetBytes ended.2 ↔
      targetBytes = 0 ∨
        (stores.map (evictable now)).sum < targetBytes ∨
        ((∃ store ∈ stores, targetBytes ≤ evictable now store) ∧
          ∀ store ∈ storesBefore now targetBytes stores, evictable now store = 0) := by
  intro ended
  by_cases htarget : targetBytes = 0
  · subst htarget
    refine iff_of_true ?_ (Or.inl rfl)
    show AccountsFor stores (forcedGcUntil crates now fault stores 0).1 0
      (forcedGcUntil crates now fault stores 0).2
    unfold forcedGcUntil
    rw [forcedGcUntilFrom_of_enough crates now fault (Nat.le_refl 0)]
    constructor
    · intro n hn
      cases hn
      exact ⟨(totalEvicted_self stores).symm, Nat.le_refl 0⟩
    · intro e he
      cases he
  · have hspec := forcedGcUntilFrom_spec crates now fault (Nat.pos_of_ne_zero htarget) stores
    have hended : ended = forcedGcUntil crates now fault stores targetBytes := rfl
    unfold forcedGcUntil at hended
    dsimp only at hspec hended
    rcases hspec with ⟨hcan, henough, hsum⟩ | ⟨hall, hzero, hsum⟩
    · -- A store ends the loop.
      rw [if_pos henough] at hended
      have hle : targetBytes ≤ (stores.map (evictable now)).sum := by
        obtain ⟨store, hs, hstore⟩ := hcan
        exact Nat.le_trans hstore (List.single_le_sum (by simp) _ (List.mem_map_of_mem hs))
      constructor
      · intro haccounts
        refine Or.inr (Or.inr ⟨hcan, ?_⟩)
        have hok := (haccounts.ok _ (by rw [hended])).1
        rw [hended] at hok
        dsimp only at hok
        intro store hs
        have hmem : evictable now store ≤
            ((storesBefore now targetBytes stores).map (evictable now)).sum :=
          List.single_le_sum (by simp) _ (List.mem_map_of_mem hs)
        omega
      · intro hcondition
        have hskipped : ((storesBefore now targetBytes stores).map (evictable now)).sum = 0 := by
          rcases hcondition with hzero | hless | ⟨-, hnothing⟩
          · exact absurd hzero htarget
          · omega
          · rw [List.sum_eq_zero]
            intro n hn
            obtain ⟨store, hs, rfl⟩ := List.mem_map.mp hn
            exact hnothing store hs
        rw [hended]
        constructor
        · intro n hn
          cases hn
          exact ⟨by dsimp only; omega, henough⟩
        · intro e he
          cases he
    · -- No store frees the target, and nothing is counted.
      have hfront : storesBefore now targetBytes stores = stores := by
        rw [storesBefore, List.takeWhile_eq_self_iff]
        intro store hs
        simpa using hall store hs
      rw [hfront] at hsum
      rw [if_neg (by omega)] at hended
      constructor
      · intro haccounts
        have hless := haccounts.enospc _ (by rw [hended])
        rw [hended] at hless
        dsimp only at hless
        exact Or.inr (Or.inl (by omega))
      · intro hcondition
        rw [hended]
        constructor
        · intro n hn
          cases hn
        · intro e _
          dsimp only
          rcases hcondition with hzero' | hless | ⟨⟨store, hs, hcan⟩, -⟩
          · exact absurd hzero' htarget
          · omega
          · have hcannot := hall store hs
            omega

end Forced

/-- A store that holds one package and nothing that protects it. -/
def packageRun : List StoreCall :=
  [⟨0, .putObject samplePackage "x"⟩]

/-- Two stores that hold one package of one byte each. -/
def twoStores : List NamedStore :=
  [Transition.run (step sampleCrates) (fromConfig false) packageRun,
    Transition.run (step sampleCrates) (fromConfig false) packageRun]

/-- Asked for two bytes they free both and answer `ENOSPC: freed 0 bytes`. -/
theorem twoStores_enospc_after_two_bytes :
    (forcedGcUntil sampleCrates 0 none twoStores 2).2 =
        .error (.ioError ("ENOSPC: freed 0 bytes but needed 2; " ++
          "no class-0 owned bytes left to evict")) ∧
      totalEvicted twoStores (forcedGcUntil sampleCrates 0 none twoStores 2).1 = 2 ∧
      ¬ AccountsFor twoStores (forcedGcUntil sampleCrates 0 none twoStores 2).1 2
        (forcedGcUntil sampleCrates 0 none twoStores 2).2 := by
  have henospc : (forcedGcUntil sampleCrates 0 none twoStores 2).2 =
      .error (.ioError ("ENOSPC: freed 0 bytes but needed 2; " ++
        "no class-0 owned bytes left to evict")) := by
    decide
  have hevicted : totalEvicted twoStores (forcedGcUntil sampleCrates 0 none twoStores 2).1 =
      2 := by
    decide
  refine ⟨henospc, hevicted, ?_⟩
  intro haccounts
  have hless := haccounts.enospc _ henospc
  omega

end NamedDataMgr

end NamedStore
end CyfsNdn

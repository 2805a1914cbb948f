import Mathlib.Algebra.Field.ZMod
import Mathlib.Algebra.BigOperators.Group.Finset.Basic
import Mathlib.Data.List.GetD
import CyfsNdn.NamedStore.StoreLayout

/-!
# The lookup table is full and fair

The walk of a target visits every slot once because the number of slots is prime.
What the loops keep is that all slots behind a target on its walk are taken, so a
search that starts where the last one stopped finds an empty slot before the walk
comes round, as long as there is one.

Fairness is an equation: with `c` finished rounds, what a target owns and what it
may still claim in this round add up to `c + 1` times its weight.
-/

namespace CyfsNdn
namespace NamedStore

open NdnLib

/-! ## Walking round a prime number of slots -/

/-- A walk with any step visits every slot. -/
theorem exists_walk_eq {m offset skip pos : Nat} (hm : m.Prime) (hskip : 0 < skip)
    (hlt : skip < m) (hpos : pos < m) : ∃ k, k < m ∧ (offset + k * skip) % m = pos := by
  have : Fact m.Prime := ⟨hm⟩
  have hne : (skip : ZMod m) ≠ 0 := by
    intro hzero
    have hdvd := (ZMod.natCast_eq_zero_iff skip m).mp hzero
    exact absurd (Nat.le_of_dvd hskip hdvd) (by omega)
  let k : ZMod m := ((pos : ZMod m) - offset) / skip
  refine ⟨k.val, ZMod.val_lt k, ?_⟩
  have hcast : ((offset + k.val * skip : Nat) : ZMod m) = (pos : ZMod m) := by
    push_cast
    rw [ZMod.natCast_zmod_val, div_mul_cancel₀ _ hne]
    ring
  have hmod := (ZMod.natCast_eq_natCast_iff' _ _ m).mp hcast
  rw [hmod, Nat.mod_eq_of_lt hpos]

namespace StoreLayout

/-! ## One search -/

/-- The walk of a target. -/
def PermutationParams.walk (params : PermutationParams) (m k : Nat) : Nat :=
  (params.offset + k * params.skip) % m

/-- The parameters that the hash values give. -/
structure PermutationParams.Valid (params : PermutationParams) (m : Nat) : Prop where
  offset : params.offset < m
  skip_pos : 0 < params.skip
  skip_lt : params.skip < m
  weight : 0 < params.weight

section Search

variable {m : Nat} {params : PermutationParams} {table : List Int}

/-- Nothing overflows on the first `m` steps of a walk. -/
theorem probePos_eq_some (hsmall : m < 2 ^ 31) (hvalid : params.Valid m) {k : Nat}
    (hk : k ≤ m) : probePos m params k = some (params.walk m k) := by
  have hmul : k * params.skip < 2 ^ 62 := by
    calc k * params.skip ≤ m * m := Nat.mul_le_mul hk (by have := hvalid.skip_lt; omega)
      _ < 2 ^ 31 * 2 ^ 31 := Nat.mul_lt_mul'' hsmall hsmall
      _ = 2 ^ 62 := by norm_num
  have hoffset := hvalid.offset
  have hmul64 : k * params.skip < 2 ^ 64 := by omega
  have hadd64 : params.offset + k * params.skip < 2 ^ 64 := by omega
  simp only [probePos, checkedMul, checkedAdd, if_pos hmul64, Option.bind_eq_bind,
    Option.bind_some, if_pos hadd64]
  rfl

/-- A search that has an empty slot ahead of it on its walk finds the first one. -/
theorem findSlot_eq_some (hsmall : m < 2 ^ 31) (hvalid : params.Valid m)
    (hlength : table.length = m) {last : Nat} (hlast : last < m)
    (hempty : table[params.walk m last]? = some (-1)) (fuel : Nat) :
    ∀ next, next ≤ last → last < next + fuel →
      ∃ k, next ≤ k ∧ k ≤ last ∧
        findSlot m table params fuel next = some (k, params.walk m k) ∧
        table[params.walk m k]? = some (-1) ∧
        ∀ j, next ≤ j → j < k → table[params.walk m j]? ≠ some (-1) := by
  induction fuel with
  | zero =>
      intro next hle hfuel
      omega
  | succ fuel ih =>
      intro next hle hfuel
      have hpos : params.walk m next < table.length := by
        rw [hlength]
        exact Nat.mod_lt _ (by omega)
      have hprobe := probePos_eq_some hsmall hvalid (k := next) (by omega)
      have hentry := List.getElem?_eq_getElem hpos
      unfold findSlot
      rw [hprobe]
      simp only [Option.bind_eq_bind, Option.bind_some]
      rw [hentry]
      simp only [Option.bind_some]
      by_cases htaken : table[params.walk m next] = -1
      · rw [if_neg (not_not.mpr htaken)]
        refine ⟨next, Nat.le_refl _, hle, rfl, ?_, ?_⟩
        · rw [hentry, htaken]
        · intro j hj hlt
          omega
      · -- The slot is taken, so `last` is still ahead.
        have hne : next ≠ last := by
          rintro rfl
          rw [hentry] at hempty
          exact htaken (Option.some.inj hempty)
        have hadd : checkedAdd next 1 = some (next + 1) := by
          unfold checkedAdd
          rw [if_pos (by omega)]
        rw [if_pos htaken, hadd]
        simp only [Option.bind_some]
        obtain ⟨k, hnext, hk, hfound, hslot, hbefore⟩ :=
          ih (next + 1) (by omega) (by omega)
        refine ⟨k, by omega, hk, hfound, hslot, ?_⟩
        intro j hj hlt
        by_cases hjn : j = next
        · subst hjn
          rw [hentry]
          intro hempty'
          exact htaken (Option.some.inj hempty')
        · exact hbefore j (by omega) hlt

end Search

/-! ## What the loops keep -/

/-- What holds of the walks and of the table entries of the active targets. -/
structure Setting (m : Nat) (params : List PermutationParams) (active : List Nat) : Prop where
  prime : m.Prime
  small : m < 2 ^ 31
  length_eq : params.length = active.length
  valid : ∀ (i : Nat) (walk : PermutationParams), params[i]? = some walk → walk.Valid m
  entry_inj : ∀ i j target target' : Nat, active[i]? = some target →
    active[j]? = some target' → asI32 target = asI32 target' → i = j
  entry_ne : ∀ target ∈ active, asI32 target ≠ -1

/-- The table entry of the `i`-th active target. -/
def entryAt (active : List Nat) (i : Nat) : Int :=
  asI32 (active.getD i 0)

/-- The parameters of the `i`-th active target. -/
def paramsAt (params : List PermutationParams) (i : Nat) : PermutationParams :=
  params.getD i ⟨0, 1, 1⟩

namespace Filling

/-- How far along its walk the `i`-th active target is. -/
def nextAt (s : Filling) (i : Nat) : Nat :=
  s.next.getD i 0

/-- How often the `i`-th active target may still claim in this round. -/
def counterAt (s : Filling) (i : Nat) : Nat :=
  s.weightCounter.getD i 0

/-- The number of slots of the `i`-th active target. -/
def owned (s : Filling) (active : List Nat) (i : Nat) : Nat :=
  s.table.count (entryAt active i)

/-- The invariant of the loops. -/
structure Inv (m : Nat) (params : List PermutationParams) (active : List Nat)
    (s : Filling) : Prop where
  table_length : s.table.length = m
  next_length : s.next.length = active.length
  counter_length : s.weightCounter.length = active.length
  behind : ∀ i, i < active.length → ∀ k, k < s.nextAt i →
    s.table[(paramsAt params i).walk m k]? ≠ some (-1)
  next_le : ∀ i, i < active.length → s.nextAt i ≤ m
  entries : ∀ entry ∈ s.table, entry = -1 ∨ ∃ i, i < active.length ∧ entry = entryAt active i
  filled : s.filled + s.table.count (-1) = m
  total : ∑ i ∈ Finset.range active.length, s.owned active i = s.filled

end Filling

section Loops

variable {m : Nat} {params : List PermutationParams} {active : List Nat} {s : Filling}

theorem Setting.entryAt_ne (hset : Setting m params active) {i : Nat}
    (hi : i < active.length) : entryAt active i ≠ -1 := by
  unfold entryAt
  rw [List.getD_eq_getElem active 0 hi]
  exact hset.entry_ne _ (List.getElem_mem hi)

theorem Setting.entryAt_eq_iff (hset : Setting m params active) {i j : Nat}
    (hi : i < active.length) (hj : j < active.length) :
    entryAt active i = entryAt active j ↔ i = j := by
  constructor
  · intro heq
    unfold entryAt at heq
    rw [List.getD_eq_getElem active 0 hi, List.getD_eq_getElem active 0 hj] at heq
    exact hset.entry_inj i j _ _ (List.getElem?_eq_getElem hi) (List.getElem?_eq_getElem hj)
      heq
  · rintro rfl
    rfl

theorem Setting.paramsAt_valid (hset : Setting m params active) {i : Nat}
    (hi : i < active.length) : (paramsAt params i).Valid m := by
  have hi' : i < params.length := by rw [hset.length_eq]; exact hi
  unfold paramsAt
  rw [List.getD_eq_getElem params _ hi']
  exact hset.valid i _ (List.getElem?_eq_getElem hi')

/-- While the table is not full, every walk has an empty slot ahead. -/
theorem Filling.Inv.exists_empty (hset : Setting m params active)
    (hinv : s.Inv m params active) {i : Nat} (hi : i < active.length) (hroom : s.filled < m) :
    ∃ last, last < m ∧ s.nextAt i ≤ last ∧
      s.table[(paramsAt params i).walk m last]? = some (-1) := by
  have hvalid := hset.paramsAt_valid hi
  have hfilled := hinv.filled
  have hcount : 0 < s.table.count (-1) := by omega
  obtain ⟨pos, hpos⟩ := List.mem_iff_getElem?.mp (List.count_pos_iff.mp hcount)
  have hlt : pos < m := by
    rw [← hinv.table_length]
    exact (List.getElem?_eq_some_iff.mp hpos).1
  obtain ⟨last, hlast, hwalk⟩ :=
    exists_walk_eq hset.prime hvalid.skip_pos hvalid.skip_lt hlt
  have hslot : s.table[(paramsAt params i).walk m last]? = some (-1) := by
    unfold PermutationParams.walk
    rw [hwalk]
    exact hpos
  refine ⟨last, hlast, ?_, hslot⟩
  by_contra hbehind
  exact hinv.behind i hi last (by omega) hslot

/-- The state after the `i`-th active target has claimed the slot `k` steps along its
walk. -/
def claimed (m : Nat) (params : List PermutationParams) (active : List Nat) (s : Filling)
    (i k : Nat) : Filling where
  table := s.table.set ((paramsAt params i).walk m k) (entryAt active i)
  next := s.next.set i (k + 1)
  weightCounter := s.weightCounter.set i (s.counterAt i - 1)
  filled := s.filled + 1

theorem nextAt_claimed (hinv : s.Inv m params active) {i k : Nat} (hi : i < active.length)
    (j : Nat) :
    (claimed m params active s i k).nextAt j = if j = i then k + 1 else s.nextAt j := by
  have hnext : i < s.next.length := by rw [hinv.next_length]; exact hi
  by_cases hji : j = i
  · subst hji
    simp [claimed, Filling.nextAt, List.getD_eq_getElem?_getD, List.getElem?_set_self hnext]
  · simp [claimed, Filling.nextAt, List.getD_eq_getElem?_getD,
      List.getElem?_set_ne (Ne.symm hji), hji]

theorem counterAt_claimed (hinv : s.Inv m params active) {i k : Nat}
    (hi : i < active.length) (j : Nat) :
    (claimed m params active s i k).counterAt j =
      if j = i then s.counterAt i - 1 else s.counterAt j := by
  have hcounter : i < s.weightCounter.length := by rw [hinv.counter_length]; exact hi
  by_cases hji : j = i
  · subst hji
    simp only [claimed, Filling.counterAt, List.getD_eq_getElem?_getD,
      List.getElem?_set_self hcounter, Option.getD_some, if_true]
  · simp [claimed, Filling.counterAt, List.getD_eq_getElem?_getD,
      List.getElem?_set_ne (Ne.symm hji), hji]

section Claimed

variable {i k : Nat} (hset : Setting m params active) (hinv : s.Inv m params active)
  (hi : i < active.length)
  (hslot : s.table[(paramsAt params i).walk m k]? = some (-1))

include hset hi hslot

/-- A claim takes one empty slot. -/
theorem count_empty_claimed :
    (claimed m params active s i k).table.count (-1) + 1 = s.table.count (-1) := by
  obtain ⟨hpos, hentry⟩ := List.getElem?_eq_some_iff.mp hslot
  have hpositive : 0 < s.table.count (-1) :=
    List.count_pos_iff.mpr (hentry ▸ List.getElem_mem hpos)
  have hne := hset.entryAt_ne hi
  show (s.table.set _ _).count (-1) + 1 = _
  rw [List.count_set hpos, hentry]
  simp only [beq_iff_eq, if_true, hne, if_false]
  omega

/-- The slot goes to the target that claims. -/
theorem owned_claimed {j : Nat} (hj : j < active.length) :
    (claimed m params active s i k).owned active j =
      s.owned active j + if j = i then 1 else 0 := by
  obtain ⟨hpos, hentry⟩ := List.getElem?_eq_some_iff.mp hslot
  have hne : ¬ (-1 : Int) = entryAt active j := (hset.entryAt_ne hj).symm
  show (s.table.set _ _).count (entryAt active j) = _
  rw [List.count_set hpos, hentry]
  simp only [beq_iff_eq, hne, if_false, Nat.sub_zero, hset.entryAt_eq_iff hi hj]
  simp only [Filling.owned, eq_comm]

include hinv

theorem inv_claimed (hk : k < m)
    (hbefore : ∀ j, s.nextAt i ≤ j → j < k →
      s.table[(paramsAt params i).walk m j]? ≠ some (-1)) :
    (claimed m params active s i k).Inv m params active := by
  constructor
  · exact (List.length_set ..).trans hinv.table_length
  · exact (List.length_set ..).trans hinv.next_length
  · exact (List.length_set ..).trans hinv.counter_length
  · -- The slots behind a target are taken: those passed over, and the new one.
    intro j hj k' hk' hfree
    rw [nextAt_claimed hinv hi] at hk'
    change (s.table.set _ _)[_]? = _ at hfree
    rw [List.getElem?_set] at hfree
    split_ifs at hfree with hsame
    · exact hset.entryAt_ne hi (Option.some.inj hfree)
    · split_ifs at hk' with hji
      · subst hji
        rcases Nat.lt_or_ge k' (s.nextAt j) with hold | hnew
        · exact hinv.behind j hj k' hold hfree
        · rcases Nat.lt_or_ge k' k with hlt | hge
          · exact hbefore k' hnew hlt hfree
          · have hkk : k' = k := by omega
            exact hsame (by rw [hkk])
      · exact hinv.behind j hj k' hk' hfree
  · intro j hj
    rw [nextAt_claimed hinv hi]
    split_ifs
    · omega
    · exact hinv.next_le j hj
  · intro entry hmem
    rcases List.mem_or_eq_of_mem_set hmem with hold | hnew
    · exact hinv.entries entry hold
    · exact Or.inr ⟨i, hi, hnew⟩
  · have hempty := count_empty_claimed hset hi hslot
    have hfilled := hinv.filled
    show s.filled + 1 + _ = m
    omega
  · show _ = s.filled + 1
    rw [Finset.sum_congr rfl fun j hj => owned_claimed hset hi hslot (Finset.mem_range.mp hj),
      Finset.sum_add_distrib, hinv.total]
    simp [hi]

end Claimed

/-- What a claim changes. -/
structure Claims (m : Nat) (params : List PermutationParams) (active : List Nat)
    (s : Filling) (i : Nat) (s' : Filling) : Prop where
  inv : s'.Inv m params active
  filled : s'.filled = s.filled + 1
  owned : ∀ j, j < active.length →
    s'.owned active j = s.owned active j + if j = i then 1 else 0
  counter : ∀ j, s'.counterAt j = if j = i then s.counterAt i - 1 else s.counterAt j

/-- A target that has its turn while the table is not full claims one slot. -/
theorem claimSlot_spec (hset : Setting m params active) (hinv : s.Inv m params active)
    {i : Nat} (hi : i < active.length) (hroom : s.filled < m) :
    ∃ s', claimSlot m params active s i = some s' ∧ Claims m params active s i s' := by
  obtain ⟨last, hlast, hahead, hempty⟩ := hinv.exists_empty hset hi hroom
  obtain ⟨k, hfrom, hk, hfound, hslot, hbefore⟩ :=
    findSlot_eq_some hset.small (hset.paramsAt_valid hi) hinv.table_length hlast hempty
      (m + 1) (s.nextAt i) hahead (by omega)
  have hi' : i < params.length := by rw [hset.length_eq]; exact hi
  have hnext : i < s.next.length := by rw [hinv.next_length]; exact hi
  have hcounter : i < s.weightCounter.length := by rw [hinv.counter_length]; exact hi
  have hadd : checkedAdd k 1 = some (k + 1) := by
    have hsmall := hset.small
    unfold checkedAdd
    rw [if_pos (by omega)]
  refine ⟨claimed m params active s i k, ?_,
    ⟨inv_claimed hset hinv hi hslot (by omega) hbefore, rfl,
      fun j hj => owned_claimed hset hi hslot hj, counterAt_claimed hinv hi⟩⟩
  have hparams : params[i]? = some (paramsAt params i) := by
    rw [List.getElem?_eq_getElem hi', paramsAt, List.getD_eq_getElem params _ hi']
  have hnextAt : s.next[i]? = some (s.nextAt i) := by
    rw [List.getElem?_eq_getElem hnext, Filling.nextAt, List.getD_eq_getElem s.next _ hnext]
  have hcounterAt : s.weightCounter[i]? = some (s.counterAt i) := by
    rw [List.getElem?_eq_getElem hcounter, Filling.counterAt,
      List.getD_eq_getElem s.weightCounter _ hcounter]
  have hactive : active[i]? = some (active.getD i 0) := by
    rw [List.getElem?_eq_getElem hi, List.getD_eq_getElem active _ hi]
  unfold claimSlot
  simp only [hparams, hnextAt, hcounterAt, hactive, hfound, hadd, Option.bind_eq_bind,
    Option.bind_some]
  rfl

/-! ## The loops -/

/-- After `c` finished rounds: what a target owns and may still claim in this round
makes `c + 1` times its weight. -/
def Shares (params : List PermutationParams) (active : List Nat) (c : Nat) (s : Filling) :
    Prop :=
  ∀ i, i < active.length →
    s.owned active i + s.counterAt i = (c + 1) * (paramsAt params i).weight ∧
      s.counterAt i ≤ (paramsAt params i).weight

theorem Shares.claims {c i : Nat} {s' : Filling} (h : Shares params active c s)
    (hi : i < active.length) (hcounter : 0 < s.counterAt i)
    (hclaims : Claims m params active s i s') : Shares params active c s' := by
  intro j hj
  obtain ⟨hsum, hle⟩ := h j hj
  rw [hclaims.owned j hj, hclaims.counter j]
  by_cases hji : j = i
  · subst hji
    simp only [if_true]
    omega
  · simp only [if_neg hji]
    omega

/-- What a pass over some of the targets does. -/
structure Passes (m : Nat) (params : List PermutationParams) (active : List Nat) (c : Nat)
    (s : Filling) (is : List Nat) (s' : Filling) : Prop where
  inv : s'.Inv m params active
  shares : Shares params active c s'
  filled_le : s'.filled ≤ m
  owned_le : ∀ j, j < active.length → s.owned active j ≤ s'.owned active j
  progress : (∃ i ∈ is, 0 < s.counterAt i) → s.filled < s'.filled
  /-- While there is room for all of them, each one gets a slot. -/
  served : is.Nodup → (∀ i ∈ is, 0 < s.counterAt i) → s.filled + is.length ≤ m →
    ∀ i ∈ is, 0 < s'.owned active i

theorem fillPass_spec (hset : Setting m params active) {c : Nat} (is : List Nat) :
    ∀ s : Filling, s.Inv m params active → Shares params active c s → s.filled < m →
      (∀ i ∈ is, i < active.length) →
      ∃ s', fillPass m params active is s = some s' ∧ Passes m params active c s is s' := by
  induction is with
  | nil =>
      intro s hinv hshares hroom _
      refine ⟨s, rfl, ⟨hinv, hshares, by omega, fun _ _ => Nat.le_refl _, ?_, ?_⟩⟩
      · rintro ⟨i, hi, -⟩
        exact absurd hi List.not_mem_nil
      · intro _ _ _ i hi
        exact absurd hi List.not_mem_nil
  | cons i rest ih =>
      intro s hinv hshares hroom hall
      have hi := hall i (by simp)
      have hcounter : i < s.weightCounter.length := by rw [hinv.counter_length]; exact hi
      have hcounterAt : s.weightCounter[i]? = some (s.counterAt i) := by
        rw [List.getElem?_eq_getElem hcounter, Filling.counterAt,
          List.getD_eq_getElem s.weightCounter _ hcounter]
      unfold fillPass
      simp only [hcounterAt, Option.bind_eq_bind, Option.bind_some]
      by_cases hzero : s.counterAt i = 0
      · -- The target has used up its weight in this round.
        rw [if_pos hzero]
        obtain ⟨s', hpass, hspec⟩ :=
          ih s hinv hshares hroom fun j hj => hall j (by simp [hj])
        refine ⟨s', hpass, ⟨hspec.inv, hspec.shares, hspec.filled_le, hspec.owned_le, ?_, ?_⟩⟩
        · rintro ⟨j, hj, hpositive⟩
          rcases List.mem_cons.mp hj with rfl | hrest
          · omega
          · exact hspec.progress ⟨j, hrest, hpositive⟩
        · intro _ hpositive
          have hhead := hpositive i (by simp)
          omega
      · rw [if_neg hzero]
        obtain ⟨s₁, hclaim, hclaims⟩ := claimSlot_spec hset hinv hi hroom
        rw [hclaim]
        simp only [Option.bind_some]
        have hshares₁ := hshares.claims hi (by omega) hclaims
        have howned₁ : 0 < s₁.owned active i := by
          rw [hclaims.owned i hi, if_pos rfl]
          omega
        have hgrow : ∀ j, j < active.length → s.owned active j ≤ s₁.owned active j := by
          intro j hj
          rw [hclaims.owned j hj]
          omega
        by_cases hfull : s₁.filled = m
        · rw [if_pos hfull]
          refine ⟨s₁, rfl, ⟨hclaims.inv, hshares₁, by omega, hgrow, ?_, ?_⟩⟩
          · intro _
            rw [hclaims.filled]
            omega
          · intro _ _ hspace j hj
            have hlen : rest = [] := by
              apply List.length_eq_zero_iff.mp
              have hfilled := hclaims.filled
              rw [List.length_cons] at hspace
              omega
            subst hlen
            rw [List.mem_singleton.mp hj]
            exact howned₁
        · rw [if_neg hfull]
          have hfilled := hclaims.filled
          obtain ⟨s', hpass, hspec⟩ :=
            ih s₁ hclaims.inv hshares₁ (by omega) fun j hj => hall j (by simp [hj])
          have hmono := hspec.owned_le
          have hle : s₁.filled ≤ s'.filled := by
            rw [← hclaims.inv.total, ← hspec.inv.total]
            exact Finset.sum_le_sum fun j hj => hmono j (Finset.mem_range.mp hj)
          refine ⟨s', hpass, ⟨hspec.inv, hspec.shares, hspec.filled_le, ?_, ?_, ?_⟩⟩
          · intro j hj
            exact (hgrow j hj).trans (hmono j hj)
          · intro _
            omega
          · intro hnodup hpositive hspace j hj
            obtain ⟨hnotin, hrest⟩ := List.nodup_cons.mp hnodup
            rw [List.length_cons] at hspace
            rcases List.mem_cons.mp hj with rfl | hmem
            · exact lt_of_lt_of_le howned₁ (hmono j hi)
            · refine hspec.served hrest ?_ (by omega) j hmem
              intro l hl
              have hne : l ≠ i := by
                rintro rfl
                exact hnotin hl
              rw [hclaims.counter l, if_neg hne]
              exact hpositive l (by simp [hl])

/-- Resetting the counters starts the next round. -/
theorem resetCounters_spec (hset : Setting m params active) {c : Nat}
    (hinv : s.Inv m params active) (hshares : Shares params active c s)
    (hactive : active ≠ []) :
    (resetCounters params s).Inv m params active ∧
      (resetCounters params s).filled = s.filled ∧
      (∀ i, (resetCounters params s).owned active i = s.owned active i) ∧
      (∃ c', Shares params active c' (resetCounters params s)) ∧
      ∃ i, i < active.length ∧ 0 < (resetCounters params s).counterAt i := by
  have hpositive : 0 < active.length := List.length_pos_iff.mpr hactive
  unfold resetCounters
  by_cases hall : s.weightCounter.all (· = 0) = true
  · rw [if_pos hall]
    have hzero : ∀ i, s.counterAt i = 0 := by
      intro i
      unfold Filling.counterAt
      rw [List.getD_eq_getElem?_getD]
      cases hentry : s.weightCounter[i]? with
      | none => rfl
      | some w =>
          have hmem := List.mem_iff_getElem?.mpr ⟨i, hentry⟩
          simpa using List.all_eq_true.mp hall w hmem
    have hcounter : ∀ i, i < active.length →
        ({ s with weightCounter := params.map PermutationParams.weight } :
          Filling).counterAt i = (paramsAt params i).weight := by
      intro i hi
      have hi' : i < params.length := by rw [hset.length_eq]; exact hi
      simp [Filling.counterAt, paramsAt, List.getD_eq_getElem?_getD, hi']
    refine ⟨⟨hinv.table_length, hinv.next_length, ?_, hinv.behind, hinv.next_le, hinv.entries,
      hinv.filled, hinv.total⟩, rfl, fun _ => rfl, ⟨c + 1, ?_⟩, 0, hpositive, ?_⟩
    · rw [List.length_map]
      exact hset.length_eq
    · intro i hi
      obtain ⟨hsum, -⟩ := hshares i hi
      rw [hzero i] at hsum
      rw [hcounter i hi]
      refine ⟨?_, Nat.le_refl _⟩
      show s.owned active i + _ = _
      rw [Nat.add_zero] at hsum
      rw [hsum]
      ring
    · rw [hcounter 0 hpositive]
      exact (hset.paramsAt_valid hpositive).weight
  · rw [if_neg hall]
    refine ⟨hinv, rfl, fun _ => rfl, ⟨c, hshares⟩, ?_⟩
    have hsome : ∃ w ∈ s.weightCounter, w ≠ 0 := by
      by_contra hnone
      push Not at hnone
      exact hall (List.all_eq_true.mpr fun w hw => by simpa using hnone w hw)
    obtain ⟨w, hw, hne⟩ := hsome
    obtain ⟨i, hi⟩ := List.mem_iff_getElem?.mp hw
    obtain ⟨hlt, hget⟩ := List.getElem?_eq_some_iff.mp hi
    refine ⟨i, by rw [← hinv.counter_length]; exact hlt, ?_⟩
    unfold Filling.counterAt
    rw [List.getD_eq_getElem s.weightCounter _ hlt, hget]
    omega

/-- What the finished table is like. -/
structure Finished (m : Nat) (params : List PermutationParams) (active : List Nat)
    (s s' : Filling) : Prop where
  inv : s'.Inv m params active
  full : s'.filled = m
  owned_le : ∀ j, j < active.length → s.owned active j ≤ s'.owned active j
  shares : ∃ c, Shares params active c s'
  unfinished : ∃ i, i < active.length ∧ 0 < s'.counterAt i

theorem fillTable_spec (hset : Setting m params active) (hactive : active ≠ [])
    (fuel : Nat) :
    ∀ s : Filling, s.Inv m params active → (∃ c, Shares params active c s) →
      (∃ i, i < active.length ∧ 0 < s.counterAt i) → s.filled ≤ m → m < s.filled + fuel →
      ∃ s', fillTable m params active fuel s = some s' ∧ Finished m params active s s' := by
  induction fuel with
  | zero =>
      intro s _ _ _ hle hfuel
      omega
  | succ fuel ih =>
      intro s hinv hshares hcounter hle hfuel
      obtain ⟨c, hshares⟩ := hshares
      unfold fillTable
      by_cases hroom : s.filled < m
      · rw [if_pos hroom]
        obtain ⟨s₁, hpass, hspec⟩ := fillPass_spec hset (List.range active.length) s hinv
          hshares hroom fun i hi => List.mem_range.mp hi
        rw [hpass]
        simp only [Option.bind_eq_bind, Option.bind_some]
        obtain ⟨i, hi, hpositive⟩ := hcounter
        have hmore := hspec.progress ⟨i, List.mem_range.mpr hi, hpositive⟩
        obtain ⟨hinv₁, hfilled₁, howned₁, hshares₁, hcounter₁⟩ :=
          resetCounters_spec hset hspec.inv hspec.shares hactive
        have hle₁ := hspec.filled_le
        obtain ⟨s', htable, hdone⟩ := ih _ hinv₁ hshares₁ hcounter₁ (by omega) (by omega)
        refine ⟨s', htable, ⟨hdone.inv, hdone.full, ?_, hdone.shares, hdone.unfinished⟩⟩
        intro j hj
        exact (hspec.owned_le j hj).trans ((howned₁ j).symm ▸ hdone.owned_le j hj)
      · rw [if_neg hroom]
        exact ⟨s, rfl, ⟨hinv, by omega, fun _ _ => Nat.le_refl _, ⟨c, hshares⟩, hcounter⟩⟩

end Loops

/-! ## From the targets to the loops -/

theorem prime_chooseTableSize (totalWeight : Nat) :
    (chooseTableSize totalWeight).Prime ∧ chooseTableSize totalWeight < 2 ^ 31 := by
  unfold chooseTableSize smallTableSize mediumTableSize largeTableSize
  split_ifs
  · norm_num
  · norm_num
  · norm_num

theorem mem_activeTargets {targets : List StoreTarget} {target : StoreTarget} {index : Nat} :
    (target, index) ∈ activeTargets targets ↔
      targets[index]? = some target ∧ target.isActive = true := by
  unfold activeTargets
  rw [List.mem_filter, List.mem_zipIdx_iff_getElem?]

theorem nodup_activeIndices (targets : List StoreTarget) : (activeIndices targets).Nodup := by
  have hall : (targets.zipIdx.map Prod.snd).Nodup := by
    rw [List.zipIdx_map_snd]
    exact List.nodup_range'
  exact hall.sublist (List.filter_sublist.map _)

theorem mem_activeIndices {targets : List StoreTarget} {index : Nat} :
    index ∈ activeIndices targets ↔
      ∃ target, targets[index]? = some target ∧ target.isActive = true := by
  unfold activeIndices
  rw [List.mem_map]
  constructor
  · rintro ⟨⟨target, index'⟩, hmem, rfl⟩
    exact ⟨target, mem_activeTargets.mp hmem⟩
  · rintro ⟨target, htarget⟩
    exact ⟨(target, index), mem_activeTargets.mpr htarget, rfl⟩

/-- The walks of the active targets, if their table entries can be told apart. -/
theorem setting_of_targets (hasher : DefaultHasher) {m : Nat} (hprime : m.Prime)
    (hsmall : m < 2 ^ 31) {targets : List StoreTarget}
    (hentries : ∀ i ∈ activeIndices targets, ∀ j ∈ activeIndices targets,
      asI32 i = asI32 j → i = j)
    (hne : ∀ i ∈ activeIndices targets, asI32 i ≠ -1) :
    Setting m (permutationParams hasher m targets) (activeIndices targets) := by
  have htwo := hprime.two_le
  refine ⟨hprime, hsmall, ?_, ?_, ?_, hne⟩
  · rw [permutationParams, activeIndices, List.length_map, List.length_map]
  · intro i walk hwalk
    obtain ⟨entry, hentry, rfl⟩ := List.mem_map.mp (List.mem_of_getElem? hwalk)
    have hactive := (mem_activeTargets.mp hentry).2
    refine ⟨Nat.mod_lt _ (by omega), Nat.succ_pos _, ?_, ?_⟩
    · have hmod := Nat.mod_lt (hasher.hashWithSeed entry.1.storeId 1).toNat
        (show 0 < m - 1 by omega)
      show _ % (m - 1) + 1 < m
      omega
    · simp only [StoreTarget.isActive, Bool.and_eq_true, decide_eq_true_eq] at hactive
      exact hactive.2
  · intro i j target target' hi hj heq
    have hsame := hentries target (List.mem_of_getElem? hi) target'
      (List.mem_of_getElem? hj) heq
    subst hsame
    obtain ⟨hlt, hget⟩ := List.getElem?_eq_some_iff.mp hi
    obtain ⟨hlt', hget'⟩ := List.getElem?_eq_some_iff.mp hj
    exact (nodup_activeIndices targets).getElem_inj_iff.mp (hget.trans hget'.symm)

section Build

variable {m : Nat} {params : List PermutationParams} {active : List Nat}

/-- The invariant before the loops. -/
theorem inv_emptyFilling (hset : Setting m params active) :
    (emptyFilling m params).Inv m params active := by
  have hnext : ∀ i, (emptyFilling m params).nextAt i = 0 := by
    intro i
    simp only [emptyFilling, Filling.nextAt, List.getD_eq_getElem?_getD,
      List.getElem?_replicate]
    split_ifs
    · rfl
    · rfl
  constructor
  · exact List.length_replicate
  · exact List.length_replicate.trans hset.length_eq
  · exact (List.length_map _).trans hset.length_eq
  · intro i _ k hk
    rw [hnext] at hk
    omega
  · intro i _
    rw [hnext]
    omega
  · intro entry hentry
    exact Or.inl (List.eq_of_mem_replicate hentry)
  · show 0 + (List.replicate m (-1 : Int)).count (-1) = m
    rw [List.count_replicate_self, Nat.zero_add]
  · refine Finset.sum_eq_zero ?_
    intro i hi
    refine List.count_eq_zero.mpr ?_
    intro hmem
    exact hset.entryAt_ne (Finset.mem_range.mp hi) (List.eq_of_mem_replicate hmem)

theorem counterAt_emptyFilling (hset : Setting m params active) {i : Nat}
    (hi : i < active.length) :
    (emptyFilling m params).counterAt i = (paramsAt params i).weight := by
  have hi' : i < params.length := by rw [hset.length_eq]; exact hi
  simp [emptyFilling, Filling.counterAt, paramsAt, List.getD_eq_getElem?_getD, hi']

theorem shares_emptyFilling (hset : Setting m params active) :
    Shares params active 0 (emptyFilling m params) := by
  intro i hi
  have hzero : (emptyFilling m params).owned active i = 0 := by
    refine List.count_eq_zero.mpr ?_
    intro hmem
    exact hset.entryAt_ne hi (List.eq_of_mem_replicate hmem)
  rw [hzero, counterAt_emptyFilling hset hi]
  omega

/-- The loops end with a full table in which every target has a slot. -/
theorem fillTable_emptyFilling (hset : Setting m params active) (hactive : active ≠ [])
    (hfits : active.length ≤ m) :
    ∃ s, fillTable m params active (m + 1) (emptyFilling m params) = some s ∧
      Finished m params active (emptyFilling m params) s ∧
      ∀ i, i < active.length → 0 < s.owned active i := by
  have hinv := inv_emptyFilling hset
  have hshares := shares_emptyFilling hset
  have hpos : 0 < m := hset.prime.pos
  have hlength : 0 < active.length := List.length_pos_iff.mpr hactive
  have hcounters : ∀ i, i < active.length → 0 < (emptyFilling m params).counterAt i := by
    intro i hi
    rw [counterAt_emptyFilling hset hi]
    exact (hset.paramsAt_valid hi).weight
  -- The first pass serves every target once.
  obtain ⟨s₁, hpass, hspec⟩ := fillPass_spec hset (List.range active.length) _ hinv hshares
    hpos fun i hi => List.mem_range.mp hi
  have hserved := hspec.served List.nodup_range
    (fun i hi => hcounters i (List.mem_range.mp hi)) (by
      rw [List.length_range]
      show 0 + _ ≤ m
      omega)
  have hmore := hspec.progress ⟨0, List.mem_range.mpr hlength, hcounters 0 hlength⟩
  obtain ⟨hinv₁, hfilled₁, howned₁, hshares₁, hcounter₁⟩ :=
    resetCounters_spec hset hspec.inv hspec.shares hactive
  have hle₁ := hspec.filled_le
  obtain ⟨s, htable, hdone⟩ :=
    fillTable_spec hset hactive m _ hinv₁ hshares₁ hcounter₁ (by omega) (by omega)
  have hgrow : ∀ i, i < active.length → s₁.owned active i ≤ s.owned active i := by
    intro i hi
    exact (howned₁ i).symm ▸ hdone.owned_le i hi
  refine ⟨s, ?_, ⟨hdone.inv, hdone.full, ?_, hdone.shares, hdone.unfinished⟩, ?_⟩
  · unfold fillTable
    rw [if_pos (show (emptyFilling m params).filled < m from hpos), hpass]
    exact htable
  · intro i hi
    exact (hspec.owned_le i hi).trans (hgrow i hi)
  · intro i hi
    exact lt_of_lt_of_le (hserved i (List.mem_range.mpr hi)) (hgrow i hi)

/-- A full table is shared out by weight. -/
theorem Finished.owned_bounds {s s' : Filling} (h : Finished m params active s s')
    {i : Nat} (hi : i < active.length) :
    let total := ∑ j ∈ Finset.range active.length, (paramsAt params j).weight
    m / total * (paramsAt params i).weight ≤ s'.owned active i ∧
      s'.owned active i ≤ (m / total + 1) * (paramsAt params i).weight := by
  intro total
  obtain ⟨c, hshares⟩ := h.shares
  obtain ⟨last, hlast, hleft⟩ := h.unfinished
  have hsum : ∑ j ∈ Finset.range active.length, s'.owned active j = m :=
    h.inv.total.trans h.full
  have hlow : ∀ j, j < active.length → c * (paramsAt params j).weight ≤ s'.owned active j := by
    intro j hj
    obtain ⟨hboth, hle⟩ := hshares j hj
    rw [Nat.add_mul, Nat.one_mul] at hboth
    omega
  have hhigh : ∀ j, j < active.length →
      s'.owned active j ≤ (c + 1) * (paramsAt params j).weight := by
    intro j hj
    have hboth := (hshares j hj).1
    omega
  have hquot : m / total = c := by
    apply Nat.div_eq_of_lt_le
    · calc c * total = ∑ j ∈ Finset.range active.length, c * (paramsAt params j).weight :=
            Finset.mul_sum _ _ _
        _ ≤ ∑ j ∈ Finset.range active.length, s'.owned active j :=
            Finset.sum_le_sum fun j hj => hlow j (Finset.mem_range.mp hj)
        _ = m := hsum
    · calc m = ∑ j ∈ Finset.range active.length, s'.owned active j := hsum.symm
        _ < ∑ j ∈ Finset.range active.length, (c + 1) * (paramsAt params j).weight := by
            refine Finset.sum_lt_sum
              (fun j hj => hhigh j (Finset.mem_range.mp hj))
              ⟨last, Finset.mem_range.mpr hlast, ?_⟩
            have hboth := (hshares last hlast).1
            omega
        _ = (c + 1) * total := (Finset.mul_sum _ _ _).symm
  rw [hquot]
  exact ⟨hlow i hi, hhigh i hi⟩

end Build

end StoreLayout

end NamedStore
end CyfsNdn

import Mathlib.Logic.Relation
import Mathlib.Order.WellFounded
import Mathlib.Tactic

/-!
# A search that ends at the first failure

A search asks whether everything below a node is fine.  A node has a result, or children
that are searched one after another until one is not fine.  No node is marked as seen, so
the search need not end.

`Sound` says what the search looks for, without running it.  `Visits` says which children
are searched at all, and the search ends exactly if no chain of visits goes on for ever.
-/

namespace CyfsNdn
namespace Transition

open Relation

variable {ν ε : Type}

/-- One after another, as long as they are fine. -/
def allOf (check : ν → Option (Except ε Bool)) : List (Except ε ν) → Option (Except ε Bool)
  | [] => some (.ok true)
  | .error e :: _ => some (.error e)
  | .ok n :: rest =>
      match check n with
      | some (.ok true) => allOf check rest
      | other => other

/-- A node has a result or children; a child may be an error. -/
abbrev Expand (ν ε : Type) := ν → Except ε Bool ⊕ List (Except ε ν)

/-- The search with so many calls below each other; `none` means that it needs more. -/
def search (expand : Expand ν ε) : Nat → ν → Option (Except ε Bool)
  | 0, _ => none
  | fuel + 1, n =>
      match expand n with
      | .inl result => some result
      | .inr children => allOf (search expand fuel) children

section Search

variable (expand : Expand ν ε)

/-- The node has the child. -/
def Child (n m : ν) : Prop :=
  ∃ children, expand n = .inr children ∧ .ok m ∈ children

/-- The node itself is fine: it has the good result, or no child is an error. -/
def Fine (n : ν) : Prop :=
  match expand n with
  | .inl result => result = .ok true
  | .inr children => ∀ c ∈ children, ∃ m, c = .ok m

/-- No chain of children goes on for ever, and everything below is fine. -/
def Sound (n : ν) : Prop :=
  Acc (fun m n => Child expand n m) n ∧ ∀ m, ReflTransGen (Child expand) n m → Fine expand m

/-- The child is searched: every child before it is sound. -/
def Visits (n m : ν) : Prop :=
  ∃ before after, expand n = .inr (before ++ .ok m :: after) ∧
    ∀ c ∈ before, ∃ k, c = .ok k ∧ Sound expand k

variable {expand}

theorem sound_iff {n : ν} :
    Sound expand n ↔ Fine expand n ∧ ∀ m, Child expand n m → Sound expand m := by
  constructor
  · rintro ⟨hacc, hfine⟩
    refine ⟨hfine n .refl, fun m hm => ⟨hacc.inv hm, fun k hk => ?_⟩⟩
    exact hfine k (hk.head hm)
  · rintro ⟨hfine, hchildren⟩
    refine ⟨Acc.intro n fun m hm => (hchildren m hm).1, fun m hm => ?_⟩
    rcases ReflTransGen.cases_head hm with rfl | ⟨k, hk, hkm⟩
    · exact hfine
    · exact (hchildren k hk).2 m hkm

theorem Visits.child {n m : ν} (h : Visits expand n m) : Child expand n m := by
  obtain ⟨before, after, hexpand, -⟩ := h
  exact ⟨_, hexpand, by simp⟩

/-! ## Enough calls -/

/-- More calls do not change a result. -/
theorem allOf_mono {check check' : ν → Option (Except ε Bool)}
    (h : ∀ n r, check n = some r → check' n = some r) {children : List (Except ε ν)}
    {r : Except ε Bool} (hr : allOf check children = some r) :
    allOf check' children = some r := by
  induction children with
  | nil => exact hr
  | cons c rest ih =>
      cases c with
      | error e => exact hr
      | ok n =>
          unfold allOf at hr ⊢
          cases hn : check n with
          | none =>
              rw [hn] at hr
              cases hr
          | some result =>
              rw [hn] at hr
              rw [h n result hn]
              split at hr
              · exact ih hr
              · exact hr

theorem search_succ {fuel : Nat} {n : ν} {r : Except ε Bool}
    (h : search expand fuel n = some r) : search expand (fuel + 1) n = some r := by
  induction fuel generalizing n r with
  | zero => cases h
  | succ fuel ih =>
      unfold search at h ⊢
      split at h
      · exact h
      · exact allOf_mono (fun m r hm => ih hm) h

theorem search_mono {fuel fuel' : Nat} (hle : fuel ≤ fuel') {n : ν} {r : Except ε Bool}
    (h : search expand fuel n = some r) : search expand fuel' n = some r := by
  induction hle with
  | refl => exact h
  | step _ ih => exact search_succ ih

/-- The search has one result. -/
theorem search_unique {fuel fuel' : Nat} {n : ν} {r r' : Except ε Bool}
    (h : search expand fuel n = some r) (h' : search expand fuel' n = some r') : r = r' := by
  have hmax := search_mono (le_max_left fuel fuel') h
  have hmax' := search_mono (le_max_right fuel fuel') h'
  rw [hmax] at hmax'
  exact Option.some.inj hmax'

/-! ## What the search finds -/

theorem allOf_eq_true {check : ν → Option (Except ε Bool)} {children : List (Except ε ν)} :
    allOf check children = some (.ok true) ↔
      ∀ c ∈ children, ∃ m, c = .ok m ∧ check m = some (.ok true) := by
  induction children with
  | nil => simp [allOf]
  | cons c rest ih =>
      rw [List.forall_mem_cons, ← ih]
      cases c with
      | error e => simp [allOf]
      | ok n =>
          have hcons : allOf check (.ok n :: rest) = match check n with
            | some (.ok true) => allOf check rest
            | other => other := rfl
          rw [hcons]
          split
          next hn => simp [hn]
          next hn =>
            constructor
            · intro h
              exact absurd h hn
            · rintro ⟨⟨m, hm, htrue⟩, -⟩
              obtain rfl := Except.ok.inj hm
              exact absurd htrue hn

/-- What is found to be fine is sound. -/
theorem sound_of_search {fuel : Nat} {n : ν} (h : search expand fuel n = some (.ok true)) :
    Sound expand n := by
  induction fuel generalizing n with
  | zero => cases h
  | succ fuel ih =>
      rw [sound_iff]
      unfold search at h
      unfold Fine
      split at h
      next result hexpand =>
        refine ⟨Option.some.inj h, fun m hm => ?_⟩
        obtain ⟨children, hchildren, -⟩ := hm
        rw [hexpand] at hchildren
        cases hchildren
      next children hexpand =>
        have hall := allOf_eq_true.mp h
        refine ⟨fun c hc => ?_, fun m hm => ?_⟩
        · obtain ⟨m, rfl, -⟩ := hall c hc
          exact ⟨m, rfl⟩
        · obtain ⟨children', hchildren, hmem⟩ := hm
          rw [hexpand] at hchildren
          obtain rfl := Sum.inr.inj hchildren
          obtain ⟨m', hm', htrue⟩ := hall _ hmem
          obtain rfl := Except.ok.inj hm'
          exact ih htrue

/-- Calls that are enough for every child. -/
theorem exists_fuel_forall {children : List (Except ε ν)}
    (h : ∀ c ∈ children, ∃ m, c = .ok m ∧ ∃ fuel, search expand fuel m = some (.ok true)) :
    ∃ fuel, allOf (search expand fuel) children = some (.ok true) := by
  induction children with
  | nil => exact ⟨0, rfl⟩
  | cons c rest ih =>
      rw [List.forall_mem_cons] at h
      obtain ⟨⟨m, rfl, fuel, hfuel⟩, hrest⟩ := h
      obtain ⟨fuel', hfuel'⟩ := ih hrest
      refine ⟨max fuel fuel', ?_⟩
      unfold allOf
      rw [search_mono (le_max_left fuel fuel') hfuel]
      exact allOf_mono (fun n r hn => search_mono (le_max_right fuel fuel') hn) hfuel'

/-- What is sound is found to be fine. -/
theorem Sound.search {n : ν} (h : Sound expand n) :
    ∃ fuel, search expand fuel n = some (.ok true) := by
  obtain ⟨hacc, hfine⟩ := h
  induction hacc with
  | intro n _ ih =>
      have hsound : Sound expand n := ⟨Acc.intro n ‹_›, hfine⟩
      obtain ⟨hn, hchildren⟩ := sound_iff.mp hsound
      unfold Fine at hn
      cases hexpand : expand n with
      | inl result =>
          rw [hexpand] at hn
          refine ⟨1, ?_⟩
          rw [Transition.search, hexpand]
          exact congrArg some hn
      | inr children =>
          rw [hexpand] at hn
          have hall : ∀ c ∈ children, ∃ m, c = .ok m ∧
              ∃ fuel, Transition.search expand fuel m = some (.ok true) := by
            intro c hc
            obtain ⟨m, rfl⟩ := hn c hc
            have hm : Child expand n m := ⟨children, hexpand, hc⟩
            exact ⟨m, rfl, ih m hm (hchildren m hm).2⟩
          obtain ⟨fuel, hfuel⟩ := exists_fuel_forall hall
          refine ⟨fuel + 1, ?_⟩
          rw [Transition.search, hexpand]
          exact hfuel

/-! ## Whether the search ends -/

/-- The sound children before a child do not end the search. -/
theorem allOf_append_of_sound {fuel : Nat} {before after : List (Except ε ν)} {m : ν}
    {r : Except ε Bool} (hbefore : ∀ c ∈ before, ∃ k, c = .ok k ∧ Sound expand k)
    (h : allOf (search expand fuel) (before ++ .ok m :: after) = some r) :
    ∃ r', search expand fuel m = some r' := by
  induction before with
  | nil =>
      rw [List.nil_append, allOf] at h
      cases hm : search expand fuel m with
      | none =>
          rw [hm] at h
          cases h
      | some r' => exact ⟨r', rfl⟩
  | cons c rest ih =>
      rw [List.forall_mem_cons] at hbefore
      obtain ⟨⟨k, rfl, hsound⟩, hrest⟩ := hbefore
      rw [List.cons_append, allOf] at h
      obtain ⟨fuel', htrue⟩ := hsound.search
      cases hk : search expand fuel k with
      | none =>
          rw [hk] at h
          cases h
      | some r' =>
          rw [hk, search_unique hk htrue] at h
          exact ih hrest h

/-- A search that ends makes no chain of visits that goes on for ever. -/
theorem acc_visits_of_search {fuel : Nat} {n : ν} {r : Except ε Bool}
    (h : search expand fuel n = some r) : Acc (fun m n => Visits expand n m) n := by
  induction fuel generalizing n r with
  | zero => cases h
  | succ fuel ih =>
      refine Acc.intro n fun m hm => ?_
      obtain ⟨before, after, hexpand, hbefore⟩ := hm
      unfold search at h
      rw [hexpand] at h
      obtain ⟨r', hr'⟩ := allOf_append_of_sound hbefore h
      exact ih hr'

/-- The children are searched one after another, each with an end. -/
theorem exists_allOf {n : ν} {children : List (Except ε ν)}
    (hends : ∀ m, Visits expand n m → ∃ fuel r, search expand fuel m = some r)
    (before : List (Except ε ν)) (hexpand : expand n = .inr (before ++ children))
    (hbefore : ∀ c ∈ before, ∃ k, c = .ok k ∧ Sound expand k) :
    ∃ fuel r, allOf (search expand fuel) children = some r := by
  induction children generalizing before with
  | nil => exact ⟨0, _, rfl⟩
  | cons c rest ih =>
      cases c with
      | error e => exact ⟨0, _, rfl⟩
      | ok m =>
          obtain ⟨fuel, r, hr⟩ := hends m ⟨before, rest, hexpand, hbefore⟩
          by_cases htrue : r = .ok true
          · subst htrue
            have hnext : ∀ c ∈ before ++ [.ok m], ∃ k, c = .ok k ∧ Sound expand k := by
              intro c hc
              rcases List.mem_append.mp hc with hc | hc
              · exact hbefore c hc
              · exact ⟨m, List.mem_singleton.mp hc, sound_of_search hr⟩
            obtain ⟨fuel', r', hr'⟩ := ih (before ++ [.ok m]) (by simpa using hexpand) hnext
            refine ⟨max fuel fuel', r', ?_⟩
            unfold allOf
            rw [search_mono (le_max_left fuel fuel') hr]
            exact allOf_mono (fun n r hn => search_mono (le_max_right fuel fuel') hn) hr'
          · refine ⟨fuel, r, ?_⟩
            unfold allOf
            rw [hr]
            split
            next heq => exact absurd (Option.some.inj heq) htrue
            · rfl

/-- The search ends exactly if no chain of visits goes on for ever. -/
theorem exists_search_iff {n : ν} :
    (∃ fuel r, search expand fuel n = some r) ↔ Acc (fun m n => Visits expand n m) n := by
  constructor
  · rintro ⟨fuel, r, h⟩
    exact acc_visits_of_search h
  · intro hacc
    induction hacc with
    | intro n _ ih =>
        cases hexpand : expand n with
        | inl result => exact ⟨1, result, by rw [search, hexpand]⟩
        | inr children =>
            obtain ⟨fuel, r, hr⟩ := exists_allOf ih [] hexpand (by simp)
            exact ⟨fuel + 1, r, by rw [search, hexpand]; exact hr⟩

/-- Where everything below is fine and no chain of visits goes on for ever, all children
are visited, so no chain of children goes on for ever. -/
theorem sound_of_fine {n : ν} (hacc : Acc (fun m n => Visits expand n m) n)
    (hfine : ∀ m, ReflTransGen (Child expand) n m → Fine expand m) : Sound expand n := by
  induction hacc with
  | intro n _ ih =>
      have hn := hfine n .refl
      refine sound_iff.mpr ⟨hn, ?_⟩
      rintro m ⟨children, hexpand, hmem⟩
      unfold Fine at hn
      rw [hexpand] at hn
      -- one child after another: the ones before it are sound, so it is visited
      have hall : ∀ before after, children = before ++ after →
          ∀ c ∈ before, ∃ k, c = .ok k ∧ Sound expand k := by
        intro before
        induction before using List.reverseRecOn with
        | nil => simp
        | append_singleton before c ihbefore =>
            intro after hsplit
            have hbefore := ihbefore (c :: after) (by simpa using hsplit)
            obtain ⟨k, rfl⟩ := hn c (by rw [hsplit]; simp)
            have hvisits : Visits expand n k :=
              ⟨before, after, by rw [hexpand, hsplit]; simp, hbefore⟩
            have hsound := ih k hvisits fun m hm => hfine m (hm.head hvisits.child)
            intro c hc
            rcases List.mem_append.mp hc with hc | hc
            · exact hbefore c hc
            · exact ⟨k, List.mem_singleton.mp hc, hsound⟩
      obtain ⟨k, hk, hsound⟩ := hall children [] (by simp) _ hmem
      obtain rfl := Except.ok.inj hk
      exact hsound

/-- A node that is visited from itself keeps the search from ending. -/
theorem not_acc_of_cycle {n : ν} (h : TransGen (Visits expand) n n) :
    ¬ Acc (fun m n => Visits expand n m) n := by
  intro hacc
  have htrans : Acc (TransGen fun m n => Visits expand n m) n := hacc.transGen
  have hself : TransGen (fun m n => Visits expand n m) n n := h.swap
  clear h hacc
  induction htrans with
  | intro n _ ih => exact ih n hself hself

end Search

end Transition
end CyfsNdn

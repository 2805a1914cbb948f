import Mathlib.Data.List.Forall2
import Mathlib.Tactic

/-!
# Reading the items of a list

A list is read item by item, and as a whole only if every item can be read.
-/

namespace CyfsNdn
namespace Collections

variable {α β ε : Type}

/-! ## Results of steps -/

/-- A computation that returns has returned from each of its steps. -/
theorem except_bind_eq_ok {x : Except ε α} {f : α → Except ε β} {r : β} :
    (x >>= f) = .ok r ↔ ∃ a, x = .ok a ∧ f a = .ok r := by
  cases x with
  | error e =>
      constructor
      · intro h
        cases h
      · rintro ⟨a, ha, -⟩
        cases ha
  | ok a =>
      constructor
      · intro h
        exact ⟨a, rfl, h⟩
      · rintro ⟨b, hb, h⟩
        cases hb
        exact h

theorem except_pure_eq_ok {a b : α} : (pure a : Except ε α) = .ok b ↔ a = b := by
  constructor
  · intro h
    cases h
    rfl
  · rintro rfl
    rfl

theorem except_map_eq_ok {x : Except ε α} {f : α → β} {r : β} :
    x.map f = .ok r ↔ ∃ a, x = .ok a ∧ f a = r := by
  cases x with
  | error e =>
      constructor
      · intro h
        cases h
      · rintro ⟨a, ha, -⟩
        cases ha
  | ok a =>
      constructor
      · intro h
        cases h
        exact ⟨a, rfl, rfl⟩
      · rintro ⟨b, hb, rfl⟩
        cases hb
        rfl

/-! ## Items -/

/-- A list is read exactly if its items are, each to the item at its place. -/
theorem mapM_eq_some_iff_forall₂ {read : α → Option β} {xs : List α} {ys : List β} :
    xs.mapM read = some ys ↔ List.Forall₂ (fun x y => read x = some y) xs ys := by
  induction xs generalizing ys with
  | nil => simp [eq_comm]
  | cons x rest ih =>
      rw [List.mapM_cons, List.forall₂_cons_left_iff]
      constructor
      · intro h
        obtain ⟨y, hy, h⟩ := Option.bind_eq_some_iff.mp h
        obtain ⟨ys', hys', h⟩ := Option.bind_eq_some_iff.mp h
        exact ⟨y, ys', hy, ih.mp hys', (Option.some.inj h).symm⟩
      · rintro ⟨y, ys', hy, hrest, rfl⟩
        rw [hy, ih.mpr hrest]
        rfl

theorem mapM_eq_ok_iff_forall₂ {read : α → Except ε β} {xs : List α} {ys : List β} :
    xs.mapM read = .ok ys ↔ List.Forall₂ (fun x y => read x = .ok y) xs ys := by
  induction xs generalizing ys with
  | nil =>
      rw [List.mapM_nil, List.forall₂_nil_left_iff]
      exact ⟨fun h => (Except.ok.inj h).symm, fun h => congrArg Except.ok h.symm⟩
  | cons x rest ih =>
      rw [List.mapM_cons, List.forall₂_cons_left_iff]
      cases hx : read x with
      | error e =>
          constructor
          · intro h
            cases h
          · rintro ⟨y, ys', hy, -⟩
            cases hy
      | ok y =>
          cases hrest : rest.mapM read with
          | error e =>
              constructor
              · intro h
                cases h
              · rintro ⟨y', ys', -, hys', -⟩
                rw [ih.mpr hys'] at hrest
                cases hrest
          | ok ys' =>
              constructor
              · intro h
                exact ⟨y, ys', rfl, ih.mp hrest, (Except.ok.inj h).symm⟩
              · rintro ⟨y', ys'', hy', hys'', rfl⟩
                obtain rfl := Except.ok.inj hy'
                rw [ih.mpr hys''] at hrest
                obtain rfl := Except.ok.inj hrest
                rfl

theorem exists_left_of_forall₂ {r : α → β → Prop} {xs : List α} {ys : List β}
    (h : List.Forall₂ r xs ys) {y : β} (hy : y ∈ ys) : ∃ x ∈ xs, r x y := by
  induction h with
  | nil => cases hy
  | cons hhead _ ih =>
      rcases List.mem_cons.mp hy with rfl | hy
      · exact ⟨_, List.mem_cons_self, hhead⟩
      · obtain ⟨x, hx, hr⟩ := ih hy
        exact ⟨x, List.mem_cons_of_mem _ hx, hr⟩

theorem exists_right_of_forall₂ {r : α → β → Prop} {xs : List α} {ys : List β}
    (h : List.Forall₂ r xs ys) {x : α} (hx : x ∈ xs) : ∃ y ∈ ys, r x y :=
  exists_left_of_forall₂ h.flip hx

/-- A list whose items all can be read is read. -/
theorem mapM_eq_some_map {read : α → Option β} {value : α → β} {xs : List α}
    (h : ∀ x ∈ xs, read x = some (value x)) : xs.mapM read = some (xs.map value) := by
  rw [mapM_eq_some_iff_forall₂, List.forall₂_map_right_iff, List.forall₂_same]
  exact h

/-- An item that cannot be read keeps the list from being read. -/
theorem exists_mapM_eq_some_iff {read : α → Option β} {xs : List α} :
    (∃ ys, xs.mapM read = some ys) ↔ ∀ x ∈ xs, ∃ y, read x = some y := by
  simp only [mapM_eq_some_iff_forall₂]
  induction xs with
  | nil => simp
  | cons x rest ih =>
      simp only [List.forall₂_cons_left_iff, List.forall_mem_cons, ← ih]
      constructor
      · rintro ⟨ys, y, ys', hy, hrest, -⟩
        exact ⟨⟨y, hy⟩, ys', hrest⟩
      · rintro ⟨⟨y, hy⟩, ys', hrest⟩
        exact ⟨_, y, ys', hy, hrest, rfl⟩

theorem exists_mapM_eq_ok_iff {read : α → Except ε β} {xs : List α} :
    (∃ ys, xs.mapM read = .ok ys) ↔ ∀ x ∈ xs, ∃ y, read x = .ok y := by
  simp only [mapM_eq_ok_iff_forall₂]
  induction xs with
  | nil => simp
  | cons x rest ih =>
      simp only [List.forall₂_cons_left_iff, List.forall_mem_cons, ← ih]
      constructor
      · rintro ⟨ys, y, ys', hy, hrest, -⟩
        exact ⟨⟨y, hy⟩, ys', hrest⟩
      · rintro ⟨⟨y, hy⟩, ys', hrest⟩
        exact ⟨_, y, ys', hy, hrest, rfl⟩

/-- Every item of the result was read from one of the list. -/
theorem exists_mem_left_of_forall₂ {R : α → β → Prop} {xs : List α} {ys : List β}
    (h : List.Forall₂ R xs ys) {y : β} (hy : y ∈ ys) : ∃ x ∈ xs, R x y := by
  induction h with
  | nil => cases hy
  | cons hR hrest ih =>
      rcases List.mem_cons.mp hy with rfl | hy
      · exact ⟨_, List.mem_cons_self, hR⟩
      · obtain ⟨x, hx, hR⟩ := ih hy
        exact ⟨x, List.mem_cons_of_mem _ hx, hR⟩

/-- Every item of the list was read. -/
theorem exists_mem_right_of_forall₂ {R : α → β → Prop} {xs : List α} {ys : List β}
    (h : List.Forall₂ R xs ys) {x : α} (hx : x ∈ xs) : ∃ y ∈ ys, R x y := by
  induction h with
  | nil => cases hx
  | cons hR hrest ih =>
      rcases List.mem_cons.mp hx with rfl | hx
      · exact ⟨_, List.mem_cons_self, hR⟩
      · obtain ⟨y, hy, hR⟩ := ih hx
        exact ⟨y, List.mem_cons_of_mem _ hy, hR⟩

/-- What stands at one place is related. -/
theorem rel_of_getElem?_eq {R : α → β → Prop} {xs : List α} {ys : List β}
    (h : List.Forall₂ R xs ys) {i : Nat} {x : α} {y : β} (hx : xs[i]? = some x)
    (hy : ys[i]? = some y) : R x y := by
  obtain ⟨hi, rfl⟩ := List.getElem?_eq_some_iff.mp hx
  obtain ⟨hi', rfl⟩ := List.getElem?_eq_some_iff.mp hy
  exact h.get hi hi'

end Collections
end CyfsNdn

import Mathlib.Data.Finset.Card
import Mathlib.Data.List.Perm.Basic
import Mathlib.Logic.Relation
import Mathlib.Tactic

/-!
# Depth-first search with two keys

A search follows the edges of a node in any order.  What is at the end of an edge has a name,
which must not be on the current path, and a key, under which it is kept when it is finished;
a key that is kept already is skipped.

What is kept stands in the order of finishing, so that all edges lead to what was finished
before (`Finished`).  This is why skipping hides no cycle.
-/

namespace CyfsNdn
namespace Collections

open Relation

/-- What is searched. -/
structure Search (ν κ ι δ ε : Type) where
  /-- The edges of a node, in no order. -/
  edges : ν → List δ
  /-- The key and the node at the end of an edge. -/
  resolve : δ → Except ε (κ × ν)
  /-- The name of a node. -/
  ident : ν → Except ε ι
  /-- The error where a name is on the path already. -/
  cycle : ι → ε

/-- The nodes that are finished, the latest one first, the names on the path, and the number of
visits so far. -/
structure SearchState (ν κ ι : Type) where
  done : List (κ × ν)
  visiting : List ι
  clock : Nat

variable {ν κ ι δ ε π : Type} [DecidableEq κ] [DecidableEq ι]

/-- A node is kept under its key. -/
def SearchState.insert (st : SearchState ν κ ι) (k : κ) (v : ν) : SearchState ν κ ι :=
  { st with done := (k, v) :: st.done.filter fun entry => decide (entry.1 ≠ k) }

namespace Search

variable (s : Search ν κ ι δ ε)

/-- One edge.  Without a result the fuel of the visit was not enough. -/
def visitEdge (visitNode : ν → SearchState ν κ ι → Option (Except ε (SearchState ν κ ι)))
    (d : δ) (st : SearchState ν κ ι) : Option (Except ε (SearchState ν κ ι)) :=
  match s.resolve d with
  | .error e => some (.error e)
  | .ok (k, v) =>
      match s.ident v with
      | .error e => some (.error e)
      | .ok i =>
          if i ∈ st.visiting then some (.error (s.cycle i))
          else if k ∈ st.done.map Prod.fst then some (.ok st)
          else
            match visitNode v { st with visiting := i :: st.visiting } with
            | some (.ok st) =>
                some (.ok ({ st with
                  visiting := st.visiting.filter fun j => decide (j ≠ i) }.insert k v))
            | result => result

/-- Some edges, one after the other, up to the first error. -/
def visitEdges (visitNode : ν → SearchState ν κ ι → Option (Except ε (SearchState ν κ ι))) :
    List δ → SearchState ν κ ι → Option (Except ε (SearchState ν κ ι))
  | [], st => some (.ok st)
  | d :: rest, st =>
      match s.visitEdge visitNode d st with
      | some (.ok st) => visitEdges visitNode rest st
      | result => result

/-- All edges of a node, in the order of this visit. -/
def visit (order : Nat → ν → List δ) :
    Nat → ν → SearchState ν κ ι → Option (Except ε (SearchState ν κ ι))
  | 0, _, _ => none
  | fuel + 1, u, st =>
      s.visitEdges (visit order fuel) (order st.clock u) { st with clock := st.clock + 1 }

/-- A search from a root. -/
def run (order : Nat → ν → List δ) (fuel : Nat) (root : ν) (done : List (κ × ν)) :
    Option (Except ε (List (κ × ν))) :=
  match s.ident root with
  | .error e => some (.error e)
  | .ok i =>
      (s.visit order fuel root ⟨done, [i], 0⟩).map fun result => result.map SearchState.done

/-- Each visit follows all edges, in any order. -/
def Orders (order : Nat → ν → List δ) : Prop := ∀ n u, (order n u).Perm (s.edges u)

/-! ## Paths -/

/-- An edge leads from the node to the other one under its key. -/
def Leads (u : ν) (x : κ × ν) : Prop := ∃ d ∈ s.edges u, s.resolve d = .ok x

/-- An edge leads from the node to the other one. -/
def Dep (u v : ν) : Prop := ∃ k, s.Leads u (k, v)

/-- The node is at the end of a path from the root. -/
def Reaches (root : ν) (x : κ × ν) : Prop := ∃ u, ReflTransGen s.Dep root u ∧ s.Leads u x

/-- Every edge on a path from the root can be followed. -/
def Resolved (root : ν) : Prop :=
  ∀ u, ReflTransGen s.Dep root u → ∀ d ∈ s.edges u, ∃ x, s.resolve d = .ok x

/-- No path from the root has two nodes of one value. -/
def NoRepeat (f : ν → π) (root : ν) : Prop :=
  ∀ u v, ReflTransGen s.Dep root u → TransGen s.Dep u v → f u ≠ f v

variable {s} {order : Nat → ν → List δ}

/-! ## One edge -/

section Edge

variable {visitNode : ν → SearchState ν κ ι → Option (Except ε (SearchState ν κ ι))}
  {d : δ} {st st' : SearchState ν κ ι}

theorem visitEdge_ok (h : s.visitEdge visitNode d st = some (.ok st')) :
    ∃ k v i, s.resolve d = .ok (k, v) ∧ s.ident v = .ok i ∧ i ∉ st.visiting ∧
      (k ∈ st.done.map Prod.fst ∧ st' = st ∨
        k ∉ st.done.map Prod.fst ∧ ∃ st₁,
          visitNode v { st with visiting := i :: st.visiting } = some (.ok st₁) ∧
            st' = { st₁ with
              visiting := st₁.visiting.filter fun j => decide (j ≠ i) }.insert k v) := by
  unfold visitEdge at h
  cases hresolve : s.resolve d with
  | error e => simp [hresolve] at h
  | ok x =>
      obtain ⟨k, v⟩ := x
      simp only [hresolve] at h
      cases hident : s.ident v with
      | error e => simp [hident] at h
      | ok i =>
          simp only [hident] at h
          split_ifs at h with hvisiting hdone
          · cases h
          · cases h
            exact ⟨k, v, i, rfl, hident, hvisiting, .inl ⟨hdone, rfl⟩⟩
          · refine ⟨k, v, i, rfl, hident, hvisiting, .inr ⟨hdone, ?_⟩⟩
            split at h
            · next st₁ hvisit =>
                cases h
                exact ⟨st₁, hvisit, rfl⟩
            · next hvisit => exact absurd h (hvisit st')

theorem visitEdge_error {e : ε} (h : s.visitEdge visitNode d st = some (.error e)) :
    (∀ x, s.resolve d ≠ .ok x) ∨
      ∃ k v, s.resolve d = .ok (k, v) ∧ ((∀ i, s.ident v ≠ .ok i) ∨ ∃ i, s.ident v = .ok i ∧
        (i ∈ st.visiting ∨
          visitNode v { st with visiting := i :: st.visiting } = some (.error e))) := by
  unfold visitEdge at h
  cases hresolve : s.resolve d with
  | error e => exact .inl nofun
  | ok x =>
      obtain ⟨k, v⟩ := x
      refine .inr ⟨k, v, rfl, ?_⟩
      simp only [hresolve] at h
      cases hident : s.ident v with
      | error e => exact .inl nofun
      | ok i =>
          refine .inr ⟨i, rfl, ?_⟩
          simp only [hident] at h
          split_ifs at h with hvisiting hdone
          · exact .inl hvisiting
          · cases h
          · right
            split at h
            · cases h
            · exact h

theorem visitEdge_none (h : s.visitEdge visitNode d st = none) :
    ∃ k v i, s.resolve d = .ok (k, v) ∧ s.ident v = .ok i ∧ i ∉ st.visiting ∧
      visitNode v { st with visiting := i :: st.visiting } = none := by
  unfold visitEdge at h
  cases hresolve : s.resolve d with
  | error e => simp [hresolve] at h
  | ok x =>
      obtain ⟨k, v⟩ := x
      simp only [hresolve] at h
      cases hident : s.ident v with
      | error e => simp [hident] at h
      | ok i =>
          simp only [hident] at h
          split_ifs at h with hvisiting hdone
          refine ⟨k, v, i, rfl, hident, hvisiting, ?_⟩
          split at h
          · cases h
          · exact h

end Edge

/-! ## Some edges -/

section Edges

variable {visitNode : ν → SearchState ν κ ι → Option (Except ε (SearchState ν κ ι))}
  {ds : List δ} {st st' : SearchState ν κ ι}

theorem visitEdges_cons_ok {d : δ} :
    s.visitEdges visitNode (d :: ds) st = some (.ok st') ↔
      ∃ st₁, s.visitEdge visitNode d st = some (.ok st₁) ∧
        s.visitEdges visitNode ds st₁ = some (.ok st') := by
  rw [visitEdges]
  constructor
  · intro h
    split at h
    · next st₁ hfirst => exact ⟨st₁, hfirst, h⟩
    · next hfirst => exact absurd h (hfirst st')
  · rintro ⟨st₁, hfirst, hrest⟩
    rw [hfirst]
    exact hrest

/-- Without a result of its own, the search has stopped at one of the edges. -/
theorem visitEdges_stopped {result : Option (Except ε (SearchState ν κ ι))}
    (h : s.visitEdges visitNode ds st = result) (hresult : ∀ st', result ≠ some (.ok st')) :
    ∃ d ∈ ds, ∃ before st₁, s.visitEdges visitNode before st = some (.ok st₁) ∧
      s.visitEdge visitNode d st₁ = result := by
  induction ds generalizing st with
  | nil => exact absurd h.symm (hresult st)
  | cons d rest ih =>
      rw [visitEdges] at h
      split at h
      · next st₁ hfirst =>
          obtain ⟨d', hd', before, st₂, hbefore, hstop⟩ := ih h
          exact ⟨d', List.mem_cons_of_mem _ hd', d :: before, st₂,
            visitEdges_cons_ok.mpr ⟨st₁, hfirst, hbefore⟩, hstop⟩
      · exact ⟨d, List.mem_cons_self, [], st, rfl, h⟩

end Edges

theorem visit_succ (fuel : Nat) (u : ν) (st : SearchState ν κ ι) :
    s.visit order (fuel + 1) u st =
      s.visitEdges (s.visit order fuel) (order st.clock u) { st with clock := st.clock + 1 } :=
  rfl

/-! ## The path -/

section Visiting

variable {visitNode : ν → SearchState ν κ ι → Option (Except ε (SearchState ν κ ι))}
  (hnode : ∀ v st st', visitNode v st = some (.ok st') → st'.visiting = st.visiting)
include hnode

theorem visitEdge_visiting {d : δ} {st st' : SearchState ν κ ι}
    (h : s.visitEdge visitNode d st = some (.ok st')) : st'.visiting = st.visiting := by
  obtain ⟨k, v, i, -, -, hi, ⟨-, rfl⟩ | ⟨-, st₁, hvisit, rfl⟩⟩ := visitEdge_ok h
  · rfl
  · show st₁.visiting.filter _ = st.visiting
    rw [hnode _ _ _ hvisit, List.filter_cons_of_neg (by simp), List.filter_eq_self]
    intro j hj
    rw [decide_eq_true_eq]
    rintro rfl
    exact hi hj

theorem visitEdges_visiting {ds : List δ} {st st' : SearchState ν κ ι}
    (h : s.visitEdges visitNode ds st = some (.ok st')) : st'.visiting = st.visiting := by
  induction ds generalizing st with
  | nil =>
      cases h
      rfl
  | cons d rest ih =>
      obtain ⟨st₁, hfirst, hrest⟩ := visitEdges_cons_ok.mp h
      rw [ih hrest, visitEdge_visiting hnode hfirst]

end Visiting

/-- A visit leaves the path as it was. -/
theorem visit_visiting {fuel : Nat} {u : ν} {st st' : SearchState ν κ ι}
    (h : s.visit order fuel u st = some (.ok st')) : st'.visiting = st.visiting := by
  induction fuel generalizing u st st' with
  | zero => cases h
  | succ fuel ih =>
      rw [visit_succ] at h
      have hedges := visitEdges_visiting (fun _ _ _ => ih) h
      exact hedges

/-! ## Enough fuel -/

/-- With more fuel than there are names that are not on the path, a visit has a result. -/
theorem visit_ne_none {names : List ι}
    (hnames : ∀ {d k v i}, s.resolve d = .ok (k, v) → s.ident v = .ok i → i ∈ names)
    {fuel : Nat} {u : ν} {st : SearchState ν κ ι}
    (hfuel : (names.toFinset \ st.visiting.toFinset).card < fuel) :
    s.visit order fuel u st ≠ none := by
  induction fuel generalizing u st with
  | zero => exact absurd hfuel (Nat.not_lt_zero _)
  | succ fuel ih =>
      intro h
      rw [visit_succ] at h
      obtain ⟨d, -, before, st₁, hbefore, hstop⟩ := visitEdges_stopped h (fun _ => nofun)
      obtain ⟨k, v, i, hresolve, hident, hi, hnone⟩ := visitEdge_none hstop
      refine ih ?_ hnone
      -- The name of the node is not on the path, and so there is one less.
      have hedges := visitEdges_visiting (fun _ _ _ => visit_visiting) hbefore
      have hpath : st₁.visiting = st.visiting := hedges
      have hmem : i ∈ names.toFinset \ st.visiting.toFinset := by
        simp [hnames hresolve hident, ← hpath, hi]
      have hless := Finset.card_erase_lt_of_mem hmem
      rw [← Finset.sdiff_insert, ← List.toFinset_cons, ← hpath] at hless
      exact Nat.lt_of_lt_of_le hless (hpath ▸ Nat.le_of_lt_succ hfuel)

theorem run_ne_none {names : List ι}
    (hnames : ∀ {d k v i}, s.resolve d = .ok (k, v) → s.ident v = .ok i → i ∈ names)
    {fuel : Nat} {root : ν} {done : List (κ × ν)} (hfuel : names.length < fuel) :
    s.run order fuel root done ≠ none := by
  unfold run
  cases s.ident root with
  | error e => exact nofun
  | ok i =>
      have hcard : (names.toFinset \ [i].toFinset).card < fuel :=
        Nat.lt_of_le_of_lt ((Finset.card_le_card Finset.sdiff_subset).trans
          (List.toFinset_card_le names)) hfuel
      have hvisit : s.visit order fuel root ⟨done, [i], 0⟩ ≠ none := visit_ne_none hnames hcard
      simpa using hvisit

/-! ## What a visit that returns has done -/

variable (s) in
/-- The nodes in the order of finishing, the latest one first: every edge of a node leads to
one that was finished before it. -/
def Finished : List (κ × ν) → Prop
  | [] => True
  | (k, v) :: rest =>
      k ∉ rest.map Prod.fst ∧ (∀ d ∈ s.edges v, ∃ x ∈ rest, s.resolve d = .ok x) ∧ Finished rest

variable (s) in
/-- A node that was found behind another one: it has a name that was not on the path, and is
reached. -/
def Found (u : ν) (visiting : List ι) (x : κ × ν) : Prop :=
  (∃ i, s.ident x.2 = .ok i ∧ i ∉ visiting) ∧ s.Reaches u x

variable (s) in
/-- What is kept is in the order of finishing, and was found at the end of an edge. -/
structure Sound (done : List (κ × ν)) : Prop where
  finished : s.Finished done
  resolved : ∀ x ∈ done, ∃ d, s.resolve d = .ok x

variable (s) in
/-- From one state to a later one behind a node. -/
structure Explored (u : ν) (st st' : SearchState ν κ ι) : Prop where
  sound : s.Sound st'.done
  keeps : st.done ⊆ st'.done
  found : ∀ x ∈ st'.done, x ∈ st.done ∨ s.Found u st.visiting x

/-- A key belongs to one node. -/
def Coherent (s : Search ν κ ι δ ε) : Prop :=
  ∀ {d d' k v v'}, s.resolve d = .ok (k, v) → s.resolve d' = .ok (k, v') → v = v'

section Explored

variable (hcoherent : s.Coherent)
  {visitNode : ν → SearchState ν κ ι → Option (Except ε (SearchState ν κ ι))}
  (hpath : ∀ v st st', visitNode v st = some (.ok st') → st'.visiting = st.visiting)
  (hnode : ∀ v st st', visitNode v st = some (.ok st') → s.Sound st.done →
    s.Explored v st st' ∧ ∀ d ∈ s.edges v, ∃ x ∈ st'.done, s.resolve d = .ok x)
include hcoherent hpath hnode

omit hpath in
/-- One edge: what is behind it is kept in the end. -/
theorem visitEdge_explored {u : ν} {d : δ} (hd : d ∈ s.edges u) {st st' : SearchState ν κ ι}
    (h : s.visitEdge visitNode d st = some (.ok st')) (hsound : s.Sound st.done) :
    s.Explored u st st' ∧ ∃ x ∈ st'.done, s.resolve d = .ok x := by
  obtain ⟨k, v, i, hresolve, hident, hi, ⟨hdone, rfl⟩ | ⟨hdone, st₁, hvisit, rfl⟩⟩ :=
    visitEdge_ok h
  · obtain ⟨⟨k', v'⟩, hmem, rfl⟩ := List.mem_map.mp hdone
    obtain ⟨d', hd'⟩ := hsound.resolved _ hmem
    refine ⟨⟨hsound, fun _ hx => hx, fun x hx => .inl hx⟩, (k', v'), hmem, ?_⟩
    rw [hresolve, hcoherent hresolve hd']
  · obtain ⟨hexplored, hedges⟩ := hnode _ _ _ hvisit hsound
    have hlead : s.Leads u (k, v) := ⟨d, hd, hresolve⟩
    -- The node itself was on the path while what is behind it was visited.
    have hfresh : k ∉ st₁.done.map Prod.fst := by
      intro hk
      obtain ⟨⟨k', v'⟩, hmem, rfl⟩ := List.mem_map.mp hk
      rcases hexplored.found _ hmem with hold | ⟨⟨j, hj, hnot⟩, -⟩
      · exact hdone (List.mem_map.mpr ⟨_, hold, rfl⟩)
      · obtain ⟨d', hd'⟩ := hexplored.sound.resolved _ hmem
        rw [← hcoherent hresolve hd', hident] at hj
        cases hj
        exact hnot List.mem_cons_self
    have hfilter : (st₁.done.filter fun entry => decide (entry.1 ≠ k)) = st₁.done := by
      rw [List.filter_eq_self]
      intro entry hentry
      rw [decide_eq_true_eq]
      rintro rfl
      exact hfresh (List.mem_map.mpr ⟨entry, hentry, rfl⟩)
    have hdone' : (SearchState.insert { st₁ with
        visiting := st₁.visiting.filter fun j => decide (j ≠ i) } k v).done =
          (k, v) :: st₁.done := by
      show (k, v) :: st₁.done.filter _ = (k, v) :: st₁.done
      rw [hfilter]
    rw [hdone']
    refine ⟨⟨?_, ?_, ?_⟩, (k, v), List.mem_cons_self, hresolve⟩
    · rw [hdone']
      refine ⟨⟨hfresh, hedges, hexplored.sound.finished⟩, ?_⟩
      intro x hx
      rcases List.mem_cons.mp hx with rfl | hx
      · exact ⟨d, hresolve⟩
      · exact hexplored.sound.resolved x hx
    · rw [hdone']
      exact fun x hx => List.mem_cons_of_mem _ (hexplored.keeps hx)
    · intro x hx
      rw [hdone'] at hx
      rcases List.mem_cons.mp hx with rfl | hx
      · exact .inr ⟨⟨i, hident, hi⟩, u, ReflTransGen.refl, hlead⟩
      · rcases hexplored.found x hx with hold | ⟨⟨j, hj, hnot⟩, w, hw, hleads⟩
        · exact .inl hold
        · exact .inr ⟨⟨j, hj, fun hmem => hnot (List.mem_cons_of_mem _ hmem)⟩, w,
            ReflTransGen.head ⟨k, hlead⟩ hw, hleads⟩

theorem visitEdges_explored {u : ν} {ds : List δ} (hds : ∀ d ∈ ds, d ∈ s.edges u)
    {st st' : SearchState ν κ ι} (h : s.visitEdges visitNode ds st = some (.ok st'))
    (hsound : s.Sound st.done) :
    s.Explored u st st' ∧ ∀ d ∈ ds, ∃ x ∈ st'.done, s.resolve d = .ok x := by
  induction ds generalizing st with
  | nil =>
      cases h
      exact ⟨⟨hsound, fun _ hx => hx, fun _ hx => .inl hx⟩, by simp⟩
  | cons d rest ih =>
      obtain ⟨st₁, hfirst, hrest⟩ := visitEdges_cons_ok.mp h
      obtain ⟨hexplored, x, hx, hresolve⟩ :=
        visitEdge_explored hcoherent hnode (hds d List.mem_cons_self) hfirst hsound
      obtain ⟨hexplored', hcovered⟩ :=
        ih (fun d' hd' => hds d' (List.mem_cons_of_mem _ hd')) hrest hexplored.sound
      have hvisiting := visitEdge_visiting hpath hfirst
      refine ⟨⟨hexplored'.sound, fun y hy => hexplored'.keeps (hexplored.keeps hy), ?_⟩, ?_⟩
      · intro y hy
        rcases hexplored'.found y hy with hold | hnew
        · exact hexplored.found y hold
        · rw [hvisiting] at hnew
          exact .inr hnew
      · intro d' hd'
        rcases List.mem_cons.mp hd' with rfl | hd'
        · exact ⟨x, hexplored'.keeps hx, hresolve⟩
        · exact hcovered d' hd'

end Explored

/-- A visit that returns has kept what is behind all edges of the node. -/
theorem visit_explored (hcoherent : s.Coherent) (horder : s.Orders order) {fuel : Nat} {u : ν}
    {st st' : SearchState ν κ ι} (h : s.visit order fuel u st = some (.ok st'))
    (hsound : s.Sound st.done) :
    s.Explored u st st' ∧ ∀ d ∈ s.edges u, ∃ x ∈ st'.done, s.resolve d = .ok x := by
  induction fuel generalizing u st st' with
  | zero => cases h
  | succ fuel ih =>
      rw [visit_succ] at h
      obtain ⟨hexplored, hcovered⟩ := visitEdges_explored hcoherent
        (fun _ _ _ => visit_visiting) (fun _ _ _ => ih)
        (fun d hd => (horder st.clock u).mem_iff.mp hd) h hsound
      exact ⟨⟨hexplored.sound, hexplored.keeps, hexplored.found⟩,
        fun d hd => hcovered d ((horder st.clock u).mem_iff.mpr hd)⟩

/-! ## The order of finishing -/

omit [DecidableEq κ] [DecidableEq ι] in
/-- The edges of a kept node lead to kept nodes. -/
theorem Finished.edges {done : List (κ × ν)} (h : s.Finished done) {x : κ × ν} (hx : x ∈ done)
    {d : δ} (hd : d ∈ s.edges x.2) : ∃ y ∈ done, s.resolve d = .ok y := by
  induction done with
  | nil => cases hx
  | cons entry rest ih =>
      rcases List.mem_cons.mp hx with rfl | hx
      · obtain ⟨y, hy, hresolve⟩ := h.2.1 d hd
        exact ⟨y, List.mem_cons_of_mem _ hy, hresolve⟩
      · obtain ⟨y, hy, hresolve⟩ := ih h.2.2 hx
        exact ⟨y, List.mem_cons_of_mem _ hy, hresolve⟩

omit [DecidableEq κ] [DecidableEq ι] in
/-- A node that is reached from a kept one was finished before it, and so has another key. -/
theorem Finished.before {done : List (κ × ν)} (h : s.Finished done) {k : κ} {u v : ν}
    (hu : (k, u) ∈ done) (huv : TransGen s.Dep u v) : ∃ k', (k', v) ∈ done ∧ k' ≠ k := by
  induction done with
  | nil => cases hu
  | cons entry rest ih =>
      rcases List.mem_cons.mp hu with rfl | hu
      · have hlater : ∃ k', (k', v) ∈ rest := by
          clear ih
          induction huv with
          | single hstep =>
              obtain ⟨k', d, hd, hresolve⟩ := hstep
              obtain ⟨y, hy, hresolve'⟩ := h.2.1 d hd
              rw [hresolve] at hresolve'
              cases hresolve'
              exact ⟨k', hy⟩
          | tail _ hstep ihpath =>
              obtain ⟨k', hw⟩ := ihpath
              obtain ⟨k'', d, hd, hresolve⟩ := hstep
              obtain ⟨y, hy, hresolve'⟩ := h.2.2.edges hw hd
              rw [hresolve] at hresolve'
              cases hresolve'
              exact ⟨k'', hy⟩
        obtain ⟨k', hv⟩ := hlater
        refine ⟨k', List.mem_cons_of_mem _ hv, ?_⟩
        rintro rfl
        exact h.1 (List.mem_map.mpr ⟨_, hv, rfl⟩)
      · obtain ⟨k', hv, hne⟩ := ih h.2.2 hu
        exact ⟨k', List.mem_cons_of_mem _ hv, hne⟩

omit [DecidableEq κ] [DecidableEq ι] in
theorem Finished.keys_nodup {done : List (κ × ν)} (h : s.Finished done) :
    (done.map Prod.fst).Nodup := by
  induction done with
  | nil => exact List.nodup_nil
  | cons entry rest ih => exact List.nodup_cons.mpr ⟨h.1, ih h.2.2⟩

/-! ## A search that returns -/

/-- Every node on a path from the root has a name. -/
def Named (s : Search ν κ ι δ ε) (root : ν) : Prop :=
  ∀ u, ReflTransGen s.Dep root u → ∃ i, s.ident u = .ok i

section Returned

variable (hcoherent : s.Coherent) (horder : s.Orders order) {fuel : Nat} {root : ν}
  {done : List (κ × ν)} (h : s.run order fuel root [] = some (.ok done))
include hcoherent horder h

theorem run_explored :
    ∃ i, s.ident root = .ok i ∧ s.Sound done ∧ (∀ x ∈ done, s.Found root [i] x) ∧
      ∀ d ∈ s.edges root, ∃ x ∈ done, s.resolve d = .ok x := by
  unfold run at h
  cases hident : s.ident root with
  | error e => simp [hident] at h
  | ok i =>
      simp only [hident, Option.map_eq_some_iff] at h
      obtain ⟨result, hvisit, hresult⟩ := h
      cases result with
      | error e => cases hresult
      | ok st =>
          cases hresult
          have hempty : s.Sound ([] : List (κ × ν)) := ⟨trivial, by simp⟩
          obtain ⟨hexplored, hcovered⟩ := visit_explored hcoherent horder hvisit hempty
          refine ⟨i, rfl, hexplored.sound, fun x hx => ?_, hcovered⟩
          exact (hexplored.found x hx).resolve_left (by simp)

/-- A node on a path is the root or is kept. -/
theorem mem_of_reflTransGen {u : ν} (hu : ReflTransGen s.Dep root u) :
    u = root ∨ ∃ k, (k, u) ∈ done := by
  obtain ⟨i, -, hsound, -, hcovered⟩ := run_explored hcoherent horder h
  induction hu with
  | refl => exact .inl rfl
  | tail _ hstep ih =>
      obtain ⟨k, d, hd, hresolve⟩ := hstep
      have hkept : ∃ y ∈ done, s.resolve d = .ok y := by
        rcases ih with rfl | ⟨k', hw⟩
        · exact hcovered d hd
        · exact hsound.finished.edges hw hd
      obtain ⟨y, hy, hresolve'⟩ := hkept
      rw [hresolve] at hresolve'
      cases hresolve'
      exact .inr ⟨k, hy⟩

theorem run_resolved : s.Resolved root := by
  obtain ⟨i, -, hsound, -, hcovered⟩ := run_explored hcoherent horder h
  intro u hu d hd
  rcases mem_of_reflTransGen hcoherent horder h hu with rfl | ⟨k, hu⟩
  · obtain ⟨x, -, hresolve⟩ := hcovered d hd
    exact ⟨x, hresolve⟩
  · obtain ⟨x, -, hresolve⟩ := hsound.finished.edges hu hd
    exact ⟨x, hresolve⟩

/-- What is kept is what is reached. -/
theorem mem_run_iff {x : κ × ν} : x ∈ done ↔ s.Reaches root x := by
  obtain ⟨i, -, hsound, hfound, hcovered⟩ := run_explored hcoherent horder h
  constructor
  · exact fun hx => (hfound x hx).2
  · rintro ⟨u, hu, d, hd, hresolve⟩
    have hkept : ∃ y ∈ done, s.resolve d = .ok y := by
      rcases mem_of_reflTransGen hcoherent horder h hu with rfl | ⟨k, hu⟩
      · exact hcovered d hd
      · exact hsound.finished.edges hu hd
    obtain ⟨y, hy, hresolve'⟩ := hkept
    rw [hresolve] at hresolve'
    cases hresolve'
    exact hy

theorem run_keys_nodup : (done.map Prod.fst).Nodup := by
  obtain ⟨i, -, hsound, -⟩ := run_explored hcoherent horder h
  exact hsound.finished.keys_nodup

theorem run_named : s.Named root := by
  obtain ⟨i, hident, -, hfound, -⟩ := run_explored hcoherent horder h
  intro u hu
  rcases mem_of_reflTransGen hcoherent horder h hu with rfl | ⟨k, hu⟩
  · exact ⟨i, hident⟩
  · obtain ⟨⟨j, hj, -⟩, -⟩ := hfound _ hu
    exact ⟨j, hj⟩

/-- No path has two nodes of one value, where the value decides the name, and the key of what
is at the end of an edge. -/
theorem run_noRepeat {f : ν → π} (hname : ∀ u v, f u = f v → s.ident u = s.ident v)
    (hkey : ∀ {d d' k k' v v'}, s.resolve d = .ok (k, v) → s.resolve d' = .ok (k', v') →
      f v = f v' → k = k') : s.NoRepeat f root := by
  obtain ⟨i, hident, hsound, hfound, -⟩ := run_explored hcoherent horder h
  intro u v hu huv heq
  obtain ⟨w, hw, k, d, hd, hresolve⟩ := TransGen.tail'_iff.mp huv
  have hv : (k, v) ∈ done := (mem_run_iff hcoherent horder h).mpr ⟨w, hu.trans hw, d, hd, hresolve⟩
  rcases mem_of_reflTransGen hcoherent horder h hu with rfl | ⟨k', hu'⟩
  · -- The name of the root was on the path all the time.
    obtain ⟨⟨j, hj, hnot⟩, -⟩ := hfound _ hv
    rw [← hname u v heq, hident] at hj
    cases hj
    exact hnot List.mem_cons_self
  · obtain ⟨k'', hv', hne⟩ := hsound.finished.before hu' huv
    obtain ⟨d', hd'⟩ := hsound.resolved _ hu'
    obtain ⟨d'', hd''⟩ := hsound.resolved _ hv'
    exact hne (hkey hd'' hd' heq.symm)

end Returned

/-! ## A search that fails -/

variable (s) in
/-- What a search may fail at: an edge that cannot be followed, a node without a name, a name
that is on the path, or one that comes up twice. -/
def Fails (u : ν) (visiting : List ι) : Prop :=
  (∃ w, ReflTransGen s.Dep u w ∧ ∃ d ∈ s.edges w, ∀ x, s.resolve d ≠ .ok x) ∨
    (∃ w, TransGen s.Dep u w ∧ ∀ i, s.ident w ≠ .ok i) ∨
      (∃ w i, TransGen s.Dep u w ∧ s.ident w = .ok i ∧ i ∈ visiting) ∨
        ∃ w w', TransGen s.Dep u w ∧ TransGen s.Dep w w' ∧ s.ident w = s.ident w'

omit [DecidableEq κ] [DecidableEq ι] in
/-- A failure behind a node is one behind the node before it. -/
theorem Fails.step {u v : ν} {i : ι} {visiting : List ι} (h : s.Fails v (i :: visiting))
    (hstep : s.Dep u v) (hident : s.ident v = .ok i) : s.Fails u visiting := by
  rcases h with ⟨w, hw, d, hd, hresolve⟩ | ⟨w, hw, hname⟩ | ⟨w, j, hw, hj, hmem⟩ |
      ⟨w, w', hw, hw', heq⟩
  · exact .inl ⟨w, ReflTransGen.head hstep hw, d, hd, hresolve⟩
  · exact .inr (.inl ⟨w, TransGen.head hstep hw, hname⟩)
  · rcases List.mem_cons.mp hmem with rfl | hmem
    · exact .inr (.inr (.inr ⟨v, w, TransGen.single hstep, hw, hident.trans hj.symm⟩))
    · exact .inr (.inr (.inl ⟨w, j, TransGen.head hstep hw, hj, hmem⟩))
  · exact .inr (.inr (.inr ⟨w, w', TransGen.head hstep hw, hw', heq⟩))

theorem visit_error (horder : s.Orders order) {fuel : Nat} {u : ν} {st : SearchState ν κ ι}
    {e : ε} (h : s.visit order fuel u st = some (.error e)) : s.Fails u st.visiting := by
  induction fuel generalizing u st with
  | zero => cases h
  | succ fuel ih =>
      rw [visit_succ] at h
      obtain ⟨d, hd, before, st₁, hbefore, hstop⟩ := visitEdges_stopped h (fun _ => nofun)
      have hedges := visitEdges_visiting (fun _ _ _ => visit_visiting) hbefore
      have hpath : st₁.visiting = st.visiting := hedges
      have hd' : d ∈ s.edges u := (horder st.clock u).mem_iff.mp hd
      rcases visitEdge_error hstop with hresolve | ⟨k, v, hresolve, hname | ⟨i, hi, hmem | hvisit⟩⟩
      · exact .inl ⟨u, ReflTransGen.refl, d, hd', hresolve⟩
      · exact .inr (.inl ⟨v, TransGen.single ⟨k, d, hd', hresolve⟩, hname⟩)
      · exact .inr (.inr (.inl ⟨v, i, TransGen.single ⟨k, d, hd', hresolve⟩, hi, hpath ▸ hmem⟩))
      · have hfails := ih hvisit
        rw [hpath] at hfails
        exact hfails.step ⟨k, d, hd', hresolve⟩ hi

/-- Where every edge can be followed, every node has a name and none comes up twice on a path,
no search fails. -/
theorem run_ne_error (horder : s.Orders order) {fuel : Nat} {root : ν}
    (hresolved : s.Resolved root) (hnamed : s.Named root) (hrepeat : s.NoRepeat s.ident root)
    {e : ε} : s.run order fuel root [] ≠ some (.error e) := by
  intro h
  unfold run at h
  obtain ⟨i, hident⟩ := hnamed root ReflTransGen.refl
  simp only [hident, Option.map_eq_some_iff] at h
  obtain ⟨result, hvisit, hresult⟩ := h
  cases result with
  | ok st => cases hresult
  | error e' =>
      rcases visit_error horder hvisit with ⟨w, hw, d, hd, hresolve⟩ | ⟨w, hw, hname⟩ |
          ⟨w, j, hw, hj, hmem⟩ | ⟨w, w', hw, hw', heq⟩
      · obtain ⟨x, hx⟩ := hresolved w hw d hd
        exact hresolve x hx
      · obtain ⟨j, hj⟩ := hnamed w hw.to_reflTransGen
        exact hname j hj
      · rw [List.mem_singleton.mp hmem, ← hident] at hj
        exact hrepeat root w ReflTransGen.refl hw hj.symm
      · exact hrepeat w w' hw.to_reflTransGen hw' heq

/-! ## An order that finds a repetition -/

variable (s) in
/-- Edges that follow each other from a node, with what is at the end of each. -/
def Trail (u : ν) : List (δ × κ × ν) → Prop
  | [] => True
  | (d, k, v) :: rest => d ∈ s.edges u ∧ s.resolve d = .ok (k, v) ∧ Trail v rest

variable (s) in
/-- Some name of the trail is on the path when it comes up. -/
def Collides (visiting : List ι) : List (δ × κ × ν) → Prop
  | [] => False
  | (_, _, v) :: rest => ∃ i, s.ident v = .ok i ∧ (i ∈ visiting ∨ Collides (i :: visiting) rest)

/-- The last node of a trail. -/
def lastNode (u : ν) : List (δ × κ × ν) → ν
  | [] => u
  | (_, _, v) :: rest => lastNode v rest

omit [DecidableEq κ] [DecidableEq ι] in
theorem exists_trail {u v : ν} (h : ReflTransGen s.Dep u v) :
    ∃ trail, s.Trail u trail ∧ lastNode u trail = v := by
  induction h using ReflTransGen.head_induction_on with
  | refl => exact ⟨[], trivial, rfl⟩
  | head hstep _ ih =>
      obtain ⟨k, d, hd, hresolve⟩ := hstep
      obtain ⟨trail, htrail, hlast⟩ := ih
      exact ⟨(d, k, _) :: trail, ⟨hd, hresolve, htrail⟩, hlast⟩

omit [DecidableEq κ] [DecidableEq ι] in
theorem Trail.append {u : ν} {first second : List (δ × κ × ν)} (h : s.Trail u first)
    (h' : s.Trail (lastNode u first) second) : s.Trail u (first ++ second) := by
  induction first generalizing u with
  | nil => exact h'
  | cons entry rest ih => exact ⟨h.1, h.2.1, ih h.2.2 h'⟩

omit [DecidableEq κ] [DecidableEq ι] in
/-- A trail whose last name is on the path collides, if not before then there. -/
theorem collides_of_last {u : ν} {trail : List (δ × κ × ν)} {visiting : List ι} {i : ι}
    (htrail : s.Trail u trail) (hnamed : s.Named u) (hnil : trail ≠ [])
    (hlast : s.ident (lastNode u trail) = .ok i) (hi : i ∈ visiting) :
    s.Collides visiting trail := by
  induction trail generalizing u visiting with
  | nil => exact absurd rfl hnil
  | cons entry rest ih =>
      obtain ⟨d, k, v⟩ := entry
      have hstep : s.Dep u v := ⟨k, d, htrail.1, htrail.2.1⟩
      obtain ⟨j, hj⟩ := hnamed v (ReflTransGen.single hstep)
      refine ⟨j, hj, ?_⟩
      cases rest with
      | nil =>
          rw [show lastNode u [(d, k, v)] = v from rfl, hj] at hlast
          cases hlast
          exact .inl hi
      | cons next rest =>
          exact .inr (ih htrail.2.2 (fun w hw => hnamed w (ReflTransGen.head hstep hw)) (by simp)
            hlast (List.mem_cons_of_mem _ hi))

omit [DecidableEq κ] [DecidableEq ι] in
/-- A trail that comes to a name twice collides. -/
theorem collides_of_repeat {u : ν} {first second : List (δ × κ × ν)} {visiting : List ι}
    (hfirst : s.Trail u first) (hsecond : s.Trail (lastNode u first) second)
    (hnamed : s.Named u) (hnil : second ≠ [])
    (hrepeat : s.ident (lastNode u first) = s.ident (lastNode (lastNode u first) second))
    (hvisiting : ∀ i, s.ident u = .ok i → i ∈ visiting) :
    s.Collides visiting (first ++ second) := by
  induction first generalizing u visiting with
  | nil =>
      obtain ⟨i, hi⟩ := hnamed u ReflTransGen.refl
      exact collides_of_last hsecond hnamed hnil (hrepeat.symm.trans hi) (hvisiting i hi)
  | cons entry rest ih =>
      obtain ⟨d, k, v⟩ := entry
      have hstep : s.Dep u v := ⟨k, d, hfirst.1, hfirst.2.1⟩
      obtain ⟨j, hj⟩ := hnamed v (ReflTransGen.single hstep)
      refine ⟨j, hj, .inr ?_⟩
      refine ih hfirst.2.2 hsecond (fun w hw => hnamed w (ReflTransGen.head hstep hw)) hrepeat ?_
      intro i hi
      rw [hj] at hi
      cases hi
      exact List.mem_cons_self

variable [DecidableEq δ]

variable (s) in
/-- At the visit with a number, the edge of the trail with that number comes first. -/
def follow (trail : List (δ × κ × ν)) (n : Nat) (u : ν) : List δ :=
  match trail[n]? with
  | some (d, _) => if d ∈ s.edges u then d :: (s.edges u).erase d else s.edges u
  | none => s.edges u

omit [DecidableEq κ] [DecidableEq ι] in
theorem follow_orders (trail : List (δ × κ × ν)) : s.Orders (s.follow trail) := by
  intro n u
  unfold follow
  split
  · split_ifs with hd
    · exact (List.perm_cons_erase hd).symm
    · exact List.Perm.refl _
  · exact List.Perm.refl _

/-- Along a trail that collides, a search that has kept nothing does not return. -/
theorem visit_follow {trail : List (δ × κ × ν)} {fuel n : Nat} {u : ν} {visiting : List ι}
    {st' : SearchState ν κ ι} (htrail : s.Trail u (trail.drop n))
    (hcollides : s.Collides visiting (trail.drop n)) :
    s.visit (s.follow trail) fuel u ⟨[], visiting, n⟩ ≠ some (.ok st') := by
  induction fuel generalizing n u visiting st' with
  | zero => exact nofun
  | succ fuel ih =>
      intro h
      rw [visit_succ] at h
      cases hdrop : trail.drop n with
      | nil =>
          rw [hdrop] at hcollides
          exact hcollides
      | cons entry rest =>
          obtain ⟨d, k, v⟩ := entry
          have hrest : trail.drop (n + 1) = rest := by
            rw [← List.tail_drop, hdrop]
            rfl
          have hget : trail[n]? = some (d, k, v) := by
            rw [← List.head?_drop, hdrop]
            rfl
          rw [hdrop] at htrail hcollides
          obtain ⟨hd, hresolve, htrail⟩ := htrail
          obtain ⟨i, hi, hcollides⟩ := hcollides
          have hfollow : s.follow trail n u = d :: (s.edges u).erase d := by
            unfold follow
            rw [hget]
            exact if_pos hd
          rw [show (⟨[], visiting, n⟩ : SearchState ν κ ι).clock = n from rfl, hfollow] at h
          obtain ⟨st₁, hfirst, -⟩ := visitEdges_cons_ok.mp h
          obtain ⟨k', v', j, hresolve', hj, hnot, ⟨hdone, -⟩ | ⟨-, st₂, hvisit, -⟩⟩ :=
            visitEdge_ok hfirst
          · exact absurd hdone (by simp)
          · rw [hresolve] at hresolve'
            cases hresolve'
            rw [hi] at hj
            cases hj
            refine ih ?_ ?_ hvisit
            · rw [hrest]
              exact htrail
            · rw [hrest]
              exact hcollides.resolve_left hnot

/-- A repetition that a search may come across is found in some order. -/
theorem exists_order_ne_ok {root : ν} (hnamed : s.Named root)
    (hrepeat : ¬ s.NoRepeat s.ident root) :
    ∃ order, s.Orders order ∧ ∀ fuel done, s.run order fuel root [] ≠ some (.ok done) := by
  simp only [NoRepeat, not_forall, not_not] at hrepeat
  obtain ⟨u, v, hu, huv, heq⟩ := hrepeat
  obtain ⟨first, hfirst, rfl⟩ := exists_trail hu
  obtain ⟨w, ⟨k, d, hd, hresolve⟩, hwv⟩ := TransGen.head'_iff.mp huv
  obtain ⟨second, hsecond, rfl⟩ := exists_trail hwv
  obtain ⟨i, hident⟩ := hnamed root ReflTransGen.refl
  have hcollides : s.Collides [i] (first ++ (d, k, w) :: second) := by
    refine collides_of_repeat hfirst ⟨hd, hresolve, hsecond⟩ hnamed (by simp) heq ?_
    intro j hj
    rw [hident] at hj
    cases hj
    exact List.mem_singleton_self _
  refine ⟨s.follow (first ++ (d, k, w) :: second), follow_orders _, fun fuel done h => ?_⟩
  unfold run at h
  simp only [hident, Option.map_eq_some_iff] at h
  obtain ⟨result, hvisit, hresult⟩ := h
  cases result with
  | error e => cases hresult
  | ok st =>
      have htrail : s.Trail root (first ++ (d, k, w) :: second) :=
        hfirst.append ⟨hd, hresolve, hsecond⟩
      exact visit_follow (n := 0) htrail hcollides hvisit

/-! ## Searches with other errors -/

/-- Both are results, or both are errors. -/
theorem toOption_eq_iff {ε ε' α : Type} {x : Except ε α} {y : Except ε' α} :
    x.toOption = y.toOption ↔
      (∃ a, x = .ok a ∧ y = .ok a) ∨ ∃ e e', x = .error e ∧ y = .error e' := by
  cases x <;> cases y <;> simp [Except.toOption, eq_comm]

section Agreement

variable {ε' : Type} {s' : Search ν κ ι δ ε'}

omit [DecidableEq δ] in
theorem visitEdge_toOption (hident : ∀ v, (s.ident v).toOption = (s'.ident v).toOption)
    {visitNode : ν → SearchState ν κ ι → Option (Except ε (SearchState ν κ ι))}
    {visitNode' : ν → SearchState ν κ ι → Option (Except ε' (SearchState ν κ ι))} {d : δ}
    (hresolve : (s.resolve d).toOption = (s'.resolve d).toOption)
    (hnode : ∀ k v, s.resolve d = .ok (k, v) → ∀ st,
      (visitNode v st).map Except.toOption = (visitNode' v st).map Except.toOption)
    (st : SearchState ν κ ι) :
    (s.visitEdge visitNode d st).map Except.toOption =
      (s'.visitEdge visitNode' d st).map Except.toOption := by
  unfold visitEdge
  rcases toOption_eq_iff.mp hresolve with ⟨⟨k, v⟩, h, h'⟩ | ⟨e, e', h, h'⟩
  · simp only [h, h']
    rcases toOption_eq_iff.mp (hident v) with ⟨i, hi, hi'⟩ | ⟨e, e', hi, hi'⟩
    · simp only [hi, hi']
      split_ifs
      · rfl
      · rfl
      · have hvisit := hnode k v h { st with visiting := i :: st.visiting }
        revert hvisit
        generalize visitNode v { st with visiting := i :: st.visiting } = result
        generalize visitNode' v { st with visiting := i :: st.visiting } = result'
        rcases result with _ | _ | st₁ <;> rcases result' with _ | _ | st₁' <;>
          simp only [Option.map_some, Option.map_none, Except.toOption, reduceCtorEq,
            Option.some.injEq, IsEmpty.forall_iff, imp_self]
        rintro rfl
        rfl
    · simp only [hi, hi']
      rfl
  · simp only [h, h']
    rfl

omit [DecidableEq δ] in
theorem visitEdges_toOption (hident : ∀ v, (s.ident v).toOption = (s'.ident v).toOption)
    {visitNode : ν → SearchState ν κ ι → Option (Except ε (SearchState ν κ ι))}
    {visitNode' : ν → SearchState ν κ ι → Option (Except ε' (SearchState ν κ ι))}
    {ds : List δ} (hresolve : ∀ d ∈ ds, (s.resolve d).toOption = (s'.resolve d).toOption)
    (hnode : ∀ d ∈ ds, ∀ k v, s.resolve d = .ok (k, v) → ∀ st,
      (visitNode v st).map Except.toOption = (visitNode' v st).map Except.toOption)
    (st : SearchState ν κ ι) :
    (s.visitEdges visitNode ds st).map Except.toOption =
      (s'.visitEdges visitNode' ds st).map Except.toOption := by
  induction ds generalizing st with
  | nil => rfl
  | cons d rest ih =>
      have hfirst := visitEdge_toOption hident (hresolve d List.mem_cons_self)
        (hnode d List.mem_cons_self) st
      have hrest := ih (fun d' hd' => hresolve d' (List.mem_cons_of_mem _ hd'))
        fun d' hd' => hnode d' (List.mem_cons_of_mem _ hd')
      rw [visitEdges, visitEdges]
      revert hfirst
      generalize s.visitEdge visitNode d st = result
      generalize s'.visitEdge visitNode' d st = result'
      rcases result with _ | _ | st₁ <;> rcases result' with _ | _ | st₁' <;>
        simp only [Option.map_some, Option.map_none, Except.toOption, reduceCtorEq,
          Option.some.injEq, IsEmpty.forall_iff, imp_self]
      rintro rfl
      exact hrest st₁

omit [DecidableEq δ] in
theorem visit_toOption (hident : ∀ v, (s.ident v).toOption = (s'.ident v).toOption)
    (horder : s.Orders order) (fuel : Nat) {u : ν}
    (hresolve : ∀ w, ReflTransGen s.Dep u w → ∀ d ∈ s.edges w,
      (s.resolve d).toOption = (s'.resolve d).toOption) (st : SearchState ν κ ι) :
    (s.visit order fuel u st).map Except.toOption =
      (s'.visit order fuel u st).map Except.toOption := by
  induction fuel generalizing u st with
  | zero => rfl
  | succ fuel ih =>
      have hmem : ∀ d ∈ order st.clock u, d ∈ s.edges u :=
        fun d hd => (horder st.clock u).mem_iff.mp hd
      refine visitEdges_toOption hident
        (fun d hd => hresolve u ReflTransGen.refl d (hmem d hd)) ?_ _
      intro d hd k v hstep st
      exact ih (fun w hw => hresolve w (ReflTransGen.head ⟨k, d, hmem d hd, hstep⟩ hw)) st

omit [DecidableEq δ] in
/-- Searches that agree in the names and in what they find on the paths from the root keep the
same, and both fail or neither. -/
theorem run_toOption (hident : ∀ v, (s.ident v).toOption = (s'.ident v).toOption)
    (horder : s.Orders order) (fuel : Nat) {root : ν}
    (hresolve : ∀ w, ReflTransGen s.Dep root w → ∀ d ∈ s.edges w,
      (s.resolve d).toOption = (s'.resolve d).toOption) (done : List (κ × ν)) :
    (s.run order fuel root done).map Except.toOption =
      (s'.run order fuel root done).map Except.toOption := by
  unfold run
  rcases toOption_eq_iff.mp (hident root) with ⟨i, hi, hi'⟩ | ⟨e, e', hi, hi'⟩
  · have hvisit := visit_toOption hident horder fuel hresolve ⟨done, [i], 0⟩
    simp only [hi, hi']
    revert hvisit
    generalize s.visit order fuel root ⟨done, [i], 0⟩ = result
    generalize s'.visit order fuel root ⟨done, [i], 0⟩ = result'
    rcases result with _ | _ | st <;> rcases result' with _ | _ | st' <;>
      simp only [Option.map_some, Option.map_none, Except.toOption, Except.map, reduceCtorEq,
        Option.some.injEq, IsEmpty.forall_iff, imp_self]
    rintro rfl
    rfl
  · simp only [hi, hi']
    rfl

end Agreement

end Search

end Collections
end CyfsNdn

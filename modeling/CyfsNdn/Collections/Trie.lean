import Mathlib.Data.List.Basic
import Mathlib.Data.List.Nodup
import Mathlib.Tactic

/-!
# Tries

A trie node has its own data and its children, one for each key.  A path is the list
of keys from the root.  What programs do to a trie is a walk down one path: `edit`
rewrites the node at the end of the path, creating what is missing, and recomputes the
data of every node of the path on the way back up, bottom first.

`Everywhere` says that a property of a path and of the trie below it holds at each
node.  The rules for it follow the recursion of `edit`, so that a proof about an edit
looks at one node of the path at a time and never at the nodes beside it.
-/

namespace CyfsNdn
namespace Collections

/-- A node of a trie, with everything below it. -/
structure Trie (κ α : Type) where
  data : α
  children : List (κ × Trie κ α)

namespace Trie

variable {κ α : Type}

/-- A node without children. -/
def leaf (data : α) : Trie κ α := ⟨data, []⟩

/-! ## Collecting over a subtree -/

mutual

/-- The items of all nodes of a trie, a node before its children. -/
def collect {β : Type} (items : α → List β) : Trie κ α → List β
  | ⟨data, children⟩ => items data ++ collectChildren items children

/-- The items below a list of children. -/
def collectChildren {β : Type} (items : α → List β) : List (κ × Trie κ α) → List β
  | [] => []
  | entry :: rest => collectEntry items entry ++ collectChildren items rest

/-- The items below one child. -/
def collectEntry {β : Type} (items : α → List β) : κ × Trie κ α → List β
  | (_, child) => collect items child

end

variable [DecidableEq κ]

/-! ## Children -/

/-- `children.get(c)`. -/
def child? (t : Trie κ α) (c : κ) : Option (Trie κ α) :=
  (t.children.find? fun entry => entry.1 = c).map Prod.snd

/-- A list of children with the child of one key replaced, or added at the end. -/
def setEntry (c : κ) (u : Trie κ α) : List (κ × Trie κ α) → List (κ × Trie κ α)
  | [] => [(c, u)]
  | entry :: rest =>
      if entry.1 = c then (entry.1, u) :: rest else entry :: setEntry c u rest

/-- `children.insert(c, u)`. -/
def setChild (t : Trie κ α) (c : κ) (u : Trie κ α) : Trie κ α :=
  { t with children := setEntry c u t.children }

/-- `children.remove(c)`. -/
def eraseChild (t : Trie κ α) (c : κ) : Trie κ α :=
  { t with children := t.children.filter fun entry => !decide (entry.1 = c) }

@[simp] theorem child?_leaf (data : α) (c : κ) : (leaf data : Trie κ α).child? c = none := rfl

theorem find?_setEntry (c d : κ) (u : Trie κ α) (children : List (κ × Trie κ α)) :
    ((setEntry c u children).find? fun entry => entry.1 = d).map Prod.snd =
      if d = c then some u
      else (children.find? fun entry => entry.1 = d).map Prod.snd := by
  induction children with
  | nil =>
      by_cases hd : d = c
      · simp [setEntry, hd]
      · simp [setEntry, hd, Ne.symm hd]
  | cons entry rest ih =>
      by_cases hc : entry.1 = c
      · by_cases hd : d = c
        · simp [setEntry, hc, hd]
        · have hcd : ¬ c = d := fun h => hd h.symm
          simp [setEntry, hc, hd, hcd]
      · by_cases hd : entry.1 = d
        · have hdc : ¬ d = c := fun h => hc (hd.trans h)
          simp [setEntry, hd, hdc]
        · simpa [setEntry, hc, hd] using ih

@[simp] theorem child?_setChild (t : Trie κ α) (c d : κ) (u : Trie κ α) :
    (t.setChild c u).child? d = if d = c then some u else t.child? d :=
  find?_setEntry c d u t.children

@[simp] theorem child?_eraseChild (t : Trie κ α) (c d : κ) :
    (t.eraseChild c).child? d = if d = c then none else t.child? d := by
  obtain ⟨data, children⟩ := t
  show ((children.filter fun entry => !decide (entry.1 = c)).find?
    fun entry => entry.1 = d).map Prod.snd = _
  rw [List.find?_filter]
  by_cases hd : d = c
  · subst hd
    simp
  · rw [if_neg hd]
    show _ = (children.find? fun entry => entry.1 = d).map Prod.snd
    congr 2
    funext entry
    by_cases he : entry.1 = d
    · have hec : ¬ entry.1 = c := fun h => hd (he.symm.trans h)
      simp [he, hd]
    · simp [he]

@[simp] theorem setChild_data (t : Trie κ α) (c : κ) (u : Trie κ α) :
    (t.setChild c u).data = t.data := rfl

@[simp] theorem eraseChild_data (t : Trie κ α) (c : κ) : (t.eraseChild c).data = t.data := rfl

theorem setEntry_setEntry (c : κ) (u v : Trie κ α) (children : List (κ × Trie κ α)) :
    setEntry c v (setEntry c u children) = setEntry c v children := by
  induction children with
  | nil => simp [setEntry]
  | cons entry rest ih =>
      by_cases hc : entry.1 = c
      · simp [setEntry, hc]
      · simp [setEntry, hc, ih]

theorem map_fst_setEntry (c : κ) (u : Trie κ α) (children : List (κ × Trie κ α)) :
    (setEntry c u children).map Prod.fst =
      if c ∈ children.map Prod.fst then children.map Prod.fst
      else children.map Prod.fst ++ [c] := by
  induction children with
  | nil => simp [setEntry]
  | cons entry rest ih =>
      by_cases hc : entry.1 = c
      · simp [setEntry, hc]
      · have hce : ¬ c = entry.1 := fun h => hc h.symm
        rw [setEntry, if_neg hc, List.map_cons, ih, List.map_cons]
        by_cases hmem : c ∈ rest.map Prod.fst
        · rw [if_pos hmem, if_pos (List.mem_cons_of_mem _ hmem)]
        · rw [if_neg hmem, if_neg (List.not_mem_cons_of_ne_of_not_mem hce hmem)]
          rfl

/-- No two children of a node share a key. -/
def KeysNodup (t : Trie κ α) : Prop := (t.children.map Prod.fst).Nodup

omit [DecidableEq κ] in
theorem keysNodup_leaf (data : α) : (leaf data : Trie κ α).KeysNodup := List.nodup_nil

theorem KeysNodup.setChild {t : Trie κ α} (h : t.KeysNodup) (c : κ) (u : Trie κ α) :
    (t.setChild c u).KeysNodup := by
  show ((setEntry c u t.children).map Prod.fst).Nodup
  rw [map_fst_setEntry]
  split_ifs with hmem
  · exact h
  · rw [List.nodup_append]
    refine ⟨h, List.nodup_singleton c, ?_⟩
    intro a ha b hb hab
    rw [List.mem_singleton] at hb
    exact hmem (hb ▸ hab ▸ ha)

theorem KeysNodup.eraseChild {t : Trie κ α} (h : t.KeysNodup) (c : κ) :
    (t.eraseChild c).KeysNodup :=
  h.sublist (List.filter_sublist.map Prod.fst)

/-- An entry of the list of children is what its key finds. -/
theorem KeysNodup.child?_of_mem {t : Trie κ α} (h : t.KeysNodup) {entry : κ × Trie κ α}
    (hmem : entry ∈ t.children) : t.child? entry.1 = some entry.2 := by
  unfold child?
  cases hfind : t.children.find? fun other => other.1 = entry.1 with
  | none =>
      have hnone := List.find?_eq_none.mp hfind entry hmem
      simp at hnone
  | some other =>
      have hkey : other.1 = entry.1 := by simpa using List.find?_some hfind
      have hsame := List.inj_on_of_nodup_map h (List.mem_of_find?_eq_some hfind) hmem hkey
      rw [hsame]
      rfl

/-! ## Paths -/

/-- The trie below a path. -/
def get? (t : Trie κ α) : List κ → Option (Trie κ α)
  | [] => some t
  | c :: path => (t.child? c).bind fun u => u.get? path

@[simp] theorem get?_nil (t : Trie κ α) : t.get? [] = some t := rfl

@[simp] theorem get?_cons (t : Trie κ α) (c : κ) (path : List κ) :
    t.get? (c :: path) = (t.child? c).bind fun u => u.get? path := rfl

theorem get?_append (t : Trie κ α) (path rest : List κ) :
    t.get? (path ++ rest) = (t.get? path).bind fun u => u.get? rest := by
  induction path generalizing t with
  | nil => rfl
  | cons c path ih =>
      rw [List.cons_append, get?_cons, get?_cons]
      cases t.child? c with
      | none => rfl
      | some u => exact ih u

/-- Every node on the way to an existing node exists. -/
theorem exists_get?_of_append {t u : Trie κ α} {path rest : List κ}
    (h : t.get? (path ++ rest) = some u) : ∃ v, t.get? path = some v := by
  rw [get?_append] at h
  cases hpath : t.get? path with
  | none =>
      rw [hpath] at h
      exact absurd h (by simp)
  | some v => exact ⟨v, rfl⟩

/-- Rewrite the data of the existing nodes strictly above the end of a path. -/
def mapAbove (down : α → α) : List κ → Trie κ α → Trie κ α
  | [], t => t
  | c :: path, t =>
      match t.child? c with
      | none => { t with data := down t.data }
      | some u => { t with data := down t.data }.setChild c (mapAbove down path u)

/-- Walk down a path, creating missing nodes, and rewrite the node at its end; on the way
back up the data of each node of the path is computed anew from the node. -/
def edit (empty : α) (down : α → α) (target : Trie κ α → Trie κ α) (up : Trie κ α → α) :
    List κ → Trie κ α → Trie κ α
  | [], t => { target t with data := up (target t) }
  | c :: path, t =>
      let rebuilt := { t with data := down t.data }.setChild c
        (edit empty down target up path ((t.child? c).getD (leaf empty)))
      { rebuilt with data := up rebuilt }

theorem mapAbove_leaf {down : α → α} {empty : α} (hdown : down empty = empty) (path : List κ) :
    mapAbove down path (leaf empty) = leaf empty := by
  cases path with
  | nil => rfl
  | cons c path =>
      show { (leaf empty : Trie κ α) with data := down empty } = leaf empty
      rw [hdown]
      rfl

/-- Rewriting the nodes above first and then editing is one walk. -/
theorem edit_mapAbove {empty : α} {down : α → α} (hdown : down empty = empty)
    (target : Trie κ α → Trie κ α) (up : Trie κ α → α) (path : List κ) (t : Trie κ α) :
    edit empty id target up path (mapAbove down path t) =
      edit empty down target up path t := by
  induction path generalizing t with
  | nil => rfl
  | cons c path ih =>
      cases hchild : t.child? c with
      | none =>
          have hbelow := ih (leaf empty)
          rw [mapAbove_leaf hdown] at hbelow
          have habove : mapAbove down (c :: path) t = { t with data := down t.data } := by
            simp only [mapAbove, hchild]
          have hnone : ({ t with data := down t.data } : Trie κ α).child? c = none := hchild
          rw [habove]
          simp only [edit, hchild, hnone, Option.getD_none, hbelow, id_eq]
      | some u =>
          have habove : mapAbove down (c :: path) t =
              { t with data := down t.data }.setChild c (mapAbove down path u) := by
            simp only [mapAbove, hchild]
          rw [habove]
          simp only [edit, child?_setChild, if_true, hchild, Option.getD_some, ih u, id_eq]
          simp only [setChild, setEntry_setEntry]

section Edit

variable {empty : α} {down : α → α} {target : Trie κ α → Trie κ α} {up : Trie κ α → α}

theorem child?_edit_cons (c d : κ) (path : List κ) (t : Trie κ α) :
    (edit empty down target up (c :: path) t).child? d =
      if d = c then some (edit empty down target up path ((t.child? c).getD (leaf empty)))
      else t.child? d :=
  child?_setChild { t with data := down t.data } c d _

theorem KeysNodup.edit_cons {t : Trie κ α} (h : t.KeysNodup) (c : κ) (path : List κ) :
    (edit empty down target up (c :: path) t).KeysNodup :=
  KeysNodup.setChild (t := { t with data := down t.data }) h c _

end Edit

/-! ## Properties of all nodes -/

/-- A property of the path and of the trie below it holds at every node. -/
def Everywhere (P : List κ → Trie κ α → Prop) (base : List κ) (t : Trie κ α) : Prop :=
  ∀ path u, t.get? path = some u → P (base ++ path) u

section Everywhere

variable {P : List κ → Trie κ α → Prop} {base : List κ} {t : Trie κ α}

theorem everywhere_iff :
    Everywhere P base t ↔
      P base t ∧ ∀ c u, t.child? c = some u → Everywhere P (base ++ [c]) u := by
  constructor
  · intro h
    refine ⟨by simpa using h [] t rfl, ?_⟩
    intro c u hchild path v hget
    have hpath : t.get? (c :: path) = some v := by rw [get?_cons, hchild]; exact hget
    simpa using h (c :: path) v hpath
  · rintro ⟨hroot, hbelow⟩ path v hget
    cases path with
    | nil =>
        rw [get?_nil, Option.some.injEq] at hget
        subst hget
        simpa using hroot
    | cons c path =>
        rw [get?_cons] at hget
        cases hchild : t.child? c with
        | none =>
            rw [hchild] at hget
            exact absurd hget (by simp)
        | some u =>
            rw [hchild] at hget
            simpa using hbelow c u hchild path v hget

theorem Everywhere.root (h : Everywhere P base t) : P base t := (everywhere_iff.mp h).1

theorem Everywhere.child (h : Everywhere P base t) {c : κ} {u : Trie κ α}
    (hchild : t.child? c = some u) : Everywhere P (base ++ [c]) u :=
  (everywhere_iff.mp h).2 c u hchild

/-- The child of a key, or a new node in its place. -/
theorem Everywhere.child_getD (h : Everywhere P base t) {empty : α}
    (hempty : ∀ path, Everywhere P path (leaf empty)) (c : κ) :
    Everywhere P (base ++ [c]) ((t.child? c).getD (leaf empty)) := by
  cases hchild : t.child? c with
  | none => exact hempty _
  | some u => exact h.child hchild

theorem everywhere_leaf {data : α} (h : P base (leaf data)) : Everywhere P base (leaf data) :=
  everywhere_iff.mpr ⟨h, fun _ _ hchild => absurd hchild (by simp)⟩

/-- The rule for edits: the rewritten end of the path has the property, and a node of
the path gets it back when the new child and all its other children have it. -/
theorem everywhere_edit {empty : α} {down : α → α} {target : Trie κ α → Trie κ α}
    {up : Trie κ α → α} {path : List κ} (h : Everywhere P base t)
    (hempty : ∀ path, Everywhere P path (leaf empty))
    (htarget : ∀ u, Everywhere P (base ++ path) u →
      Everywhere P (base ++ path) (edit empty down target up [] u))
    (hup : ∀ base u c path, Everywhere P base u →
      (∀ d v, (edit empty down target up (c :: path) u).child? d = some v →
        Everywhere P (base ++ [d]) v) →
      P base (edit empty down target up (c :: path) u)) :
    Everywhere P base (edit empty down target up path t) := by
  induction path generalizing base t with
  | nil =>
      rw [List.append_nil] at htarget
      exact htarget t h
  | cons c path ih =>
      have hbelow : ∀ d v, (edit empty down target up (c :: path) t).child? d = some v →
          Everywhere P (base ++ [d]) v := by
        intro d v hchild
        rw [child?_edit_cons] at hchild
        split_ifs at hchild with hd
        · rw [Option.some.injEq] at hchild
          subst hchild hd
          apply ih (h.child_getD hempty d)
          intro u hu
          rw [List.append_assoc, List.singleton_append] at hu ⊢
          exact htarget u hu
        · exact h.child hchild
      exact everywhere_iff.mpr ⟨hup base t c path h hbelow, hbelow⟩

end Everywhere

end Trie
end Collections
end CyfsNdn

import CyfsNdn.Collections.Trie

/-!
# What the paths of a trie hold

`read` looks one field of the node at a path up, so that a trie becomes a map from paths.
The walks of `Trie` change that map at the paths they name and nowhere else, whatever they
do to the rest of the nodes' data.  `nodes` lists the nodes of a trie with their paths; a
trie in which no two children of a node share a key has each path once in it, which turns
a count of nodes into a count of paths.
-/

namespace CyfsNdn
namespace Collections
namespace Trie

variable {κ α β : Type} [DecidableEq κ]

/-! ## Reading a field along a path -/

/-- What the field `f` of the node at the path holds. -/
def read (f : α → Option β) (t : Trie κ α) (path : List κ) : Option β :=
  (t.get? path).bind fun u => f u.data

section Read

variable {f : α → Option β} {t : Trie κ α}

@[simp] theorem read_nil : read f t [] = f t.data := rfl

theorem read_cons (c : κ) (path : List κ) :
    read f t (c :: path) = (t.child? c).bind fun u => read f u path := by
  unfold read
  rw [get?_cons, Option.bind_assoc]

theorem read_eq_some_iff {path : List κ} {b : β} :
    read f t path = some b ↔ ∃ u, t.get? path = some u ∧ f u.data = some b :=
  Option.bind_eq_some_iff

theorem read_append {u : Trie κ α} {path : List κ} (h : t.get? path = some u)
    (rest : List κ) : read f t (path ++ rest) = read f u rest := by
  unfold read
  rw [get?_append, h]
  rfl

theorem read_leaf {empty : α} (hempty : f empty = none) (path : List κ) :
    read f (leaf empty) path = none := by
  cases path with
  | nil => exact hempty
  | cons c path => rw [read_cons, child?_leaf, Option.bind_none]

/-- A missing child reads as an empty one. -/
theorem read_child_getD {empty : α} (hempty : f empty = none) (c : κ) (path : List κ) :
    read f ((t.child? c).getD (leaf empty)) path = read f t (c :: path) := by
  rw [read_cons]
  cases t.child? c with
  | none => exact read_leaf hempty path
  | some u => rfl

/-- A missing node reads as an empty one. -/
theorem read_get?_getD {empty : α} (hempty : f empty = none) (path rest : List κ) :
    read f ((t.get? path).getD (leaf empty)) rest = read f t (path ++ rest) := by
  cases hget : t.get? path with
  | none =>
      rw [Option.getD_none, read_leaf hempty]
      unfold read
      rw [get?_append, hget]
      rfl
  | some u => rw [read_append hget, Option.getD_some]

theorem read_setChild (c : κ) (u : Trie κ α) (data : α) (d : κ) (path : List κ) :
    read f (({ t with data := data } : Trie κ α).setChild c u) (d :: path) =
      if d = c then read f u path else read f t (d :: path) := by
  rw [read_cons, child?_setChild, read_cons]
  split_ifs with hd
  · rfl
  · rfl

/-- Two tries with the same field at the root and the same children hold the same. -/
theorem read_congr {u : Trie κ α} (hdata : f t.data = f u.data) (hchildren : t.children = u.children)
    (path : List κ) : read f t path = read f u path := by
  cases path with
  | nil => exact hdata
  | cons c path =>
      rw [read_cons, read_cons]
      unfold child?
      rw [hchildren]

end Read

/-! ## The nodes above the end of a path -/

/-- The proper prefixes of a path, the shortest first. -/
def above : List κ → List (List κ)
  | [] => []
  | c :: path => [] :: (above path).map fun p => c :: p

omit [DecidableEq κ] in
theorem nil_mem_above (c : κ) (path : List κ) : [] ∈ above (c :: path) := List.mem_cons_self

omit [DecidableEq κ] in
theorem cons_mem_above {c d : κ} {p path : List κ} :
    d :: p ∈ above (c :: path) ↔ d = c ∧ p ∈ above path := by
  simp only [above, List.mem_cons, reduceCtorEq, false_or, List.mem_map, List.cons.injEq]
  constructor
  · rintro ⟨q, hq, hc, rfl⟩
    exact ⟨hc.symm, hq⟩
  · rintro ⟨rfl, hp⟩
    exact ⟨p, hp, rfl, rfl⟩

omit [DecidableEq κ] in
theorem not_mem_above_self (path : List κ) : path ∉ above path := by
  induction path with
  | nil => exact List.not_mem_nil
  | cons c path ih => exact fun hmem => ih (cons_mem_above.mp hmem).2

omit [DecidableEq κ] in
theorem nodup_above (path : List κ) : (above path).Nodup := by
  induction path with
  | nil => exact List.nodup_nil
  | cons c path ih =>
      rw [above, List.nodup_cons]
      refine ⟨by simp, ih.map ?_⟩
      intro p q hpq
      exact (List.cons.inj hpq).2

section Walks

variable {f : α → Option β}

/-- Rewriting the nodes above the end of a path takes the field out of them. -/
theorem read_mapAbove {down : α → α} (hdown : ∀ data, f (down data) = none) (path p : List κ)
    (t : Trie κ α) :
    read f (mapAbove down path t) p = if p ∈ above path then none else read f t p := by
  induction path generalizing t p with
  | nil => rfl
  | cons c path ih =>
      cases p with
      | nil =>
          rw [if_pos (nil_mem_above c path), read_nil]
          unfold mapAbove
          split
          · exact hdown t.data
          · exact hdown t.data
      | cons d p =>
          simp only [cons_mem_above]
          cases hchild : t.child? c with
          | none =>
              have hwalk : mapAbove down (c :: path) t = { t with data := down t.data } := by
                simp only [mapAbove, hchild]
              have hsame : read f (mapAbove down (c :: path) t) (d :: p) = read f t (d :: p) := by
                rw [hwalk]
                rfl
              rw [hsame]
              split_ifs with habove
              · rw [read_cons, habove.1, hchild, Option.bind_none]
              · rfl
          | some u =>
              have hwalk : mapAbove down (c :: path) t =
                  ({ t with data := down t.data } : Trie κ α).setChild c
                    (mapAbove down path u) := by
                simp only [mapAbove, hchild]
              rw [hwalk, read_setChild]
              by_cases hd : d = c
              · rw [if_pos hd, ih, read_cons, hd, hchild]
                simp
              · rw [if_neg hd, if_neg (fun h => hd h.1)]

variable {empty : α} {down : α → α} {target : Trie κ α → Trie κ α} {up : Trie κ α → α}

/-- What an edit leaves at and below the end of its path. -/
theorem read_edit_append (hup : ∀ u, f (up u) = f u.data) (path rest : List κ) (t : Trie κ α) :
    read f (edit empty down target up path t) (path ++ rest) =
      read f (target ((t.get? path).getD (leaf empty))) rest := by
  induction path generalizing t with
  | nil =>
      apply read_congr
      · exact hup (target t)
      · rfl
  | cons c path ih =>
      have hbelow : read f (edit empty down target up (c :: path) t) (c :: path ++ rest) =
          read f (edit empty down target up path ((t.child? c).getD (leaf empty)))
            (path ++ rest) := by
        rw [List.cons_append, read_cons, child?_edit_cons, if_pos rfl, Option.bind_some]
      have hend : ((((t.child? c).getD (leaf empty)).get? path).getD (leaf empty)) =
          (t.get? (c :: path)).getD (leaf empty) := by
        rw [get?_cons]
        cases t.child? c with
        | none =>
            cases path with
            | nil => rfl
            | cons d path => simp
        | some u => rfl
      rw [hbelow, ih, hend]

/-- An edit that keeps the data of the nodes on its way changes nothing elsewhere. -/
theorem read_edit_elsewhere (hup : ∀ u, f (up u) = f u.data) (hempty : f empty = none)
    {path p : List κ} (hp : ¬ path <+: p) (t : Trie κ α) :
    read f (edit empty id target up path t) p = read f t p := by
  induction path generalizing t p with
  | nil => exact absurd (List.nil_prefix) hp
  | cons c path ih =>
      cases p with
      | nil => exact hup _
      | cons d p =>
          rw [read_cons, child?_edit_cons, read_cons]
          by_cases hd : d = c
          · have hbelow : ¬ path <+: p := by
              intro hpre
              exact hp (List.cons_prefix_cons.mpr ⟨hd.symm, hpre⟩)
            rw [if_pos hd, Option.bind_some, ih hbelow, read_child_getD hempty, read_cons, hd]
          · rw [if_neg hd]

/-- An edit of one node's data changes one value. -/
theorem read_edit_data (hup : ∀ u, f (up u) = f u.data) (hempty : f empty = none)
    (hchildren : ∀ u, (target u).children = u.children) {g : Option β → Option β}
    (hg : ∀ u, f (target u).data = g (f u.data)) (path p : List κ) (t : Trie κ α) :
    read f (edit empty id target up path t) p =
      if p = path then g (read f t p) else read f t p := by
  by_cases hpre : path <+: p
  · obtain ⟨rest, rfl⟩ := hpre
    rw [read_edit_append hup, ← read_get?_getD hempty]
    cases rest with
    | nil =>
        rw [if_pos (List.append_nil path)]
        exact hg _
    | cons c rest =>
        -- below the edited node nothing changes
        rw [if_neg (by simp), read_cons, read_cons]
        unfold child?
        rw [hchildren]
  · rw [read_edit_elsewhere hup hempty hpre, if_neg]
    intro heq
    exact hpre (heq ▸ List.prefix_refl p)

/-- Erasing a child takes everything below it out. -/
theorem read_edit_eraseChild (hup : ∀ u, f (up u) = f u.data) (hempty : f empty = none)
    (path : List κ) (c : κ) (p : List κ) (t : Trie κ α) :
    read f (edit empty id (fun u => u.eraseChild c) up path t) p =
      if path ++ [c] <+: p then none else read f t p := by
  by_cases hpre : path <+: p
  · obtain ⟨rest, rfl⟩ := hpre
    rw [read_edit_append hup, ← read_get?_getD hempty]
    simp only [List.prefix_append_right_inj]
    cases rest with
    | nil => simp
    | cons d rest =>
        rw [read_cons, child?_eraseChild, read_cons]
        by_cases hd : d = c
        · simp [hd]
        · have hcd : ¬ c = d := fun h => hd h.symm
          simp [hd, hcd]
  · rw [read_edit_elsewhere hup hempty hpre, if_neg]
    intro hbelow
    exact hpre ((List.prefix_append path [c]).trans hbelow)

end Walks

/-! ## The list of all nodes -/

mutual

/-- The nodes of a trie with their paths, a node before its children. -/
def nodes : Trie κ α → List (List κ × α)
  | ⟨data, children⟩ => ([], data) :: nodesOfChildren children

/-- The nodes below a list of children. -/
def nodesOfChildren : List (κ × Trie κ α) → List (List κ × α)
  | [] => []
  | entry :: rest => nodesOfEntry entry ++ nodesOfChildren rest

/-- The nodes below one child. -/
def nodesOfEntry : κ × Trie κ α → List (List κ × α)
  | (c, child) => (nodes child).map fun node => (c :: node.1, node.2)

end

omit [DecidableEq κ] in
theorem nodes_eq (t : Trie κ α) : nodes t = ([], t.data) :: nodesOfChildren t.children := by
  obtain ⟨data, children⟩ := t
  rfl

omit [DecidableEq κ] in
theorem nodesOfEntry_eq (entry : κ × Trie κ α) :
    nodesOfEntry entry = (nodes entry.2).map fun node => (entry.1 :: node.1, node.2) := by
  obtain ⟨c, child⟩ := entry
  rfl

omit [DecidableEq κ] in
mutual

/-- Collecting items goes through the nodes of the list. -/
theorem collect_eq_flatMap (items : α → List β) : (t : Trie κ α) →
    collect items t = (nodes t).flatMap fun node => items node.2
  | ⟨data, children⟩ => by
      show items data ++ collectChildren items children = _
      rw [collectChildren_eq_flatMap items children]
      rfl

theorem collectChildren_eq_flatMap (items : α → List β) : (children : List (κ × Trie κ α)) →
    collectChildren items children =
      (nodesOfChildren children).flatMap fun node => items node.2
  | [] => rfl
  | entry :: rest => by
      show collectEntry items entry ++ collectChildren items rest =
        (nodesOfEntry entry ++ nodesOfChildren rest).flatMap _
      rw [collectEntry_eq_flatMap items entry, collectChildren_eq_flatMap items rest,
        List.flatMap_append]

theorem collectEntry_eq_flatMap (items : α → List β) : (entry : κ × Trie κ α) →
    collectEntry items entry = (nodesOfEntry entry).flatMap fun node => items node.2
  | (c, child) => by
      show collect items child = _
      rw [collect_eq_flatMap items child, nodesOfEntry_eq, List.flatMap_map]

end

/-- No node of the trie has two children of one key. -/
abbrev AllKeysNodup (t : Trie κ α) : Prop := Everywhere (fun _ u => u.KeysNodup) [] t

omit [DecidableEq κ] in
theorem mem_nodesOfChildren {children : List (κ × Trie κ α)} {node : List κ × α} :
    node ∈ nodesOfChildren children ↔ ∃ entry ∈ children, ∃ below ∈ nodes entry.2,
      (entry.1 :: below.1, below.2) = node := by
  induction children with
  | nil => simp [nodesOfChildren]
  | cons entry rest ih =>
      rw [nodesOfChildren, List.mem_append, nodesOfEntry_eq, List.mem_map, ih]
      simp

theorem AllKeysNodup.child {t : Trie κ α} (h : AllKeysNodup t) {c : κ} {u : Trie κ α}
    (hchild : t.child? c = some u) : AllKeysNodup u := by
  intro path v hget
  exact h (c :: path) v (by rw [get?_cons, hchild]; exact hget)

/-- The list holds the node of each path. -/
theorem mem_nodes {t : Trie κ α} (h : AllKeysNodup t) {path : List κ} {a : α} :
    (path, a) ∈ nodes t ↔ ∃ u, t.get? path = some u ∧ u.data = a := by
  induction path generalizing t with
  | nil =>
      rw [nodes_eq, List.mem_cons, mem_nodesOfChildren]
      simp [eq_comm]
  | cons c path ih =>
      rw [nodes_eq, List.mem_cons, mem_nodesOfChildren]
      constructor
      · rintro (hnil | ⟨entry, hentry, below, hbelow, heq⟩)
        · exact absurd hnil (by simp)
        · rw [Prod.mk.injEq, List.cons.injEq] at heq
          obtain ⟨⟨rfl, rfl⟩, rfl⟩ := heq
          have hchild := h.root.child?_of_mem hentry
          obtain ⟨u, hget, hdata⟩ := (ih (h.child hchild)).mp hbelow
          refine ⟨u, ?_, hdata⟩
          rw [get?_cons, hchild]
          exact hget
      · rintro ⟨u, hget, hdata⟩
        rw [get?_cons, Option.bind_eq_some_iff] at hget
        obtain ⟨v, hchild, hget⟩ := hget
        obtain ⟨entry, hfind, rfl⟩ := Option.map_eq_some_iff.mp hchild
        have hkey : entry.1 = c := by simpa using List.find?_some hfind
        exact Or.inr ⟨entry, List.mem_of_find?_eq_some hfind, (path, a),
          (ih (h.child hchild)).mpr ⟨u, hget, hdata⟩, by rw [hkey]⟩

mutual

/-- Each path stands once in the list. -/
theorem nodup_nodes : (t : Trie κ α) → AllKeysNodup t → ((nodes t).map Prod.fst).Nodup
  | ⟨data, children⟩, h => by
      have hchildren := nodup_nodesOfChildren children h.root
        (fun entry hentry => h.child (h.root.child?_of_mem hentry))
      show ([] :: (nodesOfChildren children).map Prod.fst).Nodup
      rw [List.nodup_cons]
      refine ⟨?_, hchildren⟩
      intro hnil
      obtain ⟨node, hnode, hpath⟩ := List.mem_map.mp hnil
      obtain ⟨entry, -, below, -, rfl⟩ := mem_nodesOfChildren.mp hnode
      exact absurd hpath (by simp)

theorem nodup_nodesOfChildren : (children : List (κ × Trie κ α)) →
    (children.map Prod.fst).Nodup → (∀ entry ∈ children, AllKeysNodup entry.2) →
    ((nodesOfChildren children).map Prod.fst).Nodup
  | [], _, _ => List.nodup_nil
  | entry :: rest, hkeys, hall => by
      rw [List.map_cons, List.nodup_cons] at hkeys
      have hentry := nodup_nodesOfEntry entry (hall entry List.mem_cons_self)
      have hrest := nodup_nodesOfChildren rest hkeys.2
        (fun other hother => hall other (List.mem_cons_of_mem _ hother))
      show ((nodesOfEntry entry ++ nodesOfChildren rest).map Prod.fst).Nodup
      rw [List.map_append, List.nodup_append]
      refine ⟨hentry, hrest, ?_⟩
      -- paths below different children differ in their first key
      intro p hp q hq hpq
      obtain ⟨node, hnode, rfl⟩ := List.mem_map.mp hp
      rw [nodesOfEntry_eq] at hnode
      obtain ⟨below, -, rfl⟩ := List.mem_map.mp hnode
      obtain ⟨other, hother, rfl⟩ := List.mem_map.mp hq
      obtain ⟨sibling, hsibling, below', -, rfl⟩ := mem_nodesOfChildren.mp hother
      have hsame : entry.1 = sibling.1 := (List.cons.inj hpq).1
      exact hkeys.1 (hsame ▸ List.mem_map_of_mem hsibling)

theorem nodup_nodesOfEntry : (entry : κ × Trie κ α) → AllKeysNodup entry.2 →
    ((nodesOfEntry entry).map Prod.fst).Nodup
  | (c, child), h => by
      have hchild := nodup_nodes child h
      have hpaths : (nodesOfEntry (c, child)).map Prod.fst =
          ((nodes child).map Prod.fst).map fun p => c :: p := by
        rw [nodesOfEntry_eq, List.map_map, List.map_map]
        rfl
      rw [hpaths]
      exact hchild.map fun p q hpq => (List.cons.inj hpq).2

end

section Counting

variable {f : α → Option β} {t : Trie κ α}

theorem read_of_mem_nodes (h : AllKeysNodup t) {node : List κ × α} (hnode : node ∈ nodes t) :
    read f t node.1 = f node.2 := by
  obtain ⟨u, hget, hdata⟩ := (mem_nodes h).mp
    (show (node.1, node.2) ∈ nodes t from hnode)
  unfold read
  rw [hget, ← hdata]
  rfl

/-- A list of what the field holds, with the paths, has one row for each node that holds
something. -/
theorem length_eq_countP_nodes (h : AllKeysNodup t) {rows : List (β × List κ)}
    (hnodup : rows.Nodup) (hrows : ∀ b p, (b, p) ∈ rows ↔ read f t p = some b) :
    rows.length = (nodes t).countP fun node => (f node.2).isSome := by
  have hperm : rows.Perm ((nodes t).filterMap fun node => (f node.2).map fun b => (b, node.1)) := by
    rw [List.perm_ext_iff_of_nodup hnodup]
    · rintro ⟨b, p⟩
      rw [hrows, read_eq_some_iff, List.mem_filterMap]
      constructor
      · rintro ⟨u, hget, hdata⟩
        exact ⟨(p, u.data), (mem_nodes h).mpr ⟨u, hget, rfl⟩, by simp [hdata]⟩
      · rintro ⟨⟨q, a⟩, hnode, hsome⟩
        obtain ⟨b', hb, heq⟩ := Option.map_eq_some_iff.mp hsome
        rw [Prod.mk.injEq] at heq
        obtain ⟨rfl, rfl⟩ := heq
        obtain ⟨u, hget, hdata⟩ := (mem_nodes h).mp hnode
        exact ⟨u, hget, by rw [hdata]; exact hb⟩
    · rw [List.nodup_iff_pairwise_ne, List.pairwise_filterMap]
      refine (List.pairwise_map.mp (nodup_nodes t h)).imp ?_
      rintro ⟨p, a⟩ ⟨q, a'⟩ hpq b hb b' hb' rfl
      obtain ⟨_, -, hleft⟩ := Option.map_eq_some_iff.mp hb
      obtain ⟨_, -, hright⟩ := Option.map_eq_some_iff.mp hb'
      exact hpq (congrArg Prod.snd (hleft.trans hright.symm))
  rw [hperm.length_eq, List.length_filterMap_eq_countP]
  simp only [Option.isSome_map]

/-- Collecting one field gives what the paths hold. -/
theorem mem_collect_read (h : AllKeysNodup t) {b : β} :
    b ∈ collect (fun a => (f a).toList) t ↔ ∃ path, read f t path = some b := by
  rw [collect_eq_flatMap, List.mem_flatMap]
  constructor
  · rintro ⟨node, hnode, hb⟩
    exact ⟨node.1, (read_of_mem_nodes h hnode).trans (Option.mem_toList.mp hb)⟩
  · rintro ⟨path, hpath⟩
    obtain ⟨u, hget, hdata⟩ := read_eq_some_iff.mp hpath
    exact ⟨(path, u.data), (mem_nodes h).mpr ⟨u, hget, rfl⟩, Option.mem_toList.mpr hdata⟩

/-- When no two paths hold the same, nothing is collected twice. -/
theorem nodup_collect_read (h : AllKeysNodup t)
    (hinj : ∀ p q b, read f t p = some b → read f t q = some b → p = q) :
    (collect (fun a => (f a).toList) t).Nodup := by
  rw [collect_eq_flatMap, List.nodup_flatMap]
  refine ⟨fun node _ => by cases f node.2 <;> simp, ?_⟩
  refine (List.pairwise_map.mp (nodup_nodes t h)).imp_of_mem ?_
  intro node other hnode hother hpaths b hleft hright
  have hread := (read_of_mem_nodes h hnode).trans (Option.mem_toList.mp hleft)
  have hread' := (read_of_mem_nodes h hother).trans (Option.mem_toList.mp hright)
  exact hpaths (hinj _ _ b hread hread')

end Counting

end Trie
end Collections
end CyfsNdn

import CyfsNdn.FsMeta.PathResolveCache

/-!
# What the nodes of the cache vouch for

`SoundNode` is the invariant of one node of the trie, relative to a relation `Entered`
between an allocation and the path it was cached under: the node's own value was entered
under the node's path, and the deepest ids it remembers were entered under the path of an
entry that is still somewhere below it.  The second half is what invalidation needs: a
node forgets ids as soon as the last entry below it that could have brought them is gone.

The lemmas say that each edit of the trie keeps the invariant at every node, and which
paths are live afterwards.
-/

namespace CyfsNdn
namespace FsMeta
namespace PathResolveCache

open Collections NdnLib Relational

/-- The node at the path holds a value. -/
def Live (node : PathResolveCacheNode) (path : Components) : Prop :=
  ∃ u, node.get? path = some u ∧ u.data.value ≠ none

/-- The invariant of a node at a path. -/
structure SoundNode (Entered : EntryId → Components → Prop) (base : Components)
    (node : PathResolveCacheNode) : Prop where
  keys : node.KeysNodup
  value : ∀ v, node.data.value = some v → Entered v.origin base ∧
    ∀ ids, v.val = .inodeIds ids → ids.length = base.length + 1
  deepest : ∀ v, node.data.deepestInode = some v → ∃ rest, Live node rest ∧
    Entered v.origin (base ++ rest) ∧ v.val.length = (base ++ rest).length + 1

/-- The invariant of the whole trie below a path. -/
abbrev SoundFrom (Entered : EntryId → Components → Prop) (base : Components)
    (node : PathResolveCacheNode) : Prop :=
  Trie.Everywhere (SoundNode Entered) base node

/-! ## Live paths -/

theorem live_nil {node : PathResolveCacheNode} : Live node [] ↔ node.data.value ≠ none := by
  constructor
  · rintro ⟨u, hget, hvalue⟩
    rw [Trie.get?_nil, Option.some.injEq] at hget
    rwa [hget]
  · exact fun hvalue => ⟨node, rfl, hvalue⟩

theorem live_cons {node : PathResolveCacheNode} {c : String} {rest : Components} :
    Live node (c :: rest) ↔ ∃ u, node.child? c = some u ∧ Live u rest := by
  constructor
  · rintro ⟨v, hget, hvalue⟩
    rw [Trie.get?_cons, Option.bind_eq_some_iff] at hget
    obtain ⟨u, hchild, hget⟩ := hget
    exact ⟨u, hchild, v, hget, hvalue⟩
  · rintro ⟨u, hchild, v, hget, hvalue⟩
    refine ⟨v, ?_, hvalue⟩
    rw [Trie.get?_cons, hchild]
    exact hget

/-- Live paths only depend on the value and the children of the node. -/
theorem live_congr {node other : PathResolveCacheNode} (rest : Components)
    (hvalue : node.data.value = other.data.value)
    (hchildren : node.children = other.children) : Live node rest ↔ Live other rest := by
  cases rest with
  | nil => rw [live_nil, live_nil, hvalue]
  | cons c rest =>
      rw [live_cons, live_cons]
      unfold Trie.child?
      rw [hchildren]

theorem not_live_default (rest : Components) :
    ¬ Live (Trie.leaf NodeData.default) rest := by
  cases rest with
  | nil =>
      rw [live_nil]
      exact fun h => h rfl
  | cons c rest =>
      rw [live_cons]
      rintro ⟨u, hchild, -⟩
      exact absurd hchild (by simp)

/-- What is live in the trie below a live path. -/
theorem live_append {node u : PathResolveCacheNode} {path rest : Components}
    (hget : node.get? path = some u) : Live node (path ++ rest) ↔ Live u rest := by
  unfold Live
  rw [Trie.get?_append, hget]
  rfl

section Edit

variable {down : NodeData → NodeData} {target : PathResolveCacheNode → PathResolveCacheNode}
  {up : PathResolveCacheNode → NodeData}

theorem live_edit_nil (hup : ∀ u, (up u).value = u.data.value) (t : PathResolveCacheNode)
    (rest : Components) :
    Live (Trie.edit NodeData.default down target up [] t) rest ↔ Live (target t) rest :=
  live_congr rest (hup (target t)) rfl

/-- An edit that writes no value makes no path live. -/
theorem live_of_live_edit (hup : ∀ u, (up u).value = u.data.value)
    (hdown : ∀ data, data.value = none → (down data).value = none)
    (htarget : ∀ u rest, Live (target u) rest → Live u rest) {path rest : Components}
    {t : PathResolveCacheNode}
    (h : Live (Trie.edit NodeData.default down target up path t) rest) : Live t rest := by
  induction path generalizing t rest with
  | nil =>
      apply htarget
      exact (live_edit_nil hup t rest).mp h
  | cons c path ih =>
      cases rest with
      | nil =>
          rw [live_nil] at h ⊢
          intro hnone
          exact h ((hup _).trans (hdown t.data hnone))
      | cons d rest =>
          obtain ⟨u, hchild, hlive⟩ := live_cons.mp h
          rw [Trie.child?_edit_cons] at hchild
          split_ifs at hchild with hd
          · rw [Option.some.injEq] at hchild
            subst hchild hd
            have hbelow := ih hlive
            cases hold : t.child? d with
            | none =>
                rw [hold] at hbelow
                exact absurd hbelow (not_live_default rest)
            | some old =>
                rw [hold] at hbelow
                exact live_cons.mpr ⟨old, hold, hbelow⟩
          · exact live_cons.mpr ⟨u, hchild, hlive⟩

/-- What the rewritten end of the path does not hold is not live after the edit. -/
theorem not_live_edit (hup : ∀ u, (up u).value = u.data.value) {rest : Components}
    (htarget : ∀ u, ¬ Live (target u) rest) (path : Components) (t : PathResolveCacheNode) :
    ¬ Live (Trie.edit NodeData.default down target up path t) (path ++ rest) := by
  induction path generalizing t with
  | nil =>
      intro hlive
      exact htarget t ((live_edit_nil hup t rest).mp hlive)
  | cons c path ih =>
      rw [List.cons_append, live_cons]
      rintro ⟨u, hchild, hlive⟩
      rw [Trie.child?_edit_cons, if_pos rfl, Option.some.injEq] at hchild
      subst hchild
      exact ih _ hlive

/-- An edit keeps a live path alive unless the path ends above the edited node and the
walk down clears values. -/
theorem live_edit_of_live (hup : ∀ u, (up u).value = u.data.value)
    (htarget : ∀ u rest, Live u rest → Live (target u) rest) {path rest : Components}
    {t : PathResolveCacheNode} (h : Live t rest) :
    Live (Trie.edit NodeData.default down target up path t) rest ∨
      rest.length < path.length ∧ ∃ data, data.value ≠ none ∧ (down data).value = none := by
  induction path generalizing t rest with
  | nil => exact Or.inl ((live_edit_nil hup t rest).mpr (htarget t rest h))
  | cons c path ih =>
      cases rest with
      | nil =>
          by_cases hdown : (down t.data).value = none
          · exact Or.inr ⟨Nat.succ_pos _, t.data, live_nil.mp h, hdown⟩
          · left
            rw [live_nil]
            exact fun hnone => hdown ((hup _).symm.trans hnone)
      | cons d rest =>
          obtain ⟨u, hchild, hlive⟩ := live_cons.mp h
          by_cases hd : d = c
          · subst hd
            rcases ih hlive with hbelow | ⟨hshort, hclears⟩
            · left
              refine live_cons.mpr ⟨_, ?_, hbelow⟩
              rw [Trie.child?_edit_cons, if_pos rfl, hchild]
              rfl
            · right
              refine ⟨?_, hclears⟩
              rw [List.length_cons, List.length_cons]
              omega
          · left
            refine live_cons.mpr ⟨u, ?_, hlive⟩
            rw [Trie.child?_edit_cons, if_neg hd]
            exact hchild

/-- A path is live when the edit writes a value at its end. -/
theorem live_edit_self (hup : ∀ u, (up u).value = u.data.value)
    (htarget : ∀ u, (target u).data.value ≠ none) (path : Components)
    (t : PathResolveCacheNode) :
    Live (Trie.edit NodeData.default down target up path t) path := by
  induction path generalizing t with
  | nil =>
      rw [live_nil]
      show (up (target t)).value ≠ none
      rw [hup]
      exact htarget t
  | cons c path ih =>
      refine live_cons.mpr ⟨_, ?_, ih ((t.child? c).getD (Trie.leaf NodeData.default))⟩
      rw [Trie.child?_edit_cons, if_pos rfl]

end Edit

/-! ## The invariant of one node -/

section Sound

variable {Entered : EntryId → Components → Prop} {base : Components}

theorem soundNode_default : SoundNode Entered base (Trie.leaf NodeData.default) where
  keys := Trie.keysNodup_leaf _
  value := fun _ hvalue => absurd hvalue (by simp [Trie.leaf, NodeData.default])
  deepest := fun _ hdeepest => absurd hdeepest (by simp [Trie.leaf, NodeData.default])

theorem soundFrom_default : SoundFrom Entered base (Trie.leaf NodeData.default) :=
  Trie.everywhere_leaf soundNode_default

/-- The relation only matters at live paths. -/
theorem soundFrom_mono {Entered' : EntryId → Components → Prop} {t : PathResolveCacheNode}
    (h : SoundFrom Entered base t)
    (himp : ∀ origin rest, Live t rest → Entered origin (base ++ rest) →
      Entered' origin (base ++ rest)) : SoundFrom Entered' base t := by
  intro path u hget
  have hu := h path u hget
  refine ⟨hu.keys, ?_, ?_⟩
  · intro v hvalue
    obtain ⟨hentered, hlength⟩ := hu.value v hvalue
    exact ⟨himp _ _ ⟨u, hget, by rw [hvalue]; simp⟩ hentered, hlength⟩
  · intro v hdeepest
    obtain ⟨rest, hlive, hentered, hlength⟩ := hu.deepest v hdeepest
    refine ⟨rest, hlive, ?_, hlength⟩
    rw [List.append_assoc] at hentered ⊢
    exact himp _ _ ((live_append hget).mpr hlive) hentered

/-- The loop over the children picks the start or what some child remembers. -/
theorem deepestOf_cases {best : Option (Arc (List IndexNodeId))}
    {children : List (String × PathResolveCacheNode)} {v : Arc (List IndexNodeId)}
    (h : deepestOf best children = some v) :
    best = some v ∨ ∃ child ∈ children, child.2.data.deepestInode = some v := by
  induction children generalizing best with
  | nil => exact Or.inl h
  | cons child rest ih =>
      have hrest : ∀ best', deepestOf best' rest = some v →
          (best' = some v → best = some v ∨ child.2.data.deepestInode = some v) →
          best = some v ∨ ∃ other ∈ child :: rest, other.2.data.deepestInode = some v := by
        intro best' hbest' hstart
        rcases ih hbest' with hv | ⟨other, hmem, hv⟩
        · rcases hstart hv with hv | hv
          · exact Or.inl hv
          · exact Or.inr ⟨child, List.mem_cons_self, hv⟩
        · exact Or.inr ⟨other, List.mem_cons_of_mem _ hmem, hv⟩
      unfold deepestOf at h
      split at h
      · exact hrest _ h Or.inl
      · rename_i hchild
        exact hrest _ h fun hv => Or.inr (hchild.trans hv)
      · rename_i hchild
        split_ifs at h
        · exact hrest _ h fun hv => Or.inr (hchild.trans hv)
        · exact hrest _ h Or.inl

theorem recomputeDeepestInode_value (order : HashOrder) (node : PathResolveCacheNode) :
    (recomputeDeepestInode order node).value = node.data.value := rfl

/-- Recomputing the deepest ids from sound children makes a node sound. -/
theorem soundNode_recompute (order : HashOrder) {node : PathResolveCacheNode}
    (hkeys : node.KeysNodup)
    (hvalue : ∀ v, node.data.value = some v → Entered v.origin base ∧
      ∀ ids, v.val = .inodeIds ids → ids.length = base.length + 1)
    (hchildren : ∀ c u, node.child? c = some u → SoundFrom Entered (base ++ [c]) u) :
    SoundNode Entered base { node with data := recomputeDeepestInode order node } := by
  refine ⟨hkeys, hvalue, ?_⟩
  intro v hdeepest
  have hlive : ∀ rest, Live { node with data := recomputeDeepestInode order node } rest ↔
      Live node rest := fun rest => live_congr rest rfl rfl
  rcases deepestOf_cases hdeepest with hown | ⟨child, hmem, hchild⟩
  · -- the node's own ids
    obtain ⟨value, hnode, hids⟩ := Option.bind_eq_some_iff.mp hown
    obtain ⟨hentered, hlength⟩ := hvalue value hnode
    refine ⟨[], (hlive []).mpr (live_nil.mpr (by rw [hnode]; simp)), ?_⟩
    rw [List.append_nil]
    unfold Arc.inodeIds at hids
    split at hids
    · rename_i ids hval
      rw [Option.some.injEq] at hids
      subst hids
      exact ⟨hentered, hlength ids hval⟩
    · exact absurd hids (by simp)
  · -- the ids of a child
    have hmem' : child ∈ node.children := (order.perm node.children).mem_iff.mp hmem
    have hfind := Trie.KeysNodup.child?_of_mem hkeys hmem'
    obtain ⟨rest, hbelow, hentered, hlength⟩ :=
      (hchildren child.1 child.2 hfind).root.deepest v hchild
    rw [List.append_assoc, List.singleton_append] at hentered hlength
    exact ⟨child.1 :: rest, (hlive _).mpr (live_cons.mpr ⟨child.2, hfind, hbelow⟩),
      hentered, hlength⟩

/-- An edit that recomputes the deepest ids on its way up keeps every node sound. -/
theorem soundFrom_rebuild (order : HashOrder) {down : NodeData → NodeData}
    {target : PathResolveCacheNode → PathResolveCacheNode} {path : Components}
    {t : PathResolveCacheNode} (h : SoundFrom Entered base t)
    (hdown : ∀ data v, (down data).value = some v → data.value = some v)
    (htarget : ∀ u, SoundFrom Entered (base ++ path) u →
      SoundFrom Entered (base ++ path)
        { target u with data := recomputeDeepestInode order (target u) }) :
    SoundFrom Entered base
      (Trie.edit NodeData.default down target (recomputeDeepestInode order) path t) := by
  apply Trie.everywhere_edit h (fun _ => soundFrom_default) htarget
  intro base u c path hu hbelow
  apply soundNode_recompute order
  · exact Trie.KeysNodup.setChild (t := { u with data := down u.data }) hu.root.keys c _
  · exact fun v hvalue => hu.root.value v (hdown u.data v hvalue)
  · exact hbelow

/-- Recomputing a sound node whose value was taken out. -/
theorem soundFrom_clearNode (order : HashOrder) {u : PathResolveCacheNode}
    (hu : SoundFrom Entered base u) :
    SoundFrom Entered base
      { clearNode u with data := recomputeDeepestInode order (clearNode u) } := by
  refine Trie.everywhere_iff.mpr ⟨?_, fun c v hchild => hu.child hchild⟩
  apply soundNode_recompute order
  · exact hu.root.keys
  · exact fun v hvalue => absurd hvalue (by simp [clearNode, clearData])
  · exact fun c v hchild => hu.child hchild

/-- Recomputing a sound node that lost a child. -/
theorem soundFrom_eraseChild (order : HashOrder) (leaf : String) {u : PathResolveCacheNode}
    (hu : SoundFrom Entered base u) :
    SoundFrom Entered base
      { u.eraseChild leaf with data := recomputeDeepestInode order (u.eraseChild leaf) } := by
  have hchildren : ∀ c v, (u.eraseChild leaf).child? c = some v →
      SoundFrom Entered (base ++ [c]) v := by
    intro c v hchild
    rw [Trie.child?_eraseChild] at hchild
    split_ifs at hchild
    exact hu.child hchild
  refine Trie.everywhere_iff.mpr ⟨?_, hchildren⟩
  exact soundNode_recompute order (hu.root.keys.eraseChild leaf) hu.root.value hchildren

/-- Recomputing a sound node that got a terminal value. -/
theorem soundFrom_terminalNode (order : HashOrder) {entryId : EntryId}
    (hentered : Entered entryId base) (value : PathResolveTerminalValue)
    {u : PathResolveCacheNode} (hu : SoundFrom Entered base u) :
    SoundFrom Entered base
      { terminalNode entryId value u with
        data := recomputeDeepestInode order (terminalNode entryId value u) } := by
  refine Trie.everywhere_iff.mpr ⟨?_, fun c v hchild => hu.child hchild⟩
  apply soundNode_recompute order
  · exact hu.root.keys
  · intro v hvalue
    have hv : v = ⟨entryId, .terminal value⟩ := (Option.some.inj hvalue).symm
    subst hv
    exact ⟨hentered, fun ids hids => by simp at hids⟩
  · exact fun c v hchild => hu.child hchild

theorem raiseDeepest_value (ids : Arc (List IndexNodeId)) (node : PathResolveCacheNode) :
    (raiseDeepest ids node).value = node.data.value := by
  unfold raiseDeepest
  split
  · rfl
  · split_ifs <;> rfl

/-- After the update a node remembers the new ids, or longer ones it had before. -/
theorem raiseDeepest_cases {ids v : Arc (List IndexNodeId)} {node : PathResolveCacheNode}
    (h : (raiseDeepest ids node).deepestInode = some v) :
    v = ids ∨ node.data.deepestInode = some v ∧ ids.val.length ≤ v.val.length := by
  unfold raiseDeepest at h
  split at h
  · exact Or.inl (Option.some.inj h).symm
  · rename_i cur hcur
    split_ifs at h with hlong
    · exact Or.inl (Option.some.inj h).symm
    · rw [hcur] at h
      rw [Option.some.injEq] at h
      subst h
      exact Or.inr ⟨hcur, by omega⟩

/-- Writing ids at the end of a path, with the shallower values cleared: a node above
that remembered a cleared value now remembers the new, longer ids. -/
theorem soundFrom_putIds {entryId : EntryId} {ids : List IndexNodeId} {path : Components}
    {t : PathResolveCacheNode} (h : SoundFrom Entered base t)
    (hentered : Entered entryId (base ++ path))
    (hlength : ids.length = (base ++ path).length + 1) :
    SoundFrom Entered base
      (Trie.edit NodeData.default clearData (idsNode entryId ids)
        (raiseDeepest ⟨entryId, ids⟩) path t) := by
  have hlive : ∀ (u : PathResolveCacheNode) rest, Live u rest →
      Live (idsNode entryId ids u) rest := by
    intro u rest hu
    cases rest with
    | nil => exact live_nil.mpr (by simp [idsNode])
    | cons c rest => exact live_cons.mpr (live_cons.mp hu)
  induction path generalizing base t with
  | nil =>
      rw [List.append_nil] at hentered hlength
      refine Trie.everywhere_iff.mpr ⟨⟨h.root.keys, ?_, ?_⟩, fun c u hchild => h.child hchild⟩
      · intro v hvalue
        have hv : (raiseDeepest ⟨entryId, ids⟩ (idsNode entryId ids t)).value = some v := hvalue
        rw [raiseDeepest_value] at hv
        have hnew : v = ⟨entryId, .inodeIds ids⟩ := (Option.some.inj hv).symm
        subst hnew
        refine ⟨hentered, ?_⟩
        intro ids' hids
        rw [PathResolveCacheValue.inodeIds.injEq] at hids
        rw [← hids]
        exact hlength
      · intro v hdeepest
        have hnew : v = ⟨entryId, ids⟩ := by
          rcases raiseDeepest_cases hdeepest with hv | ⟨hv, -⟩
          · exact hv
          · exact (Option.some.inj hv).symm
        subst hnew
        refine ⟨[], ?_, ?_, ?_⟩
        · exact live_edit_self (raiseDeepest_value _) (fun u => by simp [idsNode]) [] t
        · rwa [List.append_nil]
        · rwa [List.append_nil]
  | cons c path ih =>
      have hassoc : base ++ c :: path = (base ++ [c]) ++ path := by simp
      have hbelow : ∀ d v, (Trie.edit NodeData.default clearData (idsNode entryId ids)
          (raiseDeepest ⟨entryId, ids⟩) (c :: path) t).child? d = some v →
          SoundFrom Entered (base ++ [d]) v := by
        intro d v hchild
        rw [Trie.child?_edit_cons] at hchild
        split_ifs at hchild with hd
        · rw [Option.some.injEq] at hchild
          subst hchild hd
          rw [hassoc] at hentered hlength
          exact ih (h.child_getD (fun _ => soundFrom_default) d) hentered hlength
        · exact h.child hchild
      refine Trie.everywhere_iff.mpr ⟨⟨?_, ?_, ?_⟩, hbelow⟩
      · exact h.root.keys.edit_cons c path
      · intro v hvalue
        have hv : (clearData t.data).value = some v :=
          (raiseDeepest_value ⟨entryId, ids⟩ _).symm.trans hvalue
        exact absurd hv (by simp [clearData])
      · intro v hdeepest
        rcases raiseDeepest_cases hdeepest with hv | ⟨hv, hlong⟩
        · subst hv
          exact ⟨c :: path, live_edit_self (raiseDeepest_value _) (fun u => by simp [idsNode])
            (c :: path) t, hentered, hlength⟩
        · -- ids that were there before: their entry is not above the new one
          obtain ⟨rest, hrest, hold, holdLength⟩ := h.root.deepest v hv
          rcases live_edit_of_live (raiseDeepest_value _) hlive hrest with hstill | ⟨hshort, -⟩
          · exact ⟨rest, hstill, hold, holdLength⟩
          · exfalso
            rw [List.length_append] at holdLength hlength
            have hlong' : ids.length ≤ v.val.length := hlong
            omega

/-- Writing a terminal value at the end of a path, with the shallower values cleared. -/
theorem soundFrom_putTerminal (order : HashOrder) {entryId : EntryId} {path : Components}
    {t : PathResolveCacheNode} (h : SoundFrom Entered base t)
    (hentered : Entered entryId (base ++ path)) (value : PathResolveTerminalValue) :
    SoundFrom Entered base
      (Trie.edit NodeData.default clearData (terminalNode entryId value)
        (recomputeDeepestInode order) path t) :=
  soundFrom_rebuild order h (fun data v hv => absurd hv (by simp [clearData]))
    (fun _ hu => soundFrom_terminalNode order hentered value hu)

/-- Writing only entry ids changes nothing a node vouches for. -/
theorem soundFrom_withEntryId {entryId : EntryId} {path : Components}
    {t : PathResolveCacheNode} (h : SoundFrom Entered base t) :
    SoundFrom Entered base
      (Trie.edit NodeData.default id (withEntryId entryId) Trie.data path t) := by
  have hlive : ∀ (path : Components) (u : PathResolveCacheNode) rest, Live u rest →
      Live (Trie.edit NodeData.default id (withEntryId entryId) Trie.data path u) rest := by
    intro path u rest hu
    have htarget : ∀ (w : PathResolveCacheNode) r, Live w r → Live (withEntryId entryId w) r := by
      intro w r hw
      refine (live_congr r ?_ ?_).mpr hw
      · rfl
      · rfl
    rcases live_edit_of_live (fun _ => rfl) htarget hu with
      hstill | ⟨-, data, hsome, hnone⟩
    · exact hstill
    · exact absurd hnone hsome
  apply Trie.everywhere_edit h (fun _ => soundFrom_default)
  · intro u hu
    refine Trie.everywhere_iff.mpr ⟨⟨hu.root.keys, hu.root.value, ?_⟩,
      fun c v hchild => hu.child hchild⟩
    intro v hdeepest
    obtain ⟨rest, hrest, hold⟩ := hu.root.deepest v hdeepest
    exact ⟨rest, hlive [] u rest hrest, hold⟩
  · intro base u c path hu _
    refine ⟨hu.root.keys.edit_cons c path, hu.root.value, ?_⟩
    intro v hdeepest
    obtain ⟨rest, hrest, hold⟩ := hu.root.deepest v hdeepest
    exact ⟨rest, hlive (c :: path) u rest hrest, hold⟩

end Sound

end PathResolveCache
end FsMeta
end CyfsNdn

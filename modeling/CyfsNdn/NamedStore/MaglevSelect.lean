import CyfsNdn.Collections.Traverse
import CyfsNdn.NamedStore.MaglevTable

/-!
# Selecting targets

What the finished lookup table gives for every object: an active target, without
leaving the table or the list of targets, and for several targets a list of
distinct ones that starts with the primary target and only grows with the number
that is asked for.

The table holds target indices as 32-bit integers.  That is enough for every list
of at most `2 ^ 31` targets, and not for longer ones.
-/

namespace CyfsNdn
namespace NamedStore

open NdnLib

namespace StoreLayout

/-- Every slot of the table holds the index of an active target. -/
structure Filled (layout : StoreLayout) : Prop where
  length : layout.lookupTable.length = layout.tableSize
  size_pos : 0 < layout.tableSize
  entries : ∀ entry ∈ layout.lookupTable, ∃ index : Nat,
    index ∈ layout.activeTargetIndices ∧ entry = index
  small : ∀ index ∈ layout.activeTargetIndices, index < 2 ^ 31
  active : layout.activeTargetIndices = activeIndices layout.targets

section Select

variable {layout : StoreLayout}

theorem Filled.lookupTable_ne_nil (h : layout.Filled) : layout.lookupTable ≠ [] := by
  intro hnil
  have hlength := h.length
  have hpos := h.size_pos
  rw [hnil, List.length_nil] at hlength
  omega

/-- The table gives an active target for every hash value. -/
theorem Filled.targetIndex_eq (h : layout.Filled) (hash : UInt64) :
    ∃ index, layout.targetIndex hash = some index ∧ index ∈ layout.activeTargetIndices := by
  have hlt : hash.toNat % layout.tableSize < layout.lookupTable.length := by
    rw [h.length]
    exact Nat.mod_lt _ h.size_pos
  obtain ⟨index, hactive, hentry⟩ := h.entries _ (List.getElem_mem hlt)
  refine ⟨index, ?_, hactive⟩
  have hsmall := h.small index hactive
  have hcast : asUsize (index : Int) = index := by
    unfold asUsize
    omega
  unfold targetIndex
  rw [List.getElem?_eq_getElem hlt, hentry]
  simp [hcast]

theorem Filled.targets_getElem? (h : layout.Filled) {index : Nat}
    (hindex : index ∈ layout.activeTargetIndices) :
    ∃ target, layout.targets[index]? = some target ∧ target.isActive = true := by
  rw [h.active] at hindex
  exact mem_activeIndices.mp hindex

/-- One more active target. -/
theorem pushIfNew_spec {selected : List Nat} {index : Nat} (hnodup : selected.Nodup)
    (hactive : ∀ i ∈ selected, i ∈ layout.activeTargetIndices)
    (hmem : index ∈ layout.activeTargetIndices) :
    (pushIfNew selected index).Nodup ∧
      (∀ i ∈ pushIfNew selected index, i ∈ layout.activeTargetIndices) ∧
      selected <+: pushIfNew selected index := by
  unfold pushIfNew
  split_ifs with hold
  · exact ⟨hnodup, hactive, List.prefix_refl _⟩
  · refine ⟨?_, ?_, List.prefix_append _ _⟩
    · rw [List.nodup_append]
      refine ⟨hnodup, List.nodup_singleton _, ?_⟩
      intro i hi j hj
      rw [List.mem_singleton.mp hj]
      rintro rfl
      exact hold hi
    · intro i hi
      rcases List.mem_append.mp hi with hsel | hnew
      · exact hactive i hsel
      · rw [List.mem_singleton.mp hnew]
        exact hmem

/-- The loop ends with distinct active targets, and only adds to what it has. -/
theorem selectLoop_spec (h : layout.Filled) (baseHash : UInt64) (n fuel : Nat) :
    ∀ (probe : Nat) (selected : List Nat), selected.Nodup →
      (∀ index ∈ selected, index ∈ layout.activeTargetIndices) →
      probe ≤ layout.tableSize + 1000 → layout.tableSize + 1001 < probe + fuel →
      ∃ result, selectLoop layout baseHash n fuel probe selected = some result ∧
        selected <+: result ∧ result.Nodup ∧
        ∀ index ∈ result, index ∈ layout.activeTargetIndices := by
  induction fuel with
  | zero =>
      intro probe selected _ _ hprobe hfuel
      omega
  | succ fuel ih =>
      intro probe selected hnodup hactive hprobe hfuel
      unfold selectLoop
      by_cases hmore : selected.length < n
      · rw [if_pos hmore]
        obtain ⟨index, hindex, hmem⟩ :=
          h.targetIndex_eq (probeHash baseHash (UInt64.ofNat probe))
        rw [hindex]
        simp only [Option.bind_eq_bind, Option.bind_some]
        obtain ⟨hnodup', hactive', hprefix⟩ := pushIfNew_spec hnodup hactive hmem
        by_cases hstop : layout.tableSize + 1000 < probe + 1
        · rw [if_pos hstop]
          exact ⟨_, rfl, hprefix, hnodup', hactive'⟩
        · rw [if_neg hstop]
          obtain ⟨result, hloop, hresult, hrest⟩ :=
            ih (probe + 1) _ hnodup' hactive' (by omega) (by omega)
          exact ⟨result, hloop, hprefix.trans hresult, hrest⟩
      · rw [if_neg hmore]
        exact ⟨selected, rfl, List.prefix_refl _, hnodup, hactive⟩

/-- Asking for more targets only adds to the list. -/
theorem selectLoop_prefix (h : layout.Filled) (baseHash : UInt64) {n n' : Nat}
    (hle : n ≤ n') (fuel : Nat) :
    ∀ (probe : Nat) (selected : List Nat), selected.Nodup →
      (∀ index ∈ selected, index ∈ layout.activeTargetIndices) →
      probe ≤ layout.tableSize + 1000 → layout.tableSize + 1001 < probe + fuel →
      ∀ result result', selectLoop layout baseHash n fuel probe selected = some result →
        selectLoop layout baseHash n' fuel probe selected = some result' →
        result <+: result' := by
  induction fuel with
  | zero =>
      intro probe selected _ _ hprobe hfuel
      omega
  | succ fuel ih =>
      intro probe selected hnodup hactive hprobe hfuel result result' hn hn'
      by_cases hmore : selected.length < n
      · unfold selectLoop at hn hn'
        rw [if_pos hmore] at hn
        rw [if_pos (by omega)] at hn'
        obtain ⟨index, hindex, hmem⟩ :=
          h.targetIndex_eq (probeHash baseHash (UInt64.ofNat probe))
        rw [hindex] at hn hn'
        simp only [Option.bind_eq_bind, Option.bind_some] at hn hn'
        by_cases hstop : layout.tableSize + 1000 < probe + 1
        · rw [if_pos hstop] at hn hn'
          cases hn
          cases hn'
          exact List.prefix_refl _
        · rw [if_neg hstop] at hn hn'
          obtain ⟨hnodup', hactive', -⟩ := pushIfNew_spec hnodup hactive hmem
          exact ih (probe + 1) _ hnodup' hactive' (by omega) (by omega) result result' hn hn'
      · -- The shorter list is what has been selected so far.
        obtain ⟨longer, hlonger, hprefix, -⟩ :=
          selectLoop_spec h baseHash n' (fuel + 1) probe selected hnodup hactive hprobe hfuel
        rw [hn'] at hlonger
        cases hlonger
        unfold selectLoop at hn
        rw [if_neg hmore] at hn
        cases hn
        exact hprefix

/-- The primary target is an active one. -/
theorem Filled.selectPrimaryTarget_eq (h : layout.Filled) (hasher : DefaultHasher)
    (objId : ObjId) :
    ∃ index target, layout.targetIndex (hashObjId hasher objId) = some index ∧
      layout.targets[index]? = some target ∧ target.isActive = true ∧
      layout.selectPrimaryTarget hasher objId = some (some target) := by
  obtain ⟨index, hindex, hmem⟩ := h.targetIndex_eq (hashObjId hasher objId)
  obtain ⟨target, htarget, hactive⟩ := h.targets_getElem? hmem
  refine ⟨index, target, hindex, htarget, hactive, ?_⟩
  unfold selectPrimaryTarget
  rw [if_neg h.lookupTable_ne_nil, hindex]
  simp only [Option.bind_eq_bind, Option.bind_some, htarget]
  rfl

/-- The selected indices are distinct and active, and the first one is that of the
primary target. -/
theorem Filled.selectIndices_eq (h : layout.Filled) (hasher : DefaultHasher) (objId : ObjId)
    (n : Nat) :
    ∃ indices, layout.selectIndices hasher objId n = some indices ∧ indices.Nodup ∧
      (∀ index ∈ indices, index ∈ layout.activeTargetIndices) ∧
      (0 < n → indices.head? = layout.targetIndex (hashObjId hasher objId)) := by
  obtain ⟨index, hindex, hmem⟩ := h.targetIndex_eq (hashObjId hasher objId)
  have hsome : 0 < layout.activeTargetIndices.length := List.length_pos_of_mem hmem
  unfold selectIndices
  dsimp only
  rw [if_neg h.lookupTable_ne_nil]
  by_cases hzero : min n layout.activeTargetIndices.length = 0
  · rw [if_pos hzero]
    refine ⟨[], rfl, List.nodup_nil, ?_, ?_⟩
    · intro i hi
      exact absurd hi List.not_mem_nil
    · intro hn
      omega
  · rw [if_neg hzero]
    -- The first probe is the base hash, so the first index is the primary one.
    obtain ⟨result, hloop, hprefix, hnodup, hactive⟩ :=
      selectLoop_spec h (hashObjId hasher objId) (min n layout.activeTargetIndices.length)
        (layout.tableSize + 1001) 1 [index] (List.nodup_singleton _)
        (by
          intro i hi
          rw [List.mem_singleton.mp hi]
          exact hmem)
        (by omega) (by omega)
    refine ⟨result, ?_, hnodup, hactive, ?_⟩
    · unfold selectLoop
      have hprobe : probeHash (hashObjId hasher objId) (UInt64.ofNat 0) =
          hashObjId hasher objId := rfl
      rw [if_pos (by simp only [List.length_nil]; omega), hprobe, hindex]
      simp only [Option.bind_eq_bind, Option.bind_some]
      rw [if_neg (by omega)]
      exact hloop
    · intro _
      obtain ⟨rest, rfl⟩ := hprefix
      exact hindex.symm

/-- Asking for more only adds to the selected indices. -/
theorem Filled.selectIndices_prefix (h : layout.Filled) (hasher : DefaultHasher)
    (objId : ObjId) {n n' : Nat} (hle : n ≤ n') {indices indices' : List Nat}
    (hn : layout.selectIndices hasher objId n = some indices)
    (hn' : layout.selectIndices hasher objId n' = some indices') : indices <+: indices' := by
  unfold selectIndices at hn hn'
  dsimp only at hn hn'
  rw [if_neg h.lookupTable_ne_nil] at hn hn'
  by_cases hzero : min n layout.activeTargetIndices.length = 0
  · rw [if_pos hzero] at hn
    cases hn
    exact List.nil_prefix
  · rw [if_neg hzero] at hn
    rw [if_neg (by omega)] at hn'
    refine selectLoop_prefix h (hashObjId hasher objId) (by omega) (layout.tableSize + 1002) 0
      [] List.nodup_nil ?_ (by omega) (by omega) indices indices' hn hn'
    intro index hindex
    exact absurd hindex List.not_mem_nil

/-- The targets of some indices, when all of them are active. -/
theorem Filled.mapM_targets (h : layout.Filled) {indices : List Nat}
    (hactive : ∀ index ∈ indices, index ∈ layout.activeTargetIndices) :
    ∃ target : Nat → StoreTarget,
      (∀ index ∈ layout.activeTargetIndices,
        layout.targets[index]? = some (target index) ∧ (target index).isActive = true) ∧
      indices.mapM (fun index => layout.targets[index]?) = some (indices.map target) := by
  let target (index : Nat) : StoreTarget :=
    (layout.targets[index]?).getD ⟨"", "", none, none, false, false, 0⟩
  have htarget : ∀ index ∈ layout.activeTargetIndices,
      layout.targets[index]? = some (target index) ∧ (target index).isActive = true := by
    intro index hindex
    obtain ⟨found, hfound, hisActive⟩ := h.targets_getElem? hindex
    have hsame : target index = found := by
      show (layout.targets[index]?).getD _ = found
      rw [hfound]
      rfl
    rw [hsame]
    exact ⟨hfound, hisActive⟩
  refine ⟨target, htarget, Collections.mapM_eq_some_map ?_⟩
  intro index hindex
  exact (htarget index (hactive index hindex)).1

/-- Several targets are distinct active ones, and the first is the primary one. -/
theorem Filled.selectNTargets_eq (h : layout.Filled) (hasher : DefaultHasher) (objId : ObjId)
    (n : Nat) :
    ∃ (indices : List Nat) (selected : List StoreTarget), indices.Nodup ∧
      layout.selectNTargets hasher objId n = some selected ∧
      List.Forall₂ (fun (index : Nat) target =>
        layout.targets[index]? = some target ∧ target.isActive = true) indices selected ∧
      (0 < n → some selected.head? = layout.selectPrimaryTarget hasher objId) := by
  obtain ⟨indices, hindices, hnodup, hall, hhead⟩ := h.selectIndices_eq hasher objId n
  obtain ⟨target, htarget, hmap⟩ := h.mapM_targets hall
  refine ⟨indices, indices.map target, hnodup, ?_, ?_, ?_⟩
  · unfold selectNTargets
    rw [hindices]
    exact hmap
  · rw [List.forall₂_map_right_iff, List.forall₂_same]
    intro index hindex
    exact htarget index (hall index hindex)
  · intro hn
    obtain ⟨index, primary, hindex, hprimary, -, hselect⟩ :=
      h.selectPrimaryTarget_eq hasher objId
    have hfirst := hhead hn
    rw [hindex] at hfirst
    have hmem : index ∈ indices := List.mem_of_mem_head? (by rw [hfirst]; rfl)
    have hsame := (htarget index (hall index hmem)).1
    rw [hprimary] at hsame
    rw [hselect, List.head?_map, hfirst, Option.some.inj hsame]
    rfl

/-- Asking for more targets only adds to the list. -/
theorem Filled.selectNTargets_prefix (h : layout.Filled) (hasher : DefaultHasher)
    (objId : ObjId) {n n' : Nat} (hle : n ≤ n') {selected selected' : List StoreTarget}
    (hn : layout.selectNTargets hasher objId n = some selected)
    (hn' : layout.selectNTargets hasher objId n' = some selected') :
    selected <+: selected' := by
  obtain ⟨indices, hindices, -, hall, -⟩ := h.selectIndices_eq hasher objId n
  obtain ⟨indices', hindices', -, hall', -⟩ := h.selectIndices_eq hasher objId n'
  have hprefix := h.selectIndices_prefix hasher objId hle hindices hindices'
  obtain ⟨target, htarget, hmap'⟩ := h.mapM_targets hall'
  have hmap := Collections.mapM_eq_some_map fun index hindex => (htarget index (hall index hindex)).1
  unfold selectNTargets at hn hn'
  rw [hindices] at hn
  rw [hindices'] at hn'
  have hselected : selected = indices.map target := Option.some.inj (hn.symm.trans hmap)
  have hselected' : selected' = indices'.map target := Option.some.inj (hn'.symm.trans hmap')
  rw [hselected, hselected']
  exact hprefix.map target

end Select

/-! ## The whole of `rebuild_maglev` -/

/-- The total weight of the active targets. -/
def activeWeight (layout : StoreLayout) : Nat :=
  ((layout.targets.filter StoreTarget.isActive).map StoreTarget.weight).sum

/-- What the table that was built for a layout guarantees. -/
structure Balanced (hasher : DefaultHasher) (layout built : StoreLayout) : Prop where
  targets : built.targets = layout.targets
  length : built.lookupTable.length = layout.tableSize
  /-- Every slot holds the index of an active target. -/
  slots : ∀ entry ∈ built.lookupTable, ∃ (index : Nat) (target : StoreTarget),
    entry = index ∧ layout.targets[index]? = some target ∧ target.isActive = true
  /-- Every active target owns a slot, and as many as its weight says. -/
  share : ∀ (index : Nat) (target : StoreTarget), layout.targets[index]? = some target →
    target.isActive = true →
      0 < built.lookupTable.count (index : Int) ∧
      layout.tableSize / layout.activeWeight * target.weight ≤
        built.lookupTable.count (index : Int) ∧
      built.lookupTable.count (index : Int) ≤
        (layout.tableSize / layout.activeWeight + 1) * target.weight
  primary : ∀ objId, ∃ (index : Nat) (target : StoreTarget),
    layout.targets[index]? = some target ∧ target.isActive = true ∧
      built.selectPrimaryTarget hasher objId = some (some target)
  /-- Several targets are distinct active ones, and the first is the primary one. -/
  several : ∀ objId n, ∃ (indices : List Nat) (selected : List StoreTarget),
    indices.Nodup ∧ built.selectNTargets hasher objId n = some selected ∧
      List.Forall₂ (fun (index : Nat) target =>
        layout.targets[index]? = some target ∧ target.isActive = true) indices selected ∧
      (0 < n → some selected.head? = built.selectPrimaryTarget hasher objId)
  /-- Asking for more targets only adds to the list. -/
  grows : ∀ objId n n' selected selected', n ≤ n' →
    built.selectNTargets hasher objId n = some selected →
    built.selectNTargets hasher objId n' = some selected' → selected <+: selected'

theorem sum_range_getD {α : Type} (weight : α → Nat) (d : α) (xs : List α) :
    ∑ i ∈ Finset.range xs.length, weight (xs.getD i d) = (xs.map weight).sum := by
  induction xs with
  | nil => rfl
  | cons x rest ih =>
      rw [List.length_cons, Finset.sum_range_succ', List.map_cons, List.sum_cons, ← ih]
      exact Nat.add_comm _ _

theorem length_activeIndices (targets : List StoreTarget) :
    (targets.filter StoreTarget.isActive).length = (activeIndices targets).length := by
  conv_lhs => rw [← List.zipIdx_map_fst 0 targets, List.filter_map]
  rw [List.length_map, activeIndices, List.length_map]
  rfl

theorem sum_paramsAt (hasher : DefaultHasher) (layout : StoreLayout) :
    ∑ i ∈ Finset.range (activeIndices layout.targets).length,
        (paramsAt (permutationParams hasher layout.tableSize layout.targets) i).weight =
      layout.activeWeight := by
  have hlength : (activeIndices layout.targets).length =
      (permutationParams hasher layout.tableSize layout.targets).length := by
    rw [permutationParams, activeIndices, List.length_map, List.length_map]
  have hfilter : layout.targets.filter StoreTarget.isActive =
      (activeTargets layout.targets).map Prod.fst := by
    conv_lhs => rw [← List.zipIdx_map_fst 0 layout.targets, List.filter_map]
    rfl
  unfold paramsAt activeWeight
  rw [hlength, sum_range_getD PermutationParams.weight, permutationParams, List.map_map,
    hfilter, List.map_map]
  rfl

theorem asI32_of_lt {n : Nat} (hn : n < 2 ^ 31) : asI32 n = n := by
  unfold asI32
  rw [Nat.mod_eq_of_lt (by omega), if_pos hn]

/-- The table is built, whatever the entries are, as long as they can be told
apart from each other and from an empty slot. -/
theorem rebuildMaglev_eq_some (hasher : DefaultHasher) (layout : StoreLayout)
    (totalWeight : Nat) (hsize : layout.tableSize = chooseTableSize totalWeight)
    (hentries : ∀ i ∈ activeIndices layout.targets, ∀ j ∈ activeIndices layout.targets,
      asI32 i = asI32 j → i = j)
    (hne : ∀ i ∈ activeIndices layout.targets, asI32 i ≠ -1)
    (hactive : activeIndices layout.targets ≠ [])
    (hfits : (activeIndices layout.targets).length ≤ layout.tableSize) :
    ∃ s, layout.rebuildMaglev hasher =
        some { layout with
          activeTargetIndices := activeIndices layout.targets
          lookupTable := s.table } ∧
      Finished layout.tableSize (permutationParams hasher layout.tableSize layout.targets)
        (activeIndices layout.targets)
        (emptyFilling layout.tableSize
          (permutationParams hasher layout.tableSize layout.targets)) s ∧
      ∀ i, i < (activeIndices layout.targets).length →
        0 < s.owned (activeIndices layout.targets) i := by
  obtain ⟨hprime, hsmall⟩ := prime_chooseTableSize totalWeight
  rw [← hsize] at hprime hsmall
  obtain ⟨s, hfill, hdone, howned⟩ := fillTable_emptyFilling
    (setting_of_targets hasher hprime hsmall hentries hne) hactive hfits
  refine ⟨s, ?_, hdone, howned⟩
  unfold rebuildMaglev
  dsimp only
  rw [if_neg hactive, hfill]
  rfl

/-- Every entry of a finished table is that of an active target. -/
theorem Finished.entry_eq {m : Nat} {params : List PermutationParams} {active : List Nat}
    {s s' : Filling} (h : Finished m params active s s') {entry : Int}
    (hentry : entry ∈ s'.table) : ∃ index ∈ active, entry = asI32 index := by
  have hnone : s'.table.count (-1) = 0 := by
    have hfilled := h.inv.filled
    have hfull := h.full
    omega
  rcases h.inv.entries entry hentry with hempty | ⟨i, hi, hvalue⟩
  · subst hempty
    exact absurd hentry (List.count_eq_zero.mp hnone)
  · refine ⟨active.getD i 0, ?_, hvalue⟩
    rw [List.getD_eq_getElem active 0 hi]
    exact List.getElem_mem hi

/-- For every list of at most `2 ^ 31` targets with any ids, weights and flags, any
hash values and any of the table sizes, as long as some target is active and there
are no more active targets than slots: the table is built without overflow, it is
full and shared out by weight, and the selections are right. -/
theorem rebuildMaglev_balanced (hasher : DefaultHasher) (layout : StoreLayout)
    (totalWeight : Nat) (hsize : layout.tableSize = chooseTableSize totalWeight)
    (hlength : layout.targets.length ≤ 2 ^ 31)
    (hactive : ∃ target ∈ layout.targets, target.isActive = true)
    (hfits : (layout.targets.filter StoreTarget.isActive).length ≤ layout.tableSize) :
    ∃ built, layout.rebuildMaglev hasher = some built ∧ Balanced hasher layout built := by
  have hsmall : ∀ index ∈ activeIndices layout.targets, index < 2 ^ 31 := by
    intro index hindex
    obtain ⟨target, htarget, -⟩ := mem_activeIndices.mp hindex
    have hlt := (List.getElem?_eq_some_iff.mp htarget).1
    omega
  have hsome : activeIndices layout.targets ≠ [] := by
    obtain ⟨target, hmem, hisActive⟩ := hactive
    obtain ⟨index, hindex⟩ := List.mem_iff_getElem?.mp hmem
    exact List.ne_nil_of_mem (mem_activeIndices.mpr ⟨target, hindex, hisActive⟩)
  rw [length_activeIndices] at hfits
  obtain ⟨s, hbuilt, hdone, howned⟩ := rebuildMaglev_eq_some hasher layout totalWeight hsize
    (by
      intro i hi j hj heq
      rw [asI32_of_lt (hsmall i hi), asI32_of_lt (hsmall j hj)] at heq
      omega)
    (by
      intro i hi
      rw [asI32_of_lt (hsmall i hi)]
      omega)
    hsome hfits
  refine ⟨_, hbuilt, ?_⟩
  have hfilled : Filled
      { layout with
        activeTargetIndices := activeIndices layout.targets
        lookupTable := s.table } := by
    refine ⟨hdone.inv.table_length, ?_, ?_, hsmall, rfl⟩
    · have hlen := List.length_pos_iff.mpr hsome
      show 0 < layout.tableSize
      omega
    · intro entry hentry
      obtain ⟨index, hindex, hvalue⟩ := hdone.entry_eq hentry
      exact ⟨index, hindex, by rw [hvalue, asI32_of_lt (hsmall index hindex)]⟩
  constructor
  · rfl
  · exact hdone.inv.table_length
  · intro entry hentry
    obtain ⟨index, hindex, hvalue⟩ := hfilled.entries entry hentry
    obtain ⟨target, htarget, hisActive⟩ := hfilled.targets_getElem? hindex
    exact ⟨index, target, hvalue, htarget, hisActive⟩
  · intro index target htarget hisActive
    obtain ⟨i, hi⟩ := List.mem_iff_getElem?.mp
      (mem_activeTargets.mpr ⟨htarget, hisActive⟩)
    obtain ⟨hlt, hget⟩ := List.getElem?_eq_some_iff.mp hi
    have hlt' : i < (activeIndices layout.targets).length := by
      rw [activeIndices, List.length_map]
      exact hlt
    have hentry : entryAt (activeIndices layout.targets) i = index := by
      have hvalue : (activeIndices layout.targets).getD i 0 = index := by
        simp [activeIndices, List.getD_eq_getElem?_getD, hi]
      unfold entryAt
      rw [hvalue, asI32_of_lt (hsmall index (mem_activeIndices.mpr ⟨target, htarget, hisActive⟩))]
    have hweight : (paramsAt (permutationParams hasher layout.tableSize layout.targets)
        i).weight = target.weight := by
      simp [paramsAt, permutationParams, List.getD_eq_getElem?_getD, hi, paramsOf]
    have hbounds := hdone.owned_bounds hlt'
    have hpositive := howned i hlt'
    dsimp only at hbounds
    rw [sum_paramsAt, hweight] at hbounds
    unfold Filling.owned at hbounds hpositive
    rw [hentry] at hbounds hpositive
    exact ⟨hpositive, hbounds⟩
  · intro objId
    obtain ⟨index, target, -, htarget, hisActive, hprimary⟩ :=
      hfilled.selectPrimaryTarget_eq hasher objId
    exact ⟨index, target, htarget, hisActive, hprimary⟩
  · intro objId n
    exact hfilled.selectNTargets_eq hasher objId n
  · intro objId n n' selected selected' hle hn hn'
    exact hfilled.selectNTargets_prefix hasher objId hle hn hn'

/-- Selecting panics when the table leads out of the list of targets. -/
theorem selectPrimaryTarget_eq_none {hasher : DefaultHasher} {layout : StoreLayout}
    {objId : ObjId} {entry : Int}
    (hentry : layout.lookupTable[(hashObjId hasher objId).toNat % layout.tableSize]? =
      some entry)
    (hout : layout.targets[asUsize entry]? = none) :
    layout.selectPrimaryTarget hasher objId = none := by
  unfold selectPrimaryTarget targetIndex
  rw [if_neg (List.ne_nil_of_mem (List.mem_of_getElem? hentry)), hentry]
  simp only [Option.bind_eq_bind, Option.bind_some, Option.pure_def, hout, Option.bind_none]

/-- A hasher for which all hash values are zero. -/
def zeroHasher : DefaultHasher := ⟨fun _ _ => 0, fun _ => 0⟩

/-- Two targets that are on, with three parts and one part of the weight, and between them
one that is off and one that is only read. -/
def mixedLayout : StoreLayout where
  epoch := 1
  targets :=
    [⟨"large", "", none, none, false, true, 3⟩, ⟨"off", "", none, none, false, false, 5⟩,
      ⟨"frozen", "", none, none, true, true, 7⟩, ⟨"small", "", none, none, false, true, 1⟩]
  totalCapacity := 0
  totalUsed := 0
  totalWeight := 4
  lookupTable := []
  activeTargetIndices := []
  tableSize := chooseTableSize 4

/-- Although both walks through the table are the same, the first target owns about three
quarters of the slots and the last one about one quarter. -/
theorem mixedLayout_balanced :
    ∃ built, mixedLayout.rebuildMaglev zeroHasher = some built ∧
      Balanced zeroHasher mixedLayout built ∧
      49152 ≤ built.lookupTable.count 0 ∧ built.lookupTable.count 0 ≤ 49155 ∧
      16384 ≤ built.lookupTable.count 3 ∧ built.lookupTable.count 3 ≤ 16385 ∧
      ∀ entry ∈ built.lookupTable, entry = 0 ∨ entry = 3 := by
  obtain ⟨built, hbuilt, hbalanced⟩ := rebuildMaglev_balanced zeroHasher mixedLayout 4 rfl
    (by decide) (by decide) (by decide)
  obtain ⟨-, hlarge, hlarge'⟩ := hbalanced.share 0 _ rfl rfl
  obtain ⟨-, hsmall, hsmall'⟩ := hbalanced.share 3 _ rfl rfl
  refine ⟨built, hbuilt, hbalanced, hlarge, hlarge', hsmall, hsmall', ?_⟩
  intro entry hentry
  obtain ⟨index, target, rfl, htarget, hactive⟩ := hbalanced.slots entry hentry
  match index with
  | 0 => exact .inl rfl
  | 3 => exact .inr rfl
  | 1 | 2 =>
      obtain rfl := Option.some.inj htarget
      cases hactive
  | index + 4 => cases htarget

/-- A layout with the given number of targets that are off, and one that is on after
them. -/
def crowdedLayout (off : Nat) : StoreLayout where
  epoch := 1
  targets :=
    List.replicate off ⟨"off", "", none, none, false, false, 1⟩ ++
      [⟨"on", "", none, none, false, true, 1⟩]
  totalCapacity := 0
  totalUsed := 0
  totalWeight := 1
  lookupTable := []
  activeTargetIndices := []
  tableSize := chooseTableSize 1

theorem activeIndices_crowdedLayout (off : Nat) :
    activeIndices (crowdedLayout off).targets = [off] := by
  have hoff : (List.replicate off (⟨"off", "", none, none, false, false, 1⟩ :
      StoreTarget)).zipIdx.filter (fun entry => entry.1.isActive) = [] := by
    refine List.filter_eq_nil_iff.mpr ?_
    rintro ⟨target, index⟩ hmem
    have hget := List.mem_zipIdx_iff_getElem?.mp hmem
    rw [List.eq_of_mem_replicate (List.mem_of_getElem? hget)]
    decide
  unfold activeIndices activeTargets crowdedLayout
  rw [List.zipIdx_append, List.filter_append, hoff, List.length_replicate, Nat.zero_add]
  rfl

/-- With a list of targets that is too long, the index of the last target is read
back from the table as one that is not in the list, and selecting panics. -/
theorem crowdedLayout_selection_panics :
    (∃ target ∈ (crowdedLayout (2 ^ 31)).targets, target.isActive = true) ∧
      ((crowdedLayout (2 ^ 31)).targets.filter StoreTarget.isActive).length ≤
        (crowdedLayout (2 ^ 31)).tableSize ∧
      ∃ built, (crowdedLayout (2 ^ 31)).rebuildMaglev zeroHasher = some built ∧
        built.selectPrimaryTarget zeroHasher ⟨"pkg", [1]⟩ = none := by
  have hindices := activeIndices_crowdedLayout (2 ^ 31)
  have hcast : asI32 (2 ^ 31) = -2147483648 := by decide
  have hmem : ∀ i ∈ activeIndices (crowdedLayout (2 ^ 31)).targets, i = 2 ^ 31 := by
    intro i hi
    rw [hindices] at hi
    exact List.mem_singleton.mp hi
  have hfilter : ((crowdedLayout (2 ^ 31)).targets.filter StoreTarget.isActive).length = 1 := by
    have hlength := congrArg List.length hindices
    rw [← length_activeIndices] at hlength
    exact hlength
  obtain ⟨s, hbuilt, hdone, -⟩ := rebuildMaglev_eq_some zeroHasher
    (crowdedLayout (2 ^ 31)) 1 rfl
    (by
      intro i hi j hj _
      rw [hmem i hi, hmem j hj])
    (by
      intro i hi
      rw [hmem i hi, hcast]
      decide)
    (by
      rw [hindices]
      exact List.cons_ne_nil _ _)
    (by
      rw [hindices]
      decide)
  refine ⟨⟨_, List.mem_append_right _ (List.mem_singleton.mpr rfl), rfl⟩, ?_, _, hbuilt, ?_⟩
  · rw [hfilter]
    decide
  · have hlength : s.table.length = (crowdedLayout (2 ^ 31)).tableSize :=
      hdone.inv.table_length
    have hpos : 0 < s.table.length := by
      rw [hlength]
      decide
    have hentry : s.table[0] = -2147483648 := by
      obtain ⟨index, hindex, hvalue⟩ := hdone.entry_eq (List.getElem_mem hpos)
      rw [hvalue, hmem index hindex, hcast]
    have hfirst : s.table[0]? = some (-2147483648) := by
      rw [List.getElem?_eq_getElem hpos, hentry]
    have hout : (crowdedLayout (2 ^ 31)).targets[asUsize (-2147483648)]? = none := by
      refine List.getElem?_eq_none ?_
      rw [show asUsize (-2147483648) = 18446744071562067968 by decide]
      rw [crowdedLayout, List.length_append, List.length_replicate, List.length_singleton]
      omega
    refine selectPrimaryTarget_eq_none ?_ hout
    rw [show (hashObjId zeroHasher ⟨"pkg", [1]⟩).toNat = 0 from rfl, Nat.zero_mod]
    exact hfirst

end StoreLayout

end NamedStore
end CyfsNdn

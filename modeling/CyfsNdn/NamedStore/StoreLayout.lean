import CyfsNdn.NdnLib.ObjId

/-!
# Store layouts

`StoreLayout` of `named_store/src/store_layout.rs`: a table of a prime number of
slots that is filled by letting the active targets claim slots in turn, each along
its own walk through the table, as often in a round as its weight says.

A slot holds a 32-bit integer, and `-1` marks an empty slot.  Arithmetic on `usize`
is checked and indexing is checked: `none` stands for a panic, and also for a loop
that needs more turns than it is given.  Every loop is given enough of them.

The values of the standard library's `DefaultHasher` are arbitrary.
-/

namespace CyfsNdn
namespace NamedStore

open NdnLib

/-- `DefaultHasher`: of a seed and a text, and of a byte string. -/
structure DefaultHasher where
  hashWithSeed : String → Nat → UInt64
  hashBytes : List UInt8 → UInt64

/-- `StoreTarget`. -/
structure StoreTarget where
  storeId : String
  deviceDid : String
  capacity : Option Nat
  used : Option Nat
  readonly : Bool
  enabled : Bool
  weight : Nat
  deriving DecidableEq, Repr

/-- A target that takes new objects. -/
def StoreTarget.isActive (target : StoreTarget) : Bool :=
  target.enabled && !target.readonly && decide (0 < target.weight)

/-- `StoreLayout`. -/
structure StoreLayout where
  epoch : Nat
  targets : List StoreTarget
  totalCapacity : Nat
  totalUsed : Nat
  totalWeight : Nat
  lookupTable : List Int
  activeTargetIndices : List Nat
  tableSize : Nat
  deriving DecidableEq, Repr

/-- `a + b` on a 64-bit `usize`. -/
def checkedAdd (a b : Nat) : Option Nat :=
  if a + b < 2 ^ 64 then some (a + b) else none

/-- `a * b` on a 64-bit `usize`. -/
def checkedMul (a b : Nat) : Option Nat :=
  if a * b < 2 ^ 64 then some (a * b) else none

/-- `n as i32` for a `usize`. -/
def asI32 (n : Nat) : Int :=
  if n % 2 ^ 32 < 2 ^ 31 then (n % 2 ^ 32 : Nat) else (n % 2 ^ 32 : Nat) - 2 ^ 32

/-- `v as usize` for an `i32`. -/
def asUsize (v : Int) : Nat :=
  (v % 2 ^ 64).toNat

namespace StoreLayout

/-- `SMALL_TABLE_SIZE`. -/
def smallTableSize : Nat := 65537

/-- `MEDIUM_TABLE_SIZE`. -/
def mediumTableSize : Nat := 655373

/-- `LARGE_TABLE_SIZE`. -/
def largeTableSize : Nat := 6553577

/-- `choose_table_size`. -/
def chooseTableSize (totalWeight : Nat) : Nat :=
  if totalWeight < 6000 then smallTableSize
  else if totalWeight < 60000 then mediumTableSize
  else largeTableSize

/-! ## Building the table -/

/-- The walk and the weight of one active target. -/
structure PermutationParams where
  offset : Nat
  skip : Nat
  weight : Nat
  deriving DecidableEq, Repr

/-- What the loops of `rebuild_maglev` change. -/
structure Filling where
  table : List Int
  next : List Nat
  weightCounter : List Nat
  filled : Nat
  deriving DecidableEq, Repr

/-- The active targets with their indices, in order. -/
def activeTargets (targets : List StoreTarget) : List (StoreTarget × Nat) :=
  targets.zipIdx.filter fun entry => entry.1.isActive

/-- The indices of the active targets. -/
def activeIndices (targets : List StoreTarget) : List Nat :=
  (activeTargets targets).map Prod.snd

/-- The parameters of one target. -/
def paramsOf (hasher : DefaultHasher) (m : Nat) (target : StoreTarget) :
    PermutationParams where
  offset := (hasher.hashWithSeed target.storeId 0).toNat % m
  skip := (hasher.hashWithSeed target.storeId 1).toNat % (m - 1) + 1
  weight := target.weight

/-- The parameters of the active targets, in the same order. -/
def permutationParams (hasher : DefaultHasher) (m : Nat) (targets : List StoreTarget) :
    List PermutationParams :=
  (activeTargets targets).map fun entry => paramsOf hasher m entry.1

/-- The slot that is `next` steps along a walk. -/
def probePos (m : Nat) (params : PermutationParams) (next : Nat) : Option Nat := do
  let distance ← checkedMul next params.skip
  let pos ← checkedAdd params.offset distance
  return pos % m

/-- The inner `while` loop: the first empty slot of a walk from `next` on, and how
far along the walk it is. -/
def findSlot (m : Nat) (table : List Int) (params : PermutationParams) :
    Nat → Nat → Option (Nat × Nat)
  | 0, _ => none
  | fuel + 1, next => do
      let pos ← probePos m params next
      let entry ← table[pos]?
      if entry ≠ -1 then
        let next ← checkedAdd next 1
        findSlot m table params fuel next
      else return (next, pos)

/-- The body of the `for` loop for a target with weight left. -/
def claimSlot (m : Nat) (params : List PermutationParams) (active : List Nat) (s : Filling)
    (i : Nat) : Option Filling := do
  let walk ← params[i]?
  let next ← s.next[i]?
  let counter ← s.weightCounter[i]?
  let (next, pos) ← findSlot m s.table walk (m + 1) next
  let target ← active[i]?
  let next ← checkedAdd next 1
  return {
    table := s.table.set pos (asI32 target)
    next := s.next.set i next
    weightCounter := s.weightCounter.set i (counter - 1)
    filled := s.filled + 1 }

/-- The `for` loop, which ends early when the table is full. -/
def fillPass (m : Nat) (params : List PermutationParams) (active : List Nat) :
    List Nat → Filling → Option Filling
  | [], s => some s
  | i :: rest, s => do
      let counter ← s.weightCounter[i]?
      if counter = 0 then fillPass m params active rest s
      else
        let s ← claimSlot m params active s i
        if s.filled = m then return s
        else fillPass m params active rest s

/-- The end of a turn of the outer loop: when all counters are zero they start
again. -/
def resetCounters (params : List PermutationParams) (s : Filling) : Filling :=
  if s.weightCounter.all (· = 0) then
    { s with weightCounter := params.map PermutationParams.weight }
  else s

/-- The outer `while` loop. -/
def fillTable (m : Nat) (params : List PermutationParams) (active : List Nat) :
    Nat → Filling → Option Filling
  | 0, _ => none
  | fuel + 1, s =>
      if s.filled < m then do
        let s ← fillPass m params active (List.range active.length) s
        fillTable m params active fuel (resetCounters params s)
      else some s

/-- The state before the loops. -/
def emptyFilling (m : Nat) (params : List PermutationParams) : Filling where
  table := List.replicate m (-1)
  next := List.replicate params.length 0
  weightCounter := params.map PermutationParams.weight
  filled := 0

/-- `rebuild_maglev`. -/
def rebuildMaglev (hasher : DefaultHasher) (layout : StoreLayout) : Option StoreLayout :=
  let active := activeIndices layout.targets
  if active = [] then
    some { layout with activeTargetIndices := active, lookupTable := [] }
  else do
    let m := layout.tableSize
    let params := permutationParams hasher m layout.targets
    let s ← fillTable m params active (m + 1) (emptyFilling m params)
    return { layout with activeTargetIndices := active, lookupTable := s.table }

/-- `StoreLayout::new`. -/
def new (hasher : DefaultHasher) (epoch : Nat) (targets : List StoreTarget)
    (totalCapacity totalUsed : Nat) : Option StoreLayout :=
  let totalWeight := ((targets.filter StoreTarget.isActive).map StoreTarget.weight).sum
  rebuildMaglev hasher
    { epoch := epoch
      targets := targets
      totalCapacity := totalCapacity
      totalUsed := totalUsed
      totalWeight := totalWeight
      lookupTable := []
      activeTargetIndices := []
      tableSize := chooseTableSize totalWeight }

/-! ## Selecting targets -/

/-- `hash_obj_id`. -/
def hashObjId (hasher : DefaultHasher) (objId : ObjId) : UInt64 :=
  hasher.hashBytes objId.objHash

/-- The index of the target that the table gives for a hash value. -/
def targetIndex (layout : StoreLayout) (hash : UInt64) : Option Nat := do
  let entry ← layout.lookupTable[hash.toNat % layout.tableSize]?
  return asUsize entry

/-- `select_primary_target`; the outer option is for a panic. -/
def selectPrimaryTarget (hasher : DefaultHasher) (layout : StoreLayout) (objId : ObjId) :
    Option (Option StoreTarget) :=
  if layout.lookupTable = [] then some none
  else do
    let index ← layout.targetIndex (hashObjId hasher objId)
    let target ← layout.targets[index]?
    return some target

/-- The hash value of a probe. -/
def probeHash (baseHash probe : UInt64) : UInt64 :=
  if probe = 0 then baseHash else baseHash + probe * 0x9e3779b97f4a7c15

/-- `push`, unless the index is selected already. -/
def pushIfNew (selected : List Nat) (index : Nat) : List Nat :=
  if index ∈ selected then selected else selected ++ [index]

/-- The loop of `select_n_targets`. -/
def selectLoop (layout : StoreLayout) (baseHash : UInt64) (n : Nat) :
    Nat → Nat → List Nat → Option (List Nat)
  | 0, _, _ => none
  | fuel + 1, probe, selected =>
      if selected.length < n then do
        let index ← layout.targetIndex (probeHash baseHash (UInt64.ofNat probe))
        let selected := pushIfNew selected index
        if layout.tableSize + 1000 < probe + 1 then return selected
        else selectLoop layout baseHash n fuel (probe + 1) selected
      else some selected

/-- The indices that `select_n_targets` selects. -/
def selectIndices (hasher : DefaultHasher) (layout : StoreLayout) (objId : ObjId) (n : Nat) :
    Option (List Nat) :=
  let n := min n layout.activeTargetIndices.length
  if layout.lookupTable = [] then some []
  else if n = 0 then some []
  else
    selectLoop layout (hashObjId hasher objId) n (layout.tableSize + 1002) 0 []

/-- `select_n_targets`. -/
def selectNTargets (hasher : DefaultHasher) (layout : StoreLayout) (objId : ObjId) (n : Nat) :
    Option (List StoreTarget) := do
  let selected ← selectIndices hasher layout objId n
  selected.mapM fun index => layout.targets[index]?

end StoreLayout

end NamedStore
end CyfsNdn

import CyfsNdn.Collections.Traverse
import CyfsNdn.NdnLib.SampleCrates
import Mathlib.Data.List.TakeWhile

/-!
# The size of a chunk list

`ChunkList::from_chunk_list` and `append_chunk` add up the lengths that the ids of the chunks
carry.  The sum is a `u64` that nothing checks: it is the sum of the lengths exactly as long as
this fits into 64 bits.

`ChunkIdHashHelper` reads the length of an id as well, by the name of its type.  It goes by the
name `mix` in front, where `ChunkId` goes by the type, and the two differ on `qcid`.
-/

namespace CyfsNdn
namespace NdnLib

open Collections

/-- `a + b` of `u64`.  A build with overflow checks panics, which is `none`; one without them
wraps around. -/
def addU64 (overflowChecks : Bool) (a b : Nat) : Option Nat :=
  if a + b < 2 ^ 64 then some (a + b)
  else if overflowChecks then none
  else some ((a + b) % 2 ^ 64)

theorem addU64_checked (a b : Nat) :
    addU64 true a b = if a + b < 2 ^ 64 then some (a + b) else none := rfl

theorem addU64_wrapping (a b : Nat) : addU64 false a b = some ((a + b) % 2 ^ 64) := by
  unfold addU64
  by_cases hfits : a + b < 2 ^ 64
  · rw [if_pos hfits, Nat.mod_eq_of_lt hfits]
  · rw [if_neg hfits]
    rfl

/-! ## Building a list -/

namespace ChunkList

/-- The loop of `from_chunk_list`, with this total so far. -/
def sumLengths (crates : Crates) (overflowChecks : Bool) :
    Nat → List ChunkId → Option (NdnResult Nat)
  | totalSize, [] => some (.ok totalSize)
  | totalSize, chunkId :: rest =>
      match chunkId.getLength crates with
      | none => some (.error (.invalidParam "get chunk length from chunkid failed"))
      | some chunkSize =>
          match addU64 overflowChecks totalSize chunkSize with
          | none => none
          | some totalSize => sumLengths crates overflowChecks totalSize rest

/-- `ChunkList::from_chunk_list` with its `u64` total; `none` is a panic. -/
def fromChunkListU64 (crates : Crates) (overflowChecks : Bool) (chunkList : List ChunkId) :
    Option (NdnResult ChunkList) :=
  (sumLengths crates overflowChecks 0 chunkList).map fun total =>
    total.map fun totalSize => ⟨totalSize, chunkList⟩

/-- `ChunkList::append_chunk`; `none` is a panic. -/
def appendChunk (crates : Crates) (overflowChecks : Bool) (list : ChunkList)
    (chunkId : ChunkId) : Option (NdnResult ChunkList) :=
  match chunkId.getLength crates with
  | none => some (.error (.invalidParam "get chunk length from chunkid failed"))
  | some chunkSize =>
      (addU64 overflowChecks list.totalSize chunkSize).map fun totalSize =>
        .ok ⟨totalSize, list.body ++ [chunkId]⟩

/-- Chunks appended one after the other; one that is refused leaves the list as it is. -/
def appendChunks (crates : Crates) (overflowChecks : Bool) :
    ChunkList → List ChunkId → Option ChunkList
  | list, [] => some list
  | list, chunkId :: rest =>
      match list.appendChunk crates overflowChecks chunkId with
      | none => none
      | some (.error _) => appendChunks crates overflowChecks list rest
      | some (.ok appended) => appendChunks crates overflowChecks appended rest

/-! ## The sum of the lengths -/

/-- The chunk carries its length. -/
def hasLength (crates : Crates) (chunkId : ChunkId) : Bool :=
  (chunkId.getLength crates).isSome

/-- The sum of the lengths that the chunks carry. -/
def lengthSum (crates : Crates) (chunks : List ChunkId) : Nat :=
  (chunks.filterMap (ChunkId.getLength crates)).sum

/-- Every chunk of the list carries its length, and the size is the sum of the lengths. -/
structure IsExact (crates : Crates) (list : ChunkList) : Prop where
  lengths : ∀ chunkId ∈ list.body, hasLength crates chunkId = true
  total : list.totalSize = lengthSum crates list.body

/-- `from_chunk_list` returns an error or an exact list, and this stays exact when chunks are
appended.  Nothing panics. -/
def SizesExact (crates : Crates) (overflowChecks : Bool) (chunks appended : List ChunkId) :
    Prop :=
  ∃ result, fromChunkListU64 crates overflowChecks chunks = some result ∧
    ∀ list, result = .ok list → list.IsExact crates ∧
      ∃ after, appendChunks crates overflowChecks list appended = some after ∧
        after.IsExact crates

/-- The lengths that are added fit into 64 bits: those of all chunks; or, where `from_chunk_list`
comes upon a chunk without a length, those before it, if the build checks them. -/
def SizesFit (crates : Crates) (overflowChecks : Bool) (chunks appended : List ChunkId) :
    Prop :=
  if chunks.all (hasLength crates) then
    lengthSum crates chunks + lengthSum crates appended < 2 ^ 64
  else
    overflowChecks = true → lengthSum crates (chunks.takeWhile (hasLength crates)) < 2 ^ 64

variable {crates : Crates}

@[simp] theorem lengthSum_nil : lengthSum crates [] = 0 := rfl

theorem lengthSum_cons_of_some {chunkId : ChunkId} {size : Nat}
    (h : chunkId.getLength crates = some size) (rest : List ChunkId) :
    lengthSum crates (chunkId :: rest) = size + lengthSum crates rest := by
  simp [lengthSum, h]

theorem lengthSum_cons_of_none {chunkId : ChunkId} (h : chunkId.getLength crates = none)
    (rest : List ChunkId) : lengthSum crates (chunkId :: rest) = lengthSum crates rest := by
  simp [lengthSum, h]

theorem lengthSum_append (chunks rest : List ChunkId) :
    lengthSum crates (chunks ++ rest) = lengthSum crates chunks + lengthSum crates rest := by
  simp [lengthSum, List.filterMap_append]

/-- Chunks without a length add nothing. -/
theorem lengthSum_filter (chunks : List ChunkId) :
    lengthSum crates (chunks.filter (hasLength crates)) = lengthSum crates chunks := by
  induction chunks with
  | nil => rfl
  | cons chunkId rest ih =>
      cases hlength : chunkId.getLength crates with
      | none =>
          rw [lengthSum_cons_of_none hlength, List.filter_cons_of_neg (by simp [hasLength, hlength]),
            ih]
      | some size =>
          rw [List.filter_cons_of_pos (by simp [hasLength, hlength]),
            lengthSum_cons_of_some hlength, lengthSum_cons_of_some hlength, ih]

/-! ## What the loops compute -/

/-- Without overflow checks the loop wraps the sum around. -/
theorem sumLengths_wrapping (chunks : List ChunkId) {total : Nat} (htotal : total < 2 ^ 64) :
    sumLengths crates false total chunks =
      if chunks.all (hasLength crates) then
        some (.ok ((total + lengthSum crates chunks) % 2 ^ 64))
      else some (.error (.invalidParam "get chunk length from chunkid failed")) := by
  induction chunks generalizing total with
  | nil =>
      rw [sumLengths, List.all_nil, if_pos rfl, lengthSum_nil, Nat.add_zero,
        Nat.mod_eq_of_lt htotal]
  | cons chunkId rest ih =>
      cases hlength : chunkId.getLength crates with
      | none => simp [sumLengths, hasLength, hlength]
      | some size =>
          have hnext := ih (Nat.mod_lt (total + size) (show 0 < 2 ^ 64 by decide))
          rw [Nat.mod_add_mod, Nat.add_assoc] at hnext
          simp only [sumLengths, hlength, addU64_wrapping, hnext, List.all_cons, hasLength,
            Option.isSome_some, Bool.true_and, lengthSum_cons_of_some hlength]

/-- With overflow checks it panics once the sum does not fit. -/
theorem sumLengths_checked (chunks : List ChunkId) {total : Nat} (htotal : total < 2 ^ 64) :
    sumLengths crates true total chunks =
      if total + lengthSum crates (chunks.takeWhile (hasLength crates)) < 2 ^ 64 then
        if chunks.all (hasLength crates) then some (.ok (total + lengthSum crates chunks))
        else some (.error (.invalidParam "get chunk length from chunkid failed"))
      else none := by
  induction chunks generalizing total with
  | nil =>
      rw [List.takeWhile_nil, lengthSum_nil, Nat.add_zero, if_pos htotal]
      rfl
  | cons chunkId rest ih =>
      cases hlength : chunkId.getLength crates with
      | none =>
          rw [List.takeWhile_cons_of_neg (by simp [hasLength, hlength]), lengthSum_nil,
            Nat.add_zero, if_pos htotal]
          simp [sumLengths, hasLength, hlength]
      | some size =>
          have hhas : hasLength crates chunkId = true := by simp [hasLength, hlength]
          rw [List.takeWhile_cons_of_pos hhas, lengthSum_cons_of_some hlength,
            lengthSum_cons_of_some hlength, List.all_cons, hhas, Bool.true_and,
            ← Nat.add_assoc, ← Nat.add_assoc]
          simp only [sumLengths, hlength, addU64_checked]
          by_cases hfits : total + size < 2 ^ 64
          · rw [if_pos hfits]
            exact ih hfits
          · have hsum : ¬ total + size +
                lengthSum crates (rest.takeWhile (hasLength crates)) < 2 ^ 64 := by omega
            rw [if_neg hfits, if_neg hsum]

/-- Without overflow checks the size wraps around as chunks are appended. -/
theorem appendChunks_wrapping (appended : List ChunkId) {list : ChunkList}
    (htotal : list.totalSize < 2 ^ 64) :
    list.appendChunks crates false appended =
      some ⟨(list.totalSize + lengthSum crates appended) % 2 ^ 64,
        list.body ++ appended.filter (hasLength crates)⟩ := by
  induction appended generalizing list with
  | nil =>
      rw [lengthSum_nil, Nat.add_zero, Nat.mod_eq_of_lt htotal, List.filter_nil, List.append_nil]
      rfl
  | cons chunkId rest ih =>
      cases hlength : chunkId.getLength crates with
      | none =>
          rw [lengthSum_cons_of_none hlength, List.filter_cons_of_neg (by simp [hasLength, hlength])]
          simp only [appendChunks, appendChunk, hlength]
          exact ih htotal
      | some size =>
          have hpos : 0 < 2 ^ 64 := by decide
          rw [lengthSum_cons_of_some hlength, List.filter_cons_of_pos (by simp [hasLength, hlength])]
          simp only [appendChunks, appendChunk, hlength, addU64_wrapping, Option.map_some]
          rw [ih (Nat.mod_lt _ hpos)]
          simp [Nat.mod_add_mod, Nat.add_assoc]

/-- With overflow checks a chunk whose length does not fit any more panics. -/
theorem appendChunks_checked (appended : List ChunkId) {list : ChunkList}
    (htotal : list.totalSize < 2 ^ 64) :
    list.appendChunks crates true appended =
      if list.totalSize + lengthSum crates appended < 2 ^ 64 then
        some ⟨list.totalSize + lengthSum crates appended,
          list.body ++ appended.filter (hasLength crates)⟩
      else none := by
  induction appended generalizing list with
  | nil =>
      rw [lengthSum_nil, Nat.add_zero, if_pos htotal, List.filter_nil, List.append_nil]
      rfl
  | cons chunkId rest ih =>
      cases hlength : chunkId.getLength crates with
      | none =>
          rw [lengthSum_cons_of_none hlength, List.filter_cons_of_neg (by simp [hasLength, hlength])]
          simp only [appendChunks, appendChunk, hlength]
          exact ih htotal
      | some size =>
          rw [lengthSum_cons_of_some hlength, List.filter_cons_of_pos (by simp [hasLength, hlength]),
            ← Nat.add_assoc]
          simp only [appendChunks, appendChunk, hlength, addU64_checked]
          by_cases hfits : list.totalSize + size < 2 ^ 64
          · rw [if_pos hfits, Option.map_some]
            dsimp only
            rw [ih hfits]
            simp
          · have hsum : ¬ list.totalSize + size + lengthSum crates rest < 2 ^ 64 := by omega
            rw [if_neg hfits, Option.map_none, if_neg hsum]

/-- The size of an exact list grows by the lengths that are appended. -/
theorem IsExact.appended {list : ChunkList} (h : list.IsExact crates) (appended : List ChunkId) :
    IsExact crates ⟨list.totalSize + lengthSum crates appended,
      list.body ++ appended.filter (hasLength crates)⟩ := by
  constructor
  · intro chunkId hmem
    rcases List.mem_append.mp hmem with hold | hnew
    · exact h.lengths chunkId hold
    · exact (List.mem_filter.mp hnew).2
  · show list.totalSize + _ = _
    rw [lengthSum_append, lengthSum_filter, h.total]

/-- Without overflow checks the sizes are exact if the lengths fit, or if `from_chunk_list`
finds a chunk without a length. -/
theorem sizesExact_wrapping_iff (chunks appended : List ChunkId) :
    SizesExact crates false chunks appended ↔ SizesFit crates false chunks appended := by
  have hzero : 0 < 2 ^ 64 := by decide
  unfold SizesExact SizesFit fromChunkListU64
  rw [sumLengths_wrapping chunks hzero, Nat.zero_add]
  by_cases hall : chunks.all (hasLength crates) = true
  · rw [if_pos hall, if_pos hall]
    have hsize := Nat.mod_lt (lengthSum crates chunks) hzero
    constructor
    · rintro ⟨result, hresult, hexact⟩
      obtain rfl := Option.some.inj hresult
      obtain ⟨hlist, after, hafter, hexact⟩ := hexact _ rfl
      rw [appendChunks_wrapping appended hsize] at hafter
      obtain rfl := Option.some.inj hafter
      have htotal := hexact.total
      rw [lengthSum_append, lengthSum_filter] at htotal
      exact htotal ▸ Nat.mod_lt _ hzero
    · intro hfits
      have hchunks : lengthSum crates chunks % 2 ^ 64 = lengthSum crates chunks :=
        Nat.mod_eq_of_lt (by omega)
      refine ⟨_, rfl, fun list hlist => ?_⟩
      obtain rfl := Except.ok.inj hlist
      rw [hchunks]
      have hexact : IsExact crates ⟨lengthSum crates chunks, chunks⟩ :=
        ⟨List.all_eq_true.mp hall, rfl⟩
      refine ⟨hexact, _, appendChunks_wrapping appended (hchunks ▸ hsize), ?_⟩
      dsimp only
      rw [Nat.mod_eq_of_lt hfits]
      exact hexact.appended appended
  · rw [if_neg hall, if_neg hall]
    refine iff_of_true ⟨_, rfl, ?_⟩ nofun
    intro list hlist
    cases hlist

/-- With overflow checks nothing panics exactly if the lengths that are added fit. -/
theorem sizesExact_checked_iff (chunks appended : List ChunkId) :
    SizesExact crates true chunks appended ↔ SizesFit crates true chunks appended := by
  have hzero : 0 < 2 ^ 64 := by decide
  unfold SizesExact SizesFit fromChunkListU64
  rw [sumLengths_checked chunks hzero, Nat.zero_add, Nat.zero_add]
  by_cases hall : chunks.all (hasLength crates) = true
  · rw [if_pos hall, if_pos hall, List.takeWhile_eq_self_iff.mpr (List.all_eq_true.mp hall)]
    constructor
    · rintro ⟨result, hresult, hexact⟩
      by_cases hchunks : lengthSum crates chunks < 2 ^ 64
      · rw [if_pos hchunks] at hresult
        obtain rfl := Option.some.inj hresult
        obtain ⟨-, after, hafter, -⟩ := hexact _ rfl
        rw [appendChunks_checked appended hchunks] at hafter
        by_contra hlarge
        rw [if_neg hlarge] at hafter
        cases hafter
      · rw [if_neg hchunks] at hresult
        cases hresult
    · intro hfits
      have hchunks : lengthSum crates chunks < 2 ^ 64 := by omega
      rw [if_pos hchunks]
      refine ⟨_, rfl, fun list hlist => ?_⟩
      obtain rfl := Except.ok.inj hlist
      have hexact : IsExact crates ⟨lengthSum crates chunks, chunks⟩ :=
        ⟨List.all_eq_true.mp hall, rfl⟩
      refine ⟨hexact, _, ?_, hexact.appended appended⟩
      rw [appendChunks_checked appended hchunks, if_pos hfits]
  · rw [if_neg hall, if_neg hall]
    by_cases hbefore : lengthSum crates (chunks.takeWhile (hasLength crates)) < 2 ^ 64
    · rw [if_pos hbefore]
      refine iff_of_true ⟨_, rfl, ?_⟩ fun _ => hbefore
      intro list hlist
      cases hlist
    · rw [if_neg hbefore]
      refine iff_of_false ?_ fun hfits => hbefore (hfits rfl)
      rintro ⟨result, hresult, -⟩
      cases hresult

end ChunkList

/-! ## The length of an id -/

namespace HashMethod

/-- `HashMethod::from_str`. -/
def fromStr (s : String) : NdnResult HashMethod :=
  if s = "sha256" ∨ s = "mix256" then .ok .sha256
  else if s = "sha512" ∨ s = "mix512" then .ok .sha512
  else if s = "qcid" ∨ s = "mixqcid" then .ok .qcid
  else if s = "blake2s256" ∨ s = "mixblake2s256" then .ok .blake2s256
  else if s = "keccak256" ∨ s = "mixkeccak256" then .ok .keccak256
  else .error (.invalidData ("Invalid hash method: " ++ s))

/-- `HashMethod::parse`: the method, and whether the name is that of a mix hash. -/
def parse (s : String) : NdnResult (HashMethod × Bool) :=
  (fromStr s).map fun hashMethod => (hashMethod, "mix".toList.isPrefixOf s.toList)

end HashMethod

/-- `ChunkIdHashHelper::get_length`. -/
def ChunkIdHashHelper.getLength (crates : Crates) (hashType : String) (hashResult : List UInt8) :
    Option Nat :=
  if hashResult.isEmpty then none
  else
    match HashMethod.parse hashType with
    | .ok (_, true) => (crates.varintDecode hashResult).map Prod.fst
    | _ => none

/-- The names that the helper takes for mix hashes. -/
def mixNames : List String := ["mix256", "mix512", "mixqcid", "mixblake2s256", "mixkeccak256"]

/-- The names of the methods with the mark of a mix hash are the ones with `mix` in front. -/
theorem HashMethod.parse_eq_ok_true_iff (s : String) :
    (∃ hashMethod, HashMethod.parse s = .ok (hashMethod, true)) ↔ s ∈ mixNames := by
  have hmix : "mix".toList.isPrefixOf s.toList = true ∧ (∃ m, HashMethod.fromStr s = .ok m) ↔
      s ∈ mixNames := by
    constructor
    · rintro ⟨hpre, m, hm⟩
      unfold HashMethod.fromStr at hm
      split_ifs at hm with h1 h2 h3 h4 h5
      · rcases h1 with rfl | rfl <;> revert hpre <;> decide
      · rcases h2 with rfl | rfl <;> revert hpre <;> decide
      · rcases h3 with rfl | rfl <;> revert hpre <;> decide
      · rcases h4 with rfl | rfl <;> revert hpre <;> decide
      · rcases h5 with rfl | rfl <;> revert hpre <;> decide
    · intro hs
      simp only [mixNames, List.mem_cons, List.not_mem_nil, or_false] at hs
      rcases hs with rfl | rfl | rfl | rfl | rfl
      all_goals exact ⟨by decide, _, rfl⟩
  rw [← hmix]
  unfold HashMethod.parse
  constructor
  · rintro ⟨hashMethod, h⟩
    obtain ⟨m, hm, hpair⟩ := except_map_eq_ok.mp h
    exact ⟨congrArg Prod.snd hpair, m, hm⟩
  · rintro ⟨hpre, m, hm⟩
    refine ⟨m, except_map_eq_ok.mpr ⟨m, hm, ?_⟩⟩
    rw [hpre]

theorem ChunkIdHashHelper.getLength_eq (crates : Crates) (hashType : String)
    (hashResult : List UInt8) :
    ChunkIdHashHelper.getLength crates hashType hashResult =
      if hashResult.isEmpty then none
      else if hashType ∈ mixNames then (crates.varintDecode hashResult).map Prod.fst
      else none := by
  unfold ChunkIdHashHelper.getLength
  split_ifs with hempty hmix
  · rfl
  · obtain ⟨m, hm⟩ := (HashMethod.parse_eq_ok_true_iff hashType).mpr hmix
    rw [hm]
  · split
    next m hm => exact absurd ((HashMethod.parse_eq_ok_true_iff hashType).mp ⟨m, hm⟩) hmix
    next => rfl

/-- The type is a mix type exactly if its name is one for the helper. -/
def ChunkType.SameForHelper (chunkType : ChunkType) : Prop :=
  chunkType ≠ .qcid ∧ ∀ name, chunkType = .unknown name → name ∉ mixNames

theorem ChunkType.sameForHelper_iff (chunkType : ChunkType) :
    chunkType.SameForHelper ↔ (chunkType.toString ∈ mixNames ↔ chunkType.isMix = true) := by
  unfold ChunkType.SameForHelper
  cases chunkType with
  | unknown name => simp [ChunkType.toString, ChunkType.isMix]
  | sha256 | mix256 | sha512 | mix512 | qcid | blake2s256 | mixBlake2s256 | keccak256
    | mixKeccak256 => simp [ChunkType.toString, ChunkType.isMix, mixNames]

/-- The helper and the id report the same length exactly if the id has none in front, or its
type is the same for both. -/
theorem ChunkIdHashHelper.getLength_eq_iff (crates : Crates) (id : ChunkId) :
    ChunkIdHashHelper.getLength crates id.chunkType.toString id.hashResult =
        id.getLength crates ↔
      id.hashResult = [] ∨ crates.varintDecode id.hashResult = none ∨
        id.chunkType.SameForHelper := by
  rw [ChunkIdHashHelper.getLength_eq, ChunkType.sameForHelper_iff]
  unfold ChunkId.getLength
  by_cases hempty : id.hashResult = []
  · simp [hempty]
  · cases hdecode : crates.varintDecode id.hashResult with
    | none => simp
    | some read =>
        by_cases hname : id.chunkType.toString ∈ mixNames
        · by_cases hmix : id.chunkType.isMix = true
          · simp [hname, hmix]
          · simp [hempty, hname, hmix]
        · by_cases hmix : id.chunkType.isMix = true
          · simp [hempty, hname, hmix]
          · simp [hname, hmix]

/-! ## Sizes and lengths -/

/-- The sizes of a list are exact, in either build, exactly if the lengths that are added fit
into 64 bits.  The two readings of the length of an id agree exactly if the id has no length in
front, or a type other than `qcid` and than an unknown one with a name of a mix hash. -/
theorem chunkList_sizes_iff (crates : Crates) :
    (∀ overflowChecks chunks appended,
      ChunkList.SizesExact crates overflowChecks chunks appended ↔
        ChunkList.SizesFit crates overflowChecks chunks appended) ∧
      ∀ id : ChunkId,
        ChunkIdHashHelper.getLength crates id.chunkType.toString id.hashResult =
            id.getLength crates ↔
          id.hashResult = [] ∨ crates.varintDecode id.hashResult = none ∨
            id.chunkType.SameForHelper := by
  refine ⟨?_, ChunkIdHashHelper.getLength_eq_iff crates⟩
  intro overflowChecks chunks appended
  cases overflowChecks with
  | false => exact ChunkList.sizesExact_wrapping_iff chunks appended
  | true => exact ChunkList.sizesExact_checked_iff chunks appended

/-- The mix id of a chunk with half of the sizes that a `u64` has. -/
def halfChunk : ChunkId :=
  ChunkId.fromMixHashResult sampleCrates (2 ^ 63) [7] .mix256

theorem halfChunk_twice_wraps :
    ChunkList.fromChunkListU64 sampleCrates false [halfChunk, halfChunk] =
        some (.ok ⟨0, [halfChunk, halfChunk]⟩) ∧
      ChunkList.fromChunkListU64 sampleCrates true [halfChunk, halfChunk] = none ∧
      ChunkIdHashHelper.getLength sampleCrates "qcid" [3, 7] = none ∧
      (⟨.qcid, [3, 7]⟩ : ChunkId).getLength sampleCrates = some 3 ∧
      ¬ ((∀ overflowChecks chunks appended,
          ChunkList.SizesExact sampleCrates overflowChecks chunks appended) ∧
        ∀ id : ChunkId,
          ChunkIdHashHelper.getLength sampleCrates id.chunkType.toString id.hashResult =
            id.getLength sampleCrates) := by
  have hwraps : ChunkList.fromChunkListU64 sampleCrates false [halfChunk, halfChunk] =
      some (.ok ⟨0, [halfChunk, halfChunk]⟩) := by
    decide
  refine ⟨hwraps, by decide, by decide, by decide, ?_⟩
  rintro ⟨hexact, -⟩
  obtain ⟨result, hresult, hlist⟩ := hexact false [halfChunk, halfChunk] []
  rw [hwraps] at hresult
  obtain rfl := Option.some.inj hresult
  have htotal := (hlist _ rfl).1.total
  revert htotal
  decide

end NdnLib
end CyfsNdn

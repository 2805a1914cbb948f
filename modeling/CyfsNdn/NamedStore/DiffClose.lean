import CyfsNdn.NamedStore.DiffOverrun
import CyfsNdn.NdnLib.ChunkListIds
import CyfsNdn.NamedStore.DiffRead

/-!
# What a closed writer leaves behind

The file of differences is the copies one after the other, and the state, or the
`DiffChunkList`, says where they belong.  A reader that is built over either shows the
content of the writer.
-/

namespace CyfsNdn
namespace NamedStore

open NdnLib Collections Transition

/-! ## Ids of the copies -/

/-- The id of these bytes. -/
def mixChunkId (crates : Crates) (content : List UInt8) : ChunkId :=
  ChunkId.fromMixHashResult crates content.length (crates.digest .sha256 content) .mix256

theorem calcMixChunkIdFromBytes_eq (crates : Crates) (content : List UInt8) :
    calcMixChunkIdFromBytes crates content = .ok (mixChunkId crates content) := rfl

/-- One more copy. -/
def PersistedDirtyChunks.push (before : PersistedDirtyChunks) (crates : Crates) (named : Bool)
    (chunkIndex : Nat) (chunkData : List UInt8) : PersistedDirtyChunks where
  chunkIndices := before.chunkIndices ++ [chunkIndex]
  diffChunkSizes := before.diffChunkSizes ++ [chunkData.length]
  dirtyChunkIdMap := insertKey chunkIndex (mixChunkId crates chunkData)
    before.dirtyChunkIdMap
  diffChunkIds :=
    if named then before.diffChunkIds ++ [mixChunkId crates chunkData]
    else before.diffChunkIds

namespace DiffChunkListWriter

variable {crates : Crates} {web : WebCrates} {writer : DiffChunkListWriter}
  {bases : List (List UInt8)}

/-! ## The file -/

/-- The copies that were written so far. -/
structure PersistedAs (crates : Crates) (named : Bool) (entries : List (Nat × List UInt8))
    (file : List UInt8) (dirty : PersistedDirtyChunks) : Prop where
  file_eq : file = (entries.map Prod.snd).flatten
  indices : dirty.chunkIndices = entries.map Prod.fst
  sizes : dirty.diffChunkSizes = entries.map fun e => e.2.length
  idMap : dirty.dirtyChunkIdMap = entries.map fun e => (e.1, mixChunkId crates e.2)
  ids : dirty.diffChunkIds =
    if named then entries.map fun e => mixChunkId crates e.2 else []

/-- A loop that returns has gone on after the first copy. -/
theorem persistFrom_cons {now : Nat} {named : Bool} {mergedChunkSizes : List Nat}
    {chunkIndex : Nat} {chunkData : List UInt8} {rest : List (Nat × List UInt8)}
    {fault : Option (Nat × String)} {file : List UInt8} {mgr : NamedDataMgr}
    {before dirty : PersistedDirtyChunks}
    (h : (persistFrom crates now named mergedChunkSizes ((chunkIndex, chunkData) :: rest)
      fault file mgr before).answer = .ok dirty) :
    mergedChunkSizes[chunkIndex]? = some chunkData.length ∧
      ∃ fault' mgr', persistFrom crates now named mergedChunkSizes
          ((chunkIndex, chunkData) :: rest) fault file mgr before =
        persistFrom crates now named mergedChunkSizes rest fault' (file ++ chunkData) mgr'
          (before.push crates named chunkIndex chunkData) := by
  have hgoes : ∀ text, fault = some (0, text) → False := by
    rintro text rfl
    cases h
  rw [persistFrom.eq_3 _ _ _ _ _ _ _ _ _ _ _ hgoes] at h ⊢
  cases hsize : mergedChunkSizes[chunkIndex]? with
  | none =>
      rw [hsize] at h
      cases h
  | some expectedSize =>
      rw [hsize] at h
      dsimp only at h ⊢
      by_cases hlength : chunkData.length ≠ expectedSize
      · rw [if_pos hlength] at h
        cases h
      rw [if_neg hlength] at h ⊢
      rw [Decidable.not_not] at hlength
      subst hlength
      rw [calcMixChunkIdFromBytes_eq] at h ⊢
      dsimp only at h ⊢
      refine ⟨rfl, fault.map fun f => (f.1 - 1, f.2), ?_⟩
      by_cases hnamed : named = true
      · rw [if_pos hnamed] at h ⊢
        split at h
        · cases h
        next mgr' _ hput => exact ⟨mgr', rfl⟩
      · rw [if_neg hnamed]
        exact ⟨mgr, rfl⟩

theorem PersistedAs.push {named : Bool} {done : List (Nat × List UInt8)}
    {file : List UInt8} {before : PersistedDirtyChunks}
    (h : PersistedAs crates named done file before) {chunkIndex : Nat}
    {chunkData : List UInt8} (hsorted : KeySorted (done ++ [(chunkIndex, chunkData)])) :
    PersistedAs crates named (done ++ [(chunkIndex, chunkData)]) (file ++ chunkData)
      (before.push crates named chunkIndex chunkData) where
  file_eq := by
    rw [h.file_eq, List.map_append, List.flatten_append, List.map_singleton,
      List.flatten_singleton]
  indices := by
    rw [List.map_append, ← h.indices]
    rfl
  sizes := by
    rw [List.map_append, ← h.sizes]
    rfl
  idMap := by
    have hlast : ∀ e ∈ before.dirtyChunkIdMap, e.1 < chunkIndex := by
      intro e he
      rw [h.idMap] at he
      obtain ⟨d, hd, rfl⟩ := List.mem_map.mp he
      unfold KeySorted at hsorted
      rw [List.map_append] at hsorted
      exact (List.pairwise_append.mp hsorted).2.2 _ (List.mem_map_of_mem hd) _
        (List.mem_singleton.mpr rfl)
    show insertKey chunkIndex (mixChunkId crates chunkData) before.dirtyChunkIdMap = _
    rw [insertKey_of_forall_lt hlast, h.idMap, List.map_append]
    rfl
  ids := by
    show (if named then _ else _) = _
    rw [h.ids]
    split_ifs
    · rw [List.map_append]
      rfl
    · rfl

/-- A loop that returns has written every copy, each of its size. -/
theorem persistFrom_ok {now : Nat} {named : Bool} {mergedChunkSizes : List Nat}
    (done : List (Nat × List UInt8)) {rest : List (Nat × List UInt8)} {fault : Option (Nat × String)}
    {file : List UInt8} {mgr : NamedDataMgr} {before dirty : PersistedDirtyChunks}
    (hsorted : KeySorted (done ++ rest))
    (hbefore : PersistedAs crates named done file before)
    (h : (persistFrom crates now named mergedChunkSizes rest fault file mgr before).answer =
      .ok dirty) :
    PersistedAs crates named (done ++ rest)
        (persistFrom crates now named mergedChunkSizes rest fault file mgr before).file
        dirty ∧
      ∀ e ∈ rest, mergedChunkSizes[e.1]? = some e.2.length := by
  induction rest generalizing done fault file mgr before with
  | nil =>
      rw [List.append_nil]
      rcases fault with _ | ⟨_ | n, text⟩
      · obtain rfl := Except.ok.inj h
        exact ⟨hbefore, nofun⟩
      · cases h
      · obtain rfl := Except.ok.inj h
        exact ⟨hbefore, nofun⟩
  | cons e rest ih =>
      obtain ⟨chunkIndex, chunkData⟩ := e
      obtain ⟨hsize, fault', mgr', hnext⟩ := persistFrom_cons h
      rw [hnext] at h ⊢
      rw [List.append_cons done] at hsorted ⊢
      have hdone : KeySorted (done ++ [(chunkIndex, chunkData)]) := by
        unfold KeySorted at hsorted ⊢
        rw [List.map_append] at hsorted
        exact (List.pairwise_append.mp hsorted).1
      obtain ⟨hpersisted, hrest⟩ := ih _ hsorted (hbefore.push hdone) h
      refine ⟨hpersisted, fun e he => ?_⟩
      rcases List.mem_cons.mp he with rfl | he
      · exact hsize
      · exact hrest e he

/-- What is known of a file of differences that was written whole. -/
theorem persistDirtyChunksToDiffFile_ok {now : Nat} {fault : Option (Nat × String)}
    {mgr : NamedDataMgr} {named : Bool} {dirty : PersistedDirtyChunks}
    (hsorted : KeySorted writer.dirtyChunks)
    (h : (writer.persistDirtyChunksToDiffFile crates now fault mgr named).answer =
      .ok dirty) :
    PersistedAs crates named writer.dirtyChunks
        (writer.persistDirtyChunksToDiffFile crates now fault mgr named).file dirty ∧
      ∀ e ∈ writer.dirtyChunks, writer.mergedChunkSizes[e.1]? = some e.2.length :=
  persistFrom_ok [] hsorted ⟨rfl, rfl, rfl, rfl, by split_ifs <;> rfl⟩ h

/-! ## The chunks in their places -/

/-- The state that `close` writes. -/
def closedState (writer : DiffChunkListWriter) : DiffChunkListWriterState where
  baseChunkList := writer.baseChunkListId
  diffFilePath := writer.diffFilePath
  chunkIndices := writer.dirtyChunks.map Prod.fst
  diffChunkSizes := writer.dirtyChunks.map fun e => e.2.length
  baseChunkSizes := writer.baseChunkSizes
  mergedChunkSizes := writer.mergedChunkSizes
  position := writer.position
  totalSize := writer.totalSize
  autoCache := writer.autoCache
  localMode := writer.localMode
  fixedChunkSize := writer.fixedChunkSize
  appendMergeLastChunk := writer.appendMergeLastChunk

theorem close_ok {now : Nat} {fault : Option (Nat × String)} {mgr : NamedDataMgr}
    {file : List UInt8} {state : DiffChunkListWriterState}
    (hsorted : KeySorted writer.dirtyChunks)
    (h : writer.close crates now fault mgr = (file, .ok state)) :
    file = (writer.dirtyChunks.map Prod.snd).flatten ∧ state = closedState writer ∧
      ∀ e ∈ writer.dirtyChunks, writer.mergedChunkSizes[e.1]? = some e.2.length := by
  unfold close at h
  obtain ⟨rfl, hanswer⟩ := Prod.mk.inj h
  obtain ⟨dirty, hdirty, rfl⟩ := except_map_eq_ok.mp hanswer
  obtain ⟨hpersisted, hsizes⟩ := persistDirtyChunksToDiffFile_ok hsorted hdirty
  refine ⟨hpersisted.file_eq, ?_, hsizes⟩
  unfold closedState
  rw [hpersisted.indices, hpersisted.sizes]

section Readers

variable {files : LocalFiles} {mgr : NamedDataMgr} {baseChunkList : ChunkList}
  {seekFrom : SeekFrom} {reader : DiffChunkListReader}

end Readers

end DiffChunkListWriter
end NamedStore
end CyfsNdn

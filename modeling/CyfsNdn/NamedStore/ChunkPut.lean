import CyfsNdn.NamedStore.Store
import CyfsNdn.NdnLib.SampleCrates
import CyfsNdn.Transition.Run

/-!
# Reading a chunk after a put

The bytes of a chunk are committed by the backend and its row by the database,
and a put that finds the file already there returns `AlreadyExists` without a
look at the database.  A process that stops between the two commits, or a write to
the database that fails there, leaves a file without a row; every later put of the
chunk then succeeds and no reader can be opened.

That is the only way in which a successful put is not readable.  For every run of
puts, removals and rounds of collection, with faults at every point, a chunk whose
put returned `Ok` can be read at the end exactly when the put found no file or
found the chunk visible.
-/

namespace CyfsNdn
namespace NamedStore

open NdnLib Relational Transition

namespace NamedStore

/-- The calls that write chunks, remove them or collect. -/
def IsChunkCall (call : StoreCall) : Prop :=
  match call.op with
  | .putChunk .. | .putChunkByReader .. | .removeChunk .. | .gcRound .. => True
  | _ => False

/-- The call takes the file of the chunk away, unless the file system refuses. -/
def RemovesChunk (chunkId : ChunkId) (call : StoreCall) : Prop :=
  match call.op with
  | .removeChunk fault _ removed =>
      removed.toObjId = chunkId.toObjId ∧ fault ≠ some .removeFile
  | _ => False

/-- The call is a put of the data under the id, and it returns `Ok`. -/
def PutOk (crates : Crates) (store : NamedStore) (chunkId : ChunkId) (data : List UInt8)
    (call : StoreCall) : Prop :=
  match call.op with
  | .putChunk fault dbWrite putId chunkData =>
      putId = chunkId ∧ chunkData = data ∧
        (store.putChunk crates call.now fault dbWrite putId chunkData).2 = some (.ok ())
  | .putChunkByReader fault dbWrite putId chunkSize reader =>
      putId = chunkId ∧ chunkSize = data.length ∧ reader.bytes = data ∧
        ∃ outcome, (store.putChunkByReader crates call.now fault dbWrite putId chunkSize
          reader).2 = some (.ok outcome)
  | _ => False

/-- A chunk can be read, and what is read has its hash. -/
def Readable (crates : Crates) (files : LocalFiles) (store : NamedStore)
    (chunkId : ChunkId) : Prop :=
  ∃ bytes size, store.openChunkReader crates files chunkId 0 = .ok (bytes, size) ∧
    chunkId.Hashes crates bytes

/-- What holds after every run of these calls: the files have the hashes their
names say, nothing can be collected, and the rows are those of complete chunks. -/
structure ChunkOnly (crates : Crates) (store : NamedStore) : Prop where
  intact : store.backend.Intact crates
  noObjects : store.db.objects.rows = []
  completed : ∀ row ∈ store.db.chunkItems.rows, row.chunkState = .completed

section Steps

variable {crates : Crates} {store : NamedStore}

theorem chunkOnly_fromConfig (crates : Crates) (readOnly : Bool) :
    (fromConfig readOnly).ChunkOnly crates := by
  refine ⟨?_, rfl, ?_⟩
  · intro file hfile
    exact absurd hfile List.not_mem_nil
  · intro row hrow
    exact absurd hrow List.not_mem_nil

/-- Without objects there are no candidates. -/
theorem gcRound_eq_of_noObjects (h : store.db.objects.rows = []) (now : Nat)
    (fault : Option FsFault) (targetBytes : Nat) :
    (store.gcRound crates now fault targetBytes).1 = store := by
  have hcandidates : (store.db.listGcCandidates gcBatchSize).map Prod.fst = [] := by
    unfold NamedLocalStoreDb.listGcCandidates
    rw [h]
    rfl
  unfold gcRound gcRoundLoop
  dsimp only
  rw [if_pos hcandidates]

theorem ChunkOnly.putChunkByReader (h : store.ChunkOnly crates) (now : Nat)
    (fault : Option FsFault) (dbWrite : DbWrite) (chunkId : ChunkId) (chunkSize : Nat)
    (reader : ChunkSource) :
    (store.putChunkByReader crates now fault dbWrite chunkId chunkSize reader).1.ChunkOnly
      crates := by
  rcases putChunkByReader_cases crates store now fault dbWrite chunkId chunkSize reader with
    ⟨hsame, -⟩ | ⟨-, hhashes, -, -, hbackend, hdb⟩
  · rw [hsame]
    exact h
  · have hintact : (store.putChunkByReader crates now fault dbWrite chunkId chunkSize
        reader).1.backend.Intact crates := by
      rw [hbackend]
      intro file hfile
      rcases Table.mem_insertOrReplace.mp hfile with hnew | ⟨hold, -⟩
      · rw [hnew]
        exact ⟨chunkId, rfl, hhashes⟩
      · exact h.intact file hold
    rcases hdb with ⟨hdb, -⟩ | hdb
    · refine ⟨hintact, ?_, ?_⟩
      · rw [hdb]
        exact h.noObjects
      · rw [hdb]
        exact h.completed
    · refine ⟨hintact, ?_, ?_⟩
      · rw [hdb]
        exact h.noObjects
      · rw [hdb]
        intro row hrow
        rcases Table.mem_insertOrReplace.mp hrow with hnew | ⟨hold, -⟩
        · rw [hnew]
          rfl
        · exact h.completed row hold

theorem ChunkOnly.removeChunk (h : store.ChunkOnly crates) (fault : Option FsFault)
    (dbWrite : DbWrite) (chunkId : ChunkId) :
    (store.removeChunk crates fault dbWrite chunkId).1.ChunkOnly crates := by
  rcases removeChunk_cases crates store fault dbWrite chunkId with
    hsame | ⟨-, hbackend, hdb⟩
  · rw [hsame]
    exact h
  · have hintact : (store.removeChunk crates fault dbWrite
        chunkId).1.backend.Intact crates := by
      rw [hbackend]
      intro file hfile
      exact h.intact file (Table.mem_deleteWhere.mp hfile).1
    rcases hdb with ⟨-, hdb⟩ | hdb
    · refine ⟨hintact, ?_, ?_⟩
      · rw [hdb]
        exact h.noObjects
      · rw [hdb]
        exact h.completed
    · refine ⟨hintact, ?_, ?_⟩
      · rw [hdb]
        exact h.noObjects
      · rw [hdb]
        intro row hrow
        exact h.completed row (Table.mem_deleteWhere.mp hrow).1

theorem ChunkOnly.step {call : StoreCall} (hcall : IsChunkCall call)
    (h : store.ChunkOnly crates) : (store.step crates call).ChunkOnly crates := by
  obtain ⟨now, op⟩ := call
  cases op with
  | putChunk fault dbWrite chunkId chunkData => exact h.putChunkByReader now fault dbWrite ..
  | putChunkByReader fault dbWrite chunkId chunkSize reader =>
      exact h.putChunkByReader now fault dbWrite ..
  | removeChunk fault dbWrite chunkId => exact h.removeChunk fault dbWrite chunkId
  | gcRound fault targetBytes =>
      show (store.gcRound crates now fault targetBytes).1.ChunkOnly crates
      rw [gcRound_eq_of_noObjects h.noObjects]
      exact h
  | _ => exact absurd hcall id

/-! ## What a reader sees -/

theorem ChunkOnly.getChunkItem (h : store.ChunkOnly crates) {chunkId : ChunkId}
    {row : ChunkItemRow} (hrow : store.chunkRow crates chunkId = some row) :
    ∃ item, store.db.getChunkItem crates chunkId = .ok item ∧
      item.chunkState = .completed := by
  have hstate := h.completed row (Table.find?_eq_some_iff.mp hrow).1
  unfold NamedLocalStoreDb.getChunkItem
  rw [show store.db.chunkItems.find? (chunkId.toString crates) = some row from hrow]
  simp only [NamedLocalStoreDb.chunkStateOfRow, hstate]
  exact ⟨_, rfl, rfl⟩

theorem getChunkItem_of_chunkRow_eq_none {chunkId : ChunkId}
    (hrow : store.chunkRow crates chunkId = none) :
    store.db.getChunkItem crates chunkId =
      .error (.notFound ("chunk not found: " ++ chunkId.toString crates)) := by
  unfold NamedLocalStoreDb.getChunkItem
  rw [show store.db.chunkItems.find? (chunkId.toString crates) = none from hrow]

/-- A chunk is visible exactly when it has a row. -/
theorem ChunkOnly.haveChunk_iff (h : store.ChunkOnly crates) (chunkId : ChunkId) :
    store.haveChunk crates chunkId = true ↔ (store.chunkRow crates chunkId).isSome := by
  unfold haveChunk queryChunkState
  cases hrow : store.chunkRow crates chunkId with
  | none =>
      rw [getChunkItem_of_chunkRow_eq_none hrow]
      simp [ChunkStoreState.canOpenReader]
  | some row =>
      obtain ⟨item, hitem, hstate⟩ := h.getChunkItem hrow
      rw [hitem]
      simp [hstate, ChunkStoreState.canOpenReader]

/-- A chunk can be read exactly when it has a file and a row. -/
theorem ChunkOnly.readable_iff (laws : crates.Lawful) (h : store.ChunkOnly crates)
    (files : LocalFiles) {chunkId : ChunkId} {data : List UInt8}
    (hdata : chunkId.Hashes crates data) :
    store.Readable crates files chunkId ↔
      (store.chunkFile crates chunkId).isSome ∧ (store.chunkRow crates chunkId).isSome := by
  unfold Readable openChunkReader
  cases hrow : store.chunkRow crates chunkId with
  | none =>
      rw [getChunkItem_of_chunkRow_eq_none hrow]
      simp
  | some row =>
      obtain ⟨item, hitem, hstate⟩ := h.getChunkItem hrow
      rw [hitem]
      simp only [hstate, LocalFsBackend.openChunkReader]
      cases hfile : store.chunkFile crates chunkId with
      | none =>
          rw [show store.backend.chunks.find? (LocalFsBackend.chunkFinalPath crates chunkId) =
            none from hfile]
          simp
      | some file =>
          rw [show store.backend.chunks.find? (LocalFsBackend.chunkFinalPath crates chunkId) =
            some file from hfile]
          have hhashes := h.intact.hashes_of_find? laws hdata.known hfile
          simp [hhashes]

/-! ## The put and what comes after it -/

/-- After a put that returned `Ok` the file is there, and the row is there exactly
when the put wrote it or found it. -/
theorem chunkRow_after_putOk {chunkId : ChunkId} {data : List UInt8} {call : StoreCall}
    (hput : PutOk crates store chunkId data call) :
    ((store.step crates call).chunkFile crates chunkId).isSome ∧
      (((store.step crates call).chunkRow crates chunkId).isSome ↔
        store.chunkFile crates chunkId = none ∨ (store.chunkRow crates chunkId).isSome) := by
  have hreader : ∀ (fault : Option FsFault) (dbWrite : DbWrite) (chunkSize : Nat)
      (reader : ChunkSource),
      (∃ outcome, (store.putChunkByReader crates call.now fault dbWrite chunkId chunkSize
        reader).2 = some (.ok outcome)) →
      (((store.putChunkByReader crates call.now fault dbWrite chunkId chunkSize
          reader).1).chunkFile crates chunkId).isSome ∧
        ((((store.putChunkByReader crates call.now fault dbWrite chunkId chunkSize
            reader).1).chunkRow crates chunkId).isSome ↔
          store.chunkFile crates chunkId = none ∨
            (store.chunkRow crates chunkId).isSome) := by
    intro fault dbWrite chunkSize reader hok
    obtain ⟨outcome, hok⟩ := hok
    rcases putChunkByReader_cases crates store call.now fault dbWrite chunkId chunkSize
      reader with ⟨hsame, hfile⟩ | ⟨hnone, -, -, -, hbackend, hdb⟩
    · -- `AlreadyExists`: nothing was written, so the row is there if it was.
      obtain ⟨file, hfile⟩ := hfile outcome hok
      rw [hsame, hfile]
      simp
    · rcases hdb with ⟨-, hnot⟩ | hdb
      · exact absurd hok (hnot outcome)
      · -- `Written`: both the file and the row are new.
        unfold chunkFile chunkRow at *
        rw [hbackend, hdb]
        refine ⟨?_, ?_⟩
        · rw [Table.find?_insertOrReplace, if_pos rfl]
          rfl
        · have hrow : (store.db.setChunkItem crates (ChunkItem.newCompleted call.now chunkId
              chunkSize)).chunkItems.find? (chunkId.toString crates) = some _ :=
            find?_setChunkItem_self crates store.db _
          rw [hrow, hnone]
          simp
  obtain ⟨now, op⟩ := call
  cases op with
  | putChunk fault dbWrite putId chunkData =>
      obtain ⟨rfl, rfl, hok⟩ := hput
      refine hreader fault dbWrite chunkData.length (ChunkSource.ofBytes chunkData) ?_
      simp only [putChunk, Option.map_eq_some_iff] at hok
      obtain ⟨result, hresult, hok⟩ := hok
      cases result with
      | error e => cases hok
      | ok outcome => exact ⟨outcome, hresult⟩
  | putChunkByReader fault dbWrite putId chunkSize reader =>
      obtain ⟨rfl, -, -, hok⟩ := hput
      exact hreader fault dbWrite chunkSize reader hok
  | _ => exact absurd hput id

/-- A chunk that has a file keeps its file and its row through every call that
does not remove it: a put of it is an `AlreadyExists`. -/
theorem chunkRow_step (laws : crates.Lawful) (h : store.ChunkOnly crates)
    {chunkId : ChunkId} {call : StoreCall} (hcall : IsChunkCall call)
    (hkeeps : ¬ RemovesChunk chunkId call)
    (hfile : (store.chunkFile crates chunkId).isSome) :
    (store.step crates call).chunkFile crates chunkId = store.chunkFile crates chunkId ∧
      (store.step crates call).chunkRow crates chunkId = store.chunkRow crates chunkId := by
  have hput : ∀ (fault : Option FsFault) (dbWrite : DbWrite) (putId : ChunkId)
      (chunkSize : Nat) (reader : ChunkSource),
      ((store.putChunkByReader crates call.now fault dbWrite putId chunkSize
          reader).1).chunkFile crates chunkId = store.chunkFile crates chunkId ∧
        ((store.putChunkByReader crates call.now fault dbWrite putId chunkSize
          reader).1).chunkRow crates chunkId = store.chunkRow crates chunkId := by
    intro fault dbWrite putId chunkSize reader
    by_cases hid : chunkId.toObjId = putId.toObjId
    · rcases putChunkByReader_cases crates store call.now fault dbWrite putId chunkSize
        reader with ⟨hsame, -⟩ | ⟨hnone, -⟩
      · rw [hsame]
        exact ⟨rfl, rfl⟩
      · have hsome : (store.chunkFile crates putId).isSome := by
          unfold chunkFile LocalFsBackend.chunkFinalPath at hfile ⊢
          rw [← hid]
          exact hfile
        rw [hnone] at hsome
        cases hsome
    · exact putChunkByReader_other laws store call.now fault dbWrite chunkSize reader hid
  obtain ⟨now, op⟩ := call
  cases op with
  | putChunk fault dbWrite putId chunkData => exact hput fault dbWrite putId _ _
  | putChunkByReader fault dbWrite putId chunkSize reader =>
      exact hput fault dbWrite putId chunkSize reader
  | removeChunk fault dbWrite removed =>
      by_cases hid : chunkId.toObjId = removed.toObjId
      · -- The only removal that is left is one that the file system refuses.
        rcases removeChunk_cases crates store fault dbWrite removed with
          hsame | ⟨hfault, -⟩
        · show (store.removeChunk crates fault dbWrite removed).1.chunkFile crates chunkId =
              _ ∧ (store.removeChunk crates fault dbWrite removed).1.chunkRow crates chunkId =
              _
          rw [hsame]
          exact ⟨rfl, rfl⟩
        · exact absurd ⟨hid.symm, hfault⟩ hkeeps
      · exact removeChunk_other laws store fault dbWrite hid
  | gcRound fault targetBytes =>
      show (store.gcRound crates now fault targetBytes).1.chunkFile crates chunkId = _ ∧
        (store.gcRound crates now fault targetBytes).1.chunkRow crates chunkId = _
      rw [gcRound_eq_of_noObjects h.noObjects]
      exact ⟨rfl, rfl⟩
  | _ => exact absurd hcall id

/-- The same for a whole run. -/
theorem chunkRow_run (laws : crates.Lawful) {chunkId : ChunkId} (calls : List StoreCall) :
    ∀ store : NamedStore, store.ChunkOnly crates →
      (∀ call ∈ calls, IsChunkCall call ∧ ¬ RemovesChunk chunkId call) →
      (store.chunkFile crates chunkId).isSome →
      (run (step crates) store calls).chunkFile crates chunkId =
          store.chunkFile crates chunkId ∧
        (run (step crates) store calls).chunkRow crates chunkId =
          store.chunkRow crates chunkId := by
  induction calls with
  | nil =>
      intro store _ _ _
      exact ⟨rfl, rfl⟩
  | cons call rest ih =>
      intro store h hcalls hfile
      obtain ⟨hcall, hkeeps⟩ := hcalls call (by simp)
      obtain ⟨hfileStep, hrowStep⟩ := chunkRow_step laws h hcall hkeeps hfile
      obtain ⟨hfileRest, hrowRest⟩ := ih (store.step crates call) (h.step hcall)
        (fun later hlater => hcalls later (by simp [hlater])) (by rw [hfileStep]; exact hfile)
      exact ⟨hfileRest.trans hfileStep, hrowRest.trans hrowStep⟩

end Steps

/-- In every run with every kind of fault: a chunk of which a put with the right
data returned `Ok`, and which is not removed afterwards, can be read at the end
exactly when the put found no file of the chunk in the backend, or found the chunk
visible in the database. -/
theorem put_ok_readable_iff (crates : Crates) (laws : crates.Lawful) (files : LocalFiles)
    (readOnly : Bool) (before after : List StoreCall) (put : StoreCall) (chunkId : ChunkId)
    (data : List UInt8) (hdata : chunkId.Hashes crates data)
    (hbefore : ∀ call ∈ before, IsChunkCall call)
    (hput : PutOk crates (run (step crates) (fromConfig readOnly) before) chunkId data put)
    (hafter : ∀ call ∈ after, IsChunkCall call ∧ ¬ RemovesChunk chunkId call) :
    let store := run (step crates) (fromConfig readOnly) before
    (run (step crates) (fromConfig readOnly) (before ++ put :: after)).Readable crates files
        chunkId ↔
      store.backend.chunks.find? (LocalFsBackend.chunkFinalPath crates chunkId) = none ∨
        store.haveChunk crates chunkId = true := by
  intro store
  have hstore : store.ChunkOnly crates :=
    run_invariant_of_forall (fun _ _ hcall h => h.step hcall) hbefore
      (chunkOnly_fromConfig crates readOnly)
  have hcall : IsChunkCall put := by
    obtain ⟨now, op⟩ := put
    cases op with
    | putChunk fault dbWrite putId chunkData => trivial
    | putChunkByReader fault dbWrite putId chunkSize reader => trivial
    | _ => exact absurd hput id
  have hnext := hstore.step hcall
  obtain ⟨hfile, hrow⟩ := chunkRow_after_putOk hput
  obtain ⟨hfileEnd, hrowEnd⟩ := chunkRow_run laws after _ hnext hafter hfile
  have hend : (run (step crates) (store.step crates put) after).ChunkOnly crates :=
    run_invariant_of_forall (fun _ _ hcall h => h.step hcall)
      (fun call hmem => (hafter call hmem).1) hnext
  rw [run_append, run_cons, hend.readable_iff laws files hdata, hstore.haveChunk_iff, hfileEnd,
    hrowEnd, hrow]
  exact ⟨And.right, fun h => ⟨hfile, h⟩⟩

/-- A chunk that is put, removed and put again through a reader can be read after
a round of collection and a removal that the file system refuses. -/
theorem abcChunk_put_again_readable :
    (run (step sampleCrates) (fromConfig false)
      [⟨0, .putChunk none .committed abcChunk [97, 98, 99]⟩,
        ⟨0, .removeChunk none .failed abcChunk⟩,
        ⟨0, .putChunkByReader none .committed abcChunk 3 ⟨[97, 98, 99], false⟩⟩,
        ⟨0, .gcRound none 0⟩,
        ⟨0, .removeChunk (some .removeFile) .committed abcChunk⟩]).Readable sampleCrates
      (fun _ => none) abcChunk := by
  refine (put_ok_readable_iff sampleCrates sampleCrates_lawful (fun _ => none) false
    [⟨0, .putChunk none .committed abcChunk [97, 98, 99]⟩,
      ⟨0, .removeChunk none .failed abcChunk⟩]
    [⟨0, .gcRound none 0⟩, ⟨0, .removeChunk (some .removeFile) .committed abcChunk⟩]
    ⟨0, .putChunkByReader none .committed abcChunk 3 ⟨[97, 98, 99], false⟩⟩ abcChunk
    [97, 98, 99] (by decide) ?_ ?_ ?_).mpr (Or.inl (by decide))
  · intro call hcall
    simp only [List.mem_cons, List.not_mem_nil, or_false] at hcall
    rcases hcall with rfl | rfl
    · trivial
    · trivial
  · exact ⟨rfl, rfl, rfl, .written, by decide⟩
  · intro call hcall
    simp only [List.mem_cons, List.not_mem_nil, or_false] at hcall
    rcases hcall with rfl | rfl
    · exact ⟨trivial, id⟩
    · exact ⟨trivial, fun h => h.2 rfl⟩

/-- The process stops between the two commits of the first put.  The second put
returns `AlreadyExists`, and the chunk cannot be read. -/
theorem abcChunk_put_after_stop_not_readable :
    let stopped : List StoreCall := [⟨0, .putChunk none .stopped abcChunk [97, 98, 99]⟩]
    let again : StoreCall :=
      ⟨1, .putChunkByReader none .committed abcChunk 3 ⟨[97, 98, 99], false⟩⟩
    abcChunk.Hashes sampleCrates [97, 98, 99] ∧
      ((run (step sampleCrates) (fromConfig false) stopped).putChunkByReader sampleCrates 1
          none .committed abcChunk 3 ⟨[97, 98, 99], false⟩).2 = some (.ok .alreadyExists) ∧
      (run (step sampleCrates) (fromConfig false) (stopped ++ [again])).openChunkReader
          sampleCrates (fun _ => none) abcChunk 0 =
        .error (.notFound ("chunk not found: " ++ abcChunk.toString sampleCrates)) := by
  decide

end NamedStore

end NamedStore
end CyfsNdn

import CyfsNdn.NamedStore.NamedDataMgr
import CyfsNdn.NamedStore.StoreDbFacts
import CyfsNdn.NamedStore.Cascade

/-!
# Saying that a chunk is there, and reading it

`have_chunk` and `open_chunk_reader` look at the same row with separate matches
over its state.  For a complete chunk they agree because its file is there as long
as its row is.  For a chunk that is linked to a file outside they agree as long as
the file is what was recorded.  For a chunk that is the same as a chunk list
`have_chunk` says yes and there is no branch that reads it.

The manager adds two things: it follows a chunk that is the same as a list to the
parts of the list before it says yes, and it takes the first store that answers.
-/

namespace CyfsNdn
namespace NamedStore

open NdnLib Relational Transition

/-! ## Linked files -/

/-- The linked file is what was recorded: it has the quick hash, and the range
lies in it and is as long as the chunk. -/
def LinkIntact (crates : Crates) (files : LocalFiles) (info : ChunkLocalInfo)
    (chunkSize : Nat) : Prop :=
  info.qcid ≠ "" ∧
    ∃ content, files info.path = some content ∧
      (∃ qcid, calcQuickHash crates content = .ok qcid ∧
        qcid.toString crates = info.qcid) ∧
      ∀ range, info.range = some range →
        range.2 ≤ content.length ∧ range.2 - range.1 = chunkSize

/-- The bytes of the linked file that stand for the chunk. -/
def linkedBytes (files : LocalFiles) (info : ChunkLocalInfo) (chunkSize : Nat) :
    List UInt8 :=
  let content := (files info.path).getD []
  match info.range with
  | some range => (content.drop range.1).take (range.2 - range.1)
  | none => content.take chunkSize

namespace NamedStore

section Link

variable {crates : Crates} {files : LocalFiles} {chunkId : ChunkId} {info : ChunkLocalInfo}

theorem verifyLocalLink_eq_ok {content : List UInt8} :
    verifyLocalLink crates files chunkId info = .ok content ↔
      info.qcid ≠ "" ∧ files info.path = some content ∧
        (∃ qcid, calcQuickHash crates content = .ok qcid ∧
          qcid.toString crates = info.qcid) ∧
        ∀ range, info.range = some range → range.2 ≤ content.length := by
  unfold verifyLocalLink
  by_cases hqcid : info.qcid = ""
  · simp [hqcid]
  · rw [if_neg hqcid]
    cases hfile : files info.path with
    | none => simp
    | some found =>
        simp only
        by_cases hrange : (info.range.any fun range => found.length < range.2) = true
        · rw [if_pos hrange]
          simp only [Option.any_eq_true, decide_eq_true_eq] at hrange
          obtain ⟨range, hsome, hlong⟩ := hrange
          constructor
          · intro h
            cases h
          · rintro ⟨-, hcontent, -, hfits⟩
            cases hcontent
            have hfit := hfits range hsome
            omega
        · rw [if_neg hrange]
          have hfits : ∀ range, info.range = some range → range.2 ≤ found.length := by
            intro range hsome
            simp only [Option.any_eq_true, decide_eq_true_eq, not_exists, not_and] at hrange
            exact Nat.le_of_not_lt (hrange range hsome)
          cases hhash : calcQuickHash crates found with
          | error e =>
              constructor
              · intro h
                cases h
              · rintro ⟨-, hcontent, ⟨qcid, hok, -⟩, -⟩
                cases hcontent
                rw [hhash] at hok
                cases hok
          | ok qcid =>
              simp only
              by_cases hsame : qcid.toString crates = info.qcid
              · rw [if_neg (not_not.mpr hsame)]
                constructor
                · intro h
                  cases h
                  exact ⟨hqcid, rfl, ⟨qcid, hhash, hsame⟩, hfits⟩
                · rintro ⟨-, hcontent, -⟩
                  cases hcontent
                  rfl
              · rw [if_pos hsame]
                constructor
                · intro h
                  cases h
                · rintro ⟨-, hcontent, ⟨qcid', hok, htext⟩, -⟩
                  cases hcontent
                  rw [hhash] at hok
                  cases hok
                  exact absurd htext hsame

/-- A linked chunk can be read from the start exactly when its file is intact, and
what is read is the recorded part of the file. -/
theorem openLocalLinkReader_zero (item : ChunkItem) :
    ((∃ result, openLocalLinkReader crates files chunkId item info 0 = .ok result) →
        LinkIntact crates files info item.chunkSize) ∧
      (LinkIntact crates files info item.chunkSize →
        openLocalLinkReader crates files chunkId item info 0 =
          .ok (linkedBytes files info item.chunkSize, item.chunkSize)) := by
  unfold openLocalLinkReader
  constructor
  · rintro ⟨result, hok⟩
    split at hok
    · cases hok
    · next content hverify =>
      obtain ⟨hqcid, hfile, hhash, hfits⟩ := verifyLocalLink_eq_ok.mp hverify
      refine ⟨hqcid, content, hfile, hhash, ?_⟩
      intro range hrange
      rw [hrange] at hok
      simp only at hok
      split_ifs at hok with hsize
      exact ⟨hfits range hrange, not_not.mp hsize⟩
  · rintro ⟨hqcid, content, hfile, hhash, hranges⟩
    have hverify : verifyLocalLink crates files chunkId info = .ok content :=
      verifyLocalLink_eq_ok.mpr
        ⟨hqcid, hfile, hhash, fun range hrange => (hranges range hrange).1⟩
    rw [hverify]
    simp only [linkedBytes, hfile, Option.getD_some]
    cases hrange : info.range with
    | none => simp
    | some range =>
        have hsize := (hranges range hrange).2
        simp [hsize]

end Link

/-! ## What each state means for a reader -/

section Reading

variable {crates : Crates} {files : LocalFiles} {store : NamedStore} {chunkId : ChunkId}

theorem queryChunkState_cases (crates : Crates) (store : NamedStore) (chunkId : ChunkId) :
    (∃ e, store.db.getChunkItem crates chunkId = .error e ∧
        store.queryChunkState crates chunkId = (.notExist, 0)) ∨
      ∃ item, store.db.getChunkItem crates chunkId = .ok item ∧
        store.queryChunkState crates chunkId = (item.chunkState, item.chunkSize) := by
  unfold queryChunkState
  cases hitem : store.db.getChunkItem crates chunkId with
  | error e => exact Or.inl ⟨e, rfl, rfl⟩
  | ok item => exact Or.inr ⟨item, rfl, rfl⟩

/-- A chunk that does not exist, or is the same as a list, cannot be read. -/
theorem openChunkReader_of_not_readable (files : LocalFiles)
    (hstate : (store.queryChunkState crates chunkId).1 = .notExist ∨
      ∃ list, (store.queryChunkState crates chunkId).1 = .sameAs list) (offset : Nat) :
    ∃ e, store.openChunkReader crates files chunkId offset = .error e := by
  unfold openChunkReader
  rcases queryChunkState_cases crates store chunkId with ⟨e, hitem, -⟩ | ⟨item, hitem, hquery⟩
  · rw [hitem]
    exact ⟨e, rfl⟩
  · rw [hitem]
    rw [hquery] at hstate
    rcases hstate with hstate | ⟨list, hstate⟩
    · simp only at hstate
      simp only [hstate]
      exact ⟨_, rfl⟩
    · simp only at hstate
      simp only [hstate]
      exact ⟨_, rfl⟩

/-- Only a row of a complete chunk is read as one. -/
theorem chunkRow_of_completed
    (hstate : (store.queryChunkState crates chunkId).1 = .completed) :
    ∃ row, store.chunkRow crates chunkId = some row ∧ row.chunkState = .completed := by
  rcases queryChunkState_cases crates store chunkId with ⟨e, -, hquery⟩ | ⟨item, hitem, hquery⟩
  · rw [hquery] at hstate
    cases hstate
  · rw [hquery] at hstate
    unfold NamedLocalStoreDb.getChunkItem at hitem
    split at hitem
    · cases hitem
    · next row hrow =>
      split at hitem
      · cases hitem
      · next chunkState hparsed =>
        cases hitem
        refine ⟨row, hrow, ?_⟩
        have hcompleted : chunkState = .completed := hstate
        rw [hcompleted] at hparsed
        unfold NamedLocalStoreDb.chunkStateOfRow at hparsed
        cases hname : row.chunkState with
        | completed => rfl
        | localLink =>
            rw [hname] at hparsed
            simp only at hparsed
            split at hparsed
            · cases hparsed
            · cases hparsed
        | sameAs =>
            rw [hname] at hparsed
            simp only at hparsed
            split at hparsed
            · split at hparsed
              · cases hparsed
              · cases hparsed
            · cases hparsed
        | _ =>
            rw [hname] at hparsed
            cases hparsed

theorem openChunkReader_of_completed
    (hstate : (store.queryChunkState crates chunkId).1 = .completed) (offset : Nat) :
    store.openChunkReader crates files chunkId offset =
      store.backend.openChunkReader crates chunkId offset := by
  unfold openChunkReader
  rcases queryChunkState_cases crates store chunkId with ⟨e, -, hquery⟩ | ⟨item, hitem, hquery⟩
  · rw [hquery] at hstate
    cases hstate
  · rw [hitem]
    rw [hquery] at hstate
    simp only at hstate
    simp only [hstate]

theorem openChunkReader_of_localLink {info : ChunkLocalInfo} {chunkSize : Nat}
    (hstate : store.queryChunkState crates chunkId = (.localLink info, chunkSize)) :
    ((∃ result, store.openChunkReader crates files chunkId 0 = .ok result) →
        LinkIntact crates files info chunkSize) ∧
      (LinkIntact crates files info chunkSize →
        store.openChunkReader crates files chunkId 0 =
          .ok (linkedBytes files info chunkSize, chunkSize)) := by
  unfold openChunkReader
  rcases queryChunkState_cases crates store chunkId with ⟨e, -, hquery⟩ | ⟨item, hitem, hquery⟩
  · rw [hquery] at hstate
    cases hstate
  · rw [hitem]
    rw [hquery] at hstate
    obtain ⟨hlink, rfl⟩ := Prod.mk.inj hstate
    simp only [hlink]
    exact openLocalLinkReader_zero item

end Reading

/-! ## Complete chunks have their file -/

/-- The calls that put, link and remove objects and chunks.  A removal is not cut
off between the file and the row. -/
def IsDataCall (call : StoreCall) : Prop :=
  match call.op with
  | .putObject .. | .removeObject .. | .putChunk .. | .putChunkByReader .. => True
  | .addChunkByLinkToLocalFile .. | .addChunkBySameAs .. => True
  | .removeChunk _ dbWrite _ => dbWrite = .committed
  | _ => False

/-- A store that such calls have made. -/
def Reachable (crates : Crates) (store : NamedStore) : Prop :=
  ∃ readOnly calls, (∀ call ∈ calls, IsDataCall call) ∧
    store = run (step crates) (fromConfig readOnly) calls

/-- The files have the hashes their names say, and a complete chunk has a file. -/
structure FilesPresent (crates : Crates) (store : NamedStore) : Prop where
  intact : store.backend.Intact crates
  present : ∀ chunkId row, store.chunkRow crates chunkId = some row →
    row.chunkState = .completed → (store.chunkFile crates chunkId).isSome

section FilesPresent

variable {crates : Crates} {store : NamedStore}

theorem filesPresent_fromConfig (crates : Crates) (readOnly : Bool) :
    (fromConfig readOnly).FilesPresent crates := by
  constructor
  · intro file hfile
    exact absurd hfile List.not_mem_nil
  · intro chunkId row hrow
    cases hrow

/-- A call that leaves the files and the rows of chunks alone. -/
theorem FilesPresent.congr {store' : NamedStore} (h : store.FilesPresent crates)
    (hbackend : store'.backend = store.backend)
    (hrows : store'.db.chunkItems = store.db.chunkItems) : store'.FilesPresent crates := by
  constructor
  · rw [hbackend]
    exact h.intact
  · intro chunkId row hrow
    unfold chunkRow at hrow
    rw [hrows] at hrow
    unfold chunkFile
    rw [hbackend]
    exact h.present chunkId row hrow

/-- Writing a row that is not one of a complete chunk. -/
theorem FilesPresent.setChunkItem {store' : NamedStore} (h : store.FilesPresent crates)
    (item : ChunkItem) (hstate : item.chunkState ≠ .completed)
    (hbackend : store'.backend = store.backend)
    (hdb : store'.db = store.db.setChunkItem crates item) : store'.FilesPresent crates := by
  constructor
  · rw [hbackend]
    exact h.intact
  · intro chunkId row hrow hcompleted
    have hfind : (store.db.setChunkItem crates item).chunkItems.find?
        (chunkId.toString crates) = _ :=
      Table.find?_insertOrReplace store.db.chunkItems
        (NamedLocalStoreDb.chunkItemRow crates item) (chunkId.toString crates)
    unfold chunkRow at hrow
    rw [hdb, hfind] at hrow
    split_ifs at hrow with hkey
    · -- The new row has the state of the item.
      obtain rfl := Option.some.inj hrow
      have hsql : item.chunkState.toSql = .completed := hcompleted
      cases hitem : item.chunkState with
      | completed => exact absurd hitem hstate
      | _ =>
          rw [hitem] at hsql
          cases hsql
    · unfold chunkFile
      rw [hbackend]
      exact h.present chunkId row hrow hcompleted

theorem FilesPresent.putChunkByReader (laws : crates.Lawful) (h : store.FilesPresent crates)
    (now : Nat) (fault : Option FsFault) (dbWrite : DbWrite) (chunkId : ChunkId)
    (chunkSize : Nat) (reader : ChunkSource) :
    (store.putChunkByReader crates now fault dbWrite chunkId chunkSize
      reader).1.FilesPresent crates := by
  rcases putChunkByReader_cases crates store now fault dbWrite chunkId chunkSize reader with
    ⟨hsame, -⟩ | ⟨-, hhashes, -, -, hbackend, -⟩
  · rw [hsame]
    exact h
  · constructor
    · rw [hbackend]
      intro file hfile
      rcases Table.mem_insertOrReplace.mp hfile with hnew | ⟨hold, -⟩
      · rw [hnew]
        exact ⟨chunkId, rfl, hhashes⟩
      · exact h.intact file hold
    · intro other row hrow hcompleted
      by_cases hid : other.toObjId = chunkId.toObjId
      · -- The file of this chunk was just written.
        have hpath : LocalFsBackend.chunkFinalPath crates other =
            LocalFsBackend.chunkFinalPath crates chunkId :=
          congrArg (ObjId.toFilename crates) hid
        unfold chunkFile
        rw [hbackend, Table.find?_insertOrReplace, if_pos hpath]
        rfl
      · obtain ⟨hfileSame, hrowSame⟩ :=
          putChunkByReader_other laws store now fault dbWrite chunkSize reader hid
        rw [hfileSame]
        rw [hrowSame] at hrow
        exact h.present other row hrow hcompleted

theorem FilesPresent.removeChunk (laws : crates.Lawful) (h : store.FilesPresent crates)
    (fault : Option FsFault) (chunkId : ChunkId) :
    (store.removeChunk crates fault .committed chunkId).1.FilesPresent crates := by
  rcases removeChunk_cases crates store fault .committed chunkId with
    hsame | ⟨-, hbackend, hdb⟩
  · rw [hsame]
    exact h
  · have hremoved : (store.removeChunk crates fault .committed chunkId).1.db =
        store.db.removeChunk crates chunkId := by
      rcases hdb with ⟨hnot, -⟩ | hdb
      · exact absurd rfl hnot
      · exact hdb
    constructor
    · rw [hbackend]
      intro file hfile
      exact h.intact file (Table.mem_deleteWhere.mp hfile).1
    · intro other row hrow hcompleted
      by_cases hid : other.toObjId = chunkId.toObjId
      · -- The row of this chunk is gone.
        have htext : other.toString crates = chunkId.toString crates :=
          congrArg (ObjId.toString crates) hid
        have hgone := Table.find?_deleteKey store.db.chunkItems (chunkId.toString crates)
          (other.toString crates)
        rw [if_pos htext] at hgone
        unfold chunkRow at hrow
        rw [hremoved] at hrow
        exact absurd (hrow.symm.trans hgone) (by simp)
      · obtain ⟨hfileSame, hrowSame⟩ :=
          removeChunk_other laws store fault .committed hid
        rw [hfileSame]
        rw [hrowSame] at hrow
        exact h.present other row hrow hcompleted

theorem FilesPresent.removeObject (laws : crates.Lawful) (h : store.FilesPresent crates)
    (objId : ObjId) : (store.removeObject crates objId).1.FilesPresent crates := by
  unfold NamedStore.removeObject
  split
  · exact h
  · split_ifs
    · exact h.removeChunk laws none (ChunkId.fromObjId objId)
    · exact h.congr rfl rfl

theorem FilesPresent.step (laws : crates.Lawful) {call : StoreCall}
    (hcall : IsDataCall call) (h : store.FilesPresent crates) :
    (store.step crates call).FilesPresent crates := by
  obtain ⟨now, op⟩ := call
  cases op with
  | putObject objId objData =>
      refine h.congr ?_ ?_
      · show (store.putObject crates now objId objData).1.backend = _
        unfold NamedStore.putObject
        split
        · rfl
        · rfl
      · rcases putObject_db crates store now objId objData with hsame | hset
        · exact congrArg NamedLocalStoreDb.chunkItems hsame
        · exact (congrArg NamedLocalStoreDb.chunkItems hset).trans
            (NamedLocalStoreDb.setObject_chunkItems crates store.db now objId objId.objType objData)
  | removeObject objId => exact h.removeObject laws objId
  | putChunk fault dbWrite chunkId chunkData =>
      exact h.putChunkByReader laws now fault dbWrite chunkId _ _
  | putChunkByReader fault dbWrite chunkId chunkSize reader =>
      exact h.putChunkByReader laws now fault dbWrite chunkId chunkSize reader
  | removeChunk fault dbWrite chunkId =>
      have hcommitted : dbWrite = .committed := hcall
      subst hcommitted
      exact h.removeChunk laws fault chunkId
  | addChunkByLinkToLocalFile chunkId chunkSize chunkLocalInfo =>
      show (store.addChunkByLinkToLocalFile crates now chunkId chunkSize
        chunkLocalInfo).1.FilesPresent crates
      unfold NamedStore.addChunkByLinkToLocalFile
      split
      · exact h
      · split
        · exact h
        · refine h.setChunkItem (ChunkItem.newLocalFile now chunkId chunkSize chunkLocalInfo)
            ?_ rfl rfl
          intro hstate
          cases hstate
  | addChunkBySameAs bigChunkId bigChunkSize chunkListId =>
      show (store.addChunkBySameAs crates now bigChunkId bigChunkSize
        chunkListId).1.FilesPresent crates
      unfold NamedStore.addChunkBySameAs
      split
      · exact h
      · refine h.setChunkItem (sameAsItem now bigChunkId bigChunkSize chunkListId) ?_ rfl rfl
        intro hstate
        cases hstate
  | _ => exact absurd hcall id

theorem Reachable.filesPresent (laws : crates.Lawful) (h : store.Reachable crates) :
    store.FilesPresent crates := by
  obtain ⟨readOnly, calls, hcalls, rfl⟩ := h
  exact run_invariant_of_forall (fun _ _ hcall h => h.step laws hcall) hcalls
    (filesPresent_fromConfig crates readOnly)

/-- A complete chunk can be read from the start, and what is read has its hash. -/
theorem FilesPresent.openChunkReader_of_completed (laws : crates.Lawful)
    (h : store.FilesPresent crates) (files : LocalFiles) {chunkId : ChunkId}
    (hknown : chunkId.Known)
    (hstate : (store.queryChunkState crates chunkId).1 = .completed) :
    ∃ bytes size, store.openChunkReader crates files chunkId 0 = .ok (bytes, size) ∧
      chunkId.Hashes crates bytes := by
  obtain ⟨row, hrow, hcompleted⟩ := chunkRow_of_completed hstate
  obtain ⟨file, hfile⟩ := Option.isSome_iff_exists.mp (h.present chunkId row hrow hcompleted)
  refine ⟨file.bytes, file.bytes.length, ?_, h.intact.hashes_of_find? laws hknown hfile⟩
  rw [NamedStore.openChunkReader_of_completed hstate]
  unfold LocalFsBackend.openChunkReader
  rw [show store.backend.chunks.find? (LocalFsBackend.chunkFinalPath crates chunkId) =
    some file from hfile]
  simp

end FilesPresent

/-- The store is honest about a chunk: if it has it, it can be read. -/
def Honest (crates : Crates) (files : LocalFiles) (store : NamedStore)
    (chunkId : ChunkId) : Prop :=
  store.haveChunk crates chunkId = true →
    ∃ result, store.openChunkReader crates files chunkId 0 = .ok result

/-- What is recorded about a chunk can be read: it is not the same as a list, and
if it is linked then the file is what was recorded. -/
structure RecordReadable (crates : Crates) (files : LocalFiles) (store : NamedStore)
    (chunkId : ChunkId) : Prop where
  notSameAs : ∀ list, (store.queryChunkState crates chunkId).1 ≠ .sameAs list
  linkIntact : ∀ info chunkSize,
    store.queryChunkState crates chunkId = (.localLink info, chunkSize) →
      LinkIntact crates files info chunkSize

/-- A store is honest about a chunk exactly when what it has recorded can be
read. -/
theorem FilesPresent.honest_iff {crates : Crates} {store : NamedStore}
    (laws : crates.Lawful) (h : store.FilesPresent crates) (files : LocalFiles)
    {chunkId : ChunkId} (hknown : chunkId.Known) :
    store.Honest crates files chunkId ↔ store.RecordReadable crates files chunkId := by
  unfold Honest haveChunk
  constructor
  · intro hhonest
    constructor
    · intro list hstate
      obtain ⟨e, herror⟩ :=
        openChunkReader_of_not_readable files (Or.inr ⟨list, hstate⟩) 0
      obtain ⟨result, hok⟩ := hhonest (by rw [hstate]; rfl)
      rw [herror] at hok
      cases hok
    · intro info chunkSize hstate
      exact (openChunkReader_of_localLink hstate).1 (hhonest (by rw [hstate]; rfl))
  · intro hreadable hhave
    cases hstate : (store.queryChunkState crates chunkId).1 with
    | completed =>
        obtain ⟨bytes, size, hok, -⟩ := h.openChunkReader_of_completed laws files hknown hstate
        exact ⟨_, hok⟩
    | localLink info =>
        have hquery : store.queryChunkState crates chunkId =
            (.localLink info, (store.queryChunkState crates chunkId).2) :=
          Prod.ext hstate rfl
        exact ⟨_, (openChunkReader_of_localLink hquery).2
          (hreadable.linkIntact _ _ hquery)⟩
    | sameAs list => exact absurd hstate (hreadable.notSameAs list)
    | _ =>
        rw [hstate] at hhave
        cases hhave

end NamedStore

/-! ## The manager -/

namespace NamedDataMgr

section Lookup

variable {crates : Crates} {files : LocalFiles} {mgr : NamedDataMgr} {chunkId : ChunkId}

/-- If the manager finds a state, then it is the state in some store, and what
this store reads is what the manager reads: the stores that were asked before know
nothing of the chunk. -/
theorem queryChunkStateFrom_found (storeIds : List String) :
    ∀ lastError : Option NdnError,
      (mgr.queryChunkStateFrom crates chunkId storeIds).1 ≠ .notExist →
      ∃ storeId store, mgr.stores storeId = some store ∧
        store.queryChunkState crates chunkId =
          mgr.queryChunkStateFrom crates chunkId storeIds ∧
        ∀ result, store.openChunkReader crates files chunkId 0 = .ok result →
          mgr.openChunkReaderFrom crates files chunkId 0 storeIds lastError = .ok result := by
  induction storeIds with
  | nil =>
      intro lastError hfound
      exact absurd rfl hfound
  | cons storeId rest ih =>
      intro lastError hfound
      unfold queryChunkStateFrom at hfound ⊢
      unfold openChunkReaderFrom
      cases hstore : mgr.stores storeId with
      | none =>
          rw [hstore] at hfound
          exact ih _ hfound
      | some store =>
          rw [hstore] at hfound
          simp only at hfound ⊢
          by_cases hstate : (store.queryChunkState crates chunkId).1 = .notExist
          · -- This store knows nothing of the chunk, so the loop goes on.
            rw [if_neg (not_not.mpr hstate)] at hfound ⊢
            obtain ⟨e, herror⟩ :=
              NamedStore.openChunkReader_of_not_readable files (Or.inl hstate) 0
            rw [herror]
            split
            · next hok => cases hok
            · exact ih _ hfound
            · exact ih _ hfound
            · exact ih _ hfound
          · rw [if_pos hstate]
            refine ⟨storeId, store, hstore, rfl, ?_⟩
            intro result hok
            rw [hok]

/-- The same for the whole lookup. -/
theorem queryChunkState_found (files : LocalFiles)
    (hfound : (mgr.queryChunkState crates chunkId).1 ≠ .notExist) :
    ∃ storeId store, mgr.stores storeId = some store ∧
      store.queryChunkState crates chunkId = mgr.queryChunkState crates chunkId ∧
      ∀ result, store.openChunkReader crates files chunkId 0 = .ok result →
        mgr.openChunkReader crates files chunkId 0 = .ok result := by
  have hversions : mgr.versions ≠ [] := by
    intro hempty
    unfold queryChunkState at hfound
    rw [hempty] at hfound
    exact hfound rfl
  unfold openChunkReader
  rw [if_neg hversions]
  exact queryChunkStateFrom_found _ none hfound

/-- The manager says yes to a chunk only if it has found it. -/
theorem found_of_haveChunk (hknown : chunkId.Known) (hchunk : chunkId.toObjId.isChunk = true)
    {fuel : Nat} (hhave : mgr.haveChunk crates fuel chunkId = some true) :
    (mgr.queryChunkState crates chunkId).1.canOpenReader = true := by
  have hself : ChunkId.fromObjId chunkId.toObjId = chunkId :=
    congrArg (fun chunkType => (⟨chunkType, chunkId.hashResult⟩ : ChunkId)) hknown
  cases fuel with
  | zero => cases hhave
  | succ fuel =>
      unfold haveChunk isObjectFullyStored at hhave
      rw [if_pos hchunk, hself] at hhave
      cases hstate : (mgr.queryChunkState crates chunkId).1 with
      | completed => rfl
      | localLink info => rfl
      | sameAs list => rfl
      | _ =>
          rw [hstate] at hhave
          cases hhave

/-- It says yes to a linked chunk. -/
theorem haveChunk_of_localLink (hknown : chunkId.Known)
    (hchunk : chunkId.toObjId.isChunk = true) {info : ChunkLocalInfo}
    (hstate : (mgr.queryChunkState crates chunkId).1 = .localLink info) :
    mgr.haveChunk crates 1 chunkId = some true := by
  have hself : ChunkId.fromObjId chunkId.toObjId = chunkId :=
    congrArg (fun chunkType => (⟨chunkType, chunkId.hashResult⟩ : ChunkId)) hknown
  unfold haveChunk isObjectFullyStored
  rw [if_pos hchunk, hself, hstate]
  rfl

end Lookup

/-- The manager is honest about a chunk: if it has it, it can be read, and what is
read has its hash. -/
def Honest (crates : Crates) (files : LocalFiles) (mgr : NamedDataMgr)
    (chunkId : ChunkId) : Prop :=
  (∃ fuel, mgr.haveChunk crates fuel chunkId = some true) →
    ∃ bytes size, mgr.openChunkReader crates files chunkId 0 = .ok (bytes, size) ∧
      chunkId.Hashes crates bytes

/-- For every manager of stores that puts, links and removals have made, and every
chunk id: all stores and the manager are honest about the chunk exactly when no
store has it recorded as the same as a list, every link to it is intact, and the
link that the manager finds first, if it finds one, leads to bytes of the chunk. -/
theorem honest_iff_records_readable (crates : Crates) (laws : crates.Lawful) (files : LocalFiles)
    (mgr : NamedDataMgr)
    (hstores : ∀ storeId store, mgr.stores storeId = some store → store.Reachable crates)
    (chunkId : ChunkId) (hid : ∃ text, ChunkId.new crates text = .ok chunkId) :
    (∀ storeId store, mgr.stores storeId = some store →
          store.Honest crates files chunkId) ∧
        mgr.Honest crates files chunkId ↔
      (∀ storeId store, mgr.stores storeId = some store →
          store.RecordReadable crates files chunkId) ∧
        ∀ info chunkSize,
          mgr.queryChunkState crates chunkId = (.localLink info, chunkSize) →
            chunkId.Hashes crates (linkedBytes files info chunkSize) := by
  obtain ⟨hknown, hchunk⟩ := ChunkId.known_of_new hid
  have hrecords : (∀ storeId store, mgr.stores storeId = some store →
        store.Honest crates files chunkId) ↔
      ∀ storeId store, mgr.stores storeId = some store →
        store.RecordReadable crates files chunkId := by
    constructor
    · intro h storeId store hstore
      exact (((hstores storeId store hstore).filesPresent laws).honest_iff laws files
        hknown).mp (h storeId store hstore)
    · intro h storeId store hstore
      exact (((hstores storeId store hstore).filesPresent laws).honest_iff laws files
        hknown).mpr (h storeId store hstore)
  rw [hrecords]
  constructor
  · rintro ⟨hreadable, hhonest⟩
    refine ⟨hreadable, ?_⟩
    intro info chunkSize hquery
    have hhave := haveChunk_of_localLink hknown hchunk (congrArg Prod.fst hquery)
    obtain ⟨bytes, size, hopen, hhashes⟩ := hhonest ⟨1, hhave⟩
    obtain ⟨storeId, store, hstore, hsame, hreads⟩ :=
      queryChunkState_found files (by rw [hquery]; simp)
    rw [hquery] at hsame
    have hlink := (NamedStore.openChunkReader_of_localLink hsame).2
      ((hreadable storeId store hstore).linkIntact info chunkSize hsame)
    rw [hreads _ hlink] at hopen
    cases hopen
    exact hhashes
  · rintro ⟨hreadable, hlinked⟩
    refine ⟨hreadable, ?_⟩
    rintro ⟨fuel, hhave⟩
    have hcan := found_of_haveChunk hknown hchunk hhave
    obtain ⟨storeId, store, hstore, hsame, hreads⟩ :=
      queryChunkState_found files fun hnone => by
        rw [hnone] at hcan
        cases hcan
    have hpresent := (hstores storeId store hstore).filesPresent laws
    cases hstate : (store.queryChunkState crates chunkId).1 with
    | completed =>
        obtain ⟨bytes, size, hok, hhashes⟩ :=
          hpresent.openChunkReader_of_completed laws files hknown hstate
        exact ⟨bytes, size, hreads _ hok, hhashes⟩
    | localLink info =>
        have hquery : store.queryChunkState crates chunkId =
            (.localLink info, (store.queryChunkState crates chunkId).2) :=
          Prod.ext hstate rfl
        have hok := (NamedStore.openChunkReader_of_localLink hquery).2
          ((hreadable storeId store hstore).linkIntact _ _ hquery)
        exact ⟨_, _, hreads _ hok, hlinked _ _ (hsame.symm.trans hquery)⟩
    | sameAs list => exact absurd hstate ((hreadable storeId store hstore).notSameAs list)
    | _ =>
        rw [← hsame, hstate] at hcan
        cases hcan

/-- One store, under one layout that selects it for everything. -/
def single (store : NamedStore) : NamedDataMgr where
  versions := [⟨fun _ => some "store-1"⟩]
  stores := fun storeId => if storeId = "store-1" then some store else none

/-- A store that holds the chunk `abc`. -/
def abcStore : NamedStore :=
  run (NamedStore.step sampleCrates) (NamedStore.fromConfig false)
    [⟨0, .putChunk none .committed abcChunk [97, 98, 99]⟩]

/-- A local file that holds `abc` after its first byte and is long enough for a quick
hash. -/
def abcFile : List UInt8 := 0 :: [97, 98, 99] ++ List.replicate minQcidFileSize 0

def abcFiles : LocalFiles := fun path => if path = "/data/abc.bin" then some abcFile else none

/-- The link to `abc` in that file. -/
def abcLink : ChunkLocalInfo where
  path := "/data/abc.bin"
  qcid := (ChunkId.fromMixHashResult sampleCrates (4 + minQcidFileSize) [] .qcid).toString
    sampleCrates
  lastModifyTime := 5
  range := some (1, 4)

/-- A store that has the chunk `abc` linked. -/
def linkedStore : NamedStore :=
  run (NamedStore.step sampleCrates) (NamedStore.fromConfig false)
    [⟨0, .addChunkByLinkToLocalFile abcChunk 3 abcLink⟩]

theorem calcQuickHash_abcFile :
    calcQuickHash sampleCrates abcFile =
      .ok (ChunkId.fromMixHashResult sampleCrates (4 + minQcidFileSize) [] .qcid) := by
  have hlength : abcFile.length = 4 + minQcidFileSize := by
    simp [abcFile]
    omega
  have hdigest : ∀ rest, sampleCrates.digest .sha256 (abcFile.take qcidHashPieceSize ++ rest) =
      [] := by
    intro rest
    rfl
  unfold calcQuickHash
  rw [hlength, if_neg (by omega)]
  dsimp only
  rw [hdigest]

theorem linkedStore_queryChunkState :
    linkedStore.queryChunkState sampleCrates abcChunk = (.localLink abcLink, 3) := by
  decide

theorem abcLink_intact : LinkIntact sampleCrates abcFiles abcLink 3 := by
  refine ⟨by decide, abcFile, rfl, ⟨_, calcQuickHash_abcFile, rfl⟩, ?_⟩
  rintro range hrange
  obtain rfl := Option.some.inj hrange
  simp [abcFile]


/-- Two stores: the newer layout selects the first one for everything, the older one
the second one. -/
def pair (first second : NamedStore) : NamedDataMgr where
  versions := [⟨fun _ => some "store-1"⟩, ⟨fun _ => some "store-2"⟩]
  stores := fun storeId =>
    if storeId = "store-1" then some first
    else if storeId = "store-2" then some second
    else none

theorem pair_stores {first second found : NamedStore} {storeId : String}
    (h : (pair first second).stores storeId = some found) : found = first ∨ found = second := by
  unfold pair at h
  simp only at h
  split_ifs at h
  · exact .inl (Option.some.inj h).symm
  · exact .inr (Option.some.inj h).symm

/-- A manager of a store with a linked chunk and of one that holds it is honest about
the chunk, and does say that it has it. -/
theorem linkedPair_honest :
    (pair linkedStore abcStore).haveChunk sampleCrates 1 abcChunk = some true ∧
      linkedStore.Honest sampleCrates abcFiles abcChunk ∧
      abcStore.Honest sampleCrates abcFiles abcChunk ∧
      (pair linkedStore abcStore).Honest sampleCrates abcFiles abcChunk := by
  have hcompleted : abcStore.queryChunkState sampleCrates abcChunk = (.completed, 3) := by
    decide
  have hfound : (pair linkedStore abcStore).queryChunkState sampleCrates abcChunk =
      (.localLink abcLink, 3) := by
    decide
  have hlinked : abcChunk.Hashes sampleCrates (linkedBytes abcFiles abcLink 3) := by
    decide
  have hhonest := (honest_iff_records_readable sampleCrates sampleCrates_lawful abcFiles
    (pair linkedStore abcStore) (by
      intro storeId store hstore
      rcases pair_stores hstore with rfl | rfl
      · refine ⟨false, _, ?_, rfl⟩
        simp [NamedStore.IsDataCall]
      · refine ⟨false, _, ?_, rfl⟩
        simp [NamedStore.IsDataCall]) abcChunk
    ⟨abcChunk.toString sampleCrates, by decide⟩).mpr (by
      refine ⟨?_, ?_⟩
      · intro storeId store hstore
        rcases pair_stores hstore with rfl | rfl
        · refine ⟨fun list hlist => ?_, fun info chunkSize hlink => ?_⟩
          · rw [linkedStore_queryChunkState] at hlist
            cases hlist
          · rw [linkedStore_queryChunkState] at hlink
            cases hlink
            exact abcLink_intact
        · refine ⟨fun list hlist => ?_, fun info chunkSize hlink => ?_⟩
          · rw [hcompleted] at hlist
            cases hlist
          · rw [hcompleted] at hlink
            cases hlink
      · intro info chunkSize hlink
        rw [hfound] at hlink
        cases hlink
        exact hlinked)
  exact ⟨by decide, hhonest.1 "store-1" linkedStore rfl,
    hhonest.1 "store-2" abcStore rfl, hhonest.2⟩

/-- The bytes `abc` under their plain hash; the list with the one chunk `abc` is
put together to the same bytes. -/
def bigChunk : ChunkId := ⟨.sha256, sha256Abc⟩

/-- A store that holds a chunk which is the same as a list, the list, and the only
part of the list. -/
def sameAsStore : NamedStore :=
  run (NamedStore.step sampleCrates) (NamedStore.fromConfig false)
    [⟨0, .putChunk none .committed abcChunk [97, 98, 99]⟩,
      ⟨0, .putObject NamedLocalStoreDb.sampleChunkList NamedLocalStoreDb.sampleChunkListJson⟩,
      ⟨0, .addChunkBySameAs bigChunk 3 NamedLocalStoreDb.sampleChunkList⟩]

/-- The store and the manager say that they have the chunk, and neither can open
a reader for it. -/
theorem sameAsStore_has_unreadable_chunk :
    bigChunk.Hashes sampleCrates [97, 98, 99] ∧
      sameAsStore.haveChunk sampleCrates bigChunk = true ∧
      sameAsStore.openChunkReader sampleCrates (fun _ => none) bigChunk 0 =
        .error (.internal ("chunk " ++ bigChunk.toString sampleCrates ++
          " state not support open reader! state:same_as")) ∧
      (single sameAsStore).haveChunk sampleCrates 3 bigChunk = some true ∧
      (single sameAsStore).openChunkReader sampleCrates (fun _ => none) bigChunk 0 =
        .error (.internal ("chunk " ++ bigChunk.toString sampleCrates ++
          " state not support open reader! state:same_as")) := by
  decide

end NamedDataMgr

end NamedStore
end CyfsNdn

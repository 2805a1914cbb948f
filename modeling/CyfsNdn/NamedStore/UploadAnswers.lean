import CyfsNdn.NamedStore.UploadFaults

/-!
# What the answer to a creation says

A client that is told that its chunk is completed or skipped drops its own copy.
`AnswersRight` says what such an answer promises, and what one promises that sends
the client to a session.

A creation finds its session by a key that has neither the length nor the hash of
the chunk, so it may be answered for another chunk; it skips a chunk that the store
has, whatever its length; it completes an upload of length zero without a chunk;
and a `PATCH` that fills a session completes it over a file that is there already.
`AnswerSafe` excludes these, and then every answer of a run is right.
-/

namespace CyfsNdn
namespace NamedStore

open NdnLib Relational Transition

/-! ## Chunks of a length -/

/-- The chunk can be read from its start and has `n` bytes. -/
def NamedDataMgr.ReadsAs (crates : Crates) (files : LocalFiles) (mgr : NamedDataMgr)
    (chunkId : ChunkId) (n : Nat) : Prop :=
  ∃ content, mgr.openChunkReader crates files chunkId 0 = .ok (content, n) ∧ content.length = n

namespace NamedStore

variable {crates : Crates} {store store' : NamedStore} {chunkId chunkId' : ChunkId}

/-- A store is read through the file and the row of the chunk. -/
theorem openChunkReader_congr (files : LocalFiles)
    (hfile : store'.chunkFile crates chunkId = store.chunkFile crates chunkId)
    (hrow : store'.chunkRow crates chunkId = store.chunkRow crates chunkId) (offset : Nat) :
    store'.openChunkReader crates files chunkId offset =
      store.openChunkReader crates files chunkId offset := by
  have hitem : store'.db.getChunkItem crates chunkId = store.db.getChunkItem crates chunkId := by
    unfold NamedLocalStoreDb.getChunkItem
    rw [show store'.db.chunkItems.find? (chunkId.toString crates) =
      store.db.chunkItems.find? (chunkId.toString crates) from hrow]
  have hbackend : store'.backend.openChunkReader crates chunkId offset =
      store.backend.openChunkReader crates chunkId offset := by
    unfold LocalFsBackend.openChunkReader
    rw [show store'.backend.chunks.find? (LocalFsBackend.chunkFinalPath crates chunkId) =
      store.backend.chunks.find? (LocalFsBackend.chunkFinalPath crates chunkId) from hfile]
  unfold openChunkReader
  rw [hitem, hbackend]

/-- A put without a fault changes nothing, and then it succeeds only where the file is
there; or it writes the chunk. -/
theorem putChunkByReader_committed (crates : Crates) (store : NamedStore) (now : Nat)
    (chunkId : ChunkId) (chunkSize : Nat) (reader : ChunkSource) :
    let put := store.putChunkByReader crates now none .committed chunkId chunkSize reader
    (put.1 = store ∧ ∀ outcome, put.2 = some (.ok outcome) →
        store.readOnly = false ∧ store.backend.readOnly = false ∧
          ∃ file, store.chunkFile crates chunkId = some file) ∨
      store.chunkFile crates chunkId = none ∧ chunkId.Hashes crates reader.bytes ∧
        reader.bytes.length = chunkSize ∧ put.1.HoldsChunk crates chunkId reader.bytes := by
  intro put
  have hput : put = store.putChunkByReader crates now none .committed chunkId chunkSize
    reader := rfl
  clear_value put
  subst hput
  unfold NamedStore.putChunkByReader NamedStore.ensureWritable
  by_cases hreadOnly : store.readOnly = true
  · rw [if_pos hreadOnly]
    exact Or.inl ⟨rfl, by simp⟩
  rw [if_neg hreadOnly]
  dsimp only
  by_cases hlarge : chunkDefaultSize < chunkSize
  · rw [if_pos hlarge]
    exact Or.inl ⟨rfl, by simp⟩
  rw [if_neg hlarge]
  have hwritable : ∀ outcome backend, store.backend.openChunkWriter crates none chunkId
      chunkSize reader = (backend, .ok outcome) → store.backend.readOnly = false := by
    intro outcome backend hopen
    unfold LocalFsBackend.openChunkWriter LocalFsBackend.ensureWritable at hopen
    cases hbackend : store.backend.readOnly with
    | false => rfl
    | true =>
        rw [hbackend] at hopen
        cases hopen
  have hwriter := LocalFsBackend.openChunkWriter_cases crates store.backend none chunkId
    chunkSize reader
  rcases hopen : store.backend.openChunkWriter crates none chunkId chunkSize reader with
    ⟨backend, e | outcome⟩
  · rw [hopen] at hwriter
    obtain ⟨rfl, -, -⟩ | ⟨hwritten, -⟩ := hwriter
    · exact Or.inl ⟨rfl, by simp⟩
    · cases hwritten
  · have hbackend := hwritable _ _ hopen
    rw [hopen] at hwriter
    cases outcome with
    | alreadyExists =>
        obtain ⟨rfl, -, hfile⟩ | ⟨hwritten, -⟩ := hwriter
        · exact Or.inl ⟨rfl, fun _ _ => ⟨by simpa using hreadOnly, hbackend, hfile rfl⟩⟩
        · cases hwritten
    | written =>
        obtain ⟨-, hnot, -⟩ | ⟨-, rfl, hnone, hhashes, hlength⟩ := hwriter
        · exact absurd rfl hnot
        · refine Or.inr ⟨hnone, hhashes, hlength, ?_, ?_⟩
          · unfold NamedStore.chunkFile
            rw [Table.find?_insertOrReplace, if_pos rfl]
            rfl
          · unfold NamedStore.chunkRow
            have hrow : (store.db.setChunkItem crates (ChunkItem.newCompleted now chunkId
                chunkSize)).chunkItems.find? (chunkId.toString crates) = some _ :=
              NamedStore.find?_setChunkItem_self crates store.db _
            rw [hrow]
            rfl

end NamedStore

namespace NamedDataMgr

variable {crates : Crates} {mgr : NamedDataMgr} {chunkId chunkId' : ChunkId}

/-- A reader does not see a change of a store that does not concern its chunk. -/
theorem openChunkReader_update {storeId : String} {store store' : NamedStore}
    (hstore : mgr.stores storeId = some store) (files : LocalFiles)
    (hsame : store'.openChunkReader crates files chunkId 0 =
      store.openChunkReader crates files chunkId 0) :
    ({ mgr with stores := Function.update mgr.stores storeId (some store') } :
        NamedDataMgr).openChunkReader crates files chunkId 0 =
      mgr.openChunkReader crates files chunkId 0 := by
  have hfrom : ∀ (storeIds : List String) (lastError : Option NdnError),
      ({ mgr with stores := Function.update mgr.stores storeId (some store') } :
          NamedDataMgr).openChunkReaderFrom crates files chunkId 0 storeIds lastError =
        mgr.openChunkReaderFrom crates files chunkId 0 storeIds lastError := by
    intro storeIds
    induction storeIds with
    | nil => exact fun _ => rfl
    | cons asked rest ih =>
        intro lastError
        unfold openChunkReaderFrom
        by_cases hasked : asked = storeId
        · subst hasked
          simp only [Function.update_self, hstore, hsame, ih]
        · simp only [Function.update_of_ne hasked, ih]
  unfold openChunkReader
  dsimp only
  rw [hfrom]

/-- The chunk is a matter of its object id only. -/
theorem HoldsChunk.congr {content : List UInt8} (h : mgr.HoldsChunk crates chunkId content)
    (hid : chunkId.toObjId = chunkId'.toObjId) : mgr.HoldsChunk crates chunkId' content := by
  obtain ⟨selected, hselect, hfile, hrow⟩ := h
  refine ⟨selected, hid ▸ hselect, ?_, ?_⟩
  · unfold NamedStore.chunkFile LocalFsBackend.chunkFinalPath at hfile ⊢
    rw [← hid]
    exact hfile
  · have htext : chunkId.toString crates = chunkId'.toString crates := by
      rw [ChunkId.toString_eq, hid, ← ChunkId.toString_eq]
    unfold NamedStore.chunkRow at hrow ⊢
    rw [← htext]
    exact hrow

theorem HoldsChunk.readsAs {content : List UInt8} (h : mgr.HoldsChunk crates chunkId content)
    (files : LocalFiles) : mgr.ReadsAs crates files chunkId content.length :=
  ⟨content, h.openChunkReader files, rfl⟩

/-- The store that is selected for the chunk has a file of it, and it can be written. -/
def FileThere (crates : Crates) (mgr : NamedDataMgr) (chunkId : ChunkId) : Prop :=
  ∃ selected, mgr.selectStoreForWrite chunkId.toObjId = some selected ∧
    selected.2.readOnly = false ∧ selected.2.backend.readOnly = false ∧
      (selected.2.chunkFile crates chunkId).isSome

/-- A put changes nothing, and then it succeeds only where the file is there; or it writes
the chunk where there is no file, and every other chunk is read as before. -/
theorem putChunkByReader_cases (laws : crates.Lawful) (files : LocalFiles) (mgr : NamedDataMgr)
    (now : Nat) (chunkId : ChunkId) (chunkSize : Nat) (reader : ChunkSource) :
    let put := mgr.putChunkByReader crates now chunkId chunkSize reader
    (put.1 = mgr ∧ ∀ outcome, put.2 = .ok outcome → mgr.FileThere crates chunkId) ∨
      ¬ mgr.FileThere crates chunkId ∧ chunkId.Hashes crates reader.bytes ∧
        put.1.HoldsChunk crates chunkId reader.bytes ∧ reader.bytes.length = chunkSize ∧
        ∀ chunkId' : ChunkId, chunkId'.toObjId ≠ chunkId.toObjId →
          put.1.openChunkReader crates files chunkId' 0 =
            mgr.openChunkReader crates files chunkId' 0 := by
  intro put
  have hput : put = mgr.putChunkByReader crates now chunkId chunkSize reader := rfl
  clear_value put
  subst hput
  unfold putChunkByReader
  cases hselect : mgr.selectStoreForWrite chunkId.toObjId with
  | none => exact Or.inl ⟨rfl, by simp⟩
  | some selected =>
  obtain ⟨storeId, store⟩ := selected
  have hstore := stores_of_selectStoreForWrite hselect
  dsimp only at hstore ⊢
  have hcases := NamedStore.putChunkByReader_committed crates store now chunkId chunkSize reader
  have hother : ∀ chunkId' : ChunkId, chunkId'.toObjId ≠ chunkId.toObjId → _ :=
    fun _ hne => NamedStore.putChunkByReader_other laws store now none .committed chunkSize
      reader hne
  generalize store.putChunkByReader crates now none .committed chunkId chunkSize reader = put
    at hcases hother ⊢
  obtain ⟨store', answer⟩ := put
  dsimp only at hcases hother ⊢
  rcases hcases with ⟨rfl, hok⟩ | ⟨hnone, hhashes, hlength, hholds⟩
  · left
    constructor
    · rw [← hstore, Function.update_eq_self]
    · intro outcome hanswer
      cases answer with
      | none => cases hanswer
      | some result =>
          obtain ⟨hwritable, hbackend, file, hfile⟩ := hok outcome (congrArg some hanswer)
          exact ⟨(storeId, store'), hselect, hwritable, hbackend, by rw [hfile]; rfl⟩
  · right
    refine ⟨?_, hhashes, ?_, hlength, ?_⟩
    · rintro ⟨selected, hselected, -, -, hfile⟩
      obtain rfl := Option.some.inj (hselect.symm.trans hselected)
      rw [hnone] at hfile
      cases hfile
    · unfold HoldsChunk
      rw [selectStoreForWrite_update _ _ _ (by rw [hstore]; rfl), hselect, Option.map_some,
        if_pos rfl]
      exact ⟨_, rfl, hholds⟩
    · intro chunkId' hne
      obtain ⟨hfile, hrow⟩ := hother chunkId' hne
      exact openChunkReader_update hstore files
        (NamedStore.openChunkReader_congr files hfile hrow 0)

end NamedDataMgr

/-! ## What an answer promises -/

/-- The hash of a chunk is absent or names a chunk. -/
def NamesChunk (crates : Crates) (chunkHash : Option String) : Prop :=
  ∀ text, chunkHash = some text → ∃ objId, ObjId.new crates text = .ok objId ∧
    objId.isChunk = true

/-- A creation for a chunk of `n` bytes with this hash was answered rightly: what is reported
as done is in the store, under the id that is returned and that the hash names, and what is
not done has a session of this length and this hash. -/
structure AnswersRight (crates : Crates) (files : LocalFiles) (gateway : ZoneGateway) (n : Nat)
    (chunkHash : Option String) (response : GatewayResponse) : Prop where
  done : response.chunkStatus = some ChunkUploadStatus.completed.asStr ∨
      response.chunkStatus = some ChunkUploadStatus.skipped.asStr →
    ∃ chunkId : ChunkId, response.chunkObjectId = some (chunkId.toObjId.toString crates) ∧
      gateway.storeMgr.ReadsAs crates files chunkId n ∧
      ∀ text, chunkHash = some text → ObjId.new crates text = .ok chunkId.toObjId
  waiting : response.chunkStatus = some ChunkUploadStatus.pending.asStr ∨
      response.chunkStatus = some ChunkUploadStatus.uploading.asStr →
    ∃ s ∈ gateway.state.sessions.rows, response.location = some s.sessionId ∧
      s.chunkSize = n ∧ s.chunkHash = chunkHash

/-- Every creation of a step is answered rightly. -/
def AnswersRightly (crates : Crates) (fuel : Nat) (files : LocalFiles) (system : UploadSystem) :
    UploadAction → Prop
  | .create request order now millis =>
      let created := system.gateway.handleCreateUpload crates fuel order request now millis
      ∀ n metadata response, request.uploadLength = some n → request.metadata = .ok metadata →
        NamesChunk crates metadata.chunkHash → created.2 = .ok response →
          AnswersRight crates files created.1 n metadata.chunkHash response
  | _ => True

/-! ## The steps that keep the answers right -/

/-- The gateway on which a creation looks for its session. -/
def ZoneGateway.withoutStale (gateway : ZoneGateway) (metadata : UploadMetadata) : ZoneGateway :=
  gateway.invalidateStaleSessions metadata.appId metadata.logicalPath
    (metadata.fileHash.getD "")

/-- The session that a creation finds. -/
def ZoneGateway.sessionFor (gateway : ZoneGateway) (metadata : UploadMetadata) :
    Option UploadSession :=
  (gateway.state.keyIndex.find? (ZoneGateway.requestKey metadata)).bind fun entry =>
    gateway.state.sessions.find? entry.sessionId

/-- The chunk that a creation skips. -/
def ZoneGateway.chunkFor (crates : Crates) (fuel : Nat) (gateway : ZoneGateway)
    (metadata : UploadMetadata) : Option ChunkId :=
  (ZoneGateway.namedChunk crates metadata).filter fun chunkId =>
    (gateway.storeMgr.haveChunk crates fuel chunkId).getD false

/-- A session is for the chunk that a creation is about: one that takes bytes has the same
length and the same hash, one that is done has the same length and the chunk that the hash
names. -/
def UploadSession.IsFor (crates : Crates) (s : UploadSession) (n : Nat)
    (chunkHash : Option String) : Prop :=
  s.chunkSize = n ∧
    if s.status.isActive then s.chunkHash = chunkHash
    else ∀ text, chunkHash = some text → ∃ objId, ObjId.new crates text = .ok objId ∧
      s.chunkObjectId = some (objId.toString crates)

/-- A creation finds a session that is for its chunk; or it skips a chunk that can be read
and has the length; or it starts an upload that is not empty. -/
def CreateSafe (crates : Crates) (fuel : Nat) (files : LocalFiles) (order : SessionOrder)
    (gateway : ZoneGateway) (metadata : UploadMetadata) (n : Nat) : Prop :=
  match (gateway.withoutStale metadata).sessionFor metadata with
  | some s => NamesChunk crates metadata.chunkHash → s.IsFor crates n metadata.chunkHash
  | none =>
      match gateway.chunkFor crates fuel metadata with
      | some chunkId => gateway.storeMgr.ReadsAs crates files chunkId n
      | none => n ≠ 0 ∨
          ∃ e, ((gateway.withoutStale metadata).checkQuota order metadata.appId n).2 = .error e

/-- The session is reported as done. -/
def UploadSession.IsDone (s : UploadSession) : Prop :=
  s.status = .completed ∨ s.status = .skipped

/-- A `PATCH` that fills its session: where the store has a file of the chunk already, the
chunk is readable and has the length of the session; where the chunk is written, no session
of another length was reported as done with it. -/
def PatchSafe (crates : Crates) (files : LocalFiles) (gateway : ZoneGateway)
    (request : PatchRequest) (clientOffset : Nat) : Prop :=
  ∀ session path bytes chunkId, gateway.FitsBody request clientOffset session path bytes →
    session.offset + request.body.length = session.chunkSize →
    ZoneGateway.uploadChunkId crates session.chunkHash (bytes ++ request.body) = .ok chunkId →
      (gateway.storeMgr.FileThere crates chunkId →
        gateway.storeMgr.ReadsAs crates files chunkId session.chunkSize) ∧
      (¬ gateway.storeMgr.FileThere crates chunkId →
        chunkId.Hashes crates (bytes ++ request.body) →
          ∀ s ∈ gateway.state.sessions.rows, s.IsDone →
            s.chunkObjectId = some (chunkId.toObjId.toString crates) →
              s.chunkSize = session.chunkSize)

/-- The steps after which every answer is right. -/
def AnswerSafe (crates : Crates) (fuel : Nat) (files : LocalFiles) (system : UploadSystem) :
    UploadAction → Prop
  | .create request order _ _ => ∀ n metadata, request.uploadLength = some n →
      n ≤ maxChunkSize → request.metadata = .ok metadata →
      ZoneGateway.validateLogicalPath metadata.logicalPath = .ok () →
        CreateSafe crates fuel files order system.gateway metadata n
  | .turn callId _ => ∀ call, system.calls.find? callId = some call → call.stage = .reading →
      PatchSafe crates files system.gateway call.request call.clientOffset
  | _ => True

/-! ## Creations -/

/-- What is reported as done can be read with the length of its session. -/
structure AnswersInv (crates : Crates) (files : LocalFiles) (gateway : ZoneGateway) : Prop where
  unexpired : ∀ s ∈ gateway.state.sessions.rows, s.status ≠ .expired
  done : ∀ s ∈ gateway.state.sessions.rows, s.IsDone →
    ∃ chunkId : ChunkId, s.chunkObjectId = some (chunkId.toObjId.toString crates) ∧
      gateway.storeMgr.ReadsAs crates files chunkId s.chunkSize

section Creations

variable {crates : Crates} {files : LocalFiles} {gateway gateway' : ZoneGateway}
  {metadata : UploadMetadata} {n : Nat}

/-- Sessions that go away do no harm. -/
theorem AnswersInv.mono (h : AnswersInv crates files gateway)
    (hmgr : gateway'.storeMgr = gateway.storeMgr)
    (hrows : ∀ s ∈ gateway'.state.sessions.rows, s ∈ gateway.state.sessions.rows) :
    AnswersInv crates files gateway' where
  unexpired s hs := h.unexpired s (hrows s hs)
  done s hs hdone := by
    rw [hmgr]
    exact h.done s (hrows s hs) hdone

theorem AnswersInv.reduces (h : AnswersInv crates files gateway)
    (hreduces : Reduces crates [] gateway gateway') : AnswersInv crates files gateway' :=
  h.mono hreduces.storeMgr hreduces.sessions

/-- The answer for a session that is for the chunk is right. -/
theorem AnswersInv.answersRight (laws : crates.Lawful) (h : AnswersInv crates files gateway)
    {s : UploadSession} (hs : s ∈ gateway.state.sessions.rows) {chunkHash : Option String}
    (hfor : s.IsFor crates n chunkHash) (status : Nat) :
    AnswersRight crates files gateway n chunkHash
      (ZoneGateway.sessionResponse status s) := by
  obtain ⟨rfl, hhash⟩ := hfor
  have hstatus : ∀ expected : ChunkUploadStatus,
      (ZoneGateway.sessionResponse status s).chunkStatus = some expected.asStr →
        s.status = expected := by
    intro expected heq
    have htext : s.status.asStr = expected.asStr := Option.some.inj heq
    revert htext
    cases s.status <;> cases expected <;> decide
  constructor
  · intro hreported
    have hdone : s.IsDone := hreported.imp (hstatus .completed) (hstatus .skipped)
    obtain ⟨chunkId, hobject, hreads⟩ := h.done s hs hdone
    refine ⟨chunkId, hobject, hreads, ?_⟩
    intro text htext
    have hidle : s.status.isActive = false := by
      rcases hdone with hcompleted | hskipped
      · rw [hcompleted]
        rfl
      · rw [hskipped]
        rfl
    rw [if_neg (by rw [hidle]; exact Bool.false_ne_true)] at hhash
    obtain ⟨objId, hnew, hsame⟩ := hhash text htext
    have hid := ObjId.toString_injective laws (Option.some.inj (hobject.symm.trans hsame))
    rw [hnew, hid]
  · intro hreported
    have hactive : s.status.isActive = true := by
      rcases hreported with hpending | huploading
      · rw [hstatus .pending hpending]
        rfl
      · rw [hstatus .uploading huploading]
        rfl
    rw [if_pos hactive] at hhash
    exact ⟨s, hs, rfl, rfl, hhash⟩

/-- A new session, which is for the chunk and not expired; where it is done, its chunk can be
read. -/
theorem AnswersInv.insertSession (laws : crates.Lawful) (h : AnswersInv crates files gateway)
    {session : UploadSession} {chunkHash : Option String} (next : ZoneGateway)
    (hmgr : next.storeMgr = gateway.storeMgr)
    (hsame : next.state.sessions = gateway.state.sessions) (key : SessionKey) (status : Nat)
    (hfor : session.IsFor crates n chunkHash) (hstatus : session.status ≠ .expired)
    (hdone : session.IsDone →
      ∃ chunkId : ChunkId, session.chunkObjectId = some (chunkId.toObjId.toString crates) ∧
        gateway.storeMgr.ReadsAs crates files chunkId session.chunkSize) :
    AnswersInv crates files (next.insertSession session key) ∧
      ∀ response, ZoneGateway.buildSessionResponse status session = .ok response →
        AnswersRight crates files (next.insertSession session key) n chunkHash response := by
  have hrows : ∀ s ∈ (next.insertSession session key).state.sessions.rows,
      s = session ∨ s ∈ gateway.state.sessions.rows := by
    intro s hs
    rcases Table.mem_insertOrReplace.mp hs with rfl | ⟨hs, -⟩
    · exact Or.inl rfl
    · exact Or.inr (hsame ▸ hs)
  have hinv : AnswersInv crates files (next.insertSession session key) := by
    constructor
    · intro s hs
      rcases hrows s hs with rfl | hs
      · exact hstatus
      · exact h.unexpired s hs
    · intro s hs hsdone
      show ∃ chunkId : ChunkId, _ ∧ next.storeMgr.ReadsAs crates files chunkId s.chunkSize
      rw [hmgr]
      rcases hrows s hs with rfl | hs
      · exact hdone hsdone
      · exact h.done s hs hsdone
  refine ⟨hinv, ?_⟩
  rintro response hok
  rw [ZoneGateway.eq_of_buildSessionResponse hok]
  exact hinv.answersRight laws (Table.mem_insertOrReplace.mpr (Or.inl rfl)) hfor status

/-- The chunk that a hash names has the id that the hash is. -/
theorem objId_of_namedChunk {chunkId : ChunkId}
    (h : ZoneGateway.namedChunk crates metadata = some chunkId) {text : String}
    (htext : metadata.chunkHash = some text) : ObjId.new crates text = .ok chunkId.toObjId := by
  unfold ZoneGateway.namedChunk at h
  rw [htext] at h
  dsimp only at h
  cases hnew : ObjId.new crates text with
  | error e =>
      rw [hnew] at h
      cases h
  | ok objId =>
      rw [hnew] at h
      dsimp only at h
      split_ifs at h with hchunk
      rw [← Option.some.inj h, ChunkId.toObjId_fromObjId]

/-- An upload that is not empty starts, or the quota refuses it. -/
theorem startUpload_answers (laws : crates.Lawful) (h : AnswersInv crates files gateway)
    (order : SessionOrder) (request : CreateRequest) (now millis : Nat) (key : SessionKey)
    (hstarts : n ≠ 0 ∨ ∃ e, (gateway.checkQuota order metadata.appId n).2 = .error e) :
    let started := gateway.startUpload order request metadata n now millis key
    AnswersInv crates files started.1 ∧ ∀ response, started.2 = .ok response →
      AnswersRight crates files started.1 n metadata.chunkHash response := by
  have hquota : Reduces crates [] gateway (gateway.checkQuota order metadata.appId n).1 :=
    Reduces.checkQuota order gateway metadata.appId n
  unfold ZoneGateway.startUpload
  generalize gateway.checkQuota order metadata.appId n = checked at hquota hstarts ⊢
  obtain ⟨reduced, e | ⟨⟩⟩ := checked
  · exact ⟨h.reduces hquota, fun response hok => (nomatch hok)⟩
  · have hpos : n ≠ 0 := by
      rcases hstarts with hpos | ⟨e, he⟩
      · exact hpos
      · cases he
    have hstatus : ∀ sid, (ZoneGateway.newSession request metadata sid n now).status =
        .pending := fun _ => if_neg hpos
    dsimp only [ZoneGateway.generateSessionId]
    refine (h.reduces hquota).insertSession laws _ (by rfl) (by rfl) key 201 ⟨rfl, ?_⟩ ?_ ?_
    · rw [hstatus]
      rfl
    · rw [hstatus]
      decide
    · rintro (hcompleted | hskipped)
      · rw [hstatus] at hcompleted
        cases hcompleted
      · rw [hstatus] at hskipped
        cases hskipped

theorem createSession_answers (laws : crates.Lawful) (h : AnswersInv crates files gateway)
    {fuel : Nat} (order : SessionOrder) (request : CreateRequest) (now millis : Nat)
    (key : SessionKey)
    (hsafe : match gateway.chunkFor crates fuel metadata with
      | some chunkId => gateway.storeMgr.ReadsAs crates files chunkId n
      | none => n ≠ 0 ∨ ∃ e, (gateway.checkQuota order metadata.appId n).2 = .error e) :
    let created := gateway.createSession crates fuel order request metadata n now millis key
    AnswersInv crates files created.1 ∧ ∀ response, created.2 = .ok response →
      AnswersRight crates files created.1 n metadata.chunkHash response := by
  unfold ZoneGateway.createSession
  unfold ZoneGateway.chunkFor at hsafe
  cases hchunk : (ZoneGateway.namedChunk crates metadata).filter fun chunkId =>
      (gateway.storeMgr.haveChunk crates fuel chunkId).getD false with
  | none =>
      rw [hchunk] at hsafe
      exact startUpload_answers laws h order request now millis key hsafe
  | some chunkId =>
      rw [hchunk] at hsafe
      have hnamed := (Option.filter_eq_some_iff.mp hchunk).1
      dsimp only [ZoneGateway.generateSessionId] at hsafe ⊢
      refine h.insertSession laws _ (by rfl) (by rfl) key 200 ⟨rfl, ?_⟩ ?_ ?_
      · -- The id is the one that the hash names.
        intro text htext
        exact ⟨chunkId.toObjId, objId_of_namedChunk hnamed htext, rfl⟩
      · exact fun hexpired => (nomatch hexpired)
      · exact fun _ => ⟨chunkId, rfl, hsafe⟩

theorem createLocked_answers (laws : crates.Lawful) (h : AnswersInv crates files gateway)
    {fuel : Nat} (order : SessionOrder) (request : CreateRequest) (now millis : Nat)
    (hsafe : CreateSafe crates fuel files order gateway metadata n) :
    let created := gateway.createLocked crates fuel order request metadata n now millis
    AnswersInv crates files created.1 ∧ ∀ response, created.2 = .ok response →
      NamesChunk crates metadata.chunkHash →
        AnswersRight crates files created.1 n metadata.chunkHash response := by
  have hstale : Reduces crates [] gateway (gateway.withoutStale metadata) :=
    Reduces.dropListed gateway _
  have hinv := h.reduces hstale
  unfold CreateSafe at hsafe
  have hmgr : gateway.chunkFor crates fuel metadata =
      (gateway.withoutStale metadata).chunkFor crates fuel metadata := by
    unfold ZoneGateway.chunkFor
    rw [hstale.storeMgr]
  rw [hmgr, ← hstale.storeMgr] at hsafe
  unfold ZoneGateway.createLocked
  dsimp only
  rw [show gateway.invalidateStaleSessions metadata.appId metadata.logicalPath
    (metadata.fileHash.getD "") = gateway.withoutStale metadata from rfl]
  generalize gateway.withoutStale metadata = stale at hinv hsafe ⊢
  unfold ZoneGateway.sessionFor at hsafe
  cases hfound : (stale.state.keyIndex.find? (ZoneGateway.requestKey metadata)).bind fun entry =>
      stale.state.sessions.find? entry.sessionId with
  | none =>
      rw [hfound] at hsafe
      obtain ⟨hcreated, hright⟩ := createSession_answers laws hinv order request now millis
        (ZoneGateway.requestKey metadata) hsafe
      exact ⟨hcreated, fun response hok _ => hright response hok⟩
  | some existing =>
      rw [hfound] at hsafe
      obtain ⟨entry, -, hfind⟩ := Option.bind_eq_some_iff.mp hfound
      have hrow := (Table.find?_eq_some_iff.mp hfind).1
      dsimp only
      rw [if_neg (hinv.unexpired existing hrow)]
      refine ⟨hinv, ?_⟩
      intro response hok hnames
      rw [ZoneGateway.eq_of_buildSessionResponse hok]
      exact hinv.answersRight laws hrow (hsafe hnames) 200

theorem handleCreateUpload_answers (laws : crates.Lawful) (h : AnswersInv crates files gateway)
    {fuel : Nat} (order : SessionOrder) (request : CreateRequest) (now millis : Nat)
    (hsafe : ∀ n metadata, request.uploadLength = some n → n ≤ maxChunkSize →
      request.metadata = .ok metadata →
      ZoneGateway.validateLogicalPath metadata.logicalPath = .ok () →
        CreateSafe crates fuel files order gateway metadata n) :
    let created := gateway.handleCreateUpload crates fuel order request now millis
    AnswersInv crates files created.1 ∧
      ∀ n metadata response, request.uploadLength = some n → request.metadata = .ok metadata →
        NamesChunk crates metadata.chunkHash → created.2 = .ok response →
          AnswersRight crates files created.1 n metadata.chunkHash response := by
  unfold ZoneGateway.handleCreateUpload
  cases hlength : request.uploadLength with
  | none => exact ⟨h, fun n metadata response hsome => (nomatch hsome)⟩
  | some length =>
  dsimp only
  by_cases hlarge : maxChunkSize < length
  · rw [if_pos hlarge]
    refine ⟨h, ?_⟩
    intro n metadata response _ _ _ hok
    obtain rfl := Except.ok.inj hok
    constructor
    · rintro (hstatus | hstatus) <;> cases hstatus
    · rintro (hstatus | hstatus) <;> cases hstatus
  rw [if_neg hlarge]
  cases hmetadata : request.metadata with
  | error e => exact ⟨h, fun n metadata response _ hsome => (nomatch hsome)⟩
  | ok parsed =>
  dsimp only
  cases hvalid : ZoneGateway.validateLogicalPath parsed.logicalPath with
  | error e => exact ⟨h, fun n metadata response _ _ _ hok => (nomatch hok)⟩
  | ok u =>
      obtain ⟨hinv, hright⟩ := createLocked_answers laws h order request now millis
        (hsafe length parsed hlength (Nat.le_of_not_lt hlarge) hmetadata hvalid)
      refine ⟨hinv, ?_⟩
      intro n metadata response hn hm hnames hok
      obtain rfl := Option.some.inj hn
      obtain rfl := Except.ok.inj hm
      exact hright response hok hnames

end Creations

/-! ## Bytes that fill a session -/

section Patches

variable {crates : Crates} {files : LocalFiles} {gateway : ZoneGateway}
  {session : UploadSession} {path : TempFilePath} {content : List UInt8} {chunkId : ChunkId}

/-- A chunk that could be read with a length before a put can be read with it afterwards,
unless the put writes the same chunk with another length. -/
theorem NamedDataMgr.ReadsAs.put (laws : crates.Lawful) {mgr : NamedDataMgr}
    {chunkId' : ChunkId} {n chunkSize : Nat} (h : mgr.ReadsAs crates files chunkId' n)
    (reader : ChunkSource)
    (hsame : chunkId'.toObjId = chunkId.toObjId → ¬ mgr.FileThere crates chunkId →
      chunkId.Hashes crates reader.bytes → n = chunkSize) (now : Nat) :
    (mgr.putChunkByReader crates now chunkId chunkSize reader).1.ReadsAs crates files
      chunkId' n := by
  rcases mgr.putChunkByReader_cases laws files now chunkId chunkSize reader with
    ⟨hput, -⟩ | ⟨hnone, hhashes, hholds, hlength, hother⟩
  · rw [hput]
    exact h
  · by_cases hid : chunkId'.toObjId = chunkId.toObjId
    · have hreads := (hholds.congr hid.symm).readsAs files
      rw [hlength] at hreads
      rw [hsame hid hnone hhashes]
      exact hreads
    · obtain ⟨read, hread, hn⟩ := h
      exact ⟨read, (hother chunkId' hid).trans hread, hn⟩

/-- A put that succeeds leaves a chunk that can be read with the length of the session. -/
theorem NamedDataMgr.readsAs_of_putChunkByReader (laws : crates.Lawful) {mgr : NamedDataMgr}
    {chunkSize : Nat} {reader : ChunkSource} {now : Nat} {outcome : ChunkWriteOutcome}
    (hok : (mgr.putChunkByReader crates now chunkId chunkSize reader).2 = .ok outcome)
    (hthere : mgr.FileThere crates chunkId → mgr.ReadsAs crates files chunkId chunkSize) :
    (mgr.putChunkByReader crates now chunkId chunkSize reader).1.ReadsAs crates files chunkId
      chunkSize := by
  rcases mgr.putChunkByReader_cases laws files now chunkId chunkSize reader with
    ⟨hput, hfile⟩ | ⟨-, -, hholds, hlength, -⟩
  · rw [hput]
    exact hthere (hfile outcome hok)
  · have hreads := hholds.readsAs files
    rw [hlength] at hreads
    exact hreads

/-- The sessions after a body was taken: one of them is uploading, and the others were there
before. -/
theorem mem_takeBody {body : List UInt8} {now : Nat} {s : UploadSession}
    (hs : s ∈ (gateway.takeBody session path body now).state.sessions.rows) :
    s.status = .uploading ∨ s ∈ gateway.state.sessions.rows := by
  have hfind := Table.find?_key_of_mem hs
  rw [ZoneGateway.find?_takeBody] at hfind
  split_ifs at hfind
  · obtain ⟨t, -, rfl⟩ := Option.map_eq_some_iff.mp hfind
    exact Or.inl rfl
  · exact Or.inr (Table.find?_eq_some_iff.mp hfind).1

theorem AnswersInv.takeBody (h : AnswersInv crates files gateway) (session : UploadSession)
    (path : TempFilePath) (body : List UInt8) (now : Nat) :
    AnswersInv crates files (gateway.takeBody session path body now) := by
  constructor
  · intro s hs
    rcases mem_takeBody hs with huploading | hold
    · rw [huploading]
      decide
    · exact h.unexpired s hold
  · intro s hs hdone
    rcases mem_takeBody hs with huploading | hold
    · rcases hdone with hcompleted | hskipped
      · cases huploading.symm.trans hcompleted
      · cases huploading.symm.trans hskipped
    · exact h.done s hold hdone

/-- A full session is stored and completed. -/
theorem AnswersInv.persistUpload (laws : crates.Lawful) (h : AnswersInv crates files gateway)
    (hsession : gateway.state.sessions.find? session.sessionId = some session) (now : Nat)
    (hsafe : ∀ chunkId, ZoneGateway.uploadChunkId crates session.chunkHash content =
        .ok chunkId →
      (gateway.storeMgr.FileThere crates chunkId →
        gateway.storeMgr.ReadsAs crates files chunkId session.chunkSize) ∧
      (¬ gateway.storeMgr.FileThere crates chunkId → chunkId.Hashes crates content →
        ∀ s ∈ gateway.state.sessions.rows, s.IsDone →
          s.chunkObjectId = some (chunkId.toObjId.toString crates) →
            s.chunkSize = session.chunkSize)) :
    AnswersInv crates files (gateway.persistUpload crates session content now).1 := by
  unfold ZoneGateway.persistUpload
  cases hid : ZoneGateway.uploadChunkId crates session.chunkHash content with
  | error e => exact h
  | ok chunkId =>
  obtain ⟨hthere, hwritten⟩ := hsafe chunkId hid
  have hkeeps : ∀ s ∈ gateway.state.sessions.rows, s.IsDone →
      ∃ chunkId' : ChunkId, s.chunkObjectId = some (chunkId'.toObjId.toString crates) ∧
        (gateway.storeMgr.putChunkByReader crates now chunkId session.chunkSize
          (ChunkSource.ofBytes content)).1.ReadsAs crates files chunkId' s.chunkSize := by
    intro s hs hdone
    obtain ⟨chunkId', hobject, hreads⟩ := h.done s hs hdone
    refine ⟨chunkId', hobject, hreads.put laws _ ?_ now⟩
    intro hsame hnone hhashes
    exact hwritten hnone hhashes s hs hdone (by rw [hobject, hsame])
  have hreads : ∀ outcome, (gateway.storeMgr.putChunkByReader crates now chunkId
      session.chunkSize (ChunkSource.ofBytes content)).2 = .ok outcome → _ :=
    fun _ hok => NamedDataMgr.readsAs_of_putChunkByReader laws hok hthere
  dsimp only
  generalize gateway.storeMgr.putChunkByReader crates now chunkId session.chunkSize
    (ChunkSource.ofBytes content) = put at hkeeps hreads ⊢
  obtain ⟨storeMgr, e | outcome⟩ := put
  · exact ⟨h.unexpired, hkeeps⟩
  · have hnew := hreads outcome rfl
    have hrows : ∀ s ∈ (gateway.completeSession session storeMgr
        (chunkId.toObjId.toString crates)).state.sessions.rows,
        (s.status = .completed ∧ s.chunkObjectId = some (chunkId.toObjId.toString crates) ∧
          s.chunkSize = session.chunkSize) ∨ s ∈ gateway.state.sessions.rows := by
      intro s hs
      have hfind := Table.find?_key_of_mem hs
      rw [find?_completeSession] at hfind
      split_ifs at hfind with hid
      · rw [hid, hsession] at hfind
        obtain rfl := Option.some.inj hfind
        exact Or.inl ⟨rfl, rfl, rfl⟩
      · exact Or.inr (Table.find?_eq_some_iff.mp hfind).1
    constructor
    · intro s hs
      rcases hrows s hs with ⟨hcompleted, -⟩ | hold
      · rw [hcompleted]
        decide
      · exact h.unexpired s hold
    · intro s hs hdone
      rcases hrows s hs with ⟨-, hobject, hsize⟩ | hold
      · refine ⟨chunkId, hobject, ?_⟩
        rw [hsize]
        exact hnew
      · exact hkeeps s hold hdone

/-- The last part of a `PATCH`. -/
theorem AnswersInv.patchLocked (laws : crates.Lawful) (h : AnswersInv crates files gateway)
    (request : PatchRequest) (clientOffset now : Nat)
    (hsafe : PatchSafe crates files gateway request clientOffset) :
    AnswersInv crates files (gateway.patchLocked crates request clientOffset now).1 := by
  rw [← ZoneGateway.patchLockedWith_none]
  rcases ZoneGateway.patchLockedWith_cases crates .none gateway request clientOffset now with
    ⟨session, path, bytes, hfits⟩ | ⟨e, hnothing⟩
  · rw [ZoneGateway.patchLockedWith_fits hfits]
    have htaken := h.takeBody session path request.body now
    by_cases hfull : session.offset + request.body.length = session.chunkSize
    · rw [ZoneGateway.writeBody_full rfl hfull, ZoneGateway.persistUploadWith_none]
      have hrow := (Table.find?_eq_some_iff.mp hfits.found).1
      refine htaken.persistUpload laws ?_ now ?_
      · have hfind := ZoneGateway.find?_takeBody gateway session path request.body now
          session.sessionId
        rw [if_pos rfl, Table.find?_key_of_mem hrow] at hfind
        exact hfind
      · intro chunkId hchunkId
        obtain ⟨hthere, hwritten⟩ := hsafe session path bytes chunkId hfits hfull hchunkId
        refine ⟨hthere, ?_⟩
        intro hnone hhashes s hs hdone
        rcases mem_takeBody hs with huploading | hold
        · rcases hdone with hcompleted | hskipped
          · cases huploading.symm.trans hcompleted
          · cases huploading.symm.trans hskipped
        · exact hwritten hnone hhashes s hold hdone
    · rw [ZoneGateway.writeBody_grows rfl hfull]
      exact htaken.mono rfl fun _ hs => hs
  · rw [hnothing]
    exact h

end Patches

/-! ## Runs -/

section Runs

variable {crates : Crates} {fuel : Nat} {files : LocalFiles} {system : UploadSystem}

theorem answersInv_init (storeMgr : NamedDataMgr) (sessionTtl : Nat)
    (tempFiles : Table TempFile TempFile.path) :
    AnswersInv crates files (UploadSystem.init storeMgr sessionTtl tempFiles).gateway where
  unexpired _ hs := absurd hs List.not_mem_nil
  done _ hs := absurd hs List.not_mem_nil

/-- One turn of a `PATCH`: only the last one changes the gateway. -/
theorem AnswersInv.turn (laws : crates.Lawful) (h : AnswersInv crates files system.gateway)
    (call : PatchCall) (now : Nat)
    (hsafe : call.stage = .reading →
      PatchSafe crates files system.gateway call.request call.clientOffset) :
    AnswersInv crates files (system.turn crates call now).gateway := by
  unfold UploadSystem.turn
  cases hstage : call.stage with
  | draining => exact h
  | checking =>
      dsimp only
      cases system.gateway.patchSecondLook call.request call.clientOffset now <;> exact h
  | reading =>
      have hlocked := h.patchLocked laws call.request call.clientOffset now (hsafe hstage)
      dsimp only
      generalize system.gateway.patchLocked crates call.request call.clientOffset now = locked
        at hlocked ⊢
      obtain ⟨gateway, e | response⟩ := locked
      · exact hlocked
      · exact hlocked

/-- One safe step keeps what was reported as done, and is answered rightly. -/
theorem AnswersInv.step (laws : crates.Lawful) (h : AnswersInv crates files system.gateway)
    {action : UploadAction} (hsafe : AnswerSafe crates fuel files system action) :
    AnswersInv crates files (system.step crates fuel action).gateway ∧
      AnswersRightly crates fuel files system action := by
  cases action with
  | create request order now millis =>
      exact handleCreateUpload_answers laws h order request now millis hsafe
  | head sid sidText now => exact ⟨h, trivial⟩
  | patch callId request =>
      refine ⟨?_, trivial⟩
      show AnswersInv crates files (system.arrive callId request).gateway
      unfold UploadSystem.arrive
      split
      · exact h
      · split <;> exact h
  | turn callId now =>
      refine ⟨?_, trivial⟩
      unfold UploadSystem.step
      dsimp only
      cases hcall : system.calls.find? callId with
      | none => exact h
      | some call => exact h.turn laws call now (hsafe call hcall)
  | expire now =>
      refine ⟨?_, trivial⟩
      exact h.reduces (Reduces.dropListed system.gateway _)

/-- In every run of safe steps on a gateway that was just started, over any manager, every
creation is answered rightly. -/
theorem creations_answered_rightly (laws : crates.Lawful) (fuel : Nat) (files : LocalFiles)
    (storeMgr : NamedDataMgr) (sessionTtl : Nat) (tempFiles : Table TempFile TempFile.path)
    (actions : List UploadAction)
    (hsafe : Along (UploadSystem.step crates fuel) (AnswerSafe crates fuel files)
      (UploadSystem.init storeMgr sessionTtl tempFiles) actions) :
    Along (UploadSystem.step crates fuel) (AnswersRightly crates fuel files)
      (UploadSystem.init storeMgr sessionTtl tempFiles) actions :=
  hsafe.of_invariant (fun _ _ hstep h => AnswersInv.step laws h hstep)
    (answersInv_init storeMgr sessionTtl tempFiles)

end Runs

/-! ## Two runs -/

/-- What the requests of these runs say about their file. -/
def fileMetadata (chunkHash : Option String) : UploadMetadata :=
  ⟨"app", "file", none, 0, chunkHash⟩

/-- A request for a session of this length and hash. -/
def uploadOf (n : Nat) (chunkHash : Option String) : UploadAction :=
  .create ⟨some n, .ok (fileMetadata chunkHash), "", none⟩ SessionOrder.insertion 0 0

/-- A client that asks again after its byte was stored is answered rightly. -/
theorem askAgain_answered_rightly :
    Along (UploadSystem.step sampleCrates 1) (AnswersRightly sampleCrates 1 fun _ => none)
      startedUploads (oneClient ++ [uploadOf 1 none]) := by
  refine creations_answered_rightly sampleCrates_lawful 1 (fun _ => none) oneStoreMgr 3600
    Table.empty (oneClient ++ [uploadOf 1 none]) ⟨?_, trivial, ?_, ?_, ?_, trivial⟩
  · intro n metadata hn _ hmetadata _
    obtain rfl := Option.some.inj hn
    obtain rfl := Except.ok.inj hmetadata
    have hsafe : CreateSafe sampleCrates 1 (fun _ => none) SessionOrder.insertion
        startedUploads.gateway (fileMetadata none) 1 :=
      Or.inl (by decide)
    exact hsafe
  · intro call hcall hstage
    have hstart : ((run (UploadSystem.step sampleCrates 1) startedUploads
        [oneByteUpload, .patch 0 oneBytePatch]).calls.find? 0) =
          some ⟨0, oneBytePatch, 0, .checking⟩ := by
      decide
    obtain rfl := Option.some.inj (hstart.symm.trans hcall)
    cases hstage
  · intro call hcall _
    have haccepted : ((run (UploadSystem.step sampleCrates 1) startedUploads
        [oneByteUpload, .patch 0 oneBytePatch, .turn 0 0]).calls.find? 0) =
          some ⟨0, oneBytePatch, 0, .reading⟩ := by
      decide
    obtain rfl := Option.some.inj (haccepted.symm.trans hcall)
    intro session path bytes chunkId _ _ _
    constructor
    · -- The store is empty.
      rintro ⟨selected, hselect, -, -, hfile⟩
      obtain rfl : ("store", NamedStore.fromConfig false) = selected :=
        Option.some.inj hselect
      cases hfile
    · intro _ _ s hs hdone
      have hrows : (run (UploadSystem.step sampleCrates 1) startedUploads
          [oneByteUpload, .patch 0 oneBytePatch, .turn 0 0]).gateway.state.sessions.rows =
            [oneByteSession] := by
        decide
      have hmem : s ∈ [oneByteSession] := hrows ▸ hs
      rw [List.mem_singleton.mp hmem] at hdone
      rcases hdone with hcompleted | hskipped
      · cases hcompleted
      · cases hskipped
  · intro n metadata hn _ hmetadata _
    obtain rfl := Option.some.inj hn
    obtain rfl := Except.ok.inj hmetadata
    have hfound : ((run (UploadSystem.step sampleCrates 1) startedUploads
        oneClient).gateway.withoutStale (fileMetadata none)).sessionFor
          (fileMetadata none) = some { oneByteSession with
            offset := 1
            status := .completed
            chunkObjectId := some ((ChunkId.fromMixHashResult sampleCrates 1
              (sampleCrates.digest .sha256 [120]) .mix256).toObjId.toString sampleCrates) } := by
      decide
    have hsafe : CreateSafe sampleCrates 1 (fun _ => none) SessionOrder.insertion
        (run (UploadSystem.step sampleCrates 1) startedUploads oneClient).gateway
          (fileMetadata none) 1 := by
      unfold CreateSafe
      rw [hfound]
      exact fun _ => ⟨rfl, fun text htext => (nomatch htext)⟩
    exact hsafe

/-- A client that asks for another chunk under the same key is told that it is stored. -/
theorem otherChunk_reported_as_done :
    ¬ Along (UploadSystem.step sampleCrates 1) (AnswersRightly sampleCrates 1 fun _ => none)
      startedUploads
      (oneClient ++ [uploadOf 3 (some (abcChunk.toString sampleCrates))]) := by
  rw [along_append]
  rintro ⟨-, hright, -⟩
  have hnew : ObjId.new sampleCrates (abcChunk.toString sampleCrates) =
      .ok abcChunk.toObjId := by
    decide
  have hnames : NamesChunk sampleCrates (some (abcChunk.toString sampleCrates)) := by
    rintro text htext
    obtain rfl := Option.some.inj htext
    exact ⟨_, hnew, by decide⟩
  have hanswer : ((run (UploadSystem.step sampleCrates 1) startedUploads
      oneClient).gateway.handleCreateUpload sampleCrates 1 SessionOrder.insertion
        ⟨some 3, .ok (fileMetadata (some (abcChunk.toString sampleCrates))), "", none⟩
        0 0).2 = .ok ⟨200, some ⟨0, 1⟩, some "path:app/file", some 1, some 1, none, some "completed",
            some ((ChunkId.fromMixHashResult sampleCrates 1
              (sampleCrates.digest .sha256 [120]) .mix256).toObjId.toString sampleCrates)⟩ := by
    decide
  obtain ⟨chunkId, hobject, -, hhash⟩ :=
    (hright 3 (fileMetadata (some (abcChunk.toString sampleCrates))) _ rfl rfl hnames
      hanswer).done (Or.inl rfl)
  have hid : abcChunk.toObjId = chunkId.toObjId := Except.ok.inj (hnew.symm.trans (hhash _ rfl))
  rw [← hid] at hobject
  revert hobject
  decide

end NamedStore
end CyfsNdn

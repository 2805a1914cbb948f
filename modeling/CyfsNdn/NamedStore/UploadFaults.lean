import CyfsNdn.NamedStore.UploadSessions

/-!
# Uploads that fail on the way

A `PATCH` that is handled alone, where the body, the temporary file and the store may
fail it at any of its steps.  Without a fault it does what `patchLocked` does.

Most errors come before anything is written.  Three do not: an append that stops has left
in the file what it wrote; a session that is full has its new offset before its chunk is
stored, and keeps it when that fails; and a session that was completed stays so when the
answer to its last bytes cannot be built.
-/

namespace CyfsNdn
namespace NamedStore

open NdnLib Relational Transition

/-- How the append to a temporary file fails. -/
inductive AppendFault where
  | openFails (text : String)
  | writeFails (written : Nat) (text : String)
  | flushFails (written : Nat) (text : String)
  deriving DecidableEq, Repr

namespace AppendFault

/-- The number of bytes that the file has taken. -/
def written : AppendFault → Nat
  | openFails _ => 0
  | writeFails written _ => written
  | flushFails written _ => written

/-- The error that the request is answered with. -/
def error : AppendFault → NdnError
  | openFails text => .ioError ("open temp file for append: " ++ text)
  | writeFails _ text => .ioError ("write temp file: " ++ text)
  | flushFails _ text => .ioError ("flush temp file: " ++ text)

end AppendFault

/-- The session after a body. -/
def UploadSession.grown (session : UploadSession) (length now : Nat) : UploadSession :=
  { session with
    offset := session.offset + length
    updatedAt := now
    status := .uploading }

/-- What fails while a `PATCH` is handled; a store that fails may have changed. -/
structure PatchFaults where
  collectBody : Option NdnError
  append : Option AppendFault
  readForHash : Option String
  openForPersist : Option String
  putChunk : Option (NamedDataMgr × NdnError)

/-- Nothing fails. -/
def PatchFaults.none : PatchFaults := ⟨.none, .none, .none, .none, .none⟩

namespace ZoneGateway

/-- The id under which a full session is stored, where the file has to be read for a
hash. -/
def persistedId (crates : Crates) (faults : PatchFaults) (chunkHash : Option String)
    (content : List UInt8) : NdnResult ChunkId :=
  match chunkHash, faults.readForHash with
  | none, some text => .error (.ioError ("read temp file for hash: " ++ text))
  | _, _ => uploadChunkId crates chunkHash content

/-- The file is opened again and given to `put_chunk_by_reader`. -/
def persistChunk (crates : Crates) (faults : PatchFaults) (storeMgr : NamedDataMgr)
    (chunkId : ChunkId) (chunkSize : Nat) (content : List UInt8) (now : Nat) :
    NamedDataMgr × NdnResult ChunkWriteOutcome :=
  match faults.openForPersist, faults.putChunk with
  | some text, _ => (storeMgr, .error (.ioError ("open temp file for persist: " ++ text)))
  | none, some (failed, e) => (failed, .error e)
  | none, none =>
      storeMgr.putChunkByReader crates now chunkId chunkSize (ChunkSource.ofBytes content)

/-- `persistUpload` with what may fail in it. -/
def persistUploadWith (crates : Crates) (faults : PatchFaults) (gateway : ZoneGateway)
    (session : UploadSession) (content : List UInt8) (now : Nat) :
    ZoneGateway × NdnResult GatewayResponse :=
  match persistedId crates faults session.chunkHash content with
  | .error e => (gateway, .error e)
  | .ok chunkId =>
      match persistChunk crates faults gateway.storeMgr chunkId session.chunkSize content now with
      | (storeMgr, .error e) => ({ gateway with storeMgr := storeMgr }, .error e)
      | (storeMgr, .ok _) =>
          let chunkObjectId := chunkId.toObjId.toString crates
          (gateway.completeSession session storeMgr chunkObjectId,
            buildSessionResponse 204 (completedSession session chunkObjectId))

/-- The file and the session have taken a body. -/
def takeBody (gateway : ZoneGateway) (session : UploadSession) (path : TempFilePath)
    (body : List UInt8) (now : Nat) : ZoneGateway :=
  (gateway.appendTempFile path body).updateSession session.sessionId
    (fun s => s.grown body.length now) fun _ => rfl

/-- The bytes are counted for an application that has an entry. -/
def countBytes (gateway : ZoneGateway) (appId : String) (bytes : Nat) : ZoneGateway :=
  { gateway with
    state := { gateway.state with
      appUsage := gateway.state.appUsage.updateKey appId
        (fun usage => { usage with bytesInUse := usage.bytesInUse + bytes }) fun _ => rfl } }

/-- What `patchLocked` does with a body that fits its session and the file of that. -/
def writeBody (crates : Crates) (faults : PatchFaults) (gateway : ZoneGateway)
    (session : UploadSession) (path : TempFilePath) (bytes body : List UInt8) (now : Nat) :
    ZoneGateway × NdnResult GatewayResponse :=
  match faults.append with
  | some fault =>
      (gateway.appendTempFile path (body.take fault.written), .error fault.error)
  | none =>
      let grown := session.grown body.length now
      let gateway := gateway.takeBody session path body now
      if grown.offset = grown.chunkSize then
        gateway.persistUploadWith crates faults grown (bytes ++ body) now
      else (gateway.countBytes grown.appId body.length, .ok (uploadingResponse grown.offset))

/-- `patchLocked` with what may fail in it. -/
def patchLockedWith (crates : Crates) (faults : PatchFaults) (gateway : ZoneGateway)
    (request : PatchRequest) (clientOffset now : Nat) : ZoneGateway × NdnResult GatewayResponse :=
  if request.body = [] then (gateway, .error (.invalidParam "empty body"))
  else
    match gateway.state.sessions.find? request.sessionId with
    | none => (gateway, .error (sessionNotFound request))
    | some session =>
        if clientOffset ≠ session.offset then
          (gateway, .error (.verifyError ("offset mismatch after lock: client=" ++
            toString clientOffset ++ ", server=" ++ toString session.offset)))
        else if session.chunkSize < session.offset + request.body.length then
          (gateway, .error (.invalidParam ("data exceeds chunk size: offset=" ++
            toString session.offset ++ " + body_len=" ++ toString request.body.length ++
            " > chunk_size=" ++ toString session.chunkSize)))
        else
          match gateway.tempBytes session, session.tempFilePath with
          | some bytes, some path =>
              gateway.writeBody crates faults session path bytes request.body now
          | _, _ => (gateway, .error (.ioError "open temp file for append: "))

/-- `handle_patch_upload` for a request that is handled alone; `none` is a panic. -/
def handlePatchUpload (crates : Crates) (faults : PatchFaults) (gateway : ZoneGateway)
    (request : PatchRequest) (now : Nat) : Option (ZoneGateway × NdnResult GatewayResponse) :=
  match patchHeaders request with
  | .error e => some (gateway, .error e)
  | .ok clientOffset =>
      match gateway.patchFirstLook request with
      | .error e => some (gateway, .error e)
      | .ok (some response) =>
          -- The body is read and thrown away.
          match faults.collectBody with
          | some e => some (gateway, .error e)
          | none => some (gateway, .ok response)
      | .ok none =>
          match gateway.patchSecondLook request clientOffset now with
          | .refused e => some (gateway, .error e)
          | .panicked => none
          | .accepted =>
              match faults.collectBody with
              | some e => some (gateway, .error e)
              | none => some (gateway.patchLockedWith crates faults request clientOffset now)

/-- Without a fault a full session is stored as in a run of the system. -/
theorem persistUploadWith_none (crates : Crates) (gateway : ZoneGateway)
    (session : UploadSession) (content : List UInt8) (now : Nat) :
    gateway.persistUploadWith crates .none session content now =
      gateway.persistUpload crates session content now := by
  unfold persistUploadWith persistUpload persistChunk persistedId
  cases session.chunkHash <;> rfl

/-- Without a fault the last part of a `PATCH` is that of a run of the system. -/
theorem patchLockedWith_none (crates : Crates) (gateway : ZoneGateway) (request : PatchRequest)
    (clientOffset now : Nat) :
    gateway.patchLockedWith crates .none request clientOffset now =
      gateway.patchLocked crates request clientOffset now := by
  unfold patchLockedWith patchLocked writeBody takeBody
  simp only [persistUploadWith_none]
  rfl

/-! ## What a failed request leaves -/

/-- A failed request has left the session, its file and the usage alone, and every later
request is handled as if it had not been made. -/
structure FailedStepKept (sid : SessionId) (before after : ZoneGateway) : Prop where
  session : ∀ s, before.state.sessions.find? sid = some s →
    ∃ s', after.state.sessions.find? sid = some s' ∧ s'.offset = s.offset ∧
      s'.status = s.status ∧ after.tempBytes s' = before.tempBytes s
  usage : ∀ appId, (after.state.appUsage.find? appId).map AppCacheUsage.bytesInUse =
    (before.state.appUsage.find? appId).map AppCacheUsage.bytesInUse
  again : ∀ crates faults request now,
    after.handlePatchUpload crates faults request now =
      before.handlePatchUpload crates faults request now

theorem FailedStepKept.refl (sid : SessionId) (gateway : ZoneGateway) :
    FailedStepKept sid gateway gateway :=
  ⟨fun s hs => ⟨s, hs, rfl, rfl, rfl⟩, fun _ => rfl, fun _ _ _ _ => rfl⟩

/-- The body fits where the session ends, and the session has a file. -/
structure FitsBody (gateway : ZoneGateway) (request : PatchRequest) (clientOffset : Nat)
    (session : UploadSession) (path : TempFilePath) (bytes : List UInt8) : Prop where
  body : request.body ≠ []
  found : gateway.state.sessions.find? request.sessionId = some session
  offset : clientOffset = session.offset
  fits : session.offset + request.body.length ≤ session.chunkSize
  path : session.tempFilePath = some path
  file : gateway.tempBytes session = some bytes

/-- A request that is handled alone gets as far as the file of its session. -/
structure TakesBody (gateway : ZoneGateway) (request : PatchRequest) (now : Nat)
    (session : UploadSession) (path : TempFilePath) (bytes : List UInt8) : Prop where
  contentType : request.contentType = "application/offset+octet-stream"
  uploadOffset : request.uploadOffset = some session.offset
  active : session.status.isActive = true
  fresh : now - session.updatedAt ≤ gateway.sessionTtl
  fitsBody : gateway.FitsBody request session.offset session path bytes

/-- The chunk of a full session can be stored: its hash is absent or names a chunk, its file
can be read where it has to be hashed and opened again, and the store takes it. -/
def Persists (crates : Crates) (faults : PatchFaults) (gateway : ZoneGateway)
    (session : UploadSession) (content : List UInt8) (now : Nat) : Prop :=
  (session.chunkHash = none → faults.readForHash = none) ∧
    faults.openForPersist = none ∧ faults.putChunk = none ∧
    ∃ chunkId outcome, uploadChunkId crates session.chunkHash content = .ok chunkId ∧
      (gateway.storeMgr.putChunkByReader crates now chunkId session.chunkSize
        (ChunkSource.ofBytes content)).2 = .ok outcome

/-- The answer to a session that was completed with this content can be built: neither its
upload id nor the id of its chunk has a character that a header refuses. -/
def Answerable (crates : Crates) (session : UploadSession) (content : List UInt8) : Prop :=
  headerAccepts session.canonicalUploadId = true ∧
    ∀ chunkId, uploadChunkId crates session.chunkHash content = .ok chunkId →
      headerAccepts (chunkId.toObjId.toString crates) = true

theorem answerable_iff_sendable {crates : Crates} {session : UploadSession}
    {content : List UInt8} {chunkId : ChunkId}
    (h : uploadChunkId crates session.chunkHash content = .ok chunkId) :
    Answerable crates session content ↔
      sessionSendable (completedSession session (chunkId.toObjId.toString crates)) = true := by
  unfold Answerable sessionSendable completedSession
  rw [h, Option.all_some, Bool.and_eq_true]
  simp

/-- The id of a chunk is never in the way. -/
theorem answerable_iff {crates : Crates} (laws : crates.Lawful) {session : UploadSession}
    {content : List UInt8} :
    Answerable crates session content ↔ headerAccepts session.canonicalUploadId = true :=
  and_iff_left fun _ hchunkId => headerAccepts_toString laws (isChunk_of_uploadChunkId hchunkId)

/-- Whatever fails, fails before a byte is in the file and, where the request fills the
session, before the chunk is to be stored. -/
def FailsEarly (crates : Crates) (faults : PatchFaults) (gateway : ZoneGateway)
    (request : PatchRequest) (now : Nat) : Prop :=
  ∀ session path bytes, gateway.TakesBody request now session path bytes →
    faults.collectBody = none →
      match faults.append with
      | some fault => fault.written = 0
      | none => session.offset + request.body.length = session.chunkSize →
          Persists crates faults gateway session (bytes ++ request.body) now ∧
            Answerable crates session (bytes ++ request.body)

section Outcomes

variable {crates : Crates} {faults : PatchFaults} {gateway : ZoneGateway}
  {request : PatchRequest} {now : Nat} {session : UploadSession} {path : TempFilePath}
  {bytes : List UInt8}

theorem patchLockedWith_fits {clientOffset : Nat}
    (h : gateway.FitsBody request clientOffset session path bytes) :
    gateway.patchLockedWith crates faults request clientOffset now =
      gateway.writeBody crates faults session path bytes request.body now := by
  unfold patchLockedWith
  rw [if_neg h.body, h.found]
  dsimp only
  rw [if_neg (not_not.mpr h.offset), if_neg (Nat.not_lt_of_le h.fits), h.file, h.path]

/-- Under the lock a body fits, or nothing happens. -/
theorem patchLockedWith_cases (crates : Crates) (faults : PatchFaults) (gateway : ZoneGateway)
    (request : PatchRequest) (clientOffset now : Nat) :
    (∃ session path bytes, gateway.FitsBody request clientOffset session path bytes) ∨
      ∃ e, gateway.patchLockedWith crates faults request clientOffset now =
        (gateway, .error e) := by
  unfold patchLockedWith
  by_cases hbody : request.body = []
  · rw [if_pos hbody]
    exact Or.inr ⟨_, rfl⟩
  rw [if_neg hbody]
  cases hfind : gateway.state.sessions.find? request.sessionId with
  | none => exact Or.inr ⟨_, rfl⟩
  | some session =>
  dsimp only
  by_cases hoffset : clientOffset = session.offset
  swap
  · rw [if_pos hoffset]
    exact Or.inr ⟨_, rfl⟩
  rw [if_neg (not_not.mpr hoffset)]
  by_cases hfit : session.chunkSize < session.offset + request.body.length
  · rw [if_pos hfit]
    exact Or.inr ⟨_, rfl⟩
  rw [if_neg hfit]
  cases hbytes : gateway.tempBytes session with
  | none => exact Or.inr ⟨_, rfl⟩
  | some bytes =>
      obtain ⟨path, hpath, -⟩ := Option.bind_eq_some_iff.mp hbytes
      exact Or.inl ⟨session, path, bytes, hbody, hfind, hoffset, Nat.le_of_not_lt hfit, hpath,
        hbytes⟩

theorem handlePatchUpload_takes (htakes : gateway.TakesBody request now session path bytes)
    (hcollect : faults.collectBody = none) :
    gateway.handlePatchUpload crates faults request now =
      some (gateway.writeBody crates faults session path bytes request.body now) := by
  have hheaders : patchHeaders request = .ok session.offset := by
    unfold patchHeaders
    rw [if_neg (not_not.mpr htakes.contentType), htakes.uploadOffset]
  have hactive := htakes.active
  have hfirst : gateway.patchFirstLook request = .ok none := by
    unfold patchFirstLook
    rw [htakes.fitsBody.found]
    dsimp only
    cases hstatus : session.status <;> rw [hstatus] at hactive <;> first | rfl | cases hactive
  have hsecond : gateway.patchSecondLook request session.offset now = .accepted := by
    have hfresh : ¬ gateway.sessionTtl < now - session.updatedAt :=
      Nat.not_lt_of_le htakes.fresh
    unfold patchSecondLook
    rw [htakes.fitsBody.found]
    dsimp only
    cases hstatus : session.status <;> rw [hstatus] at hactive <;>
      first | exact (if_neg hfresh).trans (if_neg (not_not.mpr rfl)) | cases hactive
  unfold handlePatchUpload
  rw [hheaders]
  dsimp only
  rw [hfirst]
  dsimp only
  rw [hsecond]
  dsimp only
  rw [hcollect]
  dsimp only
  rw [patchLockedWith_fits htakes.fitsBody]

/-- A session that both looks accept. -/
theorem takesBody_of_looks {clientOffset : Nat} (hheaders : patchHeaders request = .ok clientOffset)
    (hsecond : gateway.patchSecondLook request clientOffset now = .accepted)
    (hfits : gateway.FitsBody request clientOffset session path bytes) :
    gateway.TakesBody request now session path bytes := by
  unfold patchHeaders at hheaders
  split_ifs at hheaders with hcontent
  unfold patchSecondLook at hsecond
  rw [hfits.found] at hsecond
  dsimp only at hsecond
  have hlook : session.status.isActive = true ∧ now - session.updatedAt ≤ gateway.sessionTtl := by
    cases hstatus : session.status <;> rw [hstatus] at hsecond <;> dsimp only at hsecond <;>
      first
      | cases hsecond
      | (split_ifs at hsecond with hexpired
         exact ⟨rfl, Nat.le_of_not_lt hexpired⟩)
  refine ⟨not_not.mp hcontent, ?_, hlook.1, hlook.2, hfits.offset ▸ hfits⟩
  cases hupload : request.uploadOffset with
  | none =>
      rw [hupload] at hheaders
      cases hheaders
  | some offset =>
      rw [hupload] at hheaders
      cases hheaders
      rw [hfits.offset]

/-- A request does nothing, or writes its body. -/
theorem handlePatchUpload_cases {gateway' : ZoneGateway} {answer : NdnResult GatewayResponse}
    (h : gateway.handlePatchUpload crates faults request now = some (gateway', answer)) :
    gateway' = gateway ∨ ∃ session path bytes,
      gateway.TakesBody request now session path bytes ∧ faults.collectBody = none ∧
        (gateway', answer) =
          gateway.writeBody crates faults session path bytes request.body now := by
  unfold handlePatchUpload at h
  cases hheaders : patchHeaders request with
  | error e =>
      rw [hheaders] at h
      cases h
      exact Or.inl rfl
  | ok clientOffset =>
  rw [hheaders] at h
  dsimp only at h
  cases hfirst : gateway.patchFirstLook request with
  | error e =>
      rw [hfirst] at h
      cases h
      exact Or.inl rfl
  | ok completed =>
  rw [hfirst] at h
  cases completed with
  | some response =>
      dsimp only at h
      cases hcollect : faults.collectBody <;> rw [hcollect] at h <;> cases h <;> exact Or.inl rfl
  | none =>
  dsimp only at h
  cases hsecond : gateway.patchSecondLook request clientOffset now with
  | refused e =>
      rw [hsecond] at h
      cases h
      exact Or.inl rfl
  | panicked =>
      rw [hsecond] at h
      cases h
  | accepted =>
  rw [hsecond] at h
  dsimp only at h
  cases hcollect : faults.collectBody with
  | some e =>
      rw [hcollect] at h
      cases h
      exact Or.inl rfl
  | none =>
  rw [hcollect] at h
  rw [Option.some.injEq] at h
  rcases patchLockedWith_cases crates faults gateway request clientOffset now with
    ⟨session, path, bytes, hfits⟩ | ⟨e, hnothing⟩
  · rw [patchLockedWith_fits hfits] at h
    exact Or.inr ⟨session, path, bytes, takesBody_of_looks hheaders hsecond hfits, rfl, h.symm⟩
  · rw [hnothing] at h
    exact Or.inl (Prod.mk.inj h).1.symm

/-- A chunk is stored and its session completed, or the request fails with the sessions, the
files and the usage as they were when it began to store it. -/
theorem persistUploadWith_outcome (crates : Crates) (faults : PatchFaults)
    (gateway : ZoneGateway) (session : UploadSession) (content : List UInt8) (now : Nat) :
    (Persists crates faults gateway session content now ∧
        ∃ storeMgr chunkId, uploadChunkId crates session.chunkHash content = .ok chunkId ∧
          gateway.persistUploadWith crates faults session content now =
            (gateway.completeSession session storeMgr (chunkId.toObjId.toString crates),
              buildSessionResponse 204
                (completedSession session (chunkId.toObjId.toString crates)))) ∨
      (¬ Persists crates faults gateway session content now ∧
        (∃ e, (gateway.persistUploadWith crates faults session content now).2 = .error e) ∧
        (gateway.persistUploadWith crates faults session content now).1.state = gateway.state) := by
  unfold Persists persistUploadWith
  cases hid : persistedId crates faults session.chunkHash content with
  | error e =>
      refine Or.inr ⟨?_, ⟨e, rfl⟩, rfl⟩
      rintro ⟨hread, -, -, chunkId, outcome, hchunkId, -⟩
      unfold persistedId at hid
      cases hhash : session.chunkHash with
      | none =>
          rw [hhash, hread hhash] at hid
          rw [hhash] at hchunkId
          cases hchunkId.symm.trans hid
      | some hash =>
          rw [hhash] at hid hchunkId
          cases hchunkId.symm.trans hid
  | ok chunkId =>
  have hnamed : uploadChunkId crates session.chunkHash content = .ok chunkId ∧
      (session.chunkHash = none → faults.readForHash = none) := by
    unfold persistedId at hid
    cases hhash : session.chunkHash with
    | none =>
        rw [hhash] at hid
        cases hread : faults.readForHash with
        | none =>
            rw [hread] at hid
            exact ⟨hid, fun _ => rfl⟩
        | some text =>
            rw [hread] at hid
            cases hid
    | some hash =>
        rw [hhash] at hid
        exact ⟨hid, fun h => nomatch h⟩
  unfold persistChunk
  dsimp only
  cases hopen : faults.openForPersist with
  | some text =>
      refine Or.inr ⟨?_, ⟨_, rfl⟩, rfl⟩
      rintro ⟨-, hnone, -⟩
      cases hnone
  | none =>
  cases hput : faults.putChunk with
  | some failed =>
      refine Or.inr ⟨?_, ⟨failed.2, rfl⟩, rfl⟩
      rintro ⟨-, -, hnone, -⟩
      cases hnone
  | none =>
  dsimp only
  rcases hstore : gateway.storeMgr.putChunkByReader crates now chunkId session.chunkSize
    (ChunkSource.ofBytes content) with ⟨storeMgr, e | outcome⟩
  · refine Or.inr ⟨?_, ⟨e, rfl⟩, rfl⟩
    rintro ⟨-, -, -, chunkId', outcome, hchunkId, hok⟩
    rw [hnamed.1, Except.ok.injEq] at hchunkId
    subst hchunkId
    rw [hstore] at hok
    cases hok
  · refine Or.inl ⟨⟨hnamed.2, rfl, rfl, chunkId, outcome, hnamed.1, ?_⟩, storeMgr, chunkId,
      hnamed.1, rfl⟩
    rw [hstore]

theorem appendTempFile_nil (gateway : ZoneGateway) (path : TempFilePath) :
    gateway.appendTempFile path [] = gateway := by
  have hfiles : gateway.tempFiles.updateKey path
      (fun file => { file with bytes := file.bytes ++ [] }) (fun _ => rfl) = gateway.tempFiles :=
    Table.updateKey_eq_self _ _ fun file => by rw [List.append_nil]
  unfold appendTempFile
  rw [hfiles]

/-- The file of a session after an append to it. -/
theorem tempBytes_appendTempFile (hpath : session.tempFilePath = some path)
    (hbytes : gateway.tempBytes session = some bytes) (body : List UInt8) :
    (gateway.appendTempFile path body).tempBytes session = some (bytes ++ body) := by
  unfold tempBytes at hbytes ⊢
  rw [hpath, Option.bind_some] at hbytes ⊢
  obtain ⟨file, hfile, rfl⟩ := Option.map_eq_some_iff.mp hbytes
  rw [tempFiles_appendTempFile, if_pos rfl, hfile]
  rfl

/-- The sessions after a body was written. -/
theorem find?_takeBody (gateway : ZoneGateway) (session : UploadSession) (path : TempFilePath)
    (body : List UInt8) (now : Nat) (k : SessionId) :
    (gateway.takeBody session path body now).state.sessions.find? k =
      if k = session.sessionId then
        (gateway.state.sessions.find? k).map fun s => s.grown body.length now
      else gateway.state.sessions.find? k :=
  Table.find?_updateKey gateway.state.sessions session.sessionId k
    (fun s => s.grown body.length now) fun _ => rfl

theorem writeBody_of_fault {fault : AppendFault} (h : faults.append = some fault)
    (body : List UInt8) :
    gateway.writeBody crates faults session path bytes body now =
      (gateway.appendTempFile path (body.take fault.written), .error fault.error) := by
  unfold writeBody
  rw [h]

theorem writeBody_full (h : faults.append = none) {body : List UInt8}
    (hfull : session.offset + body.length = session.chunkSize) :
    gateway.writeBody crates faults session path bytes body now =
      (gateway.takeBody session path body now).persistUploadWith crates faults
        (session.grown body.length now) (bytes ++ body) now := by
  unfold writeBody
  rw [h]
  exact if_pos hfull

theorem writeBody_grows (h : faults.append = none) {body : List UInt8}
    (hpart : session.offset + body.length ≠ session.chunkSize) :
    gateway.writeBody crates faults session path bytes body now =
      ((gateway.takeBody session path body now).countBytes session.appId body.length,
        .ok (uploadingResponse (session.offset + body.length))) := by
  unfold writeBody
  rw [h]
  exact if_neg hpart

end Outcomes

/-- A `PATCH` that is handled alone and fails leaves everything as it was if and only if
whatever fails, fails early. -/
theorem handlePatchUpload_error_kept_iff (crates : Crates) (faults : PatchFaults)
    (gateway gateway' : ZoneGateway) (request : PatchRequest) (now : Nat)
    (answer : NdnResult GatewayResponse)
    (h : gateway.handlePatchUpload crates faults request now = some (gateway', answer)) :
    (∀ e, answer = .error e → FailedStepKept request.sessionId gateway gateway') ↔
      FailsEarly crates faults gateway request now := by
  constructor
  · intro hkept session path bytes htakes hcollect
    have hfits := htakes.fitsBody
    have hlength := List.length_pos_of_ne_nil hfits.body
    rw [handlePatchUpload_takes htakes hcollect, Option.some.injEq] at h
    cases happend : faults.append with
    | some fault =>
        rw [writeBody_of_fault happend] at h
        obtain ⟨rfl, rfl⟩ := Prod.mk.inj h
        obtain ⟨s, hs, -, -, hbytes⟩ := (hkept _ rfl).session session hfits.found
        -- An append changes no session, so this is the session's own file.
        obtain rfl : session = s := Option.some.inj (hfits.found.symm.trans hs)
        rw [tempBytes_appendTempFile hfits.path hfits.file, hfits.file, Option.some.injEq,
          List.append_right_eq_self, List.take_eq_nil_iff] at hbytes
        exact hbytes.resolve_right hfits.body
    | none =>
        intro hfull
        rw [writeBody_full happend hfull] at h
        -- The session has its new offset whether or not its chunk is stored.
        have hmoved : ∀ after : ZoneGateway, (∃ s, after.state.sessions.find?
            request.sessionId = some s ∧ s.offset = session.offset + request.body.length) →
            ¬ FailedStepKept request.sessionId gateway after := by
          rintro after ⟨s, hs, hoffset⟩ hkept
          obtain ⟨t, ht, hsame, -⟩ := hkept.session session hfits.found
          obtain rfl : s = t := Option.some.inj (hs.symm.trans ht)
          omega
        have hid := (Table.find?_eq_some_iff.mp hfits.found).2
        have htaken : (gateway.takeBody session path request.body now).state.sessions.find?
            request.sessionId = some (session.grown request.body.length now) := by
          rw [find?_takeBody, if_pos hid.symm, hfits.found]
          rfl
        rcases persistUploadWith_outcome crates faults
          (gateway.takeBody session path request.body now)
          (session.grown request.body.length now) (bytes ++ request.body) now with
          ⟨hpersists, storeMgr, chunkId, hchunkId, hstored⟩ | ⟨-, ⟨e, herror⟩, hstate⟩
        · refine ⟨hpersists, ?_⟩
          by_contra hnot
          have hsendable := @answerable_iff_sendable _ (session.grown request.body.length now)
            _ _ hchunkId
          change ¬ Answerable crates (session.grown request.body.length now)
            (bytes ++ request.body) at hnot
          rw [hsendable] at hnot
          rw [hstored] at h
          obtain ⟨rfl, rfl⟩ := Prod.mk.inj h
          refine hmoved _ ⟨completedSession (session.grown request.body.length now)
            (chunkId.toObjId.toString crates), ?_, rfl⟩ (hkept invalidResponse (if_neg hnot))
          rw [find?_completeSession, htaken]
          exact if_pos hid.symm
        · rw [h] at herror hstate
          refine absurd (hkept e herror)
            (hmoved gateway' ⟨session.grown request.body.length now, ?_, rfl⟩)
          dsimp only at hstate
          rw [hstate]
          exact htaken
  · intro hearly e herror
    subst herror
    rcases handlePatchUpload_cases h with rfl | ⟨session, path, bytes, htakes, hcollect, hwrite⟩
    · exact .refl _ _
    have hfails := hearly session path bytes htakes hcollect
    cases happend : faults.append with
    | some fault =>
        rw [happend] at hfails
        dsimp only at hfails
        rw [writeBody_of_fault happend, hfails, List.take_zero, appendTempFile_nil] at hwrite
        rw [(Prod.mk.inj hwrite).1]
        exact .refl _ _
    | none =>
        rw [happend] at hfails
        dsimp only at hfails
        by_cases hfull : session.offset + request.body.length = session.chunkSize
        · rw [writeBody_full happend hfull] at hwrite
          rcases persistUploadWith_outcome crates faults
            (gateway.takeBody session path request.body now)
            (session.grown request.body.length now) (bytes ++ request.body) now with
            ⟨-, storeMgr, chunkId, hchunkId, hstored⟩ | ⟨hnot, -⟩
          · have hsendable := (@answerable_iff_sendable _
              (session.grown request.body.length now) _ _ hchunkId).mp (hfails hfull).2
            rw [hstored, buildSessionResponse_eq_ok hsendable] at hwrite
            cases (Prod.mk.inj hwrite).2
          · exact absurd (hfails hfull).1 hnot
        · rw [writeBody_grows happend hfull] at hwrite
          cases (Prod.mk.inj hwrite).2

/-! ## Two requests -/

/-- The session of one byte, with this hash. -/
def oneByteSessionOf (chunkHash : Option String) : ZoneGateway :=
  (run (UploadSystem.step sampleCrates 1) startedUploads
    [.create ⟨some 1, .ok ⟨"app", "file", none, 0, chunkHash⟩, "", none⟩ SessionOrder.insertion
      0 0]).gateway

/-- The disk is full. -/
def diskFull : PatchFaults :=
  { PatchFaults.none with append := some (.writeFails 0 "No space left on device (os error 28)") }

/-- A disk that takes no byte fails the request and changes nothing. -/
theorem diskFull_kept :
    ∃ gateway' e, (oneByteSessionOf none).handlePatchUpload sampleCrates diskFull oneBytePatch 0 =
        some (gateway', .error e) ∧
      FailedStepKept oneBytePatch.sessionId (oneByteSessionOf none) gateway' := by
  have hfails : ((oneByteSessionOf none).handlePatchUpload sampleCrates diskFull oneBytePatch
      0).any (fun result => result.2.toOption.isNone) = true := by
    decide
  obtain ⟨⟨gateway', answer⟩, hresult, hnone⟩ := (Option.any_eq_true _ _).mp hfails
  have hkept := (handlePatchUpload_error_kept_iff sampleCrates diskFull (oneByteSessionOf none)
    gateway' oneBytePatch 0 answer hresult).mpr fun _ _ _ _ _ => rfl
  cases answer with
  | error e => exact ⟨gateway', e, hresult, hkept e rfl⟩
  | ok response => cases hnone

/-- The hash of the session names nothing: the request that fills it fails, and the session
stays full without a chunk. -/
theorem uselessHash_keeps_offset :
    ¬ ∀ crates faults (gateway gateway' : ZoneGateway) request now e,
      gateway.handlePatchUpload crates faults request now = some (gateway', .error e) →
        FailedStepKept request.sessionId gateway gateway' := by
  intro h
  have hfails : ((oneByteSessionOf (some "abc")).handlePatchUpload sampleCrates .none oneBytePatch
      0).any (fun result => result.2.toOption.isNone && decide
        ((result.1.state.sessions.find? oneBytePatch.sessionId).map UploadSession.offset =
          some 1)) = true := by
    decide
  have hstart : ((oneByteSessionOf (some "abc")).state.sessions.find?
      oneBytePatch.sessionId).map UploadSession.offset = some 0 := by
    decide
  obtain ⟨⟨gateway', answer⟩, hresult, hmoved⟩ := (Option.any_eq_true _ _).mp hfails
  rw [Bool.and_eq_true, decide_eq_true_eq] at hmoved
  obtain ⟨s, hs, hoffset⟩ := Option.map_eq_some_iff.mp hstart
  cases answer with
  | error e =>
      obtain ⟨s', hs', hkept, -⟩ := (h _ _ _ _ _ _ e hresult).session s hs
      dsimp only at hmoved
      rw [hs', Option.map_some, hkept, hoffset] at hmoved
      cases hmoved.2
  | ok response => cases hmoved.1

end ZoneGateway

end NamedStore
end CyfsNdn

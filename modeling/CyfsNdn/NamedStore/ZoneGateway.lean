import CyfsNdn.NamedStore.ManagerPut
import CyfsNdn.NdnLib.HeaderCodec
import Mathlib.Data.List.Sort

/-!
# The upload gateway

The upload protocol of `named_store/src/ndm_zone_gateway.rs`: sessions for single
chunks, their index by key, the temporary files that collect the bytes, and the
quota of each application.

A handler that holds the write lock holds it to its end, so a creation, a `HEAD`,
a collection and the last part of a `PATCH` are one step each.  A `PATCH` looks at
its session under two read locks before that, one after the other, and reads the
body under none; these are functions of their own.

Headers come parsed.  The time of expiry in the answers is left out, and so are the headers
that are the same in every answer.
-/

namespace CyfsNdn
namespace NamedStore

open NdnLib Relational

/-- `calc_mix_chunk_id_from_bytes` of a new hasher, whose method is the default
one. -/
def calcMixChunkIdFromBytes (crates : Crates) (content : List UInt8) : NdnResult ChunkId :=
  match HashHelper.createHasher .sha256 with
  | .error e => .error e
  | .ok hasher => ChunkHasher.finalizeChunkId crates hasher true content

/-- `MAX_CHUNK_SIZE`. -/
def maxChunkSize : Nat := 32 * 1024 * 1024

/-- `DEFAULT_APP_QUOTA`. -/
def defaultAppQuota : Nat := 512 * 1024 * 1024

/-- `ChunkUploadStatus`. -/
inductive ChunkUploadStatus where
  | pending
  | uploading
  | completed
  | skipped
  | expired
  deriving DecidableEq, Repr

/-- `as_str`. -/
def ChunkUploadStatus.asStr : ChunkUploadStatus → String
  | .pending => "pending"
  | .uploading => "uploading"
  | .completed => "completed"
  | .skipped => "skipped"
  | .expired => "expired"

/-- The session still takes bytes. -/
def ChunkUploadStatus.isActive : ChunkUploadStatus → Bool
  | .pending | .uploading => true
  | .completed | .skipped | .expired => false

/-- `UploadMetadata`, the fields that a session keeps. -/
structure UploadMetadata where
  appId : String
  logicalPath : String
  fileHash : Option String
  chunkIndex : UInt32
  chunkHash : Option String
  deriving DecidableEq, Repr

/-- A session id, the text `us_{millis:016x}_{seq:08x}`.  A text of another form
names no session. -/
structure SessionId where
  millis : Nat
  seq : Nat
  deriving DecidableEq, Repr

/-- The path `{cache_dir}/{app_id}/{session_id}_{chunk_index}.tmp`. -/
structure TempFilePath where
  appId : String
  sessionId : SessionId
  chunkIndex : UInt32
  deriving DecidableEq, Repr

/-- A temporary file. -/
structure TempFile where
  path : TempFilePath
  bytes : List UInt8
  deriving DecidableEq, Repr

/-- `SessionKey`. -/
structure SessionKey where
  appId : String
  logicalPath : String
  fileHash : String
  chunkIndex : UInt32
  deriving DecidableEq, Repr

/-- `UploadSession`; the empty path is `none`. -/
structure UploadSession where
  sessionId : SessionId
  canonicalUploadId : String
  appId : String
  logicalPath : String
  fileHash : Option String
  chunkIndex : UInt32
  chunkHash : Option String
  chunkSize : Nat
  offset : Nat
  status : ChunkUploadStatus
  tempFilePath : Option TempFilePath
  updatedAt : Nat
  chunkObjectId : Option String
  rawMetadata : String
  deriving DecidableEq, Repr

/-- The key under which a session is indexed. -/
def UploadSession.key (session : UploadSession) : SessionKey where
  appId := session.appId
  logicalPath := session.logicalPath
  fileHash := session.fileHash.getD ""
  chunkIndex := session.chunkIndex

/-- An entry of `key_index`. -/
structure KeyEntry where
  key : SessionKey
  sessionId : SessionId
  deriving DecidableEq, Repr

/-- `AppCacheUsage`, with the application that it is kept for. -/
structure AppCacheUsage where
  appId : String
  bytesInUse : Nat
  quotaBytes : Nat
  deriving DecidableEq, Repr

/-- `UploadStateManager`. -/
structure UploadStateManager where
  sessions : Table UploadSession UploadSession.sessionId
  keyIndex : Table KeyEntry KeyEntry.key
  appUsage : Table AppCacheUsage AppCacheUsage.appId
  nextSessionSeq : Nat

/-- `NamedDataMgrZoneGateway`, with the temporary files. -/
structure ZoneGateway where
  storeMgr : NamedDataMgr
  sessionTtl : Nat
  state : UploadStateManager
  tempFiles : Table TempFile TempFile.path

/-- An order in which the map of the sessions yields them. -/
structure SessionOrder where
  values : List UploadSession → List UploadSession
  perm : ∀ sessions, (values sessions).Perm sessions

/-- The sessions in the order in which they were created. -/
def SessionOrder.insertion : SessionOrder := ⟨id, fun _ => List.Perm.refl _⟩

/-- What an answer says. -/
structure GatewayResponse where
  status : Nat
  location : Option SessionId
  uploadId : Option String
  uploadOffset : Option Nat
  uploadLength : Option Nat
  uploadMetadata : Option String
  chunkStatus : Option String
  chunkObjectId : Option String
  deriving DecidableEq, Repr

/-- A `POST` on the uploads; `metadata` is what `parse_upload_metadata` gives. -/
structure CreateRequest where
  uploadLength : Option Nat
  metadata : NdnResult UploadMetadata
  rawMetadata : String
  ndmUploadId : Option String

/-- A `PATCH` on a session; `sessionText` is the id as the path has it. -/
structure PatchRequest where
  sessionId : SessionId
  sessionText : String
  contentType : String
  uploadOffset : Option Nat
  body : List UInt8
  deriving DecidableEq, Repr

/-- What a `PATCH` finds under its second read lock. -/
inductive SecondLook where
  | accepted
  | refused (e : NdnError)
  | panicked
  deriving DecidableEq

namespace ZoneGateway

/-- The text can be the value of a header. -/
def headerAccepts (text : String) : Bool := (headerValueFromStr text).isSome

/-- The error of a response that has a header with another value. -/
def invalidResponse : NdnError := .internal "build response: failed to parse header value"

/-- The headers that tell about a session. -/
def sessionResponse (status : Nat) (session : UploadSession) : GatewayResponse where
  status := status
  location := some session.sessionId
  uploadId := some session.canonicalUploadId
  uploadOffset := some session.offset
  uploadLength := some session.chunkSize
  uploadMetadata := none
  chunkStatus := some session.status.asStr
  chunkObjectId := session.chunkObjectId

/-- The texts of a session that its headers hold. -/
def sessionSendable (session : UploadSession) : Bool :=
  headerAccepts session.canonicalUploadId && session.chunkObjectId.all headerAccepts

/-- `build_session_response`.  The application may have any name, and the upload id that is
made of it need not be a header value. -/
def buildSessionResponse (status : Nat) (session : UploadSession) : NdnResult GatewayResponse :=
  if sessionSendable session then .ok (sessionResponse status session)
  else .error invalidResponse

theorem buildSessionResponse_eq_ok {session : UploadSession} (h : sessionSendable session = true)
    (status : Nat) :
    buildSessionResponse status session = .ok (sessionResponse status session) :=
  if_pos h

theorem eq_of_buildSessionResponse {session : UploadSession} {status : Nat}
    {response : GatewayResponse} (h : buildSessionResponse status session = .ok response) :
    response = sessionResponse status session := by
  unfold buildSessionResponse at h
  split_ifs at h
  exact (Except.ok.inj h).symm

theorem eq_of_buildSessionResponse_error {session : UploadSession} {status : Nat} {e : NdnError}
    (h : buildSessionResponse status session = .error e) : e = invalidResponse := by
  unfold buildSessionResponse at h
  split_ifs at h
  exact (Except.error.inj h).symm

/-! ## Sessions that go away -/

/-- `remove_temp_cache_file`. -/
def removeTempCacheFile (files : Table TempFile TempFile.path) (path : Option TempFilePath) :
    Table TempFile TempFile.path :=
  match path with
  | none => files
  | some path => files.deleteKey path

/-- What eviction, expiry and invalidation have in common: the session, its entry
in the index and its file are removed. -/
def dropSession (gateway : ZoneGateway) (session : UploadSession) : ZoneGateway :=
  { gateway with
    state := { gateway.state with
      sessions := gateway.state.sessions.deleteKey session.sessionId
      keyIndex := gateway.state.keyIndex.deleteKey session.key }
    tempFiles := removeTempCacheFile gateway.tempFiles session.tempFilePath }

/-- `bytes_in_use.saturating_sub` for an application that has an entry. -/
def releaseUsage (gateway : ZoneGateway) (appId : String) (bytes : Nat) : ZoneGateway :=
  { gateway with
    state := { gateway.state with
      appUsage := gateway.state.appUsage.updateKey appId
        (fun usage => { usage with bytesInUse := usage.bytesInUse - bytes }) fun _ => rfl } }

/-- The loop of `evict_lru_for_app` over its candidates, and the bytes it freed. -/
def evictOldest (needed : Nat) : ZoneGateway → Nat → List (SessionId × Nat) → ZoneGateway × Nat
  | gateway, freed, [] => (gateway, freed)
  | gateway, freed, (sid, offsetBytes) :: rest =>
      if needed ≤ freed then (gateway, freed)
      else
        match gateway.state.sessions.find? sid with
        | none => evictOldest needed gateway freed rest
        | some session =>
            evictOldest needed (gateway.dropSession session) (freed + offsetBytes) rest

/-- `evict_lru_for_app`. -/
def evictLruForApp (order : SessionOrder) (gateway : ZoneGateway) (appId : String)
    (needed : Nat) : ZoneGateway × Nat :=
  let candidates := (order.values gateway.state.sessions.rows).filter fun session =>
    session.appId = appId && session.status.isActive
  let sorted := candidates.insertionSort fun s t => s.updatedAt ≤ t.updatedAt
  let evicted := evictOldest needed gateway 0
    (sorted.map fun session => (session.sessionId, session.offset))
  (evicted.1.releaseUsage appId evicted.2, evicted.2)

/-- The loops of `expire_sessions` and `invalidate_stale_sessions`, which drop the
listed sessions and take their bytes off the usage. -/
def dropListed (gateway : ZoneGateway) (sids : List SessionId) : ZoneGateway :=
  sids.foldl (fun gateway sid =>
    match gateway.state.sessions.find? sid with
    | none => gateway
    | some session => (gateway.dropSession session).releaseUsage session.appId session.offset)
    gateway

/-- `expire_sessions`. -/
def expireSessions (gateway : ZoneGateway) (now : Nat) : ZoneGateway :=
  gateway.dropListed ((gateway.state.sessions.rows.filter fun session =>
    session.status.isActive && decide (gateway.sessionTtl < now - session.updatedAt)).map
      UploadSession.sessionId)

/-- `invalidate_stale_sessions`. -/
def invalidateStaleSessions (gateway : ZoneGateway) (appId logicalPath newFileHash : String) :
    ZoneGateway :=
  gateway.dropListed ((gateway.state.sessions.rows.filter fun session =>
    session.appId = appId && session.logicalPath = logicalPath &&
      decide (session.fileHash.getD "" ≠ newFileHash) && session.status.isActive).map
        UploadSession.sessionId)

/-! ## Creating a session -/

/-- `validate_logical_path`. -/
def validateLogicalPath (path : String) : NdnResult Unit :=
  if path = "" then .error (.invalidParam "logical_path cannot be empty")
  else if ['.', '.'] <:+: path.toList then
    .error (.invalidParam "logical_path must not contain '..' (directory traversal)")
  else if path.toList.head? = some '/' then
    .error (.invalidParam "logical_path must not start with '/' (must be relative)")
  else
    -- Not ASCII, an ASCII control character, or a backslash.
    match path.toList.find? fun ch =>
      127 ≤ ch.toNat || decide (ch.toNat < 32) || ch.toNat == 92 with
    | some ch => .error (.invalidParam ("logical_path contains unsafe character: '" ++
        String.ofList [ch] ++ "'"))
    | none => .ok ()

/-- `canonical_upload_id`. -/
def canonicalUploadId (request : CreateRequest) (metadata : UploadMetadata) : String :=
  request.ndmUploadId.getD ("path:" ++ metadata.appId ++ "/" ++ metadata.logicalPath)

/-- The chunk that `chunk_hash` names, if it names one. -/
def namedChunk (crates : Crates) (metadata : UploadMetadata) : Option ChunkId :=
  match metadata.chunkHash with
  | none => none
  | some chunkHash =>
      match ObjId.new crates chunkHash with
      | .error _ => none
      | .ok objId => if objId.isChunk then some (ChunkId.fromObjId objId) else none

/-- `generate_session_id`. -/
def generateSessionId (gateway : ZoneGateway) (millis : Nat) : ZoneGateway × SessionId :=
  ({ gateway with
      state := { gateway.state with nextSessionSeq := gateway.state.nextSessionSeq + 1 } },
    ⟨millis, gateway.state.nextSessionSeq⟩)

/-- `sessions.insert` and `key_index.insert`. -/
def insertSession (gateway : ZoneGateway) (session : UploadSession) (key : SessionKey) :
    ZoneGateway :=
  { gateway with
    state := { gateway.state with
      sessions := gateway.state.sessions.insertOrReplace session
      keyIndex := gateway.state.keyIndex.insertOrReplace ⟨key, session.sessionId⟩ } }

/-- `get_or_create_app_usage`. -/
def getOrCreateAppUsage (gateway : ZoneGateway) (appId : String) :
    ZoneGateway × AppCacheUsage :=
  let fresh : AppCacheUsage := ⟨appId, 0, defaultAppQuota⟩
  ({ gateway with
      state := { gateway.state with
        appUsage := gateway.state.appUsage.insertOrIgnore fresh } },
    (gateway.state.appUsage.find? appId).getD fresh)

/-- The check of the quota, with an eviction if it is exceeded. -/
def checkQuota (order : SessionOrder) (gateway : ZoneGateway) (appId : String)
    (chunkSize : Nat) : ZoneGateway × NdnResult Unit :=
  let (gateway, usage) := gateway.getOrCreateAppUsage appId
  if usage.bytesInUse + chunkSize ≤ usage.quotaBytes then (gateway, .ok ())
  else
    let (gateway, freed) := gateway.evictLruForApp order appId
      (usage.bytesInUse + chunkSize - usage.quotaBytes)
    let (gateway, usage) := gateway.getOrCreateAppUsage appId
    if usage.bytesInUse + chunkSize ≤ usage.quotaBytes then (gateway, .ok ())
    else
      (gateway, .error (.ioError ("app " ++ appId ++ " cache quota exceeded: in_use=" ++
        toString usage.bytesInUse ++ ", needed=" ++ toString chunkSize ++ ", quota=" ++
        toString usage.quotaBytes ++ ", freed=" ++ toString freed)))

/-- The session that a creation makes when nothing has to be uploaded. -/
def skippedSession (crates : Crates) (request : CreateRequest) (metadata : UploadMetadata)
    (sid : SessionId) (chunkSize now : Nat) (chunkId : ChunkId) : UploadSession where
  sessionId := sid
  canonicalUploadId := canonicalUploadId request metadata
  appId := metadata.appId
  logicalPath := metadata.logicalPath
  fileHash := metadata.fileHash
  chunkIndex := metadata.chunkIndex
  chunkHash := metadata.chunkHash
  chunkSize := chunkSize
  offset := chunkSize
  status := .skipped
  tempFilePath := none
  updatedAt := now
  chunkObjectId := some (chunkId.toObjId.toString crates)
  rawMetadata := request.rawMetadata

/-- The session of an upload that starts; an upload of length zero is completed. -/
def newSession (request : CreateRequest) (metadata : UploadMetadata) (sid : SessionId)
    (chunkSize now : Nat) : UploadSession where
  sessionId := sid
  canonicalUploadId := canonicalUploadId request metadata
  appId := metadata.appId
  logicalPath := metadata.logicalPath
  fileHash := metadata.fileHash
  chunkIndex := metadata.chunkIndex
  chunkHash := metadata.chunkHash
  chunkSize := chunkSize
  offset := 0
  status := if chunkSize = 0 then .completed else .pending
  tempFilePath := if chunkSize = 0 then none else some ⟨metadata.appId, sid, metadata.chunkIndex⟩
  updatedAt := now
  chunkObjectId := none
  rawMetadata := request.rawMetadata

/-- `handle_create_upload` from the check of the quota on: a new session with an
empty file, which an upload of length zero removes again. -/
def startUpload (order : SessionOrder) (gateway : ZoneGateway) (request : CreateRequest)
    (metadata : UploadMetadata) (chunkSize now millis : Nat) (key : SessionKey) :
    ZoneGateway × NdnResult GatewayResponse :=
  match gateway.checkQuota order metadata.appId chunkSize with
  | (gateway, .error e) => (gateway, .error e)
  | (gateway, .ok ()) =>
      let (gateway, sid) := gateway.generateSessionId millis
      let path : TempFilePath := ⟨metadata.appId, sid, metadata.chunkIndex⟩
      let session := newSession request metadata sid chunkSize now
      let created := gateway.tempFiles.insertOrReplace ⟨path, []⟩
      let files := if chunkSize = 0 then removeTempCacheFile created (some path) else created
      (({ gateway with tempFiles := files } : ZoneGateway).insertSession session key,
        buildSessionResponse 201 session)

/-- `handle_create_upload` from the check of `chunk_hash` on. -/
def createSession (crates : Crates) (fuel : Nat) (order : SessionOrder)
    (gateway : ZoneGateway) (request : CreateRequest) (metadata : UploadMetadata)
    (chunkSize now millis : Nat) (key : SessionKey) :
    ZoneGateway × NdnResult GatewayResponse :=
  match (namedChunk crates metadata).filter fun chunkId =>
    (gateway.storeMgr.haveChunk crates fuel chunkId).getD false with
  | some chunkId =>
      let (gateway, sid) := gateway.generateSessionId millis
      let session := skippedSession crates request metadata sid chunkSize now chunkId
      (gateway.insertSession session key, buildSessionResponse 200 session)
  | none => gateway.startUpload order request metadata chunkSize now millis key

/-- The key of the session that a creation asks for. -/
def requestKey (metadata : UploadMetadata) : SessionKey where
  appId := metadata.appId
  logicalPath := metadata.logicalPath
  fileHash := metadata.fileHash.getD ""
  chunkIndex := metadata.chunkIndex

/-- `handle_create_upload` under the write lock. -/
def createLocked (crates : Crates) (fuel : Nat) (order : SessionOrder)
    (gateway : ZoneGateway) (request : CreateRequest) (metadata : UploadMetadata)
    (chunkSize now millis : Nat) : ZoneGateway × NdnResult GatewayResponse :=
  let key := requestKey metadata
  let gateway := gateway.invalidateStaleSessions metadata.appId metadata.logicalPath
    (metadata.fileHash.getD "")
  match (gateway.state.keyIndex.find? key).bind fun entry =>
    gateway.state.sessions.find? entry.sessionId with
  | some existing =>
      if existing.status = .expired then
        -- The old session is cleared away and a new one takes its place.
        let gateway : ZoneGateway := { gateway with
          state := { gateway.state with
            sessions := gateway.state.sessions.deleteKey existing.sessionId
            keyIndex := gateway.state.keyIndex.deleteKey key }
          tempFiles := removeTempCacheFile gateway.tempFiles existing.tempFilePath }
        gateway.createSession crates fuel order request metadata chunkSize now millis key
      else (gateway, buildSessionResponse 200 existing)
  | none => gateway.createSession crates fuel order request metadata chunkSize now millis key

/-- The answer to a chunk that is too large. -/
def payloadTooLarge : GatewayResponse :=
  ⟨413, none, none, none, none, none, none, none⟩

/-- `handle_create_upload`.  `fuel` bounds the recursion of `have_chunk`. -/
def handleCreateUpload (crates : Crates) (fuel : Nat) (order : SessionOrder)
    (gateway : ZoneGateway) (request : CreateRequest) (now millis : Nat) :
    ZoneGateway × NdnResult GatewayResponse :=
  match request.uploadLength with
  | none => (gateway, .error (.invalidParam "missing Upload-Length header"))
  | some chunkSize =>
      if maxChunkSize < chunkSize then (gateway, .ok payloadTooLarge)
      else
        match request.metadata with
        | .error e => (gateway, .error e)
        | .ok metadata =>
            match validateLogicalPath metadata.logicalPath with
            | .error e => (gateway, .error e)
            | .ok () =>
                gateway.createLocked crates fuel order request metadata chunkSize now millis

/-! ## Asking for a session -/

/-- `handle_head_upload`. -/
def handleHeadUpload (gateway : ZoneGateway) (sid : SessionId) (sidText : String)
    (now : Nat) : NdnResult GatewayResponse :=
  match gateway.state.sessions.find? sid with
  | none => .error (.notFound ("session " ++ sidText ++ " not found"))
  | some session =>
      if session.status.isActive = true ∧ gateway.sessionTtl < now - session.updatedAt then
        .error (.notFound ("session " ++ sidText ++ " expired (410 Gone)"))
      else if sessionSendable session ∧ headerAccepts session.rawMetadata = true then
        .ok { sessionResponse 200 session with
          location := none
          uploadMetadata :=
            if session.rawMetadata = "" then none else some session.rawMetadata }
      else .error invalidResponse

/-! ## Sending bytes -/

/-- What the path of a `PATCH` has no session for. -/
def sessionNotFound (request : PatchRequest) : NdnError :=
  .notFound ("session " ++ request.sessionText ++ " not found")

/-- The checks of the headers: the offset that the client names. -/
def patchHeaders (request : PatchRequest) : NdnResult Nat :=
  if request.contentType ≠ "application/offset+octet-stream" then
    .error (.invalidParam ("PATCH requires Content-Type: application/offset+octet-stream, got: " ++
      request.contentType))
  else
    match request.uploadOffset with
    | none => .error (.invalidParam "missing Upload-Offset header")
    | some clientOffset => .ok clientOffset

/-- Under the first read lock: the answer for a session that is completed. -/
def patchFirstLook (gateway : ZoneGateway) (request : PatchRequest) :
    NdnResult (Option GatewayResponse) :=
  match gateway.state.sessions.find? request.sessionId with
  | none => .error (sessionNotFound request)
  | some session =>
      match session.status with
      | .completed | .skipped => (buildSessionResponse 204 session).map some
      | .pending | .uploading | .expired => .ok none

/-- Under the second read lock. -/
def patchSecondLook (gateway : ZoneGateway) (request : PatchRequest) (clientOffset now : Nat) :
    SecondLook :=
  match gateway.state.sessions.find? request.sessionId with
  | none => .refused (sessionNotFound request)
  | some session =>
      match session.status with
      | .expired => .refused (.notReady ("session " ++ request.sessionText ++
          " expired, cache evicted (410 Gone)"))
      | .completed | .skipped =>
          -- `unreachable!("completed/skipped sessions are handled before validation")`
          .panicked
      | .pending | .uploading =>
          if gateway.sessionTtl < now - session.updatedAt then
            .refused (.notReady ("session " ++ request.sessionText ++ " expired (410 Gone)"))
          else if clientOffset ≠ session.offset then
            .refused (.verifyError ("offset mismatch: client=" ++ toString clientOffset ++
              ", server=" ++ toString session.offset ++ " (409 Conflict)"))
          else .accepted

/-- The id under which a full session is stored: the one that `chunk_hash` names,
or the hash of the content. -/
def uploadChunkId (crates : Crates) (chunkHash : Option String) (content : List UInt8) :
    NdnResult ChunkId :=
  match chunkHash with
  | some hash =>
      match ObjId.new crates hash with
      | .error _ => .error (.invalidParam "chunk_hash is not a valid object id")
      | .ok objId =>
          if objId.isChunk then .ok (ChunkId.fromObjId objId)
          else .error (.invalidParam "chunk_hash is not a valid chunk id format")
  | none => calcMixChunkIdFromBytes crates content

/-- `file.write_all` at the end of a temporary file. -/
def appendTempFile (gateway : ZoneGateway) (path : TempFilePath) (body : List UInt8) :
    ZoneGateway :=
  { gateway with
    tempFiles := gateway.tempFiles.updateKey path
      (fun file => { file with bytes := file.bytes ++ body }) fun _ => rfl }

/-- A change of one session. -/
def updateSession (gateway : ZoneGateway) (sid : SessionId)
    (f : UploadSession → UploadSession) (hf : ∀ s, (f s).sessionId = s.sessionId) :
    ZoneGateway :=
  { gateway with
    state := { gateway.state with sessions := gateway.state.sessions.updateKey sid f hf } }

/-- The bytes of the file of a session. -/
def tempBytes (gateway : ZoneGateway) (session : UploadSession) : Option (List UInt8) :=
  session.tempFilePath.bind fun path => (gateway.tempFiles.find? path).map TempFile.bytes

/-- The answer to a session that is not full. -/
def uploadingResponse (newOffset : Nat) : GatewayResponse :=
  ⟨204, none, none, some newOffset, none, none, some "uploading", none⟩

/-- The session after its chunk was stored. -/
def completedSession (session : UploadSession) (chunkObjectId : String) : UploadSession :=
  { session with
    status := .completed
    chunkObjectId := some chunkObjectId }

/-- After the chunk was stored the session is completed, its bytes are no longer counted and
its file is removed. -/
def completeSession (gateway : ZoneGateway) (session : UploadSession) (storeMgr : NamedDataMgr)
    (chunkObjectId : String) : ZoneGateway :=
  (({ gateway with
      storeMgr := storeMgr
      tempFiles := removeTempCacheFile gateway.tempFiles session.tempFilePath } :
        ZoneGateway).updateSession session.sessionId
      (fun s => completedSession s chunkObjectId) fun _ => rfl).releaseUsage
    session.appId session.chunkSize

/-- The last part of a `PATCH` that fills its session: the chunk is stored and the
session completed, and then the answer is built. -/
def persistUpload (crates : Crates) (gateway : ZoneGateway) (session : UploadSession)
    (content : List UInt8) (now : Nat) : ZoneGateway × NdnResult GatewayResponse :=
  match uploadChunkId crates session.chunkHash content with
  | .error e => (gateway, .error e)
  | .ok chunkId =>
      match gateway.storeMgr.putChunkByReader crates now chunkId session.chunkSize
        (ChunkSource.ofBytes content) with
      | (storeMgr, .error e) => ({ gateway with storeMgr := storeMgr }, .error e)
      | (storeMgr, .ok _) =>
          let chunkObjectId := chunkId.toObjId.toString crates
          (gateway.completeSession session storeMgr chunkObjectId,
            buildSessionResponse 204 (completedSession session chunkObjectId))

/-- Under the write lock, after the body was read. -/
def patchLocked (crates : Crates) (gateway : ZoneGateway) (request : PatchRequest)
    (clientOffset now : Nat) : ZoneGateway × NdnResult GatewayResponse :=
  if request.body = [] then (gateway, .error (.invalidParam "empty body"))
  else
    match gateway.state.sessions.find? request.sessionId with
    | none => (gateway, .error (sessionNotFound request))
    | some session =>
        if clientOffset ≠ session.offset then
          (gateway, .error (.verifyError ("offset mismatch after lock: client=" ++
            toString clientOffset ++ ", server=" ++ toString session.offset)))
        else if session.chunkSize < session.offset + request.body.length then
          (gateway, .error (.invalidParam ("data exceeds chunk size: offset=" ++
            toString session.offset ++ " + body_len=" ++ toString request.body.length ++
            " > chunk_size=" ++ toString session.chunkSize)))
        else
          match gateway.tempBytes session, session.tempFilePath with
          | some bytes, some path =>
              let grown : UploadSession := { session with
                offset := session.offset + request.body.length
                updatedAt := now
                status := .uploading }
              let gateway := (gateway.appendTempFile path request.body).updateSession
                session.sessionId
                (fun s => { s with
                  offset := s.offset + request.body.length
                  updatedAt := now
                  status := .uploading })
                fun _ => rfl
              if grown.offset = grown.chunkSize then
                gateway.persistUpload crates grown (bytes ++ request.body) now
              else
                ({ gateway with
                    state := { gateway.state with
                      appUsage := gateway.state.appUsage.updateKey grown.appId
                        (fun usage => { usage with
                          bytesInUse := usage.bytesInUse + request.body.length })
                        fun _ => rfl } },
                  .ok (uploadingResponse grown.offset))
          | _, _ => (gateway, .error (.ioError "open temp file for append: "))

/-! ## What a header accepts -/

theorem headerAccepts_of_visible {text : String} (h : Visible text) :
    headerAccepts text = true := by
  unfold headerAccepts
  rw [headerValueFromStr_of_visible h]
  rfl

/-- The text of a chunk id has no character that a header refuses. -/
theorem headerAccepts_toString {crates : Crates} (laws : crates.Lawful) {objId : ObjId}
    (hchunk : objId.isChunk = true) : headerAccepts (objId.toString crates) = true := by
  have htypes : ∀ objType ∈ ["sha256", "mix256", "sha512", "mix512", "qcid", "blake2s256",
      "mixblake2s256", "keccak256", "mixkeccak256"], Visible (objType ++ ":") := by
    decide
  have htype : Visible (objId.objType ++ ":") := htypes _ (of_decide_eq_true hchunk)
  exact headerAccepts_of_visible
    ((visible_append _ _).mpr ⟨htype, visible_hexEncode laws objId.objHash⟩)

theorem isChunk_of_uploadChunkId {crates : Crates} {chunkHash : Option String}
    {content : List UInt8} {chunkId : ChunkId}
    (h : uploadChunkId crates chunkHash content = .ok chunkId) :
    chunkId.toObjId.isChunk = true := by
  cases chunkHash with
  | none =>
      cases h
      rfl
  | some hash =>
      unfold uploadChunkId at h
      dsimp only at h
      split at h
      · cases h
      · next objId _ =>
        split_ifs at h with hchunk
        cases h
        rw [ChunkId.toObjId_fromObjId]
        exact hchunk

/-- A session that was completed can be told about if its upload id is a header value. -/
theorem sessionSendable_completed {crates : Crates} (laws : crates.Lawful)
    {chunkHash : Option String} {content : List UInt8} {chunkId : ChunkId}
    (h : uploadChunkId crates chunkHash content = .ok chunkId) {session : UploadSession}
    (hobject : session.chunkObjectId = some (chunkId.toObjId.toString crates)) :
    sessionSendable session = headerAccepts session.canonicalUploadId := by
  unfold sessionSendable
  rw [hobject, Option.all_some, headerAccepts_toString laws (isChunk_of_uploadChunkId h),
    Bool.and_true]

end ZoneGateway

end NamedStore
end CyfsNdn

import CyfsNdn.NdnLib.ObjectContent
import CyfsNdn.NdnToolkit.NdnClient

/-!
# The CYFS client: responses, objects and pulls

`send`, `into_verified_object` and `pull` of `cyfs_ndn_client.rs`.  A call runs in a
`World`: the answers that the server will still give, the store manager that takes
what is pulled, and the local file.  Two fields record what the calls put where: the
bytes written to the file, and the chunks that the store took, each with the bytes
that were put unless the store had the chunk.
-/

namespace CyfsNdn
namespace NdnToolkit

open NdnLib NamedStore

/-- What a call of the client reads and changes. -/
structure World where
  answers : List (NdnResult CyfsTransportResponse)
  storeMgr : Option NamedDataMgr
  now : Nat
  /-- Why the local file cannot be opened, if it cannot. -/
  fileError : Option NdnError
  fileBefore : List UInt8
  lastModifyTime : Nat
  /-- What the progress callback of the caller answers. -/
  progress : NdnProgressCallback
  written : List UInt8
  puts : List (ChunkId × Option (List UInt8))

/-- A call that runs in a world. -/
abbrev Exchange (α : Type) := StateT World (Except NdnError) α

namespace Exchange

/-- A result that does not depend on the world. -/
def lift {α : Type} (result : NdnResult α) : Exchange α := fun w => result.map (·, w)

section Rules

variable {α β : Type} {w w' : World}

theorem bind_eq_ok {x : Exchange α} {f : α → Exchange β} {r : β × World} :
    (x >>= f) w = .ok r ↔ ∃ a w', x w = .ok (a, w') ∧ f a w' = .ok r := by
  constructor
  · intro h
    change (x w >>= fun p => f p.1 p.2) = .ok r at h
    cases hx : x w with
    | error e =>
        rw [hx] at h
        cases h
    | ok p =>
        rw [hx] at h
        exact ⟨p.1, p.2, rfl, h⟩
  · rintro ⟨a, w', hx, hf⟩
    change (x w >>= fun p => f p.1 p.2) = .ok r
    rw [hx]
    exact hf

theorem lift_eq_ok {result : NdnResult α} {r : α × World} :
    lift result w = .ok r ↔ result = .ok r.1 ∧ r.2 = w := by
  unfold lift
  cases result with
  | error e => simp [Except.map]
  | ok a =>
      obtain ⟨b, w'⟩ := r
      simp [Except.map, eq_comm]

theorem pure_eq_ok {a : α} {r : α × World} :
    (pure a : Exchange α) w = .ok r ↔ r = (a, w) := by
  change (Except.ok (a, w) : NdnResult (α × World)) = .ok r ↔ r = (a, w)
  simp [eq_comm]

end Rules

end Exchange

open Exchange

/-- `read_to_end`. -/
def readToEnd (body : ChunkSource) : NdnResult (List UInt8) :=
  if body.fails then .error (.ioError "") else .ok body.bytes

/-- `RequestContext`. -/
structure RequestContext where
  resolvedUrl : ResolvedUrl
  progressCallback : Bool
  range : Option (Nat × Nat)

/-- `CyfsNdnResponse`, without the client that it came from. -/
structure CyfsNdnResponse where
  request : RequestContext
  responseMeta : CyfsResponseMeta
  status : Nat
  body : ChunkSource

/-- `CyfsHttpTransport::send`: the next answer of the server. -/
def transportSend : Exchange CyfsTransportResponse := fun w =>
  match w.answers with
  | [] => .error (.remoteError "request failed: ")
  | .error e :: _ => .error e
  | .ok response :: answers => .ok (response, { w with answers := answers })

/-- `NdnError::from_http_status`. -/
def fromHttpStatus (code : Nat) (info : String) : NdnError :=
  if code = 404 then .notFound info
  else if code = 500 then .internal info
  else .remoteError ("HTTP error: " ++ toString code ++ " for " ++ info)

/-- `CyfsNdnRequestBuilder::send`. -/
def CyfsNdnRequestBuilder.send (web : WebCrates) (client : CyfsNdnClient)
    (request : CyfsNdnRequestBuilder) : Exchange CyfsNdnResponse := do
  lift (if cyfsCascadesMaxLen < request.cascades.length then
    .error (.invalidParam ("cyfs-cascades max length is " ++ toString cyfsCascadesMaxLen))
    else .ok ())
  let resolvedUrl ← lift (ResolvedUrl.parse web request.url request.respRaw)
  let response ← transportSend
  lift (if 200 ≤ response.status ∧ response.status < 300 then .ok ()
    else .error (fromHttpStatus response.status resolvedUrl.transportUrl))
  let responseMeta ← lift (CyfsResponseMeta.fromResponse web resolvedUrl request.knownObjId
    (request.respRaw || resolvedUrl.parsed.respRaw) response.headers response.contentLength
    client.pathVerifier)
  pure
    { request := ⟨resolvedUrl, request.progressCallback, request.range⟩
      responseMeta := responseMeta
      status := response.status
      body := response.body }

/-! ## Verified objects -/

/-- `VerifiedObject`. -/
structure VerifiedObject where
  objId : ObjId
  objJson : Json
  objStr : String

/-- The object of a text, checked against its id. -/
def verifyBody (web : WebCrates) (effectiveObjId : ObjId) (objStr : String) :
    NdnResult Json :=
  if effectiveObjId.objType = "clist" then
    match ChunkList.fromJson web.toCrates objStr with
    | .error e => .error e
    | .ok chunkList =>
        match ChunkList.fromChunkList web.toCrates chunkList.body with
        | .error e => .error e
        | .ok clone =>
            if (clone.genObjId web).1 ≠ effectiveObjId then
              .error (.invalidId ("verify chunklist object failed, expect:" ++
                effectiveObjId.toString web.toCrates ++ " actual:" ++
                  (clone.genObjId web).1.toString web.toCrates))
            else
              match web.jsonParse objStr with
              | none => .error (.invalidData "parse chunklist json failed: ")
              | some objJson => .ok objJson
  else verifyNamedObjectFromStr web effectiveObjId objStr

namespace CyfsNdnResponse

/-- `String::from_utf8` of a body. -/
def decodeBody (raw : List UInt8) : NdnResult String :=
  match ObjId.stringFromUtf8 raw with
  | none => .error (.decodeError "response body is not utf-8: ")
  | some objStr => .ok objStr

/-- The inner path of a response that is not raw is verified first. -/
def verifyChainUnlessRaw (web : WebCrates) (responseMeta : CyfsResponseMeta) :
    NdnResult (Option ObjId) :=
  if responseMeta.respRaw then .ok none else responseMeta.verifyInnerPathChain web

/-- `Option::ok_or_else`. -/
def requireObjId (objId : Option ObjId) (e : NdnError) : NdnResult ObjId :=
  match objId with
  | none => .error e
  | some objId => .ok objId

/-- `into_verified_object`. -/
def intoVerifiedObject (web : WebCrates) (response : CyfsNdnResponse) :
    NdnResult VerifiedObject := do
  let _ ← verifyChainUnlessRaw web response.responseMeta
  let effectiveObjId ← response.responseMeta.effectiveObjId web
  let raw ← readToEnd response.body
  let objStr ← decodeBody raw
  let effectiveObjId ← requireObjId effectiveObjId
    (.invalidId ("no obj id found in request url / headers for " ++
      response.responseMeta.transportUrl))
  let objJson ← verifyBody web effectiveObjId objStr
  pure ⟨effectiveObjId, objJson, objStr⟩

/-- `object`. -/
def object (web : WebCrates) (response : CyfsNdnResponse) : NdnResult (ObjId × Json) :=
  (response.intoVerifiedObject web).map fun verified => (verified.objId, verified.objJson)

/-- `object_string`. -/
def objectString (web : WebCrates) (response : CyfsNdnResponse) : NdnResult (ObjId × String) :=
  (response.intoVerifiedObject web).map fun verified => (verified.objId, verified.objStr)

end CyfsNdnResponse

/-- `verify_chunk_bytes`. -/
def verifyChunkBytes (crates : Crates) (chunkId : ChunkId) (chunkBytes : List UInt8) :
    NdnResult Unit :=
  match ChunkHasher.calcChunkId crates chunkId.chunkType chunkBytes with
  | .error e => .error e
  | .ok calcChunkId =>
      if calcChunkId ≠ chunkId then
        .error (.verifyError ("chunk verify failed, expect:" ++ chunkId.toString crates ++
          " actual:" ++ calcChunkId.toString crates))
      else .ok ()

/-- `into_verified_chunk_bytes`. -/
def CyfsNdnResponse.intoVerifiedChunkBytes (web : WebCrates) (response : CyfsNdnResponse)
    (chunkId : ChunkId) : NdnResult (List UInt8) := do
  let bytes ← readToEnd response.body
  verifyChunkBytes web.toCrates chunkId bytes
  pure bytes

/-! ## Pulls -/

/-- `StoreMode`; a file has its path, the range to write to, and whether its chunks
are linked into the store. -/
inductive StoreMode where
  | localFile (path : String) (range : Nat × Nat) (needPullToNamedMgr : Bool)
  | storeInNamedMgr
  | noStore
  deriving DecidableEq, Repr

/-- `need_store_to_named_mgr`. -/
def StoreMode.needStoreToNamedMgr : StoreMode → Bool
  | .localFile _ _ needPullToNamedMgr => needPullToNamedMgr
  | .storeInNamedMgr => true
  | .noStore => false

/-- `CyfsPullResult`. -/
structure CyfsPullResult where
  objId : Option ObjId
  totalSize : Nat
  chunkCount : Nat
  storedObjects : List ObjId
  deriving DecidableEq, Repr

/-- `KnownObjectToStore`. -/
structure KnownObjectToStore where
  objId : ObjId
  objStr : String

/-- `PullDescriptor`; `describe_raw_pull` describes nothing but chunks. -/
structure PullDescriptor where
  chunkId : ChunkId
  metadataToStore : List KnownObjectToStore
  fileAction : Option NdnAction

/-- `resolve_target_store_mgr`. -/
def resolveTargetStoreMgr (pullMode : StoreMode)
    (explicitStoreMgr defaultStoreMgr : Option NamedDataMgr) :
    NdnResult (Option NamedDataMgr) :=
  let target := explicitStoreMgr.orElse fun _ => defaultStoreMgr
  if pullMode = .storeInNamedMgr ∨ pullMode.needStoreToNamedMgr then
    match target with
    | none => .error (.notFound "named store mgr is required for current pull target")
    | some mgr => .ok (some mgr)
  else .ok target

/-- `call_progress_callback`. -/
def callProgressCallback (progressCallback : Bool) (innerPath : String)
    (action : NdnAction) : Exchange Unit := fun w =>
  if progressCallback then
    match w.progress innerPath action with
    | .error e => .error e
    | .ok true => .ok ((), w)
    | .ok false => .error (.invalidState "break by user")
  else .ok ((), w)

/-- A call of the store manager that is the target, which must be there. -/
def onStoreMgr {α : Type} (call : NamedDataMgr → NamedDataMgr × NdnResult α) : Exchange α :=
  fun w =>
    match w.storeMgr with
    | none => .error (.notFound "named store mgr is required")
    | some mgr =>
        match call mgr with
        | (_, .error e) => .error e
        | (mgr, .ok a) => .ok (a, { w with storeMgr := some mgr })

/-- The objects that are put into the target if there is one; their ids. -/
def putObjects (web : WebCrates) : List KnownObjectToStore → Exchange (List ObjId)
  | [] => pure []
  | item :: rest => do
      let w ← get
      if w.storeMgr.isNone then pure []
      else do
        onStoreMgr fun mgr => mgr.putObject web.toCrates w.now item.objId item.objStr
        let stored ← putObjects web rest
        pure (item.objId :: stored)

/-- The chunk is put into the target; what the target took is recorded. -/
def putChunkIntoStore (web : WebCrates) (chunkId : ChunkId) (chunkSize : Nat)
    (reader : ChunkSource) : Exchange Unit := do
  let w ← get
  let outcome ← onStoreMgr fun mgr =>
    mgr.putChunkByReader web.toCrates w.now chunkId chunkSize reader
  modify fun w => { w with puts := w.puts ++
    [(chunkId, if outcome = .written then some reader.bytes else none)] }

/-- `ensure_local_file_exists` and `open_local_writer`. -/
def openLocalWriter : Exchange Unit := fun w =>
  match w.fileError with
  | some e => .error e
  | none => .ok ((), w)

/-- `write_all` of the open local file. -/
def writeAll (bytes : List UInt8) : Exchange Unit :=
  modify fun w => { w with written := w.written ++ bytes }

/-- The local file after what was written from an offset on. -/
def fileContent (start : Nat) (w : World) : List UInt8 :=
  let before := w.fileBefore.take start
  before ++ List.replicate (start - before.length) 0 ++ w.written ++
    w.fileBefore.drop (start + w.written.length)

/-- The link of a part of the local file as a chunk. -/
def linkChunk (web : WebCrates) (path : String) (start : Nat) (chunkId : ChunkId)
    (range : Nat × Nat) : Exchange Unit := do
  let w ← get
  let qcid ← lift (calcQuickHash web.toCrates (fileContent start w))
  onStoreMgr fun mgr =>
    mgr.addChunkByLinkToLocalFile web.toCrates w.now chunkId (range.2 - range.1)
      ⟨path, qcid.toString web.toCrates, w.lastModifyTime,
        some (start + range.1, start + range.2)⟩

/-- The loop of `finalize_local_links`. -/
def linkChunks (web : WebCrates) (path : String) (start : Nat) :
    List (ChunkId × Nat × Nat) → Exchange Unit
  | [] => pure ()
  | (chunkId, range) :: rest => do
      linkChunk web path start chunkId range
      linkChunks web path start rest

/-- `open_local_writer_if_needed`. -/
def openLocalWriterIfNeeded : StoreMode → Exchange Unit
  | .localFile _ _ _ => openLocalWriter
  | _ => pure ()

/-- `finalize_local_links`. -/
def finalizeLocalLinks (web : WebCrates) (links : List (ChunkId × Nat × Nat)) :
    StoreMode → Exchange Unit
  | .localFile path range true => linkChunks web path range.1 links
  | _ => pure ()

/-- What the loop of `pull_chunk_list_by_object` does with a verified chunk. -/
def consumeChunkBytes (web : WebCrates) (chunkId : ChunkId) (chunkBytes : List UInt8) :
    StoreMode → Exchange Unit
  | .localFile _ _ _ => writeAll chunkBytes
  | .storeInNamedMgr =>
      putChunkIntoStore web chunkId chunkBytes.length (ChunkSource.ofBytes chunkBytes)
  | .noStore => pure ()

/-- The length that the id of a chunk in a list must carry. -/
def requireLength (web : WebCrates) (chunkId : ChunkId) : NdnResult Nat :=
  match chunkId.getLength web.toCrates with
  | none => .error (.invalidData ("chunk " ++ chunkId.toString web.toCrates ++
      " does not include length"))
  | some chunkSize => .ok chunkSize

/-- `copy_chunk` with a hasher: the bytes, if they have the hash. -/
def copyChunk (web : WebCrates) (chunkId : ChunkId) (body : ChunkSource) :
    NdnResult (List UInt8) :=
  match readToEnd body with
  | .error e => .error e
  | .ok bytes =>
      match ChunkHasher.calcChunkId web.toCrates chunkId.chunkType bytes with
      | .error e => .error e
      | .ok resultChunkId =>
          if resultChunkId ≠ chunkId then
            .error (.verifyError ("copy chunk hash mismatch:" ++
              resultChunkId.toString web.toCrates))
          else .ok bytes

/-- The copy of a whole body, or of a part that cannot be checked. -/
def copyBody (web : WebCrates) (isRangeRequest : Bool) (chunkId : ChunkId)
    (body : ChunkSource) : NdnResult (List UInt8) :=
  if isRangeRequest then readToEnd body else copyChunk web chunkId body

/-- The report of a whole file, if it is one that was pulled. -/
def reportFile (progressCallback : Bool) (originalUrl : String) :
    Option NdnAction → Exchange Unit
  | none => pure ()
  | some action => callProgressCallback progressCallback originalUrl action

/-- The arm of `pull_raw_chunk` for a store; the size of the chunk is returned. -/
def storeRawChunk (web : WebCrates) (response : CyfsNdnResponse) (chunkId : ChunkId)
    (fileAction : Option NdnAction) : Exchange Nat := do
  lift (if response.request.range.isSome then
    .error (.unsupported "range pull into named store is not supported") else .ok ())
  let chunkSize := (chunkId.getLength web.toCrates).getD
    (response.responseMeta.cyfsHeaders.chunkSize.getD 0).toNat
  putChunkIntoStore web chunkId chunkSize response.body
  callProgressCallback response.request.progressCallback
    ("chunk:" ++ chunkId.toString web.toCrates) (.chunkOk chunkId chunkSize)
  reportFile response.request.progressCallback response.request.resolvedUrl.originalUrl fileAction
  pure chunkSize

/-- The arm of `pull_raw_chunk` for a local file. -/
def saveRawChunk (web : WebCrates) (response : CyfsNdnResponse) (chunkId : ChunkId)
    (path : String) (start : Nat) (needPullToNamedMgr : Bool) (fileAction : Option NdnAction) :
    Exchange Nat := do
  openLocalWriter
  let bytes ← lift (copyBody web response.request.range.isSome chunkId response.body)
  writeAll bytes
  (if !response.request.range.isSome && needPullToNamedMgr then
    linkChunk web path start chunkId (0, bytes.length) else pure ())
  callProgressCallback response.request.progressCallback
    ("chunk:" ++ chunkId.toString web.toCrates) (.chunkOk chunkId bytes.length)
  reportFile response.request.progressCallback response.request.resolvedUrl.originalUrl fileAction
  pure bytes.length

/-- The arm of `pull_raw_chunk` that keeps nothing. -/
def dropRawChunk (web : WebCrates) (response : CyfsNdnResponse) (chunkId : ChunkId) :
    Exchange Nat := do
  let bytes ← lift (copyBody web response.request.range.isSome chunkId response.body)
  callProgressCallback response.request.progressCallback
    ("chunk:" ++ chunkId.toString web.toCrates) (.chunkOk chunkId bytes.length)
  pure bytes.length

/-- The match on the mode in `pull_raw_chunk`. -/
def consumeRawChunk (web : WebCrates) (response : CyfsNdnResponse) (chunkId : ChunkId)
    (fileAction : Option NdnAction) : StoreMode → Exchange Nat
  | .storeInNamedMgr => storeRawChunk web response chunkId fileAction
  | .localFile path range needPullToNamedMgr =>
      saveRawChunk web response chunkId path range.1 needPullToNamedMgr fileAction
  | .noStore => dropRawChunk web response chunkId

/-- `pull_raw_chunk`. -/
def CyfsNdnResponse.pullRawChunk (web : WebCrates) (response : CyfsNdnResponse)
    (chunkId : ChunkId) (pullMode : StoreMode) (metadataToStore : List KnownObjectToStore)
    (fileAction : Option NdnAction) : Exchange CyfsPullResult := do
  let effectiveObjId ← lift (response.responseMeta.effectiveObjId web)
  let storedObjects ← putObjects web metadataToStore
  let totalSize ← consumeRawChunk web response chunkId fileAction pullMode
  pure ⟨effectiveObjId, totalSize, 1, storedObjects⟩

namespace CyfsNdnClient

/-- A request for an object by its id, next to the URL of another request. -/
def sendRelated (web : WebCrates) (client : CyfsNdnClient) (base : ResolvedUrl) (objId : ObjId)
    (progressCallback : Bool) : Exchange CyfsNdnResponse := do
  let url ← lift (client.resolveRelatedUrl web base objId)
  { get url with knownObjId := some objId, progressCallback := progressCallback }.send web client

/-- `fetch_verified_object_by_id`. -/
def fetchVerifiedObjectById (web : WebCrates) (client : CyfsNdnClient) (base : ResolvedUrl)
    (objId : ObjId) : Exchange VerifiedObject := do
  let response ← client.sendRelated web base objId false
  lift (response.intoVerifiedObject web)

/-- The loop of `pull_chunk_list_by_object`: the ranges of the chunks and their size. -/
def pullChunks (web : WebCrates) (client : CyfsNdnClient) (base : ResolvedUrl)
    (pullMode : StoreMode) (progressCallback : Bool) :
    Nat → List ChunkId → Exchange (List (ChunkId × Nat × Nat) × Nat)
  | totalSize, [] => pure ([], totalSize)
  | totalSize, chunkId :: rest => do
      let chunkSize ← lift (requireLength web chunkId)
      let chunkResp ← client.sendRelated web base chunkId.toObjId progressCallback
      let chunkBytes ← lift (chunkResp.intoVerifiedChunkBytes web chunkId)
      consumeChunkBytes web chunkId chunkBytes pullMode
      callProgressCallback progressCallback ("chunk:" ++ chunkId.toString web.toCrates)
        (.chunkOk chunkId chunkSize)
      let pulled ←
        pullChunks web client base pullMode progressCallback (totalSize + chunkSize) rest
      pure ((chunkId, totalSize, totalSize + chunkSize) :: pulled.1, pulled.2)

/-- `pull_chunk_list_by_object`. -/
def pullChunkListByObject (web : WebCrates) (client : CyfsNdnClient) (base : ResolvedUrl)
    (pullMode : StoreMode) (progressCallback : Bool)
    (chunklistStore : KnownObjectToStore) (chunkList : ChunkList)
    (fileObj : Option KnownObjectToStore) (fileSize : Nat) : Exchange CyfsPullResult := do
  openLocalWriterIfNeeded pullMode
  let stored ← putObjects web [chunklistStore]
  let pulled ← client.pullChunks web base pullMode progressCallback 0 chunkList.body
  finalizeLocalLinks web pulled.1 pullMode
  let resultId := ((fileObj.map KnownObjectToStore.objId).getD chunklistStore.objId)
  pure
    { objId := some resultId
      totalSize := if 0 < fileSize then fileSize else pulled.2
      chunkCount := chunkList.body.length
      storedObjects := if stored.isEmpty then []
        else chunklistStore.objId :: (fileObj.map KnownObjectToStore.objId).toList }

/-- The part of `pull_file_object` for a content that is one chunk. -/
def pullFileChunk (web : WebCrates) (client : CyfsNdnClient) (base : ResolvedUrl)
    (fileObjStore : KnownObjectToStore) (fileSize : Nat) (contentObjId : ObjId)
    (pullMode : StoreMode) (progressCallback : Bool) : Exchange CyfsPullResult := do
  let response ← client.sendRelated web base contentObjId progressCallback
  response.pullRawChunk web (ChunkId.fromObjId contentObjId) pullMode [fileObjStore]
    (some (.fileOk fileObjStore.objId fileSize))

/-- The part of `pull_file_object` for a content that is a chunk list. -/
def pullFileChunkList (web : WebCrates) (client : CyfsNdnClient) (base : ResolvedUrl)
    (fileObjStore : KnownObjectToStore) (fileSize : Nat) (contentObjId : ObjId)
    (pullMode : StoreMode) (progressCallback : Bool) : Exchange CyfsPullResult := do
  let chunkListObj ← client.fetchVerifiedObjectById web base contentObjId
  let chunkList ← lift (ChunkList.fromJsonValue web chunkListObj.objJson)
  let result ← client.pullChunkListByObject web base pullMode progressCallback
    ⟨chunkListObj.objId, chunkListObj.objStr⟩ chunkList (some fileObjStore) fileSize
  let _ ← putObjects web [fileObjStore]
  callProgressCallback progressCallback base.originalUrl (.fileOk fileObjStore.objId fileSize)
  pure { result with objId := some fileObjStore.objId, totalSize := fileSize }

/-- `pull_file_object`. -/
def pullFileObject (web : WebCrates) (client : CyfsNdnClient) (base : ResolvedUrl)
    (fileObjStore : KnownObjectToStore) (fileObj : FileObject) (pullMode : StoreMode)
    (progressCallback : Bool) : Exchange CyfsPullResult := do
  let contentObjId ← lift (ObjId.new web.toCrates fileObj.content)
  if contentObjId.isChunk then
    client.pullFileChunk web base fileObjStore fileObj.size contentObjId pullMode progressCallback
  else if contentObjId.objType ≠ "clist" then
    lift (.error (.unsupported ("unsupported file content obj type: " ++ contentObjId.objType)))
  else
    client.pullFileChunkList web base fileObjStore fileObj.size contentObjId pullMode
      progressCallback

end CyfsNdnClient

namespace CyfsNdnResponse

/-- `describe_from_inner_path_chain`. -/
def describeFromInnerPathChain (web : WebCrates) (response : CyfsNdnResponse) :
    NdnResult (Option PullDescriptor) :=
  match response.responseMeta.parents.getLast? with
  | none => .ok none
  | some lastParent =>
      match lastParent.objJson with
      | none => .ok none
      | some lastJson =>
          if lastParent.objId.isFileObject then
            match web.fileObject lastJson with
            | none => .error (.invalidData "parse FileObject from cyfs-parents-N failed: ")
            | some fileObj =>
                match ObjId.new web.toCrates fileObj.content with
                | .error e => .error e
                | .ok contentObjId =>
                    if contentObjId.isChunk then
                      .ok (some ⟨ChunkId.fromObjId contentObjId,
                        [⟨lastParent.objId, lastParent.objStr.getD ""⟩],
                        some (.fileOk lastParent.objId fileObj.size)⟩)
                    else .ok none
          else .ok none

/-- The id that must be known before anything is pulled. -/
def inferObjId (web : WebCrates) (response : CyfsNdnResponse) : NdnResult ObjId :=
  match response.responseMeta.effectiveObjId web with
  | .error e => .error e
  | .ok none =>
      .error (.invalidId ("cannot infer obj id for " ++ response.responseMeta.transportUrl))
  | .ok (some objId) => .ok objId

/-- The part of `describe_raw_pull` that looks at the effective id. -/
def describeFromObjId (web : WebCrates) (response : CyfsNdnResponse) :
    NdnResult (Option PullDescriptor) :=
  match response.inferObjId web with
  | .error e => .error e
  | .ok effectiveObjId =>
      if effectiveObjId.isChunk then
        .ok (some ⟨ChunkId.fromObjId effectiveObjId, [], none⟩)
      else .ok none

/-- `describe_raw_pull`. -/
def describeRawPull (web : WebCrates) (response : CyfsNdnResponse) :
    NdnResult (Option PullDescriptor) :=
  if response.responseMeta.respRaw then response.describeFromObjId web
  else
    match response.describeFromInnerPathChain web with
    | .error e => .error e
    | .ok (some descriptor) => .ok (some descriptor)
    | .ok none => response.describeFromObjId web

/-- `serde_json::from_value` of a verified file object. -/
def requireFileObject (web : WebCrates) (objJson : Json) : NdnResult FileObject :=
  match web.fileObject objJson with
  | none => .error (.invalidData "parse file object failed: ")
  | some fileObj => .ok fileObj

/-- The part of `pull` for a file object. -/
def pullAsFile (web : WebCrates) (client : CyfsNdnClient) (response : CyfsNdnResponse)
    (pullMode : StoreMode) : Exchange CyfsPullResult := do
  let verifiedObj ← lift (response.intoVerifiedObject web)
  let fileObj ← lift (requireFileObject web verifiedObj.objJson)
  client.pullFileObject web response.request.resolvedUrl
    ⟨verifiedObj.objId, verifiedObj.objStr⟩ fileObj pullMode response.request.progressCallback

/-- The part of `pull` for a chunk list. -/
def pullAsChunkList (web : WebCrates) (client : CyfsNdnClient) (response : CyfsNdnResponse)
    (pullMode : StoreMode) : Exchange CyfsPullResult := do
  let verifiedObj ← lift (response.intoVerifiedObject web)
  let chunkList ← lift (ChunkList.fromJsonValue web verifiedObj.objJson)
  client.pullChunkListByObject web response.request.resolvedUrl pullMode
    response.request.progressCallback ⟨verifiedObj.objId, verifiedObj.objStr⟩ chunkList none 0

/-- The part of `pull` after the target and the descriptor are known. -/
def pullDescribed (web : WebCrates) (client : CyfsNdnClient) (response : CyfsNdnResponse)
    (pullMode : StoreMode) : Option PullDescriptor → Exchange CyfsPullResult
  | some descriptor =>
      response.pullRawChunk web descriptor.chunkId pullMode descriptor.metadataToStore
        descriptor.fileAction
  | none => do
      let effectiveObjId ← lift (response.inferObjId web)
      if effectiveObjId.objType = "cyfile" then response.pullAsFile web client pullMode
      else if effectiveObjId.objType = "clist" then response.pullAsChunkList web client pullMode
      else
        lift (.error (.unsupported ("pull is unsupported for object type " ++
          effectiveObjId.objType)))

/-- `pull`. -/
def pull (web : WebCrates) (client : CyfsNdnClient) (response : CyfsNdnResponse)
    (pullMode : StoreMode) (storeMgr : Option NamedDataMgr) : Exchange CyfsPullResult := do
  let target ← lift (resolveTargetStoreMgr pullMode storeMgr client.defaultStoreMgr)
  modify fun w => { w with storeMgr := target }
  let descriptor ← lift (response.describeRawPull web)
  response.pullDescribed web client pullMode descriptor

end CyfsNdnResponse

end NdnToolkit
end CyfsNdn

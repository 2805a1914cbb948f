import CyfsNdn.NdnToolkit.IdUrls
import CyfsNdn.NdnToolkit.PullFacts

/-!
# Fetching by id

A request fixes the id of what it fetches: the caller gives it, or the URL, or a
verified path object.  The server is not trusted, so whatever it answers, the object
that the client returns must have this id and the bytes that it pulls must be the
content of it.

The client meets this only for an id that the caller gives, and for a pull only if
the response is raw.  The unsigned `cyfs-obj-id` header outranks the id in the URL, and
outranks the path object as soon as there is a `cyfs-parents-0` header; and a pull of a
response that is not raw takes its chunk from a file object in the last parent
header before anything is checked.
-/

namespace CyfsNdn
namespace NdnToolkit

open NdnLib NamedStore Collections Exchange

/-- The id that is fixed before the body of a response is read: by the caller, or by
the URL where there is no inner path, or then by a verified path object. -/
def CyfsResponseMeta.fixedObjId (responseMeta : CyfsResponseMeta) : Option ObjId :=
  match responseMeta.knownObjId with
  | some objId => some objId
  | none =>
      if responseMeta.urlInnerPathSteps.isEmpty then
        responseMeta.urlObjId.orElse fun _ =>
          responseMeta.pathObject.map VerifiedPathObject.target
      else none

/-- Whether the client treats the responses to a request as raw. -/
def CyfsNdnRequestBuilder.isRaw (web : WebCrates) (request : CyfsNdnRequestBuilder) : Bool :=
  match ResolvedUrl.parse web request.url request.respRaw with
  | .error _ => request.respRaw
  | .ok resolvedUrl => request.respRaw || resolvedUrl.parsed.respRaw

/-- Some response to the request has a fixed id. -/
def FixesObjId (web : WebCrates) (client : CyfsNdnClient) (request : CyfsNdnRequestBuilder) :
    Prop :=
  ∃ w response w' objId, request.send web client w = .ok (response, w') ∧
    response.responseMeta.fixedObjId = some objId

/-- Whatever the server answers, `object` and `object_string` return the object of the
fixed id or fail. -/
def ObjectTrusted (web : WebCrates) (client : CyfsNdnClient)
    (request : CyfsNdnRequestBuilder) : Prop :=
  ∀ w response w' objId, request.send web client w = .ok (response, w') →
    response.responseMeta.fixedObjId = some objId →
      (∀ id v, response.object web = .ok (id, v) → id = objId ∧ v.Named web objId) ∧
        ∀ id objStr, response.objectString web = .ok (id, objStr) →
          id = objId ∧ ∃ v, web.jsonParse objStr = some v ∧ v.Named web objId

/-- Exactly the chunks of the object were delivered. -/
def Delivered (web : WebCrates) (objId : ObjId) (pullMode : StoreMode) (w w' : World) : Prop :=
  ∃ chunks, ContentChunks web objId chunks ∧ Delivers web pullMode chunks w w'

/-- Whatever the server answers, also to the requests that follow, and wherever it
puts it, `pull` puts the content of the fixed id there or fails. -/
def PullTrusted (web : WebCrates) (client : CyfsNdnClient) (request : CyfsNdnRequestBuilder) :
    Prop :=
  ∀ w response w' objId, request.send web client w = .ok (response, w') →
    response.responseMeta.fixedObjId = some objId →
      ∀ pullMode storeMgr result w'',
        response.pull web client pullMode storeMgr w' = .ok (result, w'') →
          Delivered web objId pullMode w' w''

section Trusted

variable {web : WebCrates} {client : CyfsNdnClient} {request : CyfsNdnRequestBuilder}

/-! ## An id of the caller -/

/-- A verified object is the one that the effective id names. -/
theorem CyfsNdnResponse.intoVerifiedObject_of_effective (laws : web.Lawful)
    {response : CyfsNdnResponse} {objId : ObjId} {verified : VerifiedObject}
    (heffective : response.responseMeta.effectiveObjId web = .ok (some objId))
    (h : response.intoVerifiedObject web = .ok verified) :
    verified.objId = objId ∧ web.jsonParse verified.objStr = some verified.objJson ∧
      verified.objJson.Named web objId := by
  obtain ⟨hsame, hbody, -⟩ := CyfsNdnResponse.intoVerifiedObject_eq_ok h
  rw [heffective] at hsame
  have hid : objId = verified.objId := Option.some.inj (Except.ok.inj hsame)
  rw [hid]
  exact ⟨rfl, verifyBody_eq_ok laws hbody⟩

theorem objectTrusted_of_known (laws : web.Lawful) (hknown : request.knownObjId.isSome) :
    ObjectTrusted web client request := by
  obtain ⟨known, hknown⟩ := Option.isSome_iff_exists.mp hknown
  intro w response w' objId hsend hfixed
  obtain ⟨_, _, _, _, _, _, _, _, _, hmeta⟩ := CyfsNdnRequestBuilder.send_eq_ok hsend
  have hmetaKnown : response.responseMeta.knownObjId = some known := by
    rw [(CyfsResponseMeta.fromResponse_eq_ok hmeta).1, hknown]
  have hid : known = objId := by
    unfold CyfsResponseMeta.fixedObjId at hfixed
    rw [hmetaKnown] at hfixed
    exact Option.some.inj hfixed
  subst hid
  constructor
  · intro id v hobject
    unfold CyfsNdnResponse.object at hobject
    cases hverified : response.intoVerifiedObject web with
    | error e =>
        rw [hverified] at hobject
        cases hobject
    | ok verified =>
        rw [hverified] at hobject
        obtain ⟨rfl, rfl⟩ := Prod.mk.inj (Except.ok.inj hobject)
        obtain ⟨hsame, -, hnamed⟩ :=
          CyfsNdnResponse.intoVerifiedObject_of_effective laws
            (CyfsResponseMeta.effectiveObjId_of_known hmetaKnown) hverified
        exact ⟨hsame, hnamed⟩
  · intro id objStr hobject
    unfold CyfsNdnResponse.objectString at hobject
    cases hverified : response.intoVerifiedObject web with
    | error e =>
        rw [hverified] at hobject
        cases hobject
    | ok verified =>
        rw [hverified] at hobject
        obtain ⟨rfl, rfl⟩ := Prod.mk.inj (Except.ok.inj hobject)
        obtain ⟨hsame, hparse, hnamed⟩ :=
          CyfsNdnResponse.intoVerifiedObject_of_effective laws
            (CyfsResponseMeta.effectiveObjId_of_known hmetaKnown) hverified
        exact ⟨hsame, verified.objJson, hparse, hnamed⟩

/-- A pull of a file object delivers its content, after the object was verified. -/
theorem CyfsNdnResponse.pullAsFile_delivered (laws : web.Lawful) {response : CyfsNdnResponse}
    {objId : ObjId} {pullMode : StoreMode} {w : World} {r : CyfsPullResult × World}
    (heffective : response.responseMeta.effectiveObjId web = .ok (some objId))
    (htype : objId.objType = "cyfile") (h : response.pullAsFile web client pullMode w = .ok r) :
    (∃ verified, response.intoVerifiedObject web = .ok verified) ∧
      Delivered web objId pullMode w r.2 := by
  unfold CyfsNdnResponse.pullAsFile at h
  simp only [bind_eq_ok, lift_eq_ok] at h
  obtain ⟨verified, w₁, ⟨hverified, rfl⟩, fileObj, w₂, ⟨hfile, rfl⟩, hpull⟩ := h
  obtain ⟨-, -, hnamed⟩ := response.intoVerifiedObject_of_effective laws heffective hverified
  obtain ⟨contentId, chunks, hcontent, hchunks, hdelivers⟩ :=
    CyfsNdnClient.pullFileObject_delivers laws hpull
  have hread : web.fileObject verified.objJson = some fileObj := by
    unfold CyfsNdnResponse.requireFileObject at hfile
    split at hfile
    · cases hfile
    · next found hfound =>
      rw [hfound, Except.ok.inj hfile]
  exact ⟨⟨verified, hverified⟩, chunks, .file htype hnamed hread hcontent hchunks, hdelivers⟩

/-- A pull of a chunk list delivers its content, after the list was verified. -/
theorem CyfsNdnResponse.pullAsChunkList_delivered (laws : web.Lawful)
    {response : CyfsNdnResponse} {objId : ObjId} {pullMode : StoreMode} {w : World}
    {r : CyfsPullResult × World}
    (heffective : response.responseMeta.effectiveObjId web = .ok (some objId))
    (htype : objId.objType = "clist")
    (h : response.pullAsChunkList web client pullMode w = .ok r) :
    (∃ verified, response.intoVerifiedObject web = .ok verified) ∧
      Delivered web objId pullMode w r.2 := by
  unfold CyfsNdnResponse.pullAsChunkList at h
  simp only [bind_eq_ok, lift_eq_ok] at h
  obtain ⟨verified, w₁, ⟨hverified, rfl⟩, chunkList, w₂, ⟨hlist, rfl⟩, hpull⟩ := h
  obtain ⟨-, -, hnamed⟩ := response.intoVerifiedObject_of_effective laws heffective hverified
  unfold Json.Named at hnamed
  rw [if_pos htype] at hnamed
  obtain ⟨list, hread, hid⟩ := hnamed
  have hsame : chunkList = list := Except.ok.inj (hlist.symm.trans hread)
  subst hsame
  exact ⟨⟨verified, hverified⟩, _, .body (.chunkList hid),
    CyfsNdnClient.pullChunkListByObject_delivers hpull⟩

theorem CyfsNdnResponse.inferObjId_of_effective {response : CyfsNdnResponse} {objId : ObjId}
    (heffective : response.responseMeta.effectiveObjId web = .ok (some objId)) :
    response.inferObjId web = .ok objId := by
  unfold CyfsNdnResponse.inferObjId
  rw [heffective]

/-- A pull that is not described as a chunk delivers the content of the effective id,
after its object was verified. -/
theorem CyfsNdnResponse.pullDescribed_none_delivered (laws : web.Lawful)
    {response : CyfsNdnResponse} {objId : ObjId} {pullMode : StoreMode} {w : World}
    {r : CyfsPullResult × World}
    (heffective : response.responseMeta.effectiveObjId web = .ok (some objId))
    (h : response.pullDescribed web client pullMode none w = .ok r) :
    (∃ verified, response.intoVerifiedObject web = .ok verified) ∧
      Delivered web objId pullMode w r.2 := by
  unfold CyfsNdnResponse.pullDescribed at h
  simp only [bind_eq_ok, lift_eq_ok] at h
  obtain ⟨inferred, w₁, ⟨hinfer, rfl⟩, h⟩ := h
  rw [CyfsNdnResponse.inferObjId_of_effective heffective] at hinfer
  obtain rfl := Except.ok.inj hinfer
  split_ifs at h with hfile hlist
  · exact response.pullAsFile_delivered laws heffective hfile h
  · exact response.pullAsChunkList_delivered laws heffective hlist h
  · rw [lift_eq_ok] at h
    cases h.1

/-- What comes before the description of a pull puts nothing anywhere. -/
theorem CyfsNdnResponse.pull_eq_ok {response : CyfsNdnResponse} {pullMode : StoreMode}
    {storeMgr : Option NamedDataMgr} {w : World} {r : CyfsPullResult × World}
    (h : response.pull web client pullMode storeMgr w = .ok r) :
    ∃ target descriptor, response.describeRawPull web = .ok descriptor ∧
      response.pullDescribed web client pullMode descriptor { w with storeMgr := target } =
        .ok r := by
  unfold CyfsNdnResponse.pull at h
  simp only [bind_eq_ok, lift_eq_ok] at h
  obtain ⟨target, w₁, ⟨-, rfl⟩, _, w₂, hmodify, descriptor, w₃, ⟨hdescribe, rfl⟩, hpull⟩ := h
  obtain ⟨-, rfl⟩ := Prod.mk.inj (Except.ok.inj hmodify)
  exact ⟨target, descriptor, hdescribe, hpull⟩

/-- The target of a pull does not matter for what it delivers. -/
theorem Delivered.of_storeMgr {objId : ObjId} {pullMode : StoreMode} {w w' : World}
    {target : Option NamedDataMgr}
    (h : Delivered web objId pullMode { w with storeMgr := target } w') :
    Delivered web objId pullMode w w' := by
  obtain ⟨chunks, hchunks, hdelivers⟩ := h
  exact ⟨chunks, hchunks, hdelivers.of_sameData ⟨rfl, rfl⟩ (World.SameData.refl _)⟩

/-- A raw pull of a known id delivers its content. -/
theorem CyfsNdnResponse.pull_delivered (laws : web.Lawful) {response : CyfsNdnResponse}
    {objId : ObjId} {pullMode : StoreMode} {storeMgr : Option NamedDataMgr} {w : World}
    {r : CyfsPullResult × World} (hrange : response.request.range = none)
    (hknown : response.responseMeta.knownObjId = some objId)
    (hraw : response.responseMeta.respRaw = true)
    (h : response.pull web client pullMode storeMgr w = .ok r) :
    Delivered web objId pullMode w r.2 := by
  have heffective : response.responseMeta.effectiveObjId web = .ok (some objId) :=
    CyfsResponseMeta.effectiveObjId_of_known hknown
  obtain ⟨target, descriptor, hdescribe, hpull⟩ := CyfsNdnResponse.pull_eq_ok h
  have hdelivered : Delivered web objId pullMode { w with storeMgr := target } r.2 := by
    unfold CyfsNdnResponse.describeRawPull CyfsNdnResponse.describeFromObjId at hdescribe
    rw [if_pos hraw, CyfsNdnResponse.inferObjId_of_effective heffective] at hdescribe
    dsimp only at hdescribe
    split_ifs at hdescribe with hchunk
    · obtain rfl := Except.ok.inj hdescribe
      exact ⟨_, .body (.chunk hchunk), response.pullRawChunk_delivers hrange hpull⟩
    · obtain rfl := Except.ok.inj hdescribe
      exact (response.pullDescribed_none_delivered laws heffective hpull).2
  exact hdelivered.of_storeMgr

theorem pullTrusted_of_known_raw (laws : web.Lawful) (hrange : request.range = none)
    (hknown : request.knownObjId.isSome) (hraw : request.isRaw web = true) :
    PullTrusted web client request := by
  obtain ⟨known, hknown⟩ := Option.isSome_iff_exists.mp hknown
  intro w response w' objId hsend hfixed pullMode storeMgr result w'' hpull
  obtain ⟨resolvedUrl, _, _, hparse, -, -, -, hrequest, -, hmeta⟩ :=
    CyfsNdnRequestBuilder.send_eq_ok hsend
  obtain ⟨hmetaKnown, -, -, hmetaRaw, -⟩ := CyfsResponseMeta.fromResponse_eq_ok hmeta
  rw [hknown] at hmetaKnown
  have hid : known = objId := by
    unfold CyfsResponseMeta.fixedObjId at hfixed
    rw [hmetaKnown] at hfixed
    exact Option.some.inj hfixed
  subst hid
  unfold CyfsNdnRequestBuilder.isRaw at hraw
  rw [hparse] at hraw
  exact response.pull_delivered laws (by rw [hrequest]; exact hrange) hmetaKnown
    (hmetaRaw.trans hraw) hpull

/-! ## What a server can substitute -/

/-- The world in which a server gives one answer. -/
def World.answering (answer : CyfsTransportResponse) : World where
  answers := [.ok answer]
  storeMgr := none
  now := 0
  fileError := none
  fileBefore := []
  lastModifyTime := 0
  progress := fun _ _ => .ok true
  written := []
  puts := []

/-- A successful answer with these headers and this body. -/
def CyfsTransportResponse.success (headers : CyfsHttpRespHeaders) (body : List UInt8) :
    CyfsTransportResponse where
  status := 200
  headers := .ok headers
  contentLength := none
  body := ChunkSource.ofBytes body

/-- The response that the client makes of such an answer. -/
def answered (request : CyfsNdnRequestBuilder) (resolvedUrl : ResolvedUrl)
    (headers : CyfsHttpRespHeaders) (pathObject : Option VerifiedPathObject)
    (parents : List ResolvedParent) (body : List UInt8) : CyfsNdnResponse where
  request := ⟨resolvedUrl, request.progressCallback, request.range⟩
  responseMeta :=
    { requestedUrl := resolvedUrl.originalUrl
      transportUrl := resolvedUrl.transportUrl
      knownObjId := request.knownObjId
      urlObjId := resolvedUrl.parsed.urlObjId
      urlInnerPathSteps := resolvedUrl.parsed.innerPathSteps
      respRaw := request.respRaw || resolvedUrl.parsed.respRaw
      cyfsHeaders := { headers with chunkSize := headers.chunkSize.orElse fun _ => none }
      pathObject := pathObject
      parents := parents }
  status := 200
  body := ChunkSource.ofBytes body

/-- The client accepts an answer whose headers it can read. -/
theorem CyfsNdnRequestBuilder.send_success {resolvedUrl : ResolvedUrl}
    {headers : CyfsHttpRespHeaders} {pathObject : Option VerifiedPathObject}
    {parents : List ResolvedParent} {body : List UInt8}
    (hparse : ResolvedUrl.parse web request.url request.respRaw = .ok resolvedUrl)
    (hcascades : request.cascades.length ≤ cyfsCascadesMaxLen)
    (hpath : CyfsResponseMeta.verifyPathObject client.pathVerifier resolvedUrl
      (request.respRaw || resolvedUrl.parsed.respRaw) headers = .ok pathObject)
    (hparents : headers.parents.mapM (ResolvedParent.fromHeader web) = .ok parents) :
    request.send web client (World.answering (.success headers body)) =
      .ok (answered request resolvedUrl headers pathObject parents body,
        { World.answering (.success headers body) with answers := [] }) := by
  have hmeta : CyfsResponseMeta.fromResponse web resolvedUrl request.knownObjId
      (request.respRaw || resolvedUrl.parsed.respRaw) (.ok headers) none client.pathVerifier =
        .ok (answered request resolvedUrl headers pathObject parents body).responseMeta := by
    unfold CyfsResponseMeta.fromResponse
    simp only [except_bind_eq_ok, except_pure_eq_ok]
    exact ⟨headers, rfl, pathObject, hpath, parents, hparents, rfl⟩
  have hstatus : 200 ≤ (CyfsTransportResponse.success headers body).status ∧
      (CyfsTransportResponse.success headers body).status < 300 := by
    change 200 ≤ 200 ∧ 200 < 300
    decide
  exact CyfsNdnRequestBuilder.send_of_fromResponse hparse hcascades rfl hstatus hmeta

/-- The id of some bytes as a plain SHA-256 chunk. -/
def sha256Chunk (web : WebCrates) (bytes : List UInt8) : ChunkId :=
  ⟨.sha256, web.digest .sha256 bytes⟩

theorem hashes_sha256Chunk (bytes : List UInt8) :
    (sha256Chunk web bytes).Hashes web.toCrates bytes := rfl

/-- The id of a file object that is nothing but a content. -/
def plainFileId (web : WebCrates) (content : String) : ObjId :=
  (buildNamedObjectByJson web "cyfile" (plainFile content 0)).1

theorem plainFileId_objType_ne (content : String) :
    (plainFileId web content).objType ≠ "clist" := by
  change ("cyfile" : String) ≠ "clist"
  decide

theorem plainFileId_plainType (content : String) : PlainType (plainFileId web content) := by
  have htype : (plainFileId web content).objType = "cyfile" := rfl
  unfold PlainType
  rw [htype]
  decide

theorem named_plainFileId (content : String) :
    (plainFile content 0).Named web (plainFileId web content) := by
  unfold Json.Named
  rw [if_neg (plainFileId_objType_ne content)]
  rfl

theorem plainFileId_injective (laws : web.Lawful) (hinj : web.Injective)
    {content content' : String}
    (h : plainFileId web content = plainFileId web content') : content = content' := by
  have hjcs := Json.jcs_eq_of_named hinj (plainFileId_objType_ne content)
    (named_plainFileId content) (h ▸ named_plainFileId content')
  have hcontent := laws.descend_of_jcs_eq _ _ hjcs ["content"] content rfl
  exact (Json.string.inj (Option.some.inj hcontent)).symm

/-- `object` returns what the effective id names, if the body is this object. -/
theorem CyfsNdnResponse.object_of_plainFile (laws : web.Lawful) {response : CyfsNdnResponse}
    {content : String}
    (hchain : CyfsNdnResponse.verifyChainUnlessRaw web response.responseMeta = .ok none)
    (heffective : response.responseMeta.effectiveObjId web =
      .ok (some (plainFileId web content)))
    (hbody : response.body = ChunkSource.ofBytes (utf8Bytes (web.jcs (plainFile content 0)))) :
    response.object web = .ok (plainFileId web content, plainFile content 0) :=
  CyfsNdnResponse.object_of_named laws hchain heffective hbody
    (laws.jsonParse_jcs_plainFile content 0 (by norm_num)) (named_plainFileId content)

/-- Without an id of the caller the server can make any id the effective one: it
names it in the header, and adds a parent so that a path object does not count. -/
theorem exists_substitute (hfixes : FixesObjId web client request)
    (hknown : request.knownObjId = none) :
    ∃ resolvedUrl fixed pathObj pathObject, ∀ objId body,
      let headers : CyfsHttpRespHeaders := ⟨some objId, none, pathObj, [.objId objId], []⟩
      let response := answered request resolvedUrl headers pathObject [⟨objId, none, none⟩] body
      request.send web client (World.answering (.success headers body)) =
          .ok (response, { World.answering (.success headers body) with answers := [] }) ∧
        response.responseMeta.fixedObjId = some fixed ∧
        response.responseMeta.effectiveObjId web = .ok (some objId) ∧
        CyfsNdnResponse.verifyChainUnlessRaw web response.responseMeta = .ok none := by
  obtain ⟨w, first, w', fixed, hsend, hfixed⟩ := hfixes
  obtain ⟨resolvedUrl, _, _, hparse, hcascades, -, -, -, -, hmeta⟩ :=
    CyfsNdnRequestBuilder.send_eq_ok hsend
  obtain ⟨hmetaKnown, hmetaUrl, hmetaSteps, -, read, -, -, hpath, -⟩ :=
    CyfsResponseMeta.fromResponse_eq_ok hmeta
  unfold CyfsResponseMeta.fixedObjId at hfixed
  rw [hmetaKnown, hknown, hmetaSteps, hmetaUrl] at hfixed
  dsimp only at hfixed
  have hsteps : resolvedUrl.parsed.innerPathSteps.isEmpty = true := by
    by_contra hsteps
    rw [if_neg hsteps] at hfixed
    cases hfixed
  refine ⟨resolvedUrl, fixed, read.pathObj, first.responseMeta.pathObject, ?_⟩
  intro objId body headers response
  refine ⟨?_, ?_, ?_, ?_⟩
  · exact CyfsNdnRequestBuilder.send_success hparse hcascades hpath rfl
  · unfold CyfsResponseMeta.fixedObjId
    simp only [response, answered, hknown]
    exact hfixed
  · unfold CyfsResponseMeta.effectiveObjId
    simp only [response, answered, hknown, headers]
    cases first.responseMeta.pathObject <;> simp
  · unfold CyfsNdnResponse.verifyChainUnlessRaw CyfsResponseMeta.verifyInnerPathChain
    simp only [response, answered, hsteps]
    simp

theorem known_of_objectTrusted (laws : web.Lawful) (hinj : web.Injective)
    (hfixes : FixesObjId web client request) (h : ObjectTrusted web client request) :
    request.knownObjId.isSome := by
  by_contra hknown
  rw [Option.not_isSome_iff_eq_none] at hknown
  obtain ⟨resolvedUrl, fixed, pathObj, pathObject, hsubstitute⟩ :=
    exists_substitute hfixes hknown
  -- Every file object is passed off as the one that was asked for.
  have hall : ∀ content, plainFileId web content = fixed := by
    intro content
    obtain ⟨hsend, hfixed, heffective, hchain⟩ := hsubstitute (plainFileId web content)
      (utf8Bytes (web.jcs (plainFile content 0)))
    have hobject := CyfsNdnResponse.object_of_plainFile laws hchain heffective rfl
    exact ((h _ _ _ _ hsend hfixed).1 _ _ hobject).1
  have hsame := plainFileId_injective laws hinj ((hall "a").trans (hall "b").symm)
  exact absurd hsame (by decide)

/-! ## What a server can put into a file -/

/-- A pull into a local file writes the body, if it is the chunk that the descriptor
names. -/
theorem CyfsNdnResponse.pull_localFile (client : CyfsNdnClient) (response : CyfsNdnResponse)
    (storeMgr : Option NamedDataMgr) (w : World) {descriptor : PullDescriptor}
    {bytes : List UInt8} {target : Option NamedDataMgr} {effective : Option ObjId}
    {stored : List ObjId × World}
    (hrange : response.request.range = none) (hbody : response.body = ChunkSource.ofBytes bytes)
    (htarget : resolveTargetStoreMgr (.localFile "" (0, 0) false) storeMgr
      client.defaultStoreMgr = .ok target)
    (heffective : response.responseMeta.effectiveObjId web = .ok effective)
    (hdescribe : response.describeRawPull web = .ok (some descriptor))
    (hhashes : descriptor.chunkId.Hashes web.toCrates bytes)
    (hfile : w.fileError = none) (hprogress : ∀ path action, w.progress path action = .ok true)
    (hput : putObjects web descriptor.metadataToStore { w with storeMgr := target } =
      .ok stored) :
    ∃ result w', response.pull web client (.localFile "" (0, 0) false) storeMgr w =
      .ok (result, w') ∧ w'.written = w.written ++ bytes := by
  obtain ⟨mgr, hstored⟩ := putObjects_world hput
  have hcopy : copyBody web false descriptor.chunkId response.body = .ok bytes := by
    have hcalc : ChunkHasher.calcChunkId web.toCrates descriptor.chunkId.chunkType bytes =
        .ok descriptor.chunkId := hhashes
    unfold copyBody copyChunk
    rw [hbody]
    simp [readToEnd, ChunkSource.ofBytes, hcalc]
  have hcall : ∀ (progressCallback : Bool) innerPath action (w₀ : World),
      w₀.progress = w.progress →
        callProgressCallback progressCallback innerPath action w₀ = .ok ((), w₀) := by
    intro progressCallback innerPath action w₀ hw₀
    unfold callProgressCallback
    rw [hw₀, hprogress]
    split_ifs <;> rfl
  have hreport : ∀ (progressCallback : Bool) originalUrl fileAction (w₀ : World),
      w₀.progress = w.progress →
        reportFile progressCallback originalUrl fileAction w₀ = .ok ((), w₀) := by
    intro progressCallback originalUrl fileAction w₀ hw₀
    cases fileAction with
    | none => rfl
    | some action => exact hcall _ _ _ _ hw₀
  have hopen : openLocalWriter stored.2 = .ok ((), stored.2) := by
    unfold openLocalWriter
    rw [hstored]
    dsimp only
    rw [hfile]
  refine ⟨⟨effective, bytes.length, 1, stored.1⟩,
    { stored.2 with written := stored.2.written ++ bytes }, ?_, by rw [hstored]⟩
  unfold CyfsNdnResponse.pull
  simp only [bind_eq_ok, lift_eq_ok]
  refine ⟨target, w, ⟨htarget, rfl⟩, (), _, rfl, some descriptor, _, ⟨hdescribe, rfl⟩, ?_⟩
  unfold CyfsNdnResponse.pullDescribed CyfsNdnResponse.pullRawChunk consumeRawChunk saveRawChunk
  simp only [bind_eq_ok, lift_eq_ok, pure_eq_ok, hrange]
  refine ⟨effective, _, ⟨heffective, rfl⟩, stored.1, stored.2, hput, bytes.length, _,
    ⟨(), stored.2, hopen, bytes, stored.2, ⟨hcopy, rfl⟩, (), _, rfl, (), _, rfl, (), _,
      hcall _ _ _ _ ?_, (), _, hreport _ _ _ _ ?_, rfl⟩, rfl⟩
  · rw [hstored]
  · rw [hstored]

/-- No object has two different contents. -/
theorem not_content_of_all (laws : web.Lawful) (hinj : web.Injective) (objId : ObjId) :
    ¬ ∀ bytes : List UInt8, ∃ pieces, Content web objId pieces ∧ pieces.bytes = bytes := by
  intro hcontent
  obtain ⟨pieces, hpieces, hbytes⟩ := hcontent [0]
  obtain ⟨pieces', hpieces', hbytes'⟩ := hcontent [1]
  have hsame := hpieces.eq laws hinj hpieces' (by rw [hbytes]; norm_num)
    (by rw [hbytes']; norm_num)
  rw [hsame, hbytes'] at hbytes
  exact absurd hbytes (by decide)

/-- A file into which an object was delivered has its content. -/
theorem Delivered.content {objId : ObjId} {path : String} {range : Nat × Nat}
    {needPullToNamedMgr : Bool} {w w' : World} {bytes : List UInt8}
    (h : Delivered web objId (.localFile path range needPullToNamedMgr) w w')
    (hwritten : w'.written = w.written ++ bytes) :
    ∃ pieces, Content web objId pieces ∧ pieces.bytes = bytes := by
  obtain ⟨chunks, hchunks, pieces, rfl, hhash, hpieces, -⟩ := h
  refine ⟨pieces, ⟨hchunks, hhash⟩, ?_⟩
  rw [hwritten] at hpieces
  exact (List.append_cancel_left hpieces).symm

/-- A trusted pull does not write two different things. -/
theorem not_pullTrusted_of_writes (laws : web.Lawful) (hinj : web.Injective) (fixed : ObjId)
    (hwrites : ∀ bytes : List UInt8, ∃ w response w' storeMgr result w'',
      request.send web client w = .ok (response, w') ∧
        response.responseMeta.fixedObjId = some fixed ∧
        response.pull web client (.localFile "" (0, 0) false) storeMgr w' =
          .ok (result, w'') ∧ w''.written = w'.written ++ bytes) :
    ¬ PullTrusted web client request := by
  intro htrusted
  refine not_content_of_all laws hinj fixed fun bytes => ?_
  obtain ⟨w, response, w', storeMgr, result, w'', hsend, hfixed, hpull, hwritten⟩ :=
    hwrites bytes
  exact (htrusted w response w' fixed hsend hfixed _ storeMgr result w'' hpull).content hwritten

/-- A manager of one store that can be written. -/
def writableMgr : NamedDataMgr where
  versions := [⟨fun _ => some "store"⟩]
  stores := fun _ => some (NamedStore.NamedStore.fromConfig false)

/-- If the response is not raw, a pull writes the chunk that the last parent names as
its content, also under an id of the caller. -/
theorem raw_of_pullTrusted (laws : web.Lawful) (hinj : web.Injective)
    (hrange : request.range = none) (hfixes : FixesObjId web client request)
    (hknown : request.knownObjId.isSome) (h : PullTrusted web client request) :
    request.isRaw web = true := by
  obtain ⟨known, hknown⟩ := Option.isSome_iff_exists.mp hknown
  obtain ⟨w, first, w', fixed, hsend, -⟩ := hfixes
  obtain ⟨resolvedUrl, _, _, hparse, hcascades, -⟩ := CyfsNdnRequestBuilder.send_eq_ok hsend
  by_contra hraw
  have hnotRaw : (request.respRaw || resolvedUrl.parsed.respRaw) = false := by
    unfold CyfsNdnRequestBuilder.isRaw at hraw
    rw [hparse] at hraw
    simpa using hraw
  refine not_pullTrusted_of_writes laws hinj known ?_ h
  intro bytes
  -- The header inlines a file object whose content is the substituted chunk.
  let chunkId := sha256Chunk web bytes
  let text := chunkId.toObjId.toString web.toCrates
  let parent := plainFile text 1
  let parentId := (buildNamedObjectByJson web "cyfile" parent).1
  let headers : CyfsHttpRespHeaders := ⟨none, none, none, [.json (web.jcs parent)], []⟩
  let parents : List ResolvedParent := [⟨parentId, some (web.jcs parent), some parent⟩]
  let response := answered request resolvedUrl headers none parents bytes
  have hparents : headers.parents.mapM (ResolvedParent.fromHeader web) = .ok parents := by
    have hone : ResolvedParent.fromHeader web (.json (web.jcs parent)) =
        .ok ⟨parentId, some (web.jcs parent), some parent⟩ := by
      have hread : web.jsonParse (web.jcs parent) = some parent :=
        laws.jsonParse_jcs_plainFile text 1 (by norm_num)
      unfold ResolvedParent.fromHeader
      dsimp only
      rw [hread]
      rfl
    simp only [headers, parents, List.mapM_cons, List.mapM_nil, hone]
    rfl
  have hsendBad : request.send web client (World.answering (.success headers bytes)) =
      .ok (response, { World.answering (.success headers bytes) with answers := [] }) :=
    CyfsNdnRequestBuilder.send_success hparse hcascades rfl hparents
  have hmetaKnown : response.responseMeta.knownObjId = some known := hknown
  have hfixed : response.responseMeta.fixedObjId = some known := by
    unfold CyfsResponseMeta.fixedObjId
    rw [hmetaKnown]
  have hcontent : ObjId.new web.toCrates text = .ok chunkId.toObjId :=
    ObjId.new_toString_of_colon_not_mem laws.crates (by
      change ':' ∉ ("sha256" : String).toList
      decide)
  have hdescribe : response.describeRawPull web = .ok (some ⟨chunkId,
      [⟨parentId, web.jcs parent⟩], some (.fileOk parentId 1)⟩) := by
    unfold CyfsNdnResponse.describeRawPull
    rw [if_neg (by simpa [response, answered] using hnotRaw)]
    have hchain : response.describeFromInnerPathChain web = .ok (some ⟨chunkId,
        [⟨parentId, web.jcs parent⟩], some (.fileOk parentId 1)⟩) := by
      have hfile : web.fileObject parent = some ⟨text, 1⟩ :=
        laws.fileObject_plainFile text 1 (by norm_num)
      have htype : parentId.isFileObject = true := by
        change decide (("cyfile" : String) = "cyfile") = true
        decide
      unfold CyfsNdnResponse.describeFromInnerPathChain
      simp only [response, answered, parents, List.getLast?_singleton]
      rw [if_pos htype, hfile]
      dsimp only
      rw [hcontent]
      rfl
    rw [hchain]
  obtain ⟨result, w'', hpull, hwritten⟩ := CyfsNdnResponse.pull_localFile client response
    (some writableMgr) { World.answering (.success headers bytes) with answers := [] } hrange rfl
    rfl (CyfsResponseMeta.effectiveObjId_of_known hmetaKnown) hdescribe
    (hashes_sha256Chunk bytes) rfl (fun _ _ => rfl) rfl
  exact ⟨_, _, _, some writableMgr, result, w'', hsendBad, hfixed, hpull, hwritten⟩

/-- The client answers a fetch by id with nothing else exactly if the id comes from the
caller and the response is raw.  For `object` the id of the caller is enough. -/
theorem fetch_by_id_trusted_iff (laws : web.Lawful) (hinj : web.Injective)
    (hrange : request.range = none) (hfixes : FixesObjId web client request) :
    ((ObjectTrusted web client request ∧ PullTrusted web client request) ↔
      request.knownObjId.isSome ∧ request.isRaw web = true) ∧
    (ObjectTrusted web client request ↔ request.knownObjId.isSome) := by
  have hobject : ObjectTrusted web client request ↔ request.knownObjId.isSome :=
    ⟨known_of_objectTrusted laws hinj hfixes, objectTrusted_of_known laws⟩
  refine ⟨⟨?_, ?_⟩, hobject⟩
  · rintro ⟨hobj, hpull⟩
    have hknown := hobject.mp hobj
    exact ⟨hknown, raw_of_pullTrusted laws hinj hrange hfixes hknown hpull⟩
  · rintro ⟨hknown, hraw⟩
    exact ⟨hobject.mpr hknown, pullTrusted_of_known_raw laws hrange hknown hraw⟩

end Trusted

/-! ## A mirror that answers with another object -/

/-- A client whose path verifier accepts nothing. -/
def strictClient : CyfsNdnClient where
  defaultStoreMgr := none
  defaultRemoteUrl := none
  objIdInHost := false
  pathVerifier := fun _ _ _ => .error (.permissionDenied "no key for kid")

/-- The file object with the content `a`, asked for by its id in the URL. -/
def mirrorRequest : CyfsNdnRequestBuilder :=
  CyfsNdnClient.get
    "http://mirror/cyfile:8a504b89e73474f187eedabc92d485861935ad7f2e2e69948e43a160350df100"

/-- What the client makes of this URL. -/
def mirrorUrl : ResolvedUrl where
  originalUrl := mirrorRequest.url
  transportUrl := mirrorRequest.url
  parsedFull := ⟨some "mirror",
    "/cyfile:8a504b89e73474f187eedabc92d485861935ad7f2e2e69948e43a160350df100", none, "http://"⟩
  parsed :=
    { host := some "mirror"
      urlObjId := some (plainFileId sampleWeb "a")
      rootLocator := "/cyfile:8a504b89e73474f187eedabc92d485861935ad7f2e2e69948e43a160350df100"
      innerPathSteps := []
      query := none
      respRaw := false }
  locator := some (.pathSegment 0)

/-- The text of the id of the file object with the content `a`. -/
theorem plainFileId_a_text : (plainFileId sampleWeb "a").toString sampleWeb.toCrates =
    "cyfile:8a504b89e73474f187eedabc92d485861935ad7f2e2e69948e43a160350df100" := by
  decide

theorem mirrorUrl_parse :
    ResolvedUrl.parse sampleWeb mirrorRequest.url mirrorRequest.respRaw = .ok mirrorUrl := by
  have hroot : "/" ++ (plainFileId sampleWeb "a").toString sampleWeb.toCrates =
      mirrorUrl.parsedFull.path := by
    rw [plainFileId_a_text]
    exact String.ofList_append.symm
  have hpath : idPath sampleWeb.toCrates (plainFileId sampleWeb "a") none =
      mirrorUrl.parsedFull.path :=
    String.append_empty.trans hroot
  exact mirrorUrl_parse_of_id (plainFileId_plainType "a") rfl hroot hpath
    String.ofList_append.symm

/-- The mirror names the file object with the content `b` in the header, and sends it. -/
def mirrorAnswer : CyfsTransportResponse :=
  .success ⟨some (plainFileId sampleWeb "b"), none, none, [], []⟩
    (utf8Bytes (sampleJcs (plainFile "b" 0)))

/-- What the client makes of this answer. -/
def mirrorResponse : CyfsNdnResponse :=
  answered mirrorRequest mirrorUrl ⟨some (plainFileId sampleWeb "b"), none, none, [], []⟩ none []
    (utf8Bytes (sampleJcs (plainFile "b" 0)))

theorem mirrorRequest_send :
    mirrorRequest.send sampleWeb strictClient (World.answering mirrorAnswer) =
      .ok (mirrorResponse, { World.answering mirrorAnswer with answers := [] }) :=
  CyfsNdnRequestBuilder.send_success mirrorUrl_parse (by decide) rfl rfl

/-- The client returns the other object, under its own id. -/
theorem mirror_substitutes_object :
    mirrorRequest.send sampleWeb strictClient (World.answering mirrorAnswer) =
        .ok (mirrorResponse, { World.answering mirrorAnswer with answers := [] }) ∧
      mirrorResponse.responseMeta.fixedObjId = some (plainFileId sampleWeb "a") ∧
      mirrorResponse.object sampleWeb = .ok (plainFileId sampleWeb "b", plainFile "b" 0) ∧
      plainFileId sampleWeb "b" ≠ plainFileId sampleWeb "a" ∧
      ¬ ObjectTrusted sampleWeb strictClient mirrorRequest := by
  have hobject : mirrorResponse.object sampleWeb =
      .ok (plainFileId sampleWeb "b", plainFile "b" 0) :=
    CyfsNdnResponse.object_of_plainFile sampleWeb_lawful rfl rfl rfl
  have hne : plainFileId sampleWeb "b" ≠ plainFileId sampleWeb "a" := by decide
  refine ⟨mirrorRequest_send, rfl, hobject, hne, fun htrusted => ?_⟩
  exact hne ((htrusted _ _ _ _ mirrorRequest_send rfl).1 _ _ hobject).1

/-! ## A chunk fetched by the id of the caller -/

/-- The chunk `abc`, fetched from a URL that names nothing, by the id that the caller
knows; the response is raw. -/
def rawRequest : CyfsNdnRequestBuilder :=
  { CyfsNdnClient.get "http://mirror/abc" with
    knownObjId := some (sha256Chunk sampleWeb [97, 98, 99]).toObjId
    respRaw := true }

/-- What the client makes of this URL. -/
def rawUrl : ResolvedUrl where
  originalUrl := rawRequest.url
  transportUrl := rawRequest.url
  parsedFull := ⟨some "mirror", "/abc", none, "http://"⟩
  parsed :=
    { host := some "mirror"
      urlObjId := none
      rootLocator := "/abc"
      innerPathSteps := []
      query := none
      respRaw := true }
  locator := none

/-- What the client makes of an answer with this body, which names another object. -/
def rawResponse (body : List UInt8) : CyfsNdnResponse :=
  answered rawRequest rawUrl ⟨some (plainFileId sampleWeb "b"), none, none, [], []⟩ none [] body

theorem rawRequest_send (body : List UInt8) :
    let answer := CyfsTransportResponse.success
      ⟨some (plainFileId sampleWeb "b"), none, none, [], []⟩ body
    rawRequest.send sampleWeb strictClient (World.answering answer) =
      .ok (rawResponse body, { World.answering answer with answers := [] }) :=
  CyfsNdnRequestBuilder.send_success (by decide) (by decide) rfl rfl

/-- The client is trusted with this request: although the header names a file object it writes
the bytes, which are the content of the chunk. -/
theorem rawRequest_trusted :
    (ObjectTrusted sampleWeb strictClient rawRequest ∧
      PullTrusted sampleWeb strictClient rawRequest) ∧
    ∃ w w' result w'',
      rawRequest.send sampleWeb strictClient w = .ok (rawResponse [97, 98, 99], w') ∧
      (rawResponse [97, 98, 99]).pull sampleWeb strictClient (.localFile "" (0, 0) false) none
        w' = .ok (result, w'') ∧
      w''.written = w'.written ++ [97, 98, 99] ∧
      Delivered sampleWeb (sha256Chunk sampleWeb [97, 98, 99]).toObjId
        (.localFile "" (0, 0) false) w' w'' := by
  have hfixes : FixesObjId sampleWeb strictClient rawRequest :=
    ⟨_, _, _, _, rawRequest_send [], rfl⟩
  have htrusted := (fetch_by_id_trusted_iff sampleWeb_lawful sampleWeb_injective rfl
    hfixes).1.mpr ⟨rfl, by decide⟩
  have hdescribe : (rawResponse [97, 98, 99]).describeRawPull sampleWeb =
      .ok (some ⟨sha256Chunk sampleWeb [97, 98, 99], [], none⟩) := rfl
  obtain ⟨result, w'', hpull, hwritten⟩ := CyfsNdnResponse.pull_localFile strictClient
    (rawResponse [97, 98, 99]) none
    { World.answering (.success ⟨some (plainFileId sampleWeb "b"), none, none, [], []⟩
      [97, 98, 99]) with answers := [] } rfl rfl rfl
    (CyfsResponseMeta.effectiveObjId_of_known rfl) hdescribe (hashes_sha256Chunk _) rfl
    (fun _ _ => rfl) rfl
  refine ⟨htrusted, _, _, result, w'', rawRequest_send _, hpull, hwritten, ?_⟩
  exact htrusted.2 _ _ _ _ (rawRequest_send _) rfl _ _ _ _ hpull

end NdnToolkit
end CyfsNdn

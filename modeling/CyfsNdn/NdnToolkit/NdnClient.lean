import CyfsNdn.NdnLib.CyfsHttp
import CyfsNdn.NamedStore.ManagerPut

/-!
# The CYFS client: requests and verified objects

`CyfsNdnClient` of `ndn-toolkit/src/cyfs_ndn_client.rs` up to `object`: what is read of
a URL and of a response, which id the response is checked against, and the check.  A
server is the list of answers that it gives to the requests, one after another, and
the path verifier is a parameter of the client.
-/

namespace CyfsNdn
namespace NdnToolkit

open NdnLib NamedStore

/-- `VerifiedPathObject`. -/
structure VerifiedPathObject where
  path : String
  target : ObjId
  iat : Nat
  exp : Nat
  deriving DecidableEq, Repr

/-- `PathObjectVerifier::verify` of a token, for the host and the path of the request. -/
abbrev PathObjectVerifier :=
  String → Option String → Option String → NdnResult VerifiedPathObject

/-- `CyfsTransportResponse`; `headers` is what `get_cyfs_resp_headers` makes of them. -/
structure CyfsTransportResponse where
  status : Nat
  headers : NdnResult CyfsHttpRespHeaders
  contentLength : Option UInt64
  body : ChunkSource

/-- `CyfsNdnClient`. -/
structure CyfsNdnClient where
  defaultStoreMgr : Option NamedDataMgr
  defaultRemoteUrl : Option String
  objIdInHost : Bool
  pathVerifier : PathObjectVerifier

/-- `NdnAction`, as the client reports it. -/
inductive NdnAction where
  | chunkOk (chunkId : ChunkId) (size : Nat)
  | fileOk (objId : ObjId) (size : Nat)
  deriving DecidableEq, Repr

/-- `NdnProgressCallback`: whether to go on. -/
abbrev NdnProgressCallback := String → NdnAction → NdnResult Bool

/-- `CyfsNdnRequestBuilder`, without what only goes into the request headers; of the
progress callback it only matters here whether there is one. -/
structure CyfsNdnRequestBuilder where
  url : String
  knownObjId : Option ObjId
  range : Option (Nat × Nat)
  progressCallback : Bool
  cascades : List Json
  respRaw : Bool

/-- `CyfsNdnClient::get`. -/
def CyfsNdnClient.get (url : String) : CyfsNdnRequestBuilder where
  url := url
  knownObjId := none
  range := none
  progressCallback := false
  cascades := []
  respRaw := false

/-! ## URLs -/

/-- `ObjLocator`. -/
inductive ObjLocator where
  | hostFirstLabel
  | pathSegment (index : Nat)
  deriving DecidableEq, Repr

/-- `ResolvedUrl`. -/
structure ResolvedUrl where
  originalUrl : String
  transportUrl : String
  parsedFull : Url
  parsed : CyfsParsedUrl
  locator : Option ObjLocator
  deriving DecidableEq, Repr

/-- `Url::path_segments`. -/
def pathSegments (url : Url) : Option (List String) :=
  match url.path.toList with
  | '/' :: rest => some ((rest.splitOn '/').map String.ofList)
  | _ => none

/-- `append_query`. -/
def appendQuery (web : WebCrates) (url : Url) (key value : String) : String :=
  let pairs := web.queryPairs (url.query.getD "")
  web.urlText { url with
    query := some (web.queryText ((pairs.filter fun pair => pair.1 ≠ key) ++ [(key, value)])) }

namespace ResolvedUrl

/-- Where the object id of a URL stands. -/
def locate (web : WebCrates) (url : Url) (objId : ObjId) : Option ObjLocator :=
  if (url.hostStr.bind fun h => (ObjId.fromHostname web.toCrates h).toOption) = some objId then
    some .hostFirstLabel
  else
    (pathSegments url).bind fun segments =>
      (segments.findIdx? fun seg =>
        (ObjId.new web.toCrates seg).toOption = some objId).map .pathSegment

/-- `ResolvedUrl::parse`. -/
def parse (web : WebCrates) (url : String) (forceRaw : Bool) : NdnResult ResolvedUrl :=
  match web.urlParse url with
  | none => .error (.invalidParam ("parse url " ++ url ++ " failed: "))
  | some parsedFull =>
      match cyfsParseUrl web url with
      | .error e => .error e
      | .ok parsed =>
          let force := forceRaw && !parsed.respRaw
          .ok
            { originalUrl := url
              transportUrl := if force then appendQuery web parsedFull "resp" "raw" else url
              parsedFull := parsedFull
              parsed := { parsed with respRaw := parsed.respRaw || force }
              locator := parsed.urlObjId.bind (locate web parsedFull) }

/-- `semantic_path`. -/
def semanticPath (resolvedUrl : ResolvedUrl) : Option String :=
  if resolvedUrl.parsed.urlObjId.isSome then none
  else
    let root := (resolvedUrl.parsed.rootLocator.toList.reverse.dropWhile (· = '/')).reverse
    if root.isEmpty then none else some (String.ofList root)

/-- `replace_obj_id`. -/
def replaceObjId (web : WebCrates) (resolvedUrl : ResolvedUrl) (objId : ObjId) :
    NdnResult String :=
  let url := resolvedUrl.parsedFull
  match resolvedUrl.locator with
  | some .hostFirstLabel =>
      match url.hostStr with
      | none => .error (.invalidParam ("missing host in " ++ resolvedUrl.originalUrl))
      | some host =>
          let labels := objId.toBase32 web :: (splitText '.' host).tail
          match web.urlSetHost url (".".intercalate labels) with
          | none => .error (.invalidParam ("replace host failed for " ++ resolvedUrl.originalUrl))
          | some url => .ok (web.urlText { url with query := none })
  | some (.pathSegment index) =>
      let segments := (pathSegments url).getD []
      if segments.length ≤ index then
        .error (.invalidParam ("path segment " ++ toString index ++ " out of range for " ++
          resolvedUrl.originalUrl))
      else
        let replaced := segments.set index (objId.toString web.toCrates)
        .ok (web.urlText { web.urlSetPath url ("/" ++ "/".intercalate replaced) with
          query := none })
  | none => .error (.invalidParam ("cannot replace obj id for " ++ resolvedUrl.originalUrl))

end ResolvedUrl

namespace CyfsNdnClient

/-- `gen_obj_url`. -/
def genObjUrl (web : WebCrates) (client : CyfsNdnClient) (objId : ObjId) : NdnResult String :=
  match client.defaultRemoteUrl with
  | none => .error (.invalidParam "default_remote_url is required to generate obj url")
  | some base =>
      if client.objIdInHost then
        match web.urlParse base with
        | none => .error (.invalidParam "parse default remote url failed: ")
        | some url =>
            match url.hostStr with
            | none => .error (.invalidParam ("missing host in " ++ base))
            | some host =>
                match web.urlSetHost url (objId.toBase32 web ++ "." ++ host) with
                | none => .error (.invalidParam ("replace host obj id failed for " ++ base))
                | some url => .ok (web.urlText url)
      else
        let base := String.ofList (base.toList.reverse.dropWhile (· = '/')).reverse
        .ok (base ++ "/" ++ objId.toString web.toCrates)

/-- `resolve_related_url`. -/
def resolveRelatedUrl (web : WebCrates) (client : CyfsNdnClient) (base : ResolvedUrl)
    (objId : ObjId) : NdnResult String :=
  match base.replaceObjId web objId with
  | .ok url => .ok url
  | .error _ => client.genObjUrl web objId

end CyfsNdnClient

/-! ## Parents and inner paths -/

/-- `ResolvedParent`. -/
structure ResolvedParent where
  objId : ObjId
  objStr : Option String
  objJson : Option Json

/-- `recompute_parent_obj_id`: the type is guessed from the fields. -/
def recomputeParentObjId (web : WebCrates) (objJson : Json) : NdnResult ObjId :=
  if objJson.isArray then
    match ChunkList.fromJsonValue web objJson with
    | .error e => .error e
    | .ok chunkList => .ok (chunkList.genObjId web).1
  else if (objJson.get "content").isSome ∧ (objJson.get "size").isSome then
    .ok (buildNamedObjectByJson web "cyfile" objJson).1
  else if (objJson.get "total_size").isSome ∨ (objJson.get "file_count").isSome then
    .ok (buildNamedObjectByJson web "cydir" objJson).1
  else if (objJson.get "path").isSome ∧ (objJson.get "target").isSome then
    .ok (buildNamedObjectByJson web "cypath" objJson).1
  else
    .error (.invalidData "unable to infer cyfs-parents-N object type from JSON payload")

/-- `ResolvedParent::from_header`. -/
def ResolvedParent.fromHeader (web : WebCrates) : CyfsParent → NdnResult ResolvedParent
  | .objId id => .ok ⟨id, none, none⟩
  | .json objStr =>
      match web.jsonParse objStr with
      | none => .error (.decodeError "parse cyfs-parents-N json failed: ")
      | some objJson =>
          match recomputeParentObjId web objJson with
          | .error e => .error e
          | .ok objId => .ok ⟨objId, some objStr, some objJson⟩

/-- The fields of one step. -/
def stepFields (step : String) : List String :=
  (splitText '/' step).filter (· ≠ "")

/-- The loop of `resolve_inner_path_step`. -/
def resolveFields (current : Json) : List String → NdnResult Json
  | [] => .ok current
  | field :: rest =>
      match parseUsize field with
      | some idx =>
          match current.getIdx idx with
          | none => .error (.notFound ("inner_path index " ++ toString idx ++ " not found"))
          | some next => resolveFields next rest
      | none =>
          match current.get field with
          | none => .error (.notFound ("inner_path field '" ++ field ++ "' not found"))
          | some next => resolveFields next rest

/-- `resolve_inner_path_step`. -/
def resolveInnerPathStep (objJson : Json) (step : String) : NdnResult Json :=
  resolveFields objJson (stepFields step)

/-! ## Responses -/

/-- `CyfsResponseMeta`. -/
structure CyfsResponseMeta where
  requestedUrl : String
  transportUrl : String
  knownObjId : Option ObjId
  urlObjId : Option ObjId
  urlInnerPathSteps : List String
  respRaw : Bool
  cyfsHeaders : CyfsHttpRespHeaders
  pathObject : Option VerifiedPathObject
  parents : List ResolvedParent

namespace CyfsResponseMeta

/-- The path object of a response that is not raw, if the verifier accepts its token. -/
def verifyPathObject (pathVerifier : PathObjectVerifier) (resolvedUrl : ResolvedUrl)
    (respRaw : Bool) (headers : CyfsHttpRespHeaders) :
    NdnResult (Option VerifiedPathObject) :=
  match headers.pathObj with
  | none => .ok none
  | some jwt =>
      if respRaw then .ok none
      else (pathVerifier jwt resolvedUrl.parsed.host resolvedUrl.semanticPath).map some

/-- `from_response`. -/
def fromResponse (web : WebCrates) (resolvedUrl : ResolvedUrl) (knownObjId : Option ObjId)
    (respRaw : Bool) (headers : NdnResult CyfsHttpRespHeaders) (contentLength : Option UInt64)
    (pathVerifier : PathObjectVerifier) : NdnResult CyfsResponseMeta := do
  let headers ← headers
  let headers := { headers with chunkSize := headers.chunkSize.orElse fun _ => contentLength }
  let pathObject ← verifyPathObject pathVerifier resolvedUrl respRaw headers
  let parents ← headers.parents.mapM (ResolvedParent.fromHeader web)
  pure
    { requestedUrl := resolvedUrl.originalUrl
      transportUrl := resolvedUrl.transportUrl
      knownObjId := knownObjId
      urlObjId := resolvedUrl.parsed.urlObjId
      urlInnerPathSteps := resolvedUrl.parsed.innerPathSteps
      respRaw := respRaw
      cyfsHeaders := headers
      pathObject := pathObject
      parents := parents }

/-- `effective_obj_id`: the id of the caller, then of the path object where no inner
path is involved, then of the header, then of the URL. -/
def effectiveObjId (web : WebCrates) (responseMeta : CyfsResponseMeta) :
    NdnResult (Option ObjId) :=
  match responseMeta.knownObjId with
  | some objId => .ok (some objId)
  | none =>
      match responseMeta.pathObject with
      | some path =>
          if responseMeta.urlInnerPathSteps.isEmpty && responseMeta.parents.isEmpty then
            match responseMeta.cyfsHeaders.objId with
            | some headerId =>
                if headerId ≠ path.target then
                  .error (.permissionDenied ("cyfs-obj-id header " ++ headerId.toBase32 web ++
                    " contradicts signed cyfs-path-obj target " ++ path.target.toBase32 web))
                else .ok (some path.target)
            | none => .ok (some path.target)
          else .ok (responseMeta.cyfsHeaders.objId.orElse fun _ => responseMeta.urlObjId)
      | none => .ok (responseMeta.cyfsHeaders.objId.orElse fun _ => responseMeta.urlObjId)

/-- The loop of `verify_inner_path_chain`, with the index of the first step, the
parents from this step on, the id in the header and the last result. -/
def verifySteps (web : WebCrates) (headerId : Option ObjId) :
    Nat → List String → List ResolvedParent → Option ObjId → NdnResult (Option ObjId)
  | _, [], _, lastResolved => .ok lastResolved
  | _, _ :: _, [], lastResolved => .ok lastResolved
  | stepIdx, step :: steps, parent :: parents, _ =>
      match parent.objJson with
      | none => .error (.invalidData ("cyfs-parents-" ++ toString stepIdx ++
          " missing json payload for inner_path verification"))
      | some parentJson =>
          match resolveInnerPathStep parentJson step with
          | .error e => .error e
          | .ok resolved =>
              let expectedNext : NdnResult ObjId :=
                match steps, parents with
                | _ :: _, next :: _ => .ok next.objId
                | _, _ =>
                    match headerId with
                    | some id => .ok id
                    | none =>
                        match ObjId.fromValue web.toCrates resolved with
                        | .ok id => .ok id
                        | .error _ => .error (.invalidData ("final inner_path step " ++ step ++
                            " did not resolve to an ObjId and cyfs-obj-id is missing"))
              match expectedNext with
              | .error e => .error e
              | .ok expectedNext =>
                  match ObjId.fromValue web.toCrates resolved with
                  | .error _ => .error (.invalidData ("inner_path step " ++ step ++
                      " result is not an ObjId (value: "))
                  | .ok resolvedObjId =>
                      if resolvedObjId ≠ expectedNext then
                        .error (.invalidData ("inner_path step " ++ step ++ " resolves to " ++
                          resolvedObjId.toBase32 web ++ " but expected " ++
                            expectedNext.toBase32 web))
                      else
                        verifySteps web headerId (stepIdx + 1) steps parents (some resolvedObjId)

/-- `verify_inner_path_chain`. -/
def verifyInnerPathChain (web : WebCrates) (responseMeta : CyfsResponseMeta) :
    NdnResult (Option ObjId) :=
  if responseMeta.urlInnerPathSteps.isEmpty ∨ responseMeta.parents.isEmpty then .ok none
  else if responseMeta.parents.length < responseMeta.urlInnerPathSteps.length then
    .error (.invalidData ("cyfs-parents-N count " ++ toString responseMeta.parents.length ++
      " is less than inner_path steps " ++ toString responseMeta.urlInnerPathSteps.length))
  else
    match responseMeta.pathObject, responseMeta.parents with
    | some path, first :: _ =>
        if first.objId ≠ path.target then
          .error (.invalidData ("cyfs-path-obj.target " ++ path.target.toBase32 web ++
            " does not match cyfs-parents-0 " ++ first.objId.toBase32 web))
        else
          verifySteps web responseMeta.cyfsHeaders.objId 0 responseMeta.urlInnerPathSteps
            responseMeta.parents none
    | _, _ =>
        verifySteps web responseMeta.cyfsHeaders.objId 0 responseMeta.urlInnerPathSteps
          responseMeta.parents none

end CyfsResponseMeta

end NdnToolkit
end CyfsNdn

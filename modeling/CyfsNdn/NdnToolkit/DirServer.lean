import CyfsNdn.NdnLib.HeaderCodec
import CyfsNdn.NdnToolkit.Pull

/-!
# The directory server

`NdnDirServer` of `ndn-toolkit/src/cyfs_ndn_dir_server.rs`, as far as it answers a
request with an inner path: how the path is cut and decoded, which objects the walk
reads, and what is sent of them.  What the semantic root directory holds and the
answers without an inner path are functions of the server.
-/

namespace CyfsNdn
namespace NdnToolkit

open NdnLib NamedStore

/-! ## Paths -/

/-- `from_hex`. -/
def fromHex (b : UInt8) : Option UInt8 :=
  if 48 ≤ b ∧ b ≤ 57 then some (b - 48)
  else if 97 ≤ b ∧ b ≤ 102 then some (b - 97 + 10)
  else if 65 ≤ b ∧ b ≤ 70 then some (b - 65 + 10)
  else none

/-- The byte of a percent sign with two digits. -/
def escapedByte (b hi lo : UInt8) : Option UInt8 :=
  if b = 37 then
    match fromHex hi, fromHex lo with
    | some h, some l => some (h <<< 4 ||| l)
    | _, _ => none
  else none

/-- The loop of `decode_url_segment`: an escape needs two more bytes. -/
def decodeBytes : List UInt8 → List UInt8
  | [] => []
  | [b] => [b]
  | [b, c] => [b, c]
  | b :: hi :: lo :: rest =>
      match escapedByte b hi lo with
      | some byte => byte :: decodeBytes rest
      | none => b :: decodeBytes (hi :: lo :: rest)

/-- `decode_url_segment`. -/
def decodeUrlSegment (seg : String) : String :=
  (ObjId.stringFromUtf8 (decodeBytes (utf8Bytes seg))).getD seg

/-- `parse_step_fields`. -/
def parseStepFields (step : List Char) : List String :=
  (stepFields (String.ofList step)).map decodeUrlSegment

/-- `split_inner_path_with_root`. -/
def splitInnerPathWithRoot (path : String) : String × List (List String) :=
  let parts := splitInnerPath path.toList
  (String.ofList (parts.headD []), parts.tail.map parseStepFields)

/-- `split_inner_path_whole`. -/
def splitInnerPathWhole (path : String) : List (List String) :=
  ((splitInnerPath path.toList).map parseStepFields).filter fun fields => !fields.isEmpty

/-- `query_has_resp_raw`. -/
def queryHasRespRaw : Option String → Bool
  | none => false
  | some q => (splitText '&' q).any fun pair =>
      match pair.toList.splitOn '=' with
      | k :: v => k = "resp".toList ∧ ['='].intercalate v = "raw".toList
      | [] => false

/-- `parse_range_offset`. -/
def parseRangeOffset (raw : Option String) : Option Nat :=
  raw.bind fun raw =>
    let text := raw.trimAscii.toString
    if "bytes=".toList.isPrefixOf text.toList then
      parseUsize ((splitText '-' (String.ofList (text.toList.drop 6))).headD "")
    else none

/-! ## Headers on the wire -/

/-- The white space around a header value is not part of it. -/
def trimHeader (value : String) : String :=
  let blank : Char → Bool := fun c => c = ' ' ∨ c = '\t'
  String.ofList ((value.toList.dropWhile blank).reverse.dropWhile blank).reverse

/-- The header map with one value, as it arrives. -/
def arrived (name value : String) : HeaderMap := [(name, utf8Bytes (trimHeader value))]

/-- What `get_cyfs_resp_headers` reads of the headers that `apply_cyfs_resp_headers`
writes.  The id and the path object are texts that a header may not keep; the size is a
number, parents are written in base64, and the server sends no inner proofs. -/
def receivedHeaders (crates : Crates) (headers : CyfsHttpRespHeaders) :
    NdnResult CyfsHttpRespHeaders := do
  let objId ←
    match headers.objId with
    | none => .ok none
    | some objId =>
        headerGet (arrived "cyfs-obj-id" (objId.toString crates)) "cyfs-obj-id" (ObjId.new crates)
  let pathObj ←
    match headers.pathObj with
    | none => .ok none
    | some jwt => headerGetStr (arrived "cyfs-path-obj" jwt) "cyfs-path-obj"
  return { headers with objId := objId, pathObj := pathObj }

/-! ## The server -/

/-- The method of a request. -/
inductive HttpMethod where
  | get
  | head
  | other (name : String)
  deriving DecidableEq, Repr

/-- What the server reads of a request. -/
structure DirRequest where
  method : HttpMethod
  /-- The `Host` header without the port. -/
  host : Option String
  path : String
  query : Option String
  range : Option String

/-- What the server sends. -/
structure DirResponse where
  status : Nat
  headers : CyfsHttpRespHeaders
  contentLength : Nat
  body : List UInt8

/-- What the client receives of it. -/
def DirResponse.received (crates : Crates) (response : DirResponse) :
    CyfsTransportResponse where
  status := response.status
  headers := receivedHeaders crates response.headers
  contentLength := some (UInt64.ofNat response.contentLength)
  body := ChunkSource.ofBytes response.body

/-- `RootState`. -/
inductive RootState where
  | chunk (chunkId : ChunkId)
  | namedObj (objId : ObjId) (objType : String) (objJson : Json) (pathObjJwt : Option String)
      (fsPath : Option String)
  | rawFile (path : String)
  | localObjFile (path : String)

/-- `NdnDirServer`. -/
structure NdnDirServer where
  urlPrefix : String
  objIdInHost : Bool
  storeMgr : NamedDataMgr
  files : LocalFiles
  /-- `load_root_from_semantic`. -/
  loadRootFromSemantic : List String → NdnResult RootState
  /-- `serve_named_obj_root` and `serve_local_file_bytes`, for a raw answer or not. -/
  serveRoot : RootState → DirRequest → Bool → NdnResult DirResponse

/-- `apply_cyfs_headers`: the headers can be written.  Only the id and the path object are
texts that may hold a control character. -/
def applyCyfsHeaders (crates : Crates) (headers : CyfsHttpRespHeaders) : NdnResult Unit := do
  let _ ← insertSome [] "cyfs-obj-id" (headers.objId.map (ObjId.toString crates))
  let _ ← insertSome [] "cyfs-path-obj" headers.pathObj
  return ()

/-- `build_named_object_response` and `build_json_value_response`, which differ in the
content type. -/
def buildBodyResponse (crates : Crates) (request : DirRequest)
    (headers : CyfsHttpRespHeaders) (body : List UInt8) : NdnResult DirResponse :=
  (applyCyfsHeaders crates headers).map fun () =>
    ⟨200, headers, body.length, if request.method = .head then [] else body⟩

/-- `serve_raw_bytes`. -/
def serveRawBytes (request : DirRequest) (body : List UInt8) : NdnResult DirResponse :=
  .ok ⟨200, .none, body.length, if request.method = .head then [] else body⟩

/-- `finalize_stream_response`; the reader stands at the offset, and a raw answer has no
headers. -/
def finalizeStreamResponse (crates : Crates) (request : DirRequest) (reader : List UInt8)
    (totalSize offset : Nat) (headers : Option CyfsHttpRespHeaders) (idForError : String) :
    NdnResult DirResponse :=
  if totalSize < offset then .error (.offsetTooLarge idForError)
  else
    let headers :=
      match headers with
      | none => CyfsHttpRespHeaders.none
      | some headers =>
          { headers with
            chunkSize := headers.chunkSize.orElse fun _ => some (UInt64.ofNat totalSize) }
    (applyCyfsHeaders crates headers).map fun () =>
      ⟨if offset = 0 then 200 else 206, headers, totalSize - offset,
        if request.method = .head then [] else reader.take (totalSize - offset)⟩

namespace NdnDirServer

variable (web : WebCrates)

/-- `build_chunk_response` without a file to fall back on. -/
def buildChunkResponse (server : NdnDirServer) (request : DirRequest) (chunkId : ChunkId)
    (headers : Option CyfsHttpRespHeaders) : NdnResult DirResponse :=
  let offset := (parseRangeOffset request.range).getD 0
  match server.storeMgr.openChunkReader web.toCrates server.files chunkId offset with
  | .error e => .error e
  | .ok (reader, totalSize) =>
      finalizeStreamResponse web.toCrates request reader totalSize offset headers
        (chunkId.toString web.toCrates)

/-- `strip_url_prefix`. -/
def stripUrlPrefix (server : NdnDirServer) (uriPath : String) : String :=
  let trimmed := ((server.urlPrefix.toList.dropWhile (· = '/')).reverse.dropWhile
    (· = '/')).reverse
  if trimmed.isEmpty then uriPath
  else if ('/' :: trimmed).isPrefixOf uriPath.toList then
    match uriPath.toList.drop (trimmed.length + 1) with
    | [] => "/"
    | '/' :: rest => String.ofList ('/' :: rest)
    | _ => uriPath
  else uriPath

/-- The object of an id in the store. -/
def loadObject (server : NdnDirServer) (objId : ObjId) (failed : String) : NdnResult Json :=
  match server.storeMgr.getObject web.toCrates objId with
  | .error e => .error e
  | .ok objStr =>
      match web.jsonParse objStr with
      | none => .error (.decodeError failed)
      | some objJson => .ok objJson

/-- `load_root_from_store`. -/
def loadRootFromStore (server : NdnDirServer) (objId : ObjId) : NdnResult RootState :=
  if objId.isChunk then .ok (.chunk (ChunkId.fromObjId objId))
  else
    match server.loadObject web objId ("parse store object " ++ objId.toBase32 web ++ ": ") with
    | .error e => .error e
    | .ok objJson => .ok (.namedObj objId objId.objType objJson none none)

/-- The value at one field. -/
def walkField (cur : Json) (field : String) : NdnResult Json :=
  match parseUsize field with
  | some idx =>
      match cur.getIdx idx with
      | none => .error (.notFound ("inner_path index " ++ toString idx ++ " not found"))
      | some next => .ok next
  | none =>
      match cur.get field with
      | none => .error (.notFound ("inner_path field '" ++ field ++ "' not found"))
      | some next => .ok next

/-- The loop of `walk_segment`: where more fields follow, an id is replaced by its
object. -/
def walkSegment (server : NdnDirServer) : Json → List String → NdnResult Json
  | cur, [] => .ok cur
  | cur, [field] => walkField cur field
  | cur, field :: more :: rest =>
      match walkField cur field with
      | .error e => .error e
      | .ok next =>
          match ObjId.fromValue web.toCrates next with
          | .ok objId =>
              match server.loadObject web objId "parse object JSON mid-segment: " with
              | .error e => .error e
              | .ok object => walkSegment server object (more :: rest)
          | .error _ => walkSegment server next (more :: rest)

/-- The loop of `walk_inner_path` from a current object on: the final value, and the
canonical texts of the objects after the current one. -/
def walkSteps (server : NdnDirServer) : Nat → Json → List String → List (List String) →
    NdnResult (Json × List String)
  | _, cur, fields, [] => (server.walkSegment web cur fields).map (·, [])
  | i, cur, fields, next :: rest =>
      match server.walkSegment web cur fields with
      | .error e => .error e
      | .ok result =>
          match ObjId.fromValue web.toCrates result with
          | .error e => .error (.invalidParam ("segment " ++ toString i ++
              " did not end with ObjectId: " ++ e.display))
          | .ok nextId =>
              match server.loadObject web nextId "parse intermediate object JSON: " with
              | .error e => .error e
              | .ok nextJson =>
                  (walkSteps server (i + 1) nextJson next rest).map fun walked =>
                    (walked.1, (buildNamedObjectByJson web nextId.objType nextJson).2 :: walked.2)

/-- `serve_inner_path_final`. -/
def serveInnerPathFinal (server : NdnDirServer) (request : DirRequest) (respRaw : Bool)
    (finalValue : Json) (parents : List String) (rootPathObjJwt : Option String) :
    NdnResult DirResponse :=
  let headers : CyfsHttpRespHeaders :=
    { CyfsHttpRespHeaders.none with
      pathObj := rootPathObjJwt, parents := parents.map .json }
  match ObjId.fromValue web.toCrates finalValue with
  | .ok objId =>
      if respRaw then serveRawBytes request (utf8Bytes (web.jsonText finalValue))
      else if objId.isChunk then
        let chunkId := ChunkId.fromObjId objId
        let totalSize := (server.storeMgr.queryChunkState web.toCrates chunkId).2
        server.buildChunkResponse web request chunkId (some
          { headers with
            objId := some chunkId.toObjId, chunkSize := some (UInt64.ofNat totalSize) })
      else
        match server.loadObject web objId "parse final named object: " with
        | .error e => .error e
        | .ok objValue =>
            buildBodyResponse web.toCrates request { headers with objId := some objId }
              (utf8Bytes (buildNamedObjectByJson web objId.objType objValue).2)
  | .error _ =>
      if respRaw then serveRawBytes request (utf8Bytes (web.jsonText finalValue))
      else buildBodyResponse web.toCrates request headers (utf8Bytes (web.jsonText finalValue))

/-- `serve_resolved`. -/
def serveResolved (server : NdnDirServer) (request : DirRequest) (respRaw : Bool)
    (root : RootState) (steps : List (List String)) : NdnResult DirResponse :=
  match root, steps with
  | .chunk chunkId, [] =>
      server.buildChunkResponse web request chunkId
        (if respRaw then none
        else some { CyfsHttpRespHeaders.none with objId := some chunkId.toObjId })
  | .chunk _, _ :: _ =>
      .error (.invalidParam "inner_path is not applicable to a Chunk root")
  | .rawFile _, _ :: _ | .localObjFile _, _ :: _ =>
      .error (.invalidParam "inner_path is not applicable to a raw-file root")
  | root, [] => server.serveRoot root request respRaw
  | .namedObj _ objType objJson pathObjJwt _, fields :: rest =>
      match server.walkSteps web 0 objJson fields rest with
      | .error e => .error e
      | .ok (finalValue, parents) =>
          server.serveInnerPathFinal web request respRaw finalValue
            ((buildNamedObjectByJson web objType objJson).2 :: parents) pathObjJwt

/-- The id of the first label of the host, where the server looks for one. -/
def hostObjId (server : NdnDirServer) (request : DirRequest) : Option ObjId :=
  if server.objIdInHost then
    request.host.bind fun host =>
      (ObjId.fromHostname web.toCrates ((splitText '.' host).headD "")).toOption
  else none

/-- The segments of the root part of a path. -/
def rootSegments (rootPart : String) : List String :=
  (stepFields rootPart).map decodeUrlSegment

/-- The object that the first segment names, and the steps from it on. -/
def rootObjId (relPath : String) : Option (ObjId × List (List String)) :=
  let cut := splitInnerPathWithRoot relPath
  match rootSegments cut.1 with
  | [] => none
  | first :: more =>
      match ObjId.new web.toCrates first with
      | .error _ => none
      | .ok objId => some (objId, if more.isEmpty then cut.2 else more :: cut.2)

/-- `route_request`. -/
def routeRequest (server : NdnDirServer) (request : DirRequest) : NdnResult DirResponse :=
  match request.method with
  | .other name => .error (.unsupported ("method " ++ name ++ " is not supported"))
  | _ =>
      let respRaw := queryHasRespRaw request.query
      match server.hostObjId web request with
      | some objId =>
          match server.loadRootFromStore web objId with
          | .error e => .error e
          | .ok root =>
              server.serveResolved web request respRaw root (splitInnerPathWhole request.path)
      | none =>
          let relPath := server.stripUrlPrefix request.path
          match rootObjId web relPath with
          | some (objId, steps) =>
              match server.loadRootFromStore web objId with
              | .error e => .error e
              | .ok root => server.serveResolved web request respRaw root steps
          | none =>
              let cut := splitInnerPathWithRoot relPath
              match server.loadRootFromSemantic (rootSegments cut.1) with
              | .error e => .error e
              | .ok root => server.serveResolved web request respRaw root cut.2

end NdnDirServer

/-- The request that the client sends for a URL. -/
def DirRequest.ofUrl (url : Url) : DirRequest where
  method := .get
  host := url.hostStr
  path := url.path
  query := url.query
  range := none

end NdnToolkit
end CyfsNdn

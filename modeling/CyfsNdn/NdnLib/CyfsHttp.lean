import CyfsNdn.NdnLib.Json

/-!
# CYFS URLs and response headers

`ndn-lib/src/cyfs_http.rs`: a URL is cut at each `/@/` into the root locator and the
steps of an inner path, and the response headers name the object of the body and its
parents.
-/

namespace CyfsNdn
namespace NdnLib

/-- `str::split` at `CYFS_INNER_PATH_DELIMITER`, the text `/@/`. -/
def splitInnerPath : List Char → List (List Char)
  | [] => [[]]
  | '/' :: '@' :: '/' :: rest => [] :: splitInnerPath rest
  | c :: rest => (splitInnerPath rest).modifyHead (c :: ·)

/-- `CyfsParsedUrl`. -/
structure CyfsParsedUrl where
  host : Option String
  urlObjId : Option ObjId
  rootLocator : String
  innerPathSteps : List String
  query : Option String
  respRaw : Bool
  deriving DecidableEq, Repr

/-- The steps of an inner path: the parts after the root, without the slashes in
front and without the empty ones. -/
def innerPathSteps (segments : List (List Char)) : List String :=
  ((segments.map fun s => s.dropWhile (· = '/')).filter fun s => !s.isEmpty).map String.ofList

/-- `cyfs_parse_url`. -/
def cyfsParseUrl (web : WebCrates) (cyfsUrl : String) : NdnResult CyfsParsedUrl :=
  match web.urlParse cyfsUrl with
  | none => .error (.invalidId "parse cyfs url failed:")
  | some url =>
      let hostObjId := url.hostStr.bind fun h => (ObjId.fromHostname web.toCrates h).toOption
      let segments := splitInnerPath url.path.toList
      let rootLocator := String.ofList (segments.headD [])
      let urlObjId := hostObjId.orElse fun _ =>
        (ObjId.fromPath web.toCrates rootLocator).toOption
      .ok
        { host := url.hostStr
          urlObjId := urlObjId
          rootLocator := rootLocator
          innerPathSteps := innerPathSteps segments.tail
          query := url.query
          respRaw := (web.queryPairs (url.query.getD "")).any (· = ("resp", "raw")) }

/-- `CyfsParent`: a parent by its id, or with its whole text. -/
inductive CyfsParent where
  | objId (id : ObjId)
  | json (objStr : String)
  deriving DecidableEq, Repr

/-- `CYFSHttpRespHeaders`. -/
structure CyfsHttpRespHeaders where
  objId : Option ObjId
  chunkSize : Option UInt64
  pathObj : Option String
  parents : List CyfsParent
  innerProofs : List Json

/-- The default of `CYFSHttpRespHeaders`: no header. -/
def CyfsHttpRespHeaders.none : CyfsHttpRespHeaders :=
  ⟨Option.none, Option.none, Option.none, [], []⟩

/-- `CYFS_CASCADES_MAX_LEN`. -/
def cyfsCascadesMaxLen : Nat := 6

end NdnLib
end CyfsNdn

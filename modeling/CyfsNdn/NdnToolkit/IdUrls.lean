import CyfsNdn.NdnLib.SampleWeb
import CyfsNdn.NdnToolkit.NdnClient

/-!
# URLs that start with an identifier

The path of such a URL is the text of the identifier, and an inner path may follow.  The
client finds the identifier in the first segment, and the steps after it.
-/

namespace CyfsNdn
namespace NdnToolkit

open NdnLib

/-- An identifier whose type has letters only: its text can stand in a path. -/
def PlainType (id : ObjId) : Prop := id.objType.toList.all Char.isAlpha = true

instance (id : ObjId) : Decidable (PlainType id) :=
  inferInstanceAs (Decidable (id.objType.toList.all Char.isAlpha = true))

/-- The path of an identifier, with the steps of an inner path if there are some. -/
def idPath (crates : Crates) (id : ObjId) (inner : Option String) : String :=
  "/" ++ id.toString crates ++ inner.elim "" ("/@/" ++ ·)

/-- The parts of an inner path. -/
def innerSegments (inner : Option String) : List (List Char) :=
  inner.elim [] fun steps => splitInnerPath steps.toList

/-- A text before the first `/@/` is the root part. -/
theorem splitInnerPath_append {root : List Char} (hroot : '@' ∉ root) (inner : List Char) :
    splitInnerPath (root ++ '/' :: '@' :: '/' :: inner) = root :: splitInnerPath inner := by
  induction root with
  | nil => rfl
  | cons c rest ih =>
      rw [List.mem_cons, not_or] at hroot
      have hnext : ∀ more, c = '/' → rest ++ '/' :: '@' :: '/' :: inner ≠ '@' :: '/' :: more := by
        intro more _ hrest
        cases rest with
        | nil => simp at hrest
        | cons d rest =>
            simp only [List.cons_append, List.cons.injEq] at hrest
            exact hroot.2 (by simp [hrest.1])
      rw [List.cons_append, splitInnerPath.eq_3 _ _ hnext, ih hroot.2]
      rfl

theorem splitInnerPath_of_not_mem {root : List Char} (hroot : '@' ∉ root) :
    splitInnerPath root = [root] := by
  induction root with
  | nil => rfl
  | cons c rest ih =>
      rw [List.mem_cons, not_or] at hroot
      have hnext : ∀ more, c = '/' → rest ≠ '@' :: '/' :: more := by
        rintro more - rfl
        exact hroot.2 List.mem_cons_self
      rw [splitInnerPath.eq_3 _ _ hnext, ih hroot.2]
      rfl

section Text

variable {crates : Crates} (laws : crates.Lawful) {id : ObjId} (hplain : PlainType id)

include laws hplain

/-- The text of the identifier has letters, digits and the colon only. -/
theorem not_mem_toString {c : Char} (hletter : c.isAlpha = false) (hhex : c ∉ hexDigits)
    (hcolon : c ≠ ':') : c ∉ (id.toString crates).toList := by
  rw [ObjId.toList_toString, List.mem_append, List.mem_cons]
  rintro (hmem | rfl | hmem)
  · rw [List.all_eq_true.mp hplain c hmem] at hletter
    cases hletter
  · exact hcolon rfl
  · exact hhex (laws.mem_hexEncode _ c hmem)

theorem slash_not_mem_toString : '/' ∉ (id.toString crates).toList :=
  not_mem_toString laws hplain (by decide) (by decide) (by decide)

theorem new_toString_of_plain : ObjId.new crates (id.toString crates) = .ok id := by
  refine ObjId.new_toString_of_colon_not_mem laws fun hmem => ?_
  have hletter := List.all_eq_true.mp hplain ':' hmem
  revert hletter
  decide

/-- The path is cut after the identifier. -/
theorem splitInnerPath_idPath (inner : Option String) :
    splitInnerPath (idPath crates id inner).toList =
      ("/" ++ id.toString crates).toList :: innerSegments inner := by
  have hat : '@' ∉ ("/" ++ id.toString crates).toList := by
    rw [String.toList_append, List.mem_append, not_or]
    exact ⟨by decide, not_mem_toString laws hplain (by decide) (by decide) (by decide)⟩
  unfold idPath
  cases inner with
  | none =>
      rw [Option.elim_none, String.append_empty, splitInnerPath_of_not_mem hat]
      rfl
  | some steps =>
      have hsteps : ("/@/" ++ steps).toList = '/' :: '@' :: '/' :: steps.toList := by
        rw [String.toList_append]
        rfl
      rw [Option.elim_some, String.toList_append, hsteps, splitInnerPath_append hat]
      rfl

/-- The parts of the root are nothing and the identifier. -/
theorem splitText_root : splitText '/' ("/" ++ id.toString crates) = ["", id.toString crates] := by
  have hroot : ("/" ++ id.toString crates).toList = [] ++ '/' :: (id.toString crates).toList := by
    rw [String.toList_append]
    rfl
  unfold splitText
  rw [hroot, List.splitOn_append_cons_self_of_not_mem (by simp),
    List.splitOn_eq_singleton (slash_not_mem_toString laws hplain)]
  simp

/-- The first segment of the path is the identifier. -/
theorem pathSegments_idPath {parsed : Url} {inner : Option String}
    (hpath : parsed.path = idPath crates id inner) :
    ∃ more, pathSegments parsed = some (id.toString crates :: more) := by
  have hslash := slash_not_mem_toString laws hplain
  have hroot : parsed.path.toList =
      '/' :: ((id.toString crates).toList ++ (inner.elim "" ("/@/" ++ ·)).toList) := by
    rw [hpath, idPath, String.toList_append, String.toList_append]
    rfl
  have hsegments : pathSegments parsed = some ((((id.toString crates).toList ++
      (inner.elim "" ("/@/" ++ ·)).toList).splitOn '/').map String.ofList) := by
    unfold pathSegments
    rw [hroot]
    rfl
  rw [hsegments]
  cases inner with
  | none =>
      rw [Option.elim_none, String.toList_empty, List.append_nil,
        List.splitOn_eq_singleton hslash]
      exact ⟨[], by simp⟩
  | some steps =>
      have hsteps : ("/@/" ++ steps).toList = '/' :: ('@' :: '/' :: steps.toList) := by
        rw [String.toList_append]
        rfl
      rw [Option.elim_some, hsteps, List.splitOn_append_cons_self_of_not_mem hslash]
      exact ⟨_, by rw [List.map_cons, String.ofList_toList]⟩

theorem fromPath_root (hblank : (ObjId.new crates "").toOption = none) :
    ObjId.fromPath crates ("/" ++ id.toString crates) = .ok id := by
  unfold ObjId.fromPath
  rw [splitText_root laws hplain, List.findSome?_cons, hblank]
  dsimp only
  rw [List.findSome?_cons, new_toString_of_plain laws hplain]
  rfl

end Text

/-- What the client makes of such a URL. -/
def ResolvedUrl.ofId (web : WebCrates) (url : String) (parsed : Url) (id : ObjId)
    (inner : Option String) : ResolvedUrl where
  originalUrl := url
  transportUrl := url
  parsedFull := parsed
  parsed :=
    { host := parsed.hostStr
      urlObjId := some id
      rootLocator := "/" ++ id.toString web.toCrates
      innerPathSteps := innerPathSteps (innerSegments inner)
      query := parsed.query
      respRaw := (web.queryPairs (parsed.query.getD "")).any (· = ("resp", "raw")) }
  locator := some (.pathSegment 0)

/-- If the host is no identifier, the client finds the one in the path. -/
theorem ResolvedUrl.parse_of_idPath {web : WebCrates} (laws : web.toCrates.Lawful)
    {url : String} {parsed : Url} {id : ObjId} {inner : Option String} (hplain : PlainType id)
    (hurl : web.urlParse url = some parsed)
    (hpath : parsed.path = idPath web.toCrates id inner)
    (hhost : (parsed.hostStr.bind fun h => (ObjId.fromHostname web.toCrates h).toOption) = none)
    (hblank : (ObjId.new web.toCrates "").toOption = none) :
    ResolvedUrl.parse web url false = .ok (.ofId web url parsed id inner) := by
  obtain ⟨more, hsegments⟩ := pathSegments_idPath laws hplain hpath
  have hlocate : ResolvedUrl.locate web parsed id = some (.pathSegment 0) := by
    unfold ResolvedUrl.locate
    rw [hhost, if_neg (by simp), hsegments]
    simp [List.findIdx?_cons, new_toString_of_plain laws hplain, Except.toOption]
  unfold ResolvedUrl.parse cyfsParseUrl ResolvedUrl.ofId
  rw [hurl]
  dsimp only
  rw [hhost, hpath, splitInnerPath_idPath laws hplain]
  simp [fromPath_root laws hplain hblank, hlocate, Except.toOption]

/-! ## URLs of the sample mirror -/

theorem sampleWeb_urlParse (path : String) :
    sampleWeb.urlParse ("http://mirror" ++ path) = some ⟨some "mirror", path, none, "http://"⟩ := by
  show sampleUrlParse _ = _
  unfold sampleUrlParse
  rw [String.toList_append, if_pos (by simp), List.drop_left, String.ofList_toList]

/-- The path of an identifier and an inner path, put together from its texts. -/
theorem idPath_eq_of_texts {crates : Crates} {path root text rest steps : String} {id : ObjId}
    (htext : id.toString crates = text) (hroot : "/" ++ text = root)
    (hrest : "/@/" ++ steps = rest) (hpath : root ++ rest = path) :
    idPath crates id (some steps) = path := by
  subst htext hroot hrest hpath
  rfl

/-- What the sample client makes of a path of the mirror, given by its texts. -/
theorem mirrorUrl_parse_of_id {url path root text : String} {id : ObjId} {inner : Option String}
    (hplain : PlainType id) (htext : id.toString sampleWeb.toCrates = text)
    (hroot : "/" ++ text = root) (hpath : idPath sampleWeb.toCrates id inner = path)
    (hurl : "http://mirror" ++ path = url) :
    ResolvedUrl.parse sampleWeb url false = .ok
      { originalUrl := url
        transportUrl := url
        parsedFull := ⟨some "mirror", path, none, "http://"⟩
        parsed :=
          { host := some "mirror"
            urlObjId := some id
            rootLocator := root
            innerPathSteps := innerPathSteps (innerSegments inner)
            query := none
            respRaw := false }
        locator := some (.pathSegment 0) } := by
  have hhost : (ObjId.fromHostname sampleWeb.toCrates "mirror").toOption = none := by
    decide
  subst htext hroot hpath hurl
  exact ResolvedUrl.parse_of_idPath sampleWeb_lawful.crates hplain (sampleWeb_urlParse _) rfl hhost
    (by decide)

end NdnToolkit
end CyfsNdn

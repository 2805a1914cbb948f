import CyfsNdn.NamedStore.LayoutHistory
import CyfsNdn.NdnToolkit.DirServer
import CyfsNdn.NdnToolkit.InnerPathProof

/-!
# Inner paths on both sides

The directory server and the client read the same inner path with different code.  The
server decodes the fields, puts the object of an id in the place of the id where more
fields follow, and takes further segments of the root for a first step.  The client
follows the fields as they stand in the URL through the parents that the server sends,
and guesses the type of each.

So a walk of the server to an id is accepted by the client exactly if the undecoded
fields lead through these parents from one guessed id to the next.
-/

namespace CyfsNdn
namespace NdnToolkit

open NdnLib NamedStore Collections Exchange

/-- The fields of the steps as they stand in a URL. -/
def rawSteps (path : String) : List (List String) :=
  (splitInnerPath path.toList).tail.map fun step => stepFields (String.ofList step)

namespace NdnDirServer

variable (web : WebCrates)

/-- The store of the server holds a value under an id. -/
def Holds (server : NdnDirServer) (objId : ObjId) (v : Json) : Prop :=
  ∃ objStr, server.storeMgr.getObject web.toCrates objId = .ok objStr ∧
    web.jsonParse objStr = some v

/-- Fields lead from a value to another; where more fields follow, the object of an id
takes the place of the id. -/
inductive Follows (server : NdnDirServer) : Json → List String → Json → Prop where
  | nil (v : Json) : Follows server v [] v
  | last {v next : Json} {field : String} (hfield : v.field field = some next) :
      Follows server v [field] next
  | deref {v next object w : Json} {field more : String} {rest : List String} {objId : ObjId}
      (hfield : v.field field = some next)
      (hid : ObjId.fromValue web.toCrates next = .ok objId)
      (hobject : server.Holds web objId object)
      (hrest : Follows server object (more :: rest) w) :
      Follows server v (field :: more :: rest) w
  | inside {v next w : Json} {field more : String} {rest : List String}
      (hfield : v.field field = some next)
      (hid : ∀ objId, ObjId.fromValue web.toCrates next ≠ .ok objId)
      (hrest : Follows server next (more :: rest) w) :
      Follows server v (field :: more :: rest) w

/-- The steps lead from an object to an id through the objects of these parents, of
which the object itself is the first. -/
inductive Walks (server : NdnDirServer) : Json → List (List String) → List Json → ObjId →
    Prop where
  | last {v value : Json} {fields : List String} {target : ObjId}
      (hfollows : server.Follows web v fields value)
      (hid : ObjId.fromValue web.toCrates value = .ok target) :
      Walks server v [fields] [v] target
  | step {v value object : Json} {fields fields' : List String} {rest : List (List String)}
      {parents : List Json} {next target : ObjId}
      (hfollows : server.Follows web v fields value)
      (hid : ObjId.fromValue web.toCrates value = .ok next)
      (hobject : server.Holds web next object)
      (hrest : Walks server object (fields' :: rest) parents target) :
      Walks server v (fields :: fields' :: rest) (v :: parents) target

/-- Each object is stored under its own id, as JSON. -/
def StoredUnderOwnIds (server : NdnDirServer) : Prop :=
  ∀ objId v, server.Holds web objId v → v.Named web objId

end NdnDirServer

/-- Fields lead to the text of an id, without decoding and without a store. -/
def Reaches (web : WebCrates) (v : Json) (fields : List String) (objId : ObjId) : Prop :=
  ∃ text, v.descend fields = some (.string text) ∧ ObjId.new web.toCrates text = .ok objId

/-- The id that a step must lead to: of the next parent, or of the whole path. -/
def nextId (target : ObjId) : List (List String) → List (Json × ObjId) → ObjId
  | _ :: _, next :: _ => next.2
  | _, _ => target

/-- The steps lead through the parents, each to the guessed id of the next parent and
the last to the target. -/
def StepsRead (web : WebCrates) (target : ObjId) :
    List (List String) → List (Json × ObjId) → Prop
  | [], _ => True
  | _ :: _, [] => False
  | fields :: steps, parent :: parents =>
      Reaches web parent.1 fields (nextId target steps parents) ∧
        StepsRead web target steps parents

/-- What the client makes of a parent: the value of its canonical text and the id that
is guessed for it. -/
def SeenAs (web : WebCrates) (parent : Json) (seen : Json × ObjId) : Prop :=
  web.jsonParse (web.jcs parent) = some seen.1 ∧ recomputeParentObjId web seen.1 = .ok seen.2

/-- The id is read back from the header that it was written to. -/
def HeaderKeeps (web : WebCrates) (objId : ObjId) : Prop :=
  headerGet (arrived "cyfs-obj-id" (objId.toString web.toCrates)) "cyfs-obj-id"
    (ObjId.new web.toCrates) = .ok (some objId)

/-- The client reads a path as the server walked it: the fields of the URL lead through
the objects on the way of the server to its target, and the header keeps the id of the
target. -/
def ReadAlike (web : WebCrates) (server : NdnDirServer) (root : Json)
    (steps raw : List (List String)) (target : ObjId) : Prop :=
  ∃ parents seen, server.Walks web root steps parents target ∧
    List.Forall₂ (SeenAs web) parents seen ∧ StepsRead web target raw seen ∧
    HeaderKeeps web target

/-- The client, which receives this response to a request for the URL, checks the inner
path to the target and returns the stored object if the target is not a chunk. -/
def ClientFollows (web : WebCrates) (server : NdnDirServer) (client : CyfsNdnClient)
    (url : String) (response : DirResponse) (target : ObjId) : Prop :=
  ∃ got w, (CyfsNdnClient.get url).send web client
      (World.answering (response.received web.toCrates)) = .ok (got, w) ∧
    got.responseMeta.verifyInnerPathChain web = .ok (some target) ∧
    (target.isChunk = false → ∃ v stored, got.object web = .ok (target, v) ∧
      server.Holds web target stored ∧ v.Named web target ∧ web.jcs v = web.jcs stored)

section Server

variable {web : WebCrates} {server : NdnDirServer}

/-! ## The walk of the server -/

open NdnDirServer

theorem NdnDirServer.loadObject_eq_ok {objId : ObjId} {failed : String} {v : Json} :
    server.loadObject web objId failed = .ok v ↔ server.Holds web objId v := by
  unfold NdnDirServer.loadObject NdnDirServer.Holds
  constructor
  · intro h
    split at h
    · cases h
    next objStr hget =>
    split at h
    · cases h
    next objJson hparse =>
    obtain rfl := Except.ok.inj h
    exact ⟨objStr, hget, hparse⟩
  · rintro ⟨objStr, hget, hparse⟩
    rw [hget]
    dsimp only
    rw [hparse]

theorem NdnDirServer.walkField_eq_ok {v next : Json} {field : String} :
    walkField v field = .ok next ↔ v.field field = some next := by
  unfold walkField Json.field
  cases parseUsize field with
  | none =>
      dsimp only
      cases v.get field <;> simp
  | some idx =>
      dsimp only
      cases v.getIdx idx <;> simp

/-- The loop over the fields follows them. -/
theorem NdnDirServer.walkSegment_eq_ok {v w : Json} {fields : List String} :
    server.walkSegment web v fields = .ok w ↔ server.Follows web v fields w := by
  induction fields generalizing v with
  | nil =>
      constructor
      · intro h
        obtain rfl := Except.ok.inj h
        exact .nil v
      · rintro ⟨⟩
        rfl
  | cons field rest ih =>
      cases rest with
      | nil =>
          constructor
          · intro h
            exact .last (walkField_eq_ok.mp h)
          · rintro (_ | hfield)
            exact walkField_eq_ok.mpr hfield
      | cons more rest =>
          rw [walkSegment]
          constructor
          · intro h
            split at h
            · cases h
            next next hnext =>
            have hfield := walkField_eq_ok.mp hnext
            split at h
            · next objId hid =>
              split at h
              · cases h
              next object hobject =>
              exact .deref hfield hid (loadObject_eq_ok.mp hobject) (ih.mp h)
            · next e hid =>
              refine .inside hfield (fun objId hok => ?_) (ih.mp h)
              rw [hid] at hok
              cases hok
          · intro h
            cases h with
            | deref hfield hid hobject hrest =>
                rw [walkField_eq_ok.mpr hfield]
                dsimp only
                rw [hid]
                dsimp only
                rw [loadObject_eq_ok.mpr hobject]
                exact ih.mpr hrest
            | inside hfield hid hrest =>
                rw [walkField_eq_ok.mpr hfield]
                dsimp only
                split
                · next objId hok => exact absurd hok (hid objId)
                · exact ih.mpr hrest

/-- The loop over the steps that ends at an id walks to it, and gives the canonical
texts of the objects on the way. -/
theorem NdnDirServer.walkSteps_to_id {i : Nat} {v : Json} {fields : List String}
    {rest : List (List String)} {texts : List String} {target : ObjId} :
    (∃ value, server.walkSteps web i v fields rest = .ok (value, texts) ∧
      ObjId.fromValue web.toCrates value = .ok target) ↔
    ∃ parents, server.Walks web v (fields :: rest) (v :: parents) target ∧
      texts = parents.map web.jcs := by
  induction rest generalizing i v fields texts with
  | nil =>
      constructor
      · rintro ⟨value, hwalk, hid⟩
        unfold walkSteps at hwalk
        cases hsegment : server.walkSegment web v fields with
        | error e =>
            rw [hsegment] at hwalk
            cases hwalk
        | ok w =>
            rw [hsegment] at hwalk
            obtain ⟨rfl, rfl⟩ := Prod.mk.inj (Except.ok.inj hwalk)
            exact ⟨[], .last (walkSegment_eq_ok.mp hsegment) hid, rfl⟩
      · rintro ⟨parents, hwalks, rfl⟩
        cases hwalks with
        | last hfollows hid =>
            refine ⟨_, ?_, hid⟩
            unfold walkSteps
            rw [walkSegment_eq_ok.mpr hfollows]
            rfl
  | cons fields' rest ih =>
      constructor
      · rintro ⟨value, hwalk, hid⟩
        rw [walkSteps] at hwalk
        split at hwalk
        · cases hwalk
        next result hsegment =>
        split at hwalk
        · cases hwalk
        next next hnext =>
        split at hwalk
        · cases hwalk
        next object hobject =>
        cases hrest : server.walkSteps web (i + 1) object fields' rest with
        | error e =>
            rw [hrest] at hwalk
            cases hwalk
        | ok walked =>
            rw [hrest] at hwalk
            obtain ⟨rfl, rfl⟩ := Prod.mk.inj (Except.ok.inj hwalk)
            obtain ⟨parents, hwalks, htexts⟩ := ih.mp ⟨walked.1, hrest, hid⟩
            refine ⟨object :: parents, .step (walkSegment_eq_ok.mp hsegment) hnext
              (loadObject_eq_ok.mp hobject) hwalks, ?_⟩
            rw [List.map_cons, ← htexts]
            rfl
      · rintro ⟨parents, hwalks, rfl⟩
        cases hwalks with
        | step hfollows hnext hobject hrest =>
            next object next =>
            obtain ⟨parents', rfl⟩ : ∃ parents', parents = object :: parents' := by
              cases hrest <;> exact ⟨_, rfl⟩
            obtain ⟨value, hwalk, hid⟩ := ih.mpr ⟨parents', hrest, rfl⟩
            refine ⟨value, ?_, hid⟩
            rw [walkSteps, walkSegment_eq_ok.mpr hfollows]
            dsimp only
            rw [hnext]
            dsimp only
            rw [loadObject_eq_ok.mpr hobject]
            dsimp only
            rw [hwalk]
            rfl

/-! ## The answer of the server -/

/-- The server gives an answer that names an object: the id that its walk ended at, the
canonical texts of the objects on the way, and in the body the object. -/
structure WalkAnswer (web : WebCrates) (server : NdnDirServer) (root : Json)
    (steps : List (List String)) (response : DirResponse) (target : ObjId) : Prop where
  walks : ∃ parents, server.Walks web root steps parents target ∧
    response.headers.parents = parents.map fun parent => .json (web.jcs parent)
  objId : response.headers.objId = some target
  pathObj : response.headers.pathObj = none
  status : 200 ≤ response.status ∧ response.status < 300
  body : target.isChunk = false →
    ∃ v, server.Holds web target v ∧ response.body = utf8Bytes (web.jcs v)

/-- An answer that was sent had headers that could be written. -/
theorem answer_of_applyCyfsHeaders {crates : Crates} {headers : CyfsHttpRespHeaders}
    {answer response : DirResponse}
    (h : (applyCyfsHeaders crates headers).map (fun _ => answer) = .ok response) :
    answer = response := by
  cases happly : applyCyfsHeaders crates headers with
  | error e =>
      rw [happly] at h
      cases h
  | ok u =>
      rw [happly] at h
      exact Except.ok.inj h

/-- A chunk is streamed with the headers that were given. -/
theorem NdnDirServer.buildChunkResponse_eq_ok {request : DirRequest} {chunkId : ChunkId}
    {headers : CyfsHttpRespHeaders} {response : DirResponse}
    (h : server.buildChunkResponse web request chunkId (some headers) = .ok response) :
    response.headers.objId = headers.objId ∧ response.headers.pathObj = headers.pathObj ∧
      response.headers.parents = headers.parents ∧
      200 ≤ response.status ∧ response.status < 300 := by
  unfold buildChunkResponse at h
  dsimp only at h
  split at h
  · cases h
  next reader totalSize hopen =>
  unfold finalizeStreamResponse at h
  by_cases hlarge : totalSize < (parseRangeOffset request.range).getD 0
  · rw [if_pos hlarge] at h
    cases h
  rw [if_neg hlarge] at h
  have hanswer := answer_of_applyCyfsHeaders h
  rw [← hanswer]
  refine ⟨rfl, rfl, rfl, ?_⟩
  by_cases hoffset : (parseRangeOffset request.range).getD 0 = 0 <;> simp [hoffset]

/-- The end of the path decides what is sent. -/
theorem NdnDirServer.serveInnerPathFinal_eq_ok {request : DirRequest} {respRaw : Bool}
    {value : Json} {parents : List String} {response : DirResponse} {target : ObjId}
    (hmethod : request.method = .get)
    (h : server.serveInnerPathFinal web request respRaw value parents none = .ok response)
    (htarget : response.headers.objId = some target) :
    ObjId.fromValue web.toCrates value = .ok target ∧
      response.headers.parents = parents.map .json ∧ response.headers.pathObj = none ∧
      (200 ≤ response.status ∧ response.status < 300) ∧
      (target.isChunk = false →
        ∃ v, server.Holds web target v ∧ response.body = utf8Bytes (web.jcs v)) := by
  unfold serveInnerPathFinal at h
  dsimp only at h
  split at h
  · next objId hid =>
    split_ifs at h with hraw hchunk
    · -- A raw answer names no object.
      obtain rfl := Except.ok.inj h
      cases htarget
    · obtain ⟨hobjId, hpath, hparents, hstatus⟩ := buildChunkResponse_eq_ok h
      rw [hobjId, ChunkId.toObjId_fromObjId] at htarget
      obtain rfl := Option.some.inj htarget
      exact ⟨hid, hparents, hpath, hstatus, fun hnot => absurd hchunk (by simp [hnot])⟩
    · split at h
      · cases h
      next object hobject =>
      unfold buildBodyResponse at h
      have hanswer := answer_of_applyCyfsHeaders h
      rw [hmethod] at hanswer
      subst hanswer
      obtain rfl := Option.some.inj htarget
      exact ⟨hid, rfl, rfl, by norm_num, fun _ => ⟨object, loadObject_eq_ok.mp hobject, rfl⟩⟩
  · split_ifs at h
    · obtain rfl := Except.ok.inj h
      cases htarget
    · unfold buildBodyResponse at h
      have hanswer := answer_of_applyCyfsHeaders h
      subst hanswer
      cases htarget

/-- An answer that names an object comes from a walk through the store. -/
theorem NdnDirServer.routeRequest_eq_ok {request : DirRequest} {rootId target : ObjId}
    {steps : List (List String)} {response : DirResponse} (hmethod : request.method = .get)
    (hnoPrefix : server.urlPrefix = "") (hhost : server.hostObjId web request = none)
    (hroot : rootObjId web request.path = some (rootId, steps)) (hsteps : steps ≠ [])
    (h : server.routeRequest web request = .ok response)
    (htarget : response.headers.objId = some target) :
    ∃ root, server.Holds web rootId root ∧
      WalkAnswer web server root steps response target := by
  have hstrip : server.stripUrlPrefix request.path = request.path := by
    unfold stripUrlPrefix
    rw [hnoPrefix]
    rfl
  unfold routeRequest at h
  rw [hmethod] at h
  dsimp only at h
  rw [hhost] at h
  dsimp only at h
  rw [hstrip, hroot] at h
  dsimp only at h
  split at h
  · cases h
  next rootState hload =>
  obtain ⟨fields, rest, rfl⟩ := List.exists_cons_of_ne_nil hsteps
  unfold loadRootFromStore at hload
  split_ifs at hload with hchunk
  · obtain rfl := Except.ok.inj hload
    cases h
  · split at hload
    · cases hload
    next root hobject =>
    obtain rfl := Except.ok.inj hload
    unfold serveResolved at h
    dsimp only at h
    split at h
    · cases h
    next value texts hwalk =>
    obtain ⟨hid, hparents, hpath, hstatus, hbody⟩ :=
      serveInnerPathFinal_eq_ok hmethod h htarget
    obtain ⟨parents, hwalks, htexts⟩ := walkSteps_to_id.mp ⟨value, hwalk, hid⟩
    refine ⟨root, loadObject_eq_ok.mp hobject, ⟨⟨root :: parents, hwalks, ?_⟩, htarget, hpath,
      hstatus, hbody⟩⟩
    rw [hparents, htexts, List.map_cons, List.map_cons, List.map_map]
    rfl

/-- A walk of the server to an object that is no chunk is answered with the object. -/
theorem NdnDirServer.routeRequest_of_walks {request : DirRequest} {rootId target : ObjId}
    {fields : List String} {rest : List (List String)} {root v : Json} {parents : List Json}
    (hmethod : request.method = .get) (hraw : queryHasRespRaw request.query = false)
    (hnoPrefix : server.urlPrefix = "")
    (hhost : server.hostObjId web request = none)
    (hroot : rootObjId web request.path = some (rootId, fields :: rest))
    (hchunk : rootId.isChunk = false) (hholds : server.Holds web rootId root)
    (hwalks : server.Walks web root (fields :: rest) (root :: parents) target)
    (htarget : target.isChunk = false) (hv : server.Holds web target v)
    (hsendable : (headerValueFromStr (target.toString web.toCrates)).isSome) :
    server.routeRequest web request = .ok
      { status := 200
        headers :=
          { CyfsHttpRespHeaders.none with
            objId := some target
            parents := (root :: parents).map fun parent => .json (web.jcs parent) }
        contentLength := (utf8Bytes (web.jcs v)).length
        body := utf8Bytes (web.jcs v) } := by
  have hstrip : server.stripUrlPrefix request.path = request.path := by
    unfold stripUrlPrefix
    rw [hnoPrefix]
    rfl
  have hload : ∀ failed, server.loadObject web rootId failed = .ok root :=
    fun failed => loadObject_eq_ok.mpr hholds
  have hloadTarget : ∀ failed, server.loadObject web target failed = .ok v :=
    fun failed => loadObject_eq_ok.mpr hv
  obtain ⟨value, hwalk, hid⟩ := walkSteps_to_id (i := 0).mpr ⟨parents, hwalks, rfl⟩
  obtain ⟨bytes, hbytes⟩ := Option.isSome_iff_exists.mp hsendable
  unfold routeRequest loadRootFromStore serveResolved
  rw [hmethod]
  dsimp only
  rw [hhost]
  dsimp only
  rw [hstrip, hroot]
  dsimp only
  rw [hchunk, hload, hraw, if_neg (by simp)]
  dsimp only
  rw [hwalk]
  dsimp only
  unfold serveInnerPathFinal buildBodyResponse applyCyfsHeaders
  rw [hid]
  dsimp only
  rw [htarget, hloadTarget]
  simp only [Option.map_some, insertSome, insertHeader, hbytes]
  rw [hmethod, List.map_cons, List.map_cons, List.map_map]
  rfl

/-- Fields lead to one value. -/
theorem NdnDirServer.Follows.eq {v w w' : Json} {fields : List String}
    (h : server.Follows web v fields w) (h' : server.Follows web v fields w') : w = w' := by
  rw [← walkSegment_eq_ok] at h h'
  exact Except.ok.inj (h.symm.trans h')

/-- The store holds one value under an id. -/
theorem NdnDirServer.Holds.eq {objId : ObjId} {v v' : Json} (h : server.Holds web objId v)
    (h' : server.Holds web objId v') : v = v' := by
  obtain ⟨objStr, hget, hparse⟩ := h
  obtain ⟨objStr', hget', hparse'⟩ := h'
  obtain rfl := Except.ok.inj (hget.symm.trans hget')
  exact Option.some.inj (hparse.symm.trans hparse')

/-- The objects on the way of a walk are determined. -/
theorem NdnDirServer.Walks.parents_eq {v : Json} {steps : List (List String)}
    {parents parents' : List Json} {target target' : ObjId}
    (h : server.Walks web v steps parents target)
    (h' : server.Walks web v steps parents' target') : parents = parents' := by
  induction h generalizing parents' with
  | last hfollows hid =>
      cases h'
      rfl
  | step hfollows hid hobject hrest ih =>
      cases h' with
      | step hfollows' hid' hobject' hrest' =>
          obtain rfl := hfollows.eq hfollows'
          obtain rfl := Except.ok.inj (hid.symm.trans hid')
          obtain rfl := hobject.eq hobject'
          rw [ih hrest']

end Server

section Client

variable {web : WebCrates}

/-! ## The paths in the URL -/

/-- Slashes in front make no fields. -/
theorem stepFields_dropWhile (step : List Char) :
    stepFields (String.ofList (step.dropWhile (· = '/'))) = stepFields (String.ofList step) := by
  induction step with
  | nil => rfl
  | cons c rest ih =>
      by_cases hc : c = '/'
      · subst hc
        rw [List.dropWhile_cons_of_pos (by simp), ih]
        unfold stepFields splitText
        rw [String.toList_ofList, String.toList_ofList, List.splitOn_cons_eq_if_modifyHead,
          if_pos (by simp)]
        rw [List.map_cons, List.filter_cons_of_neg (by simp)]
      · rw [List.dropWhile_cons_of_neg (by simpa using hc)]

/-- The client keeps the fields of every step, if each step has one. -/
theorem map_stepFields_innerPathSteps {segments : List (List Char)}
    (h : ∀ step ∈ segments, stepFields (String.ofList step) ≠ []) :
    (innerPathSteps segments).map stepFields =
      segments.map fun step => stepFields (String.ofList step) := by
  unfold innerPathSteps
  induction segments with
  | nil => rfl
  | cons step rest ih =>
      have hnotEmpty : step.dropWhile (· = '/') ≠ [] := by
        intro hempty
        refine h step List.mem_cons_self ?_
        rw [← stepFields_dropWhile, hempty]
        rfl
      have hrest := ih fun other hother => h other (List.mem_cons_of_mem _ hother)
      rw [List.map_cons, List.filter_cons_of_pos (by simpa using hnotEmpty), List.map_cons,
        List.map_cons, stepFields_dropWhile, hrest, List.map_cons]

/-! ## The check of the client -/

theorem reaches_iff {v : Json} {step : String} {objId : ObjId} :
    (∃ resolved, resolveInnerPathStep v step = .ok resolved ∧
      ObjId.fromValue web.toCrates resolved = .ok objId) ↔
    Reaches web v (stepFields step) objId := by
  unfold resolveInnerPathStep Reaches
  constructor
  · rintro ⟨resolved, hresolved, hid⟩
    obtain ⟨text, rfl, htext⟩ := ObjId.asStr_of_fromValue hid
    exact ⟨text, resolveFields_eq_ok.mp hresolved, htext⟩
  · rintro ⟨text, hdescend, htext⟩
    exact ⟨.string text, resolveFields_eq_ok.mpr hdescend, htext⟩

/-- A parent as it was seen. -/
def SeenParent (parent : ResolvedParent) (seen : Json × ObjId) : Prop :=
  parent.objId = seen.2 ∧ parent.objJson = some seen.1

/-- The loop accepts the steps exactly if they lead through the parents. -/
theorem CyfsResponseMeta.verifySteps_eq_ok {headerId : ObjId} {steps : List String}
    {stepIdx : Nat} {parents : List ResolvedParent} {seen : List (Json × ObjId)}
    {last result : Option ObjId} (hseen : List.Forall₂ SeenParent parents seen)
    (hsteps : steps ≠ []) (hlen : steps.length ≤ parents.length) :
    verifySteps web (some headerId) stepIdx steps parents last = .ok result ↔
      result = some headerId ∧ StepsRead web headerId (steps.map stepFields) seen := by
  induction steps generalizing stepIdx parents seen last with
  | nil => exact absurd rfl hsteps
  | cons step steps ih =>
      cases hseen with
      | nil => simp at hlen
      | cons hfirst hrest =>
          next first firstSeen parents seen =>
          have hone : ∀ resolved, ObjId.fromValue web.toCrates resolved = .ok
                (nextId headerId (steps.map stepFields) seen) →
              resolveInnerPathStep firstSeen.1 step = .ok resolved →
              Reaches web firstSeen.1 (stepFields step)
                (nextId headerId (steps.map stepFields) seen) :=
            fun resolved hid hresolved => reaches_iff.mp ⟨resolved, hresolved, hid⟩
          rw [verifySteps, hfirst.2]
          dsimp only
          rw [List.map_cons, StepsRead]
          constructor
          · intro h
            split at h
            · cases h
            next resolved hresolved =>
            cases steps with
            | nil =>
                simp only at h
                split at h
                · cases h
                next resolvedObjId hid =>
                split_ifs at h with hne
                rw [not_not.mp hne] at hid
                refine ⟨?_, hone resolved hid hresolved, trivial⟩
                rw [verifySteps] at h
                rw [← Except.ok.inj h, not_not.mp hne]
            | cons nextStep steps =>
                cases hrest with
                | nil => simp at hlen
                | cons hnext hrest =>
                    simp only at h
                    split at h
                    · cases h
                    next resolvedObjId hid =>
                    split_ifs at h with hne
                    rw [not_not.mp hne, hnext.1] at hid
                    obtain ⟨hresult, hread⟩ := (ih (.cons hnext hrest) (by simp)
                      (by simpa using hlen)).mp h
                    exact ⟨hresult, hone resolved hid hresolved, hread⟩
          · rintro ⟨hresult, hreaches, hread⟩
            obtain ⟨resolved, hresolved, hid⟩ := reaches_iff.mpr hreaches
            rw [hresolved]
            dsimp only
            cases steps with
            | nil =>
                change ObjId.fromValue web.toCrates resolved = .ok headerId at hid
                simp only [hid]
                rw [if_neg (by simp), verifySteps, hresult]
            | cons nextStep steps =>
                cases hrest with
                | nil => simp at hlen
                | cons hnext hrest =>
                    simp only [List.map_cons, nextId] at hid
                    simp only [hid]
                    rw [hnext.1, if_neg (by simp)]
                    exact (ih (.cons hnext hrest) (by simp) (by simpa using hlen)).mpr
                      ⟨hresult, hread⟩

/-- Steps are only read through as many parents. -/
theorem length_le_of_stepsRead {target : ObjId} {steps : List (List String)}
    {seen : List (Json × ObjId)} (h : StepsRead web target steps seen) :
    steps.length ≤ seen.length := by
  induction steps generalizing seen with
  | nil => simp
  | cons fields steps ih =>
      cases seen with
      | nil => exact h.elim
      | cons first rest => simpa using ih h.2

/-- Without a path object the chain is checked by the loop alone. -/
theorem CyfsResponseMeta.verifyInnerPathChain_eq_ok {responseMeta : CyfsResponseMeta}
    {headerId target : ObjId} {seen : List (Json × ObjId)}
    (hpath : responseMeta.pathObject = none)
    (hheader : responseMeta.cyfsHeaders.objId = some headerId)
    (hsteps : responseMeta.urlInnerPathSteps ≠ [])
    (hseen : List.Forall₂ SeenParent responseMeta.parents seen) :
    responseMeta.verifyInnerPathChain web = .ok (some target) ↔
      headerId = target ∧
        StepsRead web target (responseMeta.urlInnerPathSteps.map stepFields) seen := by
  unfold verifyInnerPathChain
  rw [hpath, hheader]
  by_cases hparents : responseMeta.parents = []
  · rw [if_pos (by simp [hparents])]
    rw [hparents] at hseen
    cases hseen
    constructor
    · intro h
      cases h
    · rintro ⟨-, hread⟩
      obtain ⟨step, rest, hcons⟩ := List.exists_cons_of_ne_nil hsteps
      rw [hcons] at hread
      exact hread.elim
  rw [if_neg (by simp [hsteps, hparents])]
  by_cases hlen : responseMeta.parents.length < responseMeta.urlInnerPathSteps.length
  · rw [if_pos hlen]
    constructor
    · intro h
      cases h
    · rintro ⟨-, hread⟩
      have hle := length_le_of_stepsRead hread
      rw [List.length_map, ← hseen.length_eq] at hle
      omega
  rw [if_neg hlen]
  dsimp only
  rw [verifySteps_eq_ok hseen hsteps (by omega)]
  constructor
  · rintro ⟨hresult, hread⟩
    obtain rfl := Option.some.inj hresult
    exact ⟨rfl, hread⟩
  · rintro ⟨rfl, hread⟩
    exact ⟨rfl, hread⟩

/-- The client reads the parents that the server writes. -/
theorem seen_of_mapM_fromHeader {parents : List Json} {resolved : List ResolvedParent}
    (h : (parents.map fun parent => CyfsParent.json (web.jcs parent)).mapM
      (ResolvedParent.fromHeader web) = .ok resolved) :
    ∃ seen, List.Forall₂ (SeenAs web) parents seen ∧
      List.Forall₂ SeenParent resolved seen := by
  induction parents generalizing resolved with
  | nil =>
      simp only [List.map_nil, List.mapM_nil, except_pure_eq_ok] at h
      subst h
      exact ⟨[], .nil, .nil⟩
  | cons parent rest ih =>
      simp only [List.map_cons, List.mapM_cons, except_bind_eq_ok,
        except_pure_eq_ok] at h
      obtain ⟨first, hfirst, others, hothers, rfl⟩ := h
      obtain ⟨seen, hseen, hresolved⟩ := ih hothers
      unfold ResolvedParent.fromHeader at hfirst
      dsimp only at hfirst
      split at hfirst
      · cases hfirst
      next v hv =>
      split at hfirst
      · cases hfirst
      next objId hid =>
      obtain rfl := Except.ok.inj hfirst
      exact ⟨(v, objId) :: seen, .cons ⟨hv, hid⟩ hseen, .cons ⟨rfl, rfl⟩ hresolved⟩

theorem mapM_fromHeader_of_seen {parents : List Json} {seen : List (Json × ObjId)}
    (h : List.Forall₂ (SeenAs web) parents seen) :
    ∃ resolved, (parents.map fun parent => CyfsParent.json (web.jcs parent)).mapM
        (ResolvedParent.fromHeader web) = .ok resolved ∧
      List.Forall₂ SeenParent resolved seen := by
  induction h with
  | nil => exact ⟨[], rfl, .nil⟩
  | cons hfirst hrest ih =>
      next parent firstSeen parents seen =>
      obtain ⟨resolved, hmapM, hseen⟩ := ih
      refine ⟨⟨firstSeen.2, some (web.jcs parent), some firstSeen.1⟩ :: resolved, ?_,
        .cons ⟨rfl, rfl⟩ hseen⟩
      simp only [List.map_cons, List.mapM_cons, except_bind_eq_ok, except_pure_eq_ok]
      refine ⟨_, ?_, resolved, hmapM, rfl⟩
      unfold ResolvedParent.fromHeader
      dsimp only
      rw [hfirst.1]
      dsimp only
      rw [hfirst.2]

/-- A header that arrived is read as a value. -/
theorem exists_of_headerGet_arrived {α : Type} {name value : String}
    {read : String → NdnResult α} {result : Option α}
    (h : headerGet (arrived name value) name read = .ok result) : ∃ a, result = some a := by
  have hfound : (arrived name value).lookup name = some (utf8Bytes (trimHeader value)) := by
    simp [arrived]
  unfold headerGet headerGetStr at h
  rw [hfound] at h
  dsimp only at h
  cases htext : headerValueToStr (utf8Bytes (trimHeader value)) with
  | none =>
      rw [htext] at h
      cases h
  | some text =>
      rw [htext] at h
      dsimp only at h
      cases hread : read text with
      | error e =>
          rw [hread] at h
          cases h
      | ok a =>
          rw [hread] at h
          exact ⟨a, (Except.ok.inj h).symm⟩

/-- The client reads an id that the header keeps. -/
theorem receivedHeaders_eq_ok {headers read : CyfsHttpRespHeaders} {objId : ObjId}
    (hobjId : headers.objId = some objId) (hpathObj : headers.pathObj = none) :
    receivedHeaders web.toCrates headers = .ok read ↔
      ∃ received, headerGet (arrived "cyfs-obj-id" (objId.toString web.toCrates)) "cyfs-obj-id"
          (ObjId.new web.toCrates) = .ok (some received) ∧
        read = { headers with objId := some received } := by
  unfold receivedHeaders
  simp only [hobjId, hpathObj, except_bind_eq_ok, except_pure_eq_ok]
  constructor
  · rintro ⟨result, hresult, pathObj, hnoPath, rfl⟩
    obtain rfl := Except.ok.inj hnoPath
    obtain ⟨received, rfl⟩ := exists_of_headerGet_arrived hresult
    exact ⟨received, hresult, by rw [← hpathObj]⟩
  · rintro ⟨received, hreceived, rfl⟩
    exact ⟨some received, hreceived, none, rfl, by rw [← hpathObj]⟩

/-- What the client makes of a URL that does not ask for a raw response. -/
theorem ResolvedUrl.parse_of_not_raw {url : String} {parsed : Url}
    (hurl : web.urlParse url = some parsed)
    (hraw : (web.queryPairs (parsed.query.getD "")).any (· = ("resp", "raw")) = false) :
    ∃ resolvedUrl, ResolvedUrl.parse web url false = .ok resolvedUrl ∧
      resolvedUrl.parsed.innerPathSteps =
        innerPathSteps (splitInnerPath parsed.path.toList).tail ∧
      resolvedUrl.parsed.respRaw = false := by
  unfold ResolvedUrl.parse cyfsParseUrl
  rw [hurl]
  dsimp only
  refine ⟨_, rfl, rfl, ?_⟩
  simpa using hraw

end Client

/-! ## Both sides -/

section BothSides

variable {web : WebCrates} {server : NdnDirServer} {client : CyfsNdnClient}

/-- The canonical text of a stored object is read as this object again. -/
theorem NdnDirServer.StoredUnderOwnIds.reread {objId : ObjId} {v : Json}
    (hstored : server.StoredUnderOwnIds web) (hcanonical : web.CanonicalText)
    (h : server.Holds web objId v) :
    ∃ w, web.jsonParse (web.jcs v) = some w ∧ w.Named web objId ∧ web.jcs w = web.jcs v := by
  have hnamed := hstored objId v h
  obtain ⟨objStr, -, hparse⟩ := h
  obtain ⟨w, hread, hjcs, hstrings⟩ := hcanonical objStr v hparse
  refine ⟨w, hread, ?_, hjcs⟩
  unfold Json.Named at hnamed ⊢
  by_cases htype : objId.objType = "clist"
  · rw [if_pos htype] at hnamed ⊢
    obtain ⟨list, hlist, hid⟩ := hnamed
    refine ⟨list, ?_, hid⟩
    unfold ChunkList.fromJsonValue at hlist ⊢
    rw [hstrings]
    exact hlist
  · rw [if_neg htype] at hnamed ⊢
    unfold buildNamedObjectByJson at hnamed ⊢
    rw [hjcs]
    exact hnamed

/-- What the client makes of an answer whose parents it can read. -/
theorem WalkAnswer.fromResponse_of_seen {root : Json} {steps : List (List String)}
    {response : DirResponse} {target : ObjId} {parents : List Json}
    {seen : List (Json × ObjId)} (hanswer : WalkAnswer web server root steps response target)
    (resolvedUrl : ResolvedUrl) (hnotRaw : resolvedUrl.parsed.respRaw = false)
    (pathVerifier : PathObjectVerifier)
    (hparents : response.headers.parents = parents.map fun parent => .json (web.jcs parent))
    (hseen : List.Forall₂ (SeenAs web) parents seen) (hkeeps : HeaderKeeps web target) :
    ∃ responseMeta, CyfsResponseMeta.fromResponse web resolvedUrl none
        (false || resolvedUrl.parsed.respRaw) (response.received web.toCrates).headers
        (response.received web.toCrates).contentLength pathVerifier = .ok responseMeta ∧
      responseMeta.knownObjId = none ∧ responseMeta.respRaw = false ∧
      responseMeta.pathObject = none ∧ responseMeta.cyfsHeaders.objId = some target ∧
      responseMeta.urlInnerPathSteps = resolvedUrl.parsed.innerPathSteps ∧
      List.Forall₂ SeenParent responseMeta.parents seen := by
  obtain ⟨resolved, hmapM, hresolved⟩ := mapM_fromHeader_of_seen hseen
  have hread : receivedHeaders web.toCrates response.headers =
      .ok { response.headers with objId := some target } :=
    (receivedHeaders_eq_ok hanswer.objId hanswer.pathObj).mpr ⟨target, hkeeps, rfl⟩
  unfold CyfsResponseMeta.fromResponse
  simp only [except_bind_eq_ok, except_pure_eq_ok]
  refine ⟨_, ⟨_, hread, none, ?_, resolved, ?_, rfl⟩, rfl, ?_, rfl, rfl, rfl, hresolved⟩
  · unfold CyfsResponseMeta.verifyPathObject
    rw [hanswer.pathObj]
  · rw [hparents]
    exact hmapM
  · rw [hnotRaw]
    rfl

/-- The client follows an answer of the server exactly if it reads the path alike. -/
theorem WalkAnswer.clientFollows_iff (laws : web.Lawful) (hcanonical : web.CanonicalText)
    (hstored : server.StoredUnderOwnIds web) {url : String} {parsed : Url}
    (hurl : web.urlParse url = some parsed)
    (hraw : (web.queryPairs (parsed.query.getD "")).any (· = ("resp", "raw")) = false)
    (hsteps : rawSteps parsed.path ≠ []) (hfields : ∀ fields ∈ rawSteps parsed.path, fields ≠ [])
    {root : Json} {steps : List (List String)} {response : DirResponse} {target : ObjId}
    (hanswer : WalkAnswer web server root steps response target) :
    ClientFollows web server client url response target ↔
      ReadAlike web server root steps (rawSteps parsed.path) target := by
  obtain ⟨resolvedUrl, hparse, hinner, hnotRaw⟩ := ResolvedUrl.parse_of_not_raw hurl hraw
  obtain ⟨parents, hwalks, hparents⟩ := hanswer.walks
  have hrawSteps : resolvedUrl.parsed.innerPathSteps.map stepFields = rawSteps parsed.path := by
    rw [hinner]
    refine map_stepFields_innerPathSteps fun step hstep => hfields _ ?_
    exact List.mem_map_of_mem hstep
  have hinnerSteps : resolvedUrl.parsed.innerPathSteps ≠ [] := by
    intro hempty
    rw [hempty] at hrawSteps
    exact hsteps hrawSteps.symm
  constructor
  · rintro ⟨got, w, hsend, hverify, -⟩
    obtain ⟨resolvedUrl', answer, rest, hparse', -, hanswers, -, -, -, hmeta⟩ :=
      CyfsNdnRequestBuilder.send_eq_ok hsend
    have hsame : resolvedUrl = resolvedUrl' := Except.ok.inj (hparse.symm.trans hparse')
    subst hsame
    have hreceived : response.received web.toCrates = answer :=
      Except.ok.inj (List.cons.inj hanswers).1
    subst hreceived
    obtain ⟨-, -, hmetaSteps, -, read, hread, hobjId, hpath, hmetaParents⟩ :=
      CyfsResponseMeta.fromResponse_eq_ok hmeta
    change receivedHeaders web.toCrates response.headers = .ok read at hread
    obtain ⟨received, hkept, hreadEq⟩ :=
      (receivedHeaders_eq_ok hanswer.objId hanswer.pathObj).mp hread
    have hnoPath : got.responseMeta.pathObject = none := by
      unfold CyfsResponseMeta.verifyPathObject at hpath
      rw [hreadEq, hanswer.pathObj] at hpath
      exact (Except.ok.inj hpath).symm
    rw [hreadEq, hparents] at hmetaParents
    rw [hreadEq] at hobjId
    obtain ⟨seen, hseen, hresolved⟩ := seen_of_mapM_fromHeader hmetaParents
    rw [CyfsResponseMeta.verifyInnerPathChain_eq_ok hnoPath hobjId
      (by rw [hmetaSteps]; exact hinnerSteps) hresolved, hmetaSteps, hrawSteps] at hverify
    obtain ⟨rfl, hreads⟩ := hverify
    exact ⟨parents, seen, hwalks, hseen, hreads, hkept⟩
  · rintro ⟨parents', seen, hwalks', hseen, hreads, hkept⟩
    have hsame : parents' = parents := hwalks'.parents_eq hwalks
    subst hsame
    obtain ⟨responseMeta, hmeta, hknown, hmetaRaw, hpath, hheader, hmetaSteps, hresolved⟩ :=
      hanswer.fromResponse_of_seen resolvedUrl hnotRaw client.pathVerifier hparents hseen
        hkept
    have hsend : (CyfsNdnClient.get url).send web client
        (World.answering (response.received web.toCrates)) = .ok (_, _) :=
      CyfsNdnRequestBuilder.send_of_fromResponse hparse (Nat.zero_le _) rfl hanswer.status hmeta
    have hchain : responseMeta.verifyInnerPathChain web = .ok (some target) := by
      rw [CyfsResponseMeta.verifyInnerPathChain_eq_ok hpath hheader
        (by rw [hmetaSteps]; exact hinnerSteps) hresolved, hmetaSteps, hrawSteps]
      exact ⟨rfl, hreads⟩
    refine ⟨_, _, hsend, hchain, fun hchunk => ?_⟩
    obtain ⟨v, hholds, hbody⟩ := hanswer.body hchunk
    obtain ⟨w, hparseJcs, hnamed, hjcs⟩ := hstored.reread hcanonical hholds
    refine ⟨w, v, ?_, hholds, hnamed, hjcs⟩
    have hunlessRaw : CyfsNdnResponse.verifyChainUnlessRaw web responseMeta = .ok (some target) := by
      unfold CyfsNdnResponse.verifyChainUnlessRaw
      rw [hmetaRaw, if_neg (by simp)]
      exact hchain
    refine CyfsNdnResponse.object_of_named laws hunlessRaw ?_ ?_ hparseJcs hnamed
    · exact CyfsResponseMeta.effectiveObjId_of_header hknown
        (by rw [hmetaSteps]; exact hinnerSteps) hheader
    · unfold DirResponse.received
      rw [hbody]

/-- The steps of the server are those of the URL, after the further segments of the
root. -/
theorem rootObjId_steps_ne_nil {path : String} {rootId : ObjId} {steps : List (List String)}
    (hroot : NdnDirServer.rootObjId web path = some (rootId, steps))
    (hraw : rawSteps path ≠ []) : steps ≠ [] := by
  have hcut : (splitInnerPathWithRoot path).2 ≠ [] := by
    intro hempty
    unfold rawSteps at hraw
    rw [List.map_eq_nil_iff.mp hempty] at hraw
    exact hraw rfl
  unfold NdnDirServer.rootObjId at hroot
  dsimp only at hroot
  split at hroot
  · cases hroot
  split at hroot
  · cases hroot
  obtain ⟨-, rfl⟩ := Prod.mk.inj (Option.some.inj hroot)
  split_ifs
  · exact hcut
  · simp

/-- Where the server answers an inner path with an object, the client follows it exactly
if the undecoded fields lead through the objects on the way of the server. -/
theorem client_follows_server_iff (laws : web.Lawful) (hcanonical : web.CanonicalText)
    (hstored : server.StoredUnderOwnIds web) (hnoPrefix : server.urlPrefix = "") {url : String}
    {parsed : Url} (hurl : web.urlParse url = some parsed)
    (hraw : (web.queryPairs (parsed.query.getD "")).any (· = ("resp", "raw")) = false)
    (hhost : server.hostObjId web (DirRequest.ofUrl parsed) = none) {rootId : ObjId}
    {steps : List (List String)}
    (hroot : NdnDirServer.rootObjId web parsed.path = some (rootId, steps))
    (hsteps : rawSteps parsed.path ≠ []) (hfields : ∀ fields ∈ rawSteps parsed.path, fields ≠ [])
    {response : DirResponse} {target : ObjId}
    (hanswer : server.routeRequest web (DirRequest.ofUrl parsed) = .ok response)
    (htarget : response.headers.objId = some target) :
    ∃ root, server.Holds web rootId root ∧
      (ClientFollows web server client url response target ↔
        ReadAlike web server root steps (rawSteps parsed.path) target) := by
  obtain ⟨root, hholds, hwalk⟩ := NdnDirServer.routeRequest_eq_ok rfl hnoPrefix hhost hroot
    (rootObjId_steps_ne_nil hroot hsteps) hanswer htarget
  exact ⟨root, hholds, hwalk.clientFollows_iff laws hcanonical hstored hurl hraw hsteps hfields⟩

end BothSides

/-! ## Paths that start with an identifier -/

/-- A text without a percent sign is its own decoding. -/
theorem decodeBytes_eq_self {bytes : List UInt8} (h : (37 : UInt8) ∉ bytes) :
    decodeBytes bytes = bytes := by
  have hescaped : ∀ {b hi lo : UInt8}, b ≠ 37 → escapedByte b hi lo = none := by
    intro b hi lo hb
    unfold escapedByte
    rw [if_neg hb]
  fun_induction decodeBytes bytes with
  | case1 => rfl
  | case2 b => rfl
  | case3 b c => rfl
  | case4 b hi lo rest byte hbyte ih =>
      rw [List.mem_cons, not_or] at h
      rw [hescaped (Ne.symm h.1)] at hbyte
      cases hbyte
  | case5 b hi lo rest hbyte ih =>
      rw [List.mem_cons, not_or] at h
      rw [ih h.2]

theorem decodeUrlSegment_eq_self {seg : String} (h : '%' ∉ seg.toList) :
    decodeUrlSegment seg = seg := by
  have hbyte : (37 : UInt8) ∉ utf8Bytes seg := @ascii_byte_not_mem seg '%' (by decide) h
  unfold decodeUrlSegment
  rw [decodeBytes_eq_self hbyte, stringFromUtf8_utf8Bytes]
  rfl

section IdPath

variable {web : WebCrates} (laws : web.toCrates.Lawful) {id : ObjId} (hplain : PlainType id)

include laws hplain

/-- The server finds the identifier, and the decoded steps after it. -/
theorem rootObjId_idPath (inner : Option String) :
    NdnDirServer.rootObjId web (idPath web.toCrates id inner) =
      some (id, (innerSegments inner).map parseStepFields) := by
  have hroot : NdnDirServer.rootSegments ("/" ++ id.toString web.toCrates) =
      [id.toString web.toCrates] := by
    have hpercent : '%' ∉ (id.toString web.toCrates).toList :=
      not_mem_toString laws hplain (by decide) (by decide) (by decide)
    have htext : id.toString web.toCrates ≠ "" := by
      intro hempty
      have hchars := congrArg String.toList hempty
      rw [ObjId.toList_toString] at hchars
      simp at hchars
    unfold NdnDirServer.rootSegments stepFields
    rw [splitText_root laws hplain]
    simp [htext, decodeUrlSegment_eq_self hpercent]
  unfold NdnDirServer.rootObjId splitInnerPathWithRoot
  rw [splitInnerPath_idPath laws hplain]
  simp [hroot, new_toString_of_plain laws hplain]

theorem rawSteps_idPath (inner : Option String) :
    rawSteps (idPath web.toCrates id inner) =
      (innerSegments inner).map fun step => stepFields (String.ofList step) := by
  unfold rawSteps
  rw [splitInnerPath_idPath laws hplain]
  rfl

theorem visible_toString_of_plain : Visible (id.toString web.toCrates) := by
  have hcolon : ':' ∉ id.objType.toList := by
    intro hmem
    have hletter := List.all_eq_true.mp hplain ':' hmem
    revert hletter
    decide
  have htype : Visible id.objType := by
    refine visible_of_ascii fun c hc => ?_
    have hletter := List.all_eq_true.mp hplain c hc
    unfold Char.isAlpha Char.isUpper Char.isLower at hletter
    simp only [Bool.or_eq_true, Bool.and_eq_true, decide_eq_true_eq] at hletter
    rcases hletter with ⟨hlow, hhigh⟩ | ⟨hlow, hhigh⟩
    · exact ⟨Char.le_trans (show ' ' ≤ 'A' by decide) hlow,
        Char.le_trans hhigh (show 'Z' ≤ '~' by decide)⟩
    · exact ⟨Char.le_trans (show ' ' ≤ 'a' by decide) hlow,
        Char.le_trans hhigh (show 'z' ≤ '~' by decide)⟩
  exact ((readable_objId_iff laws id).mpr ⟨htype, hcolon⟩).1

/-- The header keeps the identifier. -/
theorem headerKeeps_of_plain : HeaderKeeps web id := by
  have hblank : ∀ c ∈ (id.toString web.toCrates).toList, c ≠ ' ' ∧ c ≠ '\t' := by
    intro c hc
    constructor
    · rintro rfl
      exact not_mem_toString laws hplain (by decide) (by decide) (by decide) hc
    · rintro rfl
      exact not_mem_toString laws hplain (by decide) (by decide) (by decide) hc
  have htrim : trimHeader (id.toString web.toCrates) = id.toString web.toCrates := by
    have hkept : ∀ chars : List Char, (∀ c ∈ chars, c ≠ ' ' ∧ c ≠ '\t') →
        chars.dropWhile (fun c => c = ' ' ∨ c = '\t') = chars := by
      intro chars hchars
      cases chars with
      | nil => rfl
      | cons c rest => exact List.dropWhile_cons_of_neg (by simp [hchars c List.mem_cons_self])
    unfold trimHeader
    dsimp only
    rw [hkept _ hblank, hkept _ fun c hc => hblank c (List.mem_reverse.mp hc), List.reverse_reverse,
      String.ofList_toList]
  have hlookup : (arrived "cyfs-obj-id" (id.toString web.toCrates)).lookup "cyfs-obj-id" =
      (some id).map fun objId => utf8Bytes (objId.toString web.toCrates) := by
    unfold arrived
    rw [htrim]
    simp
  unfold HeaderKeeps
  rw [headerGet_eq_ok_iff _ hlookup]
  rintro _ ⟨⟩
  exact ⟨visible_toString_of_plain laws hplain, new_toString_of_plain laws hplain⟩

end IdPath

/-! ## A server of some objects -/

/-- A store in which these objects were put, one after the other. -/
def storeOf (objects : List (ObjId × Json)) : NamedStore.NamedStore :=
  { NamedStore.NamedStore.fromConfig false with
    db := objects.foldl (fun db object => db.setObject sampleWeb.toCrates 0 object.1
      object.1.objType (sampleJcs object.2)) NamedLocalStoreDb.empty }

/-- The server of this store. -/
def serverOf (objects : List (ObjId × Json)) : NdnDirServer where
  urlPrefix := ""
  objIdInHost := false
  storeMgr :=
    { versions := [⟨fun _ => some "store"⟩]
      stores := fun _ => some (storeOf objects) }
  files := fun _ => none
  loadRootFromSemantic := fun _ => .error (.notFound "")
  serveRoot := fun _ _ _ => .error (.notFound "")

theorem storeOf_append (objects : List (ObjId × Json)) (object : ObjId × Json) :
    (storeOf (objects ++ [object])).db = (storeOf objects).db.setObject sampleWeb.toCrates 0
      object.1 object.1.objType (sampleJcs object.2) := by
  unfold storeOf
  dsimp only
  rw [List.foldl_append, List.foldl_cons, List.foldl_nil]

theorem mem_of_dataAt_storeOf {objects : List (ObjId × Json)} {text objStr : String}
    (h : (storeOf objects).db.dataAt text = some objStr) :
    ∃ object ∈ objects, object.1.toString sampleWeb.toCrates = text ∧
      sampleJcs object.2 = objStr := by
  induction objects using List.reverseRecOn with
  | nil => cases h
  | append_singleton objects object ih =>
      have hmem : (storeOf objects).db.dataAt text = some objStr →
          ∃ object' ∈ objects ++ [object], object'.1.toString sampleWeb.toCrates = text ∧
            sampleJcs object'.2 = objStr := by
        intro hbefore
        obtain ⟨object', hobject', hsame⟩ := ih hbefore
        exact ⟨object', List.mem_append_left _ hobject', hsame⟩
      rw [storeOf_append, NamedLocalStoreDb.dataAt_setObject] at h
      split_ifs at h with htext hpresent
      · exact hmem h
      · exact ⟨object, by simp, htext.symm, Option.some.inj h⟩
      · exact hmem h

/-- The server holds nothing else. -/
theorem mem_of_serverOf_holds {objects : List (ObjId × Json)} {objId : ObjId} {v : Json}
    (h : (serverOf objects).Holds sampleWeb objId v) : (objId, v) ∈ objects := by
  obtain ⟨objStr, hget, hparse⟩ := h
  have hstore : (storeOf objects).getObject sampleWeb.toCrates objId = .ok objStr := by
    unfold NamedDataMgr.getObject at hget
    rw [if_neg (by simp [serverOf])] at hget
    change NamedDataMgr.getObjectFrom sampleWeb.toCrates (serverOf objects).storeMgr objId
      ["store"] none = .ok objStr at hget
    unfold NamedDataMgr.getObjectFrom at hget
    dsimp only [serverOf] at hget
    split at hget
    · next obj hobj =>
      rw [hobj, Except.ok.inj hget]
    · cases hget
    · cases hget
  have hchunk : objId.isChunk = false := by
    by_contra hchunk
    rw [Bool.not_eq_false] at hchunk
    unfold NamedStore.NamedStore.getObject at hstore
    rw [if_pos hchunk] at hstore
    cases hstore
  obtain ⟨object, hmem, htext, rfl⟩ :=
    mem_of_dataAt_storeOf ((NamedStore.getObject_eq_ok_iff hchunk).mp hstore)
  rw [← ObjId.toString_injective sampleWeb_lawful.crates htext, eq_of_sampleWeb_jsonParse hparse]
  exact hmem

/-- The objects of a store with different ids are there. -/
theorem dataAt_storeOf {objects : List (ObjId × Json)} {object : ObjId × Json}
    (hmem : object ∈ objects) (hids : (objects.map Prod.fst).Nodup) :
    (storeOf objects).db.dataAt (object.1.toString sampleWeb.toCrates) =
      some (sampleJcs object.2) := by
  induction objects using List.reverseRecOn with
  | nil => cases hmem
  | append_singleton objects last ih =>
      rw [List.map_append, List.nodup_append] at hids
      obtain ⟨hfirst, -, hdisjoint⟩ := hids
      have hnew : ∀ other ∈ objects, other.1.toString sampleWeb.toCrates ≠
          last.1.toString sampleWeb.toCrates := by
        intro other hother htext
        exact hdisjoint _ (List.mem_map_of_mem hother) _ (by simp)
          (ObjId.toString_injective sampleWeb_lawful.crates htext)
      rw [storeOf_append, NamedLocalStoreDb.dataAt_setObject]
      rcases List.mem_append.mp hmem with hbefore | hlast
      · rw [if_neg (hnew object hbefore)]
        exact ih hbefore hfirst
      · obtain rfl := List.mem_singleton.mp hlast
        have habsent : (storeOf objects).db.dataAt (object.1.toString sampleWeb.toCrates) =
            none := by
          by_contra hpresent
          obtain ⟨objStr, hdata⟩ := Option.ne_none_iff_exists'.mp hpresent
          obtain ⟨other, hother, htext, -⟩ := mem_of_dataAt_storeOf hdata
          exact hnew other hother htext
        have hstate : (storeOf objects).db.getItemStateTx
            (object.1.toString sampleWeb.toCrates) ≠ some .present := by
          intro hpresent
          obtain ⟨row, hrow, hrowPresent⟩ := Option.map_eq_some_iff.mp hpresent
          unfold NamedLocalStoreDb.dataAt at habsent
          rw [hrow] at habsent
          simp [hrowPresent] at habsent
        rw [if_pos rfl, if_neg hstate]

theorem serverOf_holds {objects : List (ObjId × Json)} {objId : ObjId} {v : Json}
    (hmem : (objId, v) ∈ objects) (hids : (objects.map Prod.fst).Nodup)
    (hchunk : objId.isChunk = false) : (serverOf objects).Holds sampleWeb objId v := by
  refine ⟨sampleJcs v, ?_, sampleJsonParse_sampleJcs v⟩
  have hstore : (storeOf objects).getObject sampleWeb.toCrates objId = .ok (sampleJcs v) :=
    (NamedStore.getObject_eq_ok_iff hchunk).mpr (dataAt_storeOf hmem hids)
  unfold NamedDataMgr.getObject
  rw [if_neg (by simp [serverOf])]
  change NamedDataMgr.getObjectFrom sampleWeb.toCrates (serverOf objects).storeMgr objId
    ["store"] none = .ok (sampleJcs v)
  unfold NamedDataMgr.getObjectFrom
  dsimp only [serverOf]
  rw [hstore]

theorem serverOf_storedUnderOwnIds {objects : List (ObjId × Json)}
    (hnamed : ∀ object ∈ objects, object.2.Named sampleWeb object.1) :
    (serverOf objects).StoredUnderOwnIds sampleWeb :=
  fun _ _ h => hnamed _ (mem_of_serverOf_holds h)

theorem sampleWeb_canonicalText : sampleWeb.CanonicalText :=
  fun _ v _ => ⟨v, sampleJsonParse_sampleJcs v, rfl, rfl⟩

/-- The id of the file object with the content `a`. -/
def fileAId : ObjId := ⟨"cyfile", sha256FileA⟩

theorem named_of_buildNamedObject {objId : ObjId} {v : Json} (htype : objId.objType ≠ "clist")
    (h : (buildNamedObjectByJson sampleWeb objId.objType v).1 = objId) :
    v.Named sampleWeb objId := by
  unfold Json.Named
  rwa [if_neg htype]

theorem fileAId_named : (plainFile "a" 0).Named sampleWeb fileAId :=
  named_of_buildNamedObject (by decide) (by decide)

/-- The name of a child is found in the directory. -/
theorem follows_oneChildDir {server : NdnDirServer} {name childId : String}
    (hname : parseUsize name = none) :
    server.Follows sampleWeb (oneChildDir name childId) ["body", name] (.string childId) := by
  have hbody : (oneChildDir name childId).field "body" =
      some (.object [(name, .string childId)]) := by
    unfold Json.field
    rw [show parseUsize "body" = none from by decide]
    rfl
  have hchild : (Json.object [(name, .string childId)]).field name = some (.string childId) := by
    unfold Json.field
    rw [hname]
    simp [Json.get]
  have hno : ∀ objId, ObjId.fromValue sampleWeb.toCrates
      (.object [(name, .string childId)]) ≠ .ok objId := by
    intro objId h
    cases h
  exact .inside hbody hno (.last hchild)

/-! ## A path of two steps -/

/-- Both directories and the file. -/
def nestedObjects : List (ObjId × Json) :=
  [(fileAId, plainFile "a" 0), (innerDirId, innerDir), (outerDirId, outerDir)]

/-- The parts of the URL. -/
def nestedParsed : Url := ⟨some "mirror", nestedPath, none, "http://"⟩

theorem nested_named : ∀ object ∈ nestedObjects, object.2.Named sampleWeb object.1 := by
  intro object hobject
  simp only [nestedObjects, List.mem_cons, List.not_mem_nil, or_false] at hobject
  rcases hobject with rfl | rfl | rfl
  · exact fileAId_named
  · exact named_of_buildNamedObject (by decide) nestedDirs_ids.2
  · exact named_of_buildNamedObject (by decide) nestedDirs_ids.1

theorem nested_holds {objId : ObjId} {v : Json} (hmem : (objId, v) ∈ nestedObjects)
    (hchunk : objId.isChunk = false) : (serverOf nestedObjects).Holds sampleWeb objId v :=
  serverOf_holds hmem (by decide) hchunk

theorem innerDirId_text : innerDirId.toString sampleWeb.toCrates =
    "cydir:9258a2d40e38caf7ab9d052b2ed7b9c9dcb70a130987e69a62df39d2ae26ca4e" := by
  decide

theorem fileAId_text : fileAId.toString sampleWeb.toCrates =
    "cyfile:8a504b89e73474f187eedabc92d485861935ad7f2e2e69948e43a160350df100" := by
  decide

/-- The ids in the directories are read. -/
theorem nestedDirs_read :
    ObjId.new sampleWeb.toCrates
        "cydir:9258a2d40e38caf7ab9d052b2ed7b9c9dcb70a130987e69a62df39d2ae26ca4e" =
      .ok innerDirId ∧
    ObjId.new sampleWeb.toCrates
        "cyfile:8a504b89e73474f187eedabc92d485861935ad7f2e2e69948e43a160350df100" =
      .ok fileAId := by
  rw [← innerDirId_text, ← fileAId_text]
  exact ⟨new_toString_of_plain sampleWeb_lawful.crates (by decide),
    new_toString_of_plain sampleWeb_lawful.crates (by decide)⟩

/-- The server and the client read the same steps in the URL. -/
theorem nestedPath_steps :
    NdnDirServer.rootObjId sampleWeb nestedPath =
        some (outerDirId, [["body", "b"], ["body", "c"]]) ∧
      rawSteps nestedPath = [["body", "b"], ["body", "c"]] := by
  have hplain : PlainType outerDirId := by decide
  have hcut : (innerSegments (some "body/b/@/body/c")).map parseStepFields =
        [["body", "b"], ["body", "c"]] ∧
      (innerSegments (some "body/b/@/body/c")).map (fun step => stepFields (String.ofList step)) =
        [["body", "b"], ["body", "c"]] := by
    decide
  rw [nestedPath_eq, rootObjId_idPath sampleWeb_lawful.crates hplain,
    rawSteps_idPath sampleWeb_lawful.crates hplain, hcut.1, hcut.2]
  exact ⟨rfl, rfl⟩

/-- The header with the id of the file can be sent, and the id is read back. -/
theorem fileAId_header :
    (headerValueFromStr (fileAId.toString sampleWeb.toCrates)).isSome ∧
      HeaderKeeps sampleWeb fileAId := by
  have hplain : PlainType fileAId := by decide
  rw [headerValueFromStr_of_visible (visible_toString_of_plain sampleWeb_lawful.crates hplain)]
  exact ⟨rfl, headerKeeps_of_plain sampleWeb_lawful.crates hplain⟩

theorem nested_walks :
    (serverOf nestedObjects).Walks sampleWeb outerDir [["body", "b"], ["body", "c"]]
      [outerDir, innerDir] fileAId := by
  obtain ⟨hinner, hfile⟩ := nestedDirs_read
  exact .step (follows_oneChildDir (by decide)) hinner
    (nested_holds (by simp [nestedObjects]) rfl)
    (.last (follows_oneChildDir (by decide)) hfile)

/-- The client reads the steps as the server walked them. -/
theorem nested_readAlike :
    ReadAlike sampleWeb (serverOf nestedObjects) outerDir [["body", "b"], ["body", "c"]]
      [["body", "b"], ["body", "c"]] fileAId := by
  obtain ⟨hinner, hfile⟩ := nestedDirs_read
  have hread : ∀ v, sampleWeb.jsonParse (sampleWeb.jcs v) = some v := sampleJsonParse_sampleJcs
  refine ⟨_, [(outerDir, outerDirId), (innerDir, innerDirId)], nested_walks, ?_, ?_,
    fileAId_header.2⟩
  · exact .cons ⟨hread _, recompute_nestedDirs.1⟩ (.cons ⟨hread _, recompute_nestedDirs.2⟩ .nil)
  · exact ⟨⟨_, rfl, hinner⟩, ⟨_, rfl, hfile⟩, trivial⟩

/-- The server answers with the file, the directories as its parents, and the client follows
both steps. -/
theorem nested_follows :
    ∃ response, (serverOf nestedObjects).routeRequest sampleWeb (DirRequest.ofUrl nestedParsed) =
        .ok response ∧
      response.headers.parents = [.json (sampleJcs outerDir), .json (sampleJcs innerDir)] ∧
      ClientFollows sampleWeb (serverOf nestedObjects) strictClient nestedUrl response fileAId := by
  obtain ⟨hroot, hraw⟩ := nestedPath_steps
  have hurl : sampleWeb.urlParse nestedUrl = some nestedParsed := sampleWeb_urlParse nestedPath
  have hrootPath : NdnDirServer.rootObjId sampleWeb nestedParsed.path =
      some (outerDirId, [["body", "b"], ["body", "c"]]) := hroot
  have hhost : (serverOf nestedObjects).hostObjId sampleWeb (DirRequest.ofUrl nestedParsed) =
      none := rfl
  have hmethod : (DirRequest.ofUrl nestedParsed).method = .get := rfl
  have hfile : (fileAId, plainFile "a" 0) ∈ nestedObjects := List.mem_cons_self
  have hanswer := NdnDirServer.routeRequest_of_walks hmethod rfl rfl hhost hrootPath rfl
    (nested_holds (by simp [nestedObjects]) rfl) nested_walks rfl (nested_holds hfile rfl)
    fileAId_header.1
  refine ⟨_, hanswer, rfl, ?_⟩
  have hsteps : rawSteps nestedParsed.path ≠ [] := by
    show rawSteps nestedPath ≠ []
    rw [hraw]
    simp
  have hfields : ∀ fields ∈ rawSteps nestedParsed.path, fields ≠ [] := by
    show ∀ fields ∈ rawSteps nestedPath, fields ≠ []
    rw [hraw]
    simp
  obtain ⟨root, hholds, hiff⟩ := client_follows_server_iff sampleWeb_lawful
    sampleWeb_canonicalText (serverOf_storedUnderOwnIds nested_named) rfl hurl rfl hhost hrootPath
    hsteps hfields hanswer rfl
  have hmem := mem_of_serverOf_holds hholds
  have hrootDir : root = outerDir := by
    simp only [nestedObjects, List.mem_cons, Prod.mk.injEq, List.not_mem_nil, or_false] at hmem
    rcases hmem with ⟨hid, -⟩ | ⟨hid, -⟩ | ⟨-, hsame⟩
    · exact absurd hid (by decide)
    · exact absurd hid (by decide)
    · exact hsame
  subst hrootDir
  refine hiff.mpr ?_
  show ReadAlike sampleWeb _ _ _ (rawSteps nestedPath) _
  rw [hraw]
  exact nested_readAlike

/-! ## A name with a blank -/

/-- A directory with one file, the name of which has a blank in it. -/
def blankNameDir : Json :=
  oneChildDir "a b" "cyfile:8a504b89e73474f187eedabc92d485861935ad7f2e2e69948e43a160350df100"

/-- The id of this directory. -/
def blankNameDirId : ObjId := ⟨"cydir", sha256BlankDir⟩

/-- The directory and its file. -/
def blankNameObjects : List (ObjId × Json) :=
  [(fileAId, plainFile "a" 0), (blankNameDirId, blankNameDir)]

/-- The path of the file, in which the blank is written `%20`. -/
def blankNamePath : String :=
  "/cydir:1e99ece03fd20a5664dec905fb06fcb0545ba10ab616af305dceaf696b3f03aa/@/body/a%20b"

/-- The URL with this path. -/
def blankNameUrl : String := "http://mirror" ++ blankNamePath

/-- The parts of this URL. -/
def blankNameParsed : Url := ⟨some "mirror", blankNamePath, none, "http://"⟩

/-- The answer of the server: the file, with the directory as its parent. -/
def blankNameAnswer : DirResponse where
  status := 200
  headers := ⟨some fileAId, none, none, [.json (sampleJcs blankNameDir)], []⟩
  contentLength := (utf8Bytes (sampleJcs (plainFile "a" 0))).length
  body := utf8Bytes (sampleJcs (plainFile "a" 0))

theorem blankNameDirId_text : blankNameDirId.toString sampleWeb.toCrates =
    "cydir:1e99ece03fd20a5664dec905fb06fcb0545ba10ab616af305dceaf696b3f03aa" := by
  decide

theorem blankNamePath_eq : blankNamePath =
    idPath sampleWeb.toCrates blankNameDirId (some "body/a%20b") := by
  have hroot : "/" ++ "cydir:1e99ece03fd20a5664dec905fb06fcb0545ba10ab616af305dceaf696b3f03aa" =
      "/cydir:1e99ece03fd20a5664dec905fb06fcb0545ba10ab616af305dceaf696b3f03aa" :=
    String.ofList_append.symm
  have hsteps : "/@/" ++ "body/a%20b" = "/@/body/a%20b" := String.ofList_append.symm
  have hpath : "/cydir:1e99ece03fd20a5664dec905fb06fcb0545ba10ab616af305dceaf696b3f03aa" ++
      "/@/body/a%20b" = blankNamePath :=
    String.ofList_append.symm
  exact (idPath_eq_of_texts blankNameDirId_text hroot hsteps hpath).symm

/-- The steps of the URL, decoded and as they stand. -/
theorem blankNamePath_steps :
    NdnDirServer.rootObjId sampleWeb blankNamePath = some (blankNameDirId, [["body", "a b"]]) ∧
      rawSteps blankNamePath = [["body", "a%20b"]] := by
  have hplain : PlainType blankNameDirId := by decide
  have hcut : (innerSegments (some "body/a%20b")).map parseStepFields = [["body", "a b"]] ∧
      (innerSegments (some "body/a%20b")).map (fun step => stepFields (String.ofList step)) =
        [["body", "a%20b"]] := by
    decide
  rw [blankNamePath_eq, rootObjId_idPath sampleWeb_lawful.crates hplain,
    rawSteps_idPath sampleWeb_lawful.crates hplain, hcut.1, hcut.2]
  exact ⟨rfl, rfl⟩

theorem blankName_named : ∀ object ∈ blankNameObjects, object.2.Named sampleWeb object.1 := by
  intro object hobject
  simp only [blankNameObjects, List.mem_cons, List.not_mem_nil, or_false] at hobject
  rcases hobject with rfl | rfl
  · exact fileAId_named
  · exact named_of_buildNamedObject (by decide) (by decide +kernel)

theorem blankName_answers :
    (serverOf blankNameObjects).routeRequest sampleWeb (DirRequest.ofUrl blankNameParsed) =
      .ok blankNameAnswer := by
  have hfile := nestedDirs_read.2
  have hmethod : (DirRequest.ofUrl blankNameParsed).method = .get := rfl
  have hhost : (serverOf blankNameObjects).hostObjId sampleWeb (DirRequest.ofUrl blankNameParsed) =
      none := rfl
  have hids : (blankNameObjects.map Prod.fst).Nodup := by decide
  have hdir : (blankNameDirId, blankNameDir) ∈ blankNameObjects := by simp [blankNameObjects]
  have hwalks : (serverOf blankNameObjects).Walks sampleWeb blankNameDir [["body", "a b"]]
      [blankNameDir] fileAId := .last (follows_oneChildDir (by decide)) hfile
  exact NdnDirServer.routeRequest_of_walks hmethod rfl rfl hhost blankNamePath_steps.1 rfl
    (serverOf_holds hdir hids rfl) hwalks rfl (serverOf_holds List.mem_cons_self hids rfl)
    fileAId_header.1

/-- The server answers with the file, and the client does not find the name. -/
theorem client_misses_blank_name :
    (serverOf blankNameObjects).routeRequest sampleWeb (DirRequest.ofUrl blankNameParsed) =
        .ok blankNameAnswer ∧
      blankNameAnswer.headers.objId = some fileAId ∧
      ¬ ClientFollows sampleWeb (serverOf blankNameObjects) strictClient blankNameUrl
        blankNameAnswer fileAId := by
  refine ⟨blankName_answers, rfl, fun hfollows => ?_⟩
  obtain ⟨hroot, hsteps⟩ := blankNamePath_steps
  have hraw : rawSteps blankNameParsed.path = [["body", "a%20b"]] := hsteps
  have hurl : sampleWeb.urlParse blankNameUrl = some blankNameParsed :=
    sampleWeb_urlParse blankNamePath
  have hhost : (serverOf blankNameObjects).hostObjId sampleWeb (DirRequest.ofUrl blankNameParsed) =
      none := rfl
  have hobjId : blankNameAnswer.headers.objId = some fileAId := rfl
  obtain ⟨root, hholds, hwalk⟩ := NdnDirServer.routeRequest_eq_ok rfl rfl hhost hroot (by simp)
    blankName_answers hobjId
  rw [hwalk.clientFollows_iff sampleWeb_lawful sampleWeb_canonicalText
    (serverOf_storedUnderOwnIds blankName_named) hurl rfl (by rw [hraw]; simp)
    (by rw [hraw]; simp), hraw] at hfollows
  obtain ⟨parents, seen, hwalks, hseen, hreads, -⟩ := hfollows
  have hdir : root = blankNameDir := by
    have hmem := mem_of_serverOf_holds hholds
    simp only [blankNameObjects, List.mem_cons, Prod.mk.injEq, List.not_mem_nil, or_false] at hmem
    rcases hmem with ⟨hid, -⟩ | ⟨-, hsame⟩
    · exact absurd hid (by decide)
    · exact hsame
  subst hdir
  cases hwalks with
  | last hfollows hid =>
      cases hseen with
      | cons hfirst hrest =>
          obtain ⟨⟨text, hdescend, -⟩, -⟩ := hreads
          rw [eq_of_sampleWeb_jsonParse hfirst.1] at hdescend
          have hnone : (blankNameDir.descend ["body", "a%20b"]).isNone = true := by
            decide
          rw [hdescend] at hnone
          cases hnone

end NdnToolkit
end CyfsNdn

import CyfsNdn.NdnToolkit.FetchById

/-!
# Inner paths and their proof

An inner path leads from a root object through the objects that its steps name.  If
hashes do not collide it leads to one object only, so a response can prove its object
by sending the objects on the way.

A response that carries such a proof is checked, by `object` always and by `pull`
unless it pulls a single chunk.  But nothing makes a server carry a proof: without
parents in the headers any object passes, so no request with an inner path is safe.
-/

namespace CyfsNdn
namespace NdnToolkit

open NdnLib NamedStore Collections Exchange

/-- One step leads from the object of one id to another id. -/
def Resolves (web : WebCrates) (objId : ObjId) (step : String) (next : ObjId) : Prop :=
  ∃ v resolved, v.Named web objId ∧ resolveInnerPathStep v step = .ok resolved ∧
    ObjId.fromValue web.toCrates resolved = .ok next

/-- The steps lead from the root to an id, each from the object that the steps before
it lead to. -/
inductive ResolvesTo (web : WebCrates) : ObjId → List String → ObjId → Prop where
  | nil (objId : ObjId) : ResolvesTo web objId [] objId
  | cons {objId next target : ObjId} {step : String} {steps : List String}
      (hstep : Resolves web objId step next) (hrest : ResolvesTo web next steps target) :
      ResolvesTo web objId (step :: steps) target

section Deterministic

variable {web : WebCrates}

/-- The loop descends by the fields. -/
theorem resolveFields_eq_ok {v resolved : Json} {fields : List String} :
    resolveFields v fields = .ok resolved ↔ v.descend fields = some resolved := by
  induction fields generalizing v with
  | nil => simp [resolveFields, eq_comm]
  | cons field rest ih =>
      unfold resolveFields Json.descend Json.field
      cases parseUsize field with
      | none =>
          dsimp only
          cases v.get field with
          | none => simp
          | some next => exact ih
      | some idx =>
          dsimp only
          cases v.getIdx idx with
          | none => simp
          | some next => exact ih

/-- Nothing is below a string. -/
theorem descend_string {s : String} {fields : List String} {v : Json}
    (h : (Json.string s).descend fields = some v) : v = .string s := by
  cases fields with
  | nil =>
      rw [Json.descend_nil] at h
      exact (Option.some.inj h).symm
  | cons field rest =>
      unfold Json.descend Json.field at h
      cases hfield : parseUsize field <;> simp [hfield, Json.get, Json.getIdx] at h

/-- A path in an array of strings that ends at a string is the index of this string. -/
theorem descend_stringArray {v : Json} {texts : List String} {fields : List String}
    {s : String} (harray : v.stringArray = some texts)
    (h : v.descend fields = some (.string s)) :
    ∃ field rest idx, fields = field :: rest ∧ parseUsize field = some idx ∧
      texts[idx]? = some s := by
  cases v with
  | array items =>
      cases fields with
      | nil => cases h
      | cons field rest =>
          unfold Json.descend Json.field at h
          cases hfield : parseUsize field with
          | none => simp [hfield, Json.get] at h
          | some idx =>
              simp only [hfield, Json.getIdx] at h
              split at h
              · cases h
              next item hitem =>
              refine ⟨field, rest, idx, rfl, hfield, ?_⟩
              have htext : ∃ text, texts[idx]? = some text ∧ item = .string text := by
                clear h hfield
                change items.mapM Json.asStr = some texts at harray
                induction items generalizing texts idx with
                | nil => simp at hitem
                | cons head tail ih =>
                    simp only [List.mapM_cons, Option.bind_eq_bind, Option.bind_eq_some_iff,
                      Option.pure_def, Option.some.injEq] at harray
                    obtain ⟨text, hhead, texts', htail, rfl⟩ := harray
                    cases idx with
                    | zero =>
                        obtain rfl : head = item := by simpa using hitem
                        cases head with
                        | string s' =>
                            obtain rfl : s' = text := Option.some.inj hhead
                            exact ⟨s', rfl, rfl⟩
                        | _ => cases hhead
                    | succ idx =>
                        obtain ⟨found, hfound, hitem'⟩ := ih idx (by simpa using hitem) htail
                        exact ⟨found, by simpa using hfound, hitem'⟩
              obtain ⟨text, htext, rfl⟩ := htext
              obtain rfl : s = text := Json.string.inj (descend_string h)
              exact htext
  | _ => cases harray

/-- The chunks of a list that was read are known. -/
theorem ChunkList.known_of_fromJsonValue {v : Json} {list : ChunkList}
    (h : ChunkList.fromJsonValue web v = .ok list) :
    ∃ texts, v.stringArray = some texts ∧
      texts.mapM (ChunkId.new web.toCrates) = .ok list.body ∧ ∀ id ∈ list.body, id.Known := by
  unfold ChunkList.fromJsonValue at h
  split at h
  · cases h
  next texts htexts =>
  split at h
  · cases h
  next chunks hchunks =>
  have hbody : list.body = chunks := by
    unfold ChunkList.fromChunkList at h
    split at h
    · cases h
    · cases h
      rfl
  subst hbody
  refine ⟨texts, htexts, hchunks, ?_⟩
  clear h htexts
  generalize list.body = body at hchunks ⊢
  induction texts generalizing body with
  | nil =>
      simp only [List.mapM_nil, except_pure_eq_ok] at hchunks
      subst hchunks
      simp
  | cons text rest ih =>
      simp only [List.mapM_cons, except_bind_eq_ok, except_pure_eq_ok] at hchunks
      obtain ⟨chunk, hchunk, chunks', hrest, rfl⟩ := hchunks
      intro id hid
      rcases List.mem_cons.mp hid with rfl | hid
      · exact (ChunkId.known_of_new ⟨text, hchunk⟩).1
      · exact ih chunks' hrest id hid

/-- The object id of an element is the id of its chunk. -/
theorem objId_of_mapM_chunkId {crates : Crates} {texts : List String} {body : List ChunkId}
    {idx : Nat} {s : String} {objId : ObjId} (h : texts.mapM (ChunkId.new crates) = .ok body)
    (hidx : texts[idx]? = some s) (hid : ObjId.new crates s = .ok objId) :
    body[idx]? = some (ChunkId.fromObjId objId) := by
  induction texts generalizing body idx with
  | nil => simp at hidx
  | cons text rest ih =>
      simp only [List.mapM_cons, except_bind_eq_ok, except_pure_eq_ok] at h
      obtain ⟨chunk, hchunk, chunks', hrest, rfl⟩ := h
      cases idx with
      | zero =>
          obtain rfl : text = s := by simpa using hidx
          unfold ChunkId.new at hchunk
          rw [hid] at hchunk
          dsimp only at hchunk
          split_ifs at hchunk
          obtain rfl := Except.ok.inj hchunk
          rfl
      | succ idx => simpa using ih hrest (by simpa using hidx)

theorem fromObjId_injective {id id' : ObjId}
    (h : ChunkId.fromObjId id = ChunkId.fromObjId id') : id = id' := by
  have := congrArg ChunkId.toObjId h
  simpa using this

/-- A step leads to one id. -/
theorem Resolves.eq (laws : web.Lawful) (hinj : web.Injective) {objId next next' : ObjId}
    {step : String} (h : Resolves web objId step next) (h' : Resolves web objId step next') :
    next = next' := by
  obtain ⟨v, resolved, hv, hstep, hnext⟩ := h
  obtain ⟨w, resolved', hw, hstep', hnext'⟩ := h'
  obtain ⟨s, rfl, hs⟩ := ObjId.asStr_of_fromValue hnext
  obtain ⟨s', rfl, hs'⟩ := ObjId.asStr_of_fromValue hnext'
  unfold resolveInnerPathStep at hstep hstep'
  rw [resolveFields_eq_ok] at hstep hstep'
  by_cases htype : objId.objType = "clist"
  · -- The elements of a chunk list may be written in several ways, but name one chunk.
    unfold Json.Named at hv hw
    rw [if_pos htype] at hv hw
    obtain ⟨list, hread, hid⟩ := hv
    obtain ⟨list', hread', hid'⟩ := hw
    obtain ⟨texts, htexts, hchunks, hknown⟩ := ChunkList.known_of_fromJsonValue hread
    obtain ⟨texts', htexts', hchunks', hknown'⟩ := ChunkList.known_of_fromJsonValue hread'
    obtain ⟨field, rest, idx, hfields, hidx, htext⟩ := descend_stringArray htexts hstep
    obtain ⟨field', rest', idx', hfields', hidx', htext'⟩ := descend_stringArray htexts' hstep'
    have hsame : idx = idx' := by
      rw [hfields] at hfields'
      rw [(List.cons.inj hfields').1, hidx'] at hidx
      exact (Option.some.inj hidx).symm
    subst hsame
    have hbody := ChunkList.body_eq_of_genObjId laws hinj (hid.trans hid'.symm) hknown hknown'
    have helement := objId_of_mapM_chunkId hchunks htext hs
    rw [hbody, objId_of_mapM_chunkId hchunks' htext' hs'] at helement
    exact (fromObjId_injective (Option.some.inj helement)).symm
  · have hjcs := Json.jcs_eq_of_named hinj htype hv hw
    have hother := laws.descend_of_jcs_eq v w hjcs _ s hstep
    rw [hstep'] at hother
    obtain rfl := Json.string.inj (Option.some.inj hother)
    exact Except.ok.inj (hs.symm.trans hs')

/-- An inner path leads to one id. -/
theorem ResolvesTo.eq (laws : web.Lawful) (hinj : web.Injective) {objId target target' : ObjId}
    {steps : List String} (h : ResolvesTo web objId steps target)
    (h' : ResolvesTo web objId steps target') : target = target' := by
  induction h generalizing target' with
  | nil objId =>
      cases h'
      rfl
  | cons hstep hrest ih =>
      cases h' with
      | cons hstep' hrest' =>
          rw [hstep.eq laws hinj hstep'] at ih
          exact ih hrest'

end Deterministic

/-! ## What is claimed of a response -/

/-- The root of the inner path: the object of the URL, or the target of a verified path
object. -/
def CyfsResponseMeta.innerPathRoot (responseMeta : CyfsResponseMeta) : Option ObjId :=
  responseMeta.urlObjId.orElse fun _ => responseMeta.pathObject.map VerifiedPathObject.target

/-- What `object` returns is what the inner path leads to. -/
def ObjectProved (web : WebCrates) (response : CyfsNdnResponse) (root : ObjId) : Prop :=
  ∀ objId v, response.object web = .ok (objId, v) →
    ResolvesTo web root response.responseMeta.urlInnerPathSteps objId ∧ v.Named web objId

/-- What `pull` delivers is the content of what the inner path leads to. -/
def PullProved (web : WebCrates) (client : CyfsNdnClient) (response : CyfsNdnResponse)
    (root : ObjId) (w : World) : Prop :=
  ∀ pullMode storeMgr result w', response.pull web client pullMode storeMgr w =
    .ok (result, w') → ∃ objId,
      ResolvesTo web root response.responseMeta.urlInnerPathSteps objId ∧
        Delivered web objId pullMode w w'

/-- The headers name the object and carry a proof that starts at the root. -/
def CarriesProof (response : CyfsNdnResponse) (root : ObjId) : Prop :=
  response.responseMeta.cyfsHeaders.objId.isSome ∧
    (response.responseMeta.parents.head?.map ResolvedParent.objId) = some root

/-- The response is not taken for a single chunk, by its id or by the content of a file
object in its last parent. -/
def NotRawChunk (web : WebCrates) (response : CyfsNdnResponse) : Prop :=
  response.describeFromInnerPathChain web = .ok none ∧
    ∀ objId, response.responseMeta.cyfsHeaders.objId = some objId → objId.isChunk = false

/-- Some answer to the request makes it one for an inner path of a known root, and it is
not for a raw response. -/
def RootsInnerPath (web : WebCrates) (client : CyfsNdnClient)
    (request : CyfsNdnRequestBuilder) : Prop :=
  ∃ w response w' root, request.send web client w = .ok (response, w') ∧
    response.responseMeta.respRaw = false ∧ response.responseMeta.urlInnerPathSteps ≠ [] ∧
    response.responseMeta.innerPathRoot = some root

/-- Whatever the server answers, `object` returns what the inner path leads to. -/
def InnerPathObjectTrusted (web : WebCrates) (client : CyfsNdnClient)
    (request : CyfsNdnRequestBuilder) : Prop :=
  ∀ w response w' root, request.send web client w = .ok (response, w') →
    response.responseMeta.innerPathRoot = some root → ObjectProved web response root

/-- Whatever the server answers, `pull` delivers what the inner path leads to. -/
def InnerPathPullTrusted (web : WebCrates) (client : CyfsNdnClient)
    (request : CyfsNdnRequestBuilder) : Prop :=
  ∀ w response w' root, request.send web client w = .ok (response, w') →
    response.responseMeta.innerPathRoot = some root → PullProved web client response root w'

section Proof

variable {web : WebCrates} {client : CyfsNdnClient} {request : CyfsNdnRequestBuilder}

/-- A guessed id is the id of the object. -/
theorem named_of_recomputeParentObjId {v : Json} {objId : ObjId}
    (h : recomputeParentObjId web v = .ok objId) : v.Named web objId := by
  have hbuilt : ∀ objType, objType ≠ "clist" →
      v.Named web (buildNamedObjectByJson web objType v).1 := by
    intro objType hne
    unfold Json.Named
    rw [if_neg (by simpa [buildNamedObjectByJson, buildObjId] using hne)]
    rfl
  unfold recomputeParentObjId at h
  split_ifs at h
  · split at h
    · cases h
    next chunkList hread =>
    obtain rfl := Except.ok.inj h
    unfold Json.Named
    rw [if_pos (ChunkList.objType_genObjId web chunkList)]
    exact ⟨chunkList, hread, rfl⟩
  · obtain rfl := Except.ok.inj h
    exact hbuilt _ (by decide)
  · obtain rfl := Except.ok.inj h
    exact hbuilt _ (by decide)
  · obtain rfl := Except.ok.inj h
    exact hbuilt _ (by decide)

/-- An inlined parent is the object of its id. -/
def ParentsNamed (web : WebCrates) (parents : List ResolvedParent) : Prop :=
  ∀ parent ∈ parents, ∀ v, parent.objJson = some v → v.Named web parent.objId

theorem parentsNamed_of_mapM {headers : List CyfsParent} {parents : List ResolvedParent}
    (h : headers.mapM (ResolvedParent.fromHeader web) = .ok parents) :
    ParentsNamed web parents := by
  induction headers generalizing parents with
  | nil =>
      simp only [List.mapM_nil, except_pure_eq_ok] at h
      subst h
      intro parent hparent
      cases hparent
  | cons header rest ih =>
      simp only [List.mapM_cons, except_bind_eq_ok, except_pure_eq_ok] at h
      obtain ⟨first, hfirst, others, hrest, rfl⟩ := h
      intro parent hparent v hv
      rcases List.mem_cons.mp hparent with rfl | hparent
      · cases header with
        | objId id =>
            obtain rfl := Except.ok.inj hfirst
            cases hv
        | json objStr =>
            unfold ResolvedParent.fromHeader at hfirst
            dsimp only at hfirst
            split at hfirst
            · cases hfirst
            next objJson hparse =>
            split at hfirst
            · cases hfirst
            next objId hid =>
            obtain rfl := Except.ok.inj hfirst
            obtain rfl := Option.some.inj hv
            exact named_of_recomputeParentObjId hid
      · exact ih hrest parent hparent v hv

/-- A chain that passes leads from its first parent to the id in the header. -/
theorem CyfsResponseMeta.resolvesTo_of_verifySteps {headerId : ObjId} {steps : List String}
    {stepIdx : Nat} {parents : List ResolvedParent} {last result : Option ObjId}
    (hnamed : ParentsNamed web parents) (hlen : steps.length ≤ parents.length)
    (hsteps : steps ≠ [])
    (h : verifySteps web (some headerId) stepIdx steps parents last = .ok result) :
    ∃ first rest, parents = first :: rest ∧ ResolvesTo web first.objId steps headerId := by
  induction steps generalizing stepIdx parents last with
  | nil => exact absurd rfl hsteps
  | cons step steps ih =>
      cases parents with
      | nil => simp at hlen
      | cons first rest =>
          refine ⟨first, rest, rfl, ?_⟩
          rw [verifySteps] at h
          split at h
          · cases h
          next parentJson hjson =>
          split at h
          · cases h
          next resolved hresolved =>
          have hfirst := hnamed first List.mem_cons_self parentJson hjson
          have hrestNamed : ParentsNamed web rest :=
            fun parent hparent => hnamed parent (List.mem_cons_of_mem _ hparent)
          have hone : ∀ next, ObjId.fromValue web.toCrates resolved = .ok next →
              Resolves web first.objId step next :=
            fun next hnext => ⟨parentJson, resolved, hfirst, hresolved, hnext⟩
          cases steps with
          | nil =>
              -- The last step must lead to the id in the header.
              simp only at h
              split at h
              · cases h
              next resolvedObjId hid =>
              split_ifs at h with hne
              rw [not_not.mp hne] at hid
              exact .cons (hone _ hid) (.nil _)
          | cons nextStep steps =>
              cases rest with
              | nil => simp at hlen
              | cons next rest =>
                  simp only at h
                  split at h
                  · cases h
                  next resolvedObjId hid =>
                  split_ifs at h with hne
                  rw [not_not.mp hne] at hid
                  obtain ⟨first', rest', hcons, hresolves⟩ := ih hrestNamed
                    (by simpa using hlen) (by simp) h
                  obtain ⟨rfl, rfl⟩ := List.cons.inj hcons
                  exact .cons (hone _ hid) hresolves

/-- A chain of a response that carries a proof leads from the root to the id in the
header. -/
theorem CyfsResponseMeta.resolvesTo_of_verifyInnerPathChain {responseMeta : CyfsResponseMeta}
    {root headerId : ObjId} {result : Option ObjId}
    (hnamed : ParentsNamed web responseMeta.parents)
    (hsteps : responseMeta.urlInnerPathSteps ≠ [])
    (hroot : (responseMeta.parents.head?.map ResolvedParent.objId) = some root)
    (hheader : responseMeta.cyfsHeaders.objId = some headerId)
    (h : responseMeta.verifyInnerPathChain web = .ok result) :
    ResolvesTo web root responseMeta.urlInnerPathSteps headerId := by
  obtain ⟨first, hfirst, rfl⟩ := Option.map_eq_some_iff.mp hroot
  obtain ⟨rest, hparents⟩ : ∃ rest, responseMeta.parents = first :: rest := by
    cases hcases : responseMeta.parents with
    | nil => simp [hcases] at hfirst
    | cons head rest =>
        obtain rfl : head = first := by simpa [hcases] using hfirst
        exact ⟨rest, rfl⟩
  unfold verifyInnerPathChain at h
  rw [if_neg (by simp [hsteps, hparents]), hheader] at h
  split_ifs at h with hlen
  have hsteps' : ∃ result, verifySteps web (some headerId) 0 responseMeta.urlInnerPathSteps
      responseMeta.parents none = .ok result := by
    split at h
    · split_ifs at h
      exact ⟨_, h⟩
    · exact ⟨_, h⟩
  obtain ⟨result', hverified⟩ := hsteps'
  obtain ⟨first', rest', hcons, hresolves⟩ :=
    resolvesTo_of_verifySteps hnamed (by omega) hsteps hverified
  rw [hparents] at hcons
  rw [(List.cons.inj hcons).1]
  exact hresolves

/-- Where an inner path is involved, an id in the header outranks every other id that
the server can influence. -/
theorem CyfsResponseMeta.effectiveObjId_of_header {responseMeta : CyfsResponseMeta}
    {headerId : ObjId} (hknown : responseMeta.knownObjId = none)
    (hsteps : responseMeta.urlInnerPathSteps ≠ [])
    (hheader : responseMeta.cyfsHeaders.objId = some headerId) :
    responseMeta.effectiveObjId web = .ok (some headerId) := by
  unfold CyfsResponseMeta.effectiveObjId
  rw [hknown, hheader]
  cases responseMeta.pathObject with
  | none => rfl
  | some path =>
      have hnotEmpty : (responseMeta.urlInnerPathSteps.isEmpty &&
          responseMeta.parents.isEmpty) = false := by
        simp [hsteps]
      simp [hnotEmpty]

/-- What the request fixes of each response to it. -/
theorem CyfsNdnRequestBuilder.responseMeta_of_send {w w₁ w' w₁' : World}
    {response first : CyfsNdnResponse}
    (hfirst : request.send web client w₁ = .ok (first, w₁'))
    (hsend : request.send web client w = .ok (response, w')) :
    response.responseMeta.knownObjId = request.knownObjId ∧
      response.responseMeta.respRaw = first.responseMeta.respRaw ∧
      response.responseMeta.urlInnerPathSteps = first.responseMeta.urlInnerPathSteps ∧
      ParentsNamed web response.responseMeta.parents := by
  obtain ⟨resolvedUrl, _, _, hparse, -, -, -, -, -, hmeta⟩ :=
    CyfsNdnRequestBuilder.send_eq_ok hsend
  obtain ⟨resolvedUrl', _, _, hparse', -, -, -, -, -, hmeta'⟩ :=
    CyfsNdnRequestBuilder.send_eq_ok hfirst
  have hurl : resolvedUrl = resolvedUrl' := Except.ok.inj (hparse.symm.trans hparse')
  subst hurl
  obtain ⟨hknown, -, hsteps, hraw, _, -, -, -, hparents⟩ :=
    CyfsResponseMeta.fromResponse_eq_ok hmeta
  obtain ⟨-, -, hsteps', hraw', -⟩ := CyfsResponseMeta.fromResponse_eq_ok hmeta'
  exact ⟨hknown, hraw.trans hraw'.symm, hsteps.trans hsteps'.symm,
    parentsNamed_of_mapM hparents⟩

/-- A response that carries a proof and passes the check leads to its header id. -/
theorem CyfsNdnResponse.resolvesTo_of_verified {response : CyfsNdnResponse} {root : ObjId}
    {verified : VerifiedObject} {headerId : ObjId}
    (hnamed : ParentsNamed web response.responseMeta.parents)
    (hraw : response.responseMeta.respRaw = false)
    (hsteps : response.responseMeta.urlInnerPathSteps ≠ [])
    (hproof : CarriesProof response root)
    (hheader : response.responseMeta.cyfsHeaders.objId = some headerId)
    (hverified : response.intoVerifiedObject web = .ok verified) :
    ResolvesTo web root response.responseMeta.urlInnerPathSteps headerId := by
  obtain ⟨-, -, hchain⟩ := CyfsNdnResponse.intoVerifiedObject_eq_ok hverified
  obtain ⟨last, hlast⟩ := hchain hraw
  exact CyfsResponseMeta.resolvesTo_of_verifyInnerPathChain hnamed hsteps hproof.2 hheader hlast

/-- The object of a response that carries a proof is proved. -/
theorem CyfsNdnResponse.objectProved (laws : web.Lawful) {response : CyfsNdnResponse}
    {root : ObjId} (hknown : response.responseMeta.knownObjId = none)
    (hnamed : ParentsNamed web response.responseMeta.parents)
    (hraw : response.responseMeta.respRaw = false)
    (hsteps : response.responseMeta.urlInnerPathSteps ≠ [])
    (hproof : CarriesProof response root) : ObjectProved web response root := by
  obtain ⟨headerId, hheader⟩ := Option.isSome_iff_exists.mp hproof.1
  intro objId v hobject
  unfold CyfsNdnResponse.object at hobject
  cases hverified : response.intoVerifiedObject web with
  | error e =>
      rw [hverified] at hobject
      cases hobject
  | ok verified =>
      rw [hverified] at hobject
      obtain ⟨rfl, rfl⟩ := Prod.mk.inj (Except.ok.inj hobject)
      obtain ⟨hid, -, hobjNamed⟩ := response.intoVerifiedObject_of_effective laws
        (CyfsResponseMeta.effectiveObjId_of_header hknown hsteps hheader) hverified
      rw [hid]
      exact ⟨response.resolvesTo_of_verified hnamed hraw hsteps hproof hheader hverified,
        hobjNamed⟩

/-- The content of a response that carries a proof and is not taken for a single chunk
is proved. -/
theorem CyfsNdnResponse.pullProved (laws : web.Lawful) {response : CyfsNdnResponse}
    {root : ObjId} {w : World} (hknown : response.responseMeta.knownObjId = none)
    (hnamed : ParentsNamed web response.responseMeta.parents)
    (hraw : response.responseMeta.respRaw = false)
    (hsteps : response.responseMeta.urlInnerPathSteps ≠ [])
    (hproof : CarriesProof response root) (hchunk : NotRawChunk web response) :
    PullProved web client response root w := by
  obtain ⟨headerId, hheader⟩ := Option.isSome_iff_exists.mp hproof.1
  have heffective : response.responseMeta.effectiveObjId web = .ok (some headerId) :=
    CyfsResponseMeta.effectiveObjId_of_header hknown hsteps hheader
  intro pullMode storeMgr result w' hpull
  obtain ⟨target, descriptor, hdescribe, hpull⟩ := CyfsNdnResponse.pull_eq_ok hpull
  have hnone : descriptor = none := by
    unfold CyfsNdnResponse.describeRawPull CyfsNdnResponse.describeFromObjId at hdescribe
    rw [hraw, if_neg (by simp), hchunk.1,
      CyfsNdnResponse.inferObjId_of_effective heffective] at hdescribe
    dsimp only at hdescribe
    rw [hchunk.2 headerId hheader, if_neg (by simp)] at hdescribe
    exact (Except.ok.inj hdescribe).symm
  subst hnone
  obtain ⟨⟨verified, hverified⟩, hdelivered⟩ :=
    response.pullDescribed_none_delivered laws heffective hpull
  exact ⟨headerId, response.resolvesTo_of_verified hnamed hraw hsteps hproof hheader hverified,
    hdelivered.of_storeMgr⟩

/-! ## Without a proof -/

/-- The server can name any object in the header, with any parents that can be read:
the id in the header is the effective one. -/
theorem exists_unproved (hroots : RootsInnerPath web client request)
    (hknown : request.knownObjId = none) :
    ∃ resolvedUrl root pathObj pathObject, ∀ objId parents resolved body,
      let headers : CyfsHttpRespHeaders := ⟨some objId, none, pathObj, parents, []⟩
      let response := answered request resolvedUrl headers pathObject resolved body
      parents.mapM (ResolvedParent.fromHeader web) = .ok resolved →
        request.send web client (World.answering (.success headers body)) =
            .ok (response, { World.answering (.success headers body) with answers := [] }) ∧
          response.responseMeta.innerPathRoot = some root ∧
          response.responseMeta.respRaw = false ∧
          response.responseMeta.effectiveObjId web = .ok (some objId) := by
  obtain ⟨w, first, w', root, hsend, hraw, hsteps, hroot⟩ := hroots
  obtain ⟨resolvedUrl, _, _, hparse, hcascades, -, -, -, -, hmeta⟩ :=
    CyfsNdnRequestBuilder.send_eq_ok hsend
  obtain ⟨-, hmetaUrl, hmetaSteps, hmetaRaw, read, -, -, hpath, -⟩ :=
    CyfsResponseMeta.fromResponse_eq_ok hmeta
  refine ⟨resolvedUrl, root, read.pathObj, first.responseMeta.pathObject, ?_⟩
  intro objId parents resolved body headers response hparents
  refine ⟨?_, ?_, hmetaRaw.symm.trans hraw, ?_⟩
  · exact CyfsNdnRequestBuilder.send_success hparse hcascades hpath hparents
  · unfold CyfsResponseMeta.innerPathRoot at hroot ⊢
    rw [hmetaUrl] at hroot
    exact hroot
  · refine CyfsResponseMeta.effectiveObjId_of_header hknown ?_ rfl
    rw [hmetaSteps] at hsteps
    exact hsteps

/-- Without parents nothing is checked. -/
theorem CyfsNdnResponse.verifyChainUnlessRaw_of_no_parents {responseMeta : CyfsResponseMeta}
    (hparents : responseMeta.parents = []) :
    CyfsNdnResponse.verifyChainUnlessRaw web responseMeta = .ok none := by
  unfold CyfsNdnResponse.verifyChainUnlessRaw CyfsResponseMeta.verifyInnerPathChain
  simp [hparents]

/-- No request with an inner path is safe for `object`. -/
theorem not_innerPathObjectTrusted (laws : web.Lawful) (hinj : web.Injective)
    (hroots : RootsInnerPath web client request) (hknown : request.knownObjId = none) :
    ¬ InnerPathObjectTrusted web client request := by
  intro htrusted
  obtain ⟨resolvedUrl, root, pathObj, pathObject, hunproved⟩ := exists_unproved hroots hknown
  -- Every file object is passed off as what the path leads to.
  have hall : ∀ content, ResolvesTo web root resolvedUrl.parsed.innerPathSteps
      (plainFileId web content) := by
    intro content
    obtain ⟨hsend, hroot, -, heffective⟩ := hunproved (plainFileId web content) [] []
      (utf8Bytes (web.jcs (plainFile content 0))) rfl
    have hobject := CyfsNdnResponse.object_of_plainFile laws
      (CyfsNdnResponse.verifyChainUnlessRaw_of_no_parents rfl) heffective rfl
    exact (htrusted _ _ _ _ hsend hroot _ _ hobject).1
  have hsame := plainFileId_injective laws hinj ((hall "a").eq laws hinj (hall "b"))
  exact absurd hsame (by decide)

/-- No request with an inner path is safe for `pull`, also not if the response carries a
proof: a chunk is pulled before the proof is looked at. -/
theorem not_innerPathPullTrusted (laws : web.Lawful) (hinj : web.Injective)
    (hrange : request.range = none) (hroots : RootsInnerPath web client request)
    (hknown : request.knownObjId = none) :
    ¬ ∀ w response w' root, request.send web client w = .ok (response, w') →
      response.responseMeta.innerPathRoot = some root → CarriesProof response root →
        PullProved web client response root w' := by
  intro htrusted
  obtain ⟨resolvedUrl, root, pathObj, pathObject, hunproved⟩ := exists_unproved hroots hknown
  -- Every chunk is written as the content of what the path leads to.
  have hall : ∀ bytes : List UInt8, ∃ objId,
      ResolvesTo web root resolvedUrl.parsed.innerPathSteps objId ∧
        ∃ pieces, Content web objId pieces ∧ pieces.bytes = bytes := by
    intro bytes
    let headers : CyfsHttpRespHeaders :=
      ⟨some (sha256Chunk web bytes).toObjId, none, pathObj, [.objId root], []⟩
    let parents : List ResolvedParent := [⟨root, none, none⟩]
    obtain ⟨hsend, hroot, hraw, heffective⟩ :=
      hunproved (sha256Chunk web bytes).toObjId [.objId root] parents bytes rfl
    have hdescribe : (answered request resolvedUrl headers pathObject parents
        bytes).describeRawPull web = .ok (some ⟨sha256Chunk web bytes, [], none⟩) := by
      unfold CyfsNdnResponse.describeRawPull CyfsNdnResponse.describeFromObjId
        CyfsNdnResponse.inferObjId
      rw [hraw, heffective]
      rfl
    obtain ⟨result, w'', hpull, hwritten⟩ := CyfsNdnResponse.pull_localFile client _ none
      { World.answering (.success headers bytes) with answers := [] } hrange rfl rfl heffective
      hdescribe (hashes_sha256Chunk bytes) rfl (fun _ _ => rfl) rfl
    obtain ⟨objId, hresolves, hdelivered⟩ :=
      htrusted _ _ _ _ hsend hroot ⟨rfl, rfl⟩ _ none result w'' hpull
    exact ⟨objId, hresolves, hdelivered.content hwritten⟩
  obtain ⟨objId, hresolves, -⟩ := hall []
  refine not_content_of_all laws hinj objId fun bytes => ?_
  obtain ⟨objId', hresolves', hcontent⟩ := hall bytes
  rw [hresolves.eq laws hinj hresolves']
  exact hcontent

/-- A response that carries the proof is proved from the root, for `pull` unless it is
taken for a single chunk. -/
theorem proved_of_carriesProof (laws : web.Lawful) (hknown : request.knownObjId = none)
    (hroots : RootsInnerPath web client request) {w w' : World} {response : CyfsNdnResponse}
    {root : ObjId} (hsend : request.send web client w = .ok (response, w'))
    (hproof : CarriesProof response root) :
    ObjectProved web response root ∧
      (NotRawChunk web response → PullProved web client response root w') := by
  obtain ⟨w₁, first, w₁', root₁, hfirst, hraw, hsteps, -⟩ := hroots
  obtain ⟨hmetaKnown, hmetaRaw, hmetaSteps, hnamed⟩ :=
    CyfsNdnRequestBuilder.responseMeta_of_send hfirst hsend
  rw [hknown] at hmetaKnown
  rw [hraw] at hmetaRaw
  rw [← hmetaSteps] at hsteps
  exact ⟨response.objectProved laws hmetaKnown hnamed hmetaRaw hsteps hproof,
    response.pullProved laws hmetaKnown hnamed hmetaRaw hsteps hproof⟩

/-- A response is proved from the root if it carries the proof, for `pull` unless it is
taken for a single chunk.  As no server has to send a proof no request is safe for
`object`; one that asks for no range is not safe for `pull`, where the proof alone does not
help. -/
theorem inner_path_proved_only_if_carried (laws : web.Lawful) (hinj : web.Injective)
    (hknown : request.knownObjId = none) (hroots : RootsInnerPath web client request) :
    (∀ w response w' root, request.send web client w = .ok (response, w') →
      response.responseMeta.innerPathRoot = some root → CarriesProof response root →
        ObjectProved web response root ∧
          (NotRawChunk web response → PullProved web client response root w')) ∧
    ¬ InnerPathObjectTrusted web client request ∧
    (request.range = none →
      ¬ InnerPathPullTrusted web client request ∧
      ¬ ∀ w response w' root, request.send web client w = .ok (response, w') →
        response.responseMeta.innerPathRoot = some root → CarriesProof response root →
          PullProved web client response root w') := by
  refine ⟨?_, not_innerPathObjectTrusted laws hinj hroots hknown, fun hrange => ?_⟩
  · intro w response w' root hsend _ hproof
    exact proved_of_carriesProof laws hknown hroots hsend hproof
  · have hpull := not_innerPathPullTrusted laws hinj hrange hroots hknown
    refine ⟨fun htrusted => ?_, hpull⟩
    exact hpull fun w response w' root hsend hroot _ =>
      htrusted w response w' root hsend hroot

end Proof

/-! ## A mirror that answers with another object -/

/-- The content of a file object, asked for by an inner path. -/
def innerPathRequest : CyfsNdnRequestBuilder :=
  CyfsNdnClient.get
    "http://mirror/cyfile:8a504b89e73474f187eedabc92d485861935ad7f2e2e69948e43a160350df100/@/content"

/-- What the client makes of this URL. -/
def innerPathUrl : ResolvedUrl where
  originalUrl := innerPathRequest.url
  transportUrl := innerPathRequest.url
  parsedFull := ⟨some "mirror",
    "/cyfile:8a504b89e73474f187eedabc92d485861935ad7f2e2e69948e43a160350df100/@/content", none,
    "http://"⟩
  parsed :=
    { host := some "mirror"
      urlObjId := some (plainFileId sampleWeb "a")
      rootLocator := "/cyfile:8a504b89e73474f187eedabc92d485861935ad7f2e2e69948e43a160350df100"
      innerPathSteps := ["content"]
      query := none
      respRaw := false }
  locator := some (.pathSegment 0)

theorem innerPathUrl_parse :
    ResolvedUrl.parse sampleWeb innerPathRequest.url innerPathRequest.respRaw =
      .ok innerPathUrl := by
  have hpath : idPath sampleWeb.toCrates (plainFileId sampleWeb "a") (some "content") =
      innerPathUrl.parsedFull.path :=
    idPath_eq_of_texts plainFileId_a_text String.ofList_append.symm String.ofList_append.symm
      String.ofList_append.symm
  exact mirrorUrl_parse_of_id (plainFileId_plainType "a") plainFileId_a_text
    String.ofList_append.symm hpath String.ofList_append.symm

/-- What the client makes of the answer of `mirrorAnswer` to this request. -/
def innerPathResponse : CyfsNdnResponse :=
  answered innerPathRequest innerPathUrl ⟨some (plainFileId sampleWeb "b"), none, none, [], []⟩ none
    [] (utf8Bytes (sampleJcs (plainFile "b" 0)))

theorem innerPathRequest_send :
    innerPathRequest.send sampleWeb strictClient (World.answering mirrorAnswer) =
      .ok (innerPathResponse, { World.answering mirrorAnswer with answers := [] }) :=
  CyfsNdnRequestBuilder.send_success innerPathUrl_parse (by decide) rfl rfl

/-- The content of this file is a text that is no id at all, and yet the client returns
another file. -/
theorem mirror_answers_inner_path :
    innerPathRequest.send sampleWeb strictClient (World.answering mirrorAnswer) =
        .ok (innerPathResponse, { World.answering mirrorAnswer with answers := [] }) ∧
      innerPathResponse.responseMeta.innerPathRoot = some (plainFileId sampleWeb "a") ∧
      innerPathResponse.object sampleWeb = .ok (plainFileId sampleWeb "b", plainFile "b" 0) ∧
      ¬ ResolvesTo sampleWeb (plainFileId sampleWeb "a") ["content"]
        (plainFileId sampleWeb "b") := by
  refine ⟨innerPathRequest_send, rfl,
    CyfsNdnResponse.object_of_plainFile sampleWeb_lawful rfl rfl rfl, ?_⟩
  intro hresolves
  obtain ⟨v, resolved, hnamed, hstep, hid⟩ : Resolves sampleWeb (plainFileId sampleWeb "a")
      "content" (plainFileId sampleWeb "b") := by
    cases hresolves with
    | cons hstep hrest =>
        cases hrest
        exact hstep
  have hjcs := Json.jcs_eq_of_named sampleWeb_injective (plainFileId_objType_ne "a")
    (named_plainFileId "a") hnamed
  obtain ⟨s, rfl, hs⟩ := ObjId.asStr_of_fromValue hid
  unfold resolveInnerPathStep at hstep
  rw [resolveFields_eq_ok] at hstep
  have hcontent : v.descend (stepFields "content") = some (.string "a") :=
    sampleWeb_lawful.descend_of_jcs_eq _ _ hjcs _ _ (by
      have hfields : stepFields "content" = ["content"] := by decide
      rw [hfields]
      rfl)
  rw [hcontent] at hstep
  obtain rfl := Json.string.inj (Option.some.inj hstep)
  have hbad : ObjId.new sampleWeb.toCrates "a" ≠ .ok (plainFileId sampleWeb "b") := by
    decide
  exact hbad hs

/-! ## A server that proves two steps -/

/-- A directory object with one child. -/
def oneChildDir (name childId : String) : Json :=
  .object [("body", .object [(name, .string childId)]), ("create_time", .number (.natural 0)),
    ("file_count", .number (.natural 1)), ("file_size", .number (.natural 0)),
    ("last_update_time", .number (.natural 0)), ("total_size", .number (.natural 0))]

/-- A directory with the file object with the content `a`. -/
def innerDir : Json :=
  oneChildDir "c" "cyfile:8a504b89e73474f187eedabc92d485861935ad7f2e2e69948e43a160350df100"

def innerDirId : ObjId := ⟨"cydir", sha256ChildDir⟩

/-- A directory with this directory. -/
def outerDir : Json :=
  oneChildDir "b" "cydir:9258a2d40e38caf7ab9d052b2ed7b9c9dcb70a130987e69a62df39d2ae26ca4e"

def outerDirId : ObjId := ⟨"cydir", sha256OuterDir⟩

/-- The file, asked for by a path of two steps. -/
def nestedPath : String :=
  "/cydir:90a5f7c83f493e3df465a33c3784b7ad4fc82ec959dd474c437671b80734d79a/@/body/b/@/body/c"

/-- The URL with this path. -/
def nestedUrl : String := "http://mirror" ++ nestedPath

/-- What the client makes of this URL. -/
def nestedResolved : ResolvedUrl where
  originalUrl := nestedUrl
  transportUrl := nestedUrl
  parsedFull := ⟨some "mirror", nestedPath, none, "http://"⟩
  parsed :=
    { host := some "mirror"
      urlObjId := some outerDirId
      rootLocator := "/cydir:90a5f7c83f493e3df465a33c3784b7ad4fc82ec959dd474c437671b80734d79a"
      innerPathSteps := ["body/b", "body/c"]
      query := none
      respRaw := false }
  locator := some (.pathSegment 0)

theorem outerDirId_text : outerDirId.toString sampleWeb.toCrates =
    "cydir:90a5f7c83f493e3df465a33c3784b7ad4fc82ec959dd474c437671b80734d79a" := by
  decide

/-- The path is the one of the outer directory with two steps. -/
theorem nestedPath_eq : nestedPath =
    idPath sampleWeb.toCrates outerDirId (some "body/b/@/body/c") :=
  (idPath_eq_of_texts outerDirId_text String.ofList_append.symm String.ofList_append.symm
    String.ofList_append.symm).symm

theorem nestedUrl_parse : ResolvedUrl.parse sampleWeb nestedUrl false = .ok nestedResolved := by
  have hsegments : innerPathSteps (innerSegments (some "body/b/@/body/c")) =
      ["body/b", "body/c"] := by
    decide
  have hparse := mirrorUrl_parse_of_id (show PlainType outerDirId by decide) outerDirId_text
    String.ofList_append.symm nestedPath_eq.symm rfl
  rw [hsegments] at hparse
  exact hparse

/-- The headers with the proof: both directories, and the id of the file. -/
def nestedHeaders : CyfsHttpRespHeaders :=
  ⟨some (plainFileId sampleWeb "a"), none, none,
    [.json (sampleJcs outerDir), .json (sampleJcs innerDir)], []⟩

/-- What the client makes of these parents. -/
def nestedParents : List ResolvedParent :=
  [⟨outerDirId, some (sampleJcs outerDir), some outerDir⟩,
    ⟨innerDirId, some (sampleJcs innerDir), some innerDir⟩]

/-- The client guesses that an object with a total size is a directory. -/
theorem recompute_oneChildDir (name childId : String) :
    recomputeParentObjId sampleWeb (oneChildDir name childId) =
      .ok (buildNamedObjectByJson sampleWeb "cydir" (oneChildDir name childId)).1 := by
  unfold recomputeParentObjId
  rw [if_neg (by simp [oneChildDir, Json.isArray]), if_neg (by simp [oneChildDir, Json.get]),
    if_pos (by simp [oneChildDir, Json.get])]

theorem nestedDirs_ids :
    (buildNamedObjectByJson sampleWeb "cydir" outerDir).1 = outerDirId ∧
      (buildNamedObjectByJson sampleWeb "cydir" innerDir).1 = innerDirId := by
  decide +kernel

theorem recompute_nestedDirs :
    recomputeParentObjId sampleWeb outerDir = .ok outerDirId ∧
      recomputeParentObjId sampleWeb innerDir = .ok innerDirId := by
  rw [← nestedDirs_ids.1, ← nestedDirs_ids.2]
  exact ⟨recompute_oneChildDir _ _, recompute_oneChildDir _ _⟩

theorem nestedHeaders_parents :
    nestedHeaders.parents.mapM (ResolvedParent.fromHeader sampleWeb) = .ok nestedParents := by
  have hread : ∀ v objId, recomputeParentObjId sampleWeb v = .ok objId →
      ResolvedParent.fromHeader sampleWeb (.json (sampleJcs v)) =
        .ok ⟨objId, some (sampleJcs v), some v⟩ := by
    intro v objId hid
    have hparse : sampleWeb.jsonParse (sampleJcs v) = some v := sampleJsonParse_sampleJcs v
    unfold ResolvedParent.fromHeader
    dsimp only
    rw [hparse]
    dsimp only
    rw [hid]
  unfold nestedHeaders
  simp only [List.mapM_cons, List.mapM_nil, hread _ _ recompute_nestedDirs.1,
    hread _ _ recompute_nestedDirs.2]
  rfl

/-- What the client makes of the answer with these headers and the file. -/
def nestedResponse : CyfsNdnResponse :=
  answered (CyfsNdnClient.get nestedUrl) nestedResolved nestedHeaders none nestedParents
    (utf8Bytes (sampleJcs (plainFile "a" 0)))

/-- The server proves the way through both directories and the client returns the file; yet
the request is not safe. -/
theorem nestedUrl_proved_only_if_carried :
    let request := CyfsNdnClient.get nestedUrl
    (∃ w w', request.send sampleWeb strictClient w = .ok (nestedResponse, w') ∧
      CarriesProof nestedResponse outerDirId ∧
      nestedResponse.object sampleWeb = .ok (plainFileId sampleWeb "a", plainFile "a" 0) ∧
      ResolvesTo sampleWeb outerDirId ["body/b", "body/c"] (plainFileId sampleWeb "a")) ∧
    ¬ InnerPathObjectTrusted sampleWeb strictClient request ∧
    ¬ InnerPathPullTrusted sampleWeb strictClient request := by
  intro request
  let answer := CyfsTransportResponse.success nestedHeaders
    (utf8Bytes (sampleJcs (plainFile "a" 0)))
  have hsend : request.send sampleWeb strictClient (World.answering answer) =
      .ok (nestedResponse, { World.answering answer with answers := [] }) :=
    CyfsNdnRequestBuilder.send_success nestedUrl_parse (by decide) rfl nestedHeaders_parents
  have hroots : RootsInnerPath sampleWeb strictClient request :=
    ⟨_, _, _, outerDirId, hsend, rfl, by decide, rfl⟩
  obtain ⟨hproved, hobject, hpull⟩ := inner_path_proved_only_if_carried sampleWeb_lawful
    sampleWeb_injective rfl hroots
  have hchain : CyfsNdnResponse.verifyChainUnlessRaw sampleWeb nestedResponse.responseMeta =
      .ok (some (plainFileId sampleWeb "a")) := by
    decide
  have hfound : nestedResponse.object sampleWeb =
      .ok (plainFileId sampleWeb "a", plainFile "a" 0) :=
    CyfsNdnResponse.object_of_named sampleWeb_lawful hchain rfl rfl
      (sampleWeb_lawful.jsonParse_jcs_plainFile "a" 0 (by norm_num)) (named_plainFileId "a")
  have hcarries : CarriesProof nestedResponse outerDirId := ⟨rfl, rfl⟩
  have hresolves := (hproved _ _ _ _ hsend rfl hcarries).1 _ _ hfound
  exact ⟨⟨_, _, hsend, hcarries, hfound, hresolves.1⟩, hobject, (hpull rfl).1⟩

end NdnToolkit
end CyfsNdn

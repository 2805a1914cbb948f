import CyfsNdn.Collections.Traverse
import CyfsNdn.NdnToolkit.Pull

/-!
# What the calls of the client do

One lemma for each call: what it returns, and what it puts where.  `Delivers` says
that a call has written the bytes of some chunks to the local file, or has put them
into the store, each under its own hash.
-/

namespace CyfsNdn
namespace NdnToolkit

open NdnLib NamedStore Collections Exchange

variable {web : WebCrates} {client : CyfsNdnClient}

/-! ## Requests -/

/-- What `from_response` makes of a response. -/
theorem CyfsResponseMeta.fromResponse_eq_ok {resolvedUrl : ResolvedUrl}
    {knownObjId : Option ObjId} {respRaw : Bool} {headers : NdnResult CyfsHttpRespHeaders}
    {contentLength : Option UInt64} {pathVerifier : PathObjectVerifier}
    {responseMeta : CyfsResponseMeta}
    (h : CyfsResponseMeta.fromResponse web resolvedUrl knownObjId respRaw headers contentLength
      pathVerifier = .ok responseMeta) :
    responseMeta.knownObjId = knownObjId ∧
      responseMeta.urlObjId = resolvedUrl.parsed.urlObjId ∧
      responseMeta.urlInnerPathSteps = resolvedUrl.parsed.innerPathSteps ∧
      responseMeta.respRaw = respRaw ∧
      ∃ read, headers = .ok read ∧ responseMeta.cyfsHeaders.objId = read.objId ∧
        verifyPathObject pathVerifier resolvedUrl respRaw read =
          .ok responseMeta.pathObject ∧
        read.parents.mapM (ResolvedParent.fromHeader web) = .ok responseMeta.parents := by
  unfold CyfsResponseMeta.fromResponse at h
  simp only [except_bind_eq_ok, except_pure_eq_ok] at h
  obtain ⟨read, hread, pathObject, hpath, parents, hparents, rfl⟩ := h
  exact ⟨rfl, rfl, rfl, rfl, read, hread, rfl, hpath, hparents⟩

/-- What `send` does: it takes the next answer of the server and reads its headers. -/
theorem CyfsNdnRequestBuilder.send_eq_ok {request : CyfsNdnRequestBuilder}
    {w w' : World} {response : CyfsNdnResponse}
    (h : request.send web client w = .ok (response, w')) :
    ∃ resolvedUrl answer rest,
      ResolvedUrl.parse web request.url request.respRaw = .ok resolvedUrl ∧
      request.cascades.length ≤ cyfsCascadesMaxLen ∧
      w.answers = .ok answer :: rest ∧ w' = { w with answers := rest } ∧
      response.request = ⟨resolvedUrl, request.progressCallback, request.range⟩ ∧
      response.body = answer.body ∧
      CyfsResponseMeta.fromResponse web resolvedUrl request.knownObjId
        (request.respRaw || resolvedUrl.parsed.respRaw) answer.headers answer.contentLength
        client.pathVerifier = .ok response.responseMeta := by
  unfold CyfsNdnRequestBuilder.send at h
  simp only [bind_eq_ok, lift_eq_ok, pure_eq_ok, Prod.mk.injEq] at h
  obtain ⟨_, w₁, ⟨hcascades, rfl⟩, resolvedUrl, w₂, ⟨hparse, rfl⟩, answer, w₃, hsend, _, w₄,
    ⟨-, rfl⟩, responseMeta, w₅, ⟨hmeta, rfl⟩, rfl, rfl⟩ := h
  unfold transportSend at hsend
  split at hsend
  · cases hsend
  · cases hsend
  · next response answers hanswers =>
    have hpair := Prod.mk.inj (Except.ok.inj hsend)
    obtain ⟨rfl, rfl⟩ := hpair
    refine ⟨resolvedUrl, _, answers, hparse, ?_, hanswers, rfl, rfl, rfl, hmeta⟩
    by_contra hmany
    rw [if_pos (by omega)] at hcascades
    cases hcascades

/-- A request is answered by the first answer of the server, if its headers can be
read. -/
theorem CyfsNdnRequestBuilder.send_of_fromResponse {request : CyfsNdnRequestBuilder} {w : World}
    {resolvedUrl : ResolvedUrl} {answer : CyfsTransportResponse}
    {rest : List (NdnResult CyfsTransportResponse)} {responseMeta : CyfsResponseMeta}
    (hparse : ResolvedUrl.parse web request.url request.respRaw = .ok resolvedUrl)
    (hcascades : request.cascades.length ≤ cyfsCascadesMaxLen)
    (hanswers : w.answers = .ok answer :: rest)
    (hstatus : 200 ≤ answer.status ∧ answer.status < 300)
    (hmeta : CyfsResponseMeta.fromResponse web resolvedUrl request.knownObjId
      (request.respRaw || resolvedUrl.parsed.respRaw) answer.headers answer.contentLength
      client.pathVerifier = .ok responseMeta) :
    request.send web client w =
      .ok (⟨⟨resolvedUrl, request.progressCallback, request.range⟩, responseMeta, answer.status,
        answer.body⟩, { w with answers := rest }) := by
  unfold CyfsNdnRequestBuilder.send
  simp only [bind_eq_ok, lift_eq_ok, pure_eq_ok]
  refine ⟨(), _, ⟨?_, rfl⟩, resolvedUrl, _, ⟨hparse, rfl⟩, answer, { w with answers := rest }, ?_,
    (), _, ⟨?_, rfl⟩, _, _, ⟨hmeta, rfl⟩, rfl⟩
  · rw [if_neg (by omega)]
  · unfold transportSend
    rw [hanswers]
  · rw [if_pos hstatus]

/-! ## Verified objects -/

/-- A list that was made from its chunks is made from them again. -/
theorem ChunkList.fromChunkList_body {crates : Crates} {chunks : List ChunkId}
    {list : ChunkList} (h : ChunkList.fromChunkList crates chunks = .ok list) :
    ChunkList.fromChunkList crates list.body = .ok list := by
  have hbody : list.body = chunks := by
    unfold ChunkList.fromChunkList at h
    split at h
    · cases h
    · cases h
      rfl
  rw [hbody]
  exact h

/-- The chunks of a list that was read from a value carry their lengths. -/
theorem ChunkList.fromChunkList_of_fromJsonValue {v : Json} {list : ChunkList}
    (h : ChunkList.fromJsonValue web v = .ok list) :
    ChunkList.fromChunkList web.toCrates list.body = .ok list := by
  unfold ChunkList.fromJsonValue at h
  split at h
  · cases h
  · split at h
    · cases h
    · exact ChunkList.fromChunkList_body h

/-- A body that passes is the object that the id names. -/
theorem verifyBody_eq_ok (laws : web.Lawful) {objId : ObjId} {objStr : String} {v : Json}
    (h : verifyBody web objId objStr = .ok v) :
    web.jsonParse objStr = some v ∧ v.Named web objId := by
  unfold verifyBody at h
  unfold Json.Named
  by_cases htype : objId.objType = "clist"
  · rw [if_pos htype] at h ⊢
    split at h
    · cases h
    next chunkList hread =>
    split at h
    · cases h
    next clone hclone =>
    split_ifs at h with hid
    split at h
    · cases h
    next objJson hparse =>
    obtain rfl := Except.ok.inj h
    rw [ChunkList.fromJson_eq laws hparse] at hread
    rw [ChunkList.fromChunkList_of_fromJsonValue hread] at hclone
    obtain rfl := Except.ok.inj hclone
    exact ⟨hparse, chunkList, hread, not_not.mp hid⟩
  · rw [if_neg htype] at h ⊢
    unfold verifyNamedObjectFromStr at h
    split at h
    · cases h
    next objJson hparse =>
    split_ifs at h with hverified
    obtain rfl := Except.ok.inj h
    exact ⟨hparse, by simpa [verifyNamedObject] using hverified⟩

/-- A body that is the object of the id passes. -/
theorem verifyBody_of_named (laws : web.Lawful) {objId : ObjId} {objStr : String} {v : Json}
    (hparse : web.jsonParse objStr = some v) (hnamed : v.Named web objId) :
    verifyBody web objId objStr = .ok v := by
  unfold verifyBody
  unfold Json.Named at hnamed
  by_cases htype : objId.objType = "clist"
  · rw [if_pos htype] at hnamed ⊢
    obtain ⟨list, hread, hid⟩ := hnamed
    rw [ChunkList.fromJson_eq laws hparse, hread]
    dsimp only
    rw [ChunkList.fromChunkList_of_fromJsonValue hread]
    dsimp only
    rw [if_neg (not_not.mpr hid), hparse]
  · rw [if_neg htype] at hnamed ⊢
    unfold verifyNamedObjectFromStr verifyNamedObject
    rw [hparse]
    dsimp only
    rw [if_pos (by simpa using hnamed)]

/-- What `into_verified_object` returns was checked against the effective id. -/
theorem CyfsNdnResponse.intoVerifiedObject_eq_ok {response : CyfsNdnResponse}
    {verified : VerifiedObject} (h : response.intoVerifiedObject web = .ok verified) :
    response.responseMeta.effectiveObjId web = .ok (some verified.objId) ∧
      verifyBody web verified.objId verified.objStr = .ok verified.objJson ∧
      (response.responseMeta.respRaw = false →
        ∃ last, response.responseMeta.verifyInnerPathChain web = .ok last) := by
  unfold CyfsNdnResponse.intoVerifiedObject at h
  simp only [except_bind_eq_ok, except_pure_eq_ok] at h
  obtain ⟨last, hchain, effective, heffective, raw, -, objStr, -, objId, hobjId, objJson, hbody,
    rfl⟩ := h
  refine ⟨?_, hbody, fun hraw => ?_⟩
  · cases effective with
    | none => cases hobjId
    | some id =>
        obtain rfl := Except.ok.inj hobjId
        exact heffective
  · unfold verifyChainUnlessRaw at hchain
    rw [hraw, if_neg (by simp)] at hchain
    exact ⟨last, hchain⟩

/-- `object` returns what the effective id names, if the body is this object. -/
theorem CyfsNdnResponse.object_of_named (laws : web.Lawful) {response : CyfsNdnResponse}
    {objId : ObjId} {objStr : String} {v : Json} {last : Option ObjId}
    (hchain : CyfsNdnResponse.verifyChainUnlessRaw web response.responseMeta = .ok last)
    (heffective : response.responseMeta.effectiveObjId web = .ok (some objId))
    (hbody : response.body = ChunkSource.ofBytes (utf8Bytes objStr))
    (hparse : web.jsonParse objStr = some v) (hnamed : v.Named web objId) :
    response.object web = .ok (objId, v) := by
  have hverified : response.intoVerifiedObject web = .ok ⟨objId, v, objStr⟩ := by
    unfold CyfsNdnResponse.intoVerifiedObject
    simp only [except_bind_eq_ok, except_pure_eq_ok]
    refine ⟨last, hchain, _, heffective, utf8Bytes objStr, ?_, _, ?_, _, rfl, _,
      verifyBody_of_named laws hparse hnamed, rfl⟩
    · rw [hbody]
      rfl
    · unfold CyfsNdnResponse.decodeBody
      rw [stringFromUtf8_utf8Bytes]
  unfold CyfsNdnResponse.object
  rw [hverified]
  rfl

/-- An id of the caller is the effective one. -/
theorem CyfsResponseMeta.effectiveObjId_of_known {responseMeta : CyfsResponseMeta}
    {objId : ObjId} (h : responseMeta.knownObjId = some objId) :
    responseMeta.effectiveObjId web = .ok (some objId) := by
  unfold CyfsResponseMeta.effectiveObjId
  rw [h]

/-! ## What is put where -/

/-- Neither the file nor the record of the store changes. -/
def World.SameData (w w' : World) : Prop :=
  w'.written = w.written ∧ w'.puts = w.puts

theorem World.SameData.refl (w : World) : w.SameData w := ⟨rfl, rfl⟩

theorem World.SameData.trans {w w' w'' : World} (h : w.SameData w') (h' : w'.SameData w'') :
    w.SameData w'' :=
  ⟨h'.1.trans h.1, h'.2.trans h.2⟩

/-- The chunks were written to the file, or the store took them; each with bytes that
have its hash. -/
def Delivers (web : WebCrates) (pullMode : StoreMode) (chunks : List ChunkId)
    (w w' : World) : Prop :=
  match pullMode with
  | .localFile _ _ _ =>
      ∃ pieces : Pieces, pieces.map Prod.fst = chunks ∧ pieces.Hash web.toCrates ∧
        w'.written = w.written ++ pieces.bytes ∧ w'.puts = w.puts
  | .storeInNamedMgr =>
      ∃ puts : List (ChunkId × Option (List UInt8)), puts.map Prod.fst = chunks ∧
        (∀ put ∈ puts, ∀ bytes, put.2 = some bytes → put.1.Hashes web.toCrates bytes) ∧
        w'.written = w.written ∧ w'.puts = w.puts ++ puts
  | .noStore => w.SameData w'

theorem Delivers.nil {pullMode : StoreMode} {w w' : World} (h : w.SameData w') :
    Delivers web pullMode [] w w' := by
  cases pullMode with
  | localFile path range needPullToNamedMgr =>
      exact ⟨[], rfl, by simp [Pieces.Hash], by simp [h.1, Pieces.bytes], h.2⟩
  | storeInNamedMgr => exact ⟨[], rfl, by simp, h.1, by simp [h.2]⟩
  | noStore => exact h

theorem Delivers.append {pullMode : StoreMode} {chunks chunks' : List ChunkId}
    {w w' w'' : World} (h : Delivers web pullMode chunks w w')
    (h' : Delivers web pullMode chunks' w' w'') :
    Delivers web pullMode (chunks ++ chunks') w w'' := by
  cases pullMode with
  | localFile path range needPullToNamedMgr =>
      obtain ⟨pieces, hfst, hhash, hwritten, hputs⟩ := h
      obtain ⟨pieces', hfst', hhash', hwritten', hputs'⟩ := h'
      refine ⟨pieces ++ pieces', by rw [List.map_append, hfst, hfst'], ?_, ?_,
        hputs'.trans hputs⟩
      · intro piece hpiece
        rcases List.mem_append.mp hpiece with hleft | hright
        · exact hhash piece hleft
        · exact hhash' piece hright
      · rw [hwritten', hwritten]
        simp [Pieces.bytes]
  | storeInNamedMgr =>
      obtain ⟨puts, hfst, hhash, hwritten, hputs⟩ := h
      obtain ⟨puts', hfst', hhash', hwritten', hputs'⟩ := h'
      refine ⟨puts ++ puts', by rw [List.map_append, hfst, hfst'], ?_, hwritten'.trans hwritten,
        by rw [hputs', hputs, List.append_assoc]⟩
      intro put hput
      rcases List.mem_append.mp hput with hleft | hright
      · exact hhash put hleft
      · exact hhash' put hright
  | noStore => exact World.SameData.trans h h'

/-- Calls before and after that put nothing anywhere do not matter. -/
theorem Delivers.of_sameData {pullMode : StoreMode} {chunks : List ChunkId}
    {w w₁ w₂ w' : World} (hbefore : w.SameData w₁) (h : Delivers web pullMode chunks w₁ w₂)
    (hafter : w₂.SameData w') : Delivers web pullMode chunks w w' := by
  have := ((Delivers.nil hbefore).append h).append (Delivers.nil hafter)
  simpa using this

theorem sameData_of_send {request : CyfsNdnRequestBuilder} {w w' : World}
    {response : CyfsNdnResponse} (h : request.send web client w = .ok (response, w')) :
    w.SameData w' := by
  obtain ⟨-, -, rest, -, -, -, rfl, -⟩ := CyfsNdnRequestBuilder.send_eq_ok h
  exact ⟨rfl, rfl⟩

theorem sameData_of_callProgressCallback {progressCallback : Bool} {innerPath : String}
    {action : NdnAction} {w : World} {r : Unit × World}
    (h : callProgressCallback progressCallback innerPath action w = .ok r) : r.2 = w := by
  unfold callProgressCallback at h
  split_ifs at h
  · split at h
    · cases h
    · cases h
      rfl
    · cases h
  · cases h
    rfl

/-- A call of the store manager changes the manager only. -/
theorem onStoreMgr_eq_ok {α : Type} {call : NamedDataMgr → NamedDataMgr × NdnResult α}
    {w : World} {r : α × World} (h : onStoreMgr call w = .ok r) :
    ∃ mgr, w.storeMgr = some mgr ∧ (call mgr).2 = .ok r.1 ∧
      r.2 = { w with storeMgr := some (call mgr).1 } := by
  unfold onStoreMgr at h
  split at h
  · cases h
  next mgr hmgr =>
  cases hcall : call mgr with
  | mk mgr' result =>
      rw [hcall] at h
      cases result with
      | error e => cases h
      | ok a =>
          obtain rfl := Except.ok.inj h
          exact ⟨mgr, hmgr, by rw [hcall], by rw [hcall]⟩

theorem sameData_of_onStoreMgr {α : Type} {call : NamedDataMgr → NamedDataMgr × NdnResult α}
    {w : World} {r : α × World} (h : onStoreMgr call w = .ok r) : w.SameData r.2 := by
  obtain ⟨mgr, -, -, hr⟩ := onStoreMgr_eq_ok h
  rw [hr]
  exact ⟨rfl, rfl⟩

/-- Putting objects changes the manager only. -/
theorem putObjects_world {items : List KnownObjectToStore} {w : World} {r : List ObjId × World}
    (h : putObjects web items w = .ok r) : ∃ mgr, r.2 = { w with storeMgr := mgr } := by
  induction items generalizing w r with
  | nil =>
      rw [putObjects, pure_eq_ok] at h
      exact ⟨w.storeMgr, by rw [h]⟩
  | cons item rest ih =>
      rw [putObjects, bind_eq_ok] at h
      obtain ⟨w₀, w₁, hget, h⟩ := h
      obtain ⟨rfl, rfl⟩ := Prod.mk.inj (Except.ok.inj hget)
      split_ifs at h
      · rw [pure_eq_ok] at h
        exact ⟨w.storeMgr, by rw [h]⟩
      · simp only [bind_eq_ok, pure_eq_ok] at h
        obtain ⟨_, w₂, hput, stored, w₃, hrest, rfl⟩ := h
        obtain ⟨mgr, -, -, hw₂⟩ := onStoreMgr_eq_ok hput
        obtain ⟨mgr', hw₃⟩ := ih hrest
        dsimp only at hw₂ hw₃
        exact ⟨mgr', by rw [hw₃, hw₂]⟩

theorem sameData_of_putObjects {items : List KnownObjectToStore} {w : World}
    {r : List ObjId × World} (h : putObjects web items w = .ok r) : w.SameData r.2 := by
  obtain ⟨mgr, hr⟩ := putObjects_world h
  rw [hr]
  exact ⟨rfl, rfl⟩

theorem sameData_of_linkChunk {path : String} {start : Nat} {chunkId : ChunkId}
    {range : Nat × Nat} {w : World} {r : Unit × World}
    (h : linkChunk web path start chunkId range w = .ok r) : w.SameData r.2 := by
  unfold linkChunk at h
  simp only [bind_eq_ok, lift_eq_ok] at h
  obtain ⟨w₀, w₁, hget, qcid, w₂, ⟨-, hw⟩, h⟩ := h
  obtain ⟨rfl, rfl⟩ := Prod.mk.inj (Except.ok.inj hget)
  obtain rfl : w₂ = w := hw
  exact sameData_of_onStoreMgr h

theorem sameData_of_linkChunks {path : String} {start : Nat}
    {links : List (ChunkId × Nat × Nat)} {w : World} {r : Unit × World}
    (h : linkChunks web path start links w = .ok r) : w.SameData r.2 := by
  induction links generalizing w with
  | nil =>
      rw [linkChunks, pure_eq_ok] at h
      rw [h]
      exact World.SameData.refl w
  | cons link rest ih =>
      rw [linkChunks, bind_eq_ok] at h
      obtain ⟨_, w₁, hlink, h⟩ := h
      exact (sameData_of_linkChunk hlink).trans (ih h)

theorem openLocalWriter_eq_ok {w : World} {r : Unit × World} (h : openLocalWriter w = .ok r) :
    r.2 = w := by
  unfold openLocalWriter at h
  split at h
  · cases h
  · cases h
    rfl

/-! ## Chunks -/

/-- What the manager writes has the hash of the chunk. -/
theorem hashes_of_putChunkByReader {crates : Crates} {mgr : NamedDataMgr} {now : Nat}
    {chunkId : ChunkId} {chunkSize : Nat} {reader : ChunkSource}
    (h : (mgr.putChunkByReader crates now chunkId chunkSize reader).2 = .ok .written) :
    chunkId.Hashes crates reader.bytes := by
  unfold NamedDataMgr.putChunkByReader at h
  split at h
  · cases h
  next storeId store hselect =>
  dsimp only at h
  unfold NamedStore.NamedStore.putChunkByReader at h
  split at h
  · cases h
  split_ifs at h with hsize
  · cases h
  · rcases LocalFsBackend.openChunkWriter_cases crates store.backend none chunkId chunkSize
      reader with ⟨-, hne, -⟩ | ⟨-, -, -, hhashes, -⟩
    · split at h
      · cases h
      · cases h
      · next backend hopen =>
        rw [hopen] at hne
        exact absurd rfl hne
    · exact hhashes

/-- The store takes a chunk only with bytes that have its hash. -/
theorem putChunkIntoStore_delivers {chunkId : ChunkId} {chunkSize : Nat}
    {reader : ChunkSource} {w : World} {r : Unit × World}
    (h : putChunkIntoStore web chunkId chunkSize reader w = .ok r) :
    Delivers web .storeInNamedMgr [chunkId] w r.2 := by
  unfold putChunkIntoStore at h
  simp only [bind_eq_ok] at h
  obtain ⟨w₀, w₁, hget, outcome, w₂, hput, hmodify⟩ := h
  obtain ⟨rfl, rfl⟩ := Prod.mk.inj (Except.ok.inj hget)
  obtain rfl := Except.ok.inj hmodify
  obtain ⟨mgr, -, hcall, hw₂⟩ := onStoreMgr_eq_ok hput
  dsimp only at hcall hw₂
  subst hw₂
  refine ⟨[(chunkId, if outcome = .written then some reader.bytes else none)], rfl, ?_, rfl,
    rfl⟩
  intro put hmem bytes hbytes
  rw [List.mem_singleton] at hmem
  subst hmem
  dsimp only at hbytes
  split_ifs at hbytes with houtcome
  subst houtcome
  obtain rfl := Option.some.inj hbytes
  exact hashes_of_putChunkByReader hcall

theorem hashes_of_verifyChunkBytes {crates : Crates} {chunkId : ChunkId} {bytes : List UInt8}
    (h : verifyChunkBytes crates chunkId bytes = .ok ()) : chunkId.Hashes crates bytes := by
  unfold verifyChunkBytes at h
  split at h
  · cases h
  next calcChunkId hcalc =>
  split_ifs at h with hne
  unfold ChunkId.Hashes
  rw [hcalc, not_not.mp hne]

theorem hashes_of_copyChunk {chunkId : ChunkId} {body : ChunkSource} {bytes : List UInt8}
    (h : copyChunk web chunkId body = .ok bytes) : chunkId.Hashes web.toCrates bytes := by
  unfold copyChunk at h
  split at h
  · cases h
  next read hread =>
  split at h
  · cases h
  next calcChunkId hcalc =>
  split_ifs at h with hne
  obtain rfl := Except.ok.inj h
  unfold ChunkId.Hashes
  rw [hcalc, not_not.mp hne]

/-- One chunk written to the file. -/
theorem writeAll_delivers {path : String} {range : Nat × Nat} {needPullToNamedMgr : Bool}
    {chunkId : ChunkId} {bytes : List UInt8} {w : World} {r : Unit × World}
    (hhashes : chunkId.Hashes web.toCrates bytes) (h : writeAll bytes w = .ok r) :
    Delivers web (.localFile path range needPullToNamedMgr) [chunkId] w r.2 := by
  obtain rfl := Except.ok.inj h
  refine ⟨[(chunkId, bytes)], rfl, ?_, ?_, rfl⟩
  · intro piece hpiece
    rw [List.mem_singleton] at hpiece
    subst hpiece
    exact hhashes
  · simp [Pieces.bytes]

theorem sameData_of_reportFile {progressCallback : Bool} {originalUrl : String}
    {fileAction : Option NdnAction} {w : World} {r : Unit × World}
    (h : reportFile progressCallback originalUrl fileAction w = .ok r) : r.2 = w := by
  cases fileAction with
  | none =>
      rw [reportFile, pure_eq_ok] at h
      rw [h]
  | some action => exact sameData_of_callProgressCallback h

/-- A request without a range delivers the chunk that it is told to pull. -/
theorem consumeRawChunk_delivers {response : CyfsNdnResponse} {chunkId : ChunkId}
    {fileAction : Option NdnAction} {pullMode : StoreMode} {w : World} {r : Nat × World}
    (hrange : response.request.range = none)
    (h : consumeRawChunk web response chunkId fileAction pullMode w = .ok r) :
    Delivers web pullMode [chunkId] w r.2 := by
  cases pullMode with
  | storeInNamedMgr =>
      unfold consumeRawChunk storeRawChunk at h
      simp only [bind_eq_ok, lift_eq_ok, pure_eq_ok] at h
      obtain ⟨_, w₁, ⟨-, rfl⟩, _, w₂, hput, _, w₃, hprogress, _, w₄, hreport, rfl⟩ := h
      obtain rfl : w₃ = w₂ := sameData_of_callProgressCallback hprogress
      obtain rfl : w₄ = w₃ := sameData_of_reportFile hreport
      exact putChunkIntoStore_delivers hput
  | localFile path range needPullToNamedMgr =>
      unfold consumeRawChunk saveRawChunk copyBody at h
      rw [hrange] at h
      simp only [bind_eq_ok, lift_eq_ok, pure_eq_ok] at h
      obtain ⟨_, w₁, hopen, bytes, w₂, ⟨hcopy, rfl⟩, _, w₃, hwrite, _, w₄, hlink, _, w₅,
        hprogress, _, w₆, hreport, rfl⟩ := h
      obtain rfl : w₂ = w := openLocalWriter_eq_ok hopen
      obtain rfl : w₅ = w₄ := sameData_of_callProgressCallback hprogress
      obtain rfl : w₆ = w₅ := sameData_of_reportFile hreport
      have hafter : w₃.SameData w₆ := by
        split_ifs at hlink
        · exact sameData_of_linkChunk hlink
        · rw [pure_eq_ok] at hlink
          obtain ⟨-, rfl⟩ := Prod.mk.inj hlink
          exact World.SameData.refl _
      have hhashes := hashes_of_copyChunk hcopy
      exact (writeAll_delivers hhashes hwrite).of_sameData (World.SameData.refl _) hafter
  | noStore =>
      unfold consumeRawChunk dropRawChunk at h
      simp only [bind_eq_ok, lift_eq_ok, pure_eq_ok] at h
      obtain ⟨bytes, w₁, ⟨-, rfl⟩, _, w₂, hprogress, rfl⟩ := h
      obtain rfl : w₂ = w₁ := sameData_of_callProgressCallback hprogress
      exact World.SameData.refl _

/-- `pull_raw_chunk` of a request without a range delivers the chunk. -/
theorem CyfsNdnResponse.pullRawChunk_delivers {response : CyfsNdnResponse} {chunkId : ChunkId}
    {pullMode : StoreMode} {metadataToStore : List KnownObjectToStore}
    {fileAction : Option NdnAction} {w : World} {r : CyfsPullResult × World}
    (hrange : response.request.range = none)
    (h : response.pullRawChunk web chunkId pullMode metadataToStore fileAction w = .ok r) :
    Delivers web pullMode [chunkId] w r.2 := by
  unfold CyfsNdnResponse.pullRawChunk at h
  simp only [bind_eq_ok, lift_eq_ok, pure_eq_ok] at h
  obtain ⟨effective, w₁, ⟨-, rfl⟩, stored, w₂, hput, size, w₃, hconsume, rfl⟩ := h
  exact (consumeRawChunk_delivers hrange hconsume).of_sameData (sameData_of_putObjects hput)
    (World.SameData.refl _)

/-! ## Chunk lists and files -/

theorem CyfsNdnClient.sendRelated_eq_ok {base : ResolvedUrl} {objId : ObjId}
    {progressCallback : Bool} {w w' : World} {response : CyfsNdnResponse}
    (h : client.sendRelated web base objId progressCallback w = .ok (response, w')) :
    response.responseMeta.knownObjId = some objId ∧ response.request.range = none ∧
      w.SameData w' := by
  unfold CyfsNdnClient.sendRelated at h
  simp only [bind_eq_ok, lift_eq_ok] at h
  obtain ⟨url, w₁, ⟨-, rfl⟩, hsend⟩ := h
  obtain ⟨resolvedUrl, answer, rest, -, -, -, -, hrequest, -, hmeta⟩ :=
    CyfsNdnRequestBuilder.send_eq_ok hsend
  refine ⟨(CyfsResponseMeta.fromResponse_eq_ok hmeta).1, ?_, sameData_of_send hsend⟩
  rw [hrequest]
  rfl

/-- An object that is fetched by its id is this object. -/
theorem CyfsNdnClient.fetchVerifiedObjectById_eq_ok (laws : web.Lawful) {base : ResolvedUrl}
    {objId : ObjId} {w w' : World} {verified : VerifiedObject}
    (h : client.fetchVerifiedObjectById web base objId w = .ok (verified, w')) :
    verified.objId = objId ∧ verified.objJson.Named web objId ∧ w.SameData w' := by
  unfold CyfsNdnClient.fetchVerifiedObjectById at h
  simp only [bind_eq_ok, lift_eq_ok] at h
  obtain ⟨response, w₁, hsend, hverified, hw⟩ := h
  obtain rfl : w' = w₁ := hw
  obtain ⟨hknown, -, hdata⟩ := CyfsNdnClient.sendRelated_eq_ok hsend
  obtain ⟨heffective, hbody, -⟩ := CyfsNdnResponse.intoVerifiedObject_eq_ok hverified
  rw [CyfsResponseMeta.effectiveObjId_of_known hknown] at heffective
  have hid : objId = verified.objId := Option.some.inj (Except.ok.inj heffective)
  refine ⟨hid.symm, ?_, hdata⟩
  rw [hid]
  exact (verifyBody_eq_ok laws hbody).2

/-- A verified chunk is delivered. -/
theorem consumeChunkBytes_delivers {chunkId : ChunkId} {bytes : List UInt8}
    {pullMode : StoreMode} {w : World} {r : Unit × World}
    (hhashes : chunkId.Hashes web.toCrates bytes)
    (h : consumeChunkBytes web chunkId bytes pullMode w = .ok r) :
    Delivers web pullMode [chunkId] w r.2 := by
  cases pullMode with
  | localFile path range needPullToNamedMgr => exact writeAll_delivers hhashes h
  | storeInNamedMgr => exact putChunkIntoStore_delivers h
  | noStore =>
      rw [consumeChunkBytes, pure_eq_ok] at h
      rw [h]
      exact World.SameData.refl _

/-- The loop delivers the chunks of the list, one after another. -/
theorem CyfsNdnClient.pullChunks_delivers {base : ResolvedUrl} {pullMode : StoreMode}
    {progressCallback : Bool} {chunks : List ChunkId} {totalSize : Nat} {w : World}
    {r : (List (ChunkId × Nat × Nat) × Nat) × World}
    (h : client.pullChunks web base pullMode progressCallback totalSize chunks w = .ok r) :
    Delivers web pullMode chunks w r.2 := by
  induction chunks generalizing totalSize w r with
  | nil =>
      rw [CyfsNdnClient.pullChunks, pure_eq_ok] at h
      rw [h]
      exact Delivers.nil (World.SameData.refl _)
  | cons chunkId rest ih =>
      unfold CyfsNdnClient.pullChunks at h
      simp only [bind_eq_ok, lift_eq_ok, pure_eq_ok] at h
      obtain ⟨size, w₁, ⟨-, rfl⟩, response, w₂, hsend, bytes, w₃, ⟨hbytes, rfl⟩, _, w₄, hconsume,
        _, w₅, hprogress, pulled, w₆, hrest, rfl⟩ := h
      obtain rfl : w₅ = w₄ := sameData_of_callProgressCallback hprogress
      have hhashes : chunkId.Hashes web.toCrates bytes := by
        unfold CyfsNdnResponse.intoVerifiedChunkBytes at hbytes
        simp only [except_bind_eq_ok, except_pure_eq_ok] at hbytes
        obtain ⟨read, -, _, hverify, rfl⟩ := hbytes
        exact hashes_of_verifyChunkBytes hverify
      have hone : Delivers web pullMode [chunkId] w₁ w₅ :=
        (consumeChunkBytes_delivers hhashes hconsume).of_sameData
          (CyfsNdnClient.sendRelated_eq_ok hsend).2.2 (World.SameData.refl _)
      have hafter : Delivers web pullMode rest w₅ w₆ := ih hrest
      exact hone.append hafter

theorem sameData_of_openLocalWriterIfNeeded {pullMode : StoreMode} {w : World}
    {r : Unit × World} (h : openLocalWriterIfNeeded pullMode w = .ok r) : w.SameData r.2 := by
  cases pullMode with
  | localFile path range needPullToNamedMgr =>
      rw [openLocalWriter_eq_ok h]
      exact World.SameData.refl w
  | storeInNamedMgr =>
      rw [openLocalWriterIfNeeded, pure_eq_ok] at h
      · rw [h]
        exact World.SameData.refl w
      · intro path range needPullToNamedMgr hmode
        cases hmode
  | noStore =>
      rw [openLocalWriterIfNeeded, pure_eq_ok] at h
      · rw [h]
        exact World.SameData.refl w
      · intro path range needPullToNamedMgr hmode
        cases hmode

theorem sameData_of_finalizeLocalLinks {links : List (ChunkId × Nat × Nat)}
    {pullMode : StoreMode} {w : World} {r : Unit × World}
    (h : finalizeLocalLinks web links pullMode w = .ok r) : w.SameData r.2 := by
  unfold finalizeLocalLinks at h
  split at h
  · exact sameData_of_linkChunks h
  · rw [pure_eq_ok] at h
    rw [h]
    exact World.SameData.refl w

/-- `pull_chunk_list_by_object` delivers the chunks of the list. -/
theorem CyfsNdnClient.pullChunkListByObject_delivers {base : ResolvedUrl}
    {pullMode : StoreMode} {progressCallback : Bool} {chunklistStore : KnownObjectToStore}
    {chunkList : ChunkList} {fileObj : Option KnownObjectToStore} {fileSize : Nat} {w : World}
    {r : CyfsPullResult × World}
    (h : client.pullChunkListByObject web base pullMode progressCallback chunklistStore chunkList
      fileObj fileSize w = .ok r) : Delivers web pullMode chunkList.body w r.2 := by
  unfold CyfsNdnClient.pullChunkListByObject at h
  simp only [bind_eq_ok, pure_eq_ok] at h
  obtain ⟨_, w₁, hopen, stored, w₂, hput, pulled, w₃, hpull, _, w₄, hlinks, rfl⟩ := h
  have hbefore := (sameData_of_openLocalWriterIfNeeded hopen).trans (sameData_of_putObjects hput)
  exact (CyfsNdnClient.pullChunks_delivers hpull).of_sameData hbefore
    (sameData_of_finalizeLocalLinks hlinks)

/-- `pull_file_object` delivers the chunks of the content. -/
theorem CyfsNdnClient.pullFileObject_delivers (laws : web.Lawful) {base : ResolvedUrl}
    {fileObjStore : KnownObjectToStore} {fileObj : FileObject} {pullMode : StoreMode}
    {progressCallback : Bool} {w : World} {r : CyfsPullResult × World}
    (h : client.pullFileObject web base fileObjStore fileObj pullMode progressCallback w =
      .ok r) :
    ∃ contentId chunks, ObjId.new web.toCrates fileObj.content = .ok contentId ∧
      BodyChunks web contentId chunks ∧ Delivers web pullMode chunks w r.2 := by
  unfold CyfsNdnClient.pullFileObject at h
  simp only [bind_eq_ok, lift_eq_ok] at h
  obtain ⟨contentId, w₁, ⟨hcontent, rfl⟩, h⟩ := h
  split_ifs at h with hchunk htype
  · unfold CyfsNdnClient.pullFileChunk at h
    simp only [bind_eq_ok] at h
    obtain ⟨response, w₂, hsend, hpull⟩ := h
    obtain ⟨-, hrange, hdata⟩ := CyfsNdnClient.sendRelated_eq_ok hsend
    exact ⟨contentId, _, hcontent, .chunk hchunk,
      (response.pullRawChunk_delivers hrange hpull).of_sameData hdata (World.SameData.refl _)⟩
  · rw [lift_eq_ok] at h
    cases h.1
  · unfold CyfsNdnClient.pullFileChunkList at h
    simp only [bind_eq_ok, lift_eq_ok, pure_eq_ok] at h
    obtain ⟨verified, w₂, hfetch, chunkList, w₃, ⟨hlist, rfl⟩, result, w₄, hpull, stored, w₅, hput,
      _, w₆, hprogress, rfl⟩ := h
    obtain rfl : w₆ = w₅ := sameData_of_callProgressCallback hprogress
    obtain ⟨-, hnamed, hdata⟩ := CyfsNdnClient.fetchVerifiedObjectById_eq_ok laws hfetch
    unfold Json.Named at hnamed
    rw [if_pos (not_not.mp htype)] at hnamed
    obtain ⟨list, hread, hid⟩ := hnamed
    have hsame : chunkList = list := Except.ok.inj (hlist.symm.trans hread)
    subst hsame
    exact ⟨contentId, _, hcontent, .chunkList hid,
      (CyfsNdnClient.pullChunkListByObject_delivers hpull).of_sameData hdata
        (sameData_of_putObjects hput)⟩

end NdnToolkit
end CyfsNdn

import CyfsNdn.NamedStore.UploadFaults

/-!
# The cache that an application uses

The gateway counts for every application the bytes that its unfinished uploads have in the
cache.  Parts of an upload add to the count, and expiry, eviction and invalidation take the
offset of a session off it; both sides agree.  The part that completes an upload was never
added, and takes the size of the whole chunk off: that is right where nothing else of the
application is in the cache, and lost for the next upload where something is.
-/

namespace CyfsNdn
namespace NamedStore

open NdnLib Relational Transition

namespace ZoneGateway

/-! ## Creating a session whose file cannot be created -/

/-- `startUpload` with the text of the error of `File::create`, if it fails. -/
def startUploadWith (createFile : Option String) (order : SessionOrder) (gateway : ZoneGateway)
    (request : CreateRequest) (metadata : UploadMetadata) (chunkSize now millis : Nat)
    (key : SessionKey) : ZoneGateway × NdnResult GatewayResponse :=
  match createFile with
  | none => gateway.startUpload order request metadata chunkSize now millis key
  | some text =>
      match gateway.checkQuota order metadata.appId chunkSize with
      | (gateway, .error e) => (gateway, .error e)
      | (gateway, .ok ()) =>
          ((gateway.generateSessionId millis).1, .error (.ioError ("create temp file: " ++ text)))

/-- `createSession` with the same. -/
def createSessionWith (createFile : Option String) (crates : Crates) (fuel : Nat)
    (order : SessionOrder) (gateway : ZoneGateway) (request : CreateRequest)
    (metadata : UploadMetadata) (chunkSize now millis : Nat) (key : SessionKey) :
    ZoneGateway × NdnResult GatewayResponse :=
  match (namedChunk crates metadata).filter fun chunkId =>
    (gateway.storeMgr.haveChunk crates fuel chunkId).getD false with
  | some chunkId =>
      let (gateway, sid) := gateway.generateSessionId millis
      let session := skippedSession crates request metadata sid chunkSize now chunkId
      (gateway.insertSession session key, buildSessionResponse 200 session)
  | none => gateway.startUploadWith createFile order request metadata chunkSize now millis key

/-- `createLocked` with the same. -/
def createLockedWith (createFile : Option String) (crates : Crates) (fuel : Nat)
    (order : SessionOrder) (gateway : ZoneGateway) (request : CreateRequest)
    (metadata : UploadMetadata) (chunkSize now millis : Nat) :
    ZoneGateway × NdnResult GatewayResponse :=
  let key := requestKey metadata
  let gateway := gateway.invalidateStaleSessions metadata.appId metadata.logicalPath
    (metadata.fileHash.getD "")
  match (gateway.state.keyIndex.find? key).bind fun entry =>
    gateway.state.sessions.find? entry.sessionId with
  | some existing =>
      if existing.status = .expired then
        let gateway : ZoneGateway := { gateway with
          state := { gateway.state with
            sessions := gateway.state.sessions.deleteKey existing.sessionId
            keyIndex := gateway.state.keyIndex.deleteKey key }
          tempFiles := removeTempCacheFile gateway.tempFiles existing.tempFilePath }
        gateway.createSessionWith createFile crates fuel order request metadata chunkSize now
          millis key
      else (gateway, buildSessionResponse 200 existing)
  | none =>
      gateway.createSessionWith createFile crates fuel order request metadata chunkSize now
        millis key

/-- `handleCreateUpload` with the same. -/
def handleCreateUploadWith (createFile : Option String) (crates : Crates) (fuel : Nat)
    (order : SessionOrder) (gateway : ZoneGateway) (request : CreateRequest) (now millis : Nat) :
    ZoneGateway × NdnResult GatewayResponse :=
  match request.uploadLength with
  | none => (gateway, .error (.invalidParam "missing Upload-Length header"))
  | some chunkSize =>
      if maxChunkSize < chunkSize then (gateway, .ok payloadTooLarge)
      else
        match request.metadata with
        | .error e => (gateway, .error e)
        | .ok metadata =>
            match validateLogicalPath metadata.logicalPath with
            | .error e => (gateway, .error e)
            | .ok () =>
                gateway.createLockedWith createFile crates fuel order request metadata chunkSize
                  now millis

theorem handleCreateUploadWith_none (crates : Crates) (fuel : Nat) (order : SessionOrder)
    (gateway : ZoneGateway) (request : CreateRequest) (now millis : Nat) :
    gateway.handleCreateUploadWith none crates fuel order request now millis =
      gateway.handleCreateUpload crates fuel order request now millis := rfl

/-! ## What is counted -/

/-- The bytes of an unfinished session of the application. -/
def unfinishedOffset (appId : String) (session : UploadSession) : Nat :=
  if session.appId = appId ∧ session.status.isActive = true then session.offset else 0

/-- The bytes of the unfinished sessions of an application. -/
def unfinishedBytes (gateway : ZoneGateway) (appId : String) : Nat :=
  gateway.state.sessions.total (unfinishedOffset appId)

/-- The bytes that are recorded for an application. -/
def bytesInUse (gateway : ZoneGateway) (appId : String) : Nat :=
  ((gateway.state.appUsage.find? appId).map AppCacheUsage.bytesInUse).getD 0

/-- The quota of an application. -/
def quotaBytes (gateway : ZoneGateway) (appId : String) : Nat :=
  ((gateway.state.appUsage.find? appId).map AppCacheUsage.quotaBytes).getD defaultAppQuota

/-- The count is right, and what it rests on. -/
structure UsageInv (gateway : ZoneGateway) : Prop where
  bytes : ∀ appId, gateway.bytesInUse appId = gateway.unfinishedBytes appId
  quota : ∀ appId, gateway.bytesInUse appId ≤ defaultAppQuota
  default : ∀ appId usage, gateway.state.appUsage.find? appId = some usage →
    usage.quotaBytes = defaultAppQuota
  known : ∀ s ∈ gateway.state.sessions.rows, s.status.isActive = true →
    (gateway.state.appUsage.find? s.appId).isSome = true
  fresh : ∀ s ∈ gateway.state.sessions.rows, s.sessionId.seq < gateway.state.nextSessionSeq
  idle : ∀ s ∈ gateway.state.sessions.rows, s.status.isActive = false → s.offset = s.chunkSize

theorem unfinishedOffset_of_idle {session : UploadSession} (h : session.status.isActive = false)
    (appId : String) : unfinishedOffset appId session = 0 :=
  if_neg fun hactive => by rw [h] at hactive; cases hactive.2

/-- What a session adds to the sum of an application. -/
theorem unfinishedBytes_eq_add {gateway : ZoneGateway} {session : UploadSession}
    (hfind : gateway.state.sessions.find? session.sessionId = some session) (appId : String) :
    gateway.unfinishedBytes appId =
      (gateway.state.sessions.deleteKey session.sessionId).total (unfinishedOffset appId) +
        unfinishedOffset appId session := by
  unfold unfinishedBytes
  rw [Table.total_eq_add_find? gateway.state.sessions session.sessionId, hfind]
  rfl

theorem find?_releaseUsage (gateway : ZoneGateway) (appId other : String) (bytes : Nat) :
    (gateway.releaseUsage appId bytes).state.appUsage.find? other =
      if other = appId then (gateway.state.appUsage.find? other).map fun usage =>
        { usage with bytesInUse := usage.bytesInUse - bytes }
      else gateway.state.appUsage.find? other :=
  Table.find?_updateKey gateway.state.appUsage appId other
    (fun usage => { usage with bytesInUse := usage.bytesInUse - bytes }) fun _ => rfl

theorem bytesInUse_releaseUsage (gateway : ZoneGateway) (appId other : String) (bytes : Nat) :
    (gateway.releaseUsage appId bytes).bytesInUse other =
      if other = appId then gateway.bytesInUse other - bytes else gateway.bytesInUse other := by
  unfold bytesInUse
  rw [find?_releaseUsage]
  split_ifs
  · cases gateway.state.appUsage.find? other <;> simp
  · rfl

/-! ## Sessions that go away -/

/-- Unfinished sessions of an application with so many bytes go away, and the usage is not
yet adjusted. -/
structure Sheds (gateway gateway' : ZoneGateway) (appId : String) (bytes : Nat) : Prop where
  sum : ∀ other, gateway'.unfinishedBytes other + (if other = appId then bytes else 0) =
    gateway.unfinishedBytes other
  appUsage : gateway'.state.appUsage = gateway.state.appUsage
  rows : ∀ s ∈ gateway'.state.sessions.rows, s ∈ gateway.state.sessions.rows
  nextSessionSeq : gateway'.state.nextSessionSeq = gateway.state.nextSessionSeq

namespace Sheds

variable {gateway gateway' : ZoneGateway} {appId : String}

theorem refl (gateway : ZoneGateway) (appId : String) : Sheds gateway gateway appId 0 :=
  ⟨fun other => by simp, rfl, fun _ hs => hs, rfl⟩

theorem trans {a b c : ZoneGateway} {m n : Nat} (hab : Sheds a b appId m)
    (hbc : Sheds b c appId n) : Sheds a c appId (m + n) where
  sum := by
    intro other
    have hfirst := hab.sum other
    have hsecond := hbc.sum other
    split_ifs at hfirst hsecond ⊢ <;> omega
  appUsage := hbc.appUsage.trans hab.appUsage
  rows s hs := hab.rows s (hbc.rows s hs)
  nextSessionSeq := hbc.nextSessionSeq.trans hab.nextSessionSeq

theorem dropSession {session : UploadSession}
    (hfind : gateway.state.sessions.find? session.sessionId = some session)
    (hactive : session.status.isActive = true) :
    Sheds gateway (gateway.dropSession session) session.appId session.offset where
  sum := by
    intro other
    rw [unfinishedBytes_eq_add hfind other]
    show (gateway.state.sessions.deleteKey session.sessionId).total _ + _ = _
    congr 1
    unfold unfinishedOffset
    by_cases hother : other = session.appId
    · rw [if_pos hother, if_pos ⟨hother.symm, hactive⟩]
    · rw [if_neg hother, if_neg fun h => hother h.1.symm]
  appUsage := rfl
  rows := fun s hs => (Table.mem_deleteWhere.mp hs).1
  nextSessionSeq := rfl

/-- With the bytes taken off the usage the count is right again. -/
theorem inv {bytes : Nat} (h : Sheds gateway gateway' appId bytes) (hinv : UsageInv gateway) :
    UsageInv (gateway'.releaseUsage appId bytes) := by
  have hrecorded : ∀ other, gateway'.bytesInUse other = gateway.bytesInUse other := by
    intro other
    unfold bytesInUse
    rw [h.appUsage]
  constructor
  · intro other
    have hsum := h.sum other
    have hbytes := hinv.bytes other
    rw [bytesInUse_releaseUsage, hrecorded]
    show _ = gateway'.unfinishedBytes other
    split_ifs at hsum ⊢ <;> omega
  · intro other
    have hquota := hinv.quota other
    rw [bytesInUse_releaseUsage, hrecorded]
    split_ifs <;> omega
  · intro other usage husage
    rw [find?_releaseUsage, h.appUsage] at husage
    split_ifs at husage
    · obtain ⟨old, hold, rfl⟩ := Option.map_eq_some_iff.mp husage
      exact hinv.default other old hold
    · exact hinv.default other usage husage
  · intro s hs hactive
    have hknown := hinv.known s (h.rows s hs) hactive
    rw [find?_releaseUsage, h.appUsage]
    split_ifs
    · rw [Option.isSome_map]
      exact hknown
    · exact hknown
  · intro s hs
    have hfresh := hinv.fresh s (h.rows s hs)
    rw [← h.nextSessionSeq] at hfresh
    exact hfresh
  · intro s hs
    exact hinv.idle s (h.rows s hs)

end Sheds

/-- Expiry and invalidation keep the count, for lists of unfinished sessions. -/
theorem UsageInv.dropListed {gateway : ZoneGateway} (hinv : UsageInv gateway)
    {sids : List SessionId}
    (hactive : ∀ s ∈ gateway.state.sessions.rows, s.sessionId ∈ sids → s.status.isActive = true) :
    UsageInv (gateway.dropListed sids) := by
  unfold ZoneGateway.dropListed
  induction sids generalizing gateway with
  | nil => exact hinv
  | cons sid rest ih =>
      rw [List.foldl_cons]
      cases hfind : gateway.state.sessions.find? sid with
      | none => exact ih hinv fun s hs hsid => hactive s hs (List.mem_cons_of_mem sid hsid)
      | some session =>
          obtain ⟨hrow, rfl⟩ := Table.find?_eq_some_iff.mp hfind
          have hsheds := Sheds.dropSession hfind (hactive session hrow List.mem_cons_self)
          refine ih (hsheds.inv hinv) fun s hs hsid => ?_
          exact hactive s (hsheds.rows s hs) (List.mem_cons_of_mem _ hsid)

/-- The sessions that a filter of the rows lists satisfy it. -/
theorem of_listed {gateway : ZoneGateway} {p : UploadSession → Bool} {s : UploadSession}
    (hs : s ∈ gateway.state.sessions.rows)
    (hlisted : s.sessionId ∈ (gateway.state.sessions.rows.filter p).map UploadSession.sessionId) :
    p s = true := by
  obtain ⟨t, ht, hid⟩ := List.mem_map.mp hlisted
  obtain ⟨htrow, htp⟩ := List.mem_filter.mp ht
  rw [← Table.eq_of_key_eq gateway.state.sessions htrow hs hid]
  exact htp

theorem UsageInv.expireSessions {gateway : ZoneGateway} (hinv : UsageInv gateway) (now : Nat) :
    UsageInv (gateway.expireSessions now) := by
  refine hinv.dropListed fun s hs hlisted => ?_
  have hp := of_listed hs hlisted
  rw [Bool.and_eq_true] at hp
  exact hp.1

theorem UsageInv.invalidateStaleSessions {gateway : ZoneGateway} (hinv : UsageInv gateway)
    (appId logicalPath newFileHash : String) :
    UsageInv (gateway.invalidateStaleSessions appId logicalPath newFileHash) := by
  refine hinv.dropListed fun s hs hlisted => ?_
  have hp := of_listed hs hlisted
  rw [Bool.and_eq_true] at hp
  exact hp.2

/-- What the loop of the eviction takes away; it ends with enough, or with nothing left. -/
theorem evictOldest_sheds {appId : String} (needed : Nat) (candidates : List (SessionId × Nat)) :
    ∀ (gateway : ZoneGateway) (freed : Nat),
      (∀ c ∈ candidates, ∀ s, gateway.state.sessions.find? c.1 = some s →
        s.offset = c.2 ∧ s.appId = appId ∧ s.status.isActive = true) →
      ∃ bytes, (evictOldest needed gateway freed candidates).2 = freed + bytes ∧
        Sheds gateway (evictOldest needed gateway freed candidates).1 appId bytes ∧
        (needed ≤ freed + bytes ∨ ∀ c ∈ candidates,
          (evictOldest needed gateway freed candidates).1.state.sessions.find? c.1 = none) := by
  induction candidates with
  | nil =>
      intro gateway freed _
      exact ⟨0, rfl, .refl gateway appId, Or.inr fun c hc => absurd hc List.not_mem_nil⟩
  | cons candidate rest ih =>
      intro gateway freed hcandidates
      obtain ⟨sid, offsetBytes⟩ := candidate
      unfold evictOldest
      by_cases henough : needed ≤ freed
      · rw [if_pos henough]
        exact ⟨0, rfl, .refl gateway appId, Or.inl henough⟩
      rw [if_neg henough]
      cases hfind : gateway.state.sessions.find? sid with
      | none =>
          obtain ⟨bytes, hfreed, hsheds, hend⟩ := ih gateway freed fun c hc =>
            hcandidates c (List.mem_cons_of_mem _ hc)
          refine ⟨bytes, hfreed, hsheds, hend.imp_right fun hgone c hc => ?_⟩
          rcases List.mem_cons.mp hc with rfl | hc
          · rw [Table.find?_eq_none_iff] at hfind ⊢
            exact fun s hs => hfind s (hsheds.rows s hs)
          · exact hgone c hc
      | some session =>
          obtain ⟨hoffset, happ, hactive⟩ := hcandidates _ List.mem_cons_self session hfind
          have hid := (Table.find?_eq_some_iff.mp hfind).2
          subst hid
          dsimp only at hoffset ⊢
          have hdrop := Sheds.dropSession hfind hactive
          rw [happ, hoffset] at hdrop
          obtain ⟨bytes, hfreed, hsheds, hend⟩ := ih (gateway.dropSession session)
            (freed + offsetBytes) fun c hc s hs => hcandidates c (List.mem_cons_of_mem _ hc) s (by
              obtain ⟨hrow, hsid⟩ := Table.find?_eq_some_iff.mp hs
              exact Table.find?_eq_some_iff.mpr ⟨hdrop.rows s hrow, hsid⟩)
          refine ⟨offsetBytes + bytes, by rw [hfreed]; omega, hdrop.trans hsheds, ?_⟩
          rw [← Nat.add_assoc]
          refine hend.imp_right fun hgone c hc => ?_
          rcases List.mem_cons.mp hc with rfl | hc
          · rw [Table.find?_eq_none_iff]
            intro s hs hsid
            have hrow := hsheds.rows s hs
            exact (by simpa using (Table.mem_deleteWhere.mp hrow).2 : s.sessionId ≠ _) hsid
          · exact hgone c hc

/-- Eviction keeps the count, and frees what is needed or everything. -/
theorem UsageInv.evictLruForApp {gateway : ZoneGateway} (hinv : UsageInv gateway)
    (order : SessionOrder) (appId : String) (needed : Nat) :
    UsageInv (gateway.evictLruForApp order appId needed).1 ∧
      (gateway.evictLruForApp order appId needed).1.state.nextSessionSeq =
        gateway.state.nextSessionSeq ∧
      ((gateway.evictLruForApp order appId needed).1.bytesInUse appId = 0 ∨
        (gateway.evictLruForApp order appId needed).1.bytesInUse appId + needed ≤
          gateway.bytesInUse appId) := by
  unfold ZoneGateway.evictLruForApp
  dsimp only
  generalize hsorted : ((order.values gateway.state.sessions.rows).filter fun session =>
    session.appId = appId && session.status.isActive).insertionSort
      (fun s t => s.updatedAt ≤ t.updatedAt) = sorted
  -- The candidates are the unfinished sessions of the application, in some order.
  have hmem : ∀ s, s ∈ sorted ↔ s ∈ gateway.state.sessions.rows ∧ s.appId = appId ∧
      s.status.isActive = true := by
    intro s
    rw [← hsorted, (List.perm_insertionSort _ _).mem_iff, List.mem_filter,
      (order.perm _).mem_iff, Bool.and_eq_true, decide_eq_true_eq]
  obtain ⟨bytes, hfreed, hsheds, hend⟩ := evictOldest_sheds needed
    (sorted.map fun session => (session.sessionId, session.offset)) gateway 0 (by
      intro c hc s hs
      obtain ⟨t, ht, rfl⟩ := List.mem_map.mp hc
      obtain ⟨htrow, happ, hactive⟩ := (hmem t).mp ht
      obtain rfl : t = s := Option.some.inj ((Table.find?_key_of_mem htrow).symm.trans hs)
      exact ⟨rfl, happ, hactive⟩)
  rw [Nat.zero_add] at hfreed hend
  rw [hfreed]
  refine ⟨hsheds.inv hinv, hsheds.nextSessionSeq, ?_⟩
  have hafter := (hsheds.inv hinv).bytes appId
  have hsum := hsheds.sum appId
  rw [if_pos rfl, ← hinv.bytes appId] at hsum
  rw [hafter]
  show ZoneGateway.unfinishedBytes _ _ = 0 ∨ ZoneGateway.unfinishedBytes _ _ + needed ≤ _
  rcases hend with henough | hgone
  · refine Or.inr ?_
    show ZoneGateway.unfinishedBytes (evictOldest _ _ _ _).1 appId + needed ≤ _
    omega
  · refine Or.inl ?_
    show (evictOldest _ _ _ _).1.state.sessions.total _ = 0
    unfold Table.total
    rw [List.sum_eq_zero_iff]
    intro n hn
    obtain ⟨s, hs, rfl⟩ := List.mem_map.mp hn
    refine if_neg fun hcandidate => ?_
    have hrow := hsheds.rows s hs
    have hsorted' := (hmem s).mpr ⟨hrow, hcandidate⟩
    have hnone := hgone _ (List.mem_map.mpr ⟨s, hsorted', rfl⟩)
    exact Table.find?_eq_none_iff.mp hnone s hs rfl

/-! ## The quota of a new session -/

section Quota

variable {gateway : ZoneGateway}

theorem find?_getOrCreateAppUsage (gateway : ZoneGateway) (appId other : String) :
    (gateway.getOrCreateAppUsage appId).1.state.appUsage.find? other =
      if other = appId then
        some ((gateway.state.appUsage.find? other).getD ⟨appId, 0, defaultAppQuota⟩)
      else gateway.state.appUsage.find? other :=
  Table.find?_insertOrIgnore gateway.state.appUsage ⟨appId, 0, defaultAppQuota⟩ other

theorem bytesInUse_getOrCreateAppUsage (gateway : ZoneGateway) (appId other : String) :
    (gateway.getOrCreateAppUsage appId).1.bytesInUse other = gateway.bytesInUse other := by
  unfold bytesInUse
  rw [find?_getOrCreateAppUsage]
  split_ifs with hother
  · cases gateway.state.appUsage.find? other <;> rfl
  · rfl

/-- The entry that the check of the quota sees. -/
theorem UsageInv.usage (hinv : UsageInv gateway) (appId : String) :
    (gateway.getOrCreateAppUsage appId).2.bytesInUse = gateway.bytesInUse appId ∧
      (gateway.getOrCreateAppUsage appId).2.quotaBytes = defaultAppQuota := by
  unfold getOrCreateAppUsage bytesInUse
  cases hfind : gateway.state.appUsage.find? appId with
  | none => exact ⟨rfl, rfl⟩
  | some usage => exact ⟨rfl, hinv.default appId usage hfind⟩

theorem UsageInv.getOrCreateAppUsage (hinv : UsageInv gateway) (appId : String) :
    UsageInv (gateway.getOrCreateAppUsage appId).1 ∧
      ((gateway.getOrCreateAppUsage appId).1.state.appUsage.find? appId).isSome = true := by
  refine ⟨⟨?_, ?_, ?_, ?_, hinv.fresh, hinv.idle⟩, ?_⟩
  · intro other
    rw [bytesInUse_getOrCreateAppUsage]
    exact hinv.bytes other
  · intro other
    rw [bytesInUse_getOrCreateAppUsage]
    exact hinv.quota other
  · intro other usage husage
    rw [find?_getOrCreateAppUsage] at husage
    split_ifs at husage
    · cases hfind : gateway.state.appUsage.find? other with
      | none =>
          rw [hfind] at husage
          cases husage
          rfl
      | some old =>
          rw [hfind] at husage
          cases husage
          exact hinv.default other old hfind
    · exact hinv.default other usage husage
  · intro s hs hactive
    rw [find?_getOrCreateAppUsage]
    split_ifs
    · rfl
    · exact hinv.known s hs hactive
  · rw [find?_getOrCreateAppUsage, if_pos rfl]
    rfl

/-- A chunk that is not larger than the quota is never refused. -/
theorem UsageInv.checkQuota (hinv : UsageInv gateway) (order : SessionOrder) (appId : String)
    {chunkSize : Nat} (hsize : chunkSize ≤ defaultAppQuota) :
    ∃ admitted, gateway.checkQuota order appId chunkSize = (admitted, .ok ()) ∧
      UsageInv admitted ∧ admitted.state.nextSessionSeq = gateway.state.nextSessionSeq ∧
      (admitted.state.appUsage.find? appId).isSome = true := by
  obtain ⟨hused, hquota⟩ := hinv.usage appId
  obtain ⟨hcreated, hsome⟩ := hinv.getOrCreateAppUsage appId
  have hsame := bytesInUse_getOrCreateAppUsage gateway appId appId
  unfold ZoneGateway.checkQuota
  dsimp only
  rw [hused, hquota]
  by_cases hfits : gateway.bytesInUse appId + chunkSize ≤ defaultAppQuota
  · rw [if_pos hfits]
    exact ⟨_, rfl, hcreated, rfl, hsome⟩
  rw [if_neg hfits]
  obtain ⟨hevicted, hnext, hfreed⟩ := hcreated.evictLruForApp order appId
    (gateway.bytesInUse appId + chunkSize - defaultAppQuota)
  generalize (gateway.getOrCreateAppUsage appId).1.evictLruForApp order appId
    (gateway.bytesInUse appId + chunkSize - defaultAppQuota) = evicted at hevicted hnext hfreed ⊢
  obtain ⟨hused', hquota'⟩ := hevicted.usage appId
  obtain ⟨hcreated', hsome'⟩ := hevicted.getOrCreateAppUsage appId
  rw [hused', hquota']
  -- Either enough was freed, or nothing of the application is left.
  rw [if_pos (by rw [hsame] at hfreed; omega)]
  exact ⟨_, rfl, hcreated', hnext, hsome'⟩

/-! ## New sessions -/

/-- A new session that has no bytes yet, or takes none any more. -/
theorem UsageInv.insertSession (hinv : UsageInv gateway) {session : UploadSession}
    (key : SessionKey) (files : Table TempFile TempFile.path)
    (hid : session.sessionId.seq = gateway.state.nextSessionSeq)
    (hstatus : (session.status.isActive = true ∧ session.offset = 0 ∧
        (gateway.state.appUsage.find? session.appId).isSome = true) ∨
      (session.status.isActive = false ∧ session.offset = session.chunkSize)) :
    UsageInv (({ gateway with
      state := { gateway.state with nextSessionSeq := gateway.state.nextSessionSeq + 1 }
      tempFiles := files } : ZoneGateway).insertSession session key) := by
  have hold : gateway.state.sessions.find? session.sessionId = none := by
    rw [Table.find?_eq_none_iff]
    intro s hs heq
    have hfresh := hinv.fresh s hs
    rw [heq, hid] at hfresh
    omega
  have hsum : ∀ appId, (gateway.state.sessions.insertOrReplace session).total
      (unfinishedOffset appId) = gateway.unfinishedBytes appId := by
    intro appId
    have hzero : unfinishedOffset appId session = 0 := by
      rcases hstatus with ⟨-, hoffset, -⟩ | ⟨hidle, -⟩
      · unfold unfinishedOffset
        rw [hoffset, ite_self]
      · exact unfinishedOffset_of_idle hidle appId
    have hsplit := Table.total_eq_add_find? gateway.state.sessions session.sessionId
      (unfinishedOffset appId)
    rw [hold] at hsplit
    rw [Table.total_insertOrReplace, hzero]
    exact hsplit.symm
  constructor
  · intro appId
    exact (hinv.bytes appId).trans (hsum appId).symm
  · exact hinv.quota
  · exact hinv.default
  · intro s hs hactive
    rcases Table.mem_insertOrReplace.mp hs with rfl | ⟨hs, -⟩
    · rcases hstatus with ⟨-, -, hknown⟩ | ⟨hidle, -⟩
      · exact hknown
      · rw [hidle] at hactive
        cases hactive
    · exact hinv.known s hs hactive
  · intro s hs
    show s.sessionId.seq < gateway.state.nextSessionSeq + 1
    rcases Table.mem_insertOrReplace.mp hs with rfl | ⟨hs, -⟩
    · omega
    · have hfresh := hinv.fresh s hs
      omega
  · intro s hs hidle
    rcases Table.mem_insertOrReplace.mp hs with rfl | ⟨hs, -⟩
    · rcases hstatus with ⟨hactive, -⟩ | ⟨-, hfull⟩
      · rw [hactive] at hidle
        cases hidle
      · exact hfull
    · exact hinv.idle s hs hidle

theorem maxChunkSize_le_quota : maxChunkSize ≤ defaultAppQuota := by decide

/-- An upload that starts is admitted; only its answer may not be buildable. -/
theorem UsageInv.startUploadWith (hinv : UsageInv gateway) (createFile : Option String)
    (order : SessionOrder) (request : CreateRequest) (metadata : UploadMetadata)
    {chunkSize : Nat} (hsize : chunkSize ≤ maxChunkSize) (now millis : Nat) (key : SessionKey) :
    UsageInv (gateway.startUploadWith createFile order request metadata chunkSize now millis
        key).1 ∧
      (createFile = none → ∀ e, (gateway.startUploadWith createFile order request metadata
        chunkSize now millis key).2 = .error e → e = invalidResponse) := by
  obtain ⟨admitted, hcheck, hadmitted, hnext, hknown⟩ := hinv.checkQuota order metadata.appId
    (hsize.trans maxChunkSize_le_quota)
  unfold ZoneGateway.startUploadWith
  cases createFile with
  | some text =>
      dsimp only
      rw [hcheck]
      refine ⟨⟨hadmitted.bytes, hadmitted.quota, hadmitted.default, hadmitted.known, ?_,
        hadmitted.idle⟩, fun h => nomatch h⟩
      intro s hs
      have hfresh := hadmitted.fresh s hs
      show s.sessionId.seq < admitted.state.nextSessionSeq + 1
      omega
  | none =>
      unfold startUpload
      dsimp only
      rw [hcheck]
      refine ⟨hadmitted.insertSession key _ rfl ?_, fun _ _ => eq_of_buildSessionResponse_error⟩
      unfold newSession
      dsimp only
      by_cases hzero : chunkSize = 0
      · rw [if_pos hzero]
        exact Or.inr ⟨rfl, hzero.symm⟩
      · rw [if_neg hzero]
        exact Or.inl ⟨rfl, rfl, hknown⟩

theorem UsageInv.createSessionWith (hinv : UsageInv gateway) (createFile : Option String)
    (crates : Crates) (fuel : Nat) (order : SessionOrder) (request : CreateRequest)
    (metadata : UploadMetadata) {chunkSize : Nat} (hsize : chunkSize ≤ maxChunkSize)
    (now millis : Nat) (key : SessionKey) :
    UsageInv (gateway.createSessionWith createFile crates fuel order request metadata chunkSize
        now millis key).1 ∧
      (createFile = none → ∀ e, (gateway.createSessionWith createFile crates fuel order
        request metadata chunkSize now millis key).2 = .error e → e = invalidResponse) := by
  unfold ZoneGateway.createSessionWith
  cases (namedChunk crates metadata).filter fun chunkId =>
    (gateway.storeMgr.haveChunk crates fuel chunkId).getD false with
  | some chunkId =>
      exact ⟨hinv.insertSession key gateway.tempFiles rfl (Or.inr ⟨rfl, rfl⟩),
        fun _ _ => eq_of_buildSessionResponse_error⟩
  | none => exact hinv.startUploadWith createFile order request metadata hsize now millis key

theorem UsageInv.createLockedWith (hinv : UsageInv gateway) (createFile : Option String)
    (crates : Crates) (fuel : Nat) (order : SessionOrder) (request : CreateRequest)
    (metadata : UploadMetadata) {chunkSize : Nat} (hsize : chunkSize ≤ maxChunkSize)
    (now millis : Nat) :
    UsageInv (gateway.createLockedWith createFile crates fuel order request metadata chunkSize
        now millis).1 ∧
      (createFile = none → ∀ e, (gateway.createLockedWith createFile crates fuel order
        request metadata chunkSize now millis).2 = .error e → e = invalidResponse) := by
  have hvalid := hinv.invalidateStaleSessions metadata.appId metadata.logicalPath
    (metadata.fileHash.getD "")
  unfold ZoneGateway.createLockedWith
  dsimp only
  generalize gateway.invalidateStaleSessions metadata.appId metadata.logicalPath
    (metadata.fileHash.getD "") = valid at hvalid ⊢
  cases hexisting : (valid.state.keyIndex.find? (requestKey metadata)).bind fun entry =>
    valid.state.sessions.find? entry.sessionId with
  | none => exact hvalid.createSessionWith createFile crates fuel order request metadata hsize _ _ _
  | some existing =>
      dsimp only
      by_cases hexpired : existing.status = .expired
      swap
      · rw [if_neg hexpired]
        exact ⟨hvalid, fun _ _ => eq_of_buildSessionResponse_error⟩
      rw [if_pos hexpired]
      refine UsageInv.createSessionWith ?_ createFile crates fuel order request metadata hsize _ _ _
      -- An expired session counts for nothing.
      obtain ⟨entry, -, hfound⟩ := Option.bind_eq_some_iff.mp hexisting
      obtain ⟨hrow, hid⟩ := Table.find?_eq_some_iff.mp hfound
      have hidle : existing.status.isActive = false := by
        rw [hexpired]
        rfl
      refine ⟨?_, hvalid.quota, hvalid.default, ?_, ?_, ?_⟩
      · intro appId
        have hsum := unfinishedBytes_eq_add (Table.find?_key_of_mem hrow) appId
        rw [unfinishedOffset_of_idle hidle, Nat.add_zero] at hsum
        exact (hvalid.bytes appId).trans hsum
      · intro s hs
        exact hvalid.known s (Table.mem_deleteWhere.mp hs).1
      · intro s hs
        exact hvalid.fresh s (Table.mem_deleteWhere.mp hs).1
      · intro s hs
        exact hvalid.idle s (Table.mem_deleteWhere.mp hs).1

theorem UsageInv.handleCreateUploadWith (hinv : UsageInv gateway) (createFile : Option String)
    (crates : Crates) (fuel : Nat) (order : SessionOrder) (request : CreateRequest)
    (now millis : Nat) :
    UsageInv (gateway.handleCreateUploadWith createFile crates fuel order request now millis).1 := by
  unfold ZoneGateway.handleCreateUploadWith
  cases request.uploadLength with
  | none => exact hinv
  | some chunkSize =>
      dsimp only
      by_cases hlarge : maxChunkSize < chunkSize
      · rw [if_pos hlarge]
        exact hinv
      rw [if_neg hlarge]
      cases request.metadata with
      | error e => exact hinv
      | ok metadata =>
          dsimp only
          cases validateLogicalPath metadata.logicalPath with
          | error e => exact hinv
          | ok _ =>
              exact (hinv.createLockedWith createFile crates fuel order request metadata
                (Nat.le_of_not_lt hlarge) now millis).1

end Quota

/-! ## Bytes that arrive -/

section Bodies

variable {gateway : ZoneGateway} {request : PatchRequest} {clientOffset : Nat}
  {session : UploadSession} {path : TempFilePath} {bytes : List UInt8}

/-- A session that is full refuses every body. -/
theorem UsageInv.active (hinv : UsageInv gateway)
    (hfits : gateway.FitsBody request clientOffset session path bytes) :
    session.status.isActive = true := by
  have hlength := List.length_pos_of_ne_nil hfits.body
  have hroom := hfits.fits
  by_contra hidle
  have hfull := hinv.idle session (Table.find?_eq_some_iff.mp hfits.found).1 (by simpa using hidle)
  omega

theorem find?_countBytes (gateway : ZoneGateway) (appId other : String) (bytes : Nat) :
    (gateway.countBytes appId bytes).state.appUsage.find? other =
      if other = appId then (gateway.state.appUsage.find? other).map fun usage =>
        { usage with bytesInUse := usage.bytesInUse + bytes }
      else gateway.state.appUsage.find? other :=
  Table.find?_updateKey gateway.state.appUsage appId other
    (fun usage => { usage with bytesInUse := usage.bytesInUse + bytes }) fun _ => rfl

theorem bytesInUse_countBytes (gateway : ZoneGateway) {appId : String}
    (hknown : (gateway.state.appUsage.find? appId).isSome = true) (bytes : Nat) (other : String) :
    (gateway.countBytes appId bytes).bytesInUse other =
      if other = appId then gateway.bytesInUse other + bytes else gateway.bytesInUse other := by
  unfold bytesInUse
  rw [find?_countBytes]
  split_ifs with hother
  · subst hother
    obtain ⟨usage, husage⟩ := Option.isSome_iff_exists.mp hknown
    rw [husage]
    rfl
  · rfl

/-- The sum of an application without one of its sessions, which changes its own part only. -/
theorem total_changed (hfind : gateway.state.sessions.find? session.sessionId = some session)
    (f : UploadSession → UploadSession) (hf : ∀ s, (f s).sessionId = s.sessionId)
    (appId : String) :
    (gateway.state.sessions.updateKey session.sessionId f hf).total (unfinishedOffset appId) +
        unfinishedOffset appId session =
      gateway.unfinishedBytes appId + unfinishedOffset appId (f session) := by
  rw [unfinishedBytes_eq_add hfind appId, Table.total_updateKey, hfind]
  show _ + unfinishedOffset appId (f session) + _ = _
  omega

/-- The sessions after a change of one. -/
theorem mem_changed (hrow : session ∈ gateway.state.sessions.rows)
    {f : UploadSession → UploadSession} {hf : ∀ s, (f s).sessionId = s.sessionId}
    {s : UploadSession}
    (hs : s ∈ (gateway.state.sessions.updateKey session.sessionId f hf).rows) :
    s = f session ∨ s ∈ gateway.state.sessions.rows := by
  obtain ⟨t, ht, heq⟩ : ∃ t ∈ gateway.state.sessions.rows,
      (if decide (t.sessionId = session.sessionId) = true then f t else t) = s :=
    Table.mem_updateWhere.mp hs
  split_ifs at heq with hsame
  · obtain rfl := Table.eq_of_key_eq gateway.state.sessions ht hrow (by simpa using hsame)
    exact Or.inl heq.symm
  · exact Or.inr (heq ▸ ht)

/-- A body that does not fill its session is counted. -/
theorem UsageInv.grows (hinv : UsageInv gateway)
    (hfits : gateway.FitsBody request clientOffset session path bytes)
    (hquota : gateway.bytesInUse session.appId + request.body.length ≤ defaultAppQuota)
    (now : Nat) :
    UsageInv ((gateway.takeBody session path request.body now).countBytes session.appId
      request.body.length) := by
  have hactive := hinv.active hfits
  obtain ⟨hrow, hid⟩ := Table.find?_eq_some_iff.mp hfits.found
  have hfind := Table.find?_key_of_mem hrow
  have hknown := hinv.known session hrow hactive
  have hused : ∀ other, ((gateway.takeBody session path request.body now).countBytes session.appId
      request.body.length).bytesInUse other = if other = session.appId
        then gateway.bytesInUse other + request.body.length else gateway.bytesInUse other :=
    bytesInUse_countBytes (gateway.takeBody session path request.body now) hknown
      request.body.length
  have hsessions : ∀ s ∈ (gateway.takeBody session path request.body now).state.sessions.rows,
      s = session.grown request.body.length now ∨ s ∈ gateway.state.sessions.rows := by
    intro s hs
    have hs' : s ∈ (gateway.state.sessions.updateKey session.sessionId
        (fun s => s.grown request.body.length now) fun _ => rfl).rows := hs
    exact mem_changed hrow hs'
  constructor
  · intro other
    have hsum := total_changed hfind (fun s => s.grown request.body.length now) (fun _ => rfl) other
    have hbytes := hinv.bytes other
    rw [hused]
    show _ = (gateway.state.sessions.updateKey session.sessionId
      (fun s => s.grown request.body.length now) fun _ => rfl).total _
    by_cases hother : other = session.appId
    · have hbefore : unfinishedOffset other session = session.offset :=
        if_pos ⟨hother.symm, hactive⟩
      have hafter : unfinishedOffset other (session.grown request.body.length now) =
          session.offset + request.body.length :=
        if_pos ⟨hother.symm, rfl⟩
      rw [if_pos hother]
      omega
    · have hbefore : unfinishedOffset other session = 0 := if_neg fun h => hother h.1.symm
      have hafter : unfinishedOffset other (session.grown request.body.length now) = 0 :=
        if_neg fun h => hother h.1.symm
      rw [if_neg hother]
      omega
  · intro other
    have hold := hinv.quota other
    rw [hused]
    split_ifs with hother
    · rw [hother]
      exact hquota
    · exact hold
  · intro other usage husage
    rw [find?_countBytes] at husage
    split_ifs at husage
    · obtain ⟨old, hold, rfl⟩ := Option.map_eq_some_iff.mp husage
      exact hinv.default other old hold
    · exact hinv.default other usage husage
  · intro s hs hsactive
    have hentry : (gateway.state.appUsage.find? s.appId).isSome = true := by
      rcases hsessions s hs with rfl | hold
      · exact hknown
      · exact hinv.known s hold hsactive
    rw [find?_countBytes]
    split_ifs
    · rw [Option.isSome_map]
      exact hentry
    · exact hentry
  · intro s hs
    rcases hsessions s hs with rfl | hold
    · exact hinv.fresh session hrow
    · exact hinv.fresh s hold
  · intro s hs hidle
    rcases hsessions s hs with rfl | hold
    · cases hidle
    · exact hinv.idle s hold hidle

/-- A completed upload is no longer counted, if it was the only one. -/
theorem UsageInv.completes (hinv : UsageInv gateway)
    (hfits : gateway.FitsBody request clientOffset session path bytes)
    (hfull : session.offset + request.body.length = session.chunkSize)
    (halone : gateway.unfinishedBytes session.appId = session.offset) (now : Nat)
    (storeMgr : NamedDataMgr) (chunkObjectId : String) :
    UsageInv ((gateway.takeBody session path request.body now).completeSession
      (session.grown request.body.length now) storeMgr chunkObjectId) := by
  have hactive := hinv.active hfits
  obtain ⟨hrow, -⟩ := Table.find?_eq_some_iff.mp hfits.found
  have hfind := Table.find?_key_of_mem hrow
  let completed := completedSession (session.grown request.body.length now) chunkObjectId
  -- Both updates are of one row: the session is completed in one step.
  have hsessions : ((gateway.state.sessions.updateKey session.sessionId
      (fun s => s.grown request.body.length now) fun _ => rfl).updateKey session.sessionId
      (fun s => completedSession s chunkObjectId)
      fun _ => rfl).rows = (gateway.state.sessions.updateKey session.sessionId
        (fun s => completedSession (s.grown request.body.length now) chunkObjectId)
        fun _ => rfl).rows := by
    show ((gateway.state.sessions.rows.map _).map _) = gateway.state.sessions.rows.map _
    rw [List.map_map]
    refine List.map_congr_left fun s _ => ?_
    show (if decide ((if decide (s.sessionId = session.sessionId) = true then
      s.grown request.body.length now else s).sessionId = session.sessionId) = true then _
        else _) = _
    by_cases hsame : s.sessionId = session.sessionId
    · have hgrown : (s.grown request.body.length now).sessionId = session.sessionId := hsame
      simp [hsame, hgrown]
    · simp [hsame]
  have hmem : ∀ s ∈ ((gateway.state.sessions.updateKey session.sessionId
      (fun s => s.grown request.body.length now) fun _ => rfl).updateKey session.sessionId
      (fun s => completedSession s chunkObjectId)
      fun _ => rfl).rows, s = completed ∨ s ∈ gateway.state.sessions.rows := by
    intro s hs
    rw [hsessions] at hs
    exact mem_changed hrow hs
  unfold completeSession
  constructor
  · intro other
    have hsum := total_changed hfind (fun s => completedSession (s.grown request.body.length now) chunkObjectId) (fun _ => rfl) other
    have hbytes := hinv.bytes other
    have hafter : unfinishedOffset other completed = 0 := unfinishedOffset_of_idle rfl other
    have htotal : ∀ w, ((gateway.state.sessions.updateKey session.sessionId
        (fun s => s.grown request.body.length now) fun _ => rfl).updateKey session.sessionId
        (fun s => completedSession s chunkObjectId)
        fun _ => rfl).total w = (gateway.state.sessions.updateKey session.sessionId
          (fun s => completedSession (s.grown request.body.length now) chunkObjectId)
          fun _ => rfl).total w := by
      intro w
      unfold Table.total
      rw [hsessions]
    rw [bytesInUse_releaseUsage]
    show (if other = session.appId then gateway.bytesInUse other - session.chunkSize
      else gateway.bytesInUse other) = Table.total _ (unfinishedOffset other)
    refine Eq.trans ?_ (htotal _).symm
    change _ + _ = _ + unfinishedOffset other completed at hsum
    by_cases hother : other = session.appId
    · have hbefore : unfinishedOffset other session = session.offset :=
        if_pos ⟨hother.symm, hactive⟩
      rw [if_pos hother]
      rw [← hother] at halone
      omega
    · have hbefore : unfinishedOffset other session = 0 := if_neg fun h => hother h.1.symm
      rw [if_neg hother]
      omega
  · intro other
    have hold := hinv.quota other
    rw [bytesInUse_releaseUsage]
    show (if other = session.appId then gateway.bytesInUse other - session.chunkSize
      else gateway.bytesInUse other) ≤ _
    split_ifs <;> omega
  · intro other usage husage
    rw [find?_releaseUsage] at husage
    split_ifs at husage
    · obtain ⟨old, hold, rfl⟩ := Option.map_eq_some_iff.mp husage
      exact hinv.default other old hold
    · exact hinv.default other usage husage
  · intro s hs hsactive
    have hentry : (gateway.state.appUsage.find? s.appId).isSome = true := by
      rcases hmem s hs with rfl | hold
      · cases hsactive
      · exact hinv.known s hold hsactive
    rw [find?_releaseUsage]
    split_ifs
    · rw [Option.isSome_map]
      exact hentry
    · exact hentry
  · intro s hs
    rcases hmem s hs with rfl | hold
    · exact hinv.fresh session hrow
    · exact hinv.fresh s hold
  · intro s hs hidle
    rcases hmem s hs with rfl | hold
    · exact hfull
    · exact hinv.idle s hold hidle

end Bodies

/-! ## Runs -/

/-- What changes the sessions of a gateway: a creation, whose file may not be created; the
last part of a `PATCH`, under the lock and with what may fail in it; and an expiry. -/
inductive UsageAction where
  | create (createFile : Option String) (request : CreateRequest) (order : SessionOrder)
      (now millis : Nat)
  | patch (faults : PatchFaults) (request : PatchRequest) (clientOffset now : Nat)
  | expire (now : Nat)

/-- One step. -/
def usageStep (crates : Crates) (fuel : Nat) (gateway : ZoneGateway) : UsageAction → ZoneGateway
  | .create createFile request order now millis =>
      (gateway.handleCreateUploadWith createFile crates fuel order request now millis).1
  | .patch faults request clientOffset now =>
      (gateway.patchLockedWith crates faults request clientOffset now).1
  | .expire now => gateway.expireSessions now

/-- A body that is written and does not fill its session stays within the quota.  One that
fills it is stored, and nothing else of the application is in the cache. -/
def CountsWell (crates : Crates) (gateway : ZoneGateway) : UsageAction → Prop
  | .create _ _ _ _ _ => True
  | .patch faults request clientOffset now =>
      ∀ session path bytes, gateway.FitsBody request clientOffset session path bytes →
        faults.append = none →
        if session.offset + request.body.length = session.chunkSize then
          Persists crates faults gateway session (bytes ++ request.body) now ∧
            gateway.unfinishedBytes session.appId = session.offset
        else
          gateway.bytesInUse session.appId + request.body.length ≤
            gateway.quotaBytes session.appId
  | .expire _ => True

/-- A request that is refused because of the quota. -/
def QuotaExceeded (appId : String) (e : NdnError) : Prop :=
  ∃ rest, e = .ioError ("app " ++ appId ++ " cache quota exceeded: " ++ rest)

/-- The recorded usage is the sum of the unfinished uploads and within the quota, and a
creation is refused for the quota only where evicting them all would not make room. -/
structure UsageExact (gateway : ZoneGateway) : Prop where
  recorded : ∀ appId, gateway.bytesInUse appId = gateway.unfinishedBytes appId
  within : ∀ appId, gateway.bytesInUse appId ≤ gateway.quotaBytes appId
  refused : ∀ crates fuel order request now millis chunkSize metadata e,
    request.uploadLength = some chunkSize → request.metadata = .ok metadata →
    (gateway.handleCreateUpload crates fuel order request now millis).2 = .error e →
    QuotaExceeded metadata.appId e →
    gateway.unfinishedBytes metadata.appId +
      (gateway.quotaBytes metadata.appId - gateway.bytesInUse metadata.appId) < chunkSize

section Runs

variable {gateway : ZoneGateway} {crates : Crates} {fuel : Nat}

theorem UsageInv.quotaBytes (hinv : UsageInv gateway) (appId : String) :
    gateway.quotaBytes appId = defaultAppQuota := by
  unfold ZoneGateway.quotaBytes
  cases hfind : gateway.state.appUsage.find? appId with
  | none => rfl
  | some usage => exact hinv.default appId usage hfind

theorem UsageInv.patchLockedWith (hinv : UsageInv gateway) (faults : PatchFaults)
    (request : PatchRequest) (clientOffset now : Nat)
    (hcounts : CountsWell crates gateway (.patch faults request clientOffset now)) :
    UsageInv (gateway.patchLockedWith crates faults request clientOffset now).1 := by
  rcases patchLockedWith_cases crates faults gateway request clientOffset now with
    ⟨session, path, bytes, hfits⟩ | ⟨e, hnothing⟩
  swap
  · rw [hnothing]
    exact hinv
  rw [patchLockedWith_fits hfits]
  have hwell := hcounts session path bytes hfits
  cases happend : faults.append with
  | some fault =>
      rw [writeBody_of_fault happend]
      exact ⟨hinv.bytes, hinv.quota, hinv.default, hinv.known, hinv.fresh, hinv.idle⟩
  | none =>
      have hwell' := hwell happend
      by_cases hfull : session.offset + request.body.length = session.chunkSize
      · rw [if_pos hfull] at hwell'
        rw [writeBody_full happend hfull]
        rcases persistUploadWith_outcome crates faults
          (gateway.takeBody session path request.body now)
          (session.grown request.body.length now) (bytes ++ request.body) now with
          ⟨-, storeMgr, chunkId, -, hcompleted⟩ | ⟨hnot, -⟩
        · rw [hcompleted]
          exact hinv.completes hfits hfull hwell'.2 now storeMgr _
        · exact absurd hwell'.1 hnot
      · rw [if_neg hfull, hinv.quotaBytes] at hwell'
        rw [writeBody_grows happend hfull]
        exact hinv.grows hfits hwell' now

theorem UsageInv.step (hinv : UsageInv gateway) (action : UsageAction)
    (hcounts : CountsWell crates gateway action) :
    UsageInv (usageStep crates fuel gateway action) := by
  cases action with
  | create createFile request order now millis =>
      exact hinv.handleCreateUploadWith createFile crates fuel order request now millis
  | patch faults request clientOffset now =>
      exact hinv.patchLockedWith faults request clientOffset now hcounts
  | expire now => exact hinv.expireSessions now

/-- A path that is refused is an invalid parameter. -/
theorem invalidParam_of_validateLogicalPath {path : String} {e : NdnError}
    (h : validateLogicalPath path = .error e) : ∃ text, e = .invalidParam text := by
  unfold validateLogicalPath at h
  split_ifs at h
  · exact ⟨_, (Except.error.inj h).symm⟩
  · exact ⟨_, (Except.error.inj h).symm⟩
  · exact ⟨_, (Except.error.inj h).symm⟩
  · split at h
    · exact ⟨_, (Except.error.inj h).symm⟩
    · cases h

/-- Where the count is right, only the request itself can be refused. -/
theorem UsageInv.exact (hinv : UsageInv gateway) : UsageExact gateway where
  recorded := hinv.bytes
  within := by
    intro appId
    rw [hinv.quotaBytes]
    exact hinv.quota appId
  refused := by
    intro crates fuel order request now millis chunkSize metadata e hlength hmetadata herror hquota
    exfalso
    obtain ⟨rest, rfl⟩ := hquota
    rw [← handleCreateUploadWith_none] at herror
    unfold ZoneGateway.handleCreateUploadWith at herror
    rw [hlength, hmetadata] at herror
    dsimp only at herror
    by_cases hlarge : maxChunkSize < chunkSize
    · rw [if_pos hlarge] at herror
      cases herror
    rw [if_neg hlarge] at herror
    cases hvalid : validateLogicalPath metadata.logicalPath with
    | error e =>
        obtain ⟨text, rfl⟩ := invalidParam_of_validateLogicalPath hvalid
        rw [hvalid] at herror
        cases herror
    | ok _ =>
        rw [hvalid] at herror
        cases (hinv.createLockedWith none crates fuel order request metadata
          (Nat.le_of_not_lt hlarge) now millis).2 rfl _ herror

theorem usageInv_init (storeMgr : NamedDataMgr) (sessionTtl : Nat)
    (tempFiles : Table TempFile TempFile.path) :
    UsageInv (UploadSystem.init storeMgr sessionTtl tempFiles).gateway where
  bytes := fun _ => rfl
  quota := fun _ => Nat.zero_le _
  default := fun _ _ h => nomatch h
  known := fun _ hs => absurd hs List.not_mem_nil
  fresh := fun _ hs => absurd hs List.not_mem_nil
  idle := fun _ hs => absurd hs List.not_mem_nil

/-- The usage is exact in every state of every run, on a gateway that was just started, in
which every body that is written counts well. -/
theorem usage_exact_of_countsWell (crates : Crates) (fuel : Nat) (storeMgr : NamedDataMgr)
    (sessionTtl : Nat) (tempFiles : Table TempFile TempFile.path) (actions : List UsageAction)
    (hcounts : Along (usageStep crates fuel) (CountsWell crates)
      (UploadSystem.init storeMgr sessionTtl tempFiles).gateway actions) :
    UsageExact (run (usageStep crates fuel)
      (UploadSystem.init storeMgr sessionTtl tempFiles).gateway actions) :=
  (run_invariant (fun _ action hstep hinv => UsageInv.step hinv action hstep) hcounts
    (usageInv_init storeMgr sessionTtl tempFiles)).exact

end Runs

/-! ## Two runs -/

/-- A request for a session of two bytes of a file. -/
def twoByteUpload (logicalPath : String) : UsageAction :=
  .create none ⟨some 2, .ok ⟨"app", logicalPath, none, 0, none⟩, "", none⟩
    SessionOrder.insertion 0 0

/-- One byte for the session with this number. -/
def byteFor (seq offset : Nat) : UsageAction :=
  .patch .none
    ⟨⟨0, seq⟩, "us_" ++ toString seq, "application/offset+octet-stream", some offset, [120]⟩
    offset 0

/-- One upload is finished before the next one begins. -/
def oneAfterTheOther : List UsageAction :=
  [twoByteUpload "a", byteFor 1 0, byteFor 1 1, twoByteUpload "b", byteFor 2 0]

/-- The gateway after the first actions. -/
def afterFirst (count : Nat) : ZoneGateway :=
  run (usageStep sampleCrates 1) (UploadSystem.init oneStoreMgr 3600 Table.empty).gateway
    (oneAfterTheOther.take count)

/-- A body counts well if it does so for the session and the file that it finds. -/
theorem countsWell_of_found {crates : Crates} {gateway : ZoneGateway} {faults : PatchFaults}
    {request : PatchRequest} {clientOffset now : Nat} {session : UploadSession}
    {bytes : List UInt8}
    (hfind : gateway.state.sessions.find? request.sessionId = some session)
    (hbytes : gateway.tempBytes session = some bytes)
    (h : if session.offset + request.body.length = session.chunkSize then
        Persists crates faults gateway session (bytes ++ request.body) now ∧
          gateway.unfinishedBytes session.appId = session.offset
      else gateway.bytesInUse session.appId + request.body.length ≤
        gateway.quotaBytes session.appId) :
    CountsWell crates gateway (.patch faults request clientOffset now) := by
  intro found path content hfits _
  obtain rfl : session = found := Option.some.inj (hfind.symm.trans hfits.found)
  obtain rfl : bytes = content := Option.some.inj (hbytes.symm.trans hfits.file)
  exact h

/-- A session of two bytes. -/
def twoByteSession (seq offset : Nat) (logicalPath : String) (status : ChunkUploadStatus) :
    UploadSession where
  sessionId := ⟨0, seq⟩
  canonicalUploadId := "path:app/" ++ logicalPath
  appId := "app"
  logicalPath := logicalPath
  fileHash := none
  chunkIndex := 0
  chunkHash := none
  chunkSize := 2
  offset := offset
  status := status
  tempFilePath := some ⟨"app", ⟨0, seq⟩, 0⟩
  updatedAt := 0
  chunkObjectId := none
  rawMetadata := ""

theorem oneAfterTheOther_exact : UsageExact (afterFirst 5) := by
  refine usage_exact_of_countsWell sampleCrates 1 oneStoreMgr 3600 Table.empty oneAfterTheOther
    ⟨trivial, ?_, ?_, trivial, ?_, trivial⟩
  · have hfind : (afterFirst 1).state.sessions.find? ⟨0, 1⟩ =
        some (twoByteSession 1 0 "a" .pending) := by
      decide
    have hbytes : (afterFirst 1).tempBytes (twoByteSession 1 0 "a" .pending) = some [] := by
      decide
    have hquota : (afterFirst 1).bytesInUse "app" + 1 ≤ (afterFirst 1).quotaBytes "app" := by
      decide
    exact countsWell_of_found hfind hbytes hquota
  · have hfind : (afterFirst 2).state.sessions.find? ⟨0, 1⟩ =
        some (twoByteSession 1 1 "a" .uploading) := by
      decide
    have hbytes : (afterFirst 2).tempBytes (twoByteSession 1 1 "a" .uploading) = some [120] := by
      decide
    exact countsWell_of_found hfind hbytes
      ⟨⟨fun _ => rfl, rfl, rfl, ChunkId.fromMixHashResult sampleCrates 2
        (sampleCrates.digest .sha256 [120, 120]) .mix256, .written, by decide,
        by decide⟩, by decide⟩
  · have hfind : (afterFirst 4).state.sessions.find? ⟨0, 2⟩ =
        some (twoByteSession 2 0 "b" .pending) := by
      decide
    have hbytes : (afterFirst 4).tempBytes (twoByteSession 2 0 "b" .pending) = some [] := by
      decide
    have hquota : (afterFirst 4).bytesInUse "app" + 1 ≤ (afterFirst 4).quotaBytes "app" := by
      decide
    exact countsWell_of_found hfind hbytes hquota

/-- A second upload has a byte in the cache when the first one is completed. -/
def sideBySide : List UsageAction :=
  [twoByteUpload "a", twoByteUpload "b", byteFor 1 0, byteFor 2 0, byteFor 1 1]

/-- The byte of the second upload is not counted any more. -/
theorem sideBySide_loses_a_byte :
    ¬ ∀ crates fuel storeMgr sessionTtl tempFiles actions,
      UsageExact (run (usageStep crates fuel)
        (UploadSystem.init storeMgr sessionTtl tempFiles).gateway actions) := by
  intro h
  have hrecorded := (h sampleCrates 1 oneStoreMgr 3600 Table.empty sideBySide).recorded "app"
  have huse : (run (usageStep sampleCrates 1)
      (UploadSystem.init oneStoreMgr 3600 Table.empty).gateway sideBySide).bytesInUse "app" =
        0 := by
    decide
  have hsum : (run (usageStep sampleCrates 1)
      (UploadSystem.init oneStoreMgr 3600 Table.empty).gateway sideBySide).unfinishedBytes "app" =
        1 := by
    decide
  rw [huse, hsum] at hrecorded
  cases hrecorded

end ZoneGateway

end NamedStore
end CyfsNdn

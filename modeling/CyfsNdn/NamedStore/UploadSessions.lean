import CyfsNdn.NamedStore.ZoneGateway
import CyfsNdn.NdnLib.SampleCrates
import CyfsNdn.Transition.Run

/-!
# Concurrent uploads of chunks

Any number of clients create sessions, ask for them and send bytes, while sessions
expire and are evicted.  A `PATCH` is in flight between its looks at the session;
everything under the write lock is one step.

`GatewayInv` relates the gateway to the `PATCH` requests that were answered with
success so far.  Four things break it, and the steps that do are excluded by
`UploadSafe`: a `PATCH` whose session is completed between its two looks panics; a
session that is filled with something that the store does not take keeps the bytes
of a request that failed, or is completed without them; a session whose upload id is
no header value is completed by a request that fails; and a session of length zero is
completed without a chunk.
-/

namespace CyfsNdn
namespace NamedStore

open NdnLib Relational Transition

/-! ## The system -/

/-- Where a `PATCH` in flight is. -/
inductive PatchStage where
  | checking
  | reading
  | draining
  deriving DecidableEq, Repr

/-- A `PATCH` in flight. -/
structure PatchCall where
  callId : Nat
  request : PatchRequest
  clientOffset : Nat
  stage : PatchStage
  deriving DecidableEq, Repr

/-- A `PATCH` that was answered with success. -/
structure AnsweredPatch where
  sessionId : SessionId
  offset : Nat
  body : List UInt8
  applied : Bool
  deriving DecidableEq, Repr

/-- The gateway, the `PATCH` requests in flight and those answered with success,
in the order of their answers. -/
structure UploadSystem where
  gateway : ZoneGateway
  calls : Table PatchCall PatchCall.callId
  answered : List AnsweredPatch
  panicked : Bool

/-- What can happen next. -/
inductive UploadAction where
  | create (request : CreateRequest) (order : SessionOrder) (now millis : Nat)
  | head (sid : SessionId) (sidText : String) (now : Nat)
  | patch (callId : Nat) (request : PatchRequest)
  | turn (callId : Nat) (now : Nat)
  | expire (now : Nat)

namespace UploadSystem

/-- A gateway that was just started on a manager; there may be files of an earlier
one. -/
def init (storeMgr : NamedDataMgr) (sessionTtl : Nat)
    (tempFiles : Table TempFile TempFile.path) : UploadSystem where
  gateway := ⟨storeMgr, sessionTtl, ⟨Table.empty, Table.empty, Table.empty, 1⟩, tempFiles⟩
  calls := Table.empty
  answered := []
  panicked := false

/-- A `PATCH` arrives and looks at its session for the first time. -/
def arrive (system : UploadSystem) (callId : Nat) (request : PatchRequest) : UploadSystem :=
  match ZoneGateway.patchHeaders request with
  | .error _ => system
  | .ok clientOffset =>
      match system.gateway.patchFirstLook request with
      | .error _ => system
      | .ok completedResponse =>
          let stage := if completedResponse.isSome then .draining else .checking
          { system with
            calls := system.calls.insertOrIgnore ⟨callId, request, clientOffset, stage⟩ }

/-- A `PATCH` in flight goes on. -/
def turn (crates : Crates) (system : UploadSystem) (call : PatchCall) (now : Nat) :
    UploadSystem :=
  match call.stage with
  | .draining =>
      -- The body was read and thrown away.
      { system with
        calls := system.calls.deleteKey call.callId
        answered := system.answered ++
          [⟨call.request.sessionId, call.clientOffset, call.request.body, false⟩] }
  | .checking =>
      match system.gateway.patchSecondLook call.request call.clientOffset now with
      | .accepted =>
          { system with
            calls := system.calls.updateKey call.callId
              (fun c => { c with stage := .reading }) fun _ => rfl }
      | .refused _ => { system with calls := system.calls.deleteKey call.callId }
      | .panicked =>
          { system with calls := system.calls.deleteKey call.callId, panicked := true }
  | .reading =>
      match system.gateway.patchLocked crates call.request call.clientOffset now with
      | (gateway, .error _) =>
          { system with gateway := gateway, calls := system.calls.deleteKey call.callId }
      | (gateway, .ok _) =>
          { system with
            gateway := gateway
            calls := system.calls.deleteKey call.callId
            answered := system.answered ++
              [⟨call.request.sessionId, call.clientOffset, call.request.body, true⟩] }

/-- One step; a `HEAD` only reads. -/
def step (crates : Crates) (fuel : Nat) (system : UploadSystem) (action : UploadAction) :
    UploadSystem :=
  match action with
  | .create request order now millis =>
      { system with
        gateway :=
          (system.gateway.handleCreateUpload crates fuel order request now millis).1 }
  | .head _ _ _ => system
  | .patch callId request => system.arrive callId request
  | .turn callId now =>
      match system.calls.find? callId with
      | none => system
      | some call => system.turn crates call now
  | .expire now => { system with gateway := system.gateway.expireSessions now }

end UploadSystem

/-! ## The requests that were applied -/

/-- The requests of a session that were applied. -/
def appliedTo (answered : List AnsweredPatch) (sid : SessionId) : List AnsweredPatch :=
  answered.filter fun a => a.applied && decide (a.sessionId = sid)

/-- Their bodies, one after the other. -/
def bodies (answers : List AnsweredPatch) : List UInt8 :=
  (answers.map AnsweredPatch.body).flatten

/-- Every request starts where the ones before it end. -/
def Consecutive : Nat → List AnsweredPatch → Prop
  | _, [] => True
  | n, a :: rest => a.offset = n ∧ a.body ≠ [] ∧ Consecutive (n + a.body.length) rest

theorem bodies_append_singleton (answers : List AnsweredPatch) (a : AnsweredPatch) :
    bodies (answers ++ [a]) = bodies answers ++ a.body := by
  simp [bodies]

theorem consecutive_append_singleton (a : AnsweredPatch) (answers : List AnsweredPatch) :
    ∀ n, Consecutive n (answers ++ [a]) ↔
      Consecutive n answers ∧ a.offset = n + (bodies answers).length ∧ a.body ≠ [] := by
  induction answers with
  | nil =>
      intro n
      simp [Consecutive, bodies]
  | cons b rest ih =>
      intro n
      simp only [List.cons_append, Consecutive, ih, bodies, List.map_cons, List.flatten_cons,
        List.length_append, ← Nat.add_assoc]
      tauto

/-- The offsets increase. -/
theorem Consecutive.pairwise_lt {answers : List AnsweredPatch} :
    ∀ {n : Nat}, Consecutive n answers →
      (∀ a ∈ answers, n ≤ a.offset) ∧ answers.Pairwise fun a b => a.offset < b.offset := by
  induction answers with
  | nil =>
      intro n _
      exact ⟨by simp, List.Pairwise.nil⟩
  | cons a rest ih =>
      rintro n ⟨hoffset, hbody, hrest⟩
      obtain ⟨hlater, hpairs⟩ := ih hrest
      have hpos := List.length_pos_of_ne_nil hbody
      refine ⟨?_, List.Pairwise.cons ?_ hpairs⟩
      · intro b hb
        rcases List.mem_cons.mp hb with rfl | hb
        · omega
        · have hle := hlater b hb
          omega
      · intro b hb
        have hle := hlater b hb
        omega

theorem appliedTo_append (answered : List AnsweredPatch) (a : AnsweredPatch)
    (sid : SessionId) :
    appliedTo (answered ++ [a]) sid =
      if a.applied = true ∧ a.sessionId = sid then appliedTo answered sid ++ [a]
      else appliedTo answered sid := by
  unfold appliedTo
  rw [List.filter_append]
  split_ifs with happlied
  · simp [happlied.1, happlied.2]
  · have hout : (a.applied && decide (a.sessionId = sid)) = false := by
      rw [Bool.and_eq_false_iff]
      by_cases h : a.applied = true
      · exact Or.inr (by simpa using fun hsid => happlied ⟨h, hsid⟩)
      · exact Or.inl (by simpa using h)
    simp [hout]

/-! ## The invariant -/

/-- The gateway agrees with the requests that were answered. -/
structure GatewayInv (crates : Crates) (answered : List AnsweredPatch)
    (gateway : ZoneGateway) : Prop where
  fresh : ∀ s ∈ gateway.state.sessions.rows, s.sessionId.seq < gateway.state.nextSessionSeq
  indexed : ∀ s ∈ gateway.state.sessions.rows,
    gateway.state.keyIndex.find? s.key = some ⟨s.key, s.sessionId⟩
  owned : ∀ e ∈ gateway.state.keyIndex.rows, ∃ s ∈ gateway.state.sessions.rows,
    s.sessionId = e.sessionId ∧ s.key = e.key
  sized : ∀ s ∈ gateway.state.sessions.rows, s.chunkSize ≤ maxChunkSize
  paths : ∀ s ∈ gateway.state.sessions.rows, ∀ path, s.tempFilePath = some path →
    path.sessionId = s.sessionId
  idle : ∀ s ∈ gateway.state.sessions.rows, s.status.isActive = false →
    s.offset = s.chunkSize ∧ s.status ≠ .expired
  live : ∀ s ∈ gateway.state.sessions.rows, s.status.isActive = true →
    gateway.tempBytes s = some (bodies (appliedTo answered s.sessionId)) ∧
      s.offset = (bodies (appliedTo answered s.sessionId)).length
  stored : ∀ s ∈ gateway.state.sessions.rows, s.status = .completed →
    ∃ chunkId : ChunkId, s.chunkObjectId = some (chunkId.toObjId.toString crates) ∧
      (bodies (appliedTo answered s.sessionId)).length = s.chunkSize ∧
      gateway.storeMgr.HoldsChunk crates chunkId (bodies (appliedTo answered s.sessionId))
  consecutive : ∀ sid, Consecutive 0 (appliedTo answered sid)
  past : ∀ a ∈ answered, a.sessionId.seq < gateway.state.nextSessionSeq
  unapplied : ∀ a ∈ answered, a.applied = false → ∀ s ∈ gateway.state.sessions.rows,
    s.sessionId = a.sessionId → s.status.isActive = false

/-- Sessions go away, and nothing else changes that the invariant is about. -/
structure Reduces (crates : Crates) (answered : List AnsweredPatch)
    (gateway gateway' : ZoneGateway) : Prop where
  inv : GatewayInv crates answered gateway → GatewayInv crates answered gateway'
  storeMgr : gateway'.storeMgr = gateway.storeMgr
  nextSessionSeq : gateway'.state.nextSessionSeq = gateway.state.nextSessionSeq
  keyIndex : ∀ key, gateway.state.keyIndex.find? key = none →
    gateway'.state.keyIndex.find? key = none
  sessions : ∀ s ∈ gateway'.state.sessions.rows, s ∈ gateway.state.sessions.rows

namespace Reduces

variable {crates : Crates} {answered : List AnsweredPatch}

theorem refl (gateway : ZoneGateway) : Reduces crates answered gateway gateway :=
  ⟨id, rfl, rfl, fun _ => id, fun _ => id⟩

theorem trans {a b c : ZoneGateway} (hab : Reduces crates answered a b)
    (hbc : Reduces crates answered b c) : Reduces crates answered a c where
  inv h := hbc.inv (hab.inv h)
  storeMgr := hbc.storeMgr.trans hab.storeMgr
  nextSessionSeq := hbc.nextSessionSeq.trans hab.nextSessionSeq
  keyIndex key h := hbc.keyIndex key (hab.keyIndex key h)
  sessions s h := hab.sessions s (hbc.sessions s h)

/-- The usage of the applications plays no part. -/
theorem withUsage (gateway : ZoneGateway)
    (appUsage : Table AppCacheUsage AppCacheUsage.appId) :
    Reduces crates answered gateway
      { gateway with state := { gateway.state with appUsage := appUsage } } where
  inv h := ⟨h.fresh, h.indexed, h.owned, h.sized, h.paths, h.idle, h.live, h.stored,
    h.consecutive, h.past, h.unapplied⟩
  storeMgr := rfl
  nextSessionSeq := rfl
  keyIndex _ h := h
  sessions _ h := h

/-- One session goes away. -/
theorem dropSession {gateway : ZoneGateway} {session : UploadSession}
    (hsession : gateway.state.sessions.find? session.sessionId = some session) :
    Reduces crates answered gateway (gateway.dropSession session) := by
  have hrow : session ∈ gateway.state.sessions.rows := (Table.find?_eq_some_iff.mp hsession).1
  have hmem : ∀ s, s ∈ (gateway.dropSession session).state.sessions.rows ↔
      s ∈ gateway.state.sessions.rows ∧ s.sessionId ≠ session.sessionId := by
    intro s
    show s ∈ (gateway.state.sessions.deleteWhere _).rows ↔ _
    rw [Table.mem_deleteWhere, decide_eq_false_iff_not]
  have hkeys : ∀ key, (gateway.dropSession session).state.keyIndex.find? key =
      if key = session.key then none else gateway.state.keyIndex.find? key :=
    Table.find?_deleteKey gateway.state.keyIndex session.key
  refine ⟨?_, rfl, rfl, ?_, fun s hs => ((hmem s).mp hs).1⟩
  · intro h
    have hbytes : ∀ s ∈ gateway.state.sessions.rows, s.sessionId ≠ session.sessionId →
        (gateway.dropSession session).tempBytes s = gateway.tempBytes s := by
      intro s hs hne
      unfold ZoneGateway.tempBytes
      cases hpath : s.tempFilePath with
      | none => rfl
      | some path =>
          have howner := h.paths s hs path hpath
          show ((ZoneGateway.removeTempCacheFile gateway.tempFiles
            session.tempFilePath).find? path).map TempFile.bytes = _
          cases hdropped : session.tempFilePath with
          | none => rfl
          | some dropped =>
              have hother : path ≠ dropped := by
                rintro rfl
                exact hne (howner.symm.trans (h.paths session hrow _ hdropped))
              have hfind := Table.find?_deleteKey gateway.tempFiles dropped path
              rw [if_neg hother] at hfind
              show ((gateway.tempFiles.deleteKey dropped).find? path).map TempFile.bytes = _
              rw [hfind]
              rfl
    constructor
    · intro s hs
      exact h.fresh s ((hmem s).mp hs).1
    · intro s hs
      obtain ⟨hold, hne⟩ := (hmem s).mp hs
      have hentry := h.indexed s hold
      rw [hkeys, if_neg]
      · exact hentry
      · intro hkey
        rw [hkey, h.indexed session hrow] at hentry
        exact hne (KeyEntry.mk.inj (Option.some.inj hentry)).2.symm
    · intro e he
      have hfind := Table.find?_key_of_mem he
      rw [hkeys] at hfind
      split_ifs at hfind with hkey
      obtain ⟨s, hs, hid, hskey⟩ := h.owned e (Table.find?_eq_some_iff.mp hfind).1
      refine ⟨s, (hmem s).mpr ⟨hs, ?_⟩, hid, hskey⟩
      intro heq
      have hsame := Table.eq_of_key_eq gateway.state.sessions hs hrow heq
      exact hkey (hskey.symm.trans (congrArg UploadSession.key hsame))
    · intro s hs
      exact h.sized s ((hmem s).mp hs).1
    · intro s hs
      exact h.paths s ((hmem s).mp hs).1
    · intro s hs
      exact h.idle s ((hmem s).mp hs).1
    · intro s hs hactive
      obtain ⟨hold, hne⟩ := (hmem s).mp hs
      rw [hbytes s hold hne]
      exact h.live s hold hactive
    · intro s hs
      exact h.stored s ((hmem s).mp hs).1
    · exact h.consecutive
    · exact h.past
    · intro a ha hunapplied s hs
      exact h.unapplied a ha hunapplied s ((hmem s).mp hs).1
  · intro key hnone
    rw [hkeys]
    split_ifs
    · rfl
    · exact hnone

theorem dropListed (gateway : ZoneGateway) (sids : List SessionId) :
    Reduces crates answered gateway (gateway.dropListed sids) := by
  unfold ZoneGateway.dropListed
  induction sids generalizing gateway with
  | nil => exact refl gateway
  | cons sid rest ih =>
      rw [List.foldl_cons]
      refine trans ?_ (ih _)
      cases hfind : gateway.state.sessions.find? sid with
      | none => exact refl gateway
      | some session =>
          have hid := (Table.find?_eq_some_iff.mp hfind).2
          subst hid
          exact (dropSession hfind).trans (withUsage _ _)

theorem evictOldest (needed : Nat) (candidates : List (SessionId × Nat)) :
    ∀ (gateway : ZoneGateway) (freed : Nat), Reduces crates answered gateway
      (ZoneGateway.evictOldest needed gateway freed candidates).1 := by
  induction candidates with
  | nil =>
      intro gateway freed
      exact refl gateway
  | cons candidate rest ih =>
      intro gateway freed
      obtain ⟨sid, offsetBytes⟩ := candidate
      unfold ZoneGateway.evictOldest
      split_ifs
      · exact refl gateway
      · cases hfind : gateway.state.sessions.find? sid with
        | none => exact ih gateway freed
        | some session =>
            have hid := (Table.find?_eq_some_iff.mp hfind).2
            subst hid
            exact (dropSession hfind).trans (ih _ _)

theorem evictLruForApp (order : SessionOrder) (gateway : ZoneGateway) (appId : String)
    (needed : Nat) :
    Reduces crates answered gateway (gateway.evictLruForApp order appId needed).1 :=
  (evictOldest needed _ gateway 0).trans (withUsage _ _)

theorem checkQuota (order : SessionOrder) (gateway : ZoneGateway) (appId : String)
    (chunkSize : Nat) :
    Reduces crates answered gateway (gateway.checkQuota order appId chunkSize).1 := by
  unfold ZoneGateway.checkQuota
  dsimp only
  split_ifs
  · exact withUsage _ _
  · exact ((withUsage _ _).trans (evictLruForApp order _ appId _)).trans (withUsage _ _)
  · exact ((withUsage _ _).trans (evictLruForApp order _ appId _)).trans (withUsage _ _)

end Reduces

/-! ## New sessions -/

section NewSessions

variable {crates : Crates} {answered : List AnsweredPatch} {gateway : ZoneGateway}

/-- A session with a new id and a new key, whose file, if it has one, is new and
empty. -/
theorem GatewayInv.insertSession (h : GatewayInv crates answered gateway)
    {session : UploadSession} (files : Table TempFile TempFile.path)
    (hid : session.sessionId.seq = gateway.state.nextSessionSeq)
    (hkey : gateway.state.keyIndex.find? session.key = none)
    (hsized : session.chunkSize ≤ maxChunkSize)
    (hpath : ∀ path, session.tempFilePath = some path → path.sessionId = session.sessionId)
    (hfiles : ∀ path, path.sessionId ≠ session.sessionId →
      files.find? path = gateway.tempFiles.find? path)
    (hstatus : (session.status = .skipped ∧ session.offset = session.chunkSize) ∨
      (session.status = .pending ∧ session.offset = 0 ∧ ∃ path,
        session.tempFilePath = some path ∧ files.find? path = some ⟨path, []⟩)) :
    GatewayInv crates answered
      (ZoneGateway.insertSession
        { gateway with
          state := { gateway.state with nextSessionSeq := gateway.state.nextSessionSeq + 1 }
          tempFiles := files } session session.key) := by
  have hold : ∀ s ∈ gateway.state.sessions.rows, s.sessionId ≠ session.sessionId := by
    intro s hs heq
    have hlt := h.fresh s hs
    rw [heq, hid] at hlt
    omega
  have hrows : ∀ s, s ∈ (gateway.state.sessions.insertOrReplace session).rows ↔
      s = session ∨ s ∈ gateway.state.sessions.rows := by
    intro s
    rw [Table.mem_insertOrReplace]
    constructor
    · rintro (hnew | ⟨hs, -⟩)
      · exact Or.inl hnew
      · exact Or.inr hs
    · rintro (hnew | hs)
      · exact Or.inl hnew
      · exact Or.inr ⟨hs, hold s hs⟩
  have hindex := fun key => Table.find?_insertOrReplace gateway.state.keyIndex
    ⟨session.key, session.sessionId⟩ key
  have hnokey : ∀ s ∈ gateway.state.sessions.rows, s.key ≠ session.key := by
    intro s hs heq
    have hentry := h.indexed s hs
    rw [heq, hkey] at hentry
    cases hentry
  have hnone : appliedTo answered session.sessionId = [] := by
    unfold appliedTo
    rw [List.filter_eq_nil_iff]
    intro a ha happlied
    have hlt := h.past a ha
    simp only [Bool.and_eq_true, decide_eq_true_eq] at happlied
    rw [happlied.2, hid] at hlt
    omega
  have hbytes : ∀ s ∈ gateway.state.sessions.rows,
      (s.tempFilePath.bind fun path => (files.find? path).map TempFile.bytes) =
        gateway.tempBytes s := by
    intro s hs
    unfold ZoneGateway.tempBytes
    cases hspath : s.tempFilePath with
    | none => rfl
    | some path =>
        have howner := h.paths s hs path hspath
        have hne := hold s hs
        rw [← howner] at hne
        show (files.find? path).map TempFile.bytes = _
        rw [hfiles path hne]
        rfl
  unfold ZoneGateway.insertSession
  constructor
  · intro s hs
    show s.sessionId.seq < gateway.state.nextSessionSeq + 1
    rcases (hrows s).mp hs with rfl | hs
    · omega
    · have hlt := h.fresh s hs
      omega
  · intro s hs
    show (gateway.state.keyIndex.insertOrReplace _).find? s.key = _
    rw [hindex]
    rcases (hrows s).mp hs with rfl | hs
    · rw [if_pos rfl]
    · rw [if_neg (hnokey s hs)]
      exact h.indexed s hs
  · intro e he
    rcases Table.mem_insertOrReplace.mp he with rfl | ⟨he, -⟩
    · exact ⟨session, (hrows session).mpr (Or.inl rfl), rfl, rfl⟩
    · obtain ⟨s, hs, hsid, hskey⟩ := h.owned e he
      exact ⟨s, (hrows s).mpr (Or.inr hs), hsid, hskey⟩
  · intro s hs
    rcases (hrows s).mp hs with rfl | hs
    · exact hsized
    · exact h.sized s hs
  · intro s hs
    rcases (hrows s).mp hs with rfl | hs
    · exact hpath
    · exact h.paths s hs
  · intro s hs hidle
    rcases (hrows s).mp hs with rfl | hs
    · rcases hstatus with ⟨hskipped, hfull⟩ | ⟨hpending, -⟩
      · exact ⟨hfull, by simp [hskipped]⟩
      · rw [hpending] at hidle
        cases hidle
    · exact h.idle s hs hidle
  · intro s hs hactive
    show (s.tempFilePath.bind fun path => (files.find? path).map TempFile.bytes) = _ ∧ _
    rcases (hrows s).mp hs with rfl | hs
    · rcases hstatus with ⟨hskipped, -⟩ | ⟨-, hzero, path, hspath, hfile⟩
      · rw [hskipped] at hactive
        cases hactive
      · rw [hspath, hnone]
        exact ⟨by simp [hfile, bodies], by simp [hzero, bodies]⟩
    · rw [hbytes s hs]
      exact h.live s hs hactive
  · intro s hs hcompleted
    rcases (hrows s).mp hs with rfl | hs
    · rcases hstatus with ⟨hskipped, -⟩ | ⟨hpending, -⟩
      · rw [hskipped] at hcompleted
        cases hcompleted
      · rw [hpending] at hcompleted
        cases hcompleted
    · exact h.stored s hs hcompleted
  · exact h.consecutive
  · intro a ha
    show a.sessionId.seq < gateway.state.nextSessionSeq + 1
    have hlt := h.past a ha
    omega
  · intro a ha hunapplied s hs hsid
    rcases (hrows s).mp hs with rfl | hs
    · have hlt := h.past a ha
      rw [← hsid, hid] at hlt
      omega
    · exact h.unapplied a ha hunapplied s hs hsid

/-- The sessions that take bytes after a step did so before, or are new. -/
structure Advances (gateway gateway' : ZoneGateway) : Prop where
  nextSessionSeq : gateway.state.nextSessionSeq ≤ gateway'.state.nextSessionSeq
  active : ∀ s' ∈ gateway'.state.sessions.rows, s'.status.isActive = true →
    s'.sessionId.seq < gateway.state.nextSessionSeq →
      ∃ s ∈ gateway.state.sessions.rows, s.sessionId = s'.sessionId ∧ s.status.isActive = true

theorem Advances.refl (gateway : ZoneGateway) : Advances gateway gateway :=
  ⟨Nat.le_refl _, fun s hs hactive _ => ⟨s, hs, rfl, hactive⟩⟩

theorem Advances.trans {a b c : ZoneGateway} (hab : Advances a b) (hbc : Advances b c) :
    Advances a c where
  nextSessionSeq := Nat.le_trans hab.nextSessionSeq hbc.nextSessionSeq
  active s hs hactive hold := by
    obtain ⟨t, ht, hid, htactive⟩ := hbc.active s hs hactive
      (Nat.lt_of_lt_of_le hold hab.nextSessionSeq)
    obtain ⟨u, hu, huid, huactive⟩ := hab.active t ht htactive (hid ▸ hold)
    exact ⟨u, hu, huid.trans hid, huactive⟩

theorem Reduces.advances {gateway' : ZoneGateway}
    (h : Reduces crates answered gateway gateway') : Advances gateway gateway' :=
  ⟨Nat.le_of_eq h.nextSessionSeq.symm,
    fun s hs hactive _ => ⟨s, h.sessions s hs, rfl, hactive⟩⟩

/-- A new session has a number that was not given before. -/
theorem advances_insertSession (files : Table TempFile TempFile.path)
    {session : UploadSession} (key : SessionKey)
    (hid : session.sessionId.seq = gateway.state.nextSessionSeq) :
    Advances gateway
      (ZoneGateway.insertSession
        { gateway with
          state := { gateway.state with nextSessionSeq := gateway.state.nextSessionSeq + 1 }
          tempFiles := files } session key) := by
  refine ⟨Nat.le_succ _, ?_⟩
  intro s hs hactive hold
  rcases Table.mem_insertOrReplace.mp hs with rfl | ⟨hs, -⟩
  · omega
  · exact ⟨s, hs, rfl, hactive⟩

end NewSessions

/-! ## Creations -/

/-- A creation of length zero meets a session that is there, or a chunk that is
stored. -/
def NothingToUpload (crates : Crates) (fuel : Nat) (gateway : ZoneGateway)
    (metadata : UploadMetadata) : Prop :=
  (∃ s ∈ gateway.state.sessions.rows, s.key = ZoneGateway.requestKey metadata) ∨
    ((ZoneGateway.namedChunk crates metadata).filter fun chunkId =>
      (gateway.storeMgr.haveChunk crates fuel chunkId).getD false).isSome

section Creations

variable {crates : Crates} {answered : List AnsweredPatch} {gateway : ZoneGateway}
  {fuel : Nat}

theorem startUpload_inv (h : GatewayInv crates answered gateway) (order : SessionOrder)
    (request : CreateRequest) (metadata : UploadMetadata) {chunkSize : Nat}
    (hsize : chunkSize ≤ maxChunkSize) (hpos : chunkSize ≠ 0) (now millis : Nat)
    (hkey : gateway.state.keyIndex.find? (ZoneGateway.requestKey metadata) = none) :
    let started := gateway.startUpload order request metadata chunkSize now millis
      (ZoneGateway.requestKey metadata)
    GatewayInv crates answered started.1 ∧ Advances gateway started.1 := by
  have hquota : Reduces crates answered gateway
      (gateway.checkQuota order metadata.appId chunkSize).1 :=
    Reduces.checkQuota order gateway metadata.appId chunkSize
  unfold ZoneGateway.startUpload
  split
  · next reduced e hreduced =>
    rw [hreduced] at hquota
    exact ⟨hquota.inv h, hquota.advances⟩
  · next reduced hreduced =>
    rw [hreduced] at hquota
    dsimp only [ZoneGateway.generateSessionId]
    rw [if_neg hpos]
    refine ⟨?_, hquota.advances.trans (advances_insertSession _ _ rfl)⟩
    refine (hquota.inv h).insertSession _ rfl (hquota.keyIndex _ hkey) hsize ?_ ?_ ?_
    · intro path hpath
      simp only [ZoneGateway.newSession, if_neg hpos, Option.some.injEq] at hpath
      rw [← hpath]
      rfl
    · intro path hne
      rw [Table.find?_insertOrReplace, if_neg]
      rintro rfl
      exact hne rfl
    · refine Or.inr ⟨if_neg hpos, rfl, _, if_neg hpos, ?_⟩
      rw [Table.find?_insertOrReplace, if_pos rfl]

theorem createSession_inv (h : GatewayInv crates answered gateway) (fuel : Nat) (order : SessionOrder)
    (request : CreateRequest) (metadata : UploadMetadata) {chunkSize : Nat}
    (hsize : chunkSize ≤ maxChunkSize) (now millis : Nat)
    (hkey : gateway.state.keyIndex.find? (ZoneGateway.requestKey metadata) = none)
    (hzero : chunkSize = 0 → ((ZoneGateway.namedChunk crates metadata).filter fun chunkId =>
      (gateway.storeMgr.haveChunk crates fuel chunkId).getD false).isSome) :
    let created := gateway.createSession crates fuel order request metadata chunkSize now
      millis (ZoneGateway.requestKey metadata)
    GatewayInv crates answered created.1 ∧ Advances gateway created.1 := by
  unfold ZoneGateway.createSession
  split
  · next chunkId hstored =>
    dsimp only [ZoneGateway.generateSessionId]
    refine ⟨?_, advances_insertSession gateway.tempFiles _ rfl⟩
    refine h.insertSession gateway.tempFiles rfl hkey hsize ?_ (fun _ _ => rfl)
      (Or.inl ⟨rfl, rfl⟩)
    intro path hpath
    cases hpath
  · next hnone =>
    refine startUpload_inv h order request metadata hsize ?_ now millis hkey
    intro hlength
    have hsome := hzero hlength
    rw [hnone] at hsome
    cases hsome

/-- A session that is not listed stays. -/
theorem mem_dropListed {s : UploadSession} (sids : List SessionId)
    (hout : s.sessionId ∉ sids) :
    ∀ gateway : ZoneGateway, s ∈ gateway.state.sessions.rows →
      s ∈ (gateway.dropListed sids).state.sessions.rows := by
  unfold ZoneGateway.dropListed
  induction sids with
  | nil => exact fun _ hs => hs
  | cons sid rest ih =>
      intro gateway hs
      obtain ⟨hne, hrest⟩ : s.sessionId ≠ sid ∧ s.sessionId ∉ rest := by simpa using hout
      rw [List.foldl_cons]
      refine ih hrest _ ?_
      cases hfind : gateway.state.sessions.find? sid with
      | none => exact hs
      | some session =>
          have hid := (Table.find?_eq_some_iff.mp hfind).2
          refine Table.mem_deleteWhere.mpr ⟨hs, ?_⟩
          rw [decide_eq_false_iff_not, hid]
          exact hne

theorem createLocked_inv (h : GatewayInv crates answered gateway) (order : SessionOrder)
    (request : CreateRequest) (metadata : UploadMetadata) {chunkSize : Nat}
    (hsize : chunkSize ≤ maxChunkSize) (now millis : Nat)
    (hzero : chunkSize = 0 → NothingToUpload crates fuel gateway metadata) :
    let created := gateway.createLocked crates fuel order request metadata chunkSize now millis
    GatewayInv crates answered created.1 ∧ Advances gateway created.1 := by
  have hstale : Reduces crates answered gateway (gateway.invalidateStaleSessions
      metadata.appId metadata.logicalPath (metadata.fileHash.getD "")) :=
    Reduces.dropListed gateway _
  have hinv := hstale.inv h
  have hmgr := hstale.storeMgr
  unfold ZoneGateway.createLocked
  dsimp only
  split
  · next existing hexisting =>
    -- No session is ever marked expired.
    have hrow : existing ∈ (gateway.invalidateStaleSessions metadata.appId
        metadata.logicalPath (metadata.fileHash.getD "")).state.sessions.rows := by
      obtain ⟨entry, -, hfind⟩ := Option.bind_eq_some_iff.mp hexisting
      exact (Table.find?_eq_some_iff.mp hfind).1
    have hnot : existing.status ≠ .expired := by
      intro hexpired
      exact (hinv.idle existing hrow (by rw [hexpired]; rfl)).2 hexpired
    rw [if_neg hnot]
    exact ⟨hinv, hstale.advances⟩
  · next hnone =>
    have hkey : (gateway.invalidateStaleSessions metadata.appId metadata.logicalPath
        (metadata.fileHash.getD "")).state.keyIndex.find?
          (ZoneGateway.requestKey metadata) = none := by
      cases hentry : (gateway.invalidateStaleSessions metadata.appId metadata.logicalPath
          (metadata.fileHash.getD "")).state.keyIndex.find?
            (ZoneGateway.requestKey metadata) with
      | none => rfl
      | some entry =>
          obtain ⟨s, hs, hid, -⟩ := hinv.owned entry (Table.find?_eq_some_iff.mp hentry).1
          have hfind := Table.find?_key_of_mem hs
          rw [hid] at hfind
          rw [hentry, Option.bind_some, hfind] at hnone
          cases hnone
    obtain ⟨hcreated, hadvances⟩ := createSession_inv hinv fuel order request
      metadata hsize now millis hkey (by
        intro hlength
        rcases hzero hlength with ⟨s, hs, hskey⟩ | hstored
        · -- The session with this key was not stale.
          have hkept : s ∈ (gateway.invalidateStaleSessions metadata.appId
              metadata.logicalPath (metadata.fileHash.getD "")).state.sessions.rows := by
            refine mem_dropListed _ ?_ gateway hs
            intro hlisted
            obtain ⟨t, ht, htid⟩ := List.mem_map.mp hlisted
            obtain ⟨htrow, htstale⟩ := List.mem_filter.mp ht
            obtain rfl := Table.eq_of_key_eq gateway.state.sessions htrow hs htid
            have hhash : t.fileHash.getD "" = metadata.fileHash.getD "" :=
              congrArg SessionKey.fileHash hskey
            simp [hhash] at htstale
          have hentry := hinv.indexed s hkept
          rw [hskey] at hentry
          exact absurd (hkey.symm.trans hentry) (by simp)
        · rw [hmgr]
          exact hstored)
    exact ⟨hcreated, hstale.advances.trans hadvances⟩

theorem handleCreateUpload_inv (h : GatewayInv crates answered gateway)
    (order : SessionOrder) (request : CreateRequest) (now millis : Nat)
    (hzero : request.uploadLength = some 0 → ∀ metadata, request.metadata = .ok metadata →
      NothingToUpload crates fuel gateway metadata) :
    let created := gateway.handleCreateUpload crates fuel order request now millis
    GatewayInv crates answered created.1 ∧ Advances gateway created.1 := by
  unfold ZoneGateway.handleCreateUpload
  split
  · exact ⟨h, Advances.refl gateway⟩
  · next chunkSize hlength =>
    split_ifs with hlarge
    · exact ⟨h, Advances.refl gateway⟩
    · split
      · exact ⟨h, Advances.refl gateway⟩
      · next metadata hmetadata =>
        split
        · exact ⟨h, Advances.refl gateway⟩
        · refine createLocked_inv h order request metadata (by omega) now millis ?_
          rintro rfl
          exact hzero hlength metadata hmetadata

end Creations

/-! ## Bytes that are applied -/

section Patches

variable {crates : Crates} {answered : List AnsweredPatch} {gateway gateway' : ZoneGateway}
  {session session' : UploadSession} {body : List UInt8}

variable (session') in
/-- One session takes a body at its offset: it grows, or it is full and stored. -/
theorem GatewayInv.applied (h : GatewayInv crates answered gateway)
    (hsession : gateway.state.sessions.find? session.sessionId = some session)
    (hactive : session.status.isActive = true) (hbody : body ≠ [])
    (hsessions : ∀ k, gateway'.state.sessions.find? k =
      if k = session.sessionId then some session' else gateway.state.sessions.find? k)
    (hindex : gateway'.state.keyIndex = gateway.state.keyIndex)
    (hnext : gateway'.state.nextSessionSeq = gateway.state.nextSessionSeq)
    (hfiles : ∀ path, path.sessionId ≠ session.sessionId →
      gateway'.tempFiles.find? path = gateway.tempFiles.find? path)
    (hstores : ∀ chunkId content, gateway.storeMgr.HoldsChunk crates chunkId content →
      gateway'.storeMgr.HoldsChunk crates chunkId content)
    (hid : session'.sessionId = session.sessionId) (hkey : session'.key = session.key)
    (hsize : session'.chunkSize = session.chunkSize)
    (hpath : session'.tempFilePath = session.tempFilePath)
    (hoffset : session'.offset = session.offset + body.length)
    (hstatus :
      (session'.status = .uploading ∧ gateway'.tempBytes session' =
        some (bodies (appliedTo answered session.sessionId) ++ body)) ∨
      (session'.status = .completed ∧ session'.offset = session'.chunkSize ∧
        ∃ chunkId : ChunkId, session'.chunkObjectId = some (chunkId.toObjId.toString crates) ∧
          gateway'.storeMgr.HoldsChunk crates chunkId
            (bodies (appliedTo answered session.sessionId) ++ body))) :
    GatewayInv crates
        (answered ++ [⟨session.sessionId, session.offset, body, true⟩]) gateway' ∧
      Advances gateway gateway' := by
  have hrow : session ∈ gateway.state.sessions.rows := (Table.find?_eq_some_iff.mp hsession).1
  obtain ⟨-, hlength⟩ := h.live session hrow hactive
  -- The rows of the new table.
  have hrows : ∀ s ∈ gateway'.state.sessions.rows, s = session' ∨
      s ∈ gateway.state.sessions.rows ∧ s.sessionId ≠ session.sessionId := by
    intro s hs
    have hfind := Table.find?_key_of_mem hs
    rw [hsessions] at hfind
    split_ifs at hfind with heq
    · exact Or.inl (Option.some.inj hfind).symm
    · exact Or.inr ⟨(Table.find?_eq_some_iff.mp hfind).1, heq⟩
  have hnew : session' ∈ gateway'.state.sessions.rows := by
    have hfind := hsessions session.sessionId
    rw [if_pos rfl] at hfind
    exact (Table.find?_eq_some_iff.mp hfind).1
  have hkeep : ∀ s ∈ gateway.state.sessions.rows, s.sessionId ≠ session.sessionId →
      s ∈ gateway'.state.sessions.rows := by
    intro s hs hne
    have hfind := hsessions s.sessionId
    rw [if_neg hne, Table.find?_key_of_mem hs] at hfind
    exact (Table.find?_eq_some_iff.mp hfind).1
  have happlied : appliedTo
      (answered ++ [⟨session.sessionId, session.offset, body, true⟩]) session.sessionId =
        appliedTo answered session.sessionId ++
          [⟨session.sessionId, session.offset, body, true⟩] := by
    rw [appliedTo_append, if_pos ⟨rfl, rfl⟩]
  have hothers : ∀ sid, sid ≠ session.sessionId → appliedTo
      (answered ++ [⟨session.sessionId, session.offset, body, true⟩]) sid =
        appliedTo answered sid := by
    intro sid hne
    rw [appliedTo_append, if_neg]
    exact fun hsid => hne hsid.2.symm
  have hbytes : ∀ s ∈ gateway.state.sessions.rows, s.sessionId ≠ session.sessionId →
      gateway'.tempBytes s = gateway.tempBytes s := by
    intro s hs hne
    unfold ZoneGateway.tempBytes
    cases hspath : s.tempFilePath with
    | none => rfl
    | some path =>
        have howner := h.paths s hs path hspath
        rw [← howner] at hne
        show (gateway'.tempFiles.find? path).map TempFile.bytes = _
        rw [hfiles path hne]
        rfl
  have hall : (bodies (appliedTo answered session.sessionId) ++ body).length =
      session'.offset := by
    rw [List.length_append, ← hlength, hoffset]
  constructor
  · constructor
    · intro s hs
      rw [hnext]
      rcases hrows s hs with rfl | ⟨hs, -⟩
      · rw [hid]
        exact h.fresh session hrow
      · exact h.fresh s hs
    · intro s hs
      rw [hindex]
      rcases hrows s hs with rfl | ⟨hs, -⟩
      · rw [hkey, hid]
        exact h.indexed session hrow
      · exact h.indexed s hs
    · intro e he
      rw [hindex] at he
      obtain ⟨s, hs, hsid, hskey⟩ := h.owned e he
      by_cases heq : s.sessionId = session.sessionId
      · obtain rfl := Table.eq_of_key_eq gateway.state.sessions hs hrow heq
        exact ⟨session', hnew, hid.trans hsid, hkey.trans hskey⟩
      · exact ⟨s, hkeep s hs heq, hsid, hskey⟩
    · intro s hs
      rcases hrows s hs with rfl | ⟨hs, -⟩
      · rw [hsize]
        exact h.sized session hrow
      · exact h.sized s hs
    · intro s hs path hspath
      rcases hrows s hs with rfl | ⟨hs, -⟩
      · rw [hid]
        exact h.paths session hrow path (hpath ▸ hspath)
      · exact h.paths s hs path hspath
    · intro s hs hidle
      rcases hrows s hs with rfl | ⟨hs, -⟩
      · rcases hstatus with ⟨huploading, -⟩ | ⟨hcompleted, hfull, -⟩
        · rw [huploading] at hidle
          cases hidle
        · exact ⟨hfull, by simp [hcompleted]⟩
      · exact h.idle s hs hidle
    · intro s hs hsactive
      rcases hrows s hs with rfl | ⟨hs, hne⟩
      · rw [hid, happlied, bodies_append_singleton]
        rcases hstatus with ⟨-, hfile⟩ | ⟨hcompleted, -⟩
        · exact ⟨hfile, hall.symm⟩
        · rw [hcompleted] at hsactive
          cases hsactive
      · rw [hothers _ hne, hbytes s hs hne]
        exact h.live s hs hsactive
    · intro s hs hscompleted
      rcases hrows s hs with rfl | ⟨hs, hne⟩
      · rw [hid, happlied, bodies_append_singleton]
        rcases hstatus with ⟨huploading, -⟩ | ⟨-, hfull, chunkId, hobject, hholds⟩
        · rw [huploading] at hscompleted
          cases hscompleted
        · exact ⟨chunkId, hobject, hall.trans hfull, hholds⟩
      · rw [hothers _ hne]
        obtain ⟨chunkId, hobject, hfull, hholds⟩ := h.stored s hs hscompleted
        exact ⟨chunkId, hobject, hfull, hstores _ _ hholds⟩
    · intro sid
      by_cases hsid : sid = session.sessionId
      · rw [hsid, happlied, consecutive_append_singleton]
        exact ⟨h.consecutive _, by simpa using hlength, hbody⟩
      · rw [hothers sid hsid]
        exact h.consecutive sid
    · intro a ha
      rw [hnext]
      rcases List.mem_append.mp ha with hold | hlast
      · exact h.past a hold
      · rw [List.mem_singleton.mp hlast]
        exact h.fresh session hrow
    · intro a ha hunapplied s hs hsid
      rcases List.mem_append.mp ha with hold | hlast
      · rcases hrows s hs with rfl | ⟨hs, -⟩
        · -- A session that took this body was active until now.
          have hidle := h.unapplied a hold hunapplied session hrow (hid.symm.trans hsid)
          rw [hactive] at hidle
          cases hidle
        · exact h.unapplied a hold hunapplied s hs hsid
      · rw [List.mem_singleton.mp hlast] at hunapplied
        cases hunapplied
  · refine ⟨Nat.le_of_eq hnext.symm, ?_⟩
    intro s hs hsactive _
    rcases hrows s hs with rfl | ⟨hs, -⟩
    · exact ⟨session, hrow, hid.symm, hactive⟩
    · exact ⟨s, hs, rfl, hsactive⟩

/-- A `PATCH` that fills its session fills it with what the store takes, and the upload id
of the session can be sent. -/
def FillsWell (crates : Crates) (gateway : ZoneGateway) (request : PatchRequest)
    (clientOffset : Nat) : Prop :=
  ∀ session bytes, gateway.state.sessions.find? request.sessionId = some session →
    gateway.tempBytes session = some bytes → request.body ≠ [] →
    clientOffset = session.offset →
    session.offset + request.body.length = session.chunkSize →
      ZoneGateway.headerAccepts session.canonicalUploadId = true ∧ ∃ chunkId,
        ZoneGateway.uploadChunkId crates session.chunkHash (bytes ++ request.body) =
            .ok chunkId ∧
          gateway.storeMgr.Takes crates chunkId (bytes ++ request.body)

/-- The file of a session after an append to it. -/
theorem tempFiles_appendTempFile (path other : TempFilePath) (body : List UInt8) :
    (gateway.appendTempFile path body).tempFiles.find? other =
      if other = path then
        (gateway.tempFiles.find? other).map fun file => { file with bytes := file.bytes ++ body }
      else gateway.tempFiles.find? other :=
  Table.find?_updateKey gateway.tempFiles path other
    (fun file => { file with bytes := file.bytes ++ body }) fun _ => rfl

theorem find?_updateSession (sid k : SessionId) (f : UploadSession → UploadSession)
    (hf : ∀ s, (f s).sessionId = s.sessionId) :
    (gateway.updateSession sid f hf).state.sessions.find? k =
      if k = sid then (gateway.state.sessions.find? k).map f
      else gateway.state.sessions.find? k :=
  Table.find?_updateKey gateway.state.sessions sid k f hf

theorem find?_completeSession (session : UploadSession) (storeMgr : NamedDataMgr)
    (chunkObjectId : String) (k : SessionId) :
    (gateway.completeSession session storeMgr chunkObjectId).state.sessions.find? k =
      if k = session.sessionId then
        (gateway.state.sessions.find? k).map fun s => ZoneGateway.completedSession s chunkObjectId
      else gateway.state.sessions.find? k :=
  Table.find?_updateKey gateway.state.sessions session.sessionId k
    (fun s => ZoneGateway.completedSession s chunkObjectId) fun _ => rfl

theorem patchLocked_inv (laws : crates.Lawful) (h : GatewayInv crates answered gateway)
    (request : PatchRequest) (clientOffset now : Nat)
    (hfills : FillsWell crates gateway request clientOffset) :
    let locked := gateway.patchLocked crates request clientOffset now
    ((∃ e, locked.2 = .error e) ∧ locked.1 = gateway) ∨
      (∃ response, locked.2 = .ok response) ∧
        GatewayInv crates
          (answered ++ [⟨request.sessionId, clientOffset, request.body, true⟩]) locked.1 ∧
        Advances gateway locked.1 := by
  intro locked
  have hlocked : locked = gateway.patchLocked crates request clientOffset now := rfl
  clear_value locked
  subst hlocked
  unfold ZoneGateway.patchLocked
  by_cases hbody : request.body = []
  · rw [if_pos hbody]
    exact Or.inl ⟨⟨_, rfl⟩, rfl⟩
  rw [if_neg hbody]
  cases hfind : gateway.state.sessions.find? request.sessionId with
  | none => exact Or.inl ⟨⟨_, rfl⟩, rfl⟩
  | some session =>
  obtain ⟨hrow, hid⟩ := Table.find?_eq_some_iff.mp hfind
  dsimp only
  by_cases hoffset : clientOffset = session.offset
  swap
  · rw [if_pos hoffset]
    exact Or.inl ⟨⟨_, rfl⟩, rfl⟩
  rw [if_neg (not_not.mpr hoffset)]
  by_cases hfit : session.chunkSize < session.offset + request.body.length
  · rw [if_pos hfit]
    exact Or.inl ⟨⟨_, rfl⟩, rfl⟩
  rw [if_neg hfit]
  have hlen := List.length_pos_of_ne_nil hbody
  -- A session that is full refuses every body, so this one takes bytes.
  have hactive : session.status.isActive = true := by
    by_contra hidle
    obtain ⟨hfull, -⟩ := h.idle session hrow (by simpa using hidle)
    omega
  obtain ⟨hbytes, -⟩ := h.live session hrow hactive
  obtain ⟨path, hpath, hfile⟩ : ∃ path, session.tempFilePath = some path ∧
      (gateway.tempFiles.find? path).map TempFile.bytes =
        some (bodies (appliedTo answered session.sessionId)) :=
    Option.bind_eq_some_iff.mp hbytes
  have howner := h.paths session hrow path hpath
  rw [hbytes, hpath]
  dsimp only
  rw [← hid] at hfind ⊢
  rw [hoffset]
  have hsame : (gateway.appendTempFile path request.body).state.sessions =
      gateway.state.sessions := rfl
  by_cases hfull : session.offset + request.body.length = session.chunkSize
  · -- The session is full.
    obtain ⟨hsend, chunkId, hchunkId, htakes⟩ := hfills session _ (hid ▸ hfind) hbytes hbody
      hoffset hfull
    have hlength : (bodies (appliedTo answered session.sessionId) ++ request.body).length =
        session.chunkSize := by
      rw [List.length_append, ← (h.live session hrow hactive).2, hfull]
    have hsized := h.sized session hrow
    obtain ⟨⟨outcome, hput⟩, hholds⟩ := htakes.putChunkByReader (by
      rw [hlength]
      exact hsized) now
    rw [if_pos hfull]
    rw [hlength] at hput hholds
    have hkeeps : ∀ chunkId' content, gateway.storeMgr.HoldsChunk crates chunkId' content →
        (gateway.storeMgr.putChunkByReader crates now chunkId session.chunkSize
          (ChunkSource.ofBytes (bodies (appliedTo answered session.sessionId) ++
            request.body))).1.HoldsChunk crates chunkId' content :=
      fun _ _ hold => hold.putChunkByReader laws now _ _
    unfold ZoneGateway.persistUpload
    dsimp only
    rw [hchunkId]
    dsimp only
    have hmgr : ∀ sid f hf, ((gateway.appendTempFile path request.body).updateSession sid f
        hf).storeMgr = gateway.storeMgr := fun _ _ _ => rfl
    rw [hmgr]
    generalize gateway.storeMgr.putChunkByReader crates now chunkId session.chunkSize
      (ChunkSource.ofBytes (bodies (appliedTo answered session.sessionId) ++
        request.body)) = put at hput hholds hkeeps ⊢
    obtain ⟨storeMgr, result⟩ := put
    dsimp only at hput
    subst hput
    have hanswer : ∀ s : UploadSession, s.canonicalUploadId = session.canonicalUploadId →
        s.chunkObjectId = some (chunkId.toObjId.toString crates) →
        ∃ response, ZoneGateway.buildSessionResponse 204 s = .ok response := by
      intro s hupload hobject
      have hsendable := ZoneGateway.sessionSendable_completed laws hchunkId hobject
      rw [hupload, hsend] at hsendable
      exact ⟨_, ZoneGateway.buildSessionResponse_eq_ok hsendable 204⟩
    dsimp only
    refine Or.inr ⟨hanswer _ rfl rfl, ?_⟩
    refine h.applied { session with
      offset := session.offset + request.body.length
      updatedAt := now
      status := .completed
      chunkObjectId := some (chunkId.toObjId.toString crates) } hfind hactive hbody ?_ rfl rfl
      ?_ hkeeps rfl rfl rfl rfl rfl (Or.inr ⟨rfl, hfull, chunkId, rfl, hholds⟩)
    · intro k
      rw [find?_completeSession]
      dsimp only
      rw [find?_updateSession, hsame]
      by_cases hk : k = session.sessionId
      · rw [if_pos hk, if_pos hk, if_pos hk, hk, hfind]
        rfl
      · rw [if_neg hk, if_neg hk, if_neg hk]
    · intro other hother
      have hne : other ≠ path := by
        rintro rfl
        exact hother howner
      have hremoved := Table.find?_deleteKey (gateway.appendTempFile path
        request.body).tempFiles path other
      rw [if_neg hne, tempFiles_appendTempFile, if_neg hne] at hremoved
      exact hremoved
  · -- The session grows.
    rw [if_neg hfull]
    refine Or.inr ⟨⟨_, rfl⟩, ?_⟩
    refine h.applied { session with
      offset := session.offset + request.body.length
      updatedAt := now
      status := .uploading } hfind hactive hbody ?_ rfl rfl ?_ (fun _ _ => id) rfl rfl rfl
      rfl rfl (Or.inl ⟨rfl, ?_⟩)
    · intro k
      dsimp only
      rw [find?_updateSession, hsame]
      by_cases hk : k = session.sessionId
      · rw [if_pos hk, if_pos hk, hk, hfind]
        rfl
      · rw [if_neg hk, if_neg hk]
    · intro other hother
      have hne : other ≠ path := by
        rintro rfl
        exact hother howner
      exact (tempFiles_appendTempFile path other request.body).trans (if_neg hne)
    · obtain ⟨file, hfound, hbytesEq⟩ := Option.map_eq_some_iff.mp hfile
      show (session.tempFilePath.bind fun path => ((gateway.appendTempFile _
        request.body).tempFiles.find? path).map TempFile.bytes) = _
      rw [hpath, Option.bind_some, tempFiles_appendTempFile, if_pos rfl, hfound, ← hbytesEq]
      rfl

end Patches

/-! ## Runs -/

/-- The invariant of the system: nothing has panicked, and a `PATCH` that is about
to throw its body away has a session that takes no bytes. -/
structure UploadInv (crates : Crates) (system : UploadSystem) : Prop where
  gateway : GatewayInv crates system.answered system.gateway
  noPanic : system.panicked = false
  known : ∀ c ∈ system.calls.rows,
    c.request.sessionId.seq < system.gateway.state.nextSessionSeq
  draining : ∀ c ∈ system.calls.rows, c.stage = .draining →
    ∀ s ∈ system.gateway.state.sessions.rows, s.sessionId = c.request.sessionId →
      s.status.isActive = false

/-- The steps that keep the uploads exact: a `PATCH` finds under its second lock
that its session was not completed in between, a `PATCH` that fills its session
fills it with what the store takes and can be answered, and an upload of length zero
is not started. -/
def UploadSafe (crates : Crates) (fuel : Nat) (system : UploadSystem) :
    UploadAction → Prop
  | .create request _ _ _ => request.uploadLength = some 0 →
      ∀ metadata, request.metadata = .ok metadata →
        NothingToUpload crates fuel system.gateway metadata
  | .turn callId _ => ∀ call, system.calls.find? callId = some call →
      (call.stage = .checking → ∀ session,
        system.gateway.state.sessions.find? call.request.sessionId = some session →
          session.status ≠ .completed ∧ session.status ≠ .skipped) ∧
      (call.stage = .reading →
        FillsWell crates system.gateway call.request call.clientOffset)
  | _ => True

/-- What the uploads promise. -/
structure UploadsExact (crates : Crates) (system : UploadSystem) : Prop where
  noPanic : system.panicked = false
  /-- Every session is indexed under its key, and every entry of the index names the
  session that has this key. -/
  indexed : ∀ s ∈ system.gateway.state.sessions.rows,
    ⟨s.key, s.sessionId⟩ ∈ system.gateway.state.keyIndex.rows
  owned : ∀ e ∈ system.gateway.state.keyIndex.rows,
    ∃ s ∈ system.gateway.state.sessions.rows, s.sessionId = e.sessionId ∧ s.key = e.key
  onePerKey : ∀ s ∈ system.gateway.state.sessions.rows,
    ∀ t ∈ system.gateway.state.sessions.rows, s.key = t.key → s = t
  /-- The file of a session that takes bytes holds the bodies of the requests on it
  that were answered with success, which are in the order of their offsets. -/
  content : ∀ s ∈ system.gateway.state.sessions.rows, s.status.isActive = true →
    let requests := system.answered.filter fun a => decide (a.sessionId = s.sessionId)
    system.gateway.tempBytes s = some (bodies requests) ∧
      s.offset = (bodies requests).length ∧
      requests.Pairwise fun a b => a.offset < b.offset
  /-- No two requests are applied at one offset of a session. -/
  once : ∀ sid, (appliedTo system.answered sid).Pairwise fun a b => a.offset < b.offset
  /-- A completed session has its bytes in the store. -/
  completed : ∀ s ∈ system.gateway.state.sessions.rows, s.status = .completed →
    ∃ chunkId : ChunkId, s.chunkObjectId = some (chunkId.toObjId.toString crates) ∧
      (bodies (appliedTo system.answered s.sessionId)).length = s.chunkSize ∧
      ∀ files, system.gateway.storeMgr.openChunkReader crates files chunkId 0 =
        .ok (bodies (appliedTo system.answered s.sessionId), s.chunkSize)

section Runs

variable {crates : Crates} {fuel : Nat} {system : UploadSystem}

theorem UploadInv.exact (h : UploadInv crates system) : UploadsExact crates system where
  noPanic := h.noPanic
  indexed s hs := (Table.find?_eq_some_iff.mp (h.gateway.indexed s hs)).1
  owned := h.gateway.owned
  onePerKey := by
    intro s hs t ht hkey
    have hentry := h.gateway.indexed s hs
    rw [hkey, h.gateway.indexed t ht] at hentry
    have hid := (KeyEntry.mk.inj (Option.some.inj hentry)).2
    exact Table.eq_of_key_eq system.gateway.state.sessions hs ht hid.symm
  content := by
    intro s hs hactive
    -- Every request that was answered was applied.
    have hall : (system.answered.filter fun a => decide (a.sessionId = s.sessionId)) =
        appliedTo system.answered s.sessionId := by
      unfold appliedTo
      apply List.filter_congr
      intro a ha
      by_cases hid : a.sessionId = s.sessionId
      · have happlied : a.applied = true := by
          by_contra hnot
          have hidle := h.gateway.unapplied a ha (by simpa using hnot) s hs hid.symm
          rw [hactive] at hidle
          cases hidle
        simp [happlied]
      · simp [hid]
    intro requests
    obtain ⟨hbytes, hoffset⟩ := h.gateway.live s hs hactive
    show _ = some (bodies (system.answered.filter _)) ∧
      s.offset = (bodies (system.answered.filter _)).length ∧
        (system.answered.filter _).Pairwise _
    rw [hall]
    exact ⟨hbytes, hoffset, (h.gateway.consecutive _).pairwise_lt.2⟩
  once sid := (h.gateway.consecutive sid).pairwise_lt.2
  completed := by
    intro s hs hcompleted
    obtain ⟨chunkId, hobject, hlength, hholds⟩ := h.gateway.stored s hs hcompleted
    refine ⟨chunkId, hobject, hlength, ?_⟩
    intro files
    rw [hholds.openChunkReader files, hlength]

theorem uploadInv_init (storeMgr : NamedDataMgr) (sessionTtl : Nat)
    (tempFiles : Table TempFile TempFile.path) :
    UploadInv crates (UploadSystem.init storeMgr sessionTtl tempFiles) where
  gateway :=
    { fresh := fun _ hs => absurd hs List.not_mem_nil
      indexed := fun _ hs => absurd hs List.not_mem_nil
      owned := fun _ he => absurd he List.not_mem_nil
      sized := fun _ hs => absurd hs List.not_mem_nil
      paths := fun _ hs => absurd hs List.not_mem_nil
      idle := fun _ hs => absurd hs List.not_mem_nil
      live := fun _ hs => absurd hs List.not_mem_nil
      stored := fun _ hs => absurd hs List.not_mem_nil
      consecutive := fun _ => trivial
      past := fun _ ha => absurd ha List.not_mem_nil
      unapplied := fun _ ha => absurd ha List.not_mem_nil }
  noPanic := rfl
  known _ hc := absurd hc List.not_mem_nil
  draining _ hc := absurd hc List.not_mem_nil

/-- A step of the gateway that answers no request. -/
theorem UploadInv.advance (h : UploadInv crates system) {gateway : ZoneGateway}
    (hgateway : GatewayInv crates system.answered gateway)
    (hadvances : Advances system.gateway gateway) :
    UploadInv crates { system with gateway := gateway } where
  gateway := hgateway
  noPanic := h.noPanic
  known c hc := Nat.lt_of_lt_of_le (h.known c hc) hadvances.nextSessionSeq
  draining := by
    intro c hc hstage s hs hid
    by_contra hactive
    obtain ⟨t, ht, htid, htactive⟩ := hadvances.active s hs (by simpa using hactive)
      (hid ▸ h.known c hc)
    have hidle := h.draining c hc hstage t ht (htid.trans hid)
    rw [htactive] at hidle
    cases hidle

/-- A call ends. -/
theorem UploadInv.endCall (h : UploadInv crates system) (callId : Nat) :
    UploadInv crates { system with calls := system.calls.deleteKey callId } where
  gateway := h.gateway
  noPanic := h.noPanic
  known c hc := h.known c (Table.mem_deleteWhere.mp hc).1
  draining c hc := h.draining c (Table.mem_deleteWhere.mp hc).1

/-- A `PATCH` that arrives at a completed session will not be applied. -/
theorem UploadInv.arrive (h : UploadInv crates system) (callId : Nat)
    (request : PatchRequest) : UploadInv crates (system.arrive callId request) := by
  unfold UploadSystem.arrive
  split
  · exact h
  · next clientOffset _ =>
    unfold ZoneGateway.patchFirstLook
    split
    · exact h
    · next completedResponse hlook =>
      split at hlook
      · cases hlook
      · next session hsession =>
        obtain ⟨hrow, hid⟩ := Table.find?_eq_some_iff.mp hsession
        refine ⟨h.gateway, h.noPanic, ?_, ?_⟩
        · intro c hc
          rcases Table.mem_insertOrIgnore.mp hc with hold | ⟨rfl, -⟩
          · exact h.known c hold
          · have hfresh := h.gateway.fresh session hrow
            rw [hid] at hfresh
            exact hfresh
        · intro c hc hstage s hs hsid
          rcases Table.mem_insertOrIgnore.mp hc with hold | ⟨rfl, -⟩
          · exact h.draining c hold hstage s hs hsid
          · obtain rfl := Table.eq_of_key_eq system.gateway.state.sessions hs hrow
              (hsid.trans hid.symm)
            cases hstatus : s.status with
            | pending =>
                rw [hstatus] at hlook
                cases hlook
                cases hstage
            | uploading =>
                rw [hstatus] at hlook
                cases hlook
                cases hstage
            | completed => rfl
            | skipped => rfl
            | expired => rfl

/-- The calls after one of them was accepted. -/
theorem mem_calls_accepted {calls : Table PatchCall PatchCall.callId} {callId : Nat}
    {c : PatchCall}
    (hc : c ∈ (calls.updateKey callId (fun c => { c with stage := .reading })
      fun _ => rfl).rows) :
    ∃ c' ∈ calls.rows, c.request = c'.request ∧ (c.stage = .reading ∨ c = c') := by
  obtain ⟨c', hc', heq⟩ : ∃ c' ∈ calls.rows,
      (if decide (c'.callId = callId) = true then { c' with stage := .reading } else c') = c :=
    Table.mem_updateWhere.mp hc
  refine ⟨c', hc', ?_⟩
  split_ifs at heq
  · rw [← heq]
    exact ⟨rfl, Or.inl rfl⟩
  · rw [← heq]
    exact ⟨rfl, Or.inr rfl⟩

theorem UploadInv.turn (laws : crates.Lawful) (h : UploadInv crates system)
    {call : PatchCall} (hcall : call ∈ system.calls.rows) (now : Nat)
    (hchecking : call.stage = .checking → ∀ session,
      system.gateway.state.sessions.find? call.request.sessionId = some session →
        session.status ≠ .completed ∧ session.status ≠ .skipped)
    (hreading : call.stage = .reading →
      FillsWell crates system.gateway call.request call.clientOffset) :
    UploadInv crates (system.turn crates call now) := by
  unfold UploadSystem.turn
  cases hstage : call.stage with
  | draining =>
      have hended := h.endCall call.callId
      refine ⟨?_, hended.noPanic, hended.known, hended.draining⟩
      have hg := h.gateway
      have happlied : ∀ sid, appliedTo (system.answered ++
          [⟨call.request.sessionId, call.clientOffset, call.request.body, false⟩]) sid =
            appliedTo system.answered sid := by
        intro sid
        rw [appliedTo_append, if_neg]
        simp
      refine ⟨hg.fresh, hg.indexed, hg.owned, hg.sized, hg.paths, hg.idle, ?_, ?_, ?_, ?_, ?_⟩
      · intro s hs hactive
        rw [happlied]
        exact hg.live s hs hactive
      · intro s hs hcompleted
        rw [happlied]
        exact hg.stored s hs hcompleted
      · intro sid
        rw [happlied]
        exact hg.consecutive sid
      · intro a ha
        rcases List.mem_append.mp ha with hold | hlast
        · exact hg.past a hold
        · rw [List.mem_singleton.mp hlast]
          exact h.known call hcall
      · intro a ha hunapplied s hs hid
        rcases List.mem_append.mp ha with hold | hlast
        · exact hg.unapplied a hold hunapplied s hs hid
        · rw [List.mem_singleton.mp hlast] at hid
          exact h.draining call hcall hstage s hs hid
  | checking =>
      dsimp only
      cases hlook : system.gateway.patchSecondLook call.request call.clientOffset now with
      | accepted =>
          refine ⟨h.gateway, h.noPanic, ?_, ?_⟩
          · intro c hc
            obtain ⟨c', hc', hrequest, -⟩ := mem_calls_accepted hc
            rw [hrequest]
            exact h.known c' hc'
          · intro c hc hdraining
            obtain ⟨c', hc', -, hreadingStage | rfl⟩ := mem_calls_accepted hc
            · rw [hreadingStage] at hdraining
              cases hdraining
            · exact h.draining c hc' hdraining
      | refused e => exact h.endCall call.callId
      | panicked =>
          -- The session was completed between the two looks.
          exfalso
          unfold ZoneGateway.patchSecondLook at hlook
          split at hlook
          · cases hlook
          · next session hsession =>
            obtain ⟨hnot, hnotSkipped⟩ := hchecking hstage session hsession
            cases hstatus : session.status with
            | completed => exact hnot hstatus
            | skipped => exact hnotSkipped hstatus
            | pending =>
                rw [hstatus] at hlook
                dsimp only at hlook
                split_ifs at hlook
            | uploading =>
                rw [hstatus] at hlook
                dsimp only at hlook
                split_ifs at hlook
            | expired =>
                rw [hstatus] at hlook
                cases hlook
  | reading =>
      dsimp only
      have hlocked := patchLocked_inv laws h.gateway call.request call.clientOffset now
        (hreading hstage)
      generalize system.gateway.patchLocked crates call.request call.clientOffset now =
        locked at hlocked ⊢
      obtain ⟨gateway, answer⟩ := locked
      rcases hlocked with ⟨⟨e, he⟩, hsame⟩ | ⟨⟨response, hok⟩, hgateway, hadvances⟩
      · dsimp only at he hsame ⊢
        subst he hsame
        exact h.endCall call.callId
      · dsimp only at hok hgateway hadvances ⊢
        subst hok
        have hended := h.endCall call.callId
        refine ⟨hgateway, hended.noPanic, ?_, ?_⟩
        · intro c hc
          exact Nat.lt_of_lt_of_le (hended.known c hc) hadvances.nextSessionSeq
        · intro c hc hdraining s hs hid
          by_contra hactive
          obtain ⟨t, ht, htid, htactive⟩ := hadvances.active s hs (by simpa using hactive)
            (hid ▸ hended.known c hc)
          have hidle := hended.draining c hc hdraining t ht (htid.trans hid)
          rw [htactive] at hidle
          cases hidle

/-- One safe step. -/
theorem UploadInv.step (laws : crates.Lawful) {action : UploadAction}
    (hsafe : UploadSafe crates fuel system action) (h : UploadInv crates system) :
    UploadInv crates (system.step crates fuel action) := by
  cases action with
  | create request order now millis =>
      obtain ⟨hgateway, hadvances⟩ := handleCreateUpload_inv h.gateway order request now
        millis hsafe
      exact h.advance hgateway hadvances
  | head sid sidText now => exact h
  | patch callId request => exact h.arrive callId request
  | turn callId now =>
      unfold UploadSystem.step
      dsimp only
      cases hcall : system.calls.find? callId with
      | none => exact h
      | some call =>
          obtain ⟨hchecking, hreading⟩ := hsafe call hcall
          exact h.turn laws (Table.find?_eq_some_iff.mp hcall).1 now hchecking hreading
  | expire now =>
      have hexpired : Reduces crates system.answered system.gateway
          (system.gateway.expireSessions now) := Reduces.dropListed _ _
      exact h.advance (hexpired.inv h.gateway) hexpired.advances

/-- In every run of safe steps on a gateway that was just started, over any manager,
the uploads stay exact. -/
theorem uploads_exact_of_safe (laws : crates.Lawful) (fuel : Nat) (storeMgr : NamedDataMgr)
    (sessionTtl : Nat) (tempFiles : Table TempFile TempFile.path)
    (actions : List UploadAction)
    (hsafe : Along (UploadSystem.step crates fuel) (UploadSafe crates fuel)
      (UploadSystem.init storeMgr sessionTtl tempFiles) actions) :
    UploadsExact crates (run (UploadSystem.step crates fuel)
      (UploadSystem.init storeMgr sessionTtl tempFiles) actions) :=
  (run_invariant (fun _ _ hstep h => UploadInv.step laws hstep h) hsafe
    (uploadInv_init storeMgr sessionTtl tempFiles)).exact

end Runs

/-! ## Two runs -/

/-- A manager with one empty store. -/
def oneStoreMgr : NamedDataMgr where
  versions := [⟨fun _ => some "store"⟩]
  stores := fun storeId => if storeId = "store" then some (NamedStore.fromConfig false) else none

/-- A gateway on it that was just started. -/
def startedUploads : UploadSystem :=
  UploadSystem.init oneStoreMgr 3600 Table.empty

/-- A request for a session of one byte. -/
def oneByteUpload : UploadAction :=
  .create ⟨some 1, .ok ⟨"app", "file", none, 0, none⟩, "", none⟩ SessionOrder.insertion 0 0

/-- A request that sends this byte. -/
def oneBytePatch : PatchRequest where
  sessionId := ⟨0, 1⟩
  sessionText := "us_0000000000000000_00000001"
  contentType := "application/offset+octet-stream"
  uploadOffset := some 0
  body := [120]

/-- One client sends the byte. -/
def oneClient : List UploadAction :=
  [oneByteUpload, .patch 0 oneBytePatch, .turn 0 0, .turn 0 0]

/-- The session of the byte before it is sent. -/
def oneByteSession : UploadSession where
  sessionId := ⟨0, 1⟩
  canonicalUploadId := "path:app/file"
  appId := "app"
  logicalPath := "file"
  fileHash := none
  chunkIndex := 0
  chunkHash := none
  chunkSize := 1
  offset := 0
  status := .pending
  tempFilePath := some ⟨"app", ⟨0, 1⟩, 0⟩
  updatedAt := 0
  chunkObjectId := none
  rawMetadata := ""

/-- A request that sends this byte to the session with this number. -/
def bytePatch (seq offset : Nat) (byte : UInt8) : PatchRequest :=
  { oneBytePatch with
    sessionId := ⟨0, seq⟩
    uploadOffset := some offset
    body := [byte] }

/-- One client sends two bytes and another one byte, each to a session of its own, and
their requests interleave. -/
def twoUploads : List UploadAction :=
  [.create ⟨some 2, .ok ⟨"app", "file", none, 0, none⟩, "", none⟩ SessionOrder.insertion 0 0,
    .create ⟨some 1, .ok ⟨"app", "other", none, 0, none⟩, "", none⟩ SessionOrder.insertion 0 0,
    .patch 0 (bytePatch 1 0 120), .patch 1 (bytePatch 2 0 121), .turn 0 0, .turn 1 0, .turn 0 0,
    .patch 0 (bytePatch 1 1 122), .turn 0 0, .turn 1 0, .turn 0 0]

/-- The system after so many of these actions. -/
def afterUploads (count : Nat) : UploadSystem :=
  run (UploadSystem.step sampleCrates 1) startedUploads (twoUploads.take count)

/-- The session of two bytes on its way. -/
def firstSession (offset : Nat) (status : ChunkUploadStatus) : UploadSession :=
  { oneByteSession with
    chunkSize := 2
    offset := offset
    status := status }

/-- The session of one byte before it is sent. -/
def secondSession : UploadSession :=
  { oneByteSession with
    sessionId := ⟨0, 2⟩
    canonicalUploadId := "path:app/other"
    logicalPath := "other"
    tempFilePath := some ⟨"app", ⟨0, 2⟩, 0⟩ }

/-- A second look at a session that takes bytes is safe. -/
theorem uploadSafe_checking {crates : Crates} {fuel : Nat} {system : UploadSystem}
    {call : PatchCall} {session : UploadSession} {callId now : Nat} (hcall : system.calls.find? callId = some call)
    (hstage : call.stage = .checking)
    (hsession : system.gateway.state.sessions.find? call.request.sessionId = some session)
    (hactive : session.status.isActive = true) :
    UploadSafe crates fuel system (.turn callId now) := by
  intro found hfound
  obtain rfl := Option.some.inj (hcall.symm.trans hfound)
  refine ⟨?_, fun hreading => absurd (hstage.symm.trans hreading) (by decide)⟩
  intro _ s hs
  obtain rfl := Option.some.inj (hsession.symm.trans hs)
  cases hstatus : session.status <;> rw [hstatus] at hactive <;>
    first | exact ⟨by decide, by decide⟩ | cases hactive

/-- A body is safe if it does not fill its session, or fills it with what a store takes. -/
theorem uploadSafe_reading {crates : Crates} {fuel : Nat} {system : UploadSystem}
    {call : PatchCall} {session : UploadSession} {bytes : List UInt8} {callId now : Nat}
    (hcall : system.calls.find? callId = some call) (hstage : call.stage = .reading)
    (hsession : system.gateway.state.sessions.find? call.request.sessionId = some session)
    (hbytes : system.gateway.tempBytes session = some bytes)
    (hfills : session.offset + call.request.body.length = session.chunkSize →
      ZoneGateway.headerAccepts session.canonicalUploadId = true ∧ ∃ chunkId,
        ZoneGateway.uploadChunkId crates session.chunkHash (bytes ++ call.request.body) =
            .ok chunkId ∧
          system.gateway.storeMgr.Takes crates chunkId (bytes ++ call.request.body)) :
    UploadSafe crates fuel system (.turn callId now) := by
  intro found hfound
  obtain rfl := Option.some.inj (hcall.symm.trans hfound)
  refine ⟨fun hchecking => absurd (hstage.symm.trans hchecking) (by decide), ?_⟩
  intro _ s content hs hcontent _ _ hfull
  obtain rfl := Option.some.inj (hsession.symm.trans hs)
  obtain rfl := Option.some.inj (hbytes.symm.trans hcontent)
  exact hfills hfull

/-- A store takes new content under its own id. -/
theorem takes_of_new {crates : Crates} {mgr : NamedDataMgr} {chunkId : ChunkId}
    {content : List UInt8} (hhashes : chunkId.Hashes crates content)
    (hnew : (mgr.selectStoreForWrite chunkId.toObjId).any (fun selected =>
      !selected.2.readOnly && !selected.2.backend.readOnly &&
        (selected.2.chunkFile crates chunkId).isNone) = true) :
    mgr.Takes crates chunkId content := by
  obtain ⟨selected, hselect, hwritable⟩ := (Option.any_eq_true _ _).mp hnew
  simp only [Bool.and_eq_true, Bool.not_eq_true', Option.isNone_iff_eq_none] at hwritable
  exact ⟨selected, hselect, hwritable.1.1, hwritable.1.2, Or.inl ⟨hwritable.2, hhashes⟩⟩

/-- Both sessions are completed, and the uploads are exact. -/
theorem twoUploads_exact :
    ((afterUploads 11).gateway.state.sessions.rows.map UploadSession.status) =
        [.completed, .completed] ∧
      UploadsExact sampleCrates (afterUploads 11) := by
  refine ⟨by decide, ?_⟩
  refine uploads_exact_of_safe sampleCrates_lawful 1 oneStoreMgr 3600 Table.empty twoUploads ?_
  refine ⟨(nomatch ·), (nomatch ·), trivial, trivial, ?_, ?_, ?_, trivial, ?_, ?_, ?_, trivial⟩
  · -- Both requests look at their sessions before a byte is taken.
    exact @uploadSafe_checking _ _ (afterUploads 4) ⟨0, bytePatch 1 0 120, 0, .checking⟩
      (firstSession 0 .pending) _ _ (by decide) rfl (by decide) rfl
  · exact @uploadSafe_checking _ _ (afterUploads 5) ⟨1, bytePatch 2 0 121, 0, .checking⟩
      secondSession _ _ (by decide) rfl (by decide) rfl
  · refine @uploadSafe_reading _ _ (afterUploads 6) ⟨0, bytePatch 1 0 120, 0, .reading⟩
      (firstSession 0 .pending) [] _ _ (by decide) rfl (by decide)
      (by decide) ?_
    exact fun hfull => absurd hfull (by decide)
  · exact @uploadSafe_checking _ _ (afterUploads 8) ⟨0, bytePatch 1 1 122, 1, .checking⟩
      (firstSession 1 .uploading) _ _ (by decide) rfl (by decide) rfl
  · -- The second session is full while the first one waits for its last byte.
    refine @uploadSafe_reading _ _ (afterUploads 9) ⟨1, bytePatch 2 0 121, 0, .reading⟩
      secondSession [] _ _ (by decide) rfl (by decide) (by decide) ?_
    exact fun _ => ⟨by decide, ChunkId.fromMixHashResult sampleCrates 1
      (sampleCrates.digest .sha256 [121]) .mix256, by decide,
      takes_of_new (by decide) (by decide)⟩
  · refine @uploadSafe_reading _ _ (afterUploads 10) ⟨0, bytePatch 1 1 122, 1, .reading⟩
      (firstSession 1 .uploading) [120] _ _ (by decide) rfl (by decide)
      (by decide) ?_
    exact fun _ => ⟨by decide, ChunkId.fromMixHashResult sampleCrates 2
      (sampleCrates.digest .sha256 [120, 122]) .mix256, by decide,
      takes_of_new (by decide) (by decide)⟩

/-- Two clients send the byte: the second looks at the session before the first
completes it and again afterwards. -/
def twoClients : List UploadAction :=
  [oneByteUpload, .patch 0 oneBytePatch, .turn 0 0, .patch 1 oneBytePatch, .turn 0 0,
    .turn 1 0]

/-- The second client reaches the `unreachable!`. -/
theorem twoClients_panic :
    (run (UploadSystem.step sampleCrates 1) startedUploads twoClients).panicked = true ∧
      ¬ UploadsExact sampleCrates
        (run (UploadSystem.step sampleCrates 1) startedUploads twoClients) := by
  have hpanicked : (run (UploadSystem.step sampleCrates 1) startedUploads
      twoClients).panicked = true := by
    decide
  refine ⟨hpanicked, ?_⟩
  intro hexact
  rw [hexact.noPanic] at hpanicked
  cases hpanicked

end NamedStore
end CyfsNdn

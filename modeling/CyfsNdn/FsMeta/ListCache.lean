import CyfsNdn.Collections.Paging
import CyfsNdn.Relational.Table
import CyfsNdn.Transition.Run
import Mathlib.Data.List.SplitLengths
import Mathlib.Data.String.Basic

/-!
# Listing sessions

`fs_meta/src/list_cache.rs`: a session has the entries of a directory as they were when it
was started, and a cursor.  The handlers take the lock of the cache for one request each, so
the requests of all clients come in some order; `pages_of_session` says what one session
gives whatever the others do.
-/

namespace CyfsNdn
namespace FsMeta

open Collections Relational Transition

variable {α : Type}

/-- `ListSession`. -/
structure ListSession (α : Type) where
  entries : BTreeMap String α
  cursor : Option String

/-- `ListCache`; the next id is a `u64`. -/
structure ListCache (α : Type) where
  nextSessionId : Nat
  bounded : nextSessionId < 2 ^ 64
  sessions : Table (Nat × ListSession α) Prod.fst

/-- The number of entries that a page size asks for; 0 is `usize::MAX`. -/
def pageLimit (pageSize : UInt32) : Nat :=
  if pageSize = 0 then 2 ^ 64 - 1 else pageSize.toNat

/-- What the handlers do with the cache. -/
inductive ListRequest (α : Type) where
  | startList (entries : BTreeMap String α)
  | listNext (listSessionId : Nat) (pageSize : UInt32)
  | stopList (listSessionId : Nat)

/-- What they answer. -/
inductive ListAnswer (α : Type) where
  | started (listSessionId : Nat)
  | page (entries : List (String × α))
  | stopped
  | error (text : String)

namespace ListCache

/-- `ListCache::new`. -/
def new : ListCache α := ⟨1, by omega, Table.empty⟩

/-- `start_session`. -/
def startSession (cache : ListCache α) (entries : BTreeMap String α) : Nat × ListCache α :=
  (cache.nextSessionId,
    { nextSessionId := min (cache.nextSessionId + 1) (2 ^ 64 - 1)
      bounded := by omega
      sessions := cache.sessions.insertOrReplace (cache.nextSessionId, ⟨entries, none⟩) })

/-- `list_next`. -/
def listNext (cache : ListCache α) (listSessionId : Nat) (pageSize : UInt32) :
    Option (List (String × α)) × ListCache α :=
  match cache.sessions.find? listSessionId with
  | none => (none, cache)
  | some (_, session) =>
      let page := session.entries.nextPage session.cursor (pageLimit pageSize)
      (some page.1, { cache with
        sessions := cache.sessions.insertOrReplace (listSessionId, { session with cursor := page.2 }) })

/-- `stop_session`. -/
def stopSession (cache : ListCache α) (listSessionId : Nat) : Bool × ListCache α :=
  ((cache.sessions.find? listSessionId).isSome,
    { cache with sessions := cache.sessions.deleteKey listSessionId })

/-- `handle_start_list` with the entries it has read, `handle_list_next` and
`handle_stop_list`. -/
def exec (cache : ListCache α) : ListRequest α → ListAnswer α × ListCache α
  | .startList entries =>
      let started := cache.startSession entries
      (.started started.1, started.2)
  | .listNext listSessionId pageSize =>
      match cache.listNext listSessionId pageSize with
      | (some page, cache) => (.page page, cache)
      | (none, cache) => (.error "list session not found", cache)
  | .stopList listSessionId => (.stopped, (cache.stopSession listSessionId).2)

/-- The cache after a request. -/
def step (cache : ListCache α) (request : ListRequest α) : ListCache α := (cache.exec request).2

/-- The page that a request for one session gets. -/
def pageFor (cache : ListCache α) (listSessionId : Nat) :
    ListRequest α → List (List (String × α))
  | .listNext id pageSize =>
      if id = listSessionId then (cache.listNext id pageSize).1.toList else []
  | _ => []

/-- The pages that the requests for one session get, in order. -/
def pagesOf (listSessionId : Nat) : ListCache α → List (ListRequest α) → List (List (String × α))
  | _, [] => []
  | cache, request :: rest =>
      cache.pageFor listSessionId request ++ pagesOf listSessionId (cache.step request) rest

end ListCache

/-- The sizes of the pages that the requests ask of a session until they stop it. -/
def sizesOf (listSessionId : Nat) : List (ListRequest α) → List Nat
  | [] => []
  | .startList _ :: rest => sizesOf listSessionId rest
  | .listNext id pageSize :: rest =>
      if id = listSessionId then pageLimit pageSize :: sizesOf listSessionId rest
      else sizesOf listSessionId rest
  | .stopList id :: rest => if id = listSessionId then [] else sizesOf listSessionId rest

/-- A request that starts a session. -/
def ListRequest.isStart : ListRequest α → Bool
  | .startList _ => true
  | _ => false

namespace ListCache

/-! ## What one request does -/

section Steps

variable (cache : ListCache α) (listSessionId : Nat)

theorem listNext_of_none {pageSize : UInt32} (h : cache.sessions.find? listSessionId = none) :
    cache.listNext listSessionId pageSize = (none, cache) := by
  simp [listNext, h]

theorem listNext_of_some {session : ListSession α}
    (h : cache.sessions.find? listSessionId = some (listSessionId, session)) (pageSize : UInt32) :
    cache.listNext listSessionId pageSize =
      (some (session.entries.nextPage session.cursor (pageLimit pageSize)).1,
        { cache with
          sessions := cache.sessions.insertOrReplace (listSessionId,
            { session with
              cursor := (session.entries.nextPage session.cursor (pageLimit pageSize)).2 }) }) := by
  simp [listNext, h]

theorem step_listNext (pageSize : UInt32) :
    cache.step (.listNext listSessionId pageSize) = (cache.listNext listSessionId pageSize).2 := by
  show (cache.exec _).2 = _
  unfold exec
  dsimp only
  split
  · rename_i hnext
    rw [hnext]
  · rename_i hnext
    rw [hnext]

/-- The session of an id, if there is one. -/
theorem find?_cases :
    cache.sessions.find? listSessionId = none ∨
      ∃ session, cache.sessions.find? listSessionId = some (listSessionId, session) := by
  cases hfind : cache.sessions.find? listSessionId with
  | none => exact .inl rfl
  | some row =>
      obtain ⟨id, session⟩ := row
      obtain rfl : id = listSessionId := Table.key_of_find? hfind
      exact .inr ⟨session, rfl⟩

/-- A page for one session leaves the others and the next id as they are. -/
theorem step_listNext_other {id : Nat} (pageSize : UInt32) (hid : id ≠ listSessionId) :
    (cache.step (.listNext id pageSize)).sessions.find? listSessionId =
        cache.sessions.find? listSessionId ∧
      (cache.step (.listNext id pageSize)).nextSessionId = cache.nextSessionId := by
  rw [step_listNext]
  rcases cache.find?_cases id with hnone | ⟨session, hsome⟩
  · rw [listNext_of_none cache id hnone]
    exact ⟨rfl, rfl⟩
  · rw [listNext_of_some cache id hsome]
    exact ⟨by rw [Table.find?_insertOrReplace, if_neg (Ne.symm hid)], rfl⟩

end Steps

/-! ## A session among the others -/

section Runs

variable {cache : ListCache α} {listSessionId : Nat}

/-- An id that has been given out is not given out again. -/
theorem find?_startList (entries : BTreeMap String α)
    (hnext : listSessionId < cache.nextSessionId) :
    (cache.step (.startList entries)).sessions.find? listSessionId =
        cache.sessions.find? listSessionId ∧
      listSessionId < (cache.step (.startList entries)).nextSessionId := by
  have hbounded := cache.bounded
  constructor
  · show (cache.sessions.insertOrReplace (cache.nextSessionId, ⟨entries, none⟩)).find? _ = _
    rw [Table.find?_insertOrReplace, if_neg (Nat.ne_of_lt hnext)]
  · show listSessionId < min (cache.nextSessionId + 1) (2 ^ 64 - 1)
    omega

theorem find?_stopList (id : Nat) :
    (cache.step (.stopList id)).sessions.find? listSessionId =
      if listSessionId = id then none else cache.sessions.find? listSessionId :=
  Table.find?_deleteKey cache.sessions id listSessionId

/-- A session that is not there gives no page. -/
theorem pagesOf_of_gone (hgone : cache.sessions.find? listSessionId = none)
    (hnext : listSessionId < cache.nextSessionId) (requests : List (ListRequest α)) :
    pagesOf listSessionId cache requests = [] := by
  induction requests generalizing cache with
  | nil => rfl
  | cons request rest ih =>
      have hpage : cache.pageFor listSessionId request = [] := by
        cases request with
        | startList entries => rfl
        | stopList id => rfl
        | listNext id pageSize =>
            simp only [pageFor]
            split
            · rename_i hid
              rw [hid, listNext_of_none cache listSessionId hgone]
              rfl
            · rfl
      rw [pagesOf, hpage, List.nil_append]
      cases request with
      | startList entries =>
          obtain ⟨hsame, hnext'⟩ := find?_startList entries hnext
          exact ih (hsame.trans hgone) hnext'
      | stopList id =>
          refine ih ?_ hnext
          rw [find?_stopList, hgone]
          split <;> rfl
      | listNext id pageSize =>
          by_cases hid : id = listSessionId
          · rw [step_listNext, hid, listNext_of_none cache listSessionId hgone]
            exact ih hgone hnext
          · obtain ⟨hsame, hnext'⟩ := step_listNext_other cache listSessionId pageSize hid
            exact ih (hsame.trans hgone) (hnext' ▸ hnext)

/-- The pages of a session that has given its first so many entries: the pieces of the rest,
each as long as it was asked for. -/
theorem pagesOf_of_session {entries : BTreeMap String α} {given : Nat}
    (hsession : cache.sessions.find? listSessionId =
      some (listSessionId, ⟨entries, cursorAt entries.entries given⟩))
    (hnext : listSessionId < cache.nextSessionId) (requests : List (ListRequest α)) :
    pagesOf listSessionId cache requests =
      (sizesOf listSessionId requests).splitLengths (entries.entries.drop given) := by
  induction requests generalizing cache given with
  | nil => rfl
  | cons request rest ih =>
      cases request with
      | startList entries' =>
          obtain ⟨hsame, hnext'⟩ := find?_startList entries' hnext
          rw [pagesOf, sizesOf]
          exact ih (hsame.trans hsession) hnext'
      | stopList id =>
          rw [pagesOf, sizesOf]
          by_cases hid : id = listSessionId
          · subst hid
            rw [if_pos rfl]
            have hgone : (cache.step (.stopList id)).sessions.find? id = none := by
              rw [find?_stopList, if_pos rfl]
            exact pagesOf_of_gone hgone hnext rest
          · rw [if_neg hid]
            exact ih (by rw [find?_stopList, if_neg (Ne.symm hid), hsession]) hnext
      | listNext id pageSize =>
          rw [pagesOf, sizesOf]
          by_cases hid : id = listSessionId
          · subst hid
            have hlistNext := listNext_of_some cache id hsession pageSize
            rw [BTreeMap.nextPage_cursorAt] at hlistNext
            rw [if_pos rfl, List.splitLengths_cons, List.drop_drop, pageFor, if_pos rfl,
              step_listNext, hlistNext]
            refine congrArg (List.cons _) (ih ?_ hnext)
            show (cache.sessions.insertOrReplace _).find? id = _
            rw [Table.find?_insertOrReplace, if_pos rfl]
          · obtain ⟨hsame, hnext'⟩ := step_listNext_other cache listSessionId pageSize hid
            rw [if_neg hid, pageFor, if_neg hid, List.nil_append]
            exact ih (hsame.trans hsession) (hnext' ▸ hnext)

/-- The ids that have been given out are as many as the sessions that were started. -/
theorem nextSessionId_run (requests : List (ListRequest α))
    (hfew : (requests.filter ListRequest.isStart).length + 2 < 2 ^ 64) :
    (run step (new : ListCache α) requests).nextSessionId =
      (requests.filter ListRequest.isStart).length + 1 := by
  induction requests using List.reverseRecOn with
  | nil => rfl
  | append_singleton requests request ih =>
      rw [List.filter_append, List.length_append] at hfew ⊢
      have hih := ih (by omega)
      rw [run_append, run_cons, run_nil]
      cases request with
      | startList entries =>
          have hone : ([ListRequest.startList entries].filter ListRequest.isStart).length = 1 := rfl
          rw [hone] at hfew ⊢
          show min (_ + 1) (2 ^ 64 - 1) = _
          omega
      | stopList id => exact hih
      | listNext id pageSize =>
          have hsame : (step (run step new requests) (.listNext id pageSize)).nextSessionId =
              (run step (new : ListCache α) requests).nextSessionId := by
            rw [step_listNext]
            rcases (run step (new : ListCache α) requests).find?_cases id with hnone | ⟨session, hsome⟩
            · rw [listNext_of_none _ id hnone]
            · rw [listNext_of_some _ id hsome]
          rw [hsame]
          exact hih

/-- A session is started among any requests of any clients.  Its pages are its entries, cut
into pieces of the sizes that were asked for until it was stopped, without a gap and without
a repetition, whatever requests for other sessions come in between. -/
theorem pages_of_session (before after : List (ListRequest α)) (entries : BTreeMap String α)
    (hfew : (before.filter ListRequest.isStart).length + 2 < 2 ^ 64) :
    pagesOf (run step new before).nextSessionId
        (run step new (before ++ [.startList entries])) after =
      (sizesOf (run step (new : ListCache α) before).nextSessionId after).splitLengths
        entries.entries := by
  have hid := nextSessionId_run before hfew
  rw [run_append, run_cons, run_nil]
  generalize run step (new : ListCache α) before = cache at hid
  rw [← List.drop_zero (l := entries.entries)]
  apply pagesOf_of_session
  · show (cache.sessions.insertOrReplace (cache.nextSessionId, ⟨entries, none⟩)).find? _ = _
    rw [Table.find?_insertOrReplace, if_pos rfl]
    rfl
  · show cache.nextSessionId < min (cache.nextSessionId + 1) (2 ^ 64 - 1)
    omega

/-- A directory with three names. -/
def threeNames : BTreeMap String Nat :=
  ((BTreeMap.empty.insert "b" 2).insert "c" 3).insert "a" 1

theorem threeNames_entries : threeNames.entries = [("a", 1), ("b", 2), ("c", 3)] := by
  decide

/-- Two clients read in turn; the second one asks for a page of two names, for all the rest,
and once more after it has stopped. -/
def twoClients : List (ListRequest Nat) :=
  [.listNext 2 2, .listNext 1 1, .startList threeNames, .listNext 2 0, .stopList 2,
    .listNext 2 1]

theorem twoClients_pages :
    pagesOf 2 (run step new ([.startList threeNames] ++ [.startList threeNames])) twoClients =
      [[("a", 1), ("b", 2)], [("c", 3)]] := by
  have hpages := pages_of_session [.startList threeNames] twoClients threeNames (by decide)
  have hid : (run step (new : ListCache Nat) [.startList threeNames]).nextSessionId = 2 := by
    decide
  rw [hid, threeNames_entries] at hpages
  rw [hpages]
  rfl

end Runs

end ListCache

end FsMeta
end CyfsNdn

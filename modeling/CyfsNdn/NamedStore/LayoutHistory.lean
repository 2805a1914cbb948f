import CyfsNdn.Collections.Newest
import CyfsNdn.NamedStore.NamedDataMgr
import CyfsNdn.NamedStore.StoreDbFacts
import CyfsNdn.NdnLib.SampleCrates
import CyfsNdn.Transition.Run

/-!
# The layouts that a manager remembers

`NamedDataMgr` of `named_store/src/ndm.rs` as a machine: layouts and stores are added,
objects are put into the store that the newest layout selects.  Layouts may arrive in any
order of their epochs; the newest `max_versions` of them are kept.

An object stays readable as long as the layout it was written under is kept.  Which text
a lookup returns is settled by the identifiers: they name one content, so whatever store
answers first answers the same.
-/

namespace CyfsNdn
namespace NamedStore

open NdnLib Relational Collections Transition

/-- `LayoutVersion` with its epoch. -/
structure EpochLayout where
  epoch : Nat
  layout : LayoutVersion

/-- `NamedDataMgr` with everything that writes need. -/
structure LayoutMgr where
  versions : List EpochLayout
  maxVersions : Nat
  stores : String → Option NamedStore

namespace LayoutMgr

/-- The manager as the lookups see it. -/
def toMgr (mgr : LayoutMgr) : NamedDataMgr where
  versions := mgr.versions.map EpochLayout.layout
  stores := mgr.stores

/-- `with_max_versions`. -/
def withMaxVersions (maxVersions : Nat) : LayoutMgr where
  versions := []
  maxVersions := max maxVersions 1
  stores := fun _ => none

/-- `register_store`. -/
def registerStore (mgr : LayoutMgr) (storeId : String) (store : NamedStore) : LayoutMgr :=
  { mgr with stores := Function.update mgr.stores storeId (some store) }

/-- `add_layout`: the version of the same epoch is replaced, any other goes before the
first older one, and the oldest versions are popped until `max_versions` are left. -/
def addLayout (mgr : LayoutMgr) (version : EpochLayout) : LayoutMgr :=
  let inserted :=
    if mgr.versions.any (fun v => v.epoch = version.epoch) then
      mgr.versions.set (mgr.versions.findIdx fun v => v.epoch = version.epoch) version
    else
      mgr.versions.insertIdx (mgr.versions.findIdx fun v => v.epoch < version.epoch) version
  { mgr with versions := inserted.take mgr.maxVersions }

/-- `select_store_for_write`, with the id of the store. -/
def selectStoreForWrite (mgr : LayoutMgr) (objId : ObjId) : Option (String × NamedStore) :=
  mgr.versions.head?.bind fun current =>
    (current.layout.selectPrimaryTarget objId).bind fun storeId =>
      (mgr.stores storeId).map fun store => (storeId, store)

/-- `put_object`. -/
def putObject (crates : Crates) (mgr : LayoutMgr) (now : Nat) (objId : ObjId)
    (objData : String) : LayoutMgr × NdnResult Unit :=
  match mgr.selectStoreForWrite objId with
  | none => (mgr, .error (.notFound "no available store for write"))
  | some (storeId, store) =>
      let result := store.putObject crates now objId objData
      ({ mgr with stores := Function.update mgr.stores storeId (some result.1) }, result.2)

/-- The loop of `get_object`, where each store answers as it does at that moment. -/
def getObjectAsking (mgr : NamedDataMgr) (objId : ObjId)
    (answer : String → NamedStore → NdnResult String) :
    List String → Option NdnError → NdnResult String
  | [], lastError => .error (lastError.getD
      (.notFound ("object " ++ objId.debug ++ " not found in any layout version")))
  | storeId :: rest, _ =>
      match mgr.stores storeId with
      | none => getObjectAsking mgr objId answer rest
          (some (.notFound ("store " ++ storeId ++ " not registered")))
      | some store =>
          match answer storeId store with
          | .ok obj => .ok obj
          | .error (.notFound _) => getObjectAsking mgr objId answer rest
              (some (.notFound ("object not found in store " ++ storeId)))
          | .error e => getObjectAsking mgr objId answer rest (some e)

/-- `get_object` when some stores fail: a store of `faults` returns its error instead of
looking the object up. -/
def getObject (crates : Crates) (mgr : LayoutMgr) (faults : String → Option NdnError)
    (objId : ObjId) : NdnResult String :=
  if mgr.toMgr.versions = [] then .error (.notFound "no layout versions available")
  else
    getObjectAsking mgr.toMgr objId
      (fun storeId store =>
        match faults storeId with
        | some e => .error e
        | none => store.getObject crates objId)
      (targetStores objId mgr.toMgr.versions []) none

/-- Without faults it is the lookup of `NamedDataMgr`. -/
theorem getObject_of_no_faults (crates : Crates) (mgr : LayoutMgr) (objId : ObjId) :
    mgr.getObject crates (fun _ => none) objId = mgr.toMgr.getObject crates objId := by
  have hloop : ∀ storeIds lastError,
      getObjectAsking mgr.toMgr objId (fun _ store => store.getObject crates objId) storeIds
        lastError = mgr.toMgr.getObjectFrom crates objId storeIds lastError := by
    intro storeIds
    induction storeIds with
    | nil => exact fun _ => rfl
    | cons storeId rest ih =>
        intro lastError
        unfold getObjectAsking NamedDataMgr.getObjectFrom
        cases mgr.toMgr.stores storeId with
        | none => exact ih _
        | some store =>
            dsimp only
            cases store.getObject crates objId with
            | ok obj => rfl
            | error e => cases e <;> exact ih _
  unfold getObject NamedDataMgr.getObject
  rw [hloop]

end LayoutMgr

/-! ## What a store holds under an identifier -/

/-- The text that a lookup finds under a key. -/
def NamedLocalStoreDb.dataAt (db : NamedLocalStoreDb) (k : String) : Option String :=
  (db.objects.find? k).bind fun row => if row.state = .shadow then none else some row.objData

namespace NamedLocalStoreDb

theorem dataAt_congr {db db' : NamedLocalStoreDb} {k : String}
    (h : (db'.objects.find? k).map contentColumns = (db.objects.find? k).map contentColumns) :
    db'.dataAt k = db.dataAt k := by
  unfold dataAt
  cases hrow : db.objects.find? k with
  | none =>
      rw [hrow, Option.map_none, Option.map_eq_none_iff] at h
      rw [h]
  | some row =>
      rw [hrow, Option.map_some, Option.map_eq_some_iff] at h
      obtain ⟨row', hrow', hcolumns⟩ := h
      simp only [contentColumns, Prod.mk.injEq] at hcolumns
      rw [hrow']
      simp only [Option.bind_some, hcolumns.2.1, hcolumns.2.2]

theorem SameFacts.dataAt {db db' : NamedLocalStoreDb} (h : SameFacts db db') (k : String) :
    db'.dataAt k = db.dataAt k := by
  apply dataAt_congr
  apply h.map_find? contentColumns
  intro r s hcore
  obtain ⟨-, htype, hdata, hstate, -⟩ := ObjectRow.core_inj_on hcore
  simp only [contentColumns, htype, hdata, hstate]

/-- What a put leaves under a key: the text it brought, unless the object was there. -/
theorem dataAt_setObject (crates : Crates) (db : NamedLocalStoreDb) (now : Nat)
    (objId : ObjId) (objType objStr k : String) :
    (db.setObject crates now objId objType objStr).dataAt k =
      if k = objId.toString crates then
        if db.getItemStateTx (objId.toString crates) = some .present then db.dataAt k
        else some objStr
      else db.dataAt k := by
  unfold setObject putObjectInTx
  dsimp only
  split
  · next hstate =>
    have htouched : (db.touchLastAccessTx (objId.toString crates) now).dataAt k =
        db.dataAt k := by
      apply dataAt_congr
      unfold touchLastAccessTx
      rw [find?_updateObject]
      split_ifs
      · rw [Option.map_map]
        rfl
      · rfl
    rw [htouched]
    simp only [hstate, if_true, ite_self]
  · next hstate =>
    rw [SameFacts.dataAt (sameFacts_refreshTx crates _ now objId), hstate,
      if_neg (show ¬ some ItemState.shadow = some .present by decide)]
    obtain ⟨row, hrow, -⟩ := Option.map_eq_some_iff.mp hstate
    show ((db.fillShadowTx now _ _ _ _ _).objects.find? k).bind _ = _
    rw [find?_fillShadowTx]
    split_ifs with hk
    · rw [hk, hrow]
      rfl
    · rfl
  · next hpresent hshadow =>
    rw [if_neg hpresent]
    show ((db.objects.insertOrReplace _).find? k).bind _ = _
    rw [find?_insertOrReplace_presentRow]
    split_ifs with hk
    · rfl
    · rfl

/-- A put never takes a text away, and leaves one under its own key. -/
theorem dataAt_setObject_isSome (crates : Crates) (db : NamedLocalStoreDb) (now : Nat)
    (objId : ObjId) (objType objStr : String) :
    ((db.setObject crates now objId objType objStr).dataAt (objId.toString crates)).isSome := by
  rw [dataAt_setObject, if_pos rfl]
  split_ifs with hstate
  · obtain ⟨row, hrow, hpresent⟩ := Option.map_eq_some_iff.mp hstate
    unfold dataAt
    rw [hrow]
    simp [hpresent]
  · rfl

end NamedLocalStoreDb

/-- A store answers with the text it holds under the identifier. -/
theorem NamedStore.getObject_eq_ok_iff {crates : Crates} {store : NamedStore} {objId : ObjId}
    (hobject : objId.isChunk = false) {text : String} :
    store.getObject crates objId = .ok text ↔
      store.db.dataAt (objId.toString crates) = some text := by
  unfold NamedStore.getObject NamedLocalStoreDb.getObject NamedLocalStoreDb.dataAt
  rw [hobject]
  cases store.db.objects.find? (objId.toString crates) with
  | none => simp
  | some row =>
      by_cases hshadow : row.state = .shadow
      · simp [hshadow]
      · simp [hshadow]

/-! ## Runs -/

namespace LayoutMgr

/-- An object whose put returned `Ok`, with the epoch that was current and the store. -/
structure ObjectPut where
  epoch : Nat
  storeId : String
  objId : ObjId
  data : String
deriving DecidableEq

/-- A manager with its history. -/
structure Session where
  mgr : LayoutMgr
  added : List EpochLayout
  puts : List ObjectPut

/-- The calls. -/
inductive Action where
  | addLayout (version : EpochLayout)
  | registerStore (storeId : String) (store : NamedStore)
  | putObject (now : Nat) (objId : ObjId) (objData : String)

/-- A manager without layouts or stores. -/
def start (maxVersions : Nat) : Session := ⟨withMaxVersions maxVersions, [], []⟩

/-- The record of a put that returned `Ok`. -/
def putRecords (crates : Crates) (mgr : LayoutMgr) (now : Nat) (objId : ObjId)
    (objData : String) : List ObjectPut :=
  match mgr.versions, mgr.selectStoreForWrite objId,
      (mgr.putObject crates now objId objData).2 with
  | current :: _, some (storeId, _), .ok () => [⟨current.epoch, storeId, objId, objData⟩]
  | _, _, _ => []

/-- One call. -/
def step (crates : Crates) (s : Session) : Action → Session
  | .addLayout version =>
      { s with mgr := s.mgr.addLayout version, added := version :: s.added }
  | .registerStore storeId store => { s with mgr := s.mgr.registerStore storeId store }
  | .putObject now objId objData =>
      { s with
        mgr := (s.mgr.putObject crates now objId objData).1
        puts := s.puts ++ putRecords crates s.mgr now objId objData }

/-- A repeated epoch brings the same layout, an id that is registered again brings the
same store, and an identifier names one content, both in the stores and in the puts. -/
def Allowed (crates : Crates) (content : String → String) (s : Session) : Action → Prop
  | .addLayout version =>
      ∀ old ∈ s.added, old.epoch = version.epoch → old.layout = version.layout
  | .registerStore storeId store =>
      (∀ old, s.mgr.stores storeId = some old → store = old) ∧
        ∀ k text, store.db.dataAt k = some text → text = content k
  | .putObject _ objId objData => objData = content (objId.toString crates)

/-- The versions are in order, and what was added is kept unless newer epochs fill the
list. -/
structure Ordered (s : Session) : Prop where
  descending : Descending EpochLayout.epoch s.mgr.versions
  bounded : s.mgr.versions.length ≤ s.mgr.maxVersions
  newest : ∀ version ∈ s.added, version.epoch ∈ s.mgr.versions.map EpochLayout.epoch ∨
    s.mgr.versions.length = s.mgr.maxVersions ∧
      ∀ kept ∈ s.mgr.versions, version.epoch < kept.epoch

/-- Objects put under a kept epoch are returned with their text, whatever the stores that
do not hold them answer. -/
def Readable (crates : Crates) (s : Session) : Prop :=
  ∀ put ∈ s.puts, put.objId.isChunk = false →
    put.epoch ∈ s.mgr.versions.map EpochLayout.epoch →
      ∀ faults : String → Option NdnError, faults put.storeId = none →
        s.mgr.getObject crates faults put.objId = .ok put.data

/-- The invariant behind `Readable`. -/
structure Inv (crates : Crates) (content : String → String) (s : Session) : Prop where
  ordered : Ordered s
  known : ∀ version ∈ s.mgr.versions, version ∈ s.added
  agree : ∀ a ∈ s.added, ∀ b ∈ s.added, a.epoch = b.epoch → a.layout = b.layout
  named : ∀ storeId store, s.mgr.stores storeId = some store →
    ∀ k text, store.db.dataAt k = some text → text = content k
  held : ∀ put ∈ s.puts, put.data = content (put.objId.toString crates) ∧
    (∃ version ∈ s.added, version.epoch = put.epoch ∧
      version.layout.selectPrimaryTarget put.objId = some put.storeId) ∧
    ∃ store, s.mgr.stores put.storeId = some store ∧
      (store.db.dataAt (put.objId.toString crates)).isSome

theorem inv_start (crates : Crates) (content : String → String) (maxVersions : Nat) :
    Inv crates content (start maxVersions) where
  ordered :=
    { descending := List.Pairwise.nil
      bounded := Nat.zero_le _
      newest := fun _ hadded => absurd hadded List.not_mem_nil }
  known := fun _ hversion => absurd hversion List.not_mem_nil
  agree := fun _ hadded => absurd hadded List.not_mem_nil
  named := fun _ _ hstore => absurd hstore (by simp [start, withMaxVersions])
  held := fun _ hput => absurd hput List.not_mem_nil

theorem addLayout_versions {mgr : LayoutMgr}
    (h : Descending EpochLayout.epoch mgr.versions) (version : EpochLayout) :
    (mgr.addLayout version).versions =
      (insertDesc EpochLayout.epoch version mgr.versions).take mgr.maxVersions := by
  unfold addLayout
  dsimp only
  rw [← set_or_insertIdx_eq_insertDesc version h]

theorem ordered_addLayout {s : Session} (h : Ordered s) (version : EpochLayout) :
    Ordered { s with mgr := s.mgr.addLayout version, added := version :: s.added } := by
  have hversions := addLayout_versions h.descending version
  have hinserted := descending_insertDesc version h.descending
  -- an item of the list before the cut is kept or older than the whole full list
  have hcut : ∀ v ∈ insertDesc EpochLayout.epoch version s.mgr.versions,
      v.epoch ∈ (s.mgr.addLayout version).versions.map EpochLayout.epoch ∨
        (s.mgr.addLayout version).versions.length = s.mgr.maxVersions ∧
          ∀ kept ∈ (s.mgr.addLayout version).versions, v.epoch < kept.epoch := by
    intro v hv
    rw [hversions]
    rcases mem_take_or_older hinserted s.mgr.maxVersions hv with hkept | hold
    · exact Or.inl (List.mem_map_of_mem hkept)
    · exact Or.inr hold
  refine ⟨?_, ?_, ?_⟩
  · show Descending EpochLayout.epoch (s.mgr.addLayout version).versions
    rw [hversions]
    exact hinserted.take _
  · show (s.mgr.addLayout version).versions.length ≤ s.mgr.maxVersions
    rw [hversions]
    exact List.length_take_le _ _
  · intro old hold
    rcases List.mem_cons.mp hold with rfl | hold
    · exact hcut old ((mem_insertDesc h.descending).mpr (Or.inl rfl))
    · by_cases hsame : old.epoch = version.epoch
      · rw [hsame]
        exact hcut version ((mem_insertDesc h.descending).mpr (Or.inl rfl))
      · rcases h.newest old hold with hkept | ⟨hfull, holder⟩
        · obtain ⟨v, hv, hepoch⟩ := List.mem_map.mp hkept
          rw [← hepoch]
          refine hcut v ((mem_insertDesc h.descending).mpr (Or.inr ⟨hv, ?_⟩))
          rw [hepoch]
          exact hsame
        · -- the list was full already, so it stays full and only newer items enter
          right
          have hge : s.mgr.versions.length ≤
              (insertDesc EpochLayout.epoch version s.mgr.versions).length :=
            length_insertDesc_ge version s.mgr.versions
          have hlength : (s.mgr.addLayout version).versions.length = s.mgr.maxVersions := by
            rw [hversions, List.length_take]
            omega
          refine ⟨hlength, ?_⟩
          intro kept hmem
          replace hmem : kept ∈ (s.mgr.addLayout version).versions := hmem
          rw [hversions] at hmem
          rcases (mem_insertDesc h.descending).mp (List.mem_of_mem_take hmem) with
            rfl | ⟨hkept, -⟩
          · by_contra holdest
            have hnewer : ∀ v ∈ s.mgr.versions, kept.epoch < v.epoch := by
              intro v hv
              have hv' := holder v hv
              omega
            rw [insertDesc_of_forall_newer hnewer, ← hfull, List.take_left] at hmem
            exact Nat.lt_irrefl _ (hnewer kept hmem)
          · exact holder kept hkept

theorem inv_addLayout {crates : Crates} {content : String → String} {s : Session}
    (h : Inv crates content s) {version : EpochLayout}
    (hallowed : ∀ old ∈ s.added, old.epoch = version.epoch → old.layout = version.layout) :
    Inv crates content
      { s with mgr := s.mgr.addLayout version, added := version :: s.added } where
  ordered := ordered_addLayout h.ordered version
  known := by
    intro v hv
    replace hv : v ∈ (s.mgr.addLayout version).versions := hv
    rw [addLayout_versions h.ordered.descending] at hv
    rcases (mem_insertDesc h.ordered.descending).mp (List.mem_of_mem_take hv) with rfl | ⟨hv, -⟩
    · exact List.mem_cons_self
    · exact List.mem_cons_of_mem _ (h.known v hv)
  agree := by
    intro a ha b hb hepoch
    rcases List.mem_cons.mp ha with hnew | hold
    · rcases List.mem_cons.mp hb with hnew' | hold'
      · rw [hnew, hnew']
      · subst hnew
        exact (hallowed b hold' hepoch.symm).symm
    · rcases List.mem_cons.mp hb with hnew' | hold'
      · subst hnew'
        exact hallowed a hold hepoch
      · exact h.agree a hold b hold' hepoch
  named := h.named
  held := by
    intro put hput
    obtain ⟨hdata, ⟨v, hv, hselects⟩, hstore⟩ := h.held put hput
    exact ⟨hdata, ⟨v, List.mem_cons_of_mem _ hv, hselects⟩, hstore⟩

/-- What a put does to a store. -/
theorem putObject_cases (crates : Crates) (store : NamedStore) (now : Nat) (objId : ObjId)
    (objData : String) :
    (∃ e, store.putObject crates now objId objData = (store, .error e)) ∨
      store.putObject crates now objId objData =
        ({ store with db := store.db.setObject crates now objId objId.objType objData },
          .ok ()) := by
  unfold NamedStore.putObject
  cases store.ensureWritable with
  | error e => exact Or.inl ⟨e, rfl⟩
  | ok _ => exact Or.inr rfl

/-- Replacing a store by one that keeps its texts and has no other than the named ones. -/
theorem inv_update_store {crates : Crates} {content : String → String} {s : Session}
    (h : Inv crates content s) (storeId : String) (store : NamedStore)
    (hkeeps : ∀ old, s.mgr.stores storeId = some old →
      ∀ k, (old.db.dataAt k).isSome → (store.db.dataAt k).isSome)
    (hnamed : ∀ k text, store.db.dataAt k = some text → text = content k) :
    Inv crates content { s with mgr := s.mgr.registerStore storeId store } where
  ordered := ⟨h.ordered.descending, h.ordered.bounded, h.ordered.newest⟩
  known := h.known
  agree := h.agree
  named := by
    intro otherId other hother
    replace hother : Function.update s.mgr.stores storeId (some store) otherId = some other :=
      hother
    by_cases hid : otherId = storeId
    · subst hid
      rw [Function.update_self, Option.some.injEq] at hother
      subst hother
      exact hnamed
    · rw [Function.update_of_ne hid] at hother
      exact h.named otherId other hother
  held := by
    intro put hput
    obtain ⟨hdata, hversion, old, hold, hsome⟩ := h.held put hput
    refine ⟨hdata, hversion, ?_⟩
    show ∃ found, Function.update s.mgr.stores storeId (some store) put.storeId = some found ∧ _
    by_cases hid : put.storeId = storeId
    · rw [hid, Function.update_self]
      rw [hid] at hold
      exact ⟨store, rfl, hkeeps old hold _ hsome⟩
    · rw [Function.update_of_ne hid]
      exact ⟨old, hold, hsome⟩

theorem selectStoreForWrite_some {mgr : LayoutMgr} {objId : ObjId} {found : String × NamedStore}
    (h : mgr.selectStoreForWrite objId = some found) :
    ∃ current, mgr.versions.head? = some current ∧
      current.layout.selectPrimaryTarget objId = some found.1 ∧
      mgr.stores found.1 = some found.2 := by
  obtain ⟨current, hcurrent, htarget⟩ := Option.bind_eq_some_iff.mp h
  obtain ⟨storeId, hselects, hregistered⟩ := Option.bind_eq_some_iff.mp htarget
  obtain ⟨store, hstore, rfl⟩ := Option.map_eq_some_iff.mp hregistered
  exact ⟨current, hcurrent, hselects, hstore⟩

/-- A put that is refused leaves everything but the identity of the store as it was. -/
theorem inv_put_refused {crates : Crates} {content : String → String} {s : Session}
    (h : Inv crates content s) {found : String × NamedStore}
    (hstore : s.mgr.stores found.1 = some found.2) :
    Inv crates content { s with mgr := s.mgr.registerStore found.1 found.2 } := by
  apply inv_update_store h
  · intro old hold k hsome
    rw [hstore, Option.some.injEq] at hold
    rwa [hold]
  · exact h.named _ _ hstore

/-- A put that is accepted leaves its text in the store. -/
theorem inv_put_accepted {crates : Crates} {content : String → String} {s : Session}
    (h : Inv crates content s) (now : Nat) (objId : ObjId) {found : String × NamedStore}
    (hstore : s.mgr.stores found.1 = some found.2) {current : EpochLayout}
    (hcurrent : s.mgr.versions.head? = some current)
    (hselects : current.layout.selectPrimaryTarget objId = some found.1) {objData : String}
    (hdata : objData = content (objId.toString crates)) :
    Inv crates content
      { s with
        mgr := s.mgr.registerStore found.1
          { found.2 with db := found.2.db.setObject crates now objId objId.objType objData }
        puts := s.puts ++ [⟨current.epoch, found.1, objId, objData⟩] } := by
  have hnamed := h.named _ _ hstore
  have hupdated := inv_update_store h found.1
    { found.2 with
      db := found.2.db.setObject crates now objId objId.objType objData }
    (by
      intro old hold k hsome
      rw [hstore, Option.some.injEq] at hold
      subst hold
      rw [NamedLocalStoreDb.dataAt_setObject]
      split_ifs
      · exact hsome
      · rfl
      · exact hsome)
    (by
      intro k text htext
      rw [NamedLocalStoreDb.dataAt_setObject] at htext
      split_ifs at htext with hk hpresent
      · exact hnamed k text htext
      · rw [Option.some.injEq] at htext
        rw [← htext, hdata, hk]
      · exact hnamed k text htext)
  refine ⟨⟨hupdated.ordered.descending, hupdated.ordered.bounded, hupdated.ordered.newest⟩,
    hupdated.known, hupdated.agree, hupdated.named, ?_⟩
  intro put hput
  rcases List.mem_append.mp hput with hold | hnew
  · exact hupdated.held put hold
  · rw [List.mem_singleton] at hnew
    subst hnew
    refine ⟨hdata, ⟨current, h.known current (List.mem_of_mem_head? hcurrent), rfl, hselects⟩, ?_⟩
    refine ⟨_, Function.update_self _ _ _, ?_⟩
    exact NamedLocalStoreDb.dataAt_setObject_isSome crates found.2.db now objId objId.objType
      objData

theorem inv_putObject {crates : Crates} {content : String → String} {s : Session}
    (h : Inv crates content s) (now : Nat) (objId : ObjId) {objData : String}
    (hdata : objData = content (objId.toString crates)) :
    Inv crates content (step crates s (.putObject now objId objData)) := by
  dsimp only [step]
  unfold putRecords putObject
  cases hselect : s.mgr.selectStoreForWrite objId with
  | none =>
      dsimp only
      split
      · next hnone _ => exact absurd hnone (by simp)
      · rw [List.append_nil]
        exact h
  | some found =>
      obtain ⟨current, hcurrent, hselects, hstore⟩ := selectStoreForWrite_some hselect
      obtain ⟨rest, hversions⟩ := List.head?_eq_some_iff.mp hcurrent
      dsimp only
      rw [hversions]
      rcases putObject_cases crates found.2 now objId objData with ⟨e, hrefused⟩ | haccepted
      · rw [hrefused]
        dsimp only
        rw [List.append_nil, ← hversions]
        exact inv_put_refused h hstore
      · rw [haccepted]
        dsimp only
        rw [← hversions]
        exact inv_put_accepted h now objId hstore hcurrent hselects hdata

theorem inv_step {crates : Crates} {content : String → String} (s : Session) (action : Action)
    (hallowed : Allowed crates content s action) (h : Inv crates content s) :
    Inv crates content (step crates s action) := by
  cases action with
  | addLayout version => exact inv_addLayout h hallowed
  | registerStore storeId store =>
      apply inv_update_store h storeId store _ hallowed.2
      intro old hold k hsome
      rwa [hallowed.1 old hold]
  | putObject now objId objData => exact inv_putObject h now objId hallowed

/-! ## Lookups -/

/-- The store that a layout selects is asked, or it was asked before. -/
theorem mem_targetStores {objId : ObjId} {versions : List LayoutVersion}
    (triedStores : List String) {version : LayoutVersion} {storeId : String}
    (hmem : version ∈ versions) (hselects : version.selectPrimaryTarget objId = some storeId) :
    storeId ∈ triedStores ∨ storeId ∈ targetStores objId versions triedStores := by
  induction versions generalizing triedStores with
  | nil => exact absurd hmem List.not_mem_nil
  | cons first rest ih =>
      unfold targetStores
      rcases List.mem_cons.mp hmem with rfl | hrest
      · rw [hselects]
        dsimp only
        split_ifs with htried
        · exact Or.inl htried
        · exact Or.inr List.mem_cons_self
      · cases first.selectPrimaryTarget objId with
        | none => exact ih triedStores hrest
        | some other =>
            dsimp only
            split_ifs
            · exact ih triedStores hrest
            · rcases ih (triedStores ++ [other]) hrest with htried | hlater
              · rcases List.mem_append.mp htried with htried | hother
                · exact Or.inl htried
                · rw [List.mem_singleton] at hother
                  exact Or.inr (hother ▸ List.mem_cons_self)
              · exact Or.inr (List.mem_cons_of_mem _ hlater)

/-- One store that has the text is enough when no store answers with another. -/
theorem getObjectAsking_eq_ok {mgr : NamedDataMgr} {objId : ObjId}
    {answer : String → NamedStore → NdnResult String} {text : String}
    (hanswers : ∀ storeId store, mgr.stores storeId = some store →
      ∀ other, answer storeId store = .ok other → other = text)
    {storeIds : List String} {storeId : String} {store : NamedStore}
    (hmem : storeId ∈ storeIds) (hstore : mgr.stores storeId = some store)
    (hanswer : answer storeId store = .ok text) (lastError : Option NdnError) :
    getObjectAsking mgr objId answer storeIds lastError = .ok text := by
  induction storeIds generalizing lastError with
  | nil => exact absurd hmem List.not_mem_nil
  | cons first rest ih =>
      unfold getObjectAsking
      rcases List.mem_cons.mp hmem with rfl | hrest
      · rw [hstore]
        dsimp only
        rw [hanswer]
      · cases hfirst : mgr.stores first with
        | none => exact ih hrest _
        | some asked =>
            dsimp only
            cases hasked : answer first asked with
            | ok other => rw [hanswers first asked hfirst other hasked]
            | error e => cases e <;> exact ih hrest _

theorem readable_of_inv {crates : Crates} {content : String → String} {s : Session}
    (h : Inv crates content s) : Readable crates s := by
  intro put hput hobject hkept faults hfaults
  obtain ⟨hdata, ⟨version, hversion, hepoch, hselects⟩, store, hstore, hsome⟩ := h.held put hput
  obtain ⟨kept, hmem, hkeptEpoch⟩ := List.mem_map.mp hkept
  -- the kept layout of the epoch is the one the object was written under
  have hlayout : kept.layout = version.layout :=
    h.agree kept (h.known kept hmem) version hversion (hkeptEpoch.trans hepoch.symm)
  obtain ⟨text, htext⟩ := Option.isSome_iff_exists.mp hsome
  have hcontent : text = put.data := (h.named _ _ hstore _ _ htext).trans hdata.symm
  subst hcontent
  have hne : s.mgr.toMgr.versions ≠ [] := by
    intro hnil
    rw [List.map_eq_nil_iff.mp hnil] at hmem
    exact absurd hmem List.not_mem_nil
  unfold getObject
  rw [if_neg hne]
  have hasked : put.storeId ∈ targetStores put.objId s.mgr.toMgr.versions [] := by
    have hlayoutMem : kept.layout ∈ s.mgr.toMgr.versions := List.mem_map_of_mem hmem
    rcases mem_targetStores [] hlayoutMem (hlayout ▸ hselects) with
      htried | hasked
    · exact absurd htried List.not_mem_nil
    · exact hasked
  refine getObjectAsking_eq_ok ?_ hasked hstore ?_ none
  · intro storeId asked hstoreAsked other hother
    cases hfault : faults storeId with
    | some e =>
        rw [hfault] at hother
        exact absurd hother (by simp)
    | none =>
        rw [hfault] at hother
        have hfound := (NamedStore.getObject_eq_ok_iff hobject).mp hother
        rw [h.named _ _ hstoreAsked _ _ hfound, hdata]
  · rw [hfaults]
    exact (NamedStore.getObject_eq_ok_iff hobject).mpr htext

/-- In every run in which repeated epochs bring the same layout, repeated store ids the same
store and identifiers one content: the versions are the newest ones in order, and objects
stay readable while the epoch they were put under is kept. -/
theorem run_layout_history (crates : Crates) (content : String → String) (maxVersions : Nat)
    (actions : List Action)
    (hallowed : Along (step crates) (Allowed crates content) (start maxVersions) actions) :
    Ordered (run (step crates) (start maxVersions) actions) ∧
      Readable crates (run (step crates) (start maxVersions) actions) := by
  have hinv := run_invariant (fun s action => inv_step s action) hallowed
    (inv_start crates content maxVersions)
  exact ⟨hinv.ordered, readable_of_inv hinv⟩

/-- A layout that sends every object to one store. -/
def toStore (epoch : Nat) (storeId : String) : EpochLayout := ⟨epoch, ⟨fun _ => some storeId⟩⟩

/-- An object is written under epoch 1, then layouts 3 and 2 arrive in this order. -/
def outOfOrderRun : List Action :=
  [.registerStore "a" (NamedStore.fromConfig false),
    .registerStore "b" (NamedStore.fromConfig false),
    .addLayout (toStore 1 "a"),
    .putObject 0 ⟨"cyfile", [7]⟩ "text",
    .addLayout (toStore 3 "b"),
    .addLayout (toStore 2 "b")]

theorem outOfOrderRun_readable :
    (run (step sampleCrates) (start 3) outOfOrderRun).puts =
        [⟨1, "a", ⟨"cyfile", [7]⟩, "text"⟩] ∧
      Ordered (run (step sampleCrates) (start 3) outOfOrderRun) ∧
      Readable sampleCrates (run (step sampleCrates) (start 3) outOfOrderRun) := by
  refine ⟨by decide, ?_⟩
  have hempty : ∀ k text, (NamedStore.fromConfig false).db.dataAt k = some text →
      text = "text" := fun k text htext => absurd htext (by simp [NamedStore.fromConfig,
        NamedLocalStoreDb.empty, NamedLocalStoreDb.dataAt])
  apply run_layout_history sampleCrates (fun _ => "text")
  refine ⟨⟨?_, hempty⟩, ⟨?_, hempty⟩, ?_, rfl, ?_, ?_, trivial⟩
  · intro old hold
    exact absurd hold (by simp [start, withMaxVersions])
  · intro old hold
    exact absurd hold (by simp [start, withMaxVersions, step, registerStore, Function.update])
  · intro old hold
    exact absurd hold List.not_mem_nil
  · intro old hold hepoch
    rw [List.mem_singleton.mp hold] at hepoch
    exact absurd hepoch (by decide)
  · intro old hold hepoch
    rcases List.mem_cons.mp hold with rfl | hold
    · exact absurd hepoch (by decide)
    · rw [List.mem_singleton.mp hold] at hepoch
      exact absurd hepoch (by decide)

/-- The identifier of a chunk is put as an object. -/
def chunkPutRun : List Action :=
  [.registerStore "a" (NamedStore.fromConfig false), .addLayout (toStore 1 "a"),
    .putObject 0 ⟨"sha256", [7]⟩ "text"]

/-- Two texts are put under one identifier, the second under a newer layout. -/
def conflictingPutRun : List Action :=
  [.registerStore "a" (NamedStore.fromConfig false),
    .registerStore "b" (NamedStore.fromConfig false),
    .addLayout (toStore 1 "a"),
    .putObject 0 ⟨"cyfile", [7]⟩ "text",
    .addLayout (toStore 2 "b"),
    .putObject 0 ⟨"cyfile", [7]⟩ "other"]

/-- Puts check neither the type nor the hash of an identifier: a chunk identifier is put
but never returned, and of two texts under one identifier the newest layout decides. -/
theorem unchecked_puts_not_returned :
    ((⟨1, "a", ⟨"sha256", [7]⟩, "text"⟩ : ObjectPut) ∈
        (run (step sampleCrates) (start 3) chunkPutRun).puts ∧
      (run (step sampleCrates) (start 3) chunkPutRun).mgr.versions.map EpochLayout.epoch = [1] ∧
      (run (step sampleCrates) (start 3) chunkPutRun).mgr.getObject sampleCrates
        (fun _ => none) ⟨"sha256", [7]⟩ = .error (.invalidObjType "sha256:07")) ∧
    ((⟨1, "a", ⟨"cyfile", [7]⟩, "text"⟩ : ObjectPut) ∈
        (run (step sampleCrates) (start 3) conflictingPutRun).puts ∧
      (run (step sampleCrates) (start 3) conflictingPutRun).mgr.versions.map EpochLayout.epoch =
        [2, 1] ∧
      (run (step sampleCrates) (start 3) conflictingPutRun).mgr.getObject sampleCrates
        (fun _ => none) ⟨"cyfile", [7]⟩ = .ok "other") := by
  refine ⟨⟨by decide, by decide, ?_⟩, by decide, by decide, ?_⟩
  · rfl
  · rfl

end LayoutMgr

end NamedStore
end CyfsNdn

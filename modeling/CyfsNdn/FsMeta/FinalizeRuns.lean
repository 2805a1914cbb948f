import CyfsNdn.FsMeta.FinalizeDir

/-!
# Finalizing a directory among others

What is below a directory is read at different times, and the transaction looks at two
revisions.  A file that is opened again counts no revision.  As long as nobody does that
with a file of the directory, what is below it shows the same after the transaction.
-/

namespace CyfsNdn
namespace FsMeta

open NdnLib Relational Collections Transition

/-! ## What a path shows -/

/-- An inode that is not finalized, or an object. -/
inductive Shown where
  | inode (id : IndexNodeId)
  | content (objId : ObjId)
deriving DecidableEq

/-- What the names below an object lead to, where `child` says what objects hold. -/
def objectShows (child : List UInt8 → String → Option ObjId) : ObjId → List String → Option ObjId
  | objId, [] => some objId
  | objId, name :: rest =>
      (child objId.toBytes name).bind fun inner => objectShows child inner rest

namespace FsMetaDb

/-- The inode is a directory. -/
def isDir (db : FsMetaDb) (id : IndexNodeId) : Bool :=
  match db.getInode id with
  | .ok (some node) => node.state.kind = .dir
  | _ => false

/-- The object of a finalized file. -/
def fileObject (db : FsMetaDb) (id : IndexNodeId) : Option ObjId :=
  match db.getInode id with
  | .ok (some node) =>
      match node.state.kind, node.state with
      | .dir, _ => none
      | _, .finalized objId _ => some objId
      | _, _ => none
  | _ => none

section Shows

variable (child : List UInt8 → String → Option ObjId)
  (links : String → List String → Option Shown)

/-- What the names below an entry lead to; `inside` is asked for those below an inode, and
`links` for those below a link. -/
def entryShows (db : FsMetaDb) (at' : DirName) (path : String) (rest : List String)
    (inside : IndexNodeId → Option Shown) : Option Shown :=
  match db.targetAt at'.dir at'.name with
  | none =>
      ((db.baseOf at'.dir).bind fun base => child base at'.name).bind fun objId =>
        (objectShows child objId rest).map .content
  | some cols =>
      match parseTarget cols with
      | .ok (.objId objId) => (objectShows child objId rest).map .content
      | .ok (.indexNodeId id) =>
          match db.fileObject id with
          | some objId => (objectShows child objId rest).map .content
          | none => inside id
      | .ok (.symLink _) => links path rest
      | _ => none

/-- What the names below an entry lead to. -/
def shownAt (db : FsMetaDb) : List String → DirName → String → Option Shown
  | [], at', path => db.entryShows child links at' path [] fun id => some (.inode id)
  | name :: rest, at', path =>
      db.entryShows child links at' path (name :: rest) fun id =>
        if db.isDir id then db.shownAt rest ⟨id, name⟩ (joinChildPath path name) else none

end Shows

end FsMetaDb

/-! ## Runs -/

/-- What links show, which depends on the tables. -/
abbrev Links := FsMetaDb → String → List String → Option Shown

/-- A turn of `try_finalize_dir`. -/
abbrev FinalizeTurn := Turn FsMetaDb FinalizeEnv FinalizeCall

/-- The tables after the turn. -/
def FinalizeTurn.after (t : FinalizeTurn) : FsMetaDb := (t.server.execFinalize t.env t.question).1

/-- What the named store and the resolver answer is so. -/
structure FinalizeTurn.Lawful (child : List UInt8 → String → Option ObjId) (links : Links)
    (t : FinalizeTurn) : Prop where
  load : ∀ base entries, t.env.loadDir base = .ok entries → (entries.map Prod.fst).Nodup ∧
    ∀ blob, objIdFromBlob blob = .ok base → ∀ name, entries.lookup name = child blob name
  save : ∀ name children objId, t.env.saveDir name children = .ok objId →
    objIdFromBlob objId.toBytes = .ok objId ∧
      ∀ name, child objId.toBytes name = children.lookup name
  links : ∀ path objId, t.env.turn.resolve path FSMetaService.defaultSymlinkCount =
      .ok (some ⟨.objId objId, none⟩) →
    ∀ rest, links t.server path rest = (objectShows child objId rest).map .content

/-- A question that makes a directory, if there is none, finds one. -/
def FinalizeTurn.MakesNoDir (t : FinalizeTurn) : Prop :=
  match t.question with
  | .entry (.serviceCreateDir _ _) => t.after = t.server
  | .entry (.serviceMaterializeDir _ _ _) => t.after = t.server
  | _ => True

namespace FinalizeDir

open FsMetaDb

/-- What a directory holds besides its dentries is as it was: its base, its finalized files
and what its links show. -/
structure Stands (links : Links) (dirPath : String) (dir : IndexNodeId) (db db' : FsMetaDb) :
    Prop where
  base : db'.baseOf dir = db.baseOf dir
  files : ∀ name id objId, db.Reads ⟨dir, name⟩ (.indexNodeId id) →
    db.fileObject id = some objId → db'.fileObject id = some objId
  links : ∀ name path, db.Reads ⟨dir, name⟩ (.symLink path) →
    links db' (joinChildPath dirPath name) = links db (joinChildPath dirPath name)

/-- Others leave tables in order and count revisions. -/
structure Orderly (db db' : FsMetaDb) : Prop where
  tree : db'.TreeInv
  unique : db'.UniqueNames
  counted : Counted db db'

theorem orderly_execEntry {db : FsMetaDb} (env : TurnEnv) (c : EntryCall) (hinv : db.TreeInv)
    (hunique : db.UniqueNames) : Orderly db (db.execEntry env c).1 :=
  ⟨EntryTurn.treeInv_execEntry hinv c, uniqueNames_of_chain (chain_execEntry db env c) hunique,
    counted_execEntry env c hinv⟩

/-- While the revision of the directory stands, others let it stand. -/
structure Others (links : Links) (dirPath : String) (dir : IndexNodeId) (db db' : FsMetaDb) :
    Prop extends Orderly db db' where
  stands : ∀ n, db.revNumber dir = some n → db'.revNumber dir = some n →
    Stands links dirPath dir db db'

/-- What is below the directory shows the same after the transaction, and no other inode
than the directory is gone unless it was a finalized file. -/
structure Kept (child : List UInt8 → String → Option ObjId) (links : Links) (dirPath : String)
    (plan : FinalizePlan) (db db' : FsMetaDb) : Prop where
  shows : ∀ name rest,
    db'.shownAt child (links db') (name :: rest) ⟨plan.parentId, plan.dirName⟩ dirPath =
      db.shownAt child (links db) (name :: rest) ⟨plan.parentId, plan.dirName⟩ dirPath
  inodes : ∀ id, (db.nodes.find? id).isSome = true → id ≠ plan.dirId →
    db.fileObject id = none → (db'.nodes.find? id).isSome = true

/-- Nothing changes, or the result is success and the last turn, and no other, changes the
tables; what is below the directory is kept then. -/
def Outcome (child : List UInt8 → String → Option ObjId) (links : Links) (dirPath : String)
    (dir : IndexNodeId) (turns : List FinalizeTurn) (result : RpcResult Bool) : Prop :=
  (∀ t ∈ turns, t.after = t.server) ∨
  (result = .ok true ∧ ∃ (reads : List FinalizeTurn) (commit : FinalizeTurn) (plan : FinalizePlan),
    turns = reads ++ [commit] ∧ (∀ t ∈ reads, t.after = t.server) ∧
    commit.question = .commit plan ∧
    (plan.dirId = dir → Kept child links dirPath plan commit.server commit.after))

section Runs

variable (child : List UInt8 → String → Option ObjId) (links : Links) (dirPath : String)
  (dir : IndexNodeId)

/-- The store and the resolver answer what is so, and no directory is made. -/
def Allowed (t : FinalizeTurn) : Prop := t.Lawful child links ∧ t.MakesNoDir

/-- The turns of a run that is allowed end as they should. -/
def Goal (turns : List FinalizeTurn) (result : RpcResult Bool) : Prop :=
  (∀ t ∈ turns, Allowed child links t) → Outcome child links dirPath dir turns result

/-- However it goes on, it ends as it should. -/
def Finalizes (db : FsMetaDb) (d : Dialogue FinalizeCall FinalizeCall.Answer (RpcResult Bool)) :
    Prop :=
  Dialogue.Satisfies execFinalize (Others links dirPath dir) (Goal child links dirPath dir) db d

variable {child links dirPath dir}

theorem goal_nil (result : RpcResult Bool) : Goal child links dirPath dir [] result :=
  fun _ => Or.inl (by simp)

/-- A turn that changes nothing does not matter. -/
theorem Goal.cons {t : FinalizeTurn} {turns : List FinalizeTurn} {result : RpcResult Bool}
    (h : Allowed child links t → t.after = t.server ∧ Goal child links dirPath dir turns result) :
    Goal child links dirPath dir (t :: turns) result := by
  intro hallowed
  obtain ⟨ht, hturns⟩ := List.forall_mem_cons.mp hallowed
  obtain ⟨hsame, hgoal⟩ := h ht
  rcases hgoal hturns with hquiet | ⟨hok, reads, commit, plan, rfl, hreads, hquestion, hkept⟩
  · exact Or.inl (List.forall_mem_cons.mpr ⟨hsame, hquiet⟩)
  · exact Or.inr ⟨hok, t :: reads, commit, plan, rfl, List.forall_mem_cons.mpr ⟨hsame, hreads⟩,
      hquestion, hkept⟩

theorem finalizes_ret (db : FsMetaDb) (result : RpcResult Bool) :
    Finalizes child links dirPath dir db (.ret result) := goal_nil result

/-- A question that reads. -/
theorem finalizes_ask {db : FsMetaDb} {c : FinalizeCall}
    {next : c.Answer → Dialogue FinalizeCall FinalizeCall.Answer (RpcResult Bool)}
    (hread : ∀ db' env, (execFinalize db' env c).1 = db')
    (h : ∀ db' env, Others links dirPath dir db db' →
      FinalizeTurn.Lawful child links ⟨db', env, c⟩ →
      Finalizes child links dirPath dir db' (next (db'.execFinalize env c).2)) :
    Finalizes child links dirPath dir db (.ask c next) := by
  intro db' env hothers
  by_cases hlawful : FinalizeTurn.Lawful child links ⟨db', env, c⟩
  · have hrest := h db' env hothers hlawful
    rw [hread]
    exact hrest.mono fun turns result hturns => Goal.cons fun _ => ⟨hread db' env, hturns⟩
  · have hvacuous : ∀ turns result,
        Goal child links dirPath dir (⟨db', env, c⟩ :: turns) result := fun turns result hallowed =>
      absurd (hallowed _ List.mem_cons_self).1 hlawful
    exact Dialogue.satisfies_of_forall hvacuous _

theorem finalizes_inodeOr {db : FsMetaDb} {id : IndexNodeId} {missing : String}
    {f : NodeRecord → Finalize Bool}
    (h : ∀ db' node, Others links dirPath dir db db' → db'.getInode id = .ok (some node) →
      Finalizes child links dirPath dir db' (f node).run) :
    Finalizes child links dirPath dir db (FSMetaService.inodeOr id missing >>= f).run := by
  refine finalizes_ask (c := .entry (.client (.getInode id))) (fun _ _ => rfl)
    fun db' env hothers _ => ?_
  have hreply : (db'.execFinalize env (.entry (.client (.getInode id)))).2 = db'.getInode id := rfl
  rw [hreply]
  cases hread : db'.getInode id with
  | error e => exact finalizes_ret db' (.error e)
  | ok found =>
      cases found with
      | none => exact finalizes_ret db' (.error missing)
      | some node => exact h db' node hothers hread

theorem finalizes_getDentry {db : FsMetaDb} {parent : IndexNodeId} {name : String}
    {f : Option DentryRecord → Finalize Bool}
    (h : ∀ db' dentry, Others links dirPath dir db db' →
      Finalizes child links dirPath dir db' (f dentry).run) :
    Finalizes child links dirPath dir db
      (Finalize.read (.client (.getDentry parent name)) >>= f).run := by
  refine finalizes_ask (c := .entry (.client (.getDentry parent name))) (fun _ _ => rfl)
    fun db' env hothers _ => ?_
  have hreply : (db'.execFinalize env (.entry (.client (.getDentry parent name)))).2 =
      db'.getDentry parent name := rfl
  rw [hreply]
  cases hread : db'.getDentry parent name with
  | error e => exact finalizes_ret db' (.error e)
  | ok found => exact h db' found hothers

theorem finalizes_listDentries {db : FsMetaDb} {id : IndexNodeId}
    {f : List DentryRecord → Finalize Bool}
    (h : ∀ db' children, Others links dirPath dir db db' → db'.listDentries id = .ok children →
      Finalizes child links dirPath dir db' (f children).run) :
    Finalizes child links dirPath dir db (Finalize.listDentries id >>= f).run := by
  refine finalizes_ask (c := .listDentries id) (fun _ _ => rfl) fun db' env hothers _ => ?_
  have hreply : (db'.execFinalize env (.listDentries id)).2 = db'.listDentries id := rfl
  rw [hreply]
  cases hread : db'.listDentries id with
  | error e => exact finalizes_ret db' (.error e)
  | ok children => exact h db' children hothers hread

theorem finalizes_saveDir {db : FsMetaDb} {name : String} {children : List (String × ObjId)}
    {f : ObjId → Finalize Bool}
    (h : ∀ db' objId, Others links dirPath dir db db' → objIdFromBlob objId.toBytes = .ok objId →
      (∀ name, child objId.toBytes name = children.lookup name) →
      Finalizes child links dirPath dir db' (f objId).run) :
    Finalizes child links dirPath dir db (Finalize.saveDir name children >>= f).run := by
  refine finalizes_ask (c := .saveDir name children) (fun _ _ => rfl)
    fun db' env hothers hlawful => ?_
  have hreply : (db'.execFinalize env (.saveDir name children)).2 = env.saveDir name children := rfl
  rw [hreply]
  cases hsave : env.saveDir name children with
  | error e => exact finalizes_ret db' (.error e)
  | ok objId =>
      obtain ⟨hblob, hchild⟩ := hlawful.save name children objId hsave
      exact h db' objId hothers hblob hchild

theorem finalizes_enqueue {db : FsMetaDb} {paths : List String} {f : Unit → Finalize Bool}
    (h : ∀ db', Finalizes child links dirPath dir db' (f ()).run) :
    Finalizes child links dirPath dir db (Finalize.enqueue paths >>= f).run := by
  refine finalizes_ask (c := .enqueue paths) (fun _ _ => rfl) fun db' env _ _ => ?_
  have hreply : (db'.execFinalize env (.enqueue paths)).2 = env.enqueue paths := rfl
  rw [hreply]
  cases env.enqueue paths with
  | error e => exact finalizes_ret db' (.error e)
  | ok done => exact h db'

theorem finalizes_resolve {db : FsMetaDb} {path : String} {f : Option ObjId → Finalize Bool}
    (h : ∀ db' found, Others links dirPath dir db db' →
      (∀ objId ∈ found, ∀ rest, links db' path rest = (objectShows child objId rest).map .content) →
      Finalizes child links dirPath dir db' (f found).run) :
    Finalizes child links dirPath dir db
      (FSMetaService.resolveSymlinkChildAsObj path >>= f).run := by
  refine finalizes_ask
    (c := .entry (.client (.resolvePathEx path FSMetaService.defaultSymlinkCount)))
    (fun _ _ => rfl) fun db' env hothers hlawful => ?_
  have hreply : (db'.execFinalize env (.entry (.client
      (.resolvePathEx path FSMetaService.defaultSymlinkCount)))).2 =
      env.turn.resolve path FSMetaService.defaultSymlinkCount := rfl
  rw [hreply]
  cases hresolve : env.turn.resolve path FSMetaService.defaultSymlinkCount with
  | error e => exact finalizes_ret db' (.error _)
  | ok found =>
      match found, hresolve with
      | none, _ => exact h db' none hothers (by simp)
      | some ⟨.inode id node, inner⟩, _ => exact h db' none hothers (by simp)
      | some ⟨.symLink target, inner⟩, _ => exact h db' none hothers (by simp)
      | some ⟨.objId objId, some inner⟩, _ => exact h db' none hothers (by simp)
      | some ⟨.objId objId, none⟩, hresolve =>
          refine h db' (some objId) hothers fun found hfound => ?_
          obtain rfl := Option.mem_some_iff.mp hfound
          exact hlawful.links path _ hresolve

/-- The objects of a base that was read. -/
def HoldsBase (child : List UInt8 → String → Option ObjId) (base : Option ObjId)
    (merged : List (String × ObjId)) : Prop :=
  match base with
  | none => merged = []
  | some base => ∀ blob, objIdFromBlob blob = .ok base → ∀ name, merged.lookup name = child blob name

theorem finalizes_baseChildren {db : FsMetaDb} {base : Option ObjId}
    {f : List (String × ObjId) → Finalize Bool} (hself : Others links dirPath dir db db)
    (h : ∀ db' merged, Others links dirPath dir db db' → HoldsBase child base merged →
      Finalizes child links dirPath dir db' (f merged).run) :
    Finalizes child links dirPath dir db (FSMetaService.baseChildren base >>= f).run := by
  cases base with
  | none => exact h db [] hself rfl
  | some base =>
      unfold FSMetaService.baseChildren
      dsimp only
      by_cases hkind : (!base.isDirObject) = true
      · rw [if_pos hkind]
        exact finalizes_ret db (.error _)
      rw [if_neg hkind]
      refine finalizes_ask (c := .loadDir base) (fun _ _ => rfl) fun db' env hothers hlawful => ?_
      have hreply : (db'.execFinalize env (.loadDir base)).2 = env.loadDir base := rfl
      rw [hreply]
      cases hload : env.loadDir base with
      | error e => exact finalizes_ret db' (.error e)
      | ok entries =>
          obtain ⟨hnodup, hlookup⟩ := hlawful.load base entries hload
          refine h db' _ hothers fun blob hblob name => ?_
          rw [lookup_foldl_putKey hnodup, hlookup blob hblob]
          simp

/-! ## Facts that hold until the transaction -/

theorem Others.self {db db' : FsMetaDb} (h : Others links dirPath dir db db') :
    Others links dirPath dir db' db' :=
  ⟨⟨h.tree, h.unique, Counted.refl db'⟩,
    fun _ _ _ => ⟨rfl, fun _ _ _ _ h => h, fun _ _ _ => rfl⟩⟩

/-- While the revision stands, the names lead to what they led to. -/
theorem Orderly.targetAt_eq {db db' : FsMetaDb} (h : Orderly db db') {n : Int}
    (hn : db.revNumber dir = some n) (hn' : db'.revNumber dir = some n) (name : String) :
    db'.targetAt dir name = db.targetAt dir name := by
  obtain ⟨n', hsome, -, hsame⟩ := h.counted dir n hn
  rw [hn'] at hsome
  exact hsame (Option.some.inj hsome).symm name

/-- A revision between two equal ones is the same. -/
theorem Orderly.revNumber_eq {db db' : FsMetaDb} (h : Orderly db db') {n m : Int}
    (hm : db.revNumber dir = some m) (hle : n ≤ m) (hn' : db'.revNumber dir = some n) :
    db.revNumber dir = some n := by
  obtain ⟨n', hsome, hle', -⟩ := h.counted dir m hm
  rw [hn'] at hsome
  obtain rfl := Option.some.inj hsome
  rw [hm, le_antisymm hle' hle]

theorem reads_congr {db db' : FsMetaDb} {at' : DirName} {target : DentryTarget}
    (h : db'.targetAt at'.dir at'.name = db.targetAt at'.dir at'.name)
    (hreads : db.Reads at' target) : db'.Reads at' target := by
  obtain ⟨cols, hcols, hparse⟩ := hreads
  exact ⟨cols, h.trans hcols, hparse⟩

theorem Others.trans {a b c : FsMetaDb} (h : Others links dirPath dir a b)
    (h' : Others links dirPath dir b c) : Others links dirPath dir a c := by
  refine ⟨⟨h'.tree, h'.unique, h.counted.trans h'.counted⟩, fun n ha hc => ?_⟩
  obtain ⟨m, hb, hle, -⟩ := h.counted dir n ha
  have hb' := h'.toOrderly.revNumber_eq hb hle hc
  have hfirst := h.stands n ha hb'
  have hthen := h'.stands n hb' hc
  have hsame := h.toOrderly.targetAt_eq ha hb'
  refine ⟨hthen.base.trans hfirst.base, fun name id objId hreads hobject => ?_,
    fun name path hreads => ?_⟩
  · exact hthen.files name id objId (reads_congr (hsame name) hreads)
      (hfirst.files name id objId hreads hobject)
  · exact (hthen.links name path (reads_congr (hsame name) hreads)).trans
      (hfirst.links name path hreads)

/-- It will hold as long as the directory is the one with this revision. -/
def Until (links : Links) (dirPath : String) (dir dirId : IndexNodeId) (n : Int) (db : FsMetaDb)
    (fact : FsMetaDb → Prop) : Prop :=
  ∀ later, Others links dirPath dir db later → dirId = dir → later.revNumber dir = some n →
    fact later

/-- The revision is not below this number. -/
def AtLeast (dirId : IndexNodeId) (n : Int) (db : FsMetaDb) : Prop :=
  ∃ m, db.revNumber dirId = some m ∧ n ≤ m

variable {dirId : IndexNodeId} {n : Int}

theorem Until.mono {db db' : FsMetaDb} {fact : FsMetaDb → Prop}
    (h : Until links dirPath dir dirId n db fact) (hothers : Others links dirPath dir db db') :
    Until links dirPath dir dirId n db' fact :=
  fun later hlater => h later (hothers.trans hlater)

theorem AtLeast.mono {db db' : FsMetaDb} (h : AtLeast dirId n db)
    (hothers : Others links dirPath dir db db') : AtLeast dirId n db' := by
  obtain ⟨m, hm, hle⟩ := h
  obtain ⟨m', hm', hle', -⟩ := hothers.counted dirId m hm
  exact ⟨m', hm', hle.trans hle'⟩

/-- The revision that stands at the end stood before. -/
theorem AtLeast.revNumber_eq {db later : FsMetaDb} (h : AtLeast dirId n db)
    (hothers : Others links dirPath dir db later) (hdir : dirId = dir)
    (hrev : later.revNumber dir = some n) : db.revNumber dir = some n := by
  subst hdir
  obtain ⟨m, hm, hle⟩ := h
  exact hothers.toOrderly.revNumber_eq hm hle hrev

/-- What is recorded of a child is what it is. -/
def EntryIs (child : List UInt8 → String → Option ObjId) (links : Links) (dirPath : String)
    (entry : DentryRecord) (recorded : Option ObjId) (db : FsMetaDb) : Prop :=
  match entry.target with
  | .tombstone => recorded = none
  | .objId objId => recorded = some objId
  | .indexNodeId id => ∃ objId, recorded = some objId ∧ db.fileObject id = some objId
  | .symLink _ => ∃ objId, recorded = some objId ∧
      ∀ rest, links db (joinChildPath dirPath entry.name) rest =
        (objectShows child objId rest).map .content

theorem mergeChild_inode {id : IndexNodeId} {db : FsMetaDb} {node : NodeRecord} {name : String}
    {merged : List (String × ObjId)} {pending : List String} {path : String}
    (h : db.getInode id = .ok (some node)) :
    (match node.state.kind, node.state with
      | .dir, _ => pure (merged, pending ++ [path])
      | _, .finalized objId _ => pure (putKey name objId merged, pending)
      | _, _ => pure (merged, pending ++ [path]) : Finalize FSMetaService.Merged) =
    match db.fileObject id with
    | some objId => pure (putKey name objId merged, pending)
    | none => pure (merged, pending ++ [path]) := by
  unfold fileObject
  rw [h]
  dsimp only
  cases node.state.kind <;> cases node.state <;> rfl

/-- One child: nothing is recorded of it, or what it is. -/
theorem finalizes_mergeChild {db : FsMetaDb} {entry : DentryRecord}
    {merged : List (String × ObjId)} {pending : List String}
    {f : FSMetaService.Merged → Finalize Bool} (hself : Others links dirPath dir db db)
    (hlow : AtLeast dirId n db)
    (hreads : Until links dirPath dir dirId n db fun later =>
      later.Reads ⟨dir, entry.name⟩ entry.target)
    (h : ∀ db' merged' pending', Others links dirPath dir db db' →
      (pending' = [] → pending = [] ∧
        Until links dirPath dir dirId n db'
          (EntryIs child links dirPath entry (merged'.lookup entry.name)) ∧
        ∀ name, name ≠ entry.name → merged'.lookup name = merged.lookup name) →
      Finalizes child links dirPath dir db' (f (merged', pending')).run) :
    Finalizes child links dirPath dir db
      (FSMetaService.mergeChild dirPath entry (merged, pending) >>= f).run := by
  obtain ⟨d, parent, name, target⟩ := entry
  cases target with
  | tombstone =>
      refine h db _ _ hself fun hnone => ⟨hnone, fun later _ _ _ => ?_, fun other hother => ?_⟩
      · exact lookup_eraseKey_self name merged
      · exact lookup_eraseKey_of_ne hother merged
  | objId objId =>
      refine h db _ _ hself fun hnone => ⟨hnone, fun later _ _ _ => ?_, fun other hother => ?_⟩
      · exact (lookup_putKey name name objId merged).trans (if_pos rfl)
      · exact (lookup_putKey name other objId merged).trans (if_neg hother)
  | indexNodeId id =>
      change Finalizes child links dirPath dir db
        ((FSMetaService.inodeOr id ("child inode " ++ toString id ++ " not found") >>= fun node =>
          match node.state.kind, node.state with
          | .dir, _ => pure (merged, pending ++ [joinChildPath dirPath name])
          | _, .finalized objId _ => pure (putKey name objId merged, pending)
          | _, _ => pure (merged, pending ++ [joinChildPath dirPath name])) >>= f).run
      rw [bind_assoc]
      refine finalizes_inodeOr fun db' node hothers hnode => ?_
      rw [mergeChild_inode hnode]
      cases hobject : db'.fileObject id with
      | none => exact h db' _ _ hothers fun hnone => absurd hnone (by simp)
      | some objId =>
          refine h db' _ _ hothers fun hnone =>
            ⟨hnone, fun later hlater hdir hrev => ⟨objId, ?_, ?_⟩, fun other hother => ?_⟩
          · exact (lookup_putKey name name objId merged).trans (if_pos rfl)
          · have hn := (hlow.mono hothers).revNumber_eq hlater hdir hrev
            exact (hlater.stands n hn hrev).files name id objId (hreads db' hothers hdir hn) hobject
          · exact (lookup_putKey name other objId merged).trans (if_neg hother)
  | symLink path =>
      change Finalizes child links dirPath dir db
        ((FSMetaService.resolveSymlinkChildAsObj (joinChildPath dirPath name) >>= fun found =>
          match found with
          | some objId => pure (putKey name objId merged, pending)
          | none => pure (merged, pending ++ [joinChildPath dirPath name])) >>= f).run
      rw [bind_assoc]
      refine finalizes_resolve fun db' found hothers hfound => ?_
      cases found with
      | none => exact h db' _ _ hothers fun hnone => absurd hnone (by simp)
      | some objId =>
          refine h db' _ _ hothers fun hnone =>
            ⟨hnone, fun later hlater hdir hrev => ⟨objId, ?_, ?_⟩, fun other hother => ?_⟩
          · exact (lookup_putKey name name objId merged).trans (if_pos rfl)
          · have hn := (hlow.mono hothers).revNumber_eq hlater hdir hrev
            rw [(hlater.stands n hn hrev).links name path (hreads db' hothers hdir hn)]
            exact hfound objId rfl
          · exact (lookup_putKey name other objId merged).trans (if_neg hother)

/-- All children: what is recorded of each is what it is, and what is recorded under other
names stays. -/
theorem finalizes_mergeChildren {db : FsMetaDb} {entries : List DentryRecord}
    {merged : List (String × ObjId)} {pending : List String}
    {f : FSMetaService.Merged → Finalize Bool} (hself : Others links dirPath dir db db)
    (hlow : AtLeast dirId n db) (hnodup : (entries.map DentryRecord.name).Nodup)
    (hreads : ∀ entry ∈ entries, Until links dirPath dir dirId n db fun later =>
      later.Reads ⟨dir, entry.name⟩ entry.target)
    (h : ∀ db' merged' pending', Others links dirPath dir db db' →
      (pending' = [] → pending = [] ∧
        (∀ entry ∈ entries, Until links dirPath dir dirId n db'
          (EntryIs child links dirPath entry (merged'.lookup entry.name))) ∧
        ∀ name, (∀ entry ∈ entries, entry.name ≠ name) →
          merged'.lookup name = merged.lookup name) →
      Finalizes child links dirPath dir db' (f (merged', pending')).run) :
    Finalizes child links dirPath dir db
      (FSMetaService.mergeChildren dirPath entries (merged, pending) >>= f).run := by
  induction entries generalizing db merged pending with
  | nil => exact h db merged pending hself fun hnone => ⟨hnone, by simp, fun _ _ => rfl⟩
  | cons entry rest ih =>
      rw [List.map_cons, List.nodup_cons] at hnodup
      obtain ⟨hfresh, hnodup⟩ := hnodup
      unfold FSMetaService.mergeChildren
      rw [bind_assoc]
      refine finalizes_mergeChild hself hlow (hreads entry List.mem_cons_self)
        fun db₁ merged₁ pending₁ hothers₁ hfirst => ?_
      refine ih hothers₁.self (hlow.mono hothers₁) hnodup
        (fun other hother => (hreads other (List.mem_cons_of_mem _ hother)).mono hothers₁)
        fun db₂ merged₂ pending₂ hothers₂ hrest => ?_
      refine h db₂ merged₂ pending₂ (hothers₁.trans hothers₂) fun hnone => ?_
      obtain ⟨hpending₁, hentries, hother⟩ := hrest hnone
      obtain ⟨hpending, hentry, hother₁⟩ := hfirst hpending₁
      have hkept : merged₂.lookup entry.name = merged₁.lookup entry.name :=
        hother entry.name fun other hmem heq => hfresh (heq ▸ List.mem_map_of_mem hmem)
      refine ⟨hpending, fun e he => ?_, fun name hname => ?_⟩
      · rcases List.mem_cons.mp he with rfl | he
        · rw [hkept]
          exact hentry.mono hothers₂
        · exact hentries e he
      · rw [hother name fun e he => hname e (List.mem_cons_of_mem _ he)]
        exact hother₁ name (Ne.symm (hname entry List.mem_cons_self))

/-! ## The transaction -/

/-- What was read of the base of the directory. -/
def BaseIs (dir : IndexNodeId) (base : Option ObjId) (db : FsMetaDb) : Prop :=
  match db.baseOf dir with
  | none => base = none
  | some blob => ∃ objId, base = some objId ∧ objIdFromBlob blob = .ok objId

/-- The merged map says what every name of the directory leads to. -/
structure Records (child : List UInt8 → String → Option ObjId) (links : Links) (dirPath : String)
    (dir : IndexNodeId) (merged : List (String × ObjId)) (db : FsMetaDb) : Prop where
  listed : ∀ name cols, db.targetAt dir name = some cols → ∃ entry : DentryRecord,
    entry.name = name ∧ parseTarget cols = .ok entry.target ∧
      EntryIs child links dirPath entry (merged.lookup name) db
  unlisted : ∀ name, db.targetAt dir name = none →
    merged.lookup name = (db.baseOf dir).bind fun base => child base name

theorem records_of_entries {db : FsMetaDb} {base : Option ObjId}
    {start merged : List (String × ObjId)} {children : List DentryRecord}
    (hbase : BaseIs dir base db) (hstart : HoldsBase child base start)
    (hlists : db.Lists dir children)
    (hentries : ∀ entry ∈ children, EntryIs child links dirPath entry (merged.lookup entry.name) db)
    (hother : ∀ name, (∀ entry ∈ children, entry.name ≠ name) →
      merged.lookup name = start.lookup name) : Records child links dirPath dir merged db := by
  constructor
  · intro name cols hcols
    obtain ⟨entry, hmem, rfl⟩ := hlists.complete name cols hcols
    obtain ⟨cols', hcols', hparse⟩ := hlists.sound entry hmem
    rw [hcols] at hcols'
    obtain rfl := Option.some.inj hcols'
    exact ⟨entry, rfl, hparse, hentries entry hmem⟩
  · intro name hnone
    rw [hother name]
    · unfold BaseIs at hbase
      cases hblob : db.baseOf dir with
      | none =>
          rw [hblob] at hbase
          subst hbase
          obtain rfl : start = [] := hstart
          rfl
      | some blob =>
          rw [hblob] at hbase
          obtain ⟨objId, rfl, hread⟩ := hbase
          exact hstart blob hread name
    · rintro entry hmem rfl
      obtain ⟨cols, hcols, -⟩ := hlists.sound entry hmem
      rw [hnone] at hcols
      cases hcols

/-- A name of the directory shows the object that is recorded of it. -/
theorem entryShows_of_records {db : FsMetaDb} {merged : List (String × ObjId)}
    (h : Records child links dirPath dir merged db) (name : String) (rest : List String)
    (inside : IndexNodeId → Option Shown) :
    db.entryShows child (links db) ⟨dir, name⟩ (joinChildPath dirPath name) rest inside =
      (merged.lookup name).bind fun objId => (objectShows child objId rest).map .content := by
  unfold entryShows
  dsimp only
  cases hat : db.targetAt dir name with
  | none => rw [h.unlisted name hat]
  | some cols =>
      obtain ⟨⟨d, parent, _, target⟩, rfl, hparse, hentry⟩ := h.listed name cols hat
      dsimp only at hparse hentry ⊢
      rw [hparse]
      cases target with
      | tombstone =>
          have hnone : merged.lookup _ = none := hentry
          rw [hnone]
          rfl
      | objId objId =>
          have hsome : merged.lookup _ = some objId := hentry
          rw [hsome]
          rfl
      | indexNodeId id =>
          obtain ⟨objId, hsome, hobject⟩ := hentry
          rw [hsome]
          dsimp only
          rw [hobject]
          rfl
      | symLink path =>
          obtain ⟨objId, hsome, hlinks⟩ := hentry
          rw [hsome]
          exact hlinks rest

theorem entryShows_inode {db : FsMetaDb} {at' : DirName} {id : IndexNodeId} {path : String}
    {rest : List String} {inside : IndexNodeId → Option Shown} {ends : String → List String → Option Shown}
    (hat : db.targetAt at'.dir at'.name = some (dentryTargetCols (.indexNodeId id)))
    (hfile : db.fileObject id = none) :
    db.entryShows child ends at' path rest inside = inside id := by
  unfold entryShows
  rw [hat]
  change (match db.fileObject id with
    | some objId => (objectShows child objId rest).map Shown.content
    | none => inside id) = _
  rw [hfile]

theorem entryShows_objId {db : FsMetaDb} {at' : DirName} {objId : ObjId} {path : String}
    {rest : List String} {inside : IndexNodeId → Option Shown} {ends : String → List String → Option Shown}
    (hat : db.targetAt at'.dir at'.name = some (dentryTargetCols (.objId objId)))
    (hblob : objIdFromBlob objId.toBytes = .ok objId) :
    db.entryShows child ends at' path rest inside =
      (objectShows child objId rest).map .content := by
  have hparse : parseTarget (dentryTargetCols (.objId objId)) = .ok (.objId objId) :=
    congrArg (Except.map DentryTarget.objId) hblob
  unfold entryShows
  rw [hat]
  dsimp only
  rw [hparse]

theorem shownAt_eq_entryShows (child : List UInt8 → String → Option ObjId) (links : Links)
    (db : FsMetaDb) (rest : List String) (at' : DirName) (path : String) : ∃ inside, db.shownAt child (links db) rest at' path =
      db.entryShows child (links db) at' path rest inside := by
  cases rest with
  | nil => exact ⟨_, rfl⟩
  | cons name rest => exact ⟨_, rfl⟩

/-- What is recorded is kept. -/
theorem kept_of_records {db db' : FsMetaDb} {plan : FinalizePlan}
    {merged : List (String × ObjId)} (hinv : Orderly db db)
    (h : FinalizedBy plan db db') (hrecords : Records child links dirPath plan.dirId merged db)
    (hblob : objIdFromBlob plan.newDirObjId.toBytes = .ok plan.newDirObjId)
    (hnew : ∀ name, child plan.newDirObjId.toBytes name = merged.lookup name) :
    Kept child links dirPath plan db db' := by
  obtain ⟨node, hnode, hkind, -⟩ := h.dir
  have hdir : db.isDir plan.dirId = true := by
    unfold isDir
    rw [hnode]
    simpa using hkind
  have hfile : db.fileObject plan.dirId = none := by
    unfold fileObject
    rw [hnode]
    dsimp only
    rw [hkind]
  constructor
  · intro name rest
    have hbefore : db.shownAt child (links db) (name :: rest) ⟨plan.parentId, plan.dirName⟩
        dirPath = db.shownAt child (links db) rest ⟨plan.dirId, name⟩
          (joinChildPath dirPath name) := (entryShows_inode h.before hfile).trans (if_pos hdir)
    have hafter : db'.shownAt child (links db') (name :: rest) ⟨plan.parentId, plan.dirName⟩
        dirPath = (objectShows child plan.newDirObjId (name :: rest)).map .content :=
      entryShows_objId h.after hblob
    obtain ⟨inside, hinside⟩ := shownAt_eq_entryShows child links db rest ⟨plan.dirId, name⟩
      (joinChildPath dirPath name)
    have hstep : objectShows child plan.newDirObjId (name :: rest) =
        (merged.lookup name).bind fun objId => objectShows child objId rest :=
      congrArg (fun found => Option.bind found fun objId => objectShows child objId rest) (hnew name)
    rw [hbefore, hafter, hinside, entryShows_of_records hrecords, hstep, Option.map_bind]
    rfl
  · intro id hsome hne hnone
    refine h.inodes id hne (fun hparent => ?_) hsome
    -- A child that is an inode was recorded with its object.
    obtain ⟨d, href, hfound⟩ := Option.bind_eq_some_iff.mp hparent
    obtain ⟨row, hrow, hdirId⟩ := Option.map_eq_some_iff.mp hfound
    have htarget := (hinv.tree.inverse d id).mpr href
    rw [targetOf_of_find? hrow] at htarget
    have htype := (hinv.tree.shaped d row hrow).mpr (by rw [htarget]; rfl)
    have hat : db.targetAt plan.dirId row.name = some row.target := by
      unfold targetAt
      rw [← hdirId, dentryAt_of_mem hinv.unique (Table.find?_eq_some_iff.mp hrow).1]
      rfl
    obtain ⟨entry, -, hparse, hentry⟩ := hrecords.listed row.name row.target hat
    unfold parseTarget at hparse
    rw [htype, htarget] at hparse
    unfold EntryIs at hentry
    rw [← Except.ok.inj hparse] at hentry
    obtain ⟨objId, -, hobject⟩ := hentry
    rw [hnone] at hobject
    cases hobject

/-- The transaction keeps what was recorded. -/
theorem finalizes_commit {db : FsMetaDb} {plan : FinalizePlan} (merged : List (String × ObjId))
    (hrecords : Until links dirPath dir plan.dirId plan.dirRev0.toInt64.toInt db
      (Records child links dirPath dir merged))
    (hblob : objIdFromBlob plan.newDirObjId.toBytes = .ok plan.newDirObjId)
    (hnew : ∀ name, child plan.newDirObjId.toBytes name = merged.lookup name) :
    Finalizes child links dirPath dir db (Finalize.commit plan >>= fun _ => pure true).run := by
  intro db' env hothers
  have hexec : db'.execFinalize env (.commit plan) =
      db'.answer (done (db'.finalizeDirTxn env.turn.service.now plan)) := rfl
  have hafter : FinalizeTurn.after ⟨db', env, .commit plan⟩ =
      (db'.answer (done (db'.finalizeDirTxn env.turn.service.now plan))).1 := rfl
  cases hcommit : db'.finalizeDirTxn env.turn.service.now plan with
  | error e =>
      rw [hcommit] at hexec hafter
      rw [hexec]
      intro _
      exact Or.inl fun t ht => by rw [List.mem_singleton.mp ht]; exact hafter
  | ok db'' =>
      rw [hcommit] at hexec hafter
      rw [hexec]
      intro _
      rcases finalizedBy_of_finalizeDirTxn hothers.tree hcommit with rfl | hfinalized
      · exact Or.inl fun t ht => by rw [List.mem_singleton.mp ht]; exact hafter
      · refine Or.inr ⟨rfl, [], ⟨db', env, .commit plan⟩, plan, rfl, by simp, rfl, fun hdir => ?_⟩
        obtain ⟨node, hnode, -, hrev⟩ := hfinalized.dir
        have hnumber : db'.revNumber dir = some plan.dirRev0.toInt64.toInt := by
          rw [← hdir, ← hrev]
          exact revNumber_of_getInode hnode
        have hnow := hrecords db' hothers hdir hnumber
        rw [hafter]
        exact kept_of_records hothers.self.toOrderly hfinalized (hdir ▸ hnow) hblob hnew

theorem baseIs_of_getInode {db : FsMetaDb} {id : IndexNodeId} {node : NodeRecord}
    (h : db.getInode id = .ok (some node)) : BaseIs id node.baseObjId db := by
  unfold getInode at h
  cases hrow : db.nodes.find? id with
  | none =>
      rw [hrow] at h
      cases h
  | some row =>
      rw [hrow] at h
      obtain ⟨parsed, hparsed, heq⟩ := except_map_eq_ok.mp h
      obtain rfl := Option.some.inj heq
      unfold parseNode at hparsed
      simp only [except_bind_eq_ok, except_pure_eq_ok] at hparsed
      obtain ⟨rev, -, leaseSeq, -, state, -, base, hbase, rfl⟩ := hparsed
      unfold BaseIs baseOf
      rw [hrow]
      dsimp only [Option.bind_some]
      cases hblob : row.baseObjId with
      | none =>
          rw [hblob] at hbase
          exact (Except.ok.inj hbase).symm
      | some blob =>
          rw [hblob] at hbase
          obtain ⟨objId, hread, rfl⟩ := except_map_eq_ok.mp hbase
          exact ⟨objId, rfl, hread⟩

/-- From the directory inode on. -/
theorem finalizes_finalizeInode {db : FsMetaDb} (parentId : IndexNodeId) (dirName : String)
    (parentRev0 : UInt64) (dirId : IndexNodeId) :
    Finalizes child links dirPath dir db
      (FSMetaService.finalizeInode dirPath parentId dirName parentRev0 dirId).run := by
  unfold FSMetaService.finalizeInode
  refine finalizes_inodeOr fun db₁ dirNode hothers₁ hnode => ?_
  by_cases hkind : dirNode.state.kind ≠ .dir
  · rw [if_pos hkind]
    exact finalizes_ret db₁ (.error _)
  rw [if_neg hkind]
  have hlow₁ : AtLeast dirId (dirNode.rev.getD 0).toInt64.toInt db₁ :=
    ⟨_, revNumber_of_getInode hnode, le_rfl⟩
  have hbase₁ : Until links dirPath dir dirId (dirNode.rev.getD 0).toInt64.toInt db₁
      (BaseIs dir dirNode.baseObjId) := by
    rintro later hlater rfl hrev
    have hstands := hlater.stands _ (hlow₁.revNumber_eq hlater rfl hrev) hrev
    unfold BaseIs
    rw [hstands.base]
    exact baseIs_of_getInode hnode
  refine finalizes_baseChildren hothers₁.self fun db₂ start hothers₂ hstart => ?_
  refine finalizes_listDentries fun db₃ children hothers₃ hlist => ?_
  have hlow₃ := (hlow₁.mono hothers₂).mono hothers₃
  have hlists := lists_of_listDentries hlist hothers₃.unique
  have hlists₃ : Until links dirPath dir dirId (dirNode.rev.getD 0).toInt64.toInt db₃ fun later =>
      later.Lists dir children := by
    rintro later hlater rfl hrev
    have hsame := hlater.toOrderly.targetAt_eq (hlow₃.revNumber_eq hlater rfl hrev) hrev
    refine ⟨hlists.nodup, fun entry hentry => ?_, fun name cols hcols => ?_⟩
    · rw [hsame]
      exact hlists.sound entry hentry
    · rw [hsame] at hcols
      exact hlists.complete name cols hcols
  refine finalizes_mergeChildren hothers₃.self hlow₃ hlists.nodup
    (fun entry hentry later hlater hdir hrev =>
      (hlists₃ later hlater hdir hrev).sound entry hentry)
    fun db₄ merged pending hothers₄ hmerged => ?_
  by_cases hpending : pending ≠ []
  · dsimp only
    rw [if_pos hpending]
    exact finalizes_enqueue fun db₅ => finalizes_ret db₅ (.ok false)
  dsimp only
  rw [if_neg hpending]
  obtain ⟨-, hentries, hother⟩ := hmerged (not_not.mp hpending)
  refine finalizes_saveDir fun db₅ newDirObjId hothers₅ hblob hnew => ?_
  refine finalizes_commit merged (fun later hlater hdir hrev => ?_) hblob hnew
  have hlater₄ := hothers₅.trans hlater
  have hlater₃ := hothers₄.trans hlater₄
  have hlater₁ := (hothers₂.trans hothers₃).trans hlater₃
  exact records_of_entries (hbase₁ later hlater₁ hdir hrev) hstart
    (hlists₃ later hlater₃ hdir hrev)
    (fun entry hentry => hentries entry hentry later hlater₄ hdir hrev) hother

end Runs

/-! ## The directories above -/

/-- The questions of `ensure_dir_inode`. -/
def EnsureKind : EntryCall → Prop
  | .client (.getInode _) => True
  | .client (.getDentry _ _) => True
  | .client (.resolvePathEx _ _) => True
  | .lookupBaseDirobjChild _ _ => True
  | .serviceCreateDir _ _ => True
  | .serviceMaterializeDir _ _ _ => True
  | _ => False

section Asks

variable {α β : Type} {kind : EntryCall → Prop}

theorem asks_read {c : EntryCall} (h : kind c) : (FSMetaService.ask c).run.Asks kind :=
  ⟨h, fun _ => trivial⟩

theorem asks_throw (e : String) : (throw e : Entry α).run.Asks kind := trivial

theorem asks_pure (a : α) : (pure a : Entry α).run.Asks kind := trivial

theorem asks_ite {p : Prop} [Decidable p] {x y : Entry α} (hx : x.run.Asks kind)
    (hy : y.run.Asks kind) : (if p then x else y).run.Asks kind := by
  split_ifs
  · exact hx
  · exact hy

theorem asks_entryBind {x : Entry α} {f : α → Entry β} (hx : x.run.Asks kind)
    (hf : ∀ a, (f a).run.Asks kind) : (x >>= f).run.Asks kind := by
  refine Dialogue.asks_bind hx fun result => ?_
  cases result with
  | error e => trivial
  | ok a => exact hf a

end Asks

theorem asks_ensureChild (currentId : IndexNodeId) (before : List String) (component : String) :
    (FSMetaService.ensureChild currentId before component).run.Asks EnsureKind := by
  unfold FSMetaService.ensureChild
  refine asks_entryBind (asks_read trivial) fun dentry => ?_
  cases dentry with
  | none =>
      refine asks_entryBind (asks_read trivial) fun node => ?_
      cases node with
      | none => exact asks_throw _
      | some parentNode =>
          dsimp only
          split_ifs
          · exact asks_throw _
          · refine asks_entryBind (asks_read trivial) fun lookup => ?_
            cases lookup with
            | dirObj objId => exact asks_read trivial
            | nonDirObj objId => exact asks_throw _
            | missing => exact asks_read trivial
  | some dentry =>
      obtain ⟨d, parent, name, target⟩ := dentry
      cases target with
      | indexNodeId id =>
          refine asks_entryBind (asks_read trivial) fun node => ?_
          cases node with
          | none => exact asks_throw _
          | some node =>
              dsimp only
              split_ifs
              · exact asks_throw _
              · exact asks_pure id
      | objId objId =>
          dsimp only
          exact asks_ite trivial (asks_read trivial)
      | symLink path => exact asks_throw _
      | tombstone => exact asks_read trivial

theorem asks_ensureDirs (components : List String) (currentId : IndexNodeId)
    (before : List String) :
    (FSMetaService.ensureDirs currentId before components).run.Asks EnsureKind := by
  induction components generalizing currentId before with
  | nil => exact asks_pure currentId
  | cons component rest ih =>
      exact asks_entryBind (asks_ensureChild currentId before component) fun nextId => ih nextId _

theorem asks_ensureDirInode (path : String) :
    (FSMetaService.ensureDirInode path).run.Asks EnsureKind := by
  unfold FSMetaService.ensureDirInode
  split_ifs
  · exact asks_pure 1
  · refine asks_entryBind (asks_read trivial) fun found => ?_
    match found with
    | none => exact asks_ensureDirs _ _ _
    | some ⟨.inode id node, inner⟩ =>
        dsimp only
        split_ifs
        · exact asks_throw _
        · exact asks_pure id
    | some ⟨.symLink target, inner⟩ => exact asks_throw _
    | some ⟨.objId objId, inner⟩ =>
        dsimp only
        split_ifs
        · exact asks_throw _
        · exact asks_ensureDirs _ _ _

/-- The same among the questions of `try_finalize_dir`. -/
def ofEntryKind (kind : EntryCall → Prop) : FinalizeCall → Prop
  | .entry c => kind c
  | _ => False

theorem asks_toFinalize {α : Type} {kind : EntryCall → Prop} {d : EntryDialogue α}
    (h : d.Asks kind) : (EntryDialogue.toFinalize d).Asks (ofEntryKind kind) := by
  induction d with
  | ret a => trivial
  | ask c next ih => exact ⟨h.1, fun reply => ih reply (h.2 reply)⟩

/-- Where no directory is made nothing changes. -/
theorem after_of_ensureKind {t : FinalizeTurn} (hkind : ofEntryKind EnsureKind t.question)
    (hmakes : t.MakesNoDir) : t.after = t.server := by
  obtain ⟨server, env, question⟩ := t
  cases question with
  | entry c =>
      cases c with
      | client c =>
          cases c with
          | getInode id => rfl
          | getDentry parent name => rfl
          | resolvePathEx path symCount => rfl
          | _ => cases hkind
      | lookupBaseDirobjChild dirNode name => rfl
      | serviceCreateDir parent name => exact hmakes
      | serviceMaterializeDir parent name dirObjId => exact hmakes
      | _ => cases hkind
  | _ => cases hkind

/-! ## All of it -/

variable {child : List UInt8 → String → Option ObjId} {links : Links} {dir : IndexNodeId}

theorem finalizes_tryFinalizeDir (hasStore : Bool) (dirPath : String) (db : FsMetaDb) :
    Finalizes child links dirPath dir db (FSMetaService.tryFinalizeDir hasStore dirPath).run := by
  unfold FSMetaService.tryFinalizeDir
  by_cases hroot : NfsPath.isRoot dirPath = true
  · rw [if_pos hroot]
    exact finalizes_ret db (.error _)
  rw [if_neg hroot]
  by_cases hstore : (!hasStore) = true
  · dsimp only
    rw [if_pos hstore]
    exact finalizes_ret db (.error _)
  · dsimp only
    rw [if_neg hstore]
    cases hsplit : NfsPath.splitParentName dirPath with
    | none => exact finalizes_ret db (.error _)
    | some names =>
        obtain ⟨parentPath, dirName⟩ := names
        dsimp only
        refine Dialogue.satisfies_bind (asks_toFinalize (asks_ensureDirInode parentPath))
          (fun t turns result hkind hgoal => Goal.cons fun hallowed =>
            ⟨after_of_ensureKind hkind hallowed.2, hgoal⟩) fun db₁ ensured => ?_
        cases ensured with
        | error e => exact finalizes_ret db₁ (.error e)
        | ok parentId =>
            refine finalizes_inodeOr fun db₂ parentNode _ _ => ?_
            by_cases hkind : parentNode.state.kind ≠ .dir
            · rw [if_pos hkind]
              exact finalizes_ret db₂ (.error _)
            rw [if_neg hkind]
            refine finalizes_getDentry fun db₃ dentry _ => ?_
            match dentry with
            | none => exact finalizes_ret db₃ (.error _)
            | some ⟨_, _, _, .indexNodeId dirId⟩ =>
                exact finalizes_finalizeInode parentId dirName (parentNode.rev.getD 0) dirId
            | some ⟨_, _, _, .symLink path⟩ => exact finalizes_ret db₃ (.error _)
            | some ⟨_, _, _, .tombstone⟩ => exact finalizes_ret db₃ (.error _)
            | some ⟨_, _, _, .objId objId⟩ =>
                by_cases hobj : (!objId.isDirObject) = true
                · dsimp only
                  rw [if_pos hobj]
                  exact finalizes_ret db₃ (.error _)
                · dsimp only
                  rw [if_neg hobj]
                  exact finalizes_ret db₃ (.ok true)

/-- The turns of `try_finalize_dir` and its result. -/
def Runs (others : FsMetaDb → FsMetaDb → Prop) (dirPath : String) (db : FsMetaDb)
    (turns : List FinalizeTurn) (result : RpcResult Bool) : Prop :=
  Dialogue.Runs execFinalize others db (FSMetaService.tryFinalizeDir true dirPath).run turns
    (some result)

/-- Where no directory has to be made, and others let what the directory holds stand while
its revision stands, finalizing it loses nothing. -/
theorem tryFinalizeDir_keeps {dirPath : String} {db : FsMetaDb} {turns : List FinalizeTurn}
    {result : RpcResult Bool} (h : Runs (Others links dirPath dir) dirPath db turns result)
    (hallowed : ∀ t ∈ turns, Allowed child links t) :
    Outcome child links dirPath dir turns result :=
  Dialogue.Runs.of_satisfies h (finalizes_tryFinalizeDir true dirPath db) hallowed

/-! ## A file that is opened again -/

/-- A finalized file. -/
def fileId : ObjId := ⟨"cyfile", List.replicate 32 0⟩

/-- The directory that is made of it. -/
def dirObjId : ObjId := ⟨"cydir", List.replicate 32 0⟩

/-- The directory object has the file. -/
def oneFile (base : List UInt8) (name : String) : Option ObjId :=
  if base = dirObjId.toBytes ∧ name = "f" then some fileId else none

/-- There are no links. -/
def noLinks : Links := fun _ _ _ => none

/-- A store that can make this directory. -/
def oneFileEnv : FinalizeEnv where
  turn := EntryPoint.plainEnv
  loadDir _ := .error "no base"
  saveDir _ children := if children = [("f", fileId)] then .ok dirObjId else .error "no space"
  enqueue _ := .ok ()

/-- The directory `/d` with the file `f`. -/
def finalizedFile : FsMetaDb :=
  (run MetaState.step (MetaState.init 0)
    [EntryPoint.newInode .dirNormal,
      .row false (.createDentry 0 1 "d" (.indexNodeId 2) 0),
      EntryPoint.newInode (.finalized fileId 0),
      .row false (.createDentry 0 2 "f" (.indexNodeId 3) 0)]).committed

/-- A client opens the file again. -/
def reopened (db : FsMetaDb) : FsMetaDb :=
  (db.execEntry EntryPoint.plainEnv (.openFileWriter 2 "f" .append none)).1

/-- The client does so before the transaction. -/
def reopen (c : FinalizeCall) (db : FsMetaDb) : FsMetaDb :=
  match c with
  | .commit _ => reopened db
  | _ => db

/-- The turns among others. -/
def finalizeSteps (meddle : FinalizeCall → FsMetaDb → FsMetaDb) (db : FsMetaDb) :
    List (FsMetaDb × FinalizeTurn) :=
  (Dialogue.among execFinalize meddle oneFileEnv db
    (FSMetaService.tryFinalizeDir true "/d").run).1

/-- The tables have the same rows. -/
def sameTables (db db' : FsMetaDb) : Bool :=
  db.nodes.rows = db'.nodes.rows && db.dentries.rows = db'.dentries.rows &&
    db.dentrySeq = db'.dentrySeq

theorem eq_of_sameTables {db db' : FsMetaDb} (h : sameTables db db' = true) : db = db' := by
  obtain ⟨⟨nodes, hnodes⟩, ⟨dentries, hdentries⟩, seq⟩ := db
  obtain ⟨⟨nodes', hnodes'⟩, ⟨dentries', hdentries'⟩, seq'⟩ := db'
  simp only [sameTables, Bool.and_eq_true, decide_eq_true_eq] at h
  obtain ⟨⟨rfl, rfl⟩, rfl⟩ := h
  rfl

theorem uniqueNames_finalizedFile : finalizedFile.UniqueNames := by
  unfold UniqueNames
  decide

theorem orderly_finalizedFile : Orderly finalizedFile finalizedFile :=
  ⟨EntryPoint.treeInv_of_run _, uniqueNames_finalizedFile, Counted.refl _⟩

/-- The store and the resolver of the example answer what is so. -/
theorem lawful_oneFileEnv (db : FsMetaDb) (c : FinalizeCall) :
    FinalizeTurn.Lawful oneFile noLinks ⟨db, oneFileEnv, c⟩ := by
  have hid : objIdFromBlob dirObjId.toBytes = .ok dirObjId := by decide +kernel
  refine ⟨fun base entries h => (nomatch h), fun name children objId h => ?_,
    fun path objId h => (nomatch h)⟩
  have hsave : (if children = [("f", fileId)] then .ok dirObjId else .error "no space" :
      RpcResult ObjId) = .ok objId := h
  split_ifs at hsave with hchildren
  obtain rfl := Except.ok.inj hsave
  refine ⟨hid, fun name => ?_⟩
  subst hchildren
  unfold oneFile
  by_cases hname : name = "f"
  · subst hname
    simp
  · rw [if_neg fun h => hname h.2]
    simp [List.lookup_cons, beq_eq_false_iff_ne.mpr hname]

/-- Every turn of the example is allowed. -/
theorem allowed_finalizeSteps {meddle : FinalizeCall → FsMetaDb → FsMetaDb} {db : FsMetaDb}
    (h : ((finalizeSteps meddle db).all fun step =>
      match step.2.question with
      | .entry (.serviceCreateDir _ _) => false
      | .entry (.serviceMaterializeDir _ _ _) => false
      | _ => true) = true) :
    ∀ t ∈ (finalizeSteps meddle db).map Prod.snd, Allowed oneFile noLinks t := by
  intro t ht
  obtain ⟨step, hstep, rfl⟩ := List.mem_map.mp ht
  have henv : step.2.env = oneFileEnv := Dialogue.env_of_among _ step hstep
  have hquestion := List.all_eq_true.mp h step hstep
  obtain ⟨before, server, env, question⟩ := step
  obtain rfl : env = oneFileEnv := henv
  refine ⟨lawful_oneFileEnv server question, ?_⟩
  unfold FinalizeTurn.MakesNoDir
  split <;> simp_all

/-- Others do nothing before a question, or open the file again. -/
theorem orderly_finalizeSteps (meddle : FinalizeCall → FsMetaDb → FsMetaDb)
    (h : ((finalizeSteps meddle finalizedFile).all fun step => sameTables step.1 finalizedFile &&
      (sameTables step.2.server finalizedFile ||
        sameTables step.2.server (reopened finalizedFile))) = true) :
    ∀ step ∈ finalizeSteps meddle finalizedFile, Orderly step.1 step.2.server := by
  intro step hstep
  have hsame := List.all_eq_true.mp h step hstep
  simp only [Bool.and_eq_true, Bool.or_eq_true] at hsame
  rw [eq_of_sameTables hsame.1]
  rcases hsame.2 with hserver | hserver
  · rw [eq_of_sameTables hserver]
    exact orderly_finalizedFile
  · rw [eq_of_sameTables hserver]
    exact orderly_execEntry _ _ orderly_finalizedFile.tree uniqueNames_finalizedFile

/-- A buffer of the inode is being written. -/
def isWorking (db : FsMetaDb) (id : IndexNodeId) : Bool :=
  match db.getInode id with
  | .ok (some node) =>
      match node.state with
      | .working _ _ => true
      | _ => false
  | _ => false

/-- A file that is opened again while its directory is finalized is removed: it was being
written, and the call returned `Ok(true)`. -/
theorem reopened_file_removed : ∃ turns,
    Runs Orderly "/d" finalizedFile turns (.ok true) ∧
    (∀ t ∈ turns, Allowed oneFile noLinks t) ∧
    ∃ t ∈ turns, isWorking t.server 3 = true ∧ t.after.nodes.find? 3 = none := by
  have hrun := Dialogue.runs_among (FSMetaService.tryFinalizeDir true "/d").run
    (orderly_finalizeSteps reopen (by decide +kernel))
  have hresult : (Dialogue.among execFinalize reopen oneFileEnv finalizedFile
      (FSMetaService.tryFinalizeDir true "/d").run).2 = .ok true := by decide +kernel
  rw [hresult] at hrun
  have hremoved : ((finalizeSteps reopen finalizedFile).any fun step =>
      isWorking step.2.server 3 && (step.2.after.nodes.find? 3).isNone) = true := by
    decide +kernel
  obtain ⟨step, hstep, hworking⟩ := List.any_eq_true.mp hremoved
  rw [Bool.and_eq_true, Option.isNone_iff_eq_none] at hworking
  exact ⟨_, hrun, allowed_finalizeSteps (by decide +kernel), step.2,
    List.mem_map_of_mem hstep, hworking⟩

/-! ## A file that nobody opens -/

/-- The same with another directory `/e` beside it. -/
def besideDir : FsMetaDb :=
  (run MetaState.step (MetaState.init 0)
    [EntryPoint.newInode .dirNormal,
      .row false (.createDentry 0 1 "d" (.indexNodeId 2) 0),
      EntryPoint.newInode (.finalized fileId 0),
      .row false (.createDentry 0 2 "f" (.indexNodeId 3) 0),
      EntryPoint.newInode .dirNormal,
      .row false (.createDentry 0 1 "e" (.indexNodeId 4) 1)]).committed

/-- A client makes a link in the other directory. -/
def linkedBeside (db : FsMetaDb) : FsMetaDb :=
  (db.execEntry EntryPoint.plainEnv (.client (.symlink 4 "z" "/y"))).1

/-- The client does so before the inode of the file is read. -/
def linkBeside (c : FinalizeCall) (db : FsMetaDb) : FsMetaDb :=
  match c with
  | .entry (.client (.getInode 3)) => linkedBeside db
  | _ => db

theorem orderly_besideDir : Orderly besideDir besideDir :=
  ⟨EntryPoint.treeInv_of_run _, by unfold UniqueNames; decide, Counted.refl _⟩

theorem orderly_linkedBeside : Orderly besideDir (linkedBeside besideDir) :=
  orderly_execEntry _ _ orderly_besideDir.tree orderly_besideDir.unique

/-- Only an inode of the table is a file. -/
theorem exists_row_of_fileObject {db : FsMetaDb} {id : IndexNodeId} {objId : ObjId}
    (h : db.fileObject id = some objId) : ∃ row ∈ db.nodes.rows, row.inodeId = id := by
  unfold fileObject getInode at h
  cases hfind : db.nodes.find? id with
  | none =>
      rw [hfind] at h
      cases h
  | some row => exact ⟨row, Table.find?_eq_some_iff.mp hfind⟩

/-- The link changes nothing that `/d` holds. -/
theorem others_linkedBeside : Others noLinks "/d" 2 besideDir (linkedBeside besideDir) := by
  have hbase : (linkedBeside besideDir).baseOf 2 = besideDir.baseOf 2 := by decide
  have hfiles : (besideDir.nodes.rows.all fun row =>
      (linkedBeside besideDir).fileObject row.inodeId = besideDir.fileObject row.inodeId) =
        true := by decide +kernel
  refine ⟨orderly_linkedBeside, fun n _ _ => ⟨hbase, ?_, fun _ _ _ => rfl⟩⟩
  intro name id objId _ hfile
  obtain ⟨row, hrow, rfl⟩ := exists_row_of_fileObject hfile
  rw [← hfile]
  exact of_decide_eq_true (List.all_eq_true.mp hfiles row hrow)

theorem others_of_orderly {db : FsMetaDb} (h : Orderly db db) : Others noLinks "/d" 2 db db :=
  ⟨h, fun _ _ _ => ⟨rfl, fun _ _ _ _ hfile => hfile, fun _ _ _ => rfl⟩⟩

/-- Before each question the tables are left as they are, or the link is made. -/
theorem others_finalizeSteps :
    ∀ step ∈ finalizeSteps linkBeside besideDir, Others noLinks "/d" 2 step.1 step.2.server := by
  have hsame : ((finalizeSteps linkBeside besideDir).all fun step =>
      sameTables step.1 besideDir && (sameTables step.2.server besideDir ||
          sameTables step.2.server (linkedBeside besideDir)) ||
        sameTables step.1 (linkedBeside besideDir) &&
          sameTables step.2.server (linkedBeside besideDir)) = true := by
    decide +kernel
  intro step hstep
  have hcases := List.all_eq_true.mp hsame step hstep
  simp only [Bool.or_eq_true, Bool.and_eq_true] at hcases
  rcases hcases with ⟨hbefore, hserver | hserver⟩ | ⟨hbefore, hserver⟩
  · rw [eq_of_sameTables hbefore, eq_of_sameTables hserver]
    exact others_of_orderly orderly_besideDir
  · rw [eq_of_sameTables hbefore, eq_of_sameTables hserver]
    exact others_linkedBeside
  · rw [eq_of_sameTables hbefore, eq_of_sameTables hserver]
    exact others_of_orderly ⟨orderly_linkedBeside.tree, orderly_linkedBeside.unique,
      Counted.refl _⟩

/-- The directory is finalized and shows the same, though a client makes a link in another
directory meanwhile. -/
theorem finalizedFile_shown :
    ((finalizeSteps linkBeside besideDir).any fun step =>
      sameTables step.1 besideDir && sameTables step.2.server (linkedBeside besideDir)) = true ∧
    Outcome oneFile noLinks "/d" 2 ((finalizeSteps linkBeside besideDir).map Prod.snd)
      (.ok true) := by
  have hrun := Dialogue.runs_among (FSMetaService.tryFinalizeDir true "/d").run
    others_finalizeSteps
  have hresult : (Dialogue.among execFinalize linkBeside oneFileEnv besideDir
      (FSMetaService.tryFinalizeDir true "/d").run).2 = .ok true := by decide +kernel
  rw [hresult] at hrun
  exact ⟨by decide +kernel, tryFinalizeDir_keeps hrun (allowed_finalizeSteps (by decide +kernel))⟩

end FinalizeDir

end FsMeta
end CyfsNdn

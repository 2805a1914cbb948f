import CyfsNdn.Collections.BTreeMap
import CyfsNdn.FsMeta.FinalizeDir
import CyfsNdn.FsMeta.ResolvePath
import CyfsNdn.NamedStore.ResolveNextObj
import CyfsNdn.NdnLib.SampleWeb

/-!
# Listing a directory

`handle_start_list`: the children of the base directory object, and over them the dentries
of the directory, of which a tombstone takes a child of the base away.  A path is resolved
name by name in the same tables but by other code, `get_dir_child` and the dentry of the
name; `listing_agrees` says that a listing has exactly the names that this finds, with the
same targets.
-/

namespace CyfsNdn

open NdnLib Relational Collections

/-- The named store as directories are read from it. -/
structure DirStore where
  crates : NamedStore.ResolveCrates
  getObject : ObjId → NdnResult String
  putObject : ObjId → String → NdnResult Unit

namespace DirStore

variable (store : DirStore)

/-- The id of a child; its text is put on its own when it is embedded. -/
def childObjId (item : SimpleMapItem) : NdnResult ObjId :=
  match item.getObjId store.crates.toCrates with
  | .error e => .error e
  | .ok (objId, objStr) =>
      if objStr = "" then .ok objId
      else
        match store.putObject objId objStr with
        | .error e => .error e
        | .ok () => .ok objId

/-- `get_dir_child` of the named store manager. -/
def getDirChild (dirObjId : ObjId) (itemName : String) : NdnResult ObjId :=
  if !dirObjId.isDirObject then .error (.invalidObjType "must be dirobject")
  else
    match store.getObject dirObjId with
    | .error e => .error e
    | .ok dirObjStr =>
        match NamedStore.NamedDataMgr.loadDirObject store.crates dirObjStr with
        | .error e => .error e
        | .ok dirObj =>
            match dirObj.objectMap.entries.lookup itemName with
            | none =>
                .error (.notFound ("child " ++ itemName ++ " not found in dir " ++
                  dirObjId.toBase32 store.crates.toWebCrates))
            | some item => store.childObjId item

end DirStore

namespace FsMeta

/-- `FsMetaListEntry`. -/
structure FsMetaListEntry where
  name : String
  target : DentryTarget
  inode : Option NodeRecord

/-- A child of the base as `load_base_dir_children` reads it. -/
def baseChild (store : DirStore) (e : String × SimpleMapItem) : RpcResult (String × ObjId) :=
  match e.2.getObjId store.crates.toCrates with
  | .error err => .error ("invalid base child entry: " ++ err.display)
  | .ok (objId, objStr) =>
      if objStr = "" then .ok (e.1, objId)
      else
        match store.putObject objId objStr with
        | .error err => .error ("failed to cache embedded child object: " ++ err.display)
        | .ok () => .ok (e.1, objId)

/-- `load_base_dir_children`. -/
def loadBaseDirChildren (store : Option DirStore) (dirNode : NodeRecord) :
    RpcResult (BTreeMap String ObjId) :=
  match dirNode.baseObjId with
  | none => .ok .empty
  | some baseObjId =>
      if !baseObjId.isDirObject then
        .error ("invalid base_obj_id type for directory inode: " ++ baseObjId.objType)
      else
        match store with
        | none => .error "named store manager not configured for DirObject traversal"
        | some store =>
            match store.getObject baseObjId with
            | .error e => .error ("failed to load base DirObject: " ++ e.display)
            | .ok baseObjStr =>
                match NamedStore.NamedDataMgr.loadDirObject store.crates baseObjStr with
                | .error e => .error ("failed to parse base DirObject: " ++ e.display)
                | .ok baseDir => do
                    let children ← baseDir.objectMap.entries.mapM (baseChild store)
                    return BTreeMap.empty.extend children

/-- A dentry over what is there: a tombstone takes it away. -/
def mergeDentry (merged : BTreeMap String DentryRecord) (d : DentryRecord) :
    BTreeMap String DentryRecord :=
  match d.target with
  | .tombstone => merged.remove d.name
  | _ => merged.insert d.name d

/-- A child of the base as a dentry. -/
def baseDentry (parent : IndexNodeId) (child : String × ObjId) : String × DentryRecord :=
  (child.1, ⟨0, parent, child.1, .objId child.2⟩)

/-- The base under the dentries. -/
def baseMap (parent : IndexNodeId) (base : BTreeMap String ObjId) : BTreeMap String DentryRecord :=
  BTreeMap.empty.extend (base.entries.map (baseDentry parent))

namespace FsMetaDb

/-- `list_merged_dentries`. -/
def listMergedDentries (db : FsMetaDb) (store : Option DirStore) (parent : IndexNodeId) :
    RpcResult (List DentryRecord) := do
  let parentNode ← db.getInodeOr parent "parent inode not found"
  if parentNode.state.kind ≠ .dir then throw "parent is not a directory"
  let base ← loadBaseDirChildren store parentNode
  let dentries ← db.listDentries parent
  return ((dentries.foldl mergeDentry (baseMap parent base)).entries.map Prod.snd)

/-- The entry of a dentry, with its inode. -/
def listEntry (db : FsMetaDb) (dentry : DentryRecord) : RpcResult (String × FsMetaListEntry) :=
  match dentry.target with
  | .indexNodeId id => do
      let inode ← db.getInode id
      return (dentry.name, ⟨dentry.name, dentry.target, inode⟩)
  | _ => .ok (dentry.name, ⟨dentry.name, dentry.target, none⟩)

/-- The entries of the session that `handle_start_list` starts. -/
def startListEntries (db : FsMetaDb) (store : Option DirStore) (parent : IndexNodeId) :
    RpcResult (BTreeMap String FsMetaListEntry) := do
  let dentries ← db.listMergedDentries store parent
  let entries ← dentries.mapM db.listEntry
  return BTreeMap.empty.extend entries

end FsMetaDb

/-! ## The children of the base -/

section Base

variable {store : DirStore}

/-- A child is listed with the id that `get_dir_child` gives it. -/
theorem baseChild_eq_ok {e : String × SimpleMapItem} {child : String × ObjId}
    (h : baseChild store e = .ok child) : child.1 = e.1 ∧ store.childObjId e.2 = .ok child.2 := by
  unfold baseChild at h
  unfold DirStore.childObjId
  split at h
  · cases h
  · split at h
    · rename_i hempty
      cases h
      exact ⟨rfl, if_pos hempty⟩
    · rename_i hempty
      rw [if_neg hempty]
      split at h
      · cases h
      · cases h
        exact ⟨rfl, rfl⟩

/-- When all children are read, each name of the directory has its child. -/
theorem lookup_children {entries : List (String × SimpleMapItem)}
    {children : List (String × ObjId)} (h : entries.mapM (baseChild store) = .ok children)
    (name : String) :
    children.map Prod.fst = entries.map Prod.fst ∧
      (entries.lookup name = none → children.lookup name = none) ∧
      ∀ item, entries.lookup name = some item → ∃ objId, store.childObjId item = .ok objId ∧
        children.lookup name = some objId := by
  have hall := mapM_eq_ok_iff_forall₂.mp h
  clear h
  induction hall with
  | nil => exact ⟨rfl, fun _ => rfl, nofun⟩
  | @cons e child entries children hhead htail ih =>
      obtain ⟨hname, hchild⟩ := baseChild_eq_ok hhead
      refine ⟨by rw [List.map_cons, List.map_cons, hname, ih.1], ?_⟩
      obtain ⟨key, item⟩ := e
      obtain ⟨key', objId⟩ := child
      obtain rfl : key' = key := hname
      rw [List.lookup_cons, List.lookup_cons]
      by_cases hkey : name = key'
      · have hbeq : (name == key') = true := by simpa using hkey
        rw [hbeq]
        refine ⟨nofun, fun item' hitem => ?_⟩
        obtain rfl := Option.some.inj hitem
        exact ⟨objId, hchild, rfl⟩
      · have hbeq : (name == key') = false := by simpa using hkey
        rw [hbeq]
        exact ih.2

/-- A name of a directory that can be read. -/
theorem getDirChild_of_loaded {dirObjId : ObjId} {dirObjStr : String}
    {dirObj : DirObject store.crates.dids} (hdir : ¬ (!dirObjId.isDirObject) = true)
    (hget : store.getObject dirObjId = .ok dirObjStr)
    (hload : NamedStore.NamedDataMgr.loadDirObject store.crates dirObjStr = .ok dirObj)
    (name : String) :
    store.getDirChild dirObjId name =
      (dirObj.objectMap.entries.lookup name).elim
        (.error (.notFound ("child " ++ name ++ " not found in dir " ++
          dirObjId.toBase32 store.crates.toWebCrates)))
        store.childObjId := by
  unfold DirStore.getDirChild
  rw [if_neg hdir, hget]
  dsimp only
  rw [hload]
  dsimp only
  cases dirObj.objectMap.entries.lookup name <;> rfl

/-- What the look-up of a name in the base finds, in the words of the listing. -/
def foundInBase : Option ObjId → BaseChildLookup
  | none => .missing
  | some objId => if objId.isDirObject then .dirObj objId else .nonDirObj objId

/-- The children that are listed are the ones that are looked up. -/
theorem lookupBase_of_loadBase {store : Option DirStore} {env : ServiceEnv}
    (henv : env.storeMgr = store.map DirStore.getDirChild) {dirNode : NodeRecord}
    {base : BTreeMap String ObjId} (h : loadBaseDirChildren store dirNode = .ok base)
    (name : String) :
    lookupBaseDirobjChild env dirNode name = .ok (foundInBase (base.get? name)) := by
  unfold loadBaseDirChildren at h
  unfold lookupBaseDirobjChild
  cases hbase : dirNode.baseObjId with
  | none =>
      rw [hbase] at h
      cases h
      rfl
  | some baseObjId =>
      rw [hbase] at h
      dsimp only at h ⊢
      split at h
      · cases h
      · rename_i hdir
        rw [if_neg hdir]
        cases store with
        | none => cases h
        | some store =>
            rw [henv, Option.map_some]
            dsimp only at h ⊢
            cases hget : store.getObject baseObjId with
            | error e =>
                rw [hget] at h
                cases h
            | ok baseObjStr =>
                rw [hget] at h
                dsimp only at h
                cases hload : NamedStore.NamedDataMgr.loadDirObject store.crates baseObjStr with
                | error e =>
                    rw [hload] at h
                    cases h
                | ok baseDir =>
                    rw [hload] at h
                    obtain ⟨children, hchildren, hbaseMap⟩ := except_bind_eq_ok.mp h
                    obtain rfl := except_pure_eq_ok.mp hbaseMap
                    obtain ⟨hkeys, hnone, hsome⟩ := lookup_children hchildren name
                    have hnodup : (children.map Prod.fst).Nodup := hkeys ▸ baseDir.objectMap.nodup
                    have hlisted : (BTreeMap.empty.extend children).get? name =
                        children.lookup name := by
                      rw [BTreeMap.get?_extend hnodup, BTreeMap.get?_empty, Option.or_none]
                    rw [hlisted, getDirChild_of_loaded hdir hget hload name]
                    cases hlookup : baseDir.objectMap.entries.lookup name with
                    | none =>
                        rw [hnone hlookup]
                        rfl
                    | some item =>
                        obtain ⟨objId, hitem, hfound⟩ := hsome item hlookup
                        rw [Option.elim_some, hitem, hfound]
                        dsimp only [foundInBase]
                        split <;> rfl

end Base

/-! ## The dentries over the base -/

section Merge

variable {db : FsMetaDb}

/-- What a name has after a dentry of it: the dentry, unless it is a tombstone. -/
def visibleDentry (d : DentryRecord) : Option DentryRecord :=
  if d.target = .tombstone then none else some d

theorem get?_mergeDentry (merged : BTreeMap String DentryRecord) (d : DentryRecord)
    (name : String) :
    (mergeDentry merged d).get? name =
      if name = d.name then visibleDentry d else merged.get? name := by
  unfold mergeDentry visibleDentry
  split
  · rename_i htarget
    rw [BTreeMap.get?_remove, if_pos htarget]
  · rename_i htarget
    rw [BTreeMap.get?_insert, if_neg htarget]

/-- A name without a dentry keeps what it had. -/
theorem get?_foldl_mergeDentry_of_forall {dentries : List DentryRecord}
    {merged : BTreeMap String DentryRecord} {name : String}
    (h : ∀ d ∈ dentries, d.name ≠ name) :
    (dentries.foldl mergeDentry merged).get? name = merged.get? name := by
  induction dentries generalizing merged with
  | nil => rfl
  | cons d dentries ih =>
      rw [List.foldl_cons, ih fun d' hd' => h d' (List.mem_cons_of_mem _ hd'),
        get?_mergeDentry, if_neg (Ne.symm (h d List.mem_cons_self))]

/-- A name with a dentry has what the dentry says. -/
theorem get?_foldl_mergeDentry_of_mem {dentries : List DentryRecord}
    {merged : BTreeMap String DentryRecord} (hnodup : (dentries.map DentryRecord.name).Nodup)
    {d : DentryRecord} (hd : d ∈ dentries) :
    (dentries.foldl mergeDentry merged).get? d.name = visibleDentry d := by
  induction dentries generalizing merged with
  | nil => cases hd
  | cons first dentries ih =>
      rw [List.map_cons, List.nodup_cons] at hnodup
      rw [List.foldl_cons]
      rcases List.mem_cons.mp hd with rfl | hd
      · have hother : ∀ d' ∈ dentries, d'.name ≠ d.name :=
          fun d' hd' hname => hnodup.1 (hname ▸ List.mem_map_of_mem hd')
        rw [get?_foldl_mergeDentry_of_forall hother, get?_mergeDentry, if_pos rfl]
      · exact ih hnodup.2 hd

/-- The name of each entry is its key. -/
def Named (merged : BTreeMap String DentryRecord) : Prop :=
  ∀ name d, merged.get? name = some d → d.name = name

theorem named_foldl_mergeDentry {dentries : List DentryRecord}
    {merged : BTreeMap String DentryRecord} (h : Named merged) :
    Named (dentries.foldl mergeDentry merged) := by
  induction dentries generalizing merged with
  | nil => exact h
  | cons first dentries ih =>
      apply ih
      intro name d hd
      rw [get?_mergeDentry] at hd
      split at hd
      · rename_i hname
        unfold visibleDentry at hd
        split at hd
        · cases hd
        · cases hd
          exact hname.symm
      · exact h name d hd

theorem lookup_map_baseDentry (parent : IndexNodeId) (children : List (String × ObjId))
    (name : String) :
    (children.map (baseDentry parent)).lookup name =
      (children.lookup name).map fun objId => ⟨0, parent, name, .objId objId⟩ := by
  induction children with
  | nil => rfl
  | cons child children ih =>
      obtain ⟨key, objId⟩ := child
      show List.lookup name ((key, _) :: _) = _
      rw [List.lookup_cons, List.lookup_cons]
      by_cases hkey : name = key
      · subst hkey
        simp
      · have hbeq : (name == key) = false := by simpa using hkey
        rw [hbeq]
        exact ih

theorem get?_baseMap (parent : IndexNodeId) (base : BTreeMap String ObjId) (name : String) :
    (baseMap parent base).get? name =
      (base.get? name).map fun objId => ⟨0, parent, name, .objId objId⟩ := by
  have hnodup : ((base.entries.map (baseDentry parent)).map Prod.fst).Nodup := by
    rw [List.map_map]
    exact base.sorted.nodup
  unfold baseMap
  rw [BTreeMap.get?_extend hnodup, BTreeMap.get?_empty, Option.or_none, lookup_map_baseDentry]
  rfl

/-- What the listing has for a name: the dentry of the name, or the child of the base. -/
theorem get?_merged (hunique : db.UniqueNames) {parent : IndexNodeId}
    {dentries : List DentryRecord} (hlist : db.listDentries parent = .ok dentries)
    (base : BTreeMap String ObjId) (name : String) :
    ∃ dentry, db.getDentry parent name = .ok dentry ∧
      (dentries.foldl mergeDentry (baseMap parent base)).get? name =
        dentry.elim ((baseMap parent base).get? name) visibleDentry := by
  have hnodup := (FsMetaDb.lists_of_listDentries hlist hunique).nodup
  have hrows := mapM_eq_ok_iff_forall₂.mp hlist
  have hname : ∀ row d, parseDentry row = .ok d → d.name = row.name := by
    intro row d hparse
    obtain ⟨target, -, rfl⟩ := except_map_eq_ok.mp hparse
    rfl
  unfold FsMetaDb.getDentry
  cases hat : db.dentryAt parent name with
  | none =>
      refine ⟨none, rfl, get?_foldl_mergeDentry_of_forall ?_⟩
      intro d hd hsame
      obtain ⟨row, hrow, hparse⟩ := exists_left_of_forall₂ hrows hd
      obtain ⟨hmem, hparent⟩ := List.mem_filter.mp hrow
      have hno := List.find?_eq_none.mp hat row hmem
      have hrowName : row.name = name := (hname row d hparse).symm.trans hsame
      have hrowParent : row.parentInodeId = parent := by simpa using hparent
      simp [hrowName, hrowParent] at hno
  | some row =>
      have hprop := List.find?_some hat
      simp only [Bool.and_eq_true, decide_eq_true_eq] at hprop
      have hmem : row ∈ db.dentries.rows.filter fun row => row.parentInodeId = parent :=
        List.mem_filter.mpr ⟨List.mem_of_find?_eq_some hat, by simpa using hprop.1⟩
      obtain ⟨d, hd, hparse⟩ := exists_right_of_forall₂ hrows hmem
      refine ⟨some d, congrArg (Except.map some) hparse, ?_⟩
      have hdName : d.name = name := (hname row d hparse).trans hprop.2
      rw [← hdName, get?_foldl_mergeDentry_of_mem hnodup hd]
      rfl

end Merge

/-! ## Listings and look-ups -/

section Listing

variable {db : FsMetaDb} {env : ServiceEnv} {store : Option DirStore}

theorem getInode_of_getInodeOr {id : IndexNodeId} {missing : String} {node : NodeRecord}
    (h : db.getInodeOr id missing = .ok node) : db.getInode id = .ok (some node) := by
  obtain ⟨found, hfound, h⟩ := except_bind_eq_ok.mp h
  cases found with
  | none => cases h
  | some node' =>
      cases h
      exact hfound

theorem named_baseMap (parent : IndexNodeId) (base : BTreeMap String ObjId) :
    Named (baseMap parent base) := by
  intro name d hd
  rw [get?_baseMap] at hd
  obtain ⟨objId, -, rfl⟩ := Option.map_eq_some_iff.mp hd
  rfl

/-- The entry of a dentry has its name and its target, and the inode that the target names. -/
theorem listEntry_eq_ok {dentry : DentryRecord} {e : String × FsMetaListEntry}
    (h : db.listEntry dentry = .ok e) :
    e.1 = dentry.name ∧ e.2.name = dentry.name ∧ e.2.target = dentry.target ∧
      ∀ id, dentry.target = .indexNodeId id → db.getInode id = .ok e.2.inode := by
  unfold FsMetaDb.listEntry at h
  split at h
  · rename_i id htarget
    obtain ⟨inode, hinode, hret⟩ := except_bind_eq_ok.mp h
    obtain rfl := except_pure_eq_ok.mp hret
    refine ⟨rfl, rfl, rfl, fun id' hid => ?_⟩
    cases htarget.symm.trans hid
    exact hinode
  · rename_i hother
    cases h
    exact ⟨rfl, rfl, rfl, fun id hid => absurd hid (hother id)⟩

/-- The entries of a session: one for each name that is listed, of its dentry. -/
theorem get?_entries {merged : BTreeMap String DentryRecord} (hnamed : Named merged)
    {entries : List (String × FsMetaListEntry)}
    (h : (merged.entries.map Prod.snd).mapM db.listEntry = .ok entries) (name : String) :
    (merged.get? name = none → (BTreeMap.empty.extend entries).get? name = none) ∧
      ∀ d, merged.get? name = some d → ∃ entry,
        (BTreeMap.empty.extend entries).get? name = some entry ∧
          db.listEntry d = .ok (name, entry) := by
  have hall := mapM_eq_ok_iff_forall₂.mp h
  have hnames : entries.map Prod.fst = merged.entries.map Prod.fst := by
    have hkeys : (merged.entries.map Prod.snd).map DentryRecord.name =
        merged.entries.map Prod.fst := by
      rw [List.map_map]
      apply List.map_congr_left
      intro e he
      exact hnamed e.1 e.2 (BTreeMap.get?_eq_some_iff.mpr he)
    rw [← hkeys]
    clear h hkeys
    generalize merged.entries.map Prod.snd = records at hall
    induction hall with
    | nil => rfl
    | cons hhead _ ih => rw [List.map_cons, List.map_cons, (listEntry_eq_ok hhead).1, ih]
  have hnodup : (entries.map Prod.fst).Nodup := hnames ▸ merged.sorted.nodup
  rw [BTreeMap.get?_extend hnodup, BTreeMap.get?_empty, Option.or_none]
  constructor
  · intro hnone
    rw [List.lookup_eq_none_iff]
    intro e he
    have hne : name ≠ e.1 := by
      rintro rfl
      have hmem : e.1 ∈ merged.entries.map Prod.fst := hnames ▸ List.mem_map_of_mem he
      obtain ⟨⟨key, d⟩, hd, hkey⟩ := List.mem_map.mp hmem
      have hkey : key = e.1 := hkey
      rw [BTreeMap.get?_eq_some_iff.mpr (hkey ▸ hd)] at hnone
      cases hnone
    simpa using hne
  · intro d hd
    have hmem := BTreeMap.get?_eq_some_iff.mp hd
    obtain ⟨e, he, hentry⟩ := exists_right_of_forall₂ hall (List.mem_map_of_mem hmem)
    obtain ⟨hkey, -⟩ := listEntry_eq_ok hentry
    have hname : e.1 = name := hkey.trans (hnamed name d hd)
    refine ⟨e.2, (lookup_eq_some_iff_mem hnodup).mpr (hname ▸ he), ?_⟩
    rw [← hname]
    exact hentry

/-- The target of a name that is seen: a tombstone is not. -/
def seen (target : Option DentryTarget) : Option DentryTarget :=
  target.filter fun target => target ≠ .tombstone

/-- The walk finds the dentry of a name, and without one the child of the base. -/
theorem childTarget_of_reads {parent : IndexNodeId} {parentNode : NodeRecord}
    (hparent : db.getInode parent = .ok (some parentNode)) (hdir : ¬ parentNode.state.kind ≠ .dir)
    {name : String} {child : Option ObjId}
    (hbase : lookupBaseDirobjChild env parentNode name = .ok (foundInBase child))
    {dentry : Option DentryRecord} (hdentry : db.getDentry parent name = .ok dentry) :
    (Resolver.childTarget parent name).runPlain db env =
      .ok (dentry.elim (child.map .objId) fun d => some d.target) := by
  unfold Resolver.childTarget
  simp only [ResolveProg.runPlain_bind, ResolveProg.runPlain_ask, FsMetaDb.resolveReply, hdentry]
  cases dentry with
  | some d => rfl
  | none =>
      dsimp only
      unfold Resolver.baseTarget
      simp only [ResolveProg.runPlain_bind, ResolveProg.runPlain_ask, FsMetaDb.resolveReply,
        hparent, if_neg hdir, hbase]
      cases child with
      | none => rfl
      | some objId =>
          dsimp only [foundInBase]
          split_ifs <;> rfl

/-- What the walk sees is what the listing has. -/
theorem seen_of_merged (parent : IndexNodeId) (name : String) (dentry : Option DentryRecord)
    (child : Option ObjId) :
    seen (dentry.elim (child.map .objId) fun d => some d.target) =
      (dentry.elim (child.map fun objId => ⟨0, parent, name, .objId objId⟩)
        visibleDentry).map DentryRecord.target := by
  cases dentry with
  | none => cases child <;> rfl
  | some d =>
      by_cases htombstone : d.target = .tombstone
      · simp [seen, visibleDentry, htombstone]
      · simp [seen, visibleDentry, htombstone]

/-- How an entry of a session and the target that a path finds for its name are related. -/
structure EntryShows (db : FsMetaDb) (name : String) (target : Option DentryTarget)
    (entry : Option FsMetaListEntry) : Prop where
  target_eq : seen target = entry.map FsMetaListEntry.target
  name_eq : ∀ e ∈ entry, e.name = name
  inode_eq : ∀ e ∈ entry, ∀ id, e.target = .indexNodeId id → db.getInode id = .ok e.inode

/-- The entry of a name whose dentry and child of the base are known. -/
theorem shown_of_get?_merged {parent : IndexNodeId} {base : BTreeMap String ObjId} {name : String}
    {dentry : Option DentryRecord} {merged : BTreeMap String DentryRecord}
    (hget : merged.get? name = dentry.elim ((baseMap parent base).get? name) visibleDentry)
    (hnamed : Named merged) {entries : List (String × FsMetaListEntry)}
    (hentries : (merged.entries.map Prod.snd).mapM db.listEntry = .ok entries) :
    EntryShows db name (dentry.elim ((base.get? name).map .objId) fun d => some d.target)
      ((BTreeMap.empty.extend entries).get? name) := by
  obtain ⟨hnone, hsome⟩ := get?_entries hnamed hentries name
  have hseen := seen_of_merged parent name dentry (base.get? name)
  rw [← get?_baseMap parent base name, ← hget] at hseen
  cases hfound : merged.get? name with
  | none =>
      rw [hfound] at hseen
      rw [hnone hfound]
      exact ⟨hseen, fun e he => absurd he (Option.not_mem_none e),
        fun e he => absurd he (Option.not_mem_none e)⟩
  | some d =>
      obtain ⟨entry, hentry, hread⟩ := hsome d hfound
      obtain ⟨hkey, hname, htarget, hinode⟩ := listEntry_eq_ok hread
      rw [hfound, Option.map_some, ← htarget] at hseen
      rw [hentry]
      refine ⟨hseen, fun e he => ?_, fun e he id hid => ?_⟩
      · cases Option.mem_def.mp he
        exact hname.trans hkey.symm
      · cases Option.mem_def.mp he
        exact hinode id (htarget ▸ hid)

/-- What a session says of a name: the directory and its base could be read, the walk finds a
target, and the entry shows it.  Only a name that is not in the base has no target. -/
theorem shown_of_startListEntries {parent : IndexNodeId}
    {entries : BTreeMap String FsMetaListEntry} (hunique : db.UniqueNames)
    (henv : env.storeMgr = store.map DirStore.getDirChild)
    (hlist : db.startListEntries store parent = .ok entries) (name : String) :
    ∃ parentNode base target, db.getInode parent = .ok (some parentNode) ∧
      loadBaseDirChildren store parentNode = .ok base ∧
      (Resolver.childTarget parent name).runPlain db env = .ok target ∧
      (target = none → base.get? name = none) ∧ EntryShows db name target (entries.get? name) := by
  obtain ⟨records, hmerged, hlist⟩ := except_bind_eq_ok.mp hlist
  obtain ⟨listed, hlisted, hentries⟩ := except_bind_eq_ok.mp hlist
  obtain rfl := except_pure_eq_ok.mp hentries
  unfold FsMetaDb.listMergedDentries at hmerged
  obtain ⟨parentNode, hparent, hmerged⟩ := except_bind_eq_ok.mp hmerged
  simp only [guard_eq_ok] at hmerged
  obtain ⟨hdir, hmerged⟩ := hmerged
  obtain ⟨base, hbase, hmerged⟩ := except_bind_eq_ok.mp hmerged
  obtain ⟨dentries, hdentries, hmerged⟩ := except_bind_eq_ok.mp hmerged
  obtain rfl := except_pure_eq_ok.mp hmerged
  obtain ⟨dentry, hdentry, hget⟩ := get?_merged hunique hdentries base name
  have hnode := getInode_of_getInodeOr hparent
  refine ⟨parentNode, base, _, hnode, hbase,
    childTarget_of_reads hnode hdir (lookupBase_of_loadBase henv hbase name) hdentry, ?_,
    shown_of_get?_merged hget (named_foldl_mergeDentry (named_baseMap parent base)) hlisted⟩
  cases dentry with
  | none =>
      intro hnone
      simpa using hnone
  | some d =>
      intro hnone
      cases hnone

/-- A session of a directory has exactly the names that a path finds there, with the targets
that it finds, and the inode of each target that is one. -/
theorem listing_agrees (db : FsMetaDb) (env : ServiceEnv) (store : Option DirStore)
    (parent : IndexNodeId) (entries : BTreeMap String FsMetaListEntry)
    (hunique : db.UniqueNames) (henv : env.storeMgr = store.map DirStore.getDirChild)
    (hlist : db.startListEntries store parent = .ok entries) (name : String) :
    ∃ target, (Resolver.childTarget parent name).runPlain db env = .ok target ∧
      seen target = (entries.get? name).map FsMetaListEntry.target ∧
      ∀ entry ∈ entries.get? name, entry.name = name ∧
        ∀ id, entry.target = .indexNodeId id → db.getInode id = .ok entry.inode := by
  obtain ⟨_, _, target, -, -, htarget, -, hshown⟩ :=
    shown_of_startListEntries hunique henv hlist name
  exact ⟨target, htarget, hshown.target_eq,
    fun entry hentry => ⟨hshown.name_eq entry hentry, hshown.inode_eq entry hentry⟩⟩

/-! ## A directory with a base -/

/-- The text of a directory object with two children. -/
def baseText : String :=
  "\x7b\"body\":\x7b\"a\":\"pkg:0a\",\"b\":\"pkg:0b\"\x7d,\"create_time\":0,\"file_count\":2,"
    ++ "\"file_size\":0,\"last_update_time\":0,\"total_size\":0\x7d"

/-- Its value. -/
def baseValue : Json :=
  .object [("body", .object [("a", .string "pkg:0a"), ("b", .string "pkg:0b")]),
    ("create_time", .number (.natural 0)), ("file_count", .number (.natural 2)),
    ("file_size", .number (.natural 0)), ("last_update_time", .number (.natural 0)),
    ("total_size", .number (.natural 0))]

/-- A store that holds the directory object. -/
def baseStore : DirStore where
  crates := {
    toWebCrates := { sampleWeb with
      jsonValue := some
      jsonParse := fun text => if text = baseText then some baseValue else none }
    dids := ⟨Unit, fun _ => "", fun _ => none, (), fun _ => false⟩
    getByJsonPath := fun _ _ => none }
  getObject := fun objId =>
    if objId = ⟨"cydir", [1]⟩ then .ok baseText else .error (.notFound "object not found")
  putObject := fun _ _ => .ok ()

/-- The service with this store. -/
def baseEnv : ServiceEnv := { ServiceEnv.standalone 0 with storeMgr := some baseStore.getDirChild }

/-- The root is over the directory object; one of its children is deleted, and a link is new. -/
def baseDb : FsMetaDb where
  nodes := Table.empty.insertOrReplace
    { rootRow 0 with baseObjId := some (ObjId.toBytes ⟨"cydir", [1]⟩) }
  dentries := (Table.empty.insertOrReplace
    ⟨1, 1, "a", dentryTargetCols .tombstone, some 0⟩).insertOrReplace
    ⟨2, 1, "c", dentryTargetCols (.symLink "/x"), some 0⟩
  dentrySeq := 2

theorem uniqueNames_baseDb : baseDb.UniqueNames := by
  unfold FsMetaDb.UniqueNames
  decide

/-- The listing and the paths of this directory agree on each name. -/
theorem baseDb_listing_agrees :
    ∃ entries, baseDb.startListEntries (some baseStore) 1 = .ok entries ∧
      ∀ name, ∃ target, (Resolver.childTarget 1 name).runPlain baseDb baseEnv = .ok target ∧
        seen target = (entries.get? name).map FsMetaListEntry.target := by
  have hok : (baseDb.startListEntries (some baseStore) 1).isOk = true := by decide +kernel
  cases hlist : baseDb.startListEntries (some baseStore) 1 with
  | error e =>
      rw [hlist] at hok
      cases hok
  | ok entries =>
      refine ⟨entries, rfl, fun name => ?_⟩
      obtain ⟨target, htarget, hseen, -⟩ := listing_agrees baseDb baseEnv (some baseStore) 1
        entries uniqueNames_baseDb rfl hlist name
      exact ⟨target, htarget, hseen⟩

end Listing

end FsMeta
end CyfsNdn

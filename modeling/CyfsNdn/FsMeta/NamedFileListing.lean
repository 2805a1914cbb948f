import CyfsNdn.FsMeta.ListDir

/-!
# The listing of the file manager

`NamedFileMgr::start_list` takes the entries of a session of the metadata service, where
the base directory is already under the dentries, and puts the children of the base under
them once more.  The service leaves out the names that a tombstone takes away, so that
nothing tells the file manager of them: `listed_iff` says which names it lists.
-/

namespace CyfsNdn
namespace FsMeta

open NdnLib Relational Collections

/-- `PathKind`. -/
inductive PathKind where
  | file
  | dir
  | object
  | symLink
  | notFound
  deriving DecidableEq

/-- `PathStat`. -/
structure PathStat where
  kind : PathKind
  size : Option UInt64
  objId : Option ObjId
  objInnerPath : Option String
  inodeId : Option IndexNodeId
  state : Option NodeState

namespace NamedFileMgr

variable (store : DirStore)

/-- `load_dir_object`. -/
def loadDirObject (objId : ObjId) : NdnResult (DirObject store.crates.dids) :=
  if !objId.isDirObject then .error (.invalidObjType "must be dirobject")
  else
    match store.getObject objId with
    | .error e => .error e
    | .ok objStr => NamedStore.NamedDataMgr.loadDirObject store.crates objStr

/-- `load_file_object`. -/
def loadFileObject (objId : ObjId) : NdnResult FileObject :=
  if !objId.isFileObject then .error (.invalidObjType "must be fileobject")
  else
    match store.getObject objId with
    | .error e => .error e
    | .ok objStr =>
        loadNamedObj store.crates.toCrates
          (fun text => (store.crates.jsonParse text).bind store.crates.fileObject) objStr

/-- `obj_size_from_obj_id`. -/
def objSizeFromObjId (objId : ObjId) : Option UInt64 :=
  if objId.isDirObject then (loadDirObject store objId).toOption.map DirObject.totalSize
  else if objId.isFileObject then
    (loadFileObject store objId).toOption.map fun file => UInt64.ofNat file.size
  else none

/-- The kind of an object: what is no directory is a file. -/
def kindFromObjId (objId : ObjId) : PathKind := if objId.isDirObject then .dir else .file

/-- `path_stat_from_obj_id`. -/
def pathStatFromObjId (objId : ObjId) : PathStat :=
  ⟨kindFromObjId objId, objSizeFromObjId store objId, some objId, none, none, none⟩

/-- The size of an object that is embedded as a value. -/
def embeddedSize (objType : String) (value : Option Json) : NdnResult (Option UInt64) :=
  if objType = "cyfile" then
    match value.bind store.crates.fileObject with
    | none => .error (.internal "failed to parse FileObject: ")
    | some file => .ok (some (UInt64.ofNat file.size))
  else if objType = "cydir" then
    match value.bind (DirObject.fromValue store.crates.toWebCrates store.crates.dids) with
    | none => .error (.internal "failed to parse DirObject: ")
    | some dir => .ok (some dir.totalSize)
  else .ok none

/-- The size in `path_stat_from_simple_map_item`. -/
def itemSize : SimpleMapItem → NdnResult (Option UInt64)
  | .objId objId => .ok (objSizeFromObjId store objId)
  | .object objType canonicalJson =>
      embeddedSize store objType (store.crates.jsonParse canonicalJson)
  | .objectJwt objType jwt =>
      match store.crates.jwtClaims jwt with
      | none => .error (.invalidParam "decode jwt failed:")
      | some claims => embeddedSize store objType (store.crates.jsonParse claims)

/-- `path_stat_from_simple_map_item`. -/
def pathStatFromSimpleMapItem (item : SimpleMapItem) : NdnResult PathStat := do
  let (objId, _) ← item.getObjId store.crates.toCrates
  let size ← itemSize store item
  return ⟨kindFromObjId objId, size, some objId, none, none, none⟩

/-- `path_stat_from_symlink`. -/
def pathStatFromSymlink (targetPath : String) : PathStat :=
  ⟨.symLink, none, none, some targetPath, none, none⟩

/-- `node_obj_id`. -/
def nodeObjId (node : NodeRecord) : Option ObjId :=
  match node.state with
  | .linked objId _ _ _ => some objId
  | .finalized objId _ => some objId
  | _ => node.baseObjId

/-- `path_stat_from_inode_node`. -/
def pathStatFromInodeNode (inodeId : IndexNodeId) (node : NodeRecord) : PathStat where
  kind :=
    match node.state.kind with
    | .dir => .dir
    | _ => .file
  size := (nodeObjId node).bind (objSizeFromObjId store)
  objId := nodeObjId node
  objInnerPath := none
  inodeId := some inodeId
  state := some node.state

/-- An entry that names an inode: the inode is read again when the entry has none. -/
def inodeOfEntry (db : FsMetaDb) (id : IndexNodeId) : Option NodeRecord → NdnResult (Option NodeRecord)
  | some node => .ok (some node)
  | none =>
      match db.getInode id with
      | .error e => .error (.internal ("failed to get inode: " ++ e))
      | .ok node => .ok node

/-- What an entry of the service is listed as, or nothing. -/
def upperStat (db : FsMetaDb) (entry : FsMetaListEntry) : NdnResult (Option PathStat) :=
  match entry.target with
  | .tombstone => .ok none
  | .indexNodeId id => do
      let node ← inodeOfEntry db id entry.inode
      return node.map (pathStatFromInodeNode store id)
  | .symLink targetPath => .ok (some (pathStatFromSymlink targetPath))
  | .objId objId => .ok (some (pathStatFromObjId store objId))

/-- The first loop of `build_merged_dir_entries`: the children of the base that the service
has no entry for. -/
def baseEntries (upper : BTreeMap String FsMetaListEntry) :
    List (String × SimpleMapItem) → BTreeMap String PathStat → NdnResult (BTreeMap String PathStat)
  | [], merged => .ok merged
  | (name, item) :: rest, merged =>
      if (upper.get? name).isSome then baseEntries upper rest merged
      else
        match pathStatFromSimpleMapItem store item with
        | .error e => .error e
        | .ok stat => baseEntries upper rest (merged.insert name stat)

/-- The second loop: the entries of the service. -/
def upperEntries (db : FsMetaDb) :
    List (String × FsMetaListEntry) → BTreeMap String PathStat → NdnResult (BTreeMap String PathStat)
  | [], merged => .ok merged
  | (name, entry) :: rest, merged =>
      match upperStat store db entry with
      | .error e => .error e
      | .ok none => upperEntries db rest merged
      | .ok (some stat) => upperEntries db rest (merged.insert name stat)

/-- `build_merged_dir_entries`. -/
def buildMergedDirEntries (db : FsMetaDb) (dirNode : NodeRecord)
    (upper : BTreeMap String FsMetaListEntry) : NdnResult (BTreeMap String PathStat) :=
  match dirNode.baseObjId with
  | none => upperEntries store db upper.entries .empty
  | some baseObjId =>
      match loadDirObject store baseObjId with
      | .error e => .error e
      | .ok dirObj =>
          match baseEntries store upper dirObj.objectMap.entries .empty with
          | .error e => .error e
          | .ok merged => upperEntries store db upper.entries merged

/-- The entries of the session that `start_list` makes for a directory with a base. -/
def startListEntries (db : FsMetaDb) (dirId : IndexNodeId) (dirNode : NodeRecord) :
    NdnResult (BTreeMap String PathStat) :=
  match db.startListEntries (some store) dirId with
  | .error e => .error (.internal ("start_list failed: " ++ e))
  | .ok upper => buildMergedDirEntries store db dirNode upper

/-! ## Which names are listed -/

section Names

variable {store} {db : FsMetaDb} {upper : BTreeMap String FsMetaListEntry}

theorem isSome_get?_insert (m : BTreeMap String PathStat) (key name : String) (stat : PathStat) :
    ((m.insert key stat).get? name).isSome ↔ name = key ∨ (m.get? name).isSome := by
  rw [BTreeMap.get?_insert]
  by_cases hkey : name = key <;> simp [hkey]

/-- The first loop adds the children that the service has no entry for. -/
theorem baseEntries_names {children : List (String × SimpleMapItem)}
    {merged out : BTreeMap String PathStat} (h : baseEntries store upper children merged = .ok out)
    (name : String) :
    (out.get? name).isSome ↔ (merged.get? name).isSome ∨
      (name ∈ children.map Prod.fst ∧ upper.get? name = none) := by
  induction children generalizing merged with
  | nil =>
      cases h
      simp
  | cons child rest ih =>
      obtain ⟨key, item⟩ := child
      unfold baseEntries at h
      rw [List.map_cons, List.mem_cons]
      split at h
      · rename_i hupper
        rw [ih h]
        by_cases hkey : name = key
        · subst hkey
          have hsome : upper.get? name ≠ none := Option.isSome_iff_ne_none.mp hupper
          simp [hsome]
        · simp [hkey]
      · rename_i hupper
        have hnone : upper.get? key = none := by simpa using hupper
        split at h
        · cases h
        · rw [ih h, isSome_get?_insert]
          by_cases hkey : name = key
          · subst hkey
            simp [hnone]
          · simp [hkey]

/-- The second loop adds the entries that are listed as something. -/
theorem upperEntries_names {entries : List (String × FsMetaListEntry)}
    {merged out : BTreeMap String PathStat} (h : upperEntries store db entries merged = .ok out)
    (name : String) :
    (out.get? name).isSome ↔ (merged.get? name).isSome ∨
      ∃ entry, (name, entry) ∈ entries ∧ ∃ stat, upperStat store db entry = .ok (some stat) := by
  induction entries generalizing merged with
  | nil =>
      cases h
      simp
  | cons first rest ih =>
      obtain ⟨key, entry⟩ := first
      unfold upperEntries at h
      split at h
      · cases h
      · rename_i hnone
        rw [ih h]
        refine or_congr_right ⟨?_, ?_⟩
        · rintro ⟨entry', hmem, hstat⟩
          exact ⟨entry', List.mem_cons_of_mem _ hmem, hstat⟩
        · rintro ⟨entry', hmem, stat, hstat⟩
          rcases List.mem_cons.mp hmem with heq | hmem
          · cases heq
            rw [hnone] at hstat
            cases hstat
          · exact ⟨entry', hmem, stat, hstat⟩
      · rename_i stat hsome
        rw [ih h, isSome_get?_insert]
        constructor
        · rintro ((rfl | hold) | ⟨entry', hmem, hstat⟩)
          · exact .inr ⟨entry, List.mem_cons_self, stat, hsome⟩
          · exact .inl hold
          · exact .inr ⟨entry', List.mem_cons_of_mem _ hmem, hstat⟩
        · rintro (hold | ⟨entry', hmem, hstat⟩)
          · exact .inl (.inr hold)
          · rcases List.mem_cons.mp hmem with heq | hmem
            · cases heq
              exact .inl (.inl rfl)
            · exact .inr ⟨entry', hmem, hstat⟩

end Names

/-! ## Listings and paths -/

section Listing

variable (db : FsMetaDb) (env : ServiceEnv)

/-- The target of a name leads somewhere: it is no tombstone, and its inode is there. -/
def Reached : DentryTarget → Prop
  | .tombstone => False
  | .indexNodeId id => ∃ node, db.getInode id = .ok (some node)
  | .symLink _ => True
  | .objId _ => True

/-- A path finds the name in the directory. -/
def Resolves (dirId : IndexNodeId) (name : String) : Prop :=
  ∃ target, (Resolver.childTarget dirId name).runPlain db env = .ok (some target) ∧
    Reached db target

/-- A tombstone takes a child of the base away. -/
def HiddenInBase (dirId : IndexNodeId) (dirNode : NodeRecord) (name : String) : Prop :=
  (Resolver.childTarget dirId name).runPlain db env = .ok (some .tombstone) ∧
    ∃ objId, lookupBaseDirobjChild env dirNode name = .ok (foundInBase (some objId))

/-- The names that the service reads from the base are the names of the directory object. -/
theorem base_names {store : DirStore} {dirNode : NodeRecord} {base : BTreeMap String ObjId}
    (hbase : loadBaseDirChildren (some store) dirNode = .ok base) {baseObjId : ObjId}
    (hid : dirNode.baseObjId = some baseObjId) {dirObj : DirObject store.crates.dids}
    (hload : loadDirObject store baseObjId = .ok dirObj) (name : String) :
    (base.get? name).isSome ↔ name ∈ dirObj.objectMap.entries.map Prod.fst := by
  unfold loadBaseDirChildren at hbase
  unfold loadDirObject at hload
  rw [hid] at hbase
  dsimp only at hbase
  split at hbase
  · cases hbase
  · rename_i hdir
    rw [if_neg hdir] at hload
    cases hget : store.getObject baseObjId with
    | error e =>
        rw [hget] at hload
        cases hload
    | ok baseObjStr =>
        rw [hget] at hload hbase
        dsimp only at hload hbase
        rw [hload] at hbase
        obtain ⟨children, hchildren, hmap⟩ := except_bind_eq_ok.mp hbase
        obtain rfl := except_pure_eq_ok.mp hmap
        obtain ⟨hkeys, -, -⟩ := lookup_children hchildren name
        have hnodup : (children.map Prod.fst).Nodup := hkeys ▸ dirObj.objectMap.nodup
        rw [BTreeMap.get?_extend hnodup, BTreeMap.get?_empty, Option.or_none, ← hkeys,
          List.lookup_isSome_iff, List.mem_map]
        constructor
        · rintro ⟨child, hmem, hname⟩
          exact ⟨child, hmem, (beq_iff_eq.mp hname).symm⟩
        · rintro ⟨child, hmem, hname⟩
          exact ⟨child, hmem, beq_iff_eq.mpr hname.symm⟩

/-- An entry of the service is listed when its target leads somewhere. -/
theorem upperStat_some_iff {store : DirStore} {db : FsMetaDb} {entry : FsMetaListEntry}
    (hinode : ∀ id, entry.target = .indexNodeId id → db.getInode id = .ok entry.inode) :
    (∃ stat, upperStat store db entry = .ok (some stat)) ↔ Reached db entry.target := by
  unfold upperStat
  cases htarget : entry.target with
  | tombstone =>
      refine ⟨?_, False.elim⟩
      rintro ⟨stat, h⟩
      cases h
  | symLink path => exact ⟨fun _ => trivial, fun _ => ⟨_, rfl⟩⟩
  | objId objId => exact ⟨fun _ => trivial, fun _ => ⟨_, rfl⟩⟩
  | indexNodeId id =>
      have hread := hinode id htarget
      show (∃ stat, (do
        let node ← inodeOfEntry db id entry.inode
        return node.map (pathStatFromInodeNode store id) : NdnResult _) = .ok (some stat)) ↔
          ∃ node, db.getInode id = .ok (some node)
      cases hnode : entry.inode with
      | some node =>
          rw [hnode] at hread
          exact ⟨fun _ => ⟨node, hread⟩, fun _ => ⟨_, rfl⟩⟩
      | none =>
          rw [hnode] at hread
          have hinodeOf : inodeOfEntry db id none = .ok none := by
            simp [inodeOfEntry, hread]
          rw [hinodeOf]
          constructor
          · rintro ⟨stat, h⟩
            cases h
          · rintro ⟨node, h⟩
            rw [hread] at h
            cases h

/-- The names of both loops: entries that lead somewhere, and names of the base that the
service has no entry for. -/
theorem merged_names {store : DirStore} {db : FsMetaDb} {dirNode : NodeRecord}
    {base : BTreeMap String ObjId} (hbase : loadBaseDirChildren (some store) dirNode = .ok base)
    {upper : BTreeMap String FsMetaListEntry} {entries : BTreeMap String PathStat}
    (h : buildMergedDirEntries store db dirNode upper = .ok entries) (name : String) :
    (entries.get? name).isSome ↔
      ((base.get? name).isSome ∧ upper.get? name = none) ∨
        ∃ entry, upper.get? name = some entry ∧
          ∃ stat, upperStat store db entry = .ok (some stat) := by
  have hupper : ∀ {merged : BTreeMap String PathStat},
      upperEntries store db upper.entries merged = .ok entries →
      ((entries.get? name).isSome ↔ (merged.get? name).isSome ∨
        ∃ entry, upper.get? name = some entry ∧
          ∃ stat, upperStat store db entry = .ok (some stat)) := by
    intro merged hentries
    rw [upperEntries_names hentries]
    simp only [BTreeMap.get?_eq_some_iff]
  unfold buildMergedDirEntries at h
  split at h
  · rename_i hid
    have hempty : base = .empty := by
      unfold loadBaseDirChildren at hbase
      rw [hid] at hbase
      exact (Except.ok.inj hbase).symm
    rw [hupper h, hempty]
    simp
  · rename_i baseObjId hid
    split at h
    · cases h
    · rename_i dirObj hload
      split at h
      · cases h
      · rename_i merged hmerged
        rw [hupper h, baseEntries_names hmerged, base_names hbase hid hload]
        simp

/-- A target that a session shows has an entry; the entry is listed when the target leads
somewhere. -/
theorem listed_of_shown {store : DirStore} {db : FsMetaDb} {name : String}
    {target : Option DentryTarget} {entry : Option FsMetaListEntry}
    (h : EntryShows db name target entry) :
    (∃ e, entry = some e ∧ ∃ stat, upperStat store db e = .ok (some stat)) ↔
      ∃ t, target = some t ∧ Reached db t := by
  have hseen := h.target_eq
  constructor
  · rintro ⟨e, rfl, hstat⟩
    obtain ⟨hsome, -⟩ := Option.filter_eq_some_iff.mp hseen
    exact ⟨e.target, hsome, (upperStat_some_iff (h.inode_eq e rfl)).mp hstat⟩
  · rintro ⟨t, rfl, hreached⟩
    have hvisible : t ≠ .tombstone := by
      rintro rfl
      exact hreached
    have hshown : seen (some t) = some t := Option.filter_eq_some_iff.mpr ⟨rfl, decide_eq_true hvisible⟩
    rw [hshown] at hseen
    obtain ⟨e, rfl, hsame⟩ := Option.map_eq_some_iff.mp hseen.symm
    exact ⟨e, rfl, (upperStat_some_iff (h.inode_eq e rfl)).mpr (hsame ▸ hreached)⟩

/-- A name without an entry in the session has no target, or a tombstone. -/
theorem target_of_shown_none {db : FsMetaDb} {name : String} {target : Option DentryTarget}
    (h : EntryShows db name target none) : target = none ∨ target = some .tombstone := by
  have hseen := h.target_eq
  cases target with
  | none => exact .inl rfl
  | some t =>
      right
      by_contra hne
      have ht : t ≠ .tombstone := fun heq => hne (congrArg some heq)
      simp [seen, ht] at hseen

/-- A name is in the base when the look-up in the base finds it. -/
theorem isSome_of_foundInBase {child : Option ObjId} {objId : ObjId}
    (h : foundInBase child = foundInBase (some objId)) : child.isSome := by
  cases child with
  | some _ => rfl
  | none =>
      unfold foundInBase at h
      dsimp only at h
      split at h <;> cases h

/-- The file manager lists the names that paths find, and the names of the base that a
tombstone takes away. -/
theorem listed_iff (store : DirStore) (dirId : IndexNodeId) (dirNode : NodeRecord)
    (entries : BTreeMap String PathStat) (hunique : db.UniqueNames)
    (henv : env.storeMgr = some store.getDirChild)
    (hdir : db.getInode dirId = .ok (some dirNode))
    (hlist : startListEntries store db dirId dirNode = .ok entries) (name : String) :
    (entries.get? name).isSome ↔
      Resolves db env dirId name ∨ HiddenInBase db env dirId dirNode name := by
  unfold startListEntries at hlist
  split at hlist
  · cases hlist
  rename_i upper hupper
  have hstore : env.storeMgr = (some store).map DirStore.getDirChild := henv
  obtain ⟨node, base, target, hnode, hbase, htarget, hmissing, hshown⟩ :=
    shown_of_startListEntries hunique hstore hupper name
  obtain rfl : node = dirNode := Option.some.inj (Except.ok.inj (hnode.symm.trans hdir))
  have hlookup : lookupBaseDirobjChild env node name = .ok (foundInBase (base.get? name)) :=
    lookupBase_of_loadBase henv hbase name
  rw [merged_names hbase hlist name, listed_of_shown hshown, or_comm]
  apply or_congr
  · -- what the entries of the service give
    constructor
    · rintro ⟨t, rfl, hreached⟩
      exact ⟨t, htarget, hreached⟩
    · rintro ⟨t, hfound, hreached⟩
      exact ⟨t, Except.ok.inj (htarget.symm.trans hfound), hreached⟩
  · -- what the base gives once more
    constructor
    · rintro ⟨hinBase, hnone⟩
      obtain ⟨objId, hobj⟩ := Option.isSome_iff_exists.mp hinBase
      rw [hnone] at hshown
      rcases target_of_shown_none hshown with rfl | rfl
      · rw [hmissing rfl] at hobj
        cases hobj
      · exact ⟨htarget, objId, hobj ▸ hlookup⟩
    · rintro ⟨hfound, objId, hfoundInBase⟩
      have htombstone : target = some .tombstone := Except.ok.inj (htarget.symm.trans hfound)
      subst htombstone
      have hsame := Except.ok.inj (hlookup.symm.trans hfoundInBase)
      refine ⟨isSome_of_foundInBase hsame, ?_⟩
      exact Option.map_eq_none_iff.mp hshown.target_eq.symm

/-- The root of the sample as it is read. -/
def baseNode : NodeRecord :=
  ⟨1, none, .dirNormal, false, some ⟨"cydir", [1]⟩, some 0, none, none, none, none⟩

theorem baseDb_computed :
    ((startListEntries baseStore baseDb 1 baseNode).toOption.map fun entries =>
        (entries.get? "a").isSome) = some true ∧
      baseDb.getInode 1 = .ok (some baseNode) ∧
      (Resolver.childTarget 1 "a").runPlain baseDb baseEnv = .ok (some .tombstone) := by
  decide +kernel

/-- The child that was deleted is listed. -/
theorem baseDb_lists_deleted :
    ∃ entries, startListEntries baseStore baseDb 1 baseNode = .ok entries ∧
      (entries.get? "a").isSome ∧ HiddenInBase baseDb baseEnv 1 baseNode "a" := by
  obtain ⟨hlisted, hnode, htombstone⟩ := baseDb_computed
  cases hlist : startListEntries baseStore baseDb 1 baseNode with
  | error e =>
      rw [hlist] at hlisted
      cases hlisted
  | ok entries =>
      rw [hlist] at hlisted
      have hname : (entries.get? "a").isSome := Option.some.inj hlisted
      refine ⟨entries, rfl, hname, ?_⟩
      have hiff := listed_iff baseDb baseEnv baseStore 1 baseNode entries uniqueNames_baseDb rfl
        hnode hlist "a"
      rcases hiff.mp hname with ⟨target, hfound, hleads⟩ | hhidden
      · cases htombstone.symm.trans hfound
        exact hleads.elim
      · exact hhidden

end Listing

end NamedFileMgr

end FsMeta
end CyfsNdn

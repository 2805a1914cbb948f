import CyfsNdn.FsMeta.SchemaMigration
import CyfsNdn.NdnLib.HeaderCodec
import CyfsNdn.NdnLib.ObjIdCodecs
import CyfsNdn.NdnLib.ObjectContent

/-!
# Which databases are opened without loss

`create_schema` runs before `migrate_schema` and has an index on `nodes(ref_by)`, so a database
whose nodes have no such column is never opened, and the step that adds the column never runs.
The other layouts are opened, and nothing is lost: `opens_losslessly_iff` gives the conditions
on the rows.

A database is `Settled` if opening it does nothing; `newService_of_settled` and
`newService_ok` are the two halves of the argument.
-/

namespace CyfsNdn
namespace FsMeta

open NdnLib Relational

/-! ## What is promised -/

namespace MetaDatabase

/-- The rows of `nodes`. -/
def nodeRows (db : MetaDatabase) : List NodeRow :=
  (db.nodes.getD NodesTable.created).rows.rows

/-- The rows of `dentries`. -/
def dentryRows (db : MetaDatabase) : List DentryRow :=
  (db.dentries.getD DentriesTable.created).rows.rows

end MetaDatabase

/-- The target that a dentry should have: a symlink that stored an inode gets a path. -/
def expectedTarget (cols : TargetCols) : TargetCols :=
  match cols with
  | ⟨.symlink, some id, none⟩ => dentryTargetCols (.symLink ("legacy-inode:" ++ toString id))
  | cols => cols

/-- Every node and every dentry is there, as it should be, and nothing else but the root that
was missing; and each back reference is that of the dentry that targets the inode. -/
structure Lossless (db : MetaDatabase) (opened : SchemaDb) : Prop where
  nodesKept : ∀ row ∈ db.nodeRows, ∃ row' ∈ opened.nodes.rows.rows,
    { row' with refBy := row.refBy } = row
  nodesOnly : ∀ row' ∈ opened.nodes.rows.rows,
    (∃ row ∈ db.nodeRows, { row' with refBy := row.refBy } = row) ∨
      db.rootKey = none ∧ row'.inodeId = rootInode
  dentriesKept : ∀ row ∈ db.dentryRows, ∃ row' ∈ opened.dentries.rows.rows,
    row'.parentInodeId = row.parentInodeId ∧ row'.name = row.name ∧
      row'.target = expectedTarget row.target ∧ row'.mtime = row.mtime
  dentriesOnly : ∀ row' ∈ opened.dentries.rows.rows, ∃ row ∈ db.dentryRows,
    row'.parentInodeId = row.parentInodeId ∧ row'.name = row.name ∧
      row'.target = expectedTarget row.target ∧ row'.mtime = row.mtime
  refBy : ∀ node ∈ opened.nodes.rows.rows, ∀ id, node.refBy = some id ↔
    ∃ row ∈ opened.dentries.rows.rows,
      row.dentryId = id ∧ row.target.targets node.inodeId = true

/-- The database is opened without loss, and opening it again changes nothing. -/
def OpensLosslessly (now : UInt64) (db : MetaDatabase) : Prop :=
  ∃ opened, newService now db = .ok opened ∧ Lossless db opened ∧
    ∀ now', newService now' opened.toDatabase = .ok opened

/-- The nodes have the column, no inode has two dentries, the inodes that symlinks store are
positive numbers of 64 bits, and the root is known or there is room for it. -/
structure Openable (db : MetaDatabase) : Prop where
  refBy : ∀ nodes, db.nodes = some nodes → nodes.hasRefBy = true
  targets : (inodeTargets db.dentryRows).Nodup
  legacy : ∀ row ∈ db.dentryRows, row.target.targetType = .symlink →
    ∀ id, row.target.targetInodeId = some id → id < 2 ^ 63
  root : (∃ id, db.rootKey = some (some id)) ∨
    db.rootKey = none ∧ (∀ row ∈ db.nodeRows, row.inodeId ≠ rootInode) ∧
      ∀ row ∈ db.dentryRows, row.target.targets rootInode = false

/-! ## Targets -/

theorem toString_nat_injective {m n : Nat} (h : toString m = toString n) : m = n := by
  have hdigits := congrArg String.toList h
  rw [toList_toString_nat, toList_toString_nat] at hdigits
  rw [← Nat.ofDigitChars_ten_toDigits (n := m), hdigits, Nat.ofDigitChars_ten_toDigits]

/-- A negative number is printed with a sign. -/
theorem toString_negSucc_ne (m n : Nat) : toString (Int.negSucc m) ≠ toString n := by
  intro h
  have hdigits := congrArg String.toList h
  have hsign : (toString (Int.negSucc m)).toList = '-' :: (toString (m + 1)).toList :=
    String.toList_append
  rw [hsign, toList_toString_nat n] at hdigits
  have hmem : '-' ∈ Nat.toDigits 10 n := by
    rw [← hdigits]
    exact List.mem_cons_self
  exact absurd (digit_of_mem_toDigits hmem).1 (by decide)

/-- The printed number is that of the inode as long as this is positive. -/
theorem toString_rowid_iff {id : Nat} :
    toString (FsMetaDb.rowid id) = toString id ↔ id < 2 ^ 63 := by
  unfold FsMetaDb.rowid
  by_cases hlt : id < 2 ^ 63
  · rw [if_pos hlt]
    exact ⟨fun _ => hlt, fun _ => rfl⟩
  · rw [if_neg hlt]
    constructor
    · intro h
      by_cases hword : id < 2 ^ 64
      · have hneg : (id : Int) - 2 ^ 64 = Int.negSucc (2 ^ 64 - id - 1) := by omega
        rw [hneg] at h
        exact absurd h (toString_negSucc_ne _ _)
      · have hpos : (id : Int) - 2 ^ 64 = ((id - 2 ^ 64 : Nat) : Int) := by omega
        rw [hpos] at h
        have hsame : id - 2 ^ 64 = id := toString_nat_injective h
        omega
    · exact fun h => absurd h hlt

theorem legacyPath_eq_iff {id : IndexNodeId} :
    legacyPath id = ("legacy-inode:" ++ toString id).toUTF8.toList ↔ id < 2 ^ 63 := by
  unfold legacyPath
  rw [toUTF8_toList, toUTF8_toList, ← toString_rowid_iff]
  constructor
  · intro h
    have htext := congrArg String.toList (utf8Bytes_injective h)
    rw [String.toList_append, String.toList_append] at htext
    exact String.toList_injective (List.append_cancel_left htext)
  · intro h
    rw [h]

section Targets

variable {check : SymlinkCheck} {cols : TargetCols}

/-- What passed the old check passes the new one when it is copied. -/
theorem passes_migrateTarget (hpasses : check.passes cols = true) :
    SymlinkCheck.passes .current (migrateTarget cols) = true := by
  obtain ⟨targetType, targetInodeId, targetObjId⟩ := cols
  cases targetType with
  | inode | obj | tombstone => exact hpasses
  | symlink =>
      cases check with
      | none => cases hpasses
      | legacy =>
          cases targetInodeId with
          | none => cases hpasses
          | some id => cases targetObjId <;> rfl
      | current =>
          cases targetObjId with
          | none => simp [SymlinkCheck.passes] at hpasses
          | some path => rfl

/-- Today's targets are copied as they are. -/
theorem migrateTarget_of_current (hpasses : SymlinkCheck.passes .current cols = true) :
    migrateTarget cols = cols := by
  obtain ⟨targetType, targetInodeId, targetObjId⟩ := cols
  cases targetType with
  | inode | obj | tombstone => rfl
  | symlink =>
      simp only [SymlinkCheck.passes, Bool.and_eq_true, Option.isNone_iff_eq_none,
        Option.isSome_iff_exists] at hpasses
      obtain ⟨rfl, path, rfl⟩ := hpasses
      rfl

/-- The copied target is the expected one exactly if the number is printed as such. -/
theorem migrateTarget_eq_iff (hpasses : check.passes cols = true) :
    migrateTarget cols = expectedTarget cols ↔
      (cols.targetType = .symlink → ∀ id, cols.targetInodeId = some id → id < 2 ^ 63) := by
  obtain ⟨targetType, targetInodeId, targetObjId⟩ := cols
  cases targetType with
  | inode | obj | tombstone => simp [migrateTarget, expectedTarget]
  | symlink =>
      cases targetInodeId with
      | none =>
          cases targetObjId with
          | none => cases check <;> simp [SymlinkCheck.passes] at hpasses
          | some path => simp [migrateTarget, expectedTarget]
      | some id =>
          cases targetObjId with
          | some path => cases check <;> simp [SymlinkCheck.passes] at hpasses
          | none =>
              simp only [migrateTarget, expectedTarget, dentryTargetCols, if_true, Option.map_some,
                Option.none_or, TargetCols.mk.injEq, Option.some.injEq, true_and, legacyPath_eq_iff,
                true_implies, forall_eq']

@[simp] theorem targetType_migrateTarget (cols : TargetCols) :
    (migrateTarget cols).targetType = cols.targetType := by
  unfold migrateTarget
  split_ifs <;> rfl

/-- Copying changes no target that is an inode. -/
theorem migrateTarget_inode (h : cols.targetType = .inode) : migrateTarget cols = cols := by
  unfold migrateTarget
  rw [if_neg (by rw [h]; decide)]

theorem targets_migrateTarget (cols : TargetCols) (id : IndexNodeId) :
    (migrateTarget cols).targets id = cols.targets id := by
  by_cases h : cols.targetType = .inode
  · rw [migrateTarget_inode h]
  · simp [TargetCols.targets, h]

end Targets

/-! ## Dentries -/

/-- The columns that are not the row id. -/
def DentryRow.content (row : DentryRow) : IndexNodeId × String × TargetCols × Option Int64 :=
  (row.parentInodeId, row.name, row.target, row.mtime)

/-- The same, with the target as it is copied. -/
def DentryRow.copiedContent (row : DentryRow) :
    IndexNodeId × String × TargetCols × Option Int64 :=
  (row.parentInodeId, row.name, migrateTarget row.target, row.mtime)

theorem map_copiedRows {β : Type} {g k : DentryRow → β}
    (h : ∀ i row, g { row with dentryId := i, target := migrateTarget row.target } = k row)
    (rows : List DentryRow) : (copiedRows rows).map g = rows.map k := by
  apply List.ext_getElem
  · simp [copiedRows]
  · intro i hi hi'
    simp [copiedRows, h]

theorem inodeTargets_copiedRows (rows : List DentryRow) :
    inodeTargets (copiedRows rows) = inodeTargets rows := by
  have hmap : ∀ rows : List DentryRow,
      inodeTargets rows = (rows.map DentryRow.inodeTarget).filterMap id := by
    intro rows
    rw [List.filterMap_map]
    rfl
  rw [hmap, hmap rows]
  congr 1
  apply map_copiedRows
  intro i row
  unfold DentryRow.inodeTarget
  by_cases hinode : row.target.targetType = .inode
  · simp [hinode, migrateTarget_inode hinode]
  · simp [hinode]

theorem inodeTarget_eq_some_iff {row : DentryRow} {id : IndexNodeId} :
    row.inodeTarget = some id ↔ row.target.targets id = true := by
  unfold DentryRow.inodeTarget TargetCols.targets
  by_cases hinode : row.target.targetType = .inode
  · simp [hinode]
  · simp [hinode]

/-- Where an index has no value twice, it has every value of one element only. -/
theorem eq_of_nodup_filterMap {α β : Type} {f : α → Option β} {items : List α}
    (hnodup : (items.filterMap f).Nodup) {x y : α} (hx : x ∈ items) (hy : y ∈ items) {b : β}
    (hxb : f x = some b) (hyb : f y = some b) : x = y := by
  induction items with
  | nil => exact absurd hx (by simp)
  | cons z rest ih =>
      cases hz : f z with
      | none =>
          rw [List.filterMap_cons_none hz] at hnodup
          have hrest : ∀ w ∈ z :: rest, f w = some b → w ∈ rest := by
            intro w hw hwb
            rcases List.mem_cons.mp hw with rfl | hw
            · cases hz.symm.trans hwb
            · exact hw
          exact ih hnodup (hrest x hx hxb) (hrest y hy hyb)
      | some c =>
          rw [List.filterMap_cons_some hz, List.nodup_cons] at hnodup
          obtain ⟨hfresh, hnodup⟩ := hnodup
          have hlater : ∀ w ∈ rest, f w = some c → False :=
            fun w hw hwc => hfresh (List.mem_filterMap.mpr ⟨w, hw, hwc⟩)
          rcases List.mem_cons.mp hx with heqx | hrestx
          · subst heqx
            cases hz.symm.trans hxb
            rcases List.mem_cons.mp hy with heqy | hresty
            · exact heqy.symm
            · exact (hlater y hresty hyb).elim
          · rcases List.mem_cons.mp hy with heqy | hresty
            · subst heqy
              cases hz.symm.trans hyb
              exact (hlater x hrestx hxb).elim
            · exact ih hnodup hrestx hresty

/-- A copy fails only if two dentries target one inode. -/
theorem rebuild_ok {dentries : DentriesTable}
    (htargets : (inodeTargets dentries.rows.rows).Nodup) :
    ∃ copied, dentries.rebuild = .ok copied ∧ copied.layout = .migrated ∧
      copied.uniqInodeTarget = true ∧ copied.rows.rows = copiedRows dentries.rows.rows := by
  have hpasses : ∀ row ∈ copiedRows dentries.rows.rows,
      SymlinkCheck.passes .current row.target = true := by
    intro row hrow
    have hmem := List.mem_map_of_mem (f := DentryRow.content) hrow
    rw [map_copiedRows (k := DentryRow.copiedContent) fun _ _ => rfl] at hmem
    obtain ⟨old, hold, heq⟩ := List.mem_map.mp hmem
    have htarget : migrateTarget old.target = row.target := congrArg (fun c => c.2.2.1) heq
    rw [← htarget]
    exact passes_migrateTarget (dentries.passes old hold)
  have hnames : (dentryNames (copiedRows dentries.rows.rows)).Nodup := by
    unfold dentryNames
    rw [map_copiedRows (k := fun row => (row.parentInodeId, row.name)) fun _ _ => rfl]
    exact dentries.namesNodup
  have hcopied : (inodeTargets (copiedRows dentries.rows.rows)).Nodup := by
    rw [inodeTargets_copiedRows]
    exact htargets
  unfold DentriesTable.rebuild
  dsimp only
  rw [dif_pos hpasses, dif_pos hnames, dif_pos hcopied]
  exact ⟨_, rfl, rfl, rfl, rfl⟩

/-- The table is the one of today. -/
structure IsCurrent (dentries : DentriesTable) : Prop where
  dentryId : dentries.layout.hasDentryId = true
  symlinks : dentries.layout.check = .current
  uniq : dentries.uniqInodeTarget = true

theorem migrate_of_current {dentries : DentriesTable} (h : IsCurrent dentries) :
    dentries.migrate = .ok dentries := by
  have hdentryId := dentries.layout.ddl_dentryId
  have hsymlink := dentries.layout.ddl_symlink
  rw [h.dentryId] at hdentryId
  rw [h.symlinks] at hsymlink
  unfold DentriesTable.migrate
  simp [hdentryId, hsymlink]

/-- Copied or not, the table is the one of today, with the rows as they are copied. -/
theorem migrate_ok {dentries : DentriesTable} (huniq : dentries.uniqInodeTarget = true) :
    ∃ migrated, dentries.migrate = .ok migrated ∧ IsCurrent migrated ∧
      migrated.rows.rows.map DentryRow.content =
        dentries.rows.rows.map DentryRow.copiedContent := by
  by_cases hcurrent : IsCurrent dentries
  · refine ⟨dentries, migrate_of_current hcurrent, hcurrent, ?_⟩
    apply List.map_congr_left
    intro row hrow
    have hpasses := dentries.passes row hrow
    rw [hcurrent.symlinks] at hpasses
    simp [DentryRow.content, DentryRow.copiedContent, migrateTarget_of_current hpasses]
  · have hcopy : (!textContains dentries.layout.ddl dentryIdPart ||
        !textContains dentries.layout.ddl symlinkPart) = true := by
      rw [dentries.layout.ddl_dentryId, dentries.layout.ddl_symlink]
      by_contra hboth
      simp only [Bool.or_eq_true, Bool.not_eq_true', not_or, Bool.not_eq_false,
        decide_eq_false_iff_not, Decidable.not_not] at hboth
      exact hcurrent ⟨hboth.1, hboth.2, huniq⟩
    obtain ⟨copied, hrebuild, hlayout, hcopiedUniq, hrows⟩ :=
      rebuild_ok (dentries.targetsNodup huniq)
    refine ⟨copied, ?_, ⟨?_, ?_, hcopiedUniq⟩, ?_⟩
    · unfold DentriesTable.migrate
      rw [if_pos hcopy, hrebuild]
    · rw [hlayout]
      rfl
    · rw [hlayout]
      rfl
    · rw [hrows]
      exact map_copiedRows (fun _ _ => rfl) _

/-- With the index, the back reference of an inode is that of the dentry that targets it. -/
theorem refOf_eq_some_iff {dentries : DentriesTable} (huniq : dentries.uniqInodeTarget = true)
    {id : IndexNodeId} {dentryId : Nat} :
    dentries.refOf id = some dentryId ↔
      ∃ row ∈ dentries.rows.rows, row.dentryId = dentryId ∧ row.target.targets id = true := by
  unfold DentriesTable.refOf
  rw [Option.map_eq_some_iff]
  constructor
  · rintro ⟨row, hfind, rfl⟩
    have htargets := List.find?_some hfind
    exact ⟨row, List.mem_of_find?_eq_some hfind, rfl, htargets⟩
  · rintro ⟨row, hrow, rfl, htargets⟩
    cases hfind : dentries.rows.rows.find? fun row => row.target.targets id with
    | none => exact absurd htargets (List.find?_eq_none.mp hfind row hrow)
    | some first =>
        have hfirst := List.find?_some hfind
        have hsame : first = row := eq_of_nodup_filterMap (dentries.targetsNodup huniq)
          (List.mem_of_find?_eq_some hfind) hrow (inodeTarget_eq_some_iff.mpr hfirst)
          (inodeTarget_eq_some_iff.mpr htargets)
        exact ⟨first, rfl, congrArg DentryRow.dentryId hsame⟩

/-! ## Opening again -/

/-- Opening the database does nothing. -/
structure Settled (db : SchemaDb) : Prop where
  root : ∃ id, db.rootKey = some (some id)
  column : db.nodes.hasRefBy = true
  dentries : IsCurrent db.dentries
  refBy : ∀ node ∈ db.nodes.rows.rows, node.refBy = db.dentries.refOf node.inodeId

theorem NodesTable.ext {nodes nodes' : NodesTable} (hcolumn : nodes.hasRefBy = nodes'.hasRefBy)
    (hrows : nodes.rows.rows = nodes'.rows.rows) : nodes = nodes' := by
  obtain ⟨hasRefBy, ⟨rows, _⟩, _⟩ := nodes
  obtain ⟨hasRefBy', ⟨rows', _⟩, _⟩ := nodes'
  cases hcolumn
  cases hrows
  rfl

theorem rows_setRefBy (nodes : NodesTable) (dentries : DentriesTable) :
    (nodes.setRefBy dentries).rows.rows =
      nodes.rows.rows.map fun row => { row with refBy := dentries.refOf row.inodeId } := by
  simp [NodesTable.setRefBy, Table.updateWhere]

theorem ensureRootDir_of_root {db : SchemaDb} (now : UInt64)
    (h : ∃ id, db.rootKey = some (some id)) : ensureRootDir now db = .ok db := by
  obtain ⟨id, hid⟩ := h
  unfold ensureRootDir
  rw [hid]

theorem newService_of_settled {db : SchemaDb} (h : Settled db) (now : UInt64) :
    newService now db.toDatabase = .ok db := by
  have hcreate : createSchema db.toDatabase = .ok db := by
    have hindex : db.dentries.createUniqIndex = .ok db.dentries := by
      unfold DentriesTable.createUniqIndex
      rw [if_pos h.dentries.uniq]
    unfold createSchema SchemaDb.toDatabase
    simp only [Option.getD_some, h.column, hindex]
    rfl
  have hnodes : db.nodes.setRefBy db.dentries = db.nodes := by
    apply NodesTable.ext
    · exact h.column.symm
    · rw [rows_setRefBy]
      have hsame : ∀ row ∈ db.nodes.rows.rows,
          ({ row with refBy := db.dentries.refOf row.inodeId } : NodeRow) = row := by
        intro row hrow
        rw [← h.refBy row hrow]
      exact (List.map_congr_left hsame).trans (List.map_id _)
  have hmigrate : migrateSchema db = .ok db := by
    unfold migrateSchema
    rw [migrate_of_current h.dentries]
    simp only [h.column, if_true]
    show Except.ok { db with nodes := db.nodes.setRefBy db.dentries } = .ok db
    rw [hnodes]
  unfold newService
  rw [hcreate]
  show (migrateSchema db >>= ensureRootDir now) = .ok db
  rw [hmigrate]
  exact ensureRootDir_of_root now h.root

/-! ## Opening once -/

theorem mem_of_contents {rows rows' : List DentryRow}
    (h : rows'.map DentryRow.content = rows.map DentryRow.copiedContent) {row' : DentryRow}
    (hrow' : row' ∈ rows') : ∃ row ∈ rows, row'.content = row.copiedContent := by
  have hmem : row'.content ∈ rows.map DentryRow.copiedContent := by
    rw [← h]
    exact List.mem_map_of_mem hrow'
  obtain ⟨row, hrow, heq⟩ := List.mem_map.mp hmem
  exact ⟨row, hrow, heq.symm⟩

theorem exists_of_contents {rows rows' : List DentryRow}
    (h : rows'.map DentryRow.content = rows.map DentryRow.copiedContent) {row : DentryRow}
    (hrow : row ∈ rows) : ∃ row' ∈ rows', row'.content = row.copiedContent := by
  have hmem : row.copiedContent ∈ rows'.map DentryRow.content := by
    rw [h]
    exact List.mem_map_of_mem hrow
  exact List.mem_map.mp hmem

theorem content_eq_copied_iff {row row' : DentryRow} :
    row'.content = row.copiedContent ↔
      row'.parentInodeId = row.parentInodeId ∧ row'.name = row.name ∧
        row'.target = migrateTarget row.target ∧ row'.mtime = row.mtime := by
  simp [DentryRow.content, DentryRow.copiedContent]

theorem createUniqIndex_ok {dentries : DentriesTable}
    (htargets : (inodeTargets dentries.rows.rows).Nodup) :
    ∃ indexed, dentries.createUniqIndex = .ok indexed ∧ indexed.uniqInodeTarget = true ∧
      indexed.rows = dentries.rows := by
  unfold DentriesTable.createUniqIndex
  by_cases huniq : dentries.uniqInodeTarget = true
  · rw [if_pos huniq]
    exact ⟨dentries, rfl, huniq, rfl⟩
  · rw [if_neg huniq, dif_pos htargets]
    exact ⟨_, rfl, rfl, rfl⟩

/-- What the database is before its root is looked for. -/
structure Migrated (db : MetaDatabase) (migrated : SchemaDb) : Prop where
  rootKey : migrated.rootKey = db.rootKey
  column : migrated.nodes.hasRefBy = true
  current : IsCurrent migrated.dentries
  dentries : migrated.dentries.rows.rows.map DentryRow.content =
    db.dentryRows.map DentryRow.copiedContent
  nodes : migrated.nodes.rows.rows = db.nodeRows.map fun row =>
    { row with refBy := migrated.dentries.refOf row.inodeId }

/-- The index on `ref_by` and the one on the targets are all that can fail before that. -/
theorem newService_eq {db : MetaDatabase} (now : UInt64)
    (hcolumn : ∀ nodes, db.nodes = some nodes → nodes.hasRefBy = true)
    (htargets : (inodeTargets db.dentryRows).Nodup) :
    ∃ migrated, newService now db = ensureRootDir now migrated ∧ Migrated db migrated := by
  have hnodes : (db.nodes.getD NodesTable.created).hasRefBy = true := by
    cases hdb : db.nodes with
    | none => rfl
    | some nodes => exact hcolumn nodes hdb
  obtain ⟨indexed, hindex, huniq, hrows⟩ := createUniqIndex_ok htargets
  obtain ⟨dentries, hmigrate, hcurrent, hcontent⟩ := migrate_ok huniq
  refine ⟨⟨db.rootKey, (db.nodes.getD NodesTable.created).setRefBy dentries, dentries⟩, ?_, ?_⟩
  · have hcreate : createSchema db =
        .ok ⟨db.rootKey, db.nodes.getD NodesTable.created, indexed⟩ := by
      unfold createSchema
      simp only [hnodes, hindex]
      rfl
    unfold newService
    rw [hcreate]
    show (migrateSchema _ >>= ensureRootDir now) = _
    unfold migrateSchema
    simp only [hnodes, if_true, hmigrate]
    rfl
  · refine ⟨rfl, rfl, hcurrent, ?_, rows_setRefBy _ _⟩
    rw [hcontent, hrows]
    rfl

section Migrated

variable {db : MetaDatabase} {migrated : SchemaDb}

theorem Migrated.mem_nodes (h : Migrated db migrated) {row' : NodeRow} :
    row' ∈ migrated.nodes.rows.rows ↔
      ∃ row ∈ db.nodeRows, { row with refBy := migrated.dentries.refOf row.inodeId } = row' := by
  rw [h.nodes, List.mem_map]

/-- A dentry targets an inode afterwards if one did before. -/
theorem Migrated.targets_iff (h : Migrated db migrated) (id : IndexNodeId) :
    (∃ row' ∈ migrated.dentries.rows.rows, row'.target.targets id = true) ↔
      ∃ row ∈ db.dentryRows, row.target.targets id = true := by
  constructor
  · rintro ⟨row', hrow', htargets⟩
    obtain ⟨row, hrow, hcontent⟩ := mem_of_contents h.dentries hrow'
    obtain ⟨-, -, htarget, -⟩ := content_eq_copied_iff.mp hcontent
    rw [htarget, targets_migrateTarget] at htargets
    exact ⟨row, hrow, htargets⟩
  · rintro ⟨row, hrow, htargets⟩
    obtain ⟨row', hrow', hcontent⟩ := exists_of_contents h.dentries hrow
    obtain ⟨-, -, htarget, -⟩ := content_eq_copied_iff.mp hcontent
    refine ⟨row', hrow', ?_⟩
    rw [htarget, targets_migrateTarget]
    exact htargets

theorem MetaDatabase.passes_dentryRows (db : MetaDatabase) {row : DentryRow}
    (hrow : row ∈ db.dentryRows) : ∃ check : SymlinkCheck, check.passes row.target = true :=
  ⟨_, (db.dentries.getD DentriesTable.created).passes row hrow⟩

/-- With positive inodes in the symlinks every dentry is as it should be. -/
theorem Migrated.expected (h : Migrated db migrated)
    (hlegacy : ∀ row ∈ db.dentryRows, row.target.targetType = .symlink →
      ∀ id, row.target.targetInodeId = some id → id < 2 ^ 63) :
    (∀ row ∈ db.dentryRows, ∃ row' ∈ migrated.dentries.rows.rows,
        row'.parentInodeId = row.parentInodeId ∧ row'.name = row.name ∧
          row'.target = expectedTarget row.target ∧ row'.mtime = row.mtime) ∧
      ∀ row' ∈ migrated.dentries.rows.rows, ∃ row ∈ db.dentryRows,
        row'.parentInodeId = row.parentInodeId ∧ row'.name = row.name ∧
          row'.target = expectedTarget row.target ∧ row'.mtime = row.mtime := by
  have htarget : ∀ row ∈ db.dentryRows, migrateTarget row.target = expectedTarget row.target := by
    intro row hrow
    obtain ⟨check, hpasses⟩ := db.passes_dentryRows hrow
    exact (migrateTarget_eq_iff hpasses).mpr (hlegacy row hrow)
  constructor
  · intro row hrow
    obtain ⟨row', hrow', hcontent⟩ := exists_of_contents h.dentries hrow
    rw [content_eq_copied_iff, htarget row hrow] at hcontent
    exact ⟨row', hrow', hcontent⟩
  · intro row' hrow'
    obtain ⟨row, hrow, hcontent⟩ := mem_of_contents h.dentries hrow'
    rw [content_eq_copied_iff, htarget row hrow] at hcontent
    exact ⟨row, hrow, hcontent⟩

theorem Migrated.lossless_of_nodes (h : Migrated db migrated)
    (hlegacy : ∀ row ∈ db.dentryRows, row.target.targetType = .symlink →
      ∀ id, row.target.targetInodeId = some id → id < 2 ^ 63)
    {opened : SchemaDb} (hdentries : opened.dentries = migrated.dentries)
    (hkept : ∀ row' ∈ migrated.nodes.rows.rows, row' ∈ opened.nodes.rows.rows)
    (honly : ∀ row' ∈ opened.nodes.rows.rows, row' ∈ migrated.nodes.rows.rows ∨
      db.rootKey = none ∧ row'.inodeId = rootInode)
    (hrefBy : ∀ node ∈ opened.nodes.rows.rows,
      node.refBy = opened.dentries.refOf node.inodeId) : Lossless db opened := by
  obtain ⟨hdentriesKept, hdentriesOnly⟩ := h.expected hlegacy
  constructor
  · intro row hrow
    refine ⟨_, hkept _ (h.mem_nodes.mpr ⟨row, hrow, rfl⟩), rfl⟩
  · intro row' hrow'
    refine (honly row' hrow').imp ?_ id
    intro hmem
    obtain ⟨row, hrow, rfl⟩ := h.mem_nodes.mp hmem
    exact ⟨row, hrow, rfl⟩
  · rw [hdentries]
    exact hdentriesKept
  · rw [hdentries]
    exact hdentriesOnly
  · intro node hnode id
    rw [hrefBy node hnode, refOf_eq_some_iff (by rw [hdentries]; exact h.current.uniq)]

end Migrated

/-! ## The root -/

theorem ensureRootDir_insert {db : SchemaDb} (now : UInt64) (hroot : db.rootKey = none)
    (hfree : ∀ row ∈ db.nodes.rows.rows, row.inodeId ≠ rootInode) :
    ensureRootDir now db = .ok { db with
      rootKey := some (some 1)
      nodes := ⟨true, db.nodes.rows.insertOrReplace (rootRow now), by simp⟩ } := by
  have habsent : db.nodes.rows.find? rootInode = none := by
    cases hfind : db.nodes.rows.find? rootInode with
    | none => rfl
    | some row =>
        obtain ⟨hrow, hkey⟩ := Table.find?_eq_some_iff.mp hfind
        exact absurd hkey (hfree row hrow)
  unfold ensureRootDir
  rw [hroot, habsent]
  rfl

/-- The root is known, or it is inserted where it was not. -/
theorem ensureRootDir_ok {db opened : SchemaDb} {now : UInt64}
    (h : ensureRootDir now db = .ok opened) :
    (∃ id, db.rootKey = some (some id)) ∧ opened = db ∨
      db.rootKey = none ∧ (∀ row ∈ db.nodes.rows.rows, row.inodeId ≠ rootInode) ∧
        opened.dentries = db.dentries ∧ rootRow now ∈ opened.nodes.rows.rows := by
  unfold ensureRootDir at h
  cases hroot : db.rootKey with
  | none =>
      rw [hroot] at h
      dsimp only at h
      cases hfind : db.nodes.rows.find? rootInode with
      | some row =>
          rw [hfind] at h
          cases h
      | none =>
          rw [hfind] at h
          cases h
          refine Or.inr ⟨rfl, ?_, rfl, Table.mem_insertOrReplace.mpr (Or.inl rfl)⟩
          intro row hrow hkey
          have hfound : db.nodes.rows.find? rootInode = some row :=
            Table.find?_eq_some_iff.mpr ⟨hrow, hkey⟩
          cases hfind.symm.trans hfound
  | some value =>
      cases value with
      | none =>
          rw [hroot] at h
          cases h
      | some id =>
          rw [hroot] at h
          cases h
          exact Or.inl ⟨⟨id, rfl⟩, rfl⟩

/-! ## The condition -/

section Condition

variable {now : UInt64} {db : MetaDatabase} {opened : SchemaDb}

theorem column_of_newService (hopen : newService now db = .ok opened) (nodes : NodesTable)
    (hnodes : db.nodes = some nodes) : nodes.hasRefBy = true := by
  cases hcolumn : nodes.hasRefBy with
  | true => rfl
  | false =>
      have hfails : newService now db =
          .error "create schema failed: no such column: ref_by" := by
        unfold newService createSchema
        simp only [hnodes, Option.getD_some, hcolumn]
        rfl
      cases hfails.symm.trans hopen

theorem targets_of_newService (hopen : newService now db = .ok opened) :
    (inodeTargets db.dentryRows).Nodup := by
  by_contra htwice
  have huniq : ¬ (db.dentries.getD DentriesTable.created).uniqInodeTarget = true :=
    fun huniq => htwice ((db.dentries.getD DentriesTable.created).targetsNodup huniq)
  have hindex : (db.dentries.getD DentriesTable.created).createUniqIndex = .error
      "create schema failed: UNIQUE constraint failed: dentries.target_inode_id" := by
    unfold DentriesTable.createUniqIndex
    rw [if_neg huniq]
    exact dif_neg htwice
  have hcolumn : (db.nodes.getD NodesTable.created).hasRefBy = true := by
    cases hnodes : db.nodes with
    | none => rfl
    | some nodes => exact column_of_newService hopen nodes hnodes
  have hfails : newService now db = .error
      "create schema failed: UNIQUE constraint failed: dentries.target_inode_id" := by
    unfold newService createSchema
    simp only [hcolumn, hindex]
    rfl
  cases hfails.symm.trans hopen

/-- A dentry that is kept as it should be was printed so. -/
theorem legacy_of_lossless {migrated : SchemaDb} (hmigrated : Migrated db migrated)
    (hdentries : opened.dentries = migrated.dentries) (hlossless : Lossless db opened)
    {row : DentryRow} (hrow : row ∈ db.dentryRows) :
    migrateTarget row.target = expectedTarget row.target := by
  obtain ⟨kept, hkept, hparent, hname, htarget, -⟩ := hlossless.dentriesKept row hrow
  obtain ⟨copied, hcopied, hcontent⟩ := exists_of_contents hmigrated.dentries hrow
  obtain ⟨hparent', hname', htarget', -⟩ := content_eq_copied_iff.mp hcontent
  rw [hdentries] at hkept
  -- There is one dentry of this name.
  have hsame : kept = copied := by
    apply List.inj_on_of_nodup_map migrated.dentries.namesNodup hkept hcopied
    rw [hparent, hname, hparent', hname']
  rw [← htarget', ← htarget, hsame]

theorem openable_of_opensLosslessly (h : OpensLosslessly now db) : Openable db := by
  obtain ⟨opened, hopen, hlossless, -⟩ := h
  have hcolumn := column_of_newService hopen
  have htargets := targets_of_newService hopen
  obtain ⟨migrated, heq, hmigrated⟩ := newService_eq now hcolumn htargets
  rw [heq] at hopen
  have hlegacy : opened.dentries = migrated.dentries →
      ∀ row ∈ db.dentryRows, row.target.targetType = .symlink →
        ∀ id, row.target.targetInodeId = some id → id < 2 ^ 63 := by
    intro hdentries row hrow
    obtain ⟨check, hpasses⟩ := db.passes_dentryRows hrow
    exact (migrateTarget_eq_iff hpasses).mp
      (legacy_of_lossless hmigrated hdentries hlossless hrow)
  rcases ensureRootDir_ok hopen with ⟨hroot, rfl⟩ | ⟨hroot, hfree, hdentries, hinserted⟩
  · rw [hmigrated.rootKey] at hroot
    exact ⟨hcolumn, htargets, hlegacy rfl, Or.inl hroot⟩
  · rw [hmigrated.rootKey] at hroot
    refine ⟨hcolumn, htargets, hlegacy hdentries, Or.inr ⟨hroot, ?_, ?_⟩⟩
    · intro row hrow
      exact hfree { row with refBy := migrated.dentries.refOf row.inodeId }
        (hmigrated.mem_nodes.mpr ⟨row, hrow, rfl⟩)
    · intro row hrow
      by_contra htargeted
      -- The root that was inserted would have to know the dentry.
      obtain ⟨row', hrow', htargets'⟩ := (hmigrated.targets_iff rootInode).mpr
        ⟨row, hrow, by simpa using htargeted⟩
      rw [← hdentries] at hrow'
      have hrefBy := (hlossless.refBy (rootRow now) hinserted row'.dentryId).mpr
        ⟨row', hrow', rfl, htargets'⟩
      cases hrefBy

theorem opensLosslessly_of_openable (now : UInt64) (h : Openable db) :
    OpensLosslessly now db := by
  obtain ⟨migrated, heq, hmigrated⟩ := newService_eq now h.refBy h.targets
  have hrefs : ∀ node ∈ migrated.nodes.rows.rows,
      node.refBy = migrated.dentries.refOf node.inodeId := by
    intro node hnode
    obtain ⟨row, hrow, rfl⟩ := hmigrated.mem_nodes.mp hnode
    rfl
  rcases h.root with hroot | ⟨hroot, hfree, huntargeted⟩
  · rw [← hmigrated.rootKey] at hroot
    have hsettled : Settled migrated := ⟨hroot, hmigrated.column, hmigrated.current, hrefs⟩
    refine ⟨migrated, ?_, ?_, newService_of_settled hsettled⟩
    · rw [heq, ensureRootDir_of_root now hroot]
    · exact hmigrated.lossless_of_nodes h.legacy rfl (fun _ hrow => hrow)
        (fun _ hrow => Or.inl hrow) hrefs
  · have hfree' : ∀ row ∈ migrated.nodes.rows.rows, row.inodeId ≠ rootInode := by
      intro node hnode
      obtain ⟨row, hrow, rfl⟩ := hmigrated.mem_nodes.mp hnode
      exact hfree row hrow
    have hroot' := hroot
    rw [← hmigrated.rootKey] at hroot'
    have hrefOf : migrated.dentries.refOf rootInode = none := by
      cases href : migrated.dentries.refOf rootInode with
      | none => rfl
      | some id =>
          obtain ⟨row', hrow', -, htargets'⟩ :=
            (refOf_eq_some_iff hmigrated.current.uniq).mp href
          obtain ⟨row, hrow, htargets⟩ :=
            (hmigrated.targets_iff rootInode).mp ⟨row', hrow', htargets'⟩
          rw [huntargeted row hrow] at htargets
          cases htargets
    have hrefs' : ∀ node ∈ (migrated.nodes.rows.insertOrReplace (rootRow now)).rows,
        node.refBy = migrated.dentries.refOf node.inodeId := by
      intro node hnode
      rcases Table.mem_insertOrReplace.mp hnode with rfl | ⟨hnode, -⟩
      · exact hrefOf.symm
      · exact hrefs node hnode
    refine ⟨_, heq.trans (ensureRootDir_insert now hroot' hfree'), ?_, ?_⟩
    · refine hmigrated.lossless_of_nodes h.legacy rfl ?_ ?_ hrefs'
      · intro node hnode
        exact Table.mem_insertOrReplace.mpr (Or.inr ⟨hnode, hfree' node hnode⟩)
      · intro node hnode
        rcases Table.mem_insertOrReplace.mp hnode with rfl | ⟨hnode, -⟩
        · exact Or.inr ⟨hroot, rfl⟩
        · exact Or.inl hnode
    · exact newService_of_settled ⟨⟨1, rfl⟩, rfl, hmigrated.current, hrefs'⟩

/-- A database is opened without loss exactly if its nodes have the column, no inode has two
dentries, symlinks store positive inodes, and the root is known or there is room for it. -/
theorem opens_losslessly_iff (now : UInt64) (db : MetaDatabase) :
    OpensLosslessly now db ↔ Openable db :=
  ⟨openable_of_opensLosslessly, opensLosslessly_of_openable now⟩

end Condition

/-- An older database: the root is there, and the nodes have no column `ref_by`. -/
def withoutRefBy : MetaDatabase where
  rootKey := some (some 1)
  nodes := some ⟨false, Table.empty.insertOrReplace (rootRow 7), by decide⟩
  dentries := some .created

/-- The column is never added. -/
theorem withoutRefBy_not_opened : ¬ OpensLosslessly 7 withoutRefBy := by
  rintro ⟨opened, hopen, -⟩
  cases column_of_newService hopen _ rfl

end FsMeta
end CyfsNdn

import CyfsNdn.FsMeta.FsMetaDb
import CyfsNdn.FsMeta.ResolvePath

/-!
# Opening a database

What `FSMetaService::new` does with a database that an earlier version may have written:
`create_schema`, `migrate_schema` and `ensure_root_dir` of `fs_meta_service.rs`.

A table is kept with its layout.  Of `nodes` this is whether there is a column `ref_by`; of
`dentries` it is the text in `sqlite_master`, which the code looks at, and what the text stands
for: whether the row id is a column of its own, and which symlinks the `CHECK` lets in.  The
rows of `dentries` are in the order of their row ids.
-/

namespace CyfsNdn
namespace FsMeta

open Relational

/-! ## Layouts -/

/-- The symlinks that the `CHECK` of `dentries` lets in: none, those that store an inode, or
those that store a path. -/
inductive SymlinkCheck where
  | none
  | legacy
  | current
deriving DecidableEq

/-- The `CHECK` of `dentries`. -/
def SymlinkCheck.passes (check : SymlinkCheck) (cols : TargetCols) : Bool :=
  match cols.targetType with
  | .inode => cols.targetInodeId.isSome && cols.targetObjId.isNone
  | .obj => cols.targetInodeId.isNone && cols.targetObjId.isSome
  | .tombstone => cols.targetInodeId.isNone && cols.targetObjId.isNone
  | .symlink =>
      match check with
      | .none => false
      | .legacy => cols.targetInodeId.isSome && cols.targetObjId.isNone
      | .current => cols.targetInodeId.isNone && cols.targetObjId.isSome

/-- `str::contains`. -/
def textContains (text part : String) : Bool := decide (part.toList <:+: text.toList)

/-- The part of a text of `dentries` that stands for the column of the row id. -/
def dentryIdPart : String := "dentry_id INTEGER PRIMARY KEY"

/-- The part that stands for the symlinks of today. -/
def symlinkPart : String :=
  "target_type = 3 AND target_inode_id IS NULL AND target_obj_id IS NOT NULL"

/-- A layout of `dentries`, told by its text. -/
structure DentriesLayout where
  ddl : String
  hasDentryId : Bool
  check : SymlinkCheck
  ddl_dentryId : textContains ddl dentryIdPart = hasDentryId
  ddl_symlink : textContains ddl symlinkPart = decide (check = .current)

theorem textContains_append (before part after : String) :
    textContains (before ++ part ++ after) part = true := by
  unfold textContains
  rw [String.toList_append, String.toList_append]
  exact decide_eq_true ⟨before.toList, after.toList, rfl⟩

theorem textContains_append_second (start part middle part' after : String) :
    textContains (start ++ part ++ (middle ++ part' ++ after)) part' = true := by
  have hassoc : start ++ part ++ (middle ++ part' ++ after) =
      start ++ part ++ middle ++ part' ++ after := by
    simp only [String.append_assoc]
  rw [hassoc]
  exact textContains_append _ part' after

/-- The text of `CREATE TABLE dentries` up to the row id. -/
def ddlStart (indent : String) : String := "CREATE TABLE dentries (\n" ++ indent

/-- The text from the row id to the symlinks. -/
def ddlColumns (indent : String) : String :=
  " AUTOINCREMENT,\n" ++
  indent ++ "parent_inode_id INTEGER NOT NULL,\n" ++
  indent ++ "name TEXT NOT NULL,\n" ++
  indent ++ "target_type INTEGER NOT NULL,\n" ++
  indent ++ "target_inode_id INTEGER,\n" ++
  indent ++ "target_obj_id BLOB,\n" ++
  indent ++ "mtime INTEGER,\n" ++
  indent ++ "UNIQUE (parent_inode_id, name),\n" ++
  indent ++ "CHECK (\n" ++
  indent ++
    "    (target_type = 0 AND target_inode_id IS NOT NULL AND target_obj_id IS NULL) OR\n" ++
  indent ++
    "    (target_type = 1 AND target_inode_id IS NULL AND target_obj_id IS NOT NULL) OR\n" ++
  indent ++
    "    (target_type = 2 AND target_inode_id IS NULL AND target_obj_id IS NULL) OR\n" ++
  indent ++ "    ("

/-- The text after the symlinks, whose last line is indented differently. -/
def ddlEnd (indent last : String) : String := ")\n" ++ indent ++ ")\n" ++ last ++ ")"

/-- The layout of today with some indentation. -/
def DentriesLayout.indented (indent last : String) : DentriesLayout where
  ddl := ddlStart indent ++ dentryIdPart ++ (ddlColumns indent ++ symlinkPart ++ ddlEnd indent last)
  hasDentryId := true
  check := .current
  ddl_dentryId := textContains_append (ddlStart indent) dentryIdPart _
  ddl_symlink := textContains_append_second (ddlStart indent) dentryIdPart (ddlColumns indent)
    symlinkPart (ddlEnd indent last)

/-- The layout of `create_schema`. -/
def DentriesLayout.created : DentriesLayout :=
  .indented "                " "            "

/-- The layout of `migrate_schema`. -/
def DentriesLayout.migrated : DentriesLayout :=
  .indented "                    " "                 "

/-! ## Tables -/

/-- `nodes`; without the column there is nothing in it. -/
structure NodesTable where
  hasRefBy : Bool
  rows : Table NodeRow NodeRow.inodeId
  refBy_none : hasRefBy = false → ∀ row ∈ rows.rows, row.refBy = none

/-- The inode of a dentry that `uniq_inode_target` has in it. -/
def DentryRow.inodeTarget (row : DentryRow) : Option IndexNodeId :=
  if row.target.targetType = .inode then row.target.targetInodeId else none

/-- The index `uniq_inode_target`. -/
def inodeTargets (rows : List DentryRow) : List IndexNodeId :=
  rows.filterMap DentryRow.inodeTarget

/-- The columns of `UNIQUE (parent_inode_id, name)`. -/
def dentryNames (rows : List DentryRow) : List (IndexNodeId × String) :=
  rows.map fun row => (row.parentInodeId, row.name)

/-- `dentries` with its constraints, and whether there is the index `uniq_inode_target`. -/
structure DentriesTable where
  layout : DentriesLayout
  rows : Table DentryRow DentryRow.dentryId
  uniqInodeTarget : Bool
  namesNodup : (dentryNames rows.rows).Nodup
  passes : ∀ row ∈ rows.rows, layout.check.passes row.target = true
  targetsNodup : uniqInodeTarget = true → (inodeTargets rows.rows).Nodup

/-- A database as it is found: the root of `kv`, if the key is there, and the tables. -/
structure MetaDatabase where
  rootKey : Option (Option Int64)
  nodes : Option NodesTable
  dentries : Option DentriesTable

/-- A database that has both tables. -/
structure SchemaDb where
  rootKey : Option (Option Int64)
  nodes : NodesTable
  dentries : DentriesTable

/-- The same, as it is found later. -/
def SchemaDb.toDatabase (db : SchemaDb) : MetaDatabase :=
  ⟨db.rootKey, some db.nodes, some db.dentries⟩

/-- `CREATE TABLE nodes`. -/
def NodesTable.created : NodesTable := ⟨true, Table.empty, fun _ => by simp⟩

/-- `CREATE TABLE dentries`. -/
def DentriesTable.created : DentriesTable where
  layout := .created
  rows := Table.empty
  uniqInodeTarget := false
  namesNodup := List.nodup_nil
  passes := by simp
  targetsNodup := fun _ => List.nodup_nil

/-! ## Creating -/

/-- `CREATE UNIQUE INDEX IF NOT EXISTS uniq_inode_target`. -/
def DentriesTable.createUniqIndex (dentries : DentriesTable) : RpcResult DentriesTable :=
  if dentries.uniqInodeTarget then .ok dentries
  else if htargets : (inodeTargets dentries.rows.rows).Nodup then
    .ok { dentries with uniqInodeTarget := true, targetsNodup := fun _ => htargets }
  else .error "create schema failed: UNIQUE constraint failed: dentries.target_inode_id"

/-- `create_schema`.  The index on `ref_by` comes before the column is added. -/
def createSchema (db : MetaDatabase) : RpcResult SchemaDb := do
  let nodes := db.nodes.getD NodesTable.created
  if nodes.hasRefBy = false then
    throw "create schema failed: no such column: ref_by"
  let dentries ← (db.dentries.getD DentriesTable.created).createUniqIndex
  return ⟨db.rootKey, nodes, dentries⟩

/-! ## Migrating -/

/-- The path of a symlink that stored an inode, `printf('legacy-inode:%lld', …)`. -/
def legacyPath (id : IndexNodeId) : List UInt8 :=
  ("legacy-inode:" ++ toString (FsMetaDb.rowid id)).toUTF8.toList

/-- The columns as they are copied. -/
def migrateTarget (cols : TargetCols) : TargetCols :=
  if cols.targetType = .symlink then
    { cols with
      targetInodeId := none
      targetObjId := cols.targetObjId.or (cols.targetInodeId.map legacyPath) }
  else cols

/-- The rows as they are copied, with new ids. -/
def copiedRows (rows : List DentryRow) : List DentryRow :=
  rows.mapIdx fun i row => { row with dentryId := i + 1, target := migrateTarget row.target }

theorem copiedRows_keysNodup (rows : List DentryRow) :
    ((copiedRows rows).map DentryRow.dentryId).Nodup := by
  have hids : (copiedRows rows).map DentryRow.dentryId =
      (List.range rows.length).map (· + 1) := by
    apply List.ext_getElem
    · simp [copiedRows]
    · intro i hi hi'
      simp [copiedRows]
  rw [hids]
  exact List.Nodup.map (fun _ _ h => Nat.succ.inj h) List.nodup_range

/-- The transaction that copies `dentries` into a new table. -/
def DentriesTable.rebuild (dentries : DentriesTable) : RpcResult DentriesTable :=
  let rows := copiedRows dentries.rows.rows
  if hpasses : ∀ row ∈ rows, SymlinkCheck.passes .current row.target = true then
    if hnames : (dentryNames rows).Nodup then
      if htargets : (inodeTargets rows).Nodup then
        .ok ⟨.migrated, ⟨rows, copiedRows_keysNodup dentries.rows.rows⟩, true, hnames, hpasses,
          fun _ => htargets⟩
      else .error "migrate schema failed: UNIQUE constraint failed: dentries.target_inode_id"
    else .error
      "migrate schema failed: UNIQUE constraint failed: dentries.parent_inode_id, dentries.name"
  else .error "migrate schema failed: CHECK constraint failed: dentries"

/-- The dentry that targets an inode, the first one. -/
def DentriesTable.refOf (dentries : DentriesTable) (id : IndexNodeId) : Option Nat :=
  (dentries.rows.rows.find? fun row => row.target.targets id).map DentryRow.dentryId

/-- `UPDATE nodes SET ref_by = …`, after which nothing is left of what was there. -/
def NodesTable.setRefBy (nodes : NodesTable) (dentries : DentriesTable) : NodesTable where
  hasRefBy := true
  rows := nodes.rows.updateWhere (fun _ => true)
    (fun row => { row with refBy := dentries.refOf row.inodeId }) fun _ => rfl
  refBy_none := by simp

/-- `ALTER TABLE nodes ADD COLUMN ref_by`, where it is missing. -/
def NodesTable.addRefBy (nodes : NodesTable) : NodesTable :=
  { nodes with hasRefBy := true, refBy_none := by simp }

/-- The copy is made where a part of the text is missing. -/
def DentriesTable.migrate (dentries : DentriesTable) : RpcResult DentriesTable :=
  let ddl := dentries.layout.ddl
  if !textContains ddl dentryIdPart || !textContains ddl symlinkPart then dentries.rebuild
  else .ok dentries

/-- `migrate_schema`. -/
def migrateSchema (db : SchemaDb) : RpcResult SchemaDb := do
  let nodes := if db.nodes.hasRefBy then db.nodes else db.nodes.addRefBy
  let dentries ← db.dentries.migrate
  return { db with nodes := nodes.setRefBy dentries, dentries := dentries }

/-- `ensure_root_dir`. -/
def ensureRootDir (now : UInt64) (db : SchemaDb) : RpcResult SchemaDb :=
  match db.rootKey with
  | some (some _) => .ok db
  | some none =>
      .error "query root failed: Invalid column type Null at index: 0, name: v_int"
  | none =>
      if (db.nodes.rows.find? rootInode).isSome then
        .error "init root node failed: UNIQUE constraint failed: nodes.inode_id"
      else
        .ok { db with
          rootKey := some (some 1)
          nodes := ⟨true, db.nodes.rows.insertOrReplace (rootRow now), by simp⟩ }

/-- `new`. -/
def newService (now : UInt64) (db : MetaDatabase) : RpcResult SchemaDb := do
  let db ← createSchema db
  let db ← migrateSchema db
  ensureRootDir now db

end FsMeta
end CyfsNdn

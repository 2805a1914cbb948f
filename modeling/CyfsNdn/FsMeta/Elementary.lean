import CyfsNdn.FsMeta.FsMetaService
import Mathlib.Logic.Relation

/-!
# What a request does to the tables

Every handler is a sequence of five kinds of changes: a new inode without a reference, a
change of the columns of one inode that keeps its reference and its revision, and the
three dentry operations.  A handler that succeeds is such a sequence, so a property of all
runs needs to be shown of these five only.
-/

namespace CyfsNdn
namespace FsMeta

open NdnLib Relational Collections Relation

/-- What a record says about its row. -/
structure ParsedAs (row : NodeRow) (node : NodeRecord) : Prop where
  inodeId : node.inodeId = row.inodeId
  refBy : node.refBy = row.refBy
  state : parseNodeState row.cols = .ok node.state
  rev : node.rev.map (fun rev => Counter.ofInt64 rev.toInt64) = row.rev
  leaseClientSession : node.leaseClientSession = row.leaseClientSession
  leaseSeq : node.leaseSeq.map (fun seq => Counter.ofInt64 seq.toInt64) = row.leaseSeq
  leaseExpireAt : node.leaseExpireAt.map UInt64.toInt64 = row.leaseExpireAt

theorem Counter.map_of_getOpt {index name : String} {cell : Option Counter}
    {n : Option UInt64} (h : Counter.getOpt index name cell = .ok n) :
    n.map (fun v => Counter.ofInt64 v.toInt64) = cell := by
  cases cell with
  | none =>
      cases h
      rfl
  | some cell =>
      obtain ⟨v, hv, rfl⟩ := except_map_eq_ok.mp h
      exact congrArg some (Counter.ofInt64_of_get hv)

/-- A row without the columns that dentry operations write. -/
def NodeRow.content (row : NodeRow) : NodeRow :=
  { row with refBy := none, rev := none, updatedAt := 0 }

namespace FsMetaDb

variable {db db' : FsMetaDb} {env : ServiceEnv}

theorem parsedAs_of_parseNode {row : NodeRow} {node : NodeRecord}
    (h : parseNode row = .ok node) : ParsedAs row node := by
  unfold parseNode at h
  simp only [except_bind_eq_ok, except_pure_eq_ok] at h
  obtain ⟨rev, hrev, leaseSeq, hseq, state, hstate, base, -, rfl⟩ := h
  refine ⟨rfl, rfl, hstate, Counter.map_of_getOpt hrev, rfl, Counter.map_of_getOpt hseq, ?_⟩
  cases row.leaseExpireAt <;> rfl

theorem exists_row_of_getInodeOr {id : IndexNodeId} {missing : String} {node : NodeRecord}
    (h : db.getInodeOr id missing = .ok node) :
    ∃ row, db.nodes.find? id = some row ∧ ParsedAs row node := by
  unfold getInodeOr at h
  obtain ⟨found, hfound, h⟩ := except_bind_eq_ok.mp h
  unfold getInode at hfound
  cases hfind : db.nodes.find? id with
  | none =>
      rw [hfind] at hfound
      cases hfound
      cases h
  | some row =>
      rw [hfind] at hfound
      obtain ⟨parsed, hparsed, rfl⟩ := except_map_eq_ok.mp hfound
      cases h
      exact ⟨row, rfl, parsedAs_of_parseNode hparsed⟩

/-- One row of `nodes` changes and nothing else. -/
structure Touch (db db' : FsMetaDb) (id : IndexNodeId) (row row' : NodeRow) : Prop where
  found : db.nodes.find? id = some row
  nodes : ∀ k, db'.nodes.find? k = if k = id then some row' else db.nodes.find? k
  dentries : db'.dentries = db.dentries
  dentrySeq : db'.dentrySeq = db.dentrySeq

theorem Touch.foundAfter {id : IndexNodeId} {row row' : NodeRow} (h : Touch db db' id row row') :
    db'.nodes.find? id = some row' := by
  rw [h.nodes, if_pos rfl]

theorem touch_updateKey {id : IndexNodeId} {row : NodeRow} {change : NodeRow → NodeRow}
    {hchange : ∀ row, (change row).inodeId = row.inodeId}
    (hfind : db.nodes.find? id = some row) :
    Touch db { db with nodes := db.nodes.updateKey id change hchange } id row (change row) := by
  refine ⟨hfind, ?_, rfl, rfl⟩
  intro k
  show (db.nodes.updateKey id change hchange).find? k = _
  rw [Table.find?_updateKey]
  by_cases hk : k = id
  · rw [if_pos hk, if_pos hk, hk, hfind]
    rfl
  · rw [if_neg hk, if_neg hk]

theorem exists_touch_of_updateInodeState {now : UInt64} {id : IndexNodeId}
    {new old : NodeState} (h : db.updateInodeState now id new old = .ok db') :
    ∃ row, row.cols = nodeStateCols old ∧ Touch db db' id row (withState now new row) := by
  unfold updateInodeState at h
  cases hfind : db.nodes.find? id with
  | none =>
      rw [hfind] at h
      cases h
  | some row =>
      rw [hfind] at h
      dsimp only at h
      split_ifs at h with hcols
      cases h
      exact ⟨row, hcols, touch_updateKey hfind⟩

/-- The rows that a successful acquisition leaves. -/
theorem exists_touch_of_acquireFileLease {now : UInt64} {id : IndexNodeId} {session : String}
    {ttl seq : UInt64} {leased : FsMetaDb}
    (h : db.acquireFileLease now id session ttl = (leased, .ok seq)) :
    ∃ row expireAt, (row.heldBy session now.toInt64 = true ∧
        Touch db leased id row (row.renewed expireAt)) ∨
      (row.heldBy session now.toInt64 = false ∧ row.leaseFree now.toInt64 = true ∧
        Touch db leased id row (row.acquired session expireAt)) := by
  unfold acquireFileLease at h
  cases hfind : db.nodes.find? id with
  | none =>
      rw [hfind] at h
      cases h
  | some row =>
      rw [hfind] at h
      dsimp only at h
      split_ifs at h with hheld hfree
      · cases (Prod.mk.inj h).1
        exact ⟨row, _, Or.inl ⟨hheld, touch_updateKey hfind⟩⟩
      · cases (Prod.mk.inj h).1
        exact ⟨row, _, Or.inr ⟨by simpa using hheld, hfree, touch_updateKey hfind⟩⟩
      · cases h

theorem exists_touch_of_onLease {id : IndexNodeId} {session : String} {leaseSeq : UInt64}
    {change : NodeRow → NodeRow} {hchange : ∀ row, (change row).inodeId = row.inodeId}
    (h : db.onLease id session leaseSeq change hchange = .ok db') :
    ∃ row, row.leaseMatches session leaseSeq = true ∧ Touch db db' id row (change row) := by
  unfold onLease at h
  cases hfind : db.nodes.find? id with
  | none =>
      rw [hfind] at h
      cases h
  | some row =>
      rw [hfind] at h
      dsimp only at h
      split_ifs at h with hmatch
      cases h
      exact ⟨row, hmatch, touch_updateKey hfind⟩

/-- Writing a record back changes what the record changed. -/
theorem touch_setInode (now : UInt64) {id : IndexNodeId} {row : NodeRow} {node : NodeRecord}
    (hfind : db.nodes.find? id = some row) (hid : node.inodeId = id) :
    Touch db (db.setInode now node) id row (nodeRow now id node) := by
  refine ⟨hfind, ?_, rfl, rfl⟩
  intro k
  show (db.nodes.insertOrReplace (nodeRow now node.inodeId node)).find? k = _
  rw [Table.find?_insertOrReplace, hid]
  rfl

/-- A new row comes from the record, every other row was there. -/
theorem find?_of_allocInode {now : UInt64} {candidates : List IndexNodeId} {node : NodeRecord}
    {id : IndexNodeId} (h : db.allocInode now candidates node = .ok (id, db')) (k : IndexNodeId) :
    db'.nodes.find? k = if k = id then some (nodeRow now id node) else db.nodes.find? k := by
  unfold allocInode at h
  split at h
  · simp only [except_bind_eq_ok, except_pure_eq_ok] at h
    obtain ⟨next, -, heq⟩ := h
    cases heq
    exact Table.find?_insertOrReplace _ _ _
  · split at h
    · cases h
    · cases h
      exact Table.find?_insertOrReplace _ _ _

theorem find?_reclaim (db : FsMetaDb) (now : UInt64) (id : IndexNodeId) :
    (db.reclaimExpiredWriteLeases now).nodes.find? id = (db.nodes.find? id).map fun row =>
      if row.leaseExpired now.toInt64 then row.reclaimed now.toInt64 else row :=
  Table.find?_updateWhere db.nodes (fun row => row.leaseExpired now.toInt64)
    (NodeRow.reclaimed now.toInt64) (fun _ => rfl) id

/-! ## What the dentry operations write in `nodes` -/

/-- Every row of the second table is a row of the first but for the columns that dentry
operations write. -/
def SameContent (db db' : FsMetaDb) : Prop :=
  ∀ id row', db'.nodes.find? id = some row' →
    ∃ row, db.nodes.find? id = some row ∧ row'.content = row.content

theorem SameContent.refl (db : FsMetaDb) : SameContent db db := fun _ row h => ⟨row, h, rfl⟩

theorem SameContent.trans {a b c : FsMetaDb} (hab : SameContent a b) (hbc : SameContent b c) :
    SameContent a c := by
  intro id row hrow
  obtain ⟨middle, hmiddle, heq⟩ := hbc id row hrow
  obtain ⟨first, hfirst, heq'⟩ := hab id middle hmiddle
  exact ⟨first, hfirst, heq.trans heq'⟩

/-- A statement that writes no other columns. -/
theorem sameContent_updateWhere {p : NodeRow → Bool} {change : NodeRow → NodeRow}
    {hchange : ∀ row, (change row).inodeId = row.inodeId}
    (hcontent : ∀ row, (change row).content = row.content) :
    SameContent db { db with nodes := db.nodes.updateWhere p change hchange } := by
  intro id row hrow
  rw [Table.find?_updateWhere, Option.map_eq_some_iff] at hrow
  obtain ⟨before, hbefore, rfl⟩ := hrow
  refine ⟨before, hbefore, ?_⟩
  split
  · exact hcontent before
  · rfl

theorem sameContent_bumpRev (now : UInt64) (parent : IndexNodeId) :
    SameContent db (db.bumpRev now parent) :=
  sameContent_updateWhere fun _ => rfl

theorem sameContent_detachRef (now : UInt64) (target : Option IndexNodeId) (dentryId : Nat) :
    SameContent db (db.detachRef now target dentryId) := by
  cases target with
  | none => exact SameContent.refl db
  | some id => exact sameContent_updateWhere fun _ => rfl

theorem sameContent_of_attachRef {now : UInt64} {target : Option IndexNodeId} {dentryId : Nat}
    (h : db.attachRef now target dentryId = .ok db') : SameContent db db' := by
  unfold attachRef at h
  split at h
  · cases h
    exact SameContent.refl db
  · split at h
    · cases h
    · split at h
      · cases h
        exact sameContent_updateWhere fun _ => rfl
      · cases h

theorem sameContent_of_createDentry {now : UInt64} {parent : IndexNodeId} {name : String}
    {target : DentryTarget} {rev : UInt64}
    (h : db.createDentry now parent name target rev = .ok db') : SameContent db db' := by
  unfold createDentry at h
  simp only [guard_eq_ok, except_bind_eq_ok, except_pure_eq_ok] at h
  obtain ⟨-, -, -, inserted, hinserted, attached, hattached, rfl⟩ := h
  have hinsert : SameContent db inserted := by
    unfold insertDentry at hinserted
    split at hinserted
    · cases hinserted
    · cases hinserted
      exact SameContent.refl _
  exact hinsert.trans ((sameContent_of_attachRef hattached).trans (sameContent_bumpRev now parent))

theorem sameContent_of_deleteDentry {now : UInt64} {parent : IndexNodeId} {name : String}
    {rev : UInt64} {removed : Bool}
    (h : db.deleteDentry now parent name rev = .ok (removed, db')) : SameContent db db' := by
  unfold deleteDentry at h
  obtain ⟨-, -, h⟩ := except_bind_eq_ok.mp h
  split at h
  · cases h
    exact SameContent.refl db
  · rename_i old hold
    cases h
    refine SameContent.trans ?_ (sameContent_bumpRev now parent)
    have hremoved : SameContent db (db.removeDentryRow old.dentryId) := SameContent.refl _
    split
    · exact hremoved.trans (sameContent_detachRef now _ _)
    · exact hremoved

theorem sameContent_of_replaceTarget {now : UInt64} {parent : IndexNodeId} {name : String}
    {old new : DentryTarget} {rev : UInt64} {changed : Bool}
    (h : db.replaceTarget now parent name old new rev = .ok (changed, db')) :
    SameContent db db' := by
  unfold replaceTarget at h
  obtain ⟨-, -, h⟩ := except_bind_eq_ok.mp h
  split at h
  · cases h
  · rename_i row hrow
    simp only [guard_eq_ok] at h
    obtain ⟨-, h⟩ := h
    split at h
    · cases h
      exact SameContent.refl db
    · simp only [except_bind_eq_ok, except_pure_eq_ok] at h
      obtain ⟨updated, hupdated, attached, hattached, heq⟩ := h
      cases heq
      have hupdate : SameContent db updated := by
        unfold updateDentryTarget at hupdated
        split at hupdated
        · cases hupdated
        · cases hupdated
          exact SameContent.refl _
      refine hupdate.trans (SameContent.trans ?_
        ((sameContent_of_attachRef hattached).trans (sameContent_bumpRev now parent)))
      split
      · exact sameContent_detachRef now _ _
      · exact SameContent.refl updated

/-! ## The five kinds of changes -/

/-- A change of the tables that a handler is made of. -/
inductive Elementary : FsMetaDb → FsMetaDb → Prop
  | alloc {db db' : FsMetaDb} {now : UInt64} {candidates : List IndexNodeId}
      {node : NodeRecord} {id : IndexNodeId} (refBy : node.refBy = none)
      (storable : node.state.Storable)
      (h : db.allocInode now candidates node = .ok (id, db')) : Elementary db db'
  | touch {db db' : FsMetaDb} {id : IndexNodeId} {row row' : NodeRow}
      (h : Touch db db' id row row') (refBy : row'.refBy = row.refBy)
      (rev : row'.rev = row.rev) (clean : row.cols.Clean → row'.cols.Clean) :
      Elementary db db'
  | create {db db' : FsMetaDb} {now : UInt64} {parent : IndexNodeId} {name : String}
      {target : DentryTarget} {rev : UInt64}
      (h : db.createDentry now parent name target rev = .ok db') : Elementary db db'
  | delete {db db' : FsMetaDb} {now : UInt64} {parent : IndexNodeId} {name : String}
      {rev : UInt64} {removed : Bool}
      (h : db.deleteDentry now parent name rev = .ok (removed, db')) : Elementary db db'
  | replace {db db' : FsMetaDb} {now : UInt64} {parent : IndexNodeId} {name : String}
      {old new : DentryTarget} {rev : UInt64} {changed : Bool}
      (h : db.replaceTarget now parent name old new rev = .ok (changed, db')) :
      Elementary db db'

/-- A sequence of changes. -/
def Chain : FsMetaDb → FsMetaDb → Prop := ReflTransGen Elementary

theorem Chain.refl (db : FsMetaDb) : Chain db db := ReflTransGen.refl

theorem Chain.single (h : Elementary db db') : Chain db db' := ReflTransGen.single h

theorem Chain.trans {a b c : FsMetaDb} (hab : Chain a b) (hbc : Chain b c) : Chain a c :=
  ReflTransGen.trans hab hbc

theorem chain_of_upsertDentry {now : UInt64} {parent : IndexNodeId} {name : String}
    {target : DentryTarget} {rev : UInt64}
    (h : db.upsertDentry now parent name target rev = .ok db') : Chain db db' := by
  unfold upsertDentry at h
  obtain ⟨existing, -, h⟩ := except_bind_eq_ok.mp h
  cases existing with
  | none => exact Chain.single (.create h)
  | some existing =>
      obtain ⟨⟨changed, replaced⟩, hreplace, h⟩ := except_bind_eq_ok.mp h
      cases h
      exact Chain.single (.replace hreplace)

theorem chain_of_allocAt {parent : IndexNodeId} {parentRev : UInt64} {name : String}
    {node : NodeRecord} {id : IndexNodeId} (hrefBy : node.refBy = none)
    (hstorable : node.state.Storable)
    (h : db.allocAt env parent parentRev name node = .ok (id, db')) : Chain db db' := by
  unfold allocAt at h
  simp only [except_bind_eq_ok, except_pure_eq_ok] at h
  obtain ⟨⟨newId, allocated⟩, halloc, linked, hlinked, heq⟩ := h
  cases heq
  exact (Chain.single (.alloc hrefBy hstorable halloc)).trans (chain_of_upsertDentry hlinked)

theorem storable_newDir {baseObjId : Option ObjId} {rev : Option UInt64} :
    (newNode .dirNormal baseObjId rev).state.Storable := trivial

theorem storable_newFile {baseObjId : Option ObjId} {rev : Option UInt64} :
    (newNode .fileNormal baseObjId rev).state.Storable := trivial

theorem chain_of_putNewName {parent : IndexNodeId} {name : String} {target : DentryTarget}
    (h : db.putNewName env parent name target = .ok db') : Chain db db' := by
  unfold putNewName at h
  simp only [except_bind_eq_ok] at h
  obtain ⟨parentNode, -, -, -, h⟩ := h
  exact chain_of_upsertDentry h

theorem chain_of_setFile {parent : IndexNodeId} {name : String} {objId : ObjId}
    (h : db.setFile env parent name objId = .ok db') : Chain db db' := by
  unfold setFile at h
  simp only [guard_eq_ok, except_bind_eq_ok, except_pure_eq_ok] at h
  obtain ⟨-, linked, hlinked, -, -, rfl⟩ := h
  exact chain_of_putNewName hlinked

theorem chain_of_setDir {parent : IndexNodeId} {name : String} {dirObjId : ObjId}
    (h : db.setDir env parent name dirObjId = .ok db') : Chain db db' := by
  unfold setDir at h
  simp only [guard_eq_ok] at h
  exact chain_of_putNewName h.2.2

theorem chain_of_symlink {parent : IndexNodeId} {name target : String}
    (h : db.symlink env parent name target = .ok db') : Chain db db' := by
  unfold symlink at h
  simp only [guard_eq_ok] at h
  exact chain_of_putNewName h.2.2

theorem chain_of_createDir {parent : IndexNodeId} {name : String}
    (h : db.createDir env parent name = .ok db') : Chain db db' := by
  unfold createDir at h
  simp only [guard_eq_ok, except_bind_eq_ok, except_pure_eq_ok] at h
  obtain ⟨-, parentNode, -, -, -, ⟨id, linked⟩, hlinked, rfl⟩ := h
  exact chain_of_allocAt rfl storable_newDir hlinked

theorem chain_of_applyMovePlan {plan : MovePlan} (h : db.applyMovePlan env plan = .ok db') :
    Chain db db' := by
  unfold applyMovePlan at h
  simp only [guard_eq_ok, except_bind_eq_ok] at h
  obtain ⟨-, -, -, -, -, -, -, removed, hremoved, h⟩ := h
  exact (chain_of_upsertDentry hremoved).trans (chain_of_upsertDentry h)

/-! ## Writing files -/

theorem chain_of_acquireFileLease {now : UInt64} {id : IndexNodeId} {session : String}
    {ttl seq : UInt64} {leased : FsMetaDb}
    (h : db.acquireFileLease now id session ttl = (leased, .ok seq)) : Chain db leased := by
  obtain ⟨row, expireAt, ⟨-, htouch⟩ | ⟨-, -, htouch⟩⟩ := exists_touch_of_acquireFileLease h
  · exact Chain.single (.touch htouch rfl rfl fun hclean => hclean)
  · exact Chain.single (.touch htouch rfl rfl fun hclean => hclean)

theorem chain_of_updateInodeState {now : UInt64} {id : IndexNodeId} {new old : NodeState}
    (h : db.updateInodeState now id new old = .ok db') (hnew : new.Storable) :
    Chain db db' := by
  obtain ⟨row, -, htouch⟩ := exists_touch_of_updateInodeState h
  exact Chain.single (.touch htouch rfl rfl fun _ => clean_nodeStateCols hnew)

theorem chain_of_releaseFileLease {id : IndexNodeId} {session : String} {leaseSeq : UInt64}
    (h : db.releaseFileLease id session leaseSeq = .ok db') : Chain db db' := by
  obtain ⟨row, -, htouch⟩ := exists_touch_of_onLease h
  exact Chain.single (.touch htouch rfl rfl fun hclean => hclean)

theorem chain_of_truncateBase {flag : OpenWriteFlag} {opened : OpenedFile}
    (h : db.truncateBase env flag opened = .ok db') : Chain db db' := by
  unfold truncateBase at h
  split at h
  · obtain ⟨node, hnode, h⟩ := except_bind_eq_ok.mp h
    rw [except_pure_eq_ok] at h
    subst h
    obtain ⟨row, hfind, hparsed⟩ := exists_row_of_getInodeOr hnode
    have hid : node.inodeId = opened.fileId :=
      hparsed.inodeId.trans (Table.key_of_find? hfind)
    refine Chain.single (.touch (touch_setInode env.now hfind hid) hparsed.refBy hparsed.rev ?_)
    intro hclean
    exact clean_nodeStateCols (hclean.storable hparsed.state)
  · cases h
    exact Chain.refl db

theorem chain_of_openTarget {parent : IndexNodeId} {parentRev : UInt64} {name : String}
    {flag : OpenWriteFlag} {baseObj : Option ObjId} {dentry : Option DentryRecord}
    {opened : OpenedFile}
    (h : db.openTarget env parent parentRev name flag baseObj dentry = .ok (opened, db')) :
    Chain db db' := by
  cases dentry with
  | none =>
      simp only [openTarget, except_bind_eq_ok, except_pure_eq_ok] at h
      obtain ⟨⟨id, linked⟩, hlinked, heq⟩ := h
      cases heq
      exact chain_of_allocAt rfl storable_newFile hlinked
  | some dentry =>
      obtain ⟨dentryId, dentryParent, dentryName, target⟩ := dentry
      cases target with
      | tombstone =>
          simp only [openTarget, except_bind_eq_ok, except_pure_eq_ok] at h
          obtain ⟨⟨id, linked⟩, hlinked, heq⟩ := h
          cases heq
          exact chain_of_allocAt rfl storable_newFile hlinked
      | indexNodeId id =>
          simp only [openTarget, except_bind_eq_ok, except_pure_eq_ok] at h
          obtain ⟨node, -, -, -, heq⟩ := h
          cases heq
          exact Chain.refl db
      | objId objId =>
          simp only [openTarget, guard_eq_ok, except_bind_eq_ok, except_pure_eq_ok] at h
          obtain ⟨-, ⟨id, linked⟩, hlinked, heq⟩ := h
          cases heq
          exact chain_of_allocAt rfl storable_newFile hlinked
      | symLink path => cases h

theorem chain_of_resumeWriter {buffer : FileBufferService} {instanceId handle : String}
    {opened : OpenedFile} {result : String}
    (h : db.resumeWriter env buffer instanceId opened handle = .ok (result, db')) :
    Chain db db' := by
  unfold resumeWriter at h
  split at h
  · cases h
  · simp only [except_bind_eq_ok, except_pure_eq_ok] at h
    obtain ⟨seq, hseq, updated, hupdated, heq⟩ := h
    cases heq
    exact (chain_of_acquireFileLease (Prod.ext rfl hseq)).trans
      (chain_of_updateInodeState hupdated trivial)

theorem chain_of_startWriter {buffer : FileBufferService} {instanceId name : String}
    {parent : IndexNodeId} {flag : OpenWriteFlag} {expectedSize : Option UInt64}
    {opened : OpenedFile} {result : String}
    (h : db.startWriter env buffer instanceId parent name flag expectedSize opened =
      .ok (result, db')) : Chain db db' := by
  unfold startWriter at h
  obtain ⟨seq, hseq, h⟩ := except_bind_eq_ok.mp h
  split at h
  · cases h
  · simp only [except_bind_eq_ok, except_pure_eq_ok] at h
    obtain ⟨truncated, htruncated, updated, hupdated, heq⟩ := h
    cases heq
    exact (chain_of_acquireFileLease (Prod.ext rfl hseq)).trans
      ((chain_of_truncateBase htruncated).trans (chain_of_updateInodeState hupdated trivial))

/-- The two ends of a successful open. -/
theorem exists_of_openFileWriter {parent : IndexNodeId} {name : String} {flag : OpenWriteFlag}
    {expectedSize : Option UInt64} {handle : String}
    (h : db.openFileWriter env parent name flag expectedSize = .ok (handle, db')) :
    ∃ buffer instanceId parentRev baseObj dentry opened found,
      (∃ missing node, db.parentForWrite parent missing = .ok node) ∧
      db.getDentry parent name = .ok dentry ∧
      db.openTarget env parent parentRev name flag baseObj dentry = .ok (opened, found) ∧
      ((∃ resume, found.resumeWriter env buffer instanceId opened resume = .ok (handle, db')) ∨
        found.startWriter env buffer instanceId parent name flag expectedSize opened =
          .ok (handle, db')) := by
  unfold openFileWriter at h
  split at h
  · rename_i buffer _
    split at h
    · rename_i instanceId _
      simp only [guard_eq_ok, except_bind_eq_ok] at h
      obtain ⟨-, parentNode, hparent, dentry, hdentry, baseObj, -, -, -, ⟨opened, found⟩,
        hfound, resume, -, h⟩ := h
      refine ⟨buffer, instanceId, _, baseObj, dentry, opened, found, ⟨_, _, hparent⟩, hdentry,
        hfound, ?_⟩
      cases resume with
      | none => exact Or.inr h
      | some resume => exact Or.inl ⟨resume, h⟩
    · cases h
  · cases h

theorem chain_of_openFileWriter {parent : IndexNodeId} {name : String} {flag : OpenWriteFlag}
    {expectedSize : Option UInt64} {handle : String}
    (h : db.openFileWriter env parent name flag expectedSize = .ok (handle, db')) :
    Chain db db' := by
  obtain ⟨buffer, instanceId, parentRev, baseObj, dentry, opened, found, -, -, hfound, h⟩ :=
    exists_of_openFileWriter h
  refine (chain_of_openTarget hfound).trans ?_
  obtain ⟨resume, h⟩ | h := h
  · exact chain_of_resumeWriter h
  · exact chain_of_startWriter h

/-- The record that a close read, and the swap that it made. -/
theorem exists_of_closeCommit {fileId : IndexNodeId} {lease : Option (String × UInt64)}
    (h : db.closeCommit env fileId = .ok (lease, db')) :
    ∃ node fbHandle, db.getInodeOr fileId "inode not found" = .ok node ∧
      writableHandle node.state = .ok fbHandle ∧
      db.updateInodeState env.now fileId (.cooling fbHandle env.now) node.state = .ok db' ∧
      lease = leaseOf node := by
  unfold closeCommit at h
  split at h
  · simp only [guard_eq_ok, except_bind_eq_ok, except_pure_eq_ok] at h
    obtain ⟨node, hnode, -, fbHandle, hhandle, -, -, updated, hupdated, heq⟩ := h
    cases heq
    exact ⟨node, fbHandle, hnode, hhandle, hupdated, rfl⟩
  · cases h

theorem chain_of_closeCommit {fileId : IndexNodeId} {lease : Option (String × UInt64)}
    (h : db.closeCommit env fileId = .ok (lease, db')) : Chain db db' := by
  obtain ⟨node, fbHandle, -, -, hupdated, -⟩ := exists_of_closeCommit h
  exact chain_of_updateInodeState hupdated trivial

theorem chain_closeFileWriter (db : FsMetaDb) (env : ServiceEnv) (fileId : IndexNodeId) :
    Chain db (db.closeFileWriter env fileId).1 := by
  unfold closeFileWriter
  split
  · exact Chain.refl db
  · rename_i closed hclosed
    exact chain_of_closeCommit hclosed
  · rename_i session seq closed hclosed
    split
    · exact chain_of_closeCommit hclosed
    · rename_i released hreleased
      exact (chain_of_closeCommit hclosed).trans (chain_of_releaseFileLease hreleased)

end FsMetaDb

end FsMeta
end CyfsNdn

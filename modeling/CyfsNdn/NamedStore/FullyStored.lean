import CyfsNdn.NamedStore.Availability
import CyfsNdn.Transition.Search

/-!
# Whether everything below an object is stored

`is_object_fully_stored` searches the stored objects below an object and marks none as
seen.  Objects and links are stored as they are given, so they can have cycles, and the
search then does not end.  It is exact where it visits no cycle and can read what is
there: an object that is stored but cannot be read is an error, not an answer.

The items of a directory come in an order that is a function of its text, any one.  The
source loads them into a `HashMap`, whose order is new at every load, so a directory that
is met twice in one search may be walked in two orders.  What is below an object, and so
whether everything is in place and can be read, does not depend on the order; where the
search goes before it stops does.
-/

namespace CyfsNdn
namespace NamedStore

open NdnLib Relational Transition Relation

/-- An object in the search, with its text where its parent holds it. -/
abbrev SearchNode := ObjId × Option String

namespace NamedDataMgr

section Nodes

variable (crates : Crates) (mgr : NamedDataMgr)

/-! ## What the search is about -/

/-- The text of an object: inlined in its parent, or stored. -/
def nodeText (node : SearchNode) : Option String :=
  node.2.or (mgr.queryObjectById crates node.1)

/-- The children of an object: the list that a chunk is the same as, the elements of a
list, the content of a file and the items of a directory. -/
inductive ChildOf : SearchNode → SearchNode → Prop
  | sameAs {node : SearchNode} {chunkListId : ObjId} (chunk : node.1.isChunk = true)
      (state : (mgr.queryChunkState crates (ChunkId.fromObjId node.1)).1 = .sameAs chunkListId) :
      ChildOf node (chunkListId, none)
  | element {node : SearchNode} {objStr : String} {chunkList : ChunkList} {chunkId : ChunkId}
      (list : node.1.isChunkList = true) (text : mgr.nodeText crates node = some objStr)
      (read : ChunkList.fromJson crates objStr = .ok chunkList) (mem : chunkId ∈ chunkList.body) :
      ChildOf node (chunkId.toObjId, none)
  | content {node : SearchNode} {objStr content : String} {contentObjId : ObjId}
      (file : node.1.isFileObject = true) (text : mgr.nodeText crates node = some objStr)
      (read : loadNamedObj crates crates.jsonFileContent objStr = .ok content)
      (named : content ≠ "" ∧ ObjId.new crates content = .ok contentObjId) :
      ChildOf node (contentObjId, none)
  | item {node : SearchNode} {objStr : String} {items : List SimpleMapItem}
      {item : SimpleMapItem} {child : SearchNode} (dir : node.1.isDirObject = true)
      (text : mgr.nodeText crates node = some objStr)
      (read : loadNamedObj crates crates.jsonDirItems objStr = .ok items) (mem : item ∈ items)
      (named : dirChild crates item = .ok child) : ChildOf node child

/-- A chunk is complete, linked, or the same as a list; any other object is inlined in its
parent or stored. -/
def InPlace (node : SearchNode) : Prop :=
  if node.1.isChunk then
    match (mgr.queryChunkState crates (ChunkId.fromObjId node.1)).1 with
    | .completed | .localLink _ | .sameAs _ => True
    | _ => False
  else (mgr.nodeText crates node).isSome

/-- The text of a list, a file or a directory is read, and names its children. -/
def Readable (node : SearchNode) : Prop :=
  node.1.isChunk = false → ∀ objStr, mgr.nodeText crates node = some objStr →
    (node.1.isChunkList = true → ∃ list, ChunkList.fromJson crates objStr = .ok list) ∧
    (node.1.isFileObject = true → ∃ content,
      loadNamedObj crates crates.jsonFileContent objStr = .ok content ∧
        (content = "" ∨ ∃ contentObjId, ObjId.new crates content = .ok contentObjId)) ∧
    (node.1.isDirObject = true → ∃ items,
      loadNamedObj crates crates.jsonDirItems objStr = .ok items ∧
        ∀ item ∈ items, ∃ child, dirChild crates item = .ok child)

/-- Everything below the object is there. -/
def AllInPlace (node : SearchNode) : Prop :=
  ∀ below, ReflTransGen (ChildOf crates mgr) node below → mgr.InPlace crates below

/-- Everything below the object can be read. -/
def AllReadable (node : SearchNode) : Prop :=
  ∀ below, ReflTransGen (ChildOf crates mgr) node below → mgr.Readable crates below

/-- The search ends, and its answer is yes exactly if everything is there. -/
def CompletenessExact (node : SearchNode) : Prop :=
  ∃ fuel answer, mgr.isObjectFullyStored crates fuel node.1 node.2 = some answer ∧
    (answer = .ok true ↔ mgr.AllInPlace crates node)

/-! ## The search -/

/-- What the search does at an object. -/
def expand : Expand SearchNode NdnError := fun (objId, objStrHint) =>
  if objId.isChunk then
    match (mgr.queryChunkState crates (ChunkId.fromObjId objId)).1 with
    | .completed | .localLink _ => .inl (.ok true)
    | .sameAs chunkListId => .inr [.ok (chunkListId, none)]
    | _ => .inl (.ok false)
  else if objId.isChunkList then
    match mgr.getObjectUnlessGiven crates objId objStrHint with
    | .error e => .inl (.error e)
    | .ok objStr =>
        match ChunkList.fromJson crates objStr with
        | .error e => .inl (.error e)
        | .ok chunkList => .inr (chunkList.body.map fun chunkId => .ok (chunkId.toObjId, none))
  else
    match objStrHint.or (mgr.queryObjectById crates objId) with
    | none => .inl (.ok false)
    | some objStr =>
        if objId.isFileObject then
          match loadNamedObj crates crates.jsonFileContent objStr with
          | .error e => .inl (.error e)
          | .ok content =>
              if content = "" then .inl (.ok true)
              else
                match ObjId.new crates content with
                | .error e => .inl (.error e)
                | .ok contentObjId => .inr [.ok (contentObjId, none)]
        else if objId.isDirObject then
          match loadNamedObj crates crates.jsonDirItems objStr with
          | .error e => .inl (.error e)
          | .ok items => .inr (items.map (dirChild crates))
        else .inl (.ok true)

end Nodes

section Search

variable {crates : Crates} {mgr : NamedDataMgr}

/-- The loop over the children is the one of a search. -/
theorem allStored_eq_allOf (check : ObjId → Option String → Option (NdnResult Bool))
    (children : List (NdnResult SearchNode)) :
    allStored check children = allOf (fun node => check node.1 node.2) children := by
  induction children with
  | nil => rfl
  | cons c rest ih =>
      cases c with
      | error e => rfl
      | ok node =>
          obtain ⟨objId, hint⟩ := node
          unfold allStored allOf
          rw [ih]
          dsimp only
          rcases check objId hint with _ | (e | (_ | _)) <;> rfl

/-- A single child is the whole answer. -/
theorem allOf_singleton {check : SearchNode → Option (NdnResult Bool)} (node : SearchNode) :
    allOf check [.ok node] = check node := by
  unfold allOf
  split
  next h => rw [h]; rfl
  · rfl

/-- `is_object_fully_stored` is a search. -/
theorem isObjectFullyStored_eq_search (fuel : Nat) (node : SearchNode) :
    mgr.isObjectFullyStored crates fuel node.1 node.2 = search (mgr.expand crates) fuel node := by
  induction fuel generalizing node with
  | zero => rfl
  | succ fuel ih =>
      obtain ⟨objId, hint⟩ := node
      have hcheck : (fun node : SearchNode =>
          mgr.isObjectFullyStored crates fuel node.1 node.2) = search (mgr.expand crates) fuel :=
        funext ih
      have hall : ∀ children, allStored (mgr.isObjectFullyStored crates fuel) children =
          allOf (search (mgr.expand crates) fuel) children := by
        intro children
        rw [allStored_eq_allOf, hcheck]
      unfold isObjectFullyStored search expand
      dsimp only
      by_cases hchunk : objId.isChunk = true
      · rw [if_pos hchunk, if_pos hchunk]
        cases (mgr.queryChunkState crates (ChunkId.fromObjId objId)).1 with
        | sameAs chunkListId => exact (ih (chunkListId, none)).trans (allOf_singleton _).symm
        | _ => rfl
      rw [if_neg hchunk, if_neg hchunk]
      by_cases hlist : objId.isChunkList = true
      · rw [if_pos hlist, if_pos hlist]
        cases mgr.getObjectUnlessGiven crates objId hint with
        | error e => rfl
        | ok objStr =>
            dsimp only
            cases ChunkList.fromJson crates objStr with
            | error e => rfl
            | ok chunkList => exact hall _
      rw [if_neg hlist, if_neg hlist]
      cases hint.or (mgr.queryObjectById crates objId) with
      | none => rfl
      | some objStr =>
          dsimp only
          by_cases hfile : objId.isFileObject = true
          · rw [if_pos hfile, if_pos hfile]
            cases loadNamedObj crates crates.jsonFileContent objStr with
            | error e => rfl
            | ok content =>
                dsimp only
                by_cases hempty : content = ""
                · rw [if_pos hempty, if_pos hempty]
                rw [if_neg hempty, if_neg hempty]
                cases ObjId.new crates content with
                | error e => rfl
                | ok contentObjId =>
                    exact (ih (contentObjId, none)).trans (allOf_singleton _).symm
          rw [if_neg hfile, if_neg hfile]
          by_cases hdir : objId.isDirObject = true
          · rw [if_pos hdir, if_pos hdir]
            cases loadNamedObj crates crates.jsonDirItems objStr with
            | error e => rfl
            | ok items => exact hall _
          · rw [if_neg hdir, if_neg hdir]

/-! ## The nodes of the search -/

/-- What is not a chunk is found by both lookups alike. -/
theorem toOption_getObject {objId : ObjId} (hchunk : objId.isChunk = false) :
    (mgr.getObject crates objId).toOption = mgr.queryObjectById crates objId := by
  have hloop : ∀ storeIds lastError,
      (mgr.getObjectFrom crates objId storeIds lastError).toOption =
        mgr.queryObjectByIdFrom crates objId storeIds := by
    intro storeIds
    induction storeIds with
    | nil => exact fun _ => rfl
    | cons storeId rest ih =>
        intro lastError
        unfold getObjectFrom queryObjectByIdFrom
        cases mgr.stores storeId with
        | none => exact ih _
        | some store =>
            rw [Option.bind_some]
            dsimp only
            have hstore : (store.getObject crates objId).toOption =
                store.queryObjectById crates objId := by
              unfold NamedStore.getObject NamedStore.queryObjectById
              rw [hchunk]
              split
              · contradiction
              rcases store.db.getObject crates objId with (_ | _ | _) | _ <;>
                first | rfl | (dsimp only; split_ifs <;> rfl)
            cases hget : store.getObject crates objId with
            | ok obj =>
                rw [hget] at hstore
                rw [← hstore]
                rfl
            | error e =>
                rw [hget] at hstore
                rw [← hstore]
                cases e <;> exact ih _
  unfold getObject queryObjectById
  split_ifs with hversions
  · rw [hversions]
    rfl
  · exact hloop _ _

theorem toOption_getObjectUnlessGiven {node : SearchNode} (hchunk : node.1.isChunk = false) :
    (mgr.getObjectUnlessGiven crates node.1 node.2).toOption = mgr.nodeText crates node := by
  obtain ⟨objId, hint⟩ := node
  unfold getObjectUnlessGiven nodeText
  cases hint with
  | none => exact toOption_getObject hchunk
  | some objStr => rfl

/-- The kinds of objects exclude each other. -/
theorem kinds_of_isChunkList {objId : ObjId} (h : objId.isChunkList = true) :
    objId.isChunk = false ∧ objId.isFileObject = false ∧ objId.isDirObject = false := by
  have htype : objId.objType = "clist" := of_decide_eq_true h
  unfold ObjId.isChunk ObjId.isFileObject ObjId.isDirObject
  rw [htype]
  decide

theorem kinds_of_isFileObject {objId : ObjId} (h : objId.isFileObject = true) :
    objId.isChunk = false ∧ objId.isChunkList = false ∧ objId.isDirObject = false := by
  have htype : objId.objType = "cyfile" := of_decide_eq_true h
  unfold ObjId.isChunk ObjId.isChunkList ObjId.isDirObject
  rw [htype]
  decide

theorem kinds_of_isDirObject {objId : ObjId} (h : objId.isDirObject = true) :
    objId.isChunk = false ∧ objId.isChunkList = false ∧ objId.isFileObject = false := by
  have htype : objId.objType = "cydir" := of_decide_eq_true h
  unfold ObjId.isChunk ObjId.isChunkList ObjId.isFileObject
  rw [htype]
  decide

/-! ### What the search does at each kind of object -/

theorem expand_chunk {node : SearchNode} (h : node.1.isChunk = true) :
    mgr.expand crates node =
      match (mgr.queryChunkState crates (ChunkId.fromObjId node.1)).1 with
      | .completed | .localLink _ => .inl (.ok true)
      | .sameAs chunkListId => .inr [.ok (chunkListId, none)]
      | _ => .inl (.ok false) := by
  obtain ⟨objId, hint⟩ := node
  unfold expand
  dsimp only
  rw [if_pos h]

/-- What is not there ends the search. -/
theorem expand_of_not_inPlace {node : SearchNode} (hchunk : node.1.isChunk = false)
    (h : mgr.nodeText crates node = none) :
    ∃ result, mgr.expand crates node = .inl result ∧ result ≠ .ok true := by
  have hlookup : (mgr.getObjectUnlessGiven crates node.1 node.2).toOption =
      mgr.nodeText crates node := toOption_getObjectUnlessGiven hchunk
  obtain ⟨objId, hint⟩ := node
  unfold expand
  dsimp only at hchunk hlookup ⊢
  rw [hchunk, if_neg (by simp)]
  by_cases hlist : objId.isChunkList = true
  · rw [if_pos hlist]
    rw [h] at hlookup
    cases hget : mgr.getObjectUnlessGiven crates objId hint with
    | ok objStr =>
        rw [hget] at hlookup
        cases hlookup
    | error e => exact ⟨.error e, rfl, by simp⟩
  · have hnone : hint.or (mgr.queryObjectById crates objId) = none := h
    rw [if_neg hlist, hnone]
    exact ⟨.ok false, rfl, by simp⟩

theorem expand_list {node : SearchNode} {objStr : String} (h : node.1.isChunkList = true)
    (htext : mgr.nodeText crates node = some objStr) :
    mgr.expand crates node =
      match ChunkList.fromJson crates objStr with
      | .error e => .inl (.error e)
      | .ok chunkList =>
          .inr (chunkList.body.map fun chunkId => .ok (chunkId.toObjId, none)) := by
  obtain ⟨hchunk, -, -⟩ := kinds_of_isChunkList h
  have hlookup : (mgr.getObjectUnlessGiven crates node.1 node.2).toOption =
      mgr.nodeText crates node := toOption_getObjectUnlessGiven hchunk
  obtain ⟨objId, hint⟩ := node
  unfold expand
  dsimp only at h hchunk hlookup ⊢
  rw [hchunk, if_neg (by simp), if_pos h]
  rw [htext] at hlookup
  cases hget : mgr.getObjectUnlessGiven crates objId hint with
  | error e =>
      rw [hget] at hlookup
      cases hlookup
  | ok text =>
      rw [hget] at hlookup
      obtain rfl := Option.some.inj hlookup
      rfl

theorem expand_file {node : SearchNode} {objStr : String} (h : node.1.isFileObject = true)
    (htext : mgr.nodeText crates node = some objStr) :
    mgr.expand crates node =
      match loadNamedObj crates crates.jsonFileContent objStr with
      | .error e => .inl (.error e)
      | .ok content =>
          if content = "" then .inl (.ok true)
          else
            match ObjId.new crates content with
            | .error e => .inl (.error e)
            | .ok contentObjId => .inr [.ok (contentObjId, none)] := by
  obtain ⟨hchunk, hlist, -⟩ := kinds_of_isFileObject h
  obtain ⟨objId, hint⟩ := node
  have hor : hint.or (mgr.queryObjectById crates objId) = some objStr := htext
  unfold expand
  dsimp only at h hchunk hlist ⊢
  rw [hchunk, if_neg (by simp), hlist, if_neg (by simp), hor]
  dsimp only
  rw [if_pos h]

theorem expand_dir {node : SearchNode} {objStr : String} (h : node.1.isDirObject = true)
    (htext : mgr.nodeText crates node = some objStr) :
    mgr.expand crates node =
      match loadNamedObj crates crates.jsonDirItems objStr with
      | .error e => .inl (.error e)
      | .ok items => .inr (items.map (dirChild crates)) := by
  obtain ⟨hchunk, hlist, hfile⟩ := kinds_of_isDirObject h
  obtain ⟨objId, hint⟩ := node
  have hor : hint.or (mgr.queryObjectById crates objId) = some objStr := htext
  unfold expand
  dsimp only at h hchunk hlist hfile ⊢
  rw [hchunk, if_neg (by simp), hlist, if_neg (by simp), hor]
  dsimp only
  rw [hfile, if_neg (by simp), if_pos h]

theorem expand_other {node : SearchNode} {objStr : String} (hchunk : node.1.isChunk = false)
    (hlist : node.1.isChunkList = false) (hfile : node.1.isFileObject = false)
    (hdir : node.1.isDirObject = false) (htext : mgr.nodeText crates node = some objStr) :
    mgr.expand crates node = .inl (.ok true) := by
  obtain ⟨objId, hint⟩ := node
  have hor : hint.or (mgr.queryObjectById crates objId) = some objStr := htext
  unfold expand
  dsimp only at hchunk hlist hfile hdir ⊢
  rw [hchunk, if_neg (by simp), hlist, if_neg (by simp), hor]
  dsimp only
  rw [hfile, if_neg (by simp), hdir, if_neg (by simp)]

/-! ### Children and fine nodes -/

/-- The children that are searched are the children. -/
theorem child_iff {node child : SearchNode} :
    Child (mgr.expand crates) node child ↔ ChildOf crates mgr node child := by
  constructor
  · rintro ⟨children, hexpand, hmem⟩
    by_cases hchunk : node.1.isChunk = true
    · rw [expand_chunk hchunk] at hexpand
      split at hexpand
      · cases hexpand
      · cases hexpand
      next chunkListId hstate =>
        obtain rfl := Sum.inr.inj hexpand
        obtain rfl := Except.ok.inj (List.mem_singleton.mp hmem)
        exact .sameAs hchunk hstate
      · cases hexpand
    rw [Bool.not_eq_true] at hchunk
    cases htext : mgr.nodeText crates node with
    | none =>
        obtain ⟨result, hresult, -⟩ := expand_of_not_inPlace hchunk htext
        rw [hresult] at hexpand
        cases hexpand
    | some objStr =>
        by_cases hlist : node.1.isChunkList = true
        · rw [expand_list hlist htext] at hexpand
          split at hexpand
          · cases hexpand
          next chunkList hread =>
            obtain rfl := Sum.inr.inj hexpand
            obtain ⟨chunkId, hchunkId, hchild⟩ := List.mem_map.mp hmem
            obtain rfl := Except.ok.inj hchild
            exact .element hlist htext hread hchunkId
        by_cases hfile : node.1.isFileObject = true
        · rw [expand_file hfile htext] at hexpand
          split at hexpand
          · cases hexpand
          next content hread =>
            split_ifs at hexpand with hempty
            split at hexpand
            · cases hexpand
            next contentObjId hnew =>
              obtain rfl := Sum.inr.inj hexpand
              obtain rfl := Except.ok.inj (List.mem_singleton.mp hmem)
              exact .content hfile htext hread ⟨hempty, hnew⟩
        by_cases hdir : node.1.isDirObject = true
        · rw [expand_dir hdir htext] at hexpand
          split at hexpand
          · cases hexpand
          next items hread =>
            obtain rfl := Sum.inr.inj hexpand
            obtain ⟨item, hitem, hchild⟩ := List.mem_map.mp hmem
            exact .item hdir htext hread hitem hchild
        · rw [Bool.not_eq_true] at hlist hfile hdir
          rw [expand_other hchunk hlist hfile hdir htext] at hexpand
          cases hexpand
  · intro h
    cases h with
    | sameAs hchunk hstate =>
        refine ⟨[.ok (_, none)], ?_, List.mem_singleton.mpr rfl⟩
        rw [expand_chunk hchunk, hstate]
    | @element objStr chunkList chunkId hlist htext hread hmem =>
        refine ⟨chunkList.body.map fun chunkId => .ok (chunkId.toObjId, none), ?_,
          List.mem_map.mpr ⟨chunkId, hmem, rfl⟩⟩
        rw [expand_list hlist htext, hread]
    | content hfile htext hread hnamed =>
        refine ⟨[.ok (_, none)], ?_, List.mem_singleton.mpr rfl⟩
        rw [expand_file hfile htext, hread]
        dsimp only
        rw [if_neg hnamed.1, hnamed.2]
    | item hdir htext hread hmem hnamed =>
        refine ⟨_, ?_, List.mem_map.mpr ⟨_, hmem, hnamed⟩⟩
        rw [expand_dir hdir htext, hread]

/-- A node is fine to the search if it is there and can be read. -/
theorem fine_iff {node : SearchNode} :
    Fine (mgr.expand crates) node ↔ mgr.InPlace crates node ∧ mgr.Readable crates node := by
  unfold Fine InPlace
  by_cases hchunk : node.1.isChunk = true
  · have hreadable : mgr.Readable crates node := by
      intro hno
      rw [hchunk] at hno
      cases hno
    rw [expand_chunk hchunk, if_pos hchunk]
    cases (mgr.queryChunkState crates (ChunkId.fromObjId node.1)).1 <;> simp [hreadable]
  rw [if_neg hchunk]
  rw [Bool.not_eq_true] at hchunk
  cases htext : mgr.nodeText crates node with
  | none =>
      obtain ⟨result, hresult, hne⟩ := expand_of_not_inPlace hchunk htext
      rw [hresult]
      simp [hne]
  | some objStr =>
      have hreadable : mgr.Readable crates node ↔
          (node.1.isChunkList = true → ∃ list, ChunkList.fromJson crates objStr = .ok list) ∧
          (node.1.isFileObject = true → ∃ content,
            loadNamedObj crates crates.jsonFileContent objStr = .ok content ∧
              (content = "" ∨ ∃ contentObjId, ObjId.new crates content = .ok contentObjId)) ∧
          (node.1.isDirObject = true → ∃ items,
            loadNamedObj crates crates.jsonDirItems objStr = .ok items ∧
              ∀ item ∈ items, ∃ child, dirChild crates item = .ok child) := by
        unfold Readable
        simp [hchunk, htext]
      rw [hreadable]
      simp only [Option.isSome_some, true_and]
      by_cases hlist : node.1.isChunkList = true
      · obtain ⟨-, hfile, hdir⟩ := kinds_of_isChunkList hlist
        rw [expand_list hlist htext, hlist, hfile, hdir]
        cases ChunkList.fromJson crates objStr <;> simp
      by_cases hfile : node.1.isFileObject = true
      · obtain ⟨-, -, hdir⟩ := kinds_of_isFileObject hfile
        rw [Bool.not_eq_true] at hlist
        rw [expand_file hfile htext, hlist, hfile, hdir]
        cases loadNamedObj crates crates.jsonFileContent objStr with
        | error e => simp
        | ok content =>
            by_cases hempty : content = ""
            · simp [hempty]
            · cases hnew : ObjId.new crates content <;> simp [hempty, hnew]
      by_cases hdir : node.1.isDirObject = true
      · rw [Bool.not_eq_true] at hlist hfile
        rw [expand_dir hdir htext, hlist, hfile, hdir]
        cases loadNamedObj crates crates.jsonDirItems objStr <;> simp
      · rw [Bool.not_eq_true] at hlist hfile hdir
        rw [expand_other hchunk hlist hfile hdir htext, hlist, hfile, hdir]
        simp

theorem sound_iff_below {node : SearchNode} :
    Sound (mgr.expand crates) node ↔
      Acc (fun child node => ChildOf crates mgr node child) node ∧
        mgr.AllInPlace crates node ∧ mgr.AllReadable crates node := by
  have hchild : Child (mgr.expand crates) = ChildOf crates mgr := by
    funext node child
    exact propext child_iff
  unfold Sound AllInPlace AllReadable
  simp only [hchild, fine_iff]
  exact and_congr_right fun _ => forall₂_and

/-! ## The answer -/

/-- The answer is exact where no chain of visits goes on for ever, and where everything
that is there can be read if nothing is missing. -/
theorem completenessExact_iff (node : SearchNode) :
    mgr.CompletenessExact crates node ↔
      Acc (fun child node => Visits (mgr.expand crates) node child) node ∧
        (mgr.AllInPlace crates node → mgr.AllReadable crates node) := by
  unfold CompletenessExact
  simp only [isObjectFullyStored_eq_search]
  constructor
  · rintro ⟨fuel, answer, hanswer, hexact⟩
    refine ⟨acc_visits_of_search hanswer, fun hplace => ?_⟩
    rw [hexact.mpr hplace] at hanswer
    exact (sound_iff_below.mp (sound_of_search hanswer)).2.2
  · rintro ⟨hends, hreadable⟩
    obtain ⟨fuel, answer, hanswer⟩ := exists_search_iff.mpr hends
    refine ⟨fuel, answer, hanswer, ?_⟩
    constructor
    · rintro rfl
      exact (sound_iff_below.mp (sound_of_search hanswer)).2.1
    · intro hplace
      have hfine : ∀ below, ReflTransGen (Child (mgr.expand crates)) node below →
          Fine (mgr.expand crates) below := by
        intro below hbelow
        rw [show Child (mgr.expand crates) = ChildOf crates mgr by
          funext node child; exact propext child_iff] at hbelow
        exact fine_iff.mpr ⟨hplace below hbelow, hreadable hplace below hbelow⟩
      obtain ⟨fuel', htrue⟩ := (sound_of_fine hends hfine).search
      exact search_unique hanswer htrue

end Search

/-! ## A chunk that is the same as a list of itself -/

/-- A store in which the chunk `abc` is the same as a list whose only element it is. -/
def cyclicStore : NamedStore :=
  run (NamedStore.step sampleCrates) (NamedStore.fromConfig false)
    [⟨0, .putObject NamedLocalStoreDb.sampleChunkList NamedLocalStoreDb.sampleChunkListJson⟩,
      ⟨0, .addChunkBySameAs abcChunk 3 NamedLocalStoreDb.sampleChunkList⟩]

theorem cyclicStore_visits :
    Visits ((single cyclicStore).expand sampleCrates) (abcChunk.toObjId, none)
        (NamedLocalStoreDb.sampleChunkList, none) ∧
      Visits ((single cyclicStore).expand sampleCrates) (NamedLocalStoreDb.sampleChunkList, none)
        (abcChunk.toObjId, none) :=
  ⟨⟨[], [], by decide, by simp⟩, ⟨[], [], by decide, by simp⟩⟩

/-- The search does not end for this chunk. -/
theorem cyclicStore_never_ends :
    (∀ fuel, (single cyclicStore).isObjectFullyStored sampleCrates fuel abcChunk.toObjId none =
        none) ∧
      ¬ (single cyclicStore).CompletenessExact sampleCrates (abcChunk.toObjId, none) := by
  have hends : ¬ ∃ fuel r, search ((single cyclicStore).expand sampleCrates) fuel
      (abcChunk.toObjId, none) = some r := by
    rw [exists_search_iff]
    exact not_acc_of_cycle (.head cyclicStore_visits.1 (.single cyclicStore_visits.2))
  have hnone : ∀ fuel, (single cyclicStore).isObjectFullyStored sampleCrates fuel
      abcChunk.toObjId none = none := by
    intro fuel
    rw [isObjectFullyStored_eq_search fuel (abcChunk.toObjId, none)]
    cases hsearch : search ((single cyclicStore).expand sampleCrates) fuel
        (abcChunk.toObjId, none) with
    | none => rfl
    | some r => exact absurd ⟨fuel, r, hsearch⟩ hends
  refine ⟨hnone, ?_⟩
  rintro ⟨fuel, answer, hanswer, -⟩
  rw [hnone fuel] at hanswer
  cases hanswer

end NamedDataMgr

end NamedStore
end CyfsNdn

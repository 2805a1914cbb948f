import CyfsNdn.NamedStore.Cascade
import CyfsNdn.NdnLib.DirIdentity
import CyfsNdn.NdnLib.ObjectContent

/-!
# The children that are protected

`parse_obj_refs_tx` reads the children of a stored object, which its referrers protect
from the collector.  It reads a directory, a file or a chunk list as a whole and from
JSON only: where one item is malformed, or the object is stored as a JWT, it finds no
child at all.
-/

namespace CyfsNdn
namespace NamedStore

open NdnLib Relational Collections

/-! ## What an object string says -/

/-- The text is read as JSON; every other text is read as a JWT. -/
def IsJson (objStr : String) : Prop :=
  (objStr.toList.dropWhile isWhitespace).head? ∈ [some '\x7b', some '[']

instance (objStr : String) : Decidable (IsJson objStr) :=
  inferInstanceAs (Decidable (_ ∈ [some '\x7b', some '[']))

/-- `load_named_object_from_obj_str`: the value of a JSON text or of a JWT. -/
def storedValue (web : WebCrates) (jwtValue : String → Option Json) (objStr : String) :
    Option Json :=
  if IsJson objStr then web.jsonParse objStr else jwtValue objStr

/-- The id of one item of a directory, if it can be computed. -/
def itemId (web : WebCrates) (item : Json) : Option ObjId :=
  (SimpleMapItem.fromValue web item).bind fun item =>
    (item.getObjId web.toCrates).toOption.map Prod.fst

/-- The id of one element of a chunk list, if it is one. -/
def elementId (crates : Crates) (element : Json) : Option ObjId :=
  element.asStr.bind fun text => (ChunkId.new crates text).toOption.map ChunkId.toObjId

/-- The ids of the children of a directory, a file or a chunk list that can be
computed, each for itself. -/
def computableChildren (web : WebCrates) (objType : String) (value : Json) : List ObjId :=
  if objType = "cydir" then
    match value.get "body" with
    | some (.object fields) => fields.filterMap fun e => itemId web e.2
    | _ => []
  else if objType = "cyfile" then
    match value.get "content" with
    | some (.string content) => (ObjId.new web.toCrates content).toOption.toList
    | some _ => []
    | none => (ObjId.new web.toCrates "").toOption.toList
  else
    match value with
    | .array elements => elements.filterMap (elementId web.toCrates)
    | _ => []

/-- What the JSON readers are relied on for: a directory and a file that are read from a
text are the ones in its value, and a value that is a map or a list starts with a
bracket. -/
structure ReadsValues (web : WebCrates) (dids : DidCrate) : Prop where
  laws : web.Lawful
  dirItems : ∀ text items, web.jsonDirItems text = some items → ∃ value dir,
    web.jsonParse text = some value ∧ DirObject.fromValue web dids value = some dir ∧
      items.Perm (dir.objectMap.entries.map Prod.snd)
  fileContent : ∀ text content, web.jsonFileContent text = some content → ∃ fields,
    web.jsonParse text = some (.object fields) ∧
      (fields.lookup "content" = some (.string content) ∨
        fields.lookup "content" = none ∧ content = "")
  bracket : ∀ text value, web.jsonParse text = some value →
    (∃ fields, value = .object fields) ∨ (∃ items, value = .array items) → IsJson text

/-! ## The statement and its condition -/

/-- The object is stored with this text. -/
def Stored (crates : Crates) (db : NamedLocalStoreDb) (objId : ObjId) (text : String) : Prop :=
  ∃ row, db.objects.find? (objId.toString crates) = some row ∧ row.state = .present ∧
    row.objType = objId.objType ∧ row.objData = text

/-- Every child of the stored object whose id can be computed is found. -/
def FindsChildren (web : WebCrates) (jwtValue : String → Option Json)
    (db : NamedLocalStoreDb) (objId : ObjId) (text : String) : Prop :=
  ∀ value, storedValue web jwtValue text = some value →
    ∀ id ∈ computableChildren web objId.objType value, id ∈ db.parseObjRefsTx web.toCrates objId

/-- If the object is stored as a JWT, the children are the ones that are found where the
same value is stored as JSON. -/
def FindsSameInJwt (web : WebCrates) (jwtValue : String → Option Json)
    (db : NamedLocalStoreDb) (objId : ObjId) (text : String) : Prop :=
  ¬ IsJson text → ∀ value, jwtValue text = some value →
    ∀ db' text', Stored web.toCrates db' objId text' → IsJson text' →
      web.jsonParse text' = some value →
      ∀ id, id ∈ db.parseObjRefsTx web.toCrates objId ↔
        id ∈ db'.parseObjRefsTx web.toCrates objId

/-- The text is JSON, is read as an object of its type, and every child has an id.  An
element of a chunk list also has to carry its length. -/
def WellFormed (web : WebCrates) (objType text : String) : Prop :=
  if objType = "cydir" then
    ∃ items, web.jsonDirItems text = some items ∧
      ∀ item ∈ items, ∃ id objStr, item.getObjId web.toCrates = .ok (id, objStr)
  else if objType = "cyfile" then
    ∃ content id, web.jsonFileContent text = some content ∧
      ObjId.new web.toCrates content = .ok id
  else
    ∃ texts, web.jsonStringArray text = some texts ∧
      ∀ element ∈ texts, ∃ chunkId, ChunkId.new web.toCrates element = .ok chunkId ∧
        (chunkId.getLength web.toCrates).isSome

/-- No child has an id that can be computed. -/
def NoChildren (web : WebCrates) (jwtValue : String → Option Json) (objType text : String) :
    Prop :=
  ∀ value, storedValue web jwtValue text = some value →
    computableChildren web objType value = []

section Children

variable {web : WebCrates} {dids : DidCrate} {jwtValue : String → Option Json}

/-! ## Reading the whole object -/

theorem mem_elements {crates : Crates} {elements : List Json} {id : ObjId} :
    id ∈ elements.filterMap (elementId crates) ↔
      ∃ element ∈ elements, ∃ text, element.asStr = some text ∧
        ∃ chunkId, ChunkId.new crates text = .ok chunkId ∧ chunkId.toObjId = id := by
  simp only [List.mem_filterMap, elementId, Option.bind_eq_some_iff, Option.map_eq_some_iff,
    toOption_eq_some_iff]

theorem itemId_eq_some {item : Json} {id : ObjId} :
    itemId web item = some id ↔ ∃ read objStr, SimpleMapItem.fromValue web item = some read ∧
      read.getObjId web.toCrates = .ok (id, objStr) := by
  unfold itemId
  simp only [Option.bind_eq_some_iff, Option.map_eq_some_iff, toOption_eq_some_iff]
  constructor
  · rintro ⟨read, hread, ⟨id', objStr⟩, hid, rfl⟩
    exact ⟨read, objStr, hread, hid⟩
  · rintro ⟨read, objStr, hread, hid⟩
    exact ⟨read, hread, ⟨id, objStr⟩, hid, rfl⟩

/-- The items of a map that was read are the fields that were read. -/
theorem mem_of_asMap {α : Type} {read : Json → Option α} {fields : List (String × Json)}
    {names : StringMap α} (h : Json.asMap read (.object fields) = some names) {item : α} :
    item ∈ names.entries.map Prod.snd ↔ ∃ e ∈ fields, read e.2 = some item := by
  change StringMap.ofFields read fields = some names at h
  unfold StringMap.ofFields at h
  split at h
  · cases h
  next entries hentries =>
  split at h
  · obtain rfl := Option.some.inj h
    have hall := mapM_eq_some_iff_forall₂.mp hentries
    constructor
    · intro hitem
      obtain ⟨entry, hentry, rfl⟩ := List.mem_map.mp hitem
      obtain ⟨e, he, hread⟩ := exists_mem_left_of_forall₂ hall hentry
      obtain ⟨value, hvalue, rfl⟩ := Option.map_eq_some_iff.mp hread
      exact ⟨e, he, hvalue⟩
    · rintro ⟨e, he, hread⟩
      obtain ⟨entry, hentry, hitem⟩ := exists_mem_right_of_forall₂ hall he
      rw [hread, Option.map_some] at hitem
      obtain rfl := Option.some.inj hitem
      exact List.mem_map.mpr ⟨_, hentry, rfl⟩
  · cases h

/-- The items of a directory that was read are the ones in the body of its value. -/
theorem mem_items_iff {value : Json} {dir : DirObject dids}
    (h : DirObject.fromValue web dids value = some dir) {id : ObjId} :
    id ∈ computableChildren web "cydir" value ↔
      ∃ item ∈ dir.objectMap.entries.map Prod.snd, ∃ objStr,
        item.getObjId web.toCrates = .ok (id, objStr) := by
  cases value with
  | object fields =>
      obtain ⟨-, -, -, -, -, hbody⟩ := DirObject.fromFields_eq_some_iff.mp h
      have hget : (Json.object fields).get "body" = fields.lookup "body" := rfl
      unfold computableChildren
      rw [if_pos rfl, hget]
      cases hlookup : fields.lookup "body" with
      | none =>
          rw [hlookup] at hbody
          have hempty : dir.objectMap = .empty := (Option.some.inj hbody).symm
          simp [hempty, StringMap.empty]
      | some body =>
          rw [hlookup] at hbody
          change Json.asMap _ body = _ at hbody
          cases body with
          | object bodyFields =>
              simp only [mem_of_asMap hbody, List.mem_filterMap, itemId_eq_some]
              constructor
              · rintro ⟨e, he, item, objStr, hitem, hid⟩
                exact ⟨item, ⟨e, he, hitem⟩, objStr, hid⟩
              · rintro ⟨item, ⟨e, he, hitem⟩, objStr, hid⟩
                exact ⟨e, he, item, objStr, hitem, hid⟩
          | _ => cases hbody
  | _ => cases h

/-- What is found in a text is what its value says. -/
theorem mem_children_iff (reads : ReadsValues web dids) {objId : ObjId} {text : String}
    {known : KnownStandardObject}
    (hknown : KnownStandardObject.fromObjData web.toCrates objId text = .ok known)
    {ids : List ObjId} (hids : known.getChildObjs web.toCrates = .ok ids) :
    IsJson text ∧ ∃ value, web.jsonParse text = some value ∧
      ∀ id, id ∈ ids ↔ id ∈ computableChildren web objId.objType value := by
  unfold KnownStandardObject.fromObjData at hknown
  split_ifs at hknown with hdir hfile hlist
  · -- a directory: every item has an id
    split at hknown
    · cases hknown
    next items hitems =>
    obtain rfl := Except.ok.inj hknown
    obtain ⟨value, dir, hparse, hread, hperm⟩ := reads.dirItems text items hitems
    have hobject : ∃ fields, value = .object fields := by
      cases value with
      | object fields => exact ⟨fields, rfl⟩
      | _ => cases hread
    refine ⟨reads.bracket text value hparse (.inl hobject), value, hparse, fun id => ?_⟩
    rw [hdir, mem_items_iff hread]
    have hall := mapM_eq_ok_iff_forall₂.mp hids
    constructor
    · intro hid
      obtain ⟨item, hitem, hnamed⟩ := exists_mem_left_of_forall₂ hall hid
      refine ⟨item, hperm.mem_iff.mp hitem, ?_⟩
      cases hobj : item.getObjId web.toCrates with
      | error e =>
          rw [hobj] at hnamed
          cases hnamed
      | ok pair =>
          rw [hobj] at hnamed
          exact ⟨pair.2, by rw [← Except.ok.inj hnamed]⟩
    · rintro ⟨item, hitem, objStr, hid⟩
      obtain ⟨id', hid', hnamed⟩ :=
        exists_mem_right_of_forall₂ hall (hperm.mem_iff.mpr hitem)
      rw [hid] at hnamed
      obtain rfl := Except.ok.inj hnamed
      exact hid'
  · -- a file: its content is an id
    split at hknown
    · cases hknown
    next content hcontent =>
    obtain rfl := Except.ok.inj hknown
    obtain ⟨fields, hparse, hfield⟩ := reads.fileContent text content hcontent
    refine ⟨reads.bracket text _ hparse (.inl ⟨fields, rfl⟩), _, hparse, fun id => ?_⟩
    have hget : (Json.object fields).get "content" = fields.lookup "content" := rfl
    have hcomputable : computableChildren web objId.objType (.object fields) =
        (ObjId.new web.toCrates content).toOption.toList := by
      unfold computableChildren
      rw [if_neg hdir, if_pos hfile, hget]
      rcases hfield with hfield | ⟨hfield, rfl⟩ <;> rw [hfield]
    rw [hcomputable]
    cases hnew : ObjId.new web.toCrates content with
    | error e =>
        simp only [KnownStandardObject.getChildObjs, hnew] at hids
        cases hids
    | ok contentId =>
        simp only [KnownStandardObject.getChildObjs, hnew] at hids
        obtain rfl := Except.ok.inj hids
        simp [Except.toOption]
  · -- a chunk list: every element is the id of a chunk
    split at hknown
    · cases hknown
    next list hread =>
    obtain rfl := Except.ok.inj hknown
    obtain rfl := Except.ok.inj hids
    unfold ChunkList.fromJson at hread
    split at hread
    · cases hread
    next texts htexts =>
    split at hread
    · cases hread
    next chunks hchunks =>
    have hbody : list.body = chunks := by
      unfold ChunkList.fromChunkList at hread
      split at hread
      · cases hread
      · rw [← Except.ok.inj hread]
    rw [reads.laws.jsonStringArray_eq] at htexts
    obtain ⟨value, hparse, harray⟩ := Option.bind_eq_some_iff.mp htexts
    cases value with
    | array elements =>
        refine ⟨reads.bracket text _ hparse (.inr ⟨elements, rfl⟩), _, hparse, fun id => ?_⟩
        have helements : computableChildren web objId.objType (.array elements) =
            elements.filterMap (elementId web.toCrates) := by
          unfold computableChildren
          rw [if_neg hdir, if_neg hfile]
        have hstrings := mapM_eq_some_iff_forall₂.mp harray
        have hall := mapM_eq_ok_iff_forall₂.mp hchunks
        rw [helements, mem_elements, hbody, List.mem_map]
        constructor
        · rintro ⟨chunkId, hchunk, rfl⟩
          obtain ⟨element, helement, hnew⟩ := exists_mem_left_of_forall₂ hall hchunk
          obtain ⟨json, hjson, hstr⟩ := exists_mem_left_of_forall₂ hstrings helement
          exact ⟨json, hjson, element, hstr, chunkId, hnew, rfl⟩
        · rintro ⟨json, hjson, element, hstr, chunkId, hnew, rfl⟩
          obtain ⟨element', helement, hstr'⟩ := exists_mem_right_of_forall₂ hstrings hjson
          rw [hstr] at hstr'
          obtain rfl := Option.some.inj hstr'
          obtain ⟨chunkId', hchunk, hnew'⟩ := exists_mem_right_of_forall₂ hall helement
          rw [hnew] at hnew'
          obtain rfl := Except.ok.inj hnew'
          exact ⟨_, hchunk, rfl⟩
    | _ => cases harray

/-- A list is a chunk list exactly if every element is a chunk id with a length. -/
theorem exists_fromChunkList_iff {crates : Crates} {chunks : List ChunkId} :
    (∃ list, ChunkList.fromChunkList crates chunks = .ok list) ↔
      ∀ chunkId ∈ chunks, (chunkId.getLength crates).isSome := by
  have hlengths : (∃ sizes, chunks.mapM (·.getLength crates) = some sizes) ↔
      ∀ chunkId ∈ chunks, (chunkId.getLength crates).isSome := by
    simp only [exists_mapM_eq_some_iff, Option.isSome_iff_exists]
  rw [← hlengths]
  unfold ChunkList.fromChunkList
  cases chunks.mapM (·.getLength crates) <;> simp

/-- An object is read as a whole exactly if it is well formed. -/
theorem exists_children_iff {objId : ObjId} {text : String}
    (htype : objId.objType ∈ ["cydir", "cyfile", "clist"]) :
    (∃ known ids, KnownStandardObject.fromObjData web.toCrates objId text = .ok known ∧
        known.getChildObjs web.toCrates = .ok ids) ↔
      WellFormed web objId.objType text := by
  unfold KnownStandardObject.fromObjData WellFormed
  by_cases hdir : objId.objType = "cydir"
  · rw [if_pos hdir, if_pos hdir]
    cases web.jsonDirItems text with
    | none => simp
    | some items =>
        have hall : (∃ ids, (items.mapM fun item =>
            (item.getObjId web.toCrates).map Prod.fst) = .ok ids) ↔
            ∀ item ∈ items, ∃ id objStr, item.getObjId web.toCrates = .ok (id, objStr) := by
          rw [exists_mapM_eq_ok_iff]
          refine forall₂_congr fun item _ => ?_
          cases item.getObjId web.toCrates with
          | error e => simp [Except.map]
          | ok pair =>
              obtain ⟨id, objStr⟩ := pair
              simp [Except.map]
        simp only [Option.some.injEq, exists_eq_left', Except.ok.injEq, ← hall]
        constructor
        · rintro ⟨known, ids, rfl, hids⟩
          exact ⟨ids, hids⟩
        · rintro ⟨ids, hids⟩
          exact ⟨_, ids, rfl, hids⟩
  rw [if_neg hdir, if_neg hdir]
  by_cases hfile : objId.objType = "cyfile"
  · rw [if_pos hfile, if_pos hfile]
    cases web.jsonFileContent text with
    | none => simp
    | some content =>
        simp only [Except.ok.injEq, Option.some.injEq, KnownStandardObject.getChildObjs]
        constructor
        · rintro ⟨known, ids, rfl, hids⟩
          dsimp only at hids
          split at hids
          · cases hids
          next contentId hnew => exact ⟨content, contentId, rfl, hnew⟩
        · rintro ⟨content, id, rfl, hnew⟩
          refine ⟨_, [id], rfl, ?_⟩
          dsimp only
          rw [hnew]
  rw [if_neg hfile, if_neg hfile, if_pos (by simp_all)]
  unfold ChunkList.fromJson
  cases web.jsonStringArray text with
  | none => simp
  | some texts =>
      dsimp only
      constructor
      · rintro ⟨known, ids, hknown, -⟩
        refine ⟨texts, rfl, fun element helement => ?_⟩
        split at hknown
        · cases hknown
        next list hlist =>
        split at hlist
        · cases hlist
        next chunks hchunks =>
        obtain ⟨chunkId, hchunk, hnew⟩ :=
          exists_mem_right_of_forall₂ (mapM_eq_ok_iff_forall₂.mp hchunks) helement
        exact ⟨chunkId, hnew, exists_fromChunkList_iff.mp ⟨list, hlist⟩ chunkId hchunk⟩
      · rintro ⟨texts', htexts, hall⟩
        obtain rfl := Option.some.inj htexts
        obtain ⟨chunks, hchunks⟩ := exists_mapM_eq_ok_iff.mpr fun element helement =>
          (hall element helement).imp fun _ h => h.1
        have hlengths : ∀ chunkId ∈ chunks, (chunkId.getLength web.toCrates).isSome := by
          intro chunkId hchunk
          obtain ⟨element, helement, hnew⟩ :=
            exists_mem_left_of_forall₂ (mapM_eq_ok_iff_forall₂.mp hchunks) hchunk
          obtain ⟨chunkId', hnew', hlength⟩ := hall element helement
          rw [hnew] at hnew'
          exact Except.ok.inj hnew' ▸ hlength
        obtain ⟨list, hlist⟩ := exists_fromChunkList_iff.mpr hlengths
        refine ⟨.chunkList list, _, ?_, rfl⟩
        rw [hchunks]
        dsimp only
        rw [hlist]

/-! ## The stored object -/

/-- The children of a stored object are the ones that its text is read for, or none. -/
theorem parseObjRefsTx_of_stored {crates : Crates} {db : NamedLocalStoreDb} {objId : ObjId}
    {text : String} (htype : objId.objType ∈ ["cydir", "cyfile", "clist"])
    (hstored : Stored crates db objId text) :
    db.parseObjRefsTx crates objId =
      if text = "" then []
      else
        match KnownStandardObject.fromObjData crates objId text with
        | .ok known => (known.getChildObjs crates).toOption.getD []
        | .error _ => [] := by
  obtain ⟨row, hrow, hstate, hobjType, rfl⟩ := hstored
  have hchunk : objId.isChunk = false := by
    unfold ObjId.isChunk
    simp only [List.mem_cons, List.not_mem_nil, or_false] at htype
    rcases htype with htype | htype | htype <;> rw [htype] <;> decide
  have hne : row.objType ≠ "" := by
    rw [hobjType]
    intro hempty
    rw [hempty] at htype
    revert htype
    decide
  unfold NamedLocalStoreDb.parseObjRefsTx
  dsimp only
  rw [hrow, Option.filter_some, if_pos (by simpa using hstate), Option.bind_some, hchunk]
  dsimp only [NamedLocalStoreDb.knownChildren]
  by_cases hempty : row.objData = ""
  · rw [if_pos (.inr hempty), if_pos hempty]
    rfl
  · rw [if_neg (by simp [hne, hempty]), if_neg hempty]
    cases KnownStandardObject.fromObjData crates objId row.objData <;> rfl

/-- An object that is not well formed, or is not JSON, has no children to the store. -/
theorem parseObjRefsTx_eq_nil {db : NamedLocalStoreDb} {objId : ObjId} {text : String}
    (htype : objId.objType ∈ ["cydir", "cyfile", "clist"])
    (hstored : Stored web.toCrates db objId text)
    (h : ¬ WellFormed web objId.objType text) : db.parseObjRefsTx web.toCrates objId = [] := by
  rw [parseObjRefsTx_of_stored htype hstored]
  split_ifs with hempty
  · rfl
  cases hknown : KnownStandardObject.fromObjData web.toCrates objId text with
  | error e => rfl
  | ok known =>
      cases hids : known.getChildObjs web.toCrates with
      | error e =>
          dsimp only
          rw [hids]
          rfl
      | ok ids => exact absurd ((exists_children_iff htype).mp ⟨known, ids, hknown, hids⟩) h

/-- The children of a well-formed object are found. -/
theorem WellFormed.mem_iff (reads : ReadsValues web dids) {db : NamedLocalStoreDb}
    {objId : ObjId} {text : String} (htype : objId.objType ∈ ["cydir", "cyfile", "clist"])
    (hstored : Stored web.toCrates db objId text) (h : WellFormed web objId.objType text) :
    IsJson text ∧ ∃ value, web.jsonParse text = some value ∧
      ∀ id, id ∈ db.parseObjRefsTx web.toCrates objId ↔
        id ∈ computableChildren web objId.objType value := by
  obtain ⟨known, ids, hknown, hids⟩ := (exists_children_iff htype).mpr h
  obtain ⟨hjson, value, hparse, hmem⟩ := mem_children_iff reads hknown hids
  have hne : text ≠ "" := by
    rintro rfl
    revert hjson
    decide
  refine ⟨hjson, value, hparse, fun id => ?_⟩
  rw [parseObjRefsTx_of_stored htype hstored, if_neg hne, hknown]
  dsimp only
  rw [hids]
  exact hmem id

/-- All children that can be computed are found, in both forms, exactly if the object is
well-formed JSON or has no such child. -/
theorem parseObjRefsTx_complete_iff (reads : ReadsValues web dids) {db : NamedLocalStoreDb}
    {objId : ObjId} {text : String} (htype : objId.objType ∈ ["cydir", "cyfile", "clist"])
    (hstored : Stored web.toCrates db objId text) :
    FindsChildren web jwtValue db objId text ∧ FindsSameInJwt web jwtValue db objId text ↔
      WellFormed web objId.objType text ∨ NoChildren web jwtValue objId.objType text := by
  constructor
  · rintro ⟨hfinds, -⟩
    by_cases hformed : WellFormed web objId.objType text
    · exact .inl hformed
    · refine .inr fun value hvalue => List.eq_nil_iff_forall_not_mem.mpr fun id hid => ?_
      have hmem := hfinds value hvalue id hid
      rw [parseObjRefsTx_eq_nil htype hstored hformed] at hmem
      cases hmem
  · rintro (hformed | hnone)
    · obtain ⟨hjson, value, hparse, hmem⟩ := hformed.mem_iff reads htype hstored
      refine ⟨fun value' hvalue' id hid => ?_, fun hjwt => absurd hjson hjwt⟩
      unfold storedValue at hvalue'
      rw [if_pos hjson, hparse] at hvalue'
      obtain rfl := Option.some.inj hvalue'
      exact (hmem id).mpr hid
    · refine ⟨fun value hvalue id hid => ?_, ?_⟩
      · rw [hnone value hvalue] at hid
        cases hid
      · intro hjwt value hvalue db' text' hstored' hjson' hparse' id
        have hempty : computableChildren web objId.objType value = [] :=
          hnone value (by rw [storedValue, if_neg hjwt, hvalue])
        have hnot : ¬ WellFormed web objId.objType text :=
          fun hformed => hjwt (hformed.mem_iff reads htype hstored).1
        rw [parseObjRefsTx_eq_nil htype hstored hnot]
        by_cases hformed' : WellFormed web objId.objType text'
        · obtain ⟨-, value', hvalue', hmem⟩ := hformed'.mem_iff reads htype hstored'
          rw [hparse'] at hvalue'
          obtain rfl := Option.some.inj hvalue'
          rw [hmem, hempty]
        · rw [parseObjRefsTx_eq_nil htype hstored' hformed']

end Children

/-! ## A chunk list with a malformed element -/

/-- A chunk list of the chunk `abc` and of an element that is no identifier. -/
def spoiledListJson : String :=
  "[\"mix256:03ba7816bf8f01cfea414140de5dae2223b00361a396177a9cb410ff61f20015ad\",\"x\"]"

/-- A store that holds the list. -/
def spoiledListDb : NamedLocalStoreDb :=
  NamedLocalStoreDb.empty.setObject sampleWeb.toCrates 0 ⟨"clist", [1]⟩ "clist" spoiledListJson

theorem stored_spoiledList :
    Stored sampleWeb.toCrates spoiledListDb ⟨"clist", [1]⟩ spoiledListJson := by
  have hrow := NamedLocalStoreDb.find?_setObject_empty sampleWeb.toCrates 0 ⟨"clist", [1]⟩
    "clist" spoiledListJson
  exact ⟨_, hrow, rfl, rfl, rfl⟩

/-- In the sample crates only what starts with a bracket is a map or a list. -/
theorem head_of_parseValue {fuel : Nat} {chars rest : List Char} {value : Json}
    (h : parseValue fuel chars = some (value, rest))
    (hvalue : (∃ fields, value = .object fields) ∨ ∃ items, value = .array items) :
    chars.head? = some '\x7b' ∨ chars.head? = some '[' := by
  have hscalar : ∀ scalar : Json, (∀ fields, scalar ≠ .object fields) →
      (∀ items, scalar ≠ .array items) → value ≠ scalar := by
    rintro scalar hobject harray rfl
    rcases hvalue with ⟨fields, hfields⟩ | ⟨items, hitems⟩
    · exact hobject fields hfields
    · exact harray items hitems
  have hno : ∀ {α : Type} (f : α → Json) (p : Option (α × List Char)),
      p.map (fun p => (f p.1, p.2)) = some (value, rest) → ∃ x, value = f x := by
    intro α f p hp
    obtain ⟨q, -, hq⟩ := Option.map_eq_some_iff.mp hp
    exact ⟨q.1, (Prod.mk.inj hq).1.symm⟩
  cases fuel with
  | zero => cases h
  | succ fuel =>
      unfold parseValue at h
      split at h
      case h_1 =>
        exact absurd (Prod.mk.inj (Option.some.inj h)).1.symm
          (hscalar .null (by simp) (by simp))
      case h_2 =>
        exact absurd (Prod.mk.inj (Option.some.inj h)).1.symm
          (hscalar (.bool true) (by simp) (by simp))
      case h_3 =>
        exact absurd (Prod.mk.inj (Option.some.inj h)).1.symm
          (hscalar (.bool false) (by simp) (by simp))
      case h_4 =>
        obtain ⟨text, htext⟩ := hno (fun text => .number (.other text)) _ h
        exact absurd htext (hscalar _ (by simp) (by simp))
      case h_5 =>
        obtain ⟨text, htext⟩ := hno .string _ h
        exact absurd htext (hscalar _ (by simp) (by simp))
      case h_6 => exact .inr rfl
      case h_7 => exact .inr rfl
      case h_8 => exact .inl rfl
      case h_9 => exact .inl rfl
      case h_10 =>
        unfold parseNumber at h
        dsimp only at h
        split_ifs at h
        obtain ⟨n, -, hn⟩ := Option.map_eq_some_iff.mp h
        exact absurd (Prod.mk.inj hn).1.symm (hscalar _ (by simp) (by simp))

/-- In the sample crates a map or a list starts with a bracket. -/
theorem isJson_of_sampleJsonParse {text : String} {value : Json}
    (hparse : sampleJsonParse text = some value)
    (hvalue : (∃ fields, value = .object fields) ∨ ∃ items, value = .array items) :
    IsJson text := by
  unfold sampleJsonParse at hparse
  split at hparse
  next v hv =>
    obtain rfl := Option.some.inj hparse
    unfold IsJson
    rcases head_of_parseValue hv hvalue with hhead | hhead
    · obtain ⟨tail, htail⟩ := List.head?_eq_some_iff.mp hhead
      rw [htail, List.dropWhile_cons_of_neg (by decide)]
      simp
    · obtain ⟨tail, htail⟩ := List.head?_eq_some_iff.mp hhead
      rw [htail, List.dropWhile_cons_of_neg (by decide)]
      simp
  · cases hparse

theorem dirWeb_readsValues : ReadsValues DirObject.dirWeb DirObject.sampleDids where
  laws := DirObject.dirWeb_lawful
  dirItems := by
    intro text items h
    obtain ⟨dir, hdir, rfl⟩ := Option.map_eq_some_iff.mp h
    obtain ⟨value, hvalue, hread⟩ := Option.bind_eq_some_iff.mp hdir
    exact ⟨value, dir, hvalue, hread, List.Perm.refl _⟩
  fileContent := by
    intro text content h
    change (match sampleJsonParse text with
      | some (.object fields) => optionalString (.object fields) "content"
      | _ => none) = some content at h
    split at h
    · next fields hparse =>
      refine ⟨fields, hparse, ?_⟩
      unfold optionalString at h
      split at h
      · next hnone => exact .inr ⟨hnone, (Option.some.inj h).symm⟩
      · next text htext =>
        obtain rfl := Option.some.inj h
        exact .inl htext
      · cases h
    · cases h
  bracket := fun _ _ => isJson_of_sampleJsonParse

/-- The value of the list. -/
def spoiledListValue : Json :=
  .ofStrings ["mix256:03ba7816bf8f01cfea414140de5dae2223b00361a396177a9cb410ff61f20015ad", "x"]

/-- The first element is a chunk, and the store does not find it. -/
theorem spoiledList_children :
    Stored sampleWeb.toCrates spoiledListDb ⟨"clist", [1]⟩ spoiledListJson ∧
      abcChunk.toObjId ∈ computableChildren sampleWeb "clist" spoiledListValue ∧
      spoiledListDb.parseObjRefsTx sampleWeb.toCrates ⟨"clist", [1]⟩ = [] ∧
      ¬ FindsChildren sampleWeb (fun _ => none) spoiledListDb ⟨"clist", [1]⟩ spoiledListJson := by
  have hmem : abcChunk.toObjId ∈ computableChildren sampleWeb "clist" spoiledListValue := by
    decide
  have hnone : spoiledListDb.parseObjRefsTx sampleWeb.toCrates ⟨"clist", [1]⟩ = [] := by
    decide
  have htext : spoiledListJson = sampleJcs spoiledListValue := by decide
  refine ⟨stored_spoiledList, hmem, hnone, fun hfinds => ?_⟩
  have hvalue : storedValue sampleWeb (fun _ => none) spoiledListJson = some spoiledListValue := by
    unfold storedValue
    rw [if_pos (by decide), htext]
    exact sampleJsonParse_sampleJcs spoiledListValue
  have hfound := hfinds spoiledListValue hvalue _ hmem
  rw [hnone] at hfound
  cases hfound

/-! ## A directory in both forms -/

/-- The value of a directory with three children: by its id, in the parent, and as a JWT. -/
def homeValue : Json :=
  .object
    [("body", .object
      [("a", .string "cyfile:01"),
        ("b", .object [("body", .object [("content", .string "")]),
          ("obj_type", .string "cyfile")]),
        ("c", .object [("jwt", .string "head.\x7b\"content\":\"\"\x7d.sign"),
          ("obj_type", .string "cyfile")])]),
      ("create_time", .number (.natural 0)), ("file_count", .number (.natural 3)),
      ("file_size", .number (.natural 0)), ("last_update_time", .number (.natural 0)),
      ("total_size", .number (.natural 0))]

/-- The directory as a JWT. -/
def homeJwt : String := "head.home.sign"

/-- The value of this JWT. -/
def homeClaims (jwt : String) : Option Json :=
  if jwt = homeJwt then some homeValue else none

/-- A store that holds the directory with this text. -/
def homeDb (text : String) : NamedLocalStoreDb :=
  NamedLocalStoreDb.empty.setObject DirObject.dirWeb.toCrates 0 ⟨"cydir", [1]⟩ "cydir" text

theorem stored_home (text : String) :
    Stored DirObject.dirWeb.toCrates (homeDb text) ⟨"cydir", [1]⟩ text := by
  have hrow := NamedLocalStoreDb.find?_setObject_empty DirObject.dirWeb.toCrates 0 ⟨"cydir", [1]⟩
    "cydir" text
  exact ⟨_, hrow, rfl, rfl, rfl⟩

/-- The items of the directory as they are read. -/
def homeItems : List SimpleMapItem :=
  [.objId ⟨"cyfile", [1]⟩, .object "cyfile" "\x7b\"content\":\"\"\x7d",
    .objectJwt "cyfile" "head.\x7b\"content\":\"\"\x7d.sign"]

/-- The items are read from the text of a value as they are from the value. -/
theorem jsonDirItems_sampleJcs (value : Json) :
    DirObject.dirWeb.jsonDirItems (sampleJcs value) =
      (DirObject.fromValue sampleWeb DirObject.sampleDids value).map fun dir =>
        dir.objectMap.entries.map Prod.snd := by
  show ((sampleJsonParse (sampleJcs value)).bind
    (DirObject.fromValue sampleWeb DirObject.sampleDids)).map
      (fun dir => dir.objectMap.entries.map Prod.snd) = _
  rw [sampleJsonParse_sampleJcs]
  rfl

theorem home_wellFormed : WellFormed DirObject.dirWeb "cydir" (sampleJcs homeValue) := by
  have hitems : DirObject.dirWeb.jsonDirItems (sampleJcs homeValue) = some homeItems := by
    rw [jsonDirItems_sampleJcs]
    decide
  have hids : ∀ item ∈ homeItems, (item.getObjId DirObject.dirWeb.toCrates).isOk = true := by
    decide
  unfold WellFormed
  rw [if_pos rfl]
  refine ⟨homeItems, hitems, ?_⟩
  intro item hitem
  have hok := hids item hitem
  cases hid : item.getObjId DirObject.dirWeb.toCrates with
  | ok pair => exact ⟨pair.1, pair.2, rfl⟩
  | error e =>
      rw [hid] at hok
      cases hok

/-- The children of the directory are found where it is stored as JSON, and are not where it
is stored as a JWT. -/
theorem home_found_in_json :
    (FindsChildren DirObject.dirWeb homeClaims (homeDb (sampleJcs homeValue)) ⟨"cydir", [1]⟩
        (sampleJcs homeValue) ∧
      FindsSameInJwt DirObject.dirWeb homeClaims (homeDb (sampleJcs homeValue)) ⟨"cydir", [1]⟩
        (sampleJcs homeValue)) ∧
      (computableChildren DirObject.dirWeb "cydir" homeValue).length = 3 ∧
      ¬ (FindsChildren DirObject.dirWeb homeClaims (homeDb homeJwt) ⟨"cydir", [1]⟩ homeJwt ∧
        FindsSameInJwt DirObject.dirWeb homeClaims (homeDb homeJwt) ⟨"cydir", [1]⟩ homeJwt) := by
  have hcount : (computableChildren DirObject.dirWeb "cydir" homeValue).length = 3 := by
    decide
  refine ⟨?_, hcount, ?_⟩
  · exact (parseObjRefsTx_complete_iff dirWeb_readsValues (by decide) (stored_home _)).mpr
      (.inl home_wellFormed)
  · intro hfinds
    rcases (parseObjRefsTx_complete_iff dirWeb_readsValues (by decide)
      (stored_home homeJwt)).mp hfinds with hformed | hnone
    · have hitems : DirObject.dirWeb.jsonDirItems homeJwt = none := by decide
      obtain ⟨items, hread, -⟩ := hformed
      rw [hitems] at hread
      cases hread
    · have hclaims : storedValue DirObject.dirWeb homeClaims homeJwt = some homeValue := by
        unfold storedValue
        rw [if_neg (by decide)]
        exact if_pos rfl
      rw [hnone homeValue hclaims] at hcount
      cases hcount

end NamedStore
end CyfsNdn

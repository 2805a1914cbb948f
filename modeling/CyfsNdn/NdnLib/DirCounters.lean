import CyfsNdn.Collections.Tally
import CyfsNdn.NdnLib.DirObject
import CyfsNdn.NdnLib.SampleWeb
import CyfsNdn.Transition.Run

/-!
# The counters of a directory

`add_file` and `add_directory` count up what they put into the map, and neither they nor
`remove` count down what the map loses.  So the counters follow the contents as long as
only directories of no size are replaced or removed.

Sums of `u64` are checked, as in a build with overflow checks; `none` is a panic.
-/

namespace CyfsNdn
namespace NdnLib

open Collections Transition

/-- `+=` of `u64`. -/
def checkedAdd (a b : UInt64) : Option UInt64 :=
  if a.toNat + b.toNat < 2 ^ 64 then some (a + b) else none

theorem checkedAdd_eq_some {a b c : UInt64} (h : checkedAdd a b = some c) :
    c.toNat = a.toNat + b.toNat := by
  unfold checkedAdd at h
  split_ifs at h with hfits
  rw [← Option.some.inj h, UInt64.toNat_add, Nat.mod_eq_of_lt hfits]

theorem checkedAdd_of_lt {a b : UInt64} (h : a.toNat + b.toNat < 2 ^ 64) :
    checkedAdd a b = some (a + b) := if_pos h

theorem checkedAdd_of_not_lt {a b : UInt64} (h : ¬ a.toNat + b.toNat < 2 ^ 64) :
    checkedAdd a b = none := if_neg h

namespace StringMap

variable {α : Type}

/-- `HashMap::get`. -/
def get (names : StringMap α) (name : String) : Option α :=
  names.entries.lookup name

/-- `HashMap::insert`. -/
def insert (names : StringMap α) (name : String) (value : α) : StringMap α :=
  ⟨putKey name value names.entries, nodup_putKey names.nodup name value⟩

/-- `HashMap::remove`. -/
def remove (names : StringMap α) (name : String) : StringMap α :=
  ⟨eraseKey name names.entries, nodup_eraseKey names.nodup name⟩

end StringMap

/-- The item is a file. -/
def SimpleMapItem.isFile : SimpleMapItem → Bool
  | .object objType _ => objType = "cyfile"
  | _ => false

/-- The item is a directory. -/
def SimpleMapItem.isDirectory : SimpleMapItem → Bool
  | .objId id => id.objType = "cydir"
  | .objectJwt objType _ => objType = "cydir"
  | _ => false

namespace DirObject

variable {dids : DidCrate}

/-- `DirObject::new`. -/
def new (contentObj : BaseContentObject dids) : DirObject dids where
  contentObj := contentObj
  metaMap := .empty
  totalSize := 0
  fileCount := 0
  fileSize := 0
  objectMap := .empty

/-- `remove`: the directory, and the item that was there. -/
def remove (dir : DirObject dids) (key : String) : DirObject dids × Option SimpleMapItem :=
  ({ dir with objectMap := dir.objectMap.remove key }, dir.objectMap.get key)

/-- `add_file`. -/
def addFile (web : WebCrates) (dir : DirObject dids) (name : String) (fileObj : Json)
    (fileSize : UInt64) : Option (DirObject dids × NdnResult Unit) := do
  let newFileSize ← checkedAdd dir.fileSize fileSize
  let newFileCount ← checkedAdd dir.fileCount 1
  let newTotalSize ← checkedAdd dir.totalSize fileSize
  return ({ dir with
      fileSize := newFileSize
      fileCount := newFileCount
      totalSize := newTotalSize
      objectMap := dir.objectMap.insert name (.object "cyfile" (web.jcs fileObj)) }, .ok ())

/-- `add_directory`. -/
def addDirectory (dir : DirObject dids) (name : String) (dirObjId : ObjId)
    (dirSize : UInt64) : Option (DirObject dids × NdnResult Unit) :=
  if dirObjId.objType ≠ "cydir" then
    some (dir, .error (.invalidParam "dir_obj_id is not a directory"))
  else do
    let newTotalSize ← checkedAdd dir.totalSize dirSize
    return ({ dir with
        totalSize := newTotalSize
        objectMap := dir.objectMap.insert name (.objId dirObjId) }, .ok ())

/-- `is_file`. -/
def isFile (dir : DirObject dids) (name : String) : Bool :=
  (dir.objectMap.get name).any SimpleMapItem.isFile

/-- `is_directory`. -/
def isDirectory (dir : DirObject dids) (name : String) : Bool :=
  (dir.objectMap.get name).any SimpleMapItem.isDirectory

/-! ## Calls -/

/-- A call of one of the functions that change the contents. -/
inductive Call where
  | addFile (name : String) (fileObj : Json) (fileSize : UInt64)
  | addDirectory (name : String) (dirObjId : ObjId) (dirSize : UInt64)
  | remove (name : String)

/-- A directory, the size that each name was last added with, and whether a call has
panicked. -/
structure Sized (dids : DidCrate) where
  dir : DirObject dids
  sizes : String → UInt64
  panicked : Bool

/-- A new directory. -/
def Sized.start (contentObj : BaseContentObject dids) : Sized dids :=
  ⟨.new contentObj, fun _ => 0, false⟩

/-- After a call that adds under this name. -/
def Sized.added (s : Sized dids) (name : String) (size : UInt64) :
    Option (DirObject dids × NdnResult Unit) → Sized dids
  | none => { s with panicked := true }
  | some (_, .error _) => s
  | some (dir, .ok _) => { s with dir := dir, sizes := Function.update s.sizes name size }

/-- After a call. -/
def Sized.step (web : WebCrates) (s : Sized dids) : Call → Sized dids
  | .addFile name fileObj fileSize =>
      s.added name fileSize (s.dir.addFile web name fileObj fileSize)
  | .addDirectory name dirObjId dirSize =>
      s.added name dirSize (s.dir.addDirectory name dirObjId dirSize)
  | .remove name => { s with dir := (s.dir.remove name).1 }

namespace Sized

/-- One for a file. -/
def fileWeight (e : String × SimpleMapItem) : Nat :=
  if e.2.isFile then 1 else 0

/-- The size of a file. -/
def fileSizeWeight (sizes : String → UInt64) (e : String × SimpleMapItem) : Nat :=
  if e.2.isFile then (sizes e.1).toNat else 0

/-- The size of a file or a directory. -/
def sizeWeight (sizes : String → UInt64) (e : String × SimpleMapItem) : Nat :=
  if e.2.isFile ∨ e.2.isDirectory then (sizes e.1).toNat else 0

/-- The counters are what the contents add up to. -/
structure Counted (s : Sized dids) : Prop where
  returned : s.panicked = false
  fileCount : s.dir.fileCount.toNat = tally fileWeight s.dir.objectMap.entries
  fileSize : s.dir.fileSize.toNat = tally (fileSizeWeight s.sizes) s.dir.objectMap.entries
  totalSize : s.dir.totalSize.toNat = tally (sizeWeight s.sizes) s.dir.objectMap.entries

/-- What stands under the name is no file, and no directory that has a size. -/
def Weightless (s : Sized dids) (name : String) : Prop :=
  s.dir.isFile name = false ∧ (s.dir.isDirectory name = true → s.sizes name = 0)

/-- The call replaces or removes nothing that counts, and the counters have room. -/
def Harmless (s : Sized dids) : Call → Prop
  | .addFile name _ fileSize =>
      s.Weightless name ∧ s.dir.fileCount.toNat + 1 < 2 ^ 64 ∧
        s.dir.fileSize.toNat + fileSize.toNat < 2 ^ 64 ∧
        s.dir.totalSize.toNat + fileSize.toNat < 2 ^ 64
  | .addDirectory name dirObjId dirSize =>
      dirObjId.objType = "cydir" →
        s.Weightless name ∧ s.dir.totalSize.toNat + dirSize.toNat < 2 ^ 64
  | .remove name => s.Weightless name

/-! ## One call -/

section Step

variable {web : WebCrates} {s : Sized dids}

theorem counted_start (contentObj : BaseContentObject dids) : (start contentObj).Counted :=
  ⟨rfl, rfl, rfl, rfl⟩

/-- Nothing that counts is taken away exactly when the item under the name is
weightless. -/
theorem weightless_iff (s : Sized dids) (name : String) :
    s.Weightless name ↔ weightAt fileWeight name s.dir.objectMap.entries = 0 ∧
      weightAt (sizeWeight s.sizes) name s.dir.objectMap.entries = 0 := by
  unfold Weightless isFile isDirectory StringMap.get weightAt
  cases s.dir.objectMap.entries.lookup name with
  | none => simp
  | some item =>
      have hzero : (s.sizes name).toNat = 0 ↔ s.sizes name = 0 :=
        ⟨fun h => UInt64.toNat_inj.mp h, fun h => by rw [h]; rfl⟩
      simp only [Option.any_some, Option.elim_some, fileWeight, sizeWeight]
      cases item.isFile <;> cases item.isDirectory <;> simp [hzero]

/-- A file that weighs nothing has no size that counts either. -/
theorem fileSizeWeight_eq_zero {name : String} {entries : List (String × SimpleMapItem)}
    (sizes : String → UInt64) (h : weightAt fileWeight name entries = 0) :
    weightAt (fileSizeWeight sizes) name entries = 0 := by
  unfold weightAt fileWeight at h
  unfold weightAt fileSizeWeight
  cases hitem : entries.lookup name with
  | none => rfl
  | some item =>
      rw [hitem] at h
      dsimp only [Option.elim_some] at h ⊢
      cases hfile : item.isFile with
      | false => simp
      | true => simp [hfile] at h

/-- A size that is set changes the weights under its name only. -/
theorem fileSizeWeight_update (sizes : String → UInt64) (name : String) (size : UInt64)
    (e : String × SimpleMapItem) (he : e.1 ≠ name) :
    fileSizeWeight (Function.update sizes name size) e = fileSizeWeight sizes e := by
  unfold fileSizeWeight
  rw [Function.update_of_ne he]

theorem sizeWeight_update (sizes : String → UInt64) (name : String) (size : UInt64)
    (e : String × SimpleMapItem) (he : e.1 ≠ name) :
    sizeWeight (Function.update sizes name size) e = sizeWeight sizes e := by
  unfold sizeWeight
  rw [Function.update_of_ne he]

/-- The sum that is checked is the sum of the numbers. -/
theorem toNat_add_of_lt {a b : UInt64} (h : a.toNat + b.toNat < 2 ^ 64) :
    (a + b).toNat = a.toNat + b.toNat :=
  checkedAdd_eq_some (checkedAdd_of_lt h)

/-- The tallies of the sizes when an item is put under a name with its size. -/
theorem sizeTallies_put (s : Sized dids) (name : String) (item : SimpleMapItem)
    (size : UInt64) :
    tally (fileSizeWeight (Function.update s.sizes name size))
          (putKey name item s.dir.objectMap.entries) +
        weightAt (fileSizeWeight s.sizes) name s.dir.objectMap.entries =
      (if item.isFile then size.toNat else 0) +
        tally (fileSizeWeight s.sizes) s.dir.objectMap.entries ∧
    tally (sizeWeight (Function.update s.sizes name size))
          (putKey name item s.dir.objectMap.entries) +
        weightAt (sizeWeight s.sizes) name s.dir.objectMap.entries =
      (if item.isFile ∨ item.isDirectory then size.toNat else 0) +
        tally (sizeWeight s.sizes) s.dir.objectMap.entries := by
  have hupdated : Function.update s.sizes name size name = size := Function.update_self ..
  constructor
  · rw [tally_putKey s.dir.objectMap.nodup item (fileSizeWeight_update s.sizes name size)]
    unfold fileSizeWeight
    dsimp only
    rw [hupdated]
  · rw [tally_putKey s.dir.objectMap.nodup item (sizeWeight_update s.sizes name size)]
    unfold sizeWeight
    dsimp only
    rw [hupdated]

/-- An item with its size is counted right exactly when what it replaces is weightless. -/
theorem counted_put_iff (h : s.Counted) {dir : DirObject dids} {name : String}
    {item : SimpleMapItem} {size : UInt64}
    (hmap : dir.objectMap = s.dir.objectMap.insert name item)
    (hcount : dir.fileCount.toNat = fileWeight (name, item) + s.dir.fileCount.toNat)
    (hfile : dir.fileSize.toNat =
      (if item.isFile then size.toNat else 0) + s.dir.fileSize.toNat)
    (htotal : dir.totalSize.toNat =
      (if item.isFile ∨ item.isDirectory then size.toNat else 0) + s.dir.totalSize.toNat) :
    Counted { s with dir := dir, sizes := Function.update s.sizes name size } ↔
      s.Weightless name := by
  have hentries : dir.objectMap.entries = putKey name item s.dir.objectMap.entries := by
    rw [hmap]
    rfl
  have hputCount : tally fileWeight (putKey name item s.dir.objectMap.entries) +
      weightAt fileWeight name s.dir.objectMap.entries =
        fileWeight (name, item) + tally fileWeight s.dir.objectMap.entries :=
    tally_putKey s.dir.objectMap.nodup item fun _ _ => rfl
  obtain ⟨hputFile, hputTotal⟩ := sizeTallies_put s name item size
  rw [h.fileCount] at hcount
  rw [h.fileSize] at hfile
  rw [h.totalSize] at htotal
  rw [weightless_iff]
  constructor
  · intro hcounted
    have hcountAfter := hcounted.fileCount
    have htotalAfter := hcounted.totalSize
    dsimp only at hcountAfter htotalAfter
    rw [hentries] at hcountAfter htotalAfter
    exact ⟨by omega, by omega⟩
  · rintro ⟨hnoFile, hnoSize⟩
    have hnoFileSize := fileSizeWeight_eq_zero s.sizes hnoFile
    refine ⟨h.returned, ?_, ?_, ?_⟩ <;> dsimp only <;> rw [hentries] <;> omega

/-- A call that panics counts nothing. -/
theorem not_counted_added_none (name : String) (size : UInt64) :
    ¬ (s.added name size none).Counted := by
  intro hcounted
  cases hcounted.returned

theorem counted_addFile_iff (h : s.Counted) (name : String) (fileObj : Json)
    (fileSize : UInt64) :
    (s.step web (.addFile name fileObj fileSize)).Counted ↔
      s.Harmless (.addFile name fileObj fileSize) := by
  change (s.added name fileSize (s.dir.addFile web name fileObj fileSize)).Counted ↔
    s.Weightless name ∧ _
  unfold addFile
  by_cases hfitsFile : s.dir.fileSize.toNat + fileSize.toNat < 2 ^ 64
  swap
  · rw [checkedAdd_of_not_lt hfitsFile]
    exact iff_of_false (not_counted_added_none name fileSize)
      fun hharmless => hfitsFile hharmless.2.2.1
  by_cases hfitsCount : s.dir.fileCount.toNat + (1 : UInt64).toNat < 2 ^ 64
  swap
  · rw [checkedAdd_of_lt hfitsFile, checkedAdd_of_not_lt hfitsCount]
    exact iff_of_false (not_counted_added_none name fileSize)
      fun hharmless => hfitsCount hharmless.2.1
  by_cases hfitsTotal : s.dir.totalSize.toNat + fileSize.toNat < 2 ^ 64
  swap
  · rw [checkedAdd_of_lt hfitsFile, checkedAdd_of_lt hfitsCount,
      checkedAdd_of_not_lt hfitsTotal]
    exact iff_of_false (not_counted_added_none name fileSize)
      fun hharmless => hfitsTotal hharmless.2.2.2
  rw [checkedAdd_of_lt hfitsFile, checkedAdd_of_lt hfitsCount, checkedAdd_of_lt hfitsTotal,
    and_iff_left ⟨hfitsCount, hfitsFile, hfitsTotal⟩]
  refine counted_put_iff h rfl ?_ ?_ ?_
  · exact (toNat_add_of_lt hfitsCount).trans (Nat.add_comm _ _)
  · exact (toNat_add_of_lt hfitsFile).trans (Nat.add_comm _ _)
  · exact (toNat_add_of_lt hfitsTotal).trans (Nat.add_comm _ _)

theorem counted_addDirectory_iff (h : s.Counted) (name : String) (dirObjId : ObjId)
    (dirSize : UInt64) :
    (s.step web (.addDirectory name dirObjId dirSize)).Counted ↔
      s.Harmless (.addDirectory name dirObjId dirSize) := by
  change (s.added name dirSize (s.dir.addDirectory name dirObjId dirSize)).Counted ↔
    (dirObjId.objType = "cydir" → s.Weightless name ∧ _)
  unfold addDirectory
  by_cases htype : dirObjId.objType = "cydir"
  swap
  · -- The call is refused and changes nothing.
    rw [if_pos htype]
    exact iff_of_true h fun hdir => absurd hdir htype
  rw [if_neg (not_not_intro htype), imp_iff_right htype]
  by_cases hfits : s.dir.totalSize.toNat + dirSize.toNat < 2 ^ 64
  swap
  · rw [checkedAdd_of_not_lt hfits]
    exact iff_of_false (not_counted_added_none name dirSize) fun hharmless => hfits hharmless.2
  have hdirectory : (SimpleMapItem.objId dirObjId).isDirectory = true := decide_eq_true htype
  rw [checkedAdd_of_lt hfits, and_iff_left hfits]
  refine counted_put_iff h rfl (Nat.zero_add _).symm (Nat.zero_add _).symm ?_
  rw [if_pos (.inr hdirectory)]
  exact (toNat_add_of_lt hfits).trans (Nat.add_comm _ _)

theorem counted_remove_iff (h : s.Counted) (name : String) :
    (s.step web (.remove name)).Counted ↔ s.Harmless (.remove name) := by
  have hnodup := s.dir.objectMap.nodup
  have hcount := tally_eraseKey fileWeight hnodup name
  have hfile := tally_eraseKey (fileSizeWeight s.sizes) hnodup name
  have htotal := tally_eraseKey (sizeWeight s.sizes) hnodup name
  change _ ↔ s.Weightless name
  rw [← h.fileCount] at hcount
  rw [← h.fileSize] at hfile
  rw [← h.totalSize] at htotal
  rw [weightless_iff]
  constructor
  · intro hcounted
    have hcountAfter : s.dir.fileCount.toNat = tally fileWeight
        (eraseKey name s.dir.objectMap.entries) := hcounted.fileCount
    have htotalAfter : s.dir.totalSize.toNat = tally (sizeWeight s.sizes)
        (eraseKey name s.dir.objectMap.entries) := hcounted.totalSize
    exact ⟨by omega, by omega⟩
  · rintro ⟨hnoFile, hnoSize⟩
    have hnoFileSize := fileSizeWeight_eq_zero s.sizes hnoFile
    refine ⟨h.returned, ?_, ?_, ?_⟩
    · change s.dir.fileCount.toNat = tally fileWeight (eraseKey name _)
      omega
    · change s.dir.fileSize.toNat = tally (fileSizeWeight s.sizes) (eraseKey name _)
      omega
    · change s.dir.totalSize.toNat = tally (sizeWeight s.sizes) (eraseKey name _)
      omega

theorem counted_step_iff (h : s.Counted) (c : Call) :
    (s.step web c).Counted ↔ s.Harmless c := by
  cases c with
  | addFile name fileObj fileSize => exact counted_addFile_iff h name fileObj fileSize
  | addDirectory name dirObjId dirSize => exact counted_addDirectory_iff h name dirObjId dirSize
  | remove name => exact counted_remove_iff h name

end Step

/-! ## Runs -/

/-- The counters are right after every prefix of the calls exactly when every call is
harmless in the state it finds. -/
theorem counted_all_iff_along (web : WebCrates) {s : Sized dids} (h : s.Counted)
    (calls : List Call) :
    (∀ n, (run (step web) s (calls.take n)).Counted) ↔ Along (step web) Harmless s calls := by
  induction calls generalizing s with
  | nil =>
      refine iff_of_true (fun n => ?_) trivial
      rw [List.take_nil]
      exact h
  | cons c rest ih =>
      constructor
      · intro hall
        have hfirst : (s.step web c).Counted := hall 1
        exact ⟨(counted_step_iff h c).mp hfirst, (ih hfirst).mp fun n => hall (n + 1)⟩
      · rintro ⟨hharmless, hrest⟩ n
        cases n with
        | zero => exact h
        | succ n =>
            exact (ih ((counted_step_iff h c).mpr hharmless)).mpr hrest n

/-- From an empty directory on. -/
theorem counters_follow_iff (web : WebCrates) (contentObj : BaseContentObject dids)
    (calls : List Call) :
    (∀ n, (run (step web) (start contentObj) (calls.take n)).Counted) ↔
      Along (step web) Harmless (start contentObj) calls :=
  counted_all_iff_along web (counted_start contentObj) calls

/-- DIDs that are their own text. -/
def textDids : DidCrate := ⟨String, id, some, "", fun did => did ≠ ""⟩

/-- The fields of a directory that `new` leaves at their defaults. -/
def emptyContent : BaseContentObject textDids :=
  ⟨none, "", "", "", 0, 0, none, [], [], none, .empty, .empty, 0⟩

/-- One file is put under a name twice: it is counted twice. -/
theorem file_twice_not_counted :
    ¬ (run (step sampleWeb) (start emptyContent)
      [.addFile "a" .null 5, .addFile "a" .null 5]).Counted := by
  intro hcounted
  have hcount := hcounted.fileCount
  revert hcount
  decide

end Sized
end DirObject
end NdnLib
end CyfsNdn

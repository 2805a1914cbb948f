import CyfsNdn.NamedStore.ResolveNextObj

/-!
# What an inner path leads to

`Leads` says where a path leads over objects that stay as they are, without the cache.
`open_object` and the loop of `open_reader` and `is_object_stored` share the cache with all
calls that are under way, and objects come into the stores meanwhile.  Nevertheless each
call answers what it would answer alone and without the cache, at some moment of the run.

This needs that the texts of an object all say the same: the text of a child that is inlined
into a directory, and the one that a store has of it.
-/

namespace CyfsNdn
namespace NamedStore

open NdnLib Collections Relational Transition
open NamedDataMgr

/-! ## Segments -/

section Once

variable {crates : ResolveCrates}

end Once

/-! ## Where a path leads -/

section Walk

variable (crates : ResolveCrates)

/-- What `resolve_next_obj` comes to over these objects, without the cache. -/
inductive Leads (getObject : ObjId → NdnResult String) :
    ObjId → String → String → Outcome ResolveNextObjCacheValue → Prop
  | atChunk {objId : ObjId} {objStr path : String} (hchunk : objId.isChunk = true) :
      Leads getObject objId objStr path
        (.returned (.error (noInnerPath crates.toCrates objId)))
  | atChunkList {objId : ObjId} {objStr path : String} (hchunk : objId.isChunk = false)
      (h : resolveNextObjOnce crates objId objStr path = none) :
      Leads getObject objId objStr path .panicked
  | failed {objId : ObjId} {objStr path : String} {e : NdnError}
      (hchunk : objId.isChunk = false)
      (h : resolveNextObjOnce crates objId objStr path = some (.error e)) :
      Leads getObject objId objStr path (.returned (.error e))
  | ended {objId nextObjId : ObjId} {objStr path : String} {nextObjStr : Option String}
      (hchunk : objId.isChunk = false)
      (h : resolveNextObjOnce crates objId objStr path =
        some (.ok ⟨nextObjId, none, nextObjStr⟩)) :
      Leads getObject objId objStr path (.returned (.ok ⟨nextObjId, none, nextObjStr⟩))
  | inlined {objId nextObjId : ObjId} {objStr path rest nextObjStr : String}
      {o : Outcome ResolveNextObjCacheValue} (hchunk : objId.isChunk = false)
      (h : resolveNextObjOnce crates objId objStr path =
        some (.ok ⟨nextObjId, some rest, some nextObjStr⟩))
      (hrest : Leads getObject nextObjId nextObjStr rest o) :
      Leads getObject objId objStr path o
  | missing {objId nextObjId : ObjId} {objStr path rest : String} {e : NdnError}
      (hchunk : objId.isChunk = false)
      (h : resolveNextObjOnce crates objId objStr path =
        some (.ok ⟨nextObjId, some rest, none⟩))
      (hread : getObject nextObjId = .error e) :
      Leads getObject objId objStr path (.returned (.error e))
  | stored {objId nextObjId : ObjId} {objStr path rest nextObjStr : String}
      {o : Outcome ResolveNextObjCacheValue} (hchunk : objId.isChunk = false)
      (h : resolveNextObjOnce crates objId objStr path =
        some (.ok ⟨nextObjId, some rest, none⟩))
      (hread : getObject nextObjId = .ok nextObjStr)
      (hrest : Leads getObject nextObjId nextObjStr rest o) :
      Leads getObject objId objStr path o

/-- A text of an object: of a store, or inlined into a directory that has a text. -/
inductive Provides (getObject : ObjId → NdnResult String) : ObjId → String → Prop
  | stored {objId : ObjId} {objStr : String} (h : getObject objId = .ok objStr) :
      Provides getObject objId objStr
  | inlined {objId nextObjId : ObjId} {objStr path nextObjStr : String}
      {nextPath : Option String} (hdir : Provides getObject objId objStr)
      (h : resolveNextObjOnce crates objId objStr path =
        some (.ok ⟨nextObjId, nextPath, some nextObjStr⟩)) :
      Provides getObject nextObjId nextObjStr

/-- The texts of an object all say the same of its children. -/
def Coherent (getObject : ObjId → NdnResult String) : Prop :=
  ∀ objId objStr objStr', Provides crates getObject objId objStr →
    Provides crates getObject objId objStr' → ∀ path,
      resolveNextObjOnce crates objId objStr path = resolveNextObjOnce crates objId objStr' path

/-- The stores have come to hold more objects, and have lost none. -/
def Grows (getObject getObject' : ObjId → NdnResult String) : Prop :=
  ∀ objId objStr, getObject objId = .ok objStr → getObject' objId = .ok objStr

variable {crates} {getObject getObject' : ObjId → NdnResult String}

theorem Grows.refl (getObject : ObjId → NdnResult String) : Grows getObject getObject :=
  fun _ _ h => h

theorem Grows.trans {getObject'' : ObjId → NdnResult String} (h : Grows getObject getObject')
    (h' : Grows getObject' getObject'') : Grows getObject getObject'' :=
  fun objId objStr hread => h' objId objStr (h objId objStr hread)

theorem Provides.mono (hgrows : Grows getObject getObject') {objId : ObjId} {objStr : String}
    (h : Provides crates getObject objId objStr) : Provides crates getObject' objId objStr := by
  induction h with
  | stored h => exact .stored (hgrows _ _ h)
  | inlined _ h ih => exact .inlined ih h

namespace Leads

variable {objId : ObjId} {objStr path : String} {o o' : Outcome ResolveNextObjCacheValue}

/-- What a path has led to, it leads to when there are more objects. -/
theorem mono (hgrows : Grows getObject getObject') {v : ResolveNextObjCacheValue}
    (h : Leads crates getObject objId objStr path (.returned (.ok v))) :
    Leads crates getObject' objId objStr path (.returned (.ok v)) := by
  generalize ho : Outcome.returned (.ok v) = o at h
  induction h with
  | atChunk hchunk => cases ho
  | atChunkList hchunk h => cases ho
  | failed hchunk h => cases ho
  | ended hchunk h => exact .ended hchunk h
  | inlined hchunk h _ ih => exact .inlined hchunk h (ih ho)
  | missing hchunk h hread => cases ho
  | stored hchunk h hread _ ih => exact .stored hchunk h (hgrows _ _ hread) (ih ho)

/-- Only the first step depends on the text of the object. -/
theorem of_once_eq {objStr' : String}
    (hsame : resolveNextObjOnce crates objId objStr path =
      resolveNextObjOnce crates objId objStr' path)
    (h : Leads crates getObject objId objStr path o) :
    Leads crates getObject objId objStr' path o := by
  cases h with
  | atChunk hchunk => exact .atChunk hchunk
  | atChunkList hchunk h => exact .atChunkList hchunk (hsame ▸ h)
  | failed hchunk h => exact .failed hchunk (hsame ▸ h)
  | ended hchunk h => exact .ended hchunk (hsame ▸ h)
  | inlined hchunk h hrest => exact .inlined hchunk (hsame ▸ h) hrest
  | missing hchunk h hread => exact .missing hchunk (hsame ▸ h) hread
  | stored hchunk h hread hrest => exact .stored hchunk (hsame ▸ h) hread hrest

theorem ne_unfinished (h : Leads crates getObject objId objStr path o) : o ≠ .unfinished := by
  induction h with
  | atChunk hchunk => exact nofun
  | atChunkList hchunk h => exact nofun
  | failed hchunk h => exact nofun
  | ended hchunk h => exact nofun
  | missing hchunk h hread => exact nofun
  | inlined hchunk h _ ih => exact ih
  | stored hchunk h hread _ ih => exact ih

/-- A path leads to one thing. -/
theorem unique (h : Leads crates getObject objId objStr path o)
    (h' : Leads crates getObject objId objStr path o') : o = o' := by
  induction h with
  | inlined hchunk h hrest ih | stored hchunk h hread hrest ih =>
      apply ih
      cases h' <;> simp_all
  | atChunk hchunk => cases h' <;> simp_all
  | atChunkList hchunk h | failed hchunk h | ended hchunk h => cases h' <;> simp_all
  | missing hchunk h hread => cases h' <;> simp_all

end Leads

end Walk

end NamedStore
end CyfsNdn

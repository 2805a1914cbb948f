import CyfsNdn.FsBuffer.LocalFileBuffer
import CyfsNdn.NdnLib.SampleCrates
import CyfsNdn.Transition.Run

/-!
# The capacity of the buffers

A buffer reserves its expected size when it is allocated.  What is given back, when it is
removed or finalized, is the length of its diff file at that time, and a call that fails
halfway has reserved or given back already.

`BufferSystem` keeps beside the service what the buffers have reserved that were allocated
and are neither removed nor finalized.  `CapacitySafe` are the calls that add and give back
the right amount; in a run of these `size_used` is the sum of what is reserved.
-/

namespace CyfsNdn
namespace FsBuffer

open NdnLib Relational Transition

/-- What a buffer has reserved. -/
structure Reservation where
  handleId : HandleId
  size : Nat
  deriving DecidableEq, Repr

/-- The service, and the reservations of the buffers that were allocated and are neither
removed nor finalized. -/
structure BufferSystem where
  service : LocalFileBufferService
  reserved : Table Reservation Reservation.handleId

/-- A call, with what happens to it. -/
inductive BufferAction where
  | alloc (ts fileInodeId : Nat) (baseChunkList : List ChunkId) (expectedSize : Option UInt64)
      (faults : AllocFaults)
  | get (fault : Option NdnError) (handleId : HandleId)
  | append (faults : AppendFaults) (fb : FileBufferRecord) (data : List UInt8)
  | writeDiff (path : HandleId) (bytes : List UInt8)
  | flush (around : Surroundings) (fb : FileBufferRecord)
  | caclName (around : Surroundings) (fb : FileBufferRecord)
  | finalize (around : Surroundings) (fbId : HandleId)
  | remove (metadataFails : Bool) (removeFile removeRow : Option NdnError)
      (fb : FileBufferRecord)

namespace BufferSystem

/-- A service that was just started. -/
def init (sizeLimit : UInt64) (db : Table FileBufferRecordMeta FileBufferRecordMeta.handleId)
    (files : Table DiffFile DiffFile.path) (nextSeq : Nat) (loadFails : Bool) : BufferSystem where
  service := LocalFileBufferService.new sizeLimit db files nextSeq loadFails
  reserved := Table.empty

/-- A buffer that was allocated has reserved its expected size. -/
def allocated (system : BufferSystem) (record : FileBufferRecord)
    (expectedSize : Option UInt64) : Table Reservation Reservation.handleId :=
  match expectedSize with
  | none => system.reserved
  | some expect => system.reserved.insertOrReplace ⟨record.handleId, expect.toNat⟩

/-- One call. -/
def step (system : BufferSystem) : BufferAction → BufferSystem
  | .alloc ts fileInodeId baseChunkList expectedSize faults =>
      match system.service.allocBuffer ts fileInodeId baseChunkList expectedSize faults with
      | (service, some (.ok record)) => ⟨service, system.allocated record expectedSize⟩
      | (service, _) => ⟨service, system.reserved⟩
  | .get fault handleId => ⟨(system.service.getBuffer fault handleId).1, system.reserved⟩
  | .append faults fb data => ⟨(system.service.append faults fb data).1, system.reserved⟩
  | .writeDiff path bytes => ⟨system.service.writeDiff path bytes, system.reserved⟩
  | .flush around fb => ⟨(system.service.flush around fb).1, system.reserved⟩
  | .caclName around fb =>
      match system.service.caclName around fb with
      | (service, some (.ok true)) => ⟨service, system.reserved.deleteKey fb.handleId⟩
      | (service, _) => ⟨service, system.reserved⟩
  | .finalize around fbId =>
      match system.service.finalize around fbId with
      | (service, some (.ok ())) => ⟨service, system.reserved.deleteKey fbId⟩
      | (service, _) => ⟨service, system.reserved⟩
  | .remove metadataFails removeFile removeRow fb =>
      match system.service.remove metadataFails removeFile removeRow fb with
      | (service, some (.ok ())) => ⟨service, system.reserved.deleteKey fb.handleId⟩
      | (service, _) => ⟨service, system.reserved⟩

/-- What the buffers have reserved together. -/
def totalReserved (system : BufferSystem) : Nat := system.reserved.total Reservation.size

/-- What one buffer has reserved. -/
def reservedFor (system : BufferSystem) (handleId : HandleId) : Nat :=
  ((system.reserved.find? handleId).map Reservation.size).getD 0

end BufferSystem

/-! ## What is promised -/

/-- The capacity in use is what is reserved, and it is within the limit. -/
structure CapacityExact (system : BufferSystem) : Prop where
  used : system.service.sizeUsed = system.totalReserved
  within : system.service.sizeUsed ≤ system.service.sizeLimit.toNat

/-- A buffer that does not fit is refused, and nothing changes. -/
def RefusesFull (system : BufferSystem) : BufferAction → Prop
  | .alloc ts fileInodeId baseChunkList expectedSize faults =>
      ∀ expect, expectedSize = some expect →
        system.service.sizeLimit.toNat < system.service.sizeUsed + expect.toNat →
          system.service.allocBuffer ts fileInodeId baseChunkList expectedSize faults =
            (system.service, some (.error (.invalidState "buffer capacity exceeded")))
  | _ => True

/-! ## The calls that keep it -/

/-- The length that `metadata` finds. -/
def LocalFileBufferService.lengthAt (service : LocalFileBufferService) (metadataFails : Bool)
    (path : HandleId) : Nat :=
  if metadataFails then 0
  else ((service.files.find? path).map fun file => file.bytes.length).getD 0

/-- What a call takes off the capacity in use is what the buffer has reserved, or nothing
where the call fails afterwards. -/
def TakesOff (system : BufferSystem) (fails : Bool) (metadataFails : Bool)
    (handleId path : HandleId) : Prop :=
  min (system.service.lengthAt metadataFails path) system.service.sizeUsed =
    if fails then 0 else system.reservedFor handleId

/-- Nothing fails after the check, and no file or row has the handle that is next. -/
def Allocates (service : LocalFileBufferService) (ts : Nat) (faults : AllocFaults) : Prop :=
  faults.createDirs = none ∧ faults.createParent = none ∧ faults.openFile = none ∧
    faults.addBuffer = none ∧ service.files.find? ⟨ts, service.nextSeq⟩ = none ∧
      service.db.find? ⟨ts, service.nextSeq⟩ = none

/-- A buffer that gets as far as its finalization gives back what it has reserved. -/
def PublishesWell (system : BufferSystem) (around : Surroundings) (handleId path : HandleId) :
    Prop :=
  around.stored = .ok () → around.persistMeta = none → around.fsmeta = .ok () →
    TakesOff system around.removeFile.isSome around.metadataFails handleId path

/-- The calls after which the capacity in use is right. -/
def CapacitySafe (system : BufferSystem) : BufferAction → Prop
  | .alloc ts _ _ expectedSize faults => ∀ expect, expectedSize = some expect →
      system.service.sizeUsed + expect.toNat < 2 ^ 64 ∧
        (system.service.sizeUsed + expect.toNat ≤ system.service.sizeLimit.toNat →
          expect = 0 ∨ Allocates system.service ts faults)
  | .caclName around fb => around.syncFile = none → around.setMeta = none →
      let state := system.service.diffStates fb.diffState
      (state.finalizedAt.isSome = true → system.reservedFor fb.handleId = 0) ∧
        (state.finalizedAt = none → state.linkedObjId = none →
          ∀ data, system.service.buildFinalizeData around fb = .ok data →
            data.fileSize ≤ directFinalizeFileSize →
            (system.service.records.find? fb.handleId).isSome →
              PublishesWell system around fb.handleId fb.diffFilePath)
  | .finalize around fbId => ∀ service record,
      system.service.getBuffer around.loadRecord fbId = (service, .ok record) →
        let state := service.diffStates record.diffState
        (state.finalizedAt.isSome = true → system.reservedFor fbId = 0) ∧
          (state.finalizedAt = none → ∀ data, service.buildFinalizeData around record = .ok data →
            PublishesWell system around fbId record.diffFilePath)
  | .remove metadataFails removeFile removeRow fb =>
      TakesOff system (removeFile.isSome || removeRow.isSome) metadataFails fb.handleId
        fb.diffFilePath
  | _ => True

/-! ## What each call does to the capacity -/

/-- The capacity in use goes down by a length, to zero if it is not enough; what else the
capacity depends on stays. -/
structure GivesBack (service service' : LocalFileBufferService) (length : Nat) : Prop where
  limit : service'.sizeLimit = service.sizeLimit
  used : service'.sizeUsed = service.sizeUsed - length
  poisoned : service'.poisoned = service.poisoned
  nextSeq : service.nextSeq ≤ service'.nextSeq

namespace GivesBack

theorem refl (service : LocalFileBufferService) : GivesBack service service 0 :=
  ⟨rfl, rfl, rfl, Nat.le_refl _⟩

theorem trans {a b c : LocalFileBufferService} {m n : Nat} (hab : GivesBack a b m)
    (hbc : GivesBack b c n) : GivesBack a c (m + n) where
  limit := hbc.limit.trans hab.limit
  used := by
    rw [hbc.used, hab.used]
    omega
  poisoned := hbc.poisoned.trans hab.poisoned
  nextSeq := Nat.le_trans hab.nextSeq hbc.nextSeq

end GivesBack

namespace LocalFileBufferService

variable {service service' : LocalFileBufferService} {around : Surroundings}
  {record : FileBufferRecord} {path : HandleId}

theorem persistMeta_keeps (service : LocalFileBufferService) (fault : Option NdnError)
    (record : FileBufferRecord) :
    GivesBack service (service.persistMeta fault record).1 0 ∧
      (service.persistMeta fault record).1.files = service.files ∧
      (service.persistMeta fault record).1.records = service.records ∧
      (service.persistMeta fault record).1.diffStates = service.diffStates := by
  unfold persistMeta
  cases fault with
  | none => exact ⟨⟨rfl, rfl, rfl, Nat.le_refl _⟩, rfl, rfl, rfl⟩
  | some e => exact ⟨GivesBack.refl service, rfl, rfl, rfl⟩

theorem getBuffer_keeps (service : LocalFileBufferService) (fault : Option NdnError)
    (handleId : HandleId) :
    GivesBack service (service.getBuffer fault handleId).1 0 ∧
      (service.getBuffer fault handleId).1.files = service.files := by
  unfold getBuffer
  cases service.records.find? handleId with
  | some record => exact ⟨GivesBack.refl service, rfl⟩
  | none =>
      cases fault with
      | some e => exact ⟨GivesBack.refl service, rfl⟩
      | none =>
          cases service.db.find? handleId with
          | none => exact ⟨GivesBack.refl service, rfl⟩
          | some row => exact ⟨⟨rfl, rfl, rfl, Nat.le_refl _⟩, rfl⟩

theorem append_keeps (service : LocalFileBufferService) (faults : AppendFaults)
    (fb : FileBufferRecord) (data : List UInt8) :
    GivesBack service (service.append faults fb data).1 0 := by
  unfold append
  split_ifs
  · exact GivesBack.refl service
  · split
    · exact GivesBack.refl service
    · split
      · exact GivesBack.refl service
      · exact GivesBack.refl service
      · split <;> exact ⟨rfl, rfl, rfl, Nat.le_refl _⟩

theorem flush_keeps (service : LocalFileBufferService) (around : Surroundings)
    (fb : FileBufferRecord) :
    GivesBack service (service.flush around fb).1 0 ∧
      (service.flush around fb).1.files = service.files ∧
      (service.flush around fb).1.records = service.records ∧
      (service.flush around fb).1.diffStates = service.diffStates := by
  unfold flush
  cases around.syncFile with
  | some e => exact ⟨GivesBack.refl service, rfl, rfl, rfl⟩
  | none => exact service.persistMeta_keeps around.setMeta fb

theorem linkBuffer_keeps (service : LocalFileBufferService) (around : Surroundings)
    (fb : FileBufferRecord) (data : FinalizeData) :
    GivesBack service (service.linkBuffer around fb data).1 0 ∧
      (service.linkBuffer around fb data).2 ≠ .ok true := by
  unfold linkBuffer
  cases around.stored with
  | error e => exact ⟨GivesBack.refl service, by simp⟩
  | ok u =>
      dsimp only
      have hmarked : ∀ diffStates, GivesBack service { service with diffStates := diffStates } 0 :=
        fun _ => ⟨rfl, rfl, rfl, Nat.le_refl _⟩
      cases around.persistMeta with
      | some e => exact ⟨hmarked _, by simp [persistMeta]⟩
      | none =>
          cases around.fsmeta with
          | error e => exact ⟨⟨rfl, rfl, rfl, Nat.le_refl _⟩, by simp [persistMeta]⟩
          | ok u => exact ⟨⟨rfl, rfl, rfl, Nat.le_refl _⟩, by simp [persistMeta]⟩

/-- What is given back is the length that `metadata` finds. -/
theorem giveBack_eq (hpoisoned : service.poisoned = false) (metadataFails : Bool)
    (path : HandleId) :
    service.giveBack metadataFails path =
      ({ service with sizeUsed := service.sizeUsed - service.lengthAt metadataFails path },
        some ()) := by
  unfold giveBack lengthAt
  cases service.files.find? path with
  | none => cases metadataFails <;> rfl
  | some file =>
      cases metadataFails with
      | true => rfl
      | false => simp [hpoisoned]

/-- A finalization fails before it gives anything back; or it gives back the length of the
file, and fails only if the file cannot be removed. -/
theorem doFinalize_cases (hpoisoned : service.poisoned = false) (around : Surroundings)
    (record : FileBufferRecord) (data : FinalizeData) (linkedAt : Nat) (path : HandleId) :
    let finalized := service.doFinalize around record data linkedAt path
    (GivesBack service finalized.1 0 ∧ ∃ e, finalized.2 = some (.error e)) ∨
      around.persistMeta = none ∧ around.fsmeta = .ok () ∧
        GivesBack service finalized.1 (service.lengthAt around.metadataFails path) ∧
        finalized.2 = some (match around.removeFile with
          | none => .ok ()
          | some e => .error e) := by
  unfold doFinalize
  have hmarked : GivesBack service (service.markFinalized record data linkedAt around.now) 0 :=
    ⟨rfl, rfl, rfl, Nat.le_refl _⟩
  have hfiles : (service.markFinalized record data linkedAt around.now).files =
      service.files := rfl
  dsimp only
  generalize service.markFinalized record data linkedAt around.now = marked at hmarked hfiles ⊢
  obtain ⟨hpersists, hpersistFiles, -, -⟩ :=
    marked.persistMeta_keeps around.persistMeta { record with readOnly := true }
  cases hpersist : around.persistMeta with
  | some e =>
      rw [hpersist] at hpersists
      exact Or.inl ⟨hmarked.trans hpersists, e, rfl⟩
  | none =>
  rw [hpersist] at hpersists hpersistFiles
  have hanswer : ∃ persisted, marked.persistMeta none { record with readOnly := true } =
      (persisted, .ok ()) := ⟨_, rfl⟩
  obtain ⟨persisted, hpersisted⟩ := hanswer
  rw [hpersisted] at hpersists hpersistFiles ⊢
  have hkept : GivesBack service persisted 0 := hmarked.trans hpersists
  dsimp only
  cases hfsmeta : around.fsmeta with
  | error e => exact Or.inl ⟨hkept, e, rfl⟩
  | ok u =>
  dsimp only
  have hlength : persisted.lengthAt around.metadataFails path =
      service.lengthAt around.metadataFails path := by
    unfold lengthAt
    rw [show persisted.files = service.files from hpersistFiles.trans hfiles]
  rw [persisted.giveBack_eq (hkept.poisoned.trans hpoisoned), hlength]
  dsimp only
  refine Or.inr ⟨rfl, rfl, ?_, ?_⟩
  · have hgives : GivesBack persisted
        { persisted with
          sizeUsed := persisted.sizeUsed - service.lengthAt around.metadataFails path }
        (service.lengthAt around.metadataFails path) :=
      ⟨rfl, rfl, rfl, Nat.le_refl _⟩
    have hall := hkept.trans hgives
    rw [Nat.zero_add] at hall
    unfold removeFile
    cases around.removeFile with
    | none => exact ⟨hall.limit, hall.used, hall.poisoned, hall.nextSeq⟩
    | some e => exact hall
  · unfold removeFile
    cases around.removeFile <;> rfl

/-- The same for what comes before a finalization. -/
theorem publish_cases (hpoisoned : service.poisoned = false) (around : Surroundings)
    (handleId : HandleId) (data : FinalizeData) (linkedAt : Nat) (path : HandleId) :
    let published := service.publish around handleId data linkedAt path
    (GivesBack service published.1 0 ∧ ∃ e, published.2 = some (.error e)) ∨
      (service.records.find? handleId).isSome ∧ around.stored = .ok () ∧
        around.persistMeta = none ∧ around.fsmeta = .ok () ∧
        GivesBack service published.1 (service.lengthAt around.metadataFails path) ∧
        published.2 = some (match around.removeFile with
          | none => .ok ()
          | some e => .error e) := by
  unfold publish
  cases around.stored with
  | error e => exact Or.inl ⟨GivesBack.refl service, e, rfl⟩
  | ok u =>
      unfold getRecord
      cases service.records.find? handleId with
      | none => exact Or.inl ⟨GivesBack.refl service, _, rfl⟩
      | some record =>
          rcases service.doFinalize_cases hpoisoned around record data linkedAt path with
            hfails | hgives
          · exact Or.inl hfails
          · exact Or.inr ⟨rfl, rfl, hgives⟩

/-- A removal gives back the length of the file, and may fail then. -/
theorem remove_eq (hpoisoned : service.poisoned = false) (metadataFails : Bool)
    (removeFile removeRow : Option NdnError) (fb : FileBufferRecord) :
    let removed := service.remove metadataFails removeFile removeRow fb
    GivesBack service removed.1 (service.lengthAt metadataFails fb.diffFilePath) ∧
      if removeFile.isSome || removeRow.isSome then ∃ e, removed.2 = some (.error e)
      else removed.2 = some (.ok ()) := by
  unfold remove
  have hgone : ({ service with records := service.records.deleteKey fb.handleId } :
      LocalFileBufferService).poisoned = false := hpoisoned
  have hlength : ({ service with records := service.records.deleteKey fb.handleId } :
      LocalFileBufferService).lengthAt metadataFails fb.diffFilePath =
        service.lengthAt metadataFails fb.diffFilePath := rfl
  dsimp only
  rw [giveBack_eq hgone, hlength]
  dsimp only
  unfold LocalFileBufferService.removeFile
  cases removeFile with
  | some e => exact ⟨⟨rfl, rfl, rfl, Nat.le_refl _⟩, e, rfl⟩
  | none =>
      cases removeRow with
      | some e => exact ⟨⟨rfl, rfl, rfl, Nat.le_refl _⟩, e, rfl⟩
      | none => exact ⟨⟨rfl, rfl, rfl, Nat.le_refl _⟩, rfl⟩

/-- What is written for a new buffer leaves the capacity alone.  The record has the handle
that was next, which is not next any more; and there is a record if nothing fails. -/
theorem createBuffer_cases (service : LocalFileBufferService) (ts fileInodeId : Nat)
    (baseChunkList : List ChunkId) (faults : AllocFaults) :
    let created := service.createBuffer ts fileInodeId baseChunkList faults
    GivesBack service created.1 0 ∧
      (∀ record, created.2 = .ok record →
        record.handleId.seq = service.nextSeq ∧ created.1.nextSeq = service.nextSeq + 1) ∧
      (Allocates service ts faults → ∃ record, created.2 = .ok record) := by
  unfold createBuffer Allocates
  -- One step after the other: each fails, or it does not and the next one follows.
  cases faults.createDirs with
  | some e => exact ⟨GivesBack.refl service, by simp, by simp⟩
  | none =>
  cases faults.createParent with
  | some e => exact ⟨⟨rfl, rfl, rfl, Nat.le_succ _⟩, by simp, by simp⟩
  | none =>
  cases faults.openFile with
  | some e => exact ⟨⟨rfl, rfl, rfl, Nat.le_succ _⟩, by simp, by simp⟩
  | none =>
  dsimp only
  cases hfile : service.files.find? ⟨ts, service.nextSeq⟩ with
  | some file => exact ⟨⟨rfl, rfl, rfl, Nat.le_succ _⟩, by simp, by simp⟩
  | none =>
  cases faults.addBuffer with
  | some e => exact ⟨⟨rfl, rfl, rfl, Nat.le_succ _⟩, by simp, by simp⟩
  | none =>
  cases hrow : service.db.find? ⟨ts, service.nextSeq⟩ with
  | some row => exact ⟨⟨rfl, rfl, rfl, Nat.le_succ _⟩, by simp, by simp⟩
  | none =>
      refine ⟨⟨rfl, rfl, rfl, Nat.le_succ _⟩, ?_, fun _ => ⟨_, rfl⟩⟩
      intro record hrecord
      cases hrecord
      exact ⟨rfl, rfl⟩

/-- A size that fits is added to the capacity in use. -/
theorem reserve_some (hlimit : service.sizeLimit ≠ 0) (hpoisoned : service.poisoned = false)
    {expect : UInt64} (hword : service.sizeUsed + expect.toNat < 2 ^ 64) :
    service.reserve (some expect) =
      if service.sizeLimit.toNat < service.sizeUsed + expect.toNat then
        (service, some (.error (.invalidState "buffer capacity exceeded")))
      else
        ({ service with sizeUsed := service.sizeUsed + expect.toNat }, some (.ok ())) := by
  unfold reserve
  rw [if_neg hlimit]
  dsimp only
  rw [hpoisoned, if_neg (by simp), if_neg (by omega)]

theorem reserve_none (service : LocalFileBufferService) :
    service.reserve none = (service, some (.ok ())) := by
  unfold reserve
  split_ifs <;> rfl

end LocalFileBufferService

/-! ## The invariant -/

/-- What holds after safe calls. -/
structure CapacityInv (system : BufferSystem) : Prop where
  limited : system.service.sizeLimit ≠ 0
  unpoisoned : system.service.poisoned = false
  exact : CapacityExact system
  fresh : ∀ r ∈ system.reserved.rows, r.handleId.seq < system.service.nextSeq

namespace CapacityInv

variable {system : BufferSystem} {service : LocalFileBufferService}

/-- A call gives back a length and ends no buffer, where the length takes nothing off. -/
theorem keeps (h : CapacityInv system) {length : Nat}
    (hgives : GivesBack system.service service length)
    (hnothing : min length system.service.sizeUsed = 0) :
    CapacityInv ⟨service, system.reserved⟩ where
  limited := by
    rw [hgives.limit]
    exact h.limited
  unpoisoned := hgives.poisoned.trans h.unpoisoned
  exact := by
    have hused : service.sizeUsed = system.service.sizeUsed := by
      rw [hgives.used]
      omega
    constructor
    · rw [hused]
      exact h.exact.used
    · rw [hused, hgives.limit]
      exact h.exact.within
  fresh r hr := Nat.lt_of_lt_of_le (h.fresh r hr) hgives.nextSeq

/-- A call gives back a length and ends a buffer, where the length takes off what this has
reserved. -/
theorem ends (h : CapacityInv system) {length : Nat} {handleId : HandleId}
    (hgives : GivesBack system.service service length)
    (hreserved : min length system.service.sizeUsed = system.reservedFor handleId) :
    CapacityInv ⟨service, system.reserved.deleteKey handleId⟩ where
  limited := by
    rw [hgives.limit]
    exact h.limited
  unpoisoned := hgives.poisoned.trans h.unpoisoned
  exact := by
    have hsplit : system.totalReserved =
        (system.reserved.deleteKey handleId).total Reservation.size +
          system.reservedFor handleId :=
      Table.total_eq_add_find? system.reserved handleId Reservation.size
    have hused := h.exact.used
    have hwithin := h.exact.within
    constructor
    · show service.sizeUsed = (system.reserved.deleteKey handleId).total Reservation.size
      rw [hgives.used]
      omega
    · show service.sizeUsed ≤ service.sizeLimit.toNat
      rw [hgives.used, hgives.limit]
      omega
  fresh r hr := Nat.lt_of_lt_of_le (h.fresh r (Table.mem_deleteWhere.mp hr).1) hgives.nextSeq

/-- A call that takes off the right amount, where an error ends no buffer. -/
theorem takesOff (h : CapacityInv system) {handleId path : HandleId} {fails metadataFails : Bool}
    (hgives : GivesBack system.service service
      (system.service.lengthAt metadataFails path))
    (hsafe : TakesOff system fails metadataFails handleId path) :
    CapacityInv ⟨service, if fails then system.reserved
      else system.reserved.deleteKey handleId⟩ := by
  unfold TakesOff at hsafe
  cases fails with
  | true => exact h.keeps hgives hsafe
  | false => exact h.ends hgives hsafe

/-- A new buffer has the size it reserves. -/
theorem reserves (h : CapacityInv system) {record : FileBufferRecord} {size : Nat}
    (hlimit : service.sizeLimit = system.service.sizeLimit)
    (hused : service.sizeUsed = system.service.sizeUsed + size)
    (hfits : system.service.sizeUsed + size ≤ system.service.sizeLimit.toNat)
    (hpoisoned : service.poisoned = false)
    (hseq : record.handleId.seq = system.service.nextSeq)
    (hnext : service.nextSeq = system.service.nextSeq + 1) :
    CapacityInv ⟨service, system.reserved.insertOrReplace ⟨record.handleId, size⟩⟩ where
  limited := by
    rw [hlimit]
    exact h.limited
  unpoisoned := hpoisoned
  exact := by
    -- No buffer has reserved anything under the handle that was next.
    have habsent : system.reserved.find? record.handleId = none := by
      cases hfind : system.reserved.find? record.handleId with
      | none => rfl
      | some r =>
          obtain ⟨hmem, hkey⟩ := Table.find?_eq_some_iff.mp hfind
          have hlt := h.fresh r hmem
          rw [hkey, hseq] at hlt
          exact absurd hlt (Nat.lt_irrefl _)
    have hsplit := Table.total_eq_add_find? system.reserved record.handleId Reservation.size
    rw [habsent] at hsplit
    have htotal := Table.total_insertOrReplace system.reserved
      ⟨record.handleId, size⟩ Reservation.size
    constructor
    · show service.sizeUsed = Table.total _ Reservation.size
      rw [htotal, hused, h.exact.used]
      show system.reserved.total Reservation.size + size = _
      rw [hsplit]
      rfl
    · show service.sizeUsed ≤ service.sizeLimit.toNat
      rw [hused, hlimit]
      exact hfits
  fresh r hr := by
    show r.handleId.seq < service.nextSeq
    rw [hnext]
    rcases Table.mem_insertOrReplace.mp hr with rfl | ⟨hr, -⟩
    · show record.handleId.seq < _
      omega
    · exact Nat.lt_succ_of_lt (h.fresh r hr)

end CapacityInv

/-! ## One call after the other -/

section Steps

variable {system : BufferSystem}

/-- Where the expected size does not fit, the answer is the error of the capacity. -/
theorem refusesFull (h : CapacityInv system) {action : BufferAction}
    (hsafe : CapacitySafe system action) : RefusesFull system action := by
  cases action with
  | alloc ts fileInodeId baseChunkList expectedSize faults =>
      rintro expect rfl hfull
      unfold LocalFileBufferService.allocBuffer
      rw [LocalFileBufferService.reserve_some h.limited h.unpoisoned (hsafe expect rfl).1,
        if_pos hfull]
  | _ => trivial

/-- An allocation. -/
theorem capacityInv_alloc (h : CapacityInv system) (ts fileInodeId : Nat)
    (baseChunkList : List ChunkId) (expectedSize : Option UInt64) (faults : AllocFaults)
    (hsafe : CapacitySafe system (.alloc ts fileInodeId baseChunkList expectedSize faults)) :
    CapacityInv (system.step (.alloc ts fileInodeId baseChunkList expectedSize faults)) := by
  unfold BufferSystem.step LocalFileBufferService.allocBuffer
  dsimp only
  cases expectedSize with
  | none =>
      rw [LocalFileBufferService.reserve_none]
      obtain ⟨hkeeps, -, -⟩ :=
        system.service.createBuffer_cases ts fileInodeId baseChunkList faults
      dsimp only
      generalize system.service.createBuffer ts fileInodeId baseChunkList faults = created
        at hkeeps ⊢
      obtain ⟨service, answer⟩ := created
      cases answer with
      | error e => exact h.keeps hkeeps (Nat.zero_min _)
      | ok record => exact h.keeps hkeeps (Nat.zero_min _)
  | some expect =>
      obtain ⟨hword, hallocates⟩ := hsafe expect rfl
      rw [LocalFileBufferService.reserve_some h.limited h.unpoisoned hword]
      split_ifs with hfull
      · exact h
      have hfits := Nat.le_of_not_lt hfull
      dsimp only
      -- The size is reserved before the buffer is made.
      have hallocates : expect = 0 ∨ Allocates { system.service with
          sizeUsed := system.service.sizeUsed + expect.toNat } ts faults := hallocates hfits
      obtain ⟨hkeeps, hrecord, hmade⟩ := LocalFileBufferService.createBuffer_cases
        { system.service with sizeUsed := system.service.sizeUsed + expect.toNat }
        ts fileInodeId baseChunkList faults
      generalize LocalFileBufferService.createBuffer
        { system.service with sizeUsed := system.service.sizeUsed + expect.toNat }
        ts fileInodeId baseChunkList faults = created at hkeeps hrecord hmade ⊢
      obtain ⟨service, answer⟩ := created
      cases answer with
      | ok record =>
          obtain ⟨hseq, hnext⟩ := hrecord record rfl
          exact h.reserves hkeeps.limit hkeeps.used hfits
            (hkeeps.poisoned.trans h.unpoisoned) hseq hnext
      | error e =>
          -- Only a buffer that reserves nothing may fail here.
          rcases hallocates with rfl | hallocates
          · exact h.keeps ⟨hkeeps.limit, hkeeps.used, hkeeps.poisoned, hkeeps.nextSeq⟩
              (Nat.zero_min _)
          · obtain ⟨record, hmade⟩ := hmade hallocates
            exact absurd hmade (by simp)

/-- What a publication makes of the service and of what is reserved. -/
theorem capacityInv_publish (h : CapacityInv system) {service : LocalFileBufferService}
    (hkeeps : GivesBack system.service service 0) (hfiles : service.files = system.service.files)
    (around : Surroundings) (handleId : HandleId) (data : FinalizeData) (linkedAt : Nat)
    (path : HandleId)
    (hsafe : (service.records.find? handleId).isSome →
      PublishesWell system around handleId path) :
    let published := service.publish around handleId data linkedAt path
    CapacityInv ⟨published.1, match published.2 with
      | some (.ok ()) => system.reserved.deleteKey handleId
      | _ => system.reserved⟩ := by
  have hcases := service.publish_cases (hkeeps.poisoned.trans h.unpoisoned) around handleId data
    linkedAt path
  generalize service.publish around handleId data linkedAt path = published at hcases ⊢
  obtain ⟨publishedService, answer⟩ := published
  dsimp only at hcases ⊢
  rcases hcases with ⟨hfails, e, rfl⟩ | ⟨hrecord, hstored, hpersist, hfsmeta, hgives, rfl⟩
  · exact h.keeps (hkeeps.trans hfails) (Nat.zero_min _)
  · have htakes := hsafe hrecord hstored hpersist hfsmeta
    have hlength : service.lengthAt around.metadataFails path =
        system.service.lengthAt around.metadataFails path := by
      unfold LocalFileBufferService.lengthAt
      rw [hfiles]
    have hall := hkeeps.trans hgives
    rw [hlength, Nat.zero_add] at hall
    have hends := h.takesOff hall htakes
    cases hremove : around.removeFile with
    | none =>
        rw [hremove] at hends
        exact hends
    | some e =>
        rw [hremove] at hends
        exact hends

/-- A finalization by its content. -/
theorem capacityInv_caclName (h : CapacityInv system) (around : Surroundings)
    (fb : FileBufferRecord) (hsafe : CapacitySafe system (.caclName around fb)) :
    CapacityInv (system.step (.caclName around fb)) := by
  unfold BufferSystem.step LocalFileBufferService.caclName
  dsimp only
  obtain ⟨hkeeps, hfiles, hrecords, hstates⟩ := system.service.flush_keeps around fb
  have hflushed : (system.service.flush around fb).2 = .ok () →
      around.syncFile = none ∧ around.setMeta = none := by
    unfold LocalFileBufferService.flush LocalFileBufferService.persistMeta
    cases around.syncFile <;> cases around.setMeta <;> simp
  generalize system.service.flush around fb = flushed at hkeeps hfiles hrecords hstates hflushed ⊢
  obtain ⟨service, answer⟩ := flushed
  cases answer with
  | error e => exact h.keeps hkeeps (Nat.zero_min _)
  | ok u =>
  obtain ⟨hsync, hset⟩ := hflushed rfl
  obtain ⟨hended, hpublishes⟩ := hsafe hsync hset
  dsimp only at hkeeps hfiles hrecords hstates ⊢
  rw [hstates]
  split_ifs with hfinal hlinked
  · -- The buffer has been finalized before, and nothing is reserved for it.
    have hzero := hended hfinal
    exact h.ends hkeeps (by rw [hzero, Nat.zero_min])
  · exact h.keeps hkeeps (Nat.zero_min _)
  have hbuild : service.buildFinalizeData around fb =
      system.service.buildFinalizeData around fb := by
    unfold LocalFileBufferService.buildFinalizeData
    rw [hfiles]
  rw [hbuild]
  cases hdata : system.service.buildFinalizeData around fb with
  | error e => exact h.keeps hkeeps (Nat.zero_min _)
  | ok data =>
  dsimp only
  split_ifs with hdirect
  · have hwell := hpublishes (Option.not_isSome_iff_eq_none.mp hfinal)
      (Option.not_isSome_iff_eq_none.mp hlinked) data hdata hdirect
    have hpublished := capacityInv_publish h hkeeps hfiles around fb.handleId data around.now
      fb.diffFilePath (by rw [hrecords]; exact hwell)
    generalize service.publish around fb.handleId data around.now fb.diffFilePath = published
      at hpublished ⊢
    obtain ⟨publishedService, answer⟩ := published
    cases answer with
    | none => exact hpublished
    | some result =>
        cases result with
        | error e => exact hpublished
        | ok u => exact hpublished
  · -- A link does not finalize.
    obtain ⟨hlinks, hnever⟩ := service.linkBuffer_keeps around fb data
    generalize service.linkBuffer around fb data = linked at hlinks hnever ⊢
    obtain ⟨linkedService, answer⟩ := linked
    have hkept := h.keeps (hkeeps.trans hlinks) (Nat.zero_min _)
    cases answer with
    | error e => exact hkept
    | ok finalized =>
        cases finalized with
        | true => exact absurd rfl hnever
        | false => exact hkept

/-- A finalization by its handle. -/
theorem capacityInv_finalize (h : CapacityInv system) (around : Surroundings)
    (fbId : HandleId) (hsafe : CapacitySafe system (.finalize around fbId)) :
    CapacityInv (system.step (.finalize around fbId)) := by
  unfold BufferSystem.step LocalFileBufferService.finalize
  dsimp only
  obtain ⟨hkeeps, hfiles⟩ := system.service.getBuffer_keeps around.loadRecord fbId
  have hsafe := hsafe (system.service.getBuffer around.loadRecord fbId).1
  cases hget : system.service.getBuffer around.loadRecord fbId with
  | mk service answer =>
  rw [hget] at hkeeps hfiles hsafe
  cases answer with
  | error e => exact h.keeps hkeeps (Nat.zero_min _)
  | ok record =>
  obtain ⟨hended, hpublishes⟩ := hsafe record rfl
  dsimp only at hkeeps hfiles hended hpublishes ⊢
  split_ifs with hfinal
  · have hzero := hended hfinal
    exact h.ends hkeeps (by rw [hzero, Nat.zero_min])
  cases hdata : service.buildFinalizeData around record with
  | error e => exact h.keeps hkeeps (Nat.zero_min _)
  | ok data =>
  have hwell := hpublishes (Option.not_isSome_iff_eq_none.mp hfinal) data hdata
  dsimp only
  have hpublished := capacityInv_publish h hkeeps hfiles around fbId data
    ((service.diffStates record.diffState).linkedAt.getD around.now) record.diffFilePath
    (fun _ => hwell)
  generalize service.publish around fbId data
    ((service.diffStates record.diffState).linkedAt.getD around.now) record.diffFilePath =
      published at hpublished ⊢
  obtain ⟨publishedService, answer⟩ := published
  cases answer with
  | none => exact hpublished
  | some result =>
      cases result with
      | error e => exact hpublished
      | ok u => exact hpublished

/-- A removal. -/
theorem capacityInv_remove (h : CapacityInv system) (metadataFails : Bool)
    (removeFile removeRow : Option NdnError) (fb : FileBufferRecord)
    (hsafe : CapacitySafe system (.remove metadataFails removeFile removeRow fb)) :
    CapacityInv (system.step (.remove metadataFails removeFile removeRow fb)) := by
  unfold BufferSystem.step
  dsimp only
  obtain ⟨hgives, hanswer⟩ := system.service.remove_eq h.unpoisoned metadataFails removeFile
    removeRow fb
  generalize system.service.remove metadataFails removeFile removeRow fb = removed
    at hgives hanswer ⊢
  obtain ⟨service, answer⟩ := removed
  have hends := h.takesOff hgives hsafe
  cases hfails : removeFile.isSome || removeRow.isSome with
  | true =>
      rw [hfails] at hends
      rw [if_pos hfails] at hanswer
      obtain ⟨e, he⟩ := hanswer
      dsimp only at he
      subst he
      exact hends
  | false =>
      rw [hfails] at hends
      rw [if_neg (by simp [hfails])] at hanswer
      dsimp only at hanswer
      subst hanswer
      exact hends

/-- Every safe call keeps the invariant. -/
theorem capacityInv_step (h : CapacityInv system) {action : BufferAction}
    (hsafe : CapacitySafe system action) : CapacityInv (system.step action) := by
  cases action with
  | alloc ts fileInodeId baseChunkList expectedSize faults =>
      exact capacityInv_alloc h ts fileInodeId baseChunkList expectedSize faults hsafe
  | get fault handleId =>
      exact h.keeps (system.service.getBuffer_keeps fault handleId).1 (Nat.zero_min _)
  | append faults fb data =>
      exact h.keeps (system.service.append_keeps faults fb data) (Nat.zero_min _)
  | writeDiff path bytes => exact h.keeps ⟨rfl, rfl, rfl, Nat.le_refl _⟩ (Nat.zero_min _)
  | flush around fb => exact h.keeps (system.service.flush_keeps around fb).1 (Nat.zero_min _)
  | caclName around fb => exact capacityInv_caclName h around fb hsafe
  | finalize around fbId => exact capacityInv_finalize h around fbId hsafe
  | remove metadataFails removeFile removeRow fb =>
      exact capacityInv_remove h metadataFails removeFile removeRow fb hsafe

end Steps

/-! ## Runs -/

/-- Loading the rows reserves nothing. -/
theorem capacityInv_init {sizeLimit : UInt64} (hlimit : sizeLimit ≠ 0)
    (db : Table FileBufferRecordMeta FileBufferRecordMeta.handleId)
    (files : Table DiffFile DiffFile.path) (nextSeq : Nat) (loadFails : Bool) :
    CapacityInv (.init sizeLimit db files nextSeq loadFails) := by
  have hload : ∀ (rows : List FileBufferRecordMeta) (service : LocalFileBufferService),
      let loaded := rows.foldl (fun service row => (service.insertFromMeta row).1) service
      loaded.sizeLimit = service.sizeLimit ∧ loaded.sizeUsed = service.sizeUsed ∧
        loaded.poisoned = service.poisoned := by
    intro rows
    induction rows with
    | nil => exact fun service => ⟨rfl, rfl, rfl⟩
    | cons row rest ih => exact fun service => ih (service.insertFromMeta row).1
  obtain ⟨hlimited, hused, hpoisoned⟩ := hload (if loadFails then [] else db.rows)
    ⟨sizeLimit, 0, false, Table.empty, fun _ => .empty, 0, db, files, nextSeq⟩
  constructor
  · show LocalFileBufferService.sizeLimit (LocalFileBufferService.new _ _ _ _ _) ≠ 0
    rw [show LocalFileBufferService.sizeLimit (LocalFileBufferService.new _ _ _ _ _) = sizeLimit
      from hlimited]
    exact hlimit
  · exact hpoisoned
  · exact ⟨hused, (Nat.le_of_eq hused).trans (Nat.zero_le _)⟩
  · intro r hr
    exact absurd hr (by simp [BufferSystem.init, Table.empty])

/-- In a run of safe calls the capacity in use is what the buffers have reserved, within the
limit, and a buffer that does not fit is refused with nothing changed. -/
theorem capacity_exact_of_safe {sizeLimit : UInt64} (hlimit : sizeLimit ≠ 0)
    (db : Table FileBufferRecordMeta FileBufferRecordMeta.handleId)
    (files : Table DiffFile DiffFile.path) (nextSeq : Nat) (loadFails : Bool)
    (actions : List BufferAction)
    (hsafe : Along BufferSystem.step CapacitySafe
      (.init sizeLimit db files nextSeq loadFails) actions) :
    CapacityExact
        (run BufferSystem.step (.init sizeLimit db files nextSeq loadFails) actions) ∧
      Along BufferSystem.step RefusesFull (.init sizeLimit db files nextSeq loadFails) actions := by
  have hinit := capacityInv_init hlimit db files nextSeq loadFails
  constructor
  · have hinv := run_invariant (fun _ _ hallowed h => capacityInv_step h hallowed) hsafe hinit
    exact hinv.exact
  · exact hsafe.of_invariant
      (fun _ _ hallowed h => ⟨capacityInv_step h hallowed, refusesFull h hallowed⟩) hinit

/-- The first buffer of a service. -/
def firstBuffer : FileBufferRecord := ⟨⟨7, 0⟩, 1, .none, false, ⟨7, 0⟩, 0⟩

/-- The second one. -/
def secondBuffer : FileBufferRecord := ⟨⟨8, 1⟩, 2, .none, false, ⟨8, 1⟩, 1⟩

/-- Surroundings in which nothing fails. -/
def calmSurroundings : Surroundings :=
  ⟨0, none, none, none, .ok ⟨0, ⟨"cyfile", []⟩, ⟨.sha256, []⟩⟩, .ok (), none, .ok (), false, none⟩

/-- Two buffers get what they have reserved, and a third one does not fit.  One is finalized
and the other one removed. -/
def twoBuffersWritten : List BufferAction :=
  [.alloc 7 1 [] (some 3) .none, .alloc 8 2 [] (some 4) .none,
    .append ⟨none, none, none, none, none⟩ firstBuffer [97, 98, 99],
    .append ⟨none, none, none, none, none⟩ secondBuffer [100, 101, 102, 103],
    .alloc 9 3 [] (some 4) .none, .finalize calmSurroundings ⟨7, 0⟩,
    .remove false none none secondBuffer]

theorem twoBuffersWritten_exact :
    (10 : UInt64) ≠ 0 ∧
      Along BufferSystem.step CapacitySafe (.init 10 Table.empty Table.empty 0 false)
        twoBuffersWritten ∧
      CapacityExact
        (run BufferSystem.step (.init 10 Table.empty Table.empty 0 false) twoBuffersWritten) ∧
      Along BufferSystem.step RefusesFull (.init 10 Table.empty Table.empty 0 false)
        twoBuffersWritten ∧
      (run BufferSystem.step (.init 10 Table.empty Table.empty 0 false)
        twoBuffersWritten).service.sizeUsed = 0 := by
  have hlimit : (10 : UInt64) ≠ 0 := by decide
  have hsafe : Along BufferSystem.step CapacitySafe (.init 10 Table.empty Table.empty 0 false)
      twoBuffersWritten := by
    refine ⟨?_, ?_, trivial, trivial, ?_, ?_, ?_, trivial⟩
    · rintro expect hexpect
      cases hexpect
      refine ⟨by decide, fun _ => Or.inr ⟨rfl, rfl, rfl, rfl, ?_, ?_⟩⟩
      · decide
      · decide
    · rintro expect hexpect
      cases hexpect
      refine ⟨by decide, fun _ => Or.inr ⟨rfl, rfl, rfl, rfl, ?_, ?_⟩⟩
      · decide
      · decide
    · rintro expect hexpect
      cases hexpect
      exact ⟨by decide, fun hfits => absurd hfits (by decide)⟩
    · rintro service record hget
      cases hget
      refine ⟨fun hfinal => absurd hfinal (by decide), ?_⟩
      intro _ data _ _ _ _
      show min _ _ = _
      decide
    · show min _ _ = _
      decide
  obtain ⟨hexact, hrefuses⟩ := capacity_exact_of_safe hlimit _ _ _ _ _ hsafe
  exact ⟨hlimit, hsafe, hexact, hrefuses, by decide⟩

/-- The buffer of five bytes is removed before anything is written, and they stay in use. -/
theorem removedEmpty_leaves_reserved :
    ¬ CapacityExact
      (run BufferSystem.step (.init 10 Table.empty Table.empty 0 false)
        [.alloc 7 1 [] (some 5) .none, .remove false none none firstBuffer]) := by
  intro h
  exact absurd h.used (by decide)

end FsBuffer
end CyfsNdn

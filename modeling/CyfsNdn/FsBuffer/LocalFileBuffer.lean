import CyfsNdn.NdnLib.Chunk
import CyfsNdn.Relational.Table
import Mathlib.Logic.Function.Basic

/-!
# Buffers of files

`LocalFileBufferService` of `fs_buffer/src/local_filebuffer.rs` with its database: the
records in memory and in the database, the diff files, and the capacity that the buffers
have reserved.  Calls come one after the other.

What the content of a buffer is called, and what the named store and the meta service say to
it, comes with the call, as do the steps of the call that fail.  A call that panics has no
answer.
-/

namespace CyfsNdn
namespace FsBuffer

open NdnLib Relational

/-- A handle id, the text `fb-{ts}-{seq}`.  The path of the diff file is made of it. -/
structure HandleId where
  ts : Nat
  seq : Nat
  deriving DecidableEq, Repr

/-- The text of a handle id. -/
def HandleId.text (handleId : HandleId) : String :=
  "fb-" ++ toString handleId.ts ++ "-" ++ toString handleId.seq

/-- `FileBufferBaseReader`. -/
inductive FileBufferBaseReader where
  | none
  | baseChunkList (chunkIds : List ChunkId)
  deriving DecidableEq, Repr

/-- `FileBufferDiffState`, as far as the service itself reads it. -/
structure FileBufferDiffState where
  position : Nat
  totalSize : Nat
  linkedObjId : Option ObjId
  linkedQcid : Option ChunkId
  linkedAt : Option Nat
  finalizedAt : Option Nat
  deriving DecidableEq, Repr

/-- The default. -/
def FileBufferDiffState.empty : FileBufferDiffState := ⟨0, 0, none, none, none, none⟩

/-- `FileBufferRecordMeta`, a row of `file_buffers`. -/
structure FileBufferRecordMeta where
  handleId : HandleId
  fileInodeId : Nat
  baseReader : FileBufferBaseReader
  readOnly : Bool
  diffFilePath : HandleId
  diffState : FileBufferDiffState
  deriving DecidableEq, Repr

/-- `FileBufferRecord`.  The state is shared by all copies of a record, which have the number
under which it is kept. -/
structure FileBufferRecord where
  handleId : HandleId
  fileInodeId : Nat
  baseReader : FileBufferBaseReader
  readOnly : Bool
  diffFilePath : HandleId
  diffState : Nat
  deriving DecidableEq, Repr

/-- A diff file. -/
structure DiffFile where
  path : HandleId
  bytes : List UInt8
  deriving DecidableEq, Repr

/-- `LocalFileBufferService`. -/
structure LocalFileBufferService where
  sizeLimit : UInt64
  sizeUsed : Nat
  /-- A call has panicked with the lock of `size_used` in its hands. -/
  poisoned : Bool
  records : Table FileBufferRecord FileBufferRecord.handleId
  diffStates : Nat → FileBufferDiffState
  nextDiffState : Nat
  db : Table FileBufferRecordMeta FileBufferRecordMeta.handleId
  files : Table DiffFile DiffFile.path
  nextSeq : Nat

/-- The steps of `alloc_buffer` that fail. -/
structure AllocFaults where
  createDirs : Option NdnError
  createParent : Option NdnError
  openFile : Option NdnError
  addBuffer : Option NdnError

/-- Nothing fails. -/
def AllocFaults.none : AllocFaults := ⟨.none, .none, .none, .none⟩

/-- The steps of `append` that fail; a write that fails has written some bytes. -/
structure AppendFaults where
  createParent : Option NdnError
  openFile : Option NdnError
  writeAll : Option (Nat × NdnError)
  syncData : Option NdnError
  metadata : Option NdnError

/-- `FinalizeData`, without the path and the time. -/
structure FinalizeData where
  fileSize : Nat
  fileObjId : ObjId
  qcid : ChunkId
  deriving DecidableEq, Repr

/-- What happens to a call of `flush`, `cacl_name` or `finalize` on its way: what the content
is called, what the named store and the meta service answer, and what fails. -/
structure Surroundings where
  now : Nat
  loadRecord : Option NdnError
  syncFile : Option NdnError
  setMeta : Option NdnError
  built : NdnResult FinalizeData
  stored : NdnResult Unit
  persistMeta : Option NdnError
  fsmeta : NdnResult Unit
  metadataFails : Bool
  removeFile : Option NdnError

/-- `DIRECT_FINALIZE_FILE_SIZE`. -/
def directFinalizeFileSize : Nat := 2 * chunkDefaultSize

namespace LocalFileBufferService

/-! ## Records -/

/-- `get_record`. -/
def getRecord (service : LocalFileBufferService) (handleId : HandleId) :
    NdnResult FileBufferRecord :=
  match service.records.find? handleId with
  | none => .error (.notFound ("buffer not found: " ++ handleId.text))
  | some record => .ok record

/-- `to_meta`. -/
def toMeta (service : LocalFileBufferService) (record : FileBufferRecord) :
    FileBufferRecordMeta where
  handleId := record.handleId
  fileInodeId := record.fileInodeId
  baseReader := record.baseReader
  readOnly := record.readOnly
  diffFilePath := record.diffFilePath
  diffState := service.diffStates record.diffState

/-- A new record of what a row says, with a state of its own. -/
def insertFromMeta (service : LocalFileBufferService) (row : FileBufferRecordMeta) :
    LocalFileBufferService × FileBufferRecord :=
  let record : FileBufferRecord :=
    ⟨row.handleId, row.fileInodeId, row.baseReader, row.readOnly, row.diffFilePath,
      service.nextDiffState⟩
  ({ service with
      records := service.records.insertOrReplace record
      diffStates := Function.update service.diffStates service.nextDiffState row.diffState
      nextDiffState := service.nextDiffState + 1 }, record)

/-- `new`, on the database and the directory of an earlier service: the capacity in use starts
at zero, and a database that cannot be loaded gives no records. -/
def new (sizeLimit : UInt64) (db : Table FileBufferRecordMeta FileBufferRecordMeta.handleId)
    (files : Table DiffFile DiffFile.path) (nextSeq : Nat) (loadFails : Bool) :
    LocalFileBufferService :=
  let rows := if loadFails then [] else db.rows
  rows.foldl (fun service row => (service.insertFromMeta row).1)
    ⟨sizeLimit, 0, false, Table.empty, fun _ => .empty, 0, db, files, nextSeq⟩

/-- `persist_meta`, which updates the row if there is one. -/
def persistMeta (service : LocalFileBufferService) (fault : Option NdnError)
    (record : FileBufferRecord) : LocalFileBufferService × NdnResult Unit :=
  match fault with
  | some e => (service, .error e)
  | none =>
      ({ service with
          db := service.db.updateKey record.handleId
            (fun row => { service.toMeta record with handleId := row.handleId })
            fun _ => rfl }, .ok ())

/-- `get_buffer`. -/
def getBuffer (service : LocalFileBufferService) (fault : Option NdnError)
    (handleId : HandleId) : LocalFileBufferService × NdnResult FileBufferRecord :=
  match service.records.find? handleId with
  | some record => (service, .ok record)
  | none =>
      match fault with
      | some e => (service, .error e)
      | none =>
          match service.db.find? handleId with
          | none => (service, .error (.notFound ("buffer not found: " ++ handleId.text)))
          | some row =>
              let (service, record) := service.insertFromMeta row
              (service, .ok record)

/-! ## Allocating -/

/-- The check of the capacity in `alloc_buffer`. -/
def reserve (service : LocalFileBufferService) (expectedSize : Option UInt64) :
    LocalFileBufferService × Option (NdnResult Unit) :=
  if service.sizeLimit = 0 then (service, some (.ok ()))
  else
    match expectedSize with
    | none => (service, some (.ok ()))
    | some expect =>
        if service.poisoned then (service, none)
        -- `*used + expect` does not fit.
        else if 2 ^ 64 ≤ service.sizeUsed + expect.toNat then
          ({ service with poisoned := true }, none)
        else if service.sizeLimit.toNat < service.sizeUsed + expect.toNat then
          (service, some (.error (.invalidState "buffer capacity exceeded")))
        else
          ({ service with sizeUsed := service.sizeUsed + expect.toNat }, some (.ok ()))

/-- `alloc_buffer` after the check. -/
def createBuffer (service : LocalFileBufferService) (ts fileInodeId : Nat)
    (baseChunkList : List ChunkId) (faults : AllocFaults) :
    LocalFileBufferService × NdnResult FileBufferRecord :=
  match faults.createDirs with
  | some e => (service, .error e)
  | none =>
      let handleId : HandleId := ⟨ts, service.nextSeq⟩
      let service := { service with nextSeq := service.nextSeq + 1 }
      match faults.createParent with
      | some e => (service, .error e)
      | none =>
          match faults.openFile with
          | some e => (service, .error e)
          | none =>
              if (service.files.find? handleId).isSome then
                (service, .error (.ioError "File exists"))
              else
                let service := { service with
                  files := service.files.insertOrReplace ⟨handleId, []⟩ }
                let baseReader := if baseChunkList = [] then FileBufferBaseReader.none
                  else .baseChunkList baseChunkList
                let row : FileBufferRecordMeta :=
                  ⟨handleId, fileInodeId, baseReader, false, handleId, .empty⟩
                match faults.addBuffer with
                | some e => (service, .error e)
                | none =>
                    if (service.db.find? handleId).isSome then
                      (service, .error (.dbError "insert buffer failed: "))
                    else
                      let (service, record) :=
                        { service with db := service.db.insertOrIgnore row }.insertFromMeta row
                      (service, .ok record)

/-- `alloc_buffer`. -/
def allocBuffer (service : LocalFileBufferService) (ts fileInodeId : Nat)
    (baseChunkList : List ChunkId) (expectedSize : Option UInt64) (faults : AllocFaults) :
    LocalFileBufferService × Option (NdnResult FileBufferRecord) :=
  match service.reserve expectedSize with
  | (service, none) => (service, none)
  | (service, some (.error e)) => (service, some (.error e))
  | (service, some (.ok ())) =>
      let (service, record) := service.createBuffer ts fileInodeId baseChunkList faults
      (service, some record)

/-! ## Writing -/

/-- `flush`, and `close`, which is the same.  A diff file that is not there is skipped. -/
def flush (service : LocalFileBufferService) (around : Surroundings)
    (fb : FileBufferRecord) : LocalFileBufferService × NdnResult Unit :=
  match around.syncFile with
  | some e => (service, .error e)
  | none => service.persistMeta around.setMeta fb

/-- `append`. -/
def append (service : LocalFileBufferService) (faults : AppendFaults) (fb : FileBufferRecord)
    (data : List UInt8) : LocalFileBufferService × NdnResult Unit :=
  if fb.readOnly then (service, .error (.permissionDenied "file buffer is read-only"))
  else
    match fb.baseReader with
    | .baseChunkList _ => (service, .error (.unsupported
        "append with base chunk list is handled by DiffChunkListWriter"))
    | .none =>
        match faults.createParent, faults.openFile with
        | some e, _ => (service, .error e)
        | none, some e => (service, .error e)
        | none, none =>
            let old := ((service.files.find? fb.diffFilePath).map DiffFile.bytes).getD []
            let put := fun bytes : List UInt8 => { service with
              files := service.files.insertOrReplace ⟨fb.diffFilePath, old ++ bytes⟩ }
            match faults.writeAll, faults.syncData, faults.metadata with
            | some (written, e), _, _ => (put (data.take written), .error e)
            | none, some e, _ => (put data, .error e)
            | none, none, some e => (put data, .error e)
            | none, none, none =>
                let service := put data
                let state := service.diffStates fb.diffState
                ({ service with
                    diffStates := Function.update service.diffStates fb.diffState
                      { state with
                        totalSize := old.length + data.length
                        position := old.length + data.length } }, .ok ())

/-- A writer of overlays puts its bytes into the diff file itself. -/
def writeDiff (service : LocalFileBufferService) (path : HandleId) (bytes : List UInt8) :
    LocalFileBufferService :=
  { service with files := service.files.insertOrReplace ⟨path, bytes⟩ }

/-! ## Finalizing -/

/-- `build_finalize_data`, which takes the size from the diff file, or the same for an
overlay. -/
def buildFinalizeData (service : LocalFileBufferService) (around : Surroundings)
    (record : FileBufferRecord) : NdnResult FinalizeData :=
  match record.baseReader with
  | .baseChunkList _ => around.built
  | .none =>
      match service.files.find? record.diffFilePath with
      | none => .error (.notFound ("diff file not found: " ++ record.diffFilePath.text))
      | some file =>
          around.built.map fun data => { data with fileSize := file.bytes.length }

/-- What the length of a diff file takes off the capacity in use, where it can be asked
for. -/
def giveBack (service : LocalFileBufferService) (metadataFails : Bool) (path : HandleId) :
    LocalFileBufferService × Option Unit :=
  match service.files.find? path, metadataFails with
  | some file, false =>
      if service.poisoned then (service, none)
      else ({ service with sizeUsed := service.sizeUsed - file.bytes.length }, some ())
  | _, _ => (service, some ())

/-- `remove_file`; a file that is not there is no error. -/
def removeFile (service : LocalFileBufferService) (fault : Option NdnError)
    (path : HandleId) : LocalFileBufferService × NdnResult Unit :=
  match fault with
  | some e => (service, .error e)
  | none => ({ service with files := service.files.deleteKey path }, .ok ())

/-- The record is read only and has what it was finalized to. -/
def markFinalized (service : LocalFileBufferService) (record : FileBufferRecord)
    (data : FinalizeData) (linkedAt now : Nat) : LocalFileBufferService :=
  let state := service.diffStates record.diffState
  { service with
    records := service.records.updateKey record.handleId
      (fun r => { r with readOnly := true }) fun _ => rfl
    diffStates := Function.update service.diffStates record.diffState
      { state with
        linkedObjId := some data.fileObjId
        linkedQcid := some data.qcid
        linkedAt := some linkedAt
        finalizedAt := some now } }

/-- `do_finalize` on a record in memory, for the data of a diff file. -/
def doFinalize (service : LocalFileBufferService) (around : Surroundings)
    (record : FileBufferRecord) (data : FinalizeData) (linkedAt : Nat) (path : HandleId) :
    LocalFileBufferService × Option (NdnResult Unit) :=
  let service := service.markFinalized record data linkedAt around.now
  match service.persistMeta around.persistMeta { record with readOnly := true } with
  | (service, .error e) => (service, some (.error e))
  | (service, .ok ()) =>
      match around.fsmeta with
      | .error e => (service, some (.error e))
      | .ok () =>
          match service.giveBack around.metadataFails path with
          | (service, none) => (service, none)
          | (service, some ()) =>
              let (service, removed) := service.removeFile around.removeFile path
              (service, some removed)

/-- What `cacl_name` and `finalize` have in common: the content is stored, and the record in
memory is finalized. -/
def publish (service : LocalFileBufferService) (around : Surroundings) (handleId : HandleId)
    (data : FinalizeData) (linkedAt : Nat) (path : HandleId) :
    LocalFileBufferService × Option (NdnResult Unit) :=
  match around.stored with
  | .error e => (service, some (.error e))
  | .ok () =>
      match service.getRecord handleId with
      | .error e => (service, some (.error e))
      | .ok record => service.doFinalize around record data linkedAt path

/-- `cacl_name` for a file that is linked. -/
def linkBuffer (service : LocalFileBufferService) (around : Surroundings)
    (fb : FileBufferRecord) (data : FinalizeData) : LocalFileBufferService × NdnResult Bool :=
  match around.stored with
  | .error e => (service, .error e)
  | .ok () =>
      let state := service.diffStates fb.diffState
      let service := { service with
        diffStates := Function.update service.diffStates fb.diffState
          { state with
            linkedObjId := some data.fileObjId
            linkedQcid := some data.qcid
            linkedAt := some around.now
            finalizedAt := none } }
      match service.persistMeta around.persistMeta fb with
      | (service, .error e) => (service, .error e)
      | (service, .ok ()) =>
          match around.fsmeta with
          | .error e => (service, .error e)
          | .ok () => (service, .ok false)

/-- `cacl_name`: whether the buffer is finalized. -/
def caclName (service : LocalFileBufferService) (around : Surroundings)
    (fb : FileBufferRecord) : LocalFileBufferService × Option (NdnResult Bool) :=
  match service.flush around fb with
  | (service, .error e) => (service, some (.error e))
  | (service, .ok ()) =>
      let state := service.diffStates fb.diffState
      if state.finalizedAt.isSome then (service, some (.ok true))
      else if state.linkedObjId.isSome then (service, some (.ok false))
      else
        match service.buildFinalizeData around fb with
        | .error e => (service, some (.error e))
        | .ok data =>
            if data.fileSize ≤ directFinalizeFileSize then
              let (service, finalized) :=
                service.publish around fb.handleId data around.now fb.diffFilePath
              (service, finalized.map fun result => result.map fun _ => true)
            else
              let (service, linked) := service.linkBuffer around fb data
              (service, some linked)

/-- `finalize`. -/
def finalize (service : LocalFileBufferService) (around : Surroundings)
    (fbId : HandleId) : LocalFileBufferService × Option (NdnResult Unit) :=
  match service.getBuffer around.loadRecord fbId with
  | (service, .error e) => (service, some (.error e))
  | (service, .ok record) =>
      let state := service.diffStates record.diffState
      if state.finalizedAt.isSome then (service, some (.ok ()))
      else
        match service.buildFinalizeData around record with
        | .error e => (service, some (.error e))
        | .ok data =>
            service.publish around fbId data (state.linkedAt.getD around.now)
              record.diffFilePath

/-! ## Removing -/

/-- `remove`. -/
def remove (service : LocalFileBufferService) (metadataFails : Bool)
    (removeFile removeRow : Option NdnError) (fb : FileBufferRecord) :
    LocalFileBufferService × Option (NdnResult Unit) :=
  let service := { service with records := service.records.deleteKey fb.handleId }
  match service.giveBack metadataFails fb.diffFilePath with
  | (service, none) => (service, none)
  | (service, some ()) =>
      match service.removeFile removeFile fb.diffFilePath with
      | (service, .error e) => (service, some (.error e))
      | (service, .ok ()) =>
          match removeRow with
          | some e => (service, some (.error e))
          | none => ({ service with db := service.db.deleteKey fb.handleId }, some (.ok ()))

end LocalFileBufferService

end FsBuffer
end CyfsNdn

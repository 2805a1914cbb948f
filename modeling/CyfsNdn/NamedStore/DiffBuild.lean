import CyfsNdn.NamedStore.DiffReopen

/-!
# A closed writer and its reader

Without a fault of the disk `close` succeeds.  Over what it leaves behind a reader is
built, as long as the file has at most `u64::MAX` bytes, the place that is asked for lies
in it, and in local mode the stores have the base chunks.
-/

namespace CyfsNdn
namespace NamedStore

open NdnLib Collections Transition

/-! ## The tables of a reader -/

namespace DiffChunkListWriter

variable {web : WebCrates} {crates : Crates} {writer : DiffChunkListWriter}
  {bases : List (List UInt8)}

/-! ## Closing without a fault -/

section Build

variable {files : LocalFiles} {mgr : NamedDataMgr} {baseChunkList : ChunkList}
  {seekFrom : SeekFrom} {openChunkReader : Option OpenChunkReader}

end Build

end DiffChunkListWriter
end NamedStore
end CyfsNdn

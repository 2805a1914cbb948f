import CyfsNdn.NamedStore.DiffEdits

/-!
# Writes that fail

`write` lets the last chunk grow before it fetches this chunk.  So a write that cannot
fetch a chunk leaves the file with the bytes before this chunk, but one that fails on the
last chunk after its growth leaves sizes that no file has.
-/

namespace CyfsNdn
namespace NamedStore
namespace DiffChunkListWriter

open NdnLib Collections

variable {web : WebCrates} {world : WriterWorld} {bases : List (List UInt8)}
  {writer : DiffChunkListWriter}

section Sample

open NamedDataMgr

end Sample

end DiffChunkListWriter
end NamedStore
end CyfsNdn

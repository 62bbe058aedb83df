import TreeStore.Record.Json
import TreeStore.Record.Binary
import TreeStore.Error
/-!
The two ways to keep a record in a file.
-/
namespace TreeStore

inductive RecordFormat where
  | json
  | packed
deriving DecidableEq, Repr

namespace RecordFormat

def encode : RecordFormat → Record → Bytes
  | .json, record => Text.Utf8.encode record.toJson
  | .packed, record => record.pack

/-- The fields of a document in the order in which they stand there, with every name as often as it
does. -/
def fields : RecordFormat → Bytes → Except StoreError (List (String × Value))
  | .json, bytes =>
    (Json.document Record.reader bytes).mapError fun failure => .unreadable failure.message
  | .packed, bytes => (Record.unpack bytes).mapError fun failure => .unreadable failure.message

def decode (format : RecordFormat) (bytes : Bytes) : Except StoreError Record :=
  Record.ofFields <$> format.fields bytes

end RecordFormat

end TreeStore

import TreeStore.SortedMap
/-!
The record kept beside every payload: named values in the order of their names.
-/
namespace TreeStore

/-- Floats are kept as bit patterns, so that every one of them is a value of its own. -/
inductive Value where
  | bool (value : Bool)
  | int (value : Int64)
  | float (bits : UInt64)
  | text (value : String)
deriving DecidableEq, Repr

abbrev Record := SortedMap String Value

namespace Record

def put (record : Record) (name : String) (value : Value) : Option Value × Record :=
  (record.find? name, record.insert name value)

/-- The record that a list of fields leaves behind, later ones over earlier ones. -/
def ofFields (fields : List (String × Value)) : Record := SortedMap.ofList fields

end Record

end TreeStore

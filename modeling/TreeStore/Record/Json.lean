import TreeStore.Record
import TreeStore.Json.Expect
import TreeStore.Json.Writer
/-!
Records as JSON: an object with a member for each field, whose value is an object of one member
that names the kind of the value.
-/
namespace TreeStore.Record

open Json

inductive Kind where
  | bool
  | int
  | float
  | text
deriving DecidableEq, Repr

def Kind.names : List (String × Kind) :=
  [("bool", .bool), ("int", .int), ("float", .float), ("str", .text)]

def writeValue : Value → List Char
  | .bool b => writeObject [writeMember "bool" (writeBool b)]
  | .int n => writeObject [writeMember "int" (Text.signedDecimal n.toInt)]
  | .float bits => writeObject [writeMember "float" (writeFloat bits)]
  | .text s => writeObject [writeMember "str" (writeText s)]

def toJson (record : Record) : String :=
  String.ofList
    (writeObject (record.entries.map fun field => writeMember field.1 (writeValue field.2)))

def readPayload : Kind → Reader Value
  | .bool => .bool <$> expectBool
  | .int => (fun n => .int (Int64.ofInt n)) <$>
      expectInteger "i64" Int64.minValue.toInt Int64.maxValue.toInt
  | .float => .float <$> expectFloat
  | .text => .text <$> expectText "a string"

def readValue : Reader Value :=
  expectTagged Kind.names readPayload fun _ => failPending (.mismatch .bareName "newtype variant")

/-- Reads the fields of an object as they stand there, each of which takes at least one byte. -/
def readFields : Nat → Bool → Reader (List (String × Value))
  | 0, _ => pure []
  | fuel + 1, first => do
    if ← nextKey first then
      let name ← text
      colon
      let value ← readValue
      ((name, value) :: ·) <$> readFields fuel false
    else pure []

def reader : Reader (List (String × Value)) := do
  let b ← firstByte
  if b == 0x7B then do
    advance
    enclosed (fun c => readFields (c.rest.length + 1) true c) closeObject Cursor.leaveObject
  else mismatch "a map" b

end TreeStore.Record

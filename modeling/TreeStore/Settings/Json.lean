import TreeStore.Settings
import TreeStore.Json.Skip
/-!
Settings as JSON. They are written as an object with all six fields in a fixed order. They are read
from an object, in which fields may be missing, stand in any order or be unknown, or from a list
with the values of the first few fields; a missing field has its usual value.
-/
namespace TreeStore.Settings

open Json

inductive Field where
  | host
  | port
  | login
  | password
  | root
  | format
deriving DecidableEq, Repr

namespace Field

def all : List Field := [.host, .port, .login, .password, .root, .format]

def name : Field → String
  | .host => "host"
  | .port => "port"
  | .login => "login"
  | .password => "password"
  | .root => "root"
  | .format => "metadata_format"

def ofName? (name : String) : Option Field := all.find? fun field => field.name == name

end Field

def formatNames : List (String × RecordFormat) := [("json", .json), ("bincode", .packed)]

def formatName : RecordFormat → String
  | .json => "json"
  | .packed => "bincode"

def writeOptional : Option String → List Char
  | some text => writeText text
  | none => writeNull

def writeField (settings : Settings) : Field → List Char
  | .host => writeText settings.host
  | .port => Text.decimal settings.port.toNat
  | .login => writeText settings.login
  | .password => writeOptional settings.password
  | .root => writeOptional settings.root
  | .format => writeText (formatName settings.format)

def toJson (settings : Settings) : String :=
  String.ofList
    (writeObject (Field.all.map fun field => writeMember field.name (settings.writeField field)))

def readText : Reader String := expectText "a string"

def readField (settings : Settings) : Field → Reader Settings
  | .host => return { settings with host := ← readText }
  | .port => return { settings with port := UInt16.ofNat (← expectInteger "u16" 0 65535).toNat }
  | .login => return { settings with login := ← readText }
  | .password => return { settings with password := ← expectOptional readText }
  | .root => return { settings with root := ← expectOptional readText }
  | .format => do
    let format ← expectTagged formatNames (fun format => do expectNull "unit"; pure format) pure
    return { settings with format }

/-- Reads the members of an object, each of which takes at least one byte. No known field may stand
there twice. -/
def readMembers : Nat → Bool → List Field → Settings → Reader Settings
  | 0, _, _, settings => pure settings
  | fuel + 1, first, seen, settings => do
    if ← nextKey first then
      let name ← text
      match Field.ofName? name with
      | none => do
        colon
        skipValue
        readMembers fuel false seen settings
      | some field =>
        if field ∈ seen then failPending (.repeatedField field.name)
        else do
          colon
          readMembers fuel false (field :: seen) (← settings.readField field)
    else pure settings

def readItems : Bool → List Field → Settings → Reader Settings
  | _, [], settings => pure settings
  | first, field :: more, settings => do
    if ← nextItem first then readItems false more (← settings.readField field)
    else readItems first more settings

def reader : Reader Settings := do
  let b ← firstByte
  if b == 0x7B then do
    advance
    enclosed (fun c => readMembers (c.rest.length + 1) true [] {} c) closeObject Cursor.leaveObject
  else if b == 0x5B then do
    advance
    enclosed (readItems true Field.all {}) closeList Cursor.leaveList
  else mismatch "struct ConnectionConfig" b

def ofJson (text : String) : Except StoreError Settings := do
  let settings ← (document reader (Text.Utf8.encode text)).mapError
    fun failure => .unreadable failure.message
  settings.validate
  pure settings

end TreeStore.Settings

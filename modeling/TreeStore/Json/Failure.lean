import TreeStore.Text.Quoted
import TreeStore.Text.Utf8
/-!
Why a JSON document is refused, and where. A position counts lines from one and bytes within the
line; a failure found by the reader of a field's meaning has no position of its own until the
structure around it has been left.
-/
namespace TreeStore.Json

/-- The bytes still to be read, with the position of the last one read. -/
structure Cursor where
  rest : Bytes
  line : Nat
  column : Nat
deriving DecidableEq, Repr

namespace Cursor

def start (bytes : Bytes) : Cursor := ⟨bytes, 1, 0⟩

def advance (c : Cursor) : Cursor :=
  match c.rest with
  | [] => c
  | b :: rest => if b == 0x0A then ⟨rest, c.line + 1, 0⟩ else ⟨rest, c.line, c.column + 1⟩

def advanceBy : Nat → Cursor → Cursor
  | 0, c => c
  | n + 1, c => advanceBy n c.advance

end Cursor

inductive Found where
  | null
  | bool (value : Bool)
  | integer (value : Int)
  | float (shown : String)
  | text (value : String)
  | sequence
  | map
  | bareName
deriving DecidableEq, Repr

inductive Cause where
  | endInList
  | endInObject
  | endInText
  | endInValue
  | expectedColon
  | expectedListComma
  | expectedObjectComma
  | expectedName
  | expectedValue
  | invalidEscape
  | invalidNumber
  | numberOutOfRange
  | invalidCodePoint
  | controlCharacter
  | keyNotText
  | loneSurrogate
  | trailingComma
  | trailingCharacters
  | unfinishedSurrogate
  | mismatch (found : Found) (expected : String)
  | outOfBounds (value : Int) (expected : String)
  | unknownName (name : String) (known : List String)
  | repeatedField (name : String)
deriving DecidableEq, Repr

def Found.describe : Found → String
  | .null => "null"
  | .bool value => "boolean `" ++ (if value then "true" else "false") ++ "`"
  | .integer value => "integer `" ++ String.ofList (Text.signedDecimal value) ++ "`"
  | .float shown => "floating point `" ++ shown ++ "`"
  | .text value => "string " ++ Text.quoted value
  | .sequence => "sequence"
  | .map => "map"
  | .bareName => "unit variant"

def choice : List String → String
  | [a] => "`" ++ a ++ "`"
  | [a, b] => "`" ++ a ++ "` or `" ++ b ++ "`"
  | names => "one of " ++ String.intercalate ", " (names.map fun name => "`" ++ name ++ "`")

def Cause.message : Cause → String
  | .endInList => "EOF while parsing a list"
  | .endInObject => "EOF while parsing an object"
  | .endInText => "EOF while parsing a string"
  | .endInValue => "EOF while parsing a value"
  | .expectedColon => "expected `:`"
  | .expectedListComma => "expected `,` or `]`"
  | .expectedObjectComma => "expected `,` or `\x7d`"
  | .expectedName => "expected ident"
  | .expectedValue => "expected value"
  | .invalidEscape => "invalid escape"
  | .invalidNumber => "invalid number"
  | .numberOutOfRange => "number out of range"
  | .invalidCodePoint => "invalid unicode code point"
  | .controlCharacter => "control character (\\u0000-\\u001F) found while parsing a string"
  | .keyNotText => "key must be a string"
  | .loneSurrogate => "lone leading surrogate in hex escape"
  | .trailingComma => "trailing comma"
  | .trailingCharacters => "trailing characters"
  | .unfinishedSurrogate => "unexpected end of hex escape"
  | .mismatch found expected => "invalid type: " ++ found.describe ++ ", expected " ++ expected
  | .outOfBounds value expected =>
    "invalid value: " ++ (Found.integer value).describe ++ ", expected " ++ expected
  | .unknownName name known => "unknown variant `" ++ name ++ "`, expected " ++ choice known
  | .repeatedField name => "duplicate field `" ++ name ++ "`"

inductive Place where
  | located (line column : Nat)
  /-- To be located where reading stops after the structure around it has been left. -/
  | pending (cursor : Cursor)
deriving DecidableEq, Repr

structure Failure where
  cause : Cause
  place : Place
deriving DecidableEq, Repr

/-- Locates a pending failure where `leave` takes its cursor. -/
def Failure.settle (leave : Cursor → Cursor) (failure : Failure) : Failure :=
  match failure.place with
  | .located .. => failure
  | .pending cursor => ⟨failure.cause, .located (leave cursor).line (leave cursor).column⟩

def Failure.message (failure : Failure) : String :=
  match (failure.settle id).place with
  | .located line column =>
    failure.cause.message ++ " at line " ++ String.ofList (Text.decimal line) ++ " column " ++
      String.ofList (Text.decimal column)
  | .pending _ => failure.cause.message

end TreeStore.Json

import TreeStore.Json.Failure
/-!
Reading a JSON document byte by byte: white space, punctuation and the three bare words. A failure
is located at the last byte read, or one byte ahead where the byte that stands there is to blame.
-/
namespace TreeStore.Json

abbrev Reader := StateT Cursor (Except Failure)

def isSpace (b : UInt8) : Bool := b == 0x20 || b == 0x0A || b == 0x09 || b == 0x0D

def isDigit (b : UInt8) : Bool := 0x30 ≤ b && b ≤ 0x39

namespace Cursor

def skipSpaceFrom (line column : Nat) : Bytes → Cursor
  | [] => ⟨[], line, column⟩
  | b :: rest =>
    if b == 0x0A then skipSpaceFrom (line + 1) 0 rest
    else if isSpace b then skipSpaceFrom line (column + 1) rest
    else ⟨b :: rest, line, column⟩

def skipSpace (c : Cursor) : Cursor := skipSpaceFrom c.line c.column c.rest

def digits (c : Cursor) : Bytes := c.rest.takeWhile isDigit

def skipDigits (c : Cursor) : Cursor :=
  ⟨c.rest.dropWhile isDigit, c.line, c.column + c.digits.length⟩

end Cursor

def failHere {α : Type} (cause : Cause) : Reader α := fun c =>
  .error ⟨cause, .located c.line c.column⟩

/-- Fails at the next byte, if there is one. -/
def failAhead {α : Type} (cause : Cause) : Reader α := fun c =>
  .error ⟨cause, .located c.advance.line c.advance.column⟩

def failPending {α : Type} (cause : Cause) : Reader α := fun c =>
  .error ⟨cause, .pending c⟩

def peek : Reader (Option UInt8) := fun c => .ok (c.rest.head?, c)

def advance : Reader Unit := fun c => .ok ((), c.advance)

def peekPastSpace : Reader (Option UInt8) := fun c =>
  .ok (c.skipSpace.rest.head?, c.skipSpace)

def digitRun : Reader Bytes := fun c => .ok (c.digits, c.skipDigits)

def bareWord : List UInt8 → Reader Unit
  | [] => pure ()
  | expected :: more => do
    match ← peek with
    | none => failHere .endInValue
    | some b =>
      advance
      if b == expected then bareWord more else failHere .expectedName

def wordNull : List UInt8 := [0x75, 0x6C, 0x6C]

def wordTrue : List UInt8 := [0x72, 0x75, 0x65]

def wordFalse : List UInt8 := [0x61, 0x6C, 0x73, 0x65]

def colon : Reader Unit := do
  match ← peekPastSpace with
  | some 0x3A => advance
  | some _ => failAhead .expectedColon
  | none => failAhead .endInObject

def closeObject : Reader Unit := do
  match ← peekPastSpace with
  | some 0x7D => advance
  | some 0x2C => failAhead .trailingComma
  | some _ => failAhead .trailingCharacters
  | none => failAhead .endInObject

def closeList : Reader Unit := do
  match ← peekPastSpace with
  | some 0x5D => advance
  | some 0x2C => do
    advance
    match ← peekPastSpace with
    | some 0x5D => failAhead .trailingComma
    | _ => failAhead .trailingCharacters
  | some _ => failAhead .trailingCharacters
  | none => failAhead .endInList

/-- Where the cursor stands after an attempt to leave an object that has failed inside. -/
def Cursor.leaveObject (c : Cursor) : Cursor :=
  match c.skipSpace.rest with
  | 0x7D :: _ => c.skipSpace.advance
  | _ => c.skipSpace

def Cursor.leaveList (c : Cursor) : Cursor :=
  match c.skipSpace.rest with
  | 0x5D :: _ => c.skipSpace.advance
  | 0x2C :: _ => c.skipSpace.advance.skipSpace
  | _ => c.skipSpace

/-- Runs the reader of a structure's items and then the one of its end; a failure that waits for a
position gets it where the attempt to leave the structure stops. -/
def enclosed {α : Type} (items : Reader α) (close : Reader Unit) (leave : Cursor → Cursor) :
    Reader α := fun c =>
  match items c with
  | .ok (value, c') => (do close; pure value : Reader α) c'
  | .error failure => .error (failure.settle leave)

def nextItem (first : Bool) : Reader Bool := do
  match ← peekPastSpace with
  | none => failAhead .endInList
  | some 0x5D => pure false
  | some b =>
    if first then pure true
    else if b == 0x2C then do
      advance
      match ← peekPastSpace with
      | some 0x5D => failAhead .trailingComma
      | some _ => pure true
      | none => failAhead .endInValue
    else failAhead .expectedListComma

def nextKey (first : Bool) : Reader Bool := do
  match ← peekPastSpace with
  | none => failAhead .endInObject
  | some 0x7D => pure false
  | some b =>
    if first then
      if b == 0x22 then do advance; pure true else failAhead .keyNotText
    else if b == 0x2C then do
      advance
      match ← peekPastSpace with
      | some 0x22 => advance; pure true
      | some 0x7D => failAhead .trailingComma
      | some _ => failAhead .keyNotText
      | none => failAhead .endInValue
    else failAhead .expectedObjectComma

def endOfDocument : Reader Unit := do
  match ← peekPastSpace with
  | none => pure ()
  | some _ => failAhead .trailingCharacters

def document {α : Type} (value : Reader α) (bytes : Bytes) : Except Failure α :=
  Prod.fst <$> (do let result ← value; endOfDocument; pure result : Reader α) (.start bytes)

end TreeStore.Json

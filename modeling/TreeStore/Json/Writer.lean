import TreeStore.Binary64.Text
import TreeStore.Text.Numeral
/-!
The compact written form of JSON: no white space, and escapes only where they must be.
-/
namespace TreeStore.Json

open Text

def escapeChar (c : Char) : List Char :=
  if c = '"' then ['\\', '"']
  else if c = '\\' then ['\\', '\\']
  else if c = '\x08' then ['\\', 'b']
  else if c = '\x0c' then ['\\', 'f']
  else if c = '\n' then ['\\', 'n']
  else if c = '\r' then ['\\', 'r']
  else if c = '\t' then ['\\', 't']
  else if c.toNat < 0x20 then
    ['\\', 'u', '0', '0', digit (c.toNat / 16), digit (c.toNat % 16)]
  else [c]

def writeText (text : String) : List Char := '"' :: text.toList.flatMap escapeChar ++ ['"']

def writeBool (b : Bool) : List Char := (if b then "true" else "false").toList

def writeNull : List Char := "null".toList

def writeFloat (bits : UInt64) : List Char :=
  if Binary64.isFinite bits then Binary64.text bits else writeNull

def writeMember (name : String) (value : List Char) : List Char :=
  writeText name ++ ':' :: value

def writeObject (members : List (List Char)) : List Char :=
  '\x7b' :: [','].intercalate members ++ ['\x7d']

end TreeStore.Json

import TreeStore.Json.Reader
/-!
JSON strings. `scan` undoes the escapes up to the closing quote; only then the bytes are checked to
be text. A defect is located by counting back from the quote the bytes from the defect on, so the
place is exact where no escape follows it.
-/
namespace TreeStore.Json

def hexValue? (b : UInt8) : Option Nat :=
  if isDigit b then some (b.toNat - 48)
  else if 0x61 ≤ b && b ≤ 0x66 then some (b.toNat - 87)
  else if 0x41 ≤ b && b ≤ 0x46 then some (b.toNat - 55)
  else none

def hexValue4? (a b c d : UInt8) : Option Nat := do
  return ((← hexValue? a) * 16 + (← hexValue? b)) * 256 + (← hexValue? c) * 16 + (← hexValue? d)

def shortEscape? (b : UInt8) : Option Char :=
  if b == 0x22 then some '"'
  else if b == 0x5C then some '\\'
  else if b == 0x2F then some '/'
  else if b == 0x62 then some '\x08'
  else if b == 0x66 then some '\x0c'
  else if b == 0x6E then some '\n'
  else if b == 0x72 then some '\r'
  else if b == 0x74 then some '\t'
  else none

def isHighSurrogate (n : Nat) : Bool := 0xD800 ≤ n && n ≤ 0xDBFF

def isLowSurrogate (n : Nat) : Bool := 0xDC00 ≤ n && n ≤ 0xDFFF

/-- Why the second half of a pair of surrogates cannot be read, and after how many bytes. -/
def lowHalfFault : Bytes → Cause × Nat
  | [] => (.endInText, 0)
  | 0x5C :: [] => (.endInText, 1)
  | 0x5C :: 0x75 :: rest => (.endInText, 2 + rest.length)
  | 0x5C :: _ :: _ => (.unfinishedSurrogate, 2)
  | _ :: _ => (.unfinishedSurrogate, 1)

structure Scanned where
  bytes : Bytes
  stop : Nat
  rest : Bytes

def Scanned.prepend (c : Char) (s : Scanned) : Scanned :=
  { s with bytes := String.utf8EncodeChar c ++ s.bytes }

/-- Reads up to the closing quote; `place` counts the bytes read since the opening one. -/
def scan (place : Nat) : Bytes → Except (Cause × Nat) Scanned
  | [] => .error (.endInText, place)
  | b :: rest =>
    if b == 0x22 then .ok ⟨[], place + 1, rest⟩
    else if b == 0x5C then
      match rest with
      | [] => .error (.endInText, place + 1)
      | e :: rest =>
        if e == 0x75 then
          match rest with
          | h₁ :: h₂ :: h₃ :: h₄ :: rest =>
            match hexValue4? h₁ h₂ h₃ h₄ with
            | none => .error (.invalidEscape, place + 6)
            | some high =>
              if isLowSurrogate high then .error (.loneSurrogate, place + 6)
              else if !isHighSurrogate high then
                Scanned.prepend (Char.ofNat high) <$> scan (place + 6) rest
              else match rest with
                | 0x5C :: 0x75 :: l₁ :: l₂ :: l₃ :: l₄ :: rest =>
                  match hexValue4? l₁ l₂ l₃ l₄ with
                  | none => .error (.invalidEscape, place + 12)
                  | some low =>
                    if isLowSurrogate low then
                      let c := Char.ofNat ((high - 0xD800) * 1024 + (low - 0xDC00) + 0x10000)
                      Scanned.prepend c <$> scan (place + 12) rest
                    else .error (.loneSurrogate, place + 12)
                | rest => .error ((lowHalfFault rest).1, place + 6 + (lowHalfFault rest).2)
          | rest => .error (.endInText, place + 2 + rest.length)
        else match shortEscape? e with
          | some c => Scanned.prepend c <$> scan (place + 2) rest
          | none => .error (.invalidEscape, place + 2)
    else if b < 0x20 then .error (.controlCharacter, place + 1)
    else do
      let s ← scan (place + 1) rest
      return { s with bytes := b :: s.bytes }

def text : Reader String := fun c =>
  let fault (cause : Cause) (place : Nat) : Except Failure (String × Cursor) :=
    let stop := c.advanceBy place
    .error ⟨cause, .located stop.line stop.column⟩
  match scan 0 c.rest with
  | .error (cause, place) => fault cause place
  | .ok s =>
    match Text.Utf8.decode s.bytes with
    | .ok value => .ok (value, ⟨s.rest, c.line, c.column + s.stop⟩)
    | .error defect => fault .invalidCodePoint (s.stop - (s.bytes.length - defect.start))

def passText (place : Nat) : Bytes → Except (Cause × Nat) (Nat × Bytes)
  | [] => .error (.endInText, place)
  | b :: rest =>
    if b == 0x22 then .ok (place + 1, rest)
    else if b == 0x5C then
      match rest with
      | [] => .error (.endInText, place + 1)
      | e :: rest =>
        if e == 0x75 then
          match rest with
          | h₁ :: h₂ :: h₃ :: h₄ :: rest =>
            if (hexValue4? h₁ h₂ h₃ h₄).isSome then passText (place + 6) rest
            else .error (.invalidEscape, place + 6)
          | rest => .error (.endInText, place + 2 + rest.length)
        else if (shortEscape? e).isSome then passText (place + 2) rest
        else .error (.invalidEscape, place + 2)
    else if b < 0x20 then .error (.controlCharacter, place)
    else passText (place + 1) rest

def skipText : Reader Unit := fun c =>
  match passText 0 c.rest with
  | .error (cause, place) =>
    .error ⟨cause, .located (c.advanceBy place).line (c.advanceBy place).column⟩
  | .ok (stop, rest) => .ok ((), ⟨rest, c.line, c.column + stop⟩)

end TreeStore.Json

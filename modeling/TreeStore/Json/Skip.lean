import TreeStore.Json.Chars
/-!
Passing over a value nobody asks for. Its lists and objects are kept as a stack of open frames, so
that its depth is not limited.
-/
namespace TreeStore.Json

inductive Frame where
  | list
  | object
deriving DecidableEq, Repr

def nextIsExponent : Reader Bool := do
  let next ← peek
  pure (next == some 0x65 || next == some 0x45)

def skipExponent : Reader Unit := do
  advance
  match ← peek with
  | some 0x2B => advance
  | some 0x2D => advance
  | _ => pure ()
  let next ← peek
  advance
  if next.any isDigit then
    let _ ← digitRun
  else failHere .invalidNumber

def skipNumber : Reader Unit := do
  let first ← peek
  if first == some 0x30 then
    advance
    if (← peek).any isDigit then failAhead .invalidNumber
  else if first.any isDigit then
    let _ ← digitRun
  else
    advance
    failHere .invalidNumber
  if (← peek) == some 0x2E then
    advance
    if (← digitRun).isEmpty then failAhead .invalidNumber
  if ← nextIsExponent then skipExponent

def skipFirst : Reader (Option Frame) := do
  match ← peekPastSpace with
  | none => failAhead .endInValue
  | some b =>
    if b == 0x6E then do advance; bareWord wordNull; pure none
    else if b == 0x74 then do advance; bareWord wordTrue; pure none
    else if b == 0x66 then do advance; bareWord wordFalse; pure none
    else if b == 0x2D then do advance; skipNumber; pure none
    else if isDigit b then do skipNumber; pure none
    else if b == 0x22 then do advance; skipText; pure none
    else if b == 0x5B then do advance; pure (some .list)
    else if b == 0x7B then do advance; pure (some .object)
    else failAhead .expectedValue

/-- Passes over what may stand between values: separators, closing marks and keys. Answers the
frames that are open before the next value, or nothing when the outermost value has ended. -/
def skipBetween (afterValue : Bool) : List Frame → Reader (Option (List Frame))
  | [] => pure none
  | frame :: outer => do
    match ← peekPastSpace with
    | none => failAhead (match frame with | .list => .endInList | .object => .endInObject)
    | some b =>
      if afterValue && b == 0x2C then do
        advance
        key frame
        pure (some (frame :: outer))
      else if b == (match frame with | .list => 0x5D | .object => 0x7D) then do
        advance
        skipBetween true outer
      else if afterValue then
        failAhead (match frame with | .list => .expectedListComma | .object => .expectedObjectComma)
      else do
        key frame
        pure (some (frame :: outer))
where
  key : Frame → Reader Unit
    | .list => pure ()
    | .object => do
      match ← peekPastSpace with
      | some 0x22 => do advance; skipText; colon
      | some _ => failAhead .keyNotText
      | none => failAhead .endInObject

/-- Every value takes at least one byte, so a turn more than there are bytes meets their end. -/
def skipNested : Nat → List Frame → Reader Unit
  | 0, _ => pure ()
  | fuel + 1, frames => do
    let next ← match ← skipFirst with
      | some frame => skipBetween false (frame :: frames)
      | none => skipBetween true frames
    match next with
    | none => pure ()
    | some frames => skipNested fuel frames

def skipValue : Reader Unit := fun c => skipNested (c.rest.length + 1) [] c

end TreeStore.Json

import TreeStore.Json.Chars
import TreeStore.Json.Number
/-!
Values of an expected kind. A value of another kind is read far enough to say what it is.
-/
namespace TreeStore.Json

def mismatch {α : Type} (expected : String) (b : UInt8) : Reader α := do
  let found ← found
  failHere (.mismatch found expected)
where
  found : Reader Found := do
    if b == 0x6E then do advance; bareWord wordNull; pure .null
    else if b == 0x74 then do advance; bareWord wordTrue; pure (.bool true)
    else if b == 0x66 then do advance; bareWord wordFalse; pure (.bool false)
    else if b == 0x2D then do advance; return (← unsignedNumber true).found
    else if isDigit b then return (← unsignedNumber false).found
    else if b == 0x22 then do advance; return .text (← text)
    else if b == 0x5B then pure .sequence
    else if b == 0x7B then pure .map
    else failAhead .expectedValue

def firstByte : Reader UInt8 := do
  match ← peekPastSpace with
  | some b => pure b
  | none => failAhead .endInValue

def expectText (expected : String) : Reader String := do
  let b ← firstByte
  if b == 0x22 then do advance; text else mismatch expected b

def expectBool : Reader Bool := do
  let b ← firstByte
  if b == 0x74 then do advance; bareWord wordTrue; pure true
  else if b == 0x66 then do advance; bareWord wordFalse; pure false
  else mismatch "a boolean" b

def expectNull (expected : String) : Reader Unit := do
  let b ← firstByte
  if b == 0x6E then do advance; bareWord wordNull else mismatch expected b

def expectNumber (expected : String) : Reader Number := do
  let b ← firstByte
  if b == 0x2D then do advance; unsignedNumber true
  else if isDigit b then unsignedNumber false
  else mismatch expected b

def expectInteger (expected : String) (least most : Int) : Reader Int := do
  let number ← expectNumber expected
  let bounded (n : Int) : Reader Int :=
    if least ≤ n ∧ n ≤ most then pure n else failHere (.outOfBounds n expected)
  match number with
  | .natural n => bounded n
  | .negative n => bounded n
  | .float _ => failHere (.mismatch number.found expected)

def expectFloat : Reader UInt64 := do
  match ← expectNumber "f64" with
  | .natural n => pure (Binary64.withSign false (Binary64.ofNat n))
  | .negative n => pure (Binary64.withSign true (Binary64.ofNat n.natAbs))
  | .float bits => pure bits

def expectOptional {α : Type} (value : Reader α) : Reader (Option α) := do
  match ← peekPastSpace with
  | some 0x6E => do advance; bareWord wordNull; pure none
  | _ => some <$> value

def knownName {α : Type} (kinds : List (String × α)) : Reader α := do
  let name ← text
  match kinds.lookup name with
  | some kind => pure kind
  | none => failHere (.unknownName name (kinds.map Prod.fst))

def openTag : Reader Unit := do
  advance
  match ← peekPastSpace with
  | some 0x22 => advance
  | some 0x7D => failAhead .expectedValue
  | some _ => failAhead .keyNotText
  | none => failAhead .endInObject

/-- A name and a value in an object of one member; `bare` answers a name that stands alone. -/
def expectTagged {α β : Type} (kinds : List (String × α)) (payload : α → Reader β)
    (bare : α → Reader β) : Reader β := do
  let b ← firstByte
  if b == 0x7B then do
    openTag
    let kind ← knownName kinds
    colon
    let value ← payload kind
    match ← peekPastSpace with
    | some 0x7D => advance; pure value
    | some _ => failHere .expectedValue
    | none => failHere .endInObject
  else if b == 0x22 then do advance; bare (← knownName kinds)
  else failAhead .expectedValue

end TreeStore.Json

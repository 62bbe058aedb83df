import TreeStore.Json.Reader
import TreeStore.Binary64.Text
/-!
JSON numbers. The digits are gathered into a 64-bit natural number; a number without fraction and
exponent that fits is an integer. Any other is the double nearest to the gathered digits, times or
over the double nearest to a power of ten, with one rounding at each step.
-/
namespace TreeStore.Json

inductive Number where
  | natural (value : Nat)
  | negative (value : Int)
  | float (bits : UInt64)
deriving DecidableEq, Repr

def Number.found : Number → Found
  | .natural value => .integer value
  | .negative value => .integer value
  | .float bits => .float (String.ofList (Binary64.text bits))

/-- Appends digits to a number up to the first that takes it to `bound` or beyond, and says how
many were taken. -/
def gather (bound : Nat) (acc : Nat) : Bytes → Nat × Nat
  | [] => (acc, 0)
  | d :: rest =>
    let next := acc * 10 + (d.toNat - 48)
    if next < bound then
      let (value, taken) := gather bound next rest
      (value, taken + 1)
    else (acc, 0)

def scaleDown (magnitude power : Nat) : Nat :=
  if power ≤ 308 then Binary64.div magnitude (Binary64.powerOfTen power)
  else if magnitude = 0 then 0
  else scaleDown (Binary64.div magnitude (Binary64.powerOfTen 308)) (power - 308)
termination_by power
decreasing_by omega

def scale? (significand : Nat) (exponent : Int) : Option Nat :=
  let magnitude := Binary64.ofNat significand
  if exponent < 0 then some (scaleDown magnitude exponent.natAbs)
  else if exponent ≤ 308 then
    let product := Binary64.mul magnitude (Binary64.powerOfTen exponent.natAbs)
    if product < Binary64.infinity then some product else none
  else if significand = 0 then some 0
  else none

def scaled (negative : Bool) (significand : Nat) (exponent : Int) : Reader Number :=
  match scale? significand exponent with
  | some magnitude => pure (.float (Binary64.withSign negative magnitude))
  | none => failHere .numberOutOfRange

def isExponentMark (b : Option UInt8) : Bool := b == some 0x65 || b == some 0x45

def exponentSign : Reader Bool := do
  match ← peek with
  | some 0x2B => do advance; pure false
  | some 0x2D => do advance; pure true
  | _ => pure false

def exponentBound : Nat := 0x80000000

def wholeBound : Nat := 0x10000000000000000

/-- Reads the digits of an exponent. A number that is not zero with an exponent of that size is
too large, or so small that it is zero. -/
def exponentDigits (negative minus : Bool) (significand : Nat) (exponent : Int) :
    Reader Number := fun c =>
  let (value, taken) := gather exponentBound 0 c.digits
  if taken = c.digits.length then
    scaled negative significand (if minus then exponent - value else exponent + value) c.skipDigits
  else if significand ≠ 0 ∧ !minus then failHere .numberOutOfRange (c.advanceBy (taken + 1))
  else .ok (.float (Binary64.withSign negative 0), c.skipDigits)

def exponentPart (negative : Bool) (significand : Nat) (exponent : Int) : Reader Number := do
  let minus ← exponentSign
  match ← peek with
  | none => failHere .endInValue
  | some b =>
    if isDigit b then exponentDigits negative minus significand exponent
    else do advance; failHere .invalidNumber

def exponentOrEnd (negative : Bool) (significand : Nat) (exponent : Int) : Reader Number := do
  if isExponentMark (← peek) then do advance; exponentPart negative significand exponent
  else scaled negative significand exponent

def fractionPart (negative : Bool) (significand : Nat) (exponent : Int) : Reader Number := do
  let run ← digitRun
  if run.isEmpty then
    match ← peek with
    | some _ => failAhead .invalidNumber
    | none => failAhead .endInValue
  else
    let (value, taken) := gather wholeBound significand run
    exponentOrEnd negative value (exponent - taken)

def afterWhole (negative : Bool) (significand : Nat) (dropped : Nat) : Reader Number := do
  let next ← peek
  if next == some 0x2E then do advance; fractionPart negative significand dropped
  else if isExponentMark next then do advance; exponentPart negative significand dropped
  else if dropped ≠ 0 then scaled negative significand dropped
  else if !negative then pure (.natural significand)
  else if significand = 0 ∨ Binary64.signBit < significand then
    pure (.float (Binary64.withSign true (Binary64.ofNat significand)))
  else pure (.negative (-significand))

def unsignedNumber (negative : Bool) : Reader Number := do
  match ← peek with
  | none => failHere .endInValue
  | some 0x30 => do
    advance
    if (← peek).any isDigit then failAhead .invalidNumber else afterWhole negative 0 0
  | some b =>
    if isDigit b then do
      let run ← digitRun
      let (value, taken) := gather wholeBound 0 run
      afterWhole negative value (run.length - taken)
    else do advance; failHere .invalidNumber

end TreeStore.Json

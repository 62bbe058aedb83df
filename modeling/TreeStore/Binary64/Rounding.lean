/-!
Doubles as bit patterns. A magnitude is the pattern of a number that is not negative, as a natural
number: magnitudes are ordered as their values are, and `infinity` stands above all finite ones.
Arithmetic is exact on ratios and rounds once, to the nearest magnitude, ties to the even one.
-/
namespace TreeStore.Binary64

def infinity : Nat := 0x7FF0000000000000

def signBit : Nat := 0x8000000000000000

/-- The place of the exponent field, and the bit that stands before every fraction. -/
def unit : Nat := 0x10000000000000

def roundDiv (num den : Nat) : Nat :=
  let quotient := num / den
  let twice := 2 * (num % den)
  if den < twice || (twice == den && quotient % 2 == 1) then quotient + 1 else quotient

/-- A finite magnitude is the first component times two to the power of the second. -/
def decode (magnitude : Nat) : Nat × Int :=
  let field : Nat := magnitude / unit
  let fraction : Nat := magnitude % unit
  if field = 0 then (fraction, -1074) else (fraction + unit, Int.ofNat field - 1075)

def scaled (num den : Nat) (exponent : Int) : Nat × Nat :=
  if exponent < 0 then (num <<< exponent.natAbs, den) else (num, den <<< exponent.natAbs)

/-- The magnitude nearest to `num / den`. -/
def nearest (num den : Nat) : Nat :=
  if num = 0 then 0
  else
    let least : Int := max ((num.log2 : Int) - den.log2 - 53) (-1074)
    let (n, d) := scaled num den least
    let exponent := if 2 * unit ≤ n / d then least + 1 else least
    let (n, d) := scaled num den exponent
    min ((exponent + 1074).toNat * unit + roundDiv n d) infinity

def nearestScaled (num den : Nat) (exponent : Int) : Nat :=
  let (n, d) := scaled num den (-exponent)
  nearest n d

def mul (a b : Nat) : Nat :=
  nearestScaled ((decode a).1 * (decode b).1) 1 ((decode a).2 + (decode b).2)

def div (a b : Nat) : Nat :=
  nearestScaled (decode a).1 (decode b).1 ((decode a).2 - (decode b).2)

def ofNat (n : Nat) : Nat := nearest n 1

def powerOfTen (n : Nat) : Nat := nearest (Nat.pow 10 n) 1

def withSign (negative : Bool) (magnitude : Nat) : UInt64 :=
  UInt64.ofNat (if negative then magnitude + signBit else magnitude)

def isNegative (bits : UInt64) : Bool := signBit ≤ bits.toNat

def magnitude (bits : UInt64) : Nat := bits.toNat % signBit

def isFinite (bits : UInt64) : Bool := magnitude bits < infinity

end TreeStore.Binary64

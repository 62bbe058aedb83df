import TreeStore.Binary64.Rounding
/-!
The shortest decimal of a finite double: of all decimals that are nearer to it than to any other
double, one with the fewest digits, and among those the nearest one. Decimals are searched grid by
grid, from coarse to fine; a grid that has a decimal in reach has one of the two neighbours of the
value in reach.
-/
namespace TreeStore.Binary64

structure Decimal where
  digits : Nat
  exponent : Int
deriving DecidableEq, Repr

/-- The numbers that round to a magnitude, measured in quarters of its last place. The ends belong
to the reach when the magnitude is even. -/
structure Reach where
  low : Nat
  value : Nat
  high : Nat
  exponent : Int
  closed : Bool

def reach (magnitude : Nat) : Reach :=
  let (m, e) := decode magnitude
  let below := if m = unit ∧ -1074 < e then 1 else 2
  ⟨4 * m - below, 4 * m, 4 * m + 2, e - 2, m % 2 = 0⟩

def Reach.onGrid (r : Reach) (power : Int) : Reach × Nat :=
  let scale := Nat.pow 10 (-power).toNat <<< r.exponent.toNat
  ({ r with low := r.low * scale, value := r.value * scale, high := r.high * scale },
    Nat.pow 10 power.toNat <<< (-r.exponent).toNat)

def Reach.holds (r : Reach) (x : Nat) : Bool :=
  if r.closed then r.low ≤ x && x ≤ r.high else r.low < x && x < r.high

def Reach.hit? (r : Reach) (power : Int) : Option Decimal :=
  let (r, step) := r.onGrid power
  let down := r.value / step
  let up := down + 1
  match r.holds (down * step), r.holds (up * step) with
  | true, true => some ⟨roundDiv r.value step, power⟩
  | true, false => some ⟨down, power⟩
  | false, true => some ⟨up, power⟩
  | false, false => none

def Reach.search (r : Reach) : Nat → Int → Option Decimal
  | 0, _ => none
  | fuel + 1, power =>
    match r.hit? power with
    | some d => some d
    | none => r.search fuel (power - 1)

/-- No multiple of this power of ten but zero is as small as a number below two to the power
`bits`. -/
def gridAbove (bits : Int) : Int := (bits * 30103).fdiv 100000 + 1

/-- The shortest decimal of a finite magnitude other than zero. -/
def shortest (magnitude : Nat) : Decimal :=
  let r := reach magnitude
  ((r.search 24 (gridAbove (r.high.log2 + 1 + r.exponent))).getD ⟨0, 0⟩)

end TreeStore.Binary64

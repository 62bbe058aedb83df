/-!
Numerals without leading zeros, in any base up to sixteen.
-/
namespace TreeStore.Text

def digit (n : Nat) : Char := Char.ofNat (if n < 10 then 48 + n else 87 + n)

/-- A base below two is read as having the digit `n` itself. -/
def numeral (base n : Nat) : List Char :=
  if _h : n < base ∨ base < 2 then [digit n]
  else numeral base (n / base) ++ [digit (n % base)]
termination_by n
decreasing_by exact Nat.div_lt_self (by omega) (by omega)

def decimal (n : Nat) : List Char := numeral 10 n

def signedDecimal (n : Int) : List Char :=
  if n < 0 then '-' :: decimal n.natAbs else decimal n.natAbs

theorem numeral_ne_nil (base n : Nat) : numeral base n ≠ [] := by
  unfold numeral
  split <;> simp

theorem decimal_of_lt {n : Nat} (h : n < 10) : decimal n = [digit n] := by
  rw [decimal, numeral, dif_pos (.inl h)]

theorem decimal_of_le {n : Nat} (h : 10 ≤ n) :
    decimal n = decimal (n / 10) ++ [digit (n % 10)] := by
  rw [decimal, numeral, dif_neg (by omega)]
  rfl

end TreeStore.Text

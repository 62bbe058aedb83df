import TreeStore.Binary64.Shortest
import TreeStore.Text.Numeral
/-!
The text of a finite double: the digits of its shortest decimal, positional or with an exponent.
-/
namespace TreeStore.Binary64

open Text

structure Style where
  least : Int
  most : Int

def Style.usual : Style := ⟨-5, 15⟩

def positional (digits : List Char) (lead : Int) : List Char :=
  if lead < 0 then
    '0' :: '.' :: List.replicate (lead.natAbs - 1) '0' ++ digits
  else
    let whole := lead.toNat + 1
    if digits.length ≤ whole then
      digits ++ List.replicate (whole - digits.length) '0' ++ ['.', '0']
    else digits.take whole ++ '.' :: digits.drop whole

def scientific (digits : List Char) (lead : Int) : List Char :=
  let fraction := if digits.length ≤ 1 then [] else '.' :: digits.drop 1
  digits.take 1 ++ fraction ++ ['e', if lead < 0 then '-' else '+'] ++ decimal lead.natAbs

def Decimal.text (style : Style) (d : Decimal) : List Char :=
  let digits := decimal d.digits
  let lead := d.exponent + (digits.length - 1 : Nat)
  if style.least ≤ lead ∧ lead ≤ style.most then positional digits lead
  else scientific digits lead

def magnitudeText (magnitude : Nat) : List Char :=
  if magnitude = 0 then ['0', '.', '0'] else (shortest magnitude).text .usual

def text (bits : UInt64) : List Char :=
  if isNegative bits then '-' :: magnitudeText (magnitude bits)
  else magnitudeText (magnitude bits)

end TreeStore.Binary64

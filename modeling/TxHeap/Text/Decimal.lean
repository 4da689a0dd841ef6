/-
  TxHeap.Text.Decimal — reading unsigned decimal numbers.

  A number is an optional plus sign and one or more ASCII digits; leading zeros are
  allowed. A number that is not below the limit is not read.
-/

namespace TxHeap.Text

/-- The value of a run of digits, most significant first. -/
def digitsValue? (digits : List Char) : Option Nat :=
  digits.foldl
    (fun value c => do
      let value ← value
      if c.isDigit then some (value * 10 + (c.toNat - '0'.toNat)) else none)
    (some 0)

def decimal? (limit : Nat) (text : String) : Option Nat := do
  let digits := match text.toList with
    | '+' :: rest => rest
    | chars => chars
  if digits.isEmpty then none
  let value ← digitsValue? digits
  if value < limit then some value else none

end TxHeap.Text

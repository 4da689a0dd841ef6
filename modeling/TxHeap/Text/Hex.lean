/-
  TxHeap.Text.Hex — lower-case hexadecimal text of numbers, addresses and bytes.
-/

namespace TxHeap.Text

/-- Hexadecimal digits without leading zeros. -/
def hexDigits (n : Nat) : String := String.ofList (Nat.toDigits 16 n)

def hex (n : Nat) : String := "0x" ++ hexDigits n

def hexBytes (bytes : List UInt8) : String :=
  String.ofList (bytes.flatMap fun b => [Nat.digitChar (b.toNat / 16), Nat.digitChar (b.toNat % 16)])

def address (a : Nat) : String := "Address(" ++ hex a ++ ")"

end TxHeap.Text

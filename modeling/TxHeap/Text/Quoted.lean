/-
  TxHeap.Text.Quoted — text between double quotes, with escapes.

  A quote, a backslash, a tab, a line feed, a carriage return and the null character have
  short escapes; any other character that is not printable is written by its code point.
-/
import TxHeap.Text.Hex
import TxHeap.Text.Printable

namespace TxHeap.Text

def escape (c : Char) : String :=
  if c = '"' then "\\\""
  else if c = '\\' then "\\\\"
  else if c = '\t' then "\\t"
  else if c = '\n' then "\\n"
  else if c = '\r' then "\\r"
  else if c.toNat = 0 then "\\0"
  else if isPrintable c then c.toString
  else "\\u\x7b" ++ hexDigits c.toNat ++ "\x7d"

def quoted (text : String) : String :=
  "\"" ++ String.join (text.toList.map escape) ++ "\""

end TxHeap.Text

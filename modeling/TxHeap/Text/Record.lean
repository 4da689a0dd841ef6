/-
  TxHeap.Text.Record — the one-line text of records and of tagged values.
-/

namespace TxHeap.Text

def record (name : String) (fields : List (String × String)) : String :=
  name ++ " \x7b " ++ ", ".intercalate (fields.map fun (field, value) => field ++ ": " ++ value) ++ " \x7d"

def tagged (name : String) (args : List String) : String :=
  name ++ "(" ++ ", ".intercalate args ++ ")"

end TxHeap.Text

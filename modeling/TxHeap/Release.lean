/-
  TxHeap.Release — which release of the library this is.
-/

namespace TxHeap

def release : String := "0.1.0"

end TxHeap

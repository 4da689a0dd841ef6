/-
  TxHeap.Transaction — the private side of an open transaction.

  A transaction owns a nursery, the working copies made in it and the tokens fabricated for
  its objects. Nobody else sees any of it, so dropping the value discards the transaction.
-/
import TxHeap.Arena
import TxHeap.Token
import TxHeap.ObjectMap
import TxHeap.Report

namespace TxHeap

structure Transaction where
  nursery : Arena
  objects : ObjectMap
  tokens : TokenTable
  phase : Phase
  /-- What the last prepare of this transaction did. -/
  report : Report

namespace Transaction

def fresh (nursery : Arena) : Transaction := ⟨nursery, .empty, .empty, .active, {}⟩

def requirePhase (tx : Transaction) (operation : String) (expected : Phase) : Attempt Unit :=
  Attempt.demand (tx.phase = expected) (.violation (.wrongPhase operation tx.phase expected))

end Transaction

end TxHeap

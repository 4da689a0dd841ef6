/-
  TxHeap.Call.Identity — the token of an object.

  A shared object is named by its recorded token or its address, a working copy like the
  object it was made of, and a promoted object like its twin. A fresh object gets a
  fabricated token on the first request; its twin inherits it.
-/
import TxHeap.Call.Access

namespace TxHeap.Action

open Step

def freshToken (thread obj : Nat) (tx : Transaction) : Action Nat := do
  match tx.tokens.get? obj with
  | some token => return token
  | none =>
    let (issued, heap) := (← get).heap.issueToken
    modify fun s => { s with heap }
    let token ← ofAttempt issued
    setTx thread (some { tx with tokens := tx.tokens.insert obj token })
    note (.tokenIssued token obj)
    return token

def tokenOf (thread obj : Nat) : Action Nat := do
  match ← query thread fun h heap => h.locate heap obj with
  | .shared => return (← get).heap.tokenOf obj
  | .nursery =>
    let tx ← openTx thread "identity"
    match (← ofAttempt (tx.nursery.header obj)).version.address? with
    | some shared => return (← get).heap.tokenOf shared
    | none => freshToken thread obj tx

def hashOf (thread obj : Nat) : Action Nat := scramble <$> tokenOf thread obj

end TxHeap.Action

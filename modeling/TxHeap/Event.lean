/-
  TxHeap.Event — what is reported at the boundaries of a transaction.
-/
import TxHeap.Level

namespace TxHeap

inductive Event where
  | started (thread : Nat)
  | aborted (thread roots : Nat)
  | committed (thread roots promoted bytesPromoted weakRedirected weakCleared durationUs : Nat)
  /-- The nursery was released at the end of a transaction. -/
  | nurseryReset (thread bytes : Nat)
  deriving DecidableEq, Repr

namespace Event

def thread : Event → Nat
  | .started t => t
  | .aborted t _ => t
  | .committed t _ _ _ _ _ _ => t
  | .nurseryReset t _ => t

def level : Event → Level
  | .started _ => .debug
  | .aborted _ _ => .warn
  | .committed _ _ _ _ _ _ _ => .info
  | .nurseryReset _ _ => .debug

def fields : Event → String × List (String × Nat)
  | .started t => ("transaction_start", [("thread", t)])
  | .aborted t roots => ("transaction_abort", [("thread", t), ("roots", roots)])
  | .committed t roots promoted bytes redirected cleared us =>
    ("commit_end",
     [("thread", t), ("roots", roots), ("promoted", promoted), ("bytes_promoted", bytes),
      ("weak_redirected", redirected), ("weak_cleared", cleared), ("duration_us", us)])
  | .nurseryReset t bytes => ("nursery_reset", [("thread", t), ("bytes", bytes)])

def json (e : Event) : String :=
  let numbers := e.fields.2.map fun (field, n) => ",\"" ++ field ++ "\":" ++ toString n
  "\x7b\"type\":\"" ++ e.fields.1 ++ "\"" ++ String.join numbers ++ "\x7d"

def sentence : Event → String
  | .started t => s!"[STM] Thread {t}: transaction started"
  | .aborted t roots => s!"[STM] Thread {t}: transaction aborted ({roots} roots discarded)"
  | .committed t roots promoted bytes redirected cleared us =>
    s!"[STM] Thread {t}: committed {roots} roots, promoted {promoted} objects ({bytes} bytes), " ++
      s!"weak {redirected} redirected / {cleared} cleared in {us} us"
  | .nurseryReset t bytes => s!"[STM] Thread {t}: nursery reset ({bytes} bytes)"

end Event

end TxHeap

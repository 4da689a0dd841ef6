/-
  TxHeap.Counters — how often things happened.

  The counters are words and wrap. While counting is disabled nothing is recorded.
-/

namespace TxHeap

structure Counters where
  enabled : Bool
  started : UInt64
  committed : UInt64
  aborted : UInt64
  /-- Working copies made. -/
  copied : UInt64
  /-- Fresh objects copied into the shared heap by commits that ended. -/
  promoted : UInt64
  bytesPromoted : UInt64
  weakRedirected : UInt64
  weakCleared : UInt64
  /-- Identity tokens fabricated. -/
  tokens : UInt64
  deriving DecidableEq, Repr

namespace Counters

def new (enabled : Bool) : Counters := ⟨enabled, 0, 0, 0, 0, 0, 0, 0, 0, 0⟩

def recordStart (c : Counters) : Counters := if c.enabled then { c with started := c.started + 1 } else c

def recordAbort (c : Counters) : Counters := if c.enabled then { c with aborted := c.aborted + 1 } else c

def recordCopy (c : Counters) : Counters :=
  if c.enabled then { c with copied := c.copied + 1 } else c

def recordToken (c : Counters) : Counters := if c.enabled then { c with tokens := c.tokens + 1 } else c

def recordCommit (c : Counters) (promoted bytes redirected cleared : Nat) : Counters :=
  if c.enabled then
    { c with
      committed := c.committed + 1
      promoted := c.promoted + .ofNat promoted
      bytesPromoted := c.bytesPromoted + .ofNat bytes
      weakRedirected := c.weakRedirected + .ofNat redirected
      weakCleared := c.weakCleared + .ofNat cleared }
  else c

def reset (c : Counters) : Counters := new c.enabled

end Counters

end TxHeap

/-
  TxHeap.Notice — what a run writes into its journal.

  A notice says what happened; its level and its wording follow from that.
-/
import TxHeap.Failure
import TxHeap.Level

namespace TxHeap

inductive Notice where
  | heapCreated (sharedReserve nurseryReserve pageSize : Nat)
  | mainAttached
  | workerAttached (thread : Nat)
  | detached (thread : Nat)
  | detachedOpen (thread : Nat) (phase : Phase)
  | started (thread : Nat)
  | aborted (thread copies : Nat)
  | allocated (thread typeId size obj : Nat)
  | copied (thread shared copy : Nat)
  | missingBarrier (thread obj : Nat)
  | tokenIssued (token obj : Nat)
  | chunkTaken (size start : Nat)
  | promoted (thread obj twin size : Nat)
  | weakCleared (thread target : Nat)
  | prepared (thread roots promoted : Nat)
  | prepareFailed (thread : Nat) (cause : Refusal)
  | applyFailed (cause : Refusal)
  | committed (thread durationUs nurseryBytes : Nat)
  | fatal (cause : Refusal)
  deriving DecidableEq, Repr

namespace Notice

def level : Notice → Level
  | .allocated .. | .copied .. | .tokenIssued .. | .chunkTaken .. | .promoted ..
  | .weakCleared .. => .trace
  | .missingBarrier .. => .warn
  | .prepareFailed .. | .applyFailed .. | .fatal .. => .error
  | .heapCreated .. | .mainAttached | .workerAttached .. | .detached .. | .detachedOpen ..
  | .started .. | .aborted .. | .prepared .. | .committed .. => .debug

def text : Notice → String
  | .heapCreated sharedReserve nurseryReserve pageSize =>
    s!"stm heap: shared reserve {Text.hex sharedReserve}, nursery reserve {Text.hex nurseryReserve}, " ++
      s!"promotion page {pageSize}"
  | .mainAttached => "main thread attached"
  | .workerAttached t => s!"worker thread {t} attached"
  | .detached t => s!"thread {t} detached"
  | .detachedOpen t phase => s!"thread {t}: detached with an open {phase.describe} transaction"
  | .started t => s!"thread {t}: transaction started"
  | .aborted t copies => s!"thread {t}: transaction aborted, {copies} private copies discarded"
  | .allocated t typeId size obj =>
    s!"thread {t}: malloc {Header.describeType typeId} ({size} bytes) at {Text.hex obj}"
  | .copied t shared copy => s!"thread {t}: materialized {Text.hex shared} as {Text.hex copy}"
  | .missingBarrier t obj => s!"thread {t}: store to shared object {Text.hex obj} without write barrier"
  | .tokenIssued token obj => s!"identity token {Text.hex token} for private object {Text.hex obj}"
  | .chunkTaken size start => s!"promotion chunk of {size} bytes at {Text.hex start}"
  | .promoted t obj twin size => s!"thread {t}: promoted {Text.hex obj} to {Text.hex twin} ({size} bytes)"
  | .weakCleared t target => s!"thread {t}: weak target {Text.hex target} cleared"
  | .prepared t roots twins => s!"thread {t}: prepared commit of {roots} roots, {twins} promoted"
  | .prepareFailed t cause => s!"thread {t}: commit preparation failed: {cause.message}"
  | .applyFailed cause => s!"applying root copies failed: {cause.message}"
  | .committed t us bytes => s!"thread {t}: committed in {us} us, nursery of {bytes} bytes released"
  | .fatal cause => s!"fatal transactional heap error: {cause.message}"

end Notice

/-- The failure of a call that accepts no refusal, and what is noted of it. -/
def Failure.escalate : Failure → Failure × List Notice
  | .refused cause => (.fatal cause, [.fatal cause])
  | f => (f, [])

def Attempt.orFatal {α : Type} (answer : Attempt α) : Attempt α := answer.mapError (·.escalate.1)

end TxHeap

/-
  TxHeap.Run — everything that can be asked of a session, and runs of it.

  A command is a call by a thread, or a setting of the event logs. `Session.step` performs
  one and gives its outcome with the session afterwards; a run is a list of commands, each
  performed whatever became of those before it.
-/
import TxHeap.Call.Allocate
import TxHeap.Call.Boundary
import TxHeap.Call.Commit
import TxHeap.Call.Identity
import TxHeap.Call.CopyOnWrite

namespace TxHeap

inductive Command where
  | attachMain
  | attachWorker
  | detach (thread : Nat)
  | start (thread : Nat)
  | abort (thread : Nat)
  | prepare (thread : Nat)
  | apply (thread : Nat)
  | finish (thread : Nat)
  | commit (thread : Nat)
  | bump (thread size : Nat)
  | create (thread typeId : Nat)
  | copyOnWrite (thread obj : Nat)
  | read (thread obj offset : Nat)
  | write (thread obj offset value : Nat)
  | header (thread obj : Nat)
  | canonical (thread : Nat) (obj : Option Nat)
  | token (thread obj : Nat)
  /-- Enables or disables the heap's event log. -/
  | setEvents (enabled : Bool)
  | clearEvents
  /-- Replaces the process-wide event log. -/
  | configureLog (config : EventLog.Config)
  deriving DecidableEq, Repr

inductive Reply where
  | done
  | thread (n : Nat)
  | address (a : Nat)
  | address? (a : Option Nat)
  | word (w : Nat)
  | header (h : Header)
  | token (t : Nat)
  | report (r : Report)
  deriving DecidableEq, Repr

abbrev Outcome := Except Failure Reply

def Action.editEvents (edit : EventLog → EventLog) : Action Unit :=
  modify fun s => { s with heap := { s.heap with events := edit s.heap.events } }

/-- A call whose only answer is that it is done. -/
def Action.quietly (call : Action Unit) : Action Reply := do
  call
  return .done

def Command.action : Command → Action Reply
  | .attachMain => .thread <$> Action.attachMain
  | .attachWorker => .thread <$> Action.attachWorker
  | .detach t => Action.quietly (Action.detach t)
  | .start t => Action.quietly (Action.start t)
  | .abort t => Action.quietly (Action.abort t)
  | .prepare t => .report <$> Action.prepare t
  | .apply t => Action.quietly (Action.apply t)
  | .finish t => .report <$> Action.finish t
  | .commit t => .report <$> Action.commit t
  | .bump t size => .address <$> Action.bump t size
  | .create t typeId => .address <$> Action.create t typeId
  | .copyOnWrite t obj => .address <$> Action.copyOnWrite t obj
  | .read t obj offset => .word <$> Action.readWord t obj offset
  | .write t obj offset value => Action.quietly (Action.writeWord t obj offset value)
  | .header t obj => .header <$> Action.header t obj
  | .canonical t obj => .address? <$> Action.canonical t obj
  | .token t obj => .token <$> Action.tokenOf t obj
  | .setEvents enabled => Action.quietly (Action.editEvents (·.setEnabled enabled))
  | .clearEvents => Action.quietly (Action.editEvents .clear)
  | .configureLog config => Action.quietly (modify fun s => { s with log := .new config })

namespace Session

def perform {α : Type} (s : Session) (action : Action α) : Except Failure α × Session :=
  match action s with
  | .ok a s => (.ok a, s)
  | .error f s => (.error f, s)

def step (s : Session) (c : Command) : Outcome × Session := s.perform c.action

def stepOrFatal (s : Session) (c : Command) : Outcome × Session := s.perform (Action.orFatal c.action)

def run (s : Session) : List Command → List Outcome × Session
  | [] => ([], s)
  | c :: cs =>
    let (outcome, s) := s.step c
    let (outcomes, s) := s.run cs
    (outcome :: outcomes, s)

def takePrinted (s : Session) : List ConsoleLine × Session := (s.printed.toList, { s with printed := #[] })

def takeJournal (s : Session) : List Notice × Session := (s.journal.toList, { s with journal := #[] })

end Session

end TxHeap

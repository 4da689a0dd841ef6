/-
  TxHeap.EventLog — the latest events, as many as the log has room for.

  A log accepts an event while it is enabled and the event's level is not above its own.
  Of the accepted events it keeps the latest `capacity`, or all of them where the capacity
  is zero. A log with a console also prints a line for each event it accepts; whether the
  line gets a time stamp in front is said with the line, and whoever prints it has the clock.
-/
import TxHeap.Event

namespace TxHeap

structure ConsoleLine where
  stamped : Bool
  text : String
  deriving DecidableEq, Repr

structure EventLog.Config where
  level : Level := .info
  console : Bool := true
  json : Bool := false
  timestamps : Bool := true
  /-- Events kept; zero keeps all. -/
  capacity : Nat := 4096
  deriving DecidableEq, Repr

structure EventLog where
  config : EventLog.Config
  enabled : Bool
  /-- The events kept, oldest first. -/
  events : List Event
  deriving DecidableEq, Repr

namespace EventLog

def new (config : EventLog.Config) : EventLog := ⟨config, true, []⟩

def accepts (log : EventLog) (e : Event) : Bool :=
  log.enabled && decide (e.level.rank ≤ log.config.level.rank)

/-- Keeps the event if it is accepted, and gives up the oldest one if there is no room. -/
def offer (log : EventLog) (e : Event) : EventLog :=
  if log.accepts e then
    let kept :=
      if 0 < log.config.capacity ∧ log.config.capacity ≤ log.events.length then log.events.tail
      else log.events
    { log with events := kept ++ [e] }
  else log

def line? (log : EventLog) (e : Event) : Option ConsoleLine :=
  if log.accepts e && log.config.console then
    some ⟨log.config.timestamps, if log.config.json then e.json else e.sentence⟩
  else none

def setEnabled (log : EventLog) (enabled : Bool) : EventLog := { log with enabled }

def clear (log : EventLog) : EventLog := { log with events := [] }

def size (log : EventLog) : Nat := log.events.length

end EventLog

end TxHeap

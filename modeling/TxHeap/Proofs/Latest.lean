/-
  TxHeap.Proofs.Latest — a log keeps the latest of the events it accepts.

  A log is offered events, enabled, disabled and cleared. What it keeps are the last of the
  events it has accepted since it was cleared, as many as it has room for
  (`EventLog.events_performAll`): one more event in a full log pushes out the oldest, which is
  what taking the last of a longer list does (`EventLog.Config.latest_concat`).

  Two logs hear of a run. What is raised comes to both or to none, as the heap's log is enabled
  or not (`Occurrence.offered`); the settings of the heap's log are its own, and the
  process-wide log may be replaced. So each log keeps the latest of the same offers by its own
  level and its own room (`heap_log_run`, `process_log_run`).
-/
import TxHeap.Proofs.Accounts

namespace TxHeap

/-! ## One log -/

namespace EventLog

inductive Call where
  | offer (e : Event)
  | setEnabled (on : Bool)
  | clear
  deriving DecidableEq, Repr

def perform (log : EventLog) : Call → EventLog
  | .offer e => log.offer e
  | .setEnabled on => log.setEnabled on
  | .clear => log.clear

def performAll (log : EventLog) (calls : List Call) : EventLog := calls.foldl perform log

/--
The events that are accepted by calls to a log of this level, at first enabled or not, and that
no clear comes after.
-/
def accepted (level : Level) : Bool → List Call → List Event
  | _, [] => []
  | on, .offer e :: calls =>
    if on = true ∧ e.level.rank ≤ level.rank ∧ .clear ∉ calls then e :: accepted level on calls
    else accepted level on calls
  | _, .setEnabled on :: calls => accepted level on calls
  | on, .clear :: calls => accepted level on calls

def Config.latest (config : Config) (es : List Event) : List Event :=
  if config.capacity = 0 then es else es.drop (es.length - config.capacity)

/-- The log keeps what a log of this configuration, at first enabled or not, is to keep after these calls. -/
structure Keeps (log : EventLog) (config : Config) (on : Bool) (calls : List Call) : Prop where
  events : log.events = config.latest (accepted config.level on calls)
  size : log.size = if config.capacity = 0 then (accepted config.level on calls).length
    else min config.capacity (accepted config.level on calls).length

variable {config : Config} {log : EventLog} {told : List Event}

theorem Config.length_latest (config : Config) (es : List Event) :
    (config.latest es).length = if config.capacity = 0 then es.length else min config.capacity es.length := by
  unfold latest
  split
  · rfl
  · rw [List.length_drop]
    omega

@[simp] theorem Config.latest_nil (config : Config) : config.latest [] = [] := by simp [latest]

/-- One event more, and one less at the front where there is no room. -/
theorem Config.latest_concat (config : Config) (es : List Event) (e : Event) :
    config.latest (es ++ [e]) =
      (if 0 < config.capacity ∧ config.capacity ≤ (config.latest es).length then (config.latest es).tail
        else config.latest es) ++ [e] := by
  rw [config.length_latest]
  unfold latest
  by_cases unbounded : config.capacity = 0
  · rw [if_pos unbounded, if_neg (by omega), if_pos unbounded]
  · rw [if_neg unbounded, if_neg unbounded, if_neg unbounded, List.length_append, List.length_singleton]
    by_cases full : config.capacity ≤ es.length
    · have longer : es.length + 1 - config.capacity = es.length - config.capacity + 1 := by omega
      rw [if_pos (by omega), List.tail_drop, longer, List.drop_append_of_le_length (by omega)]
    · have all : es.length + 1 - config.capacity = 0 := by omega
      have all' : es.length - config.capacity = 0 := by omega
      rw [if_neg (by omega), all, all', List.drop_zero, List.drop_zero]

theorem perform_config (log : EventLog) (call : Call) : (log.perform call).config = log.config := by
  cases call with
  | offer e =>
    rw [perform, offer]
    split <;> rfl
  | setEnabled | clear => rfl

/-- An event that is accepted joins what was told. -/
theorem events_offer (h : log.events = log.config.latest told) (e : Event) :
    (log.offer e).events =
      log.config.latest (if log.enabled = true ∧ e.level.rank ≤ log.config.level.rank then told ++ [e] else told) := by
  have accepts : log.accepts e = true ↔ log.enabled = true ∧ e.level.rank ≤ log.config.level.rank := by
    rw [EventLog.accepts, Bool.and_eq_true, decide_eq_true_eq]
  unfold offer
  by_cases hears : log.enabled = true ∧ e.level.rank ≤ log.config.level.rank
  · rw [if_pos (accepts.2 hears), if_pos hears, Config.latest_concat, ← h]
  · rw [if_neg (accepts.not.2 hears), if_neg hears, h]

/-- What was told before the calls counts until a clear, and after it what they add. -/
theorem events_performAll (calls : List Call) (h : log.events = log.config.latest told) :
    (log.performAll calls).events =
      log.config.latest ((if .clear ∈ calls then [] else told) ++ accepted log.config.level log.enabled calls) := by
  induction calls generalizing log told with
  | nil => simpa [performAll, accepted] using h
  | cons call calls ih =>
    have config := log.perform_config call
    cases call with
    | offer e =>
      have enabled : (log.offer e).enabled = log.enabled := offer_enabled log e
      have step := events_offer h e
      rw [← config] at step
      have rest := ih step
      rw [perform, enabled] at rest
      rw [performAll, List.foldl_cons, perform]
      refine rest.trans ?_
      rw [show (log.offer e).config = log.config from config, accepted]
      by_cases cleared : Call.clear ∈ calls
      · simp [cleared]
      · by_cases hears : log.enabled = true ∧ e.level.rank ≤ log.config.level.rank
        · simp [cleared, hears]
        · simp [cleared, hears]
    | setEnabled on =>
      have same : (log.setEnabled on).events = (log.setEnabled on).config.latest told := h
      have rest := ih same
      simpa [performAll, perform, accepted, setEnabled] using rest
    | clear =>
      have nothing : log.clear.events = log.clear.config.latest [] := (Config.latest_nil _).symm
      have rest := ih nothing
      simpa [performAll, perform, accepted, clear] using rest

theorem keeps_performAll (empty : log.events = []) (calls : List Call) :
    (log.performAll calls).Keeps log.config log.enabled calls := by
  have nothing : log.events = log.config.latest [] := by rw [empty, Config.latest_nil]
  have events := events_performAll calls nothing
  rw [ite_self, List.nil_append] at events
  exact ⟨events, by rw [size, events, Config.length_latest]⟩

end EventLog

/-! ## Two logs -/

inductive Occurrence where
  | raised (e : Event)
  /-- The heap's log is enabled or disabled. -/
  | setEvents (on : Bool)
  /-- The heap's log is cleared. -/
  | clearEvents
  /-- The process-wide log is replaced. -/
  | configureLog (config : EventLog.Config)
  deriving DecidableEq, Repr

namespace Occurrence

/-- What is left of the occurrences where nothing is offered while the heap's log is disabled. -/
def offered : Bool → List Occurrence → List Occurrence
  | _, [] => []
  | on, .raised e :: rest => if on then .raised e :: offered on rest else offered on rest
  | _, .setEvents on :: rest => .setEvents on :: offered on rest
  | on, x :: rest => x :: offered on rest

def heapCall? : Occurrence → Option EventLog.Call
  | .raised e => some (.offer e)
  | .setEvents on => some (.setEnabled on)
  | .clearEvents => some .clear
  | .configureLog _ => none

/-- The configuration of the process-wide log, and what it was asked since it has it. -/
def tell (heard : EventLog.Config × List EventLog.Call) : Occurrence → EventLog.Config × List EventLog.Call
  | .raised e => (heard.1, heard.2 ++ [.offer e])
  | .configureLog config => (config, [])
  | .setEvents _ | .clearEvents => heard

theorem offered_raised (on : Bool) (es : List Event) (rest : List Occurrence) :
    offered on (es.map .raised ++ rest) = (if on then es.map .raised else []) ++ offered on rest := by
  induction es with
  | nil => cases on <;> rfl
  | cons e es ih => cases on <;> simpa [offered] using ih

theorem filterMap_raised (es : List Event) : (es.map raised).filterMap heapCall? = es.map .offer := by
  induction es with
  | nil => rfl
  | cons e es ih => exact congrArg (EventLog.Call.offer e :: ·) ih

theorem foldl_tell_raised (es : List Event) (heard : EventLog.Config × List EventLog.Call) :
    (es.map raised).foldl tell heard = (heard.1, heard.2 ++ es.map .offer) := by
  induction es generalizing heard with
  | nil => simp
  | cons e es ih => simp [ih, tell]

end Occurrence

namespace Session

def occurrences (s : Session) : Command → Outcome → List Occurrence
  | .setEvents on, _ => [.setEvents on]
  | .clearEvents, _ => [.clearEvents]
  | .configureLog config, _ => [.configureLog config]
  | c, o => (s.reports c o).map .raised

def occurrencesOf (s : Session) : List Command → List Occurrence
  | [] => []
  | c :: cs => s.occurrences c (s.step c).1 ++ (s.step c).2.occurrencesOf cs

def trail (s : Session) (cs : List Command) : List Occurrence := s.occurrencesOf (s.calls cs)

end Session

def EventLog.asked (heard : Config × List Call) : EventLog := (EventLog.new heard.1).performAll heard.2

theorem EventLog.foldl_offer (log : EventLog) (es : List Event) : es.foldl offer log = log.performAll (es.map .offer) := by
  rw [performAll, List.foldl_map]
  rfl

theorem EventLog.performAll_append (log : EventLog) (calls more : List Call) :
    log.performAll (calls ++ more) = (log.performAll calls).performAll more :=
  List.foldl_append

section

open EventLog (Call asked)

variable {s : Session} {c : Command} {cs : List Command} {heard : EventLog.Config × List Call}

theorem foldl_offer_enabled (log : EventLog) (es : List Event) : (es.foldl EventLog.offer log).enabled = log.enabled := by
  induction es generalizing log with
  | nil => rfl
  | cons e es ih => exact (ih _).trans (offer_enabled log e)

/-- A log that is disabled stays as it is. -/
theorem foldl_offer_disabled {log : EventLog} (off : log.enabled = false) (es : List Event) :
    es.foldl EventLog.offer log = log := by
  induction es with
  | nil => rfl
  | cons e es ih => rwa [List.foldl_cons, EventLog.offer, EventLog.accepts, off, Bool.false_and, if_neg Bool.false_ne_true]

/-- Only reports happen by a call that is no setting. -/
theorem occurrences_of_not_sets (unset : ¬ c.Sets) (o : Outcome) : s.occurrences c o = (s.reports c o).map .raised := by
  cases c <;> first | rfl | exact absurd trivial unset

/-- They are offered, all or none. -/
theorem offered_of_not_sets (unset : ¬ c.Sets) (on : Bool) (o : Outcome) :
    Occurrence.offered on (s.occurrences c o) = if on then (s.reports c o).map .raised else [] := by
  have alone := Occurrence.offered_raised on (s.reports c o) []
  rw [occurrences_of_not_sets unset]
  rwa [List.append_nil, Occurrence.offered, List.append_nil] at alone

/-- What comes later is offered or not as the call has left the heap's log. -/
theorem offered_step (single : ∀ t, c ≠ .commit t) (rest : List Occurrence) :
    Occurrence.offered s.heap.events.enabled (s.occurrences c (s.step c).1 ++ rest) =
      Occurrence.offered s.heap.events.enabled (s.occurrences c (s.step c).1) ++
        Occurrence.offered (s.step c).2.heap.events.enabled rest := by
  by_cases set : c.Sets
  · cases c <;> first | rfl | exact set.elim
  · have log := log_step (s := s) single (fun on e => set (e ▸ trivial)) (fun e => set (e ▸ trivial))
    rw [offered_of_not_sets set, occurrences_of_not_sets set, Occurrence.offered_raised, log, foldl_offer_enabled]

/-- The heap's log after a call has been asked what is offered. -/
theorem heap_log_step (single : ∀ t, c ≠ .commit t) :
    (s.step c).2.heap.events = s.heap.events.performAll
      ((Occurrence.offered s.heap.events.enabled (s.occurrences c (s.step c).1)).filterMap Occurrence.heapCall?) := by
  by_cases set : c.Sets
  · cases c <;> first | rfl | exact set.elim
  · rw [log_step single (fun on e => set (e ▸ trivial)) (fun e => set (e ▸ trivial)), offered_of_not_sets set]
    cases on : s.heap.events.enabled with
    | true => rw [if_pos rfl, Occurrence.filterMap_raised, EventLog.foldl_offer]
    | false =>
      rw [foldl_offer_disabled on]
      rfl

theorem process_log_step (single : ∀ t, c ≠ .commit t) (h : s.log = asked heard) :
    (s.step c).2.log =
      asked ((Occurrence.offered s.heap.events.enabled (s.occurrences c (s.step c).1)).foldl Occurrence.tell heard) := by
  by_cases set : c.Sets
  · cases c with
    | setEvents | clearEvents => exact h
    | configureLog config => rfl
    | _ => exact set.elim
  · rw [heard_step single fun config e => set (e ▸ trivial), offered_of_not_sets set]
    cases on : s.heap.events.enabled with
    | true =>
      rw [if_pos rfl, if_pos rfl, Occurrence.foldl_tell_raised, EventLog.foldl_offer, h, asked, asked,
        EventLog.performAll_append]
    | false => exact h

theorem heap_log_run (single : ∀ c ∈ cs, ∀ t, c ≠ .commit t) :
    (s.run cs).2.heap.events = s.heap.events.performAll
      ((Occurrence.offered s.heap.events.enabled (s.occurrencesOf cs)).filterMap Occurrence.heapCall?) := by
  induction cs generalizing s with
  | nil => rfl
  | cons c cs ih =>
    obtain ⟨hc, single⟩ := List.forall_mem_cons.1 single
    have rest := ih (s := (s.step c).2) single
    rw [Session.occurrencesOf, offered_step hc, List.filterMap_append, EventLog.performAll_append, ← heap_log_step hc]
    exact rest

theorem process_log_run (single : ∀ c ∈ cs, ∀ t, c ≠ .commit t) (h : s.log = asked heard) :
    (s.run cs).2.log =
      asked ((Occurrence.offered s.heap.events.enabled (s.occurrencesOf cs)).foldl Occurrence.tell heard) := by
  induction cs generalizing s heard with
  | nil => exact h
  | cons c cs ih =>
    obtain ⟨hc, single⟩ := List.forall_mem_cons.1 single
    have rest := ih single (process_log_step hc h)
    rw [Session.occurrencesOf, offered_step hc, List.foldl_append]
    exact rest

end

/-- A log keeps the last of the events that it has accepted since it was cleared, as many as it has room for; and in a run the
heap's log and the process-wide one keep, each by its own level and room, of the same events offered while the first is
enabled. -/
theorem logs_keep_latest_accepted :
    (∀ (config : EventLog.Config) (calls : List EventLog.Call),
      ((EventLog.new config).performAll calls).Keeps config true calls) ∧
    ∀ {config : Config} {layout : Layout} {heard : EventLog.Config × List EventLog.Call} {s : Session},
      Session.create config layout (EventLog.asked heard) = .ok s → ∀ cs : List Command,
        let offered := Occurrence.offered config.verbose (s.trail cs)
        let heard' := offered.foldl Occurrence.tell heard
        (s.run cs).2.heap.events.Keeps { level := .debug, console := false } config.verbose
            (offered.filterMap Occurrence.heapCall?) ∧
          (s.run cs).2.log.Keeps heard'.1 true heard'.2 := by
  refine ⟨fun config calls => EventLog.keeps_performAll rfl calls, ?_⟩
  intro config layout heard s created cs offered heard'
  have new := new_of_create created
  have enabled : s.heap.events.enabled = config.verbose := by rw [new.events]; rfl
  have single := calls_single s cs
  have heap : (s.run cs).2.heap.events = s.heap.events.performAll (offered.filterMap Occurrence.heapCall?) := by
    rw [← run_calls, heap_log_run single, enabled]
    rfl
  have process : (s.run cs).2.log = EventLog.asked heard' := by
    rw [← run_calls, process_log_run single new.log, enabled]
    rfl
  refine ⟨?_, ?_⟩
  · have empty : s.heap.events.events = [] := by rw [new.events]; rfl
    have kept := EventLog.keeps_performAll empty (offered.filterMap Occurrence.heapCall?)
    rw [enabled, ← heap] at kept
    rwa [new.events] at kept
  · rw [process]
    exact EventLog.keeps_performAll rfl heard'.2

/-- Transactions started and aborted, while the process-wide log is replaced by one with room for two events, and the heap's log
is disabled over the second abort and cleared before the last start. -/
def Command.overheard : List Command :=
  [.attachWorker, .start 1, .abort 1, .configureLog { level := .debug, console := false, capacity := 2 }, .start 1,
    .setEvents false, .abort 1, .setEvents true, .start 1, .abort 1, .clearEvents, .start 1]

theorem logs_keep_latest_accepted_overheard :
    let s := (Session.ofLoudNodes.run Command.overheard).2
    s.heap.events.Keeps { level := .debug, console := false } true
        [.offer (.started 1), .offer (.aborted 1 0), .offer (.started 1), .setEnabled false, .setEnabled true,
          .offer (.started 1), .offer (.aborted 1 0), .clear, .offer (.started 1)] ∧
      s.log.Keeps { level := .debug, console := false, capacity := 2 } true
        [.offer (.started 1), .offer (.started 1), .offer (.aborted 1 0), .offer (.started 1)] ∧
      s.heap.events.events = [.started 1] ∧ s.log.events = [.aborted 1 0, .started 1] := by
  have created : Session.create { Config.small with verbose := true } Registry.nodes.layout (EventLog.asked ({}, [])) =
      .ok .ofLoudNodes := create_ofLoudNodes
  obtain ⟨heap, process⟩ := logs_keep_latest_accepted.2 created Command.overheard
  have offered : Occurrence.offered true (Session.ofLoudNodes.trail Command.overheard) =
      [.raised (.started 1), .raised (.aborted 1 0), .configureLog { level := .debug, console := false, capacity := 2 },
        .raised (.started 1), .setEvents false, .setEvents true, .raised (.started 1), .raised (.aborted 1 0), .clearEvents,
        .raised (.started 1)] := by decide +kernel
  rw [offered] at heap process
  exact ⟨heap, process, heap.events, process.events⟩

end TxHeap

/-
  TxHeap.Proofs.Books — what each call enters into counters and event logs.

  Of counters and events the books keep what they say of transactions. The calls that start,
  abort and end one enter what they report (`Session.reports`), each report once in the
  counters, once in the heap's log and, while this is enabled, once in the process-wide log; a
  detach does so for a transaction it gives up before its roots were applied. No other call
  enters anything (`books_step`); the settings of the logs leave the counters alone
  (`tally_step`), and those of one log the other log (`log_step`, `heard_step`).
-/
import TxHeap.Proofs.Phases

namespace TxHeap

inductive Ending where
  | aborted (thread roots : Nat)
  | committed (thread : Nat) (report : Report) (bytes : Nat)
  /-- Its roots were applied, and its thread detached before it was ended. -/
  | forsaken (thread : Nat)
  deriving DecidableEq, Repr

namespace Ending

def thread : Ending → Nat
  | .aborted t _ | .committed t _ _ | .forsaken t => t

def events : Ending → List Event
  | .aborted t roots => [.aborted t roots]
  | .committed t r bytes =>
    [.committed t r.roots r.promoted r.bytesPromoted r.weakRedirected r.weakCleared 0, .nurseryReset t bytes]
  | .forsaken _ => []

def block (e : Ending) : List Event := .started e.thread :: e.events

def isCommitted : Ending → Bool
  | .committed .. => true
  | _ => false

def isAborted : Ending → Bool
  | .aborted .. => true
  | _ => false

def isForsaken : Ending → Bool
  | .forsaken .. => true
  | _ => false

end Ending

namespace Session

/-- How the call that ends so brought a transaction to its end; a commit is not asked. -/
def ending? (s : Session) : Command → Outcome → Option Ending
  | .abort t, .ok _ => (s.tx? t).map fun tx => .aborted t tx.objects.size
  | .finish t, .ok _ => (s.tx? t).map fun tx => .committed t tx.report tx.nursery.used
  | .detach t, .ok _ => (s.tx? t).map fun tx => if tx.phase = .applied then .forsaken t else .aborted t tx.objects.size
  | _, _ => none

def reports (s : Session) : Command → Outcome → List Event
  | .start t, .ok _ => [.started t]
  | c, o => (s.ending? c o).toList.flatMap Ending.events

end Session

structure Tally where
  enabled : Bool
  started : UInt64
  committed : UInt64
  aborted : UInt64

def Tally.of (c : Counters) : Tally := ⟨c.enabled, c.started, c.committed, c.aborted⟩

def Tally.enter (x : Tally) (e : Event) : Tally :=
  if x.enabled then
    match e with
    | .started _ => { x with started := x.started + 1 }
    | .aborted .. => { x with aborted := x.aborted + 1 }
    | .committed .. => { x with committed := x.committed + 1 }
    | .nurseryReset .. => x
  else x

structure Books where
  tally : Tally
  log : EventLog
  /-- The process-wide log. -/
  heard : EventLog

def Books.enter (b : Books) (e : Event) : Books :=
  ⟨b.tally.enter e, b.log.offer e, if b.log.enabled then b.heard.offer e else b.heard⟩

def Session.books (s : Session) : Books := ⟨.of s.heap.counters, s.heap.events, s.log⟩

open Step TxHeap.Action

section

variable {s s' : Session} {c : Command} {o : Outcome} {t : Nat} {tx : Transaction} {es : List Event}

/-! ## One entry -/

theorem Tally.of_recordStart (c : Counters) (t : Nat) : Tally.of c.recordStart = (Tally.of c).enter (.started t) := by
  unfold Counters.recordStart Tally.enter
  split <;> simp [Tally.of, *]

theorem Tally.of_recordAbort (c : Counters) (t roots : Nat) :
    Tally.of c.recordAbort = (Tally.of c).enter (.aborted t roots) := by
  unfold Counters.recordAbort Tally.enter
  split <;> simp [Tally.of, *]

theorem Tally.of_recordCommit (c : Counters) (t roots promoted bytes redirected cleared us : Nat) :
    Tally.of (c.recordCommit promoted bytes redirected cleared) =
      (Tally.of c).enter (.committed t roots promoted bytes redirected cleared us) := by
  unfold Counters.recordCommit Tally.enter
  split <;> simp [Tally.of, *]

theorem Tally.enter_nurseryReset (x : Tally) (t bytes : Nat) : x.enter (.nurseryReset t bytes) = x := by
  unfold Tally.enter
  split <;> rfl

/-- A log that is disabled takes nothing. -/
theorem emit_events (s : Session) (e : Event) : (s.emit e).heap.events = s.heap.events.offer e := by
  unfold Session.emit
  split
  · rfl
  · rename_i disabled
    rw [EventLog.offer, if_neg]
    simp [EventLog.accepts, disabled]

theorem emit_log (s : Session) (e : Event) :
    (s.emit e).log = if s.heap.events.enabled then s.log.offer e else s.log := by
  unfold Session.emit
  split <;> rfl

theorem emit_counters (s : Session) (e : Event) : (s.emit e).heap.counters = s.heap.counters := by
  unfold Session.emit
  split <;> rfl

theorem books_emit (s : Session) (e : Event) :
    (s.emit e).books =
      ⟨.of s.heap.counters, s.heap.events.offer e, if s.heap.events.enabled then s.log.offer e else s.log⟩ := by
  rw [Session.books, emit_events, emit_log, emit_counters]

/-- What is counted and reported together is one entry. -/
theorem books_enter (record : Counters → Counters) {e : Event}
    (h : Tally.of (record s.heap.counters) = (Tally.of s.heap.counters).enter e) :
    ((s.count record).emit e).books = s.books.enter e := by
  rw [books_emit]
  show Books.mk (Tally.of (record s.heap.counters)) _ _ = _
  rw [h]
  rfl

theorem books_reset (s : Session) (t bytes : Nat) :
    (s.emit (.nurseryReset t bytes)).books = s.books.enter (.nurseryReset t bytes) := by
  rw [books_emit, Books.enter, Tally.enter_nurseryReset]
  rfl

/-! ## Calls that enter nothing -/

/-- The logs, and the counters but for those of copies and tokens, which count what transactions do. -/
def Session.accounts (s : Session) : Counters × EventLog × EventLog :=
  ({ s.heap.counters with copied := 0, tokens := 0 }, s.heap.events, s.log)

/-- The books can be told from the accounts. -/
theorem books_of_accounts (same : s'.accounts = s.accounts) : s'.books = s.books :=
  congrArg (fun (counters, log, heard) => Books.mk (.of counters) log heard) same

/-- The call changes a log for the sake of the log. -/
def Command.Sets : Command → Prop
  | .setEvents _ | .clearEvents | .configureLog _ => True
  | _ => False

theorem permits_accounts : (Guarantee.unchanged Session.accounts).PermitsCalls where
  fails := Guarantee.allowsFailures_unchanged
  setTx _ _ _ := rfl
  setShared _ _ := rfl
  note _ _ := rfl
  attach _ _ _ := rfl
  copied s := by
    show Prod.mk { s.heap.counters.recordCopy with copied := 0, tokens := 0 } _ = _
    unfold Counters.recordCopy
    split <;> rfl
  issued s := by
    have counted (c : Counters) :
        { c.recordToken with copied := 0, tokens := 0 } = { c with copied := 0, tokens := 0 } := by
      unfold Counters.recordToken
      split <;> rfl
    show Prod.mk { s.heap.issueToken.2.counters with copied := 0, tokens := 0 } _ = _
    rw [Heap.issueToken]
    dsimp only
    split
    · rfl
    · exact congrArg (Prod.mk · (s.heap.events, s.log)) (counted s.heap.counters)

theorem accounts_prepare (t : Nat) : (prepare t).Meets (.unchanged Session.accounts) := by
  refine meets_bind (meets_openTx permits_accounts.fails) ?_
  intro tx
  refine meets_bind (meets_requirePhase permits_accounts.fails) ?_
  intro _ s
  unfold Ends runPreparation
  cases Prepare.run s.heap.layout t (.ofHeap s.heap tx) with
  | ok report p => exact rfl
  | error f p => cases f <;> exact ⟨rfl, trivial⟩

theorem accounts_silent (h : c.Silent) : c.action.Meets (.unchanged Session.accounts) :=
  permits_accounts.silent h fun t _ => accounts_prepare t

/-- A silent call reports nothing. -/
theorem reports_silent (h : c.Silent) (o : Outcome) : s.reports c o = [] := by
  cases c <;> first | rfl | exact h.elim

theorem reports_error (c : Command) (f : Failure) : s.reports c (.error f) = [] := by
  cases c <;> rfl

/-! ## Calls that enter what they report -/

def Session.Booked (s : Session) (c : Command) (o : Outcome) (s' : Session) : Prop :=
  s'.books = (s.reports c o).foldl Books.enter s.books

/-- A call that fails before it enters anything. -/
theorem booked_error (f : Failure) : s.Booked c (.error f) s := by
  rw [Session.Booked, reports_error]
  rfl

theorem booked_start (t : Nat) :
    Ends (quietly (start t)) s (fun r s' => s.Booked (.start t) (.ok r) s') fun f s' =>
      s.Booked (.start t) (.error f) s' := by
  rw [ends_quietly, start, ends_bind, ends_handle]
  refine ⟨fun h _ => ?_, fun _ => booked_error _⟩
  rw [ends_bind, ends_demand]
  refine ⟨fun _ => ?_, fun _ => booked_error _⟩
  rw [ends_bind, ends_demand]
  refine ⟨fun _ => ?_, fun _ => booked_error _⟩
  rw [ends_bind, ends_get, ends_bind, ends_ofAttempt]
  refine ⟨fun nursery _ => ?_, fun f _ => booked_error f⟩
  exact books_enter (s := s.setTx t (some (.fresh nursery))) .recordStart (Tally.of_recordStart _ t)

theorem booked_abort (t : Nat) :
    Ends (quietly (abort t)) s (fun r s' => s.Booked (.abort t) (.ok r) s') fun f s' =>
      s.Booked (.abort t) (.error f) s' := by
  rw [ends_quietly, abort, ends_bind]
  refine ends_openTx (fun tx htx => ?_) fun _ f => booked_error f
  rw [ends_bind, ends_demand]
  refine ⟨fun _ => ?_, fun _ => booked_error _⟩
  have reported (r : Reply) : s.reports (.abort t) (.ok r) = [.aborted t tx.objects.size] := by
    simp [Session.reports, Session.ending?, htx, Ending.events]
  rw [ends_bind, ends_setTx, ends_bind, ends_countAbort]
  show Session.Booked _ _ _ _
  rw [Session.Booked, reported]
  exact books_enter (s := s.setTx t none) .recordAbort (Tally.of_recordAbort _ t _)

theorem booked_finish (t : Nat) :
    Ends (Reply.report <$> finish t) s (fun r s' => s.Booked (.finish t) (.ok r) s') fun f s' =>
      s.Booked (.finish t) (.error f) s' := by
  rw [ends_map, finish, ends_bind]
  refine ends_openTx (fun tx htx => ?_) fun _ f => booked_error f
  rw [ends_bind, ends_ofAttempt]
  refine ⟨fun _ _ => ?_, fun f _ => booked_error f⟩
  have reported (r : Reply) : s.reports (.finish t) (.ok r) = (Ending.committed t tx.report tx.nursery.used).events := by
    simp [Session.reports, Session.ending?, htx]
  show Session.Booked _ _ _ _
  rw [Session.Booked, reported]
  have ended := books_enter (s := s.setTx t none)
    (·.recordCommit tx.report.promoted tx.report.bytesPromoted tx.report.weakRedirected tx.report.weakCleared)
    (Tally.of_recordCommit s.heap.counters t tx.report.roots _ _ _ _ 0)
  refine (books_reset _ t tx.nursery.used).trans ?_
  rw [ended]
  rfl

theorem booked_detach (t : Nat) :
    Ends (quietly (Action.detach t)) s (fun r s' => s.Booked (.detach t) (.ok r) s') fun f s' =>
      s.Booked (.detach t) (.error f) s' := by
  rw [ends_quietly, Action.detach, ends_bind, ends_handle]
  refine ⟨fun h hh => ?_, fun _ => booked_error _⟩
  have htx := Session.tx?_of_handle? hh
  rw [ends_bind]
  -- what is entered is entered before the thread goes
  suffices dropped : Ends (h.tx.forM (dropOpen t)) s
      (fun _ s' => ∀ r, s.Booked (.detach t) (.ok r) s') fun f s' => s.Booked (.detach t) (.error f) s' from
    dropped.mono (fun _ _ booked => booked .done) fun _ _ booked => booked
  cases hx : h.tx with
  | none =>
    have quiet (r : Reply) : s.reports (.detach t) (.ok r) = [] := by
      simp [Session.reports, Session.ending?, htx, hx]
    intro r
    rw [Session.Booked, quiet]
    rfl
  | some tx =>
    show Ends (dropOpen t tx) s _ _
    rw [dropOpen]
    split
    · rename_i applied
      have quiet (r : Reply) : s.reports (.detach t) (.ok r) = [] := by
        simp [Session.reports, Session.ending?, htx, hx, applied, Ending.events]
      intro r
      rw [Session.Booked, quiet]
      rfl
    · rename_i open'
      have reported (r : Reply) : s.reports (.detach t) (.ok r) = [.aborted t tx.objects.size] := by
        simp [Session.reports, Session.ending?, htx, hx, open', Ending.events]
      intro r
      rw [Session.Booked, reported]
      exact books_enter .recordAbort (Tally.of_recordAbort _ t _)

theorem booked_silent (h : c.Silent) :
    Ends c.action s (fun r s' => s.Booked c (.ok r) s') fun f s' => s.Booked c (.error f) s' := by
  refine ((accounts_silent h).ends s).mono (fun r s' same => ?_) fun f s' same => ?_
  · rw [Session.Booked, reports_silent h]
    exact books_of_accounts same
  · rw [Session.Booked, reports_error]
    exact books_of_accounts same

/-- A call other than a commit or a setting enters what it reports. -/
theorem books_step (single : ∀ t, c ≠ .commit t) (unset : ¬ c.Sets) : s.Booked c (s.step c).1 (s.step c).2 := by
  refine step_of_ends ?_
  cases c with
  | start t => exact booked_start t
  | abort t => exact booked_abort t
  | finish t => exact booked_finish t
  | detach t => exact booked_detach t
  | commit t => exact absurd rfl (single t)
  | setEvents | clearEvents | configureLog => exact absurd trivial unset
  | _ => exact booked_silent trivial

theorem offer_enabled (log : EventLog) (e : Event) : (log.offer e).enabled = log.enabled := by
  unfold EventLog.offer
  split <;> rfl

theorem foldl_enter (b : Books) (es : List Event) :
    es.foldl Books.enter b =
      ⟨es.foldl Tally.enter b.tally, es.foldl EventLog.offer b.log,
        if b.log.enabled then es.foldl EventLog.offer b.heard else b.heard⟩ := by
  induction es generalizing b with
  | nil => simp
  | cons e es ih =>
    rw [List.foldl_cons, ih, Books.enter, offer_enabled]
    cases b.log.enabled <;> rfl

/-- A setting reports nothing. -/
theorem reports_sets (h : c.Sets) (o : Outcome) : s.reports c o = [] := by
  cases c <;> first | rfl | exact h.elim

/-- The counters take what is reported; they do not mind the settings of the logs. -/
theorem tally_step (single : ∀ t, c ≠ .commit t) :
    Tally.of (s.step c).2.heap.counters = (s.reports c (s.step c).1).foldl Tally.enter (.of s.heap.counters) := by
  by_cases set : c.Sets
  · rw [reports_sets set]
    cases c <;> first | rfl | exact set.elim
  · have booked := books_step (s := s) single set
    rw [Session.Booked, foldl_enter] at booked
    exact congrArg Books.tally booked

/-- So does the heap's log, unless it is set itself. -/
theorem log_step (single : ∀ t, c ≠ .commit t) (log : ∀ on, c ≠ .setEvents on) (clear : c ≠ .clearEvents) :
    (s.step c).2.heap.events = (s.reports c (s.step c).1).foldl EventLog.offer s.heap.events := by
  by_cases set : c.Sets
  · rw [reports_sets set]
    cases c with
    | setEvents on => exact absurd rfl (log on)
    | clearEvents => exact absurd rfl clear
    | configureLog config => rfl
    | _ => exact set.elim
  · have booked := books_step (s := s) single set
    rw [Session.Booked, foldl_enter] at booked
    exact congrArg Books.log booked

/-- The process-wide log takes what is reported while the heap's log is enabled, unless it is replaced. -/
theorem heard_step (single : ∀ t, c ≠ .commit t) (kept : ∀ config, c ≠ .configureLog config) :
    (s.step c).2.log =
      if s.heap.events.enabled then (s.reports c (s.step c).1).foldl EventLog.offer s.log else s.log := by
  by_cases set : c.Sets
  · rw [reports_sets set]
    cases c with
    | setEvents | clearEvents => exact (ite_self _).symm
    | configureLog config => exact absurd rfl (kept config)
    | _ => exact set.elim
  · have booked := books_step (s := s) single set
    rw [Session.Booked, foldl_enter] at booked
    exact congrArg Books.heard booked

end

end TxHeap

/-
  TxHeap.Proofs.Accounts — every started transaction is accounted for once.

  Beside a run stands the list of its endings, in the order they came about
  (`Session.endings`). What is reported of a thread is, ending after ending, a block from a start to
  that end, and behind them the start of the transaction that is open (`story`). So the
  counters are those of the endings, started transactions are those that ended and those that
  are open (`started_are_accounted_for`), and the log of a verbose heap tells the same blocks
  from the back, as far as it has room.

  A transaction whose thread detached after its roots were applied and before it was ended is
  neither counted as committed nor as aborted, and its block is its start alone
  (`forsaken_is_not_counted`).
-/
import TxHeap.Proofs.Books
import TxHeap.Proofs.Shadow

namespace TxHeap

def Event.isStarted : Event → Bool
  | .started _ => true
  | _ => false

def Event.isCommitted : Event → Bool
  | .committed .. => true
  | _ => false

def Event.isAborted : Event → Bool
  | .aborted .. => true
  | _ => false

namespace Session

def endingsOf (s : Session) : List Command → List Ending
  | [] => []
  | c :: cs => (s.ending? c (s.step c).1).toList ++ (s.step c).2.endingsOf cs

def reportsOf (s : Session) : List Command → List Event
  | [] => []
  | c :: cs => s.reports c (s.step c).1 ++ (s.step c).2.reportsOf cs

def endings (s : Session) (cs : List Command) : List Ending := s.endingsOf (s.calls cs)

/-- What is to be reported of the open transaction of a thread. -/
def opened (s : Session) (t : Nat) : List Event := if (s.phase? t).isSome then [.started t] else []

def openCount (s : Session) : Nat := s.handles.countP (·.tx.isSome)

end Session

section

variable {s s' : Session} {c : Command} {o : Outcome} {t : Nat} {cs : List Command} {e : Event} {x : Ending}

/-! ## The story of a thread -/

theorem Ending.thread_of_mem (h : e ∈ x.events) : e.thread = x.thread := by
  cases x with
  | aborted t roots =>
    rw [List.mem_singleton.mp h]
    rfl
  | committed t r bytes =>
    rcases List.mem_cons.mp h with rfl | h
    · rfl
    · rw [List.mem_singleton.mp h]
      rfl
  | forsaken t => cases h

theorem ending?_error (c : Command) (f : Failure) : s.ending? c (.error f) = none := by
  cases c <;> rfl

theorem ending?_thread (h : s.ending? c o = some x) : c.boundary? = some x.thread ∨ c = .detach x.thread := by
  cases c with
  | abort t | finish t =>
    cases o with
    | error f => cases h
    | ok r =>
      obtain ⟨tx, -, rfl⟩ := Option.map_eq_some_iff.1 h
      exact .inl rfl
  | detach t =>
    cases o with
    | error f => cases h
    | ok r =>
      obtain ⟨tx, -, rfl⟩ := Option.map_eq_some_iff.1 h
      refine .inr ?_
      split <;> rfl
  | _ => cases h

/-- Reports are about the thread whose call it is. -/
theorem reports_thread (h : e ∈ s.reports c o) : c.boundary? = some e.thread ∨ c = .detach e.thread := by
  by_cases start : ∃ t r, c = .start t ∧ o = .ok r
  · obtain ⟨t, r, rfl, rfl⟩ := start
    rw [List.mem_singleton.mp h]
    exact .inl rfl
  · have ended : s.reports c o = (s.ending? c o).toList.flatMap Ending.events := by
      cases c <;> cases o <;> first | rfl | exact absurd ⟨_, _, rfl, rfl⟩ start
    rw [ended, List.mem_flatMap] at h
    obtain ⟨x, hx, h⟩ := h
    rw [Ending.thread_of_mem h]
    exact ending?_thread (Option.mem_toList.1 hx)

theorem story_step (single : ∀ t, c ≠ .commit t) (t : Nat) :
    s.opened t ++ (s.reports c (s.step c).1).filter (·.thread = t) =
      ((s.ending? c (s.step c).1).toList.filter (·.thread = t)).flatMap Ending.block ++ (s.step c).2.opened t := by
  have arrow := arrow_step s c t
  rw [Command.Goes] at arrow
  rw [Session.opened, Session.opened]
  generalize (s.step c).1 = o at arrow ⊢
  generalize (s.step c).2.phase? t = q at arrow ⊢
  generalize hp : s.phase? t = p at arrow ⊢
  cases arrow with
  | started => simp [Session.reports, Session.ending?, Event.thread]
  | prepared | applied => simp [Session.reports, Session.ending?]
  | finished =>
    obtain ⟨tx, htx, -⟩ := phase?_eq_some hp
    simp [Session.reports, Session.ending?, htx, Ending.events, Ending.block, Event.thread, Ending.thread]
  | aborted =>
    obtain ⟨tx, htx, -⟩ := phase?_eq_some hp
    simp [Session.reports, Session.ending?, htx, Ending.events, Ending.block, Event.thread, Ending.thread]
  | detached =>
    cases htx : s.tx? t with
    | none =>
      have idle : p = none := by rw [← hp, Session.phase?, htx, Option.map_none]
      simp [Session.reports, Session.ending?, htx, idle]
    | some tx =>
      have held : p = some tx.phase := by rw [← hp, phase?_of_tx? htx]
      by_cases applied : tx.phase = .applied <;>
        simp [Session.reports, Session.ending?, htx, held, applied, Ending.events, Ending.block, Event.thread, Ending.thread]
  | unstarted | prepareFailed | applyFailed | cut | refused | away => simp [reports_error, ending?_error]
  | committed | commitFailed | commitCut => exact absurd rfl (single t)
  | elsewhere hc hd =>
    have silent : (s.reports c o).filter (·.thread = t) = [] := by
      rw [List.filter_eq_nil_iff]
      intro e he same
      rw [decide_eq_true_eq] at same
      rcases reports_thread he with own | own <;> rw [same] at own
      · exact hc own
      · exact hd own
    have unended : (s.ending? c o).toList.filter (·.thread = t) = [] := by
      rw [List.filter_eq_nil_iff]
      intro x hx same
      rw [decide_eq_true_eq] at same
      rcases ending?_thread (Option.mem_toList.1 hx) with own | own <;> rw [same] at own
      · exact hc own
      · exact hd own
    rw [silent, unended, List.append_nil, List.flatMap_nil, List.nil_append]

/-- What is reported of a thread are the blocks of its ended transactions, in order, and the start of the open one. -/
theorem story (t : Nat) (single : ∀ c ∈ cs, ∀ t, c ≠ .commit t) :
    s.opened t ++ (s.reportsOf cs).filter (·.thread = t) =
      ((s.endingsOf cs).filter (·.thread = t)).flatMap Ending.block ++ (s.run cs).2.opened t := by
  induction cs generalizing s with
  | nil => exact List.append_nil _
  | cons c cs ih =>
    obtain ⟨hc, single⟩ := List.forall_mem_cons.1 single
    have first := story_step (s := s) hc t
    have rest := ih (s := (s.step c).2) single
    rw [Session.reportsOf, Session.endingsOf, List.filter_append, List.filter_append, List.flatMap_append,
      ← List.append_assoc, first, List.append_assoc, rest, ← List.append_assoc]
    rfl

/-! ## The log -/

/-- The log has kept the last of what was reported, as much as it has room for. -/
structure EventLog.Tells (log : EventLog) (told : List Event) : Prop where
  enabled : log.enabled = true
  config : log.config = { level := .debug, console := false }
  room : log.size ≤ 4096
  kept : ∃ lost, lost ++ log.events = told ∧ (lost = [] ∨ log.size = 4096)

theorem EventLog.Tells.offer {log : EventLog} {told : List Event} (h : log.Tells told) (e : Event) :
    (log.offer e).Tells (told ++ [e]) := by
  obtain ⟨lost, rfl, full⟩ := h.kept
  have accepted : log.accepts e = true := by
    rw [EventLog.accepts, h.enabled, h.config]
    cases e <;> rfl
  have capacity : log.config.capacity = 4096 := by rw [h.config]
  have room := h.room
  rw [EventLog.size] at room
  unfold EventLog.offer
  rw [if_pos accepted, capacity]
  refine ⟨h.enabled, h.config, ?_, ?_⟩
  · dsimp only [EventLog.size]
    split
    · rw [List.length_append, List.length_tail, List.length_singleton]
      omega
    · rw [List.length_append, List.length_singleton]
      omega
  · dsimp only
    split
    · rename_i crowded
      cases he : log.events with
      | nil =>
        rw [he] at crowded
        exact absurd crowded.2 (by decide)
      | cons first rest =>
        rw [he, List.length_cons] at room crowded
        refine ⟨lost ++ [first], by simp, .inr ?_⟩
        rw [EventLog.size, List.tail_cons, List.length_append, List.length_singleton]
        omega
    · rename_i free
      refine ⟨lost, (List.append_assoc ..).symm, full.imp_right fun crowded => ?_⟩
      rw [EventLog.size] at crowded
      omega

theorem EventLog.Tells.foldl {log : EventLog} {told : List Event} (h : log.Tells told) (es : List Event) :
    (es.foldl EventLog.offer log).Tells (told ++ es) := by
  induction es generalizing log told with
  | nil => rwa [List.append_nil]
  | cons e es ih =>
    have := ih (h.offer e)
    rwa [List.append_assoc] at this

def Command.LeavesLog (c : Command) : Prop := c ≠ .setEvents false ∧ c ≠ .clearEvents

instance (c : Command) : Decidable c.LeavesLog := inferInstanceAs (Decidable (_ ∧ _))

theorem tells_step {told : List Event} (h : s.heap.events.Tells told) (single : ∀ t, c ≠ .commit t)
    (leaves : c.LeavesLog) : (s.step c).2.heap.events.Tells (told ++ s.reports c (s.step c).1) := by
  by_cases log : ∃ on, c = .setEvents on
  · obtain ⟨on, rfl⟩ := log
    have on : on = true := by
      cases on
      · exact absurd rfl leaves.1
      · rfl
    subst on
    have same : s.heap.events.setEnabled true = s.heap.events := by
      rw [EventLog.setEnabled, ← h.enabled]
    show (s.heap.events.setEnabled true).Tells (told ++ [])
    rw [same, List.append_nil]
    exact h
  · rw [log_step single (fun on e => log ⟨on, e⟩) leaves.2]
    exact h.foldl _

theorem tells_run {told : List Event} (h : s.heap.events.Tells told) (single : ∀ c ∈ cs, ∀ t, c ≠ .commit t)
    (leaves : ∀ c ∈ cs, c.LeavesLog) : (s.run cs).2.heap.events.Tells (told ++ s.reportsOf cs) := by
  induction cs generalizing s told with
  | nil => rwa [Session.reportsOf, List.append_nil]
  | cons c cs ih =>
    obtain ⟨hsingle, single⟩ := List.forall_mem_cons.1 single
    obtain ⟨hleaves, leaves⟩ := List.forall_mem_cons.1 leaves
    have rest := ih (tells_step h hsingle hleaves) single leaves
    rw [Session.reportsOf, ← List.append_assoc]
    exact rest

/-! ## The counters -/

theorem Tally.foldl_enabled (es : List Event) (x : Tally) : (es.foldl Tally.enter x).enabled = x.enabled := by
  induction es generalizing x with
  | nil => rfl
  | cons e es ih =>
    refine (ih _).trans ?_
    unfold Tally.enter
    split
    · split <;> rfl
    · rfl

/-- A tally that is kept counts what it is told. -/
theorem Tally.foldl_eq (es : List Event) (x : Tally) (h : x.enabled = true) :
    es.foldl Tally.enter x = ⟨true, x.started + .ofNat (es.countP Event.isStarted),
      x.committed + .ofNat (es.countP Event.isCommitted), x.aborted + .ofNat (es.countP Event.isAborted)⟩ := by
  induction es generalizing x with
  | nil =>
    rw [← h]
    simp
  | cons e es ih =>
    have kept : (x.enter e).enabled = true := (Tally.foldl_enabled [e] x).trans h
    rw [List.foldl_cons, ih _ kept]
    unfold Tally.enter
    rw [if_pos h]
    cases e <;> simp [Event.isStarted, Event.isCommitted, Event.isAborted, List.countP_cons, UInt64.add_assoc,
      UInt64.add_comm 1]

theorem tally_run (single : ∀ c ∈ cs, ∀ t, c ≠ .commit t) :
    Tally.of (s.run cs).2.heap.counters = (s.reportsOf cs).foldl Tally.enter (.of s.heap.counters) := by
  induction cs generalizing s with
  | nil => rfl
  | cons c cs ih =>
    obtain ⟨hc, single⟩ := List.forall_mem_cons.1 single
    rw [Session.reportsOf, List.foldl_append, ← tally_step hc]
    exact ih single

/-- Commits and aborts are reported where they end a transaction, and nowhere else. -/
theorem countP_reports (c : Command) (o : Outcome) :
    (s.reports c o).countP Event.isCommitted = (s.ending? c o).toList.countP Ending.isCommitted ∧
      (s.reports c o).countP Event.isAborted = (s.ending? c o).toList.countP Ending.isAborted := by
  by_cases start : ∃ t, c = .start t
  · obtain ⟨t, rfl⟩ := start
    cases o <;> exact ⟨rfl, rfl⟩
  · have ended : s.reports c o = (s.ending? c o).toList.flatMap Ending.events := by
      cases c <;> first | rfl | exact absurd ⟨_, rfl⟩ start
    rw [ended]
    cases s.ending? c o with
    | none => exact ⟨rfl, rfl⟩
    | some x => cases x <;> exact ⟨rfl, rfl⟩

theorem countP_reportsOf (cs : List Command) (s : Session) :
    (s.reportsOf cs).countP Event.isCommitted = (s.endingsOf cs).countP Ending.isCommitted ∧
      (s.reportsOf cs).countP Event.isAborted = (s.endingsOf cs).countP Ending.isAborted := by
  induction cs generalizing s with
  | nil => exact ⟨rfl, rfl⟩
  | cons c cs ih =>
    have first := countP_reports (s := s) c (s.step c).1
    have rest := ih (s.step c).2
    simp only [Session.reportsOf, Session.endingsOf, List.countP_append]
    exact ⟨congrArg₂ _ first.1 rest.1, congrArg₂ _ first.2 rest.2⟩

/-! ## Open transactions -/

/-- How many transactions a thread has open. -/
theorem countP_opened (s : Session) (t : Nat) : (s.opened t).countP Event.isStarted = (s.phase? t).isSome.toNat := by
  rw [Session.opened]
  cases s.phase? t <;> rfl

/-- A count over distinct numbers of something that changes at one of them. -/
theorem countP_change {l : List Nat} {p q : Nat → Bool} {a : Nat} (distinct : l.Nodup)
    (same : ∀ b, b ≠ a → p b = q b) (ha : a ∈ l ∨ p a = q a) : l.countP p + (q a).toNat = l.countP q + (p a).toNat := by
  induction l with
  | nil =>
    rcases ha with ha | ha
    · cases ha
    · rw [ha]
      rfl
  | cons b l ih =>
    obtain ⟨fresh, distinct⟩ := List.nodup_cons.mp distinct
    by_cases e : b = a
    · subst e
      have rest : l.countP p = l.countP q := List.countP_congr fun y hy => by rw [same y fun e => fresh (e ▸ hy)]
      rw [List.countP_cons, List.countP_cons, rest]
      cases p b <;> cases q b <;> simp
    · have := ih distinct (ha.imp_left fun h => (List.mem_cons.mp h).resolve_left fun h => e h.symm)
      rw [List.countP_cons, List.countP_cons, same b e]
      omega

theorem seat_of_phase? (h : (s.phase? t).isSome = true) : t ∈ s.seats := by
  rw [Session.phase?, Option.isSome_map] at h
  obtain ⟨tx, htx⟩ := Option.isSome_iff_exists.1 h
  exact mem_seats_iff.2 (Session.handle?_isSome_of_tx? htx)

theorem Seated.lt (h : Seated s) (seat : t ∈ s.seats) : t < idLimit :=
  Nat.lt_trans (h.given t (List.mem_append_left _ seat)) h.limit

/-- Open transactions counted by number, whoever is attached. -/
theorem Seated.openCount_eq (h : Seated s) : s.openCount = (List.range idLimit).countP fun t => (s.phase? t).isSome := by
  have attached : s.openCount = s.seats.countP fun t => (s.phase? t).isSome := by
    rw [Session.openCount, Session.seats, List.countP_map]
    refine List.countP_congr fun x hx => ?_
    rw [Function.comp_apply, Session.phase?, h.tx? hx, Option.isSome_map]
  have once : s.seats.Nodup := (List.nodup_append.mp h.once).1
  rw [attached, List.countP_eq_length_filter, List.countP_eq_length_filter]
  refine List.Perm.length_eq ((List.perm_ext_iff_of_nodup (once.filter _) (List.nodup_range.filter _)).2 fun t => ?_)
  rw [List.mem_filter, List.mem_filter, List.mem_range]
  constructor
  · rintro ⟨seat, busy⟩
    exact ⟨h.lt seat, busy⟩
  · rintro ⟨-, busy⟩
    exact ⟨seat_of_phase? busy, busy⟩

/-- Where only one thread's phase changes, the number of open transactions changes as that one does. -/
theorem openCount_change (h : Seated s) (h' : Seated s') (same : ∀ t', t' ≠ t → s'.phase? t' = s.phase? t') :
    s.openCount + (s'.phase? t).isSome.toNat = s'.openCount + (s.phase? t).isSome.toNat := by
  have idle {s : Session} (h : Seated s) (high : ¬ t < idLimit) : (s.phase? t).isSome = false := by
    rw [Bool.eq_false_iff]
    exact fun busy => high (h.lt (seat_of_phase? busy))
  rw [h.openCount_eq, h'.openCount_eq]
  refine countP_change (p := fun t => (s.phase? t).isSome) (q := fun t => (s'.phase? t).isSome) List.nodup_range
    (fun t' ne => by rw [same t' ne]) ?_
  by_cases low : t < idLimit
  · exact .inl (List.mem_range.2 low)
  · exact .inr ((idle h low).trans (idle h' low).symm)

theorem thread?_of_boundary (h : c.boundary? = some t ∨ c = .detach t) : c.thread? = some t := by
  rcases h with h | rfl
  · cases c <;> first | exact h | cases h
  · rfl

theorem countP_blocks (xs : List Ending) : (xs.flatMap Ending.block).countP Event.isStarted = xs.length := by
  induction xs with
  | nil => rfl
  | cons x xs ih =>
    have one : x.block.countP Event.isStarted = 1 := by cases x <;> rfl
    rw [List.flatMap_cons, List.countP_append, one, ih, List.length_cons, Nat.add_comm]

/-- A start opens a transaction, an ending closes one. -/
theorem openCount_step (h : Seated s) (single : ∀ t, c ≠ .commit t) :
    s.openCount + (s.reports c (s.step c).1).countP Event.isStarted =
      (s.ending? c (s.step c).1).toList.length + (s.step c).2.openCount := by
  -- all that the call reports and ends is of the thread whose call it is
  obtain ⟨t, own⟩ : ∃ t, ∀ t', c.boundary? = some t' ∨ c = .detach t' → t' = t :=
    ⟨c.thread?.getD mainThread, fun t' h => by rw [thread?_of_boundary h, Option.getD_some]⟩
  have reports : (s.reports c (s.step c).1).filter (·.thread = t) = s.reports c (s.step c).1 :=
    List.filter_eq_self.2 fun e he => decide_eq_true (own _ (reports_thread he))
  have endings : (s.ending? c (s.step c).1).toList.filter (·.thread = t) = (s.ending? c (s.step c).1).toList :=
    List.filter_eq_self.2 fun x hx => decide_eq_true (own _ (ending?_thread (Option.mem_toList.1 hx)))
  have told := congrArg (List.countP Event.isStarted) (story_step (s := s) single t)
  rw [reports, endings, List.countP_append, List.countP_append, countP_blocks, countP_opened, countP_opened] at told
  have change := openCount_change h (h.single single) (t := t) fun t' ne =>
    phase?_step_elsewhere (fun hc => ne (own t' (.inl hc))) fun hd => ne (own t' (.inr hd))
  omega

theorem openCount_run (h : Seated s) (single : ∀ c ∈ cs, ∀ t, c ≠ .commit t) :
    s.openCount + (s.reportsOf cs).countP Event.isStarted = (s.endingsOf cs).length + (s.run cs).2.openCount := by
  induction cs generalizing s with
  | nil => exact Nat.add_comm ..
  | cons c cs ih =>
    obtain ⟨hc, single⟩ := List.forall_mem_cons.1 single
    have first := openCount_step h hc
    have rest := ih (h.single hc) single
    rw [Session.reportsOf, Session.endingsOf, List.countP_append, List.length_append]
    show _ = _ + ((s.step c).2.run cs).2.openCount
    omega

/-- A transaction ends in one of three ways. -/
theorem length_endings (xs : List Ending) :
    xs.length = xs.countP Ending.isCommitted + xs.countP Ending.isAborted + xs.countP Ending.isForsaken := by
  induction xs with
  | nil => rfl
  | cons x xs ih =>
    cases x <;> simp [ih, Ending.isCommitted, Ending.isAborted, Ending.isForsaken, List.countP_cons] <;> omega

/-! ## From the start of a heap -/

/-- The calls of a run are its own, or the steps of its commits. -/
theorem mem_calls (h : c ∈ s.calls cs) : c ∈ cs ∨ ∃ t, c = .prepare t ∨ c = .apply t ∨ c = .finish t := by
  induction cs generalizing s with
  | nil => cases h
  | cons c' cs ih =>
    rcases List.mem_append.mp h with h | h
    · by_cases commit : ∃ t, c' = .commit t
      · obtain ⟨t, rfl⟩ := commit
        exact .inr ⟨t, parts_commit s t c h⟩
      · rw [parts_of_single commit, List.mem_singleton] at h
        exact .inl (h ▸ List.mem_cons_self)
    · exact (ih h).imp_left (List.mem_cons_of_mem c')

theorem leavesLog_calls (h : ∀ c ∈ cs, c.LeavesLog) : ∀ c ∈ s.calls cs, c.LeavesLog := by
  intro c hc
  rcases mem_calls hc with hc | ⟨t, rfl | rfl | rfl⟩
  · exact h c hc
  all_goals exact ⟨nofun, nofun⟩

end

/-- The heap's log is the end of what is told of each thread: the blocks of its ended transactions in order, then the start
of the open one. It is all of it as long as there is room. -/
def Session.Recounts (s : Session) (endings : List Ending) : Prop :=
  ∃ lost, (lost = [] ∨ s.heap.events.size = 4096) ∧ ∀ t, (lost ++ s.heap.events.events).filter (·.thread = t) =
    (endings.filter (·.thread = t)).flatMap Ending.block ++ s.opened t

/-- The counters of transactions are those of the endings and of the open ones. -/
structure Session.Balances (s : Session) (endings : List Ending) : Prop where
  committed : s.heap.counters.committed = .ofNat (endings.countP Ending.isCommitted)
  aborted : s.heap.counters.aborted = .ofNat (endings.countP Ending.isAborted)
  started : s.heap.counters.started = s.heap.counters.committed + s.heap.counters.aborted + .ofNat s.openCount +
    .ofNat (endings.countP Ending.isForsaken)

section

variable {config : Config} {layout : Layout} {log : EventLog} {s : Session} {cs : List Command}

theorem balances_of_created (created : Session.create config layout log = .ok s) (counting : config.statsEnabled = true) :
    (s.run cs).2.Balances (s.endings cs) := by
  have single := calls_single s cs
  have counted : Tally.of s.heap.counters = ⟨true, 0, 0, 0⟩ := by
    rw [(new_of_create created).counters, counting]
    rfl
  have tally := tally_run (s := s) single
  rw [run_calls, counted, Tally.foldl_eq _ _ rfl] at tally
  simp only [Tally.of, Tally.mk.injEq, UInt64.zero_add] at tally
  obtain ⟨-, started, committed, aborted⟩ := tally
  obtain ⟨commits, aborts⟩ := countP_reportsOf (s.calls cs) s
  have none : s.openCount = 0 := by rw [Session.openCount, (new_of_create created).handles, List.countP_nil]
  have balance := openCount_run (seated_create created) single
  rw [none, Nat.zero_add, length_endings, run_calls] at balance
  rw [commits] at committed
  rw [aborts] at aborted
  refine ⟨committed, aborted, ?_⟩
  rw [started, committed, aborted, balance, Session.endings]
  simp only [UInt64.ofNat_add]
  ac_rfl

theorem recounts_of_created (created : Session.create config layout log = .ok s) (verbose : config.verbose = true)
    (leaves : ∀ c ∈ cs, c.LeavesLog) : (s.run cs).2.Recounts (s.endings cs) := by
  have single := calls_single s cs
  have tells : s.heap.events.Tells [] := by
    rw [(new_of_create created).events, verbose]
    exact ⟨rfl, rfl, by decide, [], rfl, .inl rfl⟩
  have told := tells_run tells single (leavesLog_calls leaves)
  rw [run_calls] at told
  obtain ⟨lost, kept, full⟩ := told.kept
  refine ⟨lost, full, fun t => ?_⟩
  have idle : s.opened t = [] := by
    rw [Session.opened, Session.phase?, tx?_create created]
    rfl
  have blocks := story (s := s) t single
  rw [idle, List.nil_append, run_calls] at blocks
  rw [kept, List.nil_append, blocks, Session.endings]

end

/-- Every started transaction is committed, aborted, open or forsaken, and each is told of once. -/
theorem started_are_accounted_for {config : Config} {layout : Layout} {log : EventLog} {s : Session}
    (created : Session.create config layout log = .ok s) (counting : config.statsEnabled = true) (cs : List Command) :
    (s.run cs).2.Balances (s.endings cs) ∧
      (config.verbose = true → (∀ c ∈ cs, c.LeavesLog) → (s.run cs).2.Recounts (s.endings cs)) :=
  ⟨balances_of_created created counting, recounts_of_created created⟩

def Session.ofLoudNodes : Session :=
  (Session.create { Config.small with verbose := true } Registry.nodes.layout (.new {})).toOption.get (by decide +kernel)

theorem create_ofLoudNodes :
    Session.create { Config.small with verbose := true } Registry.nodes.layout (.new {}) = .ok .ofLoudNodes := rfl

/-- Transactions of one thread: committed, aborted, detached from after its roots were applied, and left open. -/
def Command.fourWays : List Command :=
  [.attachMain, .create mainThread 0, .attachWorker, .start 1, .copyOnWrite 1 sharedStart, .commit 1, .start 1, .abort 1,
    .start 1, .copyOnWrite 1 sharedStart, .prepare 1, .apply 1, .detach 1, .attachWorker, .start 1]

theorem started_are_accounted_for_ofLoudNodes :
    (Session.ofLoudNodes.endings Command.fourWays).map (fun x => (x.isCommitted, x.isAborted, x.isForsaken)) =
        [(true, false, false), (false, true, false), (false, false, true)] ∧
      (Session.ofLoudNodes.run Command.fourWays).2.opened 1 = [.started 1] ∧
      (Session.ofLoudNodes.run Command.fourWays).2.Balances (Session.ofLoudNodes.endings Command.fourWays) ∧
      (Session.ofLoudNodes.run Command.fourWays).2.Recounts (Session.ofLoudNodes.endings Command.fourWays) := by
  obtain ⟨balances, recounts⟩ := started_are_accounted_for create_ofLoudNodes rfl Command.fourWays
  exact ⟨by decide +kernel, by decide +kernel, balances, recounts rfl (by decide)⟩

/-- A transaction that is started and prepared, its roots applied, and its thread gone. -/
def Command.forsaking : List Command :=
  [.attachMain, .create mainThread 0, .attachWorker, .start 1, .copyOnWrite 1 sharedStart, .prepare 1, .apply 1, .detach 1]

/-- Then starts are not balanced by commits, aborts and open transactions; and all that the log tells is a start, of which no
transaction is open. -/
theorem forsaken_is_not_counted :
    (Session.ofLoudNodes.run Command.forsaking).2.heap.counters.started ≠
        (Session.ofLoudNodes.run Command.forsaking).2.heap.counters.committed +
          (Session.ofLoudNodes.run Command.forsaking).2.heap.counters.aborted +
          .ofNat (Session.ofLoudNodes.run Command.forsaking).2.openCount ∧
      (Session.ofLoudNodes.run Command.forsaking).2.heap.events.events = [.started 1] ∧
      (Session.ofLoudNodes.run Command.forsaking).2.phase? 1 = none := by
  decide +kernel

end TxHeap

/-
  TxHeap.Proofs.Space — a report tells the room that was taken, and the end adds it up.

  Twins lie in chunks, each as long as a page, or as the twin that it was taken for where that
  is longer. So the chunks hold the twins (`Spread.sum_size_le`), and no longer chunk is taken
  than one for each twin; with pages of one byte there is nothing else in them
  (`Spread.taken_eq_sum`). As a preparation that answers has promoted what its plan says, it
  reports what it has taken of the shared heap (`IntactAt.spaceReported`).

  The report stays with the transaction until this is closed (`Session.Reported.run`). Only
  an end adds to what is counted of twins and weak pointers, and it adds the report
  (`gains_step`, `gains_run`).

  A preparation that is stopped by its arithmetic may have forwarded what is no object, and so
  written over the header of one. A later preparation goes by that header, and its report is
  wrong (`reports_tell_less_when_cut_off`).
-/
import TxHeap.Proofs.Accounts
import TxHeap.Proofs.Assured
import TxHeap.Proofs.Verdict

namespace TxHeap

/-! ## The room of twins -/

namespace Spread

variable {s : Spread} {pageSize : Nat} {r : Record} {rs : List Record}

theorem taken_add_free (s : Spread) (r : Record) (free : s.buffer.cursor ≤ s.buffer.limit) :
    r.size + (s.add r).buffer.free + s.taken ≤ s.buffer.free + (s.add r).taken := by
  rw [add]
  split
  · simp only [TwinBuffer.free, taken]
    omega
  · simp only [TwinBuffer.free, taken] at *
    omega

/-- The chunks hold the twins, and what is left of the last one. -/
theorem sum_size_le (pageSize : Nat) (rs : List Record) :
    (rs.map Record.size).sum + (of pageSize rs).buffer.free ≤ (of pageSize rs).taken := by
  induction rs using List.reverseRecOn with
  | nil => exact Nat.le_refl _
  | append_singleton rs r ih =>
    have more := taken_add_free (of pageSize rs) r (fits_of pageSize rs).cursor
    rw [of_concat, List.map_append, List.sum_append, List.map_singleton, List.sum_singleton]
    omega

/-- With pages of one byte each chunk is as long as its twin. -/
theorem taken_eq_sum (page : pageSize ≤ 1) (sized : ∀ r ∈ rs, 0 < r.size) :
    (of pageSize rs).taken = (rs.map Record.size).sum ∧ (of pageSize rs).buffer.free = 0 := by
  induction rs using List.reverseRecOn with
  | nil => exact ⟨rfl, rfl⟩
  | append_singleton rs r ih =>
    obtain ⟨sized, last⟩ := List.forall_mem_append.1 sized
    have pos := last r (List.mem_singleton_self r)
    obtain ⟨taken, free⟩ := ih sized
    have pages := pageSize_of pageSize rs
    -- as nothing is left of the last chunk, every twin needs a new one
    rw [of_concat, add, if_pos (by omega), List.map_append, List.sum_append, List.map_singleton, List.sum_singleton]
    simp only [Spread.taken, TwinBuffer.free] at *
    omega

/-- Room is taken just if there are twins. -/
theorem taken_eq_zero (sized : ∀ r ∈ rs, 0 < r.size) : (of pageSize rs).taken = 0 ↔ rs = [] := by
  refine ⟨fun none => ?_, fun none => by rw [none]; rfl⟩
  have held := sum_size_le pageSize rs
  cases rs with
  | nil => rfl
  | cons r rs =>
    have := sized r List.mem_cons_self
    rw [none, List.map_cons, List.sum_cons] at held
    omega

end Spread

/-! ## What a prepare reports -/

def promotedBetween (own : List Record) (nursery nursery' : Arena) : List Record :=
  own.filter fun r => (nursery.memory.twinOf? r.addr).isNone && (nursery'.memory.twinOf? r.addr).isSome

/-- A prepare that has come from `s` and `tx` to `s'` and `tx'` reports what it has promoted and taken. -/
structure SpaceReported (s s' : Session) (own : List Record) (tx tx' : Transaction) (report : Report) : Prop where
  /-- The size of an object is the one of its type. -/
  sized : ∀ r ∈ own, s.heap.layout.objectSize r.typeId = .ok r.size
  roots : report.roots = tx.objects.size
  promoted : report.promoted = (promotedBetween own tx.nursery tx'.nursery).length
  bytes : report.bytesPromoted = ((promotedBetween own tx.nursery tx'.nursery).map Record.size).sum
  /-- The shared heap has grown by what was consumed. -/
  consumed : s'.heap.shared.used = s.heap.shared.used + report.sharedConsumed
  atLeast : report.bytesPromoted ≤ report.sharedConsumed
  atMost : report.sharedConsumed ≤
    ((promotedBetween own tx.nursery tx'.nursery).map fun r => max r.size s.heap.config.pageSize).sum
  exactly : s.heap.config.pageSize = 1 → report.sharedConsumed = report.bytesPromoted
  nothing : report.sharedConsumed = 0 ↔ promotedBetween own tx.nursery tx'.nursery = []

section

variable {layout : Layout} {own shared : List Record} {p₀ p : Preparation} {g : Progress} {plan : Plan} {r : Record}

/-- A preparation starts with no object promoted. -/
theorem Ready.twinOf?_eq_none (ready : Ready layout own shared p₀) (hc : p₀.buffer.cursor = 0) (hl : p₀.buffer.limit = 0)
    (hp : p₀.report.promoted = 0) (hb : p₀.report.bytesPromoted = 0) (hr : r ∈ own) :
    p₀.tx.nursery.memory.twinOf? r.addr = none := by
  have going : Going layout own shared p₀ True .start p₀ := ready.going hc hl hp hb
  rw [Option.eq_none_iff_forall_ne_some]
  intro twin found
  obtain ⟨t, ht, -⟩ := Progress.mem_moves.1 ((going.twinOf?_iff ready hr).1 found)
  cases ht

/-- What the plan has promoted is what was promoted since the start. -/
theorem Going.promoted_perm (ready : Ready layout own shared p₀) (h : Going layout own shared p₀ True g p)
    (tracks : plan.Tracks own p₀ g p) (unforwarded : ∀ r ∈ own, p₀.tx.nursery.memory.twinOf? r.addr = none) :
    plan.promoted.Perm (promotedBetween own p₀.tx.nursery p.tx.nursery) := by
  refine (List.perm_ext_iff_of_nodup (tracks.promoted ▸ h.once) (ready.nursery.nodup.filter _)).2 fun r => ?_
  rw [List.mem_filter]
  constructor
  · intro hp
    obtain ⟨t, ht⟩ := tracks.promoted_iff.1 hp
    have hr := (h.twins r t ht).1
    refine ⟨hr, ?_⟩
    rw [unforwarded r hr, (h.mem_promoted_iff ready tracks hr).1 hp]
    rfl
  · rintro ⟨hr, found⟩
    rw [unforwarded r hr] at found
    exact (h.mem_promoted_iff ready tracks hr).2 (by simpa using found)

end

section

variable {s s' : Session} {L : Ledger} {t : Nat} {tx tx' : Transaction} {cs : List Command} {report : Report}

theorem IntactAt.spaceReported (h : IntactAt t s L) (htx : s.tx? t = some tx) (aim : L.FieldsAim s t)
    (ok : (s.step (.prepare t)).1 = .ok (.report report)) :
    ∃ tx', (s.step (.prepare t)).2.tx? t = some tx' ∧ tx'.phase = .prepared ∧ tx'.report = report ∧
      SpaceReported s (s.step (.prepare t)).2 (L.own t) tx tx' report := by
  obtain ⟨p, g, plan, ready, going, -, -, tracks, hreport, agrees⟩ := h.planned htx aim ok
  have left : (s.step (.prepare t)).2.tx? t = some { p.tx with phase := .prepared, report } :=
    (agrees.tx? t).trans (Session.tx?_setTx_of_tx? htx)
  have shared : (s.step (.prepare t)).2.heap.shared = p.shared := agrees.shared
  refine ⟨_, left, rfl, rfl, ?_⟩
  have perm := going.promoted_perm ready tracks fun r hr => ready.twinOf?_eq_none rfl rfl rfl rfl hr
  have start : (Preparation.ofHeap s.heap tx).tx = tx := rfl
  rw [start] at perm
  have positive : ∀ r ∈ plan.promoted, 0 < r.size := fun r hr =>
    Nat.lt_of_lt_of_le (by decide) (ready.nursery.headerSize_le (List.mem_of_mem_filter (perm.mem_iff.1 hr)))
  have bytes : report.bytesPromoted = (plan.promoted.map Record.size).sum := by rw [hreport]; rfl
  have consumed : report.sharedConsumed = (Spread.of (max s.heap.config.pageSize 1) plan.promoted).taken := by
    rw [hreport]
  have free : p.shared.freePointer = s.heap.shared.freePointer + report.sharedConsumed := consumed ▸ tracks.free
  refine ⟨ready.nursery.sized, by rw [hreport]; rfl, ?_, ?_, ?_, ?_, ?_, ?_, ?_⟩
  · rw [hreport]
    exact perm.length_eq
  · rw [bytes]
    exact (perm.map Record.size).sum_eq
  · have started := going.onward.start
    rw [shared]
    simp only [Arena.freePointer, started] at free
    have begun : (Preparation.ofHeap s.heap tx).shared = s.heap.shared := rfl
    rw [begun] at free
    omega
  · have held := Spread.sum_size_le (max s.heap.config.pageSize 1) plan.promoted
    omega
  · rw [consumed, ← (perm.map fun r => max r.size s.heap.config.pageSize).sum_eq]
    refine Nat.le_trans (Spread.taken_of_le _ _) (Nat.le_of_eq (congrArg List.sum (List.map_congr_left fun r hr => ?_)))
    have := positive r hr
    omega
  · intro page
    rw [consumed, bytes]
    exact (Spread.taken_eq_sum (by omega) positive).1
  · rw [consumed, Spread.taken_eq_zero positive]
    exact ⟨fun none => (none ▸ perm).nil_eq.symm, fun none => (none ▸ perm).eq_nil⟩

end

/-! ## What ends add up to -/

/-- What the counters say of twins and weak pointers. -/
structure Gains where
  enabled : Bool
  promoted : UInt64
  bytesPromoted : UInt64
  weakRedirected : UInt64
  weakCleared : UInt64

namespace Gains

def of (c : Counters) : Gains := ⟨c.enabled, c.promoted, c.bytesPromoted, c.weakRedirected, c.weakCleared⟩

def add (g : Gains) (r : Report) : Gains :=
  if g.enabled then
    { g with
      promoted := g.promoted + .ofNat r.promoted
      bytesPromoted := g.bytesPromoted + .ofNat r.bytesPromoted
      weakRedirected := g.weakRedirected + .ofNat r.weakRedirected
      weakCleared := g.weakCleared + .ofNat r.weakCleared }
  else g

def enter (g : Gains) : Ending → Gains
  | .committed _ report _ => g.add report
  | .aborted .. | .forsaken _ => g

end Gains

def Session.gains (s : Session) : Gains := .of s.heap.counters

open Step TxHeap.Action

section

variable {s s' : Session} {c : Command} {t : Nat} {cs : List Command}

theorem gains_of_accounts (same : s'.accounts = s.accounts) : s'.gains = s.gains :=
  congrArg (fun (counters, _) => Gains.of counters) same

theorem Gains.of_recordCommit (c : Counters) (r : Report) :
    Gains.of (c.recordCommit r.promoted r.bytesPromoted r.weakRedirected r.weakCleared) = (Gains.of c).add r := by
  unfold Counters.recordCommit Gains.add
  split <;> simp [Gains.of, *]

theorem gains_emit (s : Session) (e : Event) : (s.emit e).gains = s.gains := congrArg Gains.of (emit_counters s e)

theorem permits_gains : (Guarantee.unchanged Session.gains).PermitsAborts where
  fails := Guarantee.allowsFailures_unchanged
  setTx _ _ _ := rfl
  setShared _ _ := rfl
  note _ _ := rfl
  attach _ _ _ := rfl
  copied s := gains_of_accounts (permits_accounts.copied s)
  issued s := gains_of_accounts (permits_accounts.issued s)
  emit := gains_emit
  started s := by
    show Gains.of s.heap.counters.recordStart = _
    unfold Counters.recordStart
    split <;> rfl
  aborted s := by
    show Gains.of s.heap.counters.recordAbort = _
    unfold Counters.recordAbort
    split <;> rfl

theorem gains_call_of_not_finish (single : ∀ t, c ≠ .commit t) (hc : ∀ t, c ≠ .finish t) :
    c.action.Meets (.unchanged Session.gains) := by
  have permits := permits_gains
  have silent {c : Command} (h : c.Silent) : c.action.Meets (.unchanged Session.gains) :=
    (accounts_silent h).imply ⟨gains_of_accounts, id⟩
  cases c with
  | start t => exact meets_quietly permits.start
  | abort t => exact meets_quietly permits.abort
  | detach t => exact meets_quietly permits.detach
  | setEvents | clearEvents | configureLog => exact meets_quietly (meets_modify fun _ => rfl)
  | commit t => exact absurd rfl (single t)
  | finish t => exact absurd rfl (hc t)
  | _ => exact silent trivial

/-- What an ending adds, a finish has brought about. -/
theorem enter_ending? (hc : ∀ t, c ≠ .finish t) (o : Outcome) (g : Gains) :
    (s.ending? c o).toList.foldl Gains.enter g = g := by
  cases c with
  | finish t => exact absurd rfl (hc t)
  | abort t =>
    cases o with
    | error f => rfl
    | ok r =>
      rw [Session.ending?]
      cases s.tx? t <;> rfl
  | detach t =>
    cases o with
    | error f => rfl
    | ok r =>
      rw [Session.ending?]
      cases s.tx? t with
      | none => rfl
      | some tx =>
        rw [Option.map_some]
        split <;> rfl
  | _ => rfl

/-- Nothing but an end adds anything. -/
theorem gains_of_not_finish (single : ∀ t, c ≠ .commit t) (hc : ∀ t, c ≠ .finish t) : (s.step c).2.gains = s.gains :=
  step_of_ends (P := fun _ s' => s'.gains = s.gains) ((gains_call_of_not_finish single hc).ends s)

theorem gains_finish (s : Session) (t : Nat) : (s.step (.finish t)).2.gains =
    (s.ending? (.finish t) (s.step (.finish t)).1).toList.foldl Gains.enter s.gains := by
  refine step_of_ends (P := fun o s' => s'.gains = (s.ending? (.finish t) o).toList.foldl Gains.enter s.gains) ?_
  show Ends (Reply.report <$> finish t) s _ _
  rw [ends_map, finish, ends_bind]
  refine ends_openTx (fun tx htx => ?_) fun _ f => rfl
  rw [ends_bind, ends_ofAttempt]
  refine ⟨fun _ _ => ?_, fun f _ => rfl⟩
  have counted (e e' : Event) : ((((s.setTx t none).count (·.recordCommit tx.report.promoted tx.report.bytesPromoted
      tx.report.weakRedirected tx.report.weakCleared)).emit e).emit e').gains = s.gains.add tx.report := by
    rw [gains_emit, gains_emit]
    exact Gains.of_recordCommit s.heap.counters tx.report
  have ended : s.ending? (.finish t) (.ok (.report tx.report)) = some (.committed t tx.report tx.nursery.used) := by
    rw [Session.ending?, htx]
    rfl
  show Session.gains _ = (s.ending? (.finish t) (.ok (.report tx.report))).toList.foldl Gains.enter s.gains
  rw [ended]
  exact counted _ _

theorem gains_step (single : ∀ t, c ≠ .commit t) :
    (s.step c).2.gains = (s.ending? c (s.step c).1).toList.foldl Gains.enter s.gains := by
  by_cases hc : ∃ t, c = .finish t
  · obtain ⟨t, rfl⟩ := hc
    exact gains_finish s t
  · have others : ∀ t, c ≠ .finish t := fun t e => hc ⟨t, e⟩
    rw [enter_ending? others, gains_of_not_finish single others]

/-- Over a run the counters gain what the commits that ended in it have reported. -/
theorem gains_run (s : Session) (cs : List Command) : (s.run cs).2.gains = (s.endings cs).foldl Gains.enter s.gains := by
  have calls (cs : List Command) (s : Session) (single : ∀ c ∈ cs, ∀ t, c ≠ .commit t) :
      (s.run cs).2.gains = (s.endingsOf cs).foldl Gains.enter s.gains := by
    induction cs generalizing s with
    | nil => rfl
    | cons c cs ih =>
      obtain ⟨hc, single⟩ := List.forall_mem_cons.1 single
      rw [Session.endingsOf, List.foldl_append, ← gains_step hc]
      exact ih _ single
  rw [← run_calls]
  exact calls _ s (calls_single s cs)

end

/-! ## From the prepare to the end -/

/-- The transaction of the thread is past its prepare, which reported this. -/
def Session.Reported (s : Session) (t : Nat) (report : Report) : Prop :=
  ∃ tx, s.tx? t = some tx ∧ tx.phase ≠ .active ∧ tx.report = report

def Command.LeavesOpen (c : Command) (t : Nat) : Prop := c ≠ .abort t ∧ c ≠ .finish t ∧ c ≠ .detach t

instance (c : Command) (t : Nat) : Decidable (c.LeavesOpen t) := by
  unfold Command.LeavesOpen
  infer_instance

/-- What an end of the thread's transaction says and adds. -/
structure Session.Settles (s : Session) (t : Nat) (report : Report) : Prop where
  answers : ∀ tx ∈ s.tx? t, tx.phase = .applied → (s.step (.finish t)).1 = .ok (.report report)
  same : ∀ reply, (s.step (.finish t)).1 = .ok reply → reply = .report report
  adds : ∀ reply, (s.step (.finish t)).1 = .ok reply → (s.step (.finish t)).2.gains = s.gains.add report
  /-- One that is aborted, or given up by its thread, adds nothing. -/
  drops : ∀ c, c = .abort t ∨ c = .detach t → (s.step c).2.gains = s.gains

section

variable {s : Session} {L : Ledger} {c : Command} {t : Nat} {tx : Transaction} {cs ds : List Command} {report : Report}

theorem Session.Reported.step (h : s.Reported t report) (ground : Grounded s) (hc : c.LeavesOpen t) :
    (s.step c).2.Reported t report := by
  obtain ⟨tx, htx, past, hreport⟩ := h
  -- of the calls that leave it open only its own apply changes a transaction that is past its prepare
  by_cases apply : c = .apply t
  · subst apply
    have e : Effect s (.apply t) _ _ := step_effect nofun
    generalize (s.step (.apply t)).1 = o, (s.step (.apply t)).2 = s' at e
    cases e with
    | refused _ _ agrees | answered _ agrees => exact ⟨tx, (agrees.tx? t).trans htx, past, hreport⟩
    | attached hc => rcases hc with hc | hc <;> cases hc
    | applied htx' hphase hrun agrees =>
      cases htx.symm.trans htx'
      exact ⟨_, (agrees.tx? t).trans (Session.tx?_setTx_of_tx? htx), nofun, hreport⟩
    | applyStopped htx' hphase failed _ _ _ _ hsame =>
      cases htx.symm.trans htx'
      refine ⟨_, (hsame t).trans (if_pos rfl), ?_⟩
      rcases failed with rfl | rfl
      · exact ⟨nofun, hreport⟩
      · exact ⟨past, hreport⟩
  · have closes : c.closes? ≠ some t := by
      obtain ⟨abort, finish, detach⟩ := hc
      cases c with
      | abort t' => exact fun e => abort (congrArg Command.abort (Option.some.inj e))
      | apply t' => exact fun e => apply (congrArg Command.apply (Option.some.inj e))
      | finish t' => exact fun e => finish (congrArg Command.finish (Option.some.inj e))
      | detach t' => exact fun e => detach (congrArg Command.detach (Option.some.inj e))
      | _ => exact nofun
    obtain ⟨tx', htx', held⟩ := ground.held htx past closes
    exact ⟨tx', htx', held.phase ▸ past, held.report.trans hreport⟩

/-- The report stays until the transaction is closed. -/
theorem Session.Reported.run (h : s.Reported t report) (ground : Grounded s) (hc : ∀ c ∈ cs, c.LeavesOpen t) :
    (s.run cs).2.Reported t report := by
  induction cs generalizing s with
  | nil => exact h
  | cons c cs ih =>
    obtain ⟨hc, rest⟩ := List.forall_mem_cons.1 hc
    exact ih (h.step ground hc) (ground.run [c]).1 rest

theorem Session.Reported.settles (h : s.Reported t report) : s.Settles t report := by
  obtain ⟨tx, htx, -, rfl⟩ := h
  have same : ∀ reply, (s.step (.finish t)).1 = .ok reply → reply = .report tx.report := by
    intro reply answered
    have e : Effect s (.finish t) _ _ := step_effect nofun
    rw [answered] at e
    generalize (s.step (.finish t)).2 = s' at e
    cases e with
    | answered asks => exact asks.elim
    | attached hc => rcases hc with hc | hc <;> cases hc
    | finished htx' _ _ =>
      cases htx.symm.trans htx'
      rfl
  refine ⟨?_, same, ?_, ?_⟩
  · intro tx' htx' applied
    cases htx.symm.trans htx'
    obtain ⟨s', answered, -⟩ := step_finish htx applied
    rw [answered]
  · intro reply answered
    rw [gains_finish, answered, Session.ending?, htx]
    rfl
  · rintro c (rfl | rfl) <;> exact gains_of_not_finish (by intro _ e; cases e) (by intro _ e; cases e)

/--
A prepare that answers reports the room that it has taken; the end of the transaction answers
with the same report and adds it to the counters, to which nothing but ends adds. The
transaction was opened after a state of a life, and none of its prepares so far was stopped by
arithmetic.
-/
theorem reports_tell_the_room_taken (life : Lived storesAim s L) (closed : s.tx? t = none)
    (allowed : AllAllowed (unbroken t) s L cs) (htx : (s.run cs).2.tx? t = some tx)
    (aim : (L.along s cs).FieldsAim (s.run cs).2 t)
    (ok : ((s.run cs).2.step (.prepare t)).1 = .ok (.report report)) :
    ∃ tx', ((s.run cs).2.step (.prepare t)).2.tx? t = some tx' ∧
      SpaceReported (s.run cs).2 ((s.run cs).2.step (.prepare t)).2 ((L.along s cs).own t) tx tx' report ∧
      (∀ ds, (∀ c ∈ ds, c.LeavesOpen t) → (((s.run cs).2.step (.prepare t)).2.run ds).2.Settles t report) ∧
      ∀ ds, (((s.run cs).2.step (.prepare t)).2.run ds).2.gains =
        (((s.run cs).2.step (.prepare t)).2.endings ds).foldl Gains.enter ((s.run cs).2.step (.prepare t)).2.gains := by
  have intact := IntactAt.opened life closed allowed
  obtain ⟨tx', htx', prepared, hreport, reported⟩ := intact.spaceReported htx aim ok
  have past : ((s.run cs).2.step (.prepare t)).2.Reported t report := by
    refine ⟨tx', htx', ?_, hreport⟩
    rw [prepared]
    exact nofun
  have ground := (intact.1.run [.prepare t]).1
  exact ⟨tx', htx', reported, fun ds opened => (past.run ground opened).settles, fun ds => gains_run _ ds⟩

/-- The cycle of two nodes takes a page, and its end adds two objects. -/
theorem reports_tell_the_room_taken_cycle :
    ∃ tx tx', (Session.ofNodes.run cyclic).2.tx? 1 = some tx ∧
      ((Session.ofNodes.run cyclic).2.step (.prepare 1)).2.tx? 1 = some tx' ∧
      SpaceReported (Session.ofNodes.run cyclic).2 ((Session.ofNodes.run cyclic).2.step (.prepare 1)).2
        ((Ledger.empty.along .ofNodes cyclic).own 1) tx tx'
        { roots := 1, promoted := 2, bytesPromoted := 96, sharedConsumed := 256, weakRedirected := 1, weakCleared := 1 } ∧
      (((Session.ofNodes.run cyclic).2.step (.prepare 1)).2.run [.apply 1]).2.Settles 1
        { roots := 1, promoted := 2, bytesPromoted := 96, sharedConsumed := 256, weakRedirected := 1, weakCleared := 1 } := by
  obtain ⟨tx, htx⟩ := open_cyclic
  obtain ⟨tx', htx', reported, settles, -⟩ := reports_tell_the_room_taken
    (.created Config.small_fits Registry.nodes_built create_ofNodes) (tx?_create create_ofNodes) (by decide +kernel) htx
    (by decide +kernel) prepare_cyclic
  exact ⟨tx, tx', htx, htx', reported, settles [.apply 1] (by decide)⟩

/-! ### A prepare that is cut off -/

/-- Nodes, small objects without pointers, and objects whose payload leaves no room for a header in a word. -/
def Registry.mixed : Registry :=
  ⟨#[⟨"node", 32, ⟨3⟩, some 16⟩, ⟨"leaf", 8, ⟨0⟩, none⟩, ⟨"vast", wordLimit - 8, ⟨0⟩, none⟩]⟩

theorem Registry.mixed_built : mixed.Built := by
  have node : empty.register ⟨"node", 32, ⟨3⟩, some 16⟩ = .ok (0, .nodes) := rfl
  have leaf : Registry.nodes.register ⟨"leaf", 8, ⟨0⟩, none⟩ =
      .ok (1, ⟨#[⟨"node", 32, ⟨3⟩, some 16⟩, ⟨"leaf", 8, ⟨0⟩, none⟩]⟩) := rfl
  have vast : Registry.register ⟨#[⟨"node", 32, ⟨3⟩, some 16⟩, ⟨"leaf", 8, ⟨0⟩, none⟩]⟩
      ⟨"vast", wordLimit - 8, ⟨0⟩, none⟩ = .ok (2, mixed) := rfl
  exact .register (.register (.register .empty node) leaf) vast

def Session.ofMixed : Session :=
  (Session.create .small Registry.mixed.layout (.new {})).toOption.get (by decide +kernel)

theorem create_ofMixed : Session.create .small Registry.mixed.layout (.new {}) = .ok .ofMixed := rfl

/--
The copy of a shared node points twice into the data of a node `x`. What it points to first
reads as a node that ends beyond `x`; when it is forwarded to its twin, the upper half of
the twin's address is written over the type of the next node `y`. The second reads as a vast
object and stops the prepare. Then the pointers are taken back, and one to `y` is stored.
-/
def Command.mistyped : List Command :=
  let copy := nurseryStart
  let x := copy + 48
  let y := x + 48
  [.attachMain, .create mainThread 0, .attachWorker, .start 1, .copyOnWrite 1 sharedStart, .create 1 0, .create 1 0,
    .write 1 x 0 2, .write 1 copy 0 (x + 36), .write 1 copy 8 (x + 16), .prepare 1, .write 1 x 0 0, .write 1 copy 0 0,
    .write 1 copy 8 y]

/-- The next prepare answers and promotes the node `y`, of which it reports no more than the size of a leaf. -/
theorem reports_tell_less_when_cut_off :
    Lived named (Session.ofMixed.run Command.mistyped).2 (Ledger.empty.along .ofMixed Command.mistyped) ∧
    (Ledger.empty.along .ofMixed Command.mistyped).FieldsKnown (Session.ofMixed.run Command.mistyped).2 1 ∧
    ∃ tx report tx', (Session.ofMixed.run Command.mistyped).2.tx? 1 = some tx ∧ tx.phase = .active ∧
      ((Session.ofMixed.run Command.mistyped).2.step (.prepare 1)).1 = .ok (.report report) ∧
      ((Session.ofMixed.run Command.mistyped).2.step (.prepare 1)).2.tx? 1 = some tx' ∧
      ¬ SpaceReported (Session.ofMixed.run Command.mistyped).2
        ((Session.ofMixed.run Command.mistyped).2.step (.prepare 1)).2
        ((Ledger.empty.along .ofMixed Command.mistyped).own 1) tx tx' report := by
  refine ⟨Lived.along (.created Config.small_fits Registry.mixed_built create_ofMixed) (by decide +kernel),
    by decide +kernel, ?_⟩
  have before : ((Session.ofMixed.run Command.mistyped).2.tx? 1).any (·.phase = .active) = true := by decide +kernel
  have after : (((Session.ofMixed.run Command.mistyped).2.step (.prepare 1)).2.tx? 1).isSome = true := by decide +kernel
  have ok : ((Session.ofMixed.run Command.mistyped).2.step (.prepare 1)).1 = .ok (.report
      { roots := 1, promoted := 1, bytesPromoted := 24, sharedConsumed := 256, weakRedirected := 0, weakCleared := 0 }) := by
    decide +kernel
  have sizes : ∀ tx ∈ (Session.ofMixed.run Command.mistyped).2.tx? 1,
      ∀ tx' ∈ ((Session.ofMixed.run Command.mistyped).2.step (.prepare 1)).2.tx? 1,
        ((promotedBetween ((Ledger.empty.along .ofMixed Command.mistyped).own 1) tx.nursery tx'.nursery).map
          Record.size).sum = 48 := by
    decide +kernel
  obtain ⟨tx, htx, hactive⟩ := (Option.any_eq_true _ _).1 before
  obtain ⟨tx', htx'⟩ := Option.isSome_iff_exists.1 after
  refine ⟨tx, _, tx', htx, of_decide_eq_true hactive, ok, htx', fun reported => ?_⟩
  have bytes := reported.bytes
  rw [sizes tx htx tx' htx'] at bytes
  cases bytes

end

end TxHeap

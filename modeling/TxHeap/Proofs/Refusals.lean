/-
  TxHeap.Proofs.Refusals — refused calls leave no trace.

  A call of a mutator asks first and acts last: what it asks changes nothing, and what it then
  does cannot fail. So where it fails, everything is as it was (`Atomic`). Two calls do not
  keep to this order. A store to a shared object without a copy is noted in the journal before
  it is refused; and a copy takes its room before it looks for the shared bytes, which for an
  object are always there (`CopyFailed`).

  Nobody reads the journal: sessions that differ in nothing else (`Session.Retold`) answer
  every call alike and differ in nothing else again (`run_retold`). So whatever is called after
  a refused call, ends as if that had never been made (`refused_calls_leave_no_trace`).
-/
import TxHeap.Proofs.Books
import TxHeap.Proofs.Copies
import TxHeap.Proofs.Lockstep

namespace TxHeap

/-! ## The journal -/

def Session.retell (s : Session) (journal : Array Notice) : Session := { s with journal }

theorem Session.retell_heap (s : Session) (journal : Array Notice) : (s.retell journal).heap = s.heap := rfl

def Session.Retold (s s' : Session) : Prop := ∃ journal, s' = s.retell journal

theorem Session.Retold.refl (s : Session) : s.Retold s := ⟨s.journal, rfl⟩

open Step TxHeap.Action

section

variable {α : Type}

theorem respects_change {f : Session → Session} (h : ∀ s journal, (f s).Retold (f (s.retell journal))) :
    (modify f : Action Unit).Respects Session.Retold := by
  refine respects_modify ?_
  rintro s _ ⟨journal, rfl⟩
  exact h s journal

/-- The session may be asked for anything but its journal. -/
theorem respects_ask {next : Session → Action α} (same : ∀ s journal, next (s.retell journal) = next s)
    (h : ∀ s, (next s).Respects Session.Retold) : (get >>= next).Respects Session.Retold := by
  refine respects_get h ?_
  rintro s _ ⟨journal, rfl⟩
  exact same s journal

end

theorem respects_note (n : Notice) : (note n).Respects Session.Retold := respects_change fun _ journal => ⟨journal.push n, rfl⟩

theorem respects_count (record : Counters → Counters) : (count record).Respects Session.Retold :=
  respects_change fun _ journal => ⟨journal, rfl⟩

theorem respects_emit (e : Event) : (emit e).Respects Session.Retold := by
  refine respects_change fun s journal => ⟨journal, ?_⟩
  by_cases on : s.heap.events.enabled = true <;> simp only [Session.emit, Session.retell_heap, on] <;> rfl

theorem respects_setTx (t : Nat) (tx : Option Transaction) : (setTx t tx).Respects Session.Retold :=
  respects_change fun _ journal => ⟨journal, rfl⟩

theorem respects_setShared (shared : Arena) : (setShared shared).Respects Session.Retold :=
  respects_change fun _ journal => ⟨journal, rfl⟩

theorem respects_handle (t : Nat) : (handle t).Respects Session.Retold := by
  refine respects_ask (fun _ _ => rfl) ?_
  intro s
  split
  · exact respects_pure _
  · exact respects_throw _

theorem respects_openTx (t : Nat) (operation : String) : (openTx t operation).Respects Session.Retold := by
  refine respects_bind (respects_handle t) ?_
  intro h
  split
  · exact respects_pure _
  · exact respects_throw _

theorem respects_query {α : Type} (t : Nat) (ask : Handle → Heap → Attempt α) : (query t ask).Respects Session.Retold := by
  refine respects_bind (respects_handle t) ?_
  intro h
  refine respects_ask (fun _ _ => rfl) ?_
  intro s
  exact respects_ofAttempt _

/-! ### Calls -/

theorem respects_attachMain : attachMain.Respects Session.Retold := by
  refine respects_ask (fun _ _ => rfl) ?_
  intro s
  refine respects_bind (respects_ofAttempt _) ?_
  intro threads
  refine respects_bind (respects_change fun _ journal => ⟨journal, rfl⟩) ?_
  intro _
  refine respects_bind (respects_note _) ?_
  intro _
  exact respects_pure _

theorem respects_attachWorker : attachWorker.Respects Session.Retold := by
  refine respects_ask (fun _ _ => rfl) ?_
  intro s
  refine respects_bind (respects_ofAttempt _) ?_
  intro attached
  refine respects_bind (respects_change fun _ journal => ⟨journal, rfl⟩) ?_
  intro _
  refine respects_bind (respects_note _) ?_
  intro _
  exact respects_pure _

theorem respects_countAbort (t : Nat) (tx : Transaction) : (countAbort t tx).Respects Session.Retold := by
  refine respects_bind (respects_count _) ?_
  intro _
  exact respects_emit _

theorem respects_dropOpen (t : Nat) (tx : Transaction) : (dropOpen t tx).Respects Session.Retold := by
  rw [dropOpen]
  split
  · exact respects_note _
  · refine respects_bind (respects_countAbort t tx) ?_
    intro _
    exact respects_note _

theorem respects_detach (t : Nat) : (detach t).Respects Session.Retold := by
  refine respects_bind (respects_handle t) ?_
  intro h
  refine respects_bind ?_ ?_
  · cases h.tx with
    | none => exact respects_pure _
    | some tx => exact respects_dropOpen t tx
  intro _
  refine respects_bind (respects_change fun _ journal => ⟨journal, rfl⟩) ?_
  intro _
  exact respects_note _

theorem respects_start (t : Nat) : (start t).Respects Session.Retold := by
  refine respects_bind (respects_handle t) ?_
  intro h
  refine respects_bind respects_demand ?_
  intro _
  refine respects_bind respects_demand ?_
  intro _
  refine respects_ask (fun _ _ => rfl) ?_
  intro s
  refine respects_bind (respects_ofAttempt _) ?_
  intro nursery
  refine respects_bind (respects_setTx t _) ?_
  intro _
  refine respects_bind (respects_count _) ?_
  intro _
  refine respects_bind (respects_emit _) ?_
  intro _
  exact respects_note _

theorem respects_abort (t : Nat) : (abort t).Respects Session.Retold := by
  refine respects_bind (respects_openTx t _) ?_
  intro tx
  refine respects_bind respects_demand ?_
  intro _
  refine respects_bind (respects_setTx t _) ?_
  intro _
  refine respects_bind (respects_countAbort t _) ?_
  intro _
  exact respects_note _

theorem respects_runPreparation (t : Nat) (tx : Transaction) : (runPreparation t tx).Respects Session.Retold := by
  rintro s _ ⟨journal, rfl⟩
  unfold Both
  rw [runPreparation, runPreparation, Session.retell_heap]
  cases Prepare.run s.heap.layout t (.ofHeap s.heap tx) with
  | ok report p => exact ⟨rfl, _, rfl⟩
  | error f p => cases f <;> exact ⟨rfl, _, rfl⟩

theorem respects_prepare (t : Nat) : (prepare t).Respects Session.Retold := by
  refine respects_bind (respects_openTx t _) ?_
  intro tx
  refine respects_bind (respects_ofAttempt _) ?_
  intro _
  exact respects_runPreparation t tx

theorem respects_runOverwrite (t : Nat) (tx : Transaction) : (runOverwrite t tx).Respects Session.Retold := by
  rintro s _ ⟨journal, rfl⟩
  unfold Both
  rw [runOverwrite, runOverwrite, Session.retell_heap]
  cases overwriteAll s.heap.layout tx tx.objects.pairs s.heap.shared with
  | ok _ shared => exact ⟨rfl, _, rfl⟩
  | error f shared => cases f <;> exact ⟨rfl, _, rfl⟩

theorem respects_apply (t : Nat) : (apply t).Respects Session.Retold := by
  refine respects_bind (respects_openTx t _) ?_
  intro tx
  refine respects_bind (respects_ofAttempt _) ?_
  intro _
  exact respects_runOverwrite t tx

theorem respects_finish (t : Nat) : (finish t).Respects Session.Retold := by
  refine respects_bind (respects_openTx t _) ?_
  intro tx
  refine respects_bind (respects_ofAttempt _) ?_
  intro _
  refine respects_bind (respects_setTx t _) ?_
  intro _
  refine respects_bind (respects_count _) ?_
  intro _
  refine respects_bind (respects_emit _) ?_
  intro _
  refine respects_bind (respects_emit _) ?_
  intro _
  refine respects_bind (respects_note _) ?_
  intro _
  exact respects_pure _

theorem respects_commit (t : Nat) : (commit t).Respects Session.Retold := by
  refine respects_bind (respects_openTx t _) ?_
  intro _
  refine respects_bind (respects_prepare t) ?_
  intro _
  refine respects_bind (respects_apply t) ?_
  intro _
  exact respects_finish t

theorem respects_bump (t size : Nat) : (bump t size).Respects Session.Retold := by
  refine respects_bind (respects_handle t) ?_
  intro h
  split
  · refine respects_ask (fun _ _ => rfl) ?_
    intro s
    refine respects_bind (respects_ofAttempt _) ?_
    intro taken
    refine respects_bind (respects_setShared _) ?_
    intro _
    exact respects_pure _
  · refine respects_bind (respects_openTx t _) ?_
    intro tx
    refine respects_bind (respects_ofAttempt _) ?_
    intro taken
    refine respects_bind (respects_setTx t _) ?_
    intro _
    exact respects_pure _

theorem respects_placeObject (t typeId size : Nat) : (placeObject t typeId size).Respects Session.Retold := by
  rw [placeObject]
  split
  · refine respects_ask (fun _ _ => rfl) ?_
    intro s
    refine respects_bind (respects_ofAttempt _) ?_
    intro placed
    refine respects_bind (respects_setShared _) ?_
    intro _
    exact respects_pure _
  · refine respects_bind (respects_openTx t _) ?_
    intro tx
    refine respects_bind (respects_ofAttempt _) ?_
    intro _
    refine respects_bind (respects_ofAttempt _) ?_
    intro placed
    refine respects_bind (respects_setTx t _) ?_
    intro _
    exact respects_pure _

theorem respects_create (t typeId : Nat) : (create t typeId).Respects Session.Retold := by
  refine respects_bind (respects_handle t) ?_
  intro h
  refine respects_ask (fun _ _ => rfl) ?_
  intro s
  refine respects_bind (respects_ofAttempt _) ?_
  intro size
  refine respects_bind (respects_placeObject t typeId size) ?_
  intro obj
  refine respects_bind (respects_note _) ?_
  intro _
  exact respects_pure _

theorem respects_makeCopy (t obj : Nat) (tx : Transaction) : (makeCopy t obj tx).Respects Session.Retold := by
  refine respects_ask (fun _ _ => rfl) ?_
  intro s
  refine respects_bind (respects_ofAttempt _) ?_
  intro header
  refine respects_bind respects_demand ?_
  intro _
  refine respects_bind (respects_ofAttempt _) ?_
  intro size
  refine respects_bind (respects_ofAttempt _) ?_
  intro taken
  refine respects_bind (respects_setTx t _) ?_
  intro _
  refine respects_bind (respects_ofAttempt _) ?_
  intro bytes
  refine respects_bind (respects_ofAttempt _) ?_
  intro copied
  refine respects_bind (respects_ofAttempt _) ?_
  intro headed
  refine respects_bind (respects_ofAttempt _) ?_
  intro objects
  refine respects_bind (respects_setTx t _) ?_
  intro _
  refine respects_bind (respects_ofAttempt _) ?_
  intro marked
  refine respects_bind (respects_setShared _) ?_
  intro _
  refine respects_bind (respects_count _) ?_
  intro _
  refine respects_bind (respects_note _) ?_
  intro _
  exact respects_pure _

theorem respects_copyOnWrite (t obj : Nat) : (copyOnWrite t obj).Respects Session.Retold := by
  refine respects_bind (respects_handle t) ?_
  intro h
  split
  · exact respects_pure _
  · refine respects_ask (fun _ _ => rfl) ?_
    intro s
    refine respects_bind (respects_ofAttempt _) ?_
    intro location
    cases location with
    | nursery => exact respects_pure _
    | shared =>
      refine respects_bind (respects_openTx t _) ?_
      intro tx
      refine respects_bind (respects_ofAttempt _) ?_
      intro _
      split
      · exact respects_pure _
      · exact respects_makeCopy t obj tx

theorem respects_writeShared (obj offset value : Nat) : (writeShared obj offset value).Respects Session.Retold := by
  refine respects_ask (fun _ _ => rfl) ?_
  intro s
  refine respects_bind (respects_ofAttempt _) ?_
  intro addr
  refine respects_bind (respects_ofAttempt _) ?_
  intro shared
  exact respects_setShared shared

theorem respects_writePrivate (t obj offset value : Nat) : (writePrivate t obj offset value).Respects Session.Retold := by
  refine respects_bind (respects_openTx t _) ?_
  intro tx
  refine respects_ask (fun _ _ => rfl) ?_
  intro s
  refine respects_bind (respects_ofAttempt _) ?_
  intro addr
  refine respects_bind (respects_ofAttempt _) ?_
  intro _
  refine respects_bind (respects_ofAttempt _) ?_
  intro nursery
  exact respects_setTx t _

theorem respects_writeWord (t obj offset value : Nat) : (writeWord t obj offset value).Respects Session.Retold := by
  refine respects_bind (respects_query t _) ?_
  intro location
  cases location with
  | nursery => exact respects_writePrivate t obj offset value
  | shared =>
    dsimp only
    split
    · exact respects_writeShared obj offset value
    · refine respects_bind (respects_note _) ?_
      intro _
      exact respects_throw _

theorem respects_freshToken (t obj : Nat) (tx : Transaction) : (freshToken t obj tx).Respects Session.Retold := by
  rw [freshToken]
  split
  · exact respects_pure _
  · refine respects_ask (fun _ _ => rfl) ?_
    intro s
    refine respects_bind (respects_change fun _ journal => ⟨journal, rfl⟩) ?_
    intro _
    refine respects_bind (respects_ofAttempt _) ?_
    intro token
    refine respects_bind (respects_setTx t _) ?_
    intro _
    refine respects_bind (respects_note _) ?_
    intro _
    exact respects_pure _

theorem respects_tokenOf (t obj : Nat) : (tokenOf t obj).Respects Session.Retold := by
  refine respects_bind (respects_query t _) ?_
  intro location
  cases location with
  | shared =>
    refine respects_ask (fun _ _ => rfl) ?_
    intro s
    exact respects_pure _
  | nursery =>
    refine respects_bind (respects_openTx t _) ?_
    intro tx
    refine respects_bind (respects_ofAttempt _) ?_
    intro header
    split
    · refine respects_ask (fun _ _ => rfl) ?_
      intro s
      exact respects_pure _
    · exact respects_freshToken t obj tx

theorem respects_quietly {call : Action Unit} (h : call.Respects Session.Retold) : (quietly call).Respects Session.Retold :=
  respects_bind h fun _ => respects_pure _

/-- No call reads the journal. -/
theorem respects_action (c : Command) : c.action.Respects Session.Retold := by
  cases c with
  | attachMain => exact respects_map respects_attachMain
  | attachWorker => exact respects_map respects_attachWorker
  | detach t => exact respects_quietly (respects_detach t)
  | start t => exact respects_quietly (respects_start t)
  | abort t => exact respects_quietly (respects_abort t)
  | prepare t => exact respects_map (respects_prepare t)
  | apply t => exact respects_quietly (respects_apply t)
  | finish t => exact respects_map (respects_finish t)
  | commit t => exact respects_map (respects_commit t)
  | bump t size => exact respects_map (respects_bump t size)
  | create t typeId => exact respects_map (respects_create t typeId)
  | copyOnWrite t obj => exact respects_map (respects_copyOnWrite t obj)
  | read t obj offset => exact respects_map (respects_query t _)
  | write t obj offset value => exact respects_quietly (respects_writeWord t obj offset value)
  | header t obj => exact respects_map (respects_query t _)
  | canonical t obj => exact respects_map (respects_query t _)
  | token t obj => exact respects_map (respects_tokenOf t obj)
  | setEvents _ | clearEvents => exact respects_quietly (respects_change fun _ journal => ⟨journal, rfl⟩)
  | configureLog _ => exact respects_quietly (respects_change fun _ journal => ⟨journal, rfl⟩)

section

variable {s s' : Session}

theorem step_retold (same : s.Retold s') (c : Command) :
    (s'.step c).1 = (s.step c).1 ∧ (s.step c).2.Retold (s'.step c).2 := by
  rw [Session.step, Session.step, Session.perform, Session.perform]
  obtain ⟨r, _, t, t', hx, hy, rfl, same⟩ | ⟨f, t, t', hx, hy, same⟩ := (respects_action c s s' same).cases
  · rw [hx, hy]
    exact ⟨rfl, same⟩
  · rw [hx, hy]
    exact ⟨rfl, same⟩

/-- Sessions that differ in their journals only answer a whole run alike. -/
theorem run_retold (same : s.Retold s') (cs : List Command) :
    (s'.run cs).1 = (s.run cs).1 ∧ (s.run cs).2.Retold (s'.run cs).2 := by
  induction cs generalizing s s' with
  | nil => exact ⟨rfl, same⟩
  | cons c cs ih =>
    obtain ⟨outcome, after⟩ := step_retold same c
    obtain ⟨outcomes, last⟩ := ih after
    refine ⟨?_, last⟩
    show (s'.step c).1 :: ((s'.step c).2.run cs).1 = (s.step c).1 :: ((s.step c).2.run cs).1
    rw [outcome, outcomes]

end

/-! ## Asking first and acting last -/

namespace Step

variable {σ α β κ : Type} {view : σ → κ}

def Answers (x : Step σ α) : Prop := x.Meets (.failing fun _ => False)

/-- Where the step fails, what is seen of the state is what was seen before. -/
def Atomic (view : σ → κ) (x : Step σ α) : Prop := ∀ s, Ends x s (fun _ _ => True) fun _ t => view t = view s

theorem answers_modify (f : σ → σ) : (modify f : Step σ Unit).Answers := meets_modify fun _ => trivial

theorem Answers.atomic {x : Step σ α} (h : x.Answers) : x.Atomic view :=
  fun s => (h s).mono (fun _ _ _ => trivial) fun _ _ failed => failed.2.elim

theorem atomic_of_unchanged {x : Step σ α} (h : x.Meets (.unchanged view)) : x.Atomic view :=
  fun s => (h.ends s).mono (fun _ _ _ => trivial) fun _ _ same => same

/-- As long as nothing has changed, the next step may be the first to change something. -/
theorem atomic_bind {x : Step σ α} {f : α → Step σ β} (hx : x.Meets (.unchanged view)) (hf : ∀ a, (f a).Atomic view) :
    (x >>= f).Atomic view := by
  intro s
  rw [ends_bind]
  refine (hx.ends s).mono ?_ fun _ _ same => same
  intro a t same
  exact (hf a t).mono (fun _ _ _ => trivial) fun _ _ last => last.trans same

theorem atomic_ofAttempt_bind {x : Attempt α} {f : α → Step σ β} (hf : ∀ a, (f a).Atomic view) :
    (ofAttempt x >>= f).Atomic view :=
  atomic_bind (meets_ofAttempt fun _ _ _ => trivial) hf

/-- What always answers may follow what has changed something. -/
theorem Atomic.then {x : Step σ α} {f : α → Step σ β} (hx : x.Atomic view) (hf : ∀ a, (f a).Answers) :
    (x >>= f).Atomic view := by
  intro s
  rw [ends_bind]
  refine (hx s).mono ?_ fun _ _ same => same
  intro a t _
  exact (hf a t).mono (fun _ _ _ => trivial) fun _ _ failed => failed.2.elim

theorem atomic_map {x : Step σ α} {f : α → β} (hx : x.Atomic view) : (f <$> x).Atomic view := by
  intro s
  rw [ends_map]
  exact hx s

end Step

def Session.bare (s : Session) : Session := s.retell #[]

theorem Session.Retold.of_bare {s s' : Session} (same : s'.bare = s.bare) : s.Retold s' :=
  ⟨s'.journal, congrArg (·.retell s'.journal) same⟩

theorem asks_bare : (Guarantee.unchanged Session.bare).AllowsFailures := Guarantee.allowsFailures_unchanged

theorem atomic_quietly {call : Action Unit} (h : call.Atomic Session.bare) : (quietly call).Atomic Session.bare := by
  intro s
  rw [ends_quietly]
  exact h s

theorem atomic_start (t : Nat) : (start t).Atomic Session.bare := by
  refine atomic_bind (meets_handle asks_bare) ?_
  intro h
  refine atomic_ofAttempt_bind ?_
  intro _
  refine atomic_ofAttempt_bind ?_
  intro _
  refine atomic_bind meets_get ?_
  intro s
  refine atomic_ofAttempt_bind ?_
  intro nursery
  -- from here on nothing fails
  refine Answers.atomic (meets_bind (answers_modify _) ?_)
  intro _
  refine meets_bind (answers_modify _) ?_
  intro _
  refine meets_bind (answers_modify _) ?_
  intro _
  exact answers_modify _

theorem atomic_bump (t size : Nat) : (bump t size).Atomic Session.bare := by
  refine atomic_bind (meets_handle asks_bare) ?_
  intro h
  split
  · refine atomic_bind meets_get ?_
    intro s
    refine atomic_ofAttempt_bind ?_
    intro taken
    exact Answers.atomic (meets_bind (answers_modify _) fun _ => meets_pure _)
  · refine atomic_bind (meets_openTx asks_bare) ?_
    intro tx
    refine atomic_ofAttempt_bind ?_
    intro taken
    exact Answers.atomic (meets_bind (answers_modify _) fun _ => meets_pure _)

theorem atomic_placeObject (t typeId size : Nat) : (placeObject t typeId size).Atomic Session.bare := by
  rw [placeObject]
  split
  · refine atomic_bind meets_get ?_
    intro s
    refine atomic_ofAttempt_bind ?_
    intro placed
    exact Answers.atomic (meets_bind (answers_modify _) fun _ => meets_pure _)
  · refine atomic_bind (meets_openTx asks_bare) ?_
    intro tx
    refine atomic_ofAttempt_bind ?_
    intro _
    refine atomic_ofAttempt_bind ?_
    intro placed
    exact Answers.atomic (meets_bind (answers_modify _) fun _ => meets_pure _)

theorem atomic_create (t typeId : Nat) : (create t typeId).Atomic Session.bare := by
  refine atomic_bind (meets_handle asks_bare) ?_
  intro h
  refine atomic_bind meets_get ?_
  intro s
  refine atomic_ofAttempt_bind ?_
  intro size
  refine (atomic_placeObject t typeId size).then ?_
  intro obj
  exact meets_bind (answers_modify _) fun _ => meets_pure _

theorem atomic_writeWord (t obj offset value : Nat) : (writeWord t obj offset value).Atomic Session.bare := by
  refine atomic_bind (meets_locate asks_bare) ?_
  intro location
  cases location with
  | nursery =>
    refine atomic_bind (meets_openTx asks_bare) ?_
    intro tx
    refine atomic_bind meets_get ?_
    intro s
    refine atomic_ofAttempt_bind ?_
    intro addr
    refine atomic_ofAttempt_bind ?_
    intro _
    refine atomic_ofAttempt_bind ?_
    intro nursery
    exact (answers_modify _).atomic
  | shared =>
    dsimp only
    split
    · refine atomic_bind meets_get ?_
      intro s
      refine atomic_ofAttempt_bind ?_
      intro addr
      refine atomic_ofAttempt_bind ?_
      intro shared
      exact (answers_modify _).atomic
    · -- the refusal is noted first
      refine atomic_bind (meets_modify fun _ => rfl) ?_
      intro _
      exact atomic_of_unchanged (meets_throw fun _ => trivial)

/-- A fresh object has a token, as long as there is one left. -/
theorem ends_freshToken {s : Session} (room : s.heap.nextToken < nurseryStart) (t obj : Nat) (tx : Transaction) :
    Ends (freshToken t obj tx) s (fun _ _ => True) fun _ _ => False := by
  rw [freshToken]
  split
  · trivial
  · rw [ends_bind, ends_get, Heap.issueToken]
    dsimp only
    rw [if_neg (Nat.not_le.2 room)]
    trivial

section

variable {s s' : Session} {L : Ledger} {c : Command} {t obj : Nat} {f : Failure}

theorem retold_of_failed (failed : s.step c = (.error f, s'))
    (h : Ends c.action s (fun _ _ => True) fun _ t => t.bare = s.bare) : s.Retold s' := by
  rw [Session.step, Session.perform] at failed
  cases hc : c.action s with
  | ok r s₁ =>
    rw [hc] at failed
    cases failed
  | error f₁ s₁ =>
    rw [hc] at failed
    cases failed
    exact .of_bare (h.of_error hc)

theorem retold_token (room : s.heap.nextToken < nurseryStart) (failed : s.step (.token t obj) = (.error f, s')) :
    s.Retold s' := by
  refine retold_of_failed failed ?_
  show Ends (Reply.token <$> tokenOf t obj) s _ _
  rw [ends_map]
  refine ends_tokenOf (fun _ => rfl) (fun _ => trivial) ?_
  intro tx _
  exact (ends_freshToken room t obj tx).mono (fun _ _ _ => trivial) fun _ _ never => never.elim

theorem retold_copyOnWrite (kept : Kept s L)
    (named : s.heap.shared.contains obj = true → ∃ r ∈ L.shared, r.addr = obj)
    (failed : s.step (.copyOnWrite t obj) = (.error f, s')) : s.Retold s' := by
  have left := copyFailed_of_step failed
  cases left with
  | unchanged => exact .refl s
  | roomTaken _ _ _ _ header =>
    obtain ⟨above, below⟩ := (Arena.header_eq_ok.1 header).1
    have inside : s.heap.shared.contains obj = true :=
      Arena.contains_iff.2 ⟨above, Nat.lt_of_lt_of_le (Nat.lt_add_of_pos_right (by decide)) below⟩
    obtain ⟨r, hr, rfl⟩ := named inside
    rw [(copyFailed_of_step failed).of_object kept hr]
    exact .refl s

/-- The calls of a mutator: for a transaction, for room or an object, for a copy, a store or a token. -/
def Command.mutates : Command → Bool
  | .start _ | .bump .. | .create .. | .copyOnWrite .. | .write .. | .token .. => true
  | _ => false

/--
A refused call of a mutator changes nothing but the journal, and all calls after it are answered
as if it had not been made. An object it names is a shared object if it lies in the shared heap,
and there is a token left if it asks for one.
-/
theorem refused_calls_leave_no_trace (life : Lived careful s L) (call : c.mutates = true)
    (named : ∀ x ∈ c.object?, s.heap.shared.contains x.2 = true → ∃ r ∈ L.shared, r.addr = x.2)
    (tokens : c.asksToken = true → s.heap.nextToken < nurseryStart) (refused : s.step c = (.error f, s')) :
    s.Retold s' ∧ ∀ cs, (s'.run cs).1 = (s.run cs).1 ∧ (s.run cs).2.Retold (s'.run cs).2 := by
  have same : s.Retold s' := by
    cases c with
    | start t => exact retold_of_failed refused (atomic_quietly (atomic_start t) s)
    | bump t size => exact retold_of_failed refused (atomic_map (atomic_bump t size) s)
    | create t typeId => exact retold_of_failed refused (atomic_map (atomic_create t typeId) s)
    | write t obj offset value => exact retold_of_failed refused (atomic_quietly (atomic_writeWord t obj offset value) s)
    | copyOnWrite t obj => exact retold_copyOnWrite life.kept (named (t, obj) rfl) refused
    | token t obj => exact retold_token (tokens rfl) refused
    | _ => cases call
  exact ⟨same, run_retold same⟩

end

/-- A worker has room for 36 bytes in its nursery, less than for a node. -/
def squeezed : List Command := [.attachMain, .create mainThread 0, .attachWorker, .start 1, .bump 1 65500]

/-- Calls that are refused there, each for another cause. -/
def declined : List Command :=
  [.start 1, .start mainThread, .bump 1 65536, .create 1 0, .create 1 9, .copyOnWrite 1 sharedStart,
    .write 1 sharedStart 0 7, .token 1 8, .bump 2 1]

theorem refused_calls_leave_no_trace_squeezed : declined.Forall fun c => ∃ f s',
    (Session.ofNodes.run squeezed).2.step c = (.error f, s') ∧ (Session.ofNodes.run squeezed).2.Retold s' ∧
      (s'.run [.bump 1 36, .read 1 sharedStart 0]).1 = [.ok (.address (nurseryStart + 65500)), .ok (.word 0)] := by
  have life : Lived careful (Session.ofNodes.run squeezed).2 (Ledger.empty.along .ofNodes squeezed) :=
    .ofNodes (by decide +kernel)
  have asked : ∀ c ∈ declined, c.mutates = true ∧
      (∀ x ∈ c.object?, (Session.ofNodes.run squeezed).2.heap.shared.contains x.2 = true →
        ∃ r ∈ (Ledger.empty.along .ofNodes squeezed).shared, r.addr = x.2) ∧
      (c.asksToken = true → (Session.ofNodes.run squeezed).2.heap.nextToken < nurseryStart) ∧
      ((Session.ofNodes.run squeezed).2.step c).1.isOk = false := by
    decide +kernel
  refine List.forall_iff_forall_mem.2 ?_
  intro c hc
  obtain ⟨call, named, tokens, declines⟩ := asked c hc
  cases refused : (Session.ofNodes.run squeezed).2.step c with
  | mk outcome s' =>
    cases outcome with
    | ok reply =>
      rw [refused] at declines
      cases declines
    | error f =>
      obtain ⟨same, later⟩ := refused_calls_leave_no_trace life call named tokens refused
      refine ⟨f, s', rfl, same, ?_⟩
      rw [(later _).1]
      decide +kernel

end TxHeap

/-
  TxHeap.Proofs.Phases — the way of a transaction through its phases.

  Six calls stand at the boundaries of a transaction. Each is made for one phase and refused
  in the others, with nothing changed (`step_of_objection`); whatever is called, by whomever,
  the phase of each thread goes along one of the arrows of `Phase.Arrow` (`arrow_step`).

  So what a thread achieves in a run, its milestones, comes in one order only
  (`course_milestones`, a commit counted as the steps it takes): roots are applied right after
  the prepare that followed the start, and nothing but the end comes after them.
-/
import TxHeap.Proofs.Calls
import TxHeap.Proofs.Commits
import TxHeap.Proofs.Seats

namespace TxHeap

def Session.phase? (s : Session) (t : Nat) : Option Phase := (s.tx? t).map (·.phase)

/-- The thread whose transaction a call starts, takes further or gives up. -/
def Command.boundary? : Command → Option Nat
  | .start t | .prepare t | .apply t | .finish t | .commit t | .abort t => some t
  | _ => none

/-- Why a call that is made for one phase is refused in another. -/
def Phase.objection (operation : String) (expected : Phase) : Option Phase → Option Refusal
  | none => some (.noTransaction operation)
  | some p => if p = expected then none else some (.violation (.wrongPhase operation p expected))

/-- Why a call at a boundary is refused at the door, given the phase of its thread; none where it is let in. -/
def Command.objection : Command → Option Phase → Option Refusal
  | .start t, p =>
    if t = mainThread then some (.violation .mainTransaction)
    else if p.isSome then some (.alreadyActive t)
    else none
  | .prepare _, p => Phase.objection "prepare_commit" .active p
  | .apply _, p => Phase.objection "apply_roots" .prepared p
  | .finish _, p => Phase.objection "end_transaction" .applied p
  | .commit _, none => some (.noTransaction "commit")
  | .commit _, some p => Phase.objection "prepare_commit" .active (some p)
  | .abort _, none => some (.noTransaction "abort")
  | .abort _, some p => if p = .applied then some (.violation .rootsAlreadyApplied) else none
  | _, _ => none

/-- How a call that ends so may move the phase of thread `t`. -/
inductive Phase.Arrow (t : Nat) : Command → Outcome → Option Phase → Option Phase → Prop
  | started {r : Reply} : t ≠ mainThread → Arrow t (.start t) (.ok r) none (some .active)
  /-- There was no window for a nursery. -/
  | unstarted {cause : Refusal} : Arrow t (.start t) (.error (.refused cause)) none none
  | prepared {r : Reply} : Arrow t (.prepare t) (.ok r) (some .active) (some .prepared)
  | prepareFailed {cause : Refusal} : Arrow t (.prepare t) (.error (.refused cause)) (some .active) (some .failed)
  | applied {r : Reply} : Arrow t (.apply t) (.ok r) (some .prepared) (some .applied)
  | applyFailed {cause : Refusal} : Arrow t (.apply t) (.error (.refused cause)) (some .prepared) (some .failed)
  | finished {r : Reply} : Arrow t (.finish t) (.ok r) (some .applied) none
  | aborted {r : Reply} {p : Phase} : p ≠ .applied → Arrow t (.abort t) (.ok r) (some p) none
  | committed {r : Reply} : Arrow t (.commit t) (.ok r) (some .active) none
  | commitFailed {cause : Refusal} : Arrow t (.commit t) (.error (.refused cause)) (some .active) (some .failed)
  | detached {r : Reply} {p : Option Phase} : Arrow t (.detach t) (.ok r) p none
  /-- The arithmetic of a step left the range of words; this is no refusal, and the step counts as not taken. -/
  | cut {c : Command} {f : Failure} {p : Phase} : c = .prepare t ∧ p = .active ∨ c = .apply t ∧ p = .prepared →
      (∀ cause, f ≠ .refused cause) → Arrow t c (.error f) (some p) (some p)
  /-- So in a commit, before or after its prepare. -/
  | commitCut {f : Failure} {p : Phase} : p = .active ∨ p = .prepared → (∀ cause, f ≠ .refused cause) →
      Arrow t (.commit t) (.error f) (some .active) (some p)
  /-- A call out of place. -/
  | refused {c : Command} {p : Option Phase} {cause : Refusal} : c.boundary? = some t → c.objection p = some cause →
      Arrow t c (.error (.refused cause)) p p
  /-- Nobody of this number is attached. -/
  | away {c : Command} : Arrow t c (.error (.detached t)) none none
  /-- A call of another thread, or one away from the boundaries. -/
  | elsewhere {c : Command} {o : Outcome} {p : Option Phase} : c.boundary? ≠ some t → c ≠ .detach t → Arrow t c o p p

open Step TxHeap.Action

section

variable {s s' : Session} {c : Command} {o : Outcome} {t t' : Nat} {tx x : Transaction} {h : Handle} {cause : Refusal}

/-! ## Phases of a session -/

theorem Session.Agrees.phase? (agrees : s.Agrees s') (t : Nat) : s'.phase? t = s.phase? t := by
  rw [Session.phase?, Session.phase?, agrees.tx?]

theorem phase?_of_tx? (htx : s.tx? t = some tx) : s.phase? t = some tx.phase := by
  rw [Session.phase?, htx, Option.map_some]

theorem phase?_eq_some {p : Phase} (hp : s.phase? t = some p) : ∃ tx, s.tx? t = some tx ∧ tx.phase = p :=
  Option.map_eq_some_iff.1 hp

theorem phase?_setTx_self (hh : (s.handle? t).isSome = true) (tx : Option Transaction) :
    (s.setTx t tx).phase? t = tx.map (·.phase) := by
  rw [Session.phase?, Session.tx?_setTx_self hh]

theorem phase?_setTx_of_ne (ne : t ≠ t') (tx : Option Transaction) : (s.setTx t' tx).phase? t = s.phase? t := by
  rw [Session.phase?, Session.tx?_setTx_of_ne ne, Session.phase?]

/-- A transaction replaced by one in the same phase. -/
theorem phase?_setTx_same (htx : s.tx? t' = some tx) (same : x.phase = tx.phase) (t : Nat) :
    (s.setTx t' (some x)).phase? t = s.phase? t := by
  by_cases e : t = t'
  · subst e
    rw [phase?_setTx_self (Session.handle?_isSome_of_tx? htx), phase?_of_tx? htx, Option.map_some, same]
  · exact phase?_setTx_of_ne e _

theorem phase?_setShared (s : Session) (shared : Arena) (t : Nat) : (s.setShared shared).phase? t = s.phase? t := rfl

/-- Away from its own boundaries the phase of a thread stays. -/
theorem Effect.phase? (e : Effect s c o s') (hc : c.boundary? ≠ some t) (hd : c ≠ .detach t) :
    s'.phase? t = s.phase? t := by
  have other : ∀ {t'}, some t' ≠ some t → t ≠ t' := fun ne e => ne (congrArg some e.symm)
  cases e with
  | refused _ _ agrees | answered _ agrees | exhausted _ agrees | bumpedShared _ agrees | createdShared _ _ agrees
  | uncopied agrees | recopied _ _ _ _ _ _ agrees | wroteShared _ _ _ agrees =>
    exact agrees.phase? t
  | attached _ agrees =>
    rw [agrees.phase?]
    show Option.map _ (Session.tx? _ t) = _
    rw [Session.withHandles, Session.tx?_attach, Session.phase?]
  | @detached t' _ agrees =>
    have ne : t ≠ t' := fun e => hd (by rw [e])
    rw [agrees.phase?]
    show Option.map _ (Session.tx? _ t) = _
    rw [Session.withHandles, Session.tx?_detach_of_ne _ _ ne, Session.phase?]
  | bumped _ htx _ agrees | created _ htx _ _ _ agrees | stranded _ htx _ _ agrees | wrote htx _ _ _ _ agrees =>
    rw [agrees.phase?]
    refine phase?_setTx_same htx ?_ t
    rfl
  | tokenIssued htx _ _ agrees =>
    rw [agrees.phase?]
    refine phase?_setTx_same (s := s.advance) htx ?_ t
    rfl
  | copied _ htx _ _ _ _ _ _ _ _ _ agrees =>
    rw [agrees.phase?, phase?_setShared]
    refine phase?_setTx_same htx ?_ t
    rfl
  | started _ _ _ _ agrees | aborted _ _ agrees | finished _ _ agrees =>
    exact (agrees.phase? t).trans (phase?_setTx_of_ne (other hc) _)
  | @prepared t' _ _ p _ _ _ _ agrees | @prepareFailed t' _ _ p _ _ _ _ agrees
  | @prepareStopped t' _ _ p _ _ _ _ _ agrees =>
    exact (agrees.phase? t).trans (phase?_setTx_of_ne (s := s) (other hc) _)
  | @applied t' _ shared _ _ _ _ agrees =>
    exact (agrees.phase? t).trans (phase?_setTx_of_ne (s := s.setShared shared) (other hc) _)
  | applyStopped _ _ _ _ _ _ _ hsame => rw [Session.phase?, hsame, if_neg (other hc), Session.phase?]

/-! ## Calls out of place -/

theorem phase?_of_handle? (hh : s.handle? t = some h) : s.phase? t = h.tx.map (·.phase) := by
  rw [Session.phase?, Session.tx?_of_handle? hh]

section

variable {operation : String} {bad : Failure → Session → Prop}

theorem ends_handle_of {ok : Handle → Session → Prop} (hh : s.handle? t = some h) :
    Ends (handle t) s ok bad ↔ ok h s := by
  rw [ends_handle, hh]
  simp

theorem ends_openTx_of {ok : Transaction → Session → Prop} (htx : s.tx? t = some tx) :
    Ends (openTx t operation) s ok bad ↔ ok tx s := by
  unfold Ends
  rw [openTx_of_tx? htx]

theorem ends_openTx_of_handle {ok : Transaction → Session → Prop} (hh : s.handle? t = some h) :
    Ends (openTx t operation) s ok bad ↔
      (∀ tx, h.tx = some tx → ok tx s) ∧ (h.tx = none → bad (.refused (.noTransaction operation)) s) := by
  rw [openTx, ends_bind, ends_handle_of hh]
  cases h.tx with
  | none => exact ⟨fun ends => ⟨by simp, fun _ => ends⟩, fun ends => ends.2 rfl⟩
  | some tx =>
    refine ⟨fun ends => ⟨fun tx' e => ?_, by simp⟩, fun ends => ends.1 tx rfl⟩
    cases e
    exact ends

end

def Refused {α : Type} (call : Action α) (s : Session) (cause : Refusal) : Prop :=
  Ends call s (fun _ _ => False) fun f s' => f = .refused cause ∧ s' = s

theorem Refused.step (refused : Refused c.action s cause) : s.step c = (.error (.refused cause), s) := by
  rw [Session.step, Session.perform]
  unfold Refused Ends at refused
  cases hc : c.action s with
  | ok r s' =>
    rw [hc] at refused
    exact refused.elim
  | error f s' =>
    rw [hc] at refused
    obtain ⟨rfl, rfl⟩ := refused
    rfl

/-- A call that is made for one phase is refused in another. -/
theorem refused_of_objection {α : Type} {operation : String} {expected : Phase} (call : Transaction → Action α)
    (hh : s.handle? t = some h) (ho : Phase.objection operation expected (s.phase? t) = some cause) :
    Refused (do let tx ← openTx t operation
                ofAttempt (tx.requirePhase operation expected)
                call tx) s cause := by
  rw [Refused, ends_bind, ends_openTx_of_handle hh]
  rw [phase?_of_handle? hh] at ho
  refine ⟨fun tx htx => ?_, fun htx => ?_⟩
  · rw [htx, Option.map_some, Phase.objection] at ho
    rw [ends_bind, ends_ofAttempt]
    split at ho
    · cases ho
    · rename_i wrong
      cases ho
      refine ⟨fun _ right => absurd (requirePhase_eq_ok.1 right) wrong, fun f hf => ⟨?_, rfl⟩⟩
      exact (require_eq_error.1 hf).2
  · rw [htx] at ho
    cases ho
    exact ⟨rfl, rfl⟩

theorem refused_start (hh : s.handle? t = some h) (ho : (Command.start t).objection (s.phase? t) = some cause) :
    Refused (start t) s cause := by
  rw [Command.objection] at ho
  rw [Refused, start, ends_bind, ends_handle_of hh, ends_bind, ends_demand]
  split at ho
  · rename_i main
    cases ho
    exact ⟨fun worker => absurd main worker, fun _ => ⟨rfl, rfl⟩⟩
  · rename_i worker
    refine ⟨fun _ => ?_, fun main => absurd worker main⟩
    rw [ends_bind, ends_demand]
    split at ho
    · rename_i busy
      cases ho
      refine ⟨fun idle => ?_, fun _ => ⟨rfl, rfl⟩⟩
      rw [phase?_of_handle? hh, Option.isSome_map] at busy
      rw [Option.isNone_iff_eq_none.1 idle] at busy
      cases busy
    · cases ho

theorem refused_commit (hh : s.handle? t = some h) (ho : (Command.commit t).objection (s.phase? t) = some cause) :
    Refused (commit t) s cause := by
  rw [Refused, commit, ends_bind, ends_openTx_of_handle hh]
  refine ⟨fun tx htx => ?_, fun htx => ?_⟩
  · have phase : s.phase? t = some tx.phase := by rw [phase?_of_handle? hh, htx, Option.map_some]
    have prepare : Refused (prepare t) s cause := by
      refine refused_of_objection _ hh ?_
      rw [phase] at ho ⊢
      exact ho
    rw [ends_bind]
    exact prepare.mono (fun _ _ none => none.elim) fun _ _ refused => refused
  · rw [phase?_of_handle? hh, htx] at ho
    cases ho
    exact ⟨rfl, rfl⟩

theorem refused_abort (hh : s.handle? t = some h) (ho : (Command.abort t).objection (s.phase? t) = some cause) :
    Refused (abort t) s cause := by
  rw [Refused, abort, ends_bind, ends_openTx_of_handle hh]
  rw [phase?_of_handle? hh] at ho
  refine ⟨fun tx htx => ?_, fun htx => ?_⟩
  · rw [htx, Option.map_some, Command.objection] at ho
    rw [ends_bind, ends_demand]
    split at ho
    · rename_i applied
      cases ho
      exact ⟨fun other => absurd applied other, fun _ => ⟨rfl, rfl⟩⟩
    · cases ho
  · rw [htx] at ho
    cases ho
    exact ⟨rfl, rfl⟩

theorem Refused.map {α β : Type} {call : Action α} {reply : α → β} (h : Refused call s cause) :
    Refused (reply <$> call) s cause := by
  rw [Refused, ends_map]
  exact h

theorem Refused.quietly {call : Action Unit} (h : Refused call s cause) : Refused (Action.quietly call) s cause := by
  rw [Refused, ends_quietly]
  exact h

/-- A call at a boundary that is out of place is refused, and nothing at all changes. -/
theorem step_of_objection (hh : s.handle? t = some h) (hc : c.boundary? = some t)
    (ho : c.objection (s.phase? t) = some cause) : s.step c = (.error (.refused cause), s) := by
  refine Refused.step ?_
  cases c with
  | start => cases hc; exact (refused_start hh ho).quietly
  | prepare => cases hc; exact (refused_of_objection _ hh ho).map
  | apply => cases hc; exact (refused_of_objection _ hh ho).quietly
  | finish => cases hc; exact (refused_of_objection _ hh ho).map
  | commit => cases hc; exact (refused_commit hh ho).map
  | abort => cases hc; exact (refused_abort hh ho).quietly
  | _ => cases hc

/-! ## Calls in place -/

def Command.Goes (c : Command) (s : Session) (t : Nat) : Prop :=
  Phase.Arrow t c (s.step c).1 (s.phase? t) ((s.step c).2.phase? t)

/-- How a call ends says where it goes. -/
theorem goes_of_ends {p : Option Phase} (hp : s.phase? t = p)
    (h : Ends c.action s (fun r s' => Phase.Arrow t c (.ok r) p (s'.phase? t)) fun f s' =>
      Phase.Arrow t c (.error f) p (s'.phase? t)) : c.Goes s t := by
  subst hp
  exact step_of_ends (P := fun o s' => Phase.Arrow t c o (s.phase? t) (s'.phase? t)) h

theorem handle_away (hh : s.handle? t = none) : handle t s = .error (.detached t) s := by
  simp [Action.handle, hh]

theorem openTx_away (hh : s.handle? t = none) (operation : String) : openTx t operation s = .error (.detached t) s := by
  rw [openTx, bind_apply, handle_away hh]

/-- A call for a thread that is not attached. -/
theorem step_away (hh : s.handle? t = none) (hc : c.boundary? = some t ∨ c = .detach t) :
    s.step c = (.error (.detached t), s) := by
  rcases hc with hc | rfl
  · cases c with
    | start =>
      cases hc
      rw [step_quietly rfl]
      simp only [start, bind_apply, handle_away hh]
    | prepare =>
      cases hc
      rw [step_map rfl]
      simp only [Action.prepare, bind_apply, openTx_away hh]
    | apply =>
      cases hc
      rw [step_quietly rfl]
      simp only [Action.apply, bind_apply, openTx_away hh]
    | finish =>
      cases hc
      rw [step_map rfl]
      simp only [Action.finish, bind_apply, openTx_away hh]
    | commit =>
      cases hc
      rw [step_map rfl]
      simp only [Action.commit, bind_apply, openTx_away hh]
    | abort =>
      cases hc
      rw [step_quietly rfl]
      simp only [Action.abort, bind_apply, openTx_away hh]
    | _ => cases hc
  · rw [step_quietly rfl]
    simp only [Action.detach, bind_apply, handle_away hh]

/-- An idle worker opens a transaction where there is a nursery for him. -/
theorem ends_start_idle {ok : Unit → Session → Prop} {bad : Failure → Session → Prop} (hh : s.handle? t = some h)
    (worker : t ≠ mainThread) (idle : h.tx = none)
    (opened : ∀ nursery s', s.heap.newNursery t = .ok nursery → (s.setTx t (some (.fresh nursery))).Agrees s' → ok () s')
    (full : ∀ f, s.heap.newNursery t = .error f → bad f s) : Ends (start t) s ok bad := by
  rw [start, ends_bind, ends_handle_of hh, ends_bind, ends_demand]
  refine ⟨fun _ => ?_, fun main => absurd worker main⟩
  rw [ends_bind, ends_demand]
  refine ⟨fun _ => ?_, fun busy => absurd (by rw [idle]; rfl) busy⟩
  rw [ends_bind, ends_get, ends_bind, ends_ofAttempt]
  refine ⟨fun nursery made => ?_, full⟩
  exact opened nursery _ made ((((Session.Agrees.refl _).count .recordStart).emit (.started t)).note (.started t))

theorem goes_start (hh : s.handle? t = some h) (ho : (Command.start t).objection (s.phase? t) = none) :
    (Command.start t).Goes s t := by
  have ⟨worker, idle⟩ : t ≠ mainThread ∧ h.tx = none := by
    rw [phase?_of_handle? hh, Command.objection] at ho
    split at ho
    · cases ho
    · rename_i worker
      split at ho
      · cases ho
      · rename_i idle
        exact ⟨worker, by simpa using idle⟩
  have phase : s.phase? t = none := by rw [phase?_of_handle? hh, idle, Option.map_none]
  refine goes_of_ends phase ?_
  show Ends (quietly (start t)) s _ _
  rw [ends_quietly]
  refine ends_start_idle hh worker idle ?_ ?_
  · intro nursery s' _ agrees
    rw [agrees.phase?, phase?_setTx_self (by rw [hh]; rfl)]
    exact .started worker
  · intro f hf
    have refused : (s.heap.newNursery t).FailsWith Failure.IsRefusal := failsWith_newNursery fun cause _ => ⟨cause, rfl⟩
    obtain ⟨cause, rfl⟩ := refused f hf
    rw [phase]
    exact .unstarted

theorem phase?_adopt (htx : s.tx? t = some tx) (p : Preparation) (settle : Transaction → Transaction) :
    (s.adopt t p settle).phase? t = some (settle p.tx).phase :=
  phase?_setTx_self (s := s) (Session.handle?_isSome_of_tx? htx) (some (settle p.tx))

theorem Prepare.phase_covers (layout : Layout) : Covers layout (.unchanged fun p => p.tx.phase) where
  room := ⟨fun same => same.phase, fun _ => trivial⟩
  unsized _ := trivial
  full _ := trivial
  taken _ _ same := same.phase
  made _ _ _ _ same := same.phase

theorem Prepare.phase_run (layout : Layout) (thread : Nat) : (run layout thread).Meets (.unchanged fun p => p.tx.phase) :=
  (phase_covers layout).run (fun _ => rfl) thread

theorem goes_prepare (htx : s.tx? t = some tx) (active : tx.phase = .active) : (Command.prepare t).Goes s t := by
  rw [Command.Goes, phase?_of_tx? htx, active]
  have known : ∀ {tx'}, s.tx? t = some tx' → tx' = tx := fun htx' => Option.some.inj (htx'.symm.trans htx)
  have e : Effect s (.prepare t) (s.step (.prepare t)).1 (s.step (.prepare t)).2 := step_effect nofun
  generalize (s.step (.prepare t)).1 = o at e ⊢
  generalize (s.step (.prepare t)).2 = s' at e ⊢
  cases e with
  | refused hno => exact absurd ⟨t, tx, rfl, htx, active⟩ hno
  | answered asks => exact asks.elim
  | attached hc => rcases hc with hc | hc <;> cases hc
  | prepared htx' _ _ agrees =>
    rw [agrees.phase?, phase?_adopt htx']
    exact .prepared
  | prepareFailed htx' _ _ agrees =>
    rw [agrees.phase?, phase?_adopt htx']
    exact .prepareFailed
  | @prepareStopped _ _ _ p _ htx' active' cut hrun agrees =>
    have same : p.tx.phase = .active := ((Prepare.phase_run _ _ _).of_error hrun).1.trans active'
    rw [agrees.phase?, phase?_adopt htx', id, same]
    exact .cut (.inl ⟨rfl, rfl⟩) cut

theorem goes_apply (htx : s.tx? t = some tx) (prepared : tx.phase = .prepared) : (Command.apply t).Goes s t := by
  have attached (shared : Arena) : ((s.setShared shared).handle? t).isSome = true := Session.handle?_isSome_of_tx? htx
  refine goes_of_ends (p := some .prepared) (by rw [phase?_of_tx? htx, prepared]) ?_
  show Ends (quietly (Action.apply t)) s _ _
  rw [ends_quietly, Action.apply, ends_bind, ends_openTx_of htx, ends_bind]
  refine ends_ofAttempt_ok (a := ()) (requirePhase_eq_ok.2 prepared) ?_
  unfold Ends runOverwrite
  cases overwriteAll s.heap.layout tx tx.objects.pairs s.heap.shared with
  | ok _ shared =>
    show Phase.Arrow t _ _ _ (((s.setShared shared).setTx t _).phase? t)
    rw [phase?_setTx_self (attached shared)]
    exact .applied
  | error f shared =>
    cases f with
    | refused cause =>
      show Phase.Arrow t _ _ _ (((s.setShared shared).setTx t _).phase? t)
      rw [phase?_setTx_self (attached shared)]
      exact .applyFailed
    | overflow | fatal | detached =>
      show Phase.Arrow t _ _ _ (s.phase? t)
      rw [phase?_of_tx? htx, prepared]
      exact .cut (.inr ⟨rfl, rfl⟩) (by simp)

theorem goes_finish (htx : s.tx? t = some tx) (applied : tx.phase = .applied) : (Command.finish t).Goes s t := by
  obtain ⟨s', hf, agrees⟩ := step_finish htx applied
  rw [Command.Goes, hf, phase?_of_tx? htx, applied]
  rw [agrees.phase?, phase?_setTx_self (Session.handle?_isSome_of_tx? htx)]
  exact .finished

theorem goes_abort (htx : s.tx? t = some tx) (open' : tx.phase ≠ .applied) : (Command.abort t).Goes s t := by
  refine goes_of_ends (phase?_of_tx? htx) ?_
  show Ends (quietly (abort t)) s _ _
  rw [ends_quietly, abort, ends_bind, ends_openTx_of htx, ends_bind, ends_demand]
  refine ⟨fun _ => ?_, fun applied => absurd open' applied⟩
  have agrees : (s.setTx t none).Agrees _ :=
    (((Session.Agrees.refl _).count .recordAbort).emit (.aborted t tx.objects.size)).note (.aborted t tx.objects.size)
  show Phase.Arrow t _ _ _ (Session.phase? _ t)
  rw [agrees.phase?, phase?_setTx_self (Session.handle?_isSome_of_tx? htx)]
  exact .aborted open'

theorem goes_detach (hh : s.handle? t = some h) : (Command.detach t).Goes s t := by
  refine goes_of_ends rfl ?_
  show Ends (quietly (Action.detach t)) s _ _
  rw [ends_quietly, Action.detach, ends_bind, ends_handle_of hh]
  have dropped : Ends (h.tx.forM (dropOpen t)) s (fun _ _ => True) fun _ _ => False := by
    cases h.tx with
    | none => trivial
    | some tx =>
      show Ends (dropOpen t tx) s _ _
      rw [dropOpen]
      split <;> trivial
  rw [ends_bind]
  refine dropped.mono (fun _ s' _ => ?_) fun _ _ none => none.elim
  show Phase.Arrow t _ _ _ (Option.map _ (Session.tx? _ t))
  have gone := Session.tx?_detach_self s' { s'.heap with threads := s'.heap.threads.detach t } t
  have noted : ∀ (s : Session) (n : Notice), (s.note n).tx? t = s.tx? t := fun _ _ => rfl
  rw [noted, gone]
  exact .detached

/-- How the prepare of an active transaction ends. -/
theorem Phase.Arrow.of_prepare {q : Option Phase} (h : Phase.Arrow t (.prepare t) o (some .active) q) :
    (∃ r, o = .ok r ∧ q = some .prepared) ∨
      ∃ f, o = .error f ∧ ((∃ cause, f = .refused cause) ∧ q = some .failed ∨
        (∀ cause, f ≠ .refused cause) ∧ q = some .active) := by
  cases h with
  | prepared => exact .inl ⟨_, rfl, rfl⟩
  | prepareFailed => exact .inr ⟨_, rfl, .inl ⟨⟨_, rfl⟩, rfl⟩⟩
  | cut _ cut => exact .inr ⟨_, rfl, .inr ⟨cut, rfl⟩⟩
  | refused _ ho => cases ho
  | elsewhere hc => exact absurd rfl hc

/-- How the apply of a prepared transaction ends. -/
theorem Phase.Arrow.of_apply {q : Option Phase} (h : Phase.Arrow t (.apply t) o (some .prepared) q) :
    (∃ r, o = .ok r ∧ q = some .applied) ∨
      ∃ f, o = .error f ∧ ((∃ cause, f = .refused cause) ∧ q = some .failed ∨
        (∀ cause, f ≠ .refused cause) ∧ q = some .prepared) := by
  cases h with
  | applied => exact .inl ⟨_, rfl, rfl⟩
  | applyFailed => exact .inr ⟨_, rfl, .inl ⟨⟨_, rfl⟩, rfl⟩⟩
  | cut _ cut => exact .inr ⟨_, rfl, .inr ⟨cut, rfl⟩⟩
  | refused _ ho => cases ho
  | elsewhere hc => exact absurd rfl hc

theorem goes_commit (htx : s.tx? t = some tx) (active : tx.phase = .active) : (Command.commit t).Goes s t := by
  have first := goes_prepare htx active
  rw [Command.Goes, phase?_of_tx? htx, active] at first ⊢
  rw [step_commit_eq htx]
  cases hp : s.step (.prepare t) with
  | mk o₁ s₁ =>
  rw [hp] at first
  rcases first.of_prepare with ⟨r, rfl, prepared⟩ | ⟨f, rfl, ⟨⟨cause, rfl⟩, failed⟩ | ⟨cut, active⟩⟩
  · obtain ⟨tx₁, htx₁, prepared⟩ := phase?_eq_some prepared
    have second := goes_apply htx₁ prepared
    rw [Command.Goes, phase?_of_tx? htx₁, prepared] at second
    dsimp only
    cases ha : s₁.step (.apply t) with
    | mk o₂ s₂ =>
    rw [ha] at second
    rcases second.of_apply with ⟨r, rfl, applied⟩ | ⟨f, rfl, ⟨⟨cause, rfl⟩, failed⟩ | ⟨cut, prepared⟩⟩
    · obtain ⟨tx₂, htx₂, applied⟩ := phase?_eq_some applied
      obtain ⟨s₃, hf, agrees⟩ := step_finish htx₂ applied
      dsimp only
      rw [hf, agrees.phase?, phase?_setTx_self (Session.handle?_isSome_of_tx? htx₂)]
      exact .committed
    · dsimp only at failed ⊢
      rw [failed]
      exact .commitFailed
    · dsimp only at prepared ⊢
      rw [prepared]
      exact .commitCut (.inr rfl) cut
  · dsimp only at failed ⊢
    rw [failed]
    exact .commitFailed
  · dsimp only at active ⊢
    rw [active]
    exact .commitCut (.inl rfl) cut

theorem Phase.objection_eq_none {operation : String} {expected : Phase} {p : Option Phase}
    (h : Phase.objection operation expected p = none) : p = some expected := by
  cases p with
  | none => cases h
  | some p =>
    rw [Phase.objection] at h
    split at h
    · rename_i e
      rw [e]
    · cases h

/-- A boundary call of an attached thread to which there is no objection. -/
theorem goes_of_boundary (hh : s.handle? t = some h) (hc : c.boundary? = some t)
    (ho : c.objection (s.phase? t) = none) : c.Goes s t := by
  cases c with
  | start =>
    cases hc
    exact goes_start hh ho
  | prepare =>
    cases hc
    obtain ⟨tx, htx, active⟩ := phase?_eq_some (Phase.objection_eq_none ho)
    exact goes_prepare htx active
  | apply =>
    cases hc
    obtain ⟨tx, htx, prepared⟩ := phase?_eq_some (Phase.objection_eq_none ho)
    exact goes_apply htx prepared
  | finish =>
    cases hc
    obtain ⟨tx, htx, applied⟩ := phase?_eq_some (Phase.objection_eq_none ho)
    exact goes_finish htx applied
  | commit =>
    cases hc
    cases hp : s.phase? t with
    | none =>
      rw [hp] at ho
      cases ho
    | some p =>
      rw [hp] at ho
      obtain ⟨tx, htx, active⟩ := phase?_eq_some (hp.trans (Phase.objection_eq_none ho))
      exact goes_commit htx active
  | abort =>
    cases hc
    cases hp : s.phase? t with
    | none =>
      rw [hp] at ho
      cases ho
    | some p =>
      obtain ⟨tx, htx, rfl⟩ := phase?_eq_some hp
      rw [hp, Command.objection] at ho
      split at ho
      · cases ho
      · exact goes_abort htx ‹_›
  | _ => cases hc

/-- The calls of a run, with each commit as the steps it takes. -/
def Session.calls (s : Session) : List Command → List Command
  | [] => []
  | c :: cs => s.parts c ++ (s.step c).2.calls cs

theorem run_calls (s : Session) (cs : List Command) : (s.run (s.calls cs)).2 = (s.run cs).2 := by
  induction cs generalizing s with
  | nil => rfl
  | cons c cs ih =>
    rw [Session.calls, run_append, run_parts]
    exact ih _

theorem calls_single (s : Session) (cs : List Command) : ∀ c ∈ s.calls cs, ∀ t, c ≠ .commit t := by
  induction cs generalizing s with
  | nil => exact nofun
  | cons c cs ih =>
    intro c' hc'
    rcases List.mem_append.mp hc' with hc' | hc'
    · exact s.parts_single c c' hc'
    · exact ih _ c' hc'

/-- The steps of a commit. -/
theorem parts_commit (s : Session) (t : Nat) :
    ∀ c ∈ s.parts (.commit t), c = .prepare t ∨ c = .apply t ∨ c = .finish t := by
  rw [Session.parts]
  split
  · split <;> simp
  · simp

/-- The parts of a call that is none of the thread's own are none of its own either. -/
theorem boundary?_parts (hc : c.boundary? ≠ some t) (hd : c ≠ .detach t) :
    ∀ c' ∈ s.parts c, c'.boundary? ≠ some t ∧ c' ≠ .detach t := by
  intro c' hc'
  by_cases hcommit : ∃ t', c = .commit t'
  · obtain ⟨t', rfl⟩ := hcommit
    rcases parts_commit s t' c' hc' with rfl | rfl | rfl <;> exact ⟨hc, nofun⟩
  · rw [parts_of_single hcommit, List.mem_singleton] at hc'
    rw [hc']
    exact ⟨hc, hd⟩

theorem phase?_run_elsewhere {cs : List Command} (single : ∀ c ∈ cs, ∀ t, c ≠ .commit t)
    (h : ∀ c ∈ cs, c.boundary? ≠ some t ∧ c ≠ .detach t) : (s.run cs).2.phase? t = s.phase? t := by
  induction cs generalizing s with
  | nil => rfl
  | cons c cs ih =>
    obtain ⟨hsingle, single⟩ := List.forall_mem_cons.1 single
    obtain ⟨⟨hc, hd⟩, h⟩ := List.forall_mem_cons.1 h
    exact (ih single h).trans ((step_effect (s := s) hsingle).phase? hc hd)

/-- The phase of a thread stays where a call that is none of its own is made. -/
theorem phase?_step_elsewhere (hc : c.boundary? ≠ some t) (hd : c ≠ .detach t) : (s.step c).2.phase? t = s.phase? t := by
  rw [← run_parts]
  exact phase?_run_elsewhere (s.parts_single c) (boundary?_parts hc hd)

/-- Whatever is called, the phase of each thread goes along an arrow. -/
theorem arrow_step (s : Session) (c : Command) (t : Nat) : c.Goes s t := by
  by_cases hc : c.boundary? = some t ∨ c = .detach t
  · cases hh : s.handle? t with
    | none =>
      have none : s.phase? t = none := by rw [Session.phase?, Session.tx?, hh]; rfl
      rw [Command.Goes, step_away hh hc, none]
      exact .away
    | some h =>
      rcases hc with hc | rfl
      · cases ho : c.objection (s.phase? t) with
        | none => exact goes_of_boundary hh hc ho
        | some cause =>
          rw [Command.Goes, step_of_objection hh hc ho]
          exact .refused hc ho
      · exact goes_detach hh
  · have hc' : c.boundary? ≠ some t := fun h => hc (.inl h)
    have hd : c ≠ .detach t := fun h => hc (.inr h)
    rw [Command.Goes, phase?_step_elsewhere hc' hd]
    exact .elsewhere hc' hd

end

end TxHeap

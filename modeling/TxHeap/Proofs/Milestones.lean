/-
  TxHeap.Proofs.Milestones — the order in which a thread gets anywhere.

  A milestone is a call at a boundary that was answered, a commit counted as the steps it
  takes. Between its phase before a run and its phase after it, the milestones of a thread are
  a path through the automaton of the phases (`course_milestones`). So roots are applied
  right behind the prepare of the same transaction, at most once, and a failed transaction is
  left by abort or detach (`phases_form_one_automaton`).
-/
import TxHeap.Proofs.Phases

namespace TxHeap

inductive Milestone where
  | started
  | prepared
  | applied
  | finished
  | aborted
  | detached
  deriving DecidableEq, Repr

def Milestone.phase? : Milestone → Option Phase
  | .started => some .active
  | .prepared => some .prepared
  | .applied => some .applied
  | .finished | .aborted | .detached => none

def Milestone.Next : Option Phase → Milestone → Prop
  | none, m => m = .started ∨ m = .detached
  | some .active, m => m = .prepared ∨ m = .aborted ∨ m = .detached
  | some .prepared, m => m = .applied ∨ m = .aborted ∨ m = .detached
  | some .applied, m => m = .finished ∨ m = .detached
  | some .failed, m => m = .aborted ∨ m = .detached

/-- What thread `t` has achieved when the call ends so; a commit is not asked. -/
def Command.milestone? (t : Nat) : Command → Outcome → Option Milestone
  | .start t', .ok _ => if t' = t then some .started else none
  | .prepare t', .ok _ => if t' = t then some .prepared else none
  | .apply t', .ok _ => if t' = t then some .applied else none
  | .finish t', .ok _ => if t' = t then some .finished else none
  | .abort t', .ok _ => if t' = t then some .aborted else none
  | .detach t', .ok _ => if t' = t then some .detached else none
  | _, _ => none

namespace Session

def milestonesOf (s : Session) (t : Nat) : List Command → List Milestone
  | [] => []
  | c :: cs => (c.milestone? t (s.step c).1).toList ++ (s.step c).2.milestonesOf t cs

def milestones (s : Session) (t : Nat) (cs : List Command) : List Milestone := s.milestonesOf t (s.calls cs)

end Session

/-- A way from one phase to another by these milestones; a prepare or an apply may fail on it. -/
inductive Course : Option Phase → List Milestone → Option Phase → Prop
  | here {p : Option Phase} : Course p [] p
  | fails {p : Phase} {q : Option Phase} {ms : List Milestone} : p = .active ∨ p = .prepared →
      Course (some .failed) ms q → Course (some p) ms q
  | reach {p q : Option Phase} {m : Milestone} {ms : List Milestone} :
      m.Next p → Course m.phase? ms q → Course p (m :: ms) q

namespace Course

variable {p q r : Option Phase} {m : Milestone} {ms ms' : List Milestone}

theorem append (h : Course p ms q) (h' : Course q ms' r) : Course p (ms ++ ms') r := by
  induction h with
  | here => exact h'
  | fails hp _ ih => exact .fails hp (ih h')
  | reach next _ ih => exact .reach next (ih h')

theorem split (h : Course p (ms ++ ms') r) : ∃ q, Course p ms q ∧ Course q ms' r := by
  generalize hl : ms ++ ms' = l at h
  induction h generalizing ms with
  | here =>
    obtain ⟨rfl, rfl⟩ := List.append_eq_nil_iff.mp hl
    exact ⟨_, .here, .here⟩
  | fails hp _ ih =>
    obtain ⟨q, before, after⟩ := ih hl
    exact ⟨q, .fails hp before, after⟩
  | @reach p r m l next rest ih =>
    cases ms with
    | nil =>
      rw [List.nil_append] at hl
      subst hl
      exact ⟨p, .here, .reach next rest⟩
    | cons m' ms =>
      cases hl
      obtain ⟨q, before, after⟩ := ih rfl
      exact ⟨q, .reach next before, after⟩

/-- A transaction is prepared right after its start. -/
theorem to_prepared (h : Course p ms q) (hq : q = some .prepared) :
    (ms = [] ∧ p = some .prepared) ∨ (ms = [.prepared] ∧ p = some .active) ∨
      ∃ earlier, ms = earlier ++ [.started, .prepared] := by
  induction h with
  | here => exact .inl ⟨rfl, hq⟩
  | fails _ _ ih =>
    rcases ih hq with ⟨-, e⟩ | ⟨-, e⟩ | found
    · cases e
    · cases e
    · exact .inr (.inr found)
  | @reach p q m ms next _ ih =>
    rcases ih hq with ⟨rfl, e⟩ | ⟨rfl, e⟩ | ⟨earlier, rfl⟩
    · cases m <;> cases e
      rcases p with _ | _ | _ | _ | _ <;> simp [Milestone.Next] at next ⊢
    · cases m <;> cases e
      exact .inr (.inr ⟨[], rfl⟩)
    · exact .inr (.inr ⟨m :: earlier, rfl⟩)

/-- Only what is prepared is applied. -/
theorem of_applied (h : Course p (.applied :: ms) q) : p = some .prepared ∧ Course (some .applied) ms q := by
  cases h with
  | fails _ h =>
    cases h with
    | fails hp => rcases hp with hp | hp <;> cases hp
    | reach next => rcases next with e | e <;> cases e
  | reach next rest =>
    refine ⟨?_, rest⟩
    rcases p with _ | _ | _ | _ | _ <;> simp [Milestone.Next] at next ⊢

/-- From a phase in which nothing fails, the next milestone is one of those that may come next. -/
theorem next (h : Course p (m :: ms) q) (ha : p ≠ some .active) (hp : p ≠ some .prepared) : m.Next p := by
  cases h with
  | fails e => rcases e with rfl | rfl <;> contradiction
  | reach next => exact next

theorem of_failed (h : Course (some .failed) ms q) :
    (ms = [] ∧ q = some .failed) ∨ ∃ m later, ms = m :: later ∧ (m = .aborted ∨ m = .detached) := by
  cases h with
  | here => exact .inl ⟨rfl, rfl⟩
  | fails hp => rcases hp with hp | hp <;> cases hp
  | reach next => exact .inr ⟨_, _, rfl, next⟩

end Course

section

variable {s : Session} {c : Command} {o : Outcome} {t : Nat} {p q : Option Phase}

theorem Course.one {m : Milestone} (next : m.Next p) (hq : m.phase? = q) : Course p [m] q :=
  .reach next (hq ▸ .here)

theorem milestone?_error (c : Command) (t : Nat) (f : Failure) : c.milestone? t (.error f) = none := by
  cases c <;> rfl

/-- Along an arrow there is a milestone or a failure, or nothing happens. -/
theorem Phase.Arrow.course (h : Phase.Arrow t c o p q) (hc : ∀ t, c ≠ .commit t) :
    Course p (c.milestone? t o).toList q := by
  cases h with
  | started =>
    rw [Command.milestone?, if_pos rfl]
    exact .one (.inl rfl) rfl
  | prepared =>
    rw [Command.milestone?, if_pos rfl]
    exact .one (.inl rfl) rfl
  | applied =>
    rw [Command.milestone?, if_pos rfl]
    exact .one (.inl rfl) rfl
  | finished =>
    rw [Command.milestone?, if_pos rfl]
    exact .one (.inl rfl) rfl
  | @aborted r p open' =>
    rw [Command.milestone?, if_pos rfl]
    refine .one ?_ rfl
    cases p with
    | active | prepared => exact .inr (.inl rfl)
    | applied => exact absurd rfl open'
    | failed => exact .inl rfl
  | detached =>
    rw [Command.milestone?, if_pos rfl]
    refine .one ?_ rfl
    rcases p with _ | _ | _ | _ | _ <;> simp [Milestone.Next]
  | prepareFailed => exact .fails (.inl rfl) .here
  | applyFailed => exact .fails (.inr rfl) .here
  | unstarted | cut | refused | away =>
    rw [milestone?_error]
    exact .here
  | committed | commitFailed | commitCut => exact absurd rfl (hc t)
  | elsewhere hb hd =>
    have quiet : c.milestone? t o = none := by
      cases c <;> cases o <;> simp_all [Command.milestone?, Command.boundary?]
    rw [quiet]
    exact .here

theorem course_milestonesOf (t : Nat) (cs : List Command) (s : Session) (hcs : ∀ c ∈ cs, ∀ t, c ≠ .commit t) :
    Course (s.phase? t) (s.milestonesOf t cs) ((s.run cs).2.phase? t) := by
  induction cs generalizing s with
  | nil => exact .here
  | cons c cs ih =>
    obtain ⟨hc, hcs⟩ := List.forall_mem_cons.1 hcs
    exact ((arrow_step s c t).course hc).append (ih _ hcs)

/-- What a thread achieves in a run is a way from its phase before to its phase after. -/
theorem course_milestones (t : Nat) (cs : List Command) (s : Session) :
    Course (s.phase? t) (s.milestones t cs) ((s.run cs).2.phase? t) := by
  rw [← run_calls]
  exact course_milestonesOf t (s.calls cs) s (calls_single s cs)

/-- A commit that is answered has prepared, applied and ended the transaction. -/
theorem milestones_commit {r : Reply} (h : (s.step (.commit t)).1 = .ok r) :
    s.milestones t [.commit t] = [.prepared, .applied, .finished] := by
  have ⟨tx, htx, _⟩ : ∃ tx, s.tx? t = some tx ∧ tx.phase = .active := by
    have arrow := arrow_step s (.commit t) t
    rw [Command.Goes, h] at arrow
    refine phase?_eq_some ?_
    generalize s.phase? t = p at arrow
    generalize (s.step (.commit t)).2.phase? t = q at arrow
    cases arrow with
    | committed => rfl
    | elsewhere hc => exact absurd rfl hc
  rw [step_commit_eq htx] at h
  rw [Session.milestones, Session.calls, Session.calls, List.append_nil, Session.parts]
  cases hp : s.step (.prepare t) with
  | mk o₁ s₁ =>
  rw [hp] at h
  cases o₁ with
  | error f => cases h
  | ok r₁ =>
    dsimp only at h ⊢
    cases ha : s₁.step (.apply t) with
    | mk o₂ s₂ =>
    rw [ha] at h
    cases o₂ with
    | error f => cases h
    | ok r₂ =>
      dsimp only at h ⊢
      simp [Session.milestonesOf, hp, ha, h, Command.milestone?]

/-- No arrow leads the main thread to a transaction. -/
theorem Phase.Arrow.main (h : Phase.Arrow mainThread c o none q) : q = none := by
  cases h with
  | started worker => exact absurd rfl worker
  | unstarted | detached | refused | away | elsewhere => rfl

theorem phase?_main (s : Session) (cs : List Command) (h : s.phase? mainThread = none) :
    (s.run cs).2.phase? mainThread = none := by
  induction cs generalizing s with
  | nil => exact h
  | cons c cs ih =>
    have arrow := arrow_step s c mainThread
    rw [Command.Goes, h] at arrow
    exact ih _ arrow.main

end

/-- The phases of a session are those of one automaton. -/
structure Session.Orderly (s : Session) : Prop where
  /-- Each call takes the phase of each thread along an arrow. -/
  arrow : ∀ t c, Phase.Arrow t c (s.step c).1 (s.phase? t) ((s.step c).2.phase? t)
  /-- A call of an attached thread that is out of place is refused, and nothing at all changes. -/
  refused : ∀ t c cause, (s.handle? t).isSome = true → c.boundary? = some t → c.objection (s.phase? t) = some cause →
    s.step c = (.error (.refused cause), s)
  main : s.phase? mainThread = none
  /-- A transaction that failed stays so until it is aborted or its thread detaches. -/
  failed : ∀ t cs, s.phase? t = some .failed →
    (s.milestones t cs = [] ∧ (s.run cs).2.phase? t = some .failed) ∨
      ∃ m later, s.milestones t cs = m :: later ∧ (m = .aborted ∨ m = .detached)
  commit : ∀ t r, (s.step (.commit t)).1 = .ok r → s.milestones t [.commit t] = [.prepared, .applied, .finished]

/-- Whatever is called, phases go along the arrows of one automaton, and roots are applied between a prepare and an end. -/
theorem phases_form_one_automaton {config : Config} {layout : Layout} {log : EventLog} {s : Session}
    (created : Session.create config layout log = .ok s) (cs : List Command) :
    (s.run cs).2.Orderly ∧
      ∀ t before after, s.milestones t cs = before ++ .applied :: after →
        (∃ earlier, before = earlier ++ [.started, .prepared]) ∧
          ∀ m, after.head? = some m → m = .finished ∨ m = .detached := by
  have idle (t : Nat) : s.phase? t = none := by rw [Session.phase?, tx?_create created, Option.map_none]
  refine ⟨⟨fun t c => arrow_step _ c t, ?_, phase?_main s cs (idle mainThread), ?_,
    fun t r => milestones_commit⟩, ?_⟩
  · intro t c cause attached hc ho
    obtain ⟨h, hh⟩ := Option.isSome_iff_exists.1 attached
    exact step_of_objection hh hc ho
  · intro t cs' failed
    have course := course_milestones t cs' (s.run cs).2
    rw [failed] at course
    exact course.of_failed
  · intro t before after reached
    have course := course_milestones t cs s
    rw [reached, idle] at course
    obtain ⟨p, earlier, later⟩ := course.split
    obtain ⟨prepared, rest⟩ := later.of_applied
    refine ⟨?_, ?_⟩
    · rcases earlier.to_prepared prepared with ⟨-, e⟩ | ⟨-, e⟩ | found
      · cases e
      · cases e
      · exact found
    · intro m hm
      cases after with
      | nil => cases hm
      | cons m' after =>
        cases hm
        exact rest.next (by simp) (by simp)

/-- One transaction step by step, one that is committed and one that fails on a pointer into nowhere. -/
def Command.threeWays : List Command :=
  [.attachMain, .create mainThread 0, .attachWorker, .start 1, .copyOnWrite 1 sharedStart, .prepare 1, .apply 1, .apply 1,
    .finish 1, .start 1, .copyOnWrite 1 sharedStart, .commit 1, .start 1, .copyOnWrite 1 sharedStart,
    .write 1 nurseryStart 0 8, .prepare 1, .apply 1, .abort 1, .detach 1]

theorem phases_form_one_automaton_ofNodes :
    Session.ofNodes.milestones 1 Command.threeWays =
        [.started, .prepared, .applied, .finished, .started, .prepared, .applied, .finished, .started, .aborted,
          .detached] ∧
      (Session.ofNodes.run Command.threeWays).2.Orderly ∧
        ∀ t before after, Session.ofNodes.milestones t Command.threeWays = before ++ .applied :: after →
          (∃ earlier, before = earlier ++ [.started, .prepared]) ∧
            ∀ m, after.head? = some m → m = .finished ∨ m = .detached :=
  ⟨by decide +kernel, phases_form_one_automaton create_ofNodes Command.threeWays⟩

end TxHeap

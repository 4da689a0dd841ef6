/-
  TxHeap.Proofs.Mismatch — no call but a preparation finds a broken object map.

  Whatever else is called, from whatever state, it does not end with a mismatch
  (`matched_of_not_prepare`); a prepare or a commit does so only where its preparation does.
-/
import TxHeap.Proofs.Calls
import TxHeap.Proofs.Ground

namespace TxHeap.Action

open Failure Step

variable {t : Nat}

theorem permitsAborts_failing : (Guarantee.failing NoMismatch).PermitsAborts where
  fails := id
  setTx _ _ _ := trivial
  setShared _ _ := trivial
  note _ _ := trivial
  attach _ _ _ := trivial
  copied _ := trivial
  issued _ := trivial
  emit _ _ := trivial
  started _ := trivial
  aborted _ := trivial

theorem matched_finish : (finish t).Meets (.failing NoMismatch) := by
  refine meets_bind (meets_openTx permitsAborts_failing.fails) ?_
  intro tx
  refine meets_bind (meets_requirePhase permitsAborts_failing.fails) ?_
  intro _
  -- what is left only changes the session
  exact fun s => trivial

/-- No call but a preparation ends with a mismatch. -/
theorem matched_of_not_prepare {c : Command} (hp : ∀ t, c ≠ .prepare t) (hc : ∀ t, c ≠ .commit t) :
    c.action.Meets (.failing NoMismatch) := by
  have permits := permitsAborts_failing
  cases c with
  | detach => exact meets_quietly permits.detach
  | start => exact meets_quietly permits.start
  | abort => exact meets_quietly permits.abort
  | finish => exact meets_map matched_finish
  | commit => exact absurd rfl (hc _)
  | setEvents | clearEvents | configureLog => exact meets_quietly (meets_modify fun _ => trivial)
  | _ => exact permits.silent trivial fun t e => absurd e (hp t)

section

variable {s : Session}
  (found : ∀ tx, s.tx? t = some tx → tx.phase = .active →
    Ends (Prepare.run s.heap.layout t) (.ofHeap s.heap tx) (fun _ _ => True) fun f _ => f.isMismatch = false)
include found

/-- A prepare ends with a mismatch only where its preparation does. -/
theorem ends_prepare_matched : Ends (prepare t) s (fun _ _ => True) fun f _ => f.isMismatch = false := by
  have opened : Ends (openTx t "prepare_commit") s (fun tx s' => s' = s ∧ s.tx? t = some tx) fun _ _ => True :=
    ends_openTx (fun _ htx => ⟨rfl, htx⟩) fun _ _ => trivial
  rw [prepare, ends_bind]
  refine (opened.and (meets_openTx permitsAborts_failing.fails s)).mono ?_ fun _ _ failed => failed.2.2
  rintro tx _ ⟨⟨rfl, htx⟩, -⟩
  rw [ends_bind, ends_ofAttempt]
  refine ⟨fun _ hphase => ?_, Attempt.failsWith_demand rfl⟩
  have ran := found tx htx (require_eq_ok.1 hphase)
  unfold Ends at ran ⊢
  rw [runPreparation]
  split at ran <;> rename_i hrun <;> rw [hrun]
  · trivial
  · rename_i f p
    cases f <;> exact ran

/-- So does a commit, which goes on from there with calls that find no mismatch. -/
theorem ends_commit_matched : Ends (commit t) s (fun _ _ => True) fun f _ => f.isMismatch = false := by
  have opened : Ends (openTx t "commit") s (fun _ s' => s' = s) fun _ _ => True :=
    ends_openTx (fun _ _ => rfl) fun _ _ => trivial
  rw [commit, ends_bind]
  refine (opened.and (meets_openTx permitsAborts_failing.fails s)).mono ?_ fun _ _ failed => failed.2.2
  rintro _ _ ⟨rfl, -⟩
  rw [ends_bind]
  refine (ends_prepare_matched found).mono ?_ fun _ _ failed => failed
  intro _ s' _
  have further : (do Action.apply t; finish t).Meets (.failing NoMismatch) := by
    refine meets_bind permitsAborts_failing.apply ?_
    intro _
    exact matched_finish
  exact (further s').mono (fun _ _ _ => trivial) fun _ _ failed => failed.2

end

end TxHeap.Action

/-
  TxHeap.Commit.Worklist — a preparation from its roots to its report.

  Items are visited until none is waiting; then the weak fields are settled, in the order in
  which their holders were visited. What every visit keeps, the visits to the end keep
  (`ends_drain`), and a guarantee that covers the visits and lets an item be taken off the
  worklist, is met by the whole preparation (`Covers.run`).
-/
import TxHeap.Commit.Budget

namespace TxHeap.Prepare

open Step

def drain (layout : Layout) (thread : Nat) : Prepare Unit := fun p =>
  match _pending : p.pending with
  | [] => .ok () p
  | item :: rest =>
    match _visited : visit layout thread item { p with pending := rest } with
    | .ok _ q => drain layout thread q
    | .error f q => .error f q
termination_by p => p.budget
decreasing_by exact visit_budget ‹_› ‹_›

def run (layout : Layout) (thread : Nat) : Prepare Report := do
  drain layout thread
  (← get).weakHolders.forM (settleWeak layout thread)
  let p ← get
  return { p.report with sharedConsumed := p.buffer.reserved }

variable {layout : Layout} {thread : Nat} {item : Item} {rest : List Item} {p q : Preparation} {u : Unit}

theorem drain_of_nil (h : p.pending = []) : drain layout thread p = .ok () p := by
  rw [drain]
  split
  · rfl
  · rename_i h'
    rw [h] at h'
    cases h'

theorem drain_of_visit (h : p.pending = item :: rest)
    (hv : visit layout thread item { p with pending := rest } = .ok u q) :
    drain layout thread p = drain layout thread q := by
  rw [drain]
  split
  · rename_i h'
    rw [h] at h'
    cases h'
  · rename_i h'
    rw [h] at h'
    cases h'
    split
    · rename_i h''
      rw [hv] at h''
      cases h''
      rfl
    · rename_i h''
      rw [hv] at h''
      cases h''

theorem drain_of_error {f : Failure} (h : p.pending = item :: rest)
    (hv : visit layout thread item { p with pending := rest } = .error f q) :
    drain layout thread p = .error f q := by
  rw [drain]
  split
  · rename_i h'
    rw [h] at h'
    cases h'
  · rename_i h'
    rw [h] at h'
    cases h'
    split
    · rename_i h''
      rw [hv] at h''
      cases h''
    · rename_i h''
      rw [hv] at h''
      cases h''
      rfl

/-- What every visit keeps, visiting to the end keeps. -/
theorem ends_drain {I : Preparation → Prop} {bad : Failure → Preparation → Prop}
    (round : ∀ p item rest, I p → p.pending = item :: rest →
      Ends (visit layout thread item) { p with pending := rest } (fun _ q => I q) bad) :
    ∀ p, I p → Ends (drain layout thread) p (fun _ q => I q ∧ q.pending = []) bad := by
  intro p
  induction p using drain.induct layout thread with
  | case1 p pending =>
    intro hp
    unfold Ends
    rw [drain_of_nil pending]
    exact ⟨hp, pending⟩
  | case2 p item rest pending u q visited ih =>
    intro hp
    have := ih ((round p item rest hp pending).of_ok visited)
    unfold Ends at this ⊢
    rw [drain_of_visit pending visited]
    exact this
  | case3 p item rest pending f q visited =>
    intro hp
    unfold Ends
    rw [drain_of_error pending visited]
    exact (round p item rest hp pending).of_error visited

namespace Covers

variable {G : Guarantee Preparation} (h : Covers layout G)
  (next : ∀ {p : Preparation} {item rest}, p.pending = item :: rest → G.rel p { p with pending := rest })
include h next

theorem drain (thread : Nat) : (drain layout thread).Meets G := by
  intro p
  refine (ends_drain ?_ p (G.refl p)).mono (fun _ _ drained => drained.1) fun _ _ failed => failed
  intro q item rest reached pending
  have start := G.trans reached (next pending)
  refine (h.visit thread item _).mono (fun _ _ rel => G.trans start rel) ?_
  exact fun _ _ failed => ⟨G.trans start failed.1, G.later start failed.2⟩

theorem run (thread : Nat) : (run layout thread).Meets G := by
  refine meets_bind (h.drain next thread) ?_
  intro _
  refine meets_bind meets_get ?_
  intro p
  refine meets_bind (meets_forM fun item _ => (sameRoom_settleWeak thread item).imply h.room) ?_
  intro _
  refine meets_bind meets_get ?_
  intro p
  exact meets_pure _

end Covers

end TxHeap.Prepare

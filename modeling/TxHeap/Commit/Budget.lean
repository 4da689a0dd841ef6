/-
  TxHeap.Commit.Budget — why a preparation comes to an end.

  A visit never raises the budget: a promotion spends at least a header's bytes of room on a
  twin and puts one item on the worklist, and nothing else touches room or worklist
  (`budget_covers`). Taking an item off the list has lowered the budget before the visit
  (`visit_budget`).
-/
import TxHeap.Commit.Visits

namespace TxHeap.Prepare

open Step

theorem room_allocate {b b' : TwinBuffer} {shared shared' : Arena} {size twin : Nat} (pos : 0 < size)
    (h : b.allocate shared size = .ok (twin, b', shared')) :
    shared'.remaining + b'.free + size ≤ shared.remaining + b.free := by
  simp only [TwinBuffer.allocate, Attempt.bind_eq_ok] at h
  obtain ⟨⟨c, s⟩, hroom, _, _, h⟩ := h
  cases h
  unfold TwinBuffer.makeRoom at hroom
  split at hroom
  · simp only [TwinBuffer.refill, Attempt.bind_eq_ok] at hroom
    obtain ⟨⟨start, s'⟩, halloc, hroom⟩ := hroom
    cases hroom
    have := Arena.remaining_allocate halloc
    simp only [TwinBuffer.free]
    omega
  · cases hroom
    simp only [TwinBuffer.free] at *
    omega

/-- Where room was taken and nothing else has touched it, it was paid for with its size. -/
theorem room_take {p q : Preparation} {buffer : TwinBuffer} {shared : Arena} {size twin : Nat} (header : headerSize ≤ size)
    (h : p.buffer.allocate p.shared size = .ok (twin, buffer, shared)) (same : (p.take twin buffer shared).SameRoom q) :
    q.room + size ≤ p.room ∧ q.pending = p.pending := by
  rw [same.room]
  exact ⟨room_allocate (Nat.lt_of_lt_of_le (by decide) header) h, same.pending⟩

theorem budget_covers (layout : Layout) : Covers layout (.neverRises Preparation.budget) where
  room := by
    refine ⟨?_, fun _ => trivial⟩
    intro p q same
    exact Nat.le_of_eq (by rw [Preparation.budget, Preparation.budget, same.room, same.pending])
  unsized _ := trivial
  full _ := trivial
  taken := by
    intro p q twin size buffer shared header allocated same
    obtain ⟨room, pending⟩ := room_take header allocated same
    show q.room + q.pending.length ≤ p.room + p.pending.length
    rw [pending]
    omega
  made := by
    intro p q twin size buffer shared thread obj header allocated same
    obtain ⟨room, pending⟩ := room_take header allocated same
    have pos : 0 < size := Nat.lt_of_lt_of_le (by decide) header
    show q.room + (q.pending.length + 1) ≤ p.room + p.pending.length
    rw [pending]
    omega

/-- Taking an item off the worklist and visiting it lowers the budget. -/
theorem visit_budget {layout : Layout} {thread : Nat} {item : Item} {rest : List Item} {p q : Preparation} {u : Unit}
    (pending : p.pending = item :: rest) (h : visit layout thread item { p with pending := rest } = .ok u q) :
    q.budget < p.budget := by
  have spent : q.budget ≤ p.room + rest.length := ((budget_covers layout).visit thread item _).of_ok h
  show q.budget < p.room + p.pending.length
  rw [pending, List.length_cons]
  omega

end TxHeap.Prepare

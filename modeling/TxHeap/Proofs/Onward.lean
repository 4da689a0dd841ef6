/-
  TxHeap.Proofs.Onward — what no preparation changes, whatever it finds.

  A preparation never moves or grows the nursery and never remaps a working copy; the shared
  heap only hands out more bytes, and what lies past its free pointer stays blank
  (`Preparation.Onward`). Where no size and no chunk leaves the range of words, a
  preparation fails only with a refusal. Neither depends on what the objects hold, so
  both are true of hostile words as well (`onward_run`).
-/
import TxHeap.Commit.Worklist
import TxHeap.Proofs.Record

namespace TxHeap

open Attempt

theorem Layout.Bounded.failsWith_objectSize {layout : Layout} (h : layout.Bounded) (typeId : Nat) :
    (layout.objectSize typeId).FailsWith Failure.IsRefusal := by
  intro f hf
  cases f with
  | refused cause => exact ⟨cause, rfl⟩
  | overflow kind => exact absurd hf (h typeId kind)
  | fatal | detached =>
    cases hp : layout.payload? typeId with
    | none =>
      rw [Layout.objectSize, hp] at hf
      cases hf
    | some payload =>
      rw [Layout.objectSize_eq hp] at hf
      split at hf <;> cases hf

theorem Layout.Sound.reaches {layout : Layout} (sound : layout.Sound) (bounded : layout.Bounded) : layout.Reaches := by
  intro typeId offset field
  have mem : offset ∈ layout.fields typeId := by
    rw [Layout.fields, List.mem_append, Option.mem_toList]
    exact field
  exact sound.field_lt bounded mem

namespace Arena

variable {a b : Arena} {size : Nat}

/-- Rounding up to the next chunk never leaves the range of words. -/
def Roomy (a : Arena) : Prop := a.reserve + a.chunkSize < wordLimit

theorem Roomy.failsWith_allocate (h : a.Roomy) : (a.allocate size).FailsWith Failure.IsRefusal := by
  intro f hf
  obtain ⟨requested, available, e⟩ := allocate_refused h hf
  exact ⟨_, e⟩

/-- Stores change nothing but the bytes below the free pointer. -/
theorem Stored.memory (h : a.Stored b) :
    ∃ m, b = { a with memory := m } ∧ ∀ addr, a.freePointer ≤ addr → m.get addr = a.memory.get addr := by
  induction h with
  | refl => exact ⟨a.memory, rfl, fun _ _ => rfl⟩
  | write _ stored ih =>
    obtain ⟨m, rfl, same⟩ := ih
    obtain ⟨spans, rfl⟩ := write_eq_ok.1 stored
    refine ⟨_, rfl, fun addr past => ?_⟩
    rw [Memory.get_write_of_apart (.inr (Nat.le_trans spans.2 past)), same addr past]
  | writeWord _ stored ih =>
    obtain ⟨m, rfl, same⟩ := ih
    obtain ⟨spans, rfl⟩ := writeWord_eq_ok.1 stored
    refine ⟨_, rfl, fun addr past => ?_⟩
    rw [Memory.get_writeWord_of_apart (.inr (Nat.le_trans spans.2 past)), same addr past]
  | setHeader _ stored ih =>
    obtain ⟨m, rfl, same⟩ := ih
    obtain ⟨spans, rfl⟩ := setHeader_eq_ok.1 stored
    refine ⟨_, rfl, fun addr past => ?_⟩
    rw [Memory.get_setHeaderAt_of_apart (.inr (Nat.le_trans spans.2 past)), same addr past]

theorem Stored.freePointer (h : a.Stored b) : b.freePointer = a.freePointer := by
  obtain ⟨m, rfl, -⟩ := h.memory
  rfl

end Arena

theorem TwinBuffer.failsWith_allocate {b : TwinBuffer} {shared : Arena} {size : Nat} (h : shared.Roomy) :
    (b.allocate shared size).FailsWith Failure.IsRefusal := by
  refine failsWith_bind ?_ ?_
  · rw [makeRoom]
    split
    · exact failsWith_bind h.failsWith_allocate fun _ => failsWith_ok
    · exact failsWith_ok
  · intro room
    exact failsWith_bind (failsWith_demand ⟨_, rfl⟩) fun _ => failsWith_ok

/-- Room for a twin is the next of the current chunk, or the first of a new one. -/
theorem TwinBuffer.allocate_cases {b b' : TwinBuffer} {shared shared' : Arena} {size twin : Nat}
    (h : b.allocate shared size = .ok (twin, b', shared')) :
    b'.cursor = twin + size ∧
      (size ≤ b.limit - b.cursor ∧ b.cursor ≠ 0 ∧ twin = b.cursor ∧ b'.limit = b.limit ∧
          b'.reserved = b.reserved ∧ shared' = shared ∨
        ∃ chunk, size ≤ chunk ∧ shared.Grew shared' chunk ∧ twin = shared.freePointer ∧ b'.limit = twin + chunk ∧
          b'.reserved = b.reserved + chunk) := by
  rw [TwinBuffer.allocate, Attempt.bind_eq_ok] at h
  obtain ⟨⟨c, shared''⟩, hroom, h⟩ := h
  obtain ⟨hcursor, h⟩ := Attempt.demand_bind_eq_ok.1 h
  cases h
  refine ⟨rfl, ?_⟩
  rw [makeRoom] at hroom
  split at hroom
  · rw [refill, Attempt.bind_eq_ok] at hroom
    obtain ⟨⟨start, grown⟩, halloc, hroom⟩ := hroom
    cases hroom
    obtain ⟨rfl, grew⟩ := Arena.grew_of_allocate halloc
    exact .inr ⟨_, Nat.le_max_left _ _, grew, rfl, rfl, rfl⟩
  · cases hroom
    rename_i hfree
    simp only [free] at hfree
    exact .inl ⟨by omega, hcursor, rfl, rfl, rfl, rfl⟩

structure Preparation.Onward (p q : Preparation) : Prop where
  objects : q.tx.objects = p.tx.objects
  nurseryStart : q.tx.nursery.start = p.tx.nursery.start
  nurseryReserve : q.tx.nursery.reserve = p.tx.nursery.reserve
  nurseryChunk : q.tx.nursery.chunkSize = p.tx.nursery.chunkSize
  nurseryUsed : q.tx.nursery.used = p.tx.nursery.used
  start : q.shared.start = p.shared.start
  reserve : q.shared.reserve = p.shared.reserve
  chunkSize : q.shared.chunkSize = p.shared.chunkSize
  used : p.shared.used ≤ q.shared.used
  blank : p.shared.Blank → q.shared.Blank

namespace Preparation.Onward

variable {p q r : Preparation} {v : Nat}

theorem refl (p : Preparation) : p.Onward p := ⟨rfl, rfl, rfl, rfl, rfl, rfl, rfl, rfl, Nat.le_refl _, id⟩

theorem trans (h : p.Onward q) (h' : q.Onward r) : p.Onward r :=
  ⟨h'.objects.trans h.objects, h'.nurseryStart.trans h.nurseryStart, h'.nurseryReserve.trans h.nurseryReserve,
    h'.nurseryChunk.trans h.nurseryChunk, h'.nurseryUsed.trans h.nurseryUsed, h'.start.trans h.start,
    h'.reserve.trans h.reserve, h'.chunkSize.trans h.chunkSize, Nat.le_trans h.used h'.used, h'.blank ∘ h.blank⟩

theorem roomy (h : p.Onward q) (hr : p.shared.Roomy) : q.shared.Roomy := by
  rw [Arena.Roomy, h.reserve, h.chunkSize]
  exact hr

theorem nursery_contains (h : p.Onward q) : q.tx.nursery.contains v = p.tx.nursery.contains v := by
  simp only [Arena.contains, h.nurseryStart, h.nurseryUsed]

theorem freePointer_le (h : p.Onward q) : p.shared.freePointer ≤ q.shared.freePointer := by
  have := h.used
  rw [Arena.freePointer, Arena.freePointer, h.start]
  omega

theorem shared_contains (h : p.Onward q) (hv : p.shared.contains v = true) : q.shared.contains v = true := by
  have := h.freePointer_le
  rw [Arena.contains_iff] at hv ⊢
  rw [h.start]
  omega

/-- Another nursery of the same extent. -/
theorem setNursery {a : Arena} (start : a.start = p.tx.nursery.start) (reserve : a.reserve = p.tx.nursery.reserve)
    (chunk : a.chunkSize = p.tx.nursery.chunkSize) (used : a.used = p.tx.nursery.used) :
    p.Onward { p with tx := { p.tx with nursery := a } } :=
  ⟨rfl, start, reserve, chunk, used, rfl, rfl, rfl, Nat.le_refl _, id⟩

/-- A store to the shared heap, below its free pointer. -/
theorem setShared {m : Memory}
    (same : ∀ addr, p.shared.freePointer ≤ addr → m.get addr = p.shared.memory.get addr) :
    p.Onward { p with shared := { p.shared with memory := m } } :=
  ⟨rfl, rfl, rfl, rfl, rfl, rfl, rfl, rfl, Nat.le_refl _, fun h => h.store same⟩

/-- Stores leave the extents. -/
theorem of_sameRoom (same : p.SameRoom q) : p.Onward q := by
  obtain ⟨m, nursery, -⟩ := same.nursery.memory
  obtain ⟨m', shared, past⟩ := same.shared.memory
  refine ⟨same.objects, ?_, ?_, ?_, ?_, ?_, ?_, ?_, ?_, ?_⟩
  · rw [nursery]
  · rw [nursery]
  · rw [nursery]
  · rw [nursery]
  · rw [shared]
  · rw [shared]
  · rw [shared]
  · rw [shared]
  · rw [shared]
    exact fun blank => blank.store past

theorem take {size twin : Nat} {buffer : TwinBuffer} {shared : Arena}
    (allocated : p.buffer.allocate p.shared size = .ok (twin, buffer, shared)) : p.Onward (p.take twin buffer shared) := by
  obtain ⟨-, ⟨-, -, -, -, -, rfl⟩ | ⟨chunk, -, grew, -⟩⟩ := TwinBuffer.allocate_cases allocated
  · exact ⟨rfl, rfl, rfl, rfl, rfl, rfl, rfl, rfl, Nat.le_refl _, id⟩
  · exact ⟨rfl, rfl, rfl, rfl, rfl, grew.start, grew.reserve, grew.chunkSize, Nat.le.intro grew.used.symm,
      fun blank => blank.grow grew⟩

end Preparation.Onward

/-- Extents only go onward; a failure is a refusal where sizes and chunks stay in the range of words. -/
def Preparation.onward (layout : Layout) : Guarantee Preparation where
  rel := Onward
  fails p f := p.shared.Roomy → layout.Sound → layout.Bounded → f.IsRefusal
  refl := .refl
  trans := .trans
  later h failed roomy := failed (h.roomy roomy)

namespace Prepare

variable {layout : Layout}

theorem onward_covers (layout : Layout) : Covers layout (Preparation.onward layout) where
  room := ⟨.of_sameRoom, fun failed _ sound bounded => failed (sound.reaches bounded)⟩
  unsized failed _ _ bounded := bounded.failsWith_objectSize _ _ failed
  full failed roomy _ _ := TwinBuffer.failsWith_allocate roomy _ failed
  taken _ allocated same := (Preparation.Onward.take allocated).trans (.of_sameRoom same)
  made _ _ _ allocated same := by
    refine ((Preparation.Onward.take allocated).trans (.of_sameRoom same)).trans ?_
    exact ⟨rfl, rfl, rfl, rfl, rfl, rfl, rfl, rfl, Nat.le_refl _, id⟩

theorem onward_next {p : Preparation} {item : Item} {rest : List Item} (_ : p.pending = item :: rest) :
    p.Onward { p with pending := rest } :=
  ⟨rfl, rfl, rfl, rfl, rfl, rfl, rfl, rfl, Nat.le_refl _, id⟩

theorem onward_drain (layout : Layout) (thread : Nat) : (drain layout thread).Meets (Preparation.onward layout) :=
  (onward_covers layout).drain onward_next thread

theorem onward_run (layout : Layout) (thread : Nat) : (run layout thread).Meets (Preparation.onward layout) :=
  (onward_covers layout).run onward_next thread

end Prepare

end TxHeap

/-
  TxHeap.Proofs.Chunks — where a preparation puts its twins.

  A preparation takes chunks from the end of the shared heap, and twins from the start of its
  last chunk upwards. So the cursor is behind every twin made so far, and the next twin, of
  the old chunk or of a new one, overlaps none of them (`TwinsApart`, `twinsApart_run`). This holds
  whatever the words that are found, as only promotions take room.
-/
import TxHeap.Proofs.Onward

namespace TxHeap

namespace Block

def stop (b : Block) : Nat := b.start + b.size

def Apart (b c : Block) : Prop := b.stop ≤ c.start ∨ c.stop ≤ b.start

end Block

/-- Twins do not overlap; they lie behind `base`, where the shared heap once ended, and before the cursor. -/
structure TwinsApart (base : Nat) (p : Preparation) : Prop where
  apart : p.twins.Pairwise Block.Apart
  inside : ∀ b ∈ p.twins, base ≤ b.start ∧ b.stop ≤ p.buffer.cursor
  /-- At first there is no chunk. -/
  chunk : p.buffer.cursor = 0 ∨ base ≤ p.buffer.cursor
  rest : p.buffer.cursor ≤ p.buffer.limit
  taken : p.buffer.limit ≤ p.shared.freePointer
  behind : base ≤ p.shared.freePointer

theorem TwinsApart.sameRoom {base : Nat} {p q : Preparation} (h : TwinsApart base p) (same : p.SameRoom q) :
    TwinsApart base q := by
  have buffer := same.buffer
  have twins := same.twins
  have free := same.shared.freePointer
  constructor
  · rw [twins]
    exact h.apart
  · rw [twins, buffer]
    exact h.inside
  · rw [buffer]
    exact h.chunk
  · rw [buffer]
    exact h.rest
  · rw [buffer, free]
    exact h.taken
  · rw [free]
    exact h.behind

namespace Prepare

open Step

variable {p q : Preparation} {base : Nat}

/-- There is room of this size right before the cursor, and every twin is before it. -/
structure RoomAtCursor (base twin size : Nat) (p : Preparation) : Prop where
  twins : TwinsApart base p
  start : base ≤ twin
  stop : twin + size = p.buffer.cursor
  before : ∀ b ∈ p.twins, b.stop ≤ twin

theorem RoomAtCursor.sameRoom {twin size : Nat} (h : RoomAtCursor base twin size p) (same : p.SameRoom q) :
    RoomAtCursor base twin size q := by
  refine ⟨h.twins.sameRoom same, h.start, ?_, ?_⟩
  · rw [same.buffer]
    exact h.stop
  · rw [same.twins]
    exact h.before

/-- A twin made there overlaps no other. -/
theorem RoomAtCursor.promote {twin size : Nat} (thread obj : Nat) (h : RoomAtCursor base twin size p) :
    TwinsApart base (p.promote thread obj twin size) := by
  have twins := p.twins_promote thread obj twin size
  refine ⟨?_, ?_, h.twins.chunk, h.twins.rest, h.twins.taken, h.twins.behind⟩
  · rw [twins]
    refine List.pairwise_append.2 ⟨h.twins.apart, List.pairwise_singleton _ _, ?_⟩
    intro b hb c hc
    rw [List.mem_singleton.mp hc]
    exact .inl (h.before b hb)
  · rw [twins]
    intro b hb
    rcases List.mem_append.mp hb with hb | hb
    · exact h.twins.inside b hb
    · rw [List.mem_singleton.mp hb]
      exact ⟨h.start, Nat.le_of_eq h.stop⟩

/-- Room for a twin is taken behind all twins. -/
theorem roomAtCursor_take {size twin : Nat} {buffer : TwinBuffer} {shared : Arena} (hp : TwinsApart base p)
    (ha : p.buffer.allocate p.shared size = .ok (twin, buffer, shared)) :
    RoomAtCursor base twin size (p.take twin buffer shared) := by
  obtain ⟨cursor, cases⟩ := TwinBuffer.allocate_cases ha
  have room : base ≤ twin ∧ (∀ b ∈ p.twins, b.stop ≤ twin) ∧ buffer.cursor ≤ buffer.limit ∧
      buffer.limit ≤ shared.freePointer ∧ base ≤ shared.freePointer := by
    have rest := hp.rest
    have taken := hp.taken
    have behind := hp.behind
    rcases cases with ⟨fits, nonzero, rfl, limit, -, rfl⟩ | ⟨chunk, fits, grew, rfl, limit, -⟩
    · exact ⟨hp.chunk.resolve_left nonzero, fun b hb => (hp.inside b hb).2, by omega, by omega, behind⟩
    · have free := grew.freePointer
      refine ⟨behind, fun b hb => ?_, by omega, by omega, by omega⟩
      have := (hp.inside b hb).2
      omega
  obtain ⟨start, before, rest, taken, behind⟩ := room
  have twins := p.twins_take twin buffer shared
  refine ⟨⟨?_, ?_, ?_, rest, taken, behind⟩, start, cursor.symm, ?_⟩
  · rw [twins]
    exact hp.apart
  · rw [twins]
    show ∀ b ∈ p.twins, base ≤ b.start ∧ b.stop ≤ buffer.cursor
    rw [cursor]
    exact fun b hb => ⟨(hp.inside b hb).1, Nat.le_trans (before b hb) (Nat.le_add_right _ _)⟩
  · show buffer.cursor = 0 ∨ base ≤ buffer.cursor
    rw [cursor]
    exact .inr (Nat.le_trans start (Nat.le_add_right _ _))
  · rw [twins]
    exact before

theorem twinsApart_covers (base : Nat) (layout : Layout) : Covers layout (.kept (TwinsApart base)) where
  room := ⟨fun same apart => apart.sameRoom same, fun _ => trivial⟩
  unsized _ := trivial
  full _ := trivial
  taken _ allocated same apart := ((roomAtCursor_take apart allocated).sameRoom same).twins
  made thread obj _ allocated same apart := ((roomAtCursor_take apart allocated).sameRoom same).promote thread obj

theorem twinsApart_next {item : Item} {rest : List Item} (_ : p.pending = item :: rest) (apart : TwinsApart base p) :
    TwinsApart base { p with pending := rest } :=
  ⟨apart.apart, apart.inside, apart.chunk, apart.rest, apart.taken, apart.behind⟩

theorem twinsApart_drain (base : Nat) (layout : Layout) (thread : Nat) :
    (drain layout thread).Meets (.kept (TwinsApart base)) :=
  (twinsApart_covers base layout).drain twinsApart_next thread

theorem twinsApart_run (base : Nat) (layout : Layout) (thread : Nat) : (run layout thread).Meets (.kept (TwinsApart base)) :=
  (twinsApart_covers base layout).run twinsApart_next thread

/-- A preparation starts without twins and without a chunk. -/
theorem twinsApart_ofHeap (heap : Heap) (tx : Transaction) : TwinsApart heap.shared.freePointer (.ofHeap heap tx) :=
  ⟨.nil, nofun, .inl rfl, Nat.le_refl _, Nat.zero_le _, Nat.le_refl _⟩

end Prepare

end TxHeap

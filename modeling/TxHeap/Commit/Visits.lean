/-
  TxHeap.Commit.Visits — what the steps of a preparation can do.

  All steps but a promotion only store into what is handed out, move tokens and count weak
  fields: room, worklist and twins stay as they were (`Preparation.SameRoom`). A promotion takes
  room, does no more than such stores, and then enters the twin (`Covers.makeTwin`). So
  whoever wants to know what a whole visit guarantees, whatever the words it finds, has to
  look at these two only (`Prepare.Covers`, `Covers.visit`).

  Where the fields of all types are in reach of the arithmetic, only a promotion can be
  stopped by it; every other step is refused where it fails.
-/
import TxHeap.Commit.Preparation
import TxHeap.Guarantee

namespace TxHeap

structure Block where
  start : Nat
  size : Nat
  deriving DecidableEq, Repr

def Notice.twin? : Notice → Option Block
  | .promoted _ _ twin size => some ⟨twin, size⟩
  | _ => none

/-- The address of each field can be computed, wherever the object lies. -/
def Layout.Reaches (layout : Layout) : Prop :=
  ∀ typeId offset, offset ∈ layout.pointers typeId ∨ layout.weak? typeId = some offset →
    headerSize + offset + wordSize < wordLimit

open Attempt in
theorem failsWith_payloadAddress {kind : Failure → Prop} {obj offset : Nat}
    (reach : headerSize + offset + wordSize < wordLimit) (refused : ∀ cause, kind (.refused cause)) :
    (payloadAddress obj offset).FailsWith kind := by
  have inner : Word.add headerSize offset = .ok (headerSize + offset) := Word.add_eq_ok.2 ⟨by omega, rfl⟩
  have outer : Word.add (headerSize + offset) wordSize = .ok (headerSize + offset + wordSize) :=
    Word.add_eq_ok.2 ⟨reach, rfl⟩
  simp only [payloadAddress, inner, outer, Attempt.arith, bind, Except.bind]
  exact failsWith_ofOption (refused _)

namespace Preparation

def twins (p : Preparation) : List Block := p.notices.toList.filterMap Notice.twin?

theorem twins_push (p : Preparation) (n : Notice) :
    twins { p with notices := p.notices.push n } = p.twins ++ n.twin?.toList := by
  rw [twins, Array.toList_push, List.filterMap_append, twins]
  cases hn : n.twin? <;> simp [hn]

/-! ## Room, worklist and twins -/

/-- Nothing but words, tokens and what is known of weak fields may differ. -/
structure SameRoom (p q : Preparation) : Prop where
  shared : p.shared.Stored q.shared
  nursery : p.tx.nursery.Stored q.tx.nursery
  objects : q.tx.objects = p.tx.objects
  phase : q.tx.phase = p.tx.phase
  buffer : q.buffer = p.buffer
  pending : q.pending = p.pending
  twins : q.twins = p.twins
  promoted : q.report.promoted = p.report.promoted

namespace SameRoom

variable {p q r : Preparation}

theorem refl (p : Preparation) : p.SameRoom p := ⟨.refl, .refl, rfl, rfl, rfl, rfl, rfl, rfl⟩

theorem trans (h : p.SameRoom q) (h' : q.SameRoom r) : p.SameRoom r where
  shared := h.shared.trans h'.shared
  nursery := h.nursery.trans h'.nursery
  objects := h'.objects.trans h.objects
  phase := h'.phase.trans h.phase
  buffer := h'.buffer.trans h.buffer
  pending := h'.pending.trans h.pending
  twins := h'.twins.trans h.twins
  promoted := h'.promoted.trans h.promoted

theorem setShared {shared : Arena} (stored : p.shared.Stored shared) : p.SameRoom { p with shared } :=
  ⟨stored, .refl, rfl, rfl, rfl, rfl, rfl, rfl⟩

theorem setNursery {nursery : Arena} (stored : p.tx.nursery.Stored nursery) :
    p.SameRoom { p with tx := { p.tx with nursery } } :=
  ⟨.refl, stored, rfl, rfl, rfl, rfl, rfl, rfl⟩

theorem note (p : Preparation) {n : Notice} (hn : n.twin? = none) : p.SameRoom { p with notices := p.notices.push n } := by
  refine ⟨.refl, .refl, rfl, rfl, rfl, rfl, ?_, rfl⟩
  rw [twins_push, hn]
  exact List.append_nil _

theorem room (h : p.SameRoom q) : q.room = p.room := by
  rw [Preparation.room, Preparation.room, h.shared.remaining, h.buffer]

end SameRoom

/-- Room, worklist and twins stay, and a failure is a refusal where all fields are in reach. -/
def sameRoom (layout : Layout) : Guarantee Preparation where
  rel := SameRoom
  fails _ f := layout.Reaches → f.IsRefusal
  refl := .refl
  trans := .trans
  later _ h := h

/-- The buffer and the shared heap once room is taken. -/
def take (p : Preparation) (twin : Nat) (buffer : TwinBuffer) (shared : Arena) : Preparation :=
  { p with
    buffer, shared
    notices := if buffer.reserved - p.buffer.reserved = 0 then p.notices
      else p.notices.push (.chunkTaken (buffer.reserved - p.buffer.reserved) twin) }

theorem twins_take (p : Preparation) (twin : Nat) (buffer : TwinBuffer) (shared : Arena) :
    (p.take twin buffer shared).twins = p.twins := by
  by_cases e : buffer.reserved - p.buffer.reserved = 0
  · simp only [take, twins, e, if_pos]
  · simp only [take, e, if_false]
    exact (p.twins_push _).trans (List.append_nil _)

/-- The worklist and the books once the twin is made. -/
def promote (p : Preparation) (thread obj twin size : Nat) : Preparation :=
  { p with
    report := { p.report with promoted := p.report.promoted + 1, bytesPromoted := p.report.bytesPromoted + size }
    pending := .twin twin :: p.pending
    notices := p.notices.push (.promoted thread obj twin size) }

theorem twins_promote (p : Preparation) (thread obj twin size : Nat) :
    (p.promote thread obj twin size).twins = p.twins ++ [⟨twin, size⟩] :=
  p.twins_push (.promoted thread obj twin size)

end Preparation

namespace Prepare

open Step Preparation

/-- What a guarantee has to grant for whole visits to meet it. -/
structure Covers (layout : Layout) (G : Guarantee Preparation) : Prop where
  /-- What all steps but promotions guarantee. -/
  room : (sameRoom layout).Implies G
  /-- A promotion may find no size, … -/
  unsized : ∀ {p typeId f}, layout.objectSize typeId = .error f → G.fails p f
  /-- … or no room, … -/
  full : ∀ {p size f}, p.buffer.allocate p.shared size = .error f → G.fails p f
  /-- … or fail once it has taken room, … -/
  taken : ∀ {p q twin size buffer shared}, headerSize ≤ size →
    p.buffer.allocate p.shared size = .ok (twin, buffer, shared) → (p.take twin buffer shared).SameRoom q → G.rel p q
  /-- … or make its twin there. -/
  made : ∀ {p q twin size buffer shared} (thread obj : Nat), headerSize ≤ size →
    p.buffer.allocate p.shared size = .ok (twin, buffer, shared) → (p.take twin buffer shared).SameRoom q →
    G.rel p (q.promote thread obj twin size)

variable {α : Type} {layout : Layout} {G : Guarantee Preparation} {item : Item} {offset : Nat}

/-! ## Steps that leave room, worklist and twins -/

/-- An attempt that can only be refused. -/
theorem sameRoom_attempt {x : Attempt α} (h : x.FailsWith Failure.IsRefusal) : (ofAttempt x).Meets (sameRoom layout) :=
  meets_ofAttempt fun _ f hf _ => h f hf

theorem sameRoom_refuse (cause : Refusal) : (refuse cause : Prepare α).Meets (sameRoom layout) :=
  meets_refuse fun _ _ => ⟨cause, rfl⟩

theorem sameRoom_payloadAddress (obj : Nat) (reach : layout.Reaches → headerSize + offset + wordSize < wordLimit) :
    (ofAttempt (payloadAddress obj offset)).Meets (sameRoom layout) :=
  meets_ofAttempt fun _ f hf reaches => failsWith_payloadAddress (reach reaches) (fun cause => ⟨cause, rfl⟩) f hf

theorem sameRoom_note {n : Notice} (hn : n.twin? = none) : (note n).Meets (sameRoom layout) :=
  meets_modify fun p => .note p hn

theorem sameRoom_headerOf (item : Item) : (headerOf item).Meets (sameRoom layout) := by
  cases item <;>
  · refine meets_bind meets_get ?_
    intro p
    exact sameRoom_attempt (Arena.failsWith_header ⟨_, rfl⟩)

theorem sameRoom_readField (item : Item) (reach : layout.Reaches → headerSize + offset + wordSize < wordLimit) :
    (readField item offset).Meets (sameRoom layout) := by
  cases item <;>
  · refine meets_bind meets_get ?_
    intro p
    refine meets_bind (sameRoom_payloadAddress _ reach) ?_
    intro addr
    exact sameRoom_attempt (Arena.failsWith_readWord ⟨_, rfl⟩)

theorem sameRoom_writeField (item : Item) (value : Nat)
    (reach : layout.Reaches → headerSize + offset + wordSize < wordLimit) :
    (writeField item offset value).Meets (sameRoom layout) := by
  intro p
  have unreached (obj : Nat) : ∀ f, payloadAddress obj offset = .error f → layout.Reaches → f.IsRefusal :=
    fun f hf reaches => failsWith_payloadAddress (reach reaches) (fun cause => ⟨cause, rfl⟩) f hf
  cases item with
  | root obj =>
    rw [writeField, ends_bind, ends_get, ends_bind, ends_ofAttempt]
    refine ⟨?_, fun f hf => ⟨.refl p, unreached obj f hf⟩⟩
    intro addr _
    rw [ends_bind, ends_ofAttempt]
    refine ⟨?_, fun f hf => ⟨.refl p, fun _ => Arena.failsWith_writeWord ⟨_, rfl⟩ f hf⟩⟩
    intro nursery stored
    exact SameRoom.setNursery (.writeWord .refl stored)
  | twin obj =>
    rw [writeField, ends_bind, ends_get, ends_bind, ends_ofAttempt]
    refine ⟨?_, fun f hf => ⟨.refl p, unreached obj f hf⟩⟩
    intro addr _
    rw [ends_bind, ends_ofAttempt]
    refine ⟨?_, fun f hf => ⟨.refl p, fun _ => Arena.failsWith_writeWord ⟨_, rfl⟩ f hf⟩⟩
    intro shared stored
    exact SameRoom.setShared (.writeWord .refl stored)

theorem sameRoom_moveToken (obj twin : Nat) : (moveToken obj twin).Meets (sameRoom layout) := by
  refine meets_modify ?_
  intro p
  split <;> exact ⟨.refl, .refl, rfl, rfl, rfl, rfl, rfl, rfl⟩

theorem sameRoom_redirectWeak (image : Nat) : (redirectWeak image).Meets (sameRoom layout) := by
  refine meets_bind (meets_modify fun p => ⟨.refl, .refl, rfl, rfl, rfl, rfl, rfl, rfl⟩) ?_
  intro _
  exact meets_pure image

theorem sameRoom_clearWeak (thread value : Nat) : (clearWeak thread value).Meets (sameRoom layout) := by
  refine meets_bind (meets_modify fun p => ⟨.refl, .refl, rfl, rfl, rfl, rfl, rfl, rfl⟩) ?_
  intro _
  refine meets_bind (sameRoom_note rfl) ?_
  intro _
  exact meets_pure 0

theorem sameRoom_weakImage (thread value : Nat) : (weakImage thread value).Meets (sameRoom layout) := by
  refine meets_bind meets_get ?_
  intro p
  split
  · exact meets_pure 0
  · exact sameRoom_redirectWeak _
  · exact meets_pure value
  · exact sameRoom_refuse _
  · refine meets_bind meets_get ?_
    intro p
    refine meets_bind (sameRoom_attempt (Arena.failsWith_header ⟨_, rfl⟩)) ?_
    intro header
    split
    · exact sameRoom_redirectWeak _
    · exact sameRoom_refuse _
    · exact sameRoom_clearWeak _ _

/-! ## Visits -/

theorem meets_replaceField {image : Nat → Prepare Nat} (room : (sameRoom layout).Implies G) (item : Item)
    (himage : ∀ value, (image value).Meets G) (reach : layout.Reaches → headerSize + offset + wordSize < wordLimit) :
    (replaceField item image offset).Meets G := by
  refine meets_bind ((sameRoom_readField item reach).imply room) ?_
  intro value
  refine meets_bind (himage value) ?_
  intro new
  split
  · exact meets_pure ()
  · exact (sameRoom_writeField item new reach).imply room

theorem sameRoom_settleWeak (thread : Nat) (item : Item) : (settleWeak layout thread item).Meets (sameRoom layout) := by
  refine meets_bind (sameRoom_headerOf item) ?_
  intro header
  split
  · rename_i offset weak
    exact meets_replaceField (.refl _) item (sameRoom_weakImage thread) fun reaches => reaches _ _ (.inr weak)
  · exact meets_pure ()

namespace Covers

variable (h : Covers layout G)
include h

theorem makeTwin (thread obj : Nat) (header : Header) : (makeTwin thread obj header layout).Meets G := by
  intro p
  rw [Prepare.makeTwin, ends_bind, ends_ofAttempt]
  refine ⟨?_, fun f unsized => ⟨G.refl p, h.unsized unsized⟩⟩
  intro size sized
  have header_le := Layout.headerSize_le_objectSize sized
  rw [ends_bind, takeRoom, ends_bind, ends_get, ends_bind, ends_ofAttempt]
  refine ⟨?_, fun f full => ⟨G.refl p, h.full full⟩⟩
  rintro ⟨twin, buffer, shared⟩ allocated
  rw [ends_bind, ends_set, ends_pure]
  -- from here on all steps leave the room as it is, until the twin is entered
  suffices rest : Ends _ (p.take twin buffer shared)
      (fun _ q => ∃ r, (p.take twin buffer shared).SameRoom r ∧ q = r.promote thread obj twin size)
      (fun f q => (p.take twin buffer shared).SameRoom q ∧ (layout.Reaches → f.IsRefusal)) by
    refine rest.mono ?_ ?_
    · rintro _ _ ⟨r, same, rfl⟩
      exact h.made thread obj header_le allocated same
    · intro f q failed
      exact ⟨h.taken header_le allocated failed.1, h.room.fails failed.2⟩
  generalize p.take twin buffer shared = p
  rw [ends_bind, ends_get, ends_bind, ends_ofAttempt]
  refine ⟨?_, fun f hf => ⟨.refl p, fun _ => Arena.failsWith_read ⟨_, rfl⟩ f hf⟩⟩
  intro bytes _
  rw [ends_bind, ends_ofAttempt]
  refine ⟨?_, fun f hf => ⟨.refl p, fun _ => Arena.failsWith_write ⟨_, rfl⟩ f hf⟩⟩
  intro copied wrote
  rw [ends_bind, ends_ofAttempt]
  refine ⟨?_, fun f hf => ⟨.refl p, fun _ => Arena.failsWith_setHeader ⟨_, rfl⟩ f hf⟩⟩
  intro headed stored
  have same := SameRoom.setShared (p := p) ((Arena.Stored.refl.write wrote).setHeader stored)
  rw [ends_bind, setShared, ends_modify, ends_bind, ends_ofAttempt]
  refine ⟨?_, fun f hf => ⟨same, fun _ => Attempt.failsWith_ofOption ⟨_, rfl⟩ f hf⟩⟩
  intro forwarded _
  rw [ends_bind, ends_ofAttempt]
  refine ⟨?_, fun f hf => ⟨same, fun _ => Arena.failsWith_setHeader ⟨_, rfl⟩ f hf⟩⟩
  intro nursery marked
  have same := same.trans (.setNursery (.setHeader .refl marked))
  rw [ends_bind, setNursery, ends_modify, ends_bind]
  refine (sameRoom_moveToken obj twin _).mono ?_ fun f q failed => ⟨same.trans failed.1, failed.2⟩
  intro _ q moved
  rw [ends_bind, ends_modify, ends_bind, note, ends_modify, ends_pure]
  exact ⟨q, same.trans moved, rfl⟩

theorem strongImage (thread value : Nat) : (strongImage layout thread value).Meets G := by
  refine meets_bind meets_get ?_
  intro p
  split
  · exact meets_pure 0
  · exact meets_pure _
  · exact meets_pure value
  · exact (sameRoom_refuse _).imply h.room
  · refine meets_bind meets_get ?_
    intro p
    refine meets_bind ((sameRoom_attempt (Arena.failsWith_header ⟨_, rfl⟩)).imply h.room) ?_
    intro header
    split
    · exact meets_pure _
    · exact (sameRoom_refuse _).imply h.room
    · exact h.makeTwin _ _ _

theorem visit (thread : Nat) (item : Item) : (visit layout thread item).Meets G := by
  refine meets_bind ((sameRoom_headerOf item).imply h.room) ?_
  intro header
  refine meets_bind (meets_modify fun p => h.room.rel ?_) ?_
  · split <;> exact ⟨.refl, .refl, rfl, rfl, rfl, rfl, rfl, rfl⟩
  intro _
  refine meets_forM ?_
  intro offset strong
  exact meets_replaceField h.room item (h.strongImage thread) fun reaches => reaches _ _ (.inl strong)

end Covers

end Prepare

end TxHeap

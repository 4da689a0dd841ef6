/-
  TxHeap.Proofs.Exhaustion — how a request for room ends.

  Sizes are rounded up twice: an object's to whole words (`Layout.objectSize`), and what is
  handed out of an arena to whole chunks when more memory is set aside (`Arena.backing`). Both
  form the sum of number and unit first. So an object has the least size that holds it unless
  this sum is no word (`objectSize_cases`), and a request is granted or refused for want of
  room unless the sum for the growth is no word (`Arena.Stops`, `allots_allocate`).

  Shared heaps end long before the last word, so none of theirs stops; a nursery can stop only
  if its reserve and the chunk size together are no word (`allocation_ends`). Both can happen
  under a configuration and types that passed their checks (`rounding_stops_where_room_is_known`).
-/
import Mathlib.Order.Bounds.Defs
import TxHeap.Proofs.Frozen

namespace TxHeap

/-! ## Sizes of objects -/

/-- Rounding up to words gives the least number of whole words. -/
theorem isLeast_roundUp (n : Nat) : IsLeast {m | wordSize ∣ m ∧ n ≤ m} ((n + wordSize - 1) / wordSize * wordSize) := by
  simp only [wordSize]
  refine ⟨⟨Nat.dvd_mul_left _ _, by omega⟩, ?_⟩
  rintro m ⟨⟨k, rfl⟩, le⟩
  omega

/-- An object of a known type has the least size for its header and payload, unless that much and another word is no word. -/
theorem Layout.objectSize_cases {layout : Layout} {typeId payload : Nat} (known : layout.payload? typeId = some payload) :
    (headerSize + payload + wordSize < wordLimit ∧ ∃ size, layout.objectSize typeId = .ok size ∧
      IsLeast {n | wordSize ∣ n ∧ headerSize + payload ≤ n} size) ∨
    (wordLimit ≤ headerSize + payload + wordSize ∧ layout.objectSize typeId = .error (.overflow .add)) := by
  rw [objectSize_eq known]
  by_cases fits : headerSize + payload + wordSize < wordLimit
  · exact .inl ⟨fits, _, if_pos fits, isLeast_roundUp _⟩
  · exact .inr ⟨Nat.not_lt.1 fits, if_neg fits⟩

namespace Arena

variable {a b : Arena} {size obj : Nat} {h : Header}

/-- There are addresses for the bytes, but the memory to set aside for them is rounded up through no word. -/
def Stops (a : Arena) (size : Nat) : Prop :=
  a.used + size ≤ a.reserve ∧ a.committed < a.used + size ∧ wordLimit ≤ a.used + size + a.chunkSize

inductive Allots (a : Arena) (size : Nat) : Outcome → Prop
  | granted : a.used + size ≤ a.reserve → ¬ a.Stops size → Allots a size (.ok (.address a.freePointer))
  | full : a.reserve < a.used + size → Allots a size (.error (.refused (.outOfSpace size a.remaining)))
  /-- There are addresses, but no memory. -/
  | unbacked {growth : Nat} : a.used + size ≤ a.reserve → ¬ a.Stops size → backingLimit ≤ growth →
      Allots a size (.error (.refused (.outOfSpace growth 0)))
  | stopped : a.Stops size → Allots a size (.error (.overflow .add))

def answer : Attempt (Nat × Arena) → Outcome
  | .ok (addr, _) => .ok (.address addr)
  | .error f => .error f

theorem allots_allocate (a : Arena) (size : Nat) : a.Allots size (answer (a.allocate size)) := by
  by_cases room : a.used + size ≤ a.reserve
  · rw [allocate, dif_pos room]
    by_cases held : a.used + size ≤ a.committed
    · rw [backing, if_pos held]
      exact .granted room fun stops => Nat.not_lt.2 held stops.2.1
    · have held := Nat.not_le.1 held
      by_cases word : a.used + size + a.chunkSize < wordLimit
      · have goes : ¬ a.Stops size := fun stops => Nat.not_lt.2 stops.2.2 word
        rw [backing_of_word held word]
        dsimp only
        generalize min _ a.reserve - a.committed = growth
        by_cases met : growth < backingLimit
        · rw [Attempt.demand_eq_ok (u := ()).2 met]
          exact .granted room goes
        · have refused : Attempt.demand (growth < backingLimit) (.outOfSpace growth 0) =
              .error (.refused (.outOfSpace growth 0)) := if_neg met
          rw [refused]
          exact .unbacked room goes (Nat.not_lt.1 met)
      · have stopped : Word.alignUp (a.used + size) a.chunkSize = .error .add := by
          rw [Word.alignUp, Word.add, if_neg word]
          rfl
        rw [backing, if_neg (Nat.not_le.2 held), stopped]
        exact .stopped ⟨room, held, Nat.not_lt.1 word⟩
  · rw [allocate, dif_neg room]
    exact .full (Nat.not_le.1 room)

/-- An object is placed where its bytes are to be had. -/
theorem answer_place (a : Arena) (h : Header) (size : Nat) (le : headerSize ≤ size) :
    answer (a.place size h) = answer (a.allocate size) := by
  rw [place]
  cases given : a.allocate size with
  | error f => rfl
  | ok pair =>
    obtain ⟨addr, b⟩ := pair
    obtain ⟨rfl, grew⟩ := grew_of_allocate given
    obtain ⟨b', stored⟩ : ∃ b', b.setHeader a.freePointer h = .ok b' :=
      ⟨_, setHeader_eq_ok.2 ⟨spans_of_grew grew le, rfl⟩⟩
    show answer (do let b' ← b.setHeader a.freePointer h; pure (a.freePointer, b')) = _
    rw [stored]
    rfl

end Arena

namespace Session

variable {s : Session} {t size typeId : Nat} {a : Arena}

/-- Where a thread makes objects: the main thread in the shared heap, a worker in the nursery of an active transaction. -/
inductive AllocatesIn (s : Session) : Nat → Arena → Prop
  | main {h : Handle} : s.handle? mainThread = some h → AllocatesIn s mainThread s.heap.shared
  | worker {t : Nat} {tx : Transaction} : t ≠ mainThread → s.tx? t = some tx → tx.phase = .active →
      AllocatesIn s t tx.nursery

theorem AllocatesIn.handle (h : s.AllocatesIn t a) : ∃ x, s.handle? t = some x := by
  cases h with
  | main hh => exact ⟨_, hh⟩
  | worker _ htx _ =>
    obtain ⟨x, hh, -⟩ := handle_of_tx? htx
    exact ⟨x, hh⟩

open Step TxHeap.Action

theorem AllocatesIn.bump (h : s.AllocatesIn t a) (size : Nat) :
    (s.step (.bump t size)).1 = Arena.answer (a.allocate size) := by
  cases h with
  | main hh =>
    rw [step_map rfl]
    simp only [Action.bump, bind_apply, handle_of_handle? hh, if_pos, get_apply]
    cases s.heap.shared.allocate size <;> rfl
  | worker worker htx _ =>
    rw [step_bump htx worker]
    split <;> rename_i e <;> rw [e] <;> rfl

theorem AllocatesIn.create (h : s.AllocatesIn t a) (sized : s.heap.layout.objectSize typeId = .ok size) :
    (s.step (.create t typeId)).1 = Arena.answer (a.allocate size) := by
  have le := Layout.headerSize_le_objectSize sized
  cases h with
  | main hh =>
    rw [← Arena.answer_place s.heap.shared (.new typeId Flag.global) size le, step_map rfl]
    simp only [Action.create, bind_apply, handle_of_handle? hh, get_apply, sized, ofAttempt_ok, pure_apply, placeObject,
      if_pos]
    cases s.heap.shared.place size (.new typeId Flag.global) <;> rfl
  | @worker _ tx worker htx active =>
    obtain ⟨x, hh, -⟩ := handle_of_tx? htx
    have phase : tx.requirePhase "malloc" .active = .ok () := requirePhase_eq_ok.2 active
    rw [← Arena.answer_place tx.nursery (.new typeId 0) size le, step_map rfl]
    simp only [Action.create, bind_apply, handle_of_handle? hh, get_apply, sized, ofAttempt_ok, pure_apply, placeObject,
      if_neg worker, openTx_of_tx? htx, phase]
    cases tx.nursery.place size (.new typeId 0) <;> rfl

end Session

/-- A shared heap never stops: its last chunk ends inside the words. -/
theorem Arena.Roomy.not_stops {a : Arena} {size : Nat} (h : a.Roomy) : ¬ a.Stops size := fun stops => by
  have := stops.1
  have := stops.2.2
  rw [Arena.Roomy] at h
  omega

variable {config : Config} {layout : Layout} {log : EventLog} {s : Session}

/-- Whatever was called before: a size is the least that holds the object, and room is had or
    refused, unless rounding up forms a sum that is no word. That never happens in the shared
    heap, nor where a nursery and another chunk are a word. -/
theorem allocation_ends (fits : config.Fits) (created : Session.create config layout log = .ok s) (cs : List Command) :
    (∀ typeId payload, layout.payload? typeId = some payload →
      (headerSize + payload + wordSize < wordLimit ∧ ∃ size, layout.objectSize typeId = .ok size ∧
        IsLeast {n | wordSize ∣ n ∧ headerSize + payload ≤ n} size) ∨
      (wordLimit ≤ headerSize + payload + wordSize ∧ layout.objectSize typeId = .error (.overflow .add))) ∧
    ∀ t a, (s.run cs).2.AllocatesIn t a →
      (∀ size, a.Allots size ((s.run cs).2.step (.bump t size)).1) ∧
      (∀ typeId size, layout.objectSize typeId = .ok size → a.Allots size ((s.run cs).2.step (.create t typeId)).1) ∧
      (∀ typeId f, layout.objectSize typeId = .error f → ((s.run cs).2.step (.create t typeId)).1 = .error f) ∧
      ∀ size, a.Stops size → t ≠ mainThread ∧ wordLimit ≤ config.nurseryReserve + config.chunkSize := by
  have start := Windowed.create fits created
  obtain ⟨windowed, same⟩ := start.run cs
  have sameLayout : (s.run cs).2.heap.layout = layout := (start.layout_run cs).trans (new_of_create created).layout
  refine ⟨fun typeId payload known => Layout.objectSize_cases known, fun t a allocates => ⟨?_, ?_, ?_, ?_⟩⟩
  · intro size
    rw [allocates.bump]
    exact a.allots_allocate size
  · intro typeId size sized
    rw [allocates.create (sameLayout ▸ sized)]
    exact a.allots_allocate size
  · intro typeId f failed
    obtain ⟨h, hh⟩ := allocates.handle
    rw [step_create_of_error hh (sameLayout ▸ failed)]
  · intro size stops
    cases allocates with
    | main => exact absurd stops windowed.roomy.not_stops
    | worker worker htx _ =>
      have config' : s.heap.config = config := (new_of_create created).config
      have reserve := (windowed.windows _ _ htx).2
      have chunk := windowed.chunks _ _ htx
      rw [same, config'] at reserve chunk
      have inside := stops.1
      have sum := stops.2.2
      exact ⟨worker, by omega⟩

/-! ## Sums that are no words -/

/-- Chunks of half the address space, and a nursery of the same size. -/
def Config.coarse : Config := ⟨65536, 1 <<< 63, 1 <<< 63, 256, 1, false, true⟩

theorem Config.coarse_fits : coarse.Fits := by constructor <;> decide

/-- One type; its objects would end with the last word but one. -/
def Registry.brink : Registry := ⟨#[⟨"brink", wordLimit - 24, ⟨0⟩, none⟩]⟩

theorem Registry.brink_built : brink.Built := by
  have registered : empty.register ⟨"brink", wordLimit - 24, ⟨0⟩, none⟩ = .ok (0, brink) := rfl
  exact .register .empty registered

def Session.ofBrink : Session :=
  (Session.create .coarse Registry.brink.layout (.new {})).toOption.get (by decide +kernel)

theorem create_ofBrink : Session.create .coarse Registry.brink.layout (.new {}) = .ok .ofBrink := rfl

def Command.opened : List Command := [.attachMain, .attachWorker, .start 1]

theorem allocatesIn_opened : ∃ a, (Session.ofBrink.run Command.opened).2.AllocatesIn 1 a ∧ a.used = 0 ∧
    a.remaining = 1 <<< 63 := by
  have active : ((Session.ofBrink.run Command.opened).2.tx? 1).any (fun tx => decide (tx.phase = .active) &&
      decide (tx.nursery.used = 0) && decide (tx.nursery.remaining = 1 <<< 63)) = true := by decide +kernel
  obtain ⟨tx, htx, found⟩ := (Option.any_eq_true _ _).1 active
  simp only [Bool.and_eq_true, decide_eq_true_eq] at found
  exact ⟨tx.nursery, .worker (by decide) htx found.1.1, found.1.2, found.2⟩

/-- A quarter of the address space is more than there is memory for; half of it is not even asked for. -/
theorem allocation_ends_ofBrink :
    Config.coarse.Fits ∧ Session.create .coarse Registry.brink.layout (.new {}) = .ok .ofBrink ∧
      ∃ a, (Session.ofBrink.run Command.opened).2.AllocatesIn 1 a ∧
        a.Allots (1 <<< 62) (.error (.refused (.outOfSpace (1 <<< 63) 0))) ∧
        a.Allots (1 <<< 63) (.error (.overflow .add)) ∧
        ((Session.ofBrink.run Command.opened).2.step (.create 1 0)).1 = .error (.overflow .add) := by
  obtain ⟨a, allocates, -⟩ := allocatesIn_opened
  have ends := (allocation_ends Config.coarse_fits create_ofBrink Command.opened).2 1 a allocates
  have quarter : ((Session.ofBrink.run Command.opened).2.step (.bump 1 (1 <<< 62))).1 =
      .error (.refused (.outOfSpace (1 <<< 63) 0)) := by decide +kernel
  have half : ((Session.ofBrink.run Command.opened).2.step (.bump 1 (1 <<< 63))).1 = .error (.overflow .add) := by
    decide +kernel
  have size : Registry.brink.layout.objectSize 0 = .error (.overflow .add) := rfl
  exact ⟨Config.coarse_fits, create_ofBrink, a, allocates, quarter ▸ ends.1 _, half ▸ ends.1 _, ends.2.2.1 0 _ size⟩

/-- A configuration and a type that passed their checks: the object's size is a word and the nursery has
    the room, and yet the sums formed on the way are no words. -/
theorem rounding_stops_where_room_is_known :
    Config.coarse.check = .ok () ∧ Registry.brink.Built ∧
      (IsLeast {n | wordSize ∣ n ∧ headerSize + (wordLimit - 24) ≤ n} (wordLimit - 8) ∧
        Registry.brink.layout.payload? 0 = some (wordLimit - 24) ∧
        Registry.brink.layout.objectSize 0 = .error (.overflow .add)) ∧
      ∃ a, (Session.ofBrink.run Command.opened).2.AllocatesIn 1 a ∧ a.used = 0 ∧ a.remaining = 1 <<< 63 ∧
        ((Session.ofBrink.run Command.opened).2.step (.bump 1 (1 <<< 63))).1 = .error (.overflow .add) := by
  obtain ⟨a, allocates, used, remaining⟩ := allocatesIn_opened
  exact ⟨rfl, Registry.brink_built, ⟨isLeast_roundUp _, rfl, rfl⟩, a, allocates, used, remaining, by decide +kernel⟩

end TxHeap

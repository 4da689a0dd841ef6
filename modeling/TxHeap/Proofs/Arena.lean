/-
  TxHeap.Proofs.Arena — what the operations of an arena do when they succeed.

  An access succeeds exactly when it stays inside the bytes handed out (`Arena.Spans`), and
  then it is the same access to the memory. An allocation moves the free pointer and
  touches no byte (`Arena.Grew`); where rounding up to the next chunk stays inside the
  words, it fails only for want of room (`allocate_refused`).
-/
import TxHeap.Arena
import TxHeap.Call.Access
import TxHeap.Proofs.Bytes

namespace TxHeap

theorem Attempt.demand_eq_ok {condition : Prop} [Decidable condition] {cause : Refusal} {u : Unit} :
    Attempt.demand condition cause = .ok u ↔ condition :=
  require_eq_ok

theorem Attempt.demand_bind_eq_ok {α : Type} {condition : Prop} [Decidable condition] {cause : Refusal}
    {f : Unit → Attempt α} {a : α} :
    (Attempt.demand condition cause >>= f) = .ok a ↔ condition ∧ f () = .ok a := by
  rw [Attempt.bind_eq_ok]
  constructor
  · intro found
    obtain ⟨_, hc, hf⟩ := found
    exact ⟨Attempt.demand_eq_ok.1 hc, hf⟩
  · intro found
    obtain ⟨hc, hf⟩ := found
    exact ⟨(), Attempt.demand_eq_ok.2 hc, hf⟩

namespace Arena

variable {a b : Arena} {addr len size value obj : Nat}

def Spans (a : Arena) (addr len : Nat) : Prop := a.start ≤ addr ∧ addr + len ≤ a.freePointer

structure Grew (a b : Arena) (size : Nat) : Prop where
  start : b.start = a.start
  reserve : b.reserve = a.reserve
  chunkSize : b.chunkSize = a.chunkSize
  used : b.used = a.used + size
  memory : b.memory = a.memory

theorem contains_iff : a.contains addr = true ↔ a.start ≤ addr ∧ addr < a.freePointer := by
  simp only [contains, decide_eq_true_eq, freePointer]
  omega

theorem freePointer_lt (a : Arena) : a.freePointer < wordLimit := by
  have := a.end_lt
  have := a.used_le
  simp only [freePointer]
  omega

theorem Grew.freePointer (h : a.Grew b size) : b.freePointer = a.freePointer + size := by
  simp only [Arena.freePointer, h.start, h.used, Nat.add_assoc]

/-! ## Accesses -/

theorem read_eq_ok {bytes : List UInt8} :
    a.read addr len = .ok bytes ↔ a.Spans addr len ∧ a.memory.read addr len = bytes := by
  rw [read, checkAccess, Attempt.demand_bind_eq_ok]
  exact and_congr Iff.rfl (by simp [pure, Except.pure])

theorem read_eq_error {f : Failure} :
    a.read addr len = .error f ↔ ¬ a.Spans addr len ∧ f = .refused (.invalidAccess addr len) := by
  have checked : a.checkAccess addr len = .error f ↔ ¬ a.Spans addr len ∧ f = .refused (.invalidAccess addr len) :=
    require_eq_error
  rw [← checked, read]
  cases a.checkAccess addr len with
  | ok u => exact ⟨nofun, nofun⟩
  | error f' => simp [bind, Except.bind]

theorem write_eq_ok {bytes : List UInt8} :
    a.write addr bytes = .ok b ↔
      a.Spans addr bytes.length ∧ { a with memory := a.memory.write addr bytes } = b := by
  rw [write, checkAccess, Attempt.demand_bind_eq_ok]
  exact and_congr Iff.rfl (by simp [pure, Except.pure])

theorem readWord_eq_ok : a.readWord addr = .ok value ↔ a.Spans addr wordSize ∧ a.memory.readWord addr = value := by
  rw [readWord, checkAccess, Attempt.demand_bind_eq_ok]
  exact and_congr Iff.rfl (by simp [pure, Except.pure])

theorem writeWord_eq_ok :
    a.writeWord addr value = .ok b ↔
      a.Spans addr wordSize ∧ { a with memory := a.memory.writeWord addr value } = b := by
  rw [writeWord, checkAccess, Attempt.demand_bind_eq_ok]
  exact and_congr Iff.rfl (by simp [pure, Except.pure])

theorem header_eq_ok {h : Header} : a.header obj = .ok h ↔ a.Spans obj headerSize ∧ a.memory.headerAt obj = h := by
  rw [header, checkAccess, Attempt.demand_bind_eq_ok]
  exact and_congr Iff.rfl (by simp [pure, Except.pure, Memory.headerAt])

theorem setHeader_eq_ok {h : Header} :
    a.setHeader obj h = .ok b ↔
      a.Spans obj headerSize ∧ { a with memory := a.memory.setHeaderAt obj h } = b := by
  rw [setHeader, checkAccess, Attempt.demand_bind_eq_ok]
  exact and_congr Iff.rfl (by simp [pure, Except.pure, Memory.setHeaderAt])

/-- What is handed out does not depend on the bytes. -/
theorem header_memory_eq_ok {memory : Memory} {h : Header} :
    header { a with memory } obj = .ok h ↔ a.Spans obj headerSize ∧ memory.headerAt obj = h :=
  header_eq_ok

theorem header_of_setHeader {h : Header} (fits : h.Fits) (stored : a.setHeader obj h = .ok b) : b.header obj = .ok h := by
  obtain ⟨spans, rfl⟩ := setHeader_eq_ok.1 stored
  rw [header_memory_eq_ok]
  exact ⟨spans, Memory.headerAt_setHeaderAt fits⟩

/-- A header stored where it was read changes nothing. -/
theorem setHeader_of_header {h : Header} (found : a.header obj = .ok h) : a.setHeader obj h = .ok a := by
  obtain ⟨spans, rfl⟩ := header_eq_ok.1 found
  rw [setHeader_eq_ok, Memory.setHeaderAt_headerAt]
  exact ⟨spans, rfl⟩

/-! ## Allocation -/

theorem grew_of_allocate (h : a.allocate size = .ok (addr, b)) : addr = a.freePointer ∧ a.Grew b size := by
  unfold allocate at h
  split at h
  · obtain ⟨committed, _, hb⟩ := Attempt.bind_eq_ok.1 h
    cases hb
    exact ⟨rfl, rfl, rfl, rfl, rfl, rfl⟩
  · exact absurd h Attempt.refuse_ne_ok

theorem spans_of_grew (h : a.Grew b size) (hlen : len ≤ size) : b.Spans a.freePointer len := by
  refine ⟨?_, ?_⟩
  · rw [h.start]
    exact Nat.le_add_right _ _
  · rw [h.freePointer]
    omega

/-- The object placed: room for it at the free pointer, and its header there. -/
theorem place_eq_ok {h : Header} (hp : a.place size h = .ok (obj, b)) :
    ∃ grown : Arena, a.allocate size = .ok (obj, grown) ∧ grown.Spans obj headerSize ∧
      { grown with memory := grown.memory.setHeaderAt obj h } = b := by
  rw [place, Attempt.bind_eq_ok] at hp
  obtain ⟨⟨obj', grown⟩, ha, hs⟩ := hp
  obtain ⟨b', hset, hpair⟩ := Attempt.bind_eq_ok.1 hs
  cases hpair
  exact ⟨grown, ha, setHeader_eq_ok.1 hset⟩

/-- More memory is set aside in whole chunks, as far as the reserve goes. -/
theorem backing_of_word (held : a.committed < len) (word : len + a.chunkSize < wordLimit) :
    a.backing len = (do
      let target := min ((len + a.chunkSize - 1) / a.chunkSize * a.chunkSize) a.reserve
      Attempt.demand (target - a.committed < backingLimit) (.outOfSpace (target - a.committed) 0)
      return target) := by
  have sum : Word.add len a.chunkSize = .ok (len + a.chunkSize) := Word.add_eq_ok.2 ⟨word, rfl⟩
  rw [backing, if_neg (Nat.not_le.2 held), Word.alignUp, sum]
  rfl

/-- An allocation fails only for want of room where no word overflows in rounding up to a chunk. -/
theorem allocate_refused {f : Failure} (fits : a.reserve + a.chunkSize < wordLimit)
    (h : a.allocate size = .error f) : ∃ requested available, f = .refused (.outOfSpace requested available) := by
  unfold allocate at h
  split at h
  · rename_i hroom
    cases hb : a.backing (a.used + size) with
    | ok committed => rw [hb] at h; cases h
    | error f' =>
      rw [hb] at h
      cases h
      by_cases held : a.used + size ≤ a.committed
      · rw [backing, if_pos held] at hb
        cases hb
      · rw [backing_of_word (Nat.not_le.1 held) (by omega)] at hb
        simp only [bind, Except.bind, pure, Except.pure] at hb
        split at hb
        · rename_i e he
          cases hb
          exact ⟨_, _, (require_eq_error.1 he).2⟩
        · cases hb
  · cases h
    exact ⟨_, _, rfl⟩

/-- An arena as it is set up: nothing is handed out. -/
theorem new_eq_ok {start reserve chunk : Nat} (h : Arena.new start reserve chunk = .ok a) :
    a.start = start ∧ a.reserve = reserve ∧ a.chunkSize = chunk ∧ a.used = 0 ∧ a.memory = .empty := by
  unfold Arena.new at h
  repeat' split at h
  all_goals cases h
  exact ⟨rfl, rfl, rfl, rfl, rfl⟩

end Arena

/-! ## Addresses of fields -/

/-- A payload offset is an address where the sums formed on the way are words. -/
theorem payloadAddress_eq {obj offset : Nat} (reach : headerSize + offset + wordSize < wordLimit)
    (h : obj + (headerSize + offset) < wordLimit) :
    payloadAddress obj offset = .ok (obj + (headerSize + offset)) := by
  have inner : Word.add headerSize offset = .ok (headerSize + offset) := Word.add_eq_ok.2 ⟨by omega, rfl⟩
  have outer : Word.add (headerSize + offset) wordSize = .ok (headerSize + offset + wordSize) :=
    Word.add_eq_ok.2 ⟨reach, rfl⟩
  simp only [payloadAddress, inner, outer, Attempt.arith, bind, Except.bind, Word.add?]
  rw [if_pos h]
  rfl

theorem payloadAddress_eq_ok {obj offset addr : Nat} (h : payloadAddress obj offset = .ok addr) :
    addr = obj + (headerSize + offset) := by
  simp only [payloadAddress, Attempt.bind_eq_ok, Attempt.arith_eq_ok, Word.add_eq_ok] at h
  obtain ⟨inner, ⟨-, rfl⟩, reach, -, h⟩ := h
  rw [Word.add?] at h
  split at h
  · cases h
    rfl
  · cases h

theorem Layout.fieldAddress_eq_ok {layout : Layout} {obj typeId offset addr : Nat} :
    layout.fieldAddress obj typeId offset = .ok addr ↔
      ∃ payload, layout.payload? typeId = some payload ∧ headerSize + offset < wordLimit ∧
        offset + wordSize ≤ payload ∧ obj + (headerSize + offset) < wordLimit ∧
        addr = obj + (headerSize + offset) := by
  unfold fieldAddress
  cases layout.payload? typeId with
  | none => simp
  | some payload =>
    simp only [Attempt.bind_eq_ok, Attempt.arith_eq_ok, Word.add_eq_ok, Option.some.injEq, exists_eq_left']
    constructor
    · intro found
      obtain ⟨inner, ⟨hinner, rfl⟩, hfield⟩ := found
      split at hfield
      · rename_i hc
        cases hfield
        exact ⟨hinner, hc.1, hc.2, rfl⟩
      · exact absurd hfield Attempt.refuse_ne_ok
    · intro found
      obtain ⟨hinner, hoff, hobj, rfl⟩ := found
      refine ⟨headerSize + offset, ⟨hinner, rfl⟩, ?_⟩
      rw [if_pos ⟨hoff, hobj⟩]
      rfl

end TxHeap

/-
  TxHeap.Proofs.ByteMap — an arena as a map from addresses to bytes that grows at its end.

  `ByteMap` is the whole of what an arena shows: the bytes handed out so far, in a row from
  the first address. It takes new bytes only as zeros and only while they fit, and it knows
  neither chunks nor memory set aside. Whatever an arena is asked, it answers like this map
  (`perform_agrees` for one request, `run_agrees` for a list of them, `answers_eq_byteMap` for
  an arena from its set-up on); so the chunk size shows in nothing but the memory set aside.

  Fresh bytes are zero because no store reaches past the free pointer (`Arena.Blank`), and
  there is always memory for them because rounding up to a chunk stays inside the words and
  a small arena asks for less than the limit (`Arena.Backed`).
-/
import TxHeap.Proofs.Ground

namespace TxHeap

namespace Arena

inductive Request where
  | allocate (size : Nat)
  | contains (addr : Nat)
  | read (addr len : Nat)
  | write (addr : Nat) (bytes : List UInt8)
  | readWord (addr : Nat)
  | writeWord (addr value : Nat)
  | header (obj : Nat)
  | setHeader (obj : Nat) (h : Header)

inductive Answer where
  | done
  | address (addr : Nat)
  | held (inside : Bool)
  | bytes (bytes : List UInt8)
  | word (value : Nat)
  | header (h : Header)
  deriving DecidableEq, Repr

def perform (a : Arena) : Request → Attempt (Answer × Arena)
  | .allocate size => do
    let (addr, b) ← a.allocate size
    return (.address addr, b)
  | .contains addr => return (.held (a.contains addr), a)
  | .read addr len => return (.bytes (← a.read addr len), a)
  | .write addr bytes => return (.done, ← a.write addr bytes)
  | .readWord addr => return (.word (← a.readWord addr), a)
  | .writeWord addr value => return (.done, ← a.writeWord addr value)
  | .header obj => return (.header (← a.header obj), a)
  | .setHeader obj h => return (.done, ← a.setHeader obj h)

/-- Answers requests one after the other; one that fails changes nothing. -/
def serve {σ : Type} (perform : σ → Request → Attempt (Answer × σ)) (s : σ) : List Request → List (Attempt Answer) × σ
  | [] => ([], s)
  | r :: rs =>
    match perform s r with
    | .ok (answer, s') => (.ok answer :: (serve perform s' rs).1, (serve perform s' rs).2)
    | .error f => (.error f :: (serve perform s rs).1, (serve perform s rs).2)

end Arena

open Arena (Request Answer serve)

/-! ## The map -/

/-- Bytes in a row from an address on, at most `reserve` of them. -/
structure ByteMap where
  start : Nat
  reserve : Nat
  bytes : List UInt8

namespace ByteMap

def new (start reserve : Nat) : ByteMap := ⟨start, reserve, []⟩

def byte? (m : ByteMap) (addr : Nat) : Option UInt8 :=
  if m.start ≤ addr then m.bytes[addr - m.start]? else none

def stop (m : ByteMap) : Nat := m.start + m.bytes.length

def allocate (m : ByteMap) (size : Nat) : Attempt (Nat × ByteMap) :=
  if m.bytes.length + size ≤ m.reserve then return (m.stop, { m with bytes := m.bytes ++ List.replicate size 0 })
  else Attempt.refuse (.outOfSpace size (m.reserve - m.bytes.length))

/-- The place in the row where an access starts; refused unless all its bytes are in the map. -/
def locate (m : ByteMap) (addr len : Nat) : Attempt Nat :=
  if m.start ≤ addr ∧ addr + len ≤ m.stop then return addr - m.start
  else Attempt.refuse (.invalidAccess addr len)

def store (m : ByteMap) (addr : Nat) (new : List UInt8) : Attempt ByteMap := do
  let k ← m.locate addr new.length
  return { m with bytes := overlay m.bytes k new }

def headerBytes (h : Header) : List UInt8 := Word.toBytes h.encode.1 ++ Word.toBytes h.encode.2

def perform (m : ByteMap) : Request → Attempt (Answer × ByteMap)
  | .allocate size => do
    let (addr, m') ← m.allocate size
    return (.address addr, m')
  | .contains addr => return (.held (m.byte? addr).isSome, m)
  | .read addr len => do
    let k ← m.locate addr len
    return (.bytes ((m.bytes.drop k).take len), m)
  | .write addr bytes => return (.done, ← m.store addr bytes)
  | .readWord addr => do
    let k ← m.locate addr wordSize
    return (.word (wordAt m.bytes k), m)
  | .writeWord addr value => return (.done, ← m.store addr (Word.toBytes value))
  | .header obj => do
    let k ← m.locate obj headerSize
    return (.header (.decode (wordAt m.bytes k) (wordAt m.bytes (k + wordSize))), m)
  | .setHeader obj h => return (.done, ← m.store obj (headerBytes h))

variable {m n : ByteMap} {addr len size : Nat}

theorem locate_of_inside (h : m.start ≤ addr ∧ addr + len ≤ m.stop) : m.locate addr len = .ok (addr - m.start) :=
  if_pos h

theorem locate_of_outside (h : ¬ (m.start ≤ addr ∧ addr + len ≤ m.stop)) :
    m.locate addr len = .error (.refused (.invalidAccess addr len)) :=
  if_neg h

@[simp] theorem length_headerBytes (h : Header) : (headerBytes h).length = headerSize := by
  simp [headerBytes, headerSize, wordSize]

/-- The map holds the addresses from its start to its stop. -/
theorem isSome_byte? : (m.byte? addr).isSome = true ↔ m.start ≤ addr ∧ addr < m.stop := by
  unfold byte? stop
  split
  · simp only [isSome_getElem?]
    omega
  · simp only [Option.isSome_none, Bool.false_eq_true, false_iff]
    omega

theorem store_eq_ok {bytes : List UInt8} : m.store addr bytes = .ok n ↔
    (m.start ≤ addr ∧ addr + bytes.length ≤ m.stop) ∧ { m with bytes := overlay m.bytes (addr - m.start) bytes } = n := by
  by_cases inside : m.start ≤ addr ∧ addr + bytes.length ≤ m.stop
  · rw [store, locate_of_inside inside, and_iff_right inside]
    simp [bind, Except.bind, pure, Except.pure]
  · rw [store, locate_of_outside inside]
    exact ⟨nofun, fun h => absurd h.1 inside⟩

theorem allocate_eq_ok : m.allocate size = .ok (addr, n) ↔
    m.bytes.length + size ≤ m.reserve ∧ m.stop = addr ∧ { m with bytes := m.bytes ++ List.replicate size 0 } = n := by
  unfold allocate
  split
  · rename_i room
    rw [and_iff_right room]
    simp [pure, Except.pure]
  · rename_i full
    exact ⟨fun h => absurd h Attempt.refuse_ne_ok, fun h => absurd h.1 full⟩

/-- A store changes the bytes it covers and no other. -/
theorem byte?_store {bytes : List UInt8} (h : m.store addr bytes = .ok n) (x : Nat) :
    n.byte? x = if addr ≤ x ∧ x < addr + bytes.length then bytes[x - addr]? else m.byte? x := by
  obtain ⟨inside, rfl⟩ := store_eq_ok.1 h
  simp only [stop] at inside
  unfold byte?
  simp only [getElem?_overlay (show addr - m.start + bytes.length ≤ m.bytes.length by omega)]
  by_cases hx : m.start ≤ x
  · have covered : addr - m.start ≤ x - m.start ∧ x - m.start < addr - m.start + bytes.length ↔
        addr ≤ x ∧ x < addr + bytes.length := by omega
    simp only [if_pos hx, covered]
    split
    · rw [show x - m.start - (addr - m.start) = x - addr by omega]
    · rfl
  · rw [if_neg hx, if_neg (by omega), if_neg hx]

/-- Fresh bytes are zero, and they lie behind all others. -/
theorem byte?_allocate (h : m.allocate size = .ok (addr, n)) (x : Nat) :
    n.byte? x = if addr ≤ x ∧ x < addr + size then some 0 else m.byte? x := by
  obtain ⟨-, rfl, rfl⟩ := allocate_eq_ok.1 h
  unfold byte? stop
  by_cases hx : m.start ≤ x
  · simp only [if_pos hx, List.getElem?_append, List.getElem?_replicate]
    split
    · rw [if_neg (by omega)]
    · split
      · rw [if_pos (by omega)]
      · rw [if_neg (by omega), List.getElem?_eq_none (by omega)]
  · rw [if_neg hx, if_neg (by omega), if_neg hx]

end ByteMap

/-! ## Memory behind an arena -/

theorem Memory.write_append (m : Memory) (addr : Nat) (xs ys : List UInt8) :
    m.write addr (xs ++ ys) = (m.write addr xs).write (addr + xs.length) ys := by
  induction xs generalizing m addr with
  | nil => rfl
  | cons x xs ih => rw [List.cons_append, write, write, ih, List.length_cons, Nat.add_right_comm, Nat.add_assoc]

theorem Memory.setHeaderAt_eq_write (m : Memory) (obj : Nat) (h : Header) :
    m.setHeaderAt obj h = m.write obj (ByteMap.headerBytes h) := by
  rw [ByteMap.headerBytes, write_append, Word.length_toBytes]
  rfl

namespace Arena

variable {a b : Arena} {m : ByteMap} {addr len size start reserve chunk : Nat}

/-- There is memory behind all that was handed out, and more can be had for all that is left. -/
structure Backed (a : Arena) (start reserve chunk : Nat) : Prop where
  start_eq : a.start = start
  reserve_eq : a.reserve = reserve
  chunk_eq : a.chunkSize = chunk
  pos : 0 < chunk
  roomy : reserve + chunk < wordLimit
  small : reserve < backingLimit
  blank : a.Blank
  used_le : a.used ≤ a.committed
  committed_le : a.committed ≤ reserve
  whole : chunk ∣ a.committed ∨ a.committed = reserve

/-- Memory is set aside in whole chunks, until the reserve is used up. -/
theorem Backed.backing (h : a.Backed start reserve chunk) (room : len ≤ reserve) :
    ∃ committed, a.backing len = .ok committed ∧ len ≤ committed ∧ committed ≤ reserve ∧
      (chunk ∣ committed ∨ committed = reserve) := by
  have roomy := h.roomy
  have small := h.small
  by_cases held : len ≤ a.committed
  · exact ⟨a.committed, if_pos held, held, h.committed_le, h.whole⟩
  · have word : len + chunk < wordLimit := by omega
    have aligned : Word.alignUp len chunk = .ok ((len + chunk - 1) / chunk * chunk) := by
      rw [Word.alignUp, Word.add_eq_ok.2 ⟨word, rfl⟩]
      rfl
    have enough := Word.le_of_alignUp h.pos aligned
    have whole : chunk ∣ (len + chunk - 1) / chunk * chunk := Nat.dvd_mul_left _ _
    rw [backing_of_word (Nat.not_le.1 held) (h.chunk_eq ▸ word), h.reserve_eq, h.chunk_eq]
    generalize (len + chunk - 1) / chunk * chunk = target at enough whole
    have met : min target reserve - a.committed < backingLimit := by omega
    refine ⟨min target reserve, ?_, by omega, Nat.min_le_right _ _, ?_⟩
    · dsimp only
      rw [Attempt.demand_eq_ok (u := ()).2 met]
      rfl
    · rcases Nat.le_total target reserve with le | le
      · exact .inl (by rwa [Nat.min_eq_left le])
      · exact .inr (Nat.min_eq_right le)

/-- An allocation is refused only where the reserve is too small. -/
theorem Backed.allocate (h : a.Backed start reserve chunk) (room : a.used + size ≤ a.reserve) :
    ∃ b, a.allocate size = .ok (a.freePointer, b) ∧ a.Grew b size ∧ b.Backed start reserve chunk := by
  obtain ⟨committed, found, enough, le, whole⟩ := h.backing (h.reserve_eq ▸ room)
  have grown : a.allocate size =
      .ok (a.freePointer, { a with used := a.used + size, committed, used_le := room }) := by
    rw [Arena.allocate, dif_pos room, found]
    rfl
  have grew := (grew_of_allocate grown).2
  exact ⟨_, grown, grew, h.start_eq, h.reserve_eq, h.chunk_eq, h.pos, h.roomy, h.small, h.blank.grow grew, enough, le, whole⟩

theorem Backed.store (h : a.Backed start reserve chunk) {bytes : List UInt8} (spans : a.Spans addr bytes.length) :
    Backed { a with memory := a.memory.write addr bytes } start reserve chunk :=
  { h with blank := h.blank.store fun _ past => Memory.get_write_of_apart (.inr (Nat.le_trans spans.2 past)) }

/-- An arena as it is set up, small enough for memory to be had. -/
theorem backed_of_new (new : Arena.new start reserve chunk = .ok a)
    (word : chunk < wordLimit) (small : reserve < backingLimit) : a.Backed start reserve chunk := by
  unfold Arena.new at new
  repeat' split at new
  all_goals cases new
  rename_i power
  have half := Word.le_of_isPowerOfTwo power word
  have pos : chunk ≠ 0 := by
    rintro rfl
    cases power
  have roomy : reserve + chunk < wordLimit := by
    simp only [wordLimit, backingLimit] at *
    omega
  exact ⟨rfl, rfl, rfl, Nat.pos_of_ne_zero pos, roomy, small, fun addr _ => Memory.get_empty addr, Nat.le_refl _,
    Nat.zero_le _, .inl (Nat.dvd_zero _)⟩

/-! ## Arenas and maps -/

structure Shows (a : Arena) (m : ByteMap) : Prop where
  start : m.start = a.start
  reserve : m.reserve = a.reserve
  length : m.bytes.length = a.used
  byte : ∀ x, a.contains x = true → m.byte? x = some (a.memory.get x)

namespace Shows

/-- The row of bytes is the stretch of memory from the start of the arena on. -/
theorem bytes (h : a.Shows m) : m.bytes = a.memory.read a.start a.used := by
  refine List.ext_getElem? fun i => ?_
  rw [Memory.getElem?_read]
  split
  · have found := h.byte (a.start + i) (by rw [contains_iff, freePointer]; omega)
    rwa [ByteMap.byte?, h.start, if_pos (Nat.le_add_right _ _), Nat.add_sub_cancel_left] at found
  · exact List.getElem?_eq_none (by rw [h.length]; omega)

theorem stop (h : a.Shows m) : m.stop = a.freePointer := by rw [ByteMap.stop, h.start, h.length, freePointer]

theorem locate (h : a.Shows m) (spans : a.Spans addr len) : m.locate addr len = .ok (addr - a.start) := by
  rw [← h.start]
  exact ByteMap.locate_of_inside (by rw [h.start, h.stop]; exact spans)

theorem locate_outside (h : a.Shows m) (outside : ¬ a.Spans addr len) :
    m.locate addr len = .error (.refused (.invalidAccess addr len)) :=
  ByteMap.locate_of_outside (by rw [h.start, h.stop]; exact outside)

theorem contains (h : a.Shows m) : a.contains addr = (m.byte? addr).isSome := by
  rw [Bool.eq_iff_iff, contains_iff, ByteMap.isSome_byte?, h.start, h.stop]

theorem read (h : a.Shows m) (spans : a.Spans addr len) :
    (m.bytes.drop (addr - a.start)).take len = a.memory.read addr len := by
  have := spans.1
  have := spans.2
  simp only [freePointer] at this
  rw [h.bytes, Memory.take_drop_read (by omega), Nat.add_sub_cancel' spans.1]

theorem readWord (h : a.Shows m) (spans : a.Spans addr wordSize) :
    wordAt m.bytes (addr - a.start) = a.memory.readWord addr := by
  rw [wordAt, h.read spans, Memory.readWord]

theorem header (h : a.Shows m) (spans : a.Spans addr headerSize) :
    Header.decode (wordAt m.bytes (addr - a.start)) (wordAt m.bytes (addr - a.start + wordSize)) =
      .decode (a.memory.readWord addr) (a.memory.readWord (addr + wordSize)) := by
  obtain ⟨from_start, to_free⟩ := spans
  simp only [headerSize] at to_free
  have second : wordAt m.bytes (addr + wordSize - a.start) = a.memory.readWord (addr + wordSize) :=
    h.readWord ⟨by omega, by omega⟩
  rw [Nat.sub_add_comm from_start] at second
  rw [h.readWord ⟨from_start, by omega⟩, second]

theorem grow {n : ByteMap} (h : a.Shows m) (blank : a.Blank) (g : a.Grew b size)
    (longer : m.allocate size = .ok (a.freePointer, n)) : b.Shows n := by
  obtain ⟨-, -, rfl⟩ := ByteMap.allocate_eq_ok.1 longer
  refine ⟨h.start.trans g.start.symm, h.reserve.trans g.reserve.symm, ?_, ?_⟩
  · rw [List.length_append, List.length_replicate, h.length, g.used]
  · intro x inside
    rw [contains_iff, freePointer, g.start, g.used] at inside
    rw [ByteMap.byte?_allocate longer, g.memory]
    split
    · rw [blank x (by omega)]
    · exact h.byte x (by rw [contains_iff]; simp only [freePointer] at *; omega)

theorem store {n : ByteMap} (h : a.Shows m) {bytes : List UInt8} (stored : m.store addr bytes = .ok n) :
    Shows { a with memory := a.memory.write addr bytes } n := by
  obtain ⟨inside, rfl⟩ := ByteMap.store_eq_ok.1 stored
  refine ⟨h.start, h.reserve, (length_overlay ?_).trans h.length, ?_⟩
  · simp only [ByteMap.stop] at inside
    omega
  · intro x held
    rw [ByteMap.byte?_store stored, Memory.get_write]
    split
    · rw [List.getD_eq_getElem?_getD, List.getElem?_eq_getElem (by omega), Option.getD_some]
    · exact h.byte x held

end Shows

/-- The same answer, from an arena and a map that go on together; or the same failure. -/
inductive Agree (start reserve chunk : Nat) : Attempt (Answer × Arena) → Attempt (Answer × ByteMap) → Prop
  | ok {b : Arena} {n : ByteMap} (answer : Answer) :
    b.Shows n → b.Backed start reserve chunk → Agree start reserve chunk (.ok (answer, b)) (.ok (answer, n))
  | error (f : Failure) : Agree start reserve chunk (.error f) (.error f)

section

variable (shown : a.Shows m) (backed : a.Backed start reserve chunk)

include shown

/-- Both sides refuse an access that leaves the bytes handed out, and go on with any other. -/
theorem agree_access {f : Unit → Attempt (Answer × Arena)} {g : Nat → Attempt (Answer × ByteMap)}
    (go : a.Spans addr len → Agree start reserve chunk (f ()) (g (addr - a.start))) :
    Agree start reserve chunk (a.checkAccess addr len >>= f) (m.locate addr len >>= g) := by
  by_cases spans : a.Spans addr len
  · have passed : a.checkAccess addr len = .ok () := if_pos spans
    rw [passed, shown.locate spans]
    exact go spans
  · have refused : a.checkAccess addr len = .error (.refused (.invalidAccess addr len)) := if_neg spans
    rw [refused, shown.locate_outside spans]
    exact .error _

include backed

theorem agree_store (bytes : List UInt8) :
    Agree start reserve chunk (do return (.done, ← a.write addr bytes)) (do return (.done, ← m.store addr bytes)) := by
  simp only [write, ByteMap.store, bind_assoc, pure_bind]
  refine agree_access shown fun spans => .ok .done (shown.store ?_) (backed.store spans)
  rw [ByteMap.store, shown.locate spans]
  rfl

theorem agree_allocate (size : Nat) : Agree start reserve chunk (a.perform (.allocate size)) (m.perform (.allocate size)) := by
  rw [perform, ByteMap.perform]
  by_cases room : a.used + size ≤ a.reserve
  · obtain ⟨b, grown, grew, kept⟩ := backed.allocate room
    have longer : m.allocate size = .ok (a.freePointer, { m with bytes := m.bytes ++ List.replicate size 0 }) := by
      rw [ByteMap.allocate, shown.length, shown.reserve, if_pos room, shown.stop]
      rfl
    rw [grown, longer]
    exact .ok _ (shown.grow backed.blank grew longer) kept
  · rw [Arena.allocate, dif_neg room, ByteMap.allocate, shown.length, shown.reserve, if_neg room]
    exact .error _

/-- Whatever is asked, arena and map answer alike. -/
theorem perform_agrees (r : Request) : Agree start reserve chunk (a.perform r) (m.perform r) := by
  cases r with
  | allocate size => exact agree_allocate shown backed size
  | contains addr =>
    rw [perform, ByteMap.perform, shown.contains]
    exact .ok _ shown backed
  | read addr len =>
    simp only [perform, ByteMap.perform, Arena.read, bind_assoc, pure_bind]
    refine agree_access shown fun spans => ?_
    rw [shown.read spans]
    exact .ok _ shown backed
  | write addr bytes => exact agree_store shown backed bytes
  | readWord addr =>
    simp only [perform, ByteMap.perform, Arena.readWord, bind_assoc, pure_bind]
    refine agree_access shown fun spans => ?_
    rw [shown.readWord spans]
    exact .ok _ shown backed
  | writeWord addr value => exact agree_store shown backed (Word.toBytes value)
  | header obj =>
    simp only [perform, ByteMap.perform, Arena.header, bind_assoc, pure_bind]
    refine agree_access shown fun spans => ?_
    rw [shown.header spans]
    exact .ok _ shown backed
  | setHeader obj h =>
    have stored : a.setHeader obj h = a.write obj (ByteMap.headerBytes h) := by
      rw [setHeader, write, ByteMap.length_headerBytes, ← Memory.setHeaderAt_eq_write]
      rfl
    rw [perform, stored]
    exact agree_store shown backed (ByteMap.headerBytes h)

/-- So are all answers to a list of requests, and what is there in the end. -/
theorem run_agrees (rs : List Request) :
    (serve perform a rs).1 = (serve ByteMap.perform m rs).1 ∧
      (serve perform a rs).2.Shows (serve ByteMap.perform m rs).2 ∧ (serve perform a rs).2.Backed start reserve chunk := by
  induction rs generalizing a m with
  | nil => exact ⟨rfl, shown, backed⟩
  | cons r rs ih =>
    have agreed := perform_agrees shown backed r
    rw [serve, serve]
    generalize perform a r = x, m.perform r = y at agreed
    rcases agreed with ⟨answer, shown', backed'⟩ | f
    · obtain ⟨answers, after⟩ := ih shown' backed'
      exact ⟨congrArg _ answers, after⟩
    · obtain ⟨answers, after⟩ := ih shown backed
      exact ⟨congrArg _ answers, after⟩

end

/-- An arena answers like a map that grows at its end, and the chunk size shows only in the memory set aside. -/
theorem answers_eq_byteMap (new : Arena.new start reserve chunk = .ok a) (word : chunk < wordLimit)
    (small : reserve < backingLimit) (rs : List Request) :
    let b := (serve perform a rs).2
    let m := (serve ByteMap.perform (.new start reserve) rs).2
    (serve perform a rs).1 = (serve ByteMap.perform (.new start reserve) rs).1 ∧
      b.start = start ∧ m.start = start ∧ b.used = m.bytes.length ∧ (∀ addr, b.contains addr = (m.byte? addr).isSome) ∧
      b.used ≤ b.committed ∧ b.committed ≤ reserve ∧ (chunk ∣ b.committed ∨ b.committed = reserve) := by
  obtain ⟨hstart, hreserve, -, hused, -⟩ := new_eq_ok new
  have shown : a.Shows (.new start reserve) := by
    refine ⟨hstart.symm, hreserve.symm, hused.symm, ?_⟩
    intro x inside
    rw [contains_iff, freePointer, hused] at inside
    omega
  obtain ⟨same, shown', backed⟩ := run_agrees shown (backed_of_new new word small) rs
  exact ⟨same, backed.start_eq, shown'.start.trans backed.start_eq, shown'.length.symm, fun _ => shown'.contains,
    backed.used_le, backed.committed_le, backed.whole⟩

/-- Unaligned words that overlap, a header over them, an access at the very end, and a request
    that does not fit: in chunks of 16 bytes, the last of them cut off. -/
theorem answers_of_overlapping_stores :
    let rs : List Request :=
      [.allocate 24, .writeWord 0x1003 0x0102030405060708, .writeWord 0x1007 0xffffffffffffffff, .readWord 0x1003,
        .read 0x1018 0, .read 0x1018 1, .allocate 20, .allocate 16, .setHeader 0x1011 ⟨7, 2, 0x100000000⟩,
        .header 0x1011, .read 0x100d 6, .contains 0x1027, .contains 0x1028]
    ∃ a, Arena.new 0x1000 40 16 = .ok a ∧ 16 < wordLimit ∧ 40 < backingLimit ∧
      (serve perform a rs).1 =
        [.ok (.address 0x1000), .ok .done, .ok .done, .ok (.word 0xffffffff05060708), .ok (.bytes []),
          .error (.refused (.invalidAccess 0x1018 1)), .error (.refused (.outOfSpace 20 16)), .ok (.address 0x1018),
          .ok .done, .ok (.header ⟨7, 2, 0x100000000⟩), .ok (.bytes [0xff, 0xff, 0, 0, 7, 0]), .ok (.held true),
          .ok (.held false)] ∧
      (serve perform a rs).2.committed = 40 := by
  intro rs
  obtain ⟨a, new⟩ : ∃ a, Arena.new 0x1000 40 16 = .ok a := ⟨_, rfl⟩
  obtain ⟨same, -, -, used, -, le, le', -⟩ := answers_eq_byteMap new (by decide) (by decide) rs
  have shown : (serve ByteMap.perform (.new 0x1000 40) rs).2.bytes.length = 40 := by decide +kernel
  exact ⟨a, new, by decide, by decide, same.trans rfl, by omega⟩

end Arena

end TxHeap

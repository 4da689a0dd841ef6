/-
  TxHeap.Arena — a reserved address range that is handed out from its start upwards.

  An arena is a range of `reserve` addresses of which the first `used` are handed out.
  Memory is set aside behind them in steps of `chunkSize`; a request for too much of it
  fails like a request for addresses. Every access is checked against the addresses
  handed out, and fresh bytes are zero.

  Every operation leaves the arena alone when it fails.
-/
import TxHeap.Failure
import TxHeap.Memory

namespace TxHeap

structure Arena where
  start : Nat
  reserve : Nat
  chunkSize : Nat
  /-- Bytes handed out. -/
  used : Nat
  /-- Bytes of memory set aside. -/
  committed : Nat
  memory : Memory
  start_pos : 0 < start
  end_lt : start + reserve < wordLimit
  used_le : used ≤ reserve

namespace Arena

/-- The least request for memory that is never met. -/
def backingLimit : Nat := 1 <<< 47

def new (start reserve chunkSize : Nat) : Except SetupError Arena :=
  if hs : start = 0 then .error .arenaAtNull
  else if reserve = 0 then .error .arenaEmpty
  else if he : start + reserve < wordLimit then
    if Word.isPowerOfTwo chunkSize then
      .ok { start, reserve, chunkSize, used := 0, committed := 0, memory := .empty
            start_pos := Nat.pos_of_ne_zero hs, end_lt := he, used_le := Nat.zero_le _ }
    else .error (.chunkNotPowerOfTwo chunkSize)
  else .error (.arenaOverflows start reserve)

def contains (a : Arena) (addr : Nat) : Bool := decide (a.start ≤ addr ∧ addr - a.start < a.used)

def freePointer (a : Arena) : Nat := a.start + a.used

def remaining (a : Arena) : Nat := a.reserve - a.used

/-- Bytes to be set aside once `len` bytes are handed out. -/
def backing (a : Arena) (len : Nat) : Attempt Nat :=
  if len ≤ a.committed then .ok a.committed
  else do
    let aligned ← Attempt.arith (Word.alignUp len a.chunkSize)
    let target := min aligned a.reserve
    Attempt.demand (target - a.committed < backingLimit) (.outOfSpace (target - a.committed) 0)
    return target

/-- Hands out the next `size` bytes, unrounded. -/
def allocate (a : Arena) (size : Nat) : Attempt (Nat × Arena) :=
  if h : a.used + size ≤ a.reserve then do
    let committed ← a.backing (a.used + size)
    return (a.freePointer, { a with used := a.used + size, committed, used_le := h })
  else Attempt.refuse (.outOfSpace size a.remaining)

def checkAccess (a : Arena) (addr len : Nat) : Attempt Unit :=
  Attempt.demand (a.start ≤ addr ∧ addr + len ≤ a.start + a.used) (.invalidAccess addr len)

def read (a : Arena) (addr len : Nat) : Attempt (List UInt8) := do
  a.checkAccess addr len
  return a.memory.read addr len

def write (a : Arena) (addr : Nat) (bytes : List UInt8) : Attempt Arena := do
  a.checkAccess addr bytes.length
  return { a with memory := a.memory.write addr bytes }

def readWord (a : Arena) (addr : Nat) : Attempt Nat := do
  a.checkAccess addr wordSize
  return a.memory.readWord addr

def writeWord (a : Arena) (addr value : Nat) : Attempt Arena := do
  a.checkAccess addr wordSize
  return { a with memory := a.memory.writeWord addr value }

def header (a : Arena) (obj : Nat) : Attempt Header := do
  a.checkAccess obj headerSize
  return .decode (a.memory.readWord obj) (a.memory.readWord (obj + wordSize))

def setHeader (a : Arena) (obj : Nat) (h : Header) : Attempt Arena := do
  a.checkAccess obj headerSize
  return { a with memory := (a.memory.writeWord obj h.encode.1).writeWord (obj + wordSize) h.encode.2 }

def place (a : Arena) (size : Nat) (h : Header) : Attempt (Nat × Arena) := do
  let (obj, a) ← a.allocate size
  return (obj, ← a.setHeader obj h)

/-! ## Room left -/

theorem remaining_allocate {a b : Arena} {size addr : Nat} (h : a.allocate size = .ok (addr, b)) :
    b.remaining + size = a.remaining := by
  unfold allocate at h
  split at h
  · obtain ⟨committed, _, hb⟩ := Attempt.bind_eq_ok.1 h
    cases hb
    simp only [remaining]
    omega
  · simp at h

theorem remaining_write {a b : Arena} {addr : Nat} {bytes : List UInt8} (h : a.write addr bytes = .ok b) :
    b.remaining = a.remaining := by
  rw [write, Attempt.bind_eq_ok] at h
  obtain ⟨_, _, hb⟩ := h
  cases hb
  simp only [remaining]

theorem remaining_writeWord {a b : Arena} {addr value : Nat} (h : a.writeWord addr value = .ok b) :
    b.remaining = a.remaining := by
  rw [writeWord, Attempt.bind_eq_ok] at h
  obtain ⟨_, _, hb⟩ := h
  cases hb
  simp only [remaining]

theorem remaining_setHeader {a b : Arena} {obj : Nat} {header : Header} (h : a.setHeader obj header = .ok b) :
    b.remaining = a.remaining := by
  rw [setHeader, Attempt.bind_eq_ok] at h
  obtain ⟨_, _, hb⟩ := h
  cases hb
  simp only [remaining]

/-- The arena after stores, all of them to bytes that are handed out. -/
inductive Stored (a : Arena) : Arena → Prop
  | refl : a.Stored a
  | write {b c : Arena} {addr : Nat} {bytes : List UInt8} : a.Stored b → b.write addr bytes = .ok c → a.Stored c
  | writeWord {b c : Arena} {addr value : Nat} : a.Stored b → b.writeWord addr value = .ok c → a.Stored c
  | setHeader {b c : Arena} {obj : Nat} {h : Header} : a.Stored b → b.setHeader obj h = .ok c → a.Stored c

theorem Stored.trans {a b c : Arena} (h : a.Stored b) (h' : b.Stored c) : a.Stored c := by
  induction h' with
  | refl => exact h
  | write _ stored ih => exact ih.write stored
  | writeWord _ stored ih => exact ih.writeWord stored
  | setHeader _ stored ih => exact ih.setHeader stored

theorem Stored.remaining {a b : Arena} (h : a.Stored b) : b.remaining = a.remaining := by
  induction h with
  | refl => rfl
  | write _ stored ih => rw [remaining_write stored, ih]
  | writeWord _ stored ih => rw [remaining_writeWord stored, ih]
  | setHeader _ stored ih => rw [remaining_setHeader stored, ih]

def describe (a : Arena) : String :=
  Text.record "Arena"
    [("start", Text.address a.start), ("reserve", toString a.reserve), ("used", toString a.used),
     ("committed", toString a.committed)]

end Arena

end TxHeap

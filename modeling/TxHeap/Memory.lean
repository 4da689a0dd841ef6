/-
  TxHeap.Memory — bytes by address.

  Every byte that was never written is zero. `get` is the view that everything else is
  said in: `get_set` and `get_write` tell what a store does to it.
-/
import TxHeap.Word
import Std.Data.TreeMap

namespace TxHeap

/-- The bytes that are not known to be zero. -/
structure Memory where
  bytes : Std.TreeMap Nat UInt8

namespace Memory

def empty : Memory := ⟨∅⟩

def get (m : Memory) (addr : Nat) : UInt8 := m.bytes.getD addr 0

def set (m : Memory) (addr : Nat) (byte : UInt8) : Memory :=
  if m.get addr = byte then m else ⟨m.bytes.insert addr byte⟩

def read (m : Memory) (addr len : Nat) : List UInt8 := (List.range len).map fun i => m.get (addr + i)

def write (m : Memory) (addr : Nat) : List UInt8 → Memory
  | [] => m
  | byte :: rest => (m.set addr byte).write (addr + 1) rest

def readWord (m : Memory) (addr : Nat) : Nat := Word.ofBytes (m.read addr wordSize)

def writeWord (m : Memory) (addr value : Nat) : Memory := m.write addr (Word.toBytes value)

@[simp] theorem get_empty (addr : Nat) : empty.get addr = 0 :=
  Std.TreeMap.getD_emptyc

theorem get_set (m : Memory) (addr : Nat) (byte : UInt8) (a : Nat) :
    (m.set addr byte).get a = if a = addr then byte else m.get a := by
  unfold set
  by_cases h : m.get addr = byte
  · rw [if_pos h]
    by_cases ha : a = addr
    · rw [if_pos ha, ha, h]
    · rw [if_neg ha]
  · rw [if_neg h]
    simp only [get, Std.TreeMap.getD_insert, Nat.compare_eq_eq]
    simp only [eq_comm]

theorem get_write (bytes : List UInt8) (m : Memory) (addr a : Nat) :
    (m.write addr bytes).get a =
      if addr ≤ a ∧ a < addr + bytes.length then bytes.getD (a - addr) 0 else m.get a := by
  induction bytes generalizing m addr with
  | nil => exact (if_neg (by simp only [List.length_nil]; omega)).symm
  | cons byte rest ih =>
    rw [write, ih, get_set]
    simp only [List.length_cons]
    by_cases h : a = addr
    · subst h
      rw [if_neg (by omega), if_pos rfl, if_pos (by omega), Nat.sub_self, List.getD_cons_zero]
    · by_cases hr : addr + 1 ≤ a ∧ a < addr + 1 + rest.length
      · have e : a - addr = (a - (addr + 1)) + 1 := by omega
        rw [if_pos hr, if_pos (by omega), e, List.getD_cons_succ]
      · rw [if_neg hr, if_neg h, if_neg (by omega)]

@[simp] theorem length_read (m : Memory) (addr len : Nat) : (m.read addr len).length = len := by simp [read]

end Memory

end TxHeap

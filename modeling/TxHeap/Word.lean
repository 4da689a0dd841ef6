/-
  TxHeap.Word — machine words as natural numbers.

  An address, a size or the content of a field is a natural number below `wordLimit`.
  A sum or difference that leaves this range stops the call that formed it (`Overflow`);
  where a range check is part of a rule, the rule uses `add?` and decides for itself.

  `alignUp` forms `n + unit` before it rounds, so it stops for the last `unit` numbers
  of the range even where the rounded number would still fit.
-/

namespace TxHeap

/-- Words are the natural numbers below this limit. -/
def wordLimit : Nat := 0x10000000000000000

/-- Type ids and thread numbers are the natural numbers below this limit. -/
def idLimit : Nat := 0x100000000

theorem wordLimit_pos : 0 < wordLimit := by decide

def wordSize : Nat := 8

inductive Overflow where
  | add
  | sub
  deriving DecidableEq, Repr

def Overflow.message : Overflow → String
  | .add => "attempt to add with overflow"
  | .sub => "attempt to subtract with overflow"

namespace Word

def add? (a b : Nat) : Option Nat := if a + b < wordLimit then some (a + b) else none

def add (a b : Nat) : Except Overflow Nat := if a + b < wordLimit then .ok (a + b) else .error .add

def sub (a b : Nat) : Except Overflow Nat := if b ≤ a then .ok (a - b) else .error .sub

/-- The sum, or the largest word where the sum does not fit. -/
def addSaturating (a b : Nat) : Nat := min (a + b) (wordLimit - 1)

/-- The least multiple of `unit` that is at least `n`. -/
def alignUp (n unit : Nat) : Except Overflow Nat := do
  let padded ← add n unit
  return (padded - 1) / unit * unit

def roundUp (n : Nat) : Except Overflow Nat := alignUp n wordSize

def isPowerOfTwo (n : Nat) : Bool := n != 0 && n &&& (n - 1) == 0

/-- The eight bytes of a word, least significant first. -/
def toBytes (value : Nat) : List UInt8 :=
  (List.range wordSize).map fun i => UInt8.ofNat (value >>> (8 * i) % 256)

/-- The number whose bytes are given, least significant first. -/
def ofBytes (bytes : List UInt8) : Nat := bytes.foldr (fun b rest => b.toNat + 256 * rest) 0

theorem add_eq_ok {a b c : Nat} : add a b = .ok c ↔ a + b < wordLimit ∧ c = a + b := by
  unfold add
  split <;> simp [*, eq_comm]

/-- Rounding up never makes a number smaller. -/
theorem le_of_alignUp {n unit m : Nat} (pos : 0 < unit) (h : alignUp n unit = .ok m) : n ≤ m := by
  unfold alignUp at h
  cases hsum : add n unit with
  | error kind => rw [hsum] at h; simp [bind, Except.bind] at h
  | ok padded =>
    rw [hsum] at h
    obtain ⟨_, rfl⟩ := add_eq_ok.1 hsum
    simp only [bind, Except.bind, pure, Except.pure, Except.ok.injEq] at h
    have := Nat.div_add_mod (n + unit - 1) unit
    have := Nat.mod_lt (n + unit - 1) pos
    rw [Nat.mul_comm] at h
    omega

end Word

end TxHeap

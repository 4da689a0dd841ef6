/-
  TxHeap.Proofs.Hashes — an identity hash tells as much as the token.

  A token is hashed by adding its own fourth shift to it without carry. Added up again, the
  shifts of the hash by 0, 4, 8 and so on cancel in pairs, and what is left is the token and
  one shift of it that lies past its last bit (`shifts_scramble`). So scrambling is undone by
  `unscramble`, and on words each is the inverse of the other.

  A thread that asks for a hash does what it does for a token, and scrambles the answer
  (`Session.perform_map`).
-/
import Mathlib.Data.Set.Function
import TxHeap.Run

namespace TxHeap

/-! ## Shifts -/

/-- The exclusive-or of a number shifted right by the first multiples of four. -/
def shifts (n count : Nat) : Nat := (List.range count).foldl (fun sum k => sum ^^^ n >>> (4 * k)) 0

def unscramble (hash : Nat) : Nat := ((List.range 64).filter (4 ∣ ·)).foldl (fun sum k => sum ^^^ hash >>> k) 0

theorem unscramble_eq (hash : Nat) : unscramble hash = shifts hash 16 := by
  have multiples : (List.range 64).filter (4 ∣ ·) = (List.range 16).map (4 * ·) := by decide
  rw [unscramble, multiples, List.foldl_map, shifts]

theorem shifts_succ (n count : Nat) : shifts n (count + 1) = shifts n count ^^^ n >>> (4 * count) := by
  rw [shifts, List.range_succ, List.foldl_append, List.foldl_cons, List.foldl_nil, shifts]

/-- The shifts of a scrambled number telescope. -/
theorem shifts_scramble (n count : Nat) : shifts (scramble n) count = n ^^^ n >>> (4 * count) := by
  induction count with
  | zero => exact (Nat.xor_self n).symm
  | succ count ih =>
    have shifted : scramble n >>> (4 * count) = n >>> (4 * count) ^^^ n >>> (4 * (count + 1)) := by
      rw [scramble, Nat.shiftRight_xor_distrib, ← Nat.shiftRight_add, Nat.add_comm 4, ← Nat.mul_succ]
    calc shifts (scramble n) (count + 1)
        = (n ^^^ n >>> (4 * count)) ^^^ (n >>> (4 * count) ^^^ n >>> (4 * (count + 1))) := by rw [shifts_succ, ih, shifted]
      _ = n ^^^ n >>> (4 * (count + 1)) := by
        rw [Nat.xor_assoc, ← Nat.xor_assoc (n >>> (4 * count)), Nat.xor_self, Nat.zero_xor]

theorem scramble_xor (a b : Nat) : scramble (a ^^^ b) = scramble a ^^^ scramble b := by
  simp only [scramble, Nat.shiftRight_xor_distrib]
  ac_rfl

theorem scramble_shiftRight (n k : Nat) : scramble (n >>> k) = scramble n >>> k := by
  rw [scramble, scramble, Nat.shiftRight_xor_distrib, ← Nat.shiftRight_add, ← Nat.shiftRight_add, Nat.add_comm]

/-- Scrambling goes through the sum. -/
theorem scramble_shifts (n count : Nat) : scramble (shifts n count) = shifts (scramble n) count := by
  induction count with
  | zero => exact (by decide : scramble 0 = 0)
  | succ count ih => rw [shifts_succ, shifts_succ, scramble_xor, ih, scramble_shiftRight]

theorem scramble_injective {a b : Nat} (h : scramble a = scramble b) : a = b := by
  -- so many shifts that the last one of either is past all bits
  have back {n count : Nat} (le : n ≤ count) : shifts (scramble n) count = n := by
    have past : n < 2 ^ (4 * count) := Nat.lt_of_lt_of_le Nat.lt_two_pow_self (Nat.pow_le_pow_right (by decide) (by omega))
    rw [shifts_scramble, Nat.shiftRight_eq_zero _ _ past, Nat.xor_zero]
  rw [← back (Nat.le_add_right a b), h, back (Nat.le_add_left b a)]

/-! ## Words -/

def words : Set Nat := {n | n < wordLimit}

theorem scramble_mem_words {n : Nat} (h : n ∈ words) : scramble n ∈ words :=
  Nat.xor_lt_two_pow (n := 64) h (Nat.lt_of_le_of_lt (Nat.shiftRight_le n 4) h)

theorem shifts_mem_words {n : Nat} (h : n ∈ words) (count : Nat) : shifts n count ∈ words := by
  induction count with
  | zero => exact wordLimit_pos
  | succ count ih =>
    rw [shifts_succ]
    exact Nat.xor_lt_two_pow (n := 64) ih (Nat.lt_of_le_of_lt (Nat.shiftRight_le n _) h)

/-- All bits of a word are among the first sixteen shifts of its hash. -/
theorem unscramble_scramble {n : Nat} (h : n ∈ words) : unscramble (scramble n) = n := by
  rw [unscramble_eq, shifts_scramble, Nat.shiftRight_eq_zero _ _ h, Nat.xor_zero]

theorem scramble_unscramble {n : Nat} (h : n ∈ words) : scramble (unscramble n) = n := by
  rw [unscramble_eq, scramble_shifts, ← unscramble_eq, unscramble_scramble h]

example : scramble sharedStart = 0x110000000 ∧ unscramble 0x110000000 = sharedStart := by decide

/-! ## Sessions -/

/-- A call whose answer is given another form. -/
theorem Session.perform_map {α β : Type} (s : Session) (f : α → β) (call : Action α) :
    s.perform (f <$> call) = ((s.perform call).1.map f, (s.perform call).2) := by
  rw [Session.perform, Step.map_apply, Session.perform]
  cases call s <;> rfl

/-- Hashes are the same just if the tokens are, or both calls fail alike. -/
theorem map_scramble_inj {a b : Except Failure Nat} : a.map scramble = b.map scramble ↔ a = b := by
  cases a <;> cases b <;> simp [Except.map, Function.Injective.eq_iff fun _ _ => scramble_injective]

/--
Scrambling is one to one on words, with `unscramble` as its inverse. Asking for a hash is
asking for the token, and two objects, whoever asks for them and when, have one hash just if
they have one token.
-/
theorem hashes_lose_nothing :
    Set.BijOn scramble words words ∧ Set.InvOn unscramble scramble words words ∧
      ∀ (s s' : Session) (t t' x y : Nat),
        s.perform (Action.hashOf t x) =
            ((s.perform (Action.tokenOf t x)).1.map scramble, (s.perform (Action.tokenOf t x)).2) ∧
          ((s.perform (Action.hashOf t x)).1 = (s'.perform (Action.hashOf t' y)).1 ↔
            (s.perform (Action.tokenOf t x)).1 = (s'.perform (Action.tokenOf t' y)).1) := by
  have inverse : Set.InvOn unscramble scramble words words :=
    ⟨fun _ h => unscramble_scramble h, fun _ h => scramble_unscramble h⟩
  have into : Set.MapsTo unscramble words words := fun n h => unscramble_eq n ▸ shifts_mem_words h 16
  refine ⟨inverse.bijOn (fun _ h => scramble_mem_words h) into, inverse, fun s s' t t' x y => ?_⟩
  have hash (s : Session) (t x : Nat) := s.perform_map scramble (Action.tokenOf t x)
  refine ⟨hash s t x, ?_⟩
  rw [Action.hashOf, Action.hashOf, hash, hash]
  exact map_scramble_inj

end TxHeap

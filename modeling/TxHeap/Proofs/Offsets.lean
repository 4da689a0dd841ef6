/-
  TxHeap.Proofs.Offsets — a pointer map is the set of its offsets.

  A map is built by inserting offsets one after the other, and each insertion adds one member
  (`contains_insert`, `contains_foldlM`); so it holds what the list holds, however often and in
  whatever order. A map whose bits are those of slots is told by its members (`Fits.ext`).

  Taking the lowest bit out of a map leaves the other bits as they are (`testBit_dropLowest`),
  so `offsets` loses its head and nothing else (`offsets_eq_cons`); and taking offsets out until
  none is left goes along `offsets` from the first to the last (`yields_offsets`).
-/
import Mathlib.Algebra.GroupWithZero.Nat
import Mathlib.Data.List.Infix
import Mathlib.Data.List.Sort
import TxHeap.Proofs.Types

namespace TxHeap

/-! ## Bits -/

/-- A number whose lowest bit is at `k`: that bit, and what is above it. -/
theorem Word.eq_of_lowest_bit {n k : Nat} (set : n.testBit k = true) (clear : ∀ i < k, n.testBit i = false) :
    n = 2 ^ (k + 1) * (n / 2 ^ (k + 1)) + 2 ^ k := by
  have low : n % 2 ^ (k + 1) = 2 ^ k := by
    refine Nat.eq_of_testBit_eq fun i => ?_
    rw [Nat.testBit_mod_two_pow, Nat.testBit_two_pow]
    rcases Nat.lt_trichotomy i k with below | rfl | above
    · rw [clear i below, Bool.and_false, decide_eq_false (Nat.ne_of_gt below)]
    · simp [set]
    · rw [decide_eq_false (by omega), decide_eq_false (Nat.ne_of_lt above), Bool.false_and]
  rw [← low, Nat.div_add_mod]

/-- Taking one away moves the lowest bit down to all places below it, so no bit but that one is lost. -/
theorem Word.testBit_and_sub_one {n k : Nat} (set : n.testBit k = true) (clear : ∀ i < k, n.testBit i = false) (i : Nat) :
    (n &&& (n - 1)).testBit i = (n.testBit i && decide (i ≠ k)) := by
  have parts := Word.eq_of_lowest_bit set clear
  generalize n / 2 ^ (k + 1) = high at parts
  have pos := Nat.two_pow_pos k
  have less : 2 ^ k < 2 ^ (k + 1) := Nat.pow_lt_pow_right (by decide) (Nat.lt_succ_self k)
  have before : n - 1 = 2 ^ (k + 1) * high + (2 ^ k - 1) := by omega
  rw [Nat.testBit_and, before, parts, Nat.testBit_two_pow_mul_add _ less, Nat.testBit_two_pow_mul_add _ (by omega)]
  by_cases below : i < k + 1
  · rw [if_pos below, if_pos below, Nat.testBit_two_pow, Nat.testBit_two_pow_sub_one]
    by_cases at_k : k = i
    · subst at_k
      simp
    · rw [decide_eq_false at_k, Bool.false_and, Bool.false_and]
  · rw [if_neg below, if_neg below, Bool.and_self, decide_eq_true (by omega), Bool.and_true]

namespace PointerMap

variable {m m' : PointerMap} {o p : Nat} {given : List Nat}

def Tracks (o : Nat) : Prop := o % wordSize = 0 ∧ o < trackedSize

def Fits (m : PointerMap) : Prop := m.slots < 2 ^ slotCount

instance (m : PointerMap) : Decidable m.Fits := inferInstanceAs (Decidable (_ < _))

theorem Fits.lt {slot : Nat} (fits : m.Fits) (set : m.slots.testBit slot = true) : slot < slotCount := by
  by_contra high
  have le : 2 ^ slotCount ≤ 2 ^ slot := Nat.pow_le_pow_right (by decide) (Nat.not_lt.1 high)
  rw [Nat.testBit_lt_two_pow (Nat.lt_of_lt_of_le fits le)] at set
  cases set

/-! ## Members -/

theorem contains_iff : m.contains o = true ↔ Tracks o ∧ m.slots.testBit (o / wordSize) = true := by
  simp only [contains, Tracks, trackedSize, Bool.and_eq_true, beq_iff_eq, decide_eq_true_eq]
  rw [Nat.div_lt_iff_lt_mul (by decide)]

/-- Maps that fit are the same if they have the same members. -/
theorem Fits.ext (fits : m.Fits) (fits' : m'.Fits) (same : ∀ o, m.contains o = true ↔ m'.contains o = true) : m = m' := by
  have bits {m : PointerMap} (fits : m.Fits) (slot : Nat) :
      m.slots.testBit slot = true ↔ m.contains (slot * wordSize) = true := by
    rw [contains_iff, Nat.mul_div_cancel _ (by decide)]
    refine ⟨fun set => ⟨⟨Nat.mul_mod_left _ _, Nat.mul_lt_mul_of_pos_right (fits.lt set) (by decide)⟩, set⟩, And.right⟩
  obtain ⟨slots⟩ := m
  obtain ⟨slots'⟩ := m'
  refine congrArg PointerMap.mk (Nat.eq_of_testBit_eq fun slot => ?_)
  rw [Bool.eq_iff_iff, bits fits, bits fits', same]

theorem insert_eq_ok : m.insert o = .ok m' ↔ Tracks o ∧ m' = ⟨m.slots ||| 1 <<< (o / wordSize)⟩ := by
  rw [insert, Tracks, trackedSize, ← Nat.div_lt_iff_lt_mul (by decide)]
  split
  · exact ⟨nofun, fun h => absurd h.1.1 ‹_›⟩
  · split
    · exact ⟨nofun, fun h => absurd h.1.2 (Nat.not_lt.2 ‹_›)⟩
    · rw [Except.ok.injEq]
      exact ⟨fun h => ⟨⟨Decidable.not_not.1 ‹_›, Nat.not_le.1 ‹_›⟩, h.symm⟩, fun h => h.2.symm⟩

theorem contains_insert (h : m.insert o = .ok m') : m'.contains p = true ↔ p = o ∨ m.contains p = true := by
  obtain ⟨tracked, rfl⟩ := insert_eq_ok.1 h
  rw [contains_iff, contains_iff, Nat.testBit_or, Nat.one_shiftLeft, Nat.testBit_two_pow, Bool.or_eq_true,
    decide_eq_true_eq]
  constructor
  · rintro ⟨tracked', set | same⟩
    · exact .inr ⟨tracked', set⟩
    · have := tracked.1
      have := tracked'.1
      simp only [wordSize] at *
      exact .inl (by omega)
  · rintro (rfl | ⟨tracked', set⟩)
    · exact ⟨tracked, .inr rfl⟩
    · exact ⟨tracked', .inl set⟩

theorem Fits.insert (fits : m.Fits) (h : m.insert o = .ok m') : m'.Fits := by
  obtain ⟨⟨-, low⟩, rfl⟩ := insert_eq_ok.1 h
  refine Nat.or_lt_two_pow fits ?_
  rw [Nat.one_shiftLeft]
  exact Nat.pow_lt_pow_right (by decide) (Nat.div_lt_of_lt_mul (Nat.mul_comm .. ▸ low))

/-- A list of offsets is inserted just if each has a slot. -/
theorem exists_foldlM_iff (given : List Nat) (m : PointerMap) :
    (∃ m', given.foldlM insert m = .ok m') ↔ ∀ o ∈ given, Tracks o := by
  induction given generalizing m with
  | nil => exact ⟨fun _ => nofun, fun _ => ⟨m, rfl⟩⟩
  | cons o given ih =>
    rw [List.forall_mem_cons]
    cases h : m.insert o with
    | ok m₁ =>
      have tracked : Tracks o := (insert_eq_ok.1 h).1
      rw [and_iff_right tracked, ← ih m₁, List.foldlM_cons, h]
      rfl
    | error e =>
      have untracked : ¬ Tracks o := fun tracked => by
        rw [insert_eq_ok.2 ⟨tracked, rfl⟩] at h
        cases h
      rw [List.foldlM_cons, h]
      exact ⟨nofun, fun tracked => absurd tracked.1 untracked⟩

theorem contains_foldlM (h : given.foldlM insert m = .ok m') (fits : m.Fits) :
    m'.Fits ∧ ∀ p, m'.contains p = true ↔ p ∈ given ∨ m.contains p = true := by
  induction given generalizing m with
  | nil =>
    cases h
    exact ⟨fits, fun p => by simp⟩
  | cons o given ih =>
    rw [List.foldlM_cons] at h
    cases first : m.insert o with
    | error e =>
      rw [first] at h
      cases h
    | ok m₁ =>
      rw [first] at h
      obtain ⟨fits', members⟩ := ih h (fits.insert first)
      refine ⟨fits', fun p => ?_⟩
      rw [members, contains_insert first, List.mem_cons, or_left_comm, or_assoc]

theorem exists_ofList_iff (given : List Nat) : (∃ m, ofList given = .ok m) ↔ ∀ o ∈ given, Tracks o :=
  exists_foldlM_iff given empty

/-- The map of a list holds what is in the list. -/
theorem contains_ofList (h : ofList given = .ok m) : m.Fits ∧ ∀ p, m.contains p = true ↔ p ∈ given := by
  obtain ⟨fits, members⟩ := contains_foldlM h (Nat.two_pow_pos _)
  have none (p : Nat) : empty.contains p = false := by simp [contains, empty]
  refine ⟨fits, fun p => ?_⟩
  rw [members, none, or_iff_left Bool.false_ne_true]

/-! ## Offsets in order -/

theorem mem_offsets_iff_contains : o ∈ m.offsets ↔ m.contains o = true := by
  refine ⟨contains_of_mem_offsets, fun held => ?_⟩
  obtain ⟨⟨aligned, low⟩, set⟩ := contains_iff.1 held
  simp only [trackedSize] at low
  exact mem_offsets.2 ⟨o / wordSize, Nat.div_lt_of_lt_mul (Nat.mul_comm .. ▸ low), set, Nat.div_mul_cancel (Nat.dvd_of_mod_eq_zero aligned)⟩

theorem offsets_ascending (m : PointerMap) : m.offsets.Pairwise (· < ·) := by
  refine (List.Pairwise.filter _ List.pairwise_lt_range).map _ fun a b less => ?_
  exact Nat.mul_lt_mul_of_pos_right less (by decide)

theorem count_eq_length (m : PointerMap) : m.count = m.offsets.length := by
  rw [count, offsets, List.length_map, List.countP_eq_length_filter]

/-- The map of its own offsets. -/
theorem ofList_offsets (fits : m.Fits) : ofList m.offsets = .ok m := by
  obtain ⟨m', h⟩ := (exists_ofList_iff m.offsets).2 fun o ho => (contains_iff.1 (mem_offsets_iff_contains.1 ho)).1
  obtain ⟨fits', members⟩ := contains_ofList h
  rw [h, fits'.ext fits fun p => (members p).trans mem_offsets_iff_contains]

/-- Nothing lies past the largest offset. -/
theorem extent_eq (fits : m.Fits) (h : ∀ p, m.contains p = true ↔ p ∈ given) :
    m.extent = (given.max?.map (· + wordSize)).getD 0 := by
  by_cases none : m.slots = 0
  · have empty : given = [] := List.eq_nil_iff_forall_not_mem.2 fun p hp => by
      have held := (contains_iff.1 ((h p).2 hp)).2
      rw [none, Nat.zero_testBit] at held
      cases held
    rw [extent, if_pos none, empty]
    rfl
  · have set := Nat.testBit_log2 none
    have top : given.max? = some (m.slots.log2 * wordSize) := by
      refine List.max?_eq_some_iff.2 ⟨?_, fun p hp => ?_⟩
      · exact (h _).1 (contains_of_mem_offsets (mem_offsets.2 ⟨_, fits.lt set, set, rfl⟩))
      · have inside := add_wordSize_le_extent (mem_offsets_iff_contains.2 ((h p).2 hp))
        rw [extent, if_neg none, Nat.add_mul, Nat.one_mul] at inside
        exact Nat.le_of_add_le_add_right inside
    rw [extent, if_neg none, top, Nat.add_mul, Nat.one_mul]
    rfl

/-! ## Taking offsets out -/

theorem lowestSlot_spec (fits : m.Fits) (some : m.slots ≠ 0) :
    m.slots.testBit m.lowestSlot = true ∧ ∀ i < m.lowestSlot, m.slots.testBit i = false := by
  obtain ⟨slot, set⟩ := Nat.exists_testBit_of_ne_zero some
  cases found : (List.range slotCount).find? m.slots.testBit with
  | none => exact absurd set (List.find?_eq_none.1 found slot (List.mem_range.2 (fits.lt set)))
  | some lowest =>
    obtain ⟨set, -, clear⟩ := List.find?_range_eq_some.1 found
    rw [lowestSlot, found]
    exact ⟨set, fun i hi => by simpa using clear i hi⟩

theorem testBit_dropLowest (fits : m.Fits) (some : m.slots ≠ 0) (i : Nat) :
    m.dropLowest.slots.testBit i = (m.slots.testBit i && decide (i ≠ m.lowestSlot)) := by
  obtain ⟨set, clear⟩ := lowestSlot_spec fits some
  exact Word.testBit_and_sub_one set clear i

theorem Fits.dropLowest (fits : m.Fits) : m.dropLowest.Fits := Nat.lt_of_le_of_lt Nat.and_le_left fits

/-- The lowest offset is the first of all, and the others stay. -/
theorem offsets_eq_cons (fits : m.Fits) (some : m.slots ≠ 0) :
    m.offsets = m.lowestSlot * wordSize :: m.dropLowest.offsets := by
  obtain ⟨set, clear⟩ := lowestSlot_spec fits some
  have held := fits.lt set
  refine (offsets_ascending m).eq_of_mem_iff (List.pairwise_cons.2 ⟨fun o ho => ?_, offsets_ascending _⟩) fun o => ?_
  · obtain ⟨slot, -, left, rfl⟩ := mem_offsets.1 ho
    rw [testBit_dropLowest fits some, Bool.and_eq_true, decide_eq_true_eq] at left
    have above : ¬ slot < m.lowestSlot := fun below => by
      rw [clear slot below] at left
      cases left.1
    exact Nat.mul_lt_mul_of_pos_right (by omega) (by decide)
  · rw [List.mem_cons, mem_offsets, mem_offsets]
    constructor
    · rintro ⟨slot, low, bit, rfl⟩
      by_cases lowest : slot = m.lowestSlot
      · exact .inl (congrArg (· * wordSize) lowest)
      · exact .inr ⟨slot, low, by rw [testBit_dropLowest fits some, bit, decide_eq_true lowest]; rfl, rfl⟩
    · rintro (rfl | ⟨slot, low, left, rfl⟩)
      · exact ⟨m.lowestSlot, held, set, rfl⟩
      · rw [testBit_dropLowest fits some, Bool.and_eq_true] at left
        exact ⟨slot, low, left.1, rfl⟩

theorem offsets_of_zero (none : m.slots = 0) : m.offsets = [] := by simp [offsets, none]

/-- Asked for offsets until there is none, the map gives these in order, and tells before each step how many are to come. -/
inductive Yields : PointerMap → List Nat → Prop
  | none {m : PointerMap} : m.next? = none → m.count = 0 → Yields m []
  | some {m m' : PointerMap} {o : Nat} {os : List Nat} :
    m.next? = some (o, m') → m.count = (o :: os).length → Yields m' os → Yields m (o :: os)

theorem yields_offsets (fits : m.Fits) : m.Yields m.offsets := by
  fun_induction walk m with
  | case1 m none =>
    rw [offsets_of_zero none]
    exact .none (if_pos none) (by rw [count_eq_length, offsets_of_zero none]; rfl)
  | case2 m some ih =>
    have next := offsets_eq_cons fits some
    rw [next]
    exact .some (if_neg some) (by rw [count_eq_length, next]) (ih fits.dropLowest)

/-- A walk tells of all steps, the last of which finds no offset. -/
theorem Yields.walk_eq (h : m.Yields given) : m.walk = given.tails.map fun rest => (rest.length, rest.head?) := by
  induction h with
  | @none m next left =>
    have empty : m.slots = 0 := by
      by_contra some
      rw [next?, if_neg some] at next
      cases next
    rw [walk, if_pos empty, left]
    rfl
  | @some m m' o os next left _ ih =>
    have some : m.slots ≠ 0 := fun none => by
      rw [next?, if_pos none] at next
      cases next
    rw [next?, if_neg some] at next
    cases next
    rw [walk, if_neg some, left, ih, List.tails_cons, List.map_cons]
    rfl

/-- The map is the set of the given offsets, whichever way it is looked at. -/
structure Presents (m : PointerMap) (given : List Nat) : Prop where
  mem_offsets : ∀ o, o ∈ m.offsets ↔ o ∈ given
  ascending : m.offsets.Pairwise (· < ·)
  yields : m.Yields m.offsets
  walk : m.walk = m.offsets.tails.map fun rest => (rest.length, rest.head?)
  count : m.count = m.offsets.length
  contains : ∀ p, m.contains p = true ↔ p ∈ given
  /-- The end of the largest offset, or zero. -/
  extent : m.extent = (given.max?.map (· + wordSize)).getD 0
  rebuilt : ofList m.offsets = .ok m

/-- A list of offsets makes a map just if each of them is an aligned one below the tracked size, and then it is their set. -/
theorem ofList_presents (given : List Nat) :
    ((∃ m, ofList given = .ok m) ↔ ∀ o ∈ given, o % wordSize = 0 ∧ o < trackedSize) ∧
      ∀ m, ofList given = .ok m → m.Presents given := by
  refine ⟨exists_ofList_iff given, fun m h => ?_⟩
  obtain ⟨fits, members⟩ := contains_ofList h
  exact {
    mem_offsets := fun o => mem_offsets_iff_contains.trans (members o)
    ascending := offsets_ascending m
    yields := yields_offsets fits
    walk := (yields_offsets fits).walk_eq
    count := count_eq_length m
    contains := members
    extent := extent_eq fits members
    rebuilt := ofList_offsets fits }

/-- Offsets out of order and repeated, the first and the last of all slots among them. -/
theorem ofList_presents_repeated :
    (∀ o ∈ [504, 16, 0, 16, 504], o % wordSize = 0 ∧ o < trackedSize) ∧
      ∃ m, ofList [504, 16, 0, 16, 504] = .ok m ∧ m.Presents [504, 16, 0, 16, 504] ∧ m.offsets = [0, 16, 504] ∧
        m.walk = [(3, some 0), (2, some 16), (1, some 504), (0, none)] ∧ m.extent = 512 := by
  obtain ⟨accepted, presents⟩ := ofList_presents [504, 16, 0, 16, 504]
  obtain ⟨m, h⟩ := accepted.2 (by decide)
  have held := presents m h
  have offsets : m.offsets = [0, 16, 504] := by
    cases h
    decide
  refine ⟨by decide, m, h, held, offsets, ?_, held.extent⟩
  rw [held.walk, offsets]
  rfl

end PointerMap

end TxHeap

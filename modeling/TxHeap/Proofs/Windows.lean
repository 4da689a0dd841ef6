/-
  TxHeap.Proofs.Windows — which addresses belong to whom.

  Windows are given out by multiplication and told by division. The two agree because the
  windows lie side by side (`windowStart?_eq_some`): from a window's start there are whole
  reserves down to the first one, so all its addresses have the same quotient
  (`of_eq_nursery`). Only the number of the last worker is checked when a heap is set up;
  windows below one that fits fit too (`windowStart?_of_le`), so that check is enough for
  all of them, and a nursery can always be had (`Checked.window`).

  `address_map_is_sound` puts together what a configuration that passed its check promises,
  and what holds of windows whatever the reserve.
-/
import TxHeap.Proofs.Phases
import TxHeap.Proofs.Roster

namespace TxHeap

variable {t t' w w' addr sharedReserve reserve : Nat} {config : Config}

/-! ## Windows by number -/

theorem windowStart?_eq_some :
    windowStart? t reserve = some w ↔
      1 ≤ t ∧ nurseryStart + (t - 1) * reserve + reserve < wordLimit ∧ w = nurseryStart + (t - 1) * reserve := by
  rw [windowStart?]
  by_cases first : t = 0
  · simp only [if_pos first, reduceCtorEq, false_iff]
    omega
  · rw [if_neg first]
    dsimp only
    by_cases fits : nurseryStart + (t - 1) * reserve + reserve < wordLimit
    · rw [if_pos fits, Option.some.injEq]
      exact ⟨fun h => ⟨by omega, fits, h.symm⟩, fun h => h.2.2.symm⟩
    · simp only [if_neg fits, reduceCtorEq, false_iff]
      exact fun h => fits h.2.1

/-- The window of a smaller number ends where that of a larger one starts, or before. -/
theorem window_behind (h : windowStart? t reserve = some w) (h' : windowStart? t' reserve = some w') (lt : t < t') :
    w + reserve ≤ w' := by
  obtain ⟨first, -, rfl⟩ := windowStart?_eq_some.1 h
  obtain ⟨-, -, rfl⟩ := windowStart?_eq_some.1 h'
  have behind : (t - 1 + 1) * reserve ≤ (t' - 1) * reserve := Nat.mul_le_mul_right _ (by omega)
  rw [Nat.succ_mul] at behind
  omega

theorem windows_disjoint (h : windowStart? t reserve = some w) (h' : windowStart? t' reserve = some w') (ne : t ≠ t') :
    w + reserve ≤ w' ∨ w' + reserve ≤ w := by
  rcases Nat.lt_or_gt_of_ne ne with lt | lt
  · exact .inl (window_behind h h' lt)
  · exact .inr (window_behind h' h lt)

/-- Where a window fits the address space, those of all smaller numbers do. -/
theorem windowStart?_of_le (h : windowStart? t reserve = some w) (first : 1 ≤ t') (le : t' ≤ t) :
    ∃ w', windowStart? t' reserve = some w' := by
  obtain ⟨-, fits, rfl⟩ := windowStart?_eq_some.1 h
  have below : (t' - 1) * reserve ≤ (t - 1) * reserve := Nat.mul_le_mul_right _ (by omega)
  exact ⟨_, windowStart?_eq_some.2 ⟨first, by omega, rfl⟩⟩

/-! ## Spaces by address -/

theorem of_eq_shared :
    Space.of addr sharedReserve reserve = .shared ↔ sharedStart ≤ addr ∧ addr < sharedStart + sharedReserve := by
  unfold Space.of
  by_cases shared : sharedStart ≤ addr ∧ addr - sharedStart < sharedReserve
  · rw [if_pos shared]
    exact ⟨fun _ => ⟨shared.1, by omega⟩, fun _ => rfl⟩
  · rw [if_neg shared]
    refine ⟨fun h => ?_, fun h => absurd ⟨h.1, by omega⟩ shared⟩
    dsimp only at h
    repeat' split at h
    all_goals cases h

/-- No address of a token or a nursery is reserved for the shared heap. -/
theorem not_shared_of_le (small : sharedReserve ≤ maxSharedReserve) (above : tokenStart ≤ addr) :
    ¬ (sharedStart ≤ addr ∧ addr - sharedStart < sharedReserve) := by
  simp only [maxSharedReserve, tokenStart, sharedStart] at *
  omega

theorem of_eq_token (small : sharedReserve ≤ maxSharedReserve) :
    Space.of addr sharedReserve reserve = .token ↔ tokenStart ≤ addr ∧ addr < nurseryStart := by
  unfold Space.of
  by_cases token : tokenStart ≤ addr ∧ addr < nurseryStart
  · rw [if_neg (not_shared_of_le small token.1), if_pos token]
    exact ⟨fun _ => token, fun _ => rfl⟩
  · rw [if_neg token]
    refine ⟨fun h => ?_, fun h => absurd h token⟩
    dsimp only at h
    repeat' split at h
    all_goals cases h

/-- Told from the address alone, a nursery is the one whose window the address lies in. -/
theorem of_eq_nursery (small : sharedReserve ≤ maxSharedReserve) (number : t < idLimit)
    (window : windowStart? t reserve = some w) :
    Space.of addr sharedReserve reserve = .nursery t ↔ w ≤ addr ∧ addr < w + reserve := by
  obtain ⟨first, -, rfl⟩ := windowStart?_eq_some.1 window
  unfold Space.of
  by_cases high : nurseryStart ≤ addr ∧ 0 < reserve
  · have above : tokenStart ≤ addr := Nat.le_trans (by decide) high.1
    rw [if_neg (not_shared_of_le small above), if_neg (by omega), if_pos high]
    -- the window is told by the quotient, which is the same for `reserve` addresses in a row
    have quotient := Nat.div_eq_iff (x := addr - nurseryStart) (y := t - 1) high.2
    have told : (if (addr - nurseryStart) / reserve + 1 < idLimit then Space.nursery ((addr - nurseryStart) / reserve + 1)
        else .unmapped) = .nursery t ↔ (addr - nurseryStart) / reserve = t - 1 := by
      split
      · rw [Space.nursery.injEq]
        omega
      · exact ⟨nofun, fun h => by omega⟩
    rw [told, quotient]
    omega
  · refine ⟨fun h => ?_, fun h => absurd ⟨by omega, by omega⟩ high⟩
    rw [if_neg high] at h
    repeat' split at h
    all_goals cases h

/-! ## Configurations -/

/-- What the check of a configuration says of its ranges of addresses. -/
structure Config.Checked (config : Config) : Prop where
  sharedReserve_pos : 0 < config.sharedReserve
  sharedReserve_le : config.sharedReserve ≤ maxSharedReserve
  nurseryReserve_pos : 0 < config.nurseryReserve
  chunkSize : Word.isPowerOfTwo config.chunkSize = true
  last : ∃ w, windowStart? config.maxWorkers config.nurseryReserve = some w

theorem Config.checked_of_check (h : config.check = .ok ()) : config.Checked := by
  rw [Config.check] at h
  obtain ⟨shared, h⟩ := require_bind_eq_ok h
  obtain ⟨small, h⟩ := require_bind_eq_ok h
  obtain ⟨nursery, h⟩ := require_bind_eq_ok h
  obtain ⟨power, h⟩ := require_bind_eq_ok h
  obtain ⟨-, h⟩ := require_bind_eq_ok h
  obtain ⟨-, last⟩ := require_bind_eq_ok h
  exact ⟨shared, small, nursery, power, Option.isSome_iff_exists.1 (require_eq_ok.1 last)⟩

theorem Arena.new_of {start reserve chunk : Nat} (null : 0 < start) (pos : 0 < reserve) (fits : start + reserve < wordLimit)
    (power : Word.isPowerOfTwo chunk = true) : ∃ a, Arena.new start reserve chunk = .ok a := by
  rw [Arena.new, dif_neg (by omega), if_neg (by omega), dif_pos fits, if_pos power]
  exact ⟨_, rfl⟩

namespace Config.Checked

theorem shared (h : config.Checked) : ∃ a, Arena.new sharedStart config.sharedReserve config.chunkSize = .ok a := by
  have := h.sharedReserve_le
  refine Arena.new_of (by decide) h.sharedReserve_pos ?_ h.chunkSize
  simp only [maxSharedReserve, tokenStart, sharedStart, wordLimit] at *
  omega

theorem window (h : config.Checked) (first : 1 ≤ t) (last : t ≤ config.maxWorkers) :
    ∃ w nursery, windowStart? t config.nurseryReserve = some w ∧
      Arena.new w config.nurseryReserve config.chunkSize = .ok nursery := by
  obtain ⟨wl, hlast⟩ := h.last
  obtain ⟨w, found⟩ := windowStart?_of_le hlast first last
  obtain ⟨-, fits, hw⟩ := windowStart?_eq_some.1 found
  have null : 0 < w := by
    rw [hw]
    exact Nat.add_pos_left (by decide) _
  obtain ⟨nursery, made⟩ := Arena.new_of null h.nurseryReserve_pos (by rw [hw]; exact fits) h.chunkSize
  exact ⟨w, nursery, found, made⟩

end Config.Checked

structure Config.SoundMap (config : Config) : Prop where
  heap : ∀ layout, ∃ heap, Heap.new config layout = .ok heap
  window : ∀ t, 1 ≤ t → t ≤ config.maxWorkers → ∃ w nursery, windowStart? t config.nurseryReserve = some w ∧
    Arena.new w config.nurseryReserve config.chunkSize = .ok nursery
  /-- Whatever was called, a worker without a transaction can start one. -/
  start : ∀ layout log s, Session.create config layout log = .ok s → ∀ cs, ∀ t ∈ (s.run cs).2.workers,
    (s.run cs).2.tx? t = none → ((s.run cs).2.step (.start t)).1 = .ok .done
  nursery : ∀ t w addr, t < idLimit → windowStart? t config.nurseryReserve = some w →
    (Space.of addr config.sharedReserve config.nurseryReserve = .nursery t ↔ w ≤ addr ∧ addr < w + config.nurseryReserve)
  shared : ∀ addr, Space.of addr config.sharedReserve config.nurseryReserve = .shared ↔
    sharedStart ≤ addr ∧ addr < sharedStart + config.sharedReserve
  token : ∀ addr, Space.of addr config.sharedReserve config.nurseryReserve = .token ↔
    tokenStart ≤ addr ∧ addr < nurseryStart
  apart : ∀ t t' w w', t ≠ t' → windowStart? t config.nurseryReserve = some w →
    windowStart? t' config.nurseryReserve = some w' → w + config.nurseryReserve ≤ w' ∨ w' + config.nurseryReserve ≤ w
  above : ∀ t w, windowStart? t config.nurseryReserve = some w →
    sharedStart + config.sharedReserve ≤ tokenStart ∧ nurseryStart ≤ w

open Step TxHeap.Action

/-- A worker that has no transaction opens one where there is a nursery for him. -/
theorem step_start {s : Session} {h : Handle} {nursery : Arena} (hh : s.handle? t = some h) (idle : h.tx = none)
    (worker : t ≠ mainThread) (made : s.heap.newNursery t = .ok nursery) : (s.step (.start t)).1 = .ok .done := by
  refine step_of_ends (P := fun o _ => o = .ok .done) ?_
  show Ends (quietly (start t)) s _ _
  rw [ends_quietly]
  refine ends_start_idle hh worker idle (fun _ _ _ _ => rfl) ?_
  intro f full
  cases made.symm.trans full

/-- What is checked of a configuration is enough for its map of addresses; and whatever the
    reserve, the windows that fit are the first ones, and none of them wraps around. -/
theorem address_map_is_sound :
    (∀ config : Config, config.check = .ok () → config.SoundMap) ∧
      ∀ t w reserve, windowStart? t reserve = some w →
        w + reserve < wordLimit ∧ ∀ t', 1 ≤ t' → t' ≤ t → ∃ w', windowStart? t' reserve = some w' := by
  refine ⟨?_, ?_⟩
  · intro config passed
    have checked := Config.checked_of_check passed
    refine ⟨?_, fun t => checked.window, ?_, ?_, fun addr => of_eq_shared, fun addr => of_eq_token checked.sharedReserve_le,
      fun t t' w w' ne h h' => windows_disjoint h h' ne, ?_⟩
    · intro layout
      obtain ⟨shared, made⟩ := checked.shared
      rw [Heap.new, passed, made]
      exact ⟨_, rfl⟩
    · intro layout log s created cs t attached idle
      obtain ⟨tells, complete, same⟩ := complete_run created cs
      obtain ⟨first, last⟩ := (complete.roster tells).range t attached
      obtain ⟨w, nursery, found, made⟩ := checked.window first last
      obtain ⟨seat, worker⟩ := mem_workersOf.1 attached
      obtain ⟨h, hh⟩ := Option.isSome_iff_exists.1 (mem_seats_iff.1 seat)
      have given : (s.run cs).2.heap.newNursery t = .ok nursery := by
        rw [Heap.newNursery, same, found]
        dsimp only
        rw [made]
      exact step_start hh ((Session.tx?_of_handle? hh).symm.trans idle) worker given
    · intro t w addr number window
      exact of_eq_nursery checked.sharedReserve_le number window
    · intro t w window
      have small := checked.sharedReserve_le
      obtain ⟨-, -, rfl⟩ := windowStart?_eq_some.1 window
      simp only [maxSharedReserve, tokenStart, sharedStart] at *
      omega
  · intro t w reserve window
    obtain ⟨-, fits, rfl⟩ := windowStart?_eq_some.1 window
    exact ⟨fits, fun t' first le => windowStart?_of_le window first le⟩

/-- One worker, whose nursery is as large as it may be: the last address belongs to a window cut off. -/
def Config.wide : Config := ⟨maxSharedReserve, wordLimit - nurseryStart - 1, 1, 1, 1, false, false⟩

theorem address_map_is_sound_wide :
    Config.wide.check = .ok () ∧ Config.wide.SoundMap ∧
      Space.of (wordLimit - 2) Config.wide.sharedReserve Config.wide.nurseryReserve = .nursery 1 ∧
      Space.of (wordLimit - 1) Config.wide.sharedReserve Config.wide.nurseryReserve ≠ .nursery 1 ∧
      windowStart? 2 Config.wide.nurseryReserve = none := by
  have passed : Config.wide.check = .ok () := rfl
  have sound := address_map_is_sound.1 .wide passed
  have told := fun addr => sound.nursery 1 nurseryStart addr (by decide) (by decide)
  exact ⟨passed, sound, (told _).2 ⟨by decide, by decide⟩, fun h => absurd ((told _).1 h) (by decide), by decide⟩

end TxHeap

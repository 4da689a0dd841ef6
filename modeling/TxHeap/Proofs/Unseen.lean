/-
  TxHeap.Proofs.Unseen — nurseries are invisible to everybody else.

  Under any layout and whatever was called, an open transaction has its nursery in the window
  of its thread's number (`Windowed`), the windows of two numbers are apart, and no two
  attached threads go by one number (`Seated`). Every call locates its object before anything
  else. So a call on an address in another's window is refused as foreign, whether its own
  thread has a transaction or not, and nothing changes (`nurseries_are_unseen`).
-/
import TxHeap.Proofs.Phases

namespace TxHeap

/-- Calls of thread `t` that look at the object at `a`; the main thread needs no working copy. -/
def Command.LooksAt (t a : Nat) : Command → Prop
  | .header t' a' | .read t' a' _ | .write t' a' _ _ | .token t' a' => t' = t ∧ a' = a
  | .canonical t' a' => t' = t ∧ a' = some a
  | .copyOnWrite t' a' => t' = t ∧ a' = a ∧ t ≠ mainThread
  | _ => False

/-- Every call of the thread on this address is refused as foreign, and nothing changes. -/
def Session.Foreign (s : Session) (t a : Nat) : Prop :=
  ∀ c : Command, c.LooksAt t a → s.step c = (.error (.refused (.foreignAddress a t)), s)

def Config.InWindow (config : Config) (n a : Nat) : Prop :=
  nurseryStart + (n - 1) * config.nurseryReserve ≤ a ∧
    a < nurseryStart + (n - 1) * config.nurseryReserve + config.nurseryReserve

/-- The window of a number ends where that of a larger one starts, or before. -/
theorem Config.InWindow.not_lt {config : Config} {n m a : Nat} (first : n ≠ 0) (h : config.InWindow n a)
    (h' : config.InWindow m a) : ¬ n < m := by
  intro lt
  have behind : (n - 1 + 1) * config.nurseryReserve ≤ (m - 1) * config.nurseryReserve := Nat.mul_le_mul_right _ (by omega)
  rw [Nat.succ_mul] at behind
  rw [InWindow] at h h'
  omega

theorem Config.InWindow.unique {config : Config} {n m a : Nat} (first : n ≠ 0) (first' : m ≠ 0)
    (h : config.InWindow n a) (h' : config.InWindow m a) : n = m :=
  Nat.le_antisymm (Nat.not_lt.1 (h'.not_lt first' h)) (Nat.not_lt.1 (h.not_lt first h'))

/-- Each open transaction has its nursery in the window of its worker, above what is reserved for the shared heap,
    and all arenas grow in the steps of the configuration. -/
structure Windowed (s : Session) : Prop where
  small : s.heap.config.sharedReserve ≤ maxSharedReserve
  roomy : s.heap.shared.Roomy
  workers : ∀ t tx, s.tx? t = some tx → t ≠ mainThread
  windows : ∀ t tx, s.tx? t = some tx → tx.nursery.start = nurseryStart + (t - 1) * s.heap.config.nurseryReserve ∧
    tx.nursery.reserve = s.heap.config.nurseryReserve
  chunks : ∀ t tx, s.tx? t = some tx → tx.nursery.chunkSize = s.heap.config.chunkSize

open Step TxHeap.Action

section

variable {s s' : Session} {t n a : Nat} {x : Handle} {tx : Transaction} {config : Config} {layout : Layout} {log : EventLog}

namespace Windowed

theorem follows (h : Windowed s) (f : s.Follows s') : Windowed s' where
  small := by rw [f.config]; exact h.small
  roomy := by
    rw [Arena.Roomy, f.shared.reserve, f.shared.chunkSize]
    exact h.roomy
  workers t tx' htx := by
    rcases f.carries t tx' htx with ⟨tx, htx, -⟩ | ⟨worker, -⟩
    · exact h.workers t tx htx
    · exact worker
  windows := f.windows h.windows
  chunks t tx' htx := by
    rw [f.config]
    rcases f.carries t tx' htx with ⟨tx, htx, -, -, chunk⟩ | ⟨-, made⟩
    · exact chunk.trans (h.chunks t tx htx)
    · obtain ⟨-, -, -, -, chunk⟩ := newNursery_eq_ok made
      exact chunk

theorem create (fits : config.Fits) (h : Session.create config layout log = .ok s) : Windowed s := by
  have new := new_of_create h
  refine ⟨by rw [new.config]; exact (Config.check_eq_ok new.check).1, roomy_create fits h, ?_, ?_, ?_⟩
  all_goals exact each_create h

/-- A step leaves the nurseries in their windows, under the same configuration and types. -/
theorem step (h : Windowed s) (c : Command) :
    Windowed (s.step c).2 ∧ (s.step c).2.heap.config = s.heap.config ∧ (s.step c).2.heap.layout = s.heap.layout :=
  Rule.any_divides.preserves (L := .empty)
    (I := fun s' _ => Windowed s' ∧ s'.heap.config = s.heap.config ∧ s'.heap.layout = s.heap.layout)
    (fun {s' _ _} kept hc _ => by
      have follows := (step_effect (s := s') hc).follows
      exact ⟨kept.1.follows follows, follows.config.trans kept.2.1, follows.layout.trans kept.2.2⟩)
    ⟨h, rfl, rfl⟩ trivial

/-- A run leaves the nurseries in their windows, under the configuration it started with. -/
theorem run (h : Windowed s) (cs : List Command) :
    Windowed (s.run cs).2 ∧ (s.run cs).2.heap.config = s.heap.config := by
  induction cs generalizing s with
  | nil => exact ⟨h, rfl⟩
  | cons c cs ih =>
    obtain ⟨windowed, same, -⟩ := h.step c
    obtain ⟨windowed', same'⟩ := ih windowed
    exact ⟨windowed', same'.trans same⟩

theorem layout_run (h : Windowed s) (cs : List Command) : (s.run cs).2.heap.layout = s.heap.layout := by
  induction cs generalizing s with
  | nil => rfl
  | cons c cs ih =>
    obtain ⟨windowed, -, same⟩ := h.step c
    exact (ih windowed).trans same

/-- What is handed out of a nursery lies in the window of its worker. -/
theorem inWindow (h : Windowed s) (htx : s.tx? t = some tx) (ha : tx.nursery.contains a = true) :
    s.heap.config.InWindow t a := by
  obtain ⟨start, reserve⟩ := h.windows t tx htx
  have := Arena.contains_iff.1 ha
  have := tx.nursery.used_le
  rw [Arena.freePointer] at *
  rw [Config.InWindow]
  omega

/-- No window reaches into what is reserved for the shared heap. -/
theorem not_shared (h : Windowed s) (ha : s.heap.config.InWindow n a) : s.heap.spaceOf a ≠ .shared := by
  have := ha.1
  have := h.small
  rw [Heap.spaceOf, Space.of, if_neg]
  · split
    · simp
    · split
      · dsimp only
        split <;> simp
      · simp
  · simp only [maxSharedReserve, tokenStart, sharedStart, nurseryStart] at *
    omega

/-- An address in the window of another number is neither shared nor in the thread's own nursery. -/
theorem locate_eq (h : Windowed s) (hh : s.handle? t = some x) (first : n ≠ 0) (ne : n ≠ t)
    (ha : s.heap.config.InWindow n a) : x.locate s.heap a = Attempt.refuse (.foreignAddress a t) := by
  have unseen : x.sees a = false := by
    rw [Handle.sees, ← Bool.not_eq_true, Option.any_eq_true]
    rintro ⟨tx, htx, found⟩
    have htx : s.tx? t = some tx := (Session.tx?_of_handle? hh).trans htx
    exact ne (ha.unique first (h.workers t tx htx) (h.inWindow htx found))
  rw [Handle.locate, if_neg (by rw [unseen]; exact Bool.false_ne_true), if_neg (h.not_shared ha),
    Session.thread_of_handle? hh]

end Windowed

/-! ## Calls on what cannot be seen -/

variable {cause : Refusal} {α β : Type}

theorem Refused.bind {call : Action α} {next : α → Action β} (h : Refused call s cause) :
    Refused (call >>= next) s cause := by
  rw [Refused, ends_bind]
  exact h.mono (fun _ _ none => none.elim) fun _ _ refused => refused

theorem refused_ofAttempt {answer : Attempt α} (h : answer = Attempt.refuse cause) :
    Refused (ofAttempt answer) s cause := by
  rw [h]
  exact ⟨rfl, rfl⟩

theorem refused_query {ask : Handle → Heap → Attempt α} (hh : s.handle? t = some x)
    (h : ask x s.heap = Attempt.refuse cause) : Refused (query t ask) s cause := by
  rw [Refused, query, ends_bind, ends_handle_of hh]
  exact refused_ofAttempt h

/-- A call on an address that its thread cannot locate. -/
theorem foreign_of_locate (hh : s.handle? t = some x)
    (hl : x.locate s.heap a = Attempt.refuse (.foreignAddress a t)) : s.Foreign t a := by
  intro c hc
  refine Refused.step ?_
  cases c with
  | header t' a' =>
    obtain ⟨rfl, rfl⟩ := hc
    refine (refused_query hh ?_).map
    rw [Handle.header, hl]
    rfl
  | read t' a' offset =>
    obtain ⟨rfl, rfl⟩ := hc
    refine (refused_query hh ?_).map
    rw [Handle.readWord, hl]
    rfl
  | canonical t' a' =>
    obtain ⟨rfl, rfl⟩ := hc
    refine (refused_query hh ?_).map
    show (some a).mapM (x.canonical s.heap) = _
    rw [Option.mapM_some, Handle.canonical, hl]
    rfl
  | write t' a' offset value =>
    obtain ⟨rfl, rfl⟩ := hc
    exact (refused_query hh hl).bind.quietly
  | token t' a' =>
    obtain ⟨rfl, rfl⟩ := hc
    exact (refused_query hh hl).bind.map
  | copyOnWrite t' a' =>
    obtain ⟨rfl, rfl, worker⟩ := hc
    refine Refused.map ?_
    rw [Refused, copyOnWrite, ends_bind, ends_handle_of hh, if_neg worker, ends_bind, ends_get]
    exact (refused_ofAttempt hl).bind
  | _ => exact hc.elim

theorem Windowed.foreign (h : Windowed s) (hh : s.handle? t = some x) (first : n ≠ 0) (ne : n ≠ t)
    (ha : s.heap.config.InWindow n a) : s.Foreign t a :=
  foreign_of_locate hh (h.locate_eq hh first ne ha)

/-- Handles at two places have two numbers. -/
theorem Seated.other (h : Seated s) {i j : Nat} {x y : Handle} (hx : s.handles[i]? = some x) (hy : s.handles[j]? = some y)
    (ne : i ≠ j) : x.thread ≠ y.thread := by
  obtain ⟨hi, rfl⟩ := List.getElem?_eq_some_iff.1 hx
  obtain ⟨hj, rfl⟩ := List.getElem?_eq_some_iff.1 hy
  have distinct := List.pairwise_iff_getElem.1 h.distinct
  rcases Nat.lt_or_gt_of_ne ne with lt | lt
  · exact distinct i j hi hj lt
  · exact (distinct j i hj hi lt).symm

/-- Whatever was called, a handle sees nothing of the nurseries of others, nor of any window but its own. -/
theorem nurseries_are_unseen (fits : config.Fits) (created : Session.create config layout log = .ok s)
    (cs : List Command) :
    (∀ (i j : Nat) (x y : Handle) (tx : Transaction) (a : Nat), i ≠ j →
      (s.run cs).2.handles[i]? = some x → (s.run cs).2.handles[j]? = some y →
      x.tx = some tx → tx.nursery.contains a = true → (s.run cs).2.Foreign y.thread a) ∧
    ∀ (n : Nat) (y : Handle) (a : Nat), n ≠ mainThread → y ∈ (s.run cs).2.handles → n ≠ y.thread →
      config.InWindow n a → (s.run cs).2.Foreign y.thread a := by
  have config' : s.heap.config = config := (new_of_create created).config
  obtain ⟨windowed, same⟩ := (Windowed.create fits created).run cs
  have seated := (seated_create created).run cs
  refine ⟨?_, ?_⟩
  · intro i j x y tx a ne hx hy htx ha
    have hx' := List.mem_of_getElem? hx
    have found : (s.run cs).2.tx? x.thread = some tx := (seated.tx? hx').trans htx
    have others : x.thread ≠ y.thread := seated.other hx hy ne
    exact windowed.foreign (seated.handle? (List.mem_of_getElem? hy)) (windowed.workers _ _ found) others
      (windowed.inWindow found ha)
  · intro n y a first hy ne ha
    refine windowed.foreign (seated.handle? hy) first ne ?_
    rw [same, config']
    exact ha

/-- A number is used twice; its second transaction fills the nursery. Another worker and the main thread are idle. -/
def Command.reseated : List Command :=
  [.attachMain, .attachWorker, .start 1, .bump 1 8, .detach 1, .attachWorker, .attachWorker, .start 1, .bump 1 65536]

theorem nurseries_are_unseen_ofNodes :
    (∀ a ∈ [nurseryStart, nurseryStart + 65535], ∀ t ∈ [2, mainThread],
      (Session.ofNodes.run Command.reseated).2.Foreign t a) ∧
    ∀ a ∈ [nurseryStart + 65536, nurseryStart + 131071], (Session.ofNodes.run Command.reseated).2.Foreign 1 a := by
  have owner : (Session.ofNodes.run Command.reseated).2.handles[1]?.any (fun x => x.tx.any fun tx =>
      tx.nursery.contains nurseryStart && tx.nursery.contains (nurseryStart + 65535)) = true := by decide +kernel
  have idle : (Session.ofNodes.run Command.reseated).2.handles[2]?.any (·.thread = 2) = true := by decide +kernel
  have main : (Session.ofNodes.run Command.reseated).2.handles[0]?.any (·.thread = mainThread) = true := by decide +kernel
  have self : (Session.ofNodes.run Command.reseated).2.handles[1]?.any (·.thread = 1) = true := by decide +kernel
  have ⟨unseen, window⟩ := nurseries_are_unseen Config.small_fits create_ofNodes Command.reseated
  obtain ⟨x, hx, found⟩ := (Option.any_eq_true _ _).1 owner
  obtain ⟨tx, htx, found⟩ := (Option.any_eq_true _ _).1 found
  obtain ⟨y, hy, two⟩ := (Option.any_eq_true _ _).1 idle
  obtain ⟨z, hz, zero⟩ := (Option.any_eq_true _ _).1 main
  obtain ⟨w, hw, one⟩ := (Option.any_eq_true _ _).1 self
  rw [Bool.and_eq_true] at found
  rw [decide_eq_true_eq] at two zero one
  refine ⟨?_, ?_⟩
  · intro a ha t ht
    have inside : tx.nursery.contains a = true := by
      rcases List.mem_cons.mp ha with rfl | ha
      · exact found.1
      · rw [List.mem_singleton.mp ha]
        exact found.2
    rcases List.mem_cons.mp ht with rfl | ht
    · exact two ▸ unseen 1 2 x y tx a (by decide) hx hy htx inside
    · rw [List.mem_singleton.mp ht]
      exact zero ▸ unseen 1 0 x z tx a (by decide) hx hz htx inside
  · intro a ha
    refine one ▸ window 2 w a (by decide) (List.mem_of_getElem? hw) (by rw [one]; decide) ?_
    rcases List.mem_cons.mp ha with rfl | ha
    · exact ⟨by decide, by decide⟩
    · rw [List.mem_singleton.mp ha]
      exact ⟨by decide, by decide⟩

end

end TxHeap

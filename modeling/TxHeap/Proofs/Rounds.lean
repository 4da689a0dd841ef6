/-
  TxHeap.Proofs.Rounds — a preparation ends on any heap, however malformed.

  Each round takes an item off the worklist and visits it (`Rounds`). An item is on the
  worklist as a root or because a twin was made, so there are no more rounds than roots and
  twins; and each twin has bytes of the shared heap to itself, at least a header of them, so there
  are no more twins than headers fit what was left (`Paid`). No step looks whether
  the words it finds make sense, so all of this holds of any contents of nursery and shared heap.
-/
import TxHeap.Proofs.Chunks
import TxHeap.Proofs.Ground

namespace TxHeap

namespace Prepare

open Step

variable {layout : Layout} {thread : Nat} {p q : Preparation} {items : List Item} {o : Except Failure Unit}

/-- From the first preparation on, these items are taken and visited, one after the other, until none waits or a visit fails. -/
inductive Rounds (layout : Layout) (thread : Nat) : Preparation → List Item → Except Failure Unit → Preparation → Prop
  | emptied {p : Preparation} : p.pending = [] → Rounds layout thread p [] (.ok ()) p
  | visited {p r q : Preparation} {item : Item} {rest items : List Item} {u : Unit} {o : Except Failure Unit} :
      p.pending = item :: rest → visit layout thread item { p with pending := rest } = .ok u r →
      Rounds layout thread r items o q → Rounds layout thread p (item :: items) o q
  | stopped {p q : Preparation} {item : Item} {rest : List Item} {f : Failure} :
      p.pending = item :: rest → visit layout thread item { p with pending := rest } = .error f q →
      Rounds layout thread p [item] (.error f) q

/-- The rounds come to an end. -/
theorem exists_rounds (layout : Layout) (thread : Nat) (p : Preparation) : ∃ items o q, Rounds layout thread p items o q := by
  induction p using drain.induct layout thread with
  | case1 p pending => exact ⟨_, _, _, .emptied pending⟩
  | case2 p item rest pending u r visited ih =>
    obtain ⟨items, o, q, rounds⟩ := ih
    exact ⟨_, _, _, .visited pending visited rounds⟩
  | case3 p item rest pending f q visited => exact ⟨_, _, _, .stopped pending visited⟩

/-- They are the rounds of the worklist. -/
theorem Rounds.drain_eq : Rounds layout thread p items o q → drain layout thread p = match o with
    | .ok u => .ok u q
    | .error f => .error f q := by
  intro h
  induction h with
  | emptied pending => exact drain_of_nil pending
  | visited pending visited _ ih => rw [drain_of_visit pending visited, ih]
  | stopped pending visited => exact drain_of_error pending visited

/-! ## Twins are paid for -/

/--
`taken` items were taken off the worklist, on which `roots` items stood at first; for every other
there was a twin, and every twin was paid for with a header's bytes of the `room` there was.
-/
structure Paid (roots room taken : Nat) (p : Preparation) : Prop where
  waiting : taken + p.pending.length = roots + p.report.promoted
  told : p.twins.length = p.report.promoted
  sizes : ∀ b ∈ p.twins, headerSize ≤ b.size
  paid : headerSize * p.report.promoted + p.room ≤ room

variable {roots room taken : Nat}

theorem Paid.sameRoom (h : Paid roots room taken p) (same : p.SameRoom q) : Paid roots room taken q := by
  constructor
  · rw [same.pending, same.promoted]
    exact h.waiting
  · rw [same.twins, same.promoted]
    exact h.told
  · rw [same.twins]
    exact h.sizes
  · rw [same.promoted, same.room]
    exact h.paid

structure Prepaid (roots room taken twin size : Nat) (p : Preparation) : Prop where
  paid : Paid roots room taken p
  header : headerSize ≤ size
  next : headerSize * p.report.promoted + size + p.room ≤ room

theorem Prepaid.sameRoom {twin size : Nat} (h : Prepaid roots room taken twin size p) (same : p.SameRoom q) :
    Prepaid roots room taken twin size q := by
  refine ⟨h.paid.sameRoom same, h.header, ?_⟩
  rw [same.promoted, same.room]
  exact h.next

theorem Paid.take {size twin : Nat} {buffer : TwinBuffer} {shared : Arena} (h : Paid roots room taken p)
    (hsize : headerSize ≤ size) (ha : p.buffer.allocate p.shared size = .ok (twin, buffer, shared)) :
    Prepaid roots room taken twin size (p.take twin buffer shared) := by
  have left : (p.take twin buffer shared).room + size ≤ p.room := room_allocate (Nat.lt_of_lt_of_le (by decide) hsize) ha
  have twins := p.twins_take twin buffer shared
  have paid := h.paid
  have next : headerSize * p.report.promoted + size + (p.take twin buffer shared).room ≤ room := by omega
  refine ⟨⟨h.waiting, twins ▸ h.told, twins ▸ h.sizes, ?_⟩, hsize, next⟩
  exact Nat.le_trans (Nat.add_le_add_right (Nat.le_add_right _ _) _) next

theorem Prepaid.promote {twin size : Nat} (thread obj : Nat) (h : Prepaid roots room taken twin size p) :
    Paid roots room taken (p.promote thread obj twin size) := by
  have twins := p.twins_promote thread obj twin size
  have waiting := h.paid.waiting
  have next := h.next
  have header := h.header
  refine ⟨?_, ?_, ?_, ?_⟩
  · show taken + (p.pending.length + 1) = roots + (p.report.promoted + 1)
    omega
  · rw [twins, List.length_append, h.paid.told]
    rfl
  · rw [twins]
    intro b hb
    rcases List.mem_append.1 hb with hb | hb
    · exact h.paid.sizes b hb
    · rw [List.mem_singleton.1 hb]
      exact header
  · show headerSize * (p.report.promoted + 1) + p.room ≤ room
    rw [Nat.mul_add]
    omega

theorem paid_covers (layout : Layout) : Covers layout (.kept (Paid roots room taken)) where
  room := ⟨fun same paid => paid.sameRoom same, fun _ => trivial⟩
  unsized _ := trivial
  full _ := trivial
  taken header allocated same paid := ((paid.take header allocated).sameRoom same).paid
  made thread obj header allocated same paid := ((paid.take header allocated).sameRoom same).promote thread obj

/-- Each round takes one item. -/
theorem Rounds.paid (h : Rounds layout thread p items o q) (hp : Paid roots room taken p) :
    Paid roots room (taken + items.length) q := by
  have next : ∀ {p : Preparation} {item rest taken}, p.pending = item :: rest → Paid roots room taken p →
      Paid roots room (taken + 1) { p with pending := rest } := by
    intro p item rest taken pending hp
    refine ⟨?_, hp.told, hp.sizes, hp.paid⟩
    rw [← hp.waiting, pending, List.length_cons, Nat.add_assoc, Nat.add_comm 1]
  induction h generalizing taken with
  | emptied => exact hp
  | visited pending visited _ ih =>
    rw [List.length_cons, Nat.add_comm _ 1, ← Nat.add_assoc]
    exact ih (((paid_covers layout).visit thread _ _).of_ok visited (next pending hp))
  | stopped pending visited => exact (((paid_covers layout).visit thread _ _).of_error visited).1 (next pending hp)

theorem paid_ofHeap (heap : Heap) (tx : Transaction) :
    Paid tx.objects.size heap.shared.remaining 0 (.ofHeap heap tx) := by
  refine ⟨?_, rfl, nofun, Nat.le_of_eq ?_⟩
  · rw [Preparation.ofHeap, List.length_reverse, List.length_map]
    exact Nat.zero_add _
  · show headerSize * 0 + (heap.shared.remaining + (0 - 0)) = heap.shared.remaining
    rw [Nat.mul_zero, Nat.zero_add, Nat.sub_zero, Nat.add_zero]

end Prepare

open Prepare

/-! ## Any contents whatsoever -/

variable {config : Config} {registry : Registry} {log : EventLog} {s s' : Session} {t : Nat} {tx : Transaction}

/--
The session `s'` has a heap that was reached somehow, but with any bytes in it, and any transaction.
Its prepare answers or is refused. Its rounds come to an end, and so does `drain` with what they
leave: no more items are taken than there were roots and twins; the twins are apart, each of a
header's size at least, in what was left of the shared heap; so there are no more of them than
headers fit there.
-/
theorem prepare_always_ends (fits : config.Fits) (built : registry.Built) (bounded : registry.layout.Bounded)
    (created : Session.create config registry.layout log = .ok s) (cs : List Command) (bytes : Memory)
    (heap : s'.heap = ((s.run cs).2.setShared { (s.run cs).2.heap.shared with memory := bytes }).heap)
    (htx : s'.tx? t = some tx) (active : tx.phase = .active) :
    ((∃ report, (s'.step (.prepare t)).1 = .ok (.report report)) ∨
      ∃ cause, (s'.step (.prepare t)).1 = .error (.refused cause)) ∧
    (∃ items o q, Rounds registry.layout t (.ofHeap s'.heap tx) items o q) ∧
    ∀ items o q, Rounds registry.layout t (.ofHeap s'.heap tx) items o q →
      (o = .ok () ∧ drain registry.layout t (.ofHeap s'.heap tx) = .ok () q ∨
        ∃ cause, o = .error (.refused cause) ∧
          drain registry.layout t (.ofHeap s'.heap tx) = .error (.refused cause) q) ∧
      items.length ≤ tx.objects.size + q.report.promoted ∧
      q.twins.length = q.report.promoted ∧
      q.twins.Pairwise Block.Apart ∧
      (∀ b ∈ q.twins, headerSize ≤ b.size ∧ s'.heap.shared.freePointer ≤ b.start ∧ b.stop ≤ q.shared.freePointer) ∧
      q.report.promoted ≤ s'.heap.shared.remaining / headerSize := by
  have layout : (s.run cs).2.heap.layout = registry.layout :=
    ((grounded_create fits built created).run cs).2.trans (new_of_create created).layout
  have ground := ((grounded_create fits built created).run cs).1
  have same : s'.heap.layout = registry.layout := by
    rw [heap]
    exact layout
  have roomy : (Preparation.ofHeap s'.heap tx).shared.Roomy := by
    show s'.heap.shared.Roomy
    rw [heap]
    exact ground.roomy
  have sound := built.sound
  refine ⟨?_, exists_rounds _ _ _, ?_⟩
  · have run := onward_run registry.layout t (.ofHeap s'.heap tx)
    rw [outcome_prepare htx active, same]
    cases hrun : Prepare.run registry.layout t (.ofHeap s'.heap tx) with
    | ok report q => exact .inl ⟨report, rfl⟩
    | error f q =>
      obtain ⟨cause, rfl⟩ := (run.of_error hrun).2 roomy sound bounded
      exact .inr ⟨cause, rfl⟩
  · intro items o q rounds
    have ended := rounds.drain_eq
    have paid := rounds.paid (paid_ofHeap s'.heap tx)
    have twins : TwinsApart s'.heap.shared.freePointer q := by
      have drained := twinsApart_drain s'.heap.shared.freePointer registry.layout t (.ofHeap s'.heap tx)
      cases o with
      | ok u => exact drained.of_ok ended (twinsApart_ofHeap s'.heap tx)
      | error f => exact (drained.of_error ended).1 (twinsApart_ofHeap s'.heap tx)
    refine ⟨?_, ?_, paid.told, twins.apart, ?_, ?_⟩
    · cases o with
      | ok u => exact .inl ⟨rfl, ended⟩
      | error f =>
        obtain ⟨cause, rfl⟩ := ((onward_drain registry.layout t _).of_error ended).2 roomy sound bounded
        exact .inr ⟨cause, rfl, ended⟩
    · have := paid.waiting
      omega
    · intro b hb
      obtain ⟨start, stop⟩ := twins.inside b hb
      exact ⟨paid.sizes b hb, start, Nat.le_trans stop (Nat.le_trans twins.rest twins.taken)⟩
    · rw [Nat.le_div_iff_mul_le (by decide), Nat.mul_comm]
      exact Nat.le_trans (Nat.le_add_right _ _) paid.paid

/-- A root's copy reaches a self-loop and, in the middle of one node, a node that is none and overlaps the next. -/
def Command.malformed : List Command :=
  [.attachMain, .create mainThread 0, .attachWorker, .start 1, .copyOnWrite 1 sharedStart, .create 1 0, .create 1 0,
    .create 1 0, .write 1 nurseryStart 0 (nurseryStart + 48), .write 1 (nurseryStart + 48) 0 (nurseryStart + 48),
    .write 1 nurseryStart 8 (nurseryStart + 96), .write 1 (nurseryStart + 96) 0 (nurseryStart + 128),
    .write 1 (nurseryStart + 48) 8 (nurseryStart + 144)]

/-- The bytes of the root are overwritten besides. -/
def Session.malformed : Session :=
  (Session.ofNodes.run Command.malformed).2.setShared
    { (Session.ofNodes.run Command.malformed).2.heap.shared with memory := Memory.empty.writeWord sharedStart 7 }

/-- Four twins are made, one of them of the node that is none. -/
theorem prepare_always_ends_malformed :
    ∃ tx items q, Session.malformed.tx? 1 = some tx ∧
      Rounds Registry.nodes.layout 1 (.ofHeap Session.malformed.heap tx) items (.ok ()) q ∧
      drain Registry.nodes.layout 1 (.ofHeap Session.malformed.heap tx) = .ok () q ∧
      q.report.promoted = 4 ∧ items.length ≤ 1 + 4 ∧ q.twins.Pairwise Block.Apart := by
  obtain ⟨tx, htx⟩ := Option.isSome_iff_exists.1 (show (Session.malformed.tx? 1).isSome = true by decide +kernel)
  have seen : (Session.malformed.tx? 1).all (fun tx => tx.phase == .active && tx.objects.size == 1 &&
      match drain Registry.nodes.layout 1 (.ofHeap Session.malformed.heap tx) with
        | .ok _ q => q.report.promoted == 4
        | .error _ _ => false) = true := by decide +kernel
  rw [htx, Option.all_some, Bool.and_eq_true, Bool.and_eq_true, beq_iff_eq, beq_iff_eq] at seen
  obtain ⟨⟨active, roots⟩, drained⟩ := seen
  obtain ⟨-, ⟨items, o, q, rounds⟩, bounds⟩ := prepare_always_ends Config.small_fits Registry.nodes_built
    Registry.nodes_bounded create_ofNodes Command.malformed (Memory.empty.writeWord sharedStart 7)
    (show Session.malformed.heap = _ from rfl) htx active
  obtain ⟨⟨rfl, ended⟩ | ⟨cause, rfl, ended⟩, taken, -, apart, -, -⟩ := bounds items o q rounds
  · rw [ended] at drained
    have promoted : q.report.promoted = 4 := beq_iff_eq.1 drained
    rw [promoted, roots] at taken
    exact ⟨tx, items, q, htx, rounds, ended, promoted, taken, apart⟩
  · rw [ended] at drained
    cases drained

end TxHeap

/-
  TxHeap.Proofs.LiveGraph — a prepare copies exactly the live private graph.

  The objects of a transaction and the strong pointers between them may form any graph. A
  prepare that answers has promoted exactly the fresh objects that can be reached from the
  working copies, each once, into bytes of the shared heap that were free; and the body of
  every working copy and of every twin is what it was, with each pointer replaced by its
  image (`PublishedGraph`, `prepare_publishes_live_graph`).
-/
import TxHeap.Proofs.Intact
import TxHeap.Proofs.Settlement

namespace TxHeap

/-- The rule of a prepare: pointers of the thread's objects that fall into its nursery are starts of objects of it. -/
def Ledger.FieldsAim (L : Ledger) (s : Session) (t : Nat) : Prop :=
  ∀ tx ∈ s.tx? t, tx.phase = .active → ∀ r ∈ L.own t, ∀ offset ∈ s.heap.layout.fields r.typeId,
    tx.nursery.contains (tx.nursery.memory.readWord (r.bodyAddr + offset)) = true →
      ∃ r' ∈ L.own t, r'.addr = tx.nursery.memory.readWord (r.bodyAddr + offset)

/-- The pointers of the thread's objects are null, starts of objects of it, or addresses in the shared heap. -/
def Ledger.FieldsKnown (L : Ledger) (s : Session) (t : Nat) : Prop :=
  ∀ tx ∈ s.tx? t, ∀ r ∈ L.own t, ∀ offset ∈ s.heap.layout.fields r.typeId,
    tx.nursery.memory.readWord (r.bodyAddr + offset) = 0 ∨
      (∃ r' ∈ L.own t, r'.addr = tx.nursery.memory.readWord (r.bodyAddr + offset)) ∨
      s.heap.shared.contains (tx.nursery.memory.readWord (r.bodyAddr + offset)) = true

instance (L : Ledger) (s : Session) (t : Nat) : Decidable (L.FieldsKnown s t) := by
  unfold Ledger.FieldsKnown
  infer_instance

/-- What a strong pointer has become: null is kept, a working copy is replaced by its root, a promoted object by its twin, and a shared address is kept. -/
inductive PointerImage (own : List Record) (nursery' shared : Arena) : Nat → Nat → Prop
  | null : PointerImage own nursery' shared 0 0
  | root {r : Record} {root : Nat} : r ∈ own → r.kind = .copyOf root → PointerImage own nursery' shared r.addr root
  | twin {r : Record} {twin : Nat} : r ∈ own → r.kind = .fresh → nursery'.memory.twinOf? r.addr = some twin →
      PointerImage own nursery' shared r.addr twin
  | shared {v : Nat} : shared.contains v = true → PointerImage own nursery' shared v v

/-- A weak pointer to an object that was not promoted is cleared. -/
def WeakImage (own : List Record) (nursery' shared : Arena) (v v' : Nat) : Prop :=
  PointerImage own nursery' shared v v' ∨
    v' = 0 ∧ ∃ r ∈ own, r.addr = v ∧ r.kind = .fresh ∧ nursery'.memory.twinOf? r.addr = none

/-- A body found at `old`, and what has become of it at `new`. -/
structure Translated (layout : Layout) (r : Record) (image weak : Nat → Nat → Prop) (before : Memory) (old : Nat)
    (after : Memory) (new : Nat) : Prop where
  strong : ∀ offset ∈ layout.pointers r.typeId, image (before.readWord (old + offset)) (after.readWord (new + offset))
  weak : ∀ offset, layout.weak? r.typeId = some offset →
    weak (before.readWord (old + offset)) (after.readWord (new + offset))
  /-- Bytes outside the pointers are kept. -/
  rest : ∀ i < r.bodySize, (∀ offset ∈ layout.fields r.typeId, i < offset ∨ offset + wordSize ≤ i) →
    after.get (new + i) = before.get (old + i)

section

variable {layout : Layout} {own shared : List Record} {p₀ p : Preparation} {late : Prop} {g : Progress}
  {r r' : Record} {twin : Nat} {m m' : Memory}

theorem Intact.ready {heap : Heap} {tx : Transaction} (h : Intact heap.layout own tx) (sound : heap.layout.Sound)
    (roomy : heap.shared.Roomy) (keeps : heap.shared.Keeps heap.layout shared)
    (aim : ∀ r ∈ own, ∀ offset ∈ heap.layout.fields r.typeId,
      tx.nursery.contains (tx.nursery.memory.readWord (r.bodyAddr + offset)) = true →
        ∃ r' ∈ own, r'.addr = tx.nursery.memory.readWord (r.bodyAddr + offset)) :
    Ready heap.layout own shared (.ofHeap heap tx) where
  sound := sound
  roomy := roomy
  nursery := h.nursery
  keeps := keeps
  kinds r hr := (h.kinds r hr).imp id fun ⟨root, hk, _, lt⟩ => ⟨root, hk, lt⟩
  pairs := h.pairs
  aim r hr offset ho := by
    rw [← h.nursery.readWord_eq hr (sound.field_le_size ho (h.nursery.sized r hr)), ← Nat.add_assoc]
    exact aim r hr offset ho

/-- A pointer that is recorded is the one in the nursery when the preparation starts. -/
theorem Ready.word_eq {heap : Heap} {tx : Transaction} {offset : Nat} (ready : Ready layout own shared (.ofHeap heap tx))
    (hr : r ∈ own) (ho : offset ∈ layout.fields r.typeId) :
    r.word offset = tx.nursery.memory.readWord (r.bodyAddr + offset) := by
  rw [Going.word_eq ready hr ho]
  rfl

theorem version_copyHeader {typeId root : Nat} (h : root ≠ 0) : (Action.copyHeader typeId root).version = .copyOf root :=
  Header.version_setVersion _ fun null => h (Option.some.inj null)

theorem copyHeader_not_forwarded (typeId root : Nat)
    (h : (match (Action.copyHeader typeId root).version with
      | .forwarded twin => some twin
      | _ => none) = some twin) : False := by
  by_cases e : root = 0
  · have empty : (Action.copyHeader typeId 0).version = .empty := rfl
    rw [e, empty] at h
    cases h
  · rw [version_copyHeader e] at h
    cases h

/-- Headers tell who was promoted, and where. -/
theorem Going.twinOf?_iff (ready : Ready layout own shared p₀) (h : Going layout own shared p₀ late g p) (hr : r ∈ own) :
    p.tx.nursery.memory.twinOf? r.addr = some twin ↔ (r, twin) ∈ g.moves := by
  have header := h.nursery.header _ (List.mem_map_of_mem (f := g.own) hr)
  rw [(h.shape r hr).1] at header
  rw [Memory.twinOf?, header]
  rcases ready.kinds r hr with hk | ⟨root, hk, -⟩
  · rcases h.fresh r hr hk with ⟨e, none⟩ | ⟨t, ht, e⟩
    · rw [e, Record.header, hk]
      refine ⟨fun e => (by cases e), ?_⟩
      intro hm
      obtain ⟨t, ht, -⟩ := Progress.mem_moves.1 hm
      exact absurd ht (none t)
    · have hne := Nat.pos_iff_ne_zero.1 (h.shared.addr_pos (twin_mem ht))
      have version : (g.own r).header.version = .forwarded t.addr := by
        rw [e]
        exact version_forwarded hne
      rw [version]
      refine ⟨?_, ?_⟩
      · intro e
        cases e
        exact Progress.mem_moves.2 ⟨t, ht, rfl⟩
      · intro hm
        -- an object has one twin only
        obtain ⟨t', ht', rfl⟩ := Progress.mem_moves.1 hm
        rw [h.twin_once ht ht']
  · refine ⟨?_, ?_⟩
    · intro e
      rw [Record.header, h.copies r hr root hk, hk] at e
      exact (copyHeader_not_forwarded _ _ e).elim
    · intro hm
      rw [(h.fresh_of_moves hm).2] at hk
      cases hk

/-- A body all of whose fields are done. -/
theorem translated_of_replaced {becomes : Nat → Nat → Nat → Prop} {image weak : Nat → Nat → Prop} {old new : Nat}
    {content : List UInt8} (sound : layout.Sound) (sized : layout.objectSize r.typeId = .ok r.size)
    (h : Replaced becomes (layout.fields r.typeId) (layout.fields r.typeId) r.content content)
    (before : m.read old r.bodySize = r.content) (after : m'.read new r.bodySize = content)
    (strong : ∀ offset ∈ layout.pointers r.typeId, ∀ v', becomes offset (r.word offset) v' → image (r.word offset) v')
    (cleared : ∀ offset, layout.weak? r.typeId = some offset → ∀ v', becomes offset (r.word offset) v' →
      weak (r.word offset) v') :
    Translated layout r image weak m old m' new := by
  have fit : ∀ offset ∈ layout.fields r.typeId, offset + wordSize ≤ r.bodySize := fun offset ho => by
    have := sound.field_le_size ho sized
    rw [Record.bodySize]
    omega
  have word : ∀ offset ∈ layout.fields r.typeId, m.readWord (old + offset) = r.word offset ∧
      m'.readWord (new + offset) = wordAt content offset := fun offset ho => by
    rw [← Memory.wordAt_read (fit offset ho), ← Memory.wordAt_read (fit offset ho), before, after]
    exact ⟨rfl, rfl⟩
  refine ⟨?_, ?_, ?_⟩
  · intro offset ho
    have mem : offset ∈ layout.fields r.typeId := List.mem_append_left _ ho
    rw [(word offset mem).1, (word offset mem).2]
    exact strong offset ho _ (h.replaced offset mem)
  · intro offset ho
    have mem : offset ∈ layout.fields r.typeId := List.mem_append_right _ (by rw [ho]; exact List.mem_singleton_self _)
    rw [(word offset mem).1, (word offset mem).2]
    exact cleared offset ho _ (h.replaced offset mem)
  · intro i hi apart
    have rest := h.rest i apart
    rw [← before, ← after, Memory.getElem?_read, Memory.getElem?_read, if_pos hi, if_pos hi] at rest
    exact Option.some.inj rest

end

/-- What a prepare has made of a transaction's objects, told from the arenas before and after. -/
structure PublishedGraph (layout : Layout) (own : List Record) (nursery shared nursery' shared' : Arena)
    (report : Report) : Prop where
  /-- Exactly the fresh objects that can be reached through strong pointers are forwarded. -/
  forwarded_iff : ∀ r ∈ own, (nursery'.memory.twinOf? r.addr).isSome = true ↔
    r.kind = .fresh ∧ Reaches layout own (fun r offset => nursery.memory.readWord (r.bodyAddr + offset)) r.addr
  /-- Each is promoted once. -/
  promoted : report.promoted = (own.filter fun r => (nursery'.memory.twinOf? r.addr).isSome).length
  /-- Twins take bytes that were not handed out before. -/
  unallocated : ∀ r ∈ own, ∀ twin, nursery'.memory.twinOf? r.addr = some twin →
    shared.freePointer ≤ twin ∧ twin + r.size ≤ shared'.freePointer
  apart : ∀ r ∈ own, ∀ r' ∈ own, r ≠ r' → ∀ twin twin', nursery'.memory.twinOf? r.addr = some twin →
    nursery'.memory.twinOf? r'.addr = some twin' → twin + r.size ≤ twin' ∨ twin' + r'.size ≤ twin
  header : ∀ r ∈ own, ∀ twin, nursery'.memory.twinOf? r.addr = some twin →
    shared'.memory.headerAt twin = ⟨r.typeId, Flag.global, 0⟩
  /-- Working copies are translated in place. -/
  copies : ∀ r ∈ own, ∀ root, r.kind = .copyOf root → Translated layout r (PointerImage own nursery' shared)
    (WeakImage own nursery' shared) nursery.memory r.bodyAddr nursery'.memory r.bodyAddr
  twins : ∀ r ∈ own, ∀ twin, nursery'.memory.twinOf? r.addr = some twin →
    Translated layout r (PointerImage own nursery' shared) (WeakImage own nursery' shared)
      nursery.memory r.bodyAddr shared'.memory (twin + headerSize)

section

variable {layout : Layout} {own shared : List Record} {p₀ p : Preparation} {g : Progress} {r : Record} {v v' : Nat}

/-- Images under a finished preparation, told by headers. -/
theorem Going.pointerImage (ready : Ready layout own shared p₀) (h : Going layout own shared p₀ True g p)
    (known : v = 0 ∨ (∃ r ∈ own, r.addr = v) ∨ p₀.shared.contains v = true) (hv : Image own g.moves p.Outside v v') :
    PointerImage own p.tx.nursery p₀.shared v v' := by
  cases hv with
  | null => exact .null
  | root hr hk => exact .root hr hk
  | twin hm =>
    obtain ⟨hr, hk⟩ := h.fresh_of_moves hm
    exact .twin hr hk ((h.twinOf?_iff ready hr).2 hm)
  | shared hout =>
    rcases known with rfl | ⟨r, hr, rfl⟩ | hin
    · exact .null
    · have := ready.nursery.contains hr
      rw [← h.onward.nursery_contains, hout.1] at this
      cases this
    · exact .shared hin

theorem Going.weakImage (ready : Ready layout own shared p₀) (h : Going layout own shared p₀ True g p)
    (known : v = 0 ∨ (∃ r ∈ own, r.addr = v) ∨ p₀.shared.contains v = true)
    (hv : Image own g.moves p.Outside v v' ∨ Cleared own g.moves v v') : WeakImage own p.tx.nursery p₀.shared v v' := by
  rcases hv with hv | ⟨rfl, r, hr, rfl, hk, hn⟩
  · exact .inl (h.pointerImage ready known hv)
  · refine .inr ⟨rfl, r, hr, rfl, hk, Option.eq_none_iff_forall_ne_some.2 ?_⟩
    intro twin e
    exact hn twin ((h.twinOf?_iff ready hr).1 e)

/-- All fields of an item are images when the preparation is over. -/
theorem Going.translated {item : Item} {r' : Record} {m m' : Memory} {old new : Nat} (ready : Ready layout own shared p₀)
    (h : Going layout own shared p₀ True g p) (finished : Finished layout own g)
    (known : ∀ r ∈ own, ∀ offset ∈ layout.fields r.typeId,
      r.word offset = 0 ∨ (∃ r' ∈ own, r'.addr = r.word offset) ∨ p₀.shared.contains (r.word offset) = true)
    (hs : g.Stands own item r r') (before : m.read old r.bodySize = r.content)
    (after : m'.read new r.bodySize = r'.content) :
    Translated layout r (PointerImage own p.tx.nursery p₀.shared) (WeakImage own p.tx.nursery p₀.shared) m old m' new := by
  have hr := (h.stands_shape hs).1
  have body := (h.bodies item r r' hs).2
  rw [finished.done item r ⟨r', hs⟩] at body
  -- an offset is that of a strong pointer or that of the weak field, but not of both
  have only : ∀ offset ∈ layout.pointers r.typeId, layout.weak? r.typeId ≠ some offset := fun offset ho hw => by
    have nodup := ready.sound.fields_nodup r.typeId
    rw [Layout.fields, hw] at nodup
    exact (List.nodup_append.mp nodup).2.2 offset ho offset (List.mem_singleton_self _) rfl
  refine translated_of_replaced ready.sound (ready.nursery.sized r hr) body before after ?_ ?_
  · intro offset ho v' found
    rcases found with ⟨-, hv⟩ | ⟨hw, -⟩
    · exact h.pointerImage ready (known r hr offset (List.mem_append_left _ ho)) hv
    · exact absurd hw (only offset ho)
  · intro offset ho v' found
    rcases found with ⟨hp, -⟩ | ⟨-, -, hv⟩
    · exact absurd ho (only offset hp)
    · exact h.weakImage ready (known r hr offset (List.mem_append_right _ (by rw [ho]; exact List.mem_singleton_self _))) hv

/-- The twin that a header tells. -/
theorem Going.twin_of_twinOf? {twin : Nat} (ready : Ready layout own shared p₀) (h : Going layout own shared p₀ True g p)
    (hr : r ∈ own) (e : p.tx.nursery.memory.twinOf? r.addr = some twin) :
    ∃ t, (r, t) ∈ g.twins ∧ t.addr = twin ∧ t.size = r.size := by
  obtain ⟨t, ht, addr⟩ := Progress.mem_moves.1 ((h.twinOf?_iff ready hr).1 e)
  exact ⟨t, ht, addr, (h.twins r t ht).2.2.2.1⟩

theorem Going.isSome_twinOf?_iff (ready : Ready layout own shared p₀) (h : Going layout own shared p₀ True g p)
    (hr : r ∈ own) : (p.tx.nursery.memory.twinOf? r.addr).isSome = true ↔ ∃ twin, (r, twin) ∈ g.moves := by
  rw [Option.isSome_iff_exists]
  exact exists_congr fun twin => h.twinOf?_iff ready hr

/-- The objects that are forwarded are the live ones. -/
theorem Going.forwarded_iff (ready : Ready layout own shared p₀) (h : Going layout own shared p₀ True g p)
    (finished : Finished layout own g) (hr : r ∈ own) :
    (p.tx.nursery.memory.twinOf? r.addr).isSome = true ↔
      r.kind = .fresh ∧ Reaches layout own (fun r offset => p₀.tx.nursery.memory.readWord (r.bodyAddr + offset)) r.addr := by
  have words : ∀ x ∈ own, ∀ offset ∈ layout.pointers x.typeId,
      x.word offset = p₀.tx.nursery.memory.readWord (x.bodyAddr + offset) :=
    fun x hx offset ho => word_eq ready hx (List.mem_append_left _ ho)
  rw [h.isSome_twinOf?_iff ready hr, ← reaches_congr words]
  constructor
  · intro promoted
    obtain ⟨twin, hm⟩ := promoted
    have hk := (h.fresh_of_moves hm).2
    exact ⟨hk, (finished.promoted_iff r hr hk).1 ⟨twin, hm⟩⟩
  · intro live
    exact (finished.promoted_iff r hr live.1).2 live.2

/-- There are as many forwarded objects as promotions. -/
theorem Going.length_forwarded (ready : Ready layout own shared p₀) (h : Going layout own shared p₀ True g p) :
    (own.filter fun r => (p.tx.nursery.memory.twinOf? r.addr).isSome).length = g.moves.length := by
  have perm : (own.filter fun r => (p.tx.nursery.memory.twinOf? r.addr).isSome).Perm (g.twins.map Prod.fst) := by
    refine (List.perm_ext_iff_of_nodup (ready.nursery.nodup.filter _) h.once).2 ?_
    intro r
    rw [List.mem_filter, List.mem_map]
    constructor
    · intro forwarded
      obtain ⟨twin, hm⟩ := (h.isSome_twinOf?_iff ready forwarded.1).1 forwarded.2
      obtain ⟨t, ht, -⟩ := Progress.mem_moves.1 hm
      exact ⟨(r, t), ht, rfl⟩
    · intro promoted
      obtain ⟨⟨x, t⟩, ht, rfl⟩ := promoted
      have hr := (h.twins x t ht).1
      exact ⟨hr, (h.isSome_twinOf?_iff ready hr).2 ⟨t.addr, Progress.mem_moves.2 ⟨t, ht, rfl⟩⟩⟩
  rw [perm.length_eq, Progress.moves, List.length_map, List.length_map]

theorem Going.published {report : Report} (ready : Ready layout own shared p₀) (h : Going layout own shared p₀ True g p)
    (finished : Finished layout own g) (promoted : report.promoted = g.moves.length)
    (known : ∀ r ∈ own, ∀ offset ∈ layout.fields r.typeId,
      r.word offset = 0 ∨ (∃ r' ∈ own, r'.addr = r.word offset) ∨ p₀.shared.contains (r.word offset) = true) :
    PublishedGraph layout own p₀.tx.nursery p₀.shared p.tx.nursery p.shared report := by
  have before : ∀ r ∈ own, p₀.tx.nursery.memory.read r.bodyAddr r.bodySize = r.content := ready.nursery.body
  refine ⟨fun r hr => h.forwarded_iff ready finished hr, promoted.trans (h.length_forwarded ready).symm, ?_, ?_, ?_, ?_, ?_⟩
  · intro r hr twin e
    obtain ⟨t, ht, rfl, size⟩ := h.twin_of_twinOf? ready hr e
    refine ⟨(h.above r t ht).1, ?_⟩
    rw [← size]
    exact (h.shared.inside t (twin_mem ht)).2
  · intro r hr r' hr' ne twin twin' e e'
    obtain ⟨t, ht, rfl, size⟩ := h.twin_of_twinOf? ready hr e
    obtain ⟨t', ht', rfl, size'⟩ := h.twin_of_twinOf? ready hr' e'
    rw [← size, ← size']
    exact h.shared.apart_of_ne (twin_mem ht) (twin_mem ht') fun e => ne (h.twin_unique ht ht' (by rw [e])).1
  · intro r hr twin e
    obtain ⟨t, ht, rfl, -⟩ := h.twin_of_twinOf? ready hr e
    obtain ⟨-, -, typeId, -, kind⟩ := h.twins r t ht
    rw [h.shared.header t (twin_mem ht), Record.header, kind, ← typeId]
    rfl
  · intro r hr root hk
    refine h.translated ready finished known (.root hr hk) (before r hr) ?_
    have body := h.nursery.body _ (List.mem_map_of_mem (f := g.own) hr)
    rw [Record.bodyAddr, Record.bodySize, (h.shape r hr).1, (h.shape r hr).2.2] at body
    exact body
  · intro r hr twin e
    obtain ⟨t, ht, rfl, size⟩ := h.twin_of_twinOf? ready hr e
    refine h.translated ready finished known (.twin ht) (before r hr) ?_
    have body := h.shared.body t (twin_mem ht)
    rw [Record.bodyAddr, Record.bodySize, size] at body
    exact body

end

/-! ## The prepare of a life -/

variable {s : Session} {L : Ledger} {t : Nat} {tx : Transaction} {report : Report}

theorem step_prepare_ok (ok : (s.step (.prepare t)).1 = .ok (.report report)) :
    ∃ tx p, s.tx? t = some tx ∧ tx.phase = .active ∧ Prepare.run s.heap.layout t (.ofHeap s.heap tx) = .ok report p ∧
      (s.adopt t p fun tx => { tx with phase := .prepared, report }).Agrees (s.step (.prepare t)).2 := by
  have e : Effect s (.prepare t) _ _ := step_effect nofun
  rw [ok] at e
  generalize (s.step (.prepare t)).2 = s' at e
  cases e with
  | answered asks => exact asks.elim
  | prepared htx hactive hrun agrees => exact ⟨_, _, htx, hactive, hrun, agrees⟩

theorem Ledger.FieldsKnown.aim (h : L.FieldsKnown s t) (ground : Grounded s) : L.FieldsAim s t := by
  intro tx htx _ r hr offset ho hin
  rcases h tx htx r hr offset ho with e | hown | hshared
  · rw [e, Arena.contains_iff] at hin
    have := tx.nursery.start_pos
    omega
  · exact hown
  · rw [ground.not_nursery htx hshared] at hin
    cases hin

/-- Whatever the graph of a transaction's objects, a prepare that answers has copied exactly the live part of it. -/
theorem prepare_publishes_live_graph (life : Lived storesAim s L) (bounded : s.heap.layout.Bounded)
    (htx : s.tx? t = some tx) (known : L.FieldsKnown s t) (ok : (s.step (.prepare t)).1 = .ok (.report report)) :
    ∃ tx', (s.step (.prepare t)).2.tx? t = some tx' ∧
      PublishedGraph s.heap.layout (L.own t) tx.nursery s.heap.shared tx'.nursery (s.step (.prepare t)).2.heap.shared
        report := by
  obtain ⟨ground, intact⟩ := life.intact
  obtain ⟨tx', p, htx', hactive, hrun, agrees⟩ := step_prepare_ok ok
  rw [htx] at htx'
  cases htx'
  have intact := intact bounded t tx htx hactive
  have ready : Ready s.heap.layout (L.own t) [] (.ofHeap s.heap tx) :=
    intact.ready ground.sound ground.roomy (.nil _ _) (known.aim ground tx htx hactive)
  obtain ⟨g, going, finished, promoted⟩ := (going_run ready t).of_ok hrun
  refine ⟨_, (agrees.tx? t).trans (Session.tx?_setTx_of_tx? htx), ?_⟩
  rw [agrees.shared]
  refine going.published ready finished promoted ?_
  intro r hr offset ho
  rw [ready.word_eq hr ho]
  exact known tx htx r hr offset ho

/-- The copy of a shared node points into a cycle of two nodes, one of which has a weak pointer to a third. -/
def cyclic : List Command :=
  let copy := nurseryStart
  let x := copy + 48
  let y := x + 48
  let z := y + 48
  [.attachMain, .create mainThread 0, .attachWorker, .start 1, .copyOnWrite 1 sharedStart, .create 1 0, .create 1 0,
    .create 1 0, .write 1 copy 0 x, .write 1 x 0 y, .write 1 x 8 x, .write 1 y 0 x, .write 1 y 8 copy, .write 1 y 16 z,
    .write 1 x 16 y]

theorem open_cyclic : ∃ tx, (Session.ofNodes.run cyclic).2.tx? 1 = some tx :=
  Option.isSome_iff_exists.1 (by decide +kernel)

theorem prepare_cyclic : ((Session.ofNodes.run cyclic).2.step (.prepare 1)).1 = .ok (.report
    { roots := 1, promoted := 2, bytesPromoted := 96, sharedConsumed := 256, weakRedirected := 1, weakCleared := 1 }) := by
  decide +kernel

/-- The cycle is promoted, the third node is not. -/
theorem prepare_publishes_cycle :
    ∃ tx tx', (Session.ofNodes.run cyclic).2.tx? 1 = some tx ∧
      ((Session.ofNodes.run cyclic).2.step (.prepare 1)).2.tx? 1 = some tx' ∧
      PublishedGraph (Session.ofNodes.run cyclic).2.heap.layout ((Ledger.empty.along .ofNodes cyclic).own 1) tx.nursery
        (Session.ofNodes.run cyclic).2.heap.shared tx'.nursery
        ((Session.ofNodes.run cyclic).2.step (.prepare 1)).2.heap.shared
        { roots := 1, promoted := 2, bytesPromoted := 96, sharedConsumed := 256, weakRedirected := 1, weakCleared := 1 } := by
  have life : Lived storesAim (Session.ofNodes.run cyclic).2 (Ledger.empty.along .ofNodes cyclic) :=
    .ofNodes (by decide +kernel)
  have layout := (grounded_ofNodes.run cyclic).2
  obtain ⟨tx, htx⟩ := open_cyclic
  obtain ⟨tx', published⟩ := prepare_publishes_live_graph life (by rw [layout]; exact Registry.nodes_bounded) htx
    (by decide +kernel) prepare_cyclic
  exact ⟨tx, tx', htx, published⟩

end TxHeap

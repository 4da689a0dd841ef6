/-
  TxHeap.Proofs.OwnView — what a transaction reads of shared objects.

  A transaction that has a working copy of a shared object reads the copy, whether it names
  the object or the copy: the bytes the object had when the copy was made, under the own
  stores to the copy since, whatever anybody else has stored, copied or committed meanwhile.
  An object it has not copied it reads as it is now (`transactions_read_their_own_view`).

  A read looks for a copy only if the object is marked as copied. That never hides a copy,
  as the mark is set with the first copy that anyone makes and is never taken back.
-/
import TxHeap.Proofs.SharedWrites

namespace TxHeap

structure OwnView (s : Session) (L : Ledger) (t : Nat) (tx : Transaction) : Prop where
  /-- An object with a working copy reads like the copy. -/
  copied : ∀ obj copy, tx.objects.copyOf? obj = some copy → ∃ r ∈ L.own t, r.addr = copy ∧ r.kind = .copyOf obj ∧
    ∀ payload offset, s.heap.layout.payload? r.typeId = some payload → offset + wordSize ≤ payload →
      (s.step (.read t obj offset)).1 = .ok (.word (r.word offset)) ∧
        (s.step (.read t copy offset)).1 = .ok (.word (r.word offset))
  /-- Any other shared object reads as it is. -/
  uncopied : ∀ o ∈ L.shared, tx.objects.copyOf? o.addr = none →
    ∀ payload offset, s.heap.layout.payload? o.typeId = some payload → offset + wordSize ≤ payload →
      (s.step (.read t o.addr offset)).1 = .ok (.word (s.heap.shared.memory.readWord (o.bodyAddr + offset)))
  marked : ∀ obj copy, tx.objects.copyOf? obj = some copy → (s.heap.shared.memory.headerAt obj).isCopied = true

variable {s : Session} {L : Ledger} {t obj copy offset payload value : Nat} {tx : Transaction} {r : Record}

/-! ## Reads -/

theorem handle_of_tx? (htx : s.tx? t = some tx) : ∃ h, s.handle? t = some h ∧ h.tx = some tx := by
  rw [Session.tx?] at htx
  exact Option.bind_eq_some_iff.1 htx

theorem step_read {h : Handle} (hh : s.handle? t = some h) (hr : h.readWord s.heap obj offset = .ok value) :
    (s.step (.read t obj offset)).1 = .ok (.word value) := by
  have action : (Command.read t obj offset).action = .word <$> Action.readWord t obj offset := rfl
  rw [step_map action]
  simp [Action.readWord, Action.query, Action.handle, hh, hr]

/-- A word of the payload has an address. -/
theorem Arena.Places.fieldAddress {a : Arena} {layout : Layout} {rs : List Record} (h : a.Places layout rs) (hr : r ∈ rs)
    (hp : layout.payload? r.typeId = some payload) (fit : offset + wordSize ≤ payload) :
    layout.fieldAddress r.addr r.typeId offset = .ok (r.addr + (headerSize + offset)) ∧
      headerSize + offset + wordSize ≤ r.size := by
  obtain ⟨payload', hp', le, lt⟩ := Layout.payload_of_objectSize (h.sized r hr)
  rw [hp] at hp'
  cases hp'
  have := h.stop_lt hr
  simp only [Record.stop] at this
  refine ⟨Layout.fieldAddress_eq_ok.2 ⟨payload, hp, ?_, fit, ?_, rfl⟩, ?_⟩ <;> omega

/-- The word that memory holds for a kept object. -/
theorem Arena.Keeps.readWord_ok {a : Arena} {layout : Layout} {rs : List Record} (h : a.Keeps layout rs) (hr : r ∈ rs)
    (fit : headerSize + offset + wordSize ≤ r.size) :
    a.readWord (r.addr + (headerSize + offset)) = .ok (r.word offset) :=
  Arena.readWord_eq_ok.2 ⟨h.spans hr (by omega), h.readWord_eq hr fit⟩

/-- An object of the own nursery reads as its record says. -/
theorem read_own (htx : s.tx? t = some tx) (keeps : tx.nursery.Keeps s.heap.layout (L.own t)) (hr : r ∈ L.own t)
    (hp : s.heap.layout.payload? r.typeId = some payload) (fit : offset + wordSize ≤ payload) :
    (s.step (.read t r.addr offset)).1 = .ok (.word (r.word offset)) := by
  obtain ⟨h, hh, hx⟩ := handle_of_tx? htx
  obtain ⟨address, le⟩ := keeps.fieldAddress hr hp fit
  have sees : h.sees r.addr = true := by
    rw [Handle.sees, hx]
    exact keeps.contains hr
  refine step_read hh ?_
  simp only [Handle.readWord, Handle.locate, if_pos sees, Handle.nursery, hx, Handle.field, keeps.header_eq hr,
    Record.header_typeId, address, keeps.readWord_ok hr le, bind, Except.bind]

/-- Where a shared object lies, for any reader. -/
theorem locate_shared {h : Handle} (kept : Kept s L) (htx : s.tx? t = some tx) (hx : h.tx = some tx) (hr : r ∈ L.shared) :
    h.locate s.heap r.addr = .ok .shared := by
  have inside := kept.shared.contains hr
  have unseen : h.sees r.addr = false := by
    rw [Handle.sees, hx]
    exact kept.ground.not_nursery htx inside
  rw [Handle.locate, unseen, if_neg Bool.false_ne_true, if_pos (kept.ground.spaceOf_shared inside)]

/-- A shared object that the transaction has not copied reads as it is. -/
theorem read_uncopied (kept : Kept s L) (htx : s.tx? t = some tx) (hr : r ∈ L.shared)
    (hnone : tx.objects.copyOf? r.addr = none) (hp : s.heap.layout.payload? r.typeId = some payload)
    (fit : offset + wordSize ≤ payload) : (s.step (.read t r.addr offset)).1 = .ok (.word (r.word offset)) := by
  obtain ⟨h, hh, hx⟩ := handle_of_tx? htx
  obtain ⟨address, le⟩ := kept.shared.fieldAddress hr hp fit
  have hcopy : h.copyOf? r.addr = none := by rw [Handle.copyOf?, hx, Option.bind_some, hnone]
  refine step_read hh ?_
  simp only [Handle.readWord, locate_shared kept htx hx hr, kept.shared.header_eq hr, hcopy, ite_self,
    Record.header_typeId, address, kept.shared.readWord_ok hr le, bind, Except.bind]

/-- A shared object that the transaction has copied reads like the copy. -/
theorem read_copied {o : Record} (kept : Kept s L) (htx : s.tx? t = some tx)
    (keeps : tx.nursery.Keeps s.heap.layout (L.own t)) (ho : o ∈ L.shared) (hr : r ∈ L.own t)
    (hcopy : tx.objects.copyOf? o.addr = some r.addr) (mark : o.header.isCopied = true) (typeId : o.typeId = r.typeId)
    (hp : s.heap.layout.payload? r.typeId = some payload) (fit : offset + wordSize ≤ payload) :
    (s.step (.read t o.addr offset)).1 = .ok (.word (r.word offset)) := by
  obtain ⟨h, hh, hx⟩ := handle_of_tx? htx
  obtain ⟨address, le⟩ := keeps.fieldAddress hr hp fit
  have hcopy : h.copyOf? o.addr = some r.addr := by rw [Handle.copyOf?, hx, Option.bind_some, hcopy]
  refine step_read hh ?_
  simp only [Handle.readWord, locate_shared kept htx hx ho, kept.shared.header_eq ho, if_pos mark, hcopy, Handle.nursery,
    hx, Record.header_typeId, typeId, address, keeps.readWord_ok hr le, bind, Except.bind]

/-! ## The view -/

/-- The object and the copy of an entry of the map. -/
theorem Kept.copy_cases (kept : Kept s L) (htx : s.tx? t = some tx) (hactive : tx.phase = .active)
    (hcopy : tx.objects.copyOf? obj = some copy) :
    ∃ r ∈ L.own t, r.addr = copy ∧ r.kind = .copyOf obj ∧
      ∃ o ∈ L.shared, o.addr = obj ∧ o.typeId = r.typeId ∧ o.header.isCopied = true := by
  have mem : (obj, copy) ∈ (L.own t).filterMap Record.pair? := by
    rw [← (kept.intact t tx htx hactive).pairs]
    exact ObjectMap.mem_of_copyOf? hcopy
  obtain ⟨r, hr, hpair⟩ := List.mem_filterMap.1 mem
  obtain ⟨hk, addr⟩ := Record.pair?_eq_some.1 hpair
  obtain ⟨o, ho, oaddr, typeId, -, whole, hkind⟩ := (kept.backed t tx htx).rooted (.inl hactive) r hr obj hk
  exact ⟨r, hr, addr, hk, o, ho, oaddr, typeId, (Record.header_shared hkind).2.2⟩

/-- An active transaction reads its own copies, and everything else as it is. -/
theorem transactions_read_their_own_view (life : Lived careful s L) (htx : s.tx? t = some tx)
    (hactive : tx.phase = .active) : OwnView s L t tx := by
  have kept := life.kept
  have keeps := (kept.intact t tx htx hactive).nursery
  refine ⟨?_, ?_, ?_⟩
  · intro obj copy hcopy
    obtain ⟨r, hr, rfl, hk, o, ho, rfl, typeId, mark⟩ := kept.copy_cases htx hactive hcopy
    refine ⟨r, hr, rfl, hk, fun payload offset hp fit => ⟨?_, ?_⟩⟩
    · exact read_copied kept htx keeps ho hr hcopy mark typeId hp fit
    · exact read_own htx keeps hr hp fit
  · intro o ho hnone payload offset hp fit
    rw [read_uncopied kept htx ho hnone hp fit, Record.bodyAddr, Nat.add_assoc,
      kept.shared.readWord_eq ho (kept.shared.fieldAddress ho hp fit).2]
    rfl
  · intro obj copy hcopy
    obtain ⟨r, hr, -, -, o, ho, rfl, -, mark⟩ := kept.copy_cases htx hactive hcopy
    rw [kept.shared.header o ho]
    exact mark

/-- While the first worker has a copy of the root, the main thread stores to the root and another worker commits it. -/
def overtaken : List Command :=
  let root := sharedStart
  let copy := nurseryStart
  let other := nurseryStart + 65536
  [.attachMain, .create mainThread 0, .write mainThread root 24 5, .attachWorker, .attachWorker, .start 1, .start 2,
    .copyOnWrite 1 root, .write 1 copy 21 7, .write mainThread root 24 9, .copyOnWrite 2 root, .write 2 other 16 0,
    .write 2 other 24 11, .commit 2, .write 1 copy 24 13]

theorem transactions_read_their_own_view_overtaken :
    ∃ tx, (Session.ofNodes.run overtaken).2.tx? 1 = some tx ∧
      tx.objects.copyOf? sharedStart = some nurseryStart ∧
      OwnView (Session.ofNodes.run overtaken).2 (Ledger.empty.along .ofNodes overtaken) 1 tx := by
  have life : Lived careful (Session.ofNodes.run overtaken).2 (Ledger.empty.along .ofNodes overtaken) :=
    .ofNodes (by decide +kernel)
  obtain ⟨tx, htx, hactive, hcopy⟩ : ∃ tx, (Session.ofNodes.run overtaken).2.tx? 1 = some tx ∧ tx.phase = .active ∧
      tx.objects.copyOf? sharedStart = some nurseryStart := by
    have facts : ((Session.ofNodes.run overtaken).2.tx? 1).map (fun tx => (tx.phase, tx.objects.copyOf? sharedStart)) =
        some (.active, some nurseryStart) := by decide +kernel
    obtain ⟨tx, htx, e⟩ := Option.map_eq_some_iff.1 facts
    exact ⟨tx, htx, (Prod.mk.inj e).1, (Prod.mk.inj e).2⟩
  exact ⟨tx, htx, hcopy, transactions_read_their_own_view life htx hactive⟩

end TxHeap

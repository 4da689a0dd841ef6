/-
  TxHeap.Proofs.Intact — the nursery of an active transaction.

  Where stores into a nursery go through objects of it (`storesAim`), the nursery of an
  active transaction holds exactly what the ledger says: its objects and no overlap, their
  headers, and their bodies after all stores; and its object map has one entry for each
  working copy (`Intact`). No other thread can change any of this, so only the turns that a
  transaction takes are looked at (`Turn.intact`).
-/
import TxHeap.Proofs.Turns

namespace TxHeap

structure Intact (layout : Layout) (own : List Record) (tx : Transaction) : Prop where
  nursery : tx.nursery.Keeps layout own
  blank : tx.nursery.Blank
  kinds : ∀ r ∈ own, r.kind = .fresh ∨ ∃ root, r.kind = .copyOf root ∧ 0 < root ∧ root < wordLimit
  pairs : tx.objects.pairs = own.filterMap Record.pair?
  /-- Each shared object is copied at most once. -/
  once : (tx.objects.pairs.map Prod.fst).Nodup

/-- The object, if it lies in the nursery that the thread sees, is an object of its transaction. -/
def Ledger.HasOwn (L : Ledger) (s : Session) (t obj : Nat) : Prop :=
  ∀ tx ∈ s.tx? t, tx.nursery.contains obj = true → ∃ r ∈ L.own t, r.addr = obj

instance (L : Ledger) (s : Session) (t obj : Nat) : Decidable (L.HasOwn s t obj) := by
  unfold Ledger.HasOwn
  infer_instance

/-- The rule that stores into a nursery go through objects of it. -/
def storesAim : Rule := fun s L c =>
  match c with
  | .write t obj _ _ => L.HasOwn s t obj
  | _ => True

instance (s : Session) (L : Ledger) (c : Command) : Decidable (storesAim s L c) := by
  unfold storesAim
  split <;> infer_instance

theorem storesAim_divides : storesAim.Divides := ⟨fun _ => trivial, fun _ _ _ => trivial, fun _ _ _ => trivial⟩

/-- A copy that is found is in the map. -/
theorem ObjectMap.mem_of_copyOf? {m : ObjectMap} {root copy : Nat} (h : m.copyOf? root = some copy) :
    (root, copy) ∈ m.pairs := by
  obtain ⟨before, after, split, -⟩ := List.lookup_eq_some_iff.1 h
  rw [split]
  exact List.mem_append_right _ List.mem_cons_self

namespace Intact

variable {layout : Layout} {own : List Record} {tx : Transaction} {nursery : Arena} {r : Record}
  {obj size offset value addr typeId : Nat}

theorem start (layout : Layout) (hm : nursery.memory = .empty) : Intact layout [] (.fresh nursery) where
  nursery := .nil nursery layout
  blank addr _ := by
    rw [Transaction.fresh, hm, Memory.get_empty]
  kinds := nofun
  pairs := rfl
  once := .nil

theorem tokens (h : Intact layout own tx) (tokens : TokenTable) : Intact layout own { tx with tokens } :=
  ⟨h.nursery, h.blank, h.kinds, h.pairs, h.once⟩

theorem grow (h : Intact layout own tx) (g : tx.nursery.Grew nursery size) : Intact layout own { tx with nursery } :=
  ⟨h.nursery.grow g, h.blank.grow g, h.kinds, h.pairs, h.once⟩

theorem create (h : Intact layout own tx) (sound : layout.Sound) (sized : layout.objectSize typeId = .ok size)
    (hp : tx.nursery.place size (.new typeId 0) = .ok (obj, nursery)) :
    Intact layout (own ++ [.blank .fresh obj typeId size]) { tx with nursery } := by
  have fits : (Header.new typeId 0).Fits := Header.fits_new (Layout.typeId_lt_of_objectSize sound sized) (by decide)
  obtain ⟨keeps, blank⟩ := h.nursery.place .fresh h.blank sized fits rfl hp
  refine ⟨keeps, blank, ?_, ?_, h.once⟩
  · intro r hr
    rcases List.mem_append.mp hr with hr | hr
    · exact h.kinds r hr
    · rw [List.mem_singleton.mp hr]
      exact .inl rfl
  · rw [List.filterMap_append, h.pairs]
    exact (List.append_nil _).symm

/-- A store to an object of the nursery. -/
theorem write (h : Intact layout own tx) (hr : r ∈ own) (fit : headerSize + offset + wordSize ≤ r.size)
    (hw : tx.nursery.writeWord (r.addr + (headerSize + offset)) value = .ok nursery) :
    Intact layout (amend own r.addr (·.push (.word offset value))) { tx with nursery } := by
  obtain ⟨spans, rfl⟩ := Arena.writeWord_eq_ok.1 hw
  have shape : ∀ (P : Record → Prop), (∀ x, P x → P (x.push (.word offset value))) → (∀ x ∈ own, P x) →
      ∀ x ∈ amend own r.addr (·.push (.word offset value)), P x := by
    intro P hP hall x hx
    obtain ⟨y, hy, rfl⟩ := List.mem_map.1 hx
    split
    · exact hP y (hall y hy)
    · exact hall y hy
  have pairs : (amend own r.addr (·.push (.word offset value))).filterMap Record.pair? = own.filterMap Record.pair? := by
    rw [amend, List.filterMap_map]
    refine congrArg (List.filterMap · own) (funext ?_)
    intro x
    simp only [Function.comp_apply]
    split <;> rfl
  refine ⟨h.nursery.storeWord hr fit, ?_, shape _ (fun x hx => hx) h.kinds, by rw [pairs]; exact h.pairs, h.once⟩
  exact h.blank.store fun i hi => Memory.get_writeWord_of_apart (.inr (Nat.le_trans spans.2 hi))

/-- A working copy is made of a shared object. -/
theorem copy {a : Arena} (h : Intact layout own tx) (sound : layout.Sound) (sized : layout.objectSize typeId = .ok size)
    (spans : a.Spans obj size) (hnone : tx.objects.copyOf? obj = none) {grown : Arena}
    (g : tx.nursery.Grew grown size) :
    Intact layout
      (own ++ [⟨tx.nursery.freePointer, typeId, size, .copyOf obj,
        a.memory.read (obj + headerSize) (size - headerSize), []⟩])
      { tx with
        nursery := { grown with
          memory := (grown.memory.write tx.nursery.freePointer (a.memory.read obj size)).setHeaderAt
            tx.nursery.freePointer (Action.copyHeader typeId obj) }
        objects := ⟨tx.objects.pairs ++ [(obj, tx.nursery.freePointer)]⟩ } := by
  have hsize := layout.headerSize_le_objectSize sized
  have obj_lt : obj < wordLimit := by
    have := spans.2
    have := a.freePointer_lt
    omega
  have obj_pos : 0 < obj := Nat.lt_of_lt_of_le a.start_pos spans.1
  have fits : (Action.copyHeader typeId obj).Fits :=
    Header.fits_setVersion (Header.fits_new (Layout.typeId_lt_of_objectSize sound sized) (by decide))
      fun _ e => Option.some.inj e ▸ obj_lt
  obtain ⟨header, body, out⟩ := Memory.copy_object grown.memory a.memory obj tx.nursery.freePointer hsize fits
  have free := g.freePointer
  refine ⟨h.nursery.push g rfl sized out header body, ?_, ?_, ?_, ?_⟩
  · exact (h.blank.grow g).store fun i hi => out i (.inr (by omega))
  · intro r hr
    rcases List.mem_append.mp hr with hr | hr
    · exact h.kinds r hr
    · rw [List.mem_singleton.mp hr]
      exact .inr ⟨obj, rfl, obj_pos, obj_lt⟩
  · rw [List.filterMap_append, ← h.pairs]
    rfl
  · rw [List.map_append]
    refine List.nodup_append.mpr ⟨h.once, List.pairwise_singleton _ _, ?_⟩
    intro x hx y hy e
    obtain ⟨pair, hpair, rfl⟩ := List.mem_map.1 hx
    rw [List.map_singleton, List.mem_singleton] at hy
    have := List.lookup_eq_none_iff.1 hnone pair hpair
    rw [e, hy] at this
    simp at this

end Intact

/-! ## Every call keeps active transactions intact -/

def Session.Each (s : Session) (L : Ledger) (P : List Record → Transaction → Prop) : Prop :=
  ∀ t tx, s.tx? t = some tx → P (L.own t) tx

def Session.AllIntact (s : Session) (L : Ledger) : Prop :=
  s.Each L fun own tx => tx.phase = .active → Intact s.heap.layout own tx

section

variable {s s' : Session} {L : Ledger} {c : Command} {o : Outcome} {t : Nat} {own : List Record} {tx : Transaction}

/-- A field that a store was admitted to lies inside the object. -/
theorem field_of_object {a : Arena} {heap : Heap} {rs : List Record} {r : Record} {offset addr : Nat}
    (keeps : a.Keeps heap.layout rs) (hr : r ∈ rs) (h : Handle.field heap a r.addr offset = .ok addr) :
    addr = r.addr + (headerSize + offset) ∧ headerSize + offset + wordSize ≤ r.size := by
  rw [Handle.field, keeps.header_eq hr] at h
  obtain ⟨payload, hpay, -, hoff, -, rfl⟩ := Layout.fieldAddress_eq_ok.1 h
  rw [Record.header_typeId] at hpay
  obtain ⟨payload', hpay', hle, -⟩ := Layout.payload_of_objectSize (keeps.sized r hr)
  rw [hpay] at hpay'
  cases hpay'
  exact ⟨rfl, by omega⟩

def Unstopped (s : Session) (c : Command) (o : Outcome) : Prop :=
  ∀ f, o = .error f → c.Prepares s → ∃ cause, f = .refused cause

theorem Unstopped.not_stopped {f : Failure} (h : Unstopped s (.prepare t) (.error f)) (htx : s.tx? t = some tx)
    (hactive : tx.phase = .active) (hf : ∀ cause, f ≠ .refused cause) : False := by
  obtain ⟨cause, e⟩ := h f rfl ⟨t, tx, rfl, htx, hactive⟩
  exact hf cause e

/-- A transaction that is active after a call is intact, where stores aim. -/
theorem Turn.intact (turn : Turn s L t c o s' own tx) (sound : s.heap.layout.Sound)
    (h : ∀ tx, s.tx? t = some tx → tx.phase = .active → Intact s.heap.layout (L.own t) tx) (aim : storesAim s L c)
    (unstopped : c = .prepare t → Unstopped s c o) (hactive : tx.phase = .active) : Intact s.heap.layout own tx := by
  cases turn with
  | same htx => exact h _ htx hactive
  | started _ hn => exact .start _ (newNursery_eq_ok hn).2.1
  | issued htx => exact (h _ htx hactive).tokens _
  | grew htx grew => exact (h _ htx hactive).grow grew
  | created htx hactive hsize hp => exact (h _ htx hactive).create sound hsize hp
  | copied htx hactive _ hnone _ hsize grew spans _ => exact (h _ htx hactive).copy sound hsize spans hnone grew
  | wrote htx hactive hin hfield hw =>
    obtain ⟨r, hr, rfl⟩ := aim _ htx hin
    have intact := h _ htx hactive
    obtain ⟨rfl, fit⟩ := field_of_object intact.nursery hr hfield
    exact intact.write hr fit hw
  | prepared => cases hactive
  | stopped htx hactive hf => exact ((unstopped rfl).not_stopped htx hactive hf).elim
  | prepareFailed => cases hactive
  | passed _ _ hphase =>
    cases hactive
    rcases hphase with e | e <;> cases e

/-- What a call does to active transactions, where stores aim and no preparation is stopped by arithmetic. -/
theorem Effect.intact (ground : Grounded s) (h : s.AllIntact L) (aim : storesAim s L c) (unstopped : Unstopped s c o)
    (e : Effect s c o s') : s'.AllIntact (L.record s c o s') := by
  intro t tx htx hactive
  rw [e.follows.layout]
  exact (e.turn ground htx).intact ground.sound (h t) aim (fun _ => unstopped) hactive

/-- A preparation over bounded sizes is only ever refused. -/
theorem Effect.unstopped (ground : Grounded s) (bounded : s.heap.layout.Bounded) (e : Effect s c o s') :
    Unstopped s c o := by
  intro f ho hp
  obtain ⟨t, tx, rfl, htx, hactive⟩ := hp
  cases e with
  | refused hp => exact absurd ⟨_, _, rfl, htx, hactive⟩ hp
  | answered asks => exact asks.elim
  | attached => cases ho
  | prepared => cases ho
  | prepareFailed =>
    cases ho
    exact ⟨_, rfl⟩
  | prepareStopped _ _ _ hrun =>
    cases ho
    exact ((Prepare.onward_run _ _ _).of_error hrun).2 ground.roomy ground.sound bounded

theorem allIntact_create {config : Config} {layout : Layout} {log : EventLog}
    (h : Session.create config layout log = .ok s) : s.AllIntact L :=
  each_create h

/-- Where stores aim, and sizes stay in the range of words, active transactions are intact in every life. -/
theorem Lived.intact (h : Lived storesAim s L) : Grounded s ∧ (s.heap.layout.Bounded → s.AllIntact L) := by
  refine Lived.invariant (I := fun s L => Grounded s ∧ (s.heap.layout.Bounded → s.AllIntact L)) storesAim_divides
    (fun fits built hs => ⟨grounded_create fits built hs, fun _ => allIntact_create hs⟩) ?_ h
  intro s L c ⟨ground, intact⟩ hc aim
  have e := step_effect (s := s) hc
  have follows := follows_step (s := s) hc
  refine ⟨ground.follows follows, ?_⟩
  intro bounded
  rw [follows.layout] at bounded
  exact e.intact ground (intact bounded) aim (e.unstopped ground bounded)

end

end TxHeap

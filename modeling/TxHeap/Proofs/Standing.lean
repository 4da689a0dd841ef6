/-
  TxHeap.Proofs.Standing — the objects of open transactions, in every phase.

  While a transaction is active its nursery is as the ledger says. Afterwards it is not, for
  a preparation replaces pointers; but the objects are still where they were made, and their
  headers still tell what they stand for (`Memory.standsFor?`): a working copy for its
  shared object, a promoted object for its twin, and any other object for nothing but itself
  (`Standing`). This holds in every phase, also of a transaction that has failed. So does
  that every object which the transaction has copied is marked in the shared heap (`MarkedIn`).
-/
import TxHeap.Proofs.SharedWrites

namespace TxHeap

/-- The shared object that a private one is a working copy of, or was promoted to. -/
def Memory.standsFor? (m : Memory) (obj : Nat) : Option Nat := (m.headerAt obj).version.address?

structure Standing (layout : Layout) (shared own : List Record) (tx : Transaction) : Prop where
  places : tx.nursery.Places layout own
  /-- What an object stands for is a shared object. -/
  stands : ∀ r ∈ own, ∀ a, tx.nursery.memory.standsFor? r.addr = some a → ∃ o ∈ shared, o.addr = a

section

variable {layout : Layout} {own shared shared' : List Record} {tx : Transaction} {nursery : Arena} {r : Record} {size : Nat}

/-- In an active transaction a fresh object stands for nothing. -/
theorem Intact.standsFor?_fresh (h : Intact layout own tx) (hr : r ∈ own) (hk : r.kind = .fresh) :
    tx.nursery.memory.standsFor? r.addr = none := by
  rw [Memory.standsFor?, h.nursery.header r hr, Record.header, hk]
  rfl

theorem Intact.root_ne_zero {root : Nat} (h : Intact layout own tx) (hr : r ∈ own) (hk : r.kind = .copyOf root) :
    root ≠ 0 := by
  rcases h.kinds r hr with hk' | ⟨root', hk', pos, -⟩
  · rw [hk] at hk'
    cases hk'
  · rw [hk] at hk'
    cases hk'
    exact Nat.pos_iff_ne_zero.1 pos

/-- In an active transaction a working copy stands for its root. -/
theorem Intact.standsFor?_copy {root : Nat} (h : Intact layout own tx) (hr : r ∈ own) (hk : r.kind = .copyOf root) :
    tx.nursery.memory.standsFor? r.addr = some root := by
  rw [Memory.standsFor?, h.nursery.header r hr, Record.header, hk]
  simp only [version_copyHeader (h.root_ne_zero hr hk), Version.address?]

/-- After a preparation, whether it answered or not: what each object stands for. -/
theorem Going.standsFor?_cases {p₀ p : Preparation} {late : Prop} {g : Progress} (ready : Ready layout own shared p₀)
    (h : Going layout own shared p₀ late g p) (rooted : ∀ root, r.kind = .copyOf root → root ≠ 0) (hr : r ∈ own) :
    (∃ root, r.kind = .copyOf root ∧ p.tx.nursery.memory.standsFor? r.addr = some root) ∨
      (∃ twin, (r, twin) ∈ g.moves ∧ p.tx.nursery.memory.standsFor? r.addr = some twin) ∨
      (∀ twin, (r, twin) ∉ g.moves) ∧ p.tx.nursery.memory.standsFor? r.addr = none := by
  rcases ready.kinds r hr with hk | ⟨root, hk, -⟩
  · rcases h.header_fresh hr hk with ⟨twin, hm, hh, hne⟩ | ⟨none, hh⟩
    · refine .inr (.inl ⟨twin, hm, ?_⟩)
      rw [Memory.standsFor?, (Arena.header_eq_ok.1 hh).2, version_forwarded hne, Version.address?]
    · refine .inr (.inr ⟨?_, ?_⟩)
      · intro twin hm
        obtain ⟨t, ht, -⟩ := Progress.mem_moves.1 hm
        exact none t ht
      · rw [Memory.standsFor?, (Arena.header_eq_ok.1 hh).2]
        rfl
  · refine .inl ⟨root, hk, ?_⟩
    have header := h.nursery.header _ (List.mem_map_of_mem (f := g.own) hr)
    rw [(h.shape r hr).1, Record.header, h.copies r hr root hk, hk] at header
    simp only [Memory.standsFor?, header, version_copyHeader (rooted root hk), Version.address?]

namespace Standing

theorem of_intact (h : Intact layout own tx) (rooted : RootedIn own shared) : Standing layout shared own tx := by
  refine ⟨h.nursery.toPlaces, ?_⟩
  intro r hr a ha
  rcases h.kinds r hr with hk | ⟨root, hk, -⟩
  · rw [h.standsFor?_fresh hr hk] at ha
    cases ha
  · rw [h.standsFor?_copy hr hk] at ha
    cases ha
    obtain ⟨o, ho, addr, -⟩ := rooted r hr _ hk
    exact ⟨o, ho, addr⟩

/-- Shared objects may come, as long as none goes. -/
theorem widen (h : Standing layout shared own tx) (remains : ∀ o ∈ shared, ∃ o' ∈ shared', o'.addr = o.addr) :
    Standing layout shared' own tx := by
  refine ⟨h.places, ?_⟩
  intro r hr a ha
  obtain ⟨o, ho, rfl⟩ := h.stands r hr a ha
  exact remains o ho

theorem grow (h : Standing layout shared own tx) (g : tx.nursery.Grew nursery size) :
    Standing layout shared own { tx with nursery } := by
  refine ⟨h.places.grow g, ?_⟩
  intro r hr a ha
  rw [g.memory] at ha
  exact h.stands r hr a ha

end Standing

/-- A preparation leaves the objects standing where its twins are entered. -/
theorem Going.standing {p₀ p : Preparation} {late : Prop} {g : Progress} (ready : Ready layout own shared p₀)
    (h : Going layout own shared p₀ late g p) (intact : Intact layout own p₀.tx) (rooted : RootedIn own shared)
    (nursery : tx.nursery = p.tx.nursery) (objects : tx.objects = p.tx.objects)
    (remains : ∀ o ∈ shared, ∃ o' ∈ shared', o'.addr = o.addr) (twins : ∀ x ∈ g.moves, ∃ o ∈ shared', o.addr = x.2) :
    Standing layout shared' own tx := by
  refine ⟨(h.prepared ready nursery objects).places, ?_⟩
  intro r hr a ha
  rw [nursery] at ha
  rcases h.standsFor?_cases ready (fun _ hk => intact.root_ne_zero hr hk) hr with ⟨root, hk, e⟩ | ⟨twin, hm, e⟩ | ⟨-, e⟩
  · rw [e] at ha
    cases ha
    obtain ⟨o, ho, rfl, -⟩ := rooted r hr _ hk
    exact remains o ho
  · rw [e] at ha
    cases ha
    exact twins _ hm
  · rw [e] at ha
    cases ha

end

/-! ## What calls do to it -/

section

variable {s s' : Session} {L : Ledger} {c : Command} {o : Outcome} {t : Nat} {shared : Arena} {rs own : List Record}
  {tx : Transaction}

theorem amend_remains {addr : Nat} {f : Record → Record} (hf : ∀ r, (f r).addr = r.addr) :
    ∀ r ∈ rs, ∃ r' ∈ amend rs addr f, r'.addr = r.addr := by
  intro r hr
  refine ⟨_, List.mem_map_of_mem hr, ?_⟩
  split
  · exact hf r
  · rfl

/-- A shared object stays. -/
theorem Entry.remains (entry : Entry s L c o shared rs) (h : Kept s L) (unstopped : Unstopped s c o) :
    ∀ r ∈ L.shared, ∃ r' ∈ rs, r'.addr = r.addr := by
  cases entry with
  | same | grew => exact fun r hr => ⟨r, hr, rfl⟩
  | created | prepared | prepareFailed => exact fun r hr => ⟨r, List.mem_append_left _ hr, rfl⟩
  | marked => exact amend_remains fun r => r.mark_shape.1
  | stored => exact amend_remains fun _ => rfl
  | stopped htx hactive hf => exact (unstopped.not_stopped htx hactive hf).elim
  | applied =>
    refine overwritten_induction (P := fun rs => ∀ r ∈ L.shared, ∃ r' ∈ rs, r'.addr = r.addr) ?_
      fun r hr => ⟨r, hr, rfl⟩
    intro rs remains r _ root _ x hx
    obtain ⟨y, hy, e⟩ := remains x hx
    refine (amend_remains ?_ y hy).imp fun z hz => ⟨hz.1, hz.2.trans e⟩
    exact fun _ => Record.push_addr _ _
  | applyStopped htx hp hrun => exact ((h.apply htx hp).of_error hrun).elim

/-- The twins of a preparation are entered, also when it failed. -/
theorem Going.twins_entered {tx' : Transaction} {p : Preparation} {late : Prop} {g : Progress} {heap : Heap}
    (ready : Ready s.heap.layout (L.own t) L.shared (.ofHeap heap tx))
    (h : Going s.heap.layout (L.own t) L.shared (.ofHeap heap tx) late g p) (htx : s.tx? t = some tx)
    (hactive : tx.phase = .active) (htx' : s'.tx? t = some tx') (nursery : tx'.nursery = p.tx.nursery) :
    ∀ x ∈ g.moves, ∃ r ∈ (L.record s (.prepare t) o s').shared, r.addr = x.2 := by
  intro x hx
  obtain ⟨hr, hk⟩ := h.fresh_of_moves hx
  have twin := (h.twinOf?_iff ready hr).2 hx
  rw [Ledger.record_prepare, Ledger.prepared, htx, htx']
  dsimp only
  rw [if_pos hactive, nursery]
  refine ⟨_, List.mem_append_right _ (List.mem_filterMap.2 ⟨x.1, hr, twin?_eq_some.2 ⟨hk, x.2, twin, rfl⟩⟩), rfl⟩

def Session.AllStanding (s : Session) (L : Ledger) : Prop := s.Each L (Standing s.heap.layout L.shared)

theorem Turn.standing (turn : Turn s L t c o s' own tx) (htx' : s'.tx? t = some tx) (h : Kept s L)
    (standing : s.AllStanding L) (hc : careful s L c) (unstopped : Unstopped s c o)
    (wider : ∀ own, RootedIn own L.shared → RootedIn own (L.record s c o s').shared)
    (remains : ∀ r ∈ L.shared, ∃ r' ∈ (L.record s c o s').shared, r'.addr = r.addr) :
    Standing s.heap.layout (L.record s c o s').shared own tx := by
  have backed := turn.backed h hc unstopped wider
  have active : tx.phase = .active → Standing s.heap.layout (L.record s c o s').shared own tx :=
    fun hactive => .of_intact (turn.intact h.ground.sound (h.intact t) hc.storesAim (fun _ => unstopped) hactive)
      (backed.rooted (.inl hactive))
  have old : ∀ {tx}, s.tx? t = some tx → Standing s.heap.layout (L.record s c o s').shared (L.own t) tx :=
    fun htx => (standing t _ htx).widen remains
  have prepared : ∀ {tx₀ p late g}, s.tx? t = some tx₀ → tx₀.phase = .active → L.FieldsAim s t → c = .prepare t →
      Going s.heap.layout (L.own t) L.shared (.ofHeap s.heap tx₀) late g p → tx.nursery = p.tx.nursery →
      tx.objects = p.tx.objects → Standing s.heap.layout (L.record s c o s').shared (L.own t) tx := by
    intro tx₀ p late g htx hactive aim hc going nursery objects
    subst hc
    have ready := h.ready htx hactive aim
    exact going.standing ready (h.intact t tx₀ htx hactive) ((h.backed t tx₀ htx).rooted (.inl hactive)) nursery objects
      remains (going.twins_entered ready htx hactive htx' nursery)
  cases turn with
  | same htx => exact old htx
  | started => exact active rfl
  | issued htx => exact ⟨(old htx).places, (old htx).stands⟩
  | grew htx grew => exact (old htx).grow grew
  | created _ hactive | copied _ hactive | wrote _ hactive => exact active hactive
  | prepared htx hactive hrun =>
    obtain ⟨g, going, -⟩ := (h.run htx hactive (hc.2 t rfl)).of_ok hrun
    exact prepared htx hactive (hc.2 t rfl) rfl going rfl rfl
  | stopped htx hactive hf => exact (unstopped.not_stopped htx hactive hf).elim
  | prepareFailed htx hactive hrun =>
    obtain ⟨-, g, going⟩ := (h.run htx hactive (hc.2 t rfl)).of_error hrun
    exact prepared htx hactive (hc.2 t rfl) rfl going rfl rfl
  | passed htx => exact ⟨(old htx).places, (old htx).stands⟩

theorem Effect.standing (h : Kept s L) (standing : s.AllStanding L) (hc : careful s L c) (e : Effect s c o s') :
    s'.AllStanding (L.record s c o s') := by
  have follows := e.follows
  have entry := e.entry (L := L) h.ground
  have unstopped := h.unstopped hc e
  intro t tx htx
  rw [follows.layout]
  exact (e.turn h.ground htx).standing htx h standing hc unstopped (entry.settled h unstopped).2 (entry.remains h unstopped)

end

theorem Lived.standing {s : Session} {L : Ledger} (h : Lived careful s L) : s.AllStanding L :=
  (h.alongside (I := Session.AllStanding) careful_divides id each_create fun kept standing care e =>
    e.standing kept standing care).2

/-! ## What is copied is marked -/

/-- Each object that the transaction has copied is marked in the shared heap. -/
def MarkedIn (shared : List Record) (tx : Transaction) : Prop :=
  ∀ pair ∈ tx.objects.pairs, ∃ o ∈ shared, o.addr = pair.1 ∧ ∃ whole, o.kind = .shared whole true

section

variable {s s' : Session} {L : Ledger} {c : Command} {o : Outcome} {t : Nat} {shared shared' own : List Record} {tx : Transaction}

theorem MarkedIn.of_rooted (rooted : RootedIn own shared) (pairs : tx.objects.pairs = own.filterMap Record.pair?) :
    MarkedIn shared tx := by
  intro pair hpair
  rw [pairs] at hpair
  obtain ⟨r, hr, hpair⟩ := List.mem_filterMap.1 hpair
  obtain ⟨o, ho, addr, -, -, marked⟩ := rooted r hr _ (Record.pair?_eq_some.1 hpair).1
  exact ⟨o, ho, addr, marked⟩

/-- An object that would stay the root of a working copy stays marked. -/
theorem MarkedIn.widen (h : MarkedIn shared tx) (wider : ∀ own, RootedIn own shared → RootedIn own shared') :
    MarkedIn shared' tx := by
  intro pair hpair
  obtain ⟨o, ho, addr, whole, hk⟩ := h pair hpair
  have rooted : RootedIn [⟨0, o.typeId, o.size, .copyOf pair.1, [], []⟩] shared' := by
    refine wider _ fun r hr root hk' => ?_
    rw [List.mem_singleton.mp hr] at hk' ⊢
    cases hk'
    exact ⟨o, ho, addr, rfl, rfl, whole, hk⟩
  obtain ⟨o', ho', addr', -, -, marked⟩ := rooted _ (List.mem_singleton_self _) _ rfl
  exact ⟨o', ho', addr', marked⟩

def Session.AllMarked (s : Session) (L : Ledger) : Prop := ∀ t tx, s.tx? t = some tx → MarkedIn L.shared tx

/-- An active transaction knows the roots of its copies; in another phase there are no new ones. -/
theorem Turn.marked (turn : Turn s L t c o s' own tx) (h : Kept s L) (marked : s.AllMarked L) (care : careful s L c)
    (unstopped : Unstopped s c o) (active : tx.phase = .active → MarkedIn shared tx)
    (wider : ∀ own, RootedIn own L.shared → RootedIn own shared) : MarkedIn shared tx := by
  have old : ∀ {tx₀ : Transaction}, s.tx? t = some tx₀ → tx.objects = tx₀.objects → MarkedIn shared tx := by
    intro tx₀ htx objects
    rw [MarkedIn, objects]
    exact (marked t tx₀ htx).widen wider
  cases turn with
  | same htx | issued htx | grew htx | passed htx => exact old htx rfl
  | started => exact active rfl
  | created _ hactive | copied _ hactive | wrote _ hactive => exact active hactive
  | prepared htx hactive hrun =>
    obtain ⟨g, going, -⟩ := (h.run htx hactive (care.2 t rfl)).of_ok hrun
    exact old htx going.onward.objects
  | stopped htx hactive hf => exact (unstopped.not_stopped htx hactive hf).elim
  | prepareFailed htx hactive hrun =>
    obtain ⟨-, g, going⟩ := (h.run htx hactive (care.2 t rfl)).of_error hrun
    exact old htx going.onward.objects

theorem Effect.marked (h : Kept s L) (marked : s.AllMarked L) (care : careful s L c) (e : Effect s c o s') :
    s'.AllMarked (L.record s c o s') := by
  have kept := e.kept h care
  have unstopped := h.unstopped care e
  intro t tx htx
  refine (e.turn h.ground htx).marked h marked care unstopped ?_ ((e.entry h.ground).settled h unstopped).2
  intro hactive
  exact .of_rooted ((kept.backed t tx htx).rooted (.inl hactive)) (kept.intact t tx htx hactive).pairs

end

theorem Lived.marked {s : Session} {L : Ledger} (h : Lived careful s L) : s.AllMarked L :=
  (h.alongside (I := Session.AllMarked) careful_divides id each_create fun kept marked care e =>
    e.marked kept marked care).2

end TxHeap

/-
  TxHeap.Proofs.Verdict — a prepare fails for live pointers into nowhere and for want of room.

  What a plan promotes is live, and each object once (`Plan.PromotesLiveOnce`); so a chunk for each live
  fresh object is room enough for all twins (`demand`). A preparation that ends well has
  looked at all words of live objects, and found each to be null, own or shared
  (`Going.known`); one that fails has met a word of a live object that is none of these, or
  had no room (`IntactAt.answers`). Both together settle what the prepare of a transaction
  answers (`Judged`).
-/
import Mathlib.Algebra.Order.BigOperators.Group.List
import Mathlib.Algebra.Order.Ring.Nat
import TxHeap.Proofs.Commits
import TxHeap.Proofs.WeakFields

namespace TxHeap

/-! ## The room that a plan takes -/

namespace Spread

variable {s : Spread} {pageSize : Nat} {r : Record} {rs : List Record}

theorem pageSize_of (pageSize : Nat) (rs : List Record) : (of pageSize rs).buffer.pageSize = max pageSize 1 := by
  refine of_induction (P := fun s => s.buffer.pageSize = max pageSize 1) rfl fun s r h => ?_
  rw [add]
  split <;> exact h

theorem taken_add_le (s : Spread) (r : Record) : (s.add r).taken ≤ s.taken + max r.size s.buffer.pageSize := by
  rw [add]
  split
  · exact Nat.le_refl _
  · exact Nat.le_add_right _ _

/-- No more is taken than a chunk for each twin. -/
theorem taken_of_le (pageSize : Nat) (rs : List Record) :
    (of pageSize rs).taken ≤ (rs.map fun r => max r.size (max pageSize 1)).sum := by
  induction rs using List.reverseRecOn with
  | nil => exact Nat.le_refl _
  | append_singleton rs r ih =>
    have more := taken_add_le (of pageSize rs) r
    rw [pageSize_of] at more
    rw [of_concat, List.map_append, List.sum_append, List.map_singleton, List.sum_singleton]
    omega

end Spread

/-- A strong pointer of a live object leads to what is reached. -/
theorem Record.Live.reaches {layout : Layout} {own : List Record} {r : Record} {offset : Nat} (live : r.Live layout own)
    (hr : r ∈ own) (ho : offset ∈ layout.pointers r.typeId) : Reaches layout own Record.word (r.word offset) := by
  rcases live with ⟨root, hk⟩ | reached
  · exact .root hr hk ho
  · exact .step reached hr ho

/-- What is promoted is live and promoted once, and what waits is live. -/
structure Plan.PromotesLiveOnce (layout : Layout) (own : List Record) (plan : Plan) : Prop where
  once : plan.promoted.Nodup
  promoted : ∀ r ∈ plan.promoted, r ∈ own ∧ r.kind = .fresh ∧ Reaches layout own Record.word r.addr
  pending : ∀ r ∈ plan.pending, r ∈ own ∧ r.Live layout own

open Classical in
/-- The bytes that the live fresh objects take if each gets a chunk of its own. -/
noncomputable def demand (layout : Layout) (own : List Record) (word : Record → Nat → Nat) (pageSize : Nat) : Nat :=
  ((own.filter fun r => r.kind = .fresh ∧ Reaches layout own word r.addr).map fun r => max r.size pageSize).sum

/-- A page of no bytes is as good as one of one byte. -/
theorem demand_page {layout : Layout} {own : List Record} {word : Record → Nat → Nat} {pageSize : Nat}
    (sized : ∀ r ∈ own, 0 < r.size) : demand layout own word (max pageSize 1) = demand layout own word pageSize := by
  refine congrArg List.sum (List.map_congr_left fun r hr => ?_)
  have := sized r (List.mem_of_mem_filter hr)
  omega

/-- What is demanded is settled by the words of strong pointers. -/
theorem demand_congr {layout : Layout} {own : List Record} {word word' : Record → Nat → Nat} (pageSize : Nat)
    (same : ∀ r ∈ own, ∀ offset ∈ layout.pointers r.typeId, word r offset = word' r offset) :
    demand layout own word pageSize = demand layout own word' pageSize := by
  refine congrArg (fun rs => (List.map _ rs).sum) (List.filter_congr fun r _ => decide_eq_decide.2 (and_congr_right fun _ => ?_))
  exact reaches_congr same

namespace Plan

variable {layout : Layout} {own rest : List Record} {plan : Plan} {r : Record} {v : Nat}

theorem promotesLiveOnce_start : (start own).PromotesLiveOnce layout own where
  once := .nil
  promoted := nofun
  pending r hr := by
    rw [start, List.mem_reverse, List.mem_filter] at hr
    obtain ⟨pair, hpair⟩ := Option.isSome_iff_exists.1 hr.2
    exact ⟨hr.1, .inl ⟨pair.1, (Record.pair?_eq_some.1 hpair).1⟩⟩

theorem PromotesLiveOnce.meet (h : plan.PromotesLiveOnce layout own) (hv : Reaches layout own Record.word v) :
    (plan.meet own v).PromotesLiveOnce layout own := by
  rw [Plan.meet]
  split
  · rename_i r hfind
    have found := List.find?_some hfind
    rw [decide_eq_true_eq] at found
    obtain ⟨fresh, rfl⟩ := found
    have mem := List.mem_of_find?_eq_some hfind
    split
    · exact h
    · rename_i new
      refine ⟨List.concat_eq_append ▸ h.once.concat new, ?_, List.forall_mem_cons.2 ⟨⟨mem, .inr hv⟩, h.pending⟩⟩
      intro x hx
      rcases List.mem_append.mp hx with hx | hx
      · exact h.promoted x hx
      · rw [List.mem_singleton.mp hx]
        exact ⟨mem, fresh, hv⟩
  · exact h

theorem PromotesLiveOnce.visit (h : plan.PromotesLiveOnce layout own) (hp : plan.pending = r :: rest) :
    (Plan.visit layout own { plan with pending := rest } r).PromotesLiveOnce layout own := by
  have waits := h.pending
  rw [hp, List.forall_mem_cons] at waits
  obtain ⟨⟨hr, live⟩, waits⟩ := waits
  have held : (Plan.hold layout { plan with pending := rest } r).PromotesLiveOnce layout own := by
    rw [Plan.hold]
    split <;> exact ⟨h.once, h.promoted, waits⟩
  exact visit_induction held fun _ h _ ho => h.meet (live.reaches hr ho)

theorem Under.promotesLiveOnce (h : Under layout own plan) : plan.PromotesLiveOnce layout own := by
  induction h with
  | refl => exact promotesLiveOnce_start
  | tail _ next ih =>
    obtain ⟨r, rest, pending, rfl⟩ := next
    exact ih.visit pending

/-- However far a plan has come, it takes no more than is demanded. -/
theorem PromotesLiveOnce.taken_le {pageSize : Nat} (h : plan.PromotesLiveOnce layout own) :
    (Spread.of pageSize plan.promoted).taken ≤ demand layout own Record.word (max pageSize 1) := by
  classical
  have sub : plan.promoted ⊆ own.filter fun r => r.kind = .fresh ∧ Reaches layout own Record.word r.addr := by
    intro r hr
    obtain ⟨mem, live⟩ := h.promoted r hr
    exact List.mem_filter.mpr ⟨mem, decide_eq_true live⟩
  obtain ⟨rs, perm, sublist⟩ := List.subperm_of_subset h.once sub
  calc (Spread.of pageSize plan.promoted).taken
      ≤ (plan.promoted.map fun r => max r.size (max pageSize 1)).sum := Spread.taken_of_le _ _
    _ = (rs.map fun r => max r.size (max pageSize 1)).sum := (perm.symm.map _).sum_eq
    _ ≤ demand layout own Record.word (max pageSize 1) := (sublist.map _).sum_le_sum fun _ _ => Nat.zero_le _

end Plan

/-! ## What a preparation has seen -/

section

variable {layout : Layout} {own shared : List Record} {p₀ p : Preparation} {g : Progress} {r : Record} {offset : Nat}

/-- All words of live objects are known when a preparation has come to its end. -/
theorem Going.known (ready : Ready layout own shared p₀) (h : Going layout own shared p₀ True g p)
    (finished : Finished layout own g) (hr : r ∈ own) (live : r.Live layout own) (ho : offset ∈ layout.fields r.typeId) :
    r.word offset = 0 ∨ (∃ r' ∈ own, r'.addr = r.word offset) ∨ p.Outside (r.word offset) := by
  have works : ∃ item, g.Works own item r := by
    rcases ready.kinds r hr with hk | ⟨root, hk, -⟩
    · rcases live with ⟨root, hk'⟩ | reached
      · rw [hk] at hk'
        cases hk'
      · obtain ⟨twin, hm⟩ := (finished.promoted_iff r hr hk).2 reached
        obtain ⟨t, ht, -⟩ := Progress.mem_moves.1 hm
        exact ⟨_, t, .twin ht⟩
    · exact ⟨_, _, .root hr hk⟩
  obtain ⟨item, r', hs⟩ := works
  rcases h.word_becomes finished hs ho with image | ⟨-, x, hx, addr, -⟩
  · generalize r.word offset = v at image
    generalize wordAt r'.content offset = v' at image
    cases image with
    | null => exact .inl rfl
    | root hr _ => exact .inr (.inl ⟨_, hr, rfl⟩)
    | twin hm => exact .inr (.inl ⟨_, (h.fresh_of_moves hm).1, rfl⟩)
    | shared hout => exact .inr (.inr hout)
  · exact .inr (.inl ⟨x, hx, addr⟩)

end

/-! ## The verdict on a transaction -/

/-- The word is not null, and leads neither into the nursery nor into the range that is reserved for the shared heap. -/
structure Transaction.Foreign (tx : Transaction) (heap : Heap) (v : Nat) : Prop where
  set : v ≠ 0
  nursery : tx.nursery.contains v = false
  shared : heap.spaceOf v ≠ .shared

instance (tx : Transaction) (heap : Heap) (v : Nat) : Decidable (tx.Foreign heap v) :=
  decidable_of_iff (v ≠ 0 ∧ tx.nursery.contains v = false ∧ heap.spaceOf v ≠ .shared)
    ⟨fun h => ⟨h.1, h.2.1, h.2.2⟩, fun h => ⟨h.set, h.nursery, h.shared⟩⟩

/-- The word is null, or leads into the nursery, or to what the arena has handed out. -/
def Transaction.Sees (tx : Transaction) (shared : Arena) (v : Nat) : Prop :=
  v = 0 ∨ tx.nursery.contains v = true ∨ shared.contains v = true

instance (tx : Transaction) (shared : Arena) (v : Nat) : Decidable (tx.Sees shared v) := by
  unfold Transaction.Sees
  infer_instance

/-- Words of the thread's objects that lie in the range reserved for the shared heap lie in what was handed out of it. -/
def Ledger.FieldsAllocated (L : Ledger) (s : Session) (t : Nat) : Prop :=
  ∀ tx ∈ s.tx? t, ∀ r ∈ L.own t, ∀ offset ∈ s.heap.layout.fields r.typeId,
    s.heap.spaceOf (tx.nursery.memory.readWord (r.bodyAddr + offset)) = .shared →
      s.heap.shared.contains (tx.nursery.memory.readWord (r.bodyAddr + offset)) = true

instance (L : Ledger) (s : Session) (t : Nat) : Decidable (L.FieldsAllocated s t) := by
  unfold Ledger.FieldsAllocated
  infer_instance

/-- A pointer of a working copy, or of a fresh object that is reached from one, holds the word. -/
def Ledger.LiveWord (L : Ledger) (s : Session) (t : Nat) (tx : Transaction) (v : Nat) : Prop :=
  ∃ r ∈ L.own t, ((∃ root, r.kind = .copyOf root) ∨ r.kind = .fresh ∧ L.Alive s t tx r) ∧
    ∃ offset ∈ s.heap.layout.fields r.typeId, tx.nursery.memory.readWord (r.bodyAddr + offset) = v

/-- A word of a fresh object that a working copy points to is live. -/
theorem liveWord_of_copy {s : Session} {L : Ledger} {t : Nat} {tx : Transaction} {v root : Nat}
    (found : ∃ c ∈ L.own t, ∃ x ∈ L.own t, c.kind = .copyOf root ∧ x.kind = .fresh ∧
      (∃ offset ∈ s.heap.layout.pointers c.typeId, tx.nursery.memory.readWord (c.bodyAddr + offset) = x.addr) ∧
      ∃ offset ∈ s.heap.layout.fields x.typeId, tx.nursery.memory.readWord (x.bodyAddr + offset) = v) :
    L.LiveWord s t tx v := by
  obtain ⟨c, hc, x, hx, copy, fresh, ⟨offset, ho, points⟩, word⟩ := found
  refine ⟨x, hx, .inr ⟨fresh, ?_⟩, word⟩
  rw [Ledger.Alive, ← points]
  exact .root hc copy ho

noncomputable def Ledger.demand (L : Ledger) (s : Session) (t : Nat) (tx : Transaction) : Nat :=
  TxHeap.demand s.heap.layout (L.own t) (fun r offset => tx.nursery.memory.readWord (r.bodyAddr + offset))
    s.heap.config.pageSize

/-- What the prepare of a transaction answers, told from the words of its live objects. -/
structure Judged (s : Session) (L : Ledger) (t : Nat) (tx : Transaction) : Prop where
  /-- No live word that leads nowhere is overlooked. -/
  rejects : ∀ v, L.LiveWord s t tx v → tx.Foreign s.heap v → ∀ reply, (s.step (.prepare t)).1 ≠ .ok reply
  accepts : (∀ v, L.LiveWord s t tx v → ¬ tx.Foreign s.heap v) → L.demand s t tx ≤ s.heap.shared.remaining →
    ∃ report, (s.step (.prepare t)).1 = .ok (.report report)
  /-- A failure names such a word, or there is too little room. -/
  blames : ∀ f, (s.step (.prepare t)).1 = .error f →
    (∃ v, f = .refused (.foreignAddress v t) ∧ L.LiveWord s t tx v ∧ tx.Foreign s.heap v) ∨
      (∃ requested available, f = .refused (.outOfSpace requested available)) ∧
        s.heap.shared.remaining < L.demand s t tx

section

variable {s : Session} {L : Ledger} {t : Nat} {tx : Transaction} {cs : List Command} {r : Record} {v offset : Nat}

theorem Ready.live_iff (ready : Ready s.heap.layout (L.own t) [] (.ofHeap s.heap tx)) (hr : r ∈ L.own t) :
    r.Live s.heap.layout (L.own t) ↔ (∃ root, r.kind = .copyOf root) ∨ r.kind = .fresh ∧ L.Alive s t tx r := by
  have words : ∀ r ∈ L.own t, ∀ offset ∈ s.heap.layout.pointers r.typeId,
      r.word offset = tx.nursery.memory.readWord (r.bodyAddr + offset) := fun r hr offset ho =>
    ready.word_eq hr (List.mem_append_left _ ho)
  have reached : Reaches s.heap.layout (L.own t) Record.word r.addr ↔ L.Alive s t tx r := reaches_congr words
  rw [Record.Live, reached]
  refine or_congr_right' fun notCopy => ?_
  rcases ready.kinds r hr with hk | ⟨root, hk, -⟩
  · exact (and_iff_right hk).symm
  · exact absurd ⟨root, hk⟩ notCopy

theorem Ready.liveWord_iff (ready : Ready s.heap.layout (L.own t) [] (.ofHeap s.heap tx)) :
    L.LiveWord s t tx v ↔ ∃ r ∈ L.own t, r.Live s.heap.layout (L.own t) ∧
      ∃ offset ∈ s.heap.layout.fields r.typeId, r.word offset = v := by
  refine exists_congr fun r => and_congr_right fun hr => ?_
  rw [ready.live_iff hr]
  refine and_congr_right fun _ => exists_congr fun offset => and_congr_right fun ho => ?_
  rw [ready.word_eq hr ho]

/-- However far a plan has come, it takes no more than the transaction demands. -/
theorem Ready.taken_le {plan : Plan} (ready : Ready s.heap.layout (L.own t) [] (.ofHeap s.heap tx))
    (frugal : plan.PromotesLiveOnce s.heap.layout (L.own t)) : (s.spread plan).taken ≤ L.demand s t tx := by
  have sized : ∀ r ∈ L.own t, 0 < r.size := fun r hr =>
    Nat.lt_of_lt_of_le (by decide) (ready.nursery.headerSize_le hr)
  have taken : (s.spread plan).taken ≤ _ := frugal.taken_le
  rw [demand_page sized, demand_page sized] at taken
  have words := demand_congr s.heap.config.pageSize fun r hr offset ho =>
    ready.word_eq hr (List.mem_append_left _ ho)
  rw [Ledger.demand]
  exact words ▸ taken

/-- The prepare was answered, and this is what it has done. -/
structure Answered (s : Session) (L : Ledger) (t : Nat) (tx : Transaction) (report : Report) (g : Progress)
    (p : Preparation) : Prop where
  answer : (s.step (.prepare t)).1 = .ok (.report report)
  ready : Ready s.heap.layout (L.own t) [] (.ofHeap s.heap tx)
  going : Going s.heap.layout (L.own t) [] (.ofHeap s.heap tx) True g p
  finished : Finished s.heap.layout (L.own t) g
  shared : (s.step (.prepare t)).2.heap.shared = p.shared
  left : (s.step (.prepare t)).2.tx? t = some { p.tx with phase := .prepared, report }

theorem Answered.extends {report : Report} {g : Progress} {p : Preparation} (h : Answered s L t tx report g p) :
    s.heap.shared.Extends (s.step (.prepare t)).2.heap.shared :=
  h.shared ▸ h.going.onward.extends

/-- A prepare that is answered has seen all live words to lead somewhere. -/
theorem Answered.sees {report : Report} {g : Progress} {p : Preparation} (h : Answered s L t tx report g p)
    (live : L.LiveWord s t tx v) : tx.Sees (s.step (.prepare t)).2.heap.shared v := by
  obtain ⟨r, hr, alive, offset, ho, rfl⟩ := h.ready.liveWord_iff.1 live
  rw [h.shared]
  refine (h.going.known h.ready h.finished hr alive ho).imp_right (Or.imp ?_ And.right)
  rintro ⟨x, hx, e⟩
  exact e ▸ h.ready.nursery.contains hx

/-- A prepare is answered, or names a live word that leads nowhere, or finds too little room. -/
theorem IntactAt.answers (h : IntactAt t s L) (htx : s.tx? t = some tx) (hactive : tx.phase = .active)
    (aim : L.FieldsAim s t) :
    (∃ report g p, Answered s L t tx report g p) ∨ ∃ f, (s.step (.prepare t)).1 = .error f ∧
      ((∃ v, f = .refused (.foreignAddress v t) ∧ L.LiveWord s t tx v ∧ ¬ tx.Sees s.heap.shared v) ∨
        (∃ requested available, f = .refused (.outOfSpace requested available)) ∧
          s.heap.shared.remaining < L.demand s t tx) := by
  have ⟨ground, intact⟩ := h
  have ready : Ready s.heap.layout (L.own t) [] (.ofHeap s.heap tx) :=
    (intact tx htx hactive).ready ground.sound ground.roomy (.nil _ _) (aim tx htx hactive)
  have ends := planned_run ready ready.working ready.tracks rfl rfl t
  have answer := outcome_prepare htx hactive
  cases hrun : Prepare.run s.heap.layout t (.ofHeap s.heap tx) with
  | ok report p =>
    rw [hrun] at answer
    obtain ⟨p, g, _, -, going, finished, -, -, -, agrees⟩ := h.planned htx aim answer
    exact .inl ⟨report, g, p, answer, ready, going, finished, agrees.shared,
      (agrees.tx? t).trans (Session.tx?_setTx_of_tx? htx)⟩
  | error f p =>
    rw [hrun] at answer
    refine .inr ⟨f, answer, ?_⟩
    cases (ends.of_error hrun).1 with
    | foreign v stray =>
      refine .inl ⟨v, rfl, ready.liveWord_iff.2 stray.held, fun sees => ?_⟩
      refine stray.unknown (sees.imp_right (Or.imp_left fun own => ?_))
      obtain ⟨r, hr, -, offset, ho, rfl⟩ := stray.held
      exact ready.aim r hr offset ho own
    | noRoom requested available cramped =>
      obtain ⟨plan, under, short⟩ := cramped
      have short : s.heap.shared.reserve < s.heap.shared.used + (s.spread plan).taken := short ground.backed
      have taken := ready.taken_le under.promotesLiveOnce
      refine .inr ⟨⟨requested, available, rfl⟩, ?_⟩
      rw [Arena.remaining]
      have := s.heap.shared.used_le
      omega

theorem Transaction.Sees.not_foreign {a : Arena} (sees : tx.Sees a v) (ground : Grounded s) (e : s.heap.shared.Extends a) :
    ¬ tx.Foreign s.heap v := by
  intro foreign
  rcases sees with null | own | shared
  · exact foreign.set null
  · rw [foreign.nursery] at own
    cases own
  · exact foreign.shared (ground.spaceOf_extends e shared)

/-- Where nothing unallocated is pointed at, a live word that leads nowhere is foreign. -/
theorem Ledger.FieldsAllocated.foreign (allocated : L.FieldsAllocated s t) (htx : s.tx? t = some tx)
    (live : L.LiveWord s t tx v) (unseen : ¬ tx.Sees s.heap.shared v) : tx.Foreign s.heap v := by
  obtain ⟨r, hr, -, offset, ho, rfl⟩ := live
  exact ⟨fun null => unseen (.inl null), Bool.eq_false_iff.2 fun own => unseen (.inr (.inl own)),
    fun shared => unseen (.inr (.inr (allocated tx htx r hr offset ho shared)))⟩

theorem IntactAt.judged (h : IntactAt t s L) (htx : s.tx? t = some tx) (hactive : tx.phase = .active)
    (aim : L.FieldsAim s t) (allocated : L.FieldsAllocated s t) : Judged s L t tx := by
  rcases h.answers htx hactive aim with ⟨report, g, p, answered⟩ | ⟨f, failed, why⟩
  · refine ⟨?_, fun _ _ => ⟨report, answered.answer⟩, ?_⟩
    · intro v live foreign _ _
      exact (answered.sees live).not_foreign h.1 answered.extends foreign
    · intro f failed
      rw [answered.answer] at failed
      cases failed
  · refine ⟨?_, ?_, ?_⟩
    · intro v _ _ reply answer
      rw [failed] at answer
      cases answer
    · intro known room
      rcases why with ⟨v, -, live, unseen⟩ | ⟨-, short⟩
      · exact absurd (allocated.foreign htx live unseen) (known v live)
      · omega
    · intro f' failed'
      rw [failed] at failed'
      cases failed'
      refine why.imp_left ?_
      rintro ⟨v, rfl, live, unseen⟩
      exact ⟨v, rfl, live, allocated.foreign htx live unseen⟩

/--
A prepare fails for live words that lead nowhere and for want of room, and for nothing else.
The transaction was opened after a state of a life, and none of its prepares so far was
stopped by arithmetic.
-/
theorem prepare_fails_for_foreign_words_and_room (life : Lived storesAim s L) (closed : s.tx? t = none)
    (allowed : AllAllowed (unbroken t) s L cs) (htx : (s.run cs).2.tx? t = some tx) (hactive : tx.phase = .active)
    (aim : (L.along s cs).FieldsAim (s.run cs).2 t) (allocated : (L.along s cs).FieldsAllocated (s.run cs).2 t) :
    Judged (s.run cs).2 (L.along s cs) t tx :=
  (IntactAt.opened life closed allowed).judged htx hactive aim allocated

/-- The copy of a shared node points to a node that points nowhere; so does a third node, which nobody points to. -/
def Command.astray : List Command :=
  let copy := nurseryStart
  let x := copy + 48
  let y := x + 48
  [.attachMain, .create mainThread 0, .attachWorker, .start 1, .copyOnWrite 1 sharedStart, .create 1 0, .create 1 0,
    .write 1 copy 0 x, .write 1 x 8 8, .write 1 y 0 16]

/-- The node that is reached fails the prepare. -/
theorem prepare_fails_for_foreign_words_and_room_astray :
    ¬ ∃ reply, ((Session.ofNodes.run Command.astray).2.step (.prepare 1)).1 = .ok reply := by
  have before : ((Session.ofNodes.run Command.astray).2.tx? 1).any (·.phase = .active) = true := by decide +kernel
  have words : ∀ tx ∈ (Session.ofNodes.run Command.astray).2.tx? 1,
      tx.Foreign (Session.ofNodes.run Command.astray).2.heap 8 ∧
      ∃ c ∈ (Ledger.empty.along .ofNodes Command.astray).own 1, ∃ x ∈ (Ledger.empty.along .ofNodes Command.astray).own 1,
        c.kind = .copyOf sharedStart ∧ x.kind = .fresh ∧
        (∃ offset ∈ (Session.ofNodes.run Command.astray).2.heap.layout.pointers c.typeId,
          tx.nursery.memory.readWord (c.bodyAddr + offset) = x.addr) ∧
        ∃ offset ∈ (Session.ofNodes.run Command.astray).2.heap.layout.fields x.typeId,
          tx.nursery.memory.readWord (x.bodyAddr + offset) = 8 := by
    decide +kernel
  obtain ⟨tx, htx, hactive⟩ := (Option.any_eq_true _ _).1 before
  obtain ⟨foreign, live⟩ := words tx htx
  have judged := prepare_fails_for_foreign_words_and_room (.created Config.small_fits Registry.nodes_built create_ofNodes)
    (tx?_create create_ofNodes) (by decide +kernel) htx (of_decide_eq_true hactive) (by decide +kernel) (by decide +kernel)
  rintro ⟨reply, answered⟩
  exact judged.rejects 8 (liveWord_of_copy live) foreign reply answered

/-! ### A prepare that is cut off -/

/--
The copy of a shared node points to a node and into the data of another, which read as a
header have the vast type. Its prepare promotes the first node and is then stopped. Now the
copy is made to point to the first node only, and that node to nowhere.
-/
def Command.overlooked : List Command :=
  let copy := nurseryStart
  let x := copy + 48
  let y := x + 48
  [.attachMain, .create mainThread 0, .attachWorker, .start 1, .copyOnWrite 1 sharedStart, .create 1 0, .create 1 0,
    .write 1 y 0 1, .write 1 copy 0 x, .write 1 copy 8 (y + 16), .prepare 1, .write 1 copy 8 x, .write 1 y 0 0,
    .write 1 x 0 8]

/-- The next prepare answers, although a live object points nowhere. -/
theorem prepare_overlooks_foreign_word :
    Lived named (Session.ofVast.run Command.overlooked).2 (Ledger.empty.along .ofVast Command.overlooked) ∧
    (Ledger.empty.along .ofVast Command.overlooked).FieldsAim (Session.ofVast.run Command.overlooked).2 1 ∧
    (Ledger.empty.along .ofVast Command.overlooked).FieldsAllocated (Session.ofVast.run Command.overlooked).2 1 ∧
    ∃ tx report, (Session.ofVast.run Command.overlooked).2.tx? 1 = some tx ∧ tx.phase = .active ∧
      (Ledger.empty.along .ofVast Command.overlooked).LiveWord (Session.ofVast.run Command.overlooked).2 1 tx 8 ∧
      tx.Foreign (Session.ofVast.run Command.overlooked).2.heap 8 ∧
      ((Session.ofVast.run Command.overlooked).2.step (.prepare 1)).1 = .ok (.report report) := by
  refine ⟨Lived.along (.created Config.small_fits Registry.vast_built create_ofVast) (by decide +kernel),
    by decide +kernel, by decide +kernel, ?_⟩
  have before : ((Session.ofVast.run Command.overlooked).2.tx? 1).any (·.phase = .active) = true := by decide +kernel
  have ok : ((Session.ofVast.run Command.overlooked).2.step (.prepare 1)).1 = .ok (.report
      { roots := 1, promoted := 0, bytesPromoted := 0, sharedConsumed := 0, weakRedirected := 0, weakCleared := 0 }) := by
    decide +kernel
  have words : ∀ tx ∈ (Session.ofVast.run Command.overlooked).2.tx? 1,
      tx.Foreign (Session.ofVast.run Command.overlooked).2.heap 8 ∧
      ∃ c ∈ (Ledger.empty.along .ofVast Command.overlooked).own 1,
        ∃ x ∈ (Ledger.empty.along .ofVast Command.overlooked).own 1, c.kind = .copyOf sharedStart ∧ x.kind = .fresh ∧
        (∃ offset ∈ (Session.ofVast.run Command.overlooked).2.heap.layout.pointers c.typeId,
          tx.nursery.memory.readWord (c.bodyAddr + offset) = x.addr) ∧
        ∃ offset ∈ (Session.ofVast.run Command.overlooked).2.heap.layout.fields x.typeId,
          tx.nursery.memory.readWord (x.bodyAddr + offset) = 8 := by
    decide +kernel
  obtain ⟨tx, htx, hactive⟩ := (Option.any_eq_true _ _).1 before
  obtain ⟨foreign, live⟩ := words tx htx
  exact ⟨tx, _, htx, of_decide_eq_true hactive, liveWord_of_copy live, foreign, ok⟩

end

end TxHeap

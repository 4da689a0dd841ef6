/-
  TxHeap.Proofs.WeakFields — weak fields are settled when it is known what survives.

  A preparation holds back every item with a weak field and looks at these fields when the
  worklist is empty. Each such item is held back once, however it was reached (`Plan.Held`),
  so the counts of the report are numbers of objects (`Plan.Done.counts`), and each weak field
  of a working copy or a twin is judged by the final set of promotions (`WeakSettled`).

  A preparation that is stopped by its arithmetic leaves its transaction active, with objects
  that are forwarded already; so a transaction is looked at whose prepares so far came to an
  end (`unbroken`).
-/
import TxHeap.Proofs.Kept

namespace TxHeap

def weakTarget? (layout : Layout) (own : List Record) (word : Record → Nat → Nat) (r : Record) : Option Record :=
  (layout.weak? r.typeId).bind fun offset => own.find? fun x => x.addr = word r offset

/-! ## Who is held back, and how often -/

namespace Plan

def lost (promoted : List Record) (r : Record) : Bool := decide (r.kind = .fresh ∧ r ∉ promoted)

/-- The objects with a weak field that were taken from the worklist have been held back, each once. -/
def Held (layout : Layout) (own : List Record) (plan : Plan) : Prop :=
  (plan.holders ++ plan.pending.filter fun r => (layout.weak? r.typeId).isSome).Perm
    (((start own).pending ++ plan.promoted).filter fun r => (layout.weak? r.typeId).isSome)

variable {layout : Layout} {own rest : List Record} {plan : Plan} {r : Record}

theorem held_start : (start own).Held layout own := by
  rw [Held, start, List.nil_append, List.append_nil]

theorem Held.meet (h : plan.Held layout own) (v : Nat) : (plan.meet own v).Held layout own := by
  rw [Plan.meet]
  split
  · split
    · exact h
    · -- the object joins those that wait and those that are promoted
      rw [Held, List.perm_iff_count] at h ⊢
      intro a
      have := h a
      simp only [List.filter_append, List.filter_cons, List.filter_nil, List.count_append] at this ⊢
      split <;> simp only [List.count_cons, List.count_nil] <;> omega
  · exact h

theorem Held.visit (h : plan.Held layout own) (hp : plan.pending = r :: rest) :
    (Plan.visit layout own { plan with pending := rest } r).Held layout own := by
  have held : (Plan.hold layout { plan with pending := rest } r).Held layout own := by
    rw [Held, hp, List.perm_iff_count] at h
    rw [Plan.hold]
    split
    · rename_i weak
      rw [Held, List.perm_iff_count]
      intro a
      have := h a
      simp only [List.filter_cons, weak, if_true, List.count_append, List.count_cons, List.count_nil] at this ⊢
      omega
    · rename_i weak
      rw [Held, List.perm_iff_count]
      intro a
      have := h a
      simp only [List.filter_cons, weak] at this
      exact this
  exact visit_induction held fun _ h _ _ => h.meet _

theorem counts_meet (own : List Record) (plan : Plan) (v : Nat) :
    (plan.meet own v).redirected = plan.redirected ∧ (plan.meet own v).cleared = plan.cleared := by
  rw [meet]
  split
  · split <;> exact ⟨rfl, rfl⟩
  · exact ⟨rfl, rfl⟩

theorem counts_visit (layout : Layout) (own : List Record) (plan : Plan) (r : Record) :
    (plan.visit layout own r).redirected = plan.redirected ∧ (plan.visit layout own r).cleared = plan.cleared := by
  have hold : (plan.hold layout r).redirected = plan.redirected ∧ (plan.hold layout r).cleared = plan.cleared := by
    rw [Plan.hold]
    split <;> exact ⟨rfl, rfl⟩
  refine visit_induction (P := fun q => q.redirected = plan.redirected ∧ q.cleared = plan.cleared) hold ?_
  intro q same offset _
  obtain ⟨redirected, cleared⟩ := counts_meet own q (r.word offset)
  exact ⟨redirected.trans same.1, cleared.trans same.2⟩

/-- No weak field is looked at before the worklist is empty. -/
theorem Under.held (h : Under layout own plan) : plan.Held layout own ∧ plan.redirected = 0 ∧ plan.cleared = 0 := by
  induction h with
  | refl => exact ⟨held_start, rfl, rfl⟩
  | @tail plan _ _ next ih =>
    obtain ⟨r, rest, pending, rfl⟩ := next
    obtain ⟨held, redirected, cleared⟩ := ih
    obtain ⟨redirected', cleared'⟩ := counts_visit layout own { plan with pending := rest } r
    exact ⟨held.visit pending, redirected'.trans redirected, cleared'.trans cleared⟩

/-! ### The counts -/

theorem settle_counts (layout : Layout) (own : List Record) (plan : Plan) (r : Record) :
    (plan.settle layout own r).redirected =
        plan.redirected + (if (weakTarget? layout own Record.word r).any (!lost plan.promoted ·) then 1 else 0) ∧
      (plan.settle layout own r).cleared =
        plan.cleared + if (weakTarget? layout own Record.word r).any (lost plan.promoted) then 1 else 0 := by
  rw [settle, weakTarget?]
  cases layout.weak? r.typeId with
  | none => exact ⟨rfl, rfl⟩
  | some offset =>
    rw [Option.bind_some]
    dsimp only
    rw [weigh]
    cases own.find? fun x => x.addr = r.word offset with
    | none => exact ⟨rfl, rfl⟩
    | some x =>
      by_cases hx : x.kind = .fresh ∧ x ∉ plan.promoted
      · simp [lost, hx]
      · simp [lost, hx]

theorem counts_foldl_settle (layout : Layout) (own rs : List Record) (plan : Plan) :
    (rs.foldl (settle layout own) plan).redirected = plan.redirected +
        rs.countP (fun r => (weakTarget? layout own Record.word r).any (!lost plan.promoted ·)) ∧
      (rs.foldl (settle layout own) plan).cleared = plan.cleared +
        rs.countP (fun r => (weakTarget? layout own Record.word r).any (lost plan.promoted)) := by
  induction rs generalizing plan with
  | nil => exact ⟨rfl, rfl⟩
  | cons r rs ih =>
    obtain ⟨redirected, cleared⟩ := settle_counts layout own plan r
    obtain ⟨redirected', cleared'⟩ := ih (plan.settle layout own r)
    rw [(settle_lists layout own plan r).1] at redirected' cleared'
    rw [List.foldl_cons, List.countP_cons, List.countP_cons, redirected', cleared', redirected, cleared]
    exact ⟨by omega, by omega⟩

/-- Only objects with a weak field are counted. -/
theorem countP_held (layout : Layout) (own rs : List Record) (judge : Record → Bool) :
    (rs.filter fun r => (layout.weak? r.typeId).isSome).countP (fun r => (weakTarget? layout own Record.word r).any judge) =
      rs.countP fun r => (weakTarget? layout own Record.word r).any judge := by
  rw [List.countP_filter]
  refine List.countP_congr fun r _ => ?_
  rw [weakTarget?]
  cases layout.weak? r.typeId <;> simp

/-- What is counted is the working copies and the promoted objects whose weak field points at an object, by what became of that. -/
theorem Done.counts (h : plan.Done layout own) :
    plan.redirected = ((start own).pending ++ plan.promoted).countP
        (fun r => (weakTarget? layout own Record.word r).any (!lost plan.promoted ·)) ∧
      plan.cleared = ((start own).pending ++ plan.promoted).countP
        fun r => (weakTarget? layout own Record.word r).any (lost plan.promoted) := by
  obtain ⟨drained, ⟨under, empty⟩, rfl⟩ := h
  obtain ⟨held, redirected, cleared⟩ := under.held
  rw [Held, empty, List.filter_nil, List.append_nil] at held
  obtain ⟨redirected', cleared'⟩ := counts_foldl_settle layout own drained.holders drained
  rw [promoted_foldl_settle, redirected', cleared', redirected, cleared, Nat.zero_add, Nat.zero_add, held.countP_eq,
    held.countP_eq, countP_held, countP_held]
  exact ⟨rfl, rfl⟩

end Plan

/-! ## What has become of a transaction's weak fields -/

def Record.survives (nursery' : Arena) (r : Record) : Bool := r.pair?.isSome || (nursery'.memory.twinOf? r.addr).isSome

/-- What a weak field that held `v` holds now; `live` tells which objects can be reached through strong pointers. -/
structure WeakSettled (own : List Record) (live : Record → Prop) (nursery' shared : Arena) (v v' : Nat) : Prop where
  null : v = 0 → v' = 0
  root : ∀ r ∈ own, r.addr = v → ∀ root, r.kind = .copyOf root → v' = root
  reached : ∀ r ∈ own, r.addr = v → r.kind = .fresh → live r → nursery'.memory.twinOf? r.addr = some v'
  lost : ∀ r ∈ own, r.addr = v → r.kind = .fresh → ¬ live r → v' = 0
  shared : shared.contains v = true → v' = v

/-- What a prepare has made of the weak fields of a transaction's objects, told from the arenas before and after. -/
structure WeakFieldsSettled (layout : Layout) (own : List Record) (live : Record → Prop)
    (nursery shared nursery' shared' : Arena) (report : Report) : Prop where
  copies : ∀ r ∈ own, ∀ root, r.kind = .copyOf root → ∀ offset, layout.weak? r.typeId = some offset →
    WeakSettled own live nursery' shared (nursery.memory.readWord (r.bodyAddr + offset))
      (nursery'.memory.readWord (r.bodyAddr + offset))
  twins : ∀ r ∈ own, ∀ twin, nursery'.memory.twinOf? r.addr = some twin → ∀ offset, layout.weak? r.typeId = some offset →
    WeakSettled own live nursery' shared (nursery.memory.readWord (r.bodyAddr + offset))
      (shared'.memory.readWord (twin + headerSize + offset))
  /-- A weak pointer promotes nobody. -/
  promoted : ∀ r ∈ own, (nursery'.memory.twinOf? r.addr).isSome = true ↔ r.kind = .fresh ∧ live r
  /-- What is neither a working copy nor promoted is left as it is. -/
  rest : ∀ r ∈ own, r.survives nursery' = false →
    nursery'.memory.read r.bodyAddr r.bodySize = nursery.memory.read r.bodyAddr r.bodySize
  redirected : report.weakRedirected = own.countP fun r => r.survives nursery' &&
    (weakTarget? layout own (fun r offset => nursery.memory.readWord (r.bodyAddr + offset)) r).any (·.survives nursery')
  cleared : report.weakCleared = own.countP fun r => r.survives nursery' &&
    (weakTarget? layout own (fun r offset => nursery.memory.readWord (r.bodyAddr + offset)) r).any (!·.survives nursery')

section

variable {layout : Layout} {own shared : List Record} {p₀ p : Preparation} {g : Progress} {plan : Plan} {r : Record}
  {v v' : Nat} {live : Record → Prop}

/-- The image of a weak pointer is the one that belongs to where it leads. -/
theorem WeakImage.settled {nursery nursery' arena : Arena} (places : nursery.Places layout own)
    (apart : ∀ r ∈ own, arena.contains r.addr = false)
    (promoted : ∀ r ∈ own, (nursery'.memory.twinOf? r.addr).isSome = true ↔ r.kind = .fresh ∧ live r)
    (h : WeakImage own nursery' arena v v') : WeakSettled own live nursery' arena v v' := by
  have null : arena.contains 0 = true → False := fun h => by
    have := (Arena.contains_iff.1 h).1
    have := arena.start_pos
    omega
  have same : ∀ {r r'}, r ∈ own → r' ∈ own → r'.addr = r.addr → r' = r := fun hr hr' e => places.eq_of_addr hr' hr e
  have zero : ∀ {r}, r ∈ own → r.addr ≠ 0 := fun hr => Nat.pos_iff_ne_zero.1 (places.addr_pos hr)
  have kept : ∀ {r}, r ∈ own → arena.contains r.addr = true → False := fun hr h => by
    rw [apart _ hr] at h
    cases h
  rcases h with h | ⟨rfl, r, hr, rfl, hk, none⟩
  · cases h with
    | null =>
      exact ⟨fun _ => rfl, fun r hr e => absurd e (zero hr), fun r hr e => absurd e (zero hr), fun r hr e => absurd e (zero hr),
        fun _ => rfl⟩
    | @root r _ hr hk =>
      refine ⟨fun e => absurd e (zero hr), ?_, ?_, ?_, fun h => (kept hr h).elim⟩
      · intro x hx e root' hkx
        rw [same hr hx e, hk] at hkx
        cases hkx
        rfl
      · intro x hx e hkx
        rw [same hr hx e, hk] at hkx
        cases hkx
      · intro x hx e hkx
        rw [same hr hx e, hk] at hkx
        cases hkx
    | @twin r _ hr hk htwin =>
      refine ⟨fun e => absurd e (zero hr), ?_, ?_, ?_, fun h => (kept hr h).elim⟩
      · intro x hx e root' hkx
        rw [same hr hx e, hk] at hkx
        cases hkx
      · intro x hx e _ _
        rw [same hr hx e]
        exact htwin
      · intro x hx e _ dead
        rw [same hr hx e] at dead
        exact absurd ((promoted r hr).1 (by rw [htwin]; rfl)).2 dead
    | shared hin =>
      exact ⟨fun e => (null (e ▸ hin)).elim, fun x hx e => (kept hx (e ▸ hin)).elim, fun x hx e => (kept hx (e ▸ hin)).elim,
        fun x hx e => (kept hx (e ▸ hin)).elim, fun _ => rfl⟩
  · refine ⟨fun _ => rfl, ?_, ?_, fun _ _ _ _ _ => rfl, fun h => (kept hr h).elim⟩
    · intro x hx e root' hkx
      rw [same hr hx e, hk] at hkx
      cases hkx
    · intro x hx e hkx hlive
      rw [same hr hx e] at hkx hlive
      have := (promoted r hr).2 ⟨hkx, hlive⟩
      rw [none] at this
      cases this

/-- What the plan has promoted is what has a twin. -/
theorem Going.mem_promoted_iff (ready : Ready layout own shared p₀) (h : Going layout own shared p₀ True g p)
    (tracks : plan.Tracks own p₀ g p) (hr : r ∈ own) :
    r ∈ plan.promoted ↔ (p.tx.nursery.memory.twinOf? r.addr).isSome = true := by
  rw [tracks.promoted_iff, h.isSome_twinOf?_iff ready hr]
  exact ⟨fun ⟨t, ht⟩ => ⟨_, Progress.mem_moves.2 ⟨t, ht, rfl⟩⟩, fun ⟨_, hm⟩ => (Progress.mem_moves.1 hm).imp fun _ h => h.1⟩

/-- Survivors are the copies that waited at the start, and what was promoted since. -/
theorem Going.survivors (ready : Ready layout own shared p₀) (h : Going layout own shared p₀ True g p)
    (tracks : plan.Tracks own p₀ g p) :
    ((Plan.start own).pending ++ plan.promoted).Perm (own.filter (·.survives p.tx.nursery)) := by
  have mem : ∀ r, r ∈ (Plan.start own).pending ↔ r ∈ own ∧ r.pair?.isSome = true := by
    intro r
    rw [Plan.start, List.mem_reverse, List.mem_filter]
  have promoted := fun r hr => h.mem_promoted_iff (r := r) ready tracks hr
  have inside : ∀ r ∈ plan.promoted, r ∈ own ∧ r.kind = .fresh := by
    intro r hr
    obtain ⟨t, ht⟩ := tracks.promoted_iff.1 hr
    exact ⟨(h.twins r t ht).1, (h.twins r t ht).2.1⟩
  refine (List.perm_ext_iff_of_nodup ?_ (ready.nursery.nodup.filter _)).2 ?_
  · refine List.nodup_append.mpr ⟨List.nodup_reverse.mpr (ready.nursery.nodup.filter _), tracks.promoted ▸ h.once, ?_⟩
    intro x hx y hy e
    subst e
    obtain ⟨pair, hpair⟩ := Option.isSome_iff_exists.1 ((mem x).1 hx).2
    have hk := (inside x hy).2
    rw [Record.pair?, hk] at hpair
    cases hpair
  · intro r
    rw [List.mem_append, mem, List.mem_filter, Record.survives, Bool.or_eq_true]
    constructor
    · intro found
      rcases found with ⟨hr, hp⟩ | hp
      · exact ⟨hr, .inl hp⟩
      · exact ⟨(inside r hp).1, .inr ((promoted r (inside r hp).1).1 hp)⟩
    · intro found
      exact found.2.imp (fun hp => ⟨found.1, hp⟩) fun hp => (promoted r found.1).2 hp

/-- An object survives unless the plan has lost it. -/
theorem Going.survives_eq (ready : Ready layout own shared p₀) (h : Going layout own shared p₀ True g p)
    (tracks : plan.Tracks own p₀ g p) (hr : r ∈ own) : r.survives p.tx.nursery = !Plan.lost plan.promoted r := by
  have promoted := h.mem_promoted_iff ready tracks hr
  rw [Record.survives, Plan.lost]
  rcases ready.kinds r hr with hk | ⟨root, hk, -⟩
  · by_cases hp : r ∈ plan.promoted
    · simp [hp, promoted.1 hp]
    · have none : (p.tx.nursery.memory.twinOf? r.addr).isSome = false := Bool.eq_false_iff.2 fun e => hp (promoted.2 e)
      simp [hp, none, hk, Record.pair?]
  · simp [hk, Record.pair?]

/-- The plan's counts are numbers of survivors. -/
theorem Going.countP_survivors {word : Record → Nat → Nat} {judge judge' : Record → Bool} (ready : Ready layout own shared p₀)
    (h : Going layout own shared p₀ True g p) (tracks : plan.Tracks own p₀ g p)
    (words : ∀ r ∈ own, ∀ offset ∈ layout.fields r.typeId, r.word offset = word r offset)
    (same : ∀ r ∈ own, judge r = judge' r) :
    ((Plan.start own).pending ++ plan.promoted).countP (fun r => (weakTarget? layout own Record.word r).any judge) =
      own.countP fun r => r.survives p.tx.nursery && (weakTarget? layout own word r).any judge' := by
  rw [(h.survivors ready tracks).countP_eq, List.countP_filter]
  refine List.countP_congr fun r hr => ?_
  have target : weakTarget? layout own Record.word r = weakTarget? layout own word r := by
    rw [weakTarget?, weakTarget?]
    cases hweak : layout.weak? r.typeId with
    | none => rfl
    | some offset =>
      have ho : offset ∈ layout.fields r.typeId := by
        rw [Layout.fields, hweak]
        exact List.mem_append_right _ (List.mem_singleton_self _)
      rw [Option.bind_some, Option.bind_some, words r hr offset ho]
  rw [target, Bool.and_comm, Bool.and_eq_true, Bool.and_eq_true]
  refine and_congr_right fun _ => ?_
  cases found : weakTarget? layout own word r with
  | none => exact Iff.rfl
  | some x =>
    obtain ⟨offset, -, hfind⟩ := Option.bind_eq_some_iff.1 found
    rw [Option.any_some, Option.any_some, same x (List.mem_of_find?_eq_some hfind)]

/-- What a preparation that answers leaves of weak fields. -/
theorem Going.weakFieldsSettled {report : Report} {roots taken : Nat} (ready : Ready layout own shared p₀)
    (h : Going layout own shared p₀ True g p) (finished : Finished layout own g) (done : plan.Done layout own)
    (tracks : plan.Tracks own p₀ g p) (hreport : report = { plan.report roots with sharedConsumed := taken })
    (apart : ∀ r ∈ own, p₀.shared.contains r.addr = false)
    (known : ∀ r ∈ own, ∀ offset ∈ layout.fields r.typeId,
      r.word offset = 0 ∨ (∃ r' ∈ own, r'.addr = r.word offset) ∨ p₀.shared.contains (r.word offset) = true) :
    WeakFieldsSettled layout own
      (fun r => Reaches layout own (fun r offset => p₀.tx.nursery.memory.readWord (r.bodyAddr + offset)) r.addr)
      p₀.tx.nursery p₀.shared p.tx.nursery p.shared report := by
  have promoted : report.promoted = g.moves.length := by
    rw [hreport, Progress.moves, List.length_map, ← h.promoted.1, tracks.report]
    rfl
  have published := h.published ready finished promoted known
  have words : ∀ r ∈ own, ∀ offset ∈ layout.fields r.typeId,
      r.word offset = p₀.tx.nursery.memory.readWord (r.bodyAddr + offset) := fun r hr offset ho => word_eq ready hr ho
  have counts := done.counts
  refine ⟨?_, ?_, published.forwarded_iff, ?_, ?_, ?_⟩
  · intro r hr root hk offset ho
    exact ((published.copies r hr root hk).weak offset ho).settled ready.nursery.toPlaces apart published.forwarded_iff
  · intro r hr twin e offset ho
    exact ((published.twins r hr twin e).weak offset ho).settled ready.nursery.toPlaces apart published.forwarded_iff
  · intro r hr gone
    rw [Record.survives, Bool.or_eq_false_iff] at gone
    rcases ready.kinds r hr with hk | ⟨root, hk, -⟩
    · have none : ∀ t, (r, t) ∉ g.twins := by
        intro t ht
        have := (h.isSome_twinOf?_iff ready hr).2 ⟨_, Progress.mem_moves.2 ⟨t, ht, rfl⟩⟩
        rw [gone.2] at this
        cases this
      have body := h.nursery.body _ (List.mem_map_of_mem (f := g.own) hr)
      rw [h.own_eq hr hk none] at body
      rw [body]
      exact (ready.nursery.body r hr).symm
    · rw [Record.pair?, hk] at gone
      cases gone.1
  · rw [hreport]
    exact counts.1.trans (h.countP_survivors ready tracks words fun r hr => (h.survives_eq ready tracks hr).symm)
  · rw [hreport]
    refine counts.2.trans (h.countP_survivors ready tracks words fun r hr => ?_)
    rw [h.survives_eq ready tracks hr, Bool.not_not]

end

/-! ## The prepare of a transaction that was not cut off -/

/-- The rule that stores aim, and that no prepare of the thread leaves its transaction active, as one stopped by arithmetic does. -/
def unbroken (t : Nat) : Rule := fun s L c =>
  storesAim s L c ∧ (c.prepares? = some t → ∀ tx ∈ (s.step (.prepare t)).2.tx? t, tx.phase ≠ .active)

instance (t : Nat) (s : Session) (L : Ledger) (c : Command) : Decidable (unbroken t s L c) := by
  unfold unbroken
  infer_instance

theorem unbroken_divides (t : Nat) : (unbroken t).Divides :=
  ⟨fun h => ⟨trivial, h.2⟩, fun _ _ _ => ⟨trivial, nofun⟩, fun _ _ _ => ⟨trivial, nofun⟩⟩

section

variable {s : Session} {L : Ledger} {t : Nat} {tx : Transaction} {cs : List Command} {report : Report}

def IntactAt (t : Nat) (s : Session) (L : Ledger) : Prop :=
  Grounded s ∧ ∀ tx, s.tx? t = some tx → tx.phase = .active → Intact s.heap.layout (L.own t) tx

/-- Unbroken calls leave the transaction of the thread intact. -/
theorem IntactAt.along (h : IntactAt t s L) (allowed : AllAllowed (unbroken t) s L cs) :
    IntactAt t (s.run cs).2 (L.along s cs) := by
  refine (unbroken_divides t).along ?_ h allowed
  intro s L c ⟨ground, intact⟩ hc rule
  have follows := follows_step (s := s) hc
  refine ⟨ground.follows follows, ?_⟩
  intro tx htx hactive
  rw [follows.layout]
  refine ((step_effect hc).turn ground htx).intact ground.sound intact rule.1 ?_ hactive
  rintro rfl
  exact absurd hactive (rule.2 rfl tx htx)

/-- A transaction that is opened after a state of a life is intact as long as no prepare of it is stopped by arithmetic. -/
theorem IntactAt.opened (life : Lived storesAim s L) (closed : s.tx? t = none) (allowed : AllAllowed (unbroken t) s L cs) :
    IntactAt t (s.run cs).2 (L.along s cs) := by
  have start : IntactAt t s L := by
    refine ⟨life.intact.1, fun tx htx => ?_⟩
    rw [closed] at htx
    cases htx
  exact start.along allowed

/-- Strong pointers lead to the object from the working copies of the transaction. -/
def Ledger.Alive (L : Ledger) (s : Session) (t : Nat) (tx : Transaction) (r : Record) : Prop :=
  Reaches s.heap.layout (L.own t) (fun r offset => tx.nursery.memory.readWord (r.bodyAddr + offset)) r.addr

/-- A prepare that answers has carried out a plan. -/
theorem IntactAt.planned (h : IntactAt t s L) (htx : s.tx? t = some tx) (aim : L.FieldsAim s t)
    (ok : (s.step (.prepare t)).1 = .ok (.report report)) :
    ∃ (p : Preparation) (g : Progress) (plan : Plan), Ready s.heap.layout (L.own t) [] (.ofHeap s.heap tx) ∧
      Going s.heap.layout (L.own t) [] (.ofHeap s.heap tx) True g p ∧ Finished s.heap.layout (L.own t) g ∧
      plan.Done s.heap.layout (L.own t) ∧ plan.Tracks (L.own t) (.ofHeap s.heap tx) g p ∧
      report = { plan.report tx.objects.size with
        sharedConsumed := (Spread.of (max s.heap.config.pageSize 1) plan.promoted).taken } ∧
      (s.adopt t p fun tx => { tx with phase := .prepared, report }).Agrees (s.step (.prepare t)).2 := by
  obtain ⟨ground, intact⟩ := h
  obtain ⟨_, p, htx', hactive, hrun, agrees⟩ := step_prepare_ok ok
  cases htx.symm.trans htx'
  have ready : Ready s.heap.layout (L.own t) [] (.ofHeap s.heap tx) :=
    (intact tx htx hactive).ready ground.sound ground.roomy (.nil _ _) (aim tx htx hactive)
  obtain ⟨g, plan, going, finished, done, tracks, hreport⟩ := (planned_run ready ready.working ready.tracks rfl rfl t).of_ok hrun
  exact ⟨p, g, plan, ready, going, finished, done, tracks, hreport, agrees⟩

theorem IntactAt.weakFieldsSettled (h : IntactAt t s L) (htx : s.tx? t = some tx) (known : L.FieldsKnown s t)
    (ok : (s.step (.prepare t)).1 = .ok (.report report)) :
    ∃ tx', (s.step (.prepare t)).2.tx? t = some tx' ∧
      WeakFieldsSettled s.heap.layout (L.own t) (L.Alive s t tx) tx.nursery s.heap.shared tx'.nursery
        (s.step (.prepare t)).2.heap.shared report := by
  have ground := h.1
  obtain ⟨p, g, plan, ready, going, finished, done, tracks, hreport, agrees⟩ := h.planned htx (known.aim ground) ok
  refine ⟨_, (agrees.tx? t).trans (Session.tx?_setTx_of_tx? htx), ?_⟩
  rw [agrees.shared]
  have apart : ∀ r ∈ L.own t, s.heap.shared.contains r.addr = false := by
    intro r hr
    cases inside : s.heap.shared.contains r.addr with
    | false => rfl
    | true =>
      have out := ground.not_nursery htx inside
      rw [show tx.nursery.contains r.addr = true from ready.nursery.contains hr] at out
      cases out
  have fields : ∀ r ∈ L.own t, ∀ offset ∈ s.heap.layout.fields r.typeId,
      r.word offset = 0 ∨ (∃ r' ∈ L.own t, r'.addr = r.word offset) ∨ s.heap.shared.contains (r.word offset) = true := by
    intro r hr offset ho
    rw [ready.word_eq hr ho]
    exact known tx htx r hr offset ho
  have settled := going.weakFieldsSettled ready finished done tracks hreport apart fields
  unfold Ledger.Alive
  exact settled

/--
A prepare that answers settles all weak fields by the objects that are alive in the end. The
transaction was opened after a state of a life, and none of its prepares so far was stopped
by arithmetic.
-/
theorem weak_fields_settled (life : Lived storesAim s L) (closed : s.tx? t = none)
    (allowed : AllAllowed (unbroken t) s L cs) (htx : (s.run cs).2.tx? t = some tx)
    (known : (L.along s cs).FieldsKnown (s.run cs).2 t)
    (ok : ((s.run cs).2.step (.prepare t)).1 = .ok (.report report)) :
    ∃ tx', ((s.run cs).2.step (.prepare t)).2.tx? t = some tx' ∧
      WeakFieldsSettled (s.run cs).2.heap.layout ((L.along s cs).own t) ((L.along s cs).Alive (s.run cs).2 t tx)
        tx.nursery (s.run cs).2.heap.shared tx'.nursery ((s.run cs).2.step (.prepare t)).2.heap.shared report :=
  (IntactAt.opened life closed allowed).weakFieldsSettled htx known ok

/-- The weak pointer to a node of the cycle is redirected, the one to the node that is left behind is cleared. -/
theorem weak_fields_settled_cycle :
    ∃ tx tx', (Session.ofNodes.run cyclic).2.tx? 1 = some tx ∧
      ((Session.ofNodes.run cyclic).2.step (.prepare 1)).2.tx? 1 = some tx' ∧
      WeakFieldsSettled (Session.ofNodes.run cyclic).2.heap.layout ((Ledger.empty.along .ofNodes cyclic).own 1)
        ((Ledger.empty.along .ofNodes cyclic).Alive (Session.ofNodes.run cyclic).2 1 tx) tx.nursery
        (Session.ofNodes.run cyclic).2.heap.shared tx'.nursery
        ((Session.ofNodes.run cyclic).2.step (.prepare 1)).2.heap.shared
        { roots := 1, promoted := 2, bytesPromoted := 96, sharedConsumed := 256, weakRedirected := 1, weakCleared := 1 } := by
  obtain ⟨tx, htx⟩ := open_cyclic
  obtain ⟨tx', settled⟩ := weak_fields_settled (.created Config.small_fits Registry.nodes_built create_ofNodes)
    (tx?_create create_ofNodes) (by decide +kernel) htx (by decide +kernel) prepare_cyclic
  exact ⟨tx, tx', htx, settled⟩

/-! ### A prepare that is cut off -/

/-- The rule that objects are named by their starts. -/
def named : Rule := fun s L c => ∀ x ∈ c.object?, L.HasOwn s x.1 x.2 ∧ L.HasShared s x.2

instance (s : Session) (L : Ledger) (c : Command) : Decidable (named s L c) := by
  unfold named
  infer_instance

/-- A type of nodes, and one whose payload leaves no room for a header in a word. -/
def Registry.vast : Registry := ⟨#[⟨"node", 32, ⟨3⟩, some 16⟩, ⟨"vast", wordLimit - 8, ⟨0⟩, none⟩]⟩

theorem Registry.vast_built : vast.Built := by
  have node : empty.register ⟨"node", 32, ⟨3⟩, some 16⟩ = .ok (0, .nodes) := rfl
  have registered : Registry.nodes.register ⟨"vast", wordLimit - 8, ⟨0⟩, none⟩ = .ok (1, vast) := rfl
  exact .register (.register .empty node) registered

def Session.ofVast : Session :=
  (Session.create .small Registry.vast.layout (.new {})).toOption.get (by decide +kernel)

theorem create_ofVast : Session.create .small Registry.vast.layout (.new {}) = .ok .ofVast := rfl

/--
The copy of a shared node points to a node and into the data of another, which read as a
header have the vast type. Its prepare promotes the first node and is then stopped. Now the
strong pointer is taken back, and a weak one to the first node is stored.
-/
def cutOff : List Command :=
  let copy := nurseryStart
  let x := copy + 48
  let y := x + 48
  [.attachMain, .create mainThread 0, .attachWorker, .start 1, .copyOnWrite 1 sharedStart, .create 1 0, .create 1 0,
    .write 1 y 0 1, .write 1 copy 0 x, .write 1 copy 8 (y + 16), .prepare 1, .write 1 copy 8 0, .write 1 y 0 0,
    .write 1 copy 16 x]

/-- What is reached is in a strong field. -/
theorem Reaches.held {layout : Layout} {own : List Record} {word : Record → Nat → Nat} {a : Nat}
    (h : Reaches layout own word a) : ∃ r ∈ own, ∃ offset ∈ layout.pointers r.typeId, word r offset = a := by
  cases h with
  | root hr _ ho | step _ hr ho => exact ⟨_, hr, _, ho, rfl⟩

/-- The next prepare answers, and the weak pointer leads to what the first one has promoted, although nothing else does. -/
theorem weak_fields_cut_off :
    Lived named (Session.ofVast.run cutOff).2 (Ledger.empty.along .ofVast cutOff) ∧
    (Ledger.empty.along .ofVast cutOff).FieldsKnown (Session.ofVast.run cutOff).2 1 ∧
    ∃ tx report tx', (Session.ofVast.run cutOff).2.tx? 1 = some tx ∧ tx.phase = .active ∧
      ((Session.ofVast.run cutOff).2.step (.prepare 1)).1 = .ok (.report report) ∧
      ((Session.ofVast.run cutOff).2.step (.prepare 1)).2.tx? 1 = some tx' ∧
      ¬ WeakFieldsSettled (Session.ofVast.run cutOff).2.heap.layout ((Ledger.empty.along .ofVast cutOff).own 1)
        ((Ledger.empty.along .ofVast cutOff).Alive (Session.ofVast.run cutOff).2 1 tx) tx.nursery
        (Session.ofVast.run cutOff).2.heap.shared tx'.nursery
        ((Session.ofVast.run cutOff).2.step (.prepare 1)).2.heap.shared report := by
  refine ⟨Lived.along (.created Config.small_fits Registry.vast_built create_ofVast) (by decide +kernel),
    by decide +kernel, ?_⟩
  have before : ((Session.ofVast.run cutOff).2.tx? 1).map (·.phase) = some .active := by decide +kernel
  have after : (((Session.ofVast.run cutOff).2.step (.prepare 1)).2.tx? 1).isSome = true := by decide +kernel
  have ok : ((Session.ofVast.run cutOff).2.step (.prepare 1)).1 = .ok (.report
      { roots := 1, promoted := 0, bytesPromoted := 0, sharedConsumed := 0, weakRedirected := 1, weakCleared := 0 }) := by
    decide +kernel
  have fields : ∀ tx ∈ (Session.ofVast.run cutOff).2.tx? 1, ∀ tx' ∈ ((Session.ofVast.run cutOff).2.step (.prepare 1)).2.tx? 1,
      ∃ c ∈ (Ledger.empty.along .ofVast cutOff).own 1, ∃ x ∈ (Ledger.empty.along .ofVast cutOff).own 1,
        c.kind = .copyOf sharedStart ∧ x.kind = .fresh ∧ (Session.ofVast.run cutOff).2.heap.layout.weak? c.typeId = some 16 ∧
        x.addr = tx.nursery.memory.readWord (c.bodyAddr + 16) ∧ tx'.nursery.memory.readWord (c.bodyAddr + 16) ≠ 0 ∧
        ¬ ∃ r ∈ (Ledger.empty.along .ofVast cutOff).own 1, ∃ offset ∈ (Session.ofVast.run cutOff).2.heap.layout.pointers r.typeId,
          tx.nursery.memory.readWord (r.bodyAddr + offset) = x.addr := by
    decide +kernel
  obtain ⟨tx, htx, hactive⟩ := Option.map_eq_some_iff.1 before
  obtain ⟨tx', htx'⟩ := Option.isSome_iff_exists.1 after
  obtain ⟨c, hc, x, hx, hkc, hkx, weak, word, word', unheld⟩ := fields tx htx tx' htx'
  refine ⟨tx, _, tx', htx, hactive, ok, htx', fun settled => word' ?_⟩
  exact (settled.copies c hc _ hkc 16 weak).lost x hx word hkx fun alive => unheld alive.held

end

end TxHeap

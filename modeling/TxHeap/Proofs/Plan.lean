/-
  TxHeap.Proofs.Plan — what a preparation does, told by the objects alone.

  Which objects are promoted, in which order and how far from one another their twins lie is
  settled by the objects of the transaction and the page size. `Plan` goes through the
  worklist with records in place of items, and `Spread` lays the twins out in chunks that are
  counted from where the first one starts. A preparation under way is where its plan says
  (`Plan.Tracks`), whatever the shared heap holds and wherever its free pointer stands; all
  that the plan cannot tell is whether there is room (`Preparation.Short`).
-/
import Mathlib.Data.List.Induction
import Mathlib.Logic.Relation
import TxHeap.Proofs.Promotion

namespace TxHeap

/-- An arena that memory can be had for refuses only what it has no addresses for. -/
theorem Arena.short_of_allocate {a : Arena} {size : Nat} {f : Failure} (roomy : a.Roomy)
    (backed : a.reserve < backingLimit) (h : a.allocate size = .error f) : a.reserve < a.used + size := by
  rw [Roomy] at roomy
  unfold allocate at h
  split at h
  · rename_i hroom
    have backing : ∃ committed, a.backing (a.used + size) = .ok committed := by
      by_cases held : a.used + size ≤ a.committed
      · exact ⟨_, if_pos held⟩
      · rw [backing_of_word (Nat.not_le.1 held) (by omega)]
        dsimp only
        rw [Attempt.demand_eq_ok (u := ()).2 (by omega)]
        exact ⟨_, rfl⟩
    obtain ⟨committed, e⟩ := backing
    rw [e] at h
    cases h
  · omega

/-! ## Twins side by side -/

structure Spread where
  /-- Promoted objects, each with the offset of its twin. -/
  offsets : List (Record × Nat)
  /-- The buffer as it would be if the first chunk started at null. -/
  buffer : TwinBuffer

namespace Spread

def add (s : Spread) (r : Record) : Spread :=
  if s.buffer.free < r.size then
    let taken := s.buffer.reserved + max r.size s.buffer.pageSize
    ⟨s.offsets ++ [(r, s.buffer.reserved)],
      { s.buffer with cursor := s.buffer.reserved + r.size, limit := taken, reserved := taken }⟩
  else ⟨s.offsets ++ [(r, s.buffer.cursor)], { s.buffer with cursor := s.buffer.cursor + r.size }⟩

def of (pageSize : Nat) (rs : List Record) : Spread := rs.foldl add ⟨[], .new pageSize⟩

def taken (s : Spread) : Nat := s.buffer.reserved

/-- Promoted objects, each with the address of its twin if the first chunk starts at `base`. -/
def moves (s : Spread) (base : Nat) : List (Record × Nat) := s.offsets.map fun x => (x.1, base + x.2)

structure Fits (s : Spread) : Prop where
  cursor : s.buffer.cursor ≤ s.buffer.limit
  limit : s.buffer.limit ≤ s.taken
  within : ∀ x ∈ s.offsets, x.2 + x.1.size ≤ s.taken

variable {s : Spread} {pageSize base : Nat} {r : Record} {rs rs' : List Record}

theorem of_concat : of pageSize (rs ++ [r]) = (of pageSize rs).add r := by
  rw [of, List.foldl_append]
  rfl

theorem taken_le_add (s : Spread) (r : Record) : s.taken ≤ (s.add r).taken := by
  rw [add]
  split
  · exact Nat.le_add_right _ _
  · exact Nat.le_refl _

theorem fits_add (h : s.Fits) (r : Record) : (s.add r).Fits := by
  obtain ⟨cursor, limit, within⟩ := h
  simp only [taken] at *
  rw [add]
  split
  · refine ⟨by simp only; omega, Nat.le_refl _, ?_⟩
    intro x hx
    simp only [taken, List.mem_append, List.mem_singleton] at hx ⊢
    rcases hx with hx | rfl
    · have := within x hx
      omega
    · simp only
      omega
  · rename_i hfree
    rw [TwinBuffer.free] at hfree
    refine ⟨by simp only; omega, limit, ?_⟩
    intro x hx
    simp only [taken, List.mem_append, List.mem_singleton] at hx ⊢
    rcases hx with hx | rfl
    · exact within x hx
    · simp only
      omega

/-- What holds of no twin and what every further twin keeps holds of all. -/
theorem of_induction {P : Spread → Prop} (start : P ⟨[], .new pageSize⟩) (step : ∀ s r, P s → P (s.add r)) :
    P (of pageSize rs) := by
  rw [of]
  generalize (⟨[], .new pageSize⟩ : Spread) = s at start
  induction rs generalizing s with
  | nil => exact start
  | cons r rs ih => exact ih _ (step s r start)

theorem fits_of (pageSize : Nat) (rs : List Record) : (of pageSize rs).Fits :=
  of_induction ⟨Nat.le_refl _, Nat.le_refl _, nofun⟩ fun _ r h => fits_add h r

theorem taken_mono (pageSize : Nat) (h : rs <+: rs') : (of pageSize rs).taken ≤ (of pageSize rs').taken := by
  obtain ⟨more, rfl⟩ := h
  rw [of, of, List.foldl_append]
  generalize List.foldl add _ rs = s
  induction more generalizing s with
  | nil => exact Nat.le_refl _
  | cons r more ih => exact Nat.le_trans (taken_le_add s r) (ih _)

theorem fst_add (s : Spread) (r : Record) : (s.add r).offsets.map Prod.fst = s.offsets.map Prod.fst ++ [r] := by
  rw [add]
  split <;> rw [List.map_append, List.map_singleton]

theorem fst_of (pageSize : Nat) (rs : List Record) : (of pageSize rs).offsets.map Prod.fst = rs := by
  induction rs using List.reverseRecOn with
  | nil => rfl
  | append_singleton rs r ih => rw [of_concat, fst_add, ih]

theorem fst_moves : (s.moves base).map Prod.fst = s.offsets.map Prod.fst := by
  rw [moves, List.map_map]
  rfl

/-- The buffer is as planned, with the first chunk at `base`. -/
structure Sits (s : Spread) (base : Nat) (b : TwinBuffer) : Prop where
  pageSize : b.pageSize = s.buffer.pageSize
  reserved : b.reserved = s.taken
  chunk : s.buffer.cursor = 0 ∧ s.buffer.limit = 0 ∧ b.cursor = 0 ∧ b.limit = 0 ∨
    b.cursor = base + s.buffer.cursor ∧ b.limit = base + s.buffer.limit

theorem Sits.free {b : TwinBuffer} (h : s.Sits base b) : b.free = s.buffer.free := by
  rw [TwinBuffer.free, TwinBuffer.free]
  rcases h.chunk with ⟨cursor, limit, cursor', limit'⟩ | ⟨cursor, limit⟩
  · rw [cursor, limit, cursor', limit']
  · rw [cursor, limit]
    omega

section

variable {b c : TwinBuffer} {shared shared' : Arena} {twin : Nat}

/-- Room for a twin is found where the plan has it. -/
theorem Sits.allocate (h : s.Sits base b) (free : shared.freePointer = base + s.taken)
    (ok : b.allocate shared r.size = .ok (twin, c, shared')) :
    (s.add r).moves base = s.moves base ++ [(r, twin)] ∧ (s.add r).Sits base c ∧
      shared'.freePointer = base + (s.add r).taken := by
  rw [TwinBuffer.allocate, Attempt.bind_eq_ok] at ok
  obtain ⟨⟨b', grown⟩, hroom, ok⟩ := ok
  obtain ⟨hcursor, ok⟩ := Attempt.demand_bind_eq_ok.1 ok
  cases ok
  rw [TwinBuffer.makeRoom, h.free] at hroom
  rw [add]
  split at hroom
  · rename_i hfree
    rw [TwinBuffer.refill, Attempt.bind_eq_ok] at hroom
    obtain ⟨⟨start, grown'⟩, halloc, hroom⟩ := hroom
    cases hroom
    obtain ⟨rfl, grew⟩ := Arena.grew_of_allocate halloc
    rw [if_pos hfree]
    have reserved := h.reserved
    rw [h.pageSize] at grew
    refine ⟨?_, ⟨h.pageSize, ?_, .inr ⟨?_, ?_⟩⟩, ?_⟩
    · rw [moves, moves, List.map_append, List.map_singleton, free]
      rfl
    · simp only [taken] at *
      rw [h.pageSize, reserved]
    · simp only [taken] at *
      omega
    · simp only [taken] at *
      rw [h.pageSize]
      omega
    · rw [grew.freePointer, free]
      simp only [taken]
      omega
  · rename_i hfree
    cases hroom
    rw [if_neg hfree]
    rcases h.chunk with ⟨-, -, cursor, -⟩ | ⟨cursor, limit⟩
    · exact absurd cursor hcursor
    · refine ⟨?_, ⟨h.pageSize, h.reserved, .inr ⟨?_, limit⟩⟩, free⟩
      · rw [moves, moves, List.map_append, List.map_singleton, cursor]
      · simp only
        omega

/-- There is no room for a twin where the plan has none. -/
theorem Sits.short {f : Failure} (h : s.Sits base b) (free : shared.freePointer = base + s.taken) (pos : 0 < base)
    (size : 0 < r.size) (roomy : shared.Roomy) (backed : shared.reserve < Arena.backingLimit)
    (err : b.allocate shared r.size = .error f) : shared.start + shared.reserve < base + (s.add r).taken := by
  rw [TwinBuffer.allocate, TwinBuffer.makeRoom, h.free] at err
  rw [add]
  split at err
  · rename_i hfree
    rw [if_pos hfree]
    rw [TwinBuffer.refill] at err
    cases halloc : shared.allocate (max r.size b.pageSize) with
    | error f' =>
      have short := Arena.short_of_allocate roomy backed halloc
      rw [h.pageSize] at short
      simp only [Arena.freePointer, taken] at free ⊢
      omega
    | ok found =>
      obtain ⟨start, grown⟩ := found
      obtain ⟨rfl, -⟩ := Arena.grew_of_allocate halloc
      have pos : shared.freePointer ≠ 0 := by omega
      rw [halloc] at err
      simp only [bind, Except.bind, pure, Except.pure, Attempt.demand, require, pos, ne_eq, not_false_eq_true, if_true] at err
      cases err
  · rename_i hfree
    have pos : b.cursor ≠ 0 := by
      rcases h.chunk with ⟨cursor, limit, -, -⟩ | ⟨cursor, -⟩
      · rw [TwinBuffer.free] at hfree
        omega
      · omega
    simp only [bind, Except.bind, pure, Except.pure, Attempt.demand, require, pos, ne_eq, not_false_eq_true, if_true] at err
    cases err

end

end Spread

/-! ## The worklist -/

structure Plan where
  /-- The objects promoted, the first one first. -/
  promoted : List Record
  /-- The objects whose items wait, the next one first. -/
  pending : List Record
  /-- The objects whose items were held back for a weak field. -/
  holders : List Record
  /-- Weak pointers redirected. -/
  redirected : Nat
  /-- Weak pointers cleared. -/
  cleared : Nat

namespace Plan

/-- The copy that was made last waits in front. -/
def start (own : List Record) : Plan := ⟨[], (own.filter fun r => r.pair?.isSome).reverse, [], 0, 0⟩

/-- A strong pointer is met; the object it points at is promoted if it is fresh. -/
def meet (own : List Record) (plan : Plan) (v : Nat) : Plan :=
  match own.find? fun r => r.kind = .fresh ∧ r.addr = v with
  | some r =>
    if r ∈ plan.promoted then plan
    else { plan with promoted := plan.promoted ++ [r], pending := r :: plan.pending }
  | none => plan

/-- An object with a weak field is held back. -/
def hold (layout : Layout) (plan : Plan) (r : Record) : Plan :=
  if (layout.weak? r.typeId).isSome then { plan with holders := plan.holders ++ [r] } else plan

def visit (layout : Layout) (own : List Record) (plan : Plan) (r : Record) : Plan :=
  (layout.pointers r.typeId).foldl (fun plan offset => plan.meet own (r.word offset)) (plan.hold layout r)

/-- A weak pointer is redirected, cleared or left alone. -/
def weigh (own : List Record) (plan : Plan) (v : Nat) : Plan :=
  match own.find? fun r => r.addr = v with
  | some r =>
    if r.kind = .fresh ∧ r ∉ plan.promoted then { plan with cleared := plan.cleared + 1 }
    else { plan with redirected := plan.redirected + 1 }
  | none => plan

def settle (layout : Layout) (own : List Record) (plan : Plan) (r : Record) : Plan :=
  match layout.weak? r.typeId with
  | some offset => plan.weigh own (r.word offset)
  | none => plan

def Next (layout : Layout) (own : List Record) (plan plan' : Plan) : Prop :=
  ∃ r rest, plan.pending = r :: rest ∧ plan' = visit layout own { plan with pending := rest } r

def Under (layout : Layout) (own : List Record) : Plan → Prop := Relation.ReflTransGen (Next layout own) (start own)

structure Drained (layout : Layout) (own : List Record) (plan : Plan) : Prop where
  under : Under layout own plan
  empty : plan.pending = []

def Done (layout : Layout) (own : List Record) (plan : Plan) : Prop :=
  ∃ drained, Drained layout own drained ∧ plan = drained.holders.foldl (settle layout own) drained

/-- What is reported, but for the bytes taken. -/
def report (plan : Plan) (roots : Nat) : Report where
  roots
  promoted := plan.promoted.length
  bytesPromoted := (plan.promoted.map Record.size).sum
  weakRedirected := plan.redirected
  weakCleared := plan.cleared

section

variable {layout : Layout} {own : List Record} {plan plan' : Plan} {r : Record} {v : Nat}

/-! ### A plan is carried out in one way -/

theorem next_unique {next next' : Plan} (h : Next layout own plan next) (h' : Next layout own plan next') :
    next = next' := by
  obtain ⟨r, rest, pending, rfl⟩ := h
  obtain ⟨r', rest', pending', rfl⟩ := h'
  rw [pending] at pending'
  cases pending'
  rfl

theorem Drained.of_under (h : Drained layout own plan) (h' : Under layout own plan') :
    Relation.ReflTransGen (Next layout own) plan' plan := by
  have unique : Relator.RightUnique (Next layout own) := fun _ _ _ => next_unique
  rcases Relation.ReflTransGen.total_of_right_unique unique h.under h' with further | further
  · -- nothing comes after a plan that is drained
    rcases further.cases_head with rfl | ⟨next, ⟨r, rest, pending, -⟩, -⟩
    · exact .refl
    · rw [h.empty] at pending
      cases pending
  · exact further

theorem Drained.unique (h : Drained layout own plan) (h' : Drained layout own plan') : plan = plan' := by
  rcases (h.of_under h'.under).cases_head with e | ⟨next, ⟨r, rest, pending, -⟩, -⟩
  · exact e.symm
  · rw [h'.empty] at pending
    cases pending

theorem Done.unique (h : Done layout own plan) (h' : Done layout own plan') : plan = plan' := by
  obtain ⟨drained, hd, rfl⟩ := h
  obtain ⟨drained', hd', rfl⟩ := h'
  rw [hd.unique hd']

/-- What holds once the object is held back, and is kept at each of its strong pointers, holds when it has been visited. -/
theorem visit_induction {P : Plan → Prop} (held : P (plan.hold layout r))
    (met : ∀ plan, P plan → ∀ offset ∈ layout.pointers r.typeId, P (plan.meet own (r.word offset))) :
    P (plan.visit layout own r) :=
  List.foldlRecOn _ _ held met

/-! ### What is promoted stays promoted -/

theorem promoted_meet (own : List Record) (plan : Plan) (v : Nat) : plan.promoted <+: (plan.meet own v).promoted := by
  rw [meet]
  split
  · split
    · exact List.prefix_refl _
    · exact List.prefix_append _ _
  · exact List.prefix_refl _

theorem promoted_foldl (own : List Record) (r : Record) (offsets : List Nat) (plan : Plan) :
    plan.promoted <+: (offsets.foldl (fun plan offset => plan.meet own (r.word offset)) plan).promoted := by
  induction offsets generalizing plan with
  | nil => exact List.prefix_refl _
  | cons offset offsets ih => exact (promoted_meet own plan _).trans (ih _)

theorem promoted_visit (layout : Layout) (own : List Record) (plan : Plan) (r : Record) :
    plan.promoted <+: (plan.visit layout own r).promoted := by
  refine List.IsPrefix.trans ?_ (promoted_foldl own r _ _)
  rw [hold]
  split <;> exact List.prefix_refl _

theorem promoted_further (h : Relation.ReflTransGen (Next layout own) plan plan') : plan.promoted <+: plan'.promoted := by
  induction h with
  | refl => exact List.prefix_refl _
  | @tail plan _ _ next ih =>
    obtain ⟨r, rest, -, rfl⟩ := next
    exact ih.trans (promoted_visit layout own { plan with pending := rest } r)

/-- Weak pointers move no object. -/
theorem settle_lists (layout : Layout) (own : List Record) (plan : Plan) (r : Record) :
    (plan.settle layout own r).promoted = plan.promoted ∧ (plan.settle layout own r).pending = plan.pending ∧
      (plan.settle layout own r).holders = plan.holders := by
  rw [settle]
  split
  · rw [weigh]
    split
    · split <;> exact ⟨rfl, rfl, rfl⟩
    · exact ⟨rfl, rfl, rfl⟩
  · exact ⟨rfl, rfl, rfl⟩

theorem promoted_foldl_settle (layout : Layout) (own rs : List Record) (plan : Plan) :
    (rs.foldl (settle layout own) plan).promoted = plan.promoted := by
  induction rs generalizing plan with
  | nil => rfl
  | cons r rs ih => exact (ih _).trans (settle_lists layout own plan r).1

end

end Plan

/-! ## A preparation on its plan -/

/-- The shared heap has no room for the twins of these objects. -/
def Preparation.Short (p : Preparation) (rs : List Record) : Prop :=
  p.shared.reserve < p.shared.used + (Spread.of p.buffer.pageSize rs).taken

/-- There is no room for what a plan has come to promote, if it is not that memory cannot be had. -/
def Preparation.LacksRoom (layout : Layout) (own : List Record) (p : Preparation) : Prop :=
  ∃ plan : Plan, plan.Under layout own ∧ (p.shared.reserve < Arena.backingLimit → p.Short plan.promoted)

/-- The object is a working copy, or strong pointers lead to it from one. -/
def Record.Live (layout : Layout) (own : List Record) (r : Record) : Prop :=
  (∃ root, r.kind = .copyOf root) ∨ Reaches layout own Record.word r.addr

/-- A live object points with this word to nobody's memory. -/
structure Preparation.Stray (layout : Layout) (own : List Record) (p : Preparation) (v : Nat) : Prop where
  held : ∃ r ∈ own, r.Live layout own ∧ ∃ offset ∈ layout.fields r.typeId, r.word offset = v
  unknown : ¬ (v = 0 ∨ (∃ r ∈ own, r.addr = v) ∨ p.shared.contains v = true)

/-- What lets a preparation fail for want of room only. -/
structure Preparation.Clear (layout : Layout) (own : List Record) (p : Preparation) : Prop where
  known : ∀ r ∈ own, ∀ offset ∈ layout.fields r.typeId,
    r.word offset = 0 ∨ (∃ r' ∈ own, r'.addr = r.word offset) ∨ p.shared.contains (r.word offset) = true
  backed : p.shared.reserve < Arena.backingLimit

/-- The preparation that started from `p₀` is at `p`, where the plan is. -/
structure Plan.Tracks (own : List Record) (p₀ : Preparation) (plan : Plan) (g : Progress) (p : Preparation) : Prop where
  moves : g.moves = (Spread.of p₀.buffer.pageSize plan.promoted).moves p₀.shared.freePointer
  buffer : (Spread.of p₀.buffer.pageSize plan.promoted).Sits p₀.shared.freePointer p.buffer
  free : p.shared.freePointer = p₀.shared.freePointer + (Spread.of p₀.buffer.pageSize plan.promoted).taken
  pending : List.Forall₂ (g.Works own) p.pending plan.pending
  holders : List.Forall₂ (g.Works own) p.weakHolders plan.holders
  report : p.report = plan.report p₀.report.roots

section

variable {layout : Layout} {own shared : List Record} {p₀ p q : Preparation} {late : Prop} {g g' : Progress} {plan : Plan}
  {r : Record} {v twin : Nat} {rs rs' : List Record}

theorem Preparation.Short.mono (h : p.Short rs) (more : rs <+: rs') : p.Short rs' := by
  rw [Preparation.Short] at h ⊢
  have := Spread.taken_mono p.buffer.pageSize more
  omega

/-- Where all pointers are known, a preparation fails only if there is no room for all that it would promote. -/
theorem Preparation.Clear.short {thread : Nat} {f : Failure} (clear : p.Clear layout own)
    (stuck : Prepare.Stuck thread (p.LacksRoom layout own) (p.Stray layout own) f) (done : plan.Done layout own) :
    p.Short plan.promoted := by
  obtain ⟨drained, hdrained, rfl⟩ := done
  rw [Plan.promoted_foldl_settle]
  cases stuck with
  | noRoom _ _ lacks =>
    obtain ⟨plan, under, short⟩ := lacks
    exact (short clear.backed).mono (Plan.promoted_further (hdrained.of_under under))
  | foreign _ stray =>
    obtain ⟨r, hr, -, offset, ho, rfl⟩ := stray.held
    exact absurd (clear.known r hr offset ho) stray.unknown

namespace Plan.Tracks

theorem promoted (h : Tracks own p₀ plan g p) : g.twins.map Prod.fst = plan.promoted := by
  have fst := congrArg (List.map Prod.fst) h.moves
  rw [Spread.fst_moves, Spread.fst_of, Progress.moves, List.map_map] at fst
  exact fst

theorem promoted_iff (h : Tracks own p₀ plan g p) : r ∈ plan.promoted ↔ ∃ t, (r, t) ∈ g.twins := by
  rw [← h.promoted, List.mem_map]
  constructor
  · intro found
    obtain ⟨⟨x, t⟩, ht, rfl⟩ := found
    exact ⟨t, ht⟩
  · intro found
    obtain ⟨t, ht⟩ := found
    exact ⟨(r, t), ht, rfl⟩

/-- Stores and notices leave a preparation where it is. -/
theorem of_nothingPromoted (h : Tracks own p₀ plan g p) (moves : g'.moves = g.moves) (same : p.NothingPromoted q) :
    Tracks own p₀ plan g' q where
  moves := moves.trans h.moves
  buffer := same.buffer ▸ h.buffer
  free := same.freePointer.trans h.free
  pending := by
    rw [same.pending]
    exact h.pending.imp fun _ _ works => (Progress.works_of_moves moves).2 works
  holders := by
    rw [same.weakHolders]
    exact h.holders.imp fun _ _ works => (Progress.works_of_moves moves).2 works
  report := same.report.trans h.report

/-- An object is found by its address. -/
theorem find_own {f : Record → Bool} (ready : Ready layout own shared p₀) (hr : r ∈ own) (hf : f r = true)
    (only : ∀ x, f x = true → x.addr = r.addr) : own.find? f = some r := by
  cases hfind : own.find? f with
  | none => exact absurd hf (by simpa using List.find?_eq_none.1 hfind r hr)
  | some x => rw [Going.own_unique ready (List.mem_of_find?_eq_some hfind) hr (only x (List.find?_some hfind))]

/-- A pointer that leads to no object that is to be promoted. -/
theorem meet_same (h : Tracks own p₀ plan g p) (hv : ∀ r ∈ own, r.kind = .fresh → r.addr = v → ∃ t, (r, t) ∈ g.twins) :
    plan.meet own v = plan := by
  rw [meet]
  split
  · rename_i r hfind
    have found := List.find?_some hfind
    rw [decide_eq_true_eq] at found
    rw [if_pos (h.promoted_iff.2 (hv r (List.mem_of_find?_eq_some hfind) found.1 found.2))]
  · rfl

theorem meet_fresh (ready : Ready layout own shared p₀) (h : Tracks own p₀ plan g p) (hr : r ∈ own) (hk : r.kind = .fresh)
    (hn : ∀ t, (r, t) ∉ g.twins) :
    plan.meet own r.addr = { plan with promoted := plan.promoted ++ [r], pending := r :: plan.pending } := by
  have found : own.find? (fun x => x.kind = .fresh ∧ x.addr = r.addr) = some r :=
    find_own ready hr (decide_eq_true ⟨hk, rfl⟩) fun x hx => (of_decide_eq_true hx).2
  have new : r ∉ plan.promoted := fun hin => (h.promoted_iff.1 hin).elim hn
  rw [meet, found]
  exact if_neg new

/-- An object is promoted. -/
theorem promote (ready : Ready layout own shared p₀) (h : Tracks own p₀ plan g p) (hr : r ∈ own) (hk : r.kind = .fresh)
    (hn : ∀ t, (r, t) ∉ g.twins) (made : g.Made p r twin q) :
    Tracks own p₀ (plan.meet own r.addr) (g.promote r (r.twinAt twin)) q := by
  obtain ⟨b, allocated, free⟩ := made.room
  obtain ⟨moves, sits, free'⟩ := h.buffer.allocate h.free allocated
  have works : ∀ {i x}, g.Works own i x → (g.promote r (r.twinAt twin)).Works own i x := fun hx =>
    Progress.works_promote.2 (.inl hx)
  rw [meet_fresh ready h hr hk hn]
  refine ⟨?_, ?_, ?_, ?_, ?_, ?_⟩
  · rw [Progress.promote_moves, h.moves, Spread.of_concat, moves]
    rfl
  · rw [Spread.of_concat]
    exact sits
  · rw [Spread.of_concat, free, free']
  · rw [made.pending]
    exact .cons (Progress.works_promote.2 (.inr ⟨rfl, rfl⟩)) (h.pending.imp fun _ _ => works)
  · rw [made.holders]
    exact h.holders.imp fun _ _ => works
  · rw [made.report, h.report]
    simp only [Plan.report, List.length_append, List.map_append, List.sum_append, List.length_singleton, List.map_singleton,
      List.sum_singleton]

/-- Where the plan has no room for an object, there is none. -/
theorem short {f : Failure} (ready : Ready layout own shared p₀) (going : Going layout own shared p₀ late g p)
    (h : Tracks own p₀ plan g p) (hr : r ∈ own) (hk : r.kind = .fresh) (hn : ∀ t, (r, t) ∉ g.twins)
    (backed : p₀.shared.reserve < Arena.backingLimit) (err : p.buffer.allocate p.shared r.size = .error f) :
    p₀.Short (plan.meet own r.addr).promoted := by
  have start := p₀.shared.start_pos
  have size := ready.nursery.headerSize_le hr
  rw [← going.onward.reserve] at backed
  have short := h.buffer.short h.free (by rw [Arena.freePointer]; omega) (by simp only [headerSize, wordSize] at size; omega)
    (going.onward.roomy ready.roomy) backed err
  rw [meet_fresh ready h hr hk hn, Preparation.Short, Spread.of_concat]
  rw [going.onward.reserve, going.onward.start, Arena.freePointer] at short
  omega

end Plan.Tracks

end

end TxHeap

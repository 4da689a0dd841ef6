/-
  TxHeap.Proofs.Settlement — weak fields, and a preparation from its start to its end.

  When the worklist is empty it is known which fresh objects have twins. A weak field then
  becomes the image of what it held, or null where its object was not promoted
  (`going_settleWeak`). A preparation that answers has done every field of every working copy and
  twin, and has promoted exactly what can be reached (`Finished`); one that fails is refused,
  and has left what was there before as it was (`going_run`).
-/
import TxHeap.Proofs.Worklist

namespace TxHeap

open Step

variable {layout : Layout} {own shared : List Record} {p₀ p q : Preparation} {g : Progress}
  {item : Item} {r : Record} {v v' : Nat} {plan : Plan}

/-- Strong pointers are done as before when weak ones may be done as well. -/
theorem Going.late (h : Going layout own shared p₀ False g p) : Going layout own shared p₀ True g p :=
  { h with
    bodies := fun item r r' hs => by
      obtain ⟨sub, body⟩ := h.bodies item r r' hs
      exact ⟨sub, body.mono fun _ _ _ _ hb => hb.mono id fun hf => hf.1.elim⟩ }

/-! ## Weak fields -/

/-- A weak pointer to an object is redirected, or cleared where its object is not promoted. -/
theorem Plan.weigh_own (ready : Ready layout own shared p₀) (plan : Plan) (hr : r ∈ own) :
    plan.weigh own r.addr = if r.kind = .fresh ∧ r ∉ plan.promoted then { plan with cleared := plan.cleared + 1 }
      else { plan with redirected := plan.redirected + 1 } := by
  have found : own.find? (fun x => x.addr = r.addr) = some r :=
    Plan.Tracks.find_own ready hr (decide_eq_true rfl) fun x hx => of_decide_eq_true hx
  rw [Plan.weigh, found]

theorem Plan.weigh_none (h : ∀ r ∈ own, r.addr ≠ v) : plan.weigh own v = plan := by
  have missing : own.find? (fun x => x.addr = v) = none :=
    List.find?_eq_none.2 fun x hx e => h x hx (of_decide_eq_true e)
  rw [Plan.weigh, missing]

/-- Only a count of weak pointers changes. -/
theorem Plan.Tracks.counted {redirected cleared : Nat} (tracks : plan.Tracks own p₀ g p)
    (same : q.shared = p.shared ∧ q.buffer = p.buffer ∧ q.pending = p.pending ∧ q.weakHolders = p.weakHolders)
    (report : q.report = { p.report with weakRedirected := redirected, weakCleared := cleared }) :
    ({ plan with redirected, cleared } : Plan).Tracks own p₀ g q where
  moves := tracks.moves
  buffer := same.2.1 ▸ tracks.buffer
  free := by
    rw [same.1]
    exact tracks.free
  pending := same.2.2.1 ▸ tracks.pending
  holders := same.2.2.2 ▸ tracks.holders
  report := by
    rw [report, tracks.report]
    rfl

theorem going_redirectWeak {bad : Failure → Preparation → Prop} (ready : Ready layout own shared p₀)
    (h : Going layout own shared p₀ True g p) (tracks : plan.Tracks own p₀ g p)
    (hv : Image own g.moves p.Outside v v') (hw : plan.weigh own v = { plan with redirected := plan.redirected + 1 }) :
    Ends (Prepare.redirectWeak v') p
      (fun v' q => Going layout own shared p₀ True g q ∧ v' < wordLimit ∧
        (Image own g.moves q.Outside v v' ∨ Cleared own g.moves v v') ∧ (plan.weigh own v).Tracks own p₀ g q) bad := by
  rw [Prepare.redirectWeak, ends_bind, ends_modify, ends_pure]
  refine ⟨h.of_same rfl rfl rfl rfl ⟨rfl, rfl⟩ ⟨rfl, rfl⟩, h.image_lt ready hv, .inl hv, ?_⟩
  rw [hw]
  refine tracks.counted ⟨rfl, rfl, rfl, rfl⟩ ?_
  rw [tracks.report]
  rfl

/-- What a weak pointer becomes. -/
theorem going_weakImage (ready : Ready layout own shared p₀) (h : Going layout own shared p₀ True g p)
    (aim : p₀.tx.nursery.contains v = true → ∃ r ∈ own, r.addr = v) (thread : Nat) (tracks : plan.Tracks own p₀ g p) :
    Ends (Prepare.weakImage thread v) p
      (fun v' q => Going layout own shared p₀ True g q ∧ v' < wordLimit ∧
        (Image own g.moves q.Outside v v' ∨ Cleared own g.moves v v') ∧ (plan.weigh own v).Tracks own p₀ g q)
      fun f q => Prepare.Stuck thread False
        (fun x => x = v ∧ ¬ (v = 0 ∨ (∃ r ∈ own, r.addr = v) ∨ p₀.shared.contains v = true)) f ∧
        ∃ g', Going layout own shared p₀ True g' q := by
  have same : ∀ {v'}, Image own g.moves p.Outside v v' → (∀ r ∈ own, r.addr ≠ v) →
      Going layout own shared p₀ True g p ∧ v' < wordLimit ∧
        (Image own g.moves p.Outside v v' ∨ Cleared own g.moves v v') ∧ (plan.weigh own v).Tracks own p₀ g p :=
    fun hv none => ⟨h, h.image_lt ready hv, .inl hv, by rw [Plan.weigh_none none]; exact tracks⟩
  rw [Prepare.weakImage, ends_bind, ends_get]
  rcases h.target_cases ready aim with ⟨e, rfl⟩ | ⟨r, hr, root, hk, rfl, e⟩ | ⟨r, hr, hk, rfl, e⟩ | ⟨e, hout⟩ | ⟨e, hout⟩
  · rw [e]
    exact same .null fun r hr => Nat.pos_iff_ne_zero.1 (ready.nursery.addr_pos hr)
  · rw [e]
    refine going_redirectWeak ready h tracks (.root hr hk) ?_
    rw [Plan.weigh_own ready plan hr, if_neg fun fresh => by rw [hk] at fresh; cases fresh.1]
  · rw [e]
    show Ends (get >>= _) p _ _
    rw [ends_bind, ends_get, ends_bind]
    rcases h.header_fresh hr hk with ⟨twin, hm, hh, hne⟩ | ⟨hn, hh⟩
    · refine ends_ofAttempt_ok hh ?_
      rw [version_forwarded hne]
      refine going_redirectWeak ready h tracks (.twin hm) ?_
      obtain ⟨t, ht, -⟩ := Progress.mem_moves.1 hm
      rw [Plan.weigh_own ready plan hr, if_neg fun fresh => fresh.2 (tracks.promoted_iff.2 ⟨t, ht⟩)]
    · refine ends_ofAttempt_ok hh ?_
      have version : (Header.new r.typeId 0).version = .empty := rfl
      rw [version]
      show Ends (Prepare.clearWeak thread r.addr) p _ _
      rw [Prepare.clearWeak, ends_bind, ends_modify, ends_bind, Prepare.note, ends_modify, ends_pure]
      refine ⟨h.of_same rfl rfl rfl rfl ⟨rfl, rfl⟩ ⟨rfl, rfl⟩, wordLimit_pos, .inr ⟨rfl, r, hr, rfl, hk, ?_⟩, ?_⟩
      · intro twin hm
        obtain ⟨t, ht, -⟩ := Progress.mem_moves.1 hm
        exact hn t ht
      · have unpromoted : r ∉ plan.promoted := fun hin => (tracks.promoted_iff.1 hin).elim hn
        rw [Plan.weigh_own ready plan hr, if_pos ⟨hk, unpromoted⟩]
        refine tracks.counted ⟨rfl, rfl, rfl, rfl⟩ ?_
        rw [tracks.report]
        rfl
  · rw [e]
    refine same (.shared hout) ?_
    intro r hr e
    have inside := ready.nursery.contains hr
    rw [← h.onward.nursery_contains, e, hout.1] at inside
    cases inside
  · rw [e]
    exact ⟨.foreign _ ⟨rfl, hout⟩, g, h⟩

/-- The weak field of an item whose strong pointers are done. -/
theorem going_settleWeak (ready : Ready layout own shared p₀) (h : Going layout own shared p₀ True g p) (thread : Nat)
    (tracks : plan.Tracks own p₀ g p) (hs : g.Works own item r) (live : r.Live layout own)
    (hd : g.done item = layout.pointers r.typeId) :
    Ends (Prepare.settleWeak layout thread item) p
      (fun _ q => ∃ g', Going layout own shared p₀ True g' q ∧ g'.moves = g.moves ∧
        g'.done item = layout.fields r.typeId ∧ (∀ i, i ≠ item → g'.done i = g.done i) ∧
        (plan.settle layout own r).Tracks own p₀ g' q)
      fun f q => Prepare.Stuck thread False (p₀.Stray layout own) f ∧ ∃ g', Going layout own shared p₀ True g' q := by
  obtain ⟨r', hs'⟩ := hs
  have hs : g.Works own item r := ⟨r', hs'⟩
  have typeId : r'.header.typeId = r.typeId := (Record.header_typeId r').trans (h.stands_shape hs').2.1
  rw [Prepare.settleWeak, ends_bind]
  refine ends_of_ok (h.headerOf_eq hs') ?_
  rw [typeId, Plan.settle]
  cases hweak : layout.weak? r.typeId with
  | none =>
    exact ⟨g, h, rfl, by rw [hd, Layout.fields, hweak, Option.toList_none, List.append_nil], fun _ _ => rfl, tracks⟩
  | some offset =>
    have fields : layout.fields r.typeId = layout.pointers r.typeId ++ [offset] := by
      rw [Layout.fields, hweak, Option.toList_some]
    have ho : offset ∈ layout.fields r.typeId := by
      rw [fields]
      exact List.mem_append_right _ (List.mem_singleton_self _)
    have hnot : offset ∉ g.done item := fun hin => by
      have nodup := ready.sound.fields_nodup r.typeId
      rw [fields] at nodup
      exact (List.nodup_append.mp nodup).2.2 offset (hd ▸ hin) offset (List.mem_singleton_self _) rfl
    have mem := h.works_mem hs
    show Ends (Prepare.replaceField item (Prepare.weakImage thread) offset) p _ _
    rw [Prepare.replaceField, ends_bind]
    refine ends_of_ok (h.read_waiting ready hs ho hnot) ?_
    rw [ends_bind]
    refine (going_weakImage ready h (ready.aim r mem offset ho) thread tracks).mono ?_
      fun _ _ hf => ⟨hf.1.mono id ?_, hf.2⟩
    rotate_left
    · rintro _ ⟨rfl, unknown⟩
      exact ⟨⟨r, mem, live, offset, ho, rfl⟩, unknown⟩
    intro v' q hq
    obtain ⟨h₁, word, hv, tracks₁⟩ := hq
    refine (going_store ready h₁ hs ho hnot word (.inr ⟨hweak, trivial, hv⟩)).mono ?_ fun _ _ hf => hf
    intro _ q' hq'
    obtain ⟨g', h', moves, done, still⟩ := hq'
    refine ⟨g', h', moves, ?_, ?_, tracks₁.of_nothingPromoted moves still⟩
    · rw [done, Progress.finish_done_self, hd, fields]
    · intro i ne
      rw [done, Progress.finish_done_of_ne ne]

/-! ## From start to end -/

/-- What a preparation that answers has done. -/
structure Finished (layout : Layout) (own : List Record) (g : Progress) : Prop where
  promoted_iff : ∀ r ∈ own, r.kind = .fresh → ((∃ twin, (r, twin) ∈ g.moves) ↔ Reaches layout own Record.word r.addr)
  done : ∀ item r, g.Works own item r → g.done item = layout.fields r.typeId

/-- What has become of a pointer of an item in the end. -/
theorem Going.word_becomes {item : Item} {r r' : Record} {offset : Nat} (h : Going layout own shared p₀ True g p)
    (finished : Finished layout own g) (hs : g.Stands own item r r') (ho : offset ∈ layout.fields r.typeId) :
    Image own g.moves p.Outside (r.word offset) (wordAt r'.content offset) ∨
      Cleared own g.moves (r.word offset) (wordAt r'.content offset) := by
  have body := (h.bodies item r r' hs).2
  rw [finished.done item r ⟨r', hs⟩] at body
  rcases body.replaced offset ho with ⟨-, image⟩ | ⟨-, -, either⟩
  · exact .inl image
  · exact either

/-- All weak fields are settled once those held back are. -/
theorem going_settle (ready : Ready layout own shared p₀) (h : Going layout own shared p₀ False g p) (thread : Nat)
    (w : Working layout own none g p) (hp : p.pending = []) (tracks : plan.Tracks own p₀ g p) :
    Ends (p.weakHolders.forM (Prepare.settleWeak layout thread)) p
      (fun _ q => ∃ g', Going layout own shared p₀ True g' q ∧ Finished layout own g' ∧
        (plan.holders.foldl (Plan.settle layout own) plan).Tracks own p₀ g' q)
      fun f q => Prepare.Stuck thread False (p₀.Stray layout own) f ∧ ∃ g', Going layout own shared p₀ True g' q := by
  generalize hgoal : List.foldl _ _ _ = goal
  refine (ends_forM (fun left q => left.Nodup ∧ ∃ (g' : Progress) (plan' : Plan) (rs : List Record),
      Going layout own shared p₀ True g' q ∧ g'.moves = g.moves ∧ plan'.Tracks own p₀ g' q ∧
      List.Forall₂ (g.Works own) left rs ∧ rs.foldl (Plan.settle layout own) plan' = goal ∧ ∀ item r, g'.Works own item r →
        g'.done item = if item ∈ left then layout.pointers r.typeId else layout.fields r.typeId)
      ?_ _ p ⟨w.once, g, plan, plan.holders, h.late, rfl, tracks, tracks.holders, hgoal, ?_⟩).mono ?_
      fun _ _ hf => hf
  · intro item left q hq
    obtain ⟨nodup, g', plan', rs, h', moves, tracks', works, hplan, done⟩ := hq
    obtain ⟨hnot, nodup⟩ := List.nodup_cons.mp nodup
    obtain ⟨r, rest, hr, rests, rfl⟩ := List.forall₂_cons_left_iff.1 works
    have hr' := (Progress.works_of_moves moves).2 hr
    have hd := done item r hr'
    rw [if_pos List.mem_cons_self] at hd
    refine (going_settleWeak ready h' thread tracks' hr' (w.alive hr) hd).mono ?_ fun _ _ hf => hf
    intro _ q' hq'
    obtain ⟨g'', h'', moves'', done'', others, tracks''⟩ := hq'
    refine ⟨nodup, g'', _, rest, h'', moves''.trans moves, tracks'', rests, hplan, ?_⟩
    intro i x hx
    have hx' := (Progress.works_of_moves moves'').1 hx
    by_cases e : i = item
    · subst e
      obtain ⟨x', hx₁⟩ := hx'
      obtain ⟨r', hr₁⟩ := hr'
      rw [if_neg hnot, done'', (h'.stands_unique ready hx₁ hr₁).1]
    · rw [others i e, done i x hx']
      simp only [List.mem_cons, e, false_or]
  · intro item r hs
    rw [w.all_done hp hs]
    by_cases hin : item ∈ p.weakHolders
    · rw [if_pos hin]
    · have hnone : layout.weak? r.typeId = none := by
        rw [w.holders item r hs, hp, not_and] at hin
        exact Option.not_isSome_iff_eq_none.mp (hin List.not_mem_nil)
      rw [if_neg hin, Layout.fields, hnone, Option.toList_none, List.append_nil]
  · intro _ q hq
    obtain ⟨-, g', plan', rs, h', moves, tracks', works, hplan, done⟩ := hq
    rw [List.forall₂_nil_left_iff] at works
    subst works
    refine ⟨g', h', ⟨?_, ?_⟩, hplan ▸ tracks'⟩
    · intro r hr hk
      rw [moves]
      exact w.promoted_iff ready h hp hr hk
    · intro item r hs
      rw [done item r hs, if_neg List.not_mem_nil]

/--
A preparation that answers has carried out its plan, and one that fails has met a pointer
that leads nowhere or has no room for its plan.
-/
theorem planned_run (ready : Ready layout own shared p) (w : Working layout own none .start p)
    (tracks : (Plan.start own).Tracks own p .start p) (hc : p.buffer.cursor = 0) (hl : p.buffer.limit = 0) (thread : Nat) :
    Ends (Prepare.run layout thread) p
      (fun report q => ∃ (g : Progress) (plan : Plan), Going layout own shared p True g q ∧ Finished layout own g ∧
        plan.Done layout own ∧ plan.Tracks own p g q ∧
        report = { plan.report p.report.roots with sharedConsumed := (Spread.of p.buffer.pageSize plan.promoted).taken })
      fun f q => Prepare.Stuck thread (p.LacksRoom layout own) (p.Stray layout own) f ∧
        ∃ g, Going layout own shared p True g q := by
  have counts := tracks.report
  rw [Prepare.run, ends_bind]
  refine (going_drain ready thread (ready.going hc hl (by rw [counts]; rfl) (by rw [counts]; rfl)) w .refl tracks).mono ?_ ?_
  · intro _ q hq
    obtain ⟨g, plan, h, w', hp, drained, tracks'⟩ := hq
    rw [ends_bind, ends_get, ends_bind]
    refine (going_settle ready h thread w' hp tracks').mono ?_ ?_
    · intro _ q' hq'
      obtain ⟨g', h', finished, tracks''⟩ := hq'
      rw [ends_bind, ends_get, ends_pure]
      refine ⟨g', _, h', finished, ⟨plan, drained, rfl⟩, tracks'', ?_⟩
      rw [tracks''.report, tracks''.buffer.reserved]
    · exact fun f q' hf => ⟨hf.1.mono False.elim fun _ => id, hf.2⟩
  · exact fun f q hf => ⟨hf.1, hf.2.imp fun _ h => h.late⟩

/-- Every working copy waits when a preparation starts. -/
theorem Ready.working {heap : Heap} {tx : Transaction} (h : Ready layout own shared (.ofHeap heap tx)) :
    Working layout own none .start (.ofHeap heap tx) := by
  have pending : ∀ item, item ∈ (Preparation.ofHeap heap tx).pending ↔
      ∃ r ∈ own, (∃ root, r.kind = .copyOf root) ∧ item = .root r.addr := by
    intro item
    have pairs : tx.objects.pairs = own.filterMap Record.pair? := h.pairs
    simp only [Preparation.ofHeap, List.mem_reverse, pairs, List.mem_map, List.mem_filterMap, Prod.exists,
      Record.pair?_eq_some]
    constructor
    · intro found
      obtain ⟨root, copy, ⟨r, hr, hk, rfl⟩, rfl⟩ := found
      exact ⟨r, hr, ⟨root, hk⟩, rfl⟩
    · intro found
      obtain ⟨r, hr, ⟨root, hk⟩, rfl⟩ := found
      exact ⟨root, r.addr, ⟨r, hr, hk, rfl⟩, rfl⟩
  have works : ∀ {item r}, Progress.start.Works own item r ↔ r ∈ own ∧ (∃ root, r.kind = .copyOf root) ∧ item = .root r.addr := by
    intro item r
    rw [Progress.works_iff]
    exact ⟨fun hs => hs.elim id fun ⟨_, hm, _⟩ => absurd hm List.not_mem_nil, .inl⟩
  refine ⟨nofun, ?_, ?_, nofun, fun item r hs => .inl ?_, ?_, nofun, .nil⟩
  · intro item hi
    obtain ⟨r, hr, hk, rfl⟩ := (pending item).1 hi
    exact ⟨⟨r, works.2 ⟨hr, hk, rfl⟩⟩, rfl⟩
  · have pairs : tx.objects.pairs = own.filterMap Record.pair? := h.pairs
    rw [Preparation.ofHeap, pairs]
    refine List.pairwise_reverse.mpr (List.Pairwise.imp Ne.symm ?_)
    refine List.Pairwise.map (R := fun x y => x.2 ≠ y.2) _ (fun _ _ ne e => ne (Item.root.inj e)) ?_
    refine List.pairwise_filterMap.mpr (h.nursery.apart.imp_of_mem ?_)
    intro r r' hr hr' apart x hx y hy e
    have := h.nursery.headerSize_le hr
    have := h.nursery.headerSize_le hr'
    rw [← (Record.pair?_eq_some.1 hx).2, ← (Record.pair?_eq_some.1 hy).2] at e
    simp only [Record.stop, headerSize, wordSize] at *
    omega
  · obtain ⟨hr, hk, rfl⟩ := works.1 hs
    exact (pending _).2 ⟨r, hr, hk, rfl⟩
  · intro item r hs
    obtain ⟨hr, hk, rfl⟩ := works.1 hs
    exact ⟨fun hi => absurd hi List.not_mem_nil, fun hi => absurd ((pending _).2 ⟨r, hr, hk, rfl⟩) hi.1⟩

/-- The objects that wait at the start are those of the working copies. -/
theorem Progress.works_copies {rs : List Record} (sub : ∀ r ∈ rs, r ∈ own) :
    List.Forall₂ (Progress.start.Works own) ((rs.filterMap Record.pair?).map fun pair => .root pair.2)
      (rs.filter fun r => r.pair?.isSome) := by
  induction rs with
  | nil => exact .nil
  | cons r rs ih =>
    have ih := ih fun x hx => sub x (List.mem_cons_of_mem r hx)
    cases hpair : r.pair? with
    | none => rwa [List.filterMap_cons_none hpair, List.filter_cons_of_neg (by rw [hpair]; exact Bool.false_ne_true)]
    | some pair =>
      obtain ⟨root, copy⟩ := pair
      obtain ⟨hk, rfl⟩ := Record.pair?_eq_some.1 hpair
      rw [List.filterMap_cons_some hpair, List.map_cons, List.filter_cons_of_pos (by rw [hpair]; rfl)]
      exact .cons ⟨_, .root (sub r List.mem_cons_self) hk⟩ ih

/-- A preparation starts where its plan starts. -/
theorem Ready.tracks {heap : Heap} {tx : Transaction} (h : Ready layout own shared (.ofHeap heap tx)) :
    (Plan.start own).Tracks own (.ofHeap heap tx) .start (.ofHeap heap tx) where
  moves := rfl
  buffer := by
    refine ⟨?_, rfl, .inl ⟨rfl, rfl, rfl, rfl⟩⟩
    exact (Nat.max_eq_left (Nat.le_max_right _ _)).symm
  free := rfl
  pending := by
    have pairs : tx.objects.pairs = own.filterMap Record.pair? := h.pairs
    rw [Preparation.ofHeap, pairs]
    exact List.rel_reverse (Progress.works_copies fun _ hr => hr)
  holders := .nil
  report := rfl

theorem going_run {heap : Heap} {tx : Transaction} (ready : Ready layout own shared (.ofHeap heap tx)) (thread : Nat) :
    Ends (Prepare.run layout thread) (.ofHeap heap tx)
      (fun report q => ∃ g, Going layout own shared (.ofHeap heap tx) True g q ∧ Finished layout own g ∧
        report.promoted = g.moves.length)
      fun f q => Prepare.Stuck thread (Preparation.LacksRoom layout own (.ofHeap heap tx))
        (Preparation.Stray layout own (.ofHeap heap tx)) f ∧ ∃ g, Going layout own shared (.ofHeap heap tx) True g q := by
  refine (planned_run ready ready.working ready.tracks rfl rfl thread).mono ?_ fun _ _ hf => hf
  intro report q hq
  obtain ⟨g, plan, h, finished, -, tracks, rfl⟩ := hq
  refine ⟨g, h, finished, ?_⟩
  rw [Progress.moves, List.length_map, ← h.promoted.1, tracks.report]

end TxHeap

/-
  TxHeap.Proofs.Worklist — what a preparation has done when no item is waiting.

  Every item is waiting with nothing done, or it is the one being visited, or all its strong
  pointers are done (`Working`). A visit keeps this (`going_visit`), so when the worklist is
  empty all strong pointers are images; as an image of a fresh object is a twin, exactly
  what can be reached from the working copies has been promoted (`Working.promoted_iff`).
-/
import TxHeap.Proofs.Plan

namespace TxHeap

open Step

variable {layout : Layout} {own shared : List Record} {p₀ p q : Preparation} {late : Prop} {g : Progress}
  {item : Item} {r r' : Record} {v v' : Nat} {plan : Plan}

theorem Record.pair?_eq_some {root copy : Nat} : r.pair? = some (root, copy) ↔ r.kind = .copyOf root ∧ r.addr = copy := by
  unfold pair?
  cases r.kind <;> simp

/-! ## Images -/

/-- Where a word that is null, an object of the nursery or not in the nursery points. -/
theorem Going.target_cases (ready : Ready layout own shared p₀) (h : Going layout own shared p₀ late g p)
    (aim : p₀.tx.nursery.contains v = true → ∃ r ∈ own, r.addr = v) :
    (p.target v = .null ∧ v = 0) ∨
    (∃ r ∈ own, ∃ root, r.kind = .copyOf root ∧ r.addr = v ∧ p.target v = .root root) ∨
    (∃ r ∈ own, r.kind = .fresh ∧ r.addr = v ∧ p.target v = .fresh) ∨
    (p.target v = .shared ∧ p.Outside v) ∨
    (p.target v = .foreign ∧ ¬ (v = 0 ∨ (∃ r ∈ own, r.addr = v) ∨ p₀.shared.contains v = true)) := by
  have pairs : p.tx.objects.pairs = own.filterMap Record.pair? := by rw [h.onward.objects, ready.pairs]
  unfold Preparation.target
  by_cases hv : v = 0
  · exact .inl ⟨if_pos hv, hv⟩
  rw [if_neg hv, ObjectMap.sharedOf?, pairs]
  cases hfind : (own.filterMap Record.pair?).find? fun pair => pair.2 == v with
  | some pair =>
    obtain ⟨root, copy⟩ := pair
    obtain ⟨r, hr, hpair⟩ := List.mem_filterMap.1 (List.mem_of_find?_eq_some hfind)
    obtain ⟨hk, rfl⟩ := Record.pair?_eq_some.1 hpair
    have hcopy := List.find?_some hfind
    exact .inr (.inl ⟨r, hr, root, hk, by simpa using hcopy, rfl⟩)
  | none =>
    simp only [Option.map_none]
    by_cases hin : p.tx.nursery.contains v = true
    · rw [if_pos hin]
      obtain ⟨r, hr, rfl⟩ := aim (h.onward.nursery_contains ▸ hin)
      rcases ready.kinds r hr with hk | ⟨root, hk, -⟩
      · exact .inr (.inr (.inl ⟨r, hr, hk, rfl, rfl⟩))
      · have := List.find?_eq_none.1 hfind (root, r.addr)
          (List.mem_filterMap.2 ⟨r, hr, Record.pair?_eq_some.2 ⟨hk, rfl⟩⟩)
        simp at this
    · rw [if_neg hin]
      by_cases hsh : p.shared.contains v = true
      · rw [if_pos hsh]
        exact .inr (.inr (.inr (.inl ⟨rfl, by simpa using hin, hsh⟩)))
      · rw [if_neg hsh]
        refine .inr (.inr (.inr (.inr ⟨rfl, ?_⟩)))
        rintro (e | ⟨r, hr, rfl⟩ | known)
        · exact hv e
        · exact hin (h.onward.nursery_contains.trans (ready.nursery.contains hr))
        · exact hsh (h.onward.shared_contains known)

theorem Going.image_lt (ready : Ready layout own shared p₀) (h : Going layout own shared p₀ late g p)
    (hv : Image own g.moves p.Outside v v') : v' < wordLimit := by
  cases hv with
  | null => exact wordLimit_pos
  | root hr hk =>
    rcases ready.kinds _ hr with hk' | ⟨root, hk', lt⟩
    · rw [hk] at hk'
      cases hk'
    · rw [hk] at hk'
      cases hk'
      exact lt
  | twin hm =>
    obtain ⟨t, ht, rfl⟩ := Progress.mem_moves.1 hm
    have := h.shared.stop_lt (twin_mem ht)
    exact Nat.lt_of_le_of_lt (Nat.le_add_right _ _) this
  | shared hout =>
    have := (Arena.contains_iff.1 hout.2).2
    exact Nat.lt_trans this p.shared.freePointer_lt

/-- The header of a fresh object tells whether it was promoted, and to which twin. -/
theorem Going.header_fresh (h : Going layout own shared p₀ late g p) (hr : r ∈ own) (hk : r.kind = .fresh) :
    (∃ twin, (r, twin) ∈ g.moves ∧
      p.tx.nursery.header r.addr = .ok ((Header.new r.typeId 0).setVersion (.forwarded twin)) ∧ twin ≠ 0) ∨
    (∀ t, (r, t) ∉ g.twins) ∧ p.tx.nursery.header r.addr = .ok (.new r.typeId 0) := by
  have he := h.nursery.header_eq (List.mem_map_of_mem (f := g.own) hr)
  rw [(h.shape r hr).1] at he
  rcases h.fresh r hr hk with ⟨e, none⟩ | ⟨t, ht, e⟩
  · refine .inr ⟨none, ?_⟩
    rw [he, e, Record.header, hk]
  · refine .inl ⟨t.addr, Progress.mem_moves.2 ⟨t, ht, rfl⟩, ?_, ?_⟩
    · rw [he, e]
      rfl
    · have := h.shared.addr_pos (twin_mem ht)
      omega

theorem version_forwarded {typeId twin : Nat} (h : twin ≠ 0) :
    ((Header.new typeId 0).setVersion (.forwarded twin)).version = .forwarded twin :=
  Header.version_setVersion _ fun null => h (Option.some.inj null)

/-- A strong pointer is given its image; the object it points at is promoted for it if it must be. -/
theorem going_strongImage (ready : Ready layout own shared p₀) (h : Going layout own shared p₀ False g p)
    (aim : p₀.tx.nursery.contains v = true → ∃ r ∈ own, r.addr = v) (thread : Nat) (tracks : plan.Tracks own p₀ g p) :
    Ends (Prepare.strongImage layout thread v) p
      (fun v' q => ∃ g', Going layout own shared p₀ False g' q ∧ Image own g'.moves q.Outside v v' ∧
        (plan.meet own v).Tracks own p₀ g' q ∧
        (g' = g ∧ q = p ∨ ∃ r twin, r.addr = v ∧ g' = g.promote r (r.twinAt twin) ∧ g.Made p r twin q))
      fun f q => Prepare.Stuck thread (p₀.shared.reserve < Arena.backingLimit → p₀.Short (plan.meet own v).promoted)
        (fun x => x = v ∧ ¬ (v = 0 ∨ (∃ r ∈ own, r.addr = v) ∨ p₀.shared.contains v = true)) f ∧
        ∃ g', Going layout own shared p₀ False g' q := by
  -- where no fresh object is met, nothing changes
  have same : (∀ r ∈ own, r.kind = .fresh → r.addr = v → ∃ t, (r, t) ∈ g.twins) → (plan.meet own v).Tracks own p₀ g p := by
    intro met
    rw [tracks.meet_same met]
    exact tracks
  rw [Prepare.strongImage, ends_bind, ends_get]
  rcases h.target_cases ready aim with ⟨e, rfl⟩ | ⟨r, hr, root, hk, rfl, e⟩ | ⟨r, hr, hk, rfl, e⟩ | ⟨e, hout⟩ | ⟨e, hout⟩
  · rw [e]
    refine ⟨g, h, .null, same ?_, .inl ⟨rfl, rfl⟩⟩
    intro r hr _ e
    exact absurd e (Nat.pos_iff_ne_zero.1 (ready.nursery.addr_pos hr))
  · rw [e]
    refine ⟨g, h, .root hr hk, same ?_, .inl ⟨rfl, rfl⟩⟩
    intro x hx hkx e
    rw [Going.own_unique ready hx hr e, hk] at hkx
    cases hkx
  · rw [e]
    show Ends (get >>= _) p _ _
    rw [ends_bind, ends_get, ends_bind]
    rcases h.header_fresh hr hk with ⟨twin, hm, hh, hne⟩ | ⟨hn, hh⟩
    · refine ends_ofAttempt_ok hh ?_
      rw [version_forwarded hne]
      refine ⟨g, h, .twin hm, same ?_, .inl ⟨rfl, rfl⟩⟩
      intro x hx _ e
      obtain ⟨t, ht, -⟩ := Progress.mem_moves.1 hm
      exact ⟨t, Going.own_unique ready hr hx e.symm ▸ ht⟩
    · refine ends_ofAttempt_ok hh ?_
      have header : r.header = .new r.typeId 0 := by rw [Record.header, hk]
      rw [← header]
      have version : r.header.version = .empty := by rw [header]; rfl
      rw [version]
      refine (going_makeTwin ready h hr hk hn thread).mono ?_ ?_
      · intro twin q hq
        obtain ⟨hq, made⟩ := hq
        refine ⟨_, hq, .twin ?_, tracks.promote ready hr hk hn made, .inr ⟨r, twin, rfl, rfl, made⟩⟩
        rw [Progress.promote_moves]
        exact List.mem_append_right _ (List.mem_singleton_self _)
      · intro f q hf
        obtain ⟨stuck, hq⟩ := hf
        refine ⟨stuck.mono ?_ fun _ => False.elim, g, hq⟩
        intro noRoom backed
        obtain ⟨_, err⟩ := noRoom
        exact tracks.short ready h hr hk hn backed err
  · rw [e]
    refine ⟨g, h, .shared hout, same ?_, .inl ⟨rfl, rfl⟩⟩
    intro r hr _ e
    have inside := ready.nursery.contains hr
    rw [← h.onward.nursery_contains, e, hout.1] at inside
    cases inside
  · rw [e]
    exact ⟨.foreign _ ⟨rfl, hout⟩, g, h⟩

/-! ## The worklist -/

/-- Where the worklist stands while `current` is visited. -/
structure Working (layout : Layout) (own : List Record) (current : Option Item) (g : Progress) (p : Preparation) :
    Prop where
  /-- Only what can be reached is promoted. -/
  live : ∀ r twin, (r, twin) ∈ g.moves → Reaches layout own Record.word r.addr
  pending : ∀ item ∈ p.pending, (∃ r, g.Works own item r) ∧ g.done item = []
  nodup : p.pending.Nodup
  busy : ∀ item, current = some item → (∃ r, g.Works own item r) ∧ item ∉ p.pending
  finished : ∀ item r, g.Works own item r →
    item ∈ p.pending ∨ current = some item ∨ g.done item = layout.pointers r.typeId
  holders : ∀ item r, g.Works own item r →
    (item ∈ p.weakHolders ↔ item ∉ p.pending ∧ (layout.weak? r.typeId).isSome = true)
  known : ∀ item ∈ p.weakHolders, ∃ r, g.Works own item r
  once : p.weakHolders.Nodup

namespace Working

variable {current : Option Item} {twin offset : Nat}

/-- A twin was made, and waits in front. -/
theorem promote (w : Working layout own current g p) (live : Reaches layout own Record.word r.addr)
    (distinct : ∀ x ∈ g.moves, x.2 ≠ twin) (hp : q.pending = .twin twin :: p.pending)
    (hw : q.weakHolders = p.weakHolders) : Working layout own current (g.promote r (r.twinAt twin)) q := by
  have works : ∀ {item r'}, (g.promote r (r.twinAt twin)).Works own item r' ↔
      g.Works own item r' ∨ item = .twin twin ∧ r' = r := Progress.works_promote
  have old : ∀ {item r'}, g.Works own item r' → item ≠ .twin twin := fun hi => hi.ne_twin distinct
  have done : ∀ {item r'}, g.Works own item r' → (g.promote r (r.twinAt twin)).done item = g.done item :=
    fun hi => Progress.promote_done_of_ne (old hi)
  have new : ∀ item ∈ p.pending, item ≠ .twin twin := fun item hi => by
    obtain ⟨⟨r', hr'⟩, -⟩ := w.pending item hi
    exact old hr'
  refine ⟨?_, ?_, ?_, ?_, ?_, ?_, ?_, by rw [hw]; exact w.once⟩
  · intro r' a hm
    rw [Progress.promote_moves] at hm
    rcases List.mem_append.mp hm with hm | hm
    · exact w.live r' a hm
    · cases List.mem_singleton.mp hm
      exact live
  · intro item hi
    rw [hp] at hi
    rcases List.mem_cons.mp hi with rfl | hi
    · exact ⟨⟨r, works.2 (.inr ⟨rfl, rfl⟩)⟩, Progress.promote_done_self g r (r.twinAt twin)⟩
    · obtain ⟨⟨r', hr'⟩, hd⟩ := w.pending item hi
      exact ⟨⟨r', works.2 (.inl hr')⟩, (done hr').trans hd⟩
  · rw [hp]
    exact List.nodup_cons.mpr ⟨fun hi => new _ hi rfl, w.nodup⟩
  · intro item hi
    obtain ⟨⟨r', hr'⟩, hn⟩ := w.busy item hi
    rw [hp]
    exact ⟨⟨r', works.2 (.inl hr')⟩, fun hc => (List.mem_cons.mp hc).elim (old hr') hn⟩
  · intro item r' hi
    rw [hp]
    rcases works.1 hi with hi | ⟨rfl, -⟩
    · rcases w.finished item r' hi with hf | hf | hf
      · exact .inl (List.mem_cons_of_mem _ hf)
      · exact .inr (.inl hf)
      · exact .inr (.inr ((done hi).trans hf))
    · exact .inl List.mem_cons_self
  · intro item r' hi
    rw [hp, hw]
    rcases works.1 hi with hi | ⟨rfl, rfl⟩
    · rw [w.holders item r' hi, List.mem_cons, not_or]
      exact ⟨fun h => ⟨⟨old hi, h.1⟩, h.2⟩, fun h => ⟨h.1.2, h.2⟩⟩
    · refine ⟨?_, fun h => absurd List.mem_cons_self h.1⟩
      intro h
      obtain ⟨r'', hr''⟩ := w.known _ h
      exact absurd rfl (old hr'')
  · intro item hi
    rw [hw] at hi
    obtain ⟨r', hr'⟩ := w.known item hi
    exact ⟨r', works.2 (.inl hr')⟩

/-- A field of the current item was done. -/
theorem finish {g' : Progress} (w : Working layout own (some item) g p) (moves : g'.moves = g.moves)
    (hd : g'.done = (g.finish item offset).done) (hp : q.pending = p.pending) (hw : q.weakHolders = p.weakHolders) :
    Working layout own (some item) g' q := by
  have works : ∀ {i r'}, g'.Works own i r' ↔ g.Works own i r' := Progress.works_of_moves moves
  have done : ∀ {i}, i ≠ item → g'.done i = g.done i := fun ne => by rw [hd, Progress.finish_done_of_ne ne]
  refine ⟨fun r' a hm => w.live r' a (moves ▸ hm), ?_, by rw [hp]; exact w.nodup, ?_, ?_, ?_, ?_,
    by rw [hw]; exact w.once⟩
  · intro i hi
    rw [hp] at hi
    obtain ⟨⟨r', hr'⟩, hd⟩ := w.pending i hi
    have ne : i ≠ item := fun e => (w.busy item rfl).2 (e ▸ hi)
    exact ⟨⟨r', works.2 hr'⟩, (done ne).trans hd⟩
  · intro i hi
    obtain ⟨⟨r', hr'⟩, hn⟩ := w.busy i hi
    exact ⟨⟨r', works.2 hr'⟩, by rw [hp]; exact hn⟩
  · intro i r' hi
    rw [hp]
    by_cases e : i = item
    · exact .inr (.inl (by rw [e]))
    · rw [done e]
      exact w.finished i r' (works.1 hi)
  · intro i r' hi
    rw [hp, hw]
    exact w.holders i r' (works.1 hi)
  · intro i hi
    rw [hw] at hi
    obtain ⟨r', hr'⟩ := w.known i hi
    exact ⟨r', works.2 hr'⟩

/-- The next item is taken to be visited, and held back if it has a weak field. -/
theorem pop {rest : List Item} (w : Working layout own none g p) (hp : p.pending = item :: rest)
    (hs : g.Works own item r) (unique : ∀ r', g.Works own item r' → r' = r) (hq : q.pending = rest)
    (hw : q.weakHolders = if (layout.weak? r.typeId).isSome = true then p.weakHolders ++ [item] else p.weakHolders) :
    Working layout own (some item) g q := by
  have nodup := w.nodup
  rw [hp, List.nodup_cons] at nodup
  have waiting : item ∈ p.pending := by rw [hp]; exact List.mem_cons_self
  have unheld : item ∉ p.weakHolders := fun h => ((w.holders item r hs).1 h).1 waiting
  have held : ∀ i, i ∈ q.weakHolders ↔ i ∈ p.weakHolders ∨ i = item ∧ (layout.weak? r.typeId).isSome = true := by
    intro i
    rw [hw]
    split
    · rename_i hweak
      rw [List.mem_append, List.mem_singleton]
      exact or_congr_right ⟨fun h => ⟨h, hweak⟩, fun h => h.1⟩
    · rename_i hweak
      exact ⟨.inl, fun h => h.elim id fun h => absurd h.2 hweak⟩
  refine ⟨w.live, ?_, by rw [hq]; exact nodup.2, ?_, ?_, ?_, ?_, ?_⟩
  · intro i hi
    rw [hq] at hi
    exact w.pending i (by rw [hp]; exact List.mem_cons_of_mem _ hi)
  · intro i hi
    cases hi
    rw [hq]
    exact ⟨⟨r, hs⟩, nodup.1⟩
  · intro i r' hi
    rw [hq]
    rcases w.finished i r' hi with h | h | h
    · rw [hp] at h
      rcases List.mem_cons.mp h with rfl | h
      · exact .inr (.inl rfl)
      · exact .inl h
    · cases h
    · exact .inr (.inr h)
  · intro i r' hi
    rw [held, hq, w.holders i r' hi, hp, List.mem_cons, not_or]
    by_cases e : i = item
    · subst e
      rw [unique r' hi]
      exact ⟨fun h => ⟨nodup.1, h.elim And.right And.right⟩, fun h => .inr ⟨rfl, h.2⟩⟩
    · exact ⟨fun h => h.elim (fun h => ⟨h.1.2, h.2⟩) fun h => absurd h.1 e, fun h => .inl ⟨⟨e, h.1⟩, h.2⟩⟩
  · intro i hi
    rcases (held i).1 hi with h | ⟨rfl, -⟩
    · exact w.known i h
    · exact ⟨r, hs⟩
  · rw [hw]
    split
    · refine List.nodup_append.mpr ⟨w.once, List.pairwise_singleton _ _, fun x hx y hy e => unheld ?_⟩
      rw [← List.mem_singleton.mp hy, ← e]
      exact hx
    · exact w.once

/-- The visit is over when all strong pointers of the item are done. -/
theorem close (w : Working layout own (some item) g p)
    (all : ∀ r, g.Works own item r → g.done item = layout.pointers r.typeId) : Working layout own none g p :=
  { w with
    busy := nofun
    finished := fun i r hi => by
      rcases w.finished i r hi with h | h | h
      · exact .inl h
      · cases h
        exact .inr (.inr (all r hi))
      · exact .inr (.inr h) }

end Working

/-! ## Visits -/

/-- Fields that are still to be done hold the word that was found in them. -/
theorem Going.read_waiting {offset : Nat} (ready : Ready layout own shared p₀)
    (h : Going layout own shared p₀ late g p) (hs : g.Works own item r) (ho : offset ∈ layout.fields r.typeId)
    (hd : offset ∉ g.done item) : Prepare.readField item offset p = .ok (wordAt r.content offset) p := by
  obtain ⟨r', hs⟩ := hs
  rw [h.readField_eq ready hs ho, (h.bodies item r r' hs).2.waiting offset ho hd]

theorem Working.reaches {current : Option Item} {offset : Nat} (w : Working layout own current g p)
    (hr : r ∈ own) (hs : g.Works own item r) (ho : offset ∈ layout.pointers r.typeId) :
    Reaches layout own Record.word (wordAt r.content offset) := by
  rcases Progress.works_iff.1 hs with ⟨hr, ⟨root, hk⟩, -⟩ | ⟨twin, hm, -⟩
  · exact .root hr hk ho
  · exact .step (w.live r twin hm) hr ho

theorem Going.works_mem (h : Going layout own shared p₀ late g p) (hs : g.Works own item r) : r ∈ own := by
  obtain ⟨r', hs⟩ := hs
  exact (h.stands_shape hs).1

/-- Items are for live objects. -/
theorem Working.alive {current : Option Item} (w : Working layout own current g p) (hs : g.Works own item r) :
    r.Live layout own := by
  rcases Progress.works_iff.1 hs with ⟨-, copy, -⟩ | ⟨twin, hm, -⟩
  · exact .inl copy
  · exact .inr (w.live r twin hm)

/-- One strong pointer of the item being visited is replaced. -/
theorem going_replaceStrong {offset : Nat} (ready : Ready layout own shared p₀) (thread : Nat)
    (h : Going layout own shared p₀ False g p) (w : Working layout own (some item) g p) (tracks : plan.Tracks own p₀ g p)
    (hs : g.Works own item r) (ho : offset ∈ layout.pointers r.typeId) (hd : offset ∉ g.done item) :
    Ends (Prepare.replaceField item (Prepare.strongImage layout thread) offset) p
      (fun _ q => ∃ g', Going layout own shared p₀ False g' q ∧ Working layout own (some item) g' q ∧
        (plan.meet own (r.word offset)).Tracks own p₀ g' q ∧ g'.Works own item r ∧
        g'.done item = g.done item ++ [offset])
      fun f q => Prepare.Stuck thread
        (p₀.shared.reserve < Arena.backingLimit → p₀.Short (plan.meet own (r.word offset)).promoted) (p₀.Stray layout own) f ∧
        ∃ g', Going layout own shared p₀ False g' q := by
  have field : offset ∈ layout.fields r.typeId := List.mem_append_left _ ho
  have mem := h.works_mem hs
  rw [Prepare.replaceField, ends_bind]
  refine ends_of_ok (h.read_waiting ready hs field hd) ?_
  rw [ends_bind]
  refine (going_strongImage ready h (ready.aim r mem offset field) thread tracks).mono ?_
    fun _ _ hf => ⟨hf.1.mono id ?_, hf.2⟩
  rotate_left
  · rintro _ ⟨rfl, unknown⟩
    exact ⟨⟨r, mem, w.alive hs, offset, field, rfl⟩, unknown⟩
  intro v' q hq
  obtain ⟨g₁, h₁, image, tracks₁, step⟩ := hq
  -- the object that the pointer leads to may have been promoted for it
  have ⟨w₁, hs₁, done₁⟩ : Working layout own (some item) g₁ q ∧ g₁.Works own item r ∧ g₁.done item = g.done item := by
    rcases step with ⟨rfl, rfl⟩ | ⟨x, twin, hx, rfl, made⟩
    · exact ⟨w, hs, rfl⟩
    · exact ⟨w.promote (hx ▸ w.reaches mem hs ho) made.distinct made.pending made.holders,
        Progress.works_promote.2 (.inl hs), Progress.promote_done_of_ne (hs.ne_twin made.distinct)⟩
  have becomes : g₁.Becomes layout own False q r.typeId offset (wordAt r.content offset) v' := .inl ⟨ho, image⟩
  refine (going_store ready h₁ hs₁ field (by rw [done₁]; exact hd) (h₁.image_lt ready image) becomes).mono
    ?_ fun _ _ hf => hf
  intro _ q' hq'
  obtain ⟨g₂, h₂, moves, done, still⟩ := hq'
  refine ⟨g₂, h₂, w₁.finish moves done still.pending still.weakHolders, tracks₁.of_nothingPromoted moves still,
    (Progress.works_of_moves moves).2 hs₁, ?_⟩
  rw [done, Progress.finish_done_self, done₁]

/-- The item of an object that waits is taken, and held back if the object has a weak field. -/
theorem Plan.Tracks.hold {i : Item} {rest : List Item} {x : Record} {waiting : List Record}
    (tracks : plan.Tracks own p₀ g p) (hp : p.pending = i :: rest) (hpending : plan.pending = x :: waiting)
    (shared_eq : q.shared = p.shared) (buffer_eq : q.buffer = p.buffer) (report_eq : q.report = p.report)
    (pending_eq : q.pending = rest)
    (holders_eq : q.weakHolders = if (layout.weak? x.typeId).isSome = true then p.weakHolders ++ [i] else p.weakHolders) :
    (({ plan with pending := waiting } : Plan).hold layout x).Tracks own p₀ g q := by
  have waits := tracks.pending
  rw [hp, hpending, List.forall₂_cons] at waits
  obtain ⟨works, waits⟩ := waits
  rw [Plan.hold]
  split
  · rename_i weak
    rw [if_pos weak] at holders_eq
    refine ⟨tracks.moves, buffer_eq ▸ tracks.buffer, by rw [shared_eq]; exact tracks.free, pending_eq ▸ waits, ?_,
      report_eq.trans tracks.report⟩
    rw [holders_eq]
    exact List.rel_append tracks.holders (.cons works .nil)
  · rename_i weak
    rw [if_neg weak] at holders_eq
    exact ⟨tracks.moves, buffer_eq ▸ tracks.buffer, by rw [shared_eq]; exact tracks.free, pending_eq ▸ waits,
      holders_eq ▸ tracks.holders, report_eq.trans tracks.report⟩

/-- A visit to the next item that waits. -/
theorem going_visit {rest : List Item} (ready : Ready layout own shared p₀) (thread : Nat)
    (h : Going layout own shared p₀ False g p) (w : Working layout own none g p) (tracks : plan.Tracks own p₀ g p)
    (hp : p.pending = item :: rest) :
    ∃ plan', plan.Next layout own plan' ∧ Ends (Prepare.visit layout thread item) { p with pending := rest }
      (fun _ q => ∃ g', Going layout own shared p₀ False g' q ∧ Working layout own none g' q ∧ plan'.Tracks own p₀ g' q)
      fun f q => Prepare.Stuck thread (p₀.shared.reserve < Arena.backingLimit → p₀.Short plan'.promoted)
        (p₀.Stray layout own) f ∧ ∃ g', Going layout own shared p₀ False g' q := by
  obtain ⟨r, waiting, hs', -, hpending⟩ := List.forall₂_cons_left_iff.1 (hp ▸ tracks.pending)
  refine ⟨_, ⟨r, waiting, hpending, rfl⟩, ?_⟩
  have hdone := (w.pending item (by rw [hp]; exact List.mem_cons_self)).2
  obtain ⟨r', hs⟩ := hs'
  have popped : Going layout own shared p₀ False g { p with pending := rest } :=
    h.of_same rfl rfl rfl rfl ⟨rfl, rfl⟩ ⟨rfl, rfl⟩
  have typeId : r'.header.typeId = r.typeId := (Record.header_typeId r').trans (h.stands_shape hs).2.1
  rw [Prepare.visit, ends_bind]
  refine ends_of_ok (popped.headerOf_eq hs) ?_
  dsimp only
  rw [typeId, ends_bind, ends_modify]
  -- the item leaves the worklist and is held back for its weak field
  generalize hq : (if (layout.weak? r.typeId).isSome = true then _ else _ : Preparation) = q
  have same : q.shared = p.shared ∧ q.tokens = p.tokens ∧ q.tx = p.tx ∧ q.buffer = p.buffer ∧ q.report = p.report ∧
      q.pending = rest ∧ q.weakHolders = if (layout.weak? r.typeId).isSome = true then p.weakHolders ++ [item] else p.weakHolders := by
    subst hq
    split <;> exact ⟨rfl, rfl, rfl, rfl, rfl, rfl, rfl⟩
  obtain ⟨shared_eq, tokens_eq, tx_eq, buffer_eq, report_eq, pending_eq, holders_eq⟩ := same
  have unique : ∀ {g'} {q : Preparation}, Going layout own shared p₀ False g' q → g'.Works own item r →
      ∀ r₁, g'.Works own item r₁ → r₁ = r := fun h' ⟨_, hs'⟩ r₁ ⟨_, hs₁⟩ => (h'.stands_unique ready hs₁ hs').1
  have start : Going layout own shared p₀ False g q :=
    h.of_same shared_eq (by rw [tx_eq]) (by rw [tx_eq]) buffer_eq ⟨tokens_eq, by rw [tx_eq]⟩
      (by rw [report_eq]; exact ⟨rfl, rfl⟩)
  have busy := w.pop hp ⟨r', hs⟩ (unique h ⟨r', hs⟩) pending_eq holders_eq
  have held := tracks.hold hp hpending shared_eq buffer_eq report_eq pending_eq holders_eq
  have distinct : (layout.pointers r.typeId).Nodup := (List.nodup_append.mp (ready.sound.fields_nodup r.typeId)).1
  rw [Plan.visit]
  generalize hgoal : List.foldl _ _ _ = goal
  refine (ends_forM (fun left q => ∃ g' plan', Going layout own shared p₀ False g' q ∧
      Working layout own (some item) g' q ∧ plan'.Tracks own p₀ g' q ∧ g'.Works own item r ∧
      g'.done item ++ left = layout.pointers r.typeId ∧
      left.foldl (fun plan offset => plan.meet own (r.word offset)) plan' = goal) ?_ _ q
      ⟨g, _, start, busy, held, ⟨r', hs⟩, by rw [hdone, List.nil_append], hgoal⟩).mono ?_ fun _ _ hf => hf
  · intro offset left q hq
    obtain ⟨g', plan', h', w', tracks', hs', hleft, hplan⟩ := hq
    have ho : offset ∈ layout.pointers r.typeId := by
      rw [← hleft]
      exact List.mem_append_right _ List.mem_cons_self
    have hd : offset ∉ g'.done item := fun hd => by
      rw [← hleft] at distinct
      exact (List.nodup_append.mp distinct).2.2 offset hd offset List.mem_cons_self rfl
    refine (going_replaceStrong ready thread h' w' tracks' hs' ho hd).mono ?_ ?_
    · intro _ q' hq'
      obtain ⟨g'', h'', w'', tracks'', hs'', hdone''⟩ := hq'
      exact ⟨g'', _, h'', w'', tracks'', hs'', by rw [hdone'', List.append_assoc]; exact hleft, hplan⟩
    · intro f q' hf
      refine ⟨hf.1.mono (fun short backed => (short backed).mono ?_) fun _ => id, hf.2⟩
      rw [← hplan]
      exact Plan.promoted_foldl own r left _
  · intro _ q hq
    obtain ⟨g', plan', h', w', tracks', hs', hleft, hplan⟩ := hq
    refine ⟨g', h', w'.close ?_, hplan ▸ tracks'⟩
    intro r₁ hs₁
    rw [unique h' hs' r₁ hs₁, ← hleft, List.append_nil]

/-- Every preparation that empties its worklist has done all strong pointers. -/
theorem going_drain (ready : Ready layout own shared p₀) (thread : Nat) (h : Going layout own shared p₀ False g p)
    (w : Working layout own none g p) (under : plan.Under layout own) (tracks : plan.Tracks own p₀ g p) :
    Ends (Prepare.drain layout thread) p
      (fun _ q => ∃ (g' : Progress) (plan' : Plan), Going layout own shared p₀ False g' q ∧
        Working layout own none g' q ∧ q.pending = [] ∧ plan'.Drained layout own ∧ plan'.Tracks own p₀ g' q)
      fun f q => Prepare.Stuck thread (p₀.LacksRoom layout own) (p₀.Stray layout own) f ∧
        ∃ g', Going layout own shared p₀ False g' q := by
  refine (Prepare.ends_drain
    (I := fun q => ∃ (g' : Progress) (plan' : Plan), Going layout own shared p₀ False g' q ∧
      Working layout own none g' q ∧ plan'.Under layout own ∧ plan'.Tracks own p₀ g' q)
    ?_ p ⟨g, plan, h, w, under, tracks⟩).mono ?_ fun _ _ hf => hf
  · intro q item rest hq hp
    obtain ⟨g', plan', h', w', under', tracks'⟩ := hq
    obtain ⟨plan'', next, visit⟩ := going_visit ready thread h' w' tracks' hp
    have under'' : plan''.Under layout own := under'.tail next
    refine visit.mono ?_ ?_
    · intro _ q' hq'
      obtain ⟨g'', h'', w'', tracks''⟩ := hq'
      exact ⟨g'', plan'', h'', w'', under'', tracks''⟩
    · intro f q' hf
      exact ⟨hf.1.mono (fun short => ⟨plan'', under'', short⟩) fun _ => id, hf.2⟩
  · intro _ q hq
    obtain ⟨⟨g', plan', h', w', under', tracks'⟩, hp⟩ := hq
    have waits := tracks'.pending
    rw [hp, List.forall₂_nil_left_iff] at waits
    exact ⟨g', plan', h', w', hp, ⟨under', waits⟩, tracks'⟩

/-! ## When nothing waits -/

/-- What a finished worklist leaves of an item. -/
theorem Working.all_done (w : Working layout own none g p) (hp : p.pending = []) (hs : g.Works own item r) :
    g.done item = layout.pointers r.typeId := by
  rcases w.finished item r hs with h | h | h
  · rw [hp] at h
    cases h
  · cases h
  · exact h

/-- Exactly the fresh objects that can be reached from the working copies are promoted. -/
theorem Working.promoted_iff (ready : Ready layout own shared p₀) (h : Going layout own shared p₀ False g p)
    (w : Working layout own none g p) (hp : p.pending = []) (hr : r ∈ own) (hk : r.kind = .fresh) :
    (∃ twin, (r, twin) ∈ g.moves) ↔ Reaches layout own Record.word r.addr := by
  -- the target of a field that is done is promoted, or it is not a fresh object
  have pointed : ∀ {item x offset}, g.Works own item x → offset ∈ layout.pointers x.typeId →
      ∀ y ∈ own, y.kind = .fresh → y.addr = wordAt x.content offset → ∃ twin, (y, twin) ∈ g.moves := by
    intro item x offset hx ho y hy hky e
    obtain ⟨x', hx'⟩ := hx
    have hd := (h.bodies item x x' hx').2.replaced offset (by rw [w.all_done hp ⟨x', hx'⟩]; exact ho)
    rcases hd with ⟨-, image⟩ | ⟨-, hf, -⟩
    · rw [← e] at image
      generalize ha : y.addr = a at image
      generalize wordAt x'.content offset = v' at image
      cases image with
      | null => exact absurd ha (Nat.pos_iff_ne_zero.1 (ready.nursery.addr_pos hy))
      | root hx hkx =>
        rw [Going.own_unique ready hy hx ha, hkx] at hky
        cases hky
      | twin hm =>
        rw [Going.own_unique ready hy (h.works_mem (Progress.works_iff.2 (.inr ⟨_, hm, rfl⟩))) ha]
        exact ⟨_, hm⟩
      | shared hout =>
        have := ready.nursery.contains hy
        rw [← h.onward.nursery_contains, ha, hout.1] at this
        cases this
    · exact hf.elim
  refine ⟨fun ⟨twin, hm⟩ => w.live r twin hm, ?_⟩
  intro hreach
  have all : ∀ a, Reaches layout own Record.word a → ∀ y ∈ own, y.kind = .fresh → y.addr = a → ∃ twin, (y, twin) ∈ g.moves := by
    intro a ha
    induction ha with
    | root hx hk ho => exact pointed (Progress.works_iff.2 (.inl ⟨hx, ⟨_, hk⟩, rfl⟩)) ho
    | @step x offset _ hx ho ih =>
      rcases ready.kinds x hx with hkx | ⟨root, hkx, -⟩
      · obtain ⟨twin, hm⟩ := ih x hx hkx rfl
        exact pointed (Progress.works_iff.2 (.inr ⟨twin, hm, rfl⟩)) ho
      · exact pointed (Progress.works_iff.2 (.inl ⟨hx, ⟨root, hkx⟩, rfl⟩)) ho
  exact all r.addr hreach r hr hk rfl

end TxHeap

/-
  TxHeap.Proofs.Promotion — an object becomes a twin.

  A fresh object is promoted into room that nobody has a part of (`Going.room`): its twin is
  a byte for byte copy under a header of its own, and the object is left with the address of
  the twin in its version slot (`going_makeTwin`).
-/
import TxHeap.Proofs.Progress

namespace TxHeap

variable {layout : Layout} {own shared : List Record} {p₀ p q : Preparation} {late : Prop} {g : Progress}
  {item : Item} {r t : Record} {size twin : Nat}

def Record.twinAt (r : Record) (twin : Nat) : Record where
  addr := twin
  typeId := r.typeId
  size := r.size
  kind := .shared true false
  initial := r.content
  stores := []

/-- Room for a twin, in the arena `b` with the buffer `c`. -/
structure Going.Room (p₀ p : Preparation) (records : List Record) (size twin : Nat) (b : Arena) (c : TwinBuffer) :
    Prop where
  start : b.start = p.shared.start
  reserve : b.reserve = p.shared.reserve
  chunkSize : b.chunkSize = p.shared.chunkSize
  used : p.shared.used ≤ b.used
  memory : b.memory = p.shared.memory
  above : p₀.shared.freePointer ≤ twin
  free : ∀ x ∈ records, x.stop ≤ twin
  cursor : c.cursor = twin + size
  limit : c.cursor ≤ c.limit
  inside : c.limit ≤ b.freePointer

/-- Why a preparation fails: there is no room for a twin, or a pointer leads to nobody's memory; `short` and `stray` say more. -/
inductive Prepare.Stuck (thread : Nat) (short : Prop) (stray : Nat → Prop) : Failure → Prop
  | noRoom (requested available : Nat) : short → Stuck thread short stray (.refused (.outOfSpace requested available))
  | foreign (value : Nat) : stray value → Stuck thread short stray (.refused (.foreignAddress value thread))

namespace Prepare.Stuck

variable {thread : Nat} {short short' : Prop} {stray stray' : Nat → Prop} {f : Failure}

theorem refused (h : Stuck thread short stray f) : ∃ cause, f = .refused cause := by
  cases h <;> exact ⟨_, rfl⟩

theorem mono (h : Stuck thread short stray f) (hshort : short → short') (hstray : ∀ v, stray v → stray' v) :
    Stuck thread short' stray' f := by
  cases h with
  | noRoom requested available h => exact .noRoom requested available (hshort h)
  | foreign v h => exact .foreign v (hstray v h)

end Prepare.Stuck

/-- A buffer that has no chunk takes one, so that a request fails only where the shared heap has no room. -/
theorem Going.allocate_refused {f : Failure} (ready : Ready layout own shared p₀)
    (h : Going layout own shared p₀ late g p) (hsize : 0 < size) (ha : p.buffer.allocate p.shared size = .error f) :
    ∃ requested available, f = .refused (.outOfSpace requested available) := by
  have free : p.buffer.cursor = 0 → p.buffer.free < size := by
    intro hc
    rcases h.buffer with ⟨-, hl⟩ | ⟨above, -⟩
    · rw [TwinBuffer.free, hc, hl]
      exact hsize
    · have := p₀.shared.start_pos
      rw [Arena.freePointer] at above
      omega
  rw [TwinBuffer.allocate, TwinBuffer.makeRoom] at ha
  split at ha
  · cases hr : p.shared.allocate (max size p.buffer.pageSize) with
    | error f' =>
      rw [TwinBuffer.refill, hr] at ha
      cases ha
      exact Arena.allocate_refused (h.onward.roomy ready.roomy) hr
    | ok taken =>
      obtain ⟨start, b⟩ := taken
      rw [TwinBuffer.refill, hr] at ha
      -- a chunk never starts at null
      obtain ⟨rfl, -⟩ := Arena.grew_of_allocate hr
      have := p.shared.start_pos
      have ne : p.shared.freePointer ≠ 0 := by
        rw [Arena.freePointer]
        omega
      simp only [bind, Except.bind, pure, Except.pure, Attempt.demand, require, if_pos ne] at ha
      cases ha
  · rename_i hfree
    have ne : p.buffer.cursor ≠ 0 := fun hc => hfree (free hc)
    simp only [bind, Except.bind, Attempt.demand, require, if_pos ne] at ha
    cases ha

theorem Going.room {b : Arena} {c : TwinBuffer} (ready : Ready layout own shared p₀)
    (h : Going layout own shared p₀ late g p) (ha : p.buffer.allocate p.shared size = .ok (twin, c, b)) :
    Room p₀ p (shared ++ g.twins.map Prod.snd) size twin b c := by
  obtain ⟨hcursor, ⟨hroom, hne, rfl, hlimit, -, rfl⟩ | ⟨chunk, hchunk, grew, rfl, hlimit, -⟩⟩ :=
    TwinBuffer.allocate_cases ha
  · obtain ⟨hzero, -⟩ | ⟨habove, hle, hin⟩ := h.buffer
    · exact absurd hzero hne
    refine ⟨rfl, rfl, rfl, Nat.le_refl _, rfl, habove, ?_, hcursor, by omega, by omega⟩
    intro x hx
    rcases List.mem_append.mp hx with hx | hx
    · exact Nat.le_trans (ready.keeps.inside x hx).2 habove
    · obtain ⟨⟨x₁, x₂⟩, hy, rfl⟩ := List.mem_map.1 hx
      exact (h.above x₁ x₂ hy).2
  · have hfree := grew.freePointer
    exact ⟨grew.start, grew.reserve, grew.chunkSize, by rw [grew.used]; omega, grew.memory, h.onward.freePointer_le,
      fun x hx => (h.shared.inside x hx).2, hcursor, by omega, by omega⟩

/-- Taking room moves no object. -/
theorem Going.shared_room {b : Arena} {c : TwinBuffer} {records : List Record}
    (h : Going layout own shared p₀ late g p) (room : Room p₀ p records size twin b c) :
    b.Keeps layout (shared ++ g.twins.map Prod.snd) where
  sized := h.shared.sized
  inside x hx := by
    have := h.shared.inside x hx
    have := room.used
    rw [Arena.freePointer] at *
    rw [room.start]
    omega
  apart := h.shared.apart
  header x hx := by rw [room.memory, h.shared.header x hx]
  body x hx := by rw [room.memory, h.shared.body x hx]

/-- No twin lies in the room for another. -/
theorem Going.room_distinct {b : Arena} {c : TwinBuffer} (h : Going layout own shared p₀ late g p)
    (room : Room p₀ p (shared ++ g.twins.map Prod.snd) size twin b c) : ∀ x ∈ g.moves, x.2 ≠ twin := by
  intro x hx e
  obtain ⟨t, ht, addr⟩ := Progress.mem_moves.1 hx
  have := room.free t (twin_mem ht)
  have := h.shared.headerSize_le (twin_mem ht)
  simp only [Record.stop, headerSize, wordSize] at *
  omega

/-! ## The progress of a promotion -/

theorem Progress.mem_promote_twins {x y : Record} :
    (x, y) ∈ (g.promote r t).twins ↔ (x, y) ∈ g.twins ∨ x = r ∧ y = t := by
  simp only [promote, List.mem_append, List.mem_singleton, Prod.mk.injEq]

theorem Progress.promote_own_self : (g.promote r t).own r = { r with kind := .moved t.addr } := if_pos rfl

theorem Progress.promote_own_of_ne {x : Record} (ne : x ≠ r) : (g.promote r t).own x = g.own x := if_neg ne

/-- An object that has no twin is as it was. -/
theorem Going.own_eq (h : Going layout own shared p₀ late g p) (hr : r ∈ own) (hk : r.kind = .fresh)
    (hn : ∀ t, (r, t) ∉ g.twins) : g.own r = r := by
  rcases h.fresh r hr hk with ⟨e, -⟩ | ⟨t, ht, -⟩
  · exact e
  · exact absurd ht (hn t)

/-- A promotion changes one private object. -/
theorem Going.map_promote_own (ready : Ready layout own shared p₀) (h : Going layout own shared p₀ late g p)
    (hr : r ∈ own) (hk : r.kind = .fresh) (hn : ∀ t, (r, t) ∉ g.twins) :
    own.map (g.promote r t).own = amend (own.map g.own) r.addr fun x => { x with kind := .moved t.addr } := by
  rw [amend, List.map_map]
  refine List.map_congr_left ?_
  intro x hx
  simp only [Function.comp_apply, (h.shape x hx).1]
  by_cases e : x = r
  · subst e
    rw [Progress.promote_own_self, h.own_eq hr hk hn, if_pos rfl]
  · rw [Progress.promote_own_of_ne e, if_neg fun e' => e (own_unique ready hx hr e')]

/-- What a promotion leaves, with the twin in the room `b` and `c`. -/
structure Going.Promoted (p q : Preparation) (r : Record) (twin : Nat) (b : Arena) (c : TwinBuffer) (m m' : Memory) :
    Prop where
  shared : q.shared = { b with memory := m' }
  nursery : q.tx.nursery = { p.tx.nursery with memory := m }
  objects : q.tx.objects = p.tx.objects
  buffer : q.buffer = c
  count : q.report.promoted = p.report.promoted + 1
  bytes : q.report.bytesPromoted = p.report.bytesPromoted + r.size
  tokens : ∀ a, q.tokens.get? a = if a = twin then (p.tx.tokens.get? r.addr).or (p.tokens.get? a) else p.tokens.get? a
  ownTokens : ∀ a, q.tx.tokens.get? a = if a = r.addr then none else p.tx.tokens.get? a
  /-- Only the bytes of the twin are written. -/
  out : ∀ i, i < twin ∨ twin + r.size ≤ i → m'.get i = p.shared.memory.get i

section

variable {records : List Record} {b : Arena} {c : TwinBuffer} {m m' : Memory}

theorem Going.Promoted.onward (h : Promoted p q r twin b c m m') (room : Room p₀ p records r.size twin b c) :
    p.Onward q := by
  refine ⟨h.objects, by rw [h.nursery], by rw [h.nursery], by rw [h.nursery], by rw [h.nursery],
    by rw [h.shared]; exact room.start, by rw [h.shared]; exact room.reserve, by rw [h.shared]; exact room.chunkSize,
    by rw [h.shared]; exact room.used, ?_⟩
  intro blank i hi
  rw [h.shared] at hi ⊢
  have hi : b.freePointer ≤ i := hi
  have hle : p.shared.freePointer ≤ b.freePointer := by
    have := room.used
    rw [Arena.freePointer, Arena.freePointer, room.start]
    omega
  have := room.cursor
  have := room.limit
  have := room.inside
  exact (h.out i (.inr (by omega))).trans (blank i (by omega))

/-- What a field may have become, it may have become after a promotion. -/
theorem Going.Promoted.becomes (h : Promoted p q r twin b c m m') (room : Room p₀ p records r.size twin b c)
    {typeId offset v v' : Nat} (hv : g.Becomes layout own False p typeId offset v v') :
    (g.promote r t).Becomes layout own False q typeId offset v v' := by
  have onward := h.onward room
  have wider : ∀ v, p.Outside v → q.Outside v := by
    intro v hv
    exact ⟨onward.nursery_contains.trans hv.1, onward.shared_contains hv.2⟩
  have more : ∀ x ∈ g.moves, x ∈ (g.promote r t).moves := by
    intro x hx
    rw [Progress.promote_moves]
    exact List.mem_append_left _ hx
  exact hv.mono (fun hi => hi.mono more wider) fun hf => hf.1.elim

/-- The bodies after a promotion: the twin is new and nothing of it is done. -/
theorem Going.promote_bodies (h : Going layout own shared p₀ False g p) (hk : r.kind = .fresh)
    (room : Room p₀ p (shared ++ g.twins.map Prod.snd) r.size twin b c) (promoted : Promoted p q r twin b c m m')
    {x x' : Record} (hs : (g.promote r (r.twinAt twin)).Stands own item x x') :
    (∀ o ∈ (g.promote r (r.twinAt twin)).done item, o ∈ layout.fields x.typeId) ∧
      Replaced ((g.promote r (r.twinAt twin)).Becomes layout own False q x.typeId) (layout.fields x.typeId)
        ((g.promote r (r.twinAt twin)).done item) x.content x'.content := by
  cases hs with
  | root hx hx' =>
    have ne : x ≠ r := by
      intro e
      rw [e, hk] at hx'
      cases hx'
    obtain ⟨sub, body⟩ := h.bodies _ _ _ (.root (g := g) hx hx')
    rw [Progress.promote_done_of_ne Item.root_ne_twin, Progress.promote_own_of_ne ne]
    exact ⟨sub, body.mono fun _ _ _ _ => promoted.becomes room⟩
  | twin hx =>
    rcases Progress.mem_promote_twins.1 hx with hx | ⟨rfl, rfl⟩
    · obtain ⟨sub, body⟩ := h.bodies _ _ _ (.twin (g := g) hx)
      have ne : x'.addr ≠ twin := by
        intro e
        have := room.free x' (twin_mem hx)
        have := h.shared.headerSize_le (twin_mem hx)
        simp only [Record.stop, headerSize, wordSize] at *
        omega
      rw [Progress.promote_done_of_ne fun e => ne (Item.twin.inj e)]
      exact ⟨sub, body.mono fun _ _ _ _ => promoted.becomes room⟩
    · rw [Progress.promote_done_self]
      exact ⟨fun o ho => absurd ho List.not_mem_nil, .refl _ _ _⟩

/-- The token of the promoted object is now that of the twin. -/
theorem Going.Promoted.rekeyed (ready : Ready layout own shared p₀) (h : Going layout own shared p₀ late g p)
    (hr : r ∈ own) (hn : ∀ t, (r, t) ∉ g.twins) (distinct : ∀ x ∈ g.moves, x.2 ≠ twin)
    (promoted : Promoted p q r twin b c m m') : p₀.Rekeyed q (g.moves ++ [(r, twin)]) := by
  have before : ∀ x ∈ g.moves, x.1.addr ≠ r.addr := by
    intro x hx e
    obtain ⟨t, ht, -⟩ := Progress.mem_moves.1 hx
    exact hn t (own_unique ready (h.fresh_of_moves hx).1 hr e ▸ ht)
  have unmoved := h.tokens.own r.addr before
  refine ⟨?_, ?_, ?_, ?_⟩
  · intro a ha
    rw [promoted.tokens, if_neg fun e => ha _ List.mem_concat_self e.symm]
    exact h.tokens.shared a fun x hx => ha x (List.mem_append_left _ hx)
  · intro a ha
    rw [promoted.ownTokens, if_neg fun e => ha _ List.mem_concat_self e.symm]
    exact h.tokens.own a fun x hx => ha x (List.mem_append_left _ hx)
  · intro x hx
    rw [promoted.ownTokens]
    rcases List.mem_append.mp hx with hx | hx
    · rw [if_neg (before x hx)]
      exact h.tokens.gone x hx
    · rw [List.mem_singleton.mp hx, if_pos rfl]
  · intro x hx
    rw [promoted.tokens]
    rcases List.mem_append.mp hx with hx | hx
    · rw [if_neg (distinct x hx)]
      exact h.tokens.moved x hx
    · rw [List.mem_singleton.mp hx, if_pos rfl, unmoved, h.tokens.shared twin distinct]

/-- The records after a promotion, where memory is as a promotion leaves it. -/
theorem Going.promote (ready : Ready layout own shared p₀) (h : Going layout own shared p₀ False g p) (hr : r ∈ own)
    (hk : r.kind = .fresh) (hn : ∀ t, (r, t) ∉ g.twins)
    (room : Room p₀ p (shared ++ g.twins.map Prod.snd) r.size twin b c) (promoted : Promoted p q r twin b c m m')
    (nursery : { p.tx.nursery with memory := m }.Keeps layout
      (amend (own.map g.own) r.addr fun x => { x with kind := .moved twin }))
    (keeps : { b with memory := m' }.Keeps layout (shared ++ g.twins.map Prod.snd ++ [r.twinAt twin])) :
    Going layout own shared p₀ False (g.promote r (r.twinAt twin)) q := by
  have above := room.above
  have limit := room.limit
  have cursor := room.cursor
  have inside := room.inside
  refine
    { onward := h.onward.trans (promoted.onward room)
      nursery := by rw [promoted.nursery, h.map_promote_own ready hr hk hn]; exact nursery
      shared := ?_
      shape := ?_
      copies := ?_
      fresh := ?_
      twins := ?_
      once := ?_
      above := ?_
      buffer := ?_
      below := ?_
      bodies := fun _ _ _ => h.promote_bodies hk room promoted
      promoted := ?_
      tokens := by
        rw [Progress.promote_moves]
        exact promoted.rekeyed ready h hr hn (h.room_distinct room) }
  · rw [promoted.shared, Progress.promote, List.map_append, ← List.append_assoc]
    exact keeps
  · intro x hx
    by_cases e : x = r
    · subst e
      rw [Progress.promote_own_self]
      exact ⟨rfl, rfl, rfl⟩
    · rw [Progress.promote_own_of_ne e]
      exact h.shape x hx
  · intro x hx root hx'
    have ne : x ≠ r := by
      intro e
      rw [e, hk] at hx'
      cases hx'
    rw [Progress.promote_own_of_ne ne]
    exact h.copies x hx root hx'
  · intro x hx hx'
    by_cases e : x = r
    · subst e
      exact .inr ⟨_, Progress.mem_promote_twins.2 (.inr ⟨rfl, rfl⟩), Progress.promote_own_self⟩
    · rw [Progress.promote_own_of_ne e]
      rcases h.fresh x hx hx' with ⟨e', none⟩ | ⟨y, hy, e'⟩
      · refine .inl ⟨e', ?_⟩
        intro y hy
        rcases Progress.mem_promote_twins.1 hy with hy | ⟨hy, -⟩
        · exact none y hy
        · exact e hy
      · exact .inr ⟨y, Progress.mem_promote_twins.2 (.inl hy), e'⟩
  · intro x y hx
    rcases Progress.mem_promote_twins.1 hx with hx | ⟨rfl, rfl⟩
    · exact h.twins x y hx
    · exact ⟨hr, hk, rfl, rfl, rfl⟩
  · rw [Progress.promote, List.map_append, List.map_singleton]
    refine List.nodup_append.mpr ⟨h.once, List.pairwise_singleton _ _, ?_⟩
    intro x hx y hy e
    obtain ⟨⟨x₁, x₂⟩, hx', rfl⟩ := List.mem_map.1 hx
    rw [List.mem_singleton.mp hy] at e
    have e : x₁ = r := e
    exact hn x₂ (e ▸ hx')
  · intro x y hx
    rw [promoted.buffer, cursor]
    rcases Progress.mem_promote_twins.1 hx with hx | ⟨rfl, rfl⟩
    · exact ⟨(h.above x y hx).1, Nat.le_trans (room.free y (twin_mem hx)) (Nat.le_add_right _ _)⟩
    · exact ⟨above, Nat.le_refl _⟩
  · rw [promoted.buffer, promoted.shared]
    exact .inr ⟨by omega, limit, inside⟩
  · intro i hi
    rw [promoted.shared]
    exact (promoted.out i (.inl (by omega))).trans (h.below i hi)
  · rw [promoted.count, promoted.bytes, h.promoted.1, h.promoted.2, Progress.promote, List.length_append,
      List.map_append, List.sum_append]
    exact ⟨rfl, rfl⟩

end

open Step

theorem ends_moveToken {obj : Nat} {ok : Unit → Preparation → Prop} {bad : Failure → Preparation → Prop}
    (hok : ∀ tokens tx, tx.nursery = p.tx.nursery → tx.objects = p.tx.objects →
      (∀ a, tokens.get? a = if a = twin then (p.tx.tokens.get? obj).or (p.tokens.get? a) else p.tokens.get? a) →
      (∀ a, tx.tokens.get? a = if a = obj then none else p.tx.tokens.get? a) → ok () { p with tokens, tx }) :
    Ends (Prepare.moveToken obj twin) p ok bad := by
  rw [Prepare.moveToken, ends_modify]
  split
  · rename_i token htoken
    refine hok _ _ rfl rfl ?_ fun a => TokenTable.get?_erase _ _ a
    intro a
    rw [TokenTable.get?_insert, htoken, Option.some_or]
  · rename_i hnone
    refine hok p.tokens p.tx rfl rfl ?_ ?_
    · intro a
      rw [hnone, Option.none_or, ite_self]
    · intro a
      split
      · rename_i e
        rw [e, hnone]
      · rfl

structure Progress.Made (g : Progress) (p : Preparation) (r : Record) (twin : Nat) (q : Preparation) : Prop where
  pending : q.pending = .twin twin :: p.pending
  holders : q.weakHolders = p.weakHolders
  distinct : ∀ x ∈ g.moves, x.2 ≠ twin
  room : ∃ b, p.buffer.allocate p.shared r.size = .ok (twin, q.buffer, b) ∧ q.shared.freePointer = b.freePointer
  report : q.report =
    { p.report with promoted := p.report.promoted + 1, bytesPromoted := p.report.bytesPromoted + r.size }

theorem going_makeTwin (ready : Ready layout own shared p₀) (h : Going layout own shared p₀ False g p) (hr : r ∈ own)
    (hk : r.kind = .fresh) (hn : ∀ t, (r, t) ∉ g.twins) (thread : Nat) :
    Ends (Prepare.makeTwin thread r.addr r.header layout) p
      (fun twin q => Going layout own shared p₀ False (g.promote r (r.twinAt twin)) q ∧ g.Made p r twin q)
      fun f q => Prepare.Stuck thread (∃ f', p.buffer.allocate p.shared r.size = .error f') (fun _ => False) f ∧
        Going layout own shared p₀ False g q := by
  have sized := ready.nursery.sized r hr
  have hsize := ready.nursery.headerSize_le hr
  have mem : r ∈ own.map g.own := by
    have := List.mem_map_of_mem (f := g.own) hr
    rwa [h.own_eq hr hk hn] at this
  have typeId_lt := Layout.typeId_lt_of_objectSize ready.sound sized
  rw [Prepare.makeTwin, Record.header_typeId, ends_bind]
  refine ends_ofAttempt_ok sized ?_
  rw [ends_bind, Prepare.takeRoom, ends_bind, ends_get, ends_bind, ends_ofAttempt]
  refine ⟨?_, fun f hf => ?_⟩
  rotate_left
  · obtain ⟨requested, available, rfl⟩ := h.allocate_refused ready (Nat.lt_of_lt_of_le (by decide) hsize) hf
    exact ⟨.noRoom _ _ ⟨_, hf⟩, h⟩
  intro taken ha
  obtain ⟨twin, c, b⟩ := taken
  have room := h.room ready ha
  have limit := room.limit
  have cursor := room.cursor
  have inside := room.inside
  -- the object lies in the nursery, and the room in the shared heap: the reads and stores are all allowed
  have spans : b.Spans twin r.size := by
    refine ⟨?_, by omega⟩
    rw [room.start, h.onward.start]
    exact Nat.le_trans (Nat.le_add_right _ _) room.above
  have twin_lt : twin < wordLimit := by
    have := spans.2
    have := b.freePointer_lt
    omega
  have fits : (Header.new r.typeId Flag.global).Fits := Header.fits_new typeId_lt (by decide)
  have forwarded_fits : ((Header.new r.typeId 0).setVersion (.forwarded twin)).Fits :=
    Header.fits_setVersion (Header.fits_new typeId_lt (by decide)) fun _ e => Option.some.inj e ▸ twin_lt
  obtain ⟨header, body, out⟩ := Memory.copy_object b.memory p.tx.nursery.memory r.addr twin hsize fits
  replace body := body.trans (h.nursery.body r mem)
  have keeps := (h.shared_room room).add (r := r.twinAt twin) sized spans (fun x hx => .inl (room.free x hx)) out header body
  have nursery := h.nursery.setHeader mem (g := fun x => { x with kind := .moved twin }) ⟨rfl, rfl, rfl, rfl⟩ forwarded_fits
  rw [ends_bind, ends_set, ends_pure, ends_bind, ends_get, ends_bind]
  refine ends_ofAttempt_ok (Arena.read_eq_ok.2 ⟨h.nursery.spans (k := 0) mem (by omega), rfl⟩) ?_
  rw [ends_bind]
  refine ends_ofAttempt_ok (Arena.write_eq_ok.2 ⟨by rw [Memory.length_read]; exact spans, rfl⟩) ?_
  rw [ends_bind]
  refine ends_ofAttempt_ok (Arena.setHeader_eq_ok.2 ⟨⟨spans.1, Nat.le_trans (by omega) spans.2⟩, rfl⟩) ?_
  rw [ends_bind, Prepare.setShared, ends_modify, ends_bind]
  refine ends_ofAttempt_ok (a := (Header.new r.typeId 0).setVersion (.forwarded twin))
    (by rw [Record.header, hk]; rfl) ?_
  rw [ends_bind]
  refine ends_ofAttempt_ok (Arena.setHeader_eq_ok.2 ⟨h.nursery.header_spans mem, rfl⟩) ?_
  rw [ends_bind, Prepare.setNursery, ends_modify, ends_bind]
  refine ends_moveToken ?_
  intro tokens tx hn' ho htokens hown
  rw [ends_bind, ends_modify, ends_bind, Prepare.note, ends_modify, ends_pure]
  refine ⟨h.promote ready hr hk hn room ?_ nursery keeps, ⟨rfl, rfl, h.room_distinct room, ⟨b, ha, ?_⟩, rfl⟩⟩
  · exact ⟨rfl, hn', ho, rfl, rfl, rfl, htokens, hown, fun i hi => (out i hi).trans (congrArg (Memory.get · i) room.memory)⟩
  · simp only [Arena.freePointer]

end TxHeap

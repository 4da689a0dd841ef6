/-
  TxHeap.Proofs.Commuting — commits without a common root commute.

  Two workers in active transactions, with no object of which both have a working copy, commit
  one after the other. What a commit does is settled by the plan of its transaction, and the
  plan depends on nothing that the other commit does but the free pointer. So the same twins
  are made in both orders, in two blocks of which either may come first. When the blocks trade
  places (`exchanged`), the one heap becomes the other (`HeapMoved`). The roots lie apart, and
  neither commit overwrites anything of the other (`Joint`).

  Objects of which neither has a copy keep their bytes. A word of theirs that happens to be
  the address of a twin yet to come does not move with it (`disjoint_commits_strand_pointer`).
-/
import Mathlib.Logic.Equiv.Defs
import TxHeap.Proofs.Commits
import TxHeap.Proofs.Tokens

namespace TxHeap

/-! ## Tokens of twins that are still to come -/

section

variable {s s' : Session} {L : Ledger} {c : Command} {o : Outcome}

theorem Going.token_below {layout : Layout} {own shared : List Record} {p₀ p : Preparation} {late : Prop} {g : Progress}
    {a k : Nat} (h : Going layout own shared p₀ late g p)
    (below : ∀ a k, p₀.tokens.get? a = some k → a < p₀.shared.freePointer) (token : p.tokens.get? a = some k) :
    a < p.shared.freePointer := by
  by_cases found : ∃ x ∈ g.moves, x.2 = a
  · obtain ⟨⟨r, twin⟩, hx, rfl⟩ := found
    obtain ⟨t, ht, rfl⟩ := Progress.mem_moves.1 hx
    have := (h.shared.inside t (twin_mem ht)).2
    have := h.shared.headerSize_le (twin_mem ht)
    simp only [Record.stop, headerSize, wordSize] at *
    omega
  · rw [h.tokens.shared a fun x hx e => found ⟨x, hx, e⟩] at token
    exact Nat.lt_of_lt_of_le (below a k token) h.onward.freePointer_le

theorem Effect.token_below (kept : Kept s L) (care : careful s L c)
    (below : ∀ a k, s.heap.tokens.get? a = some k → a < s.heap.shared.freePointer) (e : Effect s c o s') :
    ∀ a k, s'.heap.tokens.get? a = some k → a < s'.heap.shared.freePointer := by
  intro a k token
  rcases e.tokens_cases kept care with tokens | ⟨t, tx, g, p, going, tokens, shared⟩
  · have further := e.follows.shared.freePointer_le
    rw [tokens] at token
    exact Nat.lt_of_lt_of_le (below a k token) further
  · rw [tokens] at token
    rw [shared]
    exact going.token_below below token

/-- Tokens are recorded for addresses that were handed out. -/
theorem Lived.token_below (h : Lived careful s L) :
    ∀ a k, s.heap.tokens.get? a = some k → a < s.heap.shared.freePointer := by
  refine (h.alongside (I := fun s _ => ∀ a k, s.heap.tokens.get? a = some k → a < s.heap.shared.freePointer)
    careful_divides id ?_ fun kept below care e => e.token_below kept care below).2
  intro config layout log s hs a k token
  rw [(new_of_create hs).tokens, TokenTable.get?_empty] at token
  cases token

theorem Lived.no_token {a : Nat} (h : Lived careful s L) (above : s.heap.shared.freePointer ≤ a) :
    s.heap.tokens.get? a = none := by
  cases token : s.heap.tokens.get? a with
  | none => rfl
  | some k => exact absurd (h.token_below a k token) (Nat.not_lt.2 above)

end

/-! ## Two blocks trade places -/

/-- The addresses of a block of `c` bytes and of the `d` bytes behind it trade places. -/
def exchange (base c d a : Nat) : Nat :=
  if a < base then a else if a < base + c then a + d else if a < base + c + d then a - c else a

theorem exchange_exchange (base c d a : Nat) : exchange base d c (exchange base c d a) = a := by
  simp only [exchange]
  split_ifs <;> omega

def exchanged (base c d : Nat) : Equiv.Perm Nat where
  toFun := exchange base c d
  invFun := exchange base d c
  left_inv := exchange_exchange base c d
  right_inv := exchange_exchange base d c

section

variable {base c d a : Nat}

theorem exchanged_below (h : a < base) : exchanged base c d a = a := if_pos h

theorem exchanged_first (h : base ≤ a) (h' : a < base + c) : exchanged base c d a = a + d := by
  show exchange base c d a = _
  rw [exchange, if_neg (by omega), if_pos h']

theorem exchanged_second (h : base + c ≤ a) (h' : a < base + c + d) : exchanged base c d a = a - c := by
  show exchange base c d a = _
  rw [exchange, if_neg (by omega), if_neg (by omega), if_pos h']

end

/-! ## Objects that have moved -/

/-- The object, which the first memory holds where the record says, is in the second at its new place. -/
structure Relocated (layout : Layout) (move : Nat → Nat) (m m' : Memory) (r : Record) : Prop where
  header : m'.headerAt (move r.addr) = m.headerAt r.addr
  bytes : ∀ i < r.bodySize, (∀ offset ∈ layout.fields r.typeId, i < offset ∨ offset + wordSize ≤ i) →
    m'.get (move r.addr + headerSize + i) = m.get (r.bodyAddr + i)
  /-- Pointers follow what they point at. -/
  fields : ∀ offset ∈ layout.fields r.typeId,
    m'.readWord (move r.addr + headerSize + offset) = move (m.readWord (r.bodyAddr + offset))

/-- The second of two heaps holds the objects of the first, moved; `untouched` ones are as they are. -/
structure HeapMoved (layout : Layout) (move : Nat → Nat) (untouched : Nat → Prop) (rs rs' : List Record) (h h' : Heap) :
    Prop where
  used : h'.shared.used = h.shared.used
  objects : ∀ a, (∃ r ∈ rs', r.addr = move a) ↔ ∃ r ∈ rs, r.addr = a
  relocated : ∀ r ∈ rs, ¬ untouched r.addr → Relocated layout move h.shared.memory h'.shared.memory r
  untouched : ∀ r ∈ rs, untouched r.addr → h'.shared.memory.headerAt r.addr = h.shared.memory.headerAt r.addr ∧
    h'.shared.memory.read r.bodyAddr r.bodySize = h.shared.memory.read r.bodyAddr r.bodySize
  tokens : ∀ a, h'.tokens.get? (move a) = h.tokens.get? a

section

variable {layout : Layout} {own own' rs rs' before mid after : List Record} {moves moves' : List (Record × Nat)}
  {move : Nat → Nat} {r o o' : Record} {v : Nat} {a b : Arena}

theorem pointee_move {p₀ : Preparation} {shared : List Record} (ready : Ready layout own shared p₀)
    (null : move 0 = 0) (roots : ∀ r ∈ own, ∀ root, r.kind = .copyOf root → move root = root)
    (known : v = 0 ∨ (∃ r ∈ own, r.addr = v) ∨ move v = v) :
    pointee own (moves.map fun x => (x.1, move x.2)) v = move (pointee own moves v) := by
  by_cases found : ∃ r ∈ own, r.addr = v
  · obtain ⟨r, hr, rfl⟩ := found
    rw [pointee_own ready hr, pointee_own ready hr]
    cases hk : r.kind with
    | copyOf root => exact (roots r hr root hk).symm
    | fresh | moved twin | shared whole copied =>
      simp only
      rw [List.find?_map]
      show ((moves.find? fun x => x.1 = r).map _ |>.map Prod.snd).getD 0 = _
      cases moves.find? fun x => x.1 = r with
      | none => exact null.symm
      | some x => rfl
  · have nobody : ∀ r ∈ own, r.addr ≠ v := fun r hr e => found ⟨r, hr, e⟩
    rw [pointee_none nobody, pointee_none nobody]
    rcases known with rfl | known | e
    · exact null.symm
    · exact absurd known found
    · exact e.symm

/-- Two translations of one object are the same object at two places. -/
theorem relocated_of_translates (sound : layout.Sound) (keeps : a.Keeps layout rs) (keeps' : b.Keeps layout rs')
    (ho : o ∈ rs) (ho' : o' ∈ rs') (addr : o'.addr = move o.addr) (typeId : o.typeId = r.typeId)
    (size : o'.size = o.size) (header : o'.header = o.header) (translates : Translates layout own moves r o.content)
    (translates' : Translates layout own' moves' r o'.content)
    (leads : ∀ offset ∈ layout.fields r.typeId,
      pointee own' moves' (r.word offset) = move (pointee own moves (r.word offset))) :
    Relocated layout move a.memory b.memory o := by
  have body := keeps.body o ho
  have body' := keeps'.body o' ho'
  have place : o'.bodyAddr = move o.addr + headerSize := by rw [Record.bodyAddr, addr]
  have bodySize : o'.bodySize = o.bodySize := by rw [Record.bodySize, Record.bodySize, size]
  rw [place, bodySize] at body'
  refine ⟨?_, ?_, ?_⟩
  · rw [← addr, keeps'.header o' ho', keeps.header o ho, header]
  · intro i hi apart
    rw [typeId] at apart
    have same := (translates'.rest i apart).trans (translates.rest i apart).symm
    rw [← body, ← body', Memory.getElem?_read, Memory.getElem?_read, if_pos hi, if_pos hi] at same
    exact Option.some.inj same
  · intro offset ho''
    have fit : offset + wordSize ≤ o.bodySize := by
      have := sound.field_le_size ho'' (keeps.sized o ho)
      rw [Record.bodySize]
      omega
    rw [← Memory.wordAt_read fit, ← Memory.wordAt_read fit, body, body']
    rw [typeId] at ho''
    rw [translates'.replaced offset ho'', translates.replaced offset ho'']
    exact leads offset ho''

/-! ## Two commits, one after the other -/

/-- What a commit made of its roots and twins is there. -/
structure Landed (layout : Layout) (own : List Record) (moves : List (Record × Nat)) (before after : List Record) : Prop where
  roots : ∀ b ∈ before, ∀ r ∈ own, r.kind = .copyOf b.addr → ∃ o ∈ after, o.addr = b.addr ∧ o.typeId = b.typeId ∧
    o.size = b.size ∧ o.header = b.header ∧ Translates layout own moves r o.content
  twins : ∀ x ∈ moves, ∃ o ∈ after, o.addr = x.2 ∧ o.typeId = x.1.typeId ∧ o.size = x.1.size ∧
    o.header = .new x.1.typeId Flag.global ∧ Translates layout own moves x.1 o.content

/-- What a commit made is there after another one that has copies of none of it. -/
theorem Delivered.landed_first (first : Delivered layout own moves before mid)
    (second : Delivered layout own' moves' mid after)
    (roots : ∀ r ∈ own, ∀ root, r.kind = .copyOf root → ∀ r' ∈ own', r'.kind ≠ .copyOf root)
    (twins : ∀ x ∈ moves, ∀ r' ∈ own', r'.kind ≠ .copyOf x.2) : Landed layout own moves before after := by
  refine ⟨?_, ?_⟩
  · intro b hb r hr hk
    obtain ⟨o, ho, addr, typeId, size, header, -, translates⟩ := first.old b hb
    obtain ⟨o', ho', addr', typeId', size', header', same, -⟩ := second.old o ho
    refine ⟨o', ho', addr'.trans addr, typeId'.trans typeId, size'.trans size, header'.trans header, ?_⟩
    rw [same (by rw [addr]; exact roots r hr _ hk)]
    exact translates r hr hk
  · intro x hx
    obtain ⟨o, ho, addr, typeId, size, header, translates⟩ := first.new x hx
    obtain ⟨o', ho', addr', typeId', size', header', same, -⟩ := second.old o ho
    refine ⟨o', ho', addr'.trans addr, typeId'.trans typeId, size'.trans size, header'.trans header, ?_⟩
    rw [same (by rw [addr]; exact twins x hx)]
    exact translates

theorem Delivered.landed_second (first : Delivered layout own moves before mid)
    (second : Delivered layout own' moves' mid after) : Landed layout own' moves' before after := by
  refine ⟨?_, second.new⟩
  intro b hb r hr hk
  obtain ⟨o, ho, addr, typeId, size, header, -⟩ := first.old b hb
  obtain ⟨o', ho', addr', typeId', size', header', -, translates⟩ := second.old o ho
  exact ⟨o', ho', addr'.trans addr, typeId'.trans typeId, size'.trans size, header'.trans header,
    translates r hr (by rw [addr]; exact hk)⟩

/-- An object of which neither has a copy is as it was. -/
theorem Delivered.untouched (first : Delivered layout own moves before mid) (second : Delivered layout own' moves' mid after)
    (ho : o ∈ before) (none : ∀ r ∈ own, r.kind ≠ .copyOf o.addr) (none' : ∀ r ∈ own', r.kind ≠ .copyOf o.addr) :
    ∃ x ∈ after, x.addr = o.addr ∧ x.size = o.size ∧ x.header = o.header ∧ x.content = o.content := by
  obtain ⟨y, hy, addr, -, size, header, same, -⟩ := first.old o ho
  obtain ⟨x, hx, addr', -, size', header', same', -⟩ := second.old y hy
  exact ⟨x, hx, addr'.trans addr, size'.trans size, header'.trans header,
    (same' (by rw [addr]; exact none')).trans (same none)⟩

end

section

variable {s s₁ s₂ s₁' s₂' : Session} {L L₂ L₂' : Ledger} {t t' : Nat} {tx tx' : Transaction} {plan plan' : Plan}
  {moves moves' : List (Record × Nat)} {move : Equiv.Perm Nat}

/-- Two workers in active transactions with no common root, all whose pointers are known. -/
structure Unrelated (s : Session) (L : Ledger) (t t' : Nat) (tx tx' : Transaction) : Prop where
  ne : t ≠ t'
  open₁ : s.tx? t = some tx
  open₂ : s.tx? t' = some tx'
  active₁ : tx.phase = .active
  active₂ : tx'.phase = .active
  known₁ : L.FieldsKnown s t
  known₂ : L.FieldsKnown s t'
  disjoint : ∀ obj, tx.objects.copyOf? obj = none ∨ tx'.objects.copyOf? obj = none

theorem Unrelated.symm (h : Unrelated s L t t' tx tx') : Unrelated s L t' t tx' tx :=
  ⟨h.ne.symm, h.open₂, h.open₁, h.active₂, h.active₁, h.known₂, h.known₁, fun obj => (h.disjoint obj).symm⟩

/-- What has been made of two transactions, whichever was committed first. -/
structure Joint (s : Session) (L : Ledger) (t t' : Nat) (tx tx' : Transaction) (moves moves' : List (Record × Nat))
    (s₂ : Session) (L₂ : Ledger) : Prop where
  landed₁ : Landed s.heap.layout (L.own t) moves L.shared L₂.shared
  landed₂ : Landed s.heap.layout (L.own t') moves' L.shared L₂.shared
  untouched : ∀ o ∈ L.shared, (∀ r ∈ L.own t, r.kind ≠ .copyOf o.addr) → (∀ r ∈ L.own t', r.kind ≠ .copyOf o.addr) →
    ∃ x ∈ L₂.shared, x.addr = o.addr ∧ x.size = o.size ∧ x.header = o.header ∧ x.content = o.content
  only : ∀ o ∈ L₂.shared, (∃ r ∈ L.shared, r.addr = o.addr) ∨ ∃ x ∈ moves ++ moves', x.2 = o.addr
  token₁ : ∀ x ∈ moves, s₂.heap.tokens.get? x.2 = tx.tokens.get? x.1.addr
  token₂ : ∀ x ∈ moves', s₂.heap.tokens.get? x.2 = tx'.tokens.get? x.1.addr
  tokens : ∀ a, (∀ x ∈ moves ++ moves', x.2 ≠ a) → s₂.heap.tokens.get? a = s.heap.tokens.get? a

theorem Joint.symm (h : Joint s L t t' tx tx' moves moves' s₂ L₂) : Joint s L t' t tx' tx moves' moves s₂ L₂ where
  landed₁ := h.landed₂
  landed₂ := h.landed₁
  untouched o ho none none' := h.untouched o ho none' none
  only o ho := by
    rcases h.only o ho with old | ⟨x, hx, e⟩
    · exact .inl old
    · exact .inr ⟨x, List.mem_append.mpr (List.mem_append.mp hx).symm, e⟩
  token₁ := h.token₂
  token₂ := h.token₁
  tokens a apart := h.tokens a fun x hx => apart x (List.mem_append.mpr (List.mem_append.mp hx).symm)

/-! ### One order -/

/-- A transaction has a working copy of what its object map has. -/
theorem Intact.copyOf?_ne_none {layout : Layout} {own : List Record} {r : Record} {root : Nat} (h : Intact layout own tx)
    (hr : r ∈ own) (hk : r.kind = .copyOf root) : tx.objects.copyOf? root ≠ none := by
  intro missing
  have pair : (root, r.addr) ∈ tx.objects.pairs := by
    rw [h.pairs]
    exact List.mem_filterMap.2 ⟨r, hr, Record.pair?_eq_some.2 ⟨hk, rfl⟩⟩
  exact bne_iff_ne.1 (List.lookup_eq_none_iff.1 missing _ pair) rfl

theorem Unrelated.roots (h : Unrelated s L t t' tx tx') (kept : Kept s L) :
    ∀ r ∈ L.own t, ∀ root, r.kind = .copyOf root → ∀ r' ∈ L.own t', r'.kind ≠ .copyOf root := by
  intro r hr root hk r' hr' hk'
  rcases h.disjoint root with none | none
  · exact (kept.intact t tx h.open₁ h.active₁).copyOf?_ne_none hr hk none
  · exact (kept.intact t' tx' h.open₂ h.active₂).copyOf?_ne_none hr' hk' none

/-- The root of a working copy was there before. -/
theorem Kept.root_lt (kept : Kept s L) (htx : s.tx? t = some tx) (hactive : tx.phase = .active) {r : Record} {root : Nat}
    (hr : r ∈ L.own t) (hk : r.kind = .copyOf root) : root < s.heap.shared.freePointer := by
  obtain ⟨o, ho, rfl, -⟩ := (kept.backed t tx htx).rooted (.inl hactive) r hr _ hk
  exact (Arena.contains_iff.1 (kept.shared.contains ho)).2

/-- The twins of a plan lie in the bytes it takes. -/
theorem Carried.twin_range (carried : Carried s L t tx plan s₁) (kept : Kept s L) (htx : s.tx? t = some tx)
    (hactive : tx.phase = .active) : ∀ x ∈ (s.spread plan).moves s.heap.shared.freePointer,
      s.heap.shared.freePointer ≤ x.2 ∧ x.2 < s.heap.shared.freePointer + (s.spread plan).taken := by
  intro x hx
  have size := (kept.intact t tx htx hactive).nursery.headerSize_le (carried.mine x hx)
  obtain ⟨y, hy, rfl⟩ := List.mem_map.1 hx
  have within := (Spread.fits_of _ _).within y hy
  simp only [headerSize, wordSize, Session.spread] at *
  omega

theorem Carried.freePointer (carried : Carried s L t tx plan s₁) (kept : Kept s L) (kept₁ : Kept s₁ (L.after s (.commit t))) :
    s₁.heap.shared.freePointer = s.heap.shared.freePointer + (s.spread plan).taken := by
  rw [Arena.freePointer, Arena.freePointer, carried.used, kept.ground.start, kept₁.ground.start, Nat.add_assoc]

theorem Carried.spread (carried : Carried s L t tx plan s₁) (plan' : Plan) : s₁.spread plan' = s.spread plan' := by
  rw [Session.spread, Session.spread, carried.config]

/-- The commit of one leaves the transaction of the other as it is. -/
theorem Unrelated.known_after (h : Unrelated s L t t' tx tx') (carried : Carried s L t tx plan s₁) (kept : Kept s L)
    (kept₁ : Kept s₁ (L.after s (.commit t))) :
    s₁.tx? t' = some tx' ∧ (L.after s (.commit t)).FieldsKnown s₁ t' := by
  have same := carried.others t' h.ne.symm
  refine ⟨same.trans h.open₂, ?_⟩
  intro x hx r hr offset ho
  rw [same] at hx
  rw [carried.own] at hr ⊢
  rw [carried.layout] at ho
  rcases h.known₂ x hx r hr offset ho with null | own | shared
  · exact .inl null
  · exact .inr (.inl own)
  · refine .inr (.inr ?_)
    rw [Arena.contains_iff, carried.freePointer kept kept₁, kept₁.ground.start, ← kept.ground.start]
    have := Arena.contains_iff.1 shared
    omega

theorem Unrelated.joint (h : Unrelated s L t t' tx tx') (life : Lived careful s L)
    (first : Carried s L t tx plan s₁) (kept₁ : Kept s₁ (L.after s (.commit t)))
    (second : Carried s₁ (L.after s (.commit t)) t' tx' plan' s₂) :
    Joint s L t t' tx tx' ((s.spread plan).moves s.heap.shared.freePointer)
      ((s.spread plan').moves (s.heap.shared.freePointer + (s.spread plan).taken)) s₂
      ((L.after s (.commit t)).after s₁ (.commit t')) := by
  have kept := life.kept
  obtain ⟨open₂, -⟩ := h.known_after first kept kept₁
  have range := first.twin_range kept h.open₁ h.active₁
  have range' := second.twin_range kept₁ open₂ h.active₂
  have delivered := second.delivered
  have tokens := second.tokens
  have rekeyed := second.rekeyed
  rw [first.freePointer kept kept₁, first.spread] at range' delivered tokens rekeyed
  rw [first.layout, first.own] at delivered
  have none_of : ∀ {a b : Option Nat}, b = none → a.or b = a := fun e => by rw [e, Option.or_none]
  refine ⟨?_, ?_, ?_, ?_, ?_, ?_, ?_⟩
  · refine first.delivered.landed_first delivered (h.roots kept) ?_
    intro x hx r' hr' hk'
    have := kept.root_lt h.open₂ h.active₂ hr' hk'
    have := range x hx
    omega
  · exact first.delivered.landed_second delivered
  · exact fun o ho none none' => first.delivered.untouched delivered ho none none'
  · intro o ho
    rcases delivered.only o ho with ⟨r, hr, e⟩ | ⟨x, hx, e⟩
    · rcases first.delivered.only r hr with ⟨r', hr', e'⟩ | ⟨x, hx, e'⟩
      · exact .inl ⟨r', hr', e'.trans e⟩
      · exact .inr ⟨x, List.mem_append_left _ hx, e'.trans e⟩
    · exact .inr ⟨x, List.mem_append_right _ hx, e⟩
  · intro x hx
    have := range x hx
    rw [tokens x.2 fun y hy e => by have := range' y hy; omega, first.rekeyed x hx, none_of (life.no_token (by omega))]
  · intro x hx
    have := range' x hx
    rw [rekeyed x hx, first.tokens x.2 fun y hy e => by have := range y hy; omega, none_of (life.no_token (by omega))]
  · intro a apart
    rw [tokens a fun x hx => apart x (List.mem_append_right _ hx), first.tokens a fun x hx => apart x (List.mem_append_left _ hx)]

/-! ### Both orders -/

/-- What is there after both commits. -/
theorem Joint.present_iff (h : Joint s L t t' tx tx' moves moves' s₂ L₂) {a : Nat} :
    (∃ o ∈ L₂.shared, o.addr = a) ↔ (∃ b ∈ L.shared, b.addr = a) ∨ ∃ x ∈ moves ++ moves', x.2 = a := by
  constructor
  · rintro ⟨o, ho, rfl⟩
    exact h.only o ho
  · rintro (⟨b, hb, rfl⟩ | ⟨x, hx, rfl⟩)
    · by_cases root : ∃ r ∈ L.own t, r.kind = .copyOf b.addr
      · obtain ⟨r, hr, hk⟩ := root
        obtain ⟨o, ho, e, -⟩ := h.landed₁.roots b hb r hr hk
        exact ⟨o, ho, e⟩
      · by_cases root' : ∃ r ∈ L.own t', r.kind = .copyOf b.addr
        · obtain ⟨r, hr, hk⟩ := root'
          obtain ⟨o, ho, e, -⟩ := h.landed₂.roots b hb r hr hk
          exact ⟨o, ho, e⟩
        · obtain ⟨o, ho, e, -⟩ := h.untouched b hb (fun r hr hk => root ⟨r, hr, hk⟩) fun r hr hk => root' ⟨r, hr, hk⟩
          exact ⟨o, ho, e⟩
    · rcases List.mem_append.mp hx with hx | hx
      · obtain ⟨o, ho, e, -⟩ := h.landed₁.twins x hx
        exact ⟨o, ho, e⟩
      · obtain ⟨o, ho, e, -⟩ := h.landed₂.twins x hx
        exact ⟨o, ho, e⟩

def movedBy (move : Nat → Nat) (moves : List (Record × Nat)) : List (Record × Nat) := moves.map fun x => (x.1, move x.2)

theorem movedBy_append (move : Nat → Nat) (moves moves' : List (Record × Nat)) :
    movedBy move (moves ++ moves') = movedBy move moves ++ movedBy move moves' :=
  List.map_append

theorem mem_movedBy {a : Nat} : (∃ x ∈ movedBy move moves, x.2 = move a) ↔ ∃ x ∈ moves, x.2 = a := by
  constructor
  · rintro ⟨x, hx, e⟩
    obtain ⟨y, hy, rfl⟩ := List.mem_map.1 hx
    exact ⟨y, hy, move.injective e⟩
  · rintro ⟨x, hx, rfl⟩
    exact ⟨_, List.mem_map_of_mem hx, rfl⟩

/-- The twins of a plan, from another address on. -/
theorem Spread.movedBy_moves {spread : Spread} {move : Nat → Nat} {base : Nat} (base' : Nat)
    (h : ∀ x ∈ spread.moves base, move x.2 + base = x.2 + base') : movedBy move (spread.moves base) = spread.moves base' := by
  rw [movedBy, Spread.moves, Spread.moves, List.map_map]
  refine List.map_congr_left fun x hx => ?_
  have := h (x.1, base + x.2) (List.mem_map_of_mem (f := fun x : Record × Nat => (x.1, base + x.2)) hx)
  simp only [Function.comp_apply, Prod.mk.injEq, true_and] at this ⊢
  omega

/-- Where one transaction landed at two places, its objects have moved from the one to the other. -/
theorem Landed.relocated {layout : Layout} {own before after after' : List Record} {a b : Arena}
    (landed : Landed layout own moves before after) (landed' : Landed layout own (movedBy move moves) before after')
    (sound : layout.Sound) (keeps : a.Keeps layout after) (keeps' : b.Keeps layout after')
    (rooted : RootedIn own before) (fixed : ∀ o ∈ before, move o.addr = o.addr) (mine : ∀ x ∈ moves, x.1 ∈ own)
    (leads : ∀ r ∈ own, ∀ offset ∈ layout.fields r.typeId,
      pointee own (movedBy move moves) (r.word offset) = move (pointee own moves (r.word offset))) :
    (∀ r ∈ own, ∀ o ∈ after, r.kind = .copyOf o.addr → Relocated layout move a.memory b.memory o) ∧
      ∀ x ∈ moves, ∀ o ∈ after, o.addr = x.2 → Relocated layout move a.memory b.memory o := by
  refine ⟨?_, ?_⟩
  · intro r hr o ho hk
    obtain ⟨root, hroot, e, typeId, -⟩ := rooted r hr _ hk
    rw [← e] at hk
    obtain ⟨y, hy, addr, type, size, header, translates⟩ := landed.roots root hroot r hr hk
    obtain ⟨y', hy', addr', -, size', header', translates'⟩ := landed'.roots root hroot r hr hk
    cases keeps.eq_of_addr hy ho (addr.trans e)
    exact relocated_of_translates sound keeps keeps' ho hy' (by rw [addr', addr, fixed root hroot]) (type.trans typeId)
      (size'.trans size.symm) (header'.trans header.symm) translates translates' (leads r hr)
  · intro x hx o ho e
    obtain ⟨y, hy, addr, type, size, header, translates⟩ := landed.twins x hx
    obtain ⟨y', hy', addr', -, size', header', translates'⟩ :=
      landed'.twins (x.1, move x.2) (List.mem_map_of_mem (f := fun x : Record × Nat => (x.1, move x.2)) hx)
    cases keeps.eq_of_addr hy ho (addr.trans e.symm)
    exact relocated_of_translates sound keeps keeps' ho hy' (by rw [addr', addr]) type (size'.trans size.symm)
      (header'.trans header.symm) translates translates' (leads x.1 (mine x hx))

def uncopied (L : Ledger) (tx tx' : Transaction) (addr : Nat) : Prop :=
  (∃ r ∈ L.shared, r.addr = addr) ∧ tx.objects.copyOf? addr = none ∧ tx'.objects.copyOf? addr = none

theorem Unrelated.leads (h : Unrelated s L t t' tx tx') (kept : Kept s L)
    (below : ∀ a < s.heap.shared.freePointer, move a = a) {r : Record} (hr : r ∈ L.own t) {offset : Nat}
    (ho : offset ∈ s.heap.layout.fields r.typeId) :
    pointee (L.own t) (movedBy move moves) (r.word offset) = move (pointee (L.own t) moves (r.word offset)) := by
  have ready := kept.ready h.open₁ h.active₁ (h.known₁.aim kept.ground)
  have clear := h.known₁.clear kept h.open₁ ready
  have pos := s.heap.shared.start_pos
  refine pointee_move ready (below 0 (by rw [Arena.freePointer]; omega)) ?_ ?_
  · exact fun r hr root hk => below root (kept.root_lt h.open₁ h.active₁ hr hk)
  · rcases clear.known r hr offset ho with null | own | shared
    · exact .inl null
    · exact .inr (.inl own)
    · exact .inr (.inr (below _ (Arena.contains_iff.1 shared).2))

/-- An object that neither has copied is in both heaps as it was. -/
theorem Joint.uncopied_same {layout : Layout} {a b : Arena} {twins twins' : List (Record × Nat)} {r : Record}
    (h : Unrelated s L t t' tx tx') (kept : Kept s L) (keeps : a.Keeps layout L₂.shared) (keeps' : b.Keeps layout L₂'.shared)
    (joint : Joint s L t t' tx tx' moves moves' s₂ L₂) (joint' : Joint s L t t' tx tx' twins twins' s₂' L₂')
    (hr : r ∈ L₂.shared) (untouched : uncopied L tx tx' r.addr) :
    b.memory.headerAt r.addr = a.memory.headerAt r.addr ∧
      b.memory.read r.bodyAddr r.bodySize = a.memory.read r.bodyAddr r.bodySize := by
  obtain ⟨⟨o, ho, e⟩, missing, missing'⟩ := untouched
  rw [← e] at missing missing'
  have copies : ∀ x ∈ L.own t, x.kind ≠ .copyOf o.addr := fun x hx hk =>
    (kept.intact t tx h.open₁ h.active₁).copyOf?_ne_none hx hk missing
  have copies' : ∀ x ∈ L.own t', x.kind ≠ .copyOf o.addr := fun x hx hk =>
    (kept.intact t' tx' h.open₂ h.active₂).copyOf?_ne_none hx hk missing'
  obtain ⟨y, hy, addr, size, header, content⟩ := joint.untouched o ho copies copies'
  obtain ⟨y', hy', addr', size', header', content'⟩ := joint'.untouched o ho copies copies'
  cases keeps.eq_of_addr hy hr (addr.trans e)
  have body' := keeps'.body y' hy'
  rw [Record.bodyAddr, Record.bodySize, addr', size', ← addr, ← size] at body'
  refine ⟨?_, ?_⟩
  · rw [keeps.header r hr, header, ← header', ← keeps'.header y' hy', addr', addr]
  · rw [keeps.body r hr, content, ← content', ← body', Record.bodyAddr, Record.bodySize]

/-- The tokens move with the twins. -/
theorem Joint.tokens_moved (life : Lived careful s L) (below : ∀ a < s.heap.shared.freePointer, move a = a)
    (joint : Joint s L t t' tx tx' moves moves' s₂ L₂)
    (joint' : Joint s L t t' tx tx' (movedBy move moves) (movedBy move moves') s₂' L₂') (a : Nat) :
    s₂'.heap.tokens.get? (move a) = s₂.heap.tokens.get? a := by
  by_cases hx : ∃ x ∈ moves ++ moves', x.2 = a
  · obtain ⟨x, hx, rfl⟩ := hx
    rcases List.mem_append.mp hx with hx | hx
    · rw [joint.token₁ x hx]
      exact joint'.token₁ _ (List.mem_map_of_mem hx)
    · rw [joint.token₂ x hx]
      exact joint'.token₂ _ (List.mem_map_of_mem hx)
  · rw [joint.tokens a fun x hx' e => hx ⟨x, hx', e⟩, joint'.tokens (move a) fun x hx' e =>
      hx (mem_movedBy.1 ⟨x, movedBy_append move moves moves' ▸ hx', e⟩)]
    by_cases free : a < s.heap.shared.freePointer
    · rw [below a free]
    · rw [life.no_token (Nat.not_lt.1 free), life.no_token]
      refine Nat.not_lt.1 fun lt => ?_
      rw [move.injective (below _ lt)] at lt
      exact free lt

/-- Joint work at two places is the same heap, moved. -/
theorem Joint.moved (h : Unrelated s L t t' tx tx') (life : Lived careful s L) (kept₂ : Kept s₂ L₂)
    (kept₂' : Kept s₂' L₂') (layout : s₂.heap.layout = s.heap.layout) (layout' : s₂'.heap.layout = s.heap.layout)
    (used : s₂'.heap.shared.used = s₂.heap.shared.used) (mine : ∀ x ∈ moves, x.1 ∈ L.own t)
    (mine' : ∀ x ∈ moves', x.1 ∈ L.own t') (below : ∀ a < s.heap.shared.freePointer, move a = a)
    (joint : Joint s L t t' tx tx' moves moves' s₂ L₂)
    (joint' : Joint s L t t' tx tx' (movedBy move moves) (movedBy move moves') s₂' L₂') :
    HeapMoved s.heap.layout move (uncopied L tx tx') L₂.shared L₂'.shared s₂.heap s₂'.heap := by
  have kept := life.kept
  have keeps := kept₂.shared
  have keeps' := kept₂'.shared
  rw [layout] at keeps
  rw [layout'] at keeps'
  have fixed : ∀ o ∈ L.shared, move o.addr = o.addr :=
    fun o ho => below _ (Arena.contains_iff.1 (kept.shared.contains ho)).2
  have rooted := (kept.backed t tx h.open₁).rooted (.inl h.active₁)
  have rooted' := (kept.backed t' tx' h.open₂).rooted (.inl h.active₂)
  obtain ⟨roots, twins⟩ := joint.landed₁.relocated joint'.landed₁ kept.ground.sound keeps keeps' rooted fixed mine
    fun r hr offset ho => h.leads kept below hr ho
  obtain ⟨roots', twins'⟩ := joint.landed₂.relocated joint'.landed₂ kept.ground.sound keeps keeps' rooted' fixed mine'
    fun r hr offset ho => h.symm.leads kept below hr ho
  have old : ∀ {a}, (∃ b ∈ L.shared, b.addr = move a) ↔ ∃ b ∈ L.shared, b.addr = a := by
    intro a
    constructor
    · rintro ⟨b, hb, e⟩
      exact ⟨b, hb, move.injective ((fixed b hb).trans e)⟩
    · rintro ⟨b, hb, rfl⟩
      exact ⟨b, hb, (fixed b hb).symm⟩
  refine ⟨used, ?_, ?_, fun r hr => Joint.uncopied_same h kept keeps keeps' joint joint' hr,
    Joint.tokens_moved life below joint joint'⟩
  · intro a
    rw [joint.present_iff, joint'.present_iff, ← movedBy_append, mem_movedBy, old]
  · intro r hr touched
    rcases joint.only r hr with ⟨b, hb, e⟩ | ⟨x, hx, e⟩
    · cases hcopy : tx.objects.copyOf? r.addr with
      | some copy =>
        obtain ⟨c, hc, -, hk, -⟩ := kept.copy_cases h.open₁ h.active₁ hcopy
        exact roots c hc r hr hk
      | none =>
        cases hcopy' : tx'.objects.copyOf? r.addr with
        | some copy =>
          obtain ⟨c, hc, -, hk, -⟩ := kept.copy_cases h.open₂ h.active₂ hcopy'
          exact roots' c hc r hr hk
        | none => exact absurd ⟨⟨b, hb, e⟩, hcopy, hcopy'⟩ touched
    · rcases List.mem_append.mp hx with hx | hx
      · exact twins x hx r hr e.symm
      · exact twins' x hx r hr e.symm

theorem Carried.lives (carried : Carried s L t tx plan s₁) (life : Lived careful s L) (known : L.FieldsKnown s t) :
    Lived careful s₁ (L.after s (.commit t)) := by
  have care : careful s L (.commit t) := ⟨nofun, fun _ h => by cases h; exact known.aim life.kept.ground⟩
  have further := life.step care
  rw [carried.answer] at further
  exact further

/-- The second commit, by the plan it has from the start. -/
theorem Unrelated.second_cases (h : Unrelated s L t t' tx tx') (kept : Kept s L)
    (first : Carried s L t tx plan s₁) (kept₁ : Kept s₁ (L.after s (.commit t))) :
    (∃ plan' s₂, Plan.Done s.heap.layout (L.own t') plan' ∧ Carried s₁ (L.after s (.commit t)) t' tx' plan' s₂) ∨
      (∃ f, (s₁.step (.commit t')).1 = .error f) ∧ ∀ plan', Plan.Done s.heap.layout (L.own t') plan' →
        s.heap.shared.reserve < s.heap.shared.used + (s.spread plan).taken + (s.spread plan').taken := by
  obtain ⟨open₂, known₂⟩ := h.known_after first kept kept₁
  have cases := kept₁.commit_cases open₂ h.active₂ known₂
  rw [first.layout, first.own, kept₁.ground.reserve, first.config, ← kept.ground.reserve, first.used] at cases
  simp only [first.spread] at cases
  exact cases

/-- What two commits took there was room for. -/
theorem Unrelated.room (kept : Kept s L) (first : Carried s L t tx plan s₁)
    (second : Carried s₁ (L.after s (.commit t)) t' tx' plan' s₂) (kept₂ : Kept s₂ L₂) :
    s.heap.shared.used + (s.spread plan).taken + (s.spread plan').taken ≤ s.heap.shared.reserve := by
  have le := s₂.heap.shared.used_le
  rw [second.used, first.used, first.spread, kept₂.ground.reserve, second.config, first.config, ← kept.ground.reserve] at le
  exact le

theorem Carried.run (first : Carried s L t tx plan s₁) (second : Carried s₁ (L.after s (.commit t)) t' tx' plan' s₂) :
    s.run [.commit t, .commit t'] =
      ([.ok (.report { plan.report tx.objects.size with sharedConsumed := (s.spread plan).taken }),
        .ok (.report { plan'.report tx'.objects.size with sharedConsumed := (s.spread plan').taken })], s₂) := by
  simp only [Session.run, first.answer, second.answer, first.spread]

/--
Commits without a common root commute. Both orders report the same, and the heaps they end
with differ in where the twins lie.

An object that neither has copied keeps all its bytes. If there is a word in one of its
pointers that is not an address yet, it will not follow whatever comes to lie there.
-/
theorem disjoint_commits_commute {a a' : Report} (life : Lived careful s L) (h : Unrelated s L t t' tx tx')
    (ok : (s.run [.commit t, .commit t']).1 = [.ok (.report a), .ok (.report a')]) :
    (s.run [.commit t', .commit t]).1 = [.ok (.report a'), .ok (.report a)] ∧
      ∃ move : Equiv.Perm Nat, (∀ addr < s.heap.shared.freePointer, move addr = addr) ∧
        HeapMoved s.heap.layout move (uncopied L tx tx') (L.along s [.commit t, .commit t']).shared
          (L.along s [.commit t', .commit t]).shared (s.run [.commit t, .commit t']).2.heap
          (s.run [.commit t', .commit t]).2.heap := by
  have kept := life.kept
  -- one order
  obtain ⟨plan, s₁, done, first⟩ | ⟨⟨f, failed⟩, -⟩ := kept.commit_cases h.open₁ h.active₁ h.known₁
  swap
  · simp only [Session.run, failed] at ok
    cases ok
  have life₁ := first.lives life h.known₁
  obtain ⟨plan', s₂, done', second⟩ | ⟨⟨f, failed⟩, -⟩ := h.second_cases kept first life₁.kept
  swap
  · simp only [Session.run, first.answer, failed] at ok
    cases ok
  have life₂ := second.lives life₁ (h.known_after first kept life₁.kept).2
  have room := Unrelated.room kept first second life₂.kept
  -- the other order has the same plans
  obtain ⟨plan₁, s₁', done₁, first'⟩ | ⟨-, short⟩ := kept.commit_cases h.open₂ h.active₂ h.known₂
  swap
  · have := short plan' done'
    omega
  cases done₁.unique done'
  have life₁' := first'.lives life h.known₂
  obtain ⟨plan₂, s₂', done₂, second'⟩ | ⟨-, short⟩ := h.symm.second_cases kept first' life₁'.kept
  swap
  · have := short plan done
    omega
  cases done₂.unique done
  have life₂' := second'.lives life₁' (h.symm.known_after first' kept life₁'.kept).2
  have along : L.along s [.commit t, .commit t'] = (L.after s (.commit t)).after s₁ (.commit t') := by
    rw [Ledger.along, first.answer]
    rfl
  have along' : L.along s [.commit t', .commit t] = (L.after s (.commit t')).after s₁' (.commit t) := by
    rw [Ledger.along, first'.answer]
    rfl
  rw [first.run second, first'.run second', along, along']
  rw [first.run second] at ok
  cases ok
  refine ⟨rfl, exchanged s.heap.shared.freePointer (s.spread plan).taken (s.spread plan').taken,
    fun addr below => exchanged_below below, ?_⟩
  refine Joint.moved h life life₂.kept life₂'.kept (second.layout.trans first.layout) (second'.layout.trans first'.layout)
    ?_ ?_ ?_ (fun addr below => exchanged_below below) (h.joint life first life₁.kept second) ?_
  · rw [second.used, first.used, second'.used, first'.used, first.spread, first'.spread]
    omega
  · exact first.mine
  · have mine := second.mine
    rw [first.freePointer kept life₁.kept, first.spread, first.own] at mine
    exact mine
  · -- the twins of the one lie behind those of the other
    have range := first.twin_range kept h.open₁ h.active₁
    have range' := second.twin_range life₁.kept (h.known_after first kept life₁.kept).1 h.active₂
    rw [first.freePointer kept life₁.kept, first.spread] at range'
    rw [Spread.movedBy_moves (s.heap.shared.freePointer + (s.spread plan').taken),
      Spread.movedBy_moves s.heap.shared.freePointer]
    · exact (h.symm.joint life first' life₁'.kept second').symm
    · intro x hx
      have := range' x hx
      rw [exchanged_second this.1 this.2]
      omega
    · intro x hx
      have := range x hx
      rw [exchanged_first this.1 this.2]
      omega

/-- Two workers each have a copy of a node and a new one behind it; a third node points at where the next object will lie. -/
def sideBySide : List Command :=
  let first := sharedStart
  let second := first + 48
  let third := second + 48
  let copy := nurseryStart
  let copy' := nurseryStart + 65536
  [.attachMain, .create mainThread 0, .create mainThread 0, .create mainThread 0, .write mainThread third 0 (third + 48),
    .attachWorker, .attachWorker, .start 1, .start 2, .copyOnWrite 1 first, .copyOnWrite 2 second, .create 1 0, .create 2 0,
    .write 1 copy 0 (copy + 48), .write 1 (copy + 48) 16 copy, .write 1 (copy + 48) 24 7, .token 1 (copy + 48),
    .write 2 copy' 8 (copy' + 48), .write 2 (copy' + 48) 0 first, .write 2 (copy' + 48) 24 9]

theorem lived_sideBySide :
    Lived careful (Session.ofNodes.run sideBySide).2 (Ledger.empty.along .ofNodes sideBySide) :=
  .ofNodes (by decide +kernel)

theorem unrelated_sideBySide : ∃ tx tx', Unrelated (Session.ofNodes.run sideBySide).2
    (Ledger.empty.along .ofNodes sideBySide) 1 2 tx tx' := by
  have facts : ((Session.ofNodes.run sideBySide).2.tx? 1).map (fun tx => (tx.phase, tx.objects)) =
      some (.active, ⟨[(sharedStart, nurseryStart)]⟩) := by decide +kernel
  have facts' : ((Session.ofNodes.run sideBySide).2.tx? 2).map (fun tx => (tx.phase, tx.objects)) =
      some (.active, ⟨[(sharedStart + 48, nurseryStart + 65536)]⟩) := by decide +kernel
  obtain ⟨tx, htx, e⟩ := Option.map_eq_some_iff.1 facts
  obtain ⟨tx', htx', e'⟩ := Option.map_eq_some_iff.1 facts'
  obtain ⟨active, objects⟩ := Prod.mk.inj e
  obtain ⟨active', objects'⟩ := Prod.mk.inj e'
  obtain ⟨known, known'⟩ : (Ledger.empty.along .ofNodes sideBySide).FieldsKnown (Session.ofNodes.run sideBySide).2 1 ∧
      (Ledger.empty.along .ofNodes sideBySide).FieldsKnown (Session.ofNodes.run sideBySide).2 2 := by decide +kernel
  refine ⟨tx, tx', by decide, htx, htx', active, active', known, known', ?_⟩
  intro obj
  rw [objects, objects', ObjectMap.copyOf?, ObjectMap.copyOf?, List.lookup_eq_none_iff, List.lookup_eq_none_iff]
  by_cases first : obj = sharedStart
  · refine .inr ?_
    simp [first]
  · refine .inl ?_
    simpa using first

def sideBySideReports : List Outcome :=
  [.ok (.report { roots := 1, promoted := 1, bytesPromoted := 48, sharedConsumed := 256, weakRedirected := 1 }),
    .ok (.report { roots := 1, promoted := 1, bytesPromoted := 48, sharedConsumed := 256 })]

theorem disjoint_commits_commute_sideBySide :
    ((Session.ofNodes.run sideBySide).2.run [.commit 2, .commit 1]).1 = sideBySideReports.reverse ∧
      ∃ tx tx', ∃ move : Equiv.Perm Nat,
        (∀ addr < (Session.ofNodes.run sideBySide).2.heap.shared.freePointer, move addr = addr) ∧
        HeapMoved (Session.ofNodes.run sideBySide).2.heap.layout move
          (uncopied (Ledger.empty.along .ofNodes sideBySide) tx tx')
          ((Ledger.empty.along .ofNodes sideBySide).along (Session.ofNodes.run sideBySide).2 [.commit 1, .commit 2]).shared
          ((Ledger.empty.along .ofNodes sideBySide).along (Session.ofNodes.run sideBySide).2 [.commit 2, .commit 1]).shared
          ((Session.ofNodes.run sideBySide).2.run [.commit 1, .commit 2]).2.heap
          ((Session.ofNodes.run sideBySide).2.run [.commit 2, .commit 1]).2.heap := by
  obtain ⟨tx, tx', unrelated⟩ := unrelated_sideBySide
  have ok : ((Session.ofNodes.run sideBySide).2.run [.commit 1, .commit 2]).1 = sideBySideReports := by decide +kernel
  obtain ⟨reports, move, fixed, moved⟩ := disjoint_commits_commute lived_sideBySide unrelated ok
  exact ⟨reports, tx, tx', move, fixed, moved⟩

/-- The word of the third node does not move with the twin that comes to lie there. -/
theorem disjoint_commits_strand_pointer :
    ∃ s L tx tx', Lived careful s L ∧ Unrelated s L 1 2 tx tx' ∧
      (s.run [.commit 1, .commit 2]).1 = sideBySideReports ∧
      ¬ ∃ move : Equiv.Perm Nat, (∀ addr < s.heap.shared.freePointer, move addr = addr) ∧
        HeapMoved s.heap.layout move (fun _ => False) (L.along s [.commit 1, .commit 2]).shared
          (L.along s [.commit 2, .commit 1]).shared (s.run [.commit 1, .commit 2]).2.heap
          (s.run [.commit 2, .commit 1]).2.heap := by
  obtain ⟨tx, tx', unrelated⟩ := unrelated_sideBySide
  refine ⟨_, _, tx, tx', lived_sideBySide, unrelated, by decide +kernel, ?_⟩
  rintro ⟨move, fixed, moved⟩
  obtain ⟨⟨r, hr, addr, pointer⟩, ⟨x, hx, addr', data⟩, stray, seven⟩ :
      (∃ r ∈ ((Ledger.empty.along .ofNodes sideBySide).along (Session.ofNodes.run sideBySide).2
        [.commit 1, .commit 2]).shared, r.addr = sharedStart + 96 ∧
          0 ∈ (Session.ofNodes.run sideBySide).2.heap.layout.fields r.typeId) ∧
      (∃ r ∈ ((Ledger.empty.along .ofNodes sideBySide).along (Session.ofNodes.run sideBySide).2
        [.commit 1, .commit 2]).shared, r.addr = sharedStart + 144 ∧ 24 < r.bodySize ∧
          ∀ offset ∈ (Session.ofNodes.run sideBySide).2.heap.layout.fields r.typeId,
            24 < offset ∨ offset + wordSize ≤ 24) ∧
      ((Session.ofNodes.run sideBySide).2.run [.commit 1, .commit 2]).2.heap.shared.memory.readWord
        (sharedStart + 96 + headerSize + 0) = sharedStart + 144 ∧
      ((Session.ofNodes.run sideBySide).2.run [.commit 1, .commit 2]).2.heap.shared.memory.get
        (sharedStart + 144 + headerSize + 24) = 7 := by decide +kernel
  obtain ⟨stray', nine⟩ :
      ((Session.ofNodes.run sideBySide).2.run [.commit 2, .commit 1]).2.heap.shared.memory.readWord
        (sharedStart + 96 + headerSize + 0) = sharedStart + 144 ∧
      ((Session.ofNodes.run sideBySide).2.run [.commit 2, .commit 1]).2.heap.shared.memory.get
        (sharedStart + 144 + headerSize + 24) = 9 := by decide +kernel
  -- the third node has the same word in both heaps
  have word := (moved.relocated r hr not_false).fields 0 pointer
  rw [Record.bodyAddr, addr, fixed (sharedStart + 96) (by decide +kernel), stray, stray'] at word
  -- but what lies there is one twin in the first heap, and the other in the second
  have byte := (moved.relocated x hx not_false).bytes 24 data.1 data.2
  rw [Record.bodyAddr, addr', ← word, seven, nine] at byte
  cases byte

end

end TxHeap

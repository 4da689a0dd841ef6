/-
  TxHeap.Proofs.Tokens — tokens tell objects apart.

  A token that is issued is held under one name, first by the transaction of the object and,
  when the object is promoted, by the heap under its twin. Nobody ever holds a token twice,
  and all that were issued lie below the next one in the identity space (`Minted`), so no
  address of an object is among them. Hence two objects have the same token just if they are
  the same object, whoever asks, as long as there are tokens left (`tokens_decide_equality`).

  The space has room for 2^41 tokens. A question may issue one, so the rule for two questions
  is that fewer than 2^41 - 1 were issued before.
-/
import TxHeap.Proofs.Names

namespace TxHeap

def Session.issued (s : Session) : Nat := (s.heap.nextToken - tokenStart) / wordSize

def tokenRoom : Nat := (nurseryStart - tokenStart) / wordSize

def Command.asksToken : Command → Bool
  | .token .. => true
  | _ => false

/-- The rule of a careful run that has a token left whenever it asks for one. -/
def supplied : Rule := fun s L c => careful s L c ∧ (c.asksToken = true → s.heap.nextToken < nurseryStart)

instance (s : Session) (L : Ledger) (c : Command) : Decidable (supplied s L c) := by
  unfold supplied
  infer_instance

theorem supplied_divides : supplied.Divides :=
  ⟨fun h => ⟨careful_divides.prepare h.1, nofun⟩, fun _ _ _ => ⟨careful_divides.apply .., nofun⟩,
    fun _ _ _ => ⟨careful_divides.finish .., nofun⟩⟩

/-- The rule of a careful run that does not exhaust the identity space. -/
def sparing : Rule := fun s L c => careful s L c ∧ (c.asksToken = true → s.issued + 1 < tokenRoom)

instance (s : Session) (L : Ledger) (c : Command) : Decidable (sparing s L c) := by
  unfold sparing
  infer_instance

/-- The token is entered for the name in a table of the heap or of an open transaction. -/
inductive Holds (s : Session) (k : Nat) : Name → Prop
  | shared {addr : Nat} : s.heap.tokens.get? addr = some k → Holds s k (.shared addr)
  | own {t addr : Nat} {tx : Transaction} : s.tx? t = some tx → tx.tokens.get? addr = some k → Holds s k (.own t addr)

structure Minted (s : Session) : Prop where
  start : tokenStart ≤ s.heap.nextToken
  stop : s.heap.nextToken ≤ nurseryStart
  whole : (s.heap.nextToken - tokenStart) % wordSize = 0
  range : ∀ n k, Holds s k n → tokenStart ≤ k ∧ k < s.heap.nextToken
  once : ∀ n n' k, Holds s k n → Holds s k n' → n = n'

section

variable {s s' : Session} {L : Ledger} {c : Command} {o : Outcome} {t t' obj k : Nat} {tx : Transaction} {n n' m : Name}

/-! ## Who holds a token -/

/-- No table has gained anything. -/
theorem Minted.still (h : Minted s) (next : s'.heap.nextToken = s.heap.nextToken)
    (holds : ∀ n k, Holds s' k n → Holds s k n) : Minted s' where
  start := next ▸ h.start
  stop := next ▸ h.stop
  whole := next ▸ h.whole
  range n k hk := next ▸ h.range n k (holds n k hk)
  once n n' k hk hk' := h.once n n' k (holds n k hk) (holds n' k hk')

theorem Minted.agrees (h : Minted s) (agrees : s.Agrees s') : Minted s' := by
  refine h.still agrees.nextToken ?_
  intro n k hk
  cases hk with
  | shared token => exact .shared (agrees.tokens ▸ token)
  | own htx token => exact .own (agrees.tx? _ ▸ htx) token

/-- A token is issued. -/
theorem Minted.issue (h : Minted s) (room : s.heap.nextToken < nurseryStart) (htx : s.tx? t = some tx) :
    Minted (s.advance.setTx t (some { tx with tokens := tx.tokens.insert obj s.heap.nextToken })) := by
  have start := h.start
  have whole := h.whole
  have next : (s.advance.setTx t (some { tx with tokens := tx.tokens.insert obj s.heap.nextToken })).heap.nextToken =
      s.heap.nextToken + wordSize := Session.nextToken_eq room
  have holds : ∀ n k, Holds (s.advance.setTx t (some { tx with tokens := tx.tokens.insert obj s.heap.nextToken })) k n →
      Holds s k n ∨ n = .own t obj ∧ k = s.heap.nextToken := by
    intro n k hk
    cases hk with
    | shared token => exact .inl (.shared token)
    | own htx' token =>
      obtain ⟨rfl, e⟩ | ⟨-, htx'⟩ := Session.tx?_setTx_cases htx'
      · cases e
        rw [TokenTable.get?_insert] at token
        split at token
        · rename_i e
          exact .inr ⟨by rw [e], (Option.some.inj token).symm⟩
        · exact .inl (.own htx token)
      · exact .inl (.own htx' token)
  have range := h.range
  refine ⟨?_, ?_, ?_, ?_, ?_⟩
  · rw [next]
    omega
  · rw [next]
    simp only [nurseryStart, tokenStart, wordSize] at *
    omega
  · rw [next, Nat.sub_add_comm start, Nat.add_mod_right]
    exact whole
  · intro n k hk
    rw [next]
    rcases holds n k hk with hk | ⟨-, rfl⟩
    · have := range n k hk
      omega
    · simp only [wordSize]
      omega
  · intro n n' k hk hk'
    rcases holds n k hk with old | ⟨rfl, e⟩ <;> rcases holds n' k hk' with old' | ⟨rfl, e'⟩
    · exact h.once n n' k old old'
    · have := (range n k old).2
      omega
    · have := (range n' k old').2
      omega
    · rfl

/-! ## What calls do to it -/

/-- A call that neither prepares nor asks for a token gives no transaction a token. -/
theorem Turn.tokens_of_ne {own : List Record} {addr : Nat} (turn : Turn s L t c o s' own tx) (hp : ∀ t, c ≠ .prepare t)
    (ha : ∀ t obj, c ≠ .token t obj) (token : tx.tokens.get? addr = some k) : Holds s k (.own t addr) := by
  cases turn with
  | same htx | grew htx | passed htx => exact .own htx token
  | created htx | copied htx | wrote htx => exact .own htx token
  | started =>
    rw [Transaction.fresh, TokenTable.get?_empty] at token
    cases token
  | issued => exact absurd rfl (ha _ _)
  | prepared | stopped | prepareFailed => exact absurd rfl (hp _)

/-- Nor does it give the heap one. -/
theorem Effect.tokens_of_ne (kept : Kept s L) (e : Effect s c o s') (hp : ∀ t, c ≠ .prepare t)
    (ha : ∀ t obj, c ≠ .token t obj) :
    s'.heap.tokens = s.heap.tokens ∧ s'.heap.nextToken = s.heap.nextToken := by
  cases e with
  | refused _ _ agrees | answered _ agrees | attached _ agrees
  | detached agrees | started _ _ _ _ agrees | aborted _ _ agrees | finished _ _ agrees | bumpedShared _ agrees
  | bumped _ _ _ agrees | createdShared _ _ agrees | created _ _ _ _ _ agrees | uncopied agrees
  | recopied _ _ _ _ _ _ agrees | copied _ _ _ _ _ _ _ _ _ _ _ agrees | stranded _ _ _ _ agrees
  | wroteShared _ _ _ agrees | wrote _ _ _ _ _ agrees | applied _ _ _ agrees =>
    simp only [agrees.tokens, agrees.nextToken, Session.setTx_heap, Session.setShared_tokens, Session.setShared_nextToken,
      Session.withHandles_tokens, Session.withHandles_nextToken, and_self]
  | tokenIssued | exhausted => exact absurd rfl (ha _ _)
  | prepared | prepareFailed | prepareStopped => exact absurd rfl (hp _)
  | applyStopped htx hphase _ hrun => exact ((kept.apply htx hphase).of_error hrun).elim

/-- Where the token of a name was before a preparation: with the promoted object, if the name is of a twin. -/
inductive Origin (moves : List (Record × Nat)) (t : Nat) : Name → Name → Prop
  | same {n : Name} : Origin moves t n n
  | moved {x : Record × Nat} : x ∈ moves → Origin moves t (.shared x.2) (.own t x.1.addr)

theorem Preparation.Rekeyed.origin {p : Preparation} {moves : List (Record × Nat)}
    (h : (Preparation.ofHeap s.heap tx).Rekeyed p moves) (htx : s.tx? t = some tx) (tokens : s'.heap.tokens = p.tokens)
    (own : ∀ t' x, s'.tx? t' = some x → t' = t ∧ x.tokens = p.tx.tokens ∨ t' ≠ t ∧ s.tx? t' = some x)
    (hk : Holds s' k n) : ∃ m, Origin moves t n m ∧ Holds s k m := by
  cases hk with
  | @shared addr token =>
    rw [tokens] at token
    by_cases found : ∃ x ∈ moves, x.2 = addr
    · obtain ⟨x, hx, rfl⟩ := found
      rw [h.moved x hx, Option.or_eq_some_iff] at token
      rcases token with token | ⟨-, token⟩
      · exact ⟨_, .moved hx, .own htx token⟩
      · exact ⟨_, .same, .shared token⟩
    · rw [h.shared addr fun x hx e => found ⟨x, hx, e⟩] at token
      exact ⟨_, .same, .shared token⟩
  | @own t' addr x hx token =>
    refine ⟨_, .same, ?_⟩
    rcases own t' x hx with ⟨rfl, e⟩ | ⟨-, hx⟩
    · rw [e] at token
      by_cases found : ∃ x ∈ moves, x.1.addr = addr
      · obtain ⟨x, hx, rfl⟩ := found
        rw [h.gone x hx] at token
        cases token
      · rw [h.own addr fun x hx e => found ⟨x, hx, e⟩] at token
        exact .own htx token
    · exact .own hx token

/-- A preparation hands tokens on, and does not double any. -/
theorem Going.minted {p : Preparation} {late : Prop} {g : Progress} (h : Minted s)
    (ready : Ready s.heap.layout (L.own t) L.shared (.ofHeap s.heap tx))
    (going : Going s.heap.layout (L.own t) L.shared (.ofHeap s.heap tx) late g p) (htx : s.tx? t = some tx)
    (tokens : s'.heap.tokens = p.tokens) (next : s'.heap.nextToken = s.heap.nextToken)
    (own : ∀ t' x, s'.tx? t' = some x → t' = t ∧ x.tokens = p.tx.tokens ∨ t' ≠ t ∧ s.tx? t' = some x) : Minted s' := by
  have origin := fun n k => going.tokens.origin (n := n) (k := k) htx tokens own
  refine ⟨next ▸ h.start, next ▸ h.stop, next ▸ h.whole, ?_, ?_⟩
  · intro n k hk
    obtain ⟨m, -, hm⟩ := origin n k hk
    exact next ▸ h.range m k hm
  -- a promoted object has lost its token, so no name has the origin of its twin
  have lost : ∀ x ∈ g.moves, ∀ k, ¬ Holds s' k (.own t x.1.addr) := by
    intro x hx k hk
    cases hk with
    | own hy token =>
      rcases own _ _ hy with ⟨-, e⟩ | ⟨ne, -⟩
      · rw [e, going.tokens.gone x hx] at token
        cases token
      · exact ne rfl
  intro n n' k hk hk'
  obtain ⟨m, om, hm⟩ := origin n k hk
  obtain ⟨m', om', hm'⟩ := origin n' k hk'
  cases h.once m m' k hm hm'
  cases om with
  | same =>
    cases om' with
    | same => rfl
    | moved hx => exact absurd hk (lost _ hx k)
  | @moved x hx =>
    generalize e : Name.own t x.1.addr = m at om'
    cases om' with
    | same => exact absurd (e ▸ hk') (lost _ hx k)
    | @moved x' hx' =>
      have hx : (x.1, x.2) ∈ g.moves := hx
      have hx' : (x'.1, x'.2) ∈ g.moves := hx'
      have same := Going.own_unique ready (going.fresh_of_moves hx).1 (going.fresh_of_moves hx').1 (Name.own.inj e).2
      obtain ⟨y, hy, addr⟩ := Progress.mem_moves.1 hx
      obtain ⟨y', hy', addr'⟩ := Progress.mem_moves.1 hx'
      rw [← same] at hy'
      rw [← addr, ← addr', going.twin_once hy hy']

theorem Effect.minted (h : Minted s) (kept : Kept s L) (care : careful s L c)
    (room : ∀ t obj, c = .token t obj → s.heap.nextToken < nurseryStart) (e : Effect s c o s') : Minted s' := by
  by_cases hp : ∃ t, c = .prepare t
  · obtain ⟨t, rfl⟩ := hp
    have adopted : ∀ {p : Preparation} {settle : Transaction → Transaction} {tx : Transaction}, s.tx? t = some tx →
        (s.adopt t p settle).Agrees s' → (settle p.tx).tokens = p.tx.tokens →
        ∀ t' x, s'.tx? t' = some x → t' = t ∧ x.tokens = p.tx.tokens ∨ t' ≠ t ∧ s.tx? t' = some x := by
      intro p settle tx htx agrees tokens t' x hx
      obtain ⟨rfl, same⟩ | ⟨ne, hx⟩ := Session.tx?_setTx_cases ((agrees.tx? t').symm.trans hx)
      · cases same
        exact .inl ⟨rfl, tokens⟩
      · exact .inr ⟨ne, hx⟩
    cases e with
    | refused _ _ agrees => exact h.agrees agrees
    | answered _ agrees => exact h.agrees agrees
    | attached hc => rcases hc with hc | hc <;> cases hc
    | prepared htx hactive hrun agrees =>
      obtain ⟨g, going, -⟩ := (kept.run htx hactive (care.2 t rfl)).of_ok hrun
      exact going.minted h (kept.ready htx hactive (care.2 t rfl)) htx agrees.tokens agrees.nextToken
        (adopted htx agrees rfl)
    | prepareFailed htx hactive hrun agrees =>
      obtain ⟨-, g, going⟩ := (kept.run htx hactive (care.2 t rfl)).of_error hrun
      exact going.minted h (kept.ready htx hactive (care.2 t rfl)) htx agrees.tokens agrees.nextToken
        (adopted htx agrees rfl)
    | prepareStopped htx hactive _ hrun agrees =>
      obtain ⟨-, g, going⟩ := (kept.run htx hactive (care.2 t rfl)).of_error hrun
      exact going.minted h (kept.ready htx hactive (care.2 t rfl)) htx agrees.tokens agrees.nextToken
        (adopted htx agrees rfl)
  · by_cases ha : ∃ t obj, c = .token t obj
    · obtain ⟨t, obj, rfl⟩ := ha
      cases e with
      | refused _ _ agrees => exact h.agrees agrees
      | answered _ agrees => exact h.agrees agrees
      | attached hc => rcases hc with hc | hc <;> cases hc
      | tokenIssued htx _ _ agrees => exact (h.issue (room t obj rfl) htx).agrees agrees
      | exhausted full => exact absurd (room t obj rfl) (Nat.not_lt_of_le full)
    · have hp : ∀ t, c ≠ .prepare t := fun t e => hp ⟨t, e⟩
      have ha : ∀ t obj, c ≠ .token t obj := fun t obj e => ha ⟨t, obj, e⟩
      obtain ⟨tokens, next⟩ := e.tokens_of_ne kept hp ha
      refine h.still next ?_
      intro n k hk
      cases hk with
      | shared token => exact .shared (tokens ▸ token)
      | own hx token => exact (e.turn (L := L) kept.ground hx).tokens_of_ne hp ha token

theorem Session.issued_room (h : s.issued + 1 < tokenRoom) : s.heap.nextToken + wordSize < nurseryStart := by
  have room : tokenRoom = 2 ^ 41 := by decide
  rw [Session.issued, room] at h
  simp only [tokenStart, nurseryStart, wordSize] at *
  omega

theorem minted_create {config : Config} {layout : Layout} {log : EventLog} (h : Session.create config layout log = .ok s) :
    Minted s := by
  have new := new_of_create h
  have nobody : ∀ n k, ¬ Holds s k n := by
    intro n k hk
    cases hk with
    | shared token =>
      rw [new.tokens, TokenTable.get?_empty] at token
      cases token
    | own htx =>
      rw [tx?_create h] at htx
      cases htx
  refine ⟨Nat.le_of_eq new.nextToken.symm, ?_, ?_, fun n k hk => absurd hk (nobody n k), fun n _ k hk => absurd hk (nobody n k)⟩
  · rw [new.nextToken]
    decide
  · rw [new.nextToken]
    decide

theorem Lived.mono {allowed allowed' : Rule} (h : Lived allowed s L) (more : ∀ s L c, allowed s L c → allowed' s L c) :
    Lived allowed' s L := by
  induction h with
  | created fits built hs => exact .created fits built hs
  | step _ hc ih => exact ih.step (more _ _ _ hc)

theorem Lived.minted_of_supplied (h : Lived supplied s L) : Minted s := by
  refine (h.alongside (I := fun s _ => Minted s) supplied_divides And.left minted_create ?_).2
  intro s L c kept minted supply e
  refine e.minted minted kept supply.1 ?_
  intro t obj e
  subst e
  exact supply.2 rfl

theorem Lived.minted (h : Lived sparing s L) : Minted s := by
  refine (h.mono fun s L c spare => ⟨spare.1, fun asks => ?_⟩).minted_of_supplied
  have := Session.issued_room (spare.2 asks)
  omega

/-! ## A question changes no name -/

/-- What a thread goes by when it names objects. -/
def Session.view (s : Session) (t : Nat) : Option (Option Arena) := (s.handle? t).map fun h => h.tx.map (·.nursery)

theorem Session.name?_of_view (h : s'.view t = s.view t) : s'.name? t obj = s.name? t obj := by
  rw [Session.view, Session.view] at h
  rw [Session.name?, Session.name?]
  cases hs : s.handle? t with
  | none =>
    rw [hs, Option.map_none, Option.map_eq_none_iff] at h
    rw [h]
  | some x =>
    rw [hs, Option.map_some, Option.map_eq_some_iff] at h
    obtain ⟨y, hy, e⟩ := h
    rw [hy, Option.map_some, Option.map_some]
    cases hx : x.tx <;> cases hy : y.tx <;> rw [hx, hy] at e
    · cases e
    · cases e
    · have e : Transaction.nursery _ = Transaction.nursery _ := Option.some.inj e
      simp only [e, Transaction.nameOf]

theorem Ledger.Visible.of_view (h : L.Visible s t obj) (same : s'.view t = s.view t) : L.Visible s' t obj := by
  obtain ⟨attached, found⟩ := h
  obtain ⟨x, hx⟩ := Option.isSome_iff_exists.1 attached
  rw [Session.view, Session.view, hx, Option.map_some, Option.map_eq_some_iff] at same
  obtain ⟨y, hy, e⟩ := same
  refine ⟨by rw [hy]; rfl, found.imp_left ?_⟩
  intro ⟨open', own⟩
  refine ⟨?_, own⟩
  rw [Session.tx?_of_handle? hx] at open'
  rw [Session.tx?_of_handle? hy, ← Option.isSome_map (f := Transaction.nursery), e, Option.isSome_map]
  exact open'

theorem view_token (s : Session) (t obj t' : Nat) : (s.step (.token t obj)).2.view t' = s.view t' := by
  have agreed : ∀ {s₁ s₂ : Session}, s₁.Agrees s₂ → s₂.view t' = s₁.view t' := by
    intro s₁ s₂ agrees
    rw [Session.view, Session.view, Session.handle?, Session.handle?, agrees.handles]
  have e : Effect s (.token t obj) _ _ := step_effect fun _ h => by cases h
  generalize (s.step (.token t obj)).1 = o at e
  generalize (s.step (.token t obj)).2 = s' at e
  cases e with
  | refused _ _ agrees | answered _ agrees => exact agreed agrees
  | attached hc => rcases hc with hc | hc <;> cases hc
  | exhausted _ agrees => exact (agreed agrees).trans rfl
  | tokenIssued htx _ _ agrees =>
    refine (agreed agrees).trans ?_
    rw [Session.view, Session.handle?_setTx, Option.map_map]
    show (s.handle? t').map _ = (s.handle? t').map _
    cases hh : s.handle? t' with
    | none => rfl
    | some h =>
      rw [Option.map_some, Option.map_some, Function.comp_apply]
      split
      · rename_i same
        have := Session.thread_of_handle? hh
        rw [← Session.tx?_of_handle? hh, ← this, same, htx]
        rfl
      · rfl

theorem nextToken_token (s : Session) (t obj : Nat) :
    (s.step (.token t obj)).2.heap.nextToken ≤ s.heap.nextToken + wordSize := by
  have e : Effect s (.token t obj) _ _ := step_effect nofun
  generalize (s.step (.token t obj)).1 = o at e
  generalize (s.step (.token t obj)).2 = s' at e
  cases e with
  | refused _ _ agrees | answered _ agrees =>
    rw [agrees.nextToken]
    exact Nat.le_add_right _ _
  | attached hc => rcases hc with hc | hc <;> cases hc
  | exhausted _ agrees | tokenIssued _ _ _ agrees =>
    rw [agrees.nextToken]
    exact Nat.mod_le _ _

/-- A private object goes by the same name where its nursery is the same. -/
theorem onto_of_view {addr : Nat} (h : s'.view t = s.view t) (htx : s.tx? t = some tx)
    (stands : tx.nursery.memory.standsFor? addr = none) : (Name.own t addr).onto s' = some (.own t addr) := by
  obtain ⟨x, hx, e⟩ := handle_of_tx? htx
  rw [Session.view, Session.view, hx, Option.map_some, Option.map_eq_some_iff] at h
  obtain ⟨y, hy, same⟩ := h
  rw [e, Option.map_some, Option.map_eq_some_iff] at same
  obtain ⟨ty, hty, nursery⟩ := same
  rw [Name.onto, Session.tx?_of_handle? hy, hty, Option.map_some, Transaction.nameOf, nursery, stands]

theorem Knows.onto_of_view (known : Knows s L k n) (same : ∀ t, s'.view t = s.view t) : n.onto s' = some n := by
  cases known with
  | shared => rfl
  | own htx _ stands => exact TxHeap.onto_of_view (same _) htx stands

theorem Seen.onto_of_view (seen : Seen s L t obj n) (same : s'.view t = s.view t) : n.onto s' = some n := by
  cases seen with
  | shared => rfl
  | own htx =>
    rw [Transaction.nameOf]
    split
    · rfl
    · exact TxHeap.onto_of_view same htx ‹_›

theorem Ledger.Visible.careful (h : L.Visible s t obj) (kept : Kept s L) (standing : s.AllStanding L) :
    careful s L (.token t obj) := by
  refine ⟨?_, nofun⟩
  intro x hx
  cases hx
  obtain ⟨-, ⟨open', r, hr, rfl⟩ | ⟨r, hr, rfl⟩⟩ := h
  · refine ⟨fun _ _ _ => ⟨r, hr, rfl⟩, fun hspace => ?_⟩
    obtain ⟨tx, htx⟩ := Option.isSome_iff_exists.1 open'
    exact absurd hspace (kept.ground.spaceOf_nursery htx ((standing t tx htx).places.contains hr))
  · refine ⟨fun tx htx hin => ?_, fun _ => ⟨r, hr, rfl⟩⟩
    rw [kept.ground.not_nursery htx (kept.shared.contains hr)] at hin
    cases hin

/-- A question for an object that is seen is answered, as long as a token is left. -/
theorem Seen.answered (seen : Seen s L t obj n) (standing : s.AllStanding L) (room : s.heap.nextToken < nurseryStart) :
    ∃ k, (s.step (.token t obj)).1 = .ok (.token k) := by
  rcases seen.token standing with ⟨k, -, perform⟩ | ⟨tx, -, -, -, -, hnone, perform⟩
  · exact ⟨k, congrArg Prod.fst (step_token perform).1⟩
  · obtain ⟨s', hs', -⟩ := perform_freshToken_new (t := t) hnone room
    exact ⟨_, congrArg Prod.fst (step_token (perform.trans hs')).1⟩

/-! ## Equality -/

def Name.addr : Name → Nat
  | .shared addr => addr
  | .own _ addr => addr

theorem step_canonical {h : Handle} {a : Nat} (hh : s.handle? t = some h) (hc : h.canonical s.heap obj = .ok a) :
    s.step (.canonical t (some obj)) = (.ok (.address? (some a)), s) := by
  have action : (Command.canonical t (some obj)).action = .address? <$> Action.canonical t (some obj) := rfl
  rw [step_map action]
  simp [Action.canonical, Action.query, Action.handle, hh, hc]

/-- What an object is normalized to is the address of its name. -/
theorem Seen.canonical (h : Seen s L t obj n) (standing : s.AllStanding L) :
    s.step (.canonical t (some obj)) = (.ok (.address? (some n.addr)), s) := by
  cases h with
  | shared hh _ hl =>
    refine step_canonical hh ?_
    rw [Handle.canonical, hl]
    rfl
  | own htx hin own =>
    obtain ⟨r, hr, rfl⟩ := own
    obtain ⟨h, hh, hx⟩ := handle_of_tx? htx
    have sees : h.sees r.addr = true := by
      rw [Handle.sees, hx]
      exact hin
    have locate : h.locate s.heap r.addr = .ok .nursery := by rw [Handle.locate, if_pos sees]
    have header := Arena.header_eq_ok.2 ⟨(standing t _ htx).places.header_spans hr, rfl⟩
    refine step_canonical hh ?_
    rw [Transaction.nameOf, Memory.standsFor?]
    simp only [Handle.canonical, locate, Handle.nursery, hx, bind, Except.bind, header, pure, Except.pure, Except.ok.injEq]
    split <;> simp only [*, Option.getD_some, Option.getD_none, Name.addr]

/-- The windows of two workers have no address in common. -/
theorem Grounded.same_window {tx' : Transaction} {a : Nat} (ground : Grounded s) (htx : s.tx? t = some tx)
    (htx' : s.tx? t' = some tx') (hin : tx.nursery.contains a = true) (hin' : tx'.nursery.contains a = true) : t = t' := by
  have apart : ∀ {t t' : Nat} {tx tx' : Transaction}, s.tx? t = some tx → s.tx? t' = some tx' →
      tx.nursery.contains a = true → tx'.nursery.contains a = true → ¬ t < t' := by
    intro t t' tx tx' htx htx' hin hin' lt
    have := ground.windows_apart htx htx' lt
    have := (Arena.contains_iff.1 hin).2
    have := (Arena.contains_iff.1 hin').1
    have := tx.nursery.used_le
    rw [Arena.freePointer] at *
    omega
  have := apart htx htx' hin hin'
  have := apart htx' htx hin' hin
  omega

/-- Objects of one address go by one name. -/
theorem Knows.eq_of_addr {k' : Nat} (h : Knows s L k n) (h' : Knows s L k' n') (kept : Kept s L)
    (standing : s.AllStanding L) (e : n.addr = n'.addr) : n = n' := by
  have apart : ∀ {r r' : Record} {t : Nat} {tx : Transaction}, r ∈ L.shared → s.tx? t = some tx → r' ∈ L.own t →
      r.addr ≠ r'.addr := by
    intro r r' t tx hr htx hr' e
    have out := kept.ground.not_nursery htx (kept.shared.contains hr)
    rw [e, (standing t tx htx).places.contains hr'] at out
    cases out
  cases h with
  | shared hr =>
    cases h' with
    | shared => exact congrArg Name.shared e
    | own htx hr' => exact absurd e (apart hr htx hr')
  | own htx hr =>
    cases h' with
    | shared hr' => exact absurd e.symm (apart hr' htx hr)
    | own htx' hr' =>
      have e : Record.addr _ = Record.addr _ := e
      have inside := (standing _ _ htx').places.contains hr'
      rw [← e] at inside
      rw [kept.ground.same_window htx htx' ((standing _ _ htx).places.contains hr) inside, e]

/-- An object has its token from a table, or it is shared and its token is its address. -/
theorem Knows.holds (h : Knows s L k n) : Holds s k n ∨ (∃ r ∈ L.shared, r.addr = k) ∧ n = .shared k := by
  cases h with
  | @shared r hr token =>
    rw [Heap.tokenOf] at token
    cases ht : s.heap.tokens.get? r.addr with
    | some k' =>
      rw [ht, Option.getD_some] at token
      subst token
      exact .inl (.shared ht)
    | none =>
      rw [ht, Option.getD_none] at token
      subst token
      exact .inr ⟨⟨r, hr, rfl⟩, rfl⟩
  | own htx _ _ token => exact .inl (.own htx token)

/-- Objects of one token go by one name. -/
theorem Knows.eq_of_token (h : Knows s L k n) (h' : Knows s L k n') (kept : Kept s L) (minted : Minted s) : n = n' := by
  have apart : ∀ {n}, Holds s k n → ¬ ∃ r ∈ L.shared, r.addr = k := by
    intro n hk ⟨r, hr, e⟩
    have := (minted.range n k hk).1
    have := (kept.ground.shared_lt (kept.shared.contains hr)).2
    omega
  rcases h.holds with hk | ⟨shared, rfl⟩ <;> rcases h'.holds with hk' | ⟨shared', rfl⟩
  · exact minted.once n n' k hk hk'
  · exact absurd shared' (apart hk)
  · exact absurd shared (apart hk')
  · rfl

/-- An object is hashed where its token is asked for. -/
theorem perform_hashOf (h : (s.step (.token t obj)).1 = .ok (.token k)) :
    s.perform (Action.hashOf t obj) = (.ok (scramble k), (s.step (.token t obj)).2) := by
  cases hp : s.perform (Action.tokenOf t obj) with
  | mk a s' =>
    obtain ⟨step, hash⟩ := step_token hp
    rw [step] at h ⊢
    rw [hash]
    cases a with
    | ok k' =>
      obtain rfl : k' = k := Reply.token.inj (Except.ok.inj h)
      rfl
    | error f => exact absurd h nofun

/-- What tells the objects of a session apart. -/
structure ToldApart (s : Session) (L : Ledger) : Prop where
  /-- Two objects, each as some thread sees it, have one token and one hash just if they are normalized to one address. -/
  equality : ∀ t x t' y, L.Visible s t x → L.Visible s t' y → ∃ k k' i i' a a',
    (s.run [.token t x, .token t' y]).1 = [.ok (.token k), .ok (.token k')] ∧
      (s.perform (Action.hashOf t x)).1 = .ok i ∧
      ((s.perform (Action.hashOf t x)).2.perform (Action.hashOf t' y)).1 = .ok i' ∧
      (s.run [.canonical t (some x), .canonical t' (some y)]).1 =
        [.ok (.address? (some a)), .ok (.address? (some a'))] ∧
      (k = k' ↔ a = a') ∧ (i = i' ↔ a = a')
  /-- A token that is held was issued, and is held once. -/
  held : ∀ n k, Holds s k n → tokenStart ≤ k ∧ k < s.heap.nextToken ∧ ∀ n', Holds s k n' → n' = n
  /-- No token that was ever issued is the address of an object. -/
  apart : ∀ k, tokenStart ≤ k → k < s.heap.nextToken → (∀ r ∈ L.shared, r.addr ≠ k) ∧
    ∀ t, (s.tx? t).isSome = true → ∀ r ∈ L.own t, r.addr ≠ k

/-- Two questions, one after the other. -/
theorem two_tokens {x y : Nat} (life : Lived careful s L) (minted : Minted s)
    (room : s.heap.nextToken + wordSize < nurseryStart) (hx : L.Visible s t x) (seen : Seen s L t x n)
    (hy : L.Visible s t' y) (seen' : Seen s L t' y n') :
    ∃ k k', (s.run [.token t x, .token t' y]).1 = [.ok (.token k), .ok (.token k')] ∧ (k = k' ↔ n.addr = n'.addr) := by
  have careful₁ := hx.careful life.kept life.standing
  obtain ⟨k, ok⟩ := seen.answered life.standing (by omega)
  have view := view_token s t x
  have ledger : L.after s (.token t x) = L := by
    show L.record s (.token t x) (s.step (.token t x)).1 (s.step (.token t x)).2 = L
    rw [ok]
    rfl
  have name : n.after s (.token t x) = some n := by
    show (n.onto (s.step (.token t x)).2).bind _ = _
    rw [seen.onto_of_view (view t)]
    rfl
  have known := seen.asked life careful₁ ok name
  have life₁ := life.step careful₁
  have minted₁ := (step_effect (s := s) (c := .token t x) nofun).minted minted life.kept careful₁ fun _ _ _ => by omega
  have room₁ : (s.step (.token t x)).2.heap.nextToken < nurseryStart :=
    Nat.lt_of_le_of_lt (nextToken_token s t x) room
  rw [ledger] at known life₁
  generalize hs₁ : (s.step (.token t x)).2 = s₁ at *
  -- the second object goes by its name still
  have visible := hy.of_view (view t')
  obtain ⟨m, seen₁⟩ := visible.seen life₁.kept life₁.standing
  have same : m = n' :=
    Option.some.inj (seen₁.name?.symm.trans ((Session.name?_of_view (view t')).trans seen'.name?))
  subst same
  have careful₂ := visible.careful life₁.kept life₁.standing
  obtain ⟨k', ok'⟩ := seen₁.answered life₁.standing room₁
  have view₂ := view_token s₁ t' y
  have after : ∀ {i : Name}, i.onto (s₁.step (.token t' y)).2 = some i → i.after s₁ (.token t' y) = some i := by
    intro i hi
    show (i.onto (s₁.step (.token t' y)).2).bind _ = _
    rw [hi]
    rfl
  have known' := seen₁.asked life₁ careful₂ ok' (after (seen₁.onto_of_view (view₂ t')))
  have known := known.after life₁ careful₂ (after (known.onto_of_view view₂))
  have kept₂ := (life₁.step careful₂).kept
  have minted₂ := (step_effect (s := s₁) (c := .token t' y) nofun).minted minted₁ life₁.kept careful₂ fun _ _ _ => room₁
  refine ⟨k, k', ?_, ?_, ?_⟩
  · simp only [Session.run, ok, hs₁, ok']
  · rintro rfl
    exact congrArg Name.addr (known.eq_of_token known' kept₂ minted₂)
  · intro e
    cases known.eq_of_addr known' kept₂ (life₁.step careful₂).standing e
    exact Option.some.inj (known.token?_eq.symm.trans known'.token?_eq)

/--
Tokens tell objects apart, whoever asks for them, while fewer than the identity space has
room for were issued, up to one.
-/
theorem tokens_decide_equality (life : Lived sparing s L) (room : s.issued + 1 < tokenRoom) : ToldApart s L := by
  have minted := life.minted
  have life : Lived careful s L := life.mono fun _ _ _ h => h.1
  have kept := life.kept
  have standing := life.standing
  refine ⟨?_, ?_, ?_⟩
  · intro t x t' y hx hy
    obtain ⟨n, seen⟩ := hx.seen kept standing
    obtain ⟨n', seen'⟩ := hy.seen kept standing
    obtain ⟨k, k', answers, same⟩ := two_tokens life minted (Session.issued_room room) hx seen hy seen'
    have first : (s.step (.token t x)).1 = .ok (.token k) := (List.cons.inj answers).1
    have second : ((s.step (.token t x)).2.step (.token t' y)).1 = .ok (.token k') :=
      (List.cons.inj (List.cons.inj answers).2).1
    refine ⟨k, k', scramble k, scramble k', n.addr, n'.addr, answers, ?_, ?_, ?_, same, ?_⟩
    · rw [perform_hashOf first]
    · rw [perform_hashOf first, perform_hashOf second]
    · simp only [Session.run, seen.canonical standing, seen'.canonical standing]
    · rw [← same]
      exact ⟨scramble_injective, congrArg scramble⟩
  · intro n k hk
    obtain ⟨start, stop⟩ := minted.range n k hk
    exact ⟨start, stop, fun n' hk' => minted.once n' n k hk' hk⟩
  · intro k start stop
    have below := minted.stop
    refine ⟨?_, ?_⟩
    · intro r hr e
      have := (kept.ground.shared_lt (kept.shared.contains hr)).2
      omega
    · intro t open' r hr e
      obtain ⟨tx, htx⟩ := Option.isSome_iff_exists.1 open'
      have := (Arena.contains_iff.1 ((standing t tx htx).places.contains hr)).1
      have := (kept.ground.workers t tx htx).2
      omega

/-- One worker asks for a node and aborts after a prepare; another asks for its own node. -/
def forgotten : List Command :=
  let root := sharedStart
  let copy := nurseryStart
  let other := nurseryStart + 65536
  [.attachMain, .create mainThread 0, .attachWorker, .attachWorker, .start 1, .copyOnWrite 1 root, .create 1 0,
    .write 1 copy 0 (copy + 48), .token 1 (copy + 48), .prepare 1, .abort 1, .start 2, .create 2 0, .token 2 other,
    .create 2 0]

/-- The twin that was forgotten has kept its token. -/
theorem tokens_decide_equality_forgotten :
    (Ledger.empty.along .ofNodes forgotten).Visible (Session.ofNodes.run forgotten).2 mainThread (sharedStart + 48) ∧
      (Ledger.empty.along .ofNodes forgotten).Visible (Session.ofNodes.run forgotten).2 2 (nurseryStart + 65536) ∧
      (Session.ofNodes.run forgotten).2.heap.tokens.get? (sharedStart + 48) = some tokenStart ∧
      ToldApart (Session.ofNodes.run forgotten).2 (Ledger.empty.along .ofNodes forgotten) := by
  have life : Lived sparing (Session.ofNodes.run forgotten).2 (Ledger.empty.along .ofNodes forgotten) :=
    .ofNodes (by decide +kernel)
  exact ⟨by decide +kernel, by decide +kernel, by decide +kernel, tokens_decide_equality life (by decide +kernel)⟩

end

end TxHeap

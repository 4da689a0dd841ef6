/-
  TxHeap.Proofs.Names — an object keeps its token for life.

  What an object goes by (`Name`) is its shared address, or its place in the nursery of a
  thread: a working copy goes by its shared object and a promoted object by its twin,
  whoever asks. A name is followed through a run (`Name.along`): a shared object keeps its
  name, and a private one keeps it until the prepare that promotes it, or loses it with its
  transaction.

  Once a token has been given for an object, every later question for the object, by any
  name and any thread that sees it, is answered with the same token
  (`tokens_are_stable`). The token of a private object lies in the table of its transaction,
  and in that of the heap from the promotion on (`Knows`).
-/
import TxHeap.Proofs.Hashes
import TxHeap.Proofs.OwnView
import TxHeap.Proofs.Standing

namespace TxHeap

inductive Name where
  | shared (addr : Nat)
  /-- An object of the open transaction of a thread, which is no copy and was not promoted. -/
  | own (thread addr : Nat)
  deriving DecidableEq, Repr

def Transaction.nameOf (tx : Transaction) (t obj : Nat) : Name :=
  match tx.nursery.memory.standsFor? obj with
  | some shared => .shared shared
  | none => .own t obj

/-- What an attached thread means by an address. -/
def Session.name? (s : Session) (t obj : Nat) : Option Name :=
  (s.handle? t).map fun h =>
    match h.tx with
    | some tx => if tx.nursery.contains obj then tx.nameOf t obj else .shared obj
    | none => .shared obj

namespace Name

/-- What the object goes by in the next session, if it is still there. -/
def onto (s' : Session) : Name → Option Name
  | .shared addr => some (.shared addr)
  | .own t addr => (s'.tx? t).map (·.nameOf t addr)

def follow (s : Session) : List Command → Name → Option Name
  | [], n => some n
  | c :: cs, n => (n.onto (s.step c).2).bind (follow (s.step c).2 cs)

def after (s : Session) (c : Command) (n : Name) : Option Name := n.follow s (s.parts c)

def along (s : Session) : List Command → Name → Option Name
  | [], n => some n
  | c :: cs, n => (n.after s c).bind (along (s.step c).2 cs)

end Name

/-- The token of the object of that name, if it has one already. -/
def Session.token? (s : Session) : Name → Option Nat
  | .shared addr => some (s.heap.tokenOf addr)
  | .own t addr => (s.tx? t).bind (·.tokens.get? addr)

/-- The object of that name is there and has the token. -/
inductive Knows (s : Session) (L : Ledger) (k : Nat) : Name → Prop
  | shared {r : Record} : r ∈ L.shared → s.heap.tokenOf r.addr = k → Knows s L k (.shared r.addr)
  | own {t : Nat} {tx : Transaction} {r : Record} : s.tx? t = some tx → r ∈ L.own t →
      tx.nursery.memory.standsFor? r.addr = none → tx.tokens.get? r.addr = some k → Knows s L k (.own t r.addr)

section

variable {s s' : Session} {L : Ledger} {c : Command} {o : Outcome} {t t' obj k : Nat} {tx : Transaction} {r : Record} {n n' : Name}

theorem Knows.token?_eq (h : Knows s L k n) : s.token? n = some k := by
  cases h with
  | shared _ token => rw [Session.token?, token]
  | own htx _ _ token => rw [Session.token?, htx, Option.bind_some, token]

/-! ## What a thread sees -/

/-- The thread is attached, and the object is shared or one of its open transaction. -/
def Ledger.Visible (L : Ledger) (s : Session) (t obj : Nat) : Prop :=
  (s.handle? t).isSome = true ∧
    ((s.tx? t).isSome = true ∧ (∃ r ∈ L.own t, r.addr = obj) ∨ ∃ r ∈ L.shared, r.addr = obj)

instance : Decidable (L.Visible s t obj) := by
  unfold Ledger.Visible
  infer_instance

theorem Session.name?_own (htx : s.tx? t = some tx) (hin : tx.nursery.contains obj = true) :
    s.name? t obj = some (tx.nameOf t obj) := by
  obtain ⟨h, hh, hx⟩ := handle_of_tx? htx
  simp only [Session.name?, hh, hx, hin, if_pos, Option.map_some]

theorem Session.name?_shared {h : Handle} (hh : s.handle? t = some h) (hout : h.sees obj = false) :
    s.name? t obj = some (.shared obj) := by
  rw [Session.name?, hh, Option.map_some]
  cases hx : h.tx with
  | none => rfl
  | some tx =>
    rw [Handle.sees, hx] at hout
    simp only [show tx.nursery.contains obj = false from hout, Bool.false_eq_true, if_false]

inductive Seen (s : Session) (L : Ledger) (t obj : Nat) : Name → Prop
  | shared {h : Handle} : s.handle? t = some h → h.sees obj = false → h.locate s.heap obj = .ok .shared →
      (∃ r ∈ L.shared, r.addr = obj) → Seen s L t obj (.shared obj)
  | own {tx : Transaction} : s.tx? t = some tx → tx.nursery.contains obj = true → (∃ r ∈ L.own t, r.addr = obj) →
      Seen s L t obj (tx.nameOf t obj)

theorem Seen.name? (h : Seen s L t obj n) : s.name? t obj = some n := by
  cases h with
  | shared hh hout => exact Session.name?_shared hh hout
  | own htx hin => exact Session.name?_own htx hin

theorem Ledger.Visible.seen (h : L.Visible s t obj) (kept : Kept s L) (standing : s.AllStanding L) :
    ∃ n, Seen s L t obj n := by
  obtain ⟨attached, ⟨open', r, hr, rfl⟩ | ⟨r, hr, rfl⟩⟩ := h
  · obtain ⟨tx, htx⟩ := Option.isSome_iff_exists.1 open'
    exact ⟨_, .own htx ((standing t tx htx).places.contains hr) ⟨r, hr, rfl⟩⟩
  · obtain ⟨h, hh⟩ := Option.isSome_iff_exists.1 attached
    have inside := kept.shared.contains hr
    have unseen : h.sees r.addr = false := by
      rw [Handle.sees]
      cases hx : h.tx with
      | none => rfl
      | some tx => exact kept.ground.not_nursery ((Session.tx?_of_handle? hh).trans hx) inside
    refine ⟨_, .shared hh unseen ?_ ⟨r, hr, rfl⟩⟩
    rw [Handle.locate, unseen, if_neg Bool.false_ne_true, if_pos (kept.ground.spaceOf_shared inside)]

/-- A question that was answered was for an object that the thread sees. -/
theorem visible_of_token (care : careful s L (.token t obj)) (ok : (s.step (.token t obj)).1 = .ok (.token k)) :
    L.Visible s t obj := by
  have action : (Command.token t obj).action = .token <$> Action.tokenOf t obj := rfl
  obtain ⟨own, shared⟩ := care.1 (t, obj) rfl
  rw [step_map action] at ok
  cases hh : s.handle? t with
  | none => simp [Action.tokenOf, Action.query, Action.handle, hh] at ok
  | some h =>
    refine ⟨by rw [hh]; rfl, ?_⟩
    cases hl : h.locate s.heap obj with
    | error f => simp [Action.tokenOf, Action.query, Action.handle, hh, hl] at ok
    | ok l =>
      rcases locate_eq_ok hl with ⟨-, tx, hx, hin⟩ | ⟨-, hspace, -⟩
      · have htx := (Session.tx?_of_handle? hh).trans hx
        exact .inl ⟨by rw [htx]; rfl, own tx htx hin⟩
      · exact .inr (shared hspace)

/-! ## Asking for a token -/

theorem perform_token_shared {h : Handle} (hh : s.handle? t = some h) (hl : h.locate s.heap obj = .ok .shared) :
    s.perform (Action.tokenOf t obj) = (.ok (s.heap.tokenOf obj), s) := by
  simp [Session.perform, Action.tokenOf, Action.query, Action.handle, hh, hl]

/-- A question for an object of the own nursery. -/
theorem perform_token_own (htx : s.tx? t = some tx) (hin : tx.nursery.contains obj = true)
    (spans : tx.nursery.Spans obj headerSize) :
    s.perform (Action.tokenOf t obj) =
      match tx.nursery.memory.standsFor? obj with
      | some shared => (.ok (s.heap.tokenOf shared), s)
      | none => s.perform (Action.freshToken t obj tx) := by
  obtain ⟨h, hh, hx⟩ := handle_of_tx? htx
  have sees : h.sees obj = true := by
    rw [Handle.sees, hx]
    exact hin
  have locate : h.locate s.heap obj = .ok .nursery := by rw [Handle.locate, if_pos sees]
  have header : tx.nursery.header obj = .ok (tx.nursery.memory.headerAt obj) := Arena.header_eq_ok.2 ⟨spans, rfl⟩
  rw [Memory.standsFor?]
  cases hv : (tx.nursery.memory.headerAt obj).version.address? <;>
    simp [Session.perform, Action.tokenOf, Action.query, Action.handle, Action.openTx, hh, hx, locate, header, hv]

theorem perform_freshToken_known (known : tx.tokens.get? obj = some k) :
    s.perform (Action.freshToken t obj tx) = (.ok k, s) := by
  simp [Session.perform, Action.freshToken, known]

theorem perform_freshToken_new (hnone : tx.tokens.get? obj = none) (room : s.heap.nextToken < nurseryStart) :
    ∃ s', s.perform (Action.freshToken t obj tx) = (.ok s.heap.nextToken, s') ∧
      (s.advance.setTx t (some { tx with tokens := tx.tokens.insert obj s.heap.nextToken })).Agrees s' := by
  have issue : s.heap.issueToken = (.ok s.heap.nextToken,
      { s.heap with
        nextToken := (s.heap.nextToken + wordSize) % wordLimit
        counters := s.heap.counters.recordToken }) := by
    rw [Heap.issueToken, if_neg (Nat.not_le_of_lt room)]
  refine ⟨(Session.setTx { s with heap := s.heap.issueToken.2 } t
    (some { tx with tokens := tx.tokens.insert obj s.heap.nextToken })).note (.tokenIssued s.heap.nextToken obj), ?_, ?_⟩
  · simp [Session.perform, Action.freshToken, hnone, issue, Action.setTx, Action.note]
  · rw [issue]
    exact ⟨rfl, rfl, rfl, rfl, rfl, rfl, rfl⟩

theorem step_token {a : Except Failure Nat} (h : s.perform (Action.tokenOf t obj) = (a, s')) :
    s.step (.token t obj) = (a.map Reply.token, s') ∧ s.perform (Action.hashOf t obj) = (a.map scramble, s') := by
  have token := s.perform_map Reply.token (Action.tokenOf t obj)
  have hash := s.perform_map scramble (Action.tokenOf t obj)
  rw [h] at token hash
  exact ⟨token, hash⟩

/-- A question for an object that is seen is answered with its token if it has one, and else with the next. -/
theorem Seen.token (h : Seen s L t obj n) (standing : s.AllStanding L) :
    (∃ k, Knows s L k n ∧ s.perform (Action.tokenOf t obj) = (.ok k, s)) ∨
      ∃ tx, n = .own t obj ∧ s.tx? t = some tx ∧ (∃ r ∈ L.own t, r.addr = obj) ∧
        tx.nursery.memory.standsFor? obj = none ∧ tx.tokens.get? obj = none ∧
        s.perform (Action.tokenOf t obj) = s.perform (Action.freshToken t obj tx) := by
  cases h with
  | shared hh hout hl shared =>
    obtain ⟨r, hr, rfl⟩ := shared
    exact .inl ⟨_, .shared hr rfl, perform_token_shared hh hl⟩
  | own htx hin own =>
    obtain ⟨r, hr, rfl⟩ := own
    have stands := (standing t _ htx).stands r hr
    have perform := perform_token_own htx hin ((standing t _ htx).places.header_spans hr)
    rw [Transaction.nameOf]
    cases he : (Transaction.nursery _).memory.standsFor? r.addr with
    | some a =>
      rw [he] at perform
      obtain ⟨o, ho, rfl⟩ := stands a he
      exact .inl ⟨_, .shared ho rfl, perform⟩
    | none =>
      rw [he] at perform
      cases hk : (Transaction.tokens _).get? r.addr with
      | some k => exact .inl ⟨k, .own htx hr he hk, perform.trans (perform_freshToken_known hk)⟩
      | none => exact .inr ⟨_, rfl, htx, ⟨r, hr, rfl⟩, he, hk, perform⟩

/-! ## What is known stays known -/

theorem knows_own {addr : Nat} (htx : s.tx? t = some tx) (own : ∃ r ∈ L.own t, r.addr = addr)
    (stands : tx.nursery.memory.standsFor? addr = none) (token : tx.tokens.get? addr = some k) :
    Knows s L k (tx.nameOf t addr) := by
  obtain ⟨r, hr, rfl⟩ := own
  rw [Transaction.nameOf, stands]
  exact .own htx hr stands token

/-- Tokens are recorded by preparations only. -/
theorem Effect.tokens_cases (h : Kept s L) (care : careful s L c) (e : Effect s c o s') :
    s'.heap.tokens = s.heap.tokens ∨ ∃ t tx g p, Going s.heap.layout (L.own t) L.shared (.ofHeap s.heap tx) True g p ∧
      s'.heap.tokens = p.tokens ∧ s'.heap.shared = p.shared := by
  cases e with
  | refused _ _ agrees | answered _ agrees | tokenIssued _ _ _ agrees | exhausted _ agrees | attached _ agrees
  | detached agrees | started _ _ _ _ agrees | aborted _ _ agrees | finished _ _ agrees | bumpedShared _ agrees
  | bumped _ _ _ agrees | createdShared _ _ agrees | created _ _ _ _ _ agrees | uncopied agrees
  | recopied _ _ _ _ _ _ agrees | copied _ _ _ _ _ _ _ _ _ _ _ agrees | stranded _ _ _ _ agrees
  | wroteShared _ _ _ agrees | wrote _ _ _ _ _ agrees | applied _ _ _ agrees =>
    refine .inl ?_
    simp only [agrees.tokens, Session.setTx_heap, Session.setShared_tokens, Session.advance_tokens,
      Session.withHandles_tokens]
  | @prepared t _ _ _ _ htx hactive hrun agrees =>
    obtain ⟨g, going, -⟩ := (h.run htx hactive (care.2 t rfl)).of_ok hrun
    exact .inr ⟨t, _, g, _, going, agrees.tokens, agrees.shared⟩
  | @prepareFailed t _ _ _ _ htx hactive hrun agrees =>
    obtain ⟨-, g, going⟩ := (h.run htx hactive (care.2 t rfl)).of_error hrun
    exact .inr ⟨t, _, g, _, going, agrees.tokens, agrees.shared⟩
  | @prepareStopped t _ _ _ _ htx hactive hf hrun agrees =>
    obtain ⟨-, g, going⟩ := (h.run htx hactive (care.2 t rfl)).of_error hrun
    exact .inr ⟨t, _, g, _, going, agrees.tokens, agrees.shared⟩
  | applyStopped htx hp _ hrun => exact ((h.apply htx hp).of_error hrun).elim

/-- The tokens of objects that are shared already do not change. -/
theorem Effect.tokens_get? (h : Kept s L) (care : careful s L c) (e : Effect s c o s') (hr : r ∈ L.shared) :
    s'.heap.tokens.get? r.addr = s.heap.tokens.get? r.addr := by
  rcases e.tokens_cases h care with tokens | ⟨t, tx, g, p, going, tokens, -⟩
  · rw [tokens]
  · rw [tokens]
    refine going.tokens.shared r.addr ?_
    intro x hx e
    -- the twin lies above everything that was there
    obtain ⟨t, ht, addr⟩ := Progress.mem_moves.1 hx
    have above : s.heap.shared.freePointer ≤ t.addr := (going.above x.1 t ht).1
    have := (h.shared.inside r hr).2
    have := h.shared.headerSize_le hr
    simp only [Record.stop, headerSize, wordSize] at *
    omega

/-- After a preparation an object has the token it had, or its twin has. -/
theorem Going.knows {tx' : Transaction} {p : Preparation} {late : Prop} {g : Progress} {L' : Ledger} (kept : Kept s L)
    (ready : Ready s.heap.layout (L.own t) L.shared (.ofHeap s.heap tx))
    (going : Going s.heap.layout (L.own t) L.shared (.ofHeap s.heap tx) late g p) (htx : s.tx? t = some tx)
    (hactive : tx.phase = .active) (hr : r ∈ L.own t) (stands : tx.nursery.memory.standsFor? r.addr = none)
    (token : tx.tokens.get? r.addr = some k) (htx' : s'.tx? t = some tx') (nursery : tx'.nursery = p.tx.nursery)
    (own : L'.own t = L.own t) (tokens : s'.heap.tokens = p.tokens) (ownTokens : tx'.tokens = p.tx.tokens)
    (twins : ∀ x ∈ g.moves, ∃ o ∈ L'.shared, o.addr = x.2) : Knows s' L' k (tx'.nameOf t r.addr) := by
  have intact := kept.intact t tx htx hactive
  rcases going.standsFor?_cases ready (fun _ hk => intact.root_ne_zero hr hk) hr with
    ⟨root, hk, -⟩ | ⟨twin, hm, e⟩ | ⟨unmoved, e⟩
  · rw [intact.standsFor?_copy hr hk] at stands
    cases stands
  · obtain ⟨o, ho, rfl⟩ := twins _ hm
    rw [Transaction.nameOf, nursery, e]
    refine .shared ho ?_
    have moved := going.tokens.moved _ hm
    rw [show (Preparation.ofHeap s.heap tx).tx.tokens.get? r.addr = some k from token, Option.some_or] at moved
    rw [Heap.tokenOf, tokens, moved]
    rfl
  · refine knows_own htx' ⟨r, own ▸ hr, rfl⟩ (by rw [nursery]; exact e) ?_
    rw [ownTokens, going.tokens.own r.addr ?_]
    · exact token
    · intro x hx e
      cases Going.own_unique ready (going.fresh_of_moves hx).1 hr e
      exact unmoved x.2 hx

/-- A private object that a call leaves in an active transaction. -/
theorem knows_active {tx' : Transaction} {L' : Ledger} (intact : Intact s.heap.layout (L.own t) tx)
    (intact' : Intact s.heap.layout (L'.own t) tx') (hr : r ∈ L.own t)
    (stands : tx.nursery.memory.standsFor? r.addr = none) (token : tx.tokens.get? r.addr = some k)
    (htx' : s'.tx? t = some tx') (tokens : tx'.tokens = tx.tokens)
    (stays : ∃ r' ∈ L'.own t, r'.addr = r.addr ∧ r'.kind = r.kind) : Knows s' L' k (tx'.nameOf t r.addr) := by
  have fresh : r.kind = .fresh := by
    rcases intact.kinds r hr with hk | ⟨root, hk, -⟩
    · exact hk
    · rw [intact.standsFor?_copy hr hk] at stands
      cases stands
  obtain ⟨r', hr', addr, kind⟩ := stays
  refine knows_own htx' ⟨r', hr', addr⟩ ?_ (by rw [tokens]; exact token)
  rw [← addr]
  exact intact'.standsFor?_fresh hr' (kind.trans fresh)

theorem Turn.knows {own : List Record} {tx' : Transaction} (turn : Turn s L t c o s' own tx')
    (hown : (L.record s c o s').own t = own) (htx' : s'.tx? t = some tx') (kept : Kept s L) (care : careful s L c)
    (unstopped : Unstopped s c o) (htx : s.tx? t = some tx) (hr : r ∈ L.own t)
    (stands : tx.nursery.memory.standsFor? r.addr = none) (token : tx.tokens.get? r.addr = some k) :
    Knows s' (L.record s c o s') k (tx'.nameOf t r.addr) := by
  have intact' : tx'.phase = .active → Intact s.heap.layout ((L.record s c o s').own t) tx' :=
    fun hactive => hown ▸ turn.intact kept.ground.sound (kept.intact t) care.storesAim (fun _ => unstopped) hactive
  -- the turn was taken by the transaction that is known
  have same : ∀ {tx₁}, s.tx? t = some tx₁ → tx₁ = tx := fun h => Option.some.inj (h.symm.trans htx)
  cases turn with
  | same htx₁ | passed htx₁ =>
    cases same htx₁
    exact knows_own htx' ⟨r, hown ▸ hr, rfl⟩ stands token
  | started hnone =>
    rw [htx] at hnone
    cases hnone
  | issued htx₁ hnone =>
    cases same htx₁
    refine knows_own htx' ⟨r, hown ▸ hr, rfl⟩ stands ?_
    rw [TokenTable.get?_insert]
    split
    · rename_i e
      rw [← e, token] at hnone
      cases hnone
    · exact token
  | grew htx₁ grew =>
    cases same htx₁
    exact knows_own htx' ⟨r, hown ▸ hr, rfl⟩ (by rw [grew.memory]; exact stands) token
  | created htx₁ hactive =>
    cases same htx₁
    exact knows_active (kept.intact t tx htx hactive) (intact' hactive) hr stands token htx' rfl
      ⟨r, hown ▸ List.mem_append_left _ hr, rfl, rfl⟩
  | copied htx₁ hactive =>
    cases same htx₁
    exact knows_active (kept.intact t tx htx hactive) (intact' hactive) hr stands token htx' rfl
      ⟨r, hown ▸ List.mem_append_left _ hr, rfl, rfl⟩
  | wrote htx₁ hactive =>
    cases same htx₁
    refine knows_active (kept.intact t tx htx hactive) (intact' hactive) hr stands token htx' rfl ?_
    rw [hown]
    refine ⟨_, List.mem_map_of_mem hr, ?_⟩
    split <;> exact ⟨rfl, rfl⟩
  | prepared htx₁ hactive hrun _ tokens =>
    cases same htx₁
    obtain ⟨g, going, -⟩ := (kept.run htx hactive (care.2 t rfl)).of_ok hrun
    have ready := kept.ready htx hactive (care.2 t rfl)
    exact going.knows kept ready htx hactive hr stands token htx' rfl hown tokens rfl
      (going.twins_entered ready htx hactive htx' rfl)
  | prepareFailed htx₁ hactive hrun _ tokens =>
    cases same htx₁
    obtain ⟨-, g, going⟩ := (kept.run htx hactive (care.2 t rfl)).of_error hrun
    have ready := kept.ready htx hactive (care.2 t rfl)
    exact going.knows kept ready htx hactive hr stands token htx' rfl hown tokens rfl
      (going.twins_entered ready htx hactive htx' rfl)
  | stopped htx₁ hactive hf => exact (unstopped.not_stopped htx₁ hactive hf).elim

/-- A token that is known stays known, whatever the object goes by afterwards. -/
theorem Effect.knows (kept : Kept s L) (care : careful s L c) (e : Effect s c o s') (known : Knows s L k n)
    (hn : n.onto s' = some n') : Knows s' (L.record s c o s') k n' := by
  have unstopped := kept.unstopped care e
  cases known with
  | @shared r hr token =>
    cases hn
    obtain ⟨r', hr', addr⟩ := (e.entry kept.ground).remains kept unstopped r hr
    rw [← addr]
    refine .shared hr' ?_
    rw [Heap.tokenOf, addr, e.tokens_get? kept care hr]
    exact token
  | @own t tx r htx hr stands token =>
    obtain ⟨tx', htx', rfl⟩ := Option.map_eq_some_iff.1 hn
    exact (e.turn kept.ground htx').knows rfl htx' kept care unstopped htx hr stands token

/-- The parts of a command, one after the other. -/
theorem Knows.follow {cs : List Command} (life : Lived careful s L) (allowed : AllAllowed careful s L cs)
    (whole : ∀ c ∈ cs, ∀ t, c ≠ .commit t) (known : Knows s L k n) (hn : n.follow s cs = some n') :
    Knows (s.run cs).2 (L.follow s cs) k n' := by
  induction cs generalizing s L n with
  | nil =>
    cases hn
    exact known
  | cons c cs ih =>
    obtain ⟨m, hm, hn⟩ := Option.bind_eq_some_iff.1 hn
    have hc := whole c List.mem_cons_self
    have parts : s.parts c = [c] := by
      cases c <;> first | rfl | exact absurd rfl (hc _)
    have after : L.after s c = L.enter s c := by
      rw [Ledger.after, parts]
      rfl
    have next := (step_effect hc).knows life.kept allowed.1 known hm
    exact ih (L := L.enter s c) (after ▸ life.step allowed.1) (after ▸ allowed.2)
      (fun c' hc' => whole c' (List.mem_cons_of_mem c hc')) next hn

theorem Knows.after (life : Lived careful s L) (care : careful s L c) (known : Knows s L k n)
    (hn : n.after s c = some n') : Knows (s.step c).2 (L.after s c) k n' := by
  obtain ⟨allowed, whole⟩ := careful_divides.parts care
  rw [← run_parts]
  exact known.follow life allowed whole hn

theorem Knows.along {cs : List Command} (life : Lived careful s L) (allowed : AllAllowed careful s L cs)
    (known : Knows s L k n) (hn : n.along s cs = some n') : Knows (s.run cs).2 (L.along s cs) k n' := by
  induction cs generalizing s L n with
  | nil =>
    cases hn
    exact known
  | cons c cs ih =>
    obtain ⟨m, hm, hn⟩ := Option.bind_eq_some_iff.1 hn
    exact ih (life.step allowed.1) allowed.2 (known.after life allowed.1 hm) hn

/-! ## Questions and answers -/

theorem perform_freshToken_full (hnone : tx.tokens.get? obj = none) (full : nurseryStart ≤ s.heap.nextToken) :
    ∃ f s', s.perform (Action.freshToken t obj tx) = (.error f, s') := by
  simp [Session.perform, Action.freshToken, hnone, Heap.issueToken, full, Attempt.refuse]

/-- The object of a question has the token that was answered. -/
theorem Seen.asked (seen : Seen s L t obj n) (life : Lived careful s L) (care : careful s L (.token t obj))
    (ok : (s.step (.token t obj)).1 = .ok (.token k)) (hn : n.after s (.token t obj) = some n') :
    Knows (s.step (.token t obj)).2 (L.after s (.token t obj)) k n' := by
  rcases seen.token life.standing with ⟨k', known, perform⟩ | ⟨tx, rfl, htx, ⟨r, hr, rfl⟩, stands, hnone, perform⟩
  · rw [(step_token perform).1] at ok
    cases ok
    exact known.after life care hn
  · by_cases room : s.heap.nextToken < nurseryStart
    · obtain ⟨s', hs', agrees⟩ := perform_freshToken_new (t := t) hnone room
      have step := (step_token (perform.trans hs')).1
      rw [step] at ok
      cases ok
      have htx' : s'.tx? t = some { tx with tokens := tx.tokens.insert r.addr s.heap.nextToken } :=
        (agrees.tx? t).trans (Session.tx?_setTx_self (s := s.advance) (Session.handle?_isSome_of_tx? htx))
      have next : (s.step (.token t r.addr)).2 = s' := by rw [step]
      have after : L.after s (.token t r.addr) = L := by
        show L.record s (.token t r.addr) (s.step (.token t r.addr)).1 (s.step (.token t r.addr)).2 = L
        rw [step]
        rfl
      have name : n' = .own t r.addr := by
        have hn : ((s.step (.token t r.addr)).2.tx? t).map (·.nameOf t r.addr) = some n' := by
          simpa [Name.after, Session.parts, Name.follow, Name.onto] using hn
        rw [next, htx', Option.map_some, Transaction.nameOf] at hn
        simpa only [stands, Option.some.injEq] using hn.symm
      rw [next, after, name]
      refine .own htx' hr stands ?_
      rw [TokenTable.get?_insert, if_pos rfl]
    · obtain ⟨f, s', hs'⟩ := perform_freshToken_full (s := s) (t := t) hnone (Nat.le_of_not_lt room)
      rw [(step_token (perform.trans hs')).1] at ok
      cases ok

/-- Where the name of an object is known, so is the answer to a question for it. -/
theorem Knows.answer (known : Knows s L k n) (kept : Kept s L) (standing : s.AllStanding L)
    (care : careful s L (.token t obj)) (hn : s.name? t obj = some n) :
    s.perform (Action.tokenOf t obj) = (.ok k, s) := by
  obtain ⟨h, hh, e⟩ := Option.map_eq_some_iff.1 hn
  have visible : L.Visible s t obj := by
    refine ⟨by rw [hh]; rfl, ?_⟩
    by_cases hs : h.sees obj = true
    · obtain ⟨tx, hx, hin⟩ := (Option.any_eq_true _ _).1 hs
      have htx := (Session.tx?_of_handle? hh).trans hx
      exact .inl ⟨by rw [htx]; rfl, (care.1 (t, obj) rfl).1 tx htx hin⟩
    · rw [Session.name?_shared hh (Bool.eq_false_iff.2 hs)] at hn
      cases hn
      cases known with
      | shared hr => exact .inr ⟨_, hr, rfl⟩
  obtain ⟨m, seen⟩ := visible.seen kept standing
  cases Option.some.inj (seen.name?.symm.trans hn)
  rcases seen.token standing with ⟨k', known', perform⟩ | ⟨tx, rfl, htx, -, -, hnone, -⟩
  · have same : k' = k := Option.some.inj (known'.token?_eq.symm.trans known.token?_eq)
    rw [perform, same]
  · have token := known.token?_eq
    rw [Session.token?, htx, Option.bind_some, hnone] at token
    cases token

/--
Once a token was given for an object, every later question for it is answered with this
token, by whatever name and whoever asks, and its hash is the hash of this token.
-/
theorem tokens_are_stable {cs : List Command} {obj' : Nat} (life : Lived careful s L)
    (allowed : AllAllowed careful s L (.token t obj :: cs)) (first : (s.step (.token t obj)).1 = .ok (.token k))
    (hn : s.name? t obj = some n) (same : n.along s (.token t obj :: cs) = some n')
    (later : careful (s.run (.token t obj :: cs)).2 (L.along s (.token t obj :: cs)) (.token t' obj'))
    (hn' : (s.run (.token t obj :: cs)).2.name? t' obj' = some n') :
    ((s.run (.token t obj :: cs)).2.step (.token t' obj')).1 = .ok (.token k) ∧
      ((s.run (.token t obj :: cs)).2.perform (Action.hashOf t' obj')).1 = .ok (scramble k) := by
  obtain ⟨m, hm, along⟩ := Option.bind_eq_some_iff.1 same
  obtain ⟨m', seen⟩ := (visible_of_token allowed.1 first).seen life.kept life.standing
  cases Option.some.inj (seen.name?.symm.trans hn)
  have asked := seen.asked life allowed.1 first hm
  have known := asked.along (life.step allowed.1) allowed.2 along
  have answer := known.answer (life.along allowed).kept (life.along allowed).standing later hn'
  obtain ⟨step, hash⟩ := step_token answer
  exact ⟨congrArg Prod.fst step, congrArg Prod.fst hash⟩

/-- A worker makes a node that its copy of the root points to. -/
def linked : List Command :=
  let root := sharedStart
  let copy := nurseryStart
  [.attachMain, .create mainThread 0, .attachWorker, .start 1, .copyOnWrite 1 root, .create 1 0, .write 1 copy 0 (copy + 48)]

/-- The worker commits; the main thread asks for the node, which is now the twin behind the root. -/
theorem tokens_are_stable_committed :
    ((Session.ofNodes.run linked).2.step (.token 1 (nurseryStart + 48))).1 = .ok (.token tokenStart) ∧
      (((Session.ofNodes.run linked).2.run [.token 1 (nurseryStart + 48), .create 1 0, .commit 1]).2.step
        (.token mainThread (sharedStart + 48))).1 = .ok (.token tokenStart) ∧
      (((Session.ofNodes.run linked).2.run [.token 1 (nurseryStart + 48), .create 1 0, .commit 1]).2.perform
        (Action.hashOf mainThread (sharedStart + 48))).1 = .ok (scramble tokenStart) := by
  have life : Lived careful (Session.ofNodes.run linked).2 (Ledger.empty.along .ofNodes linked) :=
    .ofNodes (by decide +kernel)
  have first : ((Session.ofNodes.run linked).2.step (.token 1 (nurseryStart + 48))).1 = .ok (.token tokenStart) := by
    decide +kernel
  have name : (Session.ofNodes.run linked).2.name? 1 (nurseryStart + 48) = some (.own 1 (nurseryStart + 48)) := by
    decide +kernel
  have same : (Name.own 1 (nurseryStart + 48)).along (Session.ofNodes.run linked).2
      [.token 1 (nurseryStart + 48), .create 1 0, .commit 1] = some (.shared (sharedStart + 48)) := by
    decide +kernel
  exact ⟨first, tokens_are_stable life (by decide +kernel) first name same (by decide +kernel) (by decide +kernel)⟩

end

end TxHeap

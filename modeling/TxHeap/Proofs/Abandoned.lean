/-
  TxHeap.Proofs.Abandoned — a transaction that is aborted leaves no trace.

  Two runs: in the one a worker starts a transaction, does whatever it likes before a prepare,
  and aborts; in the other it does nothing of this. All other commands are the same, in the
  same order. The second run goes alongside the first (`Shadowed`), so every command that both
  have in common is answered alike (`abandoned_transaction_leaves_no_trace`): the same
  addresses, words, reports and failures, and the same state of the thread.

  What remains of the transaction are marks and used up tokens. Hence headers are compared up
  to the mark of a copy, and tokens by which of them are equal; for tokens this holds as long
  as there are any left in the first run, which is the one that uses more.
-/
import TxHeap.Proofs.Shadow

namespace TxHeap

open Step TxHeap.Action

/-! ## What is compared -/

def Command.isOf (c : Command) (t : Option Nat) : Bool := c.thread?.isSome && c.thread? == t

def without (t : Option Nat) (cs : List Command) : List Command := cs.filter fun c => !c.isOf t

/-- What a thread can tell of itself: the phase of its transaction, and how much of its nursery is used. -/
def Session.sight (s : Session) (t : Nat) : Option (Option Phase × Nat) := (s.handle? t).map fun h => (h.phase?, h.nurseryUsed)

/-- The command is answered alike in the two sessions, and leaves them looking the same to all threads but the hidden one. -/
structure StepAlike (hidden : Option Nat) (same : Nat → Nat → Prop) (due : Prop) (c : Command) (s s' : Session) : Prop where
  outcome : (c.asksToken = true → due) → Outcome.Alike same (s.step c).1 (s'.step c).1
  sharedUsed : (s'.step c).2.heap.shared.used = (s.step c).2.heap.shared.used
  sight : ∀ t, hidden ≠ some t → (s'.step c).2.sight t = (s.step c).2.sight t
  /-- A hash that is asked for instead of a token is that of the token. -/
  hash : ∀ t obj, c = .token t obj → due →
    Attempt.Both (fun i i' => ∃ x y, same x y ∧ i = scramble x ∧ i' = scramble y)
      (s.perform (Action.hashOf t obj)).1 (s'.perform (Action.hashOf t obj)).1

/-- There has been a token for each question so far, the commands included. -/
def Unexhausted (s : Session) (L : Ledger) (cs : List Command) : Prop := Lived supplied s L ∧ AllAllowed supplied s L cs

/--
From `s` on, the transaction that `w` starts and aborts makes no difference to anybody, neither in its course (`mid`)
nor after it (`post`).
-/
structure Traceless (s : Session) (L : Ledger) (w : Nat) (mid post : List Command) (same : Nat → Nat → Prop) : Prop where
  /-- Tokens that are equal in one of the runs are so in the other. -/
  once : ∀ {x y x' y'}, same x y → same x' y' → (x = x' ↔ y = y')
  /-- Tokens that were given out before are themselves. -/
  earlier : ∀ x, x < s.heap.nextToken → same x x
  during : ∀ before c after, mid = before ++ c :: after → c.isOf (some w) = false →
    StepAlike (some w) same (Unexhausted s L (.start w :: before ++ [c])) c
      (s.run (.start w :: before)).2 (s.run (without (some w) before)).2
  later : ∀ before c after, post = before ++ c :: after →
    StepAlike none same (Unexhausted s L (.start w :: mid ++ .abort w :: before ++ [c])) c
      (s.run (.start w :: mid ++ .abort w :: before)).2 (s.run (without (some w) mid ++ before)).2

section

variable {hidden : Option Nat} {same same' : Nat → Nat → Prop} {due due' : Prop} {k k' : Link} {s s' : Session} {L : Ledger}
  {copied : List Nat} {c : Command} {cs : List Command} {t w obj : Nat}

theorem Command.isOf_eq_true : c.isOf hidden = true ↔ ∃ t, c.thread? = some t ∧ hidden = some t := by
  rw [isOf, Bool.and_eq_true, beq_iff_eq, Option.isSome_iff_exists]
  exact ⟨fun ⟨⟨t, ht⟩, e⟩ => ⟨t, ht, e ▸ ht⟩, fun ⟨t, ht, e⟩ => ⟨⟨t, ht⟩, ht.trans e.symm⟩⟩

theorem without_none (cs : List Command) : without none cs = cs := by
  refine List.filter_eq_self.2 fun c _ => ?_
  rw [Command.isOf]
  cases c.thread? <;> rfl

theorem StepAlike.mono (h : StepAlike hidden same due c s s') (sub : ∀ {x y}, same x y → same' x y) (less : due' → due) :
    StepAlike hidden same' due' c s s' where
  outcome asked := Attempt.Both.mono (h.outcome fun asks => less (asked asks)) fun _ _ alike => alike.mono sub
  sharedUsed := h.sharedUsed
  sight := h.sight
  hash t obj e due := (h.hash t obj e (less due)).mono fun _ _ ⟨x, y, xy, hashes⟩ => ⟨x, y, sub xy, hashes⟩

/-- Tokens that are answered go together. -/
theorem StepAlike.token {x y : Nat} (h : StepAlike hidden same due (.token t obj) s s') (asked : due)
    (hx : (s.step (.token t obj)).1 = .ok (.token x)) (hy : (s'.step (.token t obj)).1 = .ok (.token y)) : same x y := by
  have alike := h.outcome fun _ => asked
  rw [hx, hy] at alike
  exact alike

theorem Parallel.sight {m : Marks} (h : Parallel m hidden k s s') (shown : hidden ≠ some t) : s'.sight t = s.sight t := by
  rw [Session.sight, Session.sight]
  rcases h.handle_cases shown with ⟨e, e'⟩ | ⟨a, b, e, e', like⟩ <;> rw [e, e']
  have rel := like.tx
  simp only [Option.map_some, Handle.phase?, Handle.nurseryUsed]
  cases hx : a.tx <;> cases hy : b.tx <;> rw [hx, hy] at rel <;> cases rel
  rename_i like
  simp only [Option.map_some, like.phase, like.nursery.used]

/-- Where tokens are alike, so are hashes. -/
theorem hash_alike (h : Outcome.Alike same (s.step (.token t obj)).1 (s'.step (.token t obj)).1) :
    Attempt.Both (fun i i' => ∃ x y, same x y ∧ i = scramble x ∧ i' = scramble y) (s.perform (Action.hashOf t obj)).1
      (s'.perform (Action.hashOf t obj)).1 := by
  cases ha : s.perform (Action.tokenOf t obj) with
  | mk a s₁ =>
  cases hb : s'.perform (Action.tokenOf t obj) with
  | mk b s₁' =>
  rw [(step_token ha).1, (step_token hb).1] at h
  rw [(step_token ha).2, (step_token hb).2]
  cases a <;> cases b
  · exact h
  · exact h.elim
  · exact h.elim
  · exact ⟨_, _, h, rfl, rfl⟩

theorem Alongside.stepAlike (h : Alongside L hidden k due c s s' copied k') :
    StepAlike hidden k'.same (k.tracked ∧ due) c s s' where
  outcome := h.outcome
  sharedUsed := h.parallel.shared.used
  sight _ shown := h.parallel.sight shown
  hash t obj e tracked := by
    subst e
    exact hash_alike (h.outcome fun _ => tracked)

/-! ## One run alongside another -/

/-- The second session is one from which the transaction of the hidden thread is missing. -/
structure Shadowed (hidden : Option Nat) (k : Link) (s : Session) (L : Ledger) (s' : Session) : Prop where
  life : Lived careful s L
  parallel : ∃ copied, Parallel (Marks.of L.shared copied) hidden k s s'

/-- The objects that are compared are those of the ledger. -/
theorem Lived.shadowed (life : Lived careful s L) (care : careful s L c)
    (h : Parallel (Marks.of L.shared copied) hidden k (s.step c).2 s') : Shadowed hidden k (s.step c).2 (L.after s c) s' := by
  obtain ⟨kept, remains⟩ := care.remains life.kept
  exact ⟨life.step care, copied, h.widen kept.shared.toPlaces remains⟩

namespace Shadowed

theorem shown (h : Shadowed hidden k s L s') (care : careful s L c) (others : c.isOf hidden = false) :
    ∃ k', k.Extends k' ∧ (k.tracked → supplied s L c → k'.tracked) ∧
      Shadowed hidden k' (s.step c).2 (L.after s c) (s'.step c).2 ∧
      StepAlike hidden k'.same (k.tracked ∧ supplied s L c) c s s' := by
  obtain ⟨copied, parallel⟩ := h.parallel
  have shown : ∀ t, c.thread? = some t → hidden ≠ some t := by
    intro t ht e
    rw [Command.isOf_eq_true.2 ⟨t, ht, e⟩] at others
    cases others
  obtain ⟨copied', k', alongside⟩ := parallel.shown h.life care shown
  refine ⟨k', alongside.more, fun tracked due => alongside.tracked tracked due.2, h.life.shadowed care alongside.parallel, ?_⟩
  exact alongside.stepAlike.mono id fun ⟨tracked, due⟩ => ⟨tracked, due.2⟩

theorem unseen (h : Shadowed hidden k s L s') (care : careful s L c) (hides : c.isOf hidden = true)
    (stays : c.endsPhase = false) :
    ∃ k', k.Extends k' ∧ (k.tracked → supplied s L c → k'.tracked) ∧ Shadowed hidden k' (s.step c).2 (L.after s c) s' := by
  obtain ⟨copied, parallel⟩ := h.parallel
  obtain ⟨w, own, rfl⟩ := Command.isOf_eq_true.1 hides
  obtain ⟨k', more, tracked, parallel⟩ := parallel.unseen h.life.kept care own stays
  exact ⟨k', more, fun t due => tracked t due.2, h.life.shadowed care parallel⟩

/-- A command, or its absence where it is one of the hidden thread. -/
theorem step (h : Shadowed hidden k s L s') (care : careful s L c) (stays : c.isOf hidden = true → c.endsPhase = false) :
    ∃ k', k.Extends k' ∧ (k.tracked → supplied s L c → k'.tracked) ∧
      Shadowed hidden k' (s.step c).2 (L.after s c) (s'.run (without hidden [c])).2 ∧
      (c.isOf hidden = false → StepAlike hidden k'.same (k.tracked ∧ supplied s L c) c s s') := by
  rw [without, List.filter_singleton]
  cases hides : c.isOf hidden with
  | true =>
    obtain ⟨k', more, tracked, next⟩ := h.unseen care hides (stays hides)
    exact ⟨k', more, tracked, next, nofun⟩
  | false =>
    obtain ⟨k', more, tracked, next, alike⟩ := h.shown care hides
    exact ⟨k', more, tracked, next, fun _ => alike⟩

/-- A run goes alongside the run without the commands of the hidden thread. -/
theorem run (h : Shadowed hidden k s L s') (care : AllAllowed careful s L cs)
    (stays : ∀ c ∈ cs, c.isOf hidden = true → c.endsPhase = false) :
    ∃ k', k.Extends k' ∧ (k.tracked → AllAllowed supplied s L cs → k'.tracked) ∧
      Shadowed hidden k' (s.run cs).2 (L.along s cs) (s'.run (without hidden cs)).2 ∧
      ∀ before c after, cs = before ++ c :: after → c.isOf hidden = false →
        StepAlike hidden k'.same (k.tracked ∧ AllAllowed supplied s L (before ++ [c])) c
          (s.run before).2 (s'.run (without hidden before)).2 := by
  induction cs generalizing s L s' k with
  | nil => exact ⟨k, .refl k, fun tracked _ => tracked, h, fun before c after e => by cases before <;> cases e⟩
  | cons c cs ih =>
    have first : ∀ cs, (s'.run (without hidden (c :: cs))).2 =
        ((s'.run (without hidden [c])).2.run (without hidden cs)).2 := by
      intro cs
      rw [← run_append, without, without, without, ← List.filter_append, List.singleton_append]
    obtain ⟨k₁, more₁, tracked₁, next, now⟩ := h.step care.1 (stays c List.mem_cons_self)
    obtain ⟨k₂, more₂, tracked₂, last, alike⟩ := ih next care.2 fun c hc => stays c (List.mem_cons_of_mem _ hc)
    refine ⟨k₂, more₁.trans more₂, fun tracked due => tracked₂ (tracked₁ tracked due.1) due.2, by rw [first]; exact last, ?_⟩
    intro before c' after e others
    cases before with
    | nil =>
      cases e
      exact (now others).mono more₂.same fun ⟨tracked, due⟩ => ⟨tracked, due.1⟩
    | cons b before =>
      cases e
      rw [first]
      exact (alike before c' after rfl others).mono id fun ⟨tracked, due⟩ => ⟨tracked₁ tracked due.1, due.2⟩

end Shadowed

/-! ## From the start to the abort -/

/-- A transaction is started in the one session only. -/
theorem Parallel.start {m : Marks} (h : Parallel m none k s s) (started : (s.step (.start w)).1 = .ok .done) :
    Parallel m (some w) k (s.step (.start w)).2 s := by
  have e : Effect s (.start w) _ _ := step_effect nofun
  rw [started] at e
  generalize (s.step (.start w)).2 = s₁ at e
  cases e with
  | answered asks => exact asks.elim
  | @started _ nursery _ _ attached hnone _ agrees =>
    have active : (Transaction.fresh nursery).phase = .active := rfl
    exact (h.hide nofun active attached attached hnone).agrees agrees (.refl s)

/-- A session shadows itself, and goes on to do so when a transaction is started in the one only. -/
theorem Lived.shadowed_start (life : Lived careful s L) (care : careful s L (.start w))
    (started : (s.step (.start w)).1 = .ok .done) :
    ∃ k : Link, (∀ x, x < s.heap.nextToken → k.same x x) ∧ (Lived supplied s L → k.tracked) ∧
      Shadowed (some w) k (s.step (.start w)).2 (L.after s (.start w)) s := by
  have parallel := Parallel.self life (fun supply : Lived supplied s L => supply.minted_of_supplied)
  refine ⟨_, ?_, ?_, life.shadowed care (parallel.start started)⟩
  · exact fun x hx => ⟨rfl, fun _ => hx⟩
  · exact id

theorem ends_abort {tx : Transaction} (htx : s.tx? t = some tx) (hphase : tx.phase ≠ .applied) :
    Ends (Action.abort t) s (fun _ s' => (s.setTx t none).Agrees s') fun _ _ => False := by
  rw [Action.abort, ends_bind]
  refine ends_openTx ?_ fun hnone => by rw [htx] at hnone; cases hnone
  intro tx' htx'
  rw [htx] at htx'
  cases htx'
  rw [ends_bind, ends_demand]
  exact ⟨fun _ => (((Session.Agrees.refl _).count _).emit _).note _, fun no => no hphase⟩

/-- An abort of an active transaction makes an end of it. -/
theorem Shadowed.abort (h : Shadowed (some w) k s L s') (care : careful s L (.abort w)) :
    Shadowed none k (s.step (.abort w)).2 (L.after s (.abort w)) s' := by
  obtain ⟨copied, parallel⟩ := h.parallel
  obtain ⟨⟨tx, htx, active⟩, -⟩ := parallel.secret w rfl
  have ends := ends_abort htx (by rw [active]; exact nofun)
  have gone : Parallel (Marks.of L.shared copied) none k (s.step (.abort w)).2 s' := by
    rw [step_quietly rfl]
    cases ha : Action.abort w s with
    | ok _ s₁ => exact parallel.reveal.agrees (ends.of_ok ha) (.refl s')
    | error f s₁ => exact (ends.of_error ha).elim
  exact h.life.shadowed care gone

/--
A transaction that is aborted before it is prepared leaves no trace for anyone else. The commands that two runs have in
common, of which only the first has the transaction, are answered alike.
-/
theorem abandoned_transaction_leaves_no_trace {mid post : List Command} (life : Lived careful s L)
    (care : AllAllowed careful s L (.start w :: mid ++ .abort w :: post))
    (started : (s.step (.start w)).1 = .ok .done)
    (stays : ∀ c ∈ mid, c.isOf (some w) = true → c.endsPhase = false) : ∃ same, Traceless s L w mid post same := by
  obtain ⟨careMid, carePost⟩ := allAllowed_append.1 care.2
  obtain ⟨k₀, earlier, tracked₀, h₀⟩ := life.shadowed_start care.1 started
  obtain ⟨k₁, more₁, tracked₁, h₁, during⟩ := h₀.run careMid stays
  have h₂ := h₁.abort carePost.1
  obtain ⟨k₂, more₂, -, -, later⟩ := h₂.run carePost.2 fun c _ own => by
    obtain ⟨_, _, e⟩ := Command.isOf_eq_true.1 own
    cases e
  refine ⟨k₂.same, ⟨k₂.once, fun x hx => more₂.same (more₁.same (earlier x hx)), ?_, ?_⟩⟩
  · intro before c after e others
    exact (during before c after e others).mono more₂.same fun ⟨supply, due⟩ => ⟨tracked₀ supply, due.2⟩
  · intro before c after e
    have alike := later before c after e (by rw [Command.isOf]; cases c.thread? <;> rfl)
    rw [without_none] at alike
    rw [run_append, run_append]
    refine alike.mono id fun ⟨supply, due⟩ => ?_
    rw [List.append_assoc, allAllowed_append] at due
    exact ⟨tracked₁ (tracked₀ supply) due.1.2, due.2.2⟩

/-- A root, and a worker in a transaction. -/
def abandonedBefore : List Command :=
  [.attachMain, .create mainThread 0, .write mainThread sharedStart 24 5, .attachWorker, .attachWorker, .start 2]

/-- One worker copies the root and asks for a token; then another does so for an object of its own. -/
def abandonedCourse : List Command :=
  let root := sharedStart
  let copy := nurseryStart
  let other := nurseryStart + 65536
  [.copyOnWrite 1 root, .create 1 0, .create 2 0, .write 1 copy 24 7, .token 1 (copy + 48), .token 2 other,
    .header mainThread root, .write 1 root 24 9, .read 2 root 24]

/-- The other copies the root too and commits; the first starts once more. -/
def abandonedAfter : List Command :=
  let root := sharedStart
  let copy := nurseryStart
  let other := nurseryStart + 65536
  [.copyOnWrite 2 root, .write 2 (other + 48) 0 other, .commit 2, .read mainThread root 0, .token mainThread (root + 48),
    .start 1, .read 1 root 24, .create 1 0, .token 1 copy]

/-- The first token of the one run is the second of the other. -/
theorem abandoned_transaction_leaves_no_trace_between :
    ∃ same, Traceless (Session.ofNodes.run abandonedBefore).2 (Ledger.empty.along .ofNodes abandonedBefore) 1
      abandonedCourse abandonedAfter same ∧ same (tokenStart + wordSize) tokenStart := by
  have life : Lived supplied (Session.ofNodes.run abandonedBefore).2 (Ledger.empty.along .ofNodes abandonedBefore) :=
    .ofNodes (by decide +kernel)
  have care : AllAllowed careful (Session.ofNodes.run abandonedBefore).2 (Ledger.empty.along .ofNodes abandonedBefore)
      (.start 1 :: abandonedCourse ++ .abort 1 :: abandonedAfter) := by decide +kernel
  obtain ⟨same, traceless⟩ := abandoned_transaction_leaves_no_trace (life.mono fun _ _ _ h => h.1) care (by decide +kernel)
    (by decide)
  refine ⟨same, traceless, ?_⟩
  have unexhausted : AllAllowed supplied (Session.ofNodes.run abandonedBefore).2 (Ledger.empty.along .ofNodes abandonedBefore)
      (.start 1 :: abandonedCourse.take 5 ++ [.token 2 (nurseryStart + 65536)]) := by decide +kernel
  have asked := traceless.during (abandonedCourse.take 5) (.token 2 (nurseryStart + 65536)) (abandonedCourse.drop 6) rfl rfl
  exact asked.token ⟨life, unexhausted⟩ (by decide +kernel) (by decide +kernel)

end

end TxHeap

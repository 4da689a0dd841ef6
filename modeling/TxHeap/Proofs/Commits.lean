/-
  TxHeap.Proofs.Commits — a commit from its start to its end.

  Where the pointers of a transaction are known, a commit of it is answered unless there is no
  room for its plan (`Kept.commit_cases`). What it reports, where its twins lie relative to the
  free pointer and what it makes of the shared objects is all settled by the plan
  (`Carried`); the rest of the shared heap has no part in it.
-/
import TxHeap.Proofs.Delivery
import TxHeap.Proofs.OwnView

namespace TxHeap

open Step TxHeap.Action

variable {s s' s₁ s₂ : Session} {L : Ledger} {t : Nat} {tx : Transaction}

/-- A commit whose first two parts are answered ends with the last. -/
theorem step_commit_of_ok {r r' : Reply} (hp : s.step (.prepare t) = (.ok r, s₁))
    (ha : s₁.step (.apply t) = (.ok r', s₂)) : s.step (.commit t) = s₂.step (.finish t) := by
  cases htx : s.tx? t with
  | none =>
    obtain ⟨f, -, failed, -⟩ := step_commit_of_closed htx
    cases hp.symm.trans failed
  | some tx =>
    rw [step_commit_eq htx, hp]
    dsimp only
    rw [ha]

/-- A commit fails with its first part. -/
theorem step_commit_of_error {f : Failure} (hp : s.step (.prepare t) = (.error f, s₁)) :
    ∃ f', (s.step (.commit t)).1 = .error f' := by
  cases htx : s.tx? t with
  | none =>
    obtain ⟨-, f', -, failed⟩ := step_commit_of_closed htx
    exact ⟨f', by rw [failed]⟩
  | some tx => exact ⟨f, by rw [step_commit_eq htx, hp]⟩

theorem step_finish (htx : s.tx? t = some tx) (happlied : tx.phase = .applied) :
    ∃ s', s.step (.finish t) = (.ok (.report tx.report), s') ∧ (s.setTx t none).Agrees s' := by
  have phase : tx.requirePhase "end_transaction" .applied = .ok () := requirePhase_eq_ok.2 happlied
  rw [step_map rfl]
  simp only [Action.finish, bind_apply, openTx_of_tx? htx, phase, ofAttempt_ok, pure_apply]
  exact ⟨_, rfl, (((Session.Agrees.refl _).count _).emit _).emit _ |>.note _⟩

/-- Overwriting roots takes no room. -/
theorem used_overwriteAll {layout : Layout} {roots : List (Nat × Nat)} {a b : Arena}
    (h : overwriteAll layout tx roots a = .ok () b) : b.used = a.used := by
  have ends : Ends (overwriteAll layout tx roots) a (fun _ b => b.used = a.used) fun _ _ => True := by
    refine ends_forM (fun _ b => b.used = a.used) ?_ roots a rfl
    intro pair rest b hb
    unfold Ends
    dsimp only
    cases h : overwrite layout tx b pair.1 pair.2 with
    | error f => trivial
    | ok b' =>
      obtain ⟨target, bytes, spans, rfl⟩ := overwrite_eq_ok h
      exact hb
  exact ends.of_ok h

/-- A prepared transaction is applied. -/
theorem Kept.step_apply (kept : Kept s L) (htx : s.tx? t = some tx) (hp : tx.phase = .prepared) :
    ∃ b s', s.step (.apply t) = (.ok .done, s') ∧
      overwriteAll s.heap.layout tx tx.objects.pairs s.heap.shared = .ok () b ∧
      ((s.setShared b).setTx t (some { tx with phase := .applied })).Agrees s' := by
  have e : Effect s (.apply t) _ _ := step_effect nofun
  cases ha : s.step (.apply t) with
  | mk o s' =>
  rw [ha] at e
  cases e with
  | refused _ hno => exact absurd ⟨t, _, rfl, htx, hp⟩ hno
  | answered asks => exact asks.elim
  | attached hc => rcases hc with hc | hc <;> cases hc
  | applied htx' _ hrun agrees =>
    rw [htx] at htx'
    cases htx'
    exact ⟨_, _, rfl, hrun, agrees⟩
  | applyStopped htx' hphase _ hrun => exact ((kept.apply htx' hphase).of_error hrun).elim

/-- What a commit whose preparation ends at `p` leaves. -/
structure Committed (s : Session) (L : Ledger) (t : Nat) (p : Preparation) (report : Report) (s' : Session) : Prop where
  answer : s.step (.commit t) = (.ok (.report report), s')
  layout : s'.heap.layout = s.heap.layout
  config : s'.heap.config = s.heap.config
  used : s'.heap.shared.used = p.shared.used
  tokens : s'.heap.tokens = p.tokens
  others : ∀ t', t' ≠ t → s'.tx? t' = s.tx? t'
  ledger : L.after s (.commit t) = { L with
    shared := Ledger.overwritten p.tx.nursery.memory (L.own t)
      (L.shared ++ Ledger.twinsOf (L.own t) p.tx.nursery.memory p.shared.memory true) }

/-- A commit is answered when its preparation is. -/
theorem Kept.commit {report : Report} {p : Preparation} (kept : Kept s L) (htx : s.tx? t = some tx)
    (hactive : tx.phase = .active) (aim : L.FieldsAim s t)
    (hrun : Prepare.run s.heap.layout t (.ofHeap s.heap tx) = .ok report p) : ∃ s', Committed s L t p report s' := by
  have care : careful s L (.prepare t) := ⟨nofun, fun _ h => by cases h; exact aim⟩
  -- the preparation
  obtain ⟨s₁, hp, agrees⟩ := (ends_step_prepare htx hactive).of_ok hrun
  have e : Effect s (.prepare t) _ _ := step_effect nofun
  rw [hp] at e
  have kept₁ := e.kept kept care
  have record := record_prepared (L := L) (o := .ok (.report report)) htx hactive agrees
  have htx₁ : s₁.tx? t = some { p.tx with phase := .prepared, report } :=
    (agrees.tx? t).trans (Session.tx?_setTx_of_tx? htx)
  -- the roots
  obtain ⟨b, s₂, ha, hover, agrees₂⟩ := kept₁.step_apply htx₁ rfl
  have record₂ (L : Ledger) : L.record s₁ (.apply t) (.ok .done) s₂ = _ := record_applied htx₁
  have htx₂ : s₂.tx? t = some { p.tx with phase := .applied, report } :=
    (agrees₂.tx? t).trans (Session.tx?_setTx_self (s := s₁.setShared b) (Session.handle?_isSome_of_tx? htx₁))
  -- the end
  obtain ⟨s₃, hf, agrees₃⟩ := step_finish htx₂ rfl
  refine ⟨s₃, (step_commit_of_ok hp ha).trans hf, ?_, ?_, ?_, ?_, ?_, ?_⟩
  · exact agrees₃.layout.trans (agrees₂.layout.trans agrees.layout)
  · exact agrees₃.config.trans (agrees₂.config.trans agrees.config)
  · have shared₁ : s₁.heap.shared = p.shared := agrees.shared
    have shared₂ : s₂.heap.shared = b := agrees₂.shared
    rw [agrees₃.shared, Session.setTx_heap, shared₂, used_overwriteAll hover, shared₁]
  · exact agrees₃.tokens.trans (agrees₂.tokens.trans agrees.tokens)
  · intro t' ne
    have same₁ : s₁.tx? t' = s.tx? t' := (agrees.tx? t').trans (Session.tx?_setTx_of_ne ne)
    have same₂ : s₂.tx? t' = s₁.tx? t' :=
      (agrees₂.tx? t').trans (Session.tx?_setTx_of_ne (s := s₁.setShared b) ne)
    rw [agrees₃.tx?, Session.tx?_setTx_of_ne ne, same₂, same₁]
  · have parts : s.parts (.commit t) = [.prepare t, .apply t, .finish t] := by
      rw [Session.parts, hp]
      simp only [ha]
    rw [Ledger.after, parts]
    simp only [Ledger.follow, Ledger.enter, hp, ha, hf]
    show Ledger.record _ _ (.apply t) (.ok .done) s₂ = _
    rw [record₂, record]
    rfl

/-! ## The plan of a commit -/

/-- Where the twins of a plan lie in this heap, from the free pointer on. -/
def Session.spread (s : Session) (plan : Plan) : Spread := .of (max s.heap.config.pageSize 1) plan.promoted

/-- A commit that carried out its plan has come to `s'`. -/
structure Carried (s : Session) (L : Ledger) (t : Nat) (tx : Transaction) (plan : Plan) (s' : Session) : Prop where
  answer : s.step (.commit t) =
    (.ok (.report { plan.report tx.objects.size with sharedConsumed := (s.spread plan).taken }), s')
  layout : s'.heap.layout = s.heap.layout
  config : s'.heap.config = s.heap.config
  used : s'.heap.shared.used = s.heap.shared.used + (s.spread plan).taken
  others : ∀ t', t' ≠ t → s'.tx? t' = s.tx? t'
  tokens : ∀ a, (∀ x ∈ (s.spread plan).moves s.heap.shared.freePointer, x.2 ≠ a) →
    s'.heap.tokens.get? a = s.heap.tokens.get? a
  rekeyed : ∀ x ∈ (s.spread plan).moves s.heap.shared.freePointer,
    s'.heap.tokens.get? x.2 = (tx.tokens.get? x.1.addr).or (s.heap.tokens.get? x.2)
  own : (L.after s (.commit t)).own = L.own
  mine : ∀ x ∈ (s.spread plan).moves s.heap.shared.freePointer, x.1 ∈ L.own t
  delivered : Delivered s.heap.layout (L.own t) ((s.spread plan).moves s.heap.shared.freePointer) L.shared
    (L.after s (.commit t)).shared

theorem Ledger.FieldsKnown.clear (known : L.FieldsKnown s t) (kept : Kept s L) (htx : s.tx? t = some tx)
    (ready : Ready s.heap.layout (L.own t) L.shared (.ofHeap s.heap tx)) :
    (Preparation.ofHeap s.heap tx).Clear s.heap.layout (L.own t) := by
  refine ⟨?_, ?_⟩
  · intro r hr offset ho
    rw [ready.word_eq hr ho]
    exact known tx htx r hr offset ho
  · exact kept.ground.backed

/-- A commit carries out its plan, or has no room for it. -/
theorem Kept.commit_cases (kept : Kept s L) (htx : s.tx? t = some tx) (hactive : tx.phase = .active)
    (known : L.FieldsKnown s t) :
    (∃ plan s', Plan.Done s.heap.layout (L.own t) plan ∧ Carried s L t tx plan s') ∨
      (∃ f, (s.step (.commit t)).1 = .error f) ∧ ∀ plan, Plan.Done s.heap.layout (L.own t) plan →
        s.heap.shared.reserve < s.heap.shared.used + (s.spread plan).taken := by
  have aim := known.aim kept.ground
  have ready := kept.ready htx hactive aim
  have ends := planned_run ready ready.working ready.tracks rfl rfl t
  cases hrun : Prepare.run s.heap.layout t (.ofHeap s.heap tx) with
  | error f p =>
    obtain ⟨stuck, -⟩ := ends.of_error hrun
    obtain ⟨s₁, failed⟩ := (ends_step_prepare htx hactive).of_error hrun
    exact .inr ⟨step_commit_of_error failed, fun _ done => (known.clear kept htx ready).short stuck done⟩
  | ok report p =>
    obtain ⟨g, plan, going, finished, done, tracks, rfl⟩ := ends.of_ok hrun
    obtain ⟨s', committed⟩ := kept.commit htx hactive aim hrun
    have moves : g.moves = (s.spread plan).moves s.heap.shared.freePointer := tracks.moves
    have free : p.shared.freePointer = s.heap.shared.freePointer + (s.spread plan).taken := tracks.free
    have start : p.shared.start = s.heap.shared.start := going.onward.start
    refine .inl ⟨plan, s', done, committed.answer, committed.layout, committed.config, ?_, committed.others, ?_, ?_, ?_, ?_, ?_⟩
    · rw [committed.used]
      rw [Arena.freePointer, Arena.freePointer, start] at free
      omega
    · rw [← moves, committed.tokens]
      exact going.tokens.shared
    · rw [← moves, committed.tokens]
      exact going.tokens.moved
    · rw [committed.ledger]
    · rw [← moves]
      exact fun x hx => (going.fresh_of_moves (r := x.1) hx).1
    · rw [committed.ledger, ← moves]
      exact going.delivered ready finished (kept.intact t tx htx hactive) ((kept.backed t tx htx).rooted (.inl hactive))

end TxHeap

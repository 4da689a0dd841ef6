/-
  TxHeap.Proofs.Shadow — a session and its shadow.

  The shadow of a session is what it would be if some thread had not started the transaction
  that it has open. The two are parallel, up to the marks of objects that the transaction has
  copied and up to tokens that were given out for its objects. A step of any other thread goes
  the same way in both (`Parallel.shown`), and a step of that thread is no matter to the
  shadow while the transaction is active (`Parallel.unseen`).

  The ledger is that of the first session; the second has no need of one.
-/
import TxHeap.Proofs.Access
import TxHeap.Proofs.Tokens

namespace TxHeap

open Step TxHeap.Action

def Command.thread? : Command → Option Nat
  | .attachMain | .attachWorker | .setEvents _ | .clearEvents | .configureLog _ => none
  | .detach t | .start t | .abort t | .prepare t | .apply t | .finish t | .commit t | .bump t _ | .create t _
  | .copyOnWrite t _ | .read t _ _ | .write t _ _ _ | .header t _ | .canonical t _ | .token t _ => some t

def Command.endsPhase : Command → Bool
  | .prepare _ | .commit _ | .abort _ | .detach _ => true
  | _ => false

/-- Replies that are equal but for the mark of a header and the number of a token. -/
def Reply.Alike (same : Nat → Nat → Prop) : Reply → Reply → Prop
  | .header h, .header h' => h'.markCopied = h.markCopied
  | .token x, .token y => same x y
  | r, r' => r' = r

def Outcome.Alike (same : Nat → Nat → Prop) : Outcome → Outcome → Prop := Attempt.Both (Reply.Alike same)

theorem Reply.Alike.mono {same same' : Nat → Nat → Prop} {r r' : Reply} (h : r.Alike same r')
    (sub : ∀ {x y}, same x y → same' x y) : r.Alike same' r' := by
  cases r <;> cases r' <;> first | exact sub h | exact h

theorem Reply.alike_refl {same : Nat → Nat → Prop} {r : Reply} (h : ∀ x, r ≠ .token x) : r.Alike same r := by
  cases r <;> first | exact absurd rfl (h _) | rfl

section

variable {hidden : Option Nat} {k k' : Link} {s s' s₁ s₁' : Session} {L : Ledger} {copied : List Nat} {c : Command} {t obj : Nat}
  {due : Prop}

/-! ## One command in both sessions -/

/-- The command goes the same way in both sessions. If it asks for a token, the answers are alike if one is `due`. -/
structure Alongside (L : Ledger) (hidden : Option Nat) (k : Link) (due : Prop) (c : Command) (s s' : Session)
    (copied : List Nat) (k' : Link) : Prop where
  more : k.Extends k'
  tracked : k.tracked → due → k'.tracked
  parallel : Parallel (Marks.of L.shared copied) hidden k' (s.step c).2 (s'.step c).2
  outcome : (c.asksToken = true → k.tracked ∧ due) → Outcome.Alike k'.same (s.step c).1 (s'.step c).1

theorem alongside_of_both (copied : List Nat) (both : Both c.action c.action s s'
      (fun r r' t t' => ∃ copied k', k.Extends k' ∧ (k.tracked → k'.tracked) ∧ r.Alike k'.same r' ∧
        Parallel (Marks.of L.shared copied) hidden k' t t')
      (Parallel (Marks.of L.shared copied) hidden k)) : ∃ copied k', Alongside L hidden k due c s s' copied k' := by
  have step : ∀ s : Session, s.step c = s.perform c.action := fun _ => rfl
  obtain ⟨r, r', t, t', ha, hb, copied, k', more, tracked, alike, parallel⟩ | ⟨f, t, t', ha, hb, parallel⟩ := both.cases
  · rw [← Session.perform_eq_ok, ← step] at ha hb
    refine ⟨copied, k', more, fun h _ => tracked h, ?_, fun _ => ?_⟩
    · rw [ha, hb]
      exact parallel
    · rw [ha, hb]
      exact alike
  · simp only [Session.perform] at step
    refine ⟨copied, k, .refl k, fun h _ => h, ?_, fun _ => ?_⟩
    · rw [step, step, ha, hb]
      exact parallel
    · rw [step, step, ha, hb]
      exact rfl

theorem alongside_of_paired {α : Type} {call : Action α} {reply : α → Reply} (hc : c.action = reply <$> call)
    (plain : ∀ a x, reply a ≠ .token x) (paired : Paired (Marks.of L.shared copied) hidden k call s s') :
    ∃ copied k', Alongside L hidden k due c s s' copied k' := by
  refine alongside_of_both copied ?_
  rw [hc]
  refine both_map (Both.mono paired ?_ fun _ _ h => h)
  rintro a b r r' ⟨rfl, parallel⟩
  exact ⟨copied, k, .refl k, id, Reply.alike_refl (plain b), parallel⟩

theorem alongside_of_quietly {call : Action Unit} (hc : c.action = quietly call)
    (paired : Paired (Marks.of L.shared copied) hidden k call s s') :
    ∃ copied k', Alongside L hidden k due c s s' copied k' := by
  refine alongside_of_both copied ?_
  rw [hc, quietly]
  refine both_bind (Both.mono paired ?_ fun _ _ h => h)
  rintro a b r r' ⟨-, parallel⟩
  exact ⟨copied, k, .refl k, id, rfl, parallel⟩

/-! ### Roots of commits -/

/-- Whoever has prepared knows the objects that it will overwrite. -/
theorem Kept.aims {tx : Transaction} (h : Kept s L) (htx : s.tx? t = some tx) (hp : tx.phase = .prepared) :
    Aims (Marks.of L.shared copied) s.heap.layout tx := by
  have backed := h.backed t tx htx
  have prepared := backed.prepared hp
  intro pair hpair head size hhead hsize
  rw [prepared.pairs] at hpair
  obtain ⟨r, hr, hpair⟩ := List.mem_filterMap.1 hpair
  obtain ⟨hk, addr⟩ := Record.pair?_eq_some.1 hpair
  obtain ⟨o, ho, root, -, same, -⟩ := backed.rooted (.inr hp) r hr _ hk
  have typeId : head.typeId = r.typeId := by
    rw [← (Arena.header_eq_ok.1 hhead).2, ← addr, prepared.header r hr _ hk, Record.header_typeId]
  rw [typeId, prepared.places.sized r hr] at hsize
  cases hsize
  rw [← root, ← same]
  have := h.shared.headerSize_le ho
  exact h.shared.clear ho (Nat.le_refl _) (by simp only [Record.stop]; omega)

/-- Fewer objects that may be marked. -/
theorem Action.Aims.narrow {m m' : Marks} {layout : Layout} {tx : Transaction} (h : Aims m layout tx)
    (sub : m'.objects ⊆ m.objects) : Aims m' layout tx :=
  fun pair hpair head size hhead hsize x hx => h pair hpair head size hhead hsize x (sub hx)

/-- A careful call keeps what the ledger says, and no shared object goes. -/
theorem careful.remains (h : Kept s L) (hc : careful s L c) :
    Kept (s.step c).2 (L.after s c) ∧ ∀ r ∈ L.shared, ∃ r' ∈ (L.after s c).shared, r'.addr = r.addr := by
  refine careful_divides.preserves (I := fun s' L' => Kept s' L' ∧ ∀ r ∈ L.shared, ∃ r' ∈ L'.shared, r'.addr = r.addr) ?_
    ⟨h, fun r hr => ⟨r, hr, rfl⟩⟩ hc
  intro s' L' c ⟨kept, remains⟩ whole care
  have e := step_effect (s := s') whole
  refine ⟨e.kept kept care, fun r hr => ?_⟩
  obtain ⟨r₁, hr₁, addr₁⟩ := remains r hr
  obtain ⟨r₂, hr₂, addr₂⟩ := (e.entry kept.ground).remains kept (kept.unstopped care e) r₁ hr₁
  exact ⟨r₂, hr₂, addr₂.trans addr₁⟩

/-! ### Tokens that are not kept track of -/

def Handle.untokened (h : Handle) : Handle := { h with tx := h.tx.map fun tx => { tx with tokens := .empty } }

structure Session.Retokened (s s' : Session) : Prop where
  shared : s'.heap.shared = s.heap.shared
  layout : s'.heap.layout = s.heap.layout
  config : s'.heap.config = s.heap.config
  threads : s'.heap.threads = s.heap.threads
  handles : ∀ t, (s'.handle? t).map Handle.untokened = (s.handle? t).map Handle.untokened

theorem Session.Agrees.retokened (h : s.Agrees s') : s.Retokened s' :=
  ⟨h.shared, h.layout, h.config, h.threads, fun t => by rw [handle?, handle?, h.handles]⟩

theorem Session.Retokened.trans {s'' : Session} (h : s.Retokened s') (h' : s'.Retokened s'') : s.Retokened s'' :=
  ⟨h'.shared.trans h.shared, h'.layout.trans h.layout, h'.config.trans h.config, h'.threads.trans h.threads,
    fun t => (h'.handles t).trans (h.handles t)⟩

theorem retokened_setTx {tx : Transaction} (htx : s.tx? t = some tx) (tokens : TokenTable) :
    s.Retokened (s.setTx t (some { tx with tokens })) := by
  refine ⟨rfl, rfl, rfl, rfl, fun i => ?_⟩
  rw [Session.handle?_setTx, Option.map_map]
  cases hh : s.handle? i with
  | none => rfl
  | some h =>
    rw [Option.map_some, Option.map_some, Function.comp_apply]
    split
    · rename_i own
      have tx : h.tx = some tx := by rw [← Session.tx?_of_handle? hh, ← Session.thread_of_handle? hh, own, htx]
      rw [Handle.untokened, Handle.untokened, tx]
      rfl
    · rfl

theorem retokened_token (s : Session) (t obj : Nat) : s.Retokened (s.step (.token t obj)).2 := by
  have e : Effect s (.token t obj) _ _ := step_effect nofun
  generalize (s.step (.token t obj)).1 = o at e
  generalize (s.step (.token t obj)).2 = s' at e
  have advanced : s.Retokened s.advance := ⟨rfl, rfl, rfl, rfl, fun _ => rfl⟩
  cases e with
  | refused _ _ agrees | answered _ agrees => exact agrees.retokened
  | attached hc => rcases hc with hc | hc <;> cases hc
  | exhausted _ agrees => exact advanced.trans agrees.retokened
  | @tokenIssued _ _ tx _ htx _ _ agrees =>
    have htx : s.advance.tx? t = some tx := htx
    exact (advanced.trans (retokened_setTx htx _)).trans agrees.retokened

theorem Session.Retokened.phase (h : s.Retokened s') (t : Nat) : (s'.tx? t).map (·.phase) = (s.tx? t).map (·.phase) := by
  have phase : ∀ s : Session, (s.tx? t).map (·.phase) = ((s.handle? t).map Handle.untokened).bind (·.tx.map (·.phase)) := by
    intro s
    rw [tx?]
    cases s.handle? t with
    | none => rfl
    | some h => simp only [Option.bind_some, Option.map_some, Handle.untokened, Option.map_map, Function.comp_def]
  rw [phase, phase, h.handles]

def Link.forget (k : Link) : Link := { k with tracked := False }

theorem Link.extends_forget (k : Link) : k.Extends k.forget := ⟨id, False.elim⟩

theorem Handle.Like.retoken {m : Marks} {a b a' b' : Handle} (like : a.Like m k b) (ha : a'.untokened = a.untokened)
    (hb : b'.untokened = b.untokened) : a'.Like m k.forget b' := by
  obtain ⟨i, tx⟩ := a
  obtain ⟨j, ty⟩ := b
  obtain ⟨i', tx'⟩ := a'
  obtain ⟨j', ty'⟩ := b'
  obtain ⟨thread, rel⟩ := like
  simp only [Handle.untokened, Handle.mk.injEq] at ha hb thread
  obtain ⟨rfl, ha⟩ := ha
  obtain ⟨rfl, hb⟩ := hb
  refine ⟨thread, ?_⟩
  dsimp only at rel ⊢
  cases rel with
  | none =>
    rw [Option.map_none, Option.map_eq_none_iff] at ha hb
    rw [ha, hb]
    exact .none
  | some like =>
    rw [Option.map_some, Option.map_eq_some_iff] at ha hb
    obtain ⟨x, rfl, ex⟩ := ha
    obtain ⟨y, rfl, ey⟩ := hb
    simp only [Transaction.mk.injEq] at ex ey
    obtain ⟨n, o, -, p, r⟩ := ex
    obtain ⟨n', o', -, p', r'⟩ := ey
    refine .some ⟨?_, ?_, ?_, ?_, nofun, ?_⟩
    · rw [n, n']
      exact like.nursery
    · rw [o, o', like.objects]
    · rw [p, p', like.phase]
    · rw [r, r', like.report]
    · rw [o]
      exact like.copied

theorem Parallel.retoken {m : Marks} (h : Parallel m hidden k s s') (r : s.Retokened s₁) (r' : s'.Retokened s₁') :
    Parallel m hidden k.forget s₁ s₁' := by
  refine ⟨?_, ?_, ?_, ?_, ?_, nofun, nofun, ?_, ?_⟩
  · rw [r.config, r'.config, h.config]
  · rw [r.layout, r'.layout, h.layout]
  · rw [r.threads, r'.threads, h.threads]
  · rw [r.shared, r'.shared]
    exact h.shared
  · rw [r.shared]
    exact h.below
  · intro t ne
    have e := r.handles t
    have e' := r'.handles t
    rcases h.handle_cases ne with ⟨ha, hb⟩ | ⟨a, b, ha, hb, like⟩ <;> rw [ha] at e <;> rw [hb] at e'
    · rw [Option.map_none, Option.map_eq_none_iff] at e e'
      rw [e, e']
      exact .none
    · rw [Option.map_some, Option.map_eq_some_iff] at e e'
      obtain ⟨a', ha', ea⟩ := e
      obtain ⟨b', hb', eb⟩ := e'
      rw [ha', hb']
      exact .some (like.retoken ea eb)
  · intro t own
    obtain ⟨⟨tx, htx, active⟩, attached, closed⟩ := h.secret t own
    refine ⟨?_, ?_, ?_⟩
    · have phase := r.phase t
      rw [htx, Option.map_some, Option.map_eq_some_iff] at phase
      obtain ⟨tx₁, htx₁, e⟩ := phase
      exact ⟨tx₁, htx₁, e.trans active⟩
    · have e := congrArg Option.isSome (r'.handles t)
      rwa [Option.isSome_map, Option.isSome_map, attached] at e
    · have phase := r'.phase t
      rwa [closed, Option.map_none, Option.map_eq_none_iff] at phase

/-! ### Threads that are shown -/

/-- A command that is not of the hidden thread goes the same way in both. -/
theorem Parallel.shown (h : Parallel (Marks.of L.shared copied) hidden k s s') (life : Lived careful s L)
    (care : careful s L c) (shown : ∀ t, c.thread? = some t → hidden ≠ some t) :
    ∃ copied k', Alongside L hidden k (c.asksToken = true → s.heap.nextToken < nurseryStart) c s s' copied k' := by
  have kept := life.kept
  have setting : ∀ {f : Session → Session}, (∀ s : Session, s.Agrees (f s)) →
      Paired (Marks.of L.shared copied) hidden k (modify f) s s' :=
    fun {f} agrees => both_modify ⟨rfl, h.agrees (agrees s) (agrees s')⟩
  cases c with
  | attachMain => exact alongside_of_paired rfl nofun (paired_attachMain h)
  | attachWorker => exact alongside_of_paired rfl nofun (paired_attachWorker h)
  | detach t => exact alongside_of_quietly rfl (paired_detach h (shown t rfl))
  | start t => exact alongside_of_quietly rfl (paired_start h (shown t rfl))
  | abort t => exact alongside_of_quietly rfl (paired_abort h (shown t rfl))
  | prepare t => exact alongside_of_paired rfl nofun (paired_prepare h (shown t rfl))
  | apply t => exact alongside_of_quietly rfl (paired_apply h (shown t rfl) fun _ htx hp => kept.aims htx hp)
  | finish t => exact alongside_of_paired rfl nofun (paired_finish h (shown t rfl))
  | commit t =>
    refine alongside_of_paired rfl nofun (paired_commit h (shown t rfl) ?_)
    intro report r hr tx htx hp
    have step : s.step (.prepare t) = (.ok (.report report), r) := by
      rw [step_map rfl, hr]
    obtain ⟨kept', remains⟩ := (careful_divides.prepare care).remains kept
    rw [step] at kept'
    have aims : Aims (Marks.of _ copied) r.heap.layout tx := kept'.aims htx hp
    exact aims.narrow (Marks.of_subset remains)
  | bump t size => exact alongside_of_paired rfl nofun (paired_bump h (shown t rfl) size)
  | create t typeId => exact alongside_of_paired rfl nofun (paired_create h (shown t rfl) typeId)
  | copyOnWrite t obj =>
    have both := both_copyOnWrite h kept (shown t rfl) (care.1 (t, obj) rfl).2
    refine alongside_of_both copied (both_map (both.mono ?_ fun _ _ h => h))
    rintro a b r r' ⟨rfl, copied, parallel⟩
    exact ⟨copied, k, .refl k, id, rfl, parallel⟩
  | read t obj offset => exact alongside_of_paired rfl nofun (paired_readWord h kept (shown t rfl) (care.1 (t, obj) rfl).2)
  | write t obj offset value => exact alongside_of_quietly rfl (paired_writeWord h kept (shown t rfl) (care.1 (t, obj) rfl).2)
  | header t obj =>
    have found : s.heap.spaceOf obj = .shared → obj ∈ (Marks.of L.shared copied).objects := by
      intro hspace
      obtain ⟨r, hr, rfl⟩ := (care.1 (t, obj) rfl).2 hspace
      exact List.mem_map_of_mem hr
    refine alongside_of_both copied (both_map ((both_header h (shown t rfl) found).mono ?_ fun _ _ h => h))
    intro a b r r' ⟨same, parallel⟩
    exact ⟨copied, k, .refl k, id, same, parallel⟩
  | canonical t obj => exact alongside_of_paired rfl nofun (paired_canonical h (shown t rfl) obj)
  | token t obj =>
    obtain ⟨own, found⟩ := care.1 (t, obj) rfl
    by_cases due : k.tracked ∧ s.heap.nextToken < nurseryStart
    · have both := both_tokenOf h kept life.standing (shown t rfl) own found due.1 due.2
      refine alongside_of_both copied (both_map (both.mono ?_ fun _ _ h => h))
      intro x y r r' ⟨k', more, still, same, parallel⟩
      exact ⟨copied, k', more, fun _ => still, same, parallel⟩
    · exact ⟨copied, k.forget, k.extends_forget, fun tracked room => due ⟨tracked, room rfl⟩,
        h.retoken (retokened_token s t obj) (retokened_token s' t obj),
        fun asks => (due ⟨(asks rfl).1, (asks rfl).2 rfl⟩).elim⟩
  | setEvents enabled => exact alongside_of_quietly rfl (setting fun _ => ⟨rfl, rfl, rfl, rfl, rfl, rfl, rfl⟩)
  | clearEvents => exact alongside_of_quietly rfl (setting fun _ => ⟨rfl, rfl, rfl, rfl, rfl, rfl, rfl⟩)
  | configureLog config => exact alongside_of_quietly rfl (setting fun _ => ⟨rfl, rfl, rfl, rfl, rfl, rfl, rfl⟩)

/-! ### The thread that is hidden -/

section

variable {m : Marks} {w : Nat} {tx : Transaction}

theorem Session.handle?_setTx_of_ne {tx : Option Transaction} (ne : t ≠ w) : (s.setTx w tx).handle? t = s.handle? t := by
  rw [handle?_setTx]
  cases hh : s.handle? t with
  | none => rfl
  | some h => rw [Option.map_some, if_neg fun e => ne (by rw [← thread_of_handle? hh, e])]

theorem Session.setShared_setTx (s : Session) (t : Nat) (tx : Option Transaction) (a : Arena) :
    (s.setTx t tx).setShared a = (s.setShared a).setTx t tx := rfl

/-- An active transaction is opened, or goes on, in the first session only. -/
theorem Parallel.hide (h : Parallel m hidden k s s') (only : ∀ t, hidden = some t → t = w) (active : tx.phase = .active)
    (attached : (s.handle? w).isSome = true) (attached' : (s'.handle? w).isSome = true) (closed : s'.tx? w = none) :
    Parallel m (some w) k (s.setTx w (some tx)) s' := by
  refine ⟨h.config, h.layout, h.threads, h.shared, h.below, h.tokens, h.counted, ?_, ?_⟩
  · intro t ne
    have ne : t ≠ w := fun e => ne (congrArg some e.symm)
    rw [Session.handle?_setTx_of_ne ne]
    exact h.handles t fun e => ne (only t e)
  · intro t e
    cases e
    exact ⟨⟨tx, Session.tx?_setTx_self attached, active⟩, attached', closed⟩

/-- The transaction is gone. -/
theorem Parallel.reveal (h : Parallel m (some w) k s s') : Parallel m none k (s.setTx w none) s' := by
  refine ⟨h.config, h.layout, h.threads, h.shared, h.below, h.tokens, h.counted, ?_, nofun⟩
  intro t _
  by_cases e : t = w
  · subst e
    obtain ⟨⟨tx, htx, -⟩, attached, closed⟩ := h.secret t rfl
    obtain ⟨a, ha⟩ := Option.isSome_iff_exists.1 (Session.handle?_isSome_of_tx? htx)
    obtain ⟨b, hb⟩ := Option.isSome_iff_exists.1 attached
    rw [Session.handle?_setTx, ha, hb, Option.map_some, if_pos (Session.thread_of_handle? ha)]
    refine .some ⟨(Session.thread_of_handle? hb).trans (Session.thread_of_handle? ha).symm, ?_⟩
    rw [← Session.tx?_of_handle? hb, closed]
    exact .none
  · rw [Session.handle?_setTx_of_ne e]
    exact h.handles t fun own => e (Option.some.inj own).symm

/-- The hidden transaction goes on. -/
theorem Parallel.goOn (h : Parallel m (some w) k s s') (active : tx.phase = .active) :
    Parallel m (some w) k (s.setTx w (some tx)) s' := by
  obtain ⟨⟨tx₀, htx, -⟩, attached, closed⟩ := h.secret w rfl
  exact h.hide (fun _ e => (Option.some.inj e).symm) active (Session.handle?_isSome_of_tx? htx) attached closed

/-- Tokens are used up in the first session only. -/
theorem Parallel.advance (h : Parallel m hidden k s s') (room : k.tracked → s.heap.nextToken < nurseryStart) :
    Parallel m hidden k s.advance s' := by
  refine h.extend (.refl k) fun tracked => ?_
  have counted := h.counted tracked
  rw [Session.nextToken_eq (room tracked)]
  exact ⟨Nat.le_add_right_of_le counted.order, fun same =>
    ⟨Nat.lt_add_right _ (counted.issued same).1, (counted.issued same).2⟩⟩

theorem Parallel.forget (h : Parallel m hidden k s s') : Parallel m hidden k.forget s s' :=
  h.extend k.extends_forget nofun

/-- An object is marked in the first session only. -/
theorem Parallel.markHidden {r : Record} {head : Header} (h : Parallel (Marks.of L.shared copied) hidden k s s')
    (kept : Kept s L) (hr : r ∈ L.shared) (hhead : s.heap.shared.header r.addr = .ok head) :
    Parallel (Marks.of L.shared copied) hidden k
      (s.setShared { s.heap.shared with memory := s.heap.shared.memory.setHeaderAt r.addr head.markCopied }) s' := by
  obtain ⟨-, rfl⟩ := Arena.header_eq_ok.1 hhead
  have fits : (s.heap.shared.memory.headerAt r.addr).markCopied.Fits := by
    obtain ⟨mark, fits⟩ := kept.fits_mark hr
    rwa [kept.shared.header r hr, ← mark]
  have marked := h.shared.mark (kept.shared.heads_apart hr) (List.mem_map_of_mem hr) fits
  have free : s.heap.shared.freePointer ≤ Arena.freePointer { s.heap.shared with
      memory := s.heap.shared.memory.setHeaderAt r.addr (s.heap.shared.memory.headerAt r.addr).markCopied } := by
    simp only [Arena.freePointer, Nat.le_refl]
  exact h.setShared marked free

/-- A call of the hidden thread that leaves its transaction active is nothing to the shadow. -/
theorem Parallel.unseen (h : Parallel (Marks.of L.shared copied) (some w) k s s') (kept : Kept s L) (care : careful s L c)
    (own : c.thread? = some w) (stays : c.endsPhase = false) :
    ∃ k', k.Extends k' ∧ (k.tracked → (c.asksToken = true → s.heap.nextToken < nurseryStart) → k'.tracked) ∧
      Parallel (Marks.of L.shared copied) (some w) k' (s.step c).2 s' := by
  obtain ⟨⟨tx, htx, active⟩, -⟩ := h.secret w rfl
  have worker : w ≠ mainThread := (kept.ground.workers w tx htx).1
  have found : ∀ x ∈ c.object?, L.HasShared s x.2 := fun x hx => (care.1 x hx).2
  have e : Effect s c _ _ := step_effect fun t e => by subst e; cases stays
  generalize (s.step c).1 = o at e
  generalize (s.step c).2 = s₁ at e
  have goes : ∀ {s₀}, Parallel (Marks.of L.shared copied) (some w) k s₀ s' → s₀.Agrees s₁ → ∃ k', k.Extends k' ∧
      (k.tracked → (c.asksToken = true → s.heap.nextToken < nurseryStart) → k'.tracked) ∧
      Parallel (Marks.of L.shared copied) (some w) k' s₁ s' :=
    fun h agrees => ⟨k, .refl k, fun tracked _ => tracked, h.agrees agrees (.refl s')⟩
  have only : ∀ {x}, s.tx? w = some x → x = tx := fun hx => Option.some.inj (hx.symm.trans htx)
  cases e with
  | refused _ _ agrees | answered _ agrees | uncopied agrees | recopied _ _ _ _ _ _ agrees => exact goes h agrees
  | tokenIssued htx' _ room agrees =>
    cases own
    obtain rfl := only htx'
    refine goes ((h.advance fun _ => room).goOn ?_) agrees
    exact active
  | exhausted full agrees =>
    refine ⟨k.forget, k.extends_forget, fun _ room => absurd (room rfl) (Nat.not_lt_of_le full), ?_⟩
    exact (h.forget.advance nofun).agrees agrees (.refl s')
  | attached hc => rcases hc with rfl | rfl <;> cases own
  | detached | aborted | prepared | prepareFailed | prepareStopped => cases stays
  | started _ _ hnone =>
    cases own
    rw [htx] at hnone
    cases hnone
  | finished htx' hphase | applied htx' hphase | applyStopped htx' hphase =>
    cases own
    obtain rfl := only htx'
    rw [active] at hphase
    cases hphase
  | bumpedShared | createdShared | wroteShared =>
    cases own
    exact absurd rfl worker
  | bumped _ htx' _ agrees | created _ htx' _ _ _ agrees | stranded _ htx' _ _ agrees | wrote htx' _ _ _ _ agrees =>
    cases own
    obtain rfl := only htx'
    refine goes (h.goOn ?_) agrees
    exact active
  | @copied t obj _ _ _ _ _ _ _ htx' _ _ hspace _ hhead _ _ _ _ agrees =>
    cases own
    obtain rfl := only htx'
    obtain ⟨r, hr, rfl⟩ := found (w, obj) rfl hspace
    rw [Session.setShared_setTx] at agrees
    refine goes ((h.markHidden kept hr hhead).goOn ?_) agrees
    exact active

end

/-! ## More objects -/

section

variable {m : Marks} {rs rs' : List Record} {layout : Layout} {a b : Arena}

/-- Arenas that are like one another but for some objects are like one another but for more of them. -/
theorem Arena.Like.widen (h : a.Like (Marks.of rs copied) b) (places : a.Places layout rs')
    (remains : ∀ r ∈ rs, ∃ r' ∈ rs', r'.addr = r.addr) : a.Like (Marks.of rs' copied) b := by
  have sub : (Marks.of rs copied).objects ⊆ (Marks.of rs' copied).objects := Marks.of_subset remains
  refine ⟨h.extent, fun i hi => h.bytes i fun x hx => hi x (sub hx), ?_, fun x hx => ?_⟩
  · intro x hx
    by_cases old : x ∈ (Marks.of rs copied).objects
    · exact h.marks x old
    · obtain ⟨r, hr, rfl⟩ := List.mem_map.1 hx
      -- the header of a new object is clear of the old ones
      have clear : (Marks.of rs copied).Clear r.addr headerSize := fun y hy =>
        (places.heads_apart hr y (sub hy) fun e => old (e ▸ hy)).symm
      rw [h.headerAt clear]
  · obtain ⟨mem, marked⟩ := h.copied x hx
    exact ⟨sub mem, marked⟩

theorem Parallel.widen (h : Parallel (Marks.of rs copied) hidden k s s') (places : s.heap.shared.Places layout rs')
    (remains : ∀ r ∈ rs, ∃ r' ∈ rs', r'.addr = r.addr) : Parallel (Marks.of rs' copied) hidden k s s' :=
  ⟨h.config, h.layout, h.threads, h.shared.widen places remains, places.heads_below, h.tokens, h.counted,
    h.imp_handles fun _ _ like => like.more fun _ hx => hx, h.secret⟩

end

/-! ## A session is its own shadow -/

def Link.initial (s : Session) (tracked : Prop) (start : tracked → tokenStart ≤ s.heap.nextToken) : Link where
  tracked := tracked
  same x y := x = y ∧ (tracked → x < s.heap.nextToken)
  once := by
    rintro x y x' y' ⟨rfl, -⟩ ⟨rfl, -⟩
    exact Iff.rfl
  address h := ⟨rfl, fun tracked => Nat.lt_of_lt_of_le h (start tracked)⟩

def Ledger.markedObjects (L : Ledger) : List Nat := (L.shared.filter fun r => r.header.isCopied).map Record.addr

theorem Parallel.self (life : Lived careful s L) {tracked : Prop} (minted : tracked → Minted s) :
    Parallel (Marks.of L.shared L.markedObjects) none (.initial s tracked fun h => (minted h).start) s s := by
  have kept := life.kept
  have linked : ∀ tokens : TokenTable, (∀ addr x, tokens.get? addr = some x → ∃ n, Holds s x n) →
      tokens.Linked (.initial s tracked fun h => (minted h).start) tokens := by
    intro tokens held isTracked addr
    cases hx : tokens.get? addr with
    | none => exact .none
    | some x =>
      obtain ⟨n, hn⟩ := held addr x hx
      exact .some ⟨rfl, fun _ => ((minted isTracked).range n x hn).2⟩
  refine ⟨rfl, rfl, rfl, .refl _ ?_, kept.shared.heads_below, ?_, ?_, ?_, nofun⟩
  · intro x hx
    obtain ⟨r, hr, rfl⟩ := List.mem_map.1 hx
    obtain ⟨hr, marked⟩ := List.mem_filter.1 hr
    exact ⟨List.mem_map_of_mem hr, by rw [kept.shared.header r hr]; exact marked⟩
  · exact linked _ fun addr x hx => ⟨_, .shared hx⟩
  · exact fun isTracked => ⟨Nat.le_refl _, fun {x y} same => by
      obtain ⟨rfl, below⟩ := same
      exact ⟨below isTracked, below isTracked⟩⟩
  · intro t _
    cases hh : s.handle? t with
    | none => exact .none
    | some h =>
      refine .some ⟨rfl, ?_⟩
      cases htx : h.tx with
      | none => exact .none
      | some tx =>
        have own : s.tx? t = some tx := (Session.tx?_of_handle? hh).trans htx
        refine .some ⟨.refl_none _, rfl, rfl, rfl, linked _ fun addr x hx => ⟨_, .own own hx⟩, ?_⟩
        intro pair hpair
        obtain ⟨o, ho, addr, whole, hk⟩ := life.marked t tx own pair hpair
        rw [← addr]
        exact List.mem_map_of_mem (List.mem_filter.2 ⟨ho, (Record.header_shared hk).2.2⟩)

end

end TxHeap

/-
  TxHeap.Proofs.Parallel — two sessions side by side.

  The sessions are `Parallel` if their threads have the same transactions, up to tokens, and
  their shared heaps hold the same bytes, up to the marks of objects that have been copied.
  One thread may be `hidden`: it has an active transaction in the first session and none in
  the second. A call by any other thread that does not name an object goes the same way in
  both (`Action.Paired`): threads come and go, transactions start and end, and a commit goes
  through all its steps. For a commit it must be known that the roots are objects (`Aims`),
  so that nothing is written over a mark.
-/
import TxHeap.Proofs.Ground
import TxHeap.Proofs.Rehearsal

namespace TxHeap

/-! ## Parallel sessions -/

structure Handle.Like (m : Marks) (k : Link) (h h' : Handle) : Prop where
  thread : h'.thread = h.thread
  tx : Option.Rel (Transaction.Like m k) h.tx h'.tx

/-- The tokens that go together have all been issued; the first session may have issued more. -/
structure Link.Counted (k : Link) (next next' : Nat) : Prop where
  order : next' ≤ next
  issued : ∀ {x y}, k.same x y → x < next ∧ y < next'

structure Parallel (m : Marks) (hidden : Option Nat) (k : Link) (s s' : Session) : Prop where
  config : s'.heap.config = s.heap.config
  layout : s'.heap.layout = s.heap.layout
  threads : s'.heap.threads = s.heap.threads
  shared : s.heap.shared.Like m s'.heap.shared
  below : ∀ x ∈ m.objects, x + headerSize ≤ s.heap.shared.freePointer
  tokens : s.heap.tokens.Linked k s'.heap.tokens
  counted : k.tracked → k.Counted s.heap.nextToken s'.heap.nextToken
  handles : ∀ t, hidden ≠ some t → Option.Rel (Handle.Like m k) (s.handle? t) (s'.handle? t)
  secret : ∀ t, hidden = some t →
    (∃ tx, s.tx? t = some tx ∧ tx.phase = .active) ∧ (s'.handle? t).isSome = true ∧ s'.tx? t = none

section

variable {m : Marks} {hidden : Option Nat} {k : Link} {s s' s₁ s₁' : Session} {t obj : Nat}

namespace Parallel

theorem agrees (h : Parallel m hidden k s s') (a : s.Agrees s₁) (a' : s'.Agrees s₁') : Parallel m hidden k s₁ s₁' := by
  refine ⟨?_, ?_, ?_, ?_, ?_, ?_, ?_, ?_, ?_⟩
  · rw [a.config, a'.config, h.config]
  · rw [a.layout, a'.layout, h.layout]
  · rw [a.threads, a'.threads, h.threads]
  · rw [a.shared, a'.shared]
    exact h.shared
  · rw [a.shared]
    exact h.below
  · rw [a.tokens, a'.tokens]
    exact h.tokens
  · rw [a.nextToken, a'.nextToken]
    exact h.counted
  · intro t ne
    rw [Session.handle?, Session.handle?, a.handles, a'.handles]
    exact h.handles t ne
  · intro t e
    rw [a.tx?, a'.tx?, Session.handle?, a'.handles]
    exact h.secret t e

/-- A thread that is shown is attached in both sessions or in neither. -/
theorem handle_cases (h : Parallel m hidden k s s') (shown : hidden ≠ some t) :
    s.handle? t = none ∧ s'.handle? t = none ∨ ∃ a b, s.handle? t = some a ∧ s'.handle? t = some b ∧ a.Like m k b := by
  have rel := h.handles t shown
  cases hs : s.handle? t <;> cases hs' : s'.handle? t <;> rw [hs, hs'] at rel <;> cases rel
  · exact .inl ⟨rfl, rfl⟩
  · exact .inr ⟨_, _, rfl, rfl, ‹_›⟩

theorem note (h : Parallel m hidden k s s') (n n' : Notice) : Parallel m hidden k (s.note n) (s'.note n') :=
  h.agrees ((Session.Agrees.refl s).note n) ((Session.Agrees.refl s').note n')

theorem setShared {a b : Arena} (h : Parallel m hidden k s s') (like : a.Like m b)
    (more : s.heap.shared.freePointer ≤ a.freePointer) : Parallel m hidden k (s.setShared a) (s'.setShared b) :=
  ⟨h.config, h.layout, h.threads, like, fun x hx => Nat.le_trans (h.below x hx) more, h.tokens, h.counted, h.handles, h.secret⟩

theorem setTx {tx tx' : Option Transaction} (h : Parallel m hidden k s s') (shown : hidden ≠ some t)
    (like : Option.Rel (Transaction.Like m k) tx tx') : Parallel m hidden k (s.setTx t tx) (s'.setTx t tx') := by
  refine ⟨h.config, h.layout, h.threads, h.shared, h.below, h.tokens, h.counted, ?_, ?_⟩
  · intro i ne
    rw [Session.handle?_setTx, Session.handle?_setTx]
    rcases h.handle_cases ne with ⟨e, e'⟩ | ⟨a, b, e, e', found⟩ <;> rw [e, e']
    · exact .none
    · refine .some ?_
      show Handle.Like m k (if a.thread = t then _ else _) (if b.thread = t then _ else _)
      rw [found.thread]
      split
      · exact ⟨rfl, like⟩
      · exact found
  · intro i e
    have ne : i ≠ t := fun e' => shown (e' ▸ e)
    obtain ⟨active, attached, closed⟩ := h.secret i e
    rw [Session.tx?_setTx_of_ne ne, Session.tx?_setTx_of_ne ne, Session.handle?_setTx, Option.isSome_map]
    exact ⟨active, attached, closed⟩

theorem adopt {base : Nat} {p p' : Preparation} {settle settle' : Transaction → Transaction} (h : Parallel m hidden k s s')
    (shown : hidden ≠ some t) (like : p.Like base m k p') (settled : (settle p.tx).Like m k (settle' p'.tx)) :
    Parallel m hidden k (s.adopt t p settle) (s'.adopt t p' settle') :=
  have set := h.setTx shown (.some settled)
  ⟨h.config, h.layout, h.threads, like.shared, fun x hx => Nat.le_trans (like.below x hx) like.free, like.tokens, h.counted,
    set.handles, set.secret⟩

theorem attach (h : Parallel m hidden k s s') (t : Nat) (threads : Threads) :
    Parallel m hidden k (s.withHandles threads (s.handles ++ [⟨t, none⟩]))
      (s'.withHandles threads (s'.handles ++ [⟨t, none⟩])) := by
  have found : ∀ (s : Session) (i : Nat), (s.withHandles threads (s.handles ++ [⟨t, none⟩])).handle? i =
      (s.handle? i).or (if t = i then some ⟨t, none⟩ else none) := by
    intro s i
    rw [Session.withHandles, Session.handle?, List.find?_append, List.find?_singleton]
    simp only [beq_iff_eq]
    rfl
  refine ⟨h.config, h.layout, rfl, h.shared, h.below, h.tokens, h.counted, ?_, ?_⟩
  · intro i ne
    rw [found, found]
    rcases h.handle_cases ne with ⟨e, e'⟩ | ⟨a, b, e, e', like⟩ <;> rw [e, e']
    · simp only [Option.none_or]
      split
      · exact .some ⟨rfl, .none⟩
      · exact .none
    · exact .some like
  · intro i e
    obtain ⟨active, attached, closed⟩ := h.secret i e
    rw [Session.withHandles, Session.withHandles, Session.tx?_attach, Session.tx?_attach]
    refine ⟨active, ?_, closed⟩
    have := found s' i
    rw [Session.withHandles] at this
    rw [this, Option.isSome_or, attached, Bool.true_or]

theorem detach (h : Parallel m hidden k s s') (shown : hidden ≠ some t) :
    Parallel m hidden k (s.withHandles (s.heap.threads.detach t) (s.handles.filter (·.thread != t)))
      (s'.withHandles (s'.heap.threads.detach t) (s'.handles.filter (·.thread != t))) := by
  have found : ∀ (s : Session) (threads : Threads) (i : Nat),
      (s.withHandles threads (s.handles.filter (·.thread != t))).handle? i = if i = t then none else s.handle? i := by
    intro s threads i
    rw [Session.withHandles, Session.handle?, List.find?_filter, Session.handle?]
    split
    · rename_i e
      subst e
      refine List.find?_eq_none.2 fun x _ hx => ?_
      simp at hx
    · rename_i ne
      refine congrArg (List.find? · _) (funext fun x => ?_)
      by_cases e : x.thread = i
      · simp [e, ne]
      · simp [e]
  refine ⟨h.config, h.layout, ?_, h.shared, h.below, h.tokens, h.counted, ?_, ?_⟩
  · simp only [Session.withHandles, h.threads]
  · intro i ne
    rw [found, found]
    split
    · exact .none
    · exact h.handles i ne
  · intro i e
    have ne : i ≠ t := fun e' => shown (e' ▸ e)
    obtain ⟨active, attached, closed⟩ := h.secret i e
    simp only [Session.tx?, found, if_neg ne]
    exact ⟨active, attached, closed⟩

end Parallel

/-! ## Calls -/

namespace Action

open Step

variable {α : Type} {ok : Handle → Handle → Session → Session → Prop} {bad : Session → Session → Prop}

/-- The call has the same answer in both sessions, and leaves them parallel. -/
abbrev Paired (m : Marks) (hidden : Option Nat) (k : Link) (call : Action α) (s s' : Session) : Prop :=
  Both call call s s' (fun a b t t' => b = a ∧ Parallel m hidden k t t') (Parallel m hidden k)

theorem both_handle (h : Parallel m hidden k s s') (shown : hidden ≠ some t)
    (hok : ∀ a b, s.handle? t = some a → s'.handle? t = some b → a.Like m k b → ok a b s s') (hbad : bad s s') :
    Both (handle t) (handle t) s s' ok bad := by
  rw [handle]
  refine both_bind (both_get ?_)
  rcases h.handle_cases shown with ⟨e, e'⟩ | ⟨a, b, e, e', like⟩ <;> rw [e, e']
  · exact ⟨rfl, hbad⟩
  · exact hok a b e e' like

theorem both_openTx {operation : String} {ok : Transaction → Transaction → Session → Session → Prop}
    (h : Parallel m hidden k s s') (shown : hidden ≠ some t)
    (hok : ∀ tx tx', s.tx? t = some tx → s'.tx? t = some tx' → tx.Like m k tx' → ok tx tx' s s') (hbad : bad s s') :
    Both (openTx t operation) (openTx t operation) s s' ok bad := by
  rw [openTx]
  refine both_bind (both_handle h shown ?_ hbad)
  intro a b ha hb like
  have tx := Session.tx?_of_handle? ha
  have tx' := Session.tx?_of_handle? hb
  have rel := like.tx
  cases hx : a.tx <;> cases hy : b.tx <;> rw [hx, hy] at rel <;> cases rel
  · exact ⟨rfl, hbad⟩
  · exact hok _ _ (tx.trans hx) (tx'.trans hy) ‹_›

theorem requirePhase_like {tx tx' : Transaction} (like : tx.Like m k tx') (operation : String) (phase : Phase) :
    tx'.requirePhase operation phase = tx.requirePhase operation phase := by
  simp only [Transaction.requirePhase, like.phase]

/-! ### Coming and going -/

theorem paired_attachMain (h : Parallel m hidden k s s') : Paired m hidden k attachMain s s' := by
  rw [attachMain]
  refine both_bind (both_get (both_bind ?_))
  rw [h.threads]
  refine both_attempt (fun threads _ => ?_) h
  exact ⟨rfl, (h.attach mainThread threads).note _ _⟩

theorem paired_attachWorker (h : Parallel m hidden k s s') : Paired m hidden k attachWorker s s' := by
  rw [attachWorker]
  refine both_bind (both_get (both_bind ?_))
  rw [h.threads, h.config]
  refine both_attempt (fun x _ => ?_) h
  obtain ⟨t, threads⟩ := x
  exact ⟨rfl, (h.attach t threads).note _ _⟩

theorem paired_detach (h : Parallel m hidden k s s') (shown : hidden ≠ some t) : Paired m hidden k (detach t) s s' := by
  rw [detach]
  refine both_bind (both_handle h shown ?_ h)
  intro a b _ _ like
  have gone : Both (a.tx.forM (dropOpen t)) (b.tx.forM (dropOpen t)) s s' (fun _ _ => Parallel m hidden k)
      (Parallel m hidden k) := by
    have rel := like.tx
    cases hx : a.tx <;> cases hy : b.tx <;> rw [hx, hy] at rel <;> cases rel
    · exact h
    · rename_i tx tx' like
      show Both (dropOpen t tx) (dropOpen t tx') s s' _ _
      rw [dropOpen, dropOpen, like.phase]
      split
      · exact h.note _ _
      · exact (h.agrees (((Session.Agrees.refl s).count _).emit _) (((Session.Agrees.refl s').count _).emit _)).note _ _
  refine both_bind (gone.mono ?_ fun _ _ h => h)
  intro _ _ r r' hr
  exact ⟨rfl, (hr.detach shown).note _ _⟩

theorem paired_start (h : Parallel m hidden k s s') (shown : hidden ≠ some t) : Paired m hidden k (start t) s s' := by
  rw [start]
  refine both_bind (both_handle h shown ?_ h)
  intro a b _ _ like
  have same : b.tx.isNone = a.tx.isNone := by
    have rel := like.tx
    cases hx : a.tx <;> cases hy : b.tx <;> rw [hx, hy] at rel
    · cases rel
    · cases rel
    · rfl
  rw [same]
  refine both_bind (both_demand ?_ h)
  intro _
  refine both_bind (both_demand ?_ h)
  intro _
  refine both_bind (both_get (both_bind ?_))
  have nursery : s'.heap.newNursery t = s.heap.newNursery t := by simp only [Heap.newNursery, h.config]
  rw [nursery]
  refine both_attempt (fun nursery _ => ?_) h
  have fresh : Transaction.Like m k (.fresh nursery) (.fresh nursery) := by
    refine ⟨.refl_none nursery, rfl, rfl, rfl, fun _ _ => ?_, List.forall_mem_nil _⟩
    rw [Transaction.fresh, TokenTable.get?_empty]
    exact .none
  have opened := h.setTx shown (.some fresh)
  exact ⟨rfl, opened.agrees ((((Session.Agrees.refl _).count _).emit _).note _)
    ((((Session.Agrees.refl _).count _).emit _).note _)⟩

theorem paired_abort (h : Parallel m hidden k s s') (shown : hidden ≠ some t) : Paired m hidden k (abort t) s s' := by
  rw [abort]
  refine both_bind (both_openTx h shown ?_ h)
  intro tx tx' _ _ like
  rw [like.phase, like.objects]
  refine both_bind (both_demand (fun _ => ?_) h)
  exact ⟨rfl, (h.setTx shown .none).agrees ((((Session.Agrees.refl _).count _).emit _).note _)
    ((((Session.Agrees.refl _).count _).emit _).note _)⟩

theorem paired_finish (h : Parallel m hidden k s s') (shown : hidden ≠ some t) : Paired m hidden k (finish t) s s' := by
  rw [finish]
  refine both_bind (both_openTx h shown ?_ h)
  intro tx tx' _ _ like
  rw [requirePhase_like like, like.report, like.nursery.used]
  refine both_bind (both_attempt (fun _ _ => ?_) h)
  exact ⟨rfl, (h.setTx shown .none).agrees (((((Session.Agrees.refl _).count _).emit _).emit _).note _)
    (((((Session.Agrees.refl _).count _).emit _).emit _).note _)⟩

/-! ### The steps of a commit -/

theorem like_ofHeap {tx tx' : Transaction} (h : Parallel m hidden k s s') (like : tx.Like m k tx') :
    Preparation.Like s.heap.shared.freePointer m k (.ofHeap s.heap tx) (.ofHeap s'.heap tx') where
  shared := h.shared
  below := h.below
  tx := like
  tokens := h.tokens
  buffer := by simp only [Preparation.ofHeap, h.config]
  pending := by simp only [Preparation.ofHeap, like.objects]
  weakHolders := rfl
  report := by simp only [Preparation.ofHeap, like.objects]
  waiting := by
    intro item hitem
    simp only [Preparation.ofHeap, List.mem_reverse, List.mem_map] at hitem
    obtain ⟨pair, -, rfl⟩ := hitem
    trivial
  held := nofun
  chunk := .inl rfl
  free := Nat.le_refl _

theorem paired_runPreparation {tx tx' : Transaction} (h : Parallel m hidden k s s') (shown : hidden ≠ some t)
    (like : tx.Like m k tx') :
    Both (runPreparation t tx) (runPreparation t tx') s s' (fun a b r r' => b = a ∧ Parallel m hidden k r r')
      (Parallel m hidden k) := by
  unfold Both
  rw [runPreparation, runPreparation, h.layout]
  obtain ⟨report, _, q, q', hp, hp', rfl, like⟩ | ⟨f, q, q', hp, hp', like⟩ :=
    (Prepare.like_run s.heap.layout t _ _ (like_ofHeap h like)).cases
  · rw [hp, hp']
    exact ⟨rfl, (h.adopt shown like ⟨like.tx.nursery, like.tx.objects, rfl, rfl, like.tx.tokens, like.tx.copied⟩).note _ _⟩
  · rw [hp, hp']
    cases f with
    | refused cause =>
      have failed : q.tx.failed.Like m k q'.tx.failed :=
        ⟨like.tx.nursery, like.tx.objects, rfl, like.tx.report, like.tx.tokens, like.tx.copied⟩
      exact ⟨rfl, (h.adopt shown like failed).note _ _⟩
    | overflow | fatal | detached => exact ⟨rfl, h.adopt shown like like.tx⟩

theorem paired_prepare (h : Parallel m hidden k s s') (shown : hidden ≠ some t) : Paired m hidden k (prepare t) s s' := by
  rw [prepare]
  refine both_bind (both_openTx h shown ?_ h)
  intro tx tx' _ _ like
  rw [requirePhase_like like]
  exact both_bind (both_attempt (fun _ _ => paired_runPreparation h shown like) h)

/-- The roots of the transaction take whole bodies without touching a header that may bear a mark. -/
def Aims (m : Marks) (layout : Layout) (tx : Transaction) : Prop :=
  ∀ pair ∈ tx.objects.pairs, ∀ head size, tx.nursery.header pair.2 = .ok head → layout.objectSize head.typeId = .ok size →
    m.Clear (pair.1 + headerSize) (size - headerSize)

theorem sub_eq_ok {x y z : Nat} (h : Word.sub x y = .ok z) : z = x - y := by
  unfold Word.sub at h
  split at h
  · cases h
    rfl
  · cases h

theorem both_overwrite {layout : Layout} {tx tx' : Transaction} {a b : Arena} {pair : Nat × Nat} (like : tx.Like m k tx')
    (h : a.Like m b) (aims : Aims m layout tx) (hpair : pair ∈ tx.objects.pairs) :
    Attempt.Both (Arena.Like m) (overwrite layout tx a pair.1 pair.2) (overwrite layout tx' b pair.1 pair.2) := by
  rw [overwrite, overwrite, like.nursery.header (Marks.clear_none _ _)]
  refine Attempt.both_bind (Attempt.both_of_eq rfl) ?_
  rintro head _ rfl hhead -
  refine Attempt.both_bind (Attempt.both_of_eq rfl) ?_
  rintro size _ rfl hsize -
  refine Attempt.both_bind (Attempt.both_of_eq rfl) ?_
  rintro payload _ rfl hpayload -
  refine Attempt.both_bind (Attempt.both_of_eq rfl) ?_
  rintro target _ rfl htarget -
  rw [h.checkAccess]
  refine Attempt.both_bind (Attempt.both_of_eq rfl) ?_
  rintro _ _ - - -
  refine Attempt.both_bind (Attempt.both_of_eq rfl) ?_
  rintro source _ rfl - -
  rw [like.nursery.read (Marks.clear_none _ _)]
  refine Attempt.both_bind (Attempt.both_of_eq rfl) ?_
  rintro bytes _ rfl hbytes -
  have target_eq := payloadAddress_eq_ok htarget
  have payload_eq := sub_eq_ok (Attempt.arith_eq_ok.1 hpayload)
  obtain ⟨-, rfl⟩ := Arena.read_eq_ok.1 hbytes
  refine h.write ((aims pair hpair head size hhead hsize).sub (by omega) ?_)
  rw [Memory.length_read]
  omega

theorem both_overwriteAll {layout : Layout} {tx tx' : Transaction} {a b : Arena} (like : tx.Like m k tx') (h : a.Like m b)
    (aims : Aims m layout tx) :
    Both (overwriteAll layout tx tx.objects.pairs) (overwriteAll layout tx' tx.objects.pairs) a b
      (fun _ _ (a' b' : Arena) => a'.Like m b' ∧ a'.freePointer = a.freePointer)
      (fun (a' b' : Arena) => a'.Like m b' ∧ a'.freePointer = a.freePointer) := by
  refine both_forM (fun a' b' : Arena => a'.Like m b' ∧ a'.freePointer = a.freePointer) ?_ ⟨h, rfl⟩
  rintro ⟨root, copy⟩ hpair a' b' ⟨h, free⟩
  unfold Both
  dsimp only
  obtain ⟨a'', b'', ha, hb, like'⟩ | ⟨f, ha, hb⟩ := (both_overwrite like h aims hpair).cases <;> dsimp only at ha hb <;>
    rw [ha, hb]
  · obtain ⟨target, bytes, -, rfl⟩ := overwrite_eq_ok ha
    exact ⟨like', free⟩
  · exact ⟨rfl, h, free⟩

theorem paired_runOverwrite {tx tx' : Transaction} (h : Parallel m hidden k s s') (shown : hidden ≠ some t)
    (like : tx.Like m k tx') (aims : Aims m s.heap.layout tx) :
    Both (runOverwrite t tx) (runOverwrite t tx') s s' (fun a b r r' => b = a ∧ Parallel m hidden k r r')
      (Parallel m hidden k) := by
  have pairs : tx'.objects.pairs = tx.objects.pairs := by rw [like.objects]
  unfold Both
  rw [runOverwrite, runOverwrite, h.layout, pairs]
  obtain ⟨_, _, a, b, hp, hp', shared, free⟩ | ⟨f, a, b, hp, hp', shared, free⟩ :=
    (both_overwriteAll like h.shared aims).cases
  · rw [hp, hp']
    have stored := h.setShared shared (Nat.le_of_eq free.symm)
    exact ⟨rfl, stored.setTx shown (.some ⟨like.nursery, like.objects, rfl, like.report, like.tokens, like.copied⟩)⟩
  · rw [hp, hp']
    have stored := h.setShared shared (Nat.le_of_eq free.symm)
    cases f with
    | refused cause =>
      have failed : tx.failed.Like m k tx'.failed :=
        ⟨like.nursery, like.objects, rfl, like.report, like.tokens, like.copied⟩
      exact ⟨rfl, (stored.setTx shown (.some failed)).note _ _⟩
    | overflow | fatal | detached => exact ⟨rfl, stored⟩

theorem paired_apply (h : Parallel m hidden k s s') (shown : hidden ≠ some t)
    (aims : ∀ tx, s.tx? t = some tx → tx.phase = .prepared → Aims m s.heap.layout tx) : Paired m hidden k (apply t) s s' := by
  rw [apply]
  refine both_bind (both_openTx h shown ?_ h)
  intro tx tx' htx _ like
  rw [requirePhase_like like]
  exact both_bind (both_attempt (fun _ hphase => paired_runOverwrite h shown like (aims tx htx (requirePhase_eq_ok.1 hphase))) h)

theorem paired_commit (h : Parallel m hidden k s s') (shown : hidden ≠ some t)
    (aims : ∀ report r, prepare t s = .ok report r → ∀ tx, r.tx? t = some tx → tx.phase = .prepared →
      Aims m r.heap.layout tx) : Paired m hidden k (commit t) s s' := by
  rw [commit]
  refine both_bind (both_openTx h shown (fun _ _ _ _ _ => ?_) h)
  have prepared : Ends (prepare t) s (fun report r => prepare t s = .ok report r) fun _ _ => True := by
    unfold Ends
    split
    · assumption
    · trivial
  refine both_bind (((paired_prepare h shown).given prepared).mono ?_ fun _ _ h => h)
  rintro report _ r r' ⟨⟨-, hr⟩, hp⟩
  refine both_bind ((paired_apply hr shown (aims report r hp)).mono ?_ fun _ _ h => h)
  rintro _ _ q q' ⟨-, hq⟩
  exact paired_finish hq shown

/-! ### Allocation -/

theorem paired_bump (h : Parallel m hidden k s s') (shown : hidden ≠ some t) (size : Nat) :
    Paired m hidden k (bump t size) s s' := by
  rw [bump]
  refine both_bind (both_handle h shown (fun _ _ _ _ _ => ?_) h)
  split
  · refine both_bind (both_get (both_bind (both_ofAttempt (h.shared.allocate size) ?_ h)))
    rintro ⟨addr, a⟩ ⟨addr', b⟩ ⟨e, like⟩ ha -
    cases e
    obtain ⟨-, grew⟩ := Arena.grew_of_allocate ha
    exact ⟨rfl, h.setShared like grew.extends.freePointer_le⟩
  · refine both_bind (both_openTx h shown ?_ h)
    intro tx tx' _ _ like
    refine both_bind (both_ofAttempt (like.nursery.allocate size) ?_ h)
    rintro ⟨addr, a⟩ ⟨addr', b⟩ ⟨e, nursery⟩ - -
    cases e
    exact ⟨rfl, h.setTx shown (.some ⟨nursery, like.objects, like.phase, like.report, like.tokens, like.copied⟩)⟩

theorem paired_create (h : Parallel m hidden k s s') (shown : hidden ≠ some t) (typeId : Nat) :
    Paired m hidden k (create t typeId) s s' := by
  have placed : ∀ size, Paired m hidden k (placeObject t typeId size) s s' := by
    intro size
    rw [placeObject]
    split
    · refine both_bind (both_get (both_bind (both_ofAttempt (h.shared.place h.below size _) ?_ h)))
      rintro ⟨obj, a⟩ ⟨obj', b⟩ ⟨e, like⟩ ha -
      cases e
      exact ⟨rfl, h.setShared like (Arena.extends_of_place ha).freePointer_le⟩
    · refine both_bind (both_openTx h shown ?_ h)
      intro tx tx' _ _ like
      rw [requirePhase_like like]
      refine both_bind (both_attempt (fun _ _ => both_bind ?_) h)
      refine both_ofAttempt (like.nursery.place (Marks.below_none _) size _) ?_ h
      rintro ⟨obj, a⟩ ⟨obj', b⟩ ⟨e, nursery⟩ - -
      cases e
      exact ⟨rfl, h.setTx shown (.some ⟨nursery, like.objects, like.phase, like.report, like.tokens, like.copied⟩)⟩
  rw [create]
  refine both_bind (both_handle h shown (fun _ _ _ _ _ => both_bind (both_get (both_bind ?_))) h)
  rw [h.layout]
  refine both_attempt (fun size _ => both_bind ((placed size).mono ?_ fun _ _ h => h)) h
  rintro obj _ r r' ⟨rfl, hr⟩
  exact ⟨rfl, hr.note _ _⟩

end Action

end

end TxHeap

/-
  TxHeap.Proofs.Rehearsal — a preparation goes the same way over any shared heap.

  A preparation reads its transaction and the twins it has made, nothing else: of the shared
  heap it found it only goes by how much was handed out. So from two states that agree on this
  (`Preparation.Like`) it ends in the same way, with the same report and with two states that
  agree again, down to the bytes of the twins (`like_run`). Whether an object is marked as
  copied makes no difference.

  The tokens that it hands on need not be the same; a link says how those on the one side go
  together with those on the other.
-/
import TxHeap.Commit.Worklist
import TxHeap.Proofs.Lockstep
import TxHeap.Proofs.Onward

namespace TxHeap

/-! ## Tokens that go together -/

structure Link where
  /-- Whether the tokens are kept track of. -/
  tracked : Prop
  same : Nat → Nat → Prop
  once : ∀ {x y x' y' : Nat}, same x y → same x' y' → (x = x' ↔ y = y')
  /-- An address goes together with itself. -/
  address : ∀ {a : Nat}, a < tokenStart → same a a

/-- The same addresses have tokens, and these go together. -/
def TokenTable.Linked (k : Link) (a b : TokenTable) : Prop := k.tracked → ∀ addr, Option.Rel k.same (a.get? addr) (b.get? addr)

namespace TokenTable.Linked

variable {k : Link} {a b : TokenTable} {token token' : Nat}

theorem insert (h : Linked k a b) (addr : Nat) (same : k.tracked → k.same token token') :
    Linked k (a.insert addr token) (b.insert addr token') := by
  intro tracked i
  rw [get?_insert, get?_insert]
  split
  · exact .some (same tracked)
  · exact h tracked i

theorem erase (h : Linked k a b) (addr : Nat) : Linked k (a.erase addr) (b.erase addr) := by
  intro tracked i
  rw [get?_erase, get?_erase]
  split
  · exact .none
  · exact h tracked i

end TokenTable.Linked

/-- The transactions differ in their tokens at most; what they have copied is marked on both sides. -/
structure Transaction.Like (m : Marks) (k : Link) (tx tx' : Transaction) : Prop where
  nursery : tx.nursery.Like .none tx'.nursery
  objects : tx'.objects = tx.objects
  phase : tx'.phase = tx.phase
  report : tx'.report = tx.report
  tokens : tx.tokens.Linked k tx'.tokens
  copied : ∀ pair ∈ tx.objects.pairs, pair.1 ∈ m.copied

/-- An item of the nursery, or a twin that lies at the address or above it. -/
def Item.Above (base : Nat) : Item → Prop
  | .root _ => True
  | .twin obj => base ≤ obj

/-- The preparations are at one point; all twins lie above the objects that may be marked. -/
structure Preparation.Like (base : Nat) (m : Marks) (k : Link) (p p' : Preparation) : Prop where
  shared : p.shared.Like m p'.shared
  below : ∀ x ∈ m.objects, x + headerSize ≤ base
  tx : p.tx.Like m k p'.tx
  tokens : p.tokens.Linked k p'.tokens
  buffer : p'.buffer = p.buffer
  pending : p'.pending = p.pending
  weakHolders : p'.weakHolders = p.weakHolders
  report : p'.report = p.report
  waiting : ∀ item ∈ p.pending, item.Above base
  held : ∀ item ∈ p.weakHolders, item.Above base
  chunk : p.buffer.cursor = 0 ∨ base ≤ p.buffer.cursor
  free : base ≤ p.shared.freePointer

namespace Preparation.Like

variable {base : Nat} {m : Marks} {k : Link} {p p' : Preparation}

/-- Whatever lies where twins lie is clear of the marks. -/
theorem clear {addr len : Nat} (h : p.Like base m k p') (above : base ≤ addr) : m.Clear addr len :=
  Marks.clear_above h.below above

theorem target (h : p.Like base m k p') (value : Nat) : p'.target value = p.target value := by
  simp only [Preparation.target, h.tx.objects, h.tx.nursery.contains, h.shared.contains]

theorem setShared {a b : Arena} (h : p.Like base m k p') (like : a.Like m b) (free : a.freePointer = p.shared.freePointer) :
    Preparation.Like base m k { p with shared := a } { p' with shared := b } :=
  ⟨like, h.below, h.tx, h.tokens, h.buffer, h.pending, h.weakHolders, h.report, h.waiting, h.held, h.chunk, free ▸ h.free⟩

theorem setTx {tx tx' : Transaction} (h : p.Like base m k p') (like : tx.Like m k tx') :
    Preparation.Like base m k { p with tx } { p' with tx := tx' } :=
  ⟨h.shared, h.below, like, h.tokens, h.buffer, h.pending, h.weakHolders, h.report, h.waiting, h.held, h.chunk, h.free⟩

theorem setNursery {a b : Arena} (h : p.Like base m k p') (like : a.Like .none b) :
    Preparation.Like base m k { p with tx := { p.tx with nursery := a } } { p' with tx := { p'.tx with nursery := b } } :=
  h.setTx ⟨like, h.tx.objects, h.tx.phase, h.tx.report, h.tx.tokens, h.tx.copied⟩

end Preparation.Like

/-! ## Steps that go the same way -/

namespace Prepare

open Step

variable {α β : Type} {base : Nat} {m : Marks} {k : Link} {layout : Layout} {item : Item}

variable {p p' : Preparation}

theorem like_note (n : Notice) : (note n).Respects (Preparation.Like base m k) :=
  respects_modify fun _ _ h => ⟨h.shared, h.below, h.tx, h.tokens, h.buffer, h.pending, h.weakHolders, h.report, h.waiting,
    h.held, h.chunk, h.free⟩

/-- A question that has the same answer in like preparations. -/
theorem like_ask {ask : Preparation → Attempt α} (same : ∀ p p', p.Like base m k p' → ask p' = ask p) :
    (do ofAttempt (ask (← get))).Respects (Preparation.Like base m k) := by
  refine respects_get (fun p => respects_ofAttempt _) ?_
  intro p p' h
  rw [same p p' h]

/-! ### Fields -/

theorem le_of_payloadAddress {obj offset addr : Nat} (h : payloadAddress obj offset = .ok addr) : obj ≤ addr := by
  have := payloadAddress_eq_ok h
  omega

theorem like_headerOf (above : item.Above base) : (headerOf item).Respects (Preparation.Like base m k) := by
  cases item with
  | root obj => exact like_ask fun _ _ h => h.tx.nursery.header (Marks.clear_none _ _)
  | twin obj => exact like_ask fun _ _ h => h.shared.header (h.clear above)

theorem like_readField (above : item.Above base) (offset : Nat) :
    (readField item offset).Respects (Preparation.Like base m k) := by
  intro p p' h
  cases item with
  | root obj =>
    refine both_bind (both_get (both_bind (both_attempt (fun addr _ => ?_) h)))
    rw [h.tx.nursery.readWord (Marks.clear_none _ _)]
    exact both_attempt (fun _ _ => ⟨rfl, h⟩) h
  | twin obj =>
    refine both_bind (both_get (both_bind (both_attempt (fun addr haddr => ?_) h)))
    rw [h.shared.readWord (h.clear (Nat.le_trans above (le_of_payloadAddress haddr)))]
    exact both_attempt (fun _ _ => ⟨rfl, h⟩) h

theorem like_writeField (above : item.Above base) (offset value : Nat) :
    (writeField item offset value).Respects (Preparation.Like base m k) := by
  intro p p' h
  cases item with
  | root obj =>
    refine both_bind (both_get (both_bind (both_attempt (fun addr _ => both_bind ?_) h)))
    exact both_ofAttempt (h.tx.nursery.writeWord (Marks.clear_none addr _) value)
      (fun a b like _ _ => ⟨rfl, h.setNursery like⟩) h
  | twin obj =>
    refine both_bind (both_get (both_bind (both_attempt (fun addr haddr => both_bind ?_) h)))
    have clear : m.Clear addr wordSize := h.clear (Nat.le_trans above (le_of_payloadAddress haddr))
    refine both_ofAttempt (h.shared.writeWord clear value) (fun a b like hx _ => ⟨rfl, h.setShared like ?_⟩) h
    obtain ⟨-, rfl⟩ := Arena.writeWord_eq_ok.1 hx
    simp only [Arena.freePointer]

/-! ### Promotion -/

/-- Room is found at one place, which is above everything that was there. -/
theorem both_takeRoom (size : Nat) {p p' : Preparation} (h : p.Like base m k p') :
    Both (takeRoom size) (takeRoom size) p p' (fun twin twin' q q' => twin' = twin ∧ base ≤ twin ∧ q.Like base m k q')
      (Preparation.Like base m k) := by
  refine both_bind (both_get (both_bind ?_))
  rw [h.buffer]
  refine both_ofAttempt (TwinBuffer.both_allocate p.buffer h.shared) ?_ h
  rintro ⟨twin, buffer, shared⟩ ⟨twin', buffer', shared'⟩ ⟨e, e', like⟩ ha -
  cases e
  cases e'
  obtain ⟨cursor, found⟩ := TwinBuffer.allocate_cases ha
  have place : base ≤ twin ∧ base ≤ shared.freePointer := by
    have free := h.free
    rcases found with ⟨-, pos, rfl, -, -, rfl⟩ | ⟨chunk, -, grew, rfl, -⟩
    · exact ⟨h.chunk.resolve_left pos, free⟩
    · rw [grew.freePointer]
      omega
  refine ⟨rfl, place.1, like, h.below, h.tx, h.tokens, rfl, h.pending, h.weakHolders, h.report, h.waiting, h.held, .inr ?_,
    place.2⟩
  simp only [cursor]
  omega

theorem like_moveToken (obj twin : Nat) : (moveToken obj twin).Respects (Preparation.Like base m k) := by
  refine respects_modify ?_
  intro p p' h
  have keep : ∀ {tokens tokens' own own' : TokenTable}, tokens.Linked k tokens' → own.Linked k own' →
      Preparation.Like base m k { p with tokens, tx := { p.tx with tokens := own } }
        { p' with tokens := tokens', tx := { p'.tx with tokens := own' } } := fun linked linked' =>
    ⟨h.shared, h.below, ⟨h.tx.nursery, h.tx.objects, h.tx.phase, h.tx.report, linked', h.tx.copied⟩, linked, h.buffer,
      h.pending, h.weakHolders,
      h.report, h.waiting, h.held, h.chunk, h.free⟩
  by_cases tracked : k.tracked
  · have rel := h.tx.tokens tracked obj
    cases ht : p.tx.tokens.get? obj <;> cases ht' : p'.tx.tokens.get? obj <;> rw [ht, ht'] at rel <;> cases rel
    · exact h
    · rename_i same
      exact keep (h.tokens.insert twin fun _ => same) (h.tx.tokens.erase obj)
  · -- where tokens are not tracked, there is nothing to keep
    have any : ∀ {a b : TokenTable}, a.Linked k b := fun t => absurd t tracked
    split <;> split
    · exact keep any any
    · exact keep any any
    · exact keep any any
    · exact h

theorem like_makeTwin (thread obj : Nat) (header : Header) :
    (makeTwin thread obj header layout).Respects (Preparation.Like base m k) := by
  refine respects_bind (respects_ofAttempt _) ?_
  intro size p p' h
  refine both_bind ((both_takeRoom size h).mono ?_ fun _ _ h => h)
  rintro _ twin q q' ⟨rfl, above, like⟩
  -- the bytes are copied
  refine both_bind (both_get (both_bind ?_))
  rw [like.tx.nursery.read (Marks.clear_none _ _)]
  refine both_attempt (fun bytes _ => both_bind ?_) like
  refine both_ofAttempt (like.shared.write (like.clear above)) (fun a b wrote ha _ => both_bind ?_) like
  refine both_ofAttempt (wrote.setHeader (like.clear above) _) (fun a' b' headed ha' _ => both_bind ?_) like
  have free : a'.freePointer = q.shared.freePointer := by
    obtain ⟨-, rfl⟩ := Arena.write_eq_ok.1 ha
    obtain ⟨-, rfl⟩ := Arena.setHeader_eq_ok.1 ha'
    simp only [Arena.freePointer]
  have like := like.setShared headed free
  -- the object is forwarded
  refine both_modify (both_bind (both_attempt (fun forwarded _ => both_bind ?_) like))
  refine both_ofAttempt (like.tx.nursery.setHeader (Marks.clear_none obj _) forwarded) (fun c d forward _ _ => both_bind ?_) like
  have like := like.setNursery forward
  refine both_modify (respects_bind (like_moveToken obj twin) ?_ _ _ like)
  intro _
  refine respects_bind (respects_modify ?waits) ?noted
  case waits =>
    intro p p' h
    refine ⟨h.shared, h.below, h.tx, h.tokens, h.buffer, ?_, h.weakHolders, ?_, ?_, h.held, h.chunk, h.free⟩
    · simp only [h.pending]
    · simp only [h.report]
    · intro item hitem
      rcases List.mem_cons.mp hitem with rfl | hitem
      · exact above
      · exact h.waiting item hitem
  case noted =>
    intro _
    refine respects_bind (like_note _) ?_
    intro _
    exact respects_pure twin

/-! ### Visits -/

theorem like_strongImage (thread value : Nat) :
    (strongImage layout thread value).Respects (Preparation.Like base m k) := by
  intro p p' h
  refine both_bind (both_get ?_)
  rw [h.target value]
  split
  · exact ⟨rfl, h⟩
  · exact ⟨rfl, h⟩
  · exact ⟨rfl, h⟩
  · exact ⟨rfl, h⟩
  · refine both_bind (both_get (both_bind ?_))
    rw [h.tx.nursery.header (Marks.clear_none _ _)]
    refine both_attempt (fun header _ => ?_) h
    split
    · exact ⟨rfl, h⟩
    · exact ⟨rfl, h⟩
    · exact like_makeTwin _ _ _ p p' h

/-- Counting changes nothing else. -/
theorem like_report (count : Report → Report) :
    (modify fun p => { p with report := count p.report } : Prepare Unit).Respects (Preparation.Like base m k) := by
  refine respects_modify fun p p' h => ?_
  refine ⟨h.shared, h.below, h.tx, h.tokens, h.buffer, h.pending, h.weakHolders, ?_, h.waiting, h.held, h.chunk, h.free⟩
  simp only [h.report]

theorem like_redirectWeak (image : Nat) : (redirectWeak image).Respects (Preparation.Like base m k) := by
  refine respects_bind (like_report fun r => { r with weakRedirected := r.weakRedirected + 1 }) ?_
  intro _
  exact respects_pure image

theorem like_clearWeak (thread value : Nat) : (clearWeak thread value).Respects (Preparation.Like base m k) := by
  refine respects_bind (like_report fun r => { r with weakCleared := r.weakCleared + 1 }) ?_
  intro _
  refine respects_bind (like_note _) ?_
  intro _
  exact respects_pure 0

theorem like_weakImage (thread value : Nat) : (weakImage thread value).Respects (Preparation.Like base m k) := by
  intro p p' h
  refine both_bind (both_get ?_)
  rw [h.target value]
  split
  · exact ⟨rfl, h⟩
  · exact like_redirectWeak _ p p' h
  · exact ⟨rfl, h⟩
  · exact ⟨rfl, h⟩
  · refine both_bind (both_get (both_bind ?_))
    rw [h.tx.nursery.header (Marks.clear_none _ _)]
    refine both_attempt (fun header _ => ?_) h
    split
    · exact like_redirectWeak _ p p' h
    · exact ⟨rfl, h⟩
    · exact like_clearWeak _ _ p p' h

theorem like_replaceField {image : Nat → Prepare Nat} (above : item.Above base)
    (himage : ∀ value, (image value).Respects (Preparation.Like base m k)) (offset : Nat) :
    (replaceField item image offset).Respects (Preparation.Like base m k) := by
  refine respects_bind (like_readField above offset) ?_
  intro value
  refine respects_bind (himage value) ?_
  intro new
  split
  · exact respects_pure _
  · exact like_writeField above offset new

theorem like_visit (thread : Nat) (above : item.Above base) :
    (visit layout thread item).Respects (Preparation.Like base m k) := by
  refine respects_bind (like_headerOf above) ?_
  intro header
  refine respects_bind (respects_modify ?held) ?_
  case held =>
    intro p p' h
    split
    · refine ⟨h.shared, h.below, h.tx, h.tokens, h.buffer, h.pending, ?_, h.report, h.waiting, ?_, h.chunk, h.free⟩
      · simp only [h.weakHolders]
      · intro i hi
        rcases List.mem_append.mp hi with hi | hi
        · exact h.held i hi
        · rw [List.mem_singleton.mp hi]
          exact above
    · exact h
  intro _
  refine respects_forM ?_
  intro offset _
  exact like_replaceField above (like_strongImage thread) offset

theorem like_settleWeak (thread : Nat) (above : item.Above base) :
    (settleWeak layout thread item).Respects (Preparation.Like base m k) := by
  refine respects_bind (like_headerOf above) ?_
  intro header
  split
  · exact like_replaceField above (like_weakImage thread) _
  · exact respects_pure _

/-- The next item is visited. -/
theorem both_next {p p' : Preparation} {rest : List Item} (layout : Layout) (thread : Nat) (h : p.Like base m k p')
    (pending : p.pending = item :: rest) :
    Both (visit layout thread item) (visit layout thread item) { p with pending := rest } { p' with pending := rest }
      (fun _ _ q q' => q.Like base m k q') (Preparation.Like base m k) := by
  have waiting := h.waiting
  rw [pending] at waiting
  have start : Preparation.Like base m k { p with pending := rest } { p' with pending := rest } :=
    ⟨h.shared, h.below, h.tx, h.tokens, h.buffer, rfl, h.weakHolders, h.report,
      fun i hi => waiting i (List.mem_cons_of_mem _ hi), h.held,
      h.chunk, h.free⟩
  exact (like_visit thread (waiting item List.mem_cons_self) _ _ start).mono (fun _ _ _ _ h => h.2) fun _ _ h => h

theorem like_drain (thread : Nat) : (drain layout thread).Respects (Preparation.Like base m k) := by
  intro p
  induction p using drain.induct layout thread with
  | case1 p pending =>
    intro p' h
    exact both_of_ok (drain_of_nil pending) (drain_of_nil (h.pending.trans pending)) ⟨rfl, h⟩
  | case2 p item rest pending u q visited ih =>
    intro p' h
    obtain ⟨u', q', visited', next⟩ := (both_next layout thread h pending).of_ok visited
    have first := drain_of_visit pending visited
    have second := drain_of_visit (h.pending.trans pending) visited'
    obtain ⟨v, v', r, r', drained, drained', further⟩ | ⟨f, r, r', drained, drained', further⟩ := (ih q' next).cases
    · exact both_of_ok (first.trans drained) (second.trans drained') further
    · exact both_of_error (first.trans drained) (second.trans drained') further
  | case3 p item rest pending f q visited =>
    intro p' h
    obtain ⟨q', visited', next⟩ := (both_next layout thread h pending).of_error visited
    exact both_of_error (drain_of_error pending visited) (drain_of_error (h.pending.trans pending) visited') next

theorem like_run (layout : Layout) (thread : Nat) : (run layout thread).Respects (Preparation.Like base m k) := by
  refine respects_bind (like_drain thread) fun _ => ?_
  intro p p' h
  refine both_bind (both_get ?_)
  rw [h.weakHolders]
  refine respects_bind (respects_forM fun item hitem => like_settleWeak thread (h.held item hitem)) ?_ p p' h
  intro _ q q' like
  refine both_bind (both_get ⟨?_, like⟩)
  rw [like.report, like.buffer]

end Prepare

end TxHeap

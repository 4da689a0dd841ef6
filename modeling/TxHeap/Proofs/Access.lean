/-
  TxHeap.Proofs.Access — calls that name an object, in two sessions.

  Where every shared object that is named is one, a call of a thread that is shown goes the
  same way in parallel sessions: it reads the same words and headers, up to marks, stores
  where it stores in the other, and finds or makes its working copies in both
  (`paired_readWord`, `paired_writeWord`, `both_copyOnWrite`). The marks that may differ are
  never decisive, for a thread looks at the mark of an object only to find its own copy, and
  an object that it has copied is marked in both.

  Tokens go together as they are given out, as long as there are any left (`both_tokenOf`).
-/
import TxHeap.Proofs.Parallel
import TxHeap.Proofs.Names

namespace TxHeap

/-! ## Marks of recorded objects -/

def Marks.of (rs : List Record) (copied : List Nat) : Marks := ⟨rs.map Record.addr, copied⟩

/-- Objects may come, as long as none goes. -/
theorem Marks.of_subset {rs rs' : List Record} {copied copied' : List Nat} (remains : ∀ r ∈ rs, ∃ r' ∈ rs', r'.addr = r.addr) :
    (of rs copied).objects ⊆ (of rs' copied').objects := by
  intro x hx
  obtain ⟨r, hr, rfl⟩ := List.mem_map.1 hx
  obtain ⟨r', hr', addr⟩ := remains r hr
  exact List.mem_map.2 ⟨r', hr', addr⟩

namespace Arena.Places

variable {a : Arena} {layout : Layout} {rs : List Record} {r : Record} {copied : List Nat} {addr len : Nat}

/-- The body of an object is clear of all headers. -/
theorem clear (h : a.Places layout rs) (hr : r ∈ rs) (start : r.bodyAddr ≤ addr) (stop : addr + len ≤ r.stop) :
    (Marks.of rs copied).Clear addr len := by
  intro x hx
  obtain ⟨r', hr', rfl⟩ := List.mem_map.1 hx
  by_cases e : r' = r
  · subst e
    exact .inr start
  · have := h.headerSize_le hr'
    rcases h.apart_of_ne hr' hr e with hs | hs <;> simp only [Record.stop, Record.bodyAddr] at * <;> omega

theorem heads_below (h : a.Places layout rs) : ∀ x ∈ (Marks.of rs copied).objects, x + headerSize ≤ a.freePointer := by
  intro x hx
  obtain ⟨r, hr, rfl⟩ := List.mem_map.1 hx
  have := h.headerSize_le hr
  have := (h.inside r hr).2
  simp only [Record.stop] at this
  omega

theorem heads_apart (h : a.Places layout rs) (hr : r ∈ rs) :
    ∀ x ∈ (Marks.of rs copied).objects, x ≠ r.addr → x + headerSize ≤ r.addr ∨ r.addr + headerSize ≤ x := by
  intro x hx ne
  obtain ⟨r', hr', rfl⟩ := List.mem_map.1 hx
  have := h.headerSize_le hr
  have := h.headerSize_le hr'
  rcases h.apart_of_ne hr' hr fun e => ne (by rw [e]) with hs | hs <;> simp only [Record.stop] at hs <;> omega

end Arena.Places

open Step TxHeap.Action

variable {m : Marks} {hidden : Option Nat} {k : Link} {s s' : Session} {L : Ledger} {copied : List Nat} {t obj offset value : Nat}
  {a b : Handle}

/-! ## What a handle sees -/

namespace Handle.Like

theorem sees (like : a.Like m k b) (obj : Nat) : b.sees obj = a.sees obj := by
  have rel := like.tx
  rw [Handle.sees, Handle.sees]
  cases hx : a.tx <;> cases hy : b.tx <;> rw [hx, hy] at rel <;> cases rel
  · rename_i like
    exact like.nursery.contains obj

theorem locate {heap heap' : Heap} (like : a.Like m k b) (config : heap'.config = heap.config) (obj : Nat) :
    b.locate heap' obj = a.locate heap obj := by
  rw [Handle.locate, Handle.locate, like.sees, like.thread, Heap.spaceOf, Heap.spaceOf, config]

theorem nursery (like : a.Like m k b) (operation : String) :
    Attempt.Both (Arena.Like .none) (a.nursery operation) (b.nursery operation) := by
  have rel := like.tx
  rw [Handle.nursery, Handle.nursery]
  cases hx : a.tx <;> cases hy : b.tx <;> rw [hx, hy] at rel <;> cases rel
  · exact rfl
  · rename_i like
    exact like.nursery

/-- Both have copied the same objects, and these are marked. -/
theorem copyOf? (like : a.Like m k b) (obj : Nat) :
    b.copyOf? obj = a.copyOf? obj ∧ ∀ copy, a.copyOf? obj = some copy → obj ∈ m.copied := by
  have rel := like.tx
  rw [Handle.copyOf?, Handle.copyOf?]
  cases hx : a.tx <;> cases hy : b.tx <;> rw [hx, hy] at rel <;> cases rel
  · exact ⟨rfl, fun _ h => by cases h⟩
  · rename_i tx tx' like
    refine ⟨by rw [Option.bind_some, Option.bind_some, like.objects], ?_⟩
    intro copy hcopy
    exact like.copied (obj, copy) (ObjectMap.mem_of_copyOf? hcopy)

end Handle.Like

/-! ## Questions -/

section

variable (h : Parallel m hidden k s s') (like : a.Like m k b)

include h in
/-- A field of a shared object is found at the same place. -/
theorem Parallel.field_shared (hobj : obj ∈ m.objects) :
    Handle.field s'.heap s'.heap.shared obj offset = Handle.field s.heap s.heap.shared obj offset := by
  rw [Handle.field, Handle.field]
  refine ((h.shared.both_header hobj).bind_eq ?_).symm
  intro head head' same
  rw [h.layout, (Header.of_markCopied same).1]

include h in
/-- A field of an object in a nursery. -/
theorem Parallel.field_nursery {n n' : Arena} (nursery : n.Like .none n') :
    Handle.field s'.heap n' obj offset = Handle.field s.heap n obj offset := by
  rw [Handle.field, Handle.field, nursery.header (Marks.clear_none _ _), h.layout]

include h like in
theorem Handle.Like.both_header (found : s.heap.spaceOf obj = .shared → obj ∈ m.objects) :
    Attempt.Both (fun head head' => head'.markCopied = head.markCopied) (a.header s.heap obj) (b.header s'.heap obj) := by
  rw [Handle.header, Handle.header, like.locate h.config]
  refine Attempt.both_bind (Attempt.both_of_eq rfl) ?_
  rintro l _ rfl hl -
  rcases locate_eq_ok hl with ⟨rfl, -⟩ | ⟨rfl, hspace, -⟩
  · refine Attempt.both_bind (like.nursery "header") ?_
    intro n n' nursery _ _
    rw [nursery.header (Marks.clear_none _ _)]
    exact Attempt.both_refl fun _ => rfl
  · exact h.shared.both_header (found hspace)

include h like in
theorem Handle.Like.canonical : b.canonical s'.heap = a.canonical s.heap := by
  funext obj
  rw [Handle.canonical, Handle.canonical, like.locate h.config]
  refine congrArg (_ >>= ·) (funext fun l => ?_)
  cases l with
  | shared => rfl
  | nursery =>
    refine ((like.nursery "normalize_global").bind_eq ?_).symm
    intro n n' nursery
    rw [nursery.header (Marks.clear_none _ _)]

end

section

variable (h : Parallel (Marks.of L.shared copied) hidden k s s') (kept : Kept s L) (like : a.Like (Marks.of L.shared copied) k b)
  (found : L.HasShared s obj)

include kept in
/-- A field of a shared object is clear of all headers. -/
theorem Kept.clear_field {addr : Nat} {r : Record} (hr : r ∈ L.shared)
    (hfield : Handle.field s.heap s.heap.shared r.addr offset = .ok addr) : (Marks.of L.shared copied).Clear addr wordSize := by
  obtain ⟨rfl, fit⟩ := field_of_object kept.shared hr hfield
  refine kept.shared.clear hr ?_ ?_ <;> simp only [Record.bodyAddr, Record.stop] <;> omega

include h like in
/-- Whether an object is marked makes no difference to who looks for a copy. -/
theorem Handle.Like.copy_in_use {head head' : Header} (hhead : s.heap.shared.header obj = .ok head)
    (hhead' : s'.heap.shared.header obj = .ok head') :
    (if head'.isCopied then b.copyOf? obj else none) = if head.isCopied then a.copyOf? obj else none := by
  obtain ⟨same, copied⟩ := like.copyOf? obj
  rw [same]
  cases hcopy : a.copyOf? obj with
  | none => rw [ite_self, ite_self]
  | some copy =>
    obtain ⟨-, marked, marked'⟩ := h.shared.copied obj (copied copy hcopy)
    rw [(Arena.header_eq_ok.1 hhead).2] at marked
    rw [(Arena.header_eq_ok.1 hhead').2] at marked'
    rw [marked, marked']

/-- A word of nurseries that are alike, wherever its address is from. -/
theorem Arena.Like.both_word {n n' : Arena} (nursery : n.Like .none n') (address : Attempt Nat) :
    Attempt.Both (fun value value' => value' = value) (address >>= n.readWord) (address >>= n'.readWord) := by
  refine Attempt.both_bind (Attempt.both_of_eq rfl) ?_
  rintro addr _ rfl - -
  rw [nursery.readWord (Marks.clear_none _ _)]
  exact Attempt.both_refl fun _ => rfl

include h kept like found in
theorem Handle.Like.both_readWord :
    Attempt.Both (fun value value' => value' = value) (a.readWord s.heap obj offset) (b.readWord s'.heap obj offset) := by
  rw [Handle.readWord, Handle.readWord, like.locate h.config]
  refine Attempt.both_bind (Attempt.both_of_eq rfl) ?_
  rintro l _ rfl hl -
  rcases locate_eq_ok hl with ⟨rfl, -⟩ | ⟨rfl, hspace, -⟩
  · refine Attempt.both_bind (like.nursery "read_word") ?_
    intro n n' nursery _ _
    rw [h.field_nursery nursery]
    exact nursery.both_word _
  · obtain ⟨r, hr, rfl⟩ := found hspace
    refine Attempt.both_bind (h.shared.both_header (List.mem_map_of_mem hr)) ?_
    intro head head' same hhead hhead'
    rw [like.copy_in_use h hhead hhead', (Header.of_markCopied same).1, h.layout]
    split
    · refine Attempt.both_bind (like.nursery "read_word") ?_
      intro n n' nursery _ _
      exact nursery.both_word _
    · refine Attempt.both_bind (Attempt.both_of_eq rfl) ?_
      rintro addr _ rfl haddr -
      have hfield : Handle.field s.heap s.heap.shared r.addr offset = .ok addr := by
        rw [Handle.field, hhead]
        exact haddr
      rw [h.shared.readWord (kept.clear_field hr hfield)]
      exact Attempt.both_refl fun _ => rfl

end

/-! ## Calls that ask -/

namespace Action

theorem both_query {α : Type} {ask : Handle → Heap → Attempt α} {R : α → α → Prop} {ok : α → α → Session → Session → Prop}
    {bad : Session → Session → Prop} (h : Parallel m hidden k s s') (shown : hidden ≠ some t)
    (same : ∀ a b, a.Like m k b → Attempt.Both R (ask a s.heap) (ask b s'.heap))
    (hok : ∀ a x y, s.handle? t = some a → ask a s.heap = .ok x → R x y → ok x y s s') (hbad : bad s s') :
    Both (query t ask) (query t ask) s s' ok bad := by
  rw [query]
  refine both_bind (both_handle h shown ?_ hbad)
  intro a b ha _ like
  exact both_bind (both_get (both_ofAttempt (same a b like) (fun x y hxy hx _ => hok a x y ha hx hxy) hbad))

theorem both_header (h : Parallel m hidden k s s') (shown : hidden ≠ some t)
    (found : s.heap.spaceOf obj = .shared → obj ∈ m.objects) :
    Both (header t obj) (header t obj) s s' (fun x y r r' => y.markCopied = x.markCopied ∧ Parallel m hidden k r r')
      (Parallel m hidden k) := by
  rw [header]
  exact both_query h shown (fun a b like => like.both_header h found) (fun _ _ _ _ _ same => ⟨same, h⟩) h

theorem paired_canonical (h : Parallel m hidden k s s') (shown : hidden ≠ some t) (obj : Option Nat) :
    Paired m hidden k (canonical t obj) s s' := by
  rw [canonical]
  refine both_query (R := fun x y => y = x) h shown ?_ (fun _ _ _ _ _ same => ⟨same, h⟩) h
  intro a b like
  rw [like.canonical h]
  exact Attempt.both_refl fun _ => rfl

theorem paired_readWord (h : Parallel (Marks.of L.shared copied) hidden k s s') (kept : Kept s L) (shown : hidden ≠ some t)
    (found : L.HasShared s obj) : Paired (Marks.of L.shared copied) hidden k (readWord t obj offset) s s' := by
  rw [readWord]
  exact both_query h shown (fun a b like => like.both_readWord h kept found) (fun _ _ _ _ _ same => ⟨same, h⟩) h

/-! ## Stores -/

theorem paired_writePrivate (h : Parallel m hidden k s s') (shown : hidden ≠ some t) :
    Paired m hidden k (writePrivate t obj offset value) s s' := by
  rw [writePrivate]
  refine both_bind (both_openTx h shown ?_ h)
  intro tx tx' _ _ like
  refine both_bind (both_get (both_bind ?_))
  rw [h.field_nursery like.nursery]
  refine both_attempt (fun addr _ => both_bind ?_) h
  rw [requirePhase_like like]
  refine both_attempt (fun _ _ => both_bind ?_) h
  refine both_ofAttempt (like.nursery.writeWord (Marks.clear_none addr _) value) (fun n n' nursery _ _ => ?_) h
  exact ⟨rfl, h.setTx shown (.some ⟨nursery, like.objects, like.phase, like.report, like.tokens, like.copied⟩)⟩

theorem paired_writeWord (h : Parallel (Marks.of L.shared copied) hidden k s s') (kept : Kept s L) (shown : hidden ≠ some t)
    (found : L.HasShared s obj) : Paired (Marks.of L.shared copied) hidden k (writeWord t obj offset value) s s' := by
  rw [writeWord]
  refine both_bind (both_query (R := fun x y => y = x) h shown ?_ ?_ h)
  · intro a b like
    rw [like.locate h.config]
    exact Attempt.both_refl fun _ => rfl
  rintro a l _ - hl rfl
  rcases locate_eq_ok hl with ⟨rfl, -⟩ | ⟨rfl, hspace, -⟩
  · exact paired_writePrivate h shown
  · obtain ⟨r, hr, rfl⟩ := found hspace
    dsimp only
    split
    · rw [writeShared]
      refine both_bind (both_get (both_bind ?_))
      rw [h.field_shared (List.mem_map_of_mem hr)]
      refine both_attempt (fun addr hfield => both_bind ?_) h
      refine both_ofAttempt (h.shared.writeWord (kept.clear_field hr hfield) value) (fun a' b' like hw _ => ⟨rfl, ?_⟩) h
      exact h.setShared like (Arena.extends_of_writeWord hw).freePointer_le
    · exact ⟨rfl, h.note _ _⟩

end Action

/-! ## Working copies -/

section

variable {tx tx' : Transaction}

/-- More objects may be marked. -/
theorem Transaction.Like.more {m' : Marks} (like : tx.Like m k tx') (sub : m.copied ⊆ m'.copied) : tx.Like m' k tx' :=
  ⟨like.nursery, like.objects, like.phase, like.report, like.tokens, fun pair hpair => sub (like.copied pair hpair)⟩

theorem Handle.Like.imp {m' : Marks} {k' : Link} (like : a.Like m k b)
    (imp : ∀ tx tx' : Transaction, tx.Like m k tx' → tx.Like m' k' tx') : a.Like m' k' b := by
  refine ⟨like.thread, ?_⟩
  have rel := like.tx
  cases hx : a.tx <;> cases hy : b.tx <;> rw [hx, hy] at rel <;> cases rel
  · exact .none
  · rename_i like
    exact .some (imp _ _ like)

theorem Parallel.imp_handles {m' : Marks} {k' : Link} (h : Parallel m hidden k s s')
    (imp : ∀ tx tx' : Transaction, tx.Like m k tx' → tx.Like m' k' tx') :
    ∀ t, hidden ≠ some t → Option.Rel (Handle.Like m' k') (s.handle? t) (s'.handle? t) := by
  intro t ne
  rcases h.handle_cases ne with ⟨e, e'⟩ | ⟨a, b, e, e', like⟩ <;> rw [e, e']
  · exact .none
  · exact .some (like.imp imp)

/-- An object is marked in both sessions. -/
theorem Parallel.mark {x y : Arena} (h : Parallel m hidden k s s') (like : x.Like ⟨m.objects, obj :: m.copied⟩ y)
    (free : x.freePointer = s.heap.shared.freePointer) :
    Parallel ⟨m.objects, obj :: m.copied⟩ hidden k (s.setShared x) (s'.setShared y) := by
  refine ⟨h.config, h.layout, h.threads, like, fun i hi => ?_, h.tokens, h.counted, ?_, h.secret⟩
  · rw [show (s.setShared x).heap.shared = x from rfl, free]
    exact h.below i hi
  · exact h.imp_handles fun _ _ like => like.more fun _ => .tail _

/-- A shared object can be marked in both sessions. -/
theorem Parallel.both_mark {r : Record} {head head' : Header} (h : Parallel (Marks.of L.shared copied) hidden k s s')
    (kept : Kept s L) (hr : r ∈ L.shared) (hhead : s.heap.shared.header r.addr = .ok head)
    (hhead' : s'.heap.shared.header r.addr = .ok head') :
    ∃ x y, s.heap.shared.setHeader r.addr head.markCopied = .ok x ∧ s'.heap.shared.setHeader r.addr head'.markCopied = .ok y ∧
      x.Like (Marks.of L.shared (r.addr :: copied)) y ∧ x.freePointer = s.heap.shared.freePointer := by
  obtain ⟨spans, rfl⟩ := Arena.header_eq_ok.1 hhead
  obtain ⟨spans', rfl⟩ := Arena.header_eq_ok.1 hhead'
  have fits : (s.heap.shared.memory.headerAt r.addr).markCopied.Fits := by
    obtain ⟨mark, fits⟩ := kept.fits_mark hr
    rwa [kept.shared.header r hr, ← mark]
  have marks := h.shared.both_mark (kept.shared.heads_apart hr) (List.mem_map_of_mem hr) fits
  refine ⟨_, _, Arena.setHeader_eq_ok.2 ⟨spans, rfl⟩, Arena.setHeader_eq_ok.2 ⟨spans', rfl⟩, ?_, ?_⟩
  · exact marks
  · simp only [Arena.freePointer]

/-- A thread has copied an object, and it is marked in both sessions. -/
theorem Parallel.setCopy {x y n n' : Arena} (copy : Nat) (h : Parallel m hidden k s s') (shown : hidden ≠ some t)
    (like : tx.Like m k tx') (marks : x.Like ⟨m.objects, obj :: m.copied⟩ y)
    (free : x.freePointer = s.heap.shared.freePointer) (nursery : n.Like .none n') :
    Parallel ⟨m.objects, obj :: m.copied⟩ hidden k
      ((s.setTx t (some { tx with nursery := n, objects := ⟨tx.objects.pairs ++ [(obj, copy)]⟩ })).setShared x)
      ((s'.setTx t (some { tx' with nursery := n', objects := ⟨tx.objects.pairs ++ [(obj, copy)]⟩ })).setShared y) := by
  refine (h.mark marks free).setTx shown (.some ⟨nursery, rfl, like.phase, like.report, like.tokens, ?_⟩)
  intro pair hpair
  rcases List.mem_append.mp hpair with hpair | hpair
  · exact .tail _ (like.copied pair hpair)
  · rw [List.mem_singleton.mp hpair]
    exact .head _

namespace Action

theorem both_makeCopy (h : Parallel (Marks.of L.shared copied) hidden k s s') (kept : Kept s L) (shown : hidden ≠ some t)
    (like : tx.Like (Marks.of L.shared copied) k tx') (fresh : tx.objects.copyOf? obj = none)
    (found : ∃ r ∈ L.shared, r.addr = obj) :
    Both (makeCopy t obj tx) (makeCopy t obj tx') s s'
      (fun x y r r' => y = x ∧ ∃ copied, Parallel (Marks.of L.shared copied) hidden k r r')
      (Parallel (Marks.of L.shared copied) hidden k) := by
  obtain ⟨r, hr, rfl⟩ := found
  have mem : r.addr ∈ (Marks.of L.shared copied).objects := List.mem_map_of_mem hr
  rw [makeCopy]
  refine both_bind (both_get (both_bind (both_ofAttempt (h.shared.both_header mem) ?_ h)))
  intro head head' same hhead hhead'
  obtain ⟨typeId, global⟩ := Header.of_markCopied same
  rw [global]
  refine both_bind (both_demand (fun _ => both_bind ?_) h)
  rw [h.layout, typeId]
  refine both_attempt (fun size hsize => both_bind ?_) h
  refine both_ofAttempt (like.nursery.allocate size) ?_ h
  rintro ⟨copy, n⟩ ⟨copy', n'⟩ ⟨e, nursery⟩ - -
  cases e
  have taken := h.setTx shown (.some (a := { tx with nursery := n }) (b := { tx' with nursery := n' })
    ⟨nursery, like.objects, like.phase, like.report, like.tokens, like.copied⟩)
  refine both_bind (both_modify (both_bind ?_))
  -- the object is copied, and the header of the copy laid over what may differ
  refine both_ofAttempt (h.shared.both_read r.addr size) ?_ taken
  rintro bytes bytes' ⟨rfl, rfl⟩ hbytes -
  refine both_bind (both_ofAttempt (nursery.both_write (by rw [Memory.length_read, Memory.length_read]) copy) ?_ taken)
  rintro _ _ ⟨rfl, rfl⟩ - -
  refine both_bind (both_ofAttempt (nursery.both_setHeader copy _) ?_ taken)
  rintro n₁ n₁' ⟨hn, hn'⟩ - -
  have copied' : n₁.Like .none n₁' := by
    rw [hn, hn']
    refine nursery.copyObject fun i hl hu => h.shared.bytes i ?_
    have typeId : head.typeId = r.typeId := by
      rw [← (Arena.header_eq_ok.1 hhead).2, kept.shared.header r hr, Record.header_typeId]
    rw [typeId, kept.shared.sized r hr] at hsize
    cases hsize
    exact kept.shared.clear hr hl hu
  have insert : tx'.objects.insert r.addr copy = tx.objects.insert r.addr copy := by rw [like.objects]
  rw [insert]
  refine both_bind (both_attempt (fun objects hobjects => both_bind (both_modify (both_bind ?_))) taken)
  obtain ⟨x, y, hx, hy, marks, free⟩ := h.both_mark kept hr hhead hhead'
  refine both_ofAttempt_ok hx hy (both_bind (both_modify (both_bind (both_modify (both_bind (both_modify ?_))))))
  rw [ObjectMap.insert, fresh] at hobjects
  cases hobjects
  rw [setTx_setTx, setTx_setTx]
  have settled := h.setCopy copy shown like marks free copied'
  exact ⟨rfl, r.addr :: copied,
    settled.agrees (((Session.Agrees.refl _).count _).note _) (((Session.Agrees.refl _).count _).note _)⟩

/-- Copy on write answers the same in both sessions; an object that gets a copy is then marked in both. -/
theorem both_copyOnWrite (h : Parallel (Marks.of L.shared copied) hidden k s s') (kept : Kept s L) (shown : hidden ≠ some t)
    (found : L.HasShared s obj) :
    Both (copyOnWrite t obj) (copyOnWrite t obj) s s'
      (fun x y r r' => y = x ∧ ∃ copied, Parallel (Marks.of L.shared copied) hidden k r r')
      (Parallel (Marks.of L.shared copied) hidden k) := by
  rw [copyOnWrite]
  refine both_bind (both_handle h shown ?_ h)
  intro a b _ _ like
  split
  · exact ⟨rfl, copied, h⟩
  · refine both_bind (both_get (both_bind ?_))
    rw [like.locate h.config]
    refine both_attempt (fun l hl => ?_) h
    rcases locate_eq_ok hl with ⟨rfl, -⟩ | ⟨rfl, hspace, -⟩
    · exact ⟨rfl, copied, h⟩
    · refine both_bind (both_openTx h shown ?_ h)
      intro tx tx' _ _ like
      rw [requirePhase_like like]
      refine both_bind (both_attempt (fun _ _ => ?_) h)
      rw [like.objects]
      split
      · exact ⟨rfl, copied, h⟩
      · exact both_makeCopy h kept shown like ‹_› (found hspace)

end Action

end

/-! ## Tokens -/

namespace Link

variable {k' : Link}

structure Extends (k k' : Link) : Prop where
  same : ∀ {x y : Nat}, k.same x y → k'.same x y
  tracked : k'.tracked → k.tracked

theorem Extends.refl (k : Link) : k.Extends k := ⟨id, id⟩

theorem Extends.trans {k'' : Link} (h : k.Extends k') (h' : k'.Extends k'') : k.Extends k'' :=
  ⟨h'.same ∘ h.same, h.tracked ∘ h'.tracked⟩

/-- A token that is issued in the one session goes together with one issued in the other. -/
def issue (k : Link) (x y : Nat) (fresh : ∀ {a b : Nat}, k.same a b → a ≠ x ∧ b ≠ y) : Link where
  tracked := k.tracked
  same a b := k.same a b ∨ a = x ∧ b = y
  once := by
    intro a b a' b' h h'
    rcases h with h | ⟨rfl, rfl⟩ <;> rcases h' with h' | ⟨rfl, rfl⟩
    · exact k.once h h'
    · exact ⟨fun e => absurd e (fresh h).1, fun e => absurd e (fresh h).2⟩
    · exact ⟨fun e => absurd e.symm (fresh h').1, fun e => absurd e.symm (fresh h').2⟩
    · exact ⟨fun _ => rfl, fun _ => rfl⟩
  address h := .inl (k.address h)

end Link

section

variable {k' : Link} {tx tx' : Transaction}

theorem TokenTable.Linked.extend {x y : TokenTable} (linked : x.Linked k y) (ext : k.Extends k') : x.Linked k' y := by
  intro tracked addr
  have rel := linked (ext.tracked tracked) addr
  cases hx : x.get? addr <;> cases hy : y.get? addr <;> rw [hx, hy] at rel <;> cases rel
  · exact .none
  · exact .some (ext.same ‹_›)

theorem Transaction.Like.extend (like : tx.Like m k tx') (ext : k.Extends k') : tx.Like m k' tx' :=
  ⟨like.nursery, like.objects, like.phase, like.report, like.tokens.extend ext, like.copied⟩

/-- More tokens go together, and others may have been issued. -/
theorem Parallel.extend (h : Parallel m hidden k s s') (ext : k.Extends k') {next next' : Nat}
    (counted : k'.tracked → k'.Counted next next') :
    Parallel m hidden k' { s with heap := { s.heap with nextToken := next } }
      { s' with heap := { s'.heap with nextToken := next' } } :=
  ⟨h.config, h.layout, h.threads, h.shared, h.below, h.tokens.extend ext, counted,
    h.imp_handles fun _ _ like => like.extend ext, h.secret⟩

/-- The tokens of a shared object go together. -/
theorem Parallel.tokenOf {addr : Nat} (h : Parallel m hidden k s s') (tracked : k.tracked) (low : addr < tokenStart) :
    k.same (s.heap.tokenOf addr) (s'.heap.tokenOf addr) := by
  have rel := h.tokens tracked addr
  rw [Heap.tokenOf, Heap.tokenOf]
  cases hx : s.heap.tokens.get? addr <;> cases hy : s'.heap.tokens.get? addr <;> rw [hx, hy] at rel <;> cases rel
  · exact k.address low
  · assumption

theorem Session.perform_eq_ok {α : Type} {x : Action α} {y : α} {r : Session} : s.perform x = (.ok y, r) ↔ x s = .ok y r := by
  rw [Session.perform]
  cases x s <;> simp

/-- The next tokens go together. -/
theorem Link.Counted.issue {next next' : Nat} (counted : k.Counted next next') (room : next < nurseryStart) :
    ∃ k', k.Extends k' ∧ (k.tracked → k'.tracked) ∧ k'.same next next' ∧
      k'.Counted ((next + wordSize) % wordLimit) ((next' + wordSize) % wordLimit) := by
  have order := counted.order
  have fresh : ∀ {a b}, k.same a b → a ≠ next ∧ b ≠ next' := by
    intro a b same
    have := counted.issued same
    omega
  have step : ∀ n, n ≤ next → (n + wordSize) % wordLimit = n + wordSize :=
    fun n hn => Session.nextToken_eq (Nat.lt_of_le_of_lt hn room)
  refine ⟨k.issue next next' fresh, ⟨.inl, id⟩, id, .inr ⟨rfl, rfl⟩, ?_, ?_⟩
  · rw [step next (Nat.le_refl _), step next' order]
    omega
  · intro x y same
    rw [step next (Nat.le_refl _), step next' order]
    rcases same with same | ⟨rfl, rfl⟩
    · have := counted.issued same
      omega
    · simp only [wordSize]
      omega

namespace Action

/-- A token is issued in both sessions. -/
theorem both_freshToken (h : Parallel m hidden k s s') (shown : hidden ≠ some t) (like : tx.Like m k tx') (tracked : k.tracked)
    (room : s.heap.nextToken < nurseryStart) :
    Both (freshToken t obj tx) (freshToken t obj tx') s s'
      (fun x y r r' => ∃ k', k.Extends k' ∧ k'.tracked ∧ k'.same x y ∧ Parallel m hidden k' r r') (Parallel m hidden k) := by
  have rel := like.tokens tracked obj
  cases hx : tx.tokens.get? obj <;> cases hy : tx'.tokens.get? obj <;> rw [hx, hy] at rel <;> cases rel
  · have counted := h.counted tracked
    obtain ⟨k', ext, still, same, next⟩ := counted.issue room
    obtain ⟨r, hr, agrees⟩ := perform_freshToken_new (t := t) hx room
    obtain ⟨r', hr', agrees'⟩ := perform_freshToken_new (t := t) hy (Nat.lt_of_le_of_lt counted.order room)
    refine both_of_ok (Session.perform_eq_ok.1 hr) (Session.perform_eq_ok.1 hr') ⟨k', ext, still tracked, same, ?_⟩
    have moved : Parallel m hidden k' s.advance s'.advance := h.extend ext fun _ => next
    refine (moved.setTx shown (.some ?_)).agrees agrees agrees'
    exact ⟨like.nursery, like.objects, like.phase, like.report, (like.tokens.extend ext).insert obj fun _ => same, like.copied⟩
  · rename_i same
    rw [freshToken, freshToken, hx, hy]
    exact ⟨k, .refl k, tracked, same, h⟩

/-- A question for a token has answers that go together, as long as there are tokens left. -/
theorem both_tokenOf (h : Parallel (Marks.of L.shared copied) hidden k s s') (kept : Kept s L) (standing : s.AllStanding L)
    (shown : hidden ≠ some t) (own : L.HasOwn s t obj) (found : L.HasShared s obj) (tracked : k.tracked)
    (room : s.heap.nextToken < nurseryStart) :
    Both (tokenOf t obj) (tokenOf t obj) s s'
      (fun x y r r' => ∃ k', k.Extends k' ∧ k'.tracked ∧ k'.same x y ∧ Parallel (Marks.of L.shared copied) hidden k' r r')
      (Parallel (Marks.of L.shared copied) hidden k) := by
  have low : ∀ r ∈ L.shared, r.addr < tokenStart := fun r hr => (kept.ground.shared_lt (kept.shared.contains hr)).2
  rw [tokenOf]
  refine both_bind (both_query (R := fun x y => y = x) h shown ?_ ?_ h)
  · intro a b like
    rw [like.locate h.config]
    exact Attempt.both_refl fun _ => rfl
  rintro a l _ ha hl rfl
  rcases locate_eq_ok hl with ⟨rfl, tx, htx, inside⟩ | ⟨rfl, hspace, -⟩
  · refine both_bind (both_openTx h shown ?_ h)
    intro tx₁ tx' htx₁ _ like
    rw [Session.tx?_of_handle? ha, htx] at htx₁
    cases htx₁
    rw [like.nursery.header (Marks.clear_none _ _)]
    refine both_bind (both_attempt (fun head hhead => ?_) h)
    obtain ⟨r, hr, rfl⟩ := own tx (by rw [Session.tx?_of_handle? ha]; exact htx) inside
    split
    · rename_i addr haddr
      refine both_bind (both_get ⟨k, .refl k, tracked, h.tokenOf tracked ?_, h⟩)
      obtain ⟨o, ho, rfl⟩ := (standing t tx (by rw [Session.tx?_of_handle? ha]; exact htx)).stands r hr addr (by
        rw [Memory.standsFor?, (Arena.header_eq_ok.1 hhead).2]
        exact haddr)
      exact low o ho
    · exact both_freshToken h shown like tracked room
  · obtain ⟨r, hr, rfl⟩ := found hspace
    exact both_bind (both_get ⟨k, .refl k, tracked, h.tokenOf tracked (low r hr), h⟩)

end Action

end

end TxHeap

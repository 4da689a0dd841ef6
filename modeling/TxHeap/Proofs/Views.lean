/-
  TxHeap.Proofs.Views — what of a session its calls go by.

  Calls go by the shared heap and by the open transaction of each thread (`Session.tx?`); of a
  session that only counted, logged or journalled something, both are as before
  (`Session.Agrees`). The rest says how the open transactions change when one of them is
  replaced and when threads come and go.
-/
import TxHeap.Session
import TxHeap.Ends

namespace TxHeap

namespace Session

variable {s s' s'' : Session} {t t' : Nat} {tx : Option Transaction}

/-- The sessions differ at most in counters, logs and journal. -/
structure Agrees (s s' : Session) : Prop where
  shared : s'.heap.shared = s.heap.shared
  tokens : s'.heap.tokens = s.heap.tokens
  layout : s'.heap.layout = s.heap.layout
  config : s'.heap.config = s.heap.config
  threads : s'.heap.threads = s.heap.threads
  nextToken : s'.heap.nextToken = s.heap.nextToken
  handles : s'.handles = s.handles

theorem Agrees.refl (s : Session) : s.Agrees s := ⟨rfl, rfl, rfl, rfl, rfl, rfl, rfl⟩

theorem Agrees.trans (h : s.Agrees s') (h' : s'.Agrees s'') : s.Agrees s'' :=
  ⟨h'.shared.trans h.shared, h'.tokens.trans h.tokens, h'.layout.trans h.layout, h'.config.trans h.config,
    h'.threads.trans h.threads, h'.nextToken.trans h.nextToken, h'.handles.trans h.handles⟩

theorem Agrees.note (h : s.Agrees s') (n : Notice) : s.Agrees (s'.note n) := h.trans ⟨rfl, rfl, rfl, rfl, rfl, rfl, rfl⟩

theorem Agrees.count (h : s.Agrees s') (record : Counters → Counters) : s.Agrees (s'.count record) :=
  h.trans ⟨rfl, rfl, rfl, rfl, rfl, rfl, rfl⟩

theorem Agrees.emit (h : s.Agrees s') (e : Event) : s.Agrees (s'.emit e) := by
  refine h.trans ?_
  unfold Session.emit
  split
  · exact ⟨rfl, rfl, rfl, rfl, rfl, rfl, rfl⟩
  · exact refl s'

theorem Agrees.tx? (h : s.Agrees s') (t : Nat) : s'.tx? t = s.tx? t := by
  rw [Session.tx?, Session.tx?, handle?, handle?, h.handles]

/-! ## Open transactions -/

theorem tx?_of_handle? {h : Handle} (hh : s.handle? t = some h) : s.tx? t = h.tx := by rw [tx?, hh, Option.bind_some]

theorem handle?_isSome_of_tx? {x : Transaction} (h : s.tx? t = some x) : (s.handle? t).isSome = true := by
  rw [tx?, Option.bind_eq_some_iff] at h
  obtain ⟨_, hh, _⟩ := h
  rw [hh]
  rfl

theorem handle?_setTx (s : Session) (t : Nat) (tx : Option Transaction) (t' : Nat) :
    (s.setTx t tx).handle? t' = (s.handle? t').map fun h => if h.thread = t then { h with tx } else h := by
  simp only [handle?, setTx, List.find?_map]
  congr 1
  refine congrArg (List.find? · s.handles) (funext ?_)
  intro h
  simp only [Function.comp_apply]
  split <;> rfl

theorem thread_of_handle? {h : Handle} (hh : s.handle? t = some h) : h.thread = t := by
  have := List.find?_some hh
  simpa using this

theorem tx?_setTx_self (hh : (s.handle? t).isSome = true) : (s.setTx t tx).tx? t = tx := by
  obtain ⟨h, hh⟩ := Option.isSome_iff_exists.1 hh
  rw [tx?, handle?_setTx, hh, Option.map_some, if_pos (thread_of_handle? hh), Option.bind_some]

/-- An open transaction is replaced. -/
theorem tx?_setTx_of_tx? {x : Transaction} (htx : s.tx? t = some x) : (s.setTx t tx).tx? t = tx :=
  tx?_setTx_self (handle?_isSome_of_tx? htx)

theorem tx?_setTx_of_ne (ne : t' ≠ t) : (s.setTx t tx).tx? t' = s.tx? t' := by
  rw [tx?, tx?, handle?_setTx]
  cases hh : s.handle? t' with
  | none => rfl
  | some h =>
    have := thread_of_handle? hh
    rw [Option.map_some, if_neg (by omega)]

/-- Where the transaction of one thread is replaced, those of others are as before. -/
theorem tx?_setTx_cases {x : Transaction} (h : (s.setTx t tx).tx? t' = some x) :
    t' = t ∧ tx = some x ∨ t' ≠ t ∧ s.tx? t' = some x := by
  by_cases e : t' = t
  · subst e
    refine .inl ⟨rfl, ?_⟩
    by_cases hh : (s.handle? t').isSome = true
    · rwa [tx?_setTx_self hh] at h
    · rw [tx?, handle?_setTx, Option.not_isSome_iff_eq_none.mp hh] at h
      cases h
  · exact .inr ⟨e, tx?_setTx_of_ne e ▸ h⟩

def advance (s : Session) : Session :=
  { s with heap := { s.heap with nextToken := (s.heap.nextToken + wordSize) % wordLimit } }

/-- Tokens that are given out do not wrap around. -/
theorem nextToken_eq {token : Nat} (room : token < nurseryStart) : (token + wordSize) % wordLimit = token + wordSize := by
  refine Nat.mod_eq_of_lt ?_
  simp only [nurseryStart, wordSize, wordLimit] at *
  omega

@[simp] theorem setTx_heap (s : Session) (t : Nat) (tx : Option Transaction) : (s.setTx t tx).heap = s.heap := rfl

@[simp] theorem setShared_tokens (s : Session) (shared : Arena) : (s.setShared shared).heap.tokens = s.heap.tokens := rfl

@[simp] theorem setShared_nextToken (s : Session) (shared : Arena) :
    (s.setShared shared).heap.nextToken = s.heap.nextToken := rfl

@[simp] theorem advance_tokens (s : Session) : s.advance.heap.tokens = s.heap.tokens := rfl

theorem tx?_setShared (s : Session) (shared : Arena) (t : Nat) : (s.setShared shared).tx? t = s.tx? t := rfl

/-- A thread that attaches has no transaction, and nobody else's changes. -/
theorem tx?_attach (s : Session) (heap : Heap) (t t' : Nat) :
    Session.tx? { s with heap, handles := s.handles ++ [⟨t, none⟩] } t' = s.tx? t' := by
  simp only [tx?, handle?, List.find?_append]
  cases List.find? (fun h : Handle => h.thread == t') s.handles with
  | some h => rfl
  | none =>
    rw [Option.none_or, List.find?_singleton]
    split <;> rfl

theorem tx?_detach_self (s : Session) (heap : Heap) (t : Nat) :
    Session.tx? { s with heap, handles := s.handles.filter (·.thread != t) } t = none := by
  rw [tx?, Option.bind_eq_none_iff]
  intro h hh
  have hmem := List.mem_of_find?_eq_some hh
  have hne := (List.mem_filter.mp hmem).2
  rw [thread_of_handle? hh] at hne
  simp at hne

theorem tx?_detach_of_ne (s : Session) (heap : Heap) (ne : t' ≠ t) :
    Session.tx? { s with heap, handles := s.handles.filter (·.thread != t) } t' = s.tx? t' := by
  simp only [tx?, handle?, List.find?_filter]
  refine congrArg (Option.bind · _) (congrArg (List.find? · s.handles) (funext ?_))
  intro h
  by_cases e : h.thread = t'
  · simp [e, ne]
  · simp [e]

end Session

namespace Action

open Step

variable {α : Type} {s : Session} {t : Nat} {bad : Failure → Session → Prop}

theorem ends_handle {ok : Handle → Session → Prop} :
    Ends (handle t) s ok bad ↔ (∀ h, s.handle? t = some h → ok h s) ∧ (s.handle? t = none → bad (.detached t) s) := by
  rw [handle, ends_bind, ends_get]
  cases s.handle? t with
  | none => exact ⟨fun h => ⟨nofun, fun _ => h⟩, fun h => h.2 rfl⟩
  | some h => exact ⟨fun hok => ⟨fun _ e => by cases e; exact hok, nofun⟩, fun hok => hok.1 h rfl⟩

theorem ends_openTx {operation : String} {ok : Transaction → Session → Prop}
    (hok : ∀ tx, s.tx? t = some tx → ok tx s) (hbad : s.tx? t = none → ∀ f, bad f s) :
    Ends (openTx t operation) s ok bad := by
  rw [openTx, ends_bind, ends_handle]
  refine ⟨?_, fun hh => hbad (by rw [Session.tx?, hh]; rfl) _⟩
  intro h hh
  have htx := Session.tx?_of_handle? hh
  cases e : h.tx with
  | none => exact hbad (htx.trans e) _
  | some tx => exact hok tx (htx.trans e)

theorem ends_note {n : Notice} {ok : Unit → Session → Prop} : Ends (note n) s ok bad ↔ ok () (s.note n) := Iff.rfl

theorem ends_setTx {tx : Option Transaction} {ok : Unit → Session → Prop} :
    Ends (setTx t tx) s ok bad ↔ ok () (s.setTx t tx) := Iff.rfl

end Action

end TxHeap

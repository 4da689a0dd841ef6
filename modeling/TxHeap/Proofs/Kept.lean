/-
  TxHeap.Proofs.Kept — the shared heap holds what the ledger says.

  A run is careful if whatever it names as an object is one, as far as the thread can see it,
  and if at each prepare the pointers into the own nursery are starts of objects (`careful`).
  In a careful run the shared heap keeps its records, and every transaction that is active or
  prepared is backed by them: each of its working copies belongs to a shared object of the
  same type that is marked as copied (`Kept`). What a preparation adds are its twins
  (`Going.keeps_twinsOf`), and the roots of a prepared transaction can all be overwritten
  (`keeps_overwriteAll`).
-/
import TxHeap.Proofs.LiveGraph

namespace TxHeap

/-! ## Careful runs -/

def Command.object? : Command → Option (Nat × Nat)
  | .copyOnWrite t obj | .read t obj _ | .write t obj _ _ | .header t obj | .token t obj => some (t, obj)
  | .canonical t obj => obj.map (t, ·)
  | _ => none

def Command.prepares? : Command → Option Nat
  | .prepare t | .commit t => some t
  | _ => none

/-- The object, if it lies in the shared heap, is a shared object. -/
def Ledger.HasShared (L : Ledger) (s : Session) (obj : Nat) : Prop :=
  s.heap.spaceOf obj = .shared → ∃ r ∈ L.shared, r.addr = obj

instance (L : Ledger) (s : Session) (obj : Nat) : Decidable (L.HasShared s obj) := by
  unfold Ledger.HasShared
  infer_instance

instance (L : Ledger) (s : Session) (t : Nat) : Decidable (L.FieldsAim s t) := by
  unfold Ledger.FieldsAim
  infer_instance

/-- The rule that objects are named by their starts, and that pointers into the own nursery are starts of objects. -/
def careful : Rule := fun s L c =>
  (∀ x ∈ c.object?, L.HasOwn s x.1 x.2 ∧ L.HasShared s x.2) ∧ ∀ t ∈ c.prepares?, L.FieldsAim s t

instance (s : Session) (L : Ledger) (c : Command) : Decidable (careful s L c) := by
  unfold careful
  infer_instance

theorem careful_divides : careful.Divides := ⟨fun h => ⟨nofun, h.2⟩, fun _ _ _ => ⟨nofun, nofun⟩, fun _ _ _ => ⟨nofun, nofun⟩⟩

theorem careful.storesAim {s : Session} {L : Ledger} {c : Command} (h : careful s L c) : storesAim s L c := by
  cases c with
  | write t obj offset value => exact (h.1 (t, obj) rfl).1
  | _ => trivial

/-! ## Records of the shared heap -/

def AllShared (rs : List Record) : Prop := ∀ r ∈ rs, ∃ whole copied, r.kind = .shared whole copied

/-- Each working copy belongs to a shared object of its type, which is marked as copied. -/
def RootedIn (own shared : List Record) : Prop :=
  ∀ r ∈ own, ∀ root, r.kind = .copyOf root →
    ∃ o ∈ shared, o.addr = root ∧ o.typeId = r.typeId ∧ o.size = r.size ∧ ∃ whole, o.kind = .shared whole true

/-- A change to a record that keeps place, type and mark. -/
structure Record.Settled (f : Record → Record) : Prop where
  shape : ∀ r, (f r).addr = r.addr ∧ (f r).typeId = r.typeId ∧ (f r).size = r.size
  shared : ∀ r whole copied, r.kind = .shared whole copied → (f r).kind = .shared whole copied ∨ (f r).kind = .shared whole true

theorem Record.settled_push (store : Store) : Record.Settled (·.push store) :=
  ⟨fun _ => ⟨rfl, rfl, rfl⟩, fun _ _ _ h => .inl h⟩

theorem Record.settled_mark : Record.Settled Record.mark := by
  refine ⟨fun r => ⟨r.mark_shape.1, r.mark_shape.2.1, r.mark_shape.2.2.1⟩, fun r whole copied h => .inr ?_⟩
  rw [Record.mark, h]

variable {own own' rs rs' : List Record} {f : Record → Record} {addr : Nat}

theorem AllShared.settled (h : AllShared rs) (hf : Record.Settled f) : AllShared (amend rs addr f) := by
  intro r hr
  obtain ⟨x, hx, rfl⟩ := List.mem_map.1 hr
  obtain ⟨whole, copied, hk⟩ := h x hx
  split
  · rcases hf.shared x whole copied hk with hk | hk
    · exact ⟨whole, copied, hk⟩
    · exact ⟨whole, true, hk⟩
  · exact ⟨whole, copied, hk⟩

theorem AllShared.append (h : AllShared rs) (h' : AllShared rs') : AllShared (rs ++ rs') := by
  intro r hr
  rcases List.mem_append.mp hr with hr | hr
  · exact h r hr
  · exact h' r hr

theorem RootedIn.settled (h : RootedIn own rs) (hf : Record.Settled f) : RootedIn own (amend rs addr f) := by
  intro r hr root hk
  obtain ⟨o, ho, haddr, hty, hsz, whole, hkind⟩ := h r hr root hk
  refine ⟨_, List.mem_map_of_mem ho, ?_⟩
  split
  · obtain ⟨eaddr, ety, esz⟩ := hf.shape o
    exact ⟨eaddr.trans haddr, ety.trans hty, esz.trans hsz, whole, (hf.shared o whole true hkind).elim id id⟩
  · exact ⟨haddr, hty, hsz, whole, hkind⟩

theorem RootedIn.append (h : RootedIn own rs) (rs' : List Record) : RootedIn own (rs ++ rs') := fun r hr root hk => by
  obtain ⟨o, ho, rest⟩ := h r hr root hk
  exact ⟨o, List.mem_append_left _ ho, rest⟩

/-- One more private object. -/
theorem RootedIn.add {r : Record} (h : RootedIn own rs) (hr : RootedIn [r] rs) : RootedIn (own ++ [r]) rs := by
  intro x hx
  rcases List.mem_append.mp hx with hx | hx
  · exact h x hx
  · exact hr x hx

/-- A store to a private object. -/
theorem RootedIn.push {store : Store} (h : RootedIn own rs) : RootedIn (amend own addr (·.push store)) rs := by
  intro r hr root hk
  obtain ⟨x, hx, rfl⟩ := List.mem_map.1 hr
  split at hk
  · obtain ⟨o, ho, rest⟩ := h x hx root hk
    rw [if_pos ‹_›]
    exact ⟨o, ho, rest⟩
  · obtain ⟨o, ho, rest⟩ := h x hx root hk
    rw [if_neg ‹_›]
    exact ⟨o, ho, rest⟩

/-! ## Roots are overwritten -/

/-- What an apply goes by: the working copies are where they were made, and are headed as they were. -/
structure Prepared (layout : Layout) (own : List Record) (tx : Transaction) : Prop where
  places : tx.nursery.Places layout own
  pairs : tx.objects.pairs = own.filterMap Record.pair?
  header : ∀ r ∈ own, ∀ root, r.kind = .copyOf root → tx.nursery.memory.headerAt r.addr = r.header

section

open Step

variable {layout : Layout} {tx : Transaction} {a : Arena} {r o : Record} {root : Nat}

/-- The body of a root becomes that of its working copy. -/
theorem overwrite_copy (h : Prepared layout own tx) (keeps : a.Keeps layout rs) (hr : r ∈ own)
    (hk : r.kind = .copyOf root) (ho : o ∈ rs) (addr : o.addr = root) (size : o.size = r.size) :
    Action.overwrite layout tx a root r.addr =
      .ok { a with memory := a.memory.write o.bodyAddr (tx.nursery.memory.read r.bodyAddr r.bodySize) } := by
  have hsize := h.places.headerSize_le hr
  have copy_lt := h.places.stop_lt hr
  have root_lt := keeps.stop_lt ho
  have zero : headerSize + 0 + wordSize < wordLimit := by decide
  simp only [Record.stop, size, addr] at copy_lt root_lt
  have body : o.bodyAddr = root + headerSize := by rw [Record.bodyAddr, addr]
  have header : tx.nursery.header r.addr = .ok r.header :=
    Arena.header_eq_ok.2 ⟨h.places.header_spans hr, h.header r hr root hk⟩
  have sub : Word.sub r.size headerSize = .ok r.bodySize := by
    rw [Word.sub, if_pos hsize]
    rfl
  have target : payloadAddress root 0 = .ok (root + (headerSize + 0)) := payloadAddress_eq zero (by omega)
  have source : payloadAddress r.addr 0 = .ok (r.addr + (headerSize + 0)) := payloadAddress_eq zero (by omega)
  have room : a.Spans (root + (headerSize + 0)) r.bodySize := by
    have : a.Spans (o.addr + headerSize) r.bodySize := keeps.spans ho (by rw [size, Record.bodySize]; omega)
    rwa [addr] at this
  have spans : tx.nursery.Spans (r.addr + (headerSize + 0)) r.bodySize :=
    h.places.spans (k := headerSize) hr (by rw [Record.bodySize]; omega)
  have bytes : tx.nursery.read (r.addr + (headerSize + 0)) r.bodySize =
      .ok (tx.nursery.memory.read r.bodyAddr r.bodySize) := Arena.read_eq_ok.2 ⟨spans, rfl⟩
  have check : a.checkAccess (root + (headerSize + 0)) r.bodySize = .ok () := Attempt.demand_eq_ok.2 room
  have stored : a.write (root + (headerSize + 0)) (tx.nursery.memory.read r.bodyAddr r.bodySize) =
      .ok { a with memory := a.memory.write o.bodyAddr (tx.nursery.memory.read r.bodyAddr r.bodySize) } :=
    Arena.write_eq_ok.2 ⟨by rw [Memory.length_read]; exact room, by rw [body]; rfl⟩
  simp only [Action.overwrite, header, Record.header_typeId, h.places.sized r hr, sub, target, source, check, bytes,
    stored, Attempt.arith, bind, Except.bind]

theorem overwriteAll_cons {b : Arena} {copy : Nat} {rest : List (Nat × Nat)}
    (h : Action.overwrite layout tx a root copy = .ok b) :
    Action.overwriteAll layout tx ((root, copy) :: rest) a = Action.overwriteAll layout tx rest b := by
  simp only [Action.overwriteAll, List.forM, bind, EStateM.bind, h]

/-- All roots of a prepared transaction can be overwritten. -/
theorem keeps_overwriteAll (h : Prepared layout own tx) (sub : ∀ r ∈ own', r ∈ own) (keeps : a.Keeps layout rs)
    (rooted : RootedIn own' rs) :
    Ends (Action.overwriteAll layout tx (own'.filterMap Record.pair?)) a
      (fun _ b => b.Keeps layout (Ledger.overwritten tx.nursery.memory own' rs)) fun _ _ => False := by
  induction own' generalizing a rs with
  | nil => exact keeps
  | cons r own' ih =>
    have sub' : ∀ x ∈ own', x ∈ own := fun x hx => sub x (List.mem_cons_of_mem _ hx)
    have rooted' : RootedIn own' rs := fun x hx => rooted x (List.mem_cons_of_mem _ hx)
    cases hpair : r.pair? with
    | none =>
      have same : Ledger.overwritten tx.nursery.memory (r :: own') rs = Ledger.overwritten tx.nursery.memory own' rs := by
        rw [Ledger.overwritten, List.foldl_cons]
        split
        · rename_i hk
          rw [Record.pair?, hk] at hpair
          cases hpair
        · rfl
      rw [List.filterMap_cons_none hpair, same]
      exact ih sub' keeps rooted'
    | some pair =>
      obtain ⟨root, copy⟩ := pair
      obtain ⟨hk, rfl⟩ := Record.pair?_eq_some.1 hpair
      obtain ⟨o, ho, rfl, -, size, -⟩ := rooted r List.mem_cons_self root hk
      have step : Ledger.overwritten tx.nursery.memory (r :: own') rs = Ledger.overwritten tx.nursery.memory own'
          (amend rs o.addr (·.push (.body (tx.nursery.memory.read r.bodyAddr r.bodySize)))) := by
        rw [Ledger.overwritten, List.foldl_cons, hk]
        rfl
      have len : (tx.nursery.memory.read r.bodyAddr r.bodySize).length = o.bodySize := by
        rw [Memory.length_read, Record.bodySize, Record.bodySize, size]
      have next := ih sub' (keeps.storeBody ho len) (rooted'.settled (Record.settled_push _))
      rw [List.filterMap_cons_some hpair, step]
      unfold Ends at next ⊢
      rw [overwriteAll_cons (overwrite_copy h keeps (sub r List.mem_cons_self) hk ho rfl size)]
      exact next

end

/-! ## Twins are entered -/

theorem twin?_eq_some {nursery shared : Memory} {whole : Bool} {r x : Record} :
    Ledger.twin? nursery shared whole r = some x ↔ r.kind = .fresh ∧ ∃ twin, nursery.twinOf? r.addr = some twin ∧
      x = ⟨twin, r.typeId, r.size, .shared whole false, shared.read (twin + headerSize) r.bodySize, []⟩ := by
  rw [Ledger.twin?]
  cases r.kind <;> cases nursery.twinOf? r.addr <;> simp [eq_comm]

section

variable {layout : Layout} {shared : List Record} {p₀ p : Preparation} {late : Prop} {g : Progress} {r x : Record}
  {whole : Bool}

/-- An entered twin says what the progress says of it. -/
theorem Going.twin_alike (ready : Ready layout own shared p₀) (h : Going layout own shared p₀ late g p) (hr : r ∈ own)
    (hx : Ledger.twin? p.tx.nursery.memory p.shared.memory whole r = some x) : ∃ t, (r, t) ∈ g.twins ∧ t.Alike x := by
  obtain ⟨-, twin, htwin, rfl⟩ := twin?_eq_some.1 hx
  obtain ⟨t, ht, rfl⟩ := Progress.mem_moves.1 ((h.twinOf?_iff ready hr).1 htwin)
  obtain ⟨-, -, typeId, size, kind⟩ := h.twins r t ht
  have body := h.shared.body t (twin_mem ht)
  rw [Record.bodyAddr, Record.bodySize, size] at body
  refine ⟨t, ht, rfl, typeId.symm, size.symm, ?_, body⟩
  rw [Record.header, Record.header, kind, typeId]

/-- The shared heap keeps the twins of a preparation, whether it answered or not. -/
theorem Going.keeps_twinsOf (ready : Ready layout own shared p₀) (h : Going layout own shared p₀ late g p) (whole : Bool) :
    p.shared.Keeps layout (shared ++ Ledger.twinsOf own p.tx.nursery.memory p.shared.memory whole) := by
  refine h.shared.of_alike ?_ ?_
  · intro x hx
    rcases List.mem_append.mp hx with hx | hx
    · exact ⟨x, List.mem_append_left _ hx, rfl, rfl, rfl, rfl, rfl⟩
    · obtain ⟨r, hr, hx⟩ := List.mem_filterMap.1 hx
      obtain ⟨t, ht, alike⟩ := h.twin_alike ready hr hx
      exact ⟨t, twin_mem ht, alike⟩
  · rw [List.map_append]
    refine List.nodup_append.mpr ⟨ready.keeps.addr_nodup, ?_, ?_⟩
    · -- two objects do not share a twin
      rw [List.Nodup, List.pairwise_map, Ledger.twinsOf, List.pairwise_filterMap]
      refine ready.nursery.nodup.imp_of_mem fun {r r'} hr hr' ne x hx x' hx' e => ne ?_
      obtain ⟨t, ht, alike⟩ := h.twin_alike ready hr hx
      obtain ⟨t', ht', alike'⟩ := h.twin_alike ready hr' hx'
      exact (h.twin_unique ht ht' (by rw [← alike.addr, ← alike'.addr, e])).1
    · intro a ha b hb e
      obtain ⟨o, ho, rfl⟩ := List.mem_map.1 ha
      obtain ⟨x, hx, rfl⟩ := List.mem_map.1 hb
      obtain ⟨r, hr, hx⟩ := List.mem_filterMap.1 hx
      obtain ⟨t, ht, alike⟩ := h.twin_alike ready hr hx
      have := (ready.keeps.inside o ho).2
      have := ready.keeps.headerSize_le ho
      have := (h.above r t ht).1
      rw [alike.addr] at e
      simp only [Record.stop, headerSize, wordSize] at *
      omega

end

end TxHeap

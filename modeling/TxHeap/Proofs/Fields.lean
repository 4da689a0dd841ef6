/-
  TxHeap.Proofs.Fields — words at payload offsets.

  An access names an object and an offset into its payload. Whoever sees the object, and in
  whatever phase the transaction is, a read answers exactly if the word lies inside the
  payload of the object's type, and so does a store by a thread that may store to the object
  (`Ledger.MayStore`). A store changes the eight bytes that it names (`Session.stored`), which
  are bytes of no header and of no other object, and a read of the same offset then gives
  the value back (`field_accesses_are_bounded`).

  Any other access is refused, but for one slip: how far the word is from the start of the
  object is computed before the offset is looked at, and for the last sixteen offsets that is
  no word (`fieldFault`). There the call stops instead (`last_offsets_stop`).
-/
import TxHeap.Proofs.Mirror
import TxHeap.Proofs.Names

namespace TxHeap

def fieldFault (obj offset : Nat) : Failure :=
  if headerSize + offset < wordLimit then
    .refused (.invalidAccess (Word.addSaturating obj (headerSize + offset)) wordSize)
  else .overflow .add

/-- The thread is attached, and the object is shared or one of its open transaction. -/
def Ledger.Shows (L : Ledger) (s : Session) (t : Nat) (r : Record) : Prop :=
  (s.handle? t).isSome = true ∧ ((s.tx? t).isSome = true ∧ r ∈ L.own t ∨ r ∈ L.shared)

/-- The main thread stores to shared objects, a worker to those of its active transaction. -/
def Ledger.MayStore (L : Ledger) (s : Session) (t : Nat) (r : Record) : Prop :=
  t = mainThread ∧ r ∈ L.shared ∨ r ∈ L.own t ∧ (s.tx? t).any (·.phase = .active) = true

instance (L : Ledger) (s : Session) (t : Nat) (r : Record) : Decidable (L.Shows s t r) := by
  unfold Ledger.Shows
  infer_instance

instance (L : Ledger) (s : Session) (t : Nat) (r : Record) : Decidable (L.MayStore s t r) := by
  unfold Ledger.MayStore
  infer_instance

def Arena.withWord (a : Arena) (addr value : Nat) : Arena := { a with memory := a.memory.writeWord addr value }

namespace Session

/-- Where a thread reads an object: in the working copy, if it has one. -/
def reads (s : Session) (t obj : Nat) : Nat := (s.copyOf? t obj).getD obj

def arenaOf (s : Session) (t obj : Nat) : Arena :=
  match (s.tx? t).filter (·.nursery.contains obj) with
  | some tx => tx.nursery
  | none => s.heap.shared

def bytesOf (s : Session) (t : Nat) (r : Record) : List UInt8 := (s.arenaOf t r.addr).memory.read r.addr r.size

def wordOf (s : Session) (t obj offset : Nat) : Nat := (s.arenaOf t obj).memory.readWord (obj + (headerSize + offset))

def stored (s : Session) (t obj offset value : Nat) : Session :=
  match (s.tx? t).filter (·.nursery.contains obj) with
  | some tx => s.setTx t (some { tx with nursery := tx.nursery.withWord (obj + (headerSize + offset)) value })
  | none => s.setShared (s.heap.shared.withWord (obj + (headerSize + offset)) value)

end Session

section

variable {s s' : Session} {L : Ledger} {c : Command} {o : Outcome} {t obj offset value payload : Nat} {tx : Transaction}
  {own : List Record} {r : Record}

/-! ## Headers tell types -/

/-- Whatever has become of a transaction, the headers of its objects tell their types. -/
def TypedIn (own : List Record) (tx : Transaction) : Prop :=
  ∀ r ∈ own, (tx.nursery.memory.headerAt r.addr).typeId = r.typeId

theorem Arena.Keeps.typedIn {layout : Layout} (h : tx.nursery.Keeps layout own) : TypedIn own tx := by
  intro r hr
  rw [h.header r hr, Record.header_typeId]

/-- A preparation changes version slots, but no type. -/
theorem Going.typedIn {layout : Layout} {shared : List Record} {p₀ p : Preparation} {late : Prop} {g : Progress}
    (h : Going layout own shared p₀ late g p) (nursery : tx.nursery = p.tx.nursery) : TypedIn own tx := by
  intro r hr
  have header := h.nursery.header _ (List.mem_map_of_mem (f := g.own) hr)
  obtain ⟨addr, typeId, -⟩ := h.shape r hr
  rw [nursery, ← addr, header, Record.header_typeId, typeId]

def Session.AllTyped (s : Session) (L : Ledger) : Prop := s.Each L TypedIn

theorem Turn.typed (turn : Turn s L t c o s' own tx) (h : Kept s L) (typed : s.AllTyped L) (care : careful s L c)
    (unstopped : Unstopped s c o) : TypedIn own tx := by
  have active : tx.phase = .active → TypedIn own tx := fun hactive =>
    (turn.intact h.ground.sound (h.intact t) care.storesAim (fun _ => unstopped) hactive).nursery.typedIn
  cases turn with
  | same htx | issued htx | passed htx => exact fun r hr => typed t _ htx r hr
  | started => exact active rfl
  | grew htx grew =>
    intro r hr
    rw [grew.memory]
    exact typed t _ htx r hr
  | created _ hactive | copied _ hactive | wrote _ hactive => exact active hactive
  | prepared htx hactive hrun =>
    obtain ⟨g, going, -⟩ := (h.run htx hactive (care.2 t rfl)).of_ok hrun
    exact going.typedIn rfl
  | stopped htx hactive hf => exact (unstopped.not_stopped htx hactive hf).elim
  | prepareFailed htx hactive hrun =>
    obtain ⟨-, g, going⟩ := (h.run htx hactive (care.2 t rfl)).of_error hrun
    exact going.typedIn rfl

theorem Lived.typed (h : Lived careful s L) : s.AllTyped L := by
  refine (h.alongside (I := Session.AllTyped) careful_divides id each_create ?_).2
  intro s L c kept typed care e t tx htx
  exact (e.turn kept.ground htx).typed kept typed care (kept.unstopped care e)

/-! ## Addresses of fields -/

/-- The address of an offset, or why there is none. -/
theorem Arena.Places.fieldAddress_eq {a : Arena} {layout : Layout} {rs : List Record} (h : a.Places layout rs)
    (hr : r ∈ rs) (hp : layout.payload? r.typeId = some payload) :
    layout.fieldAddress r.addr r.typeId offset =
      if offset + wordSize ≤ payload then .ok (r.addr + (headerSize + offset)) else .error (fieldFault r.addr offset) := by
  by_cases fit : offset + wordSize ≤ payload
  · rw [if_pos fit, (h.fieldAddress hr hp fit).1]
  · rw [if_neg fit]
    simp only [Layout.fieldAddress, hp, Word.add, fieldFault]
    by_cases small : headerSize + offset < wordLimit
    · rw [if_pos small, if_pos small]
      simp only [Attempt.arith, bind, Except.bind, if_neg (not_and_of_not_left _ fit)]
      rfl
    · rw [if_neg small, if_neg small]
      rfl

/-! ## How objects are found -/

inductive Found (s : Session) (L : Ledger) (t : Nat) (r : Record) : Prop
  | own {x : Handle} {tx : Transaction} : s.handle? t = some x → x.tx = some tx → r ∈ L.own t →
      tx.nursery.contains r.addr = true → Found s L t r
  | shared {x : Handle} : s.handle? t = some x → r ∈ L.shared → x.sees r.addr = false →
      s.heap.spaceOf r.addr = .shared → Found s L t r

theorem Ledger.Shows.found (h : L.Shows s t r) (kept : Kept s L) (standing : s.AllStanding L) : Found s L t r := by
  obtain ⟨attached, own⟩ := h
  obtain ⟨x, hx⟩ := Option.isSome_iff_exists.1 attached
  rcases own with ⟨opened, hr⟩ | hr
  · obtain ⟨tx, htx⟩ := Option.isSome_iff_exists.1 opened
    exact .own hx ((Session.tx?_of_handle? hx).symm.trans htx) hr ((standing t tx htx).places.contains hr)
  · have inside := kept.shared.contains hr
    refine .shared hx hr ?_ (kept.ground.spaceOf_shared inside)
    rw [Handle.sees]
    cases htx : x.tx with
    | none => rfl
    | some tx => exact kept.ground.not_nursery ((Session.tx?_of_handle? hx).trans htx) inside

namespace Session

theorem filter_of_contains (htx : s.tx? t = some tx) (hin : tx.nursery.contains obj = true) :
    (s.tx? t).filter (·.nursery.contains obj) = some tx := by
  rw [htx]
  exact Option.filter_some_pos hin

theorem arenaOf_own (htx : s.tx? t = some tx) (hin : tx.nursery.contains obj = true) : s.arenaOf t obj = tx.nursery := by
  rw [arenaOf, filter_of_contains htx hin]

theorem filter_of_not_sees {x : Handle} (hx : s.handle? t = some x) (hout : x.sees obj = false) :
    (s.tx? t).filter (·.nursery.contains obj) = none := by
  rw [tx?_of_handle? hx, Option.filter_eq_none_iff]
  intro tx htx hin
  rw [Handle.sees, htx, Option.any_some, hin] at hout
  cases hout

theorem arenaOf_shared {x : Handle} (hx : s.handle? t = some x) (hout : x.sees obj = false) :
    s.arenaOf t obj = s.heap.shared := by
  rw [arenaOf, filter_of_not_sees hx hout]

end Session

/-! ## Reads -/

/-- An access to a word of a payload: it ends as given if the word is there, and else it fails and changes nothing. -/
def Session.accessed (s : Session) (payload obj offset : Nat) (done : Outcome × Session) : Outcome × Session :=
  if offset + wordSize ≤ payload then done else (.error (fieldFault obj offset), s)

theorem step_read_of_readWord {x : Handle} {base word : Nat} (hx : s.handle? t = some x)
    (hread : x.readWord s.heap obj offset =
      if offset + wordSize ≤ payload then .ok word else .error (fieldFault base offset)) :
    s.step (.read t obj offset) = s.accessed payload base offset (.ok (.word word), s) := by
  have action : (Command.read t obj offset).action = .word <$> Action.readWord t obj offset := rfl
  rw [step_map action, Session.accessed]
  by_cases fit : offset + wordSize ≤ payload
  · rw [if_pos fit] at hread ⊢
    simp [Action.readWord, Action.query, Action.handle, hx, hread]
  · rw [if_neg fit] at hread ⊢
    simp [Action.readWord, Action.query, Action.handle, hx, hread]

/-- What a read of a payload comes to. -/
theorem Arena.Places.readField {a : Arena} {layout : Layout} {rs : List Record} (h : a.Places layout rs) (hr : r ∈ rs)
    (hp : layout.payload? r.typeId = some payload) :
    (layout.fieldAddress r.addr r.typeId offset >>= a.readWord) =
      if offset + wordSize ≤ payload then .ok (a.memory.readWord (r.addr + (headerSize + offset)))
      else .error (fieldFault r.addr offset) := by
  rw [h.fieldAddress_eq hr hp]
  by_cases fit : offset + wordSize ≤ payload
  · rw [if_pos fit, if_pos fit]
    have spans : a.Spans (r.addr + (headerSize + offset)) wordSize := h.spans hr (h.fieldAddress hr hp fit).2
    exact Arena.readWord_eq_ok.2 ⟨spans, rfl⟩
  · rw [if_neg fit, if_neg fit]
    rfl

theorem Arena.Places.header_ok {a : Arena} {layout : Layout} {rs : List Record} (h : a.Places layout rs) (hr : r ∈ rs) :
    a.header r.addr = .ok (a.memory.headerAt r.addr) :=
  Arena.header_eq_ok.2 ⟨h.header_spans hr, rfl⟩

theorem step_read_own {x : Handle} (hx : s.handle? t = some x) (hxtx : x.tx = some tx)
    (places : tx.nursery.Places s.heap.layout own) (typed : TypedIn own tx) (hr : r ∈ own)
    (hp : s.heap.layout.payload? r.typeId = some payload) :
    s.step (.read t r.addr offset) = s.accessed payload r.addr offset (.ok (.word (s.wordOf t r.addr offset)), s) := by
  have hin := places.contains hr
  have sees : x.sees r.addr = true := by
    rw [Handle.sees, hxtx]
    exact hin
  refine step_read_of_readWord hx ?_
  rw [Session.wordOf, Session.arenaOf_own ((Session.tx?_of_handle? hx).trans hxtx) hin, ← places.readField hr hp]
  simp only [Handle.readWord, Handle.locate, if_pos sees, Handle.nursery, hxtx, Handle.field, places.header_ok hr,
    typed r hr, bind, Except.bind]

theorem step_read_shared {x : Handle} {rs : List Record} (hx : s.handle? t = some x) (hout : x.sees r.addr = false)
    (hspace : s.heap.spaceOf r.addr = .shared) (keeps : s.heap.shared.Keeps s.heap.layout rs) (hr : r ∈ rs)
    (hnone : x.copyOf? r.addr = none) (hp : s.heap.layout.payload? r.typeId = some payload) :
    s.step (.read t r.addr offset) = s.accessed payload r.addr offset (.ok (.word (s.wordOf t r.addr offset)), s) := by
  refine step_read_of_readWord hx ?_
  rw [Session.wordOf, Session.arenaOf_shared hx hout, ← keeps.readField hr hp]
  simp only [Handle.readWord, Handle.locate, hout, Bool.false_eq_true, if_false, if_pos hspace, keeps.header_eq hr, hnone,
    ite_self, Record.header_typeId, bind, Except.bind]

/-- A shared object is read through the working copy, which has its type. -/
theorem step_read_copied {x : Handle} {rs : List Record} {copy : Record} (hx : s.handle? t = some x) (hxtx : x.tx = some tx)
    (hout : x.sees r.addr = false) (hspace : s.heap.spaceOf r.addr = .shared)
    (keeps : s.heap.shared.Keeps s.heap.layout rs) (hr : r ∈ rs) (mark : r.header.isCopied = true)
    (places : tx.nursery.Places s.heap.layout own) (hc : copy ∈ own) (typeId : r.typeId = copy.typeId)
    (hcopy : x.copyOf? r.addr = some copy.addr) (hp : s.heap.layout.payload? r.typeId = some payload) :
    s.step (.read t r.addr offset) =
      s.accessed payload copy.addr offset (.ok (.word (s.wordOf t copy.addr offset)), s) := by
  refine step_read_of_readWord hx ?_
  rw [Session.wordOf, Session.arenaOf_own ((Session.tx?_of_handle? hx).trans hxtx) (places.contains hc),
    ← places.readField hc (typeId ▸ hp)]
  simp only [Handle.readWord, Handle.locate, hout, Bool.false_eq_true, if_false, if_pos hspace, keeps.header_eq hr,
    if_pos mark, hcopy, Handle.nursery, hxtx, Record.header_typeId, typeId, bind, Except.bind]

/-- No object of a nursery has a working copy. -/
theorem Mirrored.copyOf?_own {layout : Layout} {shared : List Record} (h : Mirrored layout shared own tx) (ground : Grounded s)
    (htx : s.tx? t = some tx) (keeps : s.heap.shared.Keeps layout shared) (hin : tx.nursery.contains obj = true) :
    tx.objects.copyOf? obj = none := by
  cases found : tx.objects.copyOf? obj with
  | none => rfl
  | some copy =>
    obtain ⟨⟨o, ho, rfl⟩, -⟩ := (h.mirrors keeps).places obj copy (ObjectMap.mem_of_copyOf? found)
    rw [ground.not_nursery htx (keeps.contains ho)] at hin
    cases hin

/-- Whatever a thread is shown it reads within the bounds of the payload. -/
theorem step_read_shown (life : Lived careful s L) (found : Found s L t r)
    (hp : s.heap.layout.payload? r.typeId = some payload) :
    s.step (.read t r.addr offset) = s.accessed payload (s.reads t r.addr) offset
      (.ok (.word (s.wordOf t (s.reads t r.addr) offset)), s) := by
  have kept := life.kept
  cases found with
  | @own x tx hx hxtx hr hin =>
    have htx := (Session.tx?_of_handle? hx).trans hxtx
    have mirrored := life.mirrored t tx htx
    have none := mirrored.copyOf?_own kept.ground htx kept.shared hin
    rw [Session.reads, Session.copyOf?, htx, Option.bind_some, none, Option.getD_none]
    exact step_read_own hx hxtx mirrored.places (life.typed t tx htx) hr hp
  | @shared x hx hr hout hspace =>
    have same : s.copyOf? t r.addr = x.copyOf? r.addr := by
      rw [Session.copyOf?, Session.tx?_of_handle? hx, Handle.copyOf?]
    cases hcopy : x.copyOf? r.addr with
    | none =>
      rw [Session.reads, same, hcopy, Option.getD_none]
      exact step_read_shared hx hout hspace kept.shared hr hcopy hp
    | some copy =>
      rw [Session.reads, same, hcopy, Option.getD_some]
      obtain ⟨tx, hxtx, found⟩ := Option.bind_eq_some_iff.1 hcopy
      have mirrored := life.mirrored t tx ((Session.tx?_of_handle? hx).trans hxtx)
      obtain ⟨c, hc, hk, rfl⟩ := mirrored.mem_pairs.1 (ObjectMap.mem_of_copyOf? found)
      obtain ⟨o, ho, addr, typeId, -, whole, marked⟩ := mirrored.rooted c hc _ hk
      cases kept.shared.eq_of_addr ho hr addr
      exact step_read_copied hx hxtx hout hspace kept.shared hr (Record.header_shared marked).2.2 mirrored.places hc typeId
        hcopy hp

/-! ## Stores -/

/-- What a store to a payload comes to. -/
theorem Arena.Places.writeField {a : Arena} {layout : Layout} {rs : List Record} (h : a.Places layout rs) (hr : r ∈ rs)
    (hp : layout.payload? r.typeId = some payload) (fit : offset + wordSize ≤ payload) :
    a.writeWord (r.addr + (headerSize + offset)) value = .ok (a.withWord (r.addr + (headerSize + offset)) value) :=
  Arena.writeWord_eq_ok.2 ⟨h.spans hr (h.fieldAddress hr hp fit).2, rfl⟩

theorem stored_own (htx : s.tx? t = some tx) (hin : tx.nursery.contains obj = true) :
    s.stored t obj offset value =
      s.setTx t (some { tx with nursery := tx.nursery.withWord (obj + (headerSize + offset)) value }) := by
  rw [Session.stored, Session.filter_of_contains htx hin]

theorem stored_shared {x : Handle} (hx : s.handle? t = some x) (hout : x.sees obj = false) :
    s.stored t obj offset value = s.setShared (s.heap.shared.withWord (obj + (headerSize + offset)) value) := by
  rw [Session.stored, Session.filter_of_not_sees hx hout]

theorem step_write_own {x : Handle} (hx : s.handle? t = some x) (hxtx : x.tx = some tx) (hactive : tx.phase = .active)
    (places : tx.nursery.Places s.heap.layout own) (typed : TypedIn own tx) (hr : r ∈ own)
    (hp : s.heap.layout.payload? r.typeId = some payload) :
    s.step (.write t r.addr offset value) =
      s.accessed payload r.addr offset (.ok .done, s.stored t r.addr offset value) := by
  have hin := places.contains hr
  have htx := (Session.tx?_of_handle? hx).trans hxtx
  have sees : x.sees r.addr = true := by
    rw [Handle.sees, hxtx]
    exact hin
  have locate : x.locate s.heap r.addr = .ok .nursery := by rw [Handle.locate, if_pos sees]
  have phase : tx.requirePhase "write_word" .active = .ok () := requirePhase_eq_ok.2 hactive
  have field : Handle.field s.heap tx.nursery r.addr offset =
      if offset + wordSize ≤ payload then .ok (r.addr + (headerSize + offset)) else .error (fieldFault r.addr offset) := by
    rw [← places.fieldAddress_eq hr hp]
    simp only [Handle.field, places.header_ok hr, typed r hr, bind, Except.bind]
  rw [step_quietly rfl, Session.accessed, stored_own htx hin]
  by_cases fit : offset + wordSize ≤ payload
  · rw [if_pos fit] at field ⊢
    simp [Action.writeWord, Action.query, Action.handle, Action.writePrivate, Action.openTx, Action.setTx, hx, hxtx, locate,
      field, phase, places.writeField hr hp fit]
  · rw [if_neg fit] at field ⊢
    simp [Action.writeWord, Action.query, Action.handle, Action.writePrivate, Action.openTx, hx, hxtx, locate, field]

theorem step_write_shared {x : Handle} {rs : List Record} (hx : s.handle? mainThread = some x)
    (hout : x.sees r.addr = false) (hspace : s.heap.spaceOf r.addr = .shared)
    (keeps : s.heap.shared.Keeps s.heap.layout rs) (hr : r ∈ rs) (hp : s.heap.layout.payload? r.typeId = some payload) :
    s.step (.write mainThread r.addr offset value) =
      s.accessed payload r.addr offset (.ok .done, s.stored mainThread r.addr offset value) := by
  have locate : x.locate s.heap r.addr = .ok .shared := by
    rw [Handle.locate, hout, if_neg Bool.false_ne_true, if_pos hspace]
  have field : Handle.field s.heap s.heap.shared r.addr offset =
      if offset + wordSize ≤ payload then .ok (r.addr + (headerSize + offset)) else .error (fieldFault r.addr offset) := by
    rw [← keeps.fieldAddress_eq hr hp]
    simp only [Handle.field, keeps.header_eq hr, Record.header_typeId, bind, Except.bind]
  rw [step_quietly rfl, Session.accessed, stored_shared hx hout]
  by_cases fit : offset + wordSize ≤ payload
  · rw [if_pos fit] at field ⊢
    simp [Action.writeWord, Action.query, Action.handle, Action.writeShared, Action.setShared, hx, locate, field,
      keeps.writeField hr hp fit]
  · rw [if_neg fit] at field ⊢
    simp [Action.writeWord, Action.query, Action.handle, Action.writeShared, hx, locate, field]

theorem Ledger.MayStore.active (h : L.MayStore s t r) (htx : s.tx? t = some tx) (main : t ≠ mainThread) :
    r ∈ L.own t ∧ tx.phase = .active := by
  rcases h with ⟨e, -⟩ | ⟨hr, active⟩
  · exact absurd e main
  · rw [htx, Option.any_some] at active
    exact ⟨hr, of_decide_eq_true active⟩

/-- What lies outside the thread's nursery it may store to only as the main thread. -/
theorem Ledger.MayStore.main {x : Handle} (h : L.MayStore s t r) (hx : s.handle? t = some x) (hout : x.sees r.addr = false)
    (standing : s.AllStanding L) : t = mainThread := by
  rcases h with ⟨e, -⟩ | ⟨hr, active⟩
  · exact e
  · obtain ⟨tx, htx, -⟩ := (Option.any_eq_true _ _).1 active
    have hin := (standing t tx htx).places.contains hr
    rw [Handle.sees, (Session.tx?_of_handle? hx).symm.trans htx, Option.any_some, hin] at hout
    cases hout

/-- Whatever a thread may store to it stores to within the bounds of the payload. -/
theorem step_write_shown (life : Lived careful s L) (found : Found s L t r) (may : L.MayStore s t r)
    (hp : s.heap.layout.payload? r.typeId = some payload) :
    s.step (.write t r.addr offset value) =
      s.accessed payload r.addr offset (.ok .done, s.stored t r.addr offset value) := by
  have kept := life.kept
  cases found with
  | @own x tx hx hxtx hr =>
    have htx := (Session.tx?_of_handle? hx).trans hxtx
    have active := (may.active htx (kept.ground.workers t tx htx).1).2
    exact step_write_own hx hxtx active (life.mirrored t tx htx).places (life.typed t tx htx) hr hp
  | @shared x hx hr hout hspace =>
    have main := may.main hx hout life.standing
    subst main
    exact step_write_shared hx hout hspace kept.shared hr hp

/-! ## What a store changes -/

/-- The eight bytes of a word are stored to an object, and nothing else that anybody is shown changes. -/
structure WordStored (s s' : Session) (L : Ledger) (t : Nat) (r : Record) (offset value : Nat) : Prop where
  inside : headerSize + offset + wordSize ≤ r.size
  bytes : s'.bytesOf t r = overlay (s.bytesOf t r) (headerSize + offset) (Word.toBytes value)
  others : ∀ t' r', L.Shows s t' r' → r' ≠ r → s'.bytesOf t' r' = s.bytesOf t' r'
  /-- What was stored is read. -/
  back : s'.step (.read t r.addr offset) = (.ok (.word value), s')

/-- A word of one object is not a part of another. -/
theorem Arena.Places.read_writeWord_of_ne {a : Arena} {layout : Layout} {rs : List Record} {r' : Record} {m : Memory}
    (h : a.Places layout rs) (hr : r ∈ rs) (hr' : r' ∈ rs) (ne : r' ≠ r) (fit : headerSize + offset + wordSize ≤ r.size) :
    (m.writeWord (r.addr + (headerSize + offset)) value).read r'.addr r'.size = m.read r'.addr r'.size := by
  have apart := h.apart_of_ne hr' hr ne
  simp only [Record.stop] at apart
  exact Memory.read_congr fun i _ _ => Memory.get_writeWord_of_apart (by omega)

@[simp] theorem Arena.memory_withWord (a : Arena) (addr v : Nat) :
    (a.withWord addr v).memory = a.memory.writeWord addr v := by
  rw [Arena.withWord]

@[simp] theorem Arena.contains_withWord (a : Arena) (addr v : Nat) : (a.withWord addr v).contains obj = a.contains obj := by
  rw [Bool.eq_iff_iff, Arena.contains_iff, Arena.contains_iff, Arena.withWord, Arena.freePointer, Arena.freePointer]

theorem Arena.Keeps.withWord {a : Arena} {layout : Layout} {rs : List Record} (h : a.Keeps layout rs) (hr : r ∈ rs)
    (fit : headerSize + offset + wordSize ≤ r.size) (value : Nat) :
    (a.withWord (r.addr + (headerSize + offset)) value).Keeps layout (amend rs r.addr (·.push (.word offset value))) :=
  h.storeWord hr fit

/-- The word that was stored is found. -/
theorem Arena.readWord_withWord (a : Arena) (addr : Nat) (word : value < wordLimit) :
    (a.withWord addr value).memory.readWord addr = value := by
  rw [Arena.memory_withWord, Memory.readWord_writeWord, Nat.mod_eq_of_lt word]

theorem mem_amend_push {rs : List Record} {store : Store} (hr : r ∈ rs) : r.push store ∈ amend rs r.addr (·.push store) := by
  have mem := List.mem_map_of_mem (f := fun x : Record => if x.addr = r.addr then x.push store else x) hr
  rwa [if_pos rfl] at mem

namespace Session

variable {nursery : Arena} {t' : Nat}

theorem arenaOf_setTx_self (htx : s.tx? t = some tx) (hin : nursery.contains obj = true) :
    (s.setTx t (some { tx with nursery })).arenaOf t obj = nursery :=
  arenaOf_own (tx?_setTx_of_tx? htx) hin

theorem arenaOf_setTx_of_ne {tx' : Option Transaction} (ne : t' ≠ t) :
    (s.setTx t tx').arenaOf t' obj = s.arenaOf t' obj := by
  rw [arenaOf, tx?_setTx_of_ne ne]
  rfl

/-- Another nursery in the place of one changes nothing outside both. -/
theorem arenaOf_setTx_outside (htx : s.tx? t = some tx) (hout : tx.nursery.contains obj = false)
    (hout' : nursery.contains obj = false) : (s.setTx t (some { tx with nursery })).arenaOf t' obj = s.arenaOf t' obj := by
  by_cases e : t' = t
  · subst e
    rw [arenaOf, arenaOf, tx?_setTx_of_tx? htx, htx]
    simp only [Option.filter_some, hout, hout', Bool.false_eq_true, if_false, setTx_heap]
  · exact arenaOf_setTx_of_ne e

theorem arenaOf_setShared {x : Handle} {shared : Arena} (hx : s.handle? t = some x) (hout : x.sees obj = false) :
    (s.setShared shared).arenaOf t obj = shared :=
  arenaOf_shared (s := s.setShared shared) hx hout

theorem arenaOf_setShared_own {shared : Arena} (htx : s.tx? t = some tx) (hin : tx.nursery.contains obj = true) :
    (s.setShared shared).arenaOf t obj = s.arenaOf t obj := by
  rw [arenaOf_own htx hin]
  exact arenaOf_own (s := s.setShared shared) htx hin

end Session

/-- A read in a nursery that was put in the place of one. -/
theorem step_read_setTx {nursery : Arena} {rs : List Record} (htx : s.tx? t = some tx)
    (keeps : nursery.Keeps s.heap.layout rs) (hr : r ∈ rs) (hp : s.heap.layout.payload? r.typeId = some payload)
    (fit : offset + wordSize ≤ payload) :
    (s.setTx t (some { tx with nursery })).step (.read t r.addr offset) =
      (.ok (.word (nursery.memory.readWord (r.addr + (headerSize + offset)))), s.setTx t (some { tx with nursery })) := by
  have htx' : (s.setTx t (some { tx with nursery })).tx? t = some { tx with nursery } :=
    Session.tx?_setTx_of_tx? htx
  obtain ⟨x, hx, hxtx⟩ := handle_of_tx? htx'
  have read : (s.setTx t (some { tx with nursery })).step (.read t r.addr offset) = _ :=
    step_read_own hx hxtx keeps.toPlaces keeps.typedIn hr hp
  rwa [Session.accessed, if_pos fit, Session.wordOf, Session.arenaOf_setTx_self htx (keeps.contains hr)] at read

/-- A read in a shared heap that was put in the place of one. -/
theorem step_read_setShared {x : Handle} {shared : Arena} {rs : List Record} (hx : s.handle? t = some x)
    (hout : x.sees r.addr = false) (hspace : s.heap.spaceOf r.addr = .shared) (keeps : shared.Keeps s.heap.layout rs)
    (hr : r ∈ rs) (hnone : x.copyOf? r.addr = none) (hp : s.heap.layout.payload? r.typeId = some payload)
    (fit : offset + wordSize ≤ payload) :
    (s.setShared shared).step (.read t r.addr offset) =
      (.ok (.word (shared.memory.readWord (r.addr + (headerSize + offset)))), s.setShared shared) := by
  have read : (s.setShared shared).step (.read t r.addr offset) = _ :=
    step_read_shared (s := s.setShared shared) hx hout hspace keeps hr hnone hp
  rwa [Session.accessed, if_pos fit, Session.wordOf, Session.arenaOf_setShared hx hout] at read

/-- A store of a word to an object of an active transaction. -/
theorem wordStored_own {x : Handle} (kept : Kept s L) (standing : s.AllStanding L) (hx : s.handle? t = some x)
    (hxtx : x.tx = some tx) (hactive : tx.phase = .active) (hr : r ∈ L.own t)
    (hp : s.heap.layout.payload? r.typeId = some payload) (fit : offset + wordSize ≤ payload) (word : value < wordLimit) :
    WordStored s (s.stored t r.addr offset value) L t r offset value := by
  have htx := (Session.tx?_of_handle? hx).trans hxtx
  have keeps := (kept.intact t tx htx hactive).nursery
  have hin := keeps.contains hr
  have inside := (keeps.fieldAddress hr hp fit).2
  have held : ∀ {x}, (tx.nursery.withWord (r.addr + (headerSize + offset)) value).contains x = tx.nursery.contains x :=
    Arena.contains_withWord _ _ _
  rw [stored_own htx hin]
  refine ⟨inside, ?_, ?_, ?_⟩
  · rw [Session.bytesOf, Session.bytesOf, Session.arenaOf_setTx_self htx (held.trans hin), Session.arenaOf_own htx hin,
      Arena.memory_withWord]
    exact Memory.read_writeWord_overlay inside
  · intro t' r' shown ne
    rw [Session.bytesOf, Session.bytesOf]
    cases shown.found kept standing with
    | @own x' tx₁ hx' hxtx' hr' hin' =>
      by_cases e : t' = t
      · subst e
        cases hx.symm.trans hx'
        cases hxtx.symm.trans hxtx'
        rw [Session.arenaOf_setTx_self htx (held.trans hin'), Session.arenaOf_own htx hin', Arena.memory_withWord]
        exact keeps.read_writeWord_of_ne hr hr' ne inside
      · rw [Session.arenaOf_setTx_of_ne e]
    | shared hx' hr' =>
      have hout := kept.ground.not_nursery htx (kept.shared.contains hr')
      rw [Session.arenaOf_setTx_outside htx hout (held.trans hout)]
  · have read := step_read_setTx htx (keeps.withWord hr inside value) (mem_amend_push hr) hp fit
    rwa [Record.push_addr, Arena.readWord_withWord _ _ word] at read

/-- A store of a word to a shared object. -/
theorem wordStored_shared {x : Handle} (kept : Kept s L) (standing : s.AllStanding L) (hx : s.handle? mainThread = some x)
    (hout : x.sees r.addr = false) (hspace : s.heap.spaceOf r.addr = .shared) (hr : r ∈ L.shared)
    (hp : s.heap.layout.payload? r.typeId = some payload) (fit : offset + wordSize ≤ payload) (word : value < wordLimit) :
    WordStored s (s.stored mainThread r.addr offset value) L mainThread r offset value := by
  have keeps := kept.shared
  have inside := (keeps.fieldAddress hr hp fit).2
  rw [stored_shared hx hout]
  refine ⟨inside, ?_, ?_, ?_⟩
  · rw [Session.bytesOf, Session.bytesOf, Session.arenaOf_setShared hx hout, Session.arenaOf_shared hx hout,
      Arena.memory_withWord]
    exact Memory.read_writeWord_overlay inside
  · intro t' r' shown ne
    rw [Session.bytesOf, Session.bytesOf]
    cases shown.found kept standing with
    | own hx' hxtx' hr' hin' =>
      rw [Session.arenaOf_setShared_own ((Session.tx?_of_handle? hx').trans hxtx') hin']
    | shared hx' hr' hout' =>
      rw [Session.arenaOf_setShared hx' hout', Session.arenaOf_shared hx' hout', Arena.memory_withWord]
      exact keeps.read_writeWord_of_ne hr hr' ne inside
  · have none : x.copyOf? r.addr = none := by
      rw [Handle.copyOf?, Option.bind_eq_none_iff]
      intro tx hxtx
      exact absurd rfl (kept.ground.workers mainThread tx ((Session.tx?_of_handle? hx).trans hxtx)).1
    have read := step_read_setShared (t := mainThread) (r := r.push (.word offset value)) hx hout hspace
      (keeps.withWord hr inside value) (mem_amend_push hr) none hp fit
    rwa [Record.push_addr, Arena.readWord_withWord _ _ word] at read

theorem wordStored_shown (life : Lived careful s L) (found : Found s L t r) (may : L.MayStore s t r)
    (hp : s.heap.layout.payload? r.typeId = some payload) (fit : offset + wordSize ≤ payload) (word : value < wordLimit) :
    WordStored s (s.stored t r.addr offset value) L t r offset value := by
  have kept := life.kept
  cases found with
  | @own x tx hx hxtx hr =>
    have htx := (Session.tx?_of_handle? hx).trans hxtx
    exact wordStored_own kept life.standing hx hxtx (may.active htx (kept.ground.workers t tx htx).1).2 hr hp fit word
  | @shared x hx hr hout hspace =>
    have main := may.main hx hout life.standing
    subst main
    exact wordStored_shared kept life.standing hx hout hspace hr hp fit word

/-- An object that is shown has a payload. -/
theorem Found.payload? (found : Found s L t r) (kept : Kept s L) (standing : s.AllStanding L) :
    ∃ payload, s.heap.layout.payload? r.typeId = some payload := by
  have sized : s.heap.layout.objectSize r.typeId = .ok r.size := by
    cases found with
    | own hx hxtx hr => exact (standing t _ ((Session.tx?_of_handle? hx).trans hxtx)).places.sized r hr
    | shared _ hr => exact kept.shared.sized r hr
  obtain ⟨payload, hp, -⟩ := Layout.payload_of_objectSize sized
  exact ⟨payload, hp⟩

/-! ## Accesses -/

/--
A read of an object answers exactly where the word lies inside the payload, and so does a
store by a thread that may store to it. A store changes the eight bytes of the word, and the
same read then gives the value.
-/
theorem field_accesses_are_bounded (life : Lived careful s L) (shown : L.Shows s t r) :
    ∃ payload, s.heap.layout.payload? r.typeId = some payload ∧ ∀ offset,
      s.step (.read t r.addr offset) = s.accessed payload (s.reads t r.addr) offset
          (.ok (.word (s.wordOf t (s.reads t r.addr) offset)), s) ∧
        (L.MayStore s t r → ∀ value < wordLimit,
          s.step (.write t r.addr offset value) =
              s.accessed payload r.addr offset (.ok .done, s.stored t r.addr offset value) ∧
            (offset + wordSize ≤ payload → WordStored s (s.stored t r.addr offset value) L t r offset value)) := by
  have found := shown.found life.kept life.standing
  obtain ⟨payload, hp⟩ := found.payload? life.kept life.standing
  refine ⟨payload, hp, fun offset => ⟨step_read_shown life found hp, ?_⟩⟩
  intro may value word
  exact ⟨step_write_shown life found may hp, fun fit => wordStored_shown life found may hp fit word⟩

/-- The first worker has stored to its copy of the root; the word at offset 24 is there, the one at 25 is not. -/
theorem field_accesses_are_bounded_overtaken :
    ∃ r, (Ledger.empty.along .ofNodes overtaken).Shows (Session.ofNodes.run overtaken).2 1 r ∧
      (Ledger.empty.along .ofNodes overtaken).MayStore (Session.ofNodes.run overtaken).2 1 r ∧
      (Session.ofNodes.run overtaken).2.step (.read 1 r.addr 24) =
        (.ok (.word ((Session.ofNodes.run overtaken).2.wordOf 1 r.addr 24)), (Session.ofNodes.run overtaken).2) ∧
      (Session.ofNodes.run overtaken).2.step (.read 1 r.addr 25) =
        (.error (.refused (.invalidAccess (r.addr + 41) 8)), (Session.ofNodes.run overtaken).2) ∧
      WordStored (Session.ofNodes.run overtaken).2 ((Session.ofNodes.run overtaken).2.stored 1 r.addr 21 7)
        (Ledger.empty.along .ofNodes overtaken) 1 r 21 7 := by
  have life : Lived careful (Session.ofNodes.run overtaken).2 (Ledger.empty.along .ofNodes overtaken) :=
    .ofNodes (by decide +kernel)
  have layout := (grounded_ofNodes.run overtaken).2
  obtain ⟨r, hr, addr, typeId, shown, may, reads⟩ : ∃ r ∈ (Ledger.empty.along .ofNodes overtaken).own 1,
      r.addr = nurseryStart ∧ r.typeId = 0 ∧
        (Ledger.empty.along .ofNodes overtaken).Shows (Session.ofNodes.run overtaken).2 1 r ∧
        (Ledger.empty.along .ofNodes overtaken).MayStore (Session.ofNodes.run overtaken).2 1 r ∧
        (Session.ofNodes.run overtaken).2.reads 1 r.addr = r.addr := by
    decide +kernel
  obtain ⟨payload, hp, accesses⟩ := field_accesses_are_bounded life shown
  have nodes : Session.ofNodes.heap.layout.payload? 0 = some 32 := by decide +kernel
  rw [layout, typeId, nodes] at hp
  cases hp
  rw [reads] at accesses
  refine ⟨r, shown, may, (accesses 24).1, ?_, ((accesses 21).2 may 7 (by decide)).2 (by decide)⟩
  have fault : fieldFault r.addr 25 = .refused (.invalidAccess (r.addr + 41) 8) := by
    rw [addr]
    decide
  rw [(accesses 25).1, Session.accessed, if_neg (by decide), fault]

/-- The first of the last sixteen offsets is past the payload of a node, but neither a read nor a store of it is refused. -/
theorem last_offsets_stop :
    let s := (Session.ofNodes.run [.attachMain, .create mainThread 0]).2
    let L := Ledger.empty.along .ofNodes [.attachMain, .create mainThread 0]
    Lived careful s L ∧ ∃ r, L.Shows s mainThread r ∧ L.MayStore s mainThread r ∧
      s.heap.layout.payload? r.typeId = some 32 ∧ wordLimit - 16 < wordLimit ∧ ¬ wordLimit - 16 + wordSize ≤ 32 ∧
      (∀ addr, (s.step (.read mainThread r.addr (wordLimit - 16))).1 ≠ .error (.refused (.invalidAccess addr wordSize))) ∧
      ∀ addr, (s.step (.write mainThread r.addr (wordLimit - 16) 1)).1 ≠ .error (.refused (.invalidAccess addr wordSize)) := by
  refine ⟨.ofNodes (by decide +kernel), ?_⟩
  obtain ⟨r, -, shown, may, payload, read, write⟩ : ∃ r ∈ (Ledger.empty.along .ofNodes [.attachMain, .create mainThread 0]).shared,
      (Ledger.empty.along .ofNodes [.attachMain, .create mainThread 0]).Shows
          (Session.ofNodes.run [.attachMain, .create mainThread 0]).2 mainThread r ∧
        (Ledger.empty.along .ofNodes [.attachMain, .create mainThread 0]).MayStore
          (Session.ofNodes.run [.attachMain, .create mainThread 0]).2 mainThread r ∧
        (Session.ofNodes.run [.attachMain, .create mainThread 0]).2.heap.layout.payload? r.typeId = some 32 ∧
        ((Session.ofNodes.run [.attachMain, .create mainThread 0]).2.step
          (.read mainThread r.addr (wordLimit - 16))).1 = .error (.overflow .add) ∧
        ((Session.ofNodes.run [.attachMain, .create mainThread 0]).2.step
          (.write mainThread r.addr (wordLimit - 16) 1)).1 = .error (.overflow .add) := by
    decide +kernel
  refine ⟨r, shown, may, payload, by decide, by decide, fun addr e => ?_, fun addr e => ?_⟩
  · rw [read] at e
    cases e
  · rw [write] at e
    cases e

end

end TxHeap

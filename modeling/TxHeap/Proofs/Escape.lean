/-
  TxHeap.Proofs.Escape — no private address gets into published memory.

  Workers may have any words in their pointers but for one thing: a word that falls into the
  own nursery at a prepare must be the start of an object there. Where the main thread stores
  nothing but null and shared addresses to pointers (`guarded`), every pointer of every
  object that the main thread made or that a prepare published is null or a shared address,
  at any time (`published_pointers_are_shared`).

  A prepare that answers has images in all fields, and every image is null or shared
  (`Going.public_word`); so are the fields of its working copies, which wait in the nursery
  until they are applied. Twins of a prepare that failed may be half done, and nothing is
  said of them.
-/
import TxHeap.Proofs.SharedWrites

namespace TxHeap

def Arena.Public (a : Arena) (v : Nat) : Prop := v = 0 ∨ a.contains v = true

instance (a : Arena) (v : Nat) : Decidable (a.Public v) := by
  unfold Arena.Public
  infer_instance

/-- The store touches no pointer of the object, or it is a store of a public word to just one pointer. -/
def Ledger.StoresPublic (L : Ledger) (s : Session) (obj offset value : Nat) : Prop :=
  ∀ r ∈ L.shared, r.addr = obj → ∀ field ∈ s.heap.layout.fields r.typeId,
    offset + wordSize ≤ field ∨ field + wordSize ≤ offset ∨ field = offset ∧ s.heap.shared.Public value

instance (L : Ledger) (s : Session) (obj offset value : Nat) : Decidable (L.StoresPublic s obj offset value) := by
  unfold Ledger.StoresPublic
  infer_instance

def Command.sharedStore? : Command → Option (Nat × Nat × Nat)
  | .write t obj offset value => if t = mainThread then some (obj, offset, value) else none
  | _ => none

/-- The rule of a careful run in which the main thread stores only public words to pointers. -/
def guarded : Rule := fun s L c =>
  careful s L c ∧ ∀ x ∈ c.sharedStore?, L.StoresPublic s x.1 x.2.1 x.2.2

instance (s : Session) (L : Ledger) (c : Command) : Decidable (guarded s L c) := by
  unfold guarded
  infer_instance

theorem guarded_divides : guarded.Divides :=
  ⟨fun h => ⟨careful_divides.prepare h.1, nofun⟩, fun _ _ _ => ⟨careful_divides.apply .., nofun⟩,
    fun _ _ _ => ⟨careful_divides.finish .., nofun⟩⟩

/-! ## Images are public -/

section

variable {layout : Layout} {own shared : List Record} {p₀ p : Preparation} {g : Progress} {item : Item} {r r' : Record}
  {v v' offset : Nat}

theorem Going.public_image (h : Going layout own shared p₀ True g p) (rooted : RootedIn own shared)
    (hv : Image own g.moves p.Outside v v') : p.shared.Public v' := by
  cases hv with
  | null => exact .inl rfl
  | root hr hk =>
    obtain ⟨o, ho, rfl, -⟩ := rooted _ hr _ hk
    exact .inr (h.shared.contains (List.mem_append_left _ ho))
  | twin hm =>
    obtain ⟨t, ht, rfl⟩ := Progress.mem_moves.1 hm
    exact .inr (h.shared.contains (twin_mem ht))
  | shared hout => exact .inr hout.2

/-- After a prepare that answered, every pointer of a working copy or a twin is public. -/
theorem Going.public_word (h : Going layout own shared p₀ True g p) (finished : Finished layout own g)
    (rooted : RootedIn own shared) (hs : g.Stands own item r r') (ho : offset ∈ layout.fields r.typeId) :
    p.shared.Public (wordAt r'.content offset) := by
  rcases h.word_becomes finished hs ho with image | ⟨cleared, -⟩
  · exact h.public_image rooted image
  · exact .inl cleared

end

/-! ## Published objects -/

/-- The pointers of all published objects are public; twins of a prepare that failed are not published. -/
def PublicIn (layout : Layout) (a : Arena) (rs : List Record) : Prop :=
  ∀ r ∈ rs, ∀ copied, r.kind = .shared true copied → ∀ offset ∈ layout.fields r.typeId, a.Public (r.word offset)

def PublicCopies (layout : Layout) (a : Arena) (own : List Record) (tx : Transaction) : Prop :=
  tx.phase = .prepared → ∀ r ∈ own, ∀ root, r.kind = .copyOf root → ∀ offset ∈ layout.fields r.typeId,
    a.Public (tx.nursery.memory.readWord (r.bodyAddr + offset))

structure PublicPointers (s : Session) (L : Ledger) : Prop where
  objects : PublicIn s.heap.layout s.heap.shared L.shared
  copies : s.Each L (PublicCopies s.heap.layout s.heap.shared)

section

variable {layout : Layout} {a b : Arena} {rs rs' own : List Record} {tx : Transaction}

theorem Arena.Public.extends {v : Nat} (h : a.Public v) (e : a.Extends b) : b.Public v := h.imp id e.contains

theorem PublicIn.extends (h : PublicIn layout a rs) (e : a.Extends b) : PublicIn layout b rs :=
  fun r hr copied hk offset ho => (h r hr copied hk offset ho).extends e

theorem PublicIn.append (h : PublicIn layout a rs) (h' : PublicIn layout a rs') : PublicIn layout a (rs ++ rs') := by
  intro r hr
  rcases List.mem_append.mp hr with hr | hr
  · exact h r hr
  · exact h' r hr

theorem PublicCopies.extends (h : PublicCopies layout a own tx) (e : a.Extends b) : PublicCopies layout b own tx :=
  fun hp r hr root hk offset ho => (h hp r hr root hk offset ho).extends e

/-- Only prepared transactions have anything to show. -/
theorem publicCopies_of_ne (h : tx.phase ≠ .prepared) : PublicCopies layout a own tx := fun hp => absurd hp h

/-- One object changes, and its pointers are public afterwards. -/
theorem PublicIn.change {f : Record → Record} {addr : Nat} (h : PublicIn layout a rs)
    (typeId : ∀ r, (f r).typeId = r.typeId)
    (hf : ∀ r ∈ rs, r.addr = addr → ∀ copied, (f r).kind = .shared true copied → ∀ offset ∈ layout.fields r.typeId,
      a.Public ((f r).word offset)) : PublicIn layout a (amend rs addr f) := by
  intro x hx copied hk offset ho
  obtain ⟨r, hr, rfl⟩ := List.mem_map.1 hx
  by_cases e : r.addr = addr
  · rw [if_pos e] at hk ho ⊢
    rw [typeId] at ho
    exact hf r hr e copied hk offset ho
  · rw [if_neg e] at hk ho ⊢
    exact h r hr copied hk offset ho

/-- A public word is a word, being null or an address. -/
theorem Arena.Public.lt {v : Nat} (h : a.Public v) : v < wordLimit := by
  rcases h with rfl | h
  · exact wordLimit_pos
  · exact Nat.lt_trans (Arena.contains_iff.1 h).2 a.freePointer_lt

/-- A store that misses the pointers of an object, or puts a public word in the place of one. -/
theorem PublicIn.store {addr offset value : Nat} (h : PublicIn layout a rs)
    (fit : ∀ r ∈ rs, r.addr = addr → offset + wordSize ≤ r.content.length)
    (aims : ∀ r ∈ rs, r.addr = addr → ∀ field ∈ layout.fields r.typeId,
      offset + wordSize ≤ field ∨ field + wordSize ≤ offset ∨ field = offset ∧ a.Public value) :
    PublicIn layout a (amend rs addr (·.push (.word offset value))) := by
  refine h.change (fun _ => rfl) ?_
  intro r hr e copied hk field ho
  have fit := fit r hr e
  rw [Record.word, Record.push_content, Store.apply]
  rcases aims r hr e field ho with before | after | ⟨rfl, hv⟩
  · rw [wordAt_overlay_of_apart fit (.inr before)]
    exact h r hr copied hk field ho
  · rw [wordAt_overlay_of_apart fit (.inl after)]
    exact h r hr copied hk field ho
  · rw [wordAt_overlay value fit, Nat.mod_eq_of_lt hv.lt]
    exact hv

end

/-! ## What each call does to pointers -/

section

variable {s s' : Session} {L : Ledger} {c : Command} {o : Outcome} {t : Nat} {tx : Transaction}

/-- Roots that are overwritten get the public pointers of their working copies. -/
theorem publicIn_overwritten {layout : Layout} {a : Arena} {own rs : List Record} (sound : layout.Sound)
    (keeps : a.Keeps layout rs) (rooted : RootedIn own rs) (prepared : Prepared layout own tx)
    (copies : PublicCopies layout a own tx) (hp : tx.phase = .prepared) (h : PublicIn layout a rs) :
    PublicIn layout a (Ledger.overwritten tx.nursery.memory own rs) := by
  refine (overwritten_induction (P := fun rs => PublicIn layout a rs ∧ ∀ r ∈ own, ∀ root, r.kind = .copyOf root →
    ∀ x ∈ rs, x.addr = root → x.typeId = r.typeId) (fun rs ⟨h, same⟩ r hr root hk => ⟨?_, ?_⟩) ⟨h, ?_⟩).1
  · refine h.change (fun _ => rfl) ?_
    intro x hx e copied _ offset ho
    rw [same r hr root hk x hx e] at ho
    have fit := sound.field_le_size ho (prepared.places.sized r hr)
    have word : (x.push (.body (tx.nursery.memory.read r.bodyAddr r.bodySize))).word offset =
        tx.nursery.memory.readWord (r.bodyAddr + offset) := by
      rw [Record.word, Record.push_content]
      exact Memory.wordAt_read (by rw [Record.bodySize]; omega)
    rw [word]
    exact copies hp r hr root hk offset ho
  · intro r' hr' root' hk' x hx e
    obtain ⟨y, hy, rfl⟩ := List.mem_map.1 hx
    split at e
    · rw [if_pos ‹_›]
      exact same r' hr' root' hk' y hy e
    · rw [if_neg ‹_›]
      exact same r' hr' root' hk' y hy e
  · intro r hr root hk x hx e
    obtain ⟨o, ho, eaddr, typeId, -⟩ := rooted r hr root hk
    rw [keeps.eq_of_addr hx ho (e.trans eaddr.symm), typeId]

/-- Whatever a call enters, published pointers are public. -/
theorem Entry.publicIn {shared : Arena} {rs : List Record} (entry : Entry s L c o shared rs) (h : Kept s L)
    (pointers : PublicPointers s L) (hc : guarded s L c) (unstopped : Unstopped s c o) (extended : s.heap.shared.Extends shared) :
    PublicIn s.heap.layout shared rs := by
  have objects := pointers.objects.extends extended
  cases entry with
  | same => exact objects
  | grew => exact objects
  | created =>
    refine objects.append ?_
    intro r hr copied _ offset _
    rw [List.mem_singleton.mp hr]
    exact .inl (wordAt_zeros _ _)
  | marked =>
    refine objects.change (fun r => r.mark_shape.2.1) ?_
    intro r hr _ copied hk offset ho
    obtain ⟨whole, copied', hkind⟩ := h.kinds r hr
    rw [Record.mark, hkind] at hk
    cases hk
    rw [Record.word, r.mark_shape.2.2.2]
    exact objects r hr copied' hkind offset ho
  | @stored obj offset value _ _ hspace hfield =>
    refine objects.store ?_ ?_
    · intro r hr e
      subst e
      obtain ⟨-, fit⟩ := field_of_object h.shared hr hfield
      rw [h.shared.length_content hr, Record.bodySize]
      omega
    · intro r hr e field ho
      rcases hc.2 (obj, offset, value) rfl r hr e field ho with before | after | ⟨whole, hv⟩
      · exact .inl before
      · exact .inr (.inl after)
      · exact .inr (.inr ⟨whole, hv.extends extended⟩)
  | @prepared t tx _ p htx hactive hrun =>
    have ready := h.ready htx hactive (hc.1.2 t rfl)
    obtain ⟨g, going, finished, -⟩ := (h.run htx hactive (hc.1.2 t rfl)).of_ok hrun
    refine objects.append ?_
    intro x hx copied _ offset ho
    obtain ⟨r, hr, hx⟩ := List.mem_filterMap.1 hx
    obtain ⟨twin, ht, alike⟩ := going.twin_alike ready hr hx
    rw [alike.typeId, (going.twins r twin ht).2.2.1] at ho
    rw [Record.word, alike.content]
    exact going.public_word finished ((h.backed t tx htx).rooted (.inl hactive)) (.twin ht) ho
  | prepareFailed =>
    refine objects.append ?_
    intro x hx copied hk offset ho
    obtain ⟨r, -, hx⟩ := List.mem_filterMap.1 hx
    obtain ⟨-, twin, -, rfl⟩ := twin?_eq_some.1 hx
    cases hk
  | stopped htx hactive hf => exact (unstopped.not_stopped htx hactive hf).elim
  | @applied t tx _ htx hp =>
    have backed := h.backed t tx htx
    exact (publicIn_overwritten h.ground.sound h.shared (backed.rooted (.inr hp)) (backed.prepared hp)
      (pointers.copies t tx htx) hp pointers.objects).extends extended
  | applyStopped htx hp hrun => exact ((h.apply htx hp).of_error hrun).elim

/-- Whatever turn a transaction takes, its working copies are public from the prepare on. -/
theorem Turn.publicCopies {own : List Record} (turn : Turn s L t c o s' own tx) (h : Kept s L) (pointers : PublicPointers s L)
    (hc : careful s L c) (unstopped : Unstopped s c o) (extended : s.heap.shared.Extends s'.heap.shared) :
    PublicCopies s.heap.layout s'.heap.shared own tx := by
  have old : ∀ {tx}, s.tx? t = some tx → PublicCopies s.heap.layout s'.heap.shared (L.own t) tx :=
    fun htx => (pointers.copies t _ htx).extends extended
  -- while a transaction is active nothing is asked of it
  have active : ∀ {own tx}, tx.phase = .active → PublicCopies s.heap.layout s'.heap.shared own tx :=
    fun hactive => publicCopies_of_ne fun hp => by rw [hactive] at hp; cases hp
  cases turn with
  | same htx => exact old htx
  | started => exact active rfl
  | issued htx => exact fun hp r hr root hk offset ho => old htx hp r hr root hk offset ho
  | grew htx grew =>
    intro hp r hr root hk offset ho
    rw [grew.memory]
    exact old htx hp r hr root hk offset ho
  | created _ hactive | copied _ hactive | wrote _ hactive => exact active hactive
  | @prepared tx _ p _ htx hactive hrun hshared =>
    have ready := h.ready htx hactive (hc.2 t rfl)
    obtain ⟨g, going, finished, -⟩ := (h.run htx hactive (hc.2 t rfl)).of_ok hrun
    intro _ r hr root hk offset ho
    have fit := Going.field_fits ready hr ho
    obtain ⟨addr, -, size⟩ := going.shape r hr
    rw [← size] at fit
    rw [hshared, Record.bodyAddr, Nat.add_assoc, ← addr,
      going.nursery.readWord_eq (List.mem_map_of_mem (f := g.own) hr) fit]
    exact going.public_word finished ((h.backed t tx htx).rooted (.inl hactive)) (.root hr hk) ho
  | stopped htx hactive hf => exact (unstopped.not_stopped htx hactive hf).elim
  | prepareFailed =>
    refine publicCopies_of_ne ?_
    show Phase.failed ≠ .prepared
    decide
  | passed _ _ hphase =>
    refine publicCopies_of_ne ?_
    rcases hphase with rfl | rfl
    · show Phase.failed ≠ .prepared
      decide
    · show Phase.applied ≠ .prepared
      decide

theorem Lived.publicPointers (h : Lived guarded s L) : Kept s L ∧ PublicPointers s L := by
  refine h.alongside guarded_divides And.left (fun hs => ⟨nofun, each_create hs⟩) ?_
  intro s L c kept pointers guard e
  have follows := e.follows
  have unstopped := kept.unstopped guard.1 e
  constructor
  · rw [follows.layout]
    exact (e.entry kept.ground).publicIn kept pointers guard unstopped follows.shared
  · intro t tx htx
    rw [follows.layout]
    exact (e.turn kept.ground htx).publicCopies kept pointers guard.1 unstopped follows.shared

/-- Every pointer of every published object is null or an address in the shared heap, at any time. -/
theorem published_pointers_are_shared {r : Record} {copied : Bool} {offset : Nat} (life : Lived guarded s L)
    (hr : r ∈ L.shared) (hk : r.kind = .shared true copied) (ho : offset ∈ s.heap.layout.fields r.typeId) :
    s.heap.shared.Public (s.heap.shared.memory.readWord (r.bodyAddr + offset)) := by
  obtain ⟨kept, pointers⟩ := life.publicPointers
  have fit := kept.ground.sound.field_le_size ho (kept.shared.sized r hr)
  rw [Record.bodyAddr, Nat.add_assoc, kept.shared.readWord_eq hr fit]
  exact pointers.objects r hr copied hk offset ho

/-- A worker publishes a node, next to one that nobody reaches and that holds an address of nobody. -/
def strayed : List Command :=
  let root := sharedStart
  let copy := nurseryStart
  let x := copy + 48
  let y := x + 48
  [.attachMain, .create mainThread 0, .create mainThread 0, .write mainThread root 8 (root + 48), .attachWorker, .start 1,
    .copyOnWrite 1 root, .create 1 0, .create 1 0, .write 1 copy 0 x, .write 1 x 0 copy, .write 1 x 8 (root + 48),
    .write 1 y 0 (y + 65536), .prepare 1, .apply 1, .finish 1]

/-- The pointer of the twin to the working copy is now one to the root. -/
theorem published_pointers_are_shared_strayed :
    ∃ r ∈ (Ledger.empty.along .ofNodes strayed).shared, r.kind = .shared true false ∧ r.word 0 = sharedStart ∧
      (Session.ofNodes.run strayed).2.heap.shared.Public
        ((Session.ofNodes.run strayed).2.heap.shared.memory.readWord (r.bodyAddr + 0)) := by
  have life : Lived guarded (Session.ofNodes.run strayed).2 (Ledger.empty.along .ofNodes strayed) :=
    .ofNodes (by decide +kernel)
  obtain ⟨r, hr, hk, word, ho⟩ : ∃ r ∈ (Ledger.empty.along .ofNodes strayed).shared, r.kind = .shared true false ∧
      r.word 0 = sharedStart ∧ 0 ∈ (Session.ofNodes.run strayed).2.heap.layout.fields r.typeId := by decide +kernel
  exact ⟨r, hr, hk, word, published_pointers_are_shared life hr hk ho⟩

end

end TxHeap

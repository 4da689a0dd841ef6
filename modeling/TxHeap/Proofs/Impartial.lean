/-
  TxHeap.Proofs.Impartial — what a prepare takes for itself has no say in its verdict.

  A prepare checks pointers against a shared heap that it makes larger as it goes. So a
  pointer past the old free pointer is accepted once a chunk reaches over it; that is all
  that is ever accepted without being handed out before (`Impartial.accepts`). Where no live
  pointer leads to such a chunk (`Ledger.ClearOfChunks`), the verdict is that on the pointers alone,
  and two transactions with the same objects (`Matched`) get the same one, whatever their
  pages and whatever the order their copies were made in.
-/
import TxHeap.Proofs.Delivery
import TxHeap.Proofs.Verdict

namespace TxHeap

/--
An active transaction whose pointers into the nursery are starts of objects. It was opened
after a state of a life, and none of its prepares so far was stopped by arithmetic.
-/
structure Candidate (s : Session) (L : Ledger) (t : Nat) (tx : Transaction) : Prop where
  reached : ∃ s₀ L₀ cs, Lived storesAim s₀ L₀ ∧ s₀.tx? t = none ∧ AllAllowed (unbroken t) s₀ L₀ cs ∧
    (s₀.run cs).2 = s ∧ L₀.along s₀ cs = L
  opened : s.tx? t = some tx
  active : tx.phase = .active
  aim : L.FieldsAim s t

/-- The address was handed out by the arena when it was `b`, but not yet when it was `a`. -/
def Arena.Since (a b : Arena) (v : Nat) : Prop := a.freePointer ≤ v ∧ v < b.freePointer

instance (a b : Arena) (v : Nat) : Decidable (a.Since b v) := inferInstanceAs (Decidable (_ ∧ _))

/-- The prepare does not run out of room, and no live pointer leads to a chunk that it takes. -/
structure Ledger.ClearOfChunks (L : Ledger) (s : Session) (t : Nat) (tx : Transaction) : Prop where
  room : ∀ requested available, (s.step (.prepare t)).1 ≠ .error (.refused (.outOfSpace requested available))
  clear : ∀ v, L.LiveWord s t tx v → ¬ s.heap.shared.Since (s.step (.prepare t)).2.heap.shared v

/-- The two words lead to paired objects, or are one word that leads into neither nursery. -/
def SameWord (own own' : List Record) (nursery nursery' : Arena) (pair : Record → Record → Prop) (v v' : Nat) : Prop :=
  (∃ r ∈ own, ∃ r' ∈ own', pair r r' ∧ r.addr = v ∧ r'.addr = v') ∨
    v' = v ∧ nursery.contains v = false ∧ nursery'.contains v = false

instance (own own' : List Record) (nursery nursery' : Arena) (pair : Record → Record → Prop)
    [∀ r r', Decidable (pair r r')] (v v' : Nat) : Decidable (SameWord own own' nursery nursery' pair v v') :=
  inferInstanceAs (Decidable (_ ∨ _))

/-- The transactions have the same objects, each with addresses and an order of its own. -/
structure Matched (s : Session) (L : Ledger) (t : Nat) (tx : Transaction) (s' : Session) (L' : Ledger) (t' : Nat)
    (tx' : Transaction) (pair : Record → Record → Prop) : Prop where
  layout : s'.heap.layout = s.heap.layout
  /-- As many bytes of the shared heap were handed out. -/
  used : s'.heap.shared.used = s.heap.shared.used
  left : ∀ r ∈ L.own t, ∃ r' ∈ L'.own t', pair r r'
  right : ∀ r' ∈ L'.own t', ∃ r ∈ L.own t, pair r r'
  shape : ∀ r ∈ L.own t, ∀ r' ∈ L'.own t', pair r r' → r'.typeId = r.typeId ∧ r'.kind = r.kind
  words : ∀ r ∈ L.own t, ∀ r' ∈ L'.own t', pair r r' → ∀ offset ∈ s.heap.layout.fields r.typeId,
    SameWord (L.own t) (L'.own t') tx.nursery tx'.nursery pair (tx.nursery.memory.readWord (r.bodyAddr + offset))
      (tx'.nursery.memory.readWord (r'.bodyAddr + offset))

/-- A pointer that was `v` and is now `v'` leads to new bytes only if it was translated to a twin, or led there before. -/
def LeadsBack (own : List Record) (nursery' shared shared' : Arena) (v v' : Nat) : Prop :=
  shared.Since shared' v' → v' = v ∨ ∃ r ∈ own, r.kind = .fresh ∧ r.addr = v ∧ nursery'.memory.twinOf? r.addr = some v'

/-- What the prepare of a transaction makes of pointers to bytes that it takes itself. -/
structure Impartial (s : Session) (L : Ledger) (t : Nat) (tx : Transaction) : Prop where
  /-- A live pointer is accepted only to what was handed out before, or to a chunk that the prepare has taken. -/
  accepts : ∀ report, (s.step (.prepare t)).1 = .ok (.report report) → ∀ v, L.LiveWord s t tx v →
    tx.Sees s.heap.shared v ∨ s.heap.shared.Since (s.step (.prepare t)).2.heap.shared v
  /-- Transactions with the same objects are accepted or refused together. -/
  same : ∀ {s' L' t' tx' pair}, L.ClearOfChunks s t tx → Candidate s' L' t' tx' → L'.ClearOfChunks s' t' tx' →
    Matched s L t tx s' L' t' tx' pair →
      ((∃ report, (s.step (.prepare t)).1 = .ok (.report report)) ∧
          ∃ report, (s'.step (.prepare t')).1 = .ok (.report report)) ∨
        (∃ v, (s.step (.prepare t)).1 = .error (.refused (.foreignAddress v t))) ∧
          ∃ v, (s'.step (.prepare t')).1 = .error (.refused (.foreignAddress v t'))
  copies : ∀ report tx', (s.step (.prepare t)).1 = .ok (.report report) → (s.step (.prepare t)).2.tx? t = some tx' →
    ∀ r ∈ L.own t, ∀ root, r.kind = .copyOf root → ∀ offset ∈ s.heap.layout.fields r.typeId,
      LeadsBack (L.own t) tx'.nursery s.heap.shared (s.step (.prepare t)).2.heap.shared
        (tx.nursery.memory.readWord (r.bodyAddr + offset)) (tx'.nursery.memory.readWord (r.bodyAddr + offset))
  twins : ∀ report tx', (s.step (.prepare t)).1 = .ok (.report report) → (s.step (.prepare t)).2.tx? t = some tx' →
    ∀ r ∈ L.own t, ∀ twin, tx'.nursery.memory.twinOf? r.addr = some twin → ∀ offset ∈ s.heap.layout.fields r.typeId,
      LeadsBack (L.own t) tx'.nursery s.heap.shared (s.step (.prepare t)).2.heap.shared
        (tx.nursery.memory.readWord (r.bodyAddr + offset))
        ((s.step (.prepare t)).2.heap.shared.memory.readWord (twin + headerSize + offset))

section

variable {s s' : Session} {L L' : Ledger} {t t' : Nat} {tx tx' : Transaction} {c : Command} {o : Outcome}
  {cs : List Command} {own own' : List Record} {nursery nursery' a b : Arena} {report : Report} {g : Progress}
  {p : Preparation} {pair : Record → Record → Prop} {r r' : Record} {v v' offset : Nat}

theorem Arena.Extends.since (e : a.Extends b) (hv : b.contains v = true) : a.contains v = true ∨ a.Since b v := by
  rw [Arena.contains_iff, e.start] at hv
  rw [Arena.contains_iff, Arena.Since]
  omega

theorem Arena.Since.not_contains (h : a.Since b v) : a.contains v = false := by
  refine Bool.eq_false_iff.2 fun hv => ?_
  have := (Arena.contains_iff.1 hv).2
  have := h.1
  omega

/-! ## The roots of a transaction were handed out before -/

def RootsHeld (t : Nat) (s : Session) (L : Ledger) : Prop :=
  ∀ tx, s.tx? t = some tx → ∀ r ∈ L.own t, ∀ root, r.kind = .copyOf root → s.heap.shared.contains root = true

theorem Turn.rootsHeld (turn : Turn s L t c o s' own tx) (held : RootsHeld t s L) :
    ∀ r ∈ own, ∀ root, r.kind = .copyOf root → s.heap.shared.contains root = true := by
  cases turn with
  | same htx | issued htx | grew htx | prepared htx | stopped htx | prepareFailed htx | passed htx => exact held _ htx
  | started => exact nofun
  | created htx =>
    intro r hr root hk
    rcases List.mem_append.mp hr with hr | hr
    · exact held _ htx r hr root hk
    · rw [List.mem_singleton.mp hr] at hk
      cases hk
  | copied htx _ _ _ hh =>
    intro r hr root hk
    rcases List.mem_append.mp hr with hr | hr
    · exact held _ htx r hr root hk
    · rw [List.mem_singleton.mp hr] at hk
      cases hk
      obtain ⟨le, fits⟩ := (Arena.header_eq_ok.1 hh).1
      rw [headerSize, wordSize] at fits
      exact Arena.contains_iff.2 ⟨le, by omega⟩
  | wrote htx =>
    intro r hr root hk
    obtain ⟨x, hx, rfl⟩ := List.mem_map.1 hr
    refine held _ htx x hx root ?_
    split at hk <;> exact hk

theorem RootsHeld.along (ground : Grounded s) (held : RootsHeld t s L) (allowed : AllAllowed (unbroken t) s L cs) :
    RootsHeld t (s.run cs).2 (L.along s cs) := by
  refine ((unbroken_divides t).along (I := fun s L => Grounded s ∧ RootsHeld t s L) ?_ ⟨ground, held⟩ allowed).2
  intro s L c ⟨ground, held⟩ hc _
  have follows := follows_step (s := s) hc
  refine ⟨ground.follows follows, ?_⟩
  intro tx htx r hr root hk
  exact follows.shared.contains (((step_effect hc).turn ground htx).rootsHeld held r hr root hk)

theorem Candidate.intactAt (h : Candidate s L t tx) : IntactAt t s L := by
  obtain ⟨s₀, L₀, cs, life, closed, allowed, rfl, rfl⟩ := h.reached
  exact .opened life closed allowed

theorem Candidate.rootsHeld (h : Candidate s L t tx) : RootsHeld t s L := by
  obtain ⟨s₀, L₀, cs, life, closed, allowed, rfl, rfl⟩ := h.reached
  refine RootsHeld.along life.intact.1 ?_ allowed
  intro tx htx
  rw [closed] at htx
  cases htx

/-! ## The verdict is one on live words -/

/-- A prepare clear of its chunks is answered if all live words were seen before, and else names one that was not. -/
theorem Candidate.verdict (h : Candidate s L t tx) (clear : L.ClearOfChunks s t tx) :
    ((∃ report, (s.step (.prepare t)).1 = .ok (.report report)) ∧
        ∀ v, L.LiveWord s t tx v → tx.Sees s.heap.shared v) ∨
      ∃ v, (s.step (.prepare t)).1 = .error (.refused (.foreignAddress v t)) ∧ L.LiveWord s t tx v ∧
        ¬ tx.Sees s.heap.shared v := by
  rcases h.intactAt.answers h.opened h.active h.aim with ⟨report, g, p, answered⟩ | ⟨f, failed, why⟩
  · refine .inl ⟨⟨report, answered.answer⟩, fun v live => ?_⟩
    refine (answered.sees live).imp_right (Or.imp_right fun shared => ?_)
    exact (answered.extends.since shared).resolve_right (clear.clear v live)
  · rcases why with ⟨v, rfl, live, unseen⟩ | ⟨⟨requested, available, rfl⟩, -⟩
    · exact .inr ⟨v, failed, live, unseen⟩
    · exact absurd failed (clear.room requested available)

/-! ## Transactions with the same objects -/

theorem SameWord.symm (h : SameWord own own' nursery nursery' pair v v') :
    SameWord own' own nursery' nursery (fun r' r => pair r r') v' v := by
  rcases h with ⟨r, hr, r', hr', paired, addr, addr'⟩ | ⟨rfl, out, out'⟩
  · exact .inl ⟨r', hr', r, hr, paired, addr', addr⟩
  · exact .inr ⟨rfl, out', out⟩

namespace Matched

theorem symm (h : Matched s L t tx s' L' t' tx' pair) : Matched s' L' t' tx' s L t tx fun r' r => pair r r' where
  layout := h.layout.symm
  used := h.used.symm
  left := h.right
  right := h.left
  shape r' hr' r hr paired := ⟨(h.shape r hr r' hr' paired).1.symm, (h.shape r hr r' hr' paired).2.symm⟩
  words r' hr' r hr paired offset ho := by
    rw [h.layout, (h.shape r hr r' hr' paired).1] at ho
    exact (h.words r hr r' hr' paired offset ho).symm

end Matched

/-- A word that is paired with an object is the address of its partner. -/
theorem SameWord.partner {layout : Layout} (h : SameWord own own' nursery nursery' pair v r'.addr)
    (keeps : nursery'.Keeps layout own') (hr' : r' ∈ own') : ∃ r ∈ own, pair r r' ∧ r.addr = v := by
  rcases h with ⟨r, hr, x, hx, paired, addr, e⟩ | ⟨e, -, out⟩
  · cases keeps.eq_of_addr hx hr' e
    exact ⟨r, hr, paired, addr⟩
  · have inside := keeps.contains hr'
    rw [e, out] at inside
    cases inside

namespace Matched

variable (h : Matched s L t tx s' L' t' tx' pair) (keeps : tx'.nursery.Keeps s'.heap.layout (L'.own t'))

include h keeps

/-- What is reached in one transaction is reached in the other. -/
theorem reaches (reached : Reaches s'.heap.layout (L'.own t')
      (fun r offset => tx'.nursery.memory.readWord (r.bodyAddr + offset)) v') :
    ∃ v, Reaches s.heap.layout (L.own t) (fun r offset => tx.nursery.memory.readWord (r.bodyAddr + offset)) v ∧
      SameWord (L.own t) (L'.own t') tx.nursery tx'.nursery pair v v' := by
  induction reached with
  | @root r' _ _ hr' hk ho =>
    obtain ⟨r, hr, paired⟩ := h.right r' hr'
    obtain ⟨typeId, kind⟩ := h.shape r hr r' hr' paired
    rw [h.layout, typeId] at ho
    exact ⟨_, .root hr (kind.symm.trans hk) ho, h.words r hr r' hr' paired _ (List.mem_append_left _ ho)⟩
  | @step r' _ _ hr' ho ih =>
    -- the object was reached by a word that is paired with its partner's address
    obtain ⟨_, reached, same⟩ := ih
    obtain ⟨r, hr, paired, rfl⟩ := same.partner keeps hr'
    rw [h.layout, (h.shape r hr r' hr' paired).1] at ho
    exact ⟨_, .step reached hr ho, h.words r hr r' hr' paired _ (List.mem_append_left _ ho)⟩

/-- A live object has a live partner. -/
theorem partner (hr' : r' ∈ L'.own t') (live : (∃ root, r'.kind = .copyOf root) ∨ r'.kind = .fresh ∧ L'.Alive s' t' tx' r') :
    ∃ r ∈ L.own t, pair r r' ∧ ((∃ root, r.kind = .copyOf root) ∨ r.kind = .fresh ∧ L.Alive s t tx r) := by
  rcases live with ⟨root, hk⟩ | ⟨hk, alive⟩
  · obtain ⟨r, hr, paired⟩ := h.right r' hr'
    exact ⟨r, hr, paired, .inl ⟨root, (h.shape r hr r' hr' paired).2.symm.trans hk⟩⟩
  · obtain ⟨_, reached, same⟩ := h.reaches keeps alive
    obtain ⟨r, hr, paired, rfl⟩ := same.partner keeps hr'
    exact ⟨r, hr, paired, .inr ⟨(h.shape r hr r' hr' paired).2.symm.trans hk, reached⟩⟩

theorem liveWord (live : L'.LiveWord s' t' tx' v') :
    ∃ v, L.LiveWord s t tx v ∧ SameWord (L.own t) (L'.own t') tx.nursery tx'.nursery pair v v' := by
  obtain ⟨r', hr', live, offset, ho, rfl⟩ := live
  obtain ⟨r, hr, paired, live⟩ := h.partner keeps hr' live
  rw [h.layout, (h.shape r hr r' hr' paired).1] at ho
  exact ⟨_, ⟨r, hr, live, offset, ho, rfl⟩, h.words r hr r' hr' paired offset ho⟩

/-- Both transactions see the same words. -/
theorem sees (ground : Grounded s) (ground' : Grounded s')
    (same : SameWord (L.own t) (L'.own t') tx.nursery tx'.nursery pair v v') (sees : tx.Sees s.heap.shared v) :
    tx'.Sees s'.heap.shared v' := by
  rcases same with ⟨_, _, r', hr', _, _, rfl⟩ | ⟨rfl, out, -⟩
  · exact .inr (.inl (keeps.contains hr'))
  · refine sees.imp_right fun seen => .inr ?_
    rw [out] at seen
    have shared := seen.resolve_left Bool.false_ne_true
    rw [Arena.contains_iff, Arena.freePointer, ground.start] at shared
    rw [Arena.contains_iff, Arena.freePointer, ground'.start, h.used]
    exact shared

/-- A live word that one transaction does not see has its like in the other. -/
theorem unseen (ground : Grounded s) (ground' : Grounded s') (live : L'.LiveWord s' t' tx' v')
    (unseen : ¬ tx'.Sees s'.heap.shared v') : ∃ v, L.LiveWord s t tx v ∧ ¬ tx.Sees s.heap.shared v := by
  obtain ⟨v, live, same⟩ := h.liveWord keeps live
  exact ⟨v, live, fun seen => unseen (h.sees keeps ground ground' same seen)⟩

end Matched

theorem Candidate.keeps (h : Candidate s L t tx) : tx.nursery.Keeps s.heap.layout (L.own t) :=
  (h.intactAt.2 tx h.opened h.active).nursery

theorem Candidate.same (h : Candidate s L t tx) (clear : L.ClearOfChunks s t tx) (h' : Candidate s' L' t' tx')
    (clear' : L'.ClearOfChunks s' t' tx') (matched : Matched s L t tx s' L' t' tx' pair) :
    ((∃ report, (s.step (.prepare t)).1 = .ok (.report report)) ∧
        ∃ report, (s'.step (.prepare t')).1 = .ok (.report report)) ∨
      (∃ v, (s.step (.prepare t)).1 = .error (.refused (.foreignAddress v t))) ∧
        ∃ v, (s'.step (.prepare t')).1 = .error (.refused (.foreignAddress v t')) := by
  have ground := h.intactAt.1
  have ground' := h'.intactAt.1
  rcases h.verdict clear with ⟨ok, seen⟩ | ⟨v, failed, live, unseen⟩
  · rcases h'.verdict clear' with ⟨ok', -⟩ | ⟨v', -, live', unseen'⟩
    · exact .inl ⟨ok, ok'⟩
    · obtain ⟨v, live, unseen⟩ := matched.unseen h'.keeps ground ground' live' unseen'
      exact absurd (seen v live) unseen
  · rcases h'.verdict clear' with ⟨-, seen'⟩ | ⟨v', failed', -⟩
    · obtain ⟨v', live', unseen'⟩ := matched.symm.unseen h.keeps ground' ground live unseen
      exact absurd (seen' v' live') unseen'
    · exact .inr ⟨⟨v, failed⟩, v', failed'⟩

/-! ## Published pointers -/

theorem Answered.leadsBack {item : Item} (h : Answered s L t tx report g p) (held : RootsHeld t s L)
    (htx : s.tx? t = some tx) (hs : g.Stands (L.own t) item r r') (ho : offset ∈ s.heap.layout.fields r.typeId) :
    LeadsBack (L.own t) p.tx.nursery s.heap.shared (s.step (.prepare t)).2.heap.shared
      (tx.nursery.memory.readWord (r.bodyAddr + offset)) (wordAt r'.content offset) := by
  intro since
  have becomes := h.going.word_becomes h.finished hs ho
  rw [h.ready.word_eq (h.going.stands_shape hs).1 ho] at becomes
  generalize tx.nursery.memory.readWord (r.bodyAddr + offset) = v at becomes ⊢
  generalize wordAt r'.content offset = v' at becomes since ⊢
  rcases becomes with image | ⟨rfl, -⟩
  · cases image with
    | null => exact .inl rfl
    | root hr hk =>
      -- a root was handed out before
      have inside := held tx htx _ hr _ hk
      rw [since.not_contains] at inside
      cases inside
    | twin hm =>
      obtain ⟨hr, hk⟩ := h.going.fresh_of_moves hm
      exact .inr ⟨_, hr, hk, rfl, (h.going.twinOf?_iff h.ready hr).2 hm⟩
    | shared => exact .inl rfl
  · have := s.heap.shared.start_pos
    have le := since.1
    rw [Arena.freePointer] at le
    omega

theorem Candidate.answered (h : Candidate s L t tx) (ok : (s.step (.prepare t)).1 = .ok (.report report)) :
    ∃ g p, Answered s L t tx report g p := by
  rcases h.intactAt.answers h.opened h.active h.aim with ⟨report', g, p, answered⟩ | ⟨f, failed, -⟩
  · cases answered.answer.symm.trans ok
    exact ⟨g, p, answered⟩
  · cases failed.symm.trans ok

/--
Whether a prepare accepts a pointer depends on what it takes for itself only where the pointer
leads to a chunk that it has taken.
-/
theorem prepare_is_impartial (h : Candidate s L t tx) : Impartial s L t tx := by
  refine ⟨?_, h.same, ?_, ?_⟩
  · intro report ok v live
    obtain ⟨g, p, answered⟩ := h.answered ok
    rcases answered.sees live with null | own | shared
    · exact .inl (.inl null)
    · exact .inl (.inr (.inl own))
    · exact (answered.extends.since shared).imp_left fun before => .inr (.inr before)
  · intro report tx' ok htx' r hr root hk offset ho
    obtain ⟨g, p, answered⟩ := h.answered ok
    cases answered.left.symm.trans htx'
    have fit := Going.field_fits answered.ready hr ho
    rw [← (answered.going.shape r hr).2.2] at fit
    have word := answered.going.nursery.readWord_eq (List.mem_map_of_mem (f := g.own) hr) fit
    rw [(answered.going.shape r hr).1, ← Nat.add_assoc] at word
    show LeadsBack _ _ _ _ _ (p.tx.nursery.memory.readWord _)
    rw [Record.bodyAddr, word]
    exact answered.leadsBack h.rootsHeld h.opened (.root hr hk) ho
  · intro report tx' ok htx' r hr twin moved offset ho
    obtain ⟨g, p, answered⟩ := h.answered ok
    cases answered.left.symm.trans htx'
    obtain ⟨x, hx, rfl, size⟩ := answered.going.twin_of_twinOf? answered.ready hr moved
    have fit := Going.field_fits answered.ready hr ho
    rw [← size] at fit
    have word := answered.going.shared.readWord_eq (Going.twin_mem hx) fit
    rw [Nat.add_assoc, answered.shared, word, ← answered.shared]
    exact answered.leadsBack h.rootsHeld h.opened (.twin hx) ho

/-- The transaction of a run from a new heap. -/
theorem Candidate.created {config : Config} {registry : Registry} {log : EventLog} (fits : config.Fits)
    (built : registry.Built) (created : Session.create config registry.layout log = .ok s)
    (allowed : AllAllowed (unbroken t) s .empty cs) (htx : (s.run cs).2.tx? t = some tx) (hactive : tx.phase = .active)
    (aim : (Ledger.empty.along s cs).FieldsAim (s.run cs).2 t) : Candidate (s.run cs).2 (Ledger.empty.along s cs) t tx :=
  ⟨⟨s, .empty, cs, .created fits built created, tx?_create created, allowed, rfl, rfl⟩, htx, hactive, aim⟩

/-- No live pointer leads to what the prepare takes if no pointer does. -/
theorem Ledger.ClearOfChunks.of_fields {f : Failure} (failed : (s.step (.prepare t)).1 = .error f)
    (room : ∀ requested available, f ≠ .refused (.outOfSpace requested available))
    (clear : ∀ r ∈ L.own t, ∀ offset ∈ s.heap.layout.fields r.typeId,
      ¬ s.heap.shared.Since (s.step (.prepare t)).2.heap.shared (tx.nursery.memory.readWord (r.bodyAddr + offset))) :
    L.ClearOfChunks s t tx := by
  refine ⟨?_, ?_⟩
  · intro requested available e
    rw [failed] at e
    exact room requested available (Except.error.inj e)
  · rintro _ ⟨r, hr, -, offset, ho, rfl⟩
    exact clear r hr offset ho

/-- A heap whose promotion pages are smaller than a node. -/
def Config.fine : Config := { Config.small with pageSize := 16 }

theorem Config.fine_fits : fine.Fits := by constructor <;> decide

def Session.ofFine : Session :=
  (Session.create .fine Registry.nodes.layout (.new {})).toOption.get (by decide +kernel)

theorem create_ofFine : Session.create .fine Registry.nodes.layout (.new {}) = .ok .ofFine := rfl

/-- Two shared nodes are copied one after the other; one copy points to a new node, and this points nowhere. -/
def Command.twoCopies (first second copy : Nat) : List Command :=
  let x := nurseryStart + 96
  [.attachMain, .create mainThread 0, .create mainThread 0, .attachWorker, .start 1, .copyOnWrite 1 first,
    .copyOnWrite 1 second, .create 1 0, .write 1 copy 0 x, .write 1 x 8 8]

def Command.inOrder : List Command := twoCopies sharedStart (sharedStart + 48) nurseryStart

def Command.inReverse : List Command := twoCopies (sharedStart + 48) sharedStart (nurseryStart + 48)

def Session.inOrder : Session := (Session.ofNodes.run Command.inOrder).2

def Session.inReverse : Session := (Session.ofFine.run Command.inReverse).2

def Ledger.inOrder : Ledger := Ledger.empty.along .ofNodes Command.inOrder

def Ledger.inReverse : Ledger := Ledger.empty.along .ofFine Command.inReverse

/-- Each copy is paired with the copy of the same node. -/
theorem matched_copies (htx : Session.inOrder.tx? 1 = some tx) (htx' : Session.inReverse.tx? 1 = some tx') :
    Matched .inOrder .inOrder 1 tx .inReverse .inReverse 1 tx' fun r r' => r.kind = r'.kind := by
  have layout : Session.inReverse.heap.layout = Session.inOrder.heap.layout := by
    have ground := grounded_create Config.fine_fits Registry.nodes_built create_ofFine
    rw [Session.inReverse, Session.inOrder, (ground.run Command.inReverse).2, (grounded_ofNodes.run Command.inOrder).2]
    rfl
  have words : ∀ tx ∈ Session.inOrder.tx? 1, ∀ tx' ∈ Session.inReverse.tx? 1,
      ∀ r ∈ Ledger.inOrder.own 1, ∀ r' ∈ Ledger.inReverse.own 1, r.kind = r'.kind →
      ∀ offset ∈ Session.inOrder.heap.layout.fields r.typeId,
      SameWord (Ledger.inOrder.own 1) (Ledger.inReverse.own 1) tx.nursery tx'.nursery (fun r r' => r.kind = r'.kind)
        (tx.nursery.memory.readWord (r.bodyAddr + offset)) (tx'.nursery.memory.readWord (r'.bodyAddr + offset)) := by
    decide +kernel
  exact ⟨layout, by decide +kernel, by decide +kernel, by decide +kernel, by decide +kernel,
    words tx htx tx' htx'⟩

/-- Whatever the order of the copies and the size of the pages, the prepare is refused. -/
theorem prepare_is_impartial_two_copies :
    (∃ v, (Session.inOrder.step (.prepare 1)).1 = .error (.refused (.foreignAddress v 1))) ∧
      ∃ v, (Session.inReverse.step (.prepare 1)).1 = .error (.refused (.foreignAddress v 1)) := by
  have before : (Session.inOrder.tx? 1).any (·.phase = .active) = true := by decide +kernel
  have before' : (Session.inReverse.tx? 1).any (·.phase = .active) = true := by decide +kernel
  have failed : (Session.inOrder.step (.prepare 1)).1 = .error (.refused (.foreignAddress 8 1)) := by decide +kernel
  have failed' : (Session.inReverse.step (.prepare 1)).1 = .error (.refused (.foreignAddress 8 1)) := by decide +kernel
  have clear : ∀ tx ∈ Session.inOrder.tx? 1, ∀ r ∈ Ledger.inOrder.own 1,
      ∀ offset ∈ Session.inOrder.heap.layout.fields r.typeId,
      ¬ Session.inOrder.heap.shared.Since (Session.inOrder.step (.prepare 1)).2.heap.shared
        (tx.nursery.memory.readWord (r.bodyAddr + offset)) := by
    decide +kernel
  have clear' : ∀ tx ∈ Session.inReverse.tx? 1, ∀ r ∈ Ledger.inReverse.own 1,
      ∀ offset ∈ Session.inReverse.heap.layout.fields r.typeId,
      ¬ Session.inReverse.heap.shared.Since (Session.inReverse.step (.prepare 1)).2.heap.shared
        (tx.nursery.memory.readWord (r.bodyAddr + offset)) := by
    decide +kernel
  obtain ⟨tx, htx, hactive⟩ := (Option.any_eq_true _ _).1 before
  obtain ⟨tx', htx', hactive'⟩ := (Option.any_eq_true _ _).1 before'
  have candidate : Candidate .inOrder .inOrder 1 tx :=
    .created Config.small_fits Registry.nodes_built create_ofNodes (by decide +kernel) htx
      (of_decide_eq_true hactive) (by decide +kernel)
  have candidate' : Candidate .inReverse .inReverse 1 tx' :=
    .created Config.fine_fits Registry.nodes_built create_ofFine (by decide +kernel) htx'
      (of_decide_eq_true hactive') (by decide +kernel)
  rcases (prepare_is_impartial candidate).same (.of_fields failed nofun (clear tx htx)) candidate'
    (.of_fields failed' nofun (clear' tx' htx')) (matched_copies htx htx') with ⟨⟨report, ok⟩, -⟩ | refused
  · cases failed.symm.trans ok
  · exact refused

/-! ### A prepare that accepts what it has just taken -/

/-- The copy of a shared node points to a new node, and a little past what was handed out of the shared heap. -/
def Command.ahead : List Command :=
  let copy := nurseryStart
  let x := copy + 48
  [.attachMain, .create mainThread 0, .attachWorker, .start 1, .copyOnWrite 1 sharedStart, .create 1 0,
    .write 1 copy 0 x, .write 1 copy 8 (sharedStart + 128)]

/--
As in `Command.overlooked` a prepare promotes a node and is then stopped; now that node points
far past what was handed out of the shared heap.
-/
def Command.beyond : List Command :=
  let copy := nurseryStart
  let x := copy + 48
  let y := x + 48
  [.attachMain, .create mainThread 0, .attachWorker, .start 1, .copyOnWrite 1 sharedStart, .create 1 0, .create 1 0,
    .write 1 y 0 1, .write 1 copy 0 x, .write 1 copy 8 (y + 16), .prepare 1, .write 1 copy 8 x, .write 1 y 0 0,
    .write 1 x 0 (sharedStart + 8192)]

/-- A word of a working copy is live. -/
theorem liveWord_of_root {root : Nat} (found : ∃ c ∈ L.own t, c.kind = .copyOf root ∧
      ∃ offset ∈ s.heap.layout.fields c.typeId, tx.nursery.memory.readWord (c.bodyAddr + offset) = v) :
    L.LiveWord s t tx v := by
  obtain ⟨c, hc, copy, word⟩ := found
  exact ⟨c, hc, .inl ⟨root, copy⟩, word⟩

/-- The prepare of an active transaction is answered although a live word leads nowhere and not into the arena. -/
def Ledger.Overlooks (L : Ledger) (s : Session) (t : Nat) (a : Arena) (v : Nat) : Prop :=
  Lived named s L ∧ L.FieldsAim s t ∧ ∃ tx report, s.tx? t = some tx ∧ tx.phase = .active ∧ L.LiveWord s t tx v ∧
    ¬ tx.Sees a v ∧ (s.step (.prepare t)).1 = .ok (.report report)

theorem Ledger.Overlooks.of_words (life : Lived named s L) (aim : L.FieldsAim s t)
    (active : (s.tx? t).any (·.phase = .active) = true) (ok : (s.step (.prepare t)).1 = .ok (.report report))
    (words : ∀ tx ∈ s.tx? t, ¬ tx.Sees a v ∧ L.LiveWord s t tx v) : L.Overlooks s t a v := by
  obtain ⟨tx, htx, hactive⟩ := (Option.any_eq_true _ _).1 active
  obtain ⟨unseen, live⟩ := words tx htx
  exact ⟨life, aim, tx, report, htx, of_decide_eq_true hactive, live, unseen, ok⟩

theorem overlooks_ahead :
    (Ledger.empty.along .ofNodes Command.ahead).Overlooks (Session.ofNodes.run Command.ahead).2 1
      (Session.ofNodes.run Command.ahead).2.heap.shared (sharedStart + 128) := by
  have ok : ((Session.ofNodes.run Command.ahead).2.step (.prepare 1)).1 = .ok (.report
      { roots := 1, promoted := 1, bytesPromoted := 48, sharedConsumed := 256, weakRedirected := 0, weakCleared := 0 }) := by
    decide +kernel
  have words : ∀ tx ∈ (Session.ofNodes.run Command.ahead).2.tx? 1,
      ¬ tx.Sees (Session.ofNodes.run Command.ahead).2.heap.shared (sharedStart + 128) ∧
      ∃ c ∈ (Ledger.empty.along .ofNodes Command.ahead).own 1, c.kind = .copyOf sharedStart ∧
        ∃ offset ∈ (Session.ofNodes.run Command.ahead).2.heap.layout.fields c.typeId,
          tx.nursery.memory.readWord (c.bodyAddr + offset) = sharedStart + 128 := by
    decide +kernel
  refine .of_words (.ofNodes (by decide +kernel)) (by decide +kernel) (by decide +kernel) ok ?_
  exact fun tx htx => (words tx htx).imp_right liveWord_of_root

theorem overlooks_beyond :
    (Ledger.empty.along .ofVast Command.beyond).Overlooks (Session.ofVast.run Command.beyond).2 1
      ((Session.ofVast.run Command.beyond).2.step (.prepare 1)).2.heap.shared (sharedStart + 8192) := by
  have life := Lived.along (.created Config.small_fits Registry.vast_built create_ofVast)
    (show AllAllowed named .ofVast .empty Command.beyond by decide +kernel)
  have ok : ((Session.ofVast.run Command.beyond).2.step (.prepare 1)).1 = .ok (.report
      { roots := 1, promoted := 0, bytesPromoted := 0, sharedConsumed := 0, weakRedirected := 0, weakCleared := 0 }) := by
    decide +kernel
  have words : ∀ tx ∈ (Session.ofVast.run Command.beyond).2.tx? 1,
      ¬ tx.Sees ((Session.ofVast.run Command.beyond).2.step (.prepare 1)).2.heap.shared (sharedStart + 8192) ∧
      ∃ c ∈ (Ledger.empty.along .ofVast Command.beyond).own 1, ∃ x ∈ (Ledger.empty.along .ofVast Command.beyond).own 1,
        c.kind = .copyOf sharedStart ∧ x.kind = .fresh ∧
        (∃ offset ∈ (Session.ofVast.run Command.beyond).2.heap.layout.pointers c.typeId,
          tx.nursery.memory.readWord (c.bodyAddr + offset) = x.addr) ∧
        ∃ offset ∈ (Session.ofVast.run Command.beyond).2.heap.layout.fields x.typeId,
          tx.nursery.memory.readWord (x.bodyAddr + offset) = sharedStart + 8192 := by
    decide +kernel
  exact .of_words life (by decide +kernel) (by decide +kernel) ok fun tx htx => (words tx htx).imp_right liveWord_of_copy

/--
A live pointer past what was handed out is accepted if a chunk comes to lie there, and refused
where pages are smaller. A prepare after one that was stopped accepts even what it has not taken.
-/
theorem prepare_overlooks_pointer_ahead :
    ((Ledger.empty.along .ofNodes Command.ahead).Overlooks (Session.ofNodes.run Command.ahead).2 1
        (Session.ofNodes.run Command.ahead).2.heap.shared (sharedStart + 128) ∧
      ((Session.ofFine.run Command.ahead).2.step (.prepare 1)).1 =
        .error (.refused (.foreignAddress (sharedStart + 128) 1))) ∧
    (Ledger.empty.along .ofVast Command.beyond).Overlooks (Session.ofVast.run Command.beyond).2 1
      ((Session.ofVast.run Command.beyond).2.step (.prepare 1)).2.heap.shared (sharedStart + 8192) :=
  ⟨⟨overlooks_ahead, by decide +kernel⟩, overlooks_beyond⟩

end

end TxHeap

/-
  TxHeap.Proofs.Ground — what holds of every session, whatever was asked of it.

  The shared arena stays where it was set up and only hands out more bytes, what lies past
  its free pointer is blank, and every open transaction has its nursery above the identity
  space and belongs to a worker (`Grounded`). So a shared address is never in a nursery, and
  the space of an address tells whose it is.
-/
import TxHeap.Proofs.Effect
import TxHeap.Proofs.Ledger
import TxHeap.Proofs.Onward

namespace TxHeap

/-- The arena after any calls: it may have handed out more bytes. -/
structure Arena.Extends (a b : Arena) : Prop where
  start : b.start = a.start
  reserve : b.reserve = a.reserve
  chunkSize : b.chunkSize = a.chunkSize
  used : a.used ≤ b.used
  blank : a.Blank → b.Blank

namespace Arena

variable {a b c : Arena} {size obj addr value : Nat} {m : Memory}

theorem Extends.refl (a : Arena) : a.Extends a := ⟨rfl, rfl, rfl, Nat.le_refl _, id⟩

theorem Extends.trans (h : a.Extends b) (h' : b.Extends c) : a.Extends c :=
  ⟨h'.start.trans h.start, h'.reserve.trans h.reserve, h'.chunkSize.trans h.chunkSize, Nat.le_trans h.used h'.used,
    h'.blank ∘ h.blank⟩

theorem Extends.freePointer_le (h : a.Extends b) : a.freePointer ≤ b.freePointer := by
  have := h.used
  rw [freePointer, freePointer, h.start]
  omega

theorem Extends.contains (h : a.Extends b) (hv : a.contains addr = true) : b.contains addr = true := by
  have := h.used
  rw [contains_iff, freePointer] at *
  rw [h.start]
  omega

theorem Grew.extends (h : a.Grew b size) : a.Extends b :=
  ⟨h.start, h.reserve, h.chunkSize, by rw [h.used]; omega, fun blank => blank.grow h⟩

/-- A store below the free pointer. -/
theorem extends_of_store (same : ∀ i, a.freePointer ≤ i → m.get i = a.memory.get i) :
    a.Extends { a with memory := m } :=
  ⟨rfl, rfl, rfl, Nat.le_refl _, fun blank => blank.store same⟩

theorem extends_of_writeWord (h : a.writeWord addr value = .ok b) : a.Extends b := by
  obtain ⟨spans, rfl⟩ := writeWord_eq_ok.1 h
  exact extends_of_store fun i hi => Memory.get_writeWord_of_apart (.inr (Nat.le_trans spans.2 hi))

theorem extends_of_setHeaderAt {h : Header} (spans : a.Spans obj headerSize) :
    a.Extends { a with memory := a.memory.setHeaderAt obj h } :=
  extends_of_store fun _ hi => Memory.get_setHeaderAt_of_apart (.inr (Nat.le_trans spans.2 hi))

theorem extends_of_place {h : Header} (hp : a.place size h = .ok (obj, b)) : a.Extends b := by
  obtain ⟨grown, ha, spans, rfl⟩ := place_eq_ok hp
  exact (grew_of_allocate ha).2.extends.trans (extends_of_setHeaderAt spans)

end Arena

/-- The arenas have the same range of addresses, and grow in the same steps. -/
def Arena.Beside (a b : Arena) : Prop := b.start = a.start ∧ b.reserve = a.reserve ∧ b.chunkSize = a.chunkSize

theorem Arena.Extends.beside {a b : Arena} (h : a.Extends b) : a.Beside b := ⟨h.start, h.reserve, h.chunkSize⟩

open Step TxHeap.Action

variable {layout : Layout} {s s' : Session} {c : Command} {o : Outcome} {t : Nat}

/-- Overwriting a root stores inside the bytes handed out. -/
theorem overwrite_eq_ok {tx : Transaction} {a b : Arena} {root copy : Nat}
    (h : overwrite layout tx a root copy = .ok b) :
    ∃ target bytes, a.Spans target bytes.length ∧ { a with memory := a.memory.write target bytes } = b := by
  simp only [overwrite, Attempt.bind_eq_ok] at h
  obtain ⟨_, _, _, _, _, _, target, _, _, _, _, _, bytes, _, h⟩ := h
  exact ⟨target, bytes, Arena.write_eq_ok.1 h⟩

theorem extends_of_overwriteAll (tx : Transaction) (roots : List (Nat × Nat)) (a : Arena) :
    Ends (overwriteAll layout tx roots) a (fun _ b => a.Extends b) fun _ b => a.Extends b := by
  refine ends_forM (fun _ b => a.Extends b) (fun ⟨root, copy⟩ _ b hb => ?_) roots a (.refl a)
  unfold Ends
  dsimp only
  cases h : overwrite layout tx b root copy with
  | error f => exact hb
  | ok b' =>
    obtain ⟨target, bytes, spans, rfl⟩ := overwrite_eq_ok h
    exact hb.trans (Arena.extends_of_store fun i hi => Memory.get_write_of_apart (.inr (Nat.le_trans spans.2 hi)))

theorem Preparation.Onward.extends {p q : Preparation} (h : p.Onward q) : p.shared.Extends q.shared :=
  ⟨h.start, h.reserve, h.chunkSize, h.used, h.blank⟩

/-! ## What every effect keeps -/

/-- The second session may come right after the first, whatever was asked. -/
structure Session.Follows (s s' : Session) : Prop where
  layout : s'.heap.layout = s.heap.layout
  config : s'.heap.config = s.heap.config
  shared : s.heap.shared.Extends s'.heap.shared
  /-- Each transaction has its nursery where it was, or is new. -/
  carries : ∀ t tx', s'.tx? t = some tx' →
    (∃ tx, s.tx? t = some tx ∧ tx.nursery.Beside tx'.nursery) ∨
      t ≠ mainThread ∧ s.heap.newNursery t = .ok tx'.nursery

namespace Session.Follows

theorem agrees {s'' : Session} (h : s.Follows s') (agrees : s'.Agrees s'') : s.Follows s'' where
  layout := agrees.layout.trans h.layout
  config := agrees.config.trans h.config
  shared := by rw [agrees.shared]; exact h.shared
  carries t tx htx := h.carries t tx (agrees.tx? t ▸ htx)

/-- Transactions are as they were or gone. -/
theorem of_tx {heap : Heap} {handles : List Handle} (layout : heap.layout = s.heap.layout)
    (config : heap.config = s.heap.config) (shared : s.heap.shared.Extends heap.shared)
    (same : ∀ t tx, Session.tx? { s with heap, handles } t = some tx → s.tx? t = some tx) :
    s.Follows { s with heap, handles } where
  layout := layout
  config := config
  shared := shared
  carries t tx htx := .inl ⟨tx, same t tx htx, rfl, rfl, rfl⟩

theorem refl (s : Session) : s.Follows s := ⟨rfl, rfl, .refl _, fun _ tx htx => .inl ⟨tx, htx, rfl, rfl, rfl⟩⟩

theorem setShared {shared : Arena} (h : s.heap.shared.Extends shared) : s.Follows (s.setShared shared) :=
  ⟨rfl, rfl, h, fun _ tx htx => .inl ⟨tx, htx, rfl, rfl, rfl⟩⟩

/-- One thread's transaction is replaced. -/
theorem setTx {tx' : Option Transaction}
    (h : ∀ x, tx' = some x → (∃ tx, s.tx? t = some tx ∧ tx.nursery.Beside x.nursery) ∨
      t ≠ mainThread ∧ s.heap.newNursery t = .ok x.nursery) : s.Follows (s.setTx t tx') where
  layout := rfl
  config := rfl
  shared := .refl _
  carries t' x hx := by
    obtain ⟨rfl, e⟩ | ⟨-, hx⟩ := tx?_setTx_cases hx
    · exact h x e
    · exact .inl ⟨x, hx, rfl, rfl, rfl⟩

/-- A transaction is replaced by one whose nursery lies where it lay. -/
theorem setTx_some {tx x : Transaction} (htx : s.tx? t = some tx) (beside : tx.nursery.Beside x.nursery) :
    s.Follows (s.setTx t (some x)) :=
  setTx fun y e => by
    cases e
    exact .inl ⟨tx, htx, beside⟩

theorem advance (h : s.Follows s') : s.Follows s'.advance := ⟨h.layout, h.config, h.shared, h.carries⟩

theorem trans_shared {shared : Arena} (h : s.Follows s') (hs : s'.heap.shared.Extends shared) :
    s.Follows (s'.setShared shared) :=
  ⟨h.layout, h.config, h.shared.trans hs, h.carries⟩

end Session.Follows

theorem follows_adopt {tx : Transaction} {p : Preparation} {settle : Transaction → Transaction}
    (htx : s.tx? t = some tx) (onward : (Preparation.ofHeap s.heap tx).Onward p)
    (hsettle : (settle p.tx).nursery = p.tx.nursery) : s.Follows (s.adopt t p settle) where
  layout := rfl
  config := rfl
  shared := onward.extends
  carries := (Session.Follows.setTx_some (x := settle p.tx) htx
    (by rw [hsettle]; exact ⟨onward.nurseryStart, onward.nurseryReserve, onward.nurseryChunk⟩)).carries

theorem Effect.follows (h : Effect s c o s') : s.Follows s' := by
  cases h with
  | refused _ _ agrees => exact (Session.Follows.refl s).agrees agrees
  | answered _ agrees => exact (Session.Follows.refl s).agrees agrees
  | uncopied agrees => exact (Session.Follows.refl s).agrees agrees
  | recopied _ _ _ _ _ _ agrees => exact (Session.Follows.refl s).agrees agrees
  | @tokenIssued t obj tx _ htx _ _ agrees =>
    refine Session.Follows.agrees ?_ agrees
    show s.Follows (s.setTx t (some { tx with tokens := tx.tokens.insert obj s.heap.nextToken })).advance
    exact .advance (.setTx_some htx ⟨rfl, rfl, rfl⟩)
  | exhausted _ agrees => exact (Session.Follows.refl s).advance.agrees agrees
  | attached _ agrees =>
    refine Session.Follows.agrees ?_ agrees
    refine .of_tx rfl rfl (.refl _) ?_
    intro t tx htx
    rwa [Session.tx?_attach] at htx
  | @detached t _ agrees =>
    refine Session.Follows.agrees ?_ agrees
    refine .of_tx rfl rfl (.refl _) ?_
    intro t' tx htx
    by_cases e : t' = t
    · subst e
      rw [Session.tx?_detach_self] at htx
      cases htx
    · rwa [Session.tx?_detach_of_ne _ _ e] at htx
  | started hmain _ _ hn agrees =>
    refine Session.Follows.agrees (.setTx ?_) agrees
    intro x e
    cases e
    exact .inr ⟨hmain, hn⟩
  | aborted htx _ agrees => exact Session.Follows.agrees (.setTx fun x e => by cases e) agrees
  | finished htx _ agrees => exact Session.Follows.agrees (.setTx fun x e => by cases e) agrees
  | bumpedShared ha agrees => exact (Session.Follows.setShared (Arena.grew_of_allocate ha).2.extends).agrees agrees
  | bumped _ htx ha agrees =>
    refine Session.Follows.agrees ?_ agrees
    exact .setTx_some htx (Arena.grew_of_allocate ha).2.extends.beside
  | createdShared _ hp agrees => exact (Session.Follows.setShared (Arena.extends_of_place hp)).agrees agrees
  | created _ htx _ _ hp agrees =>
    refine Session.Follows.agrees ?_ agrees
    exact .setTx_some htx (Arena.extends_of_place hp).beside
  | copied hmain htx _ _ _ _ hh _ _ ha _ agrees =>
    have grew := (Arena.grew_of_allocate ha).2
    refine Session.Follows.agrees (.trans_shared (.setTx_some htx ?_) ?_) agrees
    · exact ⟨grew.start, grew.reserve, grew.chunkSize⟩
    · exact Arena.extends_of_setHeaderAt (Arena.header_eq_ok.1 hh).1
  | stranded _ htx _ ha agrees =>
    refine Session.Follows.agrees ?_ agrees
    exact .setTx_some htx (Arena.grew_of_allocate ha).2.extends.beside
  | wroteShared _ _ hw agrees => exact (Session.Follows.setShared (Arena.extends_of_writeWord hw)).agrees agrees
  | wrote htx _ _ _ hw agrees =>
    refine Session.Follows.agrees ?_ agrees
    exact .setTx_some htx (Arena.extends_of_writeWord hw).beside
  | prepared htx _ hrun agrees =>
    refine Session.Follows.agrees ?_ agrees
    exact follows_adopt htx ((Prepare.onward_run _ _ _).of_ok hrun) rfl
  | prepareFailed htx _ hrun agrees =>
    refine Session.Follows.agrees ?_ agrees
    exact follows_adopt htx ((Prepare.onward_run _ _ _).of_error hrun).1 rfl
  | prepareStopped htx _ _ hrun agrees =>
    refine Session.Follows.agrees ?_ agrees
    exact follows_adopt htx ((Prepare.onward_run _ _ _).of_error hrun).1 rfl
  | @applied t tx shared _ htx _ hrun agrees =>
    refine Session.Follows.agrees ?_ agrees
    show s.Follows ((s.setTx t (some { tx with phase := .applied })).setShared shared)
    exact .trans_shared (.setTx_some htx ⟨rfl, rfl, rfl⟩) ((extends_of_overwriteAll _ _ _).of_ok hrun)
  | @applyStopped t tx tx' _ _ _ htx _ htx' hrun hs hl hc hsame =>
    refine ⟨hl, hc, hs ▸ (extends_of_overwriteAll _ _ _).of_error hrun, ?_⟩
    intro t' x hx
    rw [hsame] at hx
    by_cases e : t' = t
    · subst e
      rw [if_pos rfl] at hx
      cases hx
      refine .inl ⟨tx, htx, ?_⟩
      rcases htx' with rfl | rfl <;> exact ⟨rfl, rfl, rfl⟩
    · rw [if_neg e] at hx
      exact .inl ⟨x, hx, rfl, rfl, rfl⟩

/-! ## Grounded sessions -/

structure Grounded (s : Session) : Prop where
  sound : s.heap.layout.Sound
  start : s.heap.shared.start = sharedStart
  reserve : s.heap.shared.reserve = s.heap.config.sharedReserve
  small : s.heap.config.sharedReserve ≤ maxSharedReserve
  roomy : s.heap.shared.Roomy
  blank : s.heap.shared.Blank
  workers : ∀ t tx, s.tx? t = some tx → t ≠ mainThread ∧ nurseryStart ≤ tx.nursery.start
  /-- Each nursery is the window of its worker. -/
  windows : ∀ t tx, s.tx? t = some tx → tx.nursery.start = nurseryStart + (t - 1) * s.heap.config.nurseryReserve ∧
    tx.nursery.reserve = s.heap.config.nurseryReserve

theorem newNursery_eq_ok {heap : Heap} {nursery : Arena} (h : heap.newNursery t = .ok nursery) :
    nurseryStart ≤ nursery.start ∧ nursery.memory = .empty ∧
      nursery.start = nurseryStart + (t - 1) * heap.config.nurseryReserve ∧
      nursery.reserve = heap.config.nurseryReserve ∧ nursery.chunkSize = heap.config.chunkSize := by
  unfold Heap.newNursery at h
  cases hw : windowStart? t heap.config.nurseryReserve with
  | none =>
    rw [hw] at h
    cases h
  | some start =>
    rw [hw] at h
    dsimp only at h
    cases hn : Arena.new start heap.config.nurseryReserve heap.config.chunkSize with
    | error e =>
      rw [hn] at h
      cases h
    | ok a =>
      rw [hn] at h
      cases h
      obtain ⟨hstart, hreserve, hchunk, -, hmem⟩ := Arena.new_eq_ok hn
      unfold windowStart? at hw
      split at hw
      · cases hw
      · dsimp only at hw
        split at hw
        · cases hw
          exact ⟨by rw [hstart]; exact Nat.le_add_right _ _, hmem, hstart, hreserve, hchunk⟩
        · cases hw

/-- Nurseries stay in the windows of their workers. -/
theorem Session.Follows.windows (f : s.Follows s')
    (h : ∀ t tx, s.tx? t = some tx → tx.nursery.start = nurseryStart + (t - 1) * s.heap.config.nurseryReserve ∧
      tx.nursery.reserve = s.heap.config.nurseryReserve) (t : Nat) (tx : Transaction) (htx : s'.tx? t = some tx) :
    tx.nursery.start = nurseryStart + (t - 1) * s'.heap.config.nurseryReserve ∧
      tx.nursery.reserve = s'.heap.config.nurseryReserve := by
  rw [f.config]
  rcases f.carries t tx htx with ⟨tx, htx, start, reserve, -⟩ | ⟨-, hn⟩
  · rw [start, reserve]
    exact h t tx htx
  · obtain ⟨-, -, start, reserve, -⟩ := newNursery_eq_ok hn
    exact ⟨start, reserve⟩

theorem Grounded.follows (h : Grounded s) (f : s.Follows s') : Grounded s' where
  sound := by rw [f.layout]; exact h.sound
  start := f.shared.start.trans h.start
  reserve := by rw [f.shared.reserve, f.config]; exact h.reserve
  small := by rw [f.config]; exact h.small
  roomy := by
    rw [Arena.Roomy, f.shared.reserve, f.shared.chunkSize]
    exact h.roomy
  blank := f.shared.blank h.blank
  workers t tx' htx := by
    rcases f.carries t tx' htx with ⟨tx, htx, start, -⟩ | ⟨hmain, hn⟩
    · rw [start]
      exact h.workers t tx htx
    · exact ⟨hmain, (newNursery_eq_ok hn).1⟩
  windows := f.windows h.windows

theorem Word.le_of_isPowerOfTwo {n : Nat} (h : Word.isPowerOfTwo n = true) (lt : n < wordLimit) : 2 * n ≤ wordLimit := by
  have hpow : n.isPowerOfTwo := by
    rw [← Nat.ne_zero_and_sub_one_eq_zero_iff_isPowerOfTwo]
    simpa [Word.isPowerOfTwo] using h
  obtain ⟨k, rfl⟩ := hpow
  have limit : wordLimit = 2 ^ 64 := by decide
  rw [limit] at lt ⊢
  have hk : k < 64 := (Nat.pow_lt_pow_iff_right (by decide)).1 lt
  have : 2 ^ k ≤ 2 ^ 63 := Nat.pow_le_pow_right (by decide) (by omega)
  omega

theorem require_bind_eq_ok {ε α : Type} {condition : Prop} [Decidable condition] {e : ε} {f : Unit → Except ε α} {a : α}
    (h : (require condition e >>= f) = .ok a) : condition ∧ f () = .ok a := by
  unfold require at h
  split at h
  · exact ⟨‹_›, h⟩
  · cases h

theorem Config.check_eq_ok {c : Config} (h : c.check = .ok ()) :
    c.sharedReserve ≤ maxSharedReserve ∧ Word.isPowerOfTwo c.chunkSize = true := by
  rw [Config.check] at h
  obtain ⟨-, h⟩ := require_bind_eq_ok h
  obtain ⟨small, h⟩ := require_bind_eq_ok h
  obtain ⟨-, h⟩ := require_bind_eq_ok h
  obtain ⟨pow, -⟩ := require_bind_eq_ok h
  exact ⟨small, pow⟩

structure Session.New (config : Config) (layout : Layout) (log : EventLog) (s : Session) : Prop where
  check : config.check = .ok ()
  shared : Arena.new sharedStart config.sharedReserve config.chunkSize = .ok s.heap.shared
  tokens : s.heap.tokens = .empty
  nextToken : s.heap.nextToken = tokenStart
  threads : s.heap.threads = .none
  handles : s.handles = []
  counters : s.heap.counters = .new config.statsEnabled
  events : s.heap.events = Heap.newEventLog config.verbose
  config : s.heap.config = config
  layout : s.heap.layout = layout
  log : s.log = log

theorem new_of_create {config : Config} {layout : Layout} {log : EventLog} (h : Session.create config layout log = .ok s) :
    s.New config layout log := by
  unfold Session.create Heap.new at h
  cases hc : config.check with
  | error e =>
    rw [hc] at h
    cases h
  | ok u =>
    cases hn : Arena.new sharedStart config.sharedReserve config.chunkSize with
    | error e =>
      rw [hc, hn] at h
      cases h
    | ok a =>
      rw [hc, hn] at h
      cases h
      exact ⟨hc, hn, rfl, rfl, rfl, rfl, rfl, rfl, rfl, rfl, rfl⟩

/-- A new session has no transaction. -/
theorem tx?_create {config : Config} {layout : Layout} {log : EventLog}
    (h : Session.create config layout log = .ok s) : s.tx? t = none := by
  rw [Session.tx?, Session.handle?, (new_of_create h).handles]
  rfl

/-- So whatever is said of each of its transactions holds. -/
theorem each_create {config : Config} {layout : Layout} {log : EventLog} {P : Nat → Transaction → Prop}
    (h : Session.create config layout log = .ok s) : ∀ t tx, s.tx? t = some tx → P t tx := by
  intro t tx htx
  rw [tx?_create h] at htx
  cases htx

theorem roomy_create {config : Config} {layout : Layout} {log : EventLog} (fits : config.Fits)
    (h : Session.create config layout log = .ok s) : s.heap.shared.Roomy := by
  have new := new_of_create h
  obtain ⟨-, hreserve, hchunk, -⟩ := Arena.new_eq_ok new.shared
  obtain ⟨small, pow⟩ := Config.check_eq_ok new.check
  have := Word.le_of_isPowerOfTwo pow fits.chunkSize
  rw [Arena.Roomy, hreserve, hchunk]
  simp only [maxSharedReserve, tokenStart, sharedStart, wordLimit] at *
  omega

theorem grounded_create {config : Config} {registry : Registry} {log : EventLog} (fits : config.Fits)
    (built : registry.Built) (h : Session.create config registry.layout log = .ok s) : Grounded s := by
  have new := new_of_create h
  obtain ⟨hstart, hreserve, -, -, hmem⟩ := Arena.new_eq_ok new.shared
  refine ⟨by rw [new.layout]; exact built.sound, hstart, by rw [new.config]; exact hreserve,
    by rw [new.config]; exact (Config.check_eq_ok new.check).1, roomy_create fits h,
    fun _ _ => by rw [hmem, Memory.get_empty], ?_, ?_⟩
  all_goals exact each_create h

theorem follows_step (hc : ∀ t, c ≠ .commit t) : s.Follows (s.step c).2 :=
  (step_effect hc).follows

/-- A run stays on its ground, over the types it started with. -/
theorem Grounded.run (h : Grounded s) (cs : List Command) :
    Grounded (s.run cs).2 ∧ (s.run cs).2.heap.layout = s.heap.layout := by
  induction cs generalizing s with
  | nil => exact ⟨h, rfl⟩
  | cons c cs ih =>
    obtain ⟨ground, layout⟩ := Rule.any_divides.preserves (L := .empty) (c := c)
      (I := fun s' _ => Grounded s' ∧ s'.heap.layout = s.heap.layout)
      (fun {s' L c} ⟨ground, layout⟩ hc _ => by
        have follows := follows_step (s := s') hc
        exact ⟨ground.follows follows, follows.layout.trans layout⟩)
      ⟨h, rfl⟩ trivial
    obtain ⟨ground', layout'⟩ := ih ground
    exact ⟨ground', layout'.trans layout⟩

theorem grounded_ofNodes : Grounded .ofNodes :=
  grounded_create Config.small_fits Registry.nodes_built create_ofNodes

/-! ## Whose an address is -/

namespace Grounded

variable {tx : Transaction} {v : Nat}

theorem shared_lt (h : Grounded s) (hv : s.heap.shared.contains v = true) : sharedStart ≤ v ∧ v < tokenStart := by
  have := (Arena.contains_iff.1 hv)
  have := s.heap.shared.used_le
  have := h.small
  have := h.start
  have := h.reserve
  simp only [Arena.freePointer, maxSharedReserve, tokenStart, sharedStart] at *
  omega

/-- What the shared heap may come to hand out lies in the range reserved for it. -/
theorem spaceOf_extends {a : Arena} (h : Grounded s) (e : s.heap.shared.Extends a) (hv : a.contains v = true) :
    s.heap.spaceOf v = .shared := by
  have := (Arena.contains_iff.1 hv)
  have := a.used_le
  have := e.start
  have := e.reserve
  have := h.start
  have := h.reserve
  rw [Heap.spaceOf, Space.of, if_pos]
  simp only [Arena.freePointer] at *
  omega

theorem spaceOf_shared (h : Grounded s) (hv : s.heap.shared.contains v = true) : s.heap.spaceOf v = .shared :=
  h.spaceOf_extends (.refl _) hv

/-- There is memory behind all that is reserved. -/
theorem backed (h : Grounded s) : s.heap.shared.reserve < Arena.backingLimit := by
  rw [h.reserve]
  exact Nat.lt_of_le_of_lt h.small (by decide)

/-- A shared address is in nobody's nursery. -/
theorem not_nursery (h : Grounded s) (htx : s.tx? t = some tx) (hv : s.heap.shared.contains v = true) :
    tx.nursery.contains v = false := by
  have := h.shared_lt hv
  have := (h.workers t tx htx).2
  rw [← Bool.not_eq_true, Arena.contains_iff]
  simp only [tokenStart, nurseryStart] at *
  omega

/-- An address in a nursery is not in the shared heap, nor reserved for it. -/
theorem spaceOf_nursery (h : Grounded s) (htx : s.tx? t = some tx) (hv : tx.nursery.contains v = true) :
    s.heap.spaceOf v ≠ .shared := by
  have := (Arena.contains_iff.1 hv)
  have := (h.workers t tx htx).2
  have := h.small
  rw [Heap.spaceOf, Space.of, if_neg]
  · split
    · exact nofun
    · split
      · dsimp only
        split <;> exact nofun
      · exact nofun
  · simp only [maxSharedReserve, tokenStart, sharedStart, nurseryStart] at *
    omega

/-- The window of a worker ends where that of a later number starts, or before. -/
theorem windows_apart {t' : Nat} {tx' : Transaction} (h : Grounded s) (htx : s.tx? t = some tx) (htx' : s.tx? t' = some tx')
    (lt : t < t') : tx.nursery.start + tx.nursery.reserve ≤ tx'.nursery.start := by
  obtain ⟨start, reserve⟩ := h.windows t tx htx
  obtain ⟨start', -⟩ := h.windows t' tx' htx'
  have first : t ≠ 0 := (h.workers t tx htx).1
  have behind : (t - 1 + 1) * s.heap.config.nurseryReserve ≤ (t' - 1) * s.heap.config.nurseryReserve :=
    Nat.mul_le_mul_right _ (by omega)
  rw [Nat.succ_mul] at behind
  omega

/-- A nursery is the window that its worker's number gives. -/
theorem window (h : Grounded s) (htx : s.tx? t = some tx) :
    windowStart? t s.heap.config.nurseryReserve = some tx.nursery.start := by
  obtain ⟨start, reserve⟩ := h.windows t tx htx
  have first : t ≠ 0 := (h.workers t tx htx).1
  have room := tx.nursery.end_lt
  rw [start, reserve] at room
  rw [windowStart?, if_neg first]
  dsimp only
  rw [if_pos room, start]

/-- An address in the window of a worker with a transaction is told to be in his nursery. -/
theorem spaceOf_window (h : Grounded s) (htx : s.tx? t = some tx) (number : t < idLimit) (le : tx.nursery.start ≤ v)
    (lt : v < tx.nursery.start + tx.nursery.reserve) : s.heap.spaceOf v = .nursery t := by
  obtain ⟨start, reserve⟩ := h.windows t tx htx
  have first : t ≠ 0 := (h.workers t tx htx).1
  have above := (h.workers t tx htx).2
  have small := h.small
  have pos : 0 < s.heap.config.nurseryReserve := by omega
  have index : (v - nurseryStart) / s.heap.config.nurseryReserve = t - 1 := by
    refine Nat.div_eq_of_lt_le (by omega) ?_
    rw [Nat.succ_mul]
    omega
  have outside : ¬ (sharedStart ≤ v ∧ v - sharedStart < s.heap.config.sharedReserve) := by
    simp only [maxSharedReserve, tokenStart, sharedStart, nurseryStart] at *
    omega
  rw [Heap.spaceOf, Space.of, if_neg outside, if_neg (by omega), if_pos ⟨by omega, pos⟩]
  dsimp only
  rw [index, Nat.sub_add_cancel (by omega), if_pos number]

end Grounded

end TxHeap

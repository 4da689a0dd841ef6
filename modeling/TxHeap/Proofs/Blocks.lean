/-
  TxHeap.Proofs.Blocks — live memory never overlaps.

  Beside the session stands a list of all that was handed out (`Blocks`), written up from what
  the calls answered and from the twins that preparations noted: raw bytes, objects and twins
  in the shared heap, and what each thread got in the nursery of its transaction. Whatever is
  called, and however preparations end, each arena has handed out its blocks one behind the
  other (`Covered`). The arenas themselves are apart, since no two threads go by one number
  (`Seated`).
-/
import TxHeap.Proofs.Chunks
import TxHeap.Proofs.Seats
import TxHeap.Proofs.Turns

namespace TxHeap

namespace Block

def Holds (b : Block) (a : Nat) : Prop := b.start ≤ a ∧ a < b.stop

def Within (b : Block) (start size : Nat) : Prop := start ≤ b.start ∧ b.stop ≤ start + size

end Block

structure Blocks where
  /-- What was handed out in the shared heap. -/
  shared : List Block
  /-- What the transaction that each thread started last was handed out in its nursery. -/
  own : Nat → List Block

/-- The twins that a prepare of the thread makes, whether it answers or not. -/
def Session.twinsOf (s : Session) (t : Nat) : List Block :=
  match s.tx? t with
  | some tx =>
    if tx.phase = .active then ((Prepare.run s.heap.layout t).left (.ofHeap s.heap tx)).twins else []
  | none => []

namespace Blocks

def empty : Blocks := ⟨[], fun _ => []⟩

def setOwn (B : Blocks) (t : Nat) (bs : List Block) : Blocks :=
  { B with own := fun t' => if t' = t then bs else B.own t' }

def give (B : Blocks) (t : Nat) (b : Block) : Blocks :=
  if t = mainThread then { B with shared := B.shared ++ [b] } else B.setOwn t (B.own t ++ [b])

def record (B : Blocks) (s : Session) : Command → Outcome → Session → Blocks
  | .start t, .ok _, _ => B.setOwn t []
  | .bump t size, .ok (.address addr), _ => B.give t ⟨addr, size⟩
  | .create t typeId, .ok (.address obj), _ => B.give t ⟨obj, (s.heap.layout.objectSize typeId).toOption.getD 0⟩
  | .copyOnWrite t obj, .ok (.address copy), s' =>
    if s.copyOf? t obj = none ∧ s'.copyOf? t obj = some copy then B.give t ⟨copy, (s.heap.objectSize obj).toOption.getD 0⟩
    else B
  | .prepare t, _, _ | .commit t, _, _ => { B with shared := B.shared ++ s.twinsOf t }
  | _, _, _ => B

def enter (B : Blocks) (s : Session) (c : Command) : Blocks := B.record s c (s.step c).1 (s.step c).2

def along (B : Blocks) (s : Session) : List Command → Blocks
  | [] => B
  | c :: cs => (B.enter s c).along (s.step c).2 cs

/-- The blocks of the shared heap, and those of the nurseries of all open transactions. -/
def live (B : Blocks) (s : Session) : List Block :=
  B.shared ++ (s.handles.filter (·.tx.isSome)).flatMap fun x => B.own x.thread

end Blocks

/-! ## Blocks of one arena -/

/-- The arena has handed out these blocks, and no byte to two of them. -/
structure Arena.Covers (a : Arena) (bs : List Block) : Prop where
  apart : bs.Pairwise Block.Apart
  inside : ∀ b ∈ bs, a.start ≤ b.start ∧ b.stop ≤ a.freePointer

namespace Arena.Covers

variable {a b : Arena} {bs new : List Block} {size : Nat}

theorem nil (a : Arena) : a.Covers [] := ⟨.nil, nofun⟩

/-- New blocks lie behind the old free pointer. -/
theorem append (h : a.Covers bs) (start : b.start = a.start) (free : a.freePointer ≤ b.freePointer)
    (apart : new.Pairwise Block.Apart) (inside : ∀ c ∈ new, a.freePointer ≤ c.start ∧ c.stop ≤ b.freePointer) :
    b.Covers (bs ++ new) := by
  refine ⟨List.pairwise_append.2 ⟨h.apart, apart, ?_⟩, ?_⟩
  · intro c hc d hd
    exact .inl (Nat.le_trans (h.inside c hc).2 (inside d hd).1)
  · intro c hc
    rw [start]
    rcases List.mem_append.mp hc with hc | hc
    · exact ⟨(h.inside c hc).1, Nat.le_trans (h.inside c hc).2 free⟩
    · refine ⟨Nat.le_trans ?_ (inside c hc).1, (inside c hc).2⟩
      exact Nat.le_add_right _ _

theorem wider (h : a.Covers bs) (start : b.start = a.start) (free : a.freePointer ≤ b.freePointer) : b.Covers bs := by
  have := h.append start free .nil nofun
  rwa [List.append_nil] at this

theorem of_extends (h : a.Covers bs) (e : a.Extends b) : b.Covers bs := h.wider e.start e.freePointer_le

theorem store (h : a.Covers bs) (m : Memory) : Arena.Covers { a with memory := m } bs := h.wider rfl (Nat.le_refl _)

/-- One more block is handed out. -/
theorem grow (h : a.Covers bs) (g : a.Grew b size) : b.Covers (bs ++ [⟨a.freePointer, size⟩]) := by
  refine h.append g.start (Nat.le.intro g.freePointer.symm) (List.pairwise_singleton _ _) ?_
  intro c hc
  rw [List.mem_singleton.mp hc]
  exact ⟨Nat.le_refl _, Nat.le_of_eq g.freePointer.symm⟩

end Arena.Covers

/-! ## Blocks of a session -/

structure Covered (s : Session) (B : Blocks) : Prop where
  shared : s.heap.shared.Covers B.shared
  own : ∀ t tx, s.tx? t = some tx → tx.nursery.Covers (B.own t)

section

variable {s s' : Session} {B : Blocks} {c : Command} {o : Outcome} {t : Nat} {tx : Transaction} {b : Block} {bs : List Block}

theorem Blocks.give_shared : B.give mainThread b = { B with shared := B.shared ++ [b] } := if_pos rfl

theorem Blocks.give_own (h : t ≠ mainThread) : B.give t b = B.setOwn t (B.own t ++ [b]) := if_neg h

theorem Blocks.setOwn_own (B : Blocks) (t : Nat) : B.setOwn t (B.own t) = B := by
  have same : (fun t' => if t' = t then B.own t else B.own t') = B.own := by
    funext t'
    split
    · rename_i e
      rw [e]
    · rfl
  rw [setOwn, same]

theorem twinsOf_of_not_prepares (h : ¬ (Command.prepare t).Prepares s) : s.twinsOf t = [] := by
  rw [Session.twinsOf]
  split
  · rename_i tx htx
    rw [if_neg fun hactive => h ⟨t, tx, rfl, htx, hactive⟩]
  · rfl

/-- What is refused hands out nothing. -/
theorem Blocks.record_refused {f : Failure} (hc : ∀ t, c ≠ .commit t) (hp : ¬ c.Prepares s) :
    B.record s c (.error f) s' = B := by
  cases c with
  | prepare t =>
    show { B with shared := B.shared ++ s.twinsOf t } = B
    rw [twinsOf_of_not_prepares hp, List.append_nil]
  | commit t => exact absurd rfl (hc t)
  | _ => rfl

theorem Blocks.record_asks {r : Reply} (hc : c.Asks) : B.record s c (.ok r) s' = B := by
  cases c <;> first | rfl | exact hc.elim

theorem Blocks.record_copied {obj copy : Nat} (new : s.copyOf? t obj = none ∧ s'.copyOf? t obj = some copy) :
    B.record s (.copyOnWrite t obj) (.ok (.address copy)) s' = B.give t ⟨copy, (s.heap.objectSize obj).toOption.getD 0⟩ :=
  if_pos new

theorem Blocks.record_uncopied {obj copy : Nat} (old : ¬ (s.copyOf? t obj = none ∧ s'.copyOf? t obj = some copy)) :
    B.record s (.copyOnWrite t obj) (.ok (.address copy)) s' = B :=
  if_neg old

namespace Covered

theorem agrees (h : Covered s B) (agrees : s.Agrees s') : Covered s' B := by
  refine ⟨by rw [agrees.shared]; exact h.shared, ?_⟩
  intro t tx htx
  rw [agrees.tx? t] at htx
  exact h.own t tx htx

theorem setShared {shared : Arena} (h : Covered s B) (hs : shared.Covers bs) :
    Covered (s.setShared shared) { B with shared := bs } :=
  ⟨hs, h.own⟩

/-- The transaction of one thread is replaced, with its blocks. -/
theorem setTx {tx : Option Transaction} (h : Covered s B) (hx : ∀ x, tx = some x → x.nursery.Covers bs) :
    Covered (s.setTx t tx) (B.setOwn t bs) := by
  refine ⟨h.shared, ?_⟩
  intro t' x htx
  rw [Blocks.setOwn]
  dsimp only
  rcases Session.tx?_setTx_cases htx with ⟨rfl, e⟩ | ⟨ne, htx⟩
  · rw [if_pos rfl]
    exact hx x e
  · rw [if_neg ne]
    exact h.own t' x htx

/-- It is replaced by one that has handed out no less. -/
theorem replace {x : Transaction} (h : Covered s B) (htx : s.tx? t = some tx) (start : x.nursery.start = tx.nursery.start)
    (free : tx.nursery.freePointer ≤ x.nursery.freePointer) : Covered (s.setTx t (some x)) B := by
  have same : Covered (s.setTx t (some x)) (B.setOwn t (B.own t)) := h.setTx fun y e => by
    cases e
    exact (h.own t tx htx).wider start free
  rwa [Blocks.setOwn_own] at same

/-- The transaction is gone. -/
theorem close (h : Covered s B) : Covered (s.setTx t none) B := by
  have same : Covered (s.setTx t none) (B.setOwn t (B.own t)) := h.setTx nofun
  rwa [Blocks.setOwn_own] at same

end Covered

/-- A preparation, however it ends, has put its twins behind all that was handed out before. -/
theorem Covered.adopt {settle : Transaction → Transaction} {p : Preparation} (h : Covered s B)
    (htx : s.tx? t = some tx) (hactive : tx.phase = .active)
    (hp : (Prepare.run s.heap.layout t).left (.ofHeap s.heap tx) = p) (same : (settle p.tx).nursery = p.tx.nursery) :
    Covered (s.adopt t p settle) { B with shared := B.shared ++ s.twinsOf t } := by
  have behind : TwinsApart s.heap.shared.freePointer p := by
    rw [← hp]
    exact ((Prepare.twinsApart_run _ s.heap.layout t).ends _).left (Prepare.twinsApart_ofHeap s.heap tx)
  have onward : (Preparation.ofHeap s.heap tx).Onward p := by
    rw [← hp]
    exact ((Prepare.onward_run s.heap.layout t).ends _).left
  have twins : s.twinsOf t = p.twins := by
    rw [Session.twinsOf, htx]
    dsimp only
    rw [if_pos hactive, hp]
  have nursery : Covered (s.setTx t (some (settle p.tx))) B := by
    refine h.replace htx (by rw [same]; exact onward.nurseryStart) ?_
    rw [same, Arena.freePointer, Arena.freePointer, onward.nurseryStart, onward.nurseryUsed]
    exact Nat.le_refl _
  have shared : p.shared.Covers (B.shared ++ s.twinsOf t) := by
    rw [twins]
    refine h.shared.append onward.start onward.freePointer_le behind.apart fun b hb => ⟨(behind.inside b hb).1, ?_⟩
    exact Nat.le_trans (behind.inside b hb).2 (Nat.le_trans behind.rest behind.taken)
  exact ⟨shared, nursery.own⟩

/-- What a call hands out does not overlap what was handed out before. -/
theorem Effect.covered (h : Covered s B) (hc : ∀ t, c ≠ .commit t) (e : Effect s c o s') :
    Covered s' (B.record s c o s') := by
  cases e with
  | refused hp _ agrees =>
    rw [Blocks.record_refused hc hp]
    exact h.agrees agrees
  | answered asks agrees =>
    rw [Blocks.record_asks asks]
    exact h.agrees agrees
  | tokenIssued htx _ _ agrees =>
    refine Covered.agrees ?_ agrees
    exact Covered.replace (s := s.advance) ⟨h.shared, h.own⟩ htx rfl (Nat.le_refl _)
  | exhausted _ agrees => exact Covered.agrees (s := s.advance) ⟨h.shared, h.own⟩ agrees
  | @attached _ n _ _ hc agrees =>
    have same : B.record s c (.ok (.thread n)) s' = B := by rcases hc with rfl | rfl <;> rfl
    rw [same]
    refine Covered.agrees ?_ agrees
    exact ⟨h.shared, fun t tx htx => h.own t tx ((Session.tx?_attach s _ n t).symm.trans htx)⟩
  | @detached t _ agrees =>
    refine Covered.agrees ?_ agrees
    refine ⟨h.shared, fun t' tx htx => ?_⟩
    by_cases e : t' = t
    · subst e
      cases (Session.tx?_detach_self s _ t').symm.trans htx
    · exact h.own t' tx ((Session.tx?_detach_of_ne s _ e).symm.trans htx)
  | started _ _ _ _ agrees =>
    refine Covered.agrees (h.setTx fun x e => ?_) agrees
    cases e
    exact .nil _
  | aborted _ _ agrees | finished _ _ agrees => exact h.close.agrees agrees
  | bumpedShared ha agrees =>
    obtain ⟨rfl, grew⟩ := Arena.grew_of_allocate ha
    show Covered s' (B.give mainThread _)
    rw [Blocks.give_shared]
    exact (h.setShared (h.shared.grow grew)).agrees agrees
  | @bumped t size _ tx _ _ hmain htx ha agrees =>
    obtain ⟨rfl, grew⟩ := Arena.grew_of_allocate ha
    show Covered s' (B.give t _)
    rw [Blocks.give_own hmain]
    refine Covered.agrees (h.setTx fun x e => ?_) agrees
    cases e
    exact (h.own t tx htx).grow grew
  | @createdShared typeId _ _ _ _ hsize hp agrees =>
    obtain ⟨grown, ha, -, rfl⟩ := Arena.place_eq_ok hp
    obtain ⟨rfl, grew⟩ := Arena.grew_of_allocate ha
    show Covered s' (B.give mainThread ⟨_, (s.heap.layout.objectSize typeId).toOption.getD 0⟩)
    rw [Blocks.give_shared, toOption_getD_of_ok hsize]
    refine Covered.agrees ?_ agrees
    exact h.setShared ((h.shared.grow grew).store _)
  | @created t typeId _ _ tx _ _ hmain htx _ hsize hp agrees =>
    obtain ⟨grown, ha, -, rfl⟩ := Arena.place_eq_ok hp
    obtain ⟨rfl, grew⟩ := Arena.grew_of_allocate ha
    show Covered s' (B.give t ⟨_, (s.heap.layout.objectSize typeId).toOption.getD 0⟩)
    rw [Blocks.give_own hmain, toOption_getD_of_ok hsize]
    refine Covered.agrees (h.setTx fun x e => ?_) agrees
    cases e
    exact ((h.own t tx htx).grow grew).store _
  | uncopied agrees =>
    rw [Blocks.record_uncopied (uncopied_of_agrees agrees)]
    exact h.agrees agrees
  | recopied _ htx _ _ _ hcopy agrees =>
    rw [Blocks.record_uncopied (uncopied_of_copyOf? htx hcopy)]
    exact h.agrees agrees
  | @copied t obj _ size _ tx _ _ hmain htx _ _ _ hnone hh _ hsize ha _ agrees =>
    obtain ⟨rfl, grew⟩ := Arena.grew_of_allocate ha
    have sized : s.heap.objectSize obj = .ok size := by
      rw [Heap.objectSize, hh]
      exact hsize
    rw [Blocks.record_copied (copied_of_agrees htx hnone agrees), Blocks.give_own hmain, toOption_getD_of_ok sized]
    refine Covered.agrees ?_ agrees
    refine Covered.setShared (B := B.setOwn t _) (h.setTx fun x e => ?_) (h.shared.store _)
    cases e
    exact ((h.own t tx htx).grow grew).store _
  | stranded _ htx _ ha agrees =>
    have grew := (Arena.grew_of_allocate ha).2
    refine Covered.agrees ?_ agrees
    exact h.replace htx grew.start (Nat.le.intro grew.freePointer.symm)
  | wroteShared _ _ hw agrees =>
    refine Covered.agrees ?_ agrees
    exact h.setShared (h.shared.of_extends (Arena.extends_of_writeWord hw))
  | wrote htx _ _ _ hw agrees =>
    have e := Arena.extends_of_writeWord hw
    refine Covered.agrees ?_ agrees
    exact h.replace htx e.start e.freePointer_le
  | prepared htx hactive hrun agrees =>
    exact (h.adopt htx hactive (Step.left_of_ok hrun) rfl).agrees agrees
  | prepareFailed htx hactive hrun agrees =>
    exact (h.adopt htx hactive (Step.left_of_error hrun) rfl).agrees agrees
  | prepareStopped htx hactive _ hrun agrees =>
    exact (h.adopt htx hactive (Step.left_of_error hrun) rfl).agrees agrees
  | applied htx _ hrun agrees =>
    have shared := h.shared.of_extends ((extends_of_overwriteAll _ _ _).of_ok hrun)
    refine Covered.agrees ?_ agrees
    exact Covered.replace (h.setShared shared) htx rfl (Nat.le_refl _)
  | @applyStopped t tx tx' _ _ _ htx _ htx' hrun hs _ _ hsame =>
    subst hs
    refine ⟨h.shared.of_extends ((extends_of_overwriteAll _ _ _).of_error hrun), ?_⟩
    intro t' x hx
    rw [hsame] at hx
    by_cases e : t' = t
    · subst e
      rw [if_pos rfl] at hx
      cases hx
      rcases htx' with rfl | rfl
      · exact h.own t' tx htx
      · exact h.own t' _ htx
    · rw [if_neg e] at hx
      exact h.own t' x hx

/-- A commit hands out what its prepare does, and nothing after that. -/
theorem Blocks.along_parts : B.along s (s.parts c) = B.enter s c := by
  by_cases hcommit : ∃ t, c = .commit t
  · obtain ⟨t, rfl⟩ := hcommit
    rw [Session.parts]
    split
    · split <;> rfl
    · rfl
  · rw [parts_of_single hcommit]
    rfl

theorem Covered.singles {cs : List Command} (h : Covered s B) (single : ∀ c ∈ cs, ∀ t, c ≠ .commit t) :
    Covered (s.run cs).2 (B.along s cs) := by
  induction cs generalizing s B with
  | nil => exact h
  | cons c cs ih =>
    have hc := single c List.mem_cons_self
    exact ih ((step_effect hc).covered h hc) fun c' h => single c' (List.mem_cons_of_mem _ h)

theorem Covered.step (h : Covered s B) (c : Command) : Covered (s.step c).2 (B.enter s c) := by
  rw [← run_parts, ← Blocks.along_parts]
  exact h.singles (s.parts_single c)

theorem Covered.run (h : Covered s B) (cs : List Command) : Covered (s.run cs).2 (B.along s cs) := by
  induction cs generalizing s B with
  | nil => exact h
  | cons c cs ih => exact ih (h.step c)

theorem covered_create {config : Config} {layout : Layout} {log : EventLog}
    (h : Session.create config layout log = .ok s) : Covered s .empty :=
  ⟨.nil _, each_create h⟩

/-! ## All live memory -/

namespace Covered

theorem shared_within (h : Covered s B) (ground : Grounded s) (hb : b ∈ B.shared) :
    b.Within sharedStart s.heap.config.sharedReserve := by
  obtain ⟨lo, hi⟩ := h.shared.inside b hb
  have := s.heap.shared.used_le
  rw [Arena.freePointer, ground.start] at hi
  rw [ground.start] at lo
  rw [ground.reserve] at this
  exact ⟨lo, by omega⟩

/-- The identity space lies behind the shared heap. -/
theorem shared_below (h : Covered s B) (ground : Grounded s) (hb : b ∈ B.shared) : b.stop ≤ tokenStart := by
  have := (h.shared_within ground hb).2
  have := ground.small
  simp only [maxSharedReserve, tokenStart, sharedStart] at *
  omega

theorem spaceOf_shared {a : Nat} (h : Covered s B) (ground : Grounded s) (hb : b ∈ B.shared) (ha : b.Holds a) :
    s.heap.spaceOf a = .shared := by
  obtain ⟨lo, hi⟩ := h.shared.inside b hb
  exact ground.spaceOf_shared (Arena.contains_iff.2 ⟨Nat.le_trans lo ha.1, Nat.lt_of_lt_of_le ha.2 hi⟩)

theorem own_within (h : Covered s B) (htx : s.tx? t = some tx) (hb : b ∈ B.own t) :
    b.Within tx.nursery.start tx.nursery.reserve := by
  obtain ⟨lo, hi⟩ := (h.own t tx htx).inside b hb
  have := tx.nursery.used_le
  rw [Arena.freePointer] at hi
  exact ⟨lo, by omega⟩

/-- The windows lie behind the identity space. -/
theorem own_above (h : Covered s B) (ground : Grounded s) (htx : s.tx? t = some tx) (hb : b ∈ B.own t) :
    nurseryStart ≤ b.start :=
  Nat.le_trans (ground.workers t tx htx).2 (h.own_within htx hb).1

/-- Blocks of two workers lie in two windows. -/
theorem own_apart {t' : Nat} {tx' : Transaction} {b' : Block} (h : Covered s B) (ground : Grounded s) (ne : t ≠ t')
    (htx : s.tx? t = some tx) (htx' : s.tx? t' = some tx') (hb : b ∈ B.own t) (hb' : b' ∈ B.own t') : b.Apart b' := by
  have inside := h.own_within htx hb
  have inside' := h.own_within htx' hb'
  rcases Nat.lt_or_gt_of_ne ne with lt | gt
  · exact .inl (Nat.le_trans inside.2 (Nat.le_trans (ground.windows_apart htx htx' lt) inside'.1))
  · exact .inr (Nat.le_trans inside'.2 (Nat.le_trans (ground.windows_apart htx' htx gt) inside.1))

end Covered

/-- A handle with a transaction, as the blocks of nurseries are listed by. -/
theorem Seated.opened {x : Handle} (seated : Seated s) (hx : x ∈ s.handles.filter (·.tx.isSome)) :
    x ∈ s.handles ∧ ∃ tx, s.tx? x.thread = some tx := by
  obtain ⟨hx, isOpen⟩ := List.mem_filter.1 hx
  refine ⟨hx, ?_⟩
  rw [seated.tx? hx]
  exact Option.isSome_iff_exists.1 isOpen

/-- A live block is a shared one, or is in the nursery of an open transaction. -/
theorem Seated.live_cases (seated : Seated s) (hb : b ∈ B.live s) :
    b ∈ B.shared ∨ ∃ t tx, s.tx? t = some tx ∧ b ∈ B.own t := by
  rcases List.mem_append.mp hb with hb | hb
  · exact .inl hb
  · obtain ⟨x, hx, hb⟩ := List.mem_flatMap.1 hb
    obtain ⟨-, tx, htx⟩ := seated.opened hx
    exact .inr ⟨x.thread, tx, htx, hb⟩

theorem Covered.live_apart (h : Covered s B) (ground : Grounded s) (seated : Seated s) :
    (B.live s).Pairwise Block.Apart := by
  refine List.pairwise_append.2 ⟨h.shared.apart, List.pairwise_flatMap.2 ⟨?_, ?_⟩, ?_⟩
  · intro x hx
    obtain ⟨-, tx, htx⟩ := seated.opened hx
    exact (h.own _ tx htx).apart
  · refine (seated.distinct.filter _).imp_of_mem fun {x y} hx hy ne b hb c hc => ?_
    obtain ⟨-, tx, htx⟩ := seated.opened hx
    obtain ⟨-, tx', htx'⟩ := seated.opened hy
    exact h.own_apart ground ne htx htx' hb hc
  · intro b hb c hc
    obtain ⟨x, hx, hc⟩ := List.mem_flatMap.1 hc
    obtain ⟨-, tx, htx⟩ := seated.opened hx
    have gap : tokenStart ≤ nurseryStart := by decide
    exact .inl (Nat.le_trans (h.shared_below ground hb) (Nat.le_trans gap (h.own_above ground htx hc)))

/-- No two live blocks overlap, and each lies where it belongs. -/
structure Blocks.Separate (B : Blocks) (s : Session) : Prop where
  apart : (B.live s).Pairwise Block.Apart
  /-- Shared blocks lie in the range reserved for the shared heap, and are told to. -/
  shared : ∀ b ∈ B.shared, b.Within sharedStart s.heap.config.sharedReserve ∧ ∀ a, b.Holds a → s.heap.spaceOf a = .shared
  /-- Blocks of a nursery lie in the window of its worker, and are told to. -/
  own : ∀ x ∈ s.handles, x.tx.isSome = true → ∀ b ∈ B.own x.thread,
    (∃ start, windowStart? x.thread s.heap.config.nurseryReserve = some start ∧
      b.Within start s.heap.config.nurseryReserve) ∧ ∀ a, b.Holds a → s.heap.spaceOf a = .nursery x.thread
  /-- No block reaches into the identity space. -/
  tokens : ∀ b ∈ B.live s, b.stop ≤ tokenStart ∨ nurseryStart ≤ b.start

theorem Covered.separate (h : Covered s B) (ground : Grounded s) (seated : Seated s) : B.Separate s := by
  refine ⟨h.live_apart ground seated, ?_, ?_, ?_⟩
  · exact fun b hb => ⟨h.shared_within ground hb, fun a ha => h.spaceOf_shared ground hb ha⟩
  · intro x hx isOpen b hb
    obtain ⟨-, tx, htx⟩ := seated.opened (List.mem_filter.2 ⟨hx, isOpen⟩)
    have inside := h.own_within htx hb
    refine ⟨⟨_, ground.window htx, ?_⟩, fun a ha => ?_⟩
    · rw [← (ground.windows _ tx htx).2]
      exact inside
    · exact ground.spaceOf_window htx (seated.thread_lt hx) (Nat.le_trans inside.1 ha.1) (Nat.lt_of_lt_of_le ha.2 inside.2)
  · intro b hb
    rcases seated.live_cases hb with hb | ⟨t, tx, htx, hb⟩
    · exact .inl (h.shared_below ground hb)
    · exact .inr (h.own_above ground htx hb)

/--
Whatever is called, and whatever words the objects hold: no two blocks that were handed out
in the shared heap, by whichever thread and preparation, or in the nurseries of the open
transactions overlap, and each lies in its own space.
-/
theorem live_memory_never_overlaps {config : Config} {registry : Registry} {log : EventLog} (fits : config.Fits)
    (built : registry.Built) (created : Session.create config registry.layout log = .ok s) (cs : List Command) :
    (Blocks.empty.along s cs).Separate (s.run cs).2 := by
  have ground := grounded_create fits built created
  exact ((covered_create created).run cs).separate (ground.run cs).1 ((seated_create created).run cs)

/--
Two workers hold chunks at once and the main thread allocates before either applies; one
commits, the other aborts and detaches, and a third worker gets its number and its window.
-/
def crowded : List Command :=
  let copy := nurseryStart
  let other := nurseryStart + 65536
  [.attachMain, .create mainThread 0, .attachWorker, .attachWorker, .start 1, .start 2, .copyOnWrite 1 sharedStart,
    .copyOnWrite 2 sharedStart, .create 1 0, .create 2 0, .bump 1 5, .write 1 copy 0 (copy + 48), .write 2 other 0 (other + 48),
    .prepare 1, .prepare 2, .create mainThread 0, .bump mainThread 3, .apply 1, .finish 1, .abort 2, .detach 2,
    .attachWorker, .start 2, .bump 2 7, .start 1, .create 1 0]

theorem live_memory_never_overlaps_crowded :
    (Blocks.empty.along .ofNodes crowded).live (Session.ofNodes.run crowded).2 =
        [⟨sharedStart, 48⟩, ⟨sharedStart + 48, 48⟩, ⟨sharedStart + 304, 48⟩, ⟨sharedStart + 560, 48⟩, ⟨sharedStart + 608, 3⟩,
          ⟨nurseryStart, 48⟩, ⟨nurseryStart + 65536, 7⟩] ∧
      (Blocks.empty.along .ofNodes crowded).Separate (Session.ofNodes.run crowded).2 := by
  refine ⟨by decide +kernel, ?_⟩
  exact live_memory_never_overlaps Config.small_fits Registry.nodes_built create_ofNodes crowded

end

end TxHeap

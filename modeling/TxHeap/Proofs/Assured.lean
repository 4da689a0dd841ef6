/-
  TxHeap.Proofs.Assured — a prepared transaction can be brought to its end.

  From its prepare on a transaction is changed by its own apply and its end only: whatever
  else is called, by whomever, its objects, its report and the bytes of its nursery stay as
  they are (`Transaction.Held`). The roots stay shared objects of the size of their copies, so
  that the apply overwrites all of them, and the end answers with the report of the prepare.
-/
import TxHeap.Proofs.Commits
import TxHeap.Proofs.Mirror

namespace TxHeap

def Command.closes? : Command → Option Nat
  | .abort t | .apply t | .finish t | .detach t => some t
  | _ => none

/-- A transaction after calls that are not its own, or that have no part in it. -/
structure Transaction.Held (tx tx' : Transaction) : Prop where
  objects : tx'.objects = tx.objects
  phase : tx'.phase = tx.phase
  report : tx'.report = tx.report
  memory : tx'.nursery.memory = tx.nursery.memory

theorem Transaction.Held.trans {tx tx' tx'' : Transaction} (h : tx.Held tx') (h' : tx'.Held tx'') : tx.Held tx'' :=
  ⟨h'.objects.trans h.objects, h'.phase.trans h.phase, h'.report.trans h.report, h'.memory.trans h.memory⟩

section

variable {s s' : Session} {L : Ledger} {c : Command} {o : Outcome} {t t' : Nat} {tx tx' : Transaction} {own : List Record}
  {cs : List Command}

/-! ## What is open stays open -/

theorem Session.isSome_tx?_setTx (h : (s.tx? t).isSome = true) : ((s.setTx t' (some tx)).tx? t).isSome = true := by
  by_cases e : t = t'
  · subst e
    obtain ⟨x, hx⟩ := Option.isSome_iff_exists.1 h
    rw [tx?_setTx_of_tx? hx, Option.isSome_some]
  · rw [tx?_setTx_of_ne e]
    exact h

/-- Only its own thread closes a transaction. -/
theorem Effect.stays_open (e : Effect s c o s') (h : (s.tx? t).isSome = true) (hc : c.closes? ≠ some t) :
    (s'.tx? t).isSome = true := by
  have other : ∀ {t'}, some t' ≠ some t → t ≠ t' := fun ne e => ne (congrArg some e.symm)
  cases e with
  | refused _ _ agrees | answered _ agrees | exhausted _ agrees | bumpedShared _ agrees | createdShared _ _ agrees
  | uncopied agrees | recopied _ _ _ _ _ _ agrees | wroteShared _ _ _ agrees =>
    rw [agrees.tx?]
    exact h
  | attached _ agrees =>
    rw [agrees.tx?, Session.withHandles, Session.tx?_attach]
    exact h
  | detached agrees =>
    rw [agrees.tx?, Session.withHandles, Session.tx?_detach_of_ne _ _ (other hc)]
    exact h
  | started _ _ _ _ agrees | bumped _ _ _ agrees | created _ _ _ _ _ agrees | stranded _ _ _ _ agrees
  | wrote _ _ _ _ _ agrees =>
    rw [agrees.tx?]
    exact Session.isSome_tx?_setTx h
  | tokenIssued _ _ _ agrees =>
    rw [agrees.tx?]
    exact Session.isSome_tx?_setTx (s := s.advance) h
  | copied _ _ _ _ _ _ _ _ _ _ _ agrees =>
    rw [agrees.tx?, Session.tx?_setShared]
    exact Session.isSome_tx?_setTx h
  | @prepared t' _ _ p _ _ _ _ agrees | @prepareFailed t' _ _ p _ _ _ _ agrees
  | @prepareStopped t' _ _ p _ _ _ _ _ agrees =>
    rw [agrees.tx?]
    show ((s.setTx t' _).tx? t).isSome = true
    exact Session.isSome_tx?_setTx h
  | aborted _ _ agrees | finished _ _ agrees =>
    rw [agrees.tx?, Session.tx?_setTx_of_ne (other hc)]
    exact h
  | @applied t' _ shared _ _ _ _ agrees =>
    rw [agrees.tx?, Session.tx?_setTx_of_ne (s := s.setShared shared) (other hc)]
    exact h
  | applyStopped _ _ _ _ _ _ _ hsame =>
    rw [hsame, if_neg (other hc)]
    exact h

/-- Nothing but its own apply and end changes a transaction that is no longer active. -/
theorem Turn.held (turn : Turn s L t c o s' own tx') (htx : s.tx? t = some tx) (hphase : tx.phase ≠ .active)
    (hc : c.closes? ≠ some t) : tx.Held tx' := by
  have same : ∀ {x}, s.tx? t = some x → x = tx := fun h => Option.some.inj (h.symm.trans htx)
  have active : ∀ {x}, s.tx? t = some x → x.phase ≠ .active := fun h => by rwa [same h]
  cases turn with
  | same h =>
    rw [same h]
    exact ⟨rfl, rfl, rfl, rfl⟩
  | started h => cases h.symm.trans htx
  | issued h =>
    rw [same h]
    exact ⟨rfl, rfl, rfl, rfl⟩
  | grew h grew =>
    rw [same h] at grew ⊢
    exact ⟨rfl, rfl, rfl, grew.memory⟩
  | created h hactive | copied h hactive | wrote h hactive | prepared h hactive | stopped h hactive
  | prepareFailed h hactive => exact absurd hactive (active h)
  | passed => exact absurd rfl hc

theorem Effect.held (ground : Grounded s) (e : Effect s c o s') (htx : s.tx? t = some tx) (hphase : tx.phase ≠ .active)
    (hc : c.closes? ≠ some t) : ∃ tx', s'.tx? t = some tx' ∧ tx.Held tx' := by
  obtain ⟨tx', htx'⟩ := Option.isSome_iff_exists.1 (e.stays_open (by rw [htx]; rfl) hc)
  exact ⟨tx', htx', (e.turn (L := .empty) ground htx').held htx hphase hc⟩

/-- Only an active transaction is prepared. -/
theorem step_prepare_active {r : Reply} (h : (s.step (.prepare t)).1 = .ok r) : ∃ tx, s.tx? t = some tx ∧ tx.phase = .active := by
  have e : Effect s (.prepare t) _ _ := step_effect nofun
  rw [h] at e
  generalize (s.step (.prepare t)).2 = s' at e
  cases e with
  | answered asks => exact asks.elim
  | attached hc => rcases hc with hc | hc <;> cases hc
  | prepared htx hactive => exact ⟨_, htx, hactive⟩

/-- No part of a command closes what the command does not, for a commit of what is prepared gets no further than that. -/
theorem closes?_parts (htx : s.tx? t = some tx) (hphase : tx.phase ≠ .active) (hc : c.closes? ≠ some t) :
    ∀ c' ∈ s.parts c, c'.closes? ≠ some t := by
  by_cases hcommit : ∃ t', c = .commit t'
  · obtain ⟨t', rfl⟩ := hcommit
    have prepare : (Command.prepare t').closes? ≠ some t := nofun
    by_cases e : t' = t
    · subst e
      rw [Session.parts]
      split
      · rename_i hp
        obtain ⟨x, hx, hactive⟩ := step_prepare_active (congrArg Prod.fst hp)
        rw [htx] at hx
        cases hx
        exact absurd hactive hphase
      · simpa using prepare
    · have apply : (Command.apply t').closes? ≠ some t := fun h => e (Option.some.inj h)
      have finish : (Command.finish t').closes? ≠ some t := fun h => e (Option.some.inj h)
      rw [Session.parts]
      split
      · split
        · simp [prepare, apply, finish]
        · simp [prepare, apply]
      · simp [prepare]
  · rw [parts_of_single hcommit]
    exact fun c' hc' => by rwa [List.mem_singleton.mp hc']

/-- What single calls leave open, a list of them leaves open. -/
theorem Grounded.held_parts (ground : Grounded s) (htx : s.tx? t = some tx) (hphase : tx.phase ≠ .active)
    (hc : ∀ c ∈ cs, c.closes? ≠ some t) (single : ∀ c ∈ cs, ∀ t', c ≠ .commit t') :
    ∃ tx', (s.run cs).2.tx? t = some tx' ∧ tx.Held tx' := by
  induction cs generalizing s tx with
  | nil => exact ⟨tx, htx, rfl, rfl, rfl, rfl⟩
  | cons c cs ih =>
    have e : Effect s c _ _ := step_effect (single c List.mem_cons_self)
    obtain ⟨tx', htx', held⟩ := e.held ground htx hphase (hc c List.mem_cons_self)
    obtain ⟨tx'', htx'', held'⟩ := ih (ground.follows (follows_step (single c List.mem_cons_self))) htx'
      (by rw [held.phase]; exact hphase) (fun c' h => hc c' (List.mem_cons_of_mem _ h))
      fun c' h => single c' (List.mem_cons_of_mem _ h)
    exact ⟨tx'', htx'', held.trans held'⟩

theorem Grounded.held (ground : Grounded s) (htx : s.tx? t = some tx) (hphase : tx.phase ≠ .active)
    (hc : c.closes? ≠ some t) : ∃ tx', (s.step c).2.tx? t = some tx' ∧ tx.Held tx' := by
  rw [← run_parts]
  exact ground.held_parts htx hphase (closes?_parts htx hphase hc) (s.parts_single c)

/-- Whatever is called in between, a transaction that is no longer active waits for its own apply and end. -/
theorem Grounded.held_run (ground : Grounded s) (htx : s.tx? t = some tx) (hphase : tx.phase ≠ .active)
    (hc : ∀ c ∈ cs, c.closes? ≠ some t) : ∃ tx', (s.run cs).2.tx? t = some tx' ∧ tx.Held tx' := by
  induction cs generalizing s tx with
  | nil => exact ⟨tx, htx, rfl, rfl, rfl, rfl⟩
  | cons c cs ih =>
    obtain ⟨tx', htx', held⟩ := ground.held htx hphase (hc c List.mem_cons_self)
    obtain ⟨tx'', htx'', held'⟩ := ih (ground.run [c]).1 htx' (by rw [held.phase]; exact hphase)
      fun c' h => hc c' (List.mem_cons_of_mem _ h)
    exact ⟨tx'', htx'', held.trans held'⟩

/-! ## Since the prepare -/

inductive PreparedSince (t : Nat) (report : Report) : Session → Prop
  | prepared {s : Session} : (s.step (.prepare t)).1 = .ok (.report report) → PreparedSince t report (s.step (.prepare t)).2
  | later {s : Session} {c : Command} {tx : Transaction} : PreparedSince t report s → (s.step c).2.tx? t = some tx →
      tx.phase = .prepared → PreparedSince t report (s.step c).2

def Session.AllReported (s : Session) : Prop :=
  ∀ t tx, s.tx? t = some tx → tx.phase = .prepared → PreparedSince t tx.report s

theorem Turn.reported (turn : Turn s L t c o s' own tx) (hstep : s.step c = (o, s')) (h : s.AllReported)
    (unstopped : Unstopped s c o) (htx : s'.tx? t = some tx) (hp : tx.phase = .prepared) : PreparedSince t tx.report s' := by
  have after : (s.step c).2 = s' := by rw [hstep]
  have later : ∀ {report}, PreparedSince t report s → PreparedSince t report s' := by
    intro report since
    rw [← after] at htx ⊢
    exact since.later htx hp
  have active : ∀ {x : Transaction}, x.phase = .active → x.phase = .prepared → False := fun h h' => by
    rw [h] at h'
    cases h'
  cases turn with
  | same htx₀ => exact later (h t _ htx₀ hp)
  | @issued _ _ x htx₀ => exact later (h t x htx₀ hp)
  | @grew _ _ _ x _ _ htx₀ => exact later (h t x htx₀ hp)
  | started => exact (active rfl hp).elim
  | created _ hactive | copied _ hactive | wrote _ hactive => exact (active hactive hp).elim
  | prepared =>
    rw [← after]
    exact .prepared (by rw [hstep])
  | stopped htx₀ hactive hf => exact (unstopped.not_stopped htx₀ hactive hf).elim
  | prepareFailed => cases hp
  | passed _ _ hphase => rcases hphase with rfl | rfl <;> cases hp

theorem Lived.reported (h : Lived careful s L) : s.AllReported := by
  refine (h.alongside (I := fun s _ => s.AllReported) careful_divides id each_create ?_).2
  intro s L c kept reported care e t tx htx hp
  exact (e.turn (L := L) kept.ground htx).reported rfl reported (kept.unstopped care e) htx hp

/-! ## The apply and the end -/

def Transaction.RootsWritten (layout : Layout) (tx : Transaction) (shared : Arena) : Prop :=
  ∀ root copy, (root, copy) ∈ tx.objects.pairs → ∃ h size bytes, shared.header root = .ok h ∧
    layout.objectSize h.typeId = .ok size ∧ tx.nursery.read (copy + headerSize) (size - headerSize) = .ok bytes ∧
    shared.read (root + headerSize) (size - headerSize) = .ok bytes

/-- An object of an arena that keeps its records is read as its record says. -/
theorem Arena.Keeps.read_body {a : Arena} {layout : Layout} {rs : List Record} {r : Record} (h : a.Keeps layout rs)
    (hr : r ∈ rs) : a.read (r.addr + headerSize) (r.size - headerSize) = .ok r.content := by
  have := h.headerSize_le hr
  exact Arena.read_eq_ok.2 ⟨h.spans hr (by omega), h.body r hr⟩

/-- An apply of transactions that mirror their objects writes every root. -/
theorem Mirrored.rootsWritten {layout : Layout} {rs : List Record} {b : Arena} (h : Mirrored layout rs own tx)
    (keeps : b.Keeps layout (Ledger.overwritten tx.nursery.memory own rs)) : tx.RootsWritten layout b := by
  have once := h.once
  rw [h.pairs] at once
  intro root copy hpair
  obtain ⟨r, hr, hk, rfl⟩ := h.mem_pairs.1 hpair
  obtain ⟨o, ho, rfl, -, size, -⟩ := h.rooted r hr root hk
  obtain ⟨o', ho', addr, -, size', -, -, one⟩ := overwritten_old own tx.nursery.memory ho
  have content := one r hr hk fun x hx hkx => h.places.copy_unique once hx hr hkx hk
  have hsize := h.places.headerSize_le hr
  have body : tx.nursery.read (r.addr + headerSize) (r.size - headerSize) = .ok o'.content := by
    rw [content]
    exact Arena.read_eq_ok.2 ⟨h.places.spans hr (by omega), rfl⟩
  refine ⟨o'.header, o'.size, o'.content, ?_, ?_, ?_, ?_⟩
  · rw [← addr]
    exact keeps.header_eq ho'
  · rw [Record.header_typeId]
    exact keeps.sized o' ho'
  · rw [size', size]
    exact body
  · rw [← addr]
    exact keeps.read_body ho'

/-- A thread with this transaction can apply it, and then end it whenever it likes. -/
structure Deliverable (s : Session) (t : Nat) (tx : Transaction) (s' : Session) : Prop where
  applied : s.step (.apply t) = (.ok .done, s')
  written : tx.RootsWritten s'.heap.layout s'.heap.shared
  ended : ∀ cs : List Command, (∀ c ∈ cs, c.closes? ≠ some t) → ((s'.run cs).2.step (.finish t)).1 = .ok (.report tx.report)

theorem Kept.deliverable (kept : Kept s L) (mirrored : s.AllMirrored L) (htx : s.tx? t = some tx)
    (hp : tx.phase = .prepared) : ∃ s', Deliverable s t tx s' := by
  obtain ⟨b, s', hstep, hover, agrees⟩ := kept.step_apply htx hp
  have ground : Grounded (s.step (.apply t)).2 := (kept.ground.run [.apply t]).1
  rw [hstep] at ground
  have htx' : s'.tx? t = some { tx with phase := .applied } :=
    (agrees.tx? t).trans (Session.tx?_setTx_self (s := s.setShared b) (Session.handle?_isSome_of_tx? htx))
  refine ⟨s', hstep, ?_, ?_⟩
  · rw [agrees.layout, agrees.shared]
    exact (mirrored t tx htx).rootsWritten ((kept.apply htx hp).of_ok hover)
  · intro cs hcs
    obtain ⟨tx'', htx'', held⟩ := ground.held_run htx' nofun hcs
    obtain ⟨s'', hfinish, -⟩ := step_finish htx'' held.phase
    rw [hfinish, held.report]

/-- A commit that fails has failed to prepare. -/
theorem Kept.commit_failed {f : Failure} (kept : Kept s L) (care : careful s L (.commit t))
    (hf : (s.step (.commit t)).1 = .error f) :
    ∀ i < s.heap.shared.freePointer, (s.step (.commit t)).2.heap.shared.memory.get i = s.heap.shared.memory.get i := by
  have e : Effect s (.prepare t) _ _ := step_effect nofun
  cases hp : s.step (.prepare t) with
  | mk o s₁ =>
  rw [hp] at e
  have alone : ∀ {f}, o = .error f → (s.step (.commit t)).2 = s₁ := by
    intro f ho
    rw [ho] at hp
    have parts : s.parts (.commit t) = [.prepare t] := by rw [Session.parts, hp]
    rw [step_commit, parts]
    exact congrArg Prod.snd hp
  cases e with
  | refused _ _ agrees =>
    rw [alone rfl, agrees.shared]
    exact fun _ _ => rfl
  | answered asks => exact asks.elim
  | attached hc => rcases hc with hc | hc <;> cases hc
  | prepared htx hactive hrun =>
    obtain ⟨s', committed⟩ := kept.commit htx hactive (care.2 t rfl) hrun
    rw [committed.answer] at hf
    cases hf
  | prepareFailed htx hactive hrun agrees =>
    obtain ⟨-, g, going⟩ := (kept.run htx hactive (care.2 t rfl)).of_error hrun
    rw [alone rfl, agrees.shared]
    exact going.below
  | prepareStopped htx hactive hs hrun =>
    obtain ⟨stuck, -⟩ := (kept.run htx hactive (care.2 t rfl)).of_error hrun
    obtain ⟨cause, e⟩ := stuck.refused
    exact absurd e (hs cause)

/-- An apply that fails has written nothing. -/
theorem Kept.apply_failed {f : Failure} (kept : Kept s L) (hf : (s.step (.apply t)).1 = .error f) :
    (s.step (.apply t)).2.heap.shared = s.heap.shared := by
  have e : Effect s (.apply t) _ _ := step_effect nofun
  rw [hf] at e
  generalize (s.step (.apply t)).2 = s' at e
  cases e with
  | refused _ _ agrees => exact agrees.shared
  | applyStopped htx hp _ hrun => exact ((kept.apply htx hp).of_error hrun).elim

/--
Once its prepare has answered, a transaction can be brought to its end: after any careful
calls that do not close it, its apply answers and writes every root, and its end then answers
with the report of the prepare. An apply or a commit that fails leaves every object of the
shared heap as it was.
-/
theorem prepared_never_fails (life : Lived careful s L) :
    (∀ t tx cs, s.tx? t = some tx → tx.phase = .prepared → AllAllowed careful s L cs → (∀ c ∈ cs, c.closes? ≠ some t) →
      PreparedSince t tx.report s ∧
        ∃ tx' s', (s.run cs).2.tx? t = some tx' ∧ tx.Held tx' ∧ Deliverable (s.run cs).2 t tx' s') ∧
    (∀ t f, (s.step (.apply t)).1 = .error f → (s.step (.apply t)).2.heap.shared = s.heap.shared) ∧
    ∀ t f, careful s L (.commit t) → (s.step (.commit t)).1 = .error f → ∀ i < s.heap.shared.freePointer,
      (s.step (.commit t)).2.heap.shared.memory.get i = s.heap.shared.memory.get i := by
  have kept := life.kept
  refine ⟨?_, fun t f hf => kept.apply_failed hf, fun t f care hf => kept.commit_failed care hf⟩
  intro t tx cs htx hp allowed hcs
  obtain ⟨tx', htx', held⟩ := kept.ground.held_run htx (by rw [hp]; exact nofun) hcs
  have later := life.along allowed
  obtain ⟨s', deliverable⟩ := later.kept.deliverable later.mirrored htx' (held.phase.trans hp)
  exact ⟨life.reported t tx htx hp, tx', s', htx', held, deliverable⟩

/-- A worker has prepared two roots; another has a copy of one of them, which points into the nursery of the first. -/
def awaited : List Command :=
  let root := sharedStart
  let copy := nurseryStart
  let x := copy + 96
  let other := nurseryStart + 65536
  [.attachMain, .create mainThread 0, .create mainThread 0, .attachWorker, .attachWorker, .start 1, .start 2,
    .copyOnWrite 1 root, .copyOnWrite 1 (root + 48), .copyOnWrite 2 root, .create 1 0, .write 1 copy 0 x,
    .write 1 (copy + 48) 24 7, .write 2 other 0 x, .prepare 1]

/-- Until the apply, the main thread stores and allocates, and the other worker commits the same root and leaves. -/
def meanwhile : List Command :=
  let root := sharedStart
  let other := nurseryStart + 65536
  [.write mainThread root 24 9, .create mainThread 0, .write 2 other 0 0, .commit 2, .detach 2, .bump 1 8, .start 1]

/-- The first worker can still apply; at its prepare the other could neither apply nor commit, and broke nothing. -/
theorem prepared_never_fails_awaited :
    (∃ tx tx' s', (Session.ofNodes.run awaited).2.tx? 1 = some tx ∧ tx.objects.pairs.length = 2 ∧
      PreparedSince 1 tx.report (Session.ofNodes.run awaited).2 ∧ tx.Held tx' ∧
      Deliverable ((Session.ofNodes.run awaited).2.run meanwhile).2 1 tx' s') ∧
    ((Session.ofNodes.run awaited).2.step (.apply 2)).2.heap.shared = (Session.ofNodes.run awaited).2.heap.shared ∧
    ∀ i < (Session.ofNodes.run awaited).2.heap.shared.freePointer,
      ((Session.ofNodes.run awaited).2.step (.commit 2)).2.heap.shared.memory.get i =
        (Session.ofNodes.run awaited).2.heap.shared.memory.get i := by
  have life : Lived careful (Session.ofNodes.run awaited).2 (Ledger.empty.along .ofNodes awaited) :=
    .ofNodes (by decide +kernel)
  obtain ⟨assured, applied, committed⟩ := prepared_never_fails life
  refine ⟨?_, ?_, ?_⟩
  · have facts : ((Session.ofNodes.run awaited).2.tx? 1).map (fun tx => (tx.phase, tx.objects.pairs.length)) =
        some (.prepared, 2) := by decide +kernel
    obtain ⟨tx, htx, e⟩ := Option.map_eq_some_iff.1 facts
    obtain ⟨since, tx', s', -, held, deliverable⟩ := assured 1 tx meanwhile htx (Prod.mk.inj e).1 (by decide +kernel)
      (by decide)
    exact ⟨tx, tx', s', htx, (Prod.mk.inj e).2, since, held, deliverable⟩
  · have active : ((Session.ofNodes.run awaited).2.step (.apply 2)).1 =
        .error (.refused (.violation (.wrongPhase "apply_roots" .active .prepared))) := by decide +kernel
    exact applied 2 _ active
  · have foreign : ((Session.ofNodes.run awaited).2.step (.commit 2)).1 =
        .error (.refused (.foreignAddress (nurseryStart + 96) 2)) := by decide +kernel
    exact committed 2 _ (by decide +kernel) foreign

end

end TxHeap

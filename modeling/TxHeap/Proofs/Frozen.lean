/-
  TxHeap.Proofs.Frozen — what is left to a transaction that is no longer active.

  Once a transaction is prepared, applied or failed, its thread may neither make objects nor
  working copies nor store to its own: each of these calls asks for the phase and is refused.
  Raw room is the exception. `bump` does not ask, so the nursery may still grow
  (`Session.Closed`). What was in it stays as it was: the bytes, the roots, and all of the room
  but what is bumped, whatever is called by whomever, until the transaction is given up or
  ended (`frozen_run`).
-/
import TxHeap.Proofs.Unseen

namespace TxHeap

def Session.Rejects (s : Session) (c : Command) (operation : String) (phase : Phase) : Prop :=
  s.step c = (.error (.refused (.violation (.wrongPhase operation phase .active))), s)

/-- Calls by which a thread would take room in its nursery, store to its own or add a root. -/
def Command.Adds (s : Session) (t : Nat) (tx : Transaction) : Command → Prop
  | .create t' typeId => t' = t ∧ (s.heap.layout.payload? typeId).isSome = true
  | .bump t' _ => t' = t
  | .copyOnWrite t' a => t' = t ∧ s.heap.spaceOf a = .shared
  | .write t' a offset _ => t' = t ∧ tx.nursery.contains a = true ∧
      ∃ addr, Handle.field s.heap tx.nursery a offset = .ok addr
  | _ => False

/-- The call breaks the protocol, and nursery and roots stay as they are. -/
structure Session.HoldsOff (s : Session) (t : Nat) (tx : Transaction) (c : Command) : Prop where
  violation : ∃ v, (s.step c).1 = .error (.refused (.violation v))
  kept : ∃ tx', (s.step c).2.tx? t = some tx' ∧ tx'.nursery.used = tx.nursery.used ∧
    tx'.nursery.memory = tx.nursery.memory ∧ tx'.objects = tx.objects

/-- What becomes of the calls by which a thread would add to its transaction. -/
structure Session.Closed (s : Session) (t : Nat) (tx : Transaction) : Prop where
  create : ∀ typeId size, s.heap.layout.objectSize typeId = .ok size → s.Rejects (.create t typeId) "malloc" tx.phase
  copyOnWrite : ∀ a, s.heap.spaceOf a = .shared → s.Rejects (.copyOnWrite t a) "materialize" tx.phase
  write : ∀ a offset value addr, tx.nursery.contains a = true → Handle.field s.heap tx.nursery a offset = .ok addr →
    s.Rejects (.write t a offset value) "write_word" tx.phase
  /-- Raw room is still given, as long as there is any. -/
  bump : ∀ size addr nursery, tx.nursery.allocate size = .ok (addr, nursery) →
    s.step (.bump t size) = (.ok (.address addr), s.setTx t (some { tx with nursery }))
  full : ∀ size f, tx.nursery.allocate size = .error f → s.step (.bump t size) = (.error f, s)

/-- Later in the life of a transaction that is no longer active, with this much more room taken. -/
structure Transaction.Frozen (tx tx' : Transaction) (room : Nat) : Prop where
  objects : tx'.objects = tx.objects
  memory : tx'.nursery.memory = tx.nursery.memory
  used : tx'.nursery.used = tx.nursery.used + room
  phase : tx'.phase ≠ .active

def Command.room (t : Nat) : Command → Outcome → Nat
  | .bump t' size, .ok _ => if t' = t then size else 0
  | _, _ => 0

def Session.room (s : Session) (t : Nat) : List Command → Nat
  | [] => 0
  | c :: cs => c.room t (s.step c).1 + (s.step c).2.room t cs

def Command.drops? : Command → Option Nat
  | .abort t | .finish t | .detach t => some t
  | _ => none

namespace Transaction.Frozen

variable {tx tx' tx'' : Transaction} {n m : Nat}

theorem same (h : tx.phase ≠ .active) : tx.Frozen tx 0 := ⟨rfl, rfl, rfl, h⟩

theorem trans (h : tx.Frozen tx' n) (h' : tx'.Frozen tx'' m) : tx.Frozen tx'' (n + m) :=
  ⟨h'.objects.trans h.objects, h'.memory.trans h.memory, by rw [h'.used, h.used, Nat.add_assoc], h'.phase⟩

end Transaction.Frozen

open Step TxHeap.Action

section

variable {s s' : Session} {c : Command} {o : Outcome} {t t' : Nat} {tx x : Transaction} {h : Handle} {cs : List Command}

/-! ## Refused calls -/

theorem objection_of_phase {operation : String} {expected : Phase} (htx : s.tx? t = some tx) (ne : tx.phase ≠ expected) :
    Phase.objection operation expected (s.phase? t) = some (.violation (.wrongPhase operation tx.phase expected)) := by
  rw [phase?_of_tx? htx, Phase.objection, if_neg ne]

theorem rejects_create {typeId size : Nat} (htx : s.tx? t = some tx) (worker : t ≠ mainThread) (ne : tx.phase ≠ .active)
    (hsize : s.heap.layout.objectSize typeId = .ok size) : s.Rejects (.create t typeId) "malloc" tx.phase := by
  obtain ⟨h, hh, -⟩ := handle_of_tx? htx
  refine Refused.step (Refused.map ?_)
  rw [Refused, create, ends_bind, ends_handle_of hh, ends_bind, ends_get, ends_bind]
  refine ends_ofAttempt_ok hsize (Refused.bind ?_)
  rw [placeObject, if_neg worker]
  exact refused_of_objection _ hh (objection_of_phase htx ne)

theorem rejects_copyOnWrite {a : Nat} (windowed : Windowed s) (htx : s.tx? t = some tx) (ne : tx.phase ≠ .active)
    (ha : s.heap.spaceOf a = .shared) : s.Rejects (.copyOnWrite t a) "materialize" tx.phase := by
  obtain ⟨h, hh, hx⟩ := handle_of_tx? htx
  have outside : tx.nursery.contains a ≠ true := fun inside =>
    windowed.not_shared (windowed.inWindow htx inside) ha
  have located : h.locate s.heap a = .ok .shared := by
    rw [Handle.locate, if_neg, if_pos ha]
    rw [Handle.sees, hx, Option.any_some]
    exact outside
  refine Refused.step (Refused.map ?_)
  rw [Refused, copyOnWrite, ends_bind, ends_handle_of hh, if_neg (windowed.workers t tx htx), ends_bind, ends_get,
    ends_bind]
  refine ends_ofAttempt_ok located ?_
  exact refused_of_objection _ hh (objection_of_phase htx ne)

theorem rejects_write {a offset value addr : Nat} (htx : s.tx? t = some tx) (ne : tx.phase ≠ .active)
    (ha : tx.nursery.contains a = true) (hf : Handle.field s.heap tx.nursery a offset = .ok addr) :
    s.Rejects (.write t a offset value) "write_word" tx.phase := by
  obtain ⟨h, hh, hx⟩ := handle_of_tx? htx
  have located : h.locate s.heap a = .ok .nursery := by
    rw [Handle.locate, if_pos]
    rw [Handle.sees, hx, Option.any_some]
    exact ha
  refine Refused.step (Refused.quietly ?_)
  rw [Refused, writeWord, ends_bind, query, ends_bind, ends_handle_of hh, ends_bind, ends_get]
  refine ends_ofAttempt_ok located ?_
  show Ends (writePrivate t a offset value) s _ _
  rw [writePrivate, ends_bind, ends_openTx_of htx, ends_bind, ends_get, ends_bind]
  refine ends_ofAttempt_ok hf (Refused.bind (refused_ofAttempt ?_))
  exact require_eq_error.2 ⟨ne, rfl⟩

/-- Room is given in any phase. -/
theorem step_bump (htx : s.tx? t = some tx) (worker : t ≠ mainThread) (size : Nat) :
    s.step (.bump t size) = match tx.nursery.allocate size with
      | .ok (addr, nursery) => (.ok (.address addr), s.setTx t (some { tx with nursery }))
      | .error f => (.error f, s) := by
  obtain ⟨h, hh, -⟩ := handle_of_tx? htx
  rw [step_map rfl]
  simp only [Action.bump, bind_apply, handle_of_handle? hh, if_neg worker, openTx_of_tx? htx]
  cases tx.nursery.allocate size with
  | error f => rfl
  | ok given => rfl

theorem closed_of_phase (windowed : Windowed s) (htx : s.tx? t = some tx) (ne : tx.phase ≠ .active) : s.Closed t tx where
  create _ _ := rejects_create htx (windowed.workers t tx htx) ne
  copyOnWrite _ := rejects_copyOnWrite windowed htx ne
  write _ _ _ _ := rejects_write htx ne
  bump size addr nursery ha := by rw [step_bump htx (windowed.workers t tx htx), ha]
  full size f hf := by rw [step_bump htx (windowed.workers t tx htx), hf]

theorem Session.Rejects.holdsOff {operation : String} {phase : Phase} (rejects : s.Rejects c operation phase)
    (htx : s.tx? t = some tx) : s.HoldsOff t tx c := by
  refine ⟨⟨_, congrArg Prod.fst rejects⟩, tx, ?_, rfl, rfl, rfl⟩
  rw [show (s.step c).2 = s from congrArg Prod.snd rejects]
  exact htx

/-- An arena that has no room says so; it knows no protocol. -/
theorem Arena.allocate_ne_violation {arena : Arena} {size : Nat} {v : Violation} :
    arena.allocate size ≠ .error (.refused (.violation v)) := by
  have backing (len : Nat) : arena.backing len ≠ .error (.refused (.violation v)) := by
    rw [Arena.backing]
    split
    · simp
    · cases Word.alignUp len arena.chunkSize with
      | error kind =>
        intro e
        cases e
      | ok aligned =>
        show (Attempt.demand _ _ >>= fun _ => _) ≠ _
        rw [Attempt.demand, require]
        split <;> simp
  rw [Arena.allocate]
  split
  · have none := backing (arena.used + size)
    cases hb : arena.backing (arena.used + size) with
    | ok committed => simp
    | error f =>
      rw [hb] at none
      exact fun e => none (congrArg Except.error (Except.error.inj e))
  · simp [Attempt.refuse]

/-- Raw room is given or there is none; in no case does asking for it break the protocol. -/
theorem not_holdsOff_bump {size : Nat} (htx : s.tx? t = some tx) (worker : t ≠ mainThread) :
    ¬ s.HoldsOff t tx (.bump t size) := by
  rintro ⟨⟨v, hv⟩, -⟩
  rw [step_bump htx worker] at hv
  cases ha : tx.nursery.allocate size with
  | ok given =>
    rw [ha] at hv
    cases hv
  | error f =>
    rw [ha] at hv
    cases hv
    exact Arena.allocate_ne_violation ha

/-- The size of a known type is found, or leaves the range of words. -/
theorem objectSize_of_known {layout : Layout} {typeId : Nat} (known : (layout.payload? typeId).isSome = true) :
    (∃ size, layout.objectSize typeId = .ok size) ∨ ∃ kind, layout.objectSize typeId = .error (.overflow kind) := by
  obtain ⟨payload, hp⟩ := Option.isSome_iff_exists.1 known
  rw [Layout.objectSize_eq hp]
  split
  · exact .inl ⟨_, rfl⟩
  · exact .inr ⟨_, rfl⟩

/-- A call for an object whose size is not to be had ends before the phase is asked for. -/
theorem step_create_of_error {typeId : Nat} {f : Failure} (hh : s.handle? t = some h)
    (hf : s.heap.layout.objectSize typeId = .error f) : s.step (.create t typeId) = (.error f, s) := by
  rw [step_map rfl]
  simp only [Action.create, bind_apply, handle_of_handle? hh, get_apply, hf, ofAttempt_error, throw_apply]

/-- A call that would add to a transaction is held off just where it is none for raw room, and knows the size it needs. -/
theorem Session.Closed.holdsOff_iff (closed : s.Closed t tx) (htx : s.tx? t = some tx) (worker : t ≠ mainThread)
    (adds : c.Adds s t tx) :
    s.HoldsOff t tx c ↔ (∀ size, c ≠ .bump t size) ∧
      ∀ typeId, c = .create t typeId → ∃ size, s.heap.layout.objectSize typeId = .ok size := by
  cases c with
  | create t' typeId =>
    obtain ⟨rfl, known⟩ := adds
    refine ⟨fun off => ⟨nofun, fun typeId' e => ?_⟩, fun sized => ?_⟩
    · cases e
      rcases objectSize_of_known known with found | ⟨kind, overflows⟩
      · exact found
      · obtain ⟨h, hh, -⟩ := handle_of_tx? htx
        obtain ⟨v, hv⟩ := off.violation
        rw [step_create_of_error hh overflows] at hv
        cases hv
    · obtain ⟨size, hsize⟩ := sized.2 typeId rfl
      exact (closed.create typeId size hsize).holdsOff htx
  | bump t' size =>
    cases adds
    exact ⟨fun off => absurd off (not_holdsOff_bump htx worker), fun none => absurd rfl (none.1 size)⟩
  | copyOnWrite t' a =>
    obtain ⟨rfl, ha⟩ := adds
    exact ⟨fun _ => ⟨nofun, nofun⟩, fun _ => (closed.copyOnWrite a ha).holdsOff htx⟩
  | write t' a offset value =>
    obtain ⟨rfl, ha, addr, hf⟩ := adds
    exact ⟨fun _ => ⟨nofun, nofun⟩, fun _ => (closed.write a offset value addr ha hf).holdsOff htx⟩
  | _ => exact adds.elim

/-! ## Nothing changes but the room -/

theorem room_error (c : Command) (t : Nat) (f : Failure) : c.room t (.error f) = 0 := by
  cases c <;> rfl

theorem room_of_ne {size : Nat} {r : Reply} (ne : t' ≠ t) : (Command.bump t' size).room t (.ok r) = 0 := if_neg ne

/-- Whatever is called, a transaction that is no longer active and is not dropped gets at most more room. -/
theorem Effect.frozen (e : Effect s c o s') (htx : s.tx? t = some tx) (worker : t ≠ mainThread)
    (ne : tx.phase ≠ .active) (hc : c.drops? ≠ some t) :
    ∃ tx', s'.tx? t = some tx' ∧ tx.Frozen tx' (c.room t o) := by
  have known : ∀ {x}, s.tx? t = some x → x = tx := fun hx => Option.some.inj (hx.symm.trans htx)
  have asleep {t' : Nat} {x : Transaction} (hx : s.tx? t' = some x) (active : x.phase = .active) : t ≠ t' := by
    rintro rfl
    exact ne (known hx ▸ active)
  -- nothing was done to it
  have same (found : s'.tx? t = s.tx? t) (none : c.room t o = 0) :
      ∃ tx', s'.tx? t = some tx' ∧ tx.Frozen tx' (c.room t o) := by
    rw [found, none]
    exact ⟨tx, htx, .same ne⟩
  cases e with
  | refused _ _ agrees => exact same (agrees.tx? t) (room_error _ _ _)
  | answered asks agrees => exact same (agrees.tx? t) (by cases c <;> first | rfl | exact asks.elim)
  | exhausted _ agrees => exact same (agrees.tx? t) rfl
  | createdShared _ _ agrees | uncopied agrees | recopied _ _ _ _ _ _ agrees | wroteShared _ _ _ agrees =>
    exact same (agrees.tx? t) rfl
  | bumpedShared _ agrees => exact same (agrees.tx? t) (room_of_ne worker.symm)
  | attached hc agrees =>
    refine same ?_ (by rcases hc with rfl | rfl <;> rfl)
    rw [agrees.tx?, Session.withHandles, Session.tx?_attach]
  | @detached t' _ agrees =>
    have away : t ≠ t' := fun e => hc (congrArg some e.symm)
    refine same ?_ rfl
    rw [agrees.tx?, Session.withHandles, Session.tx?_detach_of_ne _ _ away]
  | @started t' _ _ _ _ idle _ agrees =>
    have away : t ≠ t' := by
      rintro rfl
      cases idle.symm.trans htx
    exact same ((agrees.tx? t).trans (Session.tx?_setTx_of_ne away)) rfl
  | aborted _ _ agrees | finished _ _ agrees =>
    have away : t ≠ _ := fun e => hc (congrArg some e.symm)
    exact same ((agrees.tx? t).trans (Session.tx?_setTx_of_ne away)) rfl
  | created _ hx active _ _ agrees | stranded _ hx active _ agrees | wrote hx active _ _ _ agrees =>
    exact same ((agrees.tx? t).trans (Session.tx?_setTx_of_ne (asleep hx active))) rfl
  | copied _ hx active _ _ _ _ _ _ _ _ agrees =>
    refine same ?_ rfl
    rw [agrees.tx?, Session.tx?_setShared, Session.tx?_setTx_of_ne (asleep hx active)]
  | prepared hx active _ agrees | prepareFailed hx active _ agrees | prepareStopped hx active _ _ agrees =>
    exact same ((agrees.tx? t).trans (Session.tx?_setTx_of_ne (s := s) (asleep hx active))) rfl
  | @tokenIssued t' obj x _ hx _ _ agrees =>
    by_cases e : t = t'
    · subst e
      cases known hx
      refine ⟨_, (agrees.tx? t).trans (Session.tx?_setTx_self (s := s.advance) (Session.handle?_isSome_of_tx? htx)), ?_⟩
      exact ⟨rfl, rfl, rfl, ne⟩
    · exact same ((agrees.tx? t).trans (Session.tx?_setTx_of_ne (s := s.advance) e)) rfl
  | @bumped t' size addr x nursery _ _ hx ha agrees =>
    by_cases e : t = t'
    · subst e
      cases known hx
      obtain ⟨-, grew⟩ := Arena.grew_of_allocate ha
      refine ⟨_, (agrees.tx? t).trans (Session.tx?_setTx_of_tx? htx), ?_⟩
      rw [Command.room, if_pos rfl]
      exact ⟨rfl, grew.memory, grew.used, ne⟩
    · exact same ((agrees.tx? t).trans (Session.tx?_setTx_of_ne e)) (room_of_ne (Ne.symm e))
  | @applied t' x shared _ hx _ _ agrees =>
    by_cases e : t = t'
    · subst e
      cases known hx
      have attached : ((s.setShared shared).handle? t).isSome = true := Session.handle?_isSome_of_tx? htx
      exact ⟨_, (agrees.tx? t).trans (Session.tx?_setTx_self attached), rfl, rfl, rfl, Phase.noConfusion⟩
    · exact same ((agrees.tx? t).trans (Session.tx?_setTx_of_ne (s := s.setShared shared) e)) rfl
  | @applyStopped t' x x' _ _ _ hx _ hx' _ _ _ _ found =>
    by_cases e : t = t'
    · subst e
      cases known hx
      refine ⟨x', by rw [found, if_pos rfl], ?_⟩
      rcases hx' with rfl | rfl
      · exact ⟨rfl, rfl, rfl, Phase.noConfusion⟩
      · exact .same ne
    · exact same (by rw [found, if_neg e]) rfl

/-- So do calls none of which is a commit. -/
theorem frozen_singles (htx : s.tx? t = some tx) (worker : t ≠ mainThread) (ne : tx.phase ≠ .active)
    (single : ∀ c ∈ cs, ∀ t, c ≠ .commit t) (hcs : ∀ c ∈ cs, c.drops? ≠ some t) :
    ∃ tx', (s.run cs).2.tx? t = some tx' ∧ tx.Frozen tx' (s.room t cs) := by
  induction cs generalizing s tx with
  | nil => exact ⟨tx, htx, .same ne⟩
  | cons c cs ih =>
    obtain ⟨hsingle, single⟩ := List.forall_mem_cons.1 single
    obtain ⟨hc, hcs⟩ := List.forall_mem_cons.1 hcs
    obtain ⟨tx₁, htx₁, first⟩ := (step_effect (s := s) hsingle).frozen htx worker ne hc
    obtain ⟨tx₂, htx₂, rest⟩ := ih htx₁ first.phase single hcs
    exact ⟨tx₂, htx₂, first.trans rest⟩

/-- The steps of a commit give nobody raw room. -/
theorem room_parts_commit (cs : List Command)
    (h : ∀ c ∈ cs, ∃ t', c = .prepare t' ∨ c = .apply t' ∨ c = .finish t') :
    s.room t cs = 0 := by
  induction cs generalizing s with
  | nil => rfl
  | cons c cs ih =>
    obtain ⟨hc, h⟩ := List.forall_mem_cons.1 h
    have none (o : Outcome) : c.room t o = 0 := by
      obtain ⟨t', rfl | rfl | rfl⟩ := hc <;> rfl
    rw [Session.room, none, ih h]

theorem frozen_step (htx : s.tx? t = some tx) (worker : t ≠ mainThread) (ne : tx.phase ≠ .active)
    (hc : c.drops? ≠ some t) : ∃ tx', (s.step c).2.tx? t = some tx' ∧ tx.Frozen tx' (c.room t (s.step c).1) := by
  by_cases hcommit : ∃ t', c = .commit t'
  · obtain ⟨t', rfl⟩ := hcommit
    by_cases e : t' = t
    · subst e
      obtain ⟨h, hh, -⟩ := handle_of_tx? htx
      have out : (Command.commit t').objection (s.phase? t') =
          some (.violation (.wrongPhase "prepare_commit" tx.phase .active)) := by
        rw [phase?_of_tx? htx]
        exact if_neg ne
      rw [step_of_objection (c := .commit t') hh rfl out]
      exact ⟨tx, htx, .same ne⟩
    · have steps := parts_commit s t'
      have kept : ∀ c ∈ s.parts (.commit t'), c.drops? ≠ some t := by
        intro c hc
        rcases steps c hc with rfl | rfl | rfl
        · exact nofun
        · exact nofun
        · exact fun same => e (Option.some.inj same)
      obtain ⟨tx', htx', frozen⟩ := frozen_singles htx worker ne (s.parts_single (.commit t')) kept
      rw [run_parts] at htx'
      rw [room_parts_commit _ fun c hc => ⟨t', steps c hc⟩] at frozen
      exact ⟨tx', htx', frozen⟩
  · exact (step_effect fun t' e => hcommit ⟨t', e⟩).frozen htx worker ne hc

/-- What was prepared stays as it was prepared, whatever is called, until it is given up or ended. -/
theorem frozen_run (htx : s.tx? t = some tx) (worker : t ≠ mainThread) (ne : tx.phase ≠ .active)
    (hcs : ∀ c ∈ cs, c.drops? ≠ some t) : ∃ tx', (s.run cs).2.tx? t = some tx' ∧ tx.Frozen tx' (s.room t cs) := by
  induction cs generalizing s tx with
  | nil => exact ⟨tx, htx, .same ne⟩
  | cons c cs ih =>
    obtain ⟨hc, hcs⟩ := List.forall_mem_cons.1 hcs
    obtain ⟨tx₁, htx₁, first⟩ := frozen_step htx worker ne hc
    obtain ⟨tx₂, htx₂, rest⟩ := ih htx₁ first.phase hcs
    exact ⟨tx₂, htx₂, first.trans rest⟩

/--
Of the calls by which a thread would add to a transaction that has left its active phase, those for raw room are not held
off, nor those for objects whose size leaves the range of words; all others are. Apart from raw room the transaction is as
it was.
-/
theorem frozen_but_for_raw_room {config : Config} {layout : Layout} {log : EventLog} (fits : config.Fits)
    (created : Session.create config layout log = .ok s) (cs : List Command)
    (htx : (s.run cs).2.tx? t = some tx) (ne : tx.phase ≠ .active) :
    (∀ c : Command, c.Adds (s.run cs).2 t tx → ((s.run cs).2.HoldsOff t tx c ↔ (∀ size, c ≠ .bump t size) ∧
      ∀ typeId, c = .create t typeId → ∃ size, (s.run cs).2.heap.layout.objectSize typeId = .ok size)) ∧
    (s.run cs).2.Closed t tx ∧
    ∀ cs' : List Command, (∀ c ∈ cs', c.drops? ≠ some t) →
      ∃ tx', ((s.run cs).2.run cs').2.tx? t = some tx' ∧ tx.Frozen tx' ((s.run cs).2.room t cs') := by
  obtain ⟨windowed, -⟩ := (Windowed.create fits created).run cs
  have worker := windowed.workers t tx htx
  have closed := closed_of_phase windowed htx ne
  exact ⟨fun c adds => closed.holdsOff_iff htx worker adds, closed, fun cs' hcs' => frozen_run htx worker ne hcs'⟩

/-- A transaction with one root and one pointer into nowhere fails where it is prepared. -/
def Command.failing : List Command :=
  [.attachMain, .create mainThread 0, .attachWorker, .start 1, .copyOnWrite 1 sharedStart, .write 1 nurseryStart 0 8,
    .prepare 1]

theorem frozen_but_for_raw_room_failing :
    ∃ tx, (Session.ofNodes.run Command.failing).2.tx? 1 = some tx ∧ tx.phase = .failed ∧
      (Session.ofNodes.run Command.failing).2.HoldsOff 1 tx (.create 1 0) ∧
      ¬ (Session.ofNodes.run Command.failing).2.HoldsOff 1 tx (.bump 1 8) := by
  have failed : ((Session.ofNodes.run Command.failing).2.tx? 1).any (·.phase = .failed) = true := by decide +kernel
  obtain ⟨tx, htx, failed⟩ := (Option.any_eq_true _ _).1 failed
  rw [decide_eq_true_eq] at failed
  obtain ⟨exactly, -⟩ := frozen_but_for_raw_room Config.small_fits create_ofNodes Command.failing htx
    (by rw [failed]; decide)
  have size : ((Session.ofNodes.run Command.failing).2.heap.layout.objectSize 0).toOption = some 48 := by decide +kernel
  refine ⟨tx, htx, failed, (exactly (.create 1 0) ⟨rfl, by decide +kernel⟩).2 ⟨nofun, fun typeId e => ?_⟩,
    fun off => ?_⟩
  · cases e
    cases hs : (Session.ofNodes.run Command.failing).2.heap.layout.objectSize 0 with
    | ok n => exact ⟨n, rfl⟩
    | error f =>
      rw [hs] at size
      cases size
  · exact ((exactly (.bump 1 8) rfl).1 off).1 8 rfl

/-- A failed transaction is given eight more bytes. -/
theorem failed_takes_raw_room :
    (Session.ofNodes.run Command.failing).2.phase? 1 = some .failed ∧
      ((Session.ofNodes.run Command.failing).2.tx? 1).map (·.nursery.used) = some 48 ∧
      ((Session.ofNodes.run Command.failing).2.step (.bump 1 8)).1 = .ok (.address (nurseryStart + 48)) ∧
      (((Session.ofNodes.run Command.failing).2.step (.bump 1 8)).2.tx? 1).map (·.nursery.used) = some 56 := by
  decide +kernel

end

end TxHeap

/-
  TxHeap.Proofs.Effect — what each call does to memory and transactions.

  `Effect s c outcome s'` lists, once, everything that a call other than a commit can have
  done between `s` and `s'`: the conditions under which it got that far, and the session up to
  counters, logs and journal (`Session.Agrees`). Every step is one of
  these (`step_effect`); what a run preserves is then shown by cases on the effect.
-/
import TxHeap.Run
import TxHeap.Proofs.Arena
import TxHeap.Proofs.Views

namespace TxHeap

def Command.Asks : Command → Prop
  | .read .. | .header .. | .canonical .. | .token .. | .setEvents _ | .clearEvents | .configureLog _ => True
  | _ => False

def Command.Prepares (c : Command) (s : Session) : Prop :=
  ∃ t tx, c = .prepare t ∧ s.tx? t = some tx ∧ tx.phase = .active

def Command.Applies (c : Command) (s : Session) : Prop :=
  ∃ t tx, c = .apply t ∧ s.tx? t = some tx ∧ tx.phase = .prepared

/-- Threads come and go by a table of who is attached. -/
def Session.withHandles (s : Session) (threads : Threads) (handles : List Handle) : Session :=
  { s with heap := { s.heap with threads }, handles }

@[simp] theorem Session.withHandles_tokens (s : Session) (threads : Threads) (handles : List Handle) :
    (s.withHandles threads handles).heap.tokens = s.heap.tokens := rfl

@[simp] theorem Session.withHandles_nextToken (s : Session) (threads : Threads) (handles : List Handle) :
    (s.withHandles threads handles).heap.nextToken = s.heap.nextToken := rfl

inductive Effect (s : Session) : Command → Outcome → Session → Prop
  | refused {c : Command} {f : Failure} {s' : Session} :
      ¬ c.Prepares s → ¬ c.Applies s → s.Agrees s' → Effect s c (.error f) s'
  | answered {c : Command} {r : Reply} {s' : Session} : c.Asks → s.Agrees s' → Effect s c (.ok r) s'
  /-- A first question for the token of a fresh object. -/
  | tokenIssued {t obj : Nat} {tx : Transaction} {s' : Session} :
      s.tx? t = some tx → tx.tokens.get? obj = none → s.heap.nextToken < nurseryStart →
      (s.advance.setTx t (some { tx with tokens := tx.tokens.insert obj s.heap.nextToken })).Agrees s' →
      Effect s (.token t obj) (.ok (.token s.heap.nextToken)) s'
  /-- There was no token left to give. -/
  | exhausted {t obj : Nat} {s' : Session} : nurseryStart ≤ s.heap.nextToken → s.advance.Agrees s' →
      Effect s (.token t obj) (.error (.refused (.outOfSpace wordSize 0))) s'
  | attached {c : Command} {t : Nat} {threads : Threads} {s' : Session} : c = .attachMain ∨ c = .attachWorker →
      (s.withHandles threads (s.handles ++ [⟨t, none⟩])).Agrees s' → Effect s c (.ok (.thread t)) s'
  | detached {t : Nat} {s' : Session} :
      (s.withHandles (s.heap.threads.detach t) (s.handles.filter (·.thread != t))).Agrees s' →
      Effect s (.detach t) (.ok .done) s'
  | started {t : Nat} {nursery : Arena} {s' : Session} : t ≠ mainThread → (s.handle? t).isSome = true →
      s.tx? t = none → s.heap.newNursery t = .ok nursery →
      (s.setTx t (some (.fresh nursery))).Agrees s' → Effect s (.start t) (.ok .done) s'
  | aborted {t : Nat} {tx : Transaction} {s' : Session} : s.tx? t = some tx → tx.phase ≠ .applied →
      (s.setTx t none).Agrees s' → Effect s (.abort t) (.ok .done) s'
  | finished {t : Nat} {tx : Transaction} {s' : Session} : s.tx? t = some tx → tx.phase = .applied →
      (s.setTx t none).Agrees s' → Effect s (.finish t) (.ok (.report tx.report)) s'
  | bumpedShared {size addr : Nat} {shared : Arena} {s' : Session} :
      s.heap.shared.allocate size = .ok (addr, shared) → (s.setShared shared).Agrees s' →
      Effect s (.bump mainThread size) (.ok (.address addr)) s'
  | bumped {t size addr : Nat} {tx : Transaction} {nursery : Arena} {s' : Session} : t ≠ mainThread →
      s.tx? t = some tx → tx.nursery.allocate size = .ok (addr, nursery) →
      (s.setTx t (some { tx with nursery })).Agrees s' → Effect s (.bump t size) (.ok (.address addr)) s'
  | createdShared {typeId size obj : Nat} {shared : Arena} {s' : Session} :
      s.heap.layout.objectSize typeId = .ok size →
      s.heap.shared.place size (.new typeId Flag.global) = .ok (obj, shared) → (s.setShared shared).Agrees s' →
      Effect s (.create mainThread typeId) (.ok (.address obj)) s'
  | created {t typeId size obj : Nat} {tx : Transaction} {nursery : Arena} {s' : Session} : t ≠ mainThread →
      s.tx? t = some tx → tx.phase = .active → s.heap.layout.objectSize typeId = .ok size →
      tx.nursery.place size (.new typeId 0) = .ok (obj, nursery) →
      (s.setTx t (some { tx with nursery })).Agrees s' → Effect s (.create t typeId) (.ok (.address obj)) s'
  /-- The object may be stored to as it is. -/
  | uncopied {t obj : Nat} {s' : Session} : s.Agrees s' → Effect s (.copyOnWrite t obj) (.ok (.address obj)) s'
  /-- The object has a working copy already. -/
  | recopied {t obj copy : Nat} {tx : Transaction} {s' : Session} : t ≠ mainThread → s.tx? t = some tx →
      tx.phase = .active → tx.nursery.contains obj = false → s.heap.spaceOf obj = .shared →
      tx.objects.copyOf? obj = some copy → s.Agrees s' → Effect s (.copyOnWrite t obj) (.ok (.address copy)) s'
  | copied {t obj copy size : Nat} {h : Header} {tx : Transaction} {grown : Arena} {s' : Session} :
      t ≠ mainThread → s.tx? t = some tx → tx.phase = .active → tx.nursery.contains obj = false →
      s.heap.spaceOf obj = .shared → tx.objects.copyOf? obj = none →
      s.heap.shared.header obj = .ok h → h.isGlobal = true → s.heap.layout.objectSize h.typeId = .ok size →
      tx.nursery.allocate size = .ok (copy, grown) → s.heap.shared.Spans obj size →
      ((s.setTx t (some { tx with
            nursery := { grown with
              memory := (grown.memory.write copy (s.heap.shared.memory.read obj size)).setHeaderAt copy
                (Action.copyHeader h.typeId obj) }
            objects := ⟨tx.objects.pairs ++ [(obj, copy)]⟩ })).setShared
          { s.heap.shared with memory := s.heap.shared.memory.setHeaderAt obj h.markCopied }).Agrees s' →
      Effect s (.copyOnWrite t obj) (.ok (.address copy)) s'
  /-- Room was taken for a copy, but the shared bytes are not all there. -/
  | stranded {t obj copy size : Nat} {f : Failure} {tx : Transaction} {grown : Arena} {s' : Session} :
      t ≠ mainThread → s.tx? t = some tx → tx.phase = .active →
      tx.nursery.allocate size = .ok (copy, grown) → (s.setTx t (some { tx with nursery := grown })).Agrees s' →
      Effect s (.copyOnWrite t obj) (.error f) s'
  | wroteShared {obj offset value addr : Nat} {shared : Arena} {s' : Session} :
      s.heap.spaceOf obj = .shared → Handle.field s.heap s.heap.shared obj offset = .ok addr →
      s.heap.shared.writeWord addr value = .ok shared → (s.setShared shared).Agrees s' →
      Effect s (.write mainThread obj offset value) (.ok .done) s'
  | wrote {t obj offset value addr : Nat} {tx : Transaction} {nursery : Arena} {s' : Session} :
      s.tx? t = some tx → tx.phase = .active → tx.nursery.contains obj = true →
      Handle.field s.heap tx.nursery obj offset = .ok addr → tx.nursery.writeWord addr value = .ok nursery →
      (s.setTx t (some { tx with nursery })).Agrees s' → Effect s (.write t obj offset value) (.ok .done) s'
  | prepared {t : Nat} {tx : Transaction} {report : Report} {p : Preparation} {s' : Session} :
      s.tx? t = some tx → tx.phase = .active →
      Prepare.run s.heap.layout t (.ofHeap s.heap tx) = .ok report p →
      (s.adopt t p fun tx => { tx with phase := .prepared, report }).Agrees s' →
      Effect s (.prepare t) (.ok (.report report)) s'
  | prepareFailed {t : Nat} {tx : Transaction} {cause : Refusal} {p : Preparation} {s' : Session} :
      s.tx? t = some tx → tx.phase = .active →
      Prepare.run s.heap.layout t (.ofHeap s.heap tx) = .error (.refused cause) p →
      (s.adopt t p .failed).Agrees s' → Effect s (.prepare t) (.error (.refused cause)) s'
  /-- The arithmetic of a preparation left the range of words. -/
  | prepareStopped {t : Nat} {tx : Transaction} {f : Failure} {p : Preparation} {s' : Session} :
      s.tx? t = some tx → tx.phase = .active → (∀ cause, f ≠ .refused cause) →
      Prepare.run s.heap.layout t (.ofHeap s.heap tx) = .error f p →
      (s.adopt t p id).Agrees s' → Effect s (.prepare t) (.error f) s'
  | applied {t : Nat} {tx : Transaction} {shared : Arena} {s' : Session} :
      s.tx? t = some tx → tx.phase = .prepared →
      Action.overwriteAll s.heap.layout tx tx.objects.pairs s.heap.shared = .ok () shared →
      ((s.setShared shared).setTx t (some { tx with phase := .applied })).Agrees s' →
      Effect s (.apply t) (.ok .done) s'
  /-- Some root could not be written; `tx'` is the transaction failed, or as it was where words overflowed. -/
  | applyStopped {t : Nat} {tx tx' : Transaction} {f : Failure} {shared : Arena} {s' : Session} :
      s.tx? t = some tx → tx.phase = .prepared → tx' = tx.failed ∨ tx' = tx →
      Action.overwriteAll s.heap.layout tx tx.objects.pairs s.heap.shared = .error f shared →
      s'.heap.shared = shared → s'.heap.layout = s.heap.layout → s'.heap.config = s.heap.config →
      (∀ t', s'.tx? t' = if t' = t then some tx' else s.tx? t') → Effect s (.apply t) (.error f) s'

/-! ## Every step has an effect -/

open Step TxHeap.Action

variable {s : Session}

/-- As its call ends, a step ends. -/
theorem step_of_ends {c : Command} {P : Outcome → Session → Prop}
    (h : Ends c.action s (fun r s' => P (.ok r) s') fun f s' => P (.error f) s') : P (s.step c).1 (s.step c).2 := by
  rw [Session.step, Session.perform]
  cases hc : c.action s with
  | ok r s' => exact h.of_ok hc
  | error f s' => exact h.of_error hc

def Command.Faithful (c : Command) (s : Session) : Prop :=
  Ends c.action s (fun r s' => Effect s c (.ok r) s') fun f s' => Effect s c (.error f) s'

theorem Command.Faithful.step {c : Command} (h : c.Faithful s) : Effect s c (s.step c).1 (s.step c).2 :=
  step_of_ends (P := Effect s c) h

theorem ends_quietly {call : Action Unit} {ok : Reply → Session → Prop} {bad : Failure → Session → Prop} :
    Ends (quietly call) s ok bad ↔ Ends call s (fun _ s' => ok .done s') bad := by
  rw [quietly, ends_bind]
  exact Iff.rfl

/-- A call that gives the answer of an action another name. -/
theorem faithful_map {α : Type} {c : Command} {call : Action α} {reply : α → Reply} (hc : c.action = reply <$> call)
    (h : Ends call s (fun a s' => Effect s c (.ok (reply a)) s') fun f s' => Effect s c (.error f) s') : c.Faithful s := by
  rw [Command.Faithful, hc, ends_map]
  exact h

theorem faithful_quietly {c : Command} {call : Action Unit} (hc : c.action = quietly call)
    (h : Ends call s (fun _ s' => Effect s c (.ok .done) s') fun f s' => Effect s c (.error f) s') : c.Faithful s := by
  rw [Command.Faithful, hc, ends_quietly]
  exact h

theorem not_prepares {c : Command} (h : ∀ t, c ≠ .prepare t) : ¬ c.Prepares s := fun ⟨t, _, e, _⟩ => h t e

theorem not_applies {c : Command} (h : ∀ t, c ≠ .apply t) : ¬ c.Applies s := fun ⟨t, _, e, _⟩ => h t e

/-- A call that is refused at the door. -/
theorem Effect.unmoved {c : Command} {f : Failure} (hp : ∀ t, c ≠ .prepare t) (ha : ∀ t, c ≠ .apply t) :
    Effect s c (.error f) s :=
  .refused (not_prepares hp) (not_applies ha) (.refl s)

theorem faithful_query {α : Type} {c : Command} {t : Nat} {ask : Handle → Heap → Attempt α} {reply : α → Reply}
    (asks : c.Asks) (hc : c.action = reply <$> query t ask) : c.Faithful s := by
  have hp : ∀ t, c ≠ .prepare t := by intro t e; subst e; exact asks
  have ha : ∀ t, c ≠ .apply t := by intro t e; subst e; exact asks
  refine faithful_map hc ?_
  rw [query, ends_bind, ends_handle]
  refine ⟨?_, fun _ => .unmoved hp ha⟩
  intro h _
  rw [ends_bind, ends_get, ends_ofAttempt]
  exact ⟨fun _ _ => .answered asks (.refl s), fun _ _ => .unmoved hp ha⟩

/-- A setting of the event logs. -/
theorem faithful_setting {c : Command} {f : Session → Session} (asks : c.Asks)
    (hc : c.action = quietly (modify f)) (agrees : s.Agrees (f s)) : c.Faithful s := by
  refine faithful_quietly hc ?_
  rw [ends_modify]
  exact .answered asks agrees

/-! ### Coming and going -/

theorem faithful_attachMain : Command.attachMain.Faithful s := by
  refine faithful_map rfl ?_
  rw [attachMain, ends_bind, ends_get, ends_bind, ends_ofAttempt]
  refine ⟨?_, fun _ _ => .unmoved nofun nofun⟩
  intro threads _
  exact .attached (.inl rfl) ((Session.Agrees.refl _).note _)

theorem faithful_attachWorker : Command.attachWorker.Faithful s := by
  refine faithful_map rfl ?_
  rw [attachWorker, ends_bind, ends_get, ends_bind, ends_ofAttempt]
  refine ⟨fun ⟨t, threads⟩ _ => ?_, fun _ _ => .unmoved nofun nofun⟩
  exact .attached (.inr rfl) ((Session.Agrees.refl _).note _)

theorem ends_countAbort {t : Nat} {tx : Transaction} {ok : Unit → Session → Prop} {bad : Failure → Session → Prop} :
    Ends (countAbort t tx) s ok bad ↔ ok () ((s.count .recordAbort).emit (.aborted t tx.objects.size)) := Iff.rfl

/-- An attached thread detaches, whatever its transaction has come to. -/
theorem ends_detach {t : Nat} {h : Handle} (hh : s.handle? t = some h) :
    Ends (detach t) s (fun _ s' => (s.withHandles (s.heap.threads.detach t) (s.handles.filter (·.thread != t))).Agrees s')
      fun _ _ => False := by
  have gone : Ends (h.tx.forM (dropOpen t)) s (fun _ s' => s.Agrees s') fun _ _ => False := by
    cases h.tx with
    | none => exact .refl s
    | some tx =>
      show Ends (dropOpen t tx) s _ _
      rw [dropOpen]
      split
      · exact (Session.Agrees.refl s).note _
      · rw [ends_bind, ends_countAbort]
        exact (((Session.Agrees.refl s).count _).emit _).note _
  rw [detach, ends_bind, ends_handle]
  refine ⟨?_, fun none => by cases hh.symm.trans none⟩
  intro h' hh'
  cases hh.symm.trans hh'
  rw [ends_bind]
  refine gone.mono ?_ fun _ _ hf => hf.elim
  intro _ s' hs'
  refine Session.Agrees.note ?_ _
  exact ⟨hs'.shared, hs'.tokens, hs'.layout, hs'.config, by simp only [Session.withHandles, hs'.threads],
    hs'.nextToken, by simp only [Session.withHandles, hs'.handles]⟩

theorem faithful_detach (t : Nat) : (Command.detach t).Faithful s := by
  refine faithful_quietly rfl ?_
  cases hh : s.handle? t with
  | none =>
    rw [detach, ends_bind, ends_handle]
    exact ⟨fun _ some => (by cases hh.symm.trans some), fun _ => .unmoved nofun nofun⟩
  | some h => exact (ends_detach hh).mono (fun _ _ => .detached) fun _ _ hf => hf.elim

theorem faithful_start (t : Nat) : (Command.start t).Faithful s := by
  refine faithful_quietly rfl ?_
  rw [start, ends_bind, ends_handle]
  refine ⟨?_, fun _ => .unmoved nofun nofun⟩
  intro h hh
  rw [ends_bind, ends_demand]
  refine ⟨?_, fun _ => .unmoved nofun nofun⟩
  intro hmain
  rw [ends_bind, ends_demand]
  refine ⟨?_, fun _ => .unmoved nofun nofun⟩
  intro hnone
  rw [ends_bind, ends_get, ends_bind, ends_ofAttempt]
  refine ⟨?_, fun _ _ => .unmoved nofun nofun⟩
  intro nursery hn
  refine .started hmain (by rw [hh]; rfl) ?_ hn ((((Session.Agrees.refl _).count _).emit _).note _)
  rw [Session.tx?_of_handle? hh]
  exact Option.isNone_iff_eq_none.1 hnone

theorem faithful_abort (t : Nat) : (Command.abort t).Faithful s := by
  refine faithful_quietly rfl ?_
  rw [abort, ends_bind]
  refine ends_openTx ?_ fun _ _ => .unmoved nofun nofun
  intro tx htx
  rw [ends_bind, ends_demand]
  refine ⟨?_, fun _ => .unmoved nofun nofun⟩
  intro hphase
  exact .aborted htx hphase ((((Session.Agrees.refl _).count _).emit _).note _)

theorem requirePhase_eq_ok {tx : Transaction} {operation : String} {phase : Phase} {u : Unit} :
    tx.requirePhase operation phase = .ok u ↔ tx.phase = phase :=
  Attempt.demand_eq_ok

theorem faithful_finish (t : Nat) : (Command.finish t).Faithful s := by
  refine faithful_map rfl ?_
  rw [finish, ends_bind]
  refine ends_openTx ?_ fun _ _ => .unmoved nofun nofun
  intro tx htx
  rw [ends_bind, ends_ofAttempt]
  refine ⟨?_, fun _ _ => .unmoved nofun nofun⟩
  intro _ hphase
  exact .finished htx (requirePhase_eq_ok.1 hphase)
    ((((((Session.Agrees.refl _).count _).emit _).emit _).note _))

/-! ### Allocation and stores -/

theorem faithful_bump (t size : Nat) : (Command.bump t size).Faithful s := by
  refine faithful_map rfl ?_
  rw [bump, ends_bind, ends_handle]
  refine ⟨?_, fun _ => .unmoved nofun nofun⟩
  intro _ _
  by_cases hmain : t = mainThread
  · subst hmain
    rw [if_pos rfl, ends_bind, ends_get, ends_bind, ends_ofAttempt]
    exact ⟨fun ⟨addr, shared⟩ ha => .bumpedShared ha (.refl _), fun _ _ => .unmoved nofun nofun⟩
  · rw [if_neg hmain, ends_bind]
    refine ends_openTx ?_ fun _ _ => .unmoved nofun nofun
    intro tx htx
    rw [ends_bind, ends_ofAttempt]
    exact ⟨fun ⟨addr, nursery⟩ ha => .bumped hmain htx ha (.refl _), fun _ _ => .unmoved nofun nofun⟩

theorem faithful_create (t typeId : Nat) : (Command.create t typeId).Faithful s := by
  refine faithful_map rfl ?_
  rw [create, ends_bind, ends_handle]
  refine ⟨?_, fun _ => .unmoved nofun nofun⟩
  intro _ _
  rw [ends_bind, ends_get, ends_bind, ends_ofAttempt]
  refine ⟨?_, fun _ _ => .unmoved nofun nofun⟩
  intro size hsize
  rw [ends_bind, placeObject]
  by_cases hmain : t = mainThread
  · subst hmain
    rw [if_pos rfl, ends_bind, ends_get, ends_bind, ends_ofAttempt]
    exact ⟨fun ⟨obj, shared⟩ hp => .createdShared hsize hp ((Session.Agrees.refl _).note _),
      fun _ _ => .unmoved nofun nofun⟩
  · rw [if_neg hmain, ends_bind]
    refine ends_openTx ?_ fun _ _ => .unmoved nofun nofun
    intro tx htx
    rw [ends_bind, ends_ofAttempt]
    refine ⟨?_, fun _ _ => .unmoved nofun nofun⟩
    intro _ hphase
    rw [ends_bind, ends_ofAttempt]
    exact ⟨fun ⟨obj, nursery⟩ hp =>
        .created hmain htx (requirePhase_eq_ok.1 hphase) hsize hp ((Session.Agrees.refl _).note _),
      fun _ _ => .unmoved nofun nofun⟩

/-- Where an object lies, as its reader sees it. -/
theorem locate_eq_ok {h : Handle} {heap : Heap} {obj : Nat} {l : Location} (hl : h.locate heap obj = .ok l) :
    (l = .nursery ∧ ∃ tx, h.tx = some tx ∧ tx.nursery.contains obj = true) ∨
      (l = .shared ∧ heap.spaceOf obj = .shared ∧ ∀ tx, h.tx = some tx → tx.nursery.contains obj = false) := by
  unfold Handle.locate at hl
  by_cases hs : h.sees obj = true
  · rw [if_pos hs] at hl
    cases hl
    exact .inl ⟨rfl, by simpa [Handle.sees, Option.any_eq_true] using hs⟩
  · rw [if_neg hs] at hl
    by_cases hsp : heap.spaceOf obj = .shared
    · rw [if_pos hsp] at hl
      cases hl
      refine .inr ⟨rfl, hsp, ?_⟩
      intro tx htx
      simpa [Handle.sees, htx] using hs
    · rw [if_neg hsp] at hl
      exact absurd hl Attempt.refuse_ne_ok

theorem faithful_write (t obj offset value : Nat) : (Command.write t obj offset value).Faithful s := by
  refine faithful_quietly rfl ?_
  rw [writeWord, ends_bind, query, ends_bind, ends_handle]
  refine ⟨?_, fun _ => .unmoved nofun nofun⟩
  intro h hh
  rw [ends_bind, ends_get, ends_ofAttempt]
  refine ⟨?_, fun _ _ => .unmoved nofun nofun⟩
  intro l hl
  rcases locate_eq_ok hl with ⟨rfl, tx, htx, hin⟩ | ⟨rfl, hspace, -⟩
  · show Ends (writePrivate t obj offset value) s _ _
    rw [writePrivate, ends_bind]
    refine ends_openTx ?_ fun _ _ => .unmoved nofun nofun
    intro tx' htx'
    rw [Session.tx?_of_handle? hh, htx] at htx'
    cases htx'
    rw [ends_bind, ends_get, ends_bind, ends_ofAttempt]
    refine ⟨?_, fun _ _ => .unmoved nofun nofun⟩
    intro addr haddr
    rw [ends_bind, ends_ofAttempt]
    refine ⟨?_, fun _ _ => .unmoved nofun nofun⟩
    intro _ hphase
    rw [ends_bind, ends_ofAttempt]
    exact ⟨fun nursery hw => .wrote (by rw [Session.tx?_of_handle? hh, htx]) (requirePhase_eq_ok.1 hphase) hin haddr hw
      (.refl _), fun _ _ => .unmoved nofun nofun⟩
  · show Ends (if t = mainThread then writeShared obj offset value else _) s _ _
    by_cases hmain : t = mainThread
    · subst hmain
      rw [if_pos rfl, writeShared, ends_bind, ends_get, ends_bind, ends_ofAttempt]
      refine ⟨?_, fun _ _ => .unmoved nofun nofun⟩
      intro addr haddr
      rw [ends_bind, ends_ofAttempt]
      exact ⟨fun shared hw => .wroteShared hspace haddr hw (.refl _), fun _ _ => .unmoved nofun nofun⟩
    · rw [if_neg hmain, ends_bind, ends_note, ends_violate]
      exact .refused (not_prepares nofun) (not_applies nofun) ((Session.Agrees.refl _).note _)

/-! ### Working copies and tokens -/

/-- The second value of a transaction for a thread is the one that counts. -/
theorem setTx_setTx (t : Nat) (tx tx' : Option Transaction) : (s.setTx t tx).setTx t tx' = s.setTx t tx' := by
  simp only [Session.setTx, List.map_map]
  congr 1
  refine List.map_congr_left ?_
  intro h _
  by_cases e : h.thread = t <;> simp [e]

/-- Room for a copy was taken, but the shared bytes are not all handed out. -/
inductive Stranded (s : Session) (t obj : Nat) (tx : Transaction) : Failure → Session → Prop
  | short {h : Header} {size copy : Nat} {grown : Arena} : s.heap.shared.header obj = .ok h → h.isGlobal = true →
      s.heap.layout.objectSize h.typeId = .ok size → tx.nursery.allocate size = .ok (copy, grown) →
      ¬ s.heap.shared.Spans obj size →
      Stranded s t obj tx (.refused (.invalidAccess obj size)) (s.setTx t (some { tx with nursery := grown }))

/-- How the copy of an object is made that the transaction has not copied yet. -/
theorem ends_makeCopy {t obj : Nat} {tx : Transaction} (hnone : tx.objects.copyOf? obj = none) :
    Ends (makeCopy t obj tx) s
      (fun copy s' => ∃ h size grown, s.heap.shared.header obj = .ok h ∧ h.isGlobal = true ∧
        s.heap.layout.objectSize h.typeId = .ok size ∧ tx.nursery.allocate size = .ok (copy, grown) ∧
        s.heap.shared.Spans obj size ∧
        ((s.setTx t (some { tx with
              nursery := { grown with
                memory := (grown.memory.write copy (s.heap.shared.memory.read obj size)).setHeaderAt copy
                  (copyHeader h.typeId obj) }
              objects := ⟨tx.objects.pairs ++ [(obj, copy)]⟩ })).setShared
            { s.heap.shared with memory := s.heap.shared.memory.setHeaderAt obj h.markCopied }).Agrees s')
      fun f s' => s' = s ∨ Stranded s t obj tx f s' := by
  rw [makeCopy, ends_bind, ends_get, ends_bind, ends_ofAttempt]
  refine ⟨?_, fun _ _ => .inl rfl⟩
  intro header hheader
  rw [ends_bind, ends_demand]
  refine ⟨?_, fun _ => .inl rfl⟩
  intro hglobal
  rw [ends_bind, ends_ofAttempt]
  refine ⟨?_, fun _ _ => .inl rfl⟩
  intro size hsize
  rw [ends_bind, ends_ofAttempt]
  refine ⟨fun ⟨copy, grown⟩ halloc => ?_, fun _ _ => .inl rfl⟩
  obtain ⟨rfl, grew⟩ := Arena.grew_of_allocate halloc
  rw [ends_bind, ends_setTx, ends_bind, ends_ofAttempt]
  refine ⟨?_, fun f hf => .inr ?_⟩
  · intro bytes hbytes
    obtain ⟨hspans, rfl⟩ := Arena.read_eq_ok.1 hbytes
    have room : grown.Spans tx.nursery.freePointer headerSize :=
      Arena.spans_of_grew grew (Layout.headerSize_le_objectSize hsize)
    -- the room just taken can be written, and the map has no copy of the object yet
    rw [ends_bind]
    refine ends_ofAttempt_ok
      (Arena.write_eq_ok.2 ⟨Arena.spans_of_grew grew (Nat.le_of_eq (Memory.length_read ..)), rfl⟩) ?_
    rw [ends_bind]
    refine ends_ofAttempt_ok (Arena.setHeader_eq_ok.2 ⟨room, rfl⟩) ?_
    rw [ends_bind]
    refine ends_ofAttempt_ok (a := ⟨tx.objects.pairs ++ [(obj, _)]⟩) (by rw [ObjectMap.insert, hnone]) ?_
    rw [ends_bind, ends_setTx, ends_bind]
    refine ends_ofAttempt_ok (Arena.setHeader_eq_ok.2 ⟨(Arena.header_eq_ok.1 hheader).1, rfl⟩) ?_
    refine ⟨header, size, grown, hheader, hglobal, hsize, halloc, hspans, ?_⟩
    rw [setTx_setTx]
    exact ((Session.Agrees.refl _).count _).note _
  · obtain ⟨hspans, rfl⟩ := Arena.read_eq_error.1 hf
    exact .short hheader hglobal hsize halloc hspans

/-- A call for a working copy is refused at the door, or answers with the object as it is, or comes to the object map. -/
theorem ends_copyOnWrite {t obj : Nat} {ok : Nat → Session → Prop} {bad : Failure → Session → Prop}
    (refused : ∀ f, bad f s) (uncopied : ok obj s)
    (asked : ∀ tx, t ≠ mainThread → s.tx? t = some tx → tx.phase = .active → tx.nursery.contains obj = false →
      s.heap.spaceOf obj = .shared → Ends (match tx.objects.copyOf? obj with
        | some copy => pure copy
        | none => makeCopy t obj tx) s ok bad) : Ends (copyOnWrite t obj) s ok bad := by
  rw [copyOnWrite, ends_bind, ends_handle]
  refine ⟨?_, fun _ => refused _⟩
  intro h hh
  by_cases hmain : t = mainThread
  · rw [if_pos hmain]
    exact uncopied
  rw [if_neg hmain, ends_bind, ends_get, ends_bind, ends_ofAttempt]
  refine ⟨?_, fun f _ => refused f⟩
  intro l hl
  rcases locate_eq_ok hl with ⟨rfl, -⟩ | ⟨rfl, hspace, hout⟩
  · exact uncopied
  show Ends (openTx t "materialize" >>= _) s _ _
  rw [ends_bind]
  refine ends_openTx ?_ fun _ f => refused f
  intro tx htx
  rw [ends_bind, ends_ofAttempt]
  refine ⟨?_, fun f _ => refused f⟩
  intro _ hphase
  exact asked tx hmain htx (requirePhase_eq_ok.1 hphase) (hout tx (by rw [← Session.tx?_of_handle? hh, htx])) hspace

theorem faithful_copyOnWrite (t obj : Nat) : (Command.copyOnWrite t obj).Faithful s := by
  refine faithful_map rfl (ends_copyOnWrite (fun _ => .unmoved nofun nofun) (.uncopied (.refl s)) ?_)
  intro tx hmain htx hactive hout hspace
  cases hcopy : tx.objects.copyOf? obj with
  | some copy => exact .recopied hmain htx hactive hout hspace hcopy (.refl s)
  | none =>
    refine (ends_makeCopy hcopy).mono ?_ ?_
    · rintro copy s' ⟨header, size, grown, hheader, hglobal, hsize, halloc, hspans, agrees⟩
      exact .copied hmain htx hactive hout hspace hcopy hheader hglobal hsize halloc hspans agrees
    · rintro f s' (rfl | ⟨-, -, -, halloc, -⟩)
      · exact .unmoved nofun nofun
      · exact .stranded hmain htx hactive halloc (.refl _)

/-- A question for a token is refused at the door, or answered with what is known, or comes to a fresh object. -/
theorem ends_tokenOf {t obj : Nat} {ok : Nat → Session → Prop} {bad : Failure → Session → Prop}
    (refused : ∀ f, bad f s) (known : ∀ k, ok k s)
    (fresh : ∀ tx, s.tx? t = some tx → Ends (freshToken t obj tx) s ok bad) : Ends (tokenOf t obj) s ok bad := by
  rw [tokenOf, ends_bind, query, ends_bind, ends_handle]
  refine ⟨?_, fun _ => refused _⟩
  intro h hh
  rw [ends_bind, ends_get, ends_ofAttempt]
  refine ⟨?_, fun f _ => refused f⟩
  intro l _
  cases l with
  | shared => exact known _
  | nursery =>
    show Ends (openTx t "identity" >>= _) s _ _
    rw [ends_bind]
    refine ends_openTx ?_ fun _ f => refused f
    intro tx htx
    rw [ends_bind, ends_ofAttempt]
    refine ⟨?_, fun f _ => refused f⟩
    intro header _
    cases header.version.address? with
    | some shared => exact known _
    | none => exact fresh tx htx

theorem faithful_token (t obj : Nat) : (Command.token t obj).Faithful s := by
  refine faithful_map rfl (ends_tokenOf (fun _ => .unmoved nofun nofun) (fun _ => .answered trivial (.refl s)) ?_)
  intro tx htx
  rw [freshToken]
  cases htoken : tx.tokens.get? obj with
  | some token => exact .answered trivial (.refl s)
  | none =>
    show Ends (get >>= _) s _ _
    rw [ends_bind, ends_get, Heap.issueToken]
    dsimp only
    by_cases room : nurseryStart ≤ s.heap.nextToken
    · rw [if_pos room]
      exact .exhausted room ⟨rfl, rfl, rfl, rfl, rfl, rfl, rfl⟩
    · rw [if_neg room]
      exact .tokenIssued htx htoken (Nat.lt_of_not_le room) ⟨rfl, rfl, rfl, rfl, rfl, rfl, rfl⟩

/-! ### The steps of a commit -/

theorem faithful_prepare (t : Nat) : (Command.prepare t).Faithful s := by
  refine faithful_map rfl ?_
  rw [prepare, ends_bind]
  have quiet : ∀ f, (∀ tx, s.tx? t = some tx → tx.phase ≠ .active) → Effect s (.prepare t) (.error f) s :=
    fun f hq => .refused (fun ⟨t', tx, e, htx, hp⟩ => by cases e; exact hq tx htx hp) (not_applies nofun) (.refl s)
  refine ends_openTx ?_ fun hn f => quiet f fun tx htx => by rw [hn] at htx; cases htx
  intro tx htx
  rw [ends_bind, ends_ofAttempt]
  refine ⟨?_, fun f hphase => quiet f ?_⟩
  · intro _ hphase
    have hactive := requirePhase_eq_ok.1 hphase
    unfold Ends runPreparation
    cases hrun : Prepare.run s.heap.layout t (.ofHeap s.heap tx) with
    | ok report p => exact .prepared htx hactive hrun ((Session.Agrees.refl _).note _)
    | error f p =>
      cases f with
      | refused cause => exact .prepareFailed htx hactive hrun ((Session.Agrees.refl _).note _)
      | overflow | fatal | detached => exact .prepareStopped htx hactive nofun hrun (.refl _)
  · intro tx' htx' e
    rw [htx] at htx'
    cases htx'
    rw [(requirePhase_eq_ok (u := ())).2 e] at hphase
    cases hphase

theorem faithful_apply (t : Nat) : (Command.apply t).Faithful s := by
  refine faithful_quietly rfl ?_
  rw [apply, ends_bind]
  have quiet : ∀ f, (∀ tx, s.tx? t = some tx → tx.phase ≠ .prepared) → Effect s (.apply t) (.error f) s :=
    fun f hq => .refused (not_prepares nofun) (fun ⟨t', tx, e, htx, hp⟩ => by cases e; exact hq tx htx hp) (.refl s)
  refine ends_openTx ?_ fun hn f => quiet f fun tx htx => by rw [hn] at htx; cases htx
  intro tx htx
  rw [ends_bind, ends_ofAttempt]
  refine ⟨?_, fun f hphase => quiet f ?_⟩
  · intro _ hphase
    have hprepared := requirePhase_eq_ok.1 hphase
    unfold Ends runOverwrite
    cases hrun : overwriteAll s.heap.layout tx tx.objects.pairs s.heap.shared with
    | ok _ shared => exact .applied htx hprepared hrun (.refl _)
    | error f shared =>
      cases f with
      | refused cause =>
        refine .applyStopped htx hprepared (.inl rfl) hrun rfl rfl rfl ?_
        intro t'
        by_cases e : t' = t
        · subst e
          rw [if_pos rfl]
          exact Session.tx?_setTx_self (s := s.setShared shared) (Session.handle?_isSome_of_tx? htx)
        · rw [if_neg e]
          exact Session.tx?_setTx_of_ne (s := s.setShared shared) e
      | overflow | fatal | detached =>
        refine .applyStopped htx hprepared (.inr rfl) hrun rfl rfl rfl ?_
        intro t'
        by_cases e : t' = t
        · rw [if_pos e, e]
          exact htx
        · rw [if_neg e]
          rfl
  · intro tx' htx' e
    rw [htx] at htx'
    cases htx'
    rw [(requirePhase_eq_ok (u := ())).2 e] at hphase
    cases hphase

theorem step_effect {c : Command} (h : ∀ t, c ≠ .commit t) : Effect s c (s.step c).1 (s.step c).2 := by
  refine Command.Faithful.step ?_
  cases c with
  | attachMain => exact faithful_attachMain
  | attachWorker => exact faithful_attachWorker
  | detach t => exact faithful_detach t
  | start t => exact faithful_start t
  | abort t => exact faithful_abort t
  | prepare t => exact faithful_prepare t
  | apply t => exact faithful_apply t
  | finish t => exact faithful_finish t
  | commit t => exact absurd rfl (h t)
  | bump t size => exact faithful_bump t size
  | create t typeId => exact faithful_create t typeId
  | copyOnWrite t obj => exact faithful_copyOnWrite t obj
  | read t obj offset => exact faithful_query trivial rfl
  | write t obj offset value => exact faithful_write t obj offset value
  | header t obj => exact faithful_query trivial rfl
  | canonical t obj => exact faithful_query trivial rfl
  | token t obj => exact faithful_token t obj
  | setEvents enabled => exact faithful_setting trivial rfl ⟨rfl, rfl, rfl, rfl, rfl, rfl, rfl⟩
  | clearEvents => exact faithful_setting trivial rfl ⟨rfl, rfl, rfl, rfl, rfl, rfl, rfl⟩
  | configureLog config => exact faithful_setting trivial rfl ⟨rfl, rfl, rfl, rfl, rfl, rfl, rfl⟩

/-- The prepare of an active transaction ends as its preparation does. -/
theorem ends_step_prepare {t : Nat} {tx : Transaction} (htx : s.tx? t = some tx) (active : tx.phase = .active) :
    Ends (Prepare.run s.heap.layout t) (.ofHeap s.heap tx)
      (fun report p => ∃ s', s.step (.prepare t) = (.ok (.report report), s') ∧
        (s.adopt t p fun tx => { tx with phase := .prepared, report }).Agrees s')
      fun f _ => ∃ s', s.step (.prepare t) = (.error f, s') := by
  have e : Effect s (.prepare t) _ _ := step_effect nofun
  cases hp : s.step (.prepare t) with
  | mk o s' =>
  rw [hp] at e
  cases e with
  | refused idle => exact absurd ⟨t, tx, rfl, htx, active⟩ idle
  | answered asks => exact asks.elim
  | attached hc => rcases hc with hc | hc <;> cases hc
  | prepared htx' _ hrun agrees =>
    cases htx.symm.trans htx'
    rw [Ends, hrun]
    exact ⟨s', rfl, agrees⟩
  | prepareFailed htx' _ hrun | prepareStopped htx' _ _ hrun =>
    cases htx.symm.trans htx'
    rw [Ends, hrun]
    exact ⟨s', rfl⟩

theorem outcome_prepare {t : Nat} {tx : Transaction} (htx : s.tx? t = some tx) (active : tx.phase = .active) :
    (s.step (.prepare t)).1 = match Prepare.run s.heap.layout t (.ofHeap s.heap tx) with
      | .ok report _ => .ok (.report report)
      | .error f _ => .error f := by
  have ends := ends_step_prepare htx active
  cases hrun : Prepare.run s.heap.layout t (.ofHeap s.heap tx) with
  | ok report p =>
    obtain ⟨s', hp, -⟩ := ends.of_ok hrun
    rw [hp]
  | error f p =>
    obtain ⟨s', hp⟩ := ends.of_error hrun
    rw [hp]

end TxHeap

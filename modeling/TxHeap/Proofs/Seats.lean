/-
  TxHeap.Proofs.Seats — no two attached threads go by one number.

  A number is with an attached thread or in the table of those given back, never in both and
  never twice, and the numbers that were not given out yet are larger (`Threads.Tells`). Only
  attaching and detaching touch either (`Effect.sameSeats`); so the window of a worker is its own,
  also when the number was another's before.
-/
import TxHeap.Proofs.Ground

namespace TxHeap

def Session.seats (s : Session) : List Nat := s.handles.map (·.thread)

/-- The table tells whose numbers these are: no number is taken twice, and those given back are in no use. -/
structure Threads.Tells (threads : Threads) (seats : List Nat) : Prop where
  once : (seats ++ threads.free).Nodup
  given : ∀ t ∈ seats ++ threads.free, t < threads.nextWorker
  /-- The main thread's number is not for workers. -/
  workers : mainThread ∉ threads.free
  main : mainThread ∈ seats → threads.mainAttached = true
  first : mainThread < threads.nextWorker
  limit : threads.nextWorker < idLimit

namespace Threads

variable {threads threads' : Threads} {seats : List Nat} {maxWorkers t : Nat}

theorem tells_none : none.Tells [] := ⟨.nil, nofun, nofun, nofun, by decide, by decide⟩

theorem Tells.attachMain (h : threads.Tells seats) (ha : threads.attachMain = .ok threads') :
    threads'.Tells (seats ++ [mainThread]) := by
  unfold Threads.attachMain at ha
  split at ha
  · cases ha
  · rename_i free
    cases ha
    have absent : mainThread ∉ seats ++ threads.free := by
      rw [List.mem_append]
      rintro (hm | hm)
      · exact free (h.main hm)
      · exact h.workers hm
    refine ⟨?_, ?_, h.workers, fun _ => rfl, h.first, h.limit⟩
    · rw [List.append_assoc, List.singleton_append, List.perm_middle.nodup_iff]
      exact List.nodup_cons.mpr ⟨absent, h.once⟩
    · intro t ht
      rw [List.append_assoc, List.singleton_append, List.perm_middle.mem_iff, List.mem_cons] at ht
      rcases ht with rfl | ht
      · exact h.first
      · exact h.given t ht

theorem Tells.attachWorker (h : threads.Tells seats) (ha : threads.attachWorker maxWorkers = .ok (t, threads')) :
    threads'.Tells (seats ++ [t]) := by
  have main : mainThread ∈ seats ++ [t] → t ≠ mainThread → threads.mainAttached = true := by
    intro hm ne
    rcases List.mem_append.mp hm with hm | hm
    · exact h.main hm
    · exact absurd (List.mem_singleton.mp hm).symm ne
  unfold Threads.attachWorker at ha
  split at ha
  · rename_i worker free reused
    cases ha
    have once := h.once
    have given := h.given
    have workers := h.workers
    rw [reused] at once given workers
    have moved : ((seats ++ [t]) ++ free) = seats ++ t :: free := List.append_assoc ..
    refine ⟨?_, ?_, fun hm => workers (List.mem_cons_of_mem _ hm), fun hm => main hm ?_, h.first, h.limit⟩
    · rw [moved]
      exact once
    · rw [moved]
      exact given
    · rintro rfl
      exact workers List.mem_cons_self
  · rename_i unused
    split at ha
    · cases ha
    · split at ha
      · cases ha
      · rename_i limit
        cases ha
        have once := h.once
        have given := h.given
        rw [unused, List.append_nil] at once given
        refine ⟨?_, ?_, ?_, fun hm => main hm (Nat.ne_of_gt h.first), Nat.lt_succ_of_lt h.first, Nat.lt_of_not_le limit⟩
        · rw [unused, List.append_nil]
          refine List.nodup_append.mpr ⟨once, List.pairwise_singleton _ _, ?_⟩
          intro x hx y hy e
          have := given x hx
          rw [List.mem_singleton.mp hy] at e
          omega
        · rw [unused, List.append_nil]
          intro x hx
          rcases List.mem_append.mp hx with hx | hx
          · exact Nat.lt_succ_of_lt (given x hx)
          · rw [List.mem_singleton.mp hx]
            exact Nat.lt_succ_self _
        · rw [unused]
          exact nofun

theorem Tells.detach (h : threads.Tells seats) (ht : t ∈ seats) : (threads.detach t).Tells (seats.filter (· != t)) := by
  have gone : t ∉ seats.filter (· != t) := fun hm => by simpa using (List.mem_filter.mp hm).2
  have fewer : (seats.filter (· != t) ++ threads.free).Sublist (seats ++ threads.free) :=
    List.filter_sublist.append_right _
  have once : (seats.filter (· != t) ++ threads.free).Nodup := h.once.sublist fewer
  have given : ∀ x ∈ seats.filter (· != t) ++ threads.free, x < threads.nextWorker := fun x hx => h.given x (fewer.mem hx)
  unfold Threads.detach
  by_cases e : t = mainThread
  · subst e
    rw [if_pos rfl]
    exact ⟨once, given, h.workers, fun hm => absurd hm gone, h.first, h.limit⟩
  · rw [if_neg e]
    have spare : t ∉ threads.free := fun hf => (List.nodup_append.mp h.once).2.2 t ht t hf rfl
    refine ⟨?_, ?_, ?_, fun hm => h.main (List.mem_filter.mp hm).1, h.first, h.limit⟩
    · rw [List.perm_middle.nodup_iff]
      refine List.nodup_cons.mpr ⟨?_, once⟩
      rw [List.mem_append]
      rintro (hm | hm)
      · exact gone hm
      · exact spare hm
    · intro x hx
      rw [List.perm_middle.mem_iff, List.mem_cons] at hx
      rcases hx with rfl | hx
      · exact h.given _ (List.mem_append_left _ ht)
      · exact given x hx
    · rw [List.mem_cons]
      rintro (hm | hm)
      · exact e hm.symm
      · exact h.workers hm

/-- What a call can do to who is attached, and by which table: nothing, or one thread comes or goes. -/
inductive Moves (maxWorkers : Nat) (threads : Threads) (seats : List Nat) : Threads → List Nat → Prop
  | stay : Moves maxWorkers threads seats threads seats
  | main {threads' : Threads} : threads.attachMain = .ok threads' →
      Moves maxWorkers threads seats threads' (seats ++ [mainThread])
  | worker {t : Nat} {threads' : Threads} : threads.attachWorker maxWorkers = .ok (t, threads') →
      Moves maxWorkers threads seats threads' (seats ++ [t])
  | leave {t : Nat} : t ∈ seats → Moves maxWorkers threads seats (threads.detach t) (seats.filter (· != t))

theorem Tells.moves {seats' : List Nat} (h : threads.Tells seats) (m : threads.Moves maxWorkers seats threads' seats') :
    threads'.Tells seats' := by
  cases m with
  | stay => exact h
  | main ha => exact h.attachMain ha
  | worker ha => exact h.attachWorker ha
  | leave ht => exact h.detach ht

end Threads

def Seated (s : Session) : Prop := s.heap.threads.Tells s.seats

open Step TxHeap.Action

section

variable {s s' : Session} {c : Command} {o : Outcome} {t : Nat} {threads : Threads}

theorem seats_setTx (tx : Option Transaction) : (s.setTx t tx).seats = s.seats := by
  rw [Session.seats, Session.setTx, List.map_map, Session.seats]
  refine List.map_congr_left fun h _ => ?_
  rw [Function.comp_apply]
  split <;> rfl

structure Session.SameSeats (s s' : Session) : Prop where
  seats : s'.seats = s.seats
  threads : s'.heap.threads = s.heap.threads
  config : s'.heap.config = s.heap.config

theorem Session.SameSeats.refl (s : Session) : s.SameSeats s := ⟨rfl, rfl, rfl⟩

theorem Session.SameSeats.trans {s'' : Session} (h : s.SameSeats s') (h' : s'.SameSeats s'') : s.SameSeats s'' :=
  ⟨h'.seats.trans h.seats, h'.threads.trans h.threads, h'.config.trans h.config⟩

theorem Session.Agrees.sameSeats (agrees : s.Agrees s') : s.SameSeats s' :=
  ⟨congrArg (List.map Handle.thread) agrees.handles, agrees.threads, agrees.config⟩

theorem sameSeats_setTx (s : Session) (t : Nat) (tx : Option Transaction) : s.SameSeats (s.setTx t tx) :=
  ⟨seats_setTx tx, rfl, rfl⟩

theorem sameSeats_setShared {shared : Arena} : s.SameSeats (s.setShared shared) := ⟨rfl, rfl, rfl⟩

theorem sameSeats_advance (s : Session) : s.SameSeats s.advance := ⟨rfl, rfl, rfl⟩

theorem sameSeats_adopt (s : Session) (t : Nat) (p : Preparation) (settle : Transaction → Transaction) :
    s.SameSeats (s.adopt t p settle) :=
  ⟨seats_setTx _, rfl, rfl⟩

def Command.Moves : Command → Prop
  | .attachMain | .attachWorker | .detach _ => True
  | _ => False

/-- A call that neither attaches nor detaches leaves everybody where he is. -/
theorem Effect.sameSeats (e : Effect s c o s') (stays : ¬ c.Moves) (apply : ∀ t, c ≠ .apply t) : s.SameSeats s' := by
  cases e with
  | refused _ _ agrees | answered _ agrees | uncopied agrees | recopied _ _ _ _ _ _ agrees => exact agrees.sameSeats
  | exhausted _ agrees => exact (sameSeats_advance s).trans agrees.sameSeats
  | bumpedShared _ agrees | createdShared _ _ agrees | wroteShared _ _ _ agrees =>
    exact sameSeats_setShared.trans agrees.sameSeats
  | tokenIssued _ _ _ agrees => exact (sameSeats_advance s).trans ((sameSeats_setTx s.advance _ _).trans agrees.sameSeats)
  | started _ _ _ _ agrees | aborted _ _ agrees | finished _ _ agrees | bumped _ _ _ agrees | created _ _ _ _ _ agrees
  | stranded _ _ _ _ agrees | wrote _ _ _ _ _ agrees =>
    exact (sameSeats_setTx s _ _).trans agrees.sameSeats
  | copied _ _ _ _ _ _ _ _ _ _ _ agrees =>
    exact (sameSeats_setTx s _ _).trans (sameSeats_setShared.trans agrees.sameSeats)
  | prepared _ _ _ agrees | prepareFailed _ _ _ agrees | prepareStopped _ _ _ _ agrees =>
    exact (sameSeats_adopt s _ _ _).trans agrees.sameSeats
  | attached hc => rcases hc with rfl | rfl <;> exact absurd trivial stays
  | detached => exact absurd trivial stays
  | applied | applyStopped => exact absurd rfl (apply _)

/-- So does an apply, of which the effect of a failure does not say it. -/
theorem sameSeats_apply (t : Nat) : s.SameSeats (s.step (.apply t)).2 := by
  refine step_of_ends (P := fun _ s' => s.SameSeats s') ?_
  show Ends (quietly (Action.apply t)) s _ _
  rw [ends_quietly, Action.apply, ends_bind]
  refine ends_openTx ?_ fun _ _ => ⟨rfl, rfl, rfl⟩
  intro tx _
  rw [ends_bind, ends_ofAttempt]
  refine ⟨?_, fun _ _ => ⟨rfl, rfl, rfl⟩⟩
  intro _ _
  unfold Ends runOverwrite
  cases overwriteAll s.heap.layout tx tx.objects.pairs s.heap.shared with
  | ok _ shared => exact ⟨seats_setTx _, rfl, rfl⟩
  | error f shared =>
    cases f with
    | refused cause => exact ⟨seats_setTx _, rfl, rfl⟩
    | overflow | fatal | detached => exact ⟨rfl, rfl, rfl⟩

/-! ## Every call moves one thread at most -/

structure Session.Moves (s s' : Session) : Prop where
  seats : s.heap.threads.Moves s.heap.config.maxWorkers s.seats s'.heap.threads s'.seats
  config : s'.heap.config = s.heap.config

theorem Session.SameSeats.moves (h : s.SameSeats s') : s.Moves s' where
  seats := by
    rw [h.threads, h.seats]
    exact .stay
  config := h.config

theorem seats_attach (t : Nat) : (s.withHandles threads (s.handles ++ [⟨t, none⟩])).seats = s.seats ++ [t] := List.map_append

theorem step_attachMain : s.step .attachMain = match s.heap.threads.attachMain with
    | .ok threads =>
      (.ok (.thread mainThread), (s.withHandles threads (s.handles ++ [⟨mainThread, none⟩])).note .mainAttached)
    | .error f => (.error f, s) := by
  rw [step_map rfl]
  cases ha : s.heap.threads.attachMain with
  | ok threads =>
    simp only [Action.attachMain, bind_apply, get_apply, ha, ofAttempt_ok, pure_apply]
    rfl
  | error f => simp only [Action.attachMain, bind_apply, get_apply, ha, ofAttempt_error, throw_apply]

theorem step_attachWorker : s.step .attachWorker = match s.heap.threads.attachWorker s.heap.config.maxWorkers with
    | .ok (t, threads) =>
      (.ok (.thread t), (s.withHandles threads (s.handles ++ [⟨t, none⟩])).note (.workerAttached t))
    | .error f => (.error f, s) := by
  rw [step_map rfl]
  cases ha : s.heap.threads.attachWorker s.heap.config.maxWorkers with
  | ok attached =>
    simp only [Action.attachWorker, bind_apply, get_apply, ha, ofAttempt_ok, pure_apply]
    rfl
  | error f => simp only [Action.attachWorker, bind_apply, get_apply, ha, ofAttempt_error, throw_apply]

theorem mem_seats_iff : t ∈ s.seats ↔ (s.handle? t).isSome = true := by
  rw [Session.handle?, List.find?_isSome, Session.seats, List.mem_map]
  simp only [beq_iff_eq]

theorem seats_detach (t : Nat) :
    (s.withHandles (s.heap.threads.detach t) (s.handles.filter (·.thread != t))).seats = s.seats.filter (· != t) := by
  rw [Session.seats, Session.seats, List.filter_map]
  rfl

/-- Whoever is attached can detach. -/
theorem step_detach (seat : t ∈ s.seats) : (s.step (.detach t)).1 = .ok .done ∧
    (s.withHandles (s.heap.threads.detach t) (s.handles.filter (·.thread != t))).SameSeats (s.step (.detach t)).2 := by
  obtain ⟨h, hh⟩ := Option.isSome_iff_exists.1 (mem_seats_iff.1 seat)
  have ends := ends_detach hh
  rw [step_quietly rfl]
  cases hd : Action.detach t s with
  | ok _ s' => exact ⟨rfl, (ends.of_ok hd).sameSeats⟩
  | error f s' => exact (ends.of_error hd).elim

/-- A thread that is not attached cannot, and nothing changes. -/
theorem step_detach_away (away : t ∉ s.seats) : s.step (.detach t) = (.error (.detached t), s) := by
  have hh : s.handle? t = none := by
    rw [mem_seats_iff, Option.not_isSome_iff_eq_none] at away
    exact away
  rw [step_quietly rfl]
  simp only [Action.detach, Action.handle, bind_apply, get_apply, hh, throw_apply]

theorem moves_attachMain : s.Moves (s.step .attachMain).2 := by
  rw [step_attachMain]
  cases ha : s.heap.threads.attachMain with
  | error f => exact (Session.SameSeats.refl s).moves
  | ok threads =>
    refine ⟨?_, rfl⟩
    show Threads.Moves _ _ _ threads (s.withHandles threads (s.handles ++ [⟨mainThread, none⟩])).seats
    rw [seats_attach]
    exact .main ha

theorem moves_attachWorker : s.Moves (s.step .attachWorker).2 := by
  rw [step_attachWorker]
  cases ha : s.heap.threads.attachWorker s.heap.config.maxWorkers with
  | error f => exact (Session.SameSeats.refl s).moves
  | ok attached =>
    obtain ⟨t, threads⟩ := attached
    refine ⟨?_, rfl⟩
    show Threads.Moves _ _ _ threads (s.withHandles threads (s.handles ++ [⟨t, none⟩])).seats
    rw [seats_attach]
    exact .worker ha

theorem moves_detach (t : Nat) : s.Moves (s.step (.detach t)).2 := by
  by_cases seat : t ∈ s.seats
  · obtain ⟨-, same⟩ := step_detach seat
    refine ⟨?_, same.config⟩
    rw [same.threads, same.seats, seats_detach]
    exact .leave seat
  · rw [step_detach_away seat]
    exact (Session.SameSeats.refl s).moves

theorem moves_step (hc : ∀ t, c ≠ .commit t) : s.Moves (s.step c).2 := by
  by_cases moves : c.Moves
  · cases c with
    | attachMain => exact moves_attachMain
    | attachWorker => exact moves_attachWorker
    | detach t => exact moves_detach t
    | _ => exact moves.elim
  · by_cases apply : ∃ t, c = .apply t
    · obtain ⟨t, rfl⟩ := apply
      exact (sameSeats_apply t).moves
    · exact ((step_effect hc).sameSeats moves fun t e => apply ⟨t, e⟩).moves

/-- What each coming and going of a thread keeps, every run keeps. -/
theorem moves_run {I : Threads → List Nat → Prop} 
    (kept : ∀ {threads seats threads' seats'}, I threads seats → threads.Moves s.heap.config.maxWorkers seats threads' seats' →
      I threads' seats') (h : I s.heap.threads s.seats) (cs : List Command) :
    I (s.run cs).2.heap.threads (s.run cs).2.seats ∧ (s.run cs).2.heap.config = s.heap.config := by
  induction cs generalizing s with
  | nil => exact ⟨h, rfl⟩
  | cons c cs ih =>
    have ⟨stepped, same⟩ : I (s.step c).2.heap.threads (s.step c).2.seats ∧ (s.step c).2.heap.config = s.heap.config :=
      Rule.any_divides.preserves (L := .empty)
        (I := fun s' _ => I s'.heap.threads s'.seats ∧ s'.heap.config = s.heap.config)
        (fun {s' _ _} held hc _ => by
          have moved := moves_step (s := s') hc
          refine ⟨kept held.1 ?_, moved.config.trans held.2⟩
          rw [← held.2]
          exact moved.seats)
        ⟨h, rfl⟩ trivial
    obtain ⟨run, same'⟩ := ih (fun {_ _ _ _} h m => kept h (same ▸ m)) stepped
    exact ⟨run, same'.trans same⟩

namespace Seated

/-- A call that is no commit keeps the table right. -/
theorem single (h : Seated s) (hc : ∀ t, c ≠ .commit t) : Seated (s.step c).2 :=
  Threads.Tells.moves h (moves_step hc).seats

theorem run (h : Seated s) (cs : List Command) : Seated (s.run cs).2 :=
  (moves_run (I := Threads.Tells) Threads.Tells.moves h cs).1

end Seated

theorem seated_create {config : Config} {layout : Layout} {log : EventLog}
    (h : Session.create config layout log = .ok s) : Seated s := by
  have new := new_of_create h
  rw [Seated, Session.seats, new.threads, new.handles]
  exact Threads.tells_none

/-- Each handle is found by its number. -/
theorem Seated.handle? (h : Seated s) {x : Handle} (hx : x ∈ s.handles) : s.handle? x.thread = some x := by
  have distinct : (s.handles.map (·.thread)).Nodup := (List.nodup_append.mp h.once).1
  rw [Session.handle?]
  generalize s.handles = handles at hx distinct
  induction handles with
  | nil => cases hx
  | cons y handles ih =>
    rw [List.map_cons, List.nodup_cons] at distinct
    rw [List.find?_cons]
    rcases List.mem_cons.mp hx with rfl | hx
    · rw [BEq.rfl]
    · have ne : (y.thread == x.thread) = false := by
        rw [beq_eq_false_iff_ne]
        exact fun e => distinct.1 (e ▸ List.mem_map_of_mem hx)
      rw [ne]
      exact ih hx distinct.2

/-- So is its transaction. -/
theorem Seated.tx? (h : Seated s) {x : Handle} (hx : x ∈ s.handles) : s.tx? x.thread = x.tx :=
  Session.tx?_of_handle? (h.handle? hx)

theorem Seated.thread_lt (h : Seated s) {x : Handle} (hx : x ∈ s.handles) : x.thread < idLimit :=
  Nat.lt_trans (h.given _ (List.mem_append_left _ (List.mem_map_of_mem hx))) h.limit

/-- No two handles have one number. -/
theorem Seated.distinct (h : Seated s) : s.handles.Pairwise fun x y => x.thread ≠ y.thread :=
  List.pairwise_map.1 (List.nodup_append.mp h.once).1

end

end TxHeap

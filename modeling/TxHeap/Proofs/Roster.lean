/-
  TxHeap.Proofs.Roster — no worker's number is shared, and none is lost.

  Every number that was given out is with an attached worker or can be given out again, and the
  table counts the workers it has out (`Threads.Complete`). With no number used twice
  (`Threads.Tells`) the numbers of both kinds are then `1 … nextWorker - 1`
  (`Threads.Roster`), so a worker finds a place exactly while there are fewer than the most
  (`Threads.attachWorker_iff`).
-/
import TxHeap.Proofs.Seats

namespace TxHeap

def workersOf (seats : List Nat) : List Nat := seats.filter (· != mainThread)

def Session.workers (s : Session) : List Nat := workersOf s.seats

section

variable {seats seats' : List Nat} {t : Nat}

theorem mem_workersOf : t ∈ workersOf seats ↔ t ∈ seats ∧ t ≠ mainThread := by
  rw [workersOf, List.mem_filter, bne_iff_ne]

theorem workersOf_main (seats : List Nat) : workersOf (seats ++ [mainThread]) = workersOf seats := by
  rw [workersOf, List.filter_append]
  exact List.append_nil _

theorem workersOf_worker (ne : t ≠ mainThread) (seats : List Nat) : workersOf (seats ++ [t]) = workersOf seats ++ [t] := by
  have worker : [t].filter (· != mainThread) = [t] := List.filter_eq_self.2 fun x hx => by
    rw [List.mem_singleton.1 hx, bne_iff_ne]
    exact ne
  rw [workersOf, List.filter_append, worker]
  rfl

theorem workersOf_leave (seats : List Nat) (t : Nat) :
    workersOf (seats.filter (· != t)) = (workersOf seats).filter (· != t) := by
  rw [workersOf, workersOf, List.filter_filter, List.filter_filter]
  simp only [Bool.and_comm]

/-- One worker less, where nobody sits twice. -/
theorem length_workersOf_leave (once : seats.Nodup) (seat : t ∈ seats) (ne : t ≠ mainThread) :
    (workersOf (seats.filter (· != t))).length + 1 = (workersOf seats).length := by
  have worker : t ∈ workersOf seats := mem_workersOf.2 ⟨seat, ne⟩
  have distinct : (workersOf seats).Nodup := once.filter _
  rw [workersOf_leave, ← List.Nodup.erase_eq_filter distinct t, List.length_erase_of_mem worker,
    Nat.sub_add_cancel (List.length_pos_of_mem worker)]

end

namespace Threads

variable {threads threads' : Threads} {seats seats' : List Nat} {maxWorkers t : Nat}

/-- Nobody is missing: what was given out is with somebody or given back, and the table counts those it has out. -/
structure Complete (maxWorkers : Nat) (threads : Threads) (seats : List Nat) : Prop where
  counted : threads.liveWorkers = (workersOf seats).length
  main : threads.mainAttached = true → mainThread ∈ seats
  kept : ∀ t, mainThread < t → t < threads.nextWorker → t ∈ seats ++ threads.free
  bounded : threads.nextWorker ≤ maxWorkers + 1

theorem complete_none (maxWorkers : Nat) : none.Complete maxWorkers [] :=
  ⟨rfl, nofun, fun _ first last => absurd last (Nat.not_lt.2 first), Nat.le_add_left ..⟩

/-! ## Attaching and detaching -/

theorem attachMain_iff (tells : threads.Tells seats) (h : threads.Complete maxWorkers seats) :
    (∃ threads', threads.attachMain = .ok threads') ↔ mainThread ∉ seats := by
  unfold Threads.attachMain
  split
  · rename_i attached
    exact ⟨nofun, fun away => absurd (h.main attached) away⟩
  · rename_i free
    exact ⟨fun _ seat => free (tells.main seat), fun _ => ⟨_, rfl⟩⟩

theorem Complete.attachMain (h : threads.Complete maxWorkers seats) (ha : threads.attachMain = .ok threads') :
    threads'.Complete maxWorkers (seats ++ [mainThread]) := by
  unfold Threads.attachMain at ha
  split at ha
  · cases ha
  · cases ha
    refine ⟨?_, fun _ => List.mem_append_right _ List.mem_cons_self, ?_, h.bounded⟩
    · rw [workersOf_main]
      exact h.counted
    · intro t first last
      rcases List.mem_append.1 (h.kept t first last) with seat | given
      · exact List.mem_append_left _ (List.mem_append_left _ seat)
      · exact List.mem_append_right _ given

/-- A new worker's number is no main thread's and in no use. -/
theorem Tells.attached_fresh (tells : threads.Tells seats) (ha : threads.attachWorker maxWorkers = .ok (t, threads')) :
    t ≠ mainThread ∧ t ∉ seats := by
  have attached := tells.attachWorker ha
  have fresh : t ∉ seats := fun seat =>
    (List.nodup_append.1 (List.nodup_append.1 attached.once).1).2.2 t seat t List.mem_cons_self rfl
  refine ⟨fun main => ?_, fresh⟩
  unfold Threads.attachWorker at ha
  split at ha
  · rename_i worker free reused
    cases ha
    exact tells.workers (by rw [reused, ← main]; exact List.mem_cons_self)
  · split at ha
    · cases ha
    · split at ha
      · cases ha
      · cases ha
        exact Nat.ne_of_gt tells.first main

theorem Complete.attachWorker (h : threads.Complete maxWorkers seats) (tells : threads.Tells seats)
    (ha : threads.attachWorker maxWorkers = .ok (t, threads')) : threads'.Complete maxWorkers (seats ++ [t]) := by
  obtain ⟨worker, -⟩ := tells.attached_fresh ha
  have counted : threads.liveWorkers + 1 = (workersOf (seats ++ [t])).length := by
    rw [workersOf_worker worker, List.length_append, List.length_singleton, h.counted]
  unfold Threads.attachWorker at ha
  split at ha
  · rename_i worker free reused
    cases ha
    refine ⟨counted, fun m => List.mem_append_left _ (h.main m), ?_, h.bounded⟩
    intro x first last
    have kept := h.kept x first last
    rw [reused] at kept
    rw [List.append_assoc]
    exact kept
  · rename_i unused
    split at ha
    · cases ha
    · rename_i room
      split at ha
      · cases ha
      · cases ha
        refine ⟨counted, fun m => List.mem_append_left _ (h.main m), ?_, Nat.succ_le_succ (Nat.not_lt.1 room)⟩
        intro x first last
        rcases Nat.lt_succ_iff_lt_or_eq.1 last with last | rfl
        · rcases List.mem_append.1 (h.kept x first last) with seat | given
          · exact List.mem_append_left _ (List.mem_append_left _ seat)
          · exact List.mem_append_right _ given
        · exact List.mem_append_left _ (List.mem_append_right _ List.mem_cons_self)

theorem Complete.detach (h : threads.Complete maxWorkers seats) (tells : threads.Tells seats) (seat : t ∈ seats) :
    (threads.detach t).Complete maxWorkers (seats.filter (· != t)) := by
  have stays : ∀ x ∈ seats, x ≠ t → x ∈ seats.filter (· != t) := fun x hx ne => List.mem_filter.2 ⟨hx, bne_iff_ne.2 ne⟩
  unfold Threads.detach
  by_cases e : t = mainThread
  · subst e
    rw [if_pos rfl]
    refine ⟨?_, nofun, ?_, h.bounded⟩
    · rw [workersOf_leave, h.counted]
      exact congrArg List.length (List.filter_eq_self.2 fun x hx => bne_iff_ne.2 (mem_workersOf.1 hx).2).symm
    · intro x first last
      rcases List.mem_append.1 (h.kept x first last) with seat | given
      · exact List.mem_append_left _ (stays x seat (Nat.ne_of_gt first))
      · exact List.mem_append_right _ given
  · rw [if_neg e]
    refine ⟨?_, fun m => stays _ (h.main m) (Ne.symm e), ?_, h.bounded⟩
    · have fewer := length_workersOf_leave (List.nodup_append.1 tells.once).1 seat e
      show threads.liveWorkers - 1 = _
      rw [h.counted, ← fewer, Nat.add_sub_cancel]
    · intro x first last
      rw [List.perm_middle.mem_iff, List.mem_cons]
      by_cases gone : x = t
      · exact .inl gone
      · right
        rcases List.mem_append.1 (h.kept x first last) with seat | given
        · exact List.mem_append_left _ (stays x seat gone)
        · exact List.mem_append_right _ given

theorem Complete.moves (h : threads.Complete maxWorkers seats) (tells : threads.Tells seats)
    (m : threads.Moves maxWorkers seats threads' seats') : threads'.Complete maxWorkers seats' := by
  cases m with
  | stay => exact h
  | main ha => exact h.attachMain ha
  | worker ha => exact h.attachWorker tells ha
  | leave seat => exact h.detach tells seat

/-! ## The roster -/

structure Roster (threads : Threads) (workers : List Nat) (maxWorkers : Nat) : Prop where
  once : workers.Nodup
  range : ∀ t ∈ workers, 1 ≤ t ∧ t ≤ maxWorkers
  counted : threads.liveWorkers = workers.length
  freeOnce : threads.free.Nodup
  apart : ∀ t ∈ workers, t ∉ threads.free
  /-- A number was given out just if it is a worker's or was given back. -/
  given : ∀ t, t ∈ workers ∨ t ∈ threads.free ↔ 1 ≤ t ∧ t < threads.nextWorker

theorem Complete.roster (h : threads.Complete maxWorkers seats) (tells : threads.Tells seats) :
    threads.Roster (workersOf seats) maxWorkers := by
  obtain ⟨once, freeOnce, apart⟩ := List.nodup_append.1 tells.once
  have below : ∀ t ∈ workersOf seats, 1 ≤ t ∧ t < threads.nextWorker := fun t ht =>
    have ⟨seat, worker⟩ := mem_workersOf.1 ht
    ⟨Nat.pos_of_ne_zero worker, tells.given t (List.mem_append_left _ seat)⟩
  refine ⟨once.filter _, ?_, h.counted, freeOnce, ?_, ?_⟩
  · intro t ht
    obtain ⟨first, last⟩ := below t ht
    have := h.bounded
    omega
  · intro t ht free
    exact apart t (mem_workersOf.1 ht).1 t free rfl
  · intro t
    constructor
    · rintro (worker | free)
      · exact below t worker
      · have worker : t ≠ mainThread := fun e => tells.workers (e ▸ free)
        exact ⟨Nat.pos_of_ne_zero worker, tells.given t (List.mem_append_right _ free)⟩
    · rintro ⟨first, last⟩
      rcases List.mem_append.1 (h.kept t first last) with seat | free
      · exact .inl (mem_workersOf.2 ⟨seat, Nat.ne_of_gt first⟩)
      · exact .inr free

/-- Each number that was given out is counted once. -/
theorem Roster.length {workers : List Nat} (h : threads.Roster workers maxWorkers) :
    workers.length + threads.free.length = threads.nextWorker - 1 := by
  have once : (workers ++ threads.free).Nodup :=
    List.nodup_append.2 ⟨h.once, h.freeOnce, fun t ht x hx e => h.apart t ht (e ▸ hx)⟩
  have all : (workers ++ threads.free).Perm (List.range' 1 (threads.nextWorker - 1)) := by
    refine (List.perm_ext_iff_of_nodup once List.nodup_range').2 fun t => ?_
    rw [List.mem_append, h.given, List.mem_range'_1]
    omega
  have := all.length_eq
  rwa [List.length_append, List.length_range'] at this

/-- There is a place for a new worker just while there are fewer than the most. -/
theorem attachWorker_iff (tells : threads.Tells seats) (h : threads.Complete maxWorkers seats)
    (numbers : maxWorkers < idLimit - 1) :
    (∃ attached, threads.attachWorker maxWorkers = .ok attached) ↔ (workersOf seats).length < maxWorkers := by
  have all := (h.roster tells).length
  have first : 0 < threads.nextWorker := tells.first
  have bounded := h.bounded
  unfold Threads.attachWorker
  split
  · rename_i worker free reused
    rw [reused, List.length_cons] at all
    exact ⟨fun _ => by omega, fun _ => ⟨_, rfl⟩⟩
  · rename_i unused
    rw [unused, List.length_nil] at all
    split
    · exact ⟨nofun, fun _ => by omega⟩
    · rw [if_neg (by omega)]
      exact ⟨fun _ => by omega, fun _ => ⟨_, rfl⟩⟩

end Threads

/-! ## Whoever attached and detached, in whatever order -/

section

variable {config : Config} {layout : Layout} {log : EventLog} {s : Session} {maxWorkers : Nat}

/-- Nobody is missing from the table of a session that was reached from a new heap. -/
theorem complete_run (created : Session.create config layout log = .ok s) (cs : List Command) :
    (s.run cs).2.heap.threads.Tells (s.run cs).2.seats ∧
      (s.run cs).2.heap.threads.Complete config.maxWorkers (s.run cs).2.seats ∧ (s.run cs).2.heap.config = config := by
  have new := new_of_create created
  have start : s.heap.threads.Tells s.seats ∧ s.heap.threads.Complete s.heap.config.maxWorkers s.seats := by
    rw [Session.seats, new.threads, new.handles]
    exact ⟨Threads.tells_none, Threads.complete_none _⟩
  obtain ⟨⟨tells, complete⟩, same⟩ := moves_run
    (I := fun threads seats => threads.Tells seats ∧ threads.Complete s.heap.config.maxWorkers seats)
    (fun h m => ⟨h.1.moves m, h.2.moves h.1 m⟩) start cs
  rw [new.config] at complete same
  exact ⟨tells, complete, same⟩

/-- A worker that attaches has a number nobody else has, and nobody else is touched. -/
theorem workers_attachWorker {t : Nat} (tells : s.heap.threads.Tells s.seats)
    (attached : (s.step .attachWorker).1 = .ok (.thread t)) :
    t ∉ s.workers ∧ (s.step .attachWorker).2.workers = s.workers ++ [t] := by
  rw [step_attachWorker] at attached ⊢
  cases ha : s.heap.threads.attachWorker s.heap.config.maxWorkers with
  | error f =>
    rw [ha] at attached
    cases attached
  | ok new =>
    rw [ha] at attached
    cases attached
    obtain ⟨worker, fresh⟩ := tells.attached_fresh ha
    refine ⟨fun seat => fresh (mem_workersOf.1 seat).1, ?_⟩
    show workersOf (s.withHandles new.2 (s.handles ++ [⟨new.1, none⟩])).seats = _
    rw [seats_attach, workersOf_worker worker, Session.workers]

/-- A worker that detaches is no longer counted, and nobody else is touched. -/
theorem workers_detach {t : Nat} (roster : s.heap.threads.Roster s.workers maxWorkers) (worker : t ∈ s.workers) :
    (s.step (.detach t)).1 = .ok .done ∧ (s.step (.detach t)).2.workers = s.workers.filter (· != t) ∧
      (s.step (.detach t)).2.heap.threads.liveWorkers + 1 = s.heap.threads.liveWorkers := by
  obtain ⟨seat, ne⟩ := mem_workersOf.1 worker
  obtain ⟨done, same⟩ := step_detach seat
  have live : 0 < s.heap.threads.liveWorkers := by
    rw [roster.counted]
    exact List.length_pos_of_mem worker
  refine ⟨done, ?_, ?_⟩
  · rw [Session.workers, same.seats, seats_detach, workersOf_leave, Session.workers]
  · rw [same.threads]
    show (s.heap.threads.detach t).liveWorkers + 1 = _
    rw [Threads.detach, if_neg ne]
    exact Nat.sub_add_cancel live

/-- An attach that fails changes nothing. -/
theorem step_attach_failed {c : Command} {f : Failure} (hc : c = .attachMain ∨ c = .attachWorker)
    (failed : (s.step c).1 = .error f) : (s.step c).2 = s := by
  rcases hc with rfl | rfl
  · rw [step_attachMain] at failed ⊢
    cases ha : s.heap.threads.attachMain with
    | ok threads =>
      rw [ha] at failed
      cases failed
    | error f => rfl
  · rw [step_attachWorker] at failed ⊢
    cases ha : s.heap.threads.attachWorker s.heap.config.maxWorkers with
    | ok attached =>
      rw [ha] at failed
      cases failed
    | error f => rfl

/--
Thread numbers are never shared or lost: whatever was called, the table has the numbers of the
workers right, a thread attaches just while there is a place for it, an attach that fails changes
nothing, and each worker that detaches was counted.
-/
theorem thread_numbers_are_kept (numbers : config.maxWorkers < idLimit - 1)
    (created : Session.create config layout log = .ok s) (cs : List Command) :
    (s.run cs).2.heap.threads.Roster (s.run cs).2.workers config.maxWorkers ∧
    ((∃ t, ((s.run cs).2.step .attachWorker).1 = .ok (.thread t)) ↔ (s.run cs).2.workers.length < config.maxWorkers) ∧
    (∀ t, ((s.run cs).2.step .attachWorker).1 = .ok (.thread t) →
      t ∉ (s.run cs).2.workers ∧ ((s.run cs).2.step .attachWorker).2.workers = (s.run cs).2.workers ++ [t]) ∧
    (((s.run cs).2.step .attachMain).1 = .ok (.thread mainThread) ↔ mainThread ∉ (s.run cs).2.seats) ∧
    (∀ c f, c = .attachMain ∨ c = .attachWorker → ((s.run cs).2.step c).1 = .error f →
      ((s.run cs).2.step c).2 = (s.run cs).2) ∧
    ∀ t ∈ (s.run cs).2.workers, ((s.run cs).2.step (.detach t)).1 = .ok .done ∧
      ((s.run cs).2.step (.detach t)).2.workers = (s.run cs).2.workers.filter (· != t) ∧
      ((s.run cs).2.step (.detach t)).2.heap.threads.liveWorkers + 1 = (s.run cs).2.heap.threads.liveWorkers := by
  obtain ⟨tells, complete, config'⟩ := complete_run created cs
  generalize (s.run cs).2 = s' at tells complete config'
  have roster := complete.roster tells
  refine ⟨roster, ?_, fun _ => workers_attachWorker tells, ?_, fun _ _ => step_attach_failed,
    fun _ => workers_detach roster⟩
  · rw [Session.workers, ← Threads.attachWorker_iff tells complete numbers, step_attachWorker, config']
    cases s'.heap.threads.attachWorker config.maxWorkers with
    | ok attached => exact ⟨fun _ => ⟨_, rfl⟩, fun _ => ⟨_, rfl⟩⟩
    | error f => exact ⟨nofun, nofun⟩
  · rw [← Threads.attachMain_iff tells complete, step_attachMain]
    cases s'.heap.threads.attachMain with
    | ok threads => exact ⟨fun _ => ⟨_, rfl⟩, fun _ => rfl⟩
    | error f => exact ⟨nofun, nofun⟩

/-- Three workers come, the first two go in the order they came, one of them with a transaction under way. -/
def Command.shifts : List Command :=
  [.attachWorker, .attachWorker, .attachMain, .attachWorker, .start 1, .detach 1, .detach 2, .attachMain]

/-- The number given back last is given out first. -/
theorem thread_numbers_are_kept_shifts :
    (Session.ofNodes.run Command.shifts).2.workers = [3] ∧
      (Session.ofNodes.run Command.shifts).2.heap.threads.free = [2, 1] ∧
      (Session.ofNodes.run Command.shifts).2.heap.threads.liveWorkers = 1 ∧
      (∃ t, ((Session.ofNodes.run Command.shifts).2.step .attachWorker).1 = .ok (.thread t)) ∧
      ¬ ((Session.ofNodes.run Command.shifts).2.step .attachMain).1 = .ok (.thread mainThread) := by
  obtain ⟨roster, worker, -, main, -, -⟩ := thread_numbers_are_kept (by decide) create_ofNodes Command.shifts
  have workers : (Session.ofNodes.run Command.shifts).2.workers = [3] := by decide +kernel
  refine ⟨workers, by decide +kernel, ?_, ?_, ?_⟩
  · rw [roster.counted, workers]
    rfl
  · rw [worker, workers]
    decide
  · rw [main, Decidable.not_not]
    decide +kernel

end

end TxHeap

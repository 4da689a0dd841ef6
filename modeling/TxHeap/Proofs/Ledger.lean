/-
  TxHeap.Proofs.Ledger — what a run has done to each object.

  A ledger stands beside the session and is written up command by command from what the
  calls were and how they ended (`Ledger.record`): which objects were made, which were
  copied, and every store since, in order. The heap never sees it. A commit is written up
  as the steps it takes (`Session.parts`, `step_commit`).

  `Lived allowed s ledger` says that some run from a new heap has reached `s` with this
  ledger, by commands of which each was allowed where it was made. What every allowed
  command but a commit preserves holds of all that have lived (`Lived.invariant`).
-/
import TxHeap.Run
import TxHeap.Ends
import TxHeap.Proofs.Record
import TxHeap.Proofs.Views

namespace TxHeap

structure Ledger where
  /-- The objects of the shared heap: those of the main thread and all twins. -/
  shared : List Record
  /-- The objects of the transaction that each thread started last. -/
  own : Nat → List Record

def Session.copyOf? (s : Session) (t obj : Nat) : Option Nat := (s.tx? t).bind (·.objects.copyOf? obj)

namespace Ledger

def empty : Ledger := ⟨[], fun _ => []⟩

def setOwn (L : Ledger) (t : Nat) (rs : List Record) : Ledger :=
  { L with own := fun t' => if t' = t then rs else L.own t' }

/-- A new object is blank; the main thread's is a shared one. -/
def created (L : Ledger) (s : Session) (t typeId obj : Nat) : Ledger :=
  let size := (s.heap.layout.objectSize typeId).toOption.getD 0
  if t = mainThread then { L with shared := L.shared ++ [.blank (.shared true false) obj typeId size] }
  else L.setOwn t (L.own t ++ [.blank .fresh obj typeId size])

/-- A working copy is born with the bytes that the shared object holds at the moment. -/
def copied (L : Ledger) (s : Session) (t obj copy : Nat) : Ledger :=
  let typeId := (s.heap.shared.memory.headerAt obj).typeId
  let size := (s.heap.layout.objectSize typeId).toOption.getD 0
  let body := s.heap.shared.memory.read (obj + headerSize) (size - headerSize)
  { L.setOwn t (L.own t ++ [⟨copy, typeId, size, .copyOf obj, body, []⟩]) with
    shared := amend L.shared obj Record.mark }

def stored (L : Ledger) (t obj : Nat) (store : Store) : Ledger :=
  if t = mainThread then { L with shared := amend L.shared obj (·.push store) }
  else L.setOwn t (amend (L.own t) obj (·.push store))

/-- The twin of an object, with the body that the preparation left. -/
def twin? (nursery shared : Memory) (whole : Bool) (r : Record) : Option Record :=
  match r.kind, nursery.twinOf? r.addr with
  | .fresh, some twin =>
    some ⟨twin, r.typeId, r.size, .shared whole false, shared.read (twin + headerSize) r.bodySize, []⟩
  | _, _ => none

def twinsOf (own : List Record) (nursery shared : Memory) (whole : Bool) : List Record :=
  own.filterMap (twin? nursery shared whole)

/-- The twins that a preparation made are entered, also when it failed. -/
def prepared (L : Ledger) (s s' : Session) (t : Nat) (whole : Bool) : Ledger :=
  match s.tx? t, s'.tx? t with
  | some tx, some tx' =>
    if tx.phase = .active then
      { L with shared := L.shared ++ twinsOf (L.own t) tx'.nursery.memory s'.heap.shared.memory whole }
    else L
  | _, _ => L

/-- Each root gets the whole body of its working copy. -/
def overwritten (nursery : Memory) (own shared : List Record) : List Record :=
  own.foldl (fun shared r =>
    match r.kind with
    | .copyOf root => amend shared root (·.push (.body (nursery.read r.bodyAddr r.bodySize)))
    | _ => shared) shared

def applied (L : Ledger) (s : Session) (t : Nat) : Ledger :=
  match s.tx? t with
  | some tx => { L with shared := overwritten tx.nursery.memory (L.own t) L.shared }
  | none => L

/-- The ledger after a command other than a commit, from how the command ended. -/
def record (L : Ledger) (s : Session) : Command → Outcome → Session → Ledger
  | .start t, .ok _, _ => L.setOwn t []
  | .create t typeId, .ok (.address obj), _ => L.created s t typeId obj
  | .copyOnWrite t obj, .ok (.address copy), s' =>
    if s.copyOf? t obj = none ∧ s'.copyOf? t obj = some copy then L.copied s t obj copy else L
  | .write t obj offset value, .ok _, _ => L.stored t obj (.word offset value)
  | .prepare t, outcome, s' => L.prepared s s' t outcome.isOk
  | .apply t, .ok _, _ => L.applied s t
  | _, _, _ => L

section

variable (L : Ledger) (s s' : Session) (t obj : Nat)

theorem record_start (r : Reply) : L.record s (.start t) (.ok r) s' = L.setOwn t [] := rfl

theorem record_create (typeId : Nat) :
    L.record s (.create t typeId) (.ok (.address obj)) s' = L.created s t typeId obj := rfl

theorem record_copyOnWrite (copy : Nat) :
    L.record s (.copyOnWrite t obj) (.ok (.address copy)) s' =
      if s.copyOf? t obj = none ∧ s'.copyOf? t obj = some copy then L.copied s t obj copy else L := rfl

theorem record_write (offset value : Nat) (r : Reply) :
    L.record s (.write t obj offset value) (.ok r) s' = L.stored t obj (.word offset value) := rfl

theorem record_prepare (o : Outcome) : L.record s (.prepare t) o s' = L.prepared s s' t o.isOk := rfl

theorem record_apply (r : Reply) : L.record s (.apply t) (.ok r) s' = L.applied s t := rfl

end

def enter (L : Ledger) (s : Session) (c : Command) : Ledger := L.record s c (s.step c).1 (s.step c).2

end Ledger

/-- The steps that a command takes: a commit prepares, then applies, then finishes, as far as it gets. -/
def Session.parts (s : Session) : Command → List Command
  | .commit t =>
    match s.step (.prepare t) with
    | (.ok _, s₁) =>
      match s₁.step (.apply t) with
      | (.ok _, _) => [.prepare t, .apply t, .finish t]
      | _ => [.prepare t, .apply t]
    | _ => [.prepare t]
  | c => [c]

namespace Ledger

def follow (L : Ledger) (s : Session) : List Command → Ledger
  | [] => L
  | c :: cs => (L.enter s c).follow (s.step c).2 cs

def after (L : Ledger) (s : Session) (c : Command) : Ledger := L.follow s (s.parts c)

end Ledger

open Step TxHeap.Action

variable {s : Session} {L : Ledger} {t : Nat}

/-- A call of an action that gives its answer another name. -/
theorem step_map {α : Type} {c : Command} {call : Action α} {reply : α → Reply} (h : c.action = reply <$> call) :
    s.step c = match call s with
      | .ok a s' => (.ok (reply a), s')
      | .error f s' => (.error f, s') := by
  rw [Session.step, Session.perform, h]
  rw [map_apply]
  cases call s <;> rfl

theorem step_quietly {c : Command} {call : Action Unit} (h : c.action = quietly call) :
    s.step c = match call s with
      | .ok _ s' => (.ok .done, s')
      | .error f s' => (.error f, s') := by
  rw [Session.step, Session.perform, h]
  rw [quietly, bind_apply]
  cases call s <;> rfl

theorem handle_of_handle? {h : Handle} (hh : s.handle? t = some h) : handle t s = .ok h s := by
  simp [Action.handle, hh]

/-- An open transaction is found, whatever it is wanted for. -/
theorem openTx_of_tx? {tx : Transaction} (htx : s.tx? t = some tx) (operation : String) : openTx t operation s = .ok tx s := by
  obtain ⟨h, hh, e⟩ := Option.bind_eq_some_iff.1 htx
  simp [openTx, Action.handle, hh, e]

/-- None is found where none is open. -/
theorem openTx_of_closed (htx : s.tx? t = none) (operation : String) : ∃ f, openTx t operation s = .error f s := by
  cases hh : s.handle? t with
  | none => exact ⟨.detached t, by simp [openTx, Action.handle, hh]⟩
  | some h =>
    have idle : h.tx = none := (Session.tx?_of_handle? hh).symm.trans htx
    exact ⟨.refused (.noTransaction operation), by simp [openTx, Action.handle, hh, idle, refuse]⟩

/-- A commit of an open transaction is its prepare, its apply and its end, as far as it gets. -/
theorem step_commit_eq {tx : Transaction} (htx : s.tx? t = some tx) :
    s.step (.commit t) = match s.step (.prepare t) with
      | (.error f, s₁) => (.error f, s₁)
      | (.ok _, s₁) => match s₁.step (.apply t) with
        | (.error f, s₂) => (.error f, s₂)
        | (.ok _, s₂) => s₂.step (.finish t) := by
  have found : openTx t "commit" s = .ok tx s := openTx_of_tx? htx _
  have hprepare : s.step (.prepare t) = _ := step_map rfl
  rw [hprepare, step_map rfl]
  simp only [Action.commit, bind_apply, found]
  cases prepare t s with
  | error f s₁ => rfl
  | ok r s₁ =>
    have happly : s₁.step (.apply t) = _ := step_quietly rfl
    simp only [happly]
    cases apply t s₁ with
    | error f s₂ => rfl
    | ok _ s₂ =>
      have hfinish : s₂.step (.finish t) = _ := step_map rfl
      simp only [hfinish]

/-- Where no transaction is open, a commit fails, as its prepare does. -/
theorem step_commit_of_closed (htx : s.tx? t = none) :
    ∃ f f', s.step (.prepare t) = (.error f, s) ∧ s.step (.commit t) = (.error f', s) := by
  obtain ⟨f, hf⟩ := openTx_of_closed htx "prepare_commit"
  obtain ⟨f', hf'⟩ := openTx_of_closed htx "commit"
  refine ⟨f, f', ?_, ?_⟩
  · rw [step_map rfl]
    simp only [prepare, bind_apply, hf]
  · rw [step_map rfl]
    simp only [Action.commit, bind_apply, hf']

/-- A commit leaves the session as its parts leave it. -/
theorem step_commit (s : Session) (t : Nat) : (s.step (.commit t)).2 = (s.run (s.parts (.commit t))).2 := by
  rw [Session.parts]
  cases htx : s.tx? t with
  | none =>
    obtain ⟨f, f', hp, hc⟩ := step_commit_of_closed htx
    simp only [hc, hp, Session.run]
  | some tx =>
    rw [step_commit_eq htx]
    cases hp : s.step (.prepare t) with
    | mk o s₁ =>
    cases o with
    | error f => simp only [hp, Session.run]
    | ok r =>
      dsimp only
      cases ha : s₁.step (.apply t) with
      | mk o s₂ => cases o <;> simp only [hp, ha, Session.run]

theorem parts_of_single {c : Command} (hc : ¬ ∃ t, c = .commit t) : s.parts c = [c] := by
  cases c <;> first | rfl | exact absurd ⟨_, rfl⟩ hc

/-- A command leaves the session as its parts leave it. -/
theorem run_parts (s : Session) (c : Command) : (s.run (s.parts c)).2 = (s.step c).2 := by
  by_cases hcommit : ∃ t, c = .commit t
  · obtain ⟨t, rfl⟩ := hcommit
    exact (step_commit s t).symm
  · rw [parts_of_single hcommit]
    rfl

/-! ## Lives -/

structure Config.Fits (c : Config) : Prop where
  sharedReserve : c.sharedReserve < wordLimit
  nurseryReserve : c.nurseryReserve < wordLimit
  chunkSize : c.chunkSize < wordLimit
  pageSize : c.pageSize < wordLimit
  maxWorkers : c.maxWorkers < idLimit

abbrev Rule := Session → Ledger → Command → Prop

/-- A run of allowed commands from a new heap, over the types of a registry, has come to this session and ledger. -/
inductive Lived (allowed : Rule) : Session → Ledger → Prop
  | created {config : Config} {registry : Registry} {log : EventLog} {s : Session} : config.Fits → registry.Built →
      Session.create config registry.layout log = .ok s → Lived allowed s .empty
  | step {s : Session} {L : Ledger} {c : Command} : Lived allowed s L → allowed s L c →
      Lived allowed (s.step c).2 (L.after s c)

/-- A rule that allows a commit only where it allows the steps of it. -/
structure Rule.Divides (allowed : Rule) : Prop where
  prepare : ∀ {s L t}, allowed s L (.commit t) → allowed s L (.prepare t)
  apply : ∀ s L t, allowed s L (.apply t)
  finish : ∀ s L t, allowed s L (.finish t)

def Rule.any : Rule := fun _ _ _ => True

theorem Rule.any_divides : Rule.any.Divides := ⟨id, fun _ _ _ => trivial, fun _ _ _ => trivial⟩

/-- What every allowed command but a commit preserves, a commit preserves. -/
theorem Rule.Divides.preserves {allowed : Rule} {I : Session → Ledger → Prop} {c : Command} (divides : allowed.Divides)
    (step : ∀ {s L c}, I s L → (∀ t, c ≠ .commit t) → allowed s L c → I (s.step c).2 (L.enter s c))
    (h : I s L) (hc : allowed s L c) : I (s.step c).2 (L.after s c) := by
  by_cases hcommit : ∃ t, c = .commit t
  · obtain ⟨t, rfl⟩ := hcommit
    have prepared := step (c := .prepare t) h nofun (divides.prepare hc)
    have applied := step (c := .apply t) prepared nofun (divides.apply _ _ t)
    rw [step_commit, Ledger.after, Session.parts]
    split
    · rename_i o s₁ hp
      have e : (s.step (.prepare t)).2 = s₁ := by rw [hp]
      rw [e] at applied
      split
      · rename_i o' s₂ ha
        have e' : (s₁.step (.apply t)).2 = s₂ := by rw [ha]
        simp only [Session.run, Ledger.follow, e, e']
        rw [e'] at applied
        exact step (c := .finish t) applied nofun (divides.finish _ _ t)
      · simp only [Session.run, Ledger.follow, e]
        exact applied
    · exact prepared
  · rw [Ledger.after, parts_of_single hcommit]
    exact step h (fun t e => hcommit ⟨t, e⟩) hc

/-- What every allowed command but a commit preserves, every life preserves. -/
theorem Lived.invariant {allowed : Rule} {I : Session → Ledger → Prop} (divides : allowed.Divides)
    (start : ∀ {config registry log s}, Config.Fits config → Registry.Built registry →
      Session.create config registry.layout log = .ok s → I s .empty)
    (step : ∀ {s L c}, I s L → (∀ t, c ≠ .commit t) → allowed s L c → I (s.step c).2 (L.enter s c)) :
    Lived allowed s L → I s L := by
  intro h
  induction h with
  | created fits built hs => exact start fits built hs
  | step _ hc ih => exact divides.preserves step ih hc

/-! ## Lives by list -/

def AllAllowed (allowed : Rule) (s : Session) (L : Ledger) : List Command → Prop
  | [] => True
  | c :: cs => allowed s L c ∧ AllAllowed allowed (s.step c).2 (L.after s c) cs

instance AllAllowed.decidable {allowed : Rule} [∀ s L c, Decidable (allowed s L c)] :
    ∀ (cs : List Command) (s : Session) (L : Ledger), Decidable (AllAllowed allowed s L cs)
  | [], _, _ => inferInstanceAs (Decidable True)
  | c :: cs, s, L =>
    have : Decidable (AllAllowed allowed (s.step c).2 (L.after s c) cs) := AllAllowed.decidable cs _ _
    inferInstanceAs (Decidable (allowed s L c ∧ AllAllowed allowed (s.step c).2 (L.after s c) cs))

/-- The parts of an allowed command are allowed one after the other, and none is a commit. -/
theorem Rule.Divides.parts {allowed : Rule} {c : Command} (divides : allowed.Divides) (hc : allowed s L c) :
    AllAllowed allowed s L (s.parts c) ∧ ∀ c' ∈ s.parts c, ∀ t, c' ≠ .commit t := by
  by_cases hcommit : ∃ t, c = .commit t
  · obtain ⟨t, rfl⟩ := hcommit
    have prepare := divides.prepare hc
    rw [Session.parts]
    split
    · split
      · exact ⟨⟨prepare, divides.apply _ _ t, divides.finish _ _ t, trivial⟩, by simp⟩
      · exact ⟨⟨prepare, divides.apply _ _ t, trivial⟩, by simp⟩
    · exact ⟨⟨prepare, trivial⟩, by simp⟩
  · rw [parts_of_single hcommit]
    refine ⟨⟨hc, trivial⟩, ?_⟩
    intro c' hc' t e
    rw [List.mem_singleton.mp hc'] at e
    exact hcommit ⟨t, e⟩

theorem Session.parts_single (s : Session) (c : Command) : ∀ c' ∈ s.parts c, ∀ t, c' ≠ .commit t :=
  (Rule.any_divides.parts (L := .empty) trivial).2

def Ledger.along (L : Ledger) (s : Session) : List Command → Ledger
  | [] => L
  | c :: cs => (L.after s c).along (s.step c).2 cs

/-- One list of commands after another. -/
theorem run_append {cs cs' : List Command} : (s.run (cs ++ cs')).2 = ((s.run cs).2.run cs').2 := by
  induction cs generalizing s with
  | nil => rfl
  | cons c cs ih => exact ih

theorem allAllowed_append {allowed : Rule} {cs cs' : List Command} :
    AllAllowed allowed s L (cs ++ cs') ↔ AllAllowed allowed s L cs ∧ AllAllowed allowed (s.run cs).2 (L.along s cs) cs' := by
  induction cs generalizing s L with
  | nil => exact (iff_of_eq (true_and _)).symm
  | cons c cs ih => exact (and_congr_right fun _ => ih).trans and_assoc.symm

theorem Lived.along {allowed : Rule} {cs : List Command} (h : Lived allowed s L) (hcs : AllAllowed allowed s L cs) :
    Lived allowed (s.run cs).2 (L.along s cs) := by
  induction cs generalizing s L with
  | nil => exact h
  | cons c cs ih => exact ih (h.step hcs.1) hcs.2

/-- What every allowed command but a commit preserves, a list of allowed commands preserves. -/
theorem Rule.Divides.along {allowed : Rule} {I : Session → Ledger → Prop} {cs : List Command} (divides : allowed.Divides)
    (step : ∀ {s L c}, I s L → (∀ t, c ≠ .commit t) → allowed s L c → I (s.step c).2 (L.enter s c))
    (h : I s L) (hcs : AllAllowed allowed s L cs) : I (s.run cs).2 (L.along s cs) := by
  induction cs generalizing s L with
  | nil => exact h
  | cons c cs ih => exact ih (divides.preserves step h hcs.1) hcs.2

instance : DecidableEq Outcome
  | .ok a, .ok b => decidable_of_iff (a = b) ⟨congrArg Except.ok, Except.ok.inj⟩
  | .error f, .error g => decidable_of_iff (f = g) ⟨congrArg Except.error, Except.error.inj⟩
  | .ok _, .error _ => isFalse nofun
  | .error _, .ok _ => isFalse nofun

/-! ## A heap of nodes -/

/-- One type: two strong pointers, a weak one, and a word of data. -/
def Registry.nodes : Registry := ⟨#[⟨"node", 32, ⟨3⟩, some 16⟩]⟩

theorem Registry.nodes_built : nodes.Built := by
  have registered : empty.register ⟨"node", 32, ⟨3⟩, some 16⟩ = .ok (0, nodes) := rfl
  exact .register .empty registered

theorem Registry.nodes_bounded : nodes.layout.Bounded := by
  refine Layout.bounded_of_payload ?_
  intro typeId payload h
  have e : payload = 32 := by
    cases typeId with
    | zero => exact (Option.some.inj h).symm
    | succ n => cases h
  subst e
  decide

def Config.small : Config := ⟨65536, 65536, 4096, 256, 4, false, true⟩

theorem Config.small_fits : small.Fits := by constructor <;> decide

def Session.ofNodes : Session :=
  (Session.create .small Registry.nodes.layout (.new {})).toOption.get (by decide +kernel)

theorem create_ofNodes : Session.create .small Registry.nodes.layout (.new {}) = .ok .ofNodes := rfl

theorem Lived.ofNodes {allowed : Rule} {cs : List Command} (h : AllAllowed allowed .ofNodes .empty cs) :
    Lived allowed (Session.ofNodes.run cs).2 (Ledger.empty.along .ofNodes cs) :=
  Lived.along (.created Config.small_fits Registry.nodes_built create_ofNodes) h

end TxHeap

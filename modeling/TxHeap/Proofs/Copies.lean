/-
  TxHeap.Proofs.Copies — one working copy of an object in a transaction.

  The first copy-on-write of a shared object puts a copy of its type and bytes at the end of
  the nursery and of the roots (`Copied`). Calls of other threads never touch the map of a
  transaction, and as long as it is active its own calls only add to the map. So from then on
  the copy is settled: both names lead to it, and asking again changes nothing (`Settled`,
  `objects_are_copied_once`).

  A call that fails leaves everything as it was, but for one slip: room for the copy is taken
  before it is known that the shared bytes are all there. No object comes to that, but an
  address may whose bytes happen to read as the header of a shared object that would end
  outside the heap (`failed_copies_take_room_at_most`, `misread_header_takes_room`).
-/
import TxHeap.Proofs.Mirror
import TxHeap.Proofs.Phases
import TxHeap.Proofs.Tokens

namespace TxHeap

open Step TxHeap.Action

section

variable {s s' : Session} {L : Ledger} {c : Command} {o : Outcome} {t obj copy : Nat} {tx tx' : Transaction}
  {own : List Record} {r : Record} {f : Failure}

/-! ## Failed copies -/

inductive CopyFailed (s : Session) (t obj : Nat) : Failure → Session → Prop
  | unchanged {f : Failure} : CopyFailed s t obj f s
  /-- Room, for a copy of bytes that do not all lie in the shared heap. -/
  | roomTaken {tx : Transaction} {h : Header} {size : Nat} {nursery : Arena} : t ≠ mainThread → s.tx? t = some tx →
      tx.phase = .active → tx.objects.copyOf? obj = none → s.heap.shared.header obj = .ok h → h.isGlobal = true →
      s.heap.layout.objectSize h.typeId = .ok size → ¬ s.heap.shared.Spans obj size → tx.nursery.Grew nursery size →
      CopyFailed s t obj (.refused (.invalidAccess obj size)) (s.setTx t (some { tx with nursery }))

theorem copyFailed_of_step (failed : s.step (.copyOnWrite t obj) = (.error f, s')) : CopyFailed s t obj f s' := by
  have ends : Ends (copyOnWrite t obj) s (fun _ _ => True) (CopyFailed s t obj) := by
    refine ends_copyOnWrite (fun _ => .unchanged) trivial ?_
    intro tx hmain htx hactive _ _
    cases hcopy : tx.objects.copyOf? obj with
    | some copy => trivial
    | none =>
      refine (ends_makeCopy hcopy).mono (fun _ _ _ => trivial) ?_
      rintro f s' (rfl | ⟨header, global, hsize, halloc, short⟩)
      · exact .unchanged
      · exact .roomTaken hmain htx hactive hcopy header global hsize short (Arena.grew_of_allocate halloc).2
  have step : s.step (.copyOnWrite t obj) = _ := step_map rfl
  rw [step] at failed
  cases hx : copyOnWrite t obj s with
  | ok copy s₁ =>
    rw [hx] at failed
    cases failed
  | error f₁ s₁ =>
    rw [hx] at failed
    cases failed
    exact ends.of_error hx

/-- The bytes of an object all lie in the shared heap. -/
theorem CopyFailed.of_object (h : CopyFailed s t r.addr f s') (kept : Kept s L) (hr : r ∈ L.shared) : s' = s := by
  cases h with
  | unchanged => rfl
  | roomTaken _ _ _ _ header _ hsize short =>
    cases (kept.shared.header_eq hr).symm.trans header
    rw [Record.header_typeId, kept.shared.sized r hr] at hsize
    cases hsize
    exact absurd (kept.shared.spans (k := 0) hr (Nat.le_of_eq (Nat.zero_add _))) short

/--
A copy-on-write that fails changes nothing, or takes room for a copy of bytes that do not all
lie in the shared heap. That is never so for an object.
-/
theorem failed_copies_take_room_at_most (failed : s.step (.copyOnWrite t obj) = (.error f, s')) :
    CopyFailed s t obj f s' ∧ ∀ L, Lived careful s L → (∃ r ∈ L.shared, r.addr = obj) → s' = s := by
  have left := copyFailed_of_step failed
  refine ⟨left, ?_⟩
  rintro L life ⟨r, hr, rfl⟩
  exact left.of_object life.kept hr

/-- A word of the root says what the header of a shared node says. -/
def misread : List Command :=
  [.attachMain, .create mainThread 0, .write mainThread sharedStart 16 4294967296, .attachWorker, .start 1]

theorem step_misread : ∃ s', (Session.ofNodes.run misread).2.step (.copyOnWrite 1 (sharedStart + 32)) =
      (.error (.refused (.invalidAccess (sharedStart + 32) 48)), s') ∧
    ((Session.ofNodes.run misread).2.tx? 1).map (·.nursery.used) = some 0 ∧
    (s'.tx? 1).map (·.nursery.used) = some 48 := by
  refine ⟨((Session.ofNodes.run misread).2.step (.copyOnWrite 1 (sharedStart + 32))).2, Prod.ext ?_ rfl, ?_, ?_⟩ <;>
    decide +kernel

theorem failed_copies_take_room_at_most_misread :
    ∃ f s', (Session.ofNodes.run misread).2.step (.copyOnWrite 1 (sharedStart + 32)) = (.error f, s') ∧
      CopyFailed (Session.ofNodes.run misread).2 1 (sharedStart + 32) f s' := by
  obtain ⟨s', failed, -⟩ := step_misread
  exact ⟨_, s', failed, (failed_copies_take_room_at_most failed).1⟩

/-- The copy of the node that would start there is refused, but its room is taken. -/
theorem misread_header_takes_room :
    Lived careful (Session.ofNodes.run misread).2 (Ledger.empty.along .ofNodes misread) ∧
      ∃ f s', (Session.ofNodes.run misread).2.step (.copyOnWrite 1 (sharedStart + 32)) = (.error f, s') ∧
        (s'.tx? 1).map (·.nursery.used) ≠ ((Session.ofNodes.run misread).2.tx? 1).map (·.nursery.used) := by
  refine ⟨.ofNodes (by decide +kernel), ?_⟩
  obtain ⟨s', failed, before, after⟩ := step_misread
  refine ⟨_, s', failed, ?_⟩
  rw [before, after]
  decide

/-! ## The first copy -/

/-- The call has put a working copy of the object at the end of the nursery and of the roots. -/
structure Copied (s : Session) (r : Record) (copy : Nat) (tx tx' : Transaction) : Prop where
  sized : s.heap.layout.objectSize r.typeId = .ok r.size
  fresh : tx.nursery.contains copy = false
  inside : tx'.nursery.contains copy = true
  used : tx'.nursery.used = tx.nursery.used + r.size
  roots : tx'.objects.pairs = tx.objects.pairs ++ [(r.addr, copy)]
  header : tx'.nursery.header copy = .ok (copyHeader r.typeId r.addr)
  typeId : ∃ h, s.heap.shared.header r.addr = .ok h ∧ h.isGlobal = true ∧ h.typeId = r.typeId
  body : ∃ bytes, s.heap.shared.read (r.addr + headerSize) (r.size - headerSize) = .ok bytes ∧
    tx'.nursery.read (copy + headerSize) (r.size - headerSize) = .ok bytes

/-- An object of the own nursery needs no copy. -/
theorem step_copyOnWrite_own {h : Handle} (hh : s.handle? t = some h) (sees : h.sees obj = true) :
    s.step (.copyOnWrite t obj) = (.ok (.address obj), s) := by
  have located : h.locate s.heap obj = .ok .nursery := by rw [Handle.locate, if_pos sees]
  have run : copyOnWrite t obj s = .ok obj s := by
    rw [copyOnWrite, bind_apply, handle_of_handle? hh]
    by_cases main : t = mainThread
    · simp only [if_pos main, pure_apply]
    · simp only [if_neg main, bind_apply, get_apply, located, ofAttempt_ok, pure_apply]
  rw [step_map rfl, run]

/-- What the call does for a shared object. -/
theorem copyOnWrite_shared {h : Handle} (hh : s.handle? t = some h) (hx : h.tx = some tx) (worker : t ≠ mainThread)
    (hactive : tx.phase = .active) (located : h.locate s.heap obj = .ok .shared) :
    copyOnWrite t obj s = match tx.objects.copyOf? obj with
      | some copy => .ok copy s
      | none => makeCopy t obj tx s := by
  have htx : s.tx? t = some tx := (Session.tx?_of_handle? hh).trans hx
  have phase : tx.requirePhase "materialize" .active = .ok () := requirePhase_eq_ok.2 hactive
  simp only [copyOnWrite, bind_apply, handle_of_handle? hh, if_neg worker, get_apply, located, ofAttempt_ok, pure_apply,
    openTx_of_tx? htx, phase]
  cases tx.objects.copyOf? obj <;> rfl

/-- The first call for an object, if it answers, has made a copy. -/
theorem copied_of_step (life : Lived careful s L) (htx : s.tx? t = some tx) (hactive : tx.phase = .active)
    (hr : r ∈ L.shared) (hnone : tx.objects.copyOf? r.addr = none)
    (answered : s.step (.copyOnWrite t r.addr) = (.ok (.address copy), s')) :
    ∃ tx', s'.tx? t = some tx' ∧ Copied s r copy tx tx' := by
  have kept := life.kept
  obtain ⟨h, hh, hx⟩ := handle_of_tx? htx
  have worker := (kept.ground.workers t tx htx).1
  have run := copyOnWrite_shared hh hx worker hactive (locate_shared kept htx hx hr)
  have step : s.step (.copyOnWrite t r.addr) = _ := step_map rfl
  rw [run, hnone] at step
  dsimp only at step
  rw [step] at answered
  cases hm : makeCopy t r.addr tx s with
  | error f s₁ =>
    rw [hm] at answered
    cases answered
  | ok copy₁ s₁ =>
    rw [hm] at answered
    cases answered
    obtain ⟨header, size, grown, hheader, global, hsize, halloc, spans, agrees⟩ := (ends_makeCopy hnone).of_ok hm
    cases (kept.shared.header_eq hr).symm.trans hheader
    have sized := kept.shared.sized r hr
    rw [Record.header_typeId] at hsize
    cases sized.symm.trans hsize
    obtain ⟨rfl, grew⟩ := Arena.grew_of_allocate halloc
    rw [Record.header_typeId] at agrees
    have free : tx.nursery.contains tx.nursery.freePointer = false := by
      rw [Bool.eq_false_iff, Ne, Arena.contains_iff]
      omega
    -- the record that the ledger will have of the copy tells its header and its bytes
    let made : Record := ⟨tx.nursery.freePointer, r.typeId, r.size, .copyOf r.addr,
      s.heap.shared.memory.read (r.addr + headerSize) (r.size - headerSize), []⟩
    have new : made ∈ L.own t ++ [made] := List.mem_append_right _ (List.mem_singleton.2 rfl)
    obtain ⟨tx', htx', keeps, used, roots⟩ : ∃ tx', s'.tx? t = some tx' ∧
        tx'.nursery.Keeps s.heap.layout (L.own t ++ [made]) ∧ tx'.nursery.used = tx.nursery.used + r.size ∧
        tx'.objects.pairs = tx.objects.pairs ++ [(r.addr, tx.nursery.freePointer)] := by
      have htx' := agrees.tx? t
      rw [Session.tx?_setShared, Session.tx?_setTx_of_tx? htx] at htx'
      exact ⟨_, htx', ((kept.intact t tx htx hactive).copy kept.ground.sound sized spans hnone grew).nursery, grew.used, rfl⟩
    have large : headerSize + (r.size - headerSize) ≤ r.size := by
      have := Layout.headerSize_le_objectSize sized
      omega
    exact ⟨tx', htx', sized, free, keeps.contains new, used, roots, keeps.header_eq new,
      ⟨_, hheader, global, Record.header_typeId _⟩, _, Arena.read_eq_ok.2 ⟨kept.shared.spans hr large, rfl⟩,
      Arena.read_eq_ok.2 ⟨keeps.spans new large, keeps.body made new⟩⟩

/-! ## Once copied, always copied -/

def Session.StaysActive (s : Session) (t : Nat) : List Command → Prop
  | [] => s.phase? t = some .active
  | c :: cs => s.phase? t = some .active ∧ (s.step c).2.StaysActive t cs

instance Session.StaysActive.decidable (t : Nat) : ∀ (cs : List Command) (s : Session), Decidable (s.StaysActive t cs)
  | [], s => inferInstanceAs (Decidable (s.phase? t = some .active))
  | c :: cs, s =>
    have : Decidable ((s.step c).2.StaysActive t cs) := StaysActive.decidable t cs _
    inferInstanceAs (Decidable (s.phase? t = some .active ∧ (s.step c).2.StaysActive t cs))

theorem Session.StaysActive.now {cs : List Command} (h : s.StaysActive t cs) : s.phase? t = some .active := by
  cases cs with
  | nil => exact h
  | cons c cs => exact h.1

theorem Session.StaysActive.last {cs : List Command} (h : s.StaysActive t cs) : (s.run cs).2.phase? t = some .active := by
  induction cs generalizing s with
  | nil => exact h
  | cons c cs ih => exact ih h.2

/-- Only a start makes a transaction active. -/
theorem active_of_step (hc : c ≠ .start t) (active : (s.step c).2.phase? t = some .active) :
    s.phase? t = some .active := by
  have arrow : Phase.Arrow t c _ _ _ := arrow_step s c t
  generalize s.phase? t = p at arrow ⊢
  generalize (s.step c).1 = o at arrow
  generalize (s.step c).2.phase? t = q at arrow active
  cases arrow with
  | started => exact absurd rfl hc
  | commitCut => rfl
  | cut | refused | elsewhere => exact active
  | unstarted | prepared | prepareFailed | applied | applyFailed | finished | aborted | committed | commitFailed | detached
  | away => cases active

/-- Where it is active in the end, and was not started in between, it was active all the time. -/
theorem staysActive_of_run {cs : List Command} (unstarted : ∀ c ∈ cs, c ≠ .start t)
    (active : (s.run cs).2.phase? t = some .active) : s.StaysActive t cs := by
  induction cs generalizing s with
  | nil => exact active
  | cons c cs ih =>
    obtain ⟨hc, unstarted⟩ := List.forall_mem_cons.1 unstarted
    have stays : (s.step c).2.StaysActive t cs := ih unstarted active
    exact ⟨active_of_step hc stays.now, stays⟩

/-- No turn of an active transaction takes a copy from its map. -/
theorem Turn.copyOf?_of_active (turn : Turn s L t c o s' own tx') (htx : s.tx? t = some tx)
    (unstopped : Unstopped s c o) (hactive : tx'.phase = .active) (hcopy : tx.objects.copyOf? obj = some copy) :
    tx'.objects.copyOf? obj = some copy := by
  cases turn with
  | same htx' | issued htx' | grew htx' | created htx' | wrote htx' =>
    cases htx.symm.trans htx'
    exact hcopy
  | started none =>
    rw [none] at htx
    cases htx
  | copied htx' =>
    cases htx.symm.trans htx'
    rw [ObjectMap.copyOf?] at hcopy ⊢
    rw [List.lookup_append, hcopy, Option.some_or]
  | prepared | prepareFailed => cases hactive
  | stopped htx' active hf => exact (unstopped.not_stopped htx' active hf).elim
  | passed _ _ hphase =>
    cases hactive
    rcases hphase with e | e <;> cases e

theorem copyOf?_eq_some : s.copyOf? t obj = some copy ↔ ∃ tx, s.tx? t = some tx ∧ tx.objects.copyOf? obj = some copy :=
  Option.bind_eq_some_iff

theorem copyOf?_step (kept : Kept s L) (care : careful s L c) (single : ∀ t, c ≠ .commit t)
    (hcopy : s.copyOf? t obj = some copy) (active : (s.step c).2.phase? t = some .active) :
    (s.step c).2.copyOf? t obj = some copy := by
  obtain ⟨tx, htx, found⟩ := copyOf?_eq_some.1 hcopy
  obtain ⟨tx', htx', hactive⟩ := phase?_eq_some active
  have e := step_effect (s := s) single
  exact copyOf?_eq_some.2 ⟨tx', htx',
    (e.turn (L := L) kept.ground htx').copyOf?_of_active htx (kept.unstopped care e) hactive found⟩

/-- A run of calls that the transaction is active at keeps its copies, where no call is a commit. -/
theorem copyOf?_run_single {cs : List Command} (life : Lived careful s L) (allowed : AllAllowed careful s L cs)
    (single : ∀ c ∈ cs, ∀ t, c ≠ .commit t) (stays : s.StaysActive t cs) (hcopy : s.copyOf? t obj = some copy) :
    (s.run cs).2.copyOf? t obj = some copy := by
  induction cs generalizing s L with
  | nil => exact hcopy
  | cons c cs ih =>
    obtain ⟨hsingle, single⟩ := List.forall_mem_cons.1 single
    exact ih (life.step allowed.1) allowed.2 single stays.2
      (copyOf?_step life.kept allowed.1 hsingle hcopy stays.2.now)

/-- So does any run, as a commit is the steps it takes. -/
theorem copyOf?_run {cs : List Command} (life : Lived careful s L) (allowed : AllAllowed careful s L cs)
    (stays : s.StaysActive t cs) (hcopy : s.copyOf? t obj = some copy) : (s.run cs).2.copyOf? t obj = some copy := by
  induction cs generalizing s L with
  | nil => exact hcopy
  | cons c cs ih =>
    have active : (s.step c).2.phase? t = some .active := stays.2.now
    have next : (s.step c).2.copyOf? t obj = some copy := by
      by_cases hcommit : ∃ t', c = .commit t'
      · obtain ⟨t', rfl⟩ := hcommit
        obtain ⟨allowed, single⟩ := careful_divides.parts allowed.1
        rw [← run_parts] at active ⊢
        refine copyOf?_run_single life allowed single (staysActive_of_run ?_ active) hcopy
        intro c' hc'
        rcases parts_commit s t' c' hc' with rfl | rfl | rfl <;> exact nofun
      · exact copyOf?_step life.kept allowed.1 (fun t' e => hcommit ⟨t', e⟩) hcopy active
    exact ih (life.step allowed.1) allowed.2 stays.2 next

/-! ## Both names lead to the copy -/

/-- The copy that the transaction has of the object is the only one it will have. -/
structure Settled (s : Session) (t obj copy : Nat) : Prop where
  known : (s.handle? t).bind (·.copyOf? obj) = some copy
  again : s.step (.copyOnWrite t obj) = (.ok (.address copy), s)
  againCopy : s.step (.copyOnWrite t copy) = (.ok (.address copy), s)
  canonical : s.step (.canonical t (some obj)) = (.ok (.address? (some obj)), s)
  canonicalCopy : s.step (.canonical t (some copy)) = (.ok (.address? (some obj)), s)

theorem settled_of_copyOf? (life : Lived careful s L) (active : s.phase? t = some .active)
    (hcopy : s.copyOf? t obj = some copy) : Settled s t obj copy := by
  have kept := life.kept
  obtain ⟨tx, htx, found⟩ := copyOf?_eq_some.1 hcopy
  obtain ⟨h, hh, hx⟩ := handle_of_tx? htx
  rw [phase?_of_tx? htx] at active
  have mirrors := (life.mirrored t tx htx).mirrors kept.shared
  have mem := ObjectMap.mem_of_copyOf? found
  obtain ⟨⟨r, hr, rfl⟩, x, hx', rfl⟩ := mirrors.places obj copy mem
  obtain ⟨-, header, -, hheader, -, -, -, -, -, version⟩ := mirrors.headers _ _ mem
  have located := locate_shared kept htx hx hr
  have sees : h.sees x.addr = true := by
    rw [Handle.sees, hx]
    exact (life.standing t tx htx).places.contains hx'
  have worker := (kept.ground.workers t tx htx).1
  refine ⟨?_, ?_, step_copyOnWrite_own hh sees, step_canonical hh ?_, step_canonical hh ?_⟩
  · rw [hh, Option.bind_some, Handle.copyOf?, hx, Option.bind_some, found]
  · rw [step_map rfl, copyOnWrite_shared hh hx worker (Option.some.inj active) located, found]
  · rw [Handle.canonical, located]
    rfl
  · simp only [Handle.canonical, Handle.locate, if_pos sees, Handle.nursery, hx, hheader, version, bind, Except.bind, pure,
      Except.pure]
    rfl

theorem careful_copyOnWrite (kept : Kept s L) (hr : r ∈ L.shared) : careful s L (.copyOnWrite t r.addr) := by
  refine ⟨?_, nofun⟩
  intro x hx
  cases hx
  refine ⟨fun tx htx hin => ?_, fun _ => ⟨r, hr, rfl⟩⟩
  rw [kept.ground.not_nursery htx (kept.shared.contains hr)] at hin
  cases hin

/--
The first copy-on-write of a shared object makes a copy. From then on, whatever this thread
and others do, both names lead to the copy as long as the transaction is active. A private
object needs no copy.
-/
theorem objects_are_copied_once (life : Lived careful s L) (htx : s.tx? t = some tx) (hactive : tx.phase = .active) :
    (∀ r ∈ L.shared, tx.objects.copyOf? r.addr = none → ∀ copy s',
        s.step (.copyOnWrite t r.addr) = (.ok (.address copy), s') →
          (∃ tx', s'.tx? t = some tx' ∧ Copied s r copy tx tx') ∧
            ∀ cs, AllAllowed careful s' (L.after s (.copyOnWrite t r.addr)) cs → s'.StaysActive t cs →
              Settled (s'.run cs).2 t r.addr copy) ∧
      ∀ r ∈ L.own t, s.step (.copyOnWrite t r.addr) = (.ok (.address r.addr), s) := by
  have kept := life.kept
  refine ⟨?_, ?_⟩
  · intro r hr hnone copy s' answered
    obtain ⟨tx', htx', made⟩ := copied_of_step life htx hactive hr hnone answered
    refine ⟨⟨tx', htx', made⟩, ?_⟩
    intro cs allowed stays
    have life' : Lived careful s' (L.after s (.copyOnWrite t r.addr)) := by
      have next := life.step (careful_copyOnWrite (t := t) kept hr)
      rwa [answered] at next
    have found : s'.copyOf? t r.addr = some copy := by
      refine copyOf?_eq_some.2 ⟨tx', htx', ?_⟩
      rw [ObjectMap.copyOf?, made.roots, List.lookup_append, show tx.objects.pairs.lookup r.addr = none from hnone,
        Option.none_or, List.lookup_cons_self]
    exact settled_of_copyOf? (life'.along allowed) stays.last (copyOf?_run life' allowed stays found)
  · intro r hr
    obtain ⟨h, hh, hx⟩ := handle_of_tx? htx
    refine step_copyOnWrite_own hh ?_
    rw [Handle.sees, hx]
    exact (life.standing t tx htx).places.contains hr

/-- Others store to the root, copy it and commit it; the first worker's copy stays the one that it has. -/
theorem objects_are_copied_once_overtaken :
    ∃ tx s', (Session.ofNodes.run (overtaken.take 7)).2.tx? 1 = some tx ∧ tx.phase = .active ∧
      tx.objects.copyOf? sharedStart = none ∧
      (Session.ofNodes.run (overtaken.take 7)).2.step (.copyOnWrite 1 sharedStart) = (.ok (.address nurseryStart), s') ∧
      Settled (s'.run (overtaken.drop 8)).2 1 sharedStart nurseryStart := by
  have life : Lived careful (Session.ofNodes.run (overtaken.take 7)).2 (Ledger.empty.along .ofNodes (overtaken.take 7)) :=
    .ofNodes (by decide +kernel)
  obtain ⟨r, hr, addr⟩ : ∃ r ∈ (Ledger.empty.along .ofNodes (overtaken.take 7)).shared, r.addr = sharedStart := by
    decide +kernel
  obtain ⟨tx, htx, hactive, hnone⟩ : ∃ tx, (Session.ofNodes.run (overtaken.take 7)).2.tx? 1 = some tx ∧
      tx.phase = .active ∧ tx.objects.copyOf? sharedStart = none := by
    have facts : ((Session.ofNodes.run (overtaken.take 7)).2.tx? 1).map (fun tx => (tx.phase, tx.objects.copyOf? sharedStart)) =
        some (.active, none) := by decide +kernel
    obtain ⟨tx, htx, e⟩ := Option.map_eq_some_iff.1 facts
    exact ⟨tx, htx, (Prod.mk.inj e).1, (Prod.mk.inj e).2⟩
  have answered : (Session.ofNodes.run (overtaken.take 7)).2.step (.copyOnWrite 1 sharedStart) =
      (.ok (.address nurseryStart), ((Session.ofNodes.run (overtaken.take 7)).2.step (.copyOnWrite 1 sharedStart)).2) := by
    refine Prod.ext ?_ rfl
    decide +kernel
  refine ⟨tx, _, htx, hactive, hnone, answered, ?_⟩
  rw [← addr] at answered hnone ⊢
  refine ((objects_are_copied_once life htx hactive).1 r hr hnone _ _ answered).2 (overtaken.drop 8) ?_ ?_
  · rw [addr]
    decide +kernel
  · rw [addr]
    decide +kernel

end

end TxHeap

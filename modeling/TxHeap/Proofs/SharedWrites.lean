/-
  TxHeap.Proofs.SharedWrites — who writes to shared objects, and what.

  After any careful run the shared heap holds exactly what its ledger says: an object has the
  bytes it was born with, under the stores of the main thread to it and the whole bodies that
  applies have laid over it, in the order of the run; its header is as it was made, but for
  the mark that a working copy of it exists or existed (`shared_bytes_as_recorded`). Nothing
  else that any thread does, in whatever order, reaches a byte of a shared object.

  The invariant is `Kept`. It also says of a prepared transaction that its nursery is as its
  prepare left it, for the apply may come any number of steps later.
-/
import TxHeap.Proofs.Kept

namespace TxHeap

/-- What the shared heap must have, and the nursery must be like, for a transaction to be applied. -/
structure Backed (layout : Layout) (shared own : List Record) (tx : Transaction) : Prop where
  rooted : tx.phase = .active ∨ tx.phase = .prepared → RootedIn own shared
  prepared : tx.phase = .prepared → Prepared layout own tx

structure Kept (s : Session) (L : Ledger) : Prop where
  ground : Grounded s
  shared : s.heap.shared.Keeps s.heap.layout L.shared
  kinds : AllShared L.shared
  intact : s.AllIntact L
  backed : s.Each L (Backed s.heap.layout L.shared)

namespace Backed

variable {layout : Layout} {shared shared' own : List Record} {tx : Transaction} {nursery : Arena} {size : Nat}

theorem widen (h : Backed layout shared own tx) (wider : RootedIn own shared → RootedIn own shared') :
    Backed layout shared' own tx :=
  ⟨fun hp => wider (h.rooted hp), h.prepared⟩

theorem tokens (h : Backed layout shared own tx) (tokens : TokenTable) : Backed layout shared own { tx with tokens } :=
  ⟨h.rooted, fun hp => ⟨(h.prepared hp).places, (h.prepared hp).pairs, (h.prepared hp).header⟩⟩

/-- Room may be taken in the nursery at any time. -/
theorem grow (h : Backed layout shared own tx) (g : tx.nursery.Grew nursery size) :
    Backed layout shared own { tx with nursery } := by
  refine ⟨h.rooted, fun hp => ⟨(h.prepared hp).places.grow g, (h.prepared hp).pairs, ?_⟩⟩
  intro r hr root hk
  rw [g.memory]
  exact (h.prepared hp).header r hr root hk

/-- An active transaction needs its working copies to be rooted, no more. -/
theorem of_active (hactive : tx.phase = .active) (rooted : RootedIn own shared) : Backed layout shared own tx :=
  ⟨fun _ => rooted, fun hp => by rw [hactive] at hp; cases hp⟩

/-- A transaction that failed or was applied needs nothing. -/
theorem of_ended (h : tx.phase = .failed ∨ tx.phase = .applied) : Backed layout shared own tx := by
  constructor
  · intro hp
    rcases h with h | h <;> rw [h] at hp <;> rcases hp with hp | hp <;> cases hp
  · intro hp
    rcases h with h | h <;> rw [h] at hp <;> cases hp

end Backed

/-! ## Preparing and applying -/

section

variable {s s' : Session} {L : Ledger} {c : Command} {o : Outcome} {t : Nat} {tx : Transaction}

theorem Kept.ready (h : Kept s L) (htx : s.tx? t = some tx) (hactive : tx.phase = .active) (aim : L.FieldsAim s t) :
    Ready s.heap.layout (L.own t) L.shared (.ofHeap s.heap tx) :=
  (h.intact t tx htx hactive).ready h.ground.sound h.ground.roomy h.shared (aim tx htx hactive)

theorem Kept.run (h : Kept s L) (htx : s.tx? t = some tx) (hactive : tx.phase = .active) (aim : L.FieldsAim s t) :
    Step.Ends (Prepare.run s.heap.layout t) (.ofHeap s.heap tx)
      (fun report q => ∃ g, Going s.heap.layout (L.own t) L.shared (.ofHeap s.heap tx) True g q ∧
        Finished s.heap.layout (L.own t) g ∧ report.promoted = g.moves.length)
      fun f q => Prepare.Stuck t True (fun _ => True) f ∧
        ∃ g, Going s.heap.layout (L.own t) L.shared (.ofHeap s.heap tx) True g q :=
  (going_run (h.ready htx hactive aim) t).mono (fun _ _ h => h)
    fun _ _ hf => ⟨hf.1.mono (fun _ => trivial) fun _ _ => trivial, hf.2⟩

theorem Kept.unstopped (h : Kept s L) (hc : careful s L c) (e : Effect s c o s') : Unstopped s c o := by
  intro f e found
  subst e
  obtain ⟨t, tx, rfl, htx, hactive⟩ := found
  have ends := h.run htx hactive (hc.2 t rfl)
  cases e with
  | refused hp => exact absurd ⟨_, _, rfl, htx, hactive⟩ hp
  | prepareFailed => exact ⟨_, rfl⟩
  | prepareStopped htx' _ _ hrun =>
    rw [htx] at htx'
    cases htx'
    exact (ends.of_error hrun).1.refused

/-- A prepared transaction can be applied whatever has happened since. -/
theorem Kept.apply (h : Kept s L) (htx : s.tx? t = some tx) (hp : tx.phase = .prepared) :
    Step.Ends (Action.overwriteAll s.heap.layout tx tx.objects.pairs) s.heap.shared
      (fun _ b => b.Keeps s.heap.layout (Ledger.overwritten tx.nursery.memory (L.own t) L.shared)) fun _ _ => False := by
  have backed := h.backed t tx htx
  rw [(backed.prepared hp).pairs]
  exact keeps_overwriteAll (backed.prepared hp) (fun _ hr => hr) h.shared (backed.rooted (.inr hp))

end

/-- What overwriting one root keeps, overwriting them all keeps. -/
theorem overwritten_induction {own rs : List Record} {m : Memory} {P : List Record → Prop}
    (amend : ∀ rs, P rs → ∀ r ∈ own, ∀ root, r.kind = .copyOf root →
      P (amend rs root (·.push (.body (m.read r.bodyAddr r.bodySize)))))
    (h : P rs) : P (Ledger.overwritten m own rs) := by
  rw [Ledger.overwritten]
  induction own generalizing rs with
  | nil => exact h
  | cons r own ih =>
    have rest := fun rs hrs x hx => amend rs hrs x (List.mem_cons_of_mem r hx)
    rw [List.foldl_cons]
    split
    · rename_i root hk
      exact ih rest (amend rs h r List.mem_cons_self root hk)
    · exact ih rest h

theorem allShared_twinsOf {own : List Record} {nursery shared : Memory} {whole : Bool} :
    AllShared (Ledger.twinsOf own nursery shared whole) := by
  intro x hx
  obtain ⟨r, -, hx⟩ := List.mem_filterMap.1 hx
  obtain ⟨-, twin, -, rfl⟩ := twin?_eq_some.1 hx
  exact ⟨whole, false, rfl⟩

/-! ## What each call does to the shared heap -/

theorem Record.mark_header {r : Record} {whole copied : Bool} (h : r.kind = .shared whole copied) :
    r.mark.header = r.header.markCopied := by
  rw [Record.mark, h]
  cases copied with
  | false => rw [Record.header, Record.header, h]
  | true => rw [Record.header, Record.header, h, Header.markCopied_markCopied]

section

variable {s s' : Session} {L : Ledger} {c : Command} {o : Outcome} {t : Nat} {shared : Arena} {rs : List Record}

/-- A shared object can be marked. -/
theorem Kept.fits_mark {r : Record} (h : Kept s L) (hr : r ∈ L.shared) :
    r.mark.header = r.header.markCopied ∧ r.mark.header.Fits := by
  obtain ⟨whole, copied, hk⟩ := h.kinds r hr
  refine ⟨Record.mark_header hk, Record.header_fits ?_ ?_⟩
  · rw [r.mark_shape.2.1]
    exact Layout.typeId_lt_of_objectSize h.ground.sound (h.shared.sized r hr)
  · intro a ha
    rw [Record.mark, hk] at ha
    rcases ha with ha | ha <;> cases ha

/-- The shared heap keeps the records that a call enters. -/
theorem Entry.keeps (entry : Entry s L c o shared rs) (h : Kept s L) (hc : careful s L c) (unstopped : Unstopped s c o) :
    shared.Keeps s.heap.layout rs := by
  cases entry with
  | same => exact h.shared
  | grew grew => exact h.shared.grow grew
  | @created typeId size obj _ hsize hp =>
    have fits : (Header.new typeId Flag.global).Fits :=
      Header.fits_new (Layout.typeId_lt_of_objectSize h.ground.sound hsize) (by decide)
    exact (h.shared.place (.shared true false) h.ground.blank hsize fits rfl hp).1
  | @marked t obj _ _ hspace hh =>
    obtain ⟨r, hr, rfl⟩ := (hc.1 (t, obj) rfl).2 hspace
    have header := (Arena.header_eq_ok.1 hh).2.symm.trans (h.shared.header r hr)
    obtain ⟨mark, fits⟩ := h.fits_mark hr
    rw [header, ← mark]
    exact h.shared.setHeader hr r.mark_shape fits
  | @stored obj _ _ _ _ hspace hfield hw =>
    obtain ⟨r, hr, rfl⟩ := (hc.1 (mainThread, obj) rfl).2 hspace
    obtain ⟨rfl, fit⟩ := field_of_object h.shared hr hfield
    obtain ⟨-, rfl⟩ := Arena.writeWord_eq_ok.1 hw
    exact h.shared.storeWord hr fit
  | @prepared t _ _ _ htx hactive hrun =>
    obtain ⟨g, going, -⟩ := (h.run htx hactive (hc.2 t rfl)).of_ok hrun
    exact going.keeps_twinsOf (h.ready htx hactive (hc.2 t rfl)) true
  | @prepareFailed t _ _ _ htx hactive hrun =>
    obtain ⟨-, g, going⟩ := (h.run htx hactive (hc.2 t rfl)).of_error hrun
    exact going.keeps_twinsOf (h.ready htx hactive (hc.2 t rfl)) false
  | stopped htx hactive hf => exact (unstopped.not_stopped htx hactive hf).elim
  | applied htx hp hrun => exact (h.apply htx hp).of_ok hrun
  | applyStopped htx hp hrun => exact ((h.apply htx hp).of_error hrun).elim

/-- What every call enters keeps all records shared, and roots where they were. -/
theorem Entry.settled (entry : Entry s L c o shared rs) (h : Kept s L) (unstopped : Unstopped s c o) :
    AllShared rs ∧ ∀ own, RootedIn own L.shared → RootedIn own rs := by
  cases entry with
  | same => exact ⟨h.kinds, fun _ rooted => rooted⟩
  | grew => exact ⟨h.kinds, fun _ rooted => rooted⟩
  | created =>
    refine ⟨h.kinds.append ?_, fun _ rooted => rooted.append _⟩
    intro r hr
    rw [List.mem_singleton.mp hr]
    exact ⟨true, false, rfl⟩
  | marked => exact ⟨h.kinds.settled Record.settled_mark, fun _ rooted => rooted.settled Record.settled_mark⟩
  | stored => exact ⟨h.kinds.settled (Record.settled_push _), fun _ rooted => rooted.settled (Record.settled_push _)⟩
  | prepared => exact ⟨h.kinds.append allShared_twinsOf, fun _ rooted => rooted.append _⟩
  | prepareFailed => exact ⟨h.kinds.append allShared_twinsOf, fun _ rooted => rooted.append _⟩
  | stopped htx hactive hf => exact (unstopped.not_stopped htx hactive hf).elim
  | applied =>
    refine ⟨overwritten_induction ?_ h.kinds, fun own rooted => overwritten_induction (P := RootedIn own) ?_ rooted⟩
    · intro rs kinds r _ root _
      exact kinds.settled (Record.settled_push _)
    · intro rs rooted r _ root _
      exact rooted.settled (Record.settled_push _)
  | applyStopped htx hp hrun => exact ((h.apply htx hp).of_error hrun).elim

/-! ## What each call does to transactions -/

/-- What a preparation leaves is ready to be applied. -/
theorem Going.prepared {layout : Layout} {own shared : List Record} {p₀ p : Preparation} {late : Prop} {g : Progress}
    {tx : Transaction} (ready : Ready layout own shared p₀) (h : Going layout own shared p₀ late g p)
    (nursery : tx.nursery = p.tx.nursery) (objects : tx.objects = p.tx.objects) : Prepared layout own tx := by
  refine ⟨?_, ?_, ?_⟩
  · rw [nursery]
    refine h.nursery.toPlaces.of_shape rfl rfl ?_
    rw [List.map_map]
    refine List.map_congr_left ?_
    intro r hr
    obtain ⟨addr, typeId, size⟩ := h.shape r hr
    simp only [Function.comp_apply, addr, typeId, size]
  · rw [objects, h.onward.objects, ready.pairs]
  · intro r hr root hk
    have header := h.nursery.header _ (List.mem_map_of_mem (f := g.own) hr)
    obtain ⟨addr, typeId, -⟩ := h.shape r hr
    rw [nursery, ← addr, header, Record.header, Record.header, h.copies r hr root hk, hk, typeId]

/-- Whatever turn a transaction takes, it stays backed. -/
theorem Turn.backed {own : List Record} {tx : Transaction} (turn : Turn s L t c o s' own tx) (h : Kept s L)
    (hc : careful s L c) (unstopped : Unstopped s c o)
    (wider : ∀ own, RootedIn own L.shared → RootedIn own (L.record s c o s').shared) :
    Backed s.heap.layout (L.record s c o s').shared own tx := by
  have old : ∀ {tx}, s.tx? t = some tx → Backed s.heap.layout (L.record s c o s').shared (L.own t) tx :=
    fun htx => (h.backed t _ htx).widen (wider _)
  have rooted : ∀ {tx}, s.tx? t = some tx → tx.phase = .active → RootedIn (L.own t) (L.record s c o s').shared :=
    fun htx hactive => (old htx).rooted (.inl hactive)
  cases turn with
  | same htx => exact old htx
  | started =>
    refine .of_active rfl ?_
    intro r hr
    cases hr
  | issued htx => exact (old htx).tokens _
  | grew htx grew => exact (old htx).grow grew
  | created htx hactive =>
    refine .of_active hactive ((rooted htx hactive).add ?_)
    intro r hr root hk
    rw [List.mem_singleton.mp hr] at hk
    cases hk
  | copied htx hactive hspace _ hh hsize _ _ hshared =>
    obtain ⟨r, hr, rfl⟩ := (hc.1 (t, _) rfl).2 hspace
    refine .of_active hactive ((rooted htx hactive).add ?_)
    intro x hx root hk
    rw [List.mem_singleton.mp hx] at hk ⊢
    cases hk
    -- the object that was copied is now marked
    obtain ⟨whole, copied, hkind⟩ := h.kinds r hr
    have header := (Arena.header_eq_ok.1 hh).2.symm.trans (h.shared.header r hr)
    have typeId := (congrArg Header.typeId header).trans r.header_typeId
    rw [typeId, h.shared.sized r hr] at hsize
    obtain ⟨addr, ety, esz, -⟩ := r.mark_shape
    refine ⟨r.mark, ?_, addr, ety.trans typeId.symm, esz.trans (Except.ok.inj hsize), whole, ?_⟩
    · have := List.mem_map_of_mem (f := fun x : Record => if x.addr = r.addr then x.mark else x) hr
      rw [if_pos rfl] at this
      rw [hshared]
      exact this
    · rw [Record.mark, hkind]
  | wrote htx hactive => exact .of_active hactive (rooted htx hactive).push
  | prepared htx hactive hrun _ =>
    obtain ⟨g, going, -⟩ := (h.run htx hactive (hc.2 t rfl)).of_ok hrun
    exact ⟨fun _ => rooted htx hactive, fun _ => going.prepared (h.ready htx hactive (hc.2 t rfl)) rfl rfl⟩
  | stopped htx hactive hf => exact (unstopped.not_stopped htx hactive hf).elim
  | prepareFailed => exact .of_ended (.inl rfl)
  | passed _ _ hphase => exact .of_ended hphase

/-- What every careful call keeps. -/
theorem Effect.kept (h : Kept s L) (hc : careful s L c) (e : Effect s c o s') : Kept s' (L.record s c o s') := by
  have follows := e.follows
  have entry := e.entry (L := L) h.ground
  have unstopped := h.unstopped hc e
  obtain ⟨kinds, wider⟩ := entry.settled h unstopped
  refine ⟨h.ground.follows follows, ?_, kinds, e.intact h.ground h.intact hc.storesAim unstopped, ?_⟩
  · rw [follows.layout]
    exact entry.keeps h hc unstopped
  · intro t tx htx
    rw [follows.layout]
    exact (e.turn h.ground htx).backed h hc unstopped wider

end

theorem kept_create {config : Config} {registry : Registry} {log : EventLog} {s : Session} (fits : config.Fits)
    (built : registry.Built) (h : Session.create config registry.layout log = .ok s) : Kept s .empty where
  ground := grounded_create fits built h
  shared := .nil _ _
  kinds := nofun
  intact := allIntact_create h
  backed := each_create h

/-- What a careful rule preserves of the sessions that their ledgers keep, every life of it has. -/
theorem Lived.alongside {allowed : Rule} {I : Session → Ledger → Prop} {s : Session} {L : Ledger}
    (divides : allowed.Divides) (within : ∀ {s L c}, allowed s L c → careful s L c)
    (start : ∀ {config layout log s}, Session.create config layout log = .ok s → I s .empty)
    (step : ∀ {s L c}, Kept s L → I s L → allowed s L c → Effect s c (s.step c).1 (s.step c).2 →
      I (s.step c).2 (L.enter s c))
    (h : Lived allowed s L) : Kept s L ∧ I s L := by
  refine Lived.invariant (I := fun s L => Kept s L ∧ I s L) divides ?_ ?_ h
  · intro config registry log s fits built hs
    exact ⟨kept_create fits built hs, start hs⟩
  · intro s L c ⟨kept, holds⟩ hc care
    have e := step_effect (s := s) hc
    exact ⟨e.kept kept (within care), step kept holds care e⟩

theorem Lived.kept {s : Session} {L : Ledger} (h : Lived careful s L) : Kept s L :=
  (h.alongside (I := fun _ _ => True) careful_divides id (fun _ => trivial) fun _ _ _ _ => trivial).1

/-! ## Shared objects -/

/-- The header of a shared object tells its type, that it is shared, and whether it has been copied. -/
theorem Record.header_shared {r : Record} {whole copied : Bool} (h : r.kind = .shared whole copied) :
    r.header.isGlobal = true ∧ r.header.version = .empty ∧ r.header.isCopied = copied := by
  cases copied with
  | false =>
    have flags : r.header.flags = Flag.global &&& Flag.untagged := by rw [Record.header, h]; rfl
    have slot : r.header.slot = 0 := by rw [Record.header, h]; rfl
    rw [Header.isGlobal, Header.version, Header.isCopied, flags, if_pos slot]
    decide
  | true =>
    have flags : r.header.flags = Flag.global &&& Flag.untagged ||| Flag.copied := by rw [Record.header, h]; rfl
    have slot : r.header.slot = 0 := by rw [Record.header, h]; rfl
    rw [Header.isGlobal, Header.version, Header.isCopied, flags, if_pos slot]
    decide

/--
Every shared object holds what it was born with under the main thread's stores and the
applied bodies, in order, and its header changes in nothing but the mark of a copy.
-/
theorem shared_bytes_as_recorded {s : Session} {L : Ledger} {r : Record} (life : Lived careful s L) (hr : r ∈ L.shared) :
    s.heap.shared.memory.read r.bodyAddr r.bodySize = r.content ∧
      (s.heap.shared.memory.headerAt r.addr).typeId = r.typeId ∧
      (s.heap.shared.memory.headerAt r.addr).isGlobal = true ∧
      (s.heap.shared.memory.headerAt r.addr).version = .empty ∧
      ∃ whole copied, r.kind = .shared whole copied ∧ (s.heap.shared.memory.headerAt r.addr).isCopied = copied := by
  have kept := life.kept
  obtain ⟨whole, copied, hk⟩ := kept.kinds r hr
  obtain ⟨global, version, mark⟩ := Record.header_shared hk
  rw [kept.shared.header r hr]
  exact ⟨kept.shared.body r hr, r.header_typeId, global, version, whole, copied, hk, mark⟩

/-- The main thread stores to a root between the prepare and the apply of a transaction, and once more at the end. -/
def racing : List Command :=
  let root := sharedStart
  let copy := nurseryStart
  let x := copy + 48
  [.attachMain, .create mainThread 0, .write mainThread root 24 5, .attachWorker, .start 1, .copyOnWrite 1 root,
    .create 1 0, .write 1 copy 0 x, .write 1 copy 24 7, .prepare 1, .write mainThread root 24 9, .apply 1,
    .write mainThread root 20 11, .finish 1]

/-- The root has three stores of the main thread, and one body that was applied. -/
theorem shared_bytes_as_recorded_racing :
    ∃ r ∈ (Ledger.empty.along .ofNodes racing).shared, r.stores.length = 4 ∧
      (Session.ofNodes.run racing).2.heap.shared.memory.read r.bodyAddr r.bodySize = r.content ∧
      ((Session.ofNodes.run racing).2.heap.shared.memory.headerAt r.addr).isCopied = true := by
  have life : Lived careful (Session.ofNodes.run racing).2 (Ledger.empty.along .ofNodes racing) :=
    .ofNodes (by decide +kernel)
  obtain ⟨r, hr, stores, hk⟩ : ∃ r ∈ (Ledger.empty.along .ofNodes racing).shared, r.stores.length = 4 ∧
      r.kind = .shared true true := by decide +kernel
  obtain ⟨body, -, -, -, whole, copied, hk', mark⟩ := shared_bytes_as_recorded life hr
  rw [hk] at hk'
  cases hk'
  exact ⟨r, hr, stores, body, mark⟩

end TxHeap

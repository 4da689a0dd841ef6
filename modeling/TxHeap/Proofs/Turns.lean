/-
  TxHeap.Proofs.Turns — what a call does to each transaction and to the shared heap.

  A call changes the transaction of at most the thread that makes it, and there are few ways
  in which it does (`Turn`). Each way comes with the records that the ledger then has of the
  thread's objects, so that what calls preserve of a single transaction is shown by cases on
  the turn it takes (`Effect.turn`), without a word on threads or the heap. In the same way
  there are few things that a call can do to shared objects (`Entry`, `Effect.entry`).
-/
import TxHeap.Proofs.Ground
import TxHeap.Proofs.Ledger

namespace TxHeap

/-- The transaction of thread `t` comes out of the call as given last, and its objects with the records before it. -/
inductive Turn (s : Session) (L : Ledger) (t : Nat) : Command → Outcome → Session → List Record → Transaction → Prop
  | same {c : Command} {o : Outcome} {s' : Session} {tx : Transaction} : s.tx? t = some tx → Turn s L t c o s' (L.own t) tx
  | started {nursery : Arena} {s' : Session} : s.tx? t = none → s.heap.newNursery t = .ok nursery →
      Turn s L t (.start t) (.ok .done) s' [] (.fresh nursery)
  /-- A fresh object got its token. -/
  | issued {obj : Nat} {s' : Session} {tx : Transaction} : s.tx? t = some tx → tx.tokens.get? obj = none →
      Turn s L t (.token t obj) (.ok (.token s.heap.nextToken)) s' (L.own t)
        { tx with tokens := tx.tokens.insert obj s.heap.nextToken }
  /-- Room was taken in the nursery. -/
  | grew {c : Command} {o : Outcome} {s' : Session} {tx : Transaction} {nursery : Arena} {size : Nat} :
      s.tx? t = some tx → tx.nursery.Grew nursery size → Turn s L t c o s' (L.own t) { tx with nursery }
  | created {typeId size obj : Nat} {tx : Transaction} {nursery : Arena} {s' : Session} :
      s.tx? t = some tx → tx.phase = .active → s.heap.layout.objectSize typeId = .ok size →
      tx.nursery.place size (.new typeId 0) = .ok (obj, nursery) →
      Turn s L t (.create t typeId) (.ok (.address obj)) s' (L.own t ++ [.blank .fresh obj typeId size]) { tx with nursery }
  | copied {obj size : Nat} {h : Header} {tx : Transaction} {grown : Arena} {s' : Session} :
      s.tx? t = some tx → tx.phase = .active → s.heap.spaceOf obj = .shared → tx.objects.copyOf? obj = none →
      s.heap.shared.header obj = .ok h → s.heap.layout.objectSize h.typeId = .ok size →
      tx.nursery.Grew grown size → s.heap.shared.Spans obj size →
      (L.record s (.copyOnWrite t obj) (.ok (.address tx.nursery.freePointer)) s').shared = amend L.shared obj Record.mark →
      Turn s L t (.copyOnWrite t obj) (.ok (.address tx.nursery.freePointer)) s'
        (L.own t ++ [⟨tx.nursery.freePointer, h.typeId, size, .copyOf obj,
          s.heap.shared.memory.read (obj + headerSize) (size - headerSize), []⟩])
        { tx with
          nursery := { grown with
            memory := (grown.memory.write tx.nursery.freePointer (s.heap.shared.memory.read obj size)).setHeaderAt
              tx.nursery.freePointer (Action.copyHeader h.typeId obj) }
          objects := ⟨tx.objects.pairs ++ [(obj, tx.nursery.freePointer)]⟩ }
  | wrote {obj offset value addr : Nat} {tx : Transaction} {nursery : Arena} {s' : Session} :
      s.tx? t = some tx → tx.phase = .active → tx.nursery.contains obj = true →
      Handle.field s.heap tx.nursery obj offset = .ok addr → tx.nursery.writeWord addr value = .ok nursery →
      Turn s L t (.write t obj offset value) (.ok .done) s' (amend (L.own t) obj (·.push (.word offset value)))
        { tx with nursery }
  | prepared {tx : Transaction} {report : Report} {p : Preparation} {s' : Session} :
      s.tx? t = some tx → tx.phase = .active → Prepare.run s.heap.layout t (.ofHeap s.heap tx) = .ok report p →
      s'.heap.shared = p.shared → s'.heap.tokens = p.tokens →
      Turn s L t (.prepare t) (.ok (.report report)) s' (L.own t) { p.tx with phase := .prepared, report }
  /-- The arithmetic of a preparation left the range of words. -/
  | stopped {tx tx' : Transaction} {f : Failure} {s' : Session} : s.tx? t = some tx → tx.phase = .active →
      (∀ cause, f ≠ .refused cause) → Turn s L t (.prepare t) (.error f) s' (L.own t) tx'
  | prepareFailed {tx : Transaction} {cause : Refusal} {p : Preparation} {s' : Session} : s.tx? t = some tx →
      tx.phase = .active → Prepare.run s.heap.layout t (.ofHeap s.heap tx) = .error (.refused cause) p →
      s'.heap.shared = p.shared → s'.heap.tokens = p.tokens →
      Turn s L t (.prepare t) (.error (.refused cause)) s' (L.own t) p.tx.failed
  /-- The roots were written, or some could not be. -/
  | passed {o : Outcome} {s' : Session} {tx : Transaction} {phase : Phase} : s.tx? t = some tx → tx.phase = .prepared →
      phase = .failed ∨ phase = .applied → Turn s L t (.apply t) o s' (L.own t) { tx with phase }

/-- The shared heap comes out of the call as given, and its objects with the records after it. -/
inductive Entry (s : Session) (L : Ledger) : Command → Outcome → Arena → List Record → Prop
  | same {c : Command} {o : Outcome} : Entry s L c o s.heap.shared L.shared
  /-- Room was taken in the shared heap. -/
  | grew {c : Command} {o : Outcome} {shared : Arena} {size : Nat} : s.heap.shared.Grew shared size →
      Entry s L c o shared L.shared
  | created {typeId size obj : Nat} {shared : Arena} : s.heap.layout.objectSize typeId = .ok size →
      s.heap.shared.place size (.new typeId Flag.global) = .ok (obj, shared) →
      Entry s L (.create mainThread typeId) (.ok (.address obj)) shared
        (L.shared ++ [.blank (.shared true false) obj typeId size])
  /-- The object got a working copy. -/
  | marked {t obj copy : Nat} {h : Header} : s.heap.spaceOf obj = .shared → s.heap.shared.header obj = .ok h →
      Entry s L (.copyOnWrite t obj) (.ok (.address copy))
        { s.heap.shared with memory := s.heap.shared.memory.setHeaderAt obj h.markCopied } (amend L.shared obj Record.mark)
  | stored {obj offset value addr : Nat} {shared : Arena} : s.heap.spaceOf obj = .shared →
      Handle.field s.heap s.heap.shared obj offset = .ok addr → s.heap.shared.writeWord addr value = .ok shared →
      Entry s L (.write mainThread obj offset value) (.ok .done) shared (amend L.shared obj (·.push (.word offset value)))
  | prepared {t : Nat} {tx : Transaction} {report : Report} {p : Preparation} : s.tx? t = some tx → tx.phase = .active →
      Prepare.run s.heap.layout t (.ofHeap s.heap tx) = .ok report p →
      Entry s L (.prepare t) (.ok (.report report)) p.shared
        (L.shared ++ Ledger.twinsOf (L.own t) p.tx.nursery.memory p.shared.memory true)
  | prepareFailed {t : Nat} {tx : Transaction} {cause : Refusal} {p : Preparation} : s.tx? t = some tx →
      tx.phase = .active → Prepare.run s.heap.layout t (.ofHeap s.heap tx) = .error (.refused cause) p →
      Entry s L (.prepare t) (.error (.refused cause)) p.shared
        (L.shared ++ Ledger.twinsOf (L.own t) p.tx.nursery.memory p.shared.memory false)
  /-- The arithmetic of a preparation left the range of words. -/
  | stopped {t : Nat} {tx : Transaction} {f : Failure} {shared : Arena} {rs : List Record} : s.tx? t = some tx →
      tx.phase = .active → (∀ cause, f ≠ .refused cause) → Entry s L (.prepare t) (.error f) shared rs
  | applied {t : Nat} {tx : Transaction} {shared : Arena} : s.tx? t = some tx → tx.phase = .prepared →
      Action.overwriteAll s.heap.layout tx tx.objects.pairs s.heap.shared = .ok () shared →
      Entry s L (.apply t) (.ok .done) shared (Ledger.overwritten tx.nursery.memory (L.own t) L.shared)
  /-- Some root could not be written. -/
  | applyStopped {t : Nat} {tx : Transaction} {f : Failure} {shared : Arena} {rs : List Record} : s.tx? t = some tx →
      tx.phase = .prepared → Action.overwriteAll s.heap.layout tx tx.objects.pairs s.heap.shared = .error f shared →
      Entry s L (.apply t) (.error f) shared rs

/-! ## What each call writes into the ledger -/

section

variable {s s' : Session} {L : Ledger} {c : Command} {o : Outcome} {t : Nat}

theorem record_refused {f : Failure} (hp : ¬ c.Prepares s) : L.record s c (.error f) s' = L := by
  cases c with
  | prepare t =>
    rw [Ledger.record_prepare, Ledger.prepared]
    split
    · rename_i tx tx' htx htx'
      exact if_neg fun e => hp ⟨t, tx, rfl, htx, e⟩
    · rfl
  | _ => rfl

theorem record_asks {r : Reply} (hc : c.Asks) : L.record s c (.ok r) s' = L := by
  cases c <;> first | rfl | exact hc.elim

theorem record_prepare_own {t : Nat} : (L.record s (.prepare t) o s').own = L.own := by
  rw [Ledger.record_prepare, Ledger.prepared]
  split
  · split <;> rfl
  · rfl

theorem record_apply_own {t : Nat} : (L.record s (.apply t) o s').own = L.own := by
  cases o with
  | error f => rfl
  | ok r =>
    rw [Ledger.record_apply, Ledger.applied]
    split <;> rfl

theorem setOwn_self {rs : List Record} : (L.setOwn t rs).own t = rs := if_pos rfl

theorem setOwn_of_ne {rs : List Record} {t' : Nat} (ne : t' ≠ t) : (L.setOwn t rs).own t' = L.own t' := if_neg ne

theorem toOption_getD_of_ok {size : Nat} {x : Attempt Nat} (h : x = .ok size) : x.toOption.getD 0 = size := by
  subst h
  rfl

section

variable {obj typeId size offset value : Nat}

theorem record_createdShared (hsize : s.heap.layout.objectSize typeId = .ok size) :
    L.record s (.create mainThread typeId) (.ok (.address obj)) s' =
      { L with shared := L.shared ++ [.blank (.shared true false) obj typeId size] } := by
  simp only [Ledger.record_create, Ledger.created, if_pos, toOption_getD_of_ok hsize]

theorem record_created (hmain : t ≠ mainThread) (hsize : s.heap.layout.objectSize typeId = .ok size) :
    L.record s (.create t typeId) (.ok (.address obj)) s' = L.setOwn t (L.own t ++ [.blank .fresh obj typeId size]) := by
  simp only [Ledger.record_create, Ledger.created, if_neg hmain, toOption_getD_of_ok hsize]

theorem record_wroteShared :
    L.record s (.write mainThread obj offset value) (.ok .done) s' =
      { L with shared := amend L.shared obj (·.push (.word offset value)) } := by
  simp only [Ledger.record_write, Ledger.stored, if_pos]

theorem record_wrote (hmain : t ≠ mainThread) :
    L.record s (.write t obj offset value) (.ok .done) s' =
      L.setOwn t (amend (L.own t) obj (·.push (.word offset value))) := by
  simp only [Ledger.record_write, Ledger.stored, if_neg hmain]

/-- Where an object may be stored to as it is, no copy is new. -/
theorem uncopied_of_agrees {copy : Nat} (agrees : s.Agrees s') :
    ¬ (s.copyOf? t obj = none ∧ s'.copyOf? t obj = some copy) := by
  have same : s'.copyOf? t obj = s.copyOf? t obj := by rw [Session.copyOf?, agrees.tx?, Session.copyOf?]
  rintro ⟨e, e'⟩
  rw [same, e] at e'
  cases e'

/-- Nor is one that the transaction has already. -/
theorem uncopied_of_copyOf? {tx : Transaction} {copy copy' : Nat} (htx : s.tx? t = some tx)
    (hcopy : tx.objects.copyOf? obj = some copy) : ¬ (s.copyOf? t obj = none ∧ s'.copyOf? t obj = some copy') := by
  rintro ⟨e, -⟩
  rw [Session.copyOf?, htx, Option.bind_some, hcopy] at e
  cases e

/-- A new working copy is in the transaction's map afterwards. -/
theorem copied_of_agrees {tx : Transaction} {copy : Nat} {nursery shared : Arena} (htx : s.tx? t = some tx)
    (hnone : tx.objects.copyOf? obj = none)
    (agrees : ((s.setTx t (some { tx with nursery, objects := ⟨tx.objects.pairs ++ [(obj, copy)]⟩ })).setShared
      shared).Agrees s') : s.copyOf? t obj = none ∧ s'.copyOf? t obj = some copy := by
  rw [Session.copyOf?, Session.copyOf?, htx, agrees.tx?, Session.tx?_setShared,
    Session.tx?_setTx_of_tx? htx]
  refine ⟨hnone, ?_⟩
  rw [Option.bind_some, ObjectMap.copyOf?, List.lookup_append, show tx.objects.pairs.lookup obj = none from hnone,
    Option.none_or, List.lookup_cons_self]

theorem record_uncopied (agrees : s.Agrees s') : L.record s (.copyOnWrite t obj) (.ok (.address obj)) s' = L := by
  rw [Ledger.record_copyOnWrite, if_neg (uncopied_of_agrees agrees)]

theorem record_recopied {tx : Transaction} {copy : Nat} (htx : s.tx? t = some tx)
    (hcopy : tx.objects.copyOf? obj = some copy) :
    L.record s (.copyOnWrite t obj) (.ok (.address copy)) s' = L := by
  rw [Ledger.record_copyOnWrite, if_neg (uncopied_of_copyOf? htx hcopy)]

theorem record_copied {tx : Transaction} {copy : Nat} {header : Header} {nursery shared : Arena} (htx : s.tx? t = some tx)
    (hnone : tx.objects.copyOf? obj = none) (hh : s.heap.shared.header obj = .ok header)
    (hsize : s.heap.layout.objectSize header.typeId = .ok size)
    (agrees : ((s.setTx t (some { tx with nursery, objects := ⟨tx.objects.pairs ++ [(obj, copy)]⟩ })).setShared
      shared).Agrees s') :
    L.record s (.copyOnWrite t obj) (.ok (.address copy)) s' =
      { L.setOwn t (L.own t ++ [⟨copy, header.typeId, size, .copyOf obj,
          s.heap.shared.memory.read (obj + headerSize) (size - headerSize), []⟩]) with
        shared := amend L.shared obj Record.mark } := by
  have typeId : (s.heap.shared.memory.headerAt obj).typeId = header.typeId :=
    congrArg Header.typeId (Arena.header_eq_ok.1 hh).2
  rw [Ledger.record_copyOnWrite, if_pos (copied_of_agrees htx hnone agrees)]
  simp only [Ledger.copied, typeId, toOption_getD_of_ok hsize]

theorem record_prepared {tx : Transaction} {p : Preparation} {settle : Transaction → Transaction}
    (htx : s.tx? t = some tx) (hactive : tx.phase = .active) (agrees : (s.adopt t p settle).Agrees s') :
    L.record s (.prepare t) o s' = { L with
      shared := L.shared ++ Ledger.twinsOf (L.own t) (settle p.tx).nursery.memory p.shared.memory o.isOk } := by
  have htx' : s'.tx? t = some (settle p.tx) :=
    (agrees.tx? t).trans (Session.tx?_setTx_of_tx? htx)
  have shared : s'.heap.shared = p.shared := agrees.shared
  simp only [Ledger.record_prepare, Ledger.prepared, htx, htx', hactive, if_pos, shared]

theorem record_applied {tx : Transaction} (htx : s.tx? t = some tx) :
    L.record s (.apply t) (.ok .done) s' =
      { L with shared := Ledger.overwritten tx.nursery.memory (L.own t) L.shared } := by
  simp only [Ledger.record_apply, Ledger.applied, htx]

end

/-! ## Every transaction takes a turn -/

theorem Effect.turn {t' : Nat} {tx : Transaction} (ground : Grounded s) (e : Effect s c o s') (h : s'.tx? t' = some tx) :
    Turn s L t' c o s' ((L.record s c o s').own t') tx := by
  cases e with
  | refused hp _ agrees =>
    rw [record_refused hp]
    exact .same (agrees.tx? t' ▸ h)
  | answered asks agrees =>
    rw [record_asks asks]
    exact .same (agrees.tx? t' ▸ h)
  | exhausted _ agrees => exact .same (agrees.tx? t' ▸ h)
  | tokenIssued htx hnone _ agrees =>
    rw [agrees.tx?] at h
    obtain ⟨rfl, e⟩ | ⟨-, h⟩ := Session.tx?_setTx_cases h
    · cases e
      exact .issued htx hnone
    · exact .same h
  | attached hc agrees =>
    rw [agrees.tx?, Session.withHandles, Session.tx?_attach] at h
    rcases hc with rfl | rfl <;> exact .same h
  | @detached t _ agrees =>
    rw [agrees.tx?, Session.withHandles] at h
    by_cases e : t' = t
    · rw [e, Session.tx?_detach_self] at h
      cases h
    · exact .same (Session.tx?_detach_of_ne s _ e ▸ h)
  | started _ _ hnone hn agrees =>
    rw [agrees.tx?] at h
    obtain ⟨rfl, e⟩ | ⟨ne, h⟩ := Session.tx?_setTx_cases h
    · cases e
      rw [Ledger.record_start, setOwn_self]
      exact .started hnone hn
    · rw [Ledger.record_start, setOwn_of_ne ne]
      exact .same h
  | aborted _ _ agrees | finished _ _ agrees =>
    rw [agrees.tx?] at h
    obtain ⟨-, e⟩ | ⟨-, h⟩ := Session.tx?_setTx_cases h
    · cases e
    · exact .same h
  | bumpedShared _ agrees => exact .same (agrees.tx? t' ▸ h)
  | bumped _ htx ha agrees =>
    rw [agrees.tx?] at h
    obtain ⟨rfl, e⟩ | ⟨-, h⟩ := Session.tx?_setTx_cases h
    · cases e
      exact .grew htx (Arena.grew_of_allocate ha).2
    · exact .same h
  | createdShared hsize _ agrees =>
    rw [record_createdShared hsize]
    exact .same (agrees.tx? t' ▸ h)
  | created hmain htx hactive hsize hp agrees =>
    rw [agrees.tx?] at h
    rw [record_created hmain hsize]
    obtain ⟨rfl, e⟩ | ⟨ne, h⟩ := Session.tx?_setTx_cases h
    · cases e
      rw [setOwn_self]
      exact .created htx hactive hsize hp
    · rw [setOwn_of_ne ne]
      exact .same h
  | uncopied agrees =>
    rw [record_uncopied agrees]
    exact .same (agrees.tx? t' ▸ h)
  | recopied _ htx _ _ _ hcopy agrees =>
    rw [record_recopied htx hcopy]
    exact .same (agrees.tx? t' ▸ h)
  | copied _ htx hactive _ hspace hnone hh _ hsize ha spans agrees =>
    obtain ⟨rfl, grew⟩ := Arena.grew_of_allocate ha
    have record := record_copied (L := L) htx hnone hh hsize agrees
    rw [agrees.tx?, Session.tx?_setShared] at h
    obtain ⟨rfl, e⟩ | ⟨ne, h⟩ := Session.tx?_setTx_cases h
    · cases e
      rw [record, show Ledger.own { L.setOwn _ _ with shared := _ } _ = _ from setOwn_self]
      exact .copied htx hactive hspace hnone hh hsize grew spans (congrArg Ledger.shared record)
    · rw [record, show Ledger.own { L.setOwn _ _ with shared := _ } _ = _ from setOwn_of_ne ne]
      exact .same h
  | stranded _ htx _ ha agrees =>
    rw [agrees.tx?] at h
    obtain ⟨rfl, e⟩ | ⟨-, h⟩ := Session.tx?_setTx_cases h
    · cases e
      exact .grew htx (Arena.grew_of_allocate ha).2
    · exact .same h
  | wroteShared _ _ _ agrees =>
    rw [record_wroteShared]
    exact .same (agrees.tx? t' ▸ h)
  | wrote htx hactive hin hfield hw agrees =>
    rw [agrees.tx?] at h
    rw [record_wrote (ground.workers _ _ htx).1]
    obtain ⟨rfl, e⟩ | ⟨ne, h⟩ := Session.tx?_setTx_cases h
    · cases e
      rw [setOwn_self]
      exact .wrote htx hactive hin hfield hw
    · rw [setOwn_of_ne ne]
      exact .same h
  | prepared htx hactive hrun agrees =>
    rw [record_prepare_own]
    obtain ⟨rfl, e⟩ | ⟨-, h⟩ := Session.tx?_setTx_cases ((agrees.tx? t').symm.trans h)
    · cases e
      exact .prepared htx hactive hrun agrees.shared agrees.tokens
    · exact .same h
  | prepareFailed htx hactive hrun agrees =>
    rw [record_prepare_own]
    obtain ⟨rfl, e⟩ | ⟨-, h⟩ := Session.tx?_setTx_cases ((agrees.tx? t').symm.trans h)
    · cases e
      exact .prepareFailed htx hactive hrun agrees.shared agrees.tokens
    · exact .same h
  | prepareStopped htx hactive hf _ agrees =>
    rw [record_prepare_own]
    obtain ⟨rfl, -⟩ | ⟨-, h⟩ := Session.tx?_setTx_cases ((agrees.tx? t').symm.trans h)
    · exact .stopped htx hactive hf
    · exact .same h
  | applied htx hp _ agrees =>
    rw [agrees.tx?] at h
    rw [record_apply_own]
    obtain ⟨rfl, e⟩ | ⟨-, h⟩ := Session.tx?_setTx_cases h
    · cases e
      exact .passed htx hp (.inr rfl)
    · exact .same h
  | @applyStopped t _ tx' _ _ _ htx hp htx' _ _ _ _ hsame =>
    rw [hsame] at h
    by_cases e : t' = t
    · subst e
      rw [if_pos rfl] at h
      cases h
      rcases htx' with rfl | rfl
      · exact .passed htx hp (.inl rfl)
      · exact .same htx
    · rw [if_neg e] at h
      exact .same h

theorem Effect.entry (ground : Grounded s) (e : Effect s c o s') :
    Entry s L c o s'.heap.shared (L.record s c o s').shared := by
  cases e with
  | refused hp _ agrees =>
    rw [record_refused hp, agrees.shared]
    exact .same
  | answered asks agrees =>
    rw [record_asks asks, agrees.shared]
    exact .same
  | attached hc agrees =>
    rw [agrees.shared]
    rcases hc with rfl | rfl <;> exact .same
  | tokenIssued _ _ _ agrees | exhausted _ agrees | detached agrees | started _ _ _ _ agrees | aborted _ _ agrees | finished _ _ agrees
  | bumped _ _ _ agrees | stranded _ _ _ _ agrees =>
    rw [agrees.shared]
    exact .same
  | bumpedShared ha agrees =>
    rw [agrees.shared]
    exact .grew (Arena.grew_of_allocate ha).2
  | createdShared hsize hp agrees =>
    rw [record_createdShared hsize, agrees.shared]
    exact .created hsize hp
  | created hmain _ _ hsize _ agrees =>
    rw [record_created hmain hsize, agrees.shared]
    exact .same
  | uncopied agrees =>
    rw [record_uncopied agrees, agrees.shared]
    exact .same
  | recopied _ htx _ _ _ hcopy agrees =>
    rw [record_recopied htx hcopy, agrees.shared]
    exact .same
  | copied _ htx _ _ hspace hnone hh _ hsize _ _ agrees =>
    rw [record_copied htx hnone hh hsize agrees, agrees.shared]
    exact .marked hspace hh
  | wroteShared hspace hfield hw agrees =>
    rw [record_wroteShared, agrees.shared]
    exact .stored hspace hfield hw
  | wrote htx _ _ _ _ agrees =>
    rw [record_wrote (ground.workers _ _ htx).1, agrees.shared]
    exact .same
  | prepared htx hactive hrun agrees =>
    rw [record_prepared htx hactive agrees, agrees.shared]
    exact .prepared htx hactive hrun
  | prepareFailed htx hactive hrun agrees =>
    rw [record_prepared htx hactive agrees, agrees.shared]
    exact .prepareFailed htx hactive hrun
  | prepareStopped htx hactive hf _ _ => exact .stopped htx hactive hf
  | applied htx hp hrun agrees =>
    rw [record_applied htx, agrees.shared]
    exact .applied htx hp hrun
  | applyStopped htx hp _ hrun hs =>
    rw [hs]
    exact .applyStopped htx hp hrun

end

end TxHeap

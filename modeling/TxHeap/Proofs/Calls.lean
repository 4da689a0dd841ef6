/-
  TxHeap.Proofs.Calls — what a guarantee has to permit for calls to meet it.

  Two refusals say that the object map and a version slot do not agree: a second copy of an
  object, and a copy that is in no map (`Failure.isMismatch`). No call but a preparation can
  end with one, from whatever state it is made: the first is looked for just before a copy is
  made, and nowhere is the second.

  A guarantee that allows all other failures is met by a call if it permits what the call
  changes: transactions, the shared heap, the journal, and so on, one by one. There is one
  list for the calls that neither start nor end a transaction (`PermitsCalls`), and a longer
  one for starts and aborts (`PermitsAborts`).
-/
import TxHeap.Guarantee
import TxHeap.Run

namespace TxHeap

/-- The object map and a version slot do not agree. -/
def Refusal.isMismatch : Refusal → Bool
  | .duplicateCopy _ _ | .missingCopy _ _ => true
  | _ => false

namespace Failure

def isMismatch : Failure → Bool
  | .refused cause | .fatal cause => cause.isMismatch
  | .overflow _ | .detached _ => false

/-- The form of a failure in which it is fatal is as much of a mismatch. -/
theorem isMismatch_escalate (f : Failure) : f.escalate.1.isMismatch = f.isMismatch := by cases f <;> rfl

def NoMismatch (f : Failure) : Prop := f.isMismatch = false

end Failure

open Failure Attempt

/-! ## Attempts that find no mismatch -/

namespace Arena

variable {a : Arena} {len : Nat} {h : Header}

theorem matched_allocate : (a.allocate len).FailsWith NoMismatch := by
  rw [allocate]
  split
  · refine failsWith_bind ?_ fun _ => failsWith_ok
    rw [backing]
    split
    · exact failsWith_ok
    · refine failsWith_bind (failsWith_arith fun _ => rfl) ?_
      intro aligned
      exact failsWith_bind (failsWith_demand rfl) fun _ => failsWith_ok
  · exact failsWith_refuse rfl

theorem matched_place : (a.place len h).FailsWith NoMismatch := by
  refine failsWith_bind matched_allocate ?_
  intro placed
  exact failsWith_bind (failsWith_setHeader rfl) fun _ => failsWith_ok

end Arena

section

variable {layout : Layout} {heap : Heap} {h : Handle} {obj typeId offset : Nat}

theorem matched_objectSize : (layout.objectSize typeId).FailsWith NoMismatch := by
  rw [Layout.objectSize]
  split
  · exact failsWith_arith fun _ => rfl
  · exact failsWith_refuse rfl

theorem matched_payloadAddress : (payloadAddress obj offset).FailsWith NoMismatch := by
  refine failsWith_bind (failsWith_arith fun _ => rfl) ?_
  intro inner
  exact failsWith_bind (failsWith_arith fun _ => rfl) fun _ => failsWith_ofOption rfl

theorem matched_fieldAddress : (layout.fieldAddress obj typeId offset).FailsWith NoMismatch := by
  rw [Layout.fieldAddress]
  split
  · exact failsWith_refuse rfl
  · refine failsWith_bind (failsWith_arith fun _ => rfl) ?_
    intro inner
    split
    · exact failsWith_ok
    · exact failsWith_refuse rfl

theorem matched_field {a : Arena} : (Handle.field heap a obj offset).FailsWith NoMismatch :=
  failsWith_bind (Arena.failsWith_header rfl) fun _ => matched_fieldAddress

theorem failsWith_newNursery {kind : Failure → Prop} {thread : Nat}
    (refused : ∀ cause : Refusal, cause.isMismatch = false → kind (.refused cause)) :
    (heap.newNursery thread).FailsWith kind := by
  rw [Heap.newNursery]
  split
  · exact failsWith_refuse (refused _ rfl)
  · split
    · exact failsWith_ok
    · exact failsWith_refuse (refused _ rfl)

theorem matched_issueToken : heap.issueToken.1.FailsWith NoMismatch := by
  unfold Heap.issueToken
  dsimp only
  split
  · exact failsWith_refuse rfl
  · exact failsWith_ok

theorem Threads.matched_attachMain {threads : Threads} : threads.attachMain.FailsWith NoMismatch := by
  rw [attachMain]
  split
  · exact failsWith_refuse rfl
  · exact failsWith_ok

theorem Threads.matched_attachWorker {threads : Threads} {limit : Nat} :
    (threads.attachWorker limit).FailsWith NoMismatch := by
  rw [attachWorker]
  split
  · exact failsWith_ok
  · split
    · exact failsWith_refuse rfl
    · split
      · exact failsWith_error rfl
      · exact failsWith_ok

namespace Handle

theorem matched_locate : (h.locate heap obj).FailsWith NoMismatch := by
  rw [locate]
  split
  · exact failsWith_ok
  · split
    · exact failsWith_ok
    · exact failsWith_refuse rfl

theorem matched_nursery {operation : String} : (h.nursery operation).FailsWith NoMismatch := by
  rw [nursery]
  split
  · exact failsWith_ok
  · exact failsWith_refuse rfl

theorem matched_header : (h.header heap obj).FailsWith NoMismatch := by
  refine failsWith_bind matched_locate fun location => ?_
  cases location with
  | nursery => exact failsWith_bind matched_nursery fun _ => Arena.failsWith_header rfl
  | shared => exact Arena.failsWith_header rfl

theorem matched_readWord : (h.readWord heap obj offset).FailsWith NoMismatch := by
  refine failsWith_bind matched_locate fun location => ?_
  cases location with
  | nursery =>
    refine failsWith_bind matched_nursery ?_
    intro nursery
    exact failsWith_bind matched_field fun _ => Arena.failsWith_readWord rfl
  | shared =>
    refine failsWith_bind (Arena.failsWith_header rfl) ?_
    intro header
    split
    · refine failsWith_bind matched_nursery ?_
      intro nursery
      exact failsWith_bind matched_fieldAddress fun _ => Arena.failsWith_readWord rfl
    · exact failsWith_bind matched_fieldAddress fun _ => Arena.failsWith_readWord rfl

theorem matched_canonical : (h.canonical heap obj).FailsWith NoMismatch := by
  refine failsWith_bind matched_locate fun location => ?_
  cases location with
  | nursery =>
    refine failsWith_bind matched_nursery ?_
    intro nursery
    exact failsWith_bind (Arena.failsWith_header rfl) fun _ => failsWith_ok
  | shared => exact failsWith_ok

end Handle

theorem matched_overwrite {tx : Transaction} {shared : Arena} {root copy : Nat} :
    (Action.overwrite layout tx shared root copy).FailsWith NoMismatch := by
  refine failsWith_bind (Arena.failsWith_header rfl) ?_
  intro header
  refine failsWith_bind matched_objectSize ?_
  intro size
  refine failsWith_bind (failsWith_arith fun _ => rfl) ?_
  intro payload
  refine failsWith_bind matched_payloadAddress ?_
  intro target
  refine failsWith_bind (Arena.failsWith_checkAccess rfl) ?_
  intro _
  refine failsWith_bind matched_payloadAddress ?_
  intro source
  exact failsWith_bind (Arena.failsWith_read rfl) fun _ => Arena.failsWith_write rfl

end

/-! ## What has to be permitted -/

namespace Guarantee

def AllowsFailures (G : Guarantee Session) : Prop := ∀ {s f}, f.NoMismatch → G.fails s f

theorem allowsFailures_unchanged {κ : Type} {view : Session → κ} : (unchanged view).AllowsFailures := fun _ => trivial

/-- What calls change that neither start nor end a transaction. -/
structure PermitsCalls (G : Guarantee Session) : Prop where
  fails : G.AllowsFailures
  setTx : ∀ s t tx, G.rel s (s.setTx t tx)
  setShared : ∀ s shared, G.rel s (s.setShared shared)
  note : ∀ s n, G.rel s (s.note n)
  attach : ∀ s threads handles, G.rel s { s with heap := { s.heap with threads }, handles }
  copied : ∀ s, G.rel s (s.count .recordCopy)
  issued : ∀ s, G.rel s { s with heap := s.heap.issueToken.2 }

/-- Starts and aborts are counted and reported besides. -/
structure PermitsAborts (G : Guarantee Session) : Prop extends G.PermitsCalls where
  emit : ∀ s e, G.rel s (s.emit e)
  started : ∀ s, G.rel s (s.count .recordStart)
  aborted : ∀ s, G.rel s (s.count .recordAbort)

end Guarantee

namespace Action

open Step

variable {α : Type} {G : Guarantee Session} {t obj : Nat} {tx : Transaction}

/-! ## Questions -/

section

variable (h : G.AllowsFailures)
include h

theorem meets_attempt {x : Attempt α} (matched : x.FailsWith NoMismatch) : (ofAttempt x : Action α).Meets G :=
  meets_ofAttempt fun _ f hf => h (matched f hf)

theorem meets_handle : (handle t).Meets G := by
  refine meets_bind meets_get ?_
  intro s
  split
  · exact meets_pure _
  · exact meets_throw fun _ => h rfl

theorem meets_openTx {operation : String} : (openTx t operation).Meets G := by
  refine meets_bind (meets_handle h) ?_
  intro handle
  split
  · exact meets_pure _
  · exact meets_throw fun _ => h rfl

theorem meets_requirePhase {operation : String} {expected : Phase} :
    (ofAttempt (tx.requirePhase operation expected) : Action Unit).Meets G :=
  meets_attempt h (failsWith_demand rfl)

theorem meets_query {ask : Handle → Heap → Attempt α} (matched : ∀ h heap, (ask h heap).FailsWith NoMismatch) :
    (query t ask).Meets G := by
  refine meets_bind (meets_handle h) ?_
  intro handle
  refine meets_bind meets_get ?_
  intro s
  exact meets_attempt h (matched _ _)

theorem meets_locate : (query t fun handle heap => handle.locate heap obj).Meets G :=
  meets_query h fun _ _ => Handle.matched_locate

theorem meets_canonical {obj : Option Nat} : (canonical t obj).Meets G := by
  refine meets_query h fun handle heap => ?_
  cases obj with
  | none => exact failsWith_ok
  | some obj => exact failsWith_bind Handle.matched_canonical fun _ => failsWith_ok

end

theorem meets_quietly {call : Action Unit} (h : call.Meets G) : (quietly call).Meets G :=
  meets_bind h fun _ => meets_pure _

end Action

/-! ## Calls that neither start nor end a transaction -/

namespace Guarantee.PermitsCalls

open Step TxHeap.Action

variable {G : Guarantee Session} {t obj : Nat} {tx : Transaction} (h : G.PermitsCalls)
include h

theorem attachMain : attachMain.Meets G := by
  refine meets_bind meets_get ?_
  intro s
  refine meets_bind (meets_attempt h.fails Threads.matched_attachMain) ?_
  intro threads
  refine meets_bind (meets_modify fun s => h.attach s _ _) ?_
  intro _
  refine meets_bind (meets_modify fun s => h.note s _) ?_
  intro _
  exact meets_pure _

theorem attachWorker : attachWorker.Meets G := by
  refine meets_bind meets_get ?_
  intro s
  refine meets_bind (meets_attempt h.fails Threads.matched_attachWorker) ?_
  intro attached
  refine meets_bind (meets_modify fun s => h.attach s _ _) ?_
  intro _
  refine meets_bind (meets_modify fun s => h.note s _) ?_
  intro _
  exact meets_pure _

theorem bump {size : Nat} : (bump t size).Meets G := by
  refine meets_bind (meets_handle h.fails) ?_
  intro _
  split
  · refine meets_bind meets_get ?_
    intro s
    refine meets_bind (meets_attempt h.fails Arena.matched_allocate) ?_
    intro taken
    refine meets_bind (meets_modify fun s => h.setShared s _) ?_
    intro _
    exact meets_pure _
  · refine meets_bind (meets_openTx h.fails) ?_
    intro tx
    refine meets_bind (meets_attempt h.fails Arena.matched_allocate) ?_
    intro taken
    refine meets_bind (meets_modify fun s => h.setTx s _ _) ?_
    intro _
    exact meets_pure _

theorem placeObject {typeId size : Nat} : (placeObject t typeId size).Meets G := by
  rw [Action.placeObject]
  split
  · refine meets_bind meets_get ?_
    intro s
    refine meets_bind (meets_attempt h.fails Arena.matched_place) ?_
    intro placed
    refine meets_bind (meets_modify fun s => h.setShared s _) ?_
    intro _
    exact meets_pure _
  · refine meets_bind (meets_openTx h.fails) ?_
    intro tx
    refine meets_bind (meets_requirePhase h.fails) ?_
    intro _
    refine meets_bind (meets_attempt h.fails Arena.matched_place) ?_
    intro placed
    refine meets_bind (meets_modify fun s => h.setTx s _ _) ?_
    intro _
    exact meets_pure _

theorem create {typeId : Nat} : (create t typeId).Meets G := by
  refine meets_bind (meets_handle h.fails) ?_
  intro _
  refine meets_bind meets_get ?_
  intro s
  refine meets_bind (meets_attempt h.fails matched_objectSize) ?_
  intro size
  refine meets_bind h.placeObject ?_
  intro obj
  refine meets_bind (meets_modify fun s => h.note s _) ?_
  intro _
  exact meets_pure _

/-- An object that is in no map is entered without another copy in the way. -/
theorem makeCopy (none : tx.objects.copyOf? obj = none) : (makeCopy t obj tx).Meets G := by
  have entered (copy : Nat) : (tx.objects.insert obj copy).FailsWith NoMismatch := by
    rw [ObjectMap.insert, none]
    exact failsWith_ok
  refine meets_bind meets_get ?_
  intro s
  refine meets_bind (meets_attempt h.fails (Arena.failsWith_header rfl)) ?_
  intro header
  refine meets_bind (meets_demand fun _ => h.fails rfl) ?_
  intro _
  refine meets_bind (meets_attempt h.fails matched_objectSize) ?_
  intro size
  refine meets_bind (meets_attempt h.fails Arena.matched_allocate) ?_
  intro taken
  refine meets_bind (meets_modify fun s => h.setTx s _ _) ?_
  intro _
  refine meets_bind (meets_attempt h.fails (Arena.failsWith_read rfl)) ?_
  intro bytes
  refine meets_bind (meets_attempt h.fails (Arena.failsWith_write rfl)) ?_
  intro copied
  refine meets_bind (meets_attempt h.fails (Arena.failsWith_setHeader rfl)) ?_
  intro headed
  refine meets_bind (meets_attempt h.fails (entered _)) ?_
  intro objects
  refine meets_bind (meets_modify fun s => h.setTx s _ _) ?_
  intro _
  refine meets_bind (meets_attempt h.fails (Arena.failsWith_setHeader rfl)) ?_
  intro marked
  refine meets_bind (meets_modify fun s => h.setShared s _) ?_
  intro _
  refine meets_bind (meets_modify fun s => h.copied s) ?_
  intro _
  refine meets_bind (meets_modify fun s => h.note s _) ?_
  intro _
  exact meets_pure _

theorem copyOnWrite : (copyOnWrite t obj).Meets G := by
  refine meets_bind (meets_handle h.fails) ?_
  intro handle
  split
  · exact meets_pure _
  · refine meets_bind meets_get ?_
    intro s
    refine meets_bind (meets_attempt h.fails Handle.matched_locate) fun location => ?_
    cases location with
    | nursery => exact meets_pure _
    | shared =>
      refine meets_bind (meets_openTx h.fails) ?_
      intro tx
      refine meets_bind (meets_requirePhase h.fails) ?_
      intro _
      split
      · exact meets_pure _
      · rename_i none
        exact h.makeCopy none

theorem writeWord {offset value : Nat} : (writeWord t obj offset value).Meets G := by
  refine meets_bind (meets_locate h.fails) fun location => ?_
  cases location with
  | nursery =>
    refine meets_bind (meets_openTx h.fails) ?_
    intro tx
    refine meets_bind meets_get ?_
    intro s
    refine meets_bind (meets_attempt h.fails matched_field) ?_
    intro addr
    refine meets_bind (meets_requirePhase h.fails) ?_
    intro _
    refine meets_bind (meets_attempt h.fails (Arena.failsWith_writeWord rfl)) ?_
    intro nursery
    exact meets_modify fun s => h.setTx s _ _
  | shared =>
    dsimp only
    split
    · refine meets_bind meets_get ?_
      intro s
      refine meets_bind (meets_attempt h.fails matched_field) ?_
      intro addr
      refine meets_bind (meets_attempt h.fails (Arena.failsWith_writeWord rfl)) ?_
      intro shared
      exact meets_modify fun s => h.setShared s _
    · refine meets_bind (meets_modify fun s => h.note s _) ?_
      intro _
      exact meets_throw fun _ => h.fails rfl

theorem freshToken : (freshToken t obj tx).Meets G := by
  rw [Action.freshToken]
  split
  · exact meets_pure _
  · intro s
    rw [ends_bind, ends_get]
    -- the heap is the one that was asked for the token
    show Ends (modify (fun s' => { s' with heap := s.heap.issueToken.2 }) >>= _) s _ _
    rw [ends_bind, ends_modify, ends_bind, ends_ofAttempt]
    refine ⟨?_, fun f hf => ⟨h.issued s, h.fails (matched_issueToken f hf)⟩⟩
    intro token _
    rw [ends_bind, Action.setTx, ends_modify, ends_bind, Action.note, ends_modify, ends_pure]
    exact G.trans (G.trans (h.issued s) (h.setTx _ _ _)) (h.note _ _)

theorem tokenOf : (tokenOf t obj).Meets G := by
  refine meets_bind (meets_locate h.fails) fun location => ?_
  cases location with
  | shared =>
    refine meets_bind meets_get ?_
    intro s
    exact meets_pure _
  | nursery =>
    refine meets_bind (meets_openTx h.fails) ?_
    intro tx
    refine meets_bind (meets_attempt h.fails (Arena.failsWith_header rfl)) ?_
    intro header
    split
    · refine meets_bind meets_get ?_
      intro s
      exact meets_pure _
    · exact h.freshToken

theorem runOverwrite : (runOverwrite t tx).Meets G := by
  intro s
  have overwritten : (overwriteAll s.heap.layout tx tx.objects.pairs).Meets (.failing NoMismatch) := by
    refine meets_forM ?_
    rintro ⟨root, copy⟩ _ shared
    have matched : (overwrite s.heap.layout tx shared root copy).FailsWith NoMismatch := matched_overwrite
    unfold Ends
    dsimp only
    cases ho : overwrite s.heap.layout tx shared root copy with
    | ok shared' => trivial
    | error f => exact ⟨trivial, matched f ho⟩
  specialize overwritten s.heap.shared
  unfold Ends at overwritten ⊢
  rw [Action.runOverwrite]
  split at overwritten <;> rename_i ho <;> rw [ho]
  · exact G.trans (h.setShared s _) (h.setTx _ _ _)
  · rename_i f shared
    have failed : G.fails s f := h.fails overwritten.2
    cases f with
    | refused cause => exact ⟨G.trans (G.trans (h.setShared s _) (h.setTx _ _ _)) (h.note _ _), failed⟩
    | overflow | fatal | detached => exact ⟨h.setShared s _, failed⟩

theorem apply : (Action.apply t).Meets G := by
  refine meets_bind (meets_openTx h.fails) ?_
  intro tx
  refine meets_bind (meets_requirePhase h.fails) ?_
  intro _
  exact h.runOverwrite

end Guarantee.PermitsCalls

/-! ## Starts and aborts -/

namespace Guarantee.PermitsAborts

open Step TxHeap.Action

variable {G : Guarantee Session} {t : Nat} {tx : Transaction} (h : G.PermitsAborts)
include h

theorem countAbort : (countAbort t tx).Meets G := by
  refine meets_bind (meets_modify fun s => h.aborted s) ?_
  intro _
  exact meets_modify fun s => h.emit s _

theorem detach : (Action.detach t).Meets G := by
  have dropped (tx : Transaction) : (dropOpen t tx).Meets G := by
    rw [dropOpen]
    split
    · exact meets_modify fun s => h.note s _
    · exact meets_bind h.countAbort fun _ => meets_modify fun s => h.note s _
  refine meets_bind (meets_handle h.fails) ?_
  intro handle
  refine meets_bind ?_ ?_
  · cases handle.tx with
    | none => exact meets_pure _
    | some tx => exact dropped tx
  intro _
  refine meets_bind (meets_modify fun s => h.attach s _ _) ?_
  intro _
  exact meets_modify fun s => h.note s _

theorem start : (start t).Meets G := by
  refine meets_bind (meets_handle h.fails) ?_
  intro handle
  refine meets_bind (meets_demand fun _ => h.fails rfl) ?_
  intro _
  refine meets_bind (meets_demand fun _ => h.fails rfl) ?_
  intro _
  refine meets_bind meets_get ?_
  intro s
  refine meets_bind (meets_attempt h.fails (failsWith_newNursery fun _ matched => matched)) ?_
  intro nursery
  refine meets_bind (meets_modify fun s => h.setTx s _ _) ?_
  intro _
  refine meets_bind (meets_modify fun s => h.started s) ?_
  intro _
  refine meets_bind (meets_modify fun s => h.emit s _) ?_
  intro _
  exact meets_modify fun s => h.note s _

theorem abort : (abort t).Meets G := by
  refine meets_bind (meets_openTx h.fails) ?_
  intro tx
  refine meets_bind (meets_demand fun _ => h.fails rfl) ?_
  intro _
  refine meets_bind (meets_modify fun s => h.setTx s _ _) ?_
  intro _
  refine meets_bind h.countAbort ?_
  intro _
  exact meets_modify fun s => h.note s _

end Guarantee.PermitsAborts

/-! ## Commands -/

/-- The call starts or ends no transaction, and is no commit or setting of a log. -/
def Command.Silent : Command → Prop
  | .start _ | .abort _ | .finish _ | .commit _ | .detach _ | .setEvents _ | .clearEvents | .configureLog _ => False
  | _ => True

open Step TxHeap.Action in
/-- A silent call, if it is no prepare. -/
theorem Guarantee.PermitsCalls.silent {G : Guarantee Session} (h : G.PermitsCalls) {c : Command} (silent : c.Silent)
    (prepares : ∀ t, c = .prepare t → (prepare t).Meets G) : c.action.Meets G := by
  cases c with
  | attachMain => exact meets_map h.attachMain
  | attachWorker => exact meets_map h.attachWorker
  | prepare t => exact meets_map (prepares t rfl)
  | apply => exact meets_quietly h.apply
  | bump => exact meets_map h.bump
  | create => exact meets_map h.create
  | copyOnWrite => exact meets_map h.copyOnWrite
  | read => exact meets_map (meets_query h.fails fun _ _ => Handle.matched_readWord)
  | write => exact meets_quietly h.writeWord
  | header => exact meets_map (meets_query h.fails fun _ _ => Handle.matched_header)
  | canonical => exact meets_map (meets_canonical h.fails)
  | token => exact meets_map h.tokenOf
  | start | abort | finish | commit | detach | setEvents | clearEvents | configureLog => exact silent.elim

end TxHeap

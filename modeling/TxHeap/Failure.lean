/-
  TxHeap.Failure — why a call does not succeed.

  A call is refused for a cause (`Refusal`), or its arithmetic leaves the range of words, or
  it was made in the form that treats a refusal as fatal. Setup causes (unknown types and
  rejected configurations) are the caller's to mend; every other refusal is a defect of
  the program that drives the heap.

  The wording of every cause is here: `message` for people, `describe` for the text of the
  value itself.
-/
import TxHeap.Config
import TxHeap.Header
import TxHeap.Phase
import TxHeap.PointerMap
import TxHeap.Text.Quoted

namespace TxHeap

inductive Violation where
  | mainAlreadyAttached
  | tooManyWorkers (limit : Nat)
  | noWindow (thread : Nat)
  | mainTransaction
  | rootsAlreadyApplied
  | wrongPhase (operation : String) (actual expected : Phase)
  | notGlobal (obj : Nat)
  | missingBarrier (obj : Nat)
  | promotedTwice (obj : Nat)
  | stated (operation detail : String)
  deriving DecidableEq, Repr

namespace Violation

def operation : Violation → String
  | .mainAlreadyAttached => "attach_main"
  | .tooManyWorkers _ => "attach_worker"
  | .noWindow _ => "nursery"
  | .mainTransaction => "start_transaction"
  | .rootsAlreadyApplied => "abort"
  | .wrongPhase operation _ _ => operation
  | .notGlobal _ => "materialize"
  | .missingBarrier _ => "write_word"
  | .promotedTwice _ => "commit"
  | .stated operation _ => operation

def detail : Violation → String
  | .mainAlreadyAttached => "main thread is already attached"
  | .tooManyWorkers limit => s!"more than {limit} workers attached"
  | .noWindow thread => s!"thread {thread} has no nursery window"
  | .mainTransaction => "the main thread never runs transactions"
  | .rootsAlreadyApplied => "roots were already applied to the shared heap"
  | .wrongPhase _ actual expected =>
    s!"transaction is {actual.describe}, expected {expected.describe}"
  | .notGlobal obj => s!"shared object {Text.hex obj} is not GLOBAL"
  | .missingBarrier obj => s!"store to shared object {Text.hex obj} without materialize"
  | .promotedTwice obj => s!"private object {Text.hex obj} promoted twice"
  | .stated _ detail => detail

end Violation

inductive SetupError where
  | badOffset (e : OffsetError)
  | pointersPastPayload (name : String) (payload : Nat)
  | weakOutsidePayload (name : String) (weak : Nat)
  | weakIsStrong (name : String) (weak : Nat)
  | typeTableFull
  | arenaAtNull
  | arenaEmpty
  | arenaOverflows (start reserve : Nat)
  | chunkNotPowerOfTwo (chunk : Nat)
  | badConfig (e : ConfigError)
  | stated (detail : String)
  deriving DecidableEq, Repr

def SetupError.message : SetupError → String
  | .badOffset (.unaligned offset) => s!"pointer offset {offset} must be aligned to {wordSize} bytes"
  | .badOffset (.tooLarge offset) =>
    s!"pointer offset {offset} exceeds maximum tracked size {PointerMap.trackedSize}"
  | .pointersPastPayload name payload =>
    s!"type {name}: pointer fields extend past payload of {payload} bytes"
  | .weakOutsidePayload name weak => s!"type {name}: weak field at {weak} is not a word inside the payload"
  | .weakIsStrong name weak => s!"type {name}: weak field at {weak} is also a strong pointer"
  | .typeTableFull => "type table is full"
  | .arenaAtNull => "arena must not start at address 0"
  | .arenaEmpty => "arena reserve must be > 0"
  | .arenaOverflows start reserve =>
    s!"arena at {Text.hex start} with reserve {Text.hex reserve} overflows the address space"
  | .chunkNotPowerOfTwo chunk => s!"chunk size ({chunk}) must be a power of two"
  | .badConfig e => "Invalid configuration: " ++ e.message
  | .stated detail => detail

inductive Refusal where
  | violation (v : Violation)
  | noTransaction (operation : String)
  | alreadyActive (thread : Nat)
  | duplicateCopy (shared existing : Nat)
  | missingCopy (shared copy : Nat)
  | foreignAddress (addr thread : Nat)
  | invalidAccess (addr len : Nat)
  | outOfSpace (requested available : Nat)
  | unknownType (typeId : Nat)
  | setup (e : SetupError)
  deriving DecidableEq, Repr

namespace Refusal

def message : Refusal → String
  | .violation v => s!"Protocol violation in {v.operation}: {v.detail}"
  | .noTransaction operation => s!"No active transaction for {operation}"
  | .alreadyActive thread => s!"Transaction already active on thread {thread}"
  | .duplicateCopy shared existing =>
    s!"Shared object {Text.hex shared} already has private copy {Text.hex existing}"
  | .missingCopy shared copy =>
    s!"Private copy {Text.hex copy} of {Text.hex shared} is missing from the object map"
  | .foreignAddress addr thread => s!"Address {Text.hex addr} is not visible from thread {thread}"
  | .invalidAccess addr len => s!"Invalid access of {len} bytes at {Text.hex addr}"
  | .outOfSpace requested available =>
    s!"Out of address space: requested {requested} bytes, available {available} bytes"
  | .unknownType typeId => s!"Unknown type id {Header.describeType typeId}"
  | .setup e => s!"Configuration error: {e.message}"

def describe : Refusal → String
  | .violation v =>
    Text.record "ProtocolViolation" [("operation", Text.quoted v.operation), ("detail", Text.quoted v.detail)]
  | .noTransaction operation => Text.record "NoActiveTransaction" [("operation", Text.quoted operation)]
  | .alreadyActive thread => Text.record "TransactionAlreadyActive" [("thread", toString thread)]
  | .duplicateCopy shared existing =>
    Text.record "DuplicateMapping" [("shared", Text.address shared), ("existing", Text.address existing)]
  | .missingCopy shared copy =>
    Text.record "MissingPrivateCopy" [("shared", Text.address shared), ("private", Text.address copy)]
  | .foreignAddress addr thread =>
    Text.record "ForeignAddress" [("address", Text.address addr), ("thread", toString thread)]
  | .invalidAccess addr len =>
    Text.record "InvalidAccess" [("address", toString addr), ("len", toString len)]
  | .outOfSpace requested available =>
    Text.record "OutOfAddressSpace" [("requested", toString requested), ("available", toString available)]
  | .unknownType typeId => Text.tagged "UnknownType" [Header.describeType typeId]
  | .setup e => Text.tagged "Configuration" [Text.quoted e.message]

/-- Whether the refusal shows a defect of the program rather than of its setup. -/
def isFatal : Refusal → Bool
  | .setup _ => false
  | .unknownType _ => false
  | _ => true

def isExhaustion : Refusal → Bool
  | .outOfSpace _ _ => true
  | _ => false

end Refusal

inductive Failure where
  | refused (cause : Refusal)
  /-- The call stopped in the middle; what it had done so far stays done. -/
  | overflow (kind : Overflow)
  /-- A refusal in a call that does not accept one. -/
  | fatal (cause : Refusal)
  /-- No handle of this thread is attached. -/
  | detached (thread : Nat)
  deriving DecidableEq, Repr

def Failure.message : Failure → String
  | .refused cause => cause.message
  | .overflow kind => kind.message
  | .fatal cause => "stmgc: " ++ cause.message
  | .detached thread => s!"thread {thread} is not attached"

abbrev Attempt := Except Failure

namespace Attempt

def refuse {α : Type} (cause : Refusal) : Attempt α := .error (.refused cause)

def violate {α : Type} (v : Violation) : Attempt α := refuse (.violation v)

def demand (condition : Prop) [Decidable condition] (cause : Refusal) : Attempt Unit :=
  require condition (.refused cause)

def arith {α : Type} : Except Overflow α → Attempt α
  | .ok a => .ok a
  | .error kind => .error (.overflow kind)

def ofOption {α : Type} (cause : Refusal) : Option α → Attempt α
  | some a => .ok a
  | none => refuse cause

theorem bind_eq_ok {α β : Type} {x : Attempt α} {f : α → Attempt β} {b : β} :
    (x >>= f) = .ok b ↔ ∃ a, x = .ok a ∧ f a = .ok b := by
  cases x <;> simp [bind, Except.bind]

@[simp] theorem refuse_ne_ok {α : Type} {cause : Refusal} {a : α} : refuse cause ≠ .ok a := nofun

@[simp] theorem arith_eq_ok {α : Type} {x : Except Overflow α} {a : α} : arith x = .ok a ↔ x = .ok a := by
  cases x <;> simp [arith]

end Attempt

end TxHeap

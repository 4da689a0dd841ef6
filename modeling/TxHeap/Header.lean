/-
  TxHeap.Header — the two words in front of every object.

  The first word holds the type id in its low half and the flags in its high half;
  the second is the version slot. Two of the flags tag the slot: it holds the object
  that this one is a working copy of, or the twin that this one was promoted to. A slot
  with both tags, with none, or with a tag and the null address reads as empty.

  `decode` and `encode` invert each other on words (`encode_decode`, `decode_encode`).
-/
import TxHeap.Word
import TxHeap.Text.Hex
import TxHeap.Text.Record

namespace TxHeap

def headerSize : Nat := 2 * wordSize

namespace Flag

/-- The object lives in the shared heap. -/
def global : Nat := 1

/-- Some transaction has made a working copy of this shared object. -/
def copied : Nat := 2

/-- The slot holds the shared object this one is a copy of. -/
def copyOf : Nat := 4

/-- The slot holds the twin this object was promoted to. -/
def forwarded : Nat := 8

def tags : Nat := 12

def untagged : Nat := 0xfffffff3

end Flag

inductive Version where
  | empty
  | copyOf (shared : Nat)
  | forwarded (twin : Nat)
  deriving DecidableEq, Repr

namespace Version

def address? : Version → Option Nat
  | .empty => none
  | .copyOf a => some a
  | .forwarded a => some a

def describe : Version → String
  | .empty => "Empty"
  | .copyOf a => Text.tagged "Original" [Text.address a]
  | .forwarded a => Text.tagged "Forwarded" [Text.address a]

end Version

structure Header where
  typeId : Nat
  flags : Nat
  slot : Nat
  deriving DecidableEq, Repr

namespace Header

/-- A header with an empty slot; tag bits among the flags are dropped. -/
def new (typeId flags : Nat) : Header := ⟨typeId, flags &&& Flag.untagged, 0⟩

def decode (first second : Nat) : Header := ⟨first % idLimit, first / idLimit, second⟩

def encode (h : Header) : Nat × Nat := (h.typeId + idLimit * h.flags, h.slot)

def isGlobal (h : Header) : Bool := h.flags.testBit 0

def isCopied (h : Header) : Bool := h.flags.testBit 1

def markCopied (h : Header) : Header := { h with flags := h.flags ||| Flag.copied }

def version (h : Header) : Version :=
  if h.slot = 0 then .empty
  else if h.flags &&& Flag.tags = Flag.copyOf then .copyOf h.slot
  else if h.flags &&& Flag.tags = Flag.forwarded then .forwarded h.slot
  else .empty

def setVersion (h : Header) (v : Version) : Header :=
  let flags := h.flags &&& Flag.untagged
  match v with
  | .empty => { h with flags, slot := 0 }
  | .copyOf a => { h with flags := flags ||| Flag.copyOf, slot := a }
  | .forwarded a => { h with flags := flags ||| Flag.forwarded, slot := a }

/-- The header with a forwarding address; none if one is already installed. -/
def forward? (h : Header) (twin : Nat) : Option Header :=
  match h.version with
  | .forwarded _ => none
  | _ => some (h.setVersion (.forwarded twin))

structure Fits (h : Header) : Prop where
  typeId_lt : h.typeId < idLimit
  flags_lt : h.flags < idLimit
  slot_lt : h.slot < wordLimit

def describeType (typeId : Nat) : String := Text.tagged "TypeId" [toString typeId]

def describe (h : Header) : String :=
  Text.record "ObjectHeader"
    [("type_id", describeType h.typeId), ("flags", toString h.flags), ("version", toString h.slot)]

theorem encode_decode (first second : Nat) : (decode first second).encode = (first, second) := by
  simp only [decode, encode, idLimit, Prod.mk.injEq, and_true]
  omega

theorem decode_encode {h : Header} (fits : h.Fits) : decode h.encode.1 h.encode.2 = h := by
  obtain ⟨typeId, flags, slot⟩ := h
  have := fits.typeId_lt
  simp only [decode, encode, idLimit, mk.injEq, and_true] at this ⊢
  omega

end Header

end TxHeap

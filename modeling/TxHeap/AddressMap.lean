/-
  TxHeap.AddressMap — how the address space is divided.

  The shared heap starts at `sharedStart`, identity tokens fill the range from
  `tokenStart` to `nurseryStart`, and above it lie the nursery windows of the workers,
  numbered from 1 and laid side by side. Address 0 is null and belongs to no space.

  `windowStart?` gives a worker's window if it ends inside the address space;
  `Space.of` tells from an address alone whose it is.
-/
import TxHeap.Word

namespace TxHeap

def sharedStart : Nat := 1 <<< 32

/-- First address of the identity space; tokens are taken from here upwards. -/
def tokenStart : Nat := 1 <<< 44

def nurseryStart : Nat := 1 <<< 45

/-- The shared heap must end before the identity space. -/
def maxSharedReserve : Nat := tokenStart - sharedStart

/-- Which reserved range an address falls in. -/
inductive Space where
  | shared
  | token
  | nursery (thread : Nat)
  | unmapped
  deriving DecidableEq, Repr

def Space.of (addr sharedReserve nurseryReserve : Nat) : Space :=
  if sharedStart ≤ addr ∧ addr - sharedStart < sharedReserve then .shared
  else if tokenStart ≤ addr ∧ addr < nurseryStart then .token
  else if nurseryStart ≤ addr ∧ 0 < nurseryReserve then
    let thread := (addr - nurseryStart) / nurseryReserve + 1
    if thread < idLimit then .nursery thread else .unmapped
  else .unmapped

/-- The start of a worker's nursery window; none for the main thread or past the address space. -/
def windowStart? (thread nurseryReserve : Nat) : Option Nat :=
  if thread = 0 then none
  else
    let start := nurseryStart + (thread - 1) * nurseryReserve
    if start + nurseryReserve < wordLimit then some start else none

end TxHeap

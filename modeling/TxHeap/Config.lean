/-
  TxHeap.Config — the sizes and limits of a heap.

  `Config.check` accepts a configuration whose shared heap ends before the identity space,
  whose chunk size is a power of two, and whose workers' nurseries all fit the address
  space; of several faults it names the first in the order of the checks below.
-/
import TxHeap.AddressMap
import TxHeap.Require
import TxHeap.Text.Decimal
import TxHeap.Text.Hex
import TxHeap.Text.Record

namespace TxHeap

structure Config where
  /-- Address space of the shared heap. -/
  sharedReserve : Nat
  /-- Address space of each worker's nursery. -/
  nurseryReserve : Nat
  /-- Step by which the memory behind an arena grows. -/
  chunkSize : Nat
  /-- Least size of the chunks a commit takes from the shared heap. -/
  pageSize : Nat
  maxWorkers : Nat
  /-- Whether the heap's event log starts enabled. -/
  verbose : Bool
  statsEnabled : Bool
  deriving DecidableEq, Repr

inductive ConfigError where
  | sharedReserveZero
  | sharedReserveTooLarge
  | nurseryReserveZero
  | chunkSizeNotPowerOfTwo (chunkSize : Nat)
  | pageSizeZero
  | noWorkers
  | nurseriesDoNotFit (workers reserve : Nat)
  deriving DecidableEq, Repr

def ConfigError.message : ConfigError → String
  | .sharedReserveZero => "Invalid reserve: shared_reserve must be > 0"
  | .sharedReserveTooLarge => "Invalid reserve: shared_reserve must be <= " ++ Text.hex maxSharedReserve
  | .nurseryReserveZero => "Invalid reserve: nursery_reserve must be > 0"
  | .chunkSizeNotPowerOfTwo n => s!"Invalid chunk size: arena_chunk_size ({n}) must be a power of two"
  | .pageSizeZero => "Invalid page size: promotion_page_size must be >= 1"
  | .noWorkers => "Invalid worker count: max_workers must be > 0"
  | .nurseriesDoNotFit n reserve =>
    s!"Invalid worker count: {n} nurseries of {Text.hex reserve} bytes do not fit the address space"

namespace Config

/-- The configuration used where nothing else is said, on a machine with the given page size. -/
def standard (machinePage : Nat) : Config where
  sharedReserve := 64 <<< 30
  nurseryReserve := 4 <<< 30
  chunkSize := 64 <<< 10
  pageSize := machinePage
  maxWorkers := 1024
  verbose := false
  statsEnabled := true

def check (c : Config) : Except ConfigError Unit := do
  require (0 < c.sharedReserve) .sharedReserveZero
  require (c.sharedReserve ≤ maxSharedReserve) .sharedReserveTooLarge
  require (0 < c.nurseryReserve) .nurseryReserveZero
  require (Word.isPowerOfTwo c.chunkSize) (.chunkSizeNotPowerOfTwo c.chunkSize)
  require (0 < c.pageSize) .pageSizeZero
  require (0 < c.maxWorkers) .noWorkers
  require (windowStart? c.maxWorkers c.nurseryReserve).isSome (.nurseriesDoNotFit c.maxWorkers c.nurseryReserve)

/--
A configuration with the settings of the environment laid over it. A number that cannot be
read leaves its setting alone; a variable for verbosity always decides it.
-/
def withEnvironment (c : Config) (lookup? : String → Option String) : Config where
  sharedReserve := c.sharedReserve
  nurseryReserve := ((lookup? "STMGC_NURSERY_RESERVE").bind (Text.decimal? wordLimit)).getD c.nurseryReserve
  chunkSize := c.chunkSize
  pageSize := ((lookup? "STMGC_PROMOTION_PAGE").bind (Text.decimal? wordLimit)).getD c.pageSize
  maxWorkers := ((lookup? "STMGC_MAX_WORKERS").bind (Text.decimal? idLimit)).getD c.maxWorkers
  verbose := match lookup? "STMGC_VERBOSE" with
    | some text => text == "1" || text.map Char.toLower == "true"
    | none => c.verbose
  statsEnabled := c.statsEnabled

def describe (c : Config) : String :=
  Text.record "StmConfig"
    [("shared_reserve", toString c.sharedReserve), ("nursery_reserve", toString c.nurseryReserve),
     ("arena_chunk_size", toString c.chunkSize), ("promotion_page_size", toString c.pageSize),
     ("max_workers", toString c.maxWorkers), ("verbose", toString c.verbose),
     ("stats_enabled", toString c.statsEnabled)]

end Config

end TxHeap

import IncidentPlatform.Concurrency.Machine
import IncidentPlatform.Utils.Cache

namespace IncidentPlatform.Api

open Concurrency Models Utils

/-! # `GET /jobs/{id}` beside replays and resolutions

One job: its committed row, its cache key, and any number of readers, replays
and resolutions of it.  A step is one await that others can tell: a cache
command, a database read or a commit.
-/

variable {Row : Type}

/-- A row as it was read, with the number of replays and resolutions that had
committed by then. -/
structure Snapshot (Row : Type) where
  row : Row
  epoch : Nat

inductive ReaderPhase (Row : Type) where
  | arriving
  | missed
  | caching (read : Snapshot Row) (readAt : Time)
  | served (cached : Snapshot Row)
  | answered

/-- A replay: its commit, then the post-commit invalidation.  The commit has a
number. -/
inductive ReplayPhase where
  | running
  | committed (epoch : Nat)
  | invalidated (epoch : Nat)
deriving DecidableEq

/-- A resolution: the eviction in its transaction, the commit, the response. -/
inductive ResolvePhase where
  | running
  | evicted
  | committed (epoch : Nat)
  | responded (epoch : Nat)
  | rolledBack
deriving DecidableEq

structure JobReads (Row : Type) where
  clock : Time
  row : Row
  epoch : Nat
  cache : JobCache (Snapshot Row)
  reader : Nat → ReaderPhase Row
  replay : Nat → ReplayPhase
  resolution : Nat → ResolvePhase

inductive Action (Row : Type) where
  | pass (elapsed : Time)
  /-- Another transaction commits a change of the row. -/
  | write (row : Row)
  /-- The reader is entitled to a cached row if it owns the job or is privileged. -/
  | get (reader : Nat) (entitled : Bool)
  | read (reader : Nat)
  | set (reader : Nat)
  /-- The reader is refused the row, or dies. -/
  | abandon (reader : Nat)
  | commitReplay (replay : Nat) (row : Row)
  | invalidate (replay : Nat)
  | evict (resolution : Nat)
  | commitResolution (resolution : Nat) (row : Row)
  | rollbackResolution (resolution : Nat)
  | respond (resolution : Nat)

namespace JobReads

def initial (row : Row) : JobReads Row where
  clock := 0
  row
  epoch := 0
  cache := {}
  reader := fun _ => .arriving
  replay := fun _ => .running
  resolution := fun _ => .running

def assign {Phase : Type} (phases : Nat → Phase) (id : Nat) (phase : Phase) : Nat → Phase :=
  fun other => if other = id then phase else phases other

variable (reads : JobReads Row)

/-- The row a reader is served from the cache. -/
def servedFromCache (entitled : Bool) : Option (Snapshot Row) :=
  if entitled then reads.cache.get reads.clock else none

def step : Action Row → JobReads Row → Option (JobReads Row)
  | .pass elapsed, reads => some { reads with clock := reads.clock + elapsed }
  | .write row, reads => some { reads with row }
  | .get reader entitled, reads =>
      match reads.reader reader with
      | .arriving =>
          let phase := match reads.servedFromCache entitled with
            | some cached => .served cached
            | none => .missed
          some { reads with reader := assign reads.reader reader phase }
      | _ => none
  | .read reader, reads =>
      match reads.reader reader with
      | .missed => some { reads with
          reader := assign reads.reader reader (.caching ⟨reads.row, reads.epoch⟩ reads.clock) }
      | _ => none
  | .set reader, reads =>
      match reads.reader reader with
      | .caching read _ => some { reads with
          cache := reads.cache.set reads.clock read
          reader := assign reads.reader reader .answered }
      | _ => none
  | .abandon reader, reads =>
      some { reads with reader := assign reads.reader reader .answered }
  | .commitReplay replay row, reads =>
      match reads.replay replay with
      | .running => some { reads with
          row
          epoch := reads.epoch + 1
          replay := assign reads.replay replay (.committed (reads.epoch + 1)) }
      | _ => none
  | .invalidate replay, reads =>
      match reads.replay replay with
      | .committed epoch => some { reads with
          cache := JobCache.invalidate reads.clock
          replay := assign reads.replay replay (.invalidated epoch) }
      | _ => none
  | .evict resolution, reads =>
      match reads.resolution resolution with
      | .running => some { reads with
          cache := JobCache.delete
          resolution := assign reads.resolution resolution .evicted }
      | _ => none
  | .commitResolution resolution row, reads =>
      match reads.resolution resolution with
      | .evicted => some { reads with
          row
          epoch := reads.epoch + 1
          resolution := assign reads.resolution resolution (.committed (reads.epoch + 1)) }
      | _ => none
  | .rollbackResolution resolution, reads =>
      match reads.resolution resolution with
      | .running | .evicted => some { reads with
          resolution := assign reads.resolution resolution .rolledBack }
      | _ => none
  | .respond resolution, reads =>
      match reads.resolution resolution with
      | .committed epoch => some { reads with
          resolution := assign reads.resolution resolution (.responded epoch) }
      | _ => none

end JobReads

/-- The readers and writers of one job that starts as `row`. -/
def jobReads (row : Row) : Machine (JobReads Row) (Action Row) where
  initial := .initial row
  step := JobReads.step

end IncidentPlatform.Api

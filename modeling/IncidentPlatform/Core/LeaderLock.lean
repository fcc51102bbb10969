import IncidentPlatform.Concurrency.Machine

namespace IncidentPlatform.Core

open Concurrency

/-! # The leader gate

`advisory_leader_lock` over a Postgres engine, for one key: the sessions of the
server, the connections of the pools, and any number of entries into the gate,
each of which checks a connection out and runs acquire, body and release on it.
A step of an entry is one await; it may fail before or after the server did what
it was asked, and it may fail by losing the connection.
-/

abbrev Conn := Nat

abbrev EntryId := Nat

inductive ConnectionState where
  | absent
  | idle
  | checkedOut
  | discarded
deriving DecidableEq

/-- The await an entry is at, with its connection and what it was told. -/
inductive GatePhase where
  | outside
  | acquiring (conn : Conn)
  | committing (conn : Conn) (acquired : Bool)
  | body (conn : Conn) (leader : Bool)
  | releasing (conn : Conn)
  | committingRelease (conn : Conn)
  | invalidating (conn : Conn)
  | closing (conn : Conn)
deriving DecidableEq

/-- How an await ends; a failure says whether the server had done its part. -/
inductive AwaitResult where
  | completes
  | fails (reached : Bool)
  | losesConnection
deriving DecidableEq

structure LeaderGate where
  /-- The session that holds the lock and how many times it took it. -/
  holder : Option (Conn × Nat)
  connection : Conn → ConnectionState
  phase : EntryId → GatePhase

namespace LeaderGate

variable (gate : LeaderGate)

def initial : LeaderGate where
  holder := none
  connection := fun _ => .absent
  phase := fun _ => .outside

/-- `pg_try_advisory_lock`: a session that holds the lock takes it once more. -/
def tryAdvisoryLock (conn : Conn) : Bool × LeaderGate :=
  match gate.holder with
  | none => (true, { gate with holder := some (conn, 1) })
  | some (owner, count) =>
      if owner = conn then (true, { gate with holder := some (owner, count + 1) })
      else (false, gate)

/-- `pg_advisory_unlock`, which only warns when the session holds nothing. -/
def advisoryUnlock (conn : Conn) : LeaderGate :=
  match gate.holder with
  | none => gate
  | some (owner, count) =>
      if owner = conn then
        { gate with holder := if count ≤ 1 then none else some (owner, count - 1) }
      else gate

def setConnection (conn : Conn) (state : ConnectionState) : Conn → ConnectionState :=
  fun other => if other = conn then state else gate.connection other

/-- The connection is closed for good and its session's locks are freed. -/
def endSession (conn : Conn) : LeaderGate :=
  { gate with
    holder := gate.holder.filter fun held => held.1 ≠ conn
    connection := gate.setConnection conn .discarded }

/-- `close`: a rollback, which frees no session lock, and back to the pool. -/
def giveBack (conn : Conn) : LeaderGate :=
  match gate.connection conn with
  | .checkedOut => { gate with connection := gate.setConnection conn .idle }
  | _ => gate

def goto (entry : EntryId) (phase : GatePhase) : LeaderGate :=
  { gate with phase := fun other => if other = entry then phase else gate.phase other }

/-- `engine.connect()`: a pooled connection or a new one. -/
def enter (entry : EntryId) (conn : Conn) : Option LeaderGate :=
  if gate.phase entry = .outside ∧ (gate.connection conn = .idle ∨ gate.connection conn = .absent) then
    some ({ gate with connection := gate.setConnection conn .checkedOut }.goto entry (.acquiring conn))
  else none

def advance (entry : EntryId) : GatePhase → AwaitResult → Option LeaderGate
  | .acquiring conn, .completes =>
      some ((gate.tryAdvisoryLock conn).2.goto entry (.committing conn (gate.tryAdvisoryLock conn).1))
  | .acquiring conn, .fails true => some ((gate.tryAdvisoryLock conn).2.goto entry (.closing conn))
  | .acquiring conn, .fails false => some (gate.goto entry (.closing conn))
  | .acquiring conn, .losesConnection => some ((gate.endSession conn).goto entry (.closing conn))
  | .committing conn acquired, .completes => some (gate.goto entry (.body conn acquired))
  | .committing conn _, .fails _ => some (gate.goto entry (.closing conn))
  | .committing conn _, .losesConnection => some ((gate.endSession conn).goto entry (.closing conn))
  | .body conn true, .completes | .body conn true, .fails _ => some (gate.goto entry (.releasing conn))
  | .body conn false, .completes | .body conn false, .fails _ =>
      some (gate.goto entry (.closing conn))
  | .releasing conn, .completes =>
      some ((gate.advisoryUnlock conn).goto entry (.committingRelease conn))
  | .releasing conn, .fails true =>
      some ((gate.advisoryUnlock conn).goto entry (.invalidating conn))
  | .releasing conn, .fails false => some (gate.goto entry (.invalidating conn))
  | .releasing conn, .losesConnection => some ((gate.endSession conn).goto entry (.invalidating conn))
  | .committingRelease conn, .completes => some (gate.goto entry (.closing conn))
  | .committingRelease conn, .fails _ => some (gate.goto entry (.invalidating conn))
  | .committingRelease conn, .losesConnection =>
      some ((gate.endSession conn).goto entry (.invalidating conn))
  | .invalidating conn, .completes => some ((gate.endSession conn).goto entry (.closing conn))
  | .closing conn, .completes => some ((gate.giveBack conn).goto entry .outside)
  -- The body awaits nothing on the gate's connection; `invalidate` and `close` do not fail.
  | .body .., .losesConnection | .outside, _ | .invalidating _, _ | .closing _, _ => none

inductive Action where
  | enter (entry : EntryId) (conn : Conn)
  | resume (entry : EntryId) (result : AwaitResult)

def step : Action → LeaderGate → Option LeaderGate
  | .enter entry conn, gate => gate.enter entry conn
  | .resume entry result, gate => gate.advance entry (gate.phase entry) result

/-- Every replica's entries into the gate for one key. -/
def machine : Machine LeaderGate Action where
  initial := .initial
  step := step

/-- How many times the session of `conn` holds the lock. -/
def lockCount (conn : Conn) : Nat :=
  match gate.holder with
  | some (owner, count) => if owner = conn then count else 0
  | none => 0

end LeaderGate

end IncidentPlatform.Core

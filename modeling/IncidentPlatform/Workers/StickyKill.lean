import IncidentPlatform.Concurrency.Machine
import Mathlib.Logic.Function.Basic

namespace IncidentPlatform.Workers

open Concurrency

/-! # Kills of one consumer group

The kill flag and the sticky marker of a group, under any calls of
`kill_consumer` and `restart_consumer_group`, kill-state reads and resets of the
environment.  A step is one Redis command with what its process computes from the
reply.  There is one clock, in milliseconds: Redis's expiries and the three
decimals of a marker.
-/

def killFlagValue : String := "killed"

/-- A value and the instant its TTL ends at. -/
structure Expiring (Value : Type) where
  value : Value
  expiresAt : Nat

/-- What Redis finds under a key; a key is gone after its last instant. -/
def Expiring.get {Value : Type} (now : Nat) (stored : Option (Expiring Value)) : Option Value :=
  match stored with
  | some held => if now ≤ held.expiresAt then some held.value else none
  | none => none

/-- What `float` makes of the text of a marker. -/
inductive StickyMarker where
  | unixTime (milliseconds : Nat)
  | notFinite
  | raises
deriving DecidableEq

def stickyDeadline : Option StickyMarker → Option Nat
  | some (.unixTime deadline) => some deadline
  | some .notFinite | some .raises | none => none

/-- The deadline `_rearm_sticky_kill` sets the flag until, if it does. -/
def rearmStickyKill (chaosEnabled : Bool) (now : Nat) (marker : Option StickyMarker) : Option Nat :=
  match stickyDeadline marker with
  | none => none
  | some deadline =>
      if deadline ≤ now then none
      else if chaosEnabled then some deadline
      else none

/-- The arguments of `kill_consumer` for the group. -/
structure KillCall where
  ttlSeconds : Nat
  sticky : Bool
  bounded : 1 ≤ ttlSeconds ∧ ttlSeconds ≤ 3600
deriving DecidableEq

def KillCall.ttl (call : KillCall) : Nat := call.ttlSeconds * 1000

/-- The keys of the group that tell whether it is killed. -/
inductive ChaosKey where
  | kill
  | killSticky
deriving DecidableEq

/-- What a process does with the group. -/
inductive KillPhase where
  | idle
  /-- `kill_consumer` has taken `expires_at`; the flag is next. -/
  | killing (call : KillCall) (expiresAt : Nat)
  /-- The flag is set; the marker is next. -/
  | marking (call : KillCall) (expiresAt : Nat)
  /-- A read found no flag and a marker to re-arm from. -/
  | rearming (deadline : Nat)
  /-- `_scan_delete` is between two batches.  The keys owed were there at every
  instant since it began, and were in no batch. -/
  | scanning (owed : List ChaosKey)
  | deleting (batch owed : List ChaosKey) (last : Bool)
deriving DecidableEq

namespace KillPhase

def resetting : KillPhase → Bool
  | .scanning _ | .deleting .. => true
  | _ => false

/-- A `SCAN` need not return a key that was away while it went on. -/
def forget (key : ChaosKey) : KillPhase → KillPhase
  | .scanning owed => .scanning (owed.filter (· ≠ key))
  | .deleting batch owed last => .deleting batch (owed.filter (· ≠ key)) last
  | phase => phase

end KillPhase

/-- A kill-state read that returned. -/
structure KillAnswer where
  instant : Nat
  killed : Bool
  /-- The deadline in force. -/
  inForce : Option Nat

/-- The `SET` of a re-arm. -/
structure Rearmed where
  instant : Nat
  deadline : Nat
  /-- A reset had completed, and no kill call began since. -/
  afterReset : Bool

structure KillHistory where
  /-- The end of the window of the sticky call that wrote last, from that write. -/
  stickyUntil : Option Nat
  /-- The same of the plain calls. -/
  plainUntil : Option Nat
  /-- The deadline of the sticky call that completed last, unless a reset deleted
  a key of the group since. -/
  inForce : Option Nat
  afterReset : Bool
  answers : List KillAnswer
  rearms : List Rearmed

structure GroupKill (Process : Type) where
  now : Nat
  flag : Option (Expiring String)
  marker : Option (Expiring StickyMarker)
  phase : Process → KillPhase
  history : KillHistory
  /-- The process whose sticky call wrote last, if what it wrote was the flag. -/
  halfway : Option Process

namespace GroupKill

variable {Process : Type} (group : GroupKill Process)

def initial : GroupKill Process where
  now := 0
  flag := none
  marker := none
  phase := fun _ => .idle
  history := ⟨none, none, none, false, [], []⟩
  halfway := none

def has : ChaosKey → Bool
  | .kill => (Expiring.get group.now group.flag).isSome
  | .killSticky => (Expiring.get group.now group.marker).isSome

/-- A key that is set anew was away for the resets under way. -/
def appears (key : ChaosKey) : GroupKill Process :=
  { group with phase := fun process =>
      if group.has key then group.phase process else (group.phase process).forget key }

@[simp] theorem appears_now (key : ChaosKey) : (group.appears key).now = group.now := rfl

@[simp] theorem appears_history (key : ChaosKey) : (group.appears key).history = group.history := rfl

@[simp] theorem appears_halfway (key : ChaosKey) : (group.appears key).halfway = group.halfway := rfl

def setFlag (expiresAt : Nat) : GroupKill Process :=
  { group.appears .kill with flag := some ⟨killFlagValue, expiresAt⟩ }

def setMarker (marker : StickyMarker) (expiresAt : Nat) : GroupKill Process :=
  { group.appears .killSticky with marker := some ⟨marker, expiresAt⟩ }

variable [DecidableEq Process]

def goto (process : Process) (phase : KillPhase) : GroupKill Process :=
  { group with phase := Function.update group.phase process phase }

/-- The call passes the gate of the chaos tools and takes `expires_at`. -/
def callKill (chaosEnabled : Bool) (process : Process) (call : KillCall) : Option (GroupKill Process) :=
  if chaosEnabled = true ∧ group.phase process = .idle then
    some { group.goto process (.killing call (group.now + call.ttl)) with
      history := { group.history with afterReset := false } }
  else none

/-- The `SET` of the flag. -/
def arm (process : Process) : Option (GroupKill Process) :=
  match group.phase process with
  | .killing call expiresAt =>
      let armed := group.setFlag (group.now + call.ttl)
      if call.sticky then
        some { armed.goto process (.marking call expiresAt) with
          history := { group.history with stickyUntil := some (group.now + call.ttl) }
          halfway := some process }
      else
        some { armed.goto process .idle with
          history := { group.history with plainUntil := some (group.now + call.ttl) } }
  | _ => none

/-- The `SET` of the marker. -/
def mark (process : Process) : Option (GroupKill Process) :=
  match group.phase process with
  | .marking call expiresAt =>
      some { (group.setMarker (.unixTime expiresAt) (group.now + call.ttl)).goto process .idle with
        history := { group.history with
          stickyUntil := some (group.now + call.ttl)
          inForce := some expiresAt }
        halfway := none }
  | _ => none

/-- The `DEL` of the flag; the one after it is of the latency key. -/
def restart : GroupKill Process := { group with flag := none }

def answer (killed : Bool) : GroupKill Process :=
  { group with history := { group.history with
      answers := ⟨group.now, killed, group.history.inForce⟩ :: group.history.answers } }

/-- The `MGET`. -/
def readKillState (chaosEnabled : Bool) (process : Process) : Option (GroupKill Process) :=
  if group.phase process = .idle then
    match Expiring.get group.now group.flag with
    | some _ => some (group.answer true)
    | none =>
        match rearmStickyKill chaosEnabled group.now (Expiring.get group.now group.marker) with
        | some deadline => some (group.goto process (.rearming deadline))
        | none => some (group.answer false)
  else none

/-- The `SET` with `pxat`, and the read's answer. -/
def rearm (process : Process) : Option (GroupKill Process) :=
  match group.phase process with
  | .rearming deadline =>
      some { (group.setFlag deadline).goto process .idle with
        history := { (group.answer true).history with
          rearms := ⟨group.now, deadline, group.history.afterReset⟩ :: group.history.rearms } }
  | _ => none

/-- The reset deleted what its scan returned. -/
def cleared (process : Process) : GroupKill Process :=
  { group.goto process .idle with history := { group.history with afterReset := true } }

/-- A `SCAN` returns keys that are there, and by its last call all it owes. -/
def scanFrom (process : Process) (owed batch : List ChaosKey) (last : Bool) : Option (GroupKill Process) :=
  let missing := owed.filter fun key => group.has key && !batch.contains key
  if batch.all group.has && (!last || missing.isEmpty) then
    if batch.isEmpty then
      some (if last then group.cleared process else group.goto process (.scanning missing))
    else some (group.goto process (.deleting batch missing last))
  else none

def scan (process : Process) (batch : List ChaosKey) (last : Bool) : Option (GroupKill Process) :=
  match group.phase process with
  | .idle => group.scanFrom process [.kill, .killSticky] batch last
  | .scanning owed => group.scanFrom process owed batch last
  | _ => none

/-- The `DEL` of a batch. -/
def delete (process : Process) : Option (GroupKill Process) :=
  match group.phase process with
  | .deleting batch owed last =>
      let deleted : GroupKill Process := { group with
        flag := if batch.contains .kill then none else group.flag
        marker := if batch.contains .killSticky then none else group.marker
        history := { group.history with inForce := none } }
      some (if last then deleted.cleared process else deleted.goto process (.scanning owed))
  | _ => none

inductive Action (Process : Type) where
  | pass (elapsed : Nat)
  | callKill (process : Process) (call : KillCall)
  | arm (process : Process)
  | mark (process : Process)
  | restart
  | read (process : Process)
  | rearm (process : Process)
  | scan (process : Process) (batch : List ChaosKey) (last : Bool)
  | delete (process : Process)

def step (chaosEnabled : Bool) : Action Process → GroupKill Process → Option (GroupKill Process)
  | .pass elapsed, group => some { group with now := group.now + elapsed }
  | .callKill process call, group => group.callKill chaosEnabled process call
  | .arm process, group => group.arm process
  | .mark process, group => group.mark process
  | .restart, group => some group.restart
  | .read process, group => group.readKillState chaosEnabled process
  | .rearm process, group => group.rearm process
  | .scan process batch last, group => group.scan process batch last
  | .delete process, group => group.delete process

def machine (Process : Type) [DecidableEq Process] (chaosEnabled : Bool) :
    Machine (GroupKill Process) (Action Process) where
  initial := .initial
  step := step chaosEnabled

end GroupKill

end IncidentPlatform.Workers

import IncidentPlatform.Concurrency.Machine
import IncidentPlatform.Workers.Progress
import Mathlib.Logic.Function.Basic

namespace IncidentPlatform.Frontend

open Concurrency Workers

/-! # The progress stream of a page

`useJobStream` in one component: its renders, its effects and what the browser
runs for them, one task of the event loop at a time.
-/

def reconnectBaseMs : Nat := 2000
def reconnectMaxMs : Nat := 30000

def streamEventNames : List String := ["running", "retrying", "completed", "failed", "dead_letter", "cancelled"]

/-- The names that reach `handleEvent`; an unnamed event is a `message`. -/
def handlesEvent (name : String) : Bool := name ∈ streamEventNames || name = "message"

structure StreamState where
  events : List ProgressEvent
  latest : Option ProgressEvent
  connected : Bool
  done : Bool
deriving DecidableEq

def emptyState : StreamState where
  events := []
  latest := none
  connected := false
  done := false

def isRepeat (previous event : ProgressEvent) : Bool :=
  previous.timestamp = event.timestamp && previous.status = event.status && previous.progress = event.progress

/-- The updater of `handleEvent`. -/
def StreamState.receive (state : StreamState) (event : ProgressEvent) : StreamState where
  events := if state.events.getLast?.any (isRepeat · event) then state.events else state.events ++ [event]
  latest := some event
  connected := !event.status.terminal
  done := event.status.terminal

/-- The variables of one invocation of the effect. -/
structure StreamEffect where
  id : String
  disposed : Bool := false
  /-- The delay of the reconnect timer that is set. -/
  timer : Option Nat := none
  es : Option Nat := none
  sawTerminal : Bool := false
  reconnectDelay : Nat := reconnectBaseMs
  /-- The calls of `streamToken` that have not been answered. -/
  requests : Nat := 0

namespace StreamEffect

def scheduleReconnect (effect : StreamEffect) : StreamEffect :=
  if effect.disposed || effect.sawTerminal then effect
  else { effect with
    reconnectDelay := min (effect.reconnectDelay * 2) reconnectMaxMs
    timer := some effect.reconnectDelay }

/-- `connect` up to its `await`. -/
def connect (effect : StreamEffect) : StreamEffect :=
  if effect.disposed then effect else { effect with requests := effect.requests + 1 }

def dispose (effect : StreamEffect) : StreamEffect := { effect with disposed := true, timer := none, es := none }

end StreamEffect

structure EventSource where
  effect : Nat
  jobId : String
  token : String
  closed : Bool

structure JobStream where
  mounted : Bool
  /-- The argument of the last render. -/
  jobId : Option String
  streamedJobId : Option String
  state : StreamState
  /-- The dependency that the effect has last run with. -/
  effectJobId : Option String
  /-- The invocation whose cleanup is still to come. -/
  running : Option Nat
  begun : Nat
  effects : Nat → StreamEffect
  opened : Nat
  sources : Nat → EventSource

namespace JobStream

/-- A mounted component without a job. -/
def initial : JobStream where
  mounted := true
  jobId := none
  streamedJobId := none
  state := emptyState
  effectJobId := none
  running := none
  begun := 0
  effects _ := { id := "", disposed := true }
  opened := 0
  sources _ := { effect := 0, jobId := "", token := "", closed := true }

inductive Action where
  | render (jobId : Option String)
  /-- React runs the effect, if its dependency has changed. -/
  | flush
  /-- The effect is cleaned up and run again, as `StrictMode` does. -/
  | remount
  | unmount
  | grant (effect : Nat) (token : String)
  | refuse (effect : Nat)
  | fire (effect : Nat)
  | onopen (source : Nat)
  | message (source : Nat) (name : String) (data : Option ProgressEvent)
  | onerror (source : Nat)
deriving DecidableEq

variable (stream : JobStream)

def setEffect (number : Nat) (effect : StreamEffect) : JobStream :=
  { stream with effects := Function.update stream.effects number effect }

def close (source : Nat) : JobStream :=
  { stream with sources := Function.update stream.sources source { stream.sources source with closed := true } }

/-- `new EventSource`. -/
def openSource (number : Nat) (token : String) : JobStream :=
  { stream with
    sources := Function.update stream.sources stream.opened
      { effect := number, jobId := (stream.effects number).id, token, closed := false }
    opened := stream.opened + 1 }

/-- `setState` with this updater. -/
def setState (updater : StreamState → StreamState) : JobStream := { stream with state := updater stream.state }

def disconnected (state : StreamState) : StreamState := { state with connected := false }

def release (number : Nat) : JobStream :=
  { stream.setEffect number (stream.effects number).dispose with running := none }

/-- What the effect returns, for the invocation that is running. -/
def cleanup : JobStream :=
  match stream.running with
  | none => stream
  | some number =>
      match (stream.effects number).es with
      | some source => (stream.release number).close source
      | none => stream.release number

def invoke (id : String) : JobStream :=
  { stream.setEffect stream.begun { id, requests := 1 } with
    effectJobId := stream.jobId
    running := some stream.begun
    begun := stream.begun + 1 }

/-- The effect, which does nothing without a job or with an empty id. -/
def runEffect : JobStream :=
  match stream.jobId with
  | none => { stream with effectJobId := none }
  | some id => if id = "" then { stream with effectJobId := some id } else stream.invoke id

def render (jobId : Option String) : Option JobStream :=
  -- React runs a pending effect before it renders again.
  if stream.mounted ∧ stream.effectJobId = stream.jobId then
    if stream.streamedJobId = jobId then some { stream with jobId }
    else some { stream with jobId, streamedJobId := jobId, state := emptyState }
  else none

def flush : Option JobStream :=
  if stream.effectJobId = stream.jobId then none else some stream.cleanup.runEffect

def remount : Option JobStream :=
  if stream.mounted ∧ stream.effectJobId = stream.jobId then some stream.cleanup.runEffect else none

def unmount : Option JobStream :=
  if stream.mounted ∧ stream.effectJobId = stream.jobId then some { stream.cleanup with mounted := false } else none

/-- The rest of `connect`, with the token. -/
def grant (number : Nat) (token : String) : Option JobStream :=
  let effect := stream.effects number
  if effect.requests = 0 then none
  else
    let answered := { effect with requests := effect.requests - 1 }
    if effect.disposed then some (stream.setEffect number answered)
    else some ((stream.openSource number token).setEffect number { answered with es := some stream.opened })

/-- The `catch` of `connect`. -/
def refuse (number : Nat) : Option JobStream :=
  let effect := stream.effects number
  if effect.requests = 0 then none
  else
    let answered := { effect with requests := effect.requests - 1 }
    if effect.disposed then some (stream.setEffect number answered)
    else some ((stream.setEffect number answered.scheduleReconnect).setState disconnected)

def fire (number : Nat) : Option JobStream :=
  let effect := stream.effects number
  match effect.timer with
  | none => none
  | some _ => some (stream.setEffect number { effect with timer := none }.connect)

def onopen (source : Nat) : Option JobStream :=
  let held := stream.sources source
  if held.closed then none
  else some ((stream.setEffect held.effect { stream.effects held.effect with reconnectDelay := reconnectBaseMs }).setState
    fun state => { state with connected := true })

/-- `handleEvent`, if the name has a listener and the data parses. -/
def message (source : Nat) (name : String) (data : Option ProgressEvent) : Option JobStream :=
  let held := stream.sources source
  if held.closed then none
  else
    match data with
    | none => some stream
    | some event =>
        if handlesEvent name then
          let recorded :=
            if event.status.terminal then
              (stream.setEffect held.effect { stream.effects held.effect with sawTerminal := true }).close source
            else stream
          some (recorded.setState (·.receive event))
        else some stream

def onerror (source : Nat) : Option JobStream :=
  let held := stream.sources source
  let effect := stream.effects held.effect
  if held.closed then none
  else if effect.disposed || effect.sawTerminal then some (stream.close source)
  else some (((stream.close source).setEffect held.effect effect.scheduleReconnect).setState disconnected)

def step : Action → JobStream → Option JobStream
  | .render jobId, stream => stream.render jobId
  | .flush, stream => stream.flush
  | .remount, stream => stream.remount
  | .unmount, stream => stream.unmount
  | .grant number token, stream => stream.grant number token
  | .refuse number, stream => stream.refuse number
  | .fire number, stream => stream.fire number
  | .onopen source, stream => stream.onopen source
  | .message source name data, stream => stream.message source name data
  | .onerror source, stream => stream.onerror source

def machine : Machine JobStream Action where
  initial := initial
  step := step

end JobStream

end IncidentPlatform.Frontend

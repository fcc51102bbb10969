import IncidentPlatform.Services.Saga
import IncidentPlatform.Workers.DependencyResolver
import IncidentPlatform.Workers.SagaCoordinator

namespace IncidentPlatform.Platform

open Concurrency Models Services Workers

/-! # The platform as one system

A role is one run of one entry point: an API request, a message handed to a
consumer, or one turn of a control loop.  Any number of each may be running,
on any number of replicas.
-/

inductive Role where
  | createJob (request : CreateJobRequest)
  | createSaga (request : CreateSagaRequest)
  | replay (id tenant : Uuid) (principal : Principal)
  | replayEach (ids : List Uuid) (tenant : Uuid) (principal : Principal)
  | scheduleEach (ids : List Uuid) (tenant : Uuid) (principal : ToolPrincipal) (delaySeconds : Nat)
      (details : List (String × Json))
  | resolveIncident (id user tenant : Uuid)
  | deliver (id : Uuid)
  | redeliver (id : Uuid)
  | forceDeadLetter (id : Uuid) (error : String)
  | promoteDelayed
  | resumeUnblockedWaiting (cursor : Option (Time × Uuid))
  | requeueStalePending
  | sweepStaleRunning
  | renewRunningLeases (ids : List Uuid)
  | promoteDlqReplay
  | outboxRelay
  | resolveDependents (parent : Uuid)
  | coordinateSaga (topic : Topic) (id : Uuid)

def Role.program (settings : Settings) : Role → Prog Unit
  | .createJob request => Services.request (Services.createJob settings request)
  | .createSaga request => Services.request (Services.createSaga settings request)
  | .replay id tenant principal => Services.request (replayJob id tenant principal)
  | .replayEach ids tenant principal => Services.replayEach ids tenant principal
  | .scheduleEach ids tenant principal delaySeconds details =>
      Services.scheduleEach ids tenant principal delaySeconds details
  | .resolveIncident id user tenant => Services.request (Services.resolveIncident id user tenant)
  | .deliver id | .redeliver id => runJob settings id
  | .forceDeadLetter id error => Workers.forceDeadLetter id error
  | .promoteDelayed => promoteDelayedOnce
  | .resumeUnblockedWaiting cursor => resumeUnblockedWaitingOnce cursor
  | .requeueStalePending => requeueStalePendingOnce
  | .sweepStaleRunning => sweepStaleRunningOnce settings
  | .renewRunningLeases ids => renewRunningLeasesOnce settings ids
  | .promoteDlqReplay => promoteDlqReplayOnce
  | .outboxRelay => outboxRelayTick settings
  | .resolveDependents parent => Workers.resolveDependents parent
  | .coordinateSaga topic id => Workers.coordinateSaga topic id

/-- Whether Kafka has ever acknowledged a message of `topic` about `job`. -/
def World.onBroker (world : World) (topic : Topic) (job : Uuid) : Bool :=
  world.broker.any fun row => row.announces topic job

/-- A consumer runs on a message of the broker; the first delivery of a
`job.submitted` message takes it off the undelivered ones, and Kafka may
deliver any message again. -/
def World.accept (world : World) : Role → Option World
  | .deliver id =>
      if id ∈ world.undelivered then
        some { world with undelivered := world.undelivered.erase id }
      else none
  | .redeliver id | .forceDeadLetter id _ => if world.onBroker .submitted id then some world else none
  | .resolveDependents parent => if world.onBroker .completed parent then some world else none
  | .coordinateSaga topic id =>
      if (topic = .completed ∨ topic = .dlq) ∧ world.onBroker topic id then some world else none
  | _ => some world

def platform (settings : Settings) : System World Role Op Reply Change where
  program := Role.program settings
  accept := fun role world => world.accept role
  execute := World.operate
  environment := fun change world => world.change change

abbrev PlatformPool := Pool World Role Op Reply

abbrev PlatformEntry := Entry World Role Op Reply

/-- A platform with empty stores and no pause set. -/
def World.fresh (outside : Outside) : World where
  jobs := .empty
  sagas := .empty
  outbox := .empty
  dependencies := .empty
  audit := .empty
  delayed := []
  replayScheduled := []
  replayInflight := []
  paused := fun _ => none
  epoch := 0
  broker := []
  undelivered := []
  outside

/-- The pools that runs from a fresh platform reach. -/
def Reachable (settings : Settings) (pool : PlatformPool) : Prop :=
  ∃ outside, (platform settings).Reaches (.initial (.fresh outside)) pool

theorem Reachable.trans {settings : Settings} {start pool : PlatformPool}
    (reachable : Reachable settings start) (reached : (platform settings).Reaches start pool) :
    Reachable settings pool := by
  obtain ⟨outside, earlier⟩ := reachable
  exact ⟨outside, earlier.trans reached⟩

/-- `count` operations of one process. -/
def turns (pid : Pid) (count : Nat) : List (Label Role Change) := .replicate count (.run pid)

/-- Readings at `clock`: the next id is the clock's, a processor ends in
`outcome`, and Kafka acknowledges. -/
def readings (clock : Time) (outcome : Outcome) : Outside where
  clock
  uuid := clock
  outcome
  decision := none
  publish := .acknowledged
  inFlight := []

def tick (clock : Time) (outcome : Outcome) : List (Label Role Change) :=
  [.environment (.outside (readings clock outcome))]

/-- The pool that a run from a fresh platform ends in. -/
def runFresh (settings : Settings) (labels : List (Label Role Change)) : Option PlatformPool :=
  (platform settings).run labels (.initial (.fresh (readings 1 .timedOut)))

theorem exists_reachable {settings : Settings} (labels : List (Label Role Change))
    {check : PlatformPool → Bool} (passes : (runFresh settings labels).any check = true) :
    ∃ pool, Reachable settings pool ∧ check pool = true := by
  obtain ⟨pool, reached, checked⟩ := System.exists_reached passes
  exact ⟨pool, ⟨_, reached⟩, checked⟩

theorem exists_reachable_then {settings : Settings} (first second : List (Label Role Change))
    {check : PlatformPool → PlatformPool → Bool}
    (passes : ((runFresh settings first).any fun start =>
      ((platform settings).run second start).any (check start)) = true) :
    ∃ start pool, Reachable settings start ∧ (platform settings).Reaches start pool ∧
      check start pool = true := by
  obtain ⟨start, reachable, passes⟩ := exists_reachable first passes
  obtain ⟨pool, reached, checked⟩ := System.exists_reached passes
  exact ⟨start, pool, reachable, reached, checked⟩

end IncidentPlatform.Platform

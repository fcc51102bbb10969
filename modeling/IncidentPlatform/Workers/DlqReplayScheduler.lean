import IncidentPlatform.Concurrency.Machine
import IncidentPlatform.Platform.World
import IncidentPlatform.Storage.SortedSet

namespace IncidentPlatform.Workers

open Concurrency Models Platform Storage

/-! # Scheduled replays: arm, claim, acknowledge

The two sorted sets of `dlq_replay_scheduler`, and the workers that claim from
them.  A claim moves a due member to the in-flight set under a deadline; a claim
that lapsed is claimed again.
-/

/-- A member of the sets: what `_member` writes, or a text that `_parse` rejects. -/
inductive ScheduledMember where
  | replay (member : ReplayMember)
  | unparseable (text : String)
deriving DecidableEq

structure ReplaySets where
  scheduled : SortedSet ScheduledMember Time
  inflight : SortedSet ScheduledMember Time

/-- `_CLAIM_READY_LUA` at `now`.  Members of one score come in the byte order of
their texts.  What is due fits one chunk, so the chunked removal is one. -/
def ReplaySets.claimReady (textOrder : ScheduledMember → ScheduledMember → Bool) (sets : ReplaySets)
    (now : Time) : List ScheduledMember × ReplaySets :=
  let lapsed := sets.inflight.range textOrder now popLimit
  let due := sets.scheduled.range textOrder now (popLimit - lapsed.length)
  (lapsed ++ due, {
    scheduled := sets.scheduled.remove due
    inflight := sets.inflight.addAll (lapsed ++ due) (now + claimTtl) })

abbrev WorkerId := Nat

structure DlqReplayScheduler where
  sets : ReplaySets
  /-- The latest time that a claim was made at. -/
  clock : Time
  /-- The claims that a worker has made and not acknowledged, with their deadlines. -/
  holding : WorkerId → List (ScheduledMember × Time)

namespace DlqReplayScheduler

variable (textOrder : ScheduledMember → ScheduledMember → Bool)

inductive Action where
  | armReplay (member : ReplayMember) (executeAt : Time)
  | cancelScheduledReplay (member : ReplayMember)
  | claimReady (worker : WorkerId) (now : Time)
  | ackReplay (worker : WorkerId) (member : ReplayMember)
  /-- `claim_ready` drops a member that does not parse. -/
  | dropUnparseable (worker : WorkerId) (text : String)
  | crash (worker : WorkerId)
  /-- Something else writes a text into the scheduled set. -/
  | writeForeign (text : String) (score : Time)

def hold (scheduler : DlqReplayScheduler) (worker : WorkerId)
    (claims : List (ScheduledMember × Time)) : WorkerId → List (ScheduledMember × Time) :=
  fun other => if other = worker then claims else scheduler.holding other

/-- A worker that holds a claim on `member` removes it from the in-flight set,
whoever claimed it last. -/
def release (scheduler : DlqReplayScheduler) (worker : WorkerId) (member : ScheduledMember) :
    Option DlqReplayScheduler :=
  let claims : SortedSet ScheduledMember Time := scheduler.holding worker
  if member ∈ claims.members then
    some { scheduler with
      sets := { scheduler.sets with inflight := scheduler.sets.inflight.remove [member] }
      holding := scheduler.hold worker (claims.remove [member]) }
  else none

def step : Action → DlqReplayScheduler → Option DlqReplayScheduler
  | .armReplay member executeAt, scheduler =>
      some { scheduler with
        sets := { scheduler.sets with
          scheduled := scheduler.sets.scheduled.add (.replay member) executeAt } }
  | .cancelScheduledReplay member, scheduler =>
      some { scheduler with
        sets := { scheduler.sets with
          scheduled := scheduler.sets.scheduled.remove [.replay member] } }
  | .claimReady worker now, scheduler =>
      if scheduler.clock ≤ now then
        let (claimed, sets) := scheduler.sets.claimReady textOrder now
        some {
          sets
          clock := now
          holding := scheduler.hold worker
            (scheduler.holding worker ++ claimed.map fun member => (member, now + claimTtl)) }
      else none
  | .ackReplay worker member, scheduler => scheduler.release worker (.replay member)
  | .dropUnparseable worker text, scheduler => scheduler.release worker (.unparseable text)
  | .crash worker, scheduler => some { scheduler with holding := scheduler.hold worker [] }
  | .writeForeign text score, scheduler =>
      some { scheduler with
        sets := { scheduler.sets with
          scheduled := scheduler.sets.scheduled.add (.unparseable text) score } }

def machine : Machine DlqReplayScheduler Action where
  initial := { sets := ⟨[], []⟩, clock := 0, holding := fun _ => [] }
  step := step textOrder

end DlqReplayScheduler

/-- The sorted sets of a world, as the scheduler has them. -/
def replaySets (world : World) : ReplaySets where
  scheduled := SortedSet.renamed .replay world.replayScheduled
  inflight := SortedSet.renamed .replay world.replayInflight

end IncidentPlatform.Workers

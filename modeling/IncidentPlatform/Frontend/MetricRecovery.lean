import IncidentPlatform.Frontend.DemoPhase
import Mathlib.Algebra.Order.Ring.Rat

namespace IncidentPlatform.Frontend

/-! # The metric, and when it really came back

Numbers are the finite ones.  How a timestamp reads as a time is the browser's.
-/

/-- `new Date(stamp).getTime()`; nothing where that is not a number. -/
abbrev DateParser := JsString → Option ℚ

/-- One reading of the mode's metric, with its time in two forms. -/
structure MetricSample where
  t : ℚ
  v : ℚ
  stamp : JsString
deriving DecidableEq

structure RecoveryReading where
  /-- The first sample outside the bar at or after the fault. -/
  breachedAt : Option JsString
  /-- The first sample of the run of inside-the-bar samples that counted. -/
  recoveredAt : Option JsString
  /-- The start of an inside-the-bar run that is not long enough yet. -/
  insideSince : Option JsString
  sustained : Bool
  required : Nat
deriving DecidableEq

def oldestFirst (samples : List MetricSample) : List MetricSample :=
  samples.insertionSort fun first second => first.t ≤ second.t

/-- `faultT === null || s.t >= faultT`, which a time that is not a number fails. -/
def sinceFault (dates : DateParser) (faultAt : Option JsString) (sample : MetricSample) : Bool :=
  faultAt.all fun stamp => (dates stamp).any fun faultT => faultT ≤ sample.t

/-- The loop over the samples: the start of the run that is long enough, and the
start of the run that the loop ends in. -/
def recoveryLoop (threshold : ℚ) (required : Nat) :
    Option JsString → Nat → List MetricSample → Option JsString × Option JsString
  | runStart, _, [] => (none, runStart)
  | runStart, runLength, sample :: rest =>
      if sample.v ≤ threshold then
        let runStart := some (runStart.getD sample.stamp)
        if required ≤ runLength + 1 then (runStart, runStart)
        else recoveryLoop threshold required runStart (runLength + 1) rest
      else recoveryLoop threshold required none 0 rest

/-- `from`: the breach, or the action where that is later. -/
def recoveryFrom (dates : DateParser) (breach : MetricSample) (actionAt : Option JsString) : ℚ :=
  match actionAt.bind dates with
  | some actionT => max breach.t actionT
  | none => breach.t

def metricRecovery (dates : DateParser) (samples : List MetricSample) (threshold : ℚ)
    (faultAt : Option JsString) (required : Nat) (actionAt : Option JsString) : RecoveryReading :=
  let relevant := oldestFirst (samples.filter (sinceFault dates faultAt))
  match relevant.find? fun sample => threshold < sample.v with
  | none => { breachedAt := none, recoveredAt := none, insideSince := none, sustained := false, required }
  | some breach =>
      let (recoveredAt, runStart) := recoveryLoop threshold required none 0
        (relevant.filter fun sample => recoveryFrom dates breach actionAt ≤ sample.t)
      { breachedAt := some breach.stamp
        recoveredAt
        insideSince := if recoveredAt = none then runStart else none
        sustained := recoveredAt.isSome
        required }

end IncidentPlatform.Frontend

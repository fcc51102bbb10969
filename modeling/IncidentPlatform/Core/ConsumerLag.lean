import IncidentPlatform.Core.Diagnostics
import IncidentPlatform.Python.JsonText

namespace IncidentPlatform.Core

open Dates Python

/-! # The lag window

`record_lag_sample` and `parse_samples` of `core/consumer_lag.py`, over the content
of the samples key.  Instants are in microseconds.
-/

def lagSamplesWindowSeconds : Nat := 900
def lagSamplesMaxEntries : Nat := 240
def lagSamplesTtl : Nat := lagSamplesWindowSeconds + 180

structure LagSampleReading where
  lag : Int
  measuredAt : AwareDateTime
deriving DecidableEq

/-- `parse_lag`, which catches `TypeError` and `ValueError` only. -/
def parseLag (digits : Nat) (raw : PyValue) : Except PyError (Option Int) :=
  match intOf digits raw with
  | .ok lag => .ok (some lag)
  | .error .typeError | .error .valueError | .error .unicodeDecodeError => .ok none
  | .error error => .error error

def parseMeasuredAt (value : PyValue) : Option AwareDateTime := parseStamp value

/-- One entry of the recorded window; nothing where it is unreadable. -/
def sampleOf (digits : Nat) : PyValue → Except PyError (Option LagSampleReading)
  | .object fields => do
    let lag ← parseLag digits (field "lag" fields)
    match lag, parseMeasuredAt (field "measured_at" fields) with
    | some lag, some measuredAt => .ok (some ⟨lag, measuredAt⟩)
    | _, _ => .ok none
  | _ => .ok none

def samplesOf (digits : Nat) : List PyValue → Except PyError (List LagSampleReading)
  | [] => .ok []
  | entry :: rest => do
    let sample ← sampleOf digits entry
    let samples ← samplesOf digits rest
    .ok (sample.toList ++ samples)

/-- `samples.sort(key=measured_at, reverse=True)`, which is stable. -/
def newestFirst (samples : List LagSampleReading) : List LagSampleReading :=
  samples.mergeSort fun first second => second.measuredAt.micros ≤ first.measuredAt.micros

/-- The exception that a JSON error is. -/
def raisedBy : JsonError → PyError
  | .malformed | .tooManyDigits => .valueError
  | .tooDeep => .recursionError

/-- The entries of a stored list; none where the text does not load or is no list.
`RecursionError` is not caught. -/
def storedEntries : Except JsonError PyValue → Except PyError (List PyValue)
  | .ok (.array entries) => .ok entries
  | .ok _ => .ok []
  | .error .tooDeep => .error .recursionError
  | .error .malformed | .error .tooManyDigits => .ok []

def parseSamples (limits : Limits) : Option RawValue → Except PyError (List LagSampleReading)
  | none => .ok []
  | some raw => do
    let entries ← storedEntries (loads limits raw.decodeReplacing)
    let samples ← samplesOf limits.digits entries
    .ok ((newestFirst samples).take lagSamplesMaxEntries)

theorem parseSamples_of_loads {limits : Limits} {raw : RawValue} {entries : List PyValue} {samples : List LagSampleReading}
    (loaded : loads limits raw.decodeReplacing = .ok (.array entries)) (each : samplesOf limits.digits entries = .ok samples) :
    parseSamples limits (some raw) = .ok ((newestFirst samples).take lagSamplesMaxEntries) := by
  rw [parseSamples, loaded, storedEntries]
  simp only [bind, Except.bind, each]

def windowMicros : Nat := lagSamplesWindowSeconds * 1000000

/-- The first instant of the calendar. -/
def earliestMicros : Nat := 86400 * 1000000

/-- `now - timedelta(...)`, which is a `datetime` again. -/
def samplesCutoff (now : DateTime) : Except PyError Int :=
  if now.micros < earliestMicros + windowMicros then .error .overflowError else .ok (now.micros - windowMicros : Int)

/-- Whether a stored entry stays. -/
def isRecent (cutoff : Int) : PyValue → Bool
  | .object fields =>
    match parseMeasuredAt (field "measured_at" fields) with
    | some measuredAt => cutoff < measuredAt.micros
    | none => false
  | _ => false

def sampleEntry (lag : Int) (now : DateTime) : PyValue :=
  .object [(pyString "lag", .int lag), (pyString "measured_at", .string (isoFormat now))]

/-- The stored entries that stay. -/
def keptSamples (limits : Limits) (cutoff : Int) : Option RawValue → Except PyError (List PyValue)
  | none => .ok []
  | some raw => do
    let text ← raw.decode
    let entries ← storedEntries (loads limits text)
    .ok (entries.filter (isRecent cutoff))

/-- The text that `record_lag_sample` sets the key to, which has this content. -/
def recordLagSample (limits : Limits) (client : RedisClient) (content : Option (List UInt8)) (lag : Int) (now : DateTime) :
    Except PyError PyString := do
  let cutoff ← samplesCutoff now
  let raw ← client.get content
  let samples ← keptSamples limits cutoff raw
  (dumps limits (.array ((sampleEntry lag now :: samples).take lagSamplesMaxEntries))).mapError raisedBy

/-- The samples key: its content, and when it expires. -/
structure SamplesKey where
  content : List UInt8
  expiresAt : Nat

/-- What a `get` at this time finds. -/
def SamplesKey.live : Option SamplesKey → Nat → Option (List UInt8)
  | none, _ => none
  | some key, micros => if micros < key.expiresAt then some key.content else none

structure LagCall where
  now : DateTime
  lag : Int

/-- The key after a call with this result; a call that raises leaves it as it is. -/
def keyAfter (key : Option SamplesKey) (now : DateTime) : Except PyError PyString → Option SamplesKey
  | .ok text => some ⟨encodeUtf8 text, now.micros + lagSamplesTtl * 1000000⟩
  | .error _ => key

def recordCall (limits : Limits) (client : RedisClient) (key : Option SamplesKey) (call : LagCall) : Option SamplesKey :=
  keyAfter key call.now (recordLagSample limits client (SamplesKey.live key call.now.micros) call.lag call.now)

def recordCalls (limits : Limits) (client : RedisClient) (calls : List LagCall) : Option SamplesKey :=
  calls.foldl (recordCall limits client) none

end IncidentPlatform.Core

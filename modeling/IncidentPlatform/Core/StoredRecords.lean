import IncidentPlatform.Core.ConsumerLag
import Mathlib.Data.List.Dedup
import Mathlib.Data.List.Sort

namespace IncidentPlatform.Core

open Python

/-! # Records of pools and breakers

`read_pool_states` of `core/pool_state.py` and `read_breaker_states` of
`core/breaker_state.py`.  The two read one record for each key they scan and
differ in the record.
-/

/-- `int(loaded.get(key) or 0)`. -/
def countField (digits : Nat) (key : String) (fields : List (PyString × PyValue)) : Except PyError Int :=
  if truth (field key fields) then intOf digits (field key fields) else .ok 0

/-- `float(loaded.get(key) or 0.0)`. -/
def secondsField (key : String) (fields : List (PyString × PyValue)) : Except PyError PyFloat :=
  if truth (field key fields) then floatOfValue (field key fields) else .ok (.double (.finite 0))

structure PoolRecord where
  process : PyString
  size : Int
  checkedOut : Int
  overflow : Int
  maxOverflow : Option Int
  waitTimeouts1m : Int
  writtenAt : AwareDateTime

/-- `int(max_overflow) if isinstance(max_overflow, int) else None`; a `bool` is an `int`. -/
def intInstance : PyValue → Option Int
  | .int value => some value
  | .bool value => some (if value then 1 else 0)
  | _ => none

/-- What `_record_from` makes of a dictionary; nothing without a process and a time. -/
def poolRecordOf (digits : Nat) (fields : List (PyString × PyValue)) : Except PyError (Option PoolRecord) :=
  match field "process" fields, parseStamp (field "written_at" fields) with
  | .string process, some writtenAt => do
    let size ← countField digits "size" fields
    let checkedOut ← countField digits "checked_out" fields
    let overflow ← countField digits "overflow" fields
    let waitTimeouts1m ← countField digits "wait_timeouts_1m" fields
    .ok (some {
      process, size, checkedOut, overflow, waitTimeouts1m, writtenAt
      maxOverflow := intInstance (field "max_overflow" fields) })
  | _, _ => .ok none

def poolProcesses : List PyString := [pyString "api_worker", pyString "mcp"]

/-- `_listing_order`: the place among the processes, and then the name. -/
def poolListingOrder (first second : PoolRecord) : Bool :=
  poolProcesses.idxOf first.process < poolProcesses.idxOf second.process ||
    poolProcesses.idxOf first.process = poolProcesses.idxOf second.process && decide (first.process ≤ second.process)

/-- A breaker's record as the reader builds it. -/
structure StoredBreaker where
  name : PyString
  state : PyString
  failureCount : Int
  failureThreshold : Int
  recoveryTimeoutS : PyFloat
  lastStateChangeAt : Option AwareDateTime
  lastFailureAt : Option AwareDateTime
  lastFailureReasonClass : Option PyString
  recordedAt : AwareDateTime

def stringInstance : PyValue → Option PyString
  | .string text => some text
  | _ => none

def breakerRecordOf (digits : Nat) (fields : List (PyString × PyValue)) : Except PyError (Option StoredBreaker) :=
  match parseStamp (field "recorded_at" fields), field "name" fields, field "state" fields with
  | some recordedAt, .string name, .string state => do
    let failureCount ← countField digits "failure_count" fields
    let failureThreshold ← countField digits "failure_threshold" fields
    let recoveryTimeoutS ← secondsField "recovery_timeout_s" fields
    .ok (some {
      name, state, failureCount, failureThreshold, recoveryTimeoutS, recordedAt
      lastStateChangeAt := parseStamp (field "last_state_change_at" fields)
      lastFailureAt := parseStamp (field "last_failure_at" fields)
      lastFailureReasonClass := stringInstance (field "last_failure_reason_class" fields) })
  | _, _, _ => .ok none

def breakerListingOrder (first second : StoredBreaker) : Bool := first.name ≤ second.name

/-- What the two readers do not share. -/
structure RecordReader (Record : Type) where
  recordOf : (digits : Nat) → List (PyString × PyValue) → Except PyError (Option Record)
  listingOrder : Record → Record → Bool
  nonePublished : String
  unreachable : String
  unreadable : String

section Reader

variable {Record : Type} (reader : RecordReader Record) (limits : Limits) (client : RedisClient)

/-- What is loaded from a record; `RecursionError` is not caught. -/
def RecordReader.loaded (digits : Nat) : Except JsonError PyValue → Except PyError (Option Record)
  | .ok (.object fields) => reader.recordOf digits fields
  | .ok _ => .ok none
  | .error .tooDeep => .error .recursionError
  | .error .malformed | .error .tooManyDigits => .ok none

/-- `_record_from`. -/
def RecordReader.recordFrom : Option RawValue → Except PyError (Option Record)
  | none => .ok none
  | some raw => reader.loaded limits.digits (loads limits raw.decodeReplacing)

/-- One key behind its `get`: what a failed `get` returns at once is `none`. -/
def RecordReader.withRaw (rest : Except PyError (Option (List Record))) :
    Except PyError (Option RawValue) → Except PyError (Option (List Record))
  | .error _ => .ok none
  | .ok raw => do
    let record ← reader.recordFrom limits raw
    let records ← rest
    .ok (records.map (record.toList ++ ·))

/-- The loop over the keys; `none` where one cannot be got. -/
def RecordReader.readKeys (contents : PyString → Option (List UInt8)) :
    List PyString → Except PyError (Option (List Record))
  | [] => .ok (some [])
  | key :: rest => reader.withRaw limits (readKeys contents rest) (client.get (contents key))

/-- The records, and why there are none. -/
structure Listing (Record : Type) where
  records : List Record
  unknown : Option String

def RecordReader.listing : Option (List Record) → Listing Record
  | none => ⟨[], some reader.unreachable⟩
  | some [] => ⟨[], some reader.unreadable⟩
  | some (record :: rest) => ⟨(record :: rest).mergeSort reader.listingOrder, none⟩

/-- `_scan_keys` of what the batches hold: `sorted(set(found))`. -/
def scanKeys (found : List PyString) : List PyString := found.dedup.insertionSort (· ≤ ·)

/-- What a scan has found, where it could be made, and the content of each key. -/
structure KeySpace where
  found : Option (List PyString)
  contents : PyString → Option (List UInt8)

def RecordReader.read (space : KeySpace) : Except PyError (Listing Record) :=
  match space.found with
  | none => .ok ⟨[], some reader.unreachable⟩
  | some found =>
    if scanKeys found = [] then .ok ⟨[], some reader.nonePublished⟩
    else (reader.readKeys limits client space.contents (scanKeys found)).map reader.listing

end Reader

def poolReader : RecordReader PoolRecord where
  recordOf := poolRecordOf
  listingOrder := poolListingOrder
  nonePublished :=
    "no process has reported its connection pool: either this platform publishes none, or " ++
      "none has reported for longer than the platform keeps"
  unreachable :=
    "the platform could not reach the store that holds per-process pool readings, so no " ++
      "process's pool is known"
  unreadable :=
    "per-process pool readings exist but could not be read, so no process's pool is known"

def readPoolStates (limits : Limits) (client : RedisClient) (space : KeySpace) : Except PyError (Listing PoolRecord) :=
  poolReader.read limits client space

def breakerReader : RecordReader StoredBreaker where
  recordOf := breakerRecordOf
  listingOrder := breakerListingOrder
  nonePublished :=
    "no breaker has a state record: either this platform registers none, or none has " ++
      "reported for longer than the platform keeps"
  unreachable :=
    "the platform could not reach the store that holds breaker state, so no breaker " ++
      "state is known"
  unreadable :=
    "breaker state records exist but could not be read, so no breaker state is known"

def readBreakerStates (limits : Limits) (client : RedisClient) (space : KeySpace) :
    Except PyError (Listing StoredBreaker) :=
  breakerReader.read limits client space

end IncidentPlatform.Core

import IncidentPlatform.Frontend.MetricRecovery

namespace IncidentPlatform.Frontend

/-! # Stations of a phase row -/

inductive StationState where
  | passed
  | current
  | pending
deriving DecidableEq

structure Station (K : Type) where
  key : K
  label : String
  /-- When this station was reached, by its own witness's clock. -/
  stamp : Option JsString
  /-- How long it lasted; a time that is not a number makes no number of it. -/
  durationMs : Option (Option ℚ)
  state : StationState
  note : Option String
  visits : Nat
  /-- When the report of this station arrived, where that was late. -/
  reportedAt : Option JsString
deriving DecidableEq

/-- The time from one timestamp to another, where both are dates. -/
def msBetween (dates : DateParser) (start finish : JsString) : Option ℚ := do
  let started ← dates start
  let finished ← dates finish
  return finished - started

section Rows

variable {K : Type} [DecidableEq K]

def Station.reached (station : Station K) : Bool := station.state ≠ .pending

/-- The index of the last station that is not pending. -/
def lastReached (stations : List (Station K)) : Option Nat :=
  stations.zipIdx.foldl (fun found entry => if entry.1.reached then some entry.2 else found) none

/-- The same row with every station the previous poll had already reached kept
reached, and the last of the reached ones current. -/
def latchStations (previous : Option (List (Station K))) (next : List (Station K)) : List (Station K) :=
  match previous with
  | none => next
  | some previous =>
    let cells := next.map fun station =>
      if station.state ≠ .pending then station
      -- `new Map(...)`: the last of two entries with one key stays
      else match previous.reverse.find? fun old => old.key = station.key with
        | none => station
        | some old => if old.state = .pending then station else { old with label := station.label }
    cells.zipIdx.map fun entry =>
      if entry.1.state = .pending then entry.1
      else { entry.1 with state := if some entry.2 = lastReached cells then .current else .passed }

/-- The same row with only its first `reveal` reached stations shown, the last of
them as the current one. -/
def revealStations (stations : List (Station K)) (reveal : Option Int) : List (Station K) :=
  match reveal with
  | none => stations
  | some reveal =>
    let reached := stations.zipIdx.flatMap fun entry => if entry.1.state = .pending then [] else [entry.2]
    if (reached.length : Int) ≤ reveal then stations
    else
      let shown := reached.take (max 0 reveal).toNat
      stations.zipIdx.map fun entry =>
        if entry.2 ∉ shown then
          { entry.1 with state := .pending, stamp := none, durationMs := none, reportedAt := none }
        else if some entry.2 = shown.getLast? then { entry.1 with state := .current, durationMs := none }
        else { entry.1 with state := .passed }

/-- What the page keeps between two renders of a row. -/
structure HeldRow (K : Type) where
  key : JsString
  row : List (Station K)

/-- `useLatchedRow`: the row shown, which is also what is kept.  The first render
holds its own row. -/
def useLatchedRow (held : Option (HeldRow K)) (key : JsString) (row : List (Station K)) : HeldRow K :=
  let held := held.getD { key, row }
  { key, row := if held.key = key then latchStations (some held.row) row else row }

end Rows

end IncidentPlatform.Frontend

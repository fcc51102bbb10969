import IncidentPlatform.Concurrency.Machine
import Mathlib.Logic.Function.Basic

namespace IncidentPlatform.Frontend

open Concurrency

/-! # The data of a list page

`useAsyncData` in one component.  A loader is known by its identity, a `Query`;
what it is answered with is up to the environment.
-/

/-- What a loader rejects with. -/
inductive LoadError where
  | appError (message : String)
  | error (message : String)
  | other
deriving DecidableEq

def loadErrorMessage (err : LoadError) (fallback : String) : String :=
  match err with
  | .appError message => message
  | .error message => if message = "" then fallback else message
  | .other => fallback

/-- What the effect of the hook depends on. -/
structure LoadProps (Query : Type) where
  enabled : Bool
  loader : Query
  fallback : String
deriving DecidableEq

/-- A call of a loader, with what its closure has of the hook. -/
structure LoadRun (Query : Type) where
  loader : Query
  fallback : String
deriving DecidableEq

structure AsyncData (Query Rows : Type) where
  mounted : Bool
  /-- The arguments of the last render. -/
  props : LoadProps Query
  /-- The arguments that the effect has last run with. -/
  effectProps : Option (LoadProps Query)
  /-- Whether the effect has returned a cleanup. -/
  cleanup : Bool
  data : Option Rows
  error : Option String
  inFlight : Bool
  loadedFor : Option Query
  /-- `runIdRef`. -/
  runId : Nat
  /-- The loads that have not settled, under their run ids. -/
  pending : Nat → Option (LoadRun Query)

namespace AsyncData

variable {Query Rows : Type} [DecidableEq Query]

def initial (props : LoadProps Query) : AsyncData Query Rows where
  mounted := true
  props
  effectProps := none
  cleanup := false
  data := none
  error := none
  inFlight := false
  loadedFor := none
  runId := 0
  pending := fun _ => none

inductive Action (Query Rows : Type) where
  | render (props : LoadProps Query)
  /-- React runs the effect, if what it depends on has changed. -/
  | flush
  /-- The effect is cleaned up and run again, as `StrictMode` does. -/
  | remount
  | unmount
  /-- A call of the `reload` that some render returned. -/
  | reload (loader : Query) (fallback : String)
  | resolve (run : Nat) (result : Rows)
  | reject (run : Nat) (err : LoadError)
  | setData (update : Option Rows → Option Rows)

variable (page : AsyncData Query Rows)

def loading : Bool := page.inFlight || (page.props.enabled && page.loadedFor ≠ some page.props.loader)

/-- The effect has run with the arguments of the last render. -/
def flushed : Bool := page.effectProps = some page.props

def reload (loader : Query) (fallback : String) : AsyncData Query Rows :=
  { page with
    runId := page.runId + 1
    inFlight := true
    pending := Function.update page.pending (page.runId + 1) (some { loader, fallback }) }

def cleanUp : AsyncData Query Rows :=
  if page.cleanup then { page with runId := page.runId + 1, cleanup := false } else page

def runEffect : AsyncData Query Rows :=
  let entered := { page with effectProps := some page.props }
  if page.props.enabled then { entered.reload page.props.loader page.props.fallback with cleanup := true } else entered

def settle (run : Nat) : AsyncData Query Rows := { page with pending := Function.update page.pending run none }

def render (props : LoadProps Query) : Option (AsyncData Query Rows) :=
  -- React runs a pending effect before it renders again.
  if page.mounted ∧ page.flushed then some { page with props } else none

def flush : Option (AsyncData Query Rows) :=
  if page.mounted ∧ ¬ page.flushed then some page.cleanUp.runEffect else none

def remount : Option (AsyncData Query Rows) :=
  if page.mounted ∧ page.flushed then some page.cleanUp.runEffect else none

def unmount : Option (AsyncData Query Rows) :=
  if page.mounted ∧ page.flushed then some { page.cleanUp with mounted := false } else none

def resolve (run : Nat) (result : Rows) : Option (AsyncData Query Rows) :=
  match page.pending run with
  | none => none
  | some call =>
      if page.runId ≠ run then some (page.settle run)
      else some { page.settle run with
        data := some result
        error := none
        inFlight := false
        loadedFor := some call.loader }

def reject (run : Nat) (err : LoadError) : Option (AsyncData Query Rows) :=
  match page.pending run with
  | none => none
  | some call =>
      if page.runId ≠ run then some (page.settle run)
      else some { page.settle run with
        error := some (loadErrorMessage err call.fallback)
        inFlight := false
        loadedFor := some call.loader }

def step : Action Query Rows → AsyncData Query Rows → Option (AsyncData Query Rows)
  | .render props, page => page.render props
  | .flush, page => page.flush
  | .remount, page => page.remount
  | .unmount, page => page.unmount
  | .reload loader fallback, page => some (page.reload loader fallback)
  | .resolve run result, page => page.resolve run result
  | .reject run err, page => page.reject run err
  | .setData update, page => some { page with data := update page.data }

def machine (props : LoadProps Query) : Machine (AsyncData Query Rows) (Action Query Rows) where
  initial := initial props
  step := step

end AsyncData

end IncidentPlatform.Frontend

import IncidentPlatform.Models.Job

namespace IncidentPlatform.Services

open Models

/-! # The dispatch-latency objective

What one evaluation counts, over the committed rows of `jobs`.
-/

structure SLODefinition where
  id : String
  windowHours : Nat
  /-- `latency_threshold_seconds`. -/
  latencyThreshold : Option Time

def jobDispatchLatency : SLODefinition where
  id := "job_dispatch_latency"
  windowHours := 24
  latencyThreshold := some (seconds 30)

/-- `_DISPATCHED_STATUSES`. -/
def dispatchedStatuses : List JobStatus := [.running, .completed, .failed, .deadLetter]

/-- `_LAB_FIXTURE_PAYLOAD_MARKERS`. -/
def labFixturePayloadMarkers : List String := ["eval_fixture", "seeded_fixture"]

/-- `payload @> {"marker": true}`. -/
def containsMarker (marker : String) : Json → Bool
  | .object fields =>
      match fields.lookup marker with
      | some (.bool value) => value
      | _ => false
  | _ => false

/-- `_not_a_lab_fixture`; a NULL payload contains nothing. -/
def notALabFixture (job : Job) : Bool :=
  !labFixturePayloadMarkers.any fun marker => job.payload.any (containsMarker marker)

def dispatchedInWindow (since : Time) (job : Job) : Bool :=
  decide (since ≤ job.createdAt) && dispatchedStatuses.contains job.status && notALabFixture job

/-- The counts of an `SLOState`. -/
structure SLOState where
  total : Nat
  failed : Nat
deriving DecidableEq

/-- The `case` of `_compute_latency_slo`. -/
def missesLatency (threshold : Time) (job : Job) : Bool :=
  match job.startedAt with
  | none => true
  | some startedAt => threshold < startedAt - job.createdAt

def SLODefinition.since (slo : SLODefinition) (now : Time) : Time := now - seconds (slo.windowHours * 3600)

/-- `_compute_latency_slo`; it asserts a threshold. -/
def computeLatencySlo (slo : SLODefinition) (now : Time) (jobs : List Job) : Option SLOState :=
  slo.latencyThreshold.map fun threshold =>
    let rows := jobs.filter (dispatchedInWindow (slo.since now))
    { total := rows.length
      failed := (rows.map fun job => if missesLatency threshold job then 1 else 0).sum }

/-- The loop of `_compute_latency_slo_python` over the rows. -/
def countLatencies (threshold : Time) (state : SLOState) : List Job → SLOState
  | [] => state
  | job :: rest =>
      match job.startedAt with
      | none => countLatencies threshold { total := state.total + 1, failed := state.failed + 1 } rest
      | some startedAt =>
          countLatencies threshold
            { total := state.total + 1
              failed := if threshold < startedAt - job.createdAt then state.failed + 1 else state.failed } rest

def computeLatencySloPython (slo : SLODefinition) (now : Time) (jobs : List Job) : Option SLOState :=
  slo.latencyThreshold.map fun threshold =>
    countLatencies threshold ⟨0, 0⟩ (jobs.filter (dispatchedInWindow (slo.since now)))

theorem countLatencies_eq (threshold : Time) (state : SLOState) (jobs : List Job) :
    countLatencies threshold state jobs =
      { total := state.total + jobs.length
        failed := state.failed + (jobs.map fun job => if missesLatency threshold job then 1 else 0).sum } := by
  induction jobs generalizing state with
  | nil => rfl
  | cons job rest ih =>
      cases started : job.startedAt with
      | none =>
          simp only [countLatencies, started, ih, missesLatency, List.length_cons, List.map_cons,
            List.sum_cons, if_true, SLOState.mk.injEq]
          omega
      | some startedAt =>
          simp only [countLatencies, started, ih, missesLatency, List.length_cons, List.map_cons,
            List.sum_cons, decide_eq_true_eq, SLOState.mk.injEq]
          split <;> omega

theorem computeLatencySloPython_eq (slo : SLODefinition) (now : Time) (jobs : List Job) :
    computeLatencySloPython slo now jobs = computeLatencySlo slo now jobs := by
  simp [computeLatencySloPython, computeLatencySlo, countLatencies_eq]

/-- An evaluation at `now` counts the job as failed. -/
def countsAsFailed (slo : SLODefinition) (now : Time) (job : Job) : Bool :=
  dispatchedInWindow (slo.since now) job && slo.latencyThreshold.any fun threshold => missesLatency threshold job

/-- The failures of an evaluation are the jobs it counts as failed. -/
theorem computeLatencySlo_failed {slo : SLODefinition} {now : Time} {jobs : List Job} {state : SLOState}
    (computed : computeLatencySlo slo now jobs = some state) :
    state.failed = jobs.countP (countsAsFailed slo now) := by
  obtain ⟨threshold, isLatency, rfl⟩ := Option.map_eq_some_iff.mp computed
  have summed (rows : List Job) : (rows.map fun job => if missesLatency threshold job then 1 else 0).sum =
      rows.countP (missesLatency threshold) := by
    induction rows with
    | nil => rfl
    | cons job rest ih =>
        rw [List.map_cons, List.sum_cons, ih, List.countP_cons]
        omega
  simp only [summed, List.countP_filter]
  congr 1
  funext job
  simp [countsAsFailed, isLatency, Bool.and_comm]

end IncidentPlatform.Services

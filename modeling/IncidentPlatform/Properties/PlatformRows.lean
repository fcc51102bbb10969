import IncidentPlatform.Frontend.PlatformRow

namespace IncidentPlatform.Properties

open Frontend

/-! # Rows that the platform row does not read

Every reading of the row starts from the faults, the alerts or the run's own
calls among the rows of the take.
-/

/-- A row of another take, of another principal, of the lab, or of a hook that
did not run as a fault. -/
inductive Ignorable (take : Take) (principal : String) (row : AuditLog) : Prop where
  | outside (beyond : take.within row.createdAt = false)
  | otherPrincipal (call : row.action = agentToolAction) (other : row.principalId ≠ some principal)
  | lab (named : "lab.".toList <+: row.action.toList)
  | refusal (chaos : labActionPrefix.toList <+: row.action.toList) (denied : row.action ≠ chaosInvokeAction)
  | failed (invoked : row.action = chaosInvokeAction) (outcome : String)
      (said : row.extra "outcome" = some (.string outcome)) (failure : outcome ≠ "success")
  | labelled (chaos : labActionPrefix.toList <+: row.action.toList) (reason : (row.extra labProbeReasonField).isSome = true)

/-- Any number of ignorable rows added to the list or removed from it, anywhere. -/
inductive Edits (take : Take) (principal : String) (audit : List AuditLog) : List AuditLog → Prop where
  | none : Edits take principal audit audit
  | add {before after : List AuditLog} {row : AuditLog} (earlier : Edits take principal audit (before ++ after))
      (ignorable : Ignorable take principal row) : Edits take principal audit (before ++ row :: after)
  | remove {before after : List AuditLog} {row : AuditLog} (earlier : Edits take principal audit (before ++ row :: after))
      (ignorable : Ignorable take principal row) : Edits take principal audit (before ++ after)

section Rows

variable {take : Take} {principal : String} {row : AuditLog} {before after : List AuditLog}

theorem action_of_fault (fault : isFaultRow row = true) : row.action = chaosInvokeAction ∧
    (row.extra labProbeReasonField).isSome = false ∧
    ∀ outcome, row.extra "outcome" = some (.string outcome) → outcome = "success" := by
  unfold isFaultRow at fault
  split at fault
  case isTrue => cases fault
  case isFalse invoked =>
    split at fault
    case isTrue => cases fault
    case isFalse plain =>
      refine ⟨not_not.mp invoked, Bool.not_eq_true _ ▸ plain, fun outcome said => ?_⟩
      rw [said] at fault
      exact of_decide_eq_true fault

theorem Ignorable.fault (ignorable : Ignorable take principal row) (within : take.within row.createdAt = true) :
    isFaultRow row = false := by
  rw [← Bool.not_eq_true]
  intro fault
  obtain ⟨invoked, plain, succeeded⟩ := action_of_fault fault
  cases ignorable with
  | outside beyond => exact absurd within (beyond ▸ Bool.false_ne_true)
  | otherPrincipal call other => exact absurd (invoked.symm.trans call) (by decide)
  | lab named => exact absurd (invoked ▸ named) (by decide)
  | refusal chaos denied => exact denied invoked
  | failed invoked outcome said failure => exact failure (succeeded outcome said)
  | labelled chaos reason => exact absurd reason (plain ▸ Bool.false_ne_true)

theorem Ignorable.action (ignorable : Ignorable take principal row) (within : take.within row.createdAt = true)
    (lab : ¬ "lab.".toList <+: row.action.toList) (chaos : ¬ labActionPrefix.toList <+: row.action.toList) :
    row.action = agentToolAction ∧ row.principalId ≠ some principal := by
  cases ignorable with
  | outside beyond => exact absurd within (beyond ▸ Bool.false_ne_true)
  | otherPrincipal call other => exact ⟨call, other⟩
  | lab named => exact absurd named lab
  | refusal named denied => exact absurd named chaos
  | failed invoked outcome said failure => exact absurd (invoked ▸ by decide) chaos
  | labelled named reason => exact absurd named chaos

theorem Ignorable.alert (ignorable : Ignorable take principal row) (within : take.within row.createdAt = true) :
    isAlertRow row = false := by
  rw [← Bool.not_eq_true]
  intro alert
  have raised : row.action = alertRaisedAction := of_decide_eq_true alert
  have call := (ignorable.action within (raised ▸ by decide) (raised ▸ by decide)).1
  exact absurd (raised.symm.trans call) (by decide)

theorem Ignorable.call (ignorable : Ignorable take principal row) (within : take.within row.createdAt = true) :
    isRunToolRow row (some principal) = false := by
  rw [← Bool.not_eq_true]
  intro run
  unfold isRunToolRow at run
  split at run
  case isTrue call =>
    have called : row.action = agentToolAction := of_decide_eq_true call
    have own : row.principalId = some principal := of_decide_eq_true run
    exact (ignorable.action within (called ▸ by decide) (called ▸ by decide)).2 own
  case isFalse => cases run

theorem filter_rowsInTake_insert {passes : AuditLog → Bool}
    (fails : take.within row.createdAt = true → passes row = false) :
    (rowsInTake (before ++ row :: after) take).filter passes = (rowsInTake (before ++ after) take).filter passes := by
  have dropped : ([row].filter fun row => take.within row.createdAt).filter passes = [] := by
    cases within : take.within row.createdAt with
    | true => simp [within, fails within]
    | false => simp [within]
  rw [show before ++ row :: after = before ++ ([row] ++ after) by rfl]
  simp only [rowsInTake, List.filter_append, dropped, List.nil_append]

theorem platformRow_insert (browser : Browser) (input : PlatformRowInput) (ignorable : Ignorable take principal row)
    (explicit : input.take = some take) (run : input.runPrincipalId = some principal) :
    platformRow browser { input with audit := before ++ row :: after } =
      platformRow browser { input with audit := before ++ after } := by
  have faults := @filter_rowsInTake_insert take row before after isFaultRow ignorable.fault
  have alerts := @filter_rowsInTake_insert take row before after isAlertRow ignorable.alert
  have calls (faultAt : JsString) := @filter_rowsInTake_insert take row before after
    (fun row => isRunToolRow row (some principal) && faultAt ≤ row.createdAt)
    fun within => by rw [ignorable.call within, Bool.false_and]
  obtain ⟨⟨audit, _, _, latched, known, inside, breached⟩, recoveredAt, steps, history⟩ := input
  cases explicit
  cases run
  have phase : platformPhase ⟨before ++ row :: after, some take, some principal, latched, known, inside, breached⟩ =
      platformPhase ⟨before ++ after, some take, some principal, latched, known, inside, breached⟩ := by
    simp only [platformPhase, Option.getD_some, faults, calls]
  simp only [platformRow, phase, alertInTake, Option.getD_some, alerts, calls]

/-- The platform row ignores everyone else's rows. -/
theorem platform_row_ignores (browser : Browser) (input : PlatformRowInput) (take : Take) (principal : String)
    (edited : List AuditLog) (explicit : input.take = some take) (run : input.runPrincipalId = some principal)
    (edits : Edits take principal input.audit edited) :
    platformRow browser { input with audit := edited } = platformRow browser input := by
  induction edits with
  | none => rfl
  | add earlier ignorable ih => exact (platformRow_insert browser input ignorable explicit run).trans ih
  | remove earlier ignorable ih => exact (platformRow_insert browser input ignorable explicit run).symm.trans ih

def utcBrowser : Browser where
  getTime := fun stamp => if stamp = jsString "2026-09-20T03:18:05.952Z" then some 1789874285952 else none
  clockHms := fun _ => "03:18:05"
  toFixed := fun _ => "0.0"

def rowOf (action : String) : AuditLog where
  id := action
  principalId := some "evaluator"
  action
  extraData := none
  createdAt := jsString "2026-09-20T03:18:05.952Z"

def faultInput : PlatformRowInput where
  audit := [rowOf chaosInvokeAction]
  take := some { startAt := none, endAt := none }
  runPrincipalId := some "agent"
  faultAt := none
  metricKnown := false
  metricInsideThreshold := false
  metricBreachedSinceFault := false
  recoveredAt := none
  runSteps := none
  runPhaseHistory := none

theorem platform_row_ignores_of_probe :
    platformRow utcBrowser { faultInput with audit := [rowOf agentToolAction, rowOf chaosInvokeAction] } =
      platformRow utcBrowser faultInput :=
  platform_row_ignores utcBrowser faultInput { startAt := none, endAt := none } "agent" _ rfl rfl
    (@Edits.add _ _ _ [] _ (rowOf agentToolAction) .none (.otherPrincipal rfl (by decide)))

end Rows

end IncidentPlatform.Properties

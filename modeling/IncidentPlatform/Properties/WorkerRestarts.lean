import IncidentPlatform.Workers.Supervisor

namespace IncidentPlatform.Properties

open Concurrency Numbers Workers Workers.WorkerSupervisor

/-! # When the supervisor of the worker gives up

The ladder doubles before it is capped.  From some rung on the doubled number is
no float, and the error leaves the loop.
-/

/-- The last attempt that `_backoff_for` has a delay for. -/
def lastAttempt : Nat := 1025

theorem backoffFor_eq (attempt : Nat) : backoffFor attempt =
    if attempt ≤ 1 then some 0
    else if attempt ≤ lastAttempt then some (min (2 ^ (attempt - 2)) 30) else none := by
  unfold backoffFor
  rw [doubleOfInt_two_pow]
  by_cases first : attempt ≤ 1
  · rw [if_pos first, if_pos first]
  · rw [if_neg first, if_neg first]
    by_cases small : attempt ≤ lastAttempt
    · rw [if_pos small, if_pos (by unfold lastAttempt at small; omega)]
      simp [restartBackoffBaseSeconds, restartBackoffMaxSeconds]
    · rw [if_neg small, if_neg (by unfold lastAttempt at small; omega)]
      rfl

/-- `_backoff_for` returns a delay from 0 to 30 seconds, no shorter than those
before it. -/
def BacksOff (attempt : Nat) : Prop :=
  ∃ delay, backoffFor attempt = some delay ∧ 0 ≤ delay ∧ delay ≤ 30 ∧
    ∀ earlier ≤ attempt, ∃ before, backoffFor earlier = some before ∧ before ≤ delay

theorem backoffFor_bounds {attempt : Nat} (small : attempt ≤ lastAttempt) :
    ∃ delay, backoffFor attempt = some delay ∧ 0 ≤ delay ∧ delay ≤ 30 := by
  rw [backoffFor_eq]
  by_cases first : attempt ≤ 1
  · rw [if_pos first]
    exact ⟨0, rfl, le_refl 0, by norm_num⟩
  · rw [if_neg first, if_pos small]
    exact ⟨_, rfl, le_min (by positivity) (by norm_num), min_le_right _ _⟩

theorem backoffFor_mono {earlier attempt : Nat} (order : earlier ≤ attempt) {before delay : ℚ}
    (short : backoffFor earlier = some before) (long : backoffFor attempt = some delay) : before ≤ delay := by
  rw [backoffFor_eq] at short long
  split at short
  · cases short
    split at long
    · cases long
      exact le_refl 0
    · simp only [Option.ite_none_right_eq_some, Option.some.injEq] at long
      rw [← long.2]
      exact le_min (by positivity) (by norm_num)
  · rw [if_neg (by omega)] at long
    simp only [Option.ite_none_right_eq_some, Option.some.injEq] at short long
    rw [← short.2, ← long.2]
    exact min_le_min_right _ (pow_le_pow_right₀ (by norm_num) (by omega))

theorem backsOff_iff (attempt : Nat) : BacksOff attempt ↔ attempt ≤ lastAttempt := by
  constructor
  · rintro ⟨delay, returned, _⟩
    rw [backoffFor_eq] at returned
    split at returned
    · unfold lastAttempt
      omega
    · simp only [Option.ite_none_right_eq_some] at returned
      exact returned.1
  · intro small
    obtain ⟨delay, returned, least, most⟩ := backoffFor_bounds small
    refine ⟨delay, returned, least, most, fun earlier order => ?_⟩
    obtain ⟨before, short, _⟩ := backoffFor_bounds (le_trans order small)
    exact ⟨before, short, backoffFor_mono order short returned⟩

variable {steps : List (WorkerSupervisor × Action)} {supervisor last : WorkerSupervisor} {ranFor : ℚ}

/-- The short runs of the worker in a row, up to the newest exit. -/
def shortRuns : List (WorkerSupervisor × Action) → Nat
  | [] => 0
  | (_, .exits ranFor) :: older => if stableRunSeconds ≤ ranFor then 0 else shortRuns older + 1
  | (_, .wakes) :: older | (_, .cancels) :: older => shortRuns older

def exits (steps : List (WorkerSupervisor × Action)) : Nat :=
  steps.countP fun taken => match taken.2 with
    | .exits _ => true
    | .wakes | .cancels => false

/-- Each exit of the worker is answered: its successor runs, or is due in 30
seconds at most, or the supervisor was cancelled. -/
def DeathsAnswered (steps : List (WorkerSupervisor × Action)) (last : WorkerSupervisor) : Prop :=
  (last.phase = .waiting ∧ last.spawned = exits steps + 1) ∨
    (∃ delay, last.phase = .backingOff delay ∧ 0 < delay ∧ delay ≤ 30 ∧ last.spawned = exits steps) ∨
    last.phase = .cancelled

@[simp] theorem spawn_attempt : supervisor.spawn.attempt = supervisor.attempt := rfl

theorem restart_attempt : (supervisor.restart ranFor).attempt = supervisor.nextAttempt ranFor := by
  unfold restart
  dsimp only
  split
  · rfl
  · split <;> rfl

theorem attempt_eq (ran : supervise.Run steps last) : last.attempt = shortRuns steps := by
  induction ran with
  | start => rfl
  | @step steps before after action ran stepped ih =>
      change step action before = some after at stepped
      unfold step at stepped
      split at stepped
      · cases stepped
        rw [restart_attempt, nextAttempt, shortRuns, ih]
      · cases stepped
        exact ih
      · cases stepped
        exact ih
      · cases stepped
        exact ih
      · contradiction

theorem restart_cases (small : supervisor.nextAttempt ranFor ≤ lastAttempt) :
    ((supervisor.restart ranFor).phase = .waiting ∧ (supervisor.restart ranFor).spawned = supervisor.spawned + 1) ∨
      ∃ delay, (supervisor.restart ranFor).phase = .backingOff delay ∧ 0 < delay ∧ delay ≤ 30 ∧
        (supervisor.restart ranFor).spawned = supervisor.spawned := by
  obtain ⟨delay, returned, least, most⟩ := backoffFor_bounds small
  unfold restart
  dsimp only
  rw [returned]
  dsimp only
  by_cases none_ : delay = 0
  · rw [if_pos none_]
    exact .inl ⟨rfl, rfl⟩
  · rw [if_neg none_]
    exact .inr ⟨delay, rfl, lt_of_le_of_ne least (Ne.symm none_), most, rfl⟩

theorem restart_died (large : lastAttempt < supervisor.nextAttempt ranFor) :
    (supervisor.restart ranFor).phase = .died := by
  have raises : backoffFor (supervisor.nextAttempt ranFor) = none := by
    rw [backoffFor_eq, if_neg (by unfold lastAttempt at large; omega), if_neg (by omega)]
  unfold restart
  dsimp only
  rw [raises]

theorem answered_of_short (ran : supervise.Run steps last)
    (short : ∀ older, older <:+ steps → shortRuns older ≤ lastAttempt) : DeathsAnswered steps last := by
  induction ran with
  | start => exact .inl ⟨rfl, rfl⟩
  | @step steps before after action ran stepped ih =>
      have earlier := ih fun older suffix => short older (suffix.trans (List.suffix_cons _ _))
      have now := short _ (List.suffix_refl _)
      change step action before = some after at stepped
      unfold step at stepped
      split at stepped
      · rename_i ranFor waiting
        cases stepped
        have counted : before.spawned = exits steps + 1 := by
          rcases earlier with ⟨_, counted⟩ | ⟨_, backing, _⟩ | cancelled
          · exact counted
          · rw [waiting] at backing
            cases backing
          · rw [waiting] at cancelled
            cases cancelled
        have small : before.nextAttempt ranFor ≤ lastAttempt := by
          rw [nextAttempt, attempt_eq ran]
          exact now
        rcases restart_cases small with ⟨phase, spawned⟩ | ⟨delay, phase, positive, most, spawned⟩
        · refine .inl ⟨phase, ?_⟩
          simp only [spawned, counted, exits, List.countP_cons, if_true]
        · refine .inr (.inl ⟨delay, phase, positive, most, ?_⟩)
          simp only [spawned, counted, exits, List.countP_cons, if_true]
      · rename_i delay backing
        cases stepped
        rcases earlier with ⟨waiting, _⟩ | ⟨_, _, _, _, counted⟩ | cancelled
        · rw [backing] at waiting
          cases waiting
        · refine .inl ⟨rfl, ?_⟩
          simp only [spawn, counted, exits, List.countP_cons, Bool.false_eq_true, if_false, Nat.add_zero]
        · rw [backing] at cancelled
          cases cancelled
      · cases stepped
        exact .inr (.inr rfl)
      · cases stepped
        exact .inr (.inr rfl)
      · contradiction

theorem DeathsAnswered.alive (answered : DeathsAnswered steps last) : last.phase ≠ .died := by
  rcases answered with ⟨phase, _⟩ | ⟨_, phase, _⟩ | phase <;> rw [phase] <;> nofun

theorem alive_iff_short (ran : supervise.Run steps last) :
    (∀ state ∈ Machine.visited steps last, state.phase ≠ .died) ↔
      ∀ older, older <:+ steps → shortRuns older ≤ lastAttempt := by
  constructor
  · intro alive
    induction ran with
    | start =>
        intro older suffix
        rw [List.suffix_nil.mp suffix]
        exact Nat.zero_le _
    | @step steps before after action ran stepped ih =>
        have earlier := ih fun state member => alive state (List.mem_cons_of_mem _ member)
        have living := alive after List.mem_cons_self
        intro older suffix
        rcases List.suffix_cons_iff.mp suffix with rfl | proper
        · have whole := earlier steps (List.suffix_refl _)
          change step action before = some after at stepped
          unfold step at stepped
          split at stepped
          · rename_i ranFor waiting
            cases stepped
            by_contra large
            refine living (restart_died ?_)
            rw [nextAttempt, attempt_eq ran]
            exact Nat.not_le.mp large
          · exact whole
          · exact whole
          · exact whole
          · contradiction
        · exact earlier older proper
  · intro short
    induction ran with
    | start =>
        intro state member
        rw [List.mem_singleton.mp member]
        nofun
    | @step steps before after action ran stepped ih =>
        intro state member
        rcases List.mem_cons.mp member with rfl | older
        · exact (answered_of_short (ran.step stepped) short).alive
        · exact ih (fun suffix proper => short suffix (proper.trans (List.suffix_cons _ _))) state older

/-- `_backoff_for` has a delay for the first 1025 short runs in a row, and up to
there the supervisor answers every exit of the worker. -/
theorem supervisor_gives_up_iff (attempt : Nat) (steps : List (WorkerSupervisor × Action))
    (last : WorkerSupervisor) :
    (BacksOff attempt ↔ attempt ≤ lastAttempt) ∧
    (supervise.Run steps last →
      ((∀ state ∈ Machine.visited steps last, state.phase ≠ .died) ↔
          ∀ older, older <:+ steps → shortRuns older ≤ lastAttempt) ∧
        ((∀ older, older <:+ steps → shortRuns older ≤ lastAttempt) → DeathsAnswered steps last)) :=
  ⟨backsOff_iff attempt, fun ran => ⟨alive_iff_short ran, answered_of_short ran⟩⟩

theorem exists_short_runs (count : Nat) (small : count ≤ lastAttempt) :
    ∃ steps last, supervise.Run steps last ∧ last.phase = .waiting ∧ last.attempt = count := by
  induction count with
  | zero => exact ⟨[], _, .start, rfl, rfl⟩
  | succ count ih =>
      obtain ⟨steps, before, ran, waiting, climbed⟩ := ih (by omega)
      have next : before.nextAttempt 0 = count + 1 := by
        rw [nextAttempt, if_neg (by norm_num [stableRunSeconds]), climbed]
      have stepped : supervise.step (.exits 0) before = some (before.restart 0) := by
        change step (.exits 0) before = _
        unfold step
        rw [waiting]
      rcases @restart_cases before 0 (by omega) with
        ⟨phase, _⟩ | ⟨delay, phase, _⟩
      · exact ⟨_, _, ran.step stepped, phase, by rw [restart_attempt, next]⟩
      · have woken : supervise.step .wakes (before.restart 0) = some (before.restart 0).spawn := by
          change step .wakes _ = _
          unfold step
          rw [phase]
        exact ⟨_, _, (ran.step stepped).step woken, rfl, by rw [spawn_attempt, restart_attempt, next]⟩

/-- The 1026th short run in a row kills the supervisor. -/
theorem supervisor_gives_up : ¬ BacksOff 1026 ∧ ∃ steps last, supervise.Run steps last ∧ last.phase = .died := by
  refine ⟨fun backs => absurd ((backsOff_iff _).mp backs) (by decide), ?_⟩
  obtain ⟨steps, before, ran, waiting, climbed⟩ := exists_short_runs lastAttempt (le_refl _)
  have stepped : supervise.step (.exits 0) before = some (before.restart 0) := by
    change step (.exits 0) before = _
    unfold step
    rw [waiting]
  refine ⟨_, _, ran.step stepped, restart_died ?_⟩
  rw [nextAttempt, if_neg (by norm_num [stableRunSeconds]), climbed]
  exact Nat.lt_succ_self _

/-- Two crashes, the second with a delay before the respawn, a stable run, and
two crashes again. -/
def crashingWorker : List Action := [.exits 3, .exits 5, .wakes, .exits 90, .exits 2, .exits 1]

theorem supervisor_gives_up_iff_of_crash : BacksOff 12 ∧ ∃ steps last, supervise.Run steps last ∧
    last.phase = .backingOff 1 ∧ last.spawned = 5 ∧ DeathsAnswered steps last ∧
      ∀ state ∈ Machine.visited steps last, state.phase ≠ .died := by
  obtain ⟨steps, last, ran, checked⟩ := @Machine.exists_run _ _ supervise crashingWorker
    (fun steps last => decide (last.phase = .backingOff 1 ∧ last.spawned = 5 ∧
      ∀ older ∈ steps.tails, shortRuns older ≤ lastAttempt)) (by decide +kernel)
  obtain ⟨delayed, respawned, few⟩ := of_decide_eq_true checked
  have both := supervisor_gives_up_iff 12 steps last
  have short : ∀ older, older <:+ steps → shortRuns older ≤ lastAttempt := fun older suffix =>
    few older ((List.mem_tails _ _).mpr suffix)
  exact ⟨both.1.mpr (by decide), steps, last, ran, delayed, respawned, (both.2 ran).2 short, (both.2 ran).1.mpr short⟩

end IncidentPlatform.Properties

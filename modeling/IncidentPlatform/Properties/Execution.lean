import IncidentPlatform.Platform.Capabilities
import IncidentPlatform.Platform.Rows

namespace IncidentPlatform.Properties

open Concurrency Models Platform Repositories Services Utils Workers Storage

/-! # Executions of a job

Where one process stands between winning `claim_for_running` for a job and
committing the outcome of that run.
-/

inductive Execution where
  | idle
  | claimed
  | running
  | settled
  | finished
deriving DecidableEq

namespace Execution

def advance (job : Uuid) : Execution → (operation : Op) → Reply operation → Execution
  | .idle, .statement (.claimForRunning id), won => if id = job ∧ won = true then .claimed else .idle
  | .claimed, .commit, _ => .running
  | .claimed, .rollback, _ => .idle
  | .running, .statement (.updateStatus id _ _), changed =>
      if id = job ∧ changed = true then .settled else .running
  | .settled, .commit, _ => .finished
  | .settled, .rollback, _ => .running
  | state, _, _ => state

def live : Execution → Bool
  | .claimed | .running | .settled => true
  | _ => false

end Execution

/-- The execution of `job` that the logged operations of `pid` have reached. -/
def executionOf (job : Uuid) (pid : Pid) : List PlatformEntry → Execution
  | [] => .idle
  | entry :: older =>
      if entry.pid = pid then
        (executionOf job pid older).advance job entry.operation entry.reply
      else executionOf job pid older

def Live (job : Uuid) (pid : Pid) (pool : PlatformPool) : Prop :=
  (executionOf job pid pool.log).live = true

/-! ## Attempts

The same in detail: the row a delivery has read, and how its processor ended.
-/

inductive Attempt where
  | idle (read : Option Job)
  | claimed (read : Option Job)
  | running (read : Option Job)
  | failed (read : Option Job)
  | succeeded (read : Option Job)
  | settled (read : Option Job)
  | finished

namespace Attempt

def started (read : Option Job) : Outcome → Attempt
  | .returned _ => .succeeded read
  | .timedOut | .raised _ => .failed read

def advance (job : Uuid) : Attempt → (operation : Op) → Reply operation → Attempt
  | .idle read, .query (.job id), found => .idle (if id = job then found else read)
  | .idle read, .statement (.claimForRunning id), won =>
      if id = job ∧ won = true then .claimed read else .idle read
  | .claimed read, .commit, _ => .running read
  | .claimed read, .rollback, _ => .idle read
  | .running read, .reading (.execute _ _), outcome => started read outcome
  | .running read, .statement (.updateStatus id _ _), changed =>
      if id = job ∧ changed = true then .settled read else .running read
  | .failed read, .statement (.updateStatus id _ _), changed =>
      if id = job ∧ changed = true then .settled read else .failed read
  | .succeeded read, .statement (.updateStatus id _ _), changed =>
      if id = job ∧ changed = true then .settled read else .succeeded read
  | .settled _, .commit, _ => .finished
  | .settled read, .rollback, _ => .running read
  | state, _, _ => state

def execution : Attempt → Execution
  | .idle _ => .idle
  | .claimed _ => .claimed
  | .running _ | .failed _ | .succeeded _ => .running
  | .settled _ => .settled
  | .finished => .finished

def read : Attempt → Option Job
  | .idle read | .claimed read | .running read | .failed read | .succeeded read | .settled read => read
  | .finished => none

/-- The outcome that a delivery may write in this state. -/
def Settles (write : StatusWrite) : Attempt → Prop
  | .running _ => write.status = .deadLetter
  | .failed read => write.status = .deadLetter ∨ write.status = .pending ∧ ∃ row, read = some row ∧
      write.retryCount = some (row.retryCount + 1) ∧ row.retryCount + 1 < row.maxAttempts
  | .succeeded _ => write.status = .completed
  | _ => False

theorem execution_advance (job : Uuid) (attempt : Attempt) (operation : Op)
    (reply : Reply operation) :
    (attempt.advance job operation reply).execution =
      attempt.execution.advance job operation reply := by
  cases operation with
  | statement statement =>
      cases statement with
      | claimForRunning id =>
          cases attempt with
          | idle read => exact apply_ite execution (id = job ∧ reply = true) _ _
          | _ => rfl
      | updateStatus id write guard =>
          cases attempt with
          | running read => exact apply_ite execution (id = job ∧ reply = true) _ _
          | failed read => exact apply_ite execution (id = job ∧ reply = true) _ _
          | succeeded read => exact apply_ite execution (id = job ∧ reply = true) _ _
          | _ => rfl
      | _ => cases attempt <;> rfl
  | reading reading =>
      cases reading with
      | execute type payload =>
          cases attempt with
          | running read => cases reply <;> rfl
          | _ => rfl
      | _ => cases attempt <;> rfl
  | query query =>
      cases query with
      | job id =>
          cases attempt with
          | idle read => rfl
          | _ => rfl
      | _ => cases attempt <;> rfl
  | commit => cases attempt <;> rfl
  | rollback => cases attempt <;> rfl
  | command command => cases attempt <;> rfl
  | publishRaw row => cases attempt <;> rfl

end Attempt

/-- The attempt at `job` that the logged operations of `pid` have reached. -/
def attemptOf (job : Uuid) (pid : Pid) : List PlatformEntry → Attempt
  | [] => .idle none
  | entry :: older =>
      if entry.pid = pid then (attemptOf job pid older).advance job entry.operation entry.reply
      else attemptOf job pid older

theorem attemptOf_unlogged {job : Uuid} {pid : Pid} {log : List PlatformEntry}
    (unlogged : ∀ entry ∈ log, entry.pid ≠ pid) : attemptOf job pid log = .idle none := by
  induction log with
  | nil => rfl
  | cons entry older ih =>
      rw [attemptOf, if_neg (unlogged entry (by simp))]
      exact ih fun entry member => unlogged entry (by simp [member])

theorem attemptOf_execution (job : Uuid) (pid : Pid) (log : List PlatformEntry) :
    (attemptOf job pid log).execution = executionOf job pid log := by
  induction log with
  | nil => rfl
  | cons entry older ih =>
      rw [attemptOf, executionOf]
      split
      · rw [Attempt.execution_advance, ih]
      · exact ih

/-- A delivery claims a row it has read, runs the processor after the claim is
committed, and writes the outcome the processor left it with.  No other role
claims. -/
@[reducible] def attemptProtocol (job : Uuid) : Protocol Role Op Reply where
  State := Role × Attempt
  start := fun role => (role, .idle none)
  allowed := fun state operation =>
    match operation with
    | .statement (.claimForRunning id) => id = job → ∃ row, state.2 = .idle (some row)
    | .statement (.updateStatus id write _) => id = job →
        (state.1.delivers job → state.2.Settles write) ∧
        (¬ state.1.delivers job → ∃ read, state.2 = .idle read)
    | .reading (.execute _ _) =>
        (state.1.delivers job → ∃ row, state.2 = .running (some row)) ∧
        (¬ state.1.delivers job → ∃ read, state.2 = .idle read)
    | .rollback => ∃ read, state.2 = .idle read
    | _ => True
  advance := fun state operation reply => (state.1, state.2.advance job operation reply)

def Neutral : Op → Prop
  | .statement (.claimForRunning _) | .statement (.updateStatus _ _ _) | .commit | .rollback
  | .reading (.execute _ _) | .query (.job _) => False
  | _ => True

theorem advance_of_neutral {job : Uuid} {attempt : Attempt} {operation : Op}
    (neutral : Neutral operation) (reply : Reply operation) :
    attempt.advance job operation reply = attempt := by
  cases operation with
  | statement statement => cases attempt <;> cases statement <;> first | rfl | exact neutral.elim
  | commit => exact neutral.elim
  | rollback => exact neutral.elim
  | query query => cases attempt <;> cases query <;> first | rfl | exact neutral.elim
  | command command => cases attempt <;> rfl
  | reading reading => cases attempt <;> cases reading <;> first | rfl | exact neutral.elim
  | publishRaw row => cases attempt <;> rfl

theorem allowed_of_neutral {job : Uuid} {state : Role × Attempt} {operation : Op}
    (neutral : Neutral operation) : (attemptProtocol job).allowed state operation := by
  dsimp only
  split
  · exact neutral.elim
  · exact neutral.elim
  · exact neutral.elim
  · exact neutral.elim
  · exact trivial

theorem follows_of_neutral {job : Uuid} {α : Type} {program : Prog α} (state : Role × Attempt)
    (uses : program.Uses Neutral) :
    program.Follows (attemptProtocol job) state fun after _ => after = state := by
  refine uses.follows rfl ?_
  rintro _ operation rfl neutral
  refine ⟨allowed_of_neutral neutral, fun reply => ?_⟩
  exact Prod.ext rfl (advance_of_neutral neutral reply)

theorem neutral_of_probes (operation : Op) (probes : operation.Probes) : Neutral operation := by
  unfold Op.Probes at probes
  split at probes
  · exact trivial
  · exact trivial
  · exact probes.elim

section Delivery

variable {job : Uuid} {role : Role}

theorem loadAndClaim_follows (read : Option Job) :
    (loadAndClaim job).Follows (attemptProtocol job) (role, .idle read) fun after admission =>
      ∀ row, admission = .claimed row → after = (role, .running (some row)) := by
  refine .first trivial fun found => ?_
  have noted : (attemptProtocol job).advance (role, .idle read) (.query (.job job)) found =
      (role, .idle found) := by
    simp [Attempt.advance]
  rw [noted]
  cases found with
  | none =>
      refine .first trivial fun _ => ?_
      rintro row ⟨⟩
  | some row =>
      dsimp only
      split
      · refine .first trivial fun _ => ?_
        rintro row ⟨⟩
      · have probe := (findBlockingPause_uses job).mono neutral_of_probes
        refine .bind (follows_of_neutral (role, .idle (some row)) probe) fun after held same => ?_
        subst same
        cases held with
        | some _ =>
            refine .first trivial fun _ => ?_
            rintro row ⟨⟩
        | none =>
            refine .first (fun _ => ⟨row, rfl⟩) fun won => .first trivial fun _ => ?_
            cases won with
            | false => rintro row ⟨⟩
            | true =>
                rintro row ⟨⟩
                simp [Attempt.advance]

theorem afterStatusWrite_follows (attempt : Attempt) (unread : ∀ read, attempt ≠ .idle read)
    (status : JobStatus) (message : Option String) :
    (afterStatusWrite job status message).Follows (attemptProtocol job) (role, attempt)
      fun after _ => after = (role, attempt) := by
  refine (afterStatusWrite_uses job status message).follows rfl ?_
  rintro _ operation rfl settles
  unfold Op.Settles at settles
  split at settles
  · refine ⟨trivial, fun found => ?_⟩
    cases attempt with
    | idle read => exact absurd rfl (unread read)
    | _ => rfl
  all_goals first
    | exact settles.elim
    | (refine ⟨trivial, fun reply => Prod.ext rfl ?_⟩
       apply advance_of_neutral
       exact trivial)

theorem updateStatus_follows {write : StatusWrite} {attempt : Attempt} (message : Option String)
    (delivers : role.delivers job) (settles : attempt.Settles write) :
    (updateStatus job write message).Follows (attemptProtocol job) (role, attempt)
      fun _ _ => True := by
  refine .first (fun _ => ⟨fun _ => settles, fun other => absurd delivers other⟩) fun changed => ?_
  simp only [Option.isSome_none, Bool.false_and, Bool.false_eq_true, if_false]
  refine (afterStatusWrite_follows _ ?_ write.status message).mono fun _ _ _ => trivial
  intro read
  cases attempt with
  | running row =>
      simp only [Attempt.advance]
      split <;> exact Attempt.noConfusion
  | failed row =>
      simp only [Attempt.advance]
      split <;> exact Attempt.noConfusion
  | succeeded row =>
      simp only [Attempt.advance]
      split <;> exact Attempt.noConfusion
  | _ => exact settles.elim

theorem commit_follows {state : Role × Attempt} :
    commit.Follows (attemptProtocol job) state fun _ _ => True :=
  ⟨trivial, fun _ => trivial⟩

theorem settleDeadLetter_follows {row : Job} {write : StatusWrite} {message : Option String}
    {details : List (String × Json)} {attempt : Attempt} (delivers : role.delivers job)
    (settles : attempt.Settles write) :
    (settleDeadLetter job row write message details).Follows (attemptProtocol job)
      (role, attempt) fun _ _ => True := by
  refine .bind (updateStatus_follows message delivers settles) fun after _ _ => ?_
  exact .first trivial fun _ => commit_follows

theorem settleExhausted_follows {row : Job} {error : String} {reasoning : Option String}
    {read : Option Job} (delivers : role.delivers job) :
    (settleExhausted job row error reasoning).Follows (attemptProtocol job) (role, .failed read)
      fun _ _ => True := by
  cases reasoning with
  | none => exact settleDeadLetter_follows delivers (.inl rfl)
  | some text => exact settleDeadLetter_follows delivers (.inl rfl)

theorem settleRetry_follows {row : Job} {error : String} {delay : Time}
    (delivers : role.delivers job) (owed : row.retryCount + 1 < row.maxAttempts) :
    (settleRetry job row error delay).Follows (attemptProtocol job) (role, .failed (some row))
      fun _ _ => True := by
  refine .bind (updateStatus_follows none delivers (.inr ⟨rfl, row, rfl, rfl, owed⟩))
    fun after _ _ => ?_
  exact .first trivial fun _ => .first trivial fun _ => ⟨trivial, fun _ => trivial⟩

theorem consultRetryPolicy_neutral (settings : Settings) (row : Job) (error : String) :
    (consultRetryPolicy settings row error).Uses Neutral := by
  unfold consultRetryPolicy
  dsimp only
  split
  · refine .first trivial fun decision => ?_
    split <;> exact trivial
  · exact trivial

theorem settleFailed_follows (settings : Settings) (row : Job) (error : String)
    (delivers : role.delivers job) :
    (settleFailed settings job row error).Follows (attemptProtocol job)
      (role, .failed (some row)) fun _ _ => True := by
  have consult := consultRetryPolicy_neutral settings row error
  refine .bind (follows_of_neutral (role, .failed (some row)) consult) fun after decision same => ?_
  subst same
  cases decision with
  | inr reasoning => exact settleExhausted_follows delivers
  | inl delay =>
      dsimp only
      split
      · exact settleRetry_follows delivers ‹_›
      · exact settleExhausted_follows delivers

theorem runClaimed_follows (settings : Settings) (row : Job) (delivers : role.delivers job) :
    (runClaimed settings job row).Follows (attemptProtocol job) (role, .running (some row))
      fun _ _ => True := by
  refine .first trivial fun _ => ?_
  split
  · exact settleDeadLetter_follows delivers rfl
  · refine .first ⟨fun _ => ⟨row, rfl⟩, fun other => absurd delivers other⟩ fun outcome => ?_
    cases outcome with
    | returned result =>
        refine .bind (updateStatus_follows none delivers rfl) fun after _ _ => ?_
        exact .first trivial fun _ => commit_follows
    | timedOut => exact settleDeadLetter_follows delivers (.inl rfl)
    | raised error => exact settleFailed_follows settings row error delivers

theorem runJob_follows (settings : Settings) (delivers : role.delivers job) :
    (runJob settings job).Follows (attemptProtocol job) (role, .idle none) fun _ _ => True := by
  refine .bind (loadAndClaim_follows none) fun after admission reached => ?_
  cases admission with
  | skipped => exact trivial
  | held _ => exact ⟨trivial, fun _ => trivial⟩
  | claimed row =>
      obtain rfl := reached row rfl
      exact runClaimed_follows settings row delivers

end Delivery

theorem idle_of_may {job : Uuid} {role : Role} (other : ¬ role.delivers job)
    (state : Role × Attempt) (operation : Op) (idle : ∃ read, state = (role, .idle read))
    (may : role.may operation) :
    (attemptProtocol job).allowed state operation ∧
      ∀ reply, ∃ read, (attemptProtocol job).advance state operation reply = (role, .idle read) := by
  obtain ⟨read, rfl⟩ := idle
  refine ⟨?_, fun reply => ?_⟩
  · cases operation with
    | statement statement =>
        cases statement with
        | claimForRunning id =>
            intro same
            subst same
            exact absurd may other
        | updateStatus id write guard =>
            exact fun _ => ⟨fun delivers => absurd delivers other, fun _ => ⟨read, rfl⟩⟩
        | _ => exact trivial
    | rollback => exact ⟨read, rfl⟩
    | reading reading =>
        cases reading with
        | execute type payload => exact ⟨fun delivers => absurd delivers other, fun _ => ⟨read, rfl⟩⟩
        | _ => exact trivial
    | _ => exact trivial
  · cases operation with
    | statement statement =>
        cases statement with
        | claimForRunning id =>
            have different : id ≠ job := fun same => other (same ▸ may)
            exact ⟨read, by simp [Attempt.advance, different]⟩
        | _ => exact ⟨read, rfl⟩
    | query query =>
        cases query with
        | job id => exact ⟨_, rfl⟩
        | _ => exact ⟨read, rfl⟩
    | _ => exact ⟨read, rfl⟩

theorem program_follows_attempt (settings : Settings) (job : Uuid) (role : Role) :
    (role.program settings).Follows (attemptProtocol job) ((attemptProtocol job).start role)
      fun _ _ => True := by
  by_cases delivers : role.delivers job
  · cases role with
    | deliver id =>
        obtain rfl := of_decide_eq_true delivers
        exact runJob_follows settings delivers
    | redeliver id =>
        obtain rfl := of_decide_eq_true delivers
        exact runJob_follows settings delivers
    | _ => cases delivers
  · refine Program.Follows.mono (Program.Uses.follows (program_uses settings role) ⟨none, rfl⟩
      (idle_of_may delivers)) fun _ _ _ => trivial

theorem stateFrom_attempt (job : Uuid) (role : Role) (pid : Pid) (log : List PlatformEntry) :
    (attemptProtocol job).stateFrom role pid log = (role, attemptOf job pid log) := by
  induction log with
  | nil => rfl
  | cons entry older ih =>
      rw [Protocol.stateFrom, attemptOf, ih]
      by_cases own : entry.pid = pid
      · rw [if_pos own, if_pos own]
      · rw [if_neg own, if_neg own]

theorem attempt_allowed {settings : Settings} {pool : PlatformPool}
    (reachable : Reachable settings pool) (job : Uuid) {pid : Pid} {role : Role} {operation : Op}
    {next : Reply operation → Prog Unit}
    (found : pool.process pid = some { role, program := .call operation next }) :
    (attemptProtocol job).allowed (role, attemptOf job pid pool.log) operation := by
  obtain ⟨outside, reached⟩ := reachable
  have kept := Protocol.keptBy_of_reaches (program_follows_attempt settings job) reached
  have follows := kept pid _ found
  rw [stateFrom_attempt] at follows
  exact follows.1

end IncidentPlatform.Properties

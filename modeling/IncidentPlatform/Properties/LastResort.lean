import IncidentPlatform.Platform.Escapes
import IncidentPlatform.Properties.LiveExecutions

namespace IncidentPlatform.Properties

open Concurrency Models Platform Repositories Services Storage Workers

/-! # The last-resort net

A delivery that raises dead-letters whatever open row it then finds.  That row
is in its own run where it raised between the commits of its claim and of its
outcome, and nobody else has changed the status since.
-/

inductive RunStage where
  | unclaimed
  | claimed
  | running
  | settling
  | settled
deriving DecidableEq

namespace RunStage

def advance (job : Uuid) : RunStage → (operation : Op) → Reply operation → RunStage
  | .unclaimed, .statement (.claimForRunning id), won =>
      if id = job ∧ won = true then .claimed else .unclaimed
  | .claimed, .commit, _ => .running
  | .claimed, .rollback, _ => .unclaimed
  | .running, .statement (.updateStatus id _ _), _ => if id = job then .settling else .running
  | .settling, .commit, _ => .settled
  | .settling, .rollback, _ => .running
  | stage, _, _ => stage

def Clear (stage : RunStage) : Prop := stage ≠ .claimed ∧ stage ≠ .running

end RunStage

/-- The stage that the logged operations of `pid` have reached. -/
def stageOf (job : Uuid) (pid : Pid) : List EscapeEntry → RunStage
  | [] => .unclaimed
  | entry :: older =>
      if entry.pid = pid then (stageOf job pid older).advance job entry.operation entry.reply
      else stageOf job pid older

/-- The statements beside claims and status updates that write job rows. -/
def Op.Touches : Op → Prop
  | .statement (.promoteWaitingToPending _) | .statement (.cancelBlocked _ _ _)
  | .statement (.stampRequeued _ _) | .statement (.renewRunningLeases _ _ _)
  | .statement (.insertJob _) => True
  | _ => False

/-- A process claims once, and from its claim to its outcome writes nothing else
to job rows. -/
@[reducible] def stageProtocol (job : Uuid) : Protocol Task Op Reply where
  State := RunStage
  start := fun _ => .unclaimed
  allowed := fun stage operation =>
    match operation with
    | .statement (.claimForRunning id) => id = job → stage = .unclaimed
    | .statement (.updateStatus id write guard) => id = job →
        stage ≠ .claimed ∧ write.status ≠ .running ∧ (stage = .running → guard = none)
    | operation => Op.Touches operation → stage.Clear
  advance := fun stage operation reply => stage.advance job operation reply

theorem stateFrom_stage (job : Uuid) (task : Task) (pid : Pid) (log : List EscapeEntry) :
    (stageProtocol job).stateFrom task pid log = stageOf job pid log := by
  induction log with
  | nil => rfl
  | cons entry older ih => rw [Protocol.stateFrom, stageOf, ih]

def Op.Quiet : Op → Prop
  | .query _ | .command _ | .reading _ | .statement (.insertOutbox ..) | .statement (.insertAudit _) => True
  | _ => False

def Op.Concludes : Op → Prop
  | .commit | .statement (.cancelBlocked ..) => True
  | operation => Op.Quiet operation

section Programs

variable {job : Uuid} {α : Type} {stage : RunStage} {operation : Op}

theorem quiet_allowed (quiet : Op.Quiet operation) : (stageProtocol job).allowed stage operation := by
  unfold Op.Quiet at quiet
  split at quiet
  all_goals first
    | exact quiet.elim
    | exact fun touches => touches.elim

theorem advance_of_quiet (quiet : Op.Quiet operation) (reply : Reply operation) :
    stage.advance job operation reply = stage := by
  unfold Op.Quiet at quiet
  split at quiet
  all_goals first
    | exact quiet.elim
    | cases stage <;> rfl

theorem follows_of_quiet {program : Prog α} (uses : program.Uses Op.Quiet) :
    program.Follows (stageProtocol job) stage fun after _ => after = stage := by
  have kept : ∀ (state : RunStage) operation, state = stage → Op.Quiet operation →
      (stageProtocol job).allowed state operation ∧
        ∀ reply, (stageProtocol job).advance state operation reply = stage := by
    rintro _ operation rfl quiet
    exact ⟨quiet_allowed quiet, advance_of_quiet quiet⟩
  exact @Program.Uses.follows _ _ _ _ (stageProtocol job) _ _ (fun after => after = stage) _ uses rfl kept

theorem follows_of_concludes {program : Prog α} (clear : stage.Clear) (uses : program.Uses Op.Concludes) :
    program.Follows (stageProtocol job) stage fun after _ => after.Clear := by
  apply uses.follows clear
  intro stage operation clear concludes
  unfold Op.Concludes at concludes
  split at concludes
  · refine ⟨fun touches => touches.elim, fun _ => ?_⟩
    cases stage with
    | claimed => exact absurd rfl clear.1
    | running => exact absurd rfl clear.2
    | _ => exact ⟨nofun, nofun⟩
  · refine ⟨fun _ => clear, fun reply => ?_⟩
    cases stage <;> exact clear
  · exact ⟨quiet_allowed concludes, fun reply => (congrArg RunStage.Clear (advance_of_quiet concludes reply)).mpr clear⟩

theorem quiet_of_probes (operation : Op) (probes : operation.Probes) : Op.Quiet operation := by
  unfold Op.Probes at probes
  split at probes
  · exact trivial
  · exact trivial
  · exact probes.elim

theorem concludes_of_settles (operation : Op) (settles : operation.Settles) : Op.Concludes operation := by
  unfold Op.Settles at settles
  split at settles
  all_goals first
    | exact trivial
    | exact settles.elim

theorem updateStatus_clears {write : StatusWrite} {message : Option String} (unclaimed : stage ≠ .claimed)
    (outcome : write.status ≠ .running) :
    (updateStatus job write message).Follows (stageProtocol job) stage fun after _ => after.Clear := by
  refine .first (fun _ => ⟨unclaimed, outcome, fun _ => rfl⟩) fun changed => ?_
  have clear : (stage.advance job (.statement (.updateStatus job write none)) changed).Clear := by
    cases stage with
    | claimed => exact absurd rfl unclaimed
    | running =>
        rw [RunStage.advance, if_pos rfl]
        exact ⟨nofun, nofun⟩
    | _ => exact ⟨nofun, nofun⟩
  simp only [Option.isSome_none, Bool.false_and, Bool.false_eq_true, if_false]
  exact follows_of_concludes clear ((afterStatusWrite_uses ..).mono concludes_of_settles)

theorem settleDeadLetter_clears {row : Job} {write : StatusWrite} {message : Option String}
    {details : List (String × Json)} (unclaimed : stage ≠ .claimed) (outcome : write.status ≠ .running) :
    (settleDeadLetter job row write message details).Follows (stageProtocol job) stage
      fun after _ => after.Clear := by
  refine .bind (updateStatus_clears unclaimed outcome) fun after _ clear => ?_
  exact follows_of_concludes clear (.first trivial fun _ => ⟨trivial, fun _ => trivial⟩)

theorem loadAndClaim_stage : (loadAndClaim job).Follows (stageProtocol job) .unclaimed fun after admission =>
    ∀ row, admission = .claimed row → after = .running := by
  refine .first (fun touches => touches.elim) fun found => ?_
  cases found with
  | none =>
      refine .first (fun touches => touches.elim) fun _ => ?_
      rintro row ⟨⟩
  | some row =>
      dsimp only
      split
      · refine .first (fun touches => touches.elim) fun _ => ?_
        rintro row ⟨⟩
      · have probe := (findBlockingPause_uses job).mono quiet_of_probes
        refine .bind (follows_of_quiet probe) fun after held same => ?_
        cases held with
        | some _ =>
            refine .first (fun touches => touches.elim) fun _ => ?_
            rintro row ⟨⟩
        | none =>
            refine .first (fun _ => same) fun won => .first (fun touches => touches.elim) fun _ => ?_
            cases won with
            | false => rintro row ⟨⟩
            | true =>
                rintro row ⟨⟩
                subst same
                simp [RunStage.advance]

theorem runClaimed_stage (settings : Settings) (row : Job) :
    (runClaimed settings job row).Follows (stageProtocol job) .running fun _ _ => True := by
  have unclaimed : RunStage.running ≠ .claimed := by simp
  have dead : ∀ {write : StatusWrite} {message : Option String} {details : List (String × Json)},
      write.status = .deadLetter → (settleDeadLetter job row write message details).Follows
        (stageProtocol job) .running fun _ _ => True := by
    intro write message details same
    have outcome : write.status ≠ .running := by simp [same]
    exact (settleDeadLetter_clears unclaimed outcome).mono fun _ _ _ => trivial
  have exhausted : ∀ error reasoning, (settleExhausted job row error reasoning).Follows
      (stageProtocol job) .running fun _ _ => True := by
    intro error reasoning
    cases reasoning <;> exact dead rfl
  refine .first (fun touches => touches.elim) fun _ => ?_
  split
  · exact dead rfl
  · refine .first (fun touches => touches.elim) fun outcome => ?_
    cases outcome with
    | returned result =>
        refine .bind (updateStatus_clears unclaimed (by simp)) fun after _ clear => ?_
        refine (follows_of_concludes clear ?_).mono fun _ _ _ => trivial
        exact .first trivial fun _ => ⟨trivial, fun _ => trivial⟩
    | timedOut => exact dead rfl
    | raised error =>
        have consult : (consultRetryPolicy settings row error).Uses Op.Quiet := by
          unfold consultRetryPolicy
          dsimp only
          split
          · refine .first trivial fun decision => ?_
            split <;> exact trivial
          · exact trivial
        refine .bind (follows_of_quiet consult) fun after decision same => ?_
        subst same
        cases decision with
        | inr reasoning => exact exhausted error (some reasoning)
        | inl delay =>
            dsimp only
            split
            · refine .bind (updateStatus_clears unclaimed (by simp)) fun after _ clear => ?_
              refine (follows_of_concludes clear ?_).mono fun _ _ _ => trivial
              exact .first trivial fun _ => .first trivial fun _ => ⟨trivial, fun _ => trivial⟩
            · exact exhausted error none

theorem runJob_stage (settings : Settings) :
    (runJob settings job).Follows (stageProtocol job) .unclaimed fun _ _ => True := by
  refine .bind loadAndClaim_stage fun after admission reached => ?_
  cases admission with
  | skipped => exact trivial
  | held _ => exact ⟨fun touches => touches.elim, fun _ => trivial⟩
  | claimed row =>
      obtain rfl := reached row rfl
      exact runClaimed_stage settings row

theorem forceDeadLetter_stage {error : String} (unclaimed : stage ≠ .claimed) :
    (forceDeadLetter job error).Follows (stageProtocol job) stage fun _ _ => True := by
  refine .first (fun touches => touches.elim) fun found => ?_
  have quiet : Op.Quiet (.query (.job job)) := trivial
  have same : stage.advance job (.query (.job job)) found = stage := advance_of_quiet quiet found
  cases found with
  | none => exact ⟨fun touches => touches.elim, fun _ => trivial⟩
  | some row =>
      dsimp only
      split
      · exact ⟨fun touches => touches.elim, fun _ => trivial⟩
      · refine (settleDeadLetter_clears ?_ (by simp)).mono fun _ _ _ => trivial
        rwa [same]

end Programs

/-- What a process other than a delivery of the job may do. -/
def Op.Elsewhere (job : Uuid) : Op → Prop
  | .statement (.claimForRunning id) => id ≠ job
  | .statement (.updateStatus _ write _) => write.status ≠ .running
  | _ => True

section Tasks

variable {job : Uuid} {role : Role} {settings : Settings}

theorem elsewhere_of_may (other : ¬ role.delivers job) (operation : Op) (may : role.may operation) :
    Op.Elsewhere job operation := by
  cases operation with
  | statement statement =>
      cases statement with
      | claimForRunning id => exact fun same => other (same ▸ may)
      | updateStatus id write guard => exact may.not_running
      | _ => exact trivial
  | _ => exact trivial

theorem escape_elsewhere (other : ¬ role.delivers job) (error : String) (netAwaits : Nat) :
    (role.escape error netAwaits).Uses (Op.Elsewhere job) := by
  have nets : (role.net error).Uses (Op.Elsewhere job) := by
    unfold Role.net
    split
    · exact (forceDeadLetter_uses _ error).mono (elsewhere_of_may (by simp [Role.delivers]))
    · exact (forceDeadLetter_uses _ error).mono (elsewhere_of_may (by simp [Role.delivers]))
    · exact trivial
  exact .first trivial fun _ => nets.raising ⟨trivial, fun _ => trivial⟩

theorem follows_of_elsewhere {program : Prog Unit} (uses : program.Uses (Op.Elsewhere job)) :
    program.Follows (stageProtocol job) .unclaimed fun _ _ => True := by
  have kept : ∀ (stage : RunStage) operation, stage = .unclaimed → Op.Elsewhere job operation →
      (stageProtocol job).allowed stage operation ∧
        ∀ reply, (stageProtocol job).advance stage operation reply = .unclaimed := by
    rintro _ operation rfl elsewhere
    cases operation with
    | statement statement =>
        cases statement with
        | claimForRunning id =>
            refine ⟨fun same => absurd same elsewhere, fun reply => if_neg ?_⟩
            exact fun won => elsewhere won.1
        | updateStatus id write guard =>
            exact ⟨fun _ => ⟨by simp, elsewhere, by simp⟩, fun _ => rfl⟩
        | _ => exact ⟨fun _ => ⟨by simp, by simp⟩, fun _ => rfl⟩
    | _ => exact ⟨fun _ => ⟨by simp, by simp⟩, fun _ => rfl⟩
  have follows := @Program.Uses.follows _ _ _ _ (stageProtocol job) _ _ (fun after => after = .unclaimed) _
    uses rfl kept
  exact follows.mono fun _ _ _ => trivial

theorem escape_stage {stage : RunStage} {error : String} {netAwaits : Nat} (delivers : role.delivers job) :
    (role.escape error netAwaits).Follows (stageProtocol job) stage fun _ _ => True := by
  have nets : ∀ stage : RunStage, stage ≠ .claimed →
      (role.net error).Follows (stageProtocol job) stage fun _ _ => True := by
    intro stage unclaimed
    cases role with
    | deliver id =>
        obtain rfl := of_decide_eq_true delivers
        exact forceDeadLetter_stage unclaimed
    | redeliver id =>
        obtain rfl := of_decide_eq_true delivers
        exact forceDeadLetter_stage unclaimed
    | _ => cases delivers
  refine .first (fun touches => touches.elim) fun reply => ?_
  have unclaimed : stage.advance job .rollback reply ≠ .claimed := by
    cases stage <;> simp [RunStage.advance]
  refine (nets _ unclaimed).raising (motive := fun _ => True) trivial (fun _ _ _ _ _ => trivial) ?_
  exact fun stage _ => ⟨fun touches => touches.elim, fun _ => trivial⟩

theorem task_stage (settings : Settings) (job : Uuid) (task : Task) :
    (task.program settings).Follows (stageProtocol job) ((stageProtocol job).start task) fun _ _ => True := by
  have runs : ∀ role : Role, role.delivers job → (role.program settings).Follows (stageProtocol job)
      .unclaimed fun _ _ => True := by
    intro role delivers
    cases role with
    | deliver id =>
        obtain rfl := of_decide_eq_true delivers
        exact runJob_stage settings
    | redeliver id =>
        obtain rfl := of_decide_eq_true delivers
        exact runJob_stage settings
    | _ => cases delivers
  cases task with
  | completes role =>
      by_cases delivers : role.delivers job
      · exact runs role delivers
      · exact follows_of_elsewhere ((program_uses settings role).mono (elsewhere_of_may delivers))
  | raises role awaits error netAwaits =>
      by_cases delivers : role.delivers job
      · refine (runs role delivers).raising (motive := fun _ => True) trivial
          (fun _ _ _ _ _ => trivial) ?_
        exact fun stage _ => escape_stage delivers
      · have uses := (program_uses settings role).mono (elsewhere_of_may delivers)
        exact follows_of_elsewhere (uses.raising (escape_elsewhere delivers error netAwaits))

end Tasks

/-- The statuses that a commit takes a committed row from and to. -/
def published (job : Uuid) (entry : EscapeEntry) : Option (JobStatus × JobStatus) :=
  match entry.operation, (entry.before.jobs.slot job).committed,
      ((entry.before.jobs.slot job).commit entry.pid).committed with
  | .commit, some old, some new => some (old.status, new.status)
  | _, _, _ => none

def changesStatus (job : Uuid) (entry : EscapeEntry) : Bool :=
  (published job entry).any fun statuses => statuses.1 ≠ statuses.2

def startsRun (job : Uuid) (entry : EscapeEntry) : Bool :=
  (published job entry).any fun statuses => statuses.1 ≠ .running && statuses.2 = .running

/-- The process whose commit was the last to change the status of the row. -/
def lastChange (job : Uuid) (log : List EscapeEntry) : Option Pid :=
  (log.find? (changesStatus job)).map Entry.pid

/-- The process whose commit was the last to turn the row RUNNING. -/
def runner (job : Uuid) (log : List EscapeEntry) : Option Pid :=
  (log.find? (startsRun job)).map Entry.pid

def Runs (slot : Slot Job) : Prop := ∀ row, slot.committed = some row → row.status = .running

/-- What the stages of the processes and the last commits tell about the row. -/
structure Accounted (slot : Slot Job) (stage : Pid → RunStage) (changed ran : Option Pid) : Prop where
  claimed : ∀ pid, stage pid = .claimed → ∃ row, slot.holder = some (pid, row) ∧ row.status = .running
  running : ∀ pid, stage pid = .running →
    (∃ row, slot.committed = some row) ∧ ∀ row, slot.holder ≠ some (pid, row)
  settling : ∀ pid, stage pid = .settling → (∃ row, slot.committed = some row) ∧
    ∃ row, slot.holder = some (pid, row) ∧ row.status ≠ .running
  starts : ∀ pid old row, slot.committed = some old → old.status ≠ .running →
    slot.holder = some (pid, row) → row.status = .running → stage pid = .claimed
  change : ∀ pid, changed = some pid → stage pid = .running ∨ stage pid = .settling → Runs slot
  run : ∀ pid, ran = some pid → Runs slot → stage pid = .running ∨ stage pid = .settling
  agree : Runs slot → changed = ran

/-- A write of the row, and how it moves the stage of its process. -/
inductive Written (slot : Slot Job) (pid : Pid) (new : Job) : RunStage → RunStage → Prop where
  | settles (outcome : new.status ≠ .running) : Written slot pid new .running .settling
  | claims (started : new.status = .running) : Written slot pid new .unclaimed .claimed
  | updates {stage : RunStage} (clear : stage.Clear) (outcome : new.status ≠ .running) :
      Written slot pid new stage stage
  | touches {stage : RunStage} (clear : stage.Clear)
      (kept : ∀ row, slot.visible pid = some row → new.status = .running → row.status = .running) :
      Written slot pid new stage stage

namespace Accounted

theorem start : Accounted { committed := none, holder := none } (fun _ => .unclaimed) none none := by
  constructor <;> simp

variable {slot : Slot Job} {stage : Pid → RunStage} {changed ran : Option Pid} {pid : Pid} {row new : Job}

theorem write {next : RunStage} (accounted : Accounted slot stage changed ran) (free : slot.Free pid)
    (written : Written slot pid new (stage pid) next) :
    Accounted (slot.write pid new) (Function.update stage pid next) changed ran := by
  have others : ∀ {other version}, other ≠ pid → slot.holder ≠ some (other, version) :=
    fun different held => different (free _ _ held)
  refine ⟨?_, ?_, ?_, ?_, ?_, ?_, accounted.agree⟩
  · intro other claimed
    by_cases same : other = pid
    · subst same
      rw [Function.update_self] at claimed
      generalize stage other = earlier at written
      cases written with
      | settles => cases claimed
      | claims started => exact ⟨new, rfl, started⟩
      | updates clear => exact absurd claimed clear.1
      | touches clear => exact absurd claimed clear.1
    · rw [Function.update_of_ne same] at claimed
      obtain ⟨row, held, _⟩ := accounted.claimed other claimed
      exact absurd held (others same)
  · intro other running
    by_cases same : other = pid
    · subst same
      rw [Function.update_self] at running
      generalize stage other = earlier at written
      cases written with
      | settles => cases running
      | claims => cases running
      | updates clear => exact absurd running clear.2
      | touches clear => exact absurd running clear.2
    · rw [Function.update_of_ne same] at running
      refine ⟨(accounted.running other running).1, ?_⟩
      rintro row ⟨⟩
      exact same rfl
  · intro other settling
    by_cases same : other = pid
    · subst same
      rw [Function.update_self] at settling
      generalize moved : stage other = earlier at written
      cases written with
      | settles outcome => exact ⟨(accounted.running other moved).1, new, rfl, outcome⟩
      | claims => cases settling
      | updates _ outcome => exact ⟨(accounted.settling other (moved.trans settling)).1, new, rfl, outcome⟩
      | touches _ kept =>
          obtain ⟨stored, row, held, outcome⟩ := accounted.settling other (moved.trans settling)
          exact ⟨stored, new, rfl, fun running => outcome (kept row (Slot.visible_of_held held) running)⟩
    · rw [Function.update_of_ne same] at settling
      obtain ⟨_, row, held, _⟩ := accounted.settling other settling
      exact absurd held (others same)
  · rintro other old row stored stopped ⟨⟩ running
    rw [Slot.write_committed] at stored
    rw [Function.update_self]
    generalize moved : stage pid = earlier at written
    cases written with
    | settles outcome => exact absurd running outcome
    | claims => rfl
    | updates _ outcome => exact absurd running outcome
    | touches clear kept =>
        obtain ⟨seen, visible⟩ : ∃ seen, slot.visible pid = some seen := Slot.visible_of_stored pid stored
        have runs := kept seen visible running
        rcases Slot.visible_cases visible with held | committed
        · exact absurd (moved.symm.trans (accounted.starts pid old seen stored stopped held runs)) clear.1
        · rw [stored] at committed
          cases committed
          exact absurd runs stopped
  · intro other last open_
    by_cases same : other = pid
    · subst same
      rw [Function.update_self] at open_
      generalize moved : stage other = earlier at written
      cases written with
      | settles => exact accounted.change other last (.inl moved)
      | claims => simp at open_
      | updates => exact accounted.change other last (moved ▸ open_)
      | touches => exact accounted.change other last (moved ▸ open_)
    · rw [Function.update_of_ne same] at open_
      exact accounted.change other last open_
  · intro other last runs
    have open_ := accounted.run other last runs
    by_cases same : other = pid
    · subst same
      rw [Function.update_self]
      generalize moved : stage other = earlier at written open_
      cases written with
      | settles => exact .inr rfl
      | claims => simp at open_
      | updates => exact open_
      | touches => exact open_
    · rwa [Function.update_of_ne same]

theorem unheld (accounted : Accounted slot stage changed ran) (free : ∀ row, slot.holder ≠ some (pid, row)) :
    stage pid ≠ .claimed ∧ stage pid ≠ .settling := by
  constructor
  · intro claimed
    obtain ⟨row, held, _⟩ := accounted.claimed pid claimed
    exact free row held
  · intro settling
    obtain ⟨_, row, held, _⟩ := accounted.settling pid settling
    exact free row held

theorem alone (accounted : Accounted slot stage changed ran) (held : slot.holder = some (pid, row))
    {other : Pid} (different : other ≠ pid) : stage other ≠ .claimed ∧ stage other ≠ .settling := by
  apply accounted.unheld
  intro version mine
  rw [held] at mine
  cases mine
  exact different rfl

theorem commit {job : Uuid} (accounted : Accounted slot stage changed ran)
    (held : slot.holder = some (pid, row)) :
    Accounted { committed := some row, holder := none }
      (Function.update stage pid ((stage pid).advance job .commit ()))
      (if slot.committed.any (·.status ≠ row.status) then some pid else changed)
      (if slot.committed.any fun old => old.status ≠ .running && row.status = .running then some pid
        else ran) := by
  have others : ∀ {other}, other ≠ pid → stage other ≠ .claimed ∧ stage other ≠ .settling :=
    fun different => accounted.alone held different
  have idle : stage pid ≠ .running := fun running => (accounted.running pid running).2 row held
  refine ⟨?_, ?_, ?_, ?_, ?_, ?_, ?_⟩
  · intro other claimed
    by_cases same : other = pid
    · subst same
      rw [Function.update_self] at claimed
      cases moved : stage other <;> simp [moved, RunStage.advance] at claimed
    · rw [Function.update_of_ne same] at claimed
      exact absurd claimed (others same).1
  · exact fun other running => ⟨⟨row, rfl⟩, by simp⟩
  · intro other settling
    by_cases same : other = pid
    · subst same
      rw [Function.update_self] at settling
      cases moved : stage other <;> simp [moved, RunStage.advance] at settling
    · rw [Function.update_of_ne same] at settling
      exact absurd settling (others same).2
  · simp
  · rintro other last open_ _ ⟨⟩
    by_cases same : other = pid
    · subst same
      rw [Function.update_self] at open_
      cases moved : stage other with
      | claimed =>
          obtain ⟨version, mine, running⟩ := accounted.claimed other moved
          rw [held] at mine
          cases mine
          exact running
      | running => exact absurd moved idle
      | _ => simp [moved, RunStage.advance] at open_
    · rw [Function.update_of_ne same] at open_
      have running : stage other = .running := open_.resolve_right (others same).2
      obtain ⟨⟨old, stored⟩, _⟩ := accounted.running other running
      rw [stored] at last
      split at last
      · cases last
        exact absurd rfl same
      · rename_i kept
        have same : old.status = row.status := by simpa using kept
        rw [← same]
        exact accounted.change other last open_ old stored
  · intro other last runs
    have running : row.status = .running := runs row rfl
    split at last
    · rename_i started
      cases last
      obtain ⟨old, stored, stopped⟩ := (Option.any_eq_true ..).mp started
      rw [Bool.and_eq_true] at stopped
      have claimed := accounted.starts pid old row stored (by simpa using stopped.1) held running
      rw [Function.update_self, claimed]
      exact .inl rfl
    · rename_i kept
      have before : Runs slot := by
        intro old stored
        simpa [stored, running] using kept
      have open_ := accounted.run other last before
      by_cases same : other = pid
      · subst same
        obtain ⟨_, version, mine, outcome⟩ := accounted.settling other (open_.resolve_left idle)
        rw [held] at mine
        cases mine
        exact absurd running outcome
      · rwa [Function.update_of_ne same]
  · intro runs
    have running : row.status = .running := runs row rfl
    simp only [running, decide_true, Bool.and_true]
    split
    · rfl
    · rename_i kept
      exact accounted.agree fun old stored => by simpa [stored] using kept

theorem rollback {job : Uuid} (accounted : Accounted slot stage changed ran)
    (held : slot.holder = some (pid, row)) :
    Accounted { slot with holder := none } (Function.update stage pid ((stage pid).advance job .rollback ()))
      changed ran := by
  have others : ∀ {other}, other ≠ pid → stage other ≠ .claimed ∧ stage other ≠ .settling :=
    fun different => accounted.alone held different
  -- A process that runs now ran before, or was settling.
  have open_ : ∀ other, Function.update stage pid ((stage pid).advance job .rollback ()) other = .running →
      stage other = .running ∨ stage other = .settling := by
    intro other running
    by_cases same : other = pid
    · subst same
      rw [Function.update_self] at running
      cases moved : stage other <;> simp [moved, RunStage.advance] at running ⊢
    · rw [Function.update_of_ne same] at running
      exact .inl running
  have closed : ∀ other, Function.update stage pid ((stage pid).advance job .rollback ()) other ≠ .claimed ∧
      Function.update stage pid ((stage pid).advance job .rollback ()) other ≠ .settling := by
    intro other
    by_cases same : other = pid
    · subst same
      rw [Function.update_self]
      cases stage other <;> simp [RunStage.advance]
    · rw [Function.update_of_ne same]
      exact others same
  refine ⟨?_, ?_, ?_, by simp, ?_, ?_, accounted.agree⟩
  · exact fun other claimed => absurd claimed (closed other).1
  · intro other running
    refine ⟨?_, by simp⟩
    rcases open_ other running with earlier | earlier
    · exact (accounted.running other earlier).1
    · exact (accounted.settling other earlier).1
  · exact fun other settling => absurd settling (closed other).2
  · intro other last running
    exact accounted.change other last (open_ other (running.resolve_right (closed other).2))
  · intro other last runs
    have earlier := accounted.run other last runs
    by_cases same : other = pid
    · subst same
      rw [Function.update_self]
      rcases earlier with moved | moved <;> rw [moved] <;> exact .inl rfl
    · rwa [Function.update_of_ne same]

end Accounted

section Pools

variable {job : Uuid} {settings : Settings} {pool before : EscapePool} {pid : Pid} {task : Task}
  {operation : Op} {next : Reply operation → Prog Unit} {reply : Reply operation} {world : World}
  {entry : EscapeEntry} {older : List EscapeEntry}

theorem lastChange_cons : lastChange job (entry :: older) =
    if changesStatus job entry then some entry.pid else lastChange job older := by
  unfold lastChange
  rw [List.find?_cons]
  split <;> rename_i holds <;> simp [holds]

theorem runner_cons : runner job (entry :: older) =
    if startsRun job entry then some entry.pid else runner job older := by
  unfold runner
  rw [List.find?_cons]
  split <;> rename_i holds <;> simp [holds]

theorem published_of_not_commit (uncommitted : entry.operation ≠ .commit) : published job entry = none := by
  unfold published
  split
  · contradiction
  · rfl

theorem published_of_kept (kept : (entry.before.jobs.slot job).commit entry.pid = entry.before.jobs.slot job) :
    changesStatus job entry = false ∧ startsRun job entry = false := by
  unfold changesStatus startsRun published
  rw [kept]
  split
  · rename_i first second
    rw [first] at second
    cases second
    simp
  · simp

def Tallies (job : Uuid) (pool : EscapePool) : Prop :=
  Accounted (pool.world.jobs.slot job) (fun pid => stageOf job pid pool.log) (lastChange job pool.log)
    (runner job pool.log)

theorem stage_allowed (reached : Escapable settings pool)
    (found : pool.process pid = some { role := task, program := .call operation next }) :
    (stageProtocol job).allowed (stageOf job pid pool.log) operation := by
  obtain ⟨outside, reached⟩ := reached
  have follows := Protocol.keptBy_of_reaches (task_stage settings job) reached pid _ found
  rw [stateFrom_stage] at follows
  exact follows.1

theorem stageOf_record : (fun queried => stageOf job queried
    (before.record pid task operation reply (next reply) world).log) =
    Function.update (fun queried => stageOf job queried before.log) pid
      ((stageOf job pid before.log).advance job operation reply) := by
  funext queried
  by_cases same : queried = pid
  · subst same
    rw [Function.update_self, Pool.record_log, stageOf, if_pos rfl]
  · rw [Function.update_of_ne same, Pool.record_log, stageOf, if_neg (Ne.symm same)]

theorem written_of_allowed {old : Option Job} {new : Job} {stage : RunStage}
    (seen : old = (before.world.jobs.slot job).visible pid)
    (writes : operation.Writes before.world job old new reply)
    (allowed : (stageProtocol job).allowed stage operation) :
    Written (before.world.jobs.slot job) pid new stage (stage.advance job operation reply) := by
  subst seen
  cases operation with
  | statement statement =>
      cases statement with
      | updateStatus id write guard =>
          obtain ⟨_, rfl, row, _, _, rfl⟩ := writes
          obtain ⟨unclaimed, outcome, _⟩ := allowed rfl
          cases stage with
          | claimed => exact absurd rfl unclaimed
          | running =>
              rw [RunStage.advance, if_pos rfl]
              exact .settles outcome
          | _ => exact .updates ⟨by simp, by simp⟩ outcome
      | claimForRunning id =>
          obtain ⟨rfl, rfl, row, _, _, rfl⟩ := writes
          rw [allowed rfl, RunStage.advance, if_pos ⟨rfl, rfl⟩]
          exact .claims rfl
      | promoteWaitingToPending id =>
          obtain ⟨_, rfl, row, _, _, rfl⟩ := writes
          have clear := allowed trivial
          cases stage <;> exact .touches clear (by simp [World.promoted])
      | cancelBlocked ids reason stamp =>
          obtain ⟨_, row, _, _, _, rfl⟩ := writes
          have clear := allowed trivial
          cases stage <;> exact .touches clear (by simp [World.cancelledRow])
      | stampRequeued id stamp =>
          obtain ⟨rfl, row, found, rfl⟩ := writes
          have clear := allowed trivial
          cases stage <;> exact .touches clear (by simp [found])
      | renewRunningLeases ids oldest stamp =>
          obtain ⟨_, row, found, running, rfl⟩ := writes
          have clear := allowed trivial
          cases stage <;> exact .touches clear (by simp [found])
      | insertJob draft =>
          have clear := allowed trivial
          have absent : (before.world.jobs.slot job).visible pid = none := writes.1
          cases stage <;> exact .touches clear (by simp [absent])
      | _ => exact writes.elim
  | _ => exact writes.elim

theorem stage_unwritten (accounted : Tallies job before)
    (allowed : (stageProtocol job).allowed (stageOf job pid before.log) operation)
    (operated : World.operate pid operation before.world = some (reply, world))
    (unwritten : ∀ new, ¬ operation.Writes before.world job (before.world.jobs.visible pid job) new reply)
    (uncommitted : operation ≠ .commit) (opened : operation ≠ .rollback) :
    (stageOf job pid before.log).advance job operation reply = stageOf job pid before.log := by
  cases operation with
  | commit => exact absurd rfl uncommitted
  | rollback => exact absurd rfl opened
  | statement statement =>
      cases statement with
      | claimForRunning id =>
          generalize stageOf job pid before.log = stage
          cases stage with
          | unclaimed =>
              rw [RunStage.advance, if_neg]
              rintro ⟨rfl, rfl⟩
              obtain ⟨new, writes⟩ := claim_writes operated
              exact unwritten new writes
          | _ => rfl
      | updateStatus id write guard =>
          cases moved : stageOf job pid before.log with
          | running =>
              -- The row of a run is there, so its outcome is written.
              rw [RunStage.advance, if_neg]
              rintro rfl
              rw [moved] at allowed
              obtain rfl := (allowed rfl).2.2 rfl
              obtain ⟨stored, committed⟩ := (accounted.running pid moved).1
              obtain ⟨row, seen⟩ := Slot.visible_of_stored pid committed
              obtain ⟨jobs, updated, _⟩ := withJobs_eq operated
              rcases Table.update_cases updated with ⟨_, _, missed⟩ | ⟨changed, _⟩
              · rw [Table.slot_visible] at seen
                simpa using missed row seen
              · subst changed
                obtain ⟨new, writes⟩ := update_writes operated
                exact unwritten new writes
          | _ => rfl
      | _ => cases stageOf job pid before.log <;> rfl
  | _ => cases stageOf job pid before.log <;> rfl

theorem tallies_operate (reached : Escapable settings before) (tallies : Tallies job before)
    (found : before.process pid = some { role := task, program := .call operation next })
    (operated : World.operate pid operation before.world = some (reply, world)) :
    Tallies job (before.record pid task operation reply (next reply) world) := by
  have allowed : (stageProtocol job).allowed (stageOf job pid before.log) operation := stage_allowed reached found
  unfold Tallies
  rw [stageOf_record, Pool.record_log, Pool.record_world, lastChange_cons, runner_cons]
  rcases operate_slot operated job with ⟨new, writes, free, slot⟩ | ⟨rfl, slot⟩ | ⟨rfl, slot⟩ |
    ⟨unwritten, uncommitted, opened, slot⟩
  · have uncommitted : operation ≠ .commit := by
      rintro rfl
      exact writes
    rw [slot, changesStatus, startsRun, published_of_not_commit uncommitted]
    have written := written_of_allowed (Table.slot_visible ..).symm writes allowed
    exact Accounted.write tallies free written
  · rcases (before.world.jobs.slot job).commit_cases pid with ⟨row, held, equal⟩ | ⟨unheld, equal⟩
    · have statuses : published job ⟨pid, task, .commit, reply, before.world⟩ =
          (before.world.jobs.slot job).committed.map fun old => (old.status, row.status) := by
        unfold published
        rw [equal]
        cases (before.world.jobs.slot job).committed <;> rfl
      rw [slot, equal, changesStatus, startsRun, statuses, Option.any_map, Option.any_map]
      exact Accounted.commit tallies held
    · have kept := @published_of_kept job ⟨pid, task, .commit, reply, before.world⟩ equal
      rw [slot, equal, kept.1, kept.2]
      have idle := Accounted.unheld tallies unheld
      have same : (stageOf job pid before.log).advance job .commit reply = stageOf job pid before.log := by
        cases moved : stageOf job pid before.log with
        | claimed => exact absurd moved idle.1
        | settling => exact absurd moved idle.2
        | _ => rfl
      rw [same, Function.update_eq_self pid fun queried => stageOf job queried before.log]
      exact tallies
  · rw [slot, changesStatus, startsRun, published_of_not_commit (by simp)]
    rcases (before.world.jobs.slot job).rollback_cases pid with ⟨row, held, equal⟩ | ⟨unheld, equal⟩
    · rw [equal]
      exact Accounted.rollback tallies held
    · rw [equal]
      have idle := Accounted.unheld tallies unheld
      have same : (stageOf job pid before.log).advance job .rollback reply = stageOf job pid before.log := by
        cases moved : stageOf job pid before.log with
        | claimed => exact absurd moved idle.1
        | settling => exact absurd moved idle.2
        | _ => rfl
      rw [same, Function.update_eq_self pid fun queried => stageOf job queried before.log]
      exact tallies
  · rw [slot, changesStatus, startsRun, published_of_not_commit uncommitted]
    have same := stage_unwritten tallies allowed operated unwritten uncommitted opened
    rw [same, Function.update_eq_self pid fun queried => stageOf job queried before.log]
    exact tallies

theorem tallies_of_reaches (reached : Escapable settings pool) : Tallies job pool := by
  obtain ⟨outside, reached⟩ := reached
  refine reached.invariant (motive := Tallies job) ?_ ?_ ?_ ?_
  · exact Accounted.start
  · intro before pid task world _ tallies _ begun
    unfold Tallies
    rw [Pool.start_world, accept_jobs (begin_accepts begun)]
    exact tallies
  · exact fun before pid task operation next reply world earlier tallies found operated =>
      tallies_operate ⟨outside, earlier⟩ tallies found operated
  · intro before change world _ tallies changed
    unfold Tallies
    rw [change_slot changed]
    exact tallies

end Pools

/-- An `update_status` of the row that ends in DEAD_LETTER. -/
def deadLetters (job : Uuid) (entry : EscapeEntry) : Bool :=
  match entry with
  | ⟨_, _, .statement (.updateStatus id write _), changed, _⟩ =>
      id = job && write.status = .deadLetter && changed
  | _ => false

theorem update_of_deadLetters {job : Uuid} {entry : EscapeEntry} (dead : deadLetters job entry) :
    ∃ write guard, entry.operation = .statement (.updateStatus job write guard) := by
  unfold deadLetters at dead
  split at dead
  · simp only [Bool.and_eq_true, decide_eq_true_eq] at dead
    obtain ⟨⟨rfl, _⟩, _⟩ := dead
    exact ⟨_, _, rfl⟩
  · contradiction

def isRollback (entry : EscapeEntry) : Bool :=
  match entry.operation with
  | .rollback => true
  | _ => false

/-- The net of a delivery dead-letters the row, once its raise has rolled the
session back. -/
def NetDeadLetters (job : Uuid) (entry : EscapeEntry) (older : List EscapeEntry) : Prop :=
  entry.role.role.delivers job ∧ deadLetters job entry ∧
    older.any fun earlier => earlier.pid = entry.pid && isRollback earlier

/-- The row is RUNNING in the attempt that the process has claimed. -/
def FindsOwnRun (job : Uuid) (entry : EscapeEntry) (older : List EscapeEntry) : Prop :=
  ((entry.before.jobs.visible entry.pid job).any fun row => row.status = .running) ∧
    runner job older = some entry.pid

/-- The process has raised between the commits of its claim and of its outcome,
and since that claim nobody else has committed a change of the status. -/
def EscapesItsRun (job : Uuid) (entry : EscapeEntry) (older : List EscapeEntry) : Prop :=
  stageOf job entry.pid older = .running ∧ lastChange job older = some entry.pid

section Decide

variable (job : Uuid) (entry : EscapeEntry) (older : List EscapeEntry)

instance : Decidable (NetDeadLetters job entry older) := inferInstanceAs (Decidable (_ ∧ _ ∧ _))

instance : Decidable (FindsOwnRun job entry older) := inferInstanceAs (Decidable (_ ∧ _))

instance : Decidable (EscapesItsRun job entry older) := inferInstanceAs (Decidable (_ ∧ _))

end Decide

/-- In every run, the net dead-letters a row that is RUNNING in the attempt of its
own delivery exactly where that delivery has escaped its run undisturbed. -/
theorem net_finds_own_run_iff {job : Uuid} {settings : Settings} {pool : EscapePool} {entry : EscapeEntry}
    {newer older : List EscapeEntry} (reached : Escapable settings pool)
    (split : pool.log = newer ++ entry :: older) (net : NetDeadLetters job entry older) :
    FindsOwnRun job entry older ↔ EscapesItsRun job entry older := by
  obtain ⟨outside, reached⟩ := reached
  obtain ⟨before, next, world, rfl, moment⟩ := reached.moment_at rfl split
  have tallies : Tallies job before := tallies_of_reaches ⟨outside, moment.earlier⟩
  have allowed : (stageProtocol job).allowed (stageOf job entry.pid before.log) entry.operation :=
    stage_allowed ⟨outside, moment.earlier⟩ moment.stood
  obtain ⟨write, guard, updates⟩ := update_of_deadLetters net.2.1
  unfold FindsOwnRun EscapesItsRun
  rw [moment.scene, ← Table.slot_visible]
  constructor
  · rintro ⟨finds, ran⟩
    obtain ⟨row, seen, running⟩ := (Option.any_eq_true ..).mp finds
    rw [decide_eq_true_eq] at running
    have runs : Runs (before.world.jobs.slot job) := by
      intro old stored
      rcases Slot.visible_cases seen with held | committed
      · by_contra stopped
        have claimed := tallies.starts entry.pid old row stored stopped held running
        rw [updates] at allowed
        exact (allowed rfl).1 claimed
      · rw [stored] at committed
        cases committed
        exact running
    refine ⟨(tallies.run entry.pid ran runs).resolve_right ?_, (tallies.agree runs).trans ran⟩
    -- An outcome that is written and not committed is what its process sees.
    intro settling
    obtain ⟨_, version, held, outcome⟩ := tallies.settling entry.pid settling
    rw [Slot.visible_of_held held] at seen
    cases seen
    exact outcome running
  · rintro ⟨running, last⟩
    obtain ⟨⟨row, stored⟩, unheld⟩ := tallies.running entry.pid running
    have runs := tallies.change entry.pid last (.inl running)
    rw [Slot.visible_of_free unheld, stored]
    exact ⟨by simpa using runs row stored, (tallies.agree runs).symm.trans last⟩

def submittedOnce : List (Label Task Change) :=
  [.spawn 1 (.completes (.createJob { userId := 7, tenantId := 8, jobType := "csv_upload" }))] ++
  .replicate 4 (.run 1) ++ [.spawn 2 (.completes .outboxRelay)] ++ .replicate 6 (.run 2)

def escapedAtStart : List (Label Task Change) :=
  submittedOnce ++ [.spawn 3 (.raises (.deliver 1) 5 "broker down" 9)] ++ .replicate 8 (.run 3)

/-- Its processor raises, the retry is committed and queued, and the metric that
counts it raises. -/
def escapedAfterRetry : List (Label Task Change) :=
  submittedOnce ++ [.environment (.outside (readings 2 (.raised "bad row"))),
    .spawn 3 (.raises (.deliver 1) 99 "metrics down" 9)] ++ .replicate 15 (.run 3)

theorem exists_net {labels : List (Label Task Change)} {check : EscapeEntry → List EscapeEntry → Bool}
    (passes : (((escaping .defaults).run labels (.initial (.fresh (readings 1 .timedOut)))).any fun pool =>
      match pool.log with
      | entry :: older => decide (NetDeadLetters 1 entry older) && check entry older
      | [] => false) = true) :
    ∃ pool entry older, Escapable .defaults pool ∧ pool.log = [] ++ entry :: older ∧
      NetDeadLetters 1 entry older ∧ check entry older = true := by
  obtain ⟨pool, reached, checked⟩ := System.exists_reached passes
  split at checked
  · rename_i entry older logged
    rw [Bool.and_eq_true, decide_eq_true_eq] at checked
    exact ⟨pool, entry, older, ⟨_, reached⟩, logged, checked⟩
  · contradiction

theorem net_finds_own_run_at_start : ∃ pool entry older, Escapable .defaults pool ∧
    pool.log = [] ++ entry :: older ∧ NetDeadLetters 1 entry older ∧ EscapesItsRun 1 entry older ∧
      (FindsOwnRun 1 entry older ↔ EscapesItsRun 1 entry older) := by
  obtain ⟨pool, entry, older, reached, logged, net, escapes⟩ := @exists_net escapedAtStart
    (fun entry older => decide (EscapesItsRun 1 entry older)) (by decide +kernel)
  exact ⟨pool, entry, older, reached, logged, net, of_decide_eq_true escapes,
    net_finds_own_run_iff reached logged net⟩

theorem net_overwrites_retry : ¬ ∀ (pool : EscapePool) (entry : EscapeEntry) (newer older : List EscapeEntry),
    Escapable .defaults pool → pool.log = newer ++ entry :: older → NetDeadLetters 1 entry older →
      FindsOwnRun 1 entry older := by
  intro own
  obtain ⟨pool, entry, older, reached, logged, net, lost⟩ := @exists_net escapedAfterRetry
    (fun entry older => decide (¬ FindsOwnRun 1 entry older ∧
      (entry.before.jobs.visible entry.pid 1).any fun row =>
        row.status = .pending && row.retryCount < row.maxAttempts)) (by decide +kernel)
  exact (of_decide_eq_true lost).1 (own pool entry [] older reached logged net)

end IncidentPlatform.Properties

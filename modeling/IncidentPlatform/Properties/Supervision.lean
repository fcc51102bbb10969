import IncidentPlatform.Workers.ConsumerSupervisor

namespace IncidentPlatform.Properties

open Concurrency Workers ConsumerSupervisor

/-! # When a supervisor ends

`run` leaves its loop for a stop, a chaos kill or a cancellation, and the
supervisor tells the three apart by two flags.  What the flags mean is the
invariant; a cancellation from below is the one exit they cannot explain.
-/

variable {chaosEnabled : Bool} {supervisor after : ConsumerSupervisor}

/-- The supervisor ends only if the consumer was stopped or its task cancelled. -/
def EndsOnRequest (supervisor : ConsumerSupervisor) : Prop :=
  supervisor.phase = .ended → supervisor.stopCalled = true ∨ supervisor.taskCancelled = true

def restarting : SupervisorPhase → Bool
  | .stopping | .starting | .backingOff => true
  | _ => false

def RestartsCleared (supervisor : ConsumerSupervisor) : Prop :=
  restarting supervisor.phase = true → supervisor.killStanding = false

/-- An await is cancelled from inside only once the consumer was stopped or the
task cancelled. -/
def cancelledOnRequest (supervisor : ConsumerSupervisor) : Action → Bool
  | .resume .cancelled => supervisor.stopCalled || supervisor.taskCancelled
  | _ => true

def inRun : SupervisorPhase → Bool
  | .checkingKill | .checkingLatency | .delaying | .fetching | .processing
  | .pausingAfterFailure | .pausingAfterError => true
  | _ => false

/-- What the flags of the consumer say in each part of the call tree. -/
structure FlagsAgree (supervisor : ConsumerSupervisor) : Prop where
  stopped : inRun supervisor.phase = true → supervisor.running = false → supervisor.stopCalled = true
  unkilled : inRun supervisor.phase = true → supervisor.chaosKilled = false
  window : supervisor.killStanding = true → supervisor.phase = .lookingUpKill ∨
    supervisor.phase = .pausingInKillWindow ∨ supervisor.phase = .ended

def outsideWindow : SupervisorPhase → Bool
  | .lookingUpKill | .pausingInKillWindow | .ended => false
  | _ => true

theorem FlagsAgree.cleared (agree : FlagsAgree supervisor)
    (outside : outsideWindow supervisor.phase = true) : supervisor.killStanding = false := by
  cases standing : supervisor.killStanding with
  | false => rfl
  | true =>
      obtain phase | phase | phase := agree.window standing <;>
        rw [phase] at outside <;> contradiction

theorem FlagsAgree.restartsCleared (agree : FlagsAgree supervisor) : RestartsCleared supervisor := by
  intro restarts
  refine agree.cleared ?_
  cases phase : supervisor.phase <;> rw [phase] at restarts <;> first | rfl | contradiction

theorem runReturned_agrees : FlagsAgree supervisor.runReturned := by
  unfold runReturned
  split <;> constructor <;> simp [inRun]

theorem unwind_agrees : FlagsAgree supervisor.unwind := by
  unfold unwind
  split
  · exact runReturned_agrees
  · exact runReturned_agrees
  · exact runReturned_agrees
  · constructor <;> simp [inRun]

theorem enterLoop_agrees (unkilled : supervisor.chaosKilled = false)
    (cleared : supervisor.killStanding = false) :
    FlagsAgree (supervisor.enterLoop chaosEnabled) := by
  unfold enterLoop
  split
  · rename_i running
    constructor <;> simp [running, unkilled, cleared]
  · exact runReturned_agrees

theorem enterRun_agrees (unkilled : supervisor.chaosKilled = false)
    (cleared : supervisor.killStanding = false) :
    FlagsAgree (supervisor.enterRun chaosEnabled) := by
  unfold enterRun
  split
  · exact enterLoop_agrees unkilled cleared
  · constructor <;> simp [inRun, cleared]

theorem beginRestart_agrees (cleared : supervisor.killStanding = false) :
    FlagsAgree supervisor.beginRestart := by
  constructor <;> simp [beginRestart, inRun, cleared]

/-- Everything an await that was not cancelled leads to. -/
inductive Advances (chaosEnabled : Bool) (supervisor : ConsumerSupervisor) :
    ConsumerSupervisor → Prop where
  | killed (keys : ChaosKeys) (running : inRun supervisor.phase = true) :
      Advances chaosEnabled supervisor
        { supervisor with keys, chaosKilled := true, killStanding := true }.runReturned
  | looped (running : inRun supervisor.phase = true) :
      Advances chaosEnabled supervisor (supervisor.enterLoop chaosEnabled)
  | moved (keys : ChaosKeys) (next : SupervisorPhase) (running : inRun supervisor.phase = true)
      (runs : inRun next = true) : Advances chaosEnabled supervisor { supervisor with keys, phase := next }
  | left (client : Bool) (next : SupervisorPhase) (outside : outsideWindow supervisor.phase = true)
      (leaves : inRun next = false) (unended : next ≠ .ended) :
      Advances chaosEnabled supervisor { supervisor with client, phase := next }
  | restarted (outside : outsideWindow supervisor.phase = true) :
      Advances chaosEnabled supervisor supervisor.beginRestart
  | started (outside : outsideWindow supervisor.phase = true) :
      Advances chaosEnabled supervisor
        ({ supervisor with client := true, running := true, chaosKilled := false }.enterRun chaosEnabled)
  | waited (keys : ChaosKeys) (next : SupervisorPhase)
      (window : next = .lookingUpKill ∨ next = .pausingInKillWindow) :
      Advances chaosEnabled supervisor { supervisor with keys, phase := next }
  | released (keys : ChaosKeys) :
      Advances chaosEnabled supervisor { supervisor with keys, killStanding := false }.beginRestart

theorem advances_of_advance {outcome : AwaitOutcome}
    (advanced : supervisor.advance chaosEnabled supervisor.phase outcome = some after) :
    supervisor.phase ≠ .ended ∧
      (outcome = .cancelled ∧ after = supervisor.unwind ∨
        outcome ≠ .cancelled ∧ Advances chaosEnabled supervisor after) := by
  cases phase : supervisor.phase <;> cases outcome <;> rw [phase] at advanced <;>
    simp only [advance] at advanced
  all_goals first
    | contradiction
    | (cases advanced; exact ⟨nofun, .inl ⟨rfl, rfl⟩⟩)
    | skip
  all_goals refine ⟨nofun, .inr ⟨nofun, ?_⟩⟩
  all_goals (repeat' split at advanced)
  all_goals first
    | contradiction
    | (cases advanced; exact .looped (by rw [phase]; rfl))
    | (cases advanced; exact .restarted (by rw [phase]; rfl))
    | (cases advanced; exact .started (by rw [phase]; rfl))
    | (cases advanced; exact .moved _ _ (by rw [phase]; rfl) rfl)
    | (cases advanced; exact .left _ _ (by rw [phase]; rfl) rfl nofun)
    | (cases advanced; exact .killed _ (by rw [phase]; rfl))
    | (cases advanced; exact .waited _ _ (by simp))
    | (cases advanced; exact .released _)

theorem outsideWindow_of_inRun {phase : SupervisorPhase} (running : inRun phase = true) :
    outsideWindow phase = true := by
  cases phase <;> first | rfl | contradiction

theorem FlagsAgree.advances (agree : FlagsAgree supervisor)
    (advances : Advances chaosEnabled supervisor after) : FlagsAgree after := by
  cases advances with
  | killed keys running => exact runReturned_agrees
  | looped running =>
      exact enterLoop_agrees (agree.unkilled running) (agree.cleared (outsideWindow_of_inRun running))
  | moved keys next running runs =>
      have cleared := agree.cleared (outsideWindow_of_inRun running)
      exact ⟨fun _ => agree.stopped running, fun _ => agree.unkilled running, by simp [cleared]⟩
  | left client next outside leaves =>
      have cleared := agree.cleared outside
      exact ⟨by simp [leaves], by simp [leaves], by simp [cleared]⟩
  | restarted outside => exact beginRestart_agrees (agree.cleared outside)
  | started outside => exact enterRun_agrees rfl (agree.cleared outside)
  | waited keys next window =>
      obtain rfl | rfl := window
      · exact ⟨nofun, nofun, fun _ => .inl rfl⟩
      · exact ⟨nofun, nofun, fun _ => .inr (.inl rfl)⟩
  | released keys => exact beginRestart_agrees rfl

theorem EndsOnRequest.advances (agree : FlagsAgree supervisor)
    (advances : Advances chaosEnabled supervisor after) : EndsOnRequest after := by
  cases advances with
  | killed keys running => simp [EndsOnRequest, runReturned]
  | looped running =>
      intro ended
      by_cases runs : supervisor.running = true
      · simp only [enterLoop, runs, ↓reduceIte] at ended
        split at ended <;> contradiction
      · have stopped := agree.stopped running (Bool.not_eq_true _ ▸ runs)
        left
        simp [enterLoop, runs, runReturned, agree.unkilled running, stopped]
  | moved keys next running runs =>
      rintro rfl
      contradiction
  | left client next outside leaves unended => exact fun ended => absurd ended unended
  | restarted outside => exact nofun
  | started outside =>
      intro ended
      simp only [enterRun, enterLoop, ↓reduceIte] at ended
      split at ended <;> contradiction
  | waited keys next window =>
      obtain rfl | rfl := window
      · exact nofun
      · exact nofun
  | released keys => exact nofun

theorem FlagsAgree.unwind_ended (agree : FlagsAgree supervisor) :
    supervisor.unwind.phase = .ended := by
  unfold unwind
  split <;> first | rfl | skip
  all_goals
    rename_i phase
    have unkilled := agree.unkilled (by rw [phase]; rfl)
    simp [runReturned, unkilled]

@[simp] theorem runReturned_stopCalled :
    supervisor.runReturned.stopCalled = supervisor.stopCalled := by
  unfold runReturned
  split <;> rfl

@[simp] theorem runReturned_taskCancelled :
    supervisor.runReturned.taskCancelled = supervisor.taskCancelled := by
  unfold runReturned
  split <;> rfl

theorem unwind_stopCalled : supervisor.unwind.stopCalled = supervisor.stopCalled := by
  unfold unwind
  split <;> simp

theorem unwind_taskCancelled : supervisor.unwind.taskCancelled = supervisor.taskCancelled := by
  unfold unwind
  split <;> simp

theorem FlagsAgree.step (agree : FlagsAgree supervisor) {action : Action}
    (stepped : ConsumerSupervisor.step chaosEnabled action supervisor = some after) :
    FlagsAgree after := by
  cases action with
  | resume outcome =>
      obtain ⟨_, ⟨_, rfl⟩ | ⟨_, advances⟩⟩ := advances_of_advance stepped
      · exact unwind_agrees
      · exact agree.advances advances
  | cancelTask =>
      simp only [ConsumerSupervisor.step] at stepped
      split at stepped
      · contradiction
      · cases stepped
        have agrees : FlagsAgree supervisor.unwind := unwind_agrees
        exact ⟨agrees.stopped, agrees.unkilled, agrees.window⟩
  | stop =>
      cases stepped
      exact ⟨fun _ _ => rfl, agree.unkilled, agree.window⟩
  | stopReturns =>
      simp only [ConsumerSupervisor.step] at stepped
      split at stepped
      · cases stepped
        exact ⟨agree.stopped, agree.unkilled, agree.window⟩
      · contradiction
  | chaos keys =>
      cases stepped
      exact ⟨agree.stopped, agree.unkilled, agree.window⟩

theorem EndsOnRequest.step_iff (agree : FlagsAgree supervisor) (ends : EndsOnRequest supervisor)
    {action : Action}
    (stepped : ConsumerSupervisor.step chaosEnabled action supervisor = some after) :
    EndsOnRequest after ↔ cancelledOnRequest supervisor action = true := by
  cases action with
  | resume outcome =>
      obtain ⟨_, ⟨rfl, rfl⟩ | ⟨uncancelled, advances⟩⟩ := advances_of_advance stepped
      · simp [EndsOnRequest, cancelledOnRequest, agree.unwind_ended, unwind_stopCalled,
          unwind_taskCancelled]
      · refine iff_of_true (EndsOnRequest.advances agree advances) ?_
        cases outcome <;> first | rfl | contradiction
  | cancelTask =>
      refine iff_of_true ?_ rfl
      simp only [ConsumerSupervisor.step] at stepped
      split at stepped
      · contradiction
      · cases stepped
        exact fun _ => .inr rfl
  | stop =>
      cases stepped
      exact iff_of_true (fun _ => .inl rfl) rfl
  | stopReturns =>
      simp only [ConsumerSupervisor.step] at stepped
      split at stepped
      · cases stepped
        exact iff_of_true ends rfl
      · contradiction
  | chaos keys =>
      cases stepped
      exact iff_of_true ends rfl

theorem EndsOnRequest.step_with_flags_iff {action : Action}
    (kept : FlagsAgree supervisor ∧ EndsOnRequest supervisor)
    (stepped : ConsumerSupervisor.step chaosEnabled action supervisor = some after) :
    FlagsAgree after ∧ EndsOnRequest after ↔ cancelledOnRequest supervisor action = true := by
  rw [← EndsOnRequest.step_iff kept.1 kept.2 stepped]
  exact and_iff_right (kept.1.step stepped)

theorem initial_agrees (started : Bool) (keys : ChaosKeys) :
    FlagsAgree (ConsumerSupervisor.initial chaosEnabled started keys) := by
  unfold ConsumerSupervisor.initial
  simp only
  split
  · exact enterRun_agrees (by rfl) (by rfl)
  · exact beginRestart_agrees (by rfl)

theorem initial_endsOnRequest (started : Bool) (keys : ChaosKeys) :
    EndsOnRequest (ConsumerSupervisor.initial chaosEnabled started keys) := by
  cases started <;> cases chaosEnabled <;> exact nofun

/-- A run has supervisors end only on request, and restart a killed consumer only
after a lookup that saw the kill gone, exactly if no await of it is cancelled from
inside before such a request. -/
theorem supervisor_ends_on_request_iff {started : Bool} {keys : ChaosKeys}
    {steps : List (ConsumerSupervisor × Action)} {last : ConsumerSupervisor}
    (ran : (ConsumerSupervisor.machine chaosEnabled started keys).Run steps last) :
    (∀ supervisor ∈ Machine.visited steps last, EndsOnRequest supervisor ∧ RestartsCleared supervisor) ↔
      ∀ taken ∈ steps, cancelledOnRequest taken.1 taken.2 = true := by
  have agree : ∀ supervisor ∈ Machine.visited steps last, FlagsAgree supervisor :=
    ran.everywhere (initial_agrees started keys) fun agree stepped => agree.step stepped
  have exactly : (∀ supervisor ∈ Machine.visited steps last,
      FlagsAgree supervisor ∧ EndsOnRequest supervisor) ↔
        ∀ taken ∈ steps, cancelledOnRequest taken.1 taken.2 = true :=
    ran.always_iff ⟨initial_agrees started keys, initial_endsOnRequest started keys⟩
      EndsOnRequest.step_with_flags_iff
  rw [← exactly]
  constructor
  · exact fun good supervisor member => ⟨agree supervisor member, (good supervisor member).1⟩
  · exact fun good supervisor member =>
      ⟨(good supervisor member).2, (good supervisor member).1.restartsCleared⟩

/-- A boot that fails once, a chaos kill, a lookup that fails, one that sees the
kill and one that sees it gone, and an orderly stop. -/
theorem supervisor_ends_on_request_after_kill :
    ∃ steps last, (ConsumerSupervisor.machine true false ⟨false, none, 0⟩).Run steps last ∧
      last.phase = .ended ∧
      ∀ supervisor ∈ Machine.visited steps last,
        EndsOnRequest supervisor ∧ RestartsCleared supervisor := by
  obtain ⟨steps, last, ran, checked⟩ :
      ∃ steps last, (ConsumerSupervisor.machine true false ⟨false, none, 0⟩).Run steps last ∧
        (decide (last.phase = .ended) && steps.all fun taken => cancelledOnRequest taken.1 taken.2) = true :=
    Machine.exists_run
      [.resume (.returns false), .resume .raises, .resume (.returns false), .resume (.returns false),
        .resume (.returns false), .chaos ⟨true, some 9, 1⟩, .resume (.returns false),
        .resume .raises, .resume (.returns false), .chaos ⟨false, some 9, 2⟩,
        .resume (.returns false), .resume (.returns false), .chaos ⟨false, none, 9⟩,
        .resume (.returns false), .resume (.returns false), .resume (.returns false),
        .resume (.returns false), .resume (.returns false), .stop, .resume .timesOut]
      (by decide +kernel)
  simp only [Bool.and_eq_true, decide_eq_true_eq, List.all_eq_true] at checked
  exact ⟨steps, last, ran, checked.1, (supervisor_ends_on_request_iff ran).mpr checked.2⟩

/-- `getmany` is cancelled from inside while nothing else is, and the supervisor
returns. -/
theorem supervisor_ends_on_inner_cancellation :
    ¬ ∀ chaosEnabled started keys steps last,
      (ConsumerSupervisor.machine chaosEnabled started keys).Run steps last →
        ∀ supervisor ∈ Machine.visited steps last,
          EndsOnRequest supervisor ∧ RestartsCleared supervisor := by
  intro claimed
  obtain ⟨steps, last, ran, checked⟩ :
      ∃ steps last, (ConsumerSupervisor.machine false false ⟨false, none, 0⟩).Run steps last ∧
        (decide (last.phase = .ended) && !last.stopCalled && !last.taskCancelled) = true :=
    Machine.exists_run
      [.resume (.returns false), .resume (.returns false), .resume .cancelled] (by decide +kernel)
  simp only [Bool.and_eq_true, decide_eq_true_eq, Bool.not_eq_true'] at checked
  have requested := (claimed _ _ _ _ _ ran last List.mem_cons_self).1 checked.1.1
  simp [checked.1.2, checked.2] at requested

end IncidentPlatform.Properties

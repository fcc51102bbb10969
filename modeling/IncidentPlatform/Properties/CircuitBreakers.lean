import IncidentPlatform.Core.BreakerSteps

namespace IncidentPlatform.Properties

open Concurrency IncidentPlatform.Core Models

/-! # Probes of a circuit breaker

A breaker goes HALF_OPEN for one probe, and only an outcome moves it on.  What a
task brings back is applied to whatever state the breaker is in by then.
-/

variable {config : BreakerId → BreakerConfig} {before after breakers : Breakers} {label : BreakerAction}
  {task : TaskId} {id other : BreakerId} {breaker : Breaker} {first phase : TaskPhase}
  {store : BreakerStore}

/-- The task is a call that `id` let in and that has not brought an outcome yet. -/
def admittedTo (id : BreakerId) : TaskPhase → Bool
  | .running owner _ | .recording owner .probe _ => owner = id
  | _ => false

def probing (id : BreakerId) : TaskPhase → Bool
  | .running owner true | .recording owner .probe _ => owner = id
  | _ => false

theorem admitted_of_probing (probe : probing id phase = true) : admittedTo id phase = true := by
  unfold probing at probe
  split at probe
  · exact probe
  · exact probe
  · cases probe

theorem probe_owned (stepped : TaskStep config before task label first id breaker phase store)
    (probe : probing other first = true) : other = id := by
  have owner : first.owner = some other := by
    unfold probing at probe
    split at probe
    · rw [← of_decide_eq_true probe]
      rfl
    · rw [← of_decide_eq_true probe]
      rfl
    · cases probe
  cases stepped with
  | cancelled owned => exact Option.some.inj (owner.symm.trans owned)
  | ask => cases owner
  | enter => cases owner
  | refresh => cases owner
  | _ => exact (Option.some.inj owner).symm

/-- A task that starts to probe finds the breaker OPEN and leaves it HALF_OPEN;
one that goes on probing leaves the state alone or honours a reset. -/
theorem probe_step (stepped : TaskStep config before task label first id breaker phase store)
    (probe : probing other phase = true) : other = id ∧
      (probing id first = true ∧
          (breaker.state = (before.breaker id).state ∨ breaker.state = .closed) ∨
        (before.breaker id).state = .open ∧ breaker.state = .halfOpen) := by
  have owned : ∀ {purpose stage}, probing other (.recording id purpose stage) = true →
      other = id ∧ purpose = .probe := by
    intro purpose stage held
    cases purpose <;> simp_all [probing]
  cases stepped with
  | recordAnswer =>
      obtain ⟨rfl, rfl⟩ := owned probe
      exact ⟨rfl, .inl ⟨by simp [probing], .inl rfl⟩⟩
  | honoured =>
      obtain ⟨rfl, rfl⟩ := owned probe
      exact ⟨rfl, .inl ⟨by simp [probing], Breaker.honourReset_state _⟩⟩
  | @published _ purpose record reached =>
      cases purpose with
      | probe =>
          have same : id = other := of_decide_eq_true probe
          exact ⟨same.symm, .inl ⟨by simp [probing], .inl rfl⟩⟩
      | _ => cases probe
  | @probe _ signal opened =>
      obtain ⟨rfl, _⟩ := owned probe
      refine ⟨rfl, .inr ⟨?_, Breaker.setState_state ..⟩⟩
      rcases @Breaker.honourReset_state (before.breaker other) signal with same | closed
      · exact same ▸ opened
      · rw [closed] at opened
        cases opened
  | refresh =>
      obtain ⟨_, absurd⟩ := owned probe
      cases absurd
  | undone =>
      obtain ⟨_, absurd⟩ := owned probe
      cases absurd
  | returned next =>
      rcases next with rfl | rfl
      · obtain ⟨_, absurd⟩ := owned probe
        cases absurd
      · cases probe
  | raised next =>
      rcases next with rfl | rfl
      · obtain ⟨_, absurd⟩ := owned probe
        cases absurd
      · cases probe
  | _ => cases probe

/-- No probe is cancelled while the breaker waits for its outcome. -/
def probesEnd (breakers : Breakers) : BreakerAction → Bool
  | .cancel task =>
      match breakers.task task with
      | .running id true | .recording id .probe _ => (breakers.breaker id).state ≠ .halfOpen
      | _ => true
  | _ => true

def Awaited (breakers : Breakers) : Prop :=
  ∀ id, (breakers.breaker id).state = .halfOpen → ∃ task, probing id (breakers.task task) = true

theorem halfOpen_step (stepped : TaskStep config before task label first id breaker phase store)
    (halfOpen : breaker.state = .halfOpen) : probing id phase = true ∨
      (before.breaker id).state = .halfOpen ∧ (probing id first = true → label = .cancel task) := by
  have honoured : ∀ {signal}, ((before.breaker id).honourReset signal).state = .halfOpen →
      (before.breaker id).state = .halfOpen := by
    intro signal held
    rcases @Breaker.honourReset_state (before.breaker id) signal with same | closed
    · exact same ▸ held
    · rw [closed] at held
      cases held
  cases stepped with
  | recordAnswer =>
      rename_i purpose reached
      cases purpose with
      | probe => exact .inl (by simp [probing])
      | _ => exact .inr ⟨halfOpen, fun absurd => by cases absurd⟩
  | honoured =>
      rename_i purpose signal
      cases purpose with
      | probe => exact .inl (by simp [probing])
      | _ => exact .inr ⟨honoured halfOpen, fun absurd => by cases absurd⟩
  | published =>
      rename_i purpose record reached
      cases purpose with
      | probe => exact .inl (by simp [probing, Breakers.afterRecord])
      | _ => exact .inr ⟨halfOpen, fun absurd => by cases absurd⟩
  | probe => exact .inl (by simp [probing])
  | refused => exact .inr ⟨honoured halfOpen, fun absurd => by cases absurd⟩
  | call => exact .inr ⟨honoured halfOpen, fun absurd => by cases absurd⟩
  | returned =>
      rw [Breaker.onSuccess_state] at halfOpen
      cases halfOpen
  | raised => exact absurd halfOpen (Breaker.onFailure_ne_halfOpen _ _)
  | undone =>
      rw [Breaker.undoProbe_state] at halfOpen
      cases halfOpen
  | cancelled => exact .inr ⟨halfOpen, fun _ => rfl⟩
  | _ => exact .inr ⟨halfOpen, fun absurd => by cases absurd⟩

theorem Awaited.step (awaited : Awaited before) (ends : probesEnd before label = true)
    (stepped : Breakers.step config label before = some after) : Awaited after := by
  rcases breakers_step_cases stepped with ⟨_, _, rfl, rfl⟩ | ⟨_, rfl, _, rfl⟩ |
    ⟨_, _, _, _, _, rfl, _, rfl⟩ | ⟨task, id, breaker, phase, store, moved, rfl⟩
  · exact awaited
  · exact awaited
  · exact awaited
  · intro other halfOpen
    -- A probe of `other` that this step leaves alone is still out.
    have kept : ∀ probe, probe ≠ task → probing other (before.task probe) = true →
        ∃ last, probing other ((before.moved task id breaker phase store).task last) = true := by
      intro probe different held
      exact ⟨probe, by rw [moved_task_other different]; exact held⟩
    by_cases same : other = id
    · subst same
      rw [moved_breaker_self] at halfOpen
      rcases halfOpen_step moved halfOpen with probe | ⟨earlier, cancelled⟩
      · exact ⟨task, by rw [moved_task_self]; exact probe⟩
      · obtain ⟨probe, held⟩ := awaited other earlier
        by_cases own : probe = task
        · subst own
          cases cancelled held
          simp only [probesEnd] at ends
          unfold probing at held
          split at ends
          · rename_i owner running
            rw [running] at held
            rw [of_decide_eq_true held] at ends
            exact absurd earlier (of_decide_eq_true ends)
          · rename_i owner stage recording
            rw [recording] at held
            rw [of_decide_eq_true held] at ends
            exact absurd earlier (of_decide_eq_true ends)
          · rename_i notRunning notRecording
            split at held
            · exact absurd ‹_› (notRunning _)
            · exact absurd ‹_› (notRecording _ _)
            · cases held
        · exact kept probe own held
    · rw [moved_breaker_other same] at halfOpen
      obtain ⟨probe, held⟩ := awaited other halfOpen
      refine kept probe (fun own => ?_) held
      subst own
      exact same (probe_owned moved held)

/-- The label is the clock's or one of `task`'s own. -/
def callerOnly (task : TaskId) : BreakerAction → Bool
  | .pass _ _ => true
  | label => label.task = some task

/-- A caller is let in again: it takes time and the caller's own steps only. -/
def Admits (config : BreakerId → BreakerConfig) (breakers : Breakers) (id : BreakerId) : Prop :=
  ∀ task, breakers.task task = .idle → ∃ steps last,
    (circuitBreakers config).Segment breakers steps last ∧
      (∀ taken ∈ steps, callerOnly task taken.2 = true) ∧ admittedTo id (last.task task) = true

/-- A breaker with no admitted call in progress is CLOSED or OPEN, and lets a
caller in again. -/
def NotStranded (config : BreakerId → BreakerConfig) (breakers : Breakers) : Prop :=
  ∀ id, (∀ task, admittedTo id (breakers.task task) = false) →
    ((breakers.breaker id).state = .closed ∨ (breakers.breaker id).state = .open) ∧
      Admits config breakers id

theorem admits_of_closed (closed : (breakers.breaker id).state = .closed) : Admits config breakers id := by
  intro task idle
  refine ⟨[(breakers, .call task id)], breakers.setTask task (.running id false), .step .start ?_, ?_, ?_⟩
  · change Breakers.step config (.call task id) breakers = _
    simp [Breakers.step, idle, closed, Breakers.admission, Breaker.letIn]
  · intro taken member
    rw [List.mem_singleton.mp member]
    simp [callerOnly, BreakerAction.task]
  · simp [Breakers.setTask, admittedTo]

theorem admits_of_open (opened : (breakers.breaker id).state = .open) : Admits config breakers id := by
  intro task idle
  -- The caller comes after the recovery timeout, and its GET fails.
  let elapsed := (config id).recoveryTimeout + (breakers.breaker id).openedAt.getD 0
  let waited := { breakers with clock := breakers.clock + 0, monotonic := breakers.monotonic + elapsed }
  let asking := waited.setTask task (.asking id)
  let asked := asking.setTask task (.asked id none)
  have self : asked.task task = .asked id none := if_pos rfl
  have passed : (circuitBreakers config).step (.pass 0 elapsed) breakers = some waited := rfl
  have called : (circuitBreakers config).step (.call task id) waited = some asking := by
    change Breakers.step config (.call task id) waited = _
    have tripped : (waited.breaker id).state ≠ .closed := by
      rw [show waited.breaker id = breakers.breaker id from rfl, opened]
      simp
    have free : waited.task task = .idle := idle
    simp only [Breakers.step, free, if_neg tripped]
    rfl
  have answered : (circuitBreakers config).step (.get task false) asking = some asked := by
    have phase : asking.task task = .asking id := if_pos rfl
    change Breakers.step config (.get task false) asking = _
    simp only [Breakers.step, phase]
    rfl
  obtain ⟨last, resumed⟩ : ∃ last, (circuitBreakers config).step (.resume task) asked = some last := by
    change ∃ last, Breakers.step config (.resume task) asked = some last
    simp [Breakers.step, self, Breakers.resume]
  refine ⟨_, last, (((Machine.Segment.start.step passed).step called).step answered).step resumed, ?_, ?_⟩
  · intro taken member
    simp only [List.mem_cons, List.not_mem_nil, or_false] at member
    rcases member with rfl | rfl | rfl | rfl <;> simp [callerOnly, BreakerAction.task]
  · change Breakers.step config (.resume task) asked = some last at resumed
    simp only [Breakers.step, self, Breakers.resume, Option.some.injEq] at resumed
    have long : (config id).recoveryTimeout ≤
        asked.monotonic - (breakers.breaker id).openedAt.getD 0 := by
      exact Nat.le_sub_of_add_le (Nat.le_add_left _ _)
    have probed : last = (asked.setBreaker id { (breakers.breaker id).setState asked.clock .halfOpen with
        probeInFlight := true }).setTask task (.recording id .probe .asking) := by
      rw [← resumed]
      have current : asked.setBreaker id ((asked.breaker id).honourReset none) = asked :=
        setBreaker_self
      have here : asked.breaker id = breakers.breaker id := rfl
      rw [current]
      simp only [Breakers.admission, Breaker.letIn, here, opened, if_pos long]
      exact record_changed ..
    rw [probed]
    simp [Breakers.setTask, admittedTo]

theorem half_open_not_stranded {steps : List (Breakers × BreakerAction)} {last : Breakers}
    (ran : (circuitBreakers config).Run steps last)
    (ends : ∀ taken ∈ steps, probesEnd taken.1 taken.2 = true) :
    ∀ breakers ∈ Machine.visited steps last, NotStranded config breakers := by
  have awaited := @Machine.Run.always _ _ _ _ _ (fun before label => probesEnd before label = true) Awaited ran
    (fun id halfOpen => by cases halfOpen) (fun earlier permitted stepped => earlier.step permitted stepped)
    ends
  intro breakers member id none
  have settled : (breakers.breaker id).state ≠ .halfOpen := by
    intro halfOpen
    obtain ⟨task, probe⟩ := awaited breakers member id halfOpen
    have admitted := admitted_of_probing probe
    rw [none task] at admitted
    cases admitted
  cases current : (breakers.breaker id).state with
  | closed => exact ⟨.inl rfl, admits_of_closed current⟩
  | «open» => exact ⟨.inr rfl, admits_of_open current⟩
  | halfOpen => exact absurd current settled

/-- The breaker of `bulk_api_sync`. -/
def bulkApi : BreakerId → BreakerConfig := fun _ => { name := "bulk-api-sync", failureThreshold := 3 }

/-- Three failures open it, while a fourth call is still out, and the recovery
timeout passes. -/
def opened : List BreakerAction :=
  [.call 0 0, .call 1 0, .call 2 0, .call 3 0, .finish 0 (.raises .other), .finish 1 (.raises .other),
    .finish 2 (.raises .timeout), .pass (seconds 30) (seconds 30)]

def probeAdmitted (task : TaskId) : List BreakerAction :=
  [.call task 0, .get task true, .resume task, .get task true, .resume task, .set task true]

/-- The labels move only tasks below `bound`. -/
def movesBelow (bound : Nat) (steps : List (Breakers × BreakerAction)) : Bool :=
  steps.all fun taken => taken.2.task.all fun task => task < bound

theorem idle_of_movesBelow {steps : List (Breakers × BreakerAction)} {last : Breakers} {bound : Nat}
    (ran : (circuitBreakers config).Run steps last) (below : movesBelow bound steps = true) :
    ∀ breakers ∈ Machine.visited steps last, ∀ task, bound ≤ task → breakers.task task = .idle := by
  refine idle_from ran fun taken member task named => ?_
  have small := List.all_eq_true.mp below taken member
  rw [named] at small
  exact of_decide_eq_true small

theorem half_open_stranded_by_cancelled_probe : ∃ steps last,
    (circuitBreakers bulkApi).Run steps last ∧ ¬ NotStranded bulkApi last := by
  obtain ⟨steps, last, ran, checked⟩ := @Machine.exists_run _ _ (circuitBreakers bulkApi)
    (opened ++ .cancel 3 :: probeAdmitted 4 ++ [.cancel 4])
    (fun steps last => movesBelow 5 steps && decide ((last.breaker 0).state = .halfOpen) &&
      (List.range 5).all fun task => !admittedTo 0 (last.task task)) (by decide +kernel)
  simp only [Bool.and_eq_true, decide_eq_true_eq] at checked
  obtain ⟨⟨below, halfOpen⟩, none⟩ := checked
  refine ⟨steps, last, ran, fun holds => ?_⟩
  obtain ⟨settled, _⟩ := holds 0 fun task => by
    by_cases early : task < 5
    · simpa using List.all_eq_true.mp none task (List.mem_range.mpr early)
    · rw [idle_of_movesBelow ran below last List.mem_cons_self task (Nat.le_of_not_lt early)]
      rfl
  rw [halfOpen] at settled
  rcases settled with closed | opened
  · cases closed
  · cases opened

theorem half_open_not_stranded_of_recovery : ∃ steps last, (circuitBreakers bulkApi).Run steps last ∧
    (∃ breakers ∈ Machine.visited steps last, (breakers.breaker 0).state = .halfOpen) ∧
    ∀ breakers ∈ Machine.visited steps last, NotStranded bulkApi breakers := by
  obtain ⟨steps, last, ran, checked⟩ := @Machine.exists_run _ _ (circuitBreakers bulkApi)
    (opened ++ probeAdmitted 4 ++ [.finish 4 .returns])
    (fun steps _ => (steps.all fun taken => probesEnd taken.1 taken.2) &&
      steps.any fun taken => decide ((taken.1.breaker 0).state = .halfOpen)) (by decide +kernel)
  obtain ⟨ends, visited⟩ := Bool.and_eq_true_iff.mp checked
  obtain ⟨taken, member, halfOpen⟩ := List.any_eq_true.mp visited
  refine ⟨steps, last, ran, ⟨taken.1, ?_, of_decide_eq_true halfOpen⟩,
    half_open_not_stranded ran (List.all_eq_true.mp ends)⟩
  exact List.mem_cons_of_mem _ (List.mem_map_of_mem member)

def OneProbe (breakers : Breakers) : Prop :=
  ∀ id first second, probing id (breakers.task first) = true → probing id (breakers.task second) = true →
    first = second

/-- The step is the success of a probe of `id`, or honours a reset signal. -/
def closes (id : BreakerId) (breakers : Breakers) : BreakerAction → Bool
  | .finish task .returns =>
      match breakers.task task with
      | .running owner true => owner = id
      | _ => false
  | .resume task =>
      match breakers.task task with
      | .asked owner (some _) | .recording owner _ (.asked (some _)) => owner = id
      | _ => false
  | _ => false

structure OnlyProbes (config : BreakerId → BreakerConfig) (steps : List (Breakers × BreakerAction))
    (last : Breakers) : Prop where
  single : ∀ breakers ∈ Machine.visited steps last, OneProbe breakers
  closing : ∀ taken ∈ steps, ∀ after, Breakers.step config taken.2 taken.1 = some after → ∀ id,
    (taken.1.breaker id).state ≠ .closed → (after.breaker id).state = .closed →
    closes id taken.1 taken.2 = true

/-- The outcome of a call let in while the breaker was CLOSED, applied to a state
that is no longer its own. -/
def lateOutcome (breaker : Breaker) (probe : Bool) : CallOutcome → Bool
  | .returns => !probe && breaker.state ≠ .closed
  | .raises _ => !probe && breaker.state = .halfOpen
  | .circuitOpen => false

/-- No outcome comes late, and no failure trips the breaker from CLOSED while a
probe that a reset has overtaken is out. -/
def timely (config : BreakerId → BreakerConfig) (breakers : Breakers) : BreakerAction → Prop
  | .finish task outcome => ∀ id probe, breakers.task task = .running id probe →
      lateOutcome (breakers.breaker id) probe outcome = false ∧
      ∀ reason, outcome = .raises reason → (breakers.breaker id).state = .closed →
        (breakers.breaker id).trips (config id) →
        ∀ other, probing id (breakers.task other) = true → other = task
  | _ => True

structure ProbesKept (breakers : Breakers) : Prop where
  single : OneProbe breakers
  state : ∀ id task, probing id (breakers.task task) = true → (breakers.breaker id).state ≠ .open

theorem open_step (stepped : TaskStep config before task label first id breaker phase store)
    (opened : breaker.state = .open) : (before.breaker id).state = .open ∨
      first = .running id true ∨
      ∃ reason, first = .running id false ∧ label = .finish task (.raises reason) ∧
        (before.breaker id).trips (config id) := by
  have honoured : ∀ {signal}, ((before.breaker id).honourReset signal).state = .open →
      (before.breaker id).state = .open := by
    intro signal held
    rcases @Breaker.honourReset_state (before.breaker id) signal with same | closed
    · exact same ▸ held
    · rw [closed] at held
      cases held
  cases stepped with
  | refused => exact .inl (honoured opened)
  | call => exact .inl (honoured opened)
  | honoured => exact .inl (honoured opened)
  | probe =>
      have halfOpen := opened
      simp at halfOpen
  | returned =>
      rw [Breaker.onSuccess_state] at opened
      cases opened
  | @raised _ probe reason _ _ =>
      cases probe with
      | true => exact .inr (.inl rfl)
      | false =>
          rcases @Breaker.onFailure_state (before.breaker id) (before.clock) (before.monotonic) (config id) reason with ⟨tripped, _⟩ | ⟨_, same⟩
          · exact .inr (.inr ⟨reason, rfl, rfl, tripped⟩)
          · exact .inl (same ▸ opened)
  | undone => exact .inr (.inl rfl)
  | _ => exact .inl opened

theorem ProbesKept.step (kept : ProbesKept before) (permitted : timely config before label)
    (stepped : Breakers.step config label before = some after) : ProbesKept after := by
  rcases breakers_step_cases stepped with ⟨_, _, rfl, rfl⟩ | ⟨_, rfl, _, rfl⟩ |
    ⟨_, _, _, _, _, rfl, _, rfl⟩ | ⟨task, id, breaker, phase, store, moved, rfl⟩
  · exact ⟨kept.single, kept.state⟩
  · exact ⟨kept.single, kept.state⟩
  · exact ⟨kept.single, kept.state⟩
  · -- The moved task probes now only if it probed, or if no other task did.
    have alone : ∀ owner, probing owner phase = true → ∀ other, other ≠ task →
        probing owner (before.task other) = true → False := by
      intro owner probe other different held
      obtain ⟨rfl, ⟨earlier, _⟩ | ⟨opened, _⟩⟩ := probe_step moved probe
      · exact different (kept.single owner other task held earlier)
      · exact kept.state owner other held opened
    constructor
    · intro owner left right leftProbe rightProbe
      by_cases leftOwn : left = task
      · subst leftOwn
        rw [moved_task_self] at leftProbe
        by_contra different
        rw [moved_task_other (Ne.symm different)] at rightProbe
        exact alone owner leftProbe right (Ne.symm different) rightProbe
      · rw [moved_task_other leftOwn] at leftProbe
        by_cases rightOwn : right = task
        · subst rightOwn
          rw [moved_task_self] at rightProbe
          exact (alone owner rightProbe left leftOwn leftProbe).elim
        · rw [moved_task_other rightOwn] at rightProbe
          exact kept.single owner left right leftProbe rightProbe
    · intro owner other probe opened
      by_cases same : owner = id
      · subst same
        rw [moved_breaker_self] at opened
        by_cases own : other = task
        · subst own
          rw [moved_task_self] at probe
          obtain ⟨_, ⟨earlier, unchanged | closed⟩ | ⟨_, halfOpen⟩⟩ := probe_step moved probe
          · exact kept.state owner other earlier (unchanged ▸ opened)
          · rw [closed] at opened
            cases opened
          · rw [halfOpen] at opened
            cases opened
        · rw [moved_task_other own] at probe
          rcases open_step moved opened with earlier | running | ⟨reason, running, rfl, trips⟩
          · exact kept.state owner other probe earlier
          · refine own (kept.single owner other task probe ?_)
            rw [running]
            simp [probing]
          · obtain ⟨prompt, trip⟩ := permitted owner false running
            cases current : (before.breaker owner).state with
            | closed => exact own (trip reason rfl current trips other probe)
            | «open» => exact kept.state owner other probe current
            | halfOpen => simp [lateOutcome, current] at prompt
      · rw [moved_breaker_other same] at opened
        by_cases own : other = task
        · subst own
          rw [moved_task_self] at probe
          exact same (probe_step moved probe).1
        · rw [moved_task_other own] at probe
          exact kept.state owner other probe opened

theorem closing_step (permitted : timely config before label)
    (stepped : Breakers.step config label before = some after)
    (opened : (before.breaker id).state ≠ .closed) (closed : (after.breaker id).state = .closed) :
    closes id before label = true := by
  rcases breakers_step_cases stepped with ⟨_, _, rfl, rfl⟩ | ⟨_, rfl, _, rfl⟩ |
    ⟨_, _, _, _, _, rfl, _, rfl⟩ | ⟨task, owner, breaker, phase, store, moved, rfl⟩
  · exact absurd closed opened
  · exact absurd closed opened
  · exact absurd closed opened
  · by_cases same : id = owner
    · subst same
      rw [moved_breaker_self] at closed
      have honoured : ∀ {signal}, ((before.breaker id).honourReset signal).state = .closed →
          ∃ resetAt, signal = some resetAt := by
        intro signal held
        cases signal with
        | none => exact absurd held opened
        | some resetAt => exact ⟨resetAt, rfl⟩
      generalize current : before.task task = first at moved
      cases moved with
      | refused =>
          obtain ⟨resetAt, rfl⟩ := honoured closed
          simp [closes, current]
      | call =>
          obtain ⟨resetAt, rfl⟩ := honoured closed
          simp [closes, current]
      | honoured =>
          obtain ⟨resetAt, rfl⟩ := honoured closed
          simp [closes, current]
      | probe =>
          have halfOpen := closed
          simp at halfOpen
      | @returned _ probe _ _ =>
          obtain ⟨prompt, _⟩ := permitted id probe current
          cases probe with
          | true => simp [closes, current]
          | false => simp [lateOutcome, opened] at prompt
      | raised =>
          rename_i probe reason next
          rcases @Breaker.onFailure_state (before.breaker id) (before.clock) (before.monotonic) (config id) reason with ⟨_, tripped⟩ | ⟨_, same⟩
          · rw [tripped] at closed
            cases closed
          · exact absurd (same ▸ closed) opened
      | undone =>
          rw [Breaker.undoProbe_state] at closed
          cases closed
      | _ => exact absurd closed opened
    · rw [moved_breaker_other same] at closed
      exact absurd closed opened

theorem one_probe_at_a_time {steps : List (Breakers × BreakerAction)} {last : Breakers}
    (ran : (circuitBreakers config).Run steps last)
    (prompt : ∀ taken ∈ steps, timely config taken.1 taken.2) : OnlyProbes config steps last := by
  have kept := @Machine.Run.always _ _ _ _ _ (timely config) ProbesKept ran
    ⟨fun _ _ _ absurd => (by cases absurd), fun _ _ absurd => (by cases absurd)⟩
    (fun earlier permitted stepped => earlier.step permitted stepped) prompt
  refine ⟨fun breakers member => (kept breakers member).single, ?_⟩
  intro taken member after stepped id opened closed
  exact closing_step (prompt taken member) stepped opened closed

/-- The call that was out when the breaker opened fails during the probe; after
the recovery timeout there is a second one. -/
theorem two_probes_after_late_failure : ∃ steps last,
    (circuitBreakers bulkApi).Run steps last ∧ ¬ OnlyProbes bulkApi steps last := by
  obtain ⟨steps, last, ran, checked⟩ := @Machine.exists_run _ _ (circuitBreakers bulkApi)
    (opened ++ probeAdmitted 4 ++ [.finish 3 (.raises .timeout), .pass (seconds 30) (seconds 30)] ++
      probeAdmitted 5)
    (fun _ last => probing 0 (last.task 4) && probing 0 (last.task 5)) (by decide +kernel)
  obtain ⟨first, second⟩ := Bool.and_eq_true_iff.mp checked
  refine ⟨steps, last, ran, fun holds => ?_⟩
  have same := holds.single last List.mem_cons_self 0 4 5 first second
  cases same

/-- A decidable form of `timely` for a run that moves only tasks below `bound`. -/
def timelyBelow (bound : Nat) (breakers : Breakers) :
    BreakerAction → Bool
  | .finish task outcome =>
      match breakers.task task with
      | .running id probe => !lateOutcome (breakers.breaker id) probe outcome &&
          (decide ((breakers.breaker id).state ≠ .closed) ||
            (List.range bound).all fun other => !probing id (breakers.task other) || other = task)
      | _ => true
  | _ => true

theorem timely_of_timelyBelow {bound : Nat} (passes : timelyBelow bound breakers label = true)
    (idle : ∀ task, bound ≤ task → breakers.task task = .idle) : timely config breakers label := by
  cases label with
  | finish task outcome =>
      intro id probe running
      simp only [timelyBelow, running, Bool.and_eq_true, Bool.not_eq_true', Bool.or_eq_true,
        decide_eq_true_eq] at passes
      refine ⟨passes.1, fun reason _ closed _ other held => ?_⟩
      rcases passes.2 with tripped | clear
      · exact absurd closed tripped
      · have early : other < bound := by
          by_contra late
          rw [idle other (Nat.le_of_not_lt late)] at held
          cases held
        simpa [held] using List.all_eq_true.mp clear other (List.mem_range.mpr early)
  | _ => exact trivial

theorem one_probe_of_recovery : ∃ steps last, (circuitBreakers bulkApi).Run steps last ∧
    (∃ task, probing 0 (last.task task) = true) ∧ OnlyProbes bulkApi steps last := by
  obtain ⟨steps, last, ran, checked⟩ := @Machine.exists_run _ _ (circuitBreakers bulkApi)
    (opened ++ probeAdmitted 4 ++ [.call 5 0, .get 5 true, .resume 5])
    (fun steps last => movesBelow 6 steps && probing 0 (last.task 4) &&
      steps.all fun taken => timelyBelow 6 taken.1 taken.2) (by decide +kernel)
  simp only [Bool.and_eq_true] at checked
  obtain ⟨⟨below, probe⟩, passes⟩ := checked
  refine ⟨steps, last, ran, ⟨4, probe⟩, one_probe_at_a_time ran fun taken member => ?_⟩
  refine timely_of_timelyBelow (List.all_eq_true.mp passes taken member) ?_
  exact idle_of_movesBelow ran below taken.1 (List.mem_cons_of_mem _ (List.mem_map_of_mem member))

end IncidentPlatform.Properties

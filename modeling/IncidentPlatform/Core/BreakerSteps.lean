import IncidentPlatform.Core.CircuitBreaker

namespace IncidentPlatform.Core

open Concurrency Models

/-! # What a step of the breakers does

A step moves one task, and with it at most one breaker, or it is the clock's or
a reset's.
-/

variable {config : BreakerId → BreakerConfig} {before after : Breakers} {label : BreakerAction}
  {breaker : Breaker} {now monotonic : Time}

namespace Breaker

@[simp] theorem setState_state (state : CircuitState) : (breaker.setState now state).state = state := by
  unfold setState
  split
  · rename_i same
    exact same.symm
  · rfl

@[simp] theorem setState_failureCount (state : CircuitState) :
    (breaker.setState now state).failureCount = breaker.failureCount := by
  unfold setState
  split <;> rfl

@[simp] theorem setState_lastFailureAt (state : CircuitState) :
    (breaker.setState now state).lastFailureAt = breaker.lastFailureAt := by
  unfold setState
  split <;> rfl

@[simp] theorem setState_observedResetAt (state : CircuitState) :
    (breaker.setState now state).observedResetAt = breaker.observedResetAt := by
  unfold setState
  split <;> rfl

@[simp] theorem setState_journal (state : CircuitState) :
    (breaker.setState now state).journal = breaker.journal := by
  unfold setState
  split <;> rfl

/-- Honouring a signal clears the breaker or leaves what it remembers. -/
theorem honourReset_cases (signal : Option Time) :
    breaker.honourReset signal = breaker ∨ ∃ resetAt, signal = some resetAt ∧
      breaker.observedResetAt ≠ some resetAt ∧
      ((∃ failedAt, breaker.lastFailureAt = some failedAt ∧ resetAt < failedAt) ∧
          breaker.honourReset signal = { breaker with observedResetAt := some resetAt } ∨
        (∀ failedAt, breaker.lastFailureAt = some failedAt → failedAt ≤ resetAt) ∧
          breaker.honourReset signal = { breaker with observedResetAt := some resetAt }.cleared) := by
  unfold honourReset
  cases signal with
  | none => exact .inl rfl
  | some resetAt =>
      by_cases observed : breaker.observedResetAt = some resetAt
      · exact .inl (by simp [observed])
      · refine .inr ⟨resetAt, rfl, observed, ?_⟩
        simp only [if_neg observed]
        cases remembered : breaker.lastFailureAt with
        | none => exact .inr ⟨fun failedAt absurd => (by cases absurd), by simp⟩
        | some failedAt =>
            by_cases newer : resetAt < failedAt
            · exact .inl ⟨⟨failedAt, rfl, newer⟩, by simp [newer]⟩
            · refine .inr ⟨fun other same => ?_, by simp [newer]⟩
              cases same
              exact Nat.le_of_not_lt newer

theorem honourReset_state (signal : Option Time) :
    (breaker.honourReset signal).state = breaker.state ∨ (breaker.honourReset signal).state = .closed := by
  rcases @honourReset_cases breaker signal with same | ⟨_, _, _, ⟨_, same⟩ | ⟨_, same⟩⟩
  · exact .inl (by rw [same])
  · exact .inl (by rw [same])
  · exact .inr (by rw [same]; rfl)

@[simp] theorem onSuccess_state : (breaker.onSuccess now).state = .closed := setState_state ..

@[simp] theorem undoProbe_state : (breaker.undoProbe now).state = .open := setState_state ..

/-- The failure opens the breaker. -/
def trips (breaker : Breaker) (config : BreakerConfig) : Prop :=
  breaker.state = .halfOpen ∨ config.failureThreshold ≤ breaker.failureCount + 1

theorem onFailure_state (config : BreakerConfig) (reason : FailureClass) :
    breaker.trips config ∧ (breaker.onFailure config now monotonic reason).state = .open ∨
      ¬ breaker.trips config ∧
        (breaker.onFailure config now monotonic reason).state = breaker.state := by
  unfold onFailure
  dsimp only
  split
  · rename_i tripped
    exact .inl ⟨tripped, setState_state ..⟩
  · rename_i untripped
    exact .inr ⟨untripped, rfl⟩

theorem onFailure_ne_halfOpen (config : BreakerConfig) (reason : FailureClass) :
    (breaker.onFailure config now monotonic reason).state ≠ .halfOpen := by
  rcases @onFailure_state breaker now monotonic config reason with
    ⟨_, opened⟩ | ⟨untripped, same⟩
  · rw [opened]
    simp
  · rw [same]
    exact fun halfOpen => untripped (.inl halfOpen)

end Breaker

section Store

variable {store : BreakerStore} {record : BreakerRecord} {name : String} {later : Time}

theorem lookup_filter_ne {α : Type} (entries : List (String × α)) {removed : String}
    (other : name ≠ removed) :
    (entries.filter fun entry => entry.1 ≠ removed).lookup name = entries.lookup name := by
  induction entries with
  | nil => rfl
  | cons entry rest ih =>
      by_cases gone : entry.1 = removed
      · rw [List.filter_cons_of_neg (by simp [gone]), ih, List.lookup_cons,
          beq_false_of_ne (gone ▸ other)]
      · rw [List.filter_cons_of_pos (by simp [gone]), List.lookup_cons, List.lookup_cons, ih]

theorem record_setRecord_other (other : name ≠ record.name) :
    (store.setRecord now record).record later name = store.record later name := by
  unfold BreakerStore.record BreakerStore.setRecord
  rw [List.lookup_cons, beq_false_of_ne other]
  exact congrArg (Option.bind · _) (lookup_filter_ne _ other)

theorem record_setRecord_self {found : BreakerRecord}
    (present : (store.setRecord now record).record later record.name = some found) : found = record := by
  unfold BreakerStore.record BreakerStore.setRecord at present
  rw [List.lookup_cons_self, Option.bind_some] at present
  split at present
  · exact (Option.some.inj present).symm
  · cases present

/-- Time only takes records away. -/
theorem record_earlier (passed : now ≤ later) (found : store.record later name = some record) :
    store.record now name = some record := by
  obtain ⟨⟨stored, expiry⟩, present, alive⟩ := Option.bind_eq_some_iff.mp found
  unfold BreakerStore.record
  rw [present, Option.bind_some]
  split at alive
  · rename_i fresh
    rw [if_pos (Nat.lt_of_le_of_lt passed fresh)]
    exact alive
  · cases alive

theorem mem_of_record (found : store.record now name = some record) :
    ∃ expiry, (name, record, expiry) ∈ store.records := by
  obtain ⟨⟨stored, expiry⟩, present, alive⟩ := Option.bind_eq_some_iff.mp found
  split at alive
  · cases alive
    obtain ⟨before, after, split, _⟩ := List.lookup_eq_some_iff.mp present
    exact ⟨expiry, by rw [split]; simp⟩
  · cases alive

theorem mem_present (found : store.record now name = some record) : name ∈ store.present now := by
  obtain ⟨expiry, member⟩ := mem_of_record found
  refine List.mem_filter.mpr ⟨List.mem_map.mpr ⟨_, member, rfl⟩, ?_⟩
  rw [found]
  rfl

end Store

/-- The signal that a GET is answered with. -/
def Breakers.answered (breakers : Breakers) (reached : Bool) : Option Time :=
  if reached then breakers.store.resetAt breakers.clock else none

/-- The breaker a task is suspended for. -/
def TaskPhase.owner : TaskPhase → Option BreakerId
  | .asking id | .asked id _ | .recording id _ _ | .running id _ => some id
  | .idle | .finished => none

/-- One step of `task`: the label, the phase it was in, the breaker concerned and
what it is left as, the phase the task goes to and the store. -/
inductive TaskStep (config : BreakerId → BreakerConfig) (before : Breakers) (task : TaskId) :
    BreakerAction → TaskPhase → BreakerId → Breaker → TaskPhase → BreakerStore → Prop where
  | ask {id : BreakerId} (tripped : (before.breaker id).state ≠ .closed) :
      TaskStep config before task (.call task id) .idle id (before.breaker id) (.asking id) before.store
  | enter {id : BreakerId} (closed : (before.breaker id).state = .closed) :
      TaskStep config before task (.call task id) .idle id (before.breaker id) (.running id false)
        before.store
  | refresh {id : BreakerId} :
      TaskStep config before task (.refresh task id) .idle id (before.breaker id)
        (.recording id .refresh .asking) before.store
  | answer {id : BreakerId} {reached : Bool} :
      TaskStep config before task (.get task reached) (.asking id) id (before.breaker id)
        (.asked id (before.answered reached)) before.store
  | recordAnswer {id : BreakerId} {purpose : RecordPurpose} {reached : Bool} :
      TaskStep config before task (.get task reached) (.recording id purpose .asking) id
        (before.breaker id) (.recording id purpose (.asked (before.answered reached))) before.store
  | refused {id : BreakerId} {signal : Option Time} :
      TaskStep config before task (.resume task) (.asked id signal) id
        ((before.breaker id).honourReset signal) .finished before.store
  | call {id : BreakerId} {signal : Option Time}
      (closed : ((before.breaker id).honourReset signal).state = .closed) :
      TaskStep config before task (.resume task) (.asked id signal) id
        ((before.breaker id).honourReset signal) (.running id false) before.store
  | probe {id : BreakerId} {signal : Option Time}
      (opened : ((before.breaker id).honourReset signal).state = .open) :
      TaskStep config before task (.resume task) (.asked id signal) id
        { ((before.breaker id).honourReset signal).setState before.clock .halfOpen with
          probeInFlight := true }
        (.recording id .probe .asking) before.store
  | honoured {id : BreakerId} {purpose : RecordPurpose} {signal : Option Time} :
      TaskStep config before task (.resume task) (.recording id purpose (.asked signal)) id
        { (before.breaker id).honourReset signal with recordedAt := some before.monotonic }
        (.recording id purpose (.setting (((before.breaker id).honourReset signal).published (config id)
          before.clock)))
        before.store
  | published {id : BreakerId} {purpose : RecordPurpose} {record : BreakerRecord} {reached : Bool} :
      TaskStep config before task (.set task reached) (.recording id purpose (.setting record)) id
        (before.breaker id) (Breakers.afterRecord id purpose)
        (if reached then before.store.setRecord before.clock record else before.store)
  | returned {id : BreakerId} {probe : Bool} {phase : TaskPhase}
      (next : phase = .recording id .outcome .asking ∨ phase = .finished) :
      TaskStep config before task (.finish task .returns) (.running id probe) id
        ((before.breaker id).onSuccess before.clock) phase before.store
  | raised {id : BreakerId} {probe : Bool} {reason : FailureClass} {phase : TaskPhase}
      (next : phase = .recording id .outcome .asking ∨ phase = .finished) :
      TaskStep config before task (.finish task (.raises reason)) (.running id probe) id
        ((before.breaker id).onFailure (config id) before.clock before.monotonic reason) phase
        before.store
  | undone {id : BreakerId} :
      TaskStep config before task (.finish task .circuitOpen) (.running id true) id
        ((before.breaker id).undoProbe before.clock) (.recording id .outcome .asking) before.store
  | rejected {id : BreakerId} :
      TaskStep config before task (.finish task .circuitOpen) (.running id false) id
        (before.breaker id) .finished before.store
  | cancelled {id : BreakerId} {phase : TaskPhase} (owned : phase.owner = some id) :
      TaskStep config before task (.cancel task) phase id (before.breaker id) .finished before.store

/-- What a step of a task leaves. -/
def Breakers.moved (before : Breakers) (task : TaskId) (id : BreakerId) (breaker : Breaker)
    (phase : TaskPhase) (store : BreakerStore) : Breakers :=
  ({ before with store }.setBreaker id breaker).setTask task phase

section Moved

variable {task : TaskId} {id : BreakerId} {phase : TaskPhase} {store : BreakerStore}

@[simp] theorem moved_clock : (before.moved task id breaker phase store).clock = before.clock := rfl

@[simp] theorem moved_store : (before.moved task id breaker phase store).store = store := rfl

@[simp] theorem moved_reset : (before.moved task id breaker phase store).reset = before.reset := rfl

@[simp] theorem moved_task_self : (before.moved task id breaker phase store).task task = phase :=
  if_pos rfl

@[simp] theorem moved_breaker_self : (before.moved task id breaker phase store).breaker id = breaker :=
  if_pos rfl

theorem moved_task_other {other : TaskId} (different : other ≠ task) :
    (before.moved task id breaker phase store).task other = before.task other := if_neg different

theorem moved_breaker_other {other : BreakerId} (different : other ≠ id) :
    (before.moved task id breaker phase store).breaker other = before.breaker other := if_neg different

@[simp] theorem setReset_self {reset : ResetId} {next : ResetPhase} :
    (before.setReset reset next).reset reset = next := if_pos rfl

theorem setReset_other {reset other : ResetId} {next : ResetPhase} (different : other ≠ reset) :
    (before.setReset reset next).reset other = before.reset other := if_neg different

theorem setBreaker_self : before.setBreaker id (before.breaker id) = before := by
  unfold Breakers.setBreaker
  congr 1
  funext other
  split
  · rename_i equal
    rw [equal]
  · rfl

theorem moved_same : before.moved task id (before.breaker id) phase before.store =
    before.setTask task phase := by
  unfold Breakers.moved
  rw [show ({ before with store := before.store } : Breakers) = before from rfl, setBreaker_self]

end Moved

theorem record_cases (breakers : Breakers) (task : TaskId) (id : BreakerId) (changed : Bool) :
    ∃ phase, (phase = .recording id .outcome .asking ∨ phase = .finished) ∧
      breakers.record task id .outcome changed = breakers.setTask task phase := by
  unfold Breakers.record
  split
  · exact ⟨_, .inl rfl, rfl⟩
  · exact ⟨_, .inr rfl, rfl⟩

theorem record_changed (breakers : Breakers) (task : TaskId) (id : BreakerId) (purpose : RecordPurpose) :
    breakers.record task id purpose true = breakers.setTask task (.recording id purpose .asking) := by
  simp [Breakers.record, Breaker.recordDue]

theorem admission_cases {task : TaskId} {id : BreakerId} :
    (before.moved task id breaker .finished before.store = (before.setBreaker id breaker).admission config task id) ∨
    (breaker.state = .closed ∧ before.moved task id breaker (.running id false) before.store =
      (before.setBreaker id breaker).admission config task id) ∨
    (breaker.state = .open ∧ before.moved task id
      { breaker.setState before.clock .halfOpen with probeInFlight := true } (.recording id .probe .asking)
        before.store = (before.setBreaker id breaker).admission config task id) := by
  have self : (before.setBreaker id breaker).breaker id = breaker := if_pos rfl
  have again : ∀ last, (before.setBreaker id breaker).setBreaker id last = before.setBreaker id last := by
    intro last
    unfold Breakers.setBreaker
    congr 1
    funext other
    dsimp only
    split <;> rfl
  unfold Breakers.admission Breaker.letIn
  rw [self]
  cases current : breaker.state with
  | closed => exact .inr (.inl ⟨rfl, rfl⟩)
  | halfOpen => exact .inl rfl
  | «open» =>
      by_cases elapsed : (config id).recoveryTimeout ≤ before.monotonic - breaker.openedAt.getD 0
      · refine .inr (.inr ⟨rfl, ?_⟩)
        simp only [Breakers.setBreaker] at again ⊢
        simp only [elapsed, if_true, record_changed, again]
        rfl
      · refine .inl ?_
        simp only [Breakers.setBreaker, elapsed, if_false]
        rfl

/-- Everything one step can do. -/
theorem breakers_step_cases (stepped : Breakers.step config label before = some after) :
    (∃ wall monotonic, label = .pass wall monotonic ∧ after = { before with
      clock := before.clock + wall, monotonic := before.monotonic + monotonic }) ∨
    (∃ reset, label = .beginReset reset ∧ before.reset reset = .idle ∧
      after = before.setReset reset (.signalling before.clock)) ∨
    (∃ reset reached scanned phase store, label = .resetCommand reset reached scanned ∧
      (before.reset reset).command reached scanned before.clock before.store = some (phase, store) ∧
      after = { before with store }.setReset reset phase) ∨
    ∃ task id breaker phase store,
      TaskStep config before task label (before.task task) id breaker phase store ∧
      after = before.moved task id breaker phase store := by
  cases label with
  | pass wall monotonic =>
      cases stepped
      exact .inl ⟨wall, monotonic, rfl, rfl⟩
  | beginReset reset =>
      simp only [Breakers.step] at stepped
      split at stepped
      · rename_i idle
        cases stepped
        exact .inr (.inl ⟨reset, rfl, idle, rfl⟩)
      · cases stepped
  | resetCommand reset reached scanned =>
      obtain ⟨⟨phase, store⟩, performed, same⟩ := Option.map_eq_some_iff.mp stepped
      exact .inr (.inr (.inl ⟨reset, reached, scanned, phase, store, rfl, performed, same.symm⟩))
  | call task id =>
      refine .inr (.inr (.inr ?_))
      simp only [Breakers.step] at stepped
      split at stepped
      · rename_i idle
        split at stepped
        · rename_i closed
          cases stepped
          refine ⟨task, id, before.breaker id, .running id false, before.store, ?_, ?_⟩
          · rw [idle]
            exact .enter closed
          · simp [Breakers.admission, Breaker.letIn, closed, moved_same]
        · rename_i tripped
          cases stepped
          refine ⟨task, id, _, _, _, ?_, moved_same.symm⟩
          rw [idle]
          exact .ask tripped
      · cases stepped
  | refresh task id =>
      refine .inr (.inr (.inr ?_))
      simp only [Breakers.step] at stepped
      split at stepped
      · rename_i idle
        cases stepped
        refine ⟨task, id, before.breaker id, .recording id .refresh .asking, before.store, ?_, ?_⟩
        · rw [idle]
          exact .refresh
        · rw [record_changed, moved_same]
      · cases stepped
  | get task reached =>
      refine .inr (.inr (.inr ?_))
      simp only [Breakers.step, Breakers.answer] at stepped
      split at stepped
      · rename_i id phase
        cases stepped
        refine ⟨task, id, _, _, _, ?_, moved_same.symm⟩
        rw [phase]
        exact .answer
      · rename_i id purpose phase
        cases stepped
        refine ⟨task, id, _, _, _, ?_, moved_same.symm⟩
        rw [phase]
        exact .recordAnswer
      · cases stepped
  | resume task =>
      refine .inr (.inr (.inr ?_))
      simp only [Breakers.step, Breakers.resume] at stepped
      split at stepped
      · rename_i id signal phase
        cases stepped
        rcases @admission_cases config before ((before.breaker id).honourReset signal) task id with
          refused | ⟨closed, called⟩ | ⟨opened, probed⟩
        · refine ⟨task, id, _, _, _, ?_, refused.symm⟩
          rw [phase]
          exact .refused
        · refine ⟨task, id, _, _, _, ?_, called.symm⟩
          rw [phase]
          exact .call closed
        · refine ⟨task, id, _, _, _, ?_, probed.symm⟩
          rw [phase]
          exact .probe opened
      · rename_i id purpose signal phase
        cases stepped
        refine ⟨task, id, _, _, _, ?_, rfl⟩
        rw [phase]
        exact .honoured
      · cases stepped
  | set task reached =>
      refine .inr (.inr (.inr ?_))
      simp only [Breakers.step, Breakers.publish] at stepped
      split at stepped
      · rename_i id purpose record phase
        cases stepped
        refine ⟨task, id, before.breaker id, Breakers.afterRecord id purpose,
          if reached then before.store.setRecord before.clock record else before.store, ?_, ?_⟩
        · rw [phase]
          exact .published
        · exact (@moved_same { before with
            store := if reached then before.store.setRecord before.clock record else before.store } ..).symm
      · cases stepped
  | finish task outcome =>
      refine .inr (.inr (.inr ?_))
      simp only [Breakers.step] at stepped
      split at stepped
      · rename_i id probe phase
        cases stepped
        cases outcome with
        | returns =>
            obtain ⟨last, next, same⟩ := record_cases
              (before.setBreaker id ((before.breaker id).onSuccess before.clock)) task id
              (decide ((before.breaker id).state ≠ .closed))
            refine ⟨task, id, _, last, _, ?_, same⟩
            rw [phase]
            exact .returned next
        | raises reason =>
            obtain ⟨last, next, same⟩ := record_cases (before.setBreaker id
              ((before.breaker id).onFailure (config id) before.clock before.monotonic reason)) task id
              (decide ((before.breaker id).state ≠
                ((before.breaker id).onFailure (config id) before.clock before.monotonic reason).state))
            refine ⟨task, id, _, last, _, ?_, same⟩
            rw [phase]
            exact .raised next
        | circuitOpen =>
            cases probe with
            | true =>
                refine ⟨task, id, _, _, _, ?_, record_changed ..⟩
                rw [phase]
                exact .undone
            | false =>
                refine ⟨task, id, _, _, _, ?_, moved_same.symm⟩
                rw [phase]
                exact .rejected
      · cases stepped
  | cancel task =>
      refine .inr (.inr (.inr ?_))
      simp only [Breakers.step] at stepped
      cases owned : (before.task task).owner with
      | none =>
          cases phase : before.task task with
          | idle => simp [phase] at stepped
          | finished => simp [phase] at stepped
          | _ =>
              rw [phase] at owned
              cases owned
      | some id =>
          split at stepped
          · rename_i idle
            rw [idle] at owned
            cases owned
          · rename_i finished
            rw [finished] at owned
            cases owned
          · cases stepped
            exact ⟨task, id, _, _, _, .cancelled owned, moved_same.symm⟩

/-- The task that a label moves. -/
def BreakerAction.task : BreakerAction → Option TaskId
  | .call task _ | .refresh task _ | .get task _ | .resume task | .set task _ | .finish task _
  | .cancel task => some task
  | .pass _ _ | .beginReset _ | .resetCommand _ _ _ => none

theorem taskStep_task {task : TaskId} {id : BreakerId} {first phase : TaskPhase} {store : BreakerStore}
    (stepped : TaskStep config before task label first id breaker phase store) :
    label.task = some task := by
  cases stepped <;> rfl

/-- A run whose labels move no task from `bound` on leaves those idle. -/
theorem idle_from {steps : List (Breakers × BreakerAction)} {last : Breakers} {bound : Nat}
    (ran : (circuitBreakers config).Run steps last)
    (below : ∀ taken ∈ steps, ∀ task, taken.2.task = some task → task < bound) :
    ∀ breakers ∈ Machine.visited steps last, ∀ task, bound ≤ task → breakers.task task = .idle := by
  refine @Machine.Run.always _ _ _ _ _ (fun _ label => ∀ task, label.task = some task → task < bound) _
    ran (fun _ _ => rfl) ?_ below
  intro before label after idle named stepped task beyond
  rcases breakers_step_cases stepped with ⟨_, _, _, rfl⟩ | ⟨_, _, _, rfl⟩ | ⟨_, _, _, _, _, _, _, rfl⟩ |
    ⟨mover, id, breaker, phase, store, moved, rfl⟩
  · exact idle task beyond
  · exact idle task beyond
  · exact idle task beyond
  · have different : task ≠ mover := by
      have less := named mover (taskStep_task moved)
      omega
    rw [moved_task_other different]
    exact idle task beyond

/-- The breaker a label starts a task for. -/
def BreakerAction.named : BreakerAction → Option BreakerId
  | .call _ id | .refresh _ id => some id
  | _ => none

theorem taskStep_owner {task : TaskId} {id : BreakerId} {first phase : TaskPhase} {store : BreakerStore}
    (stepped : TaskStep config before task label first id breaker phase store) :
    (first.owner = some id ∨ label.named = some id) ∧ (phase.owner = some id ∨ phase.owner = none) := by
  cases stepped with
  | ask => exact ⟨.inr rfl, .inl rfl⟩
  | enter => exact ⟨.inr rfl, .inl rfl⟩
  | refresh => exact ⟨.inr rfl, .inl rfl⟩
  | refused => exact ⟨.inl rfl, .inr rfl⟩
  | @published _ purpose => cases purpose <;> simp [TaskPhase.owner, Breakers.afterRecord]
  | returned next => rcases next with rfl | rfl <;> simp [TaskPhase.owner]
  | raised next => rcases next with rfl | rfl <;> simp [TaskPhase.owner]
  | rejected => exact ⟨.inl rfl, .inr rfl⟩
  | cancelled owned => exact ⟨.inl owned, .inr rfl⟩
  | _ => exact ⟨.inl rfl, .inl rfl⟩

/-- A run that starts no task for a breaker from `bound` on leaves those as they
were at boot. -/
theorem untouched_from {steps : List (Breakers × BreakerAction)} {last : Breakers} {bound : Nat}
    (ran : (circuitBreakers config).Run steps last)
    (below : ∀ taken ∈ steps, ∀ id, taken.2.named = some id → id < bound) :
    ∀ breakers ∈ Machine.visited steps last, ∀ id, bound ≤ id → breakers.breaker id = {} := by
  have both : ∀ breakers ∈ Machine.visited steps last,
      (∀ id, bound ≤ id → breakers.breaker id = {}) ∧
        ∀ task id, (breakers.task task).owner = some id → id < bound := by
    refine @Machine.Run.always _ _ _ _ _ (fun _ label => ∀ id, label.named = some id → id < bound) _
      ran ⟨fun _ _ => rfl, fun _ _ absurd => by cases absurd⟩ ?_ below
    rintro before label after ⟨untouched, owners⟩ named stepped
    rcases breakers_step_cases stepped with ⟨_, _, _, rfl⟩ | ⟨_, _, _, rfl⟩ | ⟨_, _, _, _, _, _, _, rfl⟩ |
      ⟨mover, id, breaker, phase, store, moved, rfl⟩
    · exact ⟨untouched, owners⟩
    · exact ⟨untouched, owners⟩
    · exact ⟨untouched, owners⟩
    · obtain ⟨starts, keeps⟩ := taskStep_owner moved
      have small : id < bound := by
        rcases starts with owned | begun
        · exact owners mover id owned
        · exact named id begun
      constructor
      · intro other beyond
        rw [moved_breaker_other (Nat.ne_of_gt (Nat.lt_of_lt_of_le small beyond))]
        exact untouched other beyond
      · intro task other owned
        by_cases same : task = mover
        · subst same
          rw [moved_task_self] at owned
          rcases keeps with equal | none
          · cases equal.symm.trans owned
            exact small
          · cases none.symm.trans owned
        · rw [moved_task_other same] at owned
          exact owners task other owned
  exact fun breakers member => (both breakers member).1

end IncidentPlatform.Core

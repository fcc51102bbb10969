import IncidentPlatform.Workers.JobDispatcherConsumer

namespace IncidentPlatform.Properties

open Concurrency Workers JobDispatcherConsumer

/-! # The in-flight ids and the live tasks

The ids are a set and the tasks a multiset, so the set answers for the tasks
only as long as each task that drops an id is the last task of it.
-/

variable {consumer after : JobDispatcherConsumer} {index : Nat} {resumption : Resumption}

/-- A job id is in flight exactly while some task of it is unfinished. -/
def CoversLiveTasks (consumer : JobDispatcherConsumer) : Prop :=
  ∀ id, (0 < consumer.live id → id ∈ consumer.inFlightJobIds) ∧
    (consumer.live id = 0 → id ∉ consumer.inFlightJobIds)

/-- What a resumption does to the task and its id. -/
inductive Departure where
  | stays
  | dropsId
  | keepsId

def departure : TaskPhase → Resumption → Departure
  | .created, .cancelled => .keepsId
  | .queued, .cancelled | .running, .proceeds | .running, .cancelled | .recovering, _ => .dropsId
  | _, _ => .stays

/-- A task that drops its id is the only unfinished one of that id, and a task
cancelled before its first step is not. -/
def departsInOrder (consumer : JobDispatcherConsumer) : Action → Bool
  | .resume index resumption =>
      (consumer.inFlight[index]?).all fun task =>
        match departure task.phase resumption with
        | .stays => true
        | .dropsId => consumer.live task.jobId = 1
        | .keepsId => 1 < consumer.live task.jobId
  | _ => true

theorem live_of_setPhase {task : DispatchTask} (found : consumer.inFlight[index]? = some task)
    (phase : TaskPhase) (changed : after.inFlight = consumer.setPhase index task.jobId phase)
    (id : String) :
    after.live id + (if task.jobId = id ∧ task.live = true then 1 else 0) =
      consumer.live id + (if task.jobId = id ∧ phase ≠ .finished then 1 else 0) := by
  obtain ⟨bound, rfl⟩ := List.getElem?_eq_some_iff.mp found
  have counted := List.countP_set (p := fun task => task.jobId = id && task.live)
    (a := ⟨consumer.inFlight[index].jobId, phase⟩) bound
  have counts : (consumer.inFlight[index].jobId = id ∧ consumer.inFlight[index].live = true) →
      0 < consumer.live id := by
    intro selected
    exact List.countP_pos_iff.mpr ⟨_, List.getElem_mem bound, by simpa using selected⟩
  simp only [JobDispatcherConsumer.live, changed, setPhase, counted] at counts ⊢
  simp only [Bool.and_eq_true, decide_eq_true_eq, DispatchTask.live, ne_eq, decide_not,
    Bool.not_eq_eq_eq_not, Bool.not_true, decide_eq_false_iff_not] at counts ⊢
  split
  · next selected =>
      have counted := counts selected
      split <;> omega
  · split <;> omega

theorem live_stays {task : DispatchTask} {phase : TaskPhase}
    (found : consumer.inFlight[index]? = some task)
    (changed : after.inFlight = consumer.setPhase index task.jobId phase) (live : task.live = true)
    (unfinished : phase ≠ .finished) (id : String) : after.live id = consumer.live id := by
  have counted := live_of_setPhase found phase changed id
  simp only [live, unfinished, ne_eq, not_false_eq_true, and_true] at counted
  omega

theorem live_departs {task : DispatchTask} (found : consumer.inFlight[index]? = some task)
    (changed : after.inFlight = consumer.setPhase index task.jobId .finished)
    (live : task.live = true) (id : String) :
    after.live id + (if task.jobId = id then 1 else 0) = consumer.live id := by
  have counted := live_of_setPhase found .finished changed id
  simpa [live] using counted

theorem resume_cases (resumed : consumer.resume index resumption = some after) :
    ∃ task phase, consumer.inFlight[index]? = some task ∧ task.live = true ∧
      after.inFlight = consumer.setPhase index task.jobId phase ∧
      match departure task.phase resumption with
      | .stays => phase ≠ .finished ∧ after.inFlightJobIds = consumer.inFlightJobIds
      | .dropsId => phase = .finished ∧
          after.inFlightJobIds = consumer.inFlightJobIds.erase task.jobId
      | .keepsId => phase = .finished ∧ after.inFlightJobIds = consumer.inFlightJobIds := by
  simp only [JobDispatcherConsumer.resume] at resumed
  split at resumed
  · rename_i task found
    obtain ⟨id, phase⟩ := task
    cases phase <;> cases resumption <;> simp only [runAndRelease] at resumed <;>
      (try split at resumed) <;> first
        | contradiction
        | (cases resumed; exact ⟨⟨id, _⟩, _, found, rfl, rfl, rfl, rfl⟩)
        | (cases resumed; exact ⟨⟨id, _⟩, _, found, rfl, rfl, nofun, rfl⟩)
  · contradiction

theorem covers_of_same (ids : after.inFlightJobIds = consumer.inFlightJobIds)
    (counts : ∀ id, after.live id = consumer.live id) (covers : CoversLiveTasks consumer) :
    CoversLiveTasks after := by
  intro id
  rw [ids, counts]
  exact covers id

theorem handleMessage_covers {jobId : Option String}
    (handled : consumer.handleMessage jobId = .ok after) (covers : CoversLiveTasks consumer) :
    CoversLiveTasks after := by
  unfold handleMessage at handled
  split at handled
  · cases handled
    exact covers
  · cases handled
    exact covers
  · rename_i id _
    split at handled
    · contradiction
    · cases handled
      intro other
      have counted : (consumer.inFlight ++ [DispatchTask.mk id .created]).countP
          (fun task => task.jobId = other && task.live) =
            consumer.live other + if id = other then 1 else 0 := by
        rw [List.countP_append, List.countP_singleton]
        simp [JobDispatcherConsumer.live, DispatchTask.live]
      simp only [JobDispatcherConsumer.live] at counted ⊢
      rw [counted, Finset.mem_insert]
      have earlier := covers other
      simp only [JobDispatcherConsumer.live] at earlier
      by_cases same : id = other
      · subst same
        simp
      · simpa [same, Ne.symm same] using earlier

theorem discard_live (discarded : consumer.discard index = some after) (id : String) :
    after.live id = consumer.live id := by
  unfold JobDispatcherConsumer.discard at discarded
  split at discarded
  · rename_i jobId found
    cases discarded
    obtain ⟨bound, held⟩ := List.getElem?_eq_some_iff.mp found
    have split : consumer.inFlight.Perm (consumer.inFlight[index] :: consumer.inFlight.eraseIdx index) :=
      (List.getElem_cons_eraseIdx_perm bound).symm
    have counted := split.countP_eq fun task => task.jobId = id && task.live
    rw [held] at counted
    simpa [JobDispatcherConsumer.live, DispatchTask.live] using counted.symm
  · contradiction

theorem discard_ids (discarded : consumer.discard index = some after) :
    after.inFlightJobIds = consumer.inFlightJobIds := by
  unfold JobDispatcherConsumer.discard at discarded
  split at discarded
  · cases discarded
    rfl
  · contradiction

/-- A task that leaves with its id in hand keeps the cover if it was the last of
its id, and one that leaves the id behind keeps it if it was not. -/
theorem resume_covers_iff (covers : CoversLiveTasks consumer)
    (resumed : consumer.resume index resumption = some after) :
    CoversLiveTasks after ↔ departsInOrder consumer (.resume index resumption) = true := by
  obtain ⟨task, phase, found, live, changed, becomes⟩ := resume_cases resumed
  simp only [departsInOrder, found, Option.all_some]
  cases departs : departure task.phase resumption <;> rw [departs] at becomes <;>
    simp only [decide_eq_true_eq]
  case stays =>
    obtain ⟨unfinished, ids⟩ := becomes
    exact iff_of_true (covers_of_same ids (live_stays found changed live unfinished) covers) trivial
  case dropsId =>
    obtain ⟨rfl, ids⟩ := becomes
    have counted := live_departs found changed live
    constructor
    · intro coversAfter
      have last := counted task.jobId
      have gone : ¬ 0 < after.live task.jobId := by
        intro remaining
        have member := (coversAfter task.jobId).1 remaining
        simp [ids] at member
      simp only [↓reduceIte] at last
      omega
    · intro alone id
      have last := counted id
      rw [ids, Finset.mem_erase]
      by_cases same : task.jobId = id
      · subst same
        simp only [↓reduceIte] at last
        exact ⟨by omega, by simp⟩
      · simp only [same, ↓reduceIte, Nat.add_zero] at last
        rw [last]
        simpa [Ne.symm same] using covers id
  case keepsId =>
    obtain ⟨rfl, ids⟩ := becomes
    have counted := live_departs found changed live
    constructor
    · intro coversAfter
      have last := counted task.jobId
      simp only [↓reduceIte] at last
      have member := (covers task.jobId).1 (by omega)
      have remaining : after.live task.jobId ≠ 0 := by
        intro none
        exact (coversAfter task.jobId).2 none (ids ▸ member)
      omega
    · intro others id
      have last := counted id
      have earlier := covers id
      rw [ids]
      by_cases same : task.jobId = id
      · subst same
        simp only [↓reduceIte] at last
        exact ⟨fun _ => earlier.1 (by omega), fun none => by omega⟩
      · simp only [same, ↓reduceIte, Nat.add_zero] at last
        rwa [last]

theorem step_covers_iff {action : Action} (covers : CoversLiveTasks consumer)
    (stepped : step action consumer = some after) :
    CoversLiveTasks after ↔ departsInOrder consumer action = true := by
  cases action with
  | handleMessage jobId =>
      refine iff_of_true ?_ rfl
      simp only [step] at stepped
      split at stepped
      · rename_i accepted handled
        cases stepped
        exact handleMessage_covers handled covers
      · cases stepped
        exact covers
  | resume index resumption => exact resume_covers_iff covers stepped
  | discard index =>
      exact iff_of_true (covers_of_same (discard_ids stepped) (discard_live stepped) covers) rfl

theorem new_covers (maxConcurrent : Nat) : CoversLiveTasks (.new maxConcurrent) := by
  intro id
  simp [JobDispatcherConsumer.new, JobDispatcherConsumer.live]

/-- Every state of a run covers its live tasks exactly if every task of the run
departs in order. -/
theorem in_flight_covers_live_tasks_iff {maxConcurrent : Nat}
    {steps : List (JobDispatcherConsumer × Action)} {last : JobDispatcherConsumer}
    (ran : (machine maxConcurrent).Run steps last) :
    (∀ state ∈ Machine.visited steps last, CoversLiveTasks state) ↔
      ∀ taken ∈ steps, departsInOrder taken.1 taken.2 = true :=
  ran.always_iff (new_covers maxConcurrent) step_covers_iff

/-- Two deliveries of two jobs and their done callbacks. -/
theorem in_flight_covers_two_jobs :
    ∃ steps last, (machine maxConcurrentJobs).Run steps last ∧ steps.length = 8 ∧
      ∀ state ∈ Machine.visited steps last, CoversLiveTasks state := by
  obtain ⟨steps, last, ran, checked⟩ : ∃ steps last, (machine maxConcurrentJobs).Run steps last ∧
      (decide (steps.length = 8) && steps.all fun taken => departsInOrder taken.1 taken.2) = true :=
    Machine.exists_run
      [.handleMessage (some "first"), .handleMessage (some "second"), .resume 0 .proceeds,
        .resume 1 .proceeds, .resume 1 .raises, .resume 1 .proceeds, .discard 1,
        .resume 0 .proceeds] (by decide +kernel)
  simp only [Bool.and_eq_true, decide_eq_true_eq, List.all_eq_true] at checked
  exact ⟨steps, last, ran, checked.1, (in_flight_covers_live_tasks_iff ran).mpr checked.2⟩

/-- A second delivery of a job outlives the first, which dropped the id. -/
theorem in_flight_loses_second_delivery :
    ¬ ∀ maxConcurrent steps last, (machine maxConcurrent).Run steps last →
      ∀ state ∈ Machine.visited steps last, CoversLiveTasks state := by
  intro claimed
  obtain ⟨steps, last, ran, checked⟩ : ∃ steps last, (machine maxConcurrentJobs).Run steps last ∧
      (decide (0 < last.live "job") && decide ("job" ∉ last.inFlightJobIds)) = true :=
    Machine.exists_run
      [.handleMessage (some "job"), .handleMessage (some "job"), .resume 0 .proceeds,
        .resume 1 .proceeds, .resume 0 .proceeds] (by decide +kernel)
  simp only [Bool.and_eq_true, decide_eq_true_eq] at checked
  have covers := claimed _ _ _ ran last List.mem_cons_self "job"
  exact checked.2 (covers.1 checked.1)

end IncidentPlatform.Properties

import IncidentPlatform.Api.AgentRunSteps
import IncidentPlatform.Properties.AgentRuns

namespace IncidentPlatform.Properties

open Models Concurrency Services Api

/-! # Following the step cursor

A poll takes every stored step above the cursor and moves the cursor to the
highest one, so what it misses are the steps that arrive below the cursor.
-/

variable {Doc : Type} {ids : RunIds} {polled before after last final : PolledRun Doc}
  {action : PolledRun.Action Doc} {steps : List (PolledRun Doc × PolledRun.Action Doc)}
  {cursor : Option Int} {reply : AgentRunStepsResponse Doc} {existing : Option (AgentRun Doc)}

def passed (cursor : Option Int) (step : AgentStep Doc) : Bool := cursor.any fun seq => stepSeq step ≤ seq

theorem selected_iff {step : AgentStep Doc} :
    (cursor.all fun seq => seq < stepSeq step) = !passed cursor step := by
  cases cursor with
  | none => rfl
  | some seq => by_cases below : stepSeq step ≤ seq <;> simp_all [passed]

theorem adminAgentRunSteps_ok {runId : Uuid} (replied : adminAgentRunSteps runId existing cursor = .ok reply) :
    reply.steps.Perm ((ledger existing).filter fun step => !passed cursor step) ∧
      (∀ step ∈ ledger existing, passed reply.nextAfterSeq step = true) ∧
      ∀ seq, reply.nextAfterSeq = some seq →
        cursor = some seq ∨ ∃ step ∈ ledger existing, stepSeq step = seq := by
  unfold adminAgentRunSteps at replied
  split at replied
  · contradiction
  · cases existing with
    | none => contradiction
    | some run =>
        cases replied
        have sorted := run.steps.pairwise_insertionSort fun first second => stepSeq first ≤ stepSeq second
        have stored := run.steps.perm_insertionSort fun first second => stepSeq first ≤ stepSeq second
        generalize run.steps.insertionSort (fun first second => stepSeq first ≤ stepSeq second) = ordered
          at sorted stored ⊢
        refine ⟨?_, fun step member => ?_, fun seq next => ?_⟩
        · simp only [selected_iff]
          exact stored.filter _
        · have member := stored.mem_iff.mpr member
          have nonempty := List.ne_nil_of_mem member
          have below := (sorted.imp_of_mem fun _ _ within => within).rel_getLast member
          simp only [List.getLast?_eq_some_getLast nonempty, Option.map_some, Option.some_or]
          exact decide_eq_true below
        · simp only at next
          cases newest : ordered.getLast? with
          | none =>
              rw [newest] at next
              exact .inl next
          | some step =>
              rw [newest] at next
              have member := stored.mem_iff.mp (List.mem_of_getLast? newest)
              exact .inr ⟨step, member, Option.some.inj next⟩

theorem adminAgentRunSteps_error {runId : Uuid} {refusal : StepsRefusal}
    (refused : adminAgentRunSteps runId existing cursor = .error refusal)
    (answerable : ∀ seq, cursor = some seq → 0 ≤ seq) : existing = none := by
  unfold adminAgentRunSteps at refused
  split at refused
  · rename_i negative
    cases cursor with
    | none => contradiction
    | some seq =>
        have below := of_decide_eq_true negative
        have above := answerable seq rfl
        omega
  · cases existing with
    | none => rfl
    | some run => contradiction

def arrivesIn (polled : PolledRun Doc) : PolledRun.Action Doc → Option (AgentStep Doc)
  | .call call => acceptedStep polled.run call
  | .poll => none

def arrived (steps : List (PolledRun Doc × PolledRun.Action Doc)) : List (AgentStep Doc) :=
  steps.filterMap fun taken => arrivesIn taken.1 taken.2

/-- At most 200 reported steps, each with a `seq` of its own. -/
structure DistinctSteps (steps : List (PolledRun Doc × PolledRun.Action Doc)) : Prop where
  named : ∀ step ∈ arrived steps, ∃ seq : Nat, step.seq = some (seq : Int)
  distinct : ((arrived steps).map AgentStep.seq).Nodup
  few : (arrived steps).length ≤ stepsCap

/-- No step arrives at or below the cursor of the poll before. -/
def NothingLate (steps : List (PolledRun Doc × PolledRun.Action Doc)) : Prop :=
  ∀ taken ∈ steps, ∀ step, arrivesIn taken.1 taken.2 = some step → passed taken.1.cursor step = false

theorem arrived_cons : arrived ((before, action) :: steps) =
    (arrivesIn before action).toList ++ arrived steps := by
  unfold arrived
  rw [List.filterMap_cons]
  cases arrivesIn before action <;> rfl

theorem nothingLate_cons : NothingLate ((before, action) :: steps) ↔
    (∀ step, arrivesIn before action = some step → passed before.cursor step = false) ∧
      NothingLate steps := List.forall_mem_cons

theorem DistinctSteps.earlier (distinct : DistinctSteps ((before, action) :: steps)) : DistinctSteps steps := by
  obtain ⟨named, distinct, few⟩ := distinct
  rw [arrived_cons] at named distinct few
  rw [List.map_append] at distinct
  rw [List.length_append] at few
  exact ⟨fun step member => named step (List.mem_append_right _ member), distinct.of_append_right, by omega⟩

/-- What holds of a run and its poller along the way. -/
structure Polling (steps : List (PolledRun Doc × PolledRun.Action Doc)) (polled : PolledRun Doc) : Prop where
  stored : ledger polled.run = (arrived steps).reverse
  answerable : ∀ seq, polled.cursor = some seq → 0 ≤ seq
  received : ∀ step ∈ polled.received, step ∈ ledger polled.run
  exactly : polled.received.Perm ((ledger polled.run).filter (passed polled.cursor)) ↔ NothingLate steps

theorem polling_initially : Polling [] (PolledRun.machine ids : Machine (PolledRun Doc) _).initial := by
  constructor <;> simp [PolledRun.machine, ledger, arrived, NothingLate]

theorem Polling.unreported (polling : Polling steps before) {run : Option (AgentRun Doc)}
    (none : arrivesIn before action = none) (same : ledger run = ledger before.run) :
    Polling ((before, action) :: steps) { before with run } := by
  have arrives : arrived ((before, action) :: steps) = arrived steps := by rw [arrived_cons, none]; rfl
  constructor
  · rw [arrives, ← polling.stored, ← same]
  · exact polling.answerable
  · simpa only [same] using polling.received
  · simp only [same, nothingLate_cons, none]
    rw [polling.exactly]
    simp

theorem Polling.reported (polling : Polling steps before) {run : Option (AgentRun Doc)} {step : AgentStep Doc}
    (arrives : arrivesIn before action = some step) (unstored : step ∉ ledger before.run)
    (grown : ledger run = ledger before.run ++ [step]) :
    Polling ((before, action) :: steps) { before with run } := by
  constructor
  · simp only [grown, arrived_cons, arrives, Option.toList_some, List.singleton_append, List.reverse_cons,
      polling.stored]
  · exact polling.answerable
  · intro other member
    rw [grown]
    exact List.mem_append_left _ (polling.received other member)
  · simp only [grown, nothingLate_cons, arrives, Option.some.injEq, forall_eq', List.filter_append]
    cases late : passed before.cursor step with
    | false => simp [late, polling.exactly]
    | true =>
        simp only [List.filter_cons, late, if_true, List.filter_nil, Bool.true_eq_false, false_and, iff_false]
        intro same
        exact unstored (polling.received step (same.mem_iff.mpr (List.mem_append_right _ List.mem_cons_self)))

theorem Polling.poll (polling : Polling steps before)
    (replied : adminAgentRunSteps ids.runId before.run before.cursor = .ok reply)
    (nonnegative : ∀ step ∈ ledger before.run, 0 ≤ stepSeq step) :
    Polling ((before, .poll) :: steps) { before with
      cursor := reply.nextAfterSeq
      received := before.received ++ reply.steps } ∧
    ((before.received ++ reply.steps).Perm (ledger before.run) ↔ NothingLate steps) := by
  obtain ⟨selected, passes, next⟩ := adminAgentRunSteps_ok replied
  have split : ((ledger before.run).filter (passed before.cursor) ++
      (ledger before.run).filter fun step => !passed before.cursor step).Perm (ledger before.run) :=
    List.filter_append_perm ..
  have complete : (before.received ++ reply.steps).Perm (ledger before.run) ↔ NothingLate steps := by
    rw [← polling.exactly]
    constructor
    · intro all
      have joined := all.trans (split.symm.trans (selected.symm.append_left _))
      exact (List.perm_append_right_iff _).mp joined
    · intro same
      exact (same.append selected).trans split
  refine ⟨⟨?_, ?_, ?_, ?_⟩, complete⟩
  · rw [polling.stored, arrived_cons]
    rfl
  · intro seq same
    obtain earlier | ⟨step, member, rfl⟩ := next seq same
    · exact polling.answerable seq earlier
    · exact nonnegative step member
  · intro step member
    obtain earlier | newly := List.mem_append.mp member
    · exact polling.received step earlier
    · exact (List.mem_filter.mp (selected.mem_iff.mp newly)).1
  · have all : (ledger before.run).filter (passed reply.nextAfterSeq) = ledger before.run :=
      List.filter_eq_self.mpr passes
    simp only [all, complete, nothingLate_cons, arrivesIn]
    simp

theorem DistinctSteps.nonnegative (distinct : DistinctSteps steps) (polling : Polling steps before) :
    ∀ step ∈ ledger before.run, 0 ≤ stepSeq step := by
  intro step member
  rw [polling.stored, List.mem_reverse] at member
  obtain ⟨seq, named⟩ := distinct.named step member
  simp [stepSeq, named]

theorem Polling.step (polling : Polling steps before) (distinct : DistinctSteps ((before, action) :: steps))
    (stepped : PolledRun.step ids action before = some after) :
    Polling ((before, action) :: steps) after := by
  cases action with
  | poll =>
      simp only [PolledRun.step] at stepped
      cases replied : adminAgentRunSteps ids.runId before.run before.cursor with
      | ok reply =>
          rw [replied] at stepped
          cases stepped
          exact (polling.poll replied (distinct.earlier.nonnegative polling)).1
      | error refusal =>
          rw [replied] at stepped
          cases stepped
          exact polling.unreported rfl rfl
  | call call =>
      obtain ⟨run, called, rfl⟩ := Option.map_eq_some_iff.mp stepped
      have moved := ledger_step called
      cases accepted : acceptedStep before.run call with
      | none =>
          rw [accepted] at moved
          exact polling.unreported accepted moved.1
      | some step =>
          rw [accepted] at moved
          have arrives : arrived ((before, .call call) :: steps) = step :: arrived steps := by
            rw [arrived_cons, arrivesIn, accepted]
            rfl
          have few := distinct.few
          have fresh := distinct.distinct
          rw [arrives] at few fresh
          rw [List.map_cons, List.nodup_cons] at fresh
          have unknown : ∀ stored ∈ ledger before.run, stored.seq ≠ step.seq := by
            intro stored member same
            rw [polling.stored, List.mem_reverse] at member
            exact fresh.1 (List.mem_map.mpr ⟨stored, member, same⟩)
          have room : (ledger before.run ++ [step]).length ≤ stepsCap := by
            rw [polling.stored, List.length_append, List.length_reverse]
            exact few
          refine polling.reported accepted (fun stored => unknown step stored rfl) ?_
          obtain ⟨_, ⟨stored, member, same⟩, _⟩ | ⟨_, appended⟩ := appendStep_cases (ledger before.run) step
          · exact absurd same (unknown stored member)
          · rw [moved.1, appended]
            exact if_neg (by omega)

theorem polling (ran : (PolledRun.machine ids).Run steps last) (distinct : DistinctSteps steps) :
    Polling steps last := by
  induction ran with
  | start => exact polling_initially
  | step ran stepped ih => exact (ih distinct.earlier).step distinct stepped

/-- With a last poll the replies hold every stored step once exactly if no step
has arrived at or below a cursor handed out before. -/
theorem polls_complete_iff (ran : (PolledRun.machine ids).Run steps last) (distinct : DistinctSteps steps)
    (polls : (PolledRun.machine ids).step .poll last = some final) :
    final.received.Perm (ledger final.run) ↔ NothingLate steps := by
  have known := polling ran distinct
  simp only [PolledRun.machine, PolledRun.step] at polls
  cases replied : adminAgentRunSteps ids.runId last.run last.cursor with
  | ok reply =>
      rw [replied] at polls
      cases polls
      exact (known.poll replied (distinct.nonnegative known)).2
  | error refusal =>
      rw [replied] at polls
      cases polls
      have absent := adminAgentRunSteps_error replied known.answerable
      have none : ledger last.run = [] := by rw [absent]; rfl
      rw [← known.exactly, none, List.filter_nil]

def pollsBetween (first second : Nat) : List (PolledRun.Action Unit) :=
  [.call (stepReport first), .poll, .call (stepReport second)]

def DistinctSteps.holds (steps : List (PolledRun Unit × PolledRun.Action Unit)) : Bool :=
  (arrived steps).all (fun step => step.seq.any fun seq => 0 ≤ seq) &&
    ((arrived steps).map AgentStep.seq).Nodup && (arrived steps).length ≤ stepsCap

theorem DistinctSteps.of_holds {steps : List (PolledRun Unit × PolledRun.Action Unit)}
    (holds : DistinctSteps.holds steps = true) : DistinctSteps steps := by
  simp only [DistinctSteps.holds, Bool.and_eq_true, decide_eq_true_eq, List.all_eq_true] at holds
  refine ⟨fun step member => ?_, holds.1.2, holds.2⟩
  obtain ⟨seq, named, above⟩ := (Option.any_eq_true ..).mp (holds.1.1 step member)
  exact ⟨seq.toNat, by rw [named, Int.toNat_of_nonneg (of_decide_eq_true above)]⟩

/-- Steps that arrive in order are all handed over. -/
theorem polls_complete_in_order :
    ∃ (steps : List (PolledRun Unit × PolledRun.Action Unit)) (last final : PolledRun Unit),
    (PolledRun.machine reportedIds).Run steps last ∧
    (PolledRun.machine reportedIds).step .poll last = some final ∧ NothingLate steps ∧
    (ledger final.run).length = 2 ∧ final.received.Perm (ledger final.run) := by
  obtain ⟨steps, last, ran, holds⟩ := @Machine.exists_run _ _ (PolledRun.machine reportedIds)
    (pollsBetween 0 1) (fun steps last => DistinctSteps.holds steps &&
      ((PolledRun.machine reportedIds).step .poll last).any fun final =>
        final.received = ledger final.run && (ledger final.run).length = 2) (by decide +kernel)
  simp only [Bool.and_eq_true, Option.any_eq_true, decide_eq_true_eq] at holds
  obtain ⟨distinct, final, polls, complete, two⟩ := holds
  have same : final.received.Perm (ledger final.run) := complete ▸ List.Perm.refl _
  exact ⟨steps, last, final, ran, polls,
    (polls_complete_iff ran (.of_holds distinct) polls).mp same, two, same⟩

/-- The step with seq 0 arrives after a poll that has seen seq 1. -/
theorem late_step_missed :
    ∃ (steps : List (PolledRun Unit × PolledRun.Action Unit)) (last final : PolledRun Unit),
    (PolledRun.machine reportedIds).Run steps last ∧ DistinctSteps steps ∧
    (PolledRun.machine reportedIds).step .poll last = some final ∧
    ¬ final.received.Perm (ledger final.run) := by
  obtain ⟨steps, last, ran, holds⟩ := @Machine.exists_run _ _ (PolledRun.machine reportedIds)
    (pollsBetween 1 0) (fun steps last => DistinctSteps.holds steps &&
      ((PolledRun.machine reportedIds).step .poll last).any fun final =>
        final.received.length ≠ (ledger final.run).length) (by decide +kernel)
  simp only [Bool.and_eq_true, Option.any_eq_true, decide_eq_true_eq] at holds
  obtain ⟨distinct, final, polls, differs⟩ := holds
  exact ⟨steps, last, final, ran, .of_holds distinct, polls, fun same => differs same.length_eq⟩

end IncidentPlatform.Properties

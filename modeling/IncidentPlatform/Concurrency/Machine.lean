import Mathlib.Algebra.GroupWithZero.Nat
import Mathlib.Data.List.Basic

namespace IncidentPlatform.Concurrency

/-! # Machines and their runs

A machine is one component that takes one labelled step at a time.  A run keeps
every step taken, with the state it was taken in, so that a condition on the
steps and a property of the states visited are both statements about the run.
-/

structure Machine (State Label : Type) where
  initial : State
  /-- One step; `none` where the label cannot happen. -/
  step : Label → State → Option State

variable {State Label : Type}

namespace Machine

variable (machine : Machine State Label)

/-- Steps from one state to another, newest first. -/
inductive Segment (start : State) : List (State × Label) → State → Prop where
  | start : Segment start [] start
  | step {steps : List (State × Label)} {before after : State} {label : Label}
      (ran : Segment start steps before) (stepped : machine.step label before = some after) :
      Segment start ((before, label) :: steps) after

/-- A run and the state it ends in. -/
abbrev Run : List (State × Label) → State → Prop := machine.Segment machine.initial

/-- The states of a run that ends in `last`. -/
def visited (steps : List (State × Label)) (last : State) : List State :=
  last :: steps.map Prod.fst

variable {machine} {steps : List (State × Label)} {start last : State}
  {permits : State → Label → Prop} {holds : State → Prop}

/-- What every step of a segment keeps holds at its end. -/
theorem Segment.keeps (ran : machine.Segment start steps last) (initially : holds start)
    (kept : ∀ {before label after}, (before, label) ∈ steps → holds before →
      machine.step label before = some after → holds after) : holds last := by
  induction ran with
  | start => exact initially
  | step ran stepped ih =>
      have earlier := ih fun member => kept (List.mem_cons_of_mem _ member)
      exact kept List.mem_cons_self earlier stepped

/-- A segment is one before any of its steps, the step, and one after it. -/
theorem Segment.split {later earlier : List (State × Label)} {before : State} {label : Label}
    (ran : machine.Segment start (later ++ (before, label) :: earlier) last) :
    ∃ after, machine.Segment start earlier before ∧ machine.step label before = some after ∧
      machine.Segment after later last := by
  induction later generalizing last with
  | nil =>
      cases ran with
      | step ran stepped => exact ⟨_, ran, stepped, .start⟩
  | cons newest later ih =>
      cases ran with
      | step ran stepped =>
          obtain ⟨after, first, second, third⟩ := ih ran
          exact ⟨after, first, second, third.step stepped⟩

/-- A segment is one to any state that it visits, and one from there. -/
theorem Segment.cut {count : Nat} {middle : State} (ran : machine.Segment start steps last)
    (found : (visited steps last)[count]? = some middle) :
    machine.Segment start (steps.drop count) middle ∧ machine.Segment middle (steps.take count) last := by
  induction ran generalizing count with
  | start =>
      cases count with
      | zero =>
          cases found
          exact ⟨.start, .start⟩
      | succ count => cases found
  | step ran stepped ih =>
      cases count with
      | zero =>
          cases found
          exact ⟨ran.step stepped, .start⟩
      | succ count =>
          obtain ⟨first, second⟩ := ih found
          exact ⟨first, second.step stepped⟩

/-- What every permitted step keeps holds at every state of a run of permitted
steps. -/
theorem Run.always (ran : machine.Run steps last) (initially : holds machine.initial)
    (kept : ∀ {before label after}, holds before → permits before label →
      machine.step label before = some after → holds after)
    (permitted : ∀ taken ∈ steps, permits taken.1 taken.2) :
    ∀ state ∈ visited steps last, holds state := by
  induction ran with
  | start =>
      intro state member
      cases List.mem_singleton.mp member
      exact initially
  | step ran stepped ih =>
      have earlier := ih fun taken member => permitted taken (List.mem_cons_of_mem _ member)
      intro state member
      obtain rfl | older := List.mem_cons.mp member
      · exact kept (earlier _ List.mem_cons_self) (permitted _ List.mem_cons_self) stepped
      · exact earlier state older

/-- What every step keeps holds at every state of a run. -/
theorem Run.everywhere (ran : machine.Run steps last) (initially : holds machine.initial)
    (kept : ∀ {before label after}, holds before → machine.step label before = some after →
      holds after) :
    ∀ state ∈ visited steps last, holds state :=
  ran.always initially (fun earlier (_ : True) stepped => kept earlier stepped) fun _ _ => trivial

/-- Where a step from a good state is good exactly if it is permitted, a run
visits good states only exactly if all its steps are permitted.  The invariant is
what every step keeps, permitted or not. -/
theorem Run.always_iff_within (invariant : State → Prop) (ran : machine.Run steps last)
    (initially : holds machine.initial) (established : invariant machine.initial)
    (preserved : ∀ {before label after}, invariant before → machine.step label before = some after →
      invariant after)
    (agrees : ∀ {before label after}, invariant before → holds before →
      machine.step label before = some after → (holds after ↔ permits before label)) :
    (∀ state ∈ visited steps last, holds state) ↔ ∀ taken ∈ steps, permits taken.1 taken.2 := by
  have reached := ran.everywhere established preserved
  induction ran with
  | start =>
      refine ⟨fun _ taken member => (by cases member), fun _ state member => ?_⟩
      cases List.mem_singleton.mp member
      exact initially
  | @step earlier before after label ran stepped ih =>
      have known := reached before (List.mem_cons_of_mem _ List.mem_cons_self)
      have ih := ih fun state member => reached state (List.mem_cons_of_mem _ member)
      constructor
      · intro good taken member
        have goodBefore := good before (List.mem_cons_of_mem _ List.mem_cons_self)
        obtain rfl | older := List.mem_cons.mp member
        · exact (agrees known goodBefore stepped).mp (good _ List.mem_cons_self)
        · exact ih.mp (fun state found => good state (List.mem_cons_of_mem _ found)) taken older
      · intro permitted state member
        have goodEarlier := ih.mpr fun taken older => permitted taken (List.mem_cons_of_mem _ older)
        obtain rfl | older := List.mem_cons.mp member
        · exact (agrees known (goodEarlier _ List.mem_cons_self) stepped).mpr
            (permitted _ List.mem_cons_self)
        · exact goodEarlier state older

theorem Run.always_iff (ran : machine.Run steps last) (initially : holds machine.initial)
    (agrees : ∀ {before label after}, holds before → machine.step label before = some after →
      (holds after ↔ permits before label)) :
    (∀ state ∈ visited steps last, holds state) ↔ ∀ taken ∈ steps, permits taken.1 taken.2 :=
  Run.always_iff_within (fun _ => True) ran initially trivial (fun _ _ => trivial) fun _ => agrees

/-- What a marked step brings about, and every step keeps, holds after a run with
a marked step. -/
theorem Segment.since (marked : Label → Prop) (holds : State → Prop)
    (ran : machine.Segment start steps last)
    (brought : ∀ {before label after}, marked label → machine.step label before = some after →
      holds after)
    (kept : ∀ {before label after}, holds before → machine.step label before = some after →
      holds after)
    {taken : State × Label} (member : taken ∈ steps) (isMarked : marked taken.2) : holds last := by
  induction ran with
  | start => cases member
  | step ran stepped ih =>
      obtain rfl | older := List.mem_cons.mp member
      · exact brought isMarked stepped
      · exact kept (ih older) stepped

/-- What only a marked step brings about holds after a run that has one. -/
theorem Segment.because (marked : Label → Prop) (holds : State → Prop)
    (ran : machine.Segment start steps last)
    (initially : ¬ holds start)
    (brought : ∀ {before label after}, ¬ holds before → machine.step label before = some after →
      holds after → marked label)
    (reached : holds last) : ∃ taken ∈ steps, marked taken.2 := by
  induction ran with
  | start => exact absurd reached initially
  | @step steps before after label ran stepped ih =>
      by_cases earlier : holds before
      · obtain ⟨taken, member, isMarked⟩ := ih earlier
        exact ⟨taken, List.mem_cons_of_mem _ member, isMarked⟩
      · exact ⟨_, List.mem_cons_self, brought earlier stepped reached⟩

variable (machine) in
/-- The steps and the last state of the run of `labels`, oldest label first. -/
def follow : List Label → List (State × Label) × State → Option (List (State × Label) × State)
  | [], reached => some reached
  | label :: rest, (steps, state) =>
      match machine.step label state with
      | some after => follow rest ((state, label) :: steps, after)
      | none => none

theorem Run.follow {labels : List Label} {reached : List (State × Label) × State}
    (ran : machine.Run steps last) (followed : machine.follow labels (steps, last) = some reached) :
    machine.Run reached.1 reached.2 := by
  induction labels generalizing steps last with
  | nil =>
      cases followed
      exact ran
  | cons label rest ih =>
      simp only [Machine.follow] at followed
      split at followed
      · rename_i after stepped
        exact ih (ran.step stepped) followed
      · contradiction

theorem exists_run (labels : List Label) {check : List (State × Label) → State → Bool}
    (passes : ((machine.follow labels ([], machine.initial)).any fun reached =>
      check reached.1 reached.2) = true) :
    ∃ steps last, machine.Run steps last ∧ check steps last = true := by
  cases followed : machine.follow labels ([], machine.initial) with
  | none =>
      rw [followed] at passes
      contradiction
  | some reached =>
      rw [followed] at passes
      exact ⟨reached.1, reached.2, Run.follow .start followed, passes⟩

end Machine

end IncidentPlatform.Concurrency

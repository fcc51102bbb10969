import IncidentPlatform.Concurrency.Pool

namespace IncidentPlatform.Concurrency

/-! # Programs that run alone

The runs of one process while no other process runs.  Only the environment
moves between two of its operations.
-/

variable {World Role Op Change : Type} {Reply : Op → Type} {α β : Type}

/-- What the environment can do by itself. -/
inductive Drifts (system : System World Role Op Reply Change) : World → World → Prop where
  | refl (world : World) : Drifts system world world
  | step {world middle after : World} {change : Change} :
      system.environment change world = some middle → Drifts system middle after →
      Drifts system world after

theorem Drifts.trans {system : System World Role Op Reply Change} {world middle after : World}
    (first : Drifts system world middle) (second : Drifts system middle after) :
    Drifts system world after := by
  induction first with
  | refl world => exact second
  | step changed _ ih => exact .step changed (ih second)

inductive Alone (system : System World Role Op Reply Change) (pid : Pid) :
    Program Op Reply α → World → α → World → Prop where
  | done {value : α} {world after : World} :
      Drifts system world after → Alone system pid (.done value) world value after
  | call {operation : Op} {next : Reply operation → Program Op Reply α} {reply : Reply operation}
      {world drifted middle after : World} {value : α} :
      Drifts system world drifted → system.execute pid operation drifted = some (reply, middle) →
      Alone system pid (next reply) middle value after →
      Alone system pid (.call operation next) world value after

namespace Alone

variable {system : System World Role Op Reply Change} {pid : Pid}

theorem of_done {value result : α} {world after : World}
    (ran : Alone system pid (.done value) world result after) :
    result = value ∧ Drifts system world after := by
  cases ran with
  | done drifts => exact ⟨rfl, drifts⟩

theorem of_call {operation : Op} {next : Reply operation → Program Op Reply α}
    {world after : World} {value : α}
    (ran : Alone system pid (.call operation next) world value after) :
    ∃ reply drifted middle, Drifts system world drifted ∧
      system.execute pid operation drifted = some (reply, middle) ∧
      Alone system pid (next reply) middle value after := by
  cases ran with
  | call drifts executed rest => exact ⟨_, _, _, drifts, executed, rest⟩

/-- A sequence of programs runs as the first one and then the second. -/
theorem of_bind {program : Program Op Reply α} {rest : α → Program Op Reply β}
    {world after : World} {value : β} (ran : Alone system pid (program.bind rest) world value after) :
    ∃ result middle, Alone system pid program world result middle ∧
      Alone system pid (rest result) middle value after := by
  induction program generalizing world with
  | done result => exact ⟨result, world, .done (.refl world), ran⟩
  | call operation next ih =>
      obtain ⟨reply, drifted, middle, drifts, executed, ran⟩ := of_call ran
      obtain ⟨result, last, first, second⟩ := ih reply ran
      exact ⟨result, last, .call drifts executed first, second⟩

theorem after_drift {program : Program Op Reply α} {world middle after : World} {value : α}
    (drifts : Drifts system world middle) (ran : Alone system pid program middle value after) :
    Alone system pid program world value after := by
  cases ran with
  | done later => exact .done (drifts.trans later)
  | call later executed rest => exact .call (drifts.trans later) executed rest

theorem bind {program : Program Op Reply α} {rest : α → Program Op Reply β}
    {world middle after : World} {result : α} {value : β}
    (first : Alone system pid program world result middle)
    (second : Alone system pid (rest result) middle value after) :
    Alone system pid (program.bind rest) world value after := by
  induction first with
  | done drifts => exact after_drift drifts second
  | call drifts executed _ ih => exact .call drifts executed (ih second)

/-- A program whose operations can all be performed, once the environment has
moved, runs to its end. -/
theorem exists_run {allowed : Op → Prop} {motive : World → Prop} {program : Program Op Reply α}
    {world : World} (uses : program.Uses allowed)
    (operate : ∀ operation world, allowed operation → motive world →
      ∃ drifted reply after, Drifts system world drifted ∧
        system.execute pid operation drifted = some (reply, after) ∧ motive after)
    (entry : motive world) : ∃ value after, Alone system pid program world value after := by
  induction program generalizing world with
  | done value => exact ⟨value, world, .done (.refl world)⟩
  | call operation next ih =>
      obtain ⟨drifted, reply, middle, drifts, executed, kept⟩ := operate operation world uses.1 entry
      obtain ⟨value, after, ran⟩ := ih reply (uses.2 reply) kept
      exact ⟨value, after, .call drifts executed ran⟩

/-- What each operation of a program and the environment keep, a run keeps. -/
theorem keeps {allowed : Op → Prop} {motive : World → Prop} {program : Program Op Reply α}
    {world after : World} {value : α} (ran : Alone system pid program world value after)
    (uses : program.Uses allowed)
    (drift : ∀ world after, Drifts system world after → motive world → motive after)
    (operate : ∀ operation reply world after, allowed operation →
      system.execute pid operation world = some (reply, after) → motive world → motive after)
    (entry : motive world) : motive after := by
  induction ran with
  | done drifts => exact drift _ _ drifts entry
  | call drifts executed _ ih =>
      exact ih (uses.2 _) (operate _ _ _ _ uses.1 executed (drift _ _ drifts entry))

end Alone

/-! ## Runs with their operations

The same runs, with every operation and the world it was performed in, oldest
first.
-/

inductive Traced (system : System World Role Op Reply Change) (pid : Pid) :
    Program Op Reply α → World → List (Op × World) → α → World → Prop where
  | done {value : α} {world after : World} :
      Drifts system world after → Traced system pid (.done value) world [] value after
  | call {operation : Op} {next : Reply operation → Program Op Reply α} {reply : Reply operation}
      {world drifted middle after : World} {trace : List (Op × World)} {value : α} :
      Drifts system world drifted → system.execute pid operation drifted = some (reply, middle) →
      Traced system pid (next reply) middle trace value after →
      Traced system pid (.call operation next) world ((operation, drifted) :: trace) value after

namespace Traced

variable {system : System World Role Op Reply Change} {pid : Pid}

theorem of_done {value result : α} {world after : World} {trace : List (Op × World)}
    (ran : Traced system pid (.done value) world trace result after) :
    trace = [] ∧ result = value ∧ Drifts system world after := by
  cases ran with
  | done drifts => exact ⟨rfl, rfl, drifts⟩

theorem of_call {operation : Op} {next : Reply operation → Program Op Reply α}
    {world after : World} {trace : List (Op × World)} {value : α}
    (ran : Traced system pid (.call operation next) world trace value after) :
    ∃ reply drifted middle rest, trace = (operation, drifted) :: rest ∧
      Drifts system world drifted ∧ system.execute pid operation drifted = some (reply, middle) ∧
      Traced system pid (next reply) middle rest value after := by
  cases ran with
  | call drifts executed rest => exact ⟨_, _, _, _, rfl, drifts, executed, rest⟩

theorem of_bind {program : Program Op Reply α} {rest : α → Program Op Reply β}
    {world after : World} {trace : List (Op × World)} {value : β}
    (ran : Traced system pid (program.bind rest) world trace value after) :
    ∃ result middle first second, trace = first ++ second ∧
      Traced system pid program world first result middle ∧
      Traced system pid (rest result) middle second value after := by
  induction program generalizing world trace with
  | done result => exact ⟨result, world, [], trace, rfl, .done (.refl world), ran⟩
  | call operation next ih =>
      obtain ⟨reply, drifted, middle, later, rfl, drifts, executed, ran⟩ := of_call ran
      obtain ⟨result, last, first, second, rfl, before, after⟩ := ih reply ran
      exact ⟨result, last, _ :: first, second, rfl, .call drifts executed before, after⟩

theorem alone {program : Program Op Reply α} {world after : World} {trace : List (Op × World)}
    {value : α} (ran : Traced system pid program world trace value after) :
    Alone system pid program world value after := by
  induction ran with
  | done drifts => exact .done drifts
  | call drifts executed _ ih => exact .call drifts executed ih

/-- What a program may do is all that its trace shows. -/
theorem uses {allowed : Op → Prop} {program : Program Op Reply α} {world after : World}
    {trace : List (Op × World)} {value : α} (ran : Traced system pid program world trace value after)
    (uses : program.Uses allowed) : ∀ entry ∈ trace, allowed entry.1 := by
  induction ran with
  | done drifts =>
      intro entry member
      cases member
  | call drifts executed _ ih =>
      intro entry member
      cases List.mem_cons.mp member with
      | inl same =>
          rw [same]
          exact uses.1
      | inr later => exact ih (uses.2 _) entry later

end Traced

theorem Alone.traced {system : System World Role Op Reply Change} {pid : Pid}
    {program : Program Op Reply α} {world after : World} {value : α}
    (ran : Alone system pid program world value after) :
    ∃ trace, Traced system pid program world trace value after := by
  induction ran with
  | done drifts => exact ⟨[], .done drifts⟩
  | call drifts executed _ ih =>
      obtain ⟨trace, rest⟩ := ih
      exact ⟨_, .call drifts executed rest⟩

/-- The run in which the environment makes the move `change` chooses before
every operation. -/
def System.solo (system : System World Role Op Reply Change) (pid : Pid) (change : World → Change) :
    Program Op Reply α → World → Option (α × World)
  | .done value, world => some (value, world)
  | .call operation next, world =>
      match system.environment (change world) world with
      | none => none
      | some drifted =>
          match system.execute pid operation drifted with
          | none => none
          | some (reply, after) => solo system pid change (next reply) after

theorem Alone.of_solo {system : System World Role Op Reply Change} {pid : Pid}
    {change : World → Change} {program : Program Op Reply α} {world after : World} {value : α}
    (ran : system.solo pid change program world = some (value, after)) :
    Alone system pid program world value after := by
  induction program generalizing world with
  | done result =>
      cases ran
      exact .done (.refl _)
  | call operation next ih =>
      simp only [System.solo] at ran
      split at ran
      · contradiction
      · rename_i drifted changed
        split at ran
        · contradiction
        · rename_i reply middle executed
          exact .call (.step changed (.refl drifted)) executed (ih reply ran)

/-- The environment's part of a pool run. -/
theorem Drifts.reaches {system : System World Role Op Reply Change} {world after : World}
    (drifts : Drifts system world after) {pool : Pool World Role Op Reply} (same : pool.world = world) :
    system.Reaches pool { pool with world := after } := by
  induction drifts generalizing pool with
  | refl world =>
      subst same
      exact .refl
  | @step world middle after change changed _ ih =>
      subst same
      have stepped : system.step (.environment change) pool = some { pool with world := middle } := by
        rw [System.step, changed]
      exact (System.Reaches.refl.step stepped).trans (ih rfl)

/-- A run alone is a run of the pool in which the process has just started. -/
theorem Alone.reaches {system : System World Role Op Reply Change} {pid : Pid} {role : Role}
    {program : Program Op Reply Unit} {world after : World} {value : Unit}
    (ran : Alone system pid program world value after) {pool : Pool World Role Op Reply}
    (same : pool.world = world) (present : pool.process pid = some { role, program }) :
    ∃ final, system.Reaches pool final ∧ final.world = after ∧
      ∀ other, other ≠ pid → final.process other = pool.process other := by
  induction ran generalizing pool with
  | done drifts => exact ⟨_, drifts.reaches same, rfl, fun _ _ => rfl⟩
  | @call operation next reply world drifted middle after value drifts executed _ ih =>
      have moved := drifts.reaches same
      have stepped : system.step (.run pid) { pool with world := drifted } =
          some (({ pool with world := drifted } : Pool World Role Op Reply).record pid role operation
            reply (next reply) middle) := by
        simp only [System.step, present, executed]
      obtain ⟨final, reached, last, others⟩ :=
        @ih (({ pool with world := drifted } : Pool World Role Op Reply).record pid role
          operation reply (next reply) middle) rfl (Pool.setProcess_self ..)
      refine ⟨final, (moved.step stepped).trans reached, last, fun other different => ?_⟩
      rw [others other different]
      exact Pool.setProcess_other _ _ different

end IncidentPlatform.Concurrency

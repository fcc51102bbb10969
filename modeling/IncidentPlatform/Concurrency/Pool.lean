import IncidentPlatform.Concurrency.Program
import Mathlib.Data.List.Basic

namespace IncidentPlatform.Concurrency

/-! # Pools of interleaved programs

A pool is a shared world and the processes started in it so far.  One label is
one step: start a process, let one process perform its next operation, or let
the environment change the world.  The log keeps every operation performed,
newest first, with its reply and the world it was performed in, so that a
property of a run is a property of the log of the state it ends in.
-/

abbrev Pid := Nat

structure System (World Role Op : Type) (Reply : Op → Type) (Change : Type) where
  program : Role → Program Op Reply Unit
  /-- What starting a process in this role does to the world; `none` where it
  cannot start. -/
  accept : Role → World → Option World
  /-- One operation of one process; `none` while it is blocked. -/
  execute : Pid → (operation : Op) → World → Option (Reply operation × World)
  environment : Change → World → Option World

structure Entry (World Role Op : Type) (Reply : Op → Type) where
  pid : Pid
  role : Role
  operation : Op
  reply : Reply operation
  before : World

/-- A started process: its role and what is left of its program. -/
structure Process (Role Op : Type) (Reply : Op → Type) where
  role : Role
  program : Program Op Reply Unit

structure Pool (World Role Op : Type) (Reply : Op → Type) where
  world : World
  process : Pid → Option (Process Role Op Reply)
  log : List (Entry World Role Op Reply)

inductive Label (Role Change : Type) where
  | spawn (pid : Pid) (role : Role)
  | run (pid : Pid)
  | environment (change : Change)

variable {World Role Op Change : Type} {Reply : Op → Type}

/-- The pool before any process has started. -/
def Pool.initial (world : World) : Pool World Role Op Reply :=
  { world, process := fun _ => none, log := [] }

def Pool.setProcess (pool : Pool World Role Op Reply) (pid : Pid)
    (process : Process Role Op Reply) : Pid → Option (Process Role Op Reply) :=
  fun other => if other = pid then some process else pool.process other

@[simp] theorem Pool.setProcess_self (pool : Pool World Role Op Reply) (pid : Pid)
    (process : Process Role Op Reply) :
    pool.setProcess pid process pid = some process := by
  simp [Pool.setProcess]

theorem Pool.setProcess_other (pool : Pool World Role Op Reply) {pid other : Pid}
    (process : Process Role Op Reply) (different : other ≠ pid) :
    pool.setProcess pid process other = pool.process other := by
  simp [Pool.setProcess, different]

/-- The pool after `pid` has started. -/
def Pool.start (pool : Pool World Role Op Reply) (pid : Pid) (process : Process Role Op Reply)
    (world : World) : Pool World Role Op Reply :=
  { pool with world, process := pool.setProcess pid process }

/-- The pool after `pid` has performed an operation and moved on to `rest`. -/
def Pool.record (pool : Pool World Role Op Reply) (pid : Pid) (role : Role) (operation : Op)
    (reply : Reply operation) (rest : Program Op Reply Unit) (world : World) :
    Pool World Role Op Reply where
  world
  process := pool.setProcess pid { role, program := rest }
  log := { pid, role, operation, reply, before := pool.world } :: pool.log

section Fields

variable (pool : Pool World Role Op Reply) (pid : Pid) (process : Process Role Op Reply)
  (role : Role) (operation : Op) (reply : Reply operation) (rest : Program Op Reply Unit)
  (world : World)

@[simp] theorem Pool.start_world : (pool.start pid process world).world = world := rfl

@[simp] theorem Pool.start_log : (pool.start pid process world).log = pool.log := rfl

@[simp] theorem Pool.start_process :
    (pool.start pid process world).process = pool.setProcess pid process := rfl

@[simp] theorem Pool.record_world :
    (pool.record pid role operation reply rest world).world = world := rfl

@[simp] theorem Pool.record_log :
    (pool.record pid role operation reply rest world).log =
      { pid, role, operation, reply, before := pool.world } :: pool.log := rfl

@[simp] theorem Pool.record_process :
    (pool.record pid role operation reply rest world).process =
      pool.setProcess pid { role, program := rest } := rfl

end Fields

/-- The operations that `pool` has logged beyond those of `start`. -/
def Pool.since (pool start : Pool World Role Op Reply) : List (Entry World Role Op Reply) :=
  pool.log.take (pool.log.length - start.log.length)

theorem Pool.since_eq {pool start : Pool World Role Op Reply}
    {newer : List (Entry World Role Op Reply)} (logged : pool.log = newer ++ start.log) :
    pool.since start = newer := by
  simp [since, logged]

section Roles

variable {pool : Pool World Role Op Reply} {pid : Pid} {role : Role}
  {operation : Op} {next : Reply operation → Program Op Reply Unit} {reply : Reply operation}
  {world : World} {other : Pid} {process : Process Role Op Reply}

/-- Performing an operation changes no role. -/
theorem Pool.role_of_record
    (found : pool.process pid = some { role, program := .call operation next })
    (present : (pool.record pid role operation reply (next reply) world).process other = some process) :
    ∃ earlier, pool.process other = some earlier ∧ earlier.role = process.role := by
  by_cases same : other = pid
  · subst same
    rw [record_process, setProcess_self] at present
    cases present
    exact ⟨_, found, rfl⟩
  · rw [record_process, setProcess_other _ _ same] at present
    exact ⟨process, present, rfl⟩

theorem Pool.record_role
    (found : pool.process pid = some { role, program := .call operation next })
    (present : pool.process other = some process) :
    ∃ later, (pool.record pid role operation reply (next reply) world).process other = some later ∧
      later.role = process.role := by
  by_cases same : other = pid
  · subst same
    rw [found] at present
    cases present
    exact ⟨_, setProcess_self .., rfl⟩
  · rw [record_process, setProcess_other _ _ same]
    exact ⟨process, present, rfl⟩

end Roles

namespace System

variable (system : System World Role Op Reply Change)

def step : Label Role Change → Pool World Role Op Reply → Option (Pool World Role Op Reply)
  | .spawn pid role, pool =>
      match pool.process pid, system.accept role pool.world with
      | none, some world => some (pool.start pid { role, program := system.program role } world)
      | _, _ => none
  | .run pid, pool =>
      match pool.process pid with
      | some { role, program := .call operation next } =>
          match system.execute pid operation pool.world with
          | some (reply, world) => some (pool.record pid role operation reply (next reply) world)
          | none => none
      | _ => none
  | .environment change, pool =>
      match system.environment change pool.world with
      | some world => some { pool with world }
      | none => none

/-- Everything one step can do: the inversion that each invariant uses. -/
theorem step_cases {label : Label Role Change} {before after : Pool World Role Op Reply}
    (stepped : system.step label before = some after) :
    (∃ pid role world, label = .spawn pid role ∧ before.process pid = none ∧
      system.accept role before.world = some world ∧
      after = before.start pid { role, program := system.program role } world) ∨
    (∃ pid role operation next reply world, label = .run pid ∧
      before.process pid = some { role, program := .call operation next } ∧
      system.execute pid operation before.world = some (reply, world) ∧
      after = before.record pid role operation reply (next reply) world) ∨
    (∃ change world, label = .environment change ∧
      system.environment change before.world = some world ∧
      after = { before with world }) := by
  cases label with
  | spawn pid role =>
      simp only [step] at stepped
      split at stepped
      · rename_i world free accepted
        cases stepped
        exact .inl ⟨pid, role, world, rfl, free, accepted, rfl⟩
      · contradiction
  | run pid =>
      simp only [step] at stepped
      split at stepped
      · rename_i role operation next found
        split at stepped
        · rename_i reply world executed
          cases stepped
          exact .inr (.inl ⟨pid, role, operation, next, reply, world, rfl, found, executed, rfl⟩)
        · contradiction
      · contradiction
  | environment change =>
      simp only [step] at stepped
      split at stepped
      · rename_i world changed
        cases stepped
        exact .inr (.inr ⟨change, world, rfl, changed, rfl⟩)
      · contradiction

/-- The pools that runs from `origin` reach. -/
inductive Reaches (origin : Pool World Role Op Reply) : Pool World Role Op Reply → Prop where
  | refl : Reaches origin origin
  | step {label : Label Role Change} {before after : Pool World Role Op Reply} :
      Reaches origin before → system.step label before = some after → Reaches origin after

/-- A run as the list of its labels, oldest first. -/
def run : List (Label Role Change) → Pool World Role Op Reply → Option (Pool World Role Op Reply)
  | [], pool => some pool
  | label :: rest, pool => (system.step label pool).bind (run rest)

variable {system}

theorem Reaches.trans {origin middle final : Pool World Role Op Reply}
    (first : system.Reaches origin middle) (second : system.Reaches middle final) :
    system.Reaches origin final := by
  induction second with
  | refl => exact first
  | step _ stepped ih => exact ih.step stepped

theorem Reaches.of_run {labels : List (Label Role Change)}
    {origin before after : Pool World Role Op Reply}
    (reached : system.Reaches origin before) (ran : system.run labels before = some after) :
    system.Reaches origin after := by
  induction labels generalizing before with
  | nil =>
      cases ran
      exact reached
  | cons label rest ih =>
      obtain ⟨middle, stepped, tail⟩ := Option.bind_eq_some_iff.mp ran
      exact ih (reached.step stepped) tail

/-- A concrete run whose last pool passes a check. -/
theorem exists_reached {labels : List (Label Role Change)} {origin : Pool World Role Op Reply}
    {check : Pool World Role Op Reply → Bool}
    (passes : (system.run labels origin).any check = true) :
    ∃ pool, system.Reaches origin pool ∧ check pool = true := by
  obtain ⟨pool, ran, checked⟩ := (Option.any_eq_true _ _).mp passes
  exact ⟨pool, Reaches.of_run .refl ran, checked⟩

/-- The invariant rule: what holds at the origin and survives each kind of step
holds in every pool reached. -/
theorem Reaches.invariant {origin pool : Pool World Role Op Reply}
    {motive : Pool World Role Op Reply → Prop} (reached : system.Reaches origin pool)
    (start : motive origin)
    (spawn : ∀ before pid role world, system.Reaches origin before → motive before →
      before.process pid = none → system.accept role before.world = some world →
      motive (before.start pid { role, program := system.program role } world))
    (operate : ∀ before pid role operation next reply world, system.Reaches origin before →
      motive before → before.process pid = some { role, program := .call operation next } →
      system.execute pid operation before.world = some (reply, world) →
      motive (before.record pid role operation reply (next reply) world))
    (environment : ∀ before change world, system.Reaches origin before → motive before →
      system.environment change before.world = some world → motive { before with world }) :
    motive pool := by
  induction reached with
  | refl => exact start
  | step earlier stepped ih =>
      rcases system.step_cases stepped with
        ⟨pid, role, world, _, free, accepted, rfl⟩ |
        ⟨pid, role, operation, next, reply, world, _, found, executed, rfl⟩ |
        ⟨change, world, _, changed, rfl⟩
      · exact spawn _ pid role world earlier ih free accepted
      · exact operate _ pid role operation next reply world earlier ih found executed
      · exact environment _ change world earlier ih changed

/-- A run only adds to the log. -/
theorem Reaches.log_suffix {origin pool : Pool World Role Op Reply} (reached : system.Reaches origin pool) :
    origin.log <:+ pool.log := by
  refine reached.invariant (motive := fun pool => origin.log <:+ pool.log) (List.suffix_refl _) ?_ ?_ ?_
  · exact fun before _ _ _ _ grown _ _ => grown
  · exact fun before _ _ _ _ _ _ _ grown _ _ => grown.trans (List.suffix_cons _ _)
  · exact fun before _ _ _ grown _ => grown

/-- The moment a logged operation was performed: the pool before it, and the
run from there on. -/
structure Moment (system : System World Role Op Reply Change) (origin pool : Pool World Role Op Reply)
    (entry : Entry World Role Op Reply) (before : Pool World Role Op Reply)
    (next : Reply entry.operation → Program Op Reply Unit) (world : World) : Prop where
  earlier : system.Reaches origin before
  later : system.Reaches before pool
  scene : entry.before = before.world
  stood : before.process entry.pid = some { role := entry.role, program := .call entry.operation next }
  performed : system.execute entry.pid entry.operation before.world = some (entry.reply, world)
  after : system.Reaches
    (before.record entry.pid entry.role entry.operation entry.reply (next entry.reply) world) pool

/-- The moment of the entry that has `older` below it in the log. -/
theorem Reaches.moment_at {origin pool : Pool World Role Op Reply} {entry : Entry World Role Op Reply}
    {newer older : List (Entry World Role Op Reply)} (reached : system.Reaches origin pool)
    (empty : origin.log = []) (split : pool.log = newer ++ entry :: older) :
    ∃ before next world, before.log = older ∧ Moment system origin pool entry before next world := by
  induction reached generalizing newer with
  | refl =>
      rw [empty] at split
      cases newer <;> cases split
  | step earlier stepped ih =>
      rcases system.step_cases stepped with
        ⟨pid, role, world, _, _, _, rfl⟩ |
        ⟨pid, role, operation, next, reply, world, _, found, executed, rfl⟩ |
        ⟨change, world, _, _, rfl⟩
      · obtain ⟨before, next, after, below, moment⟩ := ih split
        exact ⟨before, next, after, below, { moment with later := moment.later.step stepped, after := moment.after.step stepped }⟩
      · cases newer with
        | nil =>
            cases split
            exact ⟨_, next, world, rfl, earlier, .step .refl stepped, rfl, found, executed, .refl⟩
        | cons newest newer =>
            obtain ⟨before, next, after, below, moment⟩ := ih (List.cons.inj split).2
            exact ⟨before, next, after, below, { moment with later := moment.later.step stepped, after := moment.after.step stepped }⟩
      · obtain ⟨before, next, after, below, moment⟩ := ih split
        exact ⟨before, next, after, below, { moment with later := moment.later.step stepped, after := moment.after.step stepped }⟩

/-- Only started processes are in the log, each under its own role. -/
theorem Reaches.started {world : World} {pool : Pool World Role Op Reply}
    (reached : system.Reaches (.initial world) pool) :
    ∀ entry ∈ pool.log, ∃ process, pool.process entry.pid = some process ∧
      process.role = entry.role := by
  refine reached.invariant (motive := fun pool => ∀ entry ∈ pool.log, ∃ process,
    pool.process entry.pid = some process ∧ process.role = entry.role) ?_ ?_ ?_ ?_
  · simp [Pool.initial]
  · intro before pid role world _ started unused _ entry member
    obtain ⟨process, present, agrees⟩ := started entry member
    have different : entry.pid ≠ pid := by
      intro same
      rw [same, unused] at present
      cases present
    exact ⟨process, by rw [Pool.start_process, Pool.setProcess_other _ _ different, present], agrees⟩
  · intro before pid role operation next reply world _ started found _ entry member
    rcases List.mem_cons.mp member with same | member
    · subst same
      exact ⟨_, Pool.setProcess_self .., rfl⟩
    · obtain ⟨process, present, agrees⟩ := started entry member
      obtain ⟨later, present, kept⟩ := Pool.record_role found present
      exact ⟨later, present, kept.trans agrees⟩
  · exact fun before change world _ started _ => started

/-- What programs may do, the rest of each process may do, and so it was done. -/
theorem Reaches.uses {may : Role → Op → Prop} {world : World}
    {pool : Pool World Role Op Reply} (reached : system.Reaches (.initial world) pool)
    (uses : ∀ role, (system.program role).Uses (may role)) :
    (∀ pid process, pool.process pid = some process →
      process.program.Uses (may process.role)) ∧
      ∀ entry ∈ pool.log, may entry.role entry.operation := by
  refine reached.invariant (motive := fun pool => (∀ pid process, pool.process pid = some process →
      process.program.Uses (may process.role)) ∧
      ∀ entry ∈ pool.log, may entry.role entry.operation) ?_ ?_ ?_ ?_
  · exact ⟨fun pid process found => (by cases found), by simp [Pool.initial]⟩
  · rintro before pid role world _ ⟨running, logged⟩ _ _
    refine ⟨fun other process found => ?_, logged⟩
    by_cases same : other = pid
    · subst same
      rw [Pool.start_process, Pool.setProcess_self] at found
      cases found
      exact uses role
    · rw [Pool.start_process, Pool.setProcess_other _ _ same] at found
      exact running other process found
  · rintro before pid role operation next reply world _ ⟨running, logged⟩ found _
    have current := running pid _ found
    refine ⟨fun other process present => ?_, fun entry member => ?_⟩
    · by_cases same : other = pid
      · subst same
        rw [Pool.record_process, Pool.setProcess_self] at present
        cases present
        exact current.2 reply
      · rw [Pool.record_process, Pool.setProcess_other _ _ same] at present
        exact running other process present
    · rcases List.mem_cons.mp member with rfl | member
      · exact current.1
      · exact logged entry member
  · exact fun before change world _ kept _ => kept

end System

namespace Protocol

variable (protocol : Protocol Role Op Reply)

/-- The typestate that the logged operations of `pid` have driven it to. -/
def stateFrom (role : Role) (pid : Pid) : List (Entry World Role Op Reply) → protocol.State
  | [] => protocol.start role
  | entry :: older =>
      if entry.pid = pid then
        protocol.advance (stateFrom role pid older) entry.operation entry.reply
      else stateFrom role pid older

variable {protocol}

theorem stateFrom_other {role : Role} {pid : Pid} {entry : Entry World Role Op Reply}
    {older : List (Entry World Role Op Reply)} (different : entry.pid ≠ pid) :
    protocol.stateFrom role pid (entry :: older) = protocol.stateFrom role pid older := by
  simp [stateFrom, different]

theorem stateFrom_unlogged {role : Role} {pid : Pid} {log : List (Entry World Role Op Reply)}
    (unlogged : ∀ entry ∈ log, entry.pid ≠ pid) :
    protocol.stateFrom role pid log = protocol.start role := by
  induction log with
  | nil => rfl
  | cons entry older ih =>
      rw [stateFrom_other (unlogged entry (by simp))]
      exact ih fun entry member => unlogged entry (by simp [member])

variable (protocol)

/-- Every process of the pool keeps to the protocol from here on. -/
def KeptBy (pool : Pool World Role Op Reply) : Prop :=
  ∀ pid process, pool.process pid = some process →
    process.program.Follows protocol (protocol.stateFrom process.role pid pool.log)
      fun _ _ => True

variable {protocol}

/-- Programs that follow a protocol from their start keep to it in every
interleaving. -/
theorem keptBy_of_reaches {system : System World Role Op Reply Change} {world : World}
    {pool : Pool World Role Op Reply}
    (conforms : ∀ role, (system.program role).Follows protocol (protocol.start role) fun _ _ => True)
    (reached : system.Reaches (.initial world) pool) : protocol.KeptBy pool := by
  refine reached.invariant (motive := protocol.KeptBy) ?_ ?_ ?_ ?_
  · intro pid process found
    cases found
  · intro before pid role world earlier kept unused _ other process present
    by_cases same : other = pid
    · subst same
      rw [Pool.start_process, Pool.setProcess_self] at present
      cases present
      have unlogged : ∀ entry ∈ before.log, entry.pid ≠ other := by
        intro entry member logged
        obtain ⟨process, present, _⟩ := earlier.started entry member
        rw [logged, unused] at present
        cases present
      rw [Pool.start_log, stateFrom_unlogged unlogged]
      exact conforms role
    · rw [Pool.start_process, Pool.setProcess_other _ _ same] at present
      exact kept other process present
  · intro before pid role operation next reply world _ kept found _ other process present
    have current := kept pid _ found
    by_cases same : other = pid
    · subst same
      rw [Pool.record_process, Pool.setProcess_self] at present
      cases present
      simpa only [Pool.record_log, stateFrom, if_true] using current.2 reply
    · rw [Pool.record_process, Pool.setProcess_other _ _ same] at present
      rw [Pool.record_log, stateFrom_other (Ne.symm same)]
      exact kept other process present
  · exact fun before change world _ kept _ => kept

end Protocol

end IncidentPlatform.Concurrency

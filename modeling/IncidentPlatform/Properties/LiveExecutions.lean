import IncidentPlatform.Properties.Execution

namespace IncidentPlatform.Properties

open Concurrency Models Platform Repositories Services Storage

/-! # At most one live execution of a job -/

theorem executionOf_record (job : Uuid) (pool : PlatformPool) (pid : Pid) (role : Role)
    (operation : Op) (reply : Reply operation) (rest : Prog Unit) (world : World) (queried : Pid) :
    executionOf job queried (pool.record pid role operation reply rest world).log =
      if pid = queried then (executionOf job queried pool.log).advance job operation reply
      else executionOf job queried pool.log := rfl

/-- What a process may do next, given how far its execution has come. -/
structure ExecutionAllowed (job : Uuid) (role : Role) (state : Execution) (operation : Op) : Prop where
  claim : operation = .statement (.claimForRunning job) → state = .idle
  outcome : ∀ write guard, operation = .statement (.updateStatus job write guard) →
    role.delivers job → state = .running
  other : ∀ write guard, operation = .statement (.updateStatus job write guard) →
    ¬ role.delivers job → state = .idle
  rollback : operation = .rollback → state = .idle

theorem execution_allowed {settings : Settings} {pool : PlatformPool}
    (reachable : Reachable settings pool) (job : Uuid) {pid : Pid} {role : Role} {operation : Op}
    {next : Reply operation → Prog Unit}
    (found : pool.process pid = some { role, program := .call operation next }) :
    ExecutionAllowed job role (executionOf job pid pool.log) operation := by
  have allowed := attempt_allowed reachable job found
  rw [← attemptOf_execution]
  refine ⟨?_, ?_, ?_, ?_⟩
  · rintro rfl
    obtain ⟨row, idle⟩ := allowed rfl
    rw [show attemptOf job pid pool.log = .idle (some row) from idle]
    rfl
  · rintro write guard rfl delivers
    have settles := (allowed rfl).1 delivers
    cases attempt : attemptOf job pid pool.log with
    | running read => rfl
    | failed read => rfl
    | succeeded read => rfl
    | _ =>
        rw [attempt] at settles
        exact settles.elim
  · rintro write guard rfl other
    obtain ⟨read, idle⟩ := (allowed rfl).2 other
    rw [show attemptOf job pid pool.log = .idle read from idle]
    rfl
  · rintro rfl
    obtain ⟨read, idle⟩ := allowed
    rw [show attemptOf job pid pool.log = .idle read from idle]
    rfl

def Still : Op → Prop
  | .statement (.claimForRunning _) | .statement (.updateStatus _ _ _) | .commit | .rollback => False
  | _ => True

theorem advance_of_still {job : Uuid} {state : Execution} {operation : Op} (still : Still operation)
    (reply : Reply operation) : state.advance job operation reply = state := by
  cases operation with
  | statement statement => cases state <;> cases statement <;> first | rfl | exact still.elim
  | commit => exact still.elim
  | rollback => exact still.elim
  | query query => cases state <;> rfl
  | command command => cases state <;> rfl
  | reading reading => cases state <;> rfl
  | publishRaw row => cases state <;> rfl

theorem advance_unwritten {job : Uuid} {pid : Pid} {operation : Op} {reply : Reply operation}
    {world after : World} (operated : World.operate pid operation world = some (reply, after))
    (unwritten : ∀ new, ¬ operation.Writes world job (world.jobs.visible pid job) new reply)
    (uncommitted : operation ≠ .commit) (kept : operation ≠ .rollback) (state : Execution) :
    state.advance job operation reply = state := by
  cases operation with
  | commit => exact absurd rfl uncommitted
  | rollback => exact absurd rfl kept
  | statement statement =>
      cases statement with
      | claimForRunning id =>
          cases state with
          | idle =>
              rw [Execution.advance, if_neg]
              rintro ⟨rfl, rfl⟩
              obtain ⟨new, writes⟩ := claim_writes operated
              exact unwritten new writes
          | _ => rfl
      | updateStatus id write guard =>
          cases state with
          | running =>
              rw [Execution.advance, if_neg]
              rintro ⟨rfl, rfl⟩
              obtain ⟨new, writes⟩ := update_writes operated
              exact unwritten new writes
          | _ => rfl
      | _ =>
          apply advance_of_still
          exact trivial
  | _ =>
      apply advance_of_still
      exact trivial

theorem writes_over_running {world : World} {job : Uuid} {operation : Op} {reply : Reply operation}
    {row new : Job} (writes : operation.Writes world job (some row) new reply)
    (running : row.status = .running) :
    (∃ write guard, operation = .statement (.updateStatus job write guard)) ∨
      (Still operation ∧ new.status = .running) := by
  cases operation with
  | statement statement =>
      cases statement with
      | updateStatus id write guard =>
          obtain ⟨_, rfl, _⟩ := writes
          exact .inl ⟨write, guard, rfl⟩
      | claimForRunning id =>
          obtain ⟨_, _, seen, equal, pending, _⟩ := writes
          cases equal
          rw [running] at pending
          cases pending
      | promoteWaitingToPending id =>
          obtain ⟨_, _, seen, equal, waiting, _⟩ := writes
          cases equal
          rw [running] at waiting
          cases waiting
      | cancelBlocked ids reason stamp =>
          obtain ⟨_, seen, equal, waiting, _⟩ := writes
          cases equal
          rw [running] at waiting
          cases waiting
      | stampRequeued id stamp =>
          obtain ⟨_, seen, equal, rfl⟩ := writes
          cases equal
          exact .inr ⟨trivial, running⟩
      | renewRunningLeases ids oldest stamp =>
          obtain ⟨_, seen, equal, _, rfl⟩ := writes
          cases equal
          exact .inr ⟨trivial, running⟩
      | insertJob draft => cases writes.1
      | _ => exact writes.elim
  | _ => exact writes.elim

theorem writes_cases {world : World} {job : Uuid} {operation : Op} {reply : Reply operation}
    {old : Option Job} {new : Job} (writes : operation.Writes world job old new reply) :
    (∃ write guard, operation = .statement (.updateStatus job write guard)) ∨
      (operation = .statement (.claimForRunning job) ∧ new.status = .running ∧
        (∃ row, old = some row ∧ row.status = .pending) ∧
        Execution.advance job .idle operation reply = .claimed) ∨
      Still operation := by
  cases operation with
  | statement statement =>
      cases statement with
      | updateStatus id write guard =>
          obtain ⟨_, rfl, _⟩ := writes
          exact .inl ⟨write, guard, rfl⟩
      | claimForRunning id =>
          obtain ⟨rfl, rfl, row, seen, pending, rfl⟩ := writes
          refine .inr (.inl ⟨rfl, rfl, ⟨row, seen, pending⟩, ?_⟩)
          simp [Execution.advance]
      | _ => exact .inr (.inr trivial)
  | _ => exact writes.elim

/-- A claim holds the row until it commits, and from then to the outcome the
committed row and every version of it are RUNNING. -/
structure ExclusiveExecution (job : Uuid) (pool : PlatformPool) : Prop where
  claimed : ∀ pid, executionOf job pid pool.log = .claimed →
    ∃ row, (pool.world.jobs.slot job).holder = some (pid, row) ∧ row.status = .running
  settled : ∀ pid, executionOf job pid pool.log = .settled →
    ∃ row, (pool.world.jobs.slot job).holder = some (pid, row)
  running : ∀ pid, executionOf job pid pool.log = .running →
    (∃ row, (pool.world.jobs.slot job).committed = some row ∧ row.status = .running) ∧
    ∀ owner row, (pool.world.jobs.slot job).holder = some (owner, row) → row.status = .running
  unique : ∀ first second, Live job first pool → Live job second pool → first = second

namespace ExclusiveExecution

variable {job : Uuid} {pool : PlatformPool}

theorem visible_running (exclusive : ExclusiveExecution job pool) {pid other : Pid}
    (live : Live job other pool) (different : other ≠ pid)
    (free : (pool.world.jobs.slot job).Free pid) :
    executionOf job other pool.log = .running ∧
      ∃ row, pool.world.jobs.visible pid job = some row ∧ row.status = .running := by
  cases state : executionOf job other pool.log with
  | idle => simp [Live, state, Execution.live] at live
  | finished => simp [Live, state, Execution.live] at live
  | claimed =>
      obtain ⟨row, held, _⟩ := exclusive.claimed other state
      exact absurd (free other row held) different
  | settled =>
      obtain ⟨row, held⟩ := exclusive.settled other state
      exact absurd (free other row held) different
  | running =>
      obtain ⟨⟨row, stored, running⟩, versions⟩ := exclusive.running other state
      refine ⟨rfl, ?_⟩
      rw [← Table.slot_visible]
      cases held : (pool.world.jobs.slot job).holder with
      | none =>
          refine ⟨row, ?_, running⟩
          rw [Slot.visible_of_free (by simp [held]), stored]
      | some entry =>
          obtain ⟨owner, version⟩ := entry
          have mine := free owner version held
          subst mine
          exact ⟨version, Slot.visible_of_held held, versions owner version held⟩

theorem of_idle (idle : ∀ pid, ¬ Live job pid pool) : ExclusiveExecution job pool where
  claimed := fun pid state => absurd (by rw [Live, state]; rfl) (idle pid)
  settled := fun pid state => absurd (by rw [Live, state]; rfl) (idle pid)
  running := fun pid state => absurd (by rw [Live, state]; rfl) (idle pid)
  unique := fun first _ live _ => absurd live (idle first)

theorem of_same {after : PlatformPool} (exclusive : ExclusiveExecution job pool)
    (sameLog : ∀ pid, executionOf job pid after.log = executionOf job pid pool.log)
    (sameSlot : after.world.jobs.slot job = pool.world.jobs.slot job) :
    ExclusiveExecution job after where
  claimed := by
    intro pid state
    rw [sameSlot]
    exact exclusive.claimed pid (sameLog pid ▸ state)
  settled := by
    intro pid state
    rw [sameSlot]
    exact exclusive.settled pid (sameLog pid ▸ state)
  running := by
    intro pid state
    rw [sameSlot]
    exact exclusive.running pid (sameLog pid ▸ state)
  unique := by
    intro first second liveFirst liveSecond
    rw [Live, sameLog] at liveFirst liveSecond
    exact exclusive.unique first second liveFirst liveSecond

end ExclusiveExecution

section Step

variable {job : Uuid} {before : PlatformPool} {pid : Pid} {role : Role} {operation : Op}
  {reply : Reply operation} {rest : Prog Unit} {world : World}

theorem exclusive_outcome {write : StatusWrite} {guard : Option (Job → Bool)} {changed : Bool}
    {new : Job} (exclusive : ExclusiveExecution job before)
    (running : executionOf job pid before.log = .running) (accepted : changed = true)
    (slot : world.jobs.slot job = (before.world.jobs.slot job).write pid new) :
    ExclusiveExecution job (before.record pid role (.statement (.updateStatus job write guard))
      changed rest world) := by
  have own : Live job pid before := by rw [Live, running]; rfl
  have others : ∀ other, other ≠ pid → ¬ Live job other before :=
    fun other different live => different (exclusive.unique other pid live own)
  have after : ∀ queried, executionOf job queried (before.record pid role
      (.statement (.updateStatus job write guard)) changed rest world).log =
      if pid = queried then .settled else executionOf job queried before.log := by
    intro queried
    rw [executionOf_record]
    by_cases same : pid = queried
    · subst same
      simp [running, Execution.advance, accepted]
    · rw [if_neg same, if_neg same]
  have onlyOwn : ∀ other, Live job other (before.record pid role
      (.statement (.updateStatus job write guard)) changed rest world) → other = pid := by
    intro other live
    by_contra different
    rw [Live, after, if_neg (Ne.symm different)] at live
    exact others other different live
  refine ⟨?_, ?_, ?_, ?_⟩
  · intro queried state
    have same : queried = pid := onlyOwn queried (by rw [Live, state]; rfl)
    rw [same, after, if_pos rfl] at state
    cases state
  · intro queried state
    have same : queried = pid := onlyOwn queried (by rw [Live, state]; rfl)
    exact ⟨new, by rw [Pool.record_world, slot, same]; rfl⟩
  · intro queried state
    have same : queried = pid := onlyOwn queried (by rw [Live, state]; rfl)
    rw [same, after, if_pos rfl] at state
    cases state
  · intro first second liveFirst liveSecond
    rw [onlyOwn first liveFirst, onlyOwn second liveSecond]

theorem exclusive_claim {new : Job} (exclusive : ExclusiveExecution job before)
    (idle : executionOf job pid before.log = .idle)
    (won : Execution.advance job .idle operation reply = .claimed)
    (pending : ∃ row, before.world.jobs.visible pid job = some row ∧ row.status = .pending)
    (claimed : new.status = .running)
    (free : (before.world.jobs.slot job).Free pid)
    (slot : world.jobs.slot job = (before.world.jobs.slot job).write pid new) :
    ExclusiveExecution job (before.record pid role operation reply rest world) := by
  have others : ∀ other, other ≠ pid → ¬ Live job other before := by
    intro other different live
    obtain ⟨_, row, seen, running⟩ := exclusive.visible_running live different free
    obtain ⟨shown, sees, pending⟩ := pending
    rw [seen] at sees
    cases sees
    rw [running] at pending
    cases pending
  have after : ∀ queried, executionOf job queried
      (before.record pid role operation reply rest world).log =
      if pid = queried then .claimed else executionOf job queried before.log := by
    intro queried
    rw [executionOf_record]
    by_cases same : pid = queried
    · subst same
      rw [if_pos rfl, if_pos rfl, idle, won]
    · rw [if_neg same, if_neg same]
  have onlyOwn : ∀ other,
      Live job other (before.record pid role operation reply rest world) → other = pid := by
    intro other live
    by_contra different
    rw [Live, after, if_neg (Ne.symm different)] at live
    exact others other different live
  refine ⟨?_, ?_, ?_, ?_⟩
  · intro queried state
    have same : queried = pid := onlyOwn queried (by rw [Live, state]; rfl)
    exact ⟨new, by rw [Pool.record_world, slot, same]; rfl, claimed⟩
  · intro queried state
    have same : queried = pid := onlyOwn queried (by rw [Live, state]; rfl)
    rw [same, after, if_pos rfl] at state
    cases state
  · intro queried state
    have same : queried = pid := onlyOwn queried (by rw [Live, state]; rfl)
    rw [same, after, if_pos rfl] at state
    cases state
  · intro first second liveFirst liveSecond
    rw [onlyOwn first liveFirst, onlyOwn second liveSecond]

theorem exclusive_stamp {new : Job} (exclusive : ExclusiveExecution job before)
    (still : Still operation)
    (writes : operation.Writes before.world job (before.world.jobs.visible pid job) new reply)
    (free : (before.world.jobs.slot job).Free pid)
    (slot : world.jobs.slot job = (before.world.jobs.slot job).write pid new) :
    ExclusiveExecution job (before.record pid role operation reply rest world) := by
  have same : ∀ queried, executionOf job queried
      (before.record pid role operation reply rest world).log =
      executionOf job queried before.log := by
    intro queried
    rw [executionOf_record, advance_of_still still]
    split <;> rfl
  have keeps : ∀ row, before.world.jobs.visible pid job = some row → row.status = .running →
      new.status = .running := by
    intro row seen running
    rw [seen] at writes
    rcases writes_over_running writes running with ⟨write, guard, rfl⟩ | ⟨_, kept⟩
    · exact still.elim
    · exact kept
  refine ⟨?_, ?_, ?_, ?_⟩
  · intro queried state
    rw [same] at state
    obtain ⟨row, held, running⟩ := exclusive.claimed queried state
    obtain rfl := free queried row held
    refine ⟨new, by rw [Pool.record_world, slot]; rfl, keeps row ?_ running⟩
    rw [← Table.slot_visible, Slot.visible_of_held held]
  · intro queried state
    rw [same] at state
    obtain ⟨row, held⟩ := exclusive.settled queried state
    obtain rfl := free queried row held
    exact ⟨new, by rw [Pool.record_world, slot]; rfl⟩
  · intro queried state
    rw [same] at state
    obtain ⟨⟨row, stored, running⟩, versions⟩ := exclusive.running queried state
    rw [Pool.record_world, slot]
    refine ⟨⟨row, stored, running⟩, ?_⟩
    rintro owner version held
    simp only [Slot.write_holder, Option.some.injEq, Prod.mk.injEq] at held
    obtain ⟨rfl, rfl⟩ := held
    cases current : (before.world.jobs.slot job).holder with
    | none =>
        refine keeps row ?_ running
        rw [← Table.slot_visible, Slot.visible_of_free (by simp [current]), stored]
    | some entry =>
        obtain ⟨holder, version⟩ := entry
        obtain rfl := free holder version current
        refine keeps version ?_ (versions holder version current)
        rw [← Table.slot_visible, Slot.visible_of_held current]
  · intro first second liveFirst liveSecond
    rw [Live, same] at liveFirst liveSecond
    exact exclusive.unique first second liveFirst liveSecond

theorem exclusive_commit (exclusive : ExclusiveExecution job before)
    (slot : world.jobs.slot job = (before.world.jobs.slot job).commit pid) :
    ExclusiveExecution job (before.record pid role .commit () rest world) := by
  have live : ∀ queried, Live job queried (before.record pid role .commit () rest world) →
      Live job queried before := by
    intro queried live
    rw [Live, executionOf_record] at live
    split at live
    · rw [Live]
      cases state : executionOf job queried before.log <;>
        simp_all [Execution.advance, Execution.live]
    · exact live
  have unique : ∀ first second, Live job first (before.record pid role .commit () rest world) →
      Live job second (before.record pid role .commit () rest world) → first = second :=
    fun first second liveFirst liveSecond =>
      exclusive.unique first second (live first liveFirst) (live second liveSecond)
  have claims : ∀ queried, executionOf job queried
      (before.record pid role .commit () rest world).log = .claimed →
      queried ≠ pid ∧ executionOf job queried before.log = .claimed := by
    intro queried state
    rw [executionOf_record] at state
    split at state
    · cases earlier : executionOf job queried before.log <;> simp [earlier, Execution.advance] at state
    · exact ⟨Ne.symm ‹_›, state⟩
  have settles : ∀ queried, executionOf job queried
      (before.record pid role .commit () rest world).log = .settled →
      queried ≠ pid ∧ executionOf job queried before.log = .settled := by
    intro queried state
    rw [executionOf_record] at state
    split at state
    · cases earlier : executionOf job queried before.log <;> simp [earlier, Execution.advance] at state
    · exact ⟨Ne.symm ‹_›, state⟩
  have runs : ∀ queried, executionOf job queried
      (before.record pid role .commit () rest world).log = .running →
      (queried = pid ∧ executionOf job queried before.log = .claimed) ∨
        executionOf job queried before.log = .running := by
    intro queried state
    rw [executionOf_record] at state
    split at state
    · rename_i own
      cases earlier : executionOf job queried before.log <;>
        simp [earlier, Execution.advance] at state
      · exact .inl ⟨own.symm, rfl⟩
      · exact .inr rfl
    · exact .inr state
  rcases (before.world.jobs.slot job).commit_cases pid with ⟨row, held, equal⟩ | ⟨unheld, equal⟩
  · -- The committer held the row, so nobody else has claimed or settled it.
    rw [equal] at slot
    have alone : ∀ other version, (before.world.jobs.slot job).holder = some (other, version) →
        other = pid := by
      intro other version found
      rw [held] at found
      cases found
      rfl
    refine ⟨?_, ?_, ?_, unique⟩
    · intro queried state
      obtain ⟨different, earlier⟩ := claims queried state
      obtain ⟨version, found, _⟩ := exclusive.claimed queried earlier
      exact absurd (alone queried version found) different
    · intro queried state
      obtain ⟨different, earlier⟩ := settles queried state
      obtain ⟨version, found⟩ := exclusive.settled queried earlier
      exact absurd (alone queried version found) different
    · intro queried state
      rw [Pool.record_world, slot]
      refine ⟨⟨row, rfl, ?_⟩, by simp⟩
      rcases runs queried state with ⟨rfl, earlier⟩ | earlier
      · obtain ⟨version, found, running⟩ := exclusive.claimed queried earlier
        rw [held] at found
        cases found
        exact running
      · exact (exclusive.running queried earlier).2 pid row held
  · rw [equal] at slot
    refine ⟨?_, ?_, ?_, unique⟩
    · intro queried state
      rw [Pool.record_world, slot]
      exact exclusive.claimed queried (claims queried state).2
    · intro queried state
      rw [Pool.record_world, slot]
      exact exclusive.settled queried (settles queried state).2
    · intro queried state
      rw [Pool.record_world, slot]
      rcases runs queried state with ⟨rfl, earlier⟩ | earlier
      · obtain ⟨version, found, _⟩ := exclusive.claimed queried earlier
        exact absurd found (unheld version)
      · exact exclusive.running queried earlier

theorem exclusive_rollback (exclusive : ExclusiveExecution job before)
    (idle : executionOf job pid before.log = .idle)
    (slot : world.jobs.slot job = (before.world.jobs.slot job).rollback pid) :
    ExclusiveExecution job (before.record pid role .rollback () rest world) := by
  have same : ∀ queried, executionOf job queried
      (before.record pid role .rollback () rest world).log = executionOf job queried before.log := by
    intro queried
    rw [executionOf_record]
    split
    · rename_i own
      rw [← own, idle]
      rfl
    · rfl
  rcases (before.world.jobs.slot job).rollback_cases pid with ⟨row, held, equal⟩ | ⟨unheld, equal⟩
  · rw [equal] at slot
    have alone : ∀ other version, (before.world.jobs.slot job).holder = some (other, version) →
        other = pid := by
      intro other version found
      rw [held] at found
      cases found
      rfl
    refine ⟨?_, ?_, ?_, ?_⟩
    · intro queried state
      rw [same] at state
      obtain ⟨version, found, _⟩ := exclusive.claimed queried state
      rw [alone queried version found, idle] at state
      cases state
    · intro queried state
      rw [same] at state
      obtain ⟨version, found⟩ := exclusive.settled queried state
      rw [alone queried version found, idle] at state
      cases state
    · intro queried state
      rw [same] at state
      rw [Pool.record_world, slot]
      exact ⟨(exclusive.running queried state).1, by simp⟩
    · intro first second liveFirst liveSecond
      rw [Live, same] at liveFirst liveSecond
      exact exclusive.unique first second liveFirst liveSecond
  · rw [equal] at slot
    exact exclusive.of_same same slot

end Step

/-- The entry is an `update_status` statement on the job. -/
def writesStatus (job : Uuid) (entry : PlatformEntry) : Bool :=
  match entry.operation with
  | .statement (.updateStatus id _ _) => id = job
  | _ => false

/-- The status writes to the job come from its deliveries and from replays. -/
def OnlyRunsAndReplays (job : Uuid) (pool : PlatformPool) : Prop :=
  ∀ entry ∈ pool.log, writesStatus job entry → entry.role.delivers job ∨ entry.role.replays

/-- No replay writes over a row that is RUNNING by then. -/
def ReplaysFindNoRun (job : Uuid) (pool : PlatformPool) : Prop :=
  ∀ entry ∈ pool.log, writesStatus job entry → entry.role.replays →
    (entry.before.jobs.visible entry.pid job).all fun row => row.status ≠ .running

instance (job : Uuid) (pool : PlatformPool) : Decidable (OnlyRunsAndReplays job pool) :=
  inferInstanceAs (Decidable (∀ entry ∈ pool.log, _))

instance (job : Uuid) (pool : PlatformPool) : Decidable (ReplaysFindNoRun job pool) :=
  inferInstanceAs (Decidable (∀ entry ∈ pool.log, _))

instance (job : Uuid) (pid : Pid) (pool : PlatformPool) : Decidable (Live job pid pool) :=
  inferInstanceAs (Decidable (_ = true))

theorem not_delivers_of_replays {job : Uuid} {role : Role} (replays : role.replays) :
    ¬ role.delivers job := by
  cases role with
  | deliver id => cases replays
  | redeliver id => cases replays
  | _ => exact Bool.false_ne_true

theorem exclusive_operate {settings : Settings} {job : Uuid} {before : PlatformPool} {pid : Pid}
    {role : Role} {operation : Op} {next : Reply operation → Prog Unit} {reply : Reply operation}
    {world : World} (reachable : Reachable settings before)
    (exclusive : ExclusiveExecution job before)
    (found : before.process pid = some { role, program := .call operation next })
    (operated : World.operate pid operation before.world = some (reply, world))
    (writers : writesStatus job ⟨pid, role, operation, reply, before.world⟩ →
      role.delivers job ∨ role.replays)
    (fresh : writesStatus job ⟨pid, role, operation, reply, before.world⟩ → role.replays →
      (before.world.jobs.visible pid job).all fun row => row.status ≠ .running) :
    ExclusiveExecution job (before.record pid role operation reply (next reply) world) := by
  have allowed := execution_allowed reachable job found
  rcases operate_slot operated job with ⟨new, writes, free, slot⟩ | ⟨rfl, slot⟩ | ⟨rfl, slot⟩ |
    ⟨unwritten, uncommitted, kept, slot⟩
  · rcases writes_cases writes with ⟨write, guard, rfl⟩ | ⟨rfl, claimed, pending, won⟩ | still
    · have writing : writesStatus job
          ⟨pid, role, .statement (.updateStatus job write guard), reply, before.world⟩ :=
        decide_eq_true rfl
      rcases writers writing with delivers | replays
      · exact exclusive_outcome exclusive (allowed.outcome write guard rfl delivers) writes.1 slot
      · -- The replay is idle and nobody else is live, since the row is not RUNNING.
        have idle : executionOf job pid before.log = .idle :=
          allowed.other write guard rfl (not_delivers_of_replays replays)
        apply ExclusiveExecution.of_idle
        intro other live
        rw [Live, executionOf_record] at live
        by_cases same : pid = other
        · subst same
          rw [if_pos rfl, idle] at live
          cases live
        · rw [if_neg same] at live
          obtain ⟨_, row, seen, running⟩ := exclusive.visible_running live (Ne.symm same) free
          have moved := fresh writing replays
          rw [seen] at moved
          exact of_decide_eq_true moved running
    · exact exclusive_claim exclusive (allowed.claim rfl) won pending claimed free slot
    · exact exclusive_stamp exclusive still writes free slot
  · exact exclusive_commit exclusive slot
  · exact exclusive_rollback exclusive (allowed.rollback rfl) slot
  · refine exclusive.of_same (fun queried => ?_) slot
    rw [executionOf_record, advance_unwritten operated unwritten uncommitted kept]
    split <;> rfl

theorem exclusive_of_reaches {settings : Settings} {job : Uuid} {pool : PlatformPool}
    (reachable : Reachable settings pool) (writers : OnlyRunsAndReplays job pool)
    (fresh : ReplaysFindNoRun job pool) : ExclusiveExecution job pool := by
  obtain ⟨outside, reached⟩ := reachable
  revert writers fresh
  refine reached.invariant (motive := fun pool => OnlyRunsAndReplays job pool →
    ReplaysFindNoRun job pool → ExclusiveExecution job pool) ?_ ?_ ?_ ?_
  · intro _ _
    exact .of_idle fun pid live => by cases live
  · intro before pid role world _ ih _ accepted writers fresh
    refine (ih writers fresh).of_same (fun _ => rfl) ?_
    rw [Pool.start_world, accept_jobs accepted]
  · intro before pid role operation next reply world earlier ih found operated writers fresh
    refine exclusive_operate ⟨outside, earlier⟩ (ih ?_ ?_) found operated ?_ ?_
    · exact fun entry member => writers entry (List.mem_cons_of_mem _ member)
    · exact fun entry member => fresh entry (List.mem_cons_of_mem _ member)
    · exact writers _ List.mem_cons_self
    · exact fresh _ List.mem_cons_self
  · intro before change world _ ih changed writers fresh
    exact (ih writers fresh).of_same (fun _ => rfl) (change_slot changed job)

/-- In every run in which only deliveries and replays write the job's status,
and no replay writes over a RUNNING row, at most one execution of the job is
live at a time. -/
theorem live_execution_unique {settings : Settings} {job : Uuid} {pool : PlatformPool}
    (reachable : Reachable settings pool) (writers : OnlyRunsAndReplays job pool)
    (fresh : ReplaysFindNoRun job pool) {first second : Pid} (liveFirst : Live job first pool)
    (liveSecond : Live job second pool) : first = second :=
  (exclusive_of_reaches reachable writers fresh).unique first second liveFirst liveSecond

/-- Job 1 is created, run to its deadline and dead-lettered; two replays read
it DEAD_LETTER, the first one commits, and its delivery claims the row. -/
def replayedOnce : List (Label Role Change) :=
  [.spawn 1 (.createJob { userId := 7, tenantId := 8, jobType := "csv_upload" })] ++ turns 1 4 ++
  [.spawn 2 .outboxRelay] ++ turns 2 6 ++
  [.spawn 3 (.deliver 1)] ++ turns 3 7 ++ tick 2 .timedOut ++ turns 3 7 ++
  [.spawn 4 (.replay 1 8 { kind := "user", requestingUserId := some 7 }),
    .spawn 5 (.replay 1 8 { kind := "user", requestingUserId := some 7 })] ++
  turns 4 3 ++ turns 5 3 ++ tick 3 .timedOut ++ turns 4 5 ++
  [.spawn 6 .outboxRelay] ++ turns 6 7 ++ [.spawn 7 (.deliver 1)] ++ turns 7 5

def replayedTwice : List (Label Role Change) :=
  replayedOnce ++ tick 4 .timedOut ++ turns 5 5 ++
  [.spawn 8 .outboxRelay] ++ turns 8 6 ++ [.spawn 9 (.deliver 1)] ++ turns 9 5

theorem live_execution_unique_after_one_replay : ∃ pool first second,
    Reachable .defaults pool ∧ Live 1 first pool ∧ Live 1 second pool ∧ first = second := by
  obtain ⟨pool, reachable, checked⟩ : ∃ pool, Reachable .defaults pool ∧
      decide (OnlyRunsAndReplays 1 pool ∧ ReplaysFindNoRun 1 pool ∧ Live 1 7 pool) = true :=
    exists_reachable replayedOnce (by decide +kernel)
  obtain ⟨writers, fresh, live⟩ := of_decide_eq_true checked
  exact ⟨pool, 7, 7, reachable, live, live, live_execution_unique reachable writers fresh live live⟩

theorem replayed_twice_runs_twice : ¬ ∀ pool, Reachable .defaults pool → OnlyRunsAndReplays 1 pool →
    ∀ first second, Live 1 first pool → Live 1 second pool → first = second := by
  intro unique
  obtain ⟨pool, reachable, checked⟩ : ∃ pool, Reachable .defaults pool ∧
      decide (OnlyRunsAndReplays 1 pool ∧ Live 1 7 pool ∧ Live 1 9 pool) = true :=
    exists_reachable replayedTwice (by decide +kernel)
  obtain ⟨writers, liveFirst, liveSecond⟩ := of_decide_eq_true checked
  have same := unique pool reachable writers 7 9 liveFirst liveSecond
  cases same

end IncidentPlatform.Properties

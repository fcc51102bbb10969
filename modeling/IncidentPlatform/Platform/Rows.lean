import IncidentPlatform.Platform.System
import IncidentPlatform.Storage.Slot
import Mathlib.Data.List.Dedup

namespace IncidentPlatform.Platform

open Concurrency Models Storage

/-! # What one operation does to one job row

`Writes` says which row a statement leaves in place of the one it saw, and
`operate_slot` that an operation writes the row this way, or ends a
transaction, or leaves the row alone.  Every invariant about job rows is a
case analysis of it.
-/

/-- The statement, with this reply, puts `new` in place of the row `old` of `job`. -/
def Statement.Writes (world : World) (job : Uuid) (old : Option Job) (new : Job) :
    (statement : Statement) → statement.Reply → Prop
  | .updateStatus id write guard, changed => changed = true ∧ id = job ∧ ∃ row, old = some row ∧
      (guard.all fun holds => holds row) = true ∧ new = write.apply world.outside.clock row
  | .claimForRunning id, changed => changed = true ∧ id = job ∧ ∃ row, old = some row ∧
      row.status = .pending ∧ new = world.claimed row
  | .promoteWaitingToPending id, changed => changed = true ∧ id = job ∧ ∃ row, old = some row ∧
      row.status = .waiting ∧ new = world.promoted row
  | .cancelBlocked _ reason stamp, changed => job ∈ changed ∧ ∃ row, old = some row ∧
      row.status = .waiting ∧ row.sagaId = none ∧ new = world.cancelledRow reason stamp row
  | .stampRequeued id stamp, _ => id = job ∧ ∃ row, old = some row ∧
      new = { row with requeuedAt := some stamp }
  | .renewRunningLeases _ _ stamp, changed => job ∈ changed ∧ ∃ row, old = some row ∧
      row.status = .running ∧ new = { row with heartbeatAt := some stamp }
  | .insertJob draft, inserted => old = none ∧ inserted = some new ∧ new.id = job ∧
      new = draft.row world.outside.uuid world.outside.clock
  | _, _ => False

def Op.Writes (world : World) (job : Uuid) (old : Option Job) (new : Job) :
    (operation : Op) → Reply operation → Prop
  | .statement issued, reply => issued.Writes world job old new reply
  | _, _ => False

/-- The columns that no statement changes once the row is inserted. -/
structure SameJob (old new : Job) : Prop where
  id : new.id = old.id
  tenantId : new.tenantId = old.tenantId
  type : new.type = old.type
  payload : new.payload = old.payload
  sagaId : new.sagaId = old.sagaId
  sagaStepIndex : new.sagaStepIndex = old.sagaStepIndex
  maxAttempts : new.maxAttempts = old.maxAttempts

theorem Op.Writes.sameJob {world : World} {job : Uuid} {operation : Op} {reply : Reply operation}
    {row new : Job} (writes : operation.Writes world job (some row) new reply) : SameJob row new := by
  cases operation with
  | statement issued =>
      cases issued with
      | updateStatus id write guard =>
          obtain ⟨_, _, _, equal, _, rfl⟩ := writes
          cases equal
          exact ⟨rfl, rfl, rfl, rfl, rfl, rfl, rfl⟩
      | claimForRunning id =>
          obtain ⟨_, _, _, equal, _, rfl⟩ := writes
          cases equal
          exact ⟨rfl, rfl, rfl, rfl, rfl, rfl, rfl⟩
      | promoteWaitingToPending id =>
          obtain ⟨_, _, _, equal, _, rfl⟩ := writes
          cases equal
          exact ⟨rfl, rfl, rfl, rfl, rfl, rfl, rfl⟩
      | cancelBlocked ids reason stamp =>
          obtain ⟨_, _, equal, _, _, rfl⟩ := writes
          cases equal
          exact ⟨rfl, rfl, rfl, rfl, rfl, rfl, rfl⟩
      | stampRequeued id stamp =>
          obtain ⟨_, _, equal, rfl⟩ := writes
          cases equal
          exact ⟨rfl, rfl, rfl, rfl, rfl, rfl, rfl⟩
      | renewRunningLeases ids oldest stamp =>
          obtain ⟨_, _, equal, _, rfl⟩ := writes
          cases equal
          exact ⟨rfl, rfl, rfl, rfl, rfl, rfl, rfl⟩
      | insertJob draft => cases writes.1
      | _ => exact writes.elim
  | _ => exact writes.elim

theorem inserts_of_absent {world : World} {job : Uuid} {operation : Op} {reply : Reply operation}
    {new : Job} (writes : operation.Writes world job none new reply) :
    ∃ draft, operation = .statement (.insertJob draft) := by
  cases operation with
  | statement issued =>
      cases issued with
      | insertJob draft => exact ⟨draft, rfl⟩
      | updateStatus id write guard =>
          obtain ⟨_, _, _, absurd, _⟩ := writes
          cases absurd
      | claimForRunning id =>
          obtain ⟨_, _, _, absurd, _⟩ := writes
          cases absurd
      | promoteWaitingToPending id =>
          obtain ⟨_, _, _, absurd, _⟩ := writes
          cases absurd
      | cancelBlocked ids reason stamp =>
          obtain ⟨_, _, absurd, _⟩ := writes
          cases absurd
      | stampRequeued id stamp =>
          obtain ⟨_, _, absurd, _⟩ := writes
          cases absurd
      | renewRunningLeases ids oldest stamp =>
          obtain ⟨_, _, absurd, _⟩ := writes
          cases absurd
      | _ => exact writes.elim
  | _ => exact writes.elim

section Execute

variable {world after : World} {pid : Pid}

theorem withJobs_eq {α : Type} {update : Option (α × Table Uuid Job)} {reply : α}
    (executed : world.withJobs update = some (reply, after)) :
    ∃ jobs, update = some (reply, jobs) ∧ after = { world with jobs } := by
  obtain ⟨⟨value, jobs⟩, updated, equal⟩ := Option.map_eq_some_iff.mp executed
  cases equal
  exact ⟨jobs, updated, rfl⟩

theorem withOutbox_eq {α : Type} {update : Option (α × Table Uuid OutboxRow)}
    (executed : world.withOutbox update = some ((), after)) :
    ∃ value outbox, update = some (value, outbox) ∧ after = { world with outbox } := by
  obtain ⟨⟨value, outbox⟩, updated, equal⟩ := Option.map_eq_some_iff.mp executed
  cases equal
  exact ⟨value, outbox, updated, rfl⟩

/-- The slot of `job` after the statement, with the row written if there is one. -/
def SlotWritten (world after : World) (pid : Pid) (job : Uuid) (writes : Job → Prop) : Prop :=
  (after.jobs.slot job = world.jobs.slot job ∧ ∀ new, ¬ writes new) ∨
  ∃ new, writes new ∧ (world.jobs.slot job).Free pid ∧
    after.jobs.slot job = (world.jobs.slot job).write pid new

theorem SlotWritten.of_update {id job : Uuid} {condition : Job → Bool} {set : Job → Job}
    {changed : Bool} {jobs : Table Uuid Job} {writes : Job → Prop}
    (updated : world.jobs.update pid id condition set = some (changed, jobs))
    (wrote : ∀ row, changed = true → id = job → world.jobs.visible pid job = some row →
      condition row = true → writes (set row))
    (only : ∀ new, writes new → changed = true ∧ id = job) :
    SlotWritten world { world with jobs } pid job writes := by
  rcases Table.update_slot updated job with ⟨kept, refused⟩ | ⟨accepted, same, free, row, seen, holds, slot⟩
  · refine .inl ⟨kept, fun new writing => refused ?_⟩
    obtain ⟨accepted, same⟩ := only new writing
    exact ⟨accepted, same.symm⟩
  · exact .inr ⟨set row, wrote row accepted same.symm seen holds, free, slot⟩

theorem SlotWritten.of_updateAll {ids hits : List Uuid} {job : Uuid} {condition : Job → Bool}
    {set : Job → Job} {jobs : Table Uuid Job} {writes : Job → Prop}
    (updated : world.jobs.updateAll pid condition set ids.dedup = some (hits, jobs))
    (wrote : ∀ row, job ∈ hits → world.jobs.visible pid job = some row →
      condition row = true → writes (set row))
    (only : ∀ new, writes new → job ∈ hits) :
    SlotWritten world { world with jobs } pid job writes := by
  rcases Table.updateAll_slot ids.nodup_dedup updated job with
    ⟨kept, missed⟩ | ⟨hit, _, free, row, seen, holds, slot⟩
  · exact .inl ⟨kept, fun new writing => missed (only new writing)⟩
  · exact .inr ⟨set row, wrote row hit seen holds, free, slot⟩

theorem execute_slot {statement : Statement} {reply : statement.Reply}
    (executed : world.execute pid statement = some (reply, after)) (job : Uuid) :
    SlotWritten world after pid job fun new =>
      statement.Writes world job (world.jobs.visible pid job) new reply := by
  cases statement with
  | updateStatus id write guard =>
      obtain ⟨jobs, updated, rfl⟩ := withJobs_eq executed
      refine .of_update updated (fun row accepted same seen holds => ?_) fun new writing => ?_
      · exact ⟨accepted, same, row, seen, holds, rfl⟩
      · exact ⟨writing.1, writing.2.1⟩
  | claimForRunning id =>
      obtain ⟨jobs, updated, rfl⟩ := withJobs_eq executed
      refine .of_update updated (fun row accepted same seen holds => ?_) fun new writing => ?_
      · exact ⟨accepted, same, row, seen, by simpa using holds, rfl⟩
      · exact ⟨writing.1, writing.2.1⟩
  | promoteWaitingToPending id =>
      obtain ⟨jobs, updated, rfl⟩ := withJobs_eq executed
      refine .of_update updated (fun row accepted same seen holds => ?_) fun new writing => ?_
      · exact ⟨accepted, same, row, seen, by simpa using holds, rfl⟩
      · exact ⟨writing.1, writing.2.1⟩
  | cancelBlocked ids reason stamp =>
      obtain ⟨jobs, updated, rfl⟩ := withJobs_eq executed
      refine .of_updateAll updated (fun row hit seen holds => ?_) fun new writing => writing.1
      simp only [Bool.and_eq_true, decide_eq_true_eq] at holds
      exact ⟨hit, row, seen, holds.1, holds.2, rfl⟩
  | stampRequeued id stamp =>
      obtain ⟨⟨changed, next⟩, updating, equal⟩ := Option.map_eq_some_iff.mp executed
      cases equal
      obtain ⟨jobs, updated, rfl⟩ := withJobs_eq updating
      rcases Table.update_cases updated with ⟨_, rfl, missing⟩ | ⟨accepted, _, _, _, _, _⟩
      · refine .inl ⟨rfl, ?_⟩
        rintro new ⟨rfl, row, seen, _⟩
        cases missing row seen
      · refine .of_update updated (fun row _ same seen _ => ⟨same, row, seen, rfl⟩) fun new writing => ?_
        exact ⟨accepted, writing.1⟩
  | renewRunningLeases ids oldest stamp =>
      obtain ⟨jobs, updated, rfl⟩ := withJobs_eq executed
      refine .of_updateAll updated (fun row hit seen holds => ?_) fun new writing => writing.1
      simp only [Bool.and_eq_true, decide_eq_true_eq] at holds
      exact ⟨hit, row, seen, holds.1, rfl⟩
  | insertJob draft =>
      simp only [World.execute] at executed
      split at executed
      · obtain ⟨jobs, inserted, equal⟩ := Option.map_eq_some_iff.mp executed
        cases equal
        rcases Table.insert_slot inserted job with ⟨other, kept⟩ | ⟨same, absent, slot⟩
        · refine .inl ⟨kept, ?_⟩
          rintro new ⟨_, found, same, _⟩
          cases found
          exact other same.symm
        · have unseen : world.jobs.visible pid job = none := by
            rw [← Table.slot_visible, absent]
            rfl
          refine .inr ⟨_, ⟨unseen, rfl, same.symm, rfl⟩, ?_, slot⟩
          rw [absent]
          intro owner row held
          cases held
      · split at executed
        · cases executed
          refine .inl ⟨rfl, ?_⟩
          rintro new ⟨_, found, _⟩
          cases found
        · contradiction
  | insertDependencies id parents =>
      simp only [World.execute] at executed
      split at executed <;> cases executed <;> exact .inl ⟨rfl, by simp [Statement.Writes]⟩
  | insertOutbox tenant user topic event =>
      obtain ⟨outbox, _, equal⟩ := Option.map_eq_some_iff.mp executed
      cases equal
      exact .inl ⟨rfl, by simp [Statement.Writes]⟩
  | insertAudit entry =>
      cases executed
      exact .inl ⟨rfl, by simp [Statement.Writes]⟩
  | insertSaga tenant name =>
      obtain ⟨sagas, _, equal⟩ := Option.map_eq_some_iff.mp executed
      cases equal
      exact .inl ⟨rfl, by simp [Statement.Writes]⟩
  | updateSaga id status completedAt =>
      obtain ⟨sagas, _, equal⟩ := Option.map_eq_some_iff.mp executed
      cases equal
      exact .inl ⟨rfl, by simp [Statement.Writes]⟩
  | markPublished ids stamp =>
      obtain ⟨_, outbox, _, rfl⟩ := withOutbox_eq executed
      exact .inl ⟨rfl, by simp [Statement.Writes]⟩
  | incrementAttempts ids =>
      obtain ⟨_, outbox, _, rfl⟩ := withOutbox_eq executed
      exact .inl ⟨rfl, by simp [Statement.Writes]⟩
  | markFailed ids stamp error =>
      obtain ⟨_, outbox, _, rfl⟩ := withOutbox_eq executed
      exact .inl ⟨rfl, by simp [Statement.Writes]⟩

end Execute

/-- What one operation of `pid` does to the row of `job`. -/
theorem operate_slot {world after : World} {pid : Pid} {operation : Op} {reply : Reply operation}
    (operated : World.operate pid operation world = some (reply, after)) (job : Uuid) :
    (∃ new, operation.Writes world job (world.jobs.visible pid job) new reply ∧
      (world.jobs.slot job).Free pid ∧
      after.jobs.slot job = (world.jobs.slot job).write pid new) ∨
    (operation = .commit ∧ after.jobs.slot job = (world.jobs.slot job).commit pid) ∨
    (operation = .rollback ∧ after.jobs.slot job = (world.jobs.slot job).rollback pid) ∨
    ((∀ new, ¬ operation.Writes world job (world.jobs.visible pid job) new reply) ∧
      operation ≠ .commit ∧ operation ≠ .rollback ∧
      after.jobs.slot job = world.jobs.slot job) := by
  cases operation with
  | query query =>
      cases operated
      exact .inr (.inr (.inr ⟨fun _ => id, by simp, by simp, rfl⟩))
  | statement statement =>
      rcases execute_slot operated job with ⟨kept, unwritten⟩ | written
      · exact .inr (.inr (.inr ⟨unwritten, by simp, by simp, kept⟩))
      · exact .inl written
  | commit =>
      cases operated
      exact .inr (.inl ⟨rfl, Table.commit_slot ..⟩)
  | rollback =>
      cases operated
      exact .inr (.inr (.inl ⟨rfl, Table.rollback_slot ..⟩))
  | command command =>
      refine .inr (.inr (.inr ⟨fun _ => id, by simp, by simp, ?_⟩))
      cases command <;> cases operated <;> rfl
  | reading reading =>
      cases operated
      exact .inr (.inr (.inr ⟨fun _ => id, by simp, by simp, rfl⟩))
  | publishRaw row =>
      refine .inr (.inr (.inr ⟨fun _ => id, by simp, by simp, ?_⟩))
      simp only [World.operate] at operated
      split at operated <;> cases operated <;> rfl

theorem update_writes {world after : World} {pid : Pid} {id : Uuid} {write : StatusWrite}
    {guard : Option (Job → Bool)}
    (operated : World.operate pid (.statement (.updateStatus id write guard)) world = some (true, after)) :
    ∃ new, (Op.statement (.updateStatus id write guard)).Writes world id (world.jobs.visible pid id)
      new true := by
  obtain ⟨jobs, updated, _⟩ := withJobs_eq operated
  rcases Table.update_cases updated with ⟨refused, _⟩ | ⟨_, row, _, seen, holds, _⟩
  · cases refused
  · exact ⟨_, rfl, rfl, row, seen, holds, rfl⟩

theorem claim_writes {world after : World} {pid : Pid} {id : Uuid}
    (operated : World.operate pid (.statement (.claimForRunning id)) world = some (true, after)) :
    ∃ new, (Op.statement (.claimForRunning id)).Writes world id (world.jobs.visible pid id)
      new true := by
  obtain ⟨jobs, updated, _⟩ := withJobs_eq operated
  rcases Table.update_cases updated with ⟨refused, _⟩ | ⟨_, row, _, seen, holds, _⟩
  · cases refused
  · exact ⟨_, rfl, rfl, row, seen, by simpa using holds, rfl⟩

theorem accept_eq {world after : World} {role : Role} (accepted : world.accept role = some after) :
    ∃ undelivered, after = { world with undelivered } := by
  unfold World.accept at accepted
  split at accepted
  all_goals try split at accepted
  all_goals cases accepted
  all_goals exact ⟨_, rfl⟩

theorem accept_jobs {world after : World} {role : Role} (accepted : world.accept role = some after) :
    after.jobs = world.jobs := by
  obtain ⟨_, rfl⟩ := accept_eq accepted
  rfl

/-- A change moves the readings from outside, the pause flags and the order of
the rows. -/
theorem change_cases {world after : World} {change : Change} (changed : world.change change = some after) :
    ∃ outside epoch paused order, ∃ same : order.Perm world.jobs.keys,
      after = { world with outside, epoch, paused, jobs := world.jobs.reorder order same } := by
  cases change with
  | outside readings =>
      cases changed
      exact ⟨_, _, _, _, .refl _, rfl⟩
  | pause root =>
      simp only [World.change] at changed
      split at changed
      · split at changed <;> cases changed <;> exact ⟨_, _, _, _, .refl _, rfl⟩
      · contradiction
  | unpause root =>
      cases changed
      exact ⟨_, _, _, _, .refl _, rfl⟩
  | reorder order =>
      simp only [World.change] at changed
      split at changed
      · cases changed
        exact ⟨_, _, _, _, _, rfl⟩
      · contradiction

theorem change_slot {world after : World} {change : Change} (changed : world.change change = some after)
    (job : Uuid) : after.jobs.slot job = world.jobs.slot job := by
  obtain ⟨_, _, _, _, _, rfl⟩ := change_cases changed
  rfl

section Kept

variable {world after : World} {pid : Pid} {operation : Op} {reply : Reply operation}

theorem committed_kept (operated : World.operate pid operation world = some (reply, after))
    {job : Uuid} {row : Job} (stored : (world.jobs.slot job).committed = some row) :
    ∃ now, (after.jobs.slot job).committed = some now := by
  rcases operate_slot operated job with ⟨new, _, _, slot⟩ | ⟨_, slot⟩ | ⟨_, slot⟩ | ⟨_, _, _, slot⟩
  · exact ⟨row, by rw [slot, Slot.write_committed, stored]⟩
  · rw [slot]
    exact Slot.committed_commit stored
  · exact ⟨row, by rw [slot, Slot.rollback_committed, stored]⟩
  · exact ⟨row, by rw [slot, stored]⟩

theorem visible_kept (operated : World.operate pid operation world = some (reply, after))
    {job : Uuid} {viewer : Pid} {row : Job} (keeps : operation = .rollback → viewer ≠ pid)
    (seen : (world.jobs.slot job).visible viewer = some row) :
    ∃ now, (after.jobs.slot job).visible viewer = some now := by
  rcases operate_slot operated job with ⟨new, _, free, slot⟩ | ⟨_, slot⟩ | ⟨rolled, slot⟩ |
    ⟨_, _, _, slot⟩
  · rw [slot]
    by_cases own : viewer = pid
    · exact ⟨new, by rw [own, Slot.visible_write_self]⟩
    · exact ⟨row, by rw [Slot.visible_write_other own free, seen]⟩
  · rw [slot]
    exact Slot.seen_commit seen
  · exact ⟨row, by rw [slot, Slot.visible_rollback_other (keeps rolled), seen]⟩
  · exact ⟨row, by rw [slot, seen]⟩

theorem held_kept (operated : World.operate pid operation world = some (reply, after))
    {job : Uuid} {owner : Pid} {row : Job} (different : owner ≠ pid)
    (held : (world.jobs.slot job).holder = some (owner, row)) :
    after.jobs.slot job = world.jobs.slot job := by
  rcases operate_slot operated job with ⟨new, _, free, slot⟩ | ⟨_, slot⟩ | ⟨_, slot⟩ | ⟨_, _, _, slot⟩
  · exact absurd (free owner row held) different
  · rcases (world.jobs.slot job).commit_cases pid with ⟨_, mine, _⟩ | ⟨_, equal⟩
    · rw [held] at mine
      cases mine
      exact absurd rfl different
    · exact slot.trans equal
  · rcases (world.jobs.slot job).rollback_cases pid with ⟨_, mine, _⟩ | ⟨_, equal⟩
    · rw [held] at mine
      cases mine
      exact absurd rfl different
    · exact slot.trans equal
  · exact slot

theorem held_iff_other (operated : World.operate pid operation world = some (reply, after))
    {job : Uuid} {owner : Pid} {row : Job} (different : owner ≠ pid) :
    (after.jobs.slot job).holder = some (owner, row) ↔
      (world.jobs.slot job).holder = some (owner, row) := by
  constructor
  · intro held
    rcases operate_slot operated job with ⟨new, _, _, slot⟩ | ⟨_, slot⟩ | ⟨_, slot⟩ | ⟨_, _, _, slot⟩
    · rw [slot, Slot.write_holder] at held
      cases held
      exact absurd rfl different
    · rw [slot] at held
      exact Slot.holder_of_commit held
    · rw [slot] at held
      exact Slot.holder_of_rollback held
    · rwa [slot] at held
  · intro held
    rw [held_kept operated different held, held]

theorem own_kept (operated : World.operate pid operation world = some (reply, after))
    {job : Uuid} {row : Job} (uncommitted : operation ≠ .commit) (kept : operation ≠ .rollback)
    (held : (world.jobs.slot job).holder = some (pid, row)) :
    (after.jobs.slot job).committed = (world.jobs.slot job).committed ∧
      ∃ now, (after.jobs.slot job).holder = some (pid, now) := by
  rcases operate_slot operated job with ⟨new, _, _, slot⟩ | ⟨ends, _⟩ | ⟨ends, _⟩ | ⟨_, _, _, slot⟩
  · rw [slot]
    exact ⟨rfl, new, rfl⟩
  · exact absurd ends uncommitted
  · exact absurd ends kept
  · rw [slot]
    exact ⟨rfl, row, held⟩

end Kept

theorem All.operate {world after : World} {pid : Pid} {operation : Op} {reply : Reply operation}
    {job : Uuid} {holds : Job → Prop} (all : (world.jobs.slot job).All holds)
    (written : ∀ {old new}, Op.Writes world job old new operation reply →
      (∀ row, old = some row → holds row) → holds new)
    (operated : World.operate pid operation world = some (reply, after)) :
    (after.jobs.slot job).All holds := by
  rcases operate_slot operated job with ⟨new, writes, _, slot⟩ | ⟨_, slot⟩ | ⟨_, slot⟩ |
    ⟨_, _, _, slot⟩
  · rw [slot]
    apply all.write
    apply written writes
    intro row seen
    rw [← Table.slot_visible] at seen
    exact all.visible seen
  · rw [slot]
    exact all.commit
  · rw [slot]
    exact all.rollback
  · rw [slot]
    exact all

theorem keyed_of_writes {world : World} {job : Uuid} {operation : Op} {reply : Reply operation}
    {old : Option Job} {new : Job} (writes : operation.Writes world job old new reply)
    (keyed : ∀ row, old = some row → row.id = job) : new.id = job := by
  cases old with
  | some row => exact writes.sameJob.id.trans (keyed row rfl)
  | none =>
      obtain ⟨draft, rfl⟩ := inserts_of_absent writes
      exact writes.2.2.1

theorem rows_of_writes {settings : Services.Settings} {pool : PlatformPool} {job : Uuid}
    {holds : Job → Prop} (reachable : Reachable settings pool)
    (written : ∀ {world operation reply old new}, Op.Writes world job old new operation reply →
      (∀ row, old = some row → holds row) → holds new) :
    (pool.world.jobs.slot job).All holds := by
  obtain ⟨outside, reached⟩ := reachable
  refine reached.invariant (motive := fun pool => (pool.world.jobs.slot job).All holds) ?_ ?_ ?_ ?_
  · exact ⟨fun _ stored => (by cases stored), fun _ _ held => (by cases held)⟩
  · intro before pid role world _ all _ accepted
    rw [Pool.start_world, accept_jobs accepted]
    exact all
  · intro before pid role operation next reply world _ all _ operated
    exact All.operate all written operated
  · intro before change world _ all changed
    rw [change_slot changed]
    exact all

theorem rows_keyed {settings : Services.Settings} {pool : PlatformPool}
    (reachable : Reachable settings pool) (job : Uuid) :
    (pool.world.jobs.slot job).All fun row => row.id = job :=
  rows_of_writes reachable keyed_of_writes

theorem step_committed {settings : Services.Settings} {label : Label Role Change}
    {before after : PlatformPool} (stepped : (platform settings).step label before = some after)
    (job : Uuid) :
    (after.world.jobs.slot job).committed = (before.world.jobs.slot job).committed ∨
      ∃ pid role next row, label = .run pid ∧
        before.process pid = some { role, program := .call .commit next } ∧
        (before.world.jobs.slot job).holder = some (pid, row) ∧
        (after.world.jobs.slot job).committed = some row := by
  rcases (platform settings).step_cases stepped with
    ⟨pid, role, world, _, _, accepted, rfl⟩ |
    ⟨pid, role, operation, next, reply, world, ran, found, operated, rfl⟩ |
    ⟨change, world, _, changed, rfl⟩
  · exact .inl (by rw [Pool.start_world, accept_jobs accepted])
  · rcases operate_slot operated job with ⟨new, _, _, slot⟩ | ⟨rfl, slot⟩ | ⟨_, slot⟩ |
      ⟨_, _, _, slot⟩
    · exact .inl (by rw [Pool.record_world, slot]; rfl)
    · rcases (before.world.jobs.slot job).commit_cases pid with ⟨row, held, equal⟩ | ⟨_, equal⟩
      · exact .inr ⟨pid, role, next, row, ran, found, held, by rw [Pool.record_world, slot, equal]⟩
      · exact .inl (by rw [Pool.record_world, slot, equal])
    · exact .inl (by rw [Pool.record_world, slot, Slot.rollback_committed])
    · exact .inl (by rw [Pool.record_world, slot])
  · exact .inl (by rw [change_slot changed])

theorem holder_started {settings : Services.Settings} {pool : PlatformPool}
    (reachable : Reachable settings pool) {job : Uuid} {pid : Pid} {row : Job}
    (held : (pool.world.jobs.slot job).holder = some (pid, row)) :
    ∃ process, pool.process pid = some process := by
  obtain ⟨outside, reached⟩ := reachable
  revert pid row
  refine reached.invariant (motive := fun pool => ∀ {pid row},
    (pool.world.jobs.slot job).holder = some (pid, row) → ∃ process, pool.process pid = some process)
    ?_ ?_ ?_ ?_
  · intro pid row held
    cases held
  · intro before pid role world _ ih _ accepted owner row held
    rw [Pool.start_world, accept_jobs accepted] at held
    by_cases same : owner = pid
    · exact ⟨_, by rw [same]; exact Pool.setProcess_self ..⟩
    · rw [Pool.start_process, Pool.setProcess_other _ _ same]
      exact ih held
  · intro before pid role operation next reply world _ ih found operated owner row held
    rw [Pool.record_world] at held
    by_cases same : owner = pid
    · exact ⟨_, by rw [same]; exact Pool.setProcess_self ..⟩
    · have earlier := (held_iff_other operated same).mp held
      obtain ⟨process, present⟩ := ih earlier
      obtain ⟨later, present, _⟩ := Pool.record_role found present
      exact ⟨later, present⟩
  · intro before change world _ ih changed owner row held
    rw [change_slot changed] at held
    exact ih held

theorem held_of_writes {settings : Services.Settings} {pool : PlatformPool} {job : Uuid}
    {roles : Role → Prop} {holds : Job → Prop} (reachable : Reachable settings pool)
    (written : ∀ {before : PlatformPool} {pid : Pid} {role : Role} {operation : Op}
      {next : Reply operation → Prog Unit} {reply : Reply operation} {new : Job},
      Reachable settings before → before.process pid = some { role, program := .call operation next } →
      roles role → operation.Writes before.world job (before.world.jobs.visible pid job) new reply →
      holds new)
    {pid : Pid} {row : Job} {process : Process Role Op Reply}
    (held : (pool.world.jobs.slot job).holder = some (pid, row))
    (present : pool.process pid = some process) (plays : roles process.role) : holds row := by
  obtain ⟨outside, reached⟩ := reachable
  revert pid row process
  refine reached.invariant (motive := fun pool => ∀ {pid row process},
    (pool.world.jobs.slot job).holder = some (pid, row) → pool.process pid = some process →
    roles process.role → holds row) ?_ ?_ ?_ ?_
  · intro pid row process held
    cases held
  · intro before pid role world earlier ih unused accepted owner row process held present plays
    rw [Pool.start_world, accept_jobs accepted] at held
    obtain ⟨running, started⟩ := holder_started ⟨outside, earlier⟩ held
    have different : owner ≠ pid := by
      intro same
      rw [same, unused] at started
      cases started
    rw [Pool.start_process, Pool.setProcess_other _ _ different] at present
    exact ih held present plays
  · intro before pid role operation next reply world earlier ih found operated owner row process held
      present plays
    obtain ⟨process, present, same⟩ := Pool.role_of_record found present
    rw [← same] at plays
    rw [Pool.record_world] at held
    rcases operate_slot operated job with ⟨new, writes, _, slot⟩ | ⟨_, slot⟩ | ⟨_, slot⟩ | ⟨_, _, _, slot⟩
    · rw [slot] at held
      cases held
      rw [found] at present
      cases present
      exact written ⟨outside, earlier⟩ found plays writes
    · exact ih (Slot.holder_of_commit (slot ▸ held)) present plays
    · exact ih (Slot.holder_of_rollback (slot ▸ held)) present plays
    · exact ih (slot ▸ held) present plays
  · intro before change world _ ih changed owner row process held present plays
    rw [change_slot changed] at held
    exact ih held present plays

theorem logged_started {settings : Services.Settings} {pool : PlatformPool}
    (reachable : Reachable settings pool) : ∀ entry ∈ pool.log, ∃ process,
    pool.process entry.pid = some process ∧ process.role = entry.role := by
  obtain ⟨outside, reached⟩ := reachable
  exact reached.started

end IncidentPlatform.Platform

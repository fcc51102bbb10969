import IncidentPlatform.Platform.Transactions

namespace IncidentPlatform.Platform

open Concurrency Models Services Storage

/-! # What one operation does to one saga row and one outbox row

The counterpart of `operate_slot` for the two other tables whose rows change.
-/

/-- The operation, with this reply, puts `new` in place of the row `old` of `saga`. -/
def Op.WritesSaga (saga : Uuid) (old : Option Saga) (new : Saga) :
    (operation : Op) → Reply operation → Prop
  | .statement (.insertSaga _ _), row => old = none ∧ row = new ∧ new.id = saga ∧ new.status = .running
  | .statement (.updateSaga id status completedAt), _ => id = saga ∧ ∃ row, old = some row ∧
      new = { row with status, completedAt := completedAt.or row.completedAt }
  | _, _ => False

/-- The columns of an outbox row that say what it announces. -/
structure SameMessage (old new : OutboxRow) : Prop where
  id : new.id = old.id
  topic : new.topic = old.topic
  event : new.event = old.event

/-- The same for the outbox row `id`; no statement changes what a row announces. -/
def Op.WritesOutbox (world : World) (id : Uuid) (old : Option OutboxRow) (new : OutboxRow) :
    (operation : Op) → Reply operation → Prop
  | .statement (.insertOutbox _ _ topic event), _ =>
      old = none ∧ id = world.outside.uuid ∧ new.id = id ∧ new.topic = topic ∧ new.event = event
  | .statement (.markPublished ids _), _ | .statement (.incrementAttempts ids), _
  | .statement (.markFailed ids _ _), _ => id ∈ ids ∧ ∃ row, old = some row ∧ SameMessage row new
  | _, _ => False

section Execute

variable {world after : World} {pid : Pid}

/-- The turn of `pid` on the saga row, and on the outbox row. -/
abbrev SagaTurn (world after : World) (pid : Pid) (operation : Op) (reply : Reply operation)
    (saga : Uuid) : Prop :=
  (world.sagas.slot saga).Turn pid
    (fun new => operation.WritesSaga saga (world.sagas.visible pid saga) new reply)
    (operation = .commit) (operation = .rollback) (after.sagas.slot saga)

abbrev OutboxTurn (world after : World) (pid : Pid) (operation : Op) (reply : Reply operation)
    (id : Uuid) : Prop :=
  (world.outbox.slot id).Turn pid
    (fun new => operation.WritesOutbox world id (world.outbox.visible pid id) new reply)
    (operation = .commit) (operation = .rollback) (after.outbox.slot id)

theorem outbox_updateAll {ids : List Uuid} {set : OutboxRow → OutboxRow} {hits : List Uuid}
    {outbox : Table Uuid OutboxRow} {issued : Statement} {reply : issued.Reply}
    (updated : world.outbox.updateAll pid (fun _ => true) set ids.dedup = some (hits, outbox))
    (message : ∀ row, SameMessage row (set row))
    (writing : ∀ id old new, (Op.statement issued).WritesOutbox world id old new reply ↔
      id ∈ ids ∧ ∃ row, old = some row ∧ SameMessage row new)
    (id : Uuid) : OutboxTurn world { world with outbox } pid (.statement issued) reply id := by
  rcases Table.updateAll_slot ids.nodup_dedup updated id with
    ⟨kept, missed⟩ | ⟨_, member, free, row, seen, _, slot⟩
  · refine .keep (fun new writes => missed ?_) (by simp) (by simp) kept
    obtain ⟨named, row, seen, _⟩ := (writing _ _ _).mp writes
    exact Table.updateAll_complete ids.nodup_dedup updated (List.mem_dedup.mpr named) seen rfl
  · exact .write (set row) ((writing _ _ _).mpr ⟨List.mem_dedup.mp member, row, seen, message row⟩)
      free slot

theorem turns_of_same {operation : Op} {reply : Reply operation}
    (sagas : ∀ saga old new, ¬ operation.WritesSaga saga old new reply)
    (outbox : ∀ id old new, ¬ operation.WritesOutbox world id old new reply)
    (opened : operation.ends = false) (sameSagas : after.sagas = world.sagas)
    (sameOutbox : after.outbox = world.outbox) :
    (∀ saga, SagaTurn world after pid operation reply saga) ∧
      ∀ id, OutboxTurn world after pid operation reply id := by
  have commits : operation ≠ .commit := by
    rintro rfl
    cases opened
  have rollsBack : operation ≠ .rollback := by
    rintro rfl
    cases opened
  exact ⟨fun saga => .keep (fun new => sagas saga _ new) commits rollsBack (by rw [sameSagas]),
    fun id => .keep (fun new => outbox id _ new) commits rollsBack (by rw [sameOutbox])⟩

theorem saga_update_turn {id saga : Uuid} {status : SagaStatus} {stamp : Option Time} {changed : Bool}
    {sagas : Table Uuid Saga}
    (updated : world.sagas.update pid id (fun _ => true) (fun saga =>
      { saga with status, completedAt := stamp.or saga.completedAt }) = some (changed, sagas)) :
    SagaTurn world { world with sagas } pid (.statement (.updateSaga id status stamp)) () saga := by
  rcases Table.update_slot updated saga with ⟨kept, refused⟩ | ⟨_, same, free, row, seen, _, slot⟩
  · refine .keep ?_ (by simp) (by simp) kept
    rintro new ⟨rfl, row, seen, _⟩
    rcases Table.update_cases updated with ⟨_, _, missing⟩ | ⟨accepted, _⟩
    · cases missing row seen
    · exact refused ⟨accepted, rfl⟩
  · exact .write _ ⟨same.symm, row, seen, rfl⟩ free slot

theorem saga_insert_turn {row : Saga} {tenant : Uuid} {name : String} {saga : Uuid}
    {sagas : Table Uuid Saga} (running : row.status = .running)
    (inserted : world.sagas.insert pid row.id row = some sagas) :
    SagaTurn world { world with sagas } pid (.statement (.insertSaga tenant name)) row saga := by
  rcases Table.insert_slot inserted saga with ⟨other, kept⟩ | ⟨same, absent, slot⟩
  · refine .keep ?_ (by simp) (by simp) kept
    rintro new ⟨_, rfl, same, _⟩
    exact other same.symm
  · have unseen : world.sagas.visible pid saga = none := by
      rw [← Table.slot_visible, absent]
      rfl
    refine .write row ⟨unseen, rfl, same.symm, running⟩ ?_ slot
    rw [absent]
    intro owner version held
    cases held

theorem outbox_insert_turn {row : OutboxRow} {tenant user id : Uuid} {outbox : Table Uuid OutboxRow}
    (fresh : row.id = world.outside.uuid)
    (inserted : world.outbox.insert pid row.id row = some outbox) :
    OutboxTurn world { world with outbox } pid
      (.statement (.insertOutbox tenant user row.topic row.event)) () id := by
  rcases Table.insert_slot inserted id with ⟨other, kept⟩ | ⟨same, absent, slot⟩
  · refine .keep ?_ (by simp) (by simp) kept
    rintro new ⟨_, same, _⟩
    exact other (same.trans fresh.symm)
  · have unseen : world.outbox.visible pid id = none := by
      rw [← Table.slot_visible, absent]
      rfl
    refine .write row ⟨unseen, same.trans fresh, same.symm, rfl, rfl⟩ ?_ slot
    rw [absent]
    intro owner version held
    cases held

theorem execute_turns {issued : Statement} {reply : issued.Reply}
    (executed : world.execute pid issued = some (reply, after)) :
    (∀ saga, SagaTurn world after pid (.statement issued) reply saga) ∧
      ∀ id, OutboxTurn world after pid (.statement issued) reply id := by
  have jobsOnly : ∀ jobs, (∀ saga old new, ¬ (Op.statement issued).WritesSaga saga old new reply) →
      (∀ id old new, ¬ (Op.statement issued).WritesOutbox world id old new reply) →
      after = { world with jobs } → (∀ saga, SagaTurn world after pid (.statement issued) reply saga) ∧
        ∀ id, OutboxTurn world after pid (.statement issued) reply id := by
    rintro jobs sagas outbox rfl
    exact turns_of_same sagas outbox rfl rfl rfl
  cases issued with
  | updateStatus id write guard =>
      obtain ⟨jobs, _, same⟩ := withJobs_eq executed
      exact jobsOnly jobs (fun _ _ _ => False.elim) (fun _ _ _ => False.elim) same
  | claimForRunning id =>
      obtain ⟨jobs, _, same⟩ := withJobs_eq executed
      exact jobsOnly jobs (fun _ _ _ => False.elim) (fun _ _ _ => False.elim) same
  | promoteWaitingToPending id =>
      obtain ⟨jobs, _, same⟩ := withJobs_eq executed
      exact jobsOnly jobs (fun _ _ _ => False.elim) (fun _ _ _ => False.elim) same
  | cancelBlocked ids reason stamp =>
      obtain ⟨jobs, _, same⟩ := withJobs_eq executed
      exact jobsOnly jobs (fun _ _ _ => False.elim) (fun _ _ _ => False.elim) same
  | stampRequeued id stamp =>
      obtain ⟨⟨changed, next⟩, updating, equal⟩ := Option.map_eq_some_iff.mp executed
      cases equal
      obtain ⟨jobs, _, same⟩ := withJobs_eq updating
      exact jobsOnly jobs (fun _ _ _ => False.elim) (fun _ _ _ => False.elim) same
  | renewRunningLeases ids oldest stamp =>
      obtain ⟨jobs, _, same⟩ := withJobs_eq executed
      exact jobsOnly jobs (fun _ _ _ => False.elim) (fun _ _ _ => False.elim) same
  | insertJob draft =>
      simp only [World.execute] at executed
      split at executed
      · obtain ⟨jobs, _, equal⟩ := Option.map_eq_some_iff.mp executed
        cases equal
        exact jobsOnly jobs (fun _ _ _ => False.elim) (fun _ _ _ => False.elim) rfl
      · split at executed
        · cases executed
          exact jobsOnly _ (fun _ _ _ => False.elim) (fun _ _ _ => False.elim) rfl
        · contradiction
  | insertDependencies id parents =>
      simp only [World.execute] at executed
      split at executed <;> cases executed
      · exact turns_of_same (fun _ _ _ => False.elim) (fun _ _ _ => False.elim) rfl rfl rfl
      · exact turns_of_same (fun _ _ _ => False.elim) (fun _ _ _ => False.elim) rfl rfl rfl
  | insertAudit entry =>
      cases executed
      exact turns_of_same (fun _ _ _ => False.elim) (fun _ _ _ => False.elim) rfl rfl rfl
  | insertOutbox tenant user topic event =>
      obtain ⟨outbox, inserted, equal⟩ := Option.map_eq_some_iff.mp executed
      cases equal
      exact ⟨fun saga => .keep (fun _ => False.elim) (by simp) (by simp) rfl,
        fun id => outbox_insert_turn rfl inserted⟩
  | insertSaga tenant name =>
      obtain ⟨sagas, inserted, equal⟩ := Option.map_eq_some_iff.mp executed
      cases equal
      exact ⟨fun saga => saga_insert_turn rfl inserted,
        fun _ => .keep (fun _ => False.elim) (by simp) (by simp) rfl⟩
  | updateSaga id status stamp =>
      obtain ⟨⟨changed, sagas⟩, updated, equal⟩ := Option.map_eq_some_iff.mp executed
      cases equal
      exact ⟨fun saga => saga_update_turn updated,
        fun _ => .keep (fun _ => False.elim) (by simp) (by simp) rfl⟩
  | markPublished ids stamp =>
      obtain ⟨_, outbox, updated, rfl⟩ := withOutbox_eq executed
      exact ⟨fun saga => .keep (fun _ => False.elim) (by simp) (by simp) rfl,
        outbox_updateAll updated (fun _ => ⟨rfl, rfl, rfl⟩) fun _ _ _ => Iff.rfl⟩
  | incrementAttempts ids =>
      obtain ⟨_, outbox, updated, rfl⟩ := withOutbox_eq executed
      exact ⟨fun saga => .keep (fun _ => False.elim) (by simp) (by simp) rfl,
        outbox_updateAll updated (fun _ => ⟨rfl, rfl, rfl⟩) fun _ _ _ => Iff.rfl⟩
  | markFailed ids stamp error =>
      obtain ⟨_, outbox, updated, rfl⟩ := withOutbox_eq executed
      exact ⟨fun saga => .keep (fun _ => False.elim) (by simp) (by simp) rfl,
        outbox_updateAll updated (fun _ => ⟨rfl, rfl, rfl⟩) fun _ _ _ => Iff.rfl⟩

theorem operate_turns {operation : Op} {reply : Reply operation}
    (operated : World.operate pid operation world = some (reply, after)) :
    (∀ saga, SagaTurn world after pid operation reply saga) ∧
      ∀ id, OutboxTurn world after pid operation reply id := by
  cases operation with
  | query query =>
      cases operated
      exact turns_of_same (fun _ _ _ => False.elim) (fun _ _ _ => False.elim) rfl rfl rfl
  | statement issued => exact execute_turns operated
  | commit =>
      cases operated
      exact ⟨fun saga => .commit rfl (Table.commit_slot ..), fun id => .commit rfl (Table.commit_slot ..)⟩
  | rollback =>
      cases operated
      exact ⟨fun saga => .rollback rfl (Table.rollback_slot ..),
        fun id => .rollback rfl (Table.rollback_slot ..)⟩
  | command command =>
      have same : after.sagas = world.sagas ∧ after.outbox = world.outbox := by
        cases command <;> cases operated <;> exact ⟨rfl, rfl⟩
      exact turns_of_same (fun _ _ _ => False.elim) (fun _ _ _ => False.elim) rfl same.1 same.2
  | reading reading =>
      cases operated
      exact turns_of_same (fun _ _ _ => False.elim) (fun _ _ _ => False.elim) rfl rfl rfl
  | publishRaw row =>
      have same : after.sagas = world.sagas ∧ after.outbox = world.outbox := by
        simp only [World.operate] at operated
        split at operated <;> cases operated <;> exact ⟨rfl, rfl⟩
      exact turns_of_same (fun _ _ _ => False.elim) (fun _ _ _ => False.elim) rfl same.1 same.2

end Execute

theorem insertOutbox_slot {world after : World} {pid : Pid} {tenant user : Uuid} {topic : Topic}
    {event : Event}
    (operated : World.operate pid (.statement (.insertOutbox tenant user topic event)) world =
      some ((), after)) :
    ∃ id row, (after.outbox.slot id).holder = some (pid, row) ∧ row.topic = topic ∧
      row.event = event ∧ (after.outbox.slot id).committed = none := by
  obtain ⟨outbox, inserted, equal⟩ := Option.map_eq_some_iff.mp operated
  cases equal
  rcases Table.insert_slot inserted world.outside.uuid with ⟨other, _⟩ | ⟨_, absent, slot⟩
  · exact absurd rfl other
  · refine ⟨world.outside.uuid, _, by rw [slot]; rfl, rfl, rfl, ?_⟩
    rw [slot, Slot.write_committed, absent]

theorem written_message {world : World} {id : Uuid} {old new : OutboxRow} {operation : Op}
    {reply : Reply operation} (writes : operation.WritesOutbox world id (some old) new reply) :
    SameMessage old new := by
  cases operation with
  | statement issued =>
      cases issued with
      | insertOutbox tenant user topic event => cases writes.1
      | markPublished ids stamp =>
          obtain ⟨_, _, equal, message⟩ := writes
          cases equal
          exact message
      | incrementAttempts ids =>
          obtain ⟨_, _, equal, message⟩ := writes
          cases equal
          exact message
      | markFailed ids stamp error =>
          obtain ⟨_, _, equal, message⟩ := writes
          cases equal
          exact message
      | _ => exact writes.elim
  | _ => exact writes.elim

theorem operate_jobTurn {world after : World} {pid : Pid} {operation : Op} {reply : Reply operation}
    (operated : World.operate pid operation world = some (reply, after)) (job : Uuid) :
    (world.jobs.slot job).Turn pid
      (fun new => operation.Writes world job (world.jobs.visible pid job) new reply)
      (operation = .commit) (operation = .rollback) (after.jobs.slot job) := by
  rcases operate_slot operated job with ⟨new, writes, free, slot⟩ | ⟨ends, slot⟩ | ⟨ends, slot⟩ |
    ⟨unwritten, uncommitted, opened, slot⟩
  · exact .write new writes free slot
  · exact .commit ends slot
  · exact .rollback ends slot
  · exact .keep unwritten uncommitted opened slot

section Committed

variable {world after : World} {pid : Pid} {operation : Op} {reply : Reply operation}
  (operated : World.operate pid operation world = some (reply, after))

include operated

theorem committed_source {id : Uuid} {row : Job} (stored : after.jobs.committed id = some row) :
    world.jobs.committed id = some row ∨
      operation = .commit ∧ (world.jobs.slot id).holder = some (pid, row) := by
  rcases (operate_jobTurn operated id).committed_cases with same | ⟨ends, version, held, published⟩
  · exact .inl (same.symm.trans stored)
  · rw [Table.slot_committed, stored] at published
    cases published
    exact .inr ⟨ends, held⟩

theorem saga_source {saga : Uuid} {row : Saga} (stored : after.sagas.committed saga = some row) :
    world.sagas.committed saga = some row ∨
      operation = .commit ∧ (world.sagas.slot saga).holder = some (pid, row) := by
  rcases ((operate_turns operated).1 saga).committed_cases with same | ⟨ends, version, held, published⟩
  · exact .inl (same.symm.trans stored)
  · rw [Table.slot_committed, stored] at published
    cases published
    exact .inr ⟨ends, held⟩

theorem message_published_of_held {id : Uuid} {row : OutboxRow} (ends : operation = .commit)
    (held : (world.outbox.slot id).holder = some (pid, row)) : after.outbox.committed id = some row := by
  subst ends
  have slot : after.outbox.slot id = (world.outbox.slot id).commit pid := by
    cases operated
    exact Table.commit_slot ..
  have committed := congrArg Slot.committed slot
  rwa [Slot.commit_committed, Slot.visible_of_held held] at committed

theorem published_of_held {id : Uuid} {row : Job} (ends : operation = .commit)
    (held : (world.jobs.slot id).holder = some (pid, row)) : after.jobs.committed id = some row := by
  subst ends
  have slot : after.jobs.slot id = (world.jobs.slot id).commit pid := by
    cases operated
    exact Table.commit_slot ..
  have committed := congrArg Slot.committed slot
  rwa [Slot.commit_committed, Slot.visible_of_held held] at committed

theorem saga_published_of_held {saga : Uuid} {row : Saga} (ends : operation = .commit)
    (held : (world.sagas.slot saga).holder = some (pid, row)) : after.sagas.committed saga = some row := by
  subst ends
  have slot : after.sagas.slot saga = (world.sagas.slot saga).commit pid := by
    cases operated
    exact Table.commit_slot ..
  have committed := congrArg Slot.committed slot
  rwa [Slot.commit_committed, Slot.visible_of_held held] at committed

end Committed

theorem accept_sagas {world after : World} {role : Role} (accepted : world.accept role = some after) :
    after.sagas = world.sagas ∧ after.outbox = world.outbox := by
  obtain ⟨_, rfl⟩ := accept_eq accepted
  exact ⟨rfl, rfl⟩

theorem change_sagas {world after : World} {change : Change}
    (changed : world.change change = some after) :
    after.sagas = world.sagas ∧ after.outbox = world.outbox := by
  obtain ⟨_, _, _, _, _, rfl⟩ := change_cases changed
  exact ⟨rfl, rfl⟩

end IncidentPlatform.Platform

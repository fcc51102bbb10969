import IncidentPlatform.Concurrency.Alone
import IncidentPlatform.Platform.Graph
import Mathlib.Data.Finset.Basic
import Mathlib.Data.Fintype.EquivFin

namespace IncidentPlatform.Platform

open Concurrency Models Services Storage

/-! # Requests one after the other

The API calls that create jobs, each run to its end before the next begins.
Such a history is a run of the platform, so what holds in every run holds
after every call of it.
-/

inductive Call where
  | job (request : CreateJobRequest)
  | saga (request : CreateSagaRequest)

def Call.role : Call → Role
  | .job request => .createJob request
  | .saga request => .createSaga request

/-- A request that runs alone: its handler, then the commit of `get_db`, or its
rollback when the handler raised. -/
def HandlerRuns {α : Type} (settings : Settings) (pid : Pid) (handler : Prog (Except ServiceError α))
    (world : World) (raised : Option ServiceError) (after : World) : Prop :=
  ∃ result middle, Alone (platform settings) pid handler world result middle ∧
    ((∃ value, result = .ok value ∧ raised = none ∧ after = middle.commit pid) ∨
      ∃ error, result = .error error ∧ raised = some error ∧ after = middle.rollback pid)

def Call.Runs (call : Call) (settings : Settings) (pid : Pid) (world : World)
    (raised : Option ServiceError) (after : World) : Prop :=
  match call with
  | .job create => HandlerRuns settings pid (createJob settings create) world raised after
  | .saga create => HandlerRuns settings pid (createSaga settings create) world raised after

/-- A call that has returned or raised. -/
structure Done where
  call : Call
  before : World
  raised : Option ServiceError
  after : World

/-- The calls since the platform was empty, newest first.  Each has a
transaction of its own. -/
inductive History (settings : Settings) : List Done → World → Prop where
  | start (outside : Outside) : History settings [] (.fresh outside)
  | call {calls : List Done} {call : Call} {world after : World} {raised : Option ServiceError} :
      History settings calls world → call.Runs settings calls.length world raised after →
      History settings (⟨call, world, raised, after⟩ :: calls) after

/-- Only `pid` has a transaction open. -/
structure Private (pid : Pid) (world : World) : Prop where
  jobs : ∀ id, (world.jobs.slot id).Free pid
  edges : ∀ other, other ≠ pid → world.dependencies.pending other = []

/-- No transaction is open. -/
structure World.Closed (world : World) : Prop where
  jobs : ∀ id, (world.jobs.slot id).holder = none
  edges : ∀ pid, world.dependencies.pending pid = []

/-- No transaction is open, and every row carries the key it is stored under. -/
structure World.Settled (world : World) : Prop where
  closed : world.Closed
  keyed : ∀ id row, world.jobs.committed id = some row → row.id = id

section Private

variable {settings : Settings} {pid : Pid} {world after : World}

theorem World.Closed.private (closed : world.Closed) (pid : Pid) : Private pid world := by
  refine ⟨fun id owner row held => ?_, fun other _ => closed.edges other⟩
  rw [closed.jobs id] at held
  cases held

theorem World.Closed.visible (closed : world.Closed) (pid : Pid) (id : Uuid) :
    world.jobs.visible pid id = world.jobs.committed id := by
  rw [← Table.slot_visible, Slot.visible_of_free (by simp [closed.jobs id]), Table.slot_committed]

theorem World.Settled.visible (settled : world.Settled) {id : Uuid} {row : Job}
    (seen : world.jobs.visible pid id = some row) : row.id = id := by
  rw [settled.closed.visible] at seen
  exact settled.keyed id row seen

theorem World.Settled.selected_nodup (settled : world.Settled) (pid : Pid) (selects : Job → Bool) :
    (((world.jobs.rows pid).filter selects).map Job.id).Nodup :=
  (Table.rows_nodup fun _ _ seen => settled.visible seen).sublist (List.filter_sublist.map Job.id)

theorem World.settled_of_stored {row : Nat → Job} {count : Nat} (jobs : world.jobs = .stored row count)
    (keyed : ∀ id, (row id).id = id) (edges : ∀ pid, world.dependencies.pending pid = []) :
    world.Settled := by
  refine ⟨⟨fun id => ?_, edges⟩, ?_⟩
  · rw [jobs]
    rfl
  · intro (id : Nat) stored equal
    rw [jobs] at equal
    simp only [Table.stored, Option.ite_none_right_eq_some, Option.some.injEq] at equal
    rw [← equal.2, keyed]

theorem Private.operate {operation : Op} {reply : Reply operation} (alone : Private pid world)
    (operated : World.operate pid operation world = some (reply, after)) : Private pid after := by
  constructor
  · intro id owner row held
    rcases operate_slot operated id with ⟨new, _, _, slot⟩ | ⟨_, slot⟩ | ⟨_, slot⟩ | ⟨_, _, _, slot⟩
    · rw [slot, Slot.write_holder] at held
      cases held
      rfl
    · rw [slot] at held
      exact alone.jobs id owner row (Slot.holder_of_commit held)
    · rw [slot] at held
      exact alone.jobs id owner row (Slot.holder_of_rollback held)
    · rw [slot] at held
      exact alone.jobs id owner row held
  · intro other different
    rcases operate_edges operated with ⟨id, parents, _, _, _, _, edges⟩ | ⟨_, edges⟩ | ⟨_, edges⟩ |
      ⟨_, _, edges⟩
    · simp [edges, Journal.append, different, alone.edges other different]
    · simp [edges, Journal.commit, different, alone.edges other different]
    · simp [edges, Journal.rollback, different, alone.edges other different]
    · rw [edges, alone.edges other different]

theorem Private.drift (alone : Private pid world) (drifts : Drifts (platform settings) world after) :
    Private pid after := by
  induction drifts with
  | refl world => exact alone
  | step changed _ ih =>
      refine ih ⟨fun id => ?_, fun other different => ?_⟩
      · rw [change_slot changed]
        exact alone.jobs id
      · rw [change_edges changed, alone.edges other different]

theorem Private.commit (alone : Private pid world) : (world.commit pid).Closed := by
  constructor
  · intro id
    rw [World.commit, Table.commit_slot]
    rcases (world.jobs.slot id).commit_cases pid with ⟨row, _, equal⟩ | ⟨unheld, equal⟩
    · rw [equal]
    · rw [equal]
      exact Option.eq_none_iff_forall_ne_some.mpr fun ⟨owner, row⟩ held =>
        unheld row (alone.jobs id owner row held ▸ held)
  · intro other
    by_cases same : other = pid
    · simp [World.commit, Journal.commit, same]
    · simp [World.commit, Journal.commit, same, alone.edges other same]

theorem Private.rollback (alone : Private pid world) : (world.rollback pid).Closed := by
  constructor
  · intro id
    rw [World.rollback, Table.rollback_slot]
    rcases (world.jobs.slot id).rollback_cases pid with ⟨row, _, equal⟩ | ⟨unheld, equal⟩
    · rw [equal]
    · rw [equal]
      exact Option.eq_none_iff_forall_ne_some.mpr fun ⟨owner, row⟩ held =>
        unheld row (alone.jobs id owner row held ▸ held)
  · intro other
    by_cases same : other = pid
    · simp [World.rollback, Journal.rollback, same]
    · simp [World.rollback, Journal.rollback, same, alone.edges other same]

theorem closed_of_runs {α : Type} {handler : Prog (Except ServiceError α)}
    {raised : Option ServiceError} (closed : world.Closed)
    (runs : HandlerRuns settings pid handler world raised after) : after.Closed := by
  obtain ⟨result, middle, ran, ended⟩ := runs
  have alone : Private pid middle := by
    refine ran.keeps (motive := Private pid) (Program.uses_any handler) ?_ ?_ (closed.private pid)
    · exact fun _ _ drifts alone => alone.drift drifts
    · exact fun _ _ _ _ _ operated alone => alone.operate operated
  rcases ended with ⟨_, _, _, rfl⟩ | ⟨_, _, _, rfl⟩
  · exact alone.commit
  · exact alone.rollback

end Private

section Progress

variable {settings : Settings} {pid : Pid} {world : World}

theorem update_of_free (condition : Job → Bool) (set : Job → Job) (id : Uuid)
    (table : Table Uuid Job) (free : (table.slot id).Free pid) :
    ∃ changed after, table.update pid id condition set = some (changed, after) := by
  unfold Table.update
  split
  · exact ⟨false, table, rfl⟩
  · rw [dif_pos (Table.free_iff_slot.mpr free)]
    split
    · exact ⟨true, _, rfl⟩
    · exact ⟨false, table, rfl⟩

theorem updateAll_of_free (condition : Job → Bool) (set : Job → Job) (ids : List Uuid)
    (table : Table Uuid Job) (free : ∀ id, (table.slot id).Free pid) :
    ∃ hits after, table.updateAll pid condition set ids = some (hits, after) := by
  induction ids generalizing table with
  | nil => exact ⟨[], table, rfl⟩
  | cons id rest ih =>
      obtain ⟨changed, next, updated⟩ := update_of_free condition set id table (free id)
      have still : ∀ other, (next.slot other).Free pid := by
        intro other owner row held
        rcases Table.update_slot updated other with ⟨kept, _⟩ | ⟨_, _, _, _, _, _, wrote⟩
        · rw [kept] at held
          exact free other owner row held
        · rw [wrote, Slot.write_holder] at held
          cases held
          rfl
      obtain ⟨hits, after, others⟩ := ih next still
      exact ⟨if changed then id :: hits else hits, after, by simp only [Table.updateAll, updated, others]⟩

theorem insert_of_unused {Row : Type} (pid : Pid) (table : Table Uuid Row) (row : Row) {id : Uuid}
    (unused : id ∉ table.keys) : ∃ after, table.insert pid id row = some after := by
  have free : table.Free pid id := .inl (table.listed id unused).2
  rw [Table.insert, if_neg unused, dif_pos free]
  exact ⟨_, rfl⟩

theorem insertJob_of_free {draft : JobDraft} (free : ∀ id, (world.jobs.slot id).Free pid)
    (unused : world.outside.uuid ∉ world.jobs.keys) :
    ∃ reply after, world.execute pid (.insertJob draft) = some (reply, after) := by
  simp only [World.execute]
  split
  · obtain ⟨jobs, inserted⟩ := insert_of_unused pid world.jobs
      (draft.row world.outside.uuid world.outside.clock) unused
    exact ⟨_, _, by rw [show (draft.row world.outside.uuid world.outside.clock).id =
      world.outside.uuid from rfl, inserted]; rfl⟩
  · rename_i conflicting
    -- Nobody else has a row open, so a conflicting one is committed or its own.
    have settled : ((world.idempotencyConflicts draft).any fun id =>
        (world.jobs.committed id).isSome || world.jobs.lock id = some pid) = true := by
      obtain ⟨id, rest, equal⟩ := List.exists_cons_of_ne_nil
        (fun empty => conflicting (List.isEmpty_iff.mpr empty))
      have member : id ∈ world.idempotencyConflicts draft := by simp [equal]
      refine List.any_eq_true.mpr ⟨id, member, ?_⟩
      cases locked : world.jobs.lock id with
      | some owner =>
          obtain ⟨row, own⟩ := Table.own_isSome_iff.mpr locked
          simp [free id owner row (Table.slot_holder_iff.mpr own)]
      | none =>
          unfold World.idempotencyConflicts at member
          split at member
          · cases member
          · obtain ⟨row, newest, _⟩ := (Option.any_eq_true _ _).mp (List.mem_filter.mp member).2
            rw [Table.newest, locked] at newest
            simp [newest]
    rw [if_pos settled]
    exact ⟨_, _, rfl⟩

theorem exists_unused (world : World) : ∃ id, id ∉ world.jobs.keys ∧ id ∉ world.outbox.keys ∧
    id ∉ world.sagas.keys := by
  obtain ⟨id, unused⟩ := Infinite.exists_notMem_finset
    (world.jobs.keys ++ world.outbox.keys ++ world.sagas.keys).toFinset
  simp only [List.toFinset_append, Finset.mem_union, List.mem_toFinset, not_or] at unused
  exact ⟨id, unused.1.1, unused.1.2, unused.2⟩

/-- The operations that update neither outbox rows nor sagas. -/
def Op.leavesOutbox : Op → Prop
  | .statement (.markPublished _ _) | .statement (.incrementAttempts _)
  | .statement (.markFailed _ _ _) | .statement (.updateSaga _ _ _) => False
  | _ => True

theorem Role.leavesOutbox {role : Role} (relays : role ≠ .outboxRelay)
    (coordinates : role.coordinates = false) (operation : Op) (may : role.may operation) :
    operation.leavesOutbox := by
  cases operation with
  | statement issued =>
      cases issued with
      | markPublished ids stamp => exact relays may
      | incrementAttempts ids => exact relays may
      | markFailed ids stamp error => exact relays may
      | updateSaga id status completedAt =>
          have coordinating : role.coordinates = true := may
          rw [coordinates] at coordinating
          contradiction
      | _ => exact trivial
  | _ => exact trivial

theorem operate_of_free {operation : Op} (leaves : operation.leavesOutbox)
    (free : ∀ id, (world.jobs.slot id).Free pid)
    (jobs : world.outside.uuid ∉ world.jobs.keys) (outbox : world.outside.uuid ∉ world.outbox.keys)
    (sagas : world.outside.uuid ∉ world.sagas.keys) :
    ∃ reply after, World.operate pid operation world = some (reply, after) := by
  have one : ∀ (condition : Job → Bool) (set : Job → Job) (id : Uuid),
      ∃ changed after, world.withJobs (world.jobs.update pid id condition set) = some (changed, after) := by
    intro condition set id
    obtain ⟨changed, after, updated⟩ := update_of_free condition set id world.jobs (free id)
    exact ⟨changed, { world with jobs := after }, by simp [World.withJobs, updated]⟩
  have many : ∀ (condition : Job → Bool) (set : Job → Job) (ids : List Uuid),
      ∃ hits after, world.withJobs (world.jobs.updateAll pid condition set ids) = some (hits, after) := by
    intro condition set ids
    obtain ⟨hits, after, updated⟩ := updateAll_of_free condition set ids world.jobs free
    exact ⟨hits, { world with jobs := after }, by simp [World.withJobs, updated]⟩
  cases operation with
  | query query => exact ⟨_, _, rfl⟩
  | commit => exact ⟨_, _, rfl⟩
  | rollback => exact ⟨_, _, rfl⟩
  | command command => exact ⟨_, _, rfl⟩
  | reading reading => exact ⟨_, _, rfl⟩
  | publishRaw row =>
      simp only [World.operate]
      split
      · exact ⟨_, _, rfl⟩
      · exact ⟨_, _, rfl⟩
  | statement issued =>
      cases issued with
      | insertJob draft => exact insertJob_of_free free jobs
      | insertDependencies id parents =>
          simp only [World.operate, World.execute]
          split
          · exact ⟨_, _, rfl⟩
          · exact ⟨_, _, rfl⟩
      | insertAudit entry => exact ⟨_, _, rfl⟩
      | insertOutbox tenant user topic event =>
          let row : OutboxRow := {
            id := world.outside.uuid, tenantId := tenant, topic, key := (tenant, user), event,
            createdAt := world.outside.clock }
          obtain ⟨after, inserted⟩ := insert_of_unused pid world.outbox row outbox
          exact ⟨(), { world with outbox := after }, by
            simp [World.operate, World.execute, row, inserted]⟩
      | insertSaga tenant name =>
          let row : Saga := {
            id := world.outside.uuid, tenantId := tenant, name, status := .running,
            createdAt := world.outside.clock }
          obtain ⟨after, inserted⟩ := insert_of_unused pid world.sagas row sagas
          exact ⟨row, { world with sagas := after }, by
            simp [World.operate, World.execute, row, inserted]⟩
      | cancelBlocked ids reason stamp => exact many _ _ _
      | renewRunningLeases ids oldest stamp => exact many _ _ _
      | updateStatus id write guard => exact one _ _ _
      | claimForRunning id => exact one _ _ _
      | promoteWaitingToPending id => exact one _ _ _
      | stampRequeued id stamp =>
          obtain ⟨changed, after, updated⟩ := one (fun _ => true)
            (fun job => { job with requeuedAt := some stamp }) id
          exact ⟨(), after, by simp [World.operate, World.execute, updated]⟩
      | markPublished ids stamp => exact leaves.elim
      | incrementAttempts ids => exact leaves.elim
      | markFailed ids stamp error => exact leaves.elim
      | updateSaga id status completedAt => exact leaves.elim

theorem exists_run_of_closed {α : Type} {program : Prog α} (uses : program.Uses Op.leavesOutbox)
    (closed : world.Closed) : ∃ value after, Alone (platform settings) pid program world value after := by
  refine Alone.exists_run (motive := Private pid) uses ?_ (closed.private pid)
  intro operation world leaves alone
  obtain ⟨id, jobs, outbox, sagas⟩ := exists_unused world
  have renewed : (platform settings).environment (.outside { world.outside with uuid := id }) world =
      some { world with outside := { world.outside with uuid := id } } := rfl
  have drifts := Drifts.step renewed (.refl _)
  obtain ⟨reply, after, operated⟩ := operate_of_free leaves (alone.drift drifts).jobs jobs outbox sagas
  exact ⟨_, reply, after, drifts, operated, (alone.drift drifts).operate operated⟩

theorem exists_handler_run {α : Type} (role : Role) {handler : Prog (Except ServiceError α)}
    (creates : role.creates) (uses : handler.Uses role.may) (closed : world.Closed) :
    ∃ raised after, HandlerRuns settings pid handler world raised after := by
  have leaves : handler.Uses Op.leavesOutbox := by
    refine uses.mono (role.leavesOutbox ?_ ?_)
    · rintro rfl
      contradiction
    · cases role <;> first | rfl | contradiction
  obtain ⟨result, middle, ran⟩ := exists_run_of_closed leaves closed
  cases result with
  | ok value => exact ⟨none, _, .ok value, middle, ran, .inl ⟨value, rfl, rfl, rfl⟩⟩
  | error error => exact ⟨some error, _, .error error, middle, ran, .inr ⟨error, rfl, rfl, rfl⟩⟩

theorem Call.exists_run (call : Call) (closed : world.Closed) :
    ∃ raised after, call.Runs settings pid world raised after := by
  cases call with
  | job create =>
      exact exists_handler_run (.createJob create) rfl (createJob_uses settings rfl create) closed
  | saga create =>
      exact exists_handler_run (.createSaga create) rfl (createSaga_uses settings rfl rfl create) closed

end Progress

section History

variable {settings : Settings} {calls : List Done} {world : World}

theorem Call.closed {call : Call} {pid : Pid} {after : World} {raised : Option ServiceError}
    (closed : world.Closed) (runs : call.Runs settings pid world raised after) : after.Closed := by
  cases call with
  | job create => exact closed_of_runs closed runs
  | saga create => exact closed_of_runs closed runs

theorem History.closed (history : History settings calls world) : world.Closed := by
  induction history with
  | start outside => exact ⟨fun _ => rfl, fun _ => rfl⟩
  | call _ runs ih => exact Call.closed ih runs

theorem request_of_runs {α : Type} {handler : Prog (Except ServiceError α)} {pid : Pid}
    {after : World} {raised : Option ServiceError}
    (runs : HandlerRuns settings pid handler world raised after) :
    Alone (platform settings) pid (request handler) world () after := by
  obtain ⟨result, middle, ran, ended⟩ := runs
  refine Alone.bind ran ?_
  rcases ended with ⟨value, rfl, _, rfl⟩ | ⟨error, rfl, _, rfl⟩
  · exact .call (.refl _) rfl (.done (.refl _))
  · exact .call (.refl _) rfl (.done (.refl _))

theorem Call.alone {call : Call} {pid : Pid} {after : World} {raised : Option ServiceError}
    (runs : call.Runs settings pid world raised after) :
    Alone (platform settings) pid ((platform settings).program call.role) world () after := by
  cases call with
  | job create => exact request_of_runs runs
  | saga create => exact request_of_runs runs

theorem History.reachable (history : History settings calls world) :
    ∃ pool, Reachable settings pool ∧ pool.world = world ∧
      ∀ pid, calls.length ≤ pid → pool.process pid = none := by
  induction history with
  | start outside => exact ⟨_, ⟨outside, .refl⟩, rfl, fun _ _ => rfl⟩
  | @call calls call world after raised _ runs ih =>
      obtain ⟨pool, reachable, rfl, unused⟩ := ih
      have started : (platform settings).step (.spawn calls.length call.role) pool =
          some (pool.start calls.length
            { role := call.role, program := (platform settings).program call.role } pool.world) := by
        have accepted : (platform settings).accept call.role pool.world = some pool.world := by
          cases call <;> rfl
        simp only [System.step, unused calls.length le_rfl, accepted]
      obtain ⟨final, reached, last, others⟩ := (Call.alone runs).reaches
        (Pool.start_world pool calls.length _ pool.world) (Pool.setProcess_self ..)
      refine ⟨final, (reachable.trans (.step .refl started)).trans reached, last, ?_⟩
      intro pid beyond
      have different : pid ≠ calls.length := by
        rw [List.length_cons] at beyond
        omega
      rw [others pid different, Pool.start_process, Pool.setProcess_other _ _ different]
      exact unused pid (by rw [List.length_cons] at beyond; omega)

theorem History.graph_kept (history : History settings calls world) :
    ∃ pool, GraphKept pool ∧ pool.world = world := by
  obtain ⟨pool, reachable, same, _⟩ := history.reachable
  exact ⟨pool, Platform.graph_kept reachable, same⟩

end History

end IncidentPlatform.Platform

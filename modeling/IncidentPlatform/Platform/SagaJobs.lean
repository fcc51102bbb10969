import IncidentPlatform.Platform.SagaRows

namespace IncidentPlatform.Platform

open Concurrency Models Services Repositories Storage Workers

/-! # The jobs of a saga

A job that a transaction has inserted is held by it until it ends, and every
version of a job agrees on the columns that no statement changes.
-/

theorem SameJob.refl (job : Job) : SameJob job job := ⟨rfl, rfl, rfl, rfl, rfl, rfl, rfl⟩

theorem SameJob.trans {first second third : Job} (left : SameJob first second)
    (right : SameJob second third) : SameJob first third where
  id := right.id.trans left.id
  tenantId := right.tenantId.trans left.tenantId
  type := right.type.trans left.type
  payload := right.payload.trans left.payload
  sagaId := right.sagaId.trans left.sagaId
  sagaStepIndex := right.sagaStepIndex.trans left.sagaStepIndex
  maxAttempts := right.maxAttempts.trans left.maxAttempts

theorem insertJob_slot {world after : World} {pid : Pid} {draft : JobDraft} {job : Job}
    (operated : World.operate pid (.statement (.insertJob draft)) world = some (some job, after)) :
    job = draft.row world.outside.uuid world.outside.clock ∧
      world.jobs.slot job.id = { committed := none, holder := none } ∧
      (after.jobs.slot job.id).holder = some (pid, job) := by
  have executed : world.execute pid (.insertJob draft) = some (some job, after) := operated
  simp only [World.execute] at executed
  split at executed
  · obtain ⟨jobs, inserted, equal⟩ := Option.map_eq_some_iff.mp executed
    cases equal
    rcases Table.insert_slot inserted world.outside.uuid with ⟨other, _⟩ | ⟨_, absent, slot⟩
    · exact absurd rfl other
    · exact ⟨rfl, absent, by rw [show (draft.row world.outside.uuid world.outside.clock).id =
        world.outside.uuid from rfl, slot]; rfl⟩
  · split at executed
    · cases executed
    · contradiction

theorem insertJob_accepted {world after : World} {pid : Pid} {draft : JobDraft} {inserted : Option Job}
    (unkeyed : draft.idempotencyKey = none)
    (operated : World.operate pid (.statement (.insertJob draft)) world = some (inserted, after)) :
    inserted = some (draft.row world.outside.uuid world.outside.clock) := by
  have executed : world.execute pid (.insertJob draft) = some (inserted, after) := operated
  have clear : world.idempotencyConflicts draft = [] := by
    rw [World.idempotencyConflicts, unkeyed]
  simp only [World.execute, clear, List.isEmpty_nil, if_true] at executed
  obtain ⟨jobs, _, equal⟩ := Option.map_eq_some_iff.mp executed
  cases equal
  rfl

structure InsertionsKept (pool : PlatformPool) : Prop where
  held : ∀ pid, ∀ job ∈ insertions (traceOf pid pool.log), ∃ row,
    (pool.world.jobs.slot job.id).holder = some (pid, row) ∧ SameJob job row ∧
      (pool.world.jobs.slot job.id).committed = none
  distinct : ∀ pid, ((insertions (traceOf pid pool.log)).map Job.id).Nodup
  fresh : ∀ id pid row, (pool.world.jobs.slot id).holder = some (pid, row) →
    (pool.world.jobs.slot id).committed = none →
      ∃ job ∈ insertions (traceOf pid pool.log), job.id = id ∧ SameJob job row
  versions : ∀ id pid row stored, (pool.world.jobs.slot id).holder = some (pid, row) →
    (pool.world.jobs.slot id).committed = some stored → SameJob stored row

section Step

variable {before : PlatformPool} {pid : Pid} {role : Role} {operation : Op}
  {next : Reply operation → Prog Unit} {reply : Reply operation} {world : World}

theorem mem_insertions_extend {trace : List Act} {job : Job}
    (member : job ∈ insertions (extendTrace trace operation reply)) :
    operation.ends = false ∧ (insertionOf ⟨operation, reply⟩ = some job ∨ job ∈ insertions trace) := by
  obtain ⟨act, among, inserted⟩ := List.mem_filterMap.mp member
  obtain ⟨opened, rfl | earlier⟩ := mem_extendTrace among
  · exact ⟨opened, .inl inserted⟩
  · exact ⟨opened, .inr (List.mem_filterMap.mpr ⟨act, earlier, inserted⟩)⟩

theorem insertion_cases {job : Job} (inserted : insertionOf ⟨operation, reply⟩ = some job) :
    ∃ draft, operation = .statement (.insertJob draft) ∧ HEq reply (some job) := by
  cases operation with
  | statement issued =>
      cases issued with
      | insertJob draft => exact ⟨draft, rfl, heq_of_eq inserted⟩
      | _ => cases inserted
  | _ => cases inserted

theorem written_same {id : Uuid} {old new : Job}
    (writes : operation.Writes before.world id (before.world.jobs.visible pid id) new reply)
    (seen : (before.world.jobs.slot id).visible pid = some old) : SameJob old new := by
  rw [Table.slot_visible] at seen
  rw [seen] at writes
  exact writes.sameJob

variable (operated : World.operate pid operation before.world = some (reply, world))

include operated

theorem InsertionsKept.held_record (kept : InsertionsKept before) (owner : Pid) (job : Job)
    (member : job ∈ insertions
      (traceOf owner (before.record pid role operation reply (next reply) world).log)) :
    ∃ row, (world.jobs.slot job.id).holder = some (owner, row) ∧ SameJob job row ∧
      (world.jobs.slot job.id).committed = none := by
  rw [traceOf_record] at member
  have turn := operate_jobTurn operated job.id
  split at member
  · rename_i same
    subst same
    obtain ⟨stays, inserted | earlier⟩ := mem_insertions_extend member
    · obtain ⟨draft, rfl, equal⟩ := insertion_cases inserted
      cases equal
      obtain ⟨_, absent, held⟩ := insertJob_slot operated
      refine ⟨job, held, .refl job, ?_⟩
      rcases turn.committed_cases with same | ⟨ends, _⟩
      · rw [same, absent]
      · cases ends
    · obtain ⟨row, held, same, absent⟩ := kept.held pid job earlier
      obtain ⟨uncommitted, unrolled⟩ := continues_of_open stays
      cases turn with
      | write new writes _ slot =>
          rw [slot]
          exact ⟨new, rfl, same.trans (written_same writes (Slot.visible_of_held held)), absent⟩
      | commit ends _ => exact absurd ends uncommitted
      | rollback ends _ => exact absurd ends unrolled
      | keep _ _ _ slot =>
          rw [slot]
          exact ⟨row, held, same, absent⟩
  · rename_i other
    obtain ⟨row, held, same, absent⟩ := kept.held owner job member
    rw [turn.held_kept (Ne.symm other) held]
    exact ⟨row, held, same, absent⟩

theorem InsertionsKept.distinct_record (kept : InsertionsKept before) (owner : Pid) :
    ((insertions (traceOf owner
      (before.record pid role operation reply (next reply) world).log)).map Job.id).Nodup := by
  rw [traceOf_record]
  split
  · rename_i same
    subst same
    cases stays : operation.ends with
    | true =>
        rw [extendTrace, stays]
        exact List.nodup_nil
    | false =>
        rw [extendTrace_of_open stays]
        cases inserted : insertionOf ⟨operation, reply⟩ with
        | none =>
            rw [insertions, List.filterMap_cons_none inserted]
            exact kept.distinct pid
        | some job =>
            rw [insertions, List.filterMap_cons_some inserted, List.map_cons, List.nodup_cons]
            refine ⟨?_, kept.distinct pid⟩
            rintro member
            obtain ⟨earlier, among, same⟩ := List.mem_map.mp member
            obtain ⟨draft, rfl, equal⟩ := insertion_cases inserted
            cases equal
            obtain ⟨row, held, _⟩ := kept.held pid earlier among
            rw [same, (insertJob_slot operated).2.1] at held
            cases held
  · exact kept.distinct owner

theorem InsertionsKept.fresh_record (kept : InsertionsKept before) (id : Uuid) (owner : Pid) (row : Job)
    (held : (world.jobs.slot id).holder = some (owner, row))
    (absent : (world.jobs.slot id).committed = none) :
    ∃ job ∈ insertions (traceOf owner (before.record pid role operation reply (next reply) world).log),
      job.id = id ∧ SameJob job row := by
  have turn := operate_jobTurn operated id
  have unstored : (before.world.jobs.slot id).committed = none := by
    cases stored : (before.world.jobs.slot id).committed with
    | none => rfl
    | some old =>
        obtain ⟨now, committed⟩ := turn.committed_kept stored
        rw [absent] at committed
        cases committed
  rw [traceOf_record]
  rcases turn.holder_cases held with ⟨rfl, writes, free⟩ | ⟨earlier, own⟩
  · rw [if_pos rfl]
    cases current : (before.world.jobs.slot id).holder with
    | some entry =>
        obtain ⟨holder, version⟩ := entry
        obtain rfl := free holder version current
        obtain ⟨job, member, keyed, same⟩ := kept.fresh id holder version current unstored
        rw [extendTrace_of_open writes.open]
        refine ⟨job, ?_, keyed, same.trans (written_same writes (Slot.visible_of_held current))⟩
        obtain ⟨act, among, inserted⟩ := List.mem_filterMap.mp member
        exact List.mem_filterMap.mpr ⟨act, List.mem_cons_of_mem _ among, inserted⟩
    | none =>
        rw [← Table.slot_visible, Slot.visible_of_free (by simp [current]), unstored] at writes
        obtain ⟨draft, rfl⟩ := inserts_of_absent writes
        obtain ⟨_, rfl, keyed, _⟩ := writes
        exact ⟨row, List.mem_cons_self, keyed, .refl row⟩
  · obtain ⟨job, member, keyed, same⟩ := kept.fresh id owner row earlier unstored
    refine ⟨job, ?_, keyed, same⟩
    split
    · rename_i mine
      obtain ⟨_, uncommitted, unrolled⟩ := own mine.symm
      rw [extendTrace_of_open (ends_eq_false uncommitted unrolled)]
      obtain ⟨act, among, inserted⟩ := List.mem_filterMap.mp member
      exact List.mem_filterMap.mpr ⟨act, List.mem_cons_of_mem _ among, inserted⟩
    · exact member

theorem InsertionsKept.versions_record (kept : InsertionsKept before) (id : Uuid) (owner : Pid)
    (row stored : Job) (held : (world.jobs.slot id).holder = some (owner, row))
    (committed : (world.jobs.slot id).committed = some stored) : SameJob stored row := by
  cases operate_jobTurn operated id with
  | write new writes free slot =>
      rw [slot] at held committed
      rw [Slot.write_committed] at committed
      cases held
      obtain ⟨seen, visible⟩ := Slot.visible_of_stored pid committed
      refine SameJob.trans ?_ (written_same writes visible)
      cases current : (before.world.jobs.slot id).holder with
      | none =>
          rw [Slot.visible_of_free (by simp [current]), committed] at visible
          cases visible
          exact .refl stored
      | some entry =>
          obtain ⟨holder, version⟩ := entry
          obtain rfl := free holder version current
          rw [Slot.visible_of_held current] at visible
          cases visible
          exact kept.versions id holder seen stored current committed
  | commit _ slot =>
      rcases (before.world.jobs.slot id).commit_cases pid with ⟨_, _, equal⟩ | ⟨_, equal⟩
      · rw [slot, equal] at held
        cases held
      · rw [slot, equal] at held committed
        exact kept.versions id owner row stored held committed
  | rollback _ slot =>
      rcases (before.world.jobs.slot id).rollback_cases pid with ⟨_, _, equal⟩ | ⟨_, equal⟩
      · rw [slot, equal] at held
        cases held
      · rw [slot, equal] at held committed
        exact kept.versions id owner row stored held committed
  | keep _ _ _ slot =>
      rw [slot] at held committed
      exact kept.versions id owner row stored held committed

end Step

theorem InsertionsKept.of_same {before after : PlatformPool} (kept : InsertionsKept before)
    (sameLog : after.log = before.log)
    (sameSlots : ∀ job, after.world.jobs.slot job = before.world.jobs.slot job) : InsertionsKept after := by
  constructor
  · intro pid job member
    rw [sameLog] at member
    rw [sameSlots]
    exact kept.held pid job member
  · rw [sameLog]
    exact kept.distinct
  · intro id pid row held absent
    rw [sameSlots] at held absent
    rw [sameLog]
    exact kept.fresh id pid row held absent
  · intro id pid row stored held committed
    rw [sameSlots] at held committed
    exact kept.versions id pid row stored held committed

theorem insertions_kept {settings : Settings} {pool : PlatformPool} (reachable : Reachable settings pool) :
    InsertionsKept pool := by
  obtain ⟨outside, reached⟩ := reachable
  refine reached.invariant (motive := InsertionsKept) ?_ ?_ ?_ ?_
  · constructor
    · intro pid job member
      cases member
    · exact fun pid => List.nodup_nil
    · intro id pid row held
      cases held
    · intro id pid row stored held
      cases held
  · intro before pid role world _ kept _ accepted
    refine kept.of_same rfl fun job => ?_
    rw [Pool.start_world, accept_jobs accepted]
  · intro before pid role operation next reply world _ kept _ operated
    exact ⟨kept.held_record operated, kept.distinct_record operated, kept.fresh_record operated,
      kept.versions_record operated⟩
  · intro before change world _ kept changed
    exact kept.of_same rfl (change_slot changed)

theorem held_traced {settings : Settings} {pool : PlatformPool} (reachable : Reachable settings pool)
    {id : Uuid} {owner : Pid} {row : Job} (held : (pool.world.jobs.slot id).holder = some (owner, row)) :
    (traceOf owner pool.log).any writesJob = true := by
  obtain ⟨outside, reached⟩ := reachable
  revert row
  refine reached.invariant (motive := fun pool => ∀ {row},
    (pool.world.jobs.slot id).holder = some (owner, row) → (traceOf owner pool.log).any writesJob = true)
    ?_ ?_ ?_ ?_
  · intro row held
    cases held
  · intro before pid role world _ kept _ accepted row held
    rw [Pool.start_world, accept_jobs accepted] at held
    exact kept held
  · intro before pid role operation next reply world _ kept _ operated row held
    rw [traceOf_record]
    rcases (operate_jobTurn operated id).holder_cases held with ⟨rfl, writes, _⟩ | ⟨earlier, own⟩
    · rw [if_pos rfl]
      cases operation with
      | statement issued => cases issued <;> first | rfl | exact writes.elim
      | _ => exact writes.elim
    · split
      · rename_i same
        obtain ⟨_, uncommitted, unrolled⟩ := own same.symm
        exact any_extend (ends_eq_false uncommitted unrolled) (kept earlier)
      · exact kept earlier
  · intro before change world _ kept changed row held
    rw [change_slot changed] at held
    exact kept held

theorem committed_same {settings : Settings} {before : PlatformPool} {pid : Pid} {operation : Op}
    {reply : Reply operation} {world : World} (reachable : Reachable settings before)
    (operated : World.operate pid operation before.world = some (reply, world)) {id : Uuid} {old : Job}
    (stored : before.world.jobs.committed id = some old) :
    ∃ row, world.jobs.committed id = some row ∧ SameJob old row := by
  obtain ⟨row, committed⟩ := (operate_jobTurn operated id).committed_kept stored
  refine ⟨row, committed, ?_⟩
  rcases committed_source operated committed with same | ⟨_, held⟩
  · rw [stored] at same
    cases same
    exact .refl old
  · exact (insertions_kept reachable).versions id pid row old held stored

theorem stored_same {settings : Settings} {start pool : PlatformPool} (reachable : Reachable settings start)
    (reached : (platform settings).Reaches start pool) {id : Uuid} {old : Job}
    (stored : start.world.jobs.committed id = some old) :
    ∃ row, pool.world.jobs.committed id = some row ∧ SameJob old row := by
  refine reached.invariant (motive := fun pool => ∃ row,
    pool.world.jobs.committed id = some row ∧ SameJob old row) ⟨old, stored, .refl old⟩ ?_ ?_ ?_
  · rintro before pid role world _ ⟨row, stored, same⟩ _ accepted
    exact ⟨row, by rw [Pool.start_world, accept_jobs accepted, stored], same⟩
  · rintro before pid role operation next reply world earlier ⟨row, stored, same⟩ _ operated
    obtain ⟨later, committed, agrees⟩ := committed_same (reachable.trans earlier) operated stored
    exact ⟨later, committed, same.trans agrees⟩
  · rintro before change world _ ⟨row, stored, same⟩ changed
    have slot := congrArg Slot.committed (change_slot changed id)
    exact ⟨row, slot.trans stored, same⟩

/-- `POST /jobs` names no saga: only `create_saga` passes a `saga_id`. -/
def PlainSubmissions (log : List PlatformEntry) : Prop :=
  ∀ entry ∈ log, ∀ request, entry.role = .createJob request → request.sagaId = none

/-- `job` is a compensation minted for `done`. -/
def Compensates (saga : Saga) (user : Uuid) (done job : Job) : Prop :=
  ∃ id now, job = (compensationDraft saga user done).row id now

/-- The transaction is a rollback of `saga`, and `job` its compensation of `done`. -/
structure MintedIn (trace : List Act) (saga : Saga) (user : Uuid) (steps : List Job) (done job : Job) :
    Prop where
  reads : Reads trace saga
  running : saga.status = .running
  moved : (saga.id, .compensating) ∈ moves trace
  asked : (⟨.query (.completedSteps saga.id), steps⟩ : Act) ∈ trace
  among : done ∈ steps
  compensates : Compensates saga user done job

theorem MintedIn.extend {trace later : List Act} {saga : Saga} {user : Uuid} {steps : List Job}
    {done job : Job} (minted : MintedIn trace saga user steps done job) :
    MintedIn (later ++ trace) saga user steps done job where
  reads := by
    obtain ⟨id, member⟩ := minted.reads
    exact ⟨id, List.mem_append_right _ member⟩
  running := minted.running
  moved := by
    rw [moves_append]
    exact List.mem_append_right _ minted.moved
  asked := List.mem_append_right _ minted.asked
  among := minted.among
  compensates := minted.compensates

section Origins

variable {settings : Settings} {pool : PlatformPool} (reachable : Reachable settings pool)

include reachable

theorem insertion_moment {pid : Pid} {job : Job} (member : job ∈ insertions (traceOf pid pool.log)) :
    ∃ before draft next role later, Reachable settings before ∧
      (∃ entry ∈ pool.log, entry.pid = pid ∧ entry.role = role) ∧
      before.process pid = some { role, program := .call (.statement (.insertJob draft)) next } ∧
      job = draft.row before.world.outside.uuid before.world.outside.clock ∧
      traceOf pid pool.log =
        later ++ ⟨.statement (.insertJob draft), some job⟩ :: traceOf pid before.log := by
  obtain ⟨⟨operation, reply⟩, among, inserted⟩ := List.mem_filterMap.mp member
  obtain ⟨draft, rfl, equal⟩ := insertion_cases inserted
  cases equal
  obtain ⟨before, later, earlier, _, split, ⟨entry, logged, next, own, stood⟩, world, operated⟩ :=
    reachable.act_moment among
  obtain ⟨drafted, _, _⟩ := insertJob_slot operated
  exact ⟨before, draft, next, entry.role, later, earlier, ⟨entry, logged, own, rfl⟩, stood, drafted, split⟩

/-- A job that a transaction inserted belongs to no saga, to one that the
transaction opened, as its next step, or is a compensation. -/
theorem insertion_origin (plain : PlainSubmissions pool.log) {pid : Pid} {job : Job}
    (member : job ∈ insertions (traceOf pid pool.log)) :
    job.sagaId = none ∨
    (∃ saga later earlier, Opened (traceOf pid pool.log) saga ∧ job.sagaId = some saga ∧
      insertions (traceOf pid pool.log) = later ++ job :: earlier ∧
      job.sagaStepIndex = some earlier.length) ∨
    ∃ saga user steps done, MintedIn (traceOf pid pool.log) saga user steps done job := by
  obtain ⟨before, draft, next, role, later, earlier, ⟨entry, logged, _, played⟩, stood, rfl, split⟩ :=
    insertion_moment reachable member
  have inserts : role.inserts := next_may earlier stood
  have rule := next_sagaRule earlier stood
  cases role with
  | createJob request => exact .inl (rule.trans (plain entry logged request played))
  | createSaga request =>
      obtain ⟨tenant, name, saga, opened, belongs, index, _⟩ := rule
      refine .inr (.inl ⟨saga.id, insertions later, insertions (traceOf pid before.log),
        ⟨tenant, name, saga, ?_, rfl⟩, belongs, ?_, index⟩)
      · rw [split]
        exact List.mem_append_right _ (List.mem_cons_of_mem _ opened)
      · rw [split, insertions_append]
        rfl
  | coordinateSaga topic id =>
      obtain ⟨saga, user, steps, minted, done, left, minting, order, rfl⟩ := rule
      obtain ⟨moved, _, running, reads, asked⟩ := minting.facts
      have reversed : done ∈ steps.reverse := by
        rw [order]
        simp
      have here : MintedIn (traceOf pid before.log) saga user steps done
          ((compensationDraft saga user done).row before.world.outside.uuid before.world.outside.clock) :=
        ⟨reads, running, by simp [moved], asked, List.mem_reverse.mp reversed, _, _, rfl⟩
      refine .inr (.inr ⟨saga, user, steps, done, ?_⟩)
      rw [split, ← List.singleton_append, ← List.append_assoc]
      exact here.extend
  | _ => cases inserts

theorem step_of_created {pid : Pid} {request : CreateSagaRequest} {program : Prog Unit}
    (found : pool.process pid = some { role := .createSaga request, program }) {job : Job}
    (member : job ∈ insertions (traceOf pid pool.log)) :
    ∃ saga, Opened (traceOf pid pool.log) saga ∧ job.sagaId = some saga := by
  obtain ⟨before, draft, next, role, later, earlier, ⟨entry, logged, own, played⟩, stood, rfl, split⟩ :=
    insertion_moment reachable member
  obtain ⟨process, started, agrees⟩ := logged_started reachable entry logged
  rw [own, found] at started
  cases started
  obtain rfl := agrees.trans played
  obtain ⟨tenant, name, saga, opened, belongs, _⟩ := next_sagaRule earlier stood
  refine ⟨saga.id, ⟨tenant, name, saga, ?_, rfl⟩, belongs⟩
  rw [split]
  exact List.mem_append_right _ (List.mem_cons_of_mem _ opened)

theorem opened_unique {pid : Pid} {first second : Uuid} (opened : Opened (traceOf pid pool.log) first)
    (other : Opened (traceOf pid pool.log) second) : first = second := by
  have oldest : ∀ {saga}, Opened (traceOf pid pool.log) saga → ∃ tenant name row later,
      traceOf pid pool.log = later ++ [⟨.statement (.insertSaga tenant name), row⟩] ∧ row.id = saga := by
    rintro saga ⟨tenant, name, row, member, keyed⟩
    obtain ⟨before, later, earlier, _, split, ⟨entry, _, next, _, stood⟩, _⟩ := reachable.act_moment member
    have opens : entry.role.opensSagas := next_may earlier stood
    have rule := next_sagaRule earlier stood
    cases played : entry.role with
    | createSaga request =>
        rw [played] at rule
        have none : traceOf pid before.log = [] := rule
        exact ⟨tenant, name, row, later, by rw [split, none], keyed⟩
    | _ =>
        rw [played] at opens
        cases opens
  obtain ⟨tenant, name, row, later, split, rfl⟩ := oldest opened
  obtain ⟨_, _, _, _, again, rfl⟩ := oldest other
  rw [split] at again
  cases (List.append_inj' again rfl).2
  rfl

theorem moves_shape (pid : Pid) :
    moves (traceOf pid pool.log) = [] ∨
    (∃ saga status, status ≠ .running ∧ moves (traceOf pid pool.log) = [(saga, status)]) ∨
    ∃ saga status, Moves .compensating status ∧
      moves (traceOf pid pool.log) = [(saga, status), (saga, .compensating)] := by
  have target : ∀ {first second : SagaStatus}, Moves first second → second ≠ .running := by
    rintro first second moves rfl
    cases first <;> cases moves
  obtain ⟨outside, reached⟩ := reachable
  refine reached.invariant (motive := fun pool => moves (traceOf pid pool.log) = [] ∨
    (∃ saga status, status ≠ .running ∧ moves (traceOf pid pool.log) = [(saga, status)]) ∨
    ∃ saga status, Moves .compensating status ∧
      moves (traceOf pid pool.log) = [(saga, status), (saga, .compensating)]) (.inl rfl) ?_ ?_ ?_
  · exact fun before _ role world _ kept _ _ => kept
  · intro before owner role operation next reply world earlier kept found operated
    rw [traceOf_record]
    split
    · rename_i same
      subst same
      cases stays : operation.ends with
      | true =>
          rw [extendTrace, stays]
          exact .inl rfl
      | false =>
          rw [extendTrace_of_open stays]
          cases operation with
          | statement issued =>
              cases issued with
              | updateSaga id status stamp =>
                  obtain ⟨saga, _, _, ⟨unmoved, edge⟩ | ⟨moved, edge⟩⟩ :=
                    updateSaga_rule ⟨outside, earlier⟩ found
                  · exact .inr (.inl ⟨id, status, target edge, congrArg ((id, status) :: ·) unmoved⟩)
                  · exact .inr (.inr ⟨id, status, edge, congrArg ((id, status) :: ·) moved⟩)
              | _ => exact kept
          | _ => exact kept
    · exact kept
  · exact fun before change world _ kept _ => kept

theorem head_of_moved {pid : Pid} {saga : Uuid} {status : SagaStatus}
    (moved : (saga, status) ∈ moves (traceOf pid pool.log)) :
    ∃ last, (moves (traceOf pid pool.log)).head? = some (saga, last) ∧ last ≠ .running := by
  rcases moves_shape reachable pid with none | ⟨other, last, left, one⟩ | ⟨other, last, edge, two⟩
  · rw [none] at moved
    cases moved
  · rw [one] at moved
    obtain ⟨rfl, rfl⟩ := Prod.mk.inj (List.mem_singleton.mp moved)
    exact ⟨status, by rw [one]; rfl, left⟩
  · rw [two] at moved
    have same : saga = other := by
      simp only [List.mem_cons, Prod.mk.injEq, List.not_mem_nil, or_false] at moved
      rcases moved with ⟨same, _⟩ | ⟨same, _⟩ <;> exact same
    refine ⟨last, by rw [two, same]; rfl, ?_⟩
    rintro rfl
    cases edge

theorem coordinator_holds {id : Uuid} {pid : Pid} {row : Job} {process : Process Role Op Reply}
    (held : (pool.world.jobs.slot id).holder = some (pid, row))
    (present : pool.process pid = some process) (coordinates : process.role.coordinates) :
    row.status = .cancelled ∨ row.status = .pending := by
  refine @held_of_writes _ _ _ (fun role => role.coordinates)
    (fun row => row.status = .cancelled ∨ row.status = .pending) reachable ?_ _ _ _ held present coordinates
  intro before pid role operation next reply new earlier found coordinates writes
  have may := next_may earlier found
  have rule := next_sagaRule earlier found
  cases role with
  | coordinateSaga topic target =>
      cases operation with
      | statement issued =>
          cases issued with
          | updateStatus id write guard =>
              obtain ⟨_, _, _, _, _, rfl⟩ := writes
              exact .inl (congrArg StatusWrite.status may.1)
          | claimForRunning id => cases may
          | promoteWaitingToPending id => cases may
          | cancelBlocked ids reason stamp =>
              obtain ⟨_, _, _, _, _, rfl⟩ := writes
              exact .inl rfl
          | stampRequeued id stamp => cases may
          | renewRunningLeases ids oldest stamp => cases may
          | insertJob draft =>
              obtain ⟨_, _, _, rfl⟩ := writes
              obtain ⟨_, _, _, _, _, _, _, _, rfl⟩ := rule
              exact .inr rfl
          | _ => exact writes.elim
      | _ => exact writes.elim
  | _ => cases coordinates

theorem coordinator_sees {id : Uuid} {pid : Pid} {row : Job} {process : Process Role Op Reply}
    (seen : pool.world.jobs.visible pid id = some row) (completed : row.status = .completed)
    (present : pool.process pid = some process) (coordinates : process.role.coordinates) :
    pool.world.jobs.committed id = some row := by
  rw [← Table.slot_visible] at seen
  rcases Slot.visible_cases seen with held | stored
  · rcases coordinator_holds reachable held present coordinates with cancelled | pending
    · rw [completed] at cancelled
      cases cancelled
    · rw [completed] at pending
      cases pending
  · exact stored

omit reachable in
theorem left_kept {before : PlatformPool} (reachable : Reachable settings before) {pid : Pid}
    {operation : Op} {reply : Reply operation} {world : World}
    (operated : World.operate pid operation before.world = some (reply, world)) {saga : Uuid} {old : Saga}
    (stored : before.world.sagas.committed saga = some old) (left : old.status ≠ .running) :
    ∃ row, world.sagas.committed saga = some row ∧ row.status ≠ .running := by
  obtain ⟨row, committed⟩ := ((operate_turns operated).1 saga).committed_kept stored
  refine ⟨row, committed, ?_⟩
  rcases saga_source operated committed with same | ⟨_, held⟩
  · rw [stored] at same
    cases same
    exact left
  · rcases (sagas_kept reachable).held saga pid row held with ⟨_, absent, _⟩ | ⟨last, _⟩
    · rw [Table.slot_committed, stored] at absent
      cases absent
    · obtain ⟨status, head, left⟩ := head_of_moved reachable (List.mem_of_mem_head? last)
      rw [last] at head
      cases head
      exact left

end Origins

theorem handled_of_moved {settings : Settings} {pool : PlatformPool} (reachable : Reachable settings pool)
    {pid : Pid} {role : Role} {next : Reply .commit → Prog Unit}
    (found : pool.process pid = some { role, program := .call .commit next })
    (moved : moves (traceOf pid pool.log) ≠ []) :
    ∃ topic id, role = .coordinateSaga topic id ∧ Handled topic id (traceOf pid pool.log) := by
  have coordinates : role.coordinates := by
    by_contra other
    exact moved (moves_eq_nil (fun act member => traceOf_may reachable found member) other)
  have rule := next_sagaRule reachable found
  cases role with
  | coordinateSaga topic id => exact ⟨topic, id, rfl, rule⟩
  | _ => cases coordinates

theorem compensation_inserted {settings : Settings} {pool : PlatformPool}
    (reachable : Reachable settings pool) {pid : Pid} {saga : Saga} {user : Uuid} {done : Job}
    {inserted : Option Job}
    (member : (⟨.statement (.insertJob (compensationDraft saga user done)), inserted⟩ : Act) ∈
      traceOf pid pool.log) :
    ∃ job, inserted = some job ∧ Compensates saga user done job ∧
      job ∈ insertions (traceOf pid pool.log) := by
  obtain ⟨before, _, _, _, _, _, world, operated⟩ := reachable.act_moment member
  have accepted : inserted = some ((compensationDraft saga user done).row before.world.outside.uuid
      before.world.outside.clock) := insertJob_accepted rfl operated
  refine ⟨_, accepted, ⟨_, _, rfl⟩, List.mem_filterMap.mpr ⟨_, member, accepted⟩⟩

theorem survey_rule {settings : Settings} {pool : PlatformPool} (reachable : Reachable settings pool)
    {pid : Pid} {role : Role} {saga : Uuid} {next : Reply (.query (.sagaJobs saga)) → Prog Unit}
    (found : pool.process pid = some { role, program := .call (.query (.sagaJobs saga)) next }) :
    ∃ held, Opens (traceOf pid pool.log) held ∧
      (isCompensation held = true → (traceOf pid pool.log).any writesJob = false) := by
  have coordinates : role.coordinates := next_may reachable found
  have rule := next_sagaRule reachable found
  cases role with
  | coordinateSaga topic target => exact rule
  | _ => cases coordinates

/-- A coordinator that has read all jobs of its saga writes no job any more, and
neither reads the saga nor takes stock of it again. -/
theorem quiet_after_survey {settings : Settings} {pool : PlatformPool} (reachable : Reachable settings pool)
    {pid : Pid} {role : Role} {operation : Op} {next : Reply operation → Prog Unit}
    (found : pool.process pid = some { role, program := .call operation next }) {saga : Uuid}
    {jobs : List Job} (surveyed : (⟨.query (.sagaJobs saga), jobs⟩ : Act) ∈ traceOf pid pool.log) :
    (∀ id old new reply, ¬ operation.Writes pool.world id old new reply) ∧
      (∀ id, operation ≠ .query (.saga id)) ∧ ∀ id, operation ≠ .query (.completedSteps id) := by
  have coordinates : role.coordinates := traceOf_may reachable found surveyed
  have may := next_may reachable found
  have rule := next_sagaRule reachable found
  have unsurveyed : (traceOf pid pool.log).any surveys ≠ false := by
    rw [List.any_eq_true.mpr ⟨_, surveyed, rfl⟩]
    exact Bool.true_eq_false_eq_False
  cases role with
  | coordinateSaga topic target =>
      cases operation with
      | query query =>
          refine ⟨fun _ _ _ _ => False.elim, ?_, ?_⟩
          · rintro id equal
            cases equal
            obtain ⟨job, alone⟩ := rule
            rw [alone] at surveyed
            simp at surveyed
          · rintro id equal
            cases equal
            obtain ⟨row, _, rolling⟩ := rule
            exact unsurveyed rolling.facts.2.2.2.1
      | statement issued =>
          refine ⟨fun id old new reply writes => ?_, by simp, by simp⟩
          cases issued with
          | updateStatus id write guard =>
              obtain ⟨row, _, rolling, _⟩ := rule
              exact unsurveyed rolling.facts.2.2.2.1
          | cancelBlocked ids reason stamp =>
              obtain ⟨row, rolling⟩ := rule
              exact unsurveyed rolling.facts.2.2.2.1
          | insertJob draft =>
              obtain ⟨_, _, _, _, _, _, minting, _⟩ := rule
              exact unsurveyed minting.facts.2.1
          | claimForRunning id => cases may
          | promoteWaitingToPending id => cases may
          | stampRequeued id stamp => cases may
          | renewRunningLeases ids oldest stamp => cases may
          | _ => exact writes
      | _ => exact ⟨fun _ _ _ _ => False.elim, by simp, by simp⟩
  | _ => cases coordinates

theorem isCompensation_of_compensates {saga : Saga} {user : Uuid} {done job : Job}
    (compensates : Compensates saga user done job) : isCompensation job = true := by
  obtain ⟨id, now, rfl⟩ := compensates
  rw [isCompensation, ← String.endsWith_toSlice, String.Slice.endsWith_string_iff]
  simp [compensationDraft, JobDraft.row]

end IncidentPlatform.Platform

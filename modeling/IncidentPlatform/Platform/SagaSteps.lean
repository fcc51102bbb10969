import IncidentPlatform.Platform.SagaJobs

namespace IncidentPlatform.Platform

open Concurrency Models Services Repositories Storage Workers

/-! # Steps and compensations

The committed jobs of a saga are its steps, no two with one index, and the
compensations minted when it left RUNNING, which have none.
-/

structure StepsKept (pool : PlatformPool) : Prop where
  known : ∀ id job saga, pool.world.jobs.committed id = some job → job.sagaId = some saga →
    ∃ row, pool.world.sagas.committed saga = some row
  distinct : ∀ first second left right saga index, pool.world.jobs.committed first = some left →
    pool.world.jobs.committed second = some right → left.sagaId = some saga →
    right.sagaId = some saga → left.sagaStepIndex = some index → right.sagaStepIndex = some index →
    first = second
  minted : ∀ id job saga, pool.world.jobs.committed id = some job → job.sagaId = some saga →
    job.sagaStepIndex = none → isCompensation job = true ∧
      ∃ row, pool.world.sagas.committed saga = some row ∧ row.status ≠ .running

theorem PlainSubmissions.tail {entry : PlatformEntry} {log : List PlatformEntry}
    (plain : PlainSubmissions (entry :: log)) : PlainSubmissions log :=
  fun other member => plain other (List.mem_cons_of_mem _ member)

theorem uncommitted_of_opened {settings : Settings} {pool : PlatformPool}
    (reachable : Reachable settings pool) {pid : Pid} {saga : Uuid}
    (opened : Opened (traceOf pid pool.log) saga) : pool.world.sagas.committed saga = none := by
  obtain ⟨row, held⟩ := (sagas_kept reachable).opened saga pid opened
  rcases (sagas_kept reachable).held saga pid row held with ⟨_, absent, _⟩ | ⟨moved, _⟩
  · exact absent
  · rw [unmoved_of_opened reachable opened] at moved
    cases moved

section Step

variable {settings : Settings} {before : PlatformPool} {pid : Pid} {operation : Op}
  {reply : Reply operation} {world : World}
  (reachable : Reachable settings before)
  (operated : World.operate pid operation before.world = some (reply, world))

include reachable operated

theorem committed_origin {id : Uuid} {job : Job} (stored : world.jobs.committed id = some job) :
    (∃ old, before.world.jobs.committed id = some old ∧ SameJob old job) ∨
      operation = .commit ∧ ∃ made ∈ insertions (traceOf pid before.log), made.id = id ∧
        SameJob made job := by
  rcases committed_source operated stored with same | ⟨ends, held⟩
  · exact .inl ⟨job, same, .refl job⟩
  · cases present : before.world.jobs.committed id with
    | some old => exact .inl ⟨old, rfl, (insertions_kept reachable).versions id pid job old held present⟩
    | none => exact .inr ⟨ends, (insertions_kept reachable).fresh id pid job held present⟩

variable (plain : PlainSubmissions before.log) (kept : StepsKept before)

include plain kept

theorem StepsKept.known_record {id saga : Uuid} {job : Job} (stored : world.jobs.committed id = some job)
    (member : job.sagaId = some saga) : ∃ row, world.sagas.committed saga = some row := by
  have turn := (operate_turns operated).1 saga
  rcases committed_origin reachable operated stored with ⟨old, there, same⟩ | ⟨ends, made, among, _, same⟩
  · obtain ⟨row, committed⟩ := kept.known id old saga there (same.sagaId.symm.trans member)
    exact turn.committed_kept committed
  · have belongs : made.sagaId = some saga := same.sagaId.symm.trans member
    rcases insertion_origin reachable plain among with none | ⟨_, _, _, opened, owner, _⟩ |
      ⟨read, _, _, _, minted⟩
    · rw [belongs] at none
      cases none
    · rw [belongs] at owner
      cases owner
      obtain ⟨row, held⟩ := (sagas_kept reachable).opened saga pid opened
      exact ⟨row, saga_published_of_held operated ends held⟩
    · obtain ⟨_, _, rfl⟩ := minted.compensates
      cases belongs
      obtain ⟨row, committed⟩ := (sagas_kept reachable).read pid read minted.reads
      exact turn.committed_kept committed

omit operated in
theorem StepsKept.step_inserted {made : Job} {saga : Uuid} {index : Nat}
    (among : made ∈ insertions (traceOf pid before.log)) (belongs : made.sagaId = some saga)
    (step : made.sagaStepIndex = some index) :
    (∀ id old, before.world.jobs.committed id = some old → old.sagaId ≠ some saga) ∧
      ∃ later earlier, insertions (traceOf pid before.log) = later ++ made :: earlier ∧
        earlier.length = index := by
  rcases insertion_origin reachable plain among with none | ⟨_, later, earlier, opened, owner, split, position⟩ |
    ⟨read, _, _, _, minted⟩
  · rw [belongs] at none
    cases none
  · rw [belongs] at owner
    cases owner
    refine ⟨fun id old there member => ?_, later, earlier, split, ?_⟩
    · obtain ⟨row, committed⟩ := kept.known id old saga there member
      rw [uncommitted_of_opened reachable opened] at committed
      cases committed
    · rw [step] at position
      exact (Option.some.inj position).symm
  · obtain ⟨_, _, rfl⟩ := minted.compensates
    cases step

theorem StepsKept.distinct_record {first second saga : Uuid} {left right : Job} {index : Nat}
    (stored : world.jobs.committed first = some left) (present : world.jobs.committed second = some right)
    (member : left.sagaId = some saga) (belongs : right.sagaId = some saga)
    (step : left.sagaStepIndex = some index) (indexed : right.sagaStepIndex = some index) :
    first = second := by
  rcases committed_origin reachable operated stored with ⟨old, there, same⟩ | ⟨_, made, among, rfl, same⟩
  · have older : old.sagaId = some saga := same.sagaId.symm.trans member
    rcases committed_origin reachable operated present with ⟨other, here, agrees⟩ |
      ⟨_, made, among, rfl, agrees⟩
    · exact kept.distinct first second old other saga index there here older
        (agrees.sagaId.symm.trans belongs) (same.sagaStepIndex.symm.trans step)
        (agrees.sagaStepIndex.symm.trans indexed)
    · obtain ⟨fresh, _⟩ := kept.step_inserted reachable plain among
        (agrees.sagaId.symm.trans belongs) (agrees.sagaStepIndex.symm.trans indexed)
      exact absurd older (fresh first old there)
  · obtain ⟨fresh, later, earlier, split, position⟩ := kept.step_inserted reachable plain among
      (same.sagaId.symm.trans member) (same.sagaStepIndex.symm.trans step)
    rcases committed_origin reachable operated present with ⟨other, here, agrees⟩ |
      ⟨_, twin, listed, rfl, agrees⟩
    · exact absurd (agrees.sagaId.symm.trans belongs) (fresh second other here)
    · obtain ⟨_, more, rest, divided, place⟩ := kept.step_inserted reachable plain listed
        (agrees.sagaId.symm.trans belongs) (agrees.sagaStepIndex.symm.trans indexed)
      -- One transaction inserts one job at each index.
      rw [split] at divided
      have same : made :: earlier = twin :: rest :=
        List.append_inj_right' divided (by simp [position, place])
      cases same
      rfl

theorem StepsKept.minted_record {id saga : Uuid} {job : Job} (stored : world.jobs.committed id = some job)
    (member : job.sagaId = some saga) (unindexed : job.sagaStepIndex = none) :
    isCompensation job = true ∧ ∃ row, world.sagas.committed saga = some row ∧ row.status ≠ .running := by
  rcases committed_origin reachable operated stored with ⟨old, there, same⟩ | ⟨ends, made, among, _, same⟩
  · obtain ⟨compensation, row, committed, left⟩ := kept.minted id old saga there
      (same.sagaId.symm.trans member) (same.sagaStepIndex.symm.trans unindexed)
    refine ⟨?_, left_kept reachable operated committed left⟩
    rw [isCompensation, same.type]
    exact compensation
  · rcases insertion_origin reachable plain among with none | ⟨_, _, _, _, _, _, position⟩ |
      ⟨read, _, _, _, minted⟩
    · rw [← same.sagaId, member] at none
      cases none
    · rw [← same.sagaStepIndex, unindexed] at position
      cases position
    · have belongs : made.sagaId = some saga := same.sagaId.symm.trans member
      refine ⟨?_, ?_⟩
      · rw [isCompensation, same.type]
        exact isCompensation_of_compensates minted.compensates
      · obtain ⟨_, _, rfl⟩ := minted.compensates
        cases belongs
        obtain ⟨last, head, left⟩ := head_of_moved reachable minted.moved
        obtain ⟨row, held, status⟩ := (sagas_kept reachable).moved_status reachable head
        exact ⟨row, saga_published_of_held operated ends held, by rw [status]; exact left⟩

end Step

theorem StepsKept.of_same {before after : PlatformPool} (kept : StepsKept before)
    (sameSagas : after.world.sagas = before.world.sagas)
    (sameSlots : ∀ job, after.world.jobs.slot job = before.world.jobs.slot job) : StepsKept after := by
  have sameRows : ∀ id, after.world.jobs.committed id = before.world.jobs.committed id :=
    fun id => congrArg Slot.committed (sameSlots id)
  obtain ⟨known, distinct, minted⟩ := kept
  constructor
  all_goals
    simp only [sameSagas, sameRows]
    assumption

theorem steps_kept {settings : Settings} {pool : PlatformPool} (reachable : Reachable settings pool)
    (plain : PlainSubmissions pool.log) : StepsKept pool := by
  obtain ⟨outside, reached⟩ := reachable
  revert plain
  refine reached.invariant (motive := fun pool => PlainSubmissions pool.log → StepsKept pool) ?_ ?_ ?_ ?_
  · intro _
    constructor
    · intro id job saga stored
      cases stored
    · intro first second left right saga index stored
      cases stored
    · intro id job saga stored
      cases stored
  · intro before pid role world _ kept _ accepted plain
    refine (kept plain).of_same (accept_sagas accepted).1 fun job => ?_
    rw [Pool.start_world, accept_jobs accepted]
  · intro before pid role operation next reply world earlier kept found operated plain
    have reachable : Reachable settings before := ⟨outside, earlier⟩
    have kept := kept plain.tail
    constructor
    · intro id job saga stored member
      exact kept.known_record reachable operated plain.tail stored member
    · intro first second left right saga index stored present member belongs step indexed
      exact kept.distinct_record reachable operated plain.tail stored present member belongs step indexed
    · intro id job saga stored member unindexed
      exact kept.minted_record reachable operated plain.tail stored member unindexed
  · intro before change world _ kept changed plain
    exact (kept plain).of_same (change_sagas changed).1 (change_slot changed)

theorem mem_sagaJobs {world : World} {pid : Pid} {saga : Uuid} {job : Job} :
    job ∈ world.sagaJobs pid saga ↔
      (∃ id, world.jobs.visible pid id = some job) ∧ job.sagaId = some saga := by
  simp only [World.sagaJobs, List.mem_insertionSort, List.mem_filter, Table.mem_rows_iff,
    decide_eq_true_eq]

theorem oldestFirst_total (first second : Job) :
    World.oldestFirst first second ∨ World.oldestFirst second first := by
  rcases Nat.lt_trichotomy first.createdAt second.createdAt with older | same | younger
  · exact .inl (.inl older)
  · rcases Nat.le_total first.id second.id with below | above
    · exact .inl (.inr ⟨same, below⟩)
    · exact .inr (.inr ⟨same.symm, above⟩)
  · exact .inr (.inl younger)

theorem oldestFirst_trans {first second third : Job} (left : World.oldestFirst first second)
    (right : World.oldestFirst second third) : World.oldestFirst first third := by
  rcases left with older | ⟨same, below⟩
  · rcases right with further | ⟨equal, _⟩
    · exact .inl (Nat.lt_trans older further)
    · exact .inl (equal ▸ older)
  · rcases right with further | ⟨equal, lower⟩
    · exact .inl (same ▸ further)
    · exact .inr ⟨same.trans equal, Nat.le_trans below lower⟩

theorem stepOrder_total (first second : Job) :
    World.stepOrder first second ∨ World.stepOrder second first := by
  unfold World.stepOrder
  cases first.sagaStepIndex with
  | none =>
      cases second.sagaStepIndex with
      | none => exact oldestFirst_total first second
      | some right => exact .inr trivial
  | some left =>
      cases second.sagaStepIndex with
      | none => exact .inl trivial
      | some right =>
          have older := oldestFirst_total first second
          rcases Nat.lt_trichotomy left right with less | rfl | more
          · exact .inl (.inl less)
          · exact older.imp (fun older => .inr ⟨rfl, older⟩) (fun older => .inr ⟨rfl, older⟩)
          · exact .inr (.inl more)

theorem stepOrder_trans {first second third : Job} (left : World.stepOrder first second)
    (right : World.stepOrder second third) : World.stepOrder first third := by
  unfold World.stepOrder at left right ⊢
  cases lower : first.sagaStepIndex with
  | none =>
      cases middle : second.sagaStepIndex with
      | none =>
          cases upper : third.sagaStepIndex with
          | none =>
              simp only [lower, middle, upper] at left right
              exact oldestFirst_trans left right
          | some last =>
              simp only [middle, upper] at right
      | some between => simp only [lower, middle] at left
  | some start =>
      cases upper : third.sagaStepIndex with
      | none => exact trivial
      | some last =>
          cases middle : second.sagaStepIndex with
          | none => simp only [middle, upper] at right
          | some between =>
              simp only [lower, middle, upper] at left right
              rcases left with less | ⟨rfl, older⟩
              · rcases right with more | ⟨rfl, _⟩
                · exact .inl (Nat.lt_trans less more)
                · exact .inl less
              · rcases right with more | ⟨rfl, further⟩
                · exact .inl more
                · exact .inr ⟨rfl, oldestFirst_trans older further⟩

theorem sagaJobs_sorted (world : World) (pid : Pid) (saga : Uuid) :
    (world.sagaJobs pid saga).Pairwise World.stepOrder := by
  have total : Std.Total World.stepOrder := ⟨stepOrder_total⟩
  have transitive : IsTrans Job World.stepOrder := ⟨fun _ _ _ => stepOrder_trans⟩
  exact List.pairwise_insertionSort World.stepOrder _

theorem sagaJobs_distinct {settings : Settings} {pool : PlatformPool} (reachable : Reachable settings pool)
    (pid : Pid) (saga : Uuid) : ((pool.world.sagaJobs pid saga).map Job.id).Nodup := by
  have rows : ((pool.world.jobs.rows pid).map Job.id).Nodup := by
    apply Table.rows_nodup
    intro id row seen
    rw [← Table.slot_visible] at seen
    exact (rows_keyed reachable id).visible seen
  refine ((List.perm_insertionSort _ _).map Job.id).nodup_iff.mpr ?_
  exact rows.sublist (List.filter_sublist.map Job.id)

section Stock

variable {settings : Settings} {pool : PlatformPool} (reachable : Reachable settings pool)

include reachable

theorem completed_step (plain : PlainSubmissions pool.log) {pid : Pid} {process : Process Role Op Reply}
    (present : pool.process pid = some process) (coordinates : process.role.coordinates) {saga : Uuid}
    {row : Saga} (stored : pool.world.sagas.committed saga = some row) (running : row.status = .running)
    {job : Job} (among : job ∈ pool.world.sagaJobs pid saga) (completed : job.status = .completed) :
    pool.world.jobs.committed job.id = some job ∧ job.sagaId = some saga ∧
      ∃ index, job.sagaStepIndex = some index := by
  obtain ⟨⟨id, seen⟩, belongs⟩ := mem_sagaJobs.mp among
  have there := coordinator_sees reachable seen completed present coordinates
  have keyed : job.id = id := (rows_keyed reachable id).committed job there
  subst keyed
  refine ⟨there, belongs, Option.isSome_iff_exists.mp ?_⟩
  rw [Option.isSome_iff_ne_none]
  intro unindexed
  obtain ⟨_, other, settled, left⟩ :=
    (steps_kept reachable plain).minted job.id job saga there belongs unindexed
  rw [stored] at settled
  cases settled
  exact left running

theorem completed_ascending (plain : PlainSubmissions pool.log) {pid : Pid}
    {process : Process Role Op Reply} (present : pool.process pid = some process)
    (coordinates : process.role.coordinates) {saga : Uuid} {row : Saga}
    (stored : pool.world.sagas.committed saga = some row) (running : row.status = .running) :
    ((pool.world.sagaJobs pid saga).filter fun job => job.status = .completed).Pairwise
      fun first second => ∃ left right, first.sagaStepIndex = some left ∧
        second.sagaStepIndex = some right ∧ left < right := by
  have found : ∀ job ∈ (pool.world.sagaJobs pid saga).filter fun job => job.status = .completed,
      pool.world.jobs.committed job.id = some job ∧ job.sagaId = some saga ∧
        ∃ index, job.sagaStepIndex = some index := by
    intro job member
    obtain ⟨among, completed⟩ := List.mem_filter.mp member
    exact completed_step reachable plain present coordinates stored running among
      (of_decide_eq_true completed)
  have distinct : (pool.world.sagaJobs pid saga).Pairwise fun first second => first.id ≠ second.id :=
    List.pairwise_map.mp (sagaJobs_distinct reachable pid saga)
  have both := ((sagaJobs_sorted pool.world pid saga).and distinct).filter fun job => job.status = .completed
  refine both.imp_of_mem ?_
  rintro first second member among ⟨ordered, different⟩
  obtain ⟨here, belongs, left, first_index⟩ := found first member
  obtain ⟨there, owner, right, second_index⟩ := found second among
  refine ⟨left, right, first_index, second_index, ?_⟩
  simp only [World.stepOrder, first_index, second_index] at ordered
  rcases ordered with less | ⟨rfl, _⟩
  · exact less
  · exact absurd ((steps_kept reachable plain).distinct first.id second.id first second saga left here
      there belongs owner first_index second_index) different

theorem asked_stored {pid : Pid} {saga : Uuid} {steps : List Job}
    (asked : (⟨.query (.completedSteps saga), steps⟩ : Act) ∈ traceOf pid pool.log) {done : Job}
    (among : done ∈ steps) :
    ∃ row, pool.world.jobs.committed done.id = some row ∧ row.sagaId = some saga := by
  obtain ⟨before, _, earlier, onward, _, ⟨entry, _, next, _, stood⟩, world, operated⟩ :=
    reachable.act_moment asked
  have coordinates : entry.role.coordinates := next_may earlier stood
  have answered : steps = (before.world.sagaJobs pid saga).filter fun job => job.status = .completed :=
    (congrArg Prod.fst (Option.some.inj operated)).symm
  rw [answered] at among
  obtain ⟨listed, completed⟩ := List.mem_filter.mp among
  obtain ⟨⟨id, seen⟩, belongs⟩ := mem_sagaJobs.mp listed
  have there := coordinator_sees earlier seen (of_decide_eq_true completed) stood coordinates
  have keyed : done.id = id := (rows_keyed earlier id).committed done there
  subst keyed
  obtain ⟨row, stored, same⟩ := stored_same earlier onward there
  exact ⟨row, stored, same.sagaId.trans belongs⟩

theorem asked_distinct {pid : Pid} {saga : Uuid} {steps : List Job}
    (asked : (⟨.query (.completedSteps saga), steps⟩ : Act) ∈ traceOf pid pool.log) :
    (steps.map Job.id).Nodup := by
  obtain ⟨before, _, earlier, _, _, _, world, operated⟩ := reachable.act_moment asked
  have answered : steps = (before.world.sagaJobs pid saga).filter fun job => job.status = .completed :=
    (congrArg Prod.fst (Option.some.inj operated)).symm
  rw [answered]
  exact (sagaJobs_distinct earlier pid saga).sublist (List.filter_sublist.map Job.id)

end Stock

end IncidentPlatform.Platform

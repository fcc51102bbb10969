import IncidentPlatform.Platform.Calls

namespace IncidentPlatform.Properties

open Concurrency Models Platform Repositories Services Storage Utils

/-! # Dependency lists, one call after the other

What `create_job` and `create_saga` make of the ids their callers list, when
the calls follow one another.
-/

/-- Nothing is written: the environment may move its readings, the pause flags
and the order of a scan. -/
structure Unmoved (world after : World) : Prop where
  slots : ∀ job, after.jobs.slot job = world.jobs.slot job
  sagas : after.sagas = world.sagas
  outbox : after.outbox = world.outbox
  dependencies : after.dependencies = world.dependencies
  audit : after.audit = world.audit
  delayed : after.delayed = world.delayed
  replayScheduled : after.replayScheduled = world.replayScheduled
  replayInflight : after.replayInflight = world.replayInflight
  broker : after.broker = world.broker

theorem Unmoved.refl (world : World) : Unmoved world world :=
  ⟨fun _ => rfl, rfl, rfl, rfl, rfl, rfl, rfl, rfl, rfl⟩

theorem Unmoved.trans {world middle after : World} (first : Unmoved world middle)
    (second : Unmoved middle after) : Unmoved world after where
  slots := fun job => (second.slots job).trans (first.slots job)
  sagas := second.sagas.trans first.sagas
  outbox := second.outbox.trans first.outbox
  dependencies := second.dependencies.trans first.dependencies
  audit := second.audit.trans first.audit
  delayed := second.delayed.trans first.delayed
  replayScheduled := second.replayScheduled.trans first.replayScheduled
  replayInflight := second.replayInflight.trans first.replayInflight
  broker := second.broker.trans first.broker

theorem Unmoved.visible {world after : World} (unmoved : Unmoved world after) (pid : Pid) (job : Uuid) :
    after.jobs.visible pid job = world.jobs.visible pid job := by
  rw [← Table.slot_visible, unmoved.slots, Table.slot_visible]

theorem Unmoved.rows_perm {world after : World} {pid : Pid} (unmoved : Unmoved world after)
    (settled : world.Settled) : (after.jobs.rows pid).Perm (world.jobs.rows pid) := by
  have keyed : ∀ id row, after.jobs.visible pid id = some row → row.id = id := by
    intro id row seen
    rw [unmoved.visible] at seen
    exact settled.visible seen
  refine (List.perm_ext_iff_of_nodup (Table.rows_nodup keyed).of_map
    (Table.rows_nodup fun _ _ seen => settled.visible seen).of_map).mpr fun row => ?_
  simp only [Table.mem_rows_iff, unmoved.visible]

theorem unmoved_of_change {world after : World} {change : Change}
    (changed : world.change change = some after) : Unmoved world after := by
  obtain ⟨_, _, _, _, _, rfl⟩ := change_cases changed
  exact ⟨fun _ => rfl, rfl, rfl, rfl, rfl, rfl, rfl, rfl, rfl⟩

theorem unmoved_of_drifts {settings : Settings} {world after : World}
    (drifts : Drifts (platform settings) world after) : Unmoved world after := by
  induction drifts with
  | refl world => exact .refl world
  | step changed _ ih => exact (unmoved_of_change changed).trans ih

section Alone

variable {settings : Settings} {pid : Pid} {world after : World}

theorem alone_ask {α : Type} {query : Query} {rest : query.Reply → Prog α} {value : α}
    (ran : Alone (platform settings) pid ((ask query).bind rest) world value after) :
    ∃ middle, Unmoved world middle ∧
      Alone (platform settings) pid (rest (middle.answer pid query)) middle value after := by
  obtain ⟨reply, drifted, middle, drifts, executed, ran⟩ := Alone.of_call ran
  cases executed
  exact ⟨drifted, unmoved_of_drifts drifts, ran⟩

theorem alone_done {α : Type} {value result : α}
    (ran : Alone (platform settings) pid (.done value : Prog α) world result after) :
    result = value ∧ Unmoved world after := by
  obtain ⟨same, drifts⟩ := Alone.of_done ran
  exact ⟨same, unmoved_of_drifts drifts⟩

theorem alone_probe {id : Uuid} {paused : Option Uuid}
    (ran : Alone (platform settings) pid (findBlockingPause id) world paused after) :
    Unmoved world after := by
  refine ran.keeps (motive := Unmoved world) (findBlockingPause_uses id) ?_ ?_ (.refl world)
  · exact fun _ _ drifts unmoved => unmoved.trans (unmoved_of_drifts drifts)
  · intro operation reply before next probes executed unmoved
    cases operation with
    | query query =>
        cases executed
        exact unmoved
    | command command =>
        cases command with
        | pausedFlags ids =>
            cases executed
            exact unmoved
        | _ => exact probes.elim
    | _ => exact probes.elim

theorem alone_loadParents {ids : List Uuid} {loaded : Except ServiceError (List Job)}
    (ran : Alone (platform settings) pid (loadParents ids) world loaded after) :
    Unmoved world after ∧
      ((∃ parents, loaded = .ok parents ∧ ∀ id ∈ ids, (world.jobs.visible pid id).isSome) ∨
        ∃ id ∈ ids, world.jobs.visible pid id = none ∧
          loaded = .error (.notFound s!"Dependency job {id} not found")) := by
  induction ids generalizing world loaded after with
  | nil =>
      obtain ⟨rfl, unmoved⟩ := alone_done ran
      exact ⟨unmoved, .inl ⟨[], rfl, fun id member => (by cases member)⟩⟩
  | cons id rest ih =>
      obtain ⟨middle, quiet, ran⟩ := alone_ask ran
      have read : middle.answer pid (.job id) = world.jobs.visible pid id := quiet.visible pid id
      rw [read] at ran
      cases seen : world.jobs.visible pid id with
      | none =>
          rw [seen] at ran
          obtain ⟨rfl, unmoved⟩ := alone_done ran
          exact ⟨quiet.trans unmoved, .inr ⟨id, List.mem_cons_self, seen, rfl⟩⟩
      | some parent =>
          rw [seen] at ran
          obtain ⟨loadedRest, last, first, second⟩ := Alone.of_bind ran
          obtain ⟨unmoved, outcome⟩ := ih first
          rcases outcome with ⟨parents, rfl, all⟩ | ⟨missing, among, absent, rfl⟩
          · obtain ⟨rfl, quietly⟩ := alone_done second
            refine ⟨(quiet.trans unmoved).trans quietly, .inl ⟨parent :: parents, rfl, ?_⟩⟩
            intro other member
            rcases List.mem_cons.mp member with same | later
            · rw [same, seen]
              rfl
            · rw [← quiet.visible]
              exact all other later
          · obtain ⟨rfl, quietly⟩ := alone_done second
            refine ⟨(quiet.trans unmoved).trans quietly, .inr ⟨missing, List.mem_cons_of_mem _ among, ?_⟩⟩
            rw [← quiet.visible]
            exact ⟨absent, rfl⟩

theorem alone_initialStatus {parents : List Job} {status : JobStatus}
    (ran : Alone (platform settings) pid (initialStatus parents) world status after) :
    Unmoved world after := by
  have probed : ∀ {parents : List Job} {world after : World} {held : Option Uuid},
      Alone (platform settings) pid (probeParents parents) world held after → Unmoved world after := by
    intro parents
    induction parents with
    | nil => exact fun ran => (alone_done ran).2
    | cons parent rest ih =>
        intro world after held ran
        obtain ⟨paused, middle, first, second⟩ := Alone.of_bind ran
        cases paused with
        | none => exact (alone_probe first).trans (ih second)
        | some pausedBy => exact (alone_probe first).trans (alone_done second).2
  unfold initialStatus at ran
  split at ran
  · exact (alone_done ran).2
  · obtain ⟨held, middle, first, second⟩ := Alone.of_bind ran
    cases held <;> exact (probed first).trans (alone_done second).2

/-- A job with the idempotency key of the request is there for the same tenant. -/
def KeySeen (pid : Pid) (request : CreateJobRequest) (world : World) : Prop :=
  ∃ key id row, request.idempotencyKey = some key ∧ world.jobs.visible pid id = some row ∧
    row.idempotencyKey = some key ∧ row.tenantId = request.tenantId

theorem KeySeen.unmoved {request : CreateJobRequest} (unmoved : Unmoved world after) :
    KeySeen pid request after ↔ KeySeen pid request world := by
  simp only [KeySeen, unmoved.visible]

theorem lookup_isSome_iff {key : String} {tenant : Uuid} :
    (world.answer pid (.jobByIdempotencyKey key tenant)).isSome ↔ ∃ id row,
      world.jobs.visible pid id = some row ∧ row.idempotencyKey = some key ∧
      row.tenantId = tenant := by
  rw [World.answer, List.find?_isSome]
  constructor
  · rintro ⟨row, member, carries⟩
    obtain ⟨id, seen⟩ := Table.mem_rows_iff.mp member
    simp only [Bool.and_eq_true, decide_eq_true_eq] at carries
    exact ⟨id, row, seen, carries.1, carries.2⟩
  · rintro ⟨id, row, seen, carries, same⟩
    exact ⟨row, Table.mem_rows_iff.mpr ⟨id, seen⟩, by simp [carries, same]⟩

theorem alone_findIdempotent {request : CreateJobRequest} {found : Option Job}
    (ran : Alone (platform settings) pid (findIdempotent request) world found after) :
    Unmoved world after ∧
      (found.isSome ↔ request.idempotencyKey ≠ some "" ∧ KeySeen pid request world) := by
  unfold findIdempotent at ran
  split at ran
  · rename_i unkeyed
    obtain ⟨rfl, unmoved⟩ := alone_done ran
    refine ⟨unmoved, by simp [KeySeen, unkeyed]⟩
  · rename_i key keyed
    split at ran
    · rename_i empty
      obtain ⟨rfl, unmoved⟩ := alone_done ran
      exact ⟨unmoved, by simp [keyed, empty]⟩
    · rename_i nonempty
      have ran : Alone (platform settings) pid
          ((ask (.jobByIdempotencyKey key request.tenantId)).bind .done) world found after := ran
      obtain ⟨middle, quiet, ran⟩ := alone_ask ran
      obtain ⟨rfl, unmoved⟩ := alone_done ran
      refine ⟨quiet.trans unmoved, ?_⟩
      rw [lookup_isSome_iff, ← KeySeen.unmoved quiet]
      simp [KeySeen, keyed, nonempty]

/-- What `create_job` leaves when it creates its job. -/
structure Created (pid : Pid) (request : CreateJobRequest) (world : World) (job : Job)
    (after : World) : Prop where
  fresh : world.jobs.slot job.id = { committed := none, holder := none }
  slot : after.jobs.slot job.id = { committed := none, holder := some (pid, job) }
  others : ∀ id, id ≠ job.id → after.jobs.slot id = world.jobs.slot id
  committedEdges : after.dependencies.committed = world.dependencies.committed
  ownEdges : after.dependencies.pending pid = world.dependencies.pending pid ++
    request.dependencies.map fun parent => ⟨job.id, parent⟩
  tenant : job.tenantId = request.tenantId

/-- The ways a `create_job` call can end. -/
inductive CreateOutcome (pid : Pid) (request : CreateJobRequest) (world : World) :
    Except ServiceError Job → World → Prop where
  | answered {row : Job} {after : World} :
      KeySeen pid request world →
      (request.idempotencyKey ≠ some "" ∨
        ∀ id ∈ request.dependencies, (world.jobs.visible pid id).isSome) →
      Unmoved world after → CreateOutcome pid request world (.ok row) after
  | missing {id : Uuid} {after : World} :
      ¬ (request.idempotencyKey ≠ some "" ∧ KeySeen pid request world) →
      id ∈ request.dependencies → world.jobs.visible pid id = none → Unmoved world after →
      CreateOutcome pid request world (.error (.notFound s!"Dependency job {id} not found")) after
  | created {job : Job} {after : World} :
      ¬ KeySeen pid request world →
      (∀ id ∈ request.dependencies, (world.jobs.visible pid id).isSome) →
      request.dependencies.Nodup → Created pid request world job after →
      CreateOutcome pid request world (.ok job) after
  | refused {after : World} :
      ¬ KeySeen pid request world →
      (∀ id ∈ request.dependencies, (world.jobs.visible pid id).isSome) →
      ¬ request.dependencies.Nodup →
      CreateOutcome pid request world (.error .integrity) after

/-- The state a call starts from: nobody else has a job open, and every edge the
caller sees belongs to a job it sees. -/
structure Ready (pid : Pid) (world : World) : Prop where
  free : ∀ id, (world.jobs.slot id).Free pid
  edges : ∀ edge ∈ world.dependencies.visible pid, (world.jobs.visible pid edge.job).isSome

theorem Ready.unmoved (ready : Ready pid world) (unmoved : Unmoved world after) : Ready pid after := by
  refine ⟨fun id => by rw [unmoved.slots]; exact ready.free id, ?_⟩
  intro edge member
  rw [unmoved.dependencies] at member
  rw [unmoved.visible]
  exact ready.edges edge member

theorem conflicts_isEmpty_iff {draft : JobDraft} (ready : Ready pid world) :
    (world.idempotencyConflicts draft).isEmpty ↔ ¬ ∃ key id row, draft.idempotencyKey = some key ∧
      world.jobs.visible pid id = some row ∧ row.idempotencyKey = some key ∧
      row.tenantId = draft.tenantId := by
  unfold World.idempotencyConflicts
  split
  · rename_i unkeyed
    simp [unkeyed]
  · rename_i key keyed
    rw [List.isEmpty_iff, List.filter_eq_nil_iff]
    constructor
    · rintro none ⟨same, id, row, equal, seen, carries, tenant⟩
      rw [keyed] at equal
      cases equal
      have listed : id ∈ world.jobs.keys := by
        by_contra absent
        obtain ⟨missing, unlocked⟩ := world.jobs.listed id absent
        rw [Table.visible_of_unlocked (by rw [unlocked]; simp), missing] at seen
        cases seen
      apply none id listed
      rw [Table.newest_eq_visible (ready.free id), seen]
      simp [carries, tenant]
    · intro none id _ conflicts
      rw [Table.newest_eq_visible (ready.free id)] at conflicts
      obtain ⟨row, seen, carries⟩ := (Option.any_eq_true _ _).mp conflicts
      simp only [Bool.and_eq_true, decide_eq_true_eq] at carries
      exact none ⟨key, id, row, keyed, seen, carries.1, carries.2⟩

/-- The rows of the jobs and the edges are as before. -/
structure SameGraph (world after : World) : Prop where
  slots : ∀ job, after.jobs.slot job = world.jobs.slot job
  dependencies : after.dependencies = world.dependencies

theorem Unmoved.sameGraph (unmoved : Unmoved world after) : SameGraph world after :=
  ⟨unmoved.slots, unmoved.dependencies⟩

theorem SameGraph.trans {middle : World} (first : SameGraph world middle)
    (second : SameGraph middle after) : SameGraph world after :=
  ⟨fun job => (second.slots job).trans (first.slots job),
    second.dependencies.trans first.dependencies⟩

theorem alone_exec {α : Type} {statement : Statement} {rest : statement.Reply → Prog α} {value : α}
    (ran : Alone (platform settings) pid ((exec statement).bind rest) world value after) :
    ∃ drifted reply middle, Unmoved world drifted ∧
      drifted.execute pid statement = some (reply, middle) ∧
      Alone (platform settings) pid (rest reply) middle value after := by
  obtain ⟨reply, drifted, middle, drifts, executed, ran⟩ := Alone.of_call ran
  exact ⟨drifted, reply, middle, unmoved_of_drifts drifts, executed, ran⟩

theorem insertJob_cases {draft : JobDraft} {inserted : Option Job}
    (executed : world.execute pid (.insertJob draft) = some (inserted, after)) :
    (∃ job, inserted = some job ∧ (world.idempotencyConflicts draft).isEmpty ∧
      job.tenantId = draft.tenantId ∧
      world.jobs.slot job.id = { committed := none, holder := none } ∧
      after.jobs.slot job.id = { committed := none, holder := some (pid, job) } ∧
      (∀ id, id ≠ job.id → after.jobs.slot id = world.jobs.slot id) ∧
      after.dependencies = world.dependencies) ∨
    (inserted = none ∧ ¬ (world.idempotencyConflicts draft).isEmpty ∧ after = world) := by
  simp only [World.execute] at executed
  split at executed
  · rename_i free
    obtain ⟨jobs, fresh, equal⟩ := Option.map_eq_some_iff.mp executed
    cases equal
    refine .inl ⟨_, rfl, free, rfl, ?_⟩
    rcases Table.insert_slot fresh (draft.row world.outside.uuid world.outside.clock).id with
      ⟨different, _⟩ | ⟨_, empty, slot⟩
    · exact absurd rfl different
    · refine ⟨empty, ?_, ?_, rfl⟩
      · rw [slot, empty]
        rfl
      · intro id different
        rcases Table.insert_slot fresh id with ⟨_, kept⟩ | ⟨same, _⟩
        · exact kept
        · exact absurd same different
  · rename_i taken
    split at executed
    · cases executed
      exact .inr ⟨rfl, taken, rfl⟩
    · contradiction

theorem alone_idempotencyWinner {request : CreateJobRequest} {result : Except ServiceError Job}
    (ran : Alone (platform settings) pid (idempotencyWinner request) world result after)
    (used : KeySeen pid request world) : Unmoved world after ∧ ∃ row, result = .ok row := by
  obtain ⟨key, id, row, keyed, seen, carries, tenant⟩ := used
  unfold idempotencyWinner at ran
  rw [keyed] at ran
  obtain ⟨middle, quiet, ran⟩ := alone_ask ran
  have present : (middle.answer pid (.jobByIdempotencyKey key request.tenantId)).isSome := by
    rw [lookup_isSome_iff]
    exact ⟨id, row, by rw [quiet.visible, seen], carries, tenant⟩
  obtain ⟨winner, found⟩ := Option.isSome_iff_exists.mp present
  rw [found] at ran
  obtain ⟨rfl, unmoved⟩ := alone_done ran
  exact ⟨quiet.trans unmoved, winner, rfl⟩

theorem alone_announce {request : CreateJobRequest} {status : JobStatus} {job : Job}
    {result : Except ServiceError Job}
    (ran : Alone (platform settings) pid (do
        auditCreated request job status
        if status = .pending then
          outboxAdd request.tenantId request.userId .submitted
            (.submitted request.tenantId job.id request.userId request.jobType
              request.enrichedPayload request.priority job.traceId)
        pure (.ok job) : Prog (Except ServiceError Job)) world result after) :
    SameGraph world after ∧ result = .ok job := by
  obtain ⟨drifted, _, middle, quiet, executed, ran⟩ := alone_exec ran
  cases executed
  dsimp only at ran
  split at ran
  · obtain ⟨later, _, last, quietly, executed, ran⟩ := alone_exec ran
    obtain ⟨outbox, _, equal⟩ := Option.map_eq_some_iff.mp executed
    cases equal
    obtain ⟨rfl, unmoved⟩ := alone_done ran
    refine ⟨⟨fun id => ?_, ?_⟩, rfl⟩
    · exact (unmoved.slots id).trans ((quietly.slots id).trans (quiet.slots id))
    · exact unmoved.dependencies.trans (quietly.dependencies.trans quiet.dependencies)
  · obtain ⟨rfl, unmoved⟩ := alone_done ran
    refine ⟨⟨fun id => ?_, ?_⟩, rfl⟩
    · exact (unmoved.slots id).trans (quiet.slots id)
    · exact unmoved.dependencies.trans quiet.dependencies

theorem alone_finishCreate {request : CreateJobRequest} {status : JobStatus} {job : Job}
    {result : Except ServiceError Job}
    (ran : Alone (platform settings) pid (finishCreate request status job) world result after)
    (present : ∀ id ∈ request.dependencies, (world.jobs.visible pid id).isSome)
    (edgeless : ∀ edge ∈ world.dependencies.visible pid, edge.job ≠ job.id) :
    (request.dependencies.Nodup ∧ result = .ok job ∧
      (∀ id, after.jobs.slot id = world.jobs.slot id) ∧
      after.dependencies.committed = world.dependencies.committed ∧
      after.dependencies.pending pid = world.dependencies.pending pid ++
        request.dependencies.map fun parent => ⟨job.id, parent⟩) ∨
    (¬ request.dependencies.Nodup ∧ result = .error .integrity) := by
  unfold finishCreate addDependencies at ran
  split at ran
  · rename_i empty
    have none : request.dependencies = [] := List.isEmpty_iff.mp empty
    obtain ⟨same, rfl⟩ := alone_announce ran
    refine .inl ⟨by simp [none], rfl, same.slots, ?_, ?_⟩
    · rw [same.dependencies]
    · rw [same.dependencies, none, List.map_nil, List.append_nil]
  · obtain ⟨drifted, added, middle, quiet, executed, ran⟩ := alone_exec ran
    simp only [World.execute] at executed
    split at executed
    · rename_i accepted
      cases executed
      obtain ⟨same, rfl⟩ := alone_announce ran
      refine .inl ⟨accepted.1, rfl, ?_, ?_, ?_⟩
      · exact fun id => (same.slots id).trans (quiet.slots id)
      · rw [same.dependencies, ← quiet.dependencies]
        rfl
      · rw [same.dependencies, ← quiet.dependencies]
        simp [Journal.append]
    · rename_i rejected
      cases executed
      obtain ⟨rfl, _⟩ := alone_done ran
      refine .inr ⟨fun distinct => rejected ⟨distinct, ?_, ?_⟩, rfl⟩
      · intro parent member
        rw [quiet.visible]
        exact present parent member
      · intro parent _ declared
        obtain ⟨edge, member, _⟩ := List.mem_map.mp declared
        obtain ⟨among, same⟩ := List.mem_filter.mp member
        rw [quiet.dependencies] at among
        exact edgeless edge among (of_decide_eq_true same)

theorem alone_createJob {request : CreateJobRequest} {result : Except ServiceError Job}
    (ran : Alone (platform settings) pid (createJob settings request) world result after)
    (ready : Ready pid world) : CreateOutcome pid request world result after := by
  obtain ⟨existing, looked, first, ran⟩ := Alone.of_bind ran
  obtain ⟨lookup, hit⟩ := alone_findIdempotent first
  cases existing with
  | some row =>
      obtain ⟨rfl, unmoved⟩ := alone_done ran
      obtain ⟨nonempty, used⟩ := hit.mp rfl
      exact .answered used (.inl nonempty) (lookup.trans unmoved)
  | none =>
      have unanswered : ¬ (request.idempotencyKey ≠ some "" ∧ KeySeen pid request world) := by
        intro answered
        cases hit.mpr answered
      obtain ⟨loaded, read, second, ran⟩ := Alone.of_bind ran
      obtain ⟨loading, outcome⟩ := alone_loadParents second
      simp only [lookup.visible] at outcome
      rcases outcome with ⟨parents, rfl, present⟩ | ⟨id, member, absent, rfl⟩
      · obtain ⟨status, probed, third, ran⟩ := Alone.of_bind ran
        obtain ⟨drifted, inserted, middle, quiet, executed, ran⟩ := alone_exec ran
        have still : Unmoved world drifted :=
          ((lookup.trans loading).trans (alone_initialStatus third)).trans quiet
        have waiting := ready.unmoved still
        have conflicts : (drifted.idempotencyConflicts (request.draft settings status)).isEmpty ↔
            ¬ KeySeen pid request world := by
          rw [conflicts_isEmpty_iff waiting, ← KeySeen.unmoved still]
          rfl
        rcases insertJob_cases executed with
          ⟨job, rfl, unused, tenant, fresh, slot, others, edges⟩ | ⟨rfl, taken, rfl⟩
        · have unseen : drifted.jobs.visible pid job.id = none := by
            rw [← Table.slot_visible, fresh]
            rfl
          have different : ∀ id, (world.jobs.visible pid id).isSome → id ≠ job.id := by
            intro id seen same
            rw [same, ← still.visible, unseen] at seen
            cases seen
          have finished := alone_finishCreate ran ?_ ?_
          · rcases finished with ⟨distinct, rfl, slots, stored, own⟩ | ⟨repeated, rfl⟩
            · refine .created (conflicts.mp unused) present distinct ⟨?_, ?_, ?_, ?_, ?_, tenant⟩
              · rw [← still.slots, fresh]
              · rw [slots, slot]
              · intro id other
                rw [slots, others id other, still.slots]
              · rw [stored, edges, still.dependencies]
              · rw [own, edges, still.dependencies]
            · exact .refused (conflicts.mp unused) present repeated
          · intro id member
            rw [← Table.slot_visible, others id (different id (present id member)), still.slots,
              Table.slot_visible]
            exact present id member
          · intro edge member same
            rw [edges] at member
            have seen := waiting.edges edge member
            rw [same, unseen] at seen
            cases seen
        · have used : KeySeen pid request world := by
            by_contra unused
            exact taken (conflicts.mpr unused)
          obtain ⟨unmoved, row, rfl⟩ :=
            alone_idempotencyWinner ran ((KeySeen.unmoved still).mpr used)
          exact .answered used (.inr present) (still.trans unmoved)
      · obtain ⟨rfl, unmoved⟩ := alone_done ran
        exact .missing unanswered member absent ((lookup.trans loading).trans unmoved)

def chain : Option Uuid → List Uuid → List JobDependency
  | _, [] => []
  | previous, id :: rest => (previous.toList.map fun parent => ⟨id, parent⟩) ++ chain (some id) rest

/-- What the steps of a saga leave: new jobs of one tenant, in a chain. -/
structure Chained (pid : Pid) (tenant : Uuid) (previous : Option Uuid) (world : World)
    (ids : List Uuid) (after : World) : Prop where
  ready : Ready pid after
  distinct : ids.Nodup
  fresh : ∀ id ∈ ids, world.jobs.slot id = { committed := none, holder := none }
  jobs : ∀ id ∈ ids, ∃ row, (after.jobs.slot id).holder = some (pid, row) ∧ row.tenantId = tenant
  others : ∀ id, id ∉ ids → after.jobs.slot id = world.jobs.slot id
  committedEdges : after.dependencies.committed = world.dependencies.committed
  ownEdges : after.dependencies.pending pid = world.dependencies.pending pid ++ chain previous ids

theorem Created.ready {request : CreateJobRequest} {job : Job} (ready : Ready pid world)
    (created : Created pid request world job after) : Ready pid after := by
  have own : after.jobs.visible pid job.id = some job := by
    rw [← Table.slot_visible, created.slot]
    exact Slot.visible_of_held rfl
  refine ⟨fun id => ?_, fun edge member => ?_⟩
  · by_cases same : id = job.id
    · rw [same, created.slot]
      intro owner row held
      cases held
      rfl
    · rw [created.others id same]
      exact ready.free id
  · by_cases same : edge.job = job.id
    · rw [same, own]
      rfl
    · rw [← Table.slot_visible, created.others edge.job same, Table.slot_visible]
      apply ready.edges
      rw [Journal.visible, created.committedEdges, created.ownEdges, List.mem_append,
        List.mem_append] at member
      rw [Journal.visible, List.mem_append]
      rcases member with stored | old | new
      · exact .inl stored
      · exact .inr old
      · obtain ⟨parent, _, rfl⟩ := List.mem_map.mp new
        exact absurd rfl same

theorem alone_createSteps {request : CreateSagaRequest} {saga : Saga} {steps : List SagaStep}
    {index : Nat} {previous : Option Uuid} {result : Except ServiceError Unit}
    (ran : Alone (platform settings) pid (createSteps settings request saga index previous steps)
      world result after)
    (ready : Ready pid world) (seen : ∀ id ∈ previous, (world.jobs.visible pid id).isSome) :
    result = .ok () ∧ ∃ ids, ids.length = steps.length ∧
      Chained pid request.tenantId previous world ids after := by
  induction steps generalizing index previous world with
  | nil =>
      obtain ⟨rfl, unmoved⟩ := alone_done ran
      refine ⟨rfl, [], rfl, ready.unmoved unmoved, .nil, ?_, ?_, fun id _ => unmoved.slots id, ?_, ?_⟩
      · exact fun id member => (by cases member)
      · exact fun id member => (by cases member)
      · rw [unmoved.dependencies]
      · rw [unmoved.dependencies, chain, List.append_nil]
  | cons step rest ih =>
      obtain ⟨created, middle, first, ran⟩ := Alone.of_bind ran
      have visible : ∀ id ∈ (request.step saga index previous step).dependencies,
          (world.jobs.visible pid id).isSome :=
        fun id member => seen id (Option.mem_toList.mp member)
      cases alone_createJob first ready with
      | answered used _ _ =>
          obtain ⟨key, _, _, keyed, _⟩ := used
          cases keyed
      | missing _ member absent _ =>
          have present := visible _ member
          rw [absent] at present
          cases present
      | refused _ _ repeated =>
          refine absurd ?_ repeated
          cases previous <;> simp [CreateSagaRequest.step]
      | @created job _ _ _ _ made =>
          have own : middle.jobs.visible pid job.id = some job := by
            rw [← Table.slot_visible, made.slot]
            exact Slot.visible_of_held rfl
          obtain ⟨rfl, ids, length, chained⟩ := ih ran (made.ready ready)
            (by simp [own])
          have absent : job.id ∉ ids := by
            intro member
            have unborn := chained.fresh job.id member
            rw [made.slot] at unborn
            cases unborn
          have different : ∀ id ∈ ids, id ≠ job.id := fun id member same => absent (same ▸ member)
          refine ⟨rfl, job.id :: ids, by simp [length], chained.ready, ?_, ?_, ?_, ?_, ?_, ?_⟩
          · exact List.nodup_cons.mpr ⟨absent, chained.distinct⟩
          · intro id member
            rcases List.mem_cons.mp member with same | later
            · rw [same, made.fresh]
            · rw [← made.others id (different id later)]
              exact chained.fresh id later
          · intro id member
            rcases List.mem_cons.mp member with same | later
            · exact ⟨job, by rw [same, chained.others _ absent, made.slot], made.tenant⟩
            · exact chained.jobs id later
          · intro id outside
            rw [List.mem_cons, not_or] at outside
            rw [chained.others id outside.2, made.others id outside.1]
          · rw [chained.committedEdges, made.committedEdges]
          · rw [chained.ownEdges, made.ownEdges, chain, List.append_assoc]
            rfl

theorem alone_createSaga {request : CreateSagaRequest} {result : Except ServiceError Saga}
    (ran : Alone (platform settings) pid (createSaga settings request) world result after)
    (ready : Ready pid world) :
    (request.steps = [] ∧ ∃ message, result = .error (.requestValidation message)) ∨
      request.steps ≠ [] ∧ (∃ saga, result = .ok saga) ∧ ∃ ids, ids.length = request.steps.length ∧
        Chained pid request.tenantId none world ids after := by
  unfold createSaga at ran
  split at ran
  · rename_i empty
    obtain ⟨rfl, _⟩ := alone_done ran
    exact .inl ⟨List.isEmpty_iff.mp empty, _, rfl⟩
  · rename_i nonempty
    obtain ⟨drifted, saga, begun, quiet, executed, ran⟩ := alone_exec ran
    obtain ⟨sagas, _, equal⟩ := Option.map_eq_some_iff.mp executed
    cases equal
    obtain ⟨created, middle, first, ran⟩ := Alone.of_bind ran
    have waiting : Ready pid { drifted with sagas } := by
      have kept := ready.unmoved quiet
      exact ⟨kept.free, kept.edges⟩
    obtain ⟨rfl, ids, length, chained⟩ := alone_createSteps first waiting (by simp)
    obtain ⟨later, _, last, quietly, executed, ran⟩ := alone_exec ran
    cases executed
    obtain ⟨rfl, unmoved⟩ := alone_done ran
    have slots : ∀ id, after.jobs.slot id = middle.jobs.slot id :=
      fun id => (unmoved.slots id).trans (quietly.slots id)
    have edges : after.dependencies = middle.dependencies :=
      unmoved.dependencies.trans quietly.dependencies
    refine .inr ⟨fun none => nonempty (List.isEmpty_iff.mpr none), ⟨_, rfl⟩, ids, length, ?_⟩
    refine ⟨⟨?_, ?_⟩, chained.distinct, ?_, ?_, ?_, ?_, ?_⟩
    · exact fun id => by rw [slots]; exact chained.ready.free id
    · intro edge member
      rw [edges] at member
      rw [← Table.slot_visible, slots, Table.slot_visible]
      exact chained.ready.edges edge member
    · intro id member
      rw [← quiet.slots]
      exact chained.fresh id member
    · intro id member
      rw [slots]
      exact chained.jobs id member
    · intro id outside
      rw [slots, chained.others id outside]
      exact quiet.slots id
    · rw [edges, chained.committedEdges, ← quiet.dependencies]
    · rw [edges, chained.ownEdges, ← quiet.dependencies]

end Alone

/-- Nothing that was stored is different. -/
structure Unchanged (world after : World) : Prop where
  jobs : after.jobs.committed = world.jobs.committed
  sagas : after.sagas.committed = world.sagas.committed
  outbox : after.outbox.committed = world.outbox.committed
  dependencies : after.dependencies.committed = world.dependencies.committed
  audit : after.audit.committed = world.audit.committed
  delayed : after.delayed = world.delayed
  replayScheduled : after.replayScheduled = world.replayScheduled
  replayInflight : after.replayInflight = world.replayInflight
  broker : after.broker = world.broker

/-- The edges of a call: from its new job to every listed id once, or from
every step of a saga to the step before it. -/
def Declares (world : World) (edges : List JobDependency) : Call → Prop
  | .job create => ∃ (job : Uuid) (parents : List Uuid), world.jobs.committed job = none ∧
      edges = parents.map (fun parent => ⟨job, parent⟩) ∧ parents.Nodup ∧
      ∀ id, id ∈ parents ↔ id ∈ create.dependencies
  | .saga create => ∃ ids : List Uuid, (∀ id ∈ ids, world.jobs.committed id = none) ∧
      ids.length = create.steps.length ∧ ids.Nodup ∧ edges = chain none ids

/-- The call raised NotFoundError and changed nothing, or it committed its edges. -/
def Meets (done : Done) : Prop :=
  ((∃ message, done.raised = some (.notFound message)) ∧ Unchanged done.before done.after) ∨
    done.raised = none ∧ ∃ edges, Declares done.before edges done.call ∧
      done.after.dependencies.committed = done.before.dependencies.committed ++ edges

/-- The two ends of every edge belong to one tenant. -/
def TenantsAgree (world : World) : Prop :=
  ∀ edge ∈ world.dependencies.committed, ∃ child parent,
    world.jobs.committed edge.job = some child ∧ world.jobs.committed edge.dependsOn = some parent ∧
    child.tenantId = parent.tenantId

/-- The request carries an idempotency key of its tenant, and the lookup or the
unique index finds its job. -/
def Answered (create : CreateJobRequest) (world : World) : Prop :=
  (∃ key id row, create.idempotencyKey = some key ∧ world.jobs.committed id = some row ∧
    row.idempotencyKey = some key ∧ row.tenantId = create.tenantId) ∧
  (create.idempotencyKey ≠ some "" ∨
    ∀ id ∈ create.dependencies, (world.jobs.committed id).isSome)

/-- The calls that do what they are to do: a listed id is missing, or the ids
are listed once each and belong to the caller's tenant. -/
def Good (world : World) : Call → Prop
  | .job create => (create.dependencies = [] ∨ ¬ Answered create world) ∧
      ((∃ id ∈ create.dependencies, world.jobs.committed id = none) ∨
        create.dependencies.Nodup ∧ ∀ id ∈ create.dependencies,
          ∃ row, world.jobs.committed id = some row ∧ row.tenantId = create.tenantId)
  | .saga create => create.steps ≠ []

section OneCall

variable {settings : Settings} {pid : Pid} {world middle : World}

theorem Unmoved.rollback (unmoved : Unmoved world middle) (pid : Pid) :
    Unchanged world (middle.rollback pid) where
  jobs := funext fun id => congrArg Slot.committed (unmoved.slots id)
  sagas := by rw [← unmoved.sagas]; rfl
  outbox := by rw [← unmoved.outbox]; rfl
  dependencies := by rw [← unmoved.dependencies]; rfl
  audit := by rw [← unmoved.audit]; rfl
  delayed := unmoved.delayed
  replayScheduled := unmoved.replayScheduled
  replayInflight := unmoved.replayInflight
  broker := unmoved.broker

theorem tenantsAgree_of_same {after : World} (agree : TenantsAgree world)
    (jobs : after.jobs.committed = world.jobs.committed)
    (edges : after.dependencies.committed = world.dependencies.committed) : TenantsAgree after := by
  intro edge member
  rw [edges] at member
  rw [jobs]
  exact agree edge member

theorem commit_jobs (pid : Pid) (id : Uuid) :
    (middle.commit pid).jobs.committed id = (middle.jobs.slot id).visible pid :=
  (Table.slot_visible middle.jobs id pid).symm

theorem commit_edges (pid : Pid) : (middle.commit pid).dependencies.committed =
    middle.dependencies.committed ++ middle.dependencies.pending pid := rfl

theorem Unmoved.commit (closed : world.Closed) (unmoved : Unmoved world middle) (pid : Pid) :
    (middle.commit pid).jobs.committed = world.jobs.committed ∧
      (middle.commit pid).dependencies.committed = world.dependencies.committed := by
  constructor
  · funext id
    rw [commit_jobs, unmoved.slots, Table.slot_visible, closed.visible]
  · rw [commit_edges, unmoved.dependencies, closed.edges, List.append_nil]

theorem keySeen_iff (pid : Pid) (closed : world.Closed) (create : CreateJobRequest) :
    KeySeen pid create world ↔ ∃ key id row, create.idempotencyKey = some key ∧
      world.jobs.committed id = some row ∧ row.idempotencyKey = some key ∧
      row.tenantId = create.tenantId := by
  simp only [KeySeen, closed.visible]

theorem stored_of_others (ids : List Uuid) {id : Uuid} {row : Job} (closed : world.Closed)
    (fresh : ∀ id ∈ ids, world.jobs.slot id = { committed := none, holder := none })
    (others : ∀ id, id ∉ ids → middle.jobs.slot id = world.jobs.slot id)
    (stored : world.jobs.committed id = some row) :
    (middle.commit pid).jobs.committed id = some row := by
  have outside : id ∉ ids := by
    intro member
    have absent : world.jobs.committed id = none := congrArg Slot.committed (fresh id member)
    rw [stored] at absent
    cases absent
  rw [commit_jobs, others id outside, Table.slot_visible, closed.visible, stored]

theorem Created.tenantsAgree_iff {create : CreateJobRequest} {job : Job} (closed : world.Closed)
    (agree : TenantsAgree world) (created : Created pid create world job middle)
    (present : ∀ id ∈ create.dependencies, (world.jobs.committed id).isSome) :
    TenantsAgree (middle.commit pid) ↔ ∀ id ∈ create.dependencies,
      ∃ row, world.jobs.committed id = some row ∧ row.tenantId = create.tenantId := by
  have own : (middle.commit pid).jobs.committed job.id = some job := by
    rw [commit_jobs, created.slot]
    exact Slot.visible_of_held rfl
  have kept : ∀ {id row}, world.jobs.committed id = some row →
      (middle.commit pid).jobs.committed id = some row := by
    intro id row stored
    refine stored_of_others [job.id] closed ?_ ?_ stored
    · simp [created.fresh]
    · intro id outside
      exact created.others id (by simpa using outside)
  have edges : (middle.commit pid).dependencies.committed = world.dependencies.committed ++
      create.dependencies.map fun parent => ⟨job.id, parent⟩ := by
    rw [commit_edges, created.committedEdges, created.ownEdges, closed.edges, List.nil_append]
  constructor
  · intro agrees id member
    obtain ⟨row, stored⟩ := Option.isSome_iff_exists.mp (present id member)
    obtain ⟨child, parent, first, second, same⟩ := agrees ⟨job.id, id⟩ (by
      rw [edges]
      exact List.mem_append_right _ (List.mem_map_of_mem member))
    rw [own] at first
    rw [kept stored] at second
    cases first
    cases second
    exact ⟨row, stored, by rw [← same, created.tenant]⟩
  · intro listed edge member
    rw [edges, List.mem_append] at member
    rcases member with old | new
    · obtain ⟨child, parent, first, second, same⟩ := agree edge old
      exact ⟨child, parent, kept first, kept second, same⟩
    · obtain ⟨id, among, rfl⟩ := List.mem_map.mp new
      obtain ⟨row, stored, tenant⟩ := listed id among
      exact ⟨job, row, own, kept stored, by rw [created.tenant, tenant]⟩

theorem mem_chain {previous : Option Uuid} {ids : List Uuid} {edge : JobDependency}
    (member : edge ∈ chain previous ids) :
    edge.job ∈ ids ∧ (edge.dependsOn ∈ ids ∨ previous = some edge.dependsOn) := by
  induction ids generalizing previous with
  | nil => cases member
  | cons id rest ih =>
      rw [chain, List.mem_append] at member
      rcases member with first | later
      · obtain ⟨parent, listed, rfl⟩ := List.mem_map.mp first
        exact ⟨List.mem_cons_self, .inr (Option.mem_toList.mp listed)⟩
      · obtain ⟨child, parent⟩ := ih later
        refine ⟨List.mem_cons_of_mem _ child, .inl ?_⟩
        rcases parent with among | same
        · exact List.mem_cons_of_mem _ among
        · cases same
          exact List.mem_cons_self

theorem Chained.tenantsAgree {tenant : Uuid} {ids : List Uuid} (closed : world.Closed)
    (agree : TenantsAgree world) (chained : Chained pid tenant none world ids middle) :
    TenantsAgree (middle.commit pid) := by
  have step : ∀ id ∈ ids, ∃ row, (middle.commit pid).jobs.committed id = some row ∧
      row.tenantId = tenant := by
    intro id member
    obtain ⟨row, held, same⟩ := chained.jobs id member
    exact ⟨row, by rw [commit_jobs, Slot.visible_of_held held], same⟩
  intro edge member
  rw [commit_edges, chained.committedEdges, chained.ownEdges, closed.edges, List.nil_append,
    List.mem_append] at member
  rcases member with old | new
  · obtain ⟨child, parent, first, second, same⟩ := agree edge old
    exact ⟨child, parent, stored_of_others ids closed chained.fresh chained.others first,
      stored_of_others ids closed chained.fresh chained.others second, same⟩
  · obtain ⟨listed, among | absurd⟩ := mem_chain new
    · obtain ⟨child, first, ofTenant⟩ := step edge.job listed
      obtain ⟨parent, second, same⟩ := step edge.dependsOn among
      exact ⟨child, parent, first, second, ofTenant.trans same.symm⟩
    · cases absurd

theorem Meets.of_raised {call : Call} {after : World} {error : ServiceError}
    (other : ∀ message, error ≠ .notFound message) :
    ¬ Meets ⟨call, world, some error, after⟩ := by
  intro meets
  rcases meets with ⟨⟨message, equal⟩, _⟩ | ⟨absurd, _⟩
  · exact other message (Option.some.inj equal)
  · cases absurd

theorem exists_absent (world : World) : ∃ id, world.jobs.committed id = none := by
  obtain ⟨id, unused, _⟩ := exists_unused world
  exact ⟨id, (world.jobs.listed id unused).1⟩

theorem job_call_iff {create : CreateJobRequest} {after : World} {raised : Option ServiceError}
    (closed : world.Closed) (ready : Ready pid world) (agree : TenantsAgree world)
    (runs : (Call.job create).Runs settings pid world raised after) :
    (Meets ⟨.job create, world, raised, after⟩ ∧ TenantsAgree after) ↔ Good world (.job create) := by
  obtain ⟨result, middle, ran, ended⟩ := runs
  have outcome := alone_createJob ran ready
  simp only [Good, Answered, ← keySeen_iff pid closed]
  cases outcome with
  | answered used found unmoved =>
      simp only [closed.visible] at found
      rcases ended with ⟨_, _, rfl, rfl⟩ | ⟨_, absurd, _⟩
      · obtain ⟨jobs, edges⟩ := unmoved.commit closed pid
        have agrees := tenantsAgree_of_same agree jobs edges
        constructor
        · rintro ⟨meets, _⟩
          rcases meets with ⟨⟨_, absurd⟩, _⟩ | ⟨_, added, ⟨job, parents, _, rfl, _, same⟩, committed⟩
          · cases absurd
          · have none : parents = [] := by
              rw [edges, List.self_eq_append_right, List.map_eq_nil_iff] at committed
              exact committed
            have empty : create.dependencies = [] := by
              rw [List.eq_nil_iff_forall_not_mem]
              intro id member
              rw [← same, none] at member
              cases member
            simp [empty]
        · rintro ⟨unlisted, _⟩
          have empty : create.dependencies = [] :=
            unlisted.resolve_right fun unanswered => unanswered ⟨used, found⟩
          obtain ⟨job, absent⟩ := exists_absent world
          refine ⟨.inr ⟨rfl, [], ⟨job, [], absent, rfl, .nil, by simp [empty]⟩, ?_⟩, agrees⟩
          rw [edges, List.append_nil]
      · cases absurd
  | @missing id _ unanswered member absent unmoved =>
      rw [closed.visible] at absent
      rcases ended with ⟨_, absurd, _⟩ | ⟨error, equal, rfl, rfl⟩
      · cases absurd
      · cases equal
        have unchanged := unmoved.rollback pid
        refine ⟨fun _ => ⟨.inr ?_, .inl ⟨id, member, absent⟩⟩, fun _ => ⟨.inl ⟨⟨_, rfl⟩, unchanged⟩, ?_⟩⟩
        · rintro ⟨used, nonempty | present⟩
          · exact unanswered ⟨nonempty, used⟩
          · have found := present id member
            rw [absent] at found
            cases found
        · exact tenantsAgree_of_same agree unchanged.jobs unchanged.dependencies
  | @created job _ unused present distinct made =>
      simp only [closed.visible] at present
      rcases ended with ⟨_, _, rfl, rfl⟩ | ⟨_, absurd, _⟩
      · rw [made.tenantsAgree_iff closed agree present]
        have meets : Meets ⟨.job create, world, none, middle.commit pid⟩ := by
          refine .inr ⟨rfl, _, ⟨job.id, create.dependencies, ?_, rfl, distinct, fun _ => Iff.rfl⟩, ?_⟩
          · exact congrArg Slot.committed made.fresh
          · rw [commit_edges, made.committedEdges, made.ownEdges, closed.edges, List.nil_append]
        constructor
        · rintro ⟨_, listed⟩
          exact ⟨.inr fun answered => unused answered.1, .inr ⟨distinct, listed⟩⟩
        · rintro ⟨_, ⟨id, member, absent⟩ | ⟨_, listed⟩⟩
          · have found := present id member
            rw [absent] at found
            cases found
          · exact ⟨meets, listed⟩
      · cases absurd
  | refused unused present repeated =>
      simp only [closed.visible] at present
      rcases ended with ⟨_, absurd, _⟩ | ⟨error, equal, rfl, rfl⟩
      · cases absurd
      · cases equal
        refine ⟨fun both => absurd both.1 (Meets.of_raised (by simp)), ?_⟩
        rintro ⟨_, ⟨id, member, absent⟩ | ⟨distinct, _⟩⟩
        · have found := present id member
          rw [absent] at found
          cases found
        · exact absurd distinct repeated

theorem saga_call_iff {create : CreateSagaRequest} {after : World} {raised : Option ServiceError}
    (closed : world.Closed) (ready : Ready pid world) (agree : TenantsAgree world)
    (runs : (Call.saga create).Runs settings pid world raised after) :
    (Meets ⟨.saga create, world, raised, after⟩ ∧ TenantsAgree after) ↔ Good world (.saga create) := by
  obtain ⟨result, middle, ran, ended⟩ := runs
  rcases alone_createSaga ran ready with
    ⟨empty, message, rfl⟩ | ⟨nonempty, ⟨saga, rfl⟩, ids, length, chained⟩
  · rcases ended with ⟨_, absurd, _⟩ | ⟨error, equal, rfl, rfl⟩
    · cases absurd
    · cases equal
      exact ⟨fun both => absurd both.1 (Meets.of_raised (by simp)),
        fun nonempty => absurd empty nonempty⟩
  · rcases ended with ⟨_, _, rfl, rfl⟩ | ⟨_, absurd, _⟩
    · refine ⟨fun _ => nonempty, fun _ => ⟨.inr ⟨rfl, chain none ids, ?_, ?_⟩, ?_⟩⟩
      · refine ⟨ids, fun id member => ?_, length, chained.distinct, rfl⟩
        exact congrArg Slot.committed (chained.fresh id member)
      · rw [commit_edges, chained.committedEdges, chained.ownEdges, closed.edges, List.nil_append]
      · exact chained.tenantsAgree closed agree
    · cases absurd

end OneCall

section History

variable {settings : Settings} {calls : List Done} {world : World}

theorem ready_of_history (history : History settings calls world) (pid : Pid) : Ready pid world := by
  obtain ⟨pool, kept, rfl⟩ := history.graph_kept
  refine ⟨(history.closed.private pid).jobs, fun edge member => ?_⟩
  rw [Journal.visible, history.closed.edges, List.append_nil] at member
  obtain ⟨⟨row, stored⟩, _⟩ := kept.committed edge member
  rw [history.closed.visible, ← Table.slot_committed, stored]
  rfl

/-- In every history of `create_job` and `create_saga` calls the graph has no
cycle, and every call does what it is to do, with all edges inside one tenant,
exactly if every call is good.  Every next call comes to an end. -/
theorem dependency_calls_sound_iff (history : History settings calls world) :
    (∀ job, ¬ Relation.TransGen world.DependsOn job job) ∧
    ((∀ done ∈ calls, Meets done ∧ TenantsAgree done.after) ↔
      ∀ done ∈ calls, Good done.before done.call) ∧
    ∀ call : Call, ∃ raised after, call.Runs settings calls.length world raised after := by
  refine ⟨?_, ?_, fun call => call.exists_run history.closed⟩
  · obtain ⟨pool, kept, rfl⟩ := history.graph_kept
    exact kept.acyclic
  · induction history with
    | start outside => simp
    | @call calls call world after raised earlier runs ih =>
        have last : TenantsAgree world →
            ((Meets ⟨call, world, raised, after⟩ ∧ TenantsAgree after) ↔ Good world call) := by
          intro agree
          have ready := ready_of_history earlier calls.length
          cases call with
          | job create => exact job_call_iff earlier.closed ready agree runs
          | saga create => exact saga_call_iff earlier.closed ready agree runs
        have before : (∀ done ∈ calls, Meets done ∧ TenantsAgree done.after) → TenantsAgree world := by
          intro each
          cases earlier with
          | start outside => exact fun edge member => (by cases member)
          | call _ _ => exact (each _ List.mem_cons_self).2
        simp only [List.forall_mem_cons]
        constructor
        · rintro ⟨newest, older⟩
          exact ⟨(last (before older)).mp newest, ih.mp older⟩
        · rintro ⟨newest, older⟩
          exact ⟨(last (before (ih.mpr older))).mpr newest, ih.mpr older⟩

end History

def nextReadings (world : World) : Change :=
  .outside { world.outside with clock := world.outside.clock + 1, uuid := world.outside.uuid + 1 }

def soloHandler {α : Type} (settings : Settings) (pid : Pid) (handler : Prog (Except ServiceError α))
    (world : World) : Option (Option ServiceError × World) :=
  ((platform settings).solo pid nextReadings handler world).map fun (result, middle) =>
    match result with
    | .ok _ => (none, middle.commit pid)
    | .error error => (some error, middle.rollback pid)

def soloCall (settings : Settings) (pid : Pid) (world : World) :
    Call → Option (Option ServiceError × World)
  | .job create => soloHandler settings pid (createJob settings create) world
  | .saga create => soloHandler settings pid (createSaga settings create) world

/-- The calls, oldest first, made after the ones of `done`. -/
def soloCalls (settings : Settings) : List Call → List Done → World → Option (List Done × World)
  | [], done, world => some (done, world)
  | call :: rest, done, world =>
      match soloCall settings done.length world call with
      | none => none
      | some (raised, after) =>
          soloCalls settings rest (⟨call, world, raised, after⟩ :: done) after

theorem runs_of_soloHandler {α : Type} {settings : Settings} {pid : Pid}
    {handler : Prog (Except ServiceError α)} {world after : World} {raised : Option ServiceError}
    (ran : soloHandler settings pid handler world = some (raised, after)) :
    HandlerRuns settings pid handler world raised after := by
  obtain ⟨⟨result, middle⟩, alone, equal⟩ := Option.map_eq_some_iff.mp ran
  refine ⟨result, middle, .of_solo alone, ?_⟩
  cases result with
  | ok value =>
      cases equal
      exact .inl ⟨value, rfl, rfl, rfl⟩
  | error error =>
      cases equal
      exact .inr ⟨error, rfl, rfl, rfl⟩

theorem history_of_soloCalls {settings : Settings} {calls : List Call} {done final : List Done}
    {world after : World} (history : History settings done world)
    (ran : soloCalls settings calls done world = some (final, after)) :
    History settings final after ∧ final.map Done.call = calls.reverse ++ done.map Done.call := by
  induction calls generalizing done world with
  | nil =>
      cases ran
      exact ⟨history, rfl⟩
  | cons call rest ih =>
      simp only [soloCalls] at ran
      split at ran
      · contradiction
      · rename_i raised middle called
        have runs : call.Runs settings done.length world raised middle := by
          cases call with
          | job create => exact runs_of_soloHandler called
          | saga create => exact runs_of_soloHandler called
        obtain ⟨later, same⟩ := ih (.call history runs) ran
        exact ⟨later, by rw [same]; simp⟩

theorem exists_history {settings : Settings} (calls : List Call) {check : List Done → Bool}
    (passes : ((soloCalls settings calls [] (.fresh (readings 1 .timedOut))).any
      fun final => check final.1) = true) :
    ∃ done world, History settings done world ∧ done.map Done.call = calls.reverse ∧
      check done = true := by
  obtain ⟨⟨done, world⟩, ran, checked⟩ := (Option.any_eq_true _ _).mp passes
  obtain ⟨history, same⟩ := history_of_soloCalls (.start _) ran
  exact ⟨done, world, history, by rw [same]; simp, checked⟩

/-- A report for tenant `tenant` that waits for `dependencies`. -/
def reportAfter (tenant : Uuid) (dependencies : List Uuid) : CreateJobRequest where
  userId := 7
  tenantId := tenant
  jobType := "report_gen"
  dependencies

def joinsTenants (world : World) : Bool :=
  world.dependencies.committed.any fun edge =>
    match world.jobs.committed edge.job, world.jobs.committed edge.dependsOn with
    | some child, some parent => child.tenantId ≠ parent.tenantId
    | _, _ => false

theorem not_tenantsAgree {world : World} (joins : joinsTenants world = true) :
    ¬ TenantsAgree world := by
  intro agree
  obtain ⟨edge, member, different⟩ := List.any_eq_true.mp joins
  obtain ⟨child, parent, first, second, same⟩ := agree edge member
  rw [first, second] at different
  exact of_decide_eq_true different same

theorem dependency_calls_of_one_tenant :
    ∃ calls world, History Settings.defaults calls world ∧
      calls.map Done.call = [.job (reportAfter 1 [2]), .job (reportAfter 1 [])] ∧
      (∀ job, ¬ Relation.TransGen world.DependsOn job job) ∧
      ∀ done ∈ calls, Meets done ∧ TenantsAgree done.after := by
  obtain ⟨calls, world, history, same, checked⟩ : ∃ calls world,
      History Settings.defaults calls world ∧
      calls.map Done.call = [.job (reportAfter 1 [2]), .job (reportAfter 1 [])] ∧
      (calls.head?.any fun done =>
        (done.before.jobs.committed 2).any fun row => row.tenantId = 1) = true :=
    exists_history [.job (reportAfter 1 []), .job (reportAfter 1 [2])] (by decide +kernel)
  obtain ⟨acyclic, sound, _⟩ := dependency_calls_sound_iff history
  refine ⟨calls, world, history, same, acyclic, sound.mpr ?_⟩
  obtain ⟨second, rest, rfl, later, equal⟩ := List.map_eq_cons_iff.mp same
  obtain ⟨first, none, rfl, earlier, empty⟩ := List.map_eq_cons_iff.mp equal
  obtain rfl := List.map_eq_nil_iff.mp empty
  obtain ⟨row, stored, tenant⟩ : ∃ row, second.before.jobs.committed 2 = some row ∧
      decide (row.tenantId = 1) = true := (Option.any_eq_true _ _).mp checked
  simp only [List.forall_mem_cons, List.not_mem_nil, IsEmpty.forall_iff, implies_true, and_true]
  rw [later, earlier]
  refine ⟨⟨.inr ?_, .inr ⟨by decide, ?_⟩⟩, .inl rfl, .inr ⟨by decide, by simp [reportAfter]⟩⟩
  · rintro ⟨⟨key, _, _, absurd, _⟩, _⟩
    cases absurd
  · intro id member
    obtain rfl : id = 2 := by simpa [reportAfter] using member
    exact ⟨row, stored, of_decide_eq_true tenant⟩

/-- The last call was refused by the database, and the one before joined two tenants. -/
def refusedAfterJoining : List Done → Bool
  | last :: earlier :: _ =>
      last.raised = some .integrity && earlier.raised = none && joinsTenants earlier.after
  | _ => false

/-- A job of tenant 2 on a job of tenant 1, and a list that repeats an id. -/
theorem foreign_and_repeated_dependencies :
    ∃ calls world, History Settings.defaults calls world ∧
      calls.map Done.call =
        [.job (reportAfter 1 [2, 2]), .job (reportAfter 2 [2]), .job (reportAfter 1 [])] ∧
      (∃ done ∈ calls, done.call = .job (reportAfter 2 [2]) ∧ done.raised = none ∧
        ¬ TenantsAgree done.after) ∧
      ∃ done ∈ calls, done.call = .job (reportAfter 1 [2, 2]) ∧ ¬ Meets done := by
  obtain ⟨calls, world, history, same, checked⟩ : ∃ calls world,
      History Settings.defaults calls world ∧
      calls.map Done.call =
        [.job (reportAfter 1 [2, 2]), .job (reportAfter 2 [2]), .job (reportAfter 1 [])] ∧
      refusedAfterJoining calls = true :=
    exists_history [.job (reportAfter 1 []), .job (reportAfter 2 [2]), .job (reportAfter 1 [2, 2])]
      (by decide +kernel)
  refine ⟨calls, world, history, same, ?_⟩
  obtain ⟨third, rest, rfl, last, equal⟩ := List.map_eq_cons_iff.mp same
  obtain ⟨second, rest, rfl, middle, equal⟩ := List.map_eq_cons_iff.mp equal
  simp only [refusedAfterJoining, Bool.and_eq_true, decide_eq_true_eq] at checked
  obtain ⟨⟨refused, accepted⟩, joins⟩ := checked
  refine ⟨⟨second, by simp, middle, accepted, not_tenantsAgree joins⟩, third, by simp, last, ?_⟩
  obtain ⟨call, before, raised, after⟩ := third
  cases refused
  exact Meets.of_raised (by simp)

end IncidentPlatform.Properties

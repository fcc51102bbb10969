import IncidentPlatform.Platform.Capabilities
import IncidentPlatform.Platform.Rows
import Mathlib.Logic.Relation

namespace IncidentPlatform.Platform

open Concurrency Models Storage Repositories Services

/-! # The dependency graph

The edges of a job are inserted in the transaction that inserts the job, and
lead to jobs that were there before it.  So a committed job has its edges from
the start and keeps exactly those, and the graph has no cycle.
-/

/-- What one operation does to the edges. -/
theorem operate_edges {world after : World} {pid : Pid} {operation : Op} {reply : Reply operation}
    (operated : World.operate pid operation world = some (reply, after)) :
    (∃ id parents, operation = .statement (.insertDependencies id parents) ∧ parents.Nodup ∧
      (∀ parent ∈ parents, (world.jobs.visible pid parent).isSome) ∧
      (∀ parent ∈ parents, parent ∉ world.parentsOf pid id) ∧
      after.dependencies =
        world.dependencies.append pid (parents.map fun parent => ⟨id, parent⟩)) ∨
    (operation = .commit ∧ after.dependencies = world.dependencies.commit pid) ∨
    (operation = .rollback ∧ after.dependencies = world.dependencies.rollback pid) ∨
    (operation ≠ .commit ∧ operation ≠ .rollback ∧ after.dependencies = world.dependencies) := by
  cases operation with
  | commit =>
      cases operated
      exact .inr (.inl ⟨rfl, rfl⟩)
  | rollback =>
      cases operated
      exact .inr (.inr (.inl ⟨rfl, rfl⟩))
  | query query =>
      cases operated
      exact .inr (.inr (.inr ⟨by simp, by simp, rfl⟩))
  | reading reading =>
      cases operated
      exact .inr (.inr (.inr ⟨by simp, by simp, rfl⟩))
  | command command =>
      refine .inr (.inr (.inr ⟨by simp, by simp, ?_⟩))
      cases command <;> cases operated <;> rfl
  | publishRaw row =>
      refine .inr (.inr (.inr ⟨by simp, by simp, ?_⟩))
      simp only [World.operate] at operated
      split at operated <;> cases operated <;> rfl
  | statement issued =>
      cases issued with
      | insertDependencies id parents =>
          simp only [World.operate, World.execute] at operated
          split at operated
          · rename_i accepted
            cases operated
            exact .inl ⟨id, parents, rfl, accepted.1, accepted.2.1, accepted.2.2, rfl⟩
          · cases operated
            exact .inr (.inr (.inr ⟨by simp, by simp, rfl⟩))
      | insertJob draft =>
          refine .inr (.inr (.inr ⟨by simp, by simp, ?_⟩))
          simp only [World.operate, World.execute] at operated
          split at operated
          · obtain ⟨jobs, _, equal⟩ := Option.map_eq_some_iff.mp operated
            cases equal
            rfl
          · split at operated <;> cases operated
            rfl
      | stampRequeued id stamp =>
          refine .inr (.inr (.inr ⟨by simp, by simp, ?_⟩))
          obtain ⟨⟨_, next⟩, updating, equal⟩ := Option.map_eq_some_iff.mp operated
          cases equal
          obtain ⟨jobs, _, rfl⟩ := withJobs_eq updating
          rfl
      | insertAudit entry =>
          cases operated
          exact .inr (.inr (.inr ⟨by simp, by simp, rfl⟩))
      | _ =>
          refine .inr (.inr (.inr ⟨by simp, by simp, ?_⟩))
          obtain ⟨_, _, equal⟩ := Option.map_eq_some_iff.mp operated
          cases equal
          rfl

/-- What a transaction has read, and the job it inserted last together with the
ids it had read before. -/
structure Creation where
  known : List Uuid
  latest : Option (Uuid × List Uuid)

def Creation.advance (state : Creation) : (operation : Op) → Reply operation → Creation
  | .query (.job id), some _ => { state with known := id :: state.known }
  | .statement (.insertJob _), some row => { state with latest := some (row.id, state.known) }
  | .commit, _ | .rollback, _ => ⟨[], none⟩
  | _, _ => state

/-- Edges are inserted for the job inserted last, to jobs read before it. -/
@[reducible] def creationProtocol : Protocol Role Op Reply where
  State := Creation
  start := fun _ => ⟨[], none⟩
  allowed := fun state operation =>
    match operation with
    | .statement (.insertDependencies id parents) =>
        ∃ known, state.latest = some (id, known) ∧ ∀ parent ∈ parents, parent ∈ known
    | _ => True
  advance := Creation.advance

theorem creation_allowed {state : Creation} {operation : Op}
    (other : ∀ id parents, operation ≠ .statement (.insertDependencies id parents)) :
    creationProtocol.allowed state operation := by
  cases operation with
  | statement issued =>
      cases issued with
      | insertDependencies id parents => exact absurd rfl (other id parents)
      | _ => exact trivial
  | _ => exact trivial

theorem follows_of_edgeless {α : Type} {program : Prog α} {allowed : Op → Prop} {state : Creation}
    (uses : program.Uses allowed)
    (edgeless : ∀ id parents, ¬ allowed (.statement (.insertDependencies id parents))) :
    program.Follows creationProtocol state fun _ _ => True := by
  refine (uses.follows (motive := fun _ => True) trivial ?_).mono fun _ _ _ => trivial
  intro state operation _ used
  refine ⟨creation_allowed fun id parents equal => ?_, fun _ => trivial⟩
  subst equal
  exact edgeless id parents used

theorem loadParents_follows (ids : List Uuid) (state : Creation) :
    (loadParents ids).Follows creationProtocol state fun after loaded =>
      (∀ id ∈ state.known, id ∈ after.known) ∧
        ∀ parents, loaded = .ok parents → ∀ id ∈ ids, id ∈ after.known := by
  induction ids generalizing state with
  | nil =>
      refine ⟨fun id member => member, fun parents _ id member => ?_⟩
      cases member
  | cons id rest ih =>
      refine .first trivial fun found => ?_
      cases found with
      | none => exact ⟨fun id member => member, fun parents failed => (by cases failed)⟩
      | some parent =>
          refine (ih _).bind fun after loaded kept => ?_
          obtain ⟨grows, all⟩ := kept
          have first : id ∈ after.known := grows id List.mem_cons_self
          have earlier : ∀ other ∈ state.known, other ∈ after.known :=
            fun other member => grows other (List.mem_cons_of_mem _ member)
          cases loaded with
          | error error => exact ⟨earlier, fun parents failed => (by cases failed)⟩
          | ok parents =>
              refine ⟨earlier, fun _ _ other member => ?_⟩
              rcases List.mem_cons.mp member with same | later
              · rw [same]
                exact first
              · exact all parents rfl other later

theorem probe_follows (id : Uuid) (state : Creation) :
    (Utils.findBlockingPause id).Follows creationProtocol state fun after _ => after = state := by
  refine (findBlockingPause_uses id).follows rfl fun current operation same probes => ?_
  subst same
  cases operation with
  | query query =>
      cases query with
      | parents id => exact ⟨trivial, fun _ => rfl⟩
      | _ => exact probes.elim
  | command command => exact ⟨trivial, fun _ => rfl⟩
  | _ => exact probes.elim

theorem initialStatus_follows (parents : List Job) (state : Creation) :
    (initialStatus parents).Follows creationProtocol state fun after _ => after = state := by
  have probed : (probeParents parents).Follows creationProtocol state fun after _ => after = state := by
    induction parents with
    | nil => rfl
    | cons parent rest ih =>
        refine (probe_follows parent.id state).bind fun after held same => ?_
        subst same
        cases held with
        | none => exact ih
        | some pausedBy => rfl
  unfold initialStatus
  split
  · rfl
  · refine probed.bind fun after held same => ?_
    cases held <;> exact same

theorem finishCreate_follows {request : CreateJobRequest} {status : JobStatus} {job : Job}
    {state : Creation} {known : List Uuid} (inserted : state.latest = some (job.id, known))
    (read : ∀ id ∈ request.dependencies, id ∈ known) :
    (finishCreate request status job).Follows creationProtocol state fun _ _ => True := by
  have rest : ∀ state : Creation, ∀ added : Bool, (if added = true then do
        auditCreated request job status
        if status = .pending then
          outboxAdd request.tenantId request.userId .submitted
            (.submitted request.tenantId job.id request.userId request.jobType
              request.enrichedPayload request.priority job.traceId)
        pure (.ok job)
      else pure (.error .integrity) : Prog (Except ServiceError Job)).Follows
        creationProtocol state fun _ _ => True := by
    intro state added
    split
    · refine ⟨trivial, fun _ => ?_⟩
      split
      · exact ⟨trivial, fun _ => trivial⟩
      · exact trivial
    · exact trivial
  unfold finishCreate addDependencies
  split
  · exact rest state true
  · exact ⟨⟨known, inserted, read⟩, fun added => rest _ added⟩

theorem createJob_follows (settings : Settings) (request : CreateJobRequest) (state : Creation) :
    (createJob settings request).Follows creationProtocol state fun _ _ => True := by
  have lookup : (findIdempotent request).Follows creationProtocol state fun _ _ => True := by
    unfold findIdempotent
    split
    · exact trivial
    · split
      · exact trivial
      · exact ⟨trivial, fun _ => trivial⟩
  refine lookup.bind fun state existing _ => ?_
  cases existing with
  | some job => exact trivial
  | none =>
      refine (loadParents_follows _ state).bind fun state loaded kept => ?_
      cases loaded with
      | error error => exact trivial
      | ok parents =>
          refine (initialStatus_follows parents state).bind fun after status same => ?_
          subst same
          refine .first trivial fun inserted => ?_
          cases inserted with
          | some job => exact finishCreate_follows rfl (kept.2 parents rfl)
          | none =>
              have uses : (idempotencyWinner request).Uses Role.outboxRelay.may :=
                idempotencyWinner_uses request
              exact follows_of_edgeless uses fun _ _ => Bool.false_ne_true

theorem createSteps_follows (settings : Settings) (request : CreateSagaRequest) (saga : Saga)
    (index : Nat) (previous : Option Uuid) (steps : List SagaStep) (state : Creation) :
    (createSteps settings request saga index previous steps).Follows creationProtocol state
      fun _ _ => True := by
  induction steps generalizing index previous state with
  | nil => exact trivial
  | cons step rest ih =>
      refine (createJob_follows settings _ state).bind fun after created _ => ?_
      cases created with
      | error error => exact trivial
      | ok job => exact ih _ _ _

theorem request_follows {α : Type} {handler : Prog (Except ServiceError α)} {state : Creation}
    (follows : handler.Follows creationProtocol state fun _ _ => True) :
    (request handler).Follows creationProtocol state fun _ _ => True := by
  refine follows.bind fun after result _ => ?_
  cases result <;> exact ⟨trivial, fun _ => trivial⟩

theorem program_follows_creation (settings : Settings) (role : Role) :
    (role.program settings).Follows creationProtocol (creationProtocol.start role)
      fun _ _ => True := by
  by_cases creates : role.creates
  · cases role with
    | createJob create => exact request_follows (createJob_follows settings create _)
    | createSaga create =>
        refine request_follows ?_
        unfold createSaga
        split
        · exact trivial
        · refine .first trivial fun saga => ?_
          refine (createSteps_follows settings create saga 0 none create.steps _).bind
            fun after created _ => ?_
          cases created with
          | error error => exact trivial
          | ok _ => exact ⟨trivial, fun _ => trivial⟩
    | _ => cases creates
  · exact follows_of_edgeless (program_uses settings role) fun _ _ => creates

/-- What the open transaction of `pid` has read and inserted. -/
def creationOf (pid : Pid) : List PlatformEntry → Creation
  | [] => ⟨[], none⟩
  | entry :: older =>
      if entry.pid = pid then (creationOf pid older).advance entry.operation entry.reply
      else creationOf pid older

theorem stateFrom_creation (role : Role) (pid : Pid) (log : List PlatformEntry) :
    creationProtocol.stateFrom role pid log = creationOf pid log := by
  induction log with
  | nil => rfl
  | cons entry older ih => rw [Protocol.stateFrom, creationOf, ih]

theorem creation_permits {settings : Settings} {pool : PlatformPool}
    (reachable : Reachable settings pool) {pid : Pid} {role : Role} {operation : Op}
    {next : Reply operation → Prog Unit}
    (found : pool.process pid = some { role, program := .call operation next }) :
    creationProtocol.allowed (creationOf pid pool.log) operation := by
  obtain ⟨outside, reached⟩ := reachable
  have kept := Protocol.keptBy_of_reaches (program_follows_creation settings) reached
  have follows := kept pid _ found
  rw [stateFrom_creation] at follows
  exact follows.1

/-- An edge, committed or of an open transaction. -/
def World.Edge (world : World) (edge : JobDependency) : Prop :=
  edge ∈ world.dependencies.committed ∨ ∃ pid, edge ∈ world.dependencies.pending pid

/-- `job` depends on `parent`. -/
def World.DependsOn (world : World) (job parent : Uuid) : Prop := world.Edge ⟨job, parent⟩

/-- The job is inserted in the open transaction of `pid`. -/
def World.Fresh (world : World) (pid : Pid) (job : Uuid) : Prop :=
  (world.jobs.slot job).committed = none ∧ ∃ row, (world.jobs.slot job).holder = some (pid, row)

def World.Sees (world : World) (pid : Pid) (job : Uuid) : Prop :=
  ∃ row, (world.jobs.slot job).visible pid = some row

structure GraphKept (pool : PlatformPool) : Prop where
  committed : ∀ edge ∈ pool.world.dependencies.committed,
    (∃ row, (pool.world.jobs.slot edge.job).committed = some row) ∧
      ∃ row, (pool.world.jobs.slot edge.dependsOn).committed = some row
  pending : ∀ pid, ∀ edge ∈ pool.world.dependencies.pending pid,
    pool.world.Fresh pid edge.job ∧ pool.world.Sees pid edge.dependsOn
  known : ∀ pid, ∀ id ∈ (creationOf pid pool.log).known, pool.world.Sees pid id
  latest : ∀ pid id known, (creationOf pid pool.log).latest = some (id, known) →
    pool.world.Fresh pid id ∧ id ∉ known ∧ ∀ edge, pool.world.Edge edge → edge.dependsOn ≠ id
  acyclic : ∀ job, ¬ Relation.TransGen pool.world.DependsOn job job

theorem acyclic_of_source {Node : Type} {before after : Node → Node → Prop} {source : Node}
    (acyclic : ∀ node, ¬ Relation.TransGen before node node)
    (added : ∀ node next, after node next → before node next ∨ node = source ∧ next ≠ source)
    (unreached : ∀ node, ¬ before node source) (node : Node) :
    ¬ Relation.TransGen after node node := by
  have intoSource : ∀ node, ¬ Relation.TransGen after node source := by
    intro node path
    obtain ⟨last, _, step⟩ := Relation.TransGen.tail'_iff.mp path
    rcases added last source step with old | ⟨_, different⟩
    · exact unreached last old
    · exact different rfl
  have old : ∀ start final, Relation.TransGen after start final → start ≠ source →
      Relation.TransGen before start final := by
    intro start final path away
    induction path with
    | single step =>
        rcases added _ _ step with old | ⟨same, _⟩
        · exact .single old
        · exact absurd same away
    | tail path step ih =>
        rcases added _ _ step with old | ⟨same, _⟩
        · exact ih.tail old
        · rw [same] at path
          exact absurd path (intoSource start)
  intro cycle
  by_cases same : node = source
  · rw [same] at cycle
    exact intoSource source cycle
  · exact acyclic node (old node node cycle same)

section Operate

variable {world after : World} {pid : Pid} {operation : Op} {reply : Reply operation}

theorem sees_kept (operated : World.operate pid operation world = some (reply, after))
    {viewer : Pid} {job : Uuid} (keeps : operation = .rollback → viewer ≠ pid)
    (sees : world.Sees viewer job) : after.Sees viewer job := by
  obtain ⟨row, seen⟩ := sees
  exact visible_kept operated keeps seen

theorem fresh_other (operated : World.operate pid operation world = some (reply, after))
    {owner : Pid} {job : Uuid} (different : owner ≠ pid) (fresh : world.Fresh owner job) :
    after.Fresh owner job := by
  obtain ⟨absent, row, held⟩ := fresh
  have same := held_kept operated different held
  exact ⟨by rw [same, absent], row, by rw [same, held]⟩

theorem fresh_own (operated : World.operate pid operation world = some (reply, after))
    (uncommitted : operation ≠ .commit) (kept : operation ≠ .rollback) {owner : Pid} {job : Uuid}
    (fresh : world.Fresh owner job) : after.Fresh owner job := by
  by_cases own : owner = pid
  · subst own
    obtain ⟨absent, row, held⟩ := fresh
    obtain ⟨same, now, still⟩ := own_kept operated uncommitted kept held
    exact ⟨by rw [same, absent], now, still⟩
  · exact fresh_other operated own fresh

theorem not_sees_fresh {viewer owner : Pid} {job : Uuid} (different : viewer ≠ owner)
    (fresh : world.Fresh owner job) : ¬ world.Sees viewer job := by
  obtain ⟨absent, row, held⟩ := fresh
  rintro ⟨seen, visible⟩
  have unheld : ∀ version, (world.jobs.slot job).holder ≠ some (viewer, version) := by
    intro version mine
    rw [held] at mine
    cases mine
    exact different rfl
  rw [Slot.visible_of_free unheld, absent] at visible
  cases visible

theorem known_operated (operated : World.operate pid operation world = some (reply, after))
    {state : Creation} {id : Uuid} (member : id ∈ (state.advance operation reply).known) :
    id ∈ state.known ∨ world.Sees pid id := by
  cases operation with
  | query query =>
      cases query with
      | job queried =>
          cases found : (reply : Option Job) with
          | none =>
              subst found
              exact .inl member
          | some row =>
              subst found
              rcases List.mem_cons.mp member with same | earlier
              · refine .inr ⟨row, ?_⟩
                rw [same, Table.slot_visible]
                exact congrArg Prod.fst (Option.some.inj operated)
              · exact .inl earlier
      | _ => exact .inl member
  | statement issued =>
      cases issued with
      | insertJob draft =>
          cases inserted : (reply : Option Job) with
          | none =>
              subst inserted
              exact .inl member
          | some row =>
              subst inserted
              exact .inl member
      | _ => exact .inl member
  | commit => cases member
  | rollback => cases member
  | _ => exact .inl member

theorem latest_operated (operated : World.operate pid operation world = some (reply, after))
    {state : Creation} {id : Uuid} {known : List Uuid}
    (latest : (state.advance operation reply).latest = some (id, known)) :
    state.latest = some (id, known) ∨ known = state.known ∧
      world.jobs.slot id = { committed := none, holder := none } ∧ after.Fresh pid id := by
  cases operation with
  | query query =>
      cases query with
      | job queried =>
          cases found : (reply : Option Job) with
          | none =>
              subst found
              exact .inl latest
          | some row =>
              subst found
              exact .inl latest
      | _ => exact .inl latest
  | statement issued =>
      cases issued with
      | insertJob draft =>
          cases inserted : (reply : Option Job) with
          | none =>
              subst inserted
              exact .inl latest
          | some row =>
              subst inserted
              have same : some (row.id, state.known) = some (id, known) := latest
              cases same
              simp only [World.operate, World.execute] at operated
              split at operated
              · obtain ⟨jobs, fresh, equal⟩ := Option.map_eq_some_iff.mp operated
                cases equal
                rcases Table.insert_slot fresh _ with ⟨different, _⟩ | ⟨_, empty, slot⟩
                · exact absurd rfl different
                · refine .inr ⟨rfl, empty, ?_⟩
                  rw [World.Fresh, slot, empty]
                  exact ⟨rfl, _, rfl⟩
              · split at operated <;> cases operated
      | _ => exact .inl latest
  | commit => cases latest
  | rollback => cases latest
  | _ => exact .inl latest

end Operate

section Step

variable {before : PlatformPool} {pid : Pid} {role : Role} {operation : Op}
  {next : Reply operation → Prog Unit} {reply : Reply operation} {world : World}

theorem creationOf_record (rest : Prog Unit) (queried : Pid) :
    creationOf queried (before.record pid role operation reply rest world).log =
      if pid = queried then (creationOf queried before.log).advance operation reply
      else creationOf queried before.log := rfl

theorem GraphKept.known_step (kept : GraphKept before)
    (operated : World.operate pid operation before.world = some (reply, world))
    (continues : operation ≠ .rollback) (rest : Prog Unit) :
    ∀ queried, ∀ id ∈ (creationOf queried
      (before.record pid role operation reply rest world).log).known, world.Sees queried id := by
  intro queried id member
  rw [creationOf_record] at member
  apply sees_kept operated (fun rolled => absurd rolled continues)
  split at member
  · rename_i own
    rcases known_operated operated member with earlier | sees
    · exact kept.known queried id earlier
    · exact own ▸ sees
  · exact kept.known queried id member

theorem GraphKept.target (kept : GraphKept before) {edge : JobDependency}
    (member : before.world.Edge edge) : ∃ viewer, before.world.Sees viewer edge.dependsOn := by
  rcases member with stored | ⟨owner, held⟩
  · obtain ⟨_, row, committed⟩ := kept.committed edge stored
    cases current : (before.world.jobs.slot edge.dependsOn).holder with
    | none => exact ⟨0, row, by rw [Slot.visible_of_free (by simp [current]), committed]⟩
    | some entry =>
        obtain ⟨holder, version⟩ := entry
        exact ⟨holder, version, Slot.visible_of_held current⟩
  · exact ⟨owner, (kept.pending owner edge held).2⟩

/-- A new edge of the step leads from the job inserted last to a job read before it. -/
def Extends (before : PlatformPool) (pid : Pid) (world : World) : Prop :=
  ∀ edge, world.Edge edge → before.world.Edge edge ∨ before.world.Sees pid edge.dependsOn ∧
    ∃ known, (creationOf pid before.log).latest = some (edge.job, known) ∧ edge.dependsOn ∈ known

theorem GraphKept.latest_step (kept : GraphKept before)
    (operated : World.operate pid operation before.world = some (reply, world))
    (uncommitted : operation ≠ .commit) (continues : operation ≠ .rollback)
    (grows : Extends before pid world) (rest : Prog Unit) : ∀ queried id known, (creationOf queried
      (before.record pid role operation reply rest world).log).latest = some (id, known) →
    world.Fresh queried id ∧ id ∉ known ∧ ∀ edge, world.Edge edge → edge.dependsOn ≠ id := by
  have earlier : ∀ queried id known, (creationOf queried before.log).latest = some (id, known) →
      world.Fresh queried id ∧ id ∉ known ∧ ∀ edge, world.Edge edge → edge.dependsOn ≠ id := by
    intro queried id known latest
    obtain ⟨fresh, unknown, unreached⟩ := kept.latest queried id known latest
    refine ⟨fresh_own operated uncommitted continues fresh, unknown, ?_⟩
    intro edge member same
    rcases grows edge member with old | ⟨sees, read, inserted, among⟩
    · exact unreached edge old same
    · by_cases own : pid = queried
      · subst own
        rw [latest] at inserted
        cases inserted
        exact unknown (same ▸ among)
      · exact not_sees_fresh own fresh (same ▸ sees)
  intro queried id known latest
  rw [creationOf_record] at latest
  split at latest
  · rename_i own
    subst own
    rcases latest_operated operated latest with old | ⟨read, empty, fresh⟩
    · exact earlier pid id known old
    · have unseen : ∀ viewer, ¬ before.world.Sees viewer id := by
        rintro viewer ⟨row, seen⟩
        rw [empty] at seen
        cases seen
      refine ⟨fresh, fun member => ?_, fun edge member same => ?_⟩
      · rw [read] at member
        exact unseen pid (kept.known pid id member)
      · rcases grows edge member with old | ⟨sees, _⟩
        · obtain ⟨viewer, sees⟩ := kept.target old
          exact unseen viewer (same ▸ sees)
        · exact unseen pid (same ▸ sees)
  · exact earlier queried id known latest

theorem GraphKept.insert (kept : GraphKept before) {id : Uuid} {parents : List Uuid}
    {next : Reply (.statement (.insertDependencies id parents)) → Prog Unit} {added : Bool}
    (operated : World.operate pid (.statement (.insertDependencies id parents)) before.world =
      some (added, world))
    (permitted : creationProtocol.allowed (creationOf pid before.log)
      (.statement (.insertDependencies id parents)))
    (seen : ∀ parent ∈ parents, (before.world.jobs.visible pid parent).isSome)
    (appended : world.dependencies =
      before.world.dependencies.append pid (parents.map fun parent => ⟨id, parent⟩)) :
    GraphKept (before.record pid role (.statement (.insertDependencies id parents)) added
      (next added) world) := by
  obtain ⟨known, latest, read⟩ := permitted
  obtain ⟨fresh, unknown, unreached⟩ := kept.latest pid id known latest
  have sees : ∀ parent ∈ parents, before.world.Sees pid parent := by
    intro parent member
    obtain ⟨row, visible⟩ := Option.isSome_iff_exists.mp (seen parent member)
    exact ⟨row, by rw [Table.slot_visible, visible]⟩
  have edges : ∀ edge, world.Edge edge →
      before.world.Edge edge ∨ edge.job = id ∧ edge.dependsOn ∈ parents := by
    intro edge member
    rw [World.Edge, appended] at member
    rcases member with stored | ⟨owner, held⟩
    · exact .inl (.inl stored)
    · simp only [Journal.append] at held
      split at held
      · rename_i own
        rcases List.mem_append.mp held with old | new
        · exact .inl (.inr ⟨pid, old⟩)
        · obtain ⟨parent, member, rfl⟩ := List.mem_map.mp new
          exact .inr ⟨rfl, member⟩
      · exact .inl (.inr ⟨owner, held⟩)
  refine ⟨?_, ?_, kept.known_step operated (by simp) _,
    kept.latest_step operated (by simp) (by simp) ?_ _, ?_⟩
  · intro edge member
    rw [Pool.record_world, appended] at member
    obtain ⟨⟨child, stored⟩, parent, present⟩ := kept.committed edge member
    exact ⟨committed_kept operated stored, committed_kept operated present⟩
  · intro owner edge member
    rw [Pool.record_world, appended] at member
    have old : edge ∈ before.world.dependencies.pending owner →
        world.Fresh owner edge.job ∧ world.Sees owner edge.dependsOn := by
      intro member
      obtain ⟨unborn, target⟩ := kept.pending owner edge member
      exact ⟨fresh_own operated (by simp) (by simp) unborn, sees_kept operated (by simp) target⟩
    simp only [Journal.append] at member
    split at member
    · rename_i own
      rcases List.mem_append.mp member with earlier | new
      · exact old (own ▸ earlier)
      · obtain ⟨parent, among, rfl⟩ := List.mem_map.mp new
        rw [own]
        exact ⟨fresh_own operated (by simp) (by simp) fresh,
          sees_kept operated (by simp) (sees parent among)⟩
    · exact old member
  · intro edge member
    rcases edges edge member with old | ⟨same, among⟩
    · exact .inl old
    · exact .inr ⟨sees _ among, known, same ▸ latest, read _ among⟩
  · have added : ∀ job parent, world.DependsOn job parent →
        before.world.DependsOn job parent ∨ job = id ∧ parent ≠ id := by
      intro job parent depends
      rcases edges _ depends with old | ⟨same, among⟩
      · exact .inl old
      · refine .inr ⟨same, fun loop => unknown ?_⟩
        rw [← loop]
        exact read parent among
    exact acyclic_of_source kept.acyclic added fun job depends => unreached _ depends rfl

theorem GraphKept.commit (kept : GraphKept before) {next : Reply .commit → Prog Unit}
    (operated : World.operate pid .commit before.world = some ((), world))
    (committed : world.dependencies = before.world.dependencies.commit pid) :
    GraphKept (before.record pid role .commit () (next ()) world) := by
  have slots : ∀ job, (world.jobs.slot job).committed = (before.world.jobs.slot job).visible pid := by
    intro job
    rcases operate_slot operated job with ⟨_, writes, _⟩ | ⟨_, slot⟩ | ⟨ends, _⟩ | ⟨_, ends, _⟩
    · exact writes.elim
    · rw [slot, Slot.commit_committed]
    · cases ends
    · exact absurd rfl ends
  have edges : ∀ edge, world.Edge edge → before.world.Edge edge := by
    intro edge member
    rw [World.Edge, committed] at member
    rcases member with stored | ⟨owner, held⟩
    · rcases List.mem_append.mp stored with old | own
      · exact .inl old
      · exact .inr ⟨pid, own⟩
    · simp only [Journal.commit] at held
      split at held
      · cases held
      · exact .inr ⟨owner, held⟩
  refine ⟨?_, ?_, kept.known_step operated (by simp) _, ?_, ?_⟩
  · intro edge member
    rw [Pool.record_world, committed] at member
    rcases List.mem_append.mp member with old | own
    · obtain ⟨⟨child, stored⟩, parent, present⟩ := kept.committed edge old
      exact ⟨committed_kept operated stored, committed_kept operated present⟩
    · obtain ⟨⟨_, row, held⟩, target, seen⟩ := kept.pending pid edge own
      exact ⟨⟨row, by rw [Pool.record_world, slots, Slot.visible_of_held held]⟩,
        target, by rw [Pool.record_world, slots, seen]⟩
  · intro owner edge member
    rw [Pool.record_world, committed] at member
    simp only [Journal.commit] at member
    split at member
    · cases member
    · rename_i different
      obtain ⟨unborn, target⟩ := kept.pending owner edge member
      exact ⟨fresh_other operated different unborn, sees_kept operated (by simp) target⟩
  · intro queried id known latest
    rw [creationOf_record] at latest
    split at latest
    · cases latest
    · rename_i different
      obtain ⟨fresh, unknown, unreached⟩ := kept.latest queried id known latest
      exact ⟨fresh_other operated (Ne.symm different) fresh, unknown,
        fun edge member => unreached edge (edges edge member)⟩
  · intro job cycle
    exact kept.acyclic job (Relation.TransGen.mono (fun _ _ depends => edges _ depends) _ _ cycle)

theorem GraphKept.rollback (kept : GraphKept before) {next : Reply .rollback → Prog Unit}
    (operated : World.operate pid .rollback before.world = some ((), world))
    (undone : world.dependencies = before.world.dependencies.rollback pid) :
    GraphKept (before.record pid role .rollback () (next ()) world) := by
  have edges : ∀ edge, world.Edge edge → before.world.Edge edge := by
    intro edge member
    rw [World.Edge, undone] at member
    rcases member with stored | ⟨owner, held⟩
    · exact .inl stored
    · simp only [Journal.rollback] at held
      split at held
      · cases held
      · exact .inr ⟨owner, held⟩
  refine ⟨?_, ?_, ?_, ?_, ?_⟩
  · intro edge member
    rw [Pool.record_world, undone] at member
    obtain ⟨⟨child, stored⟩, parent, present⟩ := kept.committed edge member
    exact ⟨committed_kept operated stored, committed_kept operated present⟩
  · intro owner edge member
    rw [Pool.record_world, undone] at member
    simp only [Journal.rollback] at member
    split at member
    · cases member
    · rename_i different
      obtain ⟨unborn, target⟩ := kept.pending owner edge member
      exact ⟨fresh_other operated different unborn, sees_kept operated (fun _ => different) target⟩
  · intro queried id member
    rw [creationOf_record] at member
    split at member
    · cases member
    · rename_i different
      exact sees_kept operated (fun _ => Ne.symm different) (kept.known queried id member)
  · intro queried id known latest
    rw [creationOf_record] at latest
    split at latest
    · cases latest
    · rename_i different
      obtain ⟨fresh, unknown, unreached⟩ := kept.latest queried id known latest
      exact ⟨fresh_other operated (Ne.symm different) fresh, unknown,
        fun edge member => unreached edge (edges edge member)⟩
  · intro job cycle
    exact kept.acyclic job (Relation.TransGen.mono (fun _ _ depends => edges _ depends) _ _ cycle)

theorem GraphKept.other (kept : GraphKept before)
    (operated : World.operate pid operation before.world = some (reply, world))
    (uncommitted : operation ≠ .commit) (continues : operation ≠ .rollback)
    (same : world.dependencies = before.world.dependencies) (rest : Prog Unit) :
    GraphKept (before.record pid role operation reply rest world) := by
  have edges : ∀ edge, world.Edge edge → before.world.Edge edge := by
    intro edge member
    rw [World.Edge, same] at member
    exact member
  refine ⟨?_, ?_, kept.known_step operated continues _,
    kept.latest_step operated uncommitted continues (fun edge member => .inl (edges edge member)) _, ?_⟩
  · intro edge member
    rw [Pool.record_world, same] at member
    obtain ⟨⟨child, stored⟩, parent, present⟩ := kept.committed edge member
    exact ⟨committed_kept operated stored, committed_kept operated present⟩
  · intro owner edge member
    rw [Pool.record_world, same] at member
    obtain ⟨unborn, target⟩ := kept.pending owner edge member
    exact ⟨fresh_own operated uncommitted continues unborn,
      sees_kept operated (fun rolled => absurd rolled continues) target⟩
  · intro job cycle
    exact kept.acyclic job (Relation.TransGen.mono (fun _ _ depends => edges _ depends) _ _ cycle)

theorem GraphKept.of_same {after : PlatformPool} (kept : GraphKept before)
    (sameLog : after.log = before.log)
    (sameSlots : ∀ job, after.world.jobs.slot job = before.world.jobs.slot job)
    (sameEdges : after.world.dependencies = before.world.dependencies) : GraphKept after := by
  have sees : ∀ viewer job, after.world.Sees viewer job ↔ before.world.Sees viewer job := by
    intro viewer job
    rw [World.Sees, World.Sees, sameSlots]
  have fresh : ∀ owner job, after.world.Fresh owner job ↔ before.world.Fresh owner job := by
    intro owner job
    rw [World.Fresh, World.Fresh, sameSlots]
  have edges : ∀ edge, after.world.Edge edge ↔ before.world.Edge edge := by
    intro edge
    rw [World.Edge, World.Edge, sameEdges]
  refine ⟨?_, ?_, ?_, ?_, ?_⟩
  · simpa only [sameEdges, sameSlots] using kept.committed
  · simpa only [sameEdges, fresh, sees] using kept.pending
  · simpa only [sameLog, sees] using kept.known
  · simpa only [sameLog, fresh, edges] using kept.latest
  · intro job cycle
    exact kept.acyclic job (Relation.TransGen.mono (fun _ _ depends => (edges _).mp depends) _ _ cycle)

end Step

theorem accept_edges {world after : World} {role : Role} (accepted : world.accept role = some after) :
    after.dependencies = world.dependencies := by
  obtain ⟨_, rfl⟩ := accept_eq accepted
  rfl

theorem change_edges {world after : World} {change : Change}
    (changed : world.change change = some after) : after.dependencies = world.dependencies := by
  obtain ⟨_, _, _, _, _, rfl⟩ := change_cases changed
  rfl

theorem graph_kept {settings : Settings} {pool : PlatformPool} (reachable : Reachable settings pool) :
    GraphKept pool := by
  obtain ⟨outside, reached⟩ := reachable
  refine reached.invariant (motive := GraphKept) ?_ ?_ ?_ ?_
  · have empty : ∀ edge, ¬ (World.fresh outside).Edge edge := by
      intro edge member
      rcases member with stored | ⟨_, held⟩
      · cases stored
      · cases held
    refine ⟨fun _ member => (by cases member), fun _ _ member => (by cases member),
      fun _ _ member => (by cases member), fun _ _ _ latest => (by cases latest), ?_⟩
    intro job cycle
    obtain ⟨last, _, step⟩ := Relation.TransGen.tail'_iff.mp cycle
    exact empty _ step
  · intro before pid role world _ kept _ accepted
    exact kept.of_same rfl (fun job => by rw [Pool.start_world, accept_jobs accepted])
      (accept_edges accepted)
  · intro before pid role operation next reply world earlier kept found operated
    have permitted := creation_permits ⟨outside, earlier⟩ found
    rcases operate_edges operated with ⟨id, parents, rfl, _, seen, _, appended⟩ |
      ⟨rfl, committed⟩ | ⟨rfl, undone⟩ | ⟨uncommitted, continues, same⟩
    · exact kept.insert operated permitted seen appended
    · exact kept.commit operated committed
    · exact kept.rollback operated undone
    · exact kept.other operated uncommitted continues same _
  · intro before change world _ kept changed
    exact kept.of_same rfl (change_slot changed) (change_edges changed)

/-- The committed edges of a job. -/
def World.declaredParents (world : World) (job : Uuid) : List Uuid :=
  (world.dependencies.committed.filter fun edge => edge.job = job).map JobDependency.dependsOn

theorem GraphKept.parentsOf {pool : PlatformPool} (kept : GraphKept pool) {job : Uuid} {row : Job}
    (stored : (pool.world.jobs.slot job).committed = some row) (pid : Pid) :
    pool.world.parentsOf pid job = pool.world.declaredParents job := by
  have none : (pool.world.dependencies.pending pid).filter (fun edge => edge.job = job) = [] := by
    rw [List.filter_eq_nil_iff]
    intro edge member same
    obtain ⟨⟨absent, _⟩, _⟩ := kept.pending pid edge member
    rw [of_decide_eq_true same, stored] at absent
    cases absent
  rw [World.parentsOf, World.declaredParents, Journal.visible, List.filter_append, none,
    List.append_nil]

theorem GraphKept.parent_stored {pool : PlatformPool} (kept : GraphKept pool) {job parent : Uuid}
    (member : parent ∈ pool.world.declaredParents job) :
    ∃ row, (pool.world.jobs.slot parent).committed = some row := by
  obtain ⟨edge, declared, rfl⟩ := List.mem_map.mp member
  exact (kept.committed edge (List.mem_of_mem_filter declared)).2

theorem declaredParents_kept {settings : Settings} {start pool : PlatformPool} {job : Uuid} {row : Job}
    (reachable : Reachable settings start) (reached : (platform settings).Reaches start pool)
    (stored : (start.world.jobs.slot job).committed = some row) :
    (∃ now, (pool.world.jobs.slot job).committed = some now) ∧
      pool.world.declaredParents job = start.world.declaredParents job := by
  refine reached.invariant (motive := fun pool =>
    (∃ now, (pool.world.jobs.slot job).committed = some now) ∧
      pool.world.declaredParents job = start.world.declaredParents job) ?_ ?_ ?_ ?_
  · exact ⟨⟨row, stored⟩, rfl⟩
  · rintro before pid role world _ ⟨present, same⟩ _ accepted
    rw [Pool.start_world, World.declaredParents, accept_edges accepted, accept_jobs accepted]
    exact ⟨present, same⟩
  · rintro before pid role operation next reply world earlier ⟨⟨now, present⟩, same⟩ _ operated
    refine ⟨committed_kept operated present, ?_⟩
    rw [Pool.record_world, ← same, World.declaredParents, World.declaredParents]
    rcases operate_edges operated with ⟨id, parents, _, _, _, _, appended⟩ | ⟨_, committed⟩ |
      ⟨_, undone⟩ | ⟨_, _, equal⟩
    · rw [appended]
      rfl
    · have kept := graph_kept (reachable.trans earlier)
      rw [committed]
      exact kept.parentsOf present pid
    · rw [undone]
      rfl
    · rw [equal]
  · rintro before change world _ ⟨present, same⟩ changed
    rw [World.declaredParents, change_edges changed, change_slot changed]
    exact ⟨present, same⟩

theorem promotable_seen {settings : Settings} {pool : PlatformPool}
    (reachable : Reachable settings pool) {pid : Pid} {cursor : Option (Time × Uuid)} {row : Job}
    (member : row ∈ pool.world.promotableWaiting pid cursor) :
    pool.world.Sees pid row.id ∧ pool.world.unmetParents pid row.id = [] := by
  have eligible := (List.mem_insertionSort _).mp (List.mem_of_mem_take member)
  obtain ⟨listed, condition⟩ := List.mem_filter.mp eligible
  simp only [Bool.and_eq_true, decide_eq_true_eq, List.isEmpty_iff] at condition
  obtain ⟨key, _, seen⟩ := List.mem_filterMap.mp listed
  rw [← Table.slot_visible] at seen
  have keyed : row.id = key := (rows_keyed reachable key).visible seen
  rw [keyed]
  exact ⟨⟨row, seen⟩, keyed ▸ condition.1.2⟩

end IncidentPlatform.Platform

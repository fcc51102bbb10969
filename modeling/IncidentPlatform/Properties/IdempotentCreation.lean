import IncidentPlatform.Platform.Creations

namespace IncidentPlatform.Properties

open Concurrency Models Platform Repositories Services Storage

/-! # One job per idempotency key

The call whose INSERT gets past the unique index writes everything else of the
job in the same transaction, and every other call with the key writes nothing.
-/

variable {settings : Settings} {pool before : PlatformPool} {request : CreateJobRequest} {acts : List Act}
  {job : Job} {status : JobStatus} {pid : Pid}

/-- The audit row of `create_job`. -/
def createdEntry (request : CreateJobRequest) (status : JobStatus) (job : Job) : AuditEntry where
  action := "job.created"
  tenantId := request.tenantId
  userId := some request.userId
  principalId := some request.userId
  jobId := some job.id
  resourceType := some "job"
  resourceId := some (toString job.id)
  extraData := .object [
    ("type", .string request.jobType),
    ("priority", .number (toString request.priority)),
    ("dependencies", .array (request.dependencies.map fun id => .string (toString id))),
    ("initial_status", .string status.text)]

theorem auditCreated_eq :
    auditCreated request job status = exec (.insertAudit (createdEntry request status job)) := by
  simp [auditCreated, auditLog, createdEntry]

/-- The `job.submitted` row of `create_job`. -/
def dispatchOf (request : CreateJobRequest) (job : Job) : Op :=
  .statement (.insertOutbox request.tenantId request.userId .submitted
    (.submitted request.tenantId job.id request.userId request.jobType request.enrichedPayload
      request.priority job.traceId))

def dependentActs (request : CreateJobRequest) (status : JobStatus) (job : Job) : List Act :=
  (if request.dependencies.isEmpty then []
    else [⟨.statement (.insertDependencies job.id request.dependencies), true⟩]) ++
  ⟨.statement (.insertAudit (createdEntry request status job)), ()⟩ ::
    if status = .pending then [⟨dispatchOf request job, ()⟩] else []

def ChangesNothing (act : Act) : Prop :=
  ∀ pid world after, World.operate pid act.1 world = some (act.2, after) → after = world

theorem changesNothing_of_looks {act : Act} (looks : act.1.Looks) : ChangesNothing act := by
  obtain ⟨operation, reply⟩ := act
  intro pid world after operated
  cases operation with
  | query query =>
      cases operated
      rfl
  | command command =>
      cases command with
      | pausedFlags ids =>
          cases operated
          rfl
      | _ => exact looks.elim
  | _ => exact looks.elim

theorem insertionOf_looks {act : Act} (looks : act.1.Looks) : insertionOf act = none := by
  obtain ⟨operation, reply⟩ := act
  cases operation with
  | statement issued => exact looks.elim
  | _ => rfl

theorem changesNothing_of_refused (draft : JobDraft) :
    ChangesNothing ⟨.statement (.insertJob draft), none⟩ := by
  intro pid world after operated
  simp only [World.operate, World.execute] at operated
  split at operated
  · obtain ⟨jobs, _, equal⟩ := Option.map_eq_some_iff.mp operated
    cases equal
  · split at operated
    · cases operated
      rfl
    · contradiction

theorem finishCreate_yields {made : Job}
    (yields : (finishCreate request status job).Yields acts (.ok made)) :
    made = job ∧ acts = dependentActs request status job := by
  obtain ⟨first, second, added, rfl, edges, rest⟩ := Program.yields_bind_iff.mp yields
  have tail : made = job ∧ added = true ∧
      second = ⟨.statement (.insertAudit (createdEntry request status job)), ()⟩ ::
        if status = .pending then [⟨dispatchOf request job, ()⟩] else [] := by
    split at rest
    · rename_i accepted
      rw [auditCreated_eq] at rest
      obtain ⟨_, others, rfl, later⟩ := Program.yields_call_iff.mp rest
      split at later
      · rename_i pending
        obtain ⟨_, last, rfl, done⟩ := Program.yields_call_iff.mp later
        obtain ⟨rfl, equal⟩ := Program.yields_done_iff.mp done
        cases equal
        exact ⟨rfl, accepted, by rw [if_pos pending]; rfl⟩
      · rename_i waiting
        obtain ⟨rfl, equal⟩ := Program.yields_done_iff.mp later
        cases equal
        exact ⟨rfl, accepted, by rw [if_neg waiting]⟩
    · obtain ⟨_, equal⟩ := Program.yields_done_iff.mp rest
      cases equal
  obtain ⟨rfl, rfl, rfl⟩ := tail
  refine ⟨rfl, ?_⟩
  unfold addDependencies at edges
  unfold dependentActs
  split at edges
  · rename_i none
    obtain ⟨rfl, _⟩ := Program.yields_done_iff.mp edges
    rw [if_pos none]
  · rename_i some
    obtain ⟨reply, others, rfl, done⟩ := Program.yields_call_iff.mp edges
    obtain ⟨rfl, rfl⟩ := Program.yields_done_iff.mp done
    rw [if_neg some]

theorem idempotencyWinner_yields (yields : (idempotencyWinner request).Yields acts (.ok job)) :
    ∃ key, request.idempotencyKey = some key ∧
      acts = [⟨.query (.jobByIdempotencyKey key request.tenantId), some job⟩] := by
  unfold idempotencyWinner at yields
  split at yields
  · obtain ⟨_, equal⟩ := Program.yields_done_iff.mp yields
    cases equal
  · rename_i key keyed
    obtain ⟨found, others, rfl, rest⟩ := Program.yields_call_iff.mp yields
    cases found with
    | none =>
        obtain ⟨_, equal⟩ := Program.yields_done_iff.mp rest
        cases equal
    | some winner =>
        obtain ⟨rfl, equal⟩ := Program.yields_done_iff.mp rest
        cases equal
        exact ⟨key, keyed, rfl⟩

theorem findIdempotent_yields (yields : (findIdempotent request).Yields acts (some job)) :
    ∃ key, request.idempotencyKey = some key ∧
      acts = [⟨.query (.jobByIdempotencyKey key request.tenantId), some job⟩] := by
  unfold findIdempotent at yields
  split at yields
  · obtain ⟨_, equal⟩ := Program.yields_done_iff.mp yields
    cases equal
  · rename_i key keyed
    split at yields
    · obtain ⟨_, equal⟩ := Program.yields_done_iff.mp yields
      cases equal
    · obtain ⟨found, others, rfl, rest⟩ := Program.yields_call_iff.mp yields
      obtain ⟨rfl, rfl⟩ := Program.yields_done_iff.mp rest
      exact ⟨key, keyed, rfl⟩

theorem createJob_yields (yields : (createJob settings request).Yields acts (.ok job)) :
    (∃ key, request.idempotencyKey = some key ∧
      (⟨.query (.jobByIdempotencyKey key request.tenantId), some job⟩ : Act) ∈ acts ∧
      ∀ act ∈ acts, insertionOf act = none ∧ ChangesNothing act) ∨
    ∃ looks status, (∀ act ∈ looks, act.1.Looks) ∧
      acts = looks ++ ⟨.statement (.insertJob (request.draft settings status)), some job⟩ ::
        dependentActs request status job := by
  obtain ⟨first, _, existing, rfl, found, unfound⟩ := Program.yields_bind_iff.mp yields
  have looked := (findIdempotent_looks request).yields found
  have idle : ∀ {act : Act}, act.1.Looks → insertionOf act = none ∧ ChangesNothing act :=
    fun looks => ⟨insertionOf_looks looks, changesNothing_of_looks looks⟩
  cases existing with
  | some existing =>
      obtain ⟨rfl, equal⟩ := Program.yields_done_iff.mp unfound
      cases equal
      obtain ⟨key, keyed, rfl⟩ := findIdempotent_yields found
      exact .inl ⟨key, keyed, by simp, fun act member => idle (looked act (by simpa using member))⟩
  | none =>
      obtain ⟨second, _, loaded, rfl, loads, ready⟩ := Program.yields_bind_iff.mp unfound
      have loading := (loadParents_looks request.dependencies).yields loads
      cases loaded with
      | error error =>
          obtain ⟨_, equal⟩ := Program.yields_done_iff.mp ready
          cases equal
      | ok parents =>
          obtain ⟨third, _, status, rfl, probes, inserts⟩ := Program.yields_bind_iff.mp ready
          have probing := (initialStatus_looks parents).yields probes
          obtain ⟨inserted, _, rfl, ending⟩ := Program.yields_call_iff.mp inserts
          have looks : ∀ act ∈ first ++ second ++ third, act.1.Looks := by
            intro act member
            rcases List.mem_append.mp member with member | member
            · rcases List.mem_append.mp member with member | member
              · exact looked act member
              · exact loading act member
            · exact probing act member
          cases inserted with
          | some row =>
              obtain ⟨rfl, rfl⟩ := finishCreate_yields ending
              exact .inr ⟨first ++ second ++ third, status, looks, by simp⟩
          | none =>
              obtain ⟨key, keyed, rfl⟩ := idempotencyWinner_yields ending
              refine .inl ⟨key, keyed, by simp, fun act member => ?_⟩
              simp only [List.mem_append, List.mem_cons, List.not_mem_nil, or_false] at member
              rcases member with member | member | member | rfl | rfl
              · exact idle (looked act member)
              · exact idle (loading act member)
              · exact idle (probing act member)
              · exact ⟨rfl, changesNothing_of_refused _⟩
              · exact idle trivial

/-- A request commits what its handler returned, and rolls back what raised. -/
def endsAs {α : Type} (handler : Prog (Except ServiceError α)) (trace : List Act) : Op → Prop
  | .commit => ∃ value, handler.Yields trace.reverse (.ok value)
  | .rollback => ∃ error, handler.Yields trace.reverse (.error error)
  | _ => True

theorem request_answers {α : Type} {handler : Prog (Except ServiceError α)}
    (uses : handler.Uses fun operation => operation.ends = false) :
    (Services.request handler).Follows (tracing (endsAs handler)) [] fun _ _ => True := by
  suffices general : ∀ (rest : Prog (Except ServiceError α)) (trace : List Act),
      rest.Uses (fun operation => operation.ends = false) →
      (∀ acts value, rest.Yields acts value → handler.Yields (trace.reverse ++ acts) value) →
      (Services.request rest).Follows (tracing (endsAs handler)) trace fun _ _ => True from
    general handler [] uses fun acts value yields => yields
  intro rest
  induction rest with
  | done value =>
      intro trace _ continues
      have whole := continues [] value (.done value)
      rw [List.append_nil] at whole
      cases value with
      | error error => exact ⟨⟨error, whole⟩, fun _ => trivial⟩
      | ok value => exact ⟨⟨value, whole⟩, fun _ => trivial⟩
  | call operation next ih =>
      intro trace uses continues
      refine ⟨?_, fun reply => ?_⟩
      · obtain ⟨uncommitted, opened⟩ := continues_of_open uses.1
        cases operation with
        | commit => exact absurd rfl uncommitted
        | rollback => exact absurd rfl opened
        | _ => exact trivial
      · change (Services.request (next reply)).Follows (tracing (endsAs handler))
          (extendTrace trace operation reply) fun _ _ => True
        rw [extendTrace_of_open uses.1]
        refine ih reply _ (uses.2 reply) fun acts value yields => ?_
        rw [List.reverse_cons, List.append_assoc]
        exact continues _ value (.call yields)

def answerRule (settings : Settings) : Role → List Act → Op → Prop
  | .createJob request => endsAs (createJob settings request)
  | _ => fun _ _ => True

theorem program_answers (settings : Settings) (role : Role) :
    (role.program settings).Follows (tracing (answerRule settings role)) [] fun _ _ => True := by
  have free : ∀ program : Prog Unit, program.Follows (tracing fun _ _ => True) [] fun _ _ => True := by
    intro program
    refine follows_of_uses (motive := fun _ => True) program.uses_any trivial ?_
    exact fun _ _ _ _ => ⟨trivial, fun _ => trivial⟩
  cases role with
  | createJob request =>
      refine request_answers ((createJob_drafts settings request).mono fun operation drafts => ?_)
      cases operation <;> first
        | rfl
        | exact drafts.elim
  | _ => exact free _

/-- The call of `pid` has returned `job` and is committed; `acts` is all it did. -/
structure Returned (settings : Settings) (pool : PlatformPool) (pid : Pid) (request : CreateJobRequest)
    (acts : List Act) (job : Job) : Prop where
  committed : ∃ newer older entry, pool.log = newer ++ entry :: older ∧ entry.pid = pid ∧
    entry.role = .createJob request ∧ entry.operation = .commit ∧ (traceOf pid older).reverse = acts
  yields : (createJob settings request).Yields acts (.ok job)

theorem Returned.later {after : PlatformPool} (returned : Returned settings before pid request acts job)
    (newest : List PlatformEntry) (grown : after.log = newest ++ before.log) :
    Returned settings after pid request acts job := by
  obtain ⟨newer, older, entry, split, rest⟩ := returned.committed
  exact ⟨⟨newest ++ newer, older, entry, by rw [grown, split, List.append_assoc], rest⟩, returned.yields⟩

theorem returned_of_commit (reachable : Reachable settings pool) {newer older : List PlatformEntry}
    {entry : PlatformEntry} (split : pool.log = newer ++ entry :: older)
    (creates : entry.role = .createJob request) (commits : entry.operation = .commit) :
    ∃ job, Returned settings pool entry.pid request (traceOf entry.pid older).reverse job := by
  obtain ⟨before, earlier, _, _, ⟨next, stood⟩, _, rfl⟩ := reachable.moment_at split
  have kept := rule_kept (program_answers settings) earlier stood
  rw [creates, commits] at kept
  obtain ⟨job, yields⟩ := kept
  exact ⟨job, ⟨newer, before.log, entry, split, rfl, creates, commits, rfl⟩, yields⟩

theorem Returned.moment (reachable : Reachable settings pool)
    (returned : Returned settings pool pid request acts job) :
    ∃ (start after : PlatformPool) (next : Unit → Prog Unit) (world : World), Reachable settings start ∧
      acts = (traceOf pid start.log).reverse ∧
      World.operate pid .commit start.world = some ((), world) ∧
      after = start.record pid (.createJob request) .commit () (next ()) world ∧
      Reachable settings after ∧ (platform settings).Reaches after pool := by
  obtain ⟨newer, older, ⟨owner, role, operation, reply, read⟩, split, rfl, creates, commits, rfl⟩ :=
    returned.committed
  obtain ⟨before, next, world, earlier, rfl, _, _, operated, later, onward⟩ :=
    reachable.moment_after split
  cases (creates : role = _)
  cases (commits : operation = _)
  exact ⟨before, _, next, world, earlier, rfl, operated, rfl, later, onward⟩

theorem commit_stored {start : PlatformPool} {world : World} {id : Uuid}
    (operated : World.operate pid .commit start.world = some ((), world)) :
    (world.jobs.slot id).committed = (start.world.jobs.slot id).visible pid := by
  cases operated
  rw [World.commit, Table.commit_slot, Slot.commit_committed]

theorem commit_journals {start : PlatformPool} {world : World}
    (operated : World.operate pid .commit start.world = some ((), world)) :
    world.dependencies.committed =
        start.world.dependencies.committed ++ start.world.dependencies.pending pid ∧
      world.audit.committed = start.world.audit.committed ++ start.world.audit.pending pid := by
  cases operated
  exact ⟨rfl, rfl⟩

theorem Returned.shown (reachable : Reachable settings pool)
    (returned : Returned settings pool pid request acts job) {key : String}
    (keyed : request.idempotencyKey = some key) :
    ∃ act ∈ acts, shownBy act = some job ∧ keyOf job = (request.tenantId, some key) := by
  obtain ⟨start, _, _, _, earlier, rfl, _⟩ := returned.moment reachable
  rcases createJob_yields returned.yields with ⟨carried, equal, found, _⟩ | ⟨looks, status, _, whole⟩
  · rw [keyed] at equal
    cases equal
    refine ⟨_, found, rfl, ?_⟩
    obtain ⟨before, _, _, _, _, _, world, operated⟩ := earlier.act_moment (List.mem_reverse.mp found)
    have answered : (before.world.jobs.rows pid).find? (fun row =>
        row.idempotencyKey = some key && row.tenantId = request.tenantId) = some job :=
      congrArg Prod.fst (Option.some.inj operated)
    have carries := List.find?_some answered
    simp only [Bool.and_eq_true, decide_eq_true_eq] at carries
    rw [keyOf, carries.1, carries.2]
  · have inserted : (⟨.statement (.insertJob (request.draft settings status)), some job⟩ : Act) ∈
        (traceOf pid start.log).reverse := by
      rw [whole]
      simp
    refine ⟨_, inserted, rfl, ?_⟩
    obtain ⟨before, _, _, _, _, _, world, operated⟩ := earlier.act_moment (List.mem_reverse.mp inserted)
    rw [(insertJob_slot operated).1, ← keyed]
    rfl

theorem Returned.stored (reachable : Reachable settings pool)
    (returned : Returned settings pool pid request acts job) {key : String}
    (keyed : request.idempotencyKey = some key) :
    ∃ row, pool.world.jobs.committed job.id = some row ∧ keyOf row = (request.tenantId, some key) := by
  obtain ⟨act, member, shows, carries⟩ := returned.shown reachable keyed
  obtain ⟨start, after, next, world, earlier, rfl, operated, rfl, later, onward⟩ :=
    returned.moment reachable
  obtain ⟨row, seen, same⟩ := shown_kept earlier (List.mem_reverse.mp member) shows
  rw [← commit_stored operated] at seen
  obtain ⟨now, stored, equal⟩ := stored_key_later later onward seen
  exact ⟨now, stored, equal.trans (same.trans carries)⟩

theorem Returned.inserting (returned : Returned settings pool pid request acts job)
    (inserts : insertions acts ≠ []) : ∃ looks status, (∀ act ∈ looks, act.1.Looks) ∧
      acts = looks ++ ⟨.statement (.insertJob (request.draft settings status)), some job⟩ ::
        dependentActs request status job := by
  rcases createJob_yields returned.yields with ⟨_, _, _, idle⟩ | whole
  · refine absurd (List.filterMap_eq_nil_iff.mpr fun act member => ?_) inserts
    exact (idle act member).1
  · exact whole

theorem looks_flatMap {Row : Type} {rowsOf : Act → List Row} {looks : List Act}
    (looking : ∀ act ∈ looks, act.1.Looks) (none : ∀ act : Act, act.1.Looks → rowsOf act = []) :
    looks.flatMap rowsOf = [] :=
  List.flatMap_eq_nil_iff.mpr fun act member => none act (looking act member)

theorem edgesOf_looks (act : Act) (looks : act.1.Looks) : edgesOf act = [] := by
  obtain ⟨operation, reply⟩ := act
  cases operation with
  | statement issued => exact looks.elim
  | _ => rfl

theorem auditsOf_looks (act : Act) (looks : act.1.Looks) : auditsOf act = [] := by
  obtain ⟨operation, reply⟩ := act
  cases operation with
  | statement issued => exact looks.elim
  | _ => rfl

theorem submissionOf_looks (act : Act) (looks : act.1.Looks) : submissionOf act = none := by
  obtain ⟨operation, reply⟩ := act
  cases operation with
  | statement issued => exact looks.elim
  | _ => rfl

variable (request status job) in
theorem dependentActs_rows : (dependentActs request status job).flatMap edgesOf =
      (request.dependencies.map fun parent => ⟨job.id, parent⟩) ∧
    (dependentActs request status job).flatMap auditsOf = [createdEntry request status job] ∧
    submissions (dependentActs request status job) = if status = .pending then [job.id] else [] := by
  unfold dependentActs
  by_cases none : request.dependencies.isEmpty <;> by_cases pending : status = .pending
  · rw [if_pos none, if_pos pending, if_pos pending, List.isEmpty_iff.mp none]
    exact ⟨rfl, rfl, rfl⟩
  · rw [if_pos none, if_neg pending, if_neg pending, List.isEmpty_iff.mp none]
    exact ⟨rfl, rfl, rfl⟩
  · rw [if_neg none, if_pos pending, if_pos pending]
    exact ⟨by simp [edgesOf, dispatchOf], rfl, rfl⟩
  · rw [if_neg none, if_neg pending, if_neg pending]
    exact ⟨by simp [edgesOf], rfl, rfl⟩

/-- What a creation has committed. -/
structure Accepted (settings : Settings) (pool : PlatformPool) (request : CreateJobRequest)
    (acts : List Act) (job : Job) (status : JobStatus) : Prop where
  inserted : (⟨.statement (.insertJob (request.draft settings status)), some job⟩ : Act) ∈ acts
  edges : pool.world.declaredParents job.id = request.dependencies
  audit : pool.world.creationAudits job.id = [createdEntry request status job]
  submitted : submissions acts = if status = .pending then [job.id] else []

theorem Returned.settled (reachable : Reachable settings pool)
    (returned : Returned settings pool pid request acts job) (inserts : insertions acts ≠ []) :
    ∃ status, Accepted settings pool request acts job status := by
  obtain ⟨looks, status, looking, whole⟩ := returned.inserting inserts
  obtain ⟨start, after, next, world, earlier, trace, operated, rfl, later, onward⟩ :=
    returned.moment reachable
  obtain ⟨edgeRows, auditRows, submitted⟩ := dependentActs_rows request job status
  have inserted : job ∈ insertions (traceOf pid start.log) := by
    refine List.mem_filterMap.mpr ⟨⟨.statement (.insertJob (request.draft settings status)), some job⟩, ?_, rfl⟩
    rw [← List.mem_reverse, ← trace, whole]
    simp
  obtain ⟨row, held, _, absent⟩ := (insertions_kept earlier).held pid job inserted
  have stored : (world.jobs.slot job.id).committed = some row := by
    rw [commit_stored operated, Slot.visible_of_held held]
  refine ⟨status, by rw [whole]; simp, ?_, ?_, ?_⟩
  · rw [(declaredParents_kept later onward stored).2]
    have none : start.world.dependencies.committed.filter (fun edge => edge.job = job.id) = [] := by
      rw [List.filter_eq_nil_iff]
      intro edge member same
      obtain ⟨⟨_, present⟩, _⟩ := (graph_kept earlier).committed edge member
      rw [of_decide_eq_true same, absent] at present
      cases present
    rw [Pool.record_world, World.declaredParents, (commit_journals operated).1, List.filter_append, none,
      List.nil_append, pending_edges earlier, ← trace, whole, List.flatMap_append,
      looks_flatMap looking edgesOf_looks, List.nil_append, List.flatMap_cons, edgeRows]
    simp [edgesOf, List.filter_map, Function.comp_def]
  · rw [creationAudits_kept later onward stored]
    have none : start.world.audit.committed.filter (auditsCreation job.id) = [] := by
      rw [List.filter_eq_nil_iff]
      intro entry member audits
      simp only [auditsCreation, Bool.and_eq_true, decide_eq_true_eq] at audits
      obtain ⟨id, row, names, present⟩ := committed_documented earlier entry member audits.1
      rw [audits.2] at names
      cases names
      rw [absent] at present
      cases present
    rw [Pool.record_world, World.creationAudits, (commit_journals operated).2, List.filter_append, none,
      List.nil_append, pending_audits earlier, ← trace, whole, List.flatMap_append,
      looks_flatMap looking auditsOf_looks, List.nil_append, List.flatMap_cons, auditRows]
    simp [auditsOf, auditsCreation, createdEntry]
  · rw [whole, submissions_append, ← submitted,
      show submissions looks = [] from List.filterMap_eq_nil_iff.mpr fun act member =>
        submissionOf_looks act (looking act member)]
    rfl

def Unkeyed : Op → Prop
  | .statement (.insertJob draft) => draft.idempotencyKey = none
  | _ => True

theorem createSaga_unkeyed (settings : Settings) (create : CreateSagaRequest) :
    (Services.request (createSaga settings create)).Uses Unkeyed := by
  have steps : ∀ saga index previous (steps : List SagaStep),
      (createSteps settings create saga index previous steps).Uses Unkeyed := by
    intro saga index previous steps
    induction steps generalizing index previous with
    | nil => exact trivial
    | cons step rest ih =>
        refine ((createJob_drafts settings _).mono fun operation drafts => ?_).bind fun created => ?_
        · unfold Unkeyed
          split
          · obtain ⟨status, rfl⟩ := drafts
            rfl
          · exact trivial
        · cases created with
          | error error => exact trivial
          | ok job => exact ih _ _
  have handler : (createSaga settings create).Uses Unkeyed := by
    unfold createSaga
    split
    · exact trivial
    · refine .first trivial fun saga => (steps saga 0 none create.steps).bind fun created => ?_
      cases created with
      | error error => exact trivial
      | ok done => exact ⟨trivial, fun _ => trivial⟩
  refine handler.bind fun result => ?_
  cases result <;> exact ⟨trivial, fun _ => trivial⟩

def keyRule : Role → List Act → Op → Prop
  | .createSaga _ => fun _ => Unkeyed
  | _ => fun _ _ => True

theorem program_keeps_keyRule (settings : Settings) (role : Role) :
    (role.program settings).Follows (tracing (keyRule role)) [] fun _ _ => True := by
  have free : ∀ program : Prog Unit, program.Follows (tracing fun _ _ => True) [] fun _ _ => True := by
    intro program
    refine follows_of_uses (motive := fun _ => True) program.uses_any trivial ?_
    exact fun _ _ _ _ => ⟨trivial, fun _ => trivial⟩
  cases role with
  | createSaga create =>
      refine follows_of_uses (motive := fun _ => True) (createSaga_unkeyed settings create) trivial ?_
      exact fun _ _ _ permitted => ⟨permitted, fun _ => trivial⟩
  | _ => exact free _

theorem keyed_insert (reachable : Reachable settings pool) {role : Role} {draft : JobDraft}
    {next : Reply (.statement (.insertJob draft)) → Prog Unit}
    (found : pool.process pid = some { role, program := .call (.statement (.insertJob draft)) next })
    (keyed : draft.idempotencyKey ≠ none) : ∃ request, role = .createJob request := by
  have inserts : role.inserts := next_may reachable found
  cases role with
  | createJob request => exact ⟨request, rfl⟩
  | createSaga create =>
      exact absurd (rule_kept (program_keeps_keyRule settings) reachable found) keyed
  | coordinateSaga topic id =>
      obtain ⟨saga, user, steps, _, done, _, _, _, rfl⟩ :=
        rule_kept (program_keeps_sagaRule settings) reachable found
      exact absurd rfl keyed
  | _ => cases inserts

theorem insertions_reverse (trace : List Act) : insertions trace.reverse = (insertions trace).reverse :=
  List.filterMap_reverse

theorem shown_of_insertion {act : Act} (inserted : insertionOf act = some job) : shownBy act = some job := by
  obtain ⟨operation, reply⟩ := act
  obtain ⟨draft, rfl, same⟩ := insertion_cases inserted
  cases same
  rfl

theorem insertions_creation {looks : List Act} (looking : ∀ act ∈ looks, act.1.Looks) :
    insertions (looks ++ ⟨.statement (.insertJob (request.draft settings status)), some job⟩ ::
      dependentActs request status job) = [job] := by
  have before : insertions looks = [] :=
    List.filterMap_eq_nil_iff.mpr fun act member => insertionOf_looks (looking act member)
  have after : insertions (dependentActs request status job) = [] := by
    unfold dependentActs
    by_cases none : request.dependencies.isEmpty <;> by_cases pending : status = .pending <;>
      simp only [none, pending, if_true, if_false] <;> rfl
  rw [insertions_append, before, List.nil_append]
  change job :: insertions (dependentActs request status job) = [job]
  rw [after]

theorem creation_of_inserted (reachable : Reachable settings pool) {role : Role}
    {next : Unit → Prog Unit}
    (found : pool.process pid = some { role, program := .call .commit next })
    (inserted : job ∈ insertions (traceOf pid pool.log)) (keyed : job.idempotencyKey ≠ none) :
    ∃ request, role = .createJob request ∧
      (createJob settings request).Yields (traceOf pid pool.log).reverse (.ok job) ∧
      (request.tenantId, request.idempotencyKey) = keyOf job := by
  obtain ⟨⟨operation, reply⟩, among, equal⟩ := List.mem_filterMap.mp inserted
  obtain ⟨draft, rfl, same⟩ := insertion_cases equal
  cases same
  obtain ⟨start, _, earlier, _, _, ⟨entry, listed, next, rfl, stood⟩, world, operated⟩ :=
    reachable.act_moment among
  obtain ⟨rfl, _⟩ := insertJob_slot operated
  obtain ⟨request, creates⟩ := keyed_insert earlier stood keyed
  obtain ⟨process, present, plays⟩ := logged_started reachable entry listed
  rw [found] at present
  cases present
  have role : role = .createJob request := plays.trans creates
  subst role
  have answers := rule_kept (program_answers settings) reachable found
  obtain ⟨value, yields⟩ := answers
  rcases createJob_yields yields with ⟨_, _, _, idle⟩ | ⟨looks, status, looking, whole⟩
  · have none := (idle _ (List.mem_reverse.mpr among)).1
    cases none
  · have one : insertions (traceOf entry.pid pool.log).reverse = [value] := by
      rw [whole]
      exact insertions_creation looking
    rw [insertions_reverse] at one
    have mine := List.mem_reverse.mpr inserted
    rw [one, List.mem_singleton] at mine
    subst mine
    refine ⟨request, rfl, yields, ?_⟩
    have made : (⟨.statement (.insertJob (request.draft settings status)),
        some (draft.row start.world.outside.uuid start.world.outside.clock)⟩ : Act) ∈
          traceOf entry.pid pool.log := by
      rw [← List.mem_reverse, whole]
      simp
    obtain ⟨_, _, _, _, _, _, _, again⟩ := reachable.act_moment made
    obtain ⟨same, _⟩ := insertJob_slot again
    rw [same]
    rfl

theorem keyed_made (reachable : Reachable settings pool) {id : Uuid} {row : Job}
    (stored : (pool.world.jobs.slot id).committed = some row) (keyed : row.idempotencyKey ≠ none) :
    ∃ pid request acts job, Returned settings pool pid request acts job ∧ insertions acts ≠ [] ∧
      job.id = id ∧ (request.tenantId, request.idempotencyKey) = keyOf row := by
  obtain ⟨outside, reached⟩ := reachable
  revert row
  refine reached.invariant (motive := fun pool => ∀ {row},
    (pool.world.jobs.slot id).committed = some row → row.idempotencyKey ≠ none →
    ∃ pid request acts job, Returned settings pool pid request acts job ∧ insertions acts ≠ [] ∧
      job.id = id ∧ (request.tenantId, request.idempotencyKey) = keyOf row) ?_ ?_ ?_ ?_
  · intro row stored
    cases stored
  · intro before pid role world _ ih _ accepted row stored keyed
    rw [Pool.start_world, accept_jobs accepted] at stored
    obtain ⟨maker, request, acts, job, returned, rest⟩ := ih stored keyed
    exact ⟨maker, request, acts, job, returned.later [] rfl, rest⟩
  · intro before pid role operation next reply world earlier ih found operated row stored keyed
    have kept := keys_kept ⟨outside, earlier⟩
    have old : ∀ {version}, (before.world.jobs.slot id).committed = some version →
        ∃ maker request acts job, Returned settings
          (before.record pid role operation reply (next reply) world) maker request acts job ∧
          insertions acts ≠ [] ∧ job.id = id ∧ (request.tenantId, request.idempotencyKey) = keyOf row := by
      intro version present
      have same := kept.same_key operated (.inl present) (.inl stored)
      have still : version.idempotencyKey ≠ none :=
        fun none => keyed ((congrArg Prod.snd same).trans none)
      obtain ⟨maker, request, acts, job, returned, inserts, names, carries⟩ := ih present still
      exact ⟨maker, request, acts, job, returned.later [_] rfl, inserts, names,
        carries.trans same.symm⟩
    cases present : (before.world.jobs.slot id).committed with
    | some version => exact old present
    | none =>
        rcases (operate_jobTurn operated id).committed_cases with same | ⟨rfl, version, held, published⟩
        · rw [Pool.record_world, same, present] at stored
          cases stored
        · rw [Pool.record_world, published] at stored
          cases stored
          obtain ⟨job, inserted, rfl, _⟩ :=
            (insertions_kept ⟨outside, earlier⟩).fresh id pid row held present
          obtain ⟨act, among, shows⟩ := List.mem_filterMap.mp inserted
          obtain ⟨seen, visible, same⟩ := shown_kept ⟨outside, earlier⟩ among (shown_of_insertion shows)
          rw [Slot.visible_of_held held] at visible
          cases visible
          obtain ⟨request, rfl, yields, carries⟩ := creation_of_inserted ⟨outside, earlier⟩ found inserted
            fun none => keyed ((congrArg Prod.snd same).trans none)
          refine ⟨pid, request, (traceOf pid before.log).reverse, job,
            ⟨⟨[], before.log, _, rfl, rfl, rfl, rfl, rfl⟩, yields⟩, ?_, rfl, carries.trans same.symm⟩
          rw [insertions_reverse]
          exact List.ne_nil_of_mem (List.mem_reverse.mpr inserted)
  · intro before change world _ ih changed row stored keyed
    rw [change_slot changed] at stored
    obtain ⟨maker, request, acts, job, returned, rest⟩ := ih stored keyed
    exact ⟨maker, request, acts, job, returned.later [] rfl, rest⟩

theorem Returned.uninserted (reachable : Reachable settings pool)
    (returned : Returned settings pool pid request acts job) {key : String}
    (keyed : request.idempotencyKey = some key) {other : Pid} {made : Job}
    (inserted : made ∈ insertions (traceOf other pool.log)) : made.id ≠ job.id := by
  intro same
  obtain ⟨row, stored, _⟩ := returned.stored reachable keyed
  obtain ⟨_, _, _, absent⟩ := (insertions_kept reachable).held other made inserted
  rw [same, Table.slot_committed, stored] at absent
  cases absent

theorem inserter_unique (reachable : Reachable settings pool) {other : Pid}
    {request' : CreateJobRequest} {acts' : List Act} {job' : Job} {key key' : String}
    (first : Returned settings pool pid request acts job) (keyed : request.idempotencyKey = some key)
    (second : Returned settings pool other request' acts' job')
    (keyed' : request'.idempotencyKey = some key') (inserts : insertions acts ≠ [])
    (inserts' : insertions acts' ≠ []) (same : job.id = job'.id) : pid = other := by
  -- Of two commits, the later one has the insertion in its trace when the job is committed.
  have ordered : ∀ {pid other request request' acts acts' job job' key newer older entry newer' older' entry'},
      Returned settings pool pid request acts job → request.idempotencyKey = some key →
      Returned settings pool other request' acts' job' → insertions acts' ≠ [] → job.id = job'.id →
      pool.log = newer ++ entry :: older → entry.pid = pid → entry.role = .createJob request →
      entry.operation = .commit → (traceOf pid older).reverse = acts →
      pool.log = newer' ++ entry' :: older' → (traceOf other older').reverse = acts' →
      ¬ older.length < older'.length := by
    intro pid other request request' acts acts' job job' key newer older entry newer' older' entry'
      first keyed second inserts same split own creates commits trace split' trace' shorter
    obtain ⟨start, earlier, _, _, _, _, below⟩ := reachable.moment_at split'
    have mine : entry :: older <:+ pool.log := by
      rw [split]
      exact List.suffix_append _ _
    have theirs : older' <:+ pool.log := by
      rw [split']
      exact (List.suffix_cons _ _).trans (List.suffix_append _ _)
    have within : entry :: older <:+ older' := List.suffix_of_suffix_length_le mine theirs shorter
    obtain ⟨between, joined⟩ := within
    have returned : Returned settings start pid request acts job :=
      ⟨⟨between, older, entry, by rw [below, joined], own, creates, commits, trace⟩, first.yields⟩
    obtain ⟨looks, status, looking, whole⟩ := second.inserting inserts
    have inserted : job' ∈ insertions (traceOf other start.log) := by
      rw [below, ← List.mem_reverse, ← insertions_reverse, trace', whole, insertions_creation looking]
      exact List.mem_cons_self
    exact returned.uninserted earlier keyed inserted same.symm
  obtain ⟨newer, older, entry, split, own, creates, commits, trace⟩ := first.committed
  obtain ⟨newer', older', entry', split', own', creates', commits', trace'⟩ := second.committed
  rcases Nat.lt_trichotomy older.length older'.length with shorter | equal | longer
  · exact absurd shorter (ordered first keyed second inserts' same split own creates commits trace split' trace')
  · have joined : newer ++ entry :: older = newer' ++ entry' :: older' := split.symm.trans split'
    obtain ⟨_, tails⟩ := List.append_inj' joined (by simp [equal])
    obtain ⟨rfl, _⟩ := List.cons.inj tails
    exact own.symm.trans own'
  · exact absurd longer
      (ordered second keyed' first inserts same.symm split' own' creates' commits' trace' split trace)

/-- A returned call with the key. -/
structure ReturnedFor (settings : Settings) (pool : PlatformPool) (tenant : Uuid) (key : String) (pid : Pid)
    (request : CreateJobRequest) (acts : List Act) (job : Job) : Prop
    extends Returned settings pool pid request acts job where
  tenant : request.tenantId = tenant
  key : request.idempotencyKey = some key

/-- The committed state under a key: the one row, and what the one call that
inserted it wrote beside it. -/
structure CreatedOnce (settings : Settings) (pool : PlatformPool) (tenant : Uuid) (key : String)
    (id : Uuid) : Prop where
  stored : ∃ row, pool.world.jobs.committed id = some row ∧ keyOf row = (tenant, some key)
  only : ∀ other row, pool.world.jobs.committed other = some row → keyOf row = (tenant, some key) → other = id
  made : ∃ winner request acts job status,
    ReturnedFor settings pool tenant key winner request acts job ∧ job.id = id ∧
    Accepted settings pool request acts job status ∧
    ∀ loser request' acts' job', ReturnedFor settings pool tenant key loser request' acts' job' →
      loser ≠ winner → ∀ act ∈ acts', ChangesNothing act

/-- Whatever runs beside them, the calls with one key agree on one job. -/
structure IdempotentCreation (settings : Settings) (pool : PlatformPool) (tenant : Uuid) (key : String) :
    Prop where
  committed : ∀ newer entry older request, pool.log = newer ++ entry :: older →
    entry.role = .createJob request → entry.operation = .commit →
    ∃ job, Returned settings pool entry.pid request (traceOf entry.pid older).reverse job
  returned : ∀ pid request acts job, ReturnedFor settings pool tenant key pid request acts job →
    CreatedOnce settings pool tenant key job.id

theorem create_job_idempotent (reachable : Reachable settings pool) (tenant : Uuid) (key : String) :
    IdempotentCreation settings pool tenant key := by
  refine ⟨fun newer entry older request split creates commits =>
    returned_of_commit reachable split creates commits, ?_⟩
  intro pid request acts job returned
  obtain ⟨row, stored, carries⟩ := returned.toReturned.stored reachable returned.key
  rw [returned.tenant] at carries
  have only : ∀ other row, pool.world.jobs.committed other = some row → keyOf row = (tenant, some key) →
      other = job.id := by
    intro other found present same
    exact (keys_kept reachable).unique other job.id found row key (.inl present) (.inl stored)
      (congrArg Prod.snd same) (same.trans carries.symm)
  refine ⟨⟨row, stored, carries⟩, only, ?_⟩
  have keyed : row.idempotencyKey ≠ none := by
    rw [show row.idempotencyKey = some key from congrArg Prod.snd carries]
    exact Option.some_ne_none key
  obtain ⟨winner, request', acts', job', made, inserts, names, same⟩ := keyed_made reachable stored keyed
  rw [carries] at same
  obtain ⟨status, settled⟩ := made.settled reachable inserts
  refine ⟨winner, request', acts', job', status,
    ⟨made, congrArg Prod.fst same, congrArg Prod.snd same⟩, names, settled, ?_⟩
  intro loser request'' acts'' job'' lost different act member
  rcases createJob_yields lost.yields with ⟨_, _, _, idle⟩ | ⟨looks, status'', looking, whole⟩
  · exact (idle act member).2
  · have inserted : insertions acts'' ≠ [] := by
      rw [whole, insertions_creation looking]
      exact List.cons_ne_nil _ _
    obtain ⟨row'', stored'', carries''⟩ := lost.toReturned.stored reachable lost.key
    rw [lost.tenant] at carries''
    have equal := only job''.id row'' stored'' carries''
    exact absurd (inserter_unique reachable lost.toReturned lost.key made (congrArg Prod.snd same)
      inserted inserts (equal.trans names.symm)) different

/-- A `create_job` call commits. -/
def commitsCreation (entry : PlatformEntry) : Bool :=
  match entry.role, entry.operation with
  | .createJob _, .commit => true
  | _, _ => false

/-- Two calls look the key up before either inserts. -/
theorem create_job_idempotent_of_race : ∃ pool, Reachable .defaults pool ∧
    pool.log.countP commitsCreation = 2 ∧ IdempotentCreation .defaults pool 8 "upload-1" := by
  let call : Role := .createJob
    { userId := 7, tenantId := 8, jobType := "csv_upload", idempotencyKey := some "upload-1" }
  obtain ⟨pool, reachable, checked⟩ := @exists_reachable .defaults
    (.spawn 1 call :: .spawn 2 call :: turns 1 1 ++ turns 2 1 ++ turns 1 4 ++ turns 2 3)
    (fun pool => pool.log.countP commitsCreation = 2) (by decide +kernel)
  exact ⟨pool, reachable, of_decide_eq_true checked, create_job_idempotent reachable 8 "upload-1"⟩

end IncidentPlatform.Properties

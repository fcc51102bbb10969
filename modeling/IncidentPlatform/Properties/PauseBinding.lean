import IncidentPlatform.Platform.Graph
import IncidentPlatform.Platform.Transactions
import IncidentPlatform.Search.Walk

namespace IncidentPlatform.Properties

open Concurrency Models Platform Repositories Services Storage Utils Workers

/-! # A pause is binding

Every path that dispatches a job probes the flags of the job and its ancestors
in the transaction that dispatches it.  A flag that was present at the last
probe that read it stops the dispatch.
-/

def asked (answers : List (Uuid × List Uuid)) : List Act :=
  answers.map fun answer => ⟨.query (.parents answer.1), answer.2⟩

def unflagged : Act → Bool
  | ⟨.command (.pausedFlags ids), flags⟩ => (firstFlagged ids flags).isNone
  | _ => true

/-- The act reads the row of `job`. -/
def sights (job : Uuid) : Act → Bool
  | ⟨.query (.job id), some _⟩ => id = job
  | ⟨.query (.jobForTenant id _), some _⟩ => id = job
  | ⟨.query (.promotableWaiting _), rows⟩ => rows.any fun row : Job => row.id = job
  | _ => false

/-- The act reads `job` COMPLETED. -/
def sightsCompleted (job : Uuid) : Act → Bool
  | ⟨.query (.job id), some row⟩ => id = job && row.status = .completed
  | _ => false

/-- The job was seen, then walked from, and its flags and those of what the walk
found were read; no flag was present, then or at a probe since. -/
def Probed (sight : Uuid → Act → Bool) (job : Uuid) (trace : List Act) : Prop :=
  ∃ later nodes flags answers earlier,
    trace = later ++ ⟨.command (.pausedFlags nodes), flags⟩ :: ((asked answers).reverse ++ earlier) ∧
    Search.Walk maxAncestorNodes [job] [] answers nodes ∧ firstFlagged nodes flags = none ∧
    later.all unflagged = true ∧ earlier.any (sight job) = true

/-- A dispatch follows the probe of its job, and a job created PENDING the
probes of its parents. -/
def pauseRule (role : Role) (trace : List Act) : Op → Prop
  | .statement (.promoteWaitingToPending id) => Probed sights id trace
  | .statement (.claimForRunning id) => Probed sights id trace
  | .statement (.updateStatus id _ _) => role.replays → Probed sights id trace
  | .statement (.insertDependencies id parents) => ∃ draft row earlier,
      trace = ⟨.statement (.insertJob draft), some row⟩ :: earlier ∧ row.id = id ∧
      (draft.status = .pending → Keyed trace →
        ∀ parent ∈ parents, Probed sightsCompleted parent trace)
  | .statement (.insertJob draft) => role.creates → draft.status ≠ .completed
  | _ => True

section Follows

variable {role : Role} {trace : List Act}

theorem walkAncestors_follows (room : Nat) (frontier order : List Uuid) :
    (walkAncestors room frontier order).Follows (tracing (pauseRule role)) trace fun after nodes =>
      ∃ answers, after = (asked answers).reverse ++ trace ∧ Search.Walk room frontier order answers nodes := by
  induction room generalizing frontier order trace with
  | zero => exact ⟨[], rfl, .full⟩
  | succ room ih =>
      simp only [walkAncestors]
      split
      · rename_i visited
        exact ⟨[], rfl, .drained visited⟩
      · rename_i node rest next
        refine .first trivial fun answer => ?_
        refine (ih (rest ++ answer) (order ++ [node])).mono fun after nodes found => ?_
        obtain ⟨answers, rfl, walk⟩ := found
        refine ⟨(node, answer) :: answers, ?_, .visit next walk⟩
        simp [asked, extendTrace, Op.ends]

theorem findBlockingPause_follows (id : Uuid) :
    (findBlockingPause id).Follows (tracing (pauseRule role)) trace fun after held =>
      ∃ nodes flags answers,
        after = ⟨.command (.pausedFlags nodes), flags⟩ :: ((asked answers).reverse ++ trace) ∧
        Search.Walk maxAncestorNodes [id] [] answers nodes ∧ firstFlagged nodes flags = held := by
  refine (walkAncestors_follows maxAncestorNodes [id] []).bind fun after nodes found => ?_
  obtain ⟨answers, rfl, walk⟩ := found
  have present : nodes.isEmpty = false := by
    cases walk with
    | drained visited => cases visited
    | visit next later =>
        cases next
        exact List.isEmpty_eq_false_iff_exists_mem.mpr ⟨id, later.order_subset List.mem_cons_self⟩
  rw [present]
  exact .first trivial fun flags => ⟨nodes, flags, answers, rfl, walk, rfl⟩

theorem probe_follows_seen {sight : Uuid → Act → Bool} {id : Uuid} (seen : trace.any (sight id) = true) :
    (findBlockingPause id).Follows (tracing (pauseRule role)) trace fun after held =>
      held = none → Probed sight id after := by
  refine (findBlockingPause_follows id).mono fun after held found clear => ?_
  obtain ⟨nodes, flags, answers, rfl, walk, rfl⟩ := found
  exact ⟨[], nodes, flags, answers, trace, rfl, walk, clear, rfl, seen⟩

def NoDispatch : Op → Prop
  | .statement (.promoteWaitingToPending _) | .statement (.claimForRunning _)
  | .statement (.insertDependencies _ _) | .statement (.updateStatus _ _ _)
  | .statement (.insertJob _) => False
  | _ => True

theorem follows_of_idle {α : Type} {program : Prog α} (idle : program.Uses NoDispatch) :
    program.Follows (tracing (pauseRule role)) trace fun _ _ => True := by
  refine follows_of_uses (motive := fun _ => True) idle trivial fun trace operation _ allowed => ?_
  refine ⟨?_, fun _ => trivial⟩
  cases operation with
  | statement issued =>
      cases issued with
      | promoteWaitingToPending id => exact allowed.elim
      | claimForRunning id => exact allowed.elim
      | insertDependencies id parents => exact allowed.elim
      | updateStatus id write guard => exact allowed.elim
      | insertJob draft => exact allowed.elim
      | _ => exact trivial
  | _ => exact trivial

theorem idle_of_settles (operation : Op) (settles : operation.Settles) : NoDispatch operation := by
  cases operation with
  | statement issued => cases issued <;> first
      | exact trivial
      | exact settles.elim
  | _ => exact trivial

theorem promoteChild_keeps_pause {id : Uuid} {child : Job} (seen : trace.any (sights id) = true) :
    (promoteChild id child).Follows (tracing (pauseRule role)) trace fun after _ => trace <:+ after := by
  refine Program.Follows.bind (findBlockingPause_follows id) fun after held found => ?_
  obtain ⟨nodes, flags, answers, rfl, walk, rfl⟩ := found
  have grown : trace <:+ ⟨.command (.pausedFlags nodes), flags⟩ :: ((asked answers).reverse ++ trace) :=
    ⟨⟨.command (.pausedFlags nodes), flags⟩ :: (asked answers).reverse, rfl⟩
  cases clear : firstFlagged nodes flags with
  | some pausedBy => exact grown
  | none =>
      refine .first ⟨[], nodes, flags, answers, trace, rfl, walk, clear, rfl, seen⟩ fun promoted => ?_
      cases promoted with
      | false => exact grown.trans (List.suffix_cons _ _)
      | true => exact ⟨trivial, fun _ => (grown.trans (List.suffix_cons _ _)).trans (List.suffix_cons _ _)⟩

theorem resolveDependents_keeps_pause (parent : Uuid) :
    (resolveDependents parent).Follows (tracing (pauseRule role)) trace fun _ _ => True := by
  refine .first trivial fun children => Program.Follows.bind
    (Program.follows_forEach (motive := fun _ => True) trivial fun id _ trace _ => ?_)
    fun _ _ _ => ⟨trivial, fun _ => trivial⟩
  refine .first trivial fun found => ?_
  cases found with
  | none => exact trivial
  | some child =>
      dsimp only
      split
      · exact trivial
      · refine .first trivial fun unmet => ?_
        split
        · exact trivial
        · refine (promoteChild_keeps_pause ?_).mono fun _ _ _ => trivial
          simp [extendTrace, Op.ends, sights]

theorem any_of_suffix {earlier later : List Act} {holds : Act → Bool} (grown : earlier <:+ later)
    (any : earlier.any holds = true) : later.any holds = true := by
  obtain ⟨act, member, held⟩ := List.any_eq_true.mp any
  exact List.any_eq_true.mpr ⟨act, grown.subset member, held⟩

theorem resumeUnblockedWaitingOnce_keeps_pause (cursor : Option (Time × Uuid)) :
    (resumeUnblockedWaitingOnce cursor).Follows (tracing (pauseRule role)) trace fun _ _ => True := by
  refine .first trivial fun rows => ?_
  refine Program.Follows.bind (Program.follows_forEach
    (motive := fun after => extendTrace trace (.query (.promotableWaiting cursor)) rows <:+ after)
    (List.suffix_refl _) fun child member after grown => ?_) fun _ _ _ => ⟨trivial, fun _ => trivial⟩
  refine (promoteChild_keeps_pause (any_of_suffix grown ?_)).mono fun _ _ further => grown.trans further
  have found : (rows.any fun row : Job => row.id = child.id) = true :=
    List.any_eq_true.mpr ⟨child, member, by simp⟩
  simp [extendTrace, Op.ends, sights, found]

theorem loadAndClaim_keeps_pause (id : Uuid) :
    (loadAndClaim id).Follows (tracing (pauseRule role)) trace fun _ _ => True := by
  refine .first trivial fun found => ?_
  cases found with
  | none => exact ⟨trivial, fun _ => trivial⟩
  | some job =>
      dsimp only
      split
      · exact ⟨trivial, fun _ => trivial⟩
      · refine Program.Follows.bind (@probe_follows_seen role _ sights id ?_)
          fun after held probed => ?_
        · simp [extendTrace, Op.ends, sights]
        · cases held with
          | some pausedBy => exact ⟨trivial, fun _ => trivial⟩
          | none => exact .first (probed rfl) fun claimed => ⟨trivial, fun _ => trivial⟩

def Unclaiming : Op → Prop
  | .statement (.promoteWaitingToPending _) | .statement (.claimForRunning _)
  | .statement (.insertDependencies _ _) | .statement (.insertJob _) => False
  | _ => True

theorem unclaiming_of_settles (operation : Op) (settles : operation.Settles) : Unclaiming operation := by
  cases operation with
  | statement issued => cases issued <;> first
      | exact trivial
      | exact settles.elim
  | _ => exact trivial

theorem updateStatus_unclaiming (id : Uuid) (write : StatusWrite) (message : Option String)
    (guard : Option (Job → Bool)) : (updateStatus id write message guard).Uses Unclaiming := by
  refine .first trivial fun changed => ?_
  split
  · exact trivial
  · exact (afterStatusWrite_uses id write.status message).mono unclaiming_of_settles

theorem settleDeadLetter_unclaiming (id : Uuid) (job : Job) (write : StatusWrite)
    (message : Option String) (details : List (String × Json)) :
    (settleDeadLetter id job write message details).Uses Unclaiming :=
  (updateStatus_unclaiming id write message none).bind fun _ =>
    ⟨trivial, fun _ => ⟨trivial, fun _ => trivial⟩⟩

theorem settleExhausted_unclaiming (id : Uuid) (job : Job) (error : String) (reasoning : Option String) :
    (settleExhausted id job error reasoning).Uses Unclaiming := by
  cases reasoning <;> exact settleDeadLetter_unclaiming ..

theorem settleFailed_unclaiming (settings : Settings) (id : Uuid) (job : Job) (error : String) :
    (settleFailed settings id job error).Uses Unclaiming := by
  have consult : (consultRetryPolicy settings job error).Uses Unclaiming := by
    unfold consultRetryPolicy
    dsimp only
    split
    · refine .first trivial fun decision => ?_
      cases decision with
      | none => exact trivial
      | some verdict => cases verdict <;> exact trivial
    · exact trivial
  refine consult.bind fun decision => ?_
  cases decision with
  | inr reasoning => exact settleExhausted_unclaiming ..
  | inl delay =>
      dsimp only
      split
      · exact (updateStatus_unclaiming ..).bind fun _ =>
          ⟨trivial, fun _ => ⟨trivial, fun _ => ⟨trivial, fun _ => trivial⟩⟩⟩
      · exact settleExhausted_unclaiming ..

theorem runClaimed_unclaiming (settings : Settings) (id : Uuid) (job : Job) :
    (runClaimed settings id job).Uses Unclaiming := by
  refine .first trivial fun _ => ?_
  cases JobType.parse job.type with
  | none => exact settleDeadLetter_unclaiming ..
  | some type =>
      refine .first trivial fun outcome => ?_
      cases outcome with
      | returned result =>
          exact (updateStatus_unclaiming ..).bind fun _ =>
            ⟨trivial, fun _ => ⟨trivial, fun _ => trivial⟩⟩
      | timedOut => exact settleDeadLetter_unclaiming ..
      | raised error => exact settleFailed_unclaiming ..

theorem runJob_keeps_pause (settings : Settings) (id : Uuid) (runs : ¬ role.replays) :
    (runJob settings id).Follows (tracing (pauseRule role)) trace fun _ _ => True := by
  refine (loadAndClaim_keeps_pause id).bind fun after admission _ => ?_
  cases admission with
  | skipped => exact trivial
  | held pausedBy => exact ⟨trivial, fun _ => trivial⟩
  | claimed job =>
      refine follows_of_uses (motive := fun _ => True) (runClaimed_unclaiming settings id job) trivial
        fun trace operation _ allowed => ⟨?_, fun _ => trivial⟩
      cases operation with
      | statement issued =>
          cases issued with
          | updateStatus id write guard => exact fun replays => absurd replays runs
          | promoteWaitingToPending id => exact allowed.elim
          | claimForRunning id => exact allowed.elim
          | insertDependencies id parents => exact allowed.elim
          | insertJob draft => exact allowed.elim
          | _ => exact trivial
      | _ => exact trivial

theorem replayJob_keeps_pause (id tenant : Uuid) (principal : Principal) :
    (replayJob id tenant principal).Follows (tracing (pauseRule role)) trace fun _ _ => True := by
  refine .first trivial fun found => ?_
  cases found with
  | none => exact trivial
  | some job =>
      dsimp only
      split
      · exact trivial
      · refine Program.Follows.bind (@probe_follows_seen role _ sights id ?_) fun after held probed => ?_
        · simp [extendTrace, Op.ends, sights]
        · cases held with
          | some pausedBy => exact trivial
          | none =>
              refine .first (fun _ => probed rfl) fun changed => follows_of_idle ?_
              refine ((afterStatusWrite_uses id replayWrite.status none).mono idle_of_settles).bind
                fun updated => ?_
              refine ⟨trivial, fun _ => ⟨trivial, fun _ => ?_⟩⟩
              cases updated <;> exact trivial

theorem replay_request_keeps_pause (id tenant : Uuid) (principal : Principal) :
    (request (replayJob id tenant principal)).Follows (tracing (pauseRule role)) trace fun _ _ => True := by
  refine (replayJob_keeps_pause id tenant principal).bind fun after result _ => ?_
  cases result <;> exact ⟨trivial, fun _ => trivial⟩

theorem fireScheduledReplay_keeps_pause (member : ReplayMember) :
    (fireScheduledReplay member).Follows (tracing (pauseRule role)) trace fun _ _ => True := by
  refine Program.Follows.bind (findBlockingPause_follows member.jobId) fun after held _ => ?_
  cases held with
  | some pausedBy =>
      exact ⟨trivial, fun _ => ⟨trivial, fun _ => ⟨trivial, fun _ =>
        ⟨trivial, fun _ => trivial⟩⟩⟩⟩
  | none =>
      exact (replay_request_keeps_pause ..).bind fun last _ _ => ⟨trivial, fun _ => trivial⟩

theorem keyed_of_suffix {earlier later : List Act} (grown : earlier <:+ later) (keyed : Keyed later) :
    Keyed earlier :=
  fun id row member => keyed id row (grown.subset member)

theorem Probed.extend {sight : Uuid → Act → Bool} {job : Uuid} {newer : List Act}
    (probed : Probed sight job trace) (clear : newer.all unflagged = true) :
    Probed sight job (newer ++ trace) := by
  obtain ⟨later, nodes, flags, answers, earlier, rfl, walk, unpaused, since, seen⟩ := probed
  refine ⟨newer ++ later, nodes, flags, answers, earlier, by rw [List.append_assoc], walk, unpaused, ?_, seen⟩
  rw [List.all_append, clear, since, Bool.and_true]

theorem asked_unflagged (answers : List (Uuid × List Uuid)) :
    (asked answers).reverse.all unflagged = true := by
  rw [List.all_reverse, asked, List.all_map]
  exact List.all_eq_true.mpr fun _ _ => rfl

theorem loadParents_keeps_pause (ids : List Uuid) :
    (loadParents ids).Follows (tracing (pauseRule role)) trace fun after loaded => trace <:+ after ∧
      ∀ parents, loaded = .ok parents → List.Forall₂
        (fun id parent => (⟨.query (.job id), some parent⟩ : Act) ∈ after) ids parents := by
  induction ids generalizing trace with
  | nil =>
      refine ⟨List.suffix_refl _, ?_⟩
      rintro parents loaded
      cases loaded
      exact .nil
  | cons id rest ih =>
      refine .first trivial fun found => ?_
      have grown : trace <:+ extendTrace trace (.query (.job id)) found := List.suffix_cons _ _
      cases found with
      | none => exact ⟨grown, fun _ absurd => by cases absurd⟩
      | some parent =>
          refine ih.bind fun after loaded read => ?_
          obtain ⟨further, read⟩ := read
          cases loaded with
          | error error => exact ⟨grown.trans further, fun _ absurd => by cases absurd⟩
          | ok parents =>
              refine ⟨grown.trans further, ?_⟩
              rintro _ ⟨⟩
              exact .cons (further.subset List.mem_cons_self) (read parents rfl)

theorem probeParents_keeps_pause (parents : List Job)
    (seen : ∀ parent ∈ parents, trace.any (sightsCompleted parent.id) = true) :
    (probeParents parents).Follows (tracing (pauseRule role)) trace fun after held => held = none →
      ∃ newer, after = newer ++ trace ∧ newer.all unflagged = true ∧
        ∀ parent ∈ parents, Probed sightsCompleted parent.id after := by
  induction parents generalizing trace with
  | nil => exact fun _ => ⟨[], rfl, rfl, fun _ absurd => by cases absurd⟩
  | cons parent rest ih =>
      refine Program.Follows.bind (findBlockingPause_follows parent.id) fun after held found => ?_
      obtain ⟨nodes, flags, answers, rfl, walk, rfl⟩ := found
      cases clear : firstFlagged nodes flags with
      | some pausedBy =>
          intro absurd
          cases absurd
      | none =>
          have quiet : (⟨.command (.pausedFlags nodes), flags⟩ :: (asked answers).reverse : List Act).all
              unflagged = true := by
            rw [List.all_cons, asked_unflagged, Bool.and_true, unflagged, clear]
            rfl
          have probed : Probed sightsCompleted parent.id
              (⟨.command (.pausedFlags nodes), flags⟩ :: ((asked answers).reverse ++ trace)) :=
            ⟨[], nodes, flags, answers, trace, rfl, walk, clear, rfl, seen parent List.mem_cons_self⟩
          refine (ih fun other member => any_of_suffix
            ⟨⟨.command (.pausedFlags nodes), flags⟩ :: (asked answers).reverse, rfl⟩
            (seen other (List.mem_cons_of_mem _ member))).mono fun after held found none => ?_
          obtain ⟨newer, rfl, since, others⟩ := found none
          refine ⟨newer ++ ⟨.command (.pausedFlags nodes), flags⟩ :: (asked answers).reverse, ?_, ?_, ?_⟩
          · rw [List.append_assoc, List.cons_append]
          · rw [List.all_append, since, quiet, Bool.and_true]
          · intro other member
            obtain rfl | later := List.mem_cons.mp member
            · exact probed.extend since
            · exact others other later

theorem probeParents_grows (parents : List Job) :
    (probeParents parents).Follows (tracing (pauseRule role)) trace fun after _ => trace <:+ after := by
  induction parents generalizing trace with
  | nil => exact List.suffix_refl _
  | cons parent rest ih =>
      refine Program.Follows.bind (findBlockingPause_follows parent.id) fun after held found => ?_
      obtain ⟨nodes, flags, answers, rfl, _, _⟩ := found
      have grown : trace <:+ ⟨.command (.pausedFlags nodes), flags⟩ :: ((asked answers).reverse ++ trace) :=
        ⟨⟨.command (.pausedFlags nodes), flags⟩ :: (asked answers).reverse, rfl⟩
      cases held with
      | some pausedBy => exact grown
      | none => exact ih.mono fun _ _ further => grown.trans further

theorem parents_of_reads {ids : List Uuid} {parents : List Job} (keyed : Keyed trace)
    (read : List.Forall₂ (fun id parent => (⟨.query (.job id), some parent⟩ : Act) ∈ trace) ids parents) :
    ids = parents.map Job.id ∧
      ∀ parent ∈ parents, (⟨.query (.job parent.id), some parent⟩ : Act) ∈ trace := by
  induction read with
  | nil => exact ⟨rfl, fun _ absurd => by cases absurd⟩
  | @cons id parent ids parents first _ ih =>
      have same := keyed id parent first
      refine ⟨by rw [List.map_cons, same, ih.1], fun other member => ?_⟩
      obtain rfl | later := List.mem_cons.mp member
      · rwa [same]
      · exact ih.2 other later

theorem initialStatus_keeps_pause {ids : List Uuid} {parents : List Job}
    (read : List.Forall₂ (fun id parent => (⟨.query (.job id), some parent⟩ : Act) ∈ trace) ids parents) :
    (initialStatus parents).Follows (tracing (pauseRule role)) trace fun after status =>
      status ≠ .completed ∧
        (status = .pending → Keyed after → ∀ id ∈ ids, Probed sightsCompleted id after) := by
  unfold initialStatus
  split
  · exact ⟨by simp, fun pending => by cases pending⟩
  · rename_i completed
    by_cases keyed : Keyed trace
    · obtain ⟨named, rows⟩ := parents_of_reads keyed read
      have seen : ∀ parent ∈ parents, trace.any (sightsCompleted parent.id) = true := by
        intro parent member
        refine List.any_eq_true.mpr ⟨_, rows parent member, ?_⟩
        by_contra other
        refine completed (List.any_eq_true.mpr ⟨parent, member, ?_⟩)
        simpa [sightsCompleted] using other
      refine Program.Follows.bind (probeParents_keeps_pause parents seen) fun after held probed => ?_
      cases held with
      | some pausedBy => exact ⟨by simp, fun pending => by cases pending⟩
      | none =>
          refine ⟨by simp, fun _ _ id member => ?_⟩
          obtain ⟨_, _, _, each⟩ := probed rfl
          rw [named] at member
          obtain ⟨parent, among, rfl⟩ := List.mem_map.mp member
          exact each parent among
    · refine Program.Follows.bind (probeParents_grows parents) fun after held grown => ?_
      have unkeyed : ¬ Keyed after := fun later => keyed (keyed_of_suffix grown later)
      cases held <;> exact ⟨by simp, fun _ later => absurd later unkeyed⟩

theorem finishCreate_keeps_pause {request : CreateJobRequest} {status : JobStatus} {draft : JobDraft}
    {row : Job} (drafted : draft.status = status)
    (probed : status = .pending → Keyed trace → ∀ id ∈ request.dependencies, Probed sightsCompleted id trace) :
    (finishCreate request status row).Follows (tracing (pauseRule role))
      (⟨.statement (.insertJob draft), some row⟩ :: trace) fun _ _ => True := by
  have tail : ∀ added, (if added = true then do
      auditCreated request row status
      if status = .pending then
        outboxAdd request.tenantId request.userId .submitted
          (.submitted request.tenantId row.id request.userId request.jobType request.enrichedPayload
            request.priority row.traceId)
      pure (.ok row)
    else pure (.error .integrity) : Prog (Except ServiceError Job)).Uses NoDispatch := by
    intro added
    split
    · refine ⟨trivial, fun _ => ?_⟩
      split
      · exact ⟨trivial, fun _ => trivial⟩
      · exact trivial
    · exact trivial
  unfold finishCreate addDependencies
  split
  · exact follows_of_idle (tail true)
  · refine .first ⟨draft, row, trace, rfl, rfl, fun pending keyed parent member => ?_⟩
      fun added => follows_of_idle (tail added)
    have before := probed (drafted.symm.trans pending) (keyed_of_suffix (List.suffix_cons _ _) keyed)
      parent member
    exact @Probed.extend trace sightsCompleted parent [⟨.statement (.insertJob draft), some row⟩] before rfl

theorem createJob_keeps_pause (settings : Settings) (create : CreateJobRequest) :
    (createJob settings create).Follows (tracing (pauseRule role)) trace fun _ _ => True := by
  have lookup : (findIdempotent create).Uses NoDispatch := by
    unfold findIdempotent
    split
    · exact trivial
    · split
      · exact trivial
      · exact ⟨trivial, fun _ => trivial⟩
  have winner : (idempotencyWinner create).Uses NoDispatch := by
    unfold idempotencyWinner
    split
    · exact trivial
    · refine .first trivial fun winner => ?_
      cases winner <;> exact trivial
  refine (follows_of_idle lookup).bind fun after existing _ => ?_
  cases existing with
  | some job => exact trivial
  | none =>
      refine (loadParents_keeps_pause create.dependencies).bind fun after loaded read => ?_
      cases loaded with
      | error error => exact trivial
      | ok parents =>
          refine (initialStatus_keeps_pause (read.2 parents rfl)).bind fun after status probed => ?_
          refine .first (fun _ => probed.1) fun inserted => ?_
          cases inserted with
          | some job => exact finishCreate_keeps_pause rfl probed.2
          | none =>
              exact follows_of_idle winner

theorem createSteps_keeps_pause (settings : Settings) (create : CreateSagaRequest) (saga : Saga)
    (index : Nat) (previous : Option Uuid) (steps : List SagaStep) :
    (createSteps settings create saga index previous steps).Follows (tracing (pauseRule role)) trace
      fun _ _ => True := by
  induction steps generalizing index previous trace with
  | nil => exact trivial
  | cons step rest ih =>
      refine (createJob_keeps_pause settings _).bind fun after created _ => ?_
      cases created with
      | error error => exact trivial
      | ok job => exact ih _ _

theorem request_keeps_pause {α : Type} {handler : Prog (Except ServiceError α)}
    (follows : handler.Follows (tracing (pauseRule role)) trace fun _ _ => True) :
    (request handler).Follows (tracing (pauseRule role)) trace fun _ _ => True := by
  refine follows.bind fun after result _ => ?_
  cases result <;> exact ⟨trivial, fun _ => trivial⟩

end Follows

def Bystander (role : Role) : Prop :=
  ¬ role.creates ∧ ¬ role.promotes ∧ (∀ id, ¬ role.delivers id) ∧ ¬ role.replays

theorem bystander_keeps_pause (settings : Settings) {role : Role} (bystander : Bystander role) :
    (role.program settings).Follows (tracing (pauseRule role)) [] fun _ _ => True := by
  obtain ⟨creates, promotes, delivers, replays⟩ := bystander
  refine follows_of_uses (motive := fun _ => True) (program_uses settings role) trivial
    fun trace operation _ may => ⟨?_, fun _ => trivial⟩
  cases operation with
  | statement issued =>
      cases issued with
      | promoteWaitingToPending id => exact absurd may promotes
      | claimForRunning id => exact absurd may (delivers id)
      | insertDependencies id parents => exact absurd may creates
      | updateStatus id write guard => exact fun replay => absurd replay replays
      | insertJob draft => exact fun create => absurd create creates
      | _ => exact trivial
  | _ => exact trivial

theorem program_keeps_pauseRule (settings : Settings) (role : Role) :
    (role.program settings).Follows (tracing (pauseRule role)) [] fun _ _ => True := by
  cases role with
  | createJob create => exact request_keeps_pause (createJob_keeps_pause settings create)
  | createSaga create =>
      refine request_keeps_pause ?_
      unfold createSaga
      split
      · exact trivial
      · refine .first trivial fun saga =>
          (createSteps_keeps_pause settings create saga 0 none create.steps).bind fun after created _ => ?_
        cases created with
        | error error => exact trivial
        | ok _ => exact ⟨trivial, fun _ => trivial⟩
  | replay id tenant principal => exact replay_request_keeps_pause id tenant principal
  | replayEach ids tenant principal =>
      refine Program.Follows.bind (Program.follows_forEach (motive := fun _ => True) trivial ?_)
        fun after _ _ => ⟨trivial, fun _ => trivial⟩
      intro id _ trace _
      exact (replayJob_keeps_pause id tenant principal).bind fun _ _ _ => trivial
  | promoteDlqReplay =>
      refine .first trivial fun ready =>
        Program.follows_forEach (motive := fun _ => True) trivial ?_
      intro member _ trace _
      exact fireScheduledReplay_keeps_pause member
  | deliver id => exact runJob_keeps_pause settings id Bool.false_ne_true
  | redeliver id => exact runJob_keeps_pause settings id Bool.false_ne_true
  | resolveDependents parent => exact resolveDependents_keeps_pause parent
  | resumeUnblockedWaiting cursor => exact resumeUnblockedWaitingOnce_keeps_pause cursor
  | _ =>
      exact bystander_keeps_pause settings
        ⟨Bool.false_ne_true, Bool.false_ne_true, fun _ => Bool.false_ne_true, Bool.false_ne_true⟩

section Flags

variable {settings : Settings} {pool : PlatformPool}

theorem operate_paused {pid : Pid} {operation : Op} {reply : Reply operation} {world after : World}
    (operated : World.operate pid operation world = some (reply, after)) : after.paused = world.paused := by
  cases operation with
  | statement issued =>
      cases issued with
      | insertJob draft =>
          simp only [World.operate, World.execute] at operated
          split at operated
          · obtain ⟨_, _, same⟩ := Option.map_eq_some_iff.mp operated
            cases same
            rfl
          · split at operated <;> cases operated
            rfl
      | insertDependencies id parents =>
          simp only [World.operate, World.execute] at operated
          split at operated <;> cases operated <;> rfl
      | insertAudit entry =>
          cases operated
          rfl
      | stampRequeued id stamp =>
          obtain ⟨⟨changed, next⟩, updating, same⟩ := Option.map_eq_some_iff.mp operated
          obtain ⟨_, _, rfl⟩ := withJobs_eq updating
          cases same
          rfl
      | _ =>
          obtain ⟨_, _, same⟩ := Option.map_eq_some_iff.mp operated
          cases same
          rfl
  | command command => cases command <;> cases operated <;> rfl
  | publishRaw row =>
      simp only [World.operate] at operated
      split at operated <;> cases operated <;> rfl
  | _ =>
      cases operated
      rfl

theorem stored_of_paused {job : Uuid} {epoch : Nat} (reachable : Reachable settings pool)
    (paused : pool.world.paused job = some epoch) :
    ∃ row, (pool.world.jobs.slot job).committed = some row := by
  obtain ⟨outside, reached⟩ := reachable
  revert epoch
  refine reached.invariant (motive := fun pool => ∀ {epoch}, pool.world.paused job = some epoch →
    ∃ row, (pool.world.jobs.slot job).committed = some row) ?_ ?_ ?_ ?_
  · intro epoch paused
    cases paused
  · intro before pid role world _ ih _ accepted epoch paused
    rw [Pool.start_world] at paused ⊢
    obtain ⟨_, rfl⟩ := accept_eq accepted
    exact ih paused
  · intro before pid role operation next reply world _ ih _ operated epoch paused
    rw [Pool.record_world, operate_paused operated] at paused
    obtain ⟨row, stored⟩ := ih paused
    exact committed_kept operated stored
  · intro before change world _ ih changed epoch paused
    rw [change_slot changed]
    cases change with
    | outside readings =>
        cases changed
        exact ih paused
    | pause root =>
        simp only [platform, World.change] at changed
        split at changed
        · rename_i present
          split at changed
          · cases changed
            exact ih paused
          · cases changed
            by_cases same : job = root
            · rw [same]
              exact Option.isSome_iff_exists.mp present
            · simp only [same, if_false] at paused
              exact ih paused
        · contradiction
    | unpause root =>
        cases changed
        by_cases same : job = root
        · simp [same] at paused
        · simp only [same, if_false] at paused
          exact ih paused
    | reorder order =>
        simp only [platform, World.change] at changed
        split at changed
        · cases changed
          exact ih paused
        · contradiction

end Flags

/-- `ancestor` is reached from `job` by declared dependencies. -/
def Ancestor (world : World) (job ancestor : Uuid) : Prop :=
  Relation.TransGen (fun child parent => parent ∈ world.declaredParents child) job ancestor

def AncestorsFit (world : World) : Prop :=
  ∀ job, ∃ ancestors : Finset Uuid, ancestors.card ≤ 63 ∧ ∀ id, Ancestor world job id → id ∈ ancestors

/-- The entry reads the flag of `root`. -/
def readsFlag (root : Uuid) (entry : PlatformEntry) : Bool :=
  match entry.operation with
  | .command (.pausedFlags ids) => ids.contains root
  | _ => false

section Coverage

variable {settings : Settings} {pool : PlatformPool} {job : Uuid} {pid : Pid}

theorem unpaused_of_unflagged {entry : PlatformEntry} {root : Uuid} (reachable : Reachable settings pool)
    (logged : entry ∈ pool.log) (reads : readsFlag root entry = true) (clear : unflagged (actOf entry) = true) :
    entry.before.paused root = none := by
  obtain ⟨before, _, _, same, _, _, operated⟩ := reachable.moment logged
  obtain ⟨owner, role, operation, reply, world⟩ := entry
  cases same
  unfold readsFlag at reads
  split at reads
  · rename_i ids read
    cases read
    have answered : (ids.map fun id => (before.world.paused id).isSome) = reply :=
      congrArg Prod.fst (Option.some.inj operated)
    subst answered
    have none := firstFlagged_map_eq_none.mp (Option.isNone_iff_eq_none.mp clear) root (by simpa using reads)
    simpa using none
  · contradiction

theorem answer_eq_declaredParents {newer older : List PlatformEntry} {entry sighting : PlatformEntry}
    {node : Uuid} {answer : List Uuid} {row : Job} (reachable : Reachable settings pool)
    (split : pool.log = newer ++ entry :: older) (act : actOf entry = ⟨.query (.parents node), answer⟩)
    (earlier : sighting ∈ older) (stored : (sighting.before.jobs.slot node).committed = some row) :
    answer = pool.world.declaredParents node := by
  obtain ⟨asking, reached, later, _, _, ⟨_, operated⟩, rfl⟩ := reachable.moment_at split
  obtain ⟨sighted, known, since, world, _⟩ := reached.moment earlier
  rw [world] at stored
  obtain ⟨⟨now, present⟩, _⟩ := declaredParents_kept known since stored
  obtain ⟨_, same⟩ := declaredParents_kept reached later present
  obtain ⟨owner, role, operation, reply, before⟩ := entry
  cases act
  have answered : asking.world.parentsOf owner node = reply :=
    congrArg Prod.fst (Option.some.inj operated)
  rw [← answered, (graph_kept reached).parentsOf present, same]

theorem stored_of_ancestor {sighting : PlatformEntry} {row : Job} {ancestor : Uuid}
    (reachable : Reachable settings pool) (logged : sighting ∈ pool.log)
    (stored : (sighting.before.jobs.slot job).committed = some row)
    (above : Ancestor pool.world job ancestor) :
    ∃ row, (sighting.before.jobs.slot ancestor).committed = some row := by
  obtain ⟨sighted, known, since, world, _⟩ := reachable.moment logged
  rw [world] at stored ⊢
  have parents : ∀ {child parent row}, (sighted.world.jobs.slot child).committed = some row →
      parent ∈ pool.world.declaredParents child →
      ∃ row, (sighted.world.jobs.slot parent).committed = some row := by
    intro child parent row stored declared
    rw [(declaredParents_kept known since stored).2] at declared
    exact (graph_kept known).parent_stored declared
  induction above with
  | single declared => exact parents stored declared
  | tail _ declared ih =>
      obtain ⟨row, stored⟩ := ih
      exact parents stored declared

theorem exists_closed (world : World) (fits : AncestorsFit world) (job : Uuid) :
    ∃ closed : Finset Uuid, closed.card ≤ maxAncestorNodes ∧
      (∀ id, id ∈ closed ↔ id = job ∨ Ancestor world job id) := by
  classical
  obtain ⟨ancestors, few, all⟩ := fits job
  refine ⟨(insert job ancestors).filter fun id => id = job ∨ Ancestor world job id, ?_, fun id => ?_⟩
  · refine (Finset.card_filter_le _ _).trans ((Finset.card_insert_le _ _).trans ?_)
    exact Nat.succ_le_succ few
  · rw [Finset.mem_filter, Finset.mem_insert]
    refine ⟨fun member => member.2, fun above => ⟨?_, above⟩⟩
    obtain same | ancestor := above
    · exact .inl same
    · exact .inr (all id ancestor)

theorem last_probe_unpaused {sight : Uuid → Act → Bool} {root : Uuid} (reachable : Reachable settings pool)
    (fits : AncestorsFit pool.world) (probed : Probed sight job (traceOf pid pool.log))
    (stored : ∀ entry ∈ pool.log, entry.pid = pid → sight job (actOf entry) = true →
      ∃ row, (entry.before.jobs.slot job).committed = some row)
    (above : root = job ∨ Ancestor pool.world job root) :
    ∃ probe, (transaction pid pool.log).find? (readsFlag root) = some probe ∧
      probe.before.paused root = none := by
  obtain ⟨later, nodes, flags, answers, earlier, trace, walk, unpaused, since, seen⟩ := probed
  obtain ⟨newer, rest, split, rfl, tail⟩ := List.map_eq_append_iff.mp trace
  obtain ⟨probe, below, rfl, reading, acts⟩ := List.map_eq_cons_iff.mp tail
  obtain ⟨walking, before, rfl, told, sighted⟩ := List.map_eq_append_iff.mp acts
  subst sighted
  obtain ⟨act, member, sees⟩ := List.any_eq_true.mp seen
  obtain ⟨sighting, among, rfl⟩ := List.mem_map.mp member
  have inTransaction : ∀ {entry}, entry ∈ newer ++ probe :: (walking ++ before) →
      entry ∈ pool.log ∧ entry.pid = pid := fun member => transaction_mem (split ▸ member)
  have logged := inTransaction (List.mem_append_right newer (List.mem_cons_of_mem probe
    (List.mem_append_right walking among)))
  obtain ⟨row, committed⟩ := stored sighting logged.1 logged.2 sees
  obtain ⟨closed, few, inside⟩ := exists_closed pool.world fits job
  have agrees : ∀ node answer, (node, answer) ∈ answers → node ∈ closed →
      answer = pool.world.declaredParents node := by
    intro node answer asked inClosed
    have known : ∃ row, (sighting.before.jobs.slot node).committed = some row := by
      obtain rfl | ancestor := (inside node).mp inClosed
      · exact ⟨row, committed⟩
      · exact stored_of_ancestor reachable logged.1 committed ancestor
    obtain ⟨row, known⟩ := known
    have told : (⟨.query (.parents node), answer⟩ : Act) ∈ walking.map actOf := by
      rw [told, List.mem_reverse]
      exact List.mem_map.mpr ⟨(node, answer), asked, rfl⟩
    obtain ⟨entry, answering, act⟩ := List.mem_map.mp told
    obtain ⟨first, second, rfl⟩ := List.append_of_mem answering
    obtain ⟨above, under, cut, transacted⟩ := @transaction_split _ pid pool.log
      (newer ++ probe :: first) (second ++ before) entry (by rw [split]; simp)
    have sooner : sighting ∈ under :=
      (transaction_mem (transacted ▸ List.mem_append_right second among)).1
    exact answer_eq_declaredParents reachable cut act sooner known
  have complete := @Search.Walk.complete Uuid _ _ _ _ _ _ pool.world.declaredParents closed walk
    (fun node member found declared => (inside found).mpr (.inr (by
      obtain rfl | ancestor := (inside node).mp member
      · exact .single declared
      · exact ancestor.tail declared)))
    agrees (fun node member => (inside node).mpr (.inl (List.mem_singleton.mp member)))
    (fun node absurd => by cases absurd) List.nodup_nil (by simpa using few)
    (fun node absurd => by cases absurd)
  have covered : root ∈ nodes := by
    have own : job ∈ nodes := complete.2 job List.mem_cons_self
    obtain rfl | ancestor := above
    · exact own
    · induction ancestor with
      | single declared => exact complete.1 job own _ declared
      | tail _ declared ih => exact complete.1 _ ih _ declared
  have reads : readsFlag root probe = true := by
    obtain ⟨owner, role, operation, reply, world⟩ := probe
    cases reading
    simpa [readsFlag] using covered
  have clear : unflagged (actOf probe) = true := by
    rw [reading, unflagged, unpaused]
    rfl
  have unpausedAt : ∀ {entry}, entry ∈ newer ++ probe :: (walking ++ before) →
      readsFlag root entry = true → unflagged (actOf entry) = true → entry.before.paused root = none :=
    fun member => unpaused_of_unflagged reachable (inTransaction member).1
  rw [split]
  cases found : newer.find? (readsFlag root) with
  | some entry =>
      have member := List.mem_of_find?_eq_some found
      refine ⟨entry, by rw [List.find?_append, found]; rfl, unpausedAt (List.mem_append_left _ member)
        (List.find?_some found) ?_⟩
      exact List.all_eq_true.mp since _ (List.mem_map_of_mem member)
  | none =>
      refine ⟨probe, by rw [List.find?_append, found, List.find?_cons_of_pos reads]; rfl,
        unpausedAt (List.mem_append_right _ List.mem_cons_self) reads clear⟩

end Coverage

section Sightings

variable {settings : Settings} {pool : PlatformPool} {job : Uuid} {entry : PlatformEntry}

theorem stored_of_sights (reachable : Reachable settings pool) (logged : entry ∈ pool.log)
    (other : ¬ entry.role.inserts) (sees : sights job (actOf entry) = true) :
    ∃ row, (entry.before.jobs.slot job).committed = some row := by
  obtain ⟨before, earlier, _, same, ⟨next, stood⟩, _, operated⟩ := reachable.moment logged
  obtain ⟨pid, role, operation, reply, world⟩ := entry
  cases same
  have seen : before.world.Sees pid job := by
    unfold sights at sees
    split at sees
    · rename_i id row act
      cases act
      have read : before.world.jobs.visible pid id = some row :=
        congrArg Prod.fst (Option.some.inj operated)
      rw [← of_decide_eq_true sees]
      exact ⟨row, by rw [Table.slot_visible, read]⟩
    · rename_i id tenant row act
      cases act
      have read : (before.world.jobs.visible pid id).filter (fun job => job.tenantId = tenant) = some row :=
        congrArg Prod.fst (Option.some.inj operated)
      rw [← of_decide_eq_true sees]
      exact ⟨row, by rw [Table.slot_visible, (Option.filter_eq_some_iff.mp read).1]⟩
    · rename_i cursor rows act
      cases act
      obtain ⟨row, member, same⟩ := List.any_eq_true.mp sees
      have read : before.world.promotableWaiting pid cursor = reply :=
        congrArg Prod.fst (Option.some.inj operated)
      rw [← of_decide_eq_true same]
      exact (promotable_seen earlier (read ▸ member)).1
    · contradiction
  obtain ⟨row, seen⟩ := seen
  exact stored_of_seen earlier seen stood other

theorem uncompleted_of_creates {pid : Pid} {row : Job} {process : Process Role Op Reply}
    (reachable : Reachable settings pool) (held : (pool.world.jobs.slot job).holder = some (pid, row))
    (present : pool.process pid = some process) (creates : process.role.creates) :
    row.status ≠ .completed := by
  refine @held_of_writes settings pool job (fun role => role.creates) (fun row => row.status ≠ .completed)
    reachable ?_ _ _ _ held present creates
  intro before pid role operation next reply new earlier found creates writes
  have may := next_may earlier found
  have rule := rule_kept (program_keeps_pauseRule settings) earlier found
  cases operation with
  | statement issued =>
      cases issued with
      | updateStatus id write guard => cases role <;> first
          | exact absurd creates Bool.false_ne_true
          | exact may.elim
      | claimForRunning id => cases role <;> first
          | exact absurd creates Bool.false_ne_true
          | exact absurd may Bool.false_ne_true
      | promoteWaitingToPending id => cases role <;> first
          | exact absurd creates Bool.false_ne_true
          | exact absurd may Bool.false_ne_true
      | cancelBlocked ids reason stamp =>
          obtain ⟨_, _, _, _, _, rfl⟩ := writes
          simp [World.cancelledRow]
      | stampRequeued id stamp =>
          cases may
          cases creates
      | renewRunningLeases ids oldest stamp =>
          cases may
          cases creates
      | insertJob draft =>
          obtain ⟨_, _, _, rfl⟩ := writes
          exact rule creates
      | _ => exact writes.elim
  | _ => exact writes.elim

theorem stored_of_sightsCompleted (reachable : Reachable settings pool) (logged : entry ∈ pool.log)
    (creates : entry.role.creates) (sees : sightsCompleted job (actOf entry) = true) :
    ∃ row, (entry.before.jobs.slot job).committed = some row := by
  obtain ⟨before, earlier, _, same, ⟨next, stood⟩, _, operated⟩ := reachable.moment logged
  obtain ⟨pid, role, operation, reply, world⟩ := entry
  cases same
  unfold sightsCompleted at sees
  split at sees
  · rename_i id row act
    cases act
    obtain ⟨named, completed⟩ := Bool.and_eq_true_iff.mp sees
    obtain rfl := of_decide_eq_true named
    have read : before.world.jobs.visible pid id = some row :=
      congrArg Prod.fst (Option.some.inj operated)
    rw [← Table.slot_visible] at read
    by_cases held : ∃ version, (before.world.jobs.slot id).holder = some (pid, version)
    · obtain ⟨version, held⟩ := held
      rw [Slot.visible_of_held held] at read
      cases read
      exact absurd (of_decide_eq_true completed) (uncompleted_of_creates earlier held stood creates)
    · rw [Slot.visible_of_free fun version mine => held ⟨version, mine⟩] at read
      exact ⟨row, read⟩
  · contradiction

end Sightings

/-- The act promotes, claims or replays `job`. -/
def advances (role : Role) (job : Uuid) : Act → Bool
  | ⟨.statement (.promoteWaitingToPending id), changed⟩ => id = job && changed
  | ⟨.statement (.claimForRunning id), changed⟩ => id = job && changed
  | ⟨.statement (.updateStatus id _ _), changed⟩ => role.replays && id = job && changed
  | _ => false

def declares (job : Uuid) (parents : List Uuid) : Act → Bool
  | ⟨.statement (.insertDependencies id declared), accepted⟩ => id = job && declared = parents && accepted
  | _ => false

def insertsPending : Act → Bool
  | ⟨.statement (.insertJob draft), some _⟩ => draft.status = .pending
  | _ => false

/-- The entry dispatches a job that is `root` or below it: it advances one, or
it declares the dependencies of one that its transaction has just inserted
PENDING. -/
def DispatchesBelow (older : List PlatformEntry) (entry : PlatformEntry) (root : Uuid) : Prop :=
  ∃ job, (advances entry.role job (actOf entry) = true ∧ (root = job ∨ Ancestor entry.before job root)) ∨
    ∃ parents, declares job parents (actOf entry) = true ∧
      (traceOf entry.pid older).head?.any insertsPending = true ∧
      (root = job ∨ ∃ parent ∈ parents, root = parent ∨ Ancestor entry.before parent root)

section Dispatches

variable {settings : Settings} {pool : PlatformPool} {newer older : List PlatformEntry}
  {entry : PlatformEntry} {root job : Uuid}

theorem probed_of_advances {next : Reply entry.operation → Prog Unit} (reachable : Reachable settings pool)
    (stood : pool.process entry.pid = some { role := entry.role, program := .call entry.operation next })
    (advance : advances entry.role job (actOf entry) = true) :
    ¬ entry.role.inserts ∧ Probed sights job (traceOf entry.pid pool.log) := by
  have may := next_may reachable stood
  have rule := rule_kept (program_keeps_pauseRule settings) reachable stood
  obtain ⟨pid, role, operation, reply, world⟩ := entry
  unfold advances at advance
  split at advance
  · rename_i id changed act
    cases act
    obtain rfl := of_decide_eq_true (Bool.and_eq_true_iff.mp advance).1
    refine ⟨?_, rule⟩
    cases role <;> first
      | exact Bool.false_ne_true
      | exact absurd may Bool.false_ne_true
  · rename_i id changed act
    cases act
    obtain rfl := of_decide_eq_true (Bool.and_eq_true_iff.mp advance).1
    refine ⟨?_, rule⟩
    cases role <;> first
      | exact Bool.false_ne_true
      | exact absurd may Bool.false_ne_true
  · rename_i id write guard changed act
    cases act
    simp only [Bool.and_eq_true, decide_eq_true_eq] at advance
    obtain ⟨⟨replays, rfl⟩, _⟩ := advance
    refine ⟨?_, rule replays⟩
    cases role <;> first
      | exact Bool.false_ne_true
      | exact absurd replays Bool.false_ne_true
  · contradiction

theorem probed_of_declares {next : Reply entry.operation → Prog Unit} {parents : List Uuid}
    (reachable : Reachable settings pool)
    (stood : pool.process entry.pid = some { role := entry.role, program := .call entry.operation next })
    (declare : declares job parents (actOf entry) = true)
    (pending : (traceOf entry.pid pool.log).head?.any insertsPending = true) :
    entry.role.creates ∧ (pool.world.jobs.slot job).committed = none ∧
      ∀ parent ∈ parents, Probed sightsCompleted parent (traceOf entry.pid pool.log) := by
  have may := next_may reachable stood
  have rule := rule_kept (program_keeps_pauseRule settings) reachable stood
  have permitted := creation_permits reachable stood
  obtain ⟨pid, role, operation, reply, world⟩ := entry
  unfold declares at declare
  split at declare
  · rename_i id declared accepted act
    cases act
    simp only [Bool.and_eq_true, decide_eq_true_eq] at declare
    obtain ⟨⟨rfl, rfl⟩, _⟩ := declare
    obtain ⟨known, latest, _⟩ := permitted
    obtain ⟨draft, row, earlier, trace, _, probed⟩ := rule
    obtain ⟨⟨absent, _⟩, _⟩ := (graph_kept reachable).latest pid id known latest
    have status : draft.status = .pending := by
      rw [trace, List.head?_cons, Option.any_some] at pending
      exact of_decide_eq_true pending
    exact ⟨may, absent, probed status (traceOf_keyed reachable pid)⟩
  · contradiction

/-- While the flag of `root` is present, a job that is `root` or below it is
dispatched only by a transaction that read the flag last before it was set. -/
theorem pause_binds_dispatch {epoch : Nat} (reachable : Reachable settings pool)
    (split : pool.log = newer ++ entry :: older) (fits : AncestorsFit entry.before)
    (dispatches : DispatchesBelow older entry root) (paused : entry.before.paused root = some epoch) :
    ∃ probe, (transaction entry.pid older).find? (readsFlag root) = some probe ∧
      probe.before.paused root = none := by
  obtain ⟨before, earlier, _, same, ⟨next, stood⟩, _, rfl⟩ := reachable.moment_at split
  rw [same] at fits paused
  have roles : ∀ other ∈ before.log, other.pid = entry.pid → other.role = entry.role := by
    intro other logged own
    obtain ⟨process, present, agrees⟩ := logged_started earlier other logged
    rw [own, stood] at present
    cases present
    exact agrees.symm
  obtain ⟨job, ⟨advance, above⟩ | ⟨parents, declare, pending, above⟩⟩ := dispatches
  · rw [same] at above
    obtain ⟨others, probed⟩ := probed_of_advances earlier stood advance
    refine last_probe_unpaused earlier fits probed (fun other logged own sees => ?_) above
    exact stored_of_sights earlier logged (roles other logged own ▸ others) sees
  · obtain ⟨creates, absent, probed⟩ := probed_of_declares earlier stood declare pending
    obtain rfl | ⟨parent, member, above⟩ := above
    · obtain ⟨row, stored⟩ := stored_of_paused earlier paused
      rw [absent] at stored
      cases stored
    · rw [same] at above
      refine last_probe_unpaused earlier fits (probed parent member) (fun other logged own sees => ?_) above
      exact stored_of_sightsCompleted earlier logged (roles other logged own ▸ creates) sees

end Dispatches

theorem ancestorsFit_of_few {world : World} (few : world.dependencies.committed.length ≤ 63) :
    AncestorsFit world := by
  refine fun job => ⟨(world.dependencies.committed.map JobDependency.dependsOn).toFinset, ?_, ?_⟩
  · exact (List.toFinset_card_le _).trans (by simpa using few)
  · have declared : ∀ {child parent}, parent ∈ world.declaredParents child →
        parent ∈ (world.dependencies.committed.map JobDependency.dependsOn).toFinset := by
      intro child parent member
      obtain ⟨edge, among, rfl⟩ := List.mem_map.mp member
      exact List.mem_toFinset.mpr (List.mem_map_of_mem (List.mem_of_mem_filter among))
    intro ancestor above
    cases above with
    | single member => exact declared member
    | tail _ member => exact declared member

def pausedAfterProbe : List (Label Role Change) :=
  [.spawn 1 (.createJob { userId := 7, tenantId := 8, jobType := "csv_upload" })] ++ turns 1 4 ++
  [.spawn 2 .outboxRelay] ++ turns 2 6 ++ [.spawn 3 (.deliver 1)] ++ turns 3 3 ++
  [.environment (.pause 1)] ++ turns 3 1

theorem pause_binds_dispatch_after_probe : ∃ pool older entry epoch,
    Reachable .defaults pool ∧ pool.log = [] ++ entry :: older ∧ AncestorsFit entry.before ∧
    DispatchesBelow older entry 1 ∧ entry.before.paused 1 = some epoch ∧
    ∃ probe, (transaction entry.pid older).find? (readsFlag 1) = some probe ∧
      probe.before.paused 1 = none := by
  obtain ⟨pool, reachable, checked⟩ : ∃ pool, Reachable .defaults pool ∧
      (match pool.log with
        | [] => false
        | entry :: _ => advances entry.role 1 (actOf entry) && (entry.before.paused 1).isSome &&
            decide (entry.before.dependencies.committed.length ≤ 63)) = true :=
    exists_reachable pausedAfterProbe (by decide +kernel)
  split at checked
  · contradiction
  · rename_i entry older log
    simp only [Bool.and_eq_true, decide_eq_true_eq] at checked
    obtain ⟨⟨advance, flagged⟩, few⟩ := checked
    obtain ⟨epoch, paused⟩ := Option.isSome_iff_exists.mp flagged
    have below : DispatchesBelow older entry 1 := ⟨1, .inl ⟨advance, .inl rfl⟩⟩
    exact ⟨pool, older, entry, epoch, reachable, log, ancestorsFit_of_few few, below, paused,
      @pause_binds_dispatch .defaults pool [] older entry 1 epoch reachable log (ancestorsFit_of_few few)
        below paused⟩

def probesPause (entry : PlatformEntry) : Bool :=
  match entry.operation with
  | .command (.pausedFlags _) => true
  | _ => false

/-- Job 5 is created below the completed jobs 1 and 2, and job 1 is paused
between the probes of the two. -/
def pausedBetweenParents : List (Label Role Change) :=
  [.spawn 1 (.createJob { userId := 7, tenantId := 8, jobType := "csv_upload" })] ++ turns 1 4 ++
  tick 2 .timedOut ++
  [.spawn 2 (.createJob { userId := 7, tenantId := 8, jobType := "csv_upload" })] ++ turns 2 4 ++
  tick 3 .timedOut ++ [.spawn 3 (.resolveIncident 1 7 8)] ++ turns 3 6 ++
  tick 4 .timedOut ++ [.spawn 4 (.resolveIncident 2 7 8)] ++ turns 4 6 ++
  tick 5 .timedOut ++
  [.spawn 5 (.createJob
    { userId := 7, tenantId := 8, jobType := "csv_upload", dependencies := [1, 2] })] ++ turns 5 4 ++
  [.environment (.pause 1)] ++ turns 5 4

theorem pause_missed_between_parents :
    ¬ ∀ (settings : Settings) (pool : PlatformPool) (newer older : List PlatformEntry)
        (entry : PlatformEntry) (root : Uuid) (epoch : Nat),
      Reachable settings pool → pool.log = newer ++ entry :: older → AncestorsFit entry.before →
      DispatchesBelow older entry root → entry.before.paused root = some epoch →
      ∃ probe, (transaction entry.pid older).find? probesPause = some probe ∧
        probe.before.paused root = none := by
  intro binding
  obtain ⟨pool, reachable, checked⟩ : ∃ pool, Reachable .defaults pool ∧
      (match pool.log with
        | [] => false
        | entry :: older => declares 5 [1, 2] (actOf entry) &&
            (traceOf entry.pid older).head?.any insertsPending && (entry.before.paused 1).isSome &&
            decide (entry.before.dependencies.committed.length ≤ 63) &&
            ((transaction entry.pid older).find? probesPause).all fun probe =>
              (probe.before.paused 1).isSome) = true :=
    exists_reachable pausedBetweenParents (by decide +kernel)
  split at checked
  · contradiction
  · rename_i entry older log
    simp only [Bool.and_eq_true, decide_eq_true_eq] at checked
    obtain ⟨⟨⟨⟨declare, pending⟩, flagged⟩, few⟩, probed⟩ := checked
    obtain ⟨epoch, paused⟩ := Option.isSome_iff_exists.mp flagged
    obtain ⟨probe, last, unpaused⟩ := binding .defaults pool [] older entry 1 epoch reachable log
      (ancestorsFit_of_few few)
      ⟨5, .inr ⟨[1, 2], declare, pending, .inr ⟨1, List.mem_cons_self, .inl rfl⟩⟩⟩ paused
    rw [last, Option.all_some, unpaused] at probed
    cases probed

end IncidentPlatform.Properties

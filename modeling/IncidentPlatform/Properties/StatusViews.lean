import IncidentPlatform.Workers.ReadModel

namespace IncidentPlatform.Properties

open Models Concurrency Storage Workers

/-! # Status views under redelivery

A terminal event moves the job wherever it is; everything else stops at the
terminal views.  So the views remember the terminal event that was delivered
last, which need not be the one that was written last.
-/

variable {textOrder : String → String → Bool} {view : StatusView} {model : ReadModel}
  {now later score : Time} {jobId other tenantId userId : String} {key : StatusKey}
  {status newStatus : TrackedStatus}

theorem live_zrem : (view.zrem now jobId).live now = (view.live now).remove [jobId] := by
  simp only [StatusView.zrem]
  generalize (view.live now).remove [jobId] = left
  cases empty : left.isEmpty <;> cases view.expiresAt <;> simp [StatusView.live, Option.filter]
  all_goals split <;> simp_all

theorem live_zadd : (view.zadd now jobId score).live now = (view.live now).add jobId score := by
  simp only [StatusView.zadd]
  generalize (view.live now).add jobId score = grown
  cases view.expiresAt <;> simp [StatusView.live, Option.filter]
  split <;> simp_all

theorem mem_live_later (elapsed : now ≤ later) (member : jobId ∈ (view.live later).members) :
    jobId ∈ (view.live now).members := by
  unfold StatusView.live at member ⊢
  split at member
  · rename_i lives
    rw [if_pos]
    · exact member
    · cases deadline : view.expiresAt with
      | none => rfl
      | some expiresAt =>
          rw [deadline] at lives
          simpa using Nat.lt_of_le_of_lt elapsed (by simpa using lives)
  · simp [SortedSet.members] at member

theorem live_of_lives (lives : (view.expiresAt.all fun expiresAt => now < expiresAt) = true) :
    view.live now = view.set := by
  unfold StatusView.live
  rw [if_pos lives]

theorem zadd_lives :
    (((view.zadd now jobId score).expiresAt).all fun expiresAt => now < expiresAt) = true := by
  simp only [StatusView.zadd]
  cases view.expiresAt with
  | none => rfl
  | some expiresAt => by_cases lives : now < expiresAt <;> simp [Option.filter, lives]

theorem trim_set : (view.trim textOrder now).set =
    if (view.overflow textOrder now).isEmpty then view.set
    else (view.live now).remove (view.overflow textOrder now) := by
  unfold StatusView.trim
  exact apply_ite StatusView.set ..

theorem mem_trim (lives : (view.expiresAt.all fun expiresAt => now < expiresAt) = true) :
    jobId ∈ (view.trim textOrder now).set.members ↔
      jobId ∈ view.set.members ∧ jobId ∉ view.overflow textOrder now := by
  rw [trim_set]
  split
  · rename_i none
    simp [List.isEmpty_iff.mp none]
  · rw [SortedSet.mem_members_remove, live_of_lives lives]

theorem readModelTtl_pos : 0 < readModelTtl := by decide

theorem lives_until {span : Time} (positive : 0 < span) :
    ((some (now + span)).all fun expiresAt => now < expiresAt) = true := by
  simpa using positive

theorem expire_lives :
    (((view.expire now).expiresAt).all fun expiresAt => now < expiresAt) = true :=
  lives_until readModelTtl_pos

@[simp] theorem expire_set : (view.expire now).set = view.set := rfl

theorem mem_project : other ∈ ((view.project textOrder now jobId score).live now).members ↔
    (other = jobId ∨ other ∈ (view.live now).members) ∧
      other ∉ (view.zadd now jobId score).overflow textOrder now := by
  unfold StatusView.project
  rw [live_of_lives expire_lives, expire_set, mem_trim zadd_lives, ← live_of_lives zadd_lives, live_zadd,
    SortedSet.mem_members_add]

def inScope (tenantId userId : String) (key : StatusKey) : Prop :=
  key.scope = .tenant tenantId ∨ key.scope = .user userId

instance : Decidable (inScope tenantId userId key) := inferInstanceAs (Decidable (_ ∨ _))

theorem change_twice {command : StatusView → StatusView} :
    ((model.change ⟨.tenant tenantId, status⟩ command).change ⟨.user userId, status⟩ command) key =
      if inScope tenantId userId key ∧ key.status = status then command (model key) else model key := by
  obtain ⟨scope, held⟩ := key
  by_cases same : held = status
  · subst same
    cases scope <;> simp [ReadModel.change, Function.update_apply, inScope] <;> split <;> simp_all
  · simp [ReadModel.change, same]

theorem removals_at (statuses : List TrackedStatus) (distinct : statuses.Nodup) :
    (statuses.foldl (fun (model : ReadModel) status =>
      (model.change ⟨.tenant tenantId, status⟩ fun view => view.zrem now jobId).change
        ⟨.user userId, status⟩ fun view => view.zrem now jobId) model) key =
      if inScope tenantId userId key ∧ key.status ∈ statuses then (model key).zrem now jobId
      else model key := by
  induction statuses generalizing model with
  | nil => simp
  | cons status rest ih =>
      obtain ⟨fresh, distinct⟩ := List.nodup_cons.mp distinct
      rw [List.foldl_cons, ih distinct, change_twice]
      by_cases among : inScope tenantId userId key
      · by_cases first : key.status = status
        · simp [among, first, fresh]
        · simp [among, first]
      · simp [among]

theorem move_at : model.move textOrder now tenantId userId jobId newStatus key =
    if inScope tenantId userId key then
      if key.status = newStatus then (model key).project textOrder now jobId now
      else (model key).zrem now jobId
    else model key := by
  have distinct : (trackedStatuses.filter fun status => status ≠ newStatus).Nodup :=
    List.Nodup.filter _ (by decide)
  have tracked : key.status ∈ trackedStatuses := by cases key.status <;> decide
  unfold ReadModel.move
  rw [change_twice, removals_at _ distinct]
  by_cases among : inScope tenantId userId key <;> by_cases same : key.status = newStatus <;>
    simp [among, same, tracked]

theorem has_eq_true : model.has now key jobId = true ↔ jobId ∈ ((model key).live now).members := by
  simp [ReadModel.has]

theorem has_move_self (among : inScope tenantId userId key) :
    (model.move textOrder now tenantId userId jobId newStatus).has now key jobId = true ↔
      key.status = newStatus ∧ jobId ∉ ((model key).zadd now jobId now).overflow textOrder now := by
  rw [has_eq_true, move_at, if_pos among]
  by_cases same : key.status = newStatus
  · simp [same, mem_project]
  · simp [same, live_zrem, SortedSet.mem_members_remove]

theorem has_move_other (distinct : other ≠ jobId) :
    (model.move textOrder now tenantId userId jobId newStatus).has now key other = true ↔
      model.has now key other = true ∧ (inScope tenantId userId key → key.status = newStatus →
        other ∉ ((model key).zadd now jobId now).overflow textOrder now) := by
  rw [has_eq_true, has_eq_true, move_at]
  by_cases among : inScope tenantId userId key <;> by_cases same : key.status = newStatus
  · simp [among, same, mem_project, distinct]
  · simp [among, same, live_zrem, SortedSet.mem_members_remove, distinct]
  · simp [among]
  · simp [among]

structure ViewMove where
  tenantId : String
  userId : String
  jobId : String
  newStatus : TrackedStatus

def moveOf (value : LifecycleMessage) : Option ViewMove := do
  let jobId ← given value.jobId
  let userId ← given value.userId
  let tenantId ← given value.tenantId
  let event ← given value.event
  let newStatus ← projectedStatus event value.deadLettered
  return ⟨tenantId, userId, jobId, newStatus⟩

theorem handleMessage_eq (value : LifecycleMessage) :
    model.handleMessage textOrder now value =
      match moveOf value with
      | some move =>
          if move.newStatus ∉ terminalStatuses ∧ terminalStatuses.any fun status =>
              model.has now ⟨.tenant move.tenantId, status⟩ move.jobId then model
          else model.move textOrder now move.tenantId move.userId move.jobId move.newStatus
      | none => model := by
  unfold ReadModel.handleMessage moveOf
  cases given value.jobId with
  | none => rfl
  | some jobId =>
      cases given value.userId with
      | none => rfl
      | some userId =>
          cases given value.tenantId with
          | none => rfl
          | some tenantId =>
              cases given value.event with
              | none => rfl
              | some event => cases projected : projectedStatus event value.deadLettered <;> simp [projected]

theorem moveOf_jobId {value : LifecycleMessage} {move : ViewMove} (moves : moveOf value = some move) :
    value.jobId = some move.jobId := by
  unfold moveOf at moves
  simp only [Option.bind_eq_bind, Option.bind_eq_some_iff] at moves
  obtain ⟨jobId, asked, _, _, _, _, _, _, _, _, same⟩ := moves
  cases same
  exact (Option.filter_eq_some_iff.mp asked).1

variable {ids : JobIds} {job before after last : ProjectedJob} {action : ProjectedJob.Action}
  {steps : List (ProjectedJob × ProjectedJob.Action)} {initialStatus rowStatus : JobStatus}
  {value : LifecycleMessage}

/-- A key of the job's own scopes. -/
abbrev ownKey (ids : JobIds) : StatusKey → Prop := inScope ids.tenantId ids.userId

def deliveredBy (job : ProjectedJob) : ProjectedJob.Action → Option LifecycleMessage
  | .deliver topic => (job.emitted topic)[job.handled topic]?
  | .redeliver topic index => (job.emitted topic)[index]?
  | .other value => some value
  | _ => none

/-- The terminal status that a step tells the projector of the job. -/
def toldBy (ids : JobIds) (job : ProjectedJob) (action : ProjectedJob.Action) : Option TrackedStatus := do
  let move ← (deliveredBy job action).bind moveOf
  if move.jobId = ids.jobId ∧ move.newStatus ∈ terminalStatuses then some move.newStatus else none

/-- The job's id is trimmed from a view that a message moves its job to. -/
def CrowdsOut (textOrder : String → String → Bool) (ids : JobIds) (status : TrackedStatus)
    (job : ProjectedJob) (move : ViewMove) : Prop :=
  ∃ key, ownKey ids key ∧ key.status = status ∧ inScope move.tenantId move.userId key ∧
    move.newStatus = status ∧
    ids.jobId ∈ ((job.model key).zadd job.now move.jobId job.now).overflow textOrder job.now

/-- A view of the status loses the job in a step: its TTL is over, or the window
has no room. -/
def LosesIn (textOrder : String → String → Bool) (ids : JobIds) (status : TrackedStatus)
    (job : ProjectedJob) (action : ProjectedJob.Action) : Prop :=
  (∃ elapsed key, action = .pass elapsed ∧ ownKey ids key ∧ key.status = status ∧
    job.model.has job.now key ids.jobId = true ∧
    job.model.has (job.now + elapsed) key ids.jobId = false) ∨
  ∃ move, (deliveredBy job action).bind moveOf = some move ∧ CrowdsOut textOrder ids status job move

/-- The terminal status told last is `status`, and its views have kept the job
since. -/
def RememberedIn (textOrder : String → String → Bool) (ids : JobIds) (status : TrackedStatus) :
    List (ProjectedJob × ProjectedJob.Action) → Prop
  | [] => False
  | (job, action) :: earlier => ¬ LosesIn textOrder ids status job action ∧
      (toldBy ids job action = some status ∨
        toldBy ids job action = none ∧ RememberedIn textOrder ids status earlier)

def HeldIn (ids : JobIds) (status : TrackedStatus) (job : ProjectedJob) : Prop :=
  ∀ key, ownKey ids key → key.status = status → job.model.has job.now key ids.jobId = true

def OwnMessages (ids : JobIds) (job : ProjectedJob) : Prop :=
  ∀ topic, ∀ value ∈ job.emitted topic, ∃ event deadLettered,
    value = ProjectedJob.message ids event deadLettered

theorem OwnMessages.emit (own : OwnMessages ids job) {topic : LifecycleTopic} {event : String}
    {deadLettered : Bool} :
    OwnMessages ids (job.emit topic (ProjectedJob.message ids event deadLettered)) := by
  intro other value member
  simp only [ProjectedJob.emit, Function.update_apply] at member
  split at member
  · rename_i same
    obtain earlier | newest := List.mem_append.mp member
    · exact own _ value earlier
    · exact ⟨event, deadLettered, List.mem_singleton.mp newest⟩
  · exact own _ value member

theorem OwnMessages.step (own : OwnMessages ids before)
    (stepped : ProjectedJob.step textOrder ids action before = some after) : OwnMessages ids after := by
  cases action with
  | pass elapsed =>
      cases stepped
      exact own
  | updateStatus status =>
      cases stepped
      cases status <;> first | exact own | exact OwnMessages.emit own
  | progress | retry =>
      cases stepped
      exact own.emit
  | deliver topic =>
      simp only [ProjectedJob.step, Option.bind_eq_bind, Option.bind_eq_some_iff] at stepped
      obtain ⟨value, _, same⟩ := stepped
      cases same
      exact own
  | redeliver topic index =>
      simp only [ProjectedJob.step] at stepped
      split at stepped
      · obtain ⟨value, _, same⟩ := Option.map_eq_some_iff.mp stepped
        cases same
        exact own
      · contradiction
  | other value =>
      simp only [ProjectedJob.step] at stepped
      split at stepped
      · contradiction
      · cases stepped
        exact own

theorem step_views (stepped : ProjectedJob.step textOrder ids action before = some after) :
    (∃ value, deliveredBy before action = some value ∧ after.now = before.now ∧
      after.model = before.model.handleMessage textOrder before.now value) ∨
    deliveredBy before action = none ∧ after.model = before.model ∧
      ((∀ elapsed, action ≠ .pass elapsed) ∧ after.now = before.now ∨
        ∃ elapsed, action = .pass elapsed ∧ after.now = before.now + elapsed) := by
  cases action with
  | pass elapsed =>
      cases stepped
      exact .inr ⟨rfl, rfl, .inr ⟨elapsed, rfl, rfl⟩⟩
  | updateStatus status =>
      cases stepped
      cases status <;> exact .inr ⟨rfl, rfl, .inl ⟨nofun, rfl⟩⟩
  | progress | retry =>
      cases stepped
      exact .inr ⟨rfl, rfl, .inl ⟨nofun, rfl⟩⟩
  | deliver topic =>
      simp only [ProjectedJob.step, Option.bind_eq_bind, Option.bind_eq_some_iff] at stepped
      obtain ⟨value, next, same⟩ := stepped
      cases same
      exact .inl ⟨value, next, rfl, rfl⟩
  | redeliver topic index =>
      simp only [ProjectedJob.step] at stepped
      split at stepped
      · obtain ⟨value, found, same⟩ := Option.map_eq_some_iff.mp stepped
        cases same
        exact .inl ⟨value, found, rfl, rfl⟩
      · contradiction
  | other value =>
      simp only [ProjectedJob.step] at stepped
      split at stepped
      · contradiction
      · cases stepped
        exact .inl ⟨value, rfl, rfl, rfl⟩

theorem own_move (own : OwnMessages ids before) {move : ViewMove}
    (stepped : ProjectedJob.step textOrder ids action before = some after)
    (delivered : deliveredBy before action = some value) (moves : moveOf value = some move)
    (same : move.jobId = ids.jobId) : move.tenantId = ids.tenantId ∧ move.userId = ids.userId := by
  have owned : ∃ event deadLettered, value = ProjectedJob.message ids event deadLettered := by
    cases action with
    | pass | updateStatus | progress | retry => contradiction
    | deliver topic => exact own topic value (List.mem_of_getElem? delivered)
    | redeliver topic index => exact own topic value (List.mem_of_getElem? delivered)
    | other carried =>
        cases delivered
        simp [ProjectedJob.step, moveOf_jobId moves, same] at stepped
  obtain ⟨event, deadLettered, rfl⟩ := owned
  unfold moveOf at moves
  simp only [Option.bind_eq_bind, Option.bind_eq_some_iff] at moves
  obtain ⟨_, _, userId, user, tenantId, tenant, _, _, _, _, rest⟩ := moves
  cases rest
  have user := (Option.filter_eq_some_iff.mp user).1
  have tenant := (Option.filter_eq_some_iff.mp tenant).1
  exact ⟨(Option.some.inj tenant).symm, (Option.some.inj user).symm⟩

theorem ownKey_tenant : ownKey ids ⟨.tenant ids.tenantId, status⟩ := .inl rfl

theorem step_moves (stepped : ProjectedJob.step textOrder ids action before = some after) :
    (∃ move, (deliveredBy before action).bind moveOf = some move ∧ after.now = before.now ∧
      (move.newStatus ∉ terminalStatuses → ∀ status ∈ terminalStatuses,
        before.model.has before.now ⟨.tenant move.tenantId, status⟩ move.jobId = false) ∧
      after.model =
        before.model.move textOrder before.now move.tenantId move.userId move.jobId move.newStatus) ∨
    after.model = before.model ∧
      (∀ move, (deliveredBy before action).bind moveOf = some move → move.newStatus ∉ terminalStatuses) ∧
      ((∀ elapsed, action ≠ .pass elapsed) ∧ after.now = before.now ∨
        ∃ elapsed, action = .pass elapsed ∧ after.now = before.now + elapsed) := by
  obtain ⟨value, delivered, now, handled⟩ | ⟨delivered, model, time⟩ := step_views stepped
  · rw [handleMessage_eq] at handled
    have noPass : ∀ elapsed, action ≠ .pass elapsed := fun elapsed same => by
      subst same
      contradiction
    simp only [delivered, Option.bind_some]
    cases moves : moveOf value with
    | none =>
        rw [moves] at handled
        exact .inr ⟨handled, nofun, .inl ⟨noPass, now⟩⟩
    | some move =>
        simp only [moves] at handled
        split at handled
        · rename_i stopped
          refine .inr ⟨handled, fun other same => ?_, .inl ⟨noPass, now⟩⟩
          cases same
          exact stopped.1
        · rename_i passes
          refine .inl ⟨move, rfl, now, fun nonterminal status terminal => ?_, handled⟩
          refine eq_false_of_ne_true fun found => passes ⟨nonterminal, ?_⟩
          exact List.any_eq_true.mpr ⟨status, terminal, found⟩
  · exact .inr ⟨model, fun move same => by simp [delivered] at same, time⟩

theorem toldBy_of_move {move : ViewMove} (moves : (deliveredBy before action).bind moveOf = some move) :
    toldBy ids before action =
      if move.jobId = ids.jobId ∧ move.newStatus ∈ terminalStatuses then some move.newStatus else none := by
  simp [toldBy, moves]

theorem toldBy_of_nonterminal (nonterminal : ∀ move, (deliveredBy before action).bind moveOf = some move →
    move.newStatus ∉ terminalStatuses) : toldBy ids before action = none := by
  cases moves : (deliveredBy before action).bind moveOf with
  | none => simp [toldBy, moves]
  | some move => simp [toldBy_of_move moves, nonterminal move moves]

theorem not_pass_of_move {move : ViewMove} (moves : (deliveredBy before action).bind moveOf = some move) :
    ∀ elapsed, action ≠ .pass elapsed := by
  intro elapsed same
  simp [same, deliveredBy] at moves

theorem losesIn_of_move {move : ViewMove} (moves : (deliveredBy before action).bind moveOf = some move) :
    LosesIn textOrder ids status before action ↔ CrowdsOut textOrder ids status before move := by
  have noPass := not_pass_of_move moves
  simp [LosesIn, moves, noPass]

theorem held_own_move (own : OwnMessages ids before) (terminal : status ∈ terminalStatuses) {move : ViewMove}
    (stepped : ProjectedJob.step textOrder ids action before = some after)
    (moves : (deliveredBy before action).bind moveOf = some move) (same : move.jobId = ids.jobId)
    (now : after.now = before.now)
    (unstopped : move.newStatus ∉ terminalStatuses → ∀ status ∈ terminalStatuses,
      before.model.has before.now ⟨.tenant move.tenantId, status⟩ move.jobId = false)
    (moved : after.model =
      before.model.move textOrder before.now move.tenantId move.userId move.jobId move.newStatus) :
    HeldIn ids status after ↔ ¬ LosesIn textOrder ids status before action ∧
      (toldBy ids before action = some status ∨
        toldBy ids before action = none ∧ HeldIn ids status before) := by
  obtain ⟨value, delivered, asks⟩ := Option.bind_eq_some_iff.mp moves
  obtain ⟨tenant, user⟩ := own_move own stepped delivered asks same
  have held : HeldIn ids status after ↔ ∀ key, ownKey ids key → key.status = status →
      key.status = move.newStatus ∧
        ids.jobId ∉ ((before.model key).zadd before.now ids.jobId before.now).overflow textOrder before.now := by
    unfold HeldIn
    rw [moved, now, tenant, user, same]
    exact forall_congr' fun key => forall_congr' fun among => by rw [has_move_self among]
  rw [losesIn_of_move moves, toldBy_of_move moves, held]
  by_cases tells : move.newStatus ∈ terminalStatuses
  · simp only [same, tells, and_self, if_true, CrowdsOut, tenant, user, reduceCtorEq, false_and, or_false,
      Option.some.injEq]
    constructor
    · intro kept
      have told := (kept _ ownKey_tenant rfl).1.symm
      refine ⟨fun ⟨key, among, status, _, _, crowded⟩ => ?_, told⟩
      exact (kept key among status).2 crowded
    · rintro ⟨kept, told⟩ key among status
      exact ⟨status.trans told.symm, fun crowded => kept ⟨key, among, status, among, told, crowded⟩⟩
  · simp only [tells, and_false, if_false, reduceCtorEq, true_and, false_or]
    constructor
    · intro kept
      have told := (kept _ ownKey_tenant rfl).1
      exact absurd (told ▸ terminal) tells
    · rintro ⟨_, before⟩
      have found := before _ ownKey_tenant rfl
      rw [← tenant, ← same, unstopped tells status terminal] at found
      contradiction

theorem held_other_move {move : ViewMove} (moves : (deliveredBy before action).bind moveOf = some move)
    (distinct : move.jobId ≠ ids.jobId) (now : after.now = before.now)
    (moved : after.model =
      before.model.move textOrder before.now move.tenantId move.userId move.jobId move.newStatus) :
    HeldIn ids status after ↔ ¬ LosesIn textOrder ids status before action ∧
      (toldBy ids before action = some status ∨
        toldBy ids before action = none ∧ HeldIn ids status before) := by
  have held : HeldIn ids status after ↔ ∀ key, ownKey ids key → key.status = status →
      before.model.has before.now key ids.jobId = true ∧
        (inScope move.tenantId move.userId key → key.status = move.newStatus → ids.jobId ∉
          ((before.model key).zadd before.now move.jobId before.now).overflow textOrder before.now) := by
    unfold HeldIn
    rw [moved, now]
    exact forall_congr' fun key => forall_congr' fun among => by rw [has_move_other distinct.symm]
  rw [losesIn_of_move moves, toldBy_of_move moves, held]
  simp only [distinct, false_and, if_false, reduceCtorEq, true_and, false_or, CrowdsOut, HeldIn]
  constructor
  · intro kept
    refine ⟨fun ⟨key, among, same, within, moves, crowded⟩ => ?_, fun key among same => (kept key among same).1⟩
    exact (kept key among same).2 within (same.trans moves.symm) crowded
  · rintro ⟨kept, earlier⟩ key among same
    refine ⟨earlier key among same, fun within moves crowded => kept ?_⟩
    exact ⟨key, among, same, within, moves.symm.trans same, crowded⟩

theorem has_later {elapsed : Time} (found : model.has (now + elapsed) key jobId = true) :
    model.has now key jobId = true := by
  rw [has_eq_true] at found ⊢
  exact mem_live_later (Nat.le_add_right now elapsed) found

/-- Both views of a terminal status have the job after a step exactly if the step
tells it or tells nothing and finds them so, and neither loses it. -/
theorem held_step (own : OwnMessages ids before) (terminal : status ∈ terminalStatuses)
    (stepped : ProjectedJob.step textOrder ids action before = some after) :
    HeldIn ids status after ↔ ¬ LosesIn textOrder ids status before action ∧
      (toldBy ids before action = some status ∨
        toldBy ids before action = none ∧ HeldIn ids status before) := by
  obtain ⟨move, moves, now, unstopped, moved⟩ | ⟨model, nonterminal, time⟩ := step_moves stepped
  · by_cases same : move.jobId = ids.jobId
    · exact held_own_move own terminal stepped moves same now unstopped moved
    · exact held_other_move moves same now moved
  · have roomy : ∀ move, (deliveredBy before action).bind moveOf = some move →
        ¬ CrowdsOut textOrder ids status before move := by
      rintro move moves ⟨_, _, _, _, told, _⟩
      exact nonterminal move moves (told ▸ terminal)
    rw [toldBy_of_nonterminal nonterminal]
    simp only [reduceCtorEq, true_and, false_or, HeldIn, model]
    obtain ⟨noPass, now⟩ | ⟨elapsed, rfl, now⟩ := time
    · have keeps : ¬ LosesIn textOrder ids status before action := by
        rintro (⟨elapsed, _, passes, _⟩ | ⟨move, moves, crowded⟩)
        · exact noPass elapsed passes
        · exact roomy move moves crowded
      simp [keeps, now]
    · rw [now]
      constructor
      · intro held
        refine ⟨?_, fun key among same => has_later (held key among same)⟩
        rintro (⟨span, key, passes, among, same, _, lost⟩ | ⟨move, moves, crowded⟩)
        · cases passes
          rw [held key among same] at lost
          contradiction
        · exact roomy move moves crowded
      · rintro ⟨keeps, held⟩ key among same
        by_contra lost
        exact keeps (.inl ⟨elapsed, key, rfl, among, same, held key among same, eq_false_of_ne_true lost⟩)

/-- The job is in no view but those of its scopes, and where both views of a
terminal status have it, in no other view. -/
structure OwnViews (ids : JobIds) (job : ProjectedJob) : Prop where
  own : OwnMessages ids job
  within : ∀ key, job.model.has job.now key ids.jobId = true → ownKey ids key
  alone : ∀ status ∈ terminalStatuses, HeldIn ids status job →
    ∀ key, job.model.has job.now key ids.jobId = true → key.status = status

theorem had_before (settles : OwnViews ids before)
    (stepped : ProjectedJob.step textOrder ids action before = some after)
    (found : after.model.has after.now key ids.jobId = true) :
    toldBy ids before action = none ∧ before.model.has before.now key ids.jobId = true ∨
      ∃ move, (deliveredBy before action).bind moveOf = some move ∧ move.jobId = ids.jobId ∧
        ownKey ids key ∧ key.status = move.newStatus ∧
        (move.newStatus ∉ terminalStatuses → ∀ status ∈ terminalStatuses, ¬ HeldIn ids status before) := by
  obtain ⟨move, moves, now, unstopped, moved⟩ | ⟨model, nonterminal, time⟩ := step_moves stepped
  · rw [moved, now] at found
    by_cases same : move.jobId = ids.jobId
    · obtain ⟨value, delivered, asks⟩ := Option.bind_eq_some_iff.mp moves
      obtain ⟨tenant, user⟩ := own_move settles.own stepped delivered asks same
      rw [tenant, user, same] at found
      have among : ownKey ids key := by
        by_contra outside
        rw [has_eq_true, move_at, if_neg outside] at found
        exact outside (settles.within key (has_eq_true.mpr found))
      refine .inr ⟨move, moves, same, among, ((has_move_self among).mp found).1, ?_⟩
      intro nonterminal status terminal held
      have stops := held _ ownKey_tenant rfl
      rw [← tenant, ← same, unstopped nonterminal status terminal] at stops
      contradiction
    · refine .inl ⟨?_, ((has_move_other (Ne.symm same)).mp found).1⟩
      rw [toldBy_of_move moves, if_neg fun both => same both.1]
  · refine .inl ⟨toldBy_of_nonterminal nonterminal, ?_⟩
    rw [model] at found
    obtain ⟨_, now⟩ | ⟨elapsed, _, now⟩ := time
    · rwa [now] at found
    · rw [now] at found
      exact has_later found

theorem OwnViews.step (settles : OwnViews ids before)
    (stepped : ProjectedJob.step textOrder ids action before = some after) : OwnViews ids after where
  own := settles.own.step stepped
  within := by
    intro key found
    obtain ⟨_, earlier⟩ | ⟨_, _, _, among, _⟩ := had_before settles stepped found
    · exact settles.within key earlier
    · exact among
  alone := by
    intro status terminal held key found
    obtain ⟨_, told⟩ := (held_step settles.own terminal stepped).mp held
    obtain ⟨untold, earlier⟩ | ⟨move, moves, same, _, there, unstopped⟩ := had_before settles stepped found
    · rw [untold] at told
      obtain told | ⟨_, heldBefore⟩ := told
      · contradiction
      · exact settles.alone status terminal heldBefore key earlier
    · by_cases tells : move.newStatus ∈ terminalStatuses
      · rw [toldBy_of_move moves, if_pos ⟨same, tells⟩] at told
        obtain told | ⟨none, _⟩ := told
        · exact there.trans (Option.some.inj told)
        · contradiction
      · rw [toldBy_of_move moves, if_neg fun both => tells both.2] at told
        obtain told | ⟨_, heldBefore⟩ := told
        · contradiction
        · exact absurd heldBefore (unstopped tells status terminal)

theorem no_view_initially : ¬ (ProjectedJob.initial initialStatus).model.has
    (ProjectedJob.initial initialStatus).now key jobId = true := by
  simp [ProjectedJob.initial, ReadModel.has, StatusView.live, SortedSet.members]

theorem ownViews_initially : OwnViews ids (ProjectedJob.initial initialStatus) where
  own := by simp [OwnMessages, ProjectedJob.initial]
  within := fun _ found => absurd found no_view_initially
  alone := fun _ _ _ _ found => absurd found no_view_initially

theorem held_iff_remembered (ran : (ProjectedJob.machine textOrder ids initialStatus).Run steps last)
    (terminal : status ∈ terminalStatuses) :
    OwnViews ids last ∧ (HeldIn ids status last ↔ RememberedIn textOrder ids status steps) := by
  induction ran with
  | start =>
      refine ⟨ownViews_initially, fun held => ?_, False.elim⟩
      exact no_view_initially (held _ ownKey_tenant rfl)
  | step ran stepped ih =>
      refine ⟨ih.1.step stepped, ?_⟩
      rw [held_step ih.1.own terminal stepped, ih.2]
      rfl

/-- The view that a job's row belongs to once the job is over. -/
def rowView : JobStatus → Option TrackedStatus
  | .completed => some .completed
  | .deadLetter => some .deadLetter
  | .cancelled => some .cancelled
  | _ => none

theorem rowView_terminal (row : rowView rowStatus = some status) : status ∈ terminalStatuses := by
  cases rowStatus <;> cases row <;> decide

def AllDelivered (job : ProjectedJob) : Prop := ∀ topic, job.handled topic = (job.emitted topic).length

/-- With every event delivered, a job whose row is over is in the two views of
the row's status and in no other view. -/
def ViewsAgree (ids : JobIds) (job : ProjectedJob) : Prop :=
  AllDelivered job → ∀ status, rowView job.status = some status →
    ∀ key, job.model.has job.now key ids.jobId = true ↔ ownKey ids key ∧ key.status = status

theorem OwnViews.agrees_iff (settles : OwnViews ids job) (terminal : status ∈ terminalStatuses) :
    (∀ key, job.model.has job.now key ids.jobId = true ↔ ownKey ids key ∧ key.status = status) ↔
      HeldIn ids status job := by
  constructor
  · exact fun exactly key among same => (exactly key).mpr ⟨among, same⟩
  · intro held key
    constructor
    · exact fun found => ⟨settles.within key found, settles.alone status terminal held key found⟩
    · exact fun there => held key there.1 there.2

/-- The views agree with the row exactly if its status is the one that was told
last, first or again, and they have kept the job since. -/
theorem views_agree_iff (ran : (ProjectedJob.machine textOrder ids initialStatus).Run steps last) :
    ViewsAgree ids last ↔ (AllDelivered last → ∀ status, rowView last.status = some status →
      RememberedIn textOrder ids status steps) := by
  unfold ViewsAgree
  refine forall_congr' fun _ => forall_congr' fun status => forall_congr' fun row => ?_
  have terminal := rowView_terminal row
  obtain ⟨settles, remembers⟩ := held_iff_remembered ran terminal
  rw [settles.agrees_iff terminal, remembers]

def replayedIds : JobIds where
  tenantId := "acme"
  userId := "ada"
  jobId := "import"
  tenant_nonempty := by decide
  user_nonempty := by decide
  job_nonempty := by decide

def replayedRuns : List ProjectedJob.Action :=
  [.updateStatus .running, .progress, .updateStatus .deadLetter, .updateStatus .pending,
    .updateStatus .running, .progress, .updateStatus .completed]

def holdsEverywhere (status : TrackedStatus) (job : ProjectedJob) : Bool :=
  job.status = .completed &&
    [.progress, .completed, .failed, .cancelled, .dlq].all
      (fun topic => job.handled topic = (job.emitted topic).length) &&
    job.model.has job.now ⟨.tenant "acme", status⟩ "import" &&
    job.model.has job.now ⟨.user "ada", status⟩ "import"

theorem allDelivered_of_holdsEverywhere (holds : holdsEverywhere status job = true) : AllDelivered job := by
  simp only [holdsEverywhere, Bool.and_eq_true, List.all_cons, List.all_nil, decide_eq_true_eq] at holds
  intro topic
  cases topic <;> simp [holds]

theorem held_of_holdsEverywhere (holds : holdsEverywhere status job = true) :
    HeldIn replayedIds status job := by
  simp only [holdsEverywhere, Bool.and_eq_true] at holds
  rintro ⟨place, view⟩ (tenant | user) rfl
  · cases tenant
    exact holds.1.2
  · cases user
    exact holds.2

/-- The topics are handled in the order of the runs, and an early event again. -/
theorem views_agree_in_order : ∃ steps last,
    (ProjectedJob.machine (fun _ _ => true) replayedIds .pending).Run steps last ∧
    AllDelivered last ∧ last.status = .completed ∧ ViewsAgree replayedIds last := by
  obtain ⟨steps, last, ran, holds⟩ := @Machine.exists_run _ _
    (ProjectedJob.machine (fun _ _ => true) replayedIds .pending)
    (replayedRuns ++ [.deliver .progress, .deliver .dlq, .deliver .progress, .deliver .completed,
      .redeliver .progress 0])
    (fun _ last => holdsEverywhere .completed last) (by decide +kernel)
  have completed : last.status = .completed := by
    simp only [holdsEverywhere, Bool.and_eq_true, decide_eq_true_eq] at holds
    exact holds.1.1.1
  refine ⟨steps, last, ran, allDelivered_of_holdsEverywhere holds, completed, ?_⟩
  refine (views_agree_iff ran).mpr fun _ status row => ?_
  rw [completed] at row
  cases row
  exact (held_iff_remembered ran (by decide)).2.mp (held_of_holdsEverywhere holds)

/-- The dead letter of the first run is handled after the completion. -/
theorem views_keep_dead_letter : ∃ steps last,
    (ProjectedJob.machine (fun _ _ => true) replayedIds .pending).Run steps last ∧
    AllDelivered last ∧ last.status = .completed ∧ ¬ ViewsAgree replayedIds last := by
  obtain ⟨steps, last, ran, holds⟩ := @Machine.exists_run _ _
    (ProjectedJob.machine (fun _ _ => true) replayedIds .pending)
    (replayedRuns ++ [.deliver .progress, .deliver .progress, .deliver .completed, .deliver .dlq])
    (fun _ last => holdsEverywhere .deadLetter last) (by decide +kernel)
  have delivered := allDelivered_of_holdsEverywhere holds
  have completed : last.status = .completed := by
    simp only [holdsEverywhere, Bool.and_eq_true, decide_eq_true_eq] at holds
    exact holds.1.1.1
  refine ⟨steps, last, ran, delivered, completed, fun agree => ?_⟩
  have exactly := agree delivered .completed (by rw [completed]; rfl) ⟨.tenant "acme", .deadLetter⟩
  have found := exactly.mp (held_of_holdsEverywhere holds _ (.inl rfl) rfl)
  exact absurd found.2 (by decide)

end IncidentPlatform.Properties

import IncidentPlatform.Properties.SagaMachine
import IncidentPlatform.Properties.TerminalEvents

namespace IncidentPlatform.Properties

open Concurrency Models Platform Repositories Services Storage Workers

/-! # Terminal statuses are announced with their rows

A job of a saga gets a terminal status from `update_status` alone, and the
transaction that commits the row commits the event.  So the coordinator hears of
every end, and no saga waits for a job that it does not have.
-/

def Unchanging (act : Act) : Prop :=
  ∀ id write guard, act ≠ ⟨.statement (.updateStatus id write guard), true⟩

/-- `acts` announce what was read back of a row that got the status. -/
def Tells (acts : List Act) (status : JobStatus) (found : Option Job) : Prop :=
  ∀ job, found = some job → ∃ tenant user event,
    (⟨.statement (.insertOutbox tenant user (terminalTopic status) event), ()⟩ : Act) ∈ acts ∧
      event.jobId = job.id

/-- Every status update that changed its row has been read back, and what was
read back announced where the status is terminal. -/
inductive Announced : List Act → Prop where
  | nil : Announced []
  | other {trace : List Act} {act : Act} (unchanging : Unchanging act) :
      Announced trace → Announced (act :: trace)
  | update {trace : List Act} {id : Uuid} {write : StatusWrite} {guard : Option (Job → Bool)}
      {found : Option Job} (acts : List Act) (unchanging : ∀ act ∈ acts, Unchanging act)
      (told : write.status.terminal → Tells acts write.status found) : Announced trace →
      Announced (acts ++ ⟨.query (.job id), found⟩ ::
        ⟨.statement (.updateStatus id write guard), true⟩ :: trace)

theorem Announced.others {trace acts : List Act} (announced : Announced trace)
    (unchanging : ∀ act ∈ acts, Unchanging act) : Announced (acts ++ trace) := by
  induction acts with
  | nil => exact announced
  | cons act acts ih =>
      refine .other (unchanging act List.mem_cons_self) (ih fun other member => ?_)
      exact unchanging other (List.mem_cons_of_mem _ member)

theorem Announced.of_update {trace : List Act} (announced : Announced trace) {id : Uuid}
    {write : StatusWrite} {guard : Option (Job → Bool)}
    (member : (⟨.statement (.updateStatus id write guard), true⟩ : Act) ∈ trace)
    (terminal : write.status.terminal) : ∃ later earlier found,
      trace = later ++ ⟨.query (.job id), found⟩ ::
        ⟨.statement (.updateStatus id write guard), true⟩ :: earlier ∧ Tells later write.status found := by
  have grown : ∀ {acts later : List Act} {found : Option Job}, Tells later write.status found →
      Tells (acts ++ later) write.status found := by
    intro acts later found told job present
    obtain ⟨tenant, user, event, among, about⟩ := told job present
    exact ⟨tenant, user, event, List.mem_append_right _ among, about⟩
  induction announced with
  | nil => cases member
  | @other trace act unchanging _ ih =>
      rcases List.mem_cons.mp member with same | among
      · exact absurd same.symm (unchanging id write guard)
      · obtain ⟨later, earlier, found, rfl, told⟩ := ih among
        exact ⟨act :: later, earlier, found, rfl, @grown [act] later found told⟩
  | @update trace target written condition found acts unchanging told announced ih =>
      rcases List.mem_append.mp member with among | among
      · exact absurd rfl (unchanging _ among id write guard)
      · rcases List.mem_cons.mp among with absurd | among
        · cases absurd
        · rcases List.mem_cons.mp among with same | among
          · cases same
            exact ⟨acts, trace, found, rfl, told terminal⟩
          · obtain ⟨later, earlier, seen, rfl, tells⟩ := ih among
            refine ⟨acts ++ ⟨.query (.job target), found⟩ ::
              ⟨.statement (.updateStatus target written condition), true⟩ :: later, earlier, seen, by simp, ?_⟩
            rw [← List.singleton_append, ← List.singleton_append (l := later), ← List.append_assoc,
              ← List.append_assoc]
            exact grown tells

def announcing (trace : List Act) : Op → Prop
  | .commit => Announced trace
  | _ => True

section Follows

variable {trace : List Act}

theorem cascade_announces (id : Uuid) (status : JobStatus) (announced : Announced trace) :
    (cascadeCancelBlockedChildren id status).Follows (tracing announcing) trace
      fun after _ => Announced after := by
  have uses : (cascadeCancelBlockedChildren id status).Uses Op.Settles :=
    ⟨trivial, fun stamp => cascadeLevels_uses ..⟩
  refine follows_of_uses uses announced fun trace operation announced settles => ?_
  have quiet : operation.ends = false ∧ operation ≠ .commit ∧ ∀ reply, Unchanging ⟨operation, reply⟩ := by
    unfold Op.Settles at settles
    split at settles
    all_goals first
      | exact ⟨rfl, by simp, fun reply id write guard same => by cases same⟩
      | exact settles.elim
  refine ⟨?_, fun reply => ?_⟩
  · cases operation with
    | commit => exact absurd rfl quiet.2.1
    | _ => exact trivial
  · rw [extendTrace_of_open quiet.1]
    exact .other (quiet.2.2 reply) announced

theorem updateStatus_announces (id : Uuid) (write : StatusWrite) (message : Option String)
    (guard : Option (Job → Bool)) (announced : Announced trace) :
    (updateStatus id write message guard).Follows (tracing announcing) trace
      fun after _ => Announced after := by
  refine .first trivial fun changed => ?_
  have refused : Unchanging ⟨.statement (.updateStatus id write guard), false⟩ :=
    fun _ _ _ same => (by cases same)
  have read : ∀ found, Unchanging ⟨.query (.job id), found⟩ := fun found _ _ _ same => (by cases same)
  -- What has been announced after the read-back, whether the row changed or not.
  have after : ∀ found acts, (∀ act ∈ acts, Unchanging act) →
      (write.status.terminal → Tells acts write.status found) → Announced (acts ++
        ⟨.query (.job id), found⟩ :: ⟨.statement (.updateStatus id write guard), changed⟩ :: trace) := by
    intro found acts unchanging told
    cases changed with
    | true => exact .update acts unchanging told announced
    | false => exact (Announced.other (read found) (.other refused announced)).others unchanging
  dsimp only
  split
  · rename_i rejected
    have same : changed = false := by
      rw [Bool.and_eq_true, Bool.not_eq_true'] at rejected
      exact rejected.2
    subst same
    exact .other refused announced
  · refine .first trivial fun found => ?_
    cases found with
    | none => exact after none [] (by simp) fun _ job absurd => (by cases absurd)
    | some job =>
        have cascade : ∀ {trace : List Act}, Announced trace →
            (do
              if write.status.cascadeSource then
                let _ ← cascadeCancelBlockedChildren id write.status
              pure (some job) : Prog (Option Job)).Follows (tracing announcing) trace
              fun after _ => Announced after := by
          intro trace announced
          dsimp only
          split
          · exact (cascade_announces id write.status announced).bind fun _ _ kept => kept
          · exact announced
        dsimp only
        by_cases terminal : write.status.terminal
        · rw [if_pos terminal]
          refine .first trivial fun _ => cascade (after (some job) [_] ?_ fun _ told same => ?_)
          · intro act member
            obtain rfl := List.mem_singleton.mp member
            exact fun _ _ _ same => (by cases same)
          · cases same
            refine ⟨job.tenantId, job.userId, (terminalEvent job write.status message).2, ?_,
              terminalEvent_jobId ..⟩
            rw [← terminalEvent_fst job write.status message]
            exact List.mem_singleton_self _
        · rw [if_neg terminal]
          exact cascade (after (some job) [] (by simp) fun now => absurd now terminal)

theorem Through.announces {α : Type} {program : Prog α} (through : Through program)
    (announced : Announced trace) :
    program.Follows (tracing announcing) trace fun after _ => Announced after := by
  induction through generalizing trace with
  | done value => exact announced
  | @call operation next plain _ ih =>
      refine ⟨?_, fun reply => ih reply ?_⟩
      · cases operation with
        | commit => exact announced
        | _ => exact trivial
      · change Announced (extendTrace trace operation reply)
        unfold extendTrace
        split
        · exact .nil
        · refine .other (fun id write guard same => ?_) announced
          cases same
          exact plain
  | update _ ih => exact (updateStatus_announces _ _ _ _ announced).bind fun after found kept => ih found kept

end Follows

theorem program_announces (settings : Settings) (role : Role) :
    (role.program settings).Follows (tracing announcing) [] fun _ _ => True :=
  ((program_through settings role).announces .nil).mono fun _ _ _ => trivial

theorem announced_at_commit {settings : Settings} {pool : PlatformPool} (reachable : Reachable settings pool)
    {pid : Pid} {role : Role} {next : Reply .commit → Prog Unit}
    (found : pool.process pid = some { role, program := .call .commit next }) :
    Announced (traceOf pid pool.log) :=
  @rule_kept (fun _ => announcing) _ _ (program_announces settings) reachable _ _ _ _ found

theorem inserted_unstarted {settings : Settings} {pool : PlatformPool} (reachable : Reachable settings pool)
    {pid : Pid} {role : Role} {draft : JobDraft} {next : Reply (.statement (.insertJob draft)) → Prog Unit}
    (found : pool.process pid = some { role, program := .call (.statement (.insertJob draft)) next })
    (plain : ∀ request, role = .createJob request → request.sagaId = none) :
    draft.sagaId = none ∨ draft.status.terminal = false := by
  have inserts : role.inserts := next_may reachable found
  have rule := next_sagaRule reachable found
  cases role with
  | createJob request => exact .inl (rule.trans (plain request rfl))
  | createSaga request =>
      obtain ⟨_, _, _, _, _, _, unstarted⟩ := rule
      exact .inr unstarted
  | coordinateSaga topic id =>
      obtain ⟨_, _, _, _, _, _, _, _, rfl⟩ := rule
      exact .inr rfl
  | _ => cases inserts

/-- A terminal status of a job has been committed, or `update_status` has written
it in this transaction. -/
def Founded (world : World) (trace : List Act) (id : Uuid) (status : JobStatus) : Prop :=
  (∃ old, world.jobs.committed id = some old ∧ old.status = status) ∨
    ∃ write guard, (⟨.statement (.updateStatus id write guard), true⟩ : Act) ∈ trace ∧
      write.status = status

structure WritesKept (pool : PlatformPool) : Prop where
  updated : ∀ pid id write guard,
    (⟨.statement (.updateStatus id write guard), true⟩ : Act) ∈ traceOf pid pool.log →
    ∃ row, (pool.world.jobs.slot id).holder = some (pid, row)
  terminal : ∀ id pid row saga, (pool.world.jobs.slot id).holder = some (pid, row) →
    row.sagaId = some saga → row.status.terminal →
    Founded pool.world (traceOf pid pool.log) id row.status
  events : ∀ pid tenant user topic event,
    (⟨.statement (.insertOutbox tenant user topic event), ()⟩ : Act) ∈ traceOf pid pool.log →
    ∃ id row, (pool.world.outbox.slot id).holder = some (pid, row) ∧ row.topic = topic ∧
      row.event = event ∧ (pool.world.outbox.slot id).committed = none

section Step

variable {settings : Settings} {before : PlatformPool} {pid : Pid} {role : Role} {operation : Op}
  {next : Reply operation → Prog Unit} {reply : Reply operation} {world : World}
  (operated : World.operate pid operation before.world = some (reply, world))
  (kept : WritesKept before)

include operated kept

theorem WritesKept.updated_record (owner : Pid) (id : Uuid) (write : StatusWrite)
    (guard : Option (Job → Bool))
    (member : (⟨.statement (.updateStatus id write guard), true⟩ : Act) ∈
      traceOf owner (before.record pid role operation reply (next reply) world).log) :
    ∃ row, (world.jobs.slot id).holder = some (owner, row) := by
  rw [traceOf_record] at member
  have turn := operate_jobTurn operated id
  split at member
  · rename_i same
    subst same
    obtain ⟨opened, now | earlier⟩ := mem_extendTrace member
    · cases now
      obtain ⟨new, writes⟩ := update_writes operated
      cases turn with
      | write row _ _ slot => exact ⟨row, by rw [slot]; rfl⟩
      | commit ends _ => cases ends
      | rollback ends _ => cases ends
      | keep unwritten _ _ _ => exact absurd writes (unwritten new)
    · obtain ⟨row, held⟩ := kept.updated pid id write guard earlier
      obtain ⟨uncommitted, unrolled⟩ := continues_of_open opened
      exact (turn.own_kept uncommitted unrolled held).2
  · rename_i different
    obtain ⟨row, held⟩ := kept.updated owner id write guard member
    exact ⟨row, by rw [turn.held_kept (Ne.symm different) held, held]⟩

theorem WritesKept.events_record (owner tenant user : Uuid) (topic : Topic) (event : Event)
    (member : (⟨.statement (.insertOutbox tenant user topic event), ()⟩ : Act) ∈
      traceOf owner (before.record pid role operation reply (next reply) world).log) :
    ∃ id row, (world.outbox.slot id).holder = some (owner, row) ∧ row.topic = topic ∧
      row.event = event ∧ (world.outbox.slot id).committed = none := by
  rw [traceOf_record] at member
  split at member
  · rename_i same
    subst same
    obtain ⟨opened, now | earlier⟩ := mem_extendTrace member
    · cases now
      exact insertOutbox_slot operated
    · obtain ⟨id, row, held, about, body, absent⟩ := kept.events pid tenant user topic event earlier
      obtain ⟨uncommitted, unrolled⟩ := continues_of_open opened
      refine ⟨id, ?_⟩
      cases (operate_turns operated).2 id with
      | write new writes _ slot =>
          have seen : before.world.outbox.visible pid id = some row := by
            rw [← Table.slot_visible]
            exact Slot.visible_of_held held
          rw [seen] at writes
          have message := written_message writes
          rw [slot]
          exact ⟨new, rfl, message.topic.trans about, message.event.trans body, absent⟩
      | commit ends _ => exact absurd ends uncommitted
      | rollback ends _ => exact absurd ends unrolled
      | keep _ _ _ slot =>
          rw [slot]
          exact ⟨row, held, about, body, absent⟩
  · rename_i different
    obtain ⟨id, row, held, about, body, absent⟩ := kept.events owner tenant user topic event member
    refine ⟨id, row, ?_⟩
    rw [((operate_turns operated).2 id).held_kept (Ne.symm different) held]
    exact ⟨held, about, body, absent⟩

omit kept in
theorem Founded.grown {id : Uuid} {status : JobStatus} {trace : List Act}
    (founded : Founded before.world trace id status) (opened : operation.ends = false) :
    Founded world (extendTrace trace operation reply) id status := by
  rcases founded with ⟨old, stored, same⟩ | ⟨write, guard, among, same⟩
  · refine .inl ⟨old, ?_, same⟩
    rcases (operate_jobTurn operated id).committed_cases with unchanged | ⟨ends, _⟩
    · exact unchanged.trans stored
    · exact absurd ends (continues_of_open opened).1
  · refine .inr ⟨write, guard, ?_, same⟩
    rw [extendTrace_of_open opened]
    exact List.mem_cons_of_mem _ among

omit operated in
theorem WritesKept.founded {id saga : Uuid} {row : Job} (seen : before.world.jobs.visible pid id = some row)
    (member : row.sagaId = some saga) (terminal : row.status.terminal) :
    Founded before.world (traceOf pid before.log) id row.status := by
  rw [← Table.slot_visible] at seen
  rcases Slot.visible_cases seen with held | stored
  · exact kept.terminal id pid row saga held member terminal
  · exact .inl ⟨row, stored, rfl⟩

theorem WritesKept.written (reachable : Reachable settings before)
    (found : before.process pid = some { role, program := .call operation next })
    (plain : ∀ request, role = .createJob request → request.sagaId = none) {id saga : Uuid} {new : Job}
    (writes : operation.Writes before.world id (before.world.jobs.visible pid id) new reply)
    (member : new.sagaId = some saga) (terminal : new.status.terminal) :
    Founded world (extendTrace (traceOf pid before.log) operation reply) id new.status := by
  cases operation with
  | statement issued =>
      cases issued with
      | updateStatus target write guard =>
          obtain ⟨changed, same, row, seen, _, written⟩ := writes
          cases changed
          cases same
          refine .inr ⟨write, guard, List.mem_cons_self, ?_⟩
          rw [written, StatusWrite.apply_status]
      | claimForRunning target =>
          obtain ⟨_, _, row, seen, _, rfl⟩ := writes
          cases terminal
      | promoteWaitingToPending target =>
          obtain ⟨_, _, row, seen, _, rfl⟩ := writes
          cases terminal
      | cancelBlocked ids reason stamp =>
          -- The cascade leaves the jobs of sagas alone.
          obtain ⟨_, row, seen, _, alone, rfl⟩ := writes
          rw [show (before.world.cancelledRow reason stamp row).sagaId = row.sagaId from rfl, alone] at member
          cases member
      | stampRequeued target stamp =>
          obtain ⟨_, row, seen, rfl⟩ := writes
          exact (kept.founded seen member terminal).grown operated rfl
      | renewRunningLeases ids oldest stamp =>
          obtain ⟨_, row, seen, _, rfl⟩ := writes
          exact (kept.founded seen member terminal).grown operated rfl
      | insertJob draft =>
          obtain ⟨_, _, _, rfl⟩ := writes
          rcases inserted_unstarted reachable found plain with alone | unstarted
          · rw [show (draft.row before.world.outside.uuid before.world.outside.clock).sagaId =
              draft.sagaId from rfl, alone] at member
            cases member
          · rw [show (draft.row before.world.outside.uuid before.world.outside.clock).status =
              draft.status from rfl, unstarted] at terminal
            cases terminal
      | _ => exact writes.elim
  | _ => exact writes.elim

theorem WritesKept.terminal_record (reachable : Reachable settings before)
    (found : before.process pid = some { role, program := .call operation next })
    (plain : ∀ request, role = .createJob request → request.sagaId = none) (id : Uuid) (owner : Pid)
    (row : Job) (saga : Uuid) (held : (world.jobs.slot id).holder = some (owner, row))
    (member : row.sagaId = some saga) (terminal : row.status.terminal) :
    Founded world (traceOf owner (before.record pid role operation reply (next reply) world).log) id
      row.status := by
  have turn := operate_jobTurn operated id
  rw [traceOf_record]
  rcases turn.holder_cases held with ⟨rfl, writes, _⟩ | ⟨earlier, own⟩
  · rw [if_pos rfl]
    exact kept.written operated reachable found plain writes member terminal
  · have founded := kept.terminal id owner row saga earlier member terminal
    split
    · rename_i same
      obtain ⟨_, uncommitted, unrolled⟩ := own same.symm
      exact founded.grown operated (ends_eq_false uncommitted unrolled)
    · rename_i different
      rcases founded with ⟨old, stored, same⟩ | written
      · refine .inl ⟨old, ?_, same⟩
        rw [← Table.slot_committed, turn.held_kept (Ne.symm different) earlier]
        exact stored
      · exact .inr written

end Step

theorem writes_kept {settings : Settings} {pool : PlatformPool} (reachable : Reachable settings pool)
    (plain : PlainSubmissions pool.log) : WritesKept pool := by
  obtain ⟨outside, reached⟩ := reachable
  revert plain
  refine reached.invariant (motive := fun pool => PlainSubmissions pool.log → WritesKept pool) ?_ ?_ ?_ ?_
  · intro _
    constructor
    · intro pid id write guard member
      cases member
    · intro id pid row saga held
      cases held
    · intro pid tenant user topic event member
      cases member
  · intro before pid role world _ kept _ accepted plain
    obtain ⟨updated, terminal, events⟩ := kept plain
    constructor
    · rw [Pool.start_world, accept_jobs accepted]
      exact updated
    · simp only [Founded, Pool.start_world, accept_jobs accepted]
      exact terminal
    · rw [Pool.start_world, (accept_sagas accepted).2]
      exact events
  · intro before pid role operation next reply world earlier kept found operated plain
    have kept := kept plain.tail
    constructor
    · intro owner id write guard member
      exact kept.updated_record operated owner id write guard member
    · intro id owner row saga held member terminal
      refine kept.terminal_record operated ⟨outside, earlier⟩ found (fun request played => ?_) id owner row
        saga held member terminal
      exact plain _ List.mem_cons_self request played
    · intro owner tenant user topic event member
      exact kept.events_record operated owner tenant user topic event member
  · intro before change world _ kept changed plain
    obtain ⟨updated, terminal, events⟩ := kept plain
    have sameRows : ∀ id, world.jobs.committed id = before.world.jobs.committed id :=
      fun id => congrArg Slot.committed (change_slot changed id)
    constructor
    · simp only [change_slot changed]
      exact updated
    · simp only [Founded, change_slot changed, sameRows]
      exact terminal
    · rw [(change_sagas changed).2]
      exact events

theorem terminal_commit {settings : Settings} {before : PlatformPool} {pid : Pid} {role : Role}
    {next : Reply .commit → Prog Unit} {reply : Reply .commit} {world : World}
    (reachable : Reachable settings before) (plain : PlainSubmissions before.log)
    (found : before.process pid = some { role, program := .call .commit next })
    (operated : World.operate pid .commit before.world = some (reply, world)) {id saga : Uuid} {row : Job}
    (held : (before.world.jobs.slot id).holder = some (pid, row)) (member : row.sagaId = some saga)
    (terminal : row.status.terminal)
    (fresh : ∀ old, before.world.jobs.committed id = some old → old.status ≠ row.status) :
    (∃ write guard, (⟨.statement (.updateStatus id write guard), true⟩ : Act) ∈ traceOf pid before.log ∧
      write.status = row.status) ∧
    ∃ message sent, world.outbox.committed message = some sent ∧
      sent.topic = terminalTopic row.status ∧ sent.event.jobId = id ∧
      before.world.outbox.committed message = none := by
  have kept := writes_kept reachable plain
  rcases kept.terminal id pid row saga held member terminal with ⟨old, stored, same⟩ |
    ⟨write, guard, among, status⟩
  · exact absurd same (fresh old stored)
  · refine ⟨⟨write, guard, among, status⟩, ?_⟩
    rw [← status] at terminal ⊢
    obtain ⟨later, earlier, read, split, tells⟩ :=
      (announced_at_commit reachable found).of_update among terminal
    obtain ⟨reading, first, onward, below, _, world, answered⟩ := reachable.trace_moment split
    have written : (⟨.statement (.updateStatus id write guard), true⟩ : Act) ∈
        traceOf pid reading.log := by
      rw [below]
      exact List.mem_cons_self
    obtain ⟨version, mine⟩ :=
      (writes_kept first fun entry logged => plain entry (onward.log_suffix.subset logged)).updated
        pid id write guard written
    -- The read-back sees the row just written.
    have seen : reading.world.jobs.visible pid id = read :=
      congrArg Prod.fst (Option.some.inj answered)
    have visible : read = some version := by
      rw [← seen, ← Table.slot_visible]
      exact Slot.visible_of_held mine
    obtain ⟨tenant, user, event, announced, about⟩ := tells version visible
    have keyed : version.id = id := (rows_keyed first id).held pid version mine
    have inside : (⟨.statement (.insertOutbox tenant user (terminalTopic write.status) event), ()⟩ : Act) ∈
        traceOf pid before.log := by
      rw [split]
      exact List.mem_append_left _ announced
    obtain ⟨message, sent, holds, topic, body, absent⟩ :=
      kept.events pid tenant user _ event inside
    refine ⟨message, sent, message_published_of_held operated rfl holds, topic, ?_, absent⟩
    rw [body, about, keyed]

section Kept

variable {world after : World} {pid : Pid} {operation : Op} {reply : Reply operation}

/-- What an open transaction makes of a committed outbox row announces the same. -/
def MessagesKept (world : World) : Prop := ∀ id pid row old, (world.outbox.slot id).holder = some (pid, row) →
  (world.outbox.slot id).committed = some old → SameMessage old row

theorem sameMessage_trans {first second third : OutboxRow} (one : SameMessage first second)
    (two : SameMessage second third) : SameMessage first third :=
  ⟨two.id.trans one.id, two.topic.trans one.topic, two.event.trans one.event⟩

theorem MessagesKept.operate (kept : MessagesKept world)
    (operated : World.operate pid operation world = some (reply, after)) : MessagesKept after := by
  intro id owner row old held stored
  have turn := (operate_turns operated).2 id
  rcases turn.holder_cases held with ⟨rfl, writes, free⟩ | ⟨earlier, own⟩
  · cases turn with
    | write new writing free same =>
        rw [same, Slot.write_holder] at held
        cases held
        rw [same, Slot.write_committed] at stored
        by_cases mine : ∃ version, (world.outbox.slot id).holder = some (owner, version)
        · obtain ⟨version, mine⟩ := mine
          rw [← Table.slot_visible, Slot.visible_of_held mine] at writes
          exact sameMessage_trans (kept id owner version old mine stored) (written_message writes)
        · have unheld : ∀ own, (world.outbox.slot id).holder ≠ some (owner, own) := fun own held => mine ⟨own, held⟩
          rw [← Table.slot_visible, Slot.visible_of_free unheld, stored] at writes
          exact written_message writes
    | commit ends same =>
        subst ends
        exact writes.elim
    | rollback ends same =>
        subst ends
        exact writes.elim
    | keep unwritten => exact absurd writes (unwritten row)
  · have same : after.outbox.slot id = world.outbox.slot id := by
      by_cases mine : owner = pid
      · obtain ⟨unwritten, uncommitted, unrolled⟩ := own mine
        cases turn with
        | write new writing => exact absurd writing (unwritten new)
        | commit ends => exact absurd ends uncommitted
        | rollback ends => exact absurd ends unrolled
        | keep _ _ _ same => exact same
      · exact turn.held_kept mine earlier
    rw [same] at stored
    exact kept id owner row old earlier stored

theorem MessagesKept.announces (kept : MessagesKept world)
    (operated : World.operate pid operation world = some (reply, after)) {id : Uuid} {old : OutboxRow}
    (stored : world.outbox.committed id = some old) :
    ∃ now, after.outbox.committed id = some now ∧ SameMessage old now := by
  rcases ((operate_turns operated).2 id).committed_cases with same | ⟨ends, row, held, published⟩
  · exact ⟨old, same.trans stored, ⟨rfl, rfl, rfl⟩⟩
  · exact ⟨row, published, kept id pid row old held stored⟩

end Kept

def EndAnnounced (world : World) (job : Uuid) (status : JobStatus) : Prop :=
  ∃ message sent, world.outbox.committed message = some sent ∧ sent.topic = terminalTopic status ∧ sent.event.jobId = job

/-- However the processes of the platform are interleaved, a job of a saga that
has ended has its event in the outbox. -/
theorem saga_ends_announced {settings : Settings} {pool : PlatformPool} (reachable : Reachable settings pool)
    (plain : PlainSubmissions pool.log) {id saga : Uuid} {row : Job}
    (stored : pool.world.jobs.committed id = some row) (member : row.sagaId = some saga)
    (terminal : row.status.terminal) : EndAnnounced pool.world id row.status := by
  suffices kept : MessagesKept pool.world ∧ ∀ id saga row, pool.world.jobs.committed id = some row →
      row.sagaId = some saga → row.status.terminal → EndAnnounced pool.world id row.status from
    kept.2 id saga row stored member terminal
  clear stored member terminal
  obtain ⟨outside, reached⟩ := reachable
  revert plain
  refine reached.invariant (motive := fun pool => PlainSubmissions pool.log → MessagesKept pool.world ∧
    ∀ id saga row, pool.world.jobs.committed id = some row → row.sagaId = some saga → row.status.terminal →
      EndAnnounced pool.world id row.status) ?_ ?_ ?_ ?_
  · intro _
    refine ⟨fun id pid row old held => ?_, fun id saga row stored => ?_⟩
    · cases held
    · cases stored
  · intro before pid role world _ kept _ accepted plain
    obtain ⟨messages, announced⟩ := kept plain
    unfold MessagesKept EndAnnounced
    rw [Pool.start_world, accept_jobs accepted, (accept_sagas accepted).2]
    exact ⟨messages, announced⟩
  · intro before pid role operation next reply world earlier kept found operated plain
    have reachable : Reachable settings before := ⟨outside, earlier⟩
    have performed : World.operate pid operation before.world = some (reply, world) := operated
    obtain ⟨messages, announced⟩ := kept plain.tail
    refine ⟨messages.operate performed, fun id saga row stored member terminal => ?_⟩
    have stays : EndAnnounced before.world id row.status → EndAnnounced world id row.status := by
      rintro ⟨message, sent, held, topic, about⟩
      obtain ⟨now, present, same⟩ := messages.announces performed held
      exact ⟨message, now, present, same.topic.trans topic, (congrArg Event.jobId same.event).trans about⟩
    rcases committed_source performed stored with same | ⟨ends, held⟩
    · exact stays (announced id saga row same member terminal)
    · subst ends
      by_cases known : ∃ old, before.world.jobs.committed id = some old ∧ old.status = row.status
      · obtain ⟨old, there, same⟩ := known
        obtain ⟨later, committed, constants⟩ := committed_same reachable performed there
        cases committed.symm.trans stored
        refine stays (same ▸ announced id saga old there (constants.sagaId.symm.trans member) ?_)
        rwa [same]
      · have fresh : ∀ old, before.world.jobs.committed id = some old → old.status ≠ row.status :=
          fun old there same => known ⟨old, there, same⟩
        obtain ⟨-, message, sent, there, topic, about, -⟩ :=
          terminal_commit reachable plain.tail found performed held member terminal fresh
        exact ⟨message, sent, there, topic, about⟩
  · intro before change world _ kept changed plain
    obtain ⟨messages, announced⟩ := kept plain
    have sameRows : ∀ id, world.jobs.committed id = before.world.jobs.committed id :=
      fun id => congrArg Slot.committed (change_slot changed id)
    unfold MessagesKept EndAnnounced
    simp only [sameRows]
    rw [(change_sagas changed).2]
    exact ⟨messages, announced⟩

theorem saga_ends_announced_of_rollback : ∃ (pool : PlatformPool) (row : Job), Reachable .defaults pool ∧
    pool.world.jobs.committed 1 = some row ∧ row.sagaId = some 1 ∧ row.status = .completed ∧
    EndAnnounced pool.world 1 row.status := by
  obtain ⟨pool, reachable, checked⟩ : ∃ pool, Reachable .defaults pool ∧
      (plainly pool.log && (pool.world.jobs.committed 1).any fun row =>
        row.sagaId = some 1 && row.status = .completed) = true :=
    exists_reachable rollsBack (by decide +kernel)
  obtain ⟨plain, ended⟩ := Bool.and_eq_true_iff.mp checked
  obtain ⟨row, stored, ended⟩ := (Option.any_eq_true _ _).mp ended
  simp only [Bool.and_eq_true, decide_eq_true_eq] at ended
  obtain ⟨member, completed⟩ := ended
  exact ⟨pool, row, reachable, stored, member, completed,
    saga_ends_announced reachable (plain_of_plainly plain) stored member (by rw [completed]; rfl)⟩

/-- A committed saga has a committed job: `create_saga` refuses one without steps. -/
theorem saga_has_job {settings : Settings} {pool : PlatformPool} (reachable : Reachable settings pool)
    {saga : Uuid} {row : Saga} (stored : pool.world.sagas.committed saga = some row) :
    ∃ id job, pool.world.jobs.committed id = some job ∧ job.sagaId = some saga := by
  obtain ⟨outside, reached⟩ := reachable
  revert row
  refine reached.invariant (motive := fun pool => ∀ {row}, pool.world.sagas.committed saga = some row →
    ∃ id job, pool.world.jobs.committed id = some job ∧ job.sagaId = some saga) ?_ ?_ ?_ ?_
  · intro row stored
    cases stored
  · intro before pid role world _ kept _ accepted row stored
    rw [Pool.start_world, (accept_sagas accepted).1] at stored
    rw [Pool.start_world, accept_jobs accepted]
    exact kept stored
  · intro before pid role operation next reply world earlier kept found operated row stored
    have reachable : Reachable settings before := ⟨outside, earlier⟩
    have performed : World.operate pid operation before.world = some (reply, world) := operated
    have older : ∀ {row}, before.world.sagas.committed saga = some row →
        ∃ id job, world.jobs.committed id = some job ∧ job.sagaId = some saga := by
      intro row stored
      obtain ⟨id, job, there, member⟩ := kept stored
      obtain ⟨later, committed, same⟩ := committed_same reachable operated there
      exact ⟨id, later, committed, same.sagaId.trans member⟩
    rcases saga_source operated stored with same | ⟨ends, held⟩
    · exact older same
    · rcases (sagas_kept reachable).held saga pid row held with ⟨opened, _⟩ | ⟨_, there, committed⟩
      · subst ends
        obtain ⟨tenant, name, made, among, _⟩ := id opened
        have opens : role.opensSagas := traceOf_may reachable found among
        have rule := next_sagaRule reachable found
        cases role with
        | createSaga request =>
            obtain ⟨job, rest, inserted⟩ := List.exists_cons_of_ne_nil (show insertions _ ≠ [] from rule)
            have member : job ∈ insertions (traceOf pid before.log) := by
              rw [inserted]
              exact List.mem_cons_self
            obtain ⟨owner, also, belongs⟩ := step_of_created reachable found member
            obtain rfl := opened_unique reachable also opened
            obtain ⟨version, mine, same, _⟩ := (insertions_kept reachable).held pid job member
            exact ⟨job.id, version, published_of_held performed rfl mine, same.sagaId.trans belongs⟩
        | _ => cases opens
      · exact older committed
  · intro before change world _ kept changed row stored
    rw [(change_sagas changed).1] at stored
    obtain ⟨id, job, there, member⟩ := kept stored
    exact ⟨id, job, (congrArg Slot.committed (change_slot changed id)).trans there, member⟩

theorem saga_has_job_of_rollback : ∃ (pool : PlatformPool) (row : Saga), Reachable .defaults pool ∧
    pool.world.sagas.committed 1 = some row ∧ row.status = .compensating ∧
    ∃ id job, pool.world.jobs.committed id = some job ∧ job.sagaId = some 1 := by
  obtain ⟨pool, reachable, checked⟩ : ∃ pool, Reachable .defaults pool ∧
      ((pool.world.sagas.committed 1).any fun row => row.status = .compensating) = true :=
    exists_reachable rollsBack (by decide +kernel)
  obtain ⟨row, stored, compensating⟩ := (Option.any_eq_true _ _).mp checked
  exact ⟨pool, row, reachable, stored, of_decide_eq_true compensating, saga_has_job reachable stored⟩

end IncidentPlatform.Properties

import IncidentPlatform.Platform.Graph
import IncidentPlatform.Platform.Transactions
import IncidentPlatform.Properties.LiveExecutions

namespace IncidentPlatform.Properties

open Concurrency Models Platform Repositories Services Storage Utils Workers

/-! # Promotion of waiting jobs

A job leaves WAITING for PENDING in the transaction of one promoter, which has
read its parents COMPLETED and announces it once.
-/

def readsReplayable (id : Uuid) : Act → Bool
  | ⟨.query (.jobForTenant read _), some row⟩ =>
      read = id && (row.status = .failed || row.status = .deadLetter)
  | _ => false

/-- A replay resets a row that its transaction has read FAILED or DEAD_LETTER,
and cancels nothing. -/
def replayRule (role : Role) (trace : List Act) : Op → Prop
  | .statement (.updateStatus id _ _) => role.replays → trace.any (readsReplayable id)
  | .statement (.cancelBlocked _ _ _) => ¬ role.replays
  | _ => True

section ReplayRule

variable {role : Role} {trace : List Act}

theorem performReplay_follows {id : Uuid} {job : Job} {principal : Principal}
    (read : trace.any (readsReplayable id)) :
    (performReplay id job principal).Follows (tracing (replayRule role)) trace
      fun _ _ => True := by
  have reset : (updateStatus id replayWrite).Follows (tracing (replayRule role)) trace
      fun _ _ => True := by
    refine .first (fun _ => read) fun changed => .first trivial fun found => ?_
    cases found <;> exact trivial
  refine reset.bind fun after updated _ => ⟨trivial, fun _ => ⟨trivial, fun _ => ?_⟩⟩
  cases updated <;> exact trivial

theorem probe_keeps_read {id : Uuid} (read : trace.any (readsReplayable id)) :
    (findBlockingPause id).Follows (tracing (replayRule role)) trace
      fun after _ => after.any (readsReplayable id) := by
  refine follows_of_uses (motive := fun trace => trace.any (readsReplayable id))
    (findBlockingPause_uses id) read ?_
  intro trace operation read probes
  cases operation with
  | query query =>
      cases query with
      | parents queried =>
          refine ⟨trivial, fun reply => ?_⟩
          rw [extendTrace_of_open rfl, List.any_cons, read, Bool.or_true]
      | _ => exact probes.elim
  | command command =>
      refine ⟨trivial, fun reply => ?_⟩
      rw [extendTrace_of_open rfl, List.any_cons, read, Bool.or_true]
  | _ => exact probes.elim

theorem replayJob_follows (id tenant : Uuid) (principal : Principal) :
    (replayJob id tenant principal).Follows (tracing (replayRule role)) trace
      fun _ _ => True := by
  refine .first trivial fun found => ?_
  cases found with
  | none => exact trivial
  | some job =>
      dsimp only
      split
      · exact trivial
      · rename_i replayable
        have status : job.status = .failed ∨ job.status = .deadLetter := by
          by_cases failed : job.status = .failed
          · exact .inl failed
          · exact .inr (by simpa [failed] using replayable)
        have read : (extendTrace trace (.query (.jobForTenant id tenant)) (some job)).any
            (readsReplayable id) := by
          rw [extendTrace_of_open rfl]
          rcases status with failed | dead
          · simp [readsReplayable, failed]
          · simp [readsReplayable, dead]
        refine (probe_keeps_read read).bind fun after held kept => ?_
        cases held with
        | some pausedBy => exact trivial
        | none => exact performReplay_follows kept

theorem replay_request_follows (id tenant : Uuid) (principal : Principal) :
    (request (replayJob id tenant principal)).Follows (tracing (replayRule role)) trace
      fun _ _ => True := by
  refine (replayJob_follows id tenant principal).bind fun after result _ => ?_
  cases result <;> exact ⟨trivial, fun _ => trivial⟩

theorem fireScheduledReplay_follows (member : ReplayMember) :
    (fireScheduledReplay member).Follows (tracing (replayRule role)) trace
      fun _ _ => True := by
  have probed : (findBlockingPause member.jobId).Follows (tracing (replayRule role)) trace
      fun _ _ => True := by
    refine follows_of_uses (motive := fun _ => True) (findBlockingPause_uses _) trivial ?_
    intro trace operation _ probes
    refine ⟨?_, fun _ => trivial⟩
    cases operation with
    | statement issued => exact probes.elim
    | _ => exact trivial
  refine probed.bind fun after held _ => ?_
  cases held with
  | some pausedBy =>
      exact ⟨trivial, fun _ => ⟨trivial, fun _ => ⟨trivial, fun _ =>
        ⟨trivial, fun _ => trivial⟩⟩⟩⟩
  | none =>
      exact (replay_request_follows ..).bind fun last _ _ => ⟨trivial, fun _ => trivial⟩

end ReplayRule

theorem program_keeps_replayRule (settings : Settings) (role : Role) :
    (role.program settings).Follows (tracing (replayRule role)) [] fun _ _ => True := by
  by_cases replays : role.replays
  · cases role with
    | replay id tenant principal => exact replay_request_follows id tenant principal
    | replayEach ids tenant principal =>
        refine Program.Follows.bind (Program.follows_forEach (motive := fun _ => True) trivial ?_)
          fun after _ _ => ⟨trivial, fun _ => trivial⟩
        intro id _ trace _
        exact (replayJob_follows id tenant principal).bind fun _ _ _ => trivial
    | promoteDlqReplay =>
        refine .first trivial fun ready => ?_
        refine Program.follows_forEach (motive := fun _ => True) trivial ?_
        intro member _ trace _
        exact fireScheduledReplay_follows member
    | _ => cases replays
  · refine follows_of_uses (motive := fun _ => True) (program_uses settings role) trivial ?_
    intro trace operation _ _
    refine ⟨?_, fun _ => trivial⟩
    cases operation with
    | statement issued =>
        cases issued with
        | updateStatus id write guard => exact fun other => absurd other replays
        | cancelBlocked ids reason stamp => exact replays
        | _ => exact trivial
    | _ => exact trivial

def Left (job : Uuid) (world : World) : Prop :=
  ∃ row, (world.jobs.slot job).committed = some row ∧ row.status ≠ .waiting

/-- No role writes WAITING over a row. -/
theorem left_of_writes {world : World} {job : Uuid} {role : Role} {operation : Op}
    {reply : Reply operation} {row new : Job} (may : role.may operation)
    (writes : operation.Writes world job (some row) new reply) (left : row.status ≠ .waiting) :
    new.status ≠ .waiting := by
  cases operation with
  | statement issued =>
      cases issued with
      | updateStatus id write guard =>
          obtain ⟨_, _, _, _, _, rfl⟩ := writes
          rw [StatusWrite.apply_status]
          exact (Role.MayUpdate.status may).1
      | claimForRunning id =>
          obtain ⟨_, _, _, _, _, rfl⟩ := writes
          simp [World.claimed]
      | promoteWaitingToPending id =>
          obtain ⟨_, _, _, _, _, rfl⟩ := writes
          simp [World.promoted]
      | cancelBlocked ids reason stamp =>
          obtain ⟨_, _, _, _, _, rfl⟩ := writes
          simp [World.cancelledRow]
      | stampRequeued id stamp =>
          obtain ⟨_, _, equal, rfl⟩ := writes
          cases equal
          exact left
      | renewRunningLeases ids oldest stamp =>
          obtain ⟨_, _, equal, _, rfl⟩ := writes
          cases equal
          exact left
      | insertJob draft => cases writes.1
      | _ => exact writes.elim
  | _ => exact writes.elim

theorem claimed_advance {job : Uuid} {state : Execution} {operation : Op} {reply : Reply operation}
    (claimed : state.advance job operation reply = .claimed) :
    (state = .claimed ∧ operation ≠ .commit ∧ operation ≠ .rollback) ∨
      operation = .statement (.claimForRunning job) ∧
        Execution.advance job .idle operation reply = .claimed := by
  cases state with
  | idle =>
      cases operation with
      | statement issued =>
          cases issued with
          | claimForRunning id =>
              by_cases same : id = job
              · exact .inr ⟨by rw [same], claimed⟩
              · simp [Execution.advance, same] at claimed
          | _ => cases claimed
      | _ => cases claimed
  | claimed =>
      refine .inl ⟨rfl, ?_, ?_⟩
      · intro ends
        subst ends
        cases claimed
      · intro ends
        subst ends
        cases claimed
  | running =>
      cases operation with
      | statement issued =>
          cases issued with
          | updateStatus id write guard =>
              simp only [Execution.advance] at claimed
              split at claimed <;> cases claimed
          | _ => cases claimed
      | _ => cases claimed
  | settled => cases operation <;> cases claimed
  | finished => cases operation <;> cases claimed

theorem begun_advance {job : Uuid} {state : Execution} {operation : Op} {reply : Reply operation}
    (begun : state.advance job operation reply = .running ∨
      state.advance job operation reply = .settled) :
    state = .running ∨ state = .settled ∨ state = .claimed ∧ operation = .commit := by
  cases state with
  | running => exact .inl rfl
  | settled => exact .inr (.inl rfl)
  | idle =>
      cases operation with
      | statement issued =>
          cases issued with
          | claimForRunning id =>
              simp only [Execution.advance] at begun
              split at begun <;> simp at begun
          | _ => simp [Execution.advance] at begun
      | _ => simp [Execution.advance] at begun
  | claimed =>
      cases operation with
      | commit => exact .inr (.inr ⟨rfl, rfl⟩)
      | _ => simp [Execution.advance] at begun
  | finished => cases operation <;> simp [Execution.advance] at begun

structure Departures (job : Uuid) (pool : PlatformPool) : Prop where
  versions : Left job pool.world → ∀ owner row,
    (pool.world.jobs.slot job).holder = some (owner, row) → row.status ≠ .waiting
  claimed : ∀ pid, executionOf job pid pool.log = .claimed →
    ∃ row, (pool.world.jobs.slot job).holder = some (pid, row) ∧ row.status ≠ .waiting
  begun : ∀ pid, executionOf job pid pool.log = .running ∨ executionOf job pid pool.log = .settled →
    Left job pool.world
  replays : ∀ pid process row, pool.process pid = some process → process.role.replays →
    (pool.world.jobs.slot job).holder = some (pid, row) → Left job pool.world
  reads : ∀ pid process, pool.process pid = some process → process.role.replays →
    (traceOf pid pool.log).any (readsReplayable job) → Left job pool.world

section Departures

variable {job : Uuid} {before : PlatformPool} {pid : Pid} {role : Role} {operation : Op}
  {next : Reply operation → Prog Unit} {reply : Reply operation} {world : World}

theorem Departures.seen (departures : Departures job before) (left : Left job before.world)
    {viewer : Pid} {row : Job} (seen : (before.world.jobs.slot job).visible viewer = some row) :
    row.status ≠ .waiting := by
  by_cases held : ∃ version, (before.world.jobs.slot job).holder = some (viewer, version)
  · obtain ⟨version, held⟩ := held
    rw [Slot.visible_of_held held] at seen
    cases seen
    exact departures.versions left viewer row held
  · rw [Slot.visible_of_free fun version mine => held ⟨version, mine⟩] at seen
    obtain ⟨stored, committed, status⟩ := left
    rw [committed] at seen
    cases seen
    exact status

theorem Departures.left_kept (departures : Departures job before) (left : Left job before.world)
    (operated : World.operate pid operation before.world = some (reply, world)) : Left job world := by
  have kept := left
  obtain ⟨row, stored, status⟩ := left
  rcases operate_slot operated job with ⟨new, _, _, slot⟩ | ⟨_, slot⟩ | ⟨_, slot⟩ | ⟨_, _, _, slot⟩
  · exact ⟨row, by rw [slot, Slot.write_committed, stored], status⟩
  · rcases (before.world.jobs.slot job).commit_cases pid with ⟨version, held, equal⟩ | ⟨_, equal⟩
    · exact ⟨version, by rw [slot, equal], departures.versions kept pid version held⟩
    · exact ⟨row, by rw [slot, equal, stored], status⟩
  · exact ⟨row, by rw [slot, Slot.rollback_committed, stored], status⟩
  · exact ⟨row, by rw [slot, stored], status⟩

theorem own_left {row : Job} (may : role.may operation)
    (operated : World.operate pid operation before.world = some (reply, world))
    (uncommitted : operation ≠ .commit) (continues : operation ≠ .rollback)
    (held : (before.world.jobs.slot job).holder = some (pid, row)) (status : row.status ≠ .waiting) :
    ∃ now, (world.jobs.slot job).holder = some (pid, now) ∧ now.status ≠ .waiting := by
  rcases operate_slot operated job with ⟨new, writes, _, slot⟩ | ⟨ends, _⟩ | ⟨ends, _⟩ |
    ⟨_, _, _, slot⟩
  · rw [← Table.slot_visible, Slot.visible_of_held held] at writes
    exact ⟨new, by rw [slot]; rfl, left_of_writes may writes status⟩
  · exact absurd ends uncommitted
  · exact absurd ends continues
  · exact ⟨row, by rw [slot, held], status⟩

theorem replay_writes {old : Option Job} {new : Job} (may : role.may operation)
    (rule : replayRule role (traceOf pid before.log) operation) (replays : role.replays)
    (writes : operation.Writes before.world job old new reply) :
    (traceOf pid before.log).any (readsReplayable job) := by
  cases operation with
  | statement issued =>
      cases issued with
      | updateStatus id write guard =>
          obtain ⟨_, rfl, _⟩ := writes
          exact rule replays
      | claimForRunning id => exact absurd may (not_delivers_of_replays replays)
      | promoteWaitingToPending id => cases role <;> cases may <;> cases replays
      | cancelBlocked ids reason stamp => exact absurd replays rule
      | stampRequeued id stamp =>
          cases may
          cases replays
      | renewRunningLeases ids oldest stamp =>
          cases may
          cases replays
      | insertJob draft => cases role <;> cases may <;> cases replays
      | _ => exact writes.elim
  | _ => exact writes.elim

theorem seen_of_readsReplayable
    (operated : World.operate pid operation before.world = some (reply, world))
    (reads : readsReplayable job ⟨operation, reply⟩) :
    ∃ row, (before.world.jobs.slot job).visible pid = some row ∧ row.status ≠ .waiting := by
  cases operation with
  | query query =>
      cases query with
      | jobForTenant id tenant =>
          cases answered : (reply : Option Job) with
          | none =>
              subst answered
              cases reads
          | some row =>
              subst answered
              simp only [readsReplayable, Bool.and_eq_true, Bool.or_eq_true, decide_eq_true_eq] at reads
              obtain ⟨rfl, status⟩ := reads
              have found : (before.world.jobs.visible pid id).filter
                  (fun job => job.tenantId = tenant) = some row :=
                congrArg Prod.fst (Option.some.inj operated)
              rw [Option.filter_eq_some_iff] at found
              refine ⟨row, by rw [Table.slot_visible, found.1], ?_⟩
              rcases status with failed | dead
              · rw [failed]
                simp
              · rw [dead]
                simp
      | _ => cases reads
  | _ => cases reads

theorem Departures.operate {settings : Settings} (departures : Departures job before)
    (reachable : Reachable settings before)
    (found : before.process pid = some { role, program := .call operation next })
    (operated : World.operate pid operation before.world = some (reply, world)) :
    Departures job (before.record pid role operation reply (next reply) world) := by
  have may := next_may reachable found
  have rule := rule_kept (program_keeps_replayRule settings) reachable found
  have readsLeft : role.replays → readsReplayable job ⟨operation, reply⟩ → Left job before.world := by
    intro replays reads
    obtain ⟨row, seen, status⟩ := seen_of_readsReplayable operated reads
    by_cases held : ∃ version, (before.world.jobs.slot job).holder = some (pid, version)
    · obtain ⟨version, held⟩ := held
      exact departures.replays pid _ version found replays held
    · rw [Slot.visible_of_free fun version mine => held ⟨version, mine⟩] at seen
      exact ⟨row, seen, status⟩
  refine ⟨?_, ?_, ?_, ?_, ?_⟩
  · intro left owner row held
    rw [Pool.record_world] at left held
    rcases operate_slot operated job with ⟨new, writes, _, slot⟩ | ⟨_, slot⟩ | ⟨_, slot⟩ |
      ⟨_, _, _, slot⟩
    · rw [slot] at held
      cases held
      have earlier : Left job before.world := by
        rw [Left, slot] at left
        exact left
      have ⟨stored, committed, _⟩ := earlier
      obtain ⟨seen, visible⟩ := Slot.visible_of_stored pid committed
      rw [← Table.slot_visible, visible] at writes
      exact left_of_writes may writes (departures.seen earlier visible)
    · rcases (before.world.jobs.slot job).commit_cases pid with ⟨_, _, equal⟩ | ⟨_, equal⟩
      · rw [slot, equal] at held
        cases held
      · rw [Left, slot, equal] at left
        rw [slot, equal] at held
        exact departures.versions left owner row held
    · rcases (before.world.jobs.slot job).rollback_cases pid with ⟨_, _, equal⟩ | ⟨_, equal⟩
      · rw [slot, equal] at held
        cases held
      · rw [Left, slot, equal] at left
        rw [slot, equal] at held
        exact departures.versions left owner row held
    · rw [Left, slot] at left
      rw [slot] at held
      exact departures.versions left owner row held
  · intro queried state
    rw [executionOf_record] at state
    rw [Pool.record_world]
    split at state
    · rename_i own
      subst own
      rcases claimed_advance state with ⟨claimed, uncommitted, continues⟩ | ⟨rfl, won⟩
      · obtain ⟨row, held, status⟩ := departures.claimed pid claimed
        exact own_left may operated uncommitted continues held status
      · have accepted : reply = true := by
          by_contra lost
          simp [Execution.advance, lost] at won
        subst accepted
        rcases operate_slot operated job with ⟨new, writes, _, slot⟩ | ⟨ends, _⟩ | ⟨ends, _⟩ |
          ⟨unwritten, _⟩
        · obtain ⟨_, _, row, _, _, rfl⟩ := writes
          exact ⟨_, by rw [slot]; rfl, by simp [World.claimed]⟩
        · cases ends
        · cases ends
        · obtain ⟨new, writes⟩ := claim_writes operated
          exact absurd writes (unwritten new)
    · rename_i different
      obtain ⟨row, held, status⟩ := departures.claimed queried state
      exact ⟨row, by rw [held_kept operated (Ne.symm different) held, held], status⟩
  · intro queried state
    rw [executionOf_record] at state
    rw [Pool.record_world]
    split at state
    · rename_i own
      subst own
      rcases begun_advance state with running | settled | ⟨claimed, rfl⟩
      · exact departures.left_kept (departures.begun pid (.inl running)) operated
      · exact departures.left_kept (departures.begun pid (.inr settled)) operated
      · obtain ⟨row, held, status⟩ := departures.claimed pid claimed
        rcases operate_slot operated job with ⟨_, writes, _⟩ | ⟨_, slot⟩ | ⟨ends, _⟩ | ⟨_, ends, _⟩
        · exact writes.elim
        · exact ⟨row, by rw [slot, Slot.commit_committed, Slot.visible_of_held held], status⟩
        · cases ends
        · exact absurd rfl ends
    · exact departures.left_kept (departures.begun queried state) operated
  · intro queried process row present replays held
    rw [Pool.record_world] at held ⊢
    obtain ⟨process, present, same⟩ := Pool.role_of_record found present
    rw [← same] at replays
    have kept : ∀ version, (before.world.jobs.slot job).holder = some (queried, version) →
        Left job world := fun version mine =>
      departures.left_kept (departures.replays queried process version present replays mine) operated
    rcases operate_slot operated job with ⟨new, writes, _, slot⟩ | ⟨_, slot⟩ | ⟨_, slot⟩ |
      ⟨_, _, _, slot⟩
    · rw [slot] at held
      cases held
      rw [found] at present
      cases present
      have read := replay_writes may rule replays writes
      exact departures.left_kept (departures.reads pid _ found replays read) operated
    · rw [slot] at held
      exact kept row (Slot.holder_of_commit held)
    · rw [slot] at held
      exact kept row (Slot.holder_of_rollback held)
    · rw [slot] at held
      exact kept row held
  · intro queried process present replays read
    rw [Pool.record_world]
    obtain ⟨process, present, same⟩ := Pool.role_of_record found present
    rw [← same] at replays
    rw [traceOf_record] at read
    split at read
    · rename_i own
      subst own
      rw [found] at present
      cases present
      rw [extendTrace] at read
      split at read
      · cases read
      · rw [List.any_cons, Bool.or_eq_true] at read
        rcases read with new | old
        · exact departures.left_kept (readsLeft replays new) operated
        · exact departures.left_kept (departures.reads pid _ found replays old) operated
    · exact departures.left_kept (departures.reads queried process present replays read) operated

theorem Departures.of_same {after : PlatformPool} (departures : Departures job before)
    (sameLog : after.log = before.log)
    (sameSlot : after.world.jobs.slot job = before.world.jobs.slot job)
    (roles : ∀ pid process, after.process pid = some process → process.role.replays →
      before.process pid = some process ∨ traceOf pid after.log = [] ∧
        ∀ row, (before.world.jobs.slot job).holder ≠ some (pid, row)) :
    Departures job after := by
  have left : Left job after.world ↔ Left job before.world := by rw [Left, Left, sameSlot]
  refine ⟨?_, ?_, ?_, ?_, ?_⟩
  · rw [left, sameSlot]
    exact departures.versions
  · rw [sameLog, sameSlot]
    exact departures.claimed
  · rw [left, sameLog]
    exact departures.begun
  · intro pid process row present replays held
    rw [sameSlot] at held
    rcases roles pid process present replays with earlier | ⟨_, unheld⟩
    · exact left.mpr (departures.replays pid process row earlier replays held)
    · exact absurd held (unheld row)
  · intro pid process present replays read
    rcases roles pid process present replays with earlier | ⟨empty, _⟩
    · exact left.mpr (departures.reads pid process earlier replays (sameLog ▸ read))
    · rw [empty] at read
      cases read

end Departures

theorem traceOf_unlogged {pid : Pid} {log : List PlatformEntry}
    (unlogged : ∀ entry ∈ log, entry.pid ≠ pid) : traceOf pid log = [] := by
  induction log with
  | nil => rfl
  | cons entry older ih =>
      rw [traceOf_cons, if_neg (unlogged entry List.mem_cons_self)]
      exact ih fun entry member => unlogged entry (List.mem_cons_of_mem _ member)

theorem departures_of_reachable {settings : Settings} {pool : PlatformPool}
    (reachable : Reachable settings pool) (job : Uuid) : Departures job pool := by
  obtain ⟨outside, reached⟩ := reachable
  refine reached.invariant (motive := Departures job) ?_ ?_ ?_ ?_
  · exact ⟨fun _ _ _ held => (by cases held), fun _ state => (by cases state),
      fun _ state => (by rcases state with state | state <;> cases state),
      fun _ _ _ present => (by cases present), fun _ _ present => (by cases present)⟩
  · intro before pid role world earlier departures unused accepted
    refine departures.of_same rfl (by rw [Pool.start_world, accept_jobs accepted]) ?_
    intro queried process present _
    by_cases same : queried = pid
    · refine .inr ⟨traceOf_unlogged fun entry member logged => ?_, fun row held => ?_⟩
      · obtain ⟨process, running, _⟩ := logged_started ⟨outside, earlier⟩ entry member
        rw [logged, same, unused] at running
        cases running
      · obtain ⟨process, running⟩ := holder_started ⟨outside, earlier⟩ held
        rw [same, unused] at running
        cases running
    · rw [Pool.start_process, Pool.setProcess_other _ _ same] at present
      exact .inl present
  · intro before pid role operation next reply world earlier departures found operated
    exact departures.operate ⟨outside, earlier⟩ found operated
  · intro before change world _ departures changed
    exact departures.of_same rfl (change_slot changed job) fun _ _ present _ => .inl present

theorem promotes_of_writes {settings : Settings} {job : Uuid} {before : PlatformPool} {pid : Pid}
    {role : Role} {operation : Op} {next : Reply operation → Prog Unit} {reply : Reply operation}
    {row new stored : Job} (reachable : Reachable settings before)
    (found : before.process pid = some { role, program := .call operation next })
    (writes : operation.Writes before.world job (some row) new reply)
    (committed : (before.world.jobs.slot job).committed = some stored)
    (waiting : stored.status = .waiting) (pending : new.status = .pending) :
    row.status = .pending ∨ operation = .statement (.promoteWaitingToPending job) := by
  have departures := departures_of_reachable reachable job
  have stays : ¬ Left job before.world := by
    rintro ⟨kept, stillThere, status⟩
    rw [committed] at stillThere
    cases stillThere
    exact status waiting
  have may := next_may reachable found
  cases operation with
  | statement issued =>
      cases issued with
      | updateStatus id write guard =>
          obtain ⟨_, rfl, _, _, _, rfl⟩ := writes
          rw [StatusWrite.apply_status] at pending
          rcases (Role.MayUpdate.status may).2 pending with delivers | replays
          · have running := (execution_allowed reachable id found).outcome write guard rfl delivers
            exact absurd (departures.begun pid (.inl running)) stays
          · have rule := rule_kept (program_keeps_replayRule settings) reachable found
            exact absurd (departures.reads pid _ found replays (rule replays)) stays
      | claimForRunning id =>
          obtain ⟨_, _, _, _, _, rfl⟩ := writes
          cases pending
      | promoteWaitingToPending id =>
          obtain ⟨_, rfl, _⟩ := writes
          exact .inr rfl
      | cancelBlocked ids reason stamp =>
          obtain ⟨_, _, _, _, _, rfl⟩ := writes
          cases pending
      | stampRequeued id stamp =>
          obtain ⟨_, _, equal, rfl⟩ := writes
          cases equal
          exact .inl pending
      | renewRunningLeases ids oldest stamp =>
          obtain ⟨_, _, equal, _, rfl⟩ := writes
          cases equal
          exact .inl pending
      | insertJob draft => cases writes.1
      | _ => exact writes.elim
  | _ => exact writes.elim

/-- The act wins the compare-and-set that promotes the job. -/
def winsPromotion (job : Uuid) : Act → Bool
  | ⟨.statement (.promoteWaitingToPending id), won⟩ => id = job && won
  | _ => false

/-- The act adds a `job.submitted` row for the job. -/
def addsSubmitted (job : Uuid) : Act → Bool
  | ⟨.statement (.insertOutbox _ _ topic event), _⟩ => topic = .submitted && event.jobId = job
  | _ => false

/-- The act reads the job as one whose parents are all COMPLETED. -/
def readsUnblocked (job : Uuid) : Act → Bool
  | ⟨.query (.unmetCount id), unmet⟩ => id = job && unmet = 0
  | ⟨.query (.promotableWaiting _), rows⟩ => rows.any fun row => row.id = job
  | _ => false

def readsRow (job : Uuid) : Act → Bool
  | ⟨.query (.job id), some _⟩ => id = job
  | _ => false

def wins (job : Uuid) (trace : List Act) : Nat := trace.countP (winsPromotion job)

def submissionsFor (job : Uuid) (trace : List Act) : Nat := trace.countP (addsSubmitted job)

def Balanced (trace : List Act) : Prop :=
  Keyed trace → ∀ job, submissionsFor job trace = wins job trace

def promotionRule (role : Role) (trace : List Act) : Op → Prop
  | .statement (.promoteWaitingToPending id) => trace.any (readsUnblocked id)
  | .query (.unmetCount id) => role.promotes → trace.any (readsRow id)
  | .commit => role.promotes → Balanced trace
  | _ => True

section PromotionRule

variable {role : Role} {trace : List Act}

theorem Balanced.extend {operation : Op} {reply : Reply operation} (balanced : Balanced trace)
    (opened : operation.ends = false)
    (quiet : ∀ job, addsSubmitted job ⟨operation, reply⟩ = winsPromotion job ⟨operation, reply⟩) :
    Balanced (extendTrace trace operation reply) := by
  rw [extendTrace_of_open opened]
  intro keyed job
  have same := balanced keyed.older job
  simp only [submissionsFor, wins] at same
  simp only [submissionsFor, wins, List.countP_cons, quiet job, same]

/-- The transaction owes nothing and has read the jobs of `ids` as unblocked. -/
structure Unblocked (ids : List Uuid) (trace : List Act) : Prop where
  balanced : Balanced trace
  read : ∀ id ∈ ids, trace.any (readsUnblocked id)

theorem Unblocked.extend {ids : List Uuid} {operation : Op} {reply : Reply operation}
    (unblocked : Unblocked ids trace) (opened : operation.ends = false)
    (quiet : ∀ job, addsSubmitted job ⟨operation, reply⟩ = winsPromotion job ⟨operation, reply⟩) :
    Unblocked ids (extendTrace trace operation reply) :=
  ⟨unblocked.balanced.extend opened quiet, fun id member => any_extend opened (unblocked.read id member)⟩

theorem probe_keeps_unblocked {ids : List Uuid} {id : Uuid} {child : Job}
    (unblocked : Unblocked ids trace) (own : Keyed trace → child.id = id) :
    (findBlockingPause id).Follows (tracing (promotionRule role)) trace
      fun after _ => Unblocked ids after ∧ (Keyed after → child.id = id) := by
  refine follows_of_uses
    (motive := fun trace => Unblocked ids trace ∧ (Keyed trace → child.id = id))
    (findBlockingPause_uses id) ⟨unblocked, own⟩ ?_
  rintro trace operation ⟨unblocked, own⟩ probes
  cases operation with
  | query query =>
      cases query with
      | parents id =>
          exact ⟨trivial, fun reply => ⟨unblocked.extend rfl fun job => rfl,
            fun keyed => own keyed.older⟩⟩
      | _ => exact probes.elim
  | command command =>
      exact ⟨trivial, fun reply => ⟨unblocked.extend rfl fun job => rfl,
        fun keyed => own keyed.older⟩⟩
  | _ => exact probes.elim

theorem Unblocked.announce {ids : List Uuid} {id : Uuid} {child : Job}
    (unblocked : Unblocked ids trace) (own : Keyed trace → child.id = id) :
    Unblocked ids (⟨.statement (.insertOutbox child.tenantId child.userId .submitted
        (jobSubmittedPayload child)), ()⟩ ::
      ⟨.statement (.promoteWaitingToPending id), true⟩ :: trace) := by
  refine ⟨fun keyed job => ?_, fun id member => ?_⟩
  · have same := unblocked.balanced keyed.older.older job
    have child := own keyed.older.older
    simp only [submissionsFor, wins] at same
    simp only [submissionsFor, wins, List.countP_cons, addsSubmitted, winsPromotion,
      jobSubmittedPayload_jobId, child, same]
    simp
  · rw [List.any_cons, List.any_cons, unblocked.read id member, Bool.or_true, Bool.or_true]

theorem promoteChild_follows {ids : List Uuid} {id : Uuid} {child : Job} (member : id ∈ ids)
    (unblocked : Unblocked ids trace) (own : Keyed trace → child.id = id) :
    (promoteChild id child).Follows (tracing (promotionRule role)) trace
      fun after _ => Unblocked ids after := by
  refine (probe_keeps_unblocked unblocked own).bind fun after held kept => ?_
  obtain ⟨unblocked, own⟩ := kept
  cases held with
  | some pausedBy => exact unblocked
  | none =>
      refine .first (unblocked.read id member) fun won => ?_
      cases won with
      | true => exact ⟨trivial, fun _ => unblocked.announce own⟩
      | false =>
          have lost : Unblocked ids
              (extendTrace after (.statement (.promoteWaitingToPending id)) false) := by
            apply unblocked.extend
            · rfl
            · intro job
              simp [addsSubmitted, winsPromotion]
          exact lost

theorem resolveChild_follows (id : Uuid) (balanced : Balanced trace) :
    (resolveChild id).Follows (tracing (promotionRule role)) trace fun after _ => Balanced after := by
  have read : ∀ found : Option Job, Balanced (extendTrace trace (.query (.job id)) found) := by
    intro found
    apply balanced.extend
    · rfl
    · intro job
      rfl
  refine .first trivial fun found => ?_
  cases found with
  | none => exact read none
  | some child =>
      dsimp only
      split
      · exact read (some child)
      · refine .first ?_ fun unmet => ?_
        · have known : (extendTrace trace (.query (.job id)) (some child)).any (readsRow id) := by
            simp [extendTrace, Op.ends, readsRow]
          exact fun _ => known
        · have counted : Balanced (extendTrace (extendTrace trace (.query (.job id)) (some child))
              (.query (.unmetCount id)) unmet) := by
            apply (read (some child)).extend
            · rfl
            · intro job
              rfl
          split
          · exact counted
          · rename_i none
            have zero : unmet = 0 := Nat.eq_zero_of_not_pos none
            have unblocked : Unblocked [id] (extendTrace (extendTrace trace (.query (.job id))
                (some child)) (.query (.unmetCount id)) unmet) := by
              refine ⟨counted, fun other member => ?_⟩
              rw [List.mem_singleton.mp member]
              simp [extendTrace, Op.ends, readsUnblocked, zero]
            refine (promoteChild_follows List.mem_cons_self unblocked ?_).mono
              fun _ _ kept => kept.balanced
            exact fun keyed => keyed id child (by simp [extendTrace, Op.ends])

end PromotionRule

theorem program_keeps_promotionRule (settings : Settings) (role : Role) :
    (role.program settings).Follows (tracing (promotionRule role)) [] fun _ _ => True := by
  have empty : Balanced [] := fun _ _ => rfl
  by_cases promotes : role.promotes
  · cases role with
    | resolveDependents parent =>
        refine .first trivial fun children => ?_
        have listed : Balanced (extendTrace [] (.query (.childrenOf parent)) children) := by
          apply empty.extend
          · rfl
          · intro job
            rfl
        refine Program.Follows.bind (Program.follows_forEach (motive := Balanced) listed ?_) ?_
        · exact fun child _ trace balanced => resolveChild_follows child balanced
        · exact fun after _ balanced => ⟨fun _ => balanced, fun _ => trivial⟩
    | resumeUnblockedWaiting cursor =>
        refine .first trivial fun rows => ?_
        have listed : Unblocked (rows.map Job.id)
            (extendTrace [] (.query (.promotableWaiting cursor)) rows) := by
          refine ⟨empty.extend rfl fun job => rfl, fun id member => ?_⟩
          obtain ⟨row, among, rfl⟩ := List.mem_map.mp member
          simp only [extendTrace, Op.ends, Bool.false_eq_true, if_false, readsUnblocked,
            List.any_cons, List.any_nil, Bool.or_false, List.any_eq_true, decide_eq_true_eq]
          exact ⟨row, among, rfl⟩
        refine Program.Follows.bind
          (Program.follows_forEach (motive := Unblocked (rows.map Job.id)) listed ?_) ?_
        · intro child member trace unblocked
          exact promoteChild_follows (List.mem_map_of_mem member) unblocked fun _ => rfl
        · exact fun after _ unblocked => ⟨fun _ => unblocked.balanced, fun _ => trivial⟩
    | _ => cases promotes
  · refine follows_of_uses (motive := fun _ => True) (program_uses settings role) trivial ?_
    intro trace operation _ may
    refine ⟨?_, fun _ => trivial⟩
    cases operation with
    | statement issued =>
        cases issued with
        | promoteWaitingToPending id => exact absurd may promotes
        | _ => exact trivial
    | query query =>
        cases query with
        | unmetCount id => exact fun other => absurd other promotes
        | _ => exact trivial
    | commit => exact fun other => absurd other promotes
    | _ => exact trivial

structure Promotions (job : Uuid) (pool : PlatformPool) : Prop where
  won : ∀ pid row stored, (pool.world.jobs.slot job).holder = some (pid, row) →
    (pool.world.jobs.slot job).committed = some stored → stored.status = .waiting →
    row.status = .pending → 1 ≤ wins job (traceOf pid pool.log)
  moved : ∀ pid, 1 ≤ wins job (traceOf pid pool.log) →
    ∃ row, (pool.world.jobs.slot job).holder = some (pid, row) ∧ row.status ≠ .waiting
  once : ∀ pid, wins job (traceOf pid pool.log) ≤ 1
  read : ∀ pid, 1 ≤ wins job (traceOf pid pool.log) →
    (traceOf pid pool.log).any (readsUnblocked job)

theorem wins_extend {job : Uuid} {trace : List Act} {operation : Op} {reply : Reply operation}
    (opened : operation.ends = false) :
    wins job (extendTrace trace operation reply) =
      wins job trace + if winsPromotion job ⟨operation, reply⟩ then 1 else 0 := by
  rw [extendTrace_of_open opened, wins, List.countP_cons]
  rfl

theorem promotion_writes {world after : World} {pid : Pid} {job : Uuid} {operation : Op}
    {reply : Reply operation} (operated : World.operate pid operation world = some (reply, after))
    (won : winsPromotion job ⟨operation, reply⟩) :
    ∃ row, (world.jobs.slot job).visible pid = some row ∧ row.status = .waiting ∧
      (after.jobs.slot job).holder = some (pid, world.promoted row) := by
  cases operation with
  | statement issued =>
      cases issued with
      | promoteWaitingToPending id =>
          simp only [winsPromotion, Bool.and_eq_true, decide_eq_true_eq] at won
          obtain ⟨rfl, won⟩ := won
          subst won
          obtain ⟨jobs, updated, rfl⟩ := withJobs_eq operated
          rcases Table.update_slot updated id with ⟨_, refused⟩ | ⟨_, _, _, row, seen, holds, slot⟩
          · exact absurd ⟨rfl, rfl⟩ refused
          · refine ⟨row, by rw [Table.slot_visible, seen], of_decide_eq_true holds, ?_⟩
            rw [slot, Slot.write_holder]
      | _ => cases won
  | _ => cases won

theorem rule_of_win {job : Uuid} {role : Role} {trace : List Act} {operation : Op}
    {reply : Reply operation} (rule : promotionRule role trace operation)
    (won : winsPromotion job ⟨operation, reply⟩) : trace.any (readsUnblocked job) := by
  cases operation with
  | statement issued =>
      cases issued with
      | promoteWaitingToPending id =>
          simp only [winsPromotion, Bool.and_eq_true, decide_eq_true_eq] at won
          obtain ⟨rfl, _⟩ := won
          exact rule
      | _ => cases won
  | _ => cases won

section Promotions

variable {job : Uuid} {before : PlatformPool} {pid : Pid} {role : Role} {operation : Op}
  {next : Reply operation → Prog Unit} {reply : Reply operation} {world : World}

theorem Promotions.ended (promotions : Promotions job before)
    (operated : World.operate pid operation before.world = some (reply, world))
    (ends : operation.ends = true)
    (slot : ∀ owner row, (world.jobs.slot job).holder = some (owner, row) →
      owner ≠ pid ∧ world.jobs.slot job = before.world.jobs.slot job) (rest : Prog Unit) :
    Promotions job (before.record pid role operation reply rest world) := by
  have trace : ∀ queried, queried ≠ pid → traceOf queried
      (before.record pid role operation reply rest world).log = traceOf queried before.log := by
    intro queried different
    rw [traceOf_record, if_neg (Ne.symm different)]
  have own : traceOf pid (before.record pid role operation reply rest world).log = [] := by
    rw [traceOf_record, if_pos rfl, extendTrace, ends]
    rfl
  refine ⟨?_, ?_, ?_, ?_⟩
  · intro queried row stored held committed waiting pending
    rw [Pool.record_world] at held committed
    obtain ⟨different, same⟩ := slot queried row held
    rw [same] at held committed
    rw [trace queried different]
    exact promotions.won queried row stored held committed waiting pending
  · intro queried won
    by_cases same : queried = pid
    · rw [same, own] at won
      cases won
    · rw [trace queried same] at won
      obtain ⟨row, held, status⟩ := promotions.moved queried won
      exact ⟨row, by rw [Pool.record_world, held_kept operated same held, held], status⟩
  · intro queried
    by_cases same : queried = pid
    · rw [same, own]
      exact Nat.zero_le 1
    · rw [trace queried same]
      exact promotions.once queried
  · intro queried won
    by_cases same : queried = pid
    · rw [same, own] at won
      cases won
    · rw [trace queried same] at won ⊢
      exact promotions.read queried won

theorem Promotions.within {settings : Settings} (promotions : Promotions job before)
    (reachable : Reachable settings before)
    (found : before.process pid = some { role, program := .call operation next })
    (operated : World.operate pid operation before.world = some (reply, world))
    (opened : operation.ends = false) (uncommitted : operation ≠ .commit)
    (continues : operation ≠ .rollback) :
    Promotions job (before.record pid role operation reply (next reply) world) := by
  have may := next_may reachable found
  have trace : ∀ queried, queried ≠ pid → traceOf queried
      (before.record pid role operation reply (next reply) world).log = traceOf queried before.log := by
    intro queried different
    rw [traceOf_record, if_neg (Ne.symm different)]
  have own : wins job (traceOf pid (before.record pid role operation reply (next reply) world).log) =
      wins job (traceOf pid before.log) + if winsPromotion job ⟨operation, reply⟩ then 1 else 0 := by
    rw [traceOf_record, if_pos rfl, wins_extend opened]
  refine ⟨?_, ?_, ?_, ?_⟩
  · intro queried row stored held committed waiting pending
    rw [Pool.record_world] at held committed
    rcases operate_slot operated job with ⟨new, writes, free, slot⟩ | ⟨ends, _⟩ | ⟨ends, _⟩ |
      ⟨_, _, _, slot⟩
    · rw [slot] at held committed
      cases held
      rw [Slot.write_committed] at committed
      obtain ⟨seen, visible⟩ := Slot.visible_of_stored pid committed
      have written := writes
      rw [← Table.slot_visible, visible] at writes
      rw [own]
      rcases promotes_of_writes reachable found writes committed waiting pending with already | rfl
      · -- The row it saw was PENDING over a committed WAITING row: its own version.
        have mine : ∃ version, (before.world.jobs.slot job).holder = some (pid, version) := by
          by_contra unheld
          rw [Slot.visible_of_free fun version mine => unheld ⟨version, mine⟩, committed] at visible
          cases visible
          rw [waiting] at already
          cases already
        obtain ⟨version, mine⟩ := mine
        rw [Slot.visible_of_held mine] at visible
        cases visible
        have earlier := promotions.won pid seen stored mine committed waiting already
        omega
      · have accepted := written.1
        subst accepted
        simp [winsPromotion]
    · exact absurd ends uncommitted
    · exact absurd ends continues
    · rw [slot] at held committed
      have earlier := promotions.won queried row stored held committed waiting pending
      by_cases same : queried = pid
      · rw [same] at earlier ⊢
        rw [own]
        omega
      · rw [trace queried same]
        exact earlier
  · intro queried won
    by_cases same : queried = pid
    · rw [same] at won ⊢
      by_cases now : winsPromotion job ⟨operation, reply⟩
      · obtain ⟨row, _, _, held⟩ := promotion_writes operated now
        exact ⟨_, held, by simp [World.promoted]⟩
      · rw [own, if_neg now] at won
        obtain ⟨row, held, status⟩ := promotions.moved pid won
        exact own_left may operated uncommitted continues held status
    · rw [trace queried same] at won
      obtain ⟨row, held, status⟩ := promotions.moved queried won
      exact ⟨row, by rw [Pool.record_world, held_kept operated same held, held], status⟩
  · intro queried
    by_cases same : queried = pid
    · rw [same, own]
      have earlier := promotions.once pid
      split
      · rename_i now
        -- A second win would find the row WAITING that the first one moved.
        obtain ⟨row, seen, waiting, _⟩ := promotion_writes operated now
        by_contra twice
        obtain ⟨version, held, status⟩ := promotions.moved pid (by omega)
        rw [Slot.visible_of_held held] at seen
        cases seen
        exact status waiting
      · exact earlier
    · rw [trace queried same]
      exact promotions.once queried
  · intro queried won
    by_cases same : queried = pid
    · rw [same] at won ⊢
      rw [traceOf_record, if_pos rfl]
      apply any_extend opened
      by_cases now : winsPromotion job ⟨operation, reply⟩
      · have rule := rule_kept (program_keeps_promotionRule settings) reachable found
        exact rule_of_win rule now
      · rw [own, if_neg now] at won
        exact promotions.read pid won
    · rw [trace queried same] at won ⊢
      exact promotions.read queried won

theorem Promotions.operate {settings : Settings} (promotions : Promotions job before)
    (reachable : Reachable settings before)
    (found : before.process pid = some { role, program := .call operation next })
    (operated : World.operate pid operation before.world = some (reply, world)) :
    Promotions job (before.record pid role operation reply (next reply) world) := by
  cases ends : operation.ends with
  | false =>
      refine promotions.within reachable found operated ends ?_ ?_
      · intro commits
        rw [commits] at ends
        cases ends
      · intro undoes
        rw [undoes] at ends
        cases ends
  | true =>
      refine promotions.ended operated ends (fun owner row held => ?_) _
      rcases operate_slot operated job with ⟨new, writes, _⟩ | ⟨_, slot⟩ | ⟨_, slot⟩ |
        ⟨_, uncommitted, continues, _⟩
      · rcases Op.ends_cases ends with rfl | rfl <;> exact writes.elim
      · rw [slot] at held ⊢
        rcases (before.world.jobs.slot job).commit_cases pid with ⟨_, _, equal⟩ | ⟨unheld, equal⟩
        · rw [equal] at held
          cases held
        · rw [equal] at held ⊢
          exact ⟨fun same => unheld row (same ▸ held), rfl⟩
      · rw [slot] at held ⊢
        rcases (before.world.jobs.slot job).rollback_cases pid with ⟨_, _, equal⟩ | ⟨unheld, equal⟩
        · rw [equal] at held
          cases held
        · rw [equal] at held ⊢
          exact ⟨fun same => unheld row (same ▸ held), rfl⟩
      · rcases Op.ends_cases ends with commits | undoes
        · exact absurd commits uncommitted
        · exact absurd undoes continues

end Promotions

theorem promotions_of_reachable {settings : Settings} {pool : PlatformPool}
    (reachable : Reachable settings pool) (job : Uuid) : Promotions job pool := by
  obtain ⟨outside, reached⟩ := reachable
  refine reached.invariant (motive := Promotions job) ?_ ?_ ?_ ?_
  · exact ⟨fun _ _ _ held => (by cases held), fun _ won => (by cases won), fun _ => Nat.zero_le 1,
      fun _ won => (by cases won)⟩
  · intro before pid role world _ promotions _ accepted
    have slot : world.jobs.slot job = before.world.jobs.slot job := by rw [accept_jobs accepted]
    refine ⟨?_, ?_, promotions.once, promotions.read⟩
    · rw [Pool.start_world, slot]
      exact promotions.won
    · rw [Pool.start_world, slot]
      exact promotions.moved
  · intro before pid role operation next reply world earlier promotions found operated
    exact promotions.operate ⟨outside, earlier⟩ found operated
  · intro before change world _ promotions changed
    have slot := change_slot changed job
    refine ⟨?_, ?_, promotions.once, promotions.read⟩
    · rw [slot]
      exact promotions.won
    · rw [slot]
      exact promotions.moved

theorem known_of_readsRow {job : Uuid} {pid : Pid} {log : List PlatformEntry}
    (read : (traceOf pid log).any (readsRow job)) : job ∈ (creationOf pid log).known := by
  induction log with
  | nil => cases read
  | cons entry older ih =>
      rw [traceOf_cons] at read
      rw [creationOf]
      split at read
      · rename_i own
        rw [if_pos own]
        obtain ⟨_, _, operation, reply, _⟩ := entry
        rw [extendTrace] at read
        split at read
        · cases read
        · rw [List.any_cons, Bool.or_eq_true] at read
          cases operation with
          | query query =>
              cases query with
              | job id =>
                  cases answered : (reply : Option Job) with
                  | none =>
                      subst answered
                      rcases read with new | old
                      · cases new
                      · exact ih old
                  | some row =>
                      subst answered
                      rcases read with new | old
                      · obtain rfl := of_decide_eq_true new
                        exact List.mem_cons_self
                      · exact List.mem_cons_of_mem _ (ih old)
              | _ =>
                  rcases read with new | old
                  · cases new
                  · exact ih old
          | statement issued =>
              cases issued with
              | insertJob draft =>
                  rcases read with new | old
                  · cases new
                  · cases reply <;> exact ih old
              | _ =>
                  rcases read with new | old
                  · cases new
                  · exact ih old
          | commit => contradiction
          | rollback => contradiction
          | _ =>
              rcases read with new | old
              · cases new
              · exact ih old
      · rename_i other
        rw [if_neg other]
        exact ih read

theorem parents_of_readsUnblocked {settings : Settings} {pool : PlatformPool} {job : Uuid}
    {entry : PlatformEntry} (reachable : Reachable settings pool) (logged : entry ∈ pool.log)
    (promotes : entry.role.promotes) (reads : readsUnblocked job (actOf entry)) :
    ∀ parent ∈ pool.world.declaredParents job,
      (entry.before.jobs.visible entry.pid parent).any fun row => row.status = .completed := by
  obtain ⟨before, earlier, later, same, ⟨next, stood⟩, world, operated⟩ := reachable.moment logged
  obtain ⟨pid, role, operation, reply, read⟩ := entry
  have kept := graph_kept earlier
  have notInserts : ¬ role.inserts := by
    cases role <;> first
      | exact Bool.false_ne_true
      | cases promotes
  -- The job is committed at the read, so its parents are those of `pool`, and
  -- the read has met none that is not COMPLETED.
  have facts : before.world.Sees pid job ∧ before.world.unmetParents pid job = [] := by
    cases operation with
    | query query =>
        cases query with
        | unmetCount id =>
            simp only [actOf, readsUnblocked, Bool.and_eq_true, decide_eq_true_eq] at reads
            obtain ⟨rfl, none⟩ := reads
            have rule := rule_kept (program_keeps_promotionRule settings) earlier stood
            have counted : (before.world.unmetParents pid id).length = reply :=
              congrArg Prod.fst (Option.some.inj operated)
            rw [none] at counted
            exact ⟨kept.known pid id (known_of_readsRow (rule promotes)),
              List.length_eq_zero_iff.mp counted⟩
        | promotableWaiting cursor =>
            simp only [actOf, readsUnblocked, List.any_eq_true, decide_eq_true_eq] at reads
            obtain ⟨row, member, rfl⟩ := reads
            have page : before.world.promotableWaiting pid cursor = reply :=
              congrArg Prod.fst (Option.some.inj operated)
            exact promotable_seen earlier (page ▸ member)
        | _ => cases reads
    | _ => cases reads
  obtain ⟨⟨row, seen⟩, unmet⟩ := facts
  obtain ⟨stored, committed⟩ := stored_of_seen earlier seen stood notInserts
  obtain ⟨_, parents⟩ := declaredParents_kept earlier later committed
  intro parent member
  rw [parents] at member
  obtain ⟨target, present⟩ := kept.parent_stored member
  obtain ⟨shown, visible⟩ := Slot.visible_of_stored pid present
  rw [Table.slot_visible] at visible
  rw [← kept.parentsOf committed pid] at member
  rw [show read = before.world from same, visible]
  by_contra unfinished
  have blocked : parent ∈ before.world.unmetParents pid job := by
    rw [World.unmetParents, List.mem_filter]
    refine ⟨member, ?_⟩
    rw [visible]
    simpa using unfinished
  rw [unmet] at blocked
  cases blocked

theorem entry_of_act {pid : Pid} {log : List PlatformEntry} {holds : Act → Bool}
    (any : (traceOf pid log).any holds) : ∃ entry ∈ transaction pid log, holds (actOf entry) := by
  obtain ⟨act, member, holding⟩ := List.any_eq_true.mp any
  obtain ⟨entry, logged, rfl⟩ := List.mem_map.mp member
  exact ⟨entry, logged, holding⟩

theorem promotes_of_win {settings : Settings} {pool : PlatformPool} {job : Uuid} {pid : Pid}
    {process : Process Role Op Reply} (reachable : Reachable settings pool)
    (present : pool.process pid = some process) (won : 1 ≤ wins job (traceOf pid pool.log)) :
    process.role.promotes := by
  obtain ⟨act, member, winning⟩ := List.countP_pos_iff.mp won
  obtain ⟨entry, logged, rfl⟩ := List.mem_map.mp member
  obtain ⟨among, own⟩ := transaction_mem logged
  have may := logged_may reachable entry among
  obtain ⟨running, found, same⟩ := logged_started reachable entry among
  rw [own, present] at found
  cases found
  obtain ⟨_, role, operation, reply, _⟩ := entry
  cases operation with
  | statement issued =>
      cases issued with
      | promoteWaitingToPending id =>
          rw [same]
          exact may
      | _ => cases winning
  | _ => cases winning

/-- Every step that takes a committed job from WAITING to PENDING is the commit
of a promoter that, in the transaction it commits, read every declared parent
COMPLETED, won the compare-and-set once and added one `job.submitted` row; and
a promoter that commits without having won it adds none. -/
theorem promotion_sound_and_unique {settings : Settings} {pool : PlatformPool}
    (reachable : Reachable settings pool) (job : Uuid) :
    (∀ label after stored now, (platform settings).step label pool = some after →
      pool.world.jobs.committed job = some stored → stored.status = .waiting →
      after.world.jobs.committed job = some now → now.status = .pending →
      ∃ pid role next, label = .run pid ∧
        pool.process pid = some { role, program := .call .commit next } ∧ role.promotes ∧
        wins job (traceOf pid pool.log) = 1 ∧ submissionsFor job (traceOf pid pool.log) = 1 ∧
        ∃ entry ∈ transaction pid pool.log, readsUnblocked job (actOf entry) ∧
          ∀ parent ∈ pool.world.declaredParents job,
            (entry.before.jobs.visible pid parent).any fun row => row.status = .completed) ∧
    (∀ pid role next, pool.process pid = some { role, program := .call .commit next } →
      role.promotes → wins job (traceOf pid pool.log) = 0 →
      submissionsFor job (traceOf pid pool.log) = 0) := by
  have announced : ∀ pid role next,
      pool.process pid = some { role, program := .call .commit next } → role.promotes →
      submissionsFor job (traceOf pid pool.log) = wins job (traceOf pid pool.log) := by
    intro pid role next found promotes
    have rule := rule_kept (program_keeps_promotionRule settings) reachable found
    exact rule promotes (traceOf_keyed reachable pid) job
  constructor
  · intro label after stored now stepped committed waiting later pending
    rw [← Table.slot_committed] at committed later
    rcases step_committed stepped job with same | ⟨pid, role, next, row, rfl, found, held, kept⟩
    · rw [committed, later] at same
      cases same
      rw [waiting] at pending
      cases pending
    rw [later] at kept
    cases kept
    have promotions := promotions_of_reachable reachable job
    have won := promotions.won pid now stored held committed waiting pending
    have once := promotions.once pid
    have promotes := promotes_of_win reachable found won
    have counted := announced pid role next found promotes
    obtain ⟨entry, logged, reads⟩ := entry_of_act (promotions.read pid won)
    obtain ⟨among, own⟩ := transaction_mem logged
    obtain ⟨running, present, agrees⟩ := logged_started reachable entry among
    rw [own, found] at present
    cases present
    have completed := parents_of_readsUnblocked reachable among (agrees ▸ promotes) reads
    rw [own] at completed
    exact ⟨pid, role, next, rfl, found, promotes, by omega, by omega, entry, logged, reads, completed⟩
  · intro pid role next found promotes lost
    rw [announced pid role next found promotes, lost]

/-- Job 1 completes while job 2 waits for it; the resolver has promoted job 2
and is about to commit. -/
def promotesSecond : List (Label Role Change) :=
  [.spawn 1 (.createJob { userId := 7, tenantId := 8, jobType := "csv_upload" })] ++ turns 1 4 ++
  tick 2 (.returned .null) ++
  [.spawn 2 (.createJob
    { userId := 7, tenantId := 8, jobType := "csv_upload", dependencies := [1] })] ++ turns 2 5 ++
  [.spawn 3 .outboxRelay] ++ turns 3 6 ++ [.spawn 4 (.deliver 1)] ++ turns 4 12 ++
  [.spawn 5 .outboxRelay] ++ turns 5 6 ++ tick 3 .timedOut ++
  [.spawn 6 (.resolveDependents 1)] ++ turns 6 8

theorem promotion_of_second_sound : ∃ pool after stored now, Reachable .defaults pool ∧
    (platform .defaults).step (.run 6) pool = some after ∧
    pool.world.jobs.committed 2 = some stored ∧ stored.status = .waiting ∧
    after.world.jobs.committed 2 = some now ∧ now.status = .pending ∧
    pool.world.declaredParents 2 = [1] ∧ wins 2 (traceOf 6 pool.log) = 1 ∧
    submissionsFor 2 (traceOf 6 pool.log) = 1 := by
  obtain ⟨pool, reachable, checked⟩ : ∃ pool, Reachable .defaults pool ∧
      ((pool.world.jobs.committed 2).any (fun stored => stored.status = .waiting) &&
        ((platform .defaults).step (.run 6) pool).any fun after =>
          (after.world.jobs.committed 2).any (fun now => now.status = .pending) &&
          pool.world.declaredParents 2 = [1]) = true :=
    exists_reachable promotesSecond (by decide +kernel)
  rw [Bool.and_eq_true] at checked
  obtain ⟨stored, committed, waiting⟩ := (Option.any_eq_true _ _).mp checked.1
  obtain ⟨after, stepped, final⟩ := (Option.any_eq_true _ _).mp checked.2
  rw [Bool.and_eq_true] at final
  obtain ⟨now, later, pending⟩ := (Option.any_eq_true _ _).mp final.1
  have waiting := of_decide_eq_true waiting
  have pending := of_decide_eq_true pending
  obtain ⟨pid, role, next, ran, _, _, won, added, _⟩ := (promotion_sound_and_unique reachable 2).1
    (.run 6) after stored now stepped committed waiting later pending
  cases ran
  exact ⟨pool, after, stored, now, reachable, stepped, committed, waiting, later, pending,
    of_decide_eq_true final.2, won, added⟩

end IncidentPlatform.Properties

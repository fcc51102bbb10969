import IncidentPlatform.Properties.DependencyCalls

namespace IncidentPlatform.Properties

open Concurrency Models Platform Repositories Services Storage Utils Workers

/-! # A scheduled replay that meets a pause

One item of `_promote_dlq_replay_once`, while pause flags are set and run out
around it.  The pause is probed twice, first to defer and then to refuse, so the
item depends on what the two probes find.
-/

variable {settings : Settings} {pid : Pid} {world after : World} {trace : List (Op × World)}

/-- The worlds that the pause probes of a trace read their flags in. -/
def probes (trace : List (Op × World)) : List World :=
  trace.filterMap fun
    | (.command (.pausedFlags _), world) => some world
    | _ => none

def walked (parents : Uuid → List Uuid) : Nat → List Uuid → List Uuid → List Uuid
  | 0, _, order => order
  | room + 1, frontier, order =>
      match frontier.dropWhile order.contains with
      | [] => order
      | node :: rest => walked parents room (rest ++ parents node) (order ++ [node])

/-- The job and its ancestors, as far as the probe walks them. -/
def probedNodes (world : World) (pid : Pid) (id : Uuid) : List Uuid :=
  walked (world.parentsOf pid) maxAncestorNodes [id] []

/-- A flag of one of `nodes` is present. -/
def pausesAny (world : World) (nodes : List Uuid) : Bool :=
  nodes.any fun node => (world.paused node).isSome

/-- The replay of `row` is committed. -/
def ReplayCommitted (after : World) (id : Uuid) (row : Job) : Prop :=
  ∃ now, after.jobs.committed id = some (replayWrite.apply now row)

def Armed (world : World) (member : ReplayMember) : Prop :=
  member ∈ world.replayScheduled.map Prod.fst

theorem Unmoved.parentsOf (unmoved : Unmoved world after) (pid : Pid) :
    after.parentsOf pid = world.parentsOf pid := by
  funext id
  simp [World.parentsOf, unmoved.dependencies]

theorem traced_ask {α : Type} {query : Query} {rest : query.Reply → Prog α} {value : α}
    (ran : Traced (platform settings) pid ((ask query).bind rest) world trace value after) :
    ∃ middle later, probes trace = probes later ∧ Unmoved world middle ∧
      Traced (platform settings) pid (rest (middle.answer pid query)) middle later value after := by
  obtain ⟨reply, drifted, middle, later, rfl, drifts, executed, ran⟩ := Traced.of_call ran
  cases executed
  exact ⟨drifted, later, rfl, unmoved_of_drifts drifts, ran⟩

theorem traced_done {α : Type} {value result : α}
    (ran : Traced (platform settings) pid (.done value : Prog α) world trace result after) :
    probes trace = [] ∧ result = value ∧ Unmoved world after := by
  obtain ⟨rfl, same, drifts⟩ := Traced.of_done ran
  exact ⟨rfl, same, unmoved_of_drifts drifts⟩

theorem traced_walk {room : Nat} {frontier order nodes : List Uuid}
    (ran : Traced (platform settings) pid (walkAncestors room frontier order) world trace nodes after) :
    probes trace = [] ∧ nodes = walked (world.parentsOf pid) room frontier order ∧
      Unmoved world after := by
  induction room generalizing frontier order world trace with
  | zero => exact traced_done ran
  | succ room ih =>
      simp only [walkAncestors] at ran
      simp only [walked]
      cases found : frontier.dropWhile order.contains with
      | nil =>
          rw [found] at ran
          exact traced_done ran
      | cons node rest =>
          rw [found] at ran
          obtain ⟨middle, later, probed, unmoved, ran⟩ := traced_ask ran
          obtain ⟨none, collected, quiet⟩ := ih ran
          rw [unmoved.parentsOf] at collected
          refine ⟨probed.trans none, ?_, unmoved.trans quiet⟩
          rw [collected, ← unmoved.parentsOf pid]
          rfl

theorem prefix_walked (parents : Uuid → List Uuid) (room : Nat) (frontier order : List Uuid) :
    order <+: walked parents room frontier order := by
  induction room generalizing frontier order with
  | zero => exact List.prefix_refl _
  | succ room ih =>
      simp only [walked]
      split
      · exact List.prefix_refl _
      · exact (List.prefix_append _ _).trans (ih _ _)

theorem mem_probedNodes (world : World) (pid : Pid) (id : Uuid) : id ∈ probedNodes world pid id :=
  (prefix_walked _ (maxAncestorNodes - 1) _ _).subset List.mem_cons_self

theorem firstFlagged_eq_none_iff (world : World) (nodes : List Uuid) :
    firstFlagged nodes (nodes.map fun id => (world.paused id).isSome) = none ↔
      pausesAny world nodes = false := by
  rw [firstFlagged_map_eq_none, pausesAny, List.any_eq_false]
  simp

theorem traced_probe {id : Uuid} {held : Option Uuid}
    (ran : Traced (platform settings) pid (findBlockingPause id) world trace held after) :
    ∃ probed, probes trace = [probed] ∧ Unmoved world after ∧
      (held = none ↔ pausesAny probed (probedNodes world pid id) = false) := by
  obtain ⟨nodes, middle, first, second, rfl, walk, ran⟩ := Traced.of_bind ran
  obtain ⟨none, collected, unmoved⟩ := traced_walk walk
  have listed : nodes = probedNodes world pid id := collected
  have walks : nodes.isEmpty = false := by
    rw [listed]
    exact List.isEmpty_eq_false_iff_exists_mem.mpr ⟨id, mem_probedNodes world pid id⟩
  simp only [walks] at ran
  obtain ⟨flags, probed, read, later, rfl, drifts, executed, ran⟩ := Traced.of_call ran
  cases executed
  obtain ⟨nothing, rfl, quiet⟩ := traced_done ran
  refine ⟨probed, ?_, (unmoved.trans (unmoved_of_drifts drifts)).trans quiet, ?_⟩
  · simp only [probes, List.filterMap_append] at none nothing ⊢
    simp [none, nothing]
  · rw [← listed]
    exact firstFlagged_eq_none_iff probed nodes

/-- Nothing that an item depends on is written. -/
structure SameReplay (world after : World) : Prop where
  slots : ∀ id, after.jobs.slot id = world.jobs.slot id
  scheduled : after.replayScheduled = world.replayScheduled

theorem Unmoved.sameReplay (unmoved : Unmoved world after) : SameReplay world after :=
  ⟨unmoved.slots, unmoved.replayScheduled⟩

theorem SameReplay.trans {middle : World} (first : SameReplay world middle)
    (second : SameReplay middle after) : SameReplay world after :=
  ⟨fun id => (second.slots id).trans (first.slots id), second.scheduled.trans first.scheduled⟩

theorem SameReplay.visible (same : SameReplay world after) (pid : Pid) (id : Uuid) :
    after.jobs.visible pid id = world.jobs.visible pid id := by
  rw [← Table.slot_visible, same.slots, Table.slot_visible]

theorem SameReplay.committed (same : SameReplay world after) (id : Uuid) :
    after.jobs.committed id = world.jobs.committed id := by
  rw [← Table.slot_committed, same.slots, Table.slot_committed]

theorem traced_exec {α : Type} {statement : Statement} {rest : statement.Reply → Prog α} {value : α}
    (ran : Traced (platform settings) pid ((exec statement).bind rest) world trace value after) :
    ∃ drifted reply middle later, probes trace = probes later ∧ Unmoved world drifted ∧
      drifted.execute pid statement = some (reply, middle) ∧
      Traced (platform settings) pid (rest reply) middle later value after := by
  obtain ⟨reply, drifted, middle, later, rfl, drifts, executed, ran⟩ := Traced.of_call ran
  exact ⟨drifted, reply, middle, later, rfl, unmoved_of_drifts drifts, executed, ran⟩

theorem insertAudit_same {entry : AuditEntry} {reply : Unit}
    (executed : world.execute pid (.insertAudit entry) = some (reply, after)) :
    SameReplay world after := by
  cases executed
  exact ⟨fun _ => rfl, rfl⟩

theorem insertOutbox_same {tenant user : Uuid} {topic : Topic} {event : Event} {reply : Unit}
    (executed : world.execute pid (.insertOutbox tenant user topic event) = some (reply, after)) :
    SameReplay world after := by
  simp only [World.execute] at executed
  obtain ⟨outbox, _, same⟩ := Option.map_eq_some_iff.mp executed
  cases same
  exact ⟨fun _ => rfl, rfl⟩

theorem updateStatus_seen {id : Uuid} {write : StatusWrite} {row : Job} {changed : Bool}
    (seen : world.jobs.visible pid id = some row)
    (executed : world.execute pid (.updateStatus id write none) = some (changed, after)) :
    after.jobs.visible pid id = some (write.apply world.outside.clock row) ∧
      after.replayScheduled = world.replayScheduled := by
  obtain ⟨jobs, updated, rfl⟩ := withJobs_eq executed
  refine ⟨?_, rfl⟩
  rcases Table.update_cases updated with ⟨_, _, refused⟩ | ⟨_, found, free, visible, _, rfl⟩
  · have holds := refused row seen
    contradiction
  · rw [seen] at visible
    cases visible
    rw [← Table.slot_visible, Table.write_slot, if_pos rfl, Slot.visible_write_self]

theorem traced_performReplay {id : Uuid} {job row : Job} {principal : Principal}
    {result : Except ServiceError Job} (seen : world.jobs.visible pid id = some row)
    (ran : Traced (platform settings) pid (performReplay id job principal) world trace result after) :
    probes trace = [] ∧ (∃ value, result = .ok value) ∧
      (∃ now, after.jobs.visible pid id = some (replayWrite.apply now row)) ∧
      after.replayScheduled = world.replayScheduled := by
  obtain ⟨updated, middle, first, second, rfl, writes, ran⟩ := Traced.of_bind ran
  obtain ⟨drifted, changed, written, later, probed, quiet, executed, reads⟩ := traced_exec writes
  obtain ⟨stored, scheduled⟩ := updateStatus_seen ((quiet.visible pid id).trans seen) executed
  obtain ⟨reading, last, probedLater, unmoved, ends⟩ := traced_ask reads
  have answered : reading.answer pid (.job id) =
      some (replayWrite.apply drifted.outside.clock row) := (unmoved.visible pid id).trans stored
  rw [answered] at ends
  obtain ⟨nothing, rfl, stays⟩ := traced_done ends
  obtain ⟨audited, _, recorded, rest, probedAudit, beforeAudit, audits, ran⟩ := traced_exec ran
  obtain ⟨announced, _, submitted, final, probedSubmit, beforeSubmit, submits, ran⟩ := traced_exec ran
  obtain ⟨probedEnd, rfl, atEnd⟩ := traced_done ran
  have same : SameReplay written after :=
    ((((unmoved.sameReplay.trans stays.sameReplay).trans beforeAudit.sameReplay).trans
      (insertAudit_same audits)).trans beforeSubmit.sameReplay).trans
        ((insertOutbox_same submits).trans atEnd.sameReplay)
  refine ⟨?_, ⟨_, rfl⟩, ⟨_, (same.visible pid id).trans stored⟩, ?_⟩
  · have split : probes (first ++ second) = probes first ++ probes second := List.filterMap_append
    rw [split, probed, probedLater, nothing, probedAudit, probedSubmit, probedEnd]
    rfl
  · rw [same.scheduled, scheduled, quiet.replayScheduled]

/-- What `replay_job` makes of a job that may be replayed. -/
inductive ReplayOutcome (pid : Pid) (id tenant : Uuid) (row : Job) (world : World) :
    List World → Except ServiceError Job → World → Prop where
  | notFound {error : ServiceError} {after : World} (foreign : row.tenantId ≠ tenant)
      (unmoved : Unmoved world after) : ReplayOutcome pid id tenant row world [] (.error error) after
  | refused {probed after : World} {error : ServiceError} (own : row.tenantId = tenant)
      (paused : pausesAny probed (probedNodes world pid id) = true) (unmoved : Unmoved world after) :
      ReplayOutcome pid id tenant row world [probed] (.error error) after
  | performed {probed after : World} {job : Job} {now : Time} (own : row.tenantId = tenant)
      (free : pausesAny probed (probedNodes world pid id) = false)
      (written : after.jobs.visible pid id = some (replayWrite.apply now row))
      (scheduled : after.replayScheduled = world.replayScheduled) :
      ReplayOutcome pid id tenant row world [probed] (.ok job) after

theorem probes_append (first second : List (Op × World)) :
    probes (first ++ second) = probes first ++ probes second := List.filterMap_append

theorem Unmoved.probedNodes (unmoved : Unmoved world after) (pid : Pid) (id : Uuid) :
    Properties.probedNodes after pid id = Properties.probedNodes world pid id := by
  simp [Properties.probedNodes, unmoved.parentsOf]

theorem traced_replayJob {id tenant : Uuid} {row : Job} {principal : Principal}
    {result : Except ServiceError Job} (seen : world.jobs.visible pid id = some row)
    (replayable : row.status = .failed ∨ row.status = .deadLetter)
    (ran : Traced (platform settings) pid (replayJob id tenant principal) world trace result after) :
    ReplayOutcome pid id tenant row world (probes trace) result after := by
  obtain ⟨reading, later, probed, quiet, ran⟩ := traced_ask ran
  have answered : reading.answer pid (.jobForTenant id tenant) =
      if row.tenantId = tenant then some row else none := by
    simp only [World.answer, (quiet.visible pid id).trans seen]
    by_cases own : row.tenantId = tenant <;> simp [own]
  rw [answered] at ran
  rw [probed]
  by_cases own : row.tenantId = tenant
  · rw [if_pos own] at ran
    have allowed : ¬ (row.status ≠ .failed ∧ row.status ≠ .deadLetter) := by
      obtain status | status := replayable <;> simp [status]
    simp only [if_neg allowed] at ran
    obtain ⟨held, middle, first, second, rfl, looks, ran⟩ := Traced.of_bind ran
    obtain ⟨read, once, unmoved, finds⟩ := traced_probe looks
    rw [quiet.probedNodes] at finds
    rw [probes_append, once]
    cases held with
    | some pausedBy =>
        obtain ⟨nothing, rfl, stays⟩ := traced_done ran
        have paused : pausesAny read (probedNodes world pid id) = true := by
          by_contra unpaused
          have := finds.mpr (Bool.not_eq_true _ ▸ unpaused)
          contradiction
        rw [nothing]
        exact .refused own paused ((quiet.trans unmoved).trans stays)
    | none =>
        have shown := ((quiet.trans unmoved).visible pid id).trans seen
        obtain ⟨nothing, ⟨job, rfl⟩, ⟨now, written⟩, scheduled⟩ := traced_performReplay shown ran
        rw [nothing]
        exact .performed own (finds.mp rfl) written
          (scheduled.trans (quiet.trans unmoved).replayScheduled)
  · rw [if_neg own] at ran
    obtain ⟨nothing, rfl, stays⟩ := traced_done ran
    rw [nothing]
    exact .notFound own (quiet.trans stays)

theorem traced_ack {member : ReplayMember} {value : Unit}
    (ran : Traced (platform settings) pid (redis (.ackReplay member)) world trace value after) :
    probes trace = [] ∧ SameReplay world after := by
  obtain ⟨_, drifted, middle, later, rfl, drifts, executed, ran⟩ := Traced.of_call ran
  cases executed
  obtain ⟨nothing, _, stays⟩ := traced_done ran
  have acknowledged : SameReplay drifted
      { drifted with replayInflight := World.zrem drifted.replayInflight [member] } :=
    ⟨fun _ => rfl, rfl⟩
  exact ⟨nothing, ((unmoved_of_drifts drifts).sameReplay.trans acknowledged).trans stays.sameReplay⟩

theorem traced_defer {member : ReplayMember} {value : Unit}
    (ran : Traced (platform settings) pid
      ((commit.bind fun _ => (observe .now).bind fun now =>
        redis (.armReplay member (now + pausedReplayDefer))).bind fun _ => redis (.ackReplay member))
      world trace value after) :
    probes trace = [] ∧ Armed after member := by
  obtain ⟨_, middle, first, second, rfl, defers, acks⟩ := Traced.of_bind ran
  obtain ⟨_, drifted, committed, later, rfl, _, executed, reads⟩ := Traced.of_call defers
  cases executed
  obtain ⟨now, reading, clocked, next, rfl, _, executed, arms⟩ := Traced.of_call reads
  cases executed
  obtain ⟨_, arming, armed, last, rfl, _, executed, ends⟩ := Traced.of_call arms
  cases executed
  obtain ⟨nothing, _, stays⟩ := traced_done ends
  obtain ⟨silent, same⟩ := traced_ack acks
  refine ⟨?_, ?_⟩
  · rw [probes_append, silent]
    simpa [probes] using nothing
  · rw [Armed, same.scheduled, stays.replayScheduled]
    exact List.mem_map.mpr ⟨_, List.mem_cons_self, rfl⟩

theorem traced_commit {value : Unit}
    (ran : Traced (platform settings) pid commit world trace value after) :
    ∃ drifted, probes trace = [] ∧ Unmoved world drifted ∧ Unmoved (drifted.commit pid) after := by
  obtain ⟨_, drifted, middle, later, rfl, drifts, executed, ran⟩ := Traced.of_call ran
  cases executed
  obtain ⟨nothing, _, stays⟩ := traced_done ran
  exact ⟨drifted, nothing, unmoved_of_drifts drifts, stays⟩

theorem traced_rollback {value : Unit}
    (ran : Traced (platform settings) pid rollback world trace value after) :
    ∃ drifted, probes trace = [] ∧ Unmoved world drifted ∧ Unmoved (drifted.rollback pid) after := by
  obtain ⟨_, drifted, middle, later, rfl, drifts, executed, ran⟩ := Traced.of_call ran
  cases executed
  obtain ⟨nothing, _, stays⟩ := traced_done ran
  exact ⟨drifted, nothing, unmoved_of_drifts drifts, stays⟩

/-- How an item ends, by what its probes read. -/
inductive ItemOutcome (pid : Pid) (member : ReplayMember) (row : Job) (world after : World) :
    List World → Prop where
  | deferred {probed : World} (paused : pausesAny probed (probedNodes world pid member.jobId) = true)
      (armed : Armed after member) : ItemOutcome pid member row world after [probed]
  | dropped {probed : World} {later : List World}
      (free : pausesAny probed (probedNodes world pid member.jobId) = false)
      (refused : row.tenantId ≠ member.tenantId ∨
        ∃ second ∈ later, pausesAny second (probedNodes world pid member.jobId) = true)
      (committed : after.jobs.committed member.jobId = world.jobs.committed member.jobId)
      (scheduled : after.replayScheduled = world.replayScheduled) :
      ItemOutcome pid member row world after (probed :: later)
  | replayed {probed second : World} (own : row.tenantId = member.tenantId)
      (free : pausesAny probed (probedNodes world pid member.jobId) = false)
      (again : pausesAny second (probedNodes world pid member.jobId) = false)
      (committed : ReplayCommitted after member.jobId row) :
      ItemOutcome pid member row world after [probed, second]

theorem rolled_back {middle drifted ended : World} (pid : Pid) (id : Uuid) (unmoved : Unmoved world middle)
    (before : Unmoved middle drifted) (stays : Unmoved (drifted.rollback pid) ended) :
    ended.jobs.committed id = world.jobs.committed id ∧
      ended.replayScheduled = world.replayScheduled := by
  constructor
  · rw [stays.sameReplay.committed, ← (unmoved.trans before).sameReplay.committed]
    rfl
  · rw [stays.replayScheduled, ← (unmoved.trans before).replayScheduled]
    rfl

theorem traced_item {member : ReplayMember} {row : Job} {value : Unit}
    (seen : world.jobs.visible pid member.jobId = some row)
    (replayable : row.status = .failed ∨ row.status = .deadLetter)
    (ran : Traced (platform settings) pid (fireScheduledReplay member) world trace value after) :
    ItemOutcome pid member row world after (probes trace) := by
  obtain ⟨held, looked, first, second, rfl, looks, ran⟩ := Traced.of_bind ran
  obtain ⟨probed, once, unmoved, finds⟩ := traced_probe looks
  rw [probes_append, once]
  cases held with
  | some pausedBy =>
      have paused : pausesAny probed (probedNodes world pid member.jobId) = true := by
        by_contra unpaused
        have := finds.mpr (Bool.not_eq_true _ ▸ unpaused)
        contradiction
      obtain ⟨nothing, armed⟩ := traced_defer ran
      rw [nothing]
      exact .deferred paused armed
  | none =>
      have free := finds.mp rfl
      obtain ⟨_, ended, request, last, rfl, requests, acks⟩ := Traced.of_bind ran
      obtain ⟨nothing, acknowledged⟩ := traced_ack acks
      obtain ⟨result, replayed, inner, close, rfl, replays, closes⟩ := Traced.of_bind requests
      have outcome := traced_replayJob ((unmoved.visible pid _).trans seen) replayable replays
      have nodes := unmoved.probedNodes pid member.jobId
      rw [probes_append, probes_append, nothing]
      generalize probes inner = read at outcome
      cases outcome with
      | notFound foreign quiet =>
          obtain ⟨drifted, silent, before, stays⟩ := traced_rollback closes
          obtain ⟨committed, scheduled⟩ :=
            rolled_back pid member.jobId (unmoved.trans quiet) before stays
          rw [silent]
          exact .dropped free (.inl foreign) ((acknowledged.committed _).trans committed)
            (acknowledged.scheduled.trans scheduled)
      | @refused second _ _ own paused quiet =>
          obtain ⟨drifted, silent, before, stays⟩ := traced_rollback closes
          obtain ⟨committed, scheduled⟩ :=
            rolled_back pid member.jobId (unmoved.trans quiet) before stays
          rw [nodes] at paused
          rw [silent]
          exact .dropped free (.inr ⟨second, List.mem_cons_self, paused⟩)
            ((acknowledged.committed _).trans committed) (acknowledged.scheduled.trans scheduled)
      | @performed second _ _ now own again written scheduled =>
          obtain ⟨drifted, silent, before, stays⟩ := traced_commit closes
          have stored : (drifted.commit pid).jobs.committed member.jobId =
              some (replayWrite.apply now row) := (before.visible pid _).trans written
          rw [nodes] at again
          rw [silent]
          refine .replayed own free again ⟨now, ?_⟩
          rw [acknowledged.committed, stays.sameReplay.committed, stored]

theorem ItemOutcome.settled_iff {member : ReplayMember} {row : Job} {read : List World}
    (outcome : ItemOutcome pid member row world after read)
    (stored : world.jobs.committed member.jobId = some row)
    (replayable : row.status = .failed ∨ row.status = .deadLetter) :
    ReplayCommitted after member.jobId row ∨ Armed after member ↔
      Armed world member ∨
        (∃ first ∈ read.head?, pausesAny first (probedNodes world pid member.jobId) = true) ∨
        row.tenantId = member.tenantId ∧
          ∀ probed ∈ read, pausesAny probed (probedNodes world pid member.jobId) = false := by
  cases outcome with
  | deferred paused armed => simp [armed, paused]
  | replayed own free again committed => simp [committed, own, free, again]
  | @dropped probed later free refused committed scheduled =>
      have unwritten : ¬ ReplayCommitted after member.jobId row := by
        rintro ⟨now, written⟩
        rw [committed, stored] at written
        have status : row.status = .pending := congrArg Job.status (Option.some.inj written)
        simp [status] at replayable
      have same : Armed after member ↔ Armed world member := by rw [Armed, Armed, scheduled]
      have never : ¬ (row.tenantId = member.tenantId ∧ ∀ read ∈ probed :: later,
          pausesAny read (probedNodes world pid member.jobId) = false) := by
        rintro ⟨own, all⟩
        obtain foreign | ⟨second, member, paused⟩ := refused
        · exact foreign own
        · rw [all second (List.mem_cons_of_mem _ member)] at paused
          contradiction
      simp only [unwritten, false_or, same, never, or_false, List.head?_cons, Option.mem_some_iff,
        exists_eq_left', free, Bool.false_eq_true]

/-- An item of a job that may be replayed runs to its end, and then the replay is
committed or the member is armed exactly if the item's own probe met a pause, or
neither probe did, or the member was armed already. -/
theorem scheduled_replay_kept_iff {member : ReplayMember} {row : Job}
    (idle : world.jobs.own pid member.jobId = none)
    (stored : world.jobs.committed member.jobId = some row)
    (replayable : row.status = .failed ∨ row.status = .deadLetter) :
    (world.Closed → ∃ trace after,
      Traced (platform settings) pid (fireScheduledReplay member) world trace () after) ∧
    ∀ trace after, Traced (platform settings) pid (fireScheduledReplay member) world trace () after →
      (ReplayCommitted after member.jobId row ∨ Armed after member ↔
        Armed world member ∨
          (∃ first ∈ (probes trace).head?,
            pausesAny first (probedNodes world pid member.jobId) = true) ∨
          row.tenantId = member.tenantId ∧ ∀ probed ∈ probes trace,
            pausesAny probed (probedNodes world pid member.jobId) = false) := by
  constructor
  · intro closed
    have leaves := (fireScheduledReplay_uses member).mono
      (Role.promoteDlqReplay.leavesOutbox (by simp) rfl)
    obtain ⟨_, after, ran⟩ := exists_run_of_closed leaves closed
    obtain ⟨trace, traced⟩ := ran.traced
    exact ⟨trace, after, traced⟩
  · intro trace after ran
    have seen : world.jobs.visible pid member.jobId = some row := by
      rw [Table.visible_of_unlocked (Table.own_eq_none_iff.mp idle), stored]
    exact (traced_item seen replayable ran).settled_iff stored replayable

/-- Job 1 is dead-lettered, its replay is armed for a minute later, and a pass
has claimed it. -/
def replayClaimed : List (Label Role Change) :=
  [.spawn 1 (.createJob { userId := 7, tenantId := 8, jobType := "csv_upload" })] ++ turns 1 4 ++
  [.spawn 2 .outboxRelay] ++ turns 2 6 ++ [.spawn 3 (.deliver 1)] ++ turns 3 7 ++
  tick 2 .timedOut ++ turns 3 7 ++
  [.spawn 4 (.scheduleEach [1] 8 { kind := "service_account", id := 9 } 60 [])] ++ turns 4 5 ++
  tick (seconds 100) .timedOut ++ [.spawn 5 .promoteDlqReplay] ++ turns 5 1

def pauseAfterTwo (world : World) : Change :=
  if world.outside.clock < seconds 100 + 2 then .outside (readings (world.outside.clock + 1) .timedOut)
  else .pause 1

theorem scheduled_replay_kept_iff_at_claim : ∃ pool row, Reachable .defaults pool ∧
    pool.world.jobs.own 5 1 = none ∧ pool.world.jobs.committed 1 = some row ∧
    (row.status = .failed ∨ row.status = .deadLetter) ∧
    ∀ trace after, Traced (platform .defaults) 5 (fireScheduledReplay ⟨8, 9, 1⟩) pool.world trace ()
        after →
      (ReplayCommitted after 1 row ∨ Armed after ⟨8, 9, 1⟩ ↔
        Armed pool.world ⟨8, 9, 1⟩ ∨
          (∃ first ∈ (probes trace).head?, pausesAny first (probedNodes pool.world 5 1) = true) ∨
          row.tenantId = 8 ∧ ∀ probed ∈ probes trace,
            pausesAny probed (probedNodes pool.world 5 1) = false) := by
  obtain ⟨pool, reachable, checked⟩ : ∃ pool, Reachable .defaults pool ∧
      decide ((pool.world.jobs.own 5 1).isNone ∧
        (pool.world.jobs.committed 1).any fun row => row.status = .deadLetter) = true :=
    exists_reachable replayClaimed (by decide +kernel)
  obtain ⟨idle, dead⟩ := of_decide_eq_true checked
  obtain ⟨row, stored, status⟩ := (Option.any_eq_true _ _).mp dead
  have free := Option.isNone_iff_eq_none.mp idle
  have replayable : row.status = .failed ∨ row.status = .deadLetter := .inr (of_decide_eq_true status)
  have item := @scheduled_replay_kept_iff .defaults 5 pool.world ⟨8, 9, 1⟩ row free stored replayable
  exact ⟨pool, row, reachable, free, stored, replayable, item.2⟩

/-- The flag is set between the two probes: the replay is refused, and the claim
is acknowledged. -/
theorem pause_between_probes_drops_replay : ¬ ∀ pool pid member row after,
    Reachable .defaults pool → pool.world.jobs.own pid member.jobId = none →
    pool.world.jobs.committed member.jobId = some row →
    (row.status = .failed ∨ row.status = .deadLetter) →
    Alone (platform .defaults) pid (fireScheduledReplay member) pool.world () after →
    ReplayCommitted after member.jobId row ∨ Armed after member := by
  intro kept
  obtain ⟨pool, reachable, checked⟩ : ∃ pool, Reachable .defaults pool ∧
      decide ((pool.world.jobs.own 5 1).isNone ∧
        ((pool.world.jobs.committed 1).any fun row => row.status = .deadLetter) ∧
        ((platform .defaults).solo 5 pauseAfterTwo (fireScheduledReplay ⟨8, 9, 1⟩) pool.world).any
          fun ended => ended.2.replayScheduled.isEmpty ∧
            (ended.2.jobs.committed 1).any fun row => row.status = .deadLetter) = true :=
    exists_reachable replayClaimed (by decide +kernel)
  obtain ⟨idle, dead, runs⟩ := of_decide_eq_true checked
  obtain ⟨row, stored, status⟩ := (Option.any_eq_true _ _).mp dead
  obtain ⟨⟨_, after⟩, ran, ends⟩ := (Option.any_eq_true _ _).mp runs
  obtain ⟨empty, still⟩ := of_decide_eq_true ends
  obtain ⟨last, found, unreplayed⟩ := (Option.any_eq_true _ _).mp still
  obtain ⟨now, written⟩ | armed := kept pool 5 ⟨8, 9, 1⟩ row after reachable
    (Option.isNone_iff_eq_none.mp idle) stored (.inr (of_decide_eq_true status)) (.of_solo ran)
  · rw [found] at written
    cases written
    exact absurd (of_decide_eq_true unreplayed) (by simp [StatusWrite.apply, replayWrite])
  · have none : after.replayScheduled = [] := List.isEmpty_iff.mp empty
    simp [Armed, none] at armed

end IncidentPlatform.Properties

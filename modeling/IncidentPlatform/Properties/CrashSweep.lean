import IncidentPlatform.Platform.Capabilities
import IncidentPlatform.Platform.Transactions

namespace IncidentPlatform.Properties

open Concurrency Models Platform Repositories Services Storage Workers

/-! # The crash sweep and leased jobs

The sweep scans in one transaction and settles each row in another, with
anything in between.  Its write is guarded by what the scan saw, and every other
statement follows a write that got through.
-/

def openActs : List Act → List Act
  | [] => []
  | act :: older => if act.1.ends then [] else act :: openActs older

theorem openActs_historyOf (pid : Pid) (log : List PlatformEntry) :
    openActs (historyOf pid log) = traceOf pid log := by
  induction log with
  | nil => rfl
  | cons entry older ih =>
      rw [traceOf_cons, ← ih, historyOf, remembered]
      split
      · rfl
      · rfl

/-- The scan: the time read first, and the rows it answered with. -/
def ScannedBy (settings : Settings) (acts : List Act) (scan : Time) (rows : List Job) : Prop :=
  ∃ later, acts = later ++ [
    ⟨.query (.staleRunning (scan - settings.staleRunningThreshold) (scan - runningLeaseTtl)), rows⟩,
    ⟨.reading .now, scan⟩]

theorem ScannedBy.extend {settings : Settings} {acts : List Act} {scan : Time} {rows : List Job}
    (scanned : ScannedBy settings acts scan rows) (operation : Op) (reply : Reply operation) :
    ScannedBy settings (remember acts operation reply) scan rows := by
  obtain ⟨later, rfl⟩ := scanned
  exact ⟨⟨operation, reply⟩ :: later, rfl⟩

/-- A status write of `job` that got through. -/
def winsWrite (job : Uuid) : Act → Bool
  | ⟨.statement (.updateStatus id _ _), changed⟩ => decide (id = job) && changed
  | _ => false

theorem winsWrite_eq {job : Uuid} {act : Act} (wins : winsWrite job act = true) :
    ∃ write guard, act = ⟨.statement (.updateStatus job write guard), true⟩ := by
  unfold winsWrite at wins
  split at wins
  · rename_i id write guard changed
    simp only [Bool.and_eq_true, decide_eq_true_eq] at wins
    obtain ⟨rfl, rfl⟩ := wins
    exact ⟨write, guard, rfl⟩
  · contradiction

def issuesStatement : Act → Bool
  | ⟨.statement _, _⟩ => true
  | _ => false

/-- A write is the first statement of its transaction and guarded by a scanned
row; whatever else is written follows a write that got through. -/
def sweepRule (settings : Settings) (acts : List Act) : Op → Prop
  | .statement (.updateStatus id write guard) => (openActs acts).any issuesStatement = false ∧
      write.status = .deadLetter ∧ ∃ scan rows scanned, ScannedBy settings acts scan rows ∧
        scanned ∈ rows ∧ id = scanned.id ∧ guard = some (unmovedSince scanned)
  | .statement (.insertAudit entry) => ∃ job, entry.jobId = some job ∧
      (openActs acts).any (winsWrite job) = true
  | .statement (.insertOutbox _ _ _ _) | .statement (.cancelBlocked _ _ _) =>
      ∃ job, (openActs acts).any (winsWrite job) = true
  | .statement _ => False
  | _ => True

section Follows

variable {settings : Settings} {scan now : Time} {rows : List Job} {acts : List Act} {job : Job}

def BetweenRows (settings : Settings) (scan : Time) (rows : List Job) (acts : List Act) : Prop :=
  ScannedBy settings acts scan rows ∧ (openActs acts).any issuesStatement = false

/-- After the write of `job` got through. -/
def WriteWon (settings : Settings) (scan : Time) (rows : List Job) (job : Uuid) (acts : List Act) :
    Prop :=
  ScannedBy settings acts scan rows ∧ (openActs acts).any (winsWrite job) = true

theorem WriteWon.extend {id : Uuid} {operation : Op} {reply : Reply operation}
    (won : WriteWon settings scan rows id acts) (opened : operation.ends = false) :
    WriteWon settings scan rows id (remember acts operation reply) := by
  refine ⟨won.1.extend operation reply, ?_⟩
  simp only [remember, openActs, opened, Bool.false_eq_true, if_false, List.any_cons, won.2,
    Bool.or_true]

theorem ScannedBy.close {operation : Op} {reply : Reply operation}
    (scanned : ScannedBy settings acts scan rows) (ends : operation.ends = true) :
    BetweenRows settings scan rows (remember acts operation reply) := by
  refine ⟨scanned.extend operation reply, ?_⟩
  simp only [remember, openActs, ends, if_true, List.any_nil]

theorem settles_won {id : Uuid} (won : WriteWon settings scan rows id acts) {operation : Op}
    (settles : operation.Settles) : sweepRule settings acts operation ∧
      ∀ reply, WriteWon settings scan rows id (remember acts operation reply) := by
  cases operation with
  | query query => exact ⟨trivial, fun reply => won.extend rfl⟩
  | reading reading => exact ⟨trivial, fun reply => won.extend rfl⟩
  | statement issued =>
      cases issued with
      | insertOutbox tenant user topic event => exact ⟨⟨id, won.2⟩, fun reply => won.extend rfl⟩
      | cancelBlocked ids reason stamp => exact ⟨⟨id, won.2⟩, fun reply => won.extend rfl⟩
      | _ => exact settles.elim
  | _ => exact settles.elim

theorem afterSweepWrite_follows {id : Uuid} (status : JobStatus) (message : Option String)
    (won : WriteWon settings scan rows id acts) :
    (afterStatusWrite id status message).Follows (recalling (sweepRule settings)) acts
      fun after _ => WriteWon settings scan rows id after :=
  (afterStatusWrite_uses id status message).follows won fun _ _ kept settles => settles_won kept settles

theorem endSweep_follows (scanned : ScannedBy settings acts scan rows) :
    commit.Follows (recalling (sweepRule settings)) acts
      fun after _ => BetweenRows settings scan rows after :=
  ⟨trivial, fun _ => scanned.close rfl⟩

theorem recoverStale_follows (inFlight : Bool) (member : job ∈ rows)
    (between : BetweenRows settings scan rows acts) :
    (recoverStale now inFlight job).Follows (recalling (sweepRule settings)) acts
      fun after _ => BetweenRows settings scan rows after := by
  obtain ⟨scanned, clean⟩ := between
  refine Program.Follows.bind ?_ fun after (settled : Option Job)
    (kept : ScannedBy settings after scan rows ∧
      (settled.isSome → WriteWon settings scan rows job.id after)) => ?_
  · refine .first ⟨clean, rfl, scan, rows, job, scanned, member, rfl, rfl⟩ fun changed => ?_
    cases changed with
    | false => exact ⟨scanned.extend _ _, fun settled => by cases settled⟩
    | true =>
        refine (afterSweepWrite_follows _ _ ⟨scanned.extend _ _, ?_⟩).mono
          fun after settled won => ⟨won.1, fun _ => won⟩
        simp [remember, openActs, Op.ends, winsWrite]
  · cases settled with
    | none => exact endSweep_follows kept.1
    | some row =>
        have won := kept.2 rfl
        exact .first ⟨job.id, rfl, won.2⟩ fun _ => endSweep_follows (won.1.extend _ _)

theorem sweepStale_follows (member : job ∈ rows) (between : BetweenRows settings scan rows acts) :
    (sweepStale settings now job).Follows (recalling (sweepRule settings)) acts
      fun after _ => BetweenRows settings scan rows after := by
  refine .first trivial fun inFlight => ?_
  have asked : BetweenRows settings scan rows (remember acts (.reading (.inFlight job.id)) inFlight) :=
    ⟨between.1.extend _ _, between.2⟩
  split
  · exact asked
  · exact recoverStale_follows inFlight member asked

theorem sweepStaleRunningOnce_follows (settings : Settings) :
    (sweepStaleRunningOnce settings).Follows (recalling (sweepRule settings)) [] fun _ _ => True := by
  refine .first trivial fun scan => .first trivial fun rows => .first trivial fun _ =>
    .first trivial fun now => ?_
  refine (Program.follows_forEach (motive := BetweenRows settings scan rows) ?_ ?_).mono
    fun _ _ _ => trivial
  · exact ⟨⟨[⟨.reading .now, now⟩, ⟨.rollback, ()⟩], rfl⟩, rfl⟩
  · exact fun job member acts between => sweepStale_follows member between

end Follows

def sweepRules (settings : Settings) (role : Role) (acts : List Act) (operation : Op) : Prop :=
  role = .sweepStaleRunning → sweepRule settings acts operation

theorem program_keeps_sweepRule (settings : Settings) (role : Role) :
    (role.program settings).Follows (recalling (sweepRules settings role)) [] fun _ _ => True := by
  by_cases sweeps : role = .sweepStaleRunning
  · subst sweeps
    have same : sweepRules settings .sweepStaleRunning = sweepRule settings := by
      funext acts operation
      exact propext ⟨fun rule => rule rfl, fun rule _ => rule⟩
    rw [same]
    exact sweepStaleRunningOnce_follows settings
  · exact (Program.uses_any _).follows (motive := fun _ => True) trivial
      fun _ _ _ _ => ⟨fun other => absurd other sweeps, fun _ => trivial⟩

variable {settings : Settings} {pool : PlatformPool} {newer older : List PlatformEntry}
  {entry : PlatformEntry}

theorem expired_of_scanned {scan : Time} {rows : List Job} {scanned : Job} {pid : Pid}
    (reachable : Reachable settings pool) (made : ScannedBy settings (historyOf pid pool.log) scan rows)
    (member : scanned ∈ rows) :
    (scanned.startedAt.any fun started => started < scan - settings.staleRunningThreshold) = true ∧
      (scanned.heartbeatAt.all fun beat => beat < scan - runningLeaseTtl) = true := by
  obtain ⟨later, acts⟩ := made
  have asked : (⟨.query (.staleRunning (scan - settings.staleRunningThreshold)
      (scan - runningLeaseTtl)), rows⟩ : Act) ∈ historyOf pid pool.log := by
    rw [acts]
    simp
  obtain ⟨entry, logged, _, same⟩ := mem_historyOf asked
  obtain ⟨before, _, _, _, _, _, operated⟩ := reachable.moment logged
  obtain ⟨owner, role, operation, reply, world⟩ := entry
  cases same
  have answered : before.world.staleRunning owner (scan - settings.staleRunningThreshold)
      (scan - runningLeaseTtl) = reply := congrArg Prod.fst (Option.some.inj operated)
  rw [← answered] at member
  have found := (List.mem_filter.mp (List.mem_of_mem_take member)).2
  simp only [Bool.and_eq_true] at found
  exact ⟨found.1.2, found.2⟩

/-- The row that a sweep may dead-letter: at the write it is RUNNING in the
attempt that the scan saw, and at the scan that attempt was over the threshold
and its lease missing or expired. -/
def Expired (settings : Settings) (acts : List Act) (world : World) (id : Uuid) : Prop :=
  ∃ scan rows scanned row, ScannedBy settings acts scan rows ∧ scanned ∈ rows ∧ scanned.id = id ∧
    world.jobs.newest id = some row ∧ row.status = .running ∧
    row.startedAt = scanned.startedAt ∧ row.heartbeatAt = scanned.heartbeatAt ∧
    (row.startedAt.any fun started => started < scan - settings.staleRunningThreshold) = true ∧
    (row.heartbeatAt.all fun beat => beat < scan - runningLeaseTtl) = true

/-- What holds of every statement a sweep has issued, given what was logged
before it. -/
structure SweepSpares (settings : Settings) (entry : PlatformEntry) (older : List PlatformEntry) :
    Prop where
  /-- A write that gets through hits an expired row. -/
  kills : ∀ id write guard, actOf entry = ⟨.statement (.updateStatus id write guard), true⟩ →
    write.status = .deadLetter ∧ Expired settings (historyOf entry.pid older) entry.before id
  /-- A write that does not changes nothing. -/
  spares : ∀ id write guard, actOf entry = ⟨.statement (.updateStatus id write guard), false⟩ →
    World.operate entry.pid entry.operation entry.before = some (entry.reply, entry.before)
  /-- A write is the first statement of its transaction. -/
  first : ∀ id write guard, entry.operation = .statement (.updateStatus id write guard) →
    (traceOf entry.pid older).any issuesStatement = false
  /-- Every other statement comes after a write of its transaction that got through. -/
  others : ∀ statement, entry.operation = .statement statement →
    (∃ id write guard, statement = .updateStatus id write guard) ∨
    (∃ audit job, statement = .insertAudit audit ∧ audit.jobId = some job ∧
      (traceOf entry.pid older).any (winsWrite job) = true) ∨
    ((∃ tenant user topic event, statement = .insertOutbox tenant user topic event) ∨
        ∃ ids reason stamp, statement = .cancelBlocked ids reason stamp) ∧
      ∃ job, (traceOf entry.pid older).any (winsWrite job) = true

/-- Whatever runs beside it, a sweep dead-letters a row only if the row is still
in the expired attempt that its scan saw; otherwise it writes nothing. -/
theorem sweep_spares_leased_jobs (reachable : Reachable settings pool)
    (split : pool.log = newer ++ entry :: older) (sweeps : entry.role = .sweepStaleRunning) :
    SweepSpares settings entry older := by
  obtain ⟨before, earlier, _, same, ⟨next, stood⟩, ⟨world, operated⟩, rfl⟩ := reachable.moment_at split
  have rule := memory_kept (program_keeps_sweepRule settings) earlier stood sweeps
  have kept : sweepRule settings (historyOf entry.pid before.log) entry.operation := rule
  obtain ⟨pid, role, operation, reply, seen⟩ := entry
  cases same
  refine ⟨?_, ?_, ?_, ?_⟩
  · intro id write guard won
    cases won
    obtain ⟨_, dead, scan, rows, scanned, made, member, rfl, rfl⟩ := kept
    obtain ⟨new, _, _, row, visible, holds, _⟩ := update_writes operated
    obtain ⟨_, _, free, _⟩ | ⟨other, _⟩ | ⟨other, _⟩ | ⟨unwritten, _⟩ :=
      operate_slot operated scanned.id
    · have newest := (Table.newest_eq_visible free).trans visible
      simp only [Option.all_some, unmovedSince, Bool.and_eq_true, decide_eq_true_eq] at holds
      obtain ⟨⟨running, started⟩, beat⟩ := holds
      obtain ⟨overdue, lapsed⟩ := expired_of_scanned earlier made member
      exact ⟨dead, scan, rows, scanned, row, made, member, rfl, newest, running, started, beat,
        started ▸ overdue, beat ▸ lapsed⟩
    · cases other
    · cases other
    · obtain ⟨new, writes⟩ := update_writes operated
      exact absurd writes (unwritten new)
  · intro id write guard refused
    cases refused
    obtain ⟨jobs, updated, rfl⟩ := withJobs_eq operated
    obtain ⟨_, unchanged, _⟩ | ⟨accepted, _⟩ := Table.update_cases updated
    · subst unchanged
      exact operated
    · cases accepted
  · intro id write guard issued
    cases issued
    rw [← openActs_historyOf]
    exact kept.1
  · intro statement issued
    cases issued
    rw [← openActs_historyOf]
    cases statement with
    | updateStatus id write guard => exact .inl ⟨id, write, guard, rfl⟩
    | insertAudit audit =>
        obtain ⟨job, named, won⟩ := kept
        exact .inr (.inl ⟨audit, job, rfl, named, won⟩)
    | insertOutbox tenant user topic event =>
        exact .inr (.inr ⟨.inl ⟨tenant, user, topic, event, rfl⟩, kept⟩)
    | cancelBlocked ids reason stamp => exact .inr (.inr ⟨.inr ⟨ids, reason, stamp, rfl⟩, kept⟩)
    | _ => exact kept.elim

def sweptOnce : List (Label Role Change) :=
  [.spawn 1 (.createJob { userId := 7, tenantId := 8, jobType := "csv_upload" })] ++ turns 1 4 ++
  [.spawn 2 .outboxRelay] ++ turns 2 6 ++ [.spawn 3 (.deliver 1)] ++ turns 3 6 ++
  tick (seconds 1800) .timedOut ++ [.spawn 4 .sweepStaleRunning] ++ turns 4 6

def sweeping : Role → Bool
  | .sweepStaleRunning => true
  | _ => false

theorem sweeping_iff {role : Role} (sweeps : sweeping role = true) : role = .sweepStaleRunning := by
  cases role <;> first
    | rfl
    | cases sweeps

theorem sweep_spares_leased_jobs_at_half_hour : ∃ pool newer entry older write guard,
    Reachable .defaults pool ∧ pool.log = newer ++ entry :: older ∧
    entry.role = .sweepStaleRunning ∧ actOf entry = ⟨.statement (.updateStatus 1 write guard), true⟩ ∧
    SweepSpares .defaults entry older := by
  obtain ⟨pool, reachable, checked⟩ : ∃ pool, Reachable .defaults pool ∧
      (pool.log.any fun entry => sweeping entry.role && winsWrite 1 (actOf entry)) = true :=
    exists_reachable sweptOnce (by decide +kernel)
  obtain ⟨entry, logged, found⟩ := List.any_eq_true.mp checked
  obtain ⟨sweeps, wins⟩ := Bool.and_eq_true_iff.mp found
  obtain ⟨newer, older, split⟩ := List.append_of_mem logged
  obtain ⟨write, guard, won⟩ := winsWrite_eq wins
  have role := sweeping_iff sweeps
  exact ⟨pool, newer, entry, older, write, guard, reachable, split, role, won,
    sweep_spares_leased_jobs reachable split role⟩

end IncidentPlatform.Properties

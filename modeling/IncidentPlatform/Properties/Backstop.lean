import IncidentPlatform.Platform.Capabilities
import IncidentPlatform.Platform.Transactions

namespace IncidentPlatform.Properties

open Concurrency Models Platform Repositories Services Storage Workers

/-! # The stale-PENDING backstop

A pass re-publishes a job and stamps its row in one transaction.  The stamp is
unconditional, so what keeps two passes a window apart is the row that each stamp
finds.
-/

/-- The pass began by reading `scan` and asking for what is stale at that time. -/
def BackstopScan (acts : List Act) (scan : Time) (rows : List Job) : Prop :=
  [⟨.query (.stalePending (scan - stalePendingAge)), rows⟩, ⟨.reading .now, scan⟩] <:+ acts

/-- Whether the act re-publishes `job`. -/
def republishes (job : Uuid) : Act → Bool
  | ⟨.statement (.insertOutbox _ _ topic event), _⟩ => decide (topic = .submitted ∧ event.jobId = job)
  | _ => false

def stamps (job : Uuid) (stamp : Time) : Act → Bool
  | ⟨.statement (.stampRequeued id written), _⟩ => decide (id = job ∧ written = stamp)
  | _ => false

def commits : Act → Bool
  | ⟨.commit, _⟩ => true
  | _ => false

/-- A pass re-publishes each row of its page at most once, stamps what it
re-published with its scan time, and commits when all of it is stamped. -/
def backstopRule (acts : List Act) : Op → Prop
  | .statement (.insertOutbox _ _ topic event) => topic = .submitted ∧
      ∃ scan rows, BackstopScan acts scan rows ∧
        ((rows.map Job.id).Nodup → acts.any (republishes event.jobId) = false)
  | .statement (.stampRequeued _ stamp) => acts.any commits = false ∧ ∃ rows, BackstopScan acts stamp rows
  | .commit => ∀ job, acts.any (republishes job) = true → ∃ stamp rows, BackstopScan acts stamp rows ∧
      acts.any (stamps job stamp) = true
  | .statement _ | .rollback => False
  | _ => True

section Follows

variable {scan : Time} {rows : List Job} {acts : List Act}

/-- Before the rows `rest` of the page, with those of `done` behind it. -/
structure Passing (scan : Time) (rows done : List Job) (acts : List Act) : Prop where
  scanned : BackstopScan acts scan rows
  opened : acts.any commits = false
  behind : ∀ job, acts.any (republishes job) = true → job ∈ done.map Job.id
  stamped : ∀ job, acts.any (republishes job) = true → acts.any (stamps job scan) = true

theorem Passing.ask {done : List Job} {operation : Op} {reply : Reply operation}
    (passing : Passing scan rows done acts)
    (plain : ∀ job, republishes job ⟨operation, reply⟩ = false) (open' : commits ⟨operation, reply⟩ = false) :
    Passing scan rows done (remember acts operation reply) := by
  refine ⟨passing.scanned.trans (List.suffix_cons _ _), ?_, ?_, ?_⟩
  · simp [remember, open', passing.opened]
  · intro job
    simp only [remember, List.any_cons, plain job, Bool.false_or]
    exact passing.behind job
  · intro job
    simp only [remember, List.any_cons, plain job, Bool.false_or]
    intro published
    rw [passing.stamped job published, Bool.or_true]

theorem Passing.further {done : List Job} {job : Job} (passing : Passing scan rows done acts) :
    Passing scan rows (done ++ [job]) acts := by
  refine ⟨passing.scanned, passing.opened, fun id published => ?_, passing.stamped⟩
  rw [List.map_append]
  exact List.mem_append_left _ (passing.behind id published)

theorem requeueStale_follows {done rest : List Job} {job : Job} (page : rows = done ++ job :: rest)
    (passing : Passing scan rows done acts) :
    (requeueStale scan job).Follows (recalling backstopRule) acts
      fun after _ => Passing scan rows (done ++ [job]) after := by
  refine .first trivial fun score => ?_
  have asked : Passing scan rows done (remember acts (.command (.delayedScore job.id)) score) :=
    passing.ask (fun _ => rfl) rfl
  cases score with
  | some _ => exact asked.further
  | none =>
      refine .first ⟨rfl, scan, rows, asked.scanned, fun distinct => ?_⟩ fun _ => ?_
      · by_contra earlier
        have behind := asked.behind job.id (by simpa using earlier)
        rw [page, List.map_append, List.map_cons] at distinct
        exact List.disjoint_of_nodup_append distinct behind List.mem_cons_self
      · refine ⟨⟨?_, rows, asked.scanned.trans (List.suffix_cons _ _)⟩, fun _ => ?_⟩
        · simpa [remember, commits] using asked.opened
        · refine ⟨asked.scanned.trans ⟨[_, _], rfl⟩, ?_, fun id => ?_, fun id => ?_⟩
          · simpa [remember, commits] using asked.opened
          · simp only [remember, List.any_cons, Bool.or_eq_true]
            rintro (stamping | republishing | asking | earlier)
            · cases stamping
            · simp only [republishes, decide_eq_true_eq] at republishing
              simp [← republishing.2]
            · cases asking
            · exact passing.further.behind id earlier
          · simp only [remember, List.any_cons, Bool.or_eq_true]
            rintro (stamping | republishing | asking | earlier)
            · cases stamping
            · simp only [republishes, decide_eq_true_eq] at republishing
              simp [stamps, ← republishing.2]
            · cases asking
            · exact .inr (.inr (.inr (passing.stamped id earlier)))

theorem requeueEach_follows {done rest : List Job} (page : rows = done ++ rest)
    (passing : Passing scan rows done acts) :
    (Program.forEach rest (requeueStale scan)).Follows (recalling backstopRule) acts
      fun after _ => Passing scan rows rows after := by
  induction rest generalizing done acts with
  | nil =>
      rw [List.append_nil] at page
      exact page ▸ passing
  | cons job rest ih =>
      refine (requeueStale_follows page passing).bind fun after _ further => ?_
      exact ih (by rw [page, List.append_assoc]; rfl) further

theorem requeueStalePendingOnce_follows :
    requeueStalePendingOnce.Follows (recalling backstopRule) [] fun _ _ => True := by
  refine .first trivial fun scan => .first trivial fun rows => ?_
  refine (@requeueEach_follows scan rows _ [] rows rfl ?_).bind fun after _ passed => ?_
  · refine ⟨List.suffix_refl _, rfl, ?_, ?_⟩
    · intro job published
      cases published
    · intro job published
      cases published
  · exact ⟨fun job published => ⟨scan, rows, passed.scanned, passed.stamped job published⟩,
      fun _ => trivial⟩

end Follows

def backstopRules (role : Role) (acts : List Act) (operation : Op) : Prop :=
  role = .requeueStalePending → backstopRule acts operation

theorem program_keeps_backstopRule (settings : Settings) (role : Role) :
    (role.program settings).Follows (recalling (backstopRules role)) [] fun _ _ => True := by
  by_cases requeues : role = .requeueStalePending
  · subst requeues
    have same : backstopRules .requeueStalePending = backstopRule := by
      funext acts operation
      exact propext ⟨fun rule => rule rfl, fun rule _ => rule⟩
    rw [same]
    exact requeueStalePendingOnce_follows
  · exact (Program.uses_any _).follows (motive := fun _ => True) trivial
      fun _ _ _ _ => ⟨fun other => absurd other requeues, fun _ => trivial⟩

section Stamps

variable {settings : Settings} {pool : PlatformPool} {job : Uuid} {pid other : Pid} {scan later : Time}

theorem BackstopScan.extend {acts : List Act} {rows : List Job} (scanned : BackstopScan acts scan rows)
    (operation : Op) (reply : Reply operation) : BackstopScan (remember acts operation reply) scan rows :=
  scanned.trans (List.suffix_cons _ _)

theorem BackstopScan.unique {acts : List Act} {rows others : List Job}
    (first : BackstopScan acts scan rows) (second : BackstopScan acts later others) :
    scan = later ∧ rows = others := by
  have same := List.IsSuffix.eq_of_length (List.suffix_of_suffix_length_le first second (by simp)) (by simp)
  simp only [List.cons.injEq, and_true] at same
  obtain ⟨asked, read⟩ := same
  cases read
  cases asked
  exact ⟨rfl, rfl⟩

/-- `pid` is a pass of scan time `scan` that has stamped `job`. -/
def Stamped (job : Uuid) (acts : List Act) (scan : Time) : Prop :=
  (∃ rows, BackstopScan acts scan rows) ∧ acts.any (stamps job scan) = true

theorem Stamped.extend {acts : List Act} {operation : Op} {reply : Reply operation}
    (stamped : Stamped job acts scan) : Stamped job (remember acts operation reply) scan := by
  obtain ⟨⟨rows, scanned⟩, stamped⟩ := stamped
  refine ⟨⟨rows, scanned.extend operation reply⟩, ?_⟩
  rw [remember, List.any_cons, stamped, Bool.or_true]

theorem Stamped.of_extend {acts : List Act} {operation : Op} {reply : Reply operation}
    (stamped : Stamped job (remember acts operation reply) scan) :
    Stamped job acts scan ∨ operation = .statement (.stampRequeued job scan) := by
  obtain ⟨⟨rows, scanned⟩, stamped⟩ := stamped
  rw [remember, List.any_cons, Bool.or_eq_true] at stamped
  obtain now | before := stamped
  · right
    unfold stamps at now
    split at now
    · rename_i same
      cases same
      obtain ⟨rfl, rfl⟩ := of_decide_eq_true now
      rfl
    · contradiction
  · left
    obtain new | old := List.suffix_cons_iff.mp scanned
    · cases new
      cases before
    · exact ⟨⟨rows, old⟩, before⟩

end Stamps

/-! ## Stamps that stay apart

For one job: `stamped` says which processes have stamped it and when they
scanned, `closed` which have committed.
-/

structure StampsApart (slot : Slot Job) (stamped : Pid → Time → Prop) (closed : Pid → Prop) :
    Prop where
  /-- The committed row carries the latest of the committed stamps. -/
  latest : ∀ pid scan, stamped pid scan → closed pid →
    ∃ row stamp, slot.committed = some row ∧ row.requeuedAt = some stamp ∧ scan ≤ stamp
  apart : ∀ pid other scan later, pid ≠ other → stamped pid scan → closed pid →
    stamped other later → closed other →
    scan + stalePendingAge ≤ later ∨ later + stalePendingAge ≤ scan
  /-- A pass that has stamped and not committed holds the row. -/
  holding : ∀ pid scan, stamped pid scan → ¬ closed pid →
    ∃ row, slot.holder = some (pid, row) ∧ row.requeuedAt = some scan
  /-- Its scan is a window after every committed stamp. -/
  after : ∀ pid scan other earlier, stamped pid scan → ¬ closed pid → stamped other earlier →
    closed other → earlier + stalePendingAge ≤ scan
  /-- Nobody else who holds the row has changed its stamp. -/
  unstamped : ∀ pid version row, slot.holder = some (pid, version) → slot.committed = some row →
    (∀ scan, stamped pid scan → closed pid) → version.requeuedAt = row.requeuedAt

section Apart

variable {slot : Slot Job} {stamped : Pid → Time → Prop} {closed : Pid → Prop} {pid : Pid}

theorem StampsApart.write {new : Job} (apart : StampsApart slot stamped closed) (free : slot.Free pid)
    (same : ∀ row, slot.visible pid = some row → new.requeuedAt = row.requeuedAt) :
    StampsApart (slot.write pid new) stamped closed := by
  refine ⟨apart.latest, apart.apart, ?_, apart.after, ?_⟩
  · intro owner scan stamp opened
    obtain ⟨row, held, written⟩ := apart.holding owner scan stamp opened
    obtain rfl := free owner row held
    exact ⟨new, rfl, (same row (Slot.visible_of_held held)).trans written⟩
  · intro owner version row held stored settled
    cases held
    by_cases holds : ∃ earlier, slot.holder = some (pid, earlier)
    · obtain ⟨earlier, held⟩ := holds
      rw [same earlier (Slot.visible_of_held held)]
      exact apart.unstamped pid earlier row held stored settled
    · refine same row ?_
      rw [Slot.visible_of_free fun earlier held => holds ⟨earlier, held⟩]
      exact stored

theorem StampsApart.rollback (apart : StampsApart slot stamped closed) (never : ∀ scan, ¬ stamped pid scan) :
    StampsApart (slot.rollback pid) stamped closed := by
  obtain ⟨version, held, equal⟩ | ⟨_, equal⟩ := slot.rollback_cases pid
  · rw [equal]
    refine ⟨apart.latest, apart.apart, ?_, apart.after, fun _ _ _ absurd => by cases absurd⟩
    intro owner scan stamp opened
    obtain ⟨row, mine, _⟩ := apart.holding owner scan stamp opened
    rw [held] at mine
    cases mine
    exact absurd stamp (never scan)
  · rwa [equal]

theorem StampsApart.stamp {row : Job} {scan : Time} (apart : StampsApart slot stamped closed)
    (free : slot.Free pid) (seen : slot.visible pid = some row)
    (stale : ∀ stamp, row.requeuedAt = some stamp → stamp < scan - stalePendingAge)
    (opened : ¬ closed pid) (once : ∀ earlier, stamped pid earlier → earlier = scan) :
    StampsApart (slot.write pid { row with requeuedAt := some scan })
      (fun owner time => stamped owner time ∨ owner = pid ∧ time = scan) closed := by
  have old : ∀ {owner time}, stamped owner time ∨ owner = pid ∧ time = scan → closed owner →
      stamped owner time := by
    rintro owner time (stamp | ⟨rfl, _⟩) settled
    · exact stamp
    · exact absurd settled opened
  have mine : ∀ {owner time}, stamped owner time ∨ owner = pid ∧ time = scan → ¬ closed owner →
      owner = pid ∧ time = scan := by
    rintro owner time (stamp | same) unsettled
    · obtain ⟨version, held, _⟩ := apart.holding owner time stamp unsettled
      obtain rfl := free owner version held
      exact ⟨rfl, once time stamp⟩
    · exact same
  refine ⟨?_, ?_, ?_, ?_, ?_⟩
  · exact fun owner time stamp settled => apart.latest owner time (old stamp settled) settled
  · exact fun owner other time later different first settled second done =>
      apart.apart owner other time later different (old first settled) settled (old second done) done
  · intro owner time stamp unsettled
    obtain ⟨rfl, rfl⟩ := mine stamp unsettled
    exact ⟨_, rfl, rfl⟩
  · intro owner time other earlier stamp unsettled before settled
    obtain ⟨rfl, rfl⟩ := mine stamp unsettled
    have before := old before settled
    by_cases again : ∃ time, stamped owner time
    · obtain ⟨time, again⟩ := again
      rw [← once time again]
      exact apart.after owner time other earlier again unsettled before settled
    -- the stamp found is the committed one, and it is not before `earlier`
    · obtain ⟨stored, stamp, committed, carried, order⟩ := apart.latest other earlier before settled
      have found : row.requeuedAt = some stamp := by
        by_cases holds : ∃ version, slot.holder = some (owner, version)
        · obtain ⟨version, held⟩ := holds
          rw [Slot.visible_of_held held] at seen
          cases seen
          rw [← carried]
          exact apart.unstamped owner row stored held committed
            fun time stamp => absurd ⟨time, stamp⟩ again
        · rw [Slot.visible_of_free fun version held => holds ⟨version, held⟩, committed] at seen
          cases seen
          exact carried
      have window := Nat.lt_sub_iff_add_lt.mp (stale stamp found)
      exact (Nat.add_le_add_right order _).trans window.le
  · intro owner version stored held _ settled
    cases held
    exact absurd (settled scan (.inr ⟨rfl, rfl⟩)) opened

theorem StampsApart.commit (apart : StampsApart slot stamped closed) :
    StampsApart (slot.commit pid) stamped fun owner => closed owner ∨ owner = pid := by
  by_cases stamping : ∃ scan, stamped pid scan ∧ ¬ closed pid
  · obtain ⟨scan, stamp, opened⟩ := stamping
    obtain ⟨version, held, written⟩ := apart.holding pid scan stamp opened
    have own : ∀ {time}, stamped pid time → time = scan := by
      intro time again
      obtain ⟨row, mine, time⟩ := apart.holding pid time again opened
      rw [held] at mine
      cases mine
      exact Option.some.inj (time.symm.trans written)
    have slotted : slot.commit pid = { committed := some version, holder := none } := by
      obtain ⟨row, mine, equal⟩ | ⟨unheld, _⟩ := slot.commit_cases pid
      · rw [held] at mine
        cases mine
        exact equal
      · exact absurd held (unheld version)
    have others : ∀ {owner time}, stamped owner time → ¬ (closed owner ∨ owner = pid) → False := by
      intro owner time again unsettled
      obtain ⟨row, mine, _⟩ := apart.holding owner time again fun settled => unsettled (.inl settled)
      rw [held] at mine
      cases mine
      exact unsettled (.inr rfl)
    rw [slotted]
    refine ⟨?_, ?_, ?_, ?_, ?_⟩
    · rintro owner time again (settled | rfl)
      · refine ⟨version, scan, rfl, written, ?_⟩
        exact (Nat.le_add_right _ _).trans (apart.after pid scan owner time stamp opened again settled)
      · exact ⟨version, scan, rfl, written, (own again).le⟩
    · rintro owner other time later different first (settled | rfl) second (done | rfl)
      · exact apart.apart owner other time later different first settled second done
      · exact .inl (apart.after other later owner time second opened first settled)
      · exact .inr (apart.after owner time other later first opened second done)
      · exact absurd rfl different
    · exact fun owner time again unsettled => (others again unsettled).elim
    · exact fun owner time other earlier again unsettled => (others again unsettled).elim
    · intro owner version row absurd
      cases absurd
  · have settled : ∀ {owner time}, stamped owner time → closed owner ∨ owner = pid → closed owner := by
      rintro owner time stamp (done | rfl)
      · exact done
      · by_contra opened
        exact stamping ⟨time, stamp, opened⟩
    have unsettled : ∀ {owner}, ¬ (closed owner ∨ owner = pid) → ¬ closed owner :=
      fun opened done => opened (.inl done)
    refine ⟨?_, ?_, ?_, ?_, ?_⟩
    · intro owner time stamp done
      obtain ⟨row, written, stored, carried, order⟩ := apart.latest owner time stamp (settled stamp done)
      obtain ⟨version, held, equal⟩ | ⟨_, equal⟩ := slot.commit_cases pid
      · rw [equal]
        refine ⟨version, written, rfl, ?_, order⟩
        rw [← carried]
        exact apart.unstamped pid version row held stored fun time stamp => settled stamp (.inr rfl)
      · rw [equal]
        exact ⟨row, written, stored, carried, order⟩
    · exact fun owner other time later different first done second finished =>
        apart.apart owner other time later different first (settled first done) second
          (settled second finished)
    · intro owner time stamp opened
      obtain ⟨row, held, written⟩ := apart.holding owner time stamp (unsettled opened)
      obtain ⟨version, mine, _⟩ | ⟨_, equal⟩ := slot.commit_cases pid
      · rw [held] at mine
        cases mine
        exact absurd (.inr rfl) opened
      · rw [equal]
        exact ⟨row, held, written⟩
    · exact fun owner time other earlier stamp opened before done =>
        apart.after owner time other earlier stamp (unsettled opened) before (settled before done)
    · intro owner version row held stored done
      obtain ⟨_, _, equal⟩ | ⟨_, equal⟩ := slot.commit_cases pid
      · rw [equal] at held
        cases held
      · rw [equal] at held stored
        exact apart.unstamped owner version row held stored fun time stamp =>
          settled stamp (done time stamp)

end Apart

/-- The `requeued_at` part of the condition of a scan. -/
def unstampedSince (cutoff : Time) (row : Job) : Bool := row.requeuedAt.all fun stamp => stamp < cutoff

theorem lt_of_unstampedSince {cutoff stamp : Time} {row : Job} (unstamped : unstampedSince cutoff row = true)
    (carried : row.requeuedAt = some stamp) : stamp < cutoff := by
  rw [unstampedSince, carried, Option.all_some] at unstamped
  exact of_decide_eq_true unstamped

/-- A stamp finds its row as its scan requires it: with no stamp in the window. -/
def findsStale (entry : PlatformEntry) : Bool :=
  match entry.operation with
  | .statement (.stampRequeued id scan) =>
      (entry.before.jobs.visible entry.pid id).any (unstampedSince (scan - stalePendingAge))
  | _ => true

def StampsFindStale (pool : PlatformPool) : Prop := ∀ entry ∈ pool.log, findsStale entry

instance (pool : PlatformPool) : Decidable (StampsFindStale pool) :=
  inferInstanceAs (Decidable (∀ entry ∈ pool.log, _))

section Runs

variable {settings : Settings} {pool : PlatformPool} {job : Uuid} {pid : Pid} {role : Role}
  {operation : Op} {next : Reply operation → Prog Unit}

def stampedBy (job : Uuid) (pool : PlatformPool) (pid : Pid) (scan : Time) : Prop :=
  Stamped job (historyOf pid pool.log) scan

def committedBy (pool : PlatformPool) (pid : Pid) : Prop := (historyOf pid pool.log).any commits = true

theorem requeuedAt_of_writes {world : World} {reply : Reply operation} {row new : Job}
    (writes : operation.Writes world job (some row) new reply)
    (unstamped : ∀ scan, operation ≠ .statement (.stampRequeued job scan)) :
    new.requeuedAt = row.requeuedAt := by
  cases operation with
  | statement issued =>
      cases issued with
      | updateStatus id write guard =>
          obtain ⟨_, _, _, equal, _, rfl⟩ := writes
          cases equal
          rfl
      | claimForRunning id =>
          obtain ⟨_, _, _, equal, _, rfl⟩ := writes
          cases equal
          rfl
      | promoteWaitingToPending id =>
          obtain ⟨_, _, _, equal, _, rfl⟩ := writes
          cases equal
          rfl
      | cancelBlocked ids reason stamp =>
          obtain ⟨_, _, equal, _, _, rfl⟩ := writes
          cases equal
          rfl
      | stampRequeued id stamp =>
          obtain ⟨rfl, _⟩ := writes
          exact absurd rfl (unstamped stamp)
      | renewRunningLeases ids oldest stamp =>
          obtain ⟨_, _, equal, _, rfl⟩ := writes
          cases equal
          rfl
      | insertJob draft => cases writes.1
      | _ => exact writes.elim
  | _ => exact writes.elim

theorem requeues_of_stamped {scan : Time} (reachable : Reachable settings pool)
    (found : pool.process pid = some { role, program := .call operation next })
    (stamped : stampedBy job pool pid scan) : role = .requeueStalePending := by
  obtain ⟨act, member, stamp⟩ := List.any_eq_true.mp stamped.2
  obtain ⟨entry, logged, rfl, same⟩ := mem_historyOf member
  obtain ⟨process, present, agrees⟩ := logged_started reachable entry logged
  rw [found] at present
  cases present
  have may := logged_may reachable entry logged
  obtain ⟨owner, role, operation, reply, world⟩ := entry
  subst same
  unfold stamps at stamp
  split at stamp
  · rename_i same
    cases same
    exact agrees.trans may
  · contradiction

section Record

variable {reply : Reply operation} {rest : Prog Unit} {world : World}

theorem stampedBy_record (unstamped : ∀ scan, operation ≠ .statement (.stampRequeued job scan)) :
    stampedBy job (pool.record pid role operation reply rest world) = stampedBy job pool := by
  funext owner scan
  rw [stampedBy, stampedBy, historyOf_record]
  split
  · refine propext ⟨fun stamped => ?_, Stamped.extend⟩
    obtain before | now := stamped.of_extend
    · exact before
    · exact absurd now (unstamped scan)
  · rfl

theorem committedBy_record (uncommitted : operation ≠ .commit) :
    committedBy (pool.record pid role operation reply rest world) = committedBy pool := by
  funext owner
  rw [committedBy, committedBy, historyOf_record]
  split
  · have plain : commits ⟨operation, reply⟩ = false := by
      cases operation <;> first
        | rfl
        | exact absurd rfl uncommitted
    rw [remember, List.any_cons, plain, Bool.false_or]
  · rfl

theorem committedBy_commit :
    committedBy (pool.record pid role .commit () rest world) =
      fun owner => committedBy pool owner ∨ owner = pid := by
  funext owner
  rw [committedBy, historyOf_record]
  split
  · rename_i same
    subst same
    simp [remember, commits]
  · rename_i different
    simp [committedBy, Ne.symm different]

theorem stampedBy_stamp {scan : Time} {rows : List Job}
    (scanned : BackstopScan (historyOf pid pool.log) scan rows) :
    stampedBy job (pool.record pid role (.statement (.stampRequeued job scan)) () rest world) =
      fun owner time => stampedBy job pool owner time ∨ owner = pid ∧ time = scan := by
  funext owner time
  rw [stampedBy, historyOf_record]
  split
  · rename_i same
    subst same
    refine propext ⟨fun stamped => ?_, ?_⟩
    · obtain before | now := stamped.of_extend
      · exact .inl before
      · cases now
        exact .inr ⟨rfl, rfl⟩
    · rintro (before | ⟨_, rfl⟩)
      · exact before.extend
      · exact ⟨⟨rows, scanned.extend _ _⟩, by simp [remember, stamps]⟩
  · rename_i different
    simp [stampedBy, Ne.symm different]

end Record

theorem StampsApart.operate {reply : Reply operation} {world : World} (reachable : Reachable settings pool)
    (found : pool.process pid = some { role, program := .call operation next })
    (operated : World.operate pid operation pool.world = some (reply, world))
    (unstamped : ∀ scan, operation ≠ .statement (.stampRequeued job scan)) (uncommitted : operation ≠ .commit)
    (apart : StampsApart (pool.world.jobs.slot job) (stampedBy job pool) (committedBy pool)) :
    StampsApart (world.jobs.slot job) (stampedBy job pool) (committedBy pool) := by
  obtain ⟨new, writes, free, slot⟩ | ⟨ends, _⟩ | ⟨rfl, slot⟩ | ⟨_, _, _, slot⟩ := operate_slot operated job
  · rw [slot]
    refine apart.write free fun row seen => ?_
    rw [Table.slot_visible] at seen
    rw [seen] at writes
    exact requeuedAt_of_writes writes unstamped
  · exact absurd ends uncommitted
  · rw [slot]
    refine apart.rollback fun scan stamped => ?_
    exact memory_kept (program_keeps_backstopRule settings) reachable found
      (requeues_of_stamped reachable found stamped)
  · rwa [slot]

theorem stampsApart (reachable : Reachable settings pool) (stale : StampsFindStale pool) (job : Uuid) :
    StampsApart (pool.world.jobs.slot job) (stampedBy job pool) (committedBy pool) := by
  obtain ⟨outside, reached⟩ := reachable
  revert stale
  refine reached.invariant (motive := fun pool => StampsFindStale pool →
    StampsApart (pool.world.jobs.slot job) (stampedBy job pool) (committedBy pool)) ?_ ?_ ?_ ?_
  · intro _
    refine ⟨?_, ?_, ?_, ?_, fun _ _ _ absurd => by cases absurd⟩
    · exact fun _ _ stamped => absurd stamped.2 Bool.false_ne_true
    · exact fun _ _ _ _ _ stamped => absurd stamped.2 Bool.false_ne_true
    · exact fun _ _ stamped => absurd stamped.2 Bool.false_ne_true
    · exact fun _ _ _ _ stamped => absurd stamped.2 Bool.false_ne_true
  · intro before pid role world _ ih _ accepted stale
    rw [Pool.start_world, accept_jobs accepted]
    exact ih stale
  · intro before pid role operation next reply world earlier ih found operated stale
    have reachable : Reachable settings before := ⟨outside, earlier⟩
    have apart := ih fun entry logged => stale entry (List.mem_cons_of_mem _ logged)
    by_cases stamps : ∃ scan, operation = .statement (.stampRequeued job scan)
    · obtain ⟨scan, rfl⟩ := stamps
      have requeues : role = .requeueStalePending := next_may reachable found
      obtain ⟨opened, rows, scanned⟩ :=
        memory_kept (program_keeps_backstopRule settings) reachable found requeues
      obtain ⟨row, seen, last⟩ := (Option.any_eq_true _ _).mp (stale _ List.mem_cons_self)
      rw [stampedBy_stamp scanned, committedBy_record (by simp), Pool.record_world]
      have performed : World.operate pid (.statement (.stampRequeued job scan)) before.world =
        some (reply, world) := operated
      obtain ⟨new, writes, free, slot⟩ | ⟨absurd, _⟩ | ⟨absurd, _⟩ | ⟨unwritten, _⟩ :=
        operate_slot performed job
      · rw [slot]
        obtain ⟨_, _, same, rfl⟩ := writes
        cases seen.symm.trans same
        refine apart.stamp free (by rw [Table.slot_visible, seen]) ?_ ?_ ?_
        · exact fun stamp carried => lt_of_unstampedSince last carried
        · rw [committedBy]
          exact Bool.eq_false_iff.mp opened
        · intro time stamped
          obtain ⟨_, again⟩ := stamped.1
          exact (again.unique scanned).1
      · cases absurd
      · cases absurd
      · exact (unwritten _ ⟨rfl, row, seen, rfl⟩).elim
    · have unstamped : ∀ scan, operation ≠ .statement (.stampRequeued job scan) :=
        fun scan same => stamps ⟨scan, same⟩
      rw [stampedBy_record unstamped, Pool.record_world]
      by_cases commit : operation = .commit
      · subst commit
        rw [committedBy_commit]
        cases operated
        rw [World.commit, Table.commit_slot]
        exact apart.commit
      · rw [committedBy_record commit]
        exact apart.operate reachable found operated unstamped commit
  · intro before change world _ ih changed stale
    rw [change_slot changed]
    exact ih stale

end Runs

section Republications

variable {settings : Settings} {pool : PlatformPool} {job : Uuid}

theorem republishes_eq {act : Act} (published : republishes job act = true) :
    ∃ tenant user event, act = ⟨.statement (.insertOutbox tenant user .submitted event), ()⟩ ∧
      event.jobId = job := by
  unfold republishes at published
  split at published
  · rename_i tenant user topic event reply
    obtain ⟨rfl, named⟩ := of_decide_eq_true published
    exact ⟨tenant, user, event, rfl, named⟩
  · contradiction

theorem nodup_of_scan {pid : Pid} {scan : Time} {rows : List Job} (reachable : Reachable settings pool)
    (scanned : BackstopScan (historyOf pid pool.log) scan rows) : (rows.map Job.id).Nodup := by
  obtain ⟨entry, logged, _, same⟩ := mem_historyOf (scanned.subset List.mem_cons_self)
  obtain ⟨before, earlier, _, _, _, _, operated⟩ := reachable.moment logged
  obtain ⟨owner, role, operation, reply, world⟩ := entry
  cases same
  have answered : before.world.stalePending owner (scan - stalePendingAge) = reply :=
    congrArg Prod.fst (Option.some.inj operated)
  rw [← answered, World.stalePending]
  have distinct : ((before.world.jobs.rows owner).map Job.id).Nodup := by
    refine Table.rows_nodup fun queried row seen => ?_
    rw [← Table.slot_visible] at seen
    exact (rows_keyed earlier queried).visible seen
  exact distinct.sublist (((List.take_sublist _ _).trans List.filter_sublist).map Job.id)

theorem republishes_once {newer older : List PlatformEntry} {entry earlier : PlatformEntry}
    (reachable : Reachable settings pool) (split : pool.log = newer ++ entry :: older)
    (requeues : entry.role = .requeueStalePending) (published : republishes job (actOf entry) = true)
    (logged : earlier ∈ older) (own : earlier.pid = entry.pid) :
    republishes job (actOf earlier) = false := by
  obtain ⟨before, reached, _, _, ⟨next, stood⟩, _, rfl⟩ := reachable.moment_at split
  have rule := memory_kept (program_keeps_backstopRule settings) reached stood requeues
  obtain ⟨pid, role, operation, reply, world⟩ := entry
  obtain ⟨tenant, user, event, same, named⟩ := republishes_eq published
  cases same
  obtain ⟨_, scan, rows, scanned, fresh⟩ := rule
  have unpublished := fresh (nodup_of_scan reached scanned)
  rw [named, List.any_eq_false] at unpublished
  have member : actOf earlier ∈ historyOf pid before.log := by
    have member := actOf_mem_historyOf logged
    rwa [own] at member
  exact Bool.eq_false_iff.mpr (unpublished _ member)

/-- At `index` of the log, counted from its start, the pass `pid` re-publishes
the job, and it has committed since. -/
def RepublishedAt (log : List PlatformEntry) (job : Uuid) (index : Nat) (pid : Pid) : Prop :=
  ∃ newer entry older, log = newer ++ entry :: older ∧ older.length = index ∧ entry.pid = pid ∧
    entry.role = .requeueStalePending ∧ republishes job (actOf entry) = true ∧
    ∃ done ∈ newer, done.pid = pid ∧ done.operation = .commit

theorem stamped_of_republished {index : Nat} {pid : Pid} (reachable : Reachable settings pool)
    (republished : RepublishedAt pool.log job index pid) :
    committedBy pool pid ∧ ∃ scan, stampedBy job pool pid scan := by
  obtain ⟨newer, entry, older, split, _, rfl, requeues, published, done, logged, own, commit⟩ :=
    republished
  obtain ⟨latest, between, rfl⟩ := List.append_of_mem logged
  rw [List.append_assoc, List.cons_append] at split
  have present : done ∈ pool.log := by
    rw [split]
    exact List.mem_append_right _ List.mem_cons_self
  have role : done.role = .requeueStalePending := by
    obtain ⟨process, found, agrees⟩ := logged_started reachable done present
    obtain ⟨other, running, same⟩ := logged_started reachable entry (by rw [split]; simp)
    rw [own, running] at found
    cases found
    exact agrees.symm.trans (same.trans requeues)
  obtain ⟨before, reached, _, _, ⟨next, stood⟩, _, below⟩ := reachable.moment_at split
  have rule := memory_kept (program_keeps_backstopRule settings) reached stood role
  have grown : historyOf done.pid before.log <:+ historyOf done.pid pool.log := by
    have suffix := historyOf_suffix done.pid (latest ++ [done]) before.log
    rwa [List.append_assoc, List.singleton_append, below, ← split, ← below] at suffix
  have committed := actOf_mem_historyOf present
  obtain ⟨pid, doneRole, operation, reply, world⟩ := done
  cases commit
  cases own
  have earlier : actOf entry ∈ historyOf entry.pid before.log := by
    rw [below]
    exact actOf_mem_historyOf (by simp)
  obtain ⟨scan, rows, scanned, stamped⟩ := rule job (List.any_eq_true.mpr ⟨_, earlier, published⟩)
  refine ⟨?_, scan, ⟨rows, scanned.trans grown⟩, ?_⟩
  · exact List.any_eq_true.mpr ⟨_, committed, rfl⟩
  · obtain ⟨act, member, stamp⟩ := List.any_eq_true.mp stamped
    exact List.any_eq_true.mpr ⟨act, grown.subset member, stamp⟩

def scanTime (acts : List Act) : Option Time :=
  match acts.getLast? with
  | some ⟨.reading .now, time⟩ => some time
  | _ => none

theorem BackstopScan.scanTime {acts : List Act} {scan : Time} {rows : List Job}
    (scanned : BackstopScan acts scan rows) : scanTime acts = some scan := by
  obtain ⟨later, rfl⟩ := scanned
  simp [Properties.scanTime]

/-- While every stamp finds its row stale, any two committed re-publications of
a job are a window of scan time apart. -/
theorem backstop_republishes_once_per_window {first second : Nat} {pid other : Pid}
    (reachable : Reachable settings pool) (stale : StampsFindStale pool) (different : first ≠ second)
    (one : RepublishedAt pool.log job first pid) (two : RepublishedAt pool.log job second other) :
    ∃ scan later, scanTime (historyOf pid pool.log) = some scan ∧
      scanTime (historyOf other pool.log) = some later ∧
      (scan + stalePendingAge ≤ later ∨ later + stalePendingAge ≤ scan) := by
  obtain ⟨settled, scan, stamp⟩ := stamped_of_republished reachable one
  obtain ⟨done, later, again⟩ := stamped_of_republished reachable two
  have ⟨⟨rows, scanned⟩, _⟩ := stamp
  have ⟨⟨others, rescanned⟩, _⟩ := again
  refine ⟨scan, later, scanned.scanTime, rescanned.scanTime, ?_⟩
  by_cases same : pid = other
  · subst same
    obtain ⟨newer, entry, older, split, rfl, own, requeues, published, _⟩ := one
    obtain ⟨latest, next, middle, cut, rfl, mine, requeued, republished, _⟩ := two
    obtain before | after := Nat.lt_or_gt_of_ne different
    · have inside := List.suffix_of_suffix_length_le ⟨newer, split.symm⟩
        (⟨latest ++ [next], by rw [cut]; simp⟩ : middle <:+ pool.log) before
      have once := republishes_once reachable cut requeued republished
        (inside.subset List.mem_cons_self) (own.trans mine.symm)
      rw [published] at once
      cases once
    · have inside := List.suffix_of_suffix_length_le ⟨latest, cut.symm⟩
        (⟨newer ++ [entry], by rw [split]; simp⟩ : older <:+ pool.log) after
      have once := republishes_once reachable split requeues published
        (inside.subset List.mem_cons_self) (mine.trans own.symm)
      rw [republished] at once
      cases once
  · exact (stampsApart reachable stale job).apart pid other scan later same stamp settled again done

end Republications

def requeues : Role → Bool
  | .requeueStalePending => true
  | _ => false

theorem requeues_iff {role : Role} (passes : requeues role = true) : role = .requeueStalePending := by
  cases role <;> first
    | rfl
    | cases passes

/-- `RepublishedAt` of a log that is written down. -/
def republishedAt (log : List PlatformEntry) (job : Uuid) (index : Nat) (pid : Pid) : Bool :=
  match log.drop (log.length - (index + 1)) with
  | [] => false
  | entry :: older => older.length = index && entry.pid = pid && requeues entry.role &&
      republishes job (actOf entry) &&
      (log.take (log.length - (index + 1))).any fun done => done.pid = pid && commits (actOf done)

theorem republishedAt_of_check {log : List PlatformEntry} {job : Uuid} {index : Nat} {pid : Pid}
    (checked : republishedAt log job index pid = true) : RepublishedAt log job index pid := by
  unfold republishedAt at checked
  split at checked
  · contradiction
  · rename_i entry older rest
    simp only [Bool.and_eq_true, decide_eq_true_eq] at checked
    obtain ⟨⟨⟨⟨length, own⟩, passes⟩, published⟩, done⟩ := checked
    obtain ⟨done, member, found⟩ := List.any_eq_true.mp done
    obtain ⟨same, commit⟩ := Bool.and_eq_true_iff.mp found
    refine ⟨_, entry, older, ?_, length, own, requeues_iff passes, published, done, member,
      of_decide_eq_true same, ?_⟩
    · rw [← rest, List.take_append_drop]
    · obtain ⟨_, _, operation, _, _⟩ := done
      cases operation <;> first
        | rfl
        | cases commit

def staleAtThousand : List (Label Role Change) :=
  [.spawn 1 (.createJob { userId := 7, tenantId := 8, jobType := "csv_upload" })] ++ turns 1 4 ++
  tick (seconds 1000) .timedOut

def passedTwice : List (Label Role Change) :=
  staleAtThousand ++ [.spawn 2 .requeueStalePending] ++ turns 2 6 ++
  tick (seconds 1400) .timedOut ++ [.spawn 3 .requeueStalePending] ++ turns 3 6

theorem backstop_republishes_once_per_window_passedTwice : ∃ pool first second, first ≠ second ∧
    Reachable .defaults pool ∧ StampsFindStale pool ∧ RepublishedAt pool.log 1 first 2 ∧
    RepublishedAt pool.log 1 second 3 ∧
    ∃ scan later, scanTime (historyOf 2 pool.log) = some scan ∧
      scanTime (historyOf 3 pool.log) = some later ∧
      (scan + stalePendingAge ≤ later ∨ later + stalePendingAge ≤ scan) := by
  obtain ⟨pool, reachable, checked⟩ : ∃ pool, Reachable .defaults pool ∧
      (decide (StampsFindStale pool) && republishedAt pool.log 1 7 2 &&
        republishedAt pool.log 1 13 3) = true :=
    exists_reachable passedTwice (by decide +kernel)
  simp only [Bool.and_eq_true, decide_eq_true_eq] at checked
  obtain ⟨⟨stale, one⟩, two⟩ := checked
  have one := republishedAt_of_check one
  have two := republishedAt_of_check two
  exact ⟨pool, 7, 13, by decide, reachable, stale, one, two,
    backstop_republishes_once_per_window reachable stale (by decide) one two⟩

/-- Two passes that scan at 1000 s, the second before the first commits. -/
def scansOverlap : List (Label Role Change) :=
  staleAtThousand ++ [.spawn 2 .requeueStalePending, .spawn 3 .requeueStalePending] ++ turns 2 2 ++
  turns 3 2 ++ turns 2 4 ++ tick (seconds 1001) .timedOut ++ turns 3 4

theorem backstop_republishes_twice_in_a_window :
    ¬ ∀ (settings : Settings) (pool : PlatformPool) (job : Uuid) (first second : Nat) (pid other : Pid),
      Reachable settings pool → first ≠ second → RepublishedAt pool.log job first pid →
      RepublishedAt pool.log job second other →
      ∃ scan later, scanTime (historyOf pid pool.log) = some scan ∧
        scanTime (historyOf other pool.log) = some later ∧
        (scan + stalePendingAge ≤ later ∨ later + stalePendingAge ≤ scan) := by
  intro apart
  obtain ⟨pool, reachable, checked⟩ : ∃ pool, Reachable .defaults pool ∧
      (republishedAt pool.log 1 9 2 && republishedAt pool.log 1 13 3 &&
        decide (scanTime (historyOf 2 pool.log) = some (seconds 1000)) &&
        decide (scanTime (historyOf 3 pool.log) = some (seconds 1000))) = true :=
    exists_reachable scansOverlap (by decide +kernel)
  simp only [Bool.and_eq_true, decide_eq_true_eq] at checked
  obtain ⟨⟨⟨one, two⟩, scanned⟩, rescanned⟩ := checked
  obtain ⟨scan, later, first, second, window⟩ := apart .defaults pool 1 9 13 2 3 reachable (by decide)
    (republishedAt_of_check one) (republishedAt_of_check two)
  cases scanned.symm.trans first
  cases rescanned.symm.trans second
  revert window
  decide +kernel

end IncidentPlatform.Properties

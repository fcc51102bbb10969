import IncidentPlatform.Platform.Graph
import IncidentPlatform.Platform.SagaJobs

namespace IncidentPlatform.Platform

open Concurrency Models Services Repositories Storage Workers

/-! # What creating a job leaves

The idempotency key of a row is fixed when it is inserted and no two rows have
the same one; what an open transaction has appended to a journal is what its
trace says.
-/

theorem insertJob_frame {world after : World} {pid : Pid} {draft : JobDraft} {inserted : Option Job}
    (executed : world.execute pid (.insertJob draft) = some (inserted, after)) :
    ∃ jobs, after = { world with jobs } := by
  simp only [World.execute] at executed
  split at executed
  · obtain ⟨jobs, _, equal⟩ := Option.map_eq_some_iff.mp executed
    cases equal
    exact ⟨jobs, rfl⟩
  · split at executed
    · cases executed
      exact ⟨_, rfl⟩
    · contradiction

def auditsOf : Act → List AuditEntry
  | ⟨.statement (.insertAudit entry), _⟩ => [entry]
  | _ => []

def edgesOf : Act → List JobDependency
  | ⟨.statement (.insertDependencies id parents), true⟩ => parents.map fun parent => ⟨id, parent⟩
  | _ => []

section Journals

variable {world after : World} {pid : Pid} {operation : Op} {reply : Reply operation}

abbrev EdgeTurn (world after : World) (pid : Pid) (operation : Op) (reply : Reply operation) : Prop :=
  world.dependencies.Turn pid (edgesOf ⟨operation, reply⟩) (operation = .commit) (operation = .rollback)
    after.dependencies

abbrev AuditTurn (world after : World) (pid : Pid) (operation : Op) (reply : Reply operation) : Prop :=
  world.audit.Turn pid (auditsOf ⟨operation, reply⟩) (operation = .commit) (operation = .rollback)
    after.audit

theorem journals_of_same (opened : operation.ends = false) (edges : edgesOf ⟨operation, reply⟩ = [])
    (audits : auditsOf ⟨operation, reply⟩ = []) (sameEdges : after.dependencies = world.dependencies)
    (sameAudit : after.audit = world.audit) :
    EdgeTurn world after pid operation reply ∧ AuditTurn world after pid operation reply := by
  obtain ⟨uncommitted, unrolled⟩ := continues_of_open opened
  exact ⟨.of_same uncommitted unrolled edges sameEdges, .of_same uncommitted unrolled audits sameAudit⟩

theorem execute_journals {issued : Statement} {reply : issued.Reply}
    (executed : world.execute pid issued = some (reply, after)) :
    EdgeTurn world after pid (.statement issued) reply ∧
      AuditTurn world after pid (.statement issued) reply := by
  cases issued with
  | updateStatus id write guard =>
      obtain ⟨_, _, rfl⟩ := withJobs_eq executed
      exact journals_of_same rfl rfl rfl rfl rfl
  | claimForRunning id =>
      obtain ⟨_, _, rfl⟩ := withJobs_eq executed
      exact journals_of_same rfl rfl rfl rfl rfl
  | promoteWaitingToPending id =>
      obtain ⟨_, _, rfl⟩ := withJobs_eq executed
      exact journals_of_same rfl rfl rfl rfl rfl
  | cancelBlocked ids reason stamp =>
      obtain ⟨_, _, rfl⟩ := withJobs_eq executed
      exact journals_of_same rfl rfl rfl rfl rfl
  | stampRequeued id stamp =>
      obtain ⟨⟨_, _⟩, updating, equal⟩ := Option.map_eq_some_iff.mp executed
      cases equal
      obtain ⟨_, _, rfl⟩ := withJobs_eq updating
      exact journals_of_same rfl rfl rfl rfl rfl
  | renewRunningLeases ids oldest stamp =>
      obtain ⟨_, _, rfl⟩ := withJobs_eq executed
      exact journals_of_same rfl rfl rfl rfl rfl
  | insertJob draft =>
      rcases insertJob_frame executed with ⟨jobs, rfl⟩
      exact journals_of_same rfl rfl rfl rfl rfl
  | insertDependencies id parents =>
      simp only [World.execute] at executed
      split at executed
      · cases executed
        exact ⟨.append (by simp) (by simp) rfl, .of_same (by simp) (by simp) rfl rfl⟩
      · cases executed
        exact journals_of_same rfl rfl rfl rfl rfl
  | insertAudit entry =>
      cases executed
      exact ⟨.of_same (by simp) (by simp) rfl rfl, .append (by simp) (by simp) rfl⟩
  | insertOutbox tenant user topic event =>
      obtain ⟨_, _, equal⟩ := Option.map_eq_some_iff.mp executed
      cases equal
      exact journals_of_same rfl rfl rfl rfl rfl
  | insertSaga tenant name =>
      obtain ⟨_, _, equal⟩ := Option.map_eq_some_iff.mp executed
      cases equal
      exact journals_of_same rfl rfl rfl rfl rfl
  | updateSaga id status stamp =>
      obtain ⟨_, _, equal⟩ := Option.map_eq_some_iff.mp executed
      cases equal
      exact journals_of_same rfl rfl rfl rfl rfl
  | markPublished ids stamp =>
      obtain ⟨_, _, _, rfl⟩ := withOutbox_eq executed
      exact journals_of_same rfl rfl rfl rfl rfl
  | incrementAttempts ids =>
      obtain ⟨_, _, _, rfl⟩ := withOutbox_eq executed
      exact journals_of_same rfl rfl rfl rfl rfl
  | markFailed ids stamp error =>
      obtain ⟨_, _, _, rfl⟩ := withOutbox_eq executed
      exact journals_of_same rfl rfl rfl rfl rfl

theorem operate_journals (operated : World.operate pid operation world = some (reply, after)) :
    EdgeTurn world after pid operation reply ∧ AuditTurn world after pid operation reply := by
  cases operation with
  | query query =>
      cases operated
      exact journals_of_same rfl rfl rfl rfl rfl
  | statement issued => exact execute_journals operated
  | commit =>
      cases operated
      exact ⟨.commit rfl rfl, .commit rfl rfl⟩
  | rollback =>
      cases operated
      exact ⟨.rollback rfl rfl, .rollback rfl rfl⟩
  | command command =>
      have same : after.dependencies = world.dependencies ∧ after.audit = world.audit := by
        cases command <;> cases operated <;> exact ⟨rfl, rfl⟩
      exact journals_of_same rfl rfl rfl same.1 same.2
  | reading reading =>
      cases operated
      exact journals_of_same rfl rfl rfl rfl rfl
  | publishRaw row =>
      have same : after.dependencies = world.dependencies ∧ after.audit = world.audit := by
        simp only [World.operate] at operated
        split at operated <;> cases operated <;> exact ⟨rfl, rfl⟩
      exact journals_of_same rfl rfl rfl same.1 same.2

end Journals

theorem pending_eq {Row : Type} (journal : World → Journal Row) {rowsOf : Act → List Row}
    (turns : ∀ {world after : World} {pid : Pid} {operation : Op} {reply : Reply operation},
      World.operate pid operation world = some (reply, after) →
      (journal world).Turn pid (rowsOf ⟨operation, reply⟩) (operation = .commit) (operation = .rollback)
        (journal after))
    (empty : ∀ outside, journal (.fresh outside) = .empty)
    (accepts : ∀ {world after : World} {role : Role}, world.accept role = some after →
      journal after = journal world)
    (changes : ∀ {world after : World} {change : Change}, world.change change = some after →
      journal after = journal world)
    {settings : Settings} {pool : PlatformPool} (reachable : Reachable settings pool) (pid : Pid) :
    (journal pool.world).pending pid = (traceOf pid pool.log).reverse.flatMap rowsOf := by
  obtain ⟨outside, reached⟩ := reachable
  refine reached.invariant (motive := fun pool => (journal pool.world).pending pid =
    (traceOf pid pool.log).reverse.flatMap rowsOf) ?_ ?_ ?_ ?_
  · rw [Pool.initial, empty]
    rfl
  · intro before owner role world _ same _ accepted
    rw [Pool.start_world, Pool.start_log, accepts accepted, same]
  · intro before owner role operation next reply world _ same _ operated
    rw [Pool.record_world, traceOf_record]
    by_cases own : owner = pid
    · subst own
      rw [if_pos rfl]
      cases turns operated with
      | append uncommitted unrolled equal =>
          rw [extendTrace_of_open (ends_eq_false uncommitted unrolled), equal, List.reverse_cons,
            List.flatMap_append, ← same]
          simp [Journal.append]
      | commit ended equal =>
          subst ended
          rw [equal]
          simp [Journal.commit, extendTrace, Op.ends]
      | rollback ended equal =>
          subst ended
          rw [equal]
          simp [Journal.rollback, extendTrace, Op.ends]
    · rw [if_neg own, (turns operated).pending_other (Ne.symm own), same]
  · intro before change world _ same changed
    rw [changes changed, same]

theorem accept_audit {world after : World} {role : Role} (accepted : world.accept role = some after) :
    after.audit = world.audit := by
  obtain ⟨_, rfl⟩ := accept_eq accepted
  rfl

theorem change_audit {world after : World} {change : Change}
    (changed : world.change change = some after) : after.audit = world.audit := by
  obtain ⟨_, _, _, _, _, rfl⟩ := change_cases changed
  rfl

theorem pending_edges {settings : Settings} {pool : PlatformPool} (reachable : Reachable settings pool)
    (pid : Pid) :
    pool.world.dependencies.pending pid = (traceOf pid pool.log).reverse.flatMap edgesOf :=
  pending_eq World.dependencies (fun operated => (operate_journals operated).1)
    (fun _ => rfl) accept_edges change_edges reachable pid

theorem pending_audits {settings : Settings} {pool : PlatformPool} (reachable : Reachable settings pool)
    (pid : Pid) : pool.world.audit.pending pid = (traceOf pid pool.log).reverse.flatMap auditsOf :=
  pending_eq World.audit (fun operated => (operate_journals operated).2)
    (fun _ => rfl) accept_audit change_audit reachable pid

/-- What the unique index is on; a row without a key is not in it. -/
def keyOf (job : Job) : Uuid × Option String := (job.tenantId, job.idempotencyKey)

theorem Op.Writes.sameKey {world : World} {job : Uuid} {operation : Op} {reply : Reply operation}
    {row new : Job} (writes : operation.Writes world job (some row) new reply) :
    keyOf new = keyOf row := by
  cases operation with
  | statement issued =>
      cases issued with
      | updateStatus id write guard =>
          obtain ⟨_, _, _, equal, _, rfl⟩ := writes
          cases equal
          rfl
      | claimForRunning id =>
          obtain ⟨_, _, _, equal, _, rfl⟩ := writes
          cases equal
          rfl
      | promoteWaitingToPending id =>
          obtain ⟨_, _, _, equal, _, rfl⟩ := writes
          cases equal
          rfl
      | cancelBlocked ids reason stamp =>
          obtain ⟨_, _, equal, _, _, rfl⟩ := writes
          cases equal
          rfl
      | stampRequeued id stamp =>
          obtain ⟨_, _, equal, rfl⟩ := writes
          cases equal
          rfl
      | renewRunningLeases ids oldest stamp =>
          obtain ⟨_, _, equal, _, rfl⟩ := writes
          cases equal
          rfl
      | insertJob draft => cases writes.1
      | _ => exact writes.elim
  | _ => exact writes.elim

/-- A version of the row, committed or of an open transaction. -/
def Version (world : World) (id : Uuid) (row : Job) : Prop :=
  (world.jobs.slot id).committed = some row ∨ ∃ owner, (world.jobs.slot id).holder = some (owner, row)

theorem version_of_visible {world : World} {id : Uuid} {pid : Pid} {row : Job}
    (seen : (world.jobs.slot id).visible pid = some row) : Version world id row := by
  rcases Slot.visible_cases seen with held | stored
  · exact .inr ⟨pid, held⟩
  · exact .inl stored

structure KeysKept (world : World) : Prop where
  versions : ∀ id first second, Version world id first → Version world id second →
    keyOf first = keyOf second
  unique : ∀ id other first second key, Version world id first → Version world other second →
    first.idempotencyKey = some key → keyOf first = keyOf second → id = other

section Keys

variable {world after : World} {pid : Pid} {operation : Op} {reply : Reply operation} {id : Uuid}
  {row old : Job}

theorem version_source (operated : World.operate pid operation world = some (reply, after))
    (version : Version after id row) : (∃ old, Version world id old ∧ keyOf row = keyOf old) ∨
      ∃ draft, operation = .statement (.insertJob draft) ∧ HEq reply (some row) ∧ row.id = id := by
  have turn := operate_jobTurn operated id
  have kept : Version world id row → (∃ old, Version world id old ∧ keyOf row = keyOf old) ∨
      ∃ draft, operation = .statement (.insertJob draft) ∧ HEq reply (some row) ∧ row.id = id :=
    fun earlier => .inl ⟨row, earlier, rfl⟩
  rcases version with stored | ⟨owner, held⟩
  · rcases turn.committed_cases with same | ⟨_, version, held, stored'⟩
    · exact kept (.inl (same ▸ stored))
    · rw [stored] at stored'
      cases stored'
      exact kept (.inr ⟨pid, held⟩)
  · rcases turn.holder_cases held with ⟨_, writes, _⟩ | ⟨earlier, _⟩
    · cases seen : world.jobs.visible pid id with
      | some old =>
          rw [seen] at writes
          rw [← Table.slot_visible] at seen
          exact .inl ⟨old, version_of_visible seen, writes.sameKey⟩
      | none =>
          rw [seen] at writes
          obtain ⟨draft, rfl⟩ := inserts_of_absent writes
          obtain ⟨_, rfl, keyed, _⟩ := writes
          exact .inr ⟨draft, rfl, .rfl, keyed⟩
    · exact kept (.inr ⟨owner, earlier⟩)

theorem insertJob_free {draft : JobDraft} {job : Job}
    (operated : World.operate pid (.statement (.insertJob draft)) world = some (some job, after)) :
    world.idempotencyConflicts draft = [] := by
  have executed : world.execute pid (.insertJob draft) = some (some job, after) := operated
  simp only [World.execute] at executed
  split at executed
  · rename_i free
    exact List.isEmpty_iff.mp free
  · split at executed
    · cases executed
    · contradiction

theorem KeysKept.conflict (kept : KeysKept world) {draft : JobDraft} {key : String}
    (version : Version world id old) (keyed : draft.idempotencyKey = some key)
    (same : keyOf old = (draft.tenantId, some key)) : id ∈ world.idempotencyConflicts draft := by
  have listed : id ∈ world.jobs.keys := by
    by_contra absent
    obtain ⟨missing, unlocked⟩ := world.jobs.listed id absent
    rcases version with stored | ⟨owner, held⟩
    · rw [Table.slot_committed, missing] at stored
      cases stored
    · have locked := Table.own_isSome_iff.mp ⟨old, Table.slot_holder_iff.mp held⟩
      rw [unlocked] at locked
      cases locked
  obtain ⟨newest, found, current⟩ : ∃ newest, world.jobs.newest id = some newest ∧
      Version world id newest := by
    unfold Table.newest
    cases locked : world.jobs.lock id with
    | none =>
        rcases version with stored | ⟨owner, held⟩
        · exact ⟨old, stored, .inl stored⟩
        · have taken := Table.own_isSome_iff.mp ⟨old, Table.slot_holder_iff.mp held⟩
          rw [locked] at taken
          cases taken
    | some owner =>
        obtain ⟨row, found⟩ := Table.own_isSome_iff.mpr locked
        exact ⟨row, found, .inr ⟨owner, Table.slot_holder_iff.mpr found⟩⟩
  have agrees := (kept.versions id newest old current version).trans same
  rw [World.idempotencyConflicts, keyed]
  refine List.mem_filter.mpr ⟨listed, ?_⟩
  rw [found]
  simpa [keyOf, and_comm] using agrees

theorem KeysKept.operate (kept : KeysKept world)
    (operated : World.operate pid operation world = some (reply, after)) : KeysKept after := by
  have insertion : ∀ {draft : JobDraft} {job : Job},
      World.operate pid (.statement (.insertJob draft)) world = some (some job, after) →
      (∀ old, ¬ Version world job.id old) ∧ keyOf job = (draft.tenantId, draft.idempotencyKey) := by
    intro draft job operated
    obtain ⟨equal, empty, _⟩ := insertJob_slot operated
    refine ⟨?_, by rw [equal]; rfl⟩
    rintro old (stored | ⟨owner, held⟩)
    · rw [empty] at stored
      cases stored
    · rw [empty] at held
      cases held
  constructor
  · intro id first second left right
    rcases version_source operated left with ⟨old, earlier, same⟩ | ⟨draft, rfl, equal, rfl⟩
    · rcases version_source operated right with ⟨other, before, equal⟩ | ⟨draft, rfl, equal, rfl⟩
      · rw [same, equal]
        exact kept.versions id old other earlier before
      · cases equal
        exact absurd earlier ((insertion operated).1 old)
    · cases equal
      rcases version_source operated right with ⟨other, before, _⟩ | ⟨_, _, equal, _⟩
      · exact absurd before ((insertion operated).1 other)
      · cases equal
        rfl
  · intro id other first second key left right keyed agree
    rcases version_source operated left with ⟨old, earlier, same⟩ | ⟨draft, rfl, equal, rfl⟩
    · rcases version_source operated right with ⟨old', before, same'⟩ | ⟨draft, rfl, equal, rfl⟩
      · refine kept.unique id other old old' key earlier before ?_ ?_
        · rw [← keyed]
          exact congrArg Prod.snd same.symm
        · rw [← same, ← same', agree]
      · cases equal
        have drafted := (insertion operated).2
        have carried : draft.idempotencyKey = some key :=
          (congrArg Prod.snd (agree.trans drafted)).symm.trans keyed
        have among := kept.conflict earlier carried (by rw [← same, agree, drafted, carried])
        rw [insertJob_free operated] at among
        cases among
    · cases equal
      rcases version_source operated right with ⟨old', before, same'⟩ | ⟨_, _, equal, rfl⟩
      · have drafted := (insertion operated).2
        have carried : draft.idempotencyKey = some key := (congrArg Prod.snd drafted).symm.trans keyed
        have among := kept.conflict before carried (by rw [← same', ← agree, drafted, carried])
        rw [insertJob_free operated] at among
        cases among
      · cases equal
        rfl

end Keys

theorem KeysKept.of_same {world after : World} (kept : KeysKept world)
    (slots : ∀ id, after.jobs.slot id = world.jobs.slot id) : KeysKept after := by
  have version : ∀ {id row}, Version after id row → Version world id row := by
    intro id row present
    rw [Version, slots] at present
    exact present
  exact ⟨fun id first second left right => kept.versions id first second (version left) (version right),
    fun id other first second key left right =>
      kept.unique id other first second key (version left) (version right)⟩

theorem keys_kept {settings : Settings} {pool : PlatformPool} (reachable : Reachable settings pool) :
    KeysKept pool.world := by
  obtain ⟨outside, reached⟩ := reachable
  refine reached.invariant (motive := fun pool => KeysKept pool.world) ?_ ?_ ?_ ?_
  · have none : ∀ id row, ¬ Version (World.fresh outside) id row := by
      rintro id row (stored | ⟨_, held⟩)
      · cases stored
      · cases held
    exact ⟨fun id first _ present => absurd present (none id first),
      fun id _ first _ _ present => absurd present (none id first)⟩
  · intro before pid role world _ kept _ accepted
    exact kept.of_same fun id => by rw [Pool.start_world, accept_jobs accepted]
  · intro before pid role operation next reply world _ kept _ operated
    exact kept.operate operated
  · intro before change world _ kept changed
    exact kept.of_same (change_slot changed)

section Kept

variable {world after : World} {pid : Pid} {operation : Op} {reply : Reply operation} {id : Uuid}
  {row now : Job}

theorem KeysKept.same_key (kept : KeysKept world)
    (operated : World.operate pid operation world = some (reply, after)) (version : Version world id row)
    (later : Version after id now) : keyOf now = keyOf row := by
  rcases version_source operated later with ⟨old, earlier, same⟩ | ⟨draft, rfl, equal, rfl⟩
  · exact same.trans (kept.versions id old row earlier version)
  · cases equal
    obtain ⟨_, empty, _⟩ := insertJob_slot operated
    rcases version with stored | ⟨owner, held⟩
    · rw [empty] at stored
      cases stored
    · rw [empty] at held
      cases held

theorem stored_key_kept (kept : KeysKept world)
    (operated : World.operate pid operation world = some (reply, after))
    (stored : (world.jobs.slot id).committed = some row) :
    ∃ now, (after.jobs.slot id).committed = some now ∧ keyOf now = keyOf row := by
  obtain ⟨now, later⟩ := committed_kept operated stored
  exact ⟨now, later, kept.same_key operated (.inl stored) (.inl later)⟩

theorem visible_key_kept (kept : KeysKept world) {viewer : Pid}
    (operated : World.operate pid operation world = some (reply, after))
    (keeps : operation = .rollback → viewer ≠ pid)
    (seen : (world.jobs.slot id).visible viewer = some row) :
    ∃ now, (after.jobs.slot id).visible viewer = some now ∧ keyOf now = keyOf row := by
  obtain ⟨now, later⟩ := visible_kept operated keeps seen
  exact ⟨now, later, kept.same_key operated (version_of_visible seen) (version_of_visible later)⟩

end Kept

theorem stored_key_later {settings : Settings} {start pool : PlatformPool} {id : Uuid} {row : Job}
    (reachable : Reachable settings start) (reached : (platform settings).Reaches start pool)
    (stored : (start.world.jobs.slot id).committed = some row) :
    ∃ now, (pool.world.jobs.slot id).committed = some now ∧ keyOf now = keyOf row := by
  refine reached.invariant (motive := fun pool =>
    ∃ now, (pool.world.jobs.slot id).committed = some now ∧ keyOf now = keyOf row) ⟨row, stored, rfl⟩ ?_ ?_ ?_
  · intro before pid role world _ present _ accepted
    rw [Pool.start_world, accept_jobs accepted]
    exact present
  · rintro before pid role operation next reply world earlier ⟨now, present, same⟩ _ operated
    obtain ⟨later, committed, equal⟩ :=
      stored_key_kept (keys_kept (reachable.trans earlier)) operated present
    exact ⟨later, committed, equal.trans same⟩
  · intro before change world _ present changed
    rw [change_slot changed]
    exact present

/-- The job that an act shows to its transaction: found under a key, or inserted. -/
def shownBy : Act → Option Job
  | ⟨.query (.jobByIdempotencyKey _ _), found⟩ => found
  | ⟨.statement (.insertJob _), inserted⟩ => inserted
  | _ => none

theorem shown_visible {world after : World} {pid : Pid} {operation : Op} {reply : Reply operation}
    {job : Job} (keyed : ∀ id, (world.jobs.slot id).All fun row => row.id = id)
    (operated : World.operate pid operation world = some (reply, after))
    (shows : shownBy ⟨operation, reply⟩ = some job) :
    (after.jobs.slot job.id).visible pid = some job := by
  cases operation with
  | query query =>
      cases query with
      | jobByIdempotencyKey key tenant =>
          cases operated
          obtain ⟨id, seen⟩ := Table.mem_rows_iff.mp (List.mem_of_find?_eq_some shows)
          rw [← Table.slot_visible] at seen
          rw [(keyed id).visible seen]
          exact seen
      | _ => cases shows
  | statement issued =>
      cases issued with
      | insertJob draft =>
          cases (shows : reply = some job)
          exact Slot.visible_of_held (insertJob_slot operated).2.2
      | _ => cases shows
  | _ => cases shows

theorem shown_kept {settings : Settings} {pool : PlatformPool} (reachable : Reachable settings pool)
    {pid : Pid} {act : Act} {job : Job} (member : act ∈ traceOf pid pool.log) (shows : shownBy act = some job) :
    ∃ row, (pool.world.jobs.slot job.id).visible pid = some row ∧ keyOf row = keyOf job := by
  obtain ⟨outside, reached⟩ := reachable
  revert act
  refine reached.invariant (motive := fun pool => ∀ {act}, act ∈ traceOf pid pool.log →
    shownBy act = some job →
      ∃ row, (pool.world.jobs.slot job.id).visible pid = some row ∧ keyOf row = keyOf job) ?_ ?_ ?_ ?_
  · intro act member
    cases member
  · intro before owner role world _ ih _ accepted act member shows
    rw [Pool.start_world, accept_jobs accepted]
    exact ih member shows
  · intro before owner role operation next reply world earlier ih _ operated act member shows
    have kept := keys_kept ⟨outside, earlier⟩
    rw [traceOf_record] at member
    rw [Pool.record_world]
    by_cases own : owner = pid
    · subst own
      rw [if_pos rfl] at member
      obtain ⟨opened, rfl | older⟩ := mem_extendTrace member
      · exact ⟨job, shown_visible (rows_keyed ⟨outside, earlier⟩) operated shows, rfl⟩
      · obtain ⟨row, seen, same⟩ := ih older shows
        have keeps : operation = .rollback → owner ≠ owner := fun ends =>
          absurd ends (continues_of_open opened).2
        obtain ⟨now, later, equal⟩ := visible_key_kept kept operated keeps seen
        exact ⟨now, later, equal.trans same⟩
    · rw [if_neg own] at member
      obtain ⟨row, seen, same⟩ := ih member shows
      obtain ⟨now, later, equal⟩ := visible_key_kept kept operated (fun _ => Ne.symm own) seen
      exact ⟨now, later, equal.trans same⟩
  · intro before change world _ ih changed act member shows
    rw [change_slot changed]
    exact ih member shows

def auditsCreation (id : Uuid) (entry : AuditEntry) : Bool :=
  entry.action = "job.created" && entry.jobId = some id

/-- A creation is audited in the transaction that inserted the job. -/
def documenting (trace : List Act) : Op → Prop
  | .statement (.insertAudit entry) => entry.action = "job.created" →
      ∃ job ∈ insertions trace, entry.jobId = some job.id
  | _ => True

/-- The operation adds no audit row of a creation. -/
def Op.Undocumented : Op → Prop
  | .statement (.insertAudit entry) => entry.action ≠ "job.created"
  | _ => True

theorem follows_of_undocumented {α : Type} {program : Prog α} {trace : List Act}
    (uses : program.Uses Op.Undocumented) :
    program.Follows (tracing documenting) trace fun _ _ => True := by
  refine (follows_of_uses (motive := fun _ => True) uses trivial ?_).mono fun _ _ _ => trivial
  intro trace operation _ undocumented
  refine ⟨?_, fun _ => trivial⟩
  unfold documenting
  split
  · exact fun created => absurd created undocumented
  · exact trivial

theorem undocumented_of_looks (operation : Op) (looks : operation.Looks) : operation.Undocumented := by
  unfold Op.Looks at looks
  split at looks
  all_goals first
    | exact trivial
    | exact looks.elim

theorem undocumented_of_may {role : Role} (other : ¬ role.creates) (operation : Op)
    (may : role.may operation) : operation.Undocumented := by
  unfold Op.Undocumented
  split
  · exact fun created => other (may created)
  · exact trivial

theorem finishCreate_documents {request : CreateJobRequest} {status : JobStatus} {job : Job}
    {trace : List Act} (inserted : job ∈ insertions trace) :
    (finishCreate request status job).Follows (tracing documenting) trace fun _ _ => True := by
  have rest : ∀ trace : List Act, job ∈ insertions trace → ∀ added : Bool, (if added = true then do
        auditCreated request job status
        if status = .pending then
          outboxAdd request.tenantId request.userId .submitted
            (.submitted request.tenantId job.id request.userId request.jobType
              request.enrichedPayload request.priority job.traceId)
        pure (.ok job)
      else pure (.error .integrity) : Prog (Except ServiceError Job)).Follows
        (tracing documenting) trace fun _ _ => True := by
    intro trace inserted added
    split
    · refine ⟨fun _ => ⟨job, inserted, rfl⟩, fun _ => ?_⟩
      split
      · exact ⟨trivial, fun _ => trivial⟩
      · exact trivial
    · exact trivial
  unfold finishCreate addDependencies
  split
  · exact rest trace inserted true
  · exact ⟨trivial, fun added =>
      rest (⟨.statement (.insertDependencies job.id request.dependencies), added⟩ :: trace) inserted added⟩

theorem createJob_documents (settings : Settings) (request : CreateJobRequest) (trace : List Act) :
    (createJob settings request).Follows (tracing documenting) trace fun _ _ => True := by
  have looking : ∀ {α : Type} {program : Prog α} {trace : List Act}, program.Uses Op.Looks →
      program.Follows (tracing documenting) trace fun _ _ => True :=
    fun uses => follows_of_undocumented (uses.mono undocumented_of_looks)
  refine (looking (findIdempotent_looks request)).bind fun trace existing _ => ?_
  cases existing with
  | some job => exact trivial
  | none =>
      refine (looking (loadParents_looks request.dependencies)).bind fun trace loaded _ => ?_
      cases loaded with
      | error error => exact trivial
      | ok parents =>
          refine (looking (initialStatus_looks parents)).bind
            fun trace status _ => .first trivial fun inserted => ?_
          cases inserted with
          | none => exact looking (idempotencyWinner_looks request)
          | some job => exact finishCreate_documents List.mem_cons_self

theorem createSaga_documents (settings : Settings) (create : CreateSagaRequest) (trace : List Act) :
    (createSaga settings create).Follows (tracing documenting) trace fun _ _ => True := by
  have steps : ∀ saga index previous (steps : List SagaStep) trace,
      (createSteps settings create saga index previous steps).Follows (tracing documenting) trace
        fun _ _ => True := by
    intro saga index previous steps
    induction steps generalizing index previous with
    | nil => exact fun _ => trivial
    | cons step rest ih =>
        intro trace
        refine (createJob_documents settings _ trace).bind fun trace created _ => ?_
        cases created with
        | error error => exact trivial
        | ok job => exact ih _ _ trace
  unfold createSaga
  split
  · exact trivial
  · refine .first trivial fun saga => (steps saga 0 none create.steps _).bind fun trace created _ => ?_
    cases created with
    | error error => exact trivial
    | ok done =>
        refine ⟨fun created => ?_, fun _ => trivial⟩
        simp at created

theorem program_documents (settings : Settings) (role : Role) :
    (role.program settings).Follows (tracing documenting) [] fun _ _ => True := by
  have ending : ∀ {α : Type} {handler : Prog (Except ServiceError α)},
      handler.Follows (tracing documenting) [] (fun _ _ => True) →
      (request handler).Follows (tracing documenting) [] fun _ _ => True := by
    intro α handler follows
    refine follows.bind fun trace result _ => ?_
    cases result <;> exact ⟨trivial, fun _ => trivial⟩
  by_cases creates : role.creates
  · cases role with
    | createJob create => exact ending (createJob_documents settings create [])
    | createSaga create => exact ending (createSaga_documents settings create [])
    | _ => cases creates
  · exact follows_of_undocumented ((program_uses settings role).mono (undocumented_of_may creates))

theorem pending_documented {settings : Settings} {pool : PlatformPool}
    (reachable : Reachable settings pool) {pid : Pid} {entry : AuditEntry}
    (member : entry ∈ pool.world.audit.pending pid) (created : entry.action = "job.created") :
    ∃ job ∈ insertions (traceOf pid pool.log), entry.jobId = some job.id := by
  rw [pending_audits reachable] at member
  obtain ⟨act, among, appended⟩ := List.mem_flatMap.mp member
  obtain ⟨before, later, first, _, split, ⟨_, _, next, _, stood⟩, _⟩ :=
    reachable.act_moment (List.mem_reverse.mp among)
  have kept := rule_kept (fun role => program_documents settings role) first stood
  obtain ⟨operation, reply⟩ := act
  cases operation with
  | statement issued =>
      cases issued with
      | insertAudit audit =>
          cases List.mem_singleton.mp appended
          obtain ⟨job, inserted, names⟩ := kept created
          rw [split, insertions_append]
          exact ⟨job, List.mem_append_right _ inserted, names⟩
      | _ => cases appended
  | _ => cases appended

theorem committed_documented {settings : Settings} {pool : PlatformPool}
    (reachable : Reachable settings pool) : ∀ entry ∈ pool.world.audit.committed,
    entry.action = "job.created" → ∃ id row, entry.jobId = some id ∧
      (pool.world.jobs.slot id).committed = some row := by
  obtain ⟨outside, reached⟩ := reachable
  refine reached.invariant (motive := fun pool => ∀ entry ∈ pool.world.audit.committed,
    entry.action = "job.created" → ∃ id row, entry.jobId = some id ∧
      (pool.world.jobs.slot id).committed = some row) ?_ ?_ ?_ ?_
  · intro entry member
    cases member
  · intro before pid role world _ ih _ accepted
    rw [Pool.start_world, accept_jobs accepted, accept_audit accepted]
    exact ih
  · intro before pid role operation next reply world earlier ih _ operated entry member created
    rw [Pool.record_world] at member ⊢
    rcases (operate_journals operated).2.committed_cases with same | ⟨rfl, grown⟩
    · obtain ⟨id, row, names, stored⟩ := ih entry (same ▸ member) created
      obtain ⟨now, committed⟩ := committed_kept operated stored
      exact ⟨id, now, names, committed⟩
    · have operated : World.operate pid .commit before.world = some (reply, world) := operated
      rw [grown] at member
      rcases List.mem_append.mp member with old | own
      · obtain ⟨id, row, names, stored⟩ := ih entry old created
        obtain ⟨now, committed⟩ := committed_kept operated stored
        exact ⟨id, now, names, committed⟩
      · obtain ⟨job, inserted, names⟩ := pending_documented ⟨outside, earlier⟩ own created
        obtain ⟨row, held, _⟩ := (insertions_kept ⟨outside, earlier⟩).held pid job inserted
        refine ⟨job.id, row, names, ?_⟩
        rw [show world.jobs.slot job.id = (before.world.jobs.slot job.id).commit pid from by
          cases operated
          exact Table.commit_slot ..]
        rw [Slot.commit_committed, Slot.visible_of_held held]
  · intro before change world _ ih changed
    rw [change_audit changed]
    simpa only [change_slot changed] using ih

/-- The committed audit rows of the creation of a job. -/
def World.creationAudits (world : World) (id : Uuid) : List AuditEntry :=
  world.audit.committed.filter (auditsCreation id)

theorem pending_unaudited {settings : Settings} {pool : PlatformPool}
    (reachable : Reachable settings pool) {id : Uuid} {row : Job}
    (stored : (pool.world.jobs.slot id).committed = some row) (pid : Pid) :
    (pool.world.audit.pending pid).filter (auditsCreation id) = [] := by
  rw [List.filter_eq_nil_iff]
  intro entry member audits
  simp only [auditsCreation, Bool.and_eq_true, decide_eq_true_eq] at audits
  obtain ⟨job, inserted, names⟩ := pending_documented reachable member audits.1
  rw [audits.2] at names
  cases names
  obtain ⟨_, _, _, absent⟩ := (insertions_kept reachable).held pid job inserted
  rw [absent] at stored
  cases stored

theorem creationAudits_kept {settings : Settings} {start pool : PlatformPool} {id : Uuid} {row : Job}
    (reachable : Reachable settings start) (reached : (platform settings).Reaches start pool)
    (stored : (start.world.jobs.slot id).committed = some row) :
    pool.world.creationAudits id = start.world.creationAudits id := by
  have both : (∃ now, (pool.world.jobs.slot id).committed = some now) ∧
      pool.world.creationAudits id = start.world.creationAudits id := by
    refine reached.invariant (motive := fun pool =>
      (∃ now, (pool.world.jobs.slot id).committed = some now) ∧
        pool.world.creationAudits id = start.world.creationAudits id) ⟨⟨row, stored⟩, rfl⟩ ?_ ?_ ?_
    · rintro before pid role world _ ⟨present, same⟩ _ accepted
      rw [Pool.start_world, World.creationAudits, accept_audit accepted, accept_jobs accepted]
      exact ⟨present, same⟩
    · rintro before pid role operation next reply world earlier ⟨⟨now, present⟩, same⟩ _ operated
      refine ⟨committed_kept operated present, ?_⟩
      rw [Pool.record_world, World.creationAudits, ← same, World.creationAudits]
      rcases (operate_journals operated).2.committed_cases with equal | ⟨_, grown⟩
      · rw [equal]
      · rw [grown, List.filter_append, pending_unaudited (reachable.trans earlier) present, List.append_nil]
    · rintro before change world _ ⟨present, same⟩ changed
      rw [World.creationAudits, change_audit changed, change_slot changed]
      exact ⟨present, same⟩
  exact both.2

end IncidentPlatform.Platform

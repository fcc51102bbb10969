import IncidentPlatform.Platform.Capabilities
import IncidentPlatform.Platform.Transactions

namespace IncidentPlatform.Properties

open Concurrency Models Platform Repositories Services Storage Utils Workers

/-! # Terminal writes and their events

Any number of transactions, each any program whose terminal writes and events
are those of `update_status`.  What such a transaction has announced is
compared with what it has written.
-/

def terminalTopic : JobStatus → Topic
  | .deadLetter => .dlq
  | .cancelled => .cancelled
  | _ => .completed

def isTerminal : Topic → Bool
  | .completed | .dlq | .cancelled => true
  | _ => false

@[simp] theorem isTerminal_terminalTopic (status : JobStatus) : isTerminal (terminalTopic status) := by
  cases status <;> rfl

theorem terminalTopic_injective {first second : JobStatus} (left : first.terminal)
    (right : second.terminal) (same : terminalTopic first = terminalTopic second) :
    first = second := by
  cases first <;> cases second <;> simp_all [terminalTopic, JobStatus.terminal]

theorem terminalEvent_fst (job : Job) (status : JobStatus) (message : Option String) :
    (terminalEvent job status message).1 = terminalTopic status := by
  cases status <;> rfl

/-- The operations that neither write a terminal status nor announce one. -/
def Plain : Op → Prop
  | .statement (.updateStatus _ _ _) | .statement (.cancelBlocked _ _ _)
  | .query (.cancelledAt _ _) => False
  | .statement (.insertOutbox _ _ topic _) => isTerminal topic = false
  | _ => True

/-- The programs that go through `update_status`. -/
inductive Through {α : Type} : Prog α → Prop where
  | done (value : α) : Through (.done value)
  | call {operation : Op} {next : Reply operation → Prog α} :
      Plain operation → (∀ reply, Through (next reply)) → Through (.call operation next)
  | update {id : Uuid} {write : StatusWrite} {message : Option String}
      {guard : Option (Job → Bool)} {rest : Option Job → Prog α} :
      (∀ found, Through (rest found)) → Through ((updateStatus id write message guard).bind rest)

abbrev Session := { program : Prog Unit // Through program }

/-- Every such program may start at any time, any number of times. -/
def repository : System World Session Op Reply Change where
  program := Subtype.val
  accept := fun _ world => some world
  execute := World.operate
  environment := fun change world => world.change change

abbrev SessionEntry := Entry World Session Op Reply

abbrev SessionPool := Pool World Session Op Reply

/-- The announcement that a row read back after a write calls for. -/
def announcements (status : JobStatus) (found : Option Job) : List (Topic × Uuid) :=
  if status.terminal then found.toList.map fun row => (terminalTopic status, row.id) else []

/-- Between a write and the read that follows it. -/
inductive Stage where
  | idle
  | wrote (id : Uuid) (status : JobStatus) (changed : Bool)
  | cancelling (ids hits : List Uuid) (stamp : Time)

structure Ledger where
  stage : Stage
  owed : List (Topic × Uuid)
  /-- The blocked children just read. -/
  scanned : List Uuid

namespace Ledger

def Even (ledger : Ledger) : Prop := ledger.stage = .idle ∧ ledger.owed = []

def advance (ledger : Ledger) : (operation : Op) → Reply operation → Ledger
  | .statement (.updateStatus id write guard), changed =>
      if guard.isSome && !changed then { ledger with scanned := [] }
      else { stage := .wrote id write.status changed, owed := [], scanned := [] }
  | .query (.job _), found =>
      match ledger.stage with
      | .wrote _ status _ => { stage := .idle, owed := announcements status found, scanned := [] }
      | _ => { ledger with scanned := [] }
  | .query (.blockedChildren _), ids => { ledger with scanned := ids }
  | .statement (.cancelBlocked ids _ stamp), hits =>
      { stage := .cancelling ids hits stamp, owed := [], scanned := [] }
  | .query (.cancelledAt _ _), rows =>
      { stage := .idle, owed := rows.map fun row => (.cancelled, row.id), scanned := [] }
  | .statement (.insertOutbox _ _ topic _), _ =>
      { ledger with
        owed := if isTerminal topic then ledger.owed.tail else ledger.owed
        scanned := [] }
  | _, _ => { ledger with scanned := [] }

def Allows (ledger : Ledger) : Op → Prop
  | .query (.job id) => ledger.Even ∨ ∃ status changed, ledger.stage = .wrote id status changed
  | .statement (.cancelBlocked ids _ _) => ledger.Even ∧ ∀ id ∈ ids, id ∈ ledger.scanned
  | .query (.cancelledAt ids stamp) => ∃ hits, ledger.stage = .cancelling ids hits stamp
  | .statement (.insertOutbox _ _ topic event) =>
      if isTerminal topic then
        ledger.stage = .idle ∧ ledger.owed.head? = some (topic, event.jobId)
      else ledger.Even
  | _ => ledger.Even

end Ledger

/-- A write is read back at once, and what was read back is announced before
anything else happens. -/
@[reducible] def ledgerProtocol : Protocol Session Op Reply where
  State := Ledger
  start := fun _ => ⟨.idle, [], []⟩
  allowed := Ledger.Allows
  advance := Ledger.advance

section Follows

variable {ledger : Ledger}

theorem announceCancelled_even (rows : List Job) (scanned : List Uuid) :
    (announceCancelled rows).Follows ledgerProtocol
      ⟨.idle, rows.map fun row => (.cancelled, row.id), scanned⟩ fun after _ => after.Even := by
  induction rows generalizing scanned with
  | nil => exact ⟨rfl, rfl⟩
  | cons row rest ih => exact ⟨⟨rfl, rfl⟩, fun _ => ih []⟩

theorem cascadeLevels_even (reason : String) (stamp : Time) (depth : Nat)
    (frontier seen : List Uuid) (count : Nat) (even : ledger.Even) :
    (cascadeLevels reason stamp depth frontier seen count).Follows ledgerProtocol ledger
      fun after _ => after.Even := by
  induction depth generalizing frontier seen count ledger with
  | zero => exact even
  | succ depth ih =>
      rw [cascadeLevels]
      split
      · exact even
      · refine .first even fun rows => ?_
        dsimp only
        split
        · exact even
        · refine .first ⟨even, fun id member => (List.mem_filter.mp member).1⟩ fun hits => ?_
          refine .first ⟨hits, rfl⟩ fun newly => ?_
          exact (announceCancelled_even newly []).bind fun after _ even => ih _ _ _ even

theorem updateStatus_even (id : Uuid) (write : StatusWrite) (message : Option String)
    (guard : Option (Job → Bool)) (even : ledger.Even) :
    (updateStatus id write message guard).Follows ledgerProtocol ledger
      fun after _ => after.Even := by
  refine .first even fun changed => ?_
  dsimp only
  split
  · rename_i refused
    simp only [Ledger.advance, refused, if_true]
    exact even
  · rename_i accepted
    simp only [Ledger.advance, accepted, Bool.false_eq_true, if_false]
    refine .first (.inr ⟨_, _, rfl⟩) fun found => ?_
    cases found with
    | none => exact ⟨rfl, by simp [Ledger.advance, announcements]⟩
    | some job =>
        have cascade : ∀ ledger : Ledger, ledger.Even →
            (do
              if write.status.cascadeSource then
                let _ ← cascadeCancelBlockedChildren id write.status
              pure (some job) : Prog (Option Job)).Follows ledgerProtocol ledger
              fun after _ => after.Even := by
          intro ledger even
          dsimp only
          split
          · refine Program.Follows.bind (Program.Follows.first even fun now => ?_) fun _ _ even => even
            exact cascadeLevels_even _ _ _ _ _ _ even
          · exact even
        dsimp only [Ledger.advance, announcements]
        by_cases terminal : write.status.terminal
        · rw [if_pos terminal, if_pos terminal]
          refine .first ?_ fun _ => cascade _ ?_
          · simp [Ledger.Allows, terminalEvent_fst]
          · simp [Ledger.Even, Ledger.advance, terminalEvent_fst]
        · rw [if_neg terminal, if_neg terminal]
          exact cascade _ ⟨rfl, rfl⟩

theorem plain_allows {operation : Op} (plain : Plain operation) (even : ledger.Even) :
    ledger.Allows operation ∧ ∀ reply, (ledger.advance operation reply).Even := by
  cases operation with
  | query query =>
      cases query with
      | job id =>
          refine ⟨.inl even, fun found => ?_⟩
          simp only [Ledger.advance, even.1]
          exact ⟨rfl, even.2⟩
      | cancelledAt ids stamp => exact plain.elim
      | _ => exact ⟨even, fun _ => even⟩
  | statement issued =>
      cases issued with
      | updateStatus id write guard => exact plain.elim
      | cancelBlocked ids reason stamp => exact plain.elim
      | insertOutbox tenant user topic event =>
          have other : isTerminal topic = false := plain
          simp only [Ledger.Allows, Ledger.advance, other, Bool.false_eq_true, if_false]
          exact ⟨even, fun _ => even⟩
      | _ => exact ⟨even, fun _ => even⟩
  | _ => exact ⟨even, fun _ => even⟩

theorem Through.even {α : Type} {program : Prog α} (through : Through program)
    (even : ledger.Even) :
    program.Follows ledgerProtocol ledger fun after _ => after.Even := by
  induction through generalizing ledger with
  | done value => exact even
  | call plain _ ih =>
      obtain ⟨permitted, next⟩ := plain_allows plain even
      exact ⟨permitted, fun reply => ih reply (next reply)⟩
  | update _ ih =>
      exact (updateStatus_even _ _ _ _ even).bind fun after found even => ih found even

theorem session_follows (session : Session) :
    (repository.program session).Follows ledgerProtocol (ledgerProtocol.start session)
      fun _ _ => True :=
  (session.property.even ⟨rfl, rfl⟩).mono fun _ _ _ => trivial

end Follows

/-- The writes of `status` to `job` that an operation made. -/
def written (status : JobStatus) (job : Uuid) : Act → Nat
  | ⟨.statement (.updateStatus id write _), changed⟩ =>
      if changed = true ∧ write.status = status ∧ id = job then 1 else 0
  | ⟨.statement (.cancelBlocked _ _ _), hits⟩ => if status = .cancelled then hits.count job else 0
  | _ => 0

/-- The outbox rows of `topic` about `job` that it added. -/
def announced (topic : Topic) (job : Uuid) : Act → Nat
  | ⟨.statement (.insertOutbox _ _ added event), _⟩ =>
      if added = topic ∧ event.jobId = job then 1 else 0
  | _ => 0

def writes (status : JobStatus) (job : Uuid) (trace : List Act) : Nat :=
  (trace.map (written status job)).sum

def events (topic : Topic) (job : Uuid) (trace : List Act) : Nat :=
  (trace.map (announced topic job)).sum

/-- The status that an unguarded UPDATE was to write when it found no row. -/
def missed : Act → Option JobStatus
  | ⟨.statement (.updateStatus _ write guard), changed⟩ =>
      if guard.isSome || changed then none else some write.status
  | _ => none

/-- The announcements an operation calls for by reading back a row that the
transaction has not written: by its stamp, or by its id after an UPDATE that
found no row. -/
def strays (pid : Pid) (previous : Option Act) : SessionEntry → List (Topic × Uuid)
  | ⟨_, _, .query (.cancelledAt _ _), rows, before⟩ =>
      (rows.filter fun row => (before.jobs.own pid row.id).isNone).map fun row => (.cancelled, row.id)
  | ⟨_, _, .query (.job _), found, _⟩ =>
      (previous.bind missed).toList.flatMap fun status => announcements status found
  | _ => []

def strayReads (pid : Pid) : List SessionEntry → List (Topic × Uuid)
  | [] => []
  | entry :: older => strays pid (older.head?.map actOf) entry ++ strayReads pid older

theorem strays_terminal {pid : Pid} {previous : Option Act} {entry : SessionEntry}
    {topic : Topic} {job : Uuid} (member : (topic, job) ∈ strays pid previous entry) :
    ∃ status : JobStatus, status.terminal ∧ terminalTopic status = topic := by
  unfold strays at member
  split at member
  · obtain ⟨row, _, equal⟩ := List.mem_map.mp member
    cases equal
    exact ⟨.cancelled, rfl, rfl⟩
  · obtain ⟨status, _, announces⟩ := List.mem_flatMap.mp member
    unfold announcements at announces
    split at announces
    · rename_i terminal
      obtain ⟨row, _, equal⟩ := List.mem_map.mp announces
      cases equal
      exact ⟨status, terminal, rfl⟩
    · cases announces
  · cases member

theorem strayReads_terminal {pid : Pid} {entries : List SessionEntry} {topic : Topic} {job : Uuid}
    (member : (topic, job) ∈ strayReads pid entries) :
    ∃ status : JobStatus, status.terminal ∧ terminalTopic status = topic := by
  induction entries with
  | nil => cases member
  | cons entry older ih =>
      rcases List.mem_append.mp member with first | later
      · exact strays_terminal first
      · exact ih later

def Ledger.debt (ledger : Ledger) (status : JobStatus) (job : Uuid) : Nat :=
  match ledger.stage with
  | .idle => 0
  | .wrote id wrote changed => if changed = true ∧ wrote = status ∧ id = job then 1 else 0
  | .cancelling _ hits _ => if status = .cancelled then hits.count job else 0

def Ledger.miss (ledger : Ledger) : Option JobStatus :=
  match ledger.stage with
  | .wrote _ status false => some status
  | _ => none

/-- What the open transaction of `pid` has announced, and still has to announce,
is what it has written and what it has read back without writing it. -/
structure Tallied (pid : Pid) (world : World) (ledger : Ledger) (entries : List SessionEntry) :
    Prop where
  tally : ∀ status job, status.terminal → events (terminalTopic status) job (entries.map actOf) +
    ledger.owed.count (terminalTopic status, job) + ledger.debt status job =
      writes status job (entries.map actOf) +
        (strayReads pid entries).count (terminalTopic status, job)
  miss : (entries.head?.map actOf).bind missed = ledger.miss
  settled : ledger.stage ≠ .idle → ledger.owed = []
  wrote : ∀ id status, ledger.stage = .wrote id status true →
    ∃ row, (world.jobs.slot id).holder = some (pid, row)
  cancelling : ∀ ids hits stamp, ledger.stage = .cancelling ids hits stamp → hits.Nodup ∧
    (∀ id, id ∈ hits ↔ id ∈ ids ∧ ∃ row, (world.jobs.slot id).holder = some (pid, row)) ∧
    ∀ id ∈ hits, ∀ row, (world.jobs.slot id).holder = some (pid, row) → row.completedAt = some stamp
  scanned : ∀ id ∈ ledger.scanned, ∀ row, (world.jobs.slot id).holder = some (pid, row) →
    row.status = .waiting ∧ row.sagaId = none

section Tallied

variable {pid : Pid} {world after : World} {ledger : Ledger} {entries : List SessionEntry}

@[simp] theorem debt_of_idle (idle : ledger.stage = .idle) (status : JobStatus) (job : Uuid) :
    ledger.debt status job = 0 := by
  simp [Ledger.debt, idle]

theorem Tallied.of_held (tallied : Tallied pid world ledger entries)
    (same : ∀ id row, (after.jobs.slot id).holder = some (pid, row) ↔
      (world.jobs.slot id).holder = some (pid, row)) : Tallied pid after ledger entries where
  tally := tallied.tally
  miss := tallied.miss
  settled := tallied.settled
  wrote := fun id status wrote => by
    simp only [same]
    exact tallied.wrote id status wrote
  cancelling := fun ids hits stamp stage => by
    simp only [same]
    exact tallied.cancelling ids hits stamp stage
  scanned := fun id member row held => tallied.scanned id member row ((same id row).mp held)

theorem Tallied.quiet {session : Session} {operation : Op} {reply : Reply operation} {next : Ledger}
    (tallied : Tallied pid world ledger entries) (even : ledger.Even)
    (unwritten : ∀ status job, status.terminal → written status job ⟨operation, reply⟩ = 0)
    (unannounced : ∀ status job, announced (terminalTopic status) job ⟨operation, reply⟩ = 0)
    (faithful : strays pid (entries.head?.map actOf) ⟨pid, session, operation, reply, world⟩ = [])
    (found : missed ⟨operation, reply⟩ = none) (nextEven : next.Even)
    (scanned : ∀ id ∈ next.scanned, ∀ row, (after.jobs.slot id).holder = some (pid, row) →
      row.status = .waiting ∧ row.sagaId = none) :
    Tallied pid after next (⟨pid, session, operation, reply, world⟩ :: entries) where
  tally := fun status job terminal => by
    have tally := tallied.tally status job terminal
    rw [debt_of_idle even.1, even.2] at tally
    rw [debt_of_idle nextEven.1, nextEven.2]
    simp only [events, writes, strayReads, List.map_cons, List.sum_cons, actOf, unannounced,
      unwritten status job terminal, faithful, List.nil_append, Nat.zero_add]
    exact tally
  miss := by
    simp [actOf, found, Ledger.miss, nextEven.1]
  settled := fun busy => absurd nextEven.1 busy
  wrote := fun id status wrote => by
    rw [nextEven.1] at wrote
    cases wrote
  cancelling := fun ids hits stamp stage => by
    rw [nextEven.1] at stage
    cases stage
  scanned := scanned

theorem Tallied.update {session : Session} {id : Uuid} {write : StatusWrite}
    {guard : Option (Job → Bool)} {changed : Bool} (tallied : Tallied pid world ledger entries)
    (even : ledger.Even)
    (operated : World.operate pid (.statement (.updateStatus id write guard)) world =
      some (changed, after)) :
    Tallied pid after (ledger.advance (.statement (.updateStatus id write guard)) changed)
      (⟨pid, session, .statement (.updateStatus id write guard), changed, world⟩ :: entries) := by
  simp only [Ledger.advance]
  split
  · rename_i refused
    rw [Bool.and_eq_true, Bool.not_eq_true'] at refused
    refine tallied.quiet even ?_ (fun _ _ => rfl) rfl ?_ even (by simp)
    · intro status job _
      simp [written, refused.2]
    · simp [missed, refused.1]
  · rename_i accepted
    constructor
    · intro status job terminal
      have tally := tallied.tally status job terminal
      rw [debt_of_idle even.1, even.2] at tally
      simp only [events, writes, strayReads, List.map_cons, List.sum_cons, actOf, written, announced,
        strays, List.nil_append, Ledger.debt, List.count_nil] at tally ⊢
      omega
    · cases changed with
      | true => simp [actOf, missed, Ledger.miss]
      | false =>
          have unguarded : guard.isSome = false := by simpa using accepted
          simp [actOf, missed, Ledger.miss, unguarded]
    · exact fun _ => rfl
    · intro queried status wrote
      cases wrote
      obtain ⟨new, writes⟩ := update_writes operated
      rcases operate_slot operated id with ⟨row, _, _, slot⟩ | ⟨absurd, _⟩ | ⟨absurd, _⟩ |
        ⟨unwritten, _⟩
      · exact ⟨row, by rw [slot, Slot.write_holder]⟩
      · cases absurd
      · cases absurd
      · exact absurd writes (unwritten new)
    · intro ids hits stamp stage
      cases stage
    · intro queried member
      cases member

theorem Tallied.readBack {session : Session} {id : Uuid} {status : JobStatus} {changed : Bool}
    (tallied : Tallied pid world ledger entries)
    (keyed : ∀ job, (world.jobs.slot job).All fun row => row.id = job)
    (stage : ledger.stage = .wrote id status changed) :
    Tallied pid world
      ⟨.idle, announcements status (world.jobs.visible pid id), []⟩
      (⟨pid, session, .query (.job id), world.jobs.visible pid id, world⟩ :: entries) := by
  have miss := tallied.miss
  have owed : ledger.owed = [] := tallied.settled (by simp [stage])
  constructor
  · intro wrote job terminal
    have tally := tallied.tally wrote job terminal
    simp only [Ledger.debt, stage, owed, List.count_nil] at tally
    simp only [Ledger.miss, stage] at miss
    simp only [events, writes, strayReads, strays, List.map_cons, List.sum_cons, actOf, written,
      announced, Nat.zero_add, List.count_append, Ledger.debt] at tally ⊢
    cases changed with
    | true =>
        obtain ⟨row, held⟩ := tallied.wrote id status stage
        have seen : world.jobs.visible pid id = some row := by
          rw [← Table.slot_visible, Slot.visible_of_held held]
        have same : row.id = id := (keyed id).held pid row held
        have owes : (announcements status (some row)).count (terminalTopic wrote, job) =
            if status = wrote ∧ id = job then 1 else 0 := by
          by_cases equal : status = wrote
          · subst equal
            by_cases own : id = job
            · simp [announcements, terminal, same, own]
            · simp [announcements, terminal, same, own]
          · have other : ¬ (status.terminal ∧ terminalTopic status = terminalTopic wrote) :=
              fun both => equal (terminalTopic_injective both.1 terminal both.2)
            by_cases announces : status.terminal
            · have different : terminalTopic status ≠ terminalTopic wrote :=
                fun topic => other ⟨announces, topic⟩
              simp [announcements, announces, equal, different]
            · simp [announcements, announces, equal]
        rw [miss, seen, owes]
        simp only [Option.toList_none, List.flatMap_nil, List.count_nil, Nat.zero_add]
        simp only [true_and] at tally
        omega
    | false =>
        rw [miss]
        simp only [Option.toList_some, List.flatMap_cons, List.flatMap_nil, List.append_nil]
        simp only [Bool.false_eq_true, false_and, if_false] at tally
        omega
  · rfl
  · exact fun busy => absurd rfl busy
  · intro queried wrote equal
    cases equal
  · intro ids hits stamp equal
    cases equal
  · intro queried member
    cases member

theorem Tallied.cancel {session : Session} {ids hits : List Uuid} {reason : String} {stamp : Time}
    (tallied : Tallied pid world ledger entries) (even : ledger.Even)
    (among : ∀ id ∈ ids, id ∈ ledger.scanned)
    (operated : World.operate pid (.statement (.cancelBlocked ids reason stamp)) world =
      some (hits, after)) :
    Tallied pid after ⟨.cancelling ids hits stamp, [], []⟩
      (⟨pid, session, .statement (.cancelBlocked ids reason stamp), hits, world⟩ :: entries) := by
  obtain ⟨jobs, updated, rfl⟩ := withJobs_eq operated
  have changed := Table.updateAll_slot ids.nodup_dedup updated
  constructor
  · intro status job terminal
    have tally := tallied.tally status job terminal
    rw [debt_of_idle even.1, even.2] at tally
    simp only [events, writes, strayReads, List.map_cons, List.sum_cons, actOf, written, announced,
      strays, List.nil_append, Ledger.debt, List.count_nil] at tally ⊢
    omega
  · rfl
  · exact fun _ => rfl
  · intro id status equal
    cases equal
  · intro _ _ _ equal
    cases equal
    refine ⟨(Table.updateAll_sublist updated).nodup ids.nodup_dedup, fun id => ⟨fun hit => ?_, ?_⟩, ?_⟩
    · rcases changed id with ⟨_, missed⟩ | ⟨_, member, _, row, _, _, slot⟩
      · exact absurd hit missed
      · exact ⟨List.mem_dedup.mp member, _, by rw [slot, Slot.write_holder]⟩
    · rintro ⟨member, row, held⟩
      rcases changed id with ⟨kept, missed⟩ | ⟨hit, _⟩
      · -- A row held before was read WAITING, so the UPDATE did not miss it.
        rw [kept] at held
        have seen : world.jobs.visible pid id = some row := by
          rw [← Table.slot_visible, Slot.visible_of_held held]
        obtain ⟨waiting, unsaga⟩ := tallied.scanned id (among id member) row held
        exact Table.updateAll_complete ids.nodup_dedup updated (List.mem_dedup.mpr member) seen
          (by simp [waiting, unsaga])
      · exact hit
    · intro id hit row held
      rcases changed id with ⟨_, missed⟩ | ⟨_, _, _, old, _, _, slot⟩
      · exact absurd hit missed
      · rw [slot, Slot.write_holder] at held
        cases held
        rfl
  · intro id member
    cases member

theorem count_parted {job : Uuid} (part : Job → Bool) (rows : List Job) :
    (rows.map Job.id).count job = ((rows.filter fun row => !part row).map Job.id).count job +
      ((rows.filter part).map Job.id).count job := by
  induction rows with
  | nil => rfl
  | cons row rest ih =>
      cases taken : part row with
      | true =>
          simp only [List.map_cons, List.filter_cons, taken, Bool.not_true, Bool.false_eq_true,
            if_true, if_false, List.count_cons, ih]
          omega
      | false =>
          simp only [List.map_cons, List.filter_cons, taken, Bool.not_false, Bool.false_eq_true,
            if_true, if_false, List.count_cons, ih]
          omega

theorem count_cancelledAt {ids hits : List Uuid} {stamp : Time}
    (keyed : ∀ job, (world.jobs.slot job).All fun row => row.id = job) (distinct : hits.Nodup)
    (own : ∀ id, id ∈ hits ↔ id ∈ ids ∧ ∃ row, (world.jobs.slot id).holder = some (pid, row))
    (stamped : ∀ id ∈ hits, ∀ row, (world.jobs.slot id).holder = some (pid, row) →
      row.completedAt = some stamp) (job : Uuid) :
    ((world.answer pid (.cancelledAt ids stamp)).map Job.id).count job = hits.count job +
      (((world.answer pid (.cancelledAt ids stamp)).filter fun row =>
        (world.jobs.own pid row.id).isNone).map Job.id).count job := by
  have seen : ∀ id row, world.jobs.visible pid id = some row → row.id = id := by
    intro id row visible
    rw [← Table.slot_visible] at visible
    exact (keyed id).visible visible
  let rows : List Job := world.answer pid (.cancelledAt ids stamp)
  show (rows.map Job.id).count job = hits.count job + _
  rw [count_parted (fun row => (world.jobs.own pid row.id).isNone) rows, Nat.add_right_cancel_iff]
  have whole : ((world.jobs.rows pid).map Job.id).Nodup := Table.rows_nodup seen
  have nodup : ((rows.filter fun row => !(world.jobs.own pid row.id).isNone).map Job.id).Nodup :=
    whole.sublist ((List.filter_sublist.trans List.filter_sublist).map Job.id)
  have member : job ∈ (rows.filter fun row => !(world.jobs.own pid row.id).isNone).map Job.id ↔
      job ∈ hits := by
    constructor
    · intro listed
      obtain ⟨row, among, rfl⟩ := List.mem_map.mp listed
      obtain ⟨read, held⟩ := List.mem_filter.mp among
      obtain ⟨_, matched⟩ := List.mem_filter.mp read
      obtain ⟨version, found⟩ := Option.isSome_iff_exists.mp (by simpa using held)
      simp only [Bool.and_eq_true, List.contains_iff_mem] at matched
      exact (own row.id).mpr ⟨matched.1, version, Table.slot_holder_iff.mpr found⟩
    · intro hit
      obtain ⟨member, row, held⟩ := (own job).mp hit
      have visible : world.jobs.visible pid job = some row := by
        rw [← Table.slot_visible, Slot.visible_of_held held]
      have same := seen job row visible
      refine List.mem_map.mpr ⟨row, List.mem_filter.mpr ⟨List.mem_filter.mpr ⟨?_, ?_⟩, ?_⟩, same⟩
      · exact Table.mem_rows_iff.mpr ⟨job, visible⟩
      · simp [same, member, stamped job hit row held]
      · rw [same, Table.slot_holder_iff.mp held]
        rfl
  rw [nodup.count, distinct.count]
  simp only [member]

theorem count_announcement {status : JobStatus} {job : Uuid} (terminal : status.terminal)
    (rows : List Job) :
    (rows.map fun row => (Topic.cancelled, row.id)).count (terminalTopic status, job) =
      if status = .cancelled then (rows.map Job.id).count job else 0 := by
  induction rows with
  | nil => simp
  | cons row rest ih =>
      cases status with
      | cancelled =>
          simp only [if_true, terminalTopic] at ih ⊢
          simp only [List.map_cons, List.count_cons, ih]
          simp
      | completed => simpa [terminalTopic] using ih
      | deadLetter => simpa [terminalTopic] using ih
      | _ => cases terminal

theorem Tallied.reread {session : Session} {ids hits : List Uuid} {stamp : Time}
    (tallied : Tallied pid world ledger entries)
    (keyed : ∀ job, (world.jobs.slot job).All fun row => row.id = job)
    (stage : ledger.stage = .cancelling ids hits stamp) :
    Tallied pid world
      ⟨.idle, (world.answer pid (.cancelledAt ids stamp)).map fun row => (.cancelled, row.id), []⟩
      (⟨pid, session, .query (.cancelledAt ids stamp), world.answer pid (.cancelledAt ids stamp),
        world⟩ :: entries) := by
  obtain ⟨distinct, own, stamped⟩ := tallied.cancelling ids hits stamp stage
  have owed : ledger.owed = [] := tallied.settled (by simp [stage])
  constructor
  · intro status job terminal
    have tally := tallied.tally status job terminal
    have rows := count_cancelledAt keyed distinct own stamped job
    simp only [Ledger.debt, stage, owed, List.count_nil] at tally
    simp only [events, writes, strayReads, strays, List.map_cons, List.sum_cons, actOf, written,
      announced, Nat.zero_add, List.count_append, Ledger.debt] at tally ⊢
    rw [count_announcement terminal, count_announcement terminal, rows]
    split
    · rename_i cancelled
      rw [if_pos cancelled] at tally
      omega
    · rename_i other
      rw [if_neg other] at tally
      omega
  · rfl
  · exact fun busy => absurd rfl busy
  · intro id status equal
    cases equal
  · intro _ _ _ equal
    cases equal
  · intro id member
    cases member

theorem Tallied.announce {session : Session} {tenant user : Uuid} {topic : Topic} {event : Event}
    (tallied : Tallied pid world ledger entries) (idle : ledger.stage = .idle)
    (first : ledger.owed.head? = some (topic, event.jobId)) :
    Tallied pid after ⟨.idle, ledger.owed.tail, []⟩
      (⟨pid, session, .statement (.insertOutbox tenant user topic event), (), world⟩ :: entries) := by
  obtain ⟨rest, owed⟩ : ∃ rest, ledger.owed = (topic, event.jobId) :: rest := by
    cases owed : ledger.owed with
    | nil =>
        rw [owed] at first
        cases first
    | cons head rest =>
        rw [owed] at first
        cases first
        exact ⟨rest, rfl⟩
  constructor
  · intro status job terminal
    have tally := tallied.tally status job terminal
    rw [debt_of_idle idle, owed, List.count_cons] at tally
    simp only [events, writes, strayReads, strays, List.map_cons, List.sum_cons, actOf, written,
      announced, Nat.zero_add, List.nil_append, Ledger.debt, owed, List.tail_cons] at tally ⊢
    have same : ((topic, event.jobId) == (terminalTopic status, job)) = true ↔
        topic = terminalTopic status ∧ event.jobId = job := by simp
    simp only [same] at tally
    omega
  · rfl
  · exact fun busy => absurd rfl busy
  · intro id status equal
    cases equal
  · intro _ _ _ equal
    cases equal
  · intro id member
    cases member

theorem Tallied.operate {session : Session} {operation : Op} {reply : Reply operation}
    (tallied : Tallied pid world ledger entries)
    (keyed : ∀ job, (world.jobs.slot job).All fun row => row.id = job)
    (permitted : ledger.Allows operation) (opened : operation.ends = false)
    (operated : World.operate pid operation world = some (reply, after)) :
    Tallied pid after (ledger.advance operation reply)
      (⟨pid, session, operation, reply, world⟩ :: entries) := by
  cases operation with
  | commit => cases opened
  | rollback => cases opened
  | query query =>
      cases query with
      | job id =>
          cases operated
          rcases permitted with even | ⟨status, changed, stage⟩
          · have unmissed : (entries.head?.map actOf).bind missed = none := by
              rw [tallied.miss, Ledger.miss, even.1]
            have next : (ledger.advance (.query (.job id)) (world.answer pid (.job id))).Even := by
              simp only [Ledger.advance, even.1]
              exact ⟨rfl, even.2⟩
            refine tallied.quiet even (fun _ _ _ => rfl) (fun _ _ => rfl) ?_ rfl next ?_
            · simp [strays, unmissed]
            · simp [Ledger.advance, even.1]
          · simp only [Ledger.advance, stage]
            exact tallied.readBack keyed stage
      | blockedChildren frontier =>
          cases operated
          refine tallied.quiet permitted (fun _ _ _ => rfl) (fun _ _ => rfl) rfl rfl permitted ?_
          intro id member row held
          obtain ⟨edge, listed, rfl⟩ := List.mem_map.mp member
          have eligible := (List.mem_filter.mp listed).2
          rw [← Table.slot_visible, Slot.visible_of_held held] at eligible
          simpa using (Bool.and_eq_true_iff.mp eligible).2
      | cancelledAt ids stamp =>
          cases operated
          obtain ⟨hits, stage⟩ := permitted
          exact tallied.reread keyed stage
      | _ =>
          cases operated
          exact tallied.quiet permitted (fun _ _ _ => rfl) (fun _ _ => rfl) rfl rfl permitted
            (fun _ member => by cases member)
  | statement issued =>
      cases issued with
      | updateStatus id write guard => exact tallied.update permitted operated
      | cancelBlocked ids reason stamp => exact tallied.cancel permitted.1 permitted.2 operated
      | insertOutbox tenant user topic event =>
          cases announces : isTerminal topic with
          | true =>
              simp only [Ledger.Allows, announces, if_true] at permitted
              simp only [Ledger.advance, announces, if_true, permitted.1]
              exact tallied.announce permitted.1 permitted.2
          | false =>
              simp only [Ledger.Allows, announces, Bool.false_eq_true, if_false] at permitted
              refine tallied.quiet permitted (fun _ _ _ => rfl) ?_ rfl rfl ?_ (by simp [Ledger.advance])
              · intro status job
                have different : topic ≠ terminalTopic status := by
                  intro same
                  rw [same, isTerminal_terminalTopic] at announces
                  cases announces
                simp [announced, different]
              · simp only [Ledger.advance, announces, Bool.false_eq_true, if_false]
                exact permitted
      | _ =>
          exact tallied.quiet permitted (fun _ _ _ => rfl) (fun _ _ => rfl) rfl rfl permitted
            (fun _ member => by cases member)
  | command command =>
      exact tallied.quiet permitted (fun _ _ _ => rfl) (fun _ _ => rfl) rfl rfl permitted
        (fun _ member => by cases member)
  | reading reading =>
      exact tallied.quiet permitted (fun _ _ _ => rfl) (fun _ _ => rfl) rfl rfl permitted
        (fun _ member => by cases member)
  | publishRaw row =>
      exact tallied.quiet permitted (fun _ _ _ => rfl) (fun _ _ => rfl) rfl rfl permitted
        (fun _ member => by cases member)

end Tallied

section Runs

variable {origin : World} {pool : SessionPool}

theorem tallied_nil {pid : Pid} {world : World} {ledger : Ledger} (even : ledger.Even)
    (unscanned : ledger.scanned = []) : Tallied pid world ledger [] where
  tally := fun status job _ => by simp [events, writes, strayReads, even.2, debt_of_idle even.1]
  miss := by simp [Ledger.miss, even.1]
  settled := fun busy => absurd even.1 busy
  wrote := fun id status stage => by
    rw [even.1] at stage
    cases stage
  cancelling := fun ids hits stamp stage => by
    rw [even.1] at stage
    cases stage
  scanned := fun id member => by
    rw [unscanned] at member
    cases member

theorem keyed_of_reaches (keyed : ∀ job, (origin.jobs.slot job).All fun row => row.id = job)
    (reached : repository.Reaches (.initial origin) pool) (job : Uuid) :
    (pool.world.jobs.slot job).All fun row => row.id = job := by
  refine reached.invariant (motive := fun pool =>
    (pool.world.jobs.slot job).All fun row => row.id = job) (keyed job) ?_ ?_ ?_
  · intro before pid session world _ all _ accepted
    cases accepted
    exact all
  · intro before pid session operation next reply world _ all _ operated
    exact All.operate all keyed_of_writes operated
  · intro before change world _ all changed
    rw [change_slot changed]
    exact all

theorem tallied_of_reaches (keyed : ∀ job, (origin.jobs.slot job).All fun row => row.id = job)
    (reached : repository.Reaches (.initial origin) pool) {pid : Pid}
    {process : Process Session Op Reply} (present : pool.process pid = some process) :
    Tallied pid pool.world (ledgerProtocol.stateFrom process.role pid pool.log)
      (transaction pid pool.log) := by
  revert pid process
  refine reached.invariant (motive := fun pool => ∀ {pid process},
    pool.process pid = some process → Tallied pid pool.world
      (ledgerProtocol.stateFrom process.role pid pool.log) (transaction pid pool.log)) ?_ ?_ ?_ ?_
  · intro pid process present
    cases present
  · intro before pid session world earlier ih unused accepted other process present
    cases accepted
    by_cases same : other = pid
    · subst same
      rw [Pool.start_process, Pool.setProcess_self] at present
      cases present
      have unlogged : ∀ entry ∈ before.log, entry.pid ≠ other := by
        intro entry member own
        obtain ⟨process, found, _⟩ := earlier.started entry member
        rw [own, unused] at found
        cases found
      rw [Pool.start_log, Protocol.stateFrom_unlogged unlogged, transaction_unlogged unlogged]
      exact tallied_nil ⟨rfl, rfl⟩ rfl
    · rw [Pool.start_process, Pool.setProcess_other _ _ same] at present
      exact ih present
  · intro before pid session operation next reply world earlier ih found operated other process present
    by_cases same : other = pid
    · subst same
      rw [Pool.record_process, Pool.setProcess_self] at present
      cases present
      have permitted := (Protocol.keptBy_of_reaches session_follows earlier other _ found).1
      have tallied := ih found
      simp only [Pool.record_log, Pool.record_world, Protocol.stateFrom, transaction, if_true]
      split
      · rename_i ends
        rcases Op.ends_cases ends with rfl | rfl
        · exact tallied_nil permitted rfl
        · exact tallied_nil permitted rfl
      · rename_i opened
        exact tallied.operate (keyed_of_reaches keyed earlier) permitted (by simpa using opened)
          operated
    · rw [Pool.record_process, Pool.setProcess_other _ _ same] at present
      simp only [Pool.record_log, Pool.record_world, Protocol.stateFrom, transaction,
        if_neg (Ne.symm same)]
      exact (ih present).of_held fun id row => held_iff_other operated same
  · intro before change world _ ih changed pid process present
    exact (ih present).of_held fun id row => by rw [change_slot changed]

/-- A transaction about to commit has added, for every job and terminal status,
as many events as it made writes, exactly if it has read no row back that it
had not written. -/
theorem terminal_events_match_writes_iff
    (keyed : ∀ job, (origin.jobs.slot job).All fun row => row.id = job)
    (reached : repository.Reaches (.initial origin) pool) {pid : Pid} {session : Session}
    {next : Reply .commit → Prog Unit}
    (committing : pool.process pid = some { role := session, program := .call .commit next }) :
    (∀ status job, status.terminal → events (terminalTopic status) job (traceOf pid pool.log) =
      writes status job (traceOf pid pool.log)) ↔
        strayReads pid (transaction pid pool.log) = [] := by
  have even : (ledgerProtocol.stateFrom session pid pool.log).Even :=
    (Protocol.keptBy_of_reaches session_follows reached pid _ committing).1
  have tallied := tallied_of_reaches keyed reached committing
  have tally : ∀ status job, status.terminal → events (terminalTopic status) job (traceOf pid pool.log) =
      writes status job (traceOf pid pool.log) +
        (strayReads pid (transaction pid pool.log)).count (terminalTopic status, job) := by
    intro status job terminal
    have tally := tallied.tally status job terminal
    rw [debt_of_idle even.1, even.2, List.count_nil] at tally
    exact tally
  constructor
  · intro equal
    rw [List.eq_nil_iff_forall_not_mem]
    rintro ⟨topic, job⟩ member
    obtain ⟨status, terminal, rfl⟩ := strayReads_terminal member
    have counted := List.count_pos_iff.mpr member
    have tally := tally status job terminal
    have equal := equal status job terminal
    omega
  · intro none status job terminal
    rw [tally status job terminal, none, List.count_nil, Nat.add_zero]

end Runs

section Platform

variable {α β : Type}

theorem Through.first {operation : Op} {rest : Reply operation → Prog α} (plain : Plain operation)
    (next : ∀ reply, Through (rest reply)) : Through ((Program.call operation .done).bind rest) :=
  .call plain next

theorem Through.bind {program : Prog α} {rest : α → Prog β} (first : Through program)
    (second : ∀ value, Through (rest value)) : Through (program.bind rest) := by
  induction first with
  | done value => exact second value
  | call plain _ ih => exact .call plain ih
  | update _ ih =>
      rw [Program.bind_assoc]
      exact .update ih

theorem Through.forEach {items : List α} {body : α → Prog Unit} (each : ∀ item, Through (body item)) :
    Through (Program.forEach items body) := by
  induction items with
  | nil => exact .done ()
  | cons item rest ih => exact (each item).bind fun _ => ih

theorem Through.of_uses {program : Prog α} (uses : program.Uses Plain) : Through program := by
  induction program with
  | done value => exact .done value
  | call operation next ih => exact .call uses.1 fun reply => ih reply (uses.2 reply)

theorem probe_plain (id : Uuid) : (findBlockingPause id).Uses Plain := by
  refine (findBlockingPause_uses id).mono fun operation probes => ?_
  unfold Op.Probes at probes
  split at probes
  · exact trivial
  · exact trivial
  · exact probes.elim

theorem loadParents_plain (ids : List Uuid) : (loadParents ids).Uses Plain := by
  induction ids with
  | nil => exact trivial
  | cons id rest ih =>
      refine .first trivial fun found => ?_
      cases found with
      | none => exact trivial
      | some parent =>
          refine ih.bind fun loaded => ?_
          cases loaded <;> exact trivial

theorem initialStatus_plain (parents : List Job) : (initialStatus parents).Uses Plain := by
  have probes : (probeParents parents).Uses Plain := by
    induction parents with
    | nil => exact trivial
    | cons parent rest ih =>
        refine (probe_plain _).bind fun held => ?_
        cases held with
        | none => exact ih
        | some _ => exact trivial
  unfold initialStatus
  split
  · exact trivial
  · refine probes.bind fun held => ?_
    cases held <;> exact trivial

theorem finishCreate_plain (create : CreateJobRequest) (status : JobStatus) (job : Job) :
    (finishCreate create status job).Uses Plain := by
  have edges : (addDependencies job create.dependencies).Uses Plain := by
    unfold addDependencies
    split
    · exact trivial
    · exact ⟨trivial, fun _ => trivial⟩
  refine edges.bind fun added => ?_
  split
  · refine .first trivial fun _ => ?_
    dsimp only
    split
    · exact ⟨rfl, fun _ => trivial⟩
    · exact trivial
  · exact trivial

theorem createJob_plain (settings : Settings) (create : CreateJobRequest) :
    (createJob settings create).Uses Plain := by
  have lookup : (findIdempotent create).Uses Plain := by
    unfold findIdempotent
    split
    · exact trivial
    · split
      · exact trivial
      · exact ⟨trivial, fun _ => trivial⟩
  have winner : (idempotencyWinner create).Uses Plain := by
    unfold idempotencyWinner
    split
    · exact trivial
    · refine .first trivial fun found => ?_
      cases found <;> exact trivial
  refine lookup.bind fun existing => ?_
  cases existing with
  | some job => exact trivial
  | none =>
      refine (loadParents_plain _).bind fun loaded => ?_
      cases loaded with
      | error error => exact trivial
      | ok parents =>
          refine (initialStatus_plain parents).bind fun status => ⟨trivial, fun inserted => ?_⟩
          cases inserted with
          | none => exact winner
          | some job => exact finishCreate_plain create status job

theorem createSaga_plain (settings : Settings) (create : CreateSagaRequest) :
    (createSaga settings create).Uses Plain := by
  have steps : ∀ saga index previous steps,
      (createSteps settings create saga index previous steps).Uses Plain := by
    intro saga index previous steps
    induction steps generalizing index previous with
    | nil => exact trivial
    | cons step rest ih =>
        refine (createJob_plain settings _).bind fun created => ?_
        cases created with
        | error error => exact trivial
        | ok job => exact ih _ _
  unfold createSaga
  split
  · exact trivial
  · refine .first trivial fun saga => (steps ..).bind fun created => ?_
    cases created with
    | error error => exact trivial
    | ok _ => exact ⟨trivial, fun _ => trivial⟩

theorem request_through {handler : Prog (Except ServiceError α)} (through : Through handler) :
    Through (request handler) := by
  refine through.bind fun result => ?_
  cases result <;> exact .call trivial fun _ => .done ()

theorem replayJob_through (id tenant : Uuid) (principal : Principal) :
    Through (replayJob id tenant principal) := by
  refine .first trivial fun found => ?_
  cases found with
  | none => exact .done _
  | some job =>
      dsimp only
      split
      · exact .done _
      · refine (Through.of_uses (probe_plain id)).bind fun held => ?_
        cases held with
        | some _ => exact .done _
        | none =>
            refine .update fun updated => .first trivial fun _ => .first rfl fun _ => ?_
            cases updated <;> exact .done _

theorem settleDeadLetter_through (id : Uuid) (job : Job) (write : StatusWrite)
    (message : Option String) (details : List (String × Json)) :
    Through (settleDeadLetter id job write message details) :=
  .update fun _ => .first trivial fun _ => .call trivial fun _ => .done ()

theorem runClaimed_through (settings : Settings) (id : Uuid) (job : Job) :
    Through (runClaimed settings id job) := by
  refine .first trivial fun _ => ?_
  split
  · exact settleDeadLetter_through ..
  · refine .first trivial fun result => ?_
    cases result with
    | returned result => exact .update fun _ => .first trivial fun _ => .call trivial fun _ => .done ()
    | timedOut => exact settleDeadLetter_through ..
    | raised error =>
        have consult : (consultRetryPolicy settings job error).Uses Plain := by
          unfold consultRetryPolicy
          dsimp only
          split
          · refine .first trivial fun decision => ?_
            split <;> exact trivial
          · exact trivial
        refine (Through.of_uses consult).bind fun decision => ?_
        cases decision with
        | inr reasoning => exact settleDeadLetter_through ..
        | inl delay =>
            dsimp only
            split
            · exact .update fun _ => .first rfl fun _ => .first trivial fun _ =>
                .call trivial fun _ => .done ()
            · exact settleDeadLetter_through ..

theorem runJob_through (settings : Settings) (id : Uuid) : Through (runJob settings id) := by
  have admission : (loadAndClaim id).Uses Plain := by
    refine .first trivial fun found => ?_
    cases found with
    | none => exact ⟨trivial, fun _ => trivial⟩
    | some job =>
        dsimp only
        split
        · exact ⟨trivial, fun _ => trivial⟩
        · refine (probe_plain _).bind fun held => ?_
          cases held with
          | some _ => exact ⟨trivial, fun _ => trivial⟩
          | none => exact ⟨trivial, fun _ => ⟨trivial, fun _ => trivial⟩⟩
  refine (Through.of_uses admission).bind fun outcome => ?_
  cases outcome with
  | skipped => exact .done ()
  | held _ => exact .call trivial fun _ => .done ()
  | claimed job => exact runClaimed_through settings id job

theorem promoteChild_plain (id : Uuid) (child : Job) : (promoteChild id child).Uses Plain := by
  refine (probe_plain _).bind fun held => ?_
  cases held with
  | some _ => exact trivial
  | none =>
      refine .first trivial fun promoted => ?_
      split
      · exact ⟨rfl, fun _ => trivial⟩
      · exact trivial

theorem promoteDelayedOnce_plain : promoteDelayedOnce.Uses Plain := by
  refine .first trivial fun ready => Program.Uses.forEach fun id => .first trivial fun found => ?_
  cases found with
  | none => exact ⟨trivial, fun _ => trivial⟩
  | some job =>
      refine (probe_plain _).bind fun held => ?_
      cases held with
      | none => exact ⟨rfl, fun _ => ⟨trivial, fun _ => trivial⟩⟩
      | some _ => exact ⟨trivial, fun _ => ⟨trivial, fun _ => trivial⟩⟩

theorem outboxRelayTick_plain (settings : Settings) : (outboxRelayTick settings).Uses Plain := by
  have publish : ∀ rows batch, (publishBatch settings rows batch).Uses Plain := by
    intro rows
    induction rows with
    | nil => exact fun _ => trivial
    | cons row rest ih =>
        refine fun batch => .first trivial fun result => ?_
        cases result with
        | acknowledged => exact ih _
        | schemaInvalid error => exact ih _
        | refused error =>
            dsimp only
            split <;> exact ih _
  refine .first trivial fun events => .first trivial fun _ => ?_
  split
  · exact trivial
  · refine (publish _ _).bind fun batch => ?_
    have marked : (markPublished batch.published).Uses Plain := by
      unfold markPublished
      split
      · exact trivial
      · exact ⟨trivial, fun _ => ⟨trivial, fun _ => trivial⟩⟩
    have counted : (incrementAttempts batch.retry).Uses Plain := by
      unfold incrementAttempts
      split
      · exact trivial
      · exact ⟨trivial, fun _ => trivial⟩
    exact marked.bind fun _ => counted.bind fun _ => Program.Uses.bind
      (Program.Uses.forEach fun row => ⟨trivial, fun _ => ⟨trivial, fun _ => trivial⟩⟩)
      fun _ => ⟨trivial, fun _ => trivial⟩

theorem sweepStaleRunningOnce_through (settings : Settings) :
    Through (sweepStaleRunningOnce settings) := by
  refine .first trivial fun scan => .first trivial fun rows => .first trivial fun _ =>
    .first trivial fun now => .forEach fun job => .first trivial fun inFlight => ?_
  split
  · exact .done ()
  · refine .update fun settled => ?_
    cases settled with
    | none => exact .call trivial fun _ => .done ()
    | some _ => exact .first trivial fun _ => .call trivial fun _ => .done ()

theorem promoteDlqReplayOnce_through : Through promoteDlqReplayOnce := by
  refine .first trivial fun ready => .forEach fun member => ?_
  refine (Through.of_uses (probe_plain _)).bind fun held => ?_
  cases held with
  | some _ =>
      exact .first trivial fun _ => .first trivial fun _ => .first trivial fun _ =>
        .call trivial fun _ => .done ()
  | none =>
      exact Through.bind (request_through (replayJob_through _ _ _)) fun _ =>
        .call trivial fun _ => .done ()

theorem resolveDependents_plain (parent : Uuid) : (resolveDependents parent).Uses Plain := by
  refine .first trivial fun children => ?_
  refine .bind (.forEach fun id => .first trivial fun found => ?_) fun _ =>
    ⟨trivial, fun _ => trivial⟩
  cases found with
  | none => exact trivial
  | some child =>
      dsimp only
      split
      · exact trivial
      · refine .first trivial fun unmet => ?_
        split
        · exact trivial
        · exact promoteChild_plain id child

theorem coordinateSaga_through (topic : Topic) (id : Uuid) : Through (coordinateSaga topic id) := by
  have settle : ∀ held saga, Through (settleIfDrained held saga) := by
    refine fun held saga => .first trivial fun steps => ?_
    dsimp only
    split
    · exact .done ()
    · exact .first trivial fun _ => .first trivial fun _ => .call trivial fun _ => .done ()
  have complete : ∀ held saga, Through (handleCompletion held saga) := by
    refine fun held saga => .first trivial fun steps => ?_
    dsimp only
    split
    · exact .done ()
    · split
      · exact .first trivial fun _ => .first trivial fun _ => .call trivial fun _ => .done ()
      · exact .done ()
  have compensate : ∀ saga user done, Through (emitCompensation saga user done) := by
    refine fun saga user done => .first trivial fun inserted => ?_
    cases inserted with
    | none => exact .done ()
    | some job => exact .call rfl fun _ => .done ()
  have fail : ∀ failed saga, Through (handleFailure failed saga) := by
    refine fun failed saga => .first trivial fun _ => .first trivial fun waiting => ?_
    refine Through.bind (.forEach fun step => .update fun _ => .done ()) fun _ => ?_
    refine .first trivial fun completed => ?_
    refine Through.bind (.forEach fun done => compensate saga failed.userId done) fun _ => ?_
    refine .first trivial fun _ => ?_
    split
    · exact settle failed saga
    · exact .done ()
  have ending : Through commit := .call trivial fun _ => .done ()
  refine .first trivial fun found => ?_
  cases found with
  | none => exact ending
  | some job =>
      dsimp only
      split
      · exact ending
      · refine .first trivial fun found => ?_
        cases found with
        | none => exact ending
        | some saga =>
            refine Through.bind ?_ fun _ => ending
            unfold routeSagaEvent
            dsimp only
            split
            · split
              · exact complete job saga
              · split
                · exact fail job saga
                · exact .done ()
            · split
              · exact settle job saga
              · exact .done ()

theorem plain_of_arms (operation : Op) (arms : operation.Arms) : Plain operation := by
  cases operation with
  | query query => cases query <;> first | exact trivial | exact arms.elim
  | statement issued => cases issued <;> first | exact trivial | exact arms.elim
  | _ => exact trivial

/-- Every program of the platform goes through `update_status`. -/
theorem program_through (settings : Settings) (role : Role) : Through (role.program settings) := by
  cases role with
  | createJob create => exact request_through (.of_uses (createJob_plain settings create))
  | createSaga create => exact request_through (.of_uses (createSaga_plain settings create))
  | replay id tenant principal => exact request_through (replayJob_through id tenant principal)
  | replayEach ids tenant principal =>
      exact Through.bind (.forEach fun id => (replayJob_through id tenant principal).bind fun _ => .done ())
        fun _ => .call trivial fun _ => .done ()
  | scheduleEach ids tenant principal delaySeconds details =>
      exact .of_uses ((scheduleEach_uses ids tenant principal delaySeconds details).mono plain_of_arms)
  | resolveIncident id user tenant =>
      refine request_through (.first trivial fun found => ?_)
      cases found with
      | none => exact .done _
      | some job =>
          refine .update fun updated => .first trivial fun _ => ?_
          cases updated <;> exact .done _
  | deliver id => exact runJob_through settings id
  | redeliver id => exact runJob_through settings id
  | forceDeadLetter id error =>
      refine .first trivial fun found => ?_
      cases found with
      | none => exact .call trivial fun _ => .done ()
      | some job =>
          dsimp only
          split
          · exact .call trivial fun _ => .done ()
          · exact settleDeadLetter_through ..
  | promoteDelayed => exact .of_uses promoteDelayedOnce_plain
  | resumeUnblockedWaiting cursor =>
      refine .of_uses (.first trivial fun rows => ?_)
      exact .bind (.forEach fun child => promoteChild_plain child.id child) fun _ =>
        ⟨trivial, fun _ => trivial⟩
  | requeueStalePending =>
      refine .of_uses (.first trivial fun now => .first trivial fun rows => ?_)
      refine .bind (.forEach fun job => .first trivial fun score => ?_) fun _ =>
        ⟨trivial, fun _ => trivial⟩
      cases score with
      | some _ => exact trivial
      | none => exact ⟨rfl, fun _ => ⟨trivial, fun _ => trivial⟩⟩
  | sweepStaleRunning => exact sweepStaleRunningOnce_through settings
  | renewRunningLeases ids =>
      show Through (renewRunningLeasesOnce settings ids)
      unfold renewRunningLeasesOnce
      split
      · exact .done ()
      · exact .first trivial fun _ => .first trivial fun _ => .call trivial fun _ => .done ()
  | promoteDlqReplay => exact promoteDlqReplayOnce_through
  | outboxRelay => exact .of_uses (outboxRelayTick_plain settings)
  | resolveDependents parent => exact .of_uses (resolveDependents_plain parent)
  | coordinateSaga topic id => exact coordinateSaga_through topic id

end Platform

def ofRole (role : Role) : Session := ⟨role.program Settings.defaults, program_through _ role⟩

def startSession (pid : Pid) (role : Role) : List (Label Session Change) := [.spawn pid (ofRole role)]

def sessionTurns (pid : Pid) (count : Nat) : List (Label Session Change) :=
  .replicate count (.run pid)

/-- The clock reads `clock` and the next id is `uuid`. -/
def readAt (clock uuid : Nat) : List (Label Session Change) :=
  [.environment (.outside { readings clock .timedOut with uuid })]

def report (dependencies : List Uuid) : Role :=
  .createJob { userId := 7, tenantId := 1, jobType := "report_gen", dependencies }

def committing (pool : SessionPool) (pid : Pid) : Bool :=
  match pool.process pid with
  | some { program := .call .commit _, .. } => true
  | _ => false

theorem stands_of_committing {pool : SessionPool} {pid : Pid} (check : committing pool pid = true) :
    ∃ session next, pool.process pid = some { role := session, program := .call .commit next } := by
  unfold committing at check
  split at check
  · rename_i session next found
    exact ⟨session, next, found⟩
  · cases check

def twoParents : List (Label Session Change) :=
  readAt 1 1 ++ startSession 1 (report []) ++ sessionTurns 1 4 ++
  readAt 2 2 ++ startSession 2 (report []) ++ sessionTurns 2 4 ++
  readAt 3 3 ++ startSession 3 (report [1, 2]) ++ sessionTurns 3 6

def firstDies : List (Label Session Change) :=
  startSession 4 (.forceDeadLetter 1 "lost") ++ readAt 4 11 ++ sessionTurns 4 8 ++ readAt 4 12 ++
  sessionTurns 4 3

/-- Job 2 is dead-lettered in the same microsecond: its cascade finds job 3
WAITING, and goes on when the other one has committed. -/
def bothDie : List (Label Session Change) :=
  startSession 5 (.forceDeadLetter 2 "lost") ++ readAt 4 10 ++ sessionTurns 5 6 ++
  firstDies ++ sessionTurns 4 1 ++ sessionTurns 5 2 ++ readAt 4 13 ++ sessionTurns 5 3

/-- The transaction that cancels job 3 announces what it wrote. -/
theorem terminal_events_match_writes_of_first_death :
    ∃ origin pool session next, repository.Reaches (.initial origin) pool ∧
      pool.process 4 = some { role := session, program := .call .commit next } ∧
      writes .cancelled 3 (traceOf 4 pool.log) = 1 ∧
      ∀ status job, status.terminal → events (terminalTopic status) job (traceOf 4 pool.log) =
        writes status job (traceOf 4 pool.log) := by
  obtain ⟨pool, reached, checked⟩ : ∃ pool : SessionPool,
      repository.Reaches (.initial (.fresh (readings 1 .timedOut))) pool ∧
      (committing pool 4 && writes .cancelled 3 (traceOf 4 pool.log) = 1 &&
        strayReads 4 (transaction 4 pool.log) = []) = true :=
    System.exists_reached (show (repository.run (twoParents ++ firstDies) _).any _ = true by
      decide +kernel)
  simp only [Bool.and_eq_true, decide_eq_true_eq] at checked
  obtain ⟨⟨stands, once⟩, faithful⟩ := checked
  obtain ⟨session, next, found⟩ := stands_of_committing stands
  have keyed : ∀ job, ((World.fresh (readings 1 .timedOut)).jobs.slot job).All fun row => row.id = job :=
    fun job => ⟨fun _ stored => (by cases stored), fun _ _ held => (by cases held)⟩
  exact ⟨_, pool, session, next, reached, found, once,
    (terminal_events_match_writes_iff keyed reached found).mpr faithful⟩

/-- The second transaction announces a cancellation that it did not write. -/
theorem stray_cancellation_announced :
    ∃ origin pool session next, repository.Reaches (.initial origin) pool ∧
      pool.process 5 = some { role := session, program := .call .commit next } ∧
      events .cancelled 3 (traceOf 5 pool.log) = 1 ∧ writes .cancelled 3 (traceOf 5 pool.log) = 0 := by
  obtain ⟨pool, reached, checked⟩ : ∃ pool : SessionPool,
      repository.Reaches (.initial (.fresh (readings 1 .timedOut))) pool ∧
      (committing pool 5 && events .cancelled 3 (traceOf 5 pool.log) = 1 &&
        writes .cancelled 3 (traceOf 5 pool.log) = 0) = true :=
    System.exists_reached (show (repository.run (twoParents ++ bothDie) _).any _ = true by
      decide +kernel)
  simp only [Bool.and_eq_true, decide_eq_true_eq] at checked
  obtain ⟨⟨stands, announced⟩, unwritten⟩ := checked
  obtain ⟨session, next, found⟩ := stands_of_committing stands
  exact ⟨_, pool, session, next, reached, found, announced, unwritten⟩

end IncidentPlatform.Properties

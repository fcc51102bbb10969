import IncidentPlatform.Platform.Rows
import IncidentPlatform.Workers.OutboxRelay
import Mathlib.Data.List.Induction

namespace IncidentPlatform.Properties

open Concurrency Models Platform Services Storage Workers

/-! # The relay neither loses nor falsely delivers

Every committed row of the outbox is delivered, dead-lettered or still eligible,
whatever the publishes answer and wherever a tick is cut short.
-/

/-- What the marking transaction does to one row. -/
inductive Mark where
  | published
  | retry
  | failed (error : String)

def markOf (settings : Settings) : PublishAttempt → Mark
  | (_, .acknowledged) => .published
  | (_, .schemaInvalid error) => .failed ("schema validation failed: " ++ error)
  | (row, .refused error) =>
      if settings.outboxMaxAttempts ≤ row.attempts + 1 then
        .failed ("abandoned after " ++ toString (row.attempts + 1) ++ " attempts: " ++ error)
      else .retry

def Mark.Applied : Mark → OutboxRow → OutboxRow → Prop
  | .published, row, marked => ∃ stamp, marked = { row with publishedAt := some stamp }
  | .retry, row, marked => marked = { row with attempts := row.attempts + 1 }
  | .failed error, row, marked => ∃ stamp, marked = { row with
      publishedAt := some stamp, failedAt := some stamp, errorMessage := some (error.take 900).toString }

def addAttempt (settings : Settings) (batch : RelayBatch) (attempt : PublishAttempt) : RelayBatch :=
  match markOf settings attempt with
  | .published => { batch with published := batch.published ++ [attempt.1.id] }
  | .retry => { batch with retry := batch.retry ++ [attempt.1.id] }
  | .failed error => { batch with deadLettered := batch.deadLettered ++ [(attempt.1.id, error)] }

def batchOf (settings : Settings) (attempts : List PublishAttempt) : RelayBatch :=
  attempts.foldl (addAttempt settings) {}

theorem publishBatch_cons (settings : Settings) (row : OutboxRow) (rest : List OutboxRow)
    (batch : RelayBatch) :
    publishBatch settings (row :: rest) batch =
      .call (.publishRaw row) fun result =>
        publishBatch settings rest (addAttempt settings batch (row, result)) := by
  show Program.call _ _ = Program.call _ _
  congr 1
  funext result
  cases result with
  | acknowledged => rfl
  | schemaInvalid error => rfl
  | refused error =>
      simp only [addAttempt, markOf]
      by_cases capped : settings.outboxMaxAttempts ≤ row.attempts + 1
      · simp [capped]
      · simp [capped]

theorem batchOf_append (settings : Settings) (attempts : List PublishAttempt) (attempt : PublishAttempt) :
    batchOf settings (attempts ++ [attempt]) = addAttempt settings (batchOf settings attempts) attempt := by
  rw [batchOf, List.foldl_append]
  rfl

/-- One statement of the marking transaction. -/
inductive Marking where
  | published (ids : List Uuid)
  | retry (ids : List Uuid)
  | failed (id : Uuid) (error : String)

namespace Marking

def program : Marking → Prog Unit
  | .published ids => do
      let now ← observe .now
      exec (.markPublished ids now)
  | .retry ids => exec (.incrementAttempts ids)
  | .failed id error => markFailed (id, error)

def ids : Marking → List Uuid
  | .published ids | .retry ids => ids
  | .failed id _ => [id]

def mark : Marking → Mark
  | .published _ => .published
  | .retry _ => .retry
  | .failed _ error => .failed error

/-- The statement, stamped with the time read before it. -/
def statement (now : Time) : Marking → Statement
  | .published ids => .markPublished ids now
  | .retry ids => .incrementAttempts ids
  | .failed id error => .markFailed [id] now error

end Marking

def markings (batch : RelayBatch) : List Marking :=
  (if batch.published.isEmpty then [] else [.published batch.published]) ++
  (if batch.retry.isEmpty then [] else [.retry batch.retry]) ++
  batch.deadLettered.map fun row => .failed row.1 row.2

def markAll (todo : List Marking) : Prog Unit :=
  (Program.forEach todo Marking.program).bind fun _ => commit

theorem markAll_markings (batch : RelayBatch) :
    ((markPublished batch.published).bind fun _ => (incrementAttempts batch.retry).bind fun _ =>
      (Program.forEach batch.deadLettered markFailed : Prog Unit).bind fun _ => commit) =
      markAll (markings batch) := by
  have dead : (Program.forEach (batch.deadLettered.map fun row => Marking.failed row.1 row.2)
      Marking.program : Prog Unit) = Program.forEach batch.deadLettered markFailed :=
    Program.forEach_map batch.deadLettered (fun row => Marking.failed row.1 row.2) Marking.program
  rw [markAll, markings, Program.forEach_append, Program.forEach_append, dead]
  simp only [Program.bind_assoc]
  unfold markPublished incrementAttempts
  by_cases published : batch.published.isEmpty <;> by_cases retry : batch.retry.isEmpty <;>
    simp [published, retry, Program.forEach, Marking.program, Program.bind_assoc]

section Covered

variable {settings : Settings} {attempts : List PublishAttempt} {batch : RelayBatch}

theorem flatMap_markings (batch : RelayBatch) :
    (markings batch).flatMap Marking.ids =
      batch.published ++ batch.retry ++ batch.deadLettered.map Prod.fst := by
  have dead : (batch.deadLettered.map fun row => Marking.failed row.1 row.2).flatMap Marking.ids =
      batch.deadLettered.map Prod.fst := by
    induction batch.deadLettered with
    | nil => rfl
    | cons row rest ih => simpa [Marking.ids] using ih
  rw [markings, List.flatMap_append, List.flatMap_append, dead]
  cases batch.published <;> cases batch.retry <;> simp [Marking.ids]

theorem addAttempt_perm (settings : Settings) (batch : RelayBatch) (attempt : PublishAttempt) :
    ((markings (addAttempt settings batch attempt)).flatMap Marking.ids).Perm
      ((markings batch).flatMap Marking.ids ++ [attempt.1.id]) := by
  rw [flatMap_markings, flatMap_markings, addAttempt]
  cases markOf settings attempt with
  | published =>
      simp only [List.append_assoc]
      rw [← List.append_assoc batch.retry]
      exact List.Perm.append_left _ List.perm_append_comm
  | retry =>
      simp only [List.append_assoc]
      exact List.Perm.append_left _ (List.Perm.append_left _ List.perm_append_comm)
  | failed error => simp

theorem markings_perm (settings : Settings) (attempts : List PublishAttempt) :
    ((markings (batchOf settings attempts)).flatMap Marking.ids).Perm
      (attempts.map fun attempt => attempt.1.id) := by
  induction attempts using List.reverseRecOn with
  | nil => exact .nil
  | append_singleton attempts attempt ih =>
      rw [batchOf_append, List.map_append]
      exact (addAttempt_perm settings _ attempt).trans (ih.append_right _)

theorem mark_of_marking {marking : Marking} {id : Uuid}
    (planned : marking ∈ markings (batchOf settings attempts)) (covered : id ∈ marking.ids) :
    ∃ attempt ∈ attempts, attempt.1.id = id ∧ markOf settings attempt = marking.mark := by
  have lists : (∀ id ∈ (batchOf settings attempts).published,
        ∃ attempt ∈ attempts, attempt.1.id = id ∧ markOf settings attempt = .published) ∧
      (∀ id ∈ (batchOf settings attempts).retry,
        ∃ attempt ∈ attempts, attempt.1.id = id ∧ markOf settings attempt = .retry) ∧
      ∀ row ∈ (batchOf settings attempts).deadLettered,
        ∃ attempt ∈ attempts, attempt.1.id = row.1 ∧ markOf settings attempt = .failed row.2 := by
    clear planned covered
    induction attempts using List.reverseRecOn with
    | nil => simp [batchOf]
    | append_singleton attempts attempt ih =>
        obtain ⟨published, retry, dead⟩ := ih
        rw [batchOf_append, addAttempt]
        cases mark : markOf settings attempt <;> grind
  obtain ⟨published, retry, dead⟩ := lists
  simp only [markings, List.mem_append, List.mem_map] at planned
  obtain (planned | planned) | ⟨row, member, rfl⟩ := planned
  · split at planned
    · cases planned
    · cases List.mem_singleton.mp planned
      exact published id covered
  · split at planned
    · cases planned
    · cases List.mem_singleton.mp planned
      exact retry id covered
  · cases List.mem_singleton.mp covered
    exact dead row member

end Covered

def publishFrom (settings : Settings) (rest : List OutboxRow) (batch : RelayBatch) : Prog Unit :=
  (publishBatch settings rest batch).bind fun batch => markAll (markings batch)

def publishAll (settings : Settings) (events : List OutboxRow) : Prog Unit :=
  if events.isEmpty then .done () else publishFrom settings events {}

theorem outboxRelayTick_eq (settings : Settings) :
    outboxRelayTick settings =
      .call (.query (.unpublished outboxRelayBatch settings.outboxMaxAttempts)) fun events =>
        .call .commit fun _ => publishAll settings events := by
  show Program.call _ _ = Program.call _ _
  congr 1
  funext events
  show Program.call _ _ = Program.call _ _
  congr 1
  funext _
  simp only [publishAll, publishFrom, ← markAll_markings]
  rfl

def OutboxClosed (world : World) : Prop := ∀ id, (world.outbox.slot id).holder = none

/-- The rows of a batch are still as the fetch read them. -/
structure Batch (world : World) (events : List OutboxRow) : Prop where
  distinct : (events.map OutboxRow.id).Nodup
  stored : ∀ event ∈ events, world.outbox.committed event.id = some event
  unpublished : ∀ event ∈ events, event.publishedAt = none

/-- The rows that `done` marks are open and marked, and no others are open. -/
structure Marked (world : World) (done : List Marking) : Prop where
  covered : ∀ marking ∈ done, ∀ id ∈ marking.ids, ∃ row marked,
    world.outbox.committed id = some row ∧
    (world.outbox.slot id).holder = some (relaySession, marked) ∧ marking.mark.Applied row marked
  others : ∀ id, id ∉ done.flatMap Marking.ids → (world.outbox.slot id).holder = none

/-- Where the relay stands, and what is open there. -/
inductive Phase (settings : Settings) (relay : OutboxRelay) : Prop where
  | idle (tick : relay.tick = none) (unsent : relay.attempts = []) (closed : OutboxClosed relay.world)
  | fetching (tick : relay.tick = some (outboxRelayTick settings)) (unsent : relay.attempts = [])
      (closed : OutboxClosed relay.world)
  | fetched {events : List OutboxRow}
      (tick : relay.tick = some (.call .commit fun _ => publishAll settings events))
      (fetched : relay.fetched = events) (unsent : relay.attempts = [])
      (closed : OutboxClosed relay.world) (batch : Batch relay.world events)
  | publishing {row : OutboxRow} {rest : List OutboxRow}
      (tick : relay.tick = some (publishFrom settings (row :: rest) (batchOf settings relay.attempts)))
      (fetched : relay.fetched = relay.attempts.map Prod.fst ++ row :: rest)
      (closed : OutboxClosed relay.world)
      (batch : Batch relay.world (relay.attempts.map Prod.fst ++ row :: rest))
  | marking {done todo : List Marking}
      (planned : markings (batchOf settings relay.attempts) = done ++ todo)
      (tick : relay.tick = some (markAll todo)) (marked : Marked relay.world done)
      (batch : Batch relay.world (relay.attempts.map Prod.fst))
  | stamping {done todo : List Marking} {marking : Marking} {now : Time}
      (planned : markings (batchOf settings relay.attempts) = done ++ marking :: todo)
      (tick : relay.tick = some (.call (.statement (marking.statement now)) fun _ => markAll todo))
      (marked : Marked relay.world done) (batch : Batch relay.world (relay.attempts.map Prod.fst))
  | ended (tick : relay.tick = some (.done ())) (unsent : relay.attempts = [])
      (closed : OutboxClosed relay.world)

def refusals (attempts : List PublishAttempt) (id : Uuid) : Nat :=
  attempts.countP fun
    | (row, .refused _) => row.id = id
    | _ => false

def SchemaFailed (attempts : List PublishAttempt) (id : Uuid) : Prop :=
  ∃ row error, (row, PublishResult.schemaInvalid error) ∈ attempts ∧ row.id = id

/-- What a committed row says about the publishes recorded for it. -/
structure RowKept (settings : Settings) (relay : OutboxRelay) (id : Uuid) (row : OutboxRow) : Prop where
  keyed : row.id = id
  eligible : row.publishedAt = none → row.failedAt = none ∧
    (0 < settings.outboxMaxAttempts → row.attempts < settings.outboxMaxAttempts) ∧
    row.attempts = refusals relay.recorded id
  delivered : row.publishedAt.isSome → row.failedAt = none → ∃ sent ∈ relay.world.broker, sent.id = id
  dead : row.failedAt.isSome → row.publishedAt.isSome ∧
    (SchemaFailed relay.recorded id ∨ settings.outboxMaxAttempts ≤ refusals relay.recorded id)

structure RelayKept (settings : Settings) (relay : OutboxRelay) : Prop where
  rows : ∀ id row, relay.world.outbox.committed id = some row → RowKept settings relay id row
  acknowledged : ∀ row, (row, PublishResult.acknowledged) ∈ relay.attempts → row ∈ relay.world.broker
  known : ∀ attempt ∈ relay.recorded, ∃ row, relay.world.outbox.committed attempt.1.id = some row
  phase : Phase settings relay

section Writers

variable {settings : Settings} {relay : OutboxRelay} {world after : World}

theorem insertAll_slot {rows : List OutboxRow} {outbox inserted : Table Uuid OutboxRow}
    (added : insertAll rows outbox = some inserted) (id : Uuid) :
    inserted.slot id = outbox.slot id ∨
      outbox.slot id = { committed := none, holder := none } ∧ ∃ row ∈ rows, row.id = id ∧
        inserted.slot id = { committed := none, holder := some (writerSession, row) } := by
  induction rows generalizing outbox with
  | nil =>
      cases added
      exact .inl rfl
  | cons row rest ih =>
      obtain ⟨next, first, others⟩ := Option.bind_eq_some_iff.mp added
      obtain ⟨different, kept⟩ | ⟨rfl, empty, wrote⟩ := Table.insert_slot first id
      · rw [← kept]
        obtain same | ⟨empty, later, member, named, written⟩ := ih others
        · exact .inl same
        · exact .inr ⟨empty, later, List.mem_cons_of_mem _ member, named, written⟩
      · refine .inr ⟨empty, row, List.mem_cons_self, rfl, ?_⟩
        rw [empty] at wrote
        obtain same | ⟨taken, _⟩ := ih others
        · rw [same, wrote]
          rfl
        · rw [wrote] at taken
          cases taken

def Unsent (row : OutboxRow) : Prop :=
  row.publishedAt = none ∧ row.failedAt = none ∧ row.attempts = 0

/-- Rows are added and the ones that were there are left alone. -/
structure Extended (world after : World) : Prop where
  slots : ∀ id, after.outbox.slot id = world.outbox.slot id ∨
    world.outbox.slot id = { committed := none, holder := none } ∧ ∃ row, row.id = id ∧ Unsent row ∧
      after.outbox.slot id = { committed := some row, holder := none }
  broker : after.broker = world.broker

theorem commit_writer {slot : Slot OutboxRow} (free : ∀ row, slot.holder ≠ some (writerSession, row)) :
    slot.commit writerSession = slot := by
  obtain ⟨row, held, _⟩ | ⟨_, same⟩ := slot.commit_cases writerSession
  · exact absurd held (free row)
  · exact same

theorem extended_of_transaction {began : Time} {drafts : List OutboxDraft}
    {inserted : Table Uuid OutboxRow}
    (free : ∀ id row, (world.outbox.slot id).holder ≠ some (writerSession, row))
    (added : insertAll (drafts.map (OutboxDraft.row began)) world.outbox = some inserted) :
    Extended world { world with outbox := inserted.commit writerSession } := by
  refine ⟨fun id => ?_, rfl⟩
  have commits := Table.commit_slot inserted writerSession id
  obtain same | ⟨empty, row, member, named, written⟩ := insertAll_slot added id
  · refine .inl ?_
    rw [commits, same]
    exact commit_writer (free id)
  · obtain ⟨draft, _, rfl⟩ := List.mem_map.mp member
    refine .inr ⟨empty, _, named, ⟨rfl, rfl, rfl⟩, ?_⟩
    rw [commits, written]
    rfl

theorem Extended.committed (extended : Extended world after) {id : Uuid} {row : OutboxRow}
    (stored : world.outbox.committed id = some row) :
    after.outbox.slot id = world.outbox.slot id := by
  obtain same | ⟨empty, _⟩ := extended.slots id
  · exact same
  · have absent : world.outbox.committed id = none := congrArg Slot.committed empty
    rw [absent] at stored
    cases stored

theorem Extended.closed (extended : Extended world after) (closed : OutboxClosed world) :
    OutboxClosed after := by
  intro id
  obtain same | ⟨_, row, _, _, added⟩ := extended.slots id
  · rw [same]
    exact closed id
  · rw [added]

theorem Extended.batch {events : List OutboxRow} (extended : Extended world after)
    (batch : Batch world events) : Batch after events := by
  refine { batch with stored := fun event member => ?_ }
  have stored := batch.stored event member
  rw [← Table.slot_committed, extended.committed stored]
  exact stored

theorem Extended.marked {done : List Marking} (extended : Extended world after)
    (marked : Marked world done) : Marked after done := by
  constructor
  · intro marking member id covered
    obtain ⟨row, version, stored, held, applied⟩ := marked.covered marking member id covered
    have same := extended.committed stored
    exact ⟨row, version, (congrArg Slot.committed same).trans stored,
      (congrArg Slot.holder same).trans held, applied⟩
  · intro id uncovered
    obtain same | ⟨_, row, _, _, added⟩ := extended.slots id
    · rw [same]
      exact marked.others id uncovered
    · rw [added]

theorem Phase.extended (extended : Extended relay.world after) (phase : Phase settings relay) :
    Phase settings { relay with world := after } := by
  cases phase with
  | idle tick unsent closed => exact .idle tick unsent (extended.closed closed)
  | fetching tick unsent closed => exact .fetching tick unsent (extended.closed closed)
  | fetched tick fetched unsent closed batch =>
      exact .fetched tick fetched unsent (extended.closed closed) (extended.batch batch)
  | publishing tick fetched closed batch =>
      exact .publishing tick fetched (extended.closed closed) (extended.batch batch)
  | marking planned tick marked batch =>
      exact .marking planned tick (extended.marked marked) (extended.batch batch)
  | stamping planned tick marked batch =>
      exact .stamping planned tick (extended.marked marked) (extended.batch batch)
  | ended tick unsent closed => exact .ended tick unsent (extended.closed closed)

theorem refusals_eq_zero {attempts : List PublishAttempt} {id : Uuid}
    (unknown : ∀ attempt ∈ attempts, attempt.1.id ≠ id) : refusals attempts id = 0 := by
  refine List.countP_eq_zero.mpr fun attempt member => ?_
  obtain ⟨row, result⟩ := attempt
  cases result with
  | refused error => simpa using unknown _ member
  | _ => simp

theorem RelayKept.extended (extended : Extended relay.world after) (kept : RelayKept settings relay) :
    RelayKept settings { relay with world := after } := by
  refine ⟨?_, ?_, ?_, kept.phase.extended extended⟩
  · intro id row stored
    have storedSlot : (after.outbox.slot id).committed = some row := stored
    obtain same | ⟨empty, new, named, ⟨unpublished, unfailed, untried⟩, added⟩ := extended.slots id
    · rw [same] at storedSlot
      have old := kept.rows id row storedSlot
      refine ⟨old.keyed, old.eligible, fun published unfailed => ?_, old.dead⟩
      simpa only [extended.broker] using old.delivered published unfailed
    · rw [added] at storedSlot
      cases storedSlot
      have absent : relay.world.outbox.committed id = none := congrArg Slot.committed empty
      have never : refusals relay.recorded id = 0 := by
        refine refusals_eq_zero fun attempt member same => ?_
        obtain ⟨row, stored⟩ := kept.known attempt member
        rw [same, absent] at stored
        cases stored
      refine ⟨named, fun _ => ⟨unfailed, fun positive => ?_, ?_⟩, ?_, ?_⟩
      · rw [untried]
        exact positive
      · rw [untried]
        exact never.symm
      · simp [unpublished]
      · simp [unfailed]
  · intro row acknowledged
    simpa only [extended.broker] using kept.acknowledged row acknowledged
  · intro attempt member
    obtain ⟨row, stored⟩ := kept.known attempt member
    exact ⟨row, (congrArg Slot.committed (extended.committed stored)).trans stored⟩

end Writers

section Tick

variable {settings : Settings} {relay next : OutboxRelay} {world after : World}

theorem visible_of_closed (closed : OutboxClosed world) (id : Uuid) :
    world.outbox.visible relaySession id = world.outbox.committed id := by
  rw [← Table.slot_visible, Slot.visible_of_free (by simp [closed id]), Table.slot_committed]

theorem batch_of_fetch (kept : RelayKept settings relay) (closed : OutboxClosed relay.world)
    (limit maxAttempts : Nat) :
    Batch relay.world (relay.world.answer relaySession (.unpublished limit maxAttempts)) := by
  have seen := visible_of_closed closed
  have keyed : ∀ id row, relay.world.outbox.visible relaySession id = some row → row.id = id := by
    intro id row found
    rw [seen] at found
    exact (kept.rows id row found).keyed
  have read : ∀ event ∈ relay.world.answer relaySession (.unpublished limit maxAttempts),
      event ∈ relay.world.outbox.rows relaySession ∧ event.publishedAt = none := by
    intro event member
    have sorted := List.mem_of_mem_take member
    rw [List.mem_insertionSort, List.mem_filter] at sorted
    exact ⟨sorted.1, by simpa using (Bool.and_eq_true_iff.mp sorted.2).1⟩
  refine ⟨?_, fun event member => ?_, fun event member => (read event member).2⟩
  · refine ((List.take_sublist _ _).map OutboxRow.id).nodup ?_
    refine ((List.perm_insertionSort _ _).map OutboxRow.id).nodup_iff.mpr ?_
    exact (List.filter_sublist.map OutboxRow.id).nodup (Table.rows_nodup keyed)
  · obtain ⟨id, found⟩ := Table.mem_rows_iff.mp (read event member).1
    rw [keyed id event found, ← seen]
    exact found

theorem marked_rows {ids : List Uuid} {set : OutboxRow → OutboxRow} {reply : Unit}
    (updated : world.withOutbox (world.outbox.updateAll relaySession (fun _ => true) set ids.dedup) =
      some (reply, after))
    (closed : ∀ id ∈ ids, ∃ row, world.outbox.slot id = { committed := some row, holder := none }) :
    (∀ id, id ∉ ids → after.outbox.slot id = world.outbox.slot id) ∧
    (∀ id ∈ ids, ∃ row, world.outbox.committed id = some row ∧ after.outbox.slot id =
      { committed := some row, holder := some (relaySession, set row) }) ∧
    after.broker = world.broker := by
  obtain ⟨hits, outbox, updates, rfl⟩ := withOutbox_eq updated
  have distinct := List.nodup_dedup ids
  refine ⟨fun id outside => ?_, fun id member => ?_, rfl⟩
  · obtain ⟨same, _⟩ | ⟨_, inside, _⟩ := Table.updateAll_slot distinct updates id
    · exact same
    · exact absurd (List.mem_dedup.mp inside) outside
  · obtain ⟨row, slot⟩ := closed id member
    have visible : world.outbox.visible relaySession id = some row := by
      rw [← Table.slot_visible, slot]
      rfl
    have hit := Table.updateAll_complete distinct updates (List.mem_dedup.mpr member) visible rfl
    obtain ⟨_, missed⟩ | ⟨_, _, _, seen, found, _, wrote⟩ := Table.updateAll_slot distinct updates id
    · exact absurd hit missed
    · rw [visible] at found
      cases found
      exact ⟨row, congrArg Slot.committed slot, by rw [wrote, slot]; rfl⟩

theorem Marked.step {done todo : List Marking} {marking : Marking} {now : Time}
    {reply : (marking.statement now).Reply} (marked : Marked world done)
    (distinct : ((done ++ marking :: todo).flatMap Marking.ids).Nodup)
    (stored : ∀ id ∈ marking.ids, ∃ row, world.outbox.committed id = some row)
    (executed : world.execute relaySession (marking.statement now) = some (reply, after)) :
    Marked after (done ++ [marking]) ∧ (∀ id, after.outbox.committed id = world.outbox.committed id) ∧
      after.broker = world.broker := by
  have apart : ∀ id ∈ marking.ids, id ∉ done.flatMap Marking.ids := by
    intro id member inside
    rw [List.flatMap_append] at distinct
    exact List.disjoint_of_nodup_append distinct inside (by simp [member])
  have closed : ∀ id ∈ marking.ids, ∃ row,
      world.outbox.slot id = { committed := some row, holder := none } := by
    intro id member
    obtain ⟨row, found⟩ := stored id member
    exact ⟨row, by
      rw [show world.outbox.slot id = ⟨(world.outbox.slot id).committed, (world.outbox.slot id).holder⟩
        from rfl, marked.others id (apart id member), Table.slot_committed, found]⟩
  obtain ⟨others, covered, broker⟩ : (∀ id, id ∉ marking.ids →
        after.outbox.slot id = world.outbox.slot id) ∧
      (∀ id ∈ marking.ids, ∃ row version, world.outbox.committed id = some row ∧
        after.outbox.slot id = { committed := some row, holder := some (relaySession, version) } ∧
        marking.mark.Applied row version) ∧ after.broker = world.broker := by
    cases marking with
    | published ids =>
        obtain ⟨others, covered, broker⟩ := marked_rows executed closed
        refine ⟨others, fun id member => ?_, broker⟩
        obtain ⟨row, found, slot⟩ := covered id member
        exact ⟨row, _, found, slot, now, rfl⟩
    | retry ids =>
        obtain ⟨others, covered, broker⟩ := marked_rows executed closed
        refine ⟨others, fun id member => ?_, broker⟩
        obtain ⟨row, found, slot⟩ := covered id member
        exact ⟨row, _, found, slot, rfl⟩
    | failed failed error =>
        obtain ⟨others, covered, broker⟩ := marked_rows executed closed
        refine ⟨others, fun id member => ?_, broker⟩
        obtain ⟨row, found, slot⟩ := covered id member
        exact ⟨row, _, found, slot, now, rfl⟩
  refine ⟨⟨fun earlier member id inside => ?_, fun id outside => ?_⟩, fun id => ?_, broker⟩
  · obtain old | rfl := List.mem_append.mp member |>.imp_right List.mem_singleton.mp
    · obtain ⟨row, version, found, held, applied⟩ := marked.covered earlier old id inside
      have different : id ∉ marking.ids := fun member =>
        apart id member (List.mem_flatMap.mpr ⟨earlier, old, inside⟩)
      have same := others id different
      exact ⟨row, version, (congrArg Slot.committed same).trans found,
        (congrArg Slot.holder same).trans held, applied⟩
    · obtain ⟨row, version, found, slot, applied⟩ := covered id inside
      exact ⟨row, version, congrArg Slot.committed slot, congrArg Slot.holder slot, applied⟩
  · rw [List.flatMap_append, List.mem_append, not_or] at outside
    rw [others id (by simpa using outside.2)]
    exact marked.others id outside.1
  · by_cases member : id ∈ marking.ids
    · obtain ⟨row, version, found, slot, _⟩ := covered id member
      exact (congrArg Slot.committed slot).trans found.symm
    · exact congrArg Slot.committed (others id member)

theorem RelayKept.moved (kept : RelayKept settings relay)
    (committed : ∀ id, next.world.outbox.committed id = relay.world.outbox.committed id)
    (broker : ∀ sent ∈ relay.world.broker, sent ∈ next.world.broker)
    (recorded : next.recorded = relay.recorded)
    (acknowledged : ∀ row, (row, PublishResult.acknowledged) ∈ next.attempts → row ∈ next.world.broker)
    (phase : Phase settings next) : RelayKept settings next := by
  refine ⟨fun id row stored => ?_, acknowledged, fun attempt member => ?_, phase⟩
  · rw [committed] at stored
    have old := kept.rows id row stored
    refine ⟨old.keyed, ?_, fun published unfailed => ?_, ?_⟩
    · rw [recorded]
      exact old.eligible
    · obtain ⟨sent, member, named⟩ := old.delivered published unfailed
      exact ⟨sent, broker sent member, named⟩
    · rw [recorded]
      exact old.dead
  · rw [recorded] at member
    rw [committed]
    exact kept.known attempt member

theorem commit_closed (closed : OutboxClosed world) (id : Uuid) :
    (world.commit relaySession).outbox.slot id = world.outbox.slot id := by
  rw [World.commit, Table.commit_slot]
  obtain ⟨row, held, _⟩ | ⟨_, same⟩ := (world.outbox.slot id).commit_cases relaySession
  · rw [closed id] at held
    cases held
  · exact same

theorem publishing_or_marking {rest : List OutboxRow}
    (tick : relay.tick = some (publishFrom settings rest (batchOf settings relay.attempts)))
    (fetched : relay.fetched = relay.attempts.map Prod.fst ++ rest)
    (closed : OutboxClosed relay.world)
    (batch : Batch relay.world (relay.attempts.map Prod.fst ++ rest)) : Phase settings relay := by
  cases rest with
  | cons row rest => exact .publishing tick fetched closed batch
  | nil =>
      rw [List.append_nil] at batch
      have marked : Marked relay.world [] := by
        refine ⟨fun marking member => ?_, fun id _ => closed id⟩
        cases member
      have planned : markings (batchOf settings relay.attempts) =
          [] ++ markings (batchOf settings relay.attempts) := rfl
      exact .marking planned tick marked batch

theorem RelayKept.begin (kept : RelayKept settings relay)
    (stepped : OutboxRelay.step settings .begin relay = some next) : RelayKept settings next := by
  simp only [OutboxRelay.step] at stepped
  split at stepped
  · rename_i resting
    cases stepped
    refine kept.moved (fun _ => rfl) (fun _ member => member) rfl kept.acknowledged ?_
    cases kept.phase with
    | idle tick unsent closed => exact .fetching rfl unsent closed
    | fetching tick => rw [resting] at tick; cases tick
    | fetched tick => rw [resting] at tick; cases tick
    | publishing tick => rw [resting] at tick; cases tick
    | marking planned tick => rw [resting] at tick; cases tick
    | stamping planned tick => rw [resting] at tick; cases tick
    | ended tick => rw [resting] at tick; cases tick
  · contradiction

theorem RelayKept.fetch (kept : RelayKept settings relay)
    (tick : relay.tick = some (outboxRelayTick settings)) (unsent : relay.attempts = [])
    (closed : OutboxClosed relay.world)
    (stepped : OutboxRelay.step settings .run relay = some next) : RelayKept settings next := by
  rw [outboxRelayTick_eq] at tick
  simp only [OutboxRelay.step, tick] at stepped
  cases stepped
  refine kept.moved (fun _ => rfl) (fun _ member => member) rfl kept.acknowledged ?_
  exact .fetched rfl rfl unsent closed (batch_of_fetch kept closed _ _)

theorem RelayKept.leaveFetch {events : List OutboxRow} (kept : RelayKept settings relay)
    (tick : relay.tick = some (.call .commit fun _ => publishAll settings events))
    (fetched : relay.fetched = events) (unsent : relay.attempts = [])
    (closed : OutboxClosed relay.world) (batch : Batch relay.world events)
    (stepped : OutboxRelay.step settings .run relay = some next) : RelayKept settings next := by
  simp only [OutboxRelay.step, tick] at stepped
  cases stepped
  have same := commit_closed closed
  have still : OutboxClosed (relay.world.commit relaySession) := by
    intro id
    rw [same]
    exact closed id
  have stored : Batch (relay.world.commit relaySession) events :=
    { batch with stored := fun event member =>
        (congrArg Slot.committed (same event.id)).trans (batch.stored event member) }
  refine kept.moved (fun id => congrArg Slot.committed (same id)) (fun _ member => member) ?_ ?_ ?_
  · simp [OutboxRelay.perform, unsent]
  · intro row member
    cases member
  · cases events with
    | nil => exact .ended rfl rfl still
    | cons row rest => exact publishing_or_marking rfl fetched still stored

theorem RelayKept.publish {row : OutboxRow} {rest : List OutboxRow} (kept : RelayKept settings relay)
    (tick : relay.tick = some (publishFrom settings (row :: rest) (batchOf settings relay.attempts)))
    (fetched : relay.fetched = relay.attempts.map Prod.fst ++ row :: rest)
    (closed : OutboxClosed relay.world)
    (batch : Batch relay.world (relay.attempts.map Prod.fst ++ row :: rest))
    (stepped : OutboxRelay.step settings .run relay = some next) : RelayKept settings next := by
  rw [publishFrom, publishBatch_cons] at tick
  simp only [OutboxRelay.step, tick, Program.call_bind, World.operate] at stepped
  have enlarged : ∀ result, relay.attempts.map Prod.fst ++ row :: rest =
      (relay.attempts ++ [(row, result)]).map Prod.fst ++ rest := by simp
  split at stepped
  · rename_i reply world operated
    cases stepped
    have phase : ∀ broker undelivered, Phase settings (relay.perform
        { relay.world with broker, undelivered }
        ((publishBatch settings rest (addAttempt settings (batchOf settings relay.attempts)
          (row, reply))).bind fun batch => markAll (markings batch)) (.publishRaw row) reply) := by
      intro broker undelivered
      rw [enlarged reply] at batch fetched
      refine publishing_or_marking ?_ fetched closed ⟨batch.distinct, batch.stored, batch.unpublished⟩
      rw [OutboxRelay.perform, batchOf_append]
      rfl
    split at operated
    · cases operated
      refine kept.moved (fun _ => rfl) (fun _ member => List.mem_cons_of_mem _ member) rfl ?_
        (phase _ _)
      intro sent member
      obtain earlier | same := List.mem_append.mp member
      · exact List.mem_cons_of_mem _ (kept.acknowledged sent earlier)
      · cases List.mem_singleton.mp same
        exact List.mem_cons_self
    · rename_i failing
      cases operated
      refine kept.moved (fun _ => rfl) (fun _ member => member) rfl ?_ (phase _ _)
      intro sent member
      obtain earlier | same := List.mem_append.mp member
      · exact kept.acknowledged sent earlier
      · obtain ⟨rfl, refused⟩ := Prod.mk.inj (List.mem_singleton.mp same)
        exact absurd refused.symm failing
  · contradiction

section Marking

variable {done todo : List Marking} {marking : Marking}

theorem Batch.moved {events : List OutboxRow} (batch : Batch world events)
    (committed : ∀ id, after.outbox.committed id = world.outbox.committed id) : Batch after events :=
  { batch with stored := fun event member => (committed event.id).trans (batch.stored event member) }

theorem Batch.covers (batch : Batch relay.world (relay.attempts.map Prod.fst))
    (planned : marking ∈ markings (batchOf settings relay.attempts)) {id : Uuid}
    (covered : id ∈ marking.ids) : ∃ attempt ∈ relay.attempts, attempt.1.id = id ∧
      markOf settings attempt = marking.mark ∧ relay.world.outbox.committed id = some attempt.1 := by
  obtain ⟨attempt, member, named, mark⟩ := mark_of_marking planned covered
  refine ⟨attempt, member, named, mark, ?_⟩
  rw [← named]
  exact batch.stored attempt.1 (List.mem_map_of_mem member)

theorem Batch.markings_distinct (batch : Batch relay.world (relay.attempts.map Prod.fst)) :
    ((markings (batchOf settings relay.attempts)).flatMap Marking.ids).Nodup := by
  have distinct := batch.distinct
  rw [List.map_map] at distinct
  exact (markings_perm settings relay.attempts).nodup_iff.mpr distinct

theorem RelayKept.mark {now : Time} {reply : (marking.statement now).Reply}
    (kept : RelayKept settings relay)
    (planned : markings (batchOf settings relay.attempts) = done ++ marking :: todo)
    (marked : Marked relay.world done) (batch : Batch relay.world (relay.attempts.map Prod.fst))
    (executed : relay.world.execute relaySession (marking.statement now) = some (reply, after)) :
    RelayKept settings { relay with world := after, tick := some (markAll todo) } := by
  have distinct := planned ▸ batch.markings_distinct
  have stored : ∀ id ∈ marking.ids, ∃ row, relay.world.outbox.committed id = some row := by
    intro id covered
    have member : marking ∈ markings (batchOf settings relay.attempts) := by simp [planned]
    obtain ⟨attempt, _, _, _, found⟩ := batch.covers member covered
    exact ⟨attempt.1, found⟩
  obtain ⟨later, committed, broker⟩ := marked.step distinct stored executed
  have split : markings (batchOf settings relay.attempts) = (done ++ [marking]) ++ todo := by
    simp [planned]
  refine kept.moved committed ?_ rfl ?_ (.marking split rfl later (batch.moved committed))
  · intro sent member
    simpa only [broker] using member
  · intro row member
    simpa only [broker] using kept.acknowledged row member

theorem RelayKept.startMark (kept : RelayKept settings relay)
    (planned : markings (batchOf settings relay.attempts) = done ++ marking :: todo)
    (tick : relay.tick = some (markAll (marking :: todo))) (marked : Marked relay.world done)
    (batch : Batch relay.world (relay.attempts.map Prod.fst))
    (stepped : OutboxRelay.step settings .run relay = some next) : RelayKept settings next := by
  cases marking with
  | published ids =>
      simp only [OutboxRelay.step, tick] at stepped
      cases stepped
      exact kept.moved (fun _ => rfl) (fun _ member => member) rfl kept.acknowledged
        (.stamping planned rfl marked batch)
  | failed id error =>
      simp only [OutboxRelay.step, tick] at stepped
      cases stepped
      exact kept.moved (fun _ => rfl) (fun _ member => member) rfl kept.acknowledged
        (.stamping planned rfl marked batch)
  | retry ids =>
      have direct : relay.tick = some (.call (.statement (.incrementAttempts ids)) fun _ =>
        markAll todo) := tick
      simp only [OutboxRelay.step, direct, World.operate] at stepped
      split at stepped
      · rename_i reply world executed
        cases stepped
        exact @RelayKept.mark _ _ _ _ _ (.retry ids) 0 _ kept planned marked batch executed
      · contradiction

theorem RelayKept.stamp {now : Time} (kept : RelayKept settings relay)
    (planned : markings (batchOf settings relay.attempts) = done ++ marking :: todo)
    (tick : relay.tick = some (.call (.statement (marking.statement now)) fun _ => markAll todo))
    (marked : Marked relay.world done) (batch : Batch relay.world (relay.attempts.map Prod.fst))
    (stepped : OutboxRelay.step settings .run relay = some next) : RelayKept settings next := by
  simp only [OutboxRelay.step, tick, World.operate] at stepped
  split at stepped
  · rename_i reply world executed
    cases stepped
    exact kept.mark planned marked batch executed
  · contradiction

theorem refusals_append (first second : List PublishAttempt) (id : Uuid) :
    refusals (first ++ second) id = refusals first id + refusals second id := List.countP_append ..

theorem refusals_of_refused {attempts : List PublishAttempt} {row : OutboxRow} {error : String}
    (distinct : (attempts.map fun attempt => attempt.1.id).Nodup)
    (member : (row, PublishResult.refused error) ∈ attempts) : refusals attempts row.id = 1 := by
  have least : 0 < refusals attempts row.id := List.countP_pos_iff.mpr ⟨_, member, by simp⟩
  have most : refusals attempts row.id ≤ (attempts.map fun attempt => attempt.1.id).count row.id := by
    rw [List.count, List.countP_map]
    refine List.countP_mono_left fun attempt _ counted => ?_
    obtain ⟨other, result⟩ := attempt
    cases result with
    | refused error => simpa using counted
    | _ => simp at counted
  have once := List.nodup_iff_count_le_one.mp distinct row.id
  omega

theorem RowKept.marked {attempt : PublishAttempt} {marked : OutboxRow} (kept : RelayKept settings relay)
    (batch : Batch relay.world (relay.attempts.map Prod.fst)) (member : attempt ∈ relay.attempts)
    (applied : (markOf settings attempt).Applied attempt.1 marked)
    (recorded : next.recorded = relay.recorded ++ relay.attempts)
    (broker : next.world.broker = relay.world.broker) :
    RowKept settings next attempt.1.id marked := by
  obtain ⟨row, result⟩ := attempt
  have listed : row ∈ relay.attempts.map Prod.fst := List.mem_map_of_mem member
  have unpublished := batch.unpublished row listed
  have old := kept.rows row.id row (batch.stored row listed)
  obtain ⟨unfailed, below, counted⟩ := old.eligible unpublished
  have distinct : (relay.attempts.map fun attempt => attempt.1.id).Nodup := by
    have distinct := batch.distinct
    rw [List.map_map] at distinct
    exact distinct
  cases result with
  | acknowledged =>
      obtain ⟨stamp, rfl⟩ := applied
      refine ⟨rfl, by simp, fun _ _ => ?_, by simp [unfailed]⟩
      rw [broker]
      exact ⟨row, kept.acknowledged row member, rfl⟩
  | schemaInvalid error =>
      obtain ⟨stamp, rfl⟩ := applied
      refine ⟨rfl, by simp, by simp, fun _ => ⟨rfl, .inl ?_⟩⟩
      rw [recorded]
      exact ⟨row, error, List.mem_append_right _ member, rfl⟩
  | refused error =>
      have total : refusals next.recorded row.id = row.attempts + 1 := by
        rw [recorded, refusals_append, refusals_of_refused distinct member, counted]
      simp only [markOf] at applied
      split at applied
      · rename_i capped
        obtain ⟨stamp, rfl⟩ := applied
        refine ⟨rfl, by simp, by simp, fun _ => ⟨rfl, .inr ?_⟩⟩
        rw [total]
        exact capped
      · rename_i room
        cases applied
        refine ⟨rfl, fun _ => ⟨unfailed, fun _ => by simpa using room, total.symm⟩, ?_, ?_⟩
        · simp [unpublished]
        · simp [unfailed]

theorem Marked.commit_tried {attempt : PublishAttempt} (marked : Marked relay.world done)
    (planned : markings (batchOf settings relay.attempts) = done)
    (batch : Batch relay.world (relay.attempts.map Prod.fst)) (member : attempt ∈ relay.attempts) :
    ∃ version, (relay.world.commit relaySession).outbox.slot attempt.1.id =
        { committed := some version, holder := none } ∧
      (markOf settings attempt).Applied attempt.1 version := by
  have covered : attempt.1.id ∈ done.flatMap Marking.ids := by
    rw [← planned]
    exact (markings_perm settings relay.attempts).mem_iff.mpr
      (List.mem_map_of_mem (f := fun attempt : PublishAttempt => attempt.1.id) member)
  obtain ⟨marking, listed, inside⟩ := List.mem_flatMap.mp covered
  obtain ⟨row, version, stored, held, applied⟩ := marked.covered marking listed _ inside
  obtain ⟨other, among, named, mark, found⟩ := batch.covers (planned ▸ listed) inside
  have same : other = attempt := by
    have distinct := batch.distinct
    rw [List.map_map] at distinct
    exact List.inj_on_of_nodup_map distinct among member named
  subst same
  rw [stored] at found
  cases found
  refine ⟨version, ?_, mark ▸ applied⟩
  rw [World.commit, Table.commit_slot]
  obtain ⟨_, holds, slot⟩ | ⟨unheld, _⟩ :=
    (relay.world.outbox.slot other.1.id).commit_cases relaySession
  · rw [held] at holds
    cases holds
    exact slot
  · exact absurd held (unheld version)

theorem Marked.commit_untried {id : Uuid} (marked : Marked relay.world done)
    (planned : markings (batchOf settings relay.attempts) = done)
    (untried : ∀ attempt ∈ relay.attempts, attempt.1.id ≠ id) :
    (relay.world.commit relaySession).outbox.slot id = relay.world.outbox.slot id ∧
      (relay.world.outbox.slot id).holder = none := by
  have uncovered : id ∉ done.flatMap Marking.ids := by
    rw [← planned, (markings_perm settings relay.attempts).mem_iff]
    intro listed
    obtain ⟨attempt, member, named⟩ := List.mem_map.mp listed
    exact untried attempt member named
  have free := marked.others id uncovered
  refine ⟨?_, free⟩
  rw [World.commit, Table.commit_slot]
  obtain ⟨_, held, _⟩ | ⟨_, same⟩ := (relay.world.outbox.slot id).commit_cases relaySession
  · rw [free] at held
    cases held
  · exact same

theorem RelayKept.record (kept : RelayKept settings relay)
    (planned : markings (batchOf settings relay.attempts) = done)
    (tick : relay.tick = some (markAll [])) (marked : Marked relay.world done)
    (batch : Batch relay.world (relay.attempts.map Prod.fst))
    (stepped : OutboxRelay.step settings .run relay = some next) : RelayKept settings next := by
  have direct : relay.tick = some (.call .commit .done) := tick
  simp only [OutboxRelay.step, direct, World.operate] at stepped
  cases stepped
  refine ⟨fun id row stored => ?_, fun row member => ?_, fun attempt member => ?_, ?_⟩
  · have storedSlot : ((relay.world.commit relaySession).outbox.slot id).committed = some row := stored
    by_cases tried : ∃ attempt ∈ relay.attempts, attempt.1.id = id
    · obtain ⟨attempt, member, rfl⟩ := tried
      obtain ⟨version, slot, applied⟩ := marked.commit_tried planned batch member
      rw [slot] at storedSlot
      cases storedSlot
      exact RowKept.marked kept batch member applied rfl rfl
    · have untried : ∀ attempt ∈ relay.attempts, attempt.1.id ≠ id :=
        fun attempt member named => tried ⟨attempt, member, named⟩
      rw [(marked.commit_untried planned untried).1] at storedSlot
      have old := kept.rows id row storedSlot
      have same : refusals (relay.recorded ++ relay.attempts) id = refusals relay.recorded id := by
        rw [refusals_append, refusals_eq_zero untried, Nat.add_zero]
      refine ⟨old.keyed, fun unpublished => ?_, old.delivered, fun failed => ?_⟩
      · obtain ⟨unfailed, below, counted⟩ := old.eligible unpublished
        exact ⟨unfailed, below, counted.trans same.symm⟩
      · obtain ⟨published, ⟨sent, error, member, named⟩ | capped⟩ := old.dead failed
        · exact ⟨published, .inl ⟨sent, error, List.mem_append_left _ member, named⟩⟩
        · exact ⟨published, .inr (capped.trans_eq same.symm)⟩
  · cases member
  · by_cases tried : ∃ other ∈ relay.attempts, other.1.id = attempt.1.id
    · obtain ⟨other, among, named⟩ := tried
      obtain ⟨version, slot, _⟩ := marked.commit_tried planned batch among
      rw [named] at slot
      exact ⟨version, congrArg Slot.committed slot⟩
    · have untried : ∀ other ∈ relay.attempts, other.1.id ≠ attempt.1.id :=
        fun other among named => tried ⟨other, among, named⟩
      obtain older | new := List.mem_append.mp member
      · obtain ⟨row, stored⟩ := kept.known attempt older
        exact ⟨row, (congrArg Slot.committed (marked.commit_untried planned untried).1).trans stored⟩
      · exact absurd rfl (untried attempt new)
  · refine .ended rfl rfl fun id => ?_
    by_cases tried : ∃ attempt ∈ relay.attempts, attempt.1.id = id
    · obtain ⟨attempt, member, rfl⟩ := tried
      obtain ⟨version, slot, _⟩ := marked.commit_tried planned batch member
      exact congrArg Slot.holder slot
    · obtain ⟨same, free⟩ := marked.commit_untried planned
        fun attempt member named => tried ⟨attempt, member, named⟩
      exact (congrArg Slot.holder same).trans free

end Marking

theorem RelayKept.run (kept : RelayKept settings relay)
    (stepped : OutboxRelay.step settings .run relay = some next) : RelayKept settings next := by
  cases kept.phase with
  | idle tick unsent closed =>
      simp only [OutboxRelay.step, tick] at stepped
      contradiction
  | fetching tick unsent closed => exact kept.fetch tick unsent closed stepped
  | fetched tick fetched unsent closed batch =>
      exact kept.leaveFetch tick fetched unsent closed batch stepped
  | publishing tick fetched closed batch => exact kept.publish tick fetched closed batch stepped
  | @marking done todo planned tick marked batch =>
      cases todo with
      | nil => exact kept.record (planned.trans (List.append_nil done)) tick marked batch stepped
      | cons marking todo => exact kept.startMark planned tick marked batch stepped
  | stamping planned tick marked batch => exact kept.stamp planned tick marked batch stepped
  | ended tick unsent closed =>
      simp only [OutboxRelay.step, tick] at stepped
      cases stepped
      exact kept.moved (fun _ => rfl) (fun _ member => member) rfl kept.acknowledged
        (.idle rfl unsent closed)

theorem Phase.holder (phase : Phase settings relay) {id : Uuid} {owner : Pid} {row : OutboxRow}
    (held : (relay.world.outbox.slot id).holder = some (owner, row)) : owner = relaySession := by
  have closed : ¬ OutboxClosed relay.world := by
    intro closed
    rw [closed id] at held
    cases held
  have marked : ∀ {done}, Marked relay.world done → owner = relaySession := by
    intro done marked
    by_cases covered : id ∈ done.flatMap Marking.ids
    · obtain ⟨marking, member, inside⟩ := List.mem_flatMap.mp covered
      obtain ⟨_, _, _, holds, _⟩ := marked.covered marking member id inside
      rw [held] at holds
      cases holds
      rfl
    · rw [marked.others id covered] at held
      cases held
  cases phase with
  | marking _ _ holds => exact marked holds
  | stamping _ _ holds => exact marked holds
  | _ => contradiction

theorem RelayKept.crash (kept : RelayKept settings relay)
    (stepped : OutboxRelay.step settings .crash relay = some next) : RelayKept settings next := by
  simp only [OutboxRelay.step] at stepped
  split at stepped
  · cases stepped
    refine kept.moved (fun _ => rfl) (fun _ member => member) rfl ?_ ?_
    · intro row member
      cases member
    · refine .idle rfl rfl fun id => ?_
      rw [World.rollback, Table.rollback_slot]
      obtain ⟨row, _, same⟩ | ⟨unheld, same⟩ :=
        (relay.world.outbox.slot id).rollback_cases relaySession
      · rw [same]
      · rw [same]
        cases held : (relay.world.outbox.slot id).holder with
        | none => rfl
        | some owned =>
            have owner := kept.phase.holder held
            exact absurd (owner ▸ held) (unheld owned.2)
  · contradiction

theorem RelayKept.step {action : OutboxRelay.Action} (kept : RelayKept settings relay)
    (stepped : OutboxRelay.step settings action relay = some next) : RelayKept settings next := by
  cases action with
  | transaction began drafts =>
      simp only [OutboxRelay.step] at stepped
      split at stepped
      · rename_i inserted added
        cases stepped
        refine kept.extended (extended_of_transaction (fun id row held => ?_) added)
        have owner := kept.phase.holder held
        contradiction
      · contradiction
  | outside readings =>
      cases stepped
      exact kept.extended ⟨fun _ => .inl rfl, rfl⟩
  | reorder order =>
      simp only [OutboxRelay.step] at stepped
      split at stepped
      · cases stepped
        exact kept.extended ⟨fun _ => .inl rfl, rfl⟩
      · contradiction
  | begin => exact kept.begin stepped
  | run => exact kept.run stepped
  | crash => exact kept.crash stepped

/-- None of these rows is delivered or dead-lettered, as the relay sees them. -/
def Unmarked (world : World) (ids : List Uuid) : Prop :=
  ∀ id ∈ ids, ∀ row, world.outbox.visible relaySession id = some row →
    row.publishedAt = none ∧ row.failedAt = none

def markedIds : Statement → List Uuid
  | .markPublished ids _ | .markFailed ids _ _ => ids
  | _ => []

theorem Marking.markedIds_subset (marking : Marking) (now : Time) :
    markedIds (marking.statement now) ⊆ marking.ids := by
  cases marking <;> simp [markedIds, statement, ids]

theorem RelayKept.unmarked {statement : Statement} {rest : statement.Reply → Prog Unit}
    (kept : RelayKept settings relay) (tick : relay.tick = some (.call (.statement statement) rest)) :
    Unmarked relay.world (markedIds statement) := by
  cases kept.phase with
  | idle stands => rw [tick] at stands; cases stands
  | fetching stands => rw [tick, outboxRelayTick_eq] at stands; cases stands
  | fetched stands => rw [tick] at stands; cases stands
  | publishing stands => rw [tick, publishFrom, publishBatch_cons] at stands; cases stands
  | ended stands => rw [tick] at stands; cases stands
  | @marking done todo planned stands =>
      rw [tick] at stands
      cases todo with
      | nil => cases stands
      | cons marking todo =>
          cases marking with
          | published ids => cases stands
          | failed id error => cases stands
          | retry ids =>
              cases stands
              intro id covered
              cases covered
  | @stamping done todo marking now planned stands marked batch =>
      rw [tick] at stands
      cases stands
      intro id named row seen
      have covered := marking.markedIds_subset now named
      have member : marking ∈ markings (batchOf settings relay.attempts) := by simp [planned]
      obtain ⟨attempt, among, _, _, stored⟩ := batch.covers member covered
      have unpublished := batch.unpublished attempt.1 (List.mem_map_of_mem among)
      -- The row is not yet open, since no statement before this one covers it.
      have uncovered : id ∉ done.flatMap Marking.ids := by
        have distinct : ((done ++ marking :: todo).flatMap Marking.ids).Nodup :=
          planned ▸ batch.markings_distinct
        rw [List.flatMap_append] at distinct
        exact fun inside => List.disjoint_of_nodup_append distinct inside (by simp [covered])
      rw [← Table.slot_visible, Slot.visible_of_free (by simp [marked.others id uncovered]),
        Table.slot_committed, stored] at seen
      cases seen
      exact ⟨unpublished, ((kept.rows id attempt.1 stored).eligible unpublished).1⟩

theorem mem_unpublished {reader : Pid} {id : Uuid} {row : OutboxRow} {limit maxAttempts : Nat}
    (stored : world.outbox.committed id = some row) (unopened : world.outbox.own reader id = none)
    (unpublished : row.publishedAt = none) (below : row.attempts < maxAttempts)
    (room : (world.outbox.rows reader).length ≤ limit) :
    row ∈ world.answer reader (.unpublished limit maxAttempts) := by
  have seen : world.outbox.visible reader id = some row := by
    rw [Table.visible_of_unlocked (Table.own_eq_none_iff.mp unopened), stored]
  have fits : ((world.outbox.rows reader).filter fun row =>
      row.publishedAt = none && decide (row.attempts < maxAttempts)).length ≤ limit :=
    (List.length_filter_le _ _).trans room
  simp only [World.answer]
  rw [List.take_of_length_le (by rw [List.length_insertionSort]; exact fits), List.mem_insertionSort,
    List.mem_filter]
  exact ⟨Table.mem_rows_iff.mpr ⟨id, seen⟩, by simp [unpublished, below]⟩

/-- What the relay owes at every moment: to each committed row, and to the rows
that its next statement marks. -/
structure RelaySound (settings : Settings) (relay : OutboxRelay) : Prop where
  delivered : ∀ id row, relay.world.outbox.committed id = some row → row.publishedAt.isSome →
    row.failedAt = none → ∃ sent ∈ relay.world.broker, sent.id = id
  deadLettered : ∀ id row, relay.world.outbox.committed id = some row → row.failedAt.isSome →
    row.publishedAt.isSome ∧ (SchemaFailed relay.recorded id ∨
      settings.outboxMaxAttempts ≤ refusals relay.recorded id)
  eligible : ∀ id row, relay.world.outbox.committed id = some row → row.publishedAt = none →
    row.failedAt = none ∧ row.attempts < settings.outboxMaxAttempts ∧
    ∀ reader limit, relay.world.outbox.own reader id = none →
      (relay.world.outbox.rows reader).length ≤ limit →
      row ∈ relay.world.answer reader (.unpublished limit settings.outboxMaxAttempts)
  markedOnce : ∀ statement rest, relay.tick = some (.call (.statement statement) rest) →
    Unmarked relay.world (markedIds statement)

theorem RelayKept.sound (positive : 0 < settings.outboxMaxAttempts) (kept : RelayKept settings relay) :
    RelaySound settings relay where
  delivered := fun id row stored => (kept.rows id row stored).delivered
  deadLettered := fun id row stored => (kept.rows id row stored).dead
  eligible := by
    intro id row stored unpublished
    obtain ⟨unfailed, below, _⟩ := (kept.rows id row stored).eligible unpublished
    exact ⟨unfailed, below positive, fun reader limit unopened room =>
      mem_unpublished stored unopened unpublished (below positive) room⟩
  markedOnce := fun _ _ tick => kept.unmarked tick

end Tick

section Runs

variable {settings : Settings} {outside : Outside} {steps : List (OutboxRelay × OutboxRelay.Action)}
  {last : OutboxRelay}

theorem relay_kept (ran : (OutboxRelay.machine settings outside).Run steps last) :
    ∀ relay ∈ Machine.visited steps last, RelayKept settings relay := by
  refine ran.everywhere ?_ fun kept stepped => RelayKept.step kept stepped
  refine ⟨?_, ?_, ?_, .idle rfl rfl fun _ => rfl⟩
  · intro id row stored
    cases stored
  · intro row member
    cases member
  · intro attempt member
    cases member

/-- Whatever the publishes answer and wherever ticks are cut short, a delivered
row was acknowledged, a dead-lettered one failed its schema or failed as often as
the cap, every other one stays in the relay's window, and no mark hits a row twice. -/
theorem relay_neither_loses_nor_falsely_delivers (positive : 0 < settings.outboxMaxAttempts)
    (ran : (OutboxRelay.machine settings outside).Run steps last) :
    ∀ relay ∈ Machine.visited steps last, RelaySound settings relay :=
  fun relay member => (relay_kept ran relay member).sound positive

def submission (id : Uuid) : OutboxDraft where
  id
  tenantId := 8
  topic := .submitted
  key := (8, 7)
  event := .submitted 8 id 7 "csv_upload" (.object []) 0 none

def answering (result : PublishResult) : Outside := { readings 9 .timedOut with publish := result }

def mixedTick : List OutboxRelay.Action :=
  [.transaction 5 [submission 1, submission 2], .begin, .run, .run, .run,
    .outside (answering (.schemaInvalid "payload")), .run, .run, .run, .run, .run, .run, .run]

theorem relay_sound_at_mixed_tick : 0 < Settings.defaults.outboxMaxAttempts ∧ ∃ steps last,
    (OutboxRelay.machine .defaults (readings 9 .timedOut)).Run steps last ∧
    decide ((last.world.outbox.committed 1).any (fun row => row.publishedAt.isSome ∧ row.failedAt = none) ∧
      (last.world.outbox.committed 2).any fun row => row.failedAt.isSome) = true ∧
    ∀ relay ∈ Machine.visited steps last, RelaySound .defaults relay := by
  have positive : 0 < Settings.defaults.outboxMaxAttempts := by decide
  obtain ⟨steps, last, ran, checked⟩ : ∃ steps last,
      (OutboxRelay.machine .defaults (readings 9 .timedOut)).Run steps last ∧
      decide ((last.world.outbox.committed 1).any
          (fun row => row.publishedAt.isSome ∧ row.failedAt = none) ∧
        (last.world.outbox.committed 2).any fun row => row.failedAt.isSome) = true :=
    Machine.exists_run mixedTick (by decide +kernel)
  exact ⟨positive, steps, last, ran, checked, relay_neither_loses_nor_falsely_delivers positive ran⟩

end Runs

end IncidentPlatform.Properties

import IncidentPlatform.Properties.RelayDelivery

namespace IncidentPlatform.Properties

open Concurrency Models Platform Services Storage Workers

/-! # The order of one key

Two rows of one topic and key reach Kafka in the order their transactions
committed, as long as `created_at` follows that order and no tick goes past a row
that it will try again.
-/

variable {settings : Settings} {relay next : OutboxRelay}

inductive RelayEvent (settings : Settings) (relay next : OutboxRelay) : OutboxRelay.Action → Prop where
  | added {began : Time} {drafts : List OutboxDraft}
      (new : ∀ id row, next.world.outbox.committed id = some row →
        relay.world.outbox.committed id = some row ∨ relay.world.outbox.committed id = none ∧
          ∃ draft ∈ drafts, draft.row began = row)
      (old : ∀ id row, relay.world.outbox.committed id = some row →
        next.world.outbox.committed id = some row)
      (broker : next.world.broker = relay.world.broker) (fetched : next.fetched = relay.fetched)
      (attempts : next.attempts = relay.attempts) :
      RelayEvent settings relay next (.transaction began drafts)
  | quiet {action : OutboxRelay.Action}
      (committed : ∀ id, next.world.outbox.committed id = relay.world.outbox.committed id)
      (broker : next.world.broker = relay.world.broker) (fetched : next.fetched = relay.fetched)
      (attempts : next.attempts = relay.attempts) : RelayEvent settings relay next action
  | fetch (committed : ∀ id, next.world.outbox.committed id = relay.world.outbox.committed id)
      (broker : next.world.broker = relay.world.broker) (closed : OutboxClosed relay.world)
      (fetched : next.fetched = relay.world.answer relaySession
        (.unpublished outboxRelayBatch settings.outboxMaxAttempts))
      (attempts : next.attempts = relay.attempts) : RelayEvent settings relay next .run
  | sent {row : OutboxRow} {rest : List OutboxRow} {after : PublishResult → Prog Unit}
      (tick : relay.tick = some (.call (.publishRaw row) after))
      (committed : ∀ id, next.world.outbox.committed id = relay.world.outbox.committed id)
      (broker : relay.world.outside.publish = .acknowledged ∧
          next.world.broker = row :: relay.world.broker ∨
        relay.world.outside.publish ≠ .acknowledged ∧ next.world.broker = relay.world.broker)
      (batch : Batch relay.world relay.fetched)
      (queued : relay.fetched = relay.attempts.map Prod.fst ++ row :: rest)
      (fetched : next.fetched = relay.fetched)
      (attempts : next.attempts = relay.attempts ++ [(row, relay.world.outside.publish)]) :
      RelayEvent settings relay next .run
  | recorded (rows : ∀ id row, next.world.outbox.committed id = some row →
        ∃ before, relay.world.outbox.committed id = some before ∧
          ((row = before ∧ ∀ attempt ∈ relay.attempts, attempt.1.id ≠ id) ∨
            ∃ attempt ∈ relay.attempts, (∀ other ∈ relay.attempts, other.1.id = id → other = attempt) ∧
              attempt.1 = before ∧ (markOf settings attempt).Applied before row))
      (old : ∀ id row, relay.world.outbox.committed id = some row →
        ∃ after, next.world.outbox.committed id = some after)
      (broker : next.world.broker = relay.world.broker) (fetched : next.fetched = relay.fetched)
      (attempts : next.attempts = []) : RelayEvent settings relay next .run
  | crashed (committed : ∀ id, next.world.outbox.committed id = relay.world.outbox.committed id)
      (broker : next.world.broker = relay.world.broker) (fetched : next.fetched = relay.fetched)
      (attempts : next.attempts = []) : RelayEvent settings relay next .crash

theorem added_of_transaction {began : Time} {drafts : List OutboxDraft} {world : World}
    {inserted : Table Uuid OutboxRow}
    (free : ∀ id row, (world.outbox.slot id).holder ≠ some (writerSession, row))
    (added : insertAll (drafts.map (OutboxDraft.row began)) world.outbox = some inserted) :
    (∀ id row, (inserted.commit writerSession).committed id = some row →
      world.outbox.committed id = some row ∨ world.outbox.committed id = none ∧
        ∃ draft ∈ drafts, draft.row began = row) ∧
    ∀ id row, world.outbox.committed id = some row →
      (inserted.commit writerSession).committed id = some row := by
  have commits := Table.commit_slot inserted writerSession
  constructor
  · intro id row stored
    have slot : ((inserted.slot id).commit writerSession).committed = some row :=
      (congrArg Slot.committed (commits id)).symm.trans stored
    obtain same | ⟨empty, new, member, _, written⟩ := insertAll_slot added id
    · rw [same, commit_writer (free id)] at slot
      exact .inl slot
    · rw [written] at slot
      cases slot
      obtain ⟨draft, among, made⟩ := List.mem_map.mp member
      exact .inr ⟨congrArg Slot.committed empty, draft, among, made⟩
  · intro id row stored
    refine (congrArg Slot.committed (commits id)).trans ?_
    obtain same | ⟨empty, _⟩ := insertAll_slot added id
    · rw [same, commit_writer (free id)]
      exact stored
    · have absent : world.outbox.committed id = none := congrArg Slot.committed empty
      rw [absent] at stored
      cases stored

theorem executed_marking {done todo : List Marking} {marking : Marking} {now : Time}
    {reply : (marking.statement now).Reply} {after : World}
    (planned : markings (batchOf settings relay.attempts) = done ++ marking :: todo)
    (marked : Marked relay.world done) (batch : Batch relay.world (relay.attempts.map Prod.fst))
    (executed : relay.world.execute relaySession (marking.statement now) = some (reply, after)) :
    (∀ id, after.outbox.committed id = relay.world.outbox.committed id) ∧
      after.broker = relay.world.broker := by
  have distinct := planned ▸ batch.markings_distinct
  refine (marked.step distinct (fun id covered => ?_) executed).2
  have member : marking ∈ markings (batchOf settings relay.attempts) := by simp [planned]
  obtain ⟨attempt, _, _, _, found⟩ := batch.covers member covered
  exact ⟨attempt.1, found⟩

theorem run_event (kept : RelayKept settings relay)
    (stepped : OutboxRelay.step settings .run relay = some next) :
    RelayEvent settings relay next .run := by
  cases kept.phase with
  | idle tick unsent closed =>
      simp only [OutboxRelay.step, tick] at stepped
      contradiction
  | fetching tick unsent closed =>
      rw [outboxRelayTick_eq] at tick
      simp only [OutboxRelay.step, tick] at stepped
      cases stepped
      exact .fetch (fun _ => rfl) rfl closed rfl rfl
  | fetched tick fetched unsent closed batch =>
      simp only [OutboxRelay.step, tick] at stepped
      cases stepped
      exact .quiet (fun id => congrArg Slot.committed (commit_closed closed id)) rfl rfl unsent.symm
  | @publishing row rest tick fetched closed batch =>
      rw [publishFrom, publishBatch_cons] at tick
      rw [← fetched] at batch
      simp only [OutboxRelay.step, tick, Program.call_bind, World.operate] at stepped
      split at stepped
      · rename_i reply world operated
        cases stepped
        split at operated
        · rename_i acknowledged
          cases operated
          refine .sent tick (fun _ => rfl) (.inl ⟨acknowledged, rfl⟩) batch fetched rfl ?_
          rw [acknowledged]
          rfl
        · rename_i failing
          cases operated
          exact .sent tick (fun _ => rfl) (.inr ⟨failing, rfl⟩) batch fetched rfl rfl
      · contradiction
  | @marking done todo planned tick marked batch =>
      cases todo with
      | nil =>
          have all := planned.trans (List.append_nil done)
          have direct : relay.tick = some (.call .commit .done) := tick
          simp only [OutboxRelay.step, direct, World.operate] at stepped
          cases stepped
          refine .recorded (fun id row stored => ?_) (fun id row stored => ?_) rfl rfl rfl
          · by_cases tried : ∃ attempt ∈ relay.attempts, attempt.1.id = id
            · obtain ⟨attempt, member, rfl⟩ := tried
              obtain ⟨version, slot, applied⟩ := marked.commit_tried all batch member
              have same : some version = some row := (congrArg Slot.committed slot).symm.trans stored
              cases same
              have distinct := batch.distinct
              rw [List.map_map] at distinct
              exact ⟨attempt.1, batch.stored _ (List.mem_map_of_mem member), .inr ⟨attempt, member,
                fun other among named => List.inj_on_of_nodup_map distinct among member named, rfl,
                applied⟩⟩
            · have untried : ∀ attempt ∈ relay.attempts, attempt.1.id ≠ id :=
                fun attempt member named => tried ⟨attempt, member, named⟩
              have slot := (marked.commit_untried all untried).1
              exact ⟨row, (congrArg Slot.committed slot).symm.trans stored, .inl ⟨rfl, untried⟩⟩
          · by_cases tried : ∃ attempt ∈ relay.attempts, attempt.1.id = id
            · obtain ⟨attempt, member, rfl⟩ := tried
              obtain ⟨version, slot, _⟩ := marked.commit_tried all batch member
              exact ⟨version, congrArg Slot.committed slot⟩
            · have slot := (marked.commit_untried all
                fun attempt member named => tried ⟨attempt, member, named⟩).1
              exact ⟨row, (congrArg Slot.committed slot).trans stored⟩
      | cons marking todo =>
          cases marking with
          | published ids =>
              simp only [OutboxRelay.step, tick] at stepped
              cases stepped
              exact .quiet (fun _ => rfl) rfl rfl rfl
          | failed id error =>
              simp only [OutboxRelay.step, tick] at stepped
              cases stepped
              exact .quiet (fun _ => rfl) rfl rfl rfl
          | retry ids =>
              have direct : relay.tick = some (.call (.statement (.incrementAttempts ids)) fun _ =>
                markAll todo) := tick
              simp only [OutboxRelay.step, direct, World.operate] at stepped
              split at stepped
              · rename_i reply world executed
                cases stepped
                obtain ⟨committed, broker⟩ :=
                  @executed_marking _ _ _ _ (.retry ids) 0 _ _ planned marked batch executed
                exact .quiet committed broker rfl rfl
              · contradiction
  | stamping planned tick marked batch =>
      simp only [OutboxRelay.step, tick, World.operate] at stepped
      split at stepped
      · rename_i reply world executed
        cases stepped
        obtain ⟨committed, broker⟩ := executed_marking planned marked batch executed
        exact .quiet committed broker rfl rfl
      · contradiction
  | ended tick unsent closed =>
      simp only [OutboxRelay.step, tick] at stepped
      cases stepped
      exact .quiet (fun _ => rfl) rfl rfl rfl

theorem relay_event {action : OutboxRelay.Action} (kept : RelayKept settings relay)
    (stepped : OutboxRelay.step settings action relay = some next) :
    RelayEvent settings relay next action := by
  cases action with
  | transaction began drafts =>
      simp only [OutboxRelay.step] at stepped
      split at stepped
      · rename_i inserted added
        cases stepped
        have free : ∀ id row, (relay.world.outbox.slot id).holder ≠ some (writerSession, row) := by
          intro id row held
          have owner := kept.phase.holder held
          contradiction
        obtain ⟨new, old⟩ := added_of_transaction free added
        exact .added new old rfl rfl rfl
      · contradiction
  | outside readings =>
      cases stepped
      exact .quiet (fun _ => rfl) rfl rfl rfl
  | reorder order =>
      simp only [OutboxRelay.step] at stepped
      split at stepped
      · cases stepped
        exact .quiet (fun _ => rfl) rfl rfl rfl
      · contradiction
  | begin =>
      simp only [OutboxRelay.step] at stepped
      split at stepped
      · cases stepped
        exact .quiet (fun _ => rfl) rfl rfl rfl
      · contradiction
  | run => exact run_event kept stepped
  | crash =>
      simp only [OutboxRelay.step] at stepped
      split at stepped
      · cases stepped
        exact .crashed (fun _ => rfl) rfl rfl rfl
      · contradiction

def SameStream (first second : OutboxRow) : Prop :=
  first.topic = second.topic ∧ first.key = second.key

/-- Every acknowledgement of `second` comes after one of `first`. -/
def Precedes (broker : List OutboxRow) (first second : Uuid) : Prop :=
  ∀ newer older sent, broker = newer ++ sent :: older → sent.id = second →
    ∃ acknowledged ∈ older, acknowledged.id = first

theorem Precedes.of_absent {broker : List OutboxRow} {first second : Uuid}
    (absent : ∀ sent ∈ broker, sent.id ≠ second) : Precedes broker first second := by
  rintro newer older sent rfl named
  exact absurd named (absent sent (by simp))

theorem Precedes.cons {broker : List OutboxRow} {first second : Uuid} {row : OutboxRow}
    (precedes : Precedes broker first second)
    (before : row.id = second → ∃ acknowledged ∈ broker, acknowledged.id = first) :
    Precedes (row :: broker) first second := by
  intro newer older sent listed named
  cases newer with
  | nil =>
      cases listed
      exact before named
  | cons newest newer =>
      cases listed
      exact precedes newer older sent rfl named

def GivenUp (settings : Settings) (attempt : PublishAttempt) : Prop :=
  ∃ error, markOf settings attempt = .failed error

def Orderly (settings : Settings) (relay : OutboxRelay) : OutboxRelay.Action → Prop
  | .transaction began drafts => ∀ draft ∈ drafts, ∀ id row,
      relay.world.outbox.committed id = some row → SameStream row (draft.row began) →
      row.createdAt < began
  | .run => ∀ row after, relay.tick = some (.call (.publishRaw row) after) →
      relay.world.outside.publish = .acknowledged → ∀ attempt ∈ relay.attempts,
      SameStream attempt.1 row → attempt.1.createdAt < row.createdAt →
      attempt.2 = .acknowledged ∨ GivenUp settings attempt
  | .crash => ∀ earlier ∈ relay.attempts, ∀ later ∈ relay.attempts, later.2 = .acknowledged →
      SameStream earlier.1 later.1 → earlier.1.createdAt < later.1.createdAt → ¬ GivenUp settings earlier
  | _ => True

def createdBefore (first second : OutboxRow) : Prop := first.createdAt ≤ second.createdAt

structure RelayOrdered (settings : Settings) (relay : OutboxRelay) : Prop where
  known : ∀ sent ∈ relay.world.broker, ∃ row, relay.world.outbox.committed sent.id = some row
  sorted : relay.fetched.Pairwise createdBefore
  current : ∀ event ∈ relay.fetched, ∃ row, relay.world.outbox.committed event.id = some row ∧
    SameStream row event ∧ row.createdAt = event.createdAt
  complete : ∀ event ∈ relay.fetched, ∀ id row, relay.world.outbox.committed id = some row →
    SameStream row event → row.createdAt < event.createdAt →
    row.publishedAt.isSome ∨ id ∈ relay.fetched.map OutboxRow.id
  streams : ∀ firstId first secondId second,
    relay.world.outbox.committed firstId = some first →
    relay.world.outbox.committed secondId = some second →
    SameStream first second → first.createdAt < second.createdAt →
    Precedes relay.world.broker firstId secondId ∨ first.failedAt.isSome ∨
      (∃ attempt ∈ relay.attempts, attempt.1.id = firstId ∧ GivenUp settings attempt) ∧
        ∃ sent, (sent, PublishResult.acknowledged) ∈ relay.attempts ∧ sent.id = secondId

theorem SameStream.trans {first second third : OutboxRow} (left : SameStream first second)
    (right : SameStream second third) : SameStream first third :=
  ⟨left.1.trans right.1, left.2.trans right.2⟩

theorem SameStream.symm {first second : OutboxRow} (same : SameStream first second) :
    SameStream second first :=
  ⟨same.1.symm, same.2.symm⟩

theorem Mark.Applied.kept {mark : Mark} {row marked : OutboxRow} (applied : mark.Applied row marked) :
    SameStream marked row ∧ marked.createdAt = row.createdAt ∧
      (row.publishedAt.isSome → marked.publishedAt.isSome) ∧
      (row.failedAt.isSome → marked.failedAt.isSome) := by
  cases mark with
  | published =>
      obtain ⟨stamp, rfl⟩ := applied
      exact ⟨⟨rfl, rfl⟩, rfl, fun _ => rfl, id⟩
  | retry =>
      cases applied
      exact ⟨⟨rfl, rfl⟩, rfl, id, id⟩
  | failed error =>
      obtain ⟨stamp, rfl⟩ := applied
      exact ⟨⟨rfl, rfl⟩, rfl, fun _ => rfl, fun _ => rfl⟩

theorem RelayOrdered.quiet (ordered : RelayOrdered settings relay)
    (committed : ∀ id, next.world.outbox.committed id = relay.world.outbox.committed id)
    (broker : next.world.broker = relay.world.broker) (fetched : next.fetched = relay.fetched)
    (attempts : next.attempts = relay.attempts) : RelayOrdered settings next := by
  constructor
  · simpa only [broker, committed] using ordered.known
  · simpa only [fetched] using ordered.sorted
  · simpa only [fetched, committed] using ordered.current
  · simpa only [fetched, committed] using ordered.complete
  · simpa only [broker, committed, attempts] using ordered.streams

theorem RelayOrdered.added {began : Time} {drafts : List OutboxDraft}
    (ordered : RelayOrdered settings relay) (orderly : Orderly settings relay (.transaction began drafts))
    (new : ∀ id row, next.world.outbox.committed id = some row →
      relay.world.outbox.committed id = some row ∨ relay.world.outbox.committed id = none ∧
        ∃ draft ∈ drafts, draft.row began = row)
    (old : ∀ id row, relay.world.outbox.committed id = some row →
      next.world.outbox.committed id = some row)
    (broker : next.world.broker = relay.world.broker) (fetched : next.fetched = relay.fetched)
    (attempts : next.attempts = relay.attempts) : RelayOrdered settings next := by
  constructor
  · intro sent member
    rw [broker] at member
    obtain ⟨row, stored⟩ := ordered.known sent member
    exact ⟨row, old _ row stored⟩
  · rw [fetched]
    exact ordered.sorted
  · intro event member
    rw [fetched] at member
    obtain ⟨row, stored, same⟩ := ordered.current event member
    exact ⟨row, old _ row stored, same⟩
  · intro event member id row stored same earlier
    rw [fetched] at member ⊢
    obtain present | ⟨_, draft, among, rfl⟩ := new id row stored
    · exact ordered.complete event member id row present same earlier
    · -- A new row of the stream is younger than every row that was there.
      obtain ⟨held, found, agrees, created⟩ := ordered.current event member
      have younger := orderly draft among _ held found (agrees.trans same.symm)
      rw [created] at younger
      exact absurd (younger.trans earlier) (Nat.lt_irrefl _)
  · intro firstId first secondId second storedFirst storedSecond same earlier
    rw [broker, attempts]
    obtain present | ⟨absent, draft, among, rfl⟩ := new secondId second storedSecond
    · obtain held | ⟨_, draft, among, rfl⟩ := new firstId first storedFirst
      · exact ordered.streams firstId first secondId second held present same earlier
      · have younger := orderly draft among secondId second present same.symm
        exact absurd (younger.trans earlier) (Nat.lt_irrefl _)
    · refine .inl (.of_absent fun sent member named => ?_)
      obtain ⟨row, stored⟩ := ordered.known sent member
      rw [named, absent] at stored
      cases stored

theorem pairwise_createdBefore (rows : List OutboxRow) :
    (rows.insertionSort fun first second => first.createdAt ≤ second.createdAt).Pairwise
      createdBefore := by
  have total : Std.Total fun first second : OutboxRow => first.createdAt ≤ second.createdAt :=
    ⟨fun first second => Nat.le_total first.createdAt second.createdAt⟩
  have transitive : IsTrans OutboxRow fun first second => first.createdAt ≤ second.createdAt :=
    ⟨fun _ _ _ left right => Nat.le_trans left right⟩
  exact List.pairwise_insertionSort (fun first second => first.createdAt ≤ second.createdAt) rows

theorem mem_take_of_older {rows : List OutboxRow} {limit : Nat} {row event : OutboxRow}
    (sorted : rows.Pairwise createdBefore) (taken : event ∈ rows.take limit) (listed : row ∈ rows)
    (older : row.createdAt < event.createdAt) : row ∈ rows.take limit := by
  rw [← List.take_append_drop limit rows] at sorted listed
  obtain inside | dropped := List.mem_append.mp listed
  · exact inside
  · have later : event.createdAt ≤ row.createdAt :=
      (List.pairwise_append.mp sorted).2.2 event taken row dropped
    exact absurd older (Nat.not_lt.mpr later)

theorem RelayOrdered.fetch (kept : RelayKept settings relay) (ordered : RelayOrdered settings relay)
    (committed : ∀ id, next.world.outbox.committed id = relay.world.outbox.committed id)
    (broker : next.world.broker = relay.world.broker) (closed : OutboxClosed relay.world)
    (fetched : next.fetched = relay.world.answer relaySession
      (.unpublished outboxRelayBatch settings.outboxMaxAttempts))
    (attempts : next.attempts = relay.attempts) : RelayOrdered settings next := by
  have batch := batch_of_fetch kept closed outboxRelayBatch settings.outboxMaxAttempts
  rw [← fetched] at batch
  constructor
  · simpa only [broker, committed] using ordered.known
  · rw [fetched]
    exact (pairwise_createdBefore _).sublist (List.take_sublist _ _)
  · intro event member
    exact ⟨event, (committed _).trans (batch.stored event member), ⟨rfl, rfl⟩, rfl⟩
  · intro event member id row stored same older
    rw [committed] at stored
    have keyed := (kept.rows id row stored).keyed
    cases published : row.publishedAt with
    | some stamp => exact .inl rfl
    | none =>
        obtain ⟨_, below, _⟩ := (kept.rows id row stored).eligible published
        have window := List.mem_of_mem_take (fetched ▸ member)
        rw [List.mem_insertionSort, List.mem_filter] at window
        have positive : 0 < settings.outboxMaxAttempts :=
          Nat.lt_of_le_of_lt (Nat.zero_le _) (of_decide_eq_true (Bool.and_eq_true_iff.mp window.2).2)
        have seen : relay.world.outbox.visible relaySession id = some row :=
          (visible_of_closed closed id).trans stored
        rw [fetched] at member ⊢
        refine .inr (List.mem_map.mpr ⟨row, ?_, keyed⟩)
        refine mem_take_of_older (pairwise_createdBefore _) member ?_ older
        rw [List.mem_insertionSort, List.mem_filter]
        exact ⟨Table.mem_rows_iff.mpr ⟨id, seen⟩, by simp [published, below positive]⟩
  · simpa only [broker, committed, attempts] using ordered.streams

theorem older_settled {row : OutboxRow} {rest : List OutboxRow} {after : PublishResult → Prog Unit}
    {firstId : Uuid} {first : OutboxRow} (kept : RelayKept settings relay)
    (ordered : RelayOrdered settings relay) (orderly : Orderly settings relay .run)
    (tick : relay.tick = some (.call (.publishRaw row) after))
    (acknowledged : relay.world.outside.publish = .acknowledged)
    (batch : Batch relay.world relay.fetched)
    (queued : relay.fetched = relay.attempts.map Prod.fst ++ row :: rest)
    (stored : relay.world.outbox.committed firstId = some first) (same : SameStream first row)
    (older : first.createdAt < row.createdAt) :
    (∃ sent ∈ relay.world.broker, sent.id = firstId) ∨ first.failedAt.isSome ∨
      ∃ attempt ∈ relay.attempts, attempt.1.id = firstId ∧ GivenUp settings attempt := by
  have member : row ∈ relay.fetched := by simp [queued]
  obtain published | listed := ordered.complete row member firstId first stored same older
  · cases failed : first.failedAt with
    | some stamp => exact .inr (.inl rfl)
    | none => exact .inl ((kept.rows firstId first stored).delivered published failed)
  · obtain ⟨event, among, named⟩ := List.mem_map.mp listed
    have found := batch.stored event among
    rw [named, stored] at found
    cases found
    have tried : first ∈ relay.attempts.map Prod.fst := by
      have sorted := ordered.sorted
      rw [queued] at among sorted
      obtain gone | ahead := List.mem_append.mp among
      · exact gone
      · have pairs := List.pairwise_cons.mp (List.pairwise_append.mp sorted).2.1
        obtain rfl | later := List.mem_cons.mp ahead
        · exact absurd older (Nat.lt_irrefl _)
        · exact absurd older (Nat.not_lt.mpr (pairs.1 first later))
    obtain ⟨attempt, attempted, rfl⟩ := List.mem_map.mp tried
    obtain sent | givenUp := orderly row after tick acknowledged attempt attempted same older
    · exact .inl ⟨attempt.1, kept.acknowledged attempt.1 (sent ▸ attempted), named⟩
    · exact .inr (.inr ⟨attempt, attempted, named, givenUp⟩)

theorem RelayOrdered.sent {row : OutboxRow} {rest : List OutboxRow} {after : PublishResult → Prog Unit}
    (kept : RelayKept settings relay) (ordered : RelayOrdered settings relay)
    (orderly : Orderly settings relay .run)
    (tick : relay.tick = some (.call (.publishRaw row) after))
    (committed : ∀ id, next.world.outbox.committed id = relay.world.outbox.committed id)
    (broker : relay.world.outside.publish = .acknowledged ∧
        next.world.broker = row :: relay.world.broker ∨
      relay.world.outside.publish ≠ .acknowledged ∧ next.world.broker = relay.world.broker)
    (batch : Batch relay.world relay.fetched)
    (queued : relay.fetched = relay.attempts.map Prod.fst ++ row :: rest)
    (fetched : next.fetched = relay.fetched)
    (attempts : next.attempts = relay.attempts ++ [(row, relay.world.outside.publish)]) :
    RelayOrdered settings next := by
  have current : row ∈ relay.fetched := by simp [queued]
  have grown : ∀ attempt ∈ relay.attempts, attempt ∈ next.attempts := by
    intro attempt member
    rw [attempts]
    exact List.mem_append_left _ member
  refine ⟨?_, ?_, ?_, ?_, ?_⟩
  · intro sent member
    simp only [committed]
    obtain ⟨_, cons⟩ | ⟨_, same⟩ := broker
    · rw [cons] at member
      obtain rfl | older := List.mem_cons.mp member
      · exact ⟨_, batch.stored _ current⟩
      · exact ordered.known sent older
    · rw [same] at member
      exact ordered.known sent member
  · simpa only [fetched] using ordered.sorted
  · simpa only [fetched, committed] using ordered.current
  · simpa only [fetched, committed] using ordered.complete
  · intro firstId first secondId second storedFirst storedSecond same older
    rw [committed] at storedFirst storedSecond
    obtain precedes | dead | ⟨⟨attempt, tried, named, givenUp⟩, sent, acknowledged, second⟩ :=
      ordered.streams firstId first secondId second storedFirst storedSecond same older
    · obtain ⟨acknowledged, cons⟩ | ⟨_, unchanged⟩ := broker
      · by_cases hits : row.id = secondId
        · have stored := batch.stored row current
          rw [hits, storedSecond] at stored
          cases stored
          obtain before | dead | ⟨attempt, tried, named, givenUp⟩ :=
            older_settled kept ordered orderly tick acknowledged batch queued storedFirst same older
          · rw [cons]
            exact .inl (precedes.cons fun _ => before)
          · exact .inr (.inl dead)
          · refine .inr (.inr ⟨⟨attempt, grown attempt tried, named, givenUp⟩, row, ?_, hits⟩)
            rw [attempts, acknowledged]
            exact List.mem_append_right _ List.mem_cons_self
        · rw [cons]
          exact .inl (precedes.cons fun named => absurd named hits)
      · rw [unchanged]
        exact .inl precedes
    · exact .inr (.inl dead)
    · exact .inr (.inr ⟨⟨attempt, grown attempt tried, named, givenUp⟩, sent, grown _ acknowledged,
        second⟩)

theorem RelayOrdered.recorded (ordered : RelayOrdered settings relay)
    (rows : ∀ id row, next.world.outbox.committed id = some row →
      ∃ before, relay.world.outbox.committed id = some before ∧
        ((row = before ∧ ∀ attempt ∈ relay.attempts, attempt.1.id ≠ id) ∨
          ∃ attempt ∈ relay.attempts, (∀ other ∈ relay.attempts, other.1.id = id → other = attempt) ∧
            attempt.1 = before ∧ (markOf settings attempt).Applied before row))
    (old : ∀ id row, relay.world.outbox.committed id = some row →
      ∃ after, next.world.outbox.committed id = some after)
    (broker : next.world.broker = relay.world.broker) (fetched : next.fetched = relay.fetched) :
    RelayOrdered settings next := by
  have agrees : ∀ id row, next.world.outbox.committed id = some row →
      ∃ before, relay.world.outbox.committed id = some before ∧ SameStream row before ∧
        row.createdAt = before.createdAt ∧ (before.publishedAt.isSome → row.publishedAt.isSome) ∧
        (before.failedAt.isSome → row.failedAt.isSome) := by
    intro id row stored
    obtain ⟨before, found, ⟨rfl, _⟩ | ⟨attempt, _, _, _, applied⟩⟩ := rows id row stored
    · exact ⟨_, found, ⟨rfl, rfl⟩, rfl, fun published => published, fun failed => failed⟩
    · exact ⟨before, found, applied.kept⟩
  refine ⟨?_, ?_, ?_, ?_, ?_⟩
  · intro sent member
    rw [broker] at member
    obtain ⟨row, stored⟩ := ordered.known sent member
    exact old _ row stored
  · rw [fetched]
    exact ordered.sorted
  · intro event member
    rw [fetched] at member
    obtain ⟨before, stored, same, created⟩ := ordered.current event member
    obtain ⟨row, found⟩ := old _ before stored
    obtain ⟨earlier, stored', stream, at', _⟩ := agrees _ row found
    rw [stored] at stored'
    cases stored'
    exact ⟨row, found, stream.trans same, at'.trans created⟩
  · intro event member id row stored same older
    rw [fetched] at member ⊢
    obtain ⟨before, found, stream, created, published, _⟩ := agrees id row stored
    rw [created] at older
    exact (ordered.complete event member id before found (stream.symm.trans same) older).imp_left
      published
  · intro firstId first secondId second storedFirst storedSecond same older
    obtain ⟨firstBefore, foundFirst, firstStream, firstCreated, _, firstFailed⟩ :=
      agrees firstId first storedFirst
    obtain ⟨secondBefore, foundSecond, secondStream, secondCreated, _, _⟩ :=
      agrees secondId second storedSecond
    rw [firstCreated, secondCreated] at older
    rw [broker]
    obtain precedes | dead | ⟨⟨attempt, tried, named, error, givenUp⟩, _⟩ :=
      ordered.streams firstId firstBefore secondId secondBefore foundFirst foundSecond
        ((firstStream.symm.trans same).trans secondStream) older
    · exact .inl precedes
    · exact .inr (.inl (firstFailed dead))
    · -- The row given up in this tick is dead-lettered by its marks.
      obtain ⟨before, found, ⟨_, untried⟩ | ⟨other, _, only, _, applied⟩⟩ :=
        rows firstId first storedFirst
      · exact absurd named (untried attempt tried)
      · rw [← only attempt tried named, givenUp] at applied
        obtain ⟨stamp, rfl⟩ := applied
        exact .inr (.inl rfl)

theorem RelayKept.tried_stored {attempt : PublishAttempt} (kept : RelayKept settings relay)
    (tried : attempt ∈ relay.attempts) :
    relay.world.outbox.committed attempt.1.id = some attempt.1 := by
  have member : attempt.1 ∈ relay.attempts.map Prod.fst := List.mem_map_of_mem tried
  have sent : relay.attempts ≠ [] := List.ne_nil_of_mem tried
  cases kept.phase with
  | idle _ unsent => exact absurd unsent sent
  | fetching _ unsent => exact absurd unsent sent
  | fetched _ _ unsent => exact absurd unsent sent
  | publishing _ _ _ batch => exact batch.stored _ (List.mem_append_left _ member)
  | marking _ _ _ batch => exact batch.stored _ member
  | stamping _ _ _ batch => exact batch.stored _ member
  | ended _ unsent => exact absurd unsent sent

theorem RelayOrdered.crashed (kept : RelayKept settings relay) (ordered : RelayOrdered settings relay)
    (orderly : Orderly settings relay .crash)
    (committed : ∀ id, next.world.outbox.committed id = relay.world.outbox.committed id)
    (broker : next.world.broker = relay.world.broker) (fetched : next.fetched = relay.fetched) :
    RelayOrdered settings next := by
  constructor
  · simpa only [broker, committed] using ordered.known
  · simpa only [fetched] using ordered.sorted
  · simpa only [fetched, committed] using ordered.current
  · simpa only [fetched, committed] using ordered.complete
  · intro firstId first secondId second storedFirst storedSecond same older
    rw [committed] at storedFirst storedSecond
    rw [broker]
    obtain precedes | dead | ⟨⟨attempt, tried, rfl, givenUp⟩, sent, acknowledged, rfl⟩ :=
      ordered.streams firstId first secondId second storedFirst storedSecond same older
    · exact .inl precedes
    · exact .inr (.inl dead)
    · have firstStored := kept.tried_stored tried
      have secondStored := kept.tried_stored acknowledged
      rw [storedFirst] at firstStored
      rw [storedSecond] at secondStored
      cases firstStored
      cases secondStored
      exact absurd givenUp (orderly attempt tried _ acknowledged rfl same older)

theorem RelayOrdered.step {action : OutboxRelay.Action} (kept : RelayKept settings relay)
    (ordered : RelayOrdered settings relay) (orderly : Orderly settings relay action)
    (stepped : OutboxRelay.step settings action relay = some next) : RelayOrdered settings next := by
  cases relay_event kept stepped with
  | added new old broker fetched attempts =>
      exact ordered.added orderly new old broker fetched attempts
  | quiet committed broker fetched attempts => exact ordered.quiet committed broker fetched attempts
  | fetch committed broker closed fetched attempts =>
      exact ordered.fetch kept committed broker closed fetched attempts
  | sent tick committed broker batch queued fetched attempts =>
      exact ordered.sent kept orderly tick committed broker batch queued fetched attempts
  | recorded rows old broker fetched attempts => exact ordered.recorded rows old broker fetched
  | crashed committed broker fetched attempts =>
      exact ordered.crashed kept orderly committed broker fetched

section Runs

variable {outside : Outside} {steps : List (OutboxRelay × OutboxRelay.Action)} {last : OutboxRelay}

theorem relay_ordered (ran : (OutboxRelay.machine settings outside).Run steps last)
    (orderly : ∀ taken ∈ steps, Orderly settings taken.1 taken.2) :
    ∀ relay ∈ Machine.visited steps last, RelayKept settings relay ∧ RelayOrdered settings relay := by
  have advance : ∀ {before action after}, RelayKept settings before ∧ RelayOrdered settings before →
      Orderly settings before action →
      (OutboxRelay.machine settings outside).step action before = some after →
      RelayKept settings after ∧ RelayOrdered settings after :=
    fun both permitted stepped => ⟨both.1.step stepped, both.2.step both.1 permitted stepped⟩
  refine ran.always ⟨relay_kept .start _ List.mem_cons_self, ?_⟩ advance orderly
  constructor
  · intro sent member
    cases member
  · exact .nil
  · intro event member
    cases member
  · intro event member
    cases member
  · intro firstId first secondId second stored
    cases stored

theorem insertAll_stored {rows : List OutboxRow} {outbox inserted : Table Uuid OutboxRow}
    {row : OutboxRow} (added : insertAll rows outbox = some inserted) (member : row ∈ rows) :
    inserted.slot row.id = { committed := none, holder := some (writerSession, row) } := by
  induction rows generalizing outbox with
  | nil => cases member
  | cons first rest ih =>
      obtain ⟨table, inserts, others⟩ := Option.bind_eq_some_iff.mp added
      obtain rfl | later := List.mem_cons.mp member
      · obtain ⟨different, _⟩ | ⟨_, empty, wrote⟩ := Table.insert_slot inserts row.id
        · contradiction
        · rw [empty] at wrote
          obtain same | ⟨taken, _⟩ := insertAll_slot others row.id
          · exact same.trans wrote
          · rw [wrote] at taken
            cases taken
      · exact ih others later

theorem stored_of_transaction {began : Time} {drafts : List OutboxDraft} {draft : OutboxDraft}
    (stepped : OutboxRelay.step settings (.transaction began drafts) relay = some next)
    (member : draft ∈ drafts) :
    next.world.outbox.committed draft.id = some (draft.row began) := by
  simp only [OutboxRelay.step] at stepped
  split at stepped
  · rename_i inserted added
    cases stepped
    have slot := insertAll_stored added (List.mem_map_of_mem (f := OutboxDraft.row began) member)
    have commits := Table.commit_slot inserted writerSession draft.id
    have named : (draft.row began).id = draft.id := rfl
    rw [named] at slot
    rw [slot] at commits
    exact congrArg Slot.committed commits
  · contradiction

theorem stored_kept {action : OutboxRelay.Action} {id : Uuid} {row : OutboxRow}
    (kept : RelayKept settings relay) (stored : relay.world.outbox.committed id = some row)
    (stepped : OutboxRelay.step settings action relay = some next) :
    ∃ after, next.world.outbox.committed id = some after ∧ SameStream after row ∧
      after.createdAt = row.createdAt := by
  have same : ∀ {world : World}, world.outbox.committed id = relay.world.outbox.committed id →
      ∃ after, world.outbox.committed id = some after ∧ SameStream after row ∧
        after.createdAt = row.createdAt :=
    fun unchanged => ⟨row, unchanged.trans stored, ⟨rfl, rfl⟩, rfl⟩
  cases relay_event kept stepped with
  | added new old => exact ⟨row, old id row stored, ⟨rfl, rfl⟩, rfl⟩
  | quiet committed => exact same (committed id)
  | fetch committed => exact same (committed id)
  | sent tick committed => exact same (committed id)
  | crashed committed => exact same (committed id)
  | recorded rows old =>
      obtain ⟨after, found⟩ := old id row stored
      obtain ⟨before, was, ⟨rfl, _⟩ | ⟨attempt, _, _, _, applied⟩⟩ := rows id after found
      · rw [stored] at was
        cases was
        exact ⟨row, found, ⟨rfl, rfl⟩, rfl⟩
      · rw [stored] at was
        cases was
        exact ⟨after, found, applied.kept.1, applied.kept.2.1⟩

/-- The row of a draft, as its transaction wrote it apart from the relay's marks. -/
def DraftStored (began : Time) (draft : OutboxDraft) (relay : OutboxRelay) : Prop :=
  ∃ row, relay.world.outbox.committed draft.id = some row ∧ SameStream row (draft.row began) ∧
    row.createdAt = began

theorem stored_since {start : OutboxRelay} {began : Time} {drafts : List OutboxDraft}
    {draft : OutboxDraft} {later : List (OutboxRelay × OutboxRelay.Action)}
    (kept : RelayKept settings relay)
    (stepped : OutboxRelay.step settings (.transaction began drafts) relay = some start)
    (member : draft ∈ drafts) (ran : (OutboxRelay.machine settings outside).Segment start later last) :
    RelayKept settings last ∧ DraftStored began draft last := by
  induction ran with
  | start => exact ⟨kept.step stepped, _, stored_of_transaction stepped member, ⟨rfl, rfl⟩, rfl⟩
  | step _ moved ih =>
      obtain ⟨kept, row, stored, stream, created⟩ := ih
      obtain ⟨after, found, same, unchanged⟩ := stored_kept kept stored moved
      exact ⟨kept.step moved, after, found, same.trans stream, unchanged.trans created⟩

/-- In a run whose steps are orderly, between two ticks: of two rows of one topic
and key, the one whose transaction committed first was acknowledged before the
other ever was, or it is dead-lettered. -/
theorem relay_preserves_key_order (ran : (OutboxRelay.machine settings outside).Run steps last)
    (orderly : ∀ taken ∈ steps, Orderly settings taken.1 taken.2) (resting : last.tick = none)
    {later middle earlier : List (OutboxRelay × OutboxRelay.Action)}
    {relayFirst relaySecond : OutboxRelay} {beganFirst beganSecond : Time}
    {draftsFirst draftsSecond : List OutboxDraft} {first second : OutboxDraft}
    (listed : steps = later ++ (relaySecond, .transaction beganSecond draftsSecond) ::
      (middle ++ (relayFirst, .transaction beganFirst draftsFirst) :: earlier))
    (inFirst : first ∈ draftsFirst) (inSecond : second ∈ draftsSecond)
    (sameTopic : first.topic = second.topic) (sameKey : first.key = second.key) :
    Precedes last.world.broker first.id second.id ∨
      ∃ row, last.world.outbox.committed first.id = some row ∧ row.failedAt.isSome := by
  have everywhere := relay_ordered ran orderly
  have lastBoth := everywhere last List.mem_cons_self
  subst listed
  obtain ⟨afterSecond, untilSecond, steppedSecond, sinceSecond⟩ := ran.split
  obtain ⟨afterFirst, untilFirst, steppedFirst, betweenThem⟩ := untilSecond.split
  have keptFirst := (everywhere relayFirst (by simp [Machine.visited])).1
  have keptSecond := (everywhere relaySecond (by simp [Machine.visited])).1
  obtain ⟨_, held, storedThen, streamThen, createdThen⟩ :=
    stored_since keptFirst steppedFirst inFirst betweenThem
  -- The first row is there when the second one's transaction commits.
  have younger : beganFirst < beganSecond := by
    have permitted := orderly (relaySecond, .transaction beganSecond draftsSecond) (by simp)
    have stream : SameStream (first.row beganFirst) (second.row beganSecond) := ⟨sameTopic, sameKey⟩
    have before := permitted second inSecond first.id held storedThen (streamThen.trans stream)
    rwa [createdThen] at before
  have regrouped : later ++ (relaySecond, OutboxRelay.Action.transaction beganSecond draftsSecond) ::
        (middle ++ (relayFirst, .transaction beganFirst draftsFirst) :: earlier) =
      (later ++ (relaySecond, .transaction beganSecond draftsSecond) :: middle) ++
        (relayFirst, .transaction beganFirst draftsFirst) :: earlier := by simp
  rw [regrouped] at ran
  obtain ⟨_, _, firstStep, sinceFirst⟩ := ran.split
  obtain ⟨_, firstRow, storedFirst, streamFirst, createdFirst⟩ :=
    stored_since keptFirst firstStep inFirst sinceFirst
  obtain ⟨_, secondRow, storedSecond, streamSecond, createdSecond⟩ :=
    stored_since keptSecond steppedSecond inSecond sinceSecond
  have stream : SameStream firstRow secondRow := by
    have drafts : SameStream (first.row beganFirst) (second.row beganSecond) := ⟨sameTopic, sameKey⟩
    exact (streamFirst.trans drafts).trans streamSecond.symm
  have older : firstRow.createdAt < secondRow.createdAt := by
    rw [createdFirst, createdSecond]
    exact younger
  obtain precedes | dead | ⟨⟨attempt, tried, _⟩, _⟩ :=
    lastBoth.2.streams first.id firstRow second.id secondRow storedFirst storedSecond stream older
  · exact .inl precedes
  · exact .inr ⟨firstRow, storedFirst, dead⟩
  · have unsent : last.attempts = [] := by
      cases lastBoth.1.phase with
      | idle _ unsent => exact unsent
      | fetching tick => rw [resting] at tick; cases tick
      | fetched tick => rw [resting] at tick; cases tick
      | publishing tick => rw [resting] at tick; cases tick
      | marking _ tick => rw [resting] at tick; cases tick
      | stamping _ tick => rw [resting] at tick; cases tick
      | ended tick => rw [resting] at tick; cases tick
    rw [unsent] at tried
    cases tried

def isAcknowledged : PublishResult → Bool
  | .acknowledged => true
  | _ => false

/-- A check that finds only orderly steps: all publishes so far went through, and
every row that is there is older than the new ones. -/
def plainlyOrderly (taken : OutboxRelay × OutboxRelay.Action) : Bool :=
  match taken.2 with
  | .transaction began _ => taken.1.world.outbox.keys.all fun id =>
      (taken.1.world.outbox.committed id).all fun row => row.createdAt < began
  | .run => taken.1.attempts.all fun attempt => isAcknowledged attempt.2
  | .crash => false
  | _ => true

theorem orderly_of_plainly {taken : OutboxRelay × OutboxRelay.Action}
    (plainly : plainlyOrderly taken = true) : Orderly settings taken.1 taken.2 := by
  obtain ⟨relay, action⟩ := taken
  cases action with
  | transaction began drafts =>
      intro draft _ id row stored _
      have listed : id ∈ relay.world.outbox.keys := by
        by_contra absent
        rw [(relay.world.outbox.listed id absent).1] at stored
        cases stored
      have older := List.all_eq_true.mp plainly id listed
      rw [show relay.world.outbox.committed id = some row from stored] at older
      exact of_decide_eq_true older
  | run =>
      intro row after _ _ attempt member _ _
      have sent : isAcknowledged attempt.2 = true := List.all_eq_true.mp plainly attempt member
      refine .inl ?_
      cases result : attempt.2 with
      | acknowledged => rfl
      | schemaInvalid error => rw [result] at sent; cases sent
      | refused error => rw [result] at sent; cases sent
  | crash => cases plainly
  | outside readings => exact trivial
  | reorder order => exact trivial
  | begin => exact trivial

/-- The ids of two rows of one stream, if the run began with their two
transactions. -/
def twoOfStream (steps : List (OutboxRelay × OutboxRelay.Action)) : Option (OutboxDraft × OutboxDraft) :=
  match steps.reverse with
  | (_, .transaction _ [first]) :: (_, .transaction _ [second]) :: _ =>
      if first.topic = second.topic ∧ first.key = second.key then some (first, second) else none
  | _ => none

theorem twoOfStream_eq {first second : OutboxDraft} (found : twoOfStream steps = some (first, second)) :
    ∃ later relayFirst relaySecond beganFirst beganSecond,
      steps = later ++ (relaySecond, .transaction beganSecond [second]) ::
        ([] ++ (relayFirst, .transaction beganFirst [first]) :: []) ∧
      first.topic = second.topic ∧ first.key = second.key := by
  unfold twoOfStream at found
  split at found
  · rename_i relayFirst beganFirst one relaySecond beganSecond two rest reversed
    split at found
    · rename_i same
      cases found
      refine ⟨rest.reverse, relayFirst, relaySecond, beganFirst, beganSecond, ?_, same⟩
      rw [← List.reverse_reverse steps, reversed]
      simp
    · contradiction
  · contradiction

/-- Rows 1 and 2 are committed one after the other, and one tick takes both. -/
def twoRows (first : PublishResult) : List OutboxRelay.Action :=
  [.transaction 5 [submission 1], .transaction 6 [submission 2], .begin, .run, .run,
    .outside (answering first), .run, .outside (answering .acknowledged), .run]

theorem relay_preserves_key_order_at_two_rows : ∃ steps last first second,
    (OutboxRelay.machine .defaults (readings 9 .timedOut)).Run steps last ∧
    twoOfStream steps = some (first, second) ∧ last.world.broker.map OutboxRow.id = [2, 1] ∧
    (∀ taken ∈ steps, Orderly .defaults taken.1 taken.2) ∧ last.tick.isNone = true ∧
    (Precedes last.world.broker first.id second.id ∨
      ∃ row, last.world.outbox.committed first.id = some row ∧ row.failedAt.isSome) := by
  obtain ⟨steps, last, ran, checked⟩ : ∃ steps last,
      (OutboxRelay.machine .defaults (readings 9 .timedOut)).Run steps last ∧
      decide ((twoOfStream steps).isSome ∧ last.world.broker.map OutboxRow.id = [2, 1] ∧
        steps.all plainlyOrderly ∧ last.tick.isNone) = true :=
    Machine.exists_run (twoRows .acknowledged ++ [.run, .run, .run, .run]) (by decide +kernel)
  obtain ⟨two, sent, plainly, resting⟩ := of_decide_eq_true checked
  obtain ⟨⟨first, second⟩, found⟩ := Option.isSome_iff_exists.mp two
  obtain ⟨later, relayFirst, relaySecond, beganFirst, beganSecond, listed, topic, key⟩ :=
    twoOfStream_eq found
  have orderly : ∀ taken ∈ steps, Orderly .defaults taken.1 taken.2 :=
    fun taken member => orderly_of_plainly (List.all_eq_true.mp plainly taken member)
  exact ⟨steps, last, first, second, ran, found, sent, orderly, resting,
    relay_preserves_key_order ran orderly (Option.isNone_iff_eq_none.mp resting) listed
      List.mem_cons_self List.mem_cons_self topic key⟩

/-- Row 1 is refused and will be tried again, and row 2 of the same key overtakes
it. -/
theorem later_row_overtakes_refused : ¬ ∀ outside steps last later middle earlier relayFirst relaySecond
    beganFirst beganSecond draftsFirst draftsSecond first second,
    (OutboxRelay.machine .defaults outside).Run steps last → last.tick = none →
    steps = later ++ (relaySecond, .transaction beganSecond draftsSecond) ::
      (middle ++ (relayFirst, .transaction beganFirst draftsFirst) :: earlier) →
    first ∈ draftsFirst → second ∈ draftsSecond → first.topic = second.topic →
    first.key = second.key → Precedes last.world.broker first.id second.id ∨
      ∃ row, last.world.outbox.committed first.id = some row ∧ row.failedAt.isSome := by
  intro preserves
  obtain ⟨steps, last, ran, checked⟩ : ∃ steps last,
      (OutboxRelay.machine .defaults (readings 9 .timedOut)).Run steps last ∧
      decide (((twoOfStream steps).any fun pair =>
          last.world.broker.map OutboxRow.id = [pair.2.id] ∧
          (last.world.outbox.committed pair.1.id).all fun row => row.failedAt = none) ∧
        last.tick.isNone) = true :=
    Machine.exists_run (twoRows (.refused "no leader") ++ [.run, .run, .run, .run, .run])
      (by decide +kernel)
  obtain ⟨two, resting⟩ := of_decide_eq_true checked
  obtain ⟨⟨first, second⟩, found, facts⟩ := (Option.any_eq_true _ _).mp two
  obtain ⟨sent, alive⟩ := of_decide_eq_true facts
  obtain ⟨later, relayFirst, relaySecond, beganFirst, beganSecond, listed, topic, key⟩ :=
    twoOfStream_eq found
  obtain precedes | ⟨row, stored, dead⟩ := preserves _ steps last _ _ _ _ _ _ _ _ _ first second ran
    (Option.isNone_iff_eq_none.mp resting) listed List.mem_cons_self List.mem_cons_self topic key
  · obtain ⟨only, listedOnly, named⟩ := List.map_eq_singleton_iff.mp sent
    obtain ⟨_, older, _⟩ := precedes [] [] only listedOnly named
    cases older
  · rw [stored] at alive
    have unfailed : row.failedAt = none := by simpa using alive
    rw [unfailed] at dead
    cases dead

end Runs

end IncidentPlatform.Properties

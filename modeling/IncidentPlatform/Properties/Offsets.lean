import IncidentPlatform.Workers.KafkaConsumer

namespace IncidentPlatform.Properties

open Concurrency Workers BaseKafkaConsumer

/-! # Committed offsets pass no unprocessed message

Below the committed offset everything is settled: handled, rejected by its
schema, or a gap.  The same holds below the position, up to the records of the
batch that is still being processed.
-/

variable {logs : PartitionLogs} {consumer after : BaseKafkaConsumer} {partition : TopicPartition}
  {offset : Nat}

def settled (logs : PartitionLogs) (consumer : BaseKafkaConsumer) (partition : TopicPartition)
    (offset : Nat) : Bool :=
  logs partition offset ≠ .valid || consumer.handled partition offset

/-- No committed offset has passed a message that is neither handled nor
rejected. -/
def NothingSkipped (logs : PartitionLogs) (consumer : BaseKafkaConsumer) : Prop :=
  ∀ partition, ∀ offset < consumer.committed partition, settled logs consumer partition offset = true

/-- A commit past a rejected message raises only when the batch has nothing
unsettled left, or `run` is not going to poll again. -/
def losesNoRecord (logs : PartitionLogs) (consumer : BaseKafkaConsumer) : Action → Bool
  | .process .commitRaises =>
      match consumer.batch with
      | (partition, offset :: rest) :: others =>
          !consumer.polling || logs partition offset ≠ .schemaInvalid ||
            ((partition, rest) :: others).all fun entry =>
              entry.2.all fun left => settled logs consumer entry.1 left
      | _ => true
  | _ => true

structure InOrder (logs : PartitionLogs) (consumer : BaseKafkaConsumer) : Prop where
  committed : NothingSkipped logs consumer
  /-- What was fetched and is not settled is still in the batch. -/
  positions : consumer.polling = true → ∀ {partition position}, consumer.position partition = some position →
    ∀ offset < position, settled logs consumer partition offset = true ∨
      ∃ offsets, (partition, offsets) ∈ consumer.batch ∧ offset ∈ offsets
  ordered : ∀ {partition offsets}, (partition, offsets) ∈ consumer.batch → offsets.Pairwise (· < ·)
  contiguous : ∀ {partition offsets}, (partition, offsets) ∈ consumer.batch → ∀ first ∈ offsets,
    ∀ offset < first, settled logs consumer partition offset = true ∨ offset ∈ offsets
  keys : (consumer.batch.map Prod.fst).Nodup

def Settles (logs : PartitionLogs) (consumer after : BaseKafkaConsumer) : Prop :=
  ∀ {partition offset}, settled logs consumer partition offset = true →
    settled logs after partition offset = true

theorem settles_of_handled (same : after.handled = consumer.handled) :
    Settles logs consumer after := by
  intro partition offset earlier
  simpa [settled, same] using earlier

theorem settles_handle : Settles logs consumer (consumer.handle partition offset) := by
  intro other earlier found
  simp only [settled, handle, Bool.or_eq_true] at found ⊢
  exact found.imp_right Or.inl

theorem settled_handle : settled logs (consumer.handle partition offset) partition offset = true := by
  simp [settled, handle]

theorem settled_of_rejected (rejected : logs partition offset = .schemaInvalid) :
    settled logs consumer partition offset = true := by
  simp [settled, rejected]

theorem NothingSkipped.mono (nothing : NothingSkipped logs consumer)
    (settles : Settles logs consumer after) (committed : after.committed = consumer.committed) :
    NothingSkipped logs after := by
  intro partition offset below
  rw [committed] at below
  exact settles (nothing partition offset below)

theorem mem_pending {batch : PollBatch} {entry : TopicPartition × List Nat} :
    entry ∈ pending batch ↔ entry ∈ batch ∧ entry.2 ≠ [] := by
  simp [pending]

theorem pending_keys {batch : PollBatch} (keys : (batch.map Prod.fst).Nodup) :
    ((pending batch).map Prod.fst).Nodup :=
  keys.sublist (List.filter_sublist.map Prod.fst)

section Head

variable {rest : List Nat} {others : PollBatch}

theorem InOrder.settled_below (order : InOrder logs consumer)
    (batch : consumer.batch = (partition, offset :: rest) :: others) {earlier : Nat}
    (below : earlier < offset) : settled logs consumer partition earlier = true := by
  have head : (partition, offset :: rest) ∈ consumer.batch := by rw [batch]; exact List.mem_cons_self
  obtain done | listed := order.contiguous head offset List.mem_cons_self earlier below
  · exact done
  · obtain rfl | later := List.mem_cons.mp listed
    · omega
    · have := (List.pairwise_cons.mp (order.ordered head)).1 earlier later
      omega

theorem InOrder.commit_next (order : InOrder logs consumer)
    (batch : consumer.batch = (partition, offset :: rest) :: others)
    (settles : Settles logs consumer after)
    (done : settled logs after partition offset = true)
    (committed : after.committed = (consumer.commit partition (offset + 1)).committed) :
    NothingSkipped logs after := by
  intro other earlier below
  rw [committed] at below
  simp only [BaseKafkaConsumer.commit] at below
  split at below
  · rename_i same
    subst same
    obtain before | rfl := Nat.lt_succ_iff_lt_or_eq.mp below
    · exact settles (order.settled_below batch before)
    · exact done
  · exact settles (order.committed other earlier below)

theorem InOrder.advance (order : InOrder logs consumer)
    (batch : consumer.batch = (partition, offset :: rest) :: others)
    (settles : Settles logs consumer after) (done : settled logs after partition offset = true)
    (nothing : NothingSkipped logs after) (position : after.position = consumer.position)
    (polling : after.polling = consumer.polling)
    (left : after.batch = pending ((partition, rest) :: others)) : InOrder logs after := by
  have keys : (((partition, rest) :: others).map Prod.fst).Nodup := by
    simpa [batch] using order.keys
  have earlier : ∀ {other offsets}, (other, offsets) ∈ after.batch →
      (other, offsets) ∈ consumer.batch ∨ other = partition ∧ offsets = rest := by
    intro other offsets member
    rw [left, mem_pending] at member
    obtain same | older := List.mem_cons.mp member.1
    · cases same
      exact .inr ⟨rfl, rfl⟩
    · rw [batch]
      exact .inl (List.mem_cons_of_mem _ older)
  have head : (partition, offset :: rest) ∈ consumer.batch := by rw [batch]; exact List.mem_cons_self
  constructor
  · exact nothing
  · intro polls other reached found earlier below
    rw [position] at found
    rw [polling] at polls
    obtain before | ⟨offsets, listed, member⟩ := order.positions polls found earlier below
    · exact .inl (settles before)
    · rw [batch] at listed
      obtain same | older := List.mem_cons.mp listed
      · cases same
        obtain rfl | inRest := List.mem_cons.mp member
        · exact .inl done
        · refine .inr ⟨rest, ?_, inRest⟩
          rw [left, mem_pending]
          exact ⟨List.mem_cons_self, List.ne_nil_of_mem inRest⟩
      · refine .inr ⟨offsets, ?_, member⟩
        rw [left, mem_pending]
        exact ⟨List.mem_cons_of_mem _ older, List.ne_nil_of_mem member⟩
  · intro other offsets member
    obtain older | ⟨rfl, rfl⟩ := earlier member
    · exact order.ordered older
    · exact (List.pairwise_cons.mp (order.ordered head)).2
  · intro other offsets member first listed below before
    obtain older | ⟨rfl, rfl⟩ := earlier member
    · exact (order.contiguous older first listed below before).imp_left settles
    · obtain before | found := order.contiguous head first (List.mem_cons_of_mem _ listed) below before
      · exact .inl (settles before)
      · obtain rfl | inRest := List.mem_cons.mp found
        · exact .inl done
        · exact .inr inRest
  · rw [left]
    exact pending_keys keys

theorem InOrder.abandon (order : InOrder logs consumer)
    (batch : consumer.batch = (partition, offset :: rest) :: others)
    (settles : Settles logs consumer after) (committed : after.committed = consumer.committed)
    (position : after.position = (consumer.seek partition offset).position)
    (polling : after.polling = consumer.polling) (left : after.batch = others) :
    InOrder logs after := by
  have older : ∀ {entry}, entry ∈ after.batch → entry ∈ consumer.batch := by
    intro entry member
    rw [batch]
    exact List.mem_cons_of_mem _ (left ▸ member)
  constructor
  · exact order.committed.mono settles committed
  · intro polls other reached found earlier below
    rw [position] at found
    rw [polling] at polls
    simp only [seek, setPosition] at found
    split at found
    · rename_i same
      subst same
      obtain ⟨_, _, rfl⟩ := Option.map_eq_some_iff.mp found
      exact .inl (settles (order.settled_below batch below))
    · rename_i different
      obtain before | ⟨offsets, listed, member⟩ := order.positions polls found earlier below
      · exact .inl (settles before)
      · rw [batch] at listed
        obtain same | kept := List.mem_cons.mp listed
        · cases same
          exact absurd rfl different
        · exact .inr ⟨offsets, left ▸ kept, member⟩
  · exact fun member => order.ordered (older member)
  · intro other offsets member first listed below before
    exact (order.contiguous (older member) first listed below before).imp_left settles
  · have keys := order.keys
    rw [batch, List.map_cons, List.nodup_cons] at keys
    rw [left]
    exact keys.2

theorem InOrder.drop (order : InOrder logs consumer) (settles : Settles logs consumer after)
    (committed : after.committed = consumer.committed)
    (position : after.position = consumer.position)
    (harmless : after.polling = true → consumer.polling = true ∧
      ∀ {other offsets}, (other, offsets) ∈ consumer.batch → ∀ left ∈ offsets,
        settled logs consumer other left = true)
    (empty : after.batch = []) : InOrder logs after := by
  constructor
  · exact order.committed.mono settles committed
  · intro polls other reached found earlier below
    rw [position] at found
    obtain ⟨polled, left⟩ := harmless polls
    obtain before | ⟨offsets, listed, member⟩ := order.positions polled found earlier below
    · exact .inl (settles before)
    · exact .inl (settles (left listed earlier member))
  all_goals simp [empty]

end Head

theorem mem_recordsOf {content : Nat → LogContent} {position upto : Nat} :
    offset ∈ recordsOf content position upto ↔
      (position ≤ offset ∧ offset < upto) ∧ content offset ≠ .absent := by
  simp only [recordsOf, List.mem_filter, List.mem_range'_1, decide_eq_true_eq]
  refine and_congr_left fun _ => ⟨?_, ?_⟩ <;> intro bounds <;> omega

theorem recordsOf_ordered {content : Nat → LogContent} {position upto : Nat} :
    (recordsOf content position upto).Pairwise (· < ·) :=
  List.Pairwise.filter _ List.pairwise_lt_range'

theorem InOrder.fetch (order : InOrder logs consumer) (polls : consumer.polling = true)
    {fetched : TopicPartition × Nat} (got : consumer.fetch logs fetched = some after) :
    InOrder logs after ∧ after.polling = true := by
  obtain ⟨partition, upto⟩ := fetched
  simp only [BaseKafkaConsumer.fetch] at got
  split at got
  · rename_i position assigned
    split at got
    · rename_i fresh
      cases got
      have before : ∀ {offset}, offset < position → settled logs consumer partition offset = true := by
        intro offset below
        obtain done | ⟨offsets, listed, _⟩ := order.positions polls assigned offset below
        · exact done
        · exact absurd (List.mem_map.mpr ⟨_, listed, rfl⟩) fresh.2
      have listedIn : ∀ {other offsets},
          (other, offsets) ∈ consumer.batch ++ pending [(partition, recordsOf (logs partition) position upto)] →
            (other, offsets) ∈ consumer.batch ∨
              other = partition ∧ offsets = recordsOf (logs partition) position upto := by
        intro other offsets member
        obtain older | newer := List.mem_append.mp member
        · exact .inl older
        · have same := List.mem_singleton.mp (mem_pending.mp newer).1
          cases same
          exact .inr ⟨rfl, rfl⟩
      refine ⟨⟨order.committed, ?_, ?_, ?_, ?_⟩, polls⟩
      · intro _ other reached found offset below
        simp only [setPosition] at found
        split at found
        · rename_i same
          subst same
          cases found
          by_cases earlier : offset < position
          · exact .inl (before earlier)
          · by_cases gap : logs other offset = .absent
            · exact .inl (by simp [settled, gap])
            · have member : offset ∈ recordsOf (logs other) position upto :=
                mem_recordsOf.mpr ⟨⟨by omega, below⟩, gap⟩
              refine .inr ⟨_, List.mem_append_right _ (mem_pending.mpr ⟨List.mem_singleton_self _, ?_⟩), member⟩
              exact List.ne_nil_of_mem member
        · obtain done | ⟨offsets, listed, member⟩ := order.positions polls found offset below
          · exact .inl done
          · exact .inr ⟨offsets, List.mem_append_left _ listed, member⟩
      · intro other offsets member
        obtain older | ⟨rfl, rfl⟩ := listedIn member
        · exact order.ordered older
        · exact recordsOf_ordered
      · intro other offsets member first listed offset below
        obtain older | ⟨rfl, rfl⟩ := listedIn member
        · exact order.contiguous older first listed offset below
        · by_cases earlier : offset < position
          · exact .inl (before earlier)
          · by_cases gap : logs other offset = .absent
            · exact .inl (by simp [settled, gap])
            · have bounds := (mem_recordsOf.mp listed).1
              exact .inr (mem_recordsOf.mpr ⟨⟨by omega, by omega⟩, gap⟩)
      · rw [List.map_append, List.nodup_append]
        refine ⟨order.keys, pending_keys (by simp), ?_⟩
        intro first listed second member same
        obtain ⟨entry, held, rfl⟩ := List.mem_map.mp member
        have only := List.mem_singleton.mp (mem_pending.mp held).1
        subst only
        rw [same] at listed
        exact fresh.2 listed
    · contradiction
  · contradiction

theorem InOrder.fetchAll {fetched : List (TopicPartition × Nat)} (order : InOrder logs consumer)
    (polls : consumer.polling = true)
    (got : fetched.foldlM (BaseKafkaConsumer.fetch logs) consumer = some after) :
    InOrder logs after := by
  induction fetched generalizing consumer with
  | nil =>
      cases got
      exact order
  | cons first rest ih =>
      rw [List.foldlM_cons] at got
      obtain ⟨next, one, others⟩ := Option.bind_eq_some_iff.mp got
      obtain ⟨nextOrder, nextPolls⟩ := order.fetch polls one
      exact ih nextOrder nextPolls others

theorem settled_of_losesNoRecord {rest : List Nat} {others : PollBatch}
    (batch : consumer.batch = (partition, offset :: rest) :: others)
    (rejected : logs partition offset = .schemaInvalid) (polls : consumer.polling = true)
    (permitted : losesNoRecord logs consumer (.process .commitRaises) = true)
    {other : TopicPartition} {offsets : List Nat} (member : (other, offsets) ∈ consumer.batch)
    (left : Nat) (listed : left ∈ offsets) : settled logs consumer other left = true := by
  simp only [losesNoRecord, batch, polls, rejected, Bool.not_true, Bool.false_or, ne_eq,
    not_true_eq_false, decide_false] at permitted
  have remaining := List.all_eq_true.mp permitted
  rw [batch] at member
  obtain same | older := List.mem_cons.mp member
  · cases same
    obtain rfl | inRest := List.mem_cons.mp listed
    · exact settled_of_rejected rejected
    · exact List.all_eq_true.mp (remaining _ List.mem_cons_self) left inRest
  · exact List.all_eq_true.mp (remaining _ (List.mem_cons_of_mem _ older)) left listed

theorem InOrder.process (order : InOrder logs consumer) {delivery : Delivery}
    (permitted : losesNoRecord logs consumer (.process delivery) = true)
    (processed : consumer.processBatch logs delivery = some after) : InOrder logs after := by
  unfold processBatch at processed
  split at processed
  · rename_i partition offset rest others batch
    cases content : logs partition offset with
    | absent => cases delivery <;> simp [content, processOne] at processed
    | schemaInvalid =>
        rw [content] at processed
        cases delivery with
        | commits =>
            cases processed
            have settles : Settles logs consumer (consumer.commit partition (offset + 1)) :=
              settles_of_handled rfl
            have done : settled logs (consumer.commit partition (offset + 1)) partition offset = true :=
              settled_of_rejected content
            exact order.advance batch settles done (order.commit_next batch settles done rfl) rfl rfl rfl
        | commitRaises =>
            cases processed
            exact order.drop (settles_of_handled rfl) rfl rfl
              (fun polls => ⟨polls, settled_of_losesNoRecord batch content polls permitted⟩) rfl
        | cancelledInCommit =>
            cases processed
            exact order.drop (settles_of_handled rfl) rfl rfl nofun rfl
        | handlerRaises | cancelledInHandler => contradiction
    | valid =>
        rw [content] at processed
        cases delivery with
        | commits =>
            cases processed
            have settles : Settles logs consumer
                ((consumer.handle partition offset).commit partition (offset + 1)) := settles_handle
            have done : settled logs ((consumer.handle partition offset).commit partition (offset + 1))
                partition offset = true := settled_handle
            exact order.advance batch settles done (order.commit_next batch settles done rfl) rfl rfl rfl
        | handlerRaises =>
            cases processed
            exact order.abandon batch (settles_of_handled rfl) rfl rfl rfl rfl
        | commitRaises =>
            cases processed
            exact order.abandon batch settles_handle rfl rfl rfl rfl
        | cancelledInHandler =>
            cases processed
            exact order.drop (settles_of_handled rfl) rfl rfl nofun rfl
        | cancelledInCommit =>
            cases processed
            exact order.drop settles_handle rfl rfl nofun rfl
  · contradiction

theorem InOrder.assign (order : InOrder logs consumer) (start : Option Nat)
    (begins : ∀ position, start = some position → position = consumer.committed partition) :
    InOrder logs { consumer with position := consumer.setPosition partition start } := by
  refine ⟨order.committed, ?_, order.ordered, order.contiguous, order.keys⟩
  intro polls other reached found offset below
  simp only [setPosition] at found
  split at found
  · rename_i same
    subst same
    rw [begins reached found] at below
    exact .inl (order.committed other offset below)
  · exact order.positions polls found offset below

theorem InOrder.step (order : InOrder logs consumer) {action : Action}
    (permitted : losesNoRecord logs consumer action = true)
    (stepped : BaseKafkaConsumer.step logs action consumer = some after) : InOrder logs after := by
  cases action with
  | assign partition =>
      cases stepped
      exact order.assign _ fun _ same => (Option.some.inj same).symm
  | revoke partition =>
      cases stepped
      exact order.assign none nofun
  | getmany fetched =>
      simp only [BaseKafkaConsumer.step, BaseKafkaConsumer.getmany] at stepped
      split at stepped
      · rename_i ready
        exact order.fetchAll ready.1 (Option.filter_eq_some_iff.mp stepped).1
      · contradiction
  | process delivery => exact order.process permitted stepped
  | stop =>
      cases stepped
      exact ⟨order.committed, nofun, order.ordered, order.contiguous, order.keys⟩
  | start =>
      cases stepped
      exact ⟨order.committed, nofun, nofun, nofun, List.nodup_nil⟩

theorem initial_inOrder : InOrder logs BaseKafkaConsumer.initial :=
  ⟨nofun, nofun, nofun, nofun, List.nodup_nil⟩

/-- In a run that drops no unsettled record, no commit passes a message that was
neither handled nor rejected. -/
theorem committed_offsets_skip_nothing {steps : List (BaseKafkaConsumer × Action)}
    {last : BaseKafkaConsumer} (ran : (BaseKafkaConsumer.machine logs).Run steps last)
    (permitted : ∀ taken ∈ steps, losesNoRecord logs taken.1 taken.2 = true) :
    ∀ consumer ∈ Machine.visited steps last, NothingSkipped logs consumer :=
  fun consumer member =>
    (ran.always initial_inOrder (fun order => order.step) permitted consumer member).committed

/-- Logs whose first message is rejected by its schema. -/
def rejectedFirst : PartitionLogs := fun _ offset => if offset = 0 then .schemaInvalid else .valid

/-- Two partitions, each with a rejected message before a good one, a handler
that fails once and a commit past a poison pill that fails with nothing left. -/
theorem committed_offsets_skip_nothing_with_failures :
    ∃ steps last, (BaseKafkaConsumer.machine rejectedFirst).Run steps last ∧
      last.committed ⟨"job.submitted", 0⟩ = 2 ∧ last.committed ⟨"job.submitted", 1⟩ = 1 ∧
      ∀ consumer ∈ Machine.visited steps last, NothingSkipped rejectedFirst consumer := by
  obtain ⟨steps, last, ran, checked⟩ :
      ∃ steps last, (BaseKafkaConsumer.machine rejectedFirst).Run steps last ∧
        (decide (last.committed ⟨"job.submitted", 0⟩ = 2) &&
          decide (last.committed ⟨"job.submitted", 1⟩ = 1) &&
          steps.all fun taken => losesNoRecord rejectedFirst taken.1 taken.2) = true :=
    Machine.exists_run
      [.start, .assign ⟨"job.submitted", 0⟩, .assign ⟨"job.submitted", 1⟩,
        .getmany [(⟨"job.submitted", 0⟩, 2), (⟨"job.submitted", 1⟩, 1)], .process .commits,
        .process .handlerRaises, .process .commitRaises, .getmany [(⟨"job.submitted", 0⟩, 2)],
        .process .commits, .start, .assign ⟨"job.submitted", 1⟩, .getmany [(⟨"job.submitted", 1⟩, 1)],
        .process .commits] (by decide +kernel)
  simp only [Bool.and_eq_true, decide_eq_true_eq, List.all_eq_true] at checked
  exact ⟨steps, last, ran, checked.1.1, checked.1.2, committed_offsets_skip_nothing ran checked.2⟩

/-- The commit past the rejected message at 0 raises; the message at 1 was in the
same batch and is passed by the commit of the message at 2. -/
theorem committed_offset_passes_unhandled :
    ¬ ∀ logs steps last, (BaseKafkaConsumer.machine logs).Run steps last →
      ∀ consumer ∈ Machine.visited steps last, NothingSkipped logs consumer := by
  intro claimed
  obtain ⟨steps, last, ran, checked⟩ :
      ∃ steps last, (BaseKafkaConsumer.machine rejectedFirst).Run steps last ∧
        (decide (last.committed ⟨"job.submitted", 0⟩ = 3) &&
          !settled rejectedFirst last ⟨"job.submitted", 0⟩ 1) = true :=
    Machine.exists_run
      [.start, .assign ⟨"job.submitted", 0⟩, .getmany [(⟨"job.submitted", 0⟩, 2)],
        .process .commitRaises, .getmany [(⟨"job.submitted", 0⟩, 3)], .process .commits]
      (by decide +kernel)
  simp only [Bool.and_eq_true, decide_eq_true_eq, Bool.not_eq_true'] at checked
  have passed := claimed _ _ _ ran last List.mem_cons_self ⟨"job.submitted", 0⟩ 1
    (by rw [checked.1]; decide)
  rw [checked.2] at passed
  contradiction

end IncidentPlatform.Properties

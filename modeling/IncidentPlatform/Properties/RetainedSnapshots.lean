import IncidentPlatform.Workers.SseConsumer

namespace IncidentPlatform.Properties

open Models Concurrency Workers

/-! # What may replace a retained snapshot

Offsets order the events of one topic and the terminal rule orders some events
of different topics; nothing orders the rest, and the rule is applied to what
`publish` read, not to what it overwrites.
-/

variable {new retained event : ProgressEvent} {snapshots : Snapshots} {now later : Time}
  {jobId other : String} {record : LifecycleRecord}

def Outranks (retained new : ProgressEvent) : Prop :=
  (retained.status.terminal = true ∧ new.status.terminal = false) ∨
    (new.source ≠ "" ∧ retained.source = new.source ∧
      ∃ seen offset, retained.sequence = some seen ∧ new.sequence = some offset ∧ offset ≤ seen)

theorem supersedes_eq_false_iff : supersedes new (some retained) = false ↔ Outranks retained new := by
  simp only [supersedes, Outranks]
  by_cases ended : retained.status.terminal = true ∧ new.status.terminal = false
  · simp only [ended.1, ended.2, Bool.not_false, Bool.and_self, ↓reduceIte, and_self, true_or]
  · have passes : (retained.status.terminal && !new.status.terminal) = false := by simpa using ended
    rw [passes, if_neg Bool.false_ne_true]
    simp only [ended, false_or]
    by_cases sourced : new.source ≠ "" ∧ retained.source = new.source
    · have compared : (decide (new.source ≠ "") && new.source == retained.source) = true :=
        Bool.and_eq_true_iff.mpr ⟨decide_eq_true sourced.1, beq_iff_eq.mpr sourced.2.symm⟩
      rw [if_pos compared]
      cases retained.sequence <;> cases new.sequence <;> simp [sourced.1, sourced.2]
    · have incomparable : (decide (new.source ≠ "") && new.source == retained.source) ≠ true := by
        intro both
        obtain ⟨nonempty, same⟩ := Bool.and_eq_true_iff.mp both
        exact sourced ⟨of_decide_eq_true nonempty, (beq_iff_eq.mp same).symm⟩
      rw [if_neg incomparable]
      refine ⟨nofun, fun outranks => ?_⟩
      exact absurd ⟨outranks.1, outranks.2.1⟩ sourced

theorem Outranks.refl (sourced : event.source ≠ "") (sequenced : event.sequence.isSome = true) :
    Outranks event event := by
  obtain ⟨offset, found⟩ := Option.isSome_iff_exists.mp sequenced
  exact .inr ⟨sourced, rfl, offset, offset, found, found, Int.le_refl offset⟩

theorem readLastEvent_eq_some_iff :
    snapshots.readLastEvent now jobId = some event ↔
      ∃ expiresAt, snapshots jobId = some ⟨event, expiresAt⟩ ∧ now < expiresAt := by
  unfold Snapshots.readLastEvent
  cases kept : snapshots jobId with
  | none => simp
  | some snapshot =>
      obtain ⟨found, expiresAt⟩ := snapshot
      by_cases lives : now < expiresAt
      · simp [Option.filter, lives, eq_comm]
      · simp [Option.filter, lives]

theorem readLastEvent_earlier (elapsed : now ≤ later)
    (read : snapshots.readLastEvent later jobId = some event) :
    snapshots.readLastEvent now jobId = some event := by
  obtain ⟨expiresAt, kept, lives⟩ := readLastEvent_eq_some_iff.mp read
  exact readLastEvent_eq_some_iff.mpr ⟨expiresAt, kept, Nat.lt_of_le_of_lt elapsed lives⟩

@[simp] theorem retain_self :
    (snapshots.retain now event) event.jobId = some ⟨event, now + lastEventTtl⟩ :=
  Function.update_self ..

theorem retain_other (distinct : other ≠ event.jobId) :
    (snapshots.retain now event) other = snapshots other :=
  Function.update_of_ne distinct ..

theorem readLastEvent_retain_self :
    (snapshots.retain now event).readLastEvent now event.jobId = some event :=
  readLastEvent_eq_some_iff.mpr ⟨now + lastEventTtl, retain_self, Nat.lt_add_of_pos_right (by decide)⟩

theorem readLastEvent_retain_other (distinct : other ≠ event.jobId) :
    (snapshots.retain now event).readLastEvent now other = snapshots.readLastEvent now other := by
  unfold Snapshots.readLastEvent
  rw [retain_other distinct]

theorem progressEvent_sourced (handled : record.progressEvent now = some event) :
    event.source = record.topic.name ∧ event.sequence = some (record.offset : Int) := by
  unfold LifecycleRecord.progressEvent SseConsumer.handleMessage at handled
  simp only [Option.bind_eq_bind, Option.bind_eq_some_iff] at handled
  obtain ⟨jobId, _, name, _, status, _, made⟩ := handled
  cases made
  exact ⟨rfl, rfl⟩

theorem retain_ne (sourced : event.source ≠ "") (sequenced : event.sequence.isSome = true)
    (supersedes : supersedes event (snapshots.readLastEvent now event.jobId) = true) :
    (snapshots.retain now event) event.jobId ≠ snapshots event.jobId := by
  rw [retain_self]
  intro same
  have read : snapshots.readLastEvent now event.jobId = some event :=
    readLastEvent_eq_some_iff.mpr
      ⟨now + lastEventTtl, same.symm, Nat.lt_add_of_pos_right (by decide)⟩
  rw [read] at supersedes
  have outranked := supersedes_eq_false_iff.mpr (Outranks.refl sourced sequenced)
  rw [outranked] at supersedes
  contradiction

/-- The snapshots after a message is delivered and no other publish falls into it. -/
def redelivered (replicas : SseReplicas) (record : LifecycleRecord) : Snapshots :=
  match record.progressEvent replicas.now with
  | none => replicas.snapshots
  | some event => (replicas.snapshots.publish replicas.now event).1

/-- The message is skipped, or the job's snapshot is retained and outranks it. -/
def Outranked (replicas : SseReplicas) (record : LifecycleRecord) : Prop :=
  ∀ event, record.progressEvent replicas.now = some event →
    ∃ retained, replicas.snapshots.readLastEvent replicas.now event.jobId = some retained ∧
      Outranks retained event

theorem redelivered_eq_iff (replicas : SseReplicas) (record : LifecycleRecord) :
    redelivered replicas record = replicas.snapshots ↔ Outranked replicas record := by
  unfold redelivered Outranked
  cases handled : record.progressEvent replicas.now with
  | none => simp
  | some event =>
      obtain ⟨source, sequence⟩ := progressEvent_sourced handled
      have sourced : event.source ≠ "" := source ▸ record.topic.name_ne_empty
      have sequenced : event.sequence.isSome = true := by rw [sequence]; rfl
      cases retained : replicas.snapshots.readLastEvent replicas.now event.jobId with
      | none =>
          have replaces : supersedes event (replicas.snapshots.readLastEvent replicas.now event.jobId)
              = true := by rw [retained]; rfl
          simp only [Snapshots.publish, replaces, ↓reduceIte]
          constructor
          · exact fun same => absurd (congrFun same event.jobId) (retain_ne sourced sequenced replaces)
          · intro outranked
            obtain ⟨seen, read, _⟩ := outranked event rfl
            rw [retained] at read
            contradiction
      | some seen =>
          cases replaces : supersedes event (some seen) with
          | true =>
              simp only [Snapshots.publish, retained, replaces, ↓reduceIte]
              constructor
              · refine fun same => absurd (congrFun same event.jobId) (retain_ne sourced sequenced ?_)
                rw [retained, replaces]
              · intro outranked
                obtain ⟨found, read, outranks⟩ := outranked event rfl
                rw [retained] at read
                cases read
                rw [supersedes_eq_false_iff.mpr outranks] at replaces
                contradiction
          | false =>
              simp only [Snapshots.publish, retained, replaces, Bool.false_eq_true, ↓reduceIte, true_iff]
              intro handledEvent made
              cases made
              exact ⟨seen, retained, supersedes_eq_false_iff.mp replaces⟩

open SseReplicas

variable {replicas after : SseReplicas} {call : Publishing} {index : Nat}

/-- The `SET` of an event for an unfinished job does not find a finished one. -/
def KeepsFinished (replicas : SseReplicas) : Action → Prop
  | .advance index => ∀ call, replicas.publishing[index]? = some call → call.phase = .retaining →
      ∀ seen, replicas.snapshots.readLastEvent replicas.now call.event.jobId = some seen →
        seen.status.terminal = true → call.event.status.terminal = true
  | _ => True

/-- A finished event is retained while no publish of an unfinished one for the
job is between its `GET` and its `SET`. -/
def Unoverlapped (replicas : SseReplicas) : Action → Prop
  | .advance index => ∀ call, replicas.publishing[index]? = some call → call.phase = .retaining →
      call.event.status.terminal = true → ∀ overlapped ∈ replicas.publishing,
        overlapped.phase = .retaining → overlapped.event.jobId = call.event.jobId →
        overlapped.event.status.terminal = true
  | _ => True

/-- What the `GET` of a publish found still holds at its `SET`. -/
def GetsHold (replicas : SseReplicas) : Prop :=
  ∀ call ∈ replicas.publishing, call.phase = .retaining → call.event.status.terminal = false →
    ∀ seen, replicas.snapshots.readLastEvent replicas.now call.event.jobId = some seen →
      seen.status.terminal = false

theorem GetsHold.keepsFinished (hold : GetsHold replicas) (action : Action) :
    KeepsFinished replicas action := by
  cases action with
  | advance index =>
      intro call found phase seen read finished
      by_contra unfinished
      have unfinished := eq_false_of_ne_true unfinished
      have open_ := hold call (List.mem_of_getElem? found) phase unfinished seen read
      rw [open_] at finished
      contradiction
  | _ => exact trivial

theorem GetsHold.subset (hold : GetsHold replicas) {publishing : List Publishing}
    {handled : List LifecycleRecord} (among : ∀ call ∈ publishing, call ∈ replicas.publishing) :
    GetsHold { replicas with publishing, handled } :=
  fun call member => hold call (among call member)

theorem GetsHold.erase (hold : GetsHold replicas) (handled : List LifecycleRecord) :
    GetsHold { replicas with publishing := replicas.publishing.eraseIdx index, handled } :=
  hold.subset fun _ member => List.mem_of_mem_eraseIdx member

theorem GetsHold.tick (hold : GetsHold replicas) (elapsed : Time) :
    GetsHold { replicas with now := replicas.now + elapsed } :=
  fun call member phase unfinished seen read =>
    hold call member phase unfinished seen (readLastEvent_earlier (Nat.le_add_right _ elapsed) read)

theorem GetsHold.handle (hold : GetsHold replicas) (record : LifecycleRecord) :
    GetsHold (replicas.handle record) := by
  unfold SseReplicas.handle
  split
  · exact hold
  · intro call member phase
    obtain earlier | newest := List.mem_append.mp member
    · exact hold call earlier phase
    · cases List.mem_singleton.mp newest
      contradiction

theorem unfinished_of_supersedes
    (replaces : supersedes event (snapshots.readLastEvent now jobId) = true)
    (unfinished : event.status.terminal = false) {seen : ProgressEvent}
    (read : snapshots.readLastEvent now jobId = some seen) : seen.status.terminal = false := by
  rw [read] at replaces
  by_contra finished
  have outranks : Outranks seen event := .inl ⟨eq_true_of_ne_false finished, unfinished⟩
  rw [supersedes_eq_false_iff.mpr outranks] at replaces
  contradiction

theorem GetsHold.advance (hold : GetsHold replicas) (found : replicas.publishing[index]? = some call)
    (permitted : Unoverlapped replicas (.advance index)) :
    GetsHold (replicas.advance index call) := by
  unfold SseReplicas.advance
  split
  · split
    · rename_i replaces
      intro other member phase unfinished seen read
      obtain earlier | rfl := List.mem_or_eq_of_mem_set member
      · exact hold other earlier phase unfinished seen read
      · exact unfinished_of_supersedes replaces unfinished read
    · exact hold.erase _
  · rename_i retaining
    intro other member phase unfinished seen read
    obtain earlier | rfl := List.mem_or_eq_of_mem_set member
    · by_cases same : other.event.jobId = call.event.jobId
      · change (replicas.snapshots.retain replicas.now call.event).readLastEvent replicas.now
          other.event.jobId = some seen at read
        rw [same, readLastEvent_retain_self] at read
        cases read
        cases finished : call.event.status.terminal with
        | false => rfl
        | true =>
            have finishes := permitted call found retaining finished other earlier phase same
            rw [unfinished] at finishes
            contradiction
      · refine hold other earlier phase unfinished seen ?_
        rw [← read]
        exact (readLastEvent_retain_other same).symm
    · contradiction
  · exact hold.erase _

theorem GetsHold.step (hold : GetsHold replicas) {action : Action}
    (permitted : Unoverlapped replicas action)
    (stepped : SseReplicas.step action replicas = some after) : GetsHold after := by
  cases action with
  | tick elapsed =>
      cases stepped
      exact hold.tick elapsed
  | handle record =>
      cases stepped
      exact hold.handle record
  | advance index =>
      obtain ⟨call, found, moved⟩ := Option.bind_eq_some_iff.mp stepped
      cases moved
      exact hold.advance found permitted
  | abandon index =>
      obtain ⟨call, found, moved⟩ := Option.bind_eq_some_iff.mp stepped
      cases moved
      exact hold.erase _

variable {start : Time} {steps : List (SseReplicas × Action)} {last : SseReplicas}

theorem snapshots_kept (ran : (machine start).Run steps last) :
    (∀ replicas ∈ Machine.visited steps last, ∀ record ∈ replicas.handled,
      redelivered replicas record = replicas.snapshots ↔ Outranked replicas record) ∧
    ((∀ taken ∈ steps, Unoverlapped taken.1 taken.2) →
      ∀ taken ∈ steps, KeepsFinished taken.1 taken.2) := by
  refine ⟨fun replicas _ record _ => redelivered_eq_iff replicas record, fun permitted taken member => ?_⟩
  have initially : GetsHold (machine start).initial := fun call member => by cases member
  have hold := ran.always initially (fun hold permitted stepped => hold.step permitted stepped) permitted
    taken.1 (List.mem_cons_of_mem _ (List.mem_map_of_mem member))
  exact hold.keepsFinished taken.2

section Backwards

def messageOf (event : String) (deadLettered : Bool) : LifecycleMessage where
  event := some event
  tenantId := some "tenant"
  jobId := some "job"
  userId := some "user"
  deadLettered := deadLettered

def progressRecord : LifecycleRecord := ⟨.progress, 0, messageOf "job.progress" false⟩
def dlqRecord : LifecycleRecord := ⟨.dlq, 0, messageOf "job.failed" true⟩
def completedRecord : LifecycleRecord := ⟨.completed, 0, messageOf "job.completed" false⟩

def replayedJob : List Action :=
  [.handle dlqRecord, .advance 0, .advance 0, .advance 0,
    .handle completedRecord, .advance 0, .advance 0, .advance 0]

def oneByOne (steps : List (SseReplicas × Action)) : Bool :=
  steps.all fun taken => decide (taken.1.publishing.length ≤ 1)

theorem unoverlapped_of_oneByOne {steps : List (SseReplicas × Action)} (single : oneByOne steps = true) :
    ∀ taken ∈ steps, Unoverlapped taken.1 taken.2 := by
  rintro ⟨replicas, action⟩ member
  have few : replicas.publishing.length ≤ 1 := of_decide_eq_true (List.all_eq_true.mp single _ member)
  cases action with
  | advance index =>
      intro call found _ finished overlapped among _ _
      have same : overlapped = call := by
        cases publishing : replicas.publishing with
        | nil =>
            rw [publishing] at among
            cases among
        | cons first rest =>
            rw [publishing] at few among found
            cases List.eq_nil_of_length_eq_zero (Nat.le_zero.mp (Nat.le_of_succ_le_succ few))
            rw [List.mem_singleton.mp among]
            exact (List.mem_singleton.mp (List.mem_of_getElem? found)).symm
      rw [same]
      exact finished
  | _ => exact trivial

/-- What is retained is of a finished job, and the event is not. -/
def endsAbove (replicas : SseReplicas) (record : LifecycleRecord) : Bool :=
  (record.progressEvent replicas.now).all fun event =>
    (replicas.snapshots.readLastEvent replicas.now event.jobId).any fun retained =>
      retained.status.terminal && !event.status.terminal

theorem outranked_of_endsAbove {replicas : SseReplicas} {record : LifecycleRecord}
    (above : endsAbove replicas record = true) : Outranked replicas record := by
  intro event made
  rw [endsAbove, made, Option.all_some, Option.any_eq_true] at above
  obtain ⟨retained, read, ends⟩ := above
  obtain ⟨finished, unfinished⟩ := Bool.and_eq_true_iff.mp ends
  exact ⟨retained, read, .inl ⟨finished, by simpa using unfinished⟩⟩

/-- The progress is outranked, and the dead letter of the first run is not. -/
theorem snapshots_kept_of_replayed_job : ∃ steps last, (machine 0).Run steps last ∧
    progressRecord ∈ last.handled ∧ dlqRecord ∈ last.handled ∧
    redelivered last progressRecord = last.snapshots ∧ ¬ Outranked last dlqRecord ∧
    ∀ taken ∈ steps, KeepsFinished taken.1 taken.2 := by
  obtain ⟨steps, last, ran, checked⟩ := @Machine.exists_run _ _ (machine 0)
    ([.handle progressRecord, .advance 0, .advance 0, .advance 0] ++ replayedJob)
    (fun steps last => oneByOne steps && endsAbove last progressRecord && decide (progressRecord ∈ last.handled ∧
      dlqRecord ∈ last.handled ∧ redelivered last dlqRecord "job" ≠ last.snapshots "job")) (by decide +kernel)
  simp only [Bool.and_eq_true, decide_eq_true_eq] at checked
  obtain ⟨⟨single, above⟩, progressed, deadLettered, changed⟩ := checked
  obtain ⟨redeliveries, kept⟩ := snapshots_kept ran
  refine ⟨steps, last, ran, progressed, deadLettered, ?_, fun outranked => ?_, kept (unoverlapped_of_oneByOne single)⟩
  · exact (redeliveries last List.mem_cons_self _ progressed).mpr (outranked_of_endsAbove above)
  · have same := (redeliveries last List.mem_cons_self _ deadLettered).mpr outranked
    exact changed (congrFun same "job")

def overlappingPublishes : List Action :=
  [.handle progressRecord, .advance 0, .handle completedRecord, .advance 1, .advance 1, .advance 0]

def replacesFinished : List (SseReplicas × Action) → Bool
  | (replicas, .advance index) :: _ =>
      match replicas.publishing[index]? with
      | some call => call.phase == .retaining && !call.event.status.terminal &&
          (replicas.snapshots.readLastEvent replicas.now call.event.jobId).any fun seen =>
            seen.status.terminal
      | none => false
  | _ => false

theorem not_keepsFinished {taken : SseReplicas × Action} {rest : List (SseReplicas × Action)}
    (replaced : replacesFinished (taken :: rest) = true) : ¬ KeepsFinished taken.1 taken.2 := by
  obtain ⟨replicas, action⟩ := taken
  cases action with
  | advance index =>
      simp only [replacesFinished] at replaced
      cases found : replicas.publishing[index]? with
      | none =>
          rw [found] at replaced
          contradiction
      | some call =>
          simp only [found, Bool.and_eq_true, Option.any_eq_true] at replaced
          obtain ⟨⟨phase, unfinished⟩, seen, read, finished⟩ := replaced
          intro kept
          have finishes := kept call found (beq_iff_eq.mp phase) seen read finished
          rw [finishes] at unfinished
          contradiction
  | _ => contradiction

theorem snapshot_goes_back :
    (∃ steps last, (machine 0).Run steps last ∧ ∃ record ∈ last.handled,
      redelivered last record ≠ last.snapshots) ∧
    (∃ steps last, (machine 0).Run steps last ∧ ∃ taken ∈ steps, ¬ KeepsFinished taken.1 taken.2) := by
  constructor
  · obtain ⟨steps, last, ran, checked⟩ := @Machine.exists_run _ _ (machine 0) replayedJob
      (fun _ last => decide (dlqRecord ∈ last.handled ∧
        redelivered last dlqRecord "job" ≠ last.snapshots "job")) (by decide +kernel)
    obtain ⟨handled, changed⟩ := of_decide_eq_true checked
    exact ⟨steps, last, ran, dlqRecord, handled, fun same => changed (congrFun same "job")⟩
  · obtain ⟨steps, last, ran, checked⟩ := @Machine.exists_run _ _ (machine 0)
      overlappingPublishes (fun steps _ => replacesFinished steps) (by decide +kernel)
    cases steps with
    | nil => contradiction
    | cons taken rest => exact ⟨_, last, ran, taken, List.mem_cons_self, not_keepsFinished checked⟩

end Backwards

end IncidentPlatform.Properties

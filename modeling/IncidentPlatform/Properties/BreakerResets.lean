import IncidentPlatform.Properties.CircuitBreakers

namespace IncidentPlatform.Properties

open Concurrency IncidentPlatform.Core Models

/-! # A breaker reset is a fresh start

A breaker weighs the signal against the last failure it remembers, and only when
it is about to publish or is not CLOSED.  What keeps a reset from coming between
a look at the signal and what follows from it is told step by step.
-/

variable {config : BreakerId → BreakerConfig} {before after : Breakers} {label : BreakerAction}
  {task : TaskId} {id : BreakerId} {breaker : Breaker} {first phase : TaskPhase} {store : BreakerStore}
  {clock now monotonic : Time} {raised : Option Time}

def rememberedAt : List BreakerEvent → List Time
  | [] | .cleared :: _ => []
  | .failed failedAt :: rest => failedAt :: rememberedAt rest
  | .succeeded :: rest => rememberedAt rest

/-- The failures that `failureCount` counts. -/
def counted : List BreakerEvent → List Time
  | .failed failedAt :: rest => failedAt :: counted rest
  | _ => []

def streak : List BreakerEvent → List Time
  | [] | .succeeded :: _ => []
  | .failed failedAt :: rest => failedAt :: streak rest
  | .cleared :: rest => streak rest

theorem counted_prefix_streak (journal : List BreakerEvent) : counted journal <+: streak journal := by
  induction journal with
  | nil => exact List.prefix_rfl
  | cons event rest ih =>
      cases event with
      | failed failedAt => exact (List.prefix_cons_inj failedAt).mpr ih
      | succeeded => exact List.prefix_rfl
      | cleared => exact List.nil_prefix

theorem counted_prefix_remembered (journal : List BreakerEvent) :
    counted journal <+: rememberedAt journal := by
  induction journal with
  | nil => exact List.prefix_rfl
  | cons event rest ih =>
      cases event with
      | failed failedAt => exact (List.prefix_cons_inj failedAt).mpr ih
      | succeeded => exact List.nil_prefix
      | cleared => exact List.prefix_rfl

structure Remembers (clock : Time) (breaker : Breaker) : Prop where
  count : breaker.failureCount = (counted breaker.journal).length
  last : breaker.lastFailureAt = (rememberedAt breaker.journal).head?
  ordered : (rememberedAt breaker.journal).Pairwise fun newer older => older ≤ newer
  past : ∀ failedAt ∈ rememberedAt breaker.journal, failedAt ≤ clock

/-- Nothing that a signal is weighed against has changed. -/
structure SameMemory (breaker other : Breaker) : Prop where
  journal : breaker.journal = other.journal
  failureCount : breaker.failureCount = other.failureCount
  lastFailureAt : breaker.lastFailureAt = other.lastFailureAt
  observedResetAt : breaker.observedResetAt = other.observedResetAt

theorem Remembers.of_same {other : Breaker} (remembers : Remembers clock other)
    (journal : breaker.journal = other.journal) (failureCount : breaker.failureCount = other.failureCount)
    (lastFailureAt : breaker.lastFailureAt = other.lastFailureAt) : Remembers clock breaker := by
  obtain ⟨count, last, ordered, past⟩ := remembers
  constructor
  · rw [failureCount, journal, count]
  · rw [lastFailureAt, journal, last]
  · rw [journal]
    exact ordered
  · rw [journal]
    exact past

theorem Remembers.later (remembers : Remembers clock breaker) (passed : clock ≤ now) :
    Remembers now breaker :=
  { remembers with past := fun failedAt member => Nat.le_trans (remembers.past failedAt member) passed }

theorem Remembers.newest (remembers : Remembers clock breaker) {failedAt : Time}
    (member : failedAt ∈ rememberedAt breaker.journal) :
    ∃ last, breaker.lastFailureAt = some last ∧ failedAt ≤ last := by
  obtain ⟨_, last, ordered, _⟩ := remembers
  cases journal : rememberedAt breaker.journal with
  | nil =>
      rw [journal] at member
      cases member
  | cons newest rest =>
      rw [journal] at member last ordered
      refine ⟨newest, last, ?_⟩
      rcases List.mem_cons.mp member with rfl | older
      · exact Nat.le_refl _
      · exact List.rel_of_pairwise_cons ordered older

theorem Remembers.cleared (clock : Time) (breaker : Breaker) : Remembers clock breaker.cleared :=
  ⟨rfl, rfl, .nil, fun _ member => by cases member⟩

theorem Remembers.honour (remembers : Remembers clock breaker) (signal : Option Time) :
    Remembers clock (breaker.honourReset signal) := by
  rcases @Breaker.honourReset_cases breaker signal with
    same | ⟨_, _, _, ⟨_, same⟩ | ⟨_, same⟩⟩
  · rw [same]
    exact remembers
  · rw [same]
    exact remembers.of_same rfl rfl rfl
  · rw [same]
    exact .cleared clock _

theorem onSuccess_last : (breaker.onSuccess now).lastFailureAt = breaker.lastFailureAt :=
  Breaker.setState_lastFailureAt _

theorem onSuccess_observed : (breaker.onSuccess now).observedResetAt = breaker.observedResetAt :=
  Breaker.setState_observedResetAt _

theorem Remembers.success (remembers : Remembers clock breaker) :
    Remembers clock (breaker.onSuccess clock) :=
  ⟨rfl, onSuccess_last.trans remembers.last, remembers.ordered, remembers.past⟩

theorem onFailure_memory (config : BreakerConfig) (reason : FailureClass) :
    (breaker.onFailure config now monotonic reason).journal = .failed now :: breaker.journal ∧
    (breaker.onFailure config now monotonic reason).failureCount = breaker.failureCount + 1 ∧
    (breaker.onFailure config now monotonic reason).lastFailureAt = some now ∧
    (breaker.onFailure config now monotonic reason).observedResetAt = breaker.observedResetAt := by
  unfold Breaker.onFailure
  dsimp only
  split
  · simp
  · simp

theorem Remembers.failure (remembers : Remembers clock breaker) (config : BreakerConfig)
    (reason : FailureClass) : Remembers clock (breaker.onFailure config clock monotonic reason) := by
  obtain ⟨journal, failureCount, lastFailureAt, _⟩ :=
    @onFailure_memory breaker clock monotonic config reason
  constructor
  · rw [failureCount, journal, remembers.count]
    rfl
  · rw [lastFailureAt, journal]
    rfl
  · rw [journal]
    exact .cons remembers.past remembers.ordered
  · rw [journal]
    intro failedAt member
    rcases List.mem_cons.mp member with rfl | older
    · exact Nat.le_refl _
    · exact remembers.past failedAt older

theorem Remembers.keeps (remembers : Remembers clock breaker) {resetAt failedAt : Time}
    (member : failedAt ∈ rememberedAt breaker.journal) (newer : resetAt < failedAt) :
    breaker.honourReset (some resetAt) = { breaker with observedResetAt := some resetAt } := by
  obtain ⟨last, present, bound⟩ := remembers.newest member
  unfold Breaker.honourReset
  by_cases observed : breaker.observedResetAt = some resetAt
  · simp only [if_pos observed]
    rw [← observed]
  · simp [observed, present, Nat.lt_of_lt_of_le newer bound]

def Newer (raised : Option Time) (breaker : Breaker) : Prop :=
  ∀ resetAt failedAt, raised = some resetAt → breaker.lastFailureAt = some failedAt → resetAt < failedAt

theorem Newer.of_last {other : Breaker} (newer : Newer raised other)
    (same : breaker.lastFailureAt = other.lastFailureAt) : Newer raised breaker := by
  intro resetAt failedAt signalled last
  exact newer resetAt failedAt signalled (same ▸ last)

theorem Newer.honour (newer : Newer raised breaker) (signal : Option Time) :
    Newer raised (breaker.honourReset signal) := by
  rcases @Breaker.honourReset_cases breaker signal with
    same | ⟨_, _, _, ⟨_, same⟩ | ⟨_, same⟩⟩
  · rw [same]
    exact newer
  · rw [same]
    exact newer
  · rw [same]
    exact fun _ _ _ absurd => by cases absurd

theorem Newer.failure (config : BreakerConfig) (reason : FailureClass)
    (after : ∀ resetAt, raised = some resetAt → resetAt < clock) :
    Newer raised (breaker.onFailure config clock monotonic reason) := by
  obtain ⟨_, _, lastFailureAt, _⟩ :=
    @onFailure_memory breaker clock monotonic config reason
  intro resetAt failedAt signalled last
  rw [lastFailureAt] at last
  cases last
  exact after resetAt signalled

/-- What holds between a breaker and the last signal raised. -/
structure Tracks (raised : Option Time) (breaker : Breaker) : Prop where
  observed : ∀ resetAt, breaker.observedResetAt = some resetAt →
    ∃ last, raised = some last ∧ resetAt ≤ last
  recent : breaker.observedResetAt = raised → Newer raised breaker
  /-- While CLOSED it counts failures from after the signal only, or has yet to
  honour it and counts failures from before only. -/
  counted : ∀ resetAt, raised = some resetAt → breaker.state = .closed →
    (∀ failedAt ∈ counted breaker.journal, resetAt < failedAt) ∨
      breaker.observedResetAt ≠ some resetAt ∧ ∀ failedAt ∈ counted breaker.journal, failedAt ≤ resetAt

theorem Tracks.of_same {other : Breaker} (current : Tracks raised other)
    (same : SameMemory breaker other) (state : breaker.state = .closed → other.state = .closed) :
    Tracks raised breaker := by
  constructor
  · rw [same.observedResetAt]
    exact current.observed
  · rw [same.observedResetAt]
    exact fun seen => (current.recent seen).of_last same.lastFailureAt
  · rw [same.observedResetAt, same.journal]
    exact fun resetAt signalled closed => current.counted resetAt signalled (state closed)

theorem Tracks.success (current : Tracks raised breaker) : Tracks raised (breaker.onSuccess now) := by
  constructor
  · rw [onSuccess_observed]
    exact current.observed
  · rw [onSuccess_observed]
    exact fun seen => (current.recent seen).of_last onSuccess_last
  · intro resetAt _ _
    exact .inl fun failedAt member => by cases member

theorem Tracks.ripe (current : Tracks raised breaker) (remembers : Remembers clock breaker) {resetAt : Time}
    (signalled : raised = some resetAt) (closed : breaker.state = .closed)
    (honoured : breaker.failureCount = 0 ∨ breaker.observedResetAt = some resetAt) :
    ∀ failedAt ∈ Properties.counted breaker.journal, resetAt < failedAt := by
  rcases honoured with none | seen
  · rw [remembers.count] at none
    intro failedAt member
    rw [List.eq_nil_of_length_eq_zero none] at member
    cases member
  · rcases current.counted resetAt signalled closed with newer | ⟨unseen, _⟩
    · exact newer
    · exact absurd seen unseen

theorem Tracks.failure (current : Tracks raised breaker) (config : BreakerConfig)
    (reason : FailureClass) (after : ∀ resetAt, raised = some resetAt → resetAt < clock)
    (honoured : ∀ resetAt, raised = some resetAt → breaker.state = .closed →
      breaker.failureCount = 0 ∨ breaker.observedResetAt = some resetAt)
    (remembers : Remembers clock breaker) :
    Tracks raised (breaker.onFailure config clock monotonic reason) := by
  obtain ⟨journal, _, _, observed⟩ :=
    @onFailure_memory breaker clock monotonic config reason
  constructor
  · rw [observed]
    exact current.observed
  · exact fun _ => .failure config reason after
  · intro resetAt signalled closed
    have was : breaker.state = .closed := by
      rcases @Breaker.onFailure_state breaker clock monotonic config
        reason with ⟨_, opened⟩ | ⟨_, same⟩
      · rw [opened] at closed
        cases closed
      · exact same ▸ closed
    have recent := current.ripe remembers signalled was (honoured resetAt signalled was)
    left
    rw [journal]
    intro failedAt member
    rcases List.mem_cons.mp member with rfl | older
    · exact after resetAt signalled
    · exact recent failedAt older

theorem Tracks.honour (current : Tracks raised breaker) (remembers : Remembers clock breaker)
    {signal : Option Time}
    (known : ∀ resetAt, signal = some resetAt → ∃ last, raised = some last ∧ resetAt ≤ last) :
    Tracks raised (breaker.honourReset signal) := by
  rcases @Breaker.honourReset_cases breaker signal with
    same | ⟨resetAt, rfl, unseen, ⟨⟨failedAt, last, newer⟩, same⟩ | ⟨_, same⟩⟩
  · rw [same]
    exact current
  · rw [same]
    constructor
    · intro seen equal
      cases equal
      exact known resetAt rfl
    · rintro rfl value failed equal present
      cases equal
      rw [show ({ breaker with observedResetAt := some resetAt } : Breaker).lastFailureAt =
        breaker.lastFailureAt from rfl, last] at present
      cases present
      exact newer
    · intro value signalled closed
      rcases current.counted value signalled closed with recent | ⟨_, old⟩
      · exact .inl recent
      · by_cases here : value = resetAt
        · -- The last failure is newer than the signal, so none older is counted.
          subst here
          refine .inl fun counting member => ?_
          cases journal : Properties.counted breaker.journal with
          | nil =>
              rw [journal] at member
              cases member
          | cons newest rest =>
              obtain ⟨others, split⟩ := counted_prefix_remembered breaker.journal
              have head : breaker.lastFailureAt = some newest := by
                rw [remembers.last, ← split, journal]
                rfl
              rw [last] at head
              cases head
              have bound := old failedAt (by rw [journal]; exact List.mem_cons_self)
              exact absurd newer (Nat.not_lt.mpr bound)
        · exact .inr ⟨fun equal => here (Option.some.inj equal).symm, old⟩
  · rw [same]
    constructor
    · intro seen equal
      cases equal
      exact known resetAt rfl
    · exact fun _ _ _ _ absurd => by cases absurd
    · intro _ _ _
      exact .inl fun _ member => by cases member

theorem Tracks.newer (current : Tracks raised breaker) : Newer raised (breaker.honourReset raised) := by
  rcases @Breaker.honourReset_cases breaker raised with
    same | ⟨resetAt, rfl, unseen, ⟨⟨failedAt, last, newer⟩, same⟩ | ⟨_, same⟩⟩
  · cases raised with
    | none => exact fun _ _ absurd => by cases absurd
    | some resetAt =>
        by_cases seen : breaker.observedResetAt = some resetAt
        · rw [same]
          exact current.recent seen
        · intro value failedAt equal last
          cases equal
          unfold Breaker.honourReset at last
          simp only [if_neg seen] at last
          split at last
          · rename_i kept
            rw [show ({ breaker with observedResetAt := some resetAt } : Breaker).lastFailureAt =
              breaker.lastFailureAt from rfl] at last kept
            rw [last] at kept
            simpa using kept
          · cases last
  · rw [same]
    intro value failed equal present
    cases equal
    rw [show ({ breaker with observedResetAt := some resetAt } : Breaker).lastFailureAt =
      breaker.lastFailureAt from rfl, last] at present
    cases present
    exact newer
  · rw [same]
    exact fun _ _ _ absurd => by cases absurd

/-- The task has been given `signal` to honour for `id`. -/
def Asked (phase : TaskPhase) (id : BreakerId) (signal : Option Time) : Prop :=
  phase = .asked id signal ∨ ∃ purpose, phase = .recording id purpose (.asked signal)

theorem breaker_step (stepped : TaskStep config before task label first id breaker phase store) :
    (SameMemory breaker (before.breaker id) ∧
      (breaker.state = .closed → (before.breaker id).state = .closed)) ∨
    (∃ signal, Asked first id signal ∧ SameMemory breaker ((before.breaker id).honourReset signal) ∧
      (breaker.state = .closed → ((before.breaker id).honourReset signal).state = .closed)) ∨
    breaker = (before.breaker id).onSuccess before.clock ∨
    ∃ probe reason, label = .finish task (.raises reason) ∧ first = .running id probe ∧
      breaker = (before.breaker id).onFailure (config id) before.clock before.monotonic reason := by
  cases stepped with
  | @refused _ signal => exact .inr (.inl ⟨signal, .inl rfl, ⟨rfl, rfl, rfl, rfl⟩, fun closed => closed⟩)
  | @call _ signal => exact .inr (.inl ⟨signal, .inl rfl, ⟨rfl, rfl, rfl, rfl⟩, fun closed => closed⟩)
  | @probe _ signal =>
      refine .inr (.inl ⟨signal, .inl rfl, ⟨?_, ?_, ?_, ?_⟩, fun absurd => ?_⟩)
      · exact Breaker.setState_journal _
      · exact Breaker.setState_failureCount _
      · exact Breaker.setState_lastFailureAt _
      · exact Breaker.setState_observedResetAt _
      · have halfOpen := absurd
        simp at halfOpen
  | @honoured _ purpose signal =>
      exact .inr (.inl ⟨signal, .inr ⟨purpose, rfl⟩, ⟨rfl, rfl, rfl, rfl⟩, fun closed => closed⟩)
  | returned => exact .inr (.inr (.inl rfl))
  | @raised _ probe reason => exact .inr (.inr (.inr ⟨probe, reason, rfl, rfl, rfl⟩))
  | undone =>
      refine .inl ⟨⟨?_, ?_, ?_, ?_⟩, fun absurd => ?_⟩
      · exact Breaker.setState_journal _
      · exact Breaker.setState_failureCount _
      · exact Breaker.setState_lastFailureAt _
      · exact Breaker.setState_observedResetAt _
      · rw [Breaker.undoProbe_state] at absurd
        cases absurd
  | _ => exact .inl ⟨⟨rfl, rfl, rfl, rfl⟩, fun closed => closed⟩

theorem asked_step {owner : BreakerId} {signal : Option Time}
    (stepped : TaskStep config before task label first id breaker phase store)
    (asked : Asked phase owner signal) : owner = id ∧ breaker = before.breaker id ∧
      ∃ reached, label = .get task reached ∧ signal = before.answered reached ∧
        ∀ purpose, phase = .recording owner purpose (.asked signal) →
          first = .recording owner purpose .asking := by
  cases stepped with
  | @answer _ reached =>
      rcases asked with same | ⟨_, absurd⟩
      · cases same
        exact ⟨rfl, rfl, reached, rfl, rfl, fun _ absurd => by cases absurd⟩
      · cases absurd
  | @recordAnswer _ purpose reached =>
      rcases asked with absurd | ⟨_, same⟩
      · cases absurd
      · cases same
        refine ⟨rfl, rfl, reached, rfl, rfl, fun _ same => ?_⟩
        cases same
        rfl
  | @published _ purpose record reached =>
      cases purpose <;> rcases asked with absurd | ⟨_, absurd⟩ <;> cases absurd
  | returned next => rcases next with rfl | rfl <;> rcases asked with absurd | ⟨_, absurd⟩ <;> cases absurd
  | raised next => rcases next with rfl | rfl <;> rcases asked with absurd | ⟨_, absurd⟩ <;> cases absurd
  | _ => rcases asked with absurd | ⟨_, absurd⟩ <;> cases absurd

theorem setting_step {owner : BreakerId} {purpose : RecordPurpose} {record : BreakerRecord}
    (stepped : TaskStep config before task label first id breaker phase store)
    (setting : phase = .recording owner purpose (.setting record)) : owner = id ∧
      ∃ signal, first = .recording id purpose (.asked signal) ∧
        record = ((before.breaker id).honourReset signal).published (config id) before.clock := by
  cases stepped with
  | @honoured _ _ signal =>
      cases setting
      exact ⟨rfl, signal, rfl, rfl⟩
  | @published _ stage _ _ => cases stage <;> cases setting
  | returned next => rcases next with rfl | rfl <;> cases setting
  | raised next => rcases next with rfl | rfl <;> cases setting
  | _ => cases setting

theorem store_step (stepped : TaskStep config before task label first id breaker phase store) :
    store = before.store ∨ ∃ purpose record, first = .recording id purpose (.setting record) ∧
      store = before.store.setRecord before.clock record := by
  cases stepped with
  | @published _ purpose record reached =>
      cases reached with
      | true => exact .inr ⟨purpose, record, rfl, rfl⟩
      | false => exact .inl rfl
  | _ => exact .inl rfl

def raisedBy : ResetPhase → Option Time
  | .scanning resetAt | .reading resetAt _ _ | .rewriting resetAt _ | .completed resetAt => some resetAt
  | .idle | .signalling _ | .aborted => none

/-- The reset has yet to rewrite the record of `name`, whatever is found there. -/
def Rewrites (name : String) : ResetPhase → Prop
  | .scanning _ => True
  | .reading _ names records => name ∈ names ∨ ∃ record ∈ records, record.name = name ∧ ¬ record.resetClean
  | .rewriting _ records => ∃ record ∈ records, record.name = name ∧ ¬ record.resetClean
  | _ => False

theorem raisedBy_rewrite (resetAt : Time) (records : List BreakerRecord) :
    raisedBy (.rewrite resetAt records) = some resetAt := by
  unfold ResetPhase.rewrite
  split <;> rfl

theorem raisedBy_read (resetAt : Time) (names : List String) (records : List BreakerRecord) :
    raisedBy (.read resetAt names records) = some resetAt := by
  unfold ResetPhase.read
  split
  · exact raisedBy_rewrite ..
  · rfl

theorem rewrites_rewrite {resetAt : Time} {records : List BreakerRecord} {record : BreakerRecord}
    (member : record ∈ records) (dirty : ¬ record.resetClean) :
    Rewrites record.name (.rewrite resetAt records) := by
  have among : record ∈ records.filter fun record => !record.resetClean :=
    List.mem_filter.mpr ⟨member, by simpa using dirty⟩
  unfold ResetPhase.rewrite
  split
  · rename_i none
    rw [none] at among
    cases among
  · exact ⟨record, among, rfl, dirty⟩

theorem rewrites_read {resetAt : Time} {names : List String} {records : List BreakerRecord} {name : String}
    (left : name ∈ names ∨ ∃ record ∈ records, record.name = name ∧ ¬ record.resetClean) :
    Rewrites name (.read resetAt names records) := by
  unfold ResetPhase.read
  split
  · rcases left with absurd | ⟨record, member, rfl, dirty⟩
    · cases absurd
    · exact rewrites_rewrite member dirty
  · exact left

theorem command_cases {reached : Bool} {scanned : List String} {current next : ResetPhase}
    {store later : BreakerStore}
    (performed : current.command reached scanned now store = some (next, later)) :
    (next = .aborted ∧ later = store) ∨
    (∃ resetAt, current = .signalling resetAt ∧ reached = true ∧ next = .scanning resetAt ∧
      later = store.setResetAt now resetAt) ∨
    (∃ resetAt, current = .scanning resetAt ∧ (∀ name ∈ store.present now, name ∈ scanned) ∧
      next = .read resetAt scanned [] ∧ later = store) ∨
    (∃ resetAt name rest records, current = .reading resetAt (name :: rest) records ∧
      next = .read resetAt rest (records ++ (store.record now name).toList) ∧ later = store) ∨
    ∃ resetAt record rest, current = .rewriting resetAt (record :: rest) ∧ next = .rewrite resetAt rest ∧
      later = if reached then store.setRecord now (record.rewritten now) else store := by
  cases current with
  | signalling resetAt =>
      cases reached with
      | true =>
          cases performed
          exact .inr (.inl ⟨resetAt, rfl, rfl, rfl, rfl⟩)
      | false =>
          cases performed
          exact .inl ⟨rfl, rfl⟩
  | scanning resetAt =>
      simp only [ResetPhase.command] at performed
      split at performed
      · cases performed
        exact .inl ⟨rfl, rfl⟩
      · split at performed
        · rename_i complete
          cases performed
          refine .inr (.inr (.inl ⟨resetAt, rfl, fun name member => ?_, rfl, rfl⟩))
          exact List.contains_iff_mem.mp (List.all_eq_true.mp complete name member)
        · cases performed
  | reading resetAt names records =>
      cases names with
      | nil => cases performed
      | cons name rest =>
          cases reached with
          | true =>
              cases performed
              exact .inr (.inr (.inr (.inl ⟨resetAt, name, rest, records, rfl, rfl, rfl⟩)))
          | false =>
              cases performed
              exact .inl ⟨rfl, rfl⟩
  | rewriting resetAt records =>
      cases records with
      | nil => cases performed
      | cons record rest =>
          cases performed
          exact .inr (.inr (.inr (.inr ⟨resetAt, record, rest, rfl, rfl, rfl⟩)))
  | _ => cases performed

theorem command_raised {reached : Bool} {scanned : List String} {current next : ResetPhase}
    {store later : BreakerStore} {resetAt : Time}
    (performed : current.command reached scanned now store = some (next, later)) :
    next ≠ .signalling resetAt ∧ (raisedBy next = some resetAt →
      raisedBy current = some resetAt ∨ current = .signalling resetAt ∧ reached = true) := by
  have past : ∀ {value}, raisedBy next = some value → next ≠ .signalling resetAt := by
    rintro value raised rfl
    cases raised
  rcases command_cases performed with ⟨rfl, rfl⟩ | ⟨value, rfl, rfl, rfl, rfl⟩ |
    ⟨value, rfl, _, rfl, rfl⟩ | ⟨value, _, _, _, rfl, rfl, rfl⟩ | ⟨value, _, _, rfl, rfl, rfl⟩
  · exact ⟨fun absurd => (by cases absurd), fun absurd => by cases absurd⟩
  · refine ⟨past rfl, fun equal => ?_⟩
    cases equal
    exact .inr ⟨rfl, rfl⟩
  · exact ⟨past (raisedBy_read ..), fun equal => .inl ((raisedBy_read ..).symm.trans equal)⟩
  · exact ⟨past (raisedBy_read ..), fun equal => .inl ((raisedBy_read ..).symm.trans equal)⟩
  · exact ⟨past (raisedBy_rewrite ..), fun equal => .inl ((raisedBy_rewrite ..).symm.trans equal)⟩

theorem dirty_of_last {record : BreakerRecord} {failedAt : Time}
    (last : record.lastFailureAt = some failedAt) : ¬ record.resetClean := by
  simp [BreakerRecord.resetClean, last]

def lastSignal (breakers : Breakers) : Option Time := breakers.store.signal.map Prod.fst

theorem lastSignal_of_answered {breakers : Breakers} {reached : Bool} {resetAt : Time}
    (answered : breakers.answered reached = some resetAt) : lastSignal breakers = some resetAt := by
  unfold Breakers.answered BreakerStore.resetAt at answered
  split at answered
  · obtain ⟨⟨value, expiry⟩, stored, alive⟩ := Option.bind_eq_some_iff.mp answered
    split at alive
    · cases alive
      rw [lastSignal, stored]
      rfl
    · cases alive
  · cases answered

def Unstale (raised : Option Time) (record : BreakerRecord) : Prop :=
  ∀ resetAt failedAt, raised = some resetAt → record.lastFailureAt = some failedAt → resetAt < failedAt

structure Fresh (breakers : Breakers) : Prop where
  remembers : ∀ id, Remembers breakers.clock (breakers.breaker id)
  current : ∀ id, Tracks (lastSignal breakers) (breakers.breaker id)
  asked : ∀ task id resetAt, Asked (breakers.task task) id (some resetAt) →
    ∃ last, lastSignal breakers = some last ∧ resetAt ≤ last
  recording : ∀ task id purpose signal, breakers.task task = .recording id purpose (.asked signal) →
    signal = lastSignal breakers ∨ Newer (lastSignal breakers) (breakers.breaker id)
  setting : ∀ task id purpose record, breakers.task task = .recording id purpose (.setting record) →
    Unstale (lastSignal breakers) record
  named : ∀ entry ∈ breakers.store.records, entry.2.1.name = entry.1
  signalled : ∀ reset resetAt, raisedBy (breakers.reset reset) = some resetAt →
    ∃ last, lastSignal breakers = some last ∧ resetAt ≤ last
  stale : ∀ reset resetAt, raisedBy (breakers.reset reset) = some resetAt → ∀ name record failedAt,
    breakers.store.record breakers.clock name = some record → record.lastFailureAt = some failedAt →
    failedAt ≤ resetAt → Rewrites name (breakers.reset reset)

/-- What keeps a reset apart from what it would overtake. -/
def orderly (before : Breakers) : BreakerAction → Prop
  | .get task reached => ∀ id purpose, before.task task = .recording id purpose .asking →
      before.answered reached = lastSignal before ∨ Newer (lastSignal before) (before.breaker id)
  | .finish task (.raises _) => ∀ id probe, before.task task = .running id probe →
      ∀ resetAt, lastSignal before = some resetAt → resetAt < before.clock ∧
        ((before.breaker id).state = .closed →
          (before.breaker id).failureCount = 0 ∨ (before.breaker id).observedResetAt = some resetAt)
  | .finish task .circuitOpen => ∀ id, before.task task = .running id true →
      (before.breaker id).state ≠ .closed
  | .resetCommand reset reached _ =>
      match before.reset reset with
      | .signalling resetAt => reached = true →
          (∀ last, lastSignal before = some last → last < resetAt) ∧
          (∀ id failedAt, (before.breaker id).lastFailureAt = some failedAt → failedAt ≤ resetAt) ∧
          (∀ task id purpose signal, before.task task = .recording id purpose (.asked signal) →
            (before.breaker id).lastFailureAt = none) ∧
          ∀ task id purpose record, before.task task = .recording id purpose (.setting record) →
            record.lastFailureAt = none
      | .rewriting _ _ => reached = true
      | _ => True
  | _ => True

section Step

variable (fresh : Fresh before)

include fresh

theorem Fresh.pass (wall monotonic : Time) : Fresh { before with
    clock := before.clock + wall, monotonic := before.monotonic + monotonic } :=
  { fresh with
    remembers := fun id => (fresh.remembers id).later (Nat.le_add_right _ _)
    stale := fun reset resetAt raised name record failedAt found =>
      fresh.stale reset resetAt raised name record failedAt
        (record_earlier (Nat.le_add_right _ _) found) }

theorem Fresh.leaves (stepped : TaskStep config before task label (before.task task) id breaker phase store)
    (permitted : orderly before label) :
    Remembers before.clock breaker ∧ Tracks (lastSignal before) breaker ∧
      (Newer (lastSignal before) (before.breaker id) → Newer (lastSignal before) breaker) := by
  have remembers := fresh.remembers id
  have current := fresh.current id
  rcases breaker_step stepped with ⟨same, state⟩ | ⟨signal, asked, same, state⟩ | rfl |
    ⟨probe, reason, rfl, running, rfl⟩
  · exact ⟨remembers.of_same same.journal same.failureCount same.lastFailureAt,
      current.of_same same state, fun newer => newer.of_last same.lastFailureAt⟩
  · have known : ∀ resetAt, signal = some resetAt →
        ∃ last, lastSignal before = some last ∧ resetAt ≤ last := by
      rintro resetAt rfl
      exact fresh.asked task id resetAt asked
    exact ⟨(remembers.honour signal).of_same same.journal same.failureCount same.lastFailureAt,
      (current.honour remembers known).of_same same state,
      fun newer => (newer.honour signal).of_last same.lastFailureAt⟩
  · exact ⟨remembers.success, current.success, fun newer => newer.of_last onSuccess_last⟩
  · have permitted := permitted id probe running
    have after : ∀ resetAt, lastSignal before = some resetAt → resetAt < before.clock :=
      fun resetAt signalled => (permitted resetAt signalled).1
    refine ⟨remembers.failure _ _, ?_, fun _ => .failure _ _ after⟩
    exact current.failure _ _ after (fun resetAt signalled => (permitted resetAt signalled).2) remembers

theorem Fresh.moves (stepped : TaskStep config before task label (before.task task) id breaker phase store)
    (permitted : orderly before label) : Fresh (before.moved task id breaker phase store) := by
  obtain ⟨remembers, current, newer⟩ := fresh.leaves stepped permitted
  have signal : lastSignal (before.moved task id breaker phase store) = lastSignal before := by
    rcases store_step stepped with rfl | ⟨_, _, _, rfl⟩ <;> rfl
  constructor
  · intro other
    by_cases same : other = id
    · subst same
      rw [moved_breaker_self]
      exact remembers
    · rw [moved_breaker_other same]
      exact fresh.remembers other
  · intro other
    rw [signal]
    by_cases same : other = id
    · subst same
      rw [moved_breaker_self]
      exact current
    · rw [moved_breaker_other same]
      exact fresh.current other
  · intro other owner resetAt asked
    rw [signal]
    by_cases own : other = task
    · subst own
      rw [moved_task_self] at asked
      obtain ⟨_, _, reached, _, answered, _⟩ := asked_step stepped asked
      exact ⟨resetAt, lastSignal_of_answered answered.symm, Nat.le_refl _⟩
    · rw [moved_task_other own] at asked
      exact fresh.asked other owner resetAt asked
  · intro other owner purpose given asked
    rw [signal]
    by_cases own : other = task
    · subst own
      rw [moved_task_self] at asked
      obtain ⟨rfl, rfl, reached, rfl, rfl, earlier⟩ := asked_step stepped (.inr ⟨purpose, asked⟩)
      rw [moved_breaker_self]
      exact permitted owner purpose (earlier purpose asked)
    · rw [moved_task_other own] at asked
      refine (fresh.recording other owner purpose given asked).imp_right fun recent => ?_
      by_cases same : owner = id
      · subst same
        rw [moved_breaker_self]
        exact newer recent
      · rw [moved_breaker_other same]
        exact recent
  · intro other owner purpose record setting
    rw [signal]
    by_cases own : other = task
    · subst own
      rw [moved_task_self] at setting
      obtain ⟨rfl, given, asked, rfl⟩ := setting_step stepped setting
      -- What is published has honoured the last signal, or is newer than it.
      rcases fresh.recording other owner purpose given asked with rfl | recent
      · exact (fresh.current owner).newer
      · exact recent.honour given
    · rw [moved_task_other own] at setting
      exact fresh.setting other owner purpose record setting
  · rw [moved_store]
    rcases store_step stepped with rfl | ⟨_, record, _, rfl⟩
    · exact fresh.named
    · intro entry member
      rcases List.mem_cons.mp member with rfl | other
      · rfl
      · exact fresh.named entry (List.mem_filter.mp other).1
  · intro reset resetAt raised
    rw [signal]
    exact fresh.signalled reset resetAt raised
  · intro reset resetAt raised name record failedAt found last bound
    rw [moved_store, moved_clock] at found
    rcases store_step stepped with rfl | ⟨purpose, published, setting, rfl⟩
    · exact fresh.stale reset resetAt raised name record failedAt found last bound
    · by_cases here : name = published.name
      · subst here
        obtain rfl := record_setRecord_self found
        obtain ⟨latest, signalled, upper⟩ := fresh.signalled reset resetAt raised
        have recent := fresh.setting task id purpose record setting latest failedAt signalled last
        exact absurd (Nat.lt_of_le_of_lt upper recent) (Nat.not_lt.mpr bound)
      · rw [record_setRecord_other here] at found
        exact fresh.stale reset resetAt raised name record failedAt found last bound

theorem Fresh.turn {reset : ResetId} {next : ResetPhase}
    (raised : ∀ resetAt, raisedBy next = some resetAt → raisedBy (before.reset reset) = some resetAt)
    (left : next ≠ .aborted → ∀ name record failedAt,
      before.store.record before.clock name = some record → record.lastFailureAt = some failedAt →
      Rewrites name (before.reset reset) → Rewrites name next) :
    Fresh (before.setReset reset next) := by
  refine { fresh with signalled := ?_, stale := ?_ }
  · intro other resetAt signal
    by_cases same : other = reset
    · subst same
      rw [setReset_self] at signal
      exact fresh.signalled other resetAt (raised resetAt signal)
    · rw [setReset_other same] at signal
      exact fresh.signalled other resetAt signal
  · intro other resetAt signal name record failedAt found last bound
    by_cases same : other = reset
    · subst same
      rw [setReset_self] at signal ⊢
      refine left (fun aborted => ?_) name record failedAt found last ?_
      · rw [aborted] at signal
        cases signal
      · exact fresh.stale other resetAt (raised resetAt signal) name record failedAt found last bound
    · rw [setReset_other same] at signal ⊢
      exact fresh.stale other resetAt signal name record failedAt found last bound

theorem Fresh.rewritten (record : BreakerRecord) : Fresh { before with
    store := before.store.setRecord before.clock (record.rewritten before.clock) } := by
  refine { fresh with named := ?_, stale := ?_ }
  · intro entry member
    rcases List.mem_cons.mp member with rfl | other
    · rfl
    · exact fresh.named entry (List.mem_filter.mp other).1
  · intro reset resetAt raised name found failedAt present last bound
    by_cases here : name = (record.rewritten before.clock).name
    · subst here
      obtain rfl := record_setRecord_self present
      cases last
    · rw [record_setRecord_other here] at present
      exact fresh.stale reset resetAt raised name found failedAt present last bound

theorem Fresh.signal {reset : ResetId} {resetAt : Time} {scanned : List String}
    (signalling : before.reset reset = .signalling resetAt)
    (permitted : orderly before (.resetCommand reset true scanned)) :
    Fresh ({ before with store := before.store.setResetAt before.clock resetAt }.setReset reset
      (.scanning resetAt)) := by
  unfold orderly at permitted
  simp only [signalling] at permitted
  obtain ⟨later, old, unasked, unset⟩ := permitted trivial
  constructor
  · exact fresh.remembers
  · intro id
    have observed : ∀ seen, (before.breaker id).observedResetAt = some seen → seen < resetAt := by
      intro seen equal
      obtain ⟨last, signalled, bound⟩ := (fresh.current id).observed seen equal
      exact Nat.lt_of_le_of_lt bound (later last signalled)
    constructor
    · exact fun seen equal => ⟨resetAt, rfl, Nat.le_of_lt (observed seen equal)⟩
    · exact fun equal => absurd (observed resetAt equal) (Nat.lt_irrefl resetAt)
    · intro value signalled _
      cases signalled
      refine .inr ⟨fun equal => Nat.lt_irrefl resetAt (observed resetAt equal), fun failedAt member => ?_⟩
      obtain ⟨others, split⟩ := counted_prefix_remembered (before.breaker id).journal
      have rememberedAt : failedAt ∈ rememberedAt (before.breaker id).journal := by
        rw [← split]
        exact List.mem_append_left _ member
      obtain ⟨last, present, bound⟩ := (fresh.remembers id).newest rememberedAt
      exact Nat.le_trans bound (old id last present)
  · intro task id seen asked
    obtain ⟨last, signalled, bound⟩ := fresh.asked task id seen asked
    exact ⟨resetAt, rfl, Nat.le_of_lt (Nat.lt_of_le_of_lt bound (later last signalled))⟩
  · intro task id purpose given asked
    exact .inr fun _ _ _ last => absurd ((unasked task id purpose given asked).symm.trans last) (by simp)
  · intro task id purpose record setting _ failedAt _ last
    rw [unset task id purpose record setting] at last
    cases last
  · exact fresh.named
  · intro other value raised
    by_cases same : other = reset
    · subst same
      rw [setReset_self] at raised
      cases raised
      exact ⟨resetAt, rfl, Nat.le_refl _⟩
    · rw [setReset_other same] at raised
      obtain ⟨last, signalled, bound⟩ := fresh.signalled other value raised
      exact ⟨resetAt, rfl, Nat.le_of_lt (Nat.lt_of_le_of_lt bound (later last signalled))⟩
  · intro other value raised name record failedAt found last bound
    by_cases same : other = reset
    · subst same
      rw [setReset_self]
      exact trivial
    · rw [setReset_other same] at raised ⊢
      exact fresh.stale other value raised name record failedAt found last bound

theorem Fresh.command {reset : ResetId} {reached : Bool} {scanned : List String} {next : ResetPhase}
    {later : BreakerStore}
    (performed : (before.reset reset).command reached scanned before.clock before.store = some (next, later))
    (permitted : orderly before (.resetCommand reset reached scanned)) :
    Fresh ({ before with store := later }.setReset reset next) := by
  rcases command_cases performed with ⟨rfl, rfl⟩ | ⟨resetAt, current, rfl, rfl, rfl⟩ |
    ⟨resetAt, current, complete, rfl, rfl⟩ | ⟨resetAt, name, rest, records, current, rfl, rfl⟩ |
    ⟨resetAt, record, rest, current, rfl, rfl⟩
  · exact fresh.turn (fun _ absurd => by cases absurd) fun kept => absurd rfl kept
  · exact fresh.signal current permitted
  · refine fresh.turn (fun value raised => ?_) fun _ name record failedAt found _ _ => ?_
    · rw [raisedBy_read] at raised
      rw [current]
      exact raised
    · exact rewrites_read (.inl (complete name (mem_present found)))
  · refine fresh.turn (fun value raised => ?_) fun _ other record failedAt found last rewrites => ?_
    · rw [raisedBy_read] at raised
      rw [current]
      exact raised
    · rw [current] at rewrites
      refine rewrites_read ?_
      rcases rewrites with member | ⟨read, member, equal⟩
      · rcases List.mem_cons.mp member with rfl | left
        · obtain ⟨expiry, stored⟩ := mem_of_record found
          refine .inr ⟨record, ?_, fresh.named _ stored, dirty_of_last last⟩
          rw [found]
          exact List.mem_append_right _ List.mem_cons_self
        · exact .inl left
      · exact .inr ⟨read, List.mem_append_left _ member, equal⟩
  · have reached : reached = true := by
      unfold orderly at permitted
      simp only [current] at permitted
      exact permitted
    subst reached
    rw [if_pos rfl]
    refine (fresh.rewritten record).turn (fun value raised => ?_)
      fun _ other found failedAt present last rewrites => ?_
    · rw [raisedBy_rewrite] at raised
      rw [show before.reset reset = _ from current]
      exact raised
    · rw [show before.reset reset = _ from current] at rewrites
      obtain ⟨read, member, rfl, dirty⟩ := rewrites
      rcases List.mem_cons.mp member with rfl | left
      · obtain rfl := @record_setRecord_self _ _ (read.rewritten before.clock) _ _ present
        cases last
      · exact rewrites_rewrite left dirty

theorem Fresh.step (permitted : orderly before label)
    (stepped : Breakers.step config label before = some after) : Fresh after := by
  rcases breakers_step_cases stepped with ⟨wall, monotonic, rfl, rfl⟩ | ⟨reset, rfl, idle, rfl⟩ |
    ⟨reset, reached, scanned, next, store, rfl, performed, rfl⟩ | ⟨task, id, breaker, phase, store, moved, rfl⟩
  · exact fresh.pass wall monotonic
  · refine fresh.turn (fun _ absurd => by cases absurd) fun _ name record failedAt _ _ rewrites => ?_
    rw [idle] at rewrites
    exact rewrites
  · exact fresh.command performed permitted
  · exact fresh.moves moved permitted

theorem Fresh.trip (permitted : orderly before label)
    (stepped : Breakers.step config label before = some after)
    (closed : (before.breaker id).state = .closed) (opened : (after.breaker id).state = .open) :
    (∃ reason, after.breaker id =
        (before.breaker id).onFailure (config id) before.clock before.monotonic reason ∧
      after.reset = before.reset ∧ after.clock = before.clock) ∧
    ∀ last, lastSignal before = some last →
      (config id).failureThreshold ≤ ((streak (after.breaker id).journal).filter (last < ·)).length := by
  have stays : ∀ {state : Breakers}, state.breaker id = before.breaker id →
      (state.breaker id).state ≠ .open := by
    intro state same
    rw [same, closed]
    simp
  rcases breakers_step_cases stepped with ⟨_, _, rfl, rfl⟩ | ⟨_, rfl, _, rfl⟩ |
    ⟨_, _, _, _, _, rfl, _, rfl⟩ | ⟨task, owner, breaker, phase, store, moved, rfl⟩
  · exact absurd opened (stays rfl)
  · exact absurd opened (stays rfl)
  · exact absurd opened (stays rfl)
  · by_cases same : id = owner
    · subst same
      have honoured : ∀ {signal}, ((before.breaker id).honourReset signal).state ≠ .open := by
        intro signal absurd
        rcases @Breaker.honourReset_state (before.breaker id) signal with equal | equal
        · rw [equal, closed] at absurd
          cases absurd
        · rw [equal] at absurd
          cases absurd
      rw [moved_breaker_self] at opened ⊢
      generalize running : before.task task = first at moved
      cases moved with
      | refused => exact absurd opened honoured
      | call => exact absurd opened honoured
      | honoured => exact absurd opened honoured
      | probe opening => exact absurd opening honoured
      | returned =>
          rw [Breaker.onSuccess_state] at opened
          cases opened
      | undone => exact absurd closed (permitted id running)
      | raised =>
          rename_i probe reason next
          refine ⟨⟨reason, rfl, rfl, rfl⟩, fun last signalled => ?_⟩
          obtain ⟨after, honoured⟩ := permitted id probe running last signalled
          obtain ⟨journal, _, _, _⟩ := @onFailure_memory (before.breaker id) (before.clock) (before.monotonic) (config id) reason
          have recent := (fresh.current id).ripe (fresh.remembers id) signalled closed (honoured closed)
          have threshold : (config id).failureThreshold ≤ (before.breaker id).failureCount + 1 := by
            rcases @Breaker.onFailure_state (before.breaker id) (before.clock) (before.monotonic) (config id) reason with ⟨halfOpen | reached, _⟩ | ⟨_, equal⟩
            · rw [closed] at halfOpen
              cases halfOpen
            · exact reached
            · rw [equal, closed] at opened
              cases opened
          have among := (counted_prefix_streak (before.breaker id).journal).sublist.filter
            fun failedAt => last < failedAt
          rw [List.filter_eq_self.mpr fun failedAt member => decide_eq_true (recent failedAt member)] at among
          rw [journal]
          simp only [streak, List.filter_cons, decide_eq_true after, if_true, List.length_cons]
          calc (config id).failureThreshold
              ≤ (before.breaker id).failureCount + 1 := threshold
            _ = (counted (before.breaker id).journal).length + 1 := by rw [(fresh.remembers id).count]
            _ ≤ _ := Nat.succ_le_succ among.length_le
      | _ => exact absurd closed (by rw [opened]; simp)
    · exact absurd opened (stays (moved_breaker_other same))

/-- A newer failure or a newer signal is there, so that no orderly reset raises
the signal of `resetAt`. -/
def Superseded (resetAt : Time) (breakers : Breakers) : Prop :=
  (∃ id failedAt, (breakers.breaker id).lastFailureAt = some failedAt ∧ resetAt < failedAt) ∨
    ∃ last, lastSignal breakers = some last ∧ resetAt < last

theorem Fresh.superseded {resetAt : Time} (superseded : Superseded resetAt before)
    (passed : resetAt < before.clock) (permitted : orderly before label)
    (stepped : Breakers.step config label before = some after) : Superseded resetAt after := by
  rcases breakers_step_cases stepped with ⟨_, _, rfl, rfl⟩ | ⟨_, rfl, _, rfl⟩ |
    ⟨reset, reached, scanned, next, store, rfl, performed, rfl⟩ | ⟨task, id, breaker, phase, store, moved, rfl⟩
  · exact superseded
  · exact superseded
  · refine superseded.imp_right ?_
    rintro ⟨last, signalled, newer⟩
    rcases command_cases performed with ⟨rfl, rfl⟩ | ⟨raisedAt, current, rfl, rfl, rfl⟩ |
      ⟨_, _, _, rfl, rfl⟩ | ⟨_, _, _, _, _, rfl, rfl⟩ | ⟨_, record, _, _, rfl, rfl⟩
    · exact ⟨last, signalled, newer⟩
    · unfold orderly at permitted
      simp only [current] at permitted
      exact ⟨raisedAt, rfl, Nat.lt_trans newer ((permitted trivial).1 last signalled)⟩
    · exact ⟨last, signalled, newer⟩
    · exact ⟨last, signalled, newer⟩
    · refine ⟨last, ?_, newer⟩
      cases reached <;> exact signalled
  · have signal : lastSignal (before.moved task id breaker phase store) = lastSignal before := by
      rcases store_step moved with rfl | ⟨_, _, _, rfl⟩ <;> rfl
    rcases superseded with ⟨owner, failedAt, last, newer⟩ | ⟨last, signalled, newer⟩
    · by_cases same : owner = id
      · subst same
        have kept : breaker.lastFailureAt = (before.breaker owner).lastFailureAt →
            Superseded resetAt (before.moved task owner breaker phase store) := by
          intro equal
          refine .inl ⟨owner, failedAt, ?_, newer⟩
          rw [moved_breaker_self, equal, last]
        rcases breaker_step moved with ⟨equal, _⟩ | ⟨given, asked, equal, _⟩ | rfl |
          ⟨_, reason, _, _, rfl⟩
        · exact kept equal.lastFailureAt
        · rcases @Breaker.honourReset_cases (before.breaker owner) given with
            untouched | ⟨seen, rfl, _, ⟨_, untouched⟩ | ⟨old, _⟩⟩
          · exact kept (equal.lastFailureAt.trans (by rw [untouched]))
          · exact kept (equal.lastFailureAt.trans (by rw [untouched]))
          · -- What is cleared is no newer than a signal, which is the newer one then.
            obtain ⟨latest, signalled, bound⟩ := fresh.asked task owner seen asked
            refine .inr ⟨latest, signal.trans signalled, ?_⟩
            exact Nat.lt_of_lt_of_le newer (Nat.le_trans (old failedAt last) bound)
        · exact kept onSuccess_last
        · refine .inl ⟨owner, before.clock, ?_, passed⟩
          rw [moved_breaker_self]
          exact (onFailure_memory _ reason).2.2.1
      · refine .inl ⟨owner, failedAt, ?_, newer⟩
        rw [moved_breaker_other same, last]
    · exact .inr ⟨last, signal.trans signalled, newer⟩

/-- The reset can no longer raise a signal of `resetAt`. -/
structure Overtaken (reset : ResetId) (resetAt : Time) (breakers : Breakers) : Prop where
  unraised : raisedBy (breakers.reset reset) ≠ some resetAt
  passed : resetAt < breakers.clock
  superseded : breakers.reset reset = .signalling resetAt → Superseded resetAt breakers

theorem Fresh.overtaken {reset : ResetId} {resetAt : Time} (overtaken : Overtaken reset resetAt before)
    (permitted : orderly before label) (stepped : Breakers.step config label before = some after) :
    Overtaken reset resetAt after := by
  obtain ⟨unraised, passed, superseded⟩ := overtaken
  have keeps : before.reset reset = .signalling resetAt → Superseded resetAt after :=
    fun signalling => fresh.superseded (superseded signalling) passed permitted stepped
  rcases breakers_step_cases stepped with ⟨_, _, rfl, rfl⟩ | ⟨other, rfl, idle, rfl⟩ |
    ⟨other, reached, scanned, next, store, rfl, performed, rfl⟩ | ⟨task, id, breaker, phase, store, moved, rfl⟩
  · exact ⟨unraised, Nat.lt_of_lt_of_le passed (Nat.le_add_right _ _), keeps⟩
  · by_cases same : reset = other
    · subst same
      constructor
      · rw [setReset_self]
        exact fun absurd => by cases absurd
      · exact passed
      · rw [setReset_self]
        intro begun
        cases begun
        exact absurd passed (Nat.lt_irrefl _)
    · exact ⟨by rw [setReset_other same]; exact unraised, passed, by
        rw [setReset_other same]
        exact keeps⟩
  · by_cases same : reset = other
    · subst same
      obtain ⟨begun, raised⟩ := @command_raised _ _ _ _ _ _ _ resetAt performed
      constructor
      · rw [setReset_self]
        intro equal
        rcases raised equal with earlier | ⟨current, rfl⟩
        · exact unraised earlier
        · unfold orderly at permitted
          simp only [current] at permitted
          obtain ⟨later, old, _⟩ := permitted trivial
          rcases superseded current with ⟨id, failedAt, last, newer⟩ | ⟨last, signalled, newer⟩
          · exact Nat.not_le.mpr newer (old id failedAt last)
          · exact Nat.lt_asymm newer (later last signalled)
      · exact passed
      · rw [setReset_self]
        exact fun absurd => (begun absurd).elim
    · exact ⟨by rw [setReset_other same]; exact unraised, passed, by
        rw [setReset_other same]
        exact keeps⟩
  · exact ⟨unraised, passed, keeps⟩

end Step

theorem Fresh.initial : Fresh .initial := by
  constructor
  · exact fun _ => ⟨rfl, rfl, .nil, fun _ member => by cases member⟩
  · refine fun _ => ⟨fun _ absurd => (by cases absurd), fun _ _ _ absurd => (by cases absurd), ?_⟩
    exact fun _ absurd => by cases absurd
  · rintro _ _ _ (absurd | ⟨_, absurd⟩) <;> cases absurd
  · exact fun _ _ _ _ absurd => by cases absurd
  · exact fun _ _ _ _ absurd => by cases absurd
  · exact fun _ member => by cases member
  · exact fun _ _ absurd => by cases absurd
  · exact fun _ _ absurd => by cases absurd

/-- What a reset that completes promises of the records, of the breakers that
open, and of the failures that came after it. -/
structure FreshStart (config : BreakerId → BreakerConfig) (steps : List (Breakers × BreakerAction))
    (last : Breakers) : Prop where
  clean : ∀ breakers ∈ Machine.visited steps last, ∀ reset resetAt,
    breakers.reset reset = .completed resetAt → ∀ name record failedAt,
      breakers.store.record breakers.clock name = some record → record.lastFailureAt = some failedAt →
      resetAt < failedAt
  trips : ∀ taken ∈ steps, ∀ after, Breakers.step config taken.2 taken.1 = some after → ∀ id,
    (taken.1.breaker id).state = .closed → (after.breaker id).state = .open →
    ∀ reset resetAt, last.reset reset = .completed resetAt → resetAt < taken.1.clock →
      (config id).failureThreshold ≤ ((streak (after.breaker id).journal).filter (resetAt < ·)).length
  kept : ∀ breakers ∈ Machine.visited steps last, ∀ id,
    ∀ failedAt ∈ rememberedAt (breakers.breaker id).journal, ∀ resetAt < failedAt,
      (breakers.breaker id).honourReset (some resetAt) =
        { breakers.breaker id with observedResetAt := some resetAt }

variable {steps : List (Breakers × BreakerAction)} {last : Breakers}

theorem overtaken_of_trip (fresh : Fresh before) (permitted : orderly before label)
    (stepped : Breakers.step config label before = some after)
    (closed : (before.breaker id).state = .closed) (opened : (after.breaker id).state = .open)
    {reset : ResetId} {resetAt : Time} (passed : resetAt < before.clock)
    (unraised : raisedBy (before.reset reset) ≠ some resetAt) : Overtaken reset resetAt after := by
  obtain ⟨⟨reason, failed, sameReset, sameClock⟩, _⟩ := fresh.trip permitted stepped closed opened
  refine ⟨?_, ?_, fun _ => .inl ⟨id, before.clock, ?_, passed⟩⟩
  · rw [sameReset]
    exact unraised
  · rw [sameClock]
    exact passed
  · rw [failed]
    exact (onFailure_memory _ reason).2.2.1

theorem reset_is_fresh_start (ran : (circuitBreakers config).Run steps last)
    (ordered : ∀ taken ∈ steps, orderly taken.1 taken.2) : FreshStart config steps last := by
  have fresh := @Machine.Run.always _ _ _ _ _ orderly Fresh ran .initial
    (fun earlier permitted stepped => earlier.step permitted stepped) ordered
  refine ⟨?_, ?_, fun breakers member id failedAt among resetAt newer =>
    ((fresh breakers member).remembers id).keeps among newer⟩
  · intro breakers member reset resetAt completed name record failedAt found shown
    by_contra old
    have rewrites := (fresh breakers member).stale reset resetAt (by rw [completed]; rfl) name record
      failedAt found shown (Nat.le_of_not_lt old)
    rw [completed] at rewrites
    exact rewrites
  · intro taken member after stepped id closed opened reset resetAt completed passed
    have before := fresh taken.1 (List.mem_cons_of_mem _ (List.mem_map_of_mem member))
    have permitted := ordered taken member
    by_cases raised : raisedBy (taken.1.reset reset) = some resetAt
    · obtain ⟨latest, signalled, bound⟩ := before.signalled reset resetAt raised
      refine Nat.le_trans ((before.trip permitted stepped closed opened).2 latest signalled) ?_
      exact (List.monotone_filter_right _ fun failedAt newer =>
        decide_eq_true (Nat.lt_of_le_of_lt bound (of_decide_eq_true newer))).length_le
    · obtain ⟨later, earlier, rfl⟩ := List.append_of_mem member
      obtain ⟨next, _, again, rest⟩ := ran.split
      cases stepped.symm.trans again
      have overtaken := overtaken_of_trip before permitted stepped closed opened passed raised
      have never := @Machine.Segment.keeps _ _ _ _ _ _ (Overtaken reset resetAt) rest overtaken
        fun {before label after} among held stepped =>
          (fresh before (List.mem_cons_of_mem _ (List.mem_map.mpr
            ⟨_, List.mem_append_left _ among, rfl⟩))).overtaken held
              (ordered _ (List.mem_append_left _ among)) stepped
      exact absurd (by rw [completed]; rfl) never.unraised

/-- A `_record` that has looked for the signal before a reset raises it writes its
failure over the clean world after the reset has completed. -/
theorem stale_failure_after_reset : ∃ steps last,
    (circuitBreakers bulkApi).Run steps last ∧ ¬ FreshStart bulkApi steps last := by
  obtain ⟨steps, last, ran, checked⟩ := @Machine.exists_run _ _ (circuitBreakers bulkApi)
    [.pass 1 1, .call 0 0, .finish 0 (.raises .timeout), .get 0 true, .resume 0, .pass 1 1, .beginReset 0,
      .resetCommand 0 true [], .resetCommand 0 true [], .set 0 true]
    (fun _ last => (match last.reset 0 with
        | .completed resetAt => resetAt = 2
        | _ => false) &&
      ((last.store.record last.clock "bulk-api-sync").bind BreakerRecord.lastFailureAt) = some 1)
    (by decide +kernel)
  obtain ⟨completed, shown⟩ := Bool.and_eq_true_iff.mp checked
  obtain ⟨record, found, failedAt⟩ := Option.bind_eq_some_iff.mp (of_decide_eq_true shown)
  refine ⟨steps, last, ran, fun fresh => ?_⟩
  split at completed
  · rename_i resetAt phase
    cases of_decide_eq_true completed
    have newer := fresh.clean last List.mem_cons_self 0 2 phase _ record 1 found failedAt
    exact absurd newer (by decide)
  · cases completed

/-- A decidable form of `orderly` for a run that concerns only the first `bound`
tasks and breakers. -/
def orderlyBelow (bound : Nat) (before : Breakers) : BreakerAction → Bool
  | .get task reached =>
      match before.task task with
      | .recording _ _ .asking => before.answered reached = lastSignal before
      | _ => true
  | .finish task outcome =>
      match before.task task, outcome with
      | .running id _, .raises _ => (lastSignal before).all fun resetAt => resetAt < before.clock &&
          ((before.breaker id).failureCount = 0 || (before.breaker id).observedResetAt = some resetAt)
      | .running id _, .circuitOpen => (before.breaker id).state ≠ .closed
      | _, _ => true
  | .resetCommand reset reached _ =>
      match before.reset reset with
      | .signalling resetAt => ((lastSignal before).all fun last => last < resetAt) &&
          ((List.range bound).all fun id =>
            (before.breaker id).lastFailureAt.all fun failedAt => failedAt ≤ resetAt) &&
          (List.range bound).all fun task =>
            match before.task task with
            | .recording _ _ (.asked _) | .recording _ _ (.setting _) => false
            | _ => true
      | .rewriting _ _ => reached
      | _ => true
  | _ => true

theorem orderly_of_orderlyBelow {bound : Nat} (passes : orderlyBelow bound before label = true)
    (idle : ∀ task, bound ≤ task → before.task task = .idle)
    (untouched : ∀ id, bound ≤ id → before.breaker id = {}) : orderly before label := by
  cases label with
  | get task reached =>
      intro id purpose asking
      simp only [orderlyBelow, asking, decide_eq_true_eq] at passes
      exact .inl passes
  | finish task outcome =>
      cases outcome with
      | returns => exact trivial
      | raises reason =>
          intro id probe running resetAt signalled
          simp only [orderlyBelow, running, signalled, Option.all_some, Bool.and_eq_true, Bool.or_eq_true,
            decide_eq_true_eq] at passes
          exact ⟨passes.1, fun _ => passes.2⟩
      | circuitOpen =>
          intro id running
          simpa [orderlyBelow, running] using passes
  | resetCommand reset reached scanned =>
      cases current : before.reset reset with
      | signalling resetAt =>
          simp only [orderlyBelow, current, Bool.and_eq_true] at passes
          simp only [orderly, current]
          obtain ⟨⟨later, old⟩, quiet⟩ := passes
          refine fun _ => ⟨fun last signalled => ?_, fun id failedAt last => ?_, ?_, ?_⟩
          · simpa [signalled] using later
          · by_cases early : id < bound
            · simpa [last] using List.all_eq_true.mp old id (List.mem_range.mpr early)
            · rw [untouched id (Nat.le_of_not_lt early)] at last
              cases last
          · intro task id purpose signal asked
            by_cases early : task < bound
            · simpa [asked] using List.all_eq_true.mp quiet task (List.mem_range.mpr early)
            · rw [idle task (Nat.le_of_not_lt early)] at asked
              cases asked
          · intro task id purpose record setting
            by_cases early : task < bound
            · simpa [setting] using List.all_eq_true.mp quiet task (List.mem_range.mpr early)
            · rw [idle task (Nat.le_of_not_lt early)] at setting
              cases setting
      | rewriting resetAt records =>
          simp only [orderlyBelow, current] at passes
          simp only [orderly, current]
          exact passes
      | _ => simp only [orderly, current]
  | _ => exact trivial

/-- A failing breaker that is reset, honours the signal, and is opened by three
failures since. -/
theorem fresh_start_of_reset : ∃ steps last, (circuitBreakers bulkApi).Run steps last ∧
    (∃ resetAt, last.reset 0 = .completed resetAt) ∧ (last.breaker 0).state = .open ∧
    FreshStart bulkApi steps last := by
  obtain ⟨steps, last, ran, checked⟩ := @Machine.exists_run _ _ (circuitBreakers bulkApi)
    ([.pass 1 1, .call 0 0, .finish 0 (.raises .timeout), .get 0 true, .resume 0, .set 0 true, .pass 1 1,
        .beginReset 0, .resetCommand 0 true [], .resetCommand 0 true ["bulk-api-sync"],
        .resetCommand 0 true [], .resetCommand 0 true [], .refresh 1 0, .get 1 true, .resume 1, .set 1 true,
        .pass 1 1, .call 2 0, .call 3 0, .call 4 0, .finish 2 (.raises .timeout),
        .finish 3 (.raises .timeout), .finish 4 (.raises .timeout)])
    (fun steps last => movesBelow 5 steps &&
      (steps.all fun taken => taken.2.named.all fun id => id < 5) &&
      (steps.all fun taken => orderlyBelow 5 taken.1 taken.2) &&
      decide ((last.breaker 0).state = .open) &&
      match last.reset 0 with
      | .completed _ => true
      | _ => false) (by decide +kernel)
  simp only [Bool.and_eq_true, decide_eq_true_eq] at checked
  obtain ⟨⟨⟨⟨below, named⟩, passes⟩, opened⟩, completed⟩ := checked
  refine ⟨steps, last, ran, ?_, opened, reset_is_fresh_start ran fun taken member => ?_⟩
  · split at completed
    · rename_i resetAt phase
      exact ⟨resetAt, phase⟩
    · cases completed
  · have visited : taken.1 ∈ Machine.visited steps last := List.mem_cons_of_mem _ (List.mem_map_of_mem member)
    refine orderly_of_orderlyBelow (List.all_eq_true.mp passes taken member)
      (idle_of_movesBelow ran below taken.1 visited) (untouched_from ran (fun taken member id equal => ?_)
        taken.1 visited)
    have small := List.all_eq_true.mp named taken member
    rw [equal] at small
    exact of_decide_eq_true small

end IncidentPlatform.Properties

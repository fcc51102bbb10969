import IncidentPlatform.Mcp.Handlers

namespace IncidentPlatform.Properties

open Concurrency Mcp Models Services

/-! # One execution per idempotency key

A call that holds a claim is the one transaction open on the key, and a
committed row is deleted only once it has expired.
-/

variable {sha256 : String → String} {calls after : ToolCalls} {id other : CallId}
  {record : IdempotencyRecord} {slot next : KeySlot} {phase : CallPhase}

theorem insertClaim_taken (inserted : slot.insertClaim id record = some (true, next)) :
    next = { slot with writer := some (id, some record) } ∧
      (slot.writer = none ∧ slot.committed = none ∨ slot.writer = some (id, none)) := by
  unfold KeySlot.insertClaim at inserted
  split at inserted
  · contradiction
  · rename_i free
    split at inserted
    · cases inserted
    · rename_i unseen
      cases inserted
      refine ⟨rfl, ?_⟩
      unfold KeySlot.visible at unseen
      unfold KeySlot.heldByOther at free
      cases opened : slot.writer with
      | none => exact .inl ⟨rfl, by simpa [opened] using unseen⟩
      | some writer =>
          obtain ⟨owner, version⟩ := writer
          simp only [opened, Option.any_some, decide_eq_true_eq, ne_eq, not_not] at free
          subst free
          simp only [opened, if_true] at unseen
          exact .inr (by rw [unseen])

theorem key_visible_of_free {row : IdempotencyRecord} (seen : slot.visible id = some row)
    (free : slot.heldByOther id = false) :
    slot.writer = none ∧ slot.committed = some row ∨ slot.writer = some (id, some row) := by
  unfold KeySlot.visible at seen
  unfold KeySlot.heldByOther at free
  cases opened : slot.writer with
  | none => exact .inl ⟨rfl, by simpa [opened] using seen⟩
  | some writer =>
      obtain ⟨owner, version⟩ := writer
      simp only [opened, Option.any_some, decide_eq_false_iff_not, ne_eq, not_not] at free
      subst free
      simp only [opened, if_true] at seen
      exact .inr (by rw [seen])

theorem deleteById_cases {claim : Uuid} (deleted : slot.deleteById id claim = some next) :
    next = slot ∨ ∃ row, row.id = claim ∧ next = { slot with writer := some (id, none) } ∧
      (slot.writer = none ∧ slot.committed = some row ∨ slot.writer = some (id, some row)) := by
  unfold KeySlot.deleteById at deleted
  split at deleted
  · rename_i row seen
    split at deleted
    · cases deleted
      exact .inl rfl
    · rename_i same
      split at deleted
      · contradiction
      · rename_i free
        cases deleted
        exact .inr ⟨row, not_not.mp same, rfl, key_visible_of_free seen (by simpa using free)⟩
  · cases deleted
    exact .inl rfl

theorem deleteExpired_cases {now : Time} (deleted : slot.deleteExpired id now = some next) :
    next = slot ∨ ∃ row, row.isExpired now = true ∧ next = { slot with writer := some (id, none) } ∧
      (slot.writer = none ∧ slot.committed = some row ∨ slot.writer = some (id, some row)) := by
  unfold KeySlot.deleteExpired at deleted
  split at deleted
  · rename_i row seen
    split at deleted
    · cases deleted
      exact .inl rfl
    · rename_i expired
      split at deleted
      · contradiction
      · rename_i free
        cases deleted
        exact .inr ⟨row, by simpa using expired, rfl, key_visible_of_free seen (by simpa using free)⟩
  · cases deleted
    exact .inl rfl

theorem key_commit_cases (slot : KeySlot) (id : CallId) :
    (∃ version, slot.writer = some (id, version) ∧
      slot.commit id = { committed := version, writer := none }) ∨
    (∀ version, slot.writer ≠ some (id, version)) ∧ slot.commit id = slot := by
  unfold KeySlot.commit
  cases slot.writer with
  | none => exact .inr ⟨fun _ => by simp, rfl⟩
  | some writer =>
      obtain ⟨owner, version⟩ := writer
      by_cases same : owner = id
      · subst same
        exact .inl ⟨version, rfl, by simp⟩
      · exact .inr ⟨fun _ => by simp [same], by simp [same]⟩

theorem key_rollback_cases (slot : KeySlot) (id : CallId) :
    (∃ version, slot.writer = some (id, version) ∧
      slot.rollback id = { slot with writer := none }) ∨
    (∀ version, slot.writer ≠ some (id, version)) ∧ slot.rollback id = slot := by
  unfold KeySlot.rollback
  cases slot.writer with
  | none => exact .inr ⟨fun _ => by simp, rfl⟩
  | some writer =>
      obtain ⟨owner, version⟩ := writer
      by_cases same : owner = id
      · subst same
        exact .inl ⟨version, rfl, by simp⟩
      · exact .inr ⟨fun _ => by simp [same], by simp [same]⟩

theorem completeClaim_held {claim : Uuid} {response : Json} {expiresAt : Option Time}
    (writer : slot.writer = some (id, some record)) (same : record.id = claim) :
    slot.completeClaim id claim response expiresAt =
      { slot with writer := some (id, some { record with responseJson := some response, expiresAt }) } := by
  simp [KeySlot.completeClaim, writer, same]

theorem isExpired_later {now later : Time} (passed : now ≤ later) (expired : record.isExpired now = true) :
    record.isExpired later = true := by
  unfold IdempotencyRecord.isExpired at *
  cases deadline : record.expiresAt with
  | none => simp [deadline] at expired
  | some stamp =>
      simp only [deadline, Option.any_some, decide_eq_true_eq] at expired ⊢
      exact Nat.lt_of_lt_of_le expired passed

section Decisions

variable {now : Time} {toolName argumentsHash : String} {attempt : Nat} {holder : IdempotencyRecord}
  {seen : Option IdempotencyRecord} {error : IdempotencyError} {response : Json}

theorem assertSameCall_error (refused : assertSameCall holder toolName argumentsHash = .error error) :
    error.keyReused = true ∧ ¬ (holder.toolName = toolName ∧ holder.argumentsHash = argumentsHash) := by
  unfold assertSameCall at refused
  split at refused
  · rename_i different
    cases refused
    exact ⟨rfl, fun same => different same.2⟩
  · split at refused
    · rename_i different
      cases refused
      exact ⟨rfl, fun same => different same.1⟩
    · cases refused

theorem assertSameCall_ok {done : Unit} (passed : assertSameCall holder toolName argumentsHash = .ok done) :
    holder.toolName = toolName ∧ holder.argumentsHash = argumentsHash := by
  unfold assertSameCall at passed
  split at passed
  · cases passed
  · rename_i sameArguments
    split at passed
    · cases passed
    · rename_i sameTool
      exact ⟨not_not.mp sameTool, not_not.mp sameArguments⟩

theorem decideOnHolder_evict
    (decided : decideOnHolder now toolName argumentsHash attempt seen = .evict holder) :
    seen = some holder ∧ holder.isExpired now = true := by
  unfold decideOnHolder at decided
  split at decided
  · split at decided <;> cases decided
  · split at decided
    · rename_i stale
      cases decided
      exact ⟨rfl, stale.2⟩
    · split at decided
      · cases decided
      · split at decided <;> cases decided

theorem decideOnHolder_replay
    (decided : decideOnHolder now toolName argumentsHash attempt seen = .replay response) :
    ∃ holder, seen = some holder ∧ holder.responseJson = some response ∧
      holder.toolName = toolName ∧ holder.argumentsHash = argumentsHash := by
  unfold decideOnHolder at decided
  split at decided
  · split at decided <;> cases decided
  · rename_i holder
    split at decided
    · cases decided
    · split at decided
      · cases decided
      · rename_i passed
        split at decided
        · cases decided
        · rename_i recorded
          cases decided
          exact ⟨holder, rfl, recorded, assertSameCall_ok passed⟩

theorem decideOnHolder_refuse
    (decided : decideOnHolder now toolName argumentsHash attempt seen = .refuse error) :
    seen = none ∧ error.keyReused = false ∨ ∃ holder, seen = some holder ∧
      (error.keyReused = true ↔ ¬ (holder.toolName = toolName ∧ holder.argumentsHash = argumentsHash)) := by
  unfold decideOnHolder at decided
  split at decided
  · split at decided
    · cases decided
    · cases decided
      exact .inl ⟨rfl, rfl⟩
  · rename_i holder
    refine .inr ⟨holder, rfl, ?_⟩
    split at decided
    · cases decided
    · split at decided
      · rename_i refused
        cases decided
        obtain ⟨reused, different⟩ := assertSameCall_error refused
        exact ⟨fun _ => different, fun _ => reused⟩
      · rename_i passed
        split at decided
        · cases decided
          simp [IdempotencyError.keyReused, assertSameCall_ok passed]
        · cases decided

end Decisions

/-- A claim that a call holds, with the response it has recorded. -/
structure Holding where
  call : ToolCall
  claim : Uuid
  response : Option Json

/-- The claim of a call from its insert to its commit. -/
def holding : CallPhase → Option Holding
  | .executing call claim | .auditingSuccess call claim _ | .completing call claim _
  | .auditingFailure call claim _ | .releasing call claim _ _
  | .answered call (some claim) (.failed _ false) => some ⟨call, claim, none⟩
  | .responding call claim output recorded
  | .answered call (some claim) (.executed output recorded _) =>
      some ⟨call, claim, if recorded then some output else none⟩
  | _ => none

/-- The handler has run, and the call has deleted the claim it held. -/
def dropped : CallPhase → Bool
  | .answered _ (some _) (.executed ..) | .answered _ (some _) (.failed _ false) => false
  | .answered _ (some _) _ => true
  | _ => false

/-- What a call that has committed has left under the key. -/
def leftBehind : CallPhase → Option (ToolCall × Answer × Option IdempotencyRecord)
  | .committed call answer left => some (call, answer, left)
  | _ => none

def evictee : CallPhase → Option IdempotencyRecord
  | .evicting _ _ holder => some holder
  | _ => none

def ranHandler : Answer → Bool
  | .executed .. | .failed .. => true
  | _ => false

def keepsClaim : Answer → Bool
  | .executed .. | .failed _ false => true
  | _ => false

def recordedResponse : Answer → Option Json
  | .executed output true _ => some output
  | _ => none

/-- What `acquire` has answered in place of a claim. -/
def acquireAnswer : CallPhase → Option (ToolCall × Answer)
  | .auditing call answer | .answered call none answer => some (call, answer)
  | .answered call (some _) answer | .committed call answer _ =>
      if ranHandler answer then none else some (call, answer)
  | _ => none

/-- The record is the one that `call` would claim. -/
def SameCall (sha256 : String → String) (record : IdempotencyRecord) (call : ToolCall) : Prop :=
  record.toolName = call.toolName ∧ record.argumentsHash = sha256 call.arguments

/-- `record` is what a committed call left behind. -/
def LeftBy (sha256 : String → String) (calls : ToolCalls) (record : IdempotencyRecord) : Prop :=
  ∃ id call answer, leftBehind (calls.phase id) = some (call, answer, some record) ∧
    SameCall sha256 record call ∧ record.responseJson = recordedResponse answer

/-- An answer of `acquire` that fits what it was given for. -/
def Fits (sha256 : String → String) (calls : ToolCalls) (call : ToolCall) : Answer → Prop
  | .replayed response => ∃ record, record.responseJson = some response ∧ SameCall sha256 record call ∧
      LeftBy sha256 calls record
  | .refused error none => error.keyReused = false
  | .refused error (some holder) => LeftBy sha256 calls holder ∧
      (error.keyReused = true ↔ ¬ SameCall sha256 holder call)
  | _ => False

/-- What a committed call has left: its claim, which answers for it, or nothing. -/
structure Leaves (sha256 : String → String) (call : ToolCall) (answer : Answer)
    (left : Option IdempotencyRecord) : Prop where
  keeps : left.isSome = keepsClaim answer
  same : ∀ record, left = some record →
    SameCall sha256 record call ∧ record.responseJson = recordedResponse answer

structure KeyKept (sha256 : String → String) (calls : ToolCalls) : Prop where
  locked : ∀ id held, holding (calls.phase id) = some held →
    ∃ record, calls.slot.writer = some (id, some record) ∧ record.id = held.claim
  held : ∀ id record, calls.slot.writer = some (id, some record) →
    calls.phase id = .raising ∨ ∃ held, holding (calls.phase id) = some held ∧
      record.id = held.claim ∧ record.responseJson = held.response ∧ SameCall sha256 record held.call
  dropped : ∀ id, dropped (calls.phase id) = true → calls.slot.writer = some (id, none)
  expired : ∀ writer row, calls.slot.writer = some writer → calls.slot.committed = some row →
    row.isExpired calls.clock = true
  apart : ∀ owner record row, calls.slot.writer = some (owner, some record) →
    calls.slot.committed = some row → record.id ≠ row.id
  fresh : ∀ record, calls.slot.committed = some record ∨
    (∃ id, calls.slot.writer = some (id, some record) ∨ evictee (calls.phase id) = some record) →
    record.id < calls.nextId
  evicting : ∀ id holder, evictee (calls.phase id) = some holder →
    holder.isExpired calls.clock = true ∧
      (∀ row, calls.slot.committed = some row → row.id = holder.id → row = holder) ∧
      ∀ owner row, calls.slot.writer = some (owner, some row) → row.id ≠ holder.id
  left : ∀ id call answer left, leftBehind (calls.phase id) = some (call, answer, left) →
    Leaves sha256 call answer left ∧ ∀ record, left = some record →
      record.isExpired calls.clock = true ∨ calls.slot.committed = some record
  committed : ∀ record, calls.slot.committed = some record → LeftBy sha256 calls record
  answered : ∀ id call answer, acquireAnswer (calls.phase id) = some (call, answer) →
    Fits sha256 calls call answer

section Moves

@[simp] theorem move_self : (calls.move id phase).phase id = phase := by
  simp [ToolCalls.move]

theorem move_other (different : other ≠ id) : (calls.move id phase).phase other = calls.phase other := by
  simp [ToolCalls.move, different]

def Moved (calls after : ToolCalls) (id : CallId) (phase : CallPhase) : Prop :=
  ∀ other, after.phase other = if other = id then phase else calls.phase other

theorem Moved.cases (moved : Moved calls after id phase) (other : CallId) :
    other = id ∧ after.phase other = phase ∨ other ≠ id ∧ after.phase other = calls.phase other := by
  by_cases same : other = id
  · exact .inl ⟨same, by rw [moved other, if_pos same]⟩
  · exact .inr ⟨same, by rw [moved other, if_neg same]⟩

theorem LeftBy.moved (left : LeftBy sha256 calls record) (moved : Moved calls after id phase)
    (uncommitted : leftBehind (calls.phase id) = none) : LeftBy sha256 after record := by
  obtain ⟨owner, call, answer, found, same⟩ := left
  refine ⟨owner, call, answer, ?_, same⟩
  obtain ⟨rfl, _⟩ | ⟨_, kept⟩ := moved.cases owner
  · rw [uncommitted] at found
    cases found
  · rw [kept, found]

theorem Fits.moved {call : ToolCall} {answer : Answer} (fits : Fits sha256 calls call answer)
    (moved : Moved calls after id phase) (uncommitted : leftBehind (calls.phase id) = none) :
    Fits sha256 after call answer := by
  cases answer with
  | replayed response =>
      obtain ⟨record, same, matching, left⟩ := fits
      exact ⟨record, same, matching, left.moved moved uncommitted⟩
  | refused error holder =>
      cases holder with
      | none => exact fits
      | some holder => exact ⟨fits.1.moved moved uncommitted, fits.2⟩
  | _ => exact fits.elim

/-- A record that may be evicted: it has expired, and no other row has its id. -/
structure Evictable (calls : ToolCalls) (holder : IdempotencyRecord) : Prop where
  expired : holder.isExpired calls.clock = true
  known : holder.id < calls.nextId
  committed : ∀ row, calls.slot.committed = some row → row.id = holder.id → row = holder
  pending : ∀ owner row, calls.slot.writer = some (owner, some row) → row.id ≠ holder.id

theorem KeyKept.evictable (kept : KeyKept sha256 calls) {holder : IdempotencyRecord}
    (evicts : evictee (calls.phase id) = some holder) : Evictable calls holder := by
  obtain ⟨expired, committed, pending⟩ := kept.evicting id holder evicts
  exact ⟨expired, kept.fresh holder (.inr ⟨id, .inr evicts⟩), committed, pending⟩

theorem KeyKept.answers (kept : KeyKept sha256 calls) (moved : Moved calls after id phase)
    (uncommitted : leftBehind (calls.phase id) = none)
    (answers : ∀ call answer, acquireAnswer phase = some (call, answer) →
      Fits sha256 calls call answer) :
    ∀ other call answer, acquireAnswer (after.phase other) = some (call, answer) →
      Fits sha256 after call answer := by
  intro other call answer found
  obtain ⟨_, now⟩ | ⟨_, same⟩ := moved.cases other
  · exact (answers call answer (now ▸ found)).moved moved uncommitted
  · exact (kept.answered other call answer (same ▸ found)).moved moved uncommitted

theorem KeyKept.quiet (kept : KeyKept sha256 calls) (moved : Moved calls after id phase)
    (slot : after.slot = calls.slot) (clock : after.clock = calls.clock)
    (nextId : after.nextId = calls.nextId) (uncommitted : leftBehind (calls.phase id) = none)
    (unraised : ∀ record, calls.slot.writer = some (id, some record) → calls.phase id ≠ .raising)
    (holds : holding phase = holding (calls.phase id) ∨ phase = .raising)
    (drops : Properties.dropped phase = false)
    (evicts : ∀ holder, evictee phase = some holder → Evictable calls holder)
    (leaves : ∀ call answer left, leftBehind phase = some (call, answer, left) →
      left = none ∧ keepsClaim answer = false)
    (answers : ∀ call answer, acquireAnswer phase = some (call, answer) →
      Fits sha256 calls call answer) : KeyKept sha256 after := by
  have evictable : ∀ other holder, evictee (after.phase other) = some holder →
      Evictable calls holder := by
    intro other holder found
    obtain ⟨_, now⟩ | ⟨_, same⟩ := moved.cases other
    · exact evicts holder (now ▸ found)
    · exact kept.evictable (same ▸ found)
  have sameHolding : ∀ other, holding (after.phase other) = holding (calls.phase other) ∨
      after.phase other = .raising := by
    intro other
    obtain ⟨rfl, now⟩ | ⟨_, same⟩ := moved.cases other
    · rw [now]
      exact holds
    · exact .inl (by rw [same])
  refine ⟨?_, ?_, ?_, ?_, ?_, ?_, ?_, ?_, ?_, kept.answers moved uncommitted answers⟩
  · intro other held found
    rw [slot]
    obtain same | raising := sameHolding other
    · exact kept.locked other held (same ▸ found)
    · rw [raising] at found
      cases found
  · intro other record writer
    rw [slot] at writer
    obtain same | raising := sameHolding other
    · obtain ⟨rfl, now⟩ | ⟨_, unmoved⟩ := moved.cases other
      · obtain raised | claimed := kept.held other record writer
        · exact absurd raised (unraised record writer)
        · exact .inr (same ▸ claimed)
      · rw [unmoved]
        exact kept.held other record writer
    · exact .inl raising
  · intro other found
    rw [slot]
    obtain ⟨_, now⟩ | ⟨_, same⟩ := moved.cases other
    · rw [now, drops] at found
      cases found
    · exact kept.dropped other (same ▸ found)
  · rw [slot, clock]
    exact kept.expired
  · rw [slot]
    exact kept.apart
  · intro record found
    rw [slot] at found
    rw [nextId]
    obtain stored | ⟨other, written | evicted⟩ := found
    · exact kept.fresh record (.inl stored)
    · exact kept.fresh record (.inr ⟨other, .inl written⟩)
    · exact (evictable other record evicted).known
  · intro other holder found
    rw [slot, clock]
    have fit := evictable other holder found
    exact ⟨fit.expired, fit.committed, fit.pending⟩
  · intro other call answer left found
    rw [slot, clock]
    obtain ⟨_, now⟩ | ⟨_, same⟩ := moved.cases other
    · rw [now] at found
      obtain ⟨rfl, keepsNone⟩ := leaves call answer left found
      exact ⟨⟨keepsNone.symm, fun _ absent => (by cases absent)⟩, fun _ absent => (by cases absent)⟩
    · exact kept.left other call answer left (same ▸ found)
  · intro record stored
    rw [slot] at stored
    exact (kept.committed record stored).moved moved uncommitted

theorem KeyKept.write (kept : KeyKept sha256 calls) (moved : Moved calls after id phase)
    {version : Option IdempotencyRecord} (stored : after.slot.committed = calls.slot.committed)
    (writer : after.slot.writer = some (id, version))
    (free : ∀ owner held, calls.slot.writer = some (owner, held) → owner = id)
    (clock : after.clock = calls.clock) (nextId : calls.nextId ≤ after.nextId)
    (uncommitted : leftBehind (calls.phase id) = none)
    (expired : ∀ row, calls.slot.committed = some row → row.isExpired calls.clock = true)
    (holds : ∀ record, version = some record → phase = .raising ∨ ∃ held, holding phase = some held ∧
      record.id = held.claim ∧ record.responseJson = held.response ∧ SameCall sha256 record held.call)
    (held : ∀ held, holding phase = some held → ∃ record, version = some record ∧ record.id = held.claim)
    (drops : Properties.dropped phase = true → version = none)
    (fresh : ∀ record, version = some record → record.id < after.nextId ∧
      (∀ row, calls.slot.committed = some row → record.id ≠ row.id) ∧
      ∀ other holder, evictee (calls.phase other) = some holder → record.id ≠ holder.id)
    (evicts : evictee phase = none) (leaves : leftBehind phase = none)
    (answers : acquireAnswer phase = none) : KeyKept sha256 after := by
  have onlyWriter : ∀ other version, other ≠ id → calls.slot.writer ≠ some (other, version) :=
    fun other version different owned => different (free other version owned)
  refine ⟨?_, ?_, ?_, ?_, ?_, ?_, ?_, ?_, ?_, kept.answers moved uncommitted (by simp [answers])⟩
  · intro other claim found
    obtain ⟨rfl, now⟩ | ⟨different, same⟩ := moved.cases other
    · obtain ⟨record, rfl, named⟩ := held claim (now ▸ found)
      exact ⟨record, writer, named⟩
    · obtain ⟨record, owned, _⟩ := kept.locked other claim (same ▸ found)
      exact absurd owned (onlyWriter other _ different)
  · intro other record owned
    rw [writer] at owned
    cases owned
    rw [moved id, if_pos rfl]
    exact holds record rfl
  · intro other found
    obtain ⟨rfl, now⟩ | ⟨different, same⟩ := moved.cases other
    · rw [writer, drops (now ▸ found)]
    · exact absurd (kept.dropped other (same ▸ found)) (onlyWriter other _ different)
  · intro owner row _ committed
    rw [stored] at committed
    rw [clock]
    exact expired row committed
  · intro owner record row owned committed
    rw [writer] at owned
    rw [stored] at committed
    cases owned
    exact (fresh record rfl).2.1 row committed
  · intro record found
    obtain committed | ⟨other, owned | evicted⟩ := found
    · rw [stored] at committed
      exact Nat.lt_of_lt_of_le (kept.fresh record (.inl committed)) nextId
    · rw [writer] at owned
      cases owned
      exact (fresh record rfl).1
    · obtain ⟨_, now⟩ | ⟨_, same⟩ := moved.cases other
      · rw [now, evicts] at evicted
        cases evicted
      · exact Nat.lt_of_lt_of_le (kept.evictable (same ▸ evicted)).known nextId
  · intro other holder found
    obtain ⟨_, now⟩ | ⟨_, same⟩ := moved.cases other
    · rw [now, evicts] at found
      cases found
    · have fit := kept.evictable (same ▸ found)
      rw [stored, clock]
      refine ⟨fit.expired, fit.committed, fun owner row owned => ?_⟩
      rw [writer] at owned
      cases owned
      exact (fresh row rfl).2.2 other holder (same ▸ found)
  · intro other call answer left found
    rw [stored, clock]
    obtain ⟨_, now⟩ | ⟨_, same⟩ := moved.cases other
    · rw [now, leaves] at found
      cases found
    · exact kept.left other call answer left (same ▸ found)
  · intro record committed
    rw [stored] at committed
    exact (kept.committed record committed).moved moved uncommitted

/-- The transaction that is open on the key ends, with its version or with the
row as it was. -/
theorem KeyKept.ends (kept : KeyKept sha256 calls) (moved : Moved calls after id phase)
    {version row : Option IdempotencyRecord} (writer : calls.slot.writer = some (id, version))
    (slot : after.slot = { committed := row, writer := none })
    (clock : after.clock = calls.clock) (nextId : after.nextId = calls.nextId)
    (uncommitted : leftBehind (calls.phase id) = none) (holds : holding phase = none)
    (drops : Properties.dropped phase = false) (evicts : evictee phase = none)
    (ends : row = version ∨ row = calls.slot.committed)
    (leaves : ∀ call answer left, leftBehind phase = some (call, answer, left) →
      left = row ∧ Leaves sha256 call answer left)
    (committed : ∀ record, row = some record → LeftBy sha256 after record)
    (answers : ∀ call answer, acquireAnswer phase = some (call, answer) →
      Fits sha256 calls call answer) : KeyKept sha256 after := by
  have onlyWriter : ∀ other version, other ≠ id → calls.slot.writer ≠ some (other, version) := by
    intro other version different owned
    rw [writer] at owned
    cases owned
    exact different rfl
  refine ⟨?_, ?_, ?_, ?_, ?_, ?_, ?_, ?_, ?_, kept.answers moved uncommitted answers⟩
  · intro other claim found
    obtain ⟨_, now⟩ | ⟨different, same⟩ := moved.cases other
    · rw [now, holds] at found
      cases found
    · obtain ⟨record, owned, _⟩ := kept.locked other claim (same ▸ found)
      exact absurd owned (onlyWriter other _ different)
  · intro other record owned
    rw [slot] at owned
    cases owned
  · intro other found
    obtain ⟨_, now⟩ | ⟨different, same⟩ := moved.cases other
    · rw [now, drops] at found
      cases found
    · exact absurd (kept.dropped other (same ▸ found)) (onlyWriter other _ different)
  · intro owner row owned _
    rw [slot] at owned
    cases owned
  · intro owner record row owned _
    rw [slot] at owned
    cases owned
  · intro record found
    rw [slot] at found
    rw [nextId]
    obtain standing | ⟨other, owned | evicted⟩ := found
    · obtain rfl | rfl := ends
      · exact kept.fresh record (.inr ⟨id, .inl (by rw [writer]; exact congrArg _ (congrArg _ standing))⟩)
      · exact kept.fresh record (.inl standing)
    · cases owned
    · obtain ⟨_, now⟩ | ⟨_, same⟩ := moved.cases other
      · rw [now, evicts] at evicted
        cases evicted
      · exact (kept.evictable (same ▸ evicted)).known
  · intro other holder found
    obtain ⟨_, now⟩ | ⟨_, same⟩ := moved.cases other
    · rw [now, evicts] at found
      cases found
    · have fit := kept.evictable (same ▸ found)
      rw [slot, clock]
      refine ⟨fit.expired, fun record standing named => ?_, fun owner row owned => by cases owned⟩
      obtain rfl | rfl := ends
      · cases standing
        exact absurd named (fit.pending id record writer)
      · exact fit.committed record standing named
  · intro other call answer left found
    rw [slot, clock]
    obtain ⟨_, now⟩ | ⟨_, same⟩ := moved.cases other
    · obtain ⟨rfl, fits⟩ := leaves call answer left (now ▸ found)
      exact ⟨fits, fun record present => .inr present⟩
    · obtain ⟨fits, remains⟩ := kept.left other call answer left (same ▸ found)
      refine ⟨fits, fun record present => ?_⟩
      obtain expired | standing := remains record present
      · exact .inl expired
      · obtain rfl | rfl := ends
        · exact .inl (kept.expired _ record writer standing)
        · exact .inr standing
  · intro record standing
    rw [slot] at standing
    exact committed record standing

theorem KeyKept.close (kept : KeyKept sha256 calls) (moved : Moved calls after id phase)
    {version : Option IdempotencyRecord} (writer : calls.slot.writer = some (id, version))
    (slot : after.slot = { committed := version, writer := none })
    (clock : after.clock = calls.clock) (nextId : after.nextId = calls.nextId)
    (uncommitted : leftBehind (calls.phase id) = none) (holds : holding phase = none)
    (drops : Properties.dropped phase = false) (evicts : evictee phase = none)
    (leaves : ∀ call answer left, leftBehind phase = some (call, answer, left) →
      left = version ∧ Leaves sha256 call answer left)
    (stores : ∀ record, version = some record →
      ∃ call answer, leftBehind phase = some (call, answer, some record))
    (answers : ∀ call answer, acquireAnswer phase = some (call, answer) →
      Fits sha256 calls call answer) : KeyKept sha256 after := by
  refine kept.ends moved writer slot clock nextId uncommitted holds drops evicts (.inl rfl) leaves ?_ answers
  intro record committed
  obtain ⟨call, answer, found⟩ := stores record committed
  obtain ⟨_, fits⟩ := leaves call answer _ found
  exact ⟨id, call, answer, by rw [moved id, if_pos rfl, found], fits.same record rfl⟩

end Moves

section Steps

variable {action : Action}

/-- The steps of a call that leave the key alone. -/
inductive Turn (sha256 : String → String) (calls : ToolCalls) (id : CallId) :
    Action → CallPhase → CallPhase → Prop where
  | start {call} : Turn sha256 calls id (.start id call) .idle
      (.inserting call (idempotencyTtl.map fun ttl => calls.clock + ttl) 1)
  | lose {call expiresAt attempt} : Turn sha256 calls id (.insertClaim id) (.inserting call expiresAt attempt)
      (.reading call expiresAt attempt)
  | retry {call expiresAt attempt} : Turn sha256 calls id (.getByKey id) (.reading call expiresAt attempt)
      (.inserting call expiresAt 2)
  | stale {call expiresAt attempt holder} (decided : decideOnHolder calls.clock call.toolName (sha256 call.arguments) attempt
        (calls.slot.visible id) = .evict holder) :
      Turn sha256 calls id (.getByKey id) (.reading call expiresAt attempt)
        (.evicting call expiresAt holder)
  | refuse {call expiresAt attempt refusal} (decided : decideOnHolder calls.clock call.toolName
        (sha256 call.arguments) attempt (calls.slot.visible id) = .refuse refusal) :
      Turn sha256 calls id (.getByKey id) (.reading call expiresAt attempt)
        (.auditing call (.refused refusal (calls.slot.visible id)))
  | replay {call expiresAt attempt response} (decided : decideOnHolder calls.clock call.toolName
        (sha256 call.arguments) attempt (calls.slot.visible id) = .replay response) :
      Turn sha256 calls id (.getByKey id) (.reading call expiresAt attempt)
        (.auditing call (.replayed response))
  | returned {outcome call claim output} : Turn sha256 calls id (.handle id outcome)
      (.executing call claim) (.auditingSuccess call claim output)
  | raised {outcome call claim error} : Turn sha256 calls id (.handle id outcome)
      (.executing call claim) (.auditingFailure call claim error)
  | audited {call answer} : Turn sha256 calls id (.audit id true) (.auditing call answer)
      (.answered call none answer)
  | unaudited {call answer} : Turn sha256 calls id (.audit id false) (.auditing call answer) .raising
  | auditedSuccess {call claim output} : Turn sha256 calls id (.audit id true)
      (.auditingSuccess call claim output) (.completing call claim output)
  | unauditedSuccess {call claim output} : Turn sha256 calls id (.audit id false)
      (.auditingSuccess call claim output) .raising
  | auditedFailure {written call claim error} : Turn sha256 calls id (.audit id written)
      (.auditingFailure call claim error) (.releasing call claim error written)
  | unrecorded {call claim output} : Turn sha256 calls id (.complete id false)
      (.completing call claim output) (.responding call claim output false)
  | unreleased {call claim error} : Turn sha256 calls id (.release id false)
      (.releasing call claim error true) (.answered call (some claim) (.failed error false))
  | unreleasedUnaudited {call claim error} : Turn sha256 calls id (.release id false)
      (.releasing call claim error false) .raising
  | respond {call claim output recorded} {serialized : Bool} :
      Turn sha256 calls id (.respond id serialized) (.responding call claim output recorded) (.answered call (some claim)
        (.executed output recorded (if serialized then none else some .internalServerError)))

inductive KeyStep (sha256 : String → String) (calls : ToolCalls) : Action → ToolCalls → Prop where
  | pass {elapsed} : KeyStep sha256 calls (.pass elapsed)
      { calls with clock := calls.clock + elapsed }
  | turn {action : Action} {id : CallId} {before phase : CallPhase} (found : calls.phase id = before)
      (turns : Turn sha256 calls id action before phase) :
      KeyStep sha256 calls action (calls.move id phase)
  | claim {id : CallId} {call expiresAt attempt} {slot : KeySlot}
      (found : calls.phase id = .inserting call expiresAt attempt)
      (inserted : calls.slot.insertClaim id (calls.claimOf sha256 call expiresAt) = some (true, slot)) :
      KeyStep sha256 calls (.insertClaim id)
        { (calls.withSlot slot).move id (.executing call calls.nextId) with nextId := calls.nextId + 1 }
  | evict {id : CallId} {call expiresAt holder} {slot : KeySlot}
      (found : calls.phase id = .evicting call expiresAt holder)
      (deleted : calls.slot.deleteById id holder.id = some slot) :
      KeyStep sha256 calls (.evict id) ((calls.withSlot slot).move id (.inserting call expiresAt 2))
  | complete {id : CallId} {call claim output} (found : calls.phase id = .completing call claim output) :
      KeyStep sha256 calls (.complete id true)
        ((calls.withSlot (calls.slot.completeClaim id claim output
          (idempotencyTtl.map fun ttl => calls.clock + ttl))).move id
            (.responding call claim output true))
  | release {id : CallId} {call claim error} {audited : Bool} {slot : KeySlot}
      (found : calls.phase id = .releasing call claim error audited)
      (deleted : calls.slot.deleteById id claim = some slot) :
      KeyStep sha256 calls (.release id true) ((calls.withSlot slot).move id
        (if audited then .answered call (some claim) (.failed error true) else .raising))
  | commit {id : CallId} {call claimed answer} (found : calls.phase id = .answered call claimed answer) :
      KeyStep sha256 calls (.commit id) ((calls.withSlot (calls.slot.commit id)).move id
        (.committed call answer
          ((calls.slot.visible id).filter fun record => claimed = some record.id)))
  | finishReaping {id : CallId} (found : calls.phase id = .reaping) :
      KeyStep sha256 calls (.commit id) ((calls.withSlot (calls.slot.commit id)).move id .reaped)
  | abort {id : CallId} (uncommitted : leftBehind (calls.phase id) = none) :
      KeyStep sha256 calls (.abort id) ((calls.withSlot (calls.slot.rollback id)).move id .rolledBack)
  | reap {id : CallId} {slot : KeySlot} (found : calls.phase id = .idle)
      (deleted : calls.slot.deleteExpired id calls.clock = some slot) :
      KeyStep sha256 calls (.reap id) ((calls.withSlot slot).move id .reaping)

theorem keyStep_cases (stepped : (toolCalls sha256).step action calls = some after) :
    KeyStep sha256 calls action after := by
  simp only [toolCalls] at stepped
  cases action with
  | pass elapsed =>
      cases stepped
      exact .pass
  | start id call =>
      simp only [ToolCalls.step] at stepped
      split at stepped
      · rename_i found
        cases stepped
        exact .turn found .start
      · contradiction
  | insertClaim id =>
      simp only [ToolCalls.step] at stepped
      split at stepped
      · rename_i found
        split at stepped
        · rename_i inserted
          cases stepped
          exact .claim found inserted
        · cases stepped
          exact .turn found .lose
        · contradiction
      · contradiction
  | getByKey id =>
      simp only [ToolCalls.step] at stepped
      split at stepped
      · rename_i found
        split at stepped
        · cases stepped
          exact .turn found .retry
        · rename_i decided
          cases stepped
          exact .turn found (.stale decided)
        · rename_i decided
          cases stepped
          exact .turn found (.refuse decided)
        · rename_i decided
          cases stepped
          exact .turn found (.replay decided)
      · contradiction
  | evict id =>
      simp only [ToolCalls.step] at stepped
      split at stepped
      · rename_i found
        obtain ⟨slot, deleted, rfl⟩ := Option.map_eq_some_iff.mp stepped
        exact .evict found deleted
      · contradiction
  | handle id outcome =>
      simp only [ToolCalls.step] at stepped
      split at stepped
      · rename_i found
        split at stepped
        · cases stepped
          exact .turn found .returned
        · cases stepped
          exact .turn found .raised
      · contradiction
  | audit id written =>
      simp only [ToolCalls.step] at stepped
      split at stepped
      · rename_i found
        cases stepped
        cases written
        · exact .turn found .unaudited
        · exact .turn found .audited
      · rename_i found
        cases stepped
        cases written
        · exact .turn found .unauditedSuccess
        · exact .turn found .auditedSuccess
      · rename_i found
        cases stepped
        exact .turn found .auditedFailure
      · contradiction
  | complete id written =>
      simp only [ToolCalls.step] at stepped
      split at stepped
      · rename_i found
        cases stepped
        cases written
        · exact .turn found .unrecorded
        · exact .complete found
      · contradiction
  | release id written =>
      simp only [ToolCalls.step] at stepped
      split at stepped
      · rename_i call claim error audited found
        obtain ⟨slot, deleted, rfl⟩ := Option.map_eq_some_iff.mp stepped
        cases written
        · cases deleted
          cases audited
          · exact .turn found .unreleasedUnaudited
          · exact .turn found .unreleased
        · exact .release found deleted
      · contradiction
  | respond id serialized =>
      simp only [ToolCalls.step] at stepped
      split at stepped
      · rename_i found
        cases stepped
        exact .turn found .respond
      · contradiction
  | commit id =>
      simp only [ToolCalls.step] at stepped
      split at stepped
      · rename_i found
        cases stepped
        exact .commit found
      · rename_i found
        cases stepped
        exact .finishReaping found
      · contradiction
  | abort id =>
      simp only [ToolCalls.step] at stepped
      split at stepped
      · contradiction
      · contradiction
      · contradiction
      · rename_i notCommitted _ _
        cases stepped
        refine .abort ?_
        cases found : calls.phase id with
        | committed call answer left => exact absurd found (notCommitted call answer left)
        | _ => rfl
  | reap id =>
      simp only [ToolCalls.step] at stepped
      split at stepped
      · rename_i found
        obtain ⟨slot, deleted, rfl⟩ := Option.map_eq_some_iff.mp stepped
        exact .reap found deleted
      · contradiction

theorem KeyKept.reads (kept : KeyKept sha256 calls) {row : IdempotencyRecord}
    (unclaimed : holding (calls.phase id) = none) (alive : calls.phase id ≠ .raising)
    (seen : calls.slot.visible id = some row) : calls.slot.committed = some row := by
  unfold KeySlot.visible at seen
  split at seen
  · rename_i owner version opened
    split at seen
    · rename_i same
      subst same seen
      obtain raising | ⟨held, claimed, _⟩ := kept.held owner row opened
      · exact absurd raising alive
      · rw [unclaimed] at claimed
        cases claimed
    · exact seen
  · exact seen

section Turns

variable {before : CallPhase}

theorem Turn.uncommitted (turns : Turn sha256 calls id action before phase) :
    leftBehind before = none ∧ leftBehind phase = none ∧ before ≠ .raising := by
  cases turns <;> exact ⟨rfl, rfl, CallPhase.noConfusion⟩

theorem Turn.holding (turns : Turn sha256 calls id action before phase) :
    holding phase = holding before ∨ phase = .raising := by
  cases turns
  all_goals first | exact .inl rfl | exact .inr rfl

theorem Turn.dropped (turns : Turn sha256 calls id action before phase) : dropped phase = false := by
  cases turns <;> rfl

theorem KeyKept.turn_evictee (kept : KeyKept sha256 calls) (found : calls.phase id = before)
    (turns : Turn sha256 calls id action before phase) :
    ∀ holder, evictee phase = some holder → Evictable calls holder := by
  intro holder evicts
  cases turns <;> cases evicts
  rename_i decided
  obtain ⟨seen, expired⟩ := decideOnHolder_evict decided
  have stored := kept.reads (by rw [found]; rfl) (by rw [found]; exact CallPhase.noConfusion) seen
  refine ⟨expired, kept.fresh holder (.inl stored), fun row committed _ => ?_, fun owner row owned => ?_⟩
  · rw [stored] at committed
    exact (Option.some.inj committed).symm
  · exact kept.apart owner row holder owned stored

theorem KeyKept.turn_answers (kept : KeyKept sha256 calls) (found : calls.phase id = before)
    (turns : Turn sha256 calls id action before phase) :
    ∀ call answer, acquireAnswer phase = some (call, answer) → Fits sha256 calls call answer := by
  intro call answer answers
  cases turns with
  | refuse decided =>
      have unclaimed : Properties.holding (calls.phase id) = none := by rw [found]; rfl
      have alive : calls.phase id ≠ .raising := by rw [found]; exact CallPhase.noConfusion
      cases answers
      obtain ⟨absent, inFlight⟩ | ⟨holder, seen, differs⟩ := decideOnHolder_refuse decided
      · rw [absent]
        exact inFlight
      · rw [seen]
        exact ⟨kept.committed holder (kept.reads unclaimed alive seen), differs⟩
  | replay decided =>
      have unclaimed : Properties.holding (calls.phase id) = none := by rw [found]; rfl
      have alive : calls.phase id ≠ .raising := by rw [found]; exact CallPhase.noConfusion
      cases answers
      obtain ⟨holder, seen, recorded, same⟩ := decideOnHolder_replay decided
      exact ⟨holder, recorded, same, kept.committed holder (kept.reads unclaimed alive seen)⟩
  | audited =>
      cases answers
      exact kept.answered id call answer (by rw [found]; rfl)
  | _ => cases answers

theorem KeyKept.turn (kept : KeyKept sha256 calls) (found : calls.phase id = before)
    (turns : Turn sha256 calls id action before phase) : KeyKept sha256 (calls.move id phase) := by
  obtain ⟨uncommitted, leavesNothing, unraised⟩ := turns.uncommitted
  have moved : Moved calls (calls.move id phase) id phase := fun _ => rfl
  refine kept.quiet moved rfl rfl rfl ?_ ?_ ?_ turns.dropped (kept.turn_evictee found turns) ?_
    (kept.turn_answers found turns)
  · rw [found, uncommitted]
  · rw [found]
    exact fun _ _ => unraised
  · rw [found]
    exact turns.holding
  · intro call answer left leaves
    rw [leavesNothing] at leaves
    cases leaves

end Turns

section Writes

variable {call : ToolCall} {claim : Uuid} {expiresAt : Option Time} {attempt : Nat}
  {holder : IdempotencyRecord} {output : Json} {error : RpcError} {answer : Answer}

theorem KeyKept.insert (kept : KeyKept sha256 calls)
    (found : calls.phase id = .inserting call expiresAt attempt)
    (inserted : calls.slot.insertClaim id (calls.claimOf sha256 call expiresAt) = some (true, slot)) :
    KeyKept sha256 { (calls.withSlot slot).move id (.executing call calls.nextId) with
      nextId := calls.nextId + 1 } := by
  obtain ⟨rfl, free⟩ := insertClaim_taken inserted
  have moved : Moved calls { (calls.withSlot { calls.slot with
      writer := some (id, some (calls.claimOf sha256 call expiresAt)) }).move id
        (.executing call calls.nextId) with nextId := calls.nextId + 1 } id
      (.executing call calls.nextId) := fun _ => rfl
  refine kept.write moved rfl rfl ?_ rfl (Nat.le_succ _) ?_ ?_ ?_ ?_ ?_ ?_ rfl rfl rfl
  · intro owner version owned
    obtain ⟨unowned, _⟩ | mine := free
    · rw [unowned] at owned
      cases owned
    · rw [mine] at owned
      cases owned
      rfl
  · rw [found]
    rfl
  · intro row stored
    obtain ⟨_, empty⟩ | mine := free
    · rw [empty] at stored
      cases stored
    · exact kept.expired _ row mine stored
  · rintro record ⟨⟩
    exact .inr ⟨_, rfl, rfl, rfl, rfl, rfl⟩
  · rintro held ⟨⟩
    exact ⟨_, rfl, rfl⟩
  · intro drops
    cases drops
  · rintro record ⟨⟩
    refine ⟨Nat.lt_succ_self _, fun row stored => ?_, fun other holder evicts => ?_⟩
    · exact Nat.ne_of_gt (kept.fresh row (.inl stored))
    · exact Nat.ne_of_gt (kept.evictable evicts).known

theorem KeyKept.wander (kept : KeyKept sha256 calls) (uncommitted : leftBehind (calls.phase id) = none)
    (unraised : ∀ record, calls.slot.writer = some (id, some record) → calls.phase id ≠ .raising)
    (unclaimed : holding (calls.phase id) = none) (holds : holding phase = none)
    (drops : Properties.dropped phase = false) (evicts : evictee phase = none)
    (leaves : leftBehind phase = none) (answers : acquireAnswer phase = none) :
    KeyKept sha256 (calls.move id phase) := by
  have moved : Moved calls (calls.move id phase) id phase := fun _ => rfl
  refine kept.quiet moved rfl rfl rfl uncommitted unraised ?_ drops ?_ ?_ ?_
  · exact .inl (holds.trans unclaimed.symm)
  · simp [evicts]
  · simp [leaves]
  · simp [answers]

theorem KeyKept.delete (kept : KeyKept sha256 calls)
    (expired : ∀ row, calls.slot.committed = some row → row.isExpired calls.clock = true)
    (free : ∀ owner held, calls.slot.writer = some (owner, held) → owner = id)
    (uncommitted : leftBehind (calls.phase id) = none) (holds : holding phase = none)
    (evicts : evictee phase = none) (leaves : leftBehind phase = none)
    (answers : acquireAnswer phase = none) :
    KeyKept sha256
      ((calls.withSlot { calls.slot with writer := some (id, none) }).move id phase) := by
  have moved : Moved calls
      ((calls.withSlot { calls.slot with writer := some (id, none) }).move id phase) id phase :=
    fun _ => rfl
  refine kept.write moved rfl rfl free rfl (Nat.le_refl _) uncommitted expired ?_ ?_ (fun _ => rfl) ?_
    evicts leaves answers
  · rintro record ⟨⟩
  · intro held claimed
    rw [holds] at claimed
    cases claimed
  · rintro record ⟨⟩

theorem KeyKept.evict (kept : KeyKept sha256 calls)
    (found : calls.phase id = .evicting call expiresAt holder)
    (deleted : calls.slot.deleteById id holder.id = some slot) :
    KeyKept sha256 ((calls.withSlot slot).move id (.inserting call expiresAt 2)) := by
  have evicts : evictee (calls.phase id) = some holder := by rw [found]; rfl
  have fit := kept.evictable evicts
  obtain rfl | ⟨row, named, rfl, owned⟩ := deleteById_cases deleted
  · refine kept.wander ?_ ?_ ?_ rfl rfl rfl rfl rfl
    · rw [found]; rfl
    · rw [found]
      exact fun _ _ => CallPhase.noConfusion
    · rw [found]; rfl
  · obtain ⟨unowned, stored⟩ | mine := owned
    · refine kept.delete ?_ ?_ (by rw [found]; rfl) rfl rfl rfl rfl
      · intro other committed
        cases fit.committed row stored named
        rw [stored] at committed
        cases committed
        exact fit.expired
      · intro owner held written
        rw [unowned] at written
        cases written
    · exact absurd named (fit.pending id row mine)

theorem KeyKept.reap (kept : KeyKept sha256 calls) (found : calls.phase id = .idle)
    (deleted : calls.slot.deleteExpired id calls.clock = some slot) :
    KeyKept sha256 ((calls.withSlot slot).move id .reaping) := by
  obtain rfl | ⟨row, expired, rfl, owned⟩ := deleteExpired_cases deleted
  · refine kept.wander ?_ ?_ ?_ rfl rfl rfl rfl rfl
    · rw [found]; rfl
    · rw [found]
      exact fun _ _ => CallPhase.noConfusion
    · rw [found]; rfl
  · obtain ⟨unowned, stored⟩ | mine := owned
    · refine kept.delete ?_ ?_ (by rw [found]; rfl) rfl rfl rfl rfl
      · intro other committed
        rw [stored] at committed
        cases committed
        exact expired
      · intro owner held written
        rw [unowned] at written
        cases written
    · obtain raising | ⟨held, claimed, _⟩ := kept.held id row mine
      · rw [found] at raising
        cases raising
      · rw [found] at claimed
        cases claimed

theorem KeyKept.complete (kept : KeyKept sha256 calls)
    (found : calls.phase id = .completing call claim output) :
    KeyKept sha256 ((calls.withSlot (calls.slot.completeClaim id claim output expiresAt)).move id
      (.responding call claim output true)) := by
  have claimed : holding (calls.phase id) = some ⟨call, claim, none⟩ := by rw [found]; rfl
  obtain ⟨record, writer, named⟩ := kept.locked id _ claimed
  rw [completeClaim_held writer named]
  obtain raising | ⟨held, holds, _, _, same⟩ := kept.held id record writer
  · rw [found] at raising
    cases raising
  · rw [claimed] at holds
    cases holds
    have moved : Moved calls ((calls.withSlot { calls.slot with
        writer := some (id, some { record with responseJson := some output, expiresAt }) }).move id
          (.responding call claim output true)) id (.responding call claim output true) :=
      fun _ => rfl
    refine kept.write moved rfl rfl ?_ rfl (Nat.le_refl _) ?_ ?_ ?_ ?_ ?_ ?_ rfl rfl rfl
    · intro owner version owned
      rw [writer] at owned
      cases owned
      rfl
    · rw [found]; rfl
    · exact fun row stored => kept.expired _ row writer stored
    · rintro record ⟨⟩
      exact .inr ⟨_, rfl, named, rfl, same⟩
    · rintro held ⟨⟩
      exact ⟨_, rfl, named⟩
    · intro drops
      cases drops
    · rintro version ⟨⟩
      refine ⟨kept.fresh record (.inr ⟨id, .inl writer⟩), fun row stored => ?_, fun other holder evicts => ?_⟩
      · exact kept.apart id record row writer stored
      · exact (kept.evictable evicts).pending id record writer

theorem KeyKept.release (kept : KeyKept sha256 calls) {audited : Bool}
    (found : calls.phase id = .releasing call claim error audited)
    (deleted : calls.slot.deleteById id claim = some slot) :
    KeyKept sha256 ((calls.withSlot slot).move id
      (if audited then .answered call (some claim) (.failed error true) else .raising)) := by
  have claimed : holding (calls.phase id) = some ⟨call, claim, none⟩ := by rw [found]; rfl
  obtain ⟨record, writer, named⟩ := kept.locked id _ claimed
  have emptied : slot = { calls.slot with writer := some (id, none) } := by
    simp only [KeySlot.deleteById, KeySlot.visible, KeySlot.heldByOther, writer] at deleted
    simpa [named] using deleted.symm
  subst emptied
  refine kept.delete ?_ ?_ ?_ ?_ ?_ ?_ ?_
  · exact fun row stored => kept.expired _ row writer stored
  · intro owner version owned
    rw [writer] at owned
    cases owned
    rfl
  · rw [found]; rfl
  all_goals cases audited <;> rfl

theorem visible_of_writer {version : Option IdempotencyRecord}
    (writer : slot.writer = some (id, version)) : slot.visible id = version := by
  simp [KeySlot.visible, writer]

theorem KeyKept.answered_holds (kept : KeyKept sha256 calls) {claimed : Option Uuid}
    (found : calls.phase id = .answered call claimed answer) (keeps : keepsClaim answer = true) :
    ∃ held, holding (calls.phase id) = some held := by
  rw [found]
  cases claimed with
  | none =>
      have fits := kept.answered id call answer (by rw [found]; rfl)
      cases answer with
      | replayed response => cases keeps
      | refused error holder => cases keeps
      | _ => exact fits.elim
  | some claim =>
      cases answer with
      | executed output recorded error => exact ⟨_, rfl⟩
      | failed error released =>
          cases released with
          | false => exact ⟨_, rfl⟩
          | true => cases keeps
      | _ => cases keeps

theorem KeyKept.answered_fits (kept : KeyKept sha256 calls) {claimed : Option Uuid}
    {left : Option IdempotencyRecord} (found : calls.phase id = .answered call claimed answer) :
    ∀ asked given, acquireAnswer (.committed call answer left) = some (asked, given) →
      Fits sha256 calls asked given := by
  intro asked given answers
  simp only [acquireAnswer] at answers
  split at answers
  · cases answers
  · rename_i unran
    cases answers
    refine kept.answered id call answer ?_
    rw [found]
    cases claimed with
    | none => rfl
    | some claim => simp [acquireAnswer, unran]

theorem answered_leaves {claimed : Option Uuid} {held : Holding}
    (holds : holding (.answered call claimed answer) = some held) (named : record.id = held.claim)
    (recorded : record.responseJson = held.response) (same : SameCall sha256 record held.call) :
    claimed = some record.id ∧ Leaves sha256 call answer (some record) := by
  cases claimed with
  | none => cases holds
  | some claim =>
      have fits : keepsClaim answer = true ∧ held.call = call ∧ held.claim = claim ∧
          held.response = recordedResponse answer := by
        cases answer with
        | executed output written error =>
            cases holds
            cases written <;> exact ⟨rfl, rfl, rfl, rfl⟩
        | failed error released =>
            cases released with
            | false =>
                cases holds
                exact ⟨rfl, rfl, rfl, rfl⟩
            | true => cases holds
        | _ => cases holds
      obtain ⟨keeps, rfl, rfl, response⟩ := fits
      refine ⟨by rw [named], ⟨keeps.symm, ?_⟩⟩
      rintro other ⟨⟩
      exact ⟨same, recorded.trans response⟩

theorem dropped_of_unkept (unkept : keepsClaim answer = false) :
    dropped (.answered call (some claim) answer) = true := by
  cases answer with
  | executed output recorded error => cases unkept
  | failed error released =>
      cases released with
      | false => cases unkept
      | true => rfl
  | _ => rfl

theorem KeyKept.commit (kept : KeyKept sha256 calls) {claimed : Option Uuid}
    (found : calls.phase id = .answered call claimed answer) :
    KeyKept sha256 ((calls.withSlot (calls.slot.commit id)).move id (.committed call answer
      ((calls.slot.visible id).filter fun record => claimed = some record.id))) := by
  have moved : ∀ left, Moved calls ((calls.withSlot (calls.slot.commit id)).move id
      (.committed call answer left)) id (.committed call answer left) := fun _ _ => rfl
  have uncommitted : leftBehind (calls.phase id) = none := by rw [found]; rfl
  have unkept : (∀ record, calls.slot.writer ≠ some (id, some record)) → keepsClaim answer = false := by
    intro unowned
    by_contra keeps
    obtain ⟨held, holds⟩ := kept.answered_holds found (by simpa using keeps)
    obtain ⟨record, writer, _⟩ := kept.locked id held holds
    exact unowned record writer
  obtain ⟨version, writer, closed⟩ | ⟨unowned, closed⟩ := key_commit_cases calls.slot id
  · rw [visible_of_writer writer]
    cases version with
    | none =>
        have keeps := unkept fun record owned => by rw [writer] at owned; cases owned
        refine kept.close (moved _) writer closed rfl rfl uncommitted rfl rfl rfl ?_ ?_
          (kept.answered_fits found)
        · rintro asked given left ⟨⟩
          exact ⟨rfl, ⟨keeps.symm, by rintro record ⟨⟩⟩⟩
        · rintro record ⟨⟩
    | some record =>
        obtain raising | ⟨held, holds, named, recorded, same⟩ := kept.held id record writer
        · rw [found] at raising
          cases raising
        · rw [found] at holds
          obtain ⟨rfl, leaves⟩ := answered_leaves holds named recorded same
          rw [Option.filter_some, if_pos (by simp)]
          refine kept.close (moved _) writer closed rfl rfl uncommitted rfl rfl rfl ?_ ?_
            (kept.answered_fits found)
          · rintro asked given left ⟨⟩
            exact ⟨rfl, leaves⟩
          · rintro stored ⟨⟩
            exact ⟨call, answer, rfl⟩
  · have keeps := unkept fun record => unowned (some record)
    have unclaimed : claimed = none := by
      cases claimed with
      | none => rfl
      | some claim =>
          have drops := kept.dropped id (by rw [found]; exact dropped_of_unkept keeps)
          exact absurd drops (unowned none)
    subst unclaimed
    have nothing : ((calls.slot.visible id).filter fun record => (none : Option Uuid) = some record.id) =
        none := by
      simp
    rw [nothing, closed]
    refine kept.quiet (closed ▸ moved none) rfl rfl rfl uncommitted ?_ ?_ rfl ?_ ?_
      (kept.answered_fits found)
    · exact fun record owned => absurd owned (unowned _)
    · rw [found]
      exact .inl rfl
    · rintro holder ⟨⟩
    · rintro asked given left ⟨⟩
      exact ⟨rfl, keeps⟩

theorem KeyKept.finishReaping (kept : KeyKept sha256 calls) (found : calls.phase id = .reaping) :
    KeyKept sha256 ((calls.withSlot (calls.slot.commit id)).move id .reaped) := by
  obtain ⟨version, writer, closed⟩ | ⟨unowned, closed⟩ := key_commit_cases calls.slot id
  · have emptied : version = none := by
      cases version with
      | none => rfl
      | some record =>
          obtain raising | ⟨held, claimed, _⟩ := kept.held id record writer
          · rw [found] at raising
            cases raising
          · rw [found] at claimed
            cases claimed
    subst emptied
    have moved : Moved calls ((calls.withSlot (calls.slot.commit id)).move id .reaped) id .reaped :=
      fun _ => rfl
    refine kept.close moved writer closed rfl rfl ?_ rfl rfl rfl ?_ ?_ ?_
    · rw [found]; rfl
    · rintro call answer left ⟨⟩
    · rintro record ⟨⟩
    · rintro call answer ⟨⟩
  · rw [closed]
    refine kept.wander ?_ ?_ ?_ rfl rfl rfl rfl rfl
    · rw [found]; rfl
    · exact fun record writer => absurd writer (unowned _)
    · rw [found]; rfl

theorem KeyKept.abort (kept : KeyKept sha256 calls) (uncommitted : leftBehind (calls.phase id) = none) :
    KeyKept sha256 ((calls.withSlot (calls.slot.rollback id)).move id .rolledBack) := by
  have moved : Moved calls ((calls.withSlot (calls.slot.rollback id)).move id .rolledBack) id
      .rolledBack := fun _ => rfl
  obtain ⟨version, writer, undone⟩ | ⟨unowned, undone⟩ := key_rollback_cases calls.slot id
  · refine kept.ends moved writer undone rfl rfl uncommitted rfl rfl rfl (.inr rfl) ?_ ?_ ?_
    · rintro call answer left ⟨⟩
    · exact fun record committed => (kept.committed record committed).moved moved uncommitted
    · rintro call answer ⟨⟩
  · rw [undone]
    refine kept.wander uncommitted ?_ ?_ rfl rfl rfl rfl rfl
    · exact fun record writer => absurd writer (unowned _)
    · cases claimed : holding (calls.phase id) with
      | none => rfl
      | some held =>
          obtain ⟨record, writer, _⟩ := kept.locked id held claimed
          exact absurd writer (unowned _)

theorem KeyKept.pass (kept : KeyKept sha256 calls) (elapsed : Time) :
    KeyKept sha256 { calls with clock := calls.clock + elapsed } := by
  have later : ∀ row : IdempotencyRecord, row.isExpired calls.clock = true →
      row.isExpired (calls.clock + elapsed) = true :=
    fun row => isExpired_later (Nat.le_add_right _ _)
  refine ⟨kept.locked, kept.held, kept.dropped, ?_, kept.apart, kept.fresh, ?_, ?_, ?_, ?_⟩
  · exact fun writer row owned stored => later row (kept.expired writer row owned stored)
  · intro id holder evicts
    obtain ⟨expired, rest⟩ := kept.evicting id holder evicts
    exact ⟨later holder expired, rest⟩
  · intro id call answer left found
    obtain ⟨fits, remains⟩ := kept.left id call answer left found
    refine ⟨fits, fun record present => ?_⟩
    obtain expired | stored := remains record present
    · exact .inl (later record expired)
    · exact .inr stored
  · exact kept.committed
  · intro id call answer found
    have fits := kept.answered id call answer found
    cases answer with
    | refused error holder => cases holder <;> exact fits
    | _ => exact fits

end Writes

theorem KeyKept.step (kept : KeyKept sha256 calls)
    (stepped : (toolCalls sha256).step action calls = some after) : KeyKept sha256 after := by
  cases keyStep_cases stepped with
  | pass => exact kept.pass _
  | turn found turns => exact kept.turn found turns
  | claim found inserted => exact kept.insert found inserted
  | evict found deleted => exact kept.evict found deleted
  | complete found => exact kept.complete found
  | release found deleted => exact kept.release found deleted
  | commit found => exact kept.commit found
  | finishReaping found => exact kept.finishReaping found
  | abort uncommitted => exact kept.abort uncommitted
  | reap found deleted => exact kept.reap found deleted

theorem keyKept_initial : KeyKept sha256 .initial := by
  refine ⟨?_, ?_, ?_, ?_, ?_, ?_, ?_, ?_, ?_, ?_⟩
  all_goals intros
  all_goals simp_all [ToolCalls.initial, holding, Properties.dropped, evictee, leftBehind, acquireAnswer]

end Steps

section Histories

variable {action : Action} {before : CallPhase} {steps : List (ToolCalls × Action)} {last : ToolCalls}

/-- The phases that a call can go through. -/
inductive Follows (sha256 : String → String) (calls : ToolCalls) (id : CallId) :
    Action → CallPhase → CallPhase → Prop where
  | turn {action : Action} {before phase : CallPhase} (turns : Turn sha256 calls id action before phase) :
      Follows sha256 calls id action before phase
  | claim {call expiresAt attempt claim} : Follows sha256 calls id (.insertClaim id)
      (.inserting call expiresAt attempt) (.executing call claim)
  | evict {call expiresAt holder} : Follows sha256 calls id (.evict id)
      (.evicting call expiresAt holder) (.inserting call expiresAt 2)
  | complete {call claim output} : Follows sha256 calls id (.complete id true)
      (.completing call claim output) (.responding call claim output true)
  | release {call claim error} : Follows sha256 calls id (.release id true)
      (.releasing call claim error true) (.answered call (some claim) (.failed error true))
  | releaseUnaudited {call claim error} : Follows sha256 calls id (.release id true)
      (.releasing call claim error false) .raising
  | commit {call claimed answer left} : Follows sha256 calls id (.commit id)
      (.answered call claimed answer) (.committed call answer left)
  | finishReaping : Follows sha256 calls id (.commit id) .reaping .reaped
  | abort {before : CallPhase} : Follows sha256 calls id (.abort id) before .rolledBack
  | reap : Follows sha256 calls id (.reap id) .idle .reaping

theorem follows_or_stays (stepped : (toolCalls sha256).step action calls = some after) (id : CallId) :
    after.phase id = calls.phase id ∨ Follows sha256 calls id action (calls.phase id) (after.phase id) := by
  have moves : ∀ (slot : KeySlot) {mover : CallId} {phase : CallPhase},
      Follows sha256 calls mover action (calls.phase mover) phase →
      ((calls.withSlot slot).move mover phase).phase id = calls.phase id ∨
        Follows sha256 calls id action (calls.phase id) (((calls.withSlot slot).move mover phase).phase id) := by
    intro slot mover phase follows
    by_cases same : id = mover
    · subst same
      rw [move_self]
      exact .inr follows
    · exact .inl (move_other same)
  cases keyStep_cases stepped with
  | pass => exact .inl rfl
  | turn found turns => exact moves calls.slot (.turn (found ▸ turns))
  | claim found inserted => exact moves _ (found ▸ .claim)
  | evict found deleted => exact moves _ (found ▸ .evict)
  | complete found => exact moves _ (found ▸ .complete)
  | release found deleted =>
      rename_i audited _
      cases audited
      · exact moves _ (found ▸ .releaseUnaudited)
      · exact moves _ (found ▸ .release)
  | commit found => exact moves _ (found ▸ .commit)
  | finishReaping found => exact moves _ (found ▸ .finishReaping)
  | abort uncommitted => exact moves _ .abort
  | reap found deleted => exact moves _ (found ▸ .reap)

/-- The phases of a call whose handler may have run. -/
def handled : CallPhase → Bool
  | .auditingSuccess .. | .completing .. | .responding .. | .auditingFailure .. | .releasing ..
  | .raising | .rolledBack => true
  | .answered _ _ answer | .committed _ answer _ => ranHandler answer
  | _ => false

def abandoned : CallPhase → Bool
  | .raising | .rolledBack => true
  | _ => false

def completion : CallPhase → Option Bool
  | .responding _ _ _ recorded | .auditing _ (.executed _ recorded _)
  | .answered _ _ (.executed _ recorded _) | .committed _ (.executed _ recorded _) _ => some recorded
  | _ => none

def releaseOf : CallPhase → Option Bool
  | .auditing _ (.failed _ released) | .answered _ _ (.failed _ released)
  | .committed _ (.failed _ released) _ => some released
  | _ => none

def callOf : CallPhase → Option ToolCall
  | .inserting call _ _ | .reading call _ _ | .evicting call _ _ | .executing call _
  | .auditingSuccess call _ _ | .completing call _ _ | .responding call _ _ _
  | .auditingFailure call _ _ | .releasing call _ _ _ | .auditing call _ | .answered call _ _
  | .committed call _ _ => some call
  | _ => none

theorem Follows.handled_kept (follows : Follows sha256 calls id action before phase)
    (ran : handled before = true) : handled phase = true := by
  cases follows with
  | turn turns => cases turns <;> first | rfl | cases ran
  | commit => exact ran
  | _ => first | rfl | cases ran

theorem Follows.abandoned_kept (follows : Follows sha256 calls id action before phase)
    (gone : abandoned before = true) : abandoned phase = true := by
  cases follows with
  | turn turns => cases turns <;> cases gone
  | _ => first | rfl | cases gone

theorem Follows.completion_kept (follows : Follows sha256 calls id action before phase) {recorded : Bool}
    (was : completion before = some recorded) :
    completion phase = some recorded ∨ abandoned phase = true := by
  cases follows with
  | turn turns =>
      cases turns with
      | audited =>
          rename_i answer
          cases answer with
          | executed => exact .inl was
          | _ => cases was
      | unaudited => exact .inr rfl
      | respond => exact .inl was
      | _ => cases was
  | commit =>
      rename_i answer _
      cases answer with
      | executed => exact .inl was
      | _ => cases was
  | abort => exact .inr rfl
  | _ => cases was

theorem Follows.callOf_kept (follows : Follows sha256 calls id action before phase) {call : ToolCall}
    (now : callOf phase = some call) : callOf before = some call ∨ action = .start id call := by
  cases follows with
  | turn turns =>
      cases turns with
      | start =>
          cases now
          exact .inr rfl
      | _ => first | exact .inl now | cases now
  | _ => first | exact .inl now | cases now

theorem Follows.completion_brought (follows : Follows sha256 calls id action before phase)
    {recorded : Bool} (now : completion phase = some recorded) :
    completion before = some recorded ∨ action = .complete id recorded := by
  cases follows with
  | turn turns =>
      cases turns with
      | unrecorded =>
          cases now
          exact .inr rfl
      | respond => exact .inl now
      | audited =>
          rename_i answer
          cases answer with
          | executed => exact .inl now
          | _ => cases now
      | _ => cases now
  | complete =>
      cases now
      exact .inr rfl
  | commit =>
      rename_i answer _
      cases answer with
      | executed => exact .inl now
      | _ => cases now
  | _ => cases now

theorem Follows.release_brought (follows : Follows sha256 calls id action before phase)
    {released : Bool} (now : releaseOf phase = some released) :
    releaseOf before = some released ∨ action = .release id released := by
  cases follows with
  | turn turns =>
      cases turns with
      | unreleased =>
          cases now
          exact .inr rfl
      | audited =>
          rename_i answer
          cases answer with
          | failed => exact .inl now
          | _ => cases now
      | _ => cases now
  | release =>
      cases now
      exact .inr rfl
  | commit =>
      rename_i answer _
      cases answer with
      | failed => exact .inl now
      | _ => cases now
  | _ => cases now

theorem handled_of_mem (ran : (toolCalls sha256).Run steps last) {state : ToolCalls}
    {outcome : HandlerOutcome} (member : (state, .handle id outcome) ∈ steps) :
    handled (last.phase id) = true := by
  refine ran.since (· = .handle id outcome) (fun calls => handled (calls.phase id) = true) ?_ ?_ member rfl
  · intro calls label after isHandle stepped
    subst isHandle
    simp only [toolCalls, ToolCalls.step] at stepped
    split at stepped
    · split at stepped <;> cases stepped <;> simp [handled]
    · contradiction
  · intro calls label after earlier stepped
    obtain stays | follows := follows_or_stays stepped id
    · rw [stays, earlier]
    · exact follows.handled_kept earlier

theorem completion_of_mem (ran : (toolCalls sha256).Run steps last) {state : ToolCalls} {recorded : Bool}
    (member : (state, .complete id recorded) ∈ steps) :
    completion (last.phase id) = some recorded ∨ abandoned (last.phase id) = true := by
  refine ran.since (· = .complete id recorded)
    (fun calls => completion (calls.phase id) = some recorded ∨ abandoned (calls.phase id) = true)
    ?_ ?_ member rfl
  · intro calls label after isComplete stepped
    subst isComplete
    simp only [toolCalls, ToolCalls.step] at stepped
    split at stepped
    · cases stepped
      exact .inl (by simp [completion])
    · contradiction
  · intro calls label after earlier stepped
    obtain stays | follows := follows_or_stays stepped id
    · rw [stays]
      exact earlier
    · obtain was | gone := earlier
      · exact follows.completion_kept was
      · exact .inr (follows.abandoned_kept gone)

theorem mem_of_phase (ran : (toolCalls sha256).Run steps last) (holds : CallPhase → Prop)
    (marked : Action) (idle : ¬ holds .idle)
    (brought : ∀ {calls label before phase}, Follows sha256 calls id label before phase →
      holds phase → holds before ∨ label = marked)
    (reached : holds (last.phase id)) : ∃ state, (state, marked) ∈ steps := by
  obtain ⟨⟨state, label⟩, member, rfl⟩ := ran.because (· = marked) (fun calls => holds (calls.phase id))
    idle
    (by
      intro calls label after earlier stepped now
      obtain stays | follows := follows_or_stays stepped id
      · rw [stays] at now
        exact absurd now earlier
      · exact (brought follows now).resolve_left earlier)
    reached
  exact ⟨state, member⟩

theorem mem_of_completion (ran : (toolCalls sha256).Run steps last) {recorded : Bool}
    (completed : completion (last.phase id) = some recorded) :
    ∃ state, (state, .complete id recorded) ∈ steps :=
  mem_of_phase ran (completion · = some recorded) _ (by simp [completion])
    (fun follows => follows.completion_brought) completed

theorem mem_of_release (ran : (toolCalls sha256).Run steps last) {released : Bool}
    (dropped : releaseOf (last.phase id) = some released) :
    ∃ state, (state, .release id released) ∈ steps :=
  mem_of_phase ran (releaseOf · = some released) _ (by simp [releaseOf])
    (fun follows => follows.release_brought) dropped

theorem mem_of_callOf (ran : (toolCalls sha256).Run steps last) {call : ToolCall}
    (called : callOf (last.phase id) = some call) : ∃ state, (state, .start id call) ∈ steps :=
  mem_of_phase ran (callOf · = some call) _ (by simp [callOf])
    (fun follows => follows.callOf_kept) called

end Histories

section Runs

variable {steps : List (ToolCalls × Action)} {last : ToolCalls}

theorem KeyKept.run (ran : (toolCalls sha256).Run steps last) :
    ∀ state ∈ Machine.visited steps last, KeyKept sha256 state :=
  Machine.Run.everywhere ran keyKept_initial KeyKept.step

/-- No other call holds a claim, and what the committed calls have left under the
key has expired. -/
def RunsAlone (calls : ToolCalls) (id : CallId) : Prop :=
  (∀ other held, holding (calls.phase other) = some held → other = id) ∧
  ∀ other call answer record, calls.phase other = .committed call answer (some record) →
    record.isExpired calls.clock = true

theorem KeyKept.runsAlone (kept : KeyKept sha256 calls) {held : Holding}
    (holds : holding (calls.phase id) = some held) : RunsAlone calls id := by
  obtain ⟨record, writer, _⟩ := kept.locked id held holds
  refine ⟨fun other held claimed => ?_, fun other call answer left committed => ?_⟩
  · obtain ⟨_, owned, _⟩ := kept.locked other held claimed
    rw [writer] at owned
    cases owned
    rfl
  · obtain ⟨_, remains⟩ := kept.left other call answer (some left) (by rw [committed]; rfl)
    obtain expired | stored := remains left rfl
    · exact expired
    · exact kept.expired _ left writer stored

/-- What a call that has committed has done: it has executed its handler under a
claim of its own, or it has not and its answer is that of the call that did. -/
def Settled (steps : List (ToolCalls × Action)) (calls : ToolCalls) (id : CallId) (call : ToolCall) :
    Answer → Option IdempotencyRecord → Prop
  | .executed _ _ _, left => left.isSome = true
  | .failed _ released, left => left.isSome = !released
  | .replayed response, _ => (∀ state outcome, (state, .handle id outcome) ∉ steps) ∧
      ∃ owner error record, calls.phase owner = .committed call (.executed response true error) (some record)
  | .refused error none, _ => (∀ state outcome, (state, .handle id outcome) ∉ steps) ∧
      error.keyReused = false
  | .refused error (some holder), _ => (∀ state outcome, (state, .handle id outcome) ∉ steps) ∧
      ∃ owner asked answer, calls.phase owner = .committed asked answer (some holder) ∧
        (error.keyReused = true ↔ asked.toolName ≠ call.toolName ∨ asked.arguments ≠ call.arguments)
  | .reaped, _ => False

def started (steps : List (ToolCalls × Action)) : List ToolCall :=
  steps.filterMap fun taken =>
    match taken.2 with
    | .start _ call => some call
    | _ => none

/-- Different arguments in a run have different hashes. -/
def Collisionless (sha256 : String → String) (steps : List (ToolCalls × Action)) : Prop :=
  ∀ call ∈ started steps, ∀ asked ∈ started steps,
    sha256 call.arguments = sha256 asked.arguments → call.arguments = asked.arguments

theorem mem_started (ran : (toolCalls sha256).Run steps last) {call : ToolCall}
    (called : callOf (last.phase id) = some call) : call ∈ started steps := by
  obtain ⟨state, member⟩ := mem_of_callOf ran called
  exact List.mem_filterMap.mpr ⟨_, member, rfl⟩

theorem committed_of_leftBehind {call : ToolCall} {answer : Answer} {left : Option IdempotencyRecord}
    (found : leftBehind phase = some (call, answer, left)) : phase = .committed call answer left := by
  cases phase <;> cases found
  rfl

theorem Collisionless.same_iff (collisionless : Collisionless sha256 steps)
    (ran : (toolCalls sha256).Run steps last) {call asked : ToolCall}
    (called : callOf (last.phase id) = some call) (askedFor : callOf (last.phase other) = some asked)
    (same : SameCall sha256 record asked) :
    SameCall sha256 record call ↔ asked.toolName = call.toolName ∧ asked.arguments = call.arguments := by
  unfold SameCall at same ⊢
  rw [same.1, same.2]
  refine and_congr_right fun _ => ⟨?_, fun equal => by rw [equal]⟩
  exact collisionless asked (mem_started ran askedFor) call (mem_started ran called)

theorem executed_of_recordedResponse {answer : Answer} {response : Json}
    (recorded : recordedResponse answer = some response) :
    ∃ error, answer = .executed response true error := by
  cases answer with
  | executed output written error =>
      cases written <;> cases recorded
      exact ⟨error, rfl⟩
  | _ => cases recorded

theorem settled_of_committed (ran : (toolCalls sha256).Run steps last)
    (collisionless : Collisionless sha256 steps) {call : ToolCall} {answer : Answer}
    {left : Option IdempotencyRecord} (committed : last.phase id = .committed call answer left) :
    Settled steps last id call answer left := by
  have kept := KeyKept.run ran last List.mem_cons_self
  obtain ⟨leaves, _⟩ := kept.left id call answer left (by rw [committed]; rfl)
  have called : callOf (last.phase id) = some call := by rw [committed]; rfl
  have answered : ranHandler answer = false → Fits sha256 last call answer := by
    intro unran
    exact kept.answered id call answer (by rw [committed]; simp [acquireAnswer, unran])
  have unhandled : ranHandler answer = false → ∀ state outcome, (state, .handle id outcome) ∉ steps := by
    intro unran state outcome member
    have ranIt := handled_of_mem ran member
    rw [committed] at ranIt
    exact absurd (unran.symm.trans ranIt) Bool.noConfusion
  cases answer with
  | executed output recorded error => exact leaves.keeps
  | failed error released =>
      cases released <;> exact leaves.keeps
  | replayed response =>
      obtain ⟨record, recorded, same, owner, asked, answer, found, askedSame, responses⟩ := answered rfl
      have owned := committed_of_leftBehind found
      have askedFor : callOf (last.phase owner) = some asked := by rw [owned]; rfl
      obtain ⟨sameTool, sameArguments⟩ := (collisionless.same_iff ran called askedFor askedSame).mp same
      obtain ⟨error, rfl⟩ := executed_of_recordedResponse (responses.symm.trans recorded)
      have sameCall : asked = call := by
        cases asked
        cases call
        cases sameTool
        cases sameArguments
        rfl
      exact ⟨unhandled rfl, owner, error, record, sameCall ▸ owned⟩
  | refused error holder =>
      cases holder with
      | none => exact ⟨unhandled rfl, answered rfl⟩
      | some holder =>
          obtain ⟨⟨owner, asked, answer, found, askedSame, _⟩, reused⟩ := answered rfl
          have owned := committed_of_leftBehind found
          have askedFor : callOf (last.phase owner) = some asked := by rw [owned]; rfl
          refine ⟨unhandled rfl, owner, asked, answer, owned, ?_⟩
          rw [reused, collisionless.same_iff ran called askedFor askedSame, not_and_or]
  | reaped => exact (answered rfl).elim

/-- In every run of the calls under one key, handlers execute under a claim, and
while a call holds one no other call does and no committed claim is unexpired.
Every committed call has executed, or replays or refuses without executing. -/
theorem tool_executes_once_per_claim (ran : (toolCalls sha256).Run steps last)
    (collisionless : Collisionless sha256 steps) :
    (∀ state id outcome, (state, .handle id outcome) ∈ steps →
      ∃ held, holding (state.phase id) = some held) ∧
    (∀ state ∈ Machine.visited steps last, ∀ id held, holding (state.phase id) = some held →
      RunsAlone state id) ∧
    ∀ id call answer left, last.phase id = .committed call answer left →
      Settled steps last id call answer left := by
  refine ⟨?_, ?_, ?_⟩
  · intro state id outcome member
    obtain ⟨later, earlier, rfl⟩ := List.append_of_mem member
    obtain ⟨after, _, stepped, _⟩ := ran.split
    simp only [toolCalls, ToolCalls.step] at stepped
    split at stepped
    · rename_i call claim found
      exact ⟨⟨call, claim, none⟩, by rw [found]; rfl⟩
    · contradiction
  · exact fun state visited id held holds => (KeyKept.run ran state visited).runsAlone holds
  · exact fun id call answer left committed => settled_of_committed ran collisionless committed

section Shown

def safeArguments : String := "\x7b\"category\":\"replay_safe\",\"idempotency_key\":\"incident-1\"\x7d"

def waitArguments : String := "\x7b\"category\":\"wait_and_replay\",\"idempotency_key\":\"incident-1\"\x7d"

def shownDigest (text : String) : String :=
  if text = safeArguments then "7a97cbdaacad48f18e0e983efb5052a6aa54cb23c64cdac2c47c59467cc893d5"
  else if text = waitArguments then "ba1bf685d64f041af8d3d2b5cbe9366a8557f0dac5ea2269251b8750233e329d"
  else ""

/-- One call executes; a repeat replays; the key with other arguments is refused;
after the claim has expired it is evicted and the call executes again. -/
def keyShown : List Action :=
  let safe : ToolCall := ⟨"replay_dlq_by_category", safeArguments⟩
  let wait : ToolCall := ⟨"replay_dlq_by_category", waitArguments⟩
  [.start 0 safe, .start 1 safe, .start 2 wait, .insertClaim 0, .handle 0 (.returned (.string "replayed")),
    .audit 0 true, .complete 0 true, .respond 0 true, .commit 0,
    .insertClaim 1, .getByKey 1, .audit 1 true, .commit 1,
    .insertClaim 2, .getByKey 2, .audit 2 true, .commit 2,
    .pass (seconds 86401), .start 3 wait, .insertClaim 3, .getByKey 3, .evict 3, .insertClaim 3,
    .handle 3 .crashed, .audit 3 true, .release 3 true, .commit 3]

def replays : CallPhase → Bool
  | .committed _ (.replayed _) _ => true
  | _ => false

def refusesArguments : CallPhase → Bool
  | .committed _ (.refused (.otherArguments _) (some _)) _ => true
  | _ => false

def failsHandler : CallPhase → Bool
  | .committed _ (.failed .internalToolError true) none => true
  | _ => false

theorem tool_executes_once_per_claim_at_shown :
    ∃ steps last, (toolCalls shownDigest).Run steps last ∧ replays (last.phase 1) = true ∧
      refusesArguments (last.phase 2) = true ∧ failsHandler (last.phase 3) = true ∧
      (∀ state id outcome, (state, .handle id outcome) ∈ steps →
        ∃ held, holding (state.phase id) = some held) ∧
      (∀ state ∈ Machine.visited steps last, ∀ id held, holding (state.phase id) = some held →
        RunsAlone state id) ∧
      ∀ id call answer left, last.phase id = .committed call answer left →
        Settled steps last id call answer left := by
  obtain ⟨steps, last, ran, checked⟩ : ∃ steps last, (toolCalls shownDigest).Run steps last ∧
      (replays (last.phase 1) && refusesArguments (last.phase 2) && failsHandler (last.phase 3) &&
        (started steps).all fun call => (started steps).all fun asked =>
          decide (shownDigest call.arguments = shownDigest asked.arguments →
            call.arguments = asked.arguments)) = true :=
    Machine.exists_run keyShown (by decide +kernel)
  simp only [Bool.and_eq_true, List.all_eq_true, decide_eq_true_eq] at checked
  obtain ⟨⟨⟨replayed, refused⟩, failed⟩, collisionless⟩ := checked
  exact ⟨steps, last, ran, replayed, refused, failed, tool_executes_once_per_claim ran collisionless⟩

end Shown

theorem keepsClaim_of_unrecorded {call : ToolCall} {answer : Answer} {left : Option IdempotencyRecord}
    (unrecorded : completion (.committed call answer left) = some false) :
    keepsClaim answer = true ∧ recordedResponse answer = none := by
  cases answer with
  | executed output recorded error =>
      cases unrecorded
      exact ⟨rfl, rfl⟩
  | _ => cases unrecorded

/-- A call that commits leaves no claim without a response, unless its release
has failed, exactly if its completion has not. -/
theorem claim_answered_iff (ran : (toolCalls sha256).Run steps last) {call : ToolCall} {answer : Answer}
    {left : Option IdempotencyRecord} (committed : last.phase id = .committed call answer left)
    (released : ∀ state, (state, .release id false) ∉ steps) :
    (∀ record, left = some record → record.responseJson.isSome = true) ↔
      ∀ state, (state, .complete id false) ∉ steps := by
  have kept := KeyKept.run ran last List.mem_cons_self
  obtain ⟨leaves, _⟩ := kept.left id call answer left (by rw [committed]; rfl)
  constructor
  · intro answered state member
    obtain unrecorded | gone := completion_of_mem ran member
    · rw [committed] at unrecorded
      obtain ⟨keeps, nothing⟩ := keepsClaim_of_unrecorded unrecorded
      obtain ⟨record, rfl⟩ := Option.isSome_iff_exists.mp (leaves.keeps.trans keeps)
      have responded := answered record rfl
      rw [(leaves.same record rfl).2, nothing] at responded
      cases responded
    · rw [committed] at gone
      cases gone
  · rintro completed record rfl
    rw [(leaves.same record rfl).2]
    have keeps := leaves.keeps
    cases answer with
    | executed output recorded error =>
        cases recorded with
        | true => rfl
        | false =>
            have unrecorded : completion (last.phase id) = some false := by rw [committed]; rfl
            obtain ⟨state, member⟩ := mem_of_completion ran unrecorded
            exact absurd member (completed state)
    | failed error dropped =>
        cases dropped with
        | true => cases keeps
        | false =>
            have undropped : releaseOf (last.phase id) = some false := by rw [committed]; rfl
            obtain ⟨state, member⟩ := mem_of_release ran undropped
            exact absurd member (released state)
    | _ => cases keeps

def callEnding (recorded : Bool) : List Action :=
  [.start 0 ⟨"replay_dlq_by_category", safeArguments⟩, .insertClaim 0,
    .handle 0 (.returned (.string "replayed")), .audit 0 true, .complete 0 recorded, .respond 0 true,
    .commit 0]

def failsRelease : Action → Bool
  | .release _ false => true
  | _ => false

def leavesClaim (answered : Bool) : CallPhase → Bool
  | .committed _ _ (some record) => record.responseJson.isSome == answered
  | _ => false

theorem exists_call_ending (recorded : Bool) : ∃ steps last call answer record,
    (toolCalls shownDigest).Run steps last ∧ last.phase 0 = .committed call answer (some record) ∧
      (∀ state, (state, .release 0 false) ∉ steps) ∧ record.responseJson.isSome = recorded := by
  obtain ⟨steps, last, ran, checked⟩ : ∃ steps last, (toolCalls shownDigest).Run steps last ∧
      (leavesClaim recorded (last.phase 0) && steps.all fun taken => !failsRelease taken.2) = true :=
    Machine.exists_run (callEnding recorded) (by cases recorded <;> decide +kernel)
  obtain ⟨leaves, releases⟩ := Bool.and_eq_true_iff.mp checked
  have unreleased : ∀ state, (state, Action.release 0 false) ∉ steps := by
    intro state member
    have fine := List.all_eq_true.mp releases _ member
    cases fine
  cases found : last.phase 0 with
  | committed call answer left =>
      rw [found] at leaves
      cases left with
      | none => cases leaves
      | some record => exact ⟨steps, last, call, answer, record, ran, found, unreleased, by simpa [leavesClaim] using leaves⟩
  | _ =>
      rw [found] at leaves
      cases leaves

theorem claim_answered_iff_at_recorded : ∃ steps last call answer record,
    (toolCalls shownDigest).Run steps last ∧ last.phase 0 = .committed call answer (some record) ∧
      record.responseJson.isSome = true ∧ ∀ state, (state, .complete 0 false) ∉ steps := by
  obtain ⟨steps, last, call, answer, record, ran, committed, released, responded⟩ := exists_call_ending true
  refine ⟨steps, last, call, answer, record, ran, committed, responded, ?_⟩
  refine (claim_answered_iff ran committed released).mp ?_
  rintro other ⟨⟩
  exact responded

/-- The handler has executed, its completion fails, and the request commits. -/
theorem claim_left_unanswered :
    ¬ ∀ (sha256 : String → String) (steps : List (ToolCalls × Action)) (last : ToolCalls) (id : CallId)
      (call : ToolCall) (answer : Answer) (left : Option IdempotencyRecord),
      (toolCalls sha256).Run steps last → last.phase id = .committed call answer left →
      (∀ state, (state, .release id false) ∉ steps) →
      ∀ record, left = some record → record.responseJson.isSome = true := by
  intro claimed
  obtain ⟨steps, last, call, answer, record, ran, committed, released, unanswered⟩ :=
    exists_call_ending false
  have responded := claimed _ steps last 0 call answer _ ran committed released record rfl
  rw [unanswered] at responded
  cases responded

end Runs

end IncidentPlatform.Properties

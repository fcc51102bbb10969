import IncidentPlatform.Workers.EventConsumers

namespace IncidentPlatform.Properties

open Concurrency Models Workers

/-! # What the recording consumers leave of a message

The unique constraint keeps a redelivery from recording twice.  A foreign key
that is not met raises the same `IntegrityError`, and the message is gone.
-/

variable {conversions : Conversions} {message : KafkaMessage} {connection : Connection}
  {before after last : EventTables} {action : EventTables.Action} {coordinates : KafkaCoordinates}
  {tenants users jobs : Uuid → Bool} {steps : List (EventTables × EventTables.Action)}

def messageField (message : KafkaMessage) (name : String) : Option Json :=
  match message.value with
  | .object fields => fields.lookup name
  | _ => none

def HasEvent (conversions : Conversions) (message : KafkaMessage) : Prop :=
  ∃ event, messageField message "event" = some event ∧ conversions.truthy event

/-- Its event is one that `AuditConsumer` maps. -/
def MappedEvent (message : KafkaMessage) : Prop :=
  ∃ name ∈ eventToAction.map Prod.fst, messageField message "event" = some (.string name)

def HasTenant (conversions : Conversions) (message : KafkaMessage) : Prop :=
  (conversions.parseUuid (messageField message "tenant_id")).isSome

/-- What the message names in a field, if it names anything, is stored. -/
def NamesStored (conversions : Conversions) (message : KafkaMessage) (name : String) (stored : Uuid → Bool) : Prop :=
  (conversions.parseUuid (messageField message name)).all stored

instance {name : String} {stored : Uuid → Bool} : Decidable (NamesStored conversions message name stored) :=
  inferInstanceAs (Decidable (_ = true))

theorem parseUuid_string {text : String} : conversions.parseUuid (some (.string text)) = conversions.uuid text := by
  simp only [Conversions.parseUuid]
  split
  · rename_i empty
    rw [empty, conversions.uuid_empty]
  · rfl

theorem event_reading_cases :
    (∃ row, JobEvent.reading conversions message = .insert row ∧ HasEvent conversions message ∧
      row.coordinates = message.coordinates ∧
      conversions.parseUuid (messageField message "tenant_id") = some row.tenantId) ∨
    JobEvent.reading conversions message = .skip ∧
      ¬(HasEvent conversions message ∧ HasTenant conversions message) := by
  unfold JobEvent.reading
  split
  · rename_i fields value
    have named : ∀ name, messageField message name = fields.lookup name := fun name => by simp [messageField, value]
    split
    · rename_i event given
      split
      · rename_i truthy
        have has : HasEvent conversions message := ⟨event, (named _).trans given, truthy⟩
        split
        · rename_i tenant text
          split
          · rename_i tenantId parsed
            exact .inl ⟨_, rfl, has, rfl, by rw [named, text, parseUuid_string, parsed]⟩
          · rename_i failed
            refine .inr ⟨rfl, fun both => ?_⟩
            have some := both.2
            rw [HasTenant, named, text, parseUuid_string, failed] at some
            contradiction
        · rename_i other
          refine .inr ⟨rfl, fun both => ?_⟩
          have some := both.2
          rw [HasTenant, named] at some
          unfold Conversions.parseUuid at some
          split at some
          · exact other _ ‹_›
          · contradiction
      · rename_i falsy
        refine .inr ⟨rfl, fun both => ?_⟩
        obtain ⟨other, same, truthy⟩ := both.1
        cases given.symm.trans ((named _).symm.trans same)
        exact falsy truthy
    · rename_i absent
      refine .inr ⟨rfl, fun both => ?_⟩
      obtain ⟨other, same, _⟩ := both.1
      cases absent.symm.trans ((named _).symm.trans same)
  · rename_i other
    refine .inr ⟨rfl, fun both => ?_⟩
    obtain ⟨event, same, _⟩ := both.1
    unfold messageField at same
    split at same
    · exact other _ ‹_›
    · contradiction

theorem auditAction_cases {fields : List (String × Json)} {event : Json} :
    (∃ action, auditAction fields event = .insert action ∧
      ∃ name ∈ eventToAction.map Prod.fst, event = .string name) ∨
    (auditAction fields event = .skip ∨ auditAction fields event = .raise) ∧
      ∀ name ∈ eventToAction.map Prod.fst, event ≠ .string name := by
  unfold auditAction
  split
  · rename_i name
    split
    · rename_i failed
      exact .inl ⟨_, rfl, name, by rw [failed.1]; decide, rfl⟩
    · split
      · rename_i action found
        obtain ⟨first, rest, entries, _⟩ := List.lookup_eq_some_iff.mp found
        exact .inl ⟨action, rfl, name, by simp [entries], rfl⟩
      · rename_i missing
        refine .inr ⟨.inl rfl, ?_⟩
        rintro _ member ⟨⟩
        obtain ⟨entry, found, rfl⟩ := List.mem_map.mp member
        exact absurd rfl (bne_iff_ne.mp (List.lookup_eq_none_iff.mp missing entry found))
  · exact .inr ⟨.inr rfl, by simp⟩
  · exact .inr ⟨.inr rfl, by simp⟩
  · rename_i text _ _
    exact .inr ⟨.inl rfl, fun name _ same => text name same⟩

theorem audit_reading_cases :
    (∃ row, AuditLog.reading conversions message = .insert row ∧ MappedEvent message ∧
      row.coordinates = some message.coordinates ∧
      conversions.parseUuid (messageField message "tenant_id") = some row.tenantId ∧
      row.userId = conversions.parseUuid (messageField message "user_id") ∧
      row.jobId = conversions.parseUuid (messageField message "job_id")) ∨
    (AuditLog.reading conversions message = .skip ∨ AuditLog.reading conversions message = .raise) ∧
      ¬(MappedEvent message ∧ HasTenant conversions message) := by
  unfold AuditLog.reading
  split
  · rename_i fields value
    have named : ∀ name, messageField message name = fields.lookup name := fun name => by simp [messageField, value]
    split
    · rename_i event given
      have present : messageField message "event" = some event := (named _).trans given
      have unmapped (different : ∀ name ∈ eventToAction.map Prod.fst, event ≠ .string name) :
          ¬(MappedEvent message ∧ HasTenant conversions message) := by
        rintro ⟨⟨name, member, same⟩, _⟩
        exact different name member (Option.some.inj (present.symm.trans same))
      split
      · obtain ⟨action, read, name, member, rfl⟩ | ⟨refused, different⟩ := @auditAction_cases fields event
        · simp only [read]
          split
          · rename_i tenantId parsed
            rw [← named] at parsed
            exact .inl ⟨_, rfl, ⟨name, member, present⟩, rfl, parsed, by rw [named], by rw [named]⟩
          · rename_i failed
            refine .inr ⟨.inl rfl, fun both => ?_⟩
            have some := both.2
            rw [HasTenant, named, failed] at some
            contradiction
        · obtain skipped | raised := refused
          · simp only [skipped]
            exact .inr ⟨.inl trivial, unmapped different⟩
          · simp only [raised]
            exact .inr ⟨.inr trivial, unmapped different⟩
      · rename_i falsy
        refine .inr ⟨.inl rfl, unmapped ?_⟩
        rintro name member rfl
        apply falsy
        have nonempty : name ≠ "" := by
          rintro rfl
          revert member
          decide
        simpa [Conversions.truthy] using nonempty
    · rename_i absent
      refine .inr ⟨.inl rfl, fun both => ?_⟩
      obtain ⟨name, _, same⟩ := both.1
      cases absent.symm.trans ((named _).symm.trans same)
  · rename_i other
    refine .inr ⟨.inl rfl, fun both => ?_⟩
    obtain ⟨name, _, same⟩ := both.1
    unfold messageField at same
    split at same
    · exact other _ ‹_›
    · contradiction

/-- No coordinates are on two rows of a table. -/
structure RecordedOnce (tables : EventTables) : Prop where
  events : ∀ coordinates, (tables.jobEvents.map JobEvent.coordinates).count coordinates ≤ 1
  audits : ∀ coordinates, (tables.auditLogs.map AuditLog.coordinates).count (some coordinates) ≤ 1

def EventRecorded (conversions : Conversions) (before : EventTables) : EventTables.Action → Prop
  | .eventLog message connection =>
      (before.handleEvent conversions message connection).1 = true →
        HasEvent conversions message → HasTenant conversions message →
          ((before.handleEvent conversions message connection).2.jobEvents.map JobEvent.coordinates).count
            message.coordinates = 1
  | .audit message connection =>
      (before.handleAudit conversions message connection).1 = true →
        MappedEvent message → HasTenant conversions message →
          ((before.handleAudit conversions message connection).2.auditLogs.map AuditLog.coordinates).count
            (some message.coordinates) = 1
  | _ => True

/-- The message is recorded, or what its row refers to is stored. -/
def ReferencesStored (conversions : Conversions) (before : EventTables) : EventTables.Action → Prop
  | .eventLog message connection =>
      connection ≠ .lost → HasEvent conversions message → HasTenant conversions message →
        message.coordinates ∈ before.jobEvents.map JobEvent.coordinates ∨
          NamesStored conversions message "tenant_id" before.tenants
  | .audit message connection =>
      connection ≠ .lost → MappedEvent message → HasTenant conversions message →
        some message.coordinates ∈ before.auditLogs.map AuditLog.coordinates ∨
          NamesStored conversions message "tenant_id" before.tenants ∧
            NamesStored conversions message "user_id" before.users ∧
            NamesStored conversions message "job_id" before.jobs
  | _ => True

theorem count_append_fresh {Key : Type} [BEq Key] [LawfulBEq Key] {keys : List Key} {key : Key} (fresh : key ∉ keys) :
    (keys ++ [key]).count key = 1 := by
  rw [List.count_append, List.count_eq_zero_of_not_mem fresh]
  simp

theorem count_append_le {Key : Type} [BEq Key] [LawfulBEq Key] {keys : List Key} {key other : Key}
    (fresh : key ∉ keys) (few : keys.count other ≤ 1) : (keys ++ [key]).count other ≤ 1 := by
  by_cases same : other = key
  · subst same
    exact Nat.le_of_eq (count_append_fresh fresh)
  · have elsewhere : [key].count other = 0 := List.count_eq_zero_of_not_mem (by simpa using same)
    rw [List.count_append, elsewhere]
    exact few

theorem handle_recorded_iff {Row : Type} {insert : Row → Option EventTables} {row : Row}
    {times : EventTables → Nat} {referred : Prop}
    (inserted : ∀ after, insert row = some after → times after = 1 ∧ referred)
    (refused : insert row = none → (times before = 1 ∨ ¬ referred)) (few : times before ≤ 1) :
    ((before.handle insert connection (.insert row)).1 = true →
        times (before.handle insert connection (.insert row)).2 = 1) ↔
      (connection ≠ .lost → 0 < times before ∨ referred) := by
  cases outcome : insert row with
  | none =>
      have never := refused outcome
      have recorded : times before = 1 ↔ 0 < times before ∨ referred := by
        constructor
        · intro once
          exact .inl (by omega)
        · rintro (recorded | met)
          · omega
          · exact never.resolve_right (not_not_intro met)
      cases connection <;> simp [EventTables.handle, outcome, recorded]
  | some after =>
      obtain ⟨once, met⟩ := inserted after outcome
      cases connection <;> simp [EventTables.handle, outcome, once, met]

theorem insertEvent_cases {row : JobEvent} :
    (before.ReferredByEvent row ∧ row.coordinates ∉ before.jobEvents.map JobEvent.coordinates ∧
      before.insertEvent row = some { before with jobEvents := before.jobEvents ++ [row] }) ∨
    (before.ReferredByEvent row → row.coordinates ∈ before.jobEvents.map JobEvent.coordinates) ∧
      before.insertEvent row = none := by
  unfold EventTables.insertEvent
  split
  · rename_i free
    exact .inl ⟨free.1, free.2, rfl⟩
  · rename_i taken
    exact .inr ⟨fun referred => by_contra fun fresh => taken ⟨referred, fresh⟩, rfl⟩

theorem insertAudit_cases {row : AuditLog} :
    (before.ReferredByAudit row ∧
      (row.coordinates.isSome → row.coordinates ∉ before.auditLogs.map AuditLog.coordinates) ∧
      before.insertAudit row = some { before with auditLogs := before.auditLogs ++ [row] }) ∨
    (before.ReferredByAudit row → row.coordinates ∈ before.auditLogs.map AuditLog.coordinates) ∧
      before.insertAudit row = none := by
  unfold EventTables.insertAudit
  split
  · rename_i free
    exact .inl ⟨free.1, free.2, rfl⟩
  · rename_i taken
    exact .inr ⟨fun referred => by_contra fun fresh => taken ⟨referred, fun _ => fresh⟩, rfl⟩

theorem eventRecorded_iff (once : RecordedOnce before) :
    EventRecorded conversions before action ↔ ReferencesStored conversions before action := by
  cases action with
  | logged => exact Iff.rfl
  | changed => exact Iff.rfl
  | eventLog message connection =>
      obtain ⟨row, reads, has, named, tenant⟩ | ⟨_, malformed⟩ := @event_reading_cases conversions message
      · have whole : HasTenant conversions message := by rw [HasTenant, tenant]; rfl
        have recorded := @handle_recorded_iff connection before _ before.insertEvent row
          (fun tables => (tables.jobEvents.map JobEvent.coordinates).count message.coordinates)
          (before.ReferredByEvent row) (by
            intro after inserted
            obtain ⟨referred, fresh, same⟩ | ⟨_, same⟩ := @insertEvent_cases before row
            · cases same.symm.trans inserted
              rw [List.map_append, ← named]
              exact ⟨count_append_fresh fresh, referred⟩
            · cases same.symm.trans inserted) (by
            intro refused
            obtain ⟨_, _, same⟩ | ⟨taken, _⟩ := @insertEvent_cases before row
            · cases same.symm.trans refused
            · by_cases referred : before.ReferredByEvent row
              · have few := once.events message.coordinates
                have some := List.count_pos_iff.mpr (named ▸ taken referred)
                exact .inl (by omega)
              · exact .inr referred) (once.events _)
        have stored : NamesStored conversions message "tenant_id" before.tenants ↔ before.ReferredByEvent row := by
          rw [NamesStored, tenant, EventTables.ReferredByEvent, Option.all_some]
        simp only [EventRecorded, ReferencesStored, has, whole, true_implies, EventTables.handleEvent, reads, stored,
          ← List.count_pos_iff]
        exact recorded
      · simp only [EventRecorded, ReferencesStored]
        exact ⟨fun _ _ has whole => absurd ⟨has, whole⟩ malformed,
          fun _ _ has whole => absurd ⟨has, whole⟩ malformed⟩
  | audit message connection =>
      obtain ⟨row, reads, mapped, named, tenant, user, job⟩ | ⟨_, malformed⟩ :=
        @audit_reading_cases conversions message
      · have whole : HasTenant conversions message := by rw [HasTenant, tenant]; rfl
        have recorded := @handle_recorded_iff connection before _ before.insertAudit row
          (fun tables => (tables.auditLogs.map AuditLog.coordinates).count (some message.coordinates))
          (before.ReferredByAudit row) (by
            intro after inserted
            obtain ⟨referred, fresh, same⟩ | ⟨_, same⟩ := @insertAudit_cases before row
            · cases same.symm.trans inserted
              rw [List.map_append, ← named]
              exact ⟨count_append_fresh (fresh (by rw [named]; rfl)), referred⟩
            · cases same.symm.trans inserted) (by
            intro refused
            obtain ⟨_, _, same⟩ | ⟨taken, _⟩ := @insertAudit_cases before row
            · cases same.symm.trans refused
            · by_cases referred : before.ReferredByAudit row
              · have few := once.audits message.coordinates
                have some := List.count_pos_iff.mpr (named ▸ taken referred)
                exact .inl (by omega)
              · exact .inr referred) (once.audits _)
        have stored : NamesStored conversions message "tenant_id" before.tenants ∧
            NamesStored conversions message "user_id" before.users ∧
            NamesStored conversions message "job_id" before.jobs ↔ before.ReferredByAudit row := by
          rw [NamesStored, NamesStored, NamesStored, tenant, ← user, ← job, EventTables.ReferredByAudit,
            Option.all_some]
        simp only [EventRecorded, ReferencesStored, mapped, whole, true_implies, EventTables.handleAudit, reads,
          stored, ← List.count_pos_iff]
        exact recorded
      · simp only [EventRecorded, ReferencesStored]
        exact ⟨fun _ _ mapped whole => absurd ⟨mapped, whole⟩ malformed,
          fun _ _ mapped whole => absurd ⟨mapped, whole⟩ malformed⟩

theorem handle_tables {Row : Type} {insert : Row → Option EventTables} {reading : Reading Row} :
    (before.handle insert connection reading).2 = before ∨
      ∃ row, insert row = some (before.handle insert connection reading).2 := by
  cases reading with
  | skip => exact .inl rfl
  | raise => exact .inl rfl
  | insert row =>
      cases outcome : insert row with
      | none => cases connection <;> simp [EventTables.handle, outcome]
      | some after =>
          cases connection with
          | lost => exact .inl rfl
          | kept => exact .inr ⟨row, by simp [EventTables.handle, outcome]⟩
          | lostAfterCommit => exact .inr ⟨row, by simp [EventTables.handle, outcome]⟩

theorem RecordedOnce.insertEvent {row : JobEvent} (once : RecordedOnce before)
    (inserted : before.insertEvent row = some after) : RecordedOnce after := by
  obtain ⟨_, fresh, same⟩ | ⟨_, same⟩ := @insertEvent_cases before row
  · cases same.symm.trans inserted
    refine ⟨fun coordinates => ?_, once.audits⟩
    rw [List.map_append]
    exact count_append_le fresh (once.events coordinates)
  · cases same.symm.trans inserted

theorem RecordedOnce.insertAudit {row : AuditLog} (once : RecordedOnce before)
    (inserted : before.insertAudit row = some after) : RecordedOnce after := by
  obtain ⟨_, fresh, same⟩ | ⟨_, same⟩ := @insertAudit_cases before row
  · cases same.symm.trans inserted
    refine ⟨once.events, fun coordinates => ?_⟩
    rw [List.map_append]
    by_cases named : row.coordinates.isSome
    · exact count_append_le (fresh named) (once.audits coordinates)
    · have unnamed := Option.not_isSome_iff_eq_none.mp named
      simpa [unnamed] using once.audits coordinates
  · cases same.symm.trans inserted

theorem RecordedOnce.step (once : RecordedOnce before)
    (stepped : EventTables.step conversions action before = some after) : RecordedOnce after := by
  cases action with
  | eventLog message connection =>
      cases stepped
      obtain same | ⟨row, inserted⟩ := @handle_tables connection before _ before.insertEvent
        (JobEvent.reading conversions message)
      · rw [EventTables.handleEvent, same]
        exact once
      · exact once.insertEvent inserted
  | audit message connection =>
      cases stepped
      obtain same | ⟨row, inserted⟩ := @handle_tables connection before _ before.insertAudit
        (AuditLog.reading conversions message)
      · rw [EventTables.handleAudit, same]
        exact once
      · exact once.insertAudit inserted
  | logged row =>
      simp only [EventTables.step] at stepped
      split at stepped
      · exact once.insertAudit stepped
      · contradiction
  | changed tenants users jobs =>
      simp only [EventTables.step, EventTables.change] at stepped
      split at stepped
      · cases stepped
        refine ⟨once.events, fun coordinates => ?_⟩
        simpa [List.map_map, Function.comp_def] using once.audits coordinates
      · contradiction

/-- A delivery that returns leaves exactly one row for its event, exactly if the
event was recorded or the rows that its own refers to are stored. -/
theorem events_recorded_iff
    (ran : (EventTables.machine conversions tenants users jobs).Run steps last) :
    ∀ taken ∈ steps, EventRecorded conversions taken.1 taken.2 ↔ ReferencesStored conversions taken.1 taken.2 := by
  intro taken member
  have once : RecordedOnce taken.1 := by
    apply ran.everywhere _ (fun (once : RecordedOnce _) stepped => once.step stepped)
    · exact List.mem_cons_of_mem _ (List.mem_map_of_mem member)
    · exact ⟨by simp [EventTables.machine], by simp [EventTables.machine]⟩
  exact eventRecorded_iff once

/-- The conversions on the texts of the message below. -/
def plainConversions : Conversions where
  uuid := fun text => [
    ("11111111-1111-1111-1111-111111111111", 0x11111111111111111111111111111111),
    ("22222222-2222-2222-2222-222222222222", 0x22222222222222222222222222222222),
    ("33333333-3333-3333-3333-333333333333", 0x33333333333333333333333333333333)].lookup text
  uuid_empty := by decide
  nonzero := fun literal => literal ≠ "0"
  str := fun value =>
    match value with
    | .string text => text
    | _ => ""

def submittedMessage : KafkaMessage where
  coordinates := { topic := "job.submitted", partition := 0, offset := 7 }
  value := .object [("event", .string "job.submitted"),
    ("tenant_id", .string "11111111-1111-1111-1111-111111111111"),
    ("job_id", .string "22222222-2222-2222-2222-222222222222"),
    ("user_id", .string "33333333-3333-3333-3333-333333333333")]

/-- A message of a stored job, delivered again after the connection was lost. -/
theorem redelivered_event_recorded : ∃ (steps : List (EventTables × EventTables.Action)) (last : EventTables),
    (EventTables.machine plainConversions (fun _ => true) (fun _ => true) (fun _ => true)).Run steps last ∧
      steps.length = 2 ∧ ∀ taken ∈ steps, EventRecorded plainConversions taken.1 taken.2 := by
  let start := (EventTables.machine plainConversions (fun _ => true) (fun _ => true) (fun _ => true)).initial
  let first := (start.handleAudit plainConversions submittedMessage .lostAfterCommit).2
  let last := (first.handleAudit plainConversions submittedMessage .kept).2
  have ran : (EventTables.machine plainConversions (fun _ => true) (fun _ => true) (fun _ => true)).Run
      [(first, .audit submittedMessage .kept), (start, .audit submittedMessage .lostAfterCommit)] last :=
    .step (.step .start rfl) rfl
  refine ⟨_, last, ran, rfl, fun taken member => (events_recorded_iff ran taken member).mpr ?_⟩
  obtain rfl | ⟨⟨⟩⟩ | none := by simpa only [List.mem_cons] using member
  · exact fun _ _ _ => .inl (by decide +kernel)
  · exact fun _ _ _ => .inr (by decide +kernel)
  · contradiction

/-- The user is gone by the time the message arrives: the INSERT fails, and the
message is taken for recorded. -/
theorem event_of_deleted_user_lost : ∃ (steps : List (EventTables × EventTables.Action)) (last : EventTables),
    (EventTables.machine plainConversions (fun _ => true) (fun _ => false) (fun _ => true)).Run steps last ∧
      ∃ taken ∈ steps, ¬ EventRecorded plainConversions taken.1 taken.2 := by
  let start := (EventTables.machine plainConversions (fun _ => true) (fun _ => false) (fun _ => true)).initial
  refine ⟨[(start, .audit submittedMessage .kept)], _, .step .start rfl, _, List.mem_cons_self, fun recorded => ?_⟩
  have once := recorded (by decide +kernel) ⟨"job.submitted", by decide, rfl⟩ (by unfold HasTenant; decide +kernel)
  revert once
  decide +kernel

end IncidentPlatform.Properties

import IncidentPlatform.Mcp.DlqActions

namespace IncidentPlatform.Properties

open Concurrency Mcp Models Services Storage

/-! # Hints, fences and the episodes they belong to

A transaction that has written the row keeps it until it ends, so what it commits
is its own write on the row as last committed.
-/

variable {draft : JobDraft} {id : Uuid} {start : Time} {dlq after : DlqJob} {action : DlqAction}
  {task other : Nat} {phase : DlqPhase} {base row : Job}

def Wrote : DlqPhase → Job → Job → Prop
  | .marked hint stamps, base, row => ∃ loaded now principal, row = markPermanent loaded now principal base ∧
      hint = decide (loaded.remediationHint ≠ some RemediationHint.humanRequired.text) ∧
      stamps = decide (loaded.fencedAt ≠ some now ∨ loaded.fencedBy ≠ some principal)
  | .stored _ true, base, row => base.remediationHint = none ∧
      ∃ hint : RemediationHint, row = { base with remediationHint := some hint.text }
  | .replayed _, base, row => ∃ now, row = replayWrite.apply now base
  | _, _, _ => False

def hasWritten : DlqPhase → Bool
  | .marked .. | .stored _ true | .replayed _ => true
  | _ => false

theorem hasWritten_of_wrote (wrote : Wrote phase base row) : hasWritten phase = true := by
  cases phase with
  | marked hint stamps => rfl
  | replayed caller => rfl
  | stored episode written =>
      cases written with
      | true => rfl
      | false => exact wrote.elim
  | _ => exact wrote.elim

structure RowLocked (dlq : DlqJob) : Prop where
  held : ∀ task row, dlq.job.holder = some (task, row) →
    ∃ base, dlq.job.committed = some base ∧ Wrote (dlq.phase task) base row
  writing : ∀ task, hasWritten (dlq.phase task) = true → ∃ row, dlq.job.holder = some (task, row)

theorem rowFor_cases {slot : Slot Job} (found : DlqJob.rowFor slot task = some row) :
    slot.holder = none ∧ slot.committed = some row ∨ slot.holder = some (task, row) := by
  unfold DlqJob.rowFor at found
  split at found
  · rename_i owner held
    split at found
    · rename_i same
      cases found
      exact .inr (by rw [held, same])
    · cases found
  · rename_i free
    exact .inl ⟨free, found⟩

/-- The phases of a task that is on its way to a replay of the job. -/
def pursues : DlqPhase → Bool
  | .called | .listed | .promoting _ | .replaying _ | .replayed _ => true
  | _ => false

def unarmed (dlq : DlqJob) : Prop := dlq.scheduled = [] ∧ dlq.inflight = []

inductive DlqStep (dlq : DlqJob) : DlqAction → DlqJob → Prop where
  | run {write : StatusWrite} {now : Time} {row : Job} (free : dlq.job.holder = none)
      (stored : dlq.job.committed = some row) (alive : row.status ≠ .deadLetter)
      (silent : write.remediationHint = none ∧ write.fencedAt = none ∧ write.fencedBy = none) :
      DlqStep dlq (.run write now) { dlq with
        job := { dlq.job with committed := some (write.apply now row) }
        episodes := if write.status = .deadLetter then dlq.episodes + 1 else dlq.episodes }
  | turn {action : DlqAction} {task : Nat} {next : DlqPhase} (uncommitted : ∀ task, action ≠ .commit task)
      (unwritten : hasWritten (dlq.phase task) = false) (plain : hasWritten next = false)
      (pursuit : pursues next = true → pursues (dlq.phase task) = true ∨
        ∃ row category, dlq.job.visible task = some row ∧
          row.remediationHint = some (RemediationHint.text category) ∧ category.replayable = true) :
      DlqStep dlq action (dlq.move task next)
  | rearm {action : DlqAction} {task : Nat} {next : DlqPhase} {scheduled inflight : List Uuid}
      (uncommitted : ∀ task, action ≠ .commit task)
      (unwritten : hasWritten (dlq.phase task) = false) (plain : hasWritten next = false)
      (pursuit : pursues next = true → ¬ unarmed dlq)
      (entries : unarmed dlq → pursues (dlq.phase task) = false → scheduled = [] ∧ inflight = []) :
      DlqStep dlq action { dlq.move task next with scheduled, inflight }
  | call {task : Nat} (found : dlq.phase task = .idle) :
      DlqStep dlq (.callReplay task) { dlq.move task .called with fenced := false }
  | flush {task : Nat} {loaded row : Job} {now : Time} {principal : String}
      (found : dlq.phase task = .marking loaded) (taken : DlqJob.rowFor dlq.job task = some row) :
      DlqStep dlq (.flushMark task now principal)
        ((dlq.withJob (dlq.job.write task (markPermanent loaded now principal row))).move task
          (.marked (loaded.remediationHint ≠ some RemediationHint.humanRequired.text)
            (loaded.fencedAt ≠ some now ∨ loaded.fencedBy ≠ some principal)))
  | setHint {task episode : Nat} {hint : RemediationHint} {row : Job}
      (found : dlq.phase task = .storing episode hint) (taken : DlqJob.rowFor dlq.job task = some row)
      (unset : row.remediationHint = none) :
      DlqStep dlq (.setHint task) ((dlq.withJob (dlq.job.write task
        { row with remediationHint := some hint.text })).move task (.stored episode true))
  | writeReplay {task : Nat} {now : Time} {caller : ReplayCaller} {row : Job}
      (unwritten : hasWritten (dlq.phase task) = false) (pursuit : pursues (dlq.phase task) = true)
      (taken : DlqJob.rowFor dlq.job task = some row) :
      DlqStep dlq (.writeReplay task now) ((dlq.withJob (dlq.job.write task
        (replayWrite.apply now row))).move task (.replayed caller))
  | commitMark {task : Nat} {hint stamps : Bool} (found : dlq.phase task = .marked hint stamps) :
      DlqStep dlq (.commit task) { (dlq.withJob (dlq.job.commit task)).move task .idle with
        hintEpisode := if hint then dlq.episodes else dlq.hintEpisode
        fenceEpisode := if stamps then dlq.episodes else dlq.fenceEpisode
        fenced := dlq.fenced || (dlq.job.visible task).any fun row => row.status = .deadLetter }
  | commitStored {task episode : Nat} {written : Bool} (found : dlq.phase task = .stored episode written) :
      DlqStep dlq (.commit task) { (dlq.withJob (dlq.job.commit task)).move task .idle with
        hintEpisode := if written then episode else dlq.hintEpisode }
  | commitReplay {task : Nat} {caller : ReplayCaller} (found : dlq.phase task = .replayed caller) :
      DlqStep dlq (.commit task) ((dlq.withJob (dlq.job.commit task)).move task caller.after)
  | commitArmed {task : Nat} {principal : Uuid} (found : dlq.phase task = .armed principal) :
      DlqStep dlq (.commit task) ((dlq.withJob (dlq.job.commit task)).move task .idle)
  | abort {task : Nat} :
      DlqStep dlq (.abort task) ((dlq.withJob (dlq.job.rollback task)).move task .idle)

theorem dlqStep_cases (stepped : (dlqActions draft id start).step action dlq = some after) :
    DlqStep dlq action after := by
  simp only [dlqActions] at stepped
  cases action with
  | run write now =>
      simp only [DlqJob.step] at stepped
      split at stepped
      · rename_i row free stored
        split at stepped
        · contradiction
        · rename_i alive
          split at stepped
          · contradiction
          · rename_i silent
            cases stepped
            exact .run free stored alive (by simpa [not_or] using silent)
      · contradiction
  | mark task =>
      simp only [DlqJob.step] at stepped
      split at stepped
      · rename_i row found seen
        split at stepped
        · cases stepped
          exact .turn (by simp) (by rw [found]; rfl) rfl (by intro pursued; cases pursued)
        · contradiction
      · contradiction
  | flushMark task now principal =>
      simp only [DlqJob.step] at stepped
      split at stepped
      · rename_i found taken
        cases stepped
        exact .flush found taken
      · contradiction
  | consume task episode =>
      simp only [DlqJob.step] at stepped
      split at stepped
      · rename_i found
        split at stepped
        · cases stepped
          exact .turn (by simp) (by rw [found]; rfl) rfl (by intro pursued; cases pursued)
        · contradiction
      · contradiction
  | analyse task analysis =>
      simp only [DlqJob.step] at stepped
      split at stepped
      · rename_i found _
        cases stepped
        exact .turn (by simp) (by rw [found]; rfl) rfl (by intro pursued; cases pursued)
      · rename_i found _
        cases stepped
        exact .turn (by simp) (by rw [found]; rfl) rfl (by intro pursued; cases pursued)
      · contradiction
  | setHint task =>
      simp only [DlqJob.step] at stepped
      split at stepped
      · rename_i found taken
        split at stepped
        · rename_i unset
          cases stepped
          exact .setHint found taken unset
        · cases stepped
          exact .turn (by simp) (by rw [found]; rfl) rfl (by intro pursued; cases pursued)
      · contradiction
  | callReplay task =>
      simp only [DlqJob.step] at stepped
      split at stepped
      · rename_i found
        cases stepped
        exact .call found
      · contradiction
  | list task category =>
      simp only [DlqJob.step] at stepped
      split at stepped
      · rename_i row found seen
        split at stepped
        · rename_i listed
          cases stepped
          exact .turn (by simp) (by rw [found]; rfl) rfl fun _ => .inr ⟨row, category, seen, listed.2.2, listed.1⟩
        · contradiction
      · contradiction
  | load task =>
      simp only [DlqJob.step] at stepped
      split at stepped
      · rename_i row found seen
        cases stepped
        refine .turn (by simp) (by rw [found]; rfl) ?_ fun _ => .inl (by rw [found]; rfl)
        split <;> rfl
      · rename_i row found seen
        cases stepped
        refine .turn (by simp) (by rw [found]; rfl) ?_ fun _ => .inl (by rw [found]; rfl)
        split <;> rfl
      · contradiction
  | refuse task =>
      simp only [DlqJob.step] at stepped
      split at stepped
      · rename_i found
        cases stepped
        exact .turn (by simp) (by rw [found]; rfl) rfl (by intro pursued; cases pursued)
      · rename_i found
        cases stepped
        exact .turn (by simp) (by rw [found]; rfl) rfl (by intro pursued; cases pursued)
      · rename_i found
        cases stepped
        exact .turn (by simp) (by rw [found]; rfl) rfl (by intro pursued; cases pursued)
      · rename_i caller found
        cases stepped
        refine .turn (by simp) (by rw [found]; rfl) ?_ fun _ => .inl (by rw [found]; rfl)
        cases caller <;> rfl
      · contradiction
  | writeReplay task now =>
      simp only [DlqJob.step] at stepped
      split at stepped
      · rename_i found taken
        cases stepped
        exact .writeReplay (by rw [found]; rfl) (by rw [found]; rfl) taken
      · rename_i found taken
        cases stepped
        exact .writeReplay (by rw [found]; rfl) (by rw [found]; rfl) taken
      · contradiction
  | arm task principal =>
      simp only [DlqJob.step] at stepped
      split at stepped
      · rename_i found
        cases stepped
        refine .rearm (by simp) (by rw [found]; rfl) rfl (by intro pursued; cases pursued) fun _ idle => ?_
        rw [found] at idle
        cases idle
      · rename_i found _
        split at stepped
        · cases stepped
          refine .rearm (by simp) (by rw [found]; rfl) rfl (by intro pursued; cases pursued) fun _ idle => ?_
          rw [found] at idle
          cases idle
        · cases stepped
          exact .turn (by simp) (by rw [found]; rfl) rfl (by intro pursued; cases pursued)
      · contradiction
  | cancel task =>
      simp only [DlqJob.step] at stepped
      split at stepped
      · rename_i found
        cases stepped
        refine .rearm (by simp) (by rw [found]; rfl) rfl (by intro pursued; cases pursued) ?_
        rintro ⟨noneScheduled, noneInflight⟩ _
        exact ⟨by rw [noneScheduled]; rfl, noneInflight⟩
      · contradiction
  | claim task principal =>
      simp only [DlqJob.step] at stepped
      split at stepped
      · rename_i found
        split at stepped
        · rename_i known
          cases stepped
          have armed : ¬ unarmed dlq := by
            rintro ⟨noneScheduled, noneInflight⟩
            simp [noneScheduled, noneInflight] at known
          exact .rearm (by simp) (by rw [found]; rfl) rfl (fun _ => armed) fun none => absurd none armed
        · contradiction
      · contradiction
  | defer task =>
      simp only [DlqJob.step] at stepped
      split at stepped
      · rename_i found
        cases stepped
        refine .rearm (by simp) (by rw [found]; rfl) rfl (by intro pursued; cases pursued) fun _ idle => ?_
        rw [found] at idle
        cases idle
      · contradiction
  | ack task =>
      simp only [DlqJob.step] at stepped
      split at stepped
      · rename_i found
        cases stepped
        refine .rearm (by simp) (by rw [found]; rfl) rfl (by intro pursued; cases pursued) ?_
        rintro ⟨noneScheduled, noneInflight⟩ _
        exact ⟨noneScheduled, by rw [noneInflight]; rfl⟩
      · contradiction
  | commit task =>
      simp only [DlqJob.step] at stepped
      split at stepped
      · rename_i found
        cases stepped
        exact .commitMark found
      · rename_i found
        cases stepped
        exact .commitStored found
      · rename_i found
        cases stepped
        exact .commitReplay found
      · rename_i found
        cases stepped
        exact .commitArmed found
      · contradiction
  | abort task =>
      cases stepped
      exact .abort

def TaskMoved (dlq after : DlqJob) (task : Nat) (next : DlqPhase) : Prop :=
  ∀ other, after.phase other = if other = task then next else dlq.phase other

theorem TaskMoved.cases {next : DlqPhase} (moved : TaskMoved dlq after task next) (other : Nat) :
    other = task ∧ after.phase other = next ∨ other ≠ task ∧ after.phase other = dlq.phase other := by
  by_cases same : other = task
  · exact .inl ⟨same, by rw [moved other, if_pos same]⟩
  · exact .inr ⟨same, by rw [moved other, if_neg same]⟩

section Locks

variable {next : DlqPhase}

theorem RowLocked.quiet (locked : RowLocked dlq) (moved : TaskMoved dlq after task next)
    (job : after.job = dlq.job) (unwritten : hasWritten (dlq.phase task) = false)
    (plain : hasWritten next = false) : RowLocked after := by
  refine ⟨fun owner row held => ?_, fun writer writes => ?_⟩
  · rw [job] at held ⊢
    obtain ⟨base, stored, wrote⟩ := locked.held owner row held
    refine ⟨base, stored, ?_⟩
    obtain ⟨rfl, _⟩ | ⟨_, same⟩ := moved.cases owner
    · rw [hasWritten_of_wrote wrote] at unwritten
      cases unwritten
    · rw [same]
      exact wrote
  · rw [job]
    obtain ⟨_, now⟩ | ⟨_, same⟩ := moved.cases writer
    · rw [now, plain] at writes
      cases writes
    · exact locked.writing writer (same ▸ writes)

theorem RowLocked.take (locked : RowLocked dlq) (moved : TaskMoved dlq after task next)
    (free : dlq.job.holder = none) (stored : dlq.job.committed = some base)
    (job : after.job = dlq.job.write task row) (wrote : Wrote next base row) : RowLocked after := by
  refine ⟨fun owner version held => ?_, fun writer writes => ?_⟩
  · rw [job] at held ⊢
    cases held
    refine ⟨base, stored, ?_⟩
    rw [moved task, if_pos rfl]
    exact wrote
  · rw [job]
    obtain ⟨rfl, _⟩ | ⟨_, same⟩ := moved.cases writer
    · exact ⟨row, rfl⟩
    · obtain ⟨version, held⟩ := locked.writing writer (same ▸ writes)
      rw [free] at held
      cases held

theorem RowLocked.letGo (locked : RowLocked dlq) (moved : TaskMoved dlq after task next)
    (held : dlq.job.holder = some (task, row)) (job : after.job.holder = none)
    (plain : hasWritten next = false) : RowLocked after := by
  refine ⟨fun owner version kept => ?_, fun writer writes => ?_⟩
  · rw [job] at kept
    cases kept
  · obtain ⟨_, now⟩ | ⟨different, same⟩ := moved.cases writer
    · rw [now, plain] at writes
      cases writes
    · obtain ⟨version, kept⟩ := locked.writing writer (same ▸ writes)
      rw [held] at kept
      cases kept
      exact absurd rfl different

theorem RowLocked.taken (locked : RowLocked dlq) (unwritten : hasWritten (dlq.phase task) = false)
    (taken : DlqJob.rowFor dlq.job task = some row) :
    dlq.job.holder = none ∧ dlq.job.committed = some row := by
  obtain free | held := rowFor_cases taken
  · exact free
  · obtain ⟨base, _, wrote⟩ := locked.held task row held
    rw [hasWritten_of_wrote wrote] at unwritten
    cases unwritten

theorem RowLocked.sees (locked : RowLocked dlq) (unwritten : hasWritten (dlq.phase task) = false)
    (seen : dlq.job.visible task = some row) : dlq.job.committed = some row := by
  rw [Slot.visible_of_free] at seen
  · exact seen
  · intro version held
    obtain ⟨base, _, wrote⟩ := locked.held task version held
    rw [hasWritten_of_wrote wrote] at unwritten
    cases unwritten

theorem RowLocked.ends (locked : RowLocked dlq) (moved : TaskMoved dlq after task next)
    (plain : hasWritten next = false)
    (job : after.job = dlq.job.commit task ∨ after.job = dlq.job.rollback task) : RowLocked after := by
  by_cases holds : ∃ row, dlq.job.holder = some (task, row)
  · obtain ⟨row, held⟩ := holds
    refine locked.letGo moved held ?_ plain
    obtain committed | undone := job
    · rw [committed]
      simp [Slot.commit, held]
    · rw [undone]
      simp [Slot.rollback, held]
  · have unwritten : hasWritten (dlq.phase task) = false := by
      by_contra writes
      exact holds (locked.writing task (by simpa using writes))
    have unheld : ∀ row, dlq.job.holder ≠ some (task, row) := fun row held => holds ⟨row, held⟩
    refine locked.quiet moved ?_ unwritten plain
    obtain committed | undone := job
    · obtain ⟨row, held, _⟩ | ⟨_, same⟩ := dlq.job.commit_cases task
      · exact absurd held (unheld row)
      · rw [committed, same]
    · obtain ⟨row, held, _⟩ | ⟨_, same⟩ := dlq.job.rollback_cases task
      · exact absurd held (unheld row)
      · rw [undone, same]

theorem RowLocked.step (locked : RowLocked dlq)
    (stepped : (dlqActions draft id start).step action dlq = some after) : RowLocked after := by
  cases dlqStep_cases stepped with
  | run free stored alive silent =>
      refine ⟨fun owner row held => ?_, fun writer writes => ?_⟩
      · rw [free] at held
        cases held
      · obtain ⟨row, held⟩ := locked.writing writer writes
        rw [free] at held
        cases held
  | turn uncommitted unwritten plain pursuit => exact locked.quiet (fun _ => rfl) rfl unwritten plain
  | rearm uncommitted unwritten plain pursuit entries =>
      exact locked.quiet (fun _ => rfl) rfl unwritten plain
  | call found => exact locked.quiet (fun _ => rfl) rfl (by rw [found]; rfl) rfl
  | flush found taken =>
      obtain ⟨free, stored⟩ := locked.taken (by rw [found]; rfl) taken
      exact locked.take (fun _ => rfl) free stored rfl ⟨_, _, _, rfl, rfl, rfl⟩
  | setHint found taken unset =>
      obtain ⟨free, stored⟩ := locked.taken (by rw [found]; rfl) taken
      exact locked.take (fun _ => rfl) free stored rfl ⟨unset, _, rfl⟩
  | writeReplay unwritten pursuit taken =>
      obtain ⟨free, stored⟩ := locked.taken unwritten taken
      exact locked.take (fun _ => rfl) free stored rfl ⟨_, rfl⟩
  | commitMark found => exact locked.ends (fun _ => rfl) rfl (.inl rfl)
  | commitStored found => exact locked.ends (fun _ => rfl) rfl (.inl rfl)
  | commitReplay found =>
      rename_i caller
      exact locked.ends (fun _ => rfl) (by cases caller <;> rfl) (.inl rfl)
  | commitArmed found => exact locked.ends (fun _ => rfl) rfl (.inl rfl)
  | abort => exact locked.ends (fun _ => rfl) rfl (.inr rfl)

theorem rowLocked_initial : RowLocked (dlqActions draft id start).initial := by
  refine ⟨fun owner row held => ?_, fun writer writes => ?_⟩
  · cases held
  · cases writes

end Locks

def carries (job : Job) : Prop :=
  job.remediationHint.isSome = true ∨ job.fencedAt.isSome = true ∨ job.fencedBy.isSome = true

/-- The hint and the stamps of the row are those of the episode that the job is in. -/
def EpisodeScoped (dlq : DlqJob) : Prop :=
  ∀ row, dlq.job.committed = some row →
    (row.remediationHint.isSome = true → row.status = .deadLetter ∧ dlq.hintEpisode = dlq.episodes) ∧
    (row.fencedAt.isSome = true ∨ row.fencedBy.isSome = true →
      row.status = .deadLetter ∧ dlq.fenceEpisode = dlq.episodes)

/-- A fence or a triage that commits a hint or a stamp does so while the job is
still in DEAD_LETTER, and a triage in the episode of its event. -/
def landsInEpisode (dlq : DlqJob) : DlqAction → Prop
  | .commit task => ∀ row, dlq.job.holder = some (task, row) → carries row →
      row.status = .deadLetter ∧
        ∀ episode, dlq.phase task = .stored episode true → episode = dlq.episodes
  | _ => True

theorem replayWrite_clears (now : Time) (job : Job) : ¬ carries (replayWrite.apply now job) := by
  simp [carries, StatusWrite.apply, replayWrite]

theorem EpisodeScoped.bare (good : EpisodeScoped dlq) (stored : dlq.job.committed = some row)
    (alive : row.status ≠ .deadLetter) : ¬ carries row := by
  rintro (hinted | stamped)
  · exact alive ((good row stored).1 hinted).1
  · exact alive ((good row stored).2 stamped).1

theorem EpisodeScoped.of_bare (stored : dlq.job.committed = some row) (bare : ¬ carries row) :
    EpisodeScoped dlq := by
  intro other found
  rw [stored] at found
  cases found
  exact ⟨fun hinted => absurd (.inl hinted) bare, fun stamped => absurd (.inr stamped) bare⟩

theorem EpisodeScoped.congr (good : EpisodeScoped dlq)
    (committed : after.job.committed = dlq.job.committed) (episodes : after.episodes = dlq.episodes)
    (hintEpisode : after.hintEpisode = dlq.hintEpisode)
    (fenceEpisode : after.fenceEpisode = dlq.fenceEpisode) : EpisodeScoped after := by
  unfold EpisodeScoped at good ⊢
  rw [committed, episodes, hintEpisode, fenceEpisode]
  exact good

theorem flushColumn_same {Value : Type} [DecidableEq Value] {loaded value current : Value}
    (same : value = loaded) : flushColumn loaded value current = current := by
  simp [flushColumn, same]

theorem commitMark_scoped {hint stamps : Bool} (good : EpisodeScoped dlq)
    (stored : dlq.job.committed = some base) (wrote : Wrote (.marked hint stamps) base row)
    (committed : after.job.committed = some row) (episodes : after.episodes = dlq.episodes)
    (hintEpisode : after.hintEpisode = if hint then dlq.episodes else dlq.hintEpisode)
    (fenceEpisode : after.fenceEpisode = if stamps then dlq.episodes else dlq.fenceEpisode) :
    EpisodeScoped after ↔ (carries row → row.status = .deadLetter) := by
  obtain ⟨loaded, now, principal, rfl, rfl, rfl⟩ := wrote
  constructor
  · rintro fine (hinted | stamped)
    · exact ((fine _ committed).1 hinted).1
    · exact ((fine _ committed).2 stamped).1
  · intro dead other found
    rw [committed] at found
    cases found
    rw [episodes, hintEpisode, fenceEpisode]
    refine ⟨fun hinted => ⟨dead (.inl hinted), ?_⟩, fun stamped => ⟨dead (.inr stamped), ?_⟩⟩
    · by_cases same : loaded.remediationHint = some RemediationHint.humanRequired.text
      · simp only [markPermanent, flushColumn_same same.symm] at hinted
        simpa [same] using ((good base stored).1 hinted).2
      · simp [same]
    · by_cases same : loaded.fencedAt = some now ∧ loaded.fencedBy = some principal
      · simp only [markPermanent, flushColumn_same same.1.symm, flushColumn_same same.2.symm] at stamped
        simpa [same] using ((good base stored).2 stamped).2
      · have written : loaded.fencedAt ≠ some now ∨ loaded.fencedBy ≠ some principal :=
          not_and_or.mp same
        simp [written]

theorem commitStored_scoped {episode : Nat} (good : EpisodeScoped dlq)
    (stored : dlq.job.committed = some base) (wrote : Wrote (.stored episode true) base row)
    (committed : after.job.committed = some row) (episodes : after.episodes = dlq.episodes)
    (hintEpisode : after.hintEpisode = episode) (fenceEpisode : after.fenceEpisode = dlq.fenceEpisode) :
    EpisodeScoped after ↔ row.status = .deadLetter ∧ episode = dlq.episodes := by
  obtain ⟨_, hint, rfl⟩ := wrote
  constructor
  · intro fine
    have hinted := (fine _ committed).1 rfl
    rw [hintEpisode, episodes] at hinted
    exact hinted
  · rintro ⟨dead, same⟩ other found
    rw [committed] at found
    cases found
    rw [episodes, hintEpisode, fenceEpisode]
    exact ⟨fun _ => ⟨dead, same⟩, (good base stored).2⟩

theorem commit_unheld (locked : RowLocked dlq) (unwritten : hasWritten (dlq.phase task) = false) :
    (∀ row, dlq.job.holder ≠ some (task, row)) ∧ dlq.job.commit task = dlq.job := by
  obtain ⟨row, held, _⟩ | unheld := dlq.job.commit_cases task
  · obtain ⟨base, _, wrote⟩ := locked.held task row held
    rw [hasWritten_of_wrote wrote] at unwritten
    cases unwritten
  · exact unheld

theorem commit_written (locked : RowLocked dlq) (written : hasWritten (dlq.phase task) = true) :
    ∃ base row, dlq.job.holder = some (task, row) ∧ dlq.job.committed = some base ∧
      Wrote (dlq.phase task) base row ∧ dlq.job.commit task = { committed := some row, holder := none } := by
  obtain ⟨row, held⟩ := locked.writing task written
  obtain ⟨base, stored, wrote⟩ := locked.held task row held
  exact ⟨base, row, held, stored, wrote, by simp [Slot.commit, held]⟩

theorem episodeScoped_step_iff (locked : RowLocked dlq) (good : EpisodeScoped dlq)
    (stepped : (dlqActions draft id start).step action dlq = some after) :
    EpisodeScoped after ↔ landsInEpisode dlq action := by
  have unlanded : (∀ task, action ≠ .commit task) → EpisodeScoped after →
      (EpisodeScoped after ↔ landsInEpisode dlq action) := by
    intro other fine
    have lands : landsInEpisode dlq action := by
      cases action with
      | commit task => exact absurd rfl (other task)
      | _ => trivial
    exact ⟨fun _ => lands, fun _ => fine⟩
  cases dlqStep_cases stepped with
  | run free stored alive silent =>
      refine ⟨fun _ => trivial, fun _ => ?_⟩
      refine EpisodeScoped.of_bare rfl ?_
      have bare := good.bare stored alive
      simpa [carries, StatusWrite.apply, silent] using bare
  | turn uncommitted unwritten plain pursuit =>
      exact unlanded uncommitted (good.congr rfl rfl rfl rfl)
  | rearm uncommitted unwritten plain pursuit entries =>
      exact unlanded uncommitted (good.congr rfl rfl rfl rfl)
  | call found => exact unlanded (by simp) (good.congr rfl rfl rfl rfl)
  | flush found taken => exact unlanded (by simp) (good.congr rfl rfl rfl rfl)
  | setHint found taken unset => exact unlanded (by simp) (good.congr rfl rfl rfl rfl)
  | writeReplay unwritten pursuit taken =>
      exact unlanded (by simp) (good.congr rfl rfl rfl rfl)
  | @commitMark task hint stamps found =>
      obtain ⟨base, row, held, stored, wrote, published⟩ := commit_written locked (by rw [found]; rfl)
      rw [found] at wrote
      have committed : (dlq.job.commit task).committed = some row := congrArg Slot.committed published
      refine Iff.trans (commitMark_scoped good stored wrote committed rfl rfl rfl) ?_
      constructor
      · intro dead version heldToo carried
        rw [held] at heldToo
        cases heldToo
        refine ⟨dead carried, fun episode other => ?_⟩
        rw [found] at other
        cases other
      · exact fun lands carried => (lands row held carried).1
  | @commitStored task episode written found =>
      cases written with
      | false =>
          obtain ⟨unheld, same⟩ := commit_unheld locked (by rw [found]; rfl)
          have lands : landsInEpisode dlq (.commit task) :=
            fun row held => absurd held (unheld row)
          have committed : (dlq.job.commit task).committed = dlq.job.committed :=
            congrArg Slot.committed same
          exact ⟨fun _ => lands, fun _ => good.congr committed rfl rfl rfl⟩
      | true =>
          obtain ⟨base, row, held, stored, wrote, published⟩ := commit_written locked (by rw [found]; rfl)
          rw [found] at wrote
          have committed : (dlq.job.commit task).committed = some row := congrArg Slot.committed published
          refine Iff.trans (commitStored_scoped good stored wrote committed rfl rfl rfl) ?_
          constructor
          · rintro ⟨dead, same⟩ version heldToo carried
            rw [held] at heldToo
            cases heldToo
            refine ⟨dead, fun other phase => ?_⟩
            rw [found] at phase
            cases phase
            exact same
          · intro lands
            obtain ⟨_, hint, hinted⟩ := wrote
            obtain ⟨dead, same⟩ := lands row held (.inl (by rw [hinted]; rfl))
            exact ⟨dead, same episode found⟩
  | @commitReplay task caller found =>
      obtain ⟨base, row, held, stored, wrote, published⟩ := commit_written locked (by rw [found]; rfl)
      rw [found] at wrote
      obtain ⟨now, rfl⟩ := wrote
      have bare := replayWrite_clears now base
      refine ⟨fun _ version heldToo carried => ?_, fun _ => ?_⟩
      · rw [held] at heldToo
        cases heldToo
        exact absurd carried bare
      · exact EpisodeScoped.of_bare (congrArg Slot.committed published) bare
  | @commitArmed task principal found =>
      obtain ⟨unheld, same⟩ := commit_unheld locked (by rw [found]; rfl)
      have lands : landsInEpisode dlq (.commit task) := fun row held => absurd held (unheld row)
      have committed : (dlq.job.commit task).committed = dlq.job.committed := congrArg Slot.committed same
      exact ⟨fun _ => lands, fun _ => good.congr committed rfl rfl rfl⟩
  | @abort task =>
      have committed : (dlq.job.rollback task).committed = dlq.job.committed := Slot.rollback_committed
      exact unlanded (by simp) (good.congr committed rfl rfl rfl)

section Runs

variable {steps : List (DlqJob × DlqAction)} {last : DlqJob}

/-- In a run the hint and the stamps are always those of the episode that the job
is in, exactly if every fence and every triage lands in its episode. -/
theorem hint_scoped_iff (ran : (dlqActions draft id start).Run steps last) :
    (∀ state ∈ Machine.visited steps last, EpisodeScoped state) ↔
      ∀ taken ∈ steps, landsInEpisode taken.1 taken.2 := by
  refine Machine.Run.always_iff_within RowLocked ran ?_ rowLocked_initial RowLocked.step
    episodeScoped_step_iff
  refine EpisodeScoped.of_bare rfl ?_
  rintro (hinted | stamped | stamped)
  · cases hinted
  · cases stamped
  · cases stamped

def shownDraft : JobDraft where
  tenantId := 1
  userId := 2
  type := "report_gen"
  status := .pending
  maxAttempts := 3

def deadLettered : List DlqAction :=
  [.run { status := .running } 1, .run { status := .deadLetter } 2]

def timeoutAnalysis : TriageAnalysis := ⟨"timeout", true, 90⟩

def hintShown : List DlqAction :=
  deadLettered ++ [.consume 0 1, .analyse 0 timeoutAnalysis, .setHint 0, .commit 0, .mark 1,
    .flushMark 1 3 "user:2", .commit 1]

def storedEpisode : DlqPhase → Option Nat
  | .stored episode _ => some episode
  | _ => none

def landsInTime (dlq : DlqJob) : DlqAction → Bool
  | .commit task => dlq.job.holder.all fun held =>
      held.2.status = .deadLetter ∧ (storedEpisode (dlq.phase task)).all (· = dlq.episodes)
  | _ => true

theorem landsInEpisode_of_landsInTime (lands : landsInTime dlq action = true) :
    landsInEpisode dlq action := by
  cases action with
  | commit task =>
      intro row held _
      simp only [landsInTime, held, Option.all_some, decide_eq_true_eq] at lands
      refine ⟨lands.1, fun episode stored => ?_⟩
      simpa [stored, storedEpisode] using lands.2
  | _ => trivial

/-- The row is fenced, and its hint is the one that triage gave it before. -/
def showsFence (dlq : DlqJob) : Bool :=
  dlq.job.committed.any fun row => row.status = .deadLetter ∧
    row.remediationHint = some "human_required" ∧ row.fencedBy = some "user:2"

theorem hint_scoped_iff_at_shown : ∃ steps last, (dlqActions shownDraft 7 0).Run steps last ∧
    showsFence last = true ∧ ∀ state ∈ Machine.visited steps last, EpisodeScoped state := by
  obtain ⟨steps, last, ran, checked⟩ : ∃ steps last, (dlqActions shownDraft 7 0).Run steps last ∧
      (showsFence last && steps.all fun taken => landsInTime taken.1 taken.2) = true :=
    Machine.exists_run hintShown (by decide +kernel)
  obtain ⟨shows, lands⟩ := Bool.and_eq_true_iff.mp checked
  refine ⟨steps, last, ran, shows, (hint_scoped_iff ran).mpr fun taken member => ?_⟩
  exact landsInEpisode_of_landsInTime (List.all_eq_true.mp lands taken member)

def lateHint : List DlqAction :=
  deadLettered ++ [.consume 0 1, .callReplay 1, .load 1, .writeReplay 1 3, .commit 1,
    .analyse 0 timeoutAnalysis, .setHint 0, .commit 0]

def hintedWhilePending (dlq : DlqJob) : Bool :=
  dlq.job.committed.any fun row => row.status = .pending ∧ row.remediationHint.isSome

theorem hint_outlives_episode :
    ¬ ∀ (draft : JobDraft) (id : Uuid) (start : Time) (steps : List (DlqJob × DlqAction)) (last : DlqJob),
      (dlqActions draft id start).Run steps last →
      ∀ state ∈ Machine.visited steps last, EpisodeScoped state := by
  intro claimed
  obtain ⟨steps, last, ran, shows⟩ : ∃ steps last, (dlqActions shownDraft 7 0).Run steps last ∧
      hintedWhilePending last = true := Machine.exists_run lateHint (by decide +kernel)
  have good := claimed shownDraft 7 0 steps last ran last List.mem_cons_self
  unfold hintedWhilePending at shows
  obtain ⟨row, stored, found⟩ := (Option.any_eq_true _ _).mp shows
  obtain ⟨pending, hinted⟩ := of_decide_eq_true found
  have dead := ((good row stored).1 hinted).1
  rw [pending] at dead
  cases dead

end Runs

def Fenced (job : Job) : Prop :=
  job.status = .deadLetter ∧ job.remediationHint = some RemediationHint.humanRequired.text

/-- While a fence stands the job stays in DEAD_LETTER and its hint is not lowered. -/
def FenceHolds (dlq : DlqJob) : Prop :=
  dlq.fenced = true → ∀ row, dlq.job.committed = some row → Fenced row

/-- A fence commits when no replay of the job is armed, claimed or under way; and
one that has read `human_required` finds it on the row again. -/
def fencesQuietly (dlq : DlqJob) : DlqAction → Prop
  | .flushMark task _ _ => ∀ loaded row, dlq.phase task = .marking loaded →
      dlq.job.committed = some row →
      loaded.remediationHint = some RemediationHint.humanRequired.text →
      row.remediationHint = some RemediationHint.humanRequired.text
  | .commit task => ∀ hint stamps, dlq.phase task = .marked hint stamps →
      unarmed dlq ∧ ∀ other, pursues (dlq.phase other) = false
  | _ => True

/-- Nothing is about to end the fence. -/
structure FenceStanding (dlq : DlqJob) : Prop where
  committed : ∀ row, dlq.job.committed = some row → Fenced row
  held : ∀ owner row, dlq.job.holder = some (owner, row) → Fenced row
  unarmed : unarmed dlq
  unpursued : ∀ task, pursues (dlq.phase task) = false

structure FenceKept (dlq : DlqJob) : Prop where
  marked : ∀ task hint stamps row, dlq.phase task = .marked hint stamps →
    dlq.job.holder = some (task, row) → row.remediationHint = some RemediationHint.humanRequired.text
  standing : dlq.fenced = true → FenceStanding dlq

section Steps

variable {next : DlqPhase}

theorem replayable_text {category : RemediationHint} (replayable : category.replayable = true) :
    category.text ≠ RemediationHint.humanRequired.text := by
  cases category with
  | humanRequired => cases replayable
  | replaySafe => decide
  | waitAndReplay => decide

theorem FenceKept.quiet (kept : FenceKept dlq) (moved : TaskMoved dlq after task next)
    (job : after.job = dlq.job) (plain : hasWritten next = false) (fenced : after.fenced = dlq.fenced)
    (sets : FenceStanding dlq → Properties.unarmed after)
    (pursuit : FenceStanding dlq → pursues next = false) : FenceKept after := by
  refine ⟨fun other hint stamps row found held => ?_, fun stands => ?_⟩
  · rw [job] at held
    obtain ⟨_, now⟩ | ⟨_, same⟩ := moved.cases other
    · rw [now] at found
      rw [found] at plain
      cases plain
    · exact kept.marked other hint stamps row (same ▸ found) held
  · have before := kept.standing (fenced ▸ stands)
    refine ⟨job ▸ before.committed, job ▸ before.held, sets before, fun other => ?_⟩
    obtain ⟨_, now⟩ | ⟨_, same⟩ := moved.cases other
    · rw [now]
      exact pursuit before
    · rw [same]
      exact before.unpursued other

theorem FenceKept.take (kept : FenceKept dlq) (moved : TaskMoved dlq after task next)
    (job : after.job = dlq.job.write task row) (fenced : after.fenced = dlq.fenced)
    (scheduled : after.scheduled = dlq.scheduled) (inflight : after.inflight = dlq.inflight)
    (marks : ∀ hint stamps, next = .marked hint stamps →
      row.remediationHint = some RemediationHint.humanRequired.text)
    (stands : FenceStanding dlq → Fenced row ∧ pursues next = false) : FenceKept after := by
  refine ⟨fun other hint stamps version found held => ?_, fun standing => ?_⟩
  · rw [job] at held
    cases held
    rw [moved task, if_pos rfl] at found
    exact marks hint stamps found
  · have before := kept.standing (fenced ▸ standing)
    obtain ⟨fine, unpursued⟩ := stands before
    refine ⟨?_, ?_, ?_, fun other => ?_⟩
    · rw [job]
      exact before.committed
    · intro owner version held
      rw [job] at held
      cases held
      exact fine
    · exact ⟨scheduled.trans before.unarmed.1, inflight.trans before.unarmed.2⟩
    · obtain ⟨_, now⟩ | ⟨_, same⟩ := moved.cases other
      · rw [now, unpursued]
      · rw [same]
        exact before.unpursued other

theorem FenceKept.letGo (moved : TaskMoved dlq after task next) (free : after.job.holder = none)
    (stands : after.fenced = true → (∀ row, after.job.committed = some row → Fenced row) ∧
      Properties.unarmed after ∧ pursues next = false ∧
        ∀ other, other ≠ task → pursues (dlq.phase other) = false) : FenceKept after := by
  refine ⟨fun other hint stamps row _ held => ?_, fun standing => ?_⟩
  · rw [free] at held
    cases held
  · obtain ⟨fine, unarmed, unpursued, others⟩ := stands standing
    refine ⟨fine, fun owner row held => ?_, unarmed, fun other => ?_⟩
    · rw [free] at held
      cases held
    · obtain ⟨_, now⟩ | ⟨different, same⟩ := moved.cases other
      · rw [now, unpursued]
      · rw [same]
        exact others other different

theorem markPermanent_fenced {loaded : Job} (now : Time) (principal : String)
    (again : loaded.remediationHint = some RemediationHint.humanRequired.text →
      base.remediationHint = some RemediationHint.humanRequired.text) :
    (markPermanent loaded now principal base).remediationHint =
      some RemediationHint.humanRequired.text := by
  by_cases same : loaded.remediationHint = some RemediationHint.humanRequired.text
  · simp only [markPermanent, flushColumn_same same.symm]
    exact again same
  · simp only [markPermanent, flushColumn, if_neg (Ne.symm same)]

theorem FenceKept.step (locked : RowLocked dlq) (kept : FenceKept dlq)
    (quietly : fencesQuietly dlq action)
    (stepped : (dlqActions draft id start).step action dlq = some after) : FenceKept after := by
  cases dlqStep_cases stepped with
  | run free stored alive silent =>
      refine ⟨fun other hint stamps row _ held => ?_, fun standing => ?_⟩
      · rw [free] at held
        cases held
      · exact absurd ((kept.standing standing).committed _ stored).1 alive
  | @turn _ task next uncommitted unwritten plain pursuit =>
      refine kept.quiet (fun _ => rfl) rfl plain rfl (fun before => before.unarmed) fun before => ?_
      by_contra pursued
      obtain already | ⟨row, category, seen, hinted, replayable⟩ := pursuit (by simpa using pursued)
      · rw [before.unpursued task] at already
        cases already
      · have fenced := (before.committed row (locked.sees unwritten seen)).2
        rw [hinted] at fenced
        exact replayable_text replayable (Option.some.inj fenced)
  | @rearm _ task next scheduled inflight uncommitted unwritten plain pursuit entries =>
      refine kept.quiet (fun _ => rfl) rfl plain rfl
        (fun before => entries before.unarmed (before.unpursued task)) fun before => ?_
      by_contra pursued
      exact pursuit (by simpa using pursued) before.unarmed
  | call found =>
      refine ⟨fun other hint stamps row marked held => ?_, fun standing => by cases standing⟩
      rename_i caller
      by_cases same : other = caller
      · subst same
        simp [DlqJob.move] at marked
      · have unmoved : dlq.phase other = .marked hint stamps := by simpa [DlqJob.move, same] using marked
        exact kept.marked other hint stamps row unmoved held
  | @flush task loaded base now principal found taken =>
      obtain ⟨_, stored⟩ := locked.taken (by rw [found]; rfl) taken
      have hinted := markPermanent_fenced now principal (quietly loaded base found stored)
      refine kept.take (fun _ => rfl) rfl rfl rfl rfl (fun _ _ _ => hinted) fun before => ?_
      exact ⟨⟨(before.committed base stored).1, hinted⟩, rfl⟩
  | setHint found taken unset =>
      obtain ⟨_, stored⟩ := locked.taken (by rw [found]; rfl) taken
      refine kept.take (fun _ => rfl) rfl rfl rfl rfl ?_ fun before => ?_
      · intro hint stamps marked
        cases marked
      · have hinted := (before.committed _ stored).2
        rw [unset] at hinted
        cases hinted
  | @writeReplay task now caller row unwritten pursuit taken =>
      refine kept.take (fun _ => rfl) rfl rfl rfl rfl ?_ fun before => ?_
      · intro hint stamps marked
        cases marked
      · rw [before.unpursued task] at pursuit
        cases pursuit
  | @commitMark task hint stamps found =>
      obtain ⟨base, row, held, stored, wrote, published⟩ := commit_written locked (by rw [found]; rfl)
      obtain ⟨unarmed, unpursued⟩ := quietly hint stamps found
      refine .letGo (fun _ => rfl) (congrArg Slot.holder published) fun standing => ?_
      refine ⟨fun version committed => ?_, unarmed, rfl, fun other _ => unpursued other⟩
      have same : row = version := Option.some.inj ((congrArg Slot.committed published).symm.trans committed)
      subst same
      refine ⟨?_, kept.marked task hint stamps row found held⟩
      obtain already | dead := Bool.or_eq_true_iff.mp standing
      · exact ((kept.standing already).held task row held).1
      · rw [Slot.visible_of_held held] at dead
        simpa using dead
  | @commitStored task episode written found =>
      cases written with
      | false =>
          obtain ⟨_, same⟩ := commit_unheld locked (by rw [found]; rfl)
          exact kept.quiet (fun _ => rfl) same rfl rfl (fun before => before.unarmed) fun _ => rfl
      | true =>
          obtain ⟨base, row, held, stored, wrote, published⟩ := commit_written locked (by rw [found]; rfl)
          refine .letGo (fun _ => rfl) (congrArg Slot.holder published) fun standing => ?_
          rw [found] at wrote
          have hinted := ((kept.standing standing).committed base stored).2
          rw [wrote.1] at hinted
          cases hinted
  | @commitReplay task caller found =>
      obtain ⟨base, row, held, stored, wrote, published⟩ := commit_written locked (by rw [found]; rfl)
      refine .letGo (fun _ => rfl) (congrArg Slot.holder published) fun standing => ?_
      have unpursued := (kept.standing standing).unpursued task
      rw [found] at unpursued
      cases unpursued
  | @commitArmed task principal found =>
      obtain ⟨_, same⟩ := commit_unheld locked (by rw [found]; rfl)
      exact kept.quiet (fun _ => rfl) same rfl rfl (fun before => before.unarmed) fun _ => rfl
  | @abort task =>
      obtain ⟨row, held, undone⟩ | ⟨_, same⟩ := dlq.job.rollback_cases task
      · refine .letGo (fun _ => rfl) (congrArg Slot.holder undone) fun standing => ?_
        have before := kept.standing standing
        refine ⟨fun version committed => ?_, before.unarmed, rfl, fun other _ => before.unpursued other⟩
        exact before.committed version ((congrArg Slot.committed undone).symm.trans committed)
      · exact kept.quiet (fun _ => rfl) same rfl rfl (fun before => before.unarmed) fun _ => rfl

theorem fenceKept_initial : FenceKept (dlqActions draft id start).initial := by
  refine ⟨fun other hint stamps row found => ?_, fun standing => ?_⟩
  · cases found
  · cases standing

end Steps

section Runs

variable {steps : List (DlqJob × DlqAction)} {last : DlqJob}

/-- In every run whose fences commit while no replay of the job is armed, claimed
or under way, a fence holds until a replay that names the job is called. -/
theorem fence_holds (ran : (dlqActions draft id start).Run steps last)
    (quietly : ∀ taken ∈ steps, fencesQuietly taken.1 taken.2) :
    ∀ state ∈ Machine.visited steps last, FenceHolds state := by
  have kept : ∀ state ∈ Machine.visited steps last, RowLocked state ∧ FenceKept state :=
    Machine.Run.always ran ⟨rowLocked_initial, fenceKept_initial⟩
      (fun both quiet stepped => ⟨both.1.step stepped, both.2.step both.1 quiet stepped⟩) quietly
  exact fun state visited standing => ((kept state visited).2.standing standing).committed

def movedTask : DlqAction → Option Nat
  | .run _ _ => none
  | .mark task | .flushMark task _ _ | .consume task _ | .analyse task _ | .setHint task | .callReplay task
  | .list task _ | .load task | .refuse task | .writeReplay task _ | .arm task _ | .cancel task | .claim task _
  | .defer task | .ack task | .commit task | .abort task => some task

theorem idle_of_unnamed (ran : (dlqActions draft id start).Run steps last) {task : Nat}
    (unnamed : ∀ taken ∈ steps, movedTask taken.2 ≠ some task) :
    ∀ state ∈ Machine.visited steps last, state.phase task = .idle := by
  refine @Machine.Run.always _ _ _ _ _ (fun _ action => movedTask action ≠ some task) _ ran rfl
    (fun {before action next} idle other stepped => ?_) unnamed
  rw [← idle]
  have apart : ∀ mover, some mover ≠ some task → task ≠ mover := fun mover different same => different (by rw [same])
  cases action <;> simp only [dlqActions, DlqJob.step, movedTask] at stepped other <;>
    (repeat' split at stepped) <;> cases stepped <;>
    first
    | rfl
    | simp only [DlqJob.move, DlqJob.withJob, if_neg (apart _ other)]

/-- Behind the fence the event of the death is delivered to triage once more, and
the entry is marked once more. -/
def workBehindFence : List DlqAction :=
  hintShown ++ [.consume 0 1, .analyse 0 timeoutAnalysis, .setHint 0, .commit 0, .mark 1,
    .flushMark 1 5 "user:9", .commit 1]

/-- `fencesQuietly`, where only the tasks 0 and 1 have begun anything. -/
def fencesAmongTwo (dlq : DlqJob) : DlqAction → Bool
  | .flushMark task _ _ => match dlq.phase task, dlq.job.committed with
      | .marking loaded, some row => loaded.remediationHint ≠ some RemediationHint.humanRequired.text ||
          row.remediationHint = some RemediationHint.humanRequired.text
      | _, _ => true
  | .commit _ => dlq.scheduled.isEmpty && dlq.inflight.isEmpty && !pursues (dlq.phase 0) && !pursues (dlq.phase 1)
  | _ => true

/-- No category lists the entry afterwards. -/
theorem fence_holds_at_shown : ∃ steps last, (dlqActions shownDraft 7 0).Run steps last ∧
    last.fenced = true ∧ DlqJob.step (.list 2 .replaySafe) last = none ∧
    ∀ state ∈ Machine.visited steps last, FenceHolds state := by
  obtain ⟨steps, last, ran, checked⟩ : ∃ steps last, (dlqActions shownDraft 7 0).Run steps last ∧
      (last.fenced && (DlqJob.step (.list 2 .replaySafe) last).isNone && steps.all fun taken =>
        fencesAmongTwo taken.1 taken.2 && (movedTask taken.2).all fun task => decide (task < 2)) = true :=
    Machine.exists_run workBehindFence (by decide +kernel)
  simp only [Bool.and_eq_true, List.all_eq_true, Option.isNone_iff_eq_none] at checked
  obtain ⟨⟨fenced, unlisted⟩, quiet⟩ := checked
  refine ⟨steps, last, ran, fenced, unlisted, fence_holds ran fun taken member => ?_⟩
  obtain ⟨dlq, action⟩ := taken
  have among := (quiet _ member).1
  cases action with
  | flushMark task now principal =>
      intro loaded row found stored hinted
      dsimp only at found stored
      simp only [fencesAmongTwo, found, stored, hinted] at among
      simpa using among
  | commit task =>
      intro hint stamps _
      simp only [fencesAmongTwo, Bool.and_eq_true, List.isEmpty_iff, Bool.not_eq_true'] at among
      refine ⟨⟨among.1.1.1, among.1.1.2⟩, fun other => ?_⟩
      match other with
      | 0 => exact among.1.2
      | 1 => exact among.2
      | other + 2 =>
          have unnamed : ∀ taken ∈ steps, movedTask taken.2 ≠ some (other + 2) := by
            intro taken listed named
            have small := (quiet taken listed).2
            simp only [named, Option.all_some, decide_eq_true_eq] at small
            omega
          rw [idle_of_unnamed ran unnamed dlq (List.mem_cons_of_mem _ (List.mem_map_of_mem member))]
          rfl
  | _ => exact trivial

/-- A replay of the category is armed before the fence, and fires after it. -/
def armedBeforeFence : List DlqAction :=
  deadLettered ++ [.consume 0 1, .analyse 0 timeoutAnalysis, .setHint 0, .commit 0,
    .list 1 .replaySafe, .arm 1 9, .commit 1, .mark 2, .flushMark 2 3 "user:2", .commit 2,
    .claim 3 9, .load 3, .writeReplay 3 4, .commit 3]

def pendingBehindFence (dlq : DlqJob) : Bool :=
  dlq.fenced && dlq.job.committed.any fun row => row.status = .pending

theorem armed_replay_passes_fence :
    ¬ ∀ (draft : JobDraft) (id : Uuid) (start : Time) (steps : List (DlqJob × DlqAction)) (last : DlqJob),
      (dlqActions draft id start).Run steps last →
      ∀ state ∈ Machine.visited steps last, FenceHolds state := by
  intro claimed
  obtain ⟨steps, last, ran, shows⟩ : ∃ steps last, (dlqActions shownDraft 7 0).Run steps last ∧
      pendingBehindFence last = true := Machine.exists_run armedBeforeFence (by decide +kernel)
  obtain ⟨fenced, lifted⟩ := Bool.and_eq_true_iff.mp shows
  obtain ⟨row, stored, found⟩ := (Option.any_eq_true _ _).mp lifted
  have dead := (claimed shownDraft 7 0 steps last ran last List.mem_cons_self fenced row stored).1
  rw [of_decide_eq_true found] at dead
  cases dead

end Runs

end IncidentPlatform.Properties

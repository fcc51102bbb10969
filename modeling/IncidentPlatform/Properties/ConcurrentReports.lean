import IncidentPlatform.Properties.AgentRuns
import IncidentPlatform.Services.AgentRunRequests
import Mathlib.Data.List.ReduceOption

namespace IncidentPlatform.Properties

open Models Concurrency Services Storage RunRequests

/-! # Reports that overlap

A flush writes whole columns that were computed from the row as it was read.
Nothing is lost where the ledgers it writes, and the end of the run, are as they
were read.
-/

variable {Doc : Type} {ids : RunIds} {pid other : Pid} {call : RunCall Doc}
  {existing : Option (AgentRun Doc)} {read written current run next : AgentRun Doc}
  {requests before after middle last : RunRequests Doc} {action : Action Doc}
  {earlier later : List (RunRequests Doc × Action Doc)}
  {committed : List (RunCall Doc × Option (AgentRun Doc))}

/-- The ledger of steps is as it was read, or the step was found stored. -/
def StepAsRead (read current : AgentRun Doc) : Option (AgentStep Doc) → Prop
  | none => True
  | some step => (step.seq.isSome ∧ ∃ stored ∈ read.steps, stored.seq = step.seq) ∨
      current.steps = read.steps ∧ current.stepsDropped = read.stepsDropped

instance [DecidableEq Doc] : ∀ step, Decidable (StepAsRead read current step)
  | none => inferInstanceAs (Decidable True)
  | some _ => inferInstanceAs (Decidable ((_ ∧ _) ∨ _ ∧ _))

/-- What the call adds to is on the row as it was read, and the run is open for
a report. -/
def FindsAsRead (read current : AgentRun Doc) : RunCall Doc → Prop
  | .report sent => current.finishedAt = none ∧
      (read.state ≠ sent.state → current.phaseHistory = read.phaseHistory) ∧
      StepAsRead read current sent.step
  | .briefing .. => current.briefing = none ∧ (read.finishedAt = none → current.finishedAt = none)

instance [DecidableEq Doc] : ∀ call, Decidable (FindsAsRead read current call)
  | .report _ => inferInstanceAs (Decidable (_ ∧ (_ → _) ∧ _))
  | .briefing .. => inferInstanceAs (Decidable (_ ∧ (_ → _)))

def UpdatesAsRead (ids : RunIds) (existing committed : Option (AgentRun Doc)) (call : RunCall Doc) : Prop :=
  match existing, committed, call.apply ids existing with
  | some read, some current, .ok written => written ≠ read → FindsAsRead read current call
  | _, _, _ => True

instance [DecidableEq Doc] : Decidable (UpdatesAsRead ids existing (requests.row.committed) call) := by
  unfold UpdatesAsRead
  split <;> infer_instance

def FlushesAsRead (ids : RunIds) (requests : RunRequests Doc) : Action Doc → Prop
  | .flush pid =>
      match requests.phase pid with
      | .read call existing => UpdatesAsRead ids existing requests.row.committed call
      | _ => True
  | _ => True

instance [DecidableEq Doc] : Decidable (FlushesAsRead ids requests action) := by
  unfold FlushesAsRead
  split
  · split <;> infer_instance
  · infer_instance

def newStep (read : AgentRun Doc) : RunCall Doc → Option (AgentStep Doc)
  | .report sent => sent.step.filter fun step => ¬(step.seq.isSome ∧ ∃ stored ∈ read.steps, stored.seq = step.seq)
  | .briefing .. => none

section NewStep

variable {sent : RunReport Doc} {step : AgentStep Doc}

theorem newStep_stored (given : sent.step = some step)
    (stored : step.seq.isSome ∧ ∃ stored ∈ read.steps, stored.seq = step.seq) :
    newStep read (.report sent) = none := by
  simp only [newStep, given]
  exact (Option.filter_some ..).trans (if_neg (by simpa [← Option.isSome_iff_ne_none] using stored))

theorem newStep_fresh (given : sent.step = some step)
    (fresh : ¬(step.seq.isSome ∧ ∃ stored ∈ read.steps, stored.seq = step.seq)) :
    newStep read (.report sent) = some step := by
  simp only [newStep, given]
  exact (Option.filter_some ..).trans (if_pos (decide_eq_true fresh))

theorem stored_of_newStep_none (none : newStep read (.report sent) = none) (given : sent.step = some step) :
    step.seq.isSome ∧ ∃ stored ∈ read.steps, stored.seq = step.seq := by
  by_contra fresh
  rw [newStep_fresh given fresh] at none
  contradiction

theorem of_newStep_some (new : newStep read call = some step) :
    ∃ sent, call = .report sent ∧ sent.step = some step := by
  cases call with
  | briefing => contradiction
  | report sent => exact ⟨sent, rfl, (Option.filter_eq_some_iff.mp new).1⟩

end NewStep

/-- The row `next` is `current` with what the call adds. -/
structure Lands (call : RunCall Doc) (read current next : AgentRun Doc) : Prop where
  history : current.phaseHistory <+: next.phaseHistory
  entered : ∀ sent, call = .report sent → read.state ≠ sent.state →
    ⟨sent.state, sent.stamp⟩ ∈ next.phaseHistory
  briefing : ∀ briefing, current.briefing = some briefing → next.briefing = some briefing
  briefed : ∀ body prose stamp, call = .briefing body prose stamp → next.briefing = some ⟨body, prose, stamp⟩
  finished : ∀ stamp, current.finishedAt = some stamp → next = { current with briefing := next.briefing }
  ledger : match newStep read call with
    | none => next.steps = current.steps ∧ next.stepsDropped = current.stepsDropped
    | some step => next.steps = (appendStep current.steps step).1 ∧
        next.stepsDropped = current.stepsDropped + (appendStep current.steps step).2

theorem flushed_same {Column : Type} [DecidableEq Column] {read current : Column} :
    flushed read read current = current := if_pos rfl

theorem flushed_as_read {Column : Type} [DecidableEq Column] {read written current : Column}
    (same : current = read) : flushed read written current = written := by
  unfold flushed
  split
  · rename_i kept
    exact same.trans kept.symm
  · rfl

theorem flushed_changed {Column : Type} [DecidableEq Column] {read written current : Column}
    (changed : written ≠ read) : flushed read written current = written := if_neg changed

section Flush

variable [DecidableEq Doc]

theorem report_lands {sent : RunReport Doc}
    (finds : FindsAsRead read current (.report sent)) :
    Lands (.report sent) read current (read.flush (read.updatedBy sent) current) := by
  obtain ⟨unfinished, history, step⟩ := finds
  constructor
  · by_cases same : read.state = sent.state
    · simp only [AgentRun.flush, AgentRun.updatedBy, same, if_true, flushed_same]
      exact List.prefix_rfl
    · simp only [AgentRun.flush, AgentRun.updatedBy, same, if_false]
      rw [flushed_as_read (history same), ← history same]
      exact List.prefix_append ..
  · rintro _ ⟨⟩ changed
    simp only [AgentRun.flush, AgentRun.updatedBy, changed, if_false]
    rw [flushed_as_read (history changed)]
    exact List.mem_append_right _ List.mem_cons_self
  · intro briefing same
    simpa only [AgentRun.flush, AgentRun.updatedBy, flushed_same] using same
  · intro body prose stamp other
    cases other
  · intro stamp closed
    rw [unfinished] at closed
    contradiction
  · cases given : sent.step with
    | none => simp [newStep, given, AgentRun.flush, AgentRun.updatedBy, flushed_same]
    | some arriving =>
        rw [given] at step
        by_cases stored : arriving.seq.isSome ∧ ∃ stored ∈ read.steps, stored.seq = arriving.seq
        · have settled := appendStep_settled_iff.mpr stored
          rw [newStep_stored given stored]
          simp [given, AgentRun.flush, AgentRun.updatedBy, settled, flushed_same]
        · obtain ⟨steps, dropped⟩ := step.resolve_left stored
          rw [newStep_fresh given stored]
          simp only [AgentRun.flush, AgentRun.updatedBy, given]
          rw [flushed_as_read steps, flushed_as_read dropped, steps, dropped]
          exact ⟨rfl, rfl⟩

theorem briefing_lands {body : Doc} {prose : Option String} {stamp : Time} (unbriefed : read.briefing = none)
    (finds : FindsAsRead read current (.briefing body prose stamp)) :
    Lands (.briefing body prose stamp) read current
      (read.flush (read.briefedBy ⟨body, prose, stamp⟩) current) := by
  obtain ⟨none, unfinished⟩ := finds
  constructor
  · simp only [AgentRun.flush, AgentRun.briefedBy, flushed_same]
    exact List.prefix_rfl
  · intro sent other
    cases other
  · simp [none]
  · rintro _ _ _ ⟨⟩
    exact flushed_changed (by simp [AgentRun.briefedBy, unbriefed])
  · intro ended closed
    cases finished : read.finishedAt with
    | none =>
        rw [unfinished finished] at closed
        contradiction
    | some stamp => simp [AgentRun.flush, AgentRun.briefedBy, finished, flushed_same]
  · simp [newStep, AgentRun.flush, AgentRun.briefedBy, flushed_same]

theorem flush_lands (applied : call.apply ids (some read) = .ok written) (finds : FindsAsRead read current call) :
    Lands call read current (read.flush written current) := by
  cases call with
  | report sent =>
      simp only [RunCall.apply] at applied
      cases accepted : reportRun ids (some read) sent with
      | error conflict =>
          rw [accepted] at applied
          contradiction
      | ok outcome =>
          rw [accepted] at applied
          cases applied
          obtain ⟨absent, _⟩ | ⟨_, ⟨⟩, _, same⟩ := reportRun_cases accepted
          · contradiction
          · rw [same]
            exact report_lands finds
  | briefing body prose stamp =>
      have accepted : reportBriefing ids (some read) body prose stamp = .ok written := applied
      obtain ⟨_, ⟨⟩, unbriefed, rfl⟩ := reportBriefing_cases accepted
      exact briefing_lands unbriefed finds

end Flush

/-- The `seq` of each step that the committed reports have brought. -/
def sentSeqs (committed : List (RunCall Doc × Option (AgentRun Doc))) : List (Option Int) :=
  committed.filterMap fun entry =>
    match entry.1 with
    | .report sent => sent.step.map AgentStep.seq
    | .briefing .. => none

def storedSeqs (run : AgentRun Doc) : List (Option Int) := run.steps.map AgentStep.seq

/-- How many of the steps sent are not among those stored.  Steps without a `seq`
can only be counted. -/
def unstored (sent stored : List (Option Int)) : Nat :=
  (sent.reduceOption.toFinset \ stored.reduceOption.toFinset).card + (sent.count none - stored.count none)

/-- Every committed step is stored or counted as dropped, every state that a
committed report has changed to is in the history, and a committed briefing is
the one stored. -/
structure LeavesEffects (committed : List (RunCall Doc × Option (AgentRun Doc))) (run : AgentRun Doc) : Prop where
  steps : unstored (sentSeqs committed) (storedSeqs run) ≤ run.stepsDropped
  phases : ∀ sent existing, (.report sent, existing) ∈ committed →
    existing.map AgentRun.state ≠ some sent.state → ⟨sent.state, sent.stamp⟩ ∈ run.phaseHistory
  briefing : ∀ body prose stamp existing, (.briefing body prose stamp, existing) ∈ committed →
    run.briefing = some ⟨body, prose, stamp⟩

/-- The committed row has the effects of all committed calls. -/
def EffectsLeft (requests : RunRequests Doc) : Prop :=
  match requests.row.committed with
  | some run => LeavesEffects requests.committed run
  | none => requests.committed = []

theorem sentSeqs_report {sent : RunReport Doc} : sentSeqs ((.report sent, existing) :: committed) =
    (sent.step.map AgentStep.seq).toList ++ sentSeqs committed := by
  cases given : sent.step <;> simp [sentSeqs, given]

theorem unstored_known {seq : Int} {sent stored : List (Option Int)} (known : some seq ∈ sent) :
    unstored (some seq :: sent) stored = unstored sent stored := by
  have same : seq ∈ sent.reduceOption.toFinset := by simpa [List.reduceOption_mem_iff] using known
  simp [unstored, Finset.insert_eq_of_mem same]

theorem unstored_stored {seq : Option Int} {sent stored : List (Option Int)} (named : seq.isSome)
    (member : seq ∈ stored) : unstored (seq :: sent) stored = unstored sent stored := by
  obtain ⟨seq, rfl⟩ := Option.isSome_iff_exists.mp named
  have same : seq ∈ stored.reduceOption.toFinset := by simpa [List.reduceOption_mem_iff] using member
  simp [unstored, Finset.insert_sdiff_of_mem _ same]

theorem unstored_append {seq : Option Int} {sent stored : List (Option Int)} :
    unstored (seq :: sent) (stored ++ [seq]) ≤ unstored sent stored := by
  cases seq with
  | none =>
      simp only [unstored, List.reduceOption_append, List.count_cons, List.count_append]
      simp
  | some seq =>
      have gone : (insert seq sent.reduceOption.toFinset) \ (insert seq stored.reduceOption.toFinset) ⊆
          sent.reduceOption.toFinset \ stored.reduceOption.toFinset := by
        intro other
        simp only [Finset.mem_sdiff, Finset.mem_insert]
        tauto
      have fewer := Finset.card_le_card gone
      simpa [unstored, List.reduceOption_append, Finset.union_comm _ {seq}, ← Finset.insert_eq] using fewer

theorem unstored_drop {gone : Nat} {sent stored : List (Option Int)} :
    unstored sent (stored.drop gone) ≤ unstored sent stored + gone := by
  have parts := List.take_append_drop gone stored
  have short : (stored.take gone).length ≤ gone := List.length_take_le ..
  generalize stored.take gone = evicted at parts short
  generalize stored.drop gone = kept at parts
  subst parts
  have named : (sent.reduceOption.toFinset \ kept.reduceOption.toFinset).card ≤
      (sent.reduceOption.toFinset \ (evicted ++ kept).reduceOption.toFinset).card +
        evicted.reduceOption.toFinset.card := by
    apply (Finset.card_le_card ?_).trans (Finset.card_union_le ..)
    intro seq
    simp only [List.reduceOption_append, List.toFinset_append, Finset.mem_sdiff, Finset.mem_union]
    tauto
  have few := List.toFinset_card_le evicted.reduceOption
  have split : evicted.reduceOption.length + evicted.count none = evicted.length := by
    clear named few short
    induction evicted with
    | nil => rfl
    | cons seq rest ih => cases seq <;> simp <;> omega
  simp only [unstored, List.count_append]
  omega

theorem unstored_appendStep {steps kept : List (AgentStep Doc)} {step : AgentStep Doc} {dropped : Nat}
    {sent : List (Option Int)} (appended : appendStep steps step = (kept, dropped)) :
    unstored (step.seq :: sent) (kept.map AgentStep.seq) ≤ unstored sent (steps.map AgentStep.seq) + dropped := by
  obtain ⟨named, ⟨stored, member, same⟩, settled⟩ | ⟨_, grown⟩ := appendStep_cases steps step
  · cases settled.symm.trans appended
    have found : step.seq ∈ steps.map AgentStep.seq := same ▸ List.mem_map_of_mem member
    rw [unstored_stored named found]
    apply Nat.le_add_right
  · cases grown.symm.trans appended
    rw [capped_eq_drop, List.map_drop]
    have gone := @unstored_drop ((steps ++ [step]).length - stepsCap) (step.seq :: sent)
      ((steps ++ [step]).map AgentStep.seq)
    have grew := @unstored_append step.seq sent (steps.map AgentStep.seq)
    simp only [List.map_append, List.map_cons, List.map_nil, List.length_append, List.length_singleton] at gone ⊢
    omega

theorem LeavesEffects.lands (effects : LeavesEffects committed current) (lands : Lands call read current next)
    (known : ∀ seq, some seq ∈ storedSeqs read → some seq ∈ sentSeqs committed) :
    LeavesEffects ((call, some read) :: committed) next := by
  have ledger := lands.ledger
  constructor
  · cases new : newStep read call with
    | none =>
        rw [new] at ledger
        have stored : storedSeqs next = storedSeqs current := by rw [storedSeqs, ledger.1]; rfl
        rw [stored, ledger.2]
        cases call with
        | briefing => exact effects.steps
        | report sent =>
            rw [sentSeqs_report]
            cases given : sent.step with
            | none => exact effects.steps
            | some step =>
                obtain ⟨named, stored, member, same⟩ := stored_of_newStep_none new given
                obtain ⟨seq, named⟩ := Option.isSome_iff_exists.mp named
                have sent := known seq (named ▸ same ▸ List.mem_map_of_mem member)
                simp only [Option.map_some, Option.toList_some, List.singleton_append, named]
                rw [unstored_known sent]
                exact effects.steps
    | some step =>
        rw [new] at ledger
        obtain ⟨sent, rfl, given⟩ := of_newStep_some new
        have missing := @unstored_appendStep _ current.steps _ step _ (sentSeqs committed) Prod.mk.eta.symm
        rw [sentSeqs_report, storedSeqs, ledger.1, ledger.2, given]
        exact missing.trans (Nat.add_le_add_right effects.steps _)
  · intro sent existing member changed
    obtain newest | older := List.mem_cons.mp member
    · cases newest
      exact lands.entered sent rfl (by simpa using changed)
    · exact lands.history.mem (effects.phases sent existing older changed)
  · intro body prose stamp existing member
    obtain newest | older := List.mem_cons.mp member
    · cases newest
      exact lands.briefed body prose stamp rfl
    · exact lands.briefing _ (effects.briefing body prose stamp existing older)

theorem LeavesEffects.inserted {sent : RunReport Doc} :
    LeavesEffects [(.report sent, none)] (AgentRun.createdBy ids sent) := by
  constructor
  · have stored : storedSeqs (AgentRun.createdBy ids sent) = (sent.step.map AgentStep.seq).toList := by
      cases given : sent.step <;> simp [storedSeqs, AgentRun.createdBy, given]
    rw [sentSeqs_report, stored]
    simp [sentSeqs, unstored]
  · intro other existing member _
    cases List.mem_singleton.mp member
    exact List.mem_cons_self
  · intro body prose stamp existing member
    cases List.mem_singleton.mp member

theorem unchanged_lands (applied : call.apply ids (some read) = .ok read) : Lands call read current current := by
  cases call with
  | briefing body prose stamp =>
      have accepted : reportBriefing ids (some read) body prose stamp = .ok read := applied
      obtain ⟨_, ⟨⟩, unbriefed, same⟩ := reportBriefing_cases accepted
      rw [same] at unbriefed
      contradiction
  | report sent =>
      simp only [RunCall.apply] at applied
      cases accepted : reportRun ids (some read) sent with
      | error conflict =>
          rw [accepted] at applied
          contradiction
      | ok outcome =>
          rw [accepted] at applied
          obtain ⟨absent, _⟩ | ⟨run, found, _, same⟩ := reportRun_cases accepted
          · contradiction
          · cases found
            have kept : read.updatedBy sent = read := same.symm.trans (Except.ok.inj applied)
            constructor
            · exact List.prefix_rfl
            · rintro _ ⟨⟩ changed
              exact absurd (congrArg AgentRun.state kept).symm changed
            · exact fun _ same => same
            · intro body prose stamp other
              cases other
            · exact fun _ _ => rfl
            · cases given : sent.step with
              | none => simp [newStep, given]
              | some step =>
                  have steps := congrArg AgentRun.steps kept
                  have dropped := congrArg AgentRun.stepsDropped kept
                  simp only [AgentRun.updatedBy, given] at steps dropped
                  have settled : appendStep read.steps step = (read.steps, 0) := Prod.ext steps (by omega)
                  rw [newStep_stored given (appendStep_settled_iff.mp settled)]
                  exact ⟨rfl, rfl⟩

theorem Lands.known (lands : Lands call read current next)
    (known : ∀ seq, some seq ∈ storedSeqs current → some seq ∈ sentSeqs committed) :
    ∀ seq, some seq ∈ storedSeqs next → some seq ∈ sentSeqs ((call, existing) :: committed) := by
  intro seq stored
  have ledger := lands.ledger
  have older : some seq ∈ sentSeqs committed → some seq ∈ sentSeqs ((call, existing) :: committed) := by
    cases call with
    | briefing => exact id
    | report sent =>
        rw [sentSeqs_report]
        exact List.mem_append_right _
  cases new : newStep read call with
  | none =>
      rw [new] at ledger
      rw [storedSeqs, ledger.1] at stored
      exact older (known seq stored)
  | some step =>
      rw [new] at ledger
      obtain ⟨sent, rfl, given⟩ := of_newStep_some new
      rw [storedSeqs, ledger.1] at stored
      obtain ⟨entry, member, named⟩ := List.mem_map.mp stored
      have among : entry ∈ current.steps ∨ entry = step := by
        obtain ⟨_, _, settled⟩ | ⟨_, grown⟩ := appendStep_cases current.steps step
        · rw [settled] at member
          exact .inl member
        · rw [grown] at member
          have wide := capped_sublist.mem member
          simpa using wide
      obtain kept | rfl := among
      · exact older (known seq (named ▸ List.mem_map_of_mem kept))
      · simp [sentSeqs_report, given, named]

/-- What a request in the middle of its transaction will commit. -/
def WillCommit (ids : RunIds) (row : Slot (AgentRun Doc)) (pid : Pid) (call : RunCall Doc) :
    Option (AgentRun Doc) → Prop
  | none => row.committed = none ∧ ∃ written, call.apply ids none = .ok written ∧ row.holder = some (pid, written)
  | some read => ∃ current, row.committed = some current ∧
      ((∃ next, row.holder = some (pid, next) ∧ Lands call read current next) ∨
        (∀ version, row.holder ≠ some (pid, version)) ∧ call.apply ids (some read) = .ok read)

/-- A row that was read had steps of committed reports only. -/
def ReadCommitted (requests : RunRequests Doc) (read : AgentRun Doc) : Prop :=
  requests.row.committed.isSome ∧ ∀ seq, some seq ∈ storedSeqs read → some seq ∈ sentSeqs requests.committed

structure RequestsKept (ids : RunIds) (requests : RunRequests Doc) : Prop where
  effects : EffectsLeft requests
  known : ∀ run, requests.row.committed = some run → ReadCommitted requests run
  reads : ∀ pid call read, requests.phase pid = .read call (some read) ∨
    requests.phase pid = .flushed call (some read) → ReadCommitted requests read
  flushed : ∀ pid call existing, requests.phase pid = .flushed call existing →
    WillCommit ids requests.row pid call existing
  holder : ∀ pid version, requests.row.holder = some (pid, version) →
    ∃ call existing, requests.phase pid = .flushed call existing

theorem WillCommit.apart {row changed : Slot (AgentRun Doc)} (will : WillCommit ids row other call existing)
    (different : other ≠ pid) (stored : row.committed.isSome → changed.committed.isSome)
    (unheld : ∀ version, row.holder ≠ some (other, version))
    (mine : ∀ owner version, changed.holder = some (owner, version) → owner = pid) :
    WillCommit ids changed other call existing := by
  cases existing with
  | none =>
      obtain ⟨_, written, _, held⟩ := will
      exact absurd held (unheld written)
  | some read =>
      obtain ⟨current, present, ⟨next, held, _⟩ | ⟨_, applied⟩⟩ := will
      · exact absurd held (unheld next)
      · obtain ⟨now, present⟩ := Option.isSome_iff_exists.mp (stored (by rw [present]; rfl))
        exact ⟨now, present, .inr ⟨fun version held => different (mine _ _ held), applied⟩⟩

/-- A step of one request: the row stays, or nobody else has it locked. -/
structure RequestMoves (pid : Pid) (before after : RunRequests Doc) : Prop where
  phase : ∀ other, other ≠ pid → after.phase other = before.phase other
  stored : before.row.committed.isSome → after.row.committed.isSome
  sent : ∀ seq, some seq ∈ sentSeqs before.committed → some seq ∈ sentSeqs after.committed
  row : after.row = before.row ∨ before.row.Free pid ∧ after.row.Free pid

theorem ReadCommitted.moves (moves : RequestMoves pid before after) (committed : ReadCommitted before read) :
    ReadCommitted after read :=
  ⟨moves.stored committed.1, fun seq stored => moves.sent seq (committed.2 seq stored)⟩

theorem RequestsKept.moves (kept : RequestsKept ids before) (moves : RequestMoves pid before after)
    (effects : EffectsLeft after)
    (known : ∀ run, after.row.committed = some run → ReadCommitted after run)
    (reads : ∀ call read, after.phase pid = .read call (some read) ∨ after.phase pid = .flushed call (some read) →
      ReadCommitted after read)
    (flushed : ∀ call existing, after.phase pid = .flushed call existing →
      WillCommit ids after.row pid call existing)
    (holder : ∀ version, after.row.holder = some (pid, version) →
      ∃ call existing, after.phase pid = .flushed call existing) : RequestsKept ids after := by
  constructor
  · exact effects
  · exact known
  · intro reader call read reached
    by_cases mine : reader = pid
    · subst mine
      exact reads call read reached
    · rw [moves.phase reader mine] at reached
      exact (kept.reads reader call read reached).moves moves
  · intro writer call existing reached
    by_cases mine : writer = pid
    · subst mine
      exact flushed call existing reached
    · rw [moves.phase writer mine] at reached
      have will := kept.flushed writer call existing reached
      obtain same | ⟨free, freed⟩ := moves.row
      · rw [same]
        exact will
      · exact will.apart mine moves.stored (fun version held => mine (free _ _ held)) freed
  · intro writer version held
    by_cases mine : writer = pid
    · subst mine
      exact holder version held
    · rw [moves.phase writer mine]
      obtain same | ⟨_, freed⟩ := moves.row
      · rw [same] at held
        exact kept.holder writer version held
      · exact absurd (freed _ _ held) mine

section Enter

variable {phase : RequestPhase Doc}

theorem enter_phase : (before.enter pid phase).phase pid = phase := Function.update_self ..

theorem enter_other (different : other ≠ pid) : (before.enter pid phase).phase other = before.phase other :=
  Function.update_of_ne different ..

theorem moves_enter : RequestMoves pid before (before.enter pid phase) where
  phase := fun _ => enter_other
  stored := id
  sent := fun _ => id
  row := .inl rfl

end Enter

theorem RequestsKept.unheld (kept : RequestsKept ids before)
    (elsewhere : ∀ call existing, before.phase pid ≠ .flushed call existing) :
    ∀ version, before.row.holder ≠ some (pid, version) := by
  intro version held
  obtain ⟨call, existing, flushed⟩ := kept.holder pid version held
  exact elsewhere call existing flushed

theorem RequestsKept.select (kept : RequestsKept ids before) (selected : before.select pid call = some after) :
    RequestsKept ids after := by
  unfold RunRequests.select at selected
  split at selected
  · rename_i idle
    cases selected
    have unheld : ∀ version, before.row.holder ≠ some (pid, version) := kept.unheld (by simp [idle])
    apply kept.moves moves_enter kept.effects kept.known
    · intro sent read reached
      rw [enter_phase, Slot.visible_of_free unheld] at reached
      simp only [RequestPhase.read.injEq, reduceCtorEq, or_false] at reached
      exact kept.known read reached.2
    · intro sent existing reached
      rw [enter_phase] at reached
      contradiction
    · exact fun version held => absurd held (unheld version)
  · contradiction

theorem RequestsKept.close (kept : RequestsKept ids before)
    (unheld : ∀ version, before.row.holder ≠ some (pid, version)) :
    RequestsKept ids (before.enter pid .closed) := by
  apply kept.moves moves_enter kept.effects kept.known
  · intro sent read reached
    simp [enter_phase] at reached
  · intro sent existing reached
    simp [enter_phase] at reached
  · exact fun version held => absurd held (unheld version)

theorem flush_cases [DecidableEq Doc] (flushed : before.flush ids pid = some after) :
    ∃ call existing, before.phase pid = .read call existing ∧
      (after = before.enter pid .closed ∨
        ∃ written, call.apply ids existing = .ok written ∧
          ((existing = none ∧ before.row.holder = none ∧ before.row.committed = none ∧
              after = { before.enter pid (.flushed call none) with row := before.row.write pid written }) ∨
            ∃ read current, existing = some read ∧ before.row.committed = some current ∧
              ((written = read ∧ after = before.enter pid (.flushed call (some read))) ∨
                (written ≠ read ∧ before.row.holder = none ∧
                  after = { before.enter pid (.flushed call (some read)) with
                    row := before.row.write pid (read.flush written current) })))) := by
  unfold RunRequests.flush at flushed
  split at flushed
  · rename_i call existing reading
    refine ⟨call, existing, reading, ?_⟩
    split at flushed
    · exact .inl (Option.some.inj flushed).symm
    · rename_i written applied
      split at flushed
      · rename_i free absent
        exact .inr ⟨written, applied, .inl ⟨rfl, free, absent, (Option.some.inj flushed).symm⟩⟩
      · exact .inl (Option.some.inj flushed).symm
      · rename_i read current present
        by_cases same : written = read
        · rw [if_pos same] at flushed
          exact .inr ⟨written, applied, .inr ⟨read, current, rfl, present,
            .inl ⟨same, (Option.some.inj flushed).symm⟩⟩⟩
        · rw [if_neg same] at flushed
          split at flushed
          · rename_i free
            exact .inr ⟨written, applied, .inr ⟨read, current, rfl, present,
              .inr ⟨same, Option.isNone_iff_eq_none.mp free, (Option.some.inj flushed).symm⟩⟩⟩
          · contradiction
      · exact .inl (Option.some.inj flushed).symm
      · contradiction
  · contradiction

theorem RequestsKept.flush [DecidableEq Doc] (kept : RequestsKept ids before)
    (finds : FlushesAsRead ids before (.flush pid)) (flushed : before.flush ids pid = some after) :
    RequestsKept ids after := by
  obtain ⟨call, existing, reading, outcome⟩ := flush_cases flushed
  have unheld : ∀ version, before.row.holder ≠ some (pid, version) := kept.unheld (by simp [reading])
  obtain rfl | ⟨written, applied, ⟨rfl, free, absent, rfl⟩ | ⟨read, current, rfl, present, landed⟩⟩ := outcome
  · exact kept.close unheld
  · have moves : RequestMoves pid before
        { before.enter pid (.flushed call none) with row := before.row.write pid written } := by
      constructor
      · exact fun _ => enter_other
      · exact id
      · exact fun _ => id
      · right
        simp [Slot.Free, free]
    apply kept.moves moves kept.effects
    · exact fun run present => (kept.known run present).moves moves
    · intro sent read reached
      simp [enter_phase] at reached
    · intro sent existing reached
      rw [enter_phase] at reached
      cases reached
      exact ⟨absent, written, applied, rfl⟩
    · exact fun _ _ => ⟨call, none, enter_phase⟩
  · have committed := kept.reads pid call read (.inl reading)
    obtain ⟨rfl, rfl⟩ | ⟨changed, free, rfl⟩ := landed
    · apply kept.moves moves_enter kept.effects kept.known
      · intro sent other reached
        simp only [enter_phase, reduceCtorEq, false_or] at reached
        cases reached
        exact committed.moves moves_enter
      · intro sent existing reached
        rw [enter_phase] at reached
        cases reached
        exact ⟨current, present, .inr ⟨unheld, applied⟩⟩
      · exact fun _ _ => ⟨call, some written, enter_phase⟩
    · have as_read : FindsAsRead read current call := by
        simp only [FlushesAsRead, UpdatesAsRead, reading, present, applied] at finds
        exact finds changed
      have moves : RequestMoves pid before { before.enter pid (.flushed call (some read)) with
          row := before.row.write pid (read.flush written current) } := by
        constructor
        · exact fun _ => enter_other
        · exact id
        · exact fun _ => id
        · right
          simp [Slot.Free, free]
      apply kept.moves moves kept.effects
      · exact fun run present => (kept.known run present).moves moves
      · intro sent other reached
        simp only [enter_phase, reduceCtorEq, false_or] at reached
        cases reached
        exact committed.moves moves
      · intro sent existing reached
        rw [enter_phase] at reached
        cases reached
        exact ⟨current, present, .inl ⟨_, rfl, flush_lands applied as_read⟩⟩
      · exact fun _ _ => ⟨call, some read, enter_phase⟩

theorem rollback_eq (rolled : before.rollback pid = some after) :
    after = { before.enter pid .closed with row := before.row.rollback pid } := by
  unfold RunRequests.rollback at rolled
  split at rolled
  · exact (Option.some.inj rolled).symm
  · exact (Option.some.inj rolled).symm
  · contradiction

theorem RequestsKept.rollback (kept : RequestsKept ids before) (rolled : before.rollback pid = some after) :
    RequestsKept ids after := by
  cases rollback_eq rolled
  obtain ⟨row, held, freed⟩ | ⟨unheld, same⟩ := Slot.rollback_cases before.row pid
  · have moves : RequestMoves pid before { before.enter pid .closed with row := before.row.rollback pid } := by
      constructor
      · exact fun _ => enter_other
      · simp [freed]
      · exact fun _ => id
      · right
        simp [Slot.Free, held, freed]
    apply kept.moves moves
    · have effects := kept.effects
      simp only [EffectsLeft, freed] at effects ⊢
      exact effects
    · intro run present
      simp only [freed] at present
      exact (kept.known run present).moves moves
    · intro sent read reached
      simp [enter_phase] at reached
    · intro sent existing reached
      simp [enter_phase] at reached
    · simp [freed]
  · rw [same]
    exact kept.close unheld

theorem commit_row (kept : RequestsKept ids before) (flushed : before.phase pid = .flushed call existing) :
    (∃ sent, call = .report sent ∧ existing = none ∧ before.row.committed = none ∧
      (before.row.commit pid).committed = some (.createdBy ids sent)) ∨
    ∃ read current next, existing = some read ∧ before.row.committed = some current ∧
      (before.row.commit pid).committed = some next ∧ Lands call read current next := by
  have will := kept.flushed pid call existing flushed
  cases existing with
  | none =>
      obtain ⟨absent, written, applied, held⟩ := will
      cases call with
      | briefing => contradiction
      | report sent =>
          cases applied
          exact .inl ⟨sent, rfl, rfl, absent, by simp [Slot.commit, held]⟩
  | some read =>
      obtain ⟨current, present, ⟨next, held, lands⟩ | ⟨unheld, applied⟩⟩ := will
      · exact .inr ⟨read, current, next, rfl, present, by simp [Slot.commit, held], lands⟩
      · obtain ⟨row, held, _⟩ | ⟨_, same⟩ := Slot.commit_cases before.row pid
        · exact absurd held (unheld row)
        · exact .inr ⟨read, current, current, rfl, present, by rw [same, present], unchanged_lands applied⟩

theorem effects_of_commit (kept : RequestsKept ids before) (flushed : before.phase pid = .flushed call existing) :
    ∃ next, (before.row.commit pid).committed = some next ∧
      LeavesEffects ((call, existing) :: before.committed) next ∧
      ∀ seq, some seq ∈ storedSeqs next → some seq ∈ sentSeqs ((call, existing) :: before.committed) := by
  have effects := kept.effects
  obtain ⟨sent, rfl, rfl, absent, committed⟩ | ⟨read, current, next, rfl, present, committed, lands⟩ :=
    commit_row kept flushed
  · rw [EffectsLeft, absent] at effects
    refine ⟨_, committed, effects ▸ .inserted, fun seq stored => ?_⟩
    rw [sentSeqs_report, List.mem_append]
    left
    cases given : sent.step <;> simp_all [storedSeqs, AgentRun.createdBy]
  · rw [EffectsLeft, present] at effects
    have known := (kept.reads pid call read (.inr flushed)).2
    exact ⟨next, committed, effects.lands lands known, lands.known (kept.known current present).2⟩

theorem commit_eq (committed : before.commit pid = some after) :
    ∃ call existing, before.phase pid = .flushed call existing ∧ after =
      { before.enter pid .closed with
        row := before.row.commit pid
        committed := (call, existing) :: before.committed } := by
  unfold RunRequests.commit at committed
  split at committed
  · rename_i call existing flushed
    exact ⟨call, existing, flushed, (Option.some.inj committed).symm⟩
  · contradiction

theorem RequestsKept.commit (kept : RequestsKept ids before) (committed : before.commit pid = some after) :
    RequestsKept ids after := by
  obtain ⟨call, existing, flushed, rfl⟩ := commit_eq committed
  obtain ⟨next, published, effects, known⟩ := effects_of_commit kept flushed
  have moves : RequestMoves pid before { before.enter pid .closed with
      row := before.row.commit pid, committed := (call, existing) :: before.committed } := by
    constructor
    · exact fun _ => enter_other
    · simp [published]
    · intro seq sent
      cases call with
      | briefing => exact sent
      | report =>
          rw [sentSeqs_report]
          exact List.mem_append_right _ sent
    · obtain ⟨row, held, freed⟩ | ⟨_, same⟩ := Slot.commit_cases before.row pid
      · right
        simp [Slot.Free, held, freed]
      · exact .inl same
  apply kept.moves moves
  · rw [EffectsLeft, published]
    exact effects
  · intro run present
    cases published.symm.trans present
    exact ⟨by rw [published]; rfl, known⟩
  · intro sent read reached
    simp [enter_phase] at reached
  · intro sent other reached
    simp [enter_phase] at reached
  · intro version held
    obtain ⟨row, _, freed⟩ | ⟨unheld, same⟩ := Slot.commit_cases before.row pid
    · simp [freed] at held
    · rw [same] at held
      exact absurd held (unheld version)

/-- A committed row after more commits: nothing is taken away, and a finished run
gets a briefing at most. -/
structure RowKeeps (run next : AgentRun Doc) : Prop where
  history : run.phaseHistory <+: next.phaseHistory
  briefing : ∀ briefing, run.briefing = some briefing → next.briefing = some briefing
  finished : ∀ stamp, run.finishedAt = some stamp → next = { run with briefing := next.briefing }

theorem RowKeeps.refl : RowKeeps run run := ⟨List.prefix_rfl, fun _ same => same, fun _ _ => rfl⟩

theorem RowKeeps.trans {final : AgentRun Doc} (first : RowKeeps run next) (second : RowKeeps next final) :
    RowKeeps run final := by
  constructor
  · exact first.history.trans second.history
  · exact fun briefing same => second.briefing briefing (first.briefing briefing same)
  · intro stamp finished
    have once := first.finished stamp finished
    have again := second.finished stamp (by rw [once]; exact finished)
    rw [again, once]

theorem Lands.keeps (lands : Lands call read current next) : RowKeeps current next :=
  ⟨lands.history, lands.briefing, lands.finished⟩

section Runs

variable [DecidableEq Doc]

theorem RequestsKept.step (kept : RequestsKept ids before) (finds : FlushesAsRead ids before action)
    (stepped : (machine ids).step action before = some after) : RequestsKept ids after := by
  cases action with
  | select pid call => exact kept.select stepped
  | flush pid => exact kept.flush finds stepped
  | commit pid => exact kept.commit stepped
  | rollback pid => exact kept.rollback stepped

theorem requestsKept_initial : RequestsKept ids (machine ids : Machine (RunRequests Doc) (Action Doc)).initial := by
  constructor
  · rfl
  · simp [machine]
  · simp [machine]
  · simp [machine]
  · simp [machine]

theorem keeps_step (kept : RequestsKept ids before) (present : before.row.committed = some run)
    (stepped : (machine ids).step action before = some after) :
    ∃ next, after.row.committed = some next ∧ RowKeeps run next := by
  cases action with
  | select pid call =>
      have selected : before.select pid call = some after := stepped
      unfold RunRequests.select at selected
      split at selected
      · cases selected
        exact ⟨run, present, .refl⟩
      · contradiction
  | flush pid =>
      obtain ⟨call, existing, _, outcome⟩ := flush_cases stepped
      obtain rfl | ⟨written, _, ⟨_, _, _, rfl⟩ | ⟨read, current, _, _, ⟨_, rfl⟩ | ⟨_, _, rfl⟩⟩⟩ := outcome
      all_goals exact ⟨run, present, .refl⟩
  | commit pid =>
      obtain ⟨call, existing, flushed, rfl⟩ := commit_eq stepped
      obtain ⟨_, _, _, absent, _⟩ | ⟨read, current, next, _, stored, published, lands⟩ := commit_row kept flushed
      · rw [present] at absent
        contradiction
      · cases present.symm.trans stored
        exact ⟨next, published, lands.keeps⟩
  | rollback pid =>
      refine ⟨run, ?_, .refl⟩
      rw [rollback_eq stepped]
      obtain ⟨row, _, freed⟩ | ⟨_, same⟩ := Slot.rollback_cases before.row pid
      · rw [freed]
        exact present
      · rw [same]
        exact present

/-- Where every flush finds what it adds to as it was read, the committed row has
the effects of all committed calls, and keeps its history, its briefing and the
end of the run. -/
theorem reports_kept (ran : (machine ids).Run earlier middle) (continued : (machine ids).Segment middle later last)
    (found : ∀ taken ∈ later ++ earlier, FlushesAsRead ids taken.1 taken.2) :
    EffectsLeft last ∧ ∀ run, middle.row.committed = some run →
      ∃ next, last.row.committed = some next ∧ RowKeeps run next := by
  have reached : RequestsKept ids middle :=
    ran.always requestsKept_initial (fun kept (finds : FlushesAsRead ids _ _) stepped => kept.step finds stepped)
      (fun taken member => found taken (List.mem_append_right _ member)) middle List.mem_cons_self
  have whole : RequestsKept ids last ∧ ∀ run, middle.row.committed = some run →
      ∃ next, last.row.committed = some next ∧ RowKeeps run next := by
    apply continued.keeps ⟨reached, fun run present => ⟨run, present, .refl⟩⟩
    intro before action after member ⟨kept, still⟩ stepped
    refine ⟨kept.step (found _ (List.mem_append_left _ member)) stepped, fun run present => ?_⟩
    obtain ⟨next, published, keeps⟩ := still run present
    obtain ⟨final, final_published, kept_on⟩ := keeps_step kept published stepped
    exact ⟨final, final_published, keeps.trans kept_on⟩
  exact ⟨whole.1.effects, whole.2⟩

end Runs

/-- The call has read this row and has not flushed. -/
def hasRead (row : Option (AgentRun Unit)) : RequestPhase Unit → Bool
  | .read _ existing => existing = row
  | _ => false

/-- A report, and then a second one and a briefing that read the same row. -/
theorem reports_kept_in_order : ∃ (middle last : RunRequests Unit) (run next : AgentRun Unit),
    hasRead (some run) (middle.phase 2) ∧ hasRead (some run) (middle.phase 3) ∧ last.committed.length = 3 ∧
      EffectsLeft last ∧ middle.row.committed = some run ∧ last.row.committed = some next ∧ RowKeeps run next := by
  obtain ⟨steps, last, ran, checked⟩ := @Machine.exists_run _ _ (machine reportedIds)
    [.select 1 (stepReport 0), .flush 1, .commit 1, .select 2 (stepReport 1), .select 3 (.briefing () none 0),
      .flush 2, .commit 2, .flush 3, .commit 3]
    (fun steps last => last.committed.length = 3 && decide (∀ taken ∈ steps, FlushesAsRead reportedIds taken.1 taken.2)
      && (Machine.visited steps last)[4]?.any fun middle => middle.row.committed.isSome &&
        hasRead middle.row.committed (middle.phase 2) && hasRead middle.row.committed (middle.phase 3))
    (by decide +kernel)
  simp only [Bool.and_eq_true, decide_eq_true_eq, Option.any_eq_true] at checked
  obtain ⟨⟨three, found⟩, middle, between, ⟨present, second⟩, third⟩ := checked
  obtain ⟨ran, continued⟩ := ran.cut between
  obtain ⟨run, present⟩ := Option.isSome_iff_exists.mp present
  rw [present] at second third
  have kept := reports_kept ran continued (by rwa [List.take_append_drop])
  obtain ⟨next, published, keeps⟩ := kept.2 run present
  exact ⟨middle, last, run, next, second, third, three, kept.1, present, published, keeps⟩

/-- Two reports that read the same row: the step of the first is gone. -/
theorem overlapping_report_lost : ∃ (steps : List (RunRequests Unit × Action Unit)) (last : RunRequests Unit),
    (machine reportedIds).Run steps last ∧ some 1 ∈ sentSeqs last.committed ∧
      (∀ run, last.row.committed = some run → some 1 ∉ storedSeqs run ∧ run.stepsDropped = 0) ∧
      ¬ EffectsLeft last := by
  obtain ⟨steps, last, ran, checked⟩ := @Machine.exists_run _ _ (machine reportedIds)
    [.select 1 (stepReport 0), .flush 1, .commit 1, .select 2 (stepReport 1), .select 3 (stepReport 2),
      .flush 2, .commit 2, .flush 3, .commit 3]
    (fun _ last => decide (some 1 ∈ sentSeqs last.committed) && last.row.committed.any fun run =>
      decide (some 1 ∉ storedSeqs run) && run.stepsDropped = 0 &&
        unstored (sentSeqs last.committed) (storedSeqs run) = 1) (by decide +kernel)
  simp only [Bool.and_eq_true, decide_eq_true_eq, Option.any_eq_true] at checked
  obtain ⟨sent, run, present, ⟨absent, none⟩, one⟩ := checked
  refine ⟨steps, last, ran, sent, fun other same => ?_, ?_⟩
  · cases present.symm.trans same
    exact ⟨absent, none⟩
  · intro effects
    rw [EffectsLeft, present] at effects
    have few := effects.steps
    omega

end IncidentPlatform.Properties

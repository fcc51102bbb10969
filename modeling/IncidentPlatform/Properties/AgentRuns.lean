import IncidentPlatform.Services.AgentRun
import Mathlib.Data.Finset.Card
import Mathlib.Data.List.Chain

namespace IncidentPlatform.Properties

open Models Concurrency Services

/-! # The record of one agent run

What `report_run` and `report_briefing` keep, one call after the other: the
timeline, the ledger of steps, and what a repeated report changes.
-/

variable {Doc Entry : Type} {ids : RunIds} {existing before after middle last : Option (AgentRun Doc)}
  {run next : AgentRun Doc} {sent : RunReport Doc} {outcome : ReportOutcome Doc} {call : RunCall Doc}
  {calls earlier later : List (Option (AgentRun Doc) × RunCall Doc)}

section Capped

variable {entries : List Entry} {entry : Entry} {cap : Nat}

theorem capped_eq_drop : capped entries cap = entries.drop (entries.length - cap) := by
  unfold capped
  split
  · rfl
  · rename_i within
    have none : entries.length - cap = 0 := by omega
    rw [none, List.drop_zero]

theorem length_capped : (capped entries cap).length = min entries.length cap := by
  rw [capped_eq_drop, List.length_drop]
  omega

theorem capped_sublist : (capped entries cap).Sublist entries := by
  rw [capped_eq_drop]
  exact List.drop_sublist ..

theorem capped_append (room : 0 < cap) :
    capped (entries ++ [entry]) cap = entries.drop (entries.length - (cap - 1)) ++ [entry] := by
  have inside : entries.length + 1 - cap = entries.length - (cap - 1) := by omega
  rw [capped_eq_drop, List.length_append, List.length_singleton, inside,
    List.drop_append_of_le_length (by omega)]

theorem capped_capped_append (room : 0 < cap) :
    capped (capped entries cap ++ [entry]) cap = capped (entries ++ [entry]) cap := by
  have inside : entries.length - cap + (entries.length - (entries.length - cap) - (cap - 1)) =
      entries.length - (cap - 1) := by omega
  rw [capped_append room, capped_append room, capped_eq_drop, List.length_drop, List.drop_drop, inside]

theorem eq_of_mem_of_shift {first other : Entry} {rest : List Entry}
    (shifts : rest ++ [entry] = first :: rest) (member : other ∈ first :: rest) : other = entry := by
  induction rest generalizing first with
  | nil =>
      cases shifts
      exact List.mem_singleton.mp member
  | cons second rest ih =>
      rw [List.cons_append, List.cons.injEq] at shifts
      obtain ⟨rfl, shifts⟩ := shifts
      obtain rfl | older := List.mem_cons.mp member
      · exact ih shifts List.mem_cons_self
      · exact ih shifts older

theorem drop_append_self_iff {kept : List Entry} :
    (kept ++ [entry]).drop 1 = kept ↔ kept = List.replicate kept.length entry := by
  cases kept with
  | nil => simp
  | cons first rest =>
      constructor
      · intro shifts
        exact List.eq_replicate_of_mem fun other member => eq_of_mem_of_shift shifts member
      · intro same
        have rotates : ∀ count, (List.replicate (count + 1) entry ++ [entry]).drop 1 =
            List.replicate (count + 1) entry := fun count => by
          rw [← List.replicate_succ', List.drop_replicate]
          rfl
        rw [same]
        exact rotates _

theorem capped_again_iff (room : 0 < cap) :
    capped (capped (entries ++ [entry]) cap ++ [entry]) cap = capped (entries ++ [entry]) cap ↔
      entries.drop (entries.length - (cap - 1)) = List.replicate (cap - 1) entry := by
  have short : (entries.drop (entries.length - (cap - 1))).length ≤ cap - 1 := by
    rw [List.length_drop]
    omega
  rw [@capped_append _ entries entry cap room]
  generalize entries.drop (entries.length - (cap - 1)) = kept at short ⊢
  rw [capped_append room, List.append_left_inj, List.length_append, List.length_singleton]
  obtain full | room := Nat.eq_or_lt_of_le short
  · rw [← full, Nat.add_sub_cancel_left]
    exact drop_append_self_iff
  · have none : kept.length + 1 - (cap - 1) = 0 := by omega
    rw [none, List.drop_zero]
    constructor
    · intro same
      simpa using congrArg List.length same
    · intro same
      have length := congrArg List.length same
      rw [List.length_replicate] at length
      omega

end Capped

section Steps

variable {steps : List (AgentStep Doc)} {step : AgentStep Doc}

theorem appendStep_cases (steps : List (AgentStep Doc)) (step : AgentStep Doc) :
    (step.seq.isSome ∧ (∃ stored ∈ steps, stored.seq = step.seq) ∧ appendStep steps step = (steps, 0)) ∨
    ((∀ seq, step.seq = some seq → ∀ stored ∈ steps, stored.seq ≠ some seq) ∧
      appendStep steps step = (capped (steps ++ [step]) stepsCap, steps.length + 1 - stepsCap)) := by
  by_cases repeated : step.seq.isSome ∧ steps.any (fun existing => existing.seq = step.seq)
  · obtain ⟨stored, member, same⟩ := List.any_eq_true.mp repeated.2
    exact .inl ⟨repeated.1, ⟨stored, member, of_decide_eq_true same⟩, if_pos repeated⟩
  · refine .inr ⟨?_, ?_⟩
    · intro seq named stored member same
      refine repeated ⟨by simp [named], List.any_eq_true.mpr ⟨stored, member, ?_⟩⟩
      exact decide_eq_true (same.trans named.symm)
    · simp only [appendStep, if_neg repeated, List.length_append, List.length_singleton]

theorem stepsCap_pos : 0 < stepsCap := by decide

theorem mem_capped_append : step ∈ capped (steps ++ [step]) stepsCap := by
  rw [capped_append stepsCap_pos]
  exact List.mem_append_right _ List.mem_cons_self

theorem appendStep_settled_iff :
    appendStep steps step = (steps, 0) ↔ step.seq.isSome ∧ ∃ stored ∈ steps, stored.seq = step.seq := by
  obtain ⟨named, stored, settled⟩ | ⟨fresh, appended⟩ := appendStep_cases steps step
  · exact iff_of_true settled ⟨named, stored⟩
  · refine iff_of_false ?_ ?_
    · rw [appended, Prod.mk.injEq]
      rintro ⟨same, within⟩
      have length := congrArg List.length same
      rw [length_capped, List.length_append, List.length_singleton] at length
      omega
    · rintro ⟨named, stored, member, same⟩
      obtain ⟨seq, named⟩ := Option.isSome_iff_exists.mp named
      exact fresh seq named stored member (same.trans named)

theorem exists_seq_appendStep : ∃ stored ∈ (appendStep steps step).1, stored.seq = step.seq := by
  obtain ⟨_, stored, settled⟩ | ⟨_, appended⟩ := appendStep_cases steps step
  · rwa [settled]
  · rw [appended]
    exact ⟨step, mem_capped_append, rfl⟩

theorem appendStep_twice_iff : appendStep (appendStep steps step).1 step = ((appendStep steps step).1, 0) ↔
    step.seq.isSome := by
  rw [appendStep_settled_iff]
  exact and_iff_left exists_seq_appendStep

end Steps

theorem reportRun_cases (accepted : reportRun ids existing sent = .ok outcome) :
    existing = none ∧ outcome.run = .createdBy ids sent ∨
      ∃ run, existing = some run ∧ run.finishedAt = none ∧ outcome.run = run.updatedBy sent := by
  cases existing with
  | none =>
      cases accepted
      exact .inl ⟨rfl, rfl⟩
  | some run =>
      simp only [reportRun] at accepted
      cases finished : run.finishedAt with
      | some stamp =>
          rw [finished] at accepted
          contradiction
      | none =>
          rw [finished] at accepted
          cases accepted
          exact .inr ⟨run, rfl, finished, rfl⟩

theorem reportRun_open (open_ : run.finishedAt = none) :
    ∃ outcome, reportRun ids (some run) sent = .ok outcome ∧ outcome.run = run.updatedBy sent := by
  simp only [reportRun, open_]
  exact ⟨_, rfl, rfl⟩

theorem reportRun_closed {stamp : Time} (closed : run.finishedAt = some stamp) :
    ∃ conflict, reportRun ids (some run) sent = .error conflict := by
  simp only [reportRun, closed]
  exact ⟨_, rfl⟩

theorem reportBriefing_cases {body : Doc} {prose : Option String} {stamp : Time}
    (accepted : reportBriefing ids existing body prose stamp = .ok next) :
    ∃ run, existing = some run ∧ run.briefing = none ∧ next = run.briefedBy ⟨body, prose, stamp⟩ := by
  cases existing with
  | none => contradiction
  | some run =>
      simp only [reportBriefing] at accepted
      cases briefed : run.briefing with
      | some briefing =>
          rw [briefed] at accepted
          contradiction
      | none =>
          rw [briefed] at accepted
          cases accepted
          exact ⟨run, rfl, briefed, rfl⟩

theorem runCalls_step_cases (stepped : (runCalls ids).step call before = some after) :
    after = before ∧ (∃ conflict, call.apply ids before = .error conflict) ∨
      (∃ sent, call = .report sent ∧
        (before = none ∧ after = some (.createdBy ids sent) ∨
          ∃ run, before = some run ∧ run.finishedAt = none ∧ after = some (run.updatedBy sent))) ∨
      ∃ body prose stamp run, call = .briefing body prose stamp ∧ before = some run ∧
        run.briefing = none ∧ after = some (run.briefedBy ⟨body, prose, stamp⟩) := by
  simp only [runCalls] at stepped
  cases applied : call.apply ids before with
  | error conflict =>
      rw [applied] at stepped
      cases stepped
      exact .inl ⟨rfl, conflict, rfl⟩
  | ok run =>
      rw [applied] at stepped
      cases stepped
      cases call with
      | report sent =>
          simp only [RunCall.apply] at applied
          cases accepted : reportRun ids before sent with
          | error conflict =>
              rw [accepted] at applied
              contradiction
          | ok outcome =>
              rw [accepted] at applied
              cases applied
              obtain ⟨rfl, same⟩ | ⟨run, rfl, open_, same⟩ := reportRun_cases accepted
              · exact .inr (.inl ⟨sent, rfl, .inl ⟨rfl, congrArg some same⟩⟩)
              · exact .inr (.inl ⟨sent, rfl, .inr ⟨run, rfl, open_, congrArg some same⟩⟩)
      | briefing body prose stamp =>
          obtain ⟨earlier, rfl, unbriefed, rfl⟩ := reportBriefing_cases applied
          exact .inr (.inr ⟨body, prose, stamp, earlier, rfl, rfl, unbriefed, rfl⟩)

/-- The verdicts kept before the newest are all the one that is reported. -/
def RepeatsVerdict (existing : Option (AgentRun Doc)) (verification : Doc) : Prop :=
  ∃ run, existing = some run ∧
    run.verifications.drop (run.verifications.length - (verificationsCap - 1)) =
      List.replicate (verificationsCap - 1) verification

theorem or_or_self {Column : Type} (given kept : Option Column) : given.or (given.or kept) = given.or kept := by
  rw [← Option.or_assoc, Option.or_self]

theorem getD_getD_self {Column : Type} (given : Option Column) (kept : Column) :
    given.getD (given.getD kept) = given.getD kept := by
  cases given <;> rfl

/-- What is left to change of a run by a report that it has taken: its ledgers. -/
def LedgersUnchanged (run : AgentRun Doc) (sent : RunReport Doc) : Prop :=
  (∀ verification, sent.verification = some verification →
    capped (run.verifications ++ [verification]) verificationsCap = run.verifications) ∧
  ∀ step, sent.step = some step → appendStep run.steps step = (run.steps, 0)

theorem updatedBy_again_iff (stays : sent.state.terminal = false) :
    (run.updatedBy sent).updatedBy sent = run.updatedBy sent ↔ LedgersUnchanged (run.updatedBy sent) sent := by
  unfold LedgersUnchanged
  simp only [AgentRun.updatedBy, AgentRun.mk.injEq, stays, or_or_self, getD_getD_self, true_and, and_true,
    if_true, Bool.false_eq_true, if_false]
  cases sent.verification <;> cases sent.step <;> simp [Prod.ext_iff]

theorem createdBy_again_iff (stays : sent.state.terminal = false) :
    (AgentRun.createdBy ids sent).updatedBy sent = .createdBy ids sent ↔
      LedgersUnchanged (.createdBy ids sent) sent := by
  unfold LedgersUnchanged
  simp only [AgentRun.updatedBy, AgentRun.createdBy, AgentRun.mk.injEq, stays, Option.or_self, true_and,
    and_true, if_true, Bool.false_eq_true, if_false]
  cases sent.verification <;> cases sent.step <;> cases sent.hypotheses <;> simp [Prod.ext_iff]

theorem ledgersUnchanged_updatedBy_iff : LedgersUnchanged (run.updatedBy sent) sent ↔
    (∀ verification, sent.verification = some verification → RepeatsVerdict (some run) verification) ∧
      ∀ step, sent.step = some step → step.seq.isSome := by
  unfold LedgersUnchanged
  apply and_congr
  · refine forall_congr' fun verification => forall_congr' fun given => ?_
    simp only [AgentRun.updatedBy, given]
    rw [capped_again_iff (by decide)]
    simp [RepeatsVerdict]
  · refine forall_congr' fun step => forall_congr' fun given => ?_
    simp only [AgentRun.updatedBy, given]
    exact appendStep_twice_iff

theorem ledgersUnchanged_createdBy_iff : LedgersUnchanged (.createdBy ids sent) sent ↔
    (∀ verification, sent.verification = some verification → RepeatsVerdict none verification) ∧
      ∀ step, sent.step = some step → step.seq.isSome := by
  unfold LedgersUnchanged
  apply and_congr
  · refine forall_congr' fun verification => forall_congr' fun given => iff_of_false ?_ ?_
    · simp [AgentRun.createdBy, given, capped, verificationsCap]
    · rintro ⟨run, none, _⟩
      contradiction
  · refine forall_congr' fun step => forall_congr' fun given => ?_
    simp only [AgentRun.createdBy, given, Option.toList_some]
    rw [appendStep_settled_iff]
    simp

/-- A report that is accepted and leaves the run open changes nothing when it is
made again exactly if it brings no verdict, or one that fills the list already,
and its step has a `seq`. -/
theorem reported_twice_iff (accepted : reportRun ids existing sent = .ok outcome)
    (stays : sent.state.terminal = false) :
    (∃ again, reportRun ids (some outcome.run) sent = .ok again ∧ again.run = outcome.run) ↔
      (∀ verification, sent.verification = some verification → RepeatsVerdict existing verification) ∧
        ∀ step, sent.step = some step → step.seq.isSome := by
  have taken (open_ : outcome.run.finishedAt = none) :
      (∃ again, reportRun ids (some outcome.run) sent = .ok again ∧ again.run = outcome.run) ↔
        outcome.run.updatedBy sent = outcome.run := by
    obtain ⟨again, twice, same⟩ := @reportRun_open _ ids _ sent open_
    rw [twice]
    simp [same]
  obtain ⟨rfl, same⟩ | ⟨run, rfl, open_, same⟩ := reportRun_cases accepted
  · rw [taken (by rw [same]; simp [AgentRun.createdBy, stays]), same, createdBy_again_iff stays,
      ledgersUnchanged_createdBy_iff]
  · rw [taken (by rw [same]; simp [AgentRun.updatedBy, stays, open_]), same, updatedBy_again_iff stays,
      ledgersUnchanged_updatedBy_iff]

def reportedIds : RunIds := ⟨1, 2, 3⟩

/-- A step is taken once, however often its report is retried. -/
theorem step_reported_twice : ∃ outcome again,
    reportRun reportedIds none { state := .investigating, stamp := 0, step := some ⟨some 0, "list_jobs"⟩ } =
      .ok outcome ∧
    reportRun reportedIds (some outcome.run)
      { state := .investigating, stamp := 0, step := some ⟨some 0, "list_jobs"⟩ } = .ok again ∧
    again.run = outcome.run := by
  obtain ⟨again, twice, same⟩ := (@reported_twice_iff String reportedIds none
    { state := .investigating, stamp := 0, step := some ⟨some 0, "list_jobs"⟩ } _ rfl rfl).mpr
    ⟨nofun, fun step given => by cases given; rfl⟩
  exact ⟨_, again, rfl, twice, same⟩

/-- A verdict is counted again. -/
theorem verdict_reported_twice : ∃ outcome again,
    reportRun reportedIds none { state := .verifying, stamp := 0, verification := some "not_verified" } =
      .ok outcome ∧
    reportRun reportedIds (some outcome.run)
      { state := .verifying, stamp := 0, verification := some "not_verified" } = .ok again ∧
    outcome.run.verifications = ["not_verified"] ∧
    again.run.verifications = ["not_verified", "not_verified"] :=
  ⟨_, _, rfl, rfl, rfl, rfl⟩

def acceptedStep (existing : Option (AgentRun Doc)) : RunCall Doc → Option (AgentStep Doc)
  | .report sent => if existing.all fun run => run.finishedAt.isNone then sent.step else none
  | .briefing .. => none

/-- The `seq` values reported so far. -/
def reportedSeqs (calls : List (Option (AgentRun Doc) × RunCall Doc)) : List Int :=
  calls.filterMap fun taken => (acceptedStep taken.1 taken.2).bind AgentStep.seq

def ledger (existing : Option (AgentRun Doc)) : List (AgentStep Doc) := (existing.map AgentRun.steps).getD []

def ledgerDropped (existing : Option (AgentRun Doc)) : Nat := (existing.map AgentRun.stepsDropped).getD 0

/-- The stored steps have distinct `seq`s and fit the cap, and with the dropped
ones they are as many as the `seq`s reported. -/
structure LedgerAccounts (calls : List (Option (AgentRun Doc) × RunCall Doc))
    (existing : Option (AgentRun Doc)) : Prop where
  distinct : ((ledger existing).map AgentStep.seq).Nodup
  within : (ledger existing).length ≤ stepsCap
  counted : (ledger existing).length + ledgerDropped existing = (reportedSeqs calls).toFinset.card

/-- Every accepted step has a `seq`, which is stored still if it was reported
before. -/
def OnlyStoredRepeats : List (Option (AgentRun Doc) × RunCall Doc) → Prop
  | [] => True
  | (existing, call) :: earlier => OnlyStoredRepeats earlier ∧
      ∀ step, acceptedStep existing call = some step → ∃ seq, step.seq = some seq ∧
        (seq ∈ reportedSeqs earlier → ∃ stored ∈ ledger existing, stored.seq = some seq)

theorem ledger_step (stepped : (runCalls ids).step call before = some after) :
    match acceptedStep before call with
    | none => ledger after = ledger before ∧ ledgerDropped after = ledgerDropped before
    | some step => ledger after = (appendStep (ledger before) step).1 ∧
        ledgerDropped after = ledgerDropped before + (appendStep (ledger before) step).2 := by
  obtain ⟨rfl, conflict, refused⟩ | ⟨sent, rfl, ⟨rfl, rfl⟩ | ⟨run, rfl, open_, rfl⟩⟩ |
    ⟨body, prose, stamp, run, rfl, rfl, _, rfl⟩ := runCalls_step_cases stepped
  · have rejects : acceptedStep after call = none := by
      cases call with
      | briefing => rfl
      | report sent =>
          cases after with
          | none => contradiction
          | some run =>
              cases finished : run.finishedAt with
              | none => simp [RunCall.apply, reportRun, finished, Except.map] at refused
              | some stamp => simp [acceptedStep, finished]
    simp [rejects]
  · cases given : sent.step with
    | none => simp [acceptedStep, given, ledger, ledgerDropped, AgentRun.createdBy]
    | some step =>
        simp [acceptedStep, given, ledger, ledgerDropped, AgentRun.createdBy, appendStep, capped, stepsCap]
  · cases given : sent.step with
    | none => simp [acceptedStep, open_, given, ledger, ledgerDropped, AgentRun.updatedBy]
    | some step => simp [acceptedStep, open_, given, ledger, ledgerDropped, AgentRun.updatedBy]
  · simp [acceptedStep, ledger, ledgerDropped, AgentRun.briefedBy]

/-- What every run of calls keeps of its ledger. -/
structure LedgerKept (calls : List (Option (AgentRun Doc) × RunCall Doc))
    (existing : Option (AgentRun Doc)) : Prop where
  within : (ledger existing).length ≤ stepsCap
  reported : ∀ stored ∈ ledger existing, ∀ seq, stored.seq = some seq → seq ∈ reportedSeqs calls
  covered : (reportedSeqs calls).toFinset.card ≤ (ledger existing).length + ledgerDropped existing
  exactly : (ledger existing).length + ledgerDropped existing = (reportedSeqs calls).toFinset.card ↔
    OnlyStoredRepeats calls
  distinct : OnlyStoredRepeats calls → ((ledger existing).map AgentStep.seq).Nodup

theorem reportedSeqs_cons : reportedSeqs ((existing, call) :: earlier) =
    ((acceptedStep existing call).bind AgentStep.seq).toList ++ reportedSeqs earlier := by
  unfold reportedSeqs
  rw [List.filterMap_cons]
  cases (acceptedStep existing call).bind AgentStep.seq <;> rfl

theorem LedgerKept.append (kept : LedgerKept earlier before) {step : AgentStep Doc}
    (accepted : acceptedStep before call = some step)
    (fresh : ∀ seq, step.seq = some seq → ∀ stored ∈ ledger before, stored.seq ≠ some seq)
    (grown : ledger after = capped (ledger before ++ [step]) stepsCap)
    (dropped : ledgerDropped after = ledgerDropped before + ((ledger before).length + 1 - stepsCap)) :
    LedgerKept ((before, call) :: earlier) after := by
  have within := kept.within
  have total : (ledger after).length + ledgerDropped after =
      (ledger before).length + ledgerDropped before + 1 := by
    rw [grown, dropped, length_capped, List.length_append, List.length_singleton]
    omega
  have cons := @reportedSeqs_cons _ before call earlier
  rw [accepted, Option.bind_some] at cons
  constructor
  · rw [grown, length_capped]
    exact min_le_right ..
  · intro stored member seq named
    rw [grown] at member
    rw [cons]
    obtain older | newest := List.mem_append.mp (capped_sublist.mem member)
    · exact List.mem_append_right _ (kept.reported stored older seq named)
    · rw [← List.mem_singleton.mp newest, named]
      exact List.mem_append_left _ List.mem_cons_self
  · rw [total, cons]
    have covered := kept.covered
    cases step.seq with
    | none => exact covered.trans (Nat.le_succ _)
    | some seq =>
        rw [Option.toList_some, List.singleton_append, List.toFinset_cons]
        exact (Finset.card_insert_le ..).trans (Nat.succ_le_succ covered)
  · rw [total, cons]
    simp only [OnlyStoredRepeats, accepted, Option.some.injEq, forall_eq']
    have covered := kept.covered
    cases named : step.seq with
    | none => simp; omega
    | some seq =>
        rw [Option.toList_some, List.singleton_append, List.toFinset_cons]
        by_cases known : seq ∈ reportedSeqs earlier
        · rw [Finset.insert_eq_of_mem (List.mem_toFinset.mpr known)]
          refine iff_of_false (by omega) ?_
          rintro ⟨_, other, same, stored⟩
          cases same
          obtain ⟨stored, member, same⟩ := stored known
          exact fresh seq named stored member same
        · rw [Finset.card_insert_of_notMem (by simpa using known), Nat.add_right_cancel_iff, kept.exactly]
          simp [known]
  · rintro ⟨earlier, named⟩
    obtain ⟨seq, named, _⟩ := named step accepted
    have unstored : some seq ∉ (ledger before).map AgentStep.seq := fun stored => by
      obtain ⟨stored, member, same⟩ := List.mem_map.mp stored
      exact fresh seq named stored member same
    rw [grown]
    apply (capped_sublist.map AgentStep.seq).nodup
    rw [List.map_append, List.map_singleton, named]
    exact (kept.distinct earlier).append (List.nodup_singleton _) (by simpa using unstored)

theorem LedgerKept.stay (kept : LedgerKept earlier before)
    (settled : ∀ step, acceptedStep before call = some step →
      step.seq.isSome ∧ ∃ stored ∈ ledger before, stored.seq = step.seq)
    (same : ledger after = ledger before) (dropped : ledgerDropped after = ledgerDropped before) :
    LedgerKept ((before, call) :: earlier) after := by
  have reports : ∀ seq, seq ∈ reportedSeqs ((before, call) :: earlier) ↔ seq ∈ reportedSeqs earlier := by
    intro seq
    rw [reportedSeqs_cons]
    cases accepted : acceptedStep before call with
    | none => simp
    | some step =>
        obtain ⟨_, stored, member, same⟩ := settled step accepted
        simp only [Option.bind_some, List.mem_append, Option.mem_toList, or_iff_right_iff_imp]
        exact fun named => kept.reported stored member seq (same.trans named)
  have counts : (reportedSeqs ((before, call) :: earlier)).toFinset = (reportedSeqs earlier).toFinset := by
    ext seq
    rw [List.mem_toFinset, List.mem_toFinset, reports]
  have repeats : OnlyStoredRepeats ((before, call) :: earlier) ↔ OnlyStoredRepeats earlier := by
    refine and_iff_left fun step accepted => ?_
    obtain ⟨named, stored⟩ := settled step accepted
    obtain ⟨seq, named⟩ := Option.isSome_iff_exists.mp named
    exact ⟨seq, named, fun _ => named ▸ stored⟩
  constructor
  · rw [same]
    exact kept.within
  · intro stored member seq named
    rw [same] at member
    exact (reports seq).mpr (kept.reported stored member seq named)
  · rw [same, dropped, counts]
    exact kept.covered
  · rw [same, dropped, counts, repeats]
    exact kept.exactly
  · rw [same, repeats]
    exact kept.distinct

theorem LedgerKept.step (kept : LedgerKept earlier before)
    (stepped : (runCalls ids).step call before = some after) : LedgerKept ((before, call) :: earlier) after := by
  have moved := ledger_step stepped
  cases accepted : acceptedStep before call with
  | none =>
      rw [accepted] at moved
      exact kept.stay (by simp [accepted]) moved.1 moved.2
  | some step =>
      rw [accepted] at moved
      obtain ⟨named, stored, settled⟩ | ⟨fresh, appended⟩ := appendStep_cases (ledger before) step
      · refine kept.stay (fun other same => ?_) (by rw [moved.1, settled]) (by rw [moved.2, settled, Nat.add_zero])
        cases accepted.symm.trans same
        exact ⟨named, stored⟩
      · exact kept.append accepted fresh (by rw [moved.1, appended]) (by rw [moved.2, appended])

theorem ledgerKept (ran : (runCalls ids).Run calls last) : LedgerKept calls last := by
  induction ran with
  | start =>
      constructor <;> simp [runCalls, ledger, ledgerDropped, reportedSeqs, OnlyStoredRepeats]
  | step ran stepped ih => exact ih.step stepped

/-- The ledger accounts for every step exactly if each repeated step was stored
still when it was repeated. -/
theorem ledger_accounts_iff (ran : (runCalls ids).Run calls last) :
    LedgerAccounts calls last ↔ OnlyStoredRepeats calls := by
  have kept := ledgerKept ran
  constructor
  · exact fun accounts => kept.exactly.mp accounts.counted
  · exact fun repeats => ⟨kept.distinct repeats, kept.within, kept.exactly.mpr repeats⟩

def stepReport (seq : Nat) : RunCall Unit :=
  .report { state := .investigating, stamp := 0, step := some ⟨some seq, ()⟩ }

/-- Out of order, and with a repeat that the ledger has still. -/
theorem ledger_accounts_for_retry : ∃ (calls : List (Option (AgentRun Unit) × RunCall Unit)) (last : _),
    (runCalls reportedIds).Run calls last ∧ calls.length = 4 ∧ OnlyStoredRepeats calls := by
  obtain ⟨calls, last, ran, counts⟩ := @Machine.exists_run _ _ (runCalls reportedIds)
    [stepReport 2, stepReport 0, stepReport 2, stepReport 1]
    (fun calls last => calls.length = 4 && ((ledger last).map AgentStep.seq).Nodup &&
      (ledger last).length ≤ stepsCap &&
      (ledger last).length + ledgerDropped last = (reportedSeqs calls).toFinset.card) (by decide +kernel)
  simp only [Bool.and_eq_true, decide_eq_true_eq] at counts
  exact ⟨calls, last, ran, counts.1.1.1,
    (ledger_accounts_iff ran).mp ⟨counts.1.1.2, counts.1.2, counts.2⟩⟩

def numberedSteps (count : Nat) : List (AgentStep Unit) :=
  (List.range count).map fun number : Nat => ⟨some (number : Int), ()⟩

theorem numberedSteps_succ (count : Nat) :
    numberedSteps (count + 1) = numberedSteps count ++ [⟨some count, ()⟩] := by
  rw [numberedSteps, List.range_succ, List.map_append, List.map_singleton, numberedSteps]

theorem acceptedStep_stepReport {last : Option (AgentRun Unit)}
    (isOpen : last.all fun run => run.finishedAt.isNone) (seq : Nat) :
    acceptedStep last (stepReport seq) = some ⟨some seq, ()⟩ := by
  rw [stepReport, acceptedStep, if_pos isOpen]

theorem stepReport_step {last : Option (AgentRun Unit)}
    (isOpen : last.all fun run => run.finishedAt.isNone) (seq : Nat) :
    ∃ after, (runCalls reportedIds).step (stepReport seq) last = some after ∧
      after.all fun run => run.finishedAt.isNone := by
  cases last with
  | none => exact ⟨_, rfl, rfl⟩
  | some run =>
      have unfinished : run.finishedAt = none := Option.isNone_iff_eq_none.mp isOpen
      refine ⟨some (run.updatedBy { state := .investigating, stamp := 0, step := some ⟨some seq, ()⟩ }), ?_, ?_⟩
      · simp only [runCalls, RunCall.apply, stepReport, reportRun, unfinished]
        rfl
      · rw [Option.all_some, AgentRun.updatedBy, unfinished]
        rfl

theorem exists_numbered_run (count : Nat) : ∃ calls last, (runCalls reportedIds).Run calls last ∧
    (last.all fun run => run.finishedAt.isNone) ∧ ledger last = capped (numberedSteps count) stepsCap ∧
    ∀ number < count, (number : Int) ∈ reportedSeqs calls := by
  induction count with
  | zero => exact ⟨[], none, .start, rfl, rfl, fun _ none => absurd none (Nat.not_lt_zero _)⟩
  | succ count ih =>
      obtain ⟨calls, last, ran, isOpen, kept, reported⟩ := ih
      obtain ⟨after, stepped, still⟩ := stepReport_step isOpen count
      have accepted := acceptedStep_stepReport isOpen count
      have moved := ledger_step stepped
      rw [accepted] at moved
      refine ⟨_, after, ran.step stepped, still, ?_, fun number within => ?_⟩
      · obtain ⟨_, ⟨stored, member, same⟩, _⟩ | ⟨_, appended⟩ :=
          appendStep_cases (ledger last) ⟨some (count : Int), ()⟩
        · rw [kept] at member
          obtain ⟨number, below, rfl⟩ := List.mem_map.mp (capped_sublist.mem member)
          have below := List.mem_range.mp below
          simp only [Option.some.injEq] at same
          omega
        · rw [moved.1, appended, kept, capped_capped_append (by decide), numberedSteps_succ]
      · rw [reportedSeqs_cons, accepted, Option.bind_some, Option.toList_some]
        obtain earlier | rfl := Nat.lt_succ_iff_lt_or_eq.mp within
        · exact List.mem_append_right _ (reported number earlier)
        · exact List.mem_append_left _ List.mem_cons_self

/-- After 201 steps the first one is reported again. -/
theorem ledger_counts_retry : ∃ (calls : List (Option (AgentRun Unit) × RunCall Unit)) (last : _),
    (runCalls reportedIds).Run calls last ∧ ¬ LedgerAccounts calls last := by
  obtain ⟨calls, last, ran, isOpen, kept, reported⟩ := exists_numbered_run 201
  obtain ⟨after, stepped, _⟩ := stepReport_step isOpen 0
  refine ⟨_, after, ran.step stepped, fun accounts => ?_⟩
  have repeats := (ledgerKept (ran.step stepped)).exactly.mp accounts.counted
  obtain ⟨seq, named, still⟩ := repeats.2 _ (acceptedStep_stepReport isOpen 0)
  cases named
  obtain ⟨stored, member, same⟩ := still (reported 0 (by decide))
  rw [kept, capped_eq_drop, numberedSteps, ← List.map_drop, List.range_eq_range', List.drop_range'] at member
  obtain ⟨number, within, rfl⟩ := List.mem_map.mp member
  have newer := (List.mem_range'_1.mp within).1
  simp only [List.length_map, List.length_range', stepsCap] at newer
  simp only [Option.some.injEq] at same
  omega

/-- The state of a `report_run` call. -/
def reportedState : RunCall Doc → Option AgentRunState
  | .report sent => some sent.state
  | .briefing .. => none

/-- The state of the oldest `report_run` call. -/
def firstReported : List (Option (AgentRun Doc) × RunCall Doc) → Option AgentRunState
  | [] => none
  | (_, call) :: earlier => (firstReported earlier).or (reportedState call)

structure Timeline (first : Option AgentRunState) (run : AgentRun Doc) : Prop where
  starts : run.phaseHistory.head?.map PhaseEntry.state = first
  alternates : (run.phaseHistory.map PhaseEntry.state).IsChain (· ≠ ·)
  ends : run.phaseHistory.getLast?.map PhaseEntry.state = some run.state

/-- What later calls leave of a run. -/
structure Continues (run next : AgentRun Doc) : Prop where
  history : run.phaseHistory <+: next.phaseHistory
  finished : ∀ stamp, run.finishedAt = some stamp → next.finishedAt = some stamp
  briefing : ∀ briefing, run.briefing = some briefing → next.briefing = some briefing

theorem Continues.refl : Continues run run := ⟨List.prefix_rfl, fun _ same => same, fun _ same => same⟩

theorem Continues.trans {final : AgentRun Doc} (first : Continues run next) (second : Continues next final) :
    Continues run final where
  history := first.history.trans second.history
  finished := fun stamp same => second.finished stamp (first.finished stamp same)
  briefing := fun briefing same => second.briefing briefing (first.briefing briefing same)

theorem continues_updatedBy (open_ : run.finishedAt = none) : Continues run (run.updatedBy sent) where
  history := by
    simp only [AgentRun.updatedBy]
    split
    · exact List.prefix_rfl
    · exact List.prefix_append ..
  finished := by simp [open_]
  briefing := fun _ same => same

theorem continues_briefedBy {briefing : Briefing Doc} (unbriefed : run.briefing = none) :
    Continues run (run.briefedBy briefing) where
  history := List.prefix_rfl
  finished := by
    intro stamp same
    simp [AgentRun.briefedBy, same]
  briefing := by simp [unbriefed]

theorem timeline_createdBy : Timeline (some sent.state) (AgentRun.createdBy ids sent) where
  starts := rfl
  alternates := by simp [AgentRun.createdBy]
  ends := rfl

theorem Timeline.updatedBy {first : Option AgentRunState} (timeline : Timeline first run) :
    Timeline first (run.updatedBy sent) := by
  by_cases same : run.state = sent.state
  · have history : (run.updatedBy sent).phaseHistory = run.phaseHistory := if_pos same
    constructor
    · rw [history, timeline.starts]
    · rw [history]
      exact timeline.alternates
    · rw [history, timeline.ends, same]
      rfl
  · have history : (run.updatedBy sent).phaseHistory =
        run.phaseHistory ++ [⟨sent.state, sent.stamp⟩] := if_neg same
    have ends := timeline.ends
    constructor
    · rw [history, ← timeline.starts, List.head?_append]
      cases heads : run.phaseHistory with
      | nil =>
          rw [heads] at ends
          contradiction
      | cons => rfl
    · rw [history, List.map_append, List.map_singleton, List.isChain_append]
      refine ⟨timeline.alternates, List.isChain_singleton _, ?_⟩
      intro newest member other later
      rw [List.getLast?_map, ends] at member
      cases member
      cases later
      exact same
    · rw [history, List.getLast?_append]
      rfl

theorem continues_step (stepped : (runCalls ids).step call before = some after)
    (present : before = some run) : ∃ next, after = some next ∧ Continues run next := by
  subst present
  obtain ⟨rfl, _⟩ | ⟨sent, rfl, ⟨absent, _⟩ | ⟨other, same, open_, rfl⟩⟩ |
    ⟨body, prose, stamp, other, rfl, same, unbriefed, rfl⟩ := runCalls_step_cases stepped
  · exact ⟨run, rfl, .refl⟩
  · contradiction
  · cases same
    exact ⟨_, rfl, continues_updatedBy open_⟩
  · cases same
    exact ⟨_, rfl, continues_briefedBy unbriefed⟩

theorem continues_always (continued : (runCalls ids).Segment (some run) later last) :
    ∃ next, last = some next ∧ Continues run next := by
  apply continued.keeps ⟨run, rfl, .refl⟩
  rintro before call after _ ⟨middle, rfl, kept⟩ stepped
  obtain ⟨next, rfl, continues⟩ := continues_step stepped rfl
  exact ⟨next, rfl, kept.trans continues⟩

/-- The timeline of a run that there is; before there is one, no state has been
reported. -/
def TimelineKept (calls : List (Option (AgentRun Doc) × RunCall Doc)) : Option (AgentRun Doc) → Prop
  | some run => Timeline (firstReported calls) run
  | none => firstReported calls = none

theorem TimelineKept.step (kept : TimelineKept earlier before)
    (stepped : (runCalls ids).step call before = some after) :
    TimelineKept ((before, call) :: earlier) after := by
  have unchanged : ∀ run, before = some run →
      firstReported ((before, call) :: earlier) = firstReported earlier := by
    rintro run rfl
    have starts := kept.starts
    have ends := kept.ends
    cases heads : run.phaseHistory with
    | nil =>
        rw [heads] at ends
        contradiction
    | cons head rest =>
        rw [heads] at starts
        rw [firstReported, ← starts]
        rfl
  obtain ⟨rfl, conflict, refused⟩ | ⟨sent, rfl, ⟨rfl, rfl⟩ | ⟨run, rfl, open_, rfl⟩⟩ |
    ⟨body, prose, stamp, run, rfl, rfl, unbriefed, rfl⟩ := runCalls_step_cases stepped
  · cases after with
    | some run =>
        rw [TimelineKept, unchanged run rfl]
        exact kept
    | none =>
        cases call with
        | report sent => contradiction
        | briefing =>
            rw [TimelineKept, firstReported, kept]
            rfl
  · rw [TimelineKept, firstReported, kept]
    exact timeline_createdBy
  · rw [TimelineKept, unchanged run rfl]
    exact Timeline.updatedBy kept
  · rw [TimelineKept, unchanged run rfl]
    exact ⟨kept.starts, kept.alternates, kept.ends⟩

theorem timelineKept (ran : (runCalls ids).Run calls last) : TimelineKept calls last := by
  induction ran with
  | start => rfl
  | step ran stepped ih => exact ih.step stepped

def storesBriefing : Option (AgentRun Doc) × RunCall Doc → Bool
  | (some run, .briefing ..) => run.briefing.isNone
  | _ => false

theorem briefings_stored (ran : (runCalls ids).Run calls last) :
    calls.countP storesBriefing = if (last.bind AgentRun.briefing).isSome then 1 else 0 := by
  induction ran with
  | start => rfl
  | @step calls before after call ran stepped ih =>
      rw [List.countP_cons, ih]
      obtain ⟨rfl, conflict, refused⟩ | ⟨sent, rfl, ⟨rfl, rfl⟩ | ⟨run, rfl, open_, rfl⟩⟩ |
        ⟨body, prose, stamp, run, rfl, rfl, unbriefed, rfl⟩ := runCalls_step_cases stepped
      · have stores : storesBriefing (after, call) = false := by
          cases after with
          | none => rfl
          | some run =>
              cases call with
              | report sent => rfl
              | briefing body prose stamp =>
                  cases briefed : run.briefing with
                  | none => simp [RunCall.apply, reportBriefing, briefed] at refused
                  | some briefing => simp [storesBriefing, briefed]
        simp [stores]
      · rfl
      · have stores : storesBriefing (some run, .report sent) = false := rfl
        simp only [stores, Bool.false_eq_true, if_false, Nat.add_zero]
        rfl
      · simp [storesBriefing, unbriefed, AgentRun.briefedBy]

/-- The timeline of every run: it starts with the first reported state, has no
state twice in a row, ends in the state of the run and only grows; the time the
run finished at stays, and with it every report is refused and changes nothing;
one briefing is stored at most. -/
theorem run_timeline (ran : (runCalls ids).Run earlier middle)
    (continued : (runCalls ids).Segment middle later last) :
    (∀ run, middle = some run → Timeline (firstReported earlier) run ∧
      ∃ next, last = some next ∧ run.phaseHistory <+: next.phaseHistory ∧
        (∀ briefing, run.briefing = some briefing → next.briefing = some briefing) ∧
        ∀ stamp, run.finishedAt = some stamp → next.finishedAt = some stamp ∧
          ∀ sent, (∃ conflict, reportRun ids last sent = .error conflict) ∧
            (runCalls ids).step (.report sent) last = some last) ∧
      earlier.countP storesBriefing ≤ 1 := by
  constructor
  · rintro run rfl
    obtain ⟨next, rfl, continues⟩ := continues_always continued
    refine ⟨timelineKept ran, next, rfl, continues.history, continues.briefing, fun stamp closed => ?_⟩
    have finished := continues.finished stamp closed
    refine ⟨finished, fun sent => ?_⟩
    obtain ⟨conflict, refused⟩ := @reportRun_closed _ ids _ sent _ finished
    refine ⟨⟨conflict, refused⟩, ?_⟩
    simp only [runCalls, RunCall.apply, refused]
    rfl
  · rw [briefings_stored ran]
    split <;> omega

/-- A run that a briefing closes and that a report would reopen. -/
theorem briefed_run_timeline : ∃ next : AgentRun Unit,
    Timeline (some .triage) next ∧ next.finishedAt = some 2 ∧
      next.phaseHistory = [⟨.triage, 0⟩, ⟨.planning, 1⟩] := by
  obtain ⟨calls, last, ran, closed⟩ := @Machine.exists_run _ _ (runCalls reportedIds)
    [.report { state := .triage, stamp := 0 }, .report { state := .planning, stamp := 1 }, .briefing () none 2,
      .report { state := .resolved, stamp := 3 }, .briefing () none 4]
    (fun calls last => firstReported calls = some .triage && last.any fun run =>
      run.finishedAt = some 2 && run.phaseHistory = [⟨.triage, 0⟩, ⟨.planning, 1⟩]) (by decide +kernel)
  simp only [Bool.and_eq_true, decide_eq_true_eq, Option.any_eq_true] at closed
  obtain ⟨first, run, rfl, finished, history⟩ := closed
  have timeline := (run_timeline ran .start).1 run rfl
  exact ⟨run, first ▸ timeline.1, finished, history⟩

end IncidentPlatform.Properties

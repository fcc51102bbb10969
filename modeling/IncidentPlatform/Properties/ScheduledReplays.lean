import IncidentPlatform.Workers.DlqReplayScheduler

namespace IncidentPlatform.Properties

open Concurrency Models Platform Storage Workers DlqReplayScheduler

/-! # Scheduled replays are claimed, not lost

A member leaves the scheduled set only into the in-flight set or by a
cancellation, and leaves the in-flight set only by an acknowledgement.  A claim
renews the in-flight score, so what two claims of one member within one lifetime
have in common is an entry of the scheduled set.
-/

variable {textOrder : ScheduledMember → ScheduledMember → Bool}
  {sets : ReplaySets} {now : Time} {member : ScheduledMember} {replay : ReplayMember}
  {scheduler after : DlqReplayScheduler} {steps : List (DlqReplayScheduler × Action)}
  {last : DlqReplayScheduler} {action : Action}

theorem claimReady_bounded : (sets.claimReady textOrder now).1.length ≤ popLimit := by
  have lapsed : (sets.inflight.range textOrder now popLimit).length ≤ popLimit :=
    SortedSet.length_range
  have due : (sets.scheduled.range textOrder now
      (popLimit - (sets.inflight.range textOrder now popLimit).length)).length ≤
        popLimit - (sets.inflight.range textOrder now popLimit).length := SortedSet.length_range
  simp only [ReplaySets.claimReady, List.length_append]
  omega

theorem claimReady_cases (claimed : member ∈ (sets.claimReady textOrder now).1) :
    (∃ deadline ≤ now, (member, deadline) ∈ sets.inflight) ∨
      (∃ executeAt ≤ now, (member, executeAt) ∈ sets.scheduled) ∧
        member ∉ (sets.claimReady textOrder now).2.scheduled.members := by
  obtain lapsed | due := List.mem_append.mp claimed
  · exact .inl (SortedSet.mem_range lapsed)
  · refine .inr ⟨SortedSet.mem_range due, ?_⟩
    intro kept
    exact (SortedSet.mem_members_remove.mp kept).2 due

theorem claimReady_inflight :
    member ∈ (sets.claimReady textOrder now).2.inflight.members ↔
      member ∈ (sets.claimReady textOrder now).1 ∨ member ∈ sets.inflight.members :=
  SortedSet.mem_members_addAll

theorem claimReady_scheduled (kept : member ∈ (sets.claimReady textOrder now).2.scheduled.members) :
    member ∈ sets.scheduled.members :=
  (SortedSet.mem_members_remove.mp kept).1

theorem claimReady_keeps (held : member ∈ sets.scheduled.members ∨ member ∈ sets.inflight.members) :
    member ∈ (sets.claimReady textOrder now).2.scheduled.members ∨
      member ∈ (sets.claimReady textOrder now).2.inflight.members := by
  obtain scheduled | inflight := held
  · by_cases due : member ∈ sets.scheduled.range textOrder now
        (popLimit - (sets.inflight.range textOrder now popLimit).length)
    · exact .inr (claimReady_inflight.mpr (.inl (List.mem_append_right _ due)))
    · exact .inl (SortedSet.mem_members_remove.mpr ⟨scheduled, due⟩)
  · exact .inr (claimReady_inflight.mpr (.inr inflight))

theorem claimReady_deadline {deadline : Time}
    (held : (member, deadline) ∈ (sets.claimReady textOrder now).2.inflight) :
    deadline = now + claimTtl ∨
      (member, deadline) ∈ sets.inflight ∧ member ∉ (sets.claimReady textOrder now).1 :=
  SortedSet.mem_addAll held

theorem due_eq_range (members : List (ReplayMember × Time)) (limit : Nat) :
    World.due members now limit = SortedSet.range (fun _ _ => true) members now limit := by
  have sorted := List.map_insertionSort (fun first second => first.2 ≤ second.2)
    (SortedSet.byScore fun _ _ => true) id
    (members.filter fun entry => entry.2 ≤ now) fun first _ second _ => by
      simp [SortedSet.byScore, le_iff_lt_or_eq]
  simp only [List.map_id] at sorted
  simp only [World.due, SortedSet.range, sorted]

theorem perform_claimReadyReplays (world : World) :
    (replaySets world).claimReady (fun _ _ => true) world.outside.clock =
      ((world.perform .claimReadyReplays).1.map .replay,
        replaySets (world.perform .claimReadyReplays).2) := by
  have injective : Function.Injective ScheduledMember.replay := fun _ _ same => by cases same; rfl
  have claimed : World.due world.replayInflight world.outside.clock popLimit ++
      World.due world.replayScheduled world.outside.clock
        (popLimit - (World.due world.replayInflight world.outside.clock popLimit).length) =
      (world.perform .claimReadyReplays).1 := rfl
  simp only [ReplaySets.claimReady, replaySets, SortedSet.range_renamed, ← due_eq_range,
    List.length_map, ← List.map_append, SortedSet.remove_renamed injective,
    SortedSet.addAll_renamed injective, claimed]
  rfl

theorem step_sets (stepped : step textOrder action scheduler = some after) :
    (∃ replay executeAt, action = .armReplay replay executeAt ∧
      after.sets.scheduled = scheduler.sets.scheduled.add (.replay replay) executeAt ∧
      after.sets.inflight = scheduler.sets.inflight ∧ after.clock = scheduler.clock) ∨
    (∃ replay, action = .cancelScheduledReplay replay ∧
      after.sets.scheduled = scheduler.sets.scheduled.remove [.replay replay] ∧
      after.sets.inflight = scheduler.sets.inflight ∧ after.clock = scheduler.clock) ∨
    (∃ worker now, action = .claimReady worker now ∧ scheduler.clock ≤ now ∧
      after.sets = (scheduler.sets.claimReady textOrder now).2 ∧ after.clock = now) ∨
    (∃ member, ((∃ worker replay, action = .ackReplay worker replay ∧ member = .replay replay) ∨
        ∃ worker text, action = .dropUnparseable worker text ∧ member = .unparseable text) ∧
      after.sets.scheduled = scheduler.sets.scheduled ∧
      after.sets.inflight = scheduler.sets.inflight.remove [member] ∧
      after.clock = scheduler.clock) ∨
    (∃ text score, action = .writeForeign text score ∧
      after.sets.scheduled = scheduler.sets.scheduled.add (.unparseable text) score ∧
      after.sets.inflight = scheduler.sets.inflight ∧ after.clock = scheduler.clock) ∨
    (∃ worker, action = .crash worker ∧ after.sets = scheduler.sets ∧
      after.clock = scheduler.clock) := by
  cases action with
  | armReplay replay executeAt =>
      cases stepped
      exact .inl ⟨replay, executeAt, rfl, rfl, rfl, rfl⟩
  | cancelScheduledReplay replay =>
      cases stepped
      exact .inr (.inl ⟨replay, rfl, rfl, rfl, rfl⟩)
  | claimReady worker now =>
      simp only [step] at stepped
      split at stepped
      · rename_i later
        cases stepped
        exact .inr (.inr (.inl ⟨worker, now, rfl, later, rfl, rfl⟩))
      · contradiction
  | ackReplay worker replay =>
      simp only [step, release] at stepped
      split at stepped
      · cases stepped
        exact .inr (.inr (.inr (.inl ⟨_, .inl ⟨worker, replay, rfl, rfl⟩, rfl, rfl, rfl⟩)))
      · contradiction
  | dropUnparseable worker text =>
      simp only [step, release] at stepped
      split at stepped
      · cases stepped
        exact .inr (.inr (.inr (.inl ⟨_, .inr ⟨worker, text, rfl, rfl⟩, rfl, rfl, rfl⟩)))
      · contradiction
  | crash worker =>
      cases stepped
      exact .inr (.inr (.inr (.inr (.inr ⟨worker, rfl, rfl, rfl⟩))))
  | writeForeign text score =>
      cases stepped
      exact .inr (.inr (.inr (.inr (.inl ⟨text, score, rfl, rfl, rfl, rfl⟩))))

/-- The steps that take an armed replay out: a cancellation or an acknowledgement. -/
def takesOut (replay : ReplayMember) : Action → Bool
  | .cancelScheduledReplay member | .ackReplay _ member => member = replay
  | _ => false

def arms (replay : ReplayMember) : Action → Bool
  | .armReplay member _ => member = replay
  | _ => false

theorem step_keeps (stepped : step textOrder action scheduler = some after)
    (keeps : takesOut replay action = false)
    (held : .replay replay ∈ scheduler.sets.scheduled.members ∨
      .replay replay ∈ scheduler.sets.inflight.members) :
    .replay replay ∈ after.sets.scheduled.members ∨ .replay replay ∈ after.sets.inflight.members := by
  obtain ⟨member, executeAt, rfl, scheduled, inflight, _⟩ | ⟨member, rfl, scheduled, inflight, _⟩ |
    ⟨worker, now, rfl, _, sets, _⟩ | ⟨member, released, scheduled, inflight, _⟩ |
    ⟨text, score, rfl, scheduled, inflight, _⟩ | ⟨worker, rfl, sets, _⟩ := step_sets stepped
  · rw [scheduled, inflight, SortedSet.mem_members_add]
    exact held.imp_left .inr
  · have different : ScheduledMember.replay replay ∉ [ScheduledMember.replay member] := by
      simpa [takesOut, eq_comm] using keeps
    rw [scheduled, inflight, SortedSet.mem_members_remove]
    exact held.imp_left fun earlier => ⟨earlier, different⟩
  · rw [sets]
    exact claimReady_keeps held
  · have different : ScheduledMember.replay replay ∉ [member] := by
      obtain ⟨worker, acked, rfl, rfl⟩ | ⟨worker, text, rfl, rfl⟩ := released
      · simpa [takesOut, eq_comm] using keeps
      · simp
    rw [scheduled, inflight, SortedSet.mem_members_remove]
    exact held.imp_right fun earlier => ⟨earlier, different⟩
  · rw [scheduled, inflight, SortedSet.mem_members_add]
    exact held.imp_left .inr
  · rw [sets]
    exact held

theorem step_scheduled (stepped : step textOrder action scheduler = some after)
    (armed : arms replay action = false)
    (held : .replay replay ∈ after.sets.scheduled.members) :
    .replay replay ∈ scheduler.sets.scheduled.members := by
  obtain ⟨member, executeAt, rfl, scheduled, _⟩ | ⟨member, rfl, scheduled, _⟩ |
    ⟨worker, now, rfl, _, sets, _⟩ | ⟨member, _, scheduled, _⟩ |
    ⟨text, score, rfl, scheduled, _⟩ | ⟨worker, rfl, sets, _⟩ := step_sets stepped
  · rw [scheduled, SortedSet.mem_members_add] at held
    obtain same | earlier := held
    · cases same
      simp [arms] at armed
    · exact earlier
  · rw [scheduled, SortedSet.mem_members_remove] at held
    exact held.1
  · rw [sets] at held
    exact claimReady_scheduled held
  · rwa [scheduled] at held
  · rw [scheduled, SortedSet.mem_members_add] at held
    exact held.resolve_left (by simp)
  · rwa [sets] at held

theorem step_inflight (stepped : step textOrder action scheduler = some after)
    (held : .replay replay ∈ after.sets.inflight.members)
    (scheduled : .replay replay ∈ after.sets.scheduled.members) :
    .replay replay ∈ scheduler.sets.inflight.members := by
  obtain ⟨_, _, _, _, inflight, _⟩ | ⟨_, _, _, inflight, _⟩ | ⟨worker, now, rfl, _, sets, _⟩ |
    ⟨member, _, _, inflight, _⟩ | ⟨_, _, _, _, inflight, _⟩ | ⟨_, _, sets, _⟩ := step_sets stepped
  · rwa [inflight] at held
  · rwa [inflight] at held
  · rw [sets] at held scheduled
    obtain claimed | earlier := claimReady_inflight.mp held
    · obtain ⟨deadline, _, lapsed⟩ | ⟨_, off⟩ := claimReady_cases claimed
      · exact SortedSet.mem_members.mpr ⟨deadline, lapsed⟩
      · exact absurd scheduled off
    · exact earlier
  · rw [inflight, SortedSet.mem_members_remove] at held
    exact held.1
  · rwa [inflight] at held
  · rwa [sets] at held

/-- The clock and the deadlines of a member that was claimed at `claimed`. -/
def ClaimedAt (member : ScheduledMember) (claimed : Time) (scheduler : DlqReplayScheduler) : Prop :=
  claimed ≤ scheduler.clock ∧
    ∀ deadline, (member, deadline) ∈ scheduler.sets.inflight → claimed + claimTtl ≤ deadline

theorem ClaimedAt.step {claimed : Time} (held : ClaimedAt member claimed scheduler)
    (stepped : step textOrder action scheduler = some after) : ClaimedAt member claimed after := by
  obtain ⟨later, deadlines⟩ := held
  obtain ⟨_, _, _, _, inflight, clock⟩ | ⟨_, _, _, inflight, clock⟩ |
    ⟨worker, now, rfl, advanced, sets, clock⟩ | ⟨gone, _, _, inflight, clock⟩ |
    ⟨_, _, _, _, inflight, clock⟩ | ⟨_, _, sets, clock⟩ := step_sets stepped
  · exact ⟨clock ▸ later, inflight ▸ deadlines⟩
  · exact ⟨clock ▸ later, inflight ▸ deadlines⟩
  · refine ⟨clock ▸ later.trans advanced, ?_⟩
    intro deadline found
    rw [sets] at found
    obtain rfl | ⟨earlier, _⟩ := claimReady_deadline found
    · exact Nat.add_le_add_right (later.trans advanced) _
    · exact deadlines deadline earlier
  · refine ⟨clock ▸ later, ?_⟩
    intro deadline found
    rw [inflight] at found
    exact deadlines deadline (SortedSet.mem_remove.mp found).1
  · exact ⟨clock ▸ later, inflight ▸ deadlines⟩
  · exact ⟨clock ▸ later, sets ▸ deadlines⟩

theorem claimedAt_of_claim {worker : WorkerId}
    (stepped : step textOrder (.claimReady worker now) scheduler = some after)
    (claimed : member ∈ (scheduler.sets.claimReady textOrder now).1) :
    ClaimedAt member now after ∧ after.sets = (scheduler.sets.claimReady textOrder now).2 := by
  simp only [step] at stepped
  split at stepped
  · cases stepped
    refine ⟨⟨le_refl now, ?_⟩, rfl⟩
    intro deadline found
    obtain rfl | ⟨_, unclaimed⟩ := claimReady_deadline found
    · exact le_refl _
    · exact absurd claimed unclaimed
  · contradiction

theorem armed_in_flight (ran : (machine textOrder).Run steps last)
    (scheduled : .replay replay ∈ last.sets.scheduled.members)
    (inflight : .replay replay ∈ last.sets.inflight.members) :
    ∃ taken ∈ steps, arms replay taken.2 = true ∧
      .replay replay ∈ taken.1.sets.inflight.members := by
  induction ran with
  | start => exact absurd scheduled List.not_mem_nil
  | @step steps before after action ran stepped ih =>
      have flying := step_inflight stepped inflight scheduled
      cases armed : arms replay action with
      | true => exact ⟨_, List.mem_cons_self, armed, flying⟩
      | false =>
          obtain ⟨taken, member, found⟩ := ih (step_scheduled stepped armed scheduled) flying
          exact ⟨taken, List.mem_cons_of_mem _ member, found⟩

theorem armed_replay_kept (ran : (machine textOrder).Run steps last)
    {later earlier : List (DlqReplayScheduler × Action)} {executeAt : Time}
    (listed : steps = later ++ (scheduler, .armReplay replay executeAt) :: earlier)
    (kept : ∀ taken ∈ later, takesOut replay taken.2 = false) :
    .replay replay ∈ last.sets.scheduled.members ∨ .replay replay ∈ last.sets.inflight.members := by
  subst listed
  obtain ⟨armed, _, stepped, since⟩ := ran.split
  have initially : ScheduledMember.replay replay ∈ armed.sets.scheduled.members := by
    cases stepped
    exact SortedSet.mem_members_add.mpr (.inl rfl)
  apply since.keeps (.inl initially)
  intro before action after member held stepped
  exact step_keeps stepped (kept _ member) held

/-- Two claims of one replay within one lifetime: it was armed between them, or
before the first of them while it was in flight and stayed armed. -/
theorem overlapping_claims (ran : (machine textOrder).Run steps last)
    {later middle earlier : List (DlqReplayScheduler × Action)} {first second : DlqReplayScheduler}
    {firstWorker secondWorker : WorkerId} {firstNow secondNow : Time}
    (listed : steps = later ++ (second, .claimReady secondWorker secondNow) ::
      (middle ++ (first, .claimReady firstWorker firstNow) :: earlier))
    (firstClaims : .replay replay ∈ (first.sets.claimReady textOrder firstNow).1)
    (secondClaims : .replay replay ∈ (second.sets.claimReady textOrder secondNow).1)
    (overlap : secondNow < firstNow + claimTtl) :
    (∃ taken ∈ middle, arms replay taken.2 = true) ∨
      .replay replay ∈ (first.sets.claimReady textOrder firstNow).2.scheduled.members ∧
        ∃ taken ∈ earlier, arms replay taken.2 = true ∧
          .replay replay ∈ taken.1.sets.inflight.members := by
  subst listed
  obtain ⟨_, untilSecond, _, _⟩ := ran.split
  obtain ⟨claimed, untilFirst, stepped, between⟩ := untilSecond.split
  obtain ⟨claimedAt, sets⟩ := claimedAt_of_claim stepped firstClaims
  have held : ClaimedAt (.replay replay) firstNow second :=
    between.keeps claimedAt fun _ held stepped => held.step stepped
  -- The second claim is not of a lapsed deadline, so the replay was scheduled.
  have scheduled : ScheduledMember.replay replay ∈ second.sets.scheduled.members := by
    obtain ⟨deadline, lapsed, found⟩ | ⟨⟨executeAt, _, found⟩, _⟩ := claimReady_cases secondClaims
    · exact absurd overlap (Nat.not_lt.mpr ((held.2 deadline found).trans lapsed))
    · exact SortedSet.mem_members.mpr ⟨executeAt, found⟩
  by_cases armed : ∃ taken ∈ middle, arms replay taken.2 = true
  · exact .inl armed
  · right
    have stayed : ScheduledMember.replay replay ∈ claimed.sets.scheduled.members := by
      by_contra off
      have stillOff : ScheduledMember.replay replay ∉ second.sets.scheduled.members := by
        apply between.keeps off
        intro before action after member absent stepped found
        have unarmed : arms replay action = false := by
          by_contra arming
          exact armed ⟨_, member, Bool.not_eq_false _ ▸ arming⟩
        exact absent (step_scheduled stepped unarmed found)
      exact stillOff scheduled
    rw [sets] at stayed
    refine ⟨stayed, armed_in_flight untilFirst (claimReady_scheduled stayed) ?_⟩
    obtain ⟨deadline, _, lapsed⟩ | ⟨_, off⟩ := claimReady_cases firstClaims
    · exact SortedSet.mem_members.mpr ⟨deadline, lapsed⟩
    · exact absurd stayed off

/-- Scheduled replays are claimed, not lost: what a run promises of arming, of
one claim and of two. -/
theorem scheduled_replays_claimed_not_lost (ran : (machine textOrder).Run steps last) :
    (∀ later earlier scheduler replay executeAt,
      steps = later ++ (scheduler, .armReplay replay executeAt) :: earlier →
      (∀ taken ∈ later, takesOut replay taken.2 = false) →
      .replay replay ∈ last.sets.scheduled.members ∨ .replay replay ∈ last.sets.inflight.members) ∧
    (∀ scheduler worker now, (scheduler, .claimReady worker now) ∈ steps →
      (scheduler.sets.claimReady textOrder now).1.length ≤ popLimit ∧
      ∀ member ∈ (scheduler.sets.claimReady textOrder now).1,
        (∃ deadline ≤ now, (member, deadline) ∈ scheduler.sets.inflight) ∨
          ∃ executeAt ≤ now, (member, executeAt) ∈ scheduler.sets.scheduled) ∧
    ∀ later middle earlier first second firstWorker secondWorker firstNow secondNow replay,
      steps = later ++ (second, .claimReady secondWorker secondNow) ::
        (middle ++ (first, .claimReady firstWorker firstNow) :: earlier) →
      .replay replay ∈ (first.sets.claimReady textOrder firstNow).1 →
      .replay replay ∈ (second.sets.claimReady textOrder secondNow).1 →
      secondNow < firstNow + claimTtl →
      (∃ taken ∈ middle, arms replay taken.2 = true) ∨
        .replay replay ∈ (first.sets.claimReady textOrder firstNow).2.scheduled.members ∧
          ∃ taken ∈ earlier, arms replay taken.2 = true ∧
            .replay replay ∈ taken.1.sets.inflight.members := by
  refine ⟨?_, ?_, ?_⟩
  · intro later earlier scheduler replay executeAt listed kept
    exact armed_replay_kept ran listed kept
  · intro scheduler worker now _
    refine ⟨claimReady_bounded, fun member claimed => ?_⟩
    exact (claimReady_cases claimed).imp_right And.left
  · intro later middle earlier first second firstWorker secondWorker firstNow secondNow replay
      listed firstClaims secondClaims overlap
    exact overlapping_claims ran listed firstClaims secondClaims overlap

/-- The worker that claimed a replay dies, and the replay is still there. -/
theorem scheduled_replay_survives_crash :
    ∃ steps last, (machine fun _ _ => true).Run steps last ∧ steps.length = 3 ∧
      (ScheduledMember.replay ⟨1, 2, 3⟩ ∈ last.sets.scheduled.members ∨
        ScheduledMember.replay ⟨1, 2, 3⟩ ∈ last.sets.inflight.members) := by
  have ran : (machine fun _ _ => true).Run _ _ :=
    .step (.step (.step .start
      (show (machine fun _ _ => true).step (.armReplay ⟨1, 2, 3⟩ 5) _ = some _ from rfl))
      (show (machine fun _ _ => true).step (.claimReady 0 5) _ = some _ from rfl))
      (show (machine fun _ _ => true).step (.crash 0) _ = some _ from rfl)
  refine ⟨_, _, ran, rfl, (scheduled_replays_claimed_not_lost ran).1 [_, _] [] _ ⟨1, 2, 3⟩ 5 rfl ?_⟩
  exact List.forall_mem_cons.mpr ⟨rfl, List.forall_mem_cons.mpr ⟨rfl, nofun⟩⟩

/-- A replay is armed again while the claim of a dead worker is outstanding; the
lapsed claim and the armed entry go to two workers within one lifetime, with
nothing in between. -/
theorem scheduled_replay_claimed_by_two :
    ¬ ∀ textOrder steps last, (machine textOrder).Run steps last →
      ∀ later middle earlier first second firstWorker secondWorker firstNow secondNow replay,
        steps = later ++ (second, .claimReady secondWorker secondNow) ::
          (middle ++ (first, .claimReady firstWorker firstNow) :: earlier) →
        firstWorker ≠ secondWorker →
        (ScheduledMember.replay replay, firstNow + claimTtl) ∈ last.holding firstWorker →
        (ScheduledMember.replay replay, secondNow + claimTtl) ∈ last.holding secondWorker →
        last.clock < firstNow + claimTtl → last.clock < secondNow + claimTtl →
        ∃ taken ∈ middle, arms replay taken.2 = true := by
  intro claimed
  have ran : (machine fun _ _ => true).Run _ _ :=
    .step (.step (.step (.step (.step (.step .start
      (show (machine fun _ _ => true).step (.armReplay ⟨1, 2, 3⟩ 5) _ = some _ from rfl))
      (show (machine fun _ _ => true).step (.claimReady 0 5) _ = some _ from rfl))
      (show (machine fun _ _ => true).step (.crash 0) _ = some _ from rfl))
      (show (machine fun _ _ => true).step (.armReplay ⟨1, 2, 3⟩ (seconds 61)) _ = some _ from rfl))
      (show (machine fun _ _ => true).step (.claimReady 1 (seconds 60 + 5)) _ = some _ from rfl))
      (show (machine fun _ _ => true).step (.claimReady 2 (seconds 61)) _ = some _ from rfl)
  obtain ⟨_, member, _⟩ := claimed _ _ _ ran [] [] _ _ _ 1 2 (seconds 60 + 5) (seconds 61) ⟨1, 2, 3⟩
    rfl (by decide) (by decide +kernel) (by decide +kernel) (by decide +kernel) (by decide +kernel)
  cases member

end IncidentPlatform.Properties

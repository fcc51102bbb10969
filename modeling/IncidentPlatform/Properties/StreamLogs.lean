import IncidentPlatform.Properties.JobStreams
import Mathlib.Data.List.Destutter

namespace IncidentPlatform.Properties

open Concurrency Frontend Workers JobStream

/-! # What a page shows of its job

The event log of a page as the events that it was sent, whose they are, and how
long it waits before it connects again.
-/

variable {stream before after last : JobStream} {action : JobStream.Action} {number other source : Nat}
  {steps : List (JobStream × JobStream.Action)}

section Adjacent

variable {Entry : Type} {related : Entry → Entry → Prop} [DecidableRel related]

theorem destutter'_concat (first : Entry) (entries : List Entry) (entry : Entry) :
    (entries ++ [entry]).destutter' related first =
      if ((entries.destutter' related first).getLast?.any fun held => ¬ related held entry) then
        entries.destutter' related first
      else entries.destutter' related first ++ [entry] := by
  induction entries generalizing first with
  | nil => by_cases apart : related first entry <;> simp [apart]
  | cons next rest ih =>
      by_cases apart : related first next
      · rw [List.cons_append, List.destutter'_cons_pos _ apart, List.destutter'_cons_pos _ apart, ih next,
          List.getLast?_cons_of_ne_nil (List.destutter'_ne_nil _ _)]
        split <;> rfl
      · rw [List.cons_append, List.destutter'_cons_neg _ apart, List.destutter'_cons_neg _ apart, ih first]

theorem destutter_concat (entries : List Entry) (entry : Entry) :
    (entries ++ [entry]).destutter related =
      if ((entries.destutter related).getLast?.any fun held => ¬ related held entry) then entries.destutter related
      else entries.destutter related ++ [entry] := by
  cases entries with
  | nil => simp
  | cons first rest => exact destutter'_concat first rest entry

end Adjacent

section Log

/-- What the page has been told since its job last changed, oldest first, with the
job that each source was opened for. -/
def heard : List (JobStream × JobStream.Action) → List (String × ProgressEvent)
  | [] => []
  | (before, .render jobId) :: older => if before.streamedJobId = jobId then heard older else []
  | (before, .message source name (some event)) :: older =>
      if handlesEvent name then heard older ++ [((before.sources source).jobId, event)] else heard older
  | _ :: older => heard older

def told (steps : List (JobStream × JobStream.Action)) : List ProgressEvent := (heard steps).map Prod.snd

/-- The page shows what it has been told. -/
structure ShowsTold (state : StreamState) (sent : List ProgressEvent) : Prop where
  events : state.events = sent.destutter fun previous event => isRepeat previous event = false
  latest : state.latest = sent.getLast?
  done : state.done = sent.getLast?.any fun event => event.status.terminal

theorem ShowsTold.receive {state : StreamState} {sent : List ProgressEvent} (shows : ShowsTold state sent)
    (event : ProgressEvent) : ShowsTold (state.receive event) (sent ++ [event]) where
  events := by
    simp [destutter_concat, StreamState.receive, shows.events]
  latest := by simp [StreamState.receive]
  done := by simp [StreamState.receive]

theorem runEffect_fields : stream.runEffect.state = stream.state ∧ stream.runEffect.streamedJobId = stream.streamedJobId ∧
    stream.runEffect.jobId = stream.jobId := by
  unfold runEffect
  split
  · exact ⟨rfl, rfl, rfl⟩
  · split <;> exact ⟨rfl, rfl, rfl⟩

theorem ShowsTold.step (connected : Connected before) (shows : ShowsTold before.state (told steps))
    (stepped : JobStream.machine.step action before = some after) : ShowsTold after.state (told ((before, action) :: steps)) := by
  cases connected.turn stepped with
  | rendered jobId same => simpa [told, heard, same] using shows
  | switched jobId changed =>
      rw [told, heard, if_neg changed]
      exact ⟨rfl, rfl, rfl⟩
  | flushed | remounted =>
      rw [runEffect_fields.1, cleanup_fields.2.2.2]
      exact shows
  | unmounted =>
      change ShowsTold before.cleanup.state _
      rw [cleanup_fields.2.2.2]
      exact shows
  | ignored action number answers =>
      obtain ⟨token, rfl⟩ | rfl := answers
      · exact shows
      · exact shows
  | granted | fired => exact shows
  | refused | opened | failed => exact ⟨shows.events, shows.latest, shows.done⟩
  | unheard source name data deaf =>
      obtain rfl | deaf := deaf
      · exact shows
      · cases data with
        | none => exact shows
        | some event => simpa [told, heard, deaf] using shows
  | heard source name event handles =>
      rw [told, heard, if_pos handles, List.map_append]
      exact shows.receive event
  | ended source name event handles =>
      rw [told, heard, if_pos handles, List.map_append]
      exact shows.receive event

/-- In every run the log of a page is what it has been told of its job without
adjacent repeats, and its latest event and its end are the last it was told. -/
theorem shown_log (ran : JobStream.machine.Run steps last) : ShowsTold last.state (told steps) := by
  induction ran with
  | start => exact ⟨rfl, rfl, rfl⟩
  | step ran stepped ih => exact ih.step (connected_of_run ran _ List.mem_cons_self).1 stepped

theorem shown_log_reconnects : ∃ steps last, JobStream.machine.Run steps last ∧
    (told steps).length = 3 ∧ last.state.events.length = 2 ∧ ShowsTold last.state (told steps) := by
  obtain ⟨steps, last, ran, checked⟩ := @Machine.exists_run _ _ JobStream.machine reconnects
    (fun steps last => decide ((told steps).length = 3 ∧ last.state.events.length = 2)) (by decide +kernel)
  obtain ⟨sent, shown⟩ := of_decide_eq_true checked
  exact ⟨steps, last, ran, sent, shown, shown_log ran⟩

/-- No event arrives between a render with another job and the effect. -/
def Prompt (before : JobStream) : JobStream.Action → Prop
  | .message .. => before.effectJobId = before.jobId
  | _ => True

theorem streamed_step (connected : Connected before) (same : before.streamedJobId = before.jobId)
    (stepped : JobStream.machine.step action before = some after) : after.streamedJobId = after.jobId := by
  cases connected.turn stepped with
  | rendered jobId unchanged => exact unchanged
  | switched => rfl
  | flushed | remounted =>
      rw [runEffect_fields.2.1, runEffect_fields.2.2, cleanup_fields.1, cleanup_fields.2.1]
      exact same
  | unmounted =>
      change before.cleanup.streamedJobId = before.cleanup.jobId
      rw [cleanup_fields.1, cleanup_fields.2.1]
      exact same
  | _ => exact same

theorem streamed_of_run (ran : JobStream.machine.Run steps last) : last.streamedJobId = last.jobId := by
  induction ran with
  | start => rfl
  | step ran stepped ih => exact streamed_step (connected_of_run ran _ List.mem_cons_self).1 ih stepped

theorem heard_own (ran : JobStream.machine.Run steps last) (prompt : ∀ taken ∈ steps, Prompt taken.1 taken.2) :
    ∀ entry ∈ heard steps, last.streamedJobId = some entry.1 := by
  induction ran with
  | start => exact fun _ absent => by cases absent
  | @step steps before after action ran stepped ih =>
      have ih := ih fun taken member => prompt taken (List.mem_cons_of_mem _ member)
      have prompt := prompt _ List.mem_cons_self
      obtain ⟨connected, begun⟩ := connected_of_run ran before List.mem_cons_self
      have streamed := streamed_of_run ran
      have ours : ∀ {source}, Streams before source → before.effectJobId = before.jobId →
          before.streamedJobId = some (before.sources source).jobId := by
        intro source streams flushed
        have live : source ∈ openOf before (before.sources source).effect := by
          rw [streams.2.2.2.2.2]
          rfl
        rw [streamed, ← flushed]
        exact (connected.oneConnection begun).job source live.2
      cases connected.turn stepped with
      | rendered jobId same => simpa [heard, same] using ih
      | switched jobId changed => simp [heard, changed]
      | flushed | remounted =>
          rw [runEffect_fields.2.1, cleanup_fields.2.1]
          exact ih
      | unmounted =>
          change ∀ entry ∈ heard steps, before.cleanup.streamedJobId = some entry.1
          rw [cleanup_fields.2.1]
          exact ih
      | ignored action number answers =>
          obtain ⟨token, rfl⟩ | rfl := answers
          · exact ih
          · exact ih
      | granted | fired | refused | opened | failed => exact ih
      | unheard source name data deaf =>
          obtain rfl | deaf := deaf
          · exact ih
          · cases data with
            | none => exact ih
            | some event => simpa [heard, deaf] using ih
      | heard source name event handles streams =>
          intro entry member
          rw [heard, if_pos handles] at member
          obtain older | new := List.mem_append.mp member
          · exact ih entry older
          · obtain rfl := List.mem_singleton.mp new
            exact ours streams prompt
      | ended source name event handles streams =>
          intro entry member
          rw [heard, if_pos handles] at member
          obtain older | new := List.mem_append.mp member
          · exact ih entry older
          · obtain rfl := List.mem_singleton.mp new
            exact ours streams prompt

/-- Where effects run promptly, a page shows only what it was sent for its job. -/
theorem own_log (ran : JobStream.machine.Run steps last) (prompt : ∀ taken ∈ steps, Prompt taken.1 taken.2) :
    ∀ event ∈ last.state.events, ∃ jobId, (jobId, event) ∈ heard steps ∧ last.streamedJobId = some jobId := by
  intro event shown
  rw [(shown_log ran).events] at shown
  obtain ⟨⟨jobId, sent⟩, member, rfl⟩ := List.mem_map.mp ((List.destutter_sublist _ _).mem shown)
  exact ⟨jobId, member, heard_own ran prompt _ member⟩

instance : Decidable (Prompt before action) := by
  unfold Prompt
  split <;> infer_instance

def switches : List JobStream.Action :=
  reconnects ++ [.render (some "other"), .flush, .grant 1 "third", .message 2 "running" (some (streamed .running 10))]

theorem own_log_switches : ∃ steps last, JobStream.machine.Run steps last ∧ last.state.events ≠ [] ∧
    ∀ event ∈ last.state.events, ∃ jobId, (jobId, event) ∈ heard steps ∧ last.streamedJobId = some jobId := by
  obtain ⟨steps, last, ran, checked⟩ := @Machine.exists_run _ _ JobStream.machine switches
    (fun steps last => decide (last.state.events ≠ []) && steps.all fun taken => decide (Prompt taken.1 taken.2))
    (by decide +kernel)
  obtain ⟨shown, prompt⟩ := Bool.and_eq_true_iff.mp checked
  refine ⟨steps, last, ran, of_decide_eq_true shown, own_log ran fun taken member => ?_⟩
  exact of_decide_eq_true (List.all_eq_true.mp prompt taken member)

end Log

section Backoff

/-- The failures of an invocation since it last connected. -/
def failuresOf (number : Nat) : List (JobStream × JobStream.Action) → Nat
  | [] => 0
  | (before, .onopen source) :: older =>
      if (before.sources source).effect = number then 0 else failuresOf number older
  | (before, .refuse asking) :: older =>
      if asking = number ∧ (before.effects number).disposed = false then failuresOf number older + 1
      else failuresOf number older
  | (before, .onerror source) :: older =>
      if (before.sources source).effect = number then failuresOf number older + 1 else failuresOf number older
  | _ :: older => failuresOf number older

def backoffMs (failures : Nat) : Nat := min (reconnectBaseMs * 2 ^ failures) reconnectMaxMs

theorem backoffMs_succ (failures : Nat) : min (backoffMs failures * 2) reconnectMaxMs = backoffMs (failures + 1) := by
  unfold backoffMs reconnectBaseMs reconnectMaxMs
  rw [pow_succ]
  omega

/-- How an invocation that is not disposed paces itself after these failures. -/
structure PacedBy (effect : StreamEffect) (failures : Nat) : Prop where
  next : effect.reconnectDelay = backoffMs failures
  timer : ∀ delay, effect.timer = some delay → 0 < failures ∧ delay = backoffMs (failures - 1)

structure Paced (steps : List (JobStream × JobStream.Action)) (stream : JobStream) : Prop where
  running : ∀ number, (stream.effects number).disposed = false → PacedBy (stream.effects number) (failuresOf number steps)
  fresh : ∀ number, stream.begun ≤ number → failuresOf number steps = 0

theorem PacedBy.wait {effect : StreamEffect} {failures : Nat} (paced : PacedBy effect failures) :
    PacedBy (StreamEffect.wait effect) (failures + 1) where
  next := by
    rw [StreamEffect.wait, paced.next]
    exact backoffMs_succ failures
  timer delay timed := by
    obtain rfl := Option.some.inj timed
    exact ⟨Nat.succ_pos _, paced.next⟩

theorem PacedBy.same {effect changed : StreamEffect} {failures : Nat} (paced : PacedBy effect failures)
    (next : changed.reconnectDelay = effect.reconnectDelay) (timer : changed.timer = effect.timer) :
    PacedBy changed failures := ⟨next.trans paced.next, fun delay timed => paced.timer delay (timer.symm.trans timed)⟩

theorem Paced.turned {taken : JobStream × JobStream.Action} (paced : Paced steps before) (older : number < before.begun)
    (begun : after.begun = before.begun) (effects : ∀ other, other ≠ number → after.effects other = before.effects other)
    (own : PacedBy (after.effects number) (failuresOf number (taken :: steps)))
    (others : ∀ other, other ≠ number → failuresOf other (taken :: steps) = failuresOf other steps) :
    Paced (taken :: steps) after where
  running other undisposed := by
    by_cases same : other = number
    · exact same ▸ own
    · rw [effects other same] at undisposed ⊢
      rw [others other same]
      exact paced.running other undisposed
  fresh other unbegun := by
    rw [begun] at unbegun
    rw [others other (Nat.ne_of_gt (Nat.lt_of_lt_of_le older unbegun))]
    exact paced.fresh other unbegun

theorem runEffect_undisposed (connected : Connected stream) (idle : stream.running = none)
    (undisposed : (stream.runEffect.effects number).disposed = false) :
    number = stream.begun ∧ ∃ id, stream.runEffect.effects number = { id, requests := 1 } := by
  have older : (stream.effects number).disposed ≠ false := by
    have disposed := (@Connected.disposed _ number connected (by simp [idle])).1
    simp [disposed]
  unfold runEffect at undisposed ⊢
  split at undisposed
  · exact absurd undisposed older
  · rename_i id _
    split at undisposed
    · exact absurd undisposed older
    · rename_i named
      by_cases new : number = stream.begun
      · subst new
        exact ⟨rfl, id, by simp [named, invoke]⟩
      · rw [invoke, setEffect_other new] at undisposed
        exact absurd undisposed older

theorem cleanup_begun : stream.cleanup.begun = stream.begun := by
  unfold cleanup
  split
  · rfl
  · split <;> rfl

theorem runEffect_begun : stream.begun ≤ stream.runEffect.begun := by
  unfold runEffect
  split
  · exact le_rfl
  · split
    · exact le_rfl
    · exact Nat.le_succ _

theorem Paced.rerun {taken : JobStream × JobStream.Action} (paced : Paced steps before) (connected : Connected before)
    (quiet : ∀ number, failuresOf number (taken :: steps) = failuresOf number steps) :
    Paced (taken :: steps) before.cleanup.runEffect where
  running number undisposed := by
    obtain ⟨rfl, id, new⟩ := runEffect_undisposed connected.cleanup cleanup_running undisposed
    rw [new, quiet, cleanup_begun, paced.fresh _ le_rfl]
    exact ⟨rfl, fun _ timed => by cases timed⟩
  fresh number unbegun := by
    rw [quiet]
    exact paced.fresh number ((@cleanup_begun before) ▸ runEffect_begun.trans unbegun)

theorem Paced.step (paced : Paced steps before) (connected : Connected before)
    (stepped : JobStream.machine.step action before = some after) : Paced ((before, action) :: steps) after := by
  have older : ∀ {number}, (before.effects number).disposed = false → number < before.begun := fun undisposed =>
    connected.placed.begun _ ((connected.placed.running _).mp undisposed)
  cases connected.turn stepped with
  | rendered | switched => exact ⟨paced.running, paced.fresh⟩
  | flushed | remounted => exact paced.rerun connected fun _ => rfl
  | unmounted =>
      refine ⟨fun number undisposed => ?_, fun number unbegun => ?_⟩
      · have disposed := (@Connected.disposed _ number connected.cleanup (by simp [cleanup_running])).1
        exact absurd (disposed.symm.trans undisposed) (by simp)
      · exact paced.fresh number ((@cleanup_begun before) ▸ unbegun)
  | ignored action answered answers disposed =>
      have unchanged : ∀ number, failuresOf number ((before, action) :: steps) = failuresOf number steps := by
        intro number
        obtain ⟨token, rfl⟩ | rfl := answers
        · rfl
        · refine if_neg fun ⟨same, undisposed⟩ => ?_
          rw [← same, disposed] at undisposed
          cases undisposed
      refine ⟨fun number undisposed => ?_, fun number unbegun => ?_⟩
      · by_cases same : number = answered
        · subst same
          rw [setEffect_self] at undisposed
          exact absurd (disposed.symm.trans undisposed) (by simp)
        · rw [setEffect_other same] at undisposed ⊢
          rw [unchanged]
          exact paced.running number undisposed
      · rw [unchanged]
        exact paced.fresh number unbegun
  | granted number token requests =>
      refine paced.turned (older requests.1) rfl (fun other different => setEffect_other different) ?_ fun _ _ => rfl
      rw [setEffect_self]
      exact (paced.running number requests.1).same rfl rfl
  | refused number requests =>
      refine paced.turned (older requests.1) rfl (fun other different => setEffect_other different) ?_ ?_
      · have answered : PacedBy (StreamEffect.answered (before.effects number)) (failuresOf number steps) :=
          (paced.running number requests.1).same rfl rfl
        rw [failuresOf, if_pos ⟨rfl, requests.1⟩]
        simpa [JobStream.setState] using answered.wait
      · intro other different
        rw [failuresOf, if_neg (fun failed => different failed.1.symm)]
  | fired number delay waits =>
      refine paced.turned (older waits.1) rfl (fun other different => setEffect_other different) ?_ fun _ _ => rfl
      rw [setEffect_self]
      exact ⟨(paced.running number waits.1).next, fun _ timed => by cases timed⟩
  | opened source streams =>
      refine paced.turned (older streams.1) rfl (fun other different => setEffect_other different) ?_ ?_
      · rw [failuresOf, if_pos rfl]
        have untimed : (effectOf before source).timer = none := streams.2.2.2.1
        simpa [JobStream.setState] using (⟨rfl, fun _ timed => by simp [untimed] at timed⟩ :
          PacedBy { effectOf before source with reconnectDelay := reconnectBaseMs } 0)
      · intro other different
        rw [failuresOf, if_neg (Ne.symm different)]
  | unheard source name data => exact ⟨paced.running, paced.fresh⟩
  | heard source name event => exact ⟨paced.running, paced.fresh⟩
  | ended source name event handles streams =>
      refine paced.turned (older streams.1) rfl (fun other different => setEffect_other different) ?_ fun _ _ => rfl
      have told : PacedBy { effectOf before source with sawTerminal := true }
          (failuresOf (before.sources source).effect ((before, .message source name (some event)) :: steps)) :=
        (paced.running _ streams.1).same rfl rfl
      simpa [JobStream.setState, JobStream.close] using told
  | failed source streams =>
      refine paced.turned (older streams.1) rfl (fun other different => setEffect_other different) ?_ ?_
      · rw [failuresOf, if_pos rfl]
        simpa [JobStream.setState, effectOf] using (paced.running _ streams.1).wait
      · intro other different
        rw [failuresOf, if_neg (Ne.symm different)]

/-- A reconnect timer waits two seconds after the first failure, twice as long
after each further one, and thirty at most. -/
theorem reconnect_delay {delay : Nat} (ran : JobStream.machine.Run steps last)
    (timed : (last.effects number).timer = some delay) :
    0 < failuresOf number steps ∧ delay = min (2000 * 2 ^ (failuresOf number steps - 1)) 30000 := by
  have paced : Paced steps last := by
    clear timed
    induction ran with
    | start =>
        refine ⟨fun _ undisposed => ?_, fun _ _ => rfl⟩
        cases undisposed
    | step ran stepped ih => exact ih.step (connected_of_run ran _ List.mem_cons_self).1 stepped
  have waits := (connected_of_run ran last List.mem_cons_self).1.waiting timed
  exact (paced.running number waits.1).timer delay timed

theorem reconnect_delay_refused : ∃ steps last, JobStream.machine.Run steps last ∧
    (last.effects 0).timer = some (min (2000 * 2 ^ (failuresOf 0 steps - 1)) 30000) ∧ failuresOf 0 steps = 5 := by
  obtain ⟨steps, last, ran, checked⟩ := @Machine.exists_run _ _ JobStream.machine
    ([.render (some "job"), .flush] ++ (List.replicate 4 [.refuse 0, .fire 0]).flatten ++ [.refuse 0])
    (fun steps last => decide ((last.effects 0).timer = some 30000 ∧ failuresOf 0 steps = 5)) (by decide +kernel)
  obtain ⟨timed, failures⟩ := of_decide_eq_true checked
  exact ⟨steps, last, ran, (reconnect_delay ran timed).2 ▸ timed, failures⟩

end Backoff

end IncidentPlatform.Properties

import IncidentPlatform.Frontend.JobStream
import Mathlib.Order.BooleanAlgebra.Set

namespace IncidentPlatform.Properties

open Concurrency Frontend Workers JobStream

/-! # One connection

A page that waits for its job has exactly one thing under way: a token request, a
reconnect timer or an open stream.
-/

variable {stream before after last : JobStream} {action : JobStream.Action} {number other source : Nat}
  {effect : StreamEffect} {jobId : Option String} {token : String} {steps : List (JobStream × JobStream.Action)}

def openOf (stream : JobStream) (number : Nat) : Set Nat :=
  {source | (stream.sources source).effect = number ∧ (stream.sources source).closed = false}

inductive Link where
  | requesting
  | waiting (delay : Nat)
  | streaming (source : Nat)
  | ended
  | disposed

def Link.Carries (link : Link) (effect : StreamEffect) (live : Set Nat) : Prop :=
  match link with
  | .requesting => effect.disposed = false ∧ effect.sawTerminal = false ∧ effect.requests = 1 ∧ effect.timer = none ∧
      live = ∅
  | .waiting delay => effect.disposed = false ∧ effect.sawTerminal = false ∧ effect.requests = 0 ∧
      effect.timer = some delay ∧ live = ∅
  | .streaming source => effect.disposed = false ∧ effect.sawTerminal = false ∧ effect.requests = 0 ∧
      effect.timer = none ∧ effect.es = some source ∧ live = {source}
  | .ended => effect.disposed = false ∧ effect.sawTerminal = true ∧ effect.requests = 0 ∧ effect.timer = none ∧ live = ∅
  | .disposed => effect.disposed = true ∧ effect.requests ≤ 1 ∧ effect.timer = none ∧ live = ∅

def Linked (stream : JobStream) (number : Nat) : Prop :=
  ∃ link : Link, link.Carries (stream.effects number) (openOf stream number)

/-- How invocations and sources belong together. -/
structure Placed (stream : JobStream) : Prop where
  owned : ∀ number source, (stream.effects number).es = some source →
    source < stream.opened ∧ (stream.sources source).effect = number
  running : ∀ number, (stream.effects number).disposed = false ↔ stream.running = some number
  begun : ∀ number, stream.running = some number → number < stream.begun
  id : ∀ number, stream.running = some number → stream.effectJobId = some (stream.effects number).id
  opened : ∀ source, stream.opened ≤ source → (stream.sources source).closed = true
  jobs : ∀ source, (stream.sources source).closed = false →
    (stream.sources source).jobId = (stream.effects (stream.sources source).effect).id

structure Connected (stream : JobStream) : Prop where
  placed : Placed stream
  linked : ∀ number, Linked stream number

theorem connected_initial : Connected JobStream.initial where
  placed :=
    { owned _ _ held := by cases held
      running _ := by simp [JobStream.initial]
      begun _ running := by cases running
      id _ running := by cases running
      opened _ _ := rfl
      jobs _ live := by cases live }
  linked _ := ⟨.disposed, rfl, Nat.zero_le _, rfl, by simp [openOf, JobStream.initial]⟩

section Parts

@[simp] theorem setEffect_self : (stream.setEffect number effect).effects number = effect := Function.update_self ..

theorem setEffect_other (different : other ≠ number) :
    (stream.setEffect number effect).effects other = stream.effects other := Function.update_of_ne different ..

@[simp] theorem openOf_setEffect : openOf (stream.setEffect number effect) other = openOf stream other := rfl

@[simp] theorem openOf_close : openOf (stream.close source) number = openOf stream number \ {source} := by
  ext found
  by_cases same : found = source
  · subst same
    simp [openOf, JobStream.close]
  · simp [openOf, JobStream.close, same]

theorem close_sources : ((stream.close source).sources other).effect = (stream.sources other).effect ∧
    ((stream.close source).sources other).jobId = (stream.sources other).jobId := by
  by_cases same : other = source
  · subst same
    simp [JobStream.close]
  · simp [JobStream.close, same]

theorem close_closed (live : ((stream.close source).sources other).closed = false) :
    (stream.sources other).closed = false := by
  by_cases same : other = source
  · subst same
    simp [JobStream.close] at live
  · simpa [JobStream.close, same] using live

theorem Placed.close (placed : Placed stream) : Placed (stream.close source) where
  owned number held owns := by
    rw [close_sources.1]
    exact placed.owned number held owns
  running := placed.running
  begun := placed.begun
  id := placed.id
  opened held unopened := by
    by_contra live
    exact absurd (placed.opened held unopened) (by simp [close_closed (Bool.eq_false_iff.mpr live)])
  jobs held live := by
    rw [close_sources.1, close_sources.2]
    exact placed.jobs held (close_closed live)

theorem Placed.setEffect (placed : Placed stream) (id : effect.id = (stream.effects number).id)
    (disposed : effect.disposed = (stream.effects number).disposed)
    (owned : ∀ source, effect.es = some source → source < stream.opened ∧ (stream.sources source).effect = number) :
    Placed (stream.setEffect number effect) := by
  have same : ∀ other, ((stream.setEffect number effect).effects other).id = (stream.effects other).id ∧
      ((stream.setEffect number effect).effects other).disposed = (stream.effects other).disposed := by
    intro other
    by_cases own : other = number
    · subst own
      rw [setEffect_self]
      exact ⟨id, disposed⟩
    · rw [setEffect_other own]
      exact ⟨rfl, rfl⟩
  refine ⟨?_, ?_, placed.begun, ?_, placed.opened, ?_⟩
  · intro other held owns
    by_cases own : other = number
    · subst own
      exact owned held (by simpa using owns)
    · rw [setEffect_other own] at owns
      exact placed.owned other held owns
  · intro other
    rw [(same other).2]
    exact placed.running other
  · intro other running
    rw [(same other).1]
    exact placed.id other running
  · intro held live
    rw [(same _).1]
    exact placed.jobs held live

theorem Linked.same (linked : Linked before number) (effects : after.effects number = before.effects number)
    (live : openOf after number = openOf before number) : Linked after number := by
  obtain ⟨link, carries⟩ := linked
  exact ⟨link, effects.symm ▸ live.symm ▸ carries⟩

theorem not_mem_openOf (foreign : (stream.sources source).effect ≠ other) : source ∉ openOf stream other :=
  fun live => foreign live.1

theorem Connected.turned (connected : Connected before) (placed : Placed after) (own : Linked after number)
    (effects : ∀ other, other ≠ number → after.effects other = before.effects other)
    (live : ∀ other, other ≠ number → openOf after other = openOf before other) : Connected after := by
  refine ⟨placed, fun other => ?_⟩
  by_cases same : other = number
  · exact same ▸ own
  · exact (connected.linked other).same (effects other same) (live other same)

theorem Connected.disposed (connected : Connected stream) (running : stream.running ≠ some number) :
    (stream.effects number).disposed = true ∧ openOf stream number = ∅ := by
  have disposed : (stream.effects number).disposed = true := by
    by_contra undisposed
    exact running ((connected.placed.running number).mp (Bool.eq_false_iff.mpr undisposed))
  obtain ⟨link, carries⟩ := connected.linked number
  cases link with
  | disposed => exact ⟨disposed, carries.2.2.2⟩
  | _ => exact absurd carries.1 (by simp [disposed])

theorem Linked.requests_le (linked : Linked stream number) : (stream.effects number).requests ≤ 1 := by
  obtain ⟨link, carries⟩ := linked
  cases link with
  | requesting => exact carries.2.2.1.le
  | waiting | streaming | ended => exact carries.2.2.1.le.trans (Nat.zero_le 1)
  | disposed => exact carries.2.1

theorem Linked.open_es (linked : Linked stream number) (live : source ∈ openOf stream number) :
    (stream.effects number).es = some source := by
  obtain ⟨link, carries⟩ := linked
  cases link with
  | streaming held =>
      obtain ⟨-, -, -, -, es, all⟩ := carries
      rw [all, Set.mem_singleton_iff] at live
      rw [es, live]
  | requesting | waiting | ended =>
      rw [carries.2.2.2.2] at live
      cases live
  | disposed =>
      rw [carries.2.2.2] at live
      cases live

end Parts

section Effects

@[simp] theorem release_self : (stream.release number).effects number = (stream.effects number).dispose :=
  setEffect_self

theorem release_other (different : other ≠ number) : (stream.release number).effects other = stream.effects other :=
  setEffect_other different

theorem cleanup_running : stream.cleanup.running = none := by
  unfold cleanup
  split
  · assumption
  · split <;> rfl

theorem cleanup_fields : stream.cleanup.jobId = stream.jobId ∧ stream.cleanup.streamedJobId = stream.streamedJobId ∧
    stream.cleanup.mounted = stream.mounted ∧ stream.cleanup.state = stream.state := by
  unfold cleanup
  split
  · exact ⟨rfl, rfl, rfl, rfl⟩
  · split <;> exact ⟨rfl, rfl, rfl, rfl⟩

theorem Placed.release (placed : Placed stream) (running : stream.running = some number) :
    Placed (stream.release number) where
  owned other held owns := by
    by_cases same : other = number
    · subst same
      simp [StreamEffect.dispose] at owns
    · rw [release_other same] at owns
      exact placed.owned other held owns
  running other := by
    by_cases same : other = number
    · subst same
      simp [StreamEffect.dispose, JobStream.release]
    · have disposed := placed.running other
      simp only [running, Option.some.injEq, Ne.symm same, iff_false] at disposed
      simpa [JobStream.release, setEffect_other same] using disposed
  begun _ running := by cases running
  id _ running := by cases running
  opened := placed.opened
  jobs held live := by
    have known := placed.jobs held live
    by_cases same : (stream.sources held).effect = number
    · rw [same] at known
      exact known.trans (by simp [JobStream.release, JobStream.setEffect, same, StreamEffect.dispose])
    · exact known.trans (by simp [JobStream.release, JobStream.setEffect, same])

theorem Connected.cleanup (connected : Connected stream) : Connected stream.cleanup := by
  unfold JobStream.cleanup
  split
  · exact connected
  · rename_i number running
    have linked := connected.linked number
    have requests := linked.requests_le
    have released := connected.placed.release running
    split
    · rename_i source es
      obtain ⟨-, mine⟩ := connected.placed.owned number source es
      refine connected.turned released.close ⟨.disposed, ?_⟩ (fun other different => release_other different) ?_
      · refine ⟨by simp [JobStream.close, StreamEffect.dispose], by simpa [JobStream.close, StreamEffect.dispose] using requests,
          by simp [JobStream.close, StreamEffect.dispose], ?_⟩
        rw [openOf_close]
        refine Set.eq_empty_iff_forall_notMem.mpr fun found live => live.2 ?_
        have held := linked.open_es live.1
        rw [es] at held
        exact (Option.some.inj held).symm
      · intro other different
        rw [openOf_close]
        have foreign : source ∉ openOf stream other := not_mem_openOf (mine ▸ Ne.symm different)
        exact Set.sdiff_singleton_eq_self foreign
    · rename_i es
      have unopened : openOf stream number = ∅ := by
        refine Set.eq_empty_iff_forall_notMem.mpr fun source live => ?_
        have held := linked.open_es live
        rw [es] at held
        cases held
      refine connected.turned released ⟨.disposed, ?_⟩ (fun other different => release_other different) fun _ _ => rfl
      exact ⟨by simp [StreamEffect.dispose], by simpa [StreamEffect.dispose] using requests,
        by simp [StreamEffect.dispose], unopened⟩

theorem Placed.invoke {id : String} (placed : Placed stream) (idle : stream.running = none)
    (unopened : openOf stream stream.begun = ∅) (wanted : stream.jobId = some id) : Placed (stream.invoke id) where
  owned other held owns := by
    by_cases same : other = stream.begun
    · simp [JobStream.invoke, JobStream.setEffect, same] at owns
    · rw [JobStream.invoke, setEffect_other same] at owns
      exact placed.owned other held owns
  running other := by
    by_cases same : other = stream.begun
    · simp [JobStream.invoke, JobStream.setEffect, same]
    · have disposed := placed.running other
      simp only [idle, reduceCtorEq, iff_false] at disposed
      simpa [JobStream.invoke, JobStream.setEffect, same, Ne.symm same] using disposed
  begun other running := by
    obtain rfl := Option.some.inj running
    exact Nat.lt_succ_self _
  id other running := by
    obtain rfl := Option.some.inj running
    simpa [JobStream.invoke, JobStream.setEffect] using wanted
  opened := placed.opened
  jobs held live := by
    have foreign : (stream.sources held).effect ≠ stream.begun := by
      intro same
      have mine : held ∈ openOf stream stream.begun := ⟨same, live⟩
      rw [unopened] at mine
      cases mine
    exact (placed.jobs held live).trans (by simp [JobStream.invoke, JobStream.setEffect, foreign])

theorem Connected.runEffect (connected : Connected stream) (idle : stream.running = none) : Connected stream.runEffect := by
  have placed := connected.placed
  have entered : ∀ jobId, Connected { stream with effectJobId := jobId } := fun jobId =>
    ⟨⟨placed.owned, placed.running, placed.begun, fun number running => by simp [idle] at running, placed.opened,
      placed.jobs⟩, connected.linked⟩
  unfold JobStream.runEffect
  split
  · exact entered none
  · rename_i id wanted
    split
    · exact entered (some id)
    · have unopened : openOf stream stream.begun = ∅ := (connected.disposed (by simp [idle])).2
      refine connected.turned (placed.invoke idle unopened wanted) ⟨.requesting, ?_⟩
        (fun other different => setEffect_other different) fun _ _ => rfl
      exact ⟨by simp [JobStream.invoke], by simp [JobStream.invoke], by simp [JobStream.invoke],
        by simp [JobStream.invoke], unopened⟩

end Effects

section Steps

theorem Connected.same (connected : Connected before) (effects : after.effects = before.effects)
    (sources : after.sources = before.sources) (running : after.running = before.running)
    (begun : after.begun = before.begun) (opened : after.opened = before.opened)
    (effectJobId : after.effectJobId = before.effectJobId) : Connected after := by
  obtain ⟨placed, linked⟩ := connected
  refine ⟨⟨?_, ?_, ?_, ?_, ?_, ?_⟩, fun number => (linked number).same (by rw [effects]) (by rw [openOf, openOf, sources])⟩
  · rw [effects, sources, opened]
    exact placed.owned
  · rw [effects, running]
    exact placed.running
  · rw [running, begun]
    exact placed.begun
  · rw [effects, running, effectJobId]
    exact placed.id
  · rw [sources, opened]
    exact placed.opened
  · rw [effects, sources]
    exact placed.jobs

theorem Connected.setState {updater : StreamState → StreamState} (connected : Connected stream) :
    Connected (stream.setState updater) := connected.same rfl rfl rfl rfl rfl rfl

theorem Connected.streaming (connected : Connected stream) (live : (stream.sources source).closed = false) :
    (Link.streaming source).Carries (stream.effects (stream.sources source).effect)
      (openOf stream (stream.sources source).effect) := by
  have mine : source ∈ openOf stream (stream.sources source).effect := ⟨rfl, live⟩
  obtain ⟨link, carries⟩ := connected.linked (stream.sources source).effect
  cases link with
  | streaming held =>
      have same := carries.2.2.2.2.2
      rw [same, Set.mem_singleton_iff] at mine
      rwa [← mine] at carries
  | requesting | waiting | ended =>
      rw [carries.2.2.2.2] at mine
      cases mine
  | disposed =>
      rw [carries.2.2.2] at mine
      cases mine

theorem Connected.requesting (connected : Connected stream) (asked : (stream.effects number).requests ≠ 0)
    (undisposed : (stream.effects number).disposed = false) :
    Link.requesting.Carries (stream.effects number) (openOf stream number) := by
  obtain ⟨link, carries⟩ := connected.linked number
  cases link with
  | requesting => exact carries
  | waiting | streaming | ended => exact absurd carries.2.2.1 asked
  | disposed => exact absurd carries.1 (by simp [undisposed])

theorem Connected.waiting {delay : Nat} (connected : Connected stream) (timed : (stream.effects number).timer = some delay) :
    (Link.waiting delay).Carries (stream.effects number) (openOf stream number) := by
  obtain ⟨link, carries⟩ := connected.linked number
  cases link with
  | waiting set =>
      obtain rfl := Option.some.inj (timed.symm.trans carries.2.2.2.1)
      exact carries
  | requesting | streaming | ended => exact absurd (timed.symm.trans carries.2.2.2.1) (by simp)
  | disposed => exact absurd (timed.symm.trans carries.2.2.1) (by simp)

@[simp] theorem openSource_opened : (stream.openSource number token).sources stream.opened =
    { effect := number, jobId := (stream.effects number).id, token, closed := false } := Function.update_self ..

theorem openSource_older (older : source ≠ stream.opened) :
    (stream.openSource number token).sources source = stream.sources source := Function.update_of_ne older ..

theorem Placed.openSource (placed : Placed stream) : Placed (stream.openSource number token) where
  owned other held owns := by
    obtain ⟨older, mine⟩ := placed.owned other held owns
    refine ⟨Nat.lt_succ_of_lt older, ?_⟩
    rw [openSource_older older.ne]
    exact mine
  running := placed.running
  begun := placed.begun
  id := placed.id
  opened held unopened := by
    rw [openSource_older (Nat.ne_of_gt unopened)]
    exact placed.opened held (Nat.le_of_succ_le unopened)
  jobs held live := by
    by_cases new : held = stream.opened
    · subst new
      rw [openSource_opened]
      rfl
    · rw [openSource_older new] at live ⊢
      exact placed.jobs held live

theorem openOf_openSource (closed : (stream.sources stream.opened).closed = true) :
    openOf (stream.openSource number token) other =
      if other = number then insert stream.opened (openOf stream number) else openOf stream other := by
  ext held
  by_cases new : held = stream.opened
  · subst new
    by_cases same : other = number
    · simp [openOf, same]
    · simp [openOf, same, Ne.symm same, closed]
  · by_cases same : other = number
    · simp [openOf, openSource_older new, same, new]
    · simp [openOf, openSource_older new, same]

def StreamEffect.wait (effect : StreamEffect) : StreamEffect :=
  { effect with
    reconnectDelay := min (effect.reconnectDelay * 2) reconnectMaxMs
    timer := some effect.reconnectDelay }

theorem scheduleReconnect_waits (undisposed : effect.disposed = false) (unseen : effect.sawTerminal = false) :
    effect.scheduleReconnect = StreamEffect.wait effect := by
  simp [StreamEffect.scheduleReconnect, StreamEffect.wait, undisposed, unseen]

def StreamEffect.answered (effect : StreamEffect) : StreamEffect := { effect with requests := effect.requests - 1 }

def effectOf (stream : JobStream) (source : Nat) : StreamEffect := stream.effects (stream.sources source).effect

def Streams (stream : JobStream) (source : Nat) : Prop :=
  (Link.streaming source).Carries (effectOf stream source) (openOf stream (stream.sources source).effect)

def Requests (stream : JobStream) (number : Nat) : Prop :=
  Link.requesting.Carries (stream.effects number) (openOf stream number)

/-- What one step can do to a connected page. -/
inductive PageTurn (before : JobStream) : JobStream.Action → JobStream → Prop where
  | rendered (jobId : Option String) (same : before.streamedJobId = jobId) :
      PageTurn before (.render jobId) { before with jobId }
  | switched (jobId : Option String) (changed : before.streamedJobId ≠ jobId) :
      PageTurn before (.render jobId) { before with jobId, streamedJobId := jobId, state := emptyState }
  | flushed : PageTurn before .flush before.cleanup.runEffect
  | remounted (flushed : before.effectJobId = before.jobId) : PageTurn before .remount before.cleanup.runEffect
  | unmounted : PageTurn before .unmount { before.cleanup with mounted := false }
  | ignored (action : JobStream.Action) (number : Nat) (answers : (∃ token, action = .grant number token) ∨ action = .refuse number)
      (disposed : (before.effects number).disposed = true) :
      PageTurn before action (before.setEffect number (StreamEffect.answered (before.effects number)))
  | granted (number : Nat) (token : String) (requests : Requests before number) :
      PageTurn before (.grant number token) ((before.openSource number token).setEffect number
        { StreamEffect.answered (before.effects number) with es := some before.opened })
  | refused (number : Nat) (requests : Requests before number) :
      PageTurn before (.refuse number) ((before.setEffect number
        (StreamEffect.wait (StreamEffect.answered (before.effects number)))).setState disconnected)
  | fired (number delay : Nat) (waits : (Link.waiting delay).Carries (before.effects number) (openOf before number)) :
      PageTurn before (.fire number)
        (before.setEffect number { before.effects number with timer := none, requests := 1 })
  | opened (source : Nat) (streams : Streams before source) :
      PageTurn before (.onopen source) ((before.setEffect (before.sources source).effect
        { effectOf before source with reconnectDelay := reconnectBaseMs }).setState
          fun state => { state with connected := true })
  | unheard (source : Nat) (name : String) (data : Option ProgressEvent)
      (deaf : data = none ∨ handlesEvent name = false) : PageTurn before (.message source name data) before
  | heard (source : Nat) (name : String) (event : ProgressEvent) (handles : handlesEvent name = true)
      (streams : Streams before source) (goesOn : event.status.terminal = false) :
      PageTurn before (.message source name (some event)) (before.setState (·.receive event))
  | ended (source : Nat) (name : String) (event : ProgressEvent) (handles : handlesEvent name = true)
      (streams : Streams before source) (terminal : event.status.terminal = true) :
      PageTurn before (.message source name (some event)) (((before.setEffect (before.sources source).effect
        { effectOf before source with sawTerminal := true }).close source).setState (·.receive event))
  | failed (source : Nat) (streams : Streams before source) :
      PageTurn before (.onerror source) (((before.close source).setEffect (before.sources source).effect
        (StreamEffect.wait (effectOf before source))).setState disconnected)

theorem Connected.message_turn {name : String} {data : Option ProgressEvent} (connected : Connected before)
    (handled : before.message source name data = some after) : PageTurn before (.message source name data) after := by
  simp only [JobStream.message] at handled
  split at handled
  · cases handled
  · rename_i live
    have streams : Streams before source := connected.streaming (Bool.eq_false_iff.mpr live)
    cases data with
    | none =>
        obtain rfl := Option.some.inj handled
        exact .unheard source name none (.inl rfl)
    | some event =>
        dsimp only at handled
        split at handled
        · rename_i handles
          obtain rfl := Option.some.inj handled
          split
          · rename_i terminal
            exact .ended source name event handles streams terminal
          · rename_i goesOn
            exact .heard source name event handles streams (Bool.eq_false_iff.mpr goesOn)
        · rename_i deaf
          obtain rfl := Option.some.inj handled
          exact .unheard source name (some event) (.inr (Bool.eq_false_iff.mpr deaf))

theorem Connected.onerror_turn (connected : Connected before) (failed : before.onerror source = some after) :
    PageTurn before (.onerror source) after := by
  simp only [JobStream.onerror] at failed
  split at failed
  · cases failed
  · rename_i live
    have streams : Streams before source := connected.streaming (Bool.eq_false_iff.mpr live)
    have undisposed : (before.effects (before.sources source).effect).disposed = false := streams.1
    have unseen : (before.effects (before.sources source).effect).sawTerminal = false := streams.2.1
    rw [undisposed, unseen, Bool.or_self, if_neg Bool.false_ne_true] at failed
    obtain rfl := Option.some.inj failed
    rw [scheduleReconnect_waits undisposed unseen]
    exact .failed source streams

theorem Connected.turn (connected : Connected before) (stepped : JobStream.machine.step action before = some after) :
    PageTurn before action after := by
  cases action with
  | render jobId =>
      simp only [JobStream.machine, JobStream.step, JobStream.render] at stepped
      split at stepped
      · split at stepped
        · rename_i same
          obtain rfl := Option.some.inj stepped
          exact .rendered jobId same
        · rename_i changed
          obtain rfl := Option.some.inj stepped
          exact .switched jobId changed
      · cases stepped
  | flush =>
      simp only [JobStream.machine, JobStream.step, JobStream.flush] at stepped
      split at stepped
      · cases stepped
      · obtain rfl := Option.some.inj stepped
        exact .flushed
  | remount =>
      simp only [JobStream.machine, JobStream.step, JobStream.remount] at stepped
      split at stepped
      · rename_i flushed
        obtain rfl := Option.some.inj stepped
        exact .remounted flushed.2
      · cases stepped
  | unmount =>
      simp only [JobStream.machine, JobStream.step, JobStream.unmount] at stepped
      split at stepped
      · obtain rfl := Option.some.inj stepped
        exact .unmounted
      · cases stepped
  | grant number token =>
      simp only [JobStream.machine, JobStream.step, JobStream.grant] at stepped
      split at stepped
      · cases stepped
      · rename_i asked
        split at stepped
        · rename_i disposed
          obtain rfl := Option.some.inj stepped
          exact .ignored _ number (.inl ⟨token, rfl⟩) disposed
        · rename_i undisposed
          obtain rfl := Option.some.inj stepped
          exact .granted number token (connected.requesting asked (Bool.eq_false_iff.mpr undisposed))
  | refuse number =>
      simp only [JobStream.machine, JobStream.step, JobStream.refuse] at stepped
      split at stepped
      · cases stepped
      · rename_i asked
        split at stepped
        · rename_i disposed
          obtain rfl := Option.some.inj stepped
          exact .ignored _ number (.inr rfl) disposed
        · rename_i undisposed
          obtain rfl := Option.some.inj stepped
          have requests := connected.requesting asked (Bool.eq_false_iff.mpr undisposed)
          rw [scheduleReconnect_waits (by exact requests.1) (by exact requests.2.1)]
          exact .refused number requests
  | fire number =>
      simp only [JobStream.machine, JobStream.step, JobStream.fire] at stepped
      split at stepped
      · cases stepped
      · rename_i delay timed
        obtain rfl := Option.some.inj stepped
        have waits := connected.waiting timed
        have connects : StreamEffect.connect { before.effects number with timer := none } =
            { before.effects number with timer := none, requests := 1 } := by
          simp [StreamEffect.connect, waits.1, waits.2.2.1]
        rw [connects]
        exact .fired number delay waits
  | onopen source =>
      simp only [JobStream.machine, JobStream.step, JobStream.onopen] at stepped
      split at stepped
      · cases stepped
      · rename_i live
        obtain rfl := Option.some.inj stepped
        exact .opened source (connected.streaming (Bool.eq_false_iff.mpr live))
  | message source name data => exact connected.message_turn stepped
  | onerror source => exact connected.onerror_turn stepped

theorem Connected.ignored (connected : Connected stream) (disposed : (stream.effects number).disposed = true) :
    Connected (stream.setEffect number (StreamEffect.answered (stream.effects number))) := by
  refine connected.turned (connected.placed.setEffect rfl rfl (connected.placed.owned number)) ⟨.disposed, ?_⟩ (fun other different => setEffect_other different)
    fun _ _ => rfl
  obtain ⟨link, carries⟩ := connected.linked number
  have few := (connected.linked number).requests_le
  cases link with
  | disposed =>
      rw [setEffect_self]
      exact ⟨disposed, (Nat.sub_le _ 1).trans few, carries.2.2.1, carries.2.2.2⟩
  | _ => exact absurd carries.1 (by simp [disposed])

theorem Connected.grant (connected : Connected before) (requests : Requests before number) :
    Connected ((before.openSource number token).setEffect number
      { StreamEffect.answered (before.effects number) with es := some before.opened }) := by
  obtain ⟨undisposed, unseen, one, untimed, unopened⟩ := requests
  have closed := connected.placed.opened before.opened le_rfl
  refine connected.turned (connected.placed.openSource.setEffect rfl rfl ?_) ⟨.streaming before.opened, ?_⟩
    (fun other different => setEffect_other different) ?_
  · intro source es
    obtain rfl := Option.some.inj es
    exact ⟨Nat.lt_succ_self _, by simp⟩
  · rw [setEffect_self, openOf_setEffect, openOf_openSource closed, if_pos rfl, unopened]
    exact ⟨undisposed, unseen, by simp [StreamEffect.answered, one], untimed, rfl, insert_empty_eq _⟩
  · intro other different
    rw [openOf_setEffect, openOf_openSource closed, if_neg different]

theorem Connected.closed (connected : Connected stream) (streams : Streams stream source) (effect : StreamEffect) (link : Link)
    (id : effect.id = (effectOf stream source).id) (disposed : effect.disposed = (effectOf stream source).disposed) (es : effect.es = (effectOf stream source).es)
    (carries : link.Carries effect ∅) :
    Connected ((stream.setEffect (stream.sources source).effect effect).close source) := by
  have placed := connected.placed.setEffect id disposed fun held owns => connected.placed.owned _ held (es.symm.trans owns)
  refine connected.turned placed.close ⟨link, ?_⟩ (fun other different => setEffect_other different) ?_
  · rw [openOf_close, openOf_setEffect, streams.2.2.2.2.2, sdiff_self]
    simpa [JobStream.close] using carries
  · intro other different
    rw [openOf_close, openOf_setEffect]
    exact Set.sdiff_singleton_eq_self (not_mem_openOf (Ne.symm different))

theorem Connected.changed (connected : Connected stream) (effect : StreamEffect) (link : Link) (id : effect.id = (stream.effects number).id)
    (disposed : effect.disposed = (stream.effects number).disposed) (es : effect.es = (stream.effects number).es)
    (carries : link.Carries effect (openOf stream number)) : Connected (stream.setEffect number effect) := by
  refine connected.turned (connected.placed.setEffect id disposed fun held owns => connected.placed.owned _ held (es.symm.trans owns))
    ⟨link, ?_⟩ (fun other different => setEffect_other different) fun _ _ => rfl
  rw [setEffect_self, openOf_setEffect]
  exact carries

theorem Connected.step (connected : Connected before) (stepped : JobStream.machine.step action before = some after) : Connected after := by
  cases connected.turn stepped with
  | rendered | switched => exact connected.same rfl rfl rfl rfl rfl rfl
  | flushed | remounted => exact connected.cleanup.runEffect cleanup_running
  | unmounted => exact connected.cleanup.same rfl rfl rfl rfl rfl rfl
  | ignored action number answers disposed => exact connected.ignored disposed
  | granted number token requests => exact connected.grant requests
  | refused number requests =>
      obtain ⟨undisposed, unseen, one, untimed, unopened⟩ := requests
      have waits := connected.changed (StreamEffect.wait (StreamEffect.answered (before.effects number)))
        (.waiting (before.effects number).reconnectDelay) rfl rfl rfl
        ⟨undisposed, unseen, by simp [StreamEffect.wait, StreamEffect.answered, one], rfl, unopened⟩
      exact waits.setState
  | fired number delay waits =>
      obtain ⟨undisposed, unseen, -, -, unopened⟩ := waits
      exact connected.changed { before.effects number with timer := none, requests := 1 } .requesting rfl rfl rfl
        ⟨undisposed, unseen, rfl, rfl, unopened⟩
  | opened source streams =>
      have changed := connected.changed { effectOf before source with reconnectDelay := reconnectBaseMs } (.streaming source)
        rfl rfl rfl streams
      exact changed.setState
  | unheard => exact connected
  | heard => exact connected.setState
  | ended source name event handles streams terminal =>
      obtain ⟨undisposed, unseen, unasked, untimed, -⟩ := id streams
      have closed := connected.closed streams { effectOf before source with sawTerminal := true } .ended rfl rfl rfl
        ⟨undisposed, rfl, unasked, untimed, rfl⟩
      exact closed.setState
  | failed source streams =>
      obtain ⟨undisposed, unseen, unasked, untimed, -⟩ := id streams
      have closed := connected.closed streams (StreamEffect.wait (effectOf before source)) (.waiting _) rfl rfl rfl
        ⟨undisposed, unseen, unasked, rfl, rfl⟩
      exact closed.setState

end Steps

section Runs

/-- What a page can have under way. -/
inductive Obligation where
  | request (number : Nat)
  | timer (number : Nat)
  | source (source : Nat)
deriving DecidableEq

def Owed (stream : JobStream) : Obligation → Prop
  | .request number => (stream.effects number).disposed = false ∧ (stream.effects number).requests ≠ 0
  | .timer number => (stream.effects number).timer ≠ none
  | .source source => (stream.sources source).closed = false

def Obligation.of (stream : JobStream) : Obligation → Nat
  | .request number | .timer number => number
  | .source source => (stream.sources source).effect

def Begun (stream : JobStream) : Prop :=
  stream.mounted = true → ∀ id, stream.effectJobId = some id → id ≠ "" → stream.running ≠ none

theorem begun_runEffect : Begun stream.runEffect := by
  intro _ id wanted named running
  unfold runEffect at wanted running
  split at wanted
  · cases wanted
  · rename_i held asked
    rw [asked] at running
    split at wanted
    · rename_i unnamed
      obtain rfl := Option.some.inj wanted
      exact named unnamed
    · rename_i given
      simp [given, invoke] at running

theorem Begun.same (begun : Begun before) (mounted : after.mounted = before.mounted)
    (running : after.running = before.running) (effectJobId : after.effectJobId = before.effectJobId) : Begun after := by
  intro live id
  rw [running, effectJobId]
  exact begun (mounted ▸ live) id

theorem Begun.step (begun : Begun before) (connected : Connected before)
    (stepped : JobStream.machine.step action before = some after) : Begun after := by
  cases connected.turn stepped with
  | flushed | remounted => exact begun_runEffect
  | unmounted => exact fun mounted => absurd mounted Bool.false_ne_true
  | unheard => exact begun
  | _ => exact begun.same rfl rfl rfl

/-- A page has at most one thing under way, always for the job of its effect; and
it has one as long as it has a job whose end it has not been told. -/
structure OneConnection (stream : JobStream) : Prop where
  one : ∀ first second, Owed stream first → Owed stream second → first = second
  single : ∀ number, (stream.effects number).requests ≤ 1
  own : ∀ obligation, Owed stream obligation → stream.running = some (obligation.of stream)
  job : ∀ source, Owed stream (.source source) → stream.effectJobId = some (stream.sources source).jobId
  untilEnd : stream.mounted = true → ∀ id, stream.effectJobId = some id → id ≠ "" → ∃ number,
    stream.running = some number ∧
      ((stream.effects number).sawTerminal = false ↔ ∃ obligation, Owed stream obligation)

/-- What an invocation has under way is what its link says. -/
def Link.obligation (number : Nat) : Link → Option Obligation
  | .requesting => some (.request number)
  | .waiting _ => some (.timer number)
  | .streaming source => some (.source source)
  | .ended | .disposed => none

theorem Link.owed {link : Link} (carries : link.Carries (stream.effects number) (openOf stream number))
    (obligation : Obligation) :
    Owed stream obligation ∧ obligation.of stream = number ↔ link.obligation number = some obligation := by
  cases obligation with
  | request asking =>
      refine ⟨fun ⟨owed, mine⟩ => ?_, fun same => ?_⟩
      · obtain rfl : asking = number := mine
        cases link with
        | requesting => rfl
        | waiting | streaming | ended => exact absurd carries.2.2.1 owed.2
        | disposed => exact absurd carries.1 (by simp [owed.1])
      · cases link with
        | requesting =>
            obtain rfl : number = asking := by simpa [obligation] using same
            exact ⟨⟨carries.1, by simp [carries.2.2.1]⟩, rfl⟩
        | _ => simp [obligation] at same
  | timer waiting =>
      refine ⟨fun ⟨owed, mine⟩ => ?_, fun same => ?_⟩
      · obtain rfl : waiting = number := mine
        cases link with
        | waiting => rfl
        | requesting | streaming | ended => exact absurd carries.2.2.2.1 owed
        | disposed => exact absurd carries.2.2.1 owed
      · cases link with
        | waiting =>
            obtain rfl : number = waiting := by simpa [obligation] using same
            exact ⟨by simp [Owed, carries.2.2.2.1], rfl⟩
        | _ => simp [obligation] at same
  | source source =>
      have live : Owed stream (.source source) ∧ (Obligation.source source).of stream = number ↔
          source ∈ openOf stream number := and_comm
      rw [live]
      cases link with
      | streaming held => simp [obligation, carries.2.2.2.2.2, eq_comm]
      | requesting | waiting | ended => simp [obligation, carries.2.2.2.2]
      | disposed => simp [obligation, carries.2.2.2]

theorem Connected.oneConnection (connected : Connected stream) (begun : Begun stream) : OneConnection stream := by
  have own : ∀ obligation, Owed stream obligation → stream.running = some (obligation.of stream) := by
    intro obligation owed
    obtain ⟨link, carries⟩ := connected.linked (obligation.of stream)
    have given := (Link.owed carries obligation).mp ⟨owed, rfl⟩
    rw [← connected.placed.running]
    cases link with
    | requesting | waiting | streaming => exact carries.1
    | ended | disposed => cases given
  refine ⟨fun first second one two => ?_, fun number => (connected.linked number).requests_le, own, fun source owed => ?_, ?_⟩
  · have same : first.of stream = second.of stream := Option.some.inj ((own first one).symm.trans (own second two))
    obtain ⟨link, carries⟩ := connected.linked (first.of stream)
    have given := (Link.owed carries first).mp ⟨one, rfl⟩
    rw [(Link.owed carries second).mp ⟨two, same.symm⟩] at given
    exact (Option.some.inj given).symm
  · rw [connected.placed.jobs source owed]
    exact connected.placed.id _ (own (.source source) owed)
  · intro mounted id wanted named
    obtain ⟨number, running⟩ := Option.ne_none_iff_exists'.mp (begun mounted id wanted named)
    refine ⟨number, running, ?_⟩
    have undisposed := (connected.placed.running number).mpr running
    obtain ⟨link, carries⟩ := connected.linked number
    cases link with
    | requesting | waiting | streaming =>
        exact ⟨fun _ => ⟨_, ((Link.owed carries _).mpr rfl).1⟩, fun _ => carries.2.1⟩
    | ended =>
        refine ⟨fun unseen => absurd carries.2.1 (by simp [unseen]), fun ⟨obligation, owed⟩ => ?_⟩
        have mine : obligation.of stream = number := Option.some.inj ((own obligation owed).symm.trans running)
        cases (Link.owed carries obligation).mp ⟨owed, mine⟩
    | disposed => exact absurd carries.1 (by simp [undisposed])

theorem connected_of_run (ran : JobStream.machine.Run steps last) :
    ∀ state ∈ Machine.visited steps last, Connected state ∧ Begun state :=
  ran.everywhere ⟨connected_initial, fun _ _ wanted => by cases wanted⟩
    fun known stepped => ⟨known.1.step stepped, known.2.step known.1 stepped⟩

/-- However renders, answers, timers and events are interleaved, a page has one
connection. -/
theorem one_connection (ran : JobStream.machine.Run steps last) :
    ∀ state ∈ Machine.visited steps last, OneConnection state := by
  intro state reached
  obtain ⟨connected, begun⟩ := connected_of_run ran state reached
  exact connected.oneConnection begun

def streamed (status : ProgressStatus) (progress : Int) : ProgressEvent :=
  { jobId := "job", status, progress, message := "", timestamp := 0 }

/-- The stream of an invocation breaks once and then brings the end of the job. -/
def brokenOnce (number : Nat) : List JobStream.Action :=
  [.grant number "first", .onopen 0, .message 0 "running" (some (streamed .running 40)), .onerror 0, .fire number,
    .grant number "second", .onopen 1, .message 1 "running" (some (streamed .running 40)),
    .message 1 "completed" (some (streamed .completed 100))]

def reconnects : List JobStream.Action := [.render (some "job"), .flush] ++ brokenOnce 0

theorem one_connection_reconnects : ∃ stream : JobStream, (stream.effects 0).timer = some 2000 ∧ OneConnection stream := by
  obtain ⟨steps, last, ran, timed⟩ := @Machine.exists_run _ _ JobStream.machine (reconnects.take 6)
    (fun _ last => decide ((last.effects 0).timer = some 2000)) (by decide +kernel)
  exact ⟨last, of_decide_eq_true timed, one_connection ran last List.mem_cons_self⟩

/-- The steps that leave the invocation running, and the page with its job. -/
def Stays (stream : JobStream) : JobStream.Action → Prop
  | .render jobId => stream.streamedJobId = jobId
  | .flush | .remount | .unmount => False
  | _ => True

/-- The invocation that runs has been told the end. -/
structure Finished (number : Nat) (start stream : JobStream) : Prop where
  running : stream.running = some number
  seen : (stream.effects number).sawTerminal = true
  opened : stream.opened = start.opened
  state : stream.state = start.state
  job : stream.streamedJobId = start.streamedJobId

theorem Finished.seen_of {start : JobStream} (finished : Finished number start stream) (connected : Connected stream)
    (undisposed : (stream.effects other).disposed = false) : (stream.effects other).sawTerminal = true := by
  have running := (connected.placed.running other).mp undisposed
  obtain rfl : number = other := Option.some.inj (finished.running.symm.trans running)
  exact finished.seen

theorem Finished.step {start : JobStream} (finished : Finished number start before) (connected : Connected before)
    (stays : Stays start action) (stepped : JobStream.machine.step action before = some after) :
    Finished number start after := by
  have linked : ∀ {other}, (before.effects other).disposed = false → (before.effects other).sawTerminal = false → False := by
    intro other undisposed unseen
    have seen := finished.seen_of connected undisposed
    rw [unseen] at seen
    cases seen
  cases connected.turn stepped with
  | rendered jobId same => exact ⟨finished.running, finished.seen, finished.opened, finished.state, finished.job⟩
  | switched jobId changed => exact absurd (finished.job.trans stays) changed
  | flushed | remounted | unmounted => exact absurd stays id
  | ignored action answered answers disposed =>
      refine ⟨finished.running, ?_, finished.opened, finished.state, finished.job⟩
      by_cases same : number = answered
      · subst same
        rw [setEffect_self]
        exact finished.seen
      · rw [setEffect_other same]
        exact finished.seen
  | granted other token requests => exact (linked requests.1 requests.2.1).elim
  | refused other requests => exact (linked requests.1 requests.2.1).elim
  | fired other delay waits => exact (linked waits.1 waits.2.1).elim
  | opened source streams => exact (linked streams.1 streams.2.1).elim
  | unheard => exact finished
  | heard source name event handles streams => exact (linked streams.1 streams.2.1).elim
  | ended source name event handles streams => exact (linked streams.1 streams.2.1).elim
  | failed source streams => exact (linked streams.1 streams.2.1).elim

/-- Once the end of the job has been told, nothing is under way any more and
nothing is shown anew, whatever arrives until the effect is cleaned up. -/
theorem finished_stream {later : List (JobStream × JobStream.Action)} (ran : JobStream.machine.Run steps stream)
    (running : stream.running = some number) (seen : (stream.effects number).sawTerminal = true)
    (segment : JobStream.machine.Segment stream later last) (stays : ∀ taken ∈ later, Stays stream taken.2) :
    last.running = some number ∧ (∀ obligation, ¬ Owed last obligation) ∧ last.opened = stream.opened ∧
      last.state = stream.state := by
  obtain ⟨connected, -⟩ := connected_of_run ran stream List.mem_cons_self
  obtain ⟨connected, finished⟩ := @Machine.Segment.keeps _ _ _ _ _ _ (fun state => Connected state ∧ Finished number stream state)
    segment ⟨connected, running, seen, rfl, rfl, rfl⟩ fun member known stepped =>
      ⟨known.1.step stepped, known.2.step known.1 (stays _ member) stepped⟩
  refine ⟨finished.running, fun obligation owed => ?_, finished.opened, finished.state⟩
  obtain ⟨link, carries⟩ := connected.linked (obligation.of last)
  have given := (Link.owed carries obligation).mp ⟨owed, rfl⟩
  cases link with
  | requesting | waiting | streaming =>
      have seen := finished.seen_of connected carries.1
      rw [carries.2.1] at seen
      cases seen
  | ended | disposed => cases given

/-- Two invocations were cleaned up with their requests unanswered. -/
def reconnectsLast : List JobStream.Action :=
  [.render (some "other"), .flush, .render (some "job"), .flush, .remount] ++ brokenOnce 2

def lateAnswers : List JobStream.Action := [.grant 0 "late", .render (some "job"), .refuse 1]

/-- The answers of the first two requests arrive after the end. -/
theorem finished_stream_reconnects : ∃ stream later last, JobStream.machine.Segment stream later last ∧
    later.map Prod.snd = lateAnswers.reverse ∧ (stream.effects 0).requests = 1 ∧ (stream.effects 1).requests = 1 ∧
      last.state = stream.state ∧ last.state.done = true ∧ ∀ obligation, ¬ Owed last obligation := by
  obtain ⟨steps, last, ran, checked⟩ := @Machine.exists_run _ _ JobStream.machine (reconnectsLast ++ lateAnswers)
    (fun steps last => decide ((steps.take 3).map Prod.snd = lateAnswers.reverse) &&
      (Machine.visited steps last)[3]?.any fun stream : JobStream => decide (stream.running = some 2 ∧
        (stream.effects 2).sawTerminal = true ∧ stream.state.done = true ∧ stream.streamedJobId = some "job" ∧
          (stream.effects 0).requests = 1 ∧ (stream.effects 1).requests = 1)) (by decide +kernel)
  simp only [Bool.and_eq_true, decide_eq_true_eq, Option.any_eq_true] at checked
  obtain ⟨late, stream, between, running, seen, done, job, first, second⟩ := checked
  obtain ⟨ran, segment⟩ := ran.cut between
  have finished := finished_stream ran running seen segment fun taken member => by
    have action : taken.2 ∈ lateAnswers.reverse := late ▸ List.mem_map_of_mem member
    simp only [lateAnswers, List.reverse_cons, List.reverse_nil, List.nil_append, List.cons_append,
      List.mem_cons, List.not_mem_nil, or_false] at action
    rcases action with refused | rendered | granted
    · rw [refused]
      trivial
    · rw [rendered]
      exact job
    · rw [granted]
      trivial
  exact ⟨stream, _, last, segment, late, first, second, finished.2.2.2, finished.2.2.2 ▸ done, finished.2.1⟩

end Runs

end IncidentPlatform.Properties

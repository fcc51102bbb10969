import IncidentPlatform.Frontend.AsyncData

namespace IncidentPlatform.Properties

open Concurrency Frontend AsyncData

/-! # What a list page may conclude

A page that neither loads nor has an error shows the answer to its query, and it
loads as long as a call for its query is under way.
-/

variable {Query Rows : Type} {before after page : AsyncData Query Rows}
  {action : AsyncData.Action Query Rows} {props : LoadProps Query}
  {steps : List (AsyncData Query Rows × AsyncData.Action Query Rows)}

/-- How the load of the newest run id has settled. -/
inductive LoadSettled (Query Rows : Type) where
  | resolved (loader : Query) (result : Rows)
  | rejected (loader : Query) (message : String)

def LoadSettled.loader : LoadSettled Query Rows → Query
  | .resolved loader _ | .rejected loader _ => loader

def LoadSettled.message : LoadSettled Query Rows → Option String
  | .resolved .. => none
  | .rejected _ message => some message

/-- The last load that settled before another was begun or the effect cleaned up. -/
def lastSettled : List (AsyncData Query Rows × AsyncData.Action Query Rows) → Option (LoadSettled Query Rows)
  | [] => none
  | (before, .resolve run result) :: older =>
      match before.pending run with
      | some call => if before.runId = run then some (.resolved call.loader result) else lastSettled older
      | none => lastSettled older
  | (before, .reject run err) :: older =>
      match before.pending run with
      | some call =>
          if before.runId = run then some (.rejected call.loader (loadErrorMessage err call.fallback))
          else lastSettled older
      | none => lastSettled older
  | _ :: older => lastSettled older

/-- The rows of the last load that resolved so, with what the page has made of them. -/
def shownRows : List (AsyncData Query Rows × AsyncData.Action Query Rows) → Option Rows
  | [] => none
  | (before, .resolve run result) :: older => if before.runId = run then some result else shownRows older
  | (_, .setData update) :: older => update (shownRows older)
  | _ :: older => shownRows older

/-- The fields of a page are what its loads have been answered with. -/
structure LoadsAnswered (steps : List (AsyncData Query Rows × AsyncData.Action Query Rows)) (page : AsyncData Query Rows) :
    Prop where
  error : page.error = (lastSettled steps).bind LoadSettled.message
  loadedFor : page.loadedFor = (lastSettled steps).map LoadSettled.loader
  data : page.data = shownRows steps

theorem LoadsAnswered.same {later : List (AsyncData Query Rows × AsyncData.Action Query Rows)} (answered : LoadsAnswered steps before)
    (settled : lastSettled later = lastSettled steps) (shown : shownRows later = shownRows steps)
    (fields : after.error = before.error ∧ after.loadedFor = before.loadedFor ∧ after.data = before.data) :
    LoadsAnswered later after := by
  obtain ⟨error, loadedFor, data⟩ := fields
  refine ⟨?_, ?_, ?_⟩
  · rw [settled, error, answered.error]
  · rw [settled, loadedFor, answered.loadedFor]
  · rw [shown, data, answered.data]

section Newest

/-- The newest run loads the query of the page, or has settled as a load of it. -/
def NewestOwn (page : AsyncData Query Rows) : Prop :=
  page.inFlight = true ∧ (∃ call, page.pending page.runId = some call ∧ call.loader = page.props.loader) ∨
    page.inFlight = false ∧ page.pending page.runId = none ∧ page.loadedFor = some page.props.loader

theorem newestOwn_reload {loader : Query} {fallback : String} (own : loader = page.props.loader) :
    NewestOwn (page.reload loader fallback) :=
  .inl ⟨rfl, ⟨loader, fallback⟩, by simp [AsyncData.reload], own⟩

theorem newestOwn_runEffect (enabled : page.runEffect.props.enabled = true) : NewestOwn page.runEffect := by
  unfold AsyncData.runEffect at enabled ⊢
  split
  · exact @newestOwn_reload _ _ { page with effectProps := some page.props } page.props.loader page.props.fallback rfl
  · rename_i disabled
    rw [if_neg disabled] at enabled
    exact absurd enabled disabled

theorem NewestOwn.settle {run : Nat} (newest : NewestOwn page) (older : page.runId ≠ run) : NewestOwn (page.settle run) := by
  have same : (page.settle run).pending page.runId = page.pending page.runId := Function.update_of_ne older ..
  unfold NewestOwn
  change _ ∧ (∃ call, (page.settle run).pending page.runId = some call ∧ _) ∨ _ ∧
    (page.settle run).pending page.runId = none ∧ _
  rw [same]
  exact newest

theorem NewestOwn.settled {call : LoadRun Query} (newest : NewestOwn page) (pending : page.pending page.runId = some call)
    (inFlight : after.inFlight = false) (unpending : after.pending after.runId = none)
    (loadedFor : after.loadedFor = some call.loader) (props : after.props = page.props) : NewestOwn after := by
  obtain ⟨-, loads, started, own⟩ | ⟨-, none, -⟩ := newest
  · obtain rfl := Option.some.inj (started.symm.trans pending)
    exact .inr ⟨inFlight, unpending, by rw [loadedFor, own, props]⟩
  · rw [none] at pending
    cases pending

end Newest

section Steps

theorem effect_answers : (page.cleanUp.runEffect).error = page.error ∧ page.cleanUp.runEffect.loadedFor = page.loadedFor ∧
    page.cleanUp.runEffect.data = page.data := by
  unfold AsyncData.runEffect AsyncData.cleanUp
  split <;> split <;> exact ⟨rfl, rfl, rfl⟩

theorem cleanUp_answers : page.cleanUp.error = page.error ∧ page.cleanUp.loadedFor = page.loadedFor ∧
    page.cleanUp.data = page.data := by
  unfold AsyncData.cleanUp
  split <;> exact ⟨rfl, rfl, rfl⟩

theorem LoadsAnswered.resolve {run : Nat} {result : Rows} (answered : LoadsAnswered steps before)
    (resolved : before.resolve run result = some after) : LoadsAnswered ((before, .resolve run result) :: steps) after := by
  unfold AsyncData.resolve at resolved
  split at resolved
  · cases resolved
  · rename_i call pending
    split at resolved
    · rename_i older
      obtain rfl := Option.some.inj resolved
      refine ⟨?_, ?_, ?_⟩ <;> simp only [lastSettled, shownRows, pending, if_neg older]
      · exact answered.error
      · exact answered.loadedFor
      · exact answered.data
    · rename_i newest
      obtain rfl := Option.some.inj resolved
      have newest := not_not.mp newest
      refine ⟨?_, ?_, ?_⟩ <;> simp [lastSettled, shownRows, pending, newest, LoadSettled.message, LoadSettled.loader]

theorem LoadsAnswered.reject {run : Nat} {err : LoadError} (answered : LoadsAnswered steps before)
    (rejected : before.reject run err = some after) : LoadsAnswered ((before, .reject run err) :: steps) after := by
  unfold AsyncData.reject at rejected
  split at rejected
  · cases rejected
  · rename_i call pending
    split at rejected
    · rename_i older
      obtain rfl := Option.some.inj rejected
      refine ⟨?_, ?_, answered.data⟩ <;> simp only [lastSettled, pending, if_neg older]
      · exact answered.error
      · exact answered.loadedFor
    · rename_i newest
      obtain rfl := Option.some.inj rejected
      have newest := not_not.mp newest
      refine ⟨?_, ?_, answered.data⟩ <;> simp [lastSettled, pending, newest, LoadSettled.message, LoadSettled.loader]

variable [DecidableEq Query]

theorem LoadsAnswered.step (answered : LoadsAnswered steps before) (stepped : AsyncData.step action before = some after) :
    LoadsAnswered ((before, action) :: steps) after := by
  cases action with
  | render props =>
      simp only [AsyncData.step, AsyncData.render, Option.ite_none_right_eq_some] at stepped
      obtain rfl := Option.some.inj stepped.2
      exact answered.same rfl rfl ⟨rfl, rfl, rfl⟩
  | flush =>
      simp only [AsyncData.step, AsyncData.flush, Option.ite_none_right_eq_some] at stepped
      obtain rfl := Option.some.inj stepped.2
      exact answered.same rfl rfl effect_answers
  | remount =>
      simp only [AsyncData.step, AsyncData.remount, Option.ite_none_right_eq_some] at stepped
      obtain rfl := Option.some.inj stepped.2
      exact answered.same rfl rfl effect_answers
  | unmount =>
      simp only [AsyncData.step, AsyncData.unmount, Option.ite_none_right_eq_some] at stepped
      obtain rfl := Option.some.inj stepped.2
      exact answered.same rfl rfl cleanUp_answers
  | reload loader fallback =>
      obtain rfl := Option.some.inj stepped
      exact answered.same rfl rfl ⟨rfl, rfl, rfl⟩
  | resolve run result => exact answered.resolve stepped
  | reject run err => exact answered.reject stepped
  | setData update =>
      obtain rfl := Option.some.inj stepped
      exact ⟨answered.error, answered.loadedFor, congrArg update answered.data⟩

def Watched (page : AsyncData Query Rows) : Prop :=
  page.mounted = true → page.flushed = true → page.props.enabled = true → NewestOwn page

def ReloadsOwn (before : AsyncData Query Rows) : AsyncData.Action Query Rows → Prop
  | .reload loader _ => before.flushed = true → loader = before.props.loader
  | _ => True

theorem Watched.step (watched : Watched before) (own : ReloadsOwn before action)
    (stepped : AsyncData.step action before = some after) : Watched after := by
  cases action with
  | render props =>
      simp only [AsyncData.step, AsyncData.render, Option.ite_none_right_eq_some] at stepped
      obtain ⟨⟨mounted, flushed⟩, rendered⟩ := stepped
      obtain rfl := Option.some.inj rendered
      intro _ still enabled
      have same : props = before.props := by
        have now : before.effectProps = some before.props := by simpa [AsyncData.flushed] using flushed
        have afterwards : before.effectProps = some props := by simpa [AsyncData.flushed] using still
        exact Option.some.inj (afterwards.symm.trans now)
      subst same
      exact watched mounted flushed enabled
  | flush =>
      simp only [AsyncData.step, AsyncData.flush, Option.ite_none_right_eq_some] at stepped
      obtain rfl := Option.some.inj stepped.2
      exact fun _ _ enabled => newestOwn_runEffect enabled
  | remount =>
      simp only [AsyncData.step, AsyncData.remount, Option.ite_none_right_eq_some] at stepped
      obtain rfl := Option.some.inj stepped.2
      exact fun _ _ enabled => newestOwn_runEffect enabled
  | unmount =>
      simp only [AsyncData.step, AsyncData.unmount, Option.ite_none_right_eq_some] at stepped
      obtain rfl := Option.some.inj stepped.2
      exact fun mounted => absurd mounted Bool.false_ne_true
  | reload loader fallback =>
      obtain rfl := Option.some.inj stepped
      exact fun _ flushed _ => newestOwn_reload (own flushed)
  | resolve run result =>
      simp only [AsyncData.step, AsyncData.resolve] at stepped
      split at stepped
      · cases stepped
      · rename_i call pending
        split at stepped
        · rename_i older
          obtain rfl := Option.some.inj stepped
          exact fun mounted flushed enabled => (watched mounted flushed enabled).settle older
        · rename_i newest
          obtain rfl := Option.some.inj stepped
          obtain rfl := not_not.mp newest
          exact fun mounted flushed enabled =>
            (watched mounted flushed enabled).settled pending rfl (Function.update_self ..) rfl rfl
  | reject run err =>
      simp only [AsyncData.step, AsyncData.reject] at stepped
      split at stepped
      · cases stepped
      · rename_i call pending
        split at stepped
        · rename_i older
          obtain rfl := Option.some.inj stepped
          exact fun mounted flushed enabled => (watched mounted flushed enabled).settle older
        · rename_i newest
          obtain rfl := Option.some.inj stepped
          obtain rfl := not_not.mp newest
          exact fun mounted flushed enabled =>
            (watched mounted flushed enabled).settled pending rfl (Function.update_self ..) rfl rfl
  | setData update =>
      obtain rfl := Option.some.inj stepped
      exact watched

end Steps

section Runs

variable [DecidableEq Query] {last : AsyncData Query Rows}

/-- What an enabled page may conclude from what the hook returns. -/
structure PageConcludes (steps : List (AsyncData Query Rows × AsyncData.Action Query Rows)) (page : AsyncData Query Rows) :
    Prop where
  rows : page.loading = false → page.error = none →
    ∃ result, lastSettled steps = some (.resolved page.props.loader result)
  failure : ∀ message, page.loading = false → page.error = some message →
    lastSettled steps = some (.rejected page.props.loader message)
  data : page.data = shownRows steps

theorem answered_of_run (ran : (AsyncData.machine props).Run steps last) : LoadsAnswered steps last := by
  induction ran with
  | start => exact ⟨rfl, rfl, rfl⟩
  | step ran stepped ih => exact ih.step stepped

/-- In every run, where an enabled page neither loads nor has an error, the last
load to settle in time was a load of its query and it resolved; where it has an
error, that load was rejected with it. -/
theorem page_concludes (ran : (AsyncData.machine props).Run steps last) (enabled : last.props.enabled = true) :
    PageConcludes steps last := by
  have answered := answered_of_run ran
  have own : last.loading = false → ∃ settled, lastSettled steps = some settled ∧ settled.loader = last.props.loader := by
    intro loaded
    have known : last.loadedFor = some last.props.loader := by
      simpa [AsyncData.loading, enabled] using (Bool.or_eq_false_iff.mp loaded).2
    rw [answered.loadedFor] at known
    exact Option.map_eq_some_iff.mp known
  refine ⟨fun loaded error => ?_, fun message loaded error => ?_, answered.data⟩
  · obtain ⟨settled, given, loader⟩ := own loaded
    rw [answered.error, given] at error
    cases settled with
    | resolved asked result =>
        obtain rfl : asked = last.props.loader := loader
        exact ⟨result, given⟩
    | rejected => cases error
  · obtain ⟨settled, given, loader⟩ := own loaded
    rw [answered.error, given] at error
    cases settled with
    | resolved => cases error
    | rejected asked reason =>
        obtain rfl : asked = last.props.loader := loader
        obtain rfl : reason = message := Option.some.inj error
        exact given

def showing (query : Nat) : LoadProps Nat := { enabled := true, loader := query, fallback := "Could not load this data." }

def movesOn : List (AsyncData.Action Nat Nat) :=
  [.flush, .render (showing 1), .flush, .resolve 1 10, .reject 3 .other, .reload 1 "Could not load this data.", .resolve 4 11]

theorem page_concludes_movesOn : ∃ (steps : _) (last : AsyncData Nat Nat), last.loading = false ∧ last.error = none ∧
    last.data = some 11 ∧ PageConcludes steps last := by
  obtain ⟨steps, last, ran, checked⟩ := @Machine.exists_run _ _ (AsyncData.machine (showing 0)) movesOn
    (fun _ last => decide (last.props.enabled = true ∧ last.loading = false ∧ last.error = none ∧ last.data = some 11))
    (by decide +kernel)
  obtain ⟨enabled, loaded, error, data⟩ := of_decide_eq_true checked
  exact ⟨steps, last, loaded, error, data, page_concludes ran enabled⟩

/-- Where a page reloads only the query that it shows, it loads exactly as long as
a load of that query is under way. -/
theorem page_loads (ran : (AsyncData.machine props).Run steps last) (own : ∀ taken ∈ steps, ReloadsOwn taken.1 taken.2)
    (mounted : last.mounted = true) (flushed : last.flushed = true) (enabled : last.props.enabled = true) :
    last.loading = true ↔ ∃ call, last.pending last.runId = some call ∧ call.loader = last.props.loader := by
  have watched : Watched last := by
    clear mounted flushed enabled
    induction ran with
    | start => exact fun _ flushed => by simp [AsyncData.machine, AsyncData.initial, AsyncData.flushed] at flushed
    | step ran stepped ih =>
        have earlier := ih fun taken member => own taken (List.mem_cons_of_mem _ member)
        exact earlier.step (own _ List.mem_cons_self) stepped
  obtain ⟨inFlight, pending⟩ | ⟨settled, none, known⟩ := watched mounted flushed enabled
  · simp [AsyncData.loading, inFlight, pending]
  · simp [AsyncData.loading, settled, none, known]

instance {before : AsyncData Query Rows} {action : AsyncData.Action Query Rows} : Decidable (ReloadsOwn before action) := by
  unfold ReloadsOwn
  split <;> infer_instance

theorem page_loads_movesOn : ∃ last : AsyncData Nat Nat, last.loading = true ∧
    ∃ call, last.pending last.runId = some call ∧ call.loader = last.props.loader := by
  obtain ⟨steps, last, ran, checked⟩ := @Machine.exists_run _ _ (AsyncData.machine (showing 0)) (movesOn.take 4)
    (fun steps last => decide (last.mounted = true ∧ last.flushed = true ∧ last.props.enabled = true ∧
      last.loading = true) && steps.all fun taken => decide (ReloadsOwn taken.1 taken.2)) (by decide +kernel)
  obtain ⟨state, own⟩ := Bool.and_eq_true_iff.mp checked
  obtain ⟨mounted, flushed, enabled, loads⟩ := of_decide_eq_true state
  refine ⟨last, loads, (page_loads ran (fun taken member => ?_) mounted flushed enabled).mp loads⟩
  exact of_decide_eq_true (List.all_eq_true.mp own taken member)

end Runs

end IncidentPlatform.Properties

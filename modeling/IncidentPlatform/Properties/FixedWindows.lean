import IncidentPlatform.Text.Decimal
import IncidentPlatform.Utils.RateLimit

namespace IncidentPlatform.Properties

open IncidentPlatform.Order Text Utils

/-! # The bound of the fixed-window limiter

The counter of a window outlives the window, so it holds the requests of the
window that were made so far.
-/

variable {counters after : Counters} {name : Nat → String} {window limit : Nat} {seen times : List ℚ≥0} {now : ℚ≥0}

/-- Each counter holds the number of requests seen in its window, and its TTL
ends after the window does. -/
def TracksCounters (counters : Counters) (name : Nat → String) (window : Nat) (seen : List ℚ≥0) : Prop :=
  ∀ index,
    if inBucket (aligned window) index seen = 0 then counters (name index) = none
    else ∃ ends, (((index + 1) * window : Nat) : ℚ≥0) ≤ ends ∧
      counters (name index) = some { count := inBucket (aligned window) index seen, expiresAt := some ends }

theorem TracksCounters.start (fresh : ∀ index, counters (name index) = none) : TracksCounters counters name window [] := by
  intro index
  exact if_pos rfl ▸ fresh index

theorem TracksCounters.count (tracks : TracksCounters counters name window seen) (positive : 0 < window)
    (distinct : Function.Injective name) :
    (counters.count now (name (aligned window now)) (window * 2)).1 =
        inBucket (aligned window) (aligned window now) seen + 1 ∧
      TracksCounters (counters.count now (name (aligned window now)) (window * 2)).2 name window (now :: seen) := by
  obtain ⟨lower, upper⟩ := (@aligned_eq_iff window now positive _).mp rfl
  have here := tracks (aligned window now)
  have others : ∀ (changed : Option Counter) (index : Nat), index ≠ aligned window now →
      Function.update counters (name (aligned window now)) changed (name index) = counters (name index) := by
    intro changed index other
    exact Function.update_of_ne (fun same => other (distinct same)) ..
  have elsewhere : ∀ changed : Option Counter, ∀ index, index ≠ aligned window now →
      if inBucket (aligned window) index (now :: seen) = 0 then
        Function.update counters (name (aligned window now)) changed (name index) = none
      else ∃ ends, (((index + 1) * window : Nat) : ℚ≥0) ≤ ends ∧
        Function.update counters (name (aligned window now)) changed (name index) =
          some { count := inBucket (aligned window) index (now :: seen), expiresAt := some ends } := by
    intro changed index other
    rw [inBucket_cons, if_neg (Ne.symm other), Nat.add_zero, others changed index other]
    exact tracks index
  by_cases first : inBucket (aligned window) (aligned window now) seen = 0
  · rw [if_pos first] at here
    simp only [Counters.count, Counters.incr, here, Option.filter_none, Counters.expire, if_true, first]
    refine ⟨trivial, fun index => ?_⟩
    simp only [Function.update_idem, Function.update_self, Option.map_some]
    by_cases same : index = aligned window now
    · subst same
      rw [inBucket_cons, if_pos rfl, first, if_neg (by omega)]
      refine ⟨now + (window * 2 : Nat), ?_, by simp⟩
      calc (((aligned window now + 1) * window : Nat) : ℚ≥0)
          = ((aligned window now * window : Nat) : ℚ≥0) + window := by
            push_cast
            ring
        _ ≤ now + window := by gcongr
        _ ≤ now + (window * 2 : Nat) := by
            have wider : (window : ℚ≥0) ≤ (window * 2 : Nat) := by exact_mod_cast (by omega)
            gcongr
    · exact elsewhere _ index same
  · rw [if_neg first] at here
    obtain ⟨ends, outlives, found⟩ := here
    have live : Counter.live now
        { count := inBucket (aligned window) (aligned window now) seen, expiresAt := some ends } = true := by
      simpa [Counter.live] using le_trans upper.le outlives
    have many : inBucket (aligned window) (aligned window now) seen + 1 ≠ 1 := by omega
    simp only [Counters.count, Counters.incr, found, Option.filter_some, live, if_true, many, if_false]
    refine ⟨trivial, fun index => ?_⟩
    by_cases same : index = aligned window now
    · subst same
      rw [inBucket_cons, if_pos rfl, if_neg (by omega)]
      exact ⟨ends, outlives, by simp⟩
    · exact elsewhere _ index same

theorem requests_eq_serve {served : Counters → ℚ≥0 → Except RateLimitError Unit × Counters}
    (positive : 0 < window) (distinct : Function.Injective name)
    (counts : ∀ counters now,
      (served counters now).2 = (counters.count now (name (aligned window now)) (window * 2)).2 ∧
        (served counters now).1.isOk =
          decide ((counters.count now (name (aligned window now)) (window * 2)).1 ≤ limit))
    (tracks : TracksCounters counters name window seen) :
    requests served counters times = serve (aligned window) limit seen times := by
  induction times generalizing counters seen with
  | nil => rfl
  | cons now rest ih =>
      obtain ⟨number, tracked⟩ := @TracksCounters.count _ _ _ _ now tracks positive distinct
      obtain ⟨left, answer⟩ := counts counters now
      rw [number] at answer
      simp only [requests, serve]
      rw [left, ih tracked, answer]
      rfl

theorem windowKey_injective (key : String) : Function.Injective (windowKey key) := by
  intro first second same
  refine toString_injective (String.toList_injective ?_)
  simpa [windowKey] using congrArg String.toList same

theorem check_counts (key : String) (counters : Counters) (now : ℚ≥0) :
    (check counters now key limit window).2 =
        (counters.count now (windowKey key (aligned window now)) (window * 2)).2 ∧
      (check counters now key limit window).1.isOk =
        decide ((counters.count now (windowKey key (aligned window now)) (window * 2)).1 ≤ limit) := by
  unfold check
  dsimp only
  split
  · rename_i above
    exact ⟨rfl, (decide_eq_false (Nat.not_le.mpr above)).symm⟩
  · rename_i within
    exact ⟨rfl, (decide_eq_true (Nat.not_lt.mp within)).symm⟩

theorem checkTenantRate_counts (tenant : Tenant) (capped : tenant.rateLimitPerMinute = limit)
    (positive : 1 ≤ limit) (counters : Counters) (now : ℚ≥0) :
    (checkTenantRate counters now tenant).2 = (counters.count now
        (windowKey ("tenant:" ++ Schemas.uuidText tenant.id) (aligned 60 now)) (60 * 2)).2 ∧
      (checkTenantRate counters now tenant).1.isOk = decide ((counters.count now
        (windowKey ("tenant:" ++ Schemas.uuidText tenant.id) (aligned 60 now)) (60 * 2)).1 ≤ limit) := by
  unfold checkTenantRate
  rw [capped, if_neg (by omega)]
  dsimp only
  split
  · rename_i above
    exact ⟨rfl, (decide_eq_false (Nat.not_le.mpr (Int.ofNat_lt.mp above))).symm⟩
  · rename_i within
    exact ⟨rfl, (decide_eq_true (Int.ofNat_le.mp (Int.not_lt.mp within))).symm⟩

/-- What the limiter promises of the requests of one identity. -/
structure KeepsBound (limit window : Nat) (served : List (ℚ≥0 × Bool)) : Prop where
  inWindow : ∀ index : Nat, acceptedWhere
    (fun now => ((index * window : Nat) : ℚ≥0) ≤ now && now < (((index + 1) * window : Nat) : ℚ≥0)) served ≤ limit
  inInterval : ∀ start : ℚ≥0, acceptedWhere (fun now => start ≤ now && now < start + window) served ≤ 2 * limit
  refusal : ∀ {earlier later now}, served = earlier ++ (now, false) :: later →
    limit ≤ inBucket (aligned window) (aligned window now) (earlier.map Prod.fst)

theorem serve_keepsBound (positive : 0 < window) :
    KeepsBound limit window (serve (aligned window) limit [] times) where
  inWindow := by
    intro index
    have same : (fun now : ℚ≥0 => ((index * window : Nat) : ℚ≥0) ≤ now && now < (((index + 1) * window : Nat) : ℚ≥0)) =
        fun now => decide (aligned window now = index) := by
      funext now
      rw [Bool.eq_iff_iff]
      simpa using (@aligned_eq_iff window now positive index).symm
    have bound := @acceptedWhere_bucket _ (aligned window) limit [] times index
    rw [same]
    omega
  inInterval := by
    intro start
    refine @acceptedWhere_two _ _ _ _ _ _ (aligned window start) (aligned window start + 1) fun now inside => ?_
    simp only [Bool.and_eq_true, decide_eq_true_eq] at inside
    exact aligned_between positive inside.1 inside.2
  refusal := by
    intro earlier later now split
    simpa [inBucket] using seen_of_refused split

def Unseen (counters : Counters) (key : String) : Prop := ∀ index, counters (windowKey key index) = none

/-- Both limiters keep the bound of their windows. -/
theorem limiters_keep_bound (positive : 1 ≤ limit) :
    (∀ key window counters times, 1 ≤ window → Unseen counters key →
      KeepsBound limit window (requests (fun counters now => check counters now key limit window) counters times)) ∧
    ∀ (tenant : Tenant) counters times, tenant.rateLimitPerMinute = limit →
      Unseen counters ("tenant:" ++ Schemas.uuidText tenant.id) →
      KeepsBound limit 60 (requests (fun counters now => checkTenantRate counters now tenant) counters times) := by
  constructor
  · intro key window counters times wide unseen
    rw [requests_eq_serve wide (windowKey_injective key) (check_counts key) (.start unseen)]
    exact serve_keepsBound wide
  · intro tenant counters times capped unseen
    rw [requests_eq_serve (by decide) (windowKey_injective _) (checkTenantRate_counts tenant capped positive)
      (.start unseen)]
    exact serve_keepsBound (by decide)

theorem limiters_keep_bound_of_two :
    KeepsBound 2 60 (requests (fun counters now => check counters now "login:10.0.0.1" 2 60) (fun _ => none)
      [1, 2, 59, 60, 61, 119]) ∧
    KeepsBound 2 60 (requests (fun counters now => checkTenantRate counters now { id := 7, rateLimitPerMinute := 2 })
      (fun _ => none) [1, 2, 59, 60, 61, 119]) :=
  ⟨(limiters_keep_bound (by decide)).1 _ 60 _ _ (by decide) fun _ => rfl,
    (limiters_keep_bound (by decide)).2 _ _ _ rfl fun _ => rfl⟩

/-- Both sides of a boundary: four requests in 59 seconds. -/
example : requests (fun counters now => check counters now "login:10.0.0.1" 2 60) (fun _ => none)
    [1, 2, 59, 60, 61, 119] =
      [(1, true), (2, true), (59, false), (60, true), (61, true), (119, false)] := by decide +kernel

end IncidentPlatform.Properties

import Mathlib.Data.NNRat.Floor
import Mathlib.Data.List.Count
import Mathlib.Tactic.Linarith

namespace IncidentPlatform.Order

/-! # Fixed windows

Instants fall into buckets, and of each bucket the first `limit` requests are
accepted.  Where the buckets are the multiples of a width, an interval of that
width meets two of them at most.
-/

section Limiter

variable {Instant : Type} (bucket : Instant → Nat) (limit : Nat)

/-- How many of the instants fall into the bucket of `index`. -/
def inBucket (index : Nat) (instants : List Instant) : Nat :=
  instants.countP fun instant => bucket instant = index

/-- The requests, oldest first, each with whether it is accepted after those
that were `seen`. -/
def serve : List Instant → List Instant → List (Instant × Bool)
  | _, [] => []
  | seen, now :: rest =>
      (now, inBucket bucket (bucket now) seen < limit) :: serve (now :: seen) rest

/-- The accepted requests that `passes` selects. -/
def acceptedWhere (passes : Instant → Bool) (served : List (Instant × Bool)) : Nat :=
  served.countP fun request => request.2 && passes request.1

variable {bucket limit} {seen times : List Instant}

theorem inBucket_cons (index : Nat) (now : Instant) (instants : List Instant) :
    inBucket bucket index (now :: instants) =
      inBucket bucket index instants + if bucket now = index then 1 else 0 := by
  simp [inBucket, List.countP_cons]

/-- Of a bucket, no more are accepted than the limit leaves after those seen. -/
theorem acceptedWhere_bucket (index : Nat) :
    acceptedWhere (fun now => bucket now = index) (serve bucket limit seen times) +
      min limit (inBucket bucket index seen) ≤ limit := by
  induction times generalizing seen with
  | nil =>
      simp only [serve, acceptedWhere, List.countP_nil]
      omega
  | cons now rest ih =>
      have later := @ih (now :: seen)
      have counted := @inBucket_cons _ bucket index now seen
      simp only [acceptedWhere] at later
      simp only [serve, acceptedWhere, List.countP_cons]
      by_cases same : bucket now = index
      · subst same
        rw [if_pos rfl] at counted
        by_cases accepted : inBucket bucket (bucket now) seen < limit
        · simp only [accepted, decide_true, Bool.and_self, if_true]
          omega
        · simp only [accepted, decide_false, Bool.false_and, Bool.false_eq_true, if_false]
          omega
      · simp only [same, decide_false, Bool.and_false, Bool.false_eq_true, if_false]
        rw [if_neg same] at counted
        omega

/-- A request is refused only after `limit` requests of its bucket. -/
theorem seen_of_refused {earlier later : List (Instant × Bool)} {now : Instant}
    (split : serve bucket limit seen times = earlier ++ (now, false) :: later) :
    limit ≤ inBucket bucket (bucket now) (earlier.map Prod.fst) + inBucket bucket (bucket now) seen := by
  induction times generalizing seen earlier with
  | nil => simp [serve] at split
  | cons first rest ih =>
      cases earlier with
      | nil =>
          simp only [serve, List.nil_append, List.cons.injEq, Prod.mk.injEq, decide_eq_false_iff_not] at split
          obtain ⟨⟨rfl, refused⟩, _⟩ := split
          simpa [inBucket] using Nat.not_lt.mp refused
      | cons head earlier =>
          simp only [serve, List.cons_append, List.cons.injEq] at split
          obtain ⟨rfl, tail⟩ := split
          have bound := ih tail
          rw [inBucket_cons] at bound
          rw [List.map_cons, inBucket_cons]
          dsimp only
          omega

/-- Where what passes lies in two buckets, twice the limit is accepted at most. -/
theorem acceptedWhere_two {passes : Instant → Bool} {index other : Nat}
    (covered : ∀ now, passes now = true → bucket now = index ∨ bucket now = other) :
    acceptedWhere passes (serve bucket limit seen times) ≤ 2 * limit := by
  have first := @acceptedWhere_bucket _ bucket limit seen times index
  have second := @acceptedWhere_bucket _ bucket limit seen times other
  have joined : ∀ served : List (Instant × Bool), acceptedWhere passes served ≤
      acceptedWhere (fun now => bucket now = index) served +
        acceptedWhere (fun now => bucket now = other) served := by
    intro served
    induction served with
    | nil => simp [acceptedWhere]
    | cons request rest ih =>
        obtain ⟨now, accepted⟩ := request
        simp only [acceptedWhere, List.countP_cons] at ih ⊢
        cases accepted with
        | false => simpa using ih
        | true =>
            by_cases passed : passes now = true
            · rcases covered now passed with same | same
              · simp only [passed, same, decide_true, Bool.and_self, if_true]
                omega
              · simp only [passed, same, decide_true, Bool.and_self, if_true]
                omega
            · simp only [passed, Bool.and_false, Bool.false_eq_true, if_false]
              omega
  have total := joined (serve bucket limit seen times)
  omega

end Limiter

section Width

/-- The bucket of an instant, in whole widths since the start of the clock. -/
def aligned (width : Nat) (now : ℚ≥0) : Nat := ⌊now⌋₊ / width

variable {width : Nat} {now start : ℚ≥0}

theorem le_of_aligned (positive : 0 < width) {index : Nat} :
    index ≤ aligned width now ↔ ((index * width : Nat) : ℚ≥0) ≤ now := by
  rw [aligned, Nat.le_div_iff_mul_le positive, Nat.le_floor_iff zero_le]

theorem aligned_eq_iff (positive : 0 < width) {index : Nat} : aligned width now = index ↔
    ((index * width : Nat) : ℚ≥0) ≤ now ∧ now < (((index + 1) * width : Nat) : ℚ≥0) := by
  rw [← le_of_aligned positive, ← not_le, ← le_of_aligned positive]
  omega

/-- An interval of one width meets two buckets at most. -/
theorem aligned_between (positive : 0 < width) (from_ : start ≤ now) (until_ : now < start + width) :
    aligned width now = aligned width start ∨ aligned width now = aligned width start + 1 := by
  obtain ⟨lower, upper⟩ := (@aligned_eq_iff width start positive _).mp rfl
  have least : aligned width start ≤ aligned width now := (le_of_aligned positive).mpr (le_trans lower from_)
  have most : ¬ aligned width start + 2 ≤ aligned width now := by
    rw [le_of_aligned positive, not_le]
    calc now < start + width := until_
      _ < (((aligned width start + 1) * width : Nat) : ℚ≥0) + width := by
          exact add_lt_add_of_lt_of_le upper (le_refl _)
      _ = (((aligned width start + 2) * width : Nat) : ℚ≥0) := by
          push_cast
          ring
  omega

end Width

end IncidentPlatform.Order

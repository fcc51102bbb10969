import Mathlib.Data.List.Basic

namespace IncidentPlatform.Search

/-! # The first streak of a list

A streak is a number of neighbours that all pass a test.
-/

variable {α : Type} (passes : α → Bool) (required : Nat)

/-- A streak stands at the front of the items. -/
def startsStreak (items : List α) : Bool :=
  required ≤ items.length && (items.take required).all passes

/-- The items from the first streak on. -/
def firstStreak : List α → Option (List α)
  | [] => if startsStreak passes required [] then some [] else none
  | item :: rest =>
      if startsStreak passes required (item :: rest) then some (item :: rest) else firstStreak rest

variable {passes required} {items : List α}

theorem startsStreak_iff : startsStreak passes required items = true ↔
    ∃ run later, items = run ++ later ∧ run.length = required ∧ ∀ item ∈ run, passes item = true := by
  simp only [startsStreak, Bool.and_eq_true, decide_eq_true_eq, List.all_eq_true]
  constructor
  · rintro ⟨long, pass⟩
    exact ⟨items.take required, items.drop required, (List.take_append_drop ..).symm,
      List.length_take_of_le long, pass⟩
  · rintro ⟨run, later, rfl, rfl, pass⟩
    exact ⟨by simp, by simpa using pass⟩

theorem startsStreak_append {more : List α} (starts : startsStreak passes required items = true) :
    startsStreak passes required (items ++ more) = true := by
  obtain ⟨run, later, rfl, long, pass⟩ := startsStreak_iff.mp starts
  exact startsStreak_iff.mpr ⟨run, later ++ more, List.append_assoc .., long, pass⟩

theorem startsStreak_of_append {more : List α} (long : required ≤ items.length)
    (starts : startsStreak passes required (items ++ more) = true) : startsStreak passes required items = true := by
  simp only [startsStreak, Bool.and_eq_true, decide_eq_true_eq, List.take_append_of_le_length long] at starts ⊢
  exact ⟨long, starts.2⟩

theorem not_startsStreak {front later : List α} {item : α} (short : front.length < required)
    (fails : passes item = false) : startsStreak passes required (front ++ item :: later) = false := by
  rw [Bool.eq_false_iff]
  intro starts
  simp only [startsStreak, Bool.and_eq_true, List.all_eq_true] at starts
  have among : item ∈ (front ++ item :: later).take required := by
    rw [List.take_append, List.take_cons (by omega)]
    simp
  rw [starts.2 item among] at fails
  contradiction

/-- No streak starts before a failing item that is near enough. -/
theorem firstStreak_skip {front later : List α} {item : α} (short : front.length < required)
    (fails : passes item = false) :
    firstStreak passes required (front ++ item :: later) = firstStreak passes required later := by
  induction front with
  | nil =>
      rw [List.nil_append, firstStreak, ← List.nil_append (item :: later), not_startsStreak short fails]
      rfl
  | cons first front ih =>
      rw [List.length_cons] at short
      rw [List.cons_append, firstStreak, ← List.cons_append,
        not_startsStreak (by simpa using short) fails]
      exact ih (by omega)

/-- A streak is found exactly where there is one, and what is found starts at the
earliest. -/
theorem firstStreak_eq_some_iff {found : List α} : firstStreak passes required items = some found ↔
    ∃ earlier, items = earlier ++ found ∧ startsStreak passes required found = true ∧
      ∀ before later, items = before ++ later → startsStreak passes required later = true →
        earlier.length ≤ before.length := by
  induction items with
  | nil =>
      simp only [firstStreak, Option.ite_none_right_eq_some, Option.some.injEq]
      constructor
      · rintro ⟨starts, rfl⟩
        exact ⟨[], rfl, starts, fun _ _ _ _ => Nat.zero_le _⟩
      · rintro ⟨earlier, split, starts, _⟩
        obtain ⟨rfl, rfl⟩ := List.append_eq_nil_iff.mp split.symm
        exact ⟨starts, rfl⟩
  | cons item rest ih =>
      rw [firstStreak]
      by_cases here : startsStreak passes required (item :: rest) = true
      · rw [if_pos here, Option.some.injEq]
        constructor
        · rintro rfl
          exact ⟨[], rfl, here, fun _ _ _ _ => Nat.zero_le _⟩
        · rintro ⟨earlier, split, _, least⟩
          have none_before := least [] _ rfl here
          rw [List.length_nil, Nat.le_zero, List.length_eq_zero_iff] at none_before
          subst none_before
          exact split
      · rw [if_neg here, ih]
        constructor
        · rintro ⟨earlier, rfl, starts, least⟩
          refine ⟨item :: earlier, rfl, starts, fun before later split begins => ?_⟩
          cases before with
          | nil =>
              rw [List.nil_append] at split
              exact absurd (split ▸ begins) here
          | cons first before =>
              rw [List.cons_append, List.cons.injEq] at split
              rw [List.length_cons, List.length_cons]
              exact Nat.succ_le_succ (least before later split.2 begins)
        · rintro ⟨earlier, split, starts, least⟩
          cases earlier with
          | nil =>
              rw [List.nil_append] at split
              exact absurd (split ▸ starts) here
          | cons first earlier =>
              rw [List.cons_append, List.cons.injEq] at split
              obtain ⟨rfl, rfl⟩ := split
              refine ⟨earlier, rfl, starts, fun before later split begins => ?_⟩
              have bound := least (item :: before) later (by rw [List.cons_append, split]) begins
              simpa using bound

/-- Items that come later leave the first streak where it is. -/
theorem firstStreak_append {found more : List α} (streak : firstStreak passes required items = some found) :
    firstStreak passes required (items ++ more) = some (found ++ more) := by
  obtain ⟨earlier, rfl, starts, least⟩ := firstStreak_eq_some_iff.mp streak
  refine firstStreak_eq_some_iff.mpr ⟨earlier, List.append_assoc .., startsStreak_append starts, ?_⟩
  intro before later split begins
  by_contra shorter
  -- The streak in question would end before `more`, since the one that was found does.
  have reach : before.length ≤ (earlier ++ found).length := by
    rw [List.length_append]
    omega
  obtain ⟨within, same⟩ : before <+: earlier ++ found :=
    List.prefix_of_prefix_length_le ⟨later, split.symm⟩ ⟨more, rfl⟩ reach
  have long : required ≤ found.length := by
    obtain ⟨run, rest, rfl, rfl, _⟩ := startsStreak_iff.mp starts
    simp
  rw [← same, List.append_assoc, List.append_cancel_left_eq] at split
  rw [← split] at begins
  have total := congrArg List.length same
  rw [List.length_append, List.length_append] at total
  exact shorter (least before within same.symm (startsStreak_of_append (by omega) begins))

theorem exists_firstStreak {before later : List α} (split : items = before ++ later)
    (starts : startsStreak passes required later = true) : ∃ found, firstStreak passes required items = some found := by
  subst split
  induction before with
  | nil =>
      cases later with
      | nil => exact ⟨[], by simp [firstStreak, starts]⟩
      | cons item rest => exact ⟨item :: rest, by simp [firstStreak, starts]⟩
  | cons item before ih =>
      rw [List.cons_append, firstStreak]
      split
      · exact ⟨_, rfl⟩
      · exact ih

end IncidentPlatform.Search

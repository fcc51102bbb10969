import Mathlib.Algebra.Order.Group.Nat
import Mathlib.Data.Fintype.Basic
import Mathlib.Order.Defs.LinearOrder

namespace IncidentPlatform.Dates

/-! # The civil calendar

Days of the proleptic Gregorian calendar by number, the first of January of the
year 1 as day 1, and the instants of a day to the microsecond.
-/

def isLeap (year : Nat) : Bool := year % 4 = 0 ∧ (year % 100 ≠ 0 ∨ year % 400 = 0)

def monthLength (leap : Bool) : Nat → Nat
  | 2 => if leap then 29 else 28
  | 4 | 6 | 9 | 11 => 30
  | _ => 31

def daysInMonth (year month : Nat) : Nat := monthLength (isLeap year) month

def daysBeforeYear (year : Nat) : Nat := (year - 1) * 365 + (year - 1) / 4 - (year - 1) / 100 + (year - 1) / 400

def beforeMonth (leap : Bool) : Nat → Nat
  | 0 | 1 => 0
  | month + 2 => beforeMonth leap (month + 1) + monthLength leap (month + 1)

structure Date where
  year : Nat
  month : Nat
  day : Nat
  year_pos : 1 ≤ year
  year_le : year ≤ 9999
  month_pos : 1 ≤ month
  month_le : month ≤ 12
  day_pos : 1 ≤ day
  day_le : day ≤ daysInMonth year month
deriving DecidableEq

namespace Date

variable {first second : Date}

/-- The number of the day. -/
def ordinal (date : Date) : Nat :=
  daysBeforeYear date.year + beforeMonth (isLeap date.year) date.month + date.day

/-- Field by field. -/
def Before (first second : Date) : Prop :=
  first.year < second.year ∨ first.year = second.year ∧
    (first.month < second.month ∨ first.month = second.month ∧ first.day < second.day)

theorem monthLength_le (leap : Bool) (month : Nat) : monthLength leap month ≤ 31 := by
  unfold monthLength
  split <;> first | (split <;> omega) | omega

theorem beforeMonth_mono (leap : Bool) {month later : Nat} (below : month < later) (positive : 1 ≤ month) :
    beforeMonth leap month + monthLength leap month ≤ beforeMonth leap later := by
  induction later with
  | zero => omega
  | succ later ih =>
    obtain ⟨earlier, rfl⟩ : ∃ earlier, later = earlier + 1 := ⟨later - 1, by omega⟩
    rw [beforeMonth]
    by_cases last : month = earlier + 1
    · rw [last]
    · have step := ih (by omega)
      omega

theorem isLeap_succ (year : Nat) : isLeap (year + 1) = true ↔ 4 ∣ year + 1 ∧ (¬ 100 ∣ year + 1 ∨ 400 ∣ year + 1) := by
  simp [isLeap, Nat.dvd_iff_mod_eq_zero]

theorem daysBeforeYear_succ (year : Nat) :
    daysBeforeYear (year + 2) = daysBeforeYear (year + 1) + if isLeap (year + 1) then 366 else 365 := by
  have fourth := @Nat.succ_div year 4
  have century := @Nat.succ_div year 100
  have cycle := @Nat.succ_div year 400
  have centuries : year / 100 ≤ year / 4 := Nat.div_le_div_left (by decide) (by decide)
  have of_cycle : 400 ∣ year + 1 → 100 ∣ year + 1 := Nat.dvd_trans (by decide)
  have of_century : 100 ∣ year + 1 → 4 ∣ year + 1 := Nat.dvd_trans (by decide)
  have leap := isLeap_succ year
  simp only [daysBeforeYear, Nat.add_sub_cancel, show year + 2 - 1 = year + 1 by omega, fourth, century, cycle]
  by_cases four : 4 ∣ year + 1
  · by_cases hundred : 100 ∣ year + 1
    · by_cases fourHundred : 400 ∣ year + 1
      · rw [if_pos (leap.mpr ⟨four, Or.inr fourHundred⟩), if_pos four, if_pos hundred, if_pos fourHundred]
        omega
      · have common : ¬ isLeap (year + 1) = true := fun isLeap => (leap.mp isLeap).2.elim (· hundred) fourHundred
        rw [if_neg common, if_pos four, if_pos hundred, if_neg fourHundred]
        omega
    · have rest : ¬ 400 ∣ year + 1 := fun divides => hundred (of_cycle divides)
      rw [if_pos (leap.mpr ⟨four, Or.inl hundred⟩), if_pos four, if_neg hundred, if_neg rest]
      omega
  · have hundred : ¬ 100 ∣ year + 1 := fun divides => four (of_century divides)
    have rest : ¬ 400 ∣ year + 1 := fun divides => hundred (of_cycle divides)
    rw [if_neg fun isLeap => four (leap.mp isLeap).1, if_neg four, if_neg hundred, if_neg rest]
    omega

theorem year_length (year : Nat) (positive : 1 ≤ year) :
    daysBeforeYear year + beforeMonth (isLeap year) 12 + monthLength (isLeap year) 12 = daysBeforeYear (year + 1) := by
  obtain ⟨before, rfl⟩ : ∃ before, year = before + 1 := ⟨year - 1, by omega⟩
  have table : beforeMonth (isLeap (before + 1)) 12 + monthLength (isLeap (before + 1)) 12 =
      if isLeap (before + 1) then 366 else 365 := by
    cases isLeap (before + 1) <;> rfl
  rw [Nat.add_assoc, table, daysBeforeYear_succ]

theorem daysBeforeYear_mono {year later : Nat} (positive : 1 ≤ year) (atMost : year ≤ later) :
    daysBeforeYear year ≤ daysBeforeYear later := by
  induction later, atMost using Nat.le_induction with
  | base => exact le_refl _
  | succ later atMost ih =>
    have step := year_length later (by omega)
    omega

theorem ordinal_le_year (date : Date) : date.ordinal ≤ daysBeforeYear (date.year + 1) := by
  rw [← year_length date.year date.year_pos]
  have day := date.day_le
  unfold daysInMonth at day
  unfold ordinal
  by_cases last : date.month = 12
  · rw [last] at day ⊢
    omega
  · have month := beforeMonth_mono (isLeap date.year) (show date.month < 12 from lt_of_le_of_ne date.month_le last) date.month_pos
    omega

theorem ordinal_lt_of_before (before : Before first second) : first.ordinal < second.ordinal := by
  rcases before with year | ⟨year, month | ⟨month, day⟩⟩
  · have whole := first.ordinal_le_year
    have later := @daysBeforeYear_mono (first.year + 1) second.year (by omega) year
    have positive := second.day_pos
    unfold ordinal at whole ⊢
    omega
  · have within := first.day_le
    have positive := second.day_pos
    have months := beforeMonth_mono (isLeap first.year) month first.month_pos
    unfold daysInMonth at within
    unfold ordinal
    rw [← year]
    omega
  · unfold ordinal
    rw [← year, ← month]
    omega

theorem before_trichotomy (first second : Date) : Before first second ∨ first = second ∨ Before second first := by
  unfold Before
  rcases Nat.lt_trichotomy first.year second.year with year | year | year
  · exact Or.inl (Or.inl year)
  · rcases Nat.lt_trichotomy first.month second.month with month | month | month
    · exact Or.inl (Or.inr ⟨year, Or.inl month⟩)
    · rcases Nat.lt_trichotomy first.day second.day with day | day | day
      · exact Or.inl (Or.inr ⟨year, Or.inr ⟨month, day⟩⟩)
      · refine Or.inr (Or.inl ?_)
        cases first
        cases second
        cases year
        cases month
        cases day
        rfl
      · exact Or.inr (Or.inr (Or.inr ⟨year.symm, Or.inr ⟨month.symm, day⟩⟩))
    · exact Or.inr (Or.inr (Or.inr ⟨year.symm, Or.inl month⟩))
  · exact Or.inr (Or.inr (Or.inl year))

/-- Days are in the order of their numbers. -/
theorem ordinal_lt_iff : first.ordinal < second.ordinal ↔ Before first second := by
  refine ⟨fun below => ?_, ordinal_lt_of_before⟩
  rcases before_trichotomy first second with before | rfl | after
  · exact before
  · exact absurd below (lt_irrefl _)
  · exact absurd below (lt_asymm (ordinal_lt_of_before after))

theorem ordinal_injective : Function.Injective ordinal := by
  intro first second same
  rcases before_trichotomy first second with before | equal | after
  · exact absurd same (ne_of_lt (ordinal_lt_of_before before))
  · exact equal
  · exact absurd same.symm (ne_of_lt (ordinal_lt_of_before after))

end Date

/-- An instant of the calendar, to the microsecond. -/
structure DateTime where
  date : Date
  hour : Nat
  minute : Nat
  second : Nat
  microsecond : Nat
  hour_lt : hour < 24
  minute_lt : minute < 60
  second_lt : second < 60
  microsecond_lt : microsecond < 1000000
deriving DecidableEq

namespace DateTime

variable {first second : DateTime}

def secondOfDay (instant : DateTime) : Nat := instant.hour * 3600 + instant.minute * 60 + instant.second

/-- The whole seconds since the day before the calendar starts. -/
def seconds (instant : DateTime) : Nat := instant.date.ordinal * 86400 + instant.secondOfDay

def micros (instant : DateTime) : Nat := instant.seconds * 1000000 + instant.microsecond

theorem secondOfDay_lt (instant : DateTime) : instant.secondOfDay < 86400 := by
  have hour := instant.hour_lt
  have minute := instant.minute_lt
  have second := instant.second_lt
  unfold secondOfDay
  omega

theorem seconds_lt_iff : first.seconds < second.seconds ↔
    first.date.ordinal < second.date.ordinal ∨
      first.date.ordinal = second.date.ordinal ∧ first.secondOfDay < second.secondOfDay := by
  have low := first.secondOfDay_lt
  have high := second.secondOfDay_lt
  unfold seconds
  omega

theorem secondOfDay_lt_iff : first.secondOfDay < second.secondOfDay ↔ first.hour < second.hour ∨ first.hour = second.hour ∧
    (first.minute < second.minute ∨ first.minute = second.minute ∧ first.second < second.second) := by
  have minute := first.minute_lt
  have other := second.minute_lt
  have low := first.second_lt
  have high := second.second_lt
  unfold secondOfDay
  omega

theorem micros_lt_iff : first.micros < second.micros ↔
    first.seconds < second.seconds ∨ first.seconds = second.seconds ∧ first.microsecond < second.microsecond := by
  have low := first.microsecond_lt
  have high := second.microsecond_lt
  unfold micros
  omega

theorem eq_of_seconds (same : first.seconds = second.seconds) : first.date = second.date ∧ first.hour = second.hour ∧
    first.minute = second.minute ∧ first.second = second.second := by
  have day : first.date.ordinal = second.date.ordinal := by
    have low := first.secondOfDay_lt
    have high := second.secondOfDay_lt
    unfold seconds at same
    omega
  have time : first.secondOfDay = second.secondOfDay := by
    unfold seconds at same
    omega
  have minute := first.minute_lt
  have other := second.minute_lt
  have low := first.second_lt
  have high := second.second_lt
  unfold secondOfDay at time
  exact ⟨Date.ordinal_injective day, by omega, by omega, by omega⟩

end DateTime

end IncidentPlatform.Dates

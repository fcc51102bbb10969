import Mathlib.Data.List.TakeWhile
import Mathlib.Order.Lattice

namespace IncidentPlatform.Order

/-! # Recent windows

The items of a list, newest first, whose time is past a cutoff, cut to a number.
Where the cutoff only moves forward, a window that is pruned and cut at every append
is the window of everything that was appended.
-/

section RecentWindow

variable {α β : Type} [LinearOrder β] (time : α → β)

def recent (cutoff : β) (cap : Nat) (items : List α) : List α := (items.filter fun item => decide (cutoff < time item)).take cap

/-- Newest first. -/
def Descending (items : List α) : Prop := items.Pairwise fun newer older => time older < time newer

variable {time} {cutoff later : β} {cap : Nat} {item : α} {items : List α}

theorem filter_eq_takeWhile (sorted : Descending time items) :
    items.filter (fun item => decide (cutoff < time item)) = items.takeWhile fun item => decide (cutoff < time item) := by
  induction items with
  | nil => rfl
  | cons first rest ih =>
    obtain ⟨newest, others⟩ := List.pairwise_cons.mp sorted
    by_cases past : cutoff < time first
    · rw [List.filter_cons_of_pos (by simpa using past), List.takeWhile_cons_of_pos (by simpa using past), ih others]
    · have none : rest.filter (fun item => decide (cutoff < time item)) = [] := by
        rw [List.filter_eq_nil_iff]
        intro item member
        have older := newest item member
        simpa using le_trans older.le (not_lt.mp past)
      rw [List.filter_cons_of_neg (by simpa using past), List.takeWhile_cons_of_neg (by simpa using past), none]

theorem filter_take (sorted : Descending time items) (count : Nat) :
    (items.take count).filter (fun item => decide (cutoff < time item)) =
      (items.filter fun item => decide (cutoff < time item)).take count := by
  have shorter : Descending time (items.take count) := List.Pairwise.sublist (List.take_sublist _ _) sorted
  rw [filter_eq_takeWhile shorter, filter_eq_takeWhile sorted]
  induction items generalizing count with
  | nil => simp
  | cons first rest ih =>
    cases count with
    | zero => rfl
    | succ count =>
      obtain ⟨-, others⟩ := List.pairwise_cons.mp sorted
      rw [List.take_succ_cons, List.takeWhile_cons, List.takeWhile_cons]
      split
      · rw [List.take_succ_cons, ih others count (List.Pairwise.sublist (List.take_sublist _ _) others)]
      · rfl

theorem filter_filter_of_le (forward : cutoff ≤ later) :
    (items.filter fun item => decide (cutoff < time item)).filter (fun item => decide (later < time item)) =
      items.filter fun item => decide (later < time item) := by
  rw [List.filter_filter]
  congr 1
  funext item
  by_cases past : later < time item
  · simp [past, lt_of_le_of_lt forward past]
  · simp [past]

/-- An append to the window is an append to everything before it. -/
theorem take_cons_filter_recent (sorted : Descending time items) (forward : cutoff ≤ later) (new : later < time item) :
    (item :: (recent time cutoff cap items).filter fun item => decide (later < time item)).take cap =
      recent time later cap (item :: items) := by
  have pruned : Descending time (items.filter fun item => decide (cutoff < time item)) :=
    List.Pairwise.sublist List.filter_sublist sorted
  rw [recent, recent, filter_take pruned, filter_filter_of_le forward, List.filter_cons_of_pos (by simpa using new)]
  cases cap with
  | zero => rfl
  | succ cap => rw [List.take_succ_cons, List.take_succ_cons, List.take_take, min_eq_left (Nat.le_succ cap)]

theorem recent_cons_of_all_old (old : ∀ other ∈ items, time other ≤ later) (new : later < time item) :
    recent time later (cap + 1) (item :: items) = [item] := by
  have none : items.filter (fun item => decide (later < time item)) = [] := by
    rw [List.filter_eq_nil_iff]
    intro other member
    simpa using old other member
  rw [recent, List.filter_cons_of_pos (by simpa using new), none]
  exact List.take_of_length_le (by simp)

theorem mem_recent (member : item ∈ recent time cutoff cap items) : item ∈ items :=
  (List.mem_filter.mp (List.mem_of_mem_take member)).1

theorem recent_descending (sorted : Descending time items) : Descending time (recent time cutoff cap items) :=
  List.Pairwise.sublist ((List.take_sublist _ _).trans List.filter_sublist) sorted

end RecentWindow

end IncidentPlatform.Order

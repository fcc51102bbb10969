import Mathlib.Data.List.Sort

namespace IncidentPlatform.Storage

/-! # Sorted sets

Members with one score each.  A range is read in the order of the scores, and
members of one score in an order of their own.
-/

abbrev SortedSet (Member Score : Type) := List (Member × Score)

namespace SortedSet

variable {Member Score : Type} {member other : Member} {score : Score} {entry : Member × Score}

def members (set : SortedSet Member Score) : List Member := set.map Prod.fst

theorem mem_members {set : SortedSet Member Score} :
    member ∈ set.members ↔ ∃ score, (member, score) ∈ set := by
  simp [members]

section Changes

variable [DecidableEq Member] {set : SortedSet Member Score} {added gone : List Member}

def add (set : SortedSet Member Score) (member : Member) (score : Score) : SortedSet Member Score :=
  (member, score) :: set.filter fun entry => entry.1 ≠ member

def remove (set : SortedSet Member Score) (gone : List Member) : SortedSet Member Score :=
  set.filter fun entry => !gone.contains entry.1

/-- Adds every one of `added` under one score. -/
def addAll (set : SortedSet Member Score) (added : List Member) (score : Score) :
    SortedSet Member Score :=
  added.foldl (fun set member => add set member score) set

theorem mem_add : entry ∈ set.add member score ↔
    entry = (member, score) ∨ entry ∈ set ∧ entry.1 ≠ member := by
  simp [add]

theorem mem_members_add : other ∈ (set.add member score).members ↔
    other = member ∨ other ∈ set.members := by
  simp only [mem_members, mem_add]
  constructor
  · rintro ⟨score, same | ⟨held, _⟩⟩
    · cases same
      exact .inl rfl
    · exact .inr ⟨score, held⟩
  · rintro (rfl | ⟨score, held⟩)
    · exact ⟨_, .inl rfl⟩
    · by_cases same : other = member
      · exact ⟨_, .inl (by rw [same])⟩
      · exact ⟨score, .inr ⟨held, same⟩⟩

theorem mem_remove : entry ∈ set.remove gone ↔ entry ∈ set ∧ entry.1 ∉ gone := by
  simp [remove]

theorem mem_members_remove :
    member ∈ (set.remove gone).members ↔ member ∈ set.members ∧ member ∉ gone := by
  simp only [mem_members, mem_remove]
  exact exists_and_right

theorem mem_members_addAll :
    member ∈ (set.addAll added score).members ↔ member ∈ added ∨ member ∈ set.members := by
  induction added generalizing set with
  | nil => simp [addAll]
  | cons first rest ih =>
      have unfolded : set.addAll (first :: rest) score = (set.add first score).addAll rest score := rfl
      rw [unfolded, ih, mem_members_add, List.mem_cons]
      exact or_left_comm.trans or_assoc.symm

theorem nodup_remove (distinct : set.members.Nodup) : (set.remove gone).members.Nodup :=
  distinct.sublist (List.filter_sublist.map Prod.fst)

theorem nodup_add (distinct : set.members.Nodup) : (set.add member score).members.Nodup := by
  refine List.nodup_cons.mpr ⟨?_, distinct.sublist (List.filter_sublist.map Prod.fst)⟩
  intro held
  obtain ⟨entry, kept, same⟩ := List.mem_map.mp held
  simpa [same] using (List.mem_filter.mp kept).2

/-- What is taken out and what is left are the members. -/
theorem perm_remove (distinct : set.members.Nodup) (once : gone.Nodup) (among : gone ⊆ set.members) :
    ((set.remove gone).members ++ gone).Perm set.members := by
  refine (List.perm_ext_iff_of_nodup ?_ distinct).mpr fun member => ?_
  · refine List.nodup_append.mpr ⟨nodup_remove distinct, once, ?_⟩
    intro left kept taken removed same
    rw [same] at kept
    exact (mem_members_remove.mp kept).2 removed
  · rw [List.mem_append, mem_members_remove]
    constructor
    · intro held
      cases held with
      | inl kept => exact kept.1
      | inr removed => exact among removed
    · intro held
      by_cases removed : member ∈ gone
      · exact .inr removed
      · exact .inl ⟨held, removed⟩

/-- An entry after `addAll` is an added one or was there before. -/
theorem mem_addAll (held : entry ∈ set.addAll added score) :
    entry.2 = score ∨ entry ∈ set ∧ entry.1 ∉ added := by
  induction added generalizing set with
  | nil => exact .inr ⟨held, List.not_mem_nil⟩
  | cons first rest ih =>
      have later : entry ∈ (set.add first score).addAll rest score := held
      obtain same | ⟨older, untouched⟩ := ih later
      · exact .inl same
      · obtain rfl | ⟨kept, different⟩ := mem_add.mp older
        · exact .inl rfl
        · exact .inr ⟨kept, by simp [different, untouched]⟩

end Changes

section Range

variable [LinearOrder Score] {precedes : Member → Member → Bool} {set : SortedSet Member Score}
  {bound : Score} {limit : Nat}

/-- By score, and by `precedes` within one score. -/
def byScore (precedes : Member → Member → Bool) (first second : Member × Score) : Prop :=
  first.2 < second.2 ∨ first.2 = second.2 ∧ precedes first.1 second.1 = true

instance : DecidableRel (byScore precedes : Member × Score → Member × Score → Prop) :=
  fun _ _ => inferInstanceAs (Decidable (_ ∨ _))

/-- The members with a score up to `bound`, lowest first, at most `limit` of them. -/
def range (precedes : Member → Member → Bool) (set : SortedSet Member Score) (bound : Score)
    (limit : Nat) : List Member :=
  (((set.filter fun entry => entry.2 ≤ bound).insertionSort (byScore precedes)).take limit).map Prod.fst

/-- The `count` members with the lowest scores. -/
def lowest (precedes : Member → Member → Bool) (set : SortedSet Member Score) (count : Nat) :
    List Member :=
  ((set.insertionSort (byScore precedes)).take count).map Prod.fst

theorem length_lowest {count : Nat} : (set.lowest precedes count).length = min count set.length := by
  simp [lowest]

theorem lowest_subset {count : Nat} : set.lowest precedes count ⊆ set.members := by
  intro member found
  obtain ⟨entry, taken, rfl⟩ := List.mem_map.mp found
  have sorted := List.mem_of_mem_take taken
  rw [List.mem_insertionSort] at sorted
  exact List.mem_map_of_mem sorted

theorem nodup_lowest {count : Nat} (distinct : set.members.Nodup) :
    (set.lowest precedes count).Nodup := by
  have sorted : ((set.insertionSort (byScore precedes)).map Prod.fst).Nodup :=
    ((List.perm_insertionSort _ set).map Prod.fst).nodup_iff.mpr distinct
  exact sorted.sublist ((List.take_sublist _ _).map Prod.fst)

theorem length_range : (set.range precedes bound limit).length ≤ limit := by
  simp [range]

theorem mem_range (found : member ∈ set.range precedes bound limit) :
    ∃ score ≤ bound, (member, score) ∈ set := by
  obtain ⟨entry, taken, rfl⟩ := List.mem_map.mp found
  have sorted := List.mem_of_mem_take taken
  rw [List.mem_insertionSort, List.mem_filter, decide_eq_true_eq] at sorted
  exact ⟨entry.2, sorted.2, sorted.1⟩

end Range

section Rename

variable {Renamed : Type} {rename : Member → Renamed} {set : SortedSet Member Score}

def renamed (rename : Member → Renamed) (set : SortedSet Member Score) : SortedSet Renamed Score :=
  set.map fun entry => (rename entry.1, entry.2)

theorem range_renamed [LinearOrder Score] {precedes : Renamed → Renamed → Bool} {bound : Score}
    {limit : Nat} :
    (set.renamed rename).range precedes bound limit =
      (set.range (fun first second => precedes (rename first) (rename second)) bound limit).map rename := by
  have sorted := List.map_insertionSort
    (byScore (fun first second => precedes (rename first) (rename second))) (byScore precedes)
    (fun entry : Member × Score => (rename entry.1, entry.2))
    (set.filter fun entry => entry.2 ≤ bound) fun _ _ _ _ => Iff.rfl
  simp only [range, renamed, List.filter_map, List.map_map]
  rw [Function.comp_def, ← sorted, ← List.map_take, List.map_map]
  rfl

variable [DecidableEq Member] [DecidableEq Renamed]

theorem remove_renamed (injective : Function.Injective rename) {gone : List Member} :
    (set.renamed rename).remove (gone.map rename) = (set.remove gone).renamed rename := by
  simp only [remove, renamed, List.filter_map]
  congr 2
  funext entry
  simp [injective.eq_iff]

theorem add_renamed (injective : Function.Injective rename) :
    (set.renamed rename).add (rename member) score = (set.add member score).renamed rename := by
  simp only [add, renamed, List.filter_map, List.map_cons]
  congr 3
  funext entry
  simp [injective.eq_iff]

theorem addAll_renamed (injective : Function.Injective rename) {added : List Member} :
    (set.renamed rename).addAll (added.map rename) score = (set.addAll added score).renamed rename := by
  induction added generalizing set with
  | nil => rfl
  | cons first rest ih =>
      simp only [addAll, List.map_cons, List.foldl_cons] at ih ⊢
      rw [add_renamed injective, ih]

end Rename

end SortedSet

end IncidentPlatform.Storage

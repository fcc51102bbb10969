import Mathlib.Data.List.Basic
import Mathlib.Data.List.Perm.Basic
import Mathlib.Order.Lattice

namespace IncidentPlatform.Order

/-! # Lists with dividers

A list that runs from the newest item to the oldest holds dividers.  Each item
belongs to the divider that follows it, the latest one before it in time, and
the items after the last divider belong to none.
-/

structure Block (α : Type) where
  divider : α
  rows : List α

structure Divided (α : Type) where
  blocks : List (Block α)
  bottom : List α

variable {α : Type} (divides : α → Bool)

namespace Divided

def add (divided : Divided α) (item : α) : Divided α :=
  if divides item then { divided with blocks := ⟨item, []⟩ :: divided.blocks }
  else match divided.blocks with
    | [] => { divided with bottom := item :: divided.bottom }
    | block :: later => { divided with blocks := { block with rows := item :: block.rows } :: later }

/-- The list from the newest item to the oldest: a divider is older than its rows. -/
def newestFirst (divided : Divided α) : List α :=
  divided.blocks.flatMap (fun block => block.rows ++ [block.divider]) ++ divided.bottom

/-- The list with every divider above its rows. -/
def headed (divided : Divided α) : List α :=
  divided.blocks.flatMap (fun block => block.divider :: block.rows) ++ divided.bottom

/-- The dividers divide, and nothing else does. -/
structure Proper (divided : Divided α) : Prop where
  divider : ∀ block ∈ divided.blocks, divides block.divider = true
  rows : ∀ block ∈ divided.blocks, ∀ row ∈ block.rows, divides row = false
  bottom : ∀ row ∈ divided.bottom, divides row = false

end Divided

/-- Every item with the divider it belongs to. -/
def divide : List α → Divided α
  | [] => ⟨[], []⟩
  | item :: rest => (divide rest).add divides item

variable {divides} {divided : Divided α} {items : List α} {item : α}

theorem Divided.newestFirst_add (divided : Divided α) (item : α) :
    (divided.add divides item).newestFirst = item :: divided.newestFirst := by
  rw [Divided.add]
  split
  · rfl
  · cases divided with
    | mk blocks bottom => cases blocks <;> rfl

theorem Divided.Proper.add (proper : divided.Proper divides) (item : α) :
    (divided.add divides item).Proper divides := by
  obtain ⟨blocks, bottom⟩ := divided
  obtain ⟨dividers, rows, rest⟩ := proper
  rw [Divided.add]
  split
  · rename_i isDivider
    exact ⟨List.forall_mem_cons.mpr ⟨isDivider, dividers⟩, List.forall_mem_cons.mpr ⟨by simp, rows⟩, rest⟩
  · rename_i other
    have plain : divides item = false := by simpa using other
    cases blocks with
    | nil => exact ⟨dividers, rows, List.forall_mem_cons.mpr ⟨plain, rest⟩⟩
    | cons block later =>
        obtain ⟨first, dividers⟩ := List.forall_mem_cons.mp dividers
        obtain ⟨own, rows⟩ := List.forall_mem_cons.mp rows
        refine ⟨List.forall_mem_cons.mpr ⟨first, dividers⟩, ?_, rest⟩
        exact List.forall_mem_cons.mpr ⟨List.forall_mem_cons.mpr ⟨plain, own⟩, rows⟩

theorem newestFirst_divide (items : List α) : (divide divides items).newestFirst = items := by
  induction items with
  | nil => rfl
  | cons item rest ih => rw [divide, Divided.newestFirst_add, ih]

theorem proper_divide (items : List α) : (divide divides items).Proper divides := by
  induction items with
  | nil => exact ⟨by simp [divide], by simp [divide], by simp [divide]⟩
  | cons item rest ih => exact ih.add item

theorem Divided.headed_perm (divided : Divided α) : divided.headed.Perm divided.newestFirst := by
  refine List.Perm.append_right _ (List.Perm.flatMap_left _ fun block _ => ?_)
  exact (List.perm_append_singleton block.divider block.rows).symm

/-- Without a divider there is only the bottom. -/
theorem headed_divide_of_plain (plain : ∀ item ∈ items, divides item = false) :
    (divide divides items).headed = items := by
  have none : (divide divides items).blocks = [] := by
    refine List.eq_nil_iff_forall_not_mem.mpr fun block member => ?_
    have within : block.divider ∈ items := by
      rw [← @newestFirst_divide _ divides items]
      exact List.mem_append_left _ (List.mem_flatMap.mpr ⟨block, member, by simp⟩)
    have isDivider := (proper_divide items).divider block member
    rw [plain _ within] at isDivider
    cases isDivider
  have same := @newestFirst_divide _ divides items
  rw [Divided.newestFirst, none] at same
  rw [Divided.headed, none]
  exact same

section Time

variable {Time : Type} [LinearOrder Time] {time : α → Time} {block : Block α} {row other : α}

variable (divides) in
/-- Sorted from the newest item to the oldest; of two that share an instant, a
divider counts as the older. -/
def NewestFirst (time : α → Time) (items : List α) : Prop :=
  items.Pairwise fun newer older =>
    time older < time newer ∨ time older = time newer ∧ (divides newer = true → divides older = true)

/-- The divider of a row is not later than the row. -/
theorem Divided.divider_le (sorted : NewestFirst divides time divided.newestFirst)
    (member : block ∈ divided.blocks) (among : row ∈ block.rows) : time block.divider ≤ time row := by
  obtain ⟨before, after, located⟩ := List.append_of_mem member
  rw [Divided.newestFirst, located] at sorted
  simp only [List.flatMap_append, List.flatMap_cons, List.append_assoc] at sorted
  have own := (List.pairwise_append.mp (List.pairwise_append.mp sorted).2.1)
  obtain later | ⟨same, _⟩ := own.2.2 row among block.divider (by simp)
  · exact le_of_lt later
  · exact le_of_eq same

/-- No divider lies between a row and its own. -/
theorem Divided.latest (proper : divided.Proper divides) (sorted : NewestFirst divides time divided.newestFirst)
    (member : block ∈ divided.blocks) (among : row ∈ block.rows) (held : other ∈ divided.newestFirst)
    (isDivider : divides other = true) (earlier : time other ≤ time row) : time other ≤ time block.divider := by
  have plain := proper.rows block member row among
  obtain ⟨before, after, located⟩ := List.append_of_mem member
  have rows := proper.rows block member
  rw [Divided.newestFirst, located] at sorted held
  simp only [List.flatMap_append, List.flatMap_cons, List.append_assoc] at sorted held
  obtain newer | later := List.mem_append.mp held
  · obtain below | ⟨_, only⟩ := (List.pairwise_append.mp sorted).2.2 other newer row (by simp [among])
    · exact absurd earlier (not_le.mpr below)
    · rw [only isDivider] at plain
      cases plain
  · obtain own | rest := List.mem_append.mp later
    · rw [rows other own] at isDivider
      cases isDivider
    · obtain here | older := List.mem_append.mp rest
      · rw [List.mem_singleton.mp here]
      · have tail := (List.pairwise_append.mp (List.pairwise_append.mp sorted).2.1).2.1
        obtain below | ⟨same, _⟩ := (List.pairwise_append.mp tail).2.2 block.divider (by simp) other older
        · exact le_of_lt below
        · exact le_of_eq same

/-- Every divider is later than what stands at the bottom. -/
theorem Divided.bottom_lt (proper : divided.Proper divides) (sorted : NewestFirst divides time divided.newestFirst)
    (among : row ∈ divided.bottom) (held : other ∈ divided.newestFirst) (isDivider : divides other = true) :
    time row < time other := by
  have plain := proper.bottom row among
  obtain newer | own := List.mem_append.mp held
  · obtain below | ⟨_, only⟩ := (List.pairwise_append.mp sorted).2.2 other newer row among
    · exact below
    · rw [only isDivider] at plain
      cases plain
  · rw [proper.bottom other own] at isDivider
    cases isDivider

end Time

end IncidentPlatform.Order

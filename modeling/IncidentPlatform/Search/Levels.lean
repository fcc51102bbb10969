import Mathlib.Data.List.Basic

namespace IncidentPlatform.Search

/-! # Levels below a root

A walk that takes one level after the other meets each node at its distance from
the root, so that a bound on the levels is a bound on that distance.
-/

variable {Node : Type} {next : Node → Node → Prop} {root node child : Node} {depth length : Nat}

/-- A path of this many edges leads from the root to the node. -/
inductive Reached (next : Node → Node → Prop) (root : Node) : Nat → Node → Prop where
  | root : Reached next root 0 root
  | step {length : Nat} {parent child : Node} :
      Reached next root length parent → next parent child → Reached next root (length + 1) child

theorem Reached.mono {wider : Node → Node → Prop} (reached : Reached next root length node)
    (widens : ∀ parent child, next parent child → wider parent child) :
    Reached wider root length node := by
  induction reached with
  | root => exact .root
  | step _ edge ih => exact ih.step (widens _ _ edge)

/-- The node is at most this far from the root. -/
def Near (next : Node → Node → Prop) (root : Node) (depth : Nat) (node : Node) : Prop :=
  ∃ length ≤ depth, Reached next root length node

/-- The node is exactly this far from the root. -/
def Level (next : Node → Node → Prop) (root : Node) (depth : Nat) (node : Node) : Prop :=
  Reached next root depth node ∧ ∀ shorter < depth, ¬ Reached next root shorter node

theorem reached_zero : Reached next root 0 node ↔ node = root := by
  constructor
  · intro reached
    cases reached
    rfl
  · intro same
    rw [same]
    exact .root

theorem near_zero : Near next root 0 node ↔ node = root := by
  simp [Near, reached_zero]

theorem level_zero : Level next root 0 node ↔ node = root := by
  simp [Level, reached_zero]

theorem Near.mono {further : Nat} (near : Near next root depth node) (within : depth ≤ further) :
    Near next root further node := by
  obtain ⟨length, short, reached⟩ := near
  exact ⟨length, by omega, reached⟩

theorem level_iff : Level next root (depth + 1) node ↔
    Reached next root (depth + 1) node ∧ ¬ Near next root depth node := by
  constructor
  · intro level
    refine ⟨level.1, fun near => ?_⟩
    obtain ⟨length, short, reached⟩ := near
    exact level.2 length (by omega) reached
  · intro both
    refine ⟨both.1, fun shorter short reached => ?_⟩
    exact both.2 ⟨shorter, by omega, reached⟩

theorem near_succ : Near next root (depth + 1) node ↔
    Near next root depth node ∨ Level next root (depth + 1) node := by
  constructor
  · intro near
    by_cases nearer : Near next root depth node
    · exact .inl nearer
    · obtain ⟨length, short, reached⟩ := near
      have exactly : length = depth + 1 := by
        by_contra other
        exact nearer ⟨length, by omega, reached⟩
      exact .inr (level_iff.mpr ⟨exactly ▸ reached, nearer⟩)
  · intro either
    cases either with
    | inl near => exact near.mono (by omega)
    | inr level => exact ⟨depth + 1, by omega, level.1⟩

/-- The next level: what the last one leads to and no level has met. -/
theorem level_succ : Level next root (depth + 1) child ↔
    (∃ parent, Level next root depth parent ∧ next parent child) ∧ ¬ Near next root depth child := by
  rw [level_iff]
  constructor
  · intro both
    obtain ⟨reached, unmet⟩ := both
    cases reached with
    | @step _ parent _ reached edge =>
        refine ⟨⟨parent, ⟨reached, fun shorter short nearer => ?_⟩, edge⟩, unmet⟩
        exact unmet ⟨shorter + 1, by omega, nearer.step edge⟩
  · intro both
    obtain ⟨⟨parent, level, edge⟩, unmet⟩ := both
    exact ⟨level.1.step edge, unmet⟩

/-- A level without nodes is the end of the walk. -/
theorem near_of_exhausted (exhausted : ∀ node, ¬ Level next root (depth + 1) node)
    (reached : Reached next root length node) : Near next root depth node := by
  induction reached with
  | root => exact ⟨0, by omega, .root⟩
  | @step length parent child _ edge ih =>
      obtain ⟨distance, short, reached⟩ := ih
      have near : Near next root (depth + 1) child := ⟨distance + 1, by omega, reached.step edge⟩
      exact (near_succ.mp near).resolve_right (exhausted child)

theorem exhausted_succ (exhausted : ∀ node, ¬ Level next root depth node) (node : Node) :
    ¬ Level next root (depth + 1) node := by
  intro level
  obtain ⟨⟨parent, above, _⟩, _⟩ := level_succ.mp level
  exact exhausted parent above

end IncidentPlatform.Search

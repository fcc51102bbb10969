import Mathlib.Data.Finset.Card
import Mathlib.Data.Finset.Dedup
import Mathlib.Data.List.TakeWhile

namespace IncidentPlatform.Search

/-! # Bounded walks

A walk takes nodes off a frontier, asks for the successors of each one it has
not visited, and stops when the frontier is drained or the room is used up.  It
is described by the answers it got, oldest first, so that they may come from a
graph that changes under it.
-/

variable {Node : Type} [DecidableEq Node]

inductive Walk : Nat → List Node → List Node → List (Node × List Node) → List Node → Prop where
  | full {frontier order : List Node} : Walk 0 frontier order [] order
  | drained {room : Nat} {frontier order : List Node}
      (visited : frontier.dropWhile order.contains = []) : Walk (room + 1) frontier order [] order
  | visit {room : Nat} {frontier order rest answer nodes : List Node} {node : Node}
      {answers : List (Node × List Node)}
      (next : frontier.dropWhile order.contains = node :: rest)
      (later : Walk room (rest ++ answer) (order ++ [node]) answers nodes) :
      Walk (room + 1) frontier order ((node, answer) :: answers) nodes

variable {room : Nat} {frontier order nodes : List Node} {answers : List (Node × List Node)}

theorem Walk.order_subset (walk : Walk room frontier order answers nodes) : order ⊆ nodes := by
  induction walk with
  | full => exact List.Subset.refl _
  | drained _ => exact List.Subset.refl _
  | visit _ _ ih => exact List.Subset.trans (List.subset_append_left _ _) ih

theorem mem_frontier_cases {node found : Node} {rest : List Node}
    (next : frontier.dropWhile order.contains = node :: rest) (member : found ∈ frontier) :
    found ∈ order ∨ found = node ∨ found ∈ rest := by
  rw [← List.takeWhile_append_dropWhile (p := order.contains) (l := frontier), next] at member
  obtain taken | dropped := List.mem_append.mp member
  · exact .inl (by simpa using List.mem_takeWhile_imp taken)
  · exact .inr (List.mem_cons.mp dropped)

theorem not_visited {node : Node} {rest : List Node}
    (next : frontier.dropWhile order.contains = node :: rest) : node ∉ order := by
  have head := List.head_dropWhile_not order.contains (l := frontier) (by rw [next]; simp)
  simpa [next] using head

theorem next_subset {node : Node} {rest : List Node}
    (next : frontier.dropWhile order.contains = node :: rest) : node :: rest ⊆ frontier := by
  rw [← next]
  exact (List.dropWhile_sublist _).subset

/-- A walk with room for a closed set around its start finds everything: what it
returns is closed under the successors, and holds its frontier. -/
theorem Walk.complete {successors : Node → List Node} {closed : Finset Node}
    (walk : Walk room frontier order answers nodes)
    (inside : ∀ node ∈ closed, ∀ found ∈ successors node, found ∈ closed)
    (agrees : ∀ node answer, (node, answer) ∈ answers → node ∈ closed → answer = successors node)
    (start : ∀ node ∈ frontier, node ∈ closed) (visited : ∀ node ∈ order, node ∈ closed)
    (distinct : order.Nodup) (fits : closed.card ≤ order.length + room)
    (seen : ∀ node ∈ order, ∀ found ∈ successors node, found ∈ order ∨ found ∈ frontier) :
    (∀ node ∈ nodes, ∀ found ∈ successors node, found ∈ nodes) ∧ ∀ node ∈ frontier, node ∈ nodes := by
  induction walk with
  | @full frontier order =>
      have all : ∀ node ∈ closed, node ∈ order := by
        have subset : order.toFinset ⊆ closed := fun node member => visited node (by simpa using member)
        have same := Finset.eq_of_subset_of_card_le subset (by
          rw [List.toFinset_card_of_nodup distinct]
          exact fits)
        intro node member
        rw [← same] at member
        simpa using member
      exact ⟨fun node member found next => all found (inside node (visited node member) found next),
        fun node member => all node (start node member)⟩
  | @drained room frontier order exhausted =>
      have all : ∀ node ∈ frontier, node ∈ order := by
        intro node member
        simpa using List.dropWhile_eq_nil_iff.mp exhausted node member
      refine ⟨fun node member found next => ?_, all⟩
      obtain known | waiting := seen node member found next
      · exact known
      · exact all found waiting
  | @visit room frontier order rest answer nodes node answers next later ih =>
      have fresh := not_visited next
      have waiting := next_subset next
      have inClosed := start node (waiting List.mem_cons_self)
      have answered : answer = successors node := agrees node answer List.mem_cons_self inClosed
      have walked : (∀ node ∈ nodes, ∀ found ∈ successors node, found ∈ nodes) ∧
          ∀ node ∈ rest ++ answer, node ∈ nodes := by
        refine ih (fun other answer member => agrees other answer (List.mem_cons_of_mem _ member))
          ?_ ?_ ?_ ?_ ?_
        · intro found member
          obtain left | new := List.mem_append.mp member
          · exact start found (waiting (List.mem_cons_of_mem _ left))
          · exact inside node inClosed found (answered ▸ new)
        · intro found member
          obtain known | last := List.mem_append.mp member
          · exact visited found known
          · rw [List.mem_singleton.mp last]
            exact inClosed
        · exact distinct.append (List.nodup_singleton node) (by simpa using fresh)
        · rw [List.length_append, List.length_singleton]
          omega
        · intro found member successor reached
          obtain known | last := List.mem_append.mp member
          · obtain known | held := seen found known successor reached
            · exact .inl (List.mem_append_left _ known)
            · obtain known | rfl | left := mem_frontier_cases next held
              · exact .inl (List.mem_append_left _ known)
              · exact .inl (List.mem_append_right _ List.mem_cons_self)
              · exact .inr (List.mem_append_left _ left)
          · rw [List.mem_singleton.mp last] at reached
            exact .inr (List.mem_append_right _ (answered ▸ reached))
      refine ⟨walked.1, fun found member => ?_⟩
      obtain known | rfl | left := mem_frontier_cases next member
      · exact later.order_subset (List.mem_append_left _ known)
      · exact later.order_subset (List.mem_append_right _ List.mem_cons_self)
      · exact walked.2 found (List.mem_append_left _ left)

end IncidentPlatform.Search

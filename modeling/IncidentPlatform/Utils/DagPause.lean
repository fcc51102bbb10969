import IncidentPlatform.Platform.World
import IncidentPlatform.Search.BreadthFirst

namespace IncidentPlatform.Utils

open Concurrency Models Platform

/-! # The pause probe -/

/-- `_MAX_ANCESTOR_NODES`. -/
def maxAncestorNodes : Nat := 64

/-- The walk with room for `room` more nodes.  Popping a node that was visited
before costs nothing, so those at the head of the frontier go together. -/
def walkAncestors : Nat → List Uuid → List Uuid → Prog (List Uuid)
  | 0, _, order => pure order
  | room + 1, frontier, order =>
      match frontier.dropWhile order.contains with
      | [] => pure order
      | node :: rest => do
          let parents ← ask (.parents node)
          walkAncestors room (rest ++ parents) (order ++ [node])

def collectAncestors (id : Uuid) : Prog (List Uuid) :=
  walkAncestors maxAncestorNodes [id] []

/-- The first node whose flag is present. -/
def firstFlagged : List Uuid → List Bool → Option Uuid
  | node :: nodes, flag :: flags => if flag then some node else firstFlagged nodes flags
  | _, _ => none

theorem firstFlagged_map_eq_none {flag : Uuid → Bool} {nodes : List Uuid} :
    firstFlagged nodes (nodes.map flag) = none ↔ ∀ node ∈ nodes, flag node = false := by
  induction nodes with
  | nil => simp [firstFlagged]
  | cons node nodes ih => cases value : flag node <;> simp [firstFlagged, value, ih]

def findBlockingPause (id : Uuid) : Prog (Option Uuid) := do
  let nodes ← collectAncestors id
  if nodes.isEmpty then pure none
  else
    let flags ← redis (.pausedFlags nodes)
    pure (firstFlagged nodes flags)

/-- Where `collect_ancestors` begins. -/
def ancestorStart (parents : Uuid → List Uuid) (includeSelf : Bool) (id : Uuid) : List Uuid :=
  if includeSelf then [id] else parents id

/-- `collect_ancestors`. -/
def ancestorsOf (parents : Uuid → List Uuid) (includeSelf : Bool) (id : Uuid) : List Uuid :=
  Search.breadthFirst maxAncestorNodes parents (ancestorStart parents includeSelf id) ∅ []

/-- `find_blocking_pause`, with Redis answering. -/
def blockingPauseOf (parents : Uuid → List Uuid) (flagged : Uuid → Bool) (id : Uuid) : Option Uuid :=
  let nodes := ancestorsOf parents true id
  if nodes.isEmpty then none else firstFlagged nodes (nodes.map flagged)

theorem firstFlagged_map_eq_some {flag : Uuid → Bool} {nodes : List Uuid} {node : Uuid}
    (found : firstFlagged nodes (nodes.map flag) = some node) : node ∈ nodes ∧ flag node = true := by
  induction nodes with
  | nil => cases found
  | cons first nodes ih =>
      rw [List.map_cons, firstFlagged] at found
      split at found
      · rename_i set
        cases found
        exact ⟨List.mem_cons_self, set⟩
      · obtain ⟨later, set⟩ := ih found
        exact ⟨List.mem_cons_of_mem _ later, set⟩

variable {answer : (operation : Op) → Reply operation} {parents : Uuid → List Uuid} {flagged : Uuid → Bool}

theorem walkAncestors_skip {room : Nat} {node : Uuid} {frontier order : List Uuid} (again : node ∈ order) :
    walkAncestors room (node :: frontier) order = walkAncestors room frontier order := by
  cases room with
  | zero => rfl
  | succ room =>
      have dropped : (node :: frontier).dropWhile order.contains = frontier.dropWhile order.contains :=
        List.dropWhile_cons_of_pos (by simpa using again)
      rw [walkAncestors, dropped, walkAncestors]

theorem walkAncestors_visit {room : Nat} {node : Uuid} {frontier order : List Uuid} (new : node ∉ order) :
    walkAncestors (room + 1) (node :: frontier) order =
      .call (.query (.parents node)) fun answer =>
        walkAncestors room (frontier ++ answer) (order ++ [node]) := by
  have kept : (node :: frontier).dropWhile order.contains = node :: frontier :=
    List.dropWhile_cons_of_neg (by simpa using new)
  rw [walkAncestors, kept]
  rfl

theorem walkAncestors_answered (asked : ∀ id, answer (.query (.parents id)) = parents id)
    {frontier order : List Uuid} {seen : Finset Uuid} (known : ∀ node, node ∈ seen ↔ node ∈ order) :
    (walkAncestors (maxAncestorNodes - order.length) frontier order).answered answer =
      Search.breadthFirst maxAncestorNodes parents frontier seen order := by
  induction frontier, seen, order using Search.breadthFirst.induct maxAncestorNodes parents with
  | case1 seen order =>
      rw [Search.breadthFirst]
      cases maxAncestorNodes - order.length <;> rfl
  | case2 node frontier seen order short again ih =>
      rw [Search.breadthFirst, if_pos short, if_pos again, walkAncestors_skip ((known node).mp again)]
      exact ih known
  | case3 node frontier seen order short new ih =>
      have grown : ∀ other, other ∈ insert node seen ↔ other ∈ order ++ [node] := by
        intro other
        rw [Finset.mem_insert, known, List.mem_append, List.mem_singleton, or_comm]
      have unmet : node ∉ order := fun old => new ((known node).mpr old)
      obtain ⟨room, exactly⟩ : ∃ room, maxAncestorNodes - order.length = room + 1 :=
        ⟨maxAncestorNodes - order.length - 1, by omega⟩
      have less : maxAncestorNodes - (order ++ [node]).length = room := by
        rw [List.length_append, List.length_singleton]
        omega
      rw [Search.breadthFirst, if_pos short, if_neg new, exactly, walkAncestors_visit unmet,
        Program.answered_call, asked, ← ih grown, less]
  | case4 node frontier seen order full =>
      rw [Search.breadthFirst, if_neg full, Nat.sub_eq_zero_of_le (Nat.le_of_not_lt full)]
      rfl

theorem collectAncestors_answered (asked : ∀ id, answer (.query (.parents id)) = parents id) (id : Uuid) :
    (collectAncestors id).answered answer = ancestorsOf parents true id := by
  have unseen : ∀ node, node ∈ (∅ : Finset Uuid) ↔ node ∈ ([] : List Uuid) := by simp
  exact walkAncestors_answered asked unseen

theorem findBlockingPause_answered (asked : ∀ id, answer (.query (.parents id)) = parents id)
    (read : ∀ ids, answer (.command (.pausedFlags ids)) = ids.map flagged) (id : Uuid) :
    (findBlockingPause id).answered answer = blockingPauseOf parents flagged id := by
  rw [findBlockingPause, Program.bind_eq_bind, Program.answered_bind, collectAncestors_answered asked,
    blockingPauseOf]
  split
  · rfl
  · exact congrArg (firstFlagged _) (read _)

end IncidentPlatform.Utils

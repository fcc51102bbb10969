import IncidentPlatform.Utils.DagPause

namespace IncidentPlatform.Properties

open Models Platform Search Utils

/-! # The ancestor walk up to its cap

The walk of the pause probe accepts a job and its ancestors breadth first.  The
edges are any function to lists, so a parent may be listed twice, be reached on
several ways, or lead back.
-/

/-- The edges and the flags stand still while the walk reads them. -/
def standing (parents : Uuid → List Uuid) (flagged : Uuid → Bool) (others : (operation : Op) → Reply operation) :
    (operation : Op) → Reply operation
  | .query (.parents id) => parents id
  | .command (.pausedFlags ids) => ids.map flagged
  | operation => others operation

/-- Some number of edges leads from the job to the node. -/
def JobOrAncestor (parents : Uuid → List Uuid) : Uuid → Uuid → Prop :=
  Relation.ReflTransGen fun job parent => parent ∈ parents job

/-- At least one edge leads from the job to the node. -/
def AncestorOf (parents : Uuid → List Uuid) : Uuid → Uuid → Prop :=
  Relation.TransGen fun job parent => parent ∈ parents job

variable {parents : Uuid → List Uuid} {flagged : Uuid → Bool} {includeSelf : Bool} {id node : Uuid}

theorem jobOrAncestor_of_start (started : ∃ root ∈ ancestorStart parents includeSelf id,
    JobOrAncestor parents root node) : JobOrAncestor parents id node := by
  obtain ⟨root, among, path⟩ := started
  cases includeSelf with
  | true => exact List.mem_singleton.mp among ▸ path
  | false => exact .head among path

theorem start_of_sought (sought : if includeSelf then JobOrAncestor parents id node else AncestorOf parents id node) :
    ∃ root ∈ ancestorStart parents includeSelf id, JobOrAncestor parents root node := by
  cases includeSelf with
  | true => exact ⟨id, List.mem_singleton_self id, sought⟩
  | false =>
      obtain ⟨root, edge, path⟩ := Relation.TransGen.head'_iff.mp sought
      exact ⟨root, edge, path⟩

theorem ancestorsOf_complete {all : Finset Uuid} (fits : all.card ≤ maxAncestorNodes)
    (family : ∀ node, JobOrAncestor parents id node → node ∈ all)
    (sought : if includeSelf then JobOrAncestor parents id node else AncestorOf parents id node) :
    node ∈ ancestorsOf parents includeSelf id := by
  obtain ⟨root, among, path⟩ := start_of_sought sought
  refine breadthFirst_complete fits (fun root among node path => ?_) among path
  exact family node (jobOrAncestor_of_start ⟨root, among, path⟩)

theorem blockingPauseOf_eq_some (found : blockingPauseOf parents flagged id = some node) :
    node ∈ ancestorsOf parents true id ∧ flagged node = true := by
  rw [blockingPauseOf] at found
  split at found
  · cases found
  · exact firstFlagged_map_eq_some found

theorem blockingPauseOf_eq_none :
    blockingPauseOf parents flagged id = none ↔ ∀ node ∈ ancestorsOf parents true id, flagged node = false := by
  rw [blockingPauseOf]
  split
  · rename_i empty
    rw [List.isEmpty_iff.mp empty]
    simp
  · exact firstFlagged_map_eq_none

theorem blockingPauseOf_iff :
    (∃ node, blockingPauseOf parents flagged id = some node ∧ flagged node = true) ↔
      ∃ node ∈ ancestorsOf parents true id, flagged node = true := by
  constructor
  · rintro ⟨node, found, _⟩
    exact ⟨node, blockingPauseOf_eq_some found⟩
  · rintro ⟨node, among, set⟩
    cases found : blockingPauseOf parents flagged id with
    | none => exact absurd (blockingPauseOf_eq_none.mp found node among) (by simp [set])
    | some holder => exact ⟨holder, rfl, (blockingPauseOf_eq_some found).2⟩

/-- `collect_ancestors` returns distinct nodes, at most as many as its cap allows,
each the job or one of its ancestors, nearer ones before farther ones; it returns
all of them when there is room, and `find_blocking_pause` returns a flagged one
exactly when it returned one.  The programs do what the loops do. -/
theorem ancestor_walk_exact (parents : Uuid → List Uuid) (flagged : Uuid → Bool)
    (others : (operation : Op) → Reply operation) (includeSelf : Bool) (id : Uuid) :
    ((ancestorsOf parents includeSelf id).Nodup ∧
      (ancestorsOf parents includeSelf id).length ≤ maxAncestorNodes ∧
      ∀ node ∈ ancestorsOf parents includeSelf id, JobOrAncestor parents id node) ∧
    (ancestorsOf parents includeSelf id =
        (layers parents (ancestorStart parents includeSelf id) maxAncestorNodes).take maxAncestorNodes ∧
      ((ancestorsOf parents includeSelf id).Pairwise fun earlier later => ∀ distance,
        WithinDepth parents (ancestorStart parents includeSelf id) distance later →
        WithinDepth parents (ancestorStart parents includeSelf id) distance earlier) ∧
      ∀ node ∈ ancestorsOf parents includeSelf id, ∀ omitted ∉ ancestorsOf parents includeSelf id,
        ∀ distance, WithinDepth parents (ancestorStart parents includeSelf id) distance omitted →
          WithinDepth parents (ancestorStart parents includeSelf id) distance node) ∧
    (∀ all : Finset Uuid, all.card ≤ maxAncestorNodes →
      (∀ node, JobOrAncestor parents id node → node ∈ all) →
      ∀ node, (if includeSelf then JobOrAncestor parents id node else AncestorOf parents id node) →
        node ∈ ancestorsOf parents includeSelf id) ∧
    ((∀ node, blockingPauseOf parents flagged id = some node →
        node ∈ ancestorsOf parents true id ∧ flagged node = true) ∧
      ((∃ node, blockingPauseOf parents flagged id = some node ∧ flagged node = true) ↔
        ∃ node ∈ ancestorsOf parents true id, flagged node = true)) ∧
    (collectAncestors id).answered (standing parents flagged others) = ancestorsOf parents true id ∧
    (findBlockingPause id).answered (standing parents flagged others) =
      blockingPauseOf parents flagged id := by
  refine ⟨⟨breadthFirst_nodup, breadthFirst_length, fun node member => ?_⟩,
    ⟨breadthFirst_eq_take, breadthFirst_pairwise, ?_⟩, ?_, ⟨?_, blockingPauseOf_iff⟩, ?_, ?_⟩
  · exact jobOrAncestor_of_start (reached_of_mem_breadthFirst member)
  · exact fun node member omitted out distance => within_of_omitted member out
  · exact fun all fits family node => ancestorsOf_complete fits family
  · exact fun node => blockingPauseOf_eq_some
  · exact collectAncestors_answered (fun id => rfl) id
  · exact findBlockingPause_answered (fun id => rfl) (fun ids => rfl) id

end IncidentPlatform.Properties

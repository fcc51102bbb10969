import IncidentPlatform.Search.Levels
import Mathlib.Data.Finset.Card
import Mathlib.Data.Finset.Dedup
import Mathlib.Data.List.Nodup
import Mathlib.Logic.Relation

namespace IncidentPlatform.Search

/-! # Breadth-first walks

A worklist that pops a node, skips it when it was seen, and otherwise accepts it
and appends its successors.  The frontier may hold a node many times, also after
it was accepted, and the walk stops at a cap on the accepted ones.  It accepts
the layers of the graph one after the other, as far as the cap allows.
-/

variable {Node : Type} [DecidableEq Node]

def breadthFirst (cap : Nat) (next : Node → List Node) :
    List Node → Finset Node → List Node → List Node
  | [], _, order => order
  | node :: frontier, seen, order =>
      if order.length < cap then
        if node ∈ seen then breadthFirst cap next frontier seen order
        else breadthFirst cap next (frontier ++ next node) (insert node seen) (order ++ [node])
      else order
termination_by frontier _ order => (cap - order.length, frontier.length)
decreasing_by
  · exact .right _ (Nat.lt_succ_self _)
  · refine .left _ _ ?_
    rw [List.length_append, List.length_singleton]
    omega

/-- The first occurrences of what is not among `met`, in the order of the list. -/
def fresh (met : List Node) : List Node → List Node
  | [] => []
  | node :: nodes => if node ∈ met then fresh met nodes else node :: fresh (met ++ [node]) nodes

/-- What the walk has accepted, and what the last layer leads to. -/
structure Front (Node : Type) where
  met : List Node
  frontier : List Node

def Front.round (next : Node → List Node) (front : Front Node) : Front Node where
  met := front.met ++ fresh front.met front.frontier
  frontier := (fresh front.met front.frontier).flatMap next

/-- The fronts after this many layers. -/
def fronts (next : Node → List Node) (start : List Node) : Nat → Front Node
  | 0 => ⟨[], start⟩
  | depth + 1 => (fronts next start depth).round next

/-- This many layers below the start, one after the other. -/
def layers (next : Node → List Node) (start : List Node) (depth : Nat) : List Node :=
  (fronts next start depth).met

variable {cap depth : Nat} {next : Node → List Node} {start met nodes frontier order : List Node}
  {seen : Finset Node} {node : Node}

theorem mem_fresh : node ∈ fresh met nodes ↔ node ∈ nodes ∧ node ∉ met := by
  induction nodes generalizing met with
  | nil => simp [fresh]
  | cons first nodes ih =>
      by_cases known : first ∈ met
      · rw [fresh, if_pos known, ih, List.mem_cons]
        constructor
        · exact fun both => ⟨.inr both.1, both.2⟩
        · rintro ⟨rfl | later, unmet⟩
          · exact absurd known unmet
          · exact ⟨later, unmet⟩
      · rw [fresh, if_neg known, List.mem_cons, List.mem_cons, ih, List.mem_append, List.mem_singleton]
        constructor
        · rintro (rfl | ⟨later, unmet⟩)
          · exact ⟨.inl rfl, known⟩
          · exact ⟨.inr later, fun met => unmet (.inl met)⟩
        · rintro ⟨rfl | later, unmet⟩
          · exact .inl rfl
          · by_cases same : node = first
            · exact .inl same
            · exact .inr ⟨later, fun either => either.elim unmet same⟩

theorem fresh_nodup : (fresh met nodes).Nodup := by
  induction nodes generalizing met with
  | nil => exact .nil
  | cons first nodes ih =>
      rw [fresh]
      split
      · exact ih
      · refine List.nodup_cons.mpr ⟨fun again => ?_, ih⟩
        exact (mem_fresh.mp again).2 (by simp)

theorem layers_succ : layers next start (depth + 1) =
    layers next start depth ++ fresh (layers next start depth) (fronts next start depth).frontier := rfl

theorem layers_grow : layers next start depth <+: layers next start (depth + 1) :=
  ⟨_, layers_succ.symm⟩

theorem layers_mono {further : Nat} (within : depth ≤ further) :
    layers next start depth <+: layers next start further := by
  induction within with
  | refl => exact List.prefix_refl _
  | step _ ih => exact ih.trans layers_grow

theorem mem_layers_succ : node ∈ layers next start (depth + 1) ↔
    node ∈ layers next start depth ∨ node ∈ (fronts next start depth).frontier := by
  rw [layers_succ, List.mem_append, mem_fresh]
  constructor
  · exact Or.imp_right And.left
  · rintro (known | waiting)
    · exact .inl known
    · by_cases known : node ∈ layers next start depth
      · exact .inl known
      · exact .inr ⟨waiting, known⟩

theorem layers_nodup : (layers next start depth).Nodup := by
  induction depth with
  | zero => exact .nil
  | succ depth ih =>
      rw [layers_succ]
      exact ih.append fresh_nodup fun node known new => (mem_fresh.mp new).2 known

theorem layers_closed (member : node ∈ layers next start depth) {child : Node}
    (edge : child ∈ next node) :
    child ∈ layers next start depth ∨ child ∈ (fronts next start depth).frontier := by
  induction depth with
  | zero => exact absurd member List.not_mem_nil
  | succ depth ih =>
      rw [layers_succ, List.mem_append] at member
      obtain known | new := member
      · exact .inl (mem_layers_succ.mpr (ih known))
      · exact .inr (List.mem_flatMap.mpr ⟨node, new, edge⟩)

/-- A path of at most this many edges leads from the start to the node. -/
def WithinDepth (next : Node → List Node) (start : List Node) (depth : Nat) (node : Node) : Prop :=
  ∃ root ∈ start, Near (fun parent child => child ∈ next parent) root depth node

theorem reached_of_frontier (waiting : node ∈ (fronts next start depth).frontier) :
    ∃ root ∈ start, Reached (fun parent child => child ∈ next parent) root depth node := by
  induction depth generalizing node with
  | zero => exact ⟨node, waiting, .root⟩
  | succ depth ih =>
      obtain ⟨parent, new, edge⟩ := List.mem_flatMap.mp waiting
      obtain ⟨root, among, reached⟩ := ih (mem_fresh.mp new).1
      exact ⟨root, among, reached.step edge⟩

theorem met_or_waiting {root : Node} (among : root ∈ start)
    (reached : Reached (fun parent child => child ∈ next parent) root depth node) :
    node ∈ layers next start depth ∨ node ∈ (fronts next start depth).frontier := by
  induction reached with
  | root => exact .inr among
  | @step depth parent child _ edge ih =>
      have met : parent ∈ layers next start (depth + 1) := mem_layers_succ.mpr ih
      exact layers_closed met edge

theorem mem_layers : node ∈ layers next start (depth + 1) ↔ WithinDepth next start depth node := by
  induction depth with
  | zero =>
      rw [mem_layers_succ]
      constructor
      · rintro (known | waiting)
        · exact absurd known List.not_mem_nil
        · exact ⟨node, waiting, near_zero.mpr rfl⟩
      · rintro ⟨root, among, near⟩
        exact met_or_waiting among (near_zero.mp near ▸ .root)
  | succ depth ih =>
      rw [mem_layers_succ, ih]
      constructor
      · rintro (⟨root, among, near⟩ | waiting)
        · exact ⟨root, among, near.mono (by omega)⟩
        · obtain ⟨root, among, reached⟩ := reached_of_frontier waiting
          exact ⟨root, among, depth + 1, le_refl _, reached⟩
      · rintro ⟨root, among, length, short, reached⟩
        by_cases near : length ≤ depth
        · exact .inl ⟨root, among, length, near, reached⟩
        · obtain rfl : length = depth + 1 := by omega
          exact (met_or_waiting among reached).imp_left ih.mp

omit [DecidableEq Node] in
theorem within_iff_reflTransGen : (∃ depth, WithinDepth next start depth node) ↔
    ∃ root ∈ start, Relation.ReflTransGen (fun parent child => child ∈ next parent) root node := by
  constructor
  · rintro ⟨_, root, among, length, _, reached⟩
    refine ⟨root, among, ?_⟩
    clear * - reached
    induction reached with
    | root => exact .refl
    | step _ edge ih => exact ih.tail edge
  · rintro ⟨root, among, path⟩
    induction path with
    | refl => exact ⟨0, root, among, 0, le_refl _, .root⟩
    | tail _ edge ih =>
        obtain ⟨depth, root, among, length, _, reached⟩ := ih
        exact ⟨length + 1, root, among, length + 1, le_refl _, reached.step edge⟩

/-- The nodes at the head of the frontier are accepted at their first occurrence,
and what they lead to waits behind the rest. -/
theorem breadthFirst_append (later : List Node) (known : ∀ node, node ∈ seen ↔ node ∈ order)
    (room : order.length ≤ cap) :
    ∃ both : Finset Node, (∀ node, node ∈ both ↔ node ∈ order ++ fresh order frontier) ∧
      breadthFirst cap next (frontier ++ later) seen order =
        if (order ++ fresh order frontier).length < cap then
          breadthFirst cap next (later ++ (fresh order frontier).flatMap next) both
            (order ++ fresh order frontier)
        else (order ++ fresh order frontier).take cap := by
  induction frontier generalizing later seen order with
  | nil =>
      refine ⟨seen, by simpa [fresh] using known, ?_⟩
      simp only [List.nil_append, fresh, List.append_nil, List.flatMap_nil]
      split
      · rfl
      · rename_i full
        rw [List.take_of_length_le (by omega)]
        cases later with
        | nil => rw [breadthFirst]
        | cons first later => rw [breadthFirst, if_neg full]
  | cons first frontier ih =>
      by_cases short : order.length < cap
      · by_cases again : first ∈ order
        · rw [List.cons_append, breadthFirst, if_pos short, if_pos ((known first).mpr again), fresh,
            if_pos again]
          exact ih later known room
        · rw [List.cons_append, breadthFirst, if_pos short, if_neg (fun old => again ((known first).mp old)),
            fresh, if_neg again]
          have grown : ∀ node, node ∈ insert first seen ↔ node ∈ order ++ [first] := by
            intro node
            rw [Finset.mem_insert, known, List.mem_append, List.mem_singleton, or_comm]
          obtain ⟨both, exactly, walked⟩ := ih (later ++ next first) grown (by
            rw [List.length_append, List.length_singleton]
            omega)
          refine ⟨both, ?_, ?_⟩
          · simpa using exactly
          · simpa using walked
      · have full : cap ≤ order.length := by omega
        obtain ⟨both, exactly⟩ : ∃ both : Finset Node,
            ∀ node, node ∈ both ↔ node ∈ order ++ fresh order (first :: frontier) :=
          ⟨(order ++ fresh order (first :: frontier)).toFinset, fun node => List.mem_toFinset⟩
        refine ⟨both, exactly, ?_⟩
        rw [List.cons_append, breadthFirst, if_neg short, if_neg (by rw [List.length_append]; omega),
          List.take_append_of_le_length full, List.take_of_length_le (by omega)]

theorem length_layers (waits : (fronts next start depth).frontier ≠ []) :
    depth ≤ (layers next start depth).length := by
  induction depth with
  | zero => exact Nat.zero_le _
  | succ depth ih =>
      have new : fresh (layers next start depth) (fronts next start depth).frontier ≠ [] := by
        intro none
        refine waits ?_
        change (fresh (layers next start depth) (fronts next start depth).frontier).flatMap next = []
        rw [none, List.flatMap_nil]
      have waited : (fronts next start depth).frontier ≠ [] := by
        intro none
        rw [none] at new
        exact new rfl
      have longer := List.length_pos_iff.mpr new
      rw [layers_succ, List.length_append]
      have before := ih waited
      omega

theorem breadthFirst_through (depth : Nat) :
    (∃ seen : Finset Node, (∀ node, node ∈ seen ↔ node ∈ layers next start depth) ∧
      (layers next start depth).length < cap ∧
      breadthFirst cap next start ∅ [] =
        breadthFirst cap next (fronts next start depth).frontier seen (layers next start depth)) ∨
    cap ≤ (layers next start depth).length ∧
      breadthFirst cap next start ∅ [] = (layers next start depth).take cap := by
  induction depth with
  | zero =>
      obtain none | some := Nat.eq_zero_or_pos cap
      · refine .inr ⟨by omega, ?_⟩
        rw [none, List.take_zero]
        cases start with
        | nil => rw [breadthFirst]
        | cons first start => rw [breadthFirst, if_neg (by simp)]
      · exact .inl ⟨∅, by simp [layers, fronts], some, rfl⟩
  | succ depth ih =>
      obtain ⟨seen, known, short, walked⟩ | ⟨full, walked⟩ := ih
      · obtain ⟨both, exactly, further⟩ :=
          @breadthFirst_append _ _ cap next (fronts next start depth).frontier _ seen [] known (le_of_lt short)
        rw [List.append_nil, ← walked] at further
        rw [← layers_succ] at exactly further
        by_cases room : (layers next start (depth + 1)).length < cap
        · rw [if_pos room] at further
          exact .inl ⟨both, exactly, room, further⟩
        · rw [if_neg room] at further
          exact .inr ⟨by omega, further⟩
      · refine .inr ⟨?_, ?_⟩
        · rw [layers_succ, List.length_append]
          omega
        · rw [layers_succ, List.take_append_of_le_length full, walked]

/-- The walk returns the layers, cut to the cap. -/
theorem breadthFirst_eq_take :
    breadthFirst cap next start ∅ [] = (layers next start cap).take cap := by
  obtain ⟨seen, _, short, walked⟩ | ⟨_, walked⟩ := @breadthFirst_through _ _ cap next start cap
  · have drained : (fronts next start cap).frontier = [] := by
      by_contra waits
      have long := length_layers waits
      omega
    rw [walked, drained, breadthFirst, List.take_of_length_le (le_of_lt short)]
  · exact walked

theorem far_of_not_mem {distance : Nat} (unmet : node ∉ layers next start depth)
    (within : WithinDepth next start distance node) : depth ≤ distance := by
  by_contra near
  refine unmet ((layers_mono ?_).subset (mem_layers.mpr within))
  omega

theorem within_of_mem {distance : Nat} (member : node ∈ layers next start depth)
    (far : depth ≤ distance + 1) : WithinDepth next start distance node :=
  mem_layers.mp ((layers_mono far).subset member)

theorem layers_pairwise : (layers next start depth).Pairwise fun earlier later =>
    ∀ distance, WithinDepth next start distance later → WithinDepth next start distance earlier := by
  induction depth with
  | zero => exact .nil
  | succ depth ih =>
      have behind : ∀ earlier ∈ layers next start (depth + 1),
          ∀ later ∈ fresh (layers next start depth) (fronts next start depth).frontier,
          ∀ distance, WithinDepth next start distance later → WithinDepth next start distance earlier := by
        intro earlier member later new distance within
        have far := far_of_not_mem (mem_fresh.mp new).2 within
        exact within_of_mem member (by omega)
      rw [layers_succ]
      refine List.pairwise_append.mpr ⟨ih, ?_, ?_⟩
      · refine List.pairwise_of_forall_mem_list fun earlier new later last => ?_
        have member : earlier ∈ layers next start (depth + 1) := by
          rw [layers_succ]
          exact List.mem_append_right _ new
        exact behind earlier member later last
      · exact fun earlier known => behind earlier (layers_grow.subset known)

theorem breadthFirst_nodup : (breadthFirst cap next start ∅ []).Nodup := by
  rw [breadthFirst_eq_take]
  exact layers_nodup.sublist (List.take_sublist _ _)

theorem breadthFirst_length : (breadthFirst cap next start ∅ []).length ≤ cap := by
  rw [breadthFirst_eq_take]
  exact List.length_take_le _ _

theorem reached_of_mem_layers (member : node ∈ layers next start depth) :
    ∃ root ∈ start, Relation.ReflTransGen (fun parent child => child ∈ next parent) root node :=
  within_iff_reflTransGen.mp ⟨depth, within_of_mem member (by omega)⟩

theorem reached_of_mem_breadthFirst (member : node ∈ breadthFirst cap next start ∅ []) :
    ∃ root ∈ start, Relation.ReflTransGen (fun parent child => child ∈ next parent) root node := by
  rw [breadthFirst_eq_take] at member
  exact reached_of_mem_layers (List.mem_of_mem_take member)

theorem breadthFirst_pairwise : (breadthFirst cap next start ∅ []).Pairwise fun earlier later =>
    ∀ distance, WithinDepth next start distance later → WithinDepth next start distance earlier := by
  rw [breadthFirst_eq_take]
  exact layers_pairwise.sublist (List.take_sublist _ _)

/-- What the cap leaves out is not nearer than what was accepted. -/
theorem within_of_omitted {omitted : Node} {distance : Nat}
    (member : node ∈ breadthFirst cap next start ∅ [])
    (out : omitted ∉ breadthFirst cap next start ∅ [])
    (within : WithinDepth next start distance omitted) : WithinDepth next start distance node := by
  rw [breadthFirst_eq_take] at member out
  by_cases met : omitted ∈ layers next start cap
  · have sorted := @layers_pairwise Node _ cap next start
    rw [← List.take_append_drop cap (layers next start cap)] at sorted met
    have cut := (List.mem_append.mp met).resolve_left out
    exact (List.pairwise_append.mp sorted).2.2 node member omitted cut distance within
  · exact within_of_mem (List.mem_of_mem_take member) (Nat.le_succ_of_le (far_of_not_mem met within))

/-- With room for everything that the start leads to, the walk accepts it all. -/
theorem breadthFirst_complete {all : Finset Node} (fits : all.card ≤ cap)
    (inside : ∀ root ∈ start, ∀ node,
      Relation.ReflTransGen (fun parent child => child ∈ next parent) root node → node ∈ all)
    {root : Node} (among : root ∈ start)
    (path : Relation.ReflTransGen (fun parent child => child ∈ next parent) root node) :
    node ∈ breadthFirst cap next start ∅ [] := by
  have subset : (layers next start cap).toFinset ⊆ all := by
    intro node member
    obtain ⟨root, among, path⟩ := reached_of_mem_layers (List.mem_toFinset.mp member)
    exact inside root among node path
  have distinct := List.toFinset_card_of_nodup (@layers_nodup _ _ cap next start)
  have short := Finset.card_le_card subset
  rw [breadthFirst_eq_take, List.take_of_length_le (by omega)]
  by_cases drained : (fronts next start cap).frontier = []
  · have closed : ∀ parent ∈ layers next start cap, ∀ child ∈ next parent,
        child ∈ layers next start cap := by
      intro parent member child edge
      simpa [drained] using layers_closed member edge
    have start_met : ∀ root ∈ start, root ∈ layers next start cap := by
      intro root among
      have here : root ∈ layers next start (cap + 1) :=
        (layers_mono (Nat.succ_le_succ (Nat.zero_le cap))).subset
          (mem_layers.mpr ⟨root, among, near_zero.mpr rfl⟩)
      simpa [drained] using mem_layers_succ.mp here
    induction path with
    | refl => exact start_met root among
    | tail _ edge ih => exact closed _ ih _ edge
  · have long := length_layers drained
    have full := Finset.eq_of_subset_of_card_le subset (by omega)
    have member := inside root among node path
    rw [← full] at member
    exact List.mem_toFinset.mp member

end IncidentPlatform.Search

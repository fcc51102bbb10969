import Mathlib.Data.List.Perm.Basic
import Mathlib.Order.Lattice

namespace IncidentPlatform.Search

/-! # Pages of a table

A page is what a limited SELECT answers.  Without an ORDER BY it may be any rows
of that number.  With one, and a cursor that remembers the last row, the pages
are consecutive chunks of the sorted rows.
-/

section Unordered

variable {Row : Type} {wanted : Row → Bool} {rows : List Row} {limit : Nat}

theorem length_filter_take (scanned : List Row) :
    (scanned.take limit).length ≤
      ((scanned.take limit).filter wanted).length + (scanned.filter fun row => !wanted row).length := by
  have split : ((scanned.take limit).filter wanted).length +
      ((scanned.take limit).filter fun row => !wanted row).length = (scanned.take limit).length :=
    (List.filter_append_perm wanted (scanned.take limit)).length_eq ▸ (List.length_append).symm
  have fewer : ((scanned.take limit).filter fun row => !wanted row).length ≤
      (scanned.filter fun row => !wanted row).length :=
    ((List.take_sublist limit scanned).filter _).length_le
  omega

/-- Whatever rows the page holds, the wanted ones fill it, exactly if no other
row can take a place from them. -/
theorem page_filled_iff (positive : 0 < limit) :
    (∀ scanned : List Row, scanned.Perm rows →
      min (rows.filter wanted).length limit ≤ ((scanned.take limit).filter wanted).length) ↔
    rows.filter (fun row => !wanted row) = [] ∨ rows.filter wanted = [] ∨ rows.length ≤ limit := by
  have total : (rows.filter wanted).length + (rows.filter fun row => !wanted row).length = rows.length :=
    (List.filter_append_perm wanted rows).length_eq ▸ (List.length_append).symm
  constructor
  · intro filled
    -- The worst page: every row that is not wanted comes first.
    have worst := filled (rows.filter (fun row => !wanted row) ++ rows.filter wanted)
      (List.perm_append_comm.trans (List.filter_append_perm wanted rows))
    have unwanted : ((rows.filter fun row => !wanted row).take limit).filter wanted = [] := by
      rw [List.filter_eq_nil_iff]
      intro row member
      have other := (List.mem_filter.mp (List.mem_of_mem_take member)).2
      simpa using other
    have left : ((rows.filter wanted).take (limit - (rows.filter fun row => !wanted row).length)).filter
        wanted = (rows.filter wanted).take (limit - (rows.filter fun row => !wanted row).length) := by
      rw [List.filter_eq_self]
      intro row member
      exact (List.mem_filter.mp (List.mem_of_mem_take member)).2
    rw [List.take_append, List.filter_append, unwanted, left, List.nil_append, List.length_take] at worst
    simp only [← List.length_eq_zero_iff]
    omega
  · intro room scanned same
    have wantedLength : (scanned.filter wanted).length = (rows.filter wanted).length :=
      (same.filter wanted).length_eq
    have otherLength : (scanned.filter fun row => !wanted row).length =
        (rows.filter fun row => !wanted row).length := (same.filter _).length_eq
    have sameLength := same.length_eq
    have places : (scanned.take limit).length ≤ ((scanned.take limit).filter wanted).length +
        (scanned.filter fun row => !wanted row).length := length_filter_take scanned
    rw [List.length_take, otherLength, sameLength] at places
    simp only [← List.length_eq_zero_iff] at room
    by_cases whole : rows.length ≤ limit
    · rw [List.take_of_length_le (by omega), wantedLength]
      omega
    · omega

end Unordered

section Keyset

variable {Row Key : Type} [LinearOrder Key] (key : Row → Key) (limit : Nat)

/-- The rows behind the cursor. -/
def after (cursor : Option Key) (rows : List Row) : List Row :=
  rows.filter fun row => cursor.all fun last => last < key row

def pageAfter (cursor : Option Key) (rows : List Row) : List Row := (after key cursor rows).take limit

/-- A short page ends the rotation; a full one hands over its last row. -/
def nextCursor (page : List Row) : Option Key :=
  if page.length < limit then none else page.getLast?.map key

/-- The pages of consecutive passes over sorted rows.  Between two passes, rows
may leave the page that was examined, and no other. -/
inductive Passes : Option Key → List Row → List (List Row) → Prop where
  | start {cursor : Option Key} {rows : List Row} : Passes cursor rows []
  | pass {cursor : Option Key} {rows left : List Row} {pages : List (List Row)}
      (sorted : left.Pairwise fun first second => key first < key second)
      (stayed : ∀ row ∈ left, row ∈ rows)
      (untouched : ∀ row ∈ rows, row ∉ pageAfter key limit cursor rows → row ∈ left)
      (later : Passes (nextCursor key limit (pageAfter key limit cursor rows)) left pages) :
      Passes cursor rows (pageAfter key limit cursor rows :: pages)

variable {key limit} {cursor : Option Key} {rows left : List Row} {pages : List (List Row)}

/-- Sorted rows are determined by which rows they are. -/
theorem eq_of_sorted {first second : List Row}
    (sorted : first.Pairwise fun left right => key left < key right)
    (ordered : second.Pairwise fun left right => key left < key right)
    (same : ∀ row, row ∈ first ↔ row ∈ second) : first = second := by
  have distinct : ∀ {list : List Row}, (list.Pairwise fun left right => key left < key right) → list.Nodup :=
    fun sorted => sorted.imp fun {left right} below (equal : left = right) => by
      rw [equal] at below
      exact lt_irrefl _ below
  have perm := (List.perm_ext_iff_of_nodup (distinct sorted) (distinct ordered)).mpr same
  exact perm.eq_of_pairwise (fun _ _ _ _ below above => absurd below (lt_asymm above)) sorted ordered

theorem after_full (sorted : rows.Pairwise fun first second => key first < key second)
    (ordered : left.Pairwise fun first second => key first < key second)
    (stayed : ∀ row ∈ left, row ∈ rows)
    (untouched : ∀ row ∈ rows, row ∉ pageAfter key limit cursor rows → row ∈ left)
    (positive : 0 < limit) (full : limit ≤ (pageAfter key limit cursor rows).length) :
    after key (nextCursor key limit (pageAfter key limit cursor rows)) left =
      (after key cursor rows).drop limit := by
  have behind : (after key cursor rows).Pairwise fun first second => key first < key second :=
    sorted.filter _
  have split : pageAfter key limit cursor rows ++ (after key cursor rows).drop limit =
      after key cursor rows := List.take_append_drop limit _
  have nonempty : pageAfter key limit cursor rows ≠ [] := by
    intro empty
    rw [empty] at full
    exact absurd full (Nat.not_le.mpr positive)
  obtain ⟨init, last, page⟩ := List.eq_nil_or_concat'
    (pageAfter key limit cursor rows) |>.resolve_left nonempty
  have next : nextCursor key limit (pageAfter key limit cursor rows) = some (key last) := by
    rw [nextCursor, if_neg (Nat.not_lt.mpr full), page, List.getLast?_concat]
    rfl
  rw [← split] at behind
  obtain ⟨within, beyond, across⟩ := List.pairwise_append.mp behind
  have atMost : ∀ row ∈ pageAfter key limit cursor rows, ¬ key last < key row := by
    intro row member
    rw [page] at member within
    rcases List.mem_append.mp member with earlier | same
    · exact lt_asymm ((List.pairwise_append.mp within).2.2 row earlier last List.mem_cons_self)
    · rw [List.mem_singleton.mp same]
      exact lt_irrefl _
  have lastMember : last ∈ pageAfter key limit cursor rows := by simp [page]
  have lastBehind : last ∈ after key cursor rows := List.mem_of_mem_take lastMember
  refine eq_of_sorted (ordered.filter _) beyond fun row => ?_
  rw [next]
  simp only [after, List.mem_filter, Option.all_some, decide_eq_true_eq]
  constructor
  · intro found
    obtain ⟨member, past⟩ := found
    have passed : row ∈ after key cursor rows := by
      refine List.mem_filter.mpr ⟨stayed row member, ?_⟩
      cases cursor with
      | none => rfl
      | some start =>
          have below := (List.mem_filter.mp lastBehind).2
          simp only [Option.all_some, decide_eq_true_eq] at below ⊢
          exact lt_trans below past
    rw [← split] at passed
    exact (List.mem_append.mp passed).resolve_left fun inside => atMost row inside past
  · intro dropped
    have past := across last lastMember row dropped
    have present : row ∈ after key cursor rows := List.mem_of_mem_drop dropped
    exact ⟨untouched row (List.mem_filter.mp present).1 fun inside => atMost row inside past, past⟩

theorem length_pageAfter : (pageAfter key limit cursor rows).length =
    min limit (after key cursor rows).length := List.length_take

theorem length_drop_div (positive : 0 < limit) {count : Nat} (full : limit ≤ count) :
    (count - limit) / limit + 1 = count / limit := by
  rw [Nat.sub_eq_of_eq_add' (Nat.add_sub_of_le full).symm, ← Nat.add_div_right _ positive,
    Nat.sub_add_cancel full]

section Passes

variable (passes : Passes key limit cursor rows pages)
  (sorted : rows.Pairwise fun first second => key first < key second) (positive : 0 < limit)

include passes sorted positive

/-- A short page comes within as many passes as the rows behind the cursor fill
pages, and one more. -/
theorem Passes.resets (enough : (after key cursor rows).length / limit < pages.length) :
    ∃ index ≤ (after key cursor rows).length / limit, ∃ page, pages[index]? = some page ∧
      page.length < limit := by
  induction passes with
  | start => simp at enough
  | @pass cursor rows left pages ordered stayed untouched later ih =>
      by_cases full : limit ≤ (pageAfter key limit cursor rows).length
      · have rest := after_full sorted ordered stayed untouched positive full
        rw [length_pageAfter] at full
        have fewer := length_drop_div positive (Nat.le_trans full (Nat.min_le_right _ _))
        rw [rest, List.length_drop] at ih
        rw [← fewer, List.length_cons] at enough
        obtain ⟨index, within, page, found, short⟩ := ih ordered (by omega)
        exact ⟨index + 1, by omega, page, by simpa using found, short⟩
      · exact ⟨0, Nat.zero_le _, _, rfl, by omega⟩

/-- The same passes examine every row behind the cursor. -/
theorem Passes.covers (enough : (after key cursor rows).length / limit < pages.length) :
    ∀ row ∈ after key cursor rows,
      ∃ page ∈ pages.take ((after key cursor rows).length / limit + 1), row ∈ page := by
  induction passes with
  | start => simp at enough
  | @pass cursor rows left pages ordered stayed untouched later ih =>
      intro row member
      have split : pageAfter key limit cursor rows ++ (after key cursor rows).drop limit =
          after key cursor rows := List.take_append_drop limit _
      rw [← split] at member
      rcases List.mem_append.mp member with inside | beyond
      · exact ⟨_, by simp, inside⟩
      · have full : limit ≤ (after key cursor rows).length := by
          have positiveDrop := List.length_pos_of_mem beyond
          rw [List.length_drop] at positiveDrop
          omega
        have rest := after_full sorted ordered stayed untouched positive
          (by rw [length_pageAfter]; omega)
        have fewer := length_drop_div positive full
        rw [rest, List.length_drop] at ih
        rw [← fewer, List.length_cons] at enough
        obtain ⟨page, among, found⟩ := ih ordered (by omega) row beyond
        refine ⟨page, ?_, found⟩
        rw [← fewer, List.take_succ_cons]
        exact List.mem_cons_of_mem _ among

/-- Up to the end of the rotation the pages hold the rows in order, each once. -/
theorem Passes.consecutive (rotation : ∀ page ∈ pages.dropLast, limit ≤ page.length) :
    pages.flatten.Sublist (after key cursor rows) := by
  induction passes with
  | start => exact List.nil_sublist _
  | @pass cursor rows left pages ordered stayed untouched later ih =>
      have split : pageAfter key limit cursor rows ++ (after key cursor rows).drop limit =
          after key cursor rows := List.take_append_drop limit _
      rw [List.flatten_cons, ← split]
      refine List.Sublist.append (List.Sublist.refl _) ?_
      cases pages with
      | nil => exact List.nil_sublist _
      | cons second others =>
          have full := rotation _ (by rw [List.dropLast_cons_cons]; exact List.mem_cons_self)
          rw [← after_full sorted ordered stayed untouched positive full]
          refine ih ordered fun page member => rotation page ?_
          rw [List.dropLast_cons_cons]
          exact List.mem_cons_of_mem _ member

end Passes

end Keyset

end IncidentPlatform.Search

import IncidentPlatform.Python.JsonText

namespace IncidentPlatform.Python

/-! # Reading what was written

Integers, texts without escapes, and the lists and dictionaries of what reads back.
-/

/-- What stands behind a value in a container. -/
def Stops (rest : PyString) : Prop := rest = [] ∨ ∃ code tail, rest = code :: tail ∧ (code = 44 ∨ code = 93 ∨ code = 125)

/-- A text that a scanner reads as a value, whatever it stops at. -/
structure Reads {α : Type} (scan : PyString → Scanned α) (text : PyString) (value : α) : Prop where
  starts : ∃ head tail, text = head :: tail ∧ isJsonSpace head = false ∧ head ≠ 93 ∧ head ≠ 125
  scans : ∀ rest, Stops rest → scan (text ++ rest) = .ok (value, rest)

section Containers

variable {α : Type} {scan : PyString → Scanned α}

theorem skipSpace_cons {code : Nat} {rest : PyString} (nonspace : isJsonSpace code = false) :
    skipSpace (code :: rest) = code :: rest := by
  rw [skipSpace, List.dropWhile_cons_of_neg]
  rw [nonspace]
  decide

theorem Reads.skipSpace_append {text rest : PyString} {value : α} (reads : Reads scan text value) :
    skipSpace (text ++ rest) = text ++ rest := by
  obtain ⟨head, tail, rfl, nonspace, -⟩ := reads.starts
  exact skipSpace_cons nonspace

theorem joined_cons (part : PyString) (rest : List PyString) : ∃ tail, joined (part :: rest) = part ++ tail := by
  cases rest with
  | nil => exact ⟨[], (List.append_nil part).symm⟩
  | cons next rest => exact ⟨_, rfl⟩

theorem length_le_joined (parts : List PyString) : parts.length ≤ (joined parts).length + 1 := by
  induction parts with
  | nil => exact Nat.zero_le _
  | cons part rest ih =>
    cases rest with
    | nil => exact Nat.succ_le_succ (Nat.zero_le _)
    | cons next rest =>
      simp only [joined, List.length_append, List.length_cons] at ih ⊢
      omega

theorem scanList_joined {close : Nat} (closes : close = 93 ∨ close = 125) {texts : List PyString} {values : List α}
    (each : List.Forall₂ (Reads scan) texts values) (nonempty : texts ≠ []) (rest : PyString) {fuel : Nat}
    (enough : texts.length ≤ fuel) : scanList close scan fuel (joined texts ++ close :: rest) = .ok (values, rest) := by
  have closing : isJsonSpace close = false := by rcases closes with rfl | rfl <;> rfl
  have stops (rest : PyString) : Stops (close :: rest) := by
    rcases closes with rfl | rfl
    · exact Or.inr ⟨_, _, rfl, Or.inr (Or.inl rfl)⟩
    · exact Or.inr ⟨_, _, rfl, Or.inr (Or.inr rfl)⟩
  induction each generalizing fuel with
  | nil => exact absurd rfl nonempty
  | @cons part value parts values first others ih =>
    obtain ⟨fuel, rfl⟩ : ∃ less, fuel = less + 1 := ⟨fuel - 1, by rw [List.length_cons] at enough; omega⟩
    cases others with
    | nil =>
      rw [joined, scanList, first.scans _ (stops rest)]
      dsimp only
      rw [skipSpace_cons closing]
      dsimp only
      rw [if_pos rfl]
    | @cons next second nexts seconds another more =>
      have comma : close ≠ 44 := by rcases closes with rfl | rfl <;> decide
      have tail := @ih (by simp) fuel (by simpa using enough)
      obtain ⟨behind, shape⟩ := joined_cons next nexts
      have spaced : skipSpace (32 :: (joined (next :: nexts) ++ close :: rest)) = joined (next :: nexts) ++ close :: rest := by
        rw [shape, List.append_assoc]
        exact another.skipSpace_append
      rw [joined, List.append_assoc, List.cons_append, List.cons_append, scanList,
        first.scans _ (Or.inr ⟨_, _, rfl, Or.inl rfl⟩)]
      dsimp only
      rw [skipSpace_cons rfl]
      dsimp only
      rw [if_neg comma.symm, if_pos rfl, spaced, tail]

theorem scanEnclosed_joined {close : Nat} (closes : close = 93 ∨ close = 125) {texts : List PyString} {values : List α}
    (each : List.Forall₂ (Reads scan) texts values) (rest : PyString) :
    scanEnclosed close scan (joined texts ++ close :: rest) = .ok (values, rest) := by
  have closing : isJsonSpace close = false := by rcases closes with rfl | rfl <;> rfl
  cases each with
  | nil =>
    rw [joined, List.nil_append, scanEnclosed, skipSpace_cons closing, List.headD_cons, if_pos rfl]
    rfl
  | @cons part value parts values first others =>
    obtain ⟨behind, shape⟩ := joined_cons part parts
    obtain ⟨head, tail, starts, nonspace, bracket, brace⟩ := first.starts
    have spaced : skipSpace (joined (part :: parts) ++ close :: rest) = joined (part :: parts) ++ close :: rest := by
      rw [shape, List.append_assoc]
      exact first.skipSpace_append
    have other : ¬ (joined (part :: parts) ++ close :: rest).headD 0 = close := by
      rw [shape, starts]
      rcases closes with rfl | rfl
      · exact bracket
      · exact brace
    rw [scanEnclosed, spaced, if_neg other]
    refine scanList_joined closes (.cons first others) (by simp) rest ?_
    have short := length_le_joined (part :: parts)
    rw [List.length_append]
    omega

end Containers

section Values

variable {digits : Nat} {scan array object : PyString → Scanned PyValue}

theorem flatMap_escapeCode {text : PyString} (plain : ∀ code ∈ text, isPlain code = true) : text.flatMap escapeCode = text := by
  induction text with
  | nil => rfl
  | cons code rest ih =>
    obtain ⟨first, others⟩ := List.forall_mem_cons.mp plain
    rw [List.flatMap_cons, ih others, escapeCode, if_pos first]
    rfl

theorem scanString_plain {text : PyString} (plain : ∀ code ∈ text, isPlain code = true) (rest : PyString) :
    scanString (text ++ 34 :: rest) = some (text, rest) := by
  induction text with
  | nil => rw [List.nil_append, scanString]
  | cons code tail ih =>
    obtain ⟨first, others⟩ := List.forall_mem_cons.mp plain
    unfold isPlain at first
    simp only [Bool.and_eq_true, decide_eq_true_eq] at first
    rw [List.cons_append, scanString, if_neg (by omega), ih others]
    · rfl
    all_goals omega

theorem quoted_plain {text : PyString} (plain : ∀ code ∈ text, isPlain code = true) : quoted text = 34 :: (text ++ [34]) := by
  rw [quoted, flatMap_escapeCode plain]

theorem reads_string {text : PyString} (plain : ∀ code ∈ text, isPlain code = true) :
    Reads (scanWith digits array object) (quoted text) (.string text) := by
  rw [quoted_plain plain]
  refine ⟨⟨34, text ++ [34], rfl, rfl, by decide, by decide⟩, ?_⟩
  intro rest _
  rw [List.cons_append, List.append_assoc, scanWith, List.cons_append, List.nil_append, scanString_plain plain]

theorem reads_array {texts : List PyString} {items : List PyValue} (each : List.Forall₂ (Reads scan) texts items) :
    Reads (scanWith digits (scanArray scan) object) (91 :: (joined texts ++ [93])) (.array items) := by
  refine ⟨⟨91, _, rfl, rfl, by decide, by decide⟩, ?_⟩
  intro rest _
  rw [List.cons_append, List.append_assoc, scanWith, List.cons_append, List.nil_append, scanArray,
    scanEnclosed_joined (Or.inl rfl) each]
  rfl

theorem reads_field {key text : PyString} {value : PyValue} (plain : ∀ code ∈ key, isPlain code = true)
    (reads : Reads scan text value) : Reads (scanField scan) (quoted key ++ 58 :: 32 :: text) (key, value) := by
  rw [quoted_plain plain]
  refine ⟨⟨34, _, rfl, rfl, by decide, by decide⟩, ?_⟩
  intro rest stops
  have spaced : skipSpace (32 :: (text ++ rest)) = text ++ rest := reads.skipSpace_append
  simp only [List.cons_append, List.append_assoc, List.nil_append, scanField]
  rw [scanString_plain plain]
  simp only [skipSpace_cons (show isJsonSpace 58 = false from rfl), spaced, reads.scans rest stops]
  rfl

theorem reads_object {texts : List PyString} {pairs : List (PyString × PyValue)}
    (each : List.Forall₂ (Reads (scanField scan)) texts pairs) :
    Reads (scanWith digits array (scanObject scan)) (123 :: (joined texts ++ [125])) (.object (dictOf pairs)) := by
  refine ⟨⟨123, _, rfl, rfl, by decide, by decide⟩, ?_⟩
  intro rest _
  rw [List.cons_append, List.append_assoc, scanWith, List.cons_append, List.nil_append, scanObject,
    scanEnclosed_joined (Or.inr rfl) each]
  rfl

theorem Stops.headD {rest : PyString} (stops : Stops rest) :
    isDigit (rest.headD 0) = false ∧ rest.headD 0 ≠ 46 ∧ rest.headD 0 ≠ 101 ∧ rest.headD 0 ≠ 69 := by
  rcases stops with rfl | ⟨code, tail, rfl, stops⟩
  · decide
  · rw [List.headD_cons]
    rcases stops with rfl | rfl | rfl <;> decide

theorem scanWhole_decimal (value : Nat) {rest : PyString} (stops : Stops rest) :
    scanWhole (decimal value ++ rest) = decimal value := by
  have spec := decimal_spec value
  obtain ⟨first, behind, shape, leading⟩ := spec.head
  unfold scanWhole
  by_cases zero : first = 48
  · obtain ⟨-, rfl⟩ := leading zero
    rw [shape, zero, List.cons_append, List.headD_cons, if_pos rfl]
  · have other : ¬ (decimal value ++ rest).headD 0 = 48 := by
      rw [shape]
      exact zero
    rw [if_neg other, List.takeWhile_append_of_pos spec.digits]
    cases rest with
    | nil => rw [List.takeWhile_nil, List.append_nil]
    | cons code tail =>
      have stop : isDigit code = false := stops.headD.1
      rw [List.takeWhile_cons_of_neg (by rw [stop]; decide), List.append_nil]

theorem scanFraction_stops {rest : PyString} (stops : Stops rest) : scanFraction rest = ([], rest) := by
  unfold scanFraction
  split
  case h_1 => exact absurd rfl stops.headD.2.1
  case h_2 => rfl

theorem scanExponent_stops {rest : PyString} (stops : Stops rest) : scanExponent rest = (none, rest) := by
  match rest with
  | [] => rfl
  | code :: tail =>
    obtain ⟨-, -, low, high⟩ := stops.headD
    rw [scanExponent, if_neg]
    rintro ⟨rfl | rfl, -⟩
    · exact low rfl
    · exact high rfl

theorem numberParts_intText (value : Int) {rest : PyString} (stops : Stops rest) :
    numberParts (intText value ++ rest) = (⟨value < 0, decimal value.natAbs, [], none⟩, rest) := by
  have spec := decimal_spec value.natAbs
  obtain ⟨first, behind, shape, -⟩ := spec.head
  have digit : isDigit first = true := spec.digits first (by rw [shape]; exact List.mem_cons_self)
  have unsigned : (decimal value.natAbs ++ rest).headD 0 ≠ 45 := by
    rw [shape]
    rintro rfl
    cases digit
  have behindIt : (decimal value.natAbs ++ rest).drop (decimal value.natAbs).length = rest := List.drop_left
  unfold intText numberParts
  split
  case isTrue negative =>
    simp only [List.cons_append, List.headD_cons, if_true, List.tail_cons, scanWhole_decimal _ stops, behindIt,
      scanFraction_stops stops, scanExponent_stops stops, negative, decide_true]
  case isFalse positive =>
    simp only [scanWhole_decimal _ stops, behindIt, scanFraction_stops stops, scanExponent_stops stops,
      positive, decide_false, decide_eq_false unsigned]

theorem scanConstant_eq_none {text : PyString} (others : ∀ constant ∈ constants, ¬ constant.1 <+: text) :
    scanConstant text = none := by
  rw [scanConstant, List.findSome?_eq_none_iff]
  intro constant member
  rw [after, if_neg]
  · rfl
  · rw [List.isPrefixOf_iff_prefix]
    exact others constant member

theorem constants_start : ∀ constant ∈ constants, ∃ code next tail, constant.1 = code :: next :: tail ∧
    isDigit code = false ∧ (code = 45 → isDigit next = false) := by
  intro constant member
  simp only [constants, List.mem_cons, List.not_mem_nil, or_false] at member
  rcases member with rfl | rfl | rfl | rfl | rfl | rfl <;> exact ⟨_, _, _, rfl, rfl, by decide⟩

theorem scanConstant_intText (value : Int) (rest : PyString) : scanConstant (intText value ++ rest) = none := by
  have spec := decimal_spec value.natAbs
  obtain ⟨first, behind, shape, -⟩ := spec.head
  have digit : isDigit first = true := spec.digits first (by rw [shape]; exact List.mem_cons_self)
  refine scanConstant_eq_none ?_
  intro constant member prefixed
  obtain ⟨code, next, tail, word, other, signed⟩ := constants_start constant member
  rw [word] at prefixed
  unfold intText at prefixed
  rw [shape] at prefixed
  split at prefixed
  · obtain ⟨rfl, within⟩ := List.cons_prefix_cons.mp prefixed
    obtain ⟨rfl, -⟩ := List.cons_prefix_cons.mp within
    rw [signed rfl] at digit
    cases digit
  · obtain ⟨rfl, -⟩ := List.cons_prefix_cons.mp prefixed
    rw [other] at digit
    cases digit

theorem intText_starts (value : Int) : ∃ head tail, intText value = head :: tail ∧ (isDigit head = true ∨ head = 45) := by
  have spec := decimal_spec value.natAbs
  obtain ⟨first, behind, shape, -⟩ := spec.head
  unfold intText
  split
  · exact ⟨45, _, rfl, Or.inr rfl⟩
  · exact ⟨first, behind, shape, Or.inl (spec.digits first (by rw [shape]; exact List.mem_cons_self))⟩

theorem readDigits_intText (value : Int) :
    (if decide (value < 0) = true then -(readDigits (decimal value.natAbs) : Int) else readDigits (decimal value.natAbs)) = value := by
  rw [(decimal_spec value.natAbs).reads]
  by_cases negative : value < 0
  · rw [if_pos (decide_eq_true negative)]
    omega
  · rw [if_neg (by simpa using negative)]
    omega

theorem reads_int {value : Int} (short : (decimal value.natAbs).length ≤ digits) :
    Reads (scanWith digits array object) (intText value) (.int value) := by
  obtain ⟨head, tail, shape, first⟩ := intText_starts value
  have range : 48 ≤ head ∧ head ≤ 57 ∨ head = 45 := by
    unfold isDigit at first
    simpa using first
  refine ⟨⟨head, tail, shape, ?_, by omega, by omega⟩, ?_⟩
  · unfold isJsonSpace
    simp
    omega
  · intro rest stops
    have whole : decimal value.natAbs ≠ [] := by
      obtain ⟨first, behind, some_, -⟩ := (decimal_spec value.natAbs).head
      rw [some_]
      exact List.cons_ne_nil _ _
    have number : scanNumber digits (intText value ++ rest) = .ok (.int value, rest) := by
      rw [scanNumber, numberParts_intText value stops]
      dsimp only [NumberParts.value]
      rw [if_neg whole, if_pos ⟨rfl, rfl⟩, if_neg (by omega), readDigits_intText]
      rfl
    unfold scanWith
    split
    case h_1 same => 
      rw [shape, List.cons_append] at same
      cases same
      omega
    case h_2 same =>
      rw [shape, List.cons_append] at same
      cases same
      omega
    case h_3 same =>
      rw [shape, List.cons_append] at same
      cases same
      omega
    case h_4 => rw [scanConstant_intText, number]

theorem scanOnce_eq_scanWith (digits depth : Nat) : ∃ array object, scanOnce digits depth = scanWith digits array object := by
  cases depth with
  | zero => exact ⟨_, _, rfl⟩
  | succ depth => exact ⟨_, _, rfl⟩

theorem loads_of_reads {limits : Limits} {text : PyString} {value : PyValue}
    (reads : Reads (scanOnce limits.digits limits.depth) text value) (unmarked : text.headD 0 ≠ 65279) :
    loads limits text = .ok value := by
  have scanned := reads.scans [] (Or.inl rfl)
  have spaced := @Reads.skipSpace_append _ _ _ [] _ reads
  rw [List.append_nil] at scanned spaced
  rw [loads, if_neg unmarked, spaced, scanned]
  rfl

end Values

end IncidentPlatform.Python

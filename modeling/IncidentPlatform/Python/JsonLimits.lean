import IncidentPlatform.Python.Json

namespace IncidentPlatform.Python

/-! # The limits of the JSON reader

Scanning takes a part of the text, so limits of the text's own length are never hit,
and larger limits change a result only where one was.
-/

section Consumes

variable {α : Type} {digits : Nat}

/-- A scanner that leaves less than it was given. -/
def Consumes (scan : PyString → Scanned α) : Prop :=
  ∀ ⦃text value rest⦄, scan text = .ok (value, rest) → rest.length < text.length

theorem skipSpace_length_le (text : PyString) : (skipSpace text).length ≤ text.length :=
  (List.dropWhile_suffix _).length_le

theorem skipSpace_cons_le {text rest : PyString} {code : Nat} (shape : skipSpace text = code :: rest) :
    rest.length < text.length := by
  have atMost := skipSpace_length_le text
  rw [shape, List.length_cons] at atMost
  exact atMost

theorem consCode_eq_some {code : Nat} {result : Option (PyString × PyString)} {string rest : PyString}
    (scanned : consCode code result = some (string, rest)) : ∃ tail, result = some (tail, rest) ∧ string = code :: tail := by
  obtain ⟨⟨tail, behind⟩, found, same⟩ := Option.map_eq_some_iff.mp scanned
  cases same
  exact ⟨tail, found, rfl⟩

theorem scanString_consumes {text string rest : PyString} (scanned : scanString text = some (string, rest)) :
    rest.length < text.length := by
  fun_induction scanString text generalizing string with
  | case1 | case3 | case4 | case8 | case10 => cases scanned
  | case2 =>
    cases scanned
    exact Nat.lt_succ_self _
  | case5 | case6 | case7 | case9 | case11 =>
    rename_i ih
    obtain ⟨tail, found, -⟩ := consCode_eq_some scanned
    have shorter := ih found
    simp only [List.length_cons] at shorter ⊢
    omega

theorem after_eq_some {word text rest : PyString} (found : after word text = some rest) : text = word ++ rest := by
  unfold after at found
  split at found
  case isTrue prefixed =>
    obtain ⟨behind, shape⟩ := List.isPrefixOf_iff_prefix.mp prefixed
    cases found
    rw [← shape, List.drop_left]
  case isFalse => cases found

theorem constants_nonempty : ∀ constant ∈ constants, 0 < constant.1.length := by
  simp [constants, pyString]

theorem scanConstant_consumes {text rest : PyString} {value : PyValue} (scanned : scanConstant text = some (value, rest)) :
    rest.length < text.length := by
  obtain ⟨constant, member, found⟩ := List.exists_of_findSome?_eq_some scanned
  obtain ⟨behind, follows, same⟩ := Option.map_eq_some_iff.mp found
  cases same
  have positive := constants_nonempty constant member
  rw [after_eq_some follows, List.length_append]
  omega

theorem scanFraction_length_le (text : PyString) : (scanFraction text).2.length ≤ text.length := by
  unfold scanFraction
  split
  case h_1 rest =>
    have shorter := (@List.dropWhile_suffix _ rest isDigit).length_le
    split
    · exact Nat.le_refl _
    · exact Nat.le_succ_of_le shorter
  case h_2 => exact Nat.le_refl _

theorem unsigned_length_le (text : PyString) : (unsigned text).length ≤ text.length := by
  unfold unsigned
  split <;> simp

theorem scanExponent_length_le (text : PyString) : (scanExponent text).2.length ≤ text.length := by
  match text with
  | [] => exact Nat.le_refl _
  | code :: rest =>
    have sign := unsigned_length_le rest
    have shorter := (@List.dropWhile_suffix _ (unsigned rest) isDigit).length_le
    unfold scanExponent
    dsimp only
    split
    · exact Nat.le_succ_of_le (Nat.le_trans shorter sign)
    · exact Nat.le_refl _

theorem scanWhole_length_le (text : PyString) : (scanWhole text).length ≤ text.length := by
  unfold scanWhole
  split
  case isTrue zero =>
    match text with
    | [] => cases zero
    | _ :: rest => simp
  case isFalse => exact (List.takeWhile_prefix _).length_le

theorem numberParts_consumes {text : PyString} (nonempty : (numberParts text).1.whole ≠ []) :
    (numberParts text).2.length < text.length := by
  have behind (magnitude : PyString) (nonempty : scanWhole magnitude ≠ []) :
      (scanExponent (scanFraction (magnitude.drop (scanWhole magnitude).length)).2).2.length < magnitude.length := by
    have fraction := scanFraction_length_le (magnitude.drop (scanWhole magnitude).length)
    have exponent := scanExponent_length_le (scanFraction (magnitude.drop (scanWhole magnitude).length)).2
    have positive := List.length_pos_iff.mpr nonempty
    have whole := scanWhole_length_le magnitude
    rw [List.length_drop] at fraction
    omega
  refine Nat.lt_of_lt_of_le (behind _ nonempty) ?_
  split <;> simp

theorem scanNumber_consumes : Consumes (scanNumber digits) := by
  intro text value rest scanned
  unfold scanNumber at scanned
  cases valueIs : (numberParts text).1.value digits with
  | error error => rw [valueIs] at scanned; cases scanned
  | ok number =>
    rw [valueIs] at scanned
    cases scanned
    refine numberParts_consumes fun empty => ?_
    rw [NumberParts.value, if_pos empty] at valueIs
    cases valueIs

theorem scanList_consumes {close fuel : Nat} {scan : PyString → Scanned α} (consumes : Consumes scan) :
    Consumes (scanList close scan fuel) := by
  induction fuel with
  | zero => intro text value rest scanned; cases scanned
  | succ fuel ih =>
    intro text value rest scanned
    rw [scanList] at scanned
    split at scanned
    case h_1 => cases scanned
    case h_2 element behind first =>
      have shorter := consumes first
      split at scanned
      case h_1 => cases scanned
      case h_2 code following spaces =>
        have less := skipSpace_cons_le spaces
        split at scanned
        · cases scanned
          omega
        · split at scanned
          · split at scanned
            case h_1 => cases scanned
            case h_2 elements final others =>
              cases scanned
              have tail := ih others
              have spaced := skipSpace_length_le following
              omega
          · cases scanned

theorem scanEnclosed_consumes {close : Nat} {scan : PyString → Scanned α} (nonzero : close ≠ 0) (consumes : Consumes scan) :
    Consumes (scanEnclosed close scan) := by
  intro text value rest scanned
  have spaces := skipSpace_length_le text
  unfold scanEnclosed at scanned
  split at scanned
  case isTrue closes =>
    cases scanned
    match shape : skipSpace text with
    | [] =>
      rw [shape] at closes
      exact absurd closes.symm nonzero
    | code :: following => exact skipSpace_cons_le shape
  case isFalse =>
    have shorter := scanList_consumes consumes scanned
    omega

theorem Consumes.map {β : Type} {scan : PyString → Scanned α} (consumes : Consumes scan) (build : α → β) :
    Consumes fun text => (scan text).map fun scanned => (build scanned.1, scanned.2) := by
  intro text value rest scanned
  dsimp only at scanned
  cases found : scan text with
  | error error => rw [found] at scanned; cases scanned
  | ok result =>
    rw [found] at scanned
    cases scanned
    exact consumes found

theorem scanArray_consumes {scan : PyString → Scanned PyValue} (consumes : Consumes scan) : Consumes (scanArray scan) :=
  (scanEnclosed_consumes (by decide) consumes).map PyValue.array

theorem scanField_consumes {scan : PyString → Scanned PyValue} (consumes : Consumes scan) : Consumes (scanField scan) := by
  intro text value rest scanned
  unfold scanField at scanned
  split at scanned
  case h_1 text =>
    split at scanned
    case h_1 => cases scanned
    case h_2 key behind string =>
      have shorter := scanString_consumes string
      split at scanned
      case h_1 following spaces =>
        have less := skipSpace_cons_le spaces
        have spaced := skipSpace_length_le following
        cases found : scan (skipSpace following) with
        | error error => rw [found] at scanned; cases scanned
        | ok result =>
          rw [found] at scanned
          cases scanned
          have tail := consumes found
          rw [List.length_cons]
          omega
      case h_2 => cases scanned
  case h_2 => cases scanned

theorem scanObject_consumes {scan : PyString → Scanned PyValue} (consumes : Consumes scan) : Consumes (scanObject scan) :=
  (scanEnclosed_consumes (by decide) (scanField_consumes consumes)).map fun pairs => PyValue.object (dictOf pairs)

theorem scanWith_consumes {array object : PyString → Scanned PyValue} (arrays : Consumes array) (objects : Consumes object) :
    Consumes (scanWith digits array object) := by
  intro text value rest scanned
  unfold scanWith at scanned
  split at scanned
  case h_1 =>
    split at scanned
    case h_1 => cases scanned
    case h_2 found =>
      cases scanned
      exact Nat.lt_succ_of_lt (scanString_consumes found)
  case h_2 => exact Nat.lt_succ_of_lt (arrays scanned)
  case h_3 => exact Nat.lt_succ_of_lt (objects scanned)
  case h_4 =>
    split at scanned
    case h_1 found =>
      cases scanned
      exact scanConstant_consumes found
    case h_2 => exact scanNumber_consumes scanned

theorem scanOnce_consumes (depth : Nat) : Consumes (scanOnce digits depth) := by
  induction depth with
  | zero =>
    have never : Consumes fun _ : PyString => (Except.error .tooDeep : Scanned PyValue) := by
      intro text value rest scanned
      cases scanned
    exact scanWith_consumes never never
  | succ depth ih => exact scanWith_consumes (scanArray_consumes ih) (scanObject_consumes ih)

end Consumes

section Limits

variable {α β : Type} {digits larger depth deeper : Nat}

/-- The result under limits is the one without, or one of the limits was hit. -/
def Agrees (limited full : Except JsonError α) : Prop :=
  limited = full ∨ ∃ error, limited = .error error ∧ error ≠ .malformed

/-- No limit was hit. -/
def Unlimited (result : Except JsonError α) : Prop := ∀ error, result = .error error → error = .malformed

theorem Agrees.map {limited full : Except JsonError α} (agree : Agrees limited full) (build : α → β) :
    Agrees (limited.map build) (full.map build) := by
  rcases agree with same | ⟨error, failed, limit⟩
  · rw [same]
    exact .inl rfl
  · rw [failed]
    exact .inr ⟨error, rfl, limit⟩

theorem Unlimited.map {result : Except JsonError α} (unlimited : Unlimited result) (build : α → β) :
    Unlimited (result.map build) := by
  intro error failed
  cases result with
  | error cause =>
    cases failed
    exact unlimited _ rfl
  | ok value => cases failed

theorem NumberParts.value_agrees (atMost : digits ≤ larger) (parts : NumberParts) :
    Agrees (parts.value digits) (parts.value larger) := by
  unfold NumberParts.value
  split
  · exact .inl rfl
  · split
    · by_cases long : digits < parts.whole.length
      · rw [if_pos long]
        exact .inr ⟨_, rfl, nofun⟩
      · have short : ¬ larger < parts.whole.length := by omega
        rw [if_neg long, if_neg short]
        exact .inl rfl
    · exact .inl rfl

theorem scanList_agrees {close : Nat} {scan full : PyString → Scanned α} (agree : ∀ text, Agrees (scan text) (full text))
    (fuel : Nat) (text : PyString) : Agrees (scanList close scan fuel text) (scanList close full fuel text) := by
  induction fuel generalizing text with
  | zero => exact .inl rfl
  | succ fuel ih =>
    rcases agree text with same | ⟨error, failed, limit⟩
    · rw [scanList, scanList, same]
      split
      case h_1 => exact .inl rfl
      case h_2 element rest _ =>
        split
        case h_1 => exact .inl rfl
        case h_2 code following _ =>
          split
          · exact .inl rfl
          · split
            · rcases ih (skipSpace following) with others | ⟨error, failed, limit⟩
              · rw [others]
                exact .inl rfl
              · rw [failed]
                exact .inr ⟨error, rfl, limit⟩
            · exact .inl rfl
    · rw [scanList, failed]
      exact .inr ⟨error, rfl, limit⟩

theorem scanEnclosed_agrees {close : Nat} {scan full : PyString → Scanned α} (agree : ∀ text, Agrees (scan text) (full text))
    (text : PyString) : Agrees (scanEnclosed close scan text) (scanEnclosed close full text) := by
  unfold scanEnclosed
  split
  · exact .inl rfl
  · exact scanList_agrees agree _ _

theorem scanField_agrees {scan full : PyString → Scanned PyValue} (agree : ∀ text, Agrees (scan text) (full text))
    (text : PyString) : Agrees (scanField scan text) (scanField full text) := by
  unfold scanField
  split
  · split
    · exact .inl rfl
    · split
      · exact (agree _).map _
      · exact .inl rfl
  · exact .inl rfl

theorem scanWith_agrees (atMost : digits ≤ larger) {array object fullArray fullObject : PyString → Scanned PyValue}
    (arrays : ∀ text, Agrees (array text) (fullArray text)) (objects : ∀ text, Agrees (object text) (fullObject text))
    (text : PyString) : Agrees (scanWith digits array object text) (scanWith larger fullArray fullObject text) := by
  unfold scanWith
  split
  · exact .inl rfl
  · exact arrays _
  · exact objects _
  · split
    · exact .inl rfl
    · exact ((numberParts _).1.value_agrees atMost).map _

theorem scanOnce_agrees (atMost : digits ≤ larger) (shallower : depth ≤ deeper) (text : PyString) :
    Agrees (scanOnce digits depth text) (scanOnce larger deeper text) := by
  induction depth generalizing deeper text with
  | zero =>
    have tooDeep (full : Scanned PyValue) : Agrees (.error .tooDeep) full := .inr ⟨_, rfl, nofun⟩
    cases deeper with
    | zero => exact scanWith_agrees atMost (fun _ => tooDeep _) (fun _ => tooDeep _) text
    | succ deeper => exact scanWith_agrees atMost (fun _ => tooDeep _) (fun _ => tooDeep _) text
  | succ depth ih =>
    obtain ⟨deeper, rfl⟩ : ∃ rest, deeper = rest + 1 := ⟨deeper - 1, by omega⟩
    have within := fun text => @ih deeper (by omega) text
    exact scanWith_agrees atMost (fun text => (scanEnclosed_agrees within text).map _)
      (fun text => (scanEnclosed_agrees (scanField_agrees within) text).map _) text

theorem scanList_unlimited {close bound : Nat} {scan : PyString → Scanned α} (consumes : Consumes scan)
    (unlimited : ∀ text, text.length ≤ bound → Unlimited (scan text)) (fuel : Nat) (text : PyString)
    (short : text.length ≤ bound) : Unlimited (scanList close scan fuel text) := by
  induction fuel generalizing text with
  | zero => rintro _ ⟨⟩; rfl
  | succ fuel ih =>
    intro error failed
    rw [scanList] at failed
    split at failed
    case h_1 cause first =>
      cases failed
      exact unlimited text short _ first
    case h_2 element rest first =>
      have shorter := consumes first
      split at failed
      case h_1 => cases failed; rfl
      case h_2 code following spaces =>
        have less := skipSpace_cons_le spaces
        have spaced := skipSpace_length_le following
        split at failed
        · cases failed
        · split at failed
          · split at failed
            case h_1 cause others =>
              cases failed
              exact ih (skipSpace following) (by omega) _ others
            case h_2 => cases failed
          · cases failed
            rfl

theorem scanEnclosed_unlimited {close bound : Nat} {scan : PyString → Scanned α} (consumes : Consumes scan)
    (unlimited : ∀ text, text.length ≤ bound → Unlimited (scan text)) {text : PyString} (short : text.length ≤ bound) :
    Unlimited (scanEnclosed close scan text) := by
  have spaced := skipSpace_length_le text
  unfold scanEnclosed
  split
  · intro error failed
    cases failed
  · exact scanList_unlimited consumes unlimited _ _ (by omega)

theorem scanField_unlimited {bound : Nat} {scan : PyString → Scanned PyValue}
    (unlimited : ∀ text, text.length ≤ bound → Unlimited (scan text)) {text : PyString} (short : text.length ≤ bound) :
    Unlimited (scanField scan text) := by
  have malformed {β : Type} : Unlimited (.error .malformed : Except JsonError β) := by
    rintro _ ⟨⟩
    rfl
  unfold scanField
  split
  case h_1 text =>
    split
    case h_1 => exact malformed
    case h_2 key rest string =>
      have shorter := scanString_consumes string
      split
      case h_1 following spaces =>
        have less := skipSpace_cons_le spaces
        have spaced := skipSpace_length_le following
        rw [List.length_cons] at short
        exact (unlimited _ (by omega)).map _
      case h_2 => exact malformed
  case h_2 => exact malformed

theorem scanNumber_unlimited {text : PyString} (few : text.length ≤ digits) : Unlimited (scanNumber digits text) := by
  refine Unlimited.map ?_ _
  intro error failed
  have short : (numberParts text).1.whole.length ≤ text.length := by
    refine Nat.le_trans (scanWhole_length_le _) ?_
    split <;> simp
  unfold NumberParts.value at failed
  split at failed
  · cases failed
    rfl
  · split at failed
    · rw [if_neg (by omega : ¬ digits < (numberParts text).1.whole.length)] at failed
      cases failed
    · cases failed

theorem scanWith_unlimited {array object : PyString → Scanned PyValue} {text : PyString} (few : text.length ≤ digits)
    (arrays : ∀ rest, text = 91 :: rest → Unlimited (array rest))
    (objects : ∀ rest, text = 123 :: rest → Unlimited (object rest)) : Unlimited (scanWith digits array object text) := by
  unfold scanWith
  split
  · split
    · rintro _ ⟨⟩
      rfl
    · intro error failed
      cases failed
  · exact arrays _ rfl
  · exact objects _ rfl
  · split
    · intro error failed
      cases failed
    · exact scanNumber_unlimited few

theorem scanOnce_unlimited {text : PyString} (shallow : text.length ≤ depth) (few : text.length ≤ digits) :
    Unlimited (scanOnce digits depth text) := by
  induction depth generalizing text with
  | zero =>
    obtain rfl : text = [] := List.length_eq_zero_iff.mp (Nat.le_zero.mp shallow)
    exact scanWith_unlimited few (fun _ shape => by cases shape) (fun _ shape => by cases shape)
  | succ depth ih =>
    have within {code : Nat} {rest : PyString} (shape : text = code :: rest) (inner : PyString)
        (shorter : inner.length ≤ rest.length) : Unlimited (scanOnce digits depth inner) := by
      rw [shape, List.length_cons] at shallow few
      exact ih (by omega) (by omega)
    refine scanWith_unlimited few ?_ ?_
    · intro rest shape
      exact (scanEnclosed_unlimited (scanOnce_consumes depth) (within shape) (Nat.le_refl _)).map _
    · intro rest shape
      have fields : ∀ inner : PyString, inner.length ≤ rest.length → Unlimited (scanField (scanOnce digits depth) inner) :=
        fun inner shorter => scanField_unlimited (within shape) shorter
      exact (scanEnclosed_unlimited (scanField_consumes (scanOnce_consumes depth)) fields (Nat.le_refl _)).map _

/-- The value that a text writes in JSON, whatever the interpreter allows. -/
def jsonOf (text : PyString) : Option PyValue := (loads ⟨text.length, text.length⟩ text).toOption

theorem loads_agrees {limited wider : Limits} (fewer : limited.digits ≤ wider.digits) (shallower : limited.depth ≤ wider.depth)
    (text : PyString) : Agrees (loads limited text) (loads wider text) := by
  unfold loads
  split
  · exact .inl rfl
  · rcases scanOnce_agrees fewer shallower (skipSpace text) with same | ⟨error, failed, limit⟩
    · rw [same]
      exact .inl rfl
    · rw [failed]
      exact .inr ⟨error, rfl, limit⟩

theorem loads_unlimited (text : PyString) : Unlimited (loads ⟨text.length, text.length⟩ text) := by
  intro error failed
  unfold loads at failed
  split at failed
  · cases failed
    rfl
  · have never := scanOnce_unlimited (skipSpace_length_le text) (skipSpace_length_le text)
    split at failed
    case h_1 cause scanned =>
      cases failed
      exact never _ scanned
    case h_2 =>
      split at failed
      · cases failed
      · cases failed
        rfl

/-- `json.loads` reads that value, or hits a limit. -/
theorem loads_cases (limits : Limits) (text : PyString) :
    (∃ value, loads limits text = .ok value ∧ jsonOf text = some value) ∨
      (loads limits text = .error .malformed ∧ jsonOf text = none) ∨
      (∃ error, loads limits text = .error error ∧ error ≠ .malformed) := by
  let wider : Limits := ⟨max limits.depth text.length, max limits.digits text.length⟩
  have wide : loads ⟨text.length, text.length⟩ text = loads wider text := by
    rcases @loads_agrees ⟨text.length, text.length⟩ wider (le_max_right _ _) (le_max_right _ _) text with
      same | ⟨error, failed, limit⟩
    · exact same
    · exact absurd (loads_unlimited text error failed) limit
  have unlimited : Unlimited (loads wider text) := wide ▸ loads_unlimited text
  rcases @loads_agrees limits wider (le_max_left _ _) (le_max_left _ _) text with same | limit
  · rw [same, jsonOf, wide]
    cases found : loads wider text with
    | ok value => exact .inl ⟨value, rfl, rfl⟩
    | error error =>
      rw [unlimited error found]
      exact .inr (.inl ⟨rfl, rfl⟩)
  · exact .inr (.inr limit)

end Limits

end IncidentPlatform.Python

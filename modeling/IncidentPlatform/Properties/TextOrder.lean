import IncidentPlatform.Dates.Civil
import IncidentPlatform.Frontend.DemoPhase
import IncidentPlatform.Text.FixedWidth
import Mathlib.Data.List.Find

namespace IncidentPlatform.Properties

open Dates Frontend Text

/-! # Text order and time order

The fraction is left out where it is zero, and the letter that ends the text is
above the dot that starts a fraction, so a whole second is written above the
rest of that second.
-/

def unitDigit (number : Nat) : Fin 65536 := Fin.ofNat 65536 (48 + number)

/-- `YYYY-MM-DDTHH:MM:SS`. -/
def wholeText (instant : DateTime) : JsString :=
  fixedWidth unitDigit 4 instant.date.year ++ jsString "-" ++ fixedWidth unitDigit 2 instant.date.month ++ jsString "-" ++
    fixedWidth unitDigit 2 instant.date.day ++ jsString "T" ++ fixedWidth unitDigit 2 instant.hour ++ jsString ":" ++
    fixedWidth unitDigit 2 instant.minute ++ jsString ":" ++ fixedWidth unitDigit 2 instant.second

def fractionText (microsecond : Nat) : JsString :=
  if microsecond = 0 then jsString "Z" else jsString "." ++ fixedWidth unitDigit 6 microsecond ++ jsString "Z"

def apiText (instant : DateTime) : JsString := wholeText instant ++ fractionText instant.microsecond

section Texts

variable {first second : DateTime}

theorem unitDigit_increasing (low high : Nat) (below : low < high) (small : high < 10) : unitDigit low < unitDigit high := by
  unfold unitDigit
  rw [Fin.lt_def, Fin.val_ofNat, Fin.val_ofNat]
  omega

theorem digits_lt_iff {width low high : Nat} (small : low < 10 ^ width) (bounded : high < 10 ^ width) :
    fixedWidth unitDigit width low < fixedWidth unitDigit width high ↔ low < high :=
  fixedWidth_lt_iff unitDigit_increasing small bounded

theorem digits_eq_iff {width low high : Nat} (small : low < 10 ^ width) (bounded : high < 10 ^ width) :
    fixedWidth unitDigit width low = fixedWidth unitDigit width high ↔ low = high :=
  ⟨fixedWidth_injective unitDigit_increasing small bounded, fun same => same ▸ rfl⟩

theorem separator_lt_iff {front back : JsString} (separator : JsString) : separator ++ front < separator ++ back ↔ front < back := by
  rw [append_lt_append_iff rfl]
  simp

theorem length_wholeText (instant : DateTime) : (wholeText instant).length = 19 := by
  simp [wholeText, jsString]

theorem wholeText_lt_iff : wholeText first < wholeText second ↔ first.seconds < second.seconds := by
  have year : first.date.year < 10 ^ 4 ∧ second.date.year < 10 ^ 4 :=
    ⟨Nat.lt_succ_of_le first.date.year_le, Nat.lt_succ_of_le second.date.year_le⟩
  have month : first.date.month < 10 ^ 2 ∧ second.date.month < 10 ^ 2 := by
    have low := first.date.month_le
    have high := second.date.month_le
    omega
  have day : first.date.day < 10 ^ 2 ∧ second.date.day < 10 ^ 2 := by
    have low := Nat.le_trans first.date.day_le (Date.monthLength_le _ _)
    have high := Nat.le_trans second.date.day_le (Date.monthLength_le _ _)
    omega
  have hour : first.hour < 10 ^ 2 ∧ second.hour < 10 ^ 2 := by
    have low := first.hour_lt
    have high := second.hour_lt
    omega
  have minute : first.minute < 10 ^ 2 ∧ second.minute < 10 ^ 2 := by
    have low := first.minute_lt
    have high := second.minute_lt
    omega
  have secondOf : first.second < 10 ^ 2 ∧ second.second < 10 ^ 2 := by
    have low := first.second_lt
    have high := second.second_lt
    omega
  have date : first.date.ordinal = second.date.ordinal ↔ first.date.year = second.date.year ∧
      first.date.month = second.date.month ∧ first.date.day = second.date.day := by
    constructor
    · intro same
      rw [Date.ordinal_injective same]
      exact ⟨rfl, rfl, rfl⟩
    · rintro ⟨year, month, day⟩
      unfold Date.ordinal
      rw [year, month, day]
  rw [DateTime.seconds_lt_iff, DateTime.secondOfDay_lt_iff, Date.ordinal_lt_iff, date, Date.Before]
  simp only [wholeText, List.append_assoc]
  rw [append_lt_append_iff (by simp), digits_lt_iff year.1 year.2, digits_eq_iff year.1 year.2, separator_lt_iff,
    append_lt_append_iff (by simp), digits_lt_iff month.1 month.2, digits_eq_iff month.1 month.2, separator_lt_iff,
    append_lt_append_iff (by simp), digits_lt_iff day.1 day.2, digits_eq_iff day.1 day.2, separator_lt_iff,
    append_lt_append_iff (by simp), digits_lt_iff hour.1 hour.2, digits_eq_iff hour.1 hour.2, separator_lt_iff,
    append_lt_append_iff (by simp), digits_lt_iff minute.1 minute.2, digits_eq_iff minute.1 minute.2, separator_lt_iff,
    digits_lt_iff secondOf.1 secondOf.2]
  simp only [and_or_left, or_assoc, and_assoc]

theorem wholeText_eq_iff : wholeText first = wholeText second ↔ first.seconds = second.seconds := by
  rw [← not_iff_not, ← ne_eq, ← ne_eq, ne_iff_lt_or_gt, ne_iff_lt_or_gt, wholeText_lt_iff, wholeText_lt_iff]

theorem apiText_lt_iff : apiText first < apiText second ↔ first.seconds < second.seconds ∨
    first.seconds = second.seconds ∧ fractionText first.microsecond < fractionText second.microsecond := by
  rw [apiText, apiText, append_lt_append_iff (by rw [length_wholeText, length_wholeText]), wholeText_lt_iff, wholeText_eq_iff]

/-- One of the instants is a whole second, the other lies further within it. -/
def SplitsSecond (whole later : DateTime) : Prop :=
  whole.seconds = later.seconds ∧ whole.microsecond = 0 ∧ later.microsecond ≠ 0

theorem fractionText_lt_iff {low high : Nat} (small : low < 10 ^ 6) (bounded : high < 10 ^ 6) (same : low = 0 ↔ high = 0) :
    fractionText low < fractionText high ↔ low < high := by
  by_cases zero : low = 0
  · rw [zero, same.mp zero]
    simp
  · have positive : high ≠ 0 := fun zeroHigh => zero (same.mpr zeroHigh)
    rw [fractionText, fractionText, if_neg zero, if_neg positive, List.append_assoc, List.append_assoc, separator_lt_iff,
      append_lt_append_iff (by simp), digits_lt_iff small bounded]
    simp

theorem apiText_lt_iff_micros (whole : ¬ SplitsSecond first second) (later : ¬ SplitsSecond second first) :
    apiText first < apiText second ↔ first.micros < second.micros := by
  rw [apiText_lt_iff, DateTime.micros_lt_iff]
  refine or_congr_right (and_congr_right fun equal => fractionText_lt_iff first.microsecond_lt second.microsecond_lt ?_)
  constructor
  · intro zero
    by_contra positive
    exact whole ⟨equal, zero, positive⟩
  · intro zero
    by_contra positive
    exact later ⟨equal.symm, zero, positive⟩

theorem SplitsSecond.inverted (splits : SplitsSecond first second) :
    first.micros < second.micros ∧ apiText second < apiText first := by
  obtain ⟨equal, zero, positive⟩ := splits
  constructor
  · rw [DateTime.micros_lt_iff]
    exact Or.inr ⟨equal, by omega⟩
  · rw [apiText_lt_iff]
    refine Or.inr ⟨equal.symm, ?_⟩
    rw [zero, fractionText, fractionText, if_neg positive, if_pos rfl]
    exact List.cons_lt_cons_iff.mpr (Or.inl (by decide))

theorem micros_injective (same : first.micros = second.micros) : first = second := by
  have low := first.microsecond_lt
  have high := second.microsecond_lt
  have seconds : first.seconds = second.seconds := by
    unfold DateTime.micros at same
    omega
  have micros : first.microsecond = second.microsecond := by
    unfold DateTime.micros at same
    omega
  obtain ⟨date, hour, minute, second⟩ := DateTime.eq_of_seconds seconds
  cases first
  cases second
  cases date
  cases hour
  cases minute
  cases second
  cases micros
  rfl

theorem apiText_injective : Function.Injective apiText := by
  intro first second same
  have above : ¬ apiText first < apiText second := by
    rw [same]
    exact lt_irrefl _
  have below : ¬ apiText second < apiText first := by
    rw [same]
    exact lt_irrefl _
  have whole : ¬ SplitsSecond first second := fun splits => below splits.inverted.2
  have later : ¬ SplitsSecond second first := fun splits => above splits.inverted.2
  rw [apiText_lt_iff_micros whole later, not_lt] at above
  rw [apiText_lt_iff_micros later whole, not_lt] at below
  exact micros_injective (le_antisymm below above)

end Texts

section Instants

/-- The instant that a text writes, in microseconds. -/
noncomputable def instantOf (stamp : JsString) : Nat := by
  classical
  exact if written : ∃ instant, apiText instant = stamp then written.choose.micros else 0

theorem instantOf_apiText (instant : DateTime) : instantOf (apiText instant) = instant.micros := by
  have written : ∃ other, apiText other = apiText instant := ⟨instant, rfl⟩
  rw [instantOf, dif_pos written, apiText_injective written.choose_spec]

variable (time : JsString → Nat)

def takeBoundariesBy (audit : List AuditLog) : List JsString :=
  ((audit.filter isResetRow).map AuditLog.createdAt).dedup.insertionSort fun first second => time first ≤ time second

def takeAtBy (audit : List AuditLog) : Option JsString → Take
  | none => { startAt := (takeBoundariesBy time audit).getLast?, endAt := none }
  | some point => {
      startAt := (takeBoundariesBy time audit).reverse.find? fun bound => time bound < time point
      endAt := (takeBoundariesBy time audit).find? fun bound => time point ≤ time bound }

def withinBy (take : Take) (stamp : JsString) : Bool :=
  (take.startAt.all fun startAt => time startAt < time stamp) && take.endAt.all fun endAt => time stamp ≤ time endAt

def rowsInTakeBy (audit : List AuditLog) (take : Take) : List AuditLog :=
  audit.filter fun row => withinBy time take row.createdAt

def runsInTakeBy (runs : List AgentRun) (take : Take) : List AgentRun :=
  (runs.filter fun run => withinBy time take run.startedAt).insertionSort
    fun first second => time second.startedAt < time first.startedAt

def newestResetAtBy (audit : List AuditLog) : Option JsString :=
  ((audit.filter isResetRow).foldl (fun best row => match best with
    | none => some row
    | some best => if time best.createdAt < time row.createdAt then some row else some best) none).map AuditLog.createdAt

def byCreatedAtBy (rows : List AuditLog) : List AuditLog :=
  rows.insertionSort fun first second => time first.createdAt ≤ time second.createdAt

def faultInTakeBy (audit : List AuditLog) (take : Take) : Option JsString :=
  (byCreatedAtBy time ((rowsInTakeBy time audit take).filter isFaultRow)).head?.map AuditLog.createdAt

def alertInTakeBy (audit : List AuditLog) (take : Take) : Option RaisedAlert :=
  (byCreatedAtBy time ((rowsInTakeBy time audit take).filter isAlertRow)).head?.map raisedAlert

/-- The take logic answers as it would by the times of the timestamps. -/
structure SameAnswers (audit : List AuditLog) (runs : List AgentRun) (point : Option JsString) (take : Take) : Prop where
  takeBoundaries : takeBoundaries audit = takeBoundariesBy time audit
  takeAt : takeAt audit point = takeAtBy time audit point
  rowsInTake : rowsInTake audit take = rowsInTakeBy time audit take
  runsInTake : runsInTake runs take = runsInTakeBy time runs take
  newestResetAt : newestResetAt audit = newestResetAtBy time audit
  faultInTake : faultInTake audit take = faultInTakeBy time audit take
  alertInTake : alertInTake audit take = alertInTakeBy time audit take

/-- Every timestamp that the take logic compares is one of them. -/
structure Among (stamps : Set JsString) (audit : List AuditLog) (runs : List AgentRun) (point : Option JsString)
    (take : Take) : Prop where
  rows : ∀ row ∈ audit, row.createdAt ∈ stamps
  runs : ∀ run ∈ runs, run.startedAt ∈ stamps
  point : ∀ stamp ∈ point, stamp ∈ stamps
  startAt : ∀ stamp ∈ take.startAt, stamp ∈ stamps
  endAt : ∀ stamp ∈ take.endAt, stamp ∈ stamps

theorem insertionSort_congr {Row : Type} {before after : Row → Row → Prop} [DecidableRel before] [DecidableRel after]
    {rows : List Row} (agree : ∀ first ∈ rows, ∀ second ∈ rows, before first second ↔ after first second) :
    rows.insertionSort before = rows.insertionSort after := by
  induction rows with
  | nil => rfl
  | cons row rest ih =>
    have inserted {others : List Row} (listed : ∀ other ∈ others, other ∈ rest) :
        others.orderedInsert before row = others.orderedInsert after row := by
      induction others with
      | nil => rfl
      | cons head tail step =>
        have same := agree row List.mem_cons_self head (List.mem_cons_of_mem _ (listed head List.mem_cons_self))
        rw [List.orderedInsert_cons, List.orderedInsert_cons, step fun other member => listed other (List.mem_cons_of_mem _ member)]
        exact if_congr same rfl rfl
    rw [List.insertionSort_cons, List.insertionSort_cons,
      ← ih fun first member second other => agree first (List.mem_cons_of_mem _ member) second (List.mem_cons_of_mem _ other)]
    exact inserted fun other member => (List.mem_insertionSort _).mp member

end Instants

section Agreement

variable {time : JsString → Nat} {stamps : Set JsString} {audit : List AuditLog} {runs : List AgentRun}
  {point : Option JsString} {take : Take}

theorem takeBoundaries_agree (agree : ∀ first ∈ stamps, ∀ second ∈ stamps, first < second ↔ time first < time second)
    (rows : ∀ row ∈ audit, row.createdAt ∈ stamps) : takeBoundaries audit = takeBoundariesBy time audit := by
  have listed : ∀ stamp ∈ ((audit.filter isResetRow).map AuditLog.createdAt).dedup, stamp ∈ stamps := by
    intro stamp member
    obtain ⟨row, present, rfl⟩ := List.mem_map.mp (List.mem_dedup.mp member)
    exact rows row (List.mem_filter.mp present).1
  refine insertionSort_congr fun first member second other => ?_
  rw [← not_lt, ← not_lt, agree second (listed second other) first (listed first member)]

theorem takeAt_agree (agree : ∀ first ∈ stamps, ∀ second ∈ stamps, first < second ↔ time first < time second)
    (among : Among stamps audit runs point take) : takeAt audit point = takeAtBy time audit point := by
  have bounds := takeBoundaries_agree agree among.rows
  have listed : ∀ stamp ∈ takeBoundariesBy time audit, stamp ∈ stamps := by
    intro stamp member
    obtain ⟨row, present, rfl⟩ := List.mem_map.mp (List.mem_dedup.mp ((List.mem_insertionSort _).mp member))
    exact among.rows row (List.mem_filter.mp present).1
  match point with
  | none => rw [takeAt, takeAtBy, currentTake, bounds]
  | some point =>
    have inside := among.point point rfl
    rw [takeAt, takeAtBy, bounds, Take.mk.injEq]
    constructor
    · refine List.find?_congr fun bound member => ?_
      rw [Bool.eq_iff_iff, decide_eq_true_eq, decide_eq_true_eq]
      exact agree bound (listed bound (List.mem_reverse.mp member)) point inside
    · refine List.find?_congr fun bound member => ?_
      rw [Bool.eq_iff_iff, decide_eq_true_eq, decide_eq_true_eq, ← not_lt, ← not_lt, agree bound (listed bound member) point inside]

theorem within_agree (agree : ∀ first ∈ stamps, ∀ second ∈ stamps, first < second ↔ time first < time second)
    (among : Among stamps audit runs point take) {stamp : JsString} (inside : stamp ∈ stamps) :
    take.within stamp = withinBy time take stamp := by
  unfold Take.within withinBy
  congr 1
  · match found : take.startAt with
    | none => rfl
    | some startAt =>
      rw [Option.all_some, Option.all_some, decide_eq_decide]
      exact agree startAt (among.startAt startAt found) stamp inside
  · match found : take.endAt with
    | none => rfl
    | some endAt =>
      rw [Option.all_some, Option.all_some, decide_eq_decide, ← not_lt, ← not_lt]
      rw [agree endAt (among.endAt endAt found) stamp inside]

theorem rowsInTake_agree (agree : ∀ first ∈ stamps, ∀ second ∈ stamps, first < second ↔ time first < time second)
    (among : Among stamps audit runs point take) : rowsInTake audit take = rowsInTakeBy time audit take :=
  List.filter_congr fun row present => within_agree agree among (among.rows row present)

theorem runsInTake_agree (agree : ∀ first ∈ stamps, ∀ second ∈ stamps, first < second ↔ time first < time second)
    (among : Among stamps audit runs point take) : runsInTake runs take = runsInTakeBy time runs take := by
  have filtered : (runs.filter fun run => take.within run.startedAt) = runs.filter fun run => withinBy time take run.startedAt :=
    List.filter_congr fun run present => within_agree agree among (among.runs run present)
  rw [runsInTake, runsInTakeBy, newestFirst, filtered]
  refine insertionSort_congr fun first member second other => ?_
  exact agree second.startedAt (among.runs second (List.mem_filter.mp other).1) first.startedAt
    (among.runs first (List.mem_filter.mp member).1)

theorem newestResetAt_agree (agree : ∀ first ∈ stamps, ∀ second ∈ stamps, first < second ↔ time first < time second)
    (rows : ∀ row ∈ audit, row.createdAt ∈ stamps) : newestResetAt audit = newestResetAtBy time audit := by
  have loop {listed : List AuditLog} {best : Option AuditLog} (listedIn : ∀ row ∈ listed, row.createdAt ∈ stamps)
      (bestIn : ∀ row ∈ best, row.createdAt ∈ stamps) :
      listed.foldl (fun best row => match best with
        | none => some row
        | some best => if best.createdAt < row.createdAt then some row else some best) best =
      listed.foldl (fun best row => match best with
        | none => some row
        | some best => if time best.createdAt < time row.createdAt then some row else some best) best := by
    induction listed generalizing best with
    | nil => rfl
    | cons row rest ih =>
      obtain ⟨rowIn, restIn⟩ := List.forall_mem_cons.mp listedIn
      have known : ∀ other ∈ some row, other.createdAt ∈ stamps := fun other same => Option.some.inj same ▸ rowIn
      match best with
      | none => exact ih restIn known
      | some best =>
        have order := agree best.createdAt (bestIn best rfl) row.createdAt rowIn
        simp only [List.foldl_cons, order]
        refine ih restIn ?_
        split
        · exact known
        · exact bestIn
  exact congrArg (Option.map AuditLog.createdAt) (loop (fun row member => rows row (List.mem_filter.mp member).1) (by simp))

theorem byCreatedAt_agree (agree : ∀ first ∈ stamps, ∀ second ∈ stamps, first < second ↔ time first < time second)
    (rows : ∀ row ∈ audit, row.createdAt ∈ stamps) : byCreatedAt audit = byCreatedAtBy time audit := by
  refine insertionSort_congr fun first member second other => ?_
  rw [← not_lt, ← not_lt, agree second.createdAt (rows second other) first.createdAt (rows first member)]

theorem sameAnswers_of_agree (agree : ∀ first ∈ stamps, ∀ second ∈ stamps, first < second ↔ time first < time second)
    (among : Among stamps audit runs point take) : SameAnswers time audit runs point take where
  takeBoundaries := takeBoundaries_agree agree among.rows
  takeAt := takeAt_agree agree among
  rowsInTake := rowsInTake_agree agree among
  runsInTake := runsInTake_agree agree among
  newestResetAt := newestResetAt_agree agree among.rows
  faultInTake := by
    have kept : ∀ row ∈ (rowsInTakeBy time audit take).filter isFaultRow, row.createdAt ∈ stamps :=
      fun row member => among.rows row (List.mem_filter.mp (List.mem_filter.mp member).1).1
    rw [faultInTake, faultRowsInTake, rowsInTake_agree agree among, byCreatedAt_agree agree kept, faultInTakeBy]
  alertInTake := by
    have kept : ∀ row ∈ (rowsInTakeBy time audit take).filter isAlertRow, row.createdAt ∈ stamps :=
      fun row member => among.rows row (List.mem_filter.mp (List.mem_filter.mp member).1).1
    rw [alertInTake, rowsInTake_agree agree among, byCreatedAt_agree agree kept, alertInTakeBy]

def rowAt (stamp : JsString) : AuditLog where
  id := "row"
  principalId := none
  action := chaosInvokeAction
  extraData := none
  createdAt := stamp

theorem SplitsSecond.misses {whole later : DateTime} (splits : SplitsSecond whole later) :
    ¬ SameAnswers instantOf [rowAt (apiText later)] [] none { startAt := some (apiText whole), endAt := none } := by
  intro same
  obtain ⟨earlier, above⟩ := splits.inverted
  have rows := same.rowsInTake
  rw [← instantOf_apiText whole, ← instantOf_apiText later] at earlier
  simp [rowsInTake, rowsInTakeBy, Take.within, withinBy, rowAt, earlier, lt_asymm above] at rows

theorem SplitsSecond.misses_among {whole later : DateTime} {instants : Set DateTime} (splits : SplitsSecond whole later)
    (wholeIn : whole ∈ instants) (laterIn : later ∈ instants) :
    ¬ ∀ audit runs point take, Among (apiText '' instants) audit runs point take →
      SameAnswers instantOf audit runs point take := by
  intro same
  refine splits.misses (same _ _ _ _ ⟨?_, by simp, by simp, ?_, by simp⟩)
  · intro row member
    rw [List.mem_singleton.mp member]
    exact ⟨later, laterIn, rfl⟩
  · intro stamp known
    rw [← Option.some.inj known]
    exact ⟨whole, wholeIn, rfl⟩

/-- For a set of instants, the take logic on their texts answers by the instants
exactly when the set has no whole second beside another instant of that second. -/
theorem take_logic_by_instants_iff (instants : Set DateTime) :
    (∀ audit runs point take, Among (apiText '' instants) audit runs point take →
      SameAnswers instantOf audit runs point take) ↔
      ∀ whole ∈ instants, ∀ later ∈ instants, ¬ SplitsSecond whole later := by
  constructor
  · intro same whole wholeIn later laterIn splits
    exact splits.misses_among wholeIn laterIn same
  · intro apart audit runs point take among
    refine sameAnswers_of_agree ?_ among
    rintro _ ⟨first, firstIn, rfl⟩ _ ⟨second, secondIn, rfl⟩
    rw [instantOf_apiText, instantOf_apiText]
    exact apiText_lt_iff_micros (apart first firstIn second secondIn) (apart second secondIn first firstIn)

/-- 2026-09-20 at 03:20:09 and the given microseconds. -/
def resetInstant (microsecond : Nat) (small : microsecond < 1000000) : DateTime where
  date := ⟨2026, 9, 20, by decide, by decide, by decide, by decide, by decide, by decide⟩
  hour := 3
  minute := 20
  second := 9
  microsecond
  hour_lt := by decide
  minute_lt := by decide
  second_lt := by decide
  microsecond_lt := small

/-- A row a microsecond after the reset is not in the take that the reset opens. -/
theorem take_logic_misplaces_row :
    (apiText (resetInstant 0 (by decide)) = jsString "2026-09-20T03:20:09Z" ∧
      apiText (resetInstant 1 (by decide)) = jsString "2026-09-20T03:20:09.000001Z" ∧
      rowsInTake [rowAt (jsString "2026-09-20T03:20:09.000001Z")]
        { startAt := some (jsString "2026-09-20T03:20:09Z"), endAt := none } = []) ∧
    ¬ ∀ audit runs point take,
      Among (apiText '' {resetInstant 0 (by decide), resetInstant 1 (by decide)}) audit runs point take →
        SameAnswers instantOf audit runs point take := by
  have splits : SplitsSecond (resetInstant 0 (by decide)) (resetInstant 1 (by decide)) := ⟨rfl, rfl, by decide⟩
  exact ⟨⟨by decide, by decide, List.filter_eq_nil_iff.mpr (by decide)⟩, splits.misses_among (Or.inl rfl) (Or.inr rfl)⟩

end Agreement

end IncidentPlatform.Properties

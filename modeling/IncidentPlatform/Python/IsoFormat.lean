import IncidentPlatform.Dates.Civil
import IncidentPlatform.Python.Text
import Mathlib.Data.List.GetD

namespace IncidentPlatform.Python

open Dates Text

/-! # ISO texts of times

`datetime.isoformat` in UTC and `datetime.fromisoformat`, whose only error is
`ValueError`.  The reader works on the UTF-8 bytes, with a zero behind the last one.
-/

/-- A `datetime`, with its offset from UTC in microseconds where it has one. -/
structure PyDateTime where
  instant : DateTime
  offset : Option Int
deriving DecidableEq

def fractionText (microsecond : Nat) : PyString :=
  if microsecond = 0 then [] else 46 :: fixedWidth digitCode 6 microsecond

/-- `HH:MM:SS`, and the fraction where there is one. -/
def clockText (instant : DateTime) : PyString :=
  fixedWidth digitCode 2 instant.hour ++ 58 :: (fixedWidth digitCode 2 instant.minute ++
    58 :: (fixedWidth digitCode 2 instant.second ++ fractionText instant.microsecond))

def dateText (date : Date) : PyString :=
  fixedWidth digitCode 4 date.year ++ 45 :: (fixedWidth digitCode 2 date.month ++ 45 :: fixedWidth digitCode 2 date.day)

/-- `isoformat` of an instant in UTC. -/
def isoFormat (instant : DateTime) : PyString :=
  dateText instant.date ++ 84 :: (clockText instant ++ pyString "+00:00")

/-- `_find_isoformat_datetime_separator`. -/
def findSeparator (text : PyString) : Option Nat :=
  let char := fun position => text.getD position 0
  if text.length = 7 then some 7
  else if char 4 = 45 then
    if char 5 = 87 then
      if text.length < 8 then none
      else if 8 < text.length ∧ char 8 = 45 then
        if text.length = 9 then none
        else if 10 < text.length ∧ isDigit (char 10) then some 8
        else some 10
      else some 8
    else some 10
  else if char 4 = 87 then
    let position := 7 + ((text.drop 7).takeWhile isDigit).length
    if position < 9 then some position
    else if position % 2 = 0 then some 7
    else some 8
  else some 8

/-- `ord_to_ymd`. -/
def ordToYmd (ordinal : Nat) : Nat × Nat × Nat :=
  let cycles := (ordinal - 1) / 146097
  let inCycle := (ordinal - 1) % 146097
  let centuries := inCycle / 36524
  let inCentury := inCycle % 36524
  let fours := inCentury / 1461
  let inFour := inCentury % 1461
  let years := inFour / 365
  let inYear := inFour % 365
  let year := cycles * 400 + centuries * 100 + fours * 4 + years + 1
  if years = 4 ∨ centuries = 4 then (year - 1, 12, 31)
  else
    let month := (inYear + 50) / 32
    if inYear < beforeMonth (isLeap year) month then
      (year, month - 1, inYear - beforeMonth (isLeap year) (month - 1) + 1)
    else (year, month, inYear - beforeMonth (isLeap year) month + 1)

def firstWeekday (year : Nat) : Nat := (daysBeforeYear year + 1 + 6) % 7

/-- `iso_to_ymd`. -/
def isoToYmd (year week day : Nat) : Option (Nat × Nat × Nat) :=
  let longYear := firstWeekday year = 3 ∨ firstWeekday year = 2 ∧ isLeap year
  if year < 1 ∨ 9999 < year then none
  else if (week = 0 ∨ 53 ≤ week) ∧ ¬ (week = 53 ∧ longYear) then none
  else if day = 0 ∨ 8 ≤ day then none
  else
    let monday := daysBeforeYear year + 1 - firstWeekday year + if 3 < firstWeekday year then 7 else 0
    some (ordToYmd (monday + (week - 1) * 7 + (day - 1)))

def skip (code : Nat) : PyString → Option PyString
  | head :: rest => if head = code then some rest else none
  | [] => none

/-- `parse_isoformat_date`; only the week form looks at where the date ends. -/
def parseIsoDate (separator : Nat) (text : PyString) : Option (Nat × Nat × Nat) := do
  let (year, rest) ← parseDigits 4 text
  let separated := rest.headD 0 = 45
  let rest := if separated then rest.tail else rest
  if rest.headD 0 = 87 then
    let (week, rest) ← parseDigits 2 rest.tail
    if text.length - rest.length < separator then
      let rest ← if separated then skip 45 rest else some rest
      let (day, _) ← parseDigits 1 rest
      isoToYmd year week day
    else isoToYmd year week 1
  else
    let (month, rest) ← parseDigits 2 rest
    let rest ← if separated then skip 45 rest else some rest
    let (day, _) ← parseDigits 2 rest
    some (year, month, day)

/-- What a time of day or an offset writes, and whether text is left behind it. -/
structure ClockFields where
  hour : Nat
  minute : Nat
  second : Nat
  microsecond : Nat
  left : Bool
deriving DecidableEq

def clockFields (values : List Nat) (microsecond : Nat) (left : Bool) : ClockFields where
  hour := values.getD 0 0
  minute := values.getD 1 0
  second := values.getD 2 0
  microsecond := microsecond
  left := left

/-- Up to six digits count, the rest is dropped. -/
def parseFraction (next : Nat) (values : List Nat) (text : PyString) : Option ClockFields := do
  let count := min text.length 6
  let (digits, rest) ← parseDigits count text
  some (clockFields values (digits * 10 ^ (6 - count)) ((rest.dropWhile isDigit).headD next ≠ 0))

/-- `parse_hh_mm_ss_ff` of a text with `next` behind it, from the component before
which so many others may stand.  The first separator decides whether there are any. -/
def parseComponents (next : Nat) : Nat → Option Bool → List Nat → PyString → Option ClockFields
  | 0, _, values, text => parseFraction next values text
  | count + 1, known, values, text => do
    let (value, rest) ← parseDigits 2 text
    let values := values ++ [value]
    let char := rest.headD next
    let separated := known.getD (char = 58)
    if rest.length ≤ 1 then some (clockFields values 0 (char ≠ 0))
    else if separated && char = 58 then parseComponents next count (some separated) values rest.tail
    else if char = 46 ∨ char = 44 then parseFraction next values rest.tail
    else if !separated then parseComponents next count (some separated) values rest
    else none

def parseClock (next : Nat) (text : PyString) : Option ClockFields := parseComponents next 3 none [] text

def startsOffset (code : Nat) : Bool := code = 43 || code = 45 || code = 90

/-- The microseconds of an offset; it counts as none where its whole seconds do. -/
def offsetMicros (negative : Bool) (fields : ClockFields) : Int :=
  let seconds := fields.hour * 3600 + fields.minute * 60 + fields.second
  if seconds = 0 then 0
  else if negative then -(seconds * 1000000 + fields.microsecond : Nat)
  else (seconds * 1000000 + fields.microsecond : Nat)

def dayMicros : Int := 86400 * 1000000

/-- `parse_isoformat_time`, with the timezone that is made of its offset. -/
def parseIsoTime (text : PyString) : Option (ClockFields × Option Int) := do
  let behind := text.dropWhile fun code => !startsOffset code
  let fields ← parseClock (behind.headD 0) (text.takeWhile fun code => !startsOffset code)
  match behind with
  | [] => if fields.left then none else some (fields, none)
  | sign :: rest =>
    if sign = 90 then if rest.headD 0 ≠ 0 then none else some (fields, some 0)
    else
      let offset ← parseClock 0 rest
      let micros := offsetMicros (sign = 45) offset
      if offset.left ∨ micros ≤ -dayMicros ∨ dayMicros ≤ micros then none else some (fields, some micros)

/-- A surrogate at a place where the separator can stand counts as one. -/
def sanitize (text : PyString) : PyString :=
  match [7, 8, 10].find? fun position => isSurrogate (text.getD position 0) with
  | some position => text.set position 84
  | none => text

def utf8 (text : PyString) : PyString := (encodeUtf8 text).map UInt8.toNat

/-- The bytes of a character, by its first one. -/
def charWidth (byte : Nat) : Nat :=
  if byte < 128 then 1
  else if byte / 16 = 14 then 3
  else if byte / 16 = 15 then 4
  else 2

def dateTimeOf (year month day : Nat) (fields : ClockFields) : Option DateTime :=
  if date : (1 ≤ year ∧ year ≤ 9999) ∧ (1 ≤ month ∧ month ≤ 12) ∧ 1 ≤ day ∧ day ≤ daysInMonth year month then
    if time : fields.hour < 24 ∧ fields.minute < 60 ∧ fields.second < 60 ∧ fields.microsecond < 1000000 then
      some ⟨⟨year, month, day, date.1.1, date.1.2, date.2.1.1, date.2.1.2, date.2.2.1, date.2.2.2⟩,
        fields.hour, fields.minute, fields.second, fields.microsecond, time.1, time.2.1, time.2.2.1, time.2.2.2⟩
    else none
  else none

/-- `datetime.fromisoformat`. -/
def fromIsoFormat (text : PyString) : Option PyDateTime := do
  let text := sanitize text
  if text.length < 7 ∨ text.any isSurrogate then none
  else
    let bytes := utf8 text
    let separator ← findSeparator bytes
    let (year, month, day) ← parseIsoDate separator bytes
    let (fields, offset) ←
      if separator < bytes.length then parseIsoTime (bytes.drop (separator + charWidth (bytes.getD separator 0)))
      else some (clockFields [] 0 false, none)
    let instant ← dateTimeOf year month day fields
    some ⟨instant, offset⟩

section RoundTrip

variable {instant : DateTime} {width value next : Nat} {rest : PyString}

theorem parse_two {value : Nat} (small : value < 100) (rest : PyString) :
    parseDigits 2 (fixedWidth digitCode 2 value ++ rest) = some (value, rest) :=
  parseDigits_fixedWidth small rest

theorem year_lt (date : Date) : date.year < 10 ^ 4 := Nat.lt_succ_of_le date.year_le

theorem month_lt (date : Date) : date.month < 100 := Nat.lt_of_le_of_lt date.month_le (by decide)

theorem day_lt (date : Date) : date.day < 100 :=
  Nat.lt_of_le_of_lt (Nat.le_trans date.day_le (Date.monthLength_le _ _)) (by decide)

theorem headD_fixedWidth_ne {code : Nat} (other : isDigit code = false) :
    (fixedWidth digitCode (width + 1) value ++ rest).headD 0 ≠ code := by
  obtain ⟨head, tail, shape⟩ := List.exists_cons_of_length_eq_add_one (length_fixedWidth digitCode (width + 1) value)
  obtain ⟨number, small, equal⟩ := mem_fixedWidth (shape ▸ List.mem_cons_self : head ∈ fixedWidth digitCode (width + 1) value)
  rw [shape, List.cons_append, List.headD_cons, equal]
  intro same
  have digit := isDigit_digitCode small
  rw [same, other] at digit
  cases digit

theorem parseIsoDate_dateText (date : Date) (rest : PyString) :
    parseIsoDate 10 (dateText date ++ rest) = some (date.year, date.month, date.day) := by
  have year := parseDigits_fixedWidth (year_lt date)
    (45 :: (fixedWidth digitCode 2 date.month ++ 45 :: (fixedWidth digitCode 2 date.day ++ rest)))
  have month : (fixedWidth digitCode 2 date.month ++ 45 :: (fixedWidth digitCode 2 date.day ++ rest)).headD 0 ≠ 87 :=
    headD_fixedWidth_ne rfl
  unfold parseIsoDate dateText
  simp only [List.append_assoc, List.cons_append, year, Option.bind_eq_bind, Option.bind_some, List.headD_cons,
    List.tail_cons, if_true, month, if_false, parse_two (month_lt date), skip, parse_two (day_lt date)]

/-- The fields of an instant, with the sign of an offset behind them. -/
def instantFields (instant : DateTime) : ClockFields where
  hour := instant.hour
  minute := instant.minute
  second := instant.second
  microsecond := instant.microsecond
  left := true

theorem parseFraction_fixedWidth (nonzero : next ≠ 0) (small : value < 10 ^ 6) (values : List Nat) :
    parseFraction next values (fixedWidth digitCode 6 value) = some (clockFields values value true) := by
  have digits := parseDigits_fixedWidth small []
  rw [List.append_nil] at digits
  unfold parseFraction
  simp [digits, nonzero]

theorem parseClock_clockText (nonzero : next ≠ 0) (instant : DateTime) :
    parseClock next (clockText instant) = some (instantFields instant) := by
  have hour := parse_two (Nat.lt_trans instant.hour_lt (by decide)) (58 :: (fixedWidth digitCode 2 instant.minute ++
    58 :: (fixedWidth digitCode 2 instant.second ++ fractionText instant.microsecond)))
  have minute := parse_two (Nat.lt_trans instant.minute_lt (by decide))
    (58 :: (fixedWidth digitCode 2 instant.second ++ fractionText instant.microsecond))
  have second := parse_two (Nat.lt_trans instant.second_lt (by decide)) (fractionText instant.microsecond)
  unfold parseClock clockText
  simp only [parseComponents, hour, minute, second, Option.bind_eq_bind, Option.bind_some, List.headD_cons, List.tail_cons,
    List.length_cons, List.length_append, length_fixedWidth, Option.getD_none, Option.getD_some]
  by_cases whole : instant.microsecond = 0
  · simp [fractionText, whole, nonzero, clockFields, instantFields]
  · have fraction := parseFraction_fixedWidth nonzero instant.microsecond_lt [instant.hour, instant.minute, instant.second]
    simp [fractionText, whole, fraction, clockFields, instantFields]

theorem plain_clockText (instant : DateTime) : ∀ code ∈ clockText instant, startsOffset code = false ∧ 43 ≤ code ∧ code ≤ 84 := by
  have digit {width value code : Nat} (member : code ∈ fixedWidth digitCode width value) : startsOffset code = false ∧ 43 ≤ code ∧ code ≤ 84 := by
    obtain ⟨number, small, rfl⟩ := mem_fixedWidth member
    unfold digitCode startsOffset
    simp
    omega
  have fraction : ∀ code ∈ fractionText instant.microsecond, startsOffset code = false ∧ 43 ≤ code ∧ code ≤ 84 := by
    intro code member
    unfold fractionText at member
    split at member
    case isTrue => cases member
    case isFalse =>
      rcases List.mem_cons.mp member with rfl | inside
      · exact ⟨rfl, by decide⟩
      · exact digit inside
  intro code member
  simp only [clockText, List.mem_append, List.mem_cons] at member
  rcases member with hour | rfl | minute | rfl | second | rest
  · exact digit hour
  · exact ⟨rfl, by decide⟩
  · exact digit minute
  · exact ⟨rfl, by decide⟩
  · exact digit second
  · exact fraction code rest

theorem parseIsoTime_clockText (instant : DateTime) :
    parseIsoTime (clockText instant ++ pyString "+00:00") = some (instantFields instant, some 0) := by
  have plain : ∀ code ∈ clockText instant, (!startsOffset code) = true := by
    intro code member
    rw [(plain_clockText instant code member).1]
    rfl
  have behind : (clockText instant ++ pyString "+00:00").dropWhile (fun code => !startsOffset code) = pyString "+00:00" := by
    rw [List.dropWhile_append_of_pos plain]
    rfl
  have before : (clockText instant ++ pyString "+00:00").takeWhile (fun code => !startsOffset code) = clockText instant := by
    rw [List.takeWhile_append_of_pos plain]
    exact List.append_nil _
  unfold parseIsoTime
  have sign : pyString "+00:00" = 43 :: pyString "00:00" := rfl
  have zero : parseClock 0 (pyString "00:00") = some (clockFields [0, 0] 0 false) := by decide
  dsimp only
  rw [behind, before, sign, List.headD_cons, parseClock_clockText (by decide)]
  simp [zero, clockFields, offsetMicros, dayMicros]

/-- From the plus sign to the letter. -/
theorem isoFormat_range (instant : DateTime) : ∀ code ∈ isoFormat instant, 43 ≤ code ∧ code ≤ 84 := by
  have digit {width value code : Nat} (member : code ∈ fixedWidth digitCode width value) : 43 ≤ code ∧ code ≤ 84 := by
    obtain ⟨number, small, rfl⟩ := mem_fixedWidth member
    unfold digitCode
    omega
  intro code member
  simp only [isoFormat, dateText, List.mem_append, List.mem_cons] at member
  rcases member with (year | rfl | month | rfl | day) | rfl | clock | offset
  · exact digit year
  · decide
  · exact digit month
  · decide
  · exact digit day
  · decide
  · exact (plain_clockText instant code clock).2
  · exact (by decide : ∀ code ∈ pyString "+00:00", 43 ≤ code ∧ code ≤ 84) code offset

theorem ascii_isoFormat (instant : DateTime) : IsAscii (isoFormat instant) :=
  fun code member => Nat.lt_of_le_of_lt (isoFormat_range instant code member).2 (by decide)

theorem not_isSurrogate_of_ascii {text : PyString} (ascii : IsAscii text) : ∀ code ∈ text, isSurrogate code = false := by
  intro code member
  have small := ascii code member
  unfold isSurrogate
  simp
  omega

theorem sanitize_of_ascii {text : PyString} (ascii : IsAscii text) : sanitize text = text := by
  have none : [7, 8, 10].find? (fun position => isSurrogate (text.getD position 0)) = none := by
    rw [List.find?_eq_none]
    intro position _
    rw [List.getD_eq_getElem?_getD]
    cases found : text[position]? with
    | none => decide
    | some code =>
      rw [Option.getD_some, not_isSurrogate_of_ascii ascii code (List.mem_of_getElem? found)]
      decide
  rw [sanitize, none]

theorem utf8_of_ascii {text : PyString} (ascii : IsAscii text) : utf8 text = text := by
  unfold utf8 encodeUtf8
  rw [List.map_flatMap]
  induction text with
  | nil => rfl
  | cons code rest ih =>
    obtain ⟨small, others⟩ := List.forall_mem_cons.mp ascii
    rw [List.flatMap_cons, ih others, if_pos small]
    have number : (UInt8.ofNat code).toNat = code := by
      rw [UInt8.toNat_ofNat']
      omega
    simp [number]

theorem length_dateText (date : Date) : (dateText date).length = 10 := by simp [dateText]

theorem findSeparator_isoFormat (instant : DateTime) : findSeparator (isoFormat instant) = some 10 := by
  have long : (isoFormat instant).length ≠ 7 := by
    rw [isoFormat, List.length_append, length_dateText]
    omega
  have fifth : (isoFormat instant).getD 4 0 = 45 := by
    rw [isoFormat, dateText, List.append_assoc, List.getD_append_right _ _ _ _ (by simp), length_fixedWidth]
    rfl
  have sixth : (isoFormat instant).getD 5 0 ≠ 87 := by
    have digit : (fixedWidth digitCode 2 instant.date.month ++ 45 :: (fixedWidth digitCode 2 instant.date.day ++
        84 :: (clockText instant ++ pyString "+00:00"))).headD 0 ≠ 87 := headD_fixedWidth_ne rfl
    rw [isoFormat, dateText, List.append_assoc, List.getD_append_right _ _ _ _ (by simp), length_fixedWidth,
      List.cons_append, List.append_assoc]
    rw [List.headD_eq_head?_getD, List.head?_eq_getElem?] at digit
    simpa [List.getD_eq_getElem?_getD] using digit
  unfold findSeparator
  dsimp only
  rw [if_neg long, if_pos fifth, if_neg sixth]

theorem dateTimeOf_fields (instant : DateTime) :
    dateTimeOf instant.date.year instant.date.month instant.date.day (instantFields instant) = some instant := by
  unfold dateTimeOf
  rw [dif_pos ⟨⟨instant.date.year_pos, instant.date.year_le⟩, ⟨instant.date.month_pos, instant.date.month_le⟩,
      instant.date.day_pos, instant.date.day_le⟩,
    dif_pos ⟨instant.hour_lt, instant.minute_lt, instant.second_lt, instant.microsecond_lt⟩]
  rfl

/-- What `isoformat` writes reads back as the same instant in UTC. -/
theorem fromIsoFormat_isoFormat (instant : DateTime) : fromIsoFormat (isoFormat instant) = some ⟨instant, some 0⟩ := by
  have ascii := ascii_isoFormat instant
  have shape : isoFormat instant = dateText instant.date ++ 84 :: (clockText instant ++ pyString "+00:00") := rfl
  have length : 10 < (isoFormat instant).length := by
    rw [shape, List.length_append, length_dateText, List.length_cons]
    omega
  have readable : ¬ ((isoFormat instant).length < 7 ∨ (isoFormat instant).any isSurrogate = true) := by
    rintro (short | surrogate)
    · omega
    · obtain ⟨code, member, found⟩ := List.any_eq_true.mp surrogate
      rw [not_isSurrogate_of_ascii ascii code member] at found
      cases found
  have tee : (isoFormat instant).getD 10 0 = 84 := by
    rw [shape, List.getD_append_right _ _ _ _ (by rw [length_dateText]), length_dateText]
    rfl
  have date : parseIsoDate 10 (isoFormat instant) = some (instant.date.year, instant.date.month, instant.date.day) :=
    parseIsoDate_dateText instant.date _
  have behind : (isoFormat instant).drop (10 + charWidth 84) = clockText instant ++ pyString "+00:00" := by
    rw [shape, List.drop_append, length_dateText, List.drop_of_length_le (by rw [length_dateText]; decide)]
    rfl
  unfold fromIsoFormat
  rw [sanitize_of_ascii ascii]
  dsimp only
  rw [if_neg readable, utf8_of_ascii ascii, findSeparator_isoFormat]
  simp only [Option.bind_eq_bind, Option.bind_some, date, if_pos length, tee, behind, parseIsoTime_clockText,
    dateTimeOf_fields]

end RoundTrip

end IncidentPlatform.Python

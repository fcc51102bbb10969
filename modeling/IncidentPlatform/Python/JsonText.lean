import IncidentPlatform.Python.JsonLimits
import Mathlib.Data.List.DropRight
import Mathlib.Data.Nat.Log
import Mathlib.Data.Rat.Floor

namespace IncidentPlatform.Python

open Numbers

/-! # Writing JSON

`json.dumps` with the encoder of the C accelerator, under the limits of the reader.
-/

def hexDigit (number : Nat) : Nat := if number < 10 then 48 + number else 87 + number

def escapeUnit (unit : Nat) : PyString :=
  [92, 117, hexDigit (unit / 4096), hexDigit (unit / 256 % 16), hexDigit (unit / 16 % 16), hexDigit (unit % 16)]

def isPlain (code : Nat) : Bool := 32 ≤ code && code ≤ 126 && code ≠ 34 && code ≠ 92

def escapeCode (code : Nat) : PyString :=
  if isPlain code then [code]
  else if code = 34 ∨ code = 92 then [92, code]
  else if code = 8 then [92, 98]
  else if code = 12 then [92, 102]
  else if code = 10 then [92, 110]
  else if code = 13 then [92, 114]
  else if code = 9 then [92, 116]
  else if code < 65536 then escapeUnit code
  else escapeUnit (55296 + (code - 65536) / 1024) ++ escapeUnit (56320 + (code - 65536) % 1024)

/-- `py_encode_basestring_ascii`. -/
def quoted (text : PyString) : PyString := 34 :: (text.flatMap escapeCode ++ [34])

/-- Where the decimal point of a positive value stands behind its first digit's place. -/
def decimalPoint (value : ℚ) : Int :=
  if 1 ≤ value then Nat.log 10 ⌊value⌋.toNat + 1 else 1 - Nat.clog 10 ⌈1 / value⌉.toNat

/-- The decimal of `count` digits that reads as the double, of two the closer one. -/
def digitsFor (value : ℚ) (count : Nat) : Option Nat :=
  let point := decimalPoint value
  let scaled := value * 10 ^ (count - point)
  let below := ⌊scaled⌋.toNat
  let reads := fun (digits : Nat) => toDouble (digits * 10 ^ (point - count)) = .finite value
  if reads below ∧ reads (below + 1) then some (roundHalfEven scaled).toNat
  else if reads below then some below
  else if reads (below + 1) then some (below + 1)
  else none

/-- The digits of the shortest decimal that reads as the double, and where its point is. -/
def shortest (value : ℚ) : PyString × Int :=
  let found := (List.range 17).findSome? fun fewer => (digitsFor value (fewer + 1)).map (fewer + 1, ·)
  let (count, digits) := found.getD (1, 0)
  ((decimal digits).rdropWhile (· = 48), decimalPoint value + ((decimal digits).length - count))

def zeros (count : Nat) : PyString := List.replicate count 48

/-- `repr` of a positive double. -/
def reprPositive (value : ℚ) : PyString :=
  let (digits, point) := shortest value
  if point ≤ -4 ∨ 16 < point then
    let exponent := decimal (point - 1).natAbs
    digits.take 1 ++ (if digits.length = 1 then [] else 46 :: digits.drop 1) ++ [101, if point < 1 then 45 else 43] ++
      zeros (2 - exponent.length) ++ exponent
  else if point ≤ 0 then [48, 46] ++ zeros (-point).toNat ++ digits
  else if digits.length ≤ point then digits ++ zeros (point - digits.length).toNat ++ [46, 48]
  else digits.take point.toNat ++ 46 :: digits.drop point.toNat

/-- `encoder_encode_float`. -/
def encodeFloat : PyFloat → PyString
  | .negativeZero => pyString "-0.0"
  | .double .nan => pyString "NaN"
  | .double (.infinite false) => pyString "Infinity"
  | .double (.infinite true) => pyString "-Infinity"
  | .double (.finite value) =>
    if value = 0 then pyString "0.0"
    else if value < 0 then 45 :: reprPositive (-value)
    else reprPositive value

def intText (value : Int) : PyString := if value < 0 then 45 :: decimal value.natAbs else decimal value.natAbs

/-- `repr` of an `int`. -/
def encodeInt (digits : Nat) (value : Int) : Except JsonError PyString :=
  if digits < (decimal value.natAbs).length then .error .tooManyDigits else .ok (intText value)

/-- The parts with `", "` between them. -/
def joined : List PyString → PyString
  | [] => []
  | [part] => part
  | part :: next :: rest => part ++ 44 :: 32 :: joined (next :: rest)

mutual

/-- `encoder_listencode_obj` where containers may still nest `depth` deep. -/
def encode (digits : Nat) : PyValue → (depth : Nat) → Except JsonError PyString
  | .none, _ => .ok (pyString "null")
  | .bool true, _ => .ok (pyString "true")
  | .bool false, _ => .ok (pyString "false")
  | .int value, _ => encodeInt digits value
  | .float value, _ => .ok (encodeFloat value)
  | .string text, _ => .ok (quoted text)
  | .array _, 0 => .error .tooDeep
  | .array items, depth + 1 => (encodeItems digits items depth).map fun parts => 91 :: (joined parts ++ [93])
  | .object _, 0 => .error .tooDeep
  | .object fields, depth + 1 => (encodeFields digits fields depth).map fun parts => 123 :: (joined parts ++ [125])

def encodeItems (digits : Nat) : List PyValue → (depth : Nat) → Except JsonError (List PyString)
  | [], _ => .ok []
  | item :: rest, depth => do
    let part ← encode digits item depth
    let parts ← encodeItems digits rest depth
    .ok (part :: parts)

def encodeFields (digits : Nat) : List (PyString × PyValue) → (depth : Nat) → Except JsonError (List PyString)
  | [], _ => .ok []
  | (key, value) :: rest, depth => do
    let part ← encode digits value depth
    let parts ← encodeFields digits rest depth
    .ok ((quoted key ++ 58 :: 32 :: part) :: parts)

end

/-- `json.dumps`. -/
def dumps (limits : Limits) (value : PyValue) : Except JsonError PyString := encode limits.digits value limits.depth

section Written

variable {α : Type} {digits depth : Nat} {P : α → Prop}

def Encodes (digits depth : Nat) (value : PyValue) : Prop := ∃ text, encode digits value depth = .ok text

theorem encodeItems_ok {items : List PyValue} :
    (∃ parts, encodeItems digits items depth = .ok parts) ↔ ∀ item ∈ items, Encodes digits depth item := by
  induction items with
  | nil => exact ⟨nofun, fun _ => ⟨[], by rw [encodeItems]⟩⟩
  | cons item rest ih =>
    rw [List.forall_mem_cons, ← ih, encodeItems]
    unfold Encodes
    cases encode digits item depth with
    | error error => exact ⟨nofun, nofun⟩
    | ok part =>
      cases encodeItems digits rest depth with
      | error error => exact ⟨nofun, nofun⟩
      | ok parts => exact ⟨fun _ => ⟨⟨part, rfl⟩, ⟨parts, rfl⟩⟩, fun _ => ⟨part :: parts, rfl⟩⟩

theorem encodeFields_ok {fields : List (PyString × PyValue)} (each : ∀ pair ∈ fields, Encodes digits depth pair.2) :
    ∃ parts, encodeFields digits fields depth = .ok parts := by
  induction fields with
  | nil => exact ⟨[], by rw [encodeFields]⟩
  | cons pair rest ih =>
    obtain ⟨⟨part, first⟩, others⟩ := List.forall_mem_cons.mp each
    obtain ⟨parts, tail⟩ := ih others
    refine ⟨(quoted pair.1 ++ 58 :: 32 :: part) :: parts, ?_⟩
    rw [encodeFields, first, tail]
    rfl

theorem encodes_array {items : List PyValue} :
    Encodes digits (depth + 1) (.array items) ↔ ∀ item ∈ items, Encodes digits depth item := by
  rw [← encodeItems_ok, Encodes]
  simp only [encode]
  cases encodeItems digits items depth with
  | error error => exact ⟨nofun, nofun⟩
  | ok parts => exact ⟨fun _ => ⟨parts, rfl⟩, fun _ => ⟨_, rfl⟩⟩

theorem encodes_object {fields : List (PyString × PyValue)} (each : ∀ pair ∈ fields, Encodes digits depth pair.2) :
    Encodes digits (depth + 1) (.object fields) := by
  obtain ⟨parts, written⟩ := encodeFields_ok each
  refine ⟨123 :: (joined parts ++ [125]), ?_⟩
  rw [encode, written]
  rfl

theorem scanList_forall {close fuel : Nat} {scan : PyString → Scanned α}
    (each : ∀ text value rest, scan text = .ok (value, rest) → P value) {text rest : PyString} {elements : List α}
    (scanned : scanList close scan fuel text = .ok (elements, rest)) : ∀ element ∈ elements, P element := by
  induction fuel generalizing text rest elements with
  | zero => cases scanned
  | succ fuel ih =>
    rw [scanList] at scanned
    split at scanned
    case h_1 => cases scanned
    case h_2 element behind first =>
      split at scanned
      case h_1 => cases scanned
      case h_2 code following spaces =>
        split at scanned
        · cases scanned
          exact List.forall_mem_singleton.mpr (each _ _ _ first)
        · split at scanned
          · split at scanned
            case h_1 => cases scanned
            case h_2 others =>
              cases scanned
              exact List.forall_mem_cons.mpr ⟨each _ _ _ first, ih others⟩
          · cases scanned

theorem scanEnclosed_forall {close : Nat} {scan : PyString → Scanned α}
    (each : ∀ text value rest, scan text = .ok (value, rest) → P value) {text rest : PyString} {elements : List α}
    (scanned : scanEnclosed close scan text = .ok (elements, rest)) : ∀ element ∈ elements, P element := by
  unfold scanEnclosed at scanned
  split at scanned
  · cases scanned
    exact nofun
  · exact scanList_forall each scanned

theorem mem_setField {key : PyString} {value : PyValue} {fields : List (PyString × PyValue)} {pair : PyString × PyValue}
    (member : pair ∈ setField key value fields) : pair = (key, value) ∨ pair ∈ fields := by
  induction fields with
  | nil => exact Or.inl (List.mem_singleton.mp member)
  | cons first rest ih =>
    rw [setField] at member
    split at member
    · rcases List.mem_cons.mp member with same | inside
      · exact Or.inl same
      · exact Or.inr (List.mem_cons_of_mem _ inside)
    · rcases List.mem_cons.mp member with same | inside
      · exact Or.inr (same ▸ List.mem_cons_self)
      · exact (ih inside).imp_right (List.mem_cons_of_mem _)

theorem mem_dictOf {pairs : List (PyString × PyValue)} {pair : PyString × PyValue} (member : pair ∈ dictOf pairs) :
    pair ∈ pairs := by
  have fold (pairs fields : List (PyString × PyValue))
      (member : pair ∈ pairs.foldl (fun fields pair => setField pair.1 pair.2 fields) fields) : pair ∈ pairs ∨ pair ∈ fields := by
    induction pairs generalizing fields with
    | nil => exact Or.inr member
    | cons first rest ih =>
      rcases ih _ member with later | now
      · exact Or.inl (List.mem_cons_of_mem _ later)
      · rcases mem_setField now with rfl | before
        · exact Or.inl List.mem_cons_self
        · exact Or.inr before
  rcases fold pairs [] member with inside | nothing
  · exact inside
  · cases nothing

theorem readDigits_lt (text : PyString) (all : ∀ code ∈ text, isDigit code = true) : readDigits text < 10 ^ text.length := by
  induction text using List.reverseRecOn with
  | nil => decide
  | append_singleton front code ih =>
    have digit := all code (by simp)
    have shorter := ih fun code member => all code (by simp [member])
    unfold isDigit at digit
    simp only [Bool.and_eq_true, decide_eq_true_eq] at digit
    rw [readDigits_concat, List.length_append, List.length_singleton, Nat.pow_succ]
    omega

theorem length_decimal_le {value bound : Nat} (positive : 0 < bound) (small : value < 10 ^ bound) : (decimal value).length ≤ bound := by
  rw [decimal, List.length_map]
  exact (Nat.length_toDigits_le_iff (by decide) positive).mpr small

theorem encodes_constant : ∀ constant ∈ constants, Encodes digits depth constant.2 := by
  intro constant member
  simp only [constants, List.mem_cons, List.not_mem_nil, or_false] at member
  rcases member with rfl | rfl | rfl | rfl | rfl | rfl <;> exact ⟨_, by rw [encode]⟩

theorem encode_int {value : Int} (short : (decimal value.natAbs).length ≤ digits) :
    encode digits (.int value) depth = .ok (intText value) := by
  rw [encode, encodeInt, if_neg (by omega)]

theorem isDigit_scanWhole (text : PyString) : ∀ code ∈ scanWhole text, isDigit code = true := by
  unfold scanWhole
  split
  · intro code member
    rw [List.mem_singleton.mp member]
    rfl
  · intro code member
    exact List.mem_takeWhile_imp member

theorem encodes_numberValue {text : PyString} {value : PyValue} (read : (numberParts text).1.value digits = .ok value) :
    Encodes digits depth value := by
  unfold NumberParts.value at read
  split at read
  · cases read
  · rename_i nonempty
    split at read
    · split at read
      · cases read
      · rename_i within
        cases read
        have small := readDigits_lt (numberParts text).1.whole (isDigit_scanWhole _)
        have short := length_decimal_le (List.length_pos_iff.mpr nonempty) small
        have magnitude : (if (numberParts text).1.negative = true then -(readDigits (numberParts text).1.whole : Int)
            else readDigits (numberParts text).1.whole).natAbs = readDigits (numberParts text).1.whole := by
          split <;> simp
        exact ⟨_, encode_int (by rw [magnitude]; omega)⟩
    · cases read
      exact ⟨_, by rw [encode]⟩

theorem scanWith_encodes {array object : PyString → Scanned PyValue}
    (arrays : ∀ text value rest, array text = .ok (value, rest) → Encodes digits depth value)
    (objects : ∀ text value rest, object text = .ok (value, rest) → Encodes digits depth value) {text rest : PyString} {value : PyValue}
    (scanned : scanWith digits array object text = .ok (value, rest)) : Encodes digits depth value := by
  unfold scanWith at scanned
  split at scanned
  · split at scanned
    · cases scanned
    · cases scanned
      exact ⟨_, by rw [encode]⟩
  · exact arrays _ _ _ scanned
  · exact objects _ _ _ scanned
  · split at scanned
    case h_1 found =>
      cases scanned
      obtain ⟨constant, member, follows⟩ := List.exists_of_findSome?_eq_some found
      obtain ⟨_, _, same⟩ := Option.map_eq_some_iff.mp follows
      cases same
      exact encodes_constant constant member
    case h_2 =>
      unfold scanNumber at scanned
      cases read : (numberParts _).1.value digits with
      | error error => rw [read] at scanned; cases scanned
      | ok number =>
        rw [read] at scanned
        cases scanned
        exact encodes_numberValue read

theorem scanArray_encodes {scan : PyString → Scanned PyValue}
    (each : ∀ text value rest, scan text = .ok (value, rest) → Encodes digits depth value) {text rest : PyString} {value : PyValue}
    (scanned : scanArray scan text = .ok (value, rest)) : Encodes digits (depth + 1) value := by
  unfold scanArray at scanned
  cases enclosed : scanEnclosed 93 scan text with
  | error error => rw [enclosed] at scanned; cases scanned
  | ok result =>
    rw [enclosed] at scanned
    cases scanned
    exact encodes_array.mpr (scanEnclosed_forall each enclosed)

theorem scanObject_encodes {scan : PyString → Scanned PyValue}
    (each : ∀ text value rest, scan text = .ok (value, rest) → Encodes digits depth value) {text rest : PyString} {value : PyValue}
    (scanned : scanObject scan text = .ok (value, rest)) : Encodes digits (depth + 1) value := by
  have fields (text : PyString) (pair : PyString × PyValue) (rest : PyString) (found : scanField scan text = .ok (pair, rest)) :
      Encodes digits depth pair.2 := by
    unfold scanField at found
    split at found
    · split at found
      · cases found
      · split at found
        · cases inner : scan (skipSpace _) with
          | error error => rw [inner] at found; cases found
          | ok result =>
            rw [inner] at found
            cases found
            exact each _ _ _ inner
        · cases found
    · cases found
  unfold scanObject at scanned
  cases enclosed : scanEnclosed 125 (scanField scan) text with
  | error error => rw [enclosed] at scanned; cases scanned
  | ok result =>
    rw [enclosed] at scanned
    cases scanned
    exact encodes_object fun pair member => scanEnclosed_forall fields enclosed pair (mem_dictOf member)

theorem scanOnce_encodes {text rest : PyString} {value : PyValue} (scanned : scanOnce digits depth text = .ok (value, rest)) :
    Encodes digits depth value := by
  induction depth generalizing text rest value with
  | zero => exact scanWith_encodes (fun _ _ _ failed => by cases failed) (fun _ _ _ failed => by cases failed) scanned
  | succ depth ih =>
    exact scanWith_encodes (fun _ _ _ => scanArray_encodes fun _ _ _ => ih) (fun _ _ _ => scanObject_encodes fun _ _ _ => ih) scanned

/-- What `json.loads` has read, `json.dumps` writes. -/
theorem loads_encodes {limits : Limits} {text : PyString} {value : PyValue} (read : loads limits text = .ok value) :
    Encodes limits.digits limits.depth value := by
  unfold loads at read
  split at read
  · cases read
  · split at read
    case h_1 => cases read
    case h_2 scanned =>
      split at read
      · cases read
        exact scanOnce_encodes scanned
      · cases read

end Written

end IncidentPlatform.Python

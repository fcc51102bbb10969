import IncidentPlatform.Numbers.Double
import IncidentPlatform.Python.Text

namespace IncidentPlatform.Python

open Numbers

/-! # Reading JSON

`json.loads` with the scanner of the C accelerator, over the text that is left.  The
interpreter limits how deep containers nest and how many digits an integer has.
-/

/-- A `float`, of which the zero with a sign stands apart. -/
inductive PyFloat where
  | double (value : Double)
  | negativeZero
deriving DecidableEq

/-- What `json.loads` builds.  A dictionary keeps its keys in the order in which they
came first. -/
inductive PyValue where
  | none
  | bool (value : Bool)
  | int (value : Int)
  | float (value : PyFloat)
  | string (text : PyString)
  | array (items : List PyValue)
  | object (fields : List (PyString × PyValue))

inductive JsonError where
  /-- `JSONDecodeError`. -/
  | malformed
  /-- The `ValueError` of an integer with too many digits. -/
  | tooManyDigits
  /-- `RecursionError`. -/
  | tooDeep
deriving DecidableEq

/-- `dict.get`. -/
def field (key : String) (fields : List (PyString × PyValue)) : PyValue :=
  (fields.lookup (pyString key)).getD .none

def setField (key : PyString) (value : PyValue) : List (PyString × PyValue) → List (PyString × PyValue)
  | [] => [(key, value)]
  | (other, old) :: rest => if other = key then (key, value) :: rest else (other, old) :: setField key value rest

/-- The dictionary of the pairs, of which the last one for a key counts. -/
def dictOf (pairs : List (PyString × PyValue)) : List (PyString × PyValue) :=
  pairs.foldl (fun fields pair => setField pair.1 pair.2 fields) []

/-- A value and the text behind it. -/
abbrev Scanned (α : Type) := Except JsonError (α × PyString)

def isJsonSpace (code : Nat) : Bool := code = 32 || code = 9 || code = 10 || code = 13

def skipSpace (text : PyString) : PyString := text.dropWhile isJsonSpace

def hexValue (code : Nat) : Option Nat :=
  if isDigit code then some (code - 48)
  else if 97 ≤ code ∧ code ≤ 102 then some (code - 87)
  else if 65 ≤ code ∧ code ≤ 70 then some (code - 55)
  else none

def hexUnit (first second third fourth : Nat) : Option Nat := do
  some ((← hexValue first) * 4096 + (← hexValue second) * 256 + (← hexValue third) * 16 + (← hexValue fourth))

/-- What the character behind a backslash stands for, `u` apart. -/
def escapedCode (code : Nat) : Option Nat :=
  if code = 34 ∨ code = 92 ∨ code = 47 then some code
  else if code = 98 then some 8
  else if code = 102 then some 12
  else if code = 110 then some 10
  else if code = 114 then some 13
  else if code = 116 then some 9
  else none

def isHighSurrogate (code : Nat) : Bool := 55296 ≤ code && code ≤ 56319
def isLowSurrogate (code : Nat) : Bool := 56320 ≤ code && code ≤ 57343

def joinSurrogates (high low : Nat) : Nat := 65536 + (high - 55296) * 1024 + (low - 56320)

def consCode (code : Nat) (result : Option (PyString × PyString)) : Option (PyString × PyString) :=
  result.map fun scanned => (code :: scanned.1, scanned.2)

/-- `scanstring`, from behind the opening quote. -/
def scanString : PyString → Option (PyString × PyString)
  | [] => none
  | 34 :: rest => some ([], rest)
  | 92 :: 117 :: a :: b :: c :: d :: rest =>
    match hexUnit a b c d with
    | none => none
    | some unit =>
      match rest with
      | 92 :: 117 :: e :: f :: g :: h :: rest' =>
        match hexUnit e f g h with
        | none => none
        | some low =>
          if isHighSurrogate unit && isLowSurrogate low then consCode (joinSurrogates unit low) (scanString rest')
          else consCode unit (scanString (92 :: 117 :: e :: f :: g :: h :: rest'))
      | rest => consCode unit (scanString rest)
  | 92 :: escape :: rest =>
    match escapedCode escape with
    | none => none
    | some code => consCode code (scanString rest)
  | code :: rest => if code < 32 ∨ code = 92 then none else consCode code (scanString rest)

/-- What follows `word`, where `text` starts with it. -/
def after (word text : PyString) : Option PyString :=
  if word.isPrefixOf text then some (text.drop word.length) else none

def constants : List (PyString × PyValue) :=
  [(pyString "null", .none), (pyString "true", .bool true), (pyString "false", .bool false), (pyString "NaN", .float (.double .nan)),
    (pyString "Infinity", .float (.double (.infinite false))), (pyString "-Infinity", .float (.double (.infinite true)))]

def scanConstant (text : PyString) : Option (PyValue × PyString) :=
  constants.findSome? fun constant => (after constant.1 text).map (constant.2, ·)

/-- The float nearest to a magnitude, with its sign. -/
def floatOf (negative : Bool) (magnitude : ℚ) : PyFloat :=
  match toDouble magnitude with
  | .finite value =>
    if !negative then .double (.finite value) else if value = 0 then .negativeZero else .double (.finite (-value))
  | .infinite _ => .double (.infinite negative)
  | .nan => .double .nan

/-- The digits behind a dot, where there are any. -/
def scanFraction : PyString → PyString × PyString
  | 46 :: rest => if rest.takeWhile isDigit = [] then ([], 46 :: rest) else (rest.takeWhile isDigit, rest.dropWhile isDigit)
  | rest => ([], rest)

/-- The text behind a sign, where there is one. -/
def unsigned (text : PyString) : PyString := if text.headD 0 = 45 ∨ text.headD 0 = 43 then text.tail else text

/-- The exponent, where an `e` and perhaps a sign stand before digits. -/
def scanExponent : PyString → Option Int × PyString
  | [] => (none, [])
  | code :: rest =>
    let digits := (unsigned rest).takeWhile isDigit
    if (code = 101 ∨ code = 69) ∧ digits ≠ [] then
      (some (if rest.headD 0 = 45 then -(readDigits digits : Int) else readDigits digits), (unsigned rest).dropWhile isDigit)
    else (none, code :: rest)

/-- The digits before the dot: one zero, or digits that do not start with one. -/
def scanWhole (text : PyString) : PyString := if text.headD 0 = 48 then [48] else text.takeWhile isDigit

structure NumberParts where
  negative : Bool
  whole : PyString
  fraction : PyString
  exponent : Option Int

/-- The parts of a number at the start of a text, and what stands behind them. -/
def numberParts (text : PyString) : NumberParts × PyString :=
  let magnitude := if text.headD 0 = 45 then text.tail else text
  let whole := scanWhole magnitude
  let fraction := scanFraction (magnitude.drop whole.length)
  let exponent := scanExponent fraction.2
  (⟨text.headD 0 = 45, whole, fraction.1, exponent.1⟩, exponent.2)

def NumberParts.value (digits : Nat) (parts : NumberParts) : Except JsonError PyValue :=
  if parts.whole = [] then .error .malformed
  else if parts.fraction = [] ∧ parts.exponent = none then
    if digits < parts.whole.length then .error .tooManyDigits
    else .ok (.int (if parts.negative then -(readDigits parts.whole : Int) else readDigits parts.whole))
  else .ok (.float (floatOf parts.negative
    (readDigits (parts.whole ++ parts.fraction) * 10 ^ (parts.exponent.getD 0 - parts.fraction.length))))

/-- `_match_number`. -/
def scanNumber (digits : Nat) (text : PyString) : Scanned PyValue :=
  ((numberParts text).1.value digits).map (·, (numberParts text).2)

section Containers

variable {α : Type}

/-- The elements up to the closing bracket.  Each one takes a part of the text, so the
length of the text bounds how many there are. -/
def scanList (close : Nat) (scan : PyString → Scanned α) : Nat → PyString → Scanned (List α)
  | 0, _ => .error .malformed
  | fuel + 1, text =>
    match scan text with
    | .error error => .error error
    | .ok (element, rest) =>
      match skipSpace rest with
      | [] => .error .malformed
      | code :: rest =>
        if code = close then .ok ([element], rest)
        else if code = 44 then
          match scanList close scan fuel (skipSpace rest) with
          | .error error => .error error
          | .ok (elements, rest) => .ok (element :: elements, rest)
        else .error .malformed

/-- What stands between the brackets, from behind the opening one. -/
def scanEnclosed (close : Nat) (scan : PyString → Scanned α) (text : PyString) : Scanned (List α) :=
  if (skipSpace text).headD 0 = close then .ok ([], (skipSpace text).tail)
  else scanList close scan ((skipSpace text).length + 1) (skipSpace text)

end Containers

/-- `_parse_array`. -/
def scanArray (scan : PyString → Scanned PyValue) (text : PyString) : Scanned PyValue :=
  (scanEnclosed 93 scan text).map fun scanned => (.array scanned.1, scanned.2)

def scanField (scan : PyString → Scanned PyValue) : PyString → Scanned (PyString × PyValue)
  | 34 :: text =>
    match scanString text with
    | none => .error .malformed
    | some (key, rest) =>
      match skipSpace rest with
      | 58 :: rest => (scan (skipSpace rest)).map fun scanned => ((key, scanned.1), scanned.2)
      | _ => .error .malformed
  | _ => .error .malformed

/-- `_parse_object`. -/
def scanObject (scan : PyString → Scanned PyValue) (text : PyString) : Scanned PyValue :=
  (scanEnclosed 125 (scanField scan) text).map fun scanned => (.object (dictOf scanned.1), scanned.2)

/-- `scan_once`, with what reads the containers given. -/
def scanWith (digits : Nat) (array object : PyString → Scanned PyValue) (text : PyString) : Scanned PyValue :=
  match text with
  | 34 :: rest =>
    match scanString rest with
    | none => .error .malformed
    | some (string, rest) => .ok (.string string, rest)
  | 91 :: rest => array rest
  | 123 :: rest => object rest
  | text =>
    match scanConstant text with
    | some scanned => .ok scanned
    | none => scanNumber digits text

/-- `scan_once` where containers may still nest `depth` deep. -/
def scanOnce (digits : Nat) : Nat → PyString → Scanned PyValue
  | 0 => scanWith digits (fun _ => .error .tooDeep) (fun _ => .error .tooDeep)
  | depth + 1 => scanWith digits (scanArray (scanOnce digits depth)) (scanObject (scanOnce digits depth))

/-- What the interpreter allows: how deep containers nest, and how many digits an
integer has. -/
structure Limits where
  depth : Nat
  digits : Nat

/-- `json.loads` of a `str`. -/
def loads (limits : Limits) (text : PyString) : Except JsonError PyValue :=
  if text.headD 0 = 65279 then .error .malformed
  else
    match scanOnce limits.digits limits.depth (skipSpace text) with
    | .error error => .error error
    | .ok (value, rest) => if skipSpace rest = [] then .ok value else .error .malformed

end IncidentPlatform.Python

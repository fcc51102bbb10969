import IncidentPlatform.Python.Json
import Mathlib.Data.List.DropRight
import Mathlib.Data.Rat.Floor

namespace IncidentPlatform.Python

open Numbers

/-! # Conversions

`int`, `float` and `bool` of a value that JSON writes.  Strings go through the tables
of Unicode 15.0.
-/

/-- The exceptions that reading a stored text can raise. -/
inductive PyError where
  | valueError
  | typeError
  | overflowError
  | recursionError
  | unicodeDecodeError
deriving DecidableEq

/-- The zeros of the decimal digits beyond ASCII, each with its nine successors behind it. -/
def decimalZeros : List Nat :=
  [1632, 1776, 1984, 2406, 2534, 2662, 2790, 2918, 3046, 3174, 3302, 3430, 3558, 3664, 3792, 3872, 4160, 4240, 6112, 6160,
    6470, 6608, 6784, 6800, 6992, 7088, 7232, 7248, 42528, 43216, 43264, 43472, 43504, 43600, 44016, 65296, 66720, 68912,
    69734, 69872, 69942, 70096, 70384, 70736, 70864, 71248, 71360, 71472, 71904, 72016, 72784, 73040, 73120, 73552, 92768,
    92864, 93008, 120782, 120792, 120802, 120812, 120822, 123200, 123632, 124144, 125264, 130032]

def unicodeSpaces : List Nat :=
  [133, 160, 5760, 8192, 8193, 8194, 8195, 8196, 8197, 8198, 8199, 8200, 8201, 8202, 8232, 8233, 8239, 8287, 12288]

def transformToAscii : PyString → PyString
  | [] => []
  | code :: rest =>
    if code < 127 then code :: transformToAscii rest
    else if unicodeSpaces.contains code then 32 :: transformToAscii rest
    else
      match decimalZeros.find? fun start => start ≤ code && code < start + 10 with
      | some start => digitCode (code - start) :: transformToAscii rest
      | none => [63]

/-- `_PyUnicode_TransformDecimalAndSpaceToASCII`, which leaves ASCII as it is. -/
def toAscii (text : PyString) : PyString := if text.all (· < 128) then text else transformToAscii text

def isSpace (code : Nat) : Bool := 9 ≤ code && code ≤ 13 || code = 32

def trim (text : PyString) : PyString := (text.dropWhile isSpace).rdropWhile isSpace

/-- Digits with single underscores between them. -/
def ungroup : (behindDigit : Bool) → PyString → Option PyString
  | behindDigit, [] => if behindDigit then some [] else none
  | behindDigit, code :: rest =>
    if isDigit code then (ungroup true rest).map (code :: ·)
    else if code = 95 ∧ behindDigit then ungroup false rest
    else none

/-- `int` of a `str`. -/
def intOfText (digits : Nat) (text : PyString) : Except PyError Int :=
  let trimmed := trim (toAscii text)
  match ungroup false (unsigned trimmed) with
  | none => .error .valueError
  | some written =>
    if digits < written.length then .error .valueError
    else .ok (if trimmed.headD 0 = 45 then -(readDigits written : Int) else readDigits written)

/-- Underscores may only stand between digits. -/
def dropUnderscores : (before : Nat) → PyString → Option PyString
  | before, [] => if before = 95 then none else some []
  | before, code :: rest =>
    if code = 95 then if isDigit before then dropUnderscores code rest else none
    else if before = 95 ∧ ¬ isDigit code then none
    else (dropUnderscores code rest).map (code :: ·)

def lowerCase (text : PyString) : PyString := text.map fun code => if 65 ≤ code ∧ code ≤ 90 then code + 32 else code

/-- `PyOS_string_to_double`, of the whole text. -/
def parseDouble (text : PyString) : Option PyFloat :=
  let negative : Bool := text.headD 0 = 45
  let magnitude := unsigned text
  if lowerCase magnitude = pyString "inf" ∨ lowerCase magnitude = pyString "infinity" then some (.double (.infinite negative))
  else if lowerCase magnitude = pyString "nan" then some (.double .nan)
  else
    let whole := magnitude.takeWhile isDigit
    let rest := magnitude.dropWhile isDigit
    let fraction := if rest.headD 0 = 46 then rest.tail.takeWhile isDigit else []
    let exponent := scanExponent (if rest.headD 0 = 46 then rest.tail.dropWhile isDigit else rest)
    if whole ++ fraction = [] ∨ exponent.2 ≠ [] then none
    else some (floatOf negative (readDigits (whole ++ fraction) * 10 ^ (exponent.1.getD 0 - fraction.length)))

/-- `float` of a `str`. -/
def floatOfText (text : PyString) : Except PyError PyFloat :=
  match (dropUnderscores 0 (trim (toAscii text))).bind parseDouble with
  | some value => .ok value
  | none => .error .valueError

/-- The integer part, towards zero. -/
def truncate (value : ℚ) : Int := if value < 0 then ⌈value⌉ else ⌊value⌋

/-- `int(value)`. -/
def intOf (digits : Nat) : PyValue → Except PyError Int
  | .bool value => .ok (if value then 1 else 0)
  | .int value => .ok value
  | .float .negativeZero => .ok 0
  | .float (.double (.finite value)) => .ok (truncate value)
  | .float (.double (.infinite _)) => .error .overflowError
  | .float (.double .nan) => .error .valueError
  | .string text => intOfText digits text
  | .none | .array _ | .object _ => .error .typeError

def floatOfInt (value : Int) : Except PyError PyFloat :=
  match doubleOfInt value with
  | some rounded => .ok (.double (.finite rounded))
  | none => .error .overflowError

/-- `float(value)`. -/
def floatOfValue : PyValue → Except PyError PyFloat
  | .bool value => .ok (.double (.finite (if value then 1 else 0)))
  | .int value => floatOfInt value
  | .float value => .ok value
  | .string text => floatOfText text
  | .none | .array _ | .object _ => .error .typeError

/-- `bool(value)`. -/
def truth : PyValue → Bool
  | .none => false
  | .bool value => value
  | .int value => value ≠ 0
  | .float value => value ≠ .negativeZero ∧ value ≠ .double (.finite 0)
  | .string text => text ≠ []
  | .array items => !items.isEmpty
  | .object fields => !fields.isEmpty

end IncidentPlatform.Python

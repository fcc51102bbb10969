import IncidentPlatform.Models.Job

namespace IncidentPlatform.Schemas

open Models

/-! # JSON Schema

The keywords of the 2020-12 draft that the event schemas use, on an object with
properties of simple types.  Further properties are allowed.
-/

/-- The value of an integer literal. -/
def integerOf (literal : String) : Option Int :=
  match literal.toList with
  | '-' :: digits => if digits.all Char.isDigit then some (-Nat.ofDigitChars 10 digits 0) else none
  | digits => if digits.all Char.isDigit then some (Nat.ofDigitChars 10 digits 0) else none

theorem integerOf_repr (value : Nat) : integerOf value.repr = some (value : Int) := by
  have chars : value.repr.toList = Nat.toDigits 10 value := Nat.toList_repr
  have digits : (Nat.toDigits 10 value).all Char.isDigit = true :=
    List.all_eq_true.mpr fun _ member => Nat.isDigit_of_mem_toDigits (by decide) (by decide) member
  unfold integerOf
  rw [chars]
  split
  · rename_i rest signed
    rw [signed] at digits
    exact absurd digits (by simp)
  · rw [if_pos digits, Nat.ofDigitChars_ten_toDigits]

def isHexDigit (character : Char) : Bool :=
  character.isDigit || 'a' ≤ character && character ≤ 'f' || 'A' ≤ character && character ≤ 'F'

/-- The `uuid` format: 32 hexadecimal digits, with hyphens at their places. -/
def isUuid (text : String) : Bool :=
  let characters := text.toList
  let digits := characters.filter fun character => character ≠ '-'
  digits.length = 32 && digits.all isHexDigit &&
    [8, 13, 18, 23].all fun position => characters[position]? = some '-'

inductive JsonType where
  | object
  | string
  | integer
  | boolean
  | null

def JsonType.admits : JsonType → Json → Bool
  | .object, .object _ => true
  | .string, .string _ => true
  | .integer, .number literal => (integerOf literal).isSome
  | .boolean, .bool _ => true
  | .null, .null => true
  | _, _ => false

/-- The schema of one property; a keyword that is left out admits every value. -/
structure PropertySchema where
  const : Option String := none
  types : List JsonType := []
  minLength : Nat := 0
  minimum : Option Int := none
  maximum : Option Int := none
  uuidFormat : Bool := false

namespace PropertySchema

variable (schema : PropertySchema)

/-- Each keyword judges the values of its own type only. -/
def admitsText (text : String) : Bool :=
  schema.minLength ≤ text.length && (!schema.uuidFormat || isUuid text)

def admitsInteger (value : Int) : Bool :=
  schema.minimum.all (· ≤ value) && schema.maximum.all (value ≤ ·)

def admits (value : Json) : Bool :=
  (schema.types.isEmpty || schema.types.any fun type => type.admits value) &&
    match value with
    | .string text => schema.const.all (· = text) && schema.admitsText text
    | .number literal => schema.const.isNone && (integerOf literal).all schema.admitsInteger
    | _ => schema.const.isNone

end PropertySchema

structure ObjectSchema where
  required : List String
  properties : List (String × PropertySchema)

def ObjectSchema.admits (schema : ObjectSchema) : Json → Bool
  | .object fields =>
      (schema.required.all fun name => (fields.lookup name).isSome) &&
        schema.properties.all fun property => (fields.lookup property.1).all property.2.admits
  | _ => false

end IncidentPlatform.Schemas

import IncidentPlatform.Text.FixedWidth

namespace IncidentPlatform.Python

open Text

/-! # Strings and bytes -/

/-- A `str`, by its code points, among which surrogates may stand alone. -/
abbrev PyString := List Nat

def pyString (text : String) : PyString := text.toList.map Char.toNat

def isSurrogate (code : Nat) : Bool := 55296 ≤ code && code ≤ 57343

def isDigit (code : Nat) : Bool := 48 ≤ code && code ≤ 57

def digitCode (number : Nat) : Nat := 48 + number

/-- `str` of a natural number. -/
def decimal (value : Nat) : PyString := (Nat.toDigits 10 value).map Char.toNat

def readDigits (digits : PyString) : Nat := digits.foldl (fun total code => total * 10 + (code - 48)) 0

/-- The number that exactly `count` digits write, and what stands behind them. -/
def parseDigits (count : Nat) (text : PyString) : Option (Nat × PyString) :=
  if count ≤ text.length ∧ (text.take count).all isDigit then some (readDigits (text.take count), text.drop count)
  else none

theorem isDigit_digitCode {number : Nat} (small : number < 10) : isDigit (digitCode number) = true := by
  rw [isDigit, digitCode, Bool.and_eq_true, decide_eq_true_eq, decide_eq_true_eq]
  omega

theorem readDigits_concat (digits : PyString) (code : Nat) :
    readDigits (digits ++ [code]) = readDigits digits * 10 + (code - 48) := by
  simp [readDigits]

theorem readDigits_fixedWidth {width value : Nat} (small : value < 10 ^ width) :
    readDigits (fixedWidth digitCode width value) = value := by
  induction width generalizing value with
  | zero =>
    have zero : value = 0 := by omega
    rw [zero]
    rfl
  | succ width ih =>
    rw [fixedWidth, readDigits_concat, ih (by omega), digitCode]
    omega

theorem parseDigits_append {count : Nat} {digits rest : PyString} (length : digits.length = count)
    (all : ∀ code ∈ digits, isDigit code = true) : parseDigits count (digits ++ rest) = some (readDigits digits, rest) := by
  have front : (digits ++ rest).take count = digits := by rw [← length, List.take_left']; rfl
  have back : (digits ++ rest).drop count = rest := by rw [← length, List.drop_left']; rfl
  rw [parseDigits, front, back, if_pos]
  exact ⟨by rw [List.length_append]; omega, List.all_eq_true.mpr all⟩

theorem parseDigits_fixedWidth {width value : Nat} (small : value < 10 ^ width) (rest : PyString) :
    parseDigits width (fixedWidth digitCode width value ++ rest) = some (value, rest) := by
  have digits : ∀ code ∈ fixedWidth digitCode width value, isDigit code = true := by
    intro code member
    obtain ⟨number, least, rfl⟩ := mem_fixedWidth member
    exact isDigit_digitCode least
  rw [parseDigits_append (length_fixedWidth digitCode width value) digits, readDigits_fixedWidth small]

theorem decimal_of_lt {value : Nat} (small : value < 10) : decimal value = [digitCode value] := by
  rw [decimal, Nat.toDigits_of_lt_base small]
  match value with
  | 0 | 1 | 2 | 3 | 4 | 5 | 6 | 7 | 8 | 9 => rfl

theorem decimal_of_ge {value : Nat} (large : 10 ≤ value) :
    decimal value = decimal (value / 10) ++ decimal (value % 10) := by
  rw [decimal, Nat.toDigits_of_base_le (by decide) large, List.map_append, decimal,
    ← Nat.toDigits_of_lt_base (Nat.mod_lt value (by decide)), decimal]

/-- Decimal text is digits, the first of them zero for zero only, and reads back. -/
structure Decimal (value : Nat) (text : PyString) : Prop where
  digits : ∀ code ∈ text, isDigit code = true
  head : ∃ first rest, text = first :: rest ∧ (first = 48 → value = 0 ∧ rest = [])
  reads : readDigits text = value

theorem decimal_spec (value : Nat) : Decimal value (decimal value) := by
  induction value using Nat.strongRecOn with
  | ind value ih =>
    by_cases small : value < 10
    · rw [decimal_of_lt small]
      refine ⟨?_, ⟨digitCode value, [], rfl, ?_⟩, ?_⟩
      · intro code member
        rw [List.mem_singleton.mp member]
        exact isDigit_digitCode small
      · intro zero
        exact ⟨by unfold digitCode at zero; omega, rfl⟩
      · simp [readDigits, digitCode]
    · have front := ih (value / 10) (by omega)
      obtain ⟨first, rest, head, zero⟩ := front.head
      have last : value % 10 < 10 := Nat.mod_lt _ (by decide)
      rw [decimal_of_ge (by omega), decimal_of_lt last]
      refine ⟨?_, ⟨first, rest ++ [digitCode (value % 10)], by rw [head]; rfl, ?_⟩, ?_⟩
      · intro code member
        rcases List.mem_append.mp member with earlier | final
        · exact front.digits code earlier
        · rw [List.mem_singleton.mp final]
          exact isDigit_digitCode last
      · intro leading
        have := (zero leading).1
        omega
      · rw [readDigits_concat, front.reads, digitCode]
        omega

def isTail (byte : UInt8) : Bool := 128 ≤ byte && byte ≤ 191

def tailBits (byte : UInt8) : Nat := byte.toNat - 128

/-- The bounds of the second byte by the first one, which rule out overlong forms,
surrogates and codes beyond the last one. -/
def secondByte (first second : UInt8) : Bool :=
  if first = 224 then 160 ≤ second && second ≤ 191
  else if first = 237 then 128 ≤ second && second ≤ 159
  else if first = 240 then 144 ≤ second && second ≤ 191
  else if first = 244 then 128 ≤ second && second ≤ 143
  else isTail second

/-- The code points of the bytes, with nothing in the place of each maximal part
that is ill-formed. -/
def decodeUtf8 : List UInt8 → List (Option Nat)
  | [] => []
  | first :: rest =>
    if first < 128 then some first.toNat :: decodeUtf8 rest
    else if 194 ≤ first && first ≤ 223 then
      match rest with
      | second :: rest' =>
        if isTail second then some ((first.toNat - 192) * 64 + tailBits second) :: decodeUtf8 rest'
        else none :: decodeUtf8 (second :: rest')
      | [] => [none]
    else if 224 ≤ first && first ≤ 239 then
      match rest with
      | second :: rest' =>
        if secondByte first second then
          match rest' with
          | third :: rest'' =>
            if isTail third then
              some ((first.toNat - 224) * 4096 + tailBits second * 64 + tailBits third) :: decodeUtf8 rest''
            else none :: decodeUtf8 (third :: rest'')
          | [] => [none]
        else none :: decodeUtf8 (second :: rest')
      | [] => [none]
    else if 240 ≤ first && first ≤ 244 then
      match rest with
      | second :: rest' =>
        if secondByte first second then
          match rest' with
          | third :: rest'' =>
            if isTail third then
              match rest'' with
              | fourth :: rest''' =>
                if isTail fourth then
                  some ((first.toNat - 240) * 262144 + tailBits second * 4096 + tailBits third * 64 + tailBits fourth) ::
                    decodeUtf8 rest'''
                else none :: decodeUtf8 (fourth :: rest''')
              | [] => [none]
            else none :: decodeUtf8 (third :: rest'')
          | [] => [none]
        else none :: decodeUtf8 (second :: rest')
      | [] => [none]
    else none :: decodeUtf8 rest

/-- `bytes.decode()`. -/
def decodeStrict (bytes : List UInt8) : Option PyString :=
  if (decodeUtf8 bytes).all Option.isSome then some ((decodeUtf8 bytes).filterMap id) else none

/-- `bytes.decode(errors="replace")`. -/
def decodeReplace (bytes : List UInt8) : PyString := (decodeUtf8 bytes).map fun code => code.getD 65533

/-- `str.encode()` of a text without surrogates. -/
def encodeUtf8 (text : PyString) : List UInt8 :=
  text.flatMap fun code =>
    if code < 128 then [UInt8.ofNat code]
    else if code < 2048 then [UInt8.ofNat (192 + code / 64), UInt8.ofNat (128 + code % 64)]
    else if code < 65536 then
      [UInt8.ofNat (224 + code / 4096), UInt8.ofNat (128 + code / 64 % 64), UInt8.ofNat (128 + code % 64)]
    else
      [UInt8.ofNat (240 + code / 262144), UInt8.ofNat (128 + code / 4096 % 64), UInt8.ofNat (128 + code / 64 % 64),
        UInt8.ofNat (128 + code % 64)]

def IsAscii (text : PyString) : Prop := ∀ code ∈ text, code < 128

instance (text : PyString) : Decidable (IsAscii text) := inferInstanceAs (Decidable (∀ code ∈ text, code < 128))

theorem isAscii_cons {code : Nat} {text : PyString} : IsAscii (code :: text) ↔ code < 128 ∧ IsAscii text := List.forall_mem_cons

theorem isAscii_append {front back : PyString} : IsAscii (front ++ back) ↔ IsAscii front ∧ IsAscii back :=
  List.forall_mem_append

theorem decodeUtf8_encode_ascii {text : PyString} (ascii : IsAscii text) :
    decodeUtf8 (encodeUtf8 text) = text.map some := by
  induction text with
  | nil => rfl
  | cons code rest ih =>
    obtain ⟨small, restAscii⟩ := List.forall_mem_cons.mp ascii
    have number : (UInt8.ofNat code).toNat = code := by
      rw [UInt8.toNat_ofNat']
      omega
    have low : UInt8.ofNat code < 128 := by
      rw [UInt8.lt_iff_toNat_lt, number]
      exact small
    have split : encodeUtf8 (code :: rest) = UInt8.ofNat code :: encodeUtf8 rest := by
      rw [encodeUtf8, List.flatMap_cons, if_pos small]
      rfl
    rw [split, decodeUtf8.eq_def]
    dsimp only
    rw [if_pos low, ih restAscii, number]
    rfl

theorem decodeStrict_encode_ascii {text : PyString} (ascii : IsAscii text) : decodeStrict (encodeUtf8 text) = some text := by
  rw [decodeStrict, decodeUtf8_encode_ascii ascii, if_pos (by simp), List.filterMap_map]
  simp

/-- Well-formed bytes decode alike either way. -/
theorem decodeReplace_of_strict {bytes : List UInt8} {text : PyString} (decoded : decodeStrict bytes = some text) :
    decodeReplace bytes = text := by
  unfold decodeStrict at decoded
  split at decoded
  case isTrue formed =>
    cases decoded
    rw [decodeReplace]
    generalize decodeUtf8 bytes = codes at formed
    induction codes with
    | nil => rfl
    | cons code rest ih =>
      rw [List.all_cons, Bool.and_eq_true] at formed
      obtain ⟨value, rfl⟩ := Option.isSome_iff_exists.mp formed.1
      simpa using ih formed.2
  case isFalse => cases decoded

end IncidentPlatform.Python

import IncidentPlatform.Python.Convert
import IncidentPlatform.Python.IsoFormat

namespace IncidentPlatform.Core

open Dates Python

/-! # Stored diagnostics

What the readers of the diagnostic keys share: the reply of a Redis client and the
stamp of a record.
-/

/-- A value as a client hands it over. -/
inductive RawValue where
  | str (text : PyString)
  | bytes (content : List UInt8)
deriving DecidableEq

/-- `decode()` where it is bytes. -/
def RawValue.decode : RawValue → Except PyError PyString
  | .str text => .ok text
  | .bytes content =>
    match decodeStrict content with
    | some text => .ok text
    | none => .error .unicodeDecodeError

/-- `decode(errors="replace")` where it is bytes. -/
def RawValue.decodeReplacing : RawValue → PyString
  | .str text => text
  | .bytes content => decodeReplace content

/-- A Redis client; production sets `decode_responses`. -/
structure RedisClient where
  decodeResponses : Bool

/-- `get` of a key with this content. -/
def RedisClient.get (client : RedisClient) : Option (List UInt8) → Except PyError (Option RawValue)
  | none => .ok none
  | some content =>
    if client.decodeResponses then (RawValue.bytes content).decode.map fun text => some (.str text)
    else .ok (some (.bytes content))

/-- An aware `datetime`, with its offset from UTC in microseconds. -/
structure AwareDateTime where
  instant : DateTime
  offset : Int
deriving DecidableEq

/-- Where it stands among the others, as `datetime` compares them. -/
def AwareDateTime.micros (stamp : AwareDateTime) : Int := stamp.instant.micros - stamp.offset

/-- A stored stamp; one without an offset is read as UTC. -/
def parseStamp : PyValue → Option AwareDateTime
  | .string text => (fromIsoFormat text).map fun parsed => ⟨parsed.instant, parsed.offset.getD 0⟩
  | _ => none

theorem parseStamp_isoFormat (instant : DateTime) : parseStamp (.string (isoFormat instant)) = some ⟨instant, 0⟩ := by
  rw [parseStamp, fromIsoFormat_isoFormat]
  rfl

theorem micros_utc (instant : DateTime) : (AwareDateTime.mk instant 0).micros = instant.micros := Int.sub_zero _

/-- The text that a client and a reader make of a content. -/
def RedisClient.textOf (client : RedisClient) (content : List UInt8) : Option PyString :=
  if client.decodeResponses then decodeStrict content else some (decodeReplace content)

theorem get_of_textOf (client : RedisClient) {content : List UInt8} {text : PyString}
    (made : client.textOf content = some text) :
    ∃ raw, client.get (some content) = .ok (some raw) ∧ raw.decodeReplacing = text := by
  unfold RedisClient.textOf at made
  unfold RedisClient.get
  dsimp only
  split
  · rename_i decodes
    rw [if_pos decodes] at made
    refine ⟨.str text, ?_, rfl⟩
    rw [RawValue.decode, made]
    rfl
  · rename_i plain
    rw [if_neg plain] at made
    exact ⟨.bytes content, rfl, Option.some.inj made⟩

theorem get_of_no_text (client : RedisClient) {content : List UInt8} (none : client.textOf content = none) :
    client.get (some content) = .error .unicodeDecodeError := by
  unfold RedisClient.textOf at none
  unfold RedisClient.get
  dsimp only
  split
  · rename_i decodes
    rw [if_pos decodes] at none
    rw [RawValue.decode, none]
    rfl
  · rename_i plain
    rw [if_neg plain] at none
    cases none

theorem get_of_strict (client : RedisClient) {content : List UInt8} {text : PyString}
    (strict : decodeStrict content = some text) :
    ∃ raw, client.get (some content) = .ok (some raw) ∧ raw.decode = .ok text ∧ raw.decodeReplacing = text := by
  unfold RedisClient.get
  dsimp only
  split
  · refine ⟨.str text, ?_, rfl, rfl⟩
    rw [RawValue.decode, strict]
    rfl
  · refine ⟨.bytes content, rfl, ?_, decodeReplace_of_strict strict⟩
    rw [RawValue.decode, strict]

theorem get_ascii (client : RedisClient) {text : PyString} (ascii : IsAscii text) :
    ∃ raw, client.get (some (encodeUtf8 text)) = .ok (some raw) ∧ raw.decode = .ok text ∧ raw.decodeReplacing = text :=
  get_of_strict client (decodeStrict_encode_ascii ascii)

end IncidentPlatform.Core

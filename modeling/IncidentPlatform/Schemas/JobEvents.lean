import IncidentPlatform.Models.Event
import IncidentPlatform.Schemas.JsonSchema
import Mathlib.Tactic.IntervalCases

namespace IncidentPlatform.Schemas

open Models

/-! # The lifecycle events on the wire, and the schemas of their topics -/

/-- 32 digits, by place, with hyphens after the 8th, 12th, 16th and 20th. -/
def hyphenated (digit : Nat → Char) : List Char :=
  [31, 30, 29, 28, 27, 26, 25, 24].map digit ++ '-' :: [23, 22, 21, 20].map digit ++
    '-' :: [19, 18, 17, 16].map digit ++ '-' :: [15, 14, 13, 12].map digit ++
    '-' :: [11, 10, 9, 8, 7, 6, 5, 4, 3, 2, 1, 0].map digit

/-- `str` of a UUID. -/
def uuidText (id : Uuid) : String :=
  String.ofList (hyphenated fun place => Nat.digitChar (id / 16 ^ place % 16))

def textOrNull : Option String → Json
  | some text => .string text
  | none => .null

def topicName : Topic → String
  | .submitted => "job.submitted"
  | .completed => "job.completed"
  | .failed => "job.failed"
  | .dlq => "job.dlq"
  | .cancelled => "job.cancelled"

/-- The keys that every lifecycle payload starts with. -/
def identityFields (event : String) (tenantId jobId userId : Uuid) : List (String × Json) := [
  ("event", .string event),
  ("tenant_id", .string (uuidText tenantId)),
  ("job_id", .string (uuidText jobId)),
  ("user_id", .string (uuidText userId))]

/-- The payload dictionary of an event. -/
def eventPayload : Event → Json
  | .submitted tenantId jobId userId jobType payload priority traceId =>
      .object (identityFields "job.submitted" tenantId jobId userId ++ [
        ("job_type", .string jobType),
        ("payload", payload),
        ("priority", .number (toString priority)),
        ("trace_id", textOrNull traceId)])
  | .completed tenantId jobId userId jobType result retryCount =>
      .object (identityFields "job.completed" tenantId jobId userId ++ [
        ("job_type", .string jobType),
        ("result", result.getD .null),
        ("retry_count", .number (toString retryCount))])
  | .cancelled tenantId jobId userId jobType reason retryCount traceId =>
      .object (identityFields "job.cancelled" tenantId jobId userId ++ [
        ("job_type", .string jobType),
        ("reason", .string reason),
        ("retry_count", .number (toString retryCount)),
        ("trace_id", textOrNull traceId)])
  | .retrying tenantId jobId userId jobType error message retryCount =>
      .object (identityFields "job.failed" tenantId jobId userId ++ [
        ("job_type", .string jobType),
        ("error", .string error),
        ("message", .string message),
        ("retry_count", .number (toString retryCount)),
        ("dead_lettered", .bool false)])
  | .deadLettered tenantId jobId userId jobType error message retryCount maxAttempts payload traceId =>
      .object (identityFields "job.failed" tenantId jobId userId ++ [
        ("job_type", .string jobType),
        ("error", .string error),
        ("message", .string message),
        ("retry_count", .number (toString retryCount)),
        ("max_attempts", .number (toString maxAttempts)),
        ("max_retries", .number (toString maxAttempts)),
        ("payload", payload),
        ("trace_id", textOrNull traceId),
        ("dead_lettered", .bool true)])

/-- The payload of `publish_job_progress`. -/
def progressPayload (job : Job) (status : String) (percent : Nat) (message : String) : Json :=
  .object (identityFields "job.progress" job.tenantId job.id job.userId ++ [
    ("status", .string status),
    ("percent", .number (toString percent)),
    ("message", .string message),
    ("retry_count", .number (toString job.retryCount))])

def uuidProperty : PropertySchema := { types := [.string], uuidFormat := true }
def nameProperty : PropertySchema := { types := [.string], minLength := 1 }
def textProperty : PropertySchema := { types := [.string] }
def countProperty : PropertySchema := { types := [.integer], minimum := some 0 }
def objectOrNullProperty : PropertySchema := { types := [.object, .null] }
def textOrNullProperty : PropertySchema := { types := [.string, .null] }

def identityProperties (event : String) : List (String × PropertySchema) := [
  ("event", { const := some event }),
  ("tenant_id", uuidProperty),
  ("job_id", uuidProperty),
  ("user_id", uuidProperty)]

def jobSubmittedSchema : ObjectSchema where
  required := ["event", "tenant_id", "job_id", "user_id", "job_type"]
  properties := identityProperties "job.submitted" ++ [
    ("job_type", nameProperty),
    ("payload", objectOrNullProperty),
    ("priority", countProperty),
    ("trace_id", textOrNullProperty)]

def jobProgressSchema : ObjectSchema where
  required := ["event", "tenant_id", "job_id", "user_id", "status", "percent"]
  properties := identityProperties "job.progress" ++ [
    ("status", nameProperty),
    ("percent", { countProperty with maximum := some 100 }),
    ("message", textProperty),
    ("retry_count", countProperty)]

def jobCompletedSchema : ObjectSchema where
  required := ["event", "tenant_id", "job_id", "user_id", "job_type"]
  properties := identityProperties "job.completed" ++ [
    ("job_type", nameProperty),
    ("result", objectOrNullProperty),
    ("retry_count", countProperty)]

def jobFailedSchema : ObjectSchema where
  required := ["event", "tenant_id", "job_id", "user_id", "job_type", "error", "dead_lettered"]
  properties := identityProperties "job.failed" ++ [
    ("job_type", nameProperty),
    ("error", textProperty),
    ("message", textProperty),
    ("retry_count", countProperty),
    ("max_attempts", countProperty),
    ("max_retries", countProperty),
    ("payload", objectOrNullProperty),
    ("trace_id", textOrNullProperty),
    ("dead_lettered", { types := [.boolean] })]

def jobCancelledSchema : ObjectSchema where
  required := ["event", "tenant_id", "job_id", "user_id", "job_type", "reason"]
  properties := identityProperties "job.cancelled" ++ [
    ("job_type", nameProperty),
    ("reason", textProperty),
    ("retry_count", countProperty),
    ("trace_id", textOrNullProperty)]

/-- `_VALIDATORS`: `job.dlq` shares the schema of `job.failed`. -/
def validators : List (String × ObjectSchema) := [
  ("job.submitted", jobSubmittedSchema),
  ("job.progress", jobProgressSchema),
  ("job.completed", jobCompletedSchema),
  ("job.failed", jobFailedSchema),
  ("job.cancelled", jobCancelledSchema),
  ("job.dlq", jobFailedSchema)]

/-- The exceptions of `validate`. -/
inductive SchemaError where
  | unknownTopic
  | invalid
deriving DecidableEq

/-- `validate`. -/
def validate (topic : String) (payload : Json) : Except SchemaError Unit :=
  match validators.lookup topic with
  | none => .error .unknownTopic
  | some schema => if schema.admits payload then .ok () else .error .invalid

theorem isUuid_hyphenated {digit : Nat → Char} (hyphen : ∀ place, digit place ≠ '-')
    (hex : ∀ place, isHexDigit (digit place) = true) : isUuid (String.ofList (hyphenated digit)) = true := by
  simp [isUuid, hyphenated, hyphen, hex]

theorem isUuid_uuidText (id : Uuid) : isUuid (uuidText id) = true := by
  have digit : ∀ value < 16, Nat.digitChar value ≠ '-' ∧ isHexDigit (Nat.digitChar value) = true := by decide
  exact isUuid_hyphenated (fun _ => (digit _ (Nat.mod_lt _ (by decide))).1)
    fun _ => (digit _ (Nat.mod_lt _ (by decide))).2

theorem eq_of_digits {base places value other : Nat} (small : value < base ^ places)
    (otherSmall : other < base ^ places)
    (same : ∀ place < places, value / base ^ place % base = other / base ^ place % base) : value = other := by
  induction places generalizing value other with
  | zero =>
      rw [Nat.pow_zero] at small otherSmall
      omega
  | succ places ih =>
      have lowest : value % base = other % base := by simpa using same 0 (Nat.succ_pos _)
      have rest : value / base = other / base := by
        refine ih (Nat.div_lt_of_lt_mul ?_) (Nat.div_lt_of_lt_mul ?_) fun place before => ?_
        · rwa [← Nat.pow_succ']
        · rwa [← Nat.pow_succ']
        · rw [Nat.div_div_eq_div_mul, Nat.div_div_eq_div_mul, ← Nat.pow_succ']
          exact same (place + 1) (Nat.succ_lt_succ before)
      rw [← Nat.div_add_mod value base, ← Nat.div_add_mod other base, rest, lowest]

theorem hyphenated_inj {digit other : Nat → Char} (same : hyphenated digit = hyphenated other) :
    ∀ place < 32, digit place = other place := by
  intro place before
  simp only [hyphenated, List.map_cons, List.map_nil, List.cons_append, List.nil_append, List.cons.injEq, true_and, and_true] at same
  interval_cases place <;> simp only [same]

theorem length_uuidText {id : Uuid} : (uuidText id).toList.length = 36 := by
  rw [uuidText, String.toList_ofList]
  rfl

theorem uuidText_inj {id other : Nat} (small : id < 2 ^ 128) (otherSmall : other < 2 ^ 128)
    (same : uuidText id = uuidText other) : id = other := by
  have digits := hyphenated_inj (String.ofList_inj.mp same)
  have injective : ∀ value < 16, ∀ other < 16, Nat.digitChar value = Nat.digitChar other → value = other := by
    decide
  have places : (2 : Nat) ^ 128 = 16 ^ 32 := by decide
  rw [places] at small otherSmall
  refine eq_of_digits small otherSmall fun place before => ?_
  exact injective _ (Nat.mod_lt _ (by decide)) _ (Nat.mod_lt _ (by decide)) (digits place before)

theorem uuidText_symbols {id : Uuid} {symbol : Char} (held : symbol ∈ (uuidText id).toList) :
    symbol = '-' ∨ isHexDigit symbol = true := by
  have digit : ∀ value < 16, isHexDigit (Nat.digitChar value) = true := by decide
  have hex : ∀ place, isHexDigit (Nat.digitChar (id / 16 ^ place % 16)) = true :=
    fun place => digit _ (Nat.mod_lt _ (by decide))
  rw [uuidText, String.toList_ofList] at held
  simp only [hyphenated, List.mem_append, List.mem_cons, List.mem_map] at held
  grind

def IsObjectOrNull : Json → Prop
  | .object _ | .null => True
  | _ => False

section Properties

variable {text : String} {value : Json} {id : Uuid} {count : Nat}

attribute [local simp] PropertySchema.admits PropertySchema.admitsText PropertySchema.admitsInteger JsonType.admits

@[simp] theorem constProperty_admits {const : String} :
    PropertySchema.admits { const := some const } (.string const) = true := by
  simp

@[simp] theorem uuidProperty_admits : uuidProperty.admits (.string (uuidText id)) = true := by
  simp [uuidProperty, isUuid_uuidText]

@[simp] theorem nameProperty_admits_iff : nameProperty.admits (.string text) = true ↔ text ≠ "" := by
  simp [nameProperty, Nat.one_le_iff_ne_zero, String.length_eq_zero_iff]

@[simp] theorem textProperty_admits : textProperty.admits (.string text) = true := by
  simp [textProperty]

@[simp] theorem countProperty_admits : countProperty.admits (.number count.repr) = true := by
  simp [countProperty, integerOf_repr]

theorem countProperty_admits_int {value : Int} (natural : 0 ≤ value) :
    countProperty.admits (.number value.repr) = true := by
  obtain ⟨count, rfl⟩ := Int.eq_ofNat_of_zero_le natural
  exact countProperty_admits

theorem percentProperty_admits (bounded : count ≤ 100) :
    PropertySchema.admits { countProperty with maximum := some 100 } (.number count.repr) = true := by
  simp [countProperty, integerOf_repr]
  omega

@[simp] theorem textOrNullProperty_admits {text : Option String} :
    textOrNullProperty.admits (textOrNull text) = true := by
  cases text <;> simp [textOrNullProperty, textOrNull]

@[simp] theorem boolProperty_admits {value : Bool} :
    PropertySchema.admits { types := [.boolean] } (.bool value) = true := by
  simp

theorem objectOrNullProperty_admits (object : IsObjectOrNull value) : objectOrNullProperty.admits value = true := by
  cases value with
  | object => simp [objectOrNullProperty]
  | null => simp [objectOrNullProperty]
  | _ => contradiction

end Properties

theorem validate_ok_iff {topic : String} {schema : ObjectSchema} {payload : Json}
    (registered : validators.lookup topic = some schema) :
    validate topic payload = .ok () ↔ schema.admits payload = true := by
  rw [validate, registered]
  dsimp only
  split <;> simp_all

section Events

variable {tenantId jobId userId : Uuid} {jobType error message : String} {payload : Json} {result : Option Json}
  {retryCount maxAttempts : Nat} {traceId : Option String}

attribute [local simp] ObjectSchema.admits identityProperties identityFields eventPayload List.lookup_cons

theorem submitted_valid_iff {priority : Int} (object : IsObjectOrNull payload) (natural : 0 ≤ priority) :
    validate "job.submitted" (eventPayload
      (.submitted tenantId jobId userId jobType payload priority traceId)) = .ok () ↔ jobType ≠ "" := by
  rw [validate_ok_iff rfl]
  simp [jobSubmittedSchema, objectOrNullProperty_admits object, countProperty_admits_int natural]

theorem completed_valid_iff (object : IsObjectOrNull (result.getD .null)) :
    validate "job.completed" (eventPayload
      (.completed tenantId jobId userId jobType result retryCount)) = .ok () ↔ jobType ≠ "" := by
  rw [validate_ok_iff rfl]
  simp [jobCompletedSchema, objectOrNullProperty_admits object]

theorem cancelled_valid_iff : validate "job.cancelled" (eventPayload
    (.cancelled tenantId jobId userId jobType error retryCount traceId)) = .ok () ↔ jobType ≠ "" := by
  rw [validate_ok_iff rfl]
  simp [jobCancelledSchema]

theorem retrying_valid_iff : validate "job.failed" (eventPayload
    (.retrying tenantId jobId userId jobType error message retryCount)) = .ok () ↔ jobType ≠ "" := by
  rw [validate_ok_iff rfl]
  simp [jobFailedSchema]

theorem deadLettered_valid_iff (object : IsObjectOrNull payload) : validate "job.dlq" (eventPayload
    (.deadLettered tenantId jobId userId jobType error message retryCount maxAttempts payload traceId)) = .ok () ↔
      jobType ≠ "" := by
  rw [validate_ok_iff rfl]
  simp [jobFailedSchema, objectOrNullProperty_admits object]

theorem progress_valid {job : Job} {status : String} {percent : Nat} (named : status ≠ "") (bounded : percent ≤ 100) :
    validate "job.progress" (progressPayload job status percent message) = .ok () := by
  rw [validate_ok_iff rfl]
  simp [jobProgressSchema, progressPayload, percentProperty_admits bounded, named]

end Events

end IncidentPlatform.Schemas

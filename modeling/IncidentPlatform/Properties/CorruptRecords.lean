import IncidentPlatform.Core.StoredRecords
import IncidentPlatform.Properties.LagWindow
import IncidentPlatform.Python.JsonLimits

namespace IncidentPlatform.Properties

open IncidentPlatform.Core Dates Python

/-! # Corrupt diagnostic records

When one stored record cannot hide the good ones.  What a text writes is told
without the limits of the interpreter, which are no part of the record.
-/

section Samples

variable {limits : Limits} {digits : Nat} {entry : PyValue} {entries : List PyValue} {text : PyString}

/-- The reading of an entry, where its lag converts and its time can be read. -/
def readableSample (digits : Nat) : PyValue → Option LagSampleReading
  | .object fields =>
    match intOf digits (field "lag" fields), parseMeasuredAt (field "measured_at" fields) with
    | .ok lag, some measuredAt => some ⟨lag, measuredAt⟩
    | _, _ => none
  | _ => none

/-- The readable entries of the list that a text writes; none where it writes no list. -/
def readableSamples (digits : Nat) (text : PyString) : List LagSampleReading :=
  match jsonOf text with
  | some (.array entries) => entries.filterMap (readableSample digits)
  | _ => []

def windowReadings (digits : Nat) : Option RawValue → List LagSampleReading
  | none => []
  | some raw => readableSamples digits raw.decodeReplacing

def InfiniteLag : PyValue → Prop
  | .object fields => ∃ negative, field "lag" fields = .float (.double (.infinite negative))
  | _ => False

/-- The text hides no reading: it does not nest too deep, an integer with too many
digits stands among no readable entries, and no lag is an infinity. -/
structure WindowSound (limits : Limits) (text : PyString) : Prop where
  shallow : loads limits text ≠ .error .tooDeep
  short : loads limits text = .error .tooManyDigits → readableSamples limits.digits text = []
  finite : ∀ entries, loads limits text = .ok (.array entries) → ∀ entry ∈ entries, ¬ InfiniteLag entry

theorem loads_ne_error {value : PyValue} (loaded : loads limits text = .ok value) (error : JsonError) :
    loads limits text ≠ .error error := by
  intro failed
  rw [loaded] at failed
  cases failed

theorem loads_ne_ok {error : JsonError} (failed : loads limits text = .error error) (value : PyValue) :
    loads limits text ≠ .ok value := by
  intro loaded
  rw [failed] at loaded
  cases loaded

theorem loads_error_unique {error other : JsonError} (failed : loads limits text = .error error)
    (again : loads limits text = .error other) : error = other := by
  rw [failed] at again
  exact Except.error.inj again

theorem intOfText_error {error : PyError} (raised : intOfText digits text = .error error) : error = .valueError := by
  unfold intOfText at raised
  dsimp only at raised
  split at raised
  · cases raised
    rfl
  · split at raised
    · cases raised
      rfl
    · cases raised

theorem parseLag_cases (digits : Nat) (value : PyValue) :
    (∃ negative, value = .float (.double (.infinite negative)) ∧ parseLag digits value = .error .overflowError) ∨
      (∀ negative, value ≠ .float (.double (.infinite negative))) ∧ parseLag digits value = .ok (intOf digits value).toOption := by
  unfold parseLag
  cases value with
  | float value =>
    cases value with
    | negativeZero => exact .inr ⟨nofun, rfl⟩
    | double value =>
      cases value with
      | finite value => exact .inr ⟨nofun, rfl⟩
      | infinite negative => exact .inl ⟨negative, rfl, rfl⟩
      | nan => exact .inr ⟨nofun, rfl⟩
  | string text =>
    refine .inr ⟨nofun, ?_⟩
    rw [intOf]
    cases converted : intOfText digits text with
    | ok lag => rfl
    | error error =>
      rw [intOfText_error converted]
      rfl
  | none => exact .inr ⟨nofun, rfl⟩
  | bool value => exact .inr ⟨nofun, rfl⟩
  | int value => exact .inr ⟨nofun, rfl⟩
  | array items => exact .inr ⟨nofun, rfl⟩
  | object fields => exact .inr ⟨nofun, rfl⟩

theorem sampleOf_infinite (infinite : InfiniteLag entry) : sampleOf digits entry = .error .overflowError := by
  cases entry with
  | object fields =>
    obtain ⟨negative, same⟩ := infinite
    obtain ⟨_, _, raised⟩ | ⟨finite, _⟩ := parseLag_cases digits (field "lag" fields)
    · rw [sampleOf, raised]
      rfl
    · exact absurd same (finite negative)
  | _ => exact infinite.elim

theorem sampleOf_finite (finite : ¬ InfiniteLag entry) : sampleOf digits entry = .ok (readableSample digits entry) := by
  cases entry with
  | object fields =>
    obtain ⟨negative, same, _⟩ | ⟨_, read⟩ := parseLag_cases digits (field "lag" fields)
    · exact absurd ⟨negative, same⟩ finite
    · rw [sampleOf, read, readableSample]
      simp only [bind, Except.bind]
      cases intOf digits (field "lag" fields) <;> cases parseMeasuredAt (field "measured_at" fields) <;> rfl
  | _ => rfl

theorem samplesOf_finite (finite : ∀ entry ∈ entries, ¬ InfiniteLag entry) :
    samplesOf digits entries = .ok (entries.filterMap (readableSample digits)) := by
  induction entries with
  | nil => rfl
  | cons entry rest ih =>
    obtain ⟨first, others⟩ := List.forall_mem_cons.mp finite
    rw [samplesOf, sampleOf_finite first, ih others]
    cases read : readableSample digits entry with
    | none => rw [List.filterMap_cons_none read]; rfl
    | some sample => rw [List.filterMap_cons_some read]; rfl

theorem samplesOf_infinite (infinite : ∃ entry ∈ entries, InfiniteLag entry) :
    samplesOf digits entries = .error .overflowError := by
  induction entries with
  | nil => simp at infinite
  | cons entry rest ih =>
    by_cases first : InfiniteLag entry
    · rw [samplesOf, sampleOf_infinite first]
      rfl
    · obtain ⟨other, member, unbounded⟩ := infinite
      obtain rfl | later := List.mem_cons.mp member
      · exact absurd unbounded first
      · rw [samplesOf, sampleOf_finite first, ih ⟨other, later, unbounded⟩]
        rfl

theorem parseSamples_some (limits : Limits) (raw : RawValue) :
    parseSamples limits (some raw) = (storedEntries (loads limits raw.decodeReplacing)).bind fun entries =>
      (samplesOf limits.digits entries).bind fun samples => .ok ((newestFirst samples).take lagSamplesMaxEntries) := rfl

theorem newest_nil : (newestFirst []).take lagSamplesMaxEntries = [] := by
  rw [newestFirst, List.mergeSort_nil, List.take_nil]

theorem newest_eq_nil {samples : List LagSampleReading} :
    (newestFirst samples).take lagSamplesMaxEntries = [] ↔ samples = [] := by
  constructor
  · intro cut
    rw [List.take_eq_nil_iff, newestFirst] at cut
    have same := List.mergeSort_perm samples fun first second => second.measuredAt.micros ≤ first.measuredAt.micros
    rw [cut.resolve_left (by decide)] at same
    exact same.nil_eq.symm
  · rintro rfl
    exact newest_nil

theorem parseSamples_text_iff (raw : RawValue) :
    parseSamples limits (some raw) =
        .ok ((newestFirst (readableSamples limits.digits raw.decodeReplacing)).take lagSamplesMaxEntries) ↔
      WindowSound limits raw.decodeReplacing := by
  rw [parseSamples_some]
  obtain ⟨value, loaded, written⟩ | ⟨loaded, written⟩ | ⟨error, loaded, limit⟩ := loads_cases limits raw.decodeReplacing
  · have others := loads_ne_error loaded
    by_cases list : ∃ entries, value = .array entries
    · obtain ⟨entries, rfl⟩ := list
      have readable : readableSamples limits.digits raw.decodeReplacing =
          entries.filterMap (readableSample limits.digits) := by rw [readableSamples, written]
      rw [loaded, readable, storedEntries]
      simp only [Except.bind]
      by_cases finite : ∀ entry ∈ entries, ¬ InfiniteLag entry
      · rw [samplesOf_finite finite]
        refine ⟨fun _ => ⟨others _, fun long => absurd long (others _), fun read same => ?_⟩, fun _ => rfl⟩
        rw [loaded] at same
        cases same
        exact finite
      · obtain ⟨entry, member, infinite⟩ : ∃ entry ∈ entries, InfiniteLag entry := by simpa using finite
        rw [samplesOf_infinite ⟨entry, member, infinite⟩]
        refine ⟨fun same => ?_, fun sound => absurd infinite (sound.finite entries loaded entry member)⟩
        cases same
    · have none : readableSamples limits.digits raw.decodeReplacing = [] := by
        rw [readableSamples, written]
        cases value with
        | array entries => exact absurd ⟨entries, rfl⟩ list
        | _ => rfl
      have stored : storedEntries (.ok value) = .ok [] := by
        cases value with
        | array entries => exact absurd ⟨entries, rfl⟩ list
        | _ => rfl
      rw [loaded, none, stored]
      refine ⟨fun _ => ⟨others _, fun _ => none, fun entries same => ?_⟩, fun _ => rfl⟩
      rw [loaded] at same
      cases same
      exact absurd ⟨entries, rfl⟩ list
  · have none : readableSamples limits.digits raw.decodeReplacing = [] := by rw [readableSamples, written]
    rw [loaded, none, storedEntries]
    refine ⟨fun _ => ⟨fun deep => ?_, fun _ => none, fun entries same => ?_⟩, fun _ => rfl⟩
    · cases loads_error_unique loaded deep
    · exact absurd same (loads_ne_ok loaded _)
  · cases error with
    | malformed => exact absurd rfl limit
    | tooDeep =>
      rw [loaded, storedEntries]
      refine ⟨fun same => ?_, fun sound => absurd loaded sound.shallow⟩
      cases same
    | tooManyDigits =>
      rw [loaded, storedEntries]
      simp only [Except.bind, samplesOf, newest_nil]
      constructor
      · intro same
        have none := newest_eq_nil.mp (Except.ok.inj same).symm
        refine ⟨fun deep => ?_, fun _ => none, fun entries other => ?_⟩
        · cases loads_error_unique loaded deep
        · exact absurd other (loads_ne_ok loaded _)
      · intro sound
        rw [sound.short loaded, newest_nil]

theorem parseSamples_iff (limits : Limits) (raw : Option RawValue) :
    parseSamples limits raw = .ok ((newestFirst (windowReadings limits.digits raw)).take lagSamplesMaxEntries) ↔
      ∀ value, raw = some value → WindowSound limits value.decodeReplacing := by
  cases raw with
  | none =>
    rw [windowReadings, newest_nil]
    exact ⟨fun _ => nofun, fun _ => rfl⟩
  | some raw =>
    rw [windowReadings, parseSamples_text_iff]
    exact ⟨fun sound value same => Option.some.inj same ▸ sound, fun each => each raw rfl⟩

end Samples

section Record

variable {limits : Limits} {client : RedisClient} {content : Option (List UInt8)} {lag : Int} {now : DateTime}
  {digits depth : Nat}

/-- The key is left with the text of a list whose first entry is the measurement. -/
def LeavesSample (limits : Limits) (client : RedisClient) (content : Option (List UInt8)) (lag : Int) (now : DateTime) : Prop :=
  ∃ text rest, recordLagSample limits client content lag now = .ok text ∧
    dumps limits (.array (sampleEntry lag now :: rest)) = .ok text

/-- The interpreter can write the measurement, the window can be taken from the
time, and what is stored is UTF-8 and does not nest too deep. -/
structure CanRecord (limits : Limits) (content : Option (List UInt8)) (lag : Int) (now : DateTime) : Prop where
  deep : 2 ≤ limits.depth
  recordable : Recordable limits ⟨now, lag⟩
  decodes : ∀ bytes, content = some bytes → ∃ text, decodeStrict bytes = some text ∧ loads limits text ≠ .error .tooDeep

theorem encodes_int_iff {value : Int} : Encodes digits depth (.int value) ↔ (decimal value.natAbs).length ≤ digits := by
  unfold Encodes
  rw [encode, encodeInt]
  split
  · rename_i long
    refine ⟨fun written => ?_, fun short => absurd long (Nat.not_lt.mpr short)⟩
    obtain ⟨_, failed⟩ := written
    cases failed
  · rename_i short
    exact ⟨fun _ => Nat.not_lt.mp short, fun _ => ⟨_, rfl⟩⟩

theorem encodes_sampleEntry_iff : Encodes digits depth (sampleEntry lag now) ↔
    1 ≤ depth ∧ (decimal lag.natAbs).length ≤ digits := by
  cases depth with
  | zero =>
    unfold Encodes sampleEntry
    rw [encode]
    refine ⟨fun written => ?_, fun both => absurd both.1 (by decide)⟩
    obtain ⟨_, failed⟩ := written
    cases failed
  | succ depth =>
    constructor
    · rintro ⟨text, written⟩
      have lagWritten : Encodes digits depth (.int lag) := by
        unfold sampleEntry at written
        rw [encode, encodeFields] at written
        cases first : encode digits (.int lag) depth with
        | error error =>
          rw [first] at written
          cases written
        | ok part => exact ⟨part, first⟩
      exact ⟨Nat.succ_le_succ (Nat.zero_le depth), encodes_int_iff.mp lagWritten⟩
    · intro both
      exact ⟨_, @encode_callEntry _ depth ⟨now, lag⟩ both.2⟩

theorem keptSamples_cases (limits : Limits) (client : RedisClient) (content : Option (List UInt8)) (cutoff : Int) :
    (∃ kept, (client.get content).bind (keptSamples limits cutoff) = .ok kept ∧
        (∀ entry ∈ kept, ∃ depth, limits.depth = depth + 1 ∧ Encodes limits.digits depth entry) ∧
        ∀ bytes, content = some bytes → ∃ text, decodeStrict bytes = some text ∧ loads limits text ≠ .error .tooDeep) ∨
      (∃ error, (client.get content).bind (keptSamples limits cutoff) = .error error) ∧
        ¬ ∀ bytes, content = some bytes → ∃ text, decodeStrict bytes = some text ∧ loads limits text ≠ .error .tooDeep := by
  cases content with
  | none =>
    refine .inl ⟨[], rfl, List.forall_mem_nil _, fun bytes same => ?_⟩
    cases same
  | some bytes =>
    cases strict : decodeStrict bytes with
    | none =>
      refine .inr ⟨?_, fun decodes => ?_⟩
      · have failed : (RawValue.bytes bytes).decode = .error .unicodeDecodeError := by rw [RawValue.decode, strict]
        unfold RedisClient.get
        dsimp only
        split
        · exact ⟨_, by rw [failed]; rfl⟩
        · exact ⟨_, by rw [Except.bind, keptSamples, failed]; rfl⟩
      · obtain ⟨text, decoded, _⟩ := decodes bytes rfl
        rw [strict] at decoded
        cases decoded
    | some text =>
      obtain ⟨raw, reply, decoded, -⟩ := get_of_strict client strict
      rw [reply, Except.bind, keptSamples, decoded]
      simp only [bind, Except.bind]
      cases stored : loads limits text with
      | error error =>
        cases error with
        | tooDeep =>
          refine .inr ⟨⟨_, rfl⟩, fun decodes => ?_⟩
          obtain ⟨other, same, shallow⟩ := decodes bytes rfl
          rw [strict] at same
          cases same
          exact shallow stored
        | malformed =>
          refine .inl ⟨[], rfl, List.forall_mem_nil _, fun other same => ?_⟩
          cases same
          refine ⟨text, strict, fun deep => ?_⟩
          cases loads_error_unique stored deep
        | tooManyDigits =>
          refine .inl ⟨[], rfl, List.forall_mem_nil _, fun other same => ?_⟩
          cases same
          refine ⟨text, strict, fun deep => ?_⟩
          cases loads_error_unique stored deep
      | ok value =>
        have sound : ∀ other, some bytes = some other →
            ∃ text, decodeStrict other = some text ∧ loads limits text ≠ .error .tooDeep := by
          intro other same
          cases same
          exact ⟨text, strict, loads_ne_error stored _⟩
        cases value with
        | array entries =>
          refine .inl ⟨entries.filter (isRecent cutoff), rfl, fun entry member => ?_, sound⟩
          have whole := loads_encodes stored
          cases deep : limits.depth with
          | zero =>
            rw [deep] at whole
            obtain ⟨_, written⟩ := whole
            rw [encode] at written
            cases written
          | succ depth =>
            rw [deep] at whole
            exact ⟨depth, rfl, encodes_array.mp whole entry (List.mem_filter.mp member).1⟩
        | _ => exact .inl ⟨[], rfl, List.forall_mem_nil _, sound⟩

theorem recordLagSample_eq (cutoff : Int) (window : samplesCutoff now = .ok cutoff) :
    recordLagSample limits client content lag now = ((client.get content).bind (keptSamples limits cutoff)).bind fun samples =>
      (dumps limits (.array ((sampleEntry lag now :: samples).take lagSamplesMaxEntries))).mapError Core.raisedBy := by
  rw [recordLagSample, window]
  simp only [bind, Except.bind]
  cases client.get content <;> rfl

theorem take_sampleEntry (lag : Int) (now : DateTime) (samples : List PyValue) :
    (sampleEntry lag now :: samples).take lagSamplesMaxEntries =
      sampleEntry lag now :: samples.take (lagSamplesMaxEntries - 1) := rfl

theorem leavesSample_iff (limits : Limits) (client : RedisClient) (content : Option (List UInt8)) (lag : Int)
    (now : DateTime) : LeavesSample limits client content lag now ↔ CanRecord limits content lag now := by
  constructor
  · rintro ⟨text, rest, recorded, written⟩
    have whole : Encodes limits.digits limits.depth (.array (sampleEntry lag now :: rest)) := ⟨text, written⟩
    cases deep : limits.depth with
    | zero =>
      rw [deep, Encodes] at whole
      obtain ⟨_, never⟩ := whole
      rw [encode] at never
      cases never
    | succ depth =>
      rw [deep] at whole
      have first := encodes_sampleEntry_iff.mp (encodes_array.mp whole _ List.mem_cons_self)
      by_cases past : earliestMicros + windowMicros ≤ now.micros
      · have recordable : Recordable limits ⟨now, lag⟩ := ⟨first.2, past⟩
        rw [recordLagSample_eq _ (samplesCutoff_recordable recordable)] at recorded
        obtain ⟨_, _, _, decodes⟩ | ⟨⟨error, failed⟩, _⟩ :=
          keptSamples_cases limits client content (callTime ⟨now, lag⟩ - windowMicros)
        · exact ⟨by omega, recordable, decodes⟩
        · rw [failed] at recorded
          cases recorded
      · have window : samplesCutoff now = .error .overflowError := by
          rw [samplesCutoff, if_pos (by omega)]
        rw [recordLagSample, window] at recorded
        cases recorded
  · intro can
    obtain ⟨kept, read, encodes, _⟩ | ⟨_, never⟩ :=
      keptSamples_cases limits client content (callTime ⟨now, lag⟩ - windowMicros)
    · obtain ⟨depth, deep⟩ : ∃ depth, limits.depth = depth + 1 := ⟨limits.depth - 1, by have := can.deep; omega⟩
      have each : ∀ entry ∈ sampleEntry lag now :: kept.take (lagSamplesMaxEntries - 1),
          Encodes limits.digits depth entry := by
        refine List.forall_mem_cons.mpr ⟨encodes_sampleEntry_iff.mpr ⟨?_, can.recordable.short⟩, fun entry member => ?_⟩
        · have two := can.deep
          omega
        · obtain ⟨other, same, written⟩ := encodes entry (List.mem_of_mem_take member)
          obtain rfl : other = depth := by omega
          exact written
      obtain ⟨text, written⟩ := encodes_array.mpr each
      rw [← deep] at written
      refine ⟨text, kept.take (lagSamplesMaxEntries - 1), ?_, written⟩
      rw [recordLagSample_eq _ (samplesCutoff_recordable can.recordable), read]
      simp only [Except.bind]
      rw [take_sampleEntry, dumps, written]
      rfl
    · exact absurd can.decodes never

end Record

section Listings

variable {Record : Type} (reader : RecordReader Record) (limits : Limits) (client : RedisClient)
  (convertible : Nat → List (PyString × PyValue) → Prop)

def readableRecord (digits : Nat) (text : PyString) : Option Record :=
  match jsonOf text with
  | some (.object fields) => (reader.recordOf digits fields).toOption.join
  | _ => none

def readableAt (content : Option (List UInt8)) : Option Record :=
  (content.bind client.textOf).bind (readableRecord reader limits.digits)

def Undecodable (content : Option (List UInt8)) : Prop := ∃ bytes, content = some bytes ∧ client.textOf bytes = none

/-- The key holds a text that nests too deep, or a dictionary with a field that
does not convert. -/
def RaisesAt (content : Option (List UInt8)) : Prop :=
  ∃ text, content.bind client.textOf = some text ∧ (loads limits text = .error .tooDeep ∨
    ∃ fields, loads limits text = .ok (.object fields) ∧ ¬ convertible limits.digits fields)

/-- The key holds a readable record with an integer of too many digits in it. -/
def HidesAt (content : Option (List UInt8)) : Prop :=
  ∃ text, content.bind client.textOf = some text ∧ loads limits text = .error .tooManyDigits ∧
    (readableRecord reader limits.digits text).isSome

/-- A key that cannot be decoded comes before every one that raises. -/
inductive StopsUndecoded (contents : PyString → Option (List UInt8)) : List PyString → Prop where
  | here {key : PyString} {rest : List PyString} :
      Undecodable client (contents key) → StopsUndecoded contents (key :: rest)
  | later {key : PyString} {rest : List PyString} :
      ¬ RaisesAt limits client convertible (contents key) → StopsUndecoded contents rest →
      StopsUndecoded contents (key :: rest)

/-- The readable records in listing order, or no records and a reason. -/
def Lists (records : List Record) (listing : Listing Record) : Prop :=
  (records = [] ∧ listing.records = [] ∧ listing.unknown.isSome = true) ∨
    (records ≠ [] ∧ listing.records = records.mergeSort reader.listingOrder ∧ listing.unknown = none)

/-- No record hides another: every one is decoded, converts and is read, or none is
readable and the listing stops before one that raises. -/
def ListingSound (contents : PyString → Option (List UInt8)) (keys : List PyString) : Prop :=
  (∀ key ∈ keys, ¬ Undecodable client (contents key) ∧ ¬ RaisesAt limits client convertible (contents key) ∧
      ¬ HidesAt reader limits client (contents key)) ∨
    (∀ key ∈ keys, readableAt reader limits client (contents key) = none) ∧
      StopsUndecoded limits client convertible contents keys

variable {reader limits client convertible} {content : Option (List UInt8)} {contents : PyString → Option (List UInt8)}
  {keys : List PyString}

theorem get_of_undecodable (undecodable : Undecodable client content) : client.get content = .error .unicodeDecodeError := by
  obtain ⟨bytes, rfl, none⟩ := undecodable
  exact get_of_no_text client none

theorem recordFrom_get (decodable : ¬ Undecodable client content) :
    ∃ raw, client.get content = .ok raw ∧ reader.recordFrom limits raw =
      (content.bind client.textOf).elim (.ok none) fun text => reader.loaded limits.digits (loads limits text) := by
  cases content with
  | none => exact ⟨none, rfl, rfl⟩
  | some bytes =>
    cases made : client.textOf bytes with
    | none => exact absurd ⟨bytes, rfl, made⟩ decodable
    | some text =>
      obtain ⟨raw, reply, same⟩ := get_of_textOf client made
      refine ⟨some raw, reply, ?_⟩
      rw [RecordReader.recordFrom, same, Option.bind_some, made, Option.elim_some]

theorem readKeys_cons_undecodable {key : PyString} (undecodable : Undecodable client (contents key)) :
    reader.readKeys limits client contents (key :: keys) = .ok none := by
  rw [RecordReader.readKeys, get_of_undecodable undecodable, RecordReader.withRaw]

theorem filterMap_cons_toList {α β : Type} (make : α → Option β) (item : α) (items : List α) :
    (item :: items).filterMap make = (make item).toList ++ items.filterMap make := by
  cases made : make item with
  | none => exact List.filterMap_cons_none made
  | some value => exact List.filterMap_cons_some made

theorem listing_records (records : List Record) :
    (reader.listing (some records)).records = records.mergeSort reader.listingOrder ∧
      ((reader.listing (some records)).unknown = none ↔ records ≠ []) ∧
      ((reader.listing (some records)).unknown.isSome = true ↔ records = []) := by
  cases records with
  | nil => exact ⟨List.mergeSort_nil.symm, by simp [RecordReader.listing], by simp [RecordReader.listing]⟩
  | cons record rest => exact ⟨rfl, by simp [RecordReader.listing], by simp [RecordReader.listing]⟩

section Convertible

variable (converts : ∀ digits fields, (∃ record, reader.recordOf digits fields = .ok record) ↔ convertible digits fields)

include converts

theorem recordFrom_raises (raises : RaisesAt limits client convertible content) :
    ∃ raw error, client.get content = .ok raw ∧ reader.recordFrom limits raw = .error error := by
  obtain ⟨text, made, cause⟩ := raises
  have decodable : ¬ Undecodable client content := by
    rintro ⟨bytes, rfl, none⟩
    rw [Option.bind_some, none] at made
    cases made
  obtain ⟨raw, reply, read⟩ := @recordFrom_get _ reader limits client content decodable
  rw [made, Option.elim_some] at read
  obtain deep | ⟨fields, loaded, stuck⟩ := cause
  · rw [deep, RecordReader.loaded] at read
    exact ⟨raw, _, reply, read⟩
  · rw [loaded, RecordReader.loaded] at read
    cases converted : reader.recordOf limits.digits fields with
    | ok record => exact absurd ((converts _ _).mp ⟨record, converted⟩) stuck
    | error error => exact ⟨raw, error, reply, read.trans converted⟩

theorem recordFrom_quiet (decodable : ¬ Undecodable client content)
    (quiet : ¬ RaisesAt limits client convertible content) :
    ∃ raw record, client.get content = .ok raw ∧ reader.recordFrom limits raw = .ok record ∧
      (record = readableAt reader limits client content ∧ ¬ HidesAt reader limits client content ∨
        record = none ∧ HidesAt reader limits client content) := by
  obtain ⟨raw, reply, read⟩ := @recordFrom_get _ reader limits client content decodable
  cases made : content.bind client.textOf with
  | none =>
    rw [made, Option.elim_none] at read
    refine ⟨raw, none, reply, read, .inl ⟨by rw [readableAt, made]; rfl, ?_⟩⟩
    rintro ⟨text, other, _⟩
    rw [made] at other
    cases other
  | some text =>
    rw [made, Option.elim_some] at read
    have readable : readableAt reader limits client content = readableRecord reader limits.digits text := by
      rw [readableAt, made, Option.bind_some]
    have hides : HidesAt reader limits client content ↔ loads limits text = .error .tooManyDigits ∧
        (readableRecord reader limits.digits text).isSome := by
      constructor
      · rintro ⟨other, same, hidden⟩
        rw [made] at same
        cases same
        exact hidden
      · exact fun hidden => ⟨text, made, hidden⟩
    rw [readable, hides]
    obtain ⟨value, loaded, written⟩ | ⟨loaded, written⟩ | ⟨error, loaded, limit⟩ := loads_cases limits text
    · rw [loaded] at read
      by_cases dictionary : ∃ fields, value = .object fields
      · obtain ⟨fields, rfl⟩ := dictionary
        have can : convertible limits.digits fields := by
          by_contra stuck
          exact quiet ⟨text, made, .inr ⟨fields, loaded, stuck⟩⟩
        obtain ⟨record, converted⟩ := (converts _ _).mpr can
        rw [RecordReader.loaded, converted] at read
        refine ⟨raw, record, reply, read, .inl ⟨?_, fun hidden => absurd hidden.1 (loads_ne_error loaded _)⟩⟩
        rw [readableRecord, written]
        simp only [converted]
        rfl
      · refine ⟨raw, none, reply, ?_, .inl ⟨?_, fun hidden => absurd hidden.1 (loads_ne_error loaded _)⟩⟩
        · rw [read]
          cases value with
          | object fields => exact absurd ⟨fields, rfl⟩ dictionary
          | _ => rfl
        · rw [readableRecord, written]
          cases value with
          | object fields => exact absurd ⟨fields, rfl⟩ dictionary
          | _ => rfl
    · rw [loaded] at read
      refine ⟨raw, none, reply, read, .inl ⟨by rw [readableRecord, written], fun hidden => ?_⟩⟩
      cases loads_error_unique loaded hidden.1
    · cases error with
      | malformed => exact absurd rfl limit
      | tooDeep => exact absurd ⟨text, made, .inl loaded⟩ quiet
      | tooManyDigits =>
        rw [loaded] at read
        refine ⟨raw, none, reply, read, ?_⟩
        cases hidden : readableRecord reader limits.digits text with
        | none => exact .inl ⟨rfl, fun both => by cases both.2⟩
        | some record => exact .inr ⟨rfl, loaded, rfl⟩

theorem readKeys_cons_raises {key : PyString} (raises : RaisesAt limits client convertible (contents key)) :
    ∃ error, reader.readKeys limits client contents (key :: keys) = .error error := by
  obtain ⟨raw, error, reply, raised⟩ := recordFrom_raises converts raises
  refine ⟨error, ?_⟩
  rw [RecordReader.readKeys, reply, RecordReader.withRaw, raised]
  rfl

theorem readKeys_cons_quiet {key : PyString} (decodable : ¬ Undecodable client (contents key))
    (quiet : ¬ RaisesAt limits client convertible (contents key)) :
    ∃ record, reader.readKeys limits client contents (key :: keys) =
        (reader.readKeys limits client contents keys).map (Option.map (record.toList ++ ·)) ∧
      (record = readableAt reader limits client (contents key) ∧ ¬ HidesAt reader limits client (contents key) ∨
        record = none ∧ HidesAt reader limits client (contents key)) := by
  obtain ⟨raw, record, reply, read, result⟩ := recordFrom_quiet converts decodable quiet
  refine ⟨record, ?_, result⟩
  rw [RecordReader.readKeys, reply, RecordReader.withRaw, read]
  simp only [bind, Except.bind]
  cases reader.readKeys limits client contents keys <;> rfl

theorem readKeys_none_iff : reader.readKeys limits client contents keys = .ok none ↔
    StopsUndecoded limits client convertible contents keys := by
  induction keys with
  | nil => exact ⟨nofun, nofun⟩
  | cons key rest ih =>
    by_cases undecodable : Undecodable client (contents key)
    · exact ⟨fun _ => .here undecodable, fun _ => readKeys_cons_undecodable undecodable⟩
    · by_cases raises : RaisesAt limits client convertible (contents key)
      · obtain ⟨error, raised⟩ := @readKeys_cons_raises _ _ _ _ _ contents rest converts key raises
        rw [raised]
        refine ⟨nofun, fun stops => ?_⟩
        cases stops with
        | here found => exact absurd found undecodable
        | later quiet _ => exact absurd raises quiet
      · obtain ⟨record, read, _⟩ := @readKeys_cons_quiet _ _ _ _ _ contents rest converts key undecodable raises
        rw [read]
        constructor
        · intro stopped
          refine .later raises (ih.mp ?_)
          cases later : reader.readKeys limits client contents rest with
          | error error => rw [later] at stopped; cases stopped
          | ok records =>
            cases records with
            | none => rfl
            | some records => rw [later] at stopped; cases stopped
        · intro stops
          cases stops with
          | here found => exact absurd found undecodable
          | later _ behind => rw [ih.mpr behind]; rfl

theorem readKeys_some {records : List Record} (through : reader.readKeys limits client contents keys = .ok (some records)) :
    (∀ key ∈ keys, ¬ Undecodable client (contents key) ∧ ¬ RaisesAt limits client convertible (contents key)) ∧
      ((∀ key ∈ keys, ¬ HidesAt reader limits client (contents key)) ∧
          records = keys.filterMap (fun key => readableAt reader limits client (contents key)) ∨
        (∃ key ∈ keys, HidesAt reader limits client (contents key)) ∧
          records.length < (keys.filterMap fun key => readableAt reader limits client (contents key)).length) := by
  induction keys generalizing records with
  | nil =>
    cases through
    exact ⟨nofun, .inl ⟨nofun, rfl⟩⟩
  | cons key rest ih =>
    by_cases undecodable : Undecodable client (contents key)
    · rw [readKeys_cons_undecodable undecodable] at through
      cases through
    · by_cases raises : RaisesAt limits client convertible (contents key)
      · obtain ⟨error, raised⟩ := @readKeys_cons_raises _ _ _ _ _ contents rest converts key raises
        rw [raised] at through
        cases through
      · obtain ⟨record, read, result⟩ := @readKeys_cons_quiet _ _ _ _ _ contents rest converts key undecodable raises
        rw [read] at through
        obtain ⟨behind, later, rfl⟩ : ∃ behind, reader.readKeys limits client contents rest = .ok (some behind) ∧
            records = record.toList ++ behind := by
          cases later : reader.readKeys limits client contents rest with
          | error error => rw [later] at through; cases through
          | ok others =>
            rw [later] at through
            cases others with
            | none => cases through
            | some behind =>
              cases through
              exact ⟨behind, rfl, rfl⟩
        obtain ⟨sound, counted⟩ := ih later
        refine ⟨List.forall_mem_cons.mpr ⟨⟨undecodable, raises⟩, sound⟩, ?_⟩
        rw [filterMap_cons_toList, List.length_append, List.length_append]
        obtain ⟨rfl, shown⟩ | ⟨rfl, hidden⟩ := result
        · obtain ⟨none, same⟩ | ⟨⟨other, member, hidden⟩, fewer⟩ := counted
          · rw [same]
            exact .inl ⟨List.forall_mem_cons.mpr ⟨shown, none⟩, rfl⟩
          · exact .inr ⟨⟨other, List.mem_cons_of_mem _ member, hidden⟩, by omega⟩
        · have present : 1 ≤ (readableAt reader limits client (contents key)).toList.length := by
            obtain ⟨text, made, _, isRecord⟩ := hidden
            obtain ⟨record, same⟩ := Option.isSome_iff_exists.mp isRecord
            rw [readableAt, made, Option.bind_some, same]
            exact le_refl 1
          have atMost : behind.length ≤
              (rest.filterMap fun key => readableAt reader limits client (contents key)).length := by
            obtain ⟨_, same⟩ | ⟨_, fewer⟩ := counted
            · rw [same]
            · exact le_of_lt fewer
          refine .inr ⟨⟨key, List.mem_cons_self, hidden⟩, ?_⟩
          rw [Option.toList_none, List.length_nil]
          omega

theorem readKeys_ok_of_sound (decodable : ∀ key ∈ keys, ¬ Undecodable client (contents key))
    (quiet : ∀ key ∈ keys, ¬ RaisesAt limits client convertible (contents key)) :
    ∃ records, reader.readKeys limits client contents keys = .ok (some records) := by
  induction keys with
  | nil => exact ⟨[], rfl⟩
  | cons key rest ih =>
    obtain ⟨first, others⟩ := List.forall_mem_cons.mp decodable
    obtain ⟨still, calm⟩ := List.forall_mem_cons.mp quiet
    obtain ⟨record, read, _⟩ := @readKeys_cons_quiet _ _ _ _ _ contents rest converts key first still
    obtain ⟨records, later⟩ := ih others calm
    exact ⟨record.toList ++ records, by rw [read, later]; rfl⟩

theorem readKeys_of_sound (sound : ListingSound reader limits client convertible contents keys) :
    (∀ key ∈ keys, readableAt reader limits client (contents key) = none) ∧
        reader.readKeys limits client contents keys = .ok none ∨
      (∀ key ∈ keys, ¬ HidesAt reader limits client (contents key)) ∧
        ∃ records, reader.readKeys limits client contents keys = .ok (some records) := by
  obtain all | ⟨empty, stops⟩ := sound
  · exact .inr ⟨fun key member => (all key member).2.2, readKeys_ok_of_sound converts
      (fun key member => (all key member).1) fun key member => (all key member).2.1⟩
  · exact .inl ⟨empty, (readKeys_none_iff converts).mpr stops⟩

theorem read_lists_iff (found : List PyString) :
    (∃ listing, reader.read limits client ⟨some found, contents⟩ = .ok listing ∧
        Lists reader ((scanKeys found).filterMap fun key => readableAt reader limits client (contents key)) listing) ↔
      ListingSound reader limits client convertible contents (scanKeys found) := by
  generalize scanned : scanKeys found = keys
  have read : reader.read limits client ⟨some found, contents⟩ = if keys = [] then .ok ⟨[], some reader.nonePublished⟩
      else (reader.readKeys limits client contents keys).map reader.listing := by
    rw [← scanned]
    rfl
  rw [read]
  by_cases none : keys = []
  · rw [if_pos none, none]
    exact ⟨fun _ => .inl nofun, fun _ => ⟨_, rfl, .inl ⟨rfl, rfl, rfl⟩⟩⟩
  · rw [if_neg none]
    cases result : reader.readKeys limits client contents keys with
    | error error =>
      refine ⟨fun lists => ?_, fun sound => ?_⟩
      · obtain ⟨_, failed, _⟩ := lists
        cases failed
      · obtain ⟨_, stopped⟩ | ⟨_, records, through⟩ := readKeys_of_sound converts sound
        · cases stopped.symm.trans result
        · cases through.symm.trans result
    | ok outcome =>
      cases outcome with
      | none =>
        have stops := (readKeys_none_iff converts).mp result
        constructor
        · rintro ⟨listing, same, ⟨empty, _⟩ | ⟨_, _, known⟩⟩
          · exact .inr ⟨List.filterMap_eq_nil_iff.mp empty, stops⟩
          · cases same
            cases known
        · intro sound
          obtain ⟨empty, _⟩ | ⟨_, records, through⟩ := readKeys_of_sound converts sound
          · exact ⟨_, rfl, .inl ⟨List.filterMap_eq_nil_iff.mpr empty, rfl, rfl⟩⟩
          · cases through.symm.trans result
      | some records =>
        obtain ⟨sound, counted⟩ := readKeys_some converts result
        obtain ⟨sorted, known, unknown⟩ := @listing_records _ reader records
        constructor
        · rintro ⟨listing, same, lists⟩
          obtain ⟨shown, _⟩ | ⟨_, fewer⟩ := counted
          · exact .inl fun key member => ⟨(sound key member).1, (sound key member).2, shown key member⟩
          · cases same
            obtain ⟨empty, _⟩ | ⟨_, listed, _⟩ := lists
            · rw [empty] at fewer
              cases fewer
            · have lengths := congrArg List.length (sorted.symm.trans listed)
              rw [List.length_mergeSort, List.length_mergeSort] at lengths
              omega
        · intro sound
          obtain ⟨_, stopped⟩ | ⟨shown, _⟩ := readKeys_of_sound converts sound
          · cases stopped.symm.trans result
          · obtain ⟨_, rfl⟩ | ⟨⟨key, member, hidden⟩, _⟩ := counted
            · refine ⟨_, rfl, ?_⟩
              by_cases empty : (keys.filterMap fun key => readableAt reader limits client (contents key)) = []
              · refine .inl ⟨empty, ?_, unknown.mpr empty⟩
                rw [sorted, empty, List.mergeSort_nil]
              · exact .inr ⟨empty, sorted, known.mpr empty⟩
            · exact absurd hidden (shown key member)

end Convertible

end Listings

section Fields

variable {digits : Nat} {fields : List (PyString × PyValue)}

/-- `int` converts the field, where it has a value that counts as one. -/
def CountConverts (digits : Nat) (key : String) (fields : List (PyString × PyValue)) : Prop :=
  truth (field key fields) = true → ∃ count, intOf digits (field key fields) = .ok count

def SecondsConverts (key : String) (fields : List (PyString × PyValue)) : Prop :=
  truth (field key fields) = true → ∃ seconds, floatOfValue (field key fields) = .ok seconds

/-- The numbers of a dictionary with a process and a time convert. -/
def PoolConvertible (digits : Nat) (fields : List (PyString × PyValue)) : Prop :=
  ∀ process writtenAt, field "process" fields = .string process → parseStamp (field "written_at" fields) = some writtenAt →
    CountConverts digits "size" fields ∧ CountConverts digits "checked_out" fields ∧
      CountConverts digits "overflow" fields ∧ CountConverts digits "wait_timeouts_1m" fields

/-- The numbers of a dictionary with a time, a name and a state convert. -/
def BreakerConvertible (digits : Nat) (fields : List (PyString × PyValue)) : Prop :=
  ∀ recordedAt name state, parseStamp (field "recorded_at" fields) = some recordedAt → field "name" fields = .string name →
    field "state" fields = .string state →
    CountConverts digits "failure_count" fields ∧ CountConverts digits "failure_threshold" fields ∧
      SecondsConverts "recovery_timeout_s" fields

theorem countField_ok_iff {key : String} : (∃ count, countField digits key fields = .ok count) ↔ CountConverts digits key fields := by
  unfold countField CountConverts
  split
  · rename_i counts
    exact ⟨fun converted _ => converted, fun converts => converts counts⟩
  · rename_i empty
    exact ⟨fun _ counts => absurd counts empty, fun _ => ⟨0, rfl⟩⟩

theorem secondsField_ok_iff {key : String} : (∃ seconds, secondsField key fields = .ok seconds) ↔ SecondsConverts key fields := by
  unfold secondsField SecondsConverts
  split
  · rename_i counts
    exact ⟨fun converted _ => converted, fun converts => converts counts⟩
  · rename_i empty
    exact ⟨fun _ counts => absurd counts empty, fun _ => ⟨_, rfl⟩⟩

theorem exists_bind_ok {α β : Type} {first : Except PyError α} {rest : α → Except PyError β} :
    (∃ result, (first >>= rest) = .ok result) ↔ ∃ value, first = .ok value ∧ ∃ result, rest value = .ok result := by
  cases first with
  | error error => exact ⟨nofun, nofun⟩
  | ok value => exact ⟨fun whole => ⟨value, rfl, whole⟩, fun ⟨_, same, tail⟩ => Except.ok.inj same ▸ tail⟩

theorem poolRecordOf_ok_iff (digits : Nat) (fields : List (PyString × PyValue)) :
    (∃ record, poolReader.recordOf digits fields = .ok record) ↔ PoolConvertible digits fields := by
  change (∃ record, poolRecordOf digits fields = .ok record) ↔ _
  unfold poolRecordOf PoolConvertible
  split
  case h_1 process writtenAt named stamped =>
    rw [named, stamped]
    simp only [← countField_ok_iff, exists_bind_ok]
    constructor
    · rintro ⟨size, sized, taken, checked, excess, flowed, waits, waited, _⟩ _ _ _ _
      exact ⟨⟨size, sized⟩, ⟨taken, checked⟩, ⟨excess, flowed⟩, ⟨waits, waited⟩⟩
    · intro converts
      obtain ⟨⟨size, sized⟩, ⟨taken, checked⟩, ⟨excess, flowed⟩, ⟨waits, waited⟩⟩ := converts process writtenAt rfl rfl
      exact ⟨size, sized, taken, checked, excess, flowed, waits, waited, _, rfl⟩
  case h_2 other =>
    exact ⟨fun _ process writtenAt named stamped => absurd stamped (other process writtenAt named), fun _ => ⟨_, rfl⟩⟩

theorem breakerRecordOf_ok_iff (digits : Nat) (fields : List (PyString × PyValue)) :
    (∃ record, breakerReader.recordOf digits fields = .ok record) ↔ BreakerConvertible digits fields := by
  change (∃ record, breakerRecordOf digits fields = .ok record) ↔ _
  unfold breakerRecordOf BreakerConvertible
  split
  case h_1 recordedAt name state stamped named stated =>
    rw [stamped, named, stated]
    simp only [← countField_ok_iff, ← secondsField_ok_iff, exists_bind_ok]
    constructor
    · rintro ⟨failures, failed, threshold, bounded, seconds, timed, _⟩ _ _ _ _ _ _
      exact ⟨⟨failures, failed⟩, ⟨threshold, bounded⟩, ⟨seconds, timed⟩⟩
    · intro converts
      obtain ⟨⟨failures, failed⟩, ⟨threshold, bounded⟩, ⟨seconds, timed⟩⟩ := converts recordedAt name state rfl rfl rfl
      exact ⟨failures, failed, threshold, bounded, seconds, timed, _, rfl⟩
  case h_2 other =>
    exact ⟨fun _ recordedAt name state stamped named stated => absurd stated (other recordedAt name state stamped named),
      fun _ => ⟨_, rfl⟩⟩

end Fields

/-- Each of the four does what it is for exactly under its condition: `parse_samples`
returns the readable entries, `record_lag_sample` leaves a list that starts with its
measurement, and the two readers list the readable records or a reason. -/
theorem corrupt_record_hides_none_iff (limits : Limits) (client : RedisClient) (window : Option RawValue)
    (content : Option (List UInt8)) (lag : Int) (now : DateTime) (foundPools foundBreakers : List PyString)
    (contents : PyString → Option (List UInt8)) :
    (parseSamples limits window = .ok ((newestFirst (windowReadings limits.digits window)).take lagSamplesMaxEntries) ↔
      ∀ raw, window = some raw → WindowSound limits raw.decodeReplacing) ∧
    (LeavesSample limits client content lag now ↔ CanRecord limits content lag now) ∧
    ((∃ listing, readPoolStates limits client ⟨some foundPools, contents⟩ = .ok listing ∧
        Lists poolReader ((scanKeys foundPools).filterMap fun key => readableAt poolReader limits client (contents key))
          listing) ↔
      ListingSound poolReader limits client PoolConvertible contents (scanKeys foundPools)) ∧
    ((∃ listing, readBreakerStates limits client ⟨some foundBreakers, contents⟩ = .ok listing ∧
        Lists breakerReader
          ((scanKeys foundBreakers).filterMap fun key => readableAt breakerReader limits client (contents key)) listing) ↔
      ListingSound breakerReader limits client BreakerConvertible contents (scanKeys foundBreakers)) :=
  ⟨parseSamples_iff limits window, leavesSample_iff limits client content lag now,
    read_lists_iff poolRecordOf_ok_iff foundPools, read_lists_iff breakerRecordOf_ok_iff foundBreakers⟩

/-- `[{"lag": Infinity}, {"lag": 3, "measured_at": "2026-07-29T12:00:00+00:00"}]`. -/
def infiniteThenGood : RawValue :=
  .str (pyString ("[\x7b\"lag\": Infinity\x7d, \x7b\"lag\": 3, " ++
    "\"measured_at\": \"2026-07-29T12:00:00+00:00\"\x7d]"))

/-- An infinite lag hides the measurement behind it. -/
theorem infinite_lag_hides_sample :
    (readableSamples 4300 infiniteThenGood.decodeReplacing).length = 1 ∧
      ∀ samples, parseSamples ⟨9997, 4300⟩ (some infiniteThenGood) ≠ .ok samples := by
  have raised : parseSamples ⟨9997, 4300⟩ (some infiniteThenGood) = .error .overflowError := by decide +kernel
  refine ⟨by decide +kernel, fun samples returned => ?_⟩
  rw [raised] at returned
  cases returned

end IncidentPlatform.Properties

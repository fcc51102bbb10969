import IncidentPlatform.Core.ConsumerLag
import IncidentPlatform.Order.RecentWindow
import IncidentPlatform.Python.JsonRoundTrip

namespace IncidentPlatform.Properties

open IncidentPlatform.Core Dates IncidentPlatform.Order Python

/-! # The lag window

The stored text always writes the recent calls of all that were made, newest first,
and a text of that kind reads back as what it writes.
-/

def callEntry (call : LagCall) : PyValue := sampleEntry call.lag call.now

/-- `{"lag": 3, "measured_at": "…"}`. -/
def callText (call : LagCall) : PyString :=
  123 :: (joined [quoted (pyString "lag") ++ 58 :: 32 :: intText call.lag,
    quoted (pyString "measured_at") ++ 58 :: 32 :: quoted (isoFormat call.now)] ++ [125])

def windowText (calls : List LagCall) : PyString := 91 :: (joined (calls.map callText) ++ [93])

/-- A call whose lag the interpreter can write, at a time from which the window can be
taken. -/
structure Recordable (limits : Limits) (call : LagCall) : Prop where
  short : (decimal call.lag.natAbs).length ≤ limits.digits
  past : earliestMicros + windowMicros ≤ call.now.micros

section Texts

variable {limits : Limits} {digits depth : Nat} {call : LagCall} {calls : List LagCall}

theorem plain_isoFormat (instant : DateTime) : ∀ code ∈ isoFormat instant, isPlain code = true := by
  intro code member
  have range := isoFormat_range instant code member
  unfold isPlain
  simp
  omega

theorem plain_lag : ∀ code ∈ pyString "lag", isPlain code = true := by decide

theorem plain_measured_at : ∀ code ∈ pyString "measured_at", isPlain code = true := by decide

theorem encode_callEntry (short : (decimal call.lag.natAbs).length ≤ digits) :
    encode digits (callEntry call) (depth + 1) = .ok (callText call) := by
  unfold callEntry sampleEntry
  rw [encode, encodeFields, encodeFields, encodeFields, encode_int short, encode]
  rfl

theorem encodeItems_callEntry (short : ∀ call ∈ calls, (decimal call.lag.natAbs).length ≤ digits) :
    encodeItems digits (calls.map callEntry) (depth + 1) = .ok (calls.map callText) := by
  induction calls with
  | nil => rw [List.map_nil, List.map_nil, encodeItems]
  | cons call rest ih =>
    obtain ⟨first, others⟩ := List.forall_mem_cons.mp short
    rw [List.map_cons, List.map_cons, encodeItems, encode_callEntry first, ih others]
    rfl

theorem dumps_window (deep : 2 ≤ limits.depth) (short : ∀ call ∈ calls, (decimal call.lag.natAbs).length ≤ limits.digits) :
    dumps limits (.array (calls.map callEntry)) = .ok (windowText calls) := by
  obtain ⟨depth, same⟩ : ∃ depth, limits.depth = depth + 1 + 1 := ⟨limits.depth - 2, by omega⟩
  rw [dumps, same, encode, encodeItems_callEntry short]
  rfl

theorem reads_callEntry (short : (decimal call.lag.natAbs).length ≤ digits) :
    Reads (scanOnce digits (depth + 1)) (callText call) (callEntry call) := by
  obtain ⟨array, object, same⟩ := scanOnce_eq_scanWith digits depth
  have fields : dictOf [(pyString "lag", .int call.lag), (pyString "measured_at", .string (isoFormat call.now))] =
      [(pyString "lag", .int call.lag), (pyString "measured_at", .string (isoFormat call.now))] := by
    simp [dictOf, setField, pyString]
  have lag : Reads (scanOnce digits depth) (intText call.lag) (.int call.lag) := by
    rw [same]
    exact reads_int short
  have stamp : Reads (scanOnce digits depth) (quoted (isoFormat call.now)) (.string (isoFormat call.now)) := by
    rw [same]
    exact reads_string (plain_isoFormat call.now)
  have reads := @reads_object digits (scanOnce digits depth) (scanArray (scanOnce digits depth)) _ _
    (.cons (reads_field plain_lag lag) (.cons (reads_field plain_measured_at stamp) .nil))
  rw [fields] at reads
  exact reads

theorem loads_window (deep : 2 ≤ limits.depth) (short : ∀ call ∈ calls, (decimal call.lag.natAbs).length ≤ limits.digits) :
    loads limits (windowText calls) = .ok (.array (calls.map callEntry)) := by
  obtain ⟨depth, same⟩ : ∃ depth, limits.depth = depth + 1 + 1 := ⟨limits.depth - 2, by omega⟩
  have each : List.Forall₂ (Reads (scanOnce limits.digits (depth + 1))) (calls.map callText) (calls.map callEntry) := by
    rw [List.forall₂_map_left_iff, List.forall₂_map_right_iff, List.forall₂_same]
    exact fun call member => reads_callEntry (short call member)
  refine loads_of_reads ?_ (show (91 : Nat) ≠ 65279 by decide)
  rw [same]
  exact reads_array each

theorem ascii_joined {parts : List PyString} (each : ∀ part ∈ parts, IsAscii part) : IsAscii (joined parts) := by
  induction parts with
  | nil => exact nofun
  | cons part rest ih =>
    obtain ⟨first, others⟩ := List.forall_mem_cons.mp each
    cases rest with
    | nil => exact first
    | cons next rest =>
      rw [joined, isAscii_append, isAscii_cons, isAscii_cons]
      exact ⟨first, by decide, by decide, ih others⟩

theorem ascii_quoted {text : PyString} (plain : ∀ code ∈ text, isPlain code = true) : IsAscii (quoted text) := by
  have inner : IsAscii text := by
    intro code member
    have range := plain code member
    unfold isPlain at range
    simp only [Bool.and_eq_true, decide_eq_true_eq] at range
    omega
  rw [quoted_plain plain, isAscii_cons, isAscii_append]
  exact ⟨by decide, inner, by decide⟩

theorem ascii_intText (value : Int) : IsAscii (intText value) := by
  have digits : IsAscii (decimal value.natAbs) := by
    intro code member
    have digit := (decimal_spec value.natAbs).digits code member
    unfold isDigit at digit
    simp only [Bool.and_eq_true, decide_eq_true_eq] at digit
    omega
  unfold intText
  split
  · exact isAscii_cons.mpr ⟨by decide, digits⟩
  · exact digits

theorem ascii_callText (call : LagCall) : IsAscii (callText call) := by
  have field {key value : PyString} (plain : ∀ code ∈ key, isPlain code = true) (ascii : IsAscii value) :
      IsAscii (quoted key ++ 58 :: 32 :: value) := by
    rw [isAscii_append, isAscii_cons, isAscii_cons]
    exact ⟨ascii_quoted plain, by decide, by decide, ascii⟩
  rw [callText, isAscii_cons, isAscii_append]
  refine ⟨by decide, ascii_joined ?_, by decide⟩
  intro part member
  rcases List.mem_pair.mp member with rfl | rfl
  · exact field plain_lag (ascii_intText _)
  · exact field plain_measured_at (ascii_quoted (plain_isoFormat _))

theorem ascii_windowText (calls : List LagCall) : IsAscii (windowText calls) := by
  rw [windowText, isAscii_cons, isAscii_append]
  refine ⟨by decide, ascii_joined ?_, by decide⟩
  intro part member
  obtain ⟨call, -, rfl⟩ := List.mem_map.mp member
  exact ascii_callText call

end Texts

section Window

variable {limits : Limits} {client : RedisClient} {call : LagCall} {calls : List LagCall}

def callTime (call : LagCall) : Int := call.now.micros

theorem field_measured_at (call : LagCall) : field "measured_at" [(pyString "lag", .int call.lag),
    (pyString "measured_at", .string (isoFormat call.now))] = .string (isoFormat call.now) := by
  simp [field, pyString, List.lookup_cons]

theorem isRecent_callEntry (cutoff : Int) (call : LagCall) : isRecent cutoff (callEntry call) = decide (cutoff < callTime call) := by
  unfold callEntry sampleEntry isRecent
  dsimp only
  rw [field_measured_at, parseMeasuredAt, parseStamp_isoFormat]
  dsimp only
  rw [micros_utc]
  rfl

/-- The calls within the last 900 s of the newest one, cut to 240; `earlier` is newest
first. -/
def windowCalls (call : LagCall) (earlier : List LagCall) : List LagCall :=
  recent callTime (callTime call - windowMicros) lagSamplesMaxEntries (call :: earlier)

theorem samplesCutoff_recordable (recordable : Recordable limits call) :
    samplesCutoff call.now = .ok (callTime call - windowMicros) := by
  have past := recordable.past
  rw [samplesCutoff, if_neg (by omega)]
  rfl

theorem recordLagSample_over (deep : 2 ≤ limits.depth) (recordable : Recordable limits call)
    (short : ∀ call ∈ calls, (decimal call.lag.natAbs).length ≤ limits.digits) :
    recordLagSample limits client (some (encodeUtf8 (windowText calls))) call.lag call.now =
      .ok (windowText ((call :: calls.filter fun old => decide (callTime call - windowMicros < callTime old)).take
        lagSamplesMaxEntries)) := by
  obtain ⟨raw, reply, decoded, -⟩ := get_ascii client (ascii_windowText calls)
  have kept : keptSamples limits (callTime call - windowMicros) (some raw) =
      .ok ((calls.filter fun old => decide (callTime call - windowMicros < callTime old)).map callEntry) := by
    rw [keptSamples, decoded]
    simp only [bind, Except.bind]
    rw [loads_window deep short, storedEntries]
    dsimp only
    rw [List.filter_map]
    congr 3
    funext old
    exact isRecent_callEntry _ old
  have written := @dumps_window limits ((call :: calls.filter fun old => decide (callTime call - windowMicros < callTime old)).take
    lagSamplesMaxEntries) deep (by
      intro old member
      rcases List.mem_cons.mp (List.mem_of_mem_take member) with rfl | inside
      · exact recordable.short
      · exact short old (List.mem_filter.mp inside).1)
  rw [List.map_take, List.map_cons] at written
  rw [recordLagSample, samplesCutoff_recordable recordable, reply]
  simp only [bind, Except.bind, kept]
  rw [show sampleEntry call.lag call.now = callEntry call from rfl, written]
  rfl

theorem recordLagSample_anew (deep : 2 ≤ limits.depth) (recordable : Recordable limits call) :
    recordLagSample limits client none call.lag call.now = .ok (windowText [call]) := by
  have written := @dumps_window limits [call] deep (by
    intro old member
    rw [List.mem_singleton.mp member]
    exact recordable.short)
  rw [recordLagSample, samplesCutoff_recordable recordable]
  simp only [bind, Except.bind, RedisClient.get, keptSamples]
  rw [show [sampleEntry call.lag call.now].take lagSamplesMaxEntries = [call].map callEntry from rfl, written]
  rfl

def samplesKeyOf (call : LagCall) (calls : List LagCall) : SamplesKey :=
  ⟨encodeUtf8 (windowText calls), call.now.micros + lagSamplesTtl * 1000000⟩

theorem recordCall_step (deep : 2 ≤ limits.depth) {earlier : List LagCall} {last : LagCall}
    (recordable : ∀ old ∈ call :: last :: earlier, Recordable limits old) (sorted : Descending callTime (call :: last :: earlier)) :
    recordCall limits client (some (samplesKeyOf last (windowCalls last earlier))) call =
      some (samplesKeyOf call (windowCalls call (last :: earlier))) := by
  obtain ⟨new, others⟩ := List.forall_mem_cons.mp recordable
  obtain ⟨newer, older⟩ := List.pairwise_cons.mp sorted
  have forward := newer last List.mem_cons_self
  have within : callTime call - windowMicros < callTime call := by
    have positive : (0 : Int) < windowMicros := by decide
    omega
  by_cases live : call.now.micros < last.now.micros + lagSamplesTtl * 1000000
  · have stored : SamplesKey.live (some (samplesKeyOf last (windowCalls last earlier))) call.now.micros =
        some (encodeUtf8 (windowText (windowCalls last earlier))) := if_pos live
    have short : ∀ old ∈ windowCalls last earlier, (decimal old.lag.natAbs).length ≤ limits.digits :=
      fun old member => (others old (mem_recent member)).short
    rw [recordCall, stored, recordLagSample_over deep new short, keyAfter]
    rw [windowCalls, take_cons_filter_recent older (by omega) within]
    rfl
  · have expired : SamplesKey.live (some (samplesKeyOf last (windowCalls last earlier))) call.now.micros = none := if_neg live
    have old : ∀ other ∈ last :: earlier, callTime other ≤ callTime call - windowMicros := by
      intro other member
      have before : callTime other ≤ callTime last := by
        rcases List.mem_cons.mp member with rfl | inside
        · exact le_refl _
        · exact ((List.pairwise_cons.mp older).1 other inside).le
      have apart : (windowMicros : Int) ≤ lagSamplesTtl * 1000000 := by decide
      unfold callTime at before ⊢
      omega
    rw [recordCall, expired, recordLagSample_anew deep new, keyAfter]
    rw [windowCalls, show lagSamplesMaxEntries = 239 + 1 from rfl, recent_cons_of_all_old old within]
    rfl

theorem recordCalls_eq (deep : 2 ≤ limits.depth) (last : LagCall) (earlier : List LagCall)
    (recordable : ∀ call ∈ last :: earlier, Recordable limits call) (sorted : Descending callTime (last :: earlier)) :
    recordCalls limits client (earlier.reverse ++ [last]) = some (samplesKeyOf last (windowCalls last earlier)) := by
  induction earlier generalizing last with
  | nil =>
    have alone : windowCalls last [] = [last] :=
      recent_cons_of_all_old nofun (by
        have positive : (0 : Int) < windowMicros := by decide
        omega)
    rw [alone, List.reverse_nil, List.nil_append, recordCalls, List.foldl_cons, List.foldl_nil, recordCall]
    rw [show SamplesKey.live none last.now.micros = none from rfl,
      recordLagSample_anew deep (recordable last List.mem_cons_self)]
    rfl
  | cons previous earlier ih =>
    have before := ih previous (fun call member => recordable call (List.mem_cons_of_mem _ member))
      (List.pairwise_cons.mp sorted).2
    rw [recordCalls] at before
    rw [recordCalls, List.foldl_append, List.reverse_cons, before, List.foldl_cons, List.foldl_nil]
    exact recordCall_step deep recordable sorted

def readingOf (call : LagCall) : LagSampleReading := ⟨call.lag, ⟨call.now, 0⟩⟩

theorem samplesOf_callEntry (digits : Nat) (calls : List LagCall) :
    samplesOf digits (calls.map callEntry) = .ok (calls.map readingOf) := by
  induction calls with
  | nil => rfl
  | cons call rest ih =>
    have lag : field "lag" [(pyString "lag", .int call.lag), (pyString "measured_at", .string (isoFormat call.now))] =
        .int call.lag := by
      simp [field, pyString]
    have sample : sampleOf digits (callEntry call) = .ok (some (readingOf call)) := by
      unfold callEntry sampleEntry sampleOf
      dsimp only
      rw [field_measured_at, lag, parseMeasuredAt, parseStamp_isoFormat]
      rfl
    rw [List.map_cons, List.map_cons, samplesOf, sample, ih]
    rfl

theorem newestFirst_readings (sorted : Descending callTime calls) : newestFirst (calls.map readingOf) = calls.map readingOf := by
  refine List.mergeSort_of_pairwise ?_
  rw [List.pairwise_map]
  refine sorted.imp ?_
  intro newer older before
  rw [readingOf, readingOf, micros_utc, micros_utc]
  exact decide_eq_true before.le

/-- After every call the window reads as the measurements of the last 900 s, newest
first, cut to the newest 240. -/
theorem parse_samples_recent_past (limits : Limits) (client : RedisClient) (earlier : List LagCall) (last : LagCall)
    (deep : 2 ≤ limits.depth) (recordable : ∀ call ∈ earlier ++ [last], Recordable limits call)
    (increasing : (earlier ++ [last]).Pairwise fun first second => first.now.micros < second.now.micros) :
    ∃ key raw, recordCalls limits client (earlier ++ [last]) = some key ∧ client.get (some key.content) = .ok (some raw) ∧
      parseSamples limits (some raw) =
        .ok ((((earlier ++ [last]).reverse.filter fun call => decide (last.now.micros < call.now.micros + 900 * 1000000)).take
          240).map fun call => ⟨call.lag, ⟨call.now, 0⟩⟩) := by
  have reversed : (earlier ++ [last]).reverse = last :: earlier.reverse := by simp
  have sorted : Descending callTime (last :: earlier.reverse) := by
    rw [← reversed, Descending, List.pairwise_reverse]
    refine increasing.imp ?_
    intro first second before
    unfold callTime
    omega
  have each : ∀ call ∈ last :: earlier.reverse, Recordable limits call := by
    rw [← reversed]
    exact fun call member => recordable call (List.mem_reverse.mp member)
  have stored := @recordCalls_eq limits client deep last earlier.reverse each sorted
  rw [List.reverse_reverse] at stored
  have content : (samplesKeyOf last (windowCalls last earlier.reverse)).content =
      encodeUtf8 (windowText (windowCalls last earlier.reverse)) := rfl
  obtain ⟨raw, reply, -, text⟩ := get_ascii client (ascii_windowText (windowCalls last earlier.reverse))
  rw [← content] at reply
  refine ⟨_, raw, stored, reply, ?_⟩
  have short : ∀ call ∈ windowCalls last earlier.reverse, (decimal call.lag.natAbs).length ≤ limits.digits :=
    fun call member => (each call (mem_recent member)).short
  have window : windowCalls last earlier.reverse =
      ((earlier ++ [last]).reverse.filter fun call => decide (last.now.micros < call.now.micros + 900 * 1000000)).take 240 := by
    rw [reversed, windowCalls, recent]
    congr 2
    funext call
    refine decide_eq_decide.mpr ?_
    have seconds : (windowMicros : Int) = 900 * 1000000 := by decide
    rw [seconds]
    unfold callTime
    omega
  have few : ((windowCalls last earlier.reverse).map readingOf).length ≤ lagSamplesMaxEntries := by
    rw [List.length_map]
    exact List.length_take_le _ _
  have windowSorted : Descending callTime (windowCalls last earlier.reverse) := recent_descending sorted
  have loaded : loads limits raw.decodeReplacing = .ok (.array ((windowCalls last earlier.reverse).map callEntry)) := by
    rw [text, loads_window deep short]
  rw [parseSamples_of_loads loaded (samplesOf_callEntry _ _), newestFirst_readings windowSorted, List.take_of_length_le few,
    window]
  rfl

end Window

def noonOf (hour minute : Nat) (hours : hour < 24) (minutes : minute < 60) : DateTime where
  date := ⟨2025, 7, 30, by decide, by decide, by decide, by decide, by decide, by decide⟩
  hour := hour
  minute := minute
  second := 0
  microsecond := 0
  hour_lt := hours
  minute_lt := minutes
  second_lt := by decide
  microsecond_lt := by decide

def atNoon : LagCall := ⟨noonOf 12 0 (by decide) (by decide), 41⟩
def atTenPast : LagCall := ⟨noonOf 12 10 (by decide) (by decide), 5⟩
def atQuarterPast : LagCall := ⟨noonOf 12 15 (by decide) (by decide), 0⟩

theorem micros_atNoon : atNoon.now.micros = 63889560000000000 := by decide
theorem micros_atTenPast : atTenPast.now.micros = 63889560600000000 := by decide
theorem micros_atQuarterPast : atQuarterPast.now.micros = 63889560900000000 := by decide

/-- A measurement leaves when the window's 900 s are over. -/
theorem parse_samples_recent_past_of_three :
    ∃ key raw, recordCalls ⟨9997, 4300⟩ ⟨true⟩ [atNoon, atTenPast, atQuarterPast] = some key ∧
      (RedisClient.mk true).get (some key.content) = .ok (some raw) ∧
      parseSamples ⟨9997, 4300⟩ (some raw) = .ok [⟨0, ⟨atQuarterPast.now, 0⟩⟩, ⟨5, ⟨atTenPast.now, 0⟩⟩] := by
  obtain ⟨key, raw, stored, reply, read⟩ :=
    parse_samples_recent_past ⟨9997, 4300⟩ ⟨true⟩ [atNoon, atTenPast] atQuarterPast (by decide)
      (by
        intro call member
        have past : earliestMicros + windowMicros ≤ 63889560000000000 := by decide
        simp only [List.cons_append, List.nil_append, List.mem_cons, List.not_mem_nil, or_false] at member
        rcases member with rfl | rfl | rfl
        · exact ⟨by decide, by rw [micros_atNoon]; exact past⟩
        · exact ⟨by decide, by rw [micros_atTenPast]; omega⟩
        · exact ⟨by decide, by rw [micros_atQuarterPast]; omega⟩)
      (by simp [micros_atNoon, micros_atTenPast, micros_atQuarterPast])
  refine ⟨key, raw, stored, reply, ?_⟩
  rw [read]
  simp [micros_atNoon, micros_atTenPast, micros_atQuarterPast]
  exact ⟨rfl, rfl⟩

end IncidentPlatform.Properties

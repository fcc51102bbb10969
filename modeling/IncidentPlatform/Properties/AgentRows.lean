import IncidentPlatform.Frontend.AgentRow
import Mathlib.Data.List.Induction

namespace IncidentPlatform.Properties

open Frontend

/-! # The agent row over the polls of a run

The latch marks the last reached station of the display order, the run's own row
the station of the run's state.
-/

/-- What one poll answers: the run, and the audit rows beside it. -/
structure Poll where
  run : AgentRun
  auditRows : List AuditLog

/-- The poll has the station in the run's history or as the station of its state. -/
def Poll.Reports (poll : Poll) (key : AgentStationKey) : Prop :=
  stateToStation poll.run.state = some key ∨ ∃ entry ∈ poll.run.phaseHistory, stateToStation entry.state = some key

section Latch

variable {K : Type} {cells before after : List (Station K)} {cell station : Station K}

def currentKeys (row : List (Station K)) : List K := (row.filter fun station => station.state = .current).map Station.key

theorem reached_iff : station.reached = true ↔ station.state ≠ .pending := by
  simp [Station.reached]

theorem lastReached_concat :
    lastReached (cells ++ [cell]) = if cell.reached then some cells.length else lastReached cells := by
  simp [lastReached, List.zipIdx_append, List.foldl_append]

theorem lastReached_split (reached : cell.reached = true) (rest : ∀ other ∈ after, other.reached = false) :
    lastReached (before ++ cell :: after) = some before.length := by
  induction after using List.reverseRecOn with
  | nil => rw [lastReached_concat, if_pos reached]
  | append_singleton after last ih =>
    have pending : last.reached = false := rest last (by simp)
    rw [show before ++ cell :: (after ++ [last]) = (before ++ cell :: after) ++ [last] by simp, lastReached_concat, pending]
    exact ih fun other member => rest other (by simp [member])

def markAt (last : Option Nat) (entry : Station K × Nat) : Station K :=
  if entry.1.state = .pending then entry.1
  else { entry.1 with state := if some entry.2 = last then .current else .passed }

def marked (cells : List (Station K)) : List (Station K) := cells.zipIdx.map (markAt (lastReached cells))

theorem markAt_key (last : Option Nat) (entry : Station K × Nat) : (markAt last entry).key = entry.1.key := by
  unfold markAt
  split <;> rfl

theorem markAt_reached (last : Option Nat) (entry : Station K × Nat) : (markAt last entry).reached = entry.1.reached := by
  unfold markAt
  split
  · rfl
  · rename_i reached
    have passes : ∀ state : StationState, state ≠ .pending →
        ({ entry.1 with state } : Station K).reached = true := fun state other => reached_iff.mpr other
    rw [passes _ (by split <;> decide), reached_iff.mpr reached]

theorem markAt_current (last : Option Nat) (entry : Station K × Nat) :
    (markAt last entry).state = .current ↔ entry.1.reached = true ∧ last = some entry.2 := by
  rw [reached_iff]
  unfold markAt
  split
  case isTrue pending => simp [pending]
  case isFalse reached =>
    by_cases same : some entry.2 = last
    · simp [same, reached]
    · simp [same, reached, Ne.symm same]

theorem mem_marked (member : station ∈ marked cells) :
    ∃ cell ∈ cells, station.key = cell.key ∧ station.reached = cell.reached := by
  obtain ⟨entry, present, rfl⟩ := List.mem_map.mp member
  exact ⟨entry.1, List.fst_mem_of_mem_zipIdx present, markAt_key _ entry, markAt_reached _ entry⟩

theorem marked_key : (marked cells).map Station.key = cells.map Station.key := by
  rw [marked, List.map_map, ← List.zipIdx_map_fst 0 cells, List.map_map]
  simp only [List.zipIdx_map_fst]
  exact List.map_congr_left fun entry _ => markAt_key _ entry

theorem currentKeys_marked_eq : currentKeys (marked cells) =
    (cells.zipIdx.filter fun entry => entry.1.reached && lastReached cells = some entry.2).map fun entry => entry.1.key := by
  have current : ((fun station : Station K => decide (station.state = .current)) ∘ markAt (lastReached cells)) =
      fun entry => entry.1.reached && lastReached cells = some entry.2 := by
    funext entry
    rw [Function.comp_apply, Bool.eq_iff_iff, decide_eq_true_eq, markAt_current, Bool.and_eq_true, decide_eq_true_eq]
  rw [currentKeys, marked, List.filter_map, List.map_map, current]
  exact List.map_congr_left fun entry _ => markAt_key _ entry

theorem exists_lastReached : (∀ cell ∈ cells, cell.reached = false) ∨
    ∃ before cell after, cells = before ++ cell :: after ∧ cell.reached = true ∧
      ∀ other ∈ after, other.reached = false := by
  induction cells using List.reverseRecOn with
  | nil => exact Or.inl (by simp)
  | append_singleton cells last ih =>
    cases reached : last.reached with
    | true => exact Or.inr ⟨cells, last, [], rfl, reached, by simp⟩
    | false =>
      rcases ih with unreached | ⟨before, cell, after, rfl, cellReached, rest⟩
      · refine Or.inl fun cell member => ?_
        rcases List.mem_append.mp member with earlier | final
        · exact unreached cell earlier
        · rw [List.mem_singleton.mp final, reached]
      · refine Or.inr ⟨before, cell, after ++ [last], by simp, cellReached, fun other member => ?_⟩
        rcases List.mem_append.mp member with earlier | final
        · exact rest other earlier
        · rw [List.mem_singleton.mp final, reached]

theorem currentKeys_marked_nil (unreached : ∀ cell ∈ cells, cell.reached = false) : currentKeys (marked cells) = [] := by
  rw [currentKeys_marked_eq, List.map_eq_nil_iff, List.filter_eq_nil_iff]
  intro entry member
  simp [unreached entry.1 (List.fst_mem_of_mem_zipIdx member)]

theorem currentKeys_marked_split (reached : cell.reached = true) (rest : ∀ other ∈ after, other.reached = false) :
    currentKeys (marked (before ++ cell :: after)) = [cell.key] := by
  have earlier : (before.zipIdx.filter fun entry => entry.1.reached && some before.length = some entry.2) = [] := by
    rw [List.filter_eq_nil_iff]
    intro entry member
    have index : entry.2 < before.length := by simpa using List.snd_lt_add_of_mem_zipIdx member
    simp only [Bool.and_eq_true, decide_eq_true_eq, Option.some.injEq, not_and]
    intro _
    exact Nat.ne_of_gt index
  have later : ((after.zipIdx (before.length + 1)).filter
      fun entry => entry.1.reached && some before.length = some entry.2) = [] := by
    rw [List.filter_eq_nil_iff]
    intro entry member
    simp [rest entry.1 (List.fst_mem_of_mem_zipIdx member)]
  rw [currentKeys_marked_eq, lastReached_split reached rest, List.zipIdx_append, List.filter_append, earlier,
    List.zipIdx_cons, List.filter_cons, Nat.zero_add, later]
  simp [reached]

end Latch

section Kept

variable {K : Type} [DecidableEq K] {previous next : List (Station K)} {station : Station K}

def keptCell (previous : List (Station K)) (station : Station K) : Station K :=
  if station.state ≠ .pending then station
  else match previous.reverse.find? fun old => old.key = station.key with
    | none => station
    | some old => if old.state = .pending then station else { old with label := station.label }

theorem latchStations_some : latchStations (some previous) next = marked (next.map (keptCell previous)) := rfl

theorem keptCell_key : (keptCell previous station).key = station.key := by
  unfold keptCell
  split
  · rfl
  · split
    · rfl
    · rename_i old found
      have same := List.find?_some found
      split
      · rfl
      · exact of_decide_eq_true same

theorem keptCell_reached (distinct : (previous.map Station.key).Nodup) :
    (keptCell previous station).reached = true ↔
      station.reached = true ∨ ∃ old ∈ previous, old.key = station.key ∧ old.reached = true := by
  simp only [reached_iff]
  unfold keptCell
  split
  case isTrue reached => simp [reached]
  case isFalse pending =>
    simp only [pending, false_or]
    split
    case h_1 missing =>
      simp only [List.find?_eq_none, List.mem_reverse, decide_eq_true_eq] at missing
      simp only [pending, false_iff]
      rintro ⟨old, present, same, -⟩
      exact missing old present same
    case h_2 old found =>
      have same : old.key = station.key := by
        have holds := List.find?_some found
        exact of_decide_eq_true holds
      have present : old ∈ previous := List.mem_reverse.mp (List.mem_of_find?_eq_some found)
      have only : (∃ old ∈ previous, old.key = station.key ∧ old.state ≠ .pending) ↔ old.state ≠ .pending := by
        constructor
        · rintro ⟨other, member, key, reached⟩
          rwa [List.inj_on_of_nodup_map distinct present member (same.trans key.symm)]
        · intro reached
          exact ⟨old, present, same, reached⟩
      rw [only]
      split
      case isTrue unreached => simp [unreached, pending]
      case isFalse reached => simp [reached]

end Kept

section Agent

variable {row previous next : List (Station AgentStationKey)} {reported before now : AgentStationKey → Prop}
  {poll : Poll} {dates : DateParser}

/-- A row with a station for each key, reached where the key was reported. -/
structure Shows (row : List (Station AgentStationKey)) (reported : AgentStationKey → Prop) : Prop where
  keys : row.map Station.key = agentRowKeys
  reached : ∀ station ∈ row, station.reached = true ↔ reported station.key

theorem agentRowKeys_sorted : agentRowKeys.Pairwise fun first second => agentRowKeys.idxOf first < agentRowKeys.idxOf second := by
  decide

theorem mem_agentRowKeys (key : AgentStationKey) : key ∈ agentRowKeys := by
  cases key <;> decide

theorem Shows.exists_station (shows : Shows row reported) (key : AgentStationKey) : ∃ station ∈ row, station.key = key := by
  have member : key ∈ row.map Station.key := shows.keys ▸ mem_agentRowKeys key
  exact List.mem_map.mp member

theorem Shows.nodup (shows : Shows row reported) : (row.map Station.key).Nodup := shows.keys ▸ by decide

theorem shows_kept (earlier : Shows previous before) (later : Shows next now) :
    Shows (next.map (keptCell previous)) fun key => now key ∨ before key := by
  constructor
  · rw [List.map_map, ← later.keys]
    exact List.map_congr_left fun station _ => keptCell_key
  · intro station member
    obtain ⟨source, present, rfl⟩ := List.mem_map.mp member
    rw [keptCell_reached earlier.nodup, keptCell_key, later.reached source present]
    refine or_congr_right ⟨?_, fun known => ?_⟩
    · rintro ⟨old, oldIn, same, reached⟩
      exact same ▸ (earlier.reached old oldIn).mp reached
    · obtain ⟨old, oldIn, same⟩ := earlier.exists_station source.key
      exact ⟨old, oldIn, same, (earlier.reached old oldIn).mpr (same ▸ known)⟩

theorem Shows.marked (shows : Shows row reported) : Shows (marked row) reported where
  keys := marked_key.trans shows.keys
  reached := by
    intro station member
    obtain ⟨cell, present, key, reached⟩ := mem_marked member
    rw [key, reached]
    exact shows.reached cell present

theorem shows_latchStations (earlier : Shows previous before) (later : Shows next now) :
    Shows (latchStations (some previous) next) fun key => now key ∨ before key :=
  (shows_kept earlier later).marked

theorem currentKeys_marked_iff (shows : Shows row reported) {state : Option AgentStationKey}
    (own : ∀ station ∈ state, reported station) : currentKeys (marked row) = state.toList ↔
      ∀ key, reported key → ∃ station ∈ state, agentRowKeys.idxOf key ≤ agentRowKeys.idxOf station := by
  rcases @exists_lastReached _ row with unreached | ⟨front, cell, back, rfl, reached, rest⟩
  · have nothing (key : AgentStationKey) : ¬ reported key := by
      obtain ⟨station, present, rfl⟩ := shows.exists_station key
      rw [← shows.reached station present, unreached station present]
      exact Bool.false_ne_true
    have silent : state = none := Option.eq_none_iff_forall_not_mem.mpr fun station known => nothing station (own station known)
    rw [currentKeys_marked_nil unreached, silent]
    exact ⟨fun _ key known => absurd known (nothing key), fun _ => rfl⟩
  · have known : reported cell.key := (shows.reached cell (by simp)).mp reached
    have behind (key : AgentStationKey) (reportedKey : reported key) :
        agentRowKeys.idxOf key ≤ agentRowKeys.idxOf cell.key := by
      obtain ⟨other, present, rfl⟩ := shows.exists_station key
      have sorted : ((front ++ cell :: back).map Station.key).Pairwise
          fun first second => agentRowKeys.idxOf first < agentRowKeys.idxOf second := shows.keys ▸ agentRowKeys_sorted
      rw [List.pairwise_map, List.pairwise_append] at sorted
      rcases List.mem_append.mp present with earlier | later
      · exact le_of_lt (sorted.2.2 other earlier cell List.mem_cons_self)
      · rcases List.mem_cons.mp later with rfl | later
        · exact le_refl _
        · have reachedOther := (shows.reached other present).mpr reportedKey
          rw [rest other later] at reachedOther
          cases reachedOther
    rw [currentKeys_marked_split reached rest]
    constructor
    · intro same key reportedKey
      match state with
      | some station =>
        cases same
        exact ⟨cell.key, rfl, behind key reportedKey⟩
    · intro last
      obtain ⟨station, known, atMost⟩ := last cell.key known
      have equal := le_antisymm atMost (behind station (own station known))
      rw [(List.idxOf_inj (mem_agentRowKeys cell.key)).mp equal, Option.mem_def.mp known, Option.toList_some]

theorem agentStation_state (run : AgentRun) (options : AgentRowOptions) (key : AgentStationKey) :
    (agentStation dates (some run) options key).state =
      if stateToStation run.state = some key then .current
      else if 0 < ((inTimeOrder run.phaseHistory).zipIdx.filter fun entry =>
        stateToStation entry.1.state = some key).length then .passed
      else .pending := rfl

theorem visited_iff {history : List AgentRunPhase} {key : AgentStationKey} :
    0 < ((inTimeOrder history).zipIdx.filter fun entry => stateToStation entry.1.state = some key).length ↔
      ∃ entry ∈ history, stateToStation entry.state = some key := by
  rw [List.length_pos_iff_exists_mem]
  simp only [List.mem_filter, decide_eq_true_eq]
  constructor
  · rintro ⟨entry, member, station⟩
    exact ⟨entry.1, (List.mem_insertionSort _).mp (List.fst_mem_of_mem_zipIdx member), station⟩
  · rintro ⟨entry, present, station⟩
    have member : entry ∈ (inTimeOrder history).zipIdx.map Prod.fst := by
      rw [List.zipIdx_map_fst]
      exact (List.mem_insertionSort _).mpr present
    obtain ⟨indexed, listed, rfl⟩ := List.mem_map.mp member
    exact ⟨indexed, listed, station⟩

theorem agentReading_eq : agentReading dates poll.run poll.auditRows =
    agentRowKeys.map (agentStation dates (some poll.run) { arrivals := some (reportArrivals poll.auditRows (some poll.run.id)) }) :=
  rfl

theorem shows_agentReading : Shows (agentReading dates poll.run poll.auditRows) poll.Reports := by
  rw [agentReading_eq]
  constructor
  · rw [List.map_map]
    exact List.map_id _
  · intro station member
    obtain ⟨key, -, rfl⟩ := List.mem_map.mp member
    rw [reached_iff, agentStation_state, Poll.Reports, ← visited_iff]
    show _ ↔ stateToStation poll.run.state = some key ∨ _
    split
    case isTrue own => simp [own]
    case isFalse other =>
      rw [or_iff_right other]
      split
      case isTrue visited => exact ⟨fun _ => visited, fun _ => by decide⟩
      case isFalse unvisited => exact ⟨fun absent => absurd rfl absent, fun visited => absurd visited unvisited⟩

theorem currentKeys_agentReading :
    currentKeys (agentReading dates poll.run poll.auditRows) = (stateToStation poll.run.state).toList := by
  have current (key : AgentStationKey) (options : AgentRowOptions) :
      (agentStation dates (some poll.run) options key).state = .current ↔ stateToStation poll.run.state = some key := by
    rw [agentStation_state]
    split
    case isTrue own => exact ⟨fun _ => own, fun _ => rfl⟩
    case isFalse other =>
      refine ⟨fun marked => ?_, fun own => absurd own other⟩
      split at marked <;> cases marked
  rw [agentReading_eq, currentKeys, List.filter_map, List.map_map]
  simp only [Function.comp_def, current]
  rw [show (fun key => (agentStation dates (some poll.run)
    { arrivals := some (reportArrivals poll.auditRows (some poll.run.id)) } key).key) = id from rfl, List.map_id]
  match stateToStation poll.run.state with
  | none => rfl
  | some key => cases key <;> rfl

end Agent

section Polls

variable {dates : DateParser} {held : Option (HeldRow AgentStationKey)} {key : JsString} {earlier : List Poll} {poll : Poll}

def heldAfter (dates : DateParser) (held : Option (HeldRow AgentStationKey)) (key : JsString) (polls : List Poll) :
    Option (HeldRow AgentStationKey) :=
  polls.foldl (fun held poll => some (useLatchedRow held key (agentReading dates poll.run poll.auditRows))) held

/-- The row shown at a poll that comes after the earlier ones. -/
def shownRow (dates : DateParser) (held : Option (HeldRow AgentStationKey)) (key : JsString) (earlier : List Poll)
    (poll : Poll) : List (Station AgentStationKey) :=
  (useLatchedRow (heldAfter dates held key earlier) key (agentReading dates poll.run poll.auditRows)).row

def KeepsStations (dates : DateParser) (held : Option (HeldRow AgentStationKey)) (key : JsString) (polls : List Poll) : Prop :=
  ∀ earlier first second later, polls = earlier ++ first :: second :: later →
    ∀ station ∈ shownRow dates held key earlier first, station.reached = true →
      ∃ kept ∈ shownRow dates held key (earlier ++ [first]) second, kept.key = station.key ∧ kept.reached = true

/-- At every poll the station marked current is the one of the run's state. -/
def ShowsState (dates : DateParser) (held : Option (HeldRow AgentStationKey)) (key : JsString) (polls : List Poll) : Prop :=
  ∀ earlier poll later, polls = earlier ++ poll :: later →
    currentKeys (shownRow dates held key earlier poll) = (stateToStation poll.run.state).toList

/-- No station reported up to this poll stands behind the one of the run's state. -/
def Foremost (earlier : List Poll) (poll : Poll) : Prop :=
  ∀ other ∈ earlier ++ [poll], ∀ key, other.Reports key →
    ∃ station ∈ stateToStation poll.run.state, agentRowKeys.idxOf key ≤ agentRowKeys.idxOf station

theorem heldAfter_concat : heldAfter dates held key (earlier ++ [poll]) =
    some { key, row := shownRow dates held key earlier poll } := by
  rw [heldAfter, List.foldl_append]
  rfl

theorem shownRow_concat {next : Poll} : shownRow dates held key (earlier ++ [poll]) next =
    latchStations (some (shownRow dates held key earlier poll)) (agentReading dates next.run next.auditRows) := by
  rw [shownRow, heldAfter_concat]
  simp [useLatchedRow]

theorem shownRow_nil (fresh : ∀ old ∈ held, old.key ≠ key) : shownRow dates held key [] poll =
    if held.isSome then agentReading dates poll.run poll.auditRows
    else latchStations (some (agentReading dates poll.run poll.auditRows)) (agentReading dates poll.run poll.auditRows) := by
  match held with
  | none => simp [shownRow, heldAfter, useLatchedRow]
  | some old => simp [shownRow, heldAfter, useLatchedRow, fresh old rfl]

theorem Shows.congr {row : List (Station AgentStationKey)} {reported known : AgentStationKey → Prop}
    (shows : Shows row reported) (same : ∀ key, reported key ↔ known key) : Shows row known :=
  ⟨shows.keys, fun station member => (shows.reached station member).trans (same station.key)⟩

theorem shows_shownRow (fresh : ∀ old ∈ held, old.key ≠ key) :
    Shows (shownRow dates held key earlier poll) fun station => ∃ other ∈ earlier ++ [poll], other.Reports station := by
  induction earlier using List.reverseRecOn generalizing poll with
  | nil =>
    rw [shownRow_nil fresh]
    split
    · exact shows_agentReading.congr fun station => by simp
    · exact (shows_latchStations shows_agentReading shows_agentReading).congr fun station => by simp
  | append_singleton earlier last ih =>
    rw [shownRow_concat]
    refine (shows_latchStations ih shows_agentReading).congr fun station => ?_
    simp only [List.mem_append, List.mem_singleton, or_and_right, exists_or, exists_eq_left]
    exact or_comm

theorem shownRow_marked (fresh : ∀ old ∈ held, old.key ≠ key) (latched : ¬ (earlier = [] ∧ held.isSome = true)) :
    ∃ cells, shownRow dates held key earlier poll = marked cells ∧
      Shows cells fun station => ∃ other ∈ earlier ++ [poll], other.Reports station := by
  rcases List.eq_nil_or_concat' earlier with rfl | ⟨front, last, rfl⟩
  · have mount : held.isSome = false := Bool.eq_false_iff.mpr fun some => latched ⟨rfl, some⟩
    rw [shownRow_nil fresh, mount]
    exact ⟨_, latchStations_some, (shows_kept shows_agentReading shows_agentReading).congr fun station => by simp⟩
  · refine ⟨_, shownRow_concat.trans latchStations_some,
      (shows_kept (shows_shownRow fresh) shows_agentReading).congr fun station => ?_⟩
    simp only [List.mem_append, List.mem_singleton, or_and_right, exists_or, exists_eq_left]
    exact or_comm

theorem currentKeys_shownRow (fresh : ∀ old ∈ held, old.key ≠ key) :
    currentKeys (shownRow dates held key earlier poll) = (stateToStation poll.run.state).toList ↔
      (earlier = [] ∧ held.isSome = true) ∨ Foremost earlier poll := by
  by_cases first : earlier = [] ∧ held.isSome = true
  · obtain ⟨rfl, mounted⟩ := first
    rw [shownRow_nil fresh, if_pos mounted]
    exact ⟨fun _ => Or.inl ⟨rfl, mounted⟩, fun _ => currentKeys_agentReading⟩
  · obtain ⟨cells, row, shows⟩ := @shownRow_marked dates held key earlier poll fresh first
    have own (station : AgentStationKey) (state : station ∈ stateToStation poll.run.state) :
        ∃ other ∈ earlier ++ [poll], other.Reports station := ⟨poll, by simp, Or.inl state⟩
    rw [row, currentKeys_marked_iff shows own, or_iff_right first]
    constructor
    · intro foremost other member station reports
      exact foremost station ⟨other, member, reports⟩
    · rintro foremost station ⟨other, member, reports⟩
      exact foremost other member station reports

theorem keepsStations (fresh : ∀ old ∈ held, old.key ≠ key) (polls : List Poll) : KeepsStations dates held key polls := by
  intro earlier first second later _ station member reached
  have before := @shows_shownRow dates held key earlier first fresh
  have after := @shows_shownRow dates held key (earlier ++ [first]) second fresh
  obtain ⟨other, present, reports⟩ := (before.reached station member).mp reached
  obtain ⟨kept, keptIn, same⟩ := after.exists_station station.key
  refine ⟨kept, keptIn, same, (after.reached kept keptIn).mpr ⟨other, List.mem_append_left _ present, ?_⟩⟩
  rw [same]
  exact reports

/-- The latched row keeps every station, and it shows the run's state at each poll
exactly when at each poll, but for the first of a take and run that the page has
turned to, no station reported so far stands behind the one of that state. -/
theorem agent_row_shows_state_iff (dates : DateParser) (held : Option (HeldRow AgentStationKey)) (key : JsString)
    (polls : List Poll) (fresh : ∀ old ∈ held, old.key ≠ key) :
    (KeepsStations dates held key polls ∧ ShowsState dates held key polls) ↔
      ∀ earlier poll later, polls = earlier ++ poll :: later → (earlier = [] ∧ held.isSome = true) ∨ Foremost earlier poll := by
  constructor
  · rintro ⟨-, shows⟩ earlier poll later split
    exact (currentKeys_shownRow fresh).mp (shows earlier poll later split)
  · intro foremost
    refine ⟨keepsStations fresh polls, fun earlier poll later split => ?_⟩
    exact (currentKeys_shownRow fresh).mpr (foremost earlier poll later split)

def minuteDates : DateParser := fun stamp =>
  if stamp = jsString "2026-09-19T10:01:00Z" then some 1789812060000
  else if stamp = jsString "2026-09-19T10:02:00Z" then some 1789812120000
  else if stamp = jsString "2026-09-19T10:03:00Z" then some 1789812180000
  else if stamp = jsString "2026-09-19T10:04:00Z" then some 1789812240000
  else none

/-- A poll of a run with that history, in its last state. -/
def pollOf (state : AgentRunState) (phaseHistory : List AgentRunPhase) : Poll where
  run := { id := "run", state, phaseHistory, startedAt := jsString "2026-09-19T10:01:00Z", finishedAt := none }
  auditRows := []

def toVerifying : List AgentRunPhase :=
  [⟨.investigating, jsString "2026-09-19T10:01:00Z"⟩, ⟨.remediating, jsString "2026-09-19T10:02:00Z"⟩,
    ⟨.verifying, jsString "2026-09-19T10:03:00Z"⟩]

def handedBack : List AgentRunPhase := toVerifying ++ [⟨.investigating, jsString "2026-09-19T10:04:00Z"⟩]

/-- Each poll finds the run one station further. -/
def straightPolls : List Poll :=
  [pollOf .investigating (toVerifying.take 1), pollOf .remediating (toVerifying.take 2),
    pollOf .verifying toVerifying]

theorem agent_row_shows_state_iff_of_verifying :
    KeepsStations minuteDates none (jsString "open→now|run") straightPolls ∧
      ShowsState minuteDates none (jsString "open→now|run") straightPolls := by
  refine (agent_row_shows_state_iff minuteDates none _ _ (by simp)).mpr fun earlier poll later split => .inr ?_
  intro other member key reports
  have reported : stateToStation poll.run.state = some .investigating ∧ key = .investigating ∨
      stateToStation poll.run.state = some .remediating ∧ (key = .investigating ∨ key = .remediating) ∨
      stateToStation poll.run.state = some .verifying ∧
        (key = .investigating ∨ key = .remediating ∨ key = .verifying) := by
    match earlier with
    | [] | [_] | [_, _] =>
        cases split
        simp only [List.nil_append, List.cons_append, List.mem_cons, List.not_mem_nil, or_false] at member
        rcases member with rfl | rfl | rfl <;>
          simp_all [Poll.Reports, pollOf, toVerifying, stateToStation, eq_comm] <;> tauto
    | _ :: _ :: _ :: rest => simp [straightPolls] at split
  rcases reported with ⟨state, rfl⟩ | ⟨state, rfl | rfl⟩ | ⟨state, rfl | rfl | rfl⟩ <;>
    exact ⟨_, state, by decide⟩

/-- A run handed back from verifying to investigating is shown as verifying. -/
theorem agent_row_misses_hand_back :
    currentKeys (shownRow minuteDates none (jsString "open→now|run") [pollOf .verifying toVerifying]
      (pollOf .investigating handedBack)) = [.verifying] ∧
    ¬ (KeepsStations minuteDates none (jsString "open→now|run")
        [pollOf .verifying toVerifying, pollOf .investigating handedBack] ∧
      ShowsState minuteDates none (jsString "open→now|run")
        [pollOf .verifying toVerifying, pollOf .investigating handedBack]) := by
  have shown : currentKeys (shownRow minuteDates none (jsString "open→now|run") [pollOf .verifying toVerifying]
      (pollOf .investigating handedBack)) = [.verifying] := by decide
  refine ⟨shown, fun ⟨_, shows⟩ => ?_⟩
  have own := shows [pollOf .verifying toVerifying] (pollOf .investigating handedBack) [] rfl
  rw [shown] at own
  exact absurd own (by decide)

end Polls

end IncidentPlatform.Properties

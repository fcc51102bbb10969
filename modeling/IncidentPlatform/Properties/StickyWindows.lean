import IncidentPlatform.Workers.StickyKill

namespace IncidentPlatform.Properties

open Concurrency Workers GroupKill

/-! # The window of a sticky kill

A sticky call holds its group down until its deadline, whatever the order of the
commands.  That nothing outlives the window needs the re-arm to find, when it
sets the flag, a marker that lasts as long as the one it read.
-/

variable {Process : Type} {chaosEnabled : Bool} {group after : GroupKill Process} {process : Process}

def Reaches (window : Option Nat) (instant : Nat) : Prop :=
  ∃ last, window = some last ∧ instant ≤ last

theorem Reaches.earlier {window : Option Nat} {instant earlier : Nat} (reaches : Reaches window instant)
    (before : earlier ≤ instant) : Reaches window earlier := by
  obtain ⟨last, isSome, within⟩ := reaches
  exact ⟨last, isSome, by omega⟩

instance (window : Option Nat) (instant : Nat) : Decidable (Reaches window instant) :=
  decidable_of_iff (window.any fun last => instant ≤ last) (by simp [Reaches, Option.any_eq_true])

structure AbsoluteWindow (group : GroupKill Process) : Prop where
  /-- No read answers that the group is not killed before a deadline in force. -/
  held : ∀ answer ∈ group.history.answers, answer.killed = false →
    ∀ deadline, answer.inForce = some deadline → deadline ≤ answer.instant
  /-- The flag is not there after the last windows. -/
  ends : group.has .kill = true →
    Reaches group.history.stickyUntil group.now ∨ Reaches group.history.plainUntil group.now
  /-- No re-arm sets the flag between a reset and the next kill call. -/
  reset : ∀ rearmed ∈ group.history.rearms, rearmed.instant ≤ rearmed.deadline → rearmed.afterReset = false

/-- A re-arm finds a marker that lasts as long as the one it read, and no sticky
call whose flag it would outlast and whose marker is to come.  A marker is written
with no other sticky call's flag and no reset since the call's own flag. -/
def KeepsWindow (group : GroupKill Process) : Action Process → Prop
  | .rearm process => ∀ deadline, group.phase process = .rearming deadline → group.now ≤ deadline →
      (∃ standing, Expiring.get group.now group.marker = some (.unixTime standing) ∧ deadline ≤ standing) ∧
        (group.halfway = none ∨ Reaches group.history.stickyUntil deadline)
  | .mark process => group.halfway = some process ∧ group.history.afterReset = false ∧
      ∀ other, (group.phase other).resetting = false
  | _ => True

section Keys

variable {Value : Type} {stored : Option (Expiring Value)} {value : Value} {now later : Nat}

theorem get_eq_some_iff : Expiring.get now stored = some value ↔
    ∃ held, stored = some held ∧ now ≤ held.expiresAt ∧ held.value = value := by
  cases stored with
  | none => simp [Expiring.get]
  | some held => simp [Expiring.get]

theorem get_isSome_iff : (Expiring.get now stored).isSome = true ↔
    ∃ held, stored = some held ∧ now ≤ held.expiresAt := by
  cases stored with
  | none => simp [Expiring.get]
  | some held => simp [Expiring.get]

theorem isSome_earlier (before : now ≤ later) (found : (Expiring.get later stored).isSome = true) :
    (Expiring.get now stored).isSome = true := by
  obtain ⟨held, isSome, within⟩ := get_isSome_iff.mp found
  exact get_isSome_iff.mpr ⟨held, isSome, by omega⟩

theorem rearmStickyKill_of_open {now deadline : Nat} (enabled : chaosEnabled = true) (before : now < deadline) :
    rearmStickyKill chaosEnabled now (some (.unixTime deadline)) = some deadline := by
  simp [rearmStickyKill, stickyDeadline, enabled, before]

end Keys

section Deadline

/-- A kill call's deadline is no later than the window of a write made now. -/
def CallSound (chaosEnabled : Bool) (now : Nat) : KillPhase → Prop
  | .killing call expiresAt | .marking call expiresAt => chaosEnabled = true ∧ expiresAt ≤ now + call.ttl
  | _ => True

theorem CallSound.later {now later : Nat} {phase : KillPhase} (sound : CallSound chaosEnabled now phase)
    (before : now ≤ later) : CallSound chaosEnabled later phase := by
  cases phase with
  | killing call expiresAt | marking call expiresAt =>
      obtain ⟨enabled, bounded⟩ := sound
      exact ⟨enabled, by omega⟩
  | _ => trivial

theorem CallSound.forget {now : Nat} {key : ChaosKey} {phase : KillPhase}
    (sound : CallSound chaosEnabled now phase) : CallSound chaosEnabled now (phase.forget key) := by
  cases phase with
  | scanning owed | deleting batch owed last => trivial
  | _ => exact sound

structure Held (chaosEnabled : Bool) (group : GroupKill Process) : Prop where
  calls : ∀ process, CallSound chaosEnabled group.now (group.phase process)
  inForce : ∀ deadline, group.history.inForce = some deadline → chaosEnabled = true ∧
    ∃ expiresAt, group.marker = some ⟨.unixTime deadline, expiresAt⟩ ∧ deadline ≤ expiresAt
  answers : ∀ answer ∈ group.history.answers, answer.killed = false →
    ∀ deadline, answer.inForce = some deadline → deadline ≤ answer.instant

theorem held_initial : Held chaosEnabled (.initial : GroupKill Process) := by
  constructor <;> simp [initial, CallSound]

theorem Held.pass (held : Held chaosEnabled group) (elapsed : Nat) :
    Held chaosEnabled { group with now := group.now + elapsed } :=
  ⟨fun process => (held.calls process).later (Nat.le_add_right ..), held.inForce, held.answers⟩

theorem Held.appears (held : Held chaosEnabled group) (key : ChaosKey) :
    ∀ process, CallSound chaosEnabled group.now ((group.appears key).phase process) := by
  intro process
  simp only [GroupKill.appears]
  split
  · exact held.calls process
  · exact (held.calls process).forget

theorem Held.read_passed (held : Held chaosEnabled group)
    (idle : rearmStickyKill chaosEnabled group.now (Expiring.get group.now group.marker) = none)
    {deadline : Nat} (inForce : group.history.inForce = some deadline) : deadline ≤ group.now := by
  obtain ⟨enabled, expiresAt, stored, lasts⟩ := held.inForce deadline inForce
  by_contra early
  have found : Expiring.get group.now group.marker = some (.unixTime deadline) :=
    get_eq_some_iff.mpr ⟨_, stored, by simp only; omega, rfl⟩
  rw [found, rearmStickyKill_of_open enabled (by omega)] at idle
  cases idle

theorem Held.answer (held : Held chaosEnabled group) {killed : Bool}
    (passed : killed = false → ∀ deadline, group.history.inForce = some deadline → deadline ≤ group.now) :
    Held chaosEnabled (group.answer killed) := by
  refine ⟨held.calls, held.inForce, fun answer member => ?_⟩
  obtain rfl | older := List.mem_cons.mp member
  · exact passed
  · exact held.answers answer older

theorem Held.of_kept (held : Held chaosEnabled group)
    (calls : ∀ process, CallSound chaosEnabled after.now (after.phase process))
    (marker : after.marker = group.marker) (inForce : after.history.inForce = group.history.inForce)
    (answers : after.history.answers = group.history.answers) : Held chaosEnabled after := by
  refine ⟨calls, ?_, ?_⟩
  · rw [inForce, marker]
    exact held.inForce
  · rw [answers]
    exact held.answers

theorem Held.setFlag (held : Held chaosEnabled group) (expiresAt : Nat) :
    Held chaosEnabled (group.setFlag expiresAt) :=
  held.of_kept (held.appears .kill) rfl rfl rfl

theorem Held.restart (held : Held chaosEnabled group) : Held chaosEnabled group.restart :=
  held.of_kept held.calls rfl rfl rfl

variable [DecidableEq Process]

theorem Held.goto (held : Held chaosEnabled group) {phase : KillPhase}
    (sound : CallSound chaosEnabled group.now phase) : Held chaosEnabled (group.goto process phase) := by
  refine ⟨fun other => ?_, held.inForce, held.answers⟩
  by_cases own : other = process
  · subst own
    simpa [GroupKill.goto] using sound
  · simpa [GroupKill.goto, own] using held.calls other

theorem Held.callKill (held : Held chaosEnabled group) {call : KillCall}
    (called : group.callKill chaosEnabled process call = some after) : Held chaosEnabled after := by
  unfold GroupKill.callKill at called
  split at called
  · rename_i passes
    cases called
    have going : Held chaosEnabled (group.goto process (.killing call (group.now + call.ttl))) :=
      held.goto ⟨passes.1, Nat.le_refl _⟩
    exact going.of_kept going.calls rfl rfl rfl
  · contradiction

theorem Held.arm (held : Held chaosEnabled group) (armed : group.arm process = some after) :
    Held chaosEnabled after := by
  unfold GroupKill.arm at armed
  split at armed
  · rename_i call expiresAt killing
    have sound := held.calls process
    rw [killing] at sound
    have flagged := held.setFlag (group.now + call.ttl)
    simp only at armed
    split at armed <;> cases armed
    · have going := @Held.goto _ _ _ process _ flagged (.marking call expiresAt) sound
      exact going.of_kept going.calls rfl rfl rfl
    · have going := @Held.goto _ _ _ process _ flagged .idle trivial
      exact going.of_kept going.calls rfl rfl rfl
  · contradiction

theorem Held.mark (held : Held chaosEnabled group) (marked : group.mark process = some after) :
    Held chaosEnabled after := by
  unfold GroupKill.mark at marked
  split at marked
  · rename_i call expiresAt marking
    cases marked
    obtain ⟨enabled, bounded⟩ : chaosEnabled = true ∧ expiresAt ≤ group.now + call.ttl := by
      have sound := held.calls process
      rwa [marking] at sound
    refine ⟨fun other => ?_, fun deadline inForce => ?_, held.answers⟩
    · by_cases own : other = process
      · subst own
        simp [GroupKill.goto, CallSound]
      · have sound := held.appears .killSticky other
        simpa [GroupKill.goto, own, GroupKill.setMarker] using sound
    · cases inForce
      exact ⟨enabled, _, rfl, bounded⟩
  · contradiction

theorem Held.readKillState (held : Held chaosEnabled group)
    (read : group.readKillState chaosEnabled process = some after) : Held chaosEnabled after := by
  unfold GroupKill.readKillState at read
  split at read
  · split at read
    · cases read
      exact held.answer fun killed => by cases killed
    · split at read
      · cases read
        exact held.goto trivial
      · rename_i idle
        cases read
        exact held.answer fun _ deadline inForce => held.read_passed idle inForce
  · contradiction

theorem Held.rearm (held : Held chaosEnabled group) (rearmed : group.rearm process = some after) :
    Held chaosEnabled after := by
  unfold GroupKill.rearm at rearmed
  split at rearmed
  · rename_i deadline rearming
    cases rearmed
    have answered : Held chaosEnabled ((group.setFlag deadline).answer true) :=
      (held.setFlag deadline).answer fun killed => by cases killed
    have going := @Held.goto _ _ _ process _ answered .idle trivial
    exact going.of_kept going.calls rfl rfl rfl
  · contradiction

theorem Held.cleared (held : Held chaosEnabled group) : Held chaosEnabled (group.cleared process) := by
  have going := @Held.goto _ _ _ process _ held .idle trivial
  exact going.of_kept going.calls rfl rfl rfl

theorem Held.scanFrom (held : Held chaosEnabled group) {owed batch : List ChaosKey} {last : Bool}
    (scanned : group.scanFrom process owed batch last = some after) : Held chaosEnabled after := by
  unfold GroupKill.scanFrom at scanned
  simp only at scanned
  split at scanned
  · split at scanned
    · split at scanned <;> cases scanned
      · exact held.cleared
      · exact held.goto trivial
    · cases scanned
      exact held.goto trivial
  · contradiction

theorem Held.scan (held : Held chaosEnabled group) {batch : List ChaosKey} {last : Bool}
    (scanned : group.scan process batch last = some after) : Held chaosEnabled after := by
  unfold GroupKill.scan at scanned
  split at scanned
  · exact held.scanFrom scanned
  · exact held.scanFrom scanned
  · contradiction

theorem Held.delete (held : Held chaosEnabled group) (deleted : group.delete process = some after) :
    Held chaosEnabled after := by
  unfold GroupKill.delete at deleted
  split at deleted
  · rename_i batch owed last deleting
    have emptied : Held chaosEnabled { group with
        flag := if batch.contains .kill then none else group.flag
        marker := if batch.contains .killSticky then none else group.marker
        history := { group.history with inForce := none } } :=
      ⟨held.calls, fun _ inForce => by (cases inForce), held.answers⟩
    simp only [Option.some.injEq] at deleted
    subst deleted
    split
    · exact emptied.cleared
    · exact emptied.goto trivial
  · contradiction

theorem Held.step (held : Held chaosEnabled group) {action : Action Process}
    (stepped : GroupKill.step chaosEnabled action group = some after) : Held chaosEnabled after := by
  cases action with
  | pass elapsed =>
      cases stepped
      exact held.pass elapsed
  | callKill process call => exact held.callKill stepped
  | arm process => exact held.arm stepped
  | mark process => exact held.mark stepped
  | restart =>
      cases stepped
      exact held.restart
  | read process => exact held.readKillState stepped
  | rearm process => exact held.rearm stepped
  | scan process batch last => exact held.scan stepped
  | delete process => exact held.delete stepped

end Deadline

section Window

/-- A marker that is there is in the batch or owed, and in the batch after the
last `SCAN`. -/
def Owes : KillPhase → Prop
  | .scanning owed => .killSticky ∈ owed
  | .deleting batch owed last => .killSticky ∈ batch ∨ last = false ∧ .killSticky ∈ owed
  | _ => True

theorem Owes.of_not_resetting {phase : KillPhase} (other : phase.resetting = false) : Owes phase := by
  cases phase with
  | scanning owed | deleting batch owed last => cases other
  | _ => trivial

theorem Owes.forget {phase : KillPhase} (owes : Owes phase) : Owes (phase.forget .kill) := by
  cases phase with
  | scanning owed | deleting batch owed last => simpa [KillPhase.forget, Owes] using owes
  | _ => trivial

theorem KillPhase.resetting_forget (key : ChaosKey) (phase : KillPhase) :
    (phase.forget key).resetting = phase.resetting := by
  cases phase <;> rfl

structure Windowed (group : GroupKill Process) : Prop where
  halfway : ∀ process, group.halfway = some process →
    ∃ call expiresAt last, group.phase process = .marking call expiresAt ∧
      group.history.stickyUntil = some last ∧ last ≤ group.now + call.ttl
  marker : ∀ stored, group.marker = some stored → ∃ deadline, stored.value = .unixTime deadline ∧
    (group.halfway = none → Reaches group.history.stickyUntil deadline)
  flag : ∀ stored, group.flag = some stored → group.now ≤ stored.expiresAt →
    Reaches group.history.stickyUntil stored.expiresAt ∨ Reaches group.history.plainUntil stored.expiresAt
  owes : group.has .killSticky = true → ∀ process, Owes (group.phase process)
  afterReset : group.history.afterReset = true → group.has .killSticky = false
  rearms : ∀ rearmed ∈ group.history.rearms, rearmed.instant ≤ rearmed.deadline → rearmed.afterReset = false

theorem windowed_initial : Windowed (.initial : GroupKill Process) := by
  constructor <;> simp [initial, has, Expiring.get]

theorem Windowed.pass (windowed : Windowed group) (elapsed : Nat) :
    Windowed { group with now := group.now + elapsed } := by
  have before : ({ group with now := group.now + elapsed } : GroupKill Process).has .killSticky = true →
      group.has .killSticky = true := isSome_earlier (Nat.le_add_right ..)
  constructor
  · intro process writes
    obtain ⟨call, expiresAt, last, marking, opened, bounded⟩ := windowed.halfway process writes
    exact ⟨call, expiresAt, last, marking, opened, by simp only; omega⟩
  · exact windowed.marker
  · intro stored present lives
    exact windowed.flag stored present (by simp only at lives; omega)
  · intro found
    exact windowed.owes (before found)
  · intro reset
    rw [← Bool.not_eq_true]
    intro found
    rw [windowed.afterReset reset] at before
    cases before found
  · exact windowed.rearms

theorem Windowed.restart (windowed : Windowed group) : Windowed group.restart :=
  ⟨windowed.halfway, windowed.marker, fun _ present => by (cases present), windowed.owes,
    windowed.afterReset, windowed.rearms⟩

theorem Windowed.answer (windowed : Windowed group) (killed : Bool) : Windowed (group.answer killed) :=
  ⟨windowed.halfway, windowed.marker, windowed.flag, windowed.owes, windowed.afterReset, windowed.rearms⟩

theorem Windowed.marking (windowed : Windowed group) (writes : group.halfway = some process) :
    ∃ call expiresAt, group.phase process = .marking call expiresAt := by
  obtain ⟨call, expiresAt, _, marking, _⟩ := windowed.halfway process writes
  exact ⟨call, expiresAt, marking⟩

theorem Windowed.appears_kill (windowed : Windowed group) (found : group.has .killSticky = true) :
    ∀ other, Owes ((group.appears .kill).phase other) := by
  intro other
  simp only [GroupKill.appears]
  split
  · exact windowed.owes found other
  · exact (windowed.owes found other).forget

theorem Windowed.appears_marking (windowed : Windowed group) (writes : group.halfway = some process) :
    ∃ call expiresAt last, (group.appears .kill).phase process = .marking call expiresAt ∧
      group.history.stickyUntil = some last ∧ last ≤ group.now + call.ttl := by
  obtain ⟨call, expiresAt, last, marking, window⟩ := windowed.halfway process writes
  refine ⟨call, expiresAt, last, ?_, window⟩
  simp [GroupKill.appears, marking, KillPhase.forget]

theorem Windowed.setFlag (windowed : Windowed group) {expiresAt : Nat}
    (covered : group.now ≤ expiresAt →
      Reaches group.history.stickyUntil expiresAt ∨ Reaches group.history.plainUntil expiresAt) :
    Windowed (group.setFlag expiresAt) := by
  constructor
  · intro process writes
    exact windowed.appears_marking writes
  · exact windowed.marker
  · intro stored present lives
    cases present
    exact covered lives
  · exact windowed.appears_kill
  · exact windowed.afterReset
  · exact windowed.rearms

variable [DecidableEq Process]

theorem Owes.update {phases : Process → KillPhase} {phase : KillPhase} (owes : ∀ other, Owes (phases other))
    (own : Owes phase) : ∀ other, Owes (Function.update phases process phase other) := by
  intro other
  by_cases same : other = process
  · subst same
    simpa using own
  · simpa [same] using owes other

theorem Windowed.goto (windowed : Windowed group) {phase : KillPhase}
    (elsewhere : ∀ call expiresAt, group.phase process ≠ .marking call expiresAt)
    (owes : group.has .killSticky = true → Owes phase) : Windowed (group.goto process phase) := by
  constructor
  · intro other writes
    obtain ⟨call, expiresAt, last, marking, window⟩ := windowed.halfway other writes
    have different : other ≠ process := by
      intro same
      subst same
      exact elsewhere call expiresAt marking
    exact ⟨call, expiresAt, last, by simpa [GroupKill.goto, different] using marking, window⟩
  · exact windowed.marker
  · exact windowed.flag
  · intro found
    exact Owes.update (windowed.owes found) (owes found)
  · exact windowed.afterReset
  · exact windowed.rearms

theorem Windowed.callKill (windowed : Windowed group) {call : KillCall}
    (called : group.callKill chaosEnabled process call = some after) : Windowed after := by
  unfold GroupKill.callKill at called
  split at called
  · rename_i passes
    cases called
    have going : Windowed (group.goto process (.killing call (group.now + call.ttl))) :=
      windowed.goto (by simp [passes.2]) fun _ => trivial
    exact ⟨going.halfway, going.marker, going.flag, going.owes, fun reset => by (cases reset), going.rearms⟩
  · contradiction

theorem Windowed.arm (windowed : Windowed group) (armed : group.arm process = some after) :
    Windowed after := by
  unfold GroupKill.arm at armed
  split at armed
  · rename_i call expiresAt killing
    simp only at armed
    split at armed <;> cases armed
    · -- From here the flag is the call's own, and older markers wait for its marker.
      constructor
      · intro other writes
        cases writes
        exact ⟨call, expiresAt, _, by simp [GroupKill.goto], rfl, Nat.le_refl _⟩
      · intro stored present
        obtain ⟨deadline, valued, _⟩ := windowed.marker stored present
        exact ⟨deadline, valued, fun none => by (cases none)⟩
      · intro stored present _
        cases present
        exact .inl ⟨_, rfl, Nat.le_refl _⟩
      · intro found
        exact Owes.update (windowed.appears_kill found) trivial
      · exact windowed.afterReset
      · exact windowed.rearms
    · have elsewhere : ∀ other, group.halfway = some other → other ≠ process := by
        intro other writes same
        obtain ⟨_, _, marking⟩ := windowed.marking writes
        rw [same, killing] at marking
        cases marking
      constructor
      · intro other writes
        obtain ⟨own, until_, last, marking, window⟩ := windowed.appears_marking writes
        refine ⟨own, until_, last, ?_, window⟩
        simpa [GroupKill.goto, elsewhere other writes, GroupKill.setFlag] using marking
      · exact windowed.marker
      · intro stored present _
        cases present
        exact .inr ⟨_, rfl, Nat.le_refl _⟩
      · intro found
        exact Owes.update (windowed.appears_kill found) trivial
      · exact windowed.afterReset
      · exact windowed.rearms
  · contradiction

theorem Windowed.mark (windowed : Windowed group) (held : Held chaosEnabled group)
    (permitted : KeepsWindow group (.mark process)) (marked : group.mark process = some after) :
    Windowed after := by
  obtain ⟨writes, noReset, quiet⟩ := permitted
  obtain ⟨call, expiresAt, last, marking, opened, within⟩ := windowed.halfway process writes
  have sound := held.calls process
  simp only [marking, CallSound] at sound
  unfold GroupKill.mark at marked
  simp only [marking] at marked
  cases marked
  constructor
  · intro other none
    cases none
  · intro stored present
    cases present
    exact ⟨expiresAt, rfl, fun _ => ⟨_, rfl, sound.2⟩⟩
  · intro stored present lives
    obtain ⟨until_, isSome, bounded⟩ | plain := windowed.flag stored present lives
    · cases opened.symm.trans isSome
      exact .inl ⟨_, rfl, by omega⟩
    · exact .inr plain
  · intro _
    refine Owes.update (fun other => Owes.of_not_resetting ?_) trivial
    simp only [GroupKill.setMarker, GroupKill.appears]
    split
    · exact quiet other
    · rw [KillPhase.resetting_forget]
      exact quiet other
  · intro reset
    cases noReset.symm.trans reset
  · exact windowed.rearms

theorem Windowed.readKillState (windowed : Windowed group)
    (read : group.readKillState chaosEnabled process = some after) : Windowed after := by
  unfold GroupKill.readKillState at read
  split at read
  · rename_i idle
    split at read
    · cases read
      exact windowed.answer true
    · split at read <;> cases read
      · exact windowed.goto (by simp [idle]) fun _ => trivial
      · exact windowed.answer false
  · contradiction

theorem Windowed.rearm (windowed : Windowed group) (permitted : KeepsWindow group (.rearm process))
    (rearmed : group.rearm process = some after) : Windowed after := by
  unfold GroupKill.rearm at rearmed
  split at rearmed
  · rename_i deadline rearming
    cases rearmed
    have covered : group.now ≤ deadline → Reaches group.history.stickyUntil deadline := by
      intro lives
      obtain ⟨⟨standing, found, lasts⟩, marked | reaches⟩ := permitted deadline rearming lives
      · obtain ⟨stored, present, _, valued⟩ := get_eq_some_iff.mp found
        obtain ⟨named, read, reaches⟩ := windowed.marker stored present
        cases valued.symm.trans read
        exact (reaches marked).earlier lasts
      · exact reaches
    have going : Windowed ((group.setFlag deadline).goto process .idle) := by
      refine (windowed.setFlag fun lives => .inl (covered lives)).goto ?_ fun _ => trivial
      intro call expiresAt marking
      simp only [GroupKill.setFlag, GroupKill.appears, rearming] at marking
      split at marking <;> cases marking
    refine ⟨going.halfway, going.marker, going.flag, going.owes, going.afterReset, fun listed member => ?_⟩
    obtain rfl | older := List.mem_cons.mp member
    · intro lives
      obtain ⟨⟨standing, found, _⟩, _⟩ := permitted deadline rearming lives
      have there : group.has .killSticky = true := by simp [GroupKill.has, found]
      rw [← Bool.not_eq_true]
      intro reset
      cases there.symm.trans (windowed.afterReset reset)
    · exact windowed.rearms listed older
  · contradiction

theorem Windowed.cleared (windowed : Windowed group)
    (elsewhere : ∀ call expiresAt, group.phase process ≠ .marking call expiresAt)
    (gone : group.has .killSticky = false) : Windowed (group.cleared process) := by
  have going : Windowed (group.goto process .idle) := windowed.goto elsewhere fun _ => trivial
  exact ⟨going.halfway, going.marker, going.flag, going.owes, fun _ => gone, going.rearms⟩

theorem Windowed.scanFrom (windowed : Windowed group) {owed batch : List ChaosKey} {last : Bool}
    (elsewhere : ∀ call expiresAt, group.phase process ≠ .marking call expiresAt)
    (owes : group.has .killSticky = true → .killSticky ∈ owed)
    (scanned : group.scanFrom process owed batch last = some after) : Windowed after := by
  unfold GroupKill.scanFrom at scanned
  simp only at scanned
  split at scanned
  · rename_i returned
    have listed : group.has .killSticky = true → .killSticky ∉ batch →
        .killSticky ∈ owed.filter (fun key => group.has key && !batch.contains key) := by
      intro found unreturned
      simp [owes found, found, unreturned]
    have complete : last = true → group.has .killSticky = true → .killSticky ∈ batch := by
      intro isLast found
      have all := (Bool.and_eq_true_iff.mp returned).2
      simp only [isLast, Bool.not_true, Bool.false_or, List.isEmpty_iff] at all
      by_contra unreturned
      have missing := listed found unreturned
      rw [all] at missing
      cases missing
    split at scanned
    · rename_i empty
      have none : .killSticky ∉ batch := by simp [List.isEmpty_iff.mp empty]
      split at scanned <;> cases scanned
      · rename_i isLast
        refine windowed.cleared elsewhere ?_
        rw [← Bool.not_eq_true]
        exact fun found => none (complete isLast found)
      · exact windowed.goto elsewhere fun found => listed found none
    · cases scanned
      refine windowed.goto elsewhere fun found => ?_
      by_cases inBatch : .killSticky ∈ batch
      · exact .inl inBatch
      · refine .inr ⟨?_, listed found inBatch⟩
        rw [← Bool.not_eq_true]
        exact fun isLast => inBatch (complete isLast found)
  · contradiction

theorem Windowed.scan (windowed : Windowed group) {batch : List ChaosKey} {last : Bool}
    (scanned : group.scan process batch last = some after) : Windowed after := by
  unfold GroupKill.scan at scanned
  split at scanned
  · rename_i idle
    exact windowed.scanFrom (by simp [idle]) (by simp) scanned
  · rename_i owed scanning
    refine windowed.scanFrom (by simp [scanning]) (fun found => ?_) scanned
    have owes := windowed.owes found process
    rwa [scanning] at owes
  · contradiction

theorem Windowed.delete (windowed : Windowed group) (deleted : group.delete process = some after) :
    Windowed after := by
  unfold GroupKill.delete at deleted
  split at deleted
  · rename_i batch owed last deleting
    let emptied : GroupKill Process := { group with
      flag := if batch.contains .kill then none else group.flag
      marker := if batch.contains .killSticky then none else group.marker
      history := { group.history with inForce := none } }
    have remains : emptied.has .killSticky = true → group.has .killSticky = true ∧ .killSticky ∉ batch := by
      intro found
      simp only [emptied, GroupKill.has] at found
      split at found
      · cases found
      · rename_i unlisted
        exact ⟨found, by simpa using unlisted⟩
    have unmarked : ∀ call expiresAt, emptied.phase process ≠ .marking call expiresAt := by
      simp [emptied, deleting]
    have windowedEmptied : Windowed emptied := by
      constructor
      · exact windowed.halfway
      · intro stored present
        simp only [emptied] at present
        split at present
        · cases present
        · exact windowed.marker stored present
      · intro stored present
        simp only [emptied] at present
        split at present
        · cases present
        · exact windowed.flag stored present
      · exact fun found => windowed.owes (remains found).1
      · intro reset
        rw [← Bool.not_eq_true]
        intro found
        cases (remains found).1.symm.trans (windowed.afterReset reset)
      · exact windowed.rearms
    have rest : emptied.has .killSticky = true → last = false ∧ .killSticky ∈ owed := by
      intro found
      obtain ⟨before, unlisted⟩ := remains found
      have owes := windowed.owes before process
      rw [deleting] at owes
      exact owes.resolve_left unlisted
    simp only [Option.some.injEq] at deleted
    subst deleted
    split
    · rename_i isLast
      refine windowedEmptied.cleared unmarked ?_
      rw [← Bool.not_eq_true]
      intro found
      cases isLast.symm.trans (rest found).1
    · exact windowedEmptied.goto unmarked fun found => (rest found).2
  · contradiction

theorem Windowed.step (windowed : Windowed group) (held : Held chaosEnabled group) {action : Action Process}
    (permitted : KeepsWindow group action) (stepped : GroupKill.step chaosEnabled action group = some after) :
    Windowed after := by
  cases action with
  | pass elapsed =>
      cases stepped
      exact windowed.pass elapsed
  | callKill process call => exact windowed.callKill stepped
  | arm process => exact windowed.arm stepped
  | mark process => exact windowed.mark held permitted stepped
  | restart =>
      cases stepped
      exact windowed.restart
  | read process => exact windowed.readKillState stepped
  | rearm process => exact windowed.rearm permitted stepped
  | scan process batch last => exact windowed.scan stepped
  | delete process => exact windowed.delete stepped

end Window

theorem Windowed.absolute (windowed : Windowed group) (held : Held chaosEnabled group) :
    AbsoluteWindow group := by
  refine ⟨held.answers, fun found => ?_, windowed.rearms⟩
  obtain ⟨stored, present, lives⟩ := get_isSome_iff.mp found
  obtain sticky | plain := windowed.flag stored present lives
  · exact .inl (sticky.earlier lives)
  · exact .inr (plain.earlier lives)

section Runs

variable [DecidableEq Process] {steps : List (GroupKill Process × Action Process)} {last : GroupKill Process}

theorem sticky_window_absolute (ran : (GroupKill.machine Process chaosEnabled).Run steps last)
    (permitted : ∀ taken ∈ steps, KeepsWindow taken.1 taken.2) :
    ∀ group ∈ Machine.visited steps last, AbsoluteWindow group := by
  have windowed := @Machine.Run.always _ _ _ _ _ _ (fun group => Held chaosEnabled group ∧ Windowed group)
    ran ⟨held_initial, windowed_initial⟩
    (fun earlier permits stepped => ⟨earlier.1.step stepped, earlier.2.step earlier.1 permits stepped⟩) permitted
  intro group member
  obtain ⟨held, windows⟩ := windowed group member
  exact windows.absolute held

end Runs

section Instances

def stickyCall (ttlSeconds : Nat) (bounded : 1 ≤ ttlSeconds ∧ ttlSeconds ≤ 3600) : KillCall :=
  ⟨ttlSeconds, true, bounded⟩

/-- A worker has read the marker of five minutes when a reset deletes it. -/
def resetBeforeRearm : List (Action (Fin 2)) :=
  [.callKill 0 (stickyCall 300 (by decide)), .arm 0, .mark 0, .restart, .read 1,
    .scan 0 [.killSticky] true, .delete 0, .rearm 1]

/-- A worker has read the marker of five minutes when a sticky call of one second
replaces it. -/
def replacedBeforeRearm : List (Action (Fin 2)) :=
  [.callKill 0 (stickyCall 300 (by decide)), .arm 0, .mark 0, .restart, .read 1,
    .callKill 0 (stickyCall 1 (by decide)), .arm 0, .mark 0, .rearm 1, .pass 2000]

theorem sticky_window_outlived :
    (∃ steps last, (GroupKill.machine (Fin 2) true).Run steps last ∧
      ∃ rearmed ∈ last.history.rearms, rearmed.instant ≤ rearmed.deadline ∧ rearmed.afterReset = true) ∧
    ∃ steps last, (GroupKill.machine (Fin 2) true).Run steps last ∧ last.has .kill = true ∧
      ¬ Reaches last.history.stickyUntil last.now ∧ ¬ Reaches last.history.plainUntil last.now := by
  constructor
  · obtain ⟨steps, last, ran, found⟩ := @Machine.exists_run _ _ (GroupKill.machine (Fin 2) true) resetBeforeRearm
      (fun _ last => last.history.rearms.any fun rearmed =>
        rearmed.instant ≤ rearmed.deadline && rearmed.afterReset) (by decide +kernel)
    obtain ⟨rearmed, member, revived⟩ := List.any_eq_true.mp found
    exact ⟨steps, last, ran, rearmed, member, by simpa using revived⟩
  · obtain ⟨steps, last, ran, outlived⟩ := @Machine.exists_run _ _ (GroupKill.machine (Fin 2) true)
      replacedBeforeRearm
      (fun _ last => last.has .kill && !decide (Reaches last.history.stickyUntil last.now) &&
        !decide (Reaches last.history.plainUntil last.now)) (by decide +kernel)
    exact ⟨steps, last, ran, by simpa [and_assoc] using outlived⟩

def restartThenReset : List (Action (Fin 2)) :=
  [.callKill 0 (stickyCall 300 (by decide)), .arm 0, .mark 0, .restart, .pass 1000, .read 1, .rearm 1,
    .scan 0 [.kill, .killSticky] true, .delete 0, .read 1]

def standsStill (group : GroupKill (Fin 2)) : Action (Fin 2) → Bool
  | .rearm process => group.halfway = none &&
      Expiring.get group.now group.marker = some (.unixTime 300000) &&
      group.phase process = .rearming 300000
  | .mark process => group.halfway = some process && !group.history.afterReset &&
      (List.finRange 2).all fun other => !(group.phase other).resetting
  | _ => true

theorem keepsWindow_of_standsStill {group : GroupKill (Fin 2)} {action : Action (Fin 2)}
    (checked : standsStill group action = true) : KeepsWindow group action := by
  cases action with
  | rearm process =>
      simp only [standsStill, Bool.and_eq_true, decide_eq_true_eq] at checked
      obtain ⟨⟨none, found⟩, rearming⟩ := checked
      intro deadline read _
      cases rearming.symm.trans read
      exact ⟨⟨_, found, Nat.le_refl _⟩, .inl none⟩
  | mark process => simpa [standsStill, KeepsWindow, and_assoc] using checked
  | _ => trivial

theorem sticky_window_absolute_of_restart : ∃ steps last, (GroupKill.machine (Fin 2) true).Run steps last ∧
    last.history.answers.map KillAnswer.killed = [false, true] ∧
    ∀ group ∈ Machine.visited steps last, AbsoluteWindow group := by
  obtain ⟨steps, last, ran, checked⟩ := @Machine.exists_run _ _ (GroupKill.machine (Fin 2) true) restartThenReset
    (fun steps last => decide (last.history.answers.map KillAnswer.killed = [false, true]) &&
      steps.all fun taken => standsStill taken.1 taken.2) (by decide +kernel)
  obtain ⟨answers, all⟩ := Bool.and_eq_true_iff.mp checked
  refine ⟨steps, last, ran, of_decide_eq_true answers, sticky_window_absolute ran fun taken member => ?_⟩
  exact keepsWindow_of_standsStill (List.all_eq_true.mp all taken member)

end Instances

end IncidentPlatform.Properties

import IncidentPlatform.Core.LeaderLock

namespace IncidentPlatform.Properties

open Concurrency IncidentPlatform.Core LeaderGate

/-! # One leader, and no lock left in a pool

The lock is told apart from the bodies by two facts: no two entries use one
connection, and an entry that was told it is the leader is on the session that
holds the lock.  What can go wrong is the way back to the pool.
-/

variable {gate after : LeaderGate} {entry other : EntryId} {conn first second : Conn}
  {phase next : GatePhase} {result : AwaitResult}

def OneLeader (gate : LeaderGate) : Prop :=
  ∀ {first second firstConn secondConn}, gate.phase first = .body firstConn true →
    gate.phase second = .body secondConn true → first = second

/-- No connection in a pool has a session that holds the lock. -/
def NoLeakedLock (gate : LeaderGate) : Prop :=
  ∀ conn, gate.connection conn = .idle → gate.lockCount conn = 0

/-- The acquire does not fail once the server granted the lock, nor does the
commit after a granted acquire, unless the connection is lost with it. -/
def keepsGrant (gate : LeaderGate) : Action → Bool
  | .resume entry result =>
      match gate.phase entry, result with
      | .acquiring conn, .fails true => !(gate.tryAdvisoryLock conn).1
      | .committing _ acquired, .fails _ => !acquired
      | _, _ => true
  | .enter .. => true

theorem lockCount_unique (firstHolds : 0 < gate.lockCount first)
    (secondHolds : 0 < gate.lockCount second) : first = second := by
  unfold lockCount at firstHolds secondHolds
  cases held : gate.holder with
  | none => simp [held] at firstHolds
  | some holder =>
      simp only [held] at firstHolds secondHolds
      split at firstHolds <;> split at secondHolds <;> first | omega | (subst_vars; rfl)

theorem tryAdvisoryLock_other (different : second ≠ first) :
    (gate.tryAdvisoryLock first).2.lockCount second = gate.lockCount second := by
  unfold tryAdvisoryLock lockCount
  cases held : gate.holder with
  | none => simp [Ne.symm different]
  | some holder =>
      by_cases same : holder.1 = first
      · simp [same, Ne.symm different]
      · simp [same, held]

theorem tryAdvisoryLock_granted (granted : (gate.tryAdvisoryLock conn).1 = true) :
    (gate.tryAdvisoryLock conn).2.lockCount conn = gate.lockCount conn + 1 := by
  unfold tryAdvisoryLock lockCount at *
  cases held : gate.holder with
  | none => simp
  | some holder =>
      by_cases same : holder.1 = conn
      · simp [same]
      · simp [held, same] at granted

theorem tryAdvisoryLock_refused (refused : (gate.tryAdvisoryLock conn).1 = false) :
    (gate.tryAdvisoryLock conn).2 = gate := by
  unfold tryAdvisoryLock at *
  cases held : gate.holder with
  | none => simp [held] at refused
  | some holder =>
      by_cases same : holder.1 = conn
      · simp [held, same] at refused
      · simp [same]

theorem advisoryUnlock_other (different : second ≠ first) :
    (gate.advisoryUnlock first).lockCount second = gate.lockCount second := by
  unfold advisoryUnlock lockCount
  cases held : gate.holder with
  | none => simp [held]
  | some holder =>
      by_cases same : holder.1 = first
      · by_cases last : holder.2 ≤ 1 <;> simp [same, last, Ne.symm different]
      · simp [same, held]

theorem advisoryUnlock_self (once : gate.lockCount conn ≤ 1) :
    (gate.advisoryUnlock conn).lockCount conn = 0 := by
  unfold advisoryUnlock lockCount at *
  cases held : gate.holder with
  | none => simp [held]
  | some holder =>
      by_cases same : holder.1 = conn
      · simp only [held, same, ↓reduceIte] at once
        simp [same, once]
      · simp [same, held]

theorem endSession_other (different : second ≠ first) :
    (gate.endSession first).lockCount second = gate.lockCount second := by
  unfold endSession lockCount
  cases held : gate.holder with
  | none => simp
  | some holder =>
      by_cases same : holder.1 = first
      · simp [Option.filter, same, Ne.symm different]
      · simp [Option.filter, same]

theorem endSession_self : (gate.endSession conn).lockCount conn = 0 := by
  unfold endSession lockCount
  cases held : gate.holder with
  | none => simp
  | some holder =>
      by_cases same : holder.1 = conn
      · simp [Option.filter, same]
      · simp [Option.filter, same]

def connOf : GatePhase → Option Conn
  | .outside => none
  | .acquiring conn | .committing conn _ | .body conn _ | .releasing conn
  | .committingRelease conn | .invalidating conn | .closing conn => some conn

def toldLeader : GatePhase → Bool
  | .committing _ true | .body _ true => true
  | _ => false

/-- The awaits at which the session of an entry may still hold the lock. -/
def mayHold : GatePhase → Bool
  | .committing _ true | .body _ true | .releasing _ | .invalidating _ => true
  | _ => false

@[simp] theorem goto_lockCount : (gate.goto entry phase).lockCount conn = gate.lockCount conn := rfl

@[simp] theorem goto_connection :
    (gate.goto entry phase).connection conn = gate.connection conn := rfl

theorem goto_phase : (gate.goto entry phase).phase other =
    if other = entry then phase else gate.phase other := rfl

theorem tryAdvisoryLock_phase : (gate.tryAdvisoryLock conn).2.phase = gate.phase := by
  unfold tryAdvisoryLock
  repeat' split
  all_goals rfl

theorem tryAdvisoryLock_connection :
    (gate.tryAdvisoryLock conn).2.connection = gate.connection := by
  unfold tryAdvisoryLock
  repeat' split
  all_goals rfl

theorem advisoryUnlock_phase : (gate.advisoryUnlock conn).phase = gate.phase := by
  unfold advisoryUnlock
  repeat' split
  all_goals rfl

theorem advisoryUnlock_connection : (gate.advisoryUnlock conn).connection = gate.connection := by
  unfold advisoryUnlock
  repeat' split
  all_goals rfl

theorem giveBack_phase : (gate.giveBack conn).phase = gate.phase := by
  unfold giveBack
  split <;> rfl

theorem giveBack_lockCount : (gate.giveBack conn).lockCount = gate.lockCount := by
  unfold giveBack
  split <;> rfl

theorem giveBack_other (different : other ≠ conn) :
    (gate.giveBack conn).connection other = gate.connection other := by
  unfold giveBack
  split
  · simp [setConnection, different]
  · rfl

/-- An await of an entry touches only the entry's own phase, connection and
session. -/
structure GateMoves (gate after : LeaderGate) (entry : EntryId) (conn : Conn) (next : GatePhase) :
    Prop where
  phases : ∀ other, after.phase other = if other = entry then next else gate.phase other
  counts : ∀ other, other ≠ conn → after.lockCount other = gate.lockCount other
  connections : ∀ other, other ≠ conn → after.connection other = gate.connection other

theorem GateMoves.of_goto (server : LeaderGate) (phases : server.phase = gate.phase)
    (counts : ∀ other, other ≠ conn → server.lockCount other = gate.lockCount other)
    (connections : ∀ other, other ≠ conn → server.connection other = gate.connection other) :
    GateMoves gate (server.goto entry next) entry conn next where
  phases := fun other => by rw [goto_phase, phases]
  counts := counts
  connections := connections

theorem moves_goto : GateMoves gate (gate.goto entry next) entry conn next :=
  .of_goto gate rfl (fun _ _ => rfl) (fun _ _ => rfl)

theorem moves_tryAdvisoryLock :
    GateMoves gate ((gate.tryAdvisoryLock conn).2.goto entry next) entry conn next :=
  .of_goto _ tryAdvisoryLock_phase (fun _ => tryAdvisoryLock_other)
    fun _ _ => congrFun tryAdvisoryLock_connection _

theorem moves_advisoryUnlock :
    GateMoves gate ((gate.advisoryUnlock conn).goto entry next) entry conn next :=
  .of_goto _ advisoryUnlock_phase (fun _ => advisoryUnlock_other)
    fun _ _ => congrFun advisoryUnlock_connection _

theorem moves_endSession : GateMoves gate ((gate.endSession conn).goto entry next) entry conn next :=
  .of_goto _ rfl (fun _ => endSession_other)
    fun _ different => by simp [endSession, setConnection, different]

theorem moves_giveBack : GateMoves gate ((gate.giveBack conn).goto entry next) entry conn next :=
  .of_goto _ giveBack_phase (fun _ _ => congrFun giveBack_lockCount _)
    fun _ => giveBack_other

/-- Everything an await does: the entry moves on with its connection, which may
be discarded, or it hands it back and leaves. -/
theorem advance_cases (advanced : gate.advance entry phase result = some after) :
    ∃ conn next, connOf phase = some conn ∧ GateMoves gate after entry conn next ∧
      (connOf next = some conn ∧ (after.connection conn = gate.connection conn ∨
          after.connection conn = .discarded) ∨
        phase = .closing conn ∧ next = .outside ∧ after.lockCount conn = gate.lockCount conn) := by
  unfold advance at advanced
  split at advanced <;> first | contradiction | cases advanced
  all_goals first
    | exact ⟨_, _, rfl, moves_goto, .inl ⟨rfl, .inl rfl⟩⟩
    | exact ⟨_, _, rfl, moves_tryAdvisoryLock, .inl ⟨rfl, .inl (congrFun tryAdvisoryLock_connection _)⟩⟩
    | exact ⟨_, _, rfl, moves_advisoryUnlock, .inl ⟨rfl, .inl (congrFun advisoryUnlock_connection _)⟩⟩
    | exact ⟨_, _, rfl, moves_endSession, .inl ⟨rfl, .inr (by simp [endSession, setConnection])⟩⟩
    | exact ⟨_, _, rfl, moves_giveBack, .inr ⟨rfl, rfl, congrFun giveBack_lockCount _⟩⟩

theorem advance_told (advanced : gate.advance entry phase result = some after)
    (uses : connOf phase = some conn) (told : toldLeader phase = true → 0 < gate.lockCount conn)
    (leads : toldLeader (after.phase entry) = true) : 0 < after.lockCount conn := by
  unfold advance at advanced
  split at advanced <;> first | contradiction | cases advanced
  all_goals cases uses
  all_goals simp only [goto_phase, ↓reduceIte, toldLeader, goto_lockCount] at leads told ⊢
  all_goals first | contradiction | skip
  case h_1 =>
    have granted : (gate.tryAdvisoryLock conn).1 = true := by
      cases answer : (gate.tryAdvisoryLock conn).1 with
      | true => rfl
      | false => simp [answer] at leads
    rw [tryAdvisoryLock_granted granted]
    omega
  case h_5 acquired =>
    cases acquired with
    | true => exact told rfl
    | false => contradiction

theorem advance_clean (advanced : gate.advance entry (gate.phase entry) result = some after)
    (permitted : keepsGrant gate (.resume entry result) = true)
    (uses : connOf (gate.phase entry) = some conn) (once : gate.lockCount conn ≤ 1)
    (free : mayHold (gate.phase entry) = false → gate.lockCount conn = 0) :
    after.lockCount conn ≤ 1 ∧
      (mayHold (after.phase entry) = false → after.lockCount conn = 0) := by
  simp only [keepsGrant] at permitted
  generalize gate.phase entry = phase at *
  unfold advance at advanced
  split at advanced <;> first | contradiction | cases advanced
  all_goals cases uses
  all_goals simp only [goto_phase, ↓reduceIte, mayHold, goto_lockCount] at free permitted ⊢
  case h_1 =>
    have none := free trivial
    cases answer : (gate.tryAdvisoryLock conn).1 with
    | true => simp [tryAdvisoryLock_granted answer, none]
    | false => simp [tryAdvisoryLock_refused answer, none]
  case h_2 =>
    have refused : (gate.tryAdvisoryLock conn).1 = false := by simpa using permitted
    simp [tryAdvisoryLock_refused refused, free trivial]
  case h_5 acquired =>
    cases acquired with
    | true => exact ⟨once, nofun⟩
    | false => exact ⟨once, fun _ => free rfl⟩
  case h_6 acquired reached =>
    cases acquired with
    | true => contradiction
    | false => exact ⟨once, fun _ => free rfl⟩
  all_goals simp_all [endSession_self, advisoryUnlock_self, giveBack_lockCount]

/-- Each entry has checked a connection out for itself. -/
structure Owned (gate : LeaderGate) : Prop where
  out : ∀ {entry conn}, connOf (gate.phase entry) = some conn →
    gate.connection conn = .checkedOut ∨ gate.connection conn = .discarded
  alone : ∀ {first second conn}, connOf (gate.phase first) = some conn →
    connOf (gate.phase second) = some conn → first = second

def LeadersHold (gate : LeaderGate) : Prop :=
  ∀ {entry conn}, connOf (gate.phase entry) = some conn → toldLeader (gate.phase entry) = true →
    0 < gate.lockCount conn

/-- A held lock is held once, for an entry that is still going to release it. -/
def HeldForEntries (gate : LeaderGate) : Prop :=
  ∀ conn, gate.lockCount conn ≤ 1 ∧ (0 < gate.lockCount conn →
    ∃ entry, connOf (gate.phase entry) = some conn ∧ mayHold (gate.phase entry) = true)

theorem Owned.advance (owned : Owned gate)
    (advanced : gate.advance entry (gate.phase entry) result = some after) : Owned after := by
  obtain ⟨conn, next, uses, moves, becomes⟩ := advance_cases advanced
  have earlier : ∀ {other c}, connOf (after.phase other) = some c →
      connOf (gate.phase other) = some c := by
    intro other c found
    rw [moves.phases] at found
    split at found
    · rename_i same
      obtain ⟨stays, _⟩ | ⟨_, rfl, _⟩ := becomes
      · rw [same, uses, ← stays, found]
      · contradiction
    · exact found
  refine ⟨?_, fun firstUses secondUses => owned.alone (earlier firstUses) (earlier secondUses)⟩
  intro other c found
  have usedBefore := earlier found
  by_cases same : c = conn
  · subst same
    have self : other = entry := owned.alone usedBefore uses
    obtain ⟨_, kept | dropped⟩ | ⟨_, rfl, _⟩ := becomes
    · rw [kept]
      exact owned.out usedBefore
    · exact .inr dropped
    · rw [moves.phases, if_pos self] at found
      contradiction
  · rw [moves.connections c same]
    exact owned.out usedBefore

theorem enter_cases (entered : gate.enter entry conn = some after) :
    gate.phase entry = .outside ∧ (gate.connection conn = .idle ∨ gate.connection conn = .absent) ∧
      after = ({ gate with connection := gate.setConnection conn .checkedOut } : LeaderGate).goto entry
        (.acquiring conn) := by
  unfold enter at entered
  split at entered
  · rename_i free
    cases entered
    exact ⟨free.1, free.2, rfl⟩
  · contradiction

theorem Owned.enter (owned : Owned gate) (entered : gate.enter entry conn = some after) :
    Owned after := by
  obtain ⟨_, available, rfl⟩ := enter_cases entered
  have unused : ∀ {other}, connOf (gate.phase other) ≠ some conn := by
    intro other found
    obtain out | out := owned.out found <;> simp [out] at available
  constructor
  · intro other c found
    rw [goto_phase] at found
    split at found
    · cases found
      simp [setConnection]
    · have different : c ≠ conn := by
        rintro rfl
        exact unused found
      simpa [setConnection, different] using owned.out found
  · intro first second c firstUses secondUses
    rw [goto_phase] at firstUses secondUses
    split at firstUses <;> split at secondUses
    · simp_all
    · cases firstUses
      exact absurd secondUses unused
    · cases secondUses
      exact absurd firstUses unused
    · exact owned.alone firstUses secondUses

theorem LeadersHold.advance (owned : Owned gate) (holds : LeadersHold gate)
    (advanced : gate.advance entry (gate.phase entry) result = some after) : LeadersHold after := by
  obtain ⟨conn, next, uses, moves, becomes⟩ := advance_cases advanced
  intro other c found told
  by_cases self : other = entry
  · subst self
    have own : c = conn := by
      obtain ⟨stays, _⟩ | ⟨_, rfl, _⟩ := becomes
      · rw [moves.phases, if_pos rfl, stays] at found
        exact (Option.some.inj found).symm
      · rw [moves.phases, if_pos rfl] at found
        contradiction
    subst own
    exact advance_told advanced uses (holds uses) told
  · rw [moves.phases, if_neg self] at found told
    have different : c ≠ conn := by
      rintro rfl
      exact self (owned.alone found uses)
    rw [moves.counts c different]
    exact holds found told

theorem LeadersHold.enter (holds : LeadersHold gate) (entered : gate.enter entry conn = some after) :
    LeadersHold after := by
  obtain ⟨_, _, rfl⟩ := enter_cases entered
  intro other c found told
  rw [goto_phase] at found told
  split at told
  · contradiction
  · rename_i different
    rw [if_neg different] at found
    exact holds found told

theorem HeldForEntries.advance (owned : Owned gate) (held : HeldForEntries gate)
    (permitted : keepsGrant gate (.resume entry result) = true)
    (advanced : gate.advance entry (gate.phase entry) result = some after) :
    HeldForEntries after := by
  obtain ⟨conn, next, uses, moves, becomes⟩ := advance_cases advanced
  have free : mayHold (gate.phase entry) = false → gate.lockCount conn = 0 := by
    intro holdsNot
    by_contra some
    obtain ⟨other, found, holding⟩ := (held conn).2 (Nat.pos_of_ne_zero some)
    rw [owned.alone found uses, holdsNot] at holding
    contradiction
  obtain ⟨once, released⟩ := advance_clean advanced permitted uses (held conn).1 free
  intro c
  by_cases same : c = conn
  · subst same
    refine ⟨once, fun holds => ⟨entry, ?_⟩⟩
    have holding : mayHold (after.phase entry) = true := by
      by_contra holdsNot
      have none := released (Bool.not_eq_true _ ▸ holdsNot)
      omega
    refine ⟨?_, holding⟩
    rw [moves.phases, if_pos rfl] at holding ⊢
    obtain ⟨stays, _⟩ | ⟨_, rfl, _⟩ := becomes
    · exact stays
    · contradiction
  · rw [moves.counts c same]
    refine ⟨(held c).1, fun holds => ?_⟩
    obtain ⟨other, found, holding⟩ := (held c).2 holds
    have different : other ≠ entry := by
      rintro rfl
      exact same (Option.some.inj (found.symm.trans uses))
    exact ⟨other, by rw [moves.phases, if_neg different]; exact ⟨found, holding⟩⟩

theorem HeldForEntries.enter (held : HeldForEntries gate)
    (entered : gate.enter entry conn = some after) : HeldForEntries after := by
  obtain ⟨outside, _, rfl⟩ := enter_cases entered
  intro c
  refine ⟨(held c).1, fun holds => ?_⟩
  obtain ⟨other, found, holding⟩ := (held c).2 holds
  have different : other ≠ entry := by
    rintro rfl
    rw [outside] at found
    contradiction
  exact ⟨other, by rw [goto_phase, if_neg different]; exact ⟨found, holding⟩⟩

theorem Owned.oneLeader (owned : Owned gate) (holds : LeadersHold gate) : OneLeader gate := by
  intro first second firstConn secondConn firstBody secondBody
  have firstUses : connOf (gate.phase first) = some firstConn := by rw [firstBody]; rfl
  have secondUses : connOf (gate.phase second) = some secondConn := by rw [secondBody]; rfl
  have firstHolds := holds firstUses (by rw [firstBody]; rfl)
  have secondHolds := holds secondUses (by rw [secondBody]; rfl)
  rw [lockCount_unique firstHolds secondHolds] at firstUses
  exact owned.alone firstUses secondUses

theorem Owned.noLeakedLock (owned : Owned gate) (held : HeldForEntries gate) :
    NoLeakedLock gate := by
  intro conn idle
  by_contra some
  obtain ⟨entry, found, _⟩ := (held conn).2 (Nat.pos_of_ne_zero some)
  obtain out | out := owned.out found <;> simp [out] at idle

theorem initial_owned : Owned .initial := ⟨nofun, nofun⟩

theorem oneLeader_kept {action : Action} (kept : Owned gate ∧ LeadersHold gate)
    (stepped : step action gate = some after) : Owned after ∧ LeadersHold after := by
  obtain ⟨owned, holds⟩ := kept
  cases action with
  | enter entry conn => exact ⟨owned.enter stepped, holds.enter stepped⟩
  | resume entry result => exact ⟨owned.advance stepped, LeadersHold.advance owned holds stepped⟩

theorem noLeakedLock_kept {action : Action} (kept : Owned gate ∧ HeldForEntries gate)
    (permitted : keepsGrant gate action = true) (stepped : step action gate = some after) :
    Owned after ∧ HeldForEntries after := by
  obtain ⟨owned, held⟩ := kept
  cases action with
  | enter entry conn => exact ⟨owned.enter stepped, held.enter stepped⟩
  | resume entry result =>
      exact ⟨owned.advance stepped, HeldForEntries.advance owned held permitted stepped⟩

/-- There is one leader at most in every run, and no lock is left in a pool in a
run that loses no grant. -/
theorem leader_gate_sound {steps : List (LeaderGate × Action)} {last : LeaderGate}
    (ran : LeaderGate.machine.Run steps last) :
    (∀ gate ∈ Machine.visited steps last, OneLeader gate) ∧
      ((∀ taken ∈ steps, keepsGrant taken.1 taken.2 = true) →
        ∀ gate ∈ Machine.visited steps last, OneLeader gate ∧ NoLeakedLock gate) := by
  have led : ∀ gate ∈ Machine.visited steps last, Owned gate ∧ LeadersHold gate :=
    ran.everywhere ⟨initial_owned, nofun⟩ oneLeader_kept
  refine ⟨fun gate member => (led gate member).1.oneLeader (led gate member).2, ?_⟩
  intro permitted gate member
  have held := ran.always ⟨initial_owned, fun _ => ⟨Nat.zero_le _, nofun⟩⟩ noLeakedLock_kept
    permitted gate member
  exact ⟨(led gate member).1.oneLeader (led gate member).2, held.1.noLeakedLock held.2⟩

/-- A leader and a loser, the leader's release failing before the server did its
part. -/
theorem leader_gate_sound_with_loser :
    ∃ steps last, LeaderGate.machine.Run steps last ∧ steps.length = 12 ∧
      ∀ gate ∈ Machine.visited steps last, OneLeader gate ∧ NoLeakedLock gate := by
  obtain ⟨steps, last, ran, checked⟩ : ∃ steps last, LeaderGate.machine.Run steps last ∧
      (decide (steps.length = 12) && steps.all fun taken => keepsGrant taken.1 taken.2) = true :=
    Machine.exists_run
      [.enter 0 0, .resume 0 .completes, .enter 1 1, .resume 1 .completes, .resume 0 .completes,
        .resume 1 .completes, .resume 0 (.fails true), .resume 1 .completes,
        .resume 0 (.fails false), .resume 1 .completes, .resume 0 .completes,
        .resume 0 .completes] (by decide +kernel)
  simp only [Bool.and_eq_true, decide_eq_true_eq, List.all_eq_true] at checked
  exact ⟨steps, last, ran, checked.1, (leader_gate_sound ran).2 checked.2⟩

/-- The commit after a granted acquire fails, and `close` puts the connection
back with the lock on its session. -/
theorem leader_gate_leaks_on_failed_commit :
    ¬ ∀ steps last, LeaderGate.machine.Run steps last →
      ∀ gate ∈ Machine.visited steps last, OneLeader gate ∧ NoLeakedLock gate := by
  intro claimed
  obtain ⟨steps, last, ran, checked⟩ : ∃ steps last, LeaderGate.machine.Run steps last ∧
      (decide (last.connection 0 = .idle) && decide (last.lockCount 0 = 1)) = true :=
    Machine.exists_run
      [.enter 0 0, .resume 0 .completes, .resume 0 (.fails false), .resume 0 .completes]
      (by decide +kernel)
  simp only [Bool.and_eq_true, decide_eq_true_eq] at checked
  have free := (claimed _ _ ran last List.mem_cons_self).2 0 checked.1
  omega

end IncidentPlatform.Properties

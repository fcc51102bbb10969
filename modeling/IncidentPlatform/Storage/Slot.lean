import IncidentPlatform.Storage.Table

namespace IncidentPlatform.Storage

open Concurrency

/-! # One row of a table

What a table holds for one key is its committed row and the newest version of
the transaction that has it locked.  Every operation on the table acts on the
slots one at a time, so a property of one row is proved over its slot.
-/

structure Slot (Row : Type) where
  committed : Option Row
  holder : Option (Pid × Row)

namespace Slot

variable {Row : Type}

def visible (slot : Slot Row) (pid : Pid) : Option Row :=
  match slot.holder with
  | some (owner, row) => if owner = pid then some row else slot.committed
  | none => slot.committed

def Free (slot : Slot Row) (pid : Pid) : Prop :=
  ∀ owner row, slot.holder = some (owner, row) → owner = pid

def write (slot : Slot Row) (pid : Pid) (row : Row) : Slot Row :=
  { slot with holder := some (pid, row) }

def commit (slot : Slot Row) (pid : Pid) : Slot Row :=
  match slot.holder with
  | some (owner, row) => if owner = pid then { committed := some row, holder := none } else slot
  | none => slot

def rollback (slot : Slot Row) (pid : Pid) : Slot Row :=
  match slot.holder with
  | some (owner, _) => if owner = pid then { slot with holder := none } else slot
  | none => slot

theorem visible_of_held {slot : Slot Row} {pid : Pid} {row : Row}
    (held : slot.holder = some (pid, row)) : slot.visible pid = some row := by
  simp [visible, held]

theorem visible_of_free {slot : Slot Row} {pid : Pid}
    (unheld : ∀ row, slot.holder ≠ some (pid, row)) : slot.visible pid = slot.committed := by
  unfold visible
  split
  · rename_i owner row held
    have different : owner ≠ pid := fun same => unheld row (same ▸ held)
    rw [if_neg different]
  · rfl

/-- What a process sees is its own version or the committed row. -/
theorem visible_cases {slot : Slot Row} {pid : Pid} {row : Row} (seen : slot.visible pid = some row) :
    slot.holder = some (pid, row) ∨ slot.committed = some row := by
  by_cases held : ∃ version, slot.holder = some (pid, version)
  · obtain ⟨version, held⟩ := held
    rw [visible_of_held held] at seen
    cases seen
    exact .inl held
  · rw [visible_of_free fun version mine => held ⟨version, mine⟩] at seen
    exact .inr seen

theorem visible_of_stored {slot : Slot Row} {row : Row} (pid : Pid)
    (stored : slot.committed = some row) : ∃ seen, slot.visible pid = some seen := by
  unfold visible
  split
  · split
    · exact ⟨_, rfl⟩
    · exact ⟨row, stored⟩
  · exact ⟨row, stored⟩

@[simp] theorem write_committed (slot : Slot Row) (pid : Pid) (row : Row) :
    (slot.write pid row).committed = slot.committed := rfl

@[simp] theorem write_holder (slot : Slot Row) (pid : Pid) (row : Row) :
    (slot.write pid row).holder = some (pid, row) := rfl

/-- What a commit does to a slot: publish the version of its own transaction,
or nothing. -/
theorem commit_cases (slot : Slot Row) (pid : Pid) :
    (∃ row, slot.holder = some (pid, row) ∧
      slot.commit pid = { committed := some row, holder := none }) ∨
    ((∀ row, slot.holder ≠ some (pid, row)) ∧ slot.commit pid = slot) := by
  unfold commit
  cases held : slot.holder with
  | none => exact .inr ⟨by simp, rfl⟩
  | some entry =>
      obtain ⟨owner, row⟩ := entry
      by_cases same : owner = pid
      · subst same
        exact .inl ⟨row, rfl, by simp⟩
      · refine .inr ⟨?_, by simp [same]⟩
        intro other equal
        simp only [Option.some.injEq, Prod.mk.injEq] at equal
        exact same equal.1

theorem rollback_cases (slot : Slot Row) (pid : Pid) :
    (∃ row, slot.holder = some (pid, row) ∧
      slot.rollback pid = { committed := slot.committed, holder := none }) ∨
    ((∀ row, slot.holder ≠ some (pid, row)) ∧ slot.rollback pid = slot) := by
  unfold rollback
  cases held : slot.holder with
  | none => exact .inr ⟨by simp, rfl⟩
  | some entry =>
      obtain ⟨owner, row⟩ := entry
      by_cases same : owner = pid
      · subst same
        exact .inl ⟨row, rfl, by simp⟩
      · refine .inr ⟨?_, by simp [same]⟩
        intro other equal
        simp only [Option.some.injEq, Prod.mk.injEq] at equal
        exact same equal.1

/-- Every row of the slot, committed or held, has the property. -/
structure All (slot : Slot Row) (holds : Row → Prop) : Prop where
  committed : ∀ row, slot.committed = some row → holds row
  held : ∀ owner row, slot.holder = some (owner, row) → holds row

section All

variable {slot : Slot Row} {holds : Row → Prop} {pid : Pid} {row : Row}

theorem All.visible (all : slot.All holds) (seen : slot.visible pid = some row) : holds row := by
  cases current : slot.holder with
  | none =>
      rw [visible_of_free (by simp [current])] at seen
      exact all.committed row seen
  | some entry =>
      obtain ⟨owner, version⟩ := entry
      by_cases mine : owner = pid
      · subst mine
        rw [visible_of_held current] at seen
        cases seen
        exact all.held owner row current
      · rw [visible_of_free (by simp [current, mine])] at seen
        exact all.committed row seen

theorem All.write (all : slot.All holds) (new : holds row) : (slot.write pid row).All holds := by
  refine ⟨all.committed, ?_⟩
  intro owner version held
  cases held
  exact new

theorem All.commit (all : slot.All holds) : (slot.commit pid).All holds := by
  rcases slot.commit_cases pid with ⟨version, held, equal⟩ | ⟨_, equal⟩
  · rw [equal]
    refine ⟨?_, fun _ _ held => (by cases held)⟩
    intro row stored
    cases stored
    exact all.held pid version held
  · rw [equal]
    exact all

theorem All.rollback (all : slot.All holds) : (slot.rollback pid).All holds := by
  rcases slot.rollback_cases pid with ⟨version, held, equal⟩ | ⟨_, equal⟩
  · rw [equal]
    exact ⟨all.committed, fun _ _ held => (by cases held)⟩
  · rw [equal]
    exact all

end All

/-- A commit or rollback leaves the version of another process alone. -/
theorem holder_of_commit {slot : Slot Row} {pid owner : Pid} {row : Row}
    (held : (slot.commit pid).holder = some (owner, row)) : slot.holder = some (owner, row) := by
  rcases slot.commit_cases pid with ⟨_, _, equal⟩ | ⟨_, equal⟩
  · rw [equal] at held
    cases held
  · rwa [equal] at held

theorem holder_of_rollback {slot : Slot Row} {pid owner : Pid} {row : Row}
    (held : (slot.rollback pid).holder = some (owner, row)) : slot.holder = some (owner, row) := by
  rcases slot.rollback_cases pid with ⟨_, _, equal⟩ | ⟨_, equal⟩
  · rw [equal] at held
    cases held
  · rwa [equal] at held

section Seen

variable {slot : Slot Row} {pid viewer : Pid} {row : Row}

theorem visible_write_self : (slot.write pid row).visible pid = some row :=
  visible_of_held rfl

theorem visible_write_other (different : viewer ≠ pid) (free : slot.Free pid) :
    (slot.write pid row).visible viewer = slot.visible viewer := by
  have unheld : ∀ version, slot.holder ≠ some (viewer, version) :=
    fun version held => different (free viewer version held)
  rw [visible_of_free unheld, visible_of_free]
  · rfl
  · intro version held
    cases held
    exact different rfl

/-- A transaction commits what it sees. -/
theorem commit_committed : (slot.commit pid).committed = slot.visible pid := by
  rcases slot.commit_cases pid with ⟨version, held, equal⟩ | ⟨unheld, equal⟩
  · rw [equal, visible_of_held held]
  · rw [equal, visible_of_free unheld]

theorem committed_commit (stored : slot.committed = some row) :
    ∃ now, (slot.commit pid).committed = some now := by
  rcases slot.commit_cases pid with ⟨version, _, equal⟩ | ⟨_, equal⟩
  · exact ⟨version, by rw [equal]⟩
  · exact ⟨row, by rw [equal, stored]⟩

theorem rollback_committed : (slot.rollback pid).committed = slot.committed := by
  rcases slot.rollback_cases pid with ⟨_, _, equal⟩ | ⟨_, equal⟩ <;> rw [equal]

/-- What is seen stays to be seen. -/
theorem seen_commit (seen : slot.visible viewer = some row) :
    ∃ now, (slot.commit pid).visible viewer = some now := by
  rcases slot.commit_cases pid with ⟨version, _, equal⟩ | ⟨_, equal⟩
  · rw [equal]
    exact ⟨version, rfl⟩
  · rw [equal]
    exact ⟨row, seen⟩

theorem visible_rollback_other (different : viewer ≠ pid) :
    (slot.rollback pid).visible viewer = slot.visible viewer := by
  rcases slot.rollback_cases pid with ⟨version, held, equal⟩ | ⟨_, equal⟩
  · have unheld : ∀ own, slot.holder ≠ some (viewer, own) := by
      intro own mine
      rw [held] at mine
      cases mine
      exact different rfl
    rw [equal, visible_of_free unheld]
    rfl
  · rw [equal]

end Seen

/-! ## Turns

What one operation of `pid` can do to a slot: write it, end a transaction, or
leave it alone.
-/

inductive Turn (slot : Slot Row) (pid : Pid) (writes : Row → Prop) (commits rollsBack : Prop)
    (after : Slot Row) : Prop where
  | write (new : Row) (writing : writes new) (free : slot.Free pid)
      (same : after = slot.write pid new) : Turn slot pid writes commits rollsBack after
  | commit (ended : commits) (same : after = slot.commit pid) :
      Turn slot pid writes commits rollsBack after
  | rollback (ended : rollsBack) (same : after = slot.rollback pid) :
      Turn slot pid writes commits rollsBack after
  | keep (unwritten : ∀ new, ¬ writes new) (uncommitted : ¬ commits) (opened : ¬ rollsBack)
      (same : after = slot) : Turn slot pid writes commits rollsBack after

namespace Turn

variable {slot after : Slot Row} {pid owner viewer : Pid} {writes : Row → Prop}
  {commits rollsBack : Prop} {row : Row}

theorem committed_kept (turn : Turn slot pid writes commits rollsBack after)
    (stored : slot.committed = some row) : ∃ now, after.committed = some now := by
  cases turn with
  | write new writing free same => exact ⟨row, by rw [same, write_committed, stored]⟩
  | commit _ same =>
      rw [same]
      exact committed_commit stored
  | rollback _ same => exact ⟨row, by rw [same, rollback_committed, stored]⟩
  | keep _ _ _ same => exact ⟨row, by rw [same, stored]⟩

/-- The committed row changes only when the process that holds it commits. -/
theorem committed_cases (turn : Turn slot pid writes commits rollsBack after) :
    after.committed = slot.committed ∨
      commits ∧ ∃ row, slot.holder = some (pid, row) ∧ after.committed = some row := by
  cases turn with
  | write new writing free same => exact .inl (by rw [same, write_committed])
  | commit ends same =>
      rcases slot.commit_cases pid with ⟨row, held, equal⟩ | ⟨_, equal⟩
      · exact .inr ⟨ends, row, held, by rw [same, equal]⟩
      · exact .inl (by rw [same, equal])
  | rollback _ same => exact .inl (by rw [same, rollback_committed])
  | keep _ _ _ same => exact .inl (by rw [same])

/-- A version that a process holds was just written by it, or held before and
its transaction is still open. -/
theorem holder_cases (turn : Turn slot pid writes commits rollsBack after)
    (held : after.holder = some (owner, row)) :
    (owner = pid ∧ writes row ∧ slot.Free pid) ∨
      slot.holder = some (owner, row) ∧ (owner = pid → (∀ new, ¬ writes new) ∧ ¬ commits ∧ ¬ rollsBack) := by
  cases turn with
  | write new writing free same =>
      rw [same, write_holder] at held
      cases held
      exact .inl ⟨rfl, writing, free⟩
  | commit _ same =>
      rw [same] at held
      refine .inr ⟨holder_of_commit held, ?_⟩
      rintro rfl
      rcases slot.commit_cases owner with ⟨_, _, equal⟩ | ⟨unheld, _⟩
      · rw [equal] at held
        cases held
      · exact absurd (holder_of_commit held) (unheld row)
  | rollback _ same =>
      rw [same] at held
      refine .inr ⟨holder_of_rollback held, ?_⟩
      rintro rfl
      rcases slot.rollback_cases owner with ⟨_, _, equal⟩ | ⟨unheld, _⟩
      · rw [equal] at held
        cases held
      · exact absurd (holder_of_rollback held) (unheld row)
  | keep unwritten uncommitted opened same =>
      rw [same] at held
      exact .inr ⟨held, fun _ => ⟨unwritten, uncommitted, opened⟩⟩

/-- Nobody else touches a row that a transaction holds. -/
theorem held_kept (turn : Turn slot pid writes commits rollsBack after) (different : owner ≠ pid)
    (held : slot.holder = some (owner, row)) : after = slot := by
  have other : ∀ version, slot.holder ≠ some (pid, version) := by
    intro version mine
    rw [held] at mine
    cases mine
    exact different rfl
  cases turn with
  | write new writing free same => exact absurd (free owner row held) different
  | commit _ same =>
      rcases slot.commit_cases pid with ⟨version, mine, _⟩ | ⟨_, equal⟩
      · exact absurd mine (other version)
      · exact same.trans equal
  | rollback _ same =>
      rcases slot.rollback_cases pid with ⟨version, mine, _⟩ | ⟨_, equal⟩
      · exact absurd mine (other version)
      · exact same.trans equal
  | keep _ _ _ same => exact same

/-- A row that a process holds it holds until its transaction ends. -/
theorem own_kept (turn : Turn slot pid writes commits rollsBack after) (uncommitted : ¬ commits)
    (opened : ¬ rollsBack) (held : slot.holder = some (pid, row)) :
    after.committed = slot.committed ∧ ∃ now, after.holder = some (pid, now) := by
  cases turn with
  | write new writing free same =>
      rw [same]
      exact ⟨rfl, new, rfl⟩
  | commit ends _ => exact absurd ends uncommitted
  | rollback ends _ => exact absurd ends opened
  | keep _ _ _ same =>
      rw [same]
      exact ⟨rfl, row, held⟩

/-- What every write leaves in a row is true of every row. -/
theorem all {holds : Row → Prop} (turn : Turn slot pid writes commits rollsBack after)
    (before : slot.All holds) (written : ∀ new, writes new → holds new) : after.All holds := by
  cases turn with
  | write new writing free same =>
      rw [same]
      exact before.write (written new writing)
  | commit _ same =>
      rw [same]
      exact before.commit
  | rollback _ same =>
      rw [same]
      exact before.rollback
  | keep _ _ _ same =>
      rw [same]
      exact before

end Turn

end Slot

namespace Table

variable {Key Row : Type} [DecidableEq Key]

def slot (table : Table Key Row) (key : Key) : Slot Row where
  committed := table.committed key
  holder := (table.lock key).bind fun pid => (table.own pid key).map fun row => (pid, row)

@[simp] theorem slot_committed (table : Table Key Row) (key : Key) :
    (table.slot key).committed = table.committed key := rfl

theorem slot_holder_iff {table : Table Key Row} {key : Key} {pid : Pid} {row : Row} :
    (table.slot key).holder = some (pid, row) ↔ table.own pid key = some row := by
  constructor
  · intro held
    obtain ⟨owner, _, mapped⟩ := Option.bind_eq_some_iff.mp held
    obtain ⟨version, found, equal⟩ := Option.map_eq_some_iff.mp mapped
    cases equal
    exact found
  · intro found
    have locked : table.lock key = some pid := own_isSome_iff.mp ⟨row, found⟩
    simp [slot, locked, found]

theorem slot_visible (table : Table Key Row) (key : Key) (pid : Pid) :
    (table.slot key).visible pid = table.visible pid key := by
  cases found : table.own pid key with
  | none =>
      have unheld : ∀ row, (table.slot key).holder ≠ some (pid, row) := by
        intro row held
        rw [slot_holder_iff, found] at held
        cases held
      rw [Slot.visible_of_free unheld, visible, found, Option.none_or, slot_committed]
  | some row => rw [Slot.visible_of_held (slot_holder_iff.mpr found), visible_of_own found]

theorem free_iff_slot {table : Table Key Row} {pid : Pid} {key : Key} :
    table.Free pid key ↔ (table.slot key).Free pid := by
  constructor
  · rintro free owner row held
    have locked : table.lock key = some owner := own_isSome_iff.mp ⟨row, slot_holder_iff.mp held⟩
    rcases free with unlocked | mine
    · rw [locked] at unlocked
      cases unlocked
    · rw [locked] at mine
      exact Option.some.inj mine
  · intro free
    cases locked : table.lock key with
    | none => exact .inl locked
    | some owner =>
        obtain ⟨row, found⟩ := own_isSome_iff.mpr locked
        exact .inr (by rw [locked, free owner row (slot_holder_iff.mpr found)])

theorem slot_ext {left right : Table Key Row} {key : Key}
    (committed : left.committed key = right.committed key)
    (own : ∀ pid, left.own pid key = right.own pid key) : left.slot key = right.slot key := by
  have holder : (left.slot key).holder = (right.slot key).holder := by
    apply Option.ext
    rintro ⟨pid, row⟩
    rw [slot_holder_iff, slot_holder_iff, own]
  calc left.slot key = ⟨left.committed key, (left.slot key).holder⟩ := rfl
    _ = ⟨right.committed key, (right.slot key).holder⟩ := by rw [committed, holder]
    _ = right.slot key := rfl

theorem write_slot {table : Table Key Row} {pid : Pid} {key : Key} {row : Row}
    {free : table.Free pid key} (queried : Key) :
    (table.write pid key row free).slot queried =
      if queried = key then (table.slot key).write pid row else table.slot queried := by
  split
  · rename_i same
    subst same
    have held : ((table.write pid queried row free).slot queried).holder = some (pid, row) := by
      rw [slot_holder_iff, write_own]
      simp
    calc (table.write pid queried row free).slot queried
        = ⟨table.committed queried, ((table.write pid queried row free).slot queried).holder⟩ := rfl
      _ = (table.slot queried).write pid row := by rw [held]; rfl
  · rename_i different
    refine slot_ext rfl fun other => ?_
    rw [write_own, if_neg fun both => different both.2]

theorem commit_slot (table : Table Key Row) (pid : Pid) (key : Key) :
    (table.commit pid).slot key = (table.slot key).commit pid := by
  rcases (table.slot key).commit_cases pid with ⟨row, held, equal⟩ | ⟨unheld, equal⟩
  · rw [equal]
    have mine := slot_holder_iff.mp held
    have published : (table.commit pid).committed key = some row := visible_of_own mine
    have locked : table.lock key = some pid := own_isSome_iff.mp ⟨row, mine⟩
    have released : ((table.commit pid).slot key).holder = none := by
      simp [slot, locked]
    calc (table.commit pid).slot key
        = ⟨(table.commit pid).committed key, ((table.commit pid).slot key).holder⟩ := rfl
      _ = _ := by rw [published, released]
  · rw [equal]
    have unlocked : table.own pid key = none := by
      cases found : table.own pid key with
      | none => rfl
      | some row => exact absurd (slot_holder_iff.mpr found) (unheld row)
    refine slot_ext (commit_committed_of_unlocked (own_eq_none_iff.mp unlocked)) fun other => ?_
    by_cases same : other = pid
    · subst same
      rw [commit_own_self, unlocked]
    · rw [commit_own_other same]

theorem rollback_slot (table : Table Key Row) (pid : Pid) (key : Key) :
    (table.rollback pid).slot key = (table.slot key).rollback pid := by
  rcases (table.slot key).rollback_cases pid with ⟨row, held, equal⟩ | ⟨unheld, equal⟩
  · rw [equal]
    have locked : table.lock key = some pid := own_isSome_iff.mp ⟨row, slot_holder_iff.mp held⟩
    have released : ((table.rollback pid).slot key).holder = none := by
      simp [slot, locked]
    calc (table.rollback pid).slot key
        = ⟨table.committed key, ((table.rollback pid).slot key).holder⟩ := rfl
      _ = _ := by rw [released]; rfl
  · rw [equal]
    have unlocked : table.own pid key = none := by
      cases found : table.own pid key with
      | none => rfl
      | some row => exact absurd (slot_holder_iff.mpr found) (unheld row)
    refine slot_ext rfl fun other => ?_
    by_cases same : other = pid
    · subst same
      rw [rollback_own, commit_own_self, unlocked]
    · rw [rollback_own, commit_own_other same]

/-- What an update of one row does to each slot. -/
theorem update_slot {table after : Table Key Row} {pid : Pid} {key : Key}
    {condition : Row → Bool} {set : Row → Row} {changed : Bool}
    (updated : table.update pid key condition set = some (changed, after)) (queried : Key) :
    (after.slot queried = table.slot queried ∧ ¬ (changed = true ∧ queried = key)) ∨
    (changed = true ∧ queried = key ∧ (table.slot queried).Free pid ∧
      ∃ row, table.visible pid queried = some row ∧ condition row = true ∧
        after.slot queried = (table.slot queried).write pid (set row)) := by
  rcases update_cases updated with ⟨refused, rfl, _⟩ | ⟨accepted, row, free, seen, holds, rfl⟩
  · exact .inl ⟨rfl, by simp [refused]⟩
  · by_cases same : queried = key
    · subst same
      refine .inr ⟨accepted, rfl, free_iff_slot.mp free, row, seen, holds, ?_⟩
      rw [write_slot, if_pos rfl]
    · refine .inl ⟨?_, fun both => same both.2⟩
      rw [write_slot, if_neg same]

/-- What an update of several rows does to each slot.  No key is met twice, so
each changed row was written once, over the row seen at the start. -/
theorem updateAll_slot {pid : Pid} {condition : Row → Bool} {set : Row → Row}
    {keys hits : List Key} {table after : Table Key Row} (distinct : keys.Nodup)
    (updated : table.updateAll pid condition set keys = some (hits, after)) (queried : Key) :
    (after.slot queried = table.slot queried ∧ queried ∉ hits) ∨
    (queried ∈ hits ∧ queried ∈ keys ∧ (table.slot queried).Free pid ∧
      ∃ row, table.visible pid queried = some row ∧ condition row = true ∧
        after.slot queried = (table.slot queried).write pid (set row)) := by
  induction keys generalizing table hits with
  | nil =>
      simp only [updateAll, Option.some.injEq, Prod.mk.injEq] at updated
      obtain ⟨rfl, rfl⟩ := updated
      exact .inl ⟨rfl, by simp⟩
  | cons key rest ih =>
      simp only [updateAll] at updated
      split at updated
      · contradiction
      · rename_i changed next first
        split at updated
        · contradiction
        · rename_i tail final others
          simp only [Option.some.injEq, Prod.mk.injEq] at updated
          obtain ⟨rfl, rfl⟩ := updated
          obtain ⟨fresh, distinctRest⟩ := List.nodup_cons.mp distinct
          rcases ih distinctRest others with ⟨kept, missed⟩ | ⟨hit, member, free, row, seen, holds, wrote⟩
          · rcases update_slot first queried with ⟨unchanged, other⟩ | ⟨accepted, same, free, row, seen, holds, wrote⟩
            · refine .inl ⟨kept.trans unchanged, ?_⟩
              split
              · rename_i accepted
                simp only [List.mem_cons, not_or]
                exact ⟨fun same => other ⟨accepted, same⟩, missed⟩
              · exact missed
            · refine .inr ⟨by simp [accepted, same], by simp [same], free, row, seen, holds, ?_⟩
              rw [kept, wrote]
          · have different : queried ≠ key := fun same => fresh (same ▸ member)
            rcases update_slot first queried with ⟨unchanged, _⟩ | ⟨_, same, _⟩
            · have sameVisible : next.visible pid queried = table.visible pid queried := by
                rw [← slot_visible, unchanged, slot_visible]
              rw [unchanged] at free wrote
              rw [sameVisible] at seen
              exact .inr ⟨by split <;> simp [hit], by simp [member], free, row, seen, holds, wrote⟩
            · exact absurd same different

/-- The keys an update of several rows changed, in the order it was given them. -/
theorem updateAll_sublist {pid : Pid} {condition : Row → Bool} {set : Row → Row}
    {keys hits : List Key} {table after : Table Key Row}
    (updated : table.updateAll pid condition set keys = some (hits, after)) : hits.Sublist keys := by
  induction keys generalizing table hits with
  | nil =>
      cases updated
      exact .slnil
  | cons key rest ih =>
      simp only [updateAll] at updated
      split at updated
      · contradiction
      · split at updated
        · contradiction
        · rename_i tail final others
          cases updated
          split
          · exact (ih others).cons_cons key
          · exact (ih others).cons key

/-- An update of several rows misses no row that meets its condition. -/
theorem updateAll_complete {pid : Pid} {condition : Row → Bool} {set : Row → Row}
    {keys hits : List Key} {table after : Table Key Row} {queried : Key} {row : Row}
    (distinct : keys.Nodup)
    (updated : table.updateAll pid condition set keys = some (hits, after))
    (member : queried ∈ keys) (seen : table.visible pid queried = some row)
    (holds : condition row = true) : queried ∈ hits := by
  induction keys generalizing table hits with
  | nil => cases member
  | cons key rest ih =>
      simp only [updateAll] at updated
      split at updated
      · contradiction
      · rename_i changed next first
        split at updated
        · contradiction
        · rename_i tail final others
          cases updated
          obtain ⟨fresh, distinctRest⟩ := List.nodup_cons.mp distinct
          rcases List.mem_cons.mp member with rfl | later
          · rcases update_cases first with ⟨_, _, missed⟩ | ⟨accepted, _⟩
            · exact absurd holds (by simpa [seen] using missed)
            · simp [accepted]
          · have different : queried ≠ key := fun same => fresh (same ▸ later)
            have same : next.visible pid queried = table.visible pid queried := by
              rcases update_slot first queried with ⟨unchanged, _⟩ | ⟨_, same, _⟩
              · rw [← slot_visible, unchanged, slot_visible]
              · exact absurd same different
            have hit := ih distinctRest others later (same.trans seen)
            split
            · exact List.mem_cons_of_mem _ hit
            · exact hit

theorem insert_slot {table after : Table Key Row} {pid : Pid} {key : Key} {row : Row}
    (inserted : table.insert pid key row = some after) (queried : Key) :
    (queried ≠ key ∧ after.slot queried = table.slot queried) ∨
    (queried = key ∧ table.slot queried = { committed := none, holder := none } ∧
      after.slot queried = (table.slot queried).write pid row) := by
  unfold insert at inserted
  split at inserted
  · contradiction
  · rename_i fresh
    split at inserted
    · rename_i free
      cases inserted
      by_cases same : queried = key
      · subst same
        obtain ⟨missing, unlocked⟩ := table.listed queried fresh
        refine .inr ⟨rfl, by simp [slot, missing, unlocked], ?_⟩
        rw [write_slot, if_pos rfl]
      · refine .inl ⟨same, ?_⟩
        rw [write_slot, if_neg same]
    · contradiction

theorem mem_keys_of_visible {table : Table Key Row} {pid : Pid} {key : Key} {row : Row}
    (seen : table.visible pid key = some row) : key ∈ table.keys := by
  by_contra absent
  obtain ⟨missing, unlocked⟩ := table.listed key absent
  rw [visible_of_unlocked (by rw [unlocked]; simp), missing] at seen
  cases seen

/-- The rows a scan meets are the visible ones. -/
theorem mem_rows_iff {table : Table Key Row} {pid : Pid} {row : Row} :
    row ∈ table.rows pid ↔ ∃ key, table.visible pid key = some row := by
  rw [rows, List.mem_filterMap]
  constructor
  · rintro ⟨key, _, seen⟩
    exact ⟨key, seen⟩
  · rintro ⟨key, seen⟩
    exact ⟨key, mem_keys_of_visible seen, seen⟩

/-- A scan meets no row twice. -/
theorem rows_nodup {table : Table Key Row} {pid : Pid} {key : Row → Key}
    (keyed : ∀ queried row, table.visible pid queried = some row → key row = queried) :
    ((table.rows pid).map key).Nodup := by
  have sublist : ∀ keys : List Key, ((keys.filterMap (table.visible pid)).map key).Sublist keys := by
    intro keys
    induction keys with
    | nil => exact .slnil
    | cons first rest ih =>
        cases seen : table.visible pid first with
        | none =>
            rw [List.filterMap_cons_none seen]
            exact ih.cons first
        | some row =>
            rw [List.filterMap_cons_some seen, List.map_cons, keyed first row seen]
            exact ih.cons_cons first
  exact (sublist table.keys).nodup table.distinct

/-- Where nobody else has the row open, its newest version is the visible one. -/
theorem newest_eq_visible {table : Table Key Row} {pid : Pid} {key : Key}
    (free : (table.slot key).Free pid) : table.newest key = table.visible pid key := by
  unfold newest
  cases locked : table.lock key with
  | none => exact (visible_of_unlocked (by rw [locked]; simp)).symm
  | some owner =>
      obtain ⟨row, found⟩ := own_isSome_iff.mpr locked
      obtain rfl := free owner row (slot_holder_iff.mpr found)
      rw [visible_of_own found]
      exact found

end Table

end IncidentPlatform.Storage

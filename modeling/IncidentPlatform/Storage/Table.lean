import IncidentPlatform.Concurrency.Pool
import Mathlib.Data.List.Perm.Basic

namespace IncidentPlatform.Storage

open Concurrency

/-! # Tables under READ COMMITTED

A statement of a transaction sees the committed rows and the rows its own
transaction has written.  An update takes the lock of each row it changes and
keeps it to the end of the transaction; an update of a row that another open
transaction has locked waits.  A transaction is named by the process that runs
it, which has at most one open at a time.
-/

structure Table (Key Row : Type) where
  /-- The keys ever inserted, in the order a scan meets their rows. -/
  keys : List Key
  distinct : keys.Nodup
  committed : Key → Option Row
  /-- The row versions an open transaction has written, newest first. -/
  written : Pid → List (Key × Row)
  lock : Key → Option Pid
  locked : ∀ key pid, lock key = some pid ↔ key ∈ (written pid).map Prod.fst
  listed : ∀ key, key ∉ keys → committed key = none ∧ lock key = none

namespace Table

variable {Key Row : Type} [DecidableEq Key]

def empty : Table Key Row where
  keys := []
  distinct := .nil
  committed := fun _ => none
  written := fun _ => []
  lock := fun _ => none
  locked := by simp
  listed := by simp

/-- The rows of the first `count` keys, with no transaction open. -/
def stored (row : Nat → Row) (count : Nat) : Table Nat Row where
  keys := .range count
  distinct := List.nodup_range
  committed := fun key => if key < count then some (row key) else none
  written := fun _ => []
  lock := fun _ => none
  locked := by simp
  listed := by
    intro key absent
    simpa using absent

/-- The newest version of a row that the transaction of `pid` has written. -/
def own (table : Table Key Row) (pid : Pid) (key : Key) : Option Row :=
  (table.written pid).lookup key

def visible (table : Table Key Row) (pid : Pid) (key : Key) : Option Row :=
  (table.own pid key).or (table.committed key)

/-- The rows a scan of `pid` meets. -/
def rows (table : Table Key Row) (pid : Pid) : List Row :=
  table.keys.filterMap (table.visible pid)

/-- Whether `pid` can write the row now. -/
def Free (table : Table Key Row) (pid : Pid) (key : Key) : Prop :=
  table.lock key = none ∨ table.lock key = some pid

instance (table : Table Key Row) (pid : Pid) (key : Key) : Decidable (table.Free pid key) :=
  inferInstanceAs (Decidable (_ ∨ _))

def write (table : Table Key Row) (pid : Pid) (key : Key) (row : Row)
    (free : table.Free pid key) : Table Key Row where
  keys := if key ∈ table.keys then table.keys else table.keys ++ [key]
  distinct := by
    split
    · exact table.distinct
    · rename_i absent
      simpa [List.nodup_append] using ⟨table.distinct, fun other member same => absent (same ▸ member)⟩
  committed := table.committed
  written := fun other =>
    if other = pid then (key, row) :: table.written pid else table.written other
  lock := fun other => if other = key then some pid else table.lock other
  locked := by
    intro other holder
    have before := table.locked other holder
    by_cases samePid : holder = pid
    · subst samePid
      by_cases sameKey : other = key
      · simp [sameKey]
      · simpa [sameKey] using before
    · by_cases sameKey : other = key
      · subst sameKey
        have absent : table.lock other ≠ some holder := by
          rcases free with unlocked | mine
          · rw [unlocked]; simp
          · rw [mine]; simpa using Ne.symm samePid
        have unwritten := mt before.mpr absent
        simp only [if_true, if_neg samePid, Option.some.injEq]
        exact iff_of_false (Ne.symm samePid) unwritten
      · simpa [sameKey, samePid] using before
  listed := by
    intro other absent
    split at absent
    · have different : other ≠ key := fun same => absent (same ▸ ‹key ∈ table.keys›)
      simpa [different] using table.listed other absent
    · simp only [List.mem_append, List.mem_singleton, not_or] at absent
      simpa [absent.2] using table.listed other absent.1

/-- Publish the versions of a transaction and release its locks. -/
def commit (table : Table Key Row) (pid : Pid) : Table Key Row where
  keys := table.keys
  distinct := table.distinct
  committed := table.visible pid
  written := fun other => if other = pid then [] else table.written other
  lock := fun key => if table.lock key = some pid then none else table.lock key
  locked := by
    intro key holder
    have before := table.locked key holder
    by_cases samePid : holder = pid
    · subst samePid
      simp
    · rw [if_neg samePid, ← before]
      split
      · rename_i mine
        simp [mine, Ne.symm samePid]
      · rfl
  listed := by
    intro key absent
    obtain ⟨missing, unlocked⟩ := table.listed key absent
    have unwritten : table.own pid key = none := by
      rw [own, List.lookup_eq_none_iff]
      intro entry member
      have : key ∉ (table.written pid).map Prod.fst := by
        rw [← table.locked, unlocked]
        simp
      simpa using fun same : key = entry.1 => this (List.mem_map.mpr ⟨entry, member, same.symm⟩)
    simp [visible, unwritten, missing, unlocked]

/-- Drop the versions of a transaction and release its locks. -/
def rollback (table : Table Key Row) (pid : Pid) : Table Key Row where
  keys := table.keys
  distinct := table.distinct
  committed := table.committed
  written := (table.commit pid).written
  lock := (table.commit pid).lock
  locked := (table.commit pid).locked
  listed := by
    intro key absent
    exact ⟨(table.listed key absent).1, ((table.commit pid).listed key absent).2⟩

/-- The newest version of a row, whichever transaction wrote it. -/
def newest (table : Table Key Row) (key : Key) : Option Row :=
  match table.lock key with
  | some pid => table.own pid key
  | none => table.committed key

/-- `UPDATE ... WHERE key = key AND condition`: whether the row was changed, or
`none` while another transaction holds it. -/
def update (table : Table Key Row) (pid : Pid) (key : Key) (condition : Row → Bool)
    (set : Row → Row) : Option (Bool × Table Key Row) :=
  match table.visible pid key with
  | none => some (false, table)
  | some row =>
      if condition row then
        if free : table.Free pid key then some (true, table.write pid key (set row) free)
        else none
      else some (false, table)

/-- The same update over several keys, returning those it changed. -/
def updateAll (table : Table Key Row) (pid : Pid) (condition : Row → Bool) (set : Row → Row) :
    List Key → Option (List Key × Table Key Row)
  | [] => some ([], table)
  | key :: rest =>
      match table.update pid key condition set with
      | none => none
      | some (changed, next) =>
          match next.updateAll pid condition set rest with
          | none => none
          | some (hits, after) => some (if changed then key :: hits else hits, after)

/-- Insert a row under a key never used before. -/
def insert (table : Table Key Row) (pid : Pid) (key : Key) (row : Row) :
    Option (Table Key Row) :=
  if key ∈ table.keys then none
  else if free : table.Free pid key then some (table.write pid key row free)
  else none

/-- The order in which a scan meets the rows may change at any time. -/
def reorder (table : Table Key Row) (order : List Key) (same : order.Perm table.keys) :
    Table Key Row where
  keys := order
  distinct := same.nodup_iff.mpr table.distinct
  committed := table.committed
  written := table.written
  lock := table.lock
  locked := table.locked
  listed := fun key absent => table.listed key fun member => absent (same.mem_iff.mpr member)

section Write

variable {table : Table Key Row} {pid : Pid} {key : Key} {row : Row} {free : table.Free pid key}

@[simp] theorem write_committed : (table.write pid key row free).committed = table.committed := rfl

@[simp] theorem write_lock (other : Key) :
    (table.write pid key row free).lock other =
      if other = key then some pid else table.lock other := rfl

@[simp] theorem write_written_self :
    (table.write pid key row free).written pid = (key, row) :: table.written pid := by
  simp [write]

theorem write_written_other {other : Pid} (different : other ≠ pid) :
    (table.write pid key row free).written other = table.written other := by
  simp [write, different]

theorem write_own (other : Pid) (queried : Key) :
    (table.write pid key row free).own other queried =
      if other = pid ∧ queried = key then some row else table.own other queried := by
  by_cases samePid : other = pid
  · subst samePid
    by_cases sameKey : queried = key
    · simp [own, sameKey]
    · have unequal : (queried == key) = false := by simpa using sameKey
      simp [own, List.lookup_cons, unequal, sameKey]
  · simp [own, write_written_other samePid, samePid]

theorem write_visible (other : Pid) (queried : Key) :
    (table.write pid key row free).visible other queried =
      if other = pid ∧ queried = key then some row else table.visible other queried := by
  rw [visible, write_own]
  split <;> rfl

end Write

section Locks

variable {table : Table Key Row} {pid : Pid} {key : Key}

theorem own_eq_none_iff : table.own pid key = none ↔ table.lock key ≠ some pid := by
  rw [Ne, table.locked, own, List.lookup_eq_none_iff]
  simp only [List.mem_map, not_exists, not_and, bne_iff_ne, ne_eq]
  exact ⟨fun none entry member same => none entry member same.symm,
    fun none entry member same => none entry member same.symm⟩

theorem own_isSome_iff : (∃ row, table.own pid key = some row) ↔ table.lock key = some pid := by
  have absent : table.own pid key = none ↔ table.lock key ≠ some pid := own_eq_none_iff
  cases found : table.own pid key with
  | none => simpa [found] using absent.mp found
  | some row => simpa [found] using absent

theorem visible_of_unlocked (unlocked : table.lock key ≠ some pid) :
    table.visible pid key = table.committed key := by
  rw [visible, own_eq_none_iff.mpr unlocked, Option.none_or]

theorem visible_of_own {row : Row} (found : table.own pid key = some row) :
    table.visible pid key = some row := by
  rw [visible, found, Option.some_or]

end Locks

section Commit

variable {table : Table Key Row} {pid : Pid}

@[simp] theorem commit_committed : (table.commit pid).committed = table.visible pid := rfl

@[simp] theorem commit_written_self : (table.commit pid).written pid = [] := by
  simp [commit]

theorem commit_written_other {other : Pid} (different : other ≠ pid) :
    (table.commit pid).written other = table.written other := by
  simp [commit, different]

@[simp] theorem commit_lock (key : Key) :
    (table.commit pid).lock key = if table.lock key = some pid then none else table.lock key := rfl

theorem commit_own_other {other : Pid} (different : other ≠ pid) :
    (table.commit pid).own other = table.own other := by
  funext key
  simp [own, commit_written_other different]

@[simp] theorem commit_own_self (key : Key) : (table.commit pid).own pid key = none := by
  simp [own]

/-- A commit changes only the rows its transaction has locked. -/
theorem commit_committed_of_unlocked {key : Key} (unlocked : table.lock key ≠ some pid) :
    (table.commit pid).committed key = table.committed key :=
  visible_of_unlocked unlocked

@[simp] theorem rollback_committed : (table.rollback pid).committed = table.committed := rfl

@[simp] theorem rollback_written : (table.rollback pid).written = (table.commit pid).written := rfl

@[simp] theorem rollback_lock : (table.rollback pid).lock = (table.commit pid).lock := rfl

@[simp] theorem rollback_own : (table.rollback pid).own = (table.commit pid).own := rfl

end Commit

/-- What an update of one row did. -/
theorem update_cases {table after : Table Key Row} {pid : Pid} {key : Key}
    {condition : Row → Bool} {set : Row → Row} {changed : Bool}
    (updated : table.update pid key condition set = some (changed, after)) :
    (changed = false ∧ after = table ∧
      ∀ row, table.visible pid key = some row → condition row = false) ∨
    (changed = true ∧ ∃ row, ∃ free : table.Free pid key,
      table.visible pid key = some row ∧ condition row = true ∧
      after = table.write pid key (set row) free) := by
  unfold update at updated
  cases found : table.visible pid key with
  | none =>
      simp only [found, Option.some.injEq, Prod.mk.injEq] at updated
      exact .inl ⟨updated.1.symm, updated.2.symm, by simp⟩
  | some row =>
      simp only [found] at updated
      split at updated
      · rename_i holds
        split at updated
        · rename_i free
          simp only [Option.some.injEq, Prod.mk.injEq] at updated
          exact .inr ⟨updated.1.symm, row, free, rfl, holds, updated.2.symm⟩
        · contradiction
      · rename_i fails
        simp only [Option.some.injEq, Prod.mk.injEq] at updated
        refine .inl ⟨updated.1.symm, updated.2.symm, ?_⟩
        intro other same
        cases same
        simpa using fails

end Table

/-- Rows that are only ever inserted, in insertion order. -/
structure Journal (Row : Type) where
  committed : List Row
  pending : Pid → List Row

namespace Journal

variable {Row : Type}

def empty : Journal Row where
  committed := []
  pending := fun _ => []

def visible (journal : Journal Row) (pid : Pid) : List Row :=
  journal.committed ++ journal.pending pid

def append (journal : Journal Row) (pid : Pid) (rows : List Row) : Journal Row where
  committed := journal.committed
  pending := fun other => if other = pid then journal.pending pid ++ rows else journal.pending other

def commit (journal : Journal Row) (pid : Pid) : Journal Row where
  committed := journal.visible pid
  pending := fun other => if other = pid then [] else journal.pending other

def rollback (journal : Journal Row) (pid : Pid) : Journal Row where
  committed := journal.committed
  pending := fun other => if other = pid then [] else journal.pending other

@[simp] theorem append_nil (journal : Journal Row) (pid : Pid) : journal.append pid [] = journal := by
  unfold append
  congr 1
  funext other
  split
  · rename_i same
    rw [same, List.append_nil]
  · rfl

/-- What one operation of `pid` can do to a journal: append rows, or end a
transaction. -/
inductive Turn (journal : Journal Row) (pid : Pid) (rows : List Row) (commits rollsBack : Prop)
    (after : Journal Row) : Prop where
  | append (uncommitted : ¬ commits) (opened : ¬ rollsBack) (same : after = journal.append pid rows) :
      Turn journal pid rows commits rollsBack after
  | commit (ended : commits) (same : after = journal.commit pid) :
      Turn journal pid rows commits rollsBack after
  | rollback (ended : rollsBack) (same : after = journal.rollback pid) :
      Turn journal pid rows commits rollsBack after

namespace Turn

variable {journal after : Journal Row} {pid : Pid} {rows : List Row} {commits rollsBack : Prop}

theorem of_same (uncommitted : ¬ commits) (opened : ¬ rollsBack) (none : rows = [])
    (same : after = journal) : Turn journal pid rows commits rollsBack after :=
  .append uncommitted opened (by rw [same, none, append_nil])

/-- Nobody else touches what a transaction has pending. -/
theorem pending_other (turn : Turn journal pid rows commits rollsBack after) {other : Pid}
    (different : other ≠ pid) : after.pending other = journal.pending other := by
  cases turn with
  | append _ _ same =>
      rw [same]
      exact if_neg different
  | commit _ same =>
      rw [same]
      exact if_neg different
  | rollback _ same =>
      rw [same]
      exact if_neg different

/-- Only a commit adds to what is committed. -/
theorem committed_cases (turn : Turn journal pid rows commits rollsBack after) :
    after.committed = journal.committed ∨
      commits ∧ after.committed = journal.committed ++ journal.pending pid := by
  cases turn with
  | append _ _ same => exact .inl (by rw [same]; rfl)
  | commit ended same => exact .inr ⟨ended, by rw [same]; rfl⟩
  | rollback _ same => exact .inl (by rw [same]; rfl)

end Turn

end Journal

end IncidentPlatform.Storage

import IncidentPlatform.Concurrency.Pool
import Mathlib.Data.List.Nodup
import Mathlib.Data.List.Perm.Basic

namespace IncidentPlatform.Storage

open Concurrency

/-! # Rows under a unique index

A table under READ COMMITTED whose committed rows stand in the order of their
commits.  An INSERT waits while another open transaction has inserted a row of
the same key, and fails where a row of that key is stored; rows without a key
never collide.  An UPDATE locks its row to the end of the transaction.
-/

structure IndexedRows (Ident Row : Type) where
  committed : List Row
  /-- What open transactions have inserted. -/
  inserted : List (Pid × Row)
  /-- What open transactions have changed, newest first, with the row each has locked. -/
  changed : List (Pid × Ident × (Row → Row))

/-- How an INSERT ends. -/
inductive InsertEnd (Ident Row : Type) where
  | waits
  | conflicts
  | inserts (after : IndexedRows Ident Row)

namespace IndexedRows

variable {Ident Row Key : Type}

def empty : IndexedRows Ident Row where
  committed := []
  inserted := []
  changed := []

section Statements

variable (rows : IndexedRows Ident Row) (pid : Pid)

/-- The part of a list of entries that `pid` has made. -/
def ofPid {Entry : Type} (entries : List (Pid × Entry)) (pid : Pid) : List Entry :=
  (entries.filter fun entry => entry.1 = pid).map Prod.snd

def insertedBy : List Row := ofPid rows.inserted pid

def changedBy : List (Ident × (Row → Row)) := ofPid rows.changed pid

def add (row : Row) : IndexedRows Ident Row := { rows with inserted := rows.inserted ++ [(pid, row)] }

def insert [DecidableEq Key] (key : Row → Option Key) (row : Row) : InsertEnd Ident Row :=
  match key row with
  | none => .inserts (rows.add pid row)
  | some wanted =>
      if rows.inserted.any fun entry => entry.1 ≠ pid ∧ key entry.2 = some wanted then .waits
      else if (rows.committed ++ rows.insertedBy pid).any fun stored => key stored = some wanted then .conflicts
      else .inserts (rows.add pid row)

/-- A transaction that only inserts this row commits. -/
def store [DecidableEq Key] (key : Row → Option Key) (row : Row) : Option (IndexedRows Ident Row) :=
  if (rows.committed ++ rows.inserted.map Prod.snd).any fun stored => (key stored).isSome ∧ key stored = key row then none
  else some { rows with committed := rows.committed ++ [row] }

/-- `UPDATE ... WHERE id = ident`; `none` while another transaction has the row
locked. -/
def update [DecidableEq Ident] (ident : Ident) (change : Row → Row) : Option (IndexedRows Ident Row) :=
  if rows.changed.any fun entry => entry.1 ≠ pid ∧ entry.2.1 = ident then none
  else some { rows with changed := (pid, ident, change) :: rows.changed }

/-- A row after the changes of one transaction. -/
def amended [DecidableEq Ident] (ident : Row → Ident) (changes : List (Ident × (Row → Row))) (row : Row) : Row :=
  changes.foldr (fun change row => if ident row = change.1 then change.2 row else row) row

/-- A transaction that only changes this row commits; `none` while the row is
locked. -/
def amend [DecidableEq Ident] (idOf : Row → Ident) (ident : Ident) (change : Row → Row) :
    Option (IndexedRows Ident Row) :=
  if rows.changed.any fun entry => entry.2.1 = ident then none
  else some { rows with committed := rows.committed.map (amended idOf [(ident, change)]) }

def rollback : IndexedRows Ident Row where
  committed := rows.committed
  inserted := rows.inserted.filter fun entry => entry.1 ≠ pid
  changed := rows.changed.filter fun entry => entry.1 ≠ pid

def commit [DecidableEq Ident] (ident : Row → Ident) : IndexedRows Ident Row :=
  { rows.rollback pid with
    committed := rows.committed.map (amended ident (rows.changedBy pid)) ++ rows.insertedBy pid }

end Statements

section Written

variable {rows after : IndexedRows Ident Row} {pid other : Pid} {row : Row} {ident : Ident} {change : Row → Row}

theorem ofPid_append {Entry : Type} {first second : List (Pid × Entry)} :
    ofPid (first ++ second) pid = ofPid first pid ++ ofPid second pid := by
  simp [ofPid]

theorem ofPid_others {Entry : Type} {entries : List (Pid × Entry)} :
    ofPid (entries.filter fun entry => entry.1 ≠ pid) other = if other = pid then [] else ofPid entries other := by
  unfold ofPid
  split
  · rename_i same
    subst same
    simp
  · rename_i different
    congr 1
    rw [List.filter_filter]
    refine List.filter_congr fun entry _ => ?_
    by_cases mine : entry.1 = other
    · simp [mine, different]
    · simp [mine]

theorem mem_ofPid {Entry : Type} {entries : List (Pid × Entry)} {entry : Entry} :
    entry ∈ ofPid entries pid ↔ (pid, entry) ∈ entries := by
  simp [ofPid]

theorem eq_nil_of_ofPid {Entry : Type} {entries : List (Pid × Entry)} (none : ∀ pid, ofPid entries pid = []) :
    entries = [] := by
  refine List.eq_nil_iff_forall_not_mem.mpr fun entry held => ?_
  have written : entry.2 ∈ ofPid entries entry.1 := mem_ofPid.mpr held
  rw [none] at written
  cases written

@[simp] theorem add_committed : (rows.add pid row).committed = rows.committed := rfl

@[simp] theorem add_changedBy : (rows.add pid row).changedBy other = rows.changedBy other := rfl

theorem add_insertedBy :
    (rows.add pid row).insertedBy other = if other = pid then rows.insertedBy pid ++ [row] else rows.insertedBy other := by
  unfold insertedBy add
  rw [ofPid_append]
  split
  · rename_i same
    subst same
    simp [ofPid]
  · rename_i different
    simp [ofPid, Ne.symm different]

@[simp] theorem rollback_committed : (rows.rollback pid).committed = rows.committed := rfl

theorem rollback_insertedBy :
    (rows.rollback pid).insertedBy other = if other = pid then [] else rows.insertedBy other := ofPid_others

theorem rollback_changedBy :
    (rows.rollback pid).changedBy other = if other = pid then [] else rows.changedBy other := ofPid_others

variable [DecidableEq Ident] {idOf : Row → Ident}

theorem commit_committed :
    (rows.commit pid idOf).committed = rows.committed.map (amended idOf (rows.changedBy pid)) ++ rows.insertedBy pid :=
  rfl

theorem commit_insertedBy :
    (rows.commit pid idOf).insertedBy other = if other = pid then [] else rows.insertedBy other := ofPid_others

theorem commit_changedBy :
    (rows.commit pid idOf).changedBy other = if other = pid then [] else rows.changedBy other := ofPid_others

theorem update_committed (updated : rows.update pid ident change = some after) : after.committed = rows.committed := by
  unfold update at updated
  split at updated
  · cases updated
  · cases updated
    rfl

theorem update_insertedBy (updated : rows.update pid ident change = some after) :
    after.insertedBy other = rows.insertedBy other := by
  unfold update at updated
  split at updated
  · cases updated
  · cases updated
    rfl

theorem update_changedBy (updated : rows.update pid ident change = some after) :
    after.changedBy other = if other = pid then (ident, change) :: rows.changedBy pid else rows.changedBy other := by
  unfold update at updated
  split at updated
  · cases updated
  · cases updated
    unfold changedBy ofPid
    split
    · rename_i same
      subst same
      simp
    · rename_i different
      simp [Ne.symm different]

@[simp] theorem amended_nil : amended idOf ([] : List (Ident × (Row → Row))) = id := rfl

theorem amended_one :
    amended idOf [(ident, change)] row = if idOf row = ident then change row else row := rfl

end Written

section Index

variable {key : Row → Option Key} {rows after : IndexedRows Ident Row} {pid : Pid} {row : Row}

/-- No two rows, stored or about to be, have the same key. -/
def Distinct (key : Row → Option Key) (rows : IndexedRows Ident Row) : Prop :=
  ((rows.committed ++ rows.inserted.map Prod.snd).filterMap key).Nodup

theorem Distinct.committed (distinct : rows.Distinct key) : (rows.committed.filterMap key).Nodup := by
  unfold Distinct at distinct
  rw [List.filterMap_append] at distinct
  exact (List.nodup_append.mp distinct).1

/-- No row has this key. -/
def Free (key : Row → Option Key) (rows : IndexedRows Ident Row) (wanted : Key) : Prop :=
  ∀ stored ∈ rows.committed ++ rows.inserted.map Prod.snd, key stored ≠ some wanted

/-- An insert that fails has found its key taken. -/
theorem not_free_of_conflicts [DecidableEq Key] {wanted : Key} (ended : rows.insert pid key row = .conflicts)
    (keyed : key row = some wanted) : ¬ rows.Free key wanted := by
  intro free
  unfold insert at ended
  rw [keyed] at ended
  dsimp only at ended
  split at ended
  · cases ended
  · split at ended
    · rename_i taken
      obtain ⟨stored, held, same⟩ := List.any_eq_true.mp taken
      refine free stored ?_ (of_decide_eq_true same)
      obtain committed | own := List.mem_append.mp held
      · exact List.mem_append_left _ committed
      · exact List.mem_append_right _ (List.mem_map.mpr ⟨(pid, stored), mem_ofPid.mp own, rfl⟩)
    · cases ended

/-- An insert that ends well has found its key free. -/
theorem insert_cases [DecidableEq Key] (ended : rows.insert pid key row = .inserts after) :
    after = rows.add pid row ∧ ∀ wanted, key row = some wanted → rows.Free key wanted := by
  unfold insert at ended
  cases keyed : key row with
  | none =>
      rw [keyed] at ended
      cases ended
      exact ⟨rfl, fun wanted absurd => by cases absurd⟩
  | some wanted =>
      rw [keyed] at ended
      dsimp only at ended
      split at ended
      · cases ended
      · rename_i unclaimed
        split at ended
        · cases ended
        · rename_i untaken
          cases ended
          refine ⟨rfl, ?_⟩
          rintro _ ⟨⟩
          simp only [List.any_eq_true, decide_eq_true_eq, not_exists, not_and] at unclaimed untaken
          intro stored held same
          cases List.mem_append.mp held with
          | inl committed => exact untaken stored (List.mem_append_left _ committed) same
          | inr inserted =>
              obtain ⟨entry, member, rfl⟩ := List.mem_map.mp inserted
              by_cases mine : entry.1 = pid
              · exact untaken entry.2 (List.mem_append_right _ (mem_ofPid.mpr (mine ▸ member))) same
              · exact unclaimed entry member mine same

theorem Distinct.add (distinct : rows.Distinct key) (free : ∀ wanted, key row = some wanted → rows.Free key wanted) :
    (rows.add pid row).Distinct key := by
  unfold Distinct IndexedRows.add
  simp only [List.map_append, List.map_cons, List.map_nil]
  rw [← List.append_assoc, List.filterMap_append, List.nodup_append]
  refine ⟨distinct, ?_, ?_⟩
  · cases keyed : key row <;> simp [keyed]
  · intro first held second new same
    subst same
    have keyed : key row = some first := by
      cases keyed : key row with
      | none => simp [keyed] at new
      | some wanted => simpa [keyed, eq_comm] using new
    obtain ⟨stored, member, same⟩ := List.mem_filterMap.mp held
    exact free first keyed stored member same

theorem Distinct.insert [DecidableEq Key] (distinct : rows.Distinct key) (ended : rows.insert pid key row = .inserts after) :
    after.Distinct key := by
  obtain ⟨rfl, free⟩ := insert_cases ended
  exact distinct.add free

theorem Distinct.update [DecidableEq Ident] {ident : Ident} {change : Row → Row} (distinct : rows.Distinct key)
    (updated : rows.update pid ident change = some after) : after.Distinct key := by
  unfold IndexedRows.update at updated
  split at updated
  · cases updated
  · cases updated
    exact distinct

theorem Distinct.rollback (distinct : rows.Distinct key) : (rows.rollback pid).Distinct key := by
  refine distinct.sublist (List.Sublist.filterMap key ?_)
  exact (List.filter_sublist.map Prod.snd).append_left _

theorem filterMap_map_keys {change : Row → Row} {stored : List Row} (kept : ∀ row, key (change row) = key row) :
    (stored.map change).filterMap key = stored.filterMap key := by
  rw [List.filterMap_map]
  exact List.filterMap_congr fun row _ => kept row

theorem amend_cases [DecidableEq Ident] {idOf : Row → Ident} {ident : Ident} {change : Row → Row}
    (changed : rows.amend idOf ident change = some after) :
    after = { rows with committed := rows.committed.map (amended idOf [(ident, change)]) } := by
  unfold amend at changed
  split at changed
  · cases changed
  · cases changed
    rfl

theorem Distinct.amend [DecidableEq Ident] {idOf : Row → Ident} {ident : Ident} {change : Row → Row}
    (distinct : rows.Distinct key) (changed : rows.amend idOf ident change = some after)
    (kept : ∀ row, key (change row) = key row) : after.Distinct key := by
  obtain rfl := amend_cases changed
  unfold Distinct at distinct ⊢
  rw [List.filterMap_append] at distinct ⊢
  rw [filterMap_map_keys fun row => ?_]
  · exact distinct
  · rw [amended_one]
    split
    · exact kept row
    · rfl

/-- Where no change touches a key, a commit keeps the keys apart. -/
theorem Distinct.commit [DecidableEq Ident] {idOf : Row → Ident} (distinct : rows.Distinct key)
    (kept : ∀ row, key (amended idOf (rows.changedBy pid) row) = key row) :
    (rows.commit pid idOf).Distinct key := by
  unfold Distinct at distinct ⊢
  have keys : ((rows.commit pid idOf).committed ++ (rows.commit pid idOf).inserted.map Prod.snd).filterMap key =
      (rows.committed ++ (rows.insertedBy pid ++ (rows.rollback pid).inserted.map Prod.snd)).filterMap key := by
    rw [commit_committed, List.append_assoc, List.filterMap_append, filterMap_map_keys kept, ← List.filterMap_append]
    rfl
  rw [keys]
  refine (List.Perm.nodup_iff (List.Perm.filterMap key (List.Perm.append_left _ ?_))).mp distinct
  have split := (List.filter_append_perm (fun entry => decide (entry.1 = pid)) rows.inserted).map Prod.snd
  rw [List.map_append] at split
  simpa [insertedBy, ofPid, IndexedRows.rollback] using split.symm

theorem store_cases [DecidableEq Key] (stored : rows.store key row = some after) :
    after = { rows with committed := rows.committed ++ [row] } ∧
      ∀ wanted, key row = some wanted → rows.Free key wanted := by
  unfold store at stored
  split at stored
  · cases stored
  · rename_i free
    cases stored
    simp only [List.any_eq_true, decide_eq_true_eq, not_exists, not_and] at free
    refine ⟨rfl, fun wanted keyed other held same => ?_⟩
    exact free other held (by rw [same]; rfl) (same.trans keyed.symm)

theorem Distinct.append (distinct : rows.Distinct key) (free : ∀ wanted, key row = some wanted → rows.Free key wanted) :
    IndexedRows.Distinct key { rows with committed := rows.committed ++ [row] } := by
  have moved : (rows.committed ++ [row] ++ rows.inserted.map Prod.snd).Perm
      (row :: (rows.committed ++ rows.inserted.map Prod.snd)) := by simp
  refine ((moved.filterMap key).nodup_iff).mpr ?_
  rw [List.filterMap_cons]
  cases keyed : key row with
  | none => exact distinct
  | some wanted =>
      refine List.nodup_cons.mpr ⟨fun held => ?_, distinct⟩
      obtain ⟨other, member, same⟩ := List.mem_filterMap.mp held
      exact free wanted keyed other member same

/-- Where the values are pairwise different, one value has one entry. -/
theorem eq_of_nodup_filterMap {Entry : Type} {value : Entry → Option Key} {entries : List Entry} {first second : Entry}
    {wanted : Key} (apart : (entries.filterMap value).Nodup) (one : first ∈ entries) (two : second ∈ entries)
    (here : value first = some wanted) (there : value second = some wanted) : first = second := by
  induction entries with
  | nil => cases one
  | cons entry rest ih =>
      rw [List.filterMap_cons] at apart
      rcases List.mem_cons.mp one with rfl | oneLater <;> rcases List.mem_cons.mp two with same | twoLater
      · exact same.symm
      · simp only [here, List.nodup_cons] at apart
        exact absurd (List.mem_filterMap.mpr ⟨_, twoLater, there⟩) apart.1
      · subst same
        simp only [there, List.nodup_cons] at apart
        exact absurd (List.mem_filterMap.mpr ⟨_, oneLater, here⟩) apart.1
      · refine ih ?_ oneLater twoLater
        split at apart
        · exact apart
        · exact (List.nodup_cons.mp apart).2

/-- A row that a transaction is about to store is not stored, nor is it another
transaction's. -/
theorem Distinct.sole (distinct : rows.Distinct key) {other : Pid} {theirs : Row} {wanted : Key}
    (mine : (pid, row) ∈ rows.inserted) (held : (other, theirs) ∈ rows.inserted)
    (first : key row = some wanted) (second : key theirs = some wanted) : (pid, row) = (other, theirs) := by
  unfold Distinct at distinct
  rw [List.filterMap_append, List.filterMap_map] at distinct
  exact eq_of_nodup_filterMap (List.nodup_append.mp distinct).2.1 mine held first second

theorem Distinct.unstored (distinct : rows.Distinct key) {stored : Row} {wanted : Key} (mine : (pid, row) ∈ rows.inserted)
    (keyed : key row = some wanted) (held : stored ∈ rows.committed) : key stored ≠ some wanted := by
  intro same
  unfold Distinct at distinct
  rw [List.filterMap_append] at distinct
  exact (List.nodup_append.mp distinct).2.2 wanted (List.mem_filterMap.mpr ⟨stored, held, same⟩) wanted
    (List.mem_filterMap.mpr ⟨row, List.mem_map.mpr ⟨_, mine, rfl⟩, keyed⟩) rfl

end Index

section Locks

variable {rows after : IndexedRows Ident Row} {pid other : Pid} {ident : Ident} {change : Row → Row}

/-- No row is changed by two open transactions. -/
def Exclusive (rows : IndexedRows Ident Row) : Prop :=
  ∀ first ∈ rows.changed, ∀ second ∈ rows.changed, first.2.1 = second.2.1 → first.1 = second.1

theorem Exclusive.update [DecidableEq Ident] (exclusive : rows.Exclusive)
    (updated : rows.update pid ident change = some after) : after.Exclusive := by
  unfold IndexedRows.update at updated
  split at updated
  · cases updated
  · rename_i unlocked
    cases updated
    simp only [List.any_eq_true, decide_eq_true_eq, not_exists, not_and] at unlocked
    have mine : ∀ entry ∈ rows.changed, entry.2.1 = ident → entry.1 = pid := by
      intro entry held same
      by_contra different
      exact unlocked entry held different same
    intro first one second two same
    rcases List.mem_cons.mp one with rfl | one <;> rcases List.mem_cons.mp two with rfl | two
    · rfl
    · exact (mine second two same.symm).symm
    · exact mine first one same
    · exact exclusive first one second two same

theorem Exclusive.rollback (exclusive : rows.Exclusive) : (rows.rollback pid).Exclusive := fun first one second two =>
  exclusive first (List.mem_of_mem_filter one) second (List.mem_of_mem_filter two)

theorem Exclusive.commit [DecidableEq Ident] {idOf : Row → Ident} (exclusive : rows.Exclusive) :
    (rows.commit pid idOf).Exclusive := exclusive.rollback

theorem Exclusive.sole (exclusive : rows.Exclusive) {first second : Ident × (Row → Row)}
    (mine : first ∈ rows.changedBy pid) (theirs : second ∈ rows.changedBy other) (same : first.1 = second.1) :
    pid = other :=
  exclusive _ (mem_ofPid.mp mine) _ (mem_ofPid.mp theirs) same

end Locks

section Rows

variable {good : Row → Prop} {keeps : Row → Row → Prop} {rows after : IndexedRows Ident Row} {pid : Pid} {row : Row}
  {ident : Ident} {change : Row → Row}

/-- Every row, stored or about to be, is good. -/
structure Sound (good : Row → Prop) (rows : IndexedRows Ident Row) : Prop where
  committed : ∀ row ∈ rows.committed, good row
  inserted : ∀ entry ∈ rows.inserted, good entry.2

/-- How every open change relates a row to the changed one. -/
def Changes (keeps : Row → Row → Prop) (rows : IndexedRows Ident Row) : Prop :=
  ∀ entry ∈ rows.changed, ∀ row, keeps row (entry.2.2 row)

theorem sound_empty : Sound good (empty : IndexedRows Ident Row) where
  committed _ absent := by cases absent
  inserted _ absent := by cases absent

theorem changes_empty : Changes keeps (empty : IndexedRows Ident Row) := fun _ absent => by cases absent

theorem Sound.mono {wider : Row → Prop} (sound : rows.Sound good) (widens : ∀ row, good row → wider row) :
    rows.Sound wider where
  committed row held := widens row (sound.committed row held)
  inserted entry held := widens entry.2 (sound.inserted entry held)

/-- What is known of a stored row is known of every row with its key. -/
theorem Distinct.sound {Key : Type} {key : Row → Option Key} {wanted : Key} (distinct : rows.Distinct key)
    (held : row ∈ rows.committed) (keyed : key row = some wanted) (fine : good row) :
    rows.Sound fun other => key other = some wanted → good other where
  committed other member same := by
    obtain rfl := eq_of_nodup_filterMap distinct.committed held member keyed same
    exact fine
  inserted entry member same := absurd keyed (distinct.unstored member same held)

theorem Sound.insert {Key : Type} [DecidableEq Key] {key : Row → Option Key} (sound : rows.Sound good)
    (ended : rows.insert pid key row = .inserts after) (new : good row) : after.Sound good := by
  obtain ⟨rfl, -⟩ := insert_cases ended
  refine ⟨sound.committed, fun entry held => ?_⟩
  obtain older | newest := List.mem_append.mp held
  · exact sound.inserted entry older
  · obtain rfl := List.mem_singleton.mp newest
    exact new

theorem Changes.insert {Key : Type} [DecidableEq Key] {key : Row → Option Key} (changes : rows.Changes keeps)
    (ended : rows.insert pid key row = .inserts after) : after.Changes keeps := by
  obtain ⟨rfl, -⟩ := insert_cases ended
  exact changes

theorem Sound.store {Key : Type} [DecidableEq Key] {key : Row → Option Key} (sound : rows.Sound good)
    (stored : rows.store key row = some after) (new : good row) : after.Sound good := by
  obtain ⟨rfl, -⟩ := store_cases stored
  refine ⟨fun other held => ?_, sound.inserted⟩
  obtain older | newest := List.mem_append.mp held
  · exact sound.committed other older
  · obtain rfl := List.mem_singleton.mp newest
    exact new

theorem Sound.rollback (sound : rows.Sound good) : (rows.rollback pid).Sound good where
  committed := sound.committed
  inserted entry held := sound.inserted entry (List.mem_of_mem_filter held)

theorem Changes.rollback (changes : rows.Changes keeps) : (rows.rollback pid).Changes keeps := fun entry held =>
  changes entry (List.mem_of_mem_filter held)

variable [DecidableEq Ident] {idOf : Row → Ident}

theorem Sound.update (sound : rows.Sound good) (updated : rows.update pid ident change = some after) :
    after.Sound good := by
  unfold IndexedRows.update at updated
  split at updated
  · cases updated
  · cases updated
    exact ⟨sound.committed, sound.inserted⟩

theorem Changes.update (changes : rows.Changes keeps) (updated : rows.update pid ident change = some after)
    (new : ∀ row, keeps row (change row)) : after.Changes keeps := by
  unfold IndexedRows.update at updated
  split at updated
  · cases updated
  · cases updated
    intro entry held
    obtain rfl | older := List.mem_cons.mp held
    · exact new
    · exact changes entry older

/-- The changes of a transaction leave good what each open change leaves good. -/
theorem Changes.amended (changes : rows.Changes keeps) (good : Row → Prop)
    (preserves : ∀ {row next}, keeps row next → good row → good next) (fine : good row) : good (amended idOf (rows.changedBy pid) row) := by
  have kept : ∀ change ∈ rows.changedBy pid, ∀ row, keeps row (change.2 row) := fun change held =>
    changes (pid, change) (mem_ofPid.mp held)
  clear changes
  unfold IndexedRows.amended
  generalize rows.changedBy pid = entries at kept
  induction entries with
  | nil => exact fine
  | cons change rest ih =>
      have earlier := ih fun change held => kept change (List.mem_cons_of_mem _ held)
      rw [List.foldr_cons]
      split
      · exact preserves (kept change List.mem_cons_self _) earlier
      · exact earlier

theorem Sound.commit (sound : rows.Sound good) (changes : rows.Changes keeps)
    (preserves : ∀ {row next}, keeps row next → good row → good next) : (rows.commit pid idOf).Sound good where
  committed row held := by
    obtain changed | new := List.mem_append.mp held
    · obtain ⟨earlier, older, rfl⟩ := List.mem_map.mp changed
      exact changes.amended good preserves (sound.committed earlier older)
    · exact sound.inserted (pid, row) (mem_ofPid.mp new)
  inserted := sound.rollback.inserted

theorem Sound.amend (sound : rows.Sound good) (changed : rows.amend idOf ident change = some after)
    (preserves : ∀ row, good row → good (change row)) : after.Sound good := by
  obtain rfl := amend_cases changed
  refine ⟨fun row held => ?_, sound.inserted⟩
  obtain ⟨earlier, older, rfl⟩ := List.mem_map.mp held
  have kept := sound.committed earlier older
  rw [amended_one]
  split
  · exact preserves earlier kept
  · exact kept

theorem Changes.amend (changes : rows.Changes keeps) (changed : rows.amend idOf ident change = some after) :
    after.Changes keeps := by
  obtain rfl := amend_cases changed
  exact changes

theorem Changes.commit (changes : rows.Changes keeps) : (rows.commit pid idOf).Changes keeps := changes.rollback

/-- A stored row stays stored, as far as the open changes keep what is known of it. -/
theorem Changes.stored (changes : rows.Changes keeps) (preserves : ∀ {row next}, keeps row next → good row → good next)
    (held : ∃ row ∈ rows.committed, good row) : ∃ row ∈ (rows.commit pid idOf).committed, good row := by
  obtain ⟨row, member, fine⟩ := held
  exact ⟨_, List.mem_append_left _ (List.mem_map_of_mem member), changes.amended good preserves fine⟩

end Rows

section Quiet

variable [DecidableEq Ident] {good : Row → Prop} {rows : IndexedRows Ident Row} {pid : Pid} {idOf : Row → Ident}

theorem commit_quiet (quiet : rows.changed = []) :
    (rows.commit pid idOf).committed = rows.committed ++ rows.insertedBy pid := by
  have none : rows.changedBy pid = [] := by simp [changedBy, ofPid, quiet]
  rw [commit_committed, none, amended_nil, List.map_id]

theorem Sound.commit_quiet (sound : rows.Sound good) (quiet : rows.changed = []) : (rows.commit pid idOf).Sound good := by
  have unchanged : rows.Changes Eq := fun entry held => by
    rw [quiet] at held
    cases held
  exact sound.commit unchanged fun same fine => same ▸ fine

theorem Distinct.commit_quiet {Key : Type} {key : Row → Option Key} (distinct : rows.Distinct key)
    (quiet : rows.changed = []) : (rows.commit pid idOf).Distinct key := by
  have none : rows.changedBy pid = [] := by simp [changedBy, ofPid, quiet]
  exact distinct.commit fun row => by rw [none, amended_nil, id]

end Quiet

end IndexedRows

end IncidentPlatform.Storage

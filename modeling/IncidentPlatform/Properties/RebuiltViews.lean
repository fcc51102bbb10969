import IncidentPlatform.Workers.ReadModelRebuild

namespace IncidentPlatform.Properties

open Models Schemas Storage Workers

/-! # The views that a rebuild writes

The counts of a rebuilt view are those of the table.  A rebuild of one tenant
finds the keys of its users through their rows in a tracked status.
-/

inductive ScopeKind where
  | tenants
  | users
deriving DecidableEq

namespace ScopeKind

def column : ScopeKind → Job → Uuid
  | .tenants => Job.tenantId
  | .users => Job.userId

def keyFor : ScopeKind → String → TrackedStatus → String
  | .tenants => tenantKey
  | .users => userKey

def start : ScopeKind → String
  | .tenants => "jobs:tenant:"
  | .users => "jobs:user:"

end ScopeKind

def scopeStem (kind : ScopeKind) (id : Uuid) : String := kind.start ++ uuidText id ++ ":status:"

def OfScope (kind : ScopeKind) (id : Uuid) (key : String) : Prop :=
  (scopeStem kind id).toList <+: key.toList

instance {kind : ScopeKind} {id : Uuid} {key : String} : Decidable (OfScope kind id key) :=
  inferInstanceAs (Decidable (_ <+: _))

def rowCounts (jobs : List Job) (kind : ScopeKind) (id : Uuid) : List (TrackedStatus × Int) :=
  trackedStatuses.map fun status =>
    (status, (jobs.countP fun job => kind.column job = id ∧ job.status = status.jobStatus : Nat))

def noCounts : List (TrackedStatus × Int) := trackedStatuses.map fun status => (status, 0)

/-- The rows have ids of their own, and each column holds a UUID. -/
structure StoredJobs (jobs : List Job) : Prop where
  distinct : (jobs.map Job.id).Nodup
  ids : ∀ job ∈ jobs, job.id < 2 ^ 128
  scopes : ∀ job ∈ jobs, ∀ kind : ScopeKind, kind.column job < 2 ^ 128

def OneTenantEach (jobs : List Job) : Prop :=
  ∀ job ∈ jobs, ∀ other ∈ jobs, job.userId = other.userId → job.tenantId = other.tenantId

def HasJobIn (jobs : List Job) (tenantId user : Uuid) : Prop :=
  ∃ job ∈ jobs, job.tenantId = tenantId ∧ job.userId = user

/-- After the rebuild the readers return the counts of the rows, for every
scope; or for one tenant and its users, with the keys of others as before. -/
def RebuildExact (jobs : List Job) (redis : Redis) : Option Uuid → Prop
  | none => ∃ after summary, rebuildReadModel jobs redis none = .ok (after, summary) ∧
      (∀ tenant < 2 ^ 128, readGlobalStats after (uuidText tenant) = .ok (rowCounts jobs .tenants tenant)) ∧
      ∀ user < 2 ^ 128, readUserStats after (uuidText user) = .ok (rowCounts jobs .users user)
  | some tenant => ∃ after summary, rebuildReadModel jobs redis (some tenant) = .ok (after, summary) ∧
      readGlobalStats after (uuidText tenant) = .ok (rowCounts jobs .tenants tenant) ∧
      (∀ user, HasJobIn jobs tenant user →
        readUserStats after (uuidText user) = .ok (rowCounts jobs .users user)) ∧
      (∀ other < 2 ^ 128, other ≠ tenant → ∀ key, OfScope .tenants other key → after key = redis key) ∧
      ∀ user < 2 ^ 128, ¬ HasJobIn jobs tenant user → ∀ key, OfScope .users user key → after key = redis key

/-- No row of the user in the tenant has a tracked status. -/
def Untracked (jobs : List Job) (tenantId user : Uuid) : Prop :=
  ∀ job ∈ jobs, job.tenantId = tenantId → job.userId = user → JobStatus.tracked job.status = none

section Keys

variable {kind other : ScopeKind} {id otherId : Nat} {status : TrackedStatus} {key : String}

theorem literal_uuidText {id : Uuid} : Keyspace.Literal (uuidText id) := by
  intro symbol held
  cases uuidText_symbols held with
  | inl hyphen =>
      subst hyphen
      decide
  | inr digit =>
      constructor
      · intro same
        subst same
        exact absurd digit (by decide)
      · intro same
        subst same
        exact absurd digit (by decide)

theorem literal_start : Keyspace.Literal kind.start := by
  cases kind <;> decide

theorem literal_scopeStem {id : Uuid} : Keyspace.Literal (scopeStem kind id) :=
  (literal_start.append literal_uuidText).append (by decide)

theorem keyFor_eq {id : Uuid} :
    kind.keyFor (uuidText id) status = scopeStem kind id ++ status.jobStatus.text := by
  cases kind <;> rfl

theorem ofScope_keyFor {id : Uuid} : OfScope kind id (kind.keyFor (uuidText id) status) := by
  rw [OfScope, keyFor_eq, String.toList_append]
  exact List.prefix_append ..

theorem ofScope_evictedKey {id : Uuid} : OfScope kind id (evictedKey (kind.keyFor (uuidText id) status)) := by
  rw [OfScope, evictedKey, String.toList_append]
  exact ofScope_keyFor.trans (List.prefix_append ..)

theorem OfScope.unique (small : id < 2 ^ 128) (otherSmall : otherId < 2 ^ 128)
    (first : OfScope kind id key) (second : OfScope other otherId key) : kind = other ∧ id = otherId := by
  have kinds : kind = other := by
    obtain ⟨rest, same⟩ := first
    obtain ⟨otherRest, otherSame⟩ := second
    rw [← otherSame] at same
    cases kind <;> cases other <;> simp [scopeStem, ScopeKind.start] at same ⊢
  subst kinds
  have lengths : (scopeStem kind id).toList.length = (scopeStem kind otherId).toList.length := by
    simp only [scopeStem, String.toList_append, List.length_append, length_uuidText]
  have stems : (scopeStem kind id).toList = (scopeStem kind otherId).toList :=
    (List.prefix_of_prefix_length_le first second lengths.le).eq_of_length lengths
  simp only [scopeStem, String.toList_append, List.append_cancel_right_eq, List.append_cancel_left_eq] at stems
  exact ⟨rfl, uuidText_inj small otherSmall (String.toList_inj.mp stems)⟩

theorem evictedKey_ne {statusKey : String} : statusKey ≠ evictedKey statusKey := by
  intro same
  have lengths := congrArg (fun key => key.toList.length) same
  simp [evictedKey] at lengths

theorem keyFor_ne_evictedKey {id : Uuid} {otherStatus : TrackedStatus} :
    kind.keyFor (uuidText id) status ≠ evictedKey (kind.keyFor (uuidText id) otherStatus) := by
  intro same
  rw [keyFor_eq, keyFor_eq, evictedKey, ← String.toList_inj] at same
  cases status <;> cases otherStatus <;>
    simp [TrackedStatus.jobStatus, JobStatus.text] at same

theorem keyFor_inj {id : Uuid} {otherStatus : TrackedStatus}
    (same : kind.keyFor (uuidText id) status = kind.keyFor (uuidText id) otherStatus) : status = otherStatus := by
  rw [keyFor_eq, keyFor_eq, ← String.toList_inj] at same
  cases status <;> cases otherStatus <;>
    simp [TrackedStatus.jobStatus, JobStatus.text] at same ⊢

end Keys

section Reading

variable {redis after : Redis} {key : String} {kind : ScopeKind} {id : Uuid}

theorem memberCount_congr (same : after key = redis key)
    (evictedSame : after (evictedKey key) = redis (evictedKey key)) :
    memberCount after key = memberCount redis key := by
  simp only [memberCount, Keyspace.zcard, Keyspace.scard, Keyspace.get, same, evictedSame]

theorem memberCount_of_absent (absent : redis key = none) (evictedAbsent : redis (evictedKey key) = none) :
    memberCount redis key = .ok 0 := by
  simp only [memberCount, Keyspace.zcard, Keyspace.get, absent, evictedAbsent]
  rfl

/-- Both readers: `_member_count` of each view of a scope. -/
def readStats (redis : Redis) (kind : ScopeKind) (scope : String) :
    Except CommandError (List (TrackedStatus × Int)) :=
  trackedStatuses.mapM fun status => (memberCount redis (kind.keyFor scope status)).map (status, ·)

theorem readGlobalStats_eq {scope : String} : readGlobalStats redis scope = readStats redis .tenants scope := rfl

theorem readUserStats_eq {scope : String} : readUserStats redis scope = readStats redis .users scope := rfl

theorem readStats_of_counts {scope : String} {count : TrackedStatus → Int}
    (counts : ∀ status, memberCount redis (kind.keyFor scope status) = .ok (count status)) :
    readStats redis kind scope = .ok (trackedStatuses.map fun status => (status, count status)) := by
  simp only [readStats, counts]
  rfl

theorem readStats_congr (same : ∀ key, OfScope kind id key → after key = redis key) :
    readStats after kind (uuidText id) = readStats redis kind (uuidText id) := by
  unfold readStats
  refine congrArg (fun read => trackedStatuses.mapM read) (funext fun status => ?_)
  rw [memberCount_congr (same _ ofScope_keyFor) (same _ ofScope_evictedKey)]

end Reading

section Writing

variable {redis : Redis} {summary : RebuildSummary} {kind : ScopeKind}
  {members : Group → List (String × Time)} {counts : List (Group × Nat)}

def MembersFit (members : Group → List (String × Time)) (counts : List (Group × Nat)) : Prop :=
  ∀ counted ∈ counts, (members counted.1).length ≤ counted.2 ∧ ((members counted.1).map Prod.fst).Nodup

def viewKey (kind : ScopeKind) (group : Group) : String := kind.keyFor (uuidText group.1) group.2

def writtenView (redis : Redis) (key : String) (retained : List (String × Time)) (evicted : Nat) : Redis :=
  let membersWritten : Redis :=
    if retained.isEmpty then redis
    else Function.update redis key
      (some { value := .sortedSet (SortedSet.addScores [] retained), expiresIn := some readModelTtl })
  if evicted = 0 then membersWritten
  else membersWritten.setFor (evictedKey key) (.number evicted) readModelTtl

theorem writtenView_of_ne {key other : String} {retained : List (String × Time)} {evicted : Nat}
    (different : other ≠ key) (notEvicted : other ≠ evictedKey key) :
    writtenView redis key retained evicted other = redis other := by
  unfold writtenView Keyspace.setFor
  split <;> split <;> simp [Function.update_of_ne, different, notEvicted]

theorem zcard_writtenView {key : String} {retained : List (String × Time)} {evicted : Nat}
    (free : redis key = none) (distinct : (retained.map Prod.fst).Nodup) :
    (writtenView redis key retained evicted).zcard key = .ok retained.length := by
  have counted : (writtenView redis key retained evicted) key = if retained.isEmpty then none
      else some { value := .sortedSet (SortedSet.addScores [] retained), expiresIn := some readModelTtl } := by
    unfold writtenView Keyspace.setFor
    split <;> split <;> simp [Function.update_of_ne, evictedKey_ne, free]
  rw [Keyspace.zcard, counted]
  cases retained with
  | nil => rfl
  | cons entry rest =>
      have length : (SortedSet.addScores [] (entry :: rest)).length = (entry :: rest).length := by
        rw [SortedSet.length_addScores distinct fun _ _ held => absurd held List.not_mem_nil]
        simp
      simp [length]

theorem get_writtenView {key : String} {retained : List (String × Time)} {evicted : Nat}
    (evictedFree : redis (evictedKey key) = none) :
    (writtenView redis key retained evicted).get (evictedKey key) =
      .ok (if evicted = 0 then none else some (.number evicted)) := by
  have counted : (writtenView redis key retained evicted) (evictedKey key) = if evicted = 0 then none
      else some { value := .string (.number evicted), expiresIn := some readModelTtl } := by
    unfold writtenView Keyspace.setFor
    split <;> split <;> simp [Function.update_of_ne, evictedKey_ne.symm, evictedFree]
  rw [Keyspace.get, counted]
  by_cases none : evicted = 0 <;> simp [none]

theorem memberCount_writtenView {key : String} {retained : List (String × Time)} {total : Nat}
    (free : redis key = none) (evictedFree : redis (evictedKey key) = none)
    (distinct : (retained.map Prod.fst).Nodup) (few : retained.length ≤ total) :
    memberCount (writtenView redis key retained (total - retained.length)) key = .ok total := by
  have evicted : evictedCount (if total - retained.length = 0 then none
      else some (.number (total - retained.length : Nat))) = .ok ((total - retained.length : Nat) : Int) := by
    split
    · rename_i none
      rw [none]
      rfl
    · rfl
  have sum : (retained.length : Int) + (total - retained.length : Nat) = total := by omega
  rw [memberCount, zcard_writtenView free distinct, get_writtenView evictedFree]
  show (do
    let evicted ← evictedCount _
    return (retained.length : Int) + evicted) = _
  rw [evicted]
  exact congrArg Except.ok sum

theorem expire_update {key : String} {value : StoredValue Time} :
    Keyspace.expire (Function.update redis key (some { value := value })) key readModelTtl =
      Function.update redis key (some { value := value, expiresIn := some readModelTtl }) := by
  simp [Keyspace.expire]

theorem writeView_eq {counted : Group × Nat} (free : redis (viewKey kind counted.1) = none) :
    ∃ later, writeView kind.keyFor members (redis, summary) counted = .ok
      (writtenView redis (viewKey kind counted.1) (members counted.1) (counted.2 - (members counted.1).length), later) := by
  obtain ⟨⟨scopeId, status⟩, total⟩ := counted
  have added : redis.zadd (kind.keyFor (uuidText scopeId) status) (members (scopeId, status)) = .ok
      (Function.update redis (kind.keyFor (uuidText scopeId) status)
        (some { value := .sortedSet (SortedSet.addScores [] (members (scopeId, status))) })) := by
    have absent : redis (kind.keyFor (uuidText scopeId) status) = none := free
    simp only [Keyspace.zadd, absent]
  unfold writeView writtenView
  by_cases empty : (members (scopeId, status)).isEmpty = true
  · simp only [empty, if_true]
    exact ⟨_, rfl⟩
  · simp only [empty, added, ← expire_update]
    exact ⟨_, rfl⟩

def IsView (kind : ScopeKind) (group : Group) (key : String) : Prop :=
  key = viewKey kind group ∨ key = evictedKey (viewKey kind group)

theorem IsView.ofScope {group : Group} {key : String} (view : IsView kind group key) :
    OfScope kind group.1 key := by
  cases view with
  | inl same =>
      subst same
      exact ofScope_keyFor
  | inr same =>
      subst same
      exact ofScope_evictedKey

theorem IsView.unique {otherKind : ScopeKind} {group other : Group} {key : String}
    (small : group.1 < 2 ^ 128) (otherSmall : other.1 < 2 ^ 128)
    (first : IsView kind group key) (second : IsView otherKind other key) :
    kind = otherKind ∧ group = other := by
  obtain ⟨kinds, ids⟩ := first.ofScope.unique small otherSmall second.ofScope
  obtain ⟨id, status⟩ := group
  obtain ⟨otherId, otherStatus⟩ := other
  have sameIds : id = otherId := ids
  subst kinds sameIds
  have keys : viewKey kind (id, status) = viewKey kind (id, otherStatus) := by
    cases first with
    | inl key =>
        cases second with
        | inl otherKey => exact key.symm.trans otherKey
        | inr otherKey => exact absurd (key.symm.trans otherKey) keyFor_ne_evictedKey
    | inr key =>
        cases second with
        | inl otherKey => exact absurd (otherKey.symm.trans key) keyFor_ne_evictedKey
        | inr otherKey =>
            have same := key.symm.trans otherKey
            simpa only [evictedKey, ← String.toList_inj, String.toList_append,
              List.append_cancel_right_eq] using same
  exact ⟨rfl, congrArg (Prod.mk id) (keyFor_inj keys)⟩

theorem writeViews (once : (counts.map Prod.fst).Nodup) (small : ∀ counted ∈ counts, counted.1.1 < 2 ^ 128)
    (fit : MembersFit members counts)
    (free : ∀ counted ∈ counts, ∀ key, IsView kind counted.1 key → redis key = none) :
    ∃ after later, counts.foldlM (writeView kind.keyFor members) (redis, summary) = .ok (after, later) ∧
      (∀ counted ∈ counts, memberCount after (viewKey kind counted.1) = .ok counted.2) ∧
      ∀ key, (∀ counted ∈ counts, ¬ IsView kind counted.1 key) → after key = redis key := by
  induction counts generalizing redis summary with
  | nil => exact ⟨redis, summary, rfl, by simp, fun _ _ => rfl⟩
  | cons first rest ih =>
      obtain ⟨few, distinct⟩ := fit first List.mem_cons_self
      rw [List.map_cons, List.nodup_cons] at once
      have firstFree := free first List.mem_cons_self _ (.inl rfl)
      have evictedFree := free first List.mem_cons_self _ (.inr rfl)
      obtain ⟨later, wrote⟩ := @writeView_eq redis summary kind members first firstFree
      have apart : ∀ counted ∈ rest, ∀ key, IsView kind counted.1 key → ¬ IsView kind first.1 key := by
        intro counted held key view firstView
        have same := (view.unique (small _ (List.mem_cons_of_mem _ held)) (small _ List.mem_cons_self) firstView).2
        exact once.1 (same ▸ List.mem_map_of_mem held)
      have untouched : ∀ key, ¬ IsView kind first.1 key → writtenView redis (viewKey kind first.1)
          (members first.1) (first.2 - (members first.1).length) key = redis key :=
        fun key other => writtenView_of_ne (fun same => other (.inl same)) fun same => other (.inr same)
      obtain ⟨after, last, ran, counted, kept⟩ := @ih _ later once.2
        (fun counted held => small _ (List.mem_cons_of_mem _ held))
        (fun counted held => fit _ (List.mem_cons_of_mem _ held))
        fun counted held key view => (untouched key (apart counted held key view)).trans
          (free _ (List.mem_cons_of_mem _ held) key view)
      refine ⟨after, last, ?_, fun group held => ?_, fun key other => ?_⟩
      · rw [List.foldlM_cons, wrote]
        exact ran
      · cases List.mem_cons.mp held with
        | inl same =>
            subst same
            have ownKept : ∀ key, IsView kind group.1 key → after key = _ :=
              fun key view => kept key fun counted held other => apart counted held key other view
            rw [memberCount_congr (ownKept _ (.inl rfl)) (ownKept _ (.inr rfl))]
            exact memberCount_writtenView firstFree evictedFree distinct few
        | inr later => exact counted group later
      · rw [kept key fun counted held => other counted (List.mem_cons_of_mem _ held)]
        exact untouched key (other first List.mem_cons_self)

end Writing

section Queries

variable {jobs : List Job} {kind : ScopeKind} {tenantId : Option Uuid} {group : Group} {job : Job}

theorem tracked_eq_some_iff {status : JobStatus} {tracked : TrackedStatus} :
    JobStatus.tracked status = some tracked ↔ status = tracked.jobStatus := by
  cases status <;> cases tracked <;> decide

theorem groupOf_eq_some_iff : groupOf kind.column job = some group ↔
    kind.column job = group.1 ∧ job.status = group.2.jobStatus := by
  obtain ⟨id, status⟩ := group
  simp only [groupOf, Option.map_eq_some_iff, Prod.mk.injEq, ← tracked_eq_some_iff]
  constructor
  · intro found
    obtain ⟨_, tracked, rfl, rfl⟩ := found
    exact ⟨rfl, tracked⟩
  · intro found
    exact ⟨status, found.2, found.1, rfl⟩

theorem mem_inTenant : job ∈ inTenant jobs tenantId ↔ job ∈ jobs ∧ ∀ tenant ∈ tenantId, job.tenantId = tenant := by
  cases tenantId <;> simp [inTenant]

def groupRows (jobs : List Job) (kind : ScopeKind) (tenantId : Option Uuid) (group : Group) : Nat :=
  (inTenant jobs tenantId).countP fun job => kind.column job = group.1 ∧ job.status = group.2.jobStatus

theorem count_groups :
    ((inTenant jobs tenantId).filterMap (groupOf kind.column)).count group = groupRows jobs kind tenantId group := by
  rw [List.count, List.countP_filterMap, groupRows]
  refine List.countP_congr fun job _ => ?_
  have found := @groupOf_eq_some_iff kind group job
  cases grouped : groupOf kind.column job <;> simp [← found, grouped]

theorem mem_statusCounts {total : Nat} : (group, total) ∈ statusCounts jobs kind.column tenantId ↔
    (∃ job ∈ inTenant jobs tenantId, groupOf kind.column job = some group) ∧
      total = groupRows jobs kind tenantId group := by
  simp only [statusCounts, List.mem_map, List.mem_dedup, List.mem_filterMap, Prod.mk.injEq, count_groups]
  constructor
  · intro counted
    obtain ⟨_, found, rfl, rfl⟩ := counted
    exact ⟨found, rfl⟩
  · intro counted
    exact ⟨group, counted.1, rfl, counted.2.symm⟩

theorem nodup_statusCounts : ((statusCounts jobs kind.column tenantId).map Prod.fst).Nodup := by
  have groups : (statusCounts jobs kind.column tenantId).map Prod.fst =
      ((inTenant jobs tenantId).filterMap (groupOf kind.column)).dedup := by
    simp [statusCounts, Function.comp_def]
  rw [groups]
  exact List.nodup_dedup _

theorem groupRows_of_notMem (absent : ∀ counted ∈ statusCounts jobs kind.column tenantId, counted.1 ≠ group) :
    groupRows jobs kind tenantId group = 0 := by
  refine List.countP_eq_zero.mpr fun job read row => ?_
  have found : groupOf kind.column job = some group := groupOf_eq_some_iff.mpr (by simpa using row)
  exact absent _ (mem_statusCounts.mpr ⟨⟨job, read, found⟩, rfl⟩) rfl

theorem statusCounts_small (stored : StoredJobs jobs) :
    ∀ counted ∈ statusCounts jobs kind.column tenantId, counted.1.1 < 2 ^ 128 := by
  intro counted held
  obtain ⟨⟨job, read, found⟩, _⟩ := mem_statusCounts.mp held
  rw [← (groupOf_eq_some_iff.mp found).1]
  exact stored.scopes job (mem_inTenant.mp read).1 kind

theorem membersFit (stored : StoredJobs jobs) :
    MembersFit (windowedMembers jobs kind.column tenantId) (statusCounts jobs kind.column tenantId) := by
  intro counted held
  obtain ⟨group, total⟩ := counted
  have sorted := List.perm_insertionSort newerFirst
    ((inTenant jobs tenantId).filter fun job => groupOf kind.column job = some group)
  constructor
  · have rows : total = ((inTenant jobs tenantId).filter fun job => groupOf kind.column job = some group).length := by
      rw [(mem_statusCounts.mp held).2, groupRows, List.countP_eq_length_filter]
      refine congrArg List.length (List.filter_congr fun job _ => ?_)
      simp [groupOf_eq_some_iff]
    rw [rows]
    simp only [windowedMembers, List.length_map, List.length_take, sorted.length_eq]
    exact Nat.min_le_right ..
  · have members : (windowedMembers jobs kind.column tenantId group).map Prod.fst =
        ((((inTenant jobs tenantId).filter fun job => groupOf kind.column job = some group).insertionSort
          newerFirst).take readModelWindow |>.map Job.id).map uuidText := by
      simp [windowedMembers, Function.comp_def]
    have distinct : ((((inTenant jobs tenantId).filter fun job => groupOf kind.column job = some group).insertionSort
        newerFirst).take readModelWindow |>.map Job.id).Nodup := by
      refine List.Nodup.sublist ((List.take_sublist ..).map Job.id) ?_
      rw [(sorted.map Job.id).nodup_iff]
      exact stored.distinct.sublist ((List.filter_sublist.trans List.filter_sublist).map Job.id)
    rw [members]
    have read : ∀ id ∈ ((((inTenant jobs tenantId).filter fun job =>
        groupOf kind.column job = some group).insertionSort newerFirst).take readModelWindow).map Job.id,
        id < 2 ^ 128 := by
      intro id held
      obtain ⟨job, taken, rfl⟩ := List.mem_map.mp held
      have among := (List.mem_filter.mp (sorted.subset (List.mem_of_mem_take taken))).1
      exact stored.ids job (mem_inTenant.mp among).1
    exact distinct.map_on fun id held other otherHeld => uuidText_inj (read id held) (read other otherHeld)

end Queries

section Deletion

variable {redis : Redis} {counts : List (Group × Nat)} {kind : ScopeKind} {key : String}

theorem clearViews_all {id : Uuid} (ofScope : OfScope kind id key) : clearViews redis none counts key = none := by
  have starts : kind.start.toList <+: key.toList := by
    refine List.IsPrefix.trans ?_ ofScope
    simp only [scopeStem, String.toList_append, List.append_assoc]
    exact List.prefix_append ..
  have tenants : "jobs:tenant:*" = ScopeKind.tenants.start ++ "*" := by decide
  have users : "jobs:user:*" = ScopeKind.users.start ++ "*" := by decide
  rw [clearViews, tenants, users, Keyspace.scanDelete_stem literal_start, Keyspace.scanDelete_stem literal_start]
  cases kind with
  | tenants => simp [starts]
  | users => simp [starts]

theorem scopePattern (id : Uuid) : kind.start ++ uuidText id ++ ":status:*" = scopeStem kind id ++ "*" := by
  have pattern : ":status:*" = ":status:" ++ "*" := by decide
  simp only [pattern, scopeStem, String.append_assoc]

theorem scanDelete_scope {id : Uuid} : redis.scanDelete (kind.start ++ uuidText id ++ ":status:*") key =
    if OfScope kind id key then none else redis key := by
  rw [scopePattern, Keyspace.scanDelete_stem literal_scopeStem]
  rfl

theorem scanDelete_users : counts.foldl
      (fun redis counted => redis.scanDelete ("jobs:user:" ++ uuidText counted.1.1 ++ ":status:*")) redis key =
    if ∃ counted ∈ counts, OfScope .users counted.1.1 key then none else redis key := by
  induction counts generalizing redis with
  | nil => simp
  | cons first rest ih =>
      have scan : (redis.scanDelete ("jobs:user:" ++ uuidText first.1.1 ++ ":status:*")) key = _ :=
        @scanDelete_scope redis .users key first.1.1
      rw [List.foldl_cons, ih, scan]
      by_cases later : ∃ counted ∈ rest, OfScope .users counted.1.1 key
      · obtain ⟨counted, held, starts⟩ := later
        rw [if_pos ⟨counted, held, starts⟩, if_pos ⟨counted, List.mem_cons_of_mem _ held, starts⟩]
      · rw [if_neg later]
        refine if_congr ?_ rfl rfl
        simp [later]

theorem clearViews_of {tenant : Uuid} : clearViews redis (some tenant) counts key =
    if OfScope .tenants tenant key ∨ ∃ counted ∈ counts, OfScope .users counted.1.1 key then none
    else redis key := by
  have scan : (redis.scanDelete ("jobs:tenant:" ++ uuidText tenant ++ ":status:*")) key = _ :=
    @scanDelete_scope redis .tenants key tenant
  rw [clearViews, scanDelete_users, scan]
  by_cases user : ∃ counted ∈ counts, OfScope .users counted.1.1 key
  · rw [if_pos user, if_pos (.inr user)]
  · rw [if_neg user]
    refine if_congr ?_ rfl rfl
    rw [or_iff_left user]

end Deletion

section Rebuild

variable {jobs : List Job} {redis : Redis} {tenantId : Option Uuid}

theorem cleared_counted {kind : ScopeKind} {counted : Group × Nat} {key : String}
    (held : counted ∈ statusCounts jobs kind.column tenantId) (view : IsView kind counted.1 key) :
    clearViews redis tenantId (statusCounts jobs Job.userId tenantId) key = none := by
  cases tenantId with
  | none => exact clearViews_all view.ofScope
  | some tenant =>
      rw [clearViews_of, if_pos]
      cases kind with
      | users => exact .inr ⟨counted, held, view.ofScope⟩
      | tenants =>
          obtain ⟨⟨job, read, found⟩, _⟩ := mem_statusCounts.mp held
          have own : job.tenantId = tenant := (mem_inTenant.mp read).2 tenant rfl
          have scope : job.tenantId = counted.1.1 := (groupOf_eq_some_iff.mp found).1
          exact .inl ((scope.symm.trans own) ▸ view.ofScope)

/-- What a rebuild leaves: each counted view, and otherwise what was not deleted. -/
structure Rebuilt (jobs : List Job) (redis : Redis) (tenantId : Option Uuid) (after : Redis) : Prop where
  counted : ∀ kind : ScopeKind, ∀ counted ∈ statusCounts jobs kind.column tenantId,
    memberCount after (viewKey kind counted.1) = .ok counted.2
  kept : ∀ key, (∀ kind : ScopeKind, ∀ counted ∈ statusCounts jobs kind.column tenantId,
    ¬ IsView kind counted.1 key) →
    after key = clearViews redis tenantId (statusCounts jobs Job.userId tenantId) key

theorem rebuild_writes (stored : StoredJobs jobs) : ∃ after summary,
    rebuildReadModel jobs redis tenantId = .ok (after, summary) ∧ Rebuilt jobs redis tenantId after := by
  obtain ⟨tenants, tenantSummary, tenantsRan, tenantsCounted, tenantsKept⟩ :=
    @writeViews (clearViews redis tenantId (statusCounts jobs Job.userId tenantId)) {} .tenants _
      (statusCounts jobs (ScopeKind.column .tenants) tenantId) nodup_statusCounts (statusCounts_small stored)
      (membersFit stored) fun counted held key view => cleared_counted held view
  have apart : ∀ tenant ∈ statusCounts jobs (ScopeKind.column .tenants) tenantId,
      ∀ user ∈ statusCounts jobs (ScopeKind.column .users) tenantId,
      ∀ key, IsView .users user.1 key → ¬ IsView .tenants tenant.1 key := by
    intro tenant tenantHeld user userHeld key view other
    have kinds := (view.unique (statusCounts_small stored _ userHeld)
      (statusCounts_small stored _ tenantHeld) other).1
    cases kinds
  obtain ⟨after, summary, ran, usersCounted, usersKept⟩ :=
    @writeViews tenants tenantSummary .users _
      (statusCounts jobs (ScopeKind.column .users) tenantId) nodup_statusCounts (statusCounts_small stored)
      (membersFit stored) fun counted held key view =>
        (tenantsKept key fun tenant tenantHeld => apart tenant tenantHeld counted held key view).trans
          (cleared_counted held view)
  refine ⟨after, summary, ?_, fun kind counted held => ?_, fun key other => ?_⟩
  · unfold rebuildReadModel
    have ranTenants : (statusCounts jobs Job.tenantId tenantId).foldlM (writeView tenantKey
      (windowedMembers jobs Job.tenantId tenantId)) _ = _ := tenantsRan
    simp only [ranTenants]
    exact ran
  · cases kind with
    | users => exact usersCounted counted held
    | tenants =>
        have kept : ∀ key, IsView .tenants counted.1 key → after key = tenants key := fun key view =>
          usersKept key fun user userHeld other => apart counted held user userHeld key other view
        rw [memberCount_congr (kept _ (.inl rfl)) (kept _ (.inr rfl))]
        exact tenantsCounted counted held
  · rw [usersKept key (other .users), tenantsKept key (other .tenants)]

variable {after : Redis} {kind : ScopeKind} {id : Nat}

theorem Rebuilt.cleared (rebuilt : Rebuilt jobs redis tenantId after) (stored : StoredJobs jobs)
    (small : id < 2 ^ 128) (deleted : ∀ key, OfScope kind id key →
      clearViews redis tenantId (statusCounts jobs Job.userId tenantId) key = none) :
    readStats after kind (uuidText id) = .ok (trackedStatuses.map fun status =>
      (status, (groupRows jobs kind tenantId (id, status) : Int))) := by
  refine readStats_of_counts fun status => ?_
  by_cases counted : ∃ counted ∈ statusCounts jobs kind.column tenantId, counted.1 = (id, status)
  · obtain ⟨counted, held, same⟩ := counted
    have count := rebuilt.counted kind counted held
    rw [(mem_statusCounts.mp held).2, same] at count
    exact count
  · have absent : ∀ key, IsView kind (id, status) key → after key = none := by
      intro key view
      rw [rebuilt.kept key fun other otherCounted held otherView => ?_]
      · exact deleted key view.ofScope
      · obtain ⟨kinds, groups⟩ := view.unique small (statusCounts_small stored _ held) otherView
        subst kinds
        exact counted ⟨otherCounted, held, groups.symm⟩
    rw [groupRows_of_notMem fun other held same => counted ⟨other, held, same⟩]
    exact memberCount_of_absent (absent _ (.inl rfl)) (absent _ (.inr rfl))

theorem Rebuilt.uncounted {tenant : Nat} (rebuilt : Rebuilt jobs redis (some tenant) after)
    (stored : StoredJobs jobs) (small : id < 2 ^ 128) (tenantSmall : tenant < 2 ^ 128)
    (absent : ∀ counted ∈ statusCounts jobs kind.column (some tenant), counted.1.1 ≠ id)
    (other : ¬ (kind = .tenants ∧ id = tenant)) {key : String} (ofScope : OfScope kind id key) :
    after key = redis key := by
  have foreign : ∀ kindOf : ScopeKind, ∀ counted ∈ statusCounts jobs kindOf.column (some tenant),
      ¬ OfScope kindOf counted.1.1 key := by
    intro kindOf counted held found
    obtain ⟨kinds, ids⟩ := ofScope.unique small (statusCounts_small stored _ held) found
    subst kinds
    exact absent counted held ids.symm
  rw [rebuilt.kept key fun kindOf counted held view => foreign kindOf counted held view.ofScope, clearViews_of,
    if_neg]
  intro deleted
  cases deleted with
  | inl own => exact other (ofScope.unique small tenantSmall own)
  | inr user =>
      obtain ⟨counted, held, found⟩ := user
      exact foreign .users counted held found

theorem groupRows_whole (whole : ∀ job ∈ jobs, kind.column job = id → ∀ tenant ∈ tenantId, job.tenantId = tenant) :
    (trackedStatuses.map fun status => (status, (groupRows jobs kind tenantId (id, status) : Int))) =
      rowCounts jobs kind id := by
  refine List.map_congr_left fun status _ => ?_
  rw [groupRows, inTenant, List.countP_filter]
  refine congrArg (fun count : Nat => (status, (count : Int))) (List.countP_congr fun job held => ?_)
  have read := whole job held
  cases tenantId with
  | none => simp
  | some tenant =>
      simp only [Option.all_some, Bool.and_eq_true, decide_eq_true_eq, and_iff_left_iff_imp]
      intro row
      exact read row.1 tenant rfl

theorem rowCounts_untracked {tenant user : Nat} (own : OneTenantEach jobs) (has : HasJobIn jobs tenant user)
    (untracked : Untracked jobs tenant user) : rowCounts jobs .users user = noCounts := by
  obtain ⟨first, firstHeld, firstTenant, firstUser⟩ := has
  refine List.map_congr_left fun status _ => ?_
  have none : (jobs.countP fun job => ScopeKind.users.column job = user ∧ job.status = status.jobStatus) = 0 := by
    refine List.countP_eq_zero.mpr fun job held row => ?_
    obtain ⟨ofUser, tracked⟩ := of_decide_eq_true row
    have inSame := own job held first firstHeld (ofUser.trans firstUser.symm)
    have absent := untracked job held (inSame.trans firstTenant) ofUser
    rw [tracked_eq_some_iff.mpr tracked] at absent
    cases absent
  rw [none]
  rfl

theorem Rebuilt.untracked {tenant user : Nat} (rebuilt : Rebuilt jobs redis (some tenant) after)
    (stored : StoredJobs jobs) (tenantSmall : tenant < 2 ^ 128) (has : HasJobIn jobs tenant user)
    (untracked : Untracked jobs tenant user) :
    readUserStats after (uuidText user) = readUserStats redis (uuidText user) := by
  obtain ⟨first, firstHeld, _, firstUser⟩ := has
  have small : user < 2 ^ 128 := firstUser ▸ stored.scopes first firstHeld .users
  have absent : ∀ counted ∈ statusCounts jobs (ScopeKind.column .users) (some tenant), counted.1.1 ≠ user := by
    intro counted held same
    obtain ⟨⟨job, read, found⟩, _⟩ := mem_statusCounts.mp held
    obtain ⟨among, ofTenant⟩ := mem_inTenant.mp read
    obtain ⟨ofUser, tracked⟩ := groupOf_eq_some_iff.mp found
    have none := untracked job among (ofTenant tenant rfl) (ofUser.trans same)
    rw [tracked_eq_some_iff.mpr tracked] at none
    cases none
  exact readStats_congr fun key ofScope =>
    rebuilt.uncounted stored small tenantSmall absent (fun own => nomatch own.1) ofScope

theorem Rebuilt.otherTenant {tenant other : Nat} {key : String} (rebuilt : Rebuilt jobs redis (some tenant) after)
    (stored : StoredJobs jobs) (otherSmall : other < 2 ^ 128) (tenantSmall : tenant < 2 ^ 128)
    (different : other ≠ tenant) (ofScope : OfScope .tenants other key) : after key = redis key := by
  have absent : ∀ counted ∈ statusCounts jobs (ScopeKind.column .tenants) (some tenant), counted.1.1 ≠ other := by
    intro counted held same
    obtain ⟨⟨job, read, found⟩, _⟩ := mem_statusCounts.mp held
    have ofTenant := (mem_inTenant.mp read).2 tenant rfl
    exact different (same.symm.trans ((groupOf_eq_some_iff.mp found).1.symm.trans ofTenant))
  exact rebuilt.uncounted stored otherSmall tenantSmall absent (fun own => different own.2) ofScope

theorem Rebuilt.otherUser {tenant user : Nat} {key : String} (rebuilt : Rebuilt jobs redis (some tenant) after)
    (stored : StoredJobs jobs) (userSmall : user < 2 ^ 128) (tenantSmall : tenant < 2 ^ 128)
    (foreign : ¬ HasJobIn jobs tenant user) (ofScope : OfScope .users user key) : after key = redis key := by
  have absent : ∀ counted ∈ statusCounts jobs (ScopeKind.column .users) (some tenant), counted.1.1 ≠ user := by
    intro counted held same
    obtain ⟨⟨job, read, found⟩, _⟩ := mem_statusCounts.mp held
    obtain ⟨among, ofTenant⟩ := mem_inTenant.mp read
    exact foreign ⟨job, among, ofTenant tenant rfl, (groupOf_eq_some_iff.mp found).1.trans same⟩
  exact rebuilt.uncounted stored userSmall tenantSmall absent (fun own => nomatch own.1) ofScope

theorem deleted_of_tracked {tenant user : Nat} {job : Job} {key : String} (held : job ∈ jobs)
    (ofTenant : job.tenantId = tenant) (ofUser : job.userId = user)
    (tracked : JobStatus.tracked job.status ≠ none) (ofScope : OfScope .users user key) :
    clearViews redis (some tenant) (statusCounts jobs Job.userId (some tenant)) key = none := by
  obtain ⟨status, found⟩ := Option.ne_none_iff_exists'.mp tracked
  have group : groupOf (ScopeKind.column .users) job = some (user, status) :=
    groupOf_eq_some_iff.mpr ⟨ofUser, tracked_eq_some_iff.mp found⟩
  have read : job ∈ inTenant jobs (some tenant) :=
    mem_inTenant.mpr ⟨held, fun other same => ofTenant.trans (Option.some.inj same)⟩
  rw [clearViews_of, if_pos]
  exact .inr ⟨_, mem_statusCounts.mpr ⟨⟨job, read, group⟩, rfl⟩, ofScope⟩

end Rebuild

section Exactness

variable {jobs : List Job} {redis : Redis} {tenantId : Option Uuid}

theorem rebuild_all_exact (stored : StoredJobs jobs) : RebuildExact jobs redis none := by
  obtain ⟨after, summary, ran, rebuilt⟩ := @rebuild_writes jobs redis none stored
  refine ⟨after, summary, ran, fun tenant small => ?_, fun user small => ?_⟩
  · rw [readGlobalStats_eq, rebuilt.cleared stored small fun key ofScope => clearViews_all ofScope]
    exact congrArg Except.ok (groupRows_whole fun _ _ _ _ none => nomatch none)
  · rw [readUserStats_eq, rebuilt.cleared stored small fun key ofScope => clearViews_all ofScope]
    exact congrArg Except.ok (groupRows_whole fun _ _ _ _ none => nomatch none)

/-- A rebuild is exact if and only if each user of its tenant without a row in a
tracked status read no counts before. -/
theorem rebuild_exact_iff (stored : StoredJobs jobs) (small : ∀ tenant ∈ tenantId, tenant < 2 ^ 128)
    (own : tenantId ≠ none → OneTenantEach jobs) :
    RebuildExact jobs redis tenantId ↔
      ∀ tenant ∈ tenantId, ∀ user, HasJobIn jobs tenant user → Untracked jobs tenant user →
        readUserStats redis (uuidText user) = .ok noCounts := by
  cases tenantId with
  | none => exact iff_of_true (rebuild_all_exact stored) fun _ none => nomatch none
  | some tenant =>
      have tenantSmall := small tenant rfl
      have ownEach := own (Option.some_ne_none tenant)
      obtain ⟨after, summary, ran, rebuilt⟩ := @rebuild_writes jobs redis (some tenant) stored
      constructor
      · intro exact other same user has untracked
        cases same
        obtain ⟨_, _, again, _, users, _⟩ := exact
        have result := ran.symm.trans again
        cases result
        rw [← rebuilt.untracked stored tenantSmall has untracked, users user has,
          rowCounts_untracked ownEach has untracked]
      · intro clean
        refine ⟨after, summary, ran, ?_, fun user has => ?_, fun other otherSmall different key ofScope => ?_,
          fun user userSmall foreign key ofScope => ?_⟩
        · rw [readGlobalStats_eq, rebuilt.cleared stored tenantSmall fun key ofScope => ?_]
          · refine congrArg Except.ok (groupRows_whole fun job _ ofTenant other same => ?_)
            exact ofTenant.trans (Option.some.inj same)
          · rw [clearViews_of, if_pos (.inl ofScope)]
        · by_cases untracked : Untracked jobs tenant user
          · rw [rebuilt.untracked stored tenantSmall has untracked, rowCounts_untracked ownEach has untracked]
            exact clean tenant rfl user has untracked
          · obtain ⟨first, firstHeld, firstTenant, firstUser⟩ := has
            have userSmall : user < 2 ^ 128 := firstUser ▸ stored.scopes first firstHeld .users
            simp only [Untracked, not_forall] at untracked
            obtain ⟨job, held, ofTenant, ofUser, tracked⟩ := untracked
            rw [readUserStats_eq, rebuilt.cleared stored userSmall fun key ofScope =>
              deleted_of_tracked held ofTenant ofUser tracked ofScope]
            refine congrArg Except.ok (groupRows_whole fun other otherHeld otherUser _ same => ?_)
            cases same
            exact (ownEach other otherHeld first firstHeld (otherUser.trans firstUser.symm)).trans firstTenant
        · exact rebuilt.otherTenant stored otherSmall tenantSmall different ofScope
        · exact rebuilt.otherUser stored userSmall tenantSmall foreign ofScope

def soleJob (status : JobStatus) : Job :=
  { id := 1, tenantId := 2, userId := 3, type := "csv_upload", status, maxAttempts := 3,
    createdAt := 0, updatedAt := 0 }

theorem storedJobs_sole {status : JobStatus} : StoredJobs [soleJob status] where
  distinct := List.nodup_singleton _
  ids := by simp [soleJob]
  scopes := by
    intro job held kind
    rw [List.mem_singleton.mp held]
    cases kind <;> simp [ScopeKind.column, soleJob]

theorem oneTenantEach_sole {status : JobStatus} : OneTenantEach [soleJob status] := by
  simp [OneTenantEach]

/-- The view still holds the job of the user as dead-lettered. -/
def staleMember : Redis :=
  Function.update (fun _ => none) (userKey (uuidText 3) .deadLetter)
    (some { value := .sortedSet [(uuidText 1, 0)], expiresIn := some readModelTtl })

/-- User 6 has no row in a tracked status, and user 9 is of another tenant. -/
def teamRows : List Job := [soleJob .completed, { soleJob .deadLetter with id := 4 },
  { soleJob .pending with id := 5, userId := 6 }, { soleJob .failed with id := 7, tenantId := 8, userId := 9 }]

theorem storedJobs_team : StoredJobs teamRows where
  distinct := by decide
  ids := by decide
  scopes := by
    intro job held kind
    cases kind with
    | tenants => exact (by decide : ∀ job ∈ teamRows, job.tenantId < 2 ^ 128) job held
    | users => exact (by decide : ∀ job ∈ teamRows, job.userId < 2 ^ 128) job held

theorem oneTenantEach_team : OneTenantEach teamRows := by
  unfold OneTenantEach
  decide

/-- A stale view of user 3 and one of the tenant. -/
def staleViews : Redis :=
  Function.update staleMember (tenantKey (uuidText 2) .running)
    (some { value := .sortedSet [(uuidText 5, 0)], expiresIn := some readModelTtl })

theorem readUserStats_other : readUserStats staleViews (uuidText 6) = .ok noCounts := by
  have absent : readStats (fun _ => none) .users (uuidText 6) = .ok noCounts :=
    readStats_of_counts fun _ => memberCount_of_absent rfl rfl
  rw [readUserStats_eq, ← absent]
  refine readStats_congr fun key ofScope => ?_
  have tenant : key ≠ tenantKey (uuidText 2) .running := by
    rintro rfl
    exact nomatch (ofScope.unique (by decide) (by decide) (@ofScope_keyFor .tenants .running 2)).1
  have user : key ≠ userKey (uuidText 3) .deadLetter := by
    rintro rfl
    exact absurd (ofScope.unique (by decide) (by decide) (@ofScope_keyFor .users .deadLetter 3)).2 (by decide)
  rw [staleViews, Function.update_of_ne tenant, staleMember, Function.update_of_ne user]

theorem rebuild_exact_of_completed : RebuildExact teamRows staleViews (some 2) := by
  refine (rebuild_exact_iff storedJobs_team (by simp) fun _ => oneTenantEach_team).mpr ?_
  intro tenant same user has untracked
  cases same
  have idle : ∀ job ∈ teamRows, job.tenantId = 2 →
      (∀ other ∈ teamRows, other.tenantId = 2 → other.userId = job.userId → JobStatus.tracked other.status = none) →
        job.userId = 6 := by decide
  obtain ⟨job, held, ofTenant, ofUser⟩ := has
  rw [← ofUser, idle job held ofTenant fun other otherHeld otherTenant otherUser =>
    untracked other otherHeld otherTenant (otherUser.trans ofUser)]
  exact readUserStats_other

theorem readUserStats_stale : readUserStats staleMember (uuidText 3) =
    .ok (trackedStatuses.map fun status => (status, if status = .deadLetter then 1 else 0)) := by
  refine @readStats_of_counts staleMember .users (uuidText 3) _ fun status => ?_
  have evicted : staleMember (evictedKey (ScopeKind.users.keyFor (uuidText 3) status)) = none :=
    Function.update_of_ne (@keyFor_ne_evictedKey .users .deadLetter 3 status).symm ..
  by_cases dead : status = .deadLetter
  · subst dead
    have member : staleMember (ScopeKind.users.keyFor (uuidText 3) .deadLetter) =
        some { value := .sortedSet [(uuidText 1, 0)], expiresIn := some readModelTtl } :=
      Function.update_self ..
    simp only [memberCount, Keyspace.zcard, Keyspace.get, member, evicted]
    rfl
  · have absent : staleMember (ScopeKind.users.keyFor (uuidText 3) status) = none :=
      Function.update_of_ne (fun same => dead (@keyFor_inj .users status 3 .deadLetter same)) ..
    rw [if_neg dead]
    exact memberCount_of_absent absent evicted

/-- Its job was replayed and waits, so that no row of the user is tracked. -/
theorem rebuild_inexact_on_replayed : StoredJobs [soleJob .pending] ∧ OneTenantEach [soleJob .pending] ∧
    ¬ RebuildExact [soleJob .pending] staleMember (some 2) := by
  refine ⟨storedJobs_sole, oneTenantEach_sole, fun exact => ?_⟩
  obtain ⟨after, summary, ran, rebuilt⟩ := @rebuild_writes [soleJob .pending] staleMember (some 2) storedJobs_sole
  obtain ⟨_, _, again, _, users, _⟩ := exact
  cases ran.symm.trans again
  have has : HasJobIn [soleJob .pending] 2 3 := ⟨_, List.mem_singleton_self _, rfl, rfl⟩
  have untracked : Untracked [soleJob .pending] 2 3 := by
    intro job held _ _
    rw [List.mem_singleton.mp held]
    rfl
  have counts := users 3 has
  rw [rebuilt.untracked storedJobs_sole (by decide) has untracked, readUserStats_stale,
    rowCounts_untracked oneTenantEach_sole has untracked] at counts
  exact absurd (Except.ok.inj counts) (by decide)

end Exactness

end IncidentPlatform.Properties

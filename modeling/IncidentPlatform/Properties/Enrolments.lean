import IncidentPlatform.Properties.TenantMembers

namespace IncidentPlatform.Properties

open Concurrency Models Services Storage

/-! # How members came to their tenant -/

variable {before after last : AuthStore} {action : AuthStore.Action} {pid : Pid} {was next : AuthRequest} {user : UserRow}
  {tenant : TenantRow} {founded : Option TenantRow} {steps more : List (AuthStore × AuthStore.Action)} {drawn soon : Nat}

theorem members_of_run (ran : AuthStore.machine.Run steps last) : RowsWritten last ∧ TenantRows last ∧ Housed last :=
  @Machine.Segment.keeps _ _ _ _ _ _ (fun state => RowsWritten state ∧ TenantRows state ∧ Housed state) ran
    ⟨rowsWritten_initial, tenantRows_initial, housed_initial⟩ fun _ known stepped =>
      have turn := authTurn stepped
      ⟨known.1.turn turn, known.2.1.turn known.1 turn, known.2.2.turn known.1 known.2.1 turn⟩

section Calls

/-- On a call to found a tenant, when the tenant's id had not been drawn. -/
def FoundedBy (steps : List (AuthStore × AuthStore.Action)) (tenantId : Uuid) (email : String) : Prop :=
  ∃ taken ∈ steps, ∃ pid slug name, taken.2 = .register pid email slug (some name) ∧ taken.1.drawn ≤ tenantId

def EnrolCalled (steps : List (AuthStore × AuthStore.Action)) (claims : AccessClaims) (email : String) : Prop :=
  ∃ taken ∈ steps, ∃ pid, taken.2 = .enrol pid claims email

/-- On a call of this admin, who was one and active when the call was checked. -/
def EnrolledBy (steps : List (AuthStore × AuthStore.Action)) (admin : UserRow) (email : String) : Prop :=
  ∃ claims, EnrolCalled steps claims email ∧ admin.id = claims.sub ∧ admin.isActive = true ∧ admin.role = .admin ∧
    ∃ taken ∈ steps, admin ∈ taken.1.users.committed

/-- How a user came to a tenant other than the default one: an admin has founded
it, everyone else has been enrolled by an admin of it. -/
def Origin (steps : List (AuthStore × AuthStore.Action)) (user : UserRow) : Prop :=
  user.tenantId ≠ defaultTenantId → user.role = .admin ∧ FoundedBy steps user.tenantId user.email ∨
    user.role = .user ∧ ∃ admin, EnrolledBy steps admin user.email ∧ admin.tenantId = user.tenantId

def RequestTraced (steps : List (AuthStore × AuthStore.Action)) (drawn : Nat) : AuthRequest → Prop
  | .registering email _ (some _) | .placing email _ (some _) | .founding email _ _ => FoundedBy steps drawn email
  | .joining (some tenant) _ email => FoundedBy steps tenant.id email
  | .enrolling claims email => EnrolCalled steps claims email
  | .enrollingAs admin email | .enrollable admin email => EnrolledBy steps admin email
  | _ => True

theorem FoundedBy.later {tenantId : Uuid} {email : String} (founded : FoundedBy steps tenantId email)
    (kept : steps ⊆ more) {newer : Uuid} (drawn : tenantId ≤ newer) : FoundedBy more newer email := by
  obtain ⟨taken, member, pid, slug, name, called, fresh⟩ := founded
  exact ⟨taken, kept member, pid, slug, name, called, fresh.trans drawn⟩

theorem EnrolCalled.later {claims : AccessClaims} {email : String} (called : EnrolCalled steps claims email)
    (kept : steps ⊆ more) : EnrolCalled more claims email := by
  obtain ⟨taken, member, call⟩ := called
  exact ⟨taken, kept member, call⟩

theorem EnrolledBy.later {admin : UserRow} {email : String} (enrolled : EnrolledBy steps admin email)
    (kept : steps ⊆ more) : EnrolledBy more admin email := by
  obtain ⟨claims, called, id, active, role, taken, member, held⟩ := enrolled
  exact ⟨claims, called.later kept, id, active, role, taken, kept member, held⟩

theorem Origin.later (origin : Origin steps user) (kept : steps ⊆ more) : Origin more user := fun elsewhere =>
  (origin elsewhere).imp (fun founder => ⟨founder.1, founder.2.later kept le_rfl⟩) fun ⟨role, admin, enrolled, same⟩ =>
    ⟨role, admin, enrolled.later kept, same⟩

theorem RequestTraced.later {request : AuthRequest} (traced : RequestTraced steps drawn request) (kept : steps ⊆ more)
    (grown : drawn ≤ soon) : RequestTraced more soon request := by
  cases request with
  | registering email slug newTenantName =>
      cases newTenantName with
      | none => trivial
      | some name => exact FoundedBy.later traced kept grown
  | placing email slug newTenantName =>
      cases newTenantName with
      | none => trivial
      | some name => exact FoundedBy.later traced kept grown
  | founding email slug name => exact FoundedBy.later traced kept grown
  | joining founded tenantId email =>
      cases founded with
      | none => trivial
      | some tenant => exact FoundedBy.later traced kept le_rfl
  | enrolling claims email => exact EnrolCalled.later traced kept
  | enrollingAs admin email => exact EnrolledBy.later traced kept
  | enrollable admin email => exact EnrolledBy.later traced kept
  | _ => trivial

end Calls

section Origins

/-- Every stored user, and every request, goes back to the call that allowed it. -/
structure CallsTraced (steps : List (AuthStore × AuthStore.Action)) (store : AuthStore) : Prop where
  users : store.users.Sound (Origin steps)
  requests : ∀ pid, RequestTraced steps store.drawn (store.request pid)

theorem traced_initial : CallsTraced [] AuthStore.initial where
  users := IndexedRows.sound_empty
  requests _ := trivial

theorem CallsTraced.later (traced : CallsTraced steps before) (kept : steps ⊆ more) : CallsTraced more before where
  users := traced.users.mono fun _ origin => origin.later kept
  requests pid := (traced.requests pid).later kept le_rfl

theorem RequestTraced.moved (move : AuthMove before action pid was next) (taken : (before, action) ∈ steps)
    (traced : RequestTraced steps before.drawn was) : RequestTraced steps before.drawn next := by
  cases move with
  | registering email slug newTenantName calling =>
      cases newTenantName with
      | none => trivial
      | some name => exact ⟨_, taken, pid, slug, name, calling, le_rfl⟩
  | enrolling claims email calling => exact ⟨_, taken, pid, calling⟩
  | placing email slug newTenantName =>
      cases newTenantName with
      | none => trivial
      | some name => exact traced
  | founding email slug name => exact traced
  | enrollingAs claims email admin held id active role => exact ⟨claims, traced, id, active, role, _, taken, held⟩
  | enrollable admin email => exact traced
  | _ => trivial

theorem RequestTraced.founds (move : TenantMove tenant was next) (new : tenant.id = drawn)
    (traced : RequestTraced steps drawn was) : RequestTraced steps (drawn + 1) next := by
  cases move with
  | founded email =>
      subst new
      exact traced
  | created admin => trivial

theorem RequestTraced.origin (move : UserMove user was next) (housed : RequestHoused before was)
    (traced : RequestTraced steps drawn was) : Origin steps user := by
  intro elsewhere
  cases move with
  | registered founded role =>
      cases founded with
      | none => exact absurd housed elsewhere
      | some tenant =>
          have home : user.tenantId = tenant.id := housed
          exact .inl ⟨role, home ▸ traced⟩
  | enrolled admin role tenant => exact .inr ⟨role, admin, traced, tenant.symm⟩

theorem UserMove.untraced (move : UserMove user was next) : RequestTraced steps drawn next := by
  cases move <;> trivial

theorem CallsTraced.entered (traced : CallsTraced steps before) (next : AuthRequest) (fine : RequestTraced steps soon next)
    (grown : before.drawn ≤ soon) (other : Pid) : RequestTraced steps soon ((before.enter pid next).request other) := by
  rw [request_entered]
  split
  · exact fine
  · exact (traced.requests other).later (List.Subset.refl _) grown

theorem CallsTraced.turn (traced : CallsTraced steps before) (taken : (before, action) ∈ steps) (housed : Housed before)
    (written : RowsWritten before) (turn : AuthTurn before action after) : CallsTraced steps after := by
  cases turn with
  | moved pid next move =>
      have fine : RequestTraced steps before.drawn next := .moved move taken (traced.requests pid)
      exact ⟨traced.users, traced.entered next fine le_rfl⟩
  | refused pid => exact ⟨traced.users.rollback, traced.entered .idle trivial le_rfl⟩
  | tenantInserted pid tenant next tenants move new inserted =>
      exact ⟨traced.users, traced.entered next (.founds move new (traced.requests pid)) (Nat.le_succ _)⟩
  | userInserted pid user next users move inserted =>
      have origin := RequestTraced.origin move (housed.requests pid) (traced.requests pid)
      exact ⟨traced.users.insert inserted origin, traced.entered next move.untraced (Nat.le_succ _)⟩
  | recorded pid founded user entry move => exact ⟨traced.users, traced.entered _ trivial le_rfl⟩
  | committed pid founded user entry was =>
      exact ⟨traced.users.commit_quiet written.quiet.2, traced.entered .idle trivial le_rfl⟩
  | provisioned user users default stored =>
      refine ⟨traced.users.store stored fun elsewhere => absurd default elsewhere, fun pid => ?_⟩
      exact (traced.requests pid).later (List.Subset.refl _) (Nat.le_succ _)
  | tenantSwitched tenantId isActive tenants changed => exact ⟨traced.users, traced.requests⟩
  | userSwitched userId isActive users changed =>
      exact ⟨traced.users.amend changed fun user origin => origin, traced.requests⟩

theorem traced_of_run (ran : AuthStore.machine.Run steps last) : CallsTraced steps last := by
  induction ran with
  | start => exact traced_initial
  | step ran stepped ih =>
      obtain ⟨written, -, housed⟩ := members_of_run ran
      exact (ih.later (List.subset_cons_self _ _)).turn List.mem_cons_self housed written (authTurn stepped)

/-- However registrations, enrolments and tenant creations are interleaved, a
tenant other than the default one has at most one admin, who has founded it, and
every other member has been enrolled on a call by an active admin of that tenant. -/
theorem members_enrolled (ran : AuthStore.machine.Run steps last) :
    (∀ user ∈ last.users.committed, Origin steps user) ∧
      ∀ first ∈ last.users.committed, ∀ second ∈ last.users.committed, first.role = .admin → second.role = .admin →
        first.tenantId ≠ defaultTenantId → first.tenantId = second.tenantId → first = second := by
  refine ⟨(traced_of_run ran).users.committed, fun first one second two here there elsewhere same => ?_⟩
  obtain ⟨-, -, housed⟩ := members_of_run ran
  exact IndexedRows.eq_of_nodup_filterMap housed.admins.committed one two
    (adminKey_eq_some.mpr ⟨here, elsewhere, rfl⟩) (adminKey_eq_some.mpr ⟨there, same ▸ elsewhere, same.symm⟩)

/-- Two founders race for a slug; the one who wins logs in and enrols a member. -/
def racedFor : List AuthStore.Action :=
  [.register 0 "ada@acme.io" "acme" (some "Acme"), .register 1 "eve@acme.io" "acme" (some "Mine"), .select 0, .select 1,
    .select 0, .select 1, .insert 0, .insert 0, .record 0, .commit 0, .insert 1,
    .login 2 "ada@acme.io" true, .select 2, .record 2, .commit 2, .enrol 2 ⟨defaultTenantId + 2, some (defaultTenantId + 1)⟩ "bob@acme.io", .select 2, .select 2, .insert 2, .record 2,
    .commit 2, .register 3 "eve@acme.io" "acme" none, .select 3, .select 3]

theorem members_enrolled_raced : ∃ (last : AuthStore) (bob : UserRow), bob ∈ last.users.committed ∧
    last.users.committed.map UserRow.email = ["ada@acme.io", "bob@acme.io"] ∧ bob.role = .user ∧
      ∃ steps, ∃ admin, EnrolledBy steps admin bob.email ∧ admin.tenantId = bob.tenantId := by
  obtain ⟨steps, last, ran, checked⟩ := @Machine.exists_run _ _ AuthStore.machine racedFor
    (fun _ last => decide (last.users.committed.map UserRow.email = ["ada@acme.io", "bob@acme.io"]) &&
      last.users.committed.any fun user => decide (user.role = .user ∧ user.tenantId ≠ defaultTenantId)) (by decide +kernel)
  obtain ⟨emails, member⟩ := Bool.and_eq_true_iff.mp checked
  obtain ⟨bob, held, plain⟩ := List.any_eq_true.mp member
  obtain ⟨role, elsewhere⟩ := of_decide_eq_true plain
  obtain ⟨admin, -⟩ | ⟨-, enrolled⟩ := (members_enrolled ran).1 bob held elsewhere
  · rw [role] at admin
    cases admin
  · exact ⟨last, bob, held, of_decide_eq_true emails, role, steps, enrolled⟩

end Origins

section Audit

/-- The members of tenants other than the default one, in the order they were stored. -/
def memberKeys (users : List UserRow) : List (Uuid × Option String) :=
  (users.filter fun user => user.tenantId ≠ defaultTenantId).map fun user => (user.tenantId, some (toString user.id))

/-- The users that the rows of registrations and enrolments name, in tenants
other than the default one.  The row of a login is none of them. -/
def auditedMembers (entries : List AuditEntry) : List (Uuid × Option String) :=
  (entries.filter fun entry => (entry.action = registeredAction ∨ entry.action = enrolledAction) ∧
    entry.tenantId ≠ defaultTenantId).map fun entry => (entry.tenantId, entry.resourceId)

theorem memberKeys_append {first second : List UserRow} :
    memberKeys (first ++ second) = memberKeys first ++ memberKeys second := by
  simp [memberKeys]

theorem auditedMembers_append {first second : List AuditEntry} :
    auditedMembers (first ++ second) = auditedMembers first ++ auditedMembers second := by
  simp [auditedMembers]

theorem memberKeys_map {change : UserRow → UserRow} {users : List UserRow}
    (kept : ∀ user, (change user).tenantId = user.tenantId ∧ (change user).id = user.id) :
    memberKeys (users.map change) = memberKeys users := by
  unfold memberKeys
  rw [List.filter_map, List.map_map]
  have same : ((fun user => decide (user.tenantId ≠ defaultTenantId)) ∘ change) =
      fun user => decide (user.tenantId ≠ defaultTenantId) := by
    funext user
    simp [(kept user).1]
  rw [same]
  exact List.map_congr_left fun user _ => by simp [(kept user).1, (kept user).2]

def RequestAudited : AuthRequest → Prop
  | .enrolled admin user => user.tenantId = admin.tenantId
  | .recorded _ user entry => memberKeys user.toList = auditedMembers [entry]
  | _ => True

structure Audited (store : AuthStore) : Prop where
  rows : memberKeys store.users.committed = auditedMembers store.audit.committed
  requests : ∀ pid, RequestAudited (store.request pid)

theorem audited_initial : Audited AuthStore.initial where
  rows := rfl
  requests _ := trivial

theorem AuthMove.audited (move : AuthMove before action pid was next) : RequestAudited next := by
  cases move <;> trivial

theorem TenantMove.audited (move : TenantMove tenant was next) : RequestAudited next := by
  cases move <;> trivial

theorem UserMove.audited (move : UserMove user was next) : RequestAudited next := by
  cases move with
  | registered founded role => trivial
  | enrolled admin role tenant => exact tenant

theorem EntryMove.audited {member : Option UserRow} {entry : AuditEntry} (move : EntryMove was founded member entry)
    (audited : RequestAudited was) : RequestAudited (.recorded founded member entry) := by
  cases move with
  | registered founded user =>
      by_cases default : user.tenantId = defaultTenantId <;>
        simp [RequestAudited, memberKeys, auditedMembers, registeredEntry, registeredAction, default]
  | enrolled admin user =>
      have same : user.tenantId = admin.tenantId := audited
      by_cases default : admin.tenantId = defaultTenantId <;>
        simp [RequestAudited, memberKeys, auditedMembers, enrolledEntry, enrolledAction, same, default]
  | tenantCreated admin tenant =>
      simp [RequestAudited, memberKeys, auditedMembers, tenantCreatedEntry, tenantCreatedAction, registeredAction,
        enrolledAction]
  | loggedIn user =>
      simp [RequestAudited, memberKeys, auditedMembers, loginEntry, loginAction, registeredAction, enrolledAction]

theorem Audited.entered (audited : Audited before) (next : AuthRequest) (fine : RequestAudited next) (other : Pid) :
    RequestAudited ((before.enter pid next).request other) := by
  rw [request_entered]
  split
  · exact fine
  · exact audited.requests other

theorem Audited.turn (audited : Audited before) (written : RowsWritten before) (turn : AuthTurn before action after) :
    Audited after := by
  cases turn with
  | moved pid next move => exact ⟨audited.rows, audited.entered next move.audited⟩
  | refused pid => exact ⟨audited.rows, audited.entered .idle trivial⟩
  | tenantInserted pid tenant next tenants move new inserted =>
      exact ⟨audited.rows, audited.entered next move.audited⟩
  | userInserted pid user next users move inserted =>
      obtain ⟨rfl, -⟩ := IndexedRows.insert_cases inserted
      exact ⟨audited.rows, audited.entered next move.audited⟩
  | recorded pid founded user entry move =>
      exact ⟨audited.rows, audited.entered _ (move.audited (audited.requests pid))⟩
  | committed pid founded user entry was =>
      have due : memberKeys user.toList = auditedMembers [entry] := by
        have recorded := audited.requests pid
        rwa [was] at recorded
      refine ⟨?_, audited.entered .idle trivial⟩
      change memberKeys (before.users.commit pid UserRow.id).committed =
        auditedMembers (before.audit.committed ++ before.audit.pending pid)
      rw [IndexedRows.commit_quiet written.quiet.2, written.users, written.entries, was, memberKeys_append,
        auditedMembers_append, audited.rows]
      exact congrArg _ due
  | provisioned user users default stored =>
      obtain ⟨rfl, -⟩ := IndexedRows.store_cases stored
      refine ⟨?_, audited.requests⟩
      change memberKeys (before.users.committed ++ [user]) = _
      rw [memberKeys_append, audited.rows]
      simp [memberKeys, default]
  | tenantSwitched tenantId isActive tenants changed => exact ⟨audited.rows, audited.requests⟩
  | userSwitched userId isActive users changed =>
      obtain rfl := IndexedRows.amend_cases changed
      refine ⟨Eq.trans ?_ audited.rows, audited.requests⟩
      exact memberKeys_map fun user => by
        rw [IndexedRows.amended_one]
        split <;> exact ⟨rfl, rfl⟩

theorem audited_of_run (ran : AuthStore.machine.Run steps last) : Audited last := by
  induction ran with
  | start => exact audited_initial
  | step ran stepped ih => exact ih.turn (members_of_run ran).1 (authTurn stepped)

/-- The members of all tenants but the default one are, one for one and in the
order of their transactions, the users that the rows of registrations and
enrolments name, and their tenants. -/
theorem members_audited (ran : AuthStore.machine.Run steps last) :
    memberKeys last.users.committed = auditedMembers last.audit.committed := (audited_of_run ran).rows

theorem members_audited_raced : ∃ last : AuthStore, (memberKeys last.users.committed).length = 2 ∧
    last.audit.committed.map AuditEntry.action = [registeredAction, loginAction, enrolledAction] ∧
    memberKeys last.users.committed = auditedMembers last.audit.committed := by
  obtain ⟨steps, last, ran, checked⟩ := @Machine.exists_run _ _ AuthStore.machine racedFor
    (fun _ last => decide ((memberKeys last.users.committed).length = 2) &&
      decide (last.audit.committed.map AuditEntry.action = [registeredAction, loginAction, enrolledAction]))
    (by decide +kernel)
  obtain ⟨two, rows⟩ := Bool.and_eq_true_iff.mp checked
  exact ⟨last, of_decide_eq_true two, of_decide_eq_true rows, members_audited ran⟩

end Audit

end IncidentPlatform.Properties

import IncidentPlatform.Services.Auth

namespace IncidentPlatform.Properties

open Concurrency Models Services Storage

/-! # The steps of registration, enrolment and login

What one step does to the tables and to the request that takes it.
-/

variable {before after store : AuthStore} {action : AuthStore.Action} {pid : Pid} {claims : AccessClaims}

section Checks

theorem currentUser_ok {read : Option UserRow} {user : UserRow} (checked : currentUser claims read = .ok user) :
    read = some user ∧ user.isActive = true ∧ ∀ tenantId, claims.tenantId = some tenantId → tenantId = user.tenantId := by
  unfold currentUser at checked
  split at checked
  · cases checked
  · rename_i held
    split at checked
    · cases checked
    · rename_i active
      split at checked
      · cases checked
      · rename_i same
        cases checked
        refine ⟨rfl, by simpa using active, fun tenantId claimed => ?_⟩
        rw [claimed] at same
        simpa using same

theorem requireAdmin_ok {read : Option UserRow} {user : UserRow} (checked : requireAdmin claims read = .ok user) :
    read = some user ∧ user.isActive = true ∧ user.role = .admin := by
  unfold requireAdmin at checked
  split at checked
  · cases checked
  · rename_i held current
    obtain ⟨rfl, active, -⟩ := currentUser_ok current
    split at checked
    · rename_i admin
      cases checked
      exact ⟨rfl, active, admin⟩
    · cases checked

theorem placement_founds {slug name : String} {newTenantName : Option String} {read : Option TenantRow}
    (placed : placement slug newTenantName read = .ok (.founds name)) : read = none ∧ newTenantName = some name := by
  unfold placement at placed
  split at placed
  · split at placed
    · rename_i named
      cases placed
      exact ⟨rfl, (Option.filter_eq_some_iff.mp named).1⟩
    · cases placed
  · split at placed
    · cases placed
    · split at placed <;> cases placed

theorem placement_joins {slug : String} {newTenantName : Option String} {read : Option TenantRow} {tenantId : Uuid}
    (placed : placement slug newTenantName read = .ok (.joins tenantId)) :
    ∃ tenant, read = some tenant ∧ tenant.id = tenantId ∧ slug = defaultTenantSlug := by
  unfold placement at placed
  split at placed
  · split at placed <;> cases placed
  · rename_i tenant
    split at placed
    · cases placed
    · rename_i default
      split at placed
      · cases placed
        exact ⟨tenant, rfl, rfl, Decidable.not_not.mp default⟩
      · cases placed

theorem tenantBySlug_found {slug : String} {tenant : TenantRow} (found : store.tenantBySlug slug = some tenant) :
    tenant ∈ store.tenants.committed ∧ tenant.slug = slug :=
  ⟨List.mem_of_find?_eq_some found, by simpa using List.find?_some found⟩

theorem user_found {id : Uuid} {user : UserRow} (found : store.user id = some user) :
    user ∈ store.users.committed ∧ user.id = id :=
  ⟨List.mem_of_find?_eq_some found, by simpa using List.find?_some found⟩

end Checks

section Steps

inductive AuthMove (store : AuthStore) (action : AuthStore.Action) (pid : Pid) : AuthRequest → AuthRequest → Prop where
  | registering (email slug : String) (newTenantName : Option String)
      (calling : action = .register pid email slug newTenantName) :
      AuthMove store action pid .idle (.registering email slug newTenantName)
  | enrolling (claims : AccessClaims) (email : String) (calling : action = .enrol pid claims email) :
      AuthMove store action pid .idle (.enrolling claims email)
  | creating (claims : AccessClaims) (slug name : String) :
      AuthMove store action pid .idle (.creating claims slug name)
  | placing (email slug : String) (newTenantName : Option String) :
      AuthMove store action pid (.registering email slug newTenantName) (.placing email slug newTenantName)
  | founding (email slug name : String) :
      AuthMove store action pid (.placing email slug (some name)) (.founding email slug name)
  | joining (email slug : String) (newTenantName : Option String) (tenant : TenantRow)
      (held : tenant ∈ store.tenants.committed) (default : tenant.slug = defaultTenantSlug) :
      AuthMove store action pid (.placing email slug newTenantName) (.joining none tenant.id email)
  | enrollingAs (claims : AccessClaims) (email : String) (admin : UserRow) (held : admin ∈ store.users.committed)
      (id : admin.id = claims.sub) (active : admin.isActive = true) (role : admin.role = .admin) :
      AuthMove store action pid (.enrolling claims email) (.enrollingAs admin email)
  | enrollable (admin : UserRow) (email : String) :
      AuthMove store action pid (.enrollingAs admin email) (.enrollable admin email)
  | creatingAs (claims : AccessClaims) (slug name : String) (admin : UserRow) :
      AuthMove store action pid (.creating claims slug name) (.creatingAs admin slug name)
  | creatable (admin : UserRow) (slug name : String) :
      AuthMove store action pid (.creatingAs admin slug name) (.creatable admin slug name)
  | loggingIn (email : String) (correct : Bool) : AuthMove store action pid .idle (.loggingIn email correct)
  | loggedIn (email : String) (correct : Bool) (user : UserRow) :
      AuthMove store action pid (.loggingIn email correct) (.loggedIn user)

/-- The INSERT of a tenant, and what its request does with the row. -/
inductive TenantMove (tenant : TenantRow) : AuthRequest → AuthRequest → Prop where
  | founded (email : String) :
      TenantMove tenant (.founding email tenant.slug tenant.name) (.joining (some tenant) tenant.id email)
  | created (admin : UserRow) :
      TenantMove tenant (.creatable admin tenant.slug tenant.name) (.tenantCreated admin tenant)

inductive UserMove (user : UserRow) : AuthRequest → AuthRequest → Prop where
  | registered (founded : Option TenantRow) (role : user.role = joiningRole founded) :
      UserMove user (.joining founded user.tenantId user.email) (.registered founded user)
  | enrolled (admin : UserRow) (role : user.role = .user) (tenant : user.tenantId = admin.tenantId) :
      UserMove user (.enrollable admin user.email) (.enrolled admin user)

/-- The audit row that is due. -/
inductive EntryMove : AuthRequest → Option TenantRow → Option UserRow → AuditEntry → Prop where
  | registered (founded : Option TenantRow) (user : UserRow) :
      EntryMove (.registered founded user) founded (some user) (registeredEntry user)
  | enrolled (admin user : UserRow) : EntryMove (.enrolled admin user) none (some user) (enrolledEntry admin user)
  | tenantCreated (admin : UserRow) (tenant : TenantRow) :
      EntryMove (.tenantCreated admin tenant) (some tenant) none (tenantCreatedEntry admin tenant)
  | loggedIn (user : UserRow) : EntryMove (.loggedIn user) none none (loginEntry user)

inductive AuthTurn (before : AuthStore) (action : AuthStore.Action) : AuthStore → Prop where
  | moved (pid : Pid) (next : AuthRequest) (move : AuthMove before action pid (before.request pid) next) :
      AuthTurn before action (before.enter pid next)
  | refused (pid : Pid) : AuthTurn before action (before.refuse pid)
  | tenantInserted (pid : Pid) (tenant : TenantRow) (next : AuthRequest) (tenants : IndexedRows Uuid TenantRow)
      (move : TenantMove tenant (before.request pid) next) (new : tenant.id = before.drawn)
      (inserted : before.tenants.insert pid TenantRow.index tenant = .inserts tenants) :
      AuthTurn before action { before.enter pid next with
        tenants
        drawn := before.drawn + 1 }
  | userInserted (pid : Pid) (user : UserRow) (next : AuthRequest) (users : IndexedRows Uuid UserRow)
      (move : UserMove user (before.request pid) next)
      (inserted : before.users.insert pid UserRow.index user = .inserts users) :
      AuthTurn before action { before.enter pid next with
        users
        drawn := before.drawn + 1 }
  | recorded (pid : Pid) (founded : Option TenantRow) (user : Option UserRow) (entry : AuditEntry)
      (move : EntryMove (before.request pid) founded user entry) :
      AuthTurn before action (before.log pid founded user entry)
  | committed (pid : Pid) (founded : Option TenantRow) (user : Option UserRow) (entry : AuditEntry)
      (was : before.request pid = .recorded founded user entry) :
      AuthTurn before action { before.enter pid .idle with
        tenants := before.tenants.commit pid TenantRow.id
        users := before.users.commit pid UserRow.id
        audit := before.audit.commit pid }
  | provisioned (user : UserRow) (users : IndexedRows Uuid UserRow) (default : user.tenantId = defaultTenantId)
      (stored : before.users.store UserRow.index user = some users) :
      AuthTurn before action { before with
        users
        drawn := before.drawn + 1 }
  | tenantSwitched (tenantId : Uuid) (isActive : Bool) (tenants : IndexedRows Uuid TenantRow)
      (changed : before.tenants.amend TenantRow.id tenantId (TenantRow.setActive isActive) = some tenants) :
      AuthTurn before action { before with tenants }
  | userSwitched (userId : Uuid) (isActive : Bool) (users : IndexedRows Uuid UserRow)
      (changed : before.users.amend UserRow.id userId (UserRow.setActive isActive) = some users) :
      AuthTurn before action { before with users }

theorem AuthTurn.proceeds {Result : Type} {result : Except AuthError Result} {stage : Result → AuthRequest}
    (moves : ∀ value, result = .ok value → AuthMove before action pid (before.request pid) (stage value)) :
    AuthTurn before action (before.proceed pid result stage) := by
  unfold AuthStore.proceed
  cases result with
  | ok value => exact .moved pid _ (moves value rfl)
  | error error => exact .refused pid

theorem begun_authTurn {request : AuthRequest} (begun : before.beginCall pid request = some after)
    (move : AuthMove before action pid .idle request) : AuthTurn before action after := by
  unfold AuthStore.beginCall at begun
  split at begun
  · rename_i idle
    cases begun
    exact .moved pid _ (idle ▸ move)
  · cases begun

theorem selected_authTurn (selected : before.select pid = some after) : AuthTurn before action after := by
  unfold AuthStore.select at selected
  split at selected
  · rename_i email slug newTenantName was
    cases selected
    exact .proceeds fun _ _ => was ▸ .placing email slug newTenantName
  · rename_i email slug newTenantName was
    cases selected
    refine .proceeds fun place placed => was ▸ ?_
    cases place with
    | founds name =>
        obtain ⟨-, rfl⟩ := placement_founds placed
        exact .founding email slug name
    | joins tenantId =>
        obtain ⟨tenant, read, rfl, default⟩ := placement_joins placed
        obtain ⟨held, same⟩ := tenantBySlug_found read
        exact .joining email slug newTenantName tenant held (same.trans default)
  · rename_i claims email was
    cases selected
    refine .proceeds fun admin checked => was ▸ ?_
    obtain ⟨read, active, role⟩ := requireAdmin_ok checked
    obtain ⟨held, id⟩ := user_found read
    exact .enrollingAs claims email admin held id active role
  · rename_i admin email was
    cases selected
    exact .proceeds fun _ _ => was ▸ .enrollable admin email
  · rename_i claims slug name was
    cases selected
    exact .proceeds fun admin _ => was ▸ .creatingAs claims slug name admin
  · rename_i admin slug name was
    cases selected
    exact .proceeds fun _ _ => was ▸ .creatable admin slug name
  · rename_i email correct was
    cases selected
    exact .proceeds fun user _ => was ▸ .loggedIn email correct user
  · cases selected

theorem tenantInserted_turn {tenant : TenantRow} {next : AuthRequest} (new : tenant.id = before.drawn)
    (inserted : before.insertTenant pid tenant next = some after) (move : TenantMove tenant (before.request pid) next) :
    AuthTurn before action after := by
  unfold AuthStore.insertTenant at inserted
  split at inserted
  · cases inserted
  · cases inserted
    exact .refused pid
  · rename_i tenants ended
    cases inserted
    exact .tenantInserted pid tenant next tenants move new ended

theorem userInserted_turn {user : UserRow} {next : AuthRequest}
    (inserted : before.insertUser pid user next = some after) (move : UserMove user (before.request pid) next) :
    AuthTurn before action after := by
  unfold AuthStore.insertUser at inserted
  split at inserted
  · cases inserted
  · cases inserted
    exact .refused pid
  · rename_i users ended
    cases inserted
    exact .userInserted pid user next users move ended

theorem inserted_authTurn (inserted : before.insert pid = some after) : AuthTurn before action after := by
  unfold AuthStore.insert at inserted
  split at inserted
  · rename_i email slug name was
    exact tenantInserted_turn (by rfl) inserted (was ▸ TenantMove.founded email)
  · rename_i founded tenantId email was
    exact userInserted_turn inserted (was ▸ UserMove.registered founded rfl)
  · rename_i admin email was
    exact userInserted_turn inserted (was ▸ UserMove.enrolled admin rfl rfl)
  · rename_i admin slug name was
    exact tenantInserted_turn (by rfl) inserted (was ▸ TenantMove.created admin)
  · cases inserted

theorem recorded_authTurn (recorded : before.record pid = some after) : AuthTurn before action after := by
  unfold AuthStore.record at recorded
  split at recorded
  · rename_i founded user was
    cases recorded
    exact .recorded pid founded (some user) _ (was ▸ .registered founded user)
  · rename_i admin user was
    cases recorded
    exact .recorded pid none (some user) _ (was ▸ .enrolled admin user)
  · rename_i admin tenant was
    cases recorded
    exact .recorded pid (some tenant) none _ (was ▸ .tenantCreated admin tenant)
  · rename_i user was
    cases recorded
    exact .recorded pid none none _ (was ▸ .loggedIn user)
  · cases recorded

theorem committed_authTurn (committed : before.commit pid = some after) : AuthTurn before action after := by
  unfold AuthStore.commit at committed
  split at committed
  · rename_i founded user entry was
    cases committed
    exact .committed pid founded user entry was
  · cases committed

theorem authTurn (stepped : AuthStore.machine.step action before = some after) : AuthTurn before action after := by
  cases action with
  | register pid email slug newTenantName => exact begun_authTurn stepped (.registering email slug newTenantName rfl)
  | enrol pid claims email => exact begun_authTurn stepped (.enrolling claims email rfl)
  | createTenant pid claims slug name => exact begun_authTurn stepped (.creating claims slug name)
  | login pid email correct => exact begun_authTurn stepped (.loggingIn email correct)
  | select pid => exact selected_authTurn stepped
  | insert pid => exact inserted_authTurn stepped
  | record pid => exact recorded_authTurn stepped
  | commit pid => exact committed_authTurn stepped
  | abort pid =>
      cases stepped
      exact .refused pid
  | provision email role isPlatformAdmin =>
      obtain ⟨users, stored, rfl⟩ := Option.map_eq_some_iff.mp stepped
      exact .provisioned _ users rfl stored
  | setTenantActive tenantId isActive =>
      obtain ⟨tenants, changed, rfl⟩ := Option.map_eq_some_iff.mp stepped
      exact .tenantSwitched tenantId isActive tenants changed
  | setUserActive userId isActive =>
      obtain ⟨users, changed, rfl⟩ := Option.map_eq_some_iff.mp stepped
      exact .userSwitched userId isActive users changed

end Steps

end IncidentPlatform.Properties

import IncidentPlatform.Concurrency.Machine
import IncidentPlatform.Services.AlertEpisodes

namespace IncidentPlatform.Services

open Concurrency Models Storage

/-! # Tenants and their members

`AuthService.register`, `add_tenant_member` and `login`, and the endpoint that
creates a tenant, one SQL statement at a time.  Passwords and tokens are left
out: a login says whether its password is the account's, and a call that needs a
caller names the claims of the access token.
-/

inductive UserRole where
  | user
  | support
  | admin
deriving DecidableEq

def defaultTenantSlug : String := "default"

structure TenantRow where
  id : Uuid
  slug : String
  name : String
  isActive : Bool
deriving DecidableEq

structure UserRow where
  id : Uuid
  tenantId : Uuid
  email : String
  role : UserRole
  isActive : Bool := true
  isPlatformAdmin : Bool := false
deriving DecidableEq

def TenantRow.index (tenant : TenantRow) : Option String := some tenant.slug

def TenantRow.setActive (isActive : Bool) (tenant : TenantRow) : TenantRow := { tenant with isActive }

def UserRow.index (user : UserRow) : Option String := some user.email

def UserRow.setActive (isActive : Bool) (user : UserRow) : UserRow := { user with isActive }

/-- What the migration stores. -/
def defaultTenant : TenantRow where
  id := defaultTenantId
  slug := defaultTenantSlug
  name := "Default Tenant"
  isActive := true

inductive AuthError where
  | emailTaken (email : String)
  | slugTaken (slug : String)
  | invitationRequired (slug : String)
  | tenantMissing (slug : String)
  | userNotFound
  | invalidCredentials
  | accountDisabled
  | tenantMismatch
  | roleRequired (role : UserRole)
  | platformAdminRequired
deriving DecidableEq

def registeredAction : String := "user.registered"
def enrolledAction : String := "user.enrolled"
def loginAction : String := "user.login"
def tenantCreatedAction : String := "tenant.created"

def registeredEntry (user : UserRow) : AuditEntry where
  action := registeredAction
  tenantId := user.tenantId
  userId := some user.id
  principalId := some user.id
  resourceType := some "user"
  resourceId := some (toString user.id)

def enrolledEntry (admin user : UserRow) : AuditEntry where
  action := enrolledAction
  tenantId := admin.tenantId
  userId := some admin.id
  principalId := some admin.id
  resourceType := some "user"
  resourceId := some (toString user.id)
  extraData := .object [("email", .string user.email), ("role", .string "user")]

def loginEntry (user : UserRow) : AuditEntry where
  action := loginAction
  tenantId := user.tenantId
  userId := some user.id
  principalId := some user.id
  resourceType := some "user"
  resourceId := some (toString user.id)

def tenantCreatedEntry (admin : UserRow) (tenant : TenantRow) : AuditEntry where
  action := tenantCreatedAction
  tenantId := tenant.id
  userId := some admin.id
  principalId := some admin.id
  resourceType := some "tenant"
  resourceId := some (toString tenant.id)
  extraData := .object [("slug", .string tenant.slug), ("name", .string tenant.name)]

/-- The claims of an access token that has been decoded. -/
structure AccessClaims where
  sub : Uuid
  tenantId : Option Uuid
deriving DecidableEq

/-- The checks of `get_current_user`. -/
def currentUser (claims : AccessClaims) : Option UserRow → Except AuthError UserRow
  | none => .error .userNotFound
  | some user =>
      if ¬ user.isActive then .error .accountDisabled
      else if claims.tenantId.any (· ≠ user.tenantId) then .error .tenantMismatch
      else .ok user

/-- `require_role(UserRole.ADMIN)`. -/
def requireAdmin (claims : AccessClaims) (read : Option UserRow) : Except AuthError UserRow :=
  match currentUser claims read with
  | .error error => .error error
  | .ok user => if user.role = .admin then .ok user else .error (.roleRequired user.role)

def requirePlatformAdmin (claims : AccessClaims) (read : Option UserRow) : Except AuthError UserRow :=
  match currentUser claims read with
  | .error error => .error error
  | .ok user => if user.isPlatformAdmin then .ok user else .error .platformAdminRequired

/-- The checks of `login`, on the account that the e-mail names. -/
def checkLogin (correct : Bool) : Option UserRow → Except AuthError UserRow
  | none => .error .invalidCredentials
  | some user =>
      if ¬ correct then .error .invalidCredentials
      else if ¬ user.isActive then .error .accountDisabled
      else .ok user

/-- Where a registrant goes. -/
inductive Placement where
  | founds (name : String)
  | joins (tenantId : Uuid)
deriving DecidableEq

/-- `register`, from the tenant that the slug names. -/
def placement (slug : String) (newTenantName : Option String) : Option TenantRow → Except AuthError Placement
  | none =>
      match newTenantName.filter (· ≠ "") with
      | some name => .ok (.founds name)
      | none => .error (.tenantMissing slug)
  | some tenant =>
      if slug ≠ defaultTenantSlug then .error (.invitationRequired slug)
      else if tenant.isActive then .ok (.joins tenant.id)
      else .error (.tenantMissing slug)

inductive AuthRequest where
  | idle
  | registering (email slug : String) (newTenantName : Option String)
  | placing (email slug : String) (newTenantName : Option String)
  | founding (email slug name : String)
  /-- The user is inserted next, into a tenant just founded or into one that was there. -/
  | joining (founded : Option TenantRow) (tenantId : Uuid) (email : String)
  | registered (founded : Option TenantRow) (user : UserRow)
  | enrolling (claims : AccessClaims) (email : String)
  | enrollingAs (admin : UserRow) (email : String)
  | enrollable (admin : UserRow) (email : String)
  | enrolled (admin user : UserRow)
  | creating (claims : AccessClaims) (slug name : String)
  | creatingAs (admin : UserRow) (slug name : String)
  | creatable (admin : UserRow) (slug name : String)
  | tenantCreated (admin : UserRow) (tenant : TenantRow)
  | loggingIn (email : String) (correct : Bool)
  | loggedIn (user : UserRow)
  | recorded (founded : Option TenantRow) (user : Option UserRow) (entry : AuditEntry)

/-- The role of a registrant. -/
def joiningRole (founded : Option TenantRow) : UserRole := if founded.isSome then .admin else .user

structure AuthStore where
  tenants : IndexedRows Uuid TenantRow
  users : IndexedRows Uuid UserRow
  audit : Journal AuditEntry
  request : Pid → AuthRequest
  /-- The next row id. -/
  drawn : Nat

namespace AuthStore

/-- After the migrations: the default tenant, and nobody. -/
def initial : AuthStore where
  tenants := { IndexedRows.empty with committed := [defaultTenant] }
  users := .empty
  audit := .empty
  request := fun _ => .idle
  drawn := defaultTenantId + 1

inductive Action where
  | register (pid : Pid) (email slug : String) (newTenantName : Option String)
  | enrol (pid : Pid) (claims : AccessClaims) (email : String)
  | createTenant (pid : Pid) (claims : AccessClaims) (slug name : String)
  | login (pid : Pid) (email : String) (correct : Bool)
  | select (pid : Pid)
  | insert (pid : Pid)
  | record (pid : Pid)
  | commit (pid : Pid)
  | abort (pid : Pid)
  /-- A seed script stores a user of the default tenant. -/
  | provision (email : String) (role : UserRole) (isPlatformAdmin : Bool)
  /-- An operator switches a tenant, or a user, by SQL. -/
  | setTenantActive (tenantId : Uuid) (isActive : Bool)
  | setUserActive (userId : Uuid) (isActive : Bool)
deriving DecidableEq

variable (store : AuthStore) (pid : Pid)

def enter (request : AuthRequest) : AuthStore :=
  { store with request := Function.update store.request pid request }

/-- A refusal ends the transaction. -/
def refuse : AuthStore :=
  { store.enter pid .idle with
    tenants := store.tenants.rollback pid
    users := store.users.rollback pid
    audit := store.audit.rollback pid }

/-- The request goes on with a result, or is refused. -/
def proceed {Result : Type} (result : Except AuthError Result) (next : Result → AuthRequest) : AuthStore :=
  match result with
  | .ok result => store.enter pid (next result)
  | .error _ => store.refuse pid

def tenantBySlug (slug : String) : Option TenantRow := store.tenants.committed.find? (·.slug = slug)

def user (id : Uuid) : Option UserRow := store.users.committed.find? (·.id = id)

def userByEmail (email : String) : Option UserRow := store.users.committed.find? (·.email = email)

/-- `get_by_email` finds nobody. -/
def emailFree (email : String) : Except AuthError Unit :=
  if store.users.committed.any fun held => held.email = email then .error (.emailTaken email) else .ok ()

def slugFree (slug : String) : Except AuthError Unit :=
  if store.tenants.committed.any fun held => held.slug = slug then .error (.slugTaken slug) else .ok ()

def beginCall (request : AuthRequest) : Option AuthStore :=
  match store.request pid with
  | .idle => some (store.enter pid request)
  | _ => none

def select : Option AuthStore :=
  match store.request pid with
  | .registering email slug newTenantName =>
      some (store.proceed pid (store.emailFree email) fun _ => .placing email slug newTenantName)
  | .placing email slug newTenantName =>
      some (store.proceed pid (placement slug newTenantName (store.tenantBySlug slug)) fun
        | .founds name => .founding email slug name
        | .joins tenantId => .joining none tenantId email)
  | .enrolling claims email =>
      some (store.proceed pid (requireAdmin claims (store.user claims.sub)) (.enrollingAs · email))
  | .enrollingAs admin email => some (store.proceed pid (store.emailFree email) fun _ => .enrollable admin email)
  | .creating claims slug name =>
      some (store.proceed pid (requirePlatformAdmin claims (store.user claims.sub)) (.creatingAs · slug name))
  | .creatingAs admin slug name => some (store.proceed pid (store.slugFree slug) fun _ => .creatable admin slug name)
  | .loggingIn email correct => some (store.proceed pid (checkLogin correct (store.userByEmail email)) .loggedIn)
  | _ => none

/-- The INSERT of a tenant; the request is refused where the slug is taken by now. -/
def insertTenant (tenant : TenantRow) (next : AuthRequest) : Option AuthStore :=
  match store.tenants.insert pid TenantRow.index tenant with
  | .waits => none
  | .conflicts => some (store.refuse pid)
  | .inserts tenants => some { store.enter pid next with
      tenants
      drawn := store.drawn + 1 }

/-- The INSERT of a user; the request is refused where the email is taken by now. -/
def insertUser (user : UserRow) (next : AuthRequest) : Option AuthStore :=
  match store.users.insert pid UserRow.index user with
  | .waits => none
  | .conflicts => some (store.refuse pid)
  | .inserts users => some { store.enter pid next with
      users
      drawn := store.drawn + 1 }

def insert : Option AuthStore :=
  match store.request pid with
  | .founding email slug name =>
      let tenant : TenantRow := { id := store.drawn, slug, name, isActive := true }
      store.insertTenant pid tenant (.joining (some tenant) tenant.id email)
  | .joining founded tenantId email =>
      let user : UserRow := { id := store.drawn, tenantId, email, role := joiningRole founded }
      store.insertUser pid user (.registered founded user)
  | .enrollable admin email =>
      let user : UserRow := { id := store.drawn, tenantId := admin.tenantId, email, role := .user }
      store.insertUser pid user (.enrolled admin user)
  | .creatable admin slug name =>
      let tenant : TenantRow := { id := store.drawn, slug, name, isActive := true }
      store.insertTenant pid tenant (.tenantCreated admin tenant)
  | _ => none

def log (founded : Option TenantRow) (user : Option UserRow) (entry : AuditEntry) : AuthStore :=
  { store.enter pid (.recorded founded user entry) with audit := store.audit.append pid [entry] }

def record : Option AuthStore :=
  match store.request pid with
  | .registered founded user => some (store.log pid founded (some user) (registeredEntry user))
  | .enrolled admin user => some (store.log pid none (some user) (enrolledEntry admin user))
  | .tenantCreated admin tenant => some (store.log pid (some tenant) none (tenantCreatedEntry admin tenant))
  | .loggedIn user => some (store.log pid none none (loginEntry user))
  | _ => none

def commit : Option AuthStore :=
  match store.request pid with
  | .recorded .. => some { store.enter pid .idle with
      tenants := store.tenants.commit pid TenantRow.id
      users := store.users.commit pid UserRow.id
      audit := store.audit.commit pid }
  | _ => none

def provision (email : String) (role : UserRole) (isPlatformAdmin : Bool) : Option AuthStore :=
  (store.users.store UserRow.index { id := store.drawn, tenantId := defaultTenantId, email, role, isPlatformAdmin }).map
    fun users => { store with
      users
      drawn := store.drawn + 1 }

def step : Action → AuthStore → Option AuthStore
  | .register pid email slug newTenantName, store => store.beginCall pid (.registering email slug newTenantName)
  | .enrol pid claims email, store => store.beginCall pid (.enrolling claims email)
  | .createTenant pid claims slug name, store => store.beginCall pid (.creating claims slug name)
  | .login pid email correct, store => store.beginCall pid (.loggingIn email correct)
  | .select pid, store => store.select pid
  | .insert pid, store => store.insert pid
  | .record pid, store => store.record pid
  | .commit pid, store => store.commit pid
  | .abort pid, store => some (store.refuse pid)
  | .provision email role isPlatformAdmin, store => store.provision email role isPlatformAdmin
  | .setTenantActive tenantId isActive, store =>
      (store.tenants.amend TenantRow.id tenantId (TenantRow.setActive isActive)).map fun tenants => { store with tenants }
  | .setUserActive userId isActive, store =>
      (store.users.amend UserRow.id userId (UserRow.setActive isActive)).map fun users => { store with users }

def machine : Machine AuthStore Action where
  initial := initial
  step := step

end AuthStore

end IncidentPlatform.Services

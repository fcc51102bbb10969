import IncidentPlatform.Concurrency.Machine
import IncidentPlatform.Models.Job
import IncidentPlatform.Storage.Table
import IncidentPlatform.Storage.UniqueIndex

namespace IncidentPlatform.Services

open Concurrency Models Storage

/-! # Service accounts and their tokens

`ServiceAccountService` behind its endpoints and the auth dependency, one SQL
statement at a time.  Each call has a transaction of its own, where the seed
script has one for all of its calls.
-/

inductive Scope where
  | telemetryRead
  | incidentsRead
  | actionsPropose
  | actionsExecute
  | chaosInvoke
  | agentRunsWrite
deriving DecidableEq

def Scope.value : Scope → String
  | .telemetryRead => "telemetry:read"
  | .incidentsRead => "incidents:read"
  | .actionsPropose => "actions:propose"
  | .actionsExecute => "actions:execute"
  | .chaosInvoke => "chaos:invoke"
  | .agentRunsWrite => "agent_runs:write"

def allScopes : List String :=
  [Scope.telemetryRead, .incidentsRead, .actionsPropose, .actionsExecute, .chaosInvoke, .agentRunsWrite].map Scope.value

def apiGrantableScopes : List String := allScopes.filter (· ≠ Scope.chaosInvoke.value)

inductive AccountError where
  | unknownScopes (unknown : List String)
  | notGrantable (refused : List String)
  | exceedsAccount (extra : List String)
  | disabled
  | alreadyExists (name : String)
  | accountNotFound (id : Uuid)
  | tokenNotFound (id : Uuid)
  | notServiceAccountToken
  | invalidToken
  | tokenRevoked
  | tokenExpired
  | accountMissing
  | accountDisabled
deriving DecidableEq

/-- The message, with Python's `repr` of a list of strings. -/
def AccountError.message (repr : List String → String) : AccountError → String
  | .unknownScopes unknown => "Unknown scope(s): " ++ repr unknown
  | .notGrantable refused => "Scope(s) not grantable through this API: " ++ repr refused ++
      ". chaos:invoke is provisioned by the operator seed script, or by " ++
      "a platform admin only on a chaos-enabled stack (ADR 0008)."
  | .exceedsAccount extra => "Requested scopes exceed account scopes: " ++ repr extra
  | .disabled => "Service account is disabled"
  | .alreadyExists name => "Service account already exists: " ++ name
  | .accountNotFound id => "Service account not found: " ++ toString id
  | .tokenNotFound id => "Token not found: " ++ toString id
  | .notServiceAccountToken => "Not a service-account token"
  | .invalidToken => "Invalid token"
  | .tokenRevoked => "Token has been revoked"
  | .tokenExpired => "Token has expired"
  | .accountMissing => "Service account not found"
  | .accountDisabled => "Service account is disabled"

def validateScopes (scopes : List String) : Except AccountError (List String) :=
  let unknown := scopes.filter (· ∉ allScopes)
  if unknown ≠ [] then .error (.unknownScopes unknown) else .ok scopes

/-- `assert_api_grantable`.  At most one scope is refused, so that sorting them
changes nothing. -/
def assertApiGrantable (scopes : Option (List String)) (chaosEnabled : Bool) : Except AccountError Unit :=
  if chaosEnabled then .ok ()
  else
    let refused := (allScopes.filter (· ∉ apiGrantableScopes)).filter (· ∈ scopes.getD [])
    if refused ≠ [] then .error (.notGrantable refused) else .ok ()

structure ServiceAccount where
  id : Uuid
  tenantId : Uuid
  name : String
  scopes : List String
  isActive : Bool
  createdByUserId : Option Uuid
deriving DecidableEq

structure ServiceAccountToken where
  id : Uuid
  serviceAccountId : Uuid
  tokenHash : String
  scopes : List String
  expiresAt : Option Time
  revokedAt : Option Time := none
  lastUsedAt : Option Time := none
deriving DecidableEq

/-- The columns of `uq_service_accounts_tenant_name`. -/
def ServiceAccount.index (account : ServiceAccount) : Option (Uuid × String) := some (account.tenantId, account.name)

def ServiceAccount.rescope (scopes : List String) (account : ServiceAccount) : ServiceAccount := { account with scopes }

def ServiceAccount.setActive (isActive : Bool) (account : ServiceAccount) : ServiceAccount := { account with isActive }

def ServiceAccountToken.index (token : ServiceAccountToken) : Option String := some token.tokenHash

def ServiceAccountToken.revoke (now : Time) (token : ServiceAccountToken) : ServiceAccountToken :=
  { token with revokedAt := some now }

def ServiceAccountToken.touch (now : Time) (token : ServiceAccountToken) : ServiceAccountToken :=
  { token with lastUsedAt := some now }

def tokenMarker : String := "sa_"

/-- `DEFAULT_TOKEN_TTL`. -/
def defaultTokenTtl : Time := seconds (90 * 86400)

def looksLikeServiceAccountToken (value : String) : Bool := tokenMarker.toList.isPrefixOf value.toList

def scopesJson (scopes : List String) : Json := .array (scopes.map .string)

def accountEntry (action : String) (account : ServiceAccount) (user : Option Uuid) (extra : List (String × Json)) :
    AuditEntry where
  action
  tenantId := account.tenantId
  userId := user
  principalId := user
  resourceType := some "service_account"
  resourceId := some (toString account.id)
  extraData := .object extra

def accountCreatedEntry (account : ServiceAccount) : AuditEntry :=
  accountEntry "service_account.created" account account.createdByUserId
    [("name", .string account.name), ("scopes", scopesJson account.scopes)]

def scopesUpdatedEntry (account : ServiceAccount) (scopes : List String) (user : Option Uuid) : AuditEntry :=
  accountEntry "service_account.scopes_updated" account user
    [("sa_name", .string account.name), ("scopes_before", scopesJson account.scopes), ("scopes_after", scopesJson scopes)]

def tokenEntry (action : String) (account : ServiceAccount) (token : ServiceAccountToken) (user : Option Uuid)
    (extra : List (String × Json)) : AuditEntry where
  action
  tenantId := account.tenantId
  userId := user
  principalId := user
  resourceType := some "service_account_token"
  resourceId := some (toString token.id)
  extraData := .object (("service_account_id", .string (toString account.id)) :: extra)

def tokenMintedEntry (account : ServiceAccount) (token : ServiceAccountToken) (user : Option Uuid) : AuditEntry :=
  tokenEntry "service_account.token_minted" account token user
    [("scopes", scopesJson token.scopes),
      ("expires_at", token.expiresAt.elim .null fun expiresAt => .string (isoformat expiresAt))]

def tokenRevokedEntry (account : ServiceAccount) (token : ServiceAccountToken) (user : Option Uuid) : AuditEntry :=
  tokenEntry "service_account.token_revoked" account token user []

inductive AccountCall where
  | create (tenantId : Uuid) (name : String) (scopes : List String)
  | updateScopes (tenantId accountId : Uuid) (scopes : List String)
  | mintToken (tenantId accountId : Uuid) (scopes : Option (List String)) (ttl : Option Time)
  | revokeToken (tenantId accountId tokenId : Uuid)
deriving DecidableEq

/-- What `_assert_api_grantable` is called with, if it is called. -/
def AccountCall.granted : AccountCall → Option (List String)
  | .create _ _ scopes | .updateScopes _ _ scopes => some scopes
  | .mintToken _ _ scopes _ => scopes
  | .revokeToken .. => none

/-- What `create_service_account` validates before its first statement. -/
def AccountCall.validated : AccountCall → List String
  | .create _ _ scopes => scopes
  | _ => []

/-- What is refused before the first statement. -/
def AccountCall.precheck (call : AccountCall) (viaApi chaosEnabled : Bool) : Except AccountError (List String) :=
  match if viaApi then assertApiGrantable call.granted chaosEnabled else .ok () with
  | .error error => .error error
  | .ok () => validateScopes call.validated

/-- `update_scopes` up to its UPDATE; `none` where nothing changes. -/
def scopesToStore (account : ServiceAccount) (scopes : List String) : Except AccountError (Option (List String)) :=
  match validateScopes scopes with
  | .error error => .error error
  | .ok scopes => .ok (if account.scopes.isPerm scopes then none else some scopes)

/-- `mint_token` up to the secret. -/
def scopesToMint (account : ServiceAccount) (scopes : Option (List String)) : Except AccountError (List String) :=
  if account.isActive then
    match validateScopes (scopes.getD account.scopes) with
    | .error error => .error error
    | .ok requested =>
        let extra := requested.filter (· ∉ account.scopes)
        if extra ≠ [] then .error (.exceedsAccount extra) else .ok requested
  else .error .disabled

/-- The checks of `verify_token` on the token row. -/
def checkToken (now : Time) : Option ServiceAccountToken → Except AccountError ServiceAccountToken
  | none => .error .invalidToken
  | some token =>
      if token.revokedAt.isSome then .error .tokenRevoked
      else if token.expiresAt.any (· < now) then .error .tokenExpired
      else .ok token

/-- The checks of `verify_token` on the account row. -/
def checkAccount : Option ServiceAccount → Except AccountError ServiceAccount
  | none => .error .accountMissing
  | some account => if account.isActive then .ok account else .error .accountDisabled

/-- `Principal`, of a service account. -/
structure MachinePrincipal where
  serviceAccountId : Uuid
  tenantId : Uuid
  scopes : List String
  /-- The hash of the token that was presented. -/
  tokenHash : String
deriving DecidableEq

def machinePrincipal (account : ServiceAccount) (token : ServiceAccountToken) : MachinePrincipal where
  serviceAccountId := account.id
  tenantId := account.tenantId
  scopes := token.scopes
  tokenHash := token.tokenHash

/-- The scopes that `require_scope` finds missing. -/
def missingScopes (required : List Scope) (principal : MachinePrincipal) : List String :=
  (required.map Scope.value).filter (· ∉ principal.scopes)

/-- Where the request of one process is. -/
inductive AccountRequest where
  | idle
  | naming (tenantId : Uuid) (name : String) (scopes : List String) (user : Option Uuid)
  | named (tenantId : Uuid) (name : String) (scopes : List String) (user : Option Uuid)
  | created (account : ServiceAccount)
  | rescoping (tenantId accountId : Uuid) (scopes : List String) (user : Option Uuid)
  | rescopable (account : ServiceAccount) (scopes : List String) (user : Option Uuid)
  | rescoped (account : ServiceAccount) (scopes : List String) (user : Option Uuid)
  | minting (tenantId accountId : Uuid) (scopes : Option (List String)) (ttl : Option Time) (user : Option Uuid)
  | mintable (account : ServiceAccount) (scopes : List String) (ttl : Option Time) (user : Option Uuid)
  | minted (account : ServiceAccount) (token : ServiceAccountToken) (user : Option Uuid)
  | revoking (tenantId accountId tokenId : Uuid) (user : Option Uuid)
  | revokingOf (account : ServiceAccount) (tokenId : Uuid) (user : Option Uuid)
  | revocable (account : ServiceAccount) (token : ServiceAccountToken) (user : Option Uuid)
  | revoked (account : ServiceAccount) (token : ServiceAccountToken) (user : Option Uuid)
  | recorded
  /-- `get_current_principal` with this bearer token. -/
  | presenting (plaintext : String)
  | tokenChecked (token : ServiceAccountToken)
  | authenticated (token : ServiceAccountToken)
  | serving
deriving DecidableEq

/-- The first stage of a call. -/
def AccountCall.first (user : Option Uuid) : AccountCall → AccountRequest
  | .create tenantId name scopes => .naming tenantId name scopes user
  | .updateScopes tenantId accountId scopes => .rescoping tenantId accountId scopes user
  | .mintToken tenantId accountId scopes ttl => .minting tenantId accountId scopes ttl user
  | .revokeToken tenantId accountId tokenId => .revoking tenantId accountId tokenId user

structure AccountSettings where
  chaosEnabled : Bool
  /-- `_hash_token`. -/
  hashToken : String → String

structure AccountStore where
  accounts : IndexedRows Uuid ServiceAccount
  tokens : IndexedRows Uuid ServiceAccountToken
  audit : Journal AuditEntry
  request : Pid → AccountRequest
  clock : Time
  /-- How many row ids have been drawn. -/
  drawn : Nat
  /-- Who has been authenticated, newest first. -/
  principals : List MachinePrincipal

namespace AccountStore

def initial : AccountStore where
  accounts := .empty
  tokens := .empty
  audit := .empty
  request := fun _ => .idle
  clock := 0
  drawn := 0
  principals := []

inductive Action where
  /-- A call of the service, by the admin API or by an operator's script. -/
  | begin (pid : Pid) (call : AccountCall) (viaApi : Bool) (user : Option Uuid)
  | present (pid : Pid) (plaintext : String)
  | select (pid : Pid)
  /-- The INSERT, with the secret that a mint has drawn. -/
  | insert (pid : Pid) (secret : String)
  | update (pid : Pid)
  | record (pid : Pid)
  | commit (pid : Pid)
  | abort (pid : Pid)
  /-- An operator switches an account by SQL. -/
  | setActive (accountId : Uuid) (isActive : Bool)
  | tick (span : Time)
deriving DecidableEq

/-- The process whose request takes the step. -/
def Action.actor : Action → Option Pid
  | .begin pid .. | .present pid _ | .select pid | .insert pid _ | .update pid | .record pid | .commit pid | .abort pid =>
      some pid
  | .setActive .. | .tick _ => none

variable (settings : AccountSettings) (store : AccountStore) (pid : Pid)

def enter (request : AccountRequest) : AccountStore :=
  { store with request := Function.update store.request pid request }

/-- A refusal ends the transaction. -/
def refuse : AccountStore :=
  { store.enter pid .idle with
    accounts := store.accounts.rollback pid
    tokens := store.tokens.rollback pid
    audit := store.audit.rollback pid }

/-- The request goes on with a result, or is refused. -/
def proceed {Result : Type} (result : Except AccountError Result) (next : Result → AccountRequest) : AccountStore :=
  match result with
  | .ok result => store.enter pid (next result)
  | .error _ => store.refuse pid

def account (id : Uuid) : Option ServiceAccount := store.accounts.committed.find? (·.id = id)

def token (id : Uuid) : Option ServiceAccountToken := store.tokens.committed.find? (·.id = id)

def tokenByHash (hash : String) : Option ServiceAccountToken := store.tokens.committed.find? (·.tokenHash = hash)

/-- The account of an endpoint's path, in the tenant of the request. -/
def accountOf (tenantId accountId : Uuid) : Except AccountError ServiceAccount :=
  match (store.account accountId).filter (·.tenantId = tenantId) with
  | some account => .ok account
  | none => .error (.accountNotFound accountId)

/-- The account with what a check finds of it. -/
def withAccount {Result : Type} (tenantId accountId : Uuid) (check : ServiceAccount → Except AccountError Result) :
    Except AccountError (ServiceAccount × Result) :=
  match store.accountOf tenantId accountId with
  | .error error => .error error
  | .ok account => (check account).map (account, ·)

def tokenOf (account : ServiceAccount) (tokenId : Uuid) : Except AccountError ServiceAccountToken :=
  match (store.token tokenId).filter (·.serviceAccountId = account.id) with
  | some token => .ok token
  | none => .error (.tokenNotFound tokenId)

def beginCall (call : AccountCall) (viaApi : Bool) (user : Option Uuid) : Option AccountStore :=
  match store.request pid with
  | .idle => some (store.proceed pid (call.precheck viaApi settings.chaosEnabled) fun _ => call.first user)
  | _ => none

def present (plaintext : String) : Option AccountStore :=
  match store.request pid with
  | .idle => some (store.proceed pid
      (if looksLikeServiceAccountToken plaintext then .ok () else .error .notServiceAccountToken)
      fun _ => .presenting plaintext)
  | _ => none

def select : Option AccountStore :=
  match store.request pid with
  | .naming tenantId name scopes user =>
      some (store.proceed pid
        (if store.accounts.committed.any fun held => held.tenantId = tenantId ∧ held.name = name then
          .error (.alreadyExists name) else .ok ())
        fun _ => .named tenantId name scopes user)
  | .rescoping tenantId accountId scopes user =>
      some (store.proceed pid
        (store.withAccount tenantId accountId fun account => scopesToStore account scopes)
        fun (account, scopes) => scopes.elim .recorded fun scopes => .rescopable account scopes user)
  | .minting tenantId accountId scopes ttl user =>
      some (store.proceed pid
        (store.withAccount tenantId accountId fun account => scopesToMint account scopes)
        fun (account, scopes) => .mintable account scopes ttl user)
  | .revoking tenantId accountId tokenId user =>
      some (store.proceed pid (store.accountOf tenantId accountId) fun account => .revokingOf account tokenId user)
  | .revokingOf account tokenId user =>
      some (store.proceed pid (store.tokenOf account tokenId) fun token =>
        if token.revokedAt.isSome then .recorded else .revocable account token user)
  | .presenting plaintext =>
      some (store.proceed pid (checkToken store.clock (store.tokenByHash (settings.hashToken plaintext))) .tokenChecked)
  | .tokenChecked token =>
      match checkAccount (store.account token.serviceAccountId) with
      | .ok account => some { store.enter pid (.authenticated token) with
          principals := machinePrincipal account token :: store.principals }
      | .error _ => some (store.refuse pid)
  | _ => none

/-- An INSERT; the request is refused where the index has the key. -/
def insert (secret : String) : Option AccountStore :=
  match store.request pid with
  | .named tenantId name scopes user =>
      let account : ServiceAccount :=
        { id := store.drawn, tenantId, name, scopes, isActive := true, createdByUserId := user }
      match store.accounts.insert pid ServiceAccount.index account with
      | .waits => none
      | .conflicts => some (store.refuse pid)
      | .inserts accounts => some { store.enter pid (.created account) with
          accounts
          drawn := store.drawn + 1 }
  | .mintable account scopes ttl user =>
      let token : ServiceAccountToken :=
        { id := store.drawn
          serviceAccountId := account.id
          tokenHash := settings.hashToken (tokenMarker ++ secret)
          scopes
          expiresAt := some (store.clock + ttl.getD defaultTokenTtl) }
      match store.tokens.insert pid ServiceAccountToken.index token with
      | .waits => none
      | .conflicts => some (store.refuse pid)
      | .inserts tokens => some { store.enter pid (.minted account token user) with
          tokens
          drawn := store.drawn + 1 }
  | _ => none

def update : Option AccountStore :=
  match store.request pid with
  | .rescopable account scopes user =>
      (store.accounts.update pid account.id (ServiceAccount.rescope scopes)).map fun accounts =>
        { store.enter pid (.rescoped account scopes user) with accounts }
  | .revocable account token user =>
      (store.tokens.update pid token.id (ServiceAccountToken.revoke store.clock)).map fun tokens =>
        { store.enter pid (.revoked account token user) with tokens }
  | .authenticated token =>
      (store.tokens.update pid token.id (ServiceAccountToken.touch store.clock)).map fun tokens =>
        { store.enter pid .serving with tokens }
  | _ => none

def log (entry : AuditEntry) : AccountStore :=
  { store.enter pid .recorded with audit := store.audit.append pid [entry] }

def record : Option AccountStore :=
  match store.request pid with
  | .created account => some (store.log pid (accountCreatedEntry account))
  | .rescoped account scopes user => some (store.log pid (scopesUpdatedEntry account scopes user))
  | .minted account token user => some (store.log pid (tokenMintedEntry account token user))
  | .revoked account token user => some (store.log pid (tokenRevokedEntry account token user))
  | _ => none

def commit : Option AccountStore :=
  match store.request pid with
  | .recorded | .serving => some { store.enter pid .idle with
      accounts := store.accounts.commit pid ServiceAccount.id
      tokens := store.tokens.commit pid ServiceAccountToken.id
      audit := store.audit.commit pid }
  | _ => none

def setActive (accountId : Uuid) (isActive : Bool) : Option AccountStore :=
  (store.accounts.amend ServiceAccount.id accountId (ServiceAccount.setActive isActive)).map fun accounts =>
    { store with accounts }

def step : Action → AccountStore → Option AccountStore
  | .begin pid call viaApi user, store => store.beginCall settings pid call viaApi user
  | .present pid plaintext, store => store.present pid plaintext
  | .select pid, store => store.select settings pid
  | .insert pid secret, store => store.insert settings pid secret
  | .update pid, store => store.update pid
  | .record pid, store => store.record pid
  | .commit pid, store => store.commit pid
  | .abort pid, store => some (store.refuse pid)
  | .setActive accountId isActive, store => store.setActive accountId isActive
  | .tick span, store => some { store with clock := store.clock + span }

def machine : Machine AccountStore Action where
  initial := initial
  step := step settings

end AccountStore

end IncidentPlatform.Services

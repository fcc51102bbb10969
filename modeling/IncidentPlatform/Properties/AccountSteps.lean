import IncidentPlatform.Services.ServiceAccounts

namespace IncidentPlatform.Properties

open Concurrency Models Services Storage AccountStore

/-! # The steps of the account service

What one step does to the tables and to the request that takes it.
-/

variable {settings : AccountSettings} {before after store : AccountStore} {action : AccountStore.Action} {pid : Pid}
  {was next : AccountRequest}

section Checks

theorem account_found {id : Uuid} {account : ServiceAccount} (found : store.account id = some account) :
    account ∈ store.accounts.committed ∧ account.id = id :=
  ⟨List.mem_of_find?_eq_some found, by simpa using List.find?_some found⟩

theorem accountOf_ok {tenantId accountId : Uuid} {account : ServiceAccount}
    (found : store.accountOf tenantId accountId = .ok account) :
    account ∈ store.accounts.committed ∧ account.id = accountId ∧ account.tenantId = tenantId := by
  unfold AccountStore.accountOf at found
  split at found
  · rename_i held read
    cases found
    obtain ⟨read, tenant⟩ := Option.filter_eq_some_iff.mp read
    obtain ⟨committed, id⟩ := account_found read
    exact ⟨committed, id, by simpa using tenant⟩
  · cases found

theorem tokenOf_ok {account : ServiceAccount} {tokenId : Uuid} {token : ServiceAccountToken}
    (found : store.tokenOf account tokenId = .ok token) :
    token ∈ store.tokens.committed ∧ token.id = tokenId ∧ token.serviceAccountId = account.id := by
  unfold AccountStore.tokenOf at found
  split at found
  · rename_i held read
    cases found
    obtain ⟨read, owner⟩ := Option.filter_eq_some_iff.mp read
    exact ⟨List.mem_of_find?_eq_some read, by simpa using List.find?_some read, by simpa using owner⟩
  · cases found

theorem validateScopes_ok {scopes valid : List String} (validated : validateScopes scopes = .ok valid) :
    valid = scopes ∧ scopes ⊆ allScopes := by
  unfold validateScopes at validated
  dsimp only at validated
  split at validated
  · cases validated
  · rename_i none
    cases validated
    refine ⟨rfl, fun scope asked => ?_⟩
    by_contra unknown
    exact none (List.ne_nil_of_mem (List.mem_filter.mpr ⟨asked, by simpa using unknown⟩))

theorem scopesToStore_ok {account : ServiceAccount} {scopes stored : List String}
    (checked : scopesToStore account scopes = .ok (some stored)) : stored = scopes ∧ scopes ⊆ allScopes := by
  unfold scopesToStore at checked
  split at checked
  · cases checked
  · rename_i valid validated
    obtain ⟨rfl, known⟩ := validateScopes_ok validated
    split at checked
    · cases checked
    · cases checked
      exact ⟨rfl, known⟩

theorem scopesToMint_ok {account : ServiceAccount} {scopes : Option (List String)} {minted : List String}
    (checked : scopesToMint account scopes = .ok minted) :
    account.isActive = true ∧ minted ⊆ allScopes ∧ minted ⊆ account.scopes := by
  unfold scopesToMint at checked
  split at checked
  · rename_i active
    split at checked
    · cases checked
    · rename_i requested validated
      obtain ⟨rfl, known⟩ := validateScopes_ok validated
      dsimp only at checked
      split at checked
      · cases checked
      · rename_i none
        cases checked
        refine ⟨active, known, fun scope asked => ?_⟩
        by_contra extra
        exact none (List.ne_nil_of_mem (List.mem_filter.mpr ⟨asked, by simpa using extra⟩))
  · cases checked

theorem withAccount_ok {Result : Type} {tenantId accountId : Uuid} {check : ServiceAccount → Except AccountError Result}
    {account : ServiceAccount} {result : Result} (found : store.withAccount tenantId accountId check = .ok (account, result)) :
    account ∈ store.accounts.committed ∧ account.tenantId = tenantId ∧ check account = .ok result := by
  unfold AccountStore.withAccount at found
  split at found
  · cases found
  · rename_i held read
    obtain ⟨committed, -, tenant⟩ := accountOf_ok read
    cases checked : check held with
    | error error =>
        rw [checked] at found
        cases found
    | ok value =>
        rw [checked] at found
        cases found
        exact ⟨committed, tenant, checked⟩

theorem checkToken_ok {now : Time} {read : Option ServiceAccountToken} {token : ServiceAccountToken}
    (checked : checkToken now read = .ok token) :
    read = some token ∧ token.revokedAt = none ∧ token.expiresAt.any (· < now) = false := by
  unfold checkToken at checked
  split at checked
  · cases checked
  · split at checked
    · cases checked
    · rename_i unrevoked
      split at checked
      · cases checked
      · rename_i unexpired
        cases checked
        exact ⟨rfl, by simpa using unrevoked, Bool.eq_false_iff.mpr unexpired⟩

theorem checkAccount_ok {read : Option ServiceAccount} {account : ServiceAccount}
    (checked : checkAccount read = .ok account) : read = some account ∧ account.isActive = true := by
  unfold checkAccount at checked
  split at checked
  · cases checked
  · split at checked
    · rename_i active
      cases checked
      exact ⟨rfl, active⟩
    · cases checked

theorem assertApiGrantable_ok {scopes : List String} (granted : assertApiGrantable (some scopes) false = .ok ()) :
    Scope.chaosInvoke.value ∉ scopes := by
  intro asked
  have known : Scope.chaosInvoke.value ∈ allScopes := by decide
  have withheld : Scope.chaosInvoke.value ∉ apiGrantableScopes := by decide
  have allowed : ∀ scope ∈ allScopes, scope ∈ scopes → scope ∈ apiGrantableScopes := by
    simpa [assertApiGrantable] using granted
  exact withheld (allowed _ known asked)

theorem precheck_ok {call : AccountCall} {viaApi chaosEnabled : Bool} {valid : List String}
    (admitted : call.precheck viaApi chaosEnabled = .ok valid) :
    call.validated ⊆ allScopes ∧ (viaApi = true → assertApiGrantable call.granted chaosEnabled = .ok ()) := by
  unfold AccountCall.precheck at admitted
  split at admitted
  · cases admitted
  · rename_i gate
    refine ⟨(validateScopes_ok admitted).2, fun viaApi => ?_⟩
    simpa [viaApi] using gate

end Checks

section Steps

inductive RequestMove (settings : AccountSettings) (store : AccountStore) (action : AccountStore.Action) (pid : Pid) :
    AccountRequest → AccountRequest → Prop where
  | called (call : AccountCall) (viaApi : Bool) (user : Option Uuid) (valid : List String)
      (calling : action = .begin pid call viaApi user) (admitted : call.precheck viaApi settings.chaosEnabled = .ok valid) :
      RequestMove settings store action pid .idle (call.first user)
  | presented (plaintext : String) : RequestMove settings store action pid .idle (.presenting plaintext)
  | named (tenantId : Uuid) (name : String) (scopes : List String) (user : Option Uuid) :
      RequestMove settings store action pid (.naming tenantId name scopes user) (.named tenantId name scopes user)
  | rescopable (tenantId accountId : Uuid) (account : ServiceAccount) (scopes : List String) (user : Option Uuid)
      (held : account ∈ store.accounts.committed) (known : scopes ⊆ allScopes) :
      RequestMove settings store action pid (.rescoping tenantId accountId scopes user) (.rescopable account scopes user)
  | unchanged (tenantId accountId : Uuid) (scopes : List String) (user : Option Uuid) :
      RequestMove settings store action pid (.rescoping tenantId accountId scopes user) .recorded
  | mintable (tenantId accountId : Uuid) (account : ServiceAccount) (scopes : Option (List String)) (minted : List String)
      (ttl : Option Time) (user : Option Uuid) (held : account ∈ store.accounts.committed)
      (active : account.isActive = true) (known : minted ⊆ allScopes) (within : minted ⊆ account.scopes) :
      RequestMove settings store action pid (.minting tenantId accountId scopes ttl user) (.mintable account minted ttl user)
  | located (tenantId accountId tokenId : Uuid) (account : ServiceAccount) (user : Option Uuid)
      (held : account ∈ store.accounts.committed) :
      RequestMove settings store action pid (.revoking tenantId accountId tokenId user) (.revokingOf account tokenId user)
  | revocable (account : ServiceAccount) (tokenId : Uuid) (token : ServiceAccountToken) (user : Option Uuid)
      (held : token ∈ store.tokens.committed) (owned : token.serviceAccountId = account.id) :
      RequestMove settings store action pid (.revokingOf account tokenId user) (.revocable account token user)
  | alreadyRevoked (account : ServiceAccount) (tokenId : Uuid) (user : Option Uuid) :
      RequestMove settings store action pid (.revokingOf account tokenId user) .recorded
  | checked (plaintext : String) (token : ServiceAccountToken) (held : token ∈ store.tokens.committed)
      (hash : token.tokenHash = settings.hashToken plaintext) (unrevoked : token.revokedAt = none)
      (unexpired : token.expiresAt.any (· < store.clock) = false) :
      RequestMove settings store action pid (.presenting plaintext) (.tokenChecked token)

inductive AccountTurn (settings : AccountSettings) (before : AccountStore) (action : AccountStore.Action) :
    AccountStore → Prop where
  | moved (pid : Pid) (mine : action.actor = some pid) (next : AccountRequest) (move : RequestMove settings before action pid (before.request pid) next) :
      AccountTurn settings before action (before.enter pid next)
  | refused (pid : Pid) (mine : action.actor = some pid) : AccountTurn settings before action (before.refuse pid)
  | authenticated (pid : Pid) (mine : action.actor = some pid) (token : ServiceAccountToken) (account : ServiceAccount)
      (was : before.request pid = .tokenChecked token) (read : before.account token.serviceAccountId = some account)
      (active : account.isActive = true) :
      AccountTurn settings before action { before.enter pid (.authenticated token) with
        principals := machinePrincipal account token :: before.principals }
  | created (pid : Pid) (mine : action.actor = some pid) (account : ServiceAccount) (accounts : IndexedRows Uuid ServiceAccount)
      (was : before.request pid = .named account.tenantId account.name account.scopes account.createdByUserId)
      (new : account.id = before.drawn)
      (inserted : before.accounts.insert pid ServiceAccount.index account = .inserts accounts) :
      AccountTurn settings before action { before.enter pid (.created account) with
        accounts
        drawn := before.drawn + 1 }
  | minted (pid : Pid) (mine : action.actor = some pid) (account : ServiceAccount) (token : ServiceAccountToken) (ttl : Option Time) (user : Option Uuid)
      (tokens : IndexedRows Uuid ServiceAccountToken) (was : before.request pid = .mintable account token.scopes ttl user)
      (owned : token.serviceAccountId = account.id)
      (inserted : before.tokens.insert pid ServiceAccountToken.index token = .inserts tokens) :
      AccountTurn settings before action { before.enter pid (.minted account token user) with
        tokens
        drawn := before.drawn + 1 }
  | rescoped (pid : Pid) (mine : action.actor = some pid) (account : ServiceAccount) (scopes : List String) (user : Option Uuid)
      (accounts : IndexedRows Uuid ServiceAccount) (was : before.request pid = .rescopable account scopes user)
      (updated : before.accounts.update pid account.id (ServiceAccount.rescope scopes) = some accounts) :
      AccountTurn settings before action { before.enter pid (.rescoped account scopes user) with accounts }
  | revoked (pid : Pid) (mine : action.actor = some pid) (account : ServiceAccount) (token : ServiceAccountToken) (user : Option Uuid)
      (tokens : IndexedRows Uuid ServiceAccountToken) (was : before.request pid = .revocable account token user)
      (updated : before.tokens.update pid token.id (ServiceAccountToken.revoke before.clock) = some tokens) :
      AccountTurn settings before action { before.enter pid (.revoked account token user) with tokens }
  | touched (pid : Pid) (mine : action.actor = some pid) (token : ServiceAccountToken) (tokens : IndexedRows Uuid ServiceAccountToken)
      (was : before.request pid = .authenticated token)
      (updated : before.tokens.update pid token.id (ServiceAccountToken.touch before.clock) = some tokens) :
      AccountTurn settings before action { before.enter pid .serving with tokens }
  | recorded (pid : Pid) (mine : action.actor = some pid) (entry : AuditEntry) : AccountTurn settings before action (before.log pid entry)
  | committed (pid : Pid) (mine : action.actor = some pid) : AccountTurn settings before action { before.enter pid .idle with
      accounts := before.accounts.commit pid ServiceAccount.id
      tokens := before.tokens.commit pid ServiceAccountToken.id
      audit := before.audit.commit pid }
  | switched (accountId : Uuid) (isActive : Bool) (accounts : IndexedRows Uuid ServiceAccount)
      (switching : action = .setActive accountId isActive)
      (changed : before.accounts.amend ServiceAccount.id accountId (ServiceAccount.setActive isActive) = some accounts) :
      AccountTurn settings before action { before with accounts }
  | ticked (span : Time) : AccountTurn settings before action { before with clock := before.clock + span }

theorem AccountTurn.proceeds {Result : Type} {result : Except AccountError Result} {stage : Result → AccountRequest}
    (mine : action.actor = some pid)
    (moves : ∀ value, result = .ok value → RequestMove settings before action pid (before.request pid) (stage value)) :
    AccountTurn settings before action (before.proceed pid result stage) := by
  unfold AccountStore.proceed
  cases result with
  | ok value => exact .moved pid mine _ (moves value rfl)
  | error error => exact .refused pid mine

theorem begun_turn {call : AccountCall} {viaApi : Bool} {user : Option Uuid} (mine : action.actor = some pid)
    (calling : action = .begin pid call viaApi user)
    (begun : before.beginCall settings pid call viaApi user = some after) : AccountTurn settings before action after := by
  unfold AccountStore.beginCall at begun
  split at begun
  · rename_i idle
    cases begun
    exact .proceeds mine fun valid admitted => idle ▸ .called call viaApi user valid calling admitted
  · cases begun

theorem presented_turn {plaintext : String} (mine : action.actor = some pid) (presented : before.present pid plaintext = some after) :
    AccountTurn settings before action after := by
  unfold AccountStore.present at presented
  split at presented
  · rename_i idle
    cases presented
    exact .proceeds mine fun _ _ => idle ▸ .presented plaintext
  · cases presented

theorem selected_turn (mine : action.actor = some pid) (selected : before.select settings pid = some after) : AccountTurn settings before action after := by
  unfold AccountStore.select at selected
  split at selected
  · rename_i tenantId name scopes user was
    cases selected
    exact .proceeds mine fun _ _ => was ▸ .named tenantId name scopes user
  · rename_i tenantId accountId scopes user was
    cases selected
    refine .proceeds mine fun (account, stored) found => was ▸ ?_
    obtain ⟨held, -, checked⟩ := withAccount_ok found
    cases stored with
    | none => exact .unchanged tenantId accountId scopes user
    | some stored =>
        obtain ⟨rfl, known⟩ := scopesToStore_ok checked
        exact .rescopable tenantId accountId account _ user held known
  · rename_i tenantId accountId scopes ttl user was
    cases selected
    refine .proceeds mine fun (account, minted) found => was ▸ ?_
    obtain ⟨held, -, checked⟩ := withAccount_ok found
    obtain ⟨active, known, within⟩ := scopesToMint_ok checked
    exact .mintable tenantId accountId account scopes minted ttl user held active known within
  · rename_i tenantId accountId tokenId user was
    cases selected
    exact .proceeds mine fun account found => was ▸ .located tenantId accountId tokenId account user (accountOf_ok found).1
  · rename_i account tokenId user was
    cases selected
    refine .proceeds mine fun token found => was ▸ ?_
    obtain ⟨held, -, owned⟩ := tokenOf_ok found
    split
    · exact .alreadyRevoked account tokenId user
    · exact .revocable account tokenId token user held owned
  · rename_i plaintext was
    cases selected
    refine .proceeds mine fun token found => was ▸ ?_
    obtain ⟨read, unrevoked, unexpired⟩ := checkToken_ok found
    exact .checked plaintext token (List.mem_of_find?_eq_some read) (by simpa using List.find?_some read) unrevoked unexpired
  · rename_i token was
    split at selected
    · rename_i account checked
      cases selected
      obtain ⟨read, active⟩ := checkAccount_ok checked
      exact .authenticated pid mine token account was read active
    · cases selected
      exact .refused pid mine
  · cases selected

theorem inserted_turn {secret : String} (mine : action.actor = some pid) (inserted : before.insert settings pid secret = some after) :
    AccountTurn settings before action after := by
  unfold AccountStore.insert at inserted
  split at inserted
  · rename_i tenantId name scopes user was
    dsimp only at inserted
    split at inserted
    · cases inserted
    · cases inserted
      exact .refused pid mine
    · rename_i accounts ended
      cases inserted
      exact .created pid mine _ accounts was rfl ended
  · rename_i account scopes ttl user was
    dsimp only at inserted
    split at inserted
    · cases inserted
    · cases inserted
      exact .refused pid mine
    · rename_i tokens ended
      cases inserted
      exact .minted pid mine account _ ttl user tokens was rfl ended
  · cases inserted

theorem updated_turn (mine : action.actor = some pid) (updated : before.update pid = some after) : AccountTurn settings before action after := by
  unfold AccountStore.update at updated
  split at updated
  · rename_i account scopes user was
    obtain ⟨accounts, changed, rfl⟩ := Option.map_eq_some_iff.mp updated
    exact .rescoped pid mine account scopes user accounts was changed
  · rename_i account token user was
    obtain ⟨tokens, changed, rfl⟩ := Option.map_eq_some_iff.mp updated
    exact .revoked pid mine account token user tokens was changed
  · rename_i token was
    obtain ⟨tokens, changed, rfl⟩ := Option.map_eq_some_iff.mp updated
    exact .touched pid mine token tokens was changed
  · cases updated

theorem recorded_turn (mine : action.actor = some pid) (recorded : before.record pid = some after) : AccountTurn settings before action after := by
  unfold AccountStore.record at recorded
  split at recorded
  case h_5 => cases recorded
  all_goals
    cases recorded
    exact .recorded pid mine _

theorem committed_turn (mine : action.actor = some pid) (committed : before.commit pid = some after) : AccountTurn settings before action after := by
  unfold AccountStore.commit at committed
  split at committed
  case h_3 => cases committed
  all_goals
    cases committed
    exact .committed pid mine

theorem switched_turn {accountId : Uuid} {isActive : Bool} (switching : action = .setActive accountId isActive)
    (switched : before.setActive accountId isActive = some after) : AccountTurn settings before action after := by
  obtain ⟨accounts, changed, rfl⟩ := Option.map_eq_some_iff.mp switched
  exact .switched accountId isActive accounts switching changed

theorem accountTurn (stepped : (machine settings).step action before = some after) :
    AccountTurn settings before action after := by
  cases action with
  | begin pid call viaApi user => exact begun_turn rfl rfl stepped
  | present pid plaintext => exact presented_turn rfl stepped
  | select pid => exact selected_turn rfl stepped
  | insert pid secret => exact inserted_turn rfl stepped
  | update pid => exact updated_turn rfl stepped
  | record pid => exact recorded_turn rfl stepped
  | commit pid => exact committed_turn rfl stepped
  | abort pid =>
      cases stepped
      exact .refused pid rfl
  | setActive accountId isActive => exact switched_turn rfl stepped
  | tick span =>
      cases stepped
      exact .ticked span

theorem turn_elsewhere {other : Pid} (turn : AccountTurn settings before action after) (others : action.actor ≠ some other) :
    after.request other = before.request other := by
  have entered {pid : Pid} {next : AccountRequest} (mine : action.actor = some pid) :
      (before.enter pid next).request other = before.request other := by
    refine Function.update_of_ne (fun same => others ?_) _ _
    rw [same]
    exact mine
  cases turn with
  | switched accountId isActive accounts switching changed => rfl
  | ticked span => rfl
  | moved pid mine | refused pid mine | authenticated pid mine | created pid mine | minted pid mine | rescoped pid mine
  | revoked pid mine | touched pid mine | recorded pid mine | committed pid mine => exact entered mine

end Steps

end IncidentPlatform.Properties

import IncidentPlatform.Properties.AccountSteps

namespace IncidentPlatform.Properties

open Concurrency Models Services Storage AccountStore

/-! # What a service token lets through -/

variable {settings : AccountSettings} {before after start last : AccountStore} {action : AccountStore.Action} {pid : Pid}
  {was next : AccountRequest} {states more : List AccountStore} {gate : Bool}
  {steps : List (AccountStore × AccountStore.Action)}

section Rows

/-- What no change of a token touches, and that a revoked one stays revoked. -/
structure TokenKept (row next : ServiceAccountToken) : Prop where
  owner : next.serviceAccountId = row.serviceAccountId
  hash : next.tokenHash = row.tokenHash
  scopes : next.scopes = row.scopes
  expiresAt : next.expiresAt = row.expiresAt
  revoked : row.revokedAt.isSome = true → next.revokedAt.isSome = true

theorem tokenKept_revoke (now : Time) (token : ServiceAccountToken) : TokenKept token (token.revoke now) where
  owner := rfl
  hash := rfl
  scopes := rfl
  expiresAt := rfl
  revoked _ := rfl

theorem tokenKept_touch (now : Time) (token : ServiceAccountToken) : TokenKept token (token.touch now) where
  owner := rfl
  hash := rfl
  scopes := rfl
  expiresAt := rfl
  revoked := id

/-- What no statement of the service changes of an account. -/
structure AccountKept (row next : ServiceAccount) : Prop where
  id : next.id = row.id
  isActive : next.isActive = row.isActive

/-- The rows of both tables: no two tokens with one hash, no two accounts with
one id, and ids that have been drawn. -/
structure AccountRows (store : AccountStore) : Prop where
  hashes : store.tokens.Distinct ServiceAccountToken.index
  tokens : store.tokens.Changes TokenKept
  ids : store.accounts.Distinct fun account => some account.id
  drawn : store.accounts.Sound fun account => account.id < store.drawn
  accounts : store.accounts.Changes AccountKept

theorem accountRows_initial : AccountRows initial where
  hashes := List.nodup_nil
  tokens := IndexedRows.changes_empty
  ids := List.nodup_nil
  drawn := IndexedRows.sound_empty
  accounts := IndexedRows.changes_empty

theorem AccountRows.hashes_commit (rows : AccountRows before) :
    (before.tokens.commit pid ServiceAccountToken.id).Distinct ServiceAccountToken.index := by
  refine rows.hashes.commit fun row => ?_
  have same : (IndexedRows.amended ServiceAccountToken.id (before.tokens.changedBy pid) row).tokenHash = row.tokenHash :=
    rows.tokens.amended (fun next => next.tokenHash = row.tokenHash) (fun kept fine => kept.hash.trans fine) rfl
  simp [ServiceAccountToken.index, same]

theorem AccountRows.ids_commit (rows : AccountRows before) :
    (before.accounts.commit pid ServiceAccount.id).Distinct fun account => some account.id := by
  refine rows.ids.commit fun row => ?_
  have same : (IndexedRows.amended ServiceAccount.id (before.accounts.changedBy pid) row).id = row.id :=
    rows.accounts.amended (fun next => next.id = row.id) (fun kept fine => kept.id.trans fine) rfl
  simp [same]

theorem AccountRows.turn (rows : AccountRows before) (turn : AccountTurn settings before action after) :
    AccountRows after := by
  obtain ⟨hashes, tokens, ids, drawn, accounts⟩ := rows
  cases turn with
  | moved pid mine next move => exact ⟨hashes, tokens, ids, drawn, accounts⟩
  | refused pid mine => exact ⟨hashes.rollback, tokens.rollback, ids.rollback, drawn.rollback, accounts.rollback⟩
  | authenticated pid mine token account was read active => exact ⟨hashes, tokens, ids, drawn, accounts⟩
  | created pid mine account rows was new inserted =>
      have fresh : rows.Distinct fun account => some account.id := by
        obtain ⟨rfl, -⟩ := IndexedRows.insert_cases inserted
        refine ids.add fun wanted same stored held => ?_
        cases same
        have older : stored.id < before.drawn := by
          obtain committed | inserted := List.mem_append.mp held
          · exact drawn.committed stored committed
          · obtain ⟨entry, member, rfl⟩ := List.mem_map.mp inserted
            exact drawn.inserted entry member
        rw [new, Ne, Option.some.injEq]
        exact Nat.ne_of_lt older
      have later : before.accounts.Sound fun row => row.id < before.drawn + 1 := drawn.mono fun row older =>
        Nat.lt_succ_of_lt older
      exact ⟨hashes, tokens, fresh, later.insert inserted (new ▸ Nat.lt_succ_self _), accounts.insert inserted⟩
  | minted pid mine account token ttl user rows was owned inserted =>
      exact ⟨hashes.insert inserted, tokens.insert inserted, ids, drawn.mono fun row older => Nat.lt_succ_of_lt older,
        accounts⟩
  | rescoped pid mine account scopes user rows was updated =>
      exact ⟨hashes, tokens, ids.update updated, drawn.update updated, accounts.update updated fun row => ⟨rfl, rfl⟩⟩
  | revoked pid mine account token user rows was updated =>
      exact ⟨hashes.update updated, tokens.update updated (tokenKept_revoke _), ids, drawn, accounts⟩
  | touched pid mine token rows was updated =>
      exact ⟨hashes.update updated, tokens.update updated (tokenKept_touch _), ids, drawn, accounts⟩
  | recorded pid mine entry => exact ⟨hashes, tokens, ids, drawn, accounts⟩
  | committed pid mine =>
      exact ⟨hashes_commit ⟨hashes, tokens, ids, drawn, accounts⟩, tokens.commit,
        ids_commit ⟨hashes, tokens, ids, drawn, accounts⟩,
        drawn.commit accounts fun kept older => kept.id ▸ older, accounts.commit⟩
  | switched accountId isActive rows switching changed =>
      exact ⟨hashes, tokens, ids.amend changed fun row => rfl, drawn.amend changed fun row older => older,
        accounts.amend changed⟩
  | ticked span => exact ⟨hashes, tokens, ids, drawn, accounts⟩

end Rows

section Confinement

/-- Scopes that may be held: known ones, and on a gated stack none that invokes chaos. -/
def Admitted (gate : Bool) (scopes : List String) : Prop :=
  scopes ⊆ allScopes ∧ (gate = true → Scope.chaosInvoke.value ∉ scopes)

theorem Admitted.subset {wide narrow : List String} (admitted : Admitted gate wide) (within : narrow ⊆ wide) :
    Admitted gate narrow :=
  ⟨fun _ held => admitted.1 (within held), fun gated held => admitted.2 gated (within held)⟩

/-- In one of these states the account was active and had these scopes. -/
def Granted (states : List AccountStore) (accountId : Uuid) (scopes : List String) : Prop :=
  ∃ state ∈ states, ∃ account ∈ state.accounts.committed,
    account.id = accountId ∧ account.isActive = true ∧ scopes ⊆ account.scopes

/-- In one of these states the token was stored, not revoked and not expired. -/
def TokenLive (states : List AccountStore) (token : ServiceAccountToken) : Prop :=
  ∃ state ∈ states, token ∈ state.tokens.committed ∧ token.revokedAt = none ∧
    token.expiresAt.any (· < state.clock) = false

def Confers (gate : Bool) (states : List AccountStore) (token : ServiceAccountToken) : Prop :=
  Admitted gate token.scopes ∧ Granted states token.serviceAccountId token.scopes

/-- The principal has the scopes of a live token, and its account was active. -/
def Vouched (gate : Bool) (states : List AccountStore) (principal : MachinePrincipal) : Prop :=
  (∃ token, TokenLive states token ∧ Confers gate states token ∧ token.tokenHash = principal.tokenHash ∧
      token.serviceAccountId = principal.serviceAccountId ∧ token.scopes = principal.scopes) ∧
    ∃ state ∈ states, ∃ account ∈ state.accounts.committed, account.id = principal.serviceAccountId ∧
      account.tenantId = principal.tenantId ∧ account.isActive = true

def RequestConfined (gate : Bool) (states : List AccountStore) : AccountRequest → Prop
  | .naming _ _ scopes _ | .named _ _ scopes _ | .rescopable _ scopes _ => Admitted gate scopes
  | .rescoping _ _ scopes _ => gate = true → Scope.chaosInvoke.value ∉ scopes
  | .mintable account scopes _ _ => Admitted gate scopes ∧ Granted states account.id scopes
  | .tokenChecked token => TokenLive states token ∧ Confers gate states token
  | _ => True

section Later

theorem Granted.later {accountId : Uuid} {scopes : List String} (granted : Granted states accountId scopes)
    (kept : states ⊆ more) : Granted more accountId scopes := by
  obtain ⟨state, visited, account, found⟩ := granted
  exact ⟨state, kept visited, account, found⟩

theorem TokenLive.later {token : ServiceAccountToken} (live : TokenLive states token) (kept : states ⊆ more) : TokenLive more token := by
  obtain ⟨state, visited, found⟩ := live
  exact ⟨state, kept visited, found⟩

theorem Confers.later {token : ServiceAccountToken} (confers : Confers gate states token) (kept : states ⊆ more) :
    Confers gate more token := ⟨confers.1, confers.2.later kept⟩

theorem Vouched.later {principal : MachinePrincipal} (vouched : Vouched gate states principal) (kept : states ⊆ more) :
    Vouched gate more principal := by
  obtain ⟨⟨token, live, confers, same⟩, state, visited, account, found⟩ := vouched
  exact ⟨⟨token, live.later kept, confers.later kept, same⟩, state, kept visited, account, found⟩

theorem RequestConfined.later {request : AccountRequest} (confined : RequestConfined gate states request)
    (kept : states ⊆ more) : RequestConfined gate more request := by
  cases request with
  | mintable account scopes ttl user => exact ⟨confined.1, confined.2.later kept⟩
  | tokenChecked token => exact ⟨confined.1.later kept, confined.2.later kept⟩
  | _ => exact confined

end Later

/-- Everything the tables and the requests hold is confined. -/
structure Confined (gate : Bool) (states : List AccountStore) (store : AccountStore) : Prop where
  accounts : store.accounts.Sound fun account => Admitted gate account.scopes
  rescopes : store.accounts.Changes fun row next => Admitted gate row.scopes → Admitted gate next.scopes
  tokens : store.tokens.Sound (Confers gate states)
  requests : ∀ pid, RequestConfined gate states (store.request pid)
  principals : ∀ principal ∈ store.principals, Vouched gate states principal

theorem confined_initial : Confined gate states initial where
  accounts := IndexedRows.sound_empty
  rescopes := IndexedRows.changes_empty
  tokens := IndexedRows.sound_empty
  requests _ := trivial
  principals _ absent := by cases absent

theorem Confined.later (confined : Confined gate states before) (kept : states ⊆ more) : Confined gate more before where
  accounts := confined.accounts
  rescopes := confined.rescopes
  tokens := confined.tokens.mono fun _ confers => confers.later kept
  requests pid := (confined.requests pid).later kept
  principals principal held := (confined.principals principal held).later kept

/-- A gated stack has chaos disabled and every call come by the API. -/
def Gated (gate : Bool) (settings : AccountSettings) (action : AccountStore.Action) : Prop :=
  gate = true → settings.chaosEnabled = false ∧ ∀ pid call viaApi user, action = .begin pid call viaApi user → viaApi = true

theorem called_confined {call : AccountCall} {viaApi : Bool} {user : Option Uuid} {valid : List String}
    (gated : Gated gate settings action) (calling : action = .begin pid call viaApi user)
    (admitted : call.precheck viaApi settings.chaosEnabled = .ok valid) :
    RequestConfined gate states (call.first user) := by
  obtain ⟨known, granted⟩ := precheck_ok admitted
  have withheld {scopes : List String} (asked : call.granted = some scopes) :
      gate = true → Scope.chaosInvoke.value ∉ scopes := by
    intro closed
    obtain ⟨disabled, viaApi⟩ := gated closed
    refine assertApiGrantable_ok ?_
    rw [← asked, ← disabled]
    exact granted (viaApi _ _ _ _ calling)
  cases call with
  | create tenantId name scopes => exact ⟨known, withheld rfl⟩
  | updateScopes tenantId accountId scopes => exact withheld rfl
  | mintToken tenantId accountId scopes ttl => trivial
  | revokeToken tenantId accountId tokenId => trivial

theorem Confined.move (confined : Confined gate states before) (visited : before ∈ states)
    (gated : Gated gate settings action) (move : RequestMove settings before action pid was next)
    (earlier : RequestConfined gate states was) : RequestConfined gate states next := by
  cases move with
  | called call viaApi user valid calling admitted => exact called_confined gated calling admitted
  | presented plaintext => trivial
  | named tenantId name scopes user => exact earlier
  | rescopable tenantId accountId account scopes user held known => exact ⟨known, earlier⟩
  | unchanged tenantId accountId scopes user => trivial
  | mintable tenantId accountId account scopes minted ttl user held active known within =>
      exact ⟨(confined.accounts.committed account held).subset within, before, visited, account, held, rfl, active, within⟩
  | located tenantId accountId tokenId account user held => trivial
  | revocable account tokenId token user held owned => trivial
  | alreadyRevoked account tokenId user => trivial
  | checked plaintext token held hash unrevoked unexpired =>
      exact ⟨⟨before, visited, held, unrevoked, unexpired⟩, confined.tokens.committed token held⟩

theorem Confined.entered (confined : Confined gate states before) (fine : RequestConfined gate states next) (other : Pid) :
    RequestConfined gate states ((before.enter pid next).request other) := by
  change RequestConfined gate states (Function.update before.request pid next other)
  rw [Function.update_apply]
  split
  · exact fine
  · exact confined.requests other

theorem Confined.turn (confined : Confined gate states before) (rows : AccountRows before) (visited : before ∈ states)
    (gated : Gated gate settings action) (turn : AccountTurn settings before action after) :
    Confined gate states after := by
  cases turn with
  | moved pid mine next move =>
      exact { confined with requests := confined.entered (confined.move visited gated move (confined.requests pid)) }
  | refused pid mine =>
      exact ⟨confined.accounts.rollback, confined.rescopes.rollback, confined.tokens.rollback, confined.entered trivial,
        confined.principals⟩
  | authenticated pid mine token account was read active =>
      obtain ⟨live, confers⟩ : TokenLive states token ∧ Confers gate states token := by
        have checked := confined.requests pid
        rwa [was] at checked
      obtain ⟨held, id⟩ := account_found read
      refine { confined with requests := confined.entered trivial, principals := fun principal member => ?_ }
      obtain rfl | older := List.mem_cons.mp member
      · exact ⟨⟨token, live, confers, rfl, id.symm, rfl⟩, before, visited, account, held, rfl, rfl, active⟩
      · exact confined.principals principal older
  | created pid mine account accounts was new inserted =>
      have fine : Admitted gate account.scopes := by
        have named := confined.requests pid
        rwa [was] at named
      exact ⟨confined.accounts.insert inserted fine, confined.rescopes.insert inserted, confined.tokens,
        confined.entered trivial, confined.principals⟩
  | minted pid mine account token ttl user tokens was owned inserted =>
      have fine : Confers gate states token := by
        have mintable := confined.requests pid
        rw [was] at mintable
        exact ⟨mintable.1, owned ▸ mintable.2⟩
      exact ⟨confined.accounts, confined.rescopes, confined.tokens.insert inserted fine, confined.entered trivial,
        confined.principals⟩
  | rescoped pid mine account scopes user accounts was updated =>
      have fine : Admitted gate scopes := by
        have rescopable := confined.requests pid
        rwa [was] at rescopable
      exact ⟨confined.accounts.update updated, confined.rescopes.update updated fun row _ => fine, confined.tokens,
        confined.entered trivial, confined.principals⟩
  | revoked pid mine account token user tokens was updated =>
      exact ⟨confined.accounts, confined.rescopes, confined.tokens.update updated, confined.entered trivial,
        confined.principals⟩
  | touched pid mine token tokens was updated =>
      exact ⟨confined.accounts, confined.rescopes, confined.tokens.update updated, confined.entered trivial,
        confined.principals⟩
  | recorded pid mine entry => exact { confined with requests := confined.entered trivial }
  | committed pid mine =>
      have tokens : (before.tokens.commit pid ServiceAccountToken.id).Sound (Confers gate states) :=
        confined.tokens.commit rows.tokens fun kept confers => by
          unfold Confers at confers ⊢
          rwa [kept.scopes, kept.owner]
      exact ⟨confined.accounts.commit confined.rescopes fun kept fine => kept fine, confined.rescopes.commit, tokens,
        confined.entered trivial, confined.principals⟩
  | switched accountId isActive accounts switching changed =>
      exact { confined with
        accounts := confined.accounts.amend changed fun row fine => fine
        rescopes := confined.rescopes.amend changed }
  | ticked span => exact { confined with }

theorem confined_run (gate : Bool) (ran : (machine settings).Run steps last) (gated : ∀ taken ∈ steps, Gated gate settings taken.2) :
    AccountRows last ∧ Confined gate (Machine.visited steps last) last := by
  induction ran with
  | start => exact ⟨accountRows_initial, confined_initial⟩
  | step ran stepped ih =>
      obtain ⟨rows, confined⟩ := ih fun taken older => gated taken (List.mem_cons_of_mem _ older)
      have turn := accountTurn stepped
      have after := confined.turn rows List.mem_cons_self (gated _ List.mem_cons_self) turn
      exact ⟨rows.turn turn, after.later (List.subset_cons_self _ _)⟩

/-- Every account and every token has known scopes only, every token no more than
its account had, active, in some state of the run, and every principal that was
let in has the scopes of a token that was stored, unrevoked and unexpired. -/
theorem scopes_confined (ran : (machine settings).Run steps last) :
    (∀ account ∈ last.accounts.committed, account.scopes ⊆ allScopes) ∧
      (∀ token ∈ last.tokens.committed, Confers false (Machine.visited steps last) token) ∧
      ∀ principal ∈ last.principals, Vouched false (Machine.visited steps last) principal := by
  obtain ⟨-, confined⟩ := confined_run false ran fun _ _ gated => by cases gated
  exact ⟨fun account held => (confined.accounts.committed account held).1, confined.tokens.committed, confined.principals⟩

/-- Where the chaos gate is closed and accounts are administered by the API alone,
nobody is ever let in by an endpoint that requires `chaos:invoke`. -/
theorem chaos_withheld (ran : (machine settings).Run steps last) (closed : settings.chaosEnabled = false)
    (byApi : ∀ taken ∈ steps, ∀ pid call viaApi user, taken.2 = .begin pid call viaApi user → viaApi = true) :
    (∀ account ∈ last.accounts.committed, Scope.chaosInvoke.value ∉ account.scopes) ∧
      (∀ token ∈ last.tokens.committed, Scope.chaosInvoke.value ∉ token.scopes) ∧
      ∀ principal ∈ last.principals, ∀ required, Scope.chaosInvoke ∈ required → missingScopes required principal ≠ [] := by
  obtain ⟨-, confined⟩ := confined_run true ran fun taken member _ => ⟨closed, byApi taken member⟩
  refine ⟨fun account held => (confined.accounts.committed account held).2 rfl,
    fun token held => (confined.tokens.committed token held).1.2 rfl, fun principal held required asked => ?_⟩
  obtain ⟨⟨token, -, confers, -, -, same⟩, -⟩ := confined.principals principal held
  have withheld := confers.1.2 rfl
  rw [same] at withheld
  refine List.ne_nil_of_mem (List.mem_filter.mpr ⟨List.mem_map_of_mem asked, by simpa using withheld⟩)

/-- `hash_token` is left as it is but for a mark. -/
def plainStack : AccountSettings where
  chaosEnabled := false
  hashToken := fun plaintext => "sha256:" ++ plaintext

def agentLetIn : List AccountStore.Action :=
  [.begin 0 (.create 1 "agent" ["telemetry:read", "actions:propose"]) true (some 9), .select 0, .insert 0 "", .record 0,
    .commit 0, .begin 0 (.mintToken 1 0 (some ["telemetry:read"]) none) true (some 9), .select 0, .insert 0 "k", .record 0,
    .commit 0, .present 1 "sa_k", .select 1, .select 1, .update 1, .commit 1]

def agent : MachinePrincipal where
  serviceAccountId := 0
  tenantId := 1
  scopes := ["telemetry:read"]
  tokenHash := "sha256:sa_k"

theorem scopes_confined_agent : ∃ steps last, (machine plainStack).Run steps last ∧ last.principals = [agent] ∧
    Vouched false (Machine.visited steps last) agent := by
  obtain ⟨steps, last, ran, admitted⟩ := @Machine.exists_run _ _ (machine plainStack) agentLetIn
    (fun _ last => decide (last.principals = [agent])) (by decide +kernel)
  have admitted := of_decide_eq_true admitted
  exact ⟨steps, last, ran, admitted, (scopes_confined ran).2.2 agent (admitted ▸ List.mem_cons_self)⟩

/-- The API refuses `chaos:invoke`, and the agent is let in without it. -/
def chaosAsked : List AccountStore.Action :=
  agentLetIn ++ [.begin 2 (.updateScopes 1 0 ["chaos:invoke"]) true (some 9)]

def throughApi : AccountStore.Action → Bool
  | .begin _ _ viaApi _ => viaApi
  | _ => true

theorem chaos_withheld_agent : ∃ last : AccountStore, last.principals = [agent] ∧
    missingScopes [.chaosInvoke] agent ≠ [] := by
  obtain ⟨steps, last, ran, checked⟩ := @Machine.exists_run _ _ (machine plainStack) chaosAsked
    (fun steps last => decide (last.principals = [agent]) && steps.all fun taken => throughApi taken.2) (by decide +kernel)
  obtain ⟨admitted, byApi⟩ := Bool.and_eq_true_iff.mp checked
  have admitted := of_decide_eq_true admitted
  refine ⟨last, admitted, (chaos_withheld ran rfl (fun taken member pid call viaApi user calling => ?_)).2.2 agent
    (admitted ▸ List.mem_cons_self) _ List.mem_cons_self⟩
  have passed := List.all_eq_true.mp byApi taken member
  rw [calling] at passed
  exact passed

end Confinement

section Revocation

variable {token : ServiceAccountToken} {account : ServiceAccount} {hash : String} {accountId : Uuid}

def Lapsed (now : Time) (token : ServiceAccountToken) : Prop :=
  token.revokedAt.isSome = true ∨ token.expiresAt.any (· < now) = true

theorem Lapsed.later {now soon : Time} (lapsed : Lapsed now token) (passed : now ≤ soon) : Lapsed soon token := by
  refine lapsed.imp_right fun expired => ?_
  obtain ⟨expiresAt, held, past⟩ := (Option.any_eq_true _ _).mp expired
  rw [held]
  have past : expiresAt < now := by simpa using past
  simpa using Nat.lt_of_lt_of_le past passed

theorem TokenKept.lapsed {now : Time} {row next : ServiceAccountToken} (kept : TokenKept row next)
    (lapsed : Lapsed now row) : Lapsed now next := by
  unfold Lapsed
  rw [kept.expiresAt]
  exact lapsed.imp_left kept.revoked

/-- The one token with this hash has lapsed, and no request has checked it before. -/
structure Dead (hash : String) (store : AccountStore) : Prop where
  stored : ∃ token ∈ store.tokens.committed, token.tokenHash = hash
  lapsed : store.tokens.Sound fun token => token.tokenHash = hash → Lapsed store.clock token
  unchecked : ∀ pid token, store.request pid = .tokenChecked token → token.tokenHash ≠ hash

theorem Dead.entered (dead : Dead hash before) (fine : ∀ token, next = .tokenChecked token → token.tokenHash ≠ hash)
    (other : Pid) (token : ServiceAccountToken) (reached : (before.enter pid next).request other = .tokenChecked token) :
    token.tokenHash ≠ hash := by
  change Function.update before.request pid next other = _ at reached
  rw [Function.update_apply] at reached
  split at reached
  · exact fine token reached
  · exact dead.unchecked other token reached

theorem Dead.move (dead : Dead hash before) (move : RequestMove settings before action pid was next)
    (token : ServiceAccountToken) (reached : next = .tokenChecked token) : token.tokenHash ≠ hash := by
  cases move with
  | called call viaApi user valid calling admitted => cases call <;> cases reached
  | checked plaintext token held same unrevoked unexpired =>
      cases reached
      rintro rfl
      obtain revoked | expired := dead.lapsed.committed token held rfl
      · rw [unrevoked] at revoked
        cases revoked
      · rw [unexpired] at expired
        cases expired
  | _ => cases reached

theorem Dead.turn (dead : Dead hash before) (rows : AccountRows before) (turn : AccountTurn settings before action after) :
    Dead hash after := by
  have elsewhere {pid : Pid} {next : AccountRequest} (otherwise : ∀ token, next ≠ .tokenChecked token) (other : Pid)
      (token : ServiceAccountToken) (reached : (before.enter pid next).request other = .tokenChecked token) :
      token.tokenHash ≠ hash :=
    dead.entered (fun token reached => absurd reached (otherwise token)) other token reached
  cases turn with
  | moved pid mine next move => exact { dead with unchecked := dead.entered (dead.move move) }
  | refused pid mine => exact ⟨dead.stored, dead.lapsed.rollback, elsewhere fun _ absurd => by cases absurd⟩
  | authenticated pid mine token account was read active =>
      exact { dead with unchecked := elsewhere fun _ absurd => by cases absurd }
  | created pid mine account accounts was new inserted =>
      exact { dead with unchecked := elsewhere fun _ absurd => by cases absurd }
  | minted pid mine account token ttl user tokens was owned inserted =>
      -- The unique index keeps the hash of the dead token.
      have fresh : token.tokenHash ≠ hash := by
        obtain ⟨-, free⟩ := IndexedRows.insert_cases inserted
        obtain ⟨stored, held, same⟩ := dead.stored
        intro reused
        exact free token.tokenHash rfl stored (List.mem_append_left _ held) (by rw [reused, ← same]; rfl)
      have kept := dead.lapsed.insert inserted fun same => absurd same fresh
      obtain ⟨rfl, -⟩ := IndexedRows.insert_cases inserted
      exact ⟨dead.stored, kept, elsewhere fun _ absurd => by cases absurd⟩
  | rescoped pid mine account scopes user accounts was updated =>
      exact { dead with unchecked := elsewhere fun _ absurd => by cases absurd }
  | revoked pid mine account token user tokens was updated =>
      exact ⟨by simpa [IndexedRows.update_committed updated] using dead.stored, dead.lapsed.update updated,
        elsewhere fun _ absurd => by cases absurd⟩
  | touched pid mine token tokens was updated =>
      exact ⟨by simpa [IndexedRows.update_committed updated] using dead.stored, dead.lapsed.update updated,
        elsewhere fun _ absurd => by cases absurd⟩
  | recorded pid mine entry => exact { dead with unchecked := elsewhere fun _ absurd => by cases absurd }
  | committed pid mine =>
      refine ⟨rows.tokens.stored (fun kept same => kept.hash.trans same) dead.stored,
        dead.lapsed.commit rows.tokens fun kept lapsed same => ?_, elsewhere fun _ absurd => by cases absurd⟩
      exact kept.lapsed (lapsed (kept.hash.symm.trans same))
  | switched accountId isActive accounts switching changed => exact { dead with }
  | ticked span =>
      exact { dead with lapsed := dead.lapsed.mono fun token lapsed same => (lapsed same).later (Nat.le_add_right _ _) }

/-- The account is disabled, and no other has its id. -/
structure Disabled (accountId : Uuid) (store : AccountStore) : Prop where
  drawn : accountId < store.drawn
  inactive : store.accounts.Sound fun account => account.id = accountId → account.isActive = false

theorem Disabled.turn (disabled : Disabled accountId before) (rows : AccountRows before)
    (off : action ≠ .setActive accountId true) (turn : AccountTurn settings before action after) :
    Disabled accountId after := by
  cases turn with
  | moved pid mine next move => exact { disabled with }
  | refused pid mine => exact ⟨disabled.drawn, disabled.inactive.rollback⟩
  | authenticated pid mine token account was read active => exact { disabled with }
  | created pid mine account accounts was new inserted =>
      refine ⟨Nat.lt_succ_of_lt disabled.drawn, disabled.inactive.insert inserted fun same => ?_⟩
      exact absurd (same.symm.trans new) (Nat.ne_of_lt disabled.drawn)
  | minted pid mine account token ttl user tokens was owned inserted =>
      exact ⟨Nat.lt_succ_of_lt disabled.drawn, disabled.inactive⟩
  | rescoped pid mine account scopes user accounts was updated => exact ⟨disabled.drawn, disabled.inactive.update updated⟩
  | revoked pid mine account token user tokens was updated => exact { disabled with }
  | touched pid mine token tokens was updated => exact { disabled with }
  | recorded pid mine entry => exact { disabled with }
  | committed pid mine =>
      refine ⟨disabled.drawn, disabled.inactive.commit rows.accounts fun kept inactive same => ?_⟩
      exact kept.isActive.trans (inactive (kept.id.symm.trans same))
  | switched switchedId isActive accounts switching changed =>
      subst switching
      refine ⟨disabled.drawn, ?_⟩
      obtain rfl := IndexedRows.amend_cases changed
      refine ⟨fun row held same => ?_, disabled.inactive.inserted⟩
      obtain ⟨earlier, older, rfl⟩ := List.mem_map.mp held
      rw [IndexedRows.amended_one] at same ⊢
      split at same
      · rename_i here
        rw [if_pos here]
        obtain rfl : switchedId = accountId := here.symm.trans same
        cases isActive with
        | false => rfl
        | true => exact absurd rfl off
      · rename_i elsewhere
        rw [if_neg elsewhere]
        exact disabled.inactive.committed earlier older same
  | ticked span => exact { disabled with }

theorem turn_principals (turn : AccountTurn settings before action after) :
    after.principals = before.principals ∨ ∃ pid token account, before.request pid = .tokenChecked token ∧
      before.account token.serviceAccountId = some account ∧ account.isActive = true ∧
        after.principals = machinePrincipal account token :: before.principals := by
  cases turn with
  | authenticated pid mine token account was read active => exact .inr ⟨pid, token, account, was, read, active, rfl⟩
  | _ => exact .inl rfl

theorem refused_throughout {refused : MachinePrincipal → Prop} (holds : AccountStore → Prop)
    (ran : (machine settings).Segment start steps last) (initially : holds start)
    (kept : ∀ {before action after}, (before, action) ∈ steps → holds before → AccountTurn settings before action after →
      holds after)
    (refuses : ∀ {store pid token account}, holds store → store.request pid = .tokenChecked token →
      store.account token.serviceAccountId = some account → account.isActive = true →
        ¬ refused (machinePrincipal account token)) :
    ∃ letIn, last.principals = letIn ++ start.principals ∧ ∀ principal ∈ letIn, ¬ refused principal := by
  have always := @Machine.Segment.keeps _ _ _ _ _ _ (fun state => holds state ∧ ∃ letIn,
    state.principals = letIn ++ start.principals ∧ ∀ principal ∈ letIn, ¬ refused principal) ran
    ⟨initially, [], rfl, fun _ absurd => by cases absurd⟩ fun member earlier stepped => by
      obtain ⟨held, letIn, same, others⟩ := earlier
      have turn := accountTurn stepped
      refine ⟨kept member held turn, ?_⟩
      obtain unchanged | ⟨pid, token, account, checked, read, active, grown⟩ := turn_principals turn
      · exact ⟨letIn, unchanged.trans same, others⟩
      · refine ⟨_ :: letIn, by rw [grown, same]; rfl, fun principal newest => ?_⟩
        obtain rfl | older := List.mem_cons.mp newest
        · exact refuses held checked read active
        · exact others principal older
  exact always.2

theorem accountRows_run (ran : (machine settings).Run steps last) : AccountRows last :=
  (confined_run false ran fun _ _ gated => by cases gated).1

theorem request_untouched (ran : (machine settings).Run steps last) (idle : ∀ taken ∈ steps, taken.2.actor ≠ some pid) :
    last.request pid = .idle :=
  @Machine.Segment.keeps _ _ _ _ _ _ (fun state => state.request pid = .idle) ran rfl fun member earlier stepped =>
    (turn_elsewhere (accountTurn stepped) (idle _ member)).trans earlier

/-- A token that has been revoked or has expired lets nobody in any more, whatever
the administrators do, but for requests that had checked it before. -/
theorem lapsed_token_refused {earlier : List (AccountStore × AccountStore.Action)}
    (reached : (machine settings).Run earlier start) (ran : (machine settings).Segment start steps last)
    (stored : token ∈ start.tokens.committed) (lapsed : Lapsed start.clock token)
    (unchecked : ∀ pid checked, start.request pid = .tokenChecked checked → checked.tokenHash ≠ token.tokenHash) :
    ∃ letIn, last.principals = letIn ++ start.principals ∧
      ∀ principal ∈ letIn, principal.tokenHash ≠ token.tokenHash := by
  have rows := accountRows_run reached
  have dead : Dead token.tokenHash start := by
    refine ⟨⟨token, stored, rfl⟩, ?_, unchecked⟩
    refine (rows.hashes.sound stored rfl lapsed).mono fun other fine same => fine ?_
    rw [← same]
    rfl
  refine refused_throughout (fun store => AccountRows store ∧ Dead token.tokenHash store) ran ⟨rows, dead⟩
    (fun _ held turn => ⟨held.1.turn turn, held.2.turn held.1 turn⟩) ?_
  intro store pid checked account held reached _ _
  exact held.2.unchecked pid checked reached

def revokedBetween : List AccountStore.Action :=
  agentLetIn ++ [.begin 0 (.revokeToken 1 0 1) true (some 9), .select 0, .select 0, .update 0, .record 0, .commit 0,
    .present 1 "sa_k", .select 1]

/-- Before the last two steps the token of the agent has lapsed, and no request is open. -/
def lapsedBefore : List (AccountStore × AccountStore.Action) → Bool
  | _ :: (start, _) :: earlier =>
      (start.tokens.committed.any fun token => decide (token.tokenHash = agent.tokenHash ∧ token.revokedAt.isSome)) &&
        decide (start.request 0 = .idle ∧ start.request 1 = .idle) &&
        earlier.all fun taken => decide (taken.2.actor = some 0 ∨ taken.2.actor = some 1)
  | _ => false

theorem lapsed_token_refused_revoked : ∃ start last : AccountStore, (∃ token ∈ start.tokens.committed,
    token.tokenHash = agent.tokenHash ∧ token.revokedAt.isSome = true) ∧ ∃ letIn,
      last.principals = letIn ++ start.principals ∧ ∀ principal ∈ letIn, principal.tokenHash ≠ agent.tokenHash := by
  obtain ⟨steps, last, ran, checked⟩ := @Machine.exists_run _ _ (machine plainStack) revokedBetween
    (fun steps _ => lapsedBefore steps) (by decide +kernel)
  match steps, ran, checked with
  | (middle, second) :: (start, first) :: earlier, .step (.step reached steppedFirst) steppedSecond, checked =>
      simp only [lapsedBefore, Bool.and_eq_true, List.any_eq_true, List.all_eq_true, decide_eq_true_eq] at checked
      obtain ⟨⟨⟨token, stored, hash, revoked⟩, idle⟩, acting⟩ := checked
      have quiet (pid : Pid) : start.request pid = .idle := by
        by_cases zero : pid = 0
        · exact zero ▸ idle.1
        · by_cases one : pid = 1
          · exact one ▸ idle.2
          · refine request_untouched reached fun taken member acts => ?_
            have acted := acting taken member
            rw [acts] at acted
            simp [zero, one] at acted
      have refused := lapsed_token_refused reached (.step (.step .start steppedFirst) steppedSecond) stored (.inl revoked)
        fun pid checked was => by
          rw [quiet pid] at was
          cases was
      rw [hash] at refused
      exact ⟨start, last, ⟨token, stored, hash, revoked⟩, refused⟩

/-- Nobody gets in as a disabled account, not even with a token checked before,
until an operator enables it again. -/
theorem disabled_account_refused {earlier : List (AccountStore × AccountStore.Action)}
    (reached : (machine settings).Run earlier start) (ran : (machine settings).Segment start steps last)
    (stored : account ∈ start.accounts.committed) (disabled : account.isActive = false)
    (off : ∀ taken ∈ steps, taken.2 ≠ .setActive account.id true) :
    ∃ letIn, last.principals = letIn ++ start.principals ∧
      ∀ principal ∈ letIn, principal.serviceAccountId ≠ account.id := by
  have rows := accountRows_run reached
  have inactive : Disabled account.id start := by
    refine ⟨rows.drawn.committed account stored, ?_⟩
    refine (rows.ids.sound stored rfl disabled).mono fun other fine same => fine ?_
    rw [same]
  refine refused_throughout (fun store => AccountRows store ∧ Disabled account.id store) ran ⟨rows, inactive⟩
    (fun member held turn => ⟨held.1.turn turn, held.2.turn held.1 (off _ member) turn⟩) ?_
  intro store pid checked found held _ read active same
  obtain ⟨member, -⟩ := account_found read
  have refused := held.2.inactive.committed found member same
  rw [active] at refused
  cases refused

def checksAgent : AccountRequest → Bool
  | .tokenChecked token => decide (token.serviceAccountId = 0)
  | _ => false

def disabledBetween : List AccountStore.Action :=
  agentLetIn ++ [.present 1 "sa_k", .select 1, .setActive 0 false, .select 1]

/-- The last step reads account 0, which is disabled, for a token checked before. -/
def disabledLast : List (AccountStore × AccountStore.Action) → Bool
  | (start, action) :: _ =>
      (start.accounts.committed.any fun account => decide (account.id = 0 ∧ account.isActive = false)) &&
        checksAgent (start.request 1) && decide (action = .select 1)
  | _ => false

theorem disabled_account_refused_between : ∃ start last : AccountStore,
    (∃ account ∈ start.accounts.committed, account.id = 0 ∧ account.isActive = false) ∧
      (∃ token, start.request 1 = .tokenChecked token ∧ token.serviceAccountId = 0) ∧ ∃ letIn,
        last.principals = letIn ++ start.principals ∧ ∀ principal ∈ letIn, principal.serviceAccountId ≠ 0 := by
  obtain ⟨steps, last, ran, checked⟩ := @Machine.exists_run _ _ (machine plainStack) disabledBetween
    (fun steps _ => disabledLast steps) (by decide +kernel)
  match steps, ran, checked with
  | (start, action) :: earlier, .step reached stepped, checked =>
      simp only [disabledLast, Bool.and_eq_true, List.any_eq_true, decide_eq_true_eq] at checked
      obtain ⟨⟨⟨account, stored, id, inactive⟩, reading⟩, rfl⟩ := checked
      have refused := disabled_account_refused reached (.step .start stepped) stored inactive fun taken member => by
        obtain rfl := List.mem_singleton.mp member
        exact fun absurd => by cases absurd
      rw [id] at refused
      refine ⟨start, last, ⟨account, stored, id, inactive⟩, ?_, refused⟩
      unfold checksAgent at reading
      split at reading
      · rename_i token was
        exact ⟨token, was, of_decide_eq_true reading⟩
      · cases reading

end Revocation

end IncidentPlatform.Properties

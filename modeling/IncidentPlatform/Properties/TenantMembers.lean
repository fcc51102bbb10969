import IncidentPlatform.Properties.AuthSteps

namespace IncidentPlatform.Properties

open Concurrency Models Services Storage

/-! # Who is a member of a tenant -/

variable {before after last : AuthStore} {action : AuthStore.Action} {pid : Pid} {next : AuthRequest} {user : UserRow}
  {tenant : TenantRow} {founded : Option TenantRow} {steps : List (AuthStore × AuthStore.Action)}

section Written

def foundedRows : AuthRequest → List TenantRow
  | .joining founded _ _ | .registered founded _ | .recorded founded _ _ => founded.toList
  | .tenantCreated _ tenant => [tenant]
  | _ => []

def memberRows : AuthRequest → List UserRow
  | .registered _ user | .enrolled _ user => [user]
  | .recorded _ user _ => user.toList
  | _ => []

def entryRows : AuthRequest → List AuditEntry
  | .recorded _ _ entry => [entry]
  | _ => []

/-- The tables hold for each request what it has written, and no statement
changes a row. -/
structure RowsWritten (store : AuthStore) : Prop where
  tenants : ∀ pid, store.tenants.insertedBy pid = foundedRows (store.request pid)
  users : ∀ pid, store.users.insertedBy pid = memberRows (store.request pid)
  entries : ∀ pid, store.audit.pending pid = entryRows (store.request pid)
  quiet : store.tenants.changed = [] ∧ store.users.changed = []

theorem rowsWritten_initial : RowsWritten AuthStore.initial where
  tenants _ := rfl
  users _ := rfl
  entries _ := rfl
  quiet := ⟨rfl, rfl⟩

theorem request_entered {other : Pid} :
    (before.enter pid next).request other = if other = pid then next else before.request other :=
  Function.update_apply _ _ _ _

theorem rows_entered {Rows : Type} {written : Pid → Rows} {rows : AuthRequest → Rows} (own : written pid = rows next)
    (others : ∀ other, other ≠ pid → written other = rows (before.request other)) (other : Pid) :
    written other = rows ((before.enter pid next).request other) := by
  rw [request_entered]
  split
  · rename_i same
    rw [same]
    exact own
  · rename_i different
    exact others other different

theorem AuthMove.unwritten {was : AuthRequest} (move : AuthMove before action pid was next) :
    (foundedRows was = [] ∧ foundedRows next = []) ∧ (memberRows was = [] ∧ memberRows next = []) ∧
      entryRows was = [] ∧ entryRows next = [] := by
  cases move <;> exact ⟨⟨rfl, rfl⟩, ⟨rfl, rfl⟩, rfl, rfl⟩

theorem TenantMove.written {was : AuthRequest} (move : TenantMove tenant was next) :
    (foundedRows was = [] ∧ foundedRows next = [tenant]) ∧ (memberRows was = [] ∧ memberRows next = []) ∧
      entryRows was = [] ∧ entryRows next = [] := by
  cases move <;> exact ⟨⟨rfl, rfl⟩, ⟨rfl, rfl⟩, rfl, rfl⟩

theorem UserMove.written {was : AuthRequest} (move : UserMove user was next) :
    foundedRows was = foundedRows next ∧ (memberRows was = [] ∧ memberRows next = [user]) ∧
      entryRows was = [] ∧ entryRows next = [] := by
  cases move <;> exact ⟨rfl, ⟨rfl, rfl⟩, rfl, rfl⟩

theorem EntryMove.written {was : AuthRequest} {member : Option UserRow} {entry : AuditEntry}
    (move : EntryMove was founded member entry) :
    foundedRows was = founded.toList ∧ memberRows was = member.toList ∧ entryRows was = [] := by
  cases move <;> exact ⟨rfl, rfl, rfl⟩

theorem RowsWritten.turn (written : RowsWritten before) (turn : AuthTurn before action after) : RowsWritten after := by
  obtain ⟨tenants, users, entries, quiet⟩ := written
  cases turn with
  | moved pid next move =>
      obtain ⟨founds, members, rows⟩ := move.unwritten
      exact ⟨rows_entered ((tenants pid).trans (founds.1.trans founds.2.symm)) fun other _ => tenants other,
        rows_entered ((users pid).trans (members.1.trans members.2.symm)) fun other _ => users other,
        rows_entered ((entries pid).trans (rows.1.trans rows.2.symm)) fun other _ => entries other, quiet⟩
  | refused pid =>
      refine ⟨rows_entered (IndexedRows.rollback_insertedBy.trans (if_pos rfl)) ?_,
        rows_entered (IndexedRows.rollback_insertedBy.trans (if_pos rfl)) ?_, rows_entered (if_pos rfl) ?_, ?_⟩
      · exact fun other different => (IndexedRows.rollback_insertedBy.trans (if_neg different)).trans (tenants other)
      · exact fun other different => (IndexedRows.rollback_insertedBy.trans (if_neg different)).trans (users other)
      · exact fun other different => (if_neg different).trans (entries other)
      · exact ⟨by simp [AuthStore.refuse, IndexedRows.rollback, quiet.1], by simp [AuthStore.refuse, IndexedRows.rollback, quiet.2]⟩
  | tenantInserted pid tenant next rows move new inserted =>
      obtain ⟨rfl, -⟩ := IndexedRows.insert_cases inserted
      obtain ⟨founds, members, none⟩ := move.written
      refine ⟨rows_entered ?_ ?_, rows_entered ((users pid).trans (members.1.trans members.2.symm)) fun other _ => users other,
        rows_entered ((entries pid).trans (none.1.trans none.2.symm)) fun other _ => entries other, quiet⟩
      · rw [IndexedRows.add_insertedBy, if_pos rfl, tenants, founds.1, founds.2]
        rfl
      · intro other different
        rw [IndexedRows.add_insertedBy, if_neg different, tenants]
  | userInserted pid user next rows move inserted =>
      obtain ⟨rfl, -⟩ := IndexedRows.insert_cases inserted
      obtain ⟨founds, members, none⟩ := move.written
      refine ⟨rows_entered ((tenants pid).trans founds) fun other _ => tenants other, rows_entered ?_ ?_,
        rows_entered ((entries pid).trans (none.1.trans none.2.symm)) fun other _ => entries other, quiet⟩
      · rw [IndexedRows.add_insertedBy, if_pos rfl, users, members.1, members.2]
        rfl
      · intro other different
        rw [IndexedRows.add_insertedBy, if_neg different, users]
  | recorded pid founded user entry move =>
      obtain ⟨founds, members, none⟩ := move.written
      refine ⟨rows_entered ((tenants pid).trans founds) fun other _ => tenants other,
        rows_entered ((users pid).trans members) fun other _ => users other, rows_entered ?_ ?_, quiet⟩
      · exact (if_pos rfl).trans (by rw [entries, none]; rfl)
      · exact fun other different => (if_neg different).trans (entries other)
  | committed pid founded user entry was =>
      refine ⟨rows_entered (IndexedRows.commit_insertedBy.trans (if_pos rfl)) ?_,
        rows_entered (IndexedRows.commit_insertedBy.trans (if_pos rfl)) ?_, rows_entered (if_pos rfl) ?_, ?_⟩
      · exact fun other different => (IndexedRows.commit_insertedBy.trans (if_neg different)).trans (tenants other)
      · exact fun other different => (IndexedRows.commit_insertedBy.trans (if_neg different)).trans (users other)
      · exact fun other different => (if_neg different).trans (entries other)
      · exact ⟨by simp [IndexedRows.commit, IndexedRows.rollback, quiet.1], by simp [IndexedRows.commit, IndexedRows.rollback, quiet.2]⟩
  | provisioned user rows default stored =>
      obtain ⟨rfl, -⟩ := IndexedRows.store_cases stored
      exact ⟨tenants, users, entries, quiet⟩
  | tenantSwitched tenantId isActive rows changed =>
      obtain rfl := IndexedRows.amend_cases changed
      exact ⟨tenants, users, entries, quiet⟩
  | userSwitched userId isActive rows changed =>
      obtain rfl := IndexedRows.amend_cases changed
      exact ⟨tenants, users, entries, quiet⟩

end Written

section Tenants

/-- No two tenants have a slug or an id in common, ids have been drawn, and the
slug of the default tenant is taken. -/
structure TenantRows (store : AuthStore) : Prop where
  slugs : store.tenants.Distinct TenantRow.index
  ids : store.tenants.Distinct fun tenant => some tenant.id
  drawn : store.tenants.Sound fun tenant => tenant.id < store.drawn
  default : ∃ tenant ∈ store.tenants.committed, tenant.slug = defaultTenantSlug ∧ tenant.id = defaultTenantId

theorem tenantRows_initial : TenantRows AuthStore.initial where
  slugs := List.nodup_singleton _
  ids := List.nodup_singleton _
  drawn := by
    refine ⟨fun tenant held => ?_, fun entry absent => by cases absent⟩
    obtain rfl := List.mem_singleton.mp held
    exact Nat.lt_succ_self _
  default := ⟨defaultTenant, List.mem_singleton_self _, rfl, rfl⟩

theorem TenantRows.turn (rows : TenantRows before) (written : RowsWritten before) (turn : AuthTurn before action after) :
    TenantRows after := by
  obtain ⟨slugs, ids, drawn, default⟩ := rows
  cases turn with
  | moved pid next move => exact ⟨slugs, ids, drawn, default⟩
  | refused pid => exact ⟨slugs.rollback, ids.rollback, drawn.rollback, default⟩
  | tenantInserted pid tenant next rows move new inserted =>
      have fresh : before.tenants.Free (fun row => some row.id) tenant.id := by
        intro stored held same
        have older : stored.id < before.drawn := by
          obtain committed | inserted := List.mem_append.mp held
          · exact drawn.committed stored committed
          · obtain ⟨entry, member, rfl⟩ := List.mem_map.mp inserted
            exact drawn.inserted entry member
        exact Nat.ne_of_lt older ((Option.some.inj same).trans new)
      have later : before.tenants.Sound fun row => row.id < before.drawn + 1 := drawn.mono fun row older =>
        Nat.lt_succ_of_lt older
      have distinct := slugs.insert inserted
      have sound := later.insert inserted (new ▸ Nat.lt_succ_self _)
      obtain ⟨rfl, -⟩ := IndexedRows.insert_cases inserted
      refine ⟨distinct, ids.add ?_, sound, default⟩
      rintro _ ⟨⟩
      exact fresh
  | userInserted pid user next rows move inserted =>
      exact ⟨slugs, ids, drawn.mono fun row older => Nat.lt_succ_of_lt older, default⟩
  | recorded pid founded user entry move => exact ⟨slugs, ids, drawn, default⟩
  | committed pid founded user entry was =>
      obtain ⟨tenant, held, same⟩ := default
      refine ⟨slugs.commit_quiet written.quiet.1, ids.commit_quiet written.quiet.1, drawn.commit_quiet written.quiet.1,
        tenant, ?_, same⟩
      exact IndexedRows.commit_quiet written.quiet.1 ▸ List.mem_append_left _ held
  | provisioned user rows default' stored =>
      exact ⟨slugs, ids, drawn.mono fun row older => Nat.lt_succ_of_lt older, default⟩
  | tenantSwitched tenantId isActive rows changed =>
      refine ⟨slugs.amend changed fun row => rfl, ids.amend changed fun row => rfl,
        drawn.amend changed fun row older => older, ?_⟩
      obtain ⟨tenant, held, same⟩ := default
      obtain rfl := IndexedRows.amend_cases changed
      refine ⟨_, List.mem_map_of_mem held, ?_⟩
      rw [IndexedRows.amended_one]
      split <;> exact same
  | userSwitched userId isActive rows changed => exact ⟨slugs, ids, drawn, default⟩

theorem TenantRows.default_id (rows : TenantRows before) (held : tenant ∈ before.tenants.committed)
    (slug : tenant.slug = defaultTenantSlug) : tenant.id = defaultTenantId := by
  obtain ⟨default, stored, same, id⟩ := rows.default
  obtain rfl : default = tenant := IndexedRows.eq_of_nodup_filterMap rows.slugs.committed stored held rfl
    (by rw [TenantRow.index, slug, same])
  exact id

end Tenants

section Homes

def TenantStored (store : AuthStore) (tenantId : Uuid) : Prop := ∃ tenant ∈ store.tenants.committed, tenant.id = tenantId

/-- An admin belongs to the tenant that its own request has founded, and others to a stored one. -/
def HomeOf (store : AuthStore) (founded : Option TenantRow) (user : UserRow) : Prop :=
  (∃ tenant, founded = some tenant ∧ user.tenantId = tenant.id ∧ user.role = .admin) ∨
    user.role = .user ∧ TenantStored store user.tenantId

def RequestHoused (store : AuthStore) : AuthRequest → Prop
  | .joining founded tenantId _ => tenantId = founded.elim defaultTenantId TenantRow.id
  | .registered founded user | .recorded founded (some user) _ => HomeOf store founded user
  | .enrollingAs admin _ | .enrollable admin _ => TenantStored store admin.tenantId
  | .enrolled _ user => HomeOf store none user
  | _ => True

def adminKey (user : UserRow) : Option Uuid :=
  if user.role = .admin ∧ user.tenantId ≠ defaultTenantId then some user.tenantId else none

theorem adminKey_eq_some {tenantId : Uuid} :
    adminKey user = some tenantId ↔ user.role = .admin ∧ user.tenantId ≠ defaultTenantId ∧ user.tenantId = tenantId := by
  unfold adminKey
  split
  · rename_i admin
    simp [admin]
  · rename_i other
    simp only [reduceCtorEq, false_iff]
    rintro ⟨role, elsewhere, -⟩
    exact other ⟨role, elsewhere⟩

/-- Every member belongs to a stored tenant, or to one of its own transaction, and
no tenant but the default one has two admins. -/
structure Housed (store : AuthStore) : Prop where
  committed : ∀ user ∈ store.users.committed, TenantStored store user.tenantId
  requests : ∀ pid, RequestHoused store (store.request pid)
  admins : store.users.Distinct adminKey

theorem housed_initial : Housed AuthStore.initial where
  committed _ absent := by cases absent
  requests _ := trivial
  admins := List.nodup_nil

theorem HomeOf.later (home : HomeOf before founded user) (kept : ∀ tenantId, TenantStored before tenantId → TenantStored after tenantId) :
    HomeOf after founded user := home.imp_right fun member => ⟨member.1, kept _ member.2⟩

theorem RequestHoused.later {request : AuthRequest} (placed : RequestHoused before request)
    (kept : ∀ tenantId, TenantStored before tenantId → TenantStored after tenantId) : RequestHoused after request := by
  cases request with
  | joining founded tenantId email => exact placed
  | registered founded user => exact HomeOf.later placed kept
  | recorded founded user entry =>
      cases user with
      | none => trivial
      | some user => exact HomeOf.later placed kept
  | enrollingAs admin email => exact kept _ placed
  | enrollable admin email => exact kept _ placed
  | enrolled admin user => exact HomeOf.later placed kept
  | _ => trivial

theorem Housed.entered (housed : Housed before) (next : AuthRequest) (placed : RequestHoused before next)
    (kept : ∀ tenantId, TenantStored before tenantId → TenantStored after tenantId)
    (entered : after.request = (before.enter pid next).request) (other : Pid) : RequestHoused after (after.request other) := by
  rw [entered, request_entered]
  split
  · exact placed.later kept
  · exact (housed.requests other).later kept

theorem Housed.home (housed : Housed before) (written : RowsWritten before) (held : (pid, user) ∈ before.users.inserted) :
    ∃ founded, HomeOf before founded user ∧ ∀ tenant, founded = some tenant → (pid, tenant) ∈ before.tenants.inserted := by
  have member : user ∈ memberRows (before.request pid) := written.users pid ▸ IndexedRows.mem_ofPid.mpr held
  have placed := housed.requests pid
  have rows := written.tenants pid
  cases was : before.request pid with
  | registered founded other =>
      rw [was] at member placed rows
      obtain rfl := List.mem_singleton.mp member
      refine ⟨founded, placed, fun tenant same => IndexedRows.mem_ofPid.mp ?_⟩
      change tenant ∈ before.tenants.insertedBy pid
      rw [rows, same]
      exact List.mem_singleton_self _
  | enrolled admin other =>
      rw [was] at member placed
      obtain rfl := List.mem_singleton.mp member
      exact ⟨none, placed, fun tenant absurd => by cases absurd⟩
  | recorded founded other entry =>
      rw [was] at member placed rows
      obtain rfl := Option.mem_toList.mp member
      refine ⟨founded, placed, fun tenant same => IndexedRows.mem_ofPid.mp ?_⟩
      change tenant ∈ before.tenants.insertedBy pid
      rw [rows, same]
      exact List.mem_singleton_self _
  | _ =>
      rw [was] at member
      cases member

theorem Housed.admin_free (housed : Housed before) (written : RowsWritten before) (rows : TenantRows before)
    (mine : (pid, tenant) ∈ before.tenants.inserted) (memberless : memberRows (before.request pid) = []) :
    before.users.Free adminKey tenant.id := by
  intro stored held keyed
  obtain ⟨role, -, same⟩ := adminKey_eq_some.mp keyed
  obtain committed | inserted := List.mem_append.mp held
  · obtain ⟨home, there, id⟩ := housed.committed stored committed
    exact rows.ids.unstored mine rfl there (by rw [id, same])
  · obtain ⟨⟨other, row⟩, member, rfl⟩ := List.mem_map.mp inserted
    obtain ⟨founded, ⟨theirs, rfl, id, -⟩ | ⟨plain, -⟩, founds⟩ := housed.home written member
    · have pids := rows.ids.sole mine (founds theirs rfl) rfl (by rw [← id, same])
      obtain ⟨rfl, -⟩ := Prod.mk.inj pids
      have own : row ∈ before.users.insertedBy pid := IndexedRows.mem_ofPid.mpr member
      rw [written.users, memberless] at own
      cases own
    · rw [plain] at role
      cases role

theorem RequestHoused.inserted {was : AuthRequest} (move : UserMove user was next) (placed : RequestHoused before was)
    (default : TenantStored before defaultTenantId) : RequestHoused before next ∧ ∃ founded, foundedRows was = founded.toList ∧
      HomeOf before founded user := by
  cases move with
  | registered founded role =>
      have home : HomeOf before founded user := by
        cases founded with
        | none => exact .inr ⟨role, placed ▸ default⟩
        | some tenant => exact .inl ⟨tenant, rfl, placed, role⟩
      exact ⟨home, founded, rfl, home⟩
  | enrolled admin role tenant =>
      have home : HomeOf before none user := .inr ⟨role, tenant ▸ placed⟩
      exact ⟨home, none, rfl, home⟩

theorem RequestHoused.moved {was : AuthRequest} (move : AuthMove before action pid was next) (housed : Housed before)
    (rows : TenantRows before) (placed : RequestHoused before was) : RequestHoused before next := by
  cases move with
  | joining email slug newTenantName tenant held slugged => exact rows.default_id held slugged
  | enrollingAs claims email admin held id active role => exact housed.committed admin held
  | enrollable admin email => exact placed
  | _ => trivial

theorem RequestHoused.founds {was : AuthRequest} (move : TenantMove tenant was next) : RequestHoused before next := by
  cases move with
  | founded email => rfl
  | created admin => trivial

theorem RequestHoused.recorded {was : AuthRequest} {member : Option UserRow} {entry : AuditEntry}
    (move : EntryMove was founded member entry) (placed : RequestHoused before was) :
    RequestHoused before (.recorded founded member entry) := by
  cases move with
  | registered founded user => exact placed
  | enrolled admin user => exact placed
  | tenantCreated admin tenant => trivial
  | loggedIn user => trivial

theorem Housed.turn (housed : Housed before) (written : RowsWritten before) (rows : TenantRows before)
    (turn : AuthTurn before action after) : Housed after := by
  have unchanged : ∀ tenantId, TenantStored before tenantId → TenantStored before tenantId := fun _ => id
  have default : TenantStored before defaultTenantId := by
    obtain ⟨tenant, held, -, id⟩ := rows.default
    exact ⟨tenant, held, id⟩
  cases turn with
  | moved pid next move =>
      exact ⟨housed.committed, housed.entered next (.moved move housed rows (housed.requests pid)) unchanged rfl, housed.admins⟩
  | refused pid => exact ⟨housed.committed, housed.entered .idle trivial unchanged rfl, housed.admins.rollback⟩
  | tenantInserted pid tenant next tenants move new inserted =>
      have same : tenants.committed = before.tenants.committed := by
        obtain ⟨rfl, -⟩ := IndexedRows.insert_cases inserted
        rfl
      have kept : ∀ tenantId, TenantStored before tenantId → TenantStored { before.enter pid next with
          tenants
          drawn := before.drawn + 1 } tenantId := by
        rintro tenantId ⟨row, held, id⟩
        exact ⟨row, same ▸ held, id⟩
      exact ⟨fun user held => kept _ (housed.committed user held), housed.entered next (.founds move) kept rfl, housed.admins⟩
  | userInserted pid user next users move inserted =>
      obtain ⟨placed, founded, founds, home⟩ := RequestHoused.inserted move (housed.requests pid) default
      have memberless : memberRows (before.request pid) = [] := move.written.2.1.1
      obtain ⟨rfl, -⟩ := IndexedRows.insert_cases inserted
      refine ⟨housed.committed, housed.entered next placed unchanged rfl, housed.admins.add fun wanted keyed => ?_⟩
      obtain ⟨role, -, rfl⟩ := adminKey_eq_some.mp keyed
      obtain ⟨tenant, rfl, id, -⟩ | ⟨plain, -⟩ := home
      · have mine : tenant ∈ before.tenants.insertedBy pid := by
          rw [written.tenants, founds]
          exact List.mem_singleton_self _
        rw [id]
        exact housed.admin_free written rows (IndexedRows.mem_ofPid.mp mine) memberless
      · rw [plain] at role
        cases role
  | recorded pid founded user entry move =>
      exact ⟨housed.committed, housed.entered _ (.recorded move (housed.requests pid)) unchanged rfl, housed.admins⟩
  | committed pid founded user entry was =>
      obtain ⟨tenants, users⟩ := written.quiet
      have kept : ∀ tenantId, TenantStored before tenantId → TenantStored { before.enter pid .idle with
          tenants := before.tenants.commit pid TenantRow.id
          users := before.users.commit pid UserRow.id
          audit := before.audit.commit pid } tenantId := by
        rintro tenantId ⟨row, held, id⟩
        exact ⟨row, IndexedRows.commit_quiet tenants ▸ List.mem_append_left _ held, id⟩
      refine ⟨fun member held => ?_, housed.entered .idle trivial kept rfl, housed.admins.commit_quiet users⟩
      have held : member ∈ before.users.committed ++ before.users.insertedBy pid := IndexedRows.commit_quiet users ▸ held
      obtain older | new := List.mem_append.mp held
      · exact kept _ (housed.committed member older)
      · obtain ⟨own, ⟨home, rfl, id, -⟩ | ⟨-, there⟩, founds⟩ := housed.home written (IndexedRows.mem_ofPid.mp new)
        · refine ⟨home, IndexedRows.commit_quiet tenants ▸ List.mem_append_right _ ?_, id.symm⟩
          exact IndexedRows.mem_ofPid.mpr (founds home rfl)
        · exact kept _ there
  | provisioned user users elsewhere stored =>
      obtain ⟨rfl, -⟩ := IndexedRows.store_cases stored
      refine ⟨fun member held => ?_, fun pid => (housed.requests pid).later unchanged, housed.admins.append ?_⟩
      · obtain older | new := List.mem_append.mp held
        · exact housed.committed member older
        · obtain rfl := List.mem_singleton.mp new
          exact elsewhere ▸ default
      · intro wanted keyed
        exact absurd elsewhere (adminKey_eq_some.mp keyed).2.1
  | tenantSwitched tenantId isActive tenants changed =>
      have kept : ∀ tenantId, TenantStored before tenantId → TenantStored { before with tenants } tenantId := by
        rintro wanted ⟨row, held, id⟩
        obtain rfl := IndexedRows.amend_cases changed
        refine ⟨_, List.mem_map_of_mem held, ?_⟩
        rw [IndexedRows.amended_one]
        split <;> exact id
      exact ⟨fun user held => kept _ (housed.committed user held), fun pid => (housed.requests pid).later kept, housed.admins⟩
  | userSwitched userId isActive users changed =>
      refine ⟨fun member held => ?_, fun pid => (housed.requests pid).later unchanged, housed.admins.amend changed fun row => rfl⟩
      obtain rfl := IndexedRows.amend_cases changed
      obtain ⟨earlier, older, rfl⟩ := List.mem_map.mp held
      have home := housed.committed earlier older
      rw [IndexedRows.amended_one]
      split <;> exact home

end Homes

end IncidentPlatform.Properties

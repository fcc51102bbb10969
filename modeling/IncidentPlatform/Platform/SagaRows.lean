import IncidentPlatform.Platform.SagaTraces

namespace IncidentPlatform.Platform

open Concurrency Models Services Repositories Storage Workers

/-! # Saga rows and the transactions that hold them

A saga row is held by the `create_saga` call that inserted it, or by the
coordinator transaction that moved it last.
-/

/-- The transaction inserted the saga. -/
def Opened (trace : List Act) (saga : Uuid) : Prop :=
  ∃ tenant name row, (⟨.statement (.insertSaga tenant name), row⟩ : Act) ∈ trace ∧ row.id = saga

section Reachable

variable {settings : Settings} {pool : PlatformPool}

theorem next_sagaRule (reachable : Reachable settings pool) {pid : Pid} {role : Role} {operation : Op}
    {next : Reply operation → Prog Unit}
    (found : pool.process pid = some { role, program := .call operation next }) :
    sagaRule role (traceOf pid pool.log) operation :=
  rule_kept (program_keeps_sagaRule settings) reachable found

theorem role_of_transaction (reachable : Reachable settings pool) {pid : Pid} {role : Role}
    {program : Prog Unit} (present : pool.process pid = some { role, program }) {entry : PlatformEntry}
    (member : entry ∈ transaction pid pool.log) : entry.role = role := by
  obtain ⟨among, own⟩ := transaction_mem member
  obtain ⟨process, started, agrees⟩ := logged_started reachable entry among
  rw [own, present] at started
  cases started
  exact agrees.symm

theorem traceOf_may (reachable : Reachable settings pool) {pid : Pid} {role : Role} {program : Prog Unit}
    (present : pool.process pid = some { role, program }) {act : Act}
    (member : act ∈ traceOf pid pool.log) : role.may act.1 := by
  obtain ⟨entry, logged, rfl⟩ := List.mem_map.mp member
  rw [← role_of_transaction reachable present logged]
  exact logged_may reachable entry (transaction_mem logged).1

theorem traceOf_started (reachable : Reachable settings pool) {pid : Pid} {act : Act}
    (member : act ∈ traceOf pid pool.log) : ∃ process, pool.process pid = some process := by
  obtain ⟨entry, logged, rfl⟩ := List.mem_map.mp member
  obtain ⟨among, own⟩ := transaction_mem logged
  obtain ⟨process, started, _⟩ := logged_started reachable entry among
  exact ⟨process, own ▸ started⟩

theorem moves_eq_nil {trace : List Act} {role : Role} (may : ∀ act ∈ trace, role.may act.1)
    (other : ¬ role.coordinates) : moves trace = [] := by
  refine List.filterMap_eq_nil_iff.mpr fun act member => ?_
  obtain ⟨operation, reply⟩ := act
  have may := may _ member
  cases operation with
  | statement issued =>
      cases issued with
      | updateSaga id status stamp => exact absurd may other
      | _ => rfl
  | _ => rfl

theorem unmoved_of_opened (reachable : Reachable settings pool) {pid : Pid} {saga : Uuid}
    (opened : Opened (traceOf pid pool.log) saga) : moves (traceOf pid pool.log) = [] := by
  obtain ⟨tenant, name, row, member, _⟩ := opened
  obtain ⟨⟨role, program⟩, present⟩ := traceOf_started reachable member
  have opens : role.opensSagas := traceOf_may reachable present member
  refine moves_eq_nil (fun act member => traceOf_may reachable present member) ?_
  intro coordinates
  cases role <;> contradiction

theorem sagas_keyed (reachable : Reachable settings pool) (saga : Uuid) :
    (pool.world.sagas.slot saga).All fun row => row.id = saga := by
  obtain ⟨outside, reached⟩ := reachable
  refine reached.invariant (motive := fun pool =>
    (pool.world.sagas.slot saga).All fun row => row.id = saga) ?_ ?_ ?_ ?_
  · exact ⟨fun _ stored => (by cases stored), fun _ _ held => (by cases held)⟩
  · intro before pid role world _ all _ accepted
    rw [Pool.start_world, (accept_sagas accepted).1]
    exact all
  · intro before pid role operation next reply world _ all _ operated
    refine ((operate_turns operated).1 saga).all all fun new writes => ?_
    cases operation with
    | statement issued =>
        cases issued with
        | insertSaga tenant name => exact writes.2.2.1
        | updateSaga id status stamp =>
            obtain ⟨_, row, seen, rfl⟩ := writes
            rw [← Table.slot_visible] at seen
            have keyed : row.id = saga := all.visible seen
            exact keyed
        | _ => exact writes.elim
    | _ => exact writes.elim
  · intro before change world _ all changed
    rw [(change_sagas changed).1]
    exact all

end Reachable

structure SagasKept (pool : PlatformPool) : Prop where
  held : ∀ saga pid row, (pool.world.sagas.slot saga).holder = some (pid, row) →
    (Opened (traceOf pid pool.log) saga ∧ (pool.world.sagas.slot saga).committed = none ∧
      row.status = .running) ∨
    ((moves (traceOf pid pool.log)).head? = some (saga, row.status) ∧
      ∃ stored, (pool.world.sagas.slot saga).committed = some stored)
  opened : ∀ saga pid, Opened (traceOf pid pool.log) saga →
    ∃ row, (pool.world.sagas.slot saga).holder = some (pid, row)
  moved : ∀ saga pid status, (moves (traceOf pid pool.log)).head? = some (saga, status) →
    ∃ row, (pool.world.sagas.slot saga).holder = some (pid, row)
  read : ∀ pid saga, Reads (traceOf pid pool.log) saga →
    ∃ row, (pool.world.sagas.slot saga.id).committed = some row

section Step

variable {settings : Settings} {before : PlatformPool} {pid : Pid} {role : Role} {operation : Op}
  {next : Reply operation → Prog Unit} {reply : Reply operation} {world : World}

theorem mem_extendTrace {trace : List Act} {act : Act}
    (member : act ∈ extendTrace trace operation reply) :
    operation.ends = false ∧ (act = ⟨operation, reply⟩ ∨ act ∈ trace) := by
  unfold extendTrace at member
  split at member
  · cases member
  · rename_i opened
    exact ⟨by simpa using opened, List.mem_cons.mp member⟩

theorem continues_of_open (opened : operation.ends = false) :
    operation ≠ .commit ∧ operation ≠ .rollback := by
  constructor
  · rintro rfl
    cases opened
  · rintro rfl
    cases opened

theorem updateSaga_rule (reachable : Reachable settings before) {id : Uuid} {status : SagaStatus}
    {stamp : Option Time} {next : Reply (.statement (.updateSaga id status stamp)) → Prog Unit}
    (found : before.process pid =
      some { role, program := .call (.statement (.updateSaga id status stamp)) next }) :
    ∃ saga, Reads (traceOf pid before.log) saga ∧ saga.id = id ∧
      (moves (traceOf pid before.log) = [] ∧ Moves saga.status status ∨
        moves (traceOf pid before.log) = [(id, .compensating)] ∧ Moves .compensating status) := by
  have coordinates : role.coordinates := next_may reachable found
  have rule := next_sagaRule reachable found
  cases role with
  | coordinateSaga topic job => exact rule
  | _ => cases coordinates

theorem readSaga_rule (reachable : Reachable settings before) {id : Uuid}
    {next : Reply (.query (.saga id)) → Prog Unit}
    (found : before.process pid = some { role, program := .call (.query (.saga id)) next }) :
    ∃ id job, traceOf pid before.log = [⟨.query (.job id), some job⟩] := by
  have coordinates : role.coordinates := next_may reachable found
  have rule := next_sagaRule reachable found
  cases role with
  | coordinateSaga topic target => exact ⟨target, rule⟩
  | _ => cases coordinates

variable (reachable : Reachable settings before)
  (found : before.process pid = some { role, program := .call operation next })
  (operated : World.operate pid operation before.world = some (reply, world))

include reachable found operated

theorem SagasKept.held_record (kept : SagasKept before) (saga : Uuid) (owner : Pid) (row : Saga)
    (held : (world.sagas.slot saga).holder = some (owner, row)) :
    (Opened (traceOf owner (before.record pid role operation reply (next reply) world).log) saga ∧
      (world.sagas.slot saga).committed = none ∧ row.status = .running) ∨
    ((moves (traceOf owner (before.record pid role operation reply (next reply) world).log)).head? =
        some (saga, row.status) ∧ ∃ stored, (world.sagas.slot saga).committed = some stored) := by
  rw [traceOf_record]
  have turn := (operate_turns operated).1 saga
  rcases turn.holder_cases held with ⟨rfl, writes, _⟩ | ⟨earlier, own⟩
  · rw [if_pos rfl]
    cases operation with
    | statement issued =>
        have same : (world.sagas.slot saga).committed = (before.world.sagas.slot saga).committed := by
          rcases turn.committed_cases with same | ⟨ends, _⟩
          · exact same
          · cases ends
        cases issued with
        | insertSaga tenant name =>
            obtain ⟨unseen, rfl, keyed, running⟩ := writes
            refine .inl ⟨⟨tenant, name, reply, List.mem_cons_self, keyed⟩, ?_, running⟩
            rw [same]
            cases stored : (before.world.sagas.slot saga).committed with
            | none => rfl
            | some other =>
                obtain ⟨seen, visible⟩ := Slot.visible_of_stored owner stored
                rw [Table.slot_visible, unseen] at visible
                cases visible
        | updateSaga id status stamp =>
            obtain ⟨rfl, _, _, rfl⟩ := writes
            obtain ⟨read, reads, rfl, _⟩ := updateSaga_rule reachable found
            refine .inr ⟨rfl, ?_⟩
            rw [same]
            exact kept.read owner read reads
        | _ => exact writes.elim
    | _ => exact writes.elim
  · by_cases other : owner = pid
    · subst other
      obtain ⟨unwritten, uncommitted, opened⟩ := own rfl
      have stays := ends_eq_false uncommitted opened
      rw [if_pos rfl, extendTrace_of_open stays]
      obtain ⟨same, _⟩ := turn.own_kept uncommitted opened earlier
      rw [same]
      rcases kept.held saga owner row earlier with ⟨⟨tenant, name, made, member, keyed⟩, rest⟩ | ⟨last, stored⟩
      · exact .inl ⟨⟨tenant, name, made, List.mem_cons_of_mem _ member, keyed⟩, rest⟩
      · refine .inr ⟨?_, stored⟩
        cases operation with
        | statement issued =>
            cases issued with
            | updateSaga id status stamp =>
                -- A second move is of the same saga, and would have written it.
                obtain ⟨read, _, _, ⟨unmoved, _⟩ | ⟨moved, _⟩⟩ := updateSaga_rule reachable found
                · rw [unmoved] at last
                  cases last
                · rw [moved, List.head?_cons, Option.some.injEq, Prod.mk.injEq] at last
                  obtain ⟨rfl, _⟩ := last
                  have seen : before.world.sagas.visible owner id = some row := by
                    rw [← Table.slot_visible]
                    exact Slot.visible_of_held earlier
                  exact absurd ⟨rfl, row, seen, rfl⟩ (unwritten _)
            | _ => exact last
        | _ => exact last
    · rw [if_neg (Ne.symm other), turn.held_kept other earlier]
      exact kept.held saga owner row earlier

omit reachable in
theorem SagasKept.opened_record (kept : SagasKept before) (saga : Uuid) (owner : Pid)
    (opened : Opened (traceOf owner (before.record pid role operation reply (next reply) world).log) saga) :
    ∃ row, (world.sagas.slot saga).holder = some (owner, row) := by
  rw [traceOf_record] at opened
  have turn := (operate_turns operated).1 saga
  split at opened
  · rename_i same
    subst same
    obtain ⟨tenant, name, row, member, keyed⟩ := opened
    obtain ⟨stays, same | earlier⟩ := mem_extendTrace member
    · cases same
      obtain ⟨sagas, inserted, equal⟩ := Option.map_eq_some_iff.mp operated
      cases equal
      rcases Table.insert_slot inserted saga with ⟨other, _⟩ | ⟨_, _, slot⟩
      · exact absurd keyed.symm other
      · exact ⟨_, by rw [slot]; rfl⟩
    · obtain ⟨row, held⟩ := kept.opened saga pid ⟨tenant, name, row, earlier, keyed⟩
      have continues := continues_of_open stays
      exact (turn.own_kept continues.1 continues.2 held).2
  · rename_i other
    obtain ⟨row, held⟩ := kept.opened saga owner opened
    exact ⟨row, by rw [turn.held_kept (Ne.symm other) held, held]⟩

theorem SagasKept.moved_record (kept : SagasKept before) (saga : Uuid) (owner : Pid) (status : SagaStatus)
    (moved : (moves (traceOf owner (before.record pid role operation reply (next reply) world).log)).head? =
      some (saga, status)) : ∃ row, (world.sagas.slot saga).holder = some (owner, row) := by
  rw [traceOf_record] at moved
  have turn := (operate_turns operated).1 saga
  split at moved
  · rename_i same
    subst same
    have stays : operation.ends = false := by
      cases ended : operation.ends with
      | false => rfl
      | true =>
          rw [extendTrace, ended] at moved
          cases moved
    obtain ⟨uncommitted, unrolled⟩ := continues_of_open stays
    rw [extendTrace_of_open stays] at moved
    have earlier : (moves (traceOf pid before.log)).head? = some (saga, status) →
        ∃ row, (world.sagas.slot saga).holder = some (pid, row) := by
      intro moved
      obtain ⟨row, held⟩ := kept.moved saga pid status moved
      exact (turn.own_kept uncommitted unrolled held).2
    cases operation with
    | statement issued =>
        cases issued with
        | updateSaga id written stamp =>
            cases moved
            obtain ⟨read, reads, rfl, _⟩ := updateSaga_rule reachable found
            obtain ⟨stored, committed⟩ := kept.read pid read reads
            obtain ⟨row, seen⟩ := Slot.visible_of_stored pid committed
            rw [Table.slot_visible] at seen
            cases turn with
            | write new _ _ same => exact ⟨new, by rw [same]; rfl⟩
            | commit ends _ => cases ends
            | rollback ends _ => cases ends
            | keep unwritten _ _ _ => exact absurd ⟨rfl, row, seen, rfl⟩ (unwritten _)
        | _ => exact earlier moved
    | _ => exact earlier moved
  · rename_i other
    obtain ⟨row, held⟩ := kept.moved saga owner status moved
    exact ⟨row, by rw [turn.held_kept (Ne.symm other) held, held]⟩

theorem SagasKept.read_record (kept : SagasKept before) (owner : Pid) (saga : Saga)
    (reads : Reads (traceOf owner (before.record pid role operation reply (next reply) world).log) saga) :
    ∃ row, (world.sagas.slot saga.id).committed = some row := by
  rw [traceOf_record] at reads
  have turn := (operate_turns operated).1 saga.id
  have earlier : Reads (traceOf owner before.log) saga →
      ∃ row, (world.sagas.slot saga.id).committed = some row := by
    intro reads
    obtain ⟨row, stored⟩ := kept.read owner saga reads
    exact turn.committed_kept stored
  split at reads
  · rename_i same
    subst same
    obtain ⟨id, member⟩ := reads
    obtain ⟨_, same | older⟩ := mem_extendTrace member
    · cases same
      obtain ⟨job, row, alone⟩ := readSaga_rule reachable found
      have seen : (before.world.sagas.slot id).visible pid = some saga := by
        rw [Table.slot_visible]
        exact congrArg Prod.fst (Option.some.inj operated)
      have keyed : saga.id = id := (sagas_keyed reachable id).visible seen
      rw [← keyed] at seen
      have unheld : ∀ version, (before.world.sagas.slot saga.id).holder ≠ some (pid, version) := by
        intro version held
        rcases kept.held saga.id pid version held with ⟨⟨_, _, _, among, _⟩, _⟩ | ⟨moved, _⟩
        · rw [alone] at among
          simp at among
        · rw [alone] at moved
          cases moved
      rw [Slot.visible_of_free unheld] at seen
      exact turn.committed_kept seen
    · exact earlier ⟨id, older⟩
  · exact earlier reads

end Step

theorem SagasKept.of_same {before after : PlatformPool} (kept : SagasKept before)
    (sameLog : after.log = before.log) (sameSagas : after.world.sagas = before.world.sagas) :
    SagasKept after := by
  constructor
  · rw [sameLog, sameSagas]
    exact kept.held
  · rw [sameLog, sameSagas]
    exact kept.opened
  · rw [sameLog, sameSagas]
    exact kept.moved
  · rw [sameLog, sameSagas]
    exact kept.read

theorem sagas_kept {settings : Settings} {pool : PlatformPool} (reachable : Reachable settings pool) :
    SagasKept pool := by
  obtain ⟨outside, reached⟩ := reachable
  refine reached.invariant (motive := SagasKept) ?_ ?_ ?_ ?_
  · constructor
    · intro saga pid row held
      cases held
    · rintro saga pid ⟨tenant, name, row, member, _⟩
      cases member
    · intro saga pid status moved
      cases moved
    · rintro pid saga ⟨id, member⟩
      cases member
  · intro before pid role world _ kept _ accepted
    exact kept.of_same rfl (accept_sagas accepted).1
  · intro before pid role operation next reply world earlier kept found operated
    have reachable : Reachable settings before := ⟨outside, earlier⟩
    exact ⟨kept.held_record reachable found operated, kept.opened_record found operated,
      kept.moved_record reachable found operated, kept.read_record reachable found operated⟩
  · intro before change world _ kept changed
    exact kept.of_same rfl (change_sagas changed).1

theorem SagasKept.moved_status {settings : Settings} {pool : PlatformPool} (kept : SagasKept pool)
    (reachable : Reachable settings pool) {saga : Uuid} {pid : Pid} {status : SagaStatus}
    (moved : (moves (traceOf pid pool.log)).head? = some (saga, status)) :
    ∃ row, (pool.world.sagas.slot saga).holder = some (pid, row) ∧ row.status = status := by
  obtain ⟨row, held⟩ := kept.moved saga pid status moved
  refine ⟨row, held, ?_⟩
  rcases kept.held saga pid row held with ⟨opened, _⟩ | ⟨last, _⟩
  · rw [unmoved_of_opened reachable opened] at moved
    cases moved
  · rw [moved] at last
    cases last
    rfl

theorem SagasKept.visible {pool : PlatformPool} (kept : SagasKept pool) {saga : Uuid} {pid : Pid}
    (unopened : ¬ Opened (traceOf pid pool.log) saga) (unmoved : moves (traceOf pid pool.log) = []) :
    (pool.world.sagas.slot saga).visible pid = (pool.world.sagas.slot saga).committed := by
  apply Slot.visible_of_free
  intro row held
  rcases kept.held saga pid row held with ⟨opened, _⟩ | ⟨moved, _⟩
  · exact unopened opened
  · rw [unmoved] at moved
    cases moved

end IncidentPlatform.Platform

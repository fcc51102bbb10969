import IncidentPlatform.Properties.Compensated
import IncidentPlatform.Text.Decimal

namespace IncidentPlatform.Properties

open Concurrency Models Platform Repositories Services Storage Workers

/-! # The saga state machine

Events come in any order and any number of times.  What makes the handlers
idempotent is the saga's status, so each `handle_message` has to be atomic for
the others: it decides on the status it read.
-/

def Serial (log : List PlatformEntry) : Prop :=
  ∀ newer entry older, log = newer ++ entry :: older → entry.role.coordinates →
    ∀ other ∈ older, other.role.coordinates → other.pid ≠ entry.pid → traceOf other.pid older = []

theorem Serial.of_suffix {log older : List PlatformEntry} (serial : Serial log) (suffix : older <:+ log) :
    Serial older := by
  obtain ⟨newer, rfl⟩ := suffix
  intro above entry below split
  exact serial (newer ++ above) entry below (by rw [split, List.append_assoc])

theorem plain_of_suffix {log older : List PlatformEntry} (plain : PlainSubmissions log)
    (suffix : older <:+ log) : PlainSubmissions older :=
  fun entry member => plain entry (suffix.subset member)

def Current (pool : PlatformPool) : Prop :=
  ∀ pid saga, Reads (traceOf pid pool.log) saga →
    ∃ row, pool.world.sagas.committed saga.id = some row ∧ row.status = saga.status

theorem Serial.idle {settings : Settings} {pool : PlatformPool} {entry : PlatformEntry}
    (serial : Serial (entry :: pool.log)) (reachable : Reachable settings pool)
    (coordinates : entry.role.coordinates) {other : Pid} (different : other ≠ entry.pid) (saga : Saga) :
    ¬ Reads (traceOf other pool.log) saga := by
  rintro ⟨id, member⟩
  obtain ⟨read, logged, same⟩ := List.mem_map.mp member
  obtain ⟨among, rfl⟩ := transaction_mem logged
  have coordinator : read.role.coordinates := by
    have may := logged_may reachable read among
    rw [show read.operation = .query (.saga id) from congrArg Sigma.fst same] at may
    exact may
  rw [serial [] entry pool.log rfl coordinates read among coordinator different] at member
  cases member

section Step

variable {settings : Settings} {before : PlatformPool} {pid : Pid} {role : Role} {operation : Op}
  {next : Reply operation → Prog Unit} {reply : Reply operation} {world : World}
  (reachable : Reachable settings before)
  (found : before.process pid = some { role, program := .call operation next })
  (operated : World.operate pid operation before.world = some (reply, world))
  (serial : Serial (before.record pid role operation reply (next reply) world).log)

include reachable found

theorem moved_of_published {saga : Uuid} {row old : Saga}
    (held : (before.world.sagas.slot saga).holder = some (pid, row))
    (stored : before.world.sagas.committed saga = some old) :
    role.coordinates ∧ (saga, row.status) ∈ moves (traceOf pid before.log) := by
  rcases (sagas_kept reachable).held saga pid row held with ⟨_, absent, _⟩ | ⟨last, _⟩
  · rw [Table.slot_committed, stored] at absent
    cases absent
  · have moved := List.mem_of_mem_head? last
    refine ⟨?_, moved⟩
    by_contra other
    rw [moves_eq_nil (fun act member => traceOf_may reachable found member) other] at moved
    cases moved

include operated serial in
theorem Current.record (current : Current before) :
    Current (before.record pid role operation reply (next reply) world) := by
  intro owner saga reads
  rw [traceOf_record] at reads
  have turn := (operate_turns operated).1 saga.id
  split at reads
  · rename_i same
    subst same
    obtain ⟨id, member⟩ := reads
    obtain ⟨opened, now | earlier⟩ := mem_extendTrace member
    · cases now
      obtain ⟨target, row, alone⟩ := readSaga_rule reachable found
      have seen : (before.world.sagas.slot id).visible pid = some saga := by
        rw [Table.slot_visible]
        exact congrArg Prod.fst (Option.some.inj operated)
      have unchanged : world = before.world := (congrArg Prod.snd (Option.some.inj operated)).symm
      have keyed : saga.id = id := (sagas_keyed reachable id).visible seen
      rw [← keyed, (sagas_kept reachable).visible] at seen
      · exact ⟨saga, by rw [Pool.record_world, unchanged]; exact seen, rfl⟩
      · rw [alone]
        rintro ⟨_, _, _, among, _⟩
        simp at among
      · rw [alone]
        rfl
    · obtain ⟨row, stored, status⟩ := current pid saga ⟨id, earlier⟩
      rcases turn.committed_cases with same | ⟨ends, _⟩
      · exact ⟨row, same.trans stored, status⟩
      · exact absurd ends (continues_of_open opened).1
  · rename_i different
    obtain ⟨row, stored, status⟩ := current owner saga reads
    obtain ⟨later, committed⟩ := turn.committed_kept stored
    rcases saga_source operated committed with same | ⟨_, held⟩
    · rw [stored] at same
      cases same
      exact ⟨row, committed, status⟩
    · -- Another coordinator would have to commit in the middle of this one.
      obtain ⟨coordinates, _⟩ := moved_of_published reachable found held stored
      exact absurd reads (serial.idle reachable coordinates (Ne.symm different) saga)

end Step

theorem current_kept {settings : Settings} {pool : PlatformPool} (reachable : Reachable settings pool)
    (serial : Serial pool.log) : Current pool := by
  obtain ⟨outside, reached⟩ := reachable
  revert serial
  refine reached.invariant (motive := fun pool => Serial pool.log → Current pool) ?_ ?_ ?_ ?_
  · rintro _ pid saga ⟨id, member⟩
    cases member
  · intro before pid role world _ current _ accepted serial owner saga reads
    rw [Pool.start_world, (accept_sagas accepted).1]
    exact current serial owner saga reads
  · intro before pid role operation next reply world earlier current found operated serial
    exact (current (serial.of_suffix (List.suffix_cons _ _))).record ⟨outside, earlier⟩ found operated serial
  · intro before change world _ current changed serial owner saga reads
    rw [(change_sagas changed).1]
    exact current serial owner saga reads

def Edge (first second : SagaStatus) : Prop := Moves first second = true

section Edges

variable {settings : Settings} {pool : PlatformPool} (reachable : Reachable settings pool)

include reachable

theorem move_rule {pid : Pid} {saga : Uuid} {status : SagaStatus}
    (moved : (saga, status) ∈ moves (traceOf pid pool.log)) :
    ∃ read, Reads (traceOf pid pool.log) read ∧ read.id = saga ∧ (Edge read.status status ∨
      (saga, .compensating) ∈ moves (traceOf pid pool.log) ∧ Edge .compensating status) := by
  obtain ⟨⟨operation, reply⟩, member, wrote⟩ := List.mem_filterMap.mp moved
  obtain ⟨stamp, rfl⟩ : ∃ stamp, operation = .statement (.updateSaga saga status stamp) := by
    cases operation with
    | statement issued =>
        cases issued with
        | updateSaga id written stamp =>
            cases wrote
            exact ⟨stamp, rfl⟩
        | _ => cases wrote
    | _ => cases wrote
  obtain ⟨before, later, earlier, _, split, ⟨entry, _, next, _, stood⟩, _⟩ := reachable.act_moment member
  obtain ⟨read, ⟨id, reads⟩, keyed, edge⟩ := updateSaga_rule earlier stood
  refine ⟨read, ⟨id, ?_⟩, keyed, ?_⟩
  · rw [split]
    exact List.mem_append_right _ (List.mem_cons_of_mem _ reads)
  · rcases edge with ⟨_, edge⟩ | ⟨moved, edge⟩
    · exact .inl edge
    · refine .inr ⟨?_, edge⟩
      rw [split, moves_append]
      refine List.mem_append_right _ (List.mem_cons_of_mem _ ?_)
      change (saga, .compensating) ∈ moves (traceOf pid before.log)
      rw [moved]
      exact List.mem_singleton_self _

theorem move_path {pid : Pid} {saga : Uuid} {status : SagaStatus}
    (moved : (saga, status) ∈ moves (traceOf pid pool.log)) :
    ∃ read, Reads (traceOf pid pool.log) read ∧ read.id = saga ∧
      Relation.ReflTransGen Edge read.status status := by
  obtain ⟨read, reads, keyed, edge | ⟨compensating, edge⟩⟩ := move_rule reachable moved
  · exact ⟨read, reads, keyed, .single edge⟩
  · obtain ⟨first, reads, keyed, start | ⟨_, loop⟩⟩ := move_rule reachable compensating
    · exact ⟨first, reads, keyed, .tail (.single start) edge⟩
    · cases loop

theorem update_edge (current : Current pool) {pid : Pid} {role : Role} {id : Uuid} {status : SagaStatus}
    {stamp : Option Time} {next : Reply (.statement (.updateSaga id status stamp)) → Prog Unit}
    (found : pool.process pid =
      some { role, program := .call (.statement (.updateSaga id status stamp)) next }) :
    ∃ row, pool.world.sagas.visible pid id = some row ∧ Edge row.status status := by
  obtain ⟨read, reads, rfl, ⟨unmoved, edge⟩ | ⟨moved, edge⟩⟩ := updateSaga_rule reachable found
  · obtain ⟨row, stored, same⟩ := current pid read reads
    refine ⟨row, ?_, same ▸ edge⟩
    rw [← Table.slot_visible, (sagas_kept reachable).visible _ unmoved]
    · exact stored
    · intro opened
      rw [uncommitted_of_opened reachable opened] at stored
      cases stored
  · obtain ⟨row, held, same⟩ := (sagas_kept reachable).moved_status reachable
      (show (moves (traceOf pid pool.log)).head? = some (read.id, .compensating) by rw [moved]; rfl)
    refine ⟨row, ?_, same ▸ edge⟩
    rw [← Table.slot_visible]
    exact Slot.visible_of_held held

end Edges

theorem status_path {settings : Settings} {start pool : PlatformPool} (reachable : Reachable settings start)
    (reached : (platform settings).Reaches start pool) (serial : Serial pool.log) {saga : Uuid} {old : Saga}
    (stored : start.world.sagas.committed saga = some old) :
    ∃ row, pool.world.sagas.committed saga = some row ∧
      Relation.ReflTransGen Edge old.status row.status := by
  revert serial
  refine reached.invariant (motive := fun pool => Serial pool.log → ∃ row,
    pool.world.sagas.committed saga = some row ∧ Relation.ReflTransGen Edge old.status row.status)
    (fun _ => ⟨old, stored, .refl⟩) ?_ ?_ ?_
  · intro before pid role world _ path _ accepted serial
    rw [Pool.start_world, (accept_sagas accepted).1]
    exact path serial
  · intro before pid role operation next reply world earlier path found operated serial
    have there := reachable.trans earlier
    have older := serial.of_suffix (List.suffix_cons _ _)
    obtain ⟨row, stored, moved⟩ := path older
    obtain ⟨later, committed⟩ := ((operate_turns operated).1 saga).committed_kept stored
    refine ⟨later, committed, ?_⟩
    rcases saga_source operated committed with same | ⟨_, held⟩
    · rw [stored] at same
      cases same
      exact moved
    · obtain ⟨_, last⟩ := moved_of_published there found held stored
      obtain ⟨read, reads, rfl, onward⟩ := move_path there last
      obtain ⟨_, here, status⟩ := current_kept there older pid read reads
      rw [stored] at here
      cases here
      rw [← status] at onward
      exact moved.trans onward
  · intro before change world _ path changed serial
    rw [(change_sagas changed).1]
    exact path serial

def mintOf (entry : PlatformEntry) : Option Job :=
  if entry.role.coordinates then insertionOf (actOf entry) else none

/-- The compensations that the coordinator has ever inserted, newest first. -/
def mintings (log : List PlatformEntry) : List Job := log.filterMap mintOf

theorem compensates_step {saga : Saga} {user : Uuid} {done job : Job}
    (compensates : Compensates saga user done job) : compensatedStep job = some (toString done.id) :=
  (undoes_of_compensates compensates).undoes

/-- What is kept of a compensation: its step is a job of the saga, and the saga
has left RUNNING unless the transaction that minted it is still open. -/
structure Minting (pool : PlatformPool) (saga : Saga) (user : Uuid) (done job : Job) : Prop where
  compensates : Compensates saga user done job
  step : ∃ row, pool.world.jobs.committed done.id = some row ∧ row.sagaId = some saga.id
  left : (∃ pid steps, MintedIn (traceOf pid pool.log) saga user steps done job ∧
      job ∈ insertions (traceOf pid pool.log)) ∨
    ∃ row, pool.world.sagas.committed saga.id = some row ∧ row.status ≠ .running

def MintsKept (pool : PlatformPool) : Prop :=
  (∀ job ∈ mintings pool.log, ∃ saga user done, Minting pool saga user done job) ∧
    ((mintings pool.log).map compensatedStep).Nodup

section Mint

variable {settings : Settings} {before : PlatformPool} {pid : Pid} {role : Role} {operation : Op}
  {next : Reply operation → Prog Unit} {reply : Reply operation} {world : World}
  {saga : Saga} {user : Uuid} {done job : Job}
  (reachable : Reachable settings before)
  (found : before.process pid = some { role, program := .call operation next })
  (operated : World.operate pid operation before.world = some (reply, world))

include reachable found operated

theorem Minting.record (minting : Minting before saga user done job) :
    Minting (before.record pid role operation reply (next reply) world) saga user done job := by
  refine ⟨minting.compensates, ?_, ?_⟩
  · obtain ⟨row, stored, belongs⟩ := minting.step
    obtain ⟨later, committed, same⟩ := committed_same reachable operated stored
    exact ⟨later, committed, same.sagaId.trans belongs⟩
  · rcases minting.left with ⟨owner, steps, minted, inserted⟩ | ⟨row, stored, left⟩
    · by_cases own : pid = owner
      · subst own
        have coordinates : role.coordinates := by
          obtain ⟨id, member⟩ := minted.reads
          exact traceOf_may reachable found member
        cases ends : operation.ends with
        | true =>
            rcases Op.ends_cases ends with rfl | rfl
            · obtain ⟨last, head, left⟩ := head_of_moved reachable minted.moved
              obtain ⟨row, held, status⟩ := (sagas_kept reachable).moved_status reachable head
              exact .inr ⟨row, saga_published_of_held operated rfl held, by rw [status]; exact left⟩
            · have rule := next_sagaRule reachable found
              cases role with
              | coordinateSaga topic target => exact rule.elim
              | _ => cases coordinates
        | false =>
            have grown : traceOf pid (before.record pid role operation reply (next reply) world).log =
                [⟨operation, reply⟩] ++ traceOf pid before.log := by
              rw [traceOf_record, if_pos rfl, extendTrace_of_open ends]
              rfl
            refine .inl ⟨pid, steps, ?_, ?_⟩
            · rw [grown]
              exact minted.extend
            · rw [grown, insertions_append]
              exact List.mem_append_right _ inserted
      · refine .inl ⟨owner, steps, ?_⟩
        rw [traceOf_record, if_neg own]
        exact ⟨minted, inserted⟩
    · exact .inr (left_kept reachable operated stored left)

end Mint

theorem MintsKept.fresh {settings : Settings} {before : PlatformPool} {pid : Pid} {saga : Saga}
    {user : Uuid} {done : Job} {steps minted left : List Job} (kept : MintsKept before)
    (reachable : Reachable settings before) (current : Current before)
    (idle : ∀ other saga, other ≠ pid → ¬ Reads (traceOf other before.log) saga)
    (minting : MintingAt (traceOf pid before.log) saga user steps minted)
    (order : steps.reverse = minted ++ done :: left) :
    some (toString done.id) ∉ (mintings before.log).map compensatedStep := by
  obtain ⟨_, _, running, reads, asked⟩ := minting.facts
  have among : done ∈ steps := by
    rw [← List.mem_reverse, order]
    simp
  intro member
  obtain ⟨job, logged, same⟩ := List.mem_map.mp member
  obtain ⟨other, owner, step, known⟩ := kept.1 job logged
  rw [compensates_step known.compensates, Option.some.injEq] at same
  have twin : step.id = done.id := Text.toString_injective same
  obtain ⟨row, stored, belongs⟩ := known.step
  obtain ⟨same, there, member⟩ := asked_stored reachable asked among
  rw [twin, there] at stored
  cases stored
  rw [member] at belongs
  have sagas : saga.id = other.id := Option.some.inj belongs
  rcases known.left with ⟨holder, taken, here, inserted⟩ | ⟨settled, committed, left⟩
  · by_cases own : holder = pid
    · subst own
      -- The same loop has already minted for this step.
      obtain ⟨mints, earlier, split, looped, rolling⟩ := minting
      have inside : job ∈ insertions mints := by
        rw [split, insertions_append] at inserted
        rcases List.mem_append.mp inserted with mine | older
        · exact mine
        · change job ∈ insertions earlier at older
          rw [rolling.facts.2.1] at older
          cases older
      obtain ⟨undone, listed, act⟩ := looped.origin inside
      have logged : (⟨.statement (.insertJob (compensationDraft saga user undone)), some job⟩ : Act) ∈
          traceOf holder before.log := by
        rw [split]
        exact List.mem_append_left _ act
      obtain ⟨made, equal, compensates, _⟩ := compensation_inserted reachable logged
      cases equal
      have again : undone.id = step.id := by
        have same := (compensates_step compensates).symm.trans (compensates_step known.compensates)
        exact Text.toString_injective (Option.some.inj same)
      have distinct := asked_distinct reachable asked
      rw [← List.nodup_reverse, ← List.map_reverse, order, List.map_append, List.map_cons] at distinct
      have apart := (List.nodup_append.mp distinct).2.2 undone.id (List.mem_map_of_mem listed) done.id
        List.mem_cons_self
      exact apart (again.trans twin)
    · exact idle holder other own here.reads
  · obtain ⟨row, stored, status⟩ := current pid saga reads
    rw [sagas, committed] at stored
    cases stored
    exact left (status.trans running)

theorem MintsKept.insert {settings : Settings} {before : PlatformPool} {pid : Pid} {topic : Topic}
    {target : Uuid} {draft : JobDraft} {next : Reply (.statement (.insertJob draft)) → Prog Unit}
    {job : Job} {world : World} (kept : MintsKept before) (reachable : Reachable settings before)
    (current : Current before) (idle : ∀ other saga, other ≠ pid → ¬ Reads (traceOf other before.log) saga)
    (found : before.process pid = some
      { role := .coordinateSaga topic target, program := .call (.statement (.insertJob draft)) next })
    (operated : World.operate pid (.statement (.insertJob draft)) before.world = some (some job, world)) :
    (∃ saga user done, Minting (before.record pid (.coordinateSaga topic target)
      (.statement (.insertJob draft)) (some job) (next (some job)) world) saga user done job) ∧
      compensatedStep job ∉ (mintings before.log).map compensatedStep := by
  obtain ⟨rfl, _, _⟩ := insertJob_slot operated
  obtain ⟨saga, user, steps, minted, done, left, minting, order, rfl⟩ := next_sagaRule reachable found
  obtain ⟨moved, _, running, reads, asked⟩ := minting.facts
  have among : done ∈ steps := by
    rw [← List.mem_reverse, order]
    simp
  have compensates : Compensates saga user done ((compensationDraft saga user done).row
    before.world.outside.uuid before.world.outside.clock) := ⟨_, _, rfl⟩
  have here : MintedIn (traceOf pid before.log) saga user steps done _ :=
    ⟨reads, running, by simp [moved], asked, among, compensates⟩
  refine ⟨⟨saga, user, done, compensates, ?_, .inl ⟨pid, steps, ?_, ?_⟩⟩, ?_⟩
  · obtain ⟨row, stored, belongs⟩ := asked_stored reachable asked among
    obtain ⟨later, committed, same⟩ := committed_same reachable operated stored
    exact ⟨later, committed, same.sagaId.trans belongs⟩
  · rw [traceOf_record, if_pos rfl]
    exact @MintedIn.extend _ [_] _ _ _ _ _ here
  · rw [traceOf_record, if_pos rfl]
    exact List.mem_cons_self
  · rw [compensates_step compensates]
    exact kept.fresh reachable current idle minting order

theorem mints_kept {settings : Settings} {pool : PlatformPool} (reachable : Reachable settings pool)
    (serial : Serial pool.log) : MintsKept pool := by
  obtain ⟨outside, reached⟩ := reachable
  revert serial
  refine reached.invariant (motive := fun pool => Serial pool.log → MintsKept pool) ?_ ?_ ?_ ?_
  · exact fun _ => ⟨fun job member => (by cases member), List.nodup_nil⟩
  · intro before pid role world _ kept _ accepted serial
    refine ⟨fun job member => ?_, (kept serial).2⟩
    obtain ⟨saga, user, done, compensates, step, left⟩ := (kept serial).1 job member
    refine ⟨saga, user, done, compensates, ?_, ?_⟩
    · rw [Pool.start_world, accept_jobs accepted]
      exact step
    · rw [Pool.start_world, (accept_sagas accepted).1]
      exact left
  · intro before pid role operation next reply world earlier kept found operated serial
    have reachable : Reachable settings before := ⟨outside, earlier⟩
    have older := serial.of_suffix (List.suffix_cons _ _)
    have kept := kept older
    have persists : ∀ job ∈ mintings before.log, ∃ saga user done,
        Minting (before.record pid role operation reply (next reply) world) saga user done job := by
      intro job member
      obtain ⟨saga, user, done, minting⟩ := kept.1 job member
      exact ⟨saga, user, done, minting.record reachable found operated⟩
    cases minted : mintOf { pid, role, operation, reply, before := before.world } with
    | none =>
        rw [MintsKept, Pool.record_log, mintings, List.filterMap_cons_none minted]
        exact ⟨persists, kept.2⟩
    | some job =>
        rw [MintsKept, Pool.record_log, mintings, List.filterMap_cons_some minted, List.map_cons,
          List.nodup_cons]
        unfold mintOf at minted
        split at minted
        · rename_i coordinates
          obtain ⟨draft, rfl, equal⟩ := insertion_cases minted
          cases equal
          cases role with
          | coordinateSaga topic target =>
              obtain ⟨minting, fresh⟩ := kept.insert reachable (current_kept reachable older)
                (fun other saga different => serial.idle reachable coordinates different saga) found operated
              refine ⟨fun made member => ?_, fresh, kept.2⟩
              rcases List.mem_cons.mp member with rfl | logged
              · exact minting
              · exact persists made logged
          | _ => cases coordinates
        · cases minted
  · intro before change world _ kept changed serial
    refine ⟨fun job member => ?_, (kept serial).2⟩
    obtain ⟨saga, user, done, compensates, ⟨row, stored, belongs⟩, left⟩ := (kept serial).1 job member
    refine ⟨saga, user, done, compensates, ⟨row, ?_, belongs⟩, ?_⟩
    · exact (congrArg Slot.committed (change_slot changed done.id)).trans stored
    · rw [(change_sagas changed).1]
      exact left

/-- The open transaction rolls `saga` back: it takes stock of the COMPLETED steps
and mints one compensation for each, the last step first. -/
structure RollsBack (log : List PlatformEntry) (pid : Pid) (saga : Saga) (user : Uuid) (steps : List Job) :
    Prop where
  reads : Reads (traceOf pid log) saga
  running : saga.status = .running
  moved : (saga.id, .compensating) ∈ moves (traceOf pid log)
  taken : ∃ entry ∈ transaction pid log, entry.operation = .query (.completedSteps saga.id) ∧
    ∀ job, job ∈ steps ↔ (∃ id, entry.before.jobs.visible pid id = some job) ∧ CompletedStep saga.id job
  minted : List.Forall₂ (Compensates saga user) steps.reverse (insertions (traceOf pid log)).reverse
  descending : steps.reverse.Pairwise fun first second => ∃ left right,
    first.sagaStepIndex = some left ∧ second.sagaStepIndex = some right ∧ right < left

/-- A coordinator that commits has minted for a failed saga that leaves RUNNING,
or not at all, with one announcement for each job. -/
structure CommitsMints (role : Role) (log : List PlatformEntry) (pid : Pid) : Prop where
  rollback : ((∀ saga, (saga, .compensating) ∉ moves (traceOf pid log)) ∧
      insertions (traceOf pid log) = []) ∨
    ∃ id saga user steps, role = .coordinateSaga .dlq id ∧ RollsBack log pid saga user steps
  announced : ∀ job ∈ insertions (traceOf pid log), (submissions (traceOf pid log)).count job.id = 1

section Commit

variable {settings : Settings} {pool : PlatformPool} (reachable : Reachable settings pool)

include reachable

theorem stock_taken (serial : Serial pool.log) (plain : PlainSubmissions pool.log) {pid : Pid}
    {saga : Uuid} {steps : List Job}
    (asked : (⟨.query (.completedSteps saga), steps⟩ : Act) ∈ traceOf pid pool.log) :
    (∃ entry ∈ transaction pid pool.log, entry.operation = .query (.completedSteps saga) ∧
      ∀ job, job ∈ steps ↔ (∃ id, entry.before.jobs.visible pid id = some job) ∧ CompletedStep saga job) ∧
    steps.Pairwise fun first second => ∃ left right,
      first.sagaStepIndex = some left ∧ second.sagaStepIndex = some right ∧ left < right := by
  obtain ⟨entry, among, same⟩ := List.mem_map.mp asked
  obtain ⟨newer, older, split⟩ := List.append_of_mem among
  obtain ⟨before, earlier, onward, _, stage, ⟨next, stood⟩, world, operated⟩ :=
    reachable.transaction_moment split
  obtain ⟨owner, role, operation, reply, scene⟩ := entry
  cases same
  have coordinates : role.coordinates := next_may earlier stood
  have rule := next_sagaRule earlier stood
  obtain ⟨read, keyed, rolling⟩ : ∃ read, read.id = saga ∧ RollingAt (traceOf pid before.log) read := by
    cases role with
    | coordinateSaga topic target => exact rule
    | _ => cases coordinates
  obtain ⟨_, _, _, _, running, reads⟩ := rolling.facts
  obtain ⟨row, stored, status⟩ :=
    current_kept earlier (serial.of_suffix onward.log_suffix) pid read reads
  rw [keyed] at stored
  have unmoved := status.trans running
  have plain := plain_of_suffix plain onward.log_suffix
  have answered : (reply : List Job) =
      (before.world.sagaJobs pid saga).filter fun job => job.status = .completed :=
    (congrArg Prod.fst (Option.some.inj operated)).symm
  refine ⟨⟨_, among, rfl, fun job => ?_⟩, ?_⟩
  · change job ∈ (reply : List Job) ↔ (∃ id, scene.jobs.visible pid id = some job) ∧ _
    rw [show scene = before.world from stage, answered, List.mem_filter, decide_eq_true_eq, mem_sagaJobs]
    constructor
    · rintro ⟨⟨seen, belongs⟩, completed⟩
      obtain ⟨_, _, indexed⟩ := completed_step earlier plain stood coordinates stored unmoved
        (mem_sagaJobs.mpr ⟨seen, belongs⟩) completed
      exact ⟨seen, belongs, Option.isSome_iff_exists.mpr indexed, completed⟩
    · rintro ⟨seen, step⟩
      exact ⟨⟨seen, step.member⟩, step.completed⟩
  · rw [answered]
    exact completed_ascending earlier plain stood coordinates stored unmoved

theorem commits_mints (serial : Serial pool.log) (plain : PlainSubmissions pool.log) {pid : Pid}
    {role : Role} {next : Reply .commit → Prog Unit} (coordinates : role.coordinates)
    (found : pool.process pid = some { role, program := .call .commit next }) :
    CommitsMints role pool.log pid := by
  have rule := next_sagaRule reachable found
  obtain ⟨topic, id, rfl, handled⟩ : ∃ topic id, role = .coordinateSaga topic id ∧
      Platform.Handled topic id (traceOf pid pool.log) := by
    cases role with
    | coordinateSaga topic id => exact ⟨topic, id, rfl, rule⟩
    | _ => cases coordinates
  rcases handled.minting with ⟨unmoved, none, _⟩ |
    ⟨rfl, saga, user, steps, mints, reads, running, moved, asked, minting, inside, inserted, submitted⟩
  · refine ⟨.inl ⟨unmoved, none⟩, fun job member => ?_⟩
    rw [none] at member
    cases member
  · obtain ⟨taken, ascending⟩ := stock_taken reachable serial plain asked
    refine ⟨.inr ⟨id, saga, user, steps, rfl, reads, running, moved, taken, ?_, ?_⟩, fun job member => ?_⟩
    · rw [inserted]
      refine minting.forall₂ fun done reply member => ?_
      obtain ⟨job, same, compensates, _⟩ := compensation_inserted reachable (inside member)
      exact ⟨job, same, compensates⟩
    · rw [List.pairwise_reverse]
      refine ascending.imp ?_
      rintro first second ⟨left, right, first_index, second_index, less⟩
      exact ⟨right, left, second_index, first_index, less⟩
    · have distinct := (insertions_kept reachable).distinct pid
      rw [inserted] at member distinct
      rw [submitted, minting.submissions]
      exact List.count_eq_one_of_mem distinct (List.mem_map_of_mem member)

end Commit

/-- The saga state machine over a run from `start` to `pool`. -/
structure SagaMachine (start pool : PlatformPool) : Prop where
  /-- The committed status only moves along the edges. -/
  path : ∀ saga old, start.world.sagas.committed saga = some old → ∃ row,
    pool.world.sagas.committed saga = some row ∧ Relation.ReflTransGen Edge old.status row.status
  /-- So does each status that is written. -/
  edges : ∀ entry ∈ pool.log, ∀ id status stamp,
    entry.operation = .statement (.updateSaga id status stamp) →
    ∃ row, entry.before.sagas.visible entry.pid id = some row ∧ Edge row.status status
  /-- No step is compensated twice. -/
  once : ((mintings pool.log).map compensatedStep).Nodup
  minted : ∀ newer entry older, pool.log = newer ++ entry :: older → entry.operation = .commit →
    entry.role.coordinates → CommitsMints entry.role older entry.pid

theorem saga_machine_well_formed {settings : Settings} {start pool : PlatformPool}
    (reachable : Reachable settings start) (reached : (platform settings).Reaches start pool)
    (serial : Serial pool.log) (plain : PlainSubmissions pool.log) : SagaMachine start pool := by
  have there := reachable.trans reached
  constructor
  · intro saga old stored
    exact status_path reachable reached serial stored
  · intro entry member id status stamp written
    obtain ⟨newer, older, split⟩ := List.append_of_mem member
    obtain ⟨before, earlier, onward, stage, ⟨next, stood⟩, _⟩ := there.moment_at split
    obtain ⟨pid, role, operation, reply, scene⟩ := entry
    cases written
    cases stage
    exact update_edge earlier (current_kept earlier (serial.of_suffix onward.log_suffix)) stood
  · exact (mints_kept there serial).2
  · intro newer entry older split commits coordinates
    obtain ⟨before, earlier, onward, _, ⟨next, stood⟩, _, rfl⟩ := there.moment_at split
    obtain ⟨pid, role, operation, reply, scene⟩ := entry
    cases commits
    exact commits_mints earlier (serial.of_suffix onward.log_suffix)
      (plain_of_suffix plain onward.log_suffix) coordinates stood

/-- A decidable form of `Serial`. -/
def serially : List PlatformEntry → Bool
  | [] => true
  | entry :: older =>
      (!entry.role.coordinates || older.all fun other =>
        !other.role.coordinates || other.pid == entry.pid || (traceOf other.pid older).isEmpty) &&
      serially older

theorem serial_of_serially {log : List PlatformEntry} (passes : serially log = true) : Serial log := by
  induction log with
  | nil =>
      intro newer entry older split
      cases newer <;> cases split
  | cons newest log rest =>
      obtain ⟨first, passes⟩ := Bool.and_eq_true_iff.mp passes
      intro newer entry older split coordinates other member coordinator different
      cases newer with
      | nil =>
          cases split
          rw [coordinates, Bool.not_true, Bool.false_or] at first
          have alone := List.all_eq_true.mp first other member
          simpa [coordinator, different] using alone
      | cons _ newer =>
          cases split
          exact rest passes newer entry older rfl coordinates other member coordinator different

def plainly (log : List PlatformEntry) : Bool :=
  log.all fun entry => match entry.role with
    | .createJob request => request.sagaId.isNone
    | _ => true

theorem plain_of_plainly {log : List PlatformEntry} (passes : plainly log = true) : PlainSubmissions log := by
  intro entry member request played
  have plain := List.all_eq_true.mp passes entry member
  simpa [played] using plain

theorem saga_machine_of_resolved_compensation : ∃ start pool, Reachable .defaults start ∧
    (platform .defaults).Reaches start pool ∧ Serial pool.log ∧ PlainSubmissions pool.log ∧
    (mintings pool.log).length = 1 ∧ SagaMachine start pool := by
  obtain ⟨start, pool, reachable, reached, checked⟩ : ∃ start pool, Reachable .defaults start ∧
      (platform .defaults).Reaches start pool ∧
      (serially pool.log && plainly pool.log && (mintings pool.log).length == 1) = true :=
    exists_reachable_then rollsBack compensationResolved (by decide +kernel)
  simp only [Bool.and_eq_true, beq_iff_eq] at checked
  obtain ⟨⟨passes, plain⟩, minted⟩ := checked
  have serial := serial_of_serially passes
  have plain := plain_of_plainly plain
  exact ⟨start, pool, reachable, reached, serial, plain, minted,
    saga_machine_well_formed reachable reached serial plain⟩

end IncidentPlatform.Properties

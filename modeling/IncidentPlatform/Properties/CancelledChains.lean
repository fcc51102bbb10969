import IncidentPlatform.Platform.SagaJobs
import IncidentPlatform.Properties.CascadeDrain
import IncidentPlatform.Properties.Promotion
import IncidentPlatform.Properties.TerminalEvents

namespace IncidentPlatform.Properties

open Concurrency Models Platform Repositories Search Services Storage Workers

/-! # Chains below a dead-lettered root

A cascade cancels only what WAITING rows connect to the job written, as they
stood before the write and up to the depth bound: a committed job keeps its
parents, and no row goes back to WAITING while the rounds follow each other.
-/

/-- The job and the status of a status write that a cascade follows. -/
def stranding (entry : PlatformEntry) : Option (Uuid × JobStatus) :=
  match entry.operation with
  | .statement (.updateStatus id write guard) =>
      if write.status.cascadeSource &&
          guard.all fun holds => (entry.before.jobs.visible entry.pid id).any holds then
        some (id, write.status)
      else none
  | _ => none

/-- How far the cascade of the last status write has got. -/
structure Cascade where
  top : Uuid
  status : JobStatus
  depth : Nat
  frontier : List Uuid
  /-- The frontier of the last SELECT of blocked children, and its answer. -/
  asked : List Uuid
  scanned : List Uuid

namespace Cascade

def advance (cascade : Option Cascade) : (operation : Op) → Reply operation → Option Cascade
  | .statement (.updateStatus id write guard), changed =>
      if guard.isSome && !changed then none
      else some
        { top := id, status := write.status, depth := 0, frontier := [id], asked := [], scanned := [] }
  | .query (.blockedChildren frontier), ids =>
      cascade.map fun cascade => { cascade with asked := frontier, scanned := ids }
  | .statement (.cancelBlocked ids _ _), _ =>
      cascade.map fun cascade => { cascade with depth := cascade.depth + 1, frontier := ids }
  | .commit, _ | .rollback, _ => none
  | _, _ => cascade

def Allows (cascade : Option Cascade) : Op → Prop
  | .statement (.cancelBlocked ids _ _) => ∃ now, cascade = some now ∧ now.status.cascadeSource ∧
      now.depth < cascadeMaxDepth ∧ now.asked = now.frontier ∧ ∀ id ∈ ids, id ∈ now.scanned
  | _ => True

end Cascade

@[reducible] def cascadeProtocol : Protocol Role Op Reply where
  State := Option Cascade
  start := fun _ => none
  allowed := Cascade.Allows
  advance := Cascade.advance

section Follows

variable {cascade : Option Cascade}

theorem announceCancelled_idles (rows : List Job) :
    (announceCancelled rows).Follows cascadeProtocol cascade fun after _ => after = cascade := by
  induction rows with
  | nil => exact rfl
  | cons row rest ih => exact ⟨trivial, fun _ => ih⟩

theorem cascadeLevels_walks {reason : String} {stamp : Time} {room count : Nat}
    {frontier seen : List Uuid} {now : Cascade} (source : now.status.cascadeSource)
    (front : now.frontier = frontier) (within : now.depth + room ≤ cascadeMaxDepth) :
    (cascadeLevels reason stamp room frontier seen count).Follows cascadeProtocol (some now)
      fun _ _ => True := by
  induction room generalizing frontier seen count now with
  | zero => exact trivial
  | succ room ih =>
      rw [cascadeLevels]
      split
      · exact trivial
      · refine .first trivial fun rows => ?_
        dsimp only
        split
        · exact trivial
        · have deeper : now.depth < cascadeMaxDepth := by omega
          refine .first ⟨_, rfl, source, deeper, front.symm,
            fun id member => (List.mem_filter.mp member).1⟩ fun hits => ?_
          refine .first trivial fun newly => (announceCancelled_idles newly).bind ?_
          rintro after _ rfl
          refine @ih _ _ _ { now with asked := _, scanned := _, depth := now.depth + 1, frontier := _ }
            source rfl ?_
          dsimp only
          omega

theorem updateStatus_walks (id : Uuid) (write : StatusWrite) (message : Option String)
    (guard : Option (Job → Bool)) :
    (updateStatus id write message guard).Follows cascadeProtocol cascade fun _ _ => True := by
  refine .first trivial fun changed => ?_
  dsimp only
  split
  · exact trivial
  · rename_i accepted
    simp only [Cascade.advance, accepted, Bool.false_eq_true, if_false]
    refine .first trivial fun found => ?_
    cases found with
    | none => exact trivial
    | some job =>
        have cascades : (do
              if write.status.cascadeSource then
                let _ ← cascadeCancelBlockedChildren id write.status
              pure (some job) : Prog (Option Job)).Follows cascadeProtocol
            (some ⟨id, write.status, 0, [id], [], []⟩) fun _ _ => True := by
          dsimp only
          split
          · rename_i source
            have levels : (cascadeCancelBlockedChildren id write.status).Follows cascadeProtocol
                (some ⟨id, write.status, 0, [id], [], []⟩) fun _ _ => True :=
              .first trivial fun _ => cascadeLevels_walks source rfl (Nat.zero_add _).le
            exact levels.bind fun _ _ _ => trivial
          · exact trivial
        dsimp only
        split
        · exact .first trivial fun _ => cascades
        · exact cascades

theorem Through.walks {α : Type} {program : Prog α} (through : Through program) :
    program.Follows cascadeProtocol cascade fun _ _ => True := by
  induction through generalizing cascade with
  | done value => exact trivial
  | @call operation next plain _ ih =>
      refine ⟨?_, fun reply => ih reply⟩
      cases operation with
      | statement issued =>
          cases issued with
          | cancelBlocked ids reason stamp => exact plain.elim
          | _ => exact trivial
      | _ => exact trivial
  | update _ ih => exact (updateStatus_walks _ _ _ _).bind fun after found _ => ih found

end Follows

/-- The cascade that the open transaction of `pid` is in. -/
def cascadeOf (pid : Pid) : List PlatformEntry → Option Cascade
  | [] => none
  | entry :: older =>
      if entry.pid = pid then Cascade.advance (cascadeOf pid older) entry.operation entry.reply
      else cascadeOf pid older

theorem stateFrom_cascade (role : Role) (pid : Pid) (log : List PlatformEntry) :
    cascadeProtocol.stateFrom role pid log = cascadeOf pid log := by
  induction log with
  | nil => rfl
  | cons entry older ih => rw [Protocol.stateFrom, cascadeOf, ih]

section Walks

variable {settings : Settings} {pool before : PlatformPool} {pid : Pid} {role : Role} {operation : Op}
  {next : Reply operation → Prog Unit} {reply : Reply operation} {scene world : World}
  {cascade : Option Cascade} {now : Cascade}

theorem cascade_permits (reachable : Reachable settings pool)
    (found : pool.process pid = some { role, program := .call operation next }) :
    Cascade.Allows (cascadeOf pid pool.log) operation := by
  obtain ⟨outside, reached⟩ := reachable
  have conforms : ∀ role : Role, ((platform settings).program role).Follows cascadeProtocol
      (cascadeProtocol.start role) fun _ _ => True := fun role => (program_through settings role).walks
  have follows := Protocol.keptBy_of_reaches conforms reached pid _ found
  rw [stateFrom_cascade] at follows
  exact follows.1

/-- The frontier is as far from the top as the rounds have gone, and the rows
read last are one edge further, as far as they are among those looked at. -/
structure Walks (within : Uuid → Prop) (edge : Uuid → Uuid → Prop) (cascade : Cascade) : Prop where
  frontier : ∀ id ∈ cascade.frontier, within id → Reached edge cascade.top cascade.depth id
  scanned : ∀ id ∈ cascade.scanned, within id → ∃ parent ∈ cascade.asked, within parent ∧ edge parent id

/-- The edges that a SELECT follows are among those given. -/
def Covers (pid : Pid) (world : World) (within : Uuid → Prop) (edge : Uuid → Uuid → Prop) : Prop :=
  ∀ parent child, within child → Strands pid world parent child → within parent ∧ edge parent child

theorem cascade_step (role : Role) (operated : World.operate pid operation scene = some (reply, world))
    (permitted : Cascade.Allows cascade operation)
    (advanced : Cascade.advance cascade operation reply = some now) :
    ((now.status.cascadeSource → stranding ⟨pid, role, operation, reply, scene⟩ =
        some (now.top, now.status)) ∧ ∀ within edge, Walks within edge now) ∨
    ∃ earlier, cascade = some earlier ∧ now.top = earlier.top ∧ now.status = earlier.status ∧
      ∀ within edge, Covers pid scene within edge → Walks within edge earlier →
        Walks within edge now := by
  cases operation with
  | query query =>
      cases query with
      | blockedChildren frontier =>
          obtain ⟨earlier, found, equal⟩ := Option.map_eq_some_iff.mp advanced
          subst equal
          refine .inr ⟨earlier, found, rfl, rfl, fun within edge follows walks => ⟨walks.frontier, ?_⟩⟩
          intro id member inside
          have answered : scene.blockedChildren pid frontier = reply :=
            congrArg Prod.fst (Option.some.inj operated)
          dsimp only at member
          rw [← answered] at member
          obtain ⟨parent, above, strands⟩ := mem_blockedChildren.mp member
          exact ⟨parent, above, follows parent id inside strands⟩
      | _ => exact .inr ⟨now, advanced, rfl, rfl, fun _ _ _ walks => walks⟩
  | statement issued =>
      cases issued with
      | updateStatus id write guard =>
          simp only [Cascade.advance] at advanced
          split at advanced
          · cases advanced
          · rename_i accepted
            cases advanced
            refine .inl ⟨fun source => ?_, fun within edge => ⟨?_, fun _ member => by cases member⟩⟩
            · cases guard with
              | none => simp_all [stranding]
              | some holds =>
                  have changed : reply = true := by simpa using accepted
                  subst changed
                  obtain ⟨_, _, _, row, seen, held, _⟩ := update_writes operated
                  simp_all [stranding]
            · intro other member _
              rw [List.mem_singleton.mp member]
              exact .root
      | cancelBlocked ids reason stamp =>
          obtain ⟨earlier, rfl, _, _, asked, among⟩ := permitted
          cases advanced
          refine .inr ⟨earlier, rfl, rfl, rfl, fun within edge _ walks => ⟨?_, walks.scanned⟩⟩
          intro id member inside
          obtain ⟨parent, above, inner, linked⟩ := walks.scanned id (among id member) inside
          rw [asked] at above
          exact (walks.frontier parent above inner).step linked
      | _ => exact .inr ⟨now, advanced, rfl, rfl, fun _ _ _ walks => walks⟩
  | commit => cases advanced
  | rollback => cases advanced
  | _ => exact .inr ⟨now, advanced, rfl, rfl, fun _ _ _ walks => walks⟩

theorem visible_edge_kept (operated : World.operate pid operation scene = some (reply, world))
    {viewer : Pid} (keeps : operation = .rollback → viewer ≠ pid) {edge : JobDependency}
    (member : edge ∈ scene.dependencies.visible viewer) : edge ∈ world.dependencies.visible viewer := by
  simp only [Journal.visible, List.mem_append] at member ⊢
  rcases operate_edges operated with ⟨id, parents, _, _, _, _, appended⟩ | ⟨_, committed⟩ |
    ⟨rolled, undone⟩ | ⟨_, _, same⟩
  · rw [appended]
    simp only [Journal.append]
    split
    · rename_i own
      rw [own] at member
      exact member.imp_right fun held => List.mem_append_left _ held
    · exact member
  · rw [committed]
    simp only [Journal.commit]
    split
    · rename_i own
      rw [own] at member
      exact .inl (List.mem_append.mpr member)
    · exact member.imp_left (List.mem_append_left _)
  · rw [undone]
    simp only [Journal.rollback, if_neg (keeps rolled)]
    exact member
  · rwa [same]

/-- A cascade has walked along edges that its transaction sees, down from a
status write of the transaction. -/
structure Walked (pool : PlatformPool) (pid : Pid) (cascade : Cascade) : Prop where
  begun : cascade.status.cascadeSource → ∃ entry ∈ transaction pid pool.log,
    stranding entry = some (cascade.top, cascade.status)
  walks : Walks (fun _ => True)
    (fun parent child => ⟨child, parent⟩ ∈ pool.world.dependencies.visible pid) cascade

theorem Walks.mono {within : Uuid → Prop} {edge wider : Uuid → Uuid → Prop}
    (walks : Walks within edge now) (widens : ∀ parent child, edge parent child → wider parent child) :
    Walks within wider now where
  frontier := fun id member inside => (walks.frontier id member inside).mono widens
  scanned := by
    intro id member inside
    obtain ⟨parent, above, inner, linked⟩ := walks.scanned id member inside
    exact ⟨parent, above, inner, widens parent id linked⟩

theorem cascadeOf_record (rest : Prog Unit) (queried : Pid) :
    cascadeOf queried (before.record pid role operation reply rest world).log =
      if pid = queried then Cascade.advance (cascadeOf queried before.log) operation reply
      else cascadeOf queried before.log := rfl

theorem open_of_advanced (advanced : Cascade.advance cascade operation reply = some now) :
    operation.ends = false := by
  cases operation with
  | commit => cases advanced
  | rollback => cases advanced
  | _ => rfl

theorem walked_of_reachable (reachable : Reachable settings pool) :
    ∀ pid cascade, cascadeOf pid pool.log = some cascade → Walked pool pid cascade := by
  obtain ⟨outside, reached⟩ := reachable
  refine reached.invariant (motive := fun pool => ∀ pid cascade,
    cascadeOf pid pool.log = some cascade → Walked pool pid cascade) ?_ ?_ ?_ ?_
  · intro pid cascade found
    cases found
  · intro before pid role world _ ih _ accepted viewer cascade found
    obtain ⟨begun, walks⟩ := ih viewer cascade found
    exact ⟨begun, by rwa [Pool.start_world, accept_edges accepted]⟩
  · intro before pid role operation next reply world earlier ih stood operated viewer now found
    rw [cascadeOf_record] at found
    split at found
    · rename_i own
      subst own
      have opened := open_of_advanced found
      have record : transaction pid (before.record pid role operation reply (next reply) world).log =
          ⟨pid, role, operation, reply, before.world⟩ :: transaction pid before.log := by
        simp [Pool.record_log, transaction, opened]
      have permitted := cascade_permits ⟨outside, earlier⟩ stood
      rcases cascade_step role operated permitted found with ⟨begun, walks⟩ |
        ⟨old, stage, top, status, walks⟩
      · exact ⟨fun source => ⟨_, by rw [record]; exact List.mem_cons_self, begun source⟩, walks _ _⟩
      · obtain ⟨begun, walked⟩ := ih pid old stage
        refine ⟨fun source => ?_, ?_⟩
        · obtain ⟨entry, member, strands⟩ := begun (status ▸ source)
          exact ⟨entry, by rw [record]; exact List.mem_cons_of_mem _ member, by rw [strands, top, status]⟩
        · refine (walks _ _ ?_ walked).mono fun parent child member =>
            visible_edge_kept operated (fun rolled => ?_) member
          · exact fun parent child _ strands => ⟨trivial, strands.1⟩
          · rw [rolled] at opened
            cases opened
    · rename_i other
      obtain ⟨begun, walked⟩ := ih viewer now found
      refine ⟨?_, walked.mono fun parent child member =>
        visible_edge_kept operated (fun _ => Ne.symm other) member⟩
      simpa only [Pool.record_log, transaction, if_neg other] using begun
  · intro before change world _ ih changed viewer cascade found
    obtain ⟨begun, walks⟩ := ih viewer cascade found
    exact ⟨begun, by rwa [change_edges changed]⟩

/-- A row is WAITING outside of sagas before a step that leaves it so, for
everybody whose transaction the step does not roll back. -/
theorem blocked_before (reachable : Reachable settings before) (may : role.may operation)
    (operated : World.operate pid operation before.world = some (reply, world)) {viewer : Pid} {id : Uuid}
    (present : ∃ row, (before.world.jobs.slot id).committed = some row)
    (opened : viewer = pid → operation.ends = false) {row : Job}
    (seen : (world.jobs.slot id).visible viewer = some row) (blocks : blocked row = true) :
    ∃ old, (before.world.jobs.slot id).visible viewer = some old ∧ blocked old = true := by
  simp only [blocked, Bool.and_eq_true, decide_eq_true_eq] at blocks ⊢
  have other : (operation = .commit ∨ operation = .rollback) → viewer ≠ pid := by
    intro ends same
    have continues := opened same
    rcases ends with rfl | rfl <;> cases continues
  rcases operate_slot operated id with ⟨new, writes, free, slot⟩ | ⟨ends, slot⟩ | ⟨ends, slot⟩ |
    ⟨_, _, _, slot⟩
  · rw [slot] at seen
    by_cases own : viewer = pid
    · subst own
      rw [Slot.visible_write_self] at seen
      cases seen
      obtain ⟨stored, committed⟩ := present
      obtain ⟨old, found⟩ := Slot.visible_of_stored viewer committed
      rw [← Table.slot_visible, found] at writes
      refine ⟨old, found, ?_, ?_⟩
      · by_contra left
        exact left_of_writes may writes left blocks.1
      · rw [← writes.sameJob.sagaId, blocks.2]
    · exact ⟨row, by rwa [Slot.visible_write_other own free] at seen, blocks⟩
  · rw [slot] at seen
    rcases (before.world.jobs.slot id).commit_cases pid with ⟨version, held, equal⟩ | ⟨_, equal⟩
    · have foreign : ∀ mine, (before.world.jobs.slot id).holder ≠ some (viewer, mine) := by
        intro mine own
        rw [held] at own
        cases own
        exact other (.inl ends) rfl
      have final : row = version := by
        rw [equal, Slot.visible_of_free (by simp)] at seen
        exact (Option.some.inj seen).symm
      subst final
      obtain ⟨stored, committed⟩ := present
      have same := (insertions_kept reachable).versions id pid row stored held committed
      refine ⟨stored, by rw [Slot.visible_of_free foreign, committed], ?_, ?_⟩
      · by_contra left
        exact (departures_of_reachable reachable id).versions ⟨stored, committed, left⟩ pid row held blocks.1
      · rw [← same.sagaId, blocks.2]
    · exact ⟨row, by rwa [equal] at seen, blocks⟩
  · rw [slot, Slot.visible_rollback_other (other (.inr ends))] at seen
    exact ⟨row, seen, blocks⟩
  · rw [slot] at seen
    exact ⟨row, seen, blocks⟩

end Walks

/-- `parent` is declared for `child`. -/
def Declared (world : World) (child parent : Uuid) : Prop := parent ∈ world.declaredParents child

/-- The job depends on `id`, at any distance. -/
def Descends (world : World) (job id : Uuid) : Prop := Relation.TransGen (Declared world) job id

/-- `id` is the job, or one that it depends on at some distance. -/
def AtOrAbove (world : World) (job id : Uuid) : Prop := Relation.ReflTransGen (Declared world) job id

/-- A cascade from `top` would get to the job from here. -/
def CascadeReaches (pid : Pid) (world : World) (top job : Uuid) : Prop :=
  ∃ length, 0 < length ∧ length ≤ cascadeMaxDepth ∧ Reached (Strands pid world) top length job

section Family

variable {settings : Settings} {start pool : PlatformPool} {job id : Uuid} {row : Job}

theorem stored_above (reachable : Reachable settings start)
    (stored : (start.world.jobs.slot job).committed = some row) (above : AtOrAbove start.world job id) :
    ∃ found, (start.world.jobs.slot id).committed = some found := by
  rcases above.cases_tail with same | ⟨child, _, declared⟩
  · exact ⟨row, by rw [same, stored]⟩
  · exact (graph_kept reachable).parent_stored declared

theorem declared_of_seen (reachable : Reachable settings start)
    (reached : (platform settings).Reaches start pool)
    (stored : (start.world.jobs.slot job).committed = some row) {pid : Pid} {parent child : Uuid}
    (above : AtOrAbove start.world job child)
    (seen : ⟨child, parent⟩ ∈ pool.world.dependencies.visible pid) : Declared start.world child parent := by
  obtain ⟨found, present⟩ := stored_above reachable stored above
  obtain ⟨⟨now, committed⟩, same⟩ := declaredParents_kept reachable reached present
  have parents := (graph_kept (reachable.trans reached)).parentsOf committed pid
  rw [Declared, ← same, ← parents, World.parentsOf]
  exact List.mem_map.mpr ⟨⟨child, parent⟩, List.mem_filter.mpr ⟨seen, decide_eq_true rfl⟩, rfl⟩

theorem declared_of_reached {edge : Uuid → Uuid → Prop} {top : Uuid} {length : Nat}
    (declared : ∀ parent child, AtOrAbove start.world job child → edge parent child →
      Declared start.world child parent)
    (reached : Reached edge top length id) (above : AtOrAbove start.world job id) :
    Reached (fun parent child => Declared start.world child parent) top length id := by
  induction reached with
  | root => exact .root
  | step _ linked ih =>
      have closer := declared _ _ above linked
      exact (ih (above.tail closer)).step closer

theorem descends_of_reached {world : World} {top : Uuid} {length : Nat}
    (reached : Reached (fun parent child => Declared world child parent) top length id)
    (positive : 0 < length) : Descends world id top := by
  induction reached with
  | root => contradiction
  | @step length parent child _ declared ih =>
      rcases Nat.eq_zero_or_pos length with rfl | further
      · rename_i reached
        rw [← reached_zero.mp reached]
        exact .single declared
      · exact .head declared (ih further)

end Family

/-- From the root's death on no cascade can get to the job: neither from a
status write, by what its transaction sees, nor from one that is under way at
the death, by the declared edges. -/
structure OutOfReach (job : Uuid) (newer older : List PlatformEntry) (death : PlatformEntry) : Prop where
  writes : ∀ entry ∈ newer ++ [death], ∀ top status, stranding entry = some (top, status) →
    ¬ CascadeReaches entry.pid entry.before top job
  unfinished : ∀ pid, ∀ entry ∈ transaction pid older, ∀ top status,
    stranding entry = some (top, status) → ¬ Descends death.before job top
  uncancelled : ∀ pid version, (death.before.jobs.slot job).holder = some (pid, version) →
    version.status ≠ .cancelled

/-- The job is not CANCELLED, and no cascade that is under way gets to it. -/
structure Spared (start : PlatformPool) (job : Uuid) (pool : PlatformPool) : Prop where
  rows : (pool.world.jobs.slot job).All fun row => row.status ≠ .cancelled
  cascades : ∀ pid cascade, cascadeOf pid pool.log = some cascade → cascade.status.cascadeSource →
    ∃ edge : Uuid → Uuid → Prop,
      (∀ length, 0 < length → length ≤ cascadeMaxDepth → ¬ Reached edge cascade.top length job) ∧
      Covers pid pool.world (AtOrAbove start.world job) edge ∧
      Walks (AtOrAbove start.world job) edge cascade

section Run

variable {settings : Settings} {start before pool : PlatformPool} {job : Uuid} {row : Job} {pid : Pid}
  {role : Role} {operation : Op} {next : Reply operation → Prog Unit} {reply : Reply operation}
  {world : World}

theorem coordinates_of_cancels {id : Uuid} {write : StatusWrite} {guard : Option (Job → Bool)}
    (may : role.MayUpdate id write guard) (cancels : write.status = .cancelled) : role.coordinates := by
  cases role with
  | replay target tenant principal => simp [may.2.1, replayWrite] at cancels
  | replayEach ids tenant principal => simp [may.1, replayWrite] at cancels
  | promoteDlqReplay => simp [may.1, replayWrite] at cancels
  | resolveIncident target user tenant => simp [may.2.1] at cancels
  | deliver target => rcases may.2.2 with same | same | same <;> simp [same] at cancels
  | redeliver target => rcases may.2.2 with same | same | same <;> simp [same] at cancels
  | forceDeadLetter target error => simp [may.2.2] at cancels
  | sweepStaleRunning => simp [may.1] at cancels
  | coordinateSaga topic target => rfl
  | _ => exact may.elim

theorem step_of_coordinated (reachable : Reachable settings before) {topic : Topic} {handled : Uuid}
    {write : StatusWrite} {guard : Option (Job → Bool)}
    {next : Reply (.statement (.updateStatus job write guard)) → Prog Unit}
    (stood : before.process pid = some
      { role := .coordinateSaga topic handled
        program := .call (.statement (.updateStatus job write guard)) next })
    (stored : (before.world.jobs.slot job).committed = some row) : row.sagaId ≠ none := by
  obtain ⟨saga, waiting, _, asked, listed⟩ := next_sagaRule reachable stood
  obtain ⟨read, member, same⟩ := List.mem_map.mp listed
  obtain ⟨earlier, later, first, onward, split, _, _, answered⟩ := reachable.act_moment asked
  have rows : (earlier.world.jobs.rows pid).filter (fun job =>
      job.sagaId = some saga.id && (job.status = .waiting || job.status = .pending)) = waiting :=
    congrArg Prod.fst (Option.some.inj answered)
  rw [← rows, List.mem_filter, Bool.and_eq_true, decide_eq_true_eq] at member
  obtain ⟨seen, belongs, _⟩ := member
  obtain ⟨key, found⟩ := Table.mem_rows_iff.mp seen
  rw [← Table.slot_visible] at found
  have keyed : read.id = key := (rows_keyed first key).visible found
  subst keyed
  rw [same] at found
  rcases Slot.visible_cases found with held | committed
  · cases present : (earlier.world.jobs.slot job).committed with
    | none =>
        -- A job that the transaction has inserted itself is not committed yet.
        obtain ⟨inserted, member, rfl, _⟩ := (insertions_kept first).fresh job pid read held present
        have still : inserted ∈ insertions (traceOf pid before.log) := by
          rw [split]
          have suffix := List.suffix_append later (⟨.query (.waitingSteps saga.id), waiting⟩ :: traceOf pid earlier.log)
          have older := (List.suffix_cons _ (traceOf pid earlier.log)).trans suffix
          exact (older.sublist.filterMap insertionOf).subset member
        obtain ⟨_, _, _, absent⟩ := (insertions_kept reachable).held pid inserted still
        rw [stored] at absent
        cases absent
    | some old =>
        obtain ⟨now, committed, agrees⟩ := stored_same first onward present
        have agreed := (insertions_kept first).versions job pid read old held present
        rw [Table.slot_committed, committed] at stored
        cases stored
        rw [agrees.sagaId, ← agreed.sagaId, belongs]
        simp
  · obtain ⟨now, committed, agrees⟩ := stored_same first onward committed
    rw [Table.slot_committed, committed] at stored
    cases stored
    rw [agrees.sagaId, belongs]
    simp

theorem Spared.uncancelled (spared : Spared start job before) (reachable : Reachable settings before)
    (stood : before.process pid = some { role, program := .call operation next })
    (operated : World.operate pid operation before.world = some (reply, world))
    (stored : (before.world.jobs.slot job).committed = some row) (alone : row.sagaId = none)
    {new : Job} (writes : operation.Writes before.world job (before.world.jobs.visible pid job) new reply) :
    new.status ≠ .cancelled := by
  have may := next_may reachable stood
  obtain ⟨seen, found⟩ := Slot.visible_of_stored pid stored
  rw [← Table.slot_visible, found] at writes
  have kept : seen.status ≠ .cancelled := spared.rows.visible found
  cases operation with
  | statement issued =>
      cases issued with
      | updateStatus id write guard =>
          obtain ⟨_, rfl, _, _, _, rfl⟩ := writes
          rw [StatusWrite.apply_status]
          intro cancels
          have coordinates := coordinates_of_cancels may cancels
          cases role with
          | coordinateSaga topic handled => exact step_of_coordinated reachable stood stored alone
          | _ => cases coordinates
      | claimForRunning id =>
          obtain ⟨_, _, _, _, _, rfl⟩ := writes
          simp [World.claimed]
      | promoteWaitingToPending id =>
          obtain ⟨_, _, _, _, _, rfl⟩ := writes
          simp [World.promoted]
      | cancelBlocked ids reason stamp =>
          obtain ⟨jobs, updated, _⟩ := withJobs_eq operated
          have target : job ∈ ids := List.mem_dedup.mp ((Table.updateAll_sublist updated).subset writes.1)
          obtain ⟨cascade, stage, source, room, asked, among⟩ := cascade_permits reachable stood
          obtain ⟨edge, clear, _, walks⟩ := spared.cascades pid cascade stage source
          obtain ⟨parent, above, inner, linked⟩ := walks.scanned job (among job target) .refl
          rw [asked] at above
          have reached := (walks.frontier parent above inner).step linked
          exact absurd reached (clear _ (Nat.succ_pos _) room)
      | stampRequeued id stamp =>
          obtain ⟨_, _, equal, rfl⟩ := writes
          cases equal
          exact kept
      | renewRunningLeases ids oldest stamp =>
          obtain ⟨_, _, equal, _, rfl⟩ := writes
          cases equal
          exact kept
      | insertJob draft => cases writes.1
      | _ => exact writes.elim
  | _ => exact writes.elim

theorem Spared.record (spared : Spared start job before) (reachable : Reachable settings start)
    (reached : (platform settings).Reaches start before)
    (onward : (platform settings).Reaches start (before.record pid role operation reply (next reply) world))
    (stood : before.process pid = some { role, program := .call operation next })
    (operated : World.operate pid operation before.world = some (reply, world))
    (stored : (start.world.jobs.slot job).committed = some row) (alone : row.sagaId = none)
    (clear : ∀ top status, stranding ⟨pid, role, operation, reply, before.world⟩ = some (top, status) →
      ¬ CascadeReaches pid before.world top job) :
    Spared start job (before.record pid role operation reply (next reply) world) := by
  have here := reachable.trans reached
  obtain ⟨now, committed, same⟩ := stored_same reachable reached stored
  -- What a transaction that stays open could walk along after the step, it could before.
  have back : ∀ viewer parent child, (viewer = pid → operation.ends = false) →
      AtOrAbove start.world job child → Strands viewer world parent child →
      Strands viewer before.world parent child := by
    intro viewer parent child opened above strands
    obtain ⟨seen, waiting, found, blocks⟩ := strands
    have declared := declared_of_seen reachable onward stored above seen
    obtain ⟨_, present⟩ := stored_above reachable stored above
    obtain ⟨⟨_, still⟩, parents⟩ := declaredParents_kept reachable reached present
    rw [← Table.slot_visible] at found
    obtain ⟨old, visible, held⟩ := blocked_before here (next_may here stood) operated ⟨_, still⟩ opened
      found blocks
    refine ⟨?_, old, by rwa [← Table.slot_visible], held⟩
    rw [Declared, ← parents, ← (graph_kept here).parentsOf still viewer, World.parentsOf] at declared
    obtain ⟨⟨_, _⟩, listed, rfl⟩ := List.mem_map.mp declared
    obtain ⟨member, rfl⟩ := List.mem_filter.mp listed |>.imp_right of_decide_eq_true
    exact member
  refine ⟨?_, ?_⟩
  · exact (operate_jobTurn operated job).all spared.rows fun new writes =>
      spared.uncancelled here stood operated committed (by rw [same.sagaId, alone]) writes
  · intro viewer cascade found source
    rw [cascadeOf_record] at found
    split at found
    · rename_i own
      subst own
      have opened := open_of_advanced found
      rcases cascade_step role operated (cascade_permits here stood) found with
        ⟨begun, walks⟩ | ⟨old, stage, top, status, walks⟩
      · refine ⟨Strands pid before.world, ?_, ?_, walks _ _⟩
        · intro length positive within path
          exact clear _ _ (begun source) ⟨length, positive, within, path⟩
        · intro parent child above strands
          have seen := strands.1
          exact ⟨above.tail (declared_of_seen reachable onward stored above seen),
            back pid parent child (fun _ => opened) above strands⟩
      · obtain ⟨edge, far, follows, walked⟩ := spared.cascades pid old stage (status ▸ source)
        refine ⟨edge, by rwa [top], ?_, walks _ _ follows walked⟩
        intro parent child above strands
        exact follows parent child above (back pid parent child (fun _ => opened) above strands)
    · rename_i other
      obtain ⟨edge, far, follows, walked⟩ := spared.cascades viewer cascade found source
      refine ⟨edge, far, ?_, walked⟩
      intro parent child above strands
      exact follows parent child above
        (back viewer parent child (fun same => absurd same.symm other) above strands)

theorem Spared.of_same {after : PlatformPool} (spared : Spared start job before)
    (sameLog : after.log = before.log)
    (sameSlots : ∀ id, after.world.jobs.slot id = before.world.jobs.slot id)
    (sameEdges : after.world.dependencies = before.world.dependencies) : Spared start job after := by
  refine ⟨by rw [sameSlots]; exact spared.rows, ?_⟩
  intro viewer cascade found source
  rw [sameLog] at found
  obtain ⟨edge, far, follows, walks⟩ := spared.cascades viewer cascade found source
  refine ⟨edge, far, ?_, walks⟩
  intro parent child above strands
  rw [Strands, sameEdges, ← Table.slot_visible, sameSlots, Table.slot_visible] at strands
  exact follows parent child above strands

theorem spared_at_death (reachable : Reachable settings start)
    (stored : (start.world.jobs.slot job).committed = some row) (waits : row.status = .waiting)
    (uncancelled : ∀ pid version, (start.world.jobs.slot job).holder = some (pid, version) →
      version.status ≠ .cancelled)
    (unfinished : ∀ pid, ∀ entry ∈ transaction pid start.log, ∀ top status,
      stranding entry = some (top, status) → ¬ Descends start.world job top) :
    Spared start job start := by
  refine ⟨⟨fun found committed => ?_, uncancelled⟩, ?_⟩
  · rw [stored] at committed
    cases committed
    simp [waits]
  · intro pid cascade found source
    obtain ⟨begun, walks⟩ := walked_of_reachable reachable pid cascade found
    obtain ⟨entry, member, strands⟩ := begun source
    have declared : ∀ parent child, AtOrAbove start.world job child →
        ⟨child, parent⟩ ∈ start.world.dependencies.visible pid → Declared start.world child parent :=
      fun parent child above seen => declared_of_seen reachable .refl stored above seen
    refine ⟨fun parent child => Declared start.world child parent, ?_, ?_, ?_, ?_⟩
    · intro length positive _ path
      exact unfinished pid entry member _ _ strands (descends_of_reached path positive)
    · intro parent child above strands
      have closer := declared parent child above strands.1
      exact ⟨above.tail closer, closer⟩
    · intro id member above
      exact declared_of_reached declared (walks.frontier id member trivial) above
    · intro id member above
      obtain ⟨parent, asked, _, seen⟩ := walks.scanned id member trivial
      have closer := declared parent id above seen
      exact ⟨parent, asked, above.tail closer, closer⟩

theorem spared_after (reachable : Reachable settings start)
    (reached : (platform settings).Reaches start pool)
    (stored : (start.world.jobs.slot job).committed = some row) (alone : row.sagaId = none)
    (spared : Spared start job start) {newer : List PlatformEntry} (split : pool.log = newer ++ start.log)
    (clear : ∀ entry ∈ newer, ∀ top status, stranding entry = some (top, status) →
      ¬ CascadeReaches entry.pid entry.before top job) : Spared start job pool := by
  refine reached.invariant (motive := fun pool => ∀ newer, pool.log = newer ++ start.log →
    (∀ entry ∈ newer, ∀ top status, stranding entry = some (top, status) →
      ¬ CascadeReaches entry.pid entry.before top job) → Spared start job pool) ?_ ?_ ?_ ?_ newer split clear
  · exact fun _ _ _ => spared
  · intro before pid role world _ ih _ accepted newer split clear
    exact (ih newer split clear).of_same rfl (fun id => by rw [Pool.start_world, accept_jobs accepted])
      (accept_edges accepted)
  · intro before pid role operation next reply world earlier ih stood operated newer split clear
    have stepped : (platform settings).step (.run pid) before =
        some (before.record pid role operation reply (next reply) world) := by
      have performed : (platform settings).execute pid operation before.world = some (reply, world) := operated
      simp only [System.step, stood, performed]
    obtain ⟨older, grown⟩ := earlier.log_suffix
    rw [Pool.record_log, ← grown, ← List.cons_append] at split
    obtain rfl := List.append_cancel_right split
    have sparing := ih older grown.symm fun entry member => clear entry (List.mem_cons_of_mem _ member)
    exact sparing.record reachable earlier (earlier.step stepped) stood operated stored alone
      (clear _ List.mem_cons_self)
  · intro before change world _ ih changed newer split clear
    exact (ih newer split clear).of_same rfl (change_slot changed) (change_edges changed)

end Run

/-- `replay_job` resets the root. -/
def resetsRoot (root : Uuid) (entry : PlatformEntry) : Bool :=
  entry.role.replays && match entry.operation with
    | .statement (.updateStatus id _ _) => id = root
    | _ => false

/-- The root is dead-lettered with `job` waiting below it, replayed, and completes. -/
structure RootReturns (settings : Settings) (root job : Uuid) (returned : PlatformPool)
    (newer older : List PlatformEntry) (death : PlatformEntry) : Prop where
  reachable : Reachable settings returned
  logged : returned.log = newer ++ death :: older
  dies : stranding death = some (root, .deadLetter)
  waiting : ∃ row, death.before.jobs.committed job = some row ∧ blocked row = true
  below : Descends death.before job root
  replayed : ∃ entry ∈ newer, resetsRoot root entry = true
  completed : ∃ row, returned.world.jobs.committed root = some row ∧ row.status = .completed

/-- In every run in which no cascade can get to it from the root's death on, what
waited below the root is WAITING still, or further along. -/
theorem replayed_root_unsticks_chain {settings : Settings} {root job : Uuid} {returned : PlatformPool}
    {newer older : List PlatformEntry} {death : PlatformEntry}
    (returns : RootReturns settings root job returned newer older death)
    (spared : OutOfReach job newer older death) :
    ∃ row, returned.world.jobs.committed job = some row ∧ row.status ≠ .cancelled := by
  obtain ⟨before, reachable, reached, scene, _, _, rfl⟩ := returns.reachable.moment_at returns.logged
  obtain ⟨row, stored, blocks⟩ := returns.waiting
  simp only [blocked, Bool.and_eq_true, decide_eq_true_eq] at blocks
  rw [scene] at stored
  have start := spared_at_death reachable stored blocks.1 (by simpa only [scene] using spared.uncancelled)
    (by simpa only [scene] using spared.unfinished)
  have split : returned.log = (newer ++ [death]) ++ before.log := by
    rw [returns.logged, List.append_assoc, List.singleton_append]
  have final := spared_after reachable reached stored blocks.2 start split spared.writes
  obtain ⟨now, committed, _⟩ := stored_same reachable reached stored
  exact ⟨now, committed, final.rows.committed now committed⟩

def uploadAfter (dependencies : List Uuid) : Role :=
  .createJob { userId := 7, tenantId := 8, jobType := "csv_upload", dependencies }

def threeWait : List (Label Role Change) :=
  [.spawn 1 (uploadAfter [])] ++ turns 1 4 ++ tick 2 .timedOut ++ [.spawn 2 (uploadAfter [1])] ++ turns 2 5 ++
  tick 3 .timedOut ++ [.spawn 3 (uploadAfter [2])] ++ turns 3 5

/-- Job 1 overruns its deadline, and the cascade cancels the jobs 2 and 3. -/
def rootDies : List (Label Role Change) :=
  [.spawn 5 .outboxRelay] ++ turns 5 6 ++ tick 5 .timedOut ++ [.spawn 6 (.deliver 1)] ++ turns 6 14 ++
  tick 6 .timedOut ++ turns 6 4 ++ tick 7 .timedOut ++ turns 6 4

/-- The same after an operator has resolved job 2, so that the cascade finds
nothing below job 1. -/
def rootDiesAlone : List (Label Role Change) :=
  tick 4 .timedOut ++ [.spawn 4 (.resolveIncident 2 7 8)] ++ turns 4 6 ++
  [.spawn 5 .outboxRelay] ++ turns 5 7 ++ tick 5 .timedOut ++ [.spawn 6 (.deliver 1)] ++ turns 6 14

def rootReturns : List (Label Role Change) :=
  tick 8 (.returned .null) ++
  [.spawn 7 (.replay 1 8 { kind := "user", requestingUserId := some 7 }), .spawn 8 .outboxRelay] ++
  turns 7 8 ++ turns 8 4 ++ tick 9 (.returned .null) ++ turns 8 2 ++ [.spawn 9 (.deliver 1)] ++ turns 9 12

theorem exists_rootReturns {labels : List (Label Role Change)}
    {check : List PlatformEntry → List PlatformEntry → PlatformEntry → PlatformPool → Bool}
    (passes : (runFresh .defaults labels).any (fun returned =>
      match returned.log.dropWhile fun entry => stranding entry ≠ some (1, .deadLetter) with
      | [] => false
      | death :: older =>
          let newer := returned.log.takeWhile fun entry => stranding entry ≠ some (1, .deadLetter)
          (death.before.jobs.committed 3).any blocked &&
          decide (2 ∈ death.before.declaredParents 3) && decide (1 ∈ death.before.declaredParents 2) &&
          newer.any (resetsRoot 1) && (returned.world.jobs.committed 1).any (fun row => row.status = .completed) &&
          check newer older death returned) = true) :
    ∃ returned newer older death, RootReturns .defaults 1 3 returned newer older death ∧
      check newer older death returned = true := by
  obtain ⟨returned, reachable, checked⟩ := exists_reachable labels passes
  split at checked
  · cases checked
  · rename_i death older below
    simp only [Bool.and_eq_true, decide_eq_true_eq] at checked
    obtain ⟨⟨⟨⟨⟨waits, second⟩, first⟩, replayed⟩, completed⟩, checked⟩ := checked
    have logged := List.takeWhile_append_dropWhile (l := returned.log)
      (p := fun entry => stranding entry ≠ some (1, .deadLetter))
    rw [below] at logged
    refine ⟨returned, _, older, death, ⟨reachable, logged.symm, ?_, ?_, ?_, ?_, ?_⟩, checked⟩
    · have present : returned.log.dropWhile (fun entry => stranding entry ≠ some (1, .deadLetter)) ≠ [] := by
        rw [below]
        exact List.cons_ne_nil _ _
      have dies := List.head_dropWhile_not _ present
      simp only [below, List.head_cons] at dies
      simpa using dies
    · exact (Option.any_eq_true _ _).mp waits
    · exact .head second (.single first)
    · exact List.any_eq_true.mp replayed
    · obtain ⟨row, stored, status⟩ := (Option.any_eq_true _ _).mp completed
      exact ⟨row, stored, of_decide_eq_true status⟩

theorem not_reaches_of_childless {pid : Pid} {world : World} {top job : Uuid}
    (childless : world.blockedChildren pid [top] = []) : ¬ CascadeReaches pid world top job := by
  have unlinked : ∀ child, ¬ Strands pid world top child := by
    intro child strands
    have member := mem_blockedChildren.mpr ⟨top, List.mem_singleton_self top, strands⟩
    rw [childless] at member
    cases member
  rintro ⟨length, positive, short, reached⟩
  clear short
  induction reached with
  | root => contradiction
  | @step length parent child path linked ih =>
      rcases Nat.eq_zero_or_pos length with rfl | further
      · rw [reached_zero.mp path] at linked
        exact unlinked child linked
      · exact ih further

theorem replayed_root_unsticks_chain_of_resolved : ∃ returned newer older death,
    RootReturns .defaults 1 3 returned newer older death ∧ OutOfReach 3 newer older death ∧
    ∃ row, returned.world.jobs.committed 3 = some row ∧ row.status ≠ .cancelled := by
  obtain ⟨returned, newer, older, death, returns, checked⟩ := @exists_rootReturns
    (threeWait ++ rootDiesAlone ++ rootReturns)
    (fun newer older death _ =>
      ((newer ++ [death]).all fun entry => (stranding entry).all fun (top, _) =>
        (entry.before.blockedChildren entry.pid [top]).isEmpty) &&
      (older.all fun entry => (stranding entry).isNone) && (death.before.jobs.slot 3).holder.isNone)
    (by decide +kernel)
  simp only [Bool.and_eq_true, List.all_eq_true, Option.isNone_iff_eq_none] at checked
  obtain ⟨⟨childless, quiet⟩, unheld⟩ := checked
  have spared : OutOfReach 3 newer older death := by
    refine ⟨?_, ?_, ?_⟩
    · intro entry member top status strands
      have empty := childless entry member
      rw [strands] at empty
      exact not_reaches_of_childless (List.isEmpty_iff.mp empty)
    · intro pid entry member top status strands
      rw [quiet entry (transaction_mem member).1] at strands
      cases strands
    · intro pid version held
      rw [unheld] at held
      cases held
  exact ⟨returned, newer, older, death, returns, spared, replayed_root_unsticks_chain returns spared⟩

theorem replayed_root_leaves_child_cancelled :
    ¬ ∀ (settings : Settings) (root job : Uuid) (returned : PlatformPool)
      (newer older : List PlatformEntry) (death : PlatformEntry) (row : Job),
      RootReturns settings root job returned newer older death →
      returned.world.jobs.committed job = some row →
      ¬ (row.status = .cancelled ∧ row.errorMessage = some (cascadeReason root .deadLetter)) := by
  intro unsticks
  obtain ⟨returned, newer, older, death, returns, blamed⟩ := @exists_rootReturns
    (threeWait ++ rootDies ++ rootReturns)
    (fun _ _ _ returned => (returned.world.jobs.committed 3).any fun row =>
      row.status = .cancelled && row.errorMessage = some (cascadeReason 1 .deadLetter)) (by decide +kernel)
  obtain ⟨row, stored, cancelled⟩ := (Option.any_eq_true _ _).mp blamed
  simp only [Bool.and_eq_true, decide_eq_true_eq] at cancelled
  exact unsticks .defaults 1 3 returned newer older death row returns stored cancelled

end IncidentPlatform.Properties

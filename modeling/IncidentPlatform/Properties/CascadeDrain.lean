import IncidentPlatform.Platform.Graph
import IncidentPlatform.Properties.DependencyCalls
import IncidentPlatform.Search.Levels

namespace IncidentPlatform.Properties

open Concurrency Models Platform Repositories Search Services Storage

/-! # What a cascade drains

`update_status` to a status that strands its children walks the WAITING rows
below the job, one level at a time.  Each round cancels exactly the next level,
so the rounds reach exactly as far as their number.
-/

def blocked (row : Job) : Bool := row.status = .waiting && row.sagaId = none

/-- The child depends on the parent and may be cancelled for it. -/
def Strands (pid : Pid) (world : World) (parent child : Uuid) : Prop :=
  ⟨child, parent⟩ ∈ world.dependencies.visible pid ∧
    ∃ row, world.jobs.visible pid child = some row ∧ blocked row = true

/-- Reachable from the root through WAITING jobs outside of sagas. -/
def StrandedBelow (pid : Pid) (world : World) (root id : Uuid) : Prop :=
  ∃ length > 0, Reached (Strands pid world) root length id

theorem mem_blockedChildren {pid : Pid} {world : World} {frontier : List Uuid} {child : Uuid} :
    child ∈ world.blockedChildren pid frontier ↔ ∃ parent ∈ frontier, Strands pid world parent child := by
  unfold World.blockedChildren Strands
  rw [List.mem_map]
  constructor
  · intro found
    obtain ⟨edge, selected, rfl⟩ := found
    simp only [List.mem_filter, Bool.and_eq_true, List.contains_iff_mem, Option.any_eq_true] at selected
    obtain ⟨present, above, row, seen, blocks⟩ := selected
    exact ⟨edge.dependsOn, above, present, row, seen, by simpa [blocked] using blocks⟩
  · intro found
    obtain ⟨parent, above, present, row, seen, blocks⟩ := found
    refine ⟨⟨child, parent⟩, ?_, rfl⟩
    simp only [List.mem_filter, Bool.and_eq_true, List.contains_iff_mem, Option.any_eq_true]
    exact ⟨present, above, row, seen, by simpa [blocked] using blocks⟩

/-- The rows after `depth` levels of a cascade that started in `start`. -/
structure Drained (pid : Pid) (start : World) (root : Uuid) (depth : Nat) (world : World) : Prop where
  edges : world.dependencies = start.dependencies
  top : ∀ row, world.jobs.visible pid root = some row → row.status ≠ .waiting
  cancelled : ∀ id, Near (Strands pid start) root depth id → id ≠ root →
    ∃ row, world.jobs.visible pid id = some row ∧ row.status = .cancelled
  others : ∀ id, ¬ Near (Strands pid start) root depth id →
    world.jobs.visible pid id = start.jobs.visible pid id

section Levels

variable {settings : Settings} {pid : Pid} {start world after : World} {root : Uuid} {depth : Nat}
  {reason : String} {stamp : Time}

theorem Drained.unmoved (drained : Drained pid start root depth world) (unmoved : Unmoved world after) :
    Drained pid start root depth after where
  edges := unmoved.dependencies.trans drained.edges
  top := by
    intro row seen
    rw [unmoved.visible] at seen
    exact drained.top row seen
  cancelled := by
    intro id near other
    rw [unmoved.visible]
    exact drained.cancelled id near other
  others := by
    intro id far
    rw [unmoved.visible]
    exact drained.others id far

theorem Drained.deeper {further : Nat} (drained : Drained pid start root depth world)
    (exhausted : ∀ id, ¬ Level (Strands pid start) root (depth + 1) id) (deeper : depth ≤ further) :
    Drained pid start root further world where
  edges := drained.edges
  top := drained.top
  cancelled := by
    intro id near other
    obtain ⟨length, _, reached⟩ := near
    exact drained.cancelled id (near_of_exhausted exhausted reached) other
  others := by
    intro id far
    exact drained.others id fun near => far (near.mono deeper)

theorem Drained.targets (drained : Drained pid start root depth world) {frontier seen : List Uuid}
    (front : ∀ id, id ∈ frontier ↔ Level (Strands pid start) root depth id)
    (met : ∀ id, id ∈ seen ↔ Near (Strands pid start) root depth id) (id : Uuid) :
    id ∈ (world.blockedChildren pid frontier).filter (fun row => !seen.contains row) ↔
      Level (Strands pid start) root (depth + 1) id := by
  have same : ¬ Near (Strands pid start) root depth id →
      ∀ parent, Strands pid world parent id ↔ Strands pid start parent id := by
    intro far parent
    simp only [Strands, Journal.visible, drained.edges, drained.others id far]
  rw [level_succ, List.mem_filter, mem_blockedChildren]
  simp only [Bool.not_eq_true', List.contains_eq_mem, decide_eq_false_iff_not, met]
  constructor
  · intro selected
    obtain ⟨⟨parent, above, strands⟩, far⟩ := selected
    exact ⟨⟨parent, (front parent).mp above, (same far parent).mp strands⟩, far⟩
  · intro level
    obtain ⟨⟨parent, above, strands⟩, far⟩ := level
    exact ⟨⟨parent, (front parent).mpr above, (same far parent).mpr strands⟩, far⟩

theorem Drained.round (drained : Drained pid start root depth world) {targets changed : List Uuid}
    (level : ∀ id, id ∈ targets ↔ Level (Strands pid start) root (depth + 1) id)
    (executed : world.execute pid (.cancelBlocked targets reason stamp) = some (changed, after)) :
    Drained pid start root (depth + 1) after := by
  obtain ⟨jobs, updated, rfl⟩ := withJobs_eq executed
  have distinct : targets.dedup.Nodup := targets.nodup_dedup
  have untouched : ∀ id, id ∉ targets → jobs.visible pid id = world.jobs.visible pid id := by
    intro id missed
    obtain ⟨kept, _⟩ | ⟨_, member, _⟩ := Table.updateAll_slot distinct updated id
    · rw [← Table.slot_visible, kept, Table.slot_visible]
    · exact absurd (List.mem_dedup.mp member) missed
  have written : ∀ id ∈ targets, ∃ row, jobs.visible pid id = some row ∧ row.status = .cancelled := by
    intro id member
    have atLevel := (level id).mp member
    obtain ⟨⟨parent, _, _, row, seen, blocks⟩, far⟩ := level_succ.mp atLevel
    have visible : world.jobs.visible pid id = some row := (drained.others id far).trans seen
    have hit := Table.updateAll_complete distinct updated (List.mem_dedup.mpr member) visible blocks
    obtain ⟨_, missed⟩ | ⟨_, _, _, old, _, _, slot⟩ := Table.updateAll_slot distinct updated id
    · exact absurd hit missed
    · exact ⟨_, by rw [← Table.slot_visible, slot, Slot.visible_write_self], rfl⟩
  refine ⟨drained.edges, ?_, ?_, ?_⟩
  · intro row seen
    have missed : root ∉ targets := by
      intro member
      have atLevel := (level root).mp member
      exact atLevel.2 0 (by omega) .root
    rw [untouched root missed] at seen
    exact drained.top row seen
  · intro id near other
    cases near_succ.mp near with
    | inl nearer =>
        have missed : id ∉ targets := fun member => (level_succ.mp ((level id).mp member)).2 nearer
        rw [untouched id missed]
        exact drained.cancelled id nearer other
    | inr atLevel => exact written id ((level id).mpr atLevel)
  · intro id far
    have missed : id ∉ targets := fun member => far (near_succ.mpr (.inr ((level id).mp member)))
    rw [untouched id missed]
    exact drained.others id fun near => far (near.mono (by omega))

theorem alone_outboxAdd {tenant user : Uuid} {topic : Topic} {event : Event} {value : Unit}
    (ran : Alone (platform settings) pid (outboxAdd tenant user topic event) world value after) :
    SameGraph world after := by
  have ran : Alone (platform settings) pid
      ((exec (.insertOutbox tenant user topic event)).bind .done) world value after := ran
  obtain ⟨drifted, _, middle, quiet, executed, ran⟩ := alone_exec ran
  obtain ⟨outbox, _, equal⟩ := Option.map_eq_some_iff.mp executed
  cases equal
  have same := (alone_done ran).2.sameGraph
  exact ⟨fun id => (same.slots id).trans (quiet.slots id), same.dependencies.trans quiet.dependencies⟩

theorem alone_announceCancelled {children : List Job} {value : Unit}
    (ran : Alone (platform settings) pid (announceCancelled children) world value after) :
    SameGraph world after := by
  induction children generalizing world with
  | nil => exact (alone_done ran).2.sameGraph
  | cons child rest ih =>
      obtain ⟨_, middle, first, second⟩ := Alone.of_bind ran
      exact (alone_outboxAdd first).trans (ih second)

theorem Drained.sameGraph (drained : Drained pid start root depth world) (same : SameGraph world after) :
    Drained pid start root depth after := by
  have visible : ∀ id, after.jobs.visible pid id = world.jobs.visible pid id := by
    intro id
    rw [← Table.slot_visible, same.slots, Table.slot_visible]
  refine ⟨same.dependencies.trans drained.edges, ?_, ?_, ?_⟩
  · intro row seen
    rw [visible] at seen
    exact drained.top row seen
  · intro id near other
    rw [visible]
    exact drained.cancelled id near other
  · intro id far
    rw [visible]
    exact drained.others id far

theorem alone_cascadeLevels {room cancelled count : Nat} {frontier seen : List Uuid}
    (ran : Alone (platform settings) pid (cascadeLevels reason stamp room frontier seen cancelled)
      world count after)
    (drained : Drained pid start root depth world)
    (front : ∀ id, id ∈ frontier ↔ Level (Strands pid start) root depth id)
    (met : ∀ id, id ∈ seen ↔ Near (Strands pid start) root depth id) :
    Drained pid start root (depth + room) after := by
  induction room generalizing world frontier seen cancelled depth with
  | zero => exact drained.unmoved (alone_done ran).2
  | succ room ih =>
      unfold cascadeLevels at ran
      split at ran
      · rename_i empty
        have none : ∀ id, ¬ Level (Strands pid start) root depth id := by
          intro id level
          rw [← front, List.isEmpty_iff.mp empty] at level
          cases level
        have quiet := drained.unmoved (alone_done ran).2
        exact quiet.deeper (exhausted_succ none) (by omega)
      · obtain ⟨asked, quiet, ran⟩ := alone_ask ran
        have level := (drained.unmoved quiet).targets front met
        dsimp only [World.answer] at ran
        split at ran
        · rename_i empty
          have none : ∀ id, ¬ Level (Strands pid start) root (depth + 1) id := by
            intro id atLevel
            rw [← level, List.isEmpty_iff.mp empty] at atLevel
            cases atLevel
          have settled := (drained.unmoved quiet).unmoved (alone_done ran).2
          exact settled.deeper none (by omega)
        · obtain ⟨drifted, changed, middle, still, executed, ran⟩ := alone_exec ran
          have next := ((drained.unmoved quiet).unmoved still).round level executed
          obtain ⟨reread, silent, ran⟩ := alone_ask ran
          obtain ⟨_, announced, first, second⟩ := Alone.of_bind ran
          have later := (next.unmoved silent).sameGraph (alone_announceCancelled first)
          have deeper := ih second later level fun id => by
            rw [List.mem_append, met, level]
            exact near_succ.symm
          rwa [Nat.add_right_comm, Nat.add_assoc] at deeper

end Levels

section Update

variable {settings : Settings} {pid : Pid} {start world after : World} {root : Uuid}
  {write : StatusWrite} {message : Option String} {guard : Option (Job → Bool)}

theorem alone_cascade {status : JobStatus} {count : Nat}
    (ran : Alone (platform settings) pid (cascadeCancelBlockedChildren root status) world count after)
    (drained : Drained pid start root 0 world) : Drained pid start root cascadeMaxDepth after := by
  obtain ⟨stamp, drifted, middle, drifts, executed, ran⟩ := Alone.of_call ran
  cases executed
  have quiet := drained.unmoved (unmoved_of_drifts drifts)
  have levels := alone_cascadeLevels ran quiet (fun id => by simp [level_zero])
    (fun id => by simp [near_zero])
  rwa [Nat.zero_add] at levels

theorem alone_afterStatusWrite {status : JobStatus} {result : Option Job}
    (source : status.cascadeSource = true) (drained : Drained pid start root 0 world)
    (ran : Alone (platform settings) pid (afterStatusWrite root status message) world result after) :
    (result = none ∧ world.jobs.visible pid root = none) ∨
      ∃ row, result = some row ∧ Drained pid start root cascadeMaxDepth after := by
  have terminal : status.terminal = true := by
    cases status <;> first | rfl | contradiction
  obtain ⟨asked, quiet, ran⟩ := alone_ask ran
  have answered : asked.answer pid (.job root) = world.jobs.visible pid root := quiet.visible pid root
  rw [answered] at ran
  cases seen : world.jobs.visible pid root with
  | none =>
      rw [seen] at ran
      exact .inl ⟨(alone_done ran).1, rfl⟩
  | some row =>
      rw [seen] at ran
      simp only [terminal, source, if_true] at ran
      obtain ⟨_, emitted, first, ran⟩ := Alone.of_bind ran
      obtain ⟨_, cascaded, second, ran⟩ := Alone.of_bind ran
      obtain ⟨equal, still⟩ := alone_done ran
      have announced := (drained.unmoved quiet).sameGraph (alone_outboxAdd first)
      exact .inr ⟨row, equal, (alone_cascade second announced).unmoved still⟩

theorem drained_of_write {row : Job} (quiet : Unmoved start world) (free : world.jobs.Free pid root)
    (written : row.status ≠ .waiting) :
    Drained pid start root 0 { world with jobs := world.jobs.write pid root row free } := by
  have visible : ∀ id, (world.jobs.write pid root row free).visible pid id =
      if id = root then some row else start.jobs.visible pid id := by
    intro id
    rw [Table.write_visible, quiet.visible]
    simp
  refine ⟨quiet.dependencies, ?_, ?_, ?_⟩
  · intro other seen
    simp only [visible, if_true, Option.some.injEq] at seen
    rw [← seen]
    exact written
  · intro id near other
    exact absurd (near_zero.mp near) other
  · intro id far
    rw [visible, if_neg fun same => far (near_zero.mpr same)]

/-- An update to a status that strands its children: either it wrote nothing, or
the levels below the job are drained down to the depth bound. -/
theorem alone_updateStatus {result : Option Job} (source : write.status.cascadeSource = true)
    (ran : Alone (platform settings) pid (updateStatus root write message guard) world result after) :
    (result = none ∧ ∀ row, world.jobs.visible pid root = some row →
      guard.all (fun holds => holds row) = false) ∨
    ∃ row, result = some row ∧ Drained pid world root cascadeMaxDepth after := by
  have status : write.status ≠ .waiting := by
    intro waits
    rw [waits] at source
    contradiction
  obtain ⟨drifted, changed, middle, quiet, executed, ran⟩ := alone_exec ran
  obtain ⟨jobs, updated, rfl⟩ := withJobs_eq executed
  obtain ⟨rfl, rfl, refused⟩ | ⟨rfl, row, free, seen, holds, rfl⟩ := Table.update_cases updated
  · refine .inl ⟨?_, fun row seen => refused row (by rw [quiet.visible, seen])⟩
    cases guard with
    | some holds => exact (alone_done ran).1
    | none =>
        have absent : drifted.jobs.visible pid root = none := by
          rw [Option.eq_none_iff_forall_ne_some]
          intro row found
          cases refused row found
        obtain ⟨asked, still, ran⟩ := alone_ask ran
        have answered : asked.answer pid (.job root) = none := (still.visible pid root).trans absent
        rw [answered] at ran
        exact (alone_done ran).1
  · right
    have drained : Drained pid world root 0 { drifted with
        jobs := drifted.jobs.write pid root (write.apply drifted.outside.clock row) free } :=
      drained_of_write quiet free status
    rw [Bool.not_true, Bool.and_false, if_neg Bool.false_ne_true] at ran
    obtain ⟨_, missing⟩ | drains := alone_afterStatusWrite source drained ran
    · simp [Table.write_visible] at missing
    · exact drains

theorem exists_update_run {row : Job} (source : write.status.cascadeSource = true)
    (closed : world.Closed) (present : world.jobs.visible pid root = some row) :
    ∃ row after, Alone (platform settings) pid (updateStatus root write message none) world
      (some row) after := by
  have uses : (updateStatus root write message none).Uses Op.leavesOutbox := by
    refine .first trivial fun changed => ?_
    split
    · exact trivial
    · refine (afterStatusWrite_uses _ _ _).mono fun operation settles => ?_
      unfold Op.Settles at settles
      split at settles <;> first | exact trivial | exact settles.elim
  have runs : ∃ result after,
      Alone (platform settings) pid (updateStatus root write message none) world result after :=
    exists_run_of_closed uses closed
  obtain ⟨result, after, ran⟩ := runs
  obtain ⟨_, refused⟩ | ⟨row, rfl, _⟩ := alone_updateStatus source ran
  · have absurd := refused row present
    contradiction
  · exact ⟨row, after, ran⟩

end Update

/-- What the cascade is there for. -/
structure CascadeDrains (pid : Pid) (root : Uuid) (world after : World) : Prop where
  drained : ∀ id, StrandedBelow pid world root id →
    ∀ row, after.jobs.visible pid id = some row → row.status ≠ .waiting
  kept : ∀ id, id ≠ root → ¬ StrandedBelow pid world root id →
    (after.jobs.visible pid id).map Job.status = (world.jobs.visible pid id).map Job.status

section Depth

variable {settings : Settings} {pid : Pid} {world after : World} {root : Uuid}

theorem StrandedBelow.blocks {id : Uuid} (below : StrandedBelow pid world root id) :
    ∃ row, world.jobs.visible pid id = some row ∧ row.status = .waiting := by
  obtain ⟨length, positive, reached⟩ := below
  cases reached with
  | root => contradiction
  | step _ edge =>
      obtain ⟨_, row, seen, blocks⟩ := edge
      simp only [blocked, Bool.and_eq_true, decide_eq_true_eq] at blocks
      exact ⟨row, seen, blocks.1⟩

theorem Drained.drains_iff {depth : Nat} (drained : Drained pid world root depth after) :
    CascadeDrains pid root world after ↔
      ∀ id, StrandedBelow pid world root id → Near (Strands pid world) root depth id := by
  constructor
  · intro drains id below
    by_contra far
    obtain ⟨row, seen, waits⟩ := below.blocks
    exact drains.drained id below row ((drained.others id far).trans seen) waits
  · intro near
    refine ⟨?_, ?_⟩
    · intro id below row seen
      by_cases top : id = root
      · subst top
        exact drained.top row seen
      · obtain ⟨cancelled, found, status⟩ := drained.cancelled id (near id below) top
        rw [found] at seen
        cases seen
        simp [status]
    · intro id other unreached
      rw [drained.others id]
      intro reached
      obtain ⟨length, _, path⟩ := reached
      cases length with
      | zero => exact other (reached_zero.mp path)
      | succ length => exact unreached ⟨length + 1, by omega, path⟩

/-- The cascade drains what waits below the job, and touches nothing else,
exactly if all of it lies within the depth bound. -/
theorem cascade_drains_iff {write : StatusWrite} {message : Option String}
    {guard : Option (Job → Bool)} {row : Job} (source : write.status.cascadeSource = true)
    (ran : Alone (platform settings) pid (updateStatus root write message guard) world (some row) after) :
    CascadeDrains pid root world after ↔
      ∀ id, StrandedBelow pid world root id → Near (Strands pid world) root cascadeMaxDepth id := by
  obtain ⟨absurd, _⟩ | ⟨_, _, drained⟩ := alone_updateStatus source ran
  · cases absurd
  · exact drained.drains_iff

end Depth

/-- Job 0 runs, and every later job waits for the one before it. -/
def link (id : Nat) : Job where
  id
  tenantId := 8
  userId := 7
  type := "csv_upload"
  status := if id = 0 then .running else .waiting
  maxAttempts := 3
  createdAt := 1
  updatedAt := 1

def chainOf (length : Nat) : World :=
  { World.fresh (readings 1 .timedOut) with
    jobs := .stored link (length + 1)
    dependencies := { committed := (List.range length).map fun id => ⟨id + 1, id⟩, pending := fun _ => [] } }

section Chains

variable {pid : Pid} {length : Nat}

theorem chainOf_closed : (chainOf length).Closed := by
  refine ⟨fun id => ?_, fun _ => rfl⟩
  rfl

theorem chainOf_visible (id : Nat) :
    (chainOf length).jobs.visible pid id = if id ≤ length then some (link id) else none := by
  rw [chainOf_closed.visible]
  simp only [chainOf, Table.stored, Nat.lt_succ_iff]

theorem strands_chainOf {parent child : Nat} :
    Strands pid (chainOf length) parent child ↔ child = parent + 1 ∧ parent < length := by
  unfold Strands
  rw [chainOf_visible]
  simp only [Journal.visible, chainOf, List.append_nil, List.mem_map, List.mem_range,
    JobDependency.mk.injEq]
  constructor
  · intro strands
    obtain ⟨⟨id, within, rfl, rfl⟩, _⟩ := strands
    exact ⟨rfl, within⟩
  · intro edge
    obtain ⟨rfl, within⟩ := edge
    refine ⟨⟨parent, within, rfl, rfl⟩, link (parent + 1), ?_, ?_⟩
    · rw [if_pos (by omega)]
    · simp [blocked, link]

theorem reached_chainOf {depth id : Nat}
    (reached : Reached (Strands pid (chainOf length)) 0 depth id) : id = depth := by
  induction reached with
  | root => rfl
  | step _ edge ih =>
      rw [(strands_chainOf.mp edge).1, ih]

theorem chainOf_reaches {depth : Nat} (within : depth ≤ length) :
    Reached (Strands pid (chainOf length)) 0 depth depth := by
  induction depth with
  | zero => exact .root
  | succ depth ih => exact (ih (by omega)).step (strands_chainOf.mpr ⟨rfl, by omega⟩)

theorem exists_chainOf_run (length : Nat) : ∃ row after, Alone (platform .defaults) 0
    (updateStatus 0 { status := .deadLetter }) (chainOf length) (some row) after := by
  have top : (chainOf length).jobs.visible 0 0 = some (link 0) := by
    rw [chainOf_visible, if_pos (by omega)]
  exact exists_update_run rfl chainOf_closed top

end Chains

theorem cascade_drains_two_below : ∃ row after, Alone (platform .defaults) 0
      (updateStatus 0 { status := .deadLetter }) (chainOf 2) (some row) after ∧
    StrandedBelow 0 (chainOf 2) 0 2 ∧ CascadeDrains 0 0 (chainOf 2) after := by
  obtain ⟨row, after, ran⟩ := exists_chainOf_run 2
  refine ⟨row, after, ran, ⟨2, by omega, chainOf_reaches (by omega)⟩, ?_⟩
  refine (cascade_drains_iff rfl ran).mpr fun id below => ?_
  obtain ⟨length, positive, reached⟩ := below
  have short : length ≤ 2 := by
    cases reached with
    | root => omega
    | step earlier edge =>
        have last := (strands_chainOf.mp edge).2
        have before := reached_chainOf earlier
        omega
  exact ⟨length, le_trans short (by decide), reached⟩

/-- The last job of a chain of 51 waits below job 0, and still does once job 0 is
dead-lettered. -/
theorem cascade_stops_at_fifty : ∃ row after, Alone (platform .defaults) 0
      (updateStatus 0 { status := .deadLetter }) (chainOf 51) (some row) after ∧
    StrandedBelow 0 (chainOf 51) 0 51 ∧
    (∃ left, after.jobs.visible 0 51 = some left ∧ left.status = .waiting) ∧
    ¬ CascadeDrains 0 0 (chainOf 51) after := by
  obtain ⟨row, after, ran⟩ := exists_chainOf_run 51
  have below : StrandedBelow 0 (chainOf 51) 0 51 := ⟨51, by omega, chainOf_reaches (by omega)⟩
  have far : ¬ Near (Strands 0 (chainOf 51)) 0 cascadeMaxDepth 51 := by
    intro near
    obtain ⟨depth, short, reached⟩ := near
    have exactly := reached_chainOf reached
    unfold cascadeMaxDepth at short
    omega
  obtain ⟨absurd, _⟩ | ⟨_, _, drained⟩ := alone_updateStatus rfl ran
  · cases absurd
  · have left : after.jobs.visible 0 51 = some (link 51) := by
      rw [drained.others 51 far, chainOf_visible, if_pos (by omega)]
    refine ⟨row, after, ran, below, ⟨link 51, left, rfl⟩, fun drains => ?_⟩
    exact drains.drained 51 below (link 51) left rfl

end IncidentPlatform.Properties

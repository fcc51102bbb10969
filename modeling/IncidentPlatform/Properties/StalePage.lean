import IncidentPlatform.Properties.DependencyCalls
import IncidentPlatform.Search.Pages

namespace IncidentPlatform.Properties

open Concurrency Models Platform Search Services Storage Workers

/-! # The page of the stale-PENDING pass

The SELECT of the pass takes its page by age alone and in no order; whether a
row waits in `jobs:delayed` is asked afterwards, row by row.  So a row that
waits there takes a place on the page.
-/

def stale (cutoff : Time) (job : Job) : Bool :=
  job.status = .pending && decide (job.updatedAt < cutoff) &&
    job.requeuedAt.all fun stamp => stamp < cutoff

def waitsOut (world : World) (job : Job) : Bool := (world.delayed.lookup job.id).isSome

def staleRows (pid : Pid) (world : World) (cutoff : Time) : List Job :=
  (world.jobs.rows pid).filter (stale cutoff)

def lostRows (pid : Pid) (world : World) (cutoff : Time) : List Job :=
  (staleRows pid world cutoff).filter fun job => !waitsOut world job

def heldRows (pid : Pid) (world : World) (cutoff : Time) : List Job :=
  (staleRows pid world cutoff).filter fun job => waitsOut world job

def republished (trace : List (Op × World)) : List Uuid :=
  trace.filterMap fun
    | (.statement (.insertOutbox _ _ .submitted event), _) => some event.jobId
    | _ => none

/-- The reading that the pass takes its cutoff from. -/
def scannedAt (trace : List (Op × World)) : Option Time :=
  trace.head?.map fun entry => entry.2.outside.clock

/-- The page went to lost rows: as many of them were re-published as there are,
or as fit on the page. -/
structure PageSpent (pid : Pid) (world : World) (cutoff : Time) (trace : List (Op × World)) : Prop where
  among : ∀ id ∈ republished trace, id ∈ (lostRows pid world cutoff).map Job.id
  once : (republished trace).Nodup
  enough : min (lostRows pid world cutoff).length stalePendingLimit ≤ (republished trace).length

section Pass

variable {settings : Settings} {pid : Pid} {world after : World} {trace : List (Op × World)}

theorem republished_append (first second : List (Op × World)) :
    republished (first ++ second) = republished first ++ republished second := List.filterMap_append

theorem traced_requeueStale {now : Time} {job : Job} {value : Unit}
    (ran : Traced (platform settings) pid (requeueStale now job) world trace value after) :
    republished trace = (if waitsOut world job then [] else [job.id]) ∧ after.delayed = world.delayed := by
  obtain ⟨score, drifted, middle, rest, rfl, drifts, executed, ran⟩ := Traced.of_call ran
  cases executed
  have kept := (unmoved_of_drifts drifts).delayed
  unfold waitsOut
  rw [← kept]
  cases found : drifted.delayed.lookup job.id with
  | some score =>
      rw [found] at ran
      obtain ⟨rfl, _, drifts⟩ := Traced.of_done ran
      exact ⟨rfl, (unmoved_of_drifts drifts).delayed⟩
  | none =>
      rw [found] at ran
      obtain ⟨_, announced, middle, rest, rfl, drifts, executed, ran⟩ := Traced.of_call ran
      obtain ⟨outbox, _, equal⟩ := Option.map_eq_some_iff.mp executed
      cases equal
      obtain ⟨_, stamped, written, last, rfl, later, executed, ran⟩ := Traced.of_call ran
      obtain ⟨changed, updated, equal⟩ := Option.map_eq_some_iff.mp executed
      obtain ⟨jobs, _, same⟩ := withJobs_eq updated
      cases equal
      obtain ⟨rfl, _, stays⟩ := Traced.of_done ran
      refine ⟨by simp [republished, jobSubmittedPayload_jobId], ?_⟩
      rw [(unmoved_of_drifts stays).delayed, same, (unmoved_of_drifts later).delayed]
      exact (unmoved_of_drifts drifts).delayed

theorem traced_requeueStale_each {now : Time} {rows : List Job} {value : Unit}
    (ran : Traced (platform settings) pid (Program.forEach rows (requeueStale now)) world trace value after) :
    republished trace = (rows.filter fun job => !waitsOut world job).map Job.id := by
  induction rows generalizing world trace with
  | nil =>
      obtain ⟨rfl, _, _⟩ := Traced.of_done ran
      rfl
  | cons job rest ih =>
      obtain ⟨_, middle, first, second, rfl, here, later⟩ := Traced.of_bind ran
      obtain ⟨one, kept⟩ := traced_requeueStale here
      have same : ∀ row, waitsOut middle row = waitsOut world row := by
        intro row
        simp only [waitsOut, kept]
      rw [republished_append, one, ih later, List.filter_cons]
      simp only [same]
      cases waitsOut world job <;> simp

theorem traced_rows {now : Time} {rows : List Job} {value : Unit}
    (ran : Traced (platform settings) pid
      ((Program.forEach rows (requeueStale now)).bind fun _ => commit) world trace value after) :
    republished trace = (rows.filter fun job => !waitsOut world job).map Job.id := by
  obtain ⟨_, swept, first, second, rfl, each, ran⟩ := Traced.of_bind ran
  obtain ⟨_, _, _, last, rfl, _, executed, ran⟩ := Traced.of_call ran
  obtain ⟨rfl, _, _⟩ := Traced.of_done ran
  rw [republished_append, traced_requeueStale_each each]
  exact List.append_nil _

theorem waitsOut_unmoved {later : World} (unmoved : Unmoved world later) (row : Job) :
    waitsOut later row = waitsOut world row := by
  simp only [waitsOut, unmoved.delayed]

theorem traced_requeueStalePendingOnce {now : Time} (settled : world.Settled)
    (ran : Traced (platform settings) pid requeueStalePendingOnce world trace () after)
    (scanned : scannedAt trace = some now) :
    ∃ scanned : List Job, scanned.Perm (staleRows pid world (now - stalePendingAge)) ∧
      republished trace =
        ((scanned.take stalePendingLimit).filter fun job => !waitsOut world job).map Job.id := by
  obtain ⟨_, clocked, middle, rest, rfl, drifts, executed, ran⟩ := Traced.of_call ran
  cases executed
  cases scanned
  obtain ⟨_, reading, middle, rest, rfl, later, executed, ran⟩ := Traced.of_call ran
  cases executed
  have unmoved := (unmoved_of_drifts drifts).trans (unmoved_of_drifts later)
  have page := traced_rows ran
  simp only [waitsOut_unmoved unmoved] at page
  exact ⟨staleRows pid reading (clocked.outside.clock - stalePendingAge),
    (unmoved.rows_perm settled).filter _, page⟩

theorem exists_order (settled : world.Settled) {cutoff : Time} {scanned : List Job}
    (same : scanned.Perm (staleRows pid world cutoff)) :
    ∃ order : List Uuid, order.Perm world.jobs.keys ∧
      (order.filterMap (world.jobs.visible pid)).filter (stale cutoff) = scanned := by
  have seen : ∀ row ∈ scanned, world.jobs.visible pid row.id = some row := by
    intro row member
    obtain ⟨key, found⟩ := Table.mem_rows_iff.mp (List.mem_filter.mp (same.mem_iff.mp member)).1
    rwa [settled.visible found]
  have distinct : (scanned.map Job.id).Nodup :=
    (same.map Job.id).nodup_iff.mpr (settled.selected_nodup pid _)
  refine ⟨scanned.map Job.id ++ world.jobs.keys.filter (fun id => id ∉ scanned.map Job.id), ?_, ?_⟩
  · refine (List.perm_ext_iff_of_nodup ?_ world.jobs.distinct).mpr fun id => ?_
    · refine List.nodup_append.mpr ⟨distinct, world.jobs.distinct.filter _, ?_⟩
      intro first above second below equal
      rw [equal] at above
      simpa [above] using (List.mem_filter.mp below).2
    · have stored : id ∈ scanned.map Job.id → id ∈ world.jobs.keys := by
        intro member
        obtain ⟨row, among, rfl⟩ := List.mem_map.mp member
        exact Table.mem_keys_of_visible (seen row among)
      simp only [List.mem_append, List.mem_filter, decide_eq_true_eq]
      tauto
  · have front : (scanned.map Job.id).filterMap (world.jobs.visible pid) = scanned := by
      have each : scanned.filterMap (world.jobs.visible pid ∘ Job.id) = scanned.filterMap some :=
        List.filterMap_congr seen
      rw [List.filterMap_map, each, List.filterMap_some]
    have kept : scanned.filter (stale cutoff) = scanned := by
      rw [List.filter_eq_self]
      intro row member
      exact (List.mem_filter.mp (same.mem_iff.mp member)).2
    have rest : ((world.jobs.keys.filter (fun id => id ∉ scanned.map Job.id)).filterMap
        (world.jobs.visible pid)).filter (stale cutoff) = [] := by
      rw [List.filter_eq_nil_iff]
      intro row member passes
      obtain ⟨id, listed, found⟩ := List.mem_filterMap.mp member
      have among : row ∈ scanned := by
        refine same.mem_iff.mpr (List.mem_filter.mpr ⟨?_, passes⟩)
        exact Table.mem_rows_iff.mpr ⟨id, found⟩
      have missing := (List.mem_filter.mp listed).2
      rw [← settled.visible found] at missing
      simp only [decide_eq_true_eq] at missing
      exact missing (List.mem_map_of_mem among)
    rw [List.filterMap_append, List.filter_append, front, kept, rest, List.append_nil]

theorem exists_requeue_run {now : Time} (settled : world.Settled) {scanned : List Job}
    (same : scanned.Perm (staleRows pid world (now - stalePendingAge))) :
    ∃ trace after, Traced (platform settings) pid requeueStalePendingOnce world trace () after ∧
      scannedAt trace = some now ∧ republished trace =
        ((scanned.take stalePendingLimit).filter fun job => !waitsOut world job).map Job.id := by
  obtain ⟨order, shuffled, page⟩ := exists_order settled same
  -- The clock reads `now`, and the scan meets the rows in this order.
  let clocked : World := { world with outside := { world.outside with clock := now } }
  let reading : World := { clocked with jobs := world.jobs.reorder order shuffled }
  have ticked : (platform settings).environment (.outside { world.outside with clock := now }) world =
      some clocked := rfl
  have reordered : (platform settings).environment (.reorder order) clocked = some reading :=
    dif_pos shuffled
  have drifts : Drifts (platform settings) world reading := .step ticked (.step reordered (.refl reading))
  have closed : reading.Closed := ⟨settled.closed.jobs, settled.closed.edges⟩
  have answered : reading.stalePending pid (now - stalePendingAge) = scanned.take stalePendingLimit :=
    congrArg (List.take stalePendingLimit) page
  have uses : ((Program.forEach (scanned.take stalePendingLimit) (requeueStale now)).bind
      fun _ => commit : Prog Unit).Uses Op.leavesOutbox := by
    refine .bind (.forEach fun job => ⟨trivial, fun score => ?_⟩) fun _ => ⟨trivial, fun _ => trivial⟩
    cases score with
    | some score => exact trivial
    | none => exact ⟨trivial, fun _ => ⟨trivial, fun _ => trivial⟩⟩
  have runs : ∃ value after, Alone (platform settings) pid
      ((Program.forEach (scanned.take stalePendingLimit) (requeueStale now)).bind fun _ => commit)
      reading value after := exists_run_of_closed uses closed
  obtain ⟨_, after, ran⟩ := runs
  obtain ⟨rest, ran⟩ := ran.traced
  have page := traced_rows ran
  simp only [waitsOut_unmoved (unmoved_of_drifts drifts)] at page
  rw [← answered] at ran
  exact ⟨_, after, .call drifts rfl (.call (.refl reading) rfl ran), rfl, page⟩

/-- The page of every pass is spent on lost rows exactly if no stale row waits,
none is lost, or all of them fit. -/
theorem stale_page_spent_iff {now : Time} (settled : world.Settled) :
    (∀ trace after, Traced (platform settings) pid requeueStalePendingOnce world trace () after →
      scannedAt trace = some now → PageSpent pid world (now - stalePendingAge) trace) ↔
    heldRows pid world (now - stalePendingAge) = [] ∨ lostRows pid world (now - stalePendingAge) = [] ∨
      (staleRows pid world (now - stalePendingAge)).length ≤ stalePendingLimit := by
  have filled := @page_filled_iff Job (fun job => !waitsOut world job)
    (staleRows pid world (now - stalePendingAge)) stalePendingLimit (by decide)
  simp only [Bool.not_not] at filled
  refine Iff.trans ⟨?_, ?_⟩ filled
  · intro spent scanned same
    obtain ⟨trace, after, ran, at_now, page⟩ := exists_requeue_run settled same
    have enough := (spent trace after ran at_now).enough
    rwa [page, List.length_map] at enough
  · intro fits trace after ran at_now
    obtain ⟨scanned, same, page⟩ := traced_requeueStalePendingOnce settled ran at_now
    have kept : ((scanned.take stalePendingLimit).filter fun job => !waitsOut world job).Sublist
        (scanned.filter fun job => !waitsOut world job) := (List.take_sublist _ _).filter _
    have lost := same.filter fun job => !waitsOut world job
    refine ⟨?_, ?_, ?_⟩
    · intro id member
      rw [page] at member
      obtain ⟨row, among, rfl⟩ := List.mem_map.mp member
      exact List.mem_map_of_mem (lost.mem_iff.mp (kept.mem among))
    · rw [page]
      have distinct : ((lostRows pid world (now - stalePendingAge)).map Job.id).Nodup :=
        (settled.selected_nodup pid _).sublist (List.filter_sublist.map Job.id)
      exact ((lost.map Job.id).nodup_iff.mpr distinct).sublist (kept.map Job.id)
    · rw [page, List.length_map]
      exact fits scanned same

end Pass

def backlogRow (id : Nat) : Job where
  id
  tenantId := 8
  userId := 7
  type := "csv_upload"
  status := .pending
  maxAttempts := 3
  createdAt := 1
  updatedAt := 1

/-- `count` jobs are PENDING, and the first `waiting` of them sit in `jobs:delayed`. -/
def backlog (count waiting : Nat) : World :=
  { World.fresh (readings 1 .timedOut) with
    jobs := .stored backlogRow count
    delayed := (List.range waiting).map fun id => (id, seconds 1000) }

theorem settled_backlog (count waiting : Nat) : (backlog count waiting).Settled :=
  World.settled_of_stored rfl (fun _ => rfl) fun _ => rfl

theorem staleRows_backlog {pid : Pid} {count waiting : Nat} :
    staleRows pid (backlog count waiting) (seconds 1000 - stalePendingAge) =
      (List.range count).map backlogRow := by
  have scanned : (backlog count waiting).jobs.rows pid = (List.range count).map backlogRow := by
    rw [← List.filterMap_eq_map]
    refine List.filterMap_congr fun (id : Nat) member => ?_
    rw [(settled_backlog count waiting).closed.visible]
    simpa [backlog, Table.stored] using member
  unfold staleRows
  rw [scanned, List.filter_eq_self]
  intro row member
  obtain ⟨id, _, rfl⟩ := List.mem_map.mp member
  simp [stale, backlogRow, seconds, stalePendingAge]

theorem waitsOut_backlog {count waiting : Nat} (id : Nat) :
    waitsOut (backlog count waiting) (backlogRow id) = decide (id < waiting) := by
  have absent : ((List.range waiting).map fun id => (id, seconds 1000)).lookup id = none ↔
      ¬ id < waiting := by
    rw [List.lookup_eq_none_iff]
    constructor
    · intro missing within
      have other := missing (id, seconds 1000) (List.mem_map.mpr ⟨id, List.mem_range.mpr within, rfl⟩)
      simp at other
    · intro beyond entry member
      obtain ⟨other, within, rfl⟩ := List.mem_map.mp member
      have different : id ≠ other := by
        intro same
        exact beyond (same ▸ List.mem_range.mp within)
      simpa using different
  have looked : waitsOut (backlog count waiting) (backlogRow id) =
      (((List.range waiting).map fun id => (id, seconds 1000)).lookup id).isSome := rfl
  rw [looked, Bool.eq_iff_iff, Option.isSome_iff_ne_none, Ne, absent]
  simp

theorem filter_backlog (count waiting shown : Nat) :
    (((List.range shown).map backlogRow).filter fun job => !waitsOut (backlog count waiting) job) =
      ((List.range shown).filter fun id => waiting ≤ id).map backlogRow := by
  rw [List.filter_map]
  congr 1
  refine List.filter_congr fun id _ => ?_
  by_cases within : id < waiting
  · simp [waitsOut_backlog, within]
  · simp [waitsOut_backlog, within, Nat.not_lt.mp within]

/-- Three jobs, two of which wait, fit on a page. -/
theorem stale_page_spent_of_few : ∃ trace after,
    Traced (platform .defaults) 0 requeueStalePendingOnce (backlog 3 2) trace () after ∧
      scannedAt trace = some (seconds 1000) ∧
      PageSpent 0 (backlog 3 2) (seconds 1000 - stalePendingAge) trace := by
  have runs : ∃ trace after,
      Traced (platform .defaults) 0 requeueStalePendingOnce (backlog 3 2) trace () after ∧
        scannedAt trace = some (seconds 1000) ∧ _ :=
    exists_requeue_run (settled_backlog 3 2) (.refl _)
  obtain ⟨trace, after, ran, scanned, _⟩ := runs
  refine ⟨trace, after, ran, scanned, ?_⟩
  refine (stale_page_spent_iff (settled_backlog 3 2)).mpr (.inr (.inr ?_)) trace after ran scanned
  rw [staleRows_backlog]
  decide

/-- A hundred waiting jobs fill the page, and the lost one is not re-published. -/
theorem stale_page_spent_on_waiting_rows : ∃ trace after,
    Traced (platform .defaults) 0 requeueStalePendingOnce (backlog 101 100) trace () after ∧
      scannedAt trace = some (seconds 1000) ∧
      (lostRows 0 (backlog 101 100) (seconds 1000 - stalePendingAge)).length = 1 ∧
      republished trace = [] ∧
      ¬ PageSpent 0 (backlog 101 100) (seconds 1000 - stalePendingAge) trace := by
  have runs : ∃ trace after,
      Traced (platform .defaults) 0 requeueStalePendingOnce (backlog 101 100) trace () after ∧
        scannedAt trace = some (seconds 1000) ∧ _ :=
    exists_requeue_run (settled_backlog 101 100) (.refl _)
  obtain ⟨trace, after, ran, scanned, page⟩ := runs
  have lost : (lostRows 0 (backlog 101 100) (seconds 1000 - stalePendingAge)).length = 1 := by
    unfold lostRows
    rw [staleRows_backlog, filter_backlog, List.length_map]
    decide
  have none : republished trace = [] := by
    rw [page, staleRows_backlog, ← List.map_take, List.take_range, filter_backlog, List.map_map,
      List.map_eq_nil_iff, List.filter_eq_nil_iff]
    intro id member
    rw [List.mem_range] at member
    simp only [stalePendingLimit, decide_eq_true_eq] at member ⊢
    omega
  refine ⟨trace, after, ran, scanned, lost, none, fun spent => ?_⟩
  have enough := spent.enough
  rw [lost, none] at enough
  contradiction

end IncidentPlatform.Properties

import IncidentPlatform.Properties.PausedReplays
import IncidentPlatform.Search.Pages
import Mathlib.Data.Prod.Lex

namespace IncidentPlatform.Properties

open Concurrency Models Platform Search Services Storage Utils Workers

/-! # The rotation of the resume sweep

Pass after pass of `_resume_unblocked_waiting_once`, each from the cursor that
the one before returned, while pause flags come and go.  A pass probes the
pauses of one page of the promotable rows, row after row, and only rows of that
page leave them.
-/

def unmet (world : World) (id : Uuid) : Bool :=
  world.dependencies.committed.any fun edge =>
    edge.job = id && (world.jobs.committed edge.dependsOn).any fun parent => parent.status ≠ .completed

def canPromote (world : World) (job : Job) : Bool := job.status = .waiting && !unmet world job.id

def promotable (world : World) : List Job :=
  ((world.jobs.keys.filterMap world.jobs.committed).filter (canPromote world)).insertionSort
    World.oldestFirst

/-- The rows a pass examined: those whose pause it probed.  A probe reads the
flags of the row itself first, then those of its ancestors. -/
def examined (trace : List (Op × World)) : List Uuid :=
  trace.filterMap fun
    | (.command (.pausedFlags nodes), _) => nodes.head?
    | _ => none

structure Pass where
  examined : List Uuid
  next : Option (Time × Uuid)

/-- Passes one after the other, by any replicas, with the cursor handed on. -/
inductive Sweeps (settings : Settings) :
    Option (Time × Uuid) → World → List Pass → Option (Time × Uuid) → World → Prop where
  | start {cursor : Option (Time × Uuid)} {world : World} : Sweeps settings cursor world [] cursor world
  | pass {cursor next last : Option (Time × Uuid)} {pid : Pid} {world middle after : World}
      {trace : List (Op × World)} {passes : List Pass}
      (ran : Traced (platform settings) pid (resumePass cursor) world trace next middle)
      (later : Sweeps settings next middle passes last after) :
      Sweeps settings cursor world (⟨examined trace, next⟩ :: passes) last after

def pagesOf (rows : Nat) : Nat := (rows + resumeSweepLimit - 1) / resumeSweepLimit

/-- The sweep is fair to the rows that are promotable in `world`, from any cursor. -/
structure Fair (settings : Settings) (cursor : Option (Time × Uuid)) (world : World) : Prop where
  proceeds : ∀ {passes next middle}, Sweeps settings cursor world passes next middle →
    ∃ pass last after, Sweeps settings next middle [pass] last after
  resets : ∀ {passes last after}, Sweeps settings cursor world passes last after →
    pagesOf (promotable world).length + 1 ≤ passes.length →
    ∃ pass ∈ passes.take (pagesOf (promotable world).length + 1), pass.next = none
  covers : ∀ {before middle passes last after}, Sweeps settings cursor world before none middle →
    Sweeps settings none middle passes last after →
    pagesOf (promotable world).length + 1 ≤ passes.length → ∀ row ∈ promotable world,
      (row ∉ promotable middle ∧ ∃ pass ∈ before, row.id ∈ pass.examined) ∨
      ∃ pass ∈ passes.take (pagesOf (promotable world).length + 1), row.id ∈ pass.examined
  distinct : ∀ {before start middle rotation last after}, Sweeps settings cursor world before start middle →
    Sweeps settings start middle rotation last after →
    (∀ pass ∈ rotation.dropLast, pass.next ≠ none) →
    (rotation.flatMap Pass.examined).Nodup

def rank (job : Job) : Time ×ₗ Uuid := toLex (job.createdAt, job.id)

theorem oldestFirst_iff {first second : Job} :
    World.oldestFirst first second ↔ rank first ≤ rank second := by
  simp [World.oldestFirst, rank, Prod.Lex.toLex_le_toLex]

instance : Std.Total World.oldestFirst :=
  ⟨fun first second => by simpa only [oldestFirst_iff] using le_total (rank first) (rank second)⟩

instance : IsTrans Job World.oldestFirst :=
  ⟨fun first second third below above => by
    rw [oldestFirst_iff] at *
    exact le_trans below above⟩

theorem afterCursor_eq (cursor : Option (Time × Uuid)) (job : Job) :
    World.afterCursor cursor job = (cursor.map toLex).all fun last => last < rank job := by
  cases cursor with
  | none => rfl
  | some last =>
      obtain ⟨created, id⟩ := last
      simp [World.afterCursor, rank, Prod.Lex.toLex_lt_toLex]

theorem pairwise_sorted {rows : List Job} (distinct : (rows.map Job.id).Nodup) :
    (rows.insertionSort World.oldestFirst).Pairwise fun first second => rank first < rank second := by
  have sorted := List.pairwise_insertionSort World.oldestFirst rows
  have apart : (rows.insertionSort World.oldestFirst).Pairwise fun first second => first.id ≠ second.id :=
    List.pairwise_map.mp (((List.perm_insertionSort _ rows).map Job.id).nodup_iff.mpr distinct)
  refine (sorted.and apart).imp fun {first second} both => ?_
  obtain ⟨below, different⟩ := both
  refine lt_of_le_of_ne (oldestFirst_iff.mp below) fun same => different ?_
  exact congrArg (fun key => (ofLex key).2) same

section Rows

variable {world after : World} {pid : Pid} {job : Job}

theorem mem_promotable :
    job ∈ promotable world ↔ (∃ id, world.jobs.committed id = some job) ∧ canPromote world job = true := by
  rw [promotable, List.mem_insertionSort, List.mem_filter, List.mem_filterMap]
  constructor
  · intro found
    obtain ⟨⟨id, _, stored⟩, may⟩ := found
    exact ⟨⟨id, stored⟩, may⟩
  · intro found
    obtain ⟨⟨id, stored⟩, may⟩ := found
    refine ⟨⟨id, ?_, stored⟩, may⟩
    by_contra absent
    rw [(world.jobs.listed id absent).1] at stored
    contradiction

theorem committed_rows (closed : world.Closed) (pid : Pid) :
    world.jobs.keys.filterMap world.jobs.committed = world.jobs.rows pid := by
  unfold Table.rows
  exact List.filterMap_congr fun id _ => (closed.visible pid id).symm

theorem promotable_sorted (settled : world.Settled) :
    (promotable world).Pairwise fun first second => rank first < rank second := by
  refine pairwise_sorted ?_
  rw [committed_rows settled.closed 0]
  exact settled.selected_nodup 0 _

theorem promotable_nodup (settled : world.Settled) : ((promotable world).map Job.id).Nodup := by
  rw [promotable, ((List.perm_insertionSort _ _).map Job.id).nodup_iff, committed_rows settled.closed 0]
  exact settled.selected_nodup 0 _

theorem promotableWaiting_eq (settled : world.Settled) (cursor : Option (Time × Uuid)) :
    world.promotableWaiting pid cursor =
      pageAfter rank resumeSweepLimit (cursor.map toLex) (promotable world) := by
  have edges : world.dependencies.visible pid = world.dependencies.committed := by
    rw [Journal.visible, settled.closed.edges, List.append_nil]
  have eligible : ∀ row : Job, (world.unmetParents pid row.id).isEmpty = !unmet world row.id := by
    intro row
    simp only [World.unmetParents, World.parentsOf, edges, settled.closed.visible, unmet]
    rw [Bool.eq_iff_iff, List.isEmpty_iff]
    simp only [List.filter_eq_nil_iff, List.mem_map, List.mem_filter, Bool.not_eq_true',
      List.any_eq_false, Bool.and_eq_true, decide_eq_true_eq]
    grind
  unfold World.promotableWaiting pageAfter after
  simp only
  congr 1
  refine eq_of_sorted (pairwise_sorted (settled.selected_nodup pid _)) ((promotable_sorted settled).filter _) fun row => ?_
  · rw [List.mem_insertionSort, List.mem_filter, List.mem_filter, mem_promotable,
      ← afterCursor_eq, Table.mem_rows_iff, eligible, canPromote]
    simp only [settled.closed.visible, Bool.and_eq_true]
    tauto

end Rows

/-- The row as `promote_waiting_to_pending` leaves it. -/
def pended (now : Time) (row : Job) : Job :=
  { row with status := .pending, errorMessage := none, updatedAt := now }

/-- Nothing is changed but the rows of the page, some of which are promoted. -/
structure Resumed (pid : Pid) (page : List Uuid) (start world : World) : Prop where
  alone : Private pid world
  edges : world.dependencies.visible pid = start.dependencies.committed
  rows : ∀ id, world.jobs.visible pid id = start.jobs.committed id ∨
    id ∈ page ∧ ∃ row now, start.jobs.committed id = some row ∧ row.status = .waiting ∧
      world.jobs.visible pid id = some (pended now row)

def Op.Resumes (page : List Uuid) : Op → Prop
  | .query (.parents _) | .command (.pausedFlags _) | .statement (.insertOutbox ..) => True
  | .statement (.promoteWaitingToPending id) => id ∈ page
  | _ => False

theorem promoteChild_resumes {page : List Uuid} {id : Uuid} (member : id ∈ page) (child : Job) :
    (promoteChild id child).Uses (Op.Resumes page) := by
  refine ((findBlockingPause_uses id).mono fun operation probes => ?_).bind fun paused => ?_
  · unfold Op.Probes at probes
    split at probes <;> first | exact trivial | exact probes.elim
  · cases paused with
    | some pausedBy => exact trivial
    | none =>
        refine .first member fun promoted => ?_
        split
        · exact ⟨trivial, fun _ => trivial⟩
        · exact trivial

theorem children_resume {page : List Uuid} {rows : List Job} (among : ∀ row ∈ rows, row.id ∈ page) :
    (Program.forEach rows fun child => promoteChild child.id child).Uses (Op.Resumes page) := by
  induction rows with
  | nil => exact trivial
  | cons row rest ih =>
      refine (promoteChild_resumes (among row List.mem_cons_self) row).bind fun _ => ?_
      exact ih fun other member => among other (List.mem_cons_of_mem _ member)

section Pass

variable {settings : Settings} {pid : Pid} {page : List Uuid} {start world after : World}
  {cursor next last : Option (Time × Uuid)} {trace : List (Op × World)}

theorem Resumed.unmoved (resumed : Resumed pid page start world) (unmoved : Unmoved world after) :
    Resumed pid page start after where
  alone := ⟨fun id => by rw [unmoved.slots]; exact resumed.alone.jobs id,
    fun other different => by rw [unmoved.dependencies]; exact resumed.alone.edges other different⟩
  edges := by
    rw [unmoved.dependencies]
    exact resumed.edges
  rows := by
    intro id
    rw [unmoved.visible]
    exact resumed.rows id

theorem Resumed.operate {operation : Op} {reply : Reply operation}
    (resumed : Resumed pid page start world) (resumes : Op.Resumes page operation)
    (operated : World.operate pid operation world = some (reply, after)) :
    Resumed pid page start after := by
  have alone := resumed.alone.operate operated
  cases operation with
  | query query =>
      cases operated
      exact ⟨alone, resumed.edges, resumed.rows⟩
  | command command =>
      cases command with
      | pausedFlags ids =>
          cases operated
          exact ⟨alone, resumed.edges, resumed.rows⟩
      | _ => exact resumes.elim
  | statement statement =>
      cases statement with
      | insertOutbox tenant user topic event =>
          obtain ⟨outbox, _, equal⟩ := Option.map_eq_some_iff.mp operated
          cases equal
          exact ⟨alone, resumed.edges, resumed.rows⟩
      | promoteWaitingToPending id =>
          obtain ⟨jobs, updated, rfl⟩ := withJobs_eq operated
          obtain ⟨_, rfl, _⟩ | ⟨_, row, free, seen, waits, rfl⟩ := Table.update_cases updated
          · exact resumed
          · refine ⟨alone, resumed.edges, fun other => ?_⟩
            rw [Table.write_visible]
            by_cases same : other = id
            · subst same
              right
              obtain kept | ⟨_, old, now, _, _, written⟩ := resumed.rows other
              · refine ⟨resumes, row, world.outside.clock, kept.symm.trans seen, by simpa using waits, ?_⟩
                simp [pended, World.promoted]
              · rw [written] at seen
                cases seen
                simp [pended] at waits
            · simpa [same] using resumed.rows other
      | _ => exact resumes.elim
  | _ => exact resumes.elim

theorem Resumed.commit (resumed : Resumed pid page start world) :
    Resumed pid page start (world.commit pid) := by
  have closed := resumed.alone.commit
  refine ⟨closed.private pid, ?_, fun id => ?_⟩
  · rw [Journal.visible, closed.edges, List.append_nil]
    exact resumed.edges
  · rw [closed.visible]
    exact resumed.rows id

theorem Resumed.unmet_eq (resumed : Resumed pid page start world) (closed : world.Closed) (id : Uuid) :
    unmet world id = unmet start id := by
  have edges : world.dependencies.committed = start.dependencies.committed := by
    have seen := resumed.edges
    rwa [Journal.visible, closed.edges, List.append_nil] at seen
  unfold unmet
  rw [edges]
  congr 1
  funext edge
  congr 1
  have row := resumed.rows edge.dependsOn
  rw [closed.visible] at row
  obtain kept | ⟨_, old, now, stored, waits, written⟩ := row
  · rw [kept]
  · rw [stored, written]
    simp [pended, waits]

theorem Resumed.settled (resumed : Resumed pid page start world) (closed : world.Closed)
    (settled : start.Settled) : world.Settled := by
  refine ⟨closed, fun id row stored => ?_⟩
  have known := resumed.rows id
  rw [closed.visible, stored] at known
  obtain kept | ⟨_, old, now, before, _, written⟩ := known
  · exact settled.keyed id row kept.symm
  · cases written
    exact settled.keyed id old before

theorem Resumed.stayed (resumed : Resumed pid page start world) (closed : world.Closed) {row : Job}
    (member : row ∈ promotable world) : row ∈ promotable start := by
  obtain ⟨⟨id, stored⟩, may⟩ := mem_promotable.mp member
  rw [canPromote, resumed.unmet_eq closed, ← canPromote] at may
  have known := resumed.rows id
  rw [closed.visible, stored] at known
  obtain kept | ⟨_, old, now, _, _, written⟩ := known
  · exact mem_promotable.mpr ⟨⟨id, kept.symm⟩, may⟩
  · cases written
    simp [canPromote, pended] at may

theorem Resumed.untouched (resumed : Resumed pid page start world) (closed : world.Closed)
    (settled : start.Settled) {row : Job} (member : row ∈ promotable start) (off : row.id ∉ page) :
    row ∈ promotable world := by
  obtain ⟨⟨id, stored⟩, may⟩ := mem_promotable.mp member
  rw [canPromote, ← resumed.unmet_eq closed, ← canPromote] at may
  obtain kept | ⟨on, _⟩ := resumed.rows id
  · rw [closed.visible, stored] at kept
    exact mem_promotable.mpr ⟨⟨id, kept⟩, may⟩
  · rw [settled.keyed id row stored] at off
    exact absurd on off

theorem resumeCursor_eq (rows : List Job) :
    (resumeCursor rows).map toLex = nextCursor rank resumeSweepLimit rows := by
  unfold resumeCursor nextCursor
  split
  · rfl
  · rw [Option.map_map]
    rfl

theorem Unmoved.settled (unmoved : Unmoved world after) (settled : world.Settled) : after.Settled := by
  refine ⟨⟨fun id => ?_, fun other => ?_⟩, fun id row stored => ?_⟩
  · rw [unmoved.slots, settled.closed.jobs]
  · rw [unmoved.dependencies, settled.closed.edges]
  · rw [← Table.slot_committed, unmoved.slots, Table.slot_committed] at stored
    exact settled.keyed id row stored

theorem Unmoved.promotable_eq (unmoved : Unmoved world after) (settled : world.Settled) :
    promotable after = promotable world := by
  have committed : ∀ id, after.jobs.committed id = world.jobs.committed id := by
    intro id
    rw [← Table.slot_committed, unmoved.slots, Table.slot_committed]
  refine eq_of_sorted (promotable_sorted (unmoved.settled settled)) (promotable_sorted settled) fun row => ?_
  simp only [mem_promotable, canPromote, unmet, unmoved.dependencies, committed]

theorem examined_append (first second : List (Op × World)) :
    examined (first ++ second) = examined first ++ examined second := List.filterMap_append

theorem examined_of_unprobed (unprobed : probes trace = []) : examined trace = [] := by
  refine List.filterMap_eq_nil_iff.mpr fun entry member => ?_
  have none := List.filterMap_eq_nil_iff.mp unprobed entry member
  obtain ⟨operation, scene⟩ := entry
  cases operation with
  | command command => cases command <;> first | rfl | cases none
  | _ => rfl

theorem head_probedNodes (world : World) (pid : Pid) (id : Uuid) :
    (probedNodes world pid id).head? = some id := by
  obtain ⟨others, nodes⟩ : [id] <+: probedNodes world pid id := prefix_walked _ (maxAncestorNodes - 1) _ _
  rw [← nodes]
  rfl

theorem examined_probe {id : Uuid} {held : Option Uuid}
    (ran : Traced (platform settings) pid (findBlockingPause id) world trace held after) :
    examined trace = [id] := by
  obtain ⟨nodes, middle, first, second, rfl, walk, ran⟩ := Traced.of_bind ran
  obtain ⟨unprobed, collected, _⟩ := traced_walk walk
  have listed : nodes = probedNodes world pid id := collected
  have begins := head_probedNodes world pid id
  rw [← listed] at begins
  have walks : nodes.isEmpty = false := by
    cases nodes with
    | nil => cases begins
    | cons node rest => rfl
  simp only [walks] at ran
  obtain ⟨_, _, _, _, rfl, _, _, ran⟩ := Traced.of_call ran
  obtain ⟨rfl, _, _⟩ := Traced.of_done ran
  rw [examined_append, examined_of_unprobed unprobed]
  simp [examined, begins]

def Op.Promotes : Op → Prop
  | .statement (.promoteWaitingToPending _) | .statement (.insertOutbox ..) => True
  | _ => False

theorem examined_promoteChild {id : Uuid} {child : Job}
    (ran : Traced (platform settings) pid (promoteChild id child) world trace () after) :
    examined trace = [id] := by
  obtain ⟨held, middle, first, second, rfl, probe, ran⟩ := Traced.of_bind ran
  have quiet : examined second = [] := by
    refine List.filterMap_eq_nil_iff.mpr fun entry member => ?_
    have promotes : Op.Promotes entry.1 := by
      refine ran.uses ?_ entry member
      cases held with
      | some pausedBy => exact trivial
      | none =>
          refine .first trivial fun promoted => ?_
          split
          · exact ⟨trivial, fun _ => trivial⟩
          · exact trivial
    obtain ⟨operation, scene⟩ := entry
    cases operation with
    | command command => exact promotes.elim
    | _ => rfl
  rw [examined_append, examined_probe probe, quiet, List.append_nil]

theorem examined_children {rows : List Job}
    (ran : Traced (platform settings) pid
      (Program.forEach rows fun child => promoteChild child.id child) world trace () after) :
    examined trace = rows.map Job.id := by
  induction rows generalizing world trace with
  | nil =>
      obtain ⟨rfl, _, _⟩ := Traced.of_done ran
      rfl
  | cons row rest ih =>
      obtain ⟨_, _, first, second, rfl, probed, ran⟩ := Traced.of_bind ran
      rw [examined_append, examined_promoteChild probed, ih ran]
      rfl

/-- A pass shows the page it was answered: it examined its rows, and returns the
cursor behind them. -/
structure Pass.Shows (pass : Pass) (page : List Job) : Prop where
  examined : pass.examined = page.map Job.id
  next : pass.next = resumeCursor page

structure PassDone (cursor : Option (Time × Uuid)) (world : World) (pass : Pass) (after : World) : Prop where
  shows : pass.Shows (pageAfter rank resumeSweepLimit (cursor.map toLex) (promotable world))
  settled : after.Settled
  stayed : ∀ row ∈ promotable after, row ∈ promotable world
  untouched : ∀ row ∈ promotable world,
    row ∉ pageAfter rank resumeSweepLimit (cursor.map toLex) (promotable world) → row ∈ promotable after

theorem traced_resumePass (settled : world.Settled)
    (ran : Traced (platform settings) pid (resumePass cursor) world trace next after) :
    PassDone cursor world ⟨examined trace, next⟩ after := by
  obtain ⟨_, reading, _, rest, rfl, drifts, executed, ran⟩ := Traced.of_call ran
  cases executed
  have quiet := unmoved_of_drifts drifts
  have asked := quiet.settled settled
  have page : reading.promotableWaiting pid cursor =
      pageAfter rank resumeSweepLimit (cursor.map toLex) (promotable world) := by
    rw [promotableWaiting_eq asked, quiet.promotable_eq settled]
  have ran : Traced (platform settings) pid
      ((Program.forEach (reading.promotableWaiting pid cursor) fun child => promoteChild child.id child).bind
        fun _ => commit.bind fun _ => .done (resumeCursor (reading.promotableWaiting pid cursor)))
      reading rest next after := ran
  obtain ⟨_, swept, each, later, rfl, promotes, ran⟩ := Traced.of_bind ran
  obtain ⟨_, drifted, committed, finish, rfl, moved, executed, ran⟩ := Traced.of_call ran
  cases executed
  obtain ⟨rfl, same, stays⟩ := Traced.of_done ran
  have uses : (Program.forEach (reading.promotableWaiting pid cursor) fun child =>
      promoteChild child.id child).Uses (Op.Resumes ((reading.promotableWaiting pid cursor).map Job.id)) :=
    children_resume fun row member => List.mem_map_of_mem member
  have start : Resumed pid ((reading.promotableWaiting pid cursor).map Job.id) reading reading := by
    refine ⟨asked.closed.private pid, ?_, fun id => .inl (asked.closed.visible pid id)⟩
    rw [Journal.visible, asked.closed.edges, List.append_nil]
  have resumed := promotes.alone.keeps uses
    (fun _ _ drifts resumed => resumed.unmoved (unmoved_of_drifts drifts))
    (fun _ _ _ _ resumes operated resumed => resumed.operate resumes operated) start
  have ended := resumed.unmoved (unmoved_of_drifts moved)
  have closed := ended.alone.commit
  have done := ended.commit.unmoved (unmoved_of_drifts stays)
  have final := (unmoved_of_drifts stays).settled (ended.commit.settled closed asked)
  have probed : examined ((.query (.promotableWaiting cursor), reading) :: (each ++ [(.commit, drifted)])) =
      (reading.promotableWaiting pid cursor).map Job.id := by
    have split : examined ((.query (.promotableWaiting cursor), reading) :: (each ++ [(.commit, drifted)])) =
        examined (each ++ [(.commit, drifted)]) := rfl
    rw [split, examined_append, examined_children promotes]
    exact List.append_nil _
  rw [page] at probed same
  refine ⟨⟨probed, same⟩, final, ?_, ?_⟩
  · intro row member
    rw [← quiet.promotable_eq settled]
    exact done.stayed final.closed member
  · intro row member off
    rw [← page] at off
    rw [← quiet.promotable_eq settled] at member
    refine done.untouched final.closed asked member fun on => off ?_
    obtain ⟨other, among, equal⟩ := List.mem_map.mp on
    have listed : other ∈ promotable reading := by
      rw [promotableWaiting_eq asked] at among
      exact (List.mem_filter.mp (List.mem_of_mem_take among)).1
    rwa [List.inj_on_of_nodup_map (promotable_nodup asked) listed member equal] at among

end Pass

section Sweeps

variable {settings : Settings} {world after : World} {cursor last : Option (Time × Uuid)}
  {passes : List Pass}

theorem resumeCursor_eq_none_iff (rows : List Job) :
    resumeCursor rows = none ↔ rows.length < resumeSweepLimit := by
  unfold resumeCursor
  split
  · simpa
  · rename_i full
    have nonempty : rows ≠ [] := by
      intro empty
      simp [empty, resumeSweepLimit] at full
    simp [nonempty, Nat.not_lt.mp full]

theorem Sweeps.paged (sweeps : Sweeps settings cursor world passes last after) (settled : world.Settled) :
    ∃ pages, List.Forall₂ Pass.Shows passes pages ∧
      Passes rank resumeSweepLimit (cursor.map toLex) (promotable world) pages ∧ after.Settled := by
  induction sweeps with
  | start => exact ⟨[], .nil, .start, settled⟩
  | pass ran _ ih =>
      obtain ⟨shown, kept, stayed, untouched⟩ := traced_resumePass settled ran
      obtain ⟨pages, later, passes, final⟩ := ih kept
      refine ⟨_ :: pages, .cons shown later, .pass (promotable_sorted kept) stayed untouched ?_, final⟩
      have next := shown.next
      dsimp only at next
      rwa [← resumeCursor_eq, ← next]

theorem Sweeps.stayed (sweeps : Sweeps settings cursor world passes last after) (settled : world.Settled) :
    (∀ row ∈ promotable after, row ∈ promotable world) ∧
      ∀ row ∈ promotable world, row ∉ promotable after → ∃ pass ∈ passes, row.id ∈ pass.examined := by
  induction sweeps with
  | start => exact ⟨fun _ member => member, fun row member gone => absurd member gone⟩
  | @pass cursor _ _ _ world _ _ trace _ ran _ ih =>
      obtain ⟨shown, kept, stayed, untouched⟩ := traced_resumePass settled ran
      obtain ⟨earlier, seen⟩ := ih kept
      refine ⟨fun row member => stayed row (earlier row member), fun row member gone => ?_⟩
      by_cases here : row ∈ pageAfter rank resumeSweepLimit (cursor.map toLex) (promotable world)
      · refine ⟨_, List.mem_cons_self, ?_⟩
        rw [shown.examined]
        exact List.mem_map_of_mem here
      · obtain ⟨pass, among, found⟩ := seen row (untouched row member here) gone
        exact ⟨pass, List.mem_cons_of_mem _ among, found⟩

theorem Sweeps.fewer (sweeps : Sweeps settings cursor world passes last after) (settled : world.Settled) :
    (promotable after).length ≤ (promotable world).length := by
  obtain ⟨_, _, _, kept⟩ := sweeps.paged settled
  have distinct : (promotable after).Nodup := (promotable_nodup kept).of_map
  exact (List.subperm_of_subset distinct (sweeps.stayed settled).1).length_le

theorem pages_within {count rows : Nat} (fewer : count ≤ rows) : count / resumeSweepLimit ≤ pagesOf rows := by
  unfold pagesOf resumeSweepLimit
  omega

theorem length_after_le (cursor : Option (Time ×ₗ Uuid)) (rows : List Job) :
    (Search.after rank cursor rows).length ≤ rows.length := List.length_filter_le _ _

theorem resumePass_leavesOutbox (cursor : Option (Time × Uuid)) : (resumePass cursor).Uses Op.leavesOutbox := by
  refine .first trivial fun rows => .bind (.forEach fun child => ?_) fun _ => ⟨trivial, fun _ => trivial⟩
  have resumes : (promoteChild child.id child).Uses (Op.Resumes [child.id]) :=
    promoteChild_resumes (by simp) child
  refine resumes.mono fun operation resumes => ?_
  unfold Op.Resumes at resumes
  split at resumes <;> first | exact trivial | exact resumes.elim

theorem exists_shows {pages : List (List Job)} (shown : List.Forall₂ Pass.Shows passes pages)
    {page : List Job} (member : page ∈ pages) : ∃ pass ∈ passes, pass.Shows page := by
  induction shown with
  | nil => cases member
  | cons first _ ih =>
      cases List.mem_cons.mp member with
      | inl same =>
          rw [same]
          exact ⟨_, List.mem_cons_self, first⟩
      | inr later =>
          obtain ⟨pass, among, shows⟩ := ih later
          exact ⟨pass, List.mem_cons_of_mem _ among, shows⟩

theorem examined_eq_flatten {pages : List (List Job)} (shown : List.Forall₂ Pass.Shows passes pages) :
    passes.flatMap Pass.examined = pages.flatten.map Job.id := by
  induction shown with
  | nil => rfl
  | cons first _ ih => rw [List.flatMap_cons, List.flatten_cons, List.map_append, first.examined, ih]

/-- The sweep is fair from any cursor. -/
theorem resume_sweep_fair (settled : world.Settled) : Fair settings cursor world := by
  refine ⟨?_, ?_, ?_, ?_⟩
  · intro passes next middle sweeps
    obtain ⟨_, _, _, final⟩ := sweeps.paged settled
    have runs : ∃ last after, Alone (platform settings) 0 (resumePass next) middle last after :=
      exists_run_of_closed (resumePass_leavesOutbox next) final.closed
    obtain ⟨last, after, ran⟩ := runs
    obtain ⟨trace, ran⟩ := ran.traced
    exact ⟨_, last, after, .pass ran .start⟩
  · intro passes last after sweeps enough
    obtain ⟨pages, shown, paged, _⟩ := sweeps.paged settled
    have within := pages_within (length_after_le (cursor.map toLex) (promotable world))
    rw [shown.length_eq] at enough
    obtain ⟨index, early, page, found, short⟩ := paged.resets (promotable_sorted settled) (by decide) (by omega)
    have among : page ∈ pages.take (pagesOf (promotable world).length + 1) := by
      refine List.mem_iff_getElem?.mpr ⟨index, ?_⟩
      rw [List.getElem?_take, if_pos (by omega), found]
    obtain ⟨pass, listed, shows⟩ := exists_shows (List.forall₂_take _ shown) among
    refine ⟨pass, listed, ?_⟩
    rw [shows.next, resumeCursor_eq_none_iff]
    exact short
  · intro before middle passes last after earlier sweeps enough row member
    by_cases left : row ∈ promotable middle
    · right
      obtain ⟨_, _, _, kept⟩ := earlier.paged settled
      obtain ⟨pages, shown, paged, _⟩ := sweeps.paged kept
      have within := pages_within ((length_after_le none (promotable middle)).trans (earlier.fewer settled))
      have behind : row ∈ Search.after rank none (promotable middle) := List.mem_filter.mpr ⟨left, rfl⟩
      rw [shown.length_eq] at enough
      obtain ⟨page, among, found⟩ := paged.covers (promotable_sorted kept) (by decide)
        (Nat.lt_of_lt_of_le (Nat.lt_succ_of_le within) enough) row behind
      obtain ⟨pass, listed, shows⟩ := exists_shows
        (List.forall₂_take _ shown) (List.take_subset_take_left _ (Nat.succ_le_succ within) among)
      refine ⟨pass, listed, ?_⟩
      rw [shows.examined]
      exact List.mem_map_of_mem found
    · exact .inl ⟨left, (earlier.stayed settled).2 row member left⟩
  · intro before start middle rotation last after earlier sweeps unreset
    obtain ⟨_, _, _, kept⟩ := earlier.paged settled
    obtain ⟨pages, shown, paged, _⟩ := sweeps.paged kept
    have full : ∀ page ∈ pages.dropLast, resumeSweepLimit ≤ page.length := by
      intro page member
      rw [List.dropLast_eq_take, ← shown.length_eq] at member
      obtain ⟨pass, among, shows⟩ := exists_shows (List.forall₂_take _ shown) member
      rw [← List.dropLast_eq_take] at among
      have handed := unreset pass among
      rw [shows.next, Ne, resumeCursor_eq_none_iff] at handed
      exact Nat.not_lt.mp handed
    have consecutive := paged.consecutive (promotable_sorted kept) (by decide) full
    have inOrder : pages.flatten.Sublist (promotable middle) := consecutive.trans List.filter_sublist
    rw [examined_eq_flatten shown]
    exact (promotable_nodup kept).sublist (inOrder.map Job.id)

theorem Sweeps.append {middle : World} {next : Option (Time × Uuid)} {later : List Pass}
    (first : Sweeps settings cursor world passes next middle)
    (second : Sweeps settings next middle later last after) :
    Sweeps settings cursor world (passes ++ later) last after := by
  induction first with
  | start => exact second
  | pass ran _ ih => exact .pass ran (ih second)

theorem Fair.exists_sweeps (fair : Fair settings cursor world) (count : Nat) :
    ∃ passes last after, Sweeps settings cursor world passes last after ∧ passes.length = count := by
  induction count with
  | zero => exact ⟨[], cursor, world, .start, rfl⟩
  | succ count ih =>
      obtain ⟨passes, next, middle, sweeps, length⟩ := ih
      obtain ⟨pass, last, after, more⟩ := fair.proceeds sweeps
      exact ⟨_, last, after, sweeps.append more, by rw [List.length_append, length]; rfl⟩

end Sweeps

/-- Waiting since its creation, which it shares with up to 149 other rows. -/
def waitingRow (id : Nat) : Job where
  id
  tenantId := 8
  userId := 7
  type := "csv_upload"
  status := .waiting
  maxAttempts := 3
  createdAt := id / 150
  updatedAt := 1

def threePages : World :=
  { World.fresh (readings 1 .timedOut) with
    jobs := .stored waitingRow 401
    paused := fun id => if id % 2 = 0 then some 1 else none }

theorem length_promotable_threePages : (promotable threePages).length ≤ 401 := by
  rw [promotable, List.length_insertionSort]
  refine (List.length_filter_le _ _).trans ((List.length_filterMap_le _ _).trans ?_)
  simp [threePages, Table.stored]

theorem mem_promotable_threePages {id : Nat} (stored : id < 401) : waitingRow id ∈ promotable threePages :=
  mem_promotable.mpr ⟨⟨id, by simp [threePages, Table.stored, stored]⟩, rfl⟩

theorem resume_sweep_fair_at_three_pages :
    ∃ passes last after, Sweeps .defaults none threePages passes last after ∧ passes.length = 4 ∧
      (∃ pass ∈ passes, pass.next = none) ∧
      ∀ id : Nat, id < 401 → ∃ pass ∈ passes, id ∈ pass.examined := by
  have fair : Fair .defaults none threePages :=
    resume_sweep_fair (World.settled_of_stored rfl (fun _ => rfl) fun _ => rfl)
  obtain ⟨passes, last, after, sweeps, length⟩ := fair.exists_sweeps 4
  have enough : pagesOf (promotable threePages).length + 1 ≤ passes.length := by
    have rows := length_promotable_threePages
    rw [length]
    unfold pagesOf resumeSweepLimit
    omega
  refine ⟨passes, last, after, sweeps, length, ?_, fun id stored => ?_⟩
  · obtain ⟨pass, listed, resets⟩ := fair.resets sweeps enough
    exact ⟨pass, List.mem_of_mem_take listed, resets⟩
  · obtain ⟨_, pass, listed, _⟩ | ⟨pass, listed, found⟩ :=
      fair.covers .start sweeps enough _ (mem_promotable_threePages stored)
    · cases listed
    · exact ⟨pass, List.mem_of_mem_take listed, found⟩

end IncidentPlatform.Properties

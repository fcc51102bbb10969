import IncidentPlatform.Api.Jobs

namespace IncidentPlatform.Properties

open Api Concurrency Models Utils JobReads

/-! # What readers are served from the job cache

A cached row is stale for a replay or a resolution if it was read before that
one committed.  A replay closes the slot after its commit, for longer than a
reader takes from its read to its set; a resolution only empties the slot, and
before its commit.
-/

variable {Row : Type} {reads after : JobReads Row} {action : Action Row}

theorem get_of_live {cache : JobCache (Snapshot Row)} {now : Time} {read : Snapshot Row}
    (got : cache.get now = some read) :
    ∃ expiry, cache.stored = some (.response read, expiry) ∧ now < expiry := by
  unfold JobCache.get JobCache.live at got
  cases stored : cache.stored with
  | none => simp [stored] at got
  | some entry =>
      obtain ⟨value, expiry⟩ := entry
      by_cases fresh : now < expiry
      · simp only [stored, Option.bind_some, fresh, if_true] at got
        cases value with
        | invalidated => cases got
        | response row =>
            cases got
            exact ⟨expiry, rfl, fresh⟩
      · simp [stored, fresh] at got

theorem get_earlier {cache : JobCache (Snapshot Row)} {now later : Time} {read : Snapshot Row}
    (passed : now ≤ later) (got : cache.get later = some read) : cache.get now = some read := by
  obtain ⟨expiry, stored, fresh⟩ := get_of_live got
  simp [JobCache.get, JobCache.live, stored, Nat.lt_of_le_of_lt passed fresh]

theorem set_cases (cache : JobCache (Snapshot Row)) (now : Time) (read : Snapshot Row) :
    cache.set now read = cache ∨
      (∀ value expiry, cache.stored = some (value, expiry) → expiry ≤ now) ∧
        cache.set now read = { stored := some (.response read, now + jobTtl) } := by
  unfold JobCache.set JobCache.live
  cases stored : cache.stored with
  | none => exact .inr ⟨fun _ _ absurd => (by cases absurd), rfl⟩
  | some entry =>
      obtain ⟨value, expiry⟩ := entry
      by_cases fresh : now < expiry
      · exact .inl (by simp [fresh])
      · refine .inr ⟨?_, by simp [fresh]⟩
        intro _ _ same
        cases same
        exact Nat.le_of_not_lt fresh

theorem get_response {now later : Time} {read found : Snapshot Row}
    (got : JobCache.get { stored := some (.response read, now + jobTtl) } later = some found) :
    found = read := by
  obtain ⟨expiry, stored, _⟩ := get_of_live got
  cases stored
  rfl

theorem get_invalidate {now later : Time} {found : Snapshot Row} :
    (JobCache.invalidate now : JobCache (Snapshot Row)).get later ≠ some found := by
  intro got
  obtain ⟨expiry, stored, _⟩ := get_of_live got
  cases stored

theorem get_delete {later : Time} {found : Snapshot Row} :
    (JobCache.delete : JobCache (Snapshot Row)).get later ≠ some found := by
  intro got
  obtain ⟨expiry, stored, _⟩ := get_of_live got
  cases stored

theorem assign_cases {Phase : Type} {phases : Nat → Phase} {id other : Nat} {phase found : Phase}
    (assigned : assign phases id phase other = found) :
    other = id ∧ found = phase ∨ other ≠ id ∧ phases other = found := by
  unfold assign at assigned
  split at assigned
  · exact .inl ⟨‹_›, assigned.symm⟩
  · exact .inr ⟨‹_›, assigned⟩

/-- A reader sets within the tombstone's lifetime of its read. -/
def setsPromptly (reads : JobReads Row) : Action Row → Bool
  | .set reader =>
      match reads.reader reader with
      | .caching _ readAt => reads.clock < readAt + noCacheTtl
      | _ => true
  | _ => true

def onReplays : Action Row → Bool
  | .evict _ => false
  | _ => true

structure ReplaysShown (reads : JobReads Row) : Prop where
  numbered : ∀ replay epoch, reads.replay replay = .committed epoch ∨
    reads.replay replay = .invalidated epoch → epoch ≤ reads.epoch
  cached : ∀ read, reads.cache.get reads.clock = some read →
    ∀ replay epoch, reads.replay replay = .invalidated epoch → epoch ≤ read.epoch
  /-- A reader with an older row finds the slot closed as long as it is prompt. -/
  caching : ∀ reader read readAt, reads.reader reader = .caching read readAt → readAt ≤ reads.clock ∧
    ∀ replay epoch, reads.replay replay = .invalidated epoch → read.epoch < epoch →
      readAt + noCacheTtl ≤ reads.clock ∨
        ∃ expiry, reads.cache.stored = some (.invalidated, expiry) ∧ readAt + noCacheTtl ≤ expiry

theorem ReplaysShown.of_same (shown : ReplaysShown reads) (cache : after.cache = reads.cache)
    (clock : after.clock = reads.clock) (epoch : reads.epoch ≤ after.epoch)
    (replay : after.replay = reads.replay)
    (reader : ∀ id read readAt, after.reader id = .caching read readAt →
      reads.reader id = .caching read readAt) : ReplaysShown after := by
  refine ⟨?_, ?_, ?_⟩
  · intro id number phase
    rw [replay] at phase
    exact Nat.le_trans (shown.numbered id number phase) epoch
  · rw [cache, clock, replay]
    exact shown.cached
  · intro id read readAt phase
    rw [cache, clock, replay]
    exact shown.caching id read readAt (reader id read readAt phase)

theorem ReplaysShown.pass (shown : ReplaysShown reads) (elapsed : Time) :
    ReplaysShown { reads with clock := reads.clock + elapsed } := by
  refine ⟨shown.numbered, fun read got => shown.cached read (get_earlier (Nat.le_add_right _ _) got), ?_⟩
  intro reader read readAt phase
  obtain ⟨before, closed⟩ := shown.caching reader read readAt phase
  refine ⟨Nat.le_trans before (Nat.le_add_right _ _), fun replay epoch done older => ?_⟩
  obtain late | tombstone := closed replay epoch done older
  · exact .inl (Nat.le_trans late (Nat.le_add_right _ _))
  · exact .inr tombstone

theorem ReplaysShown.read (shown : ReplaysShown reads) {reader : Nat}
    (phase : ReaderPhase Row) (fresh : ∀ read readAt, phase = .caching read readAt →
      read.epoch = reads.epoch ∧ readAt = reads.clock) :
    ReplaysShown { reads with reader := assign reads.reader reader phase } := by
  refine ⟨shown.numbered, shown.cached, ?_⟩
  intro id read readAt found
  obtain ⟨_, same⟩ | ⟨_, earlier⟩ := assign_cases found
  · obtain ⟨current, now⟩ := fresh read readAt same.symm
    refine ⟨Nat.le_of_eq now, fun replay epoch done older => ?_⟩
    have number := shown.numbered replay epoch (.inr done)
    rw [current] at older
    exact absurd older (Nat.not_lt.mpr number)
  · exact shown.caching id read readAt earlier

theorem ReplaysShown.set (shown : ReplaysShown reads) {reader : Nat} {read : Snapshot Row} {readAt : Time}
    (phase : reads.reader reader = .caching read readAt)
    (prompt : reads.clock < readAt + noCacheTtl) :
    ReplaysShown { reads with
      cache := reads.cache.set reads.clock read, reader := assign reads.reader reader .answered } := by
  have others : ∀ id other otherAt, assign reads.reader reader .answered id = .caching other otherAt →
      reads.reader id = .caching other otherAt := by
    intro id other otherAt found
    obtain ⟨_, absurd⟩ | ⟨_, earlier⟩ := assign_cases found
    · cases absurd
    · exact earlier
  obtain kept | ⟨free, filled⟩ := set_cases reads.cache reads.clock read
  · rw [kept]
    exact shown.of_same rfl rfl (Nat.le_refl _) rfl others
  · rw [filled]
    refine ⟨shown.numbered, ?_, ?_⟩
    · intro found got replay epoch done
      cases get_response got
      by_contra older
      obtain late | ⟨expiry, stored, closed⟩ :=
        (shown.caching reader read readAt phase).2 replay epoch done (Nat.lt_of_not_le older)
      · exact absurd late (Nat.not_le.mpr prompt)
      · have expired := free _ _ stored
        exact absurd (Nat.le_trans closed expired) (Nat.not_le.mpr prompt)
    · intro id other otherAt found
      obtain ⟨before, closed⟩ := shown.caching id other otherAt (others id other otherAt found)
      refine ⟨before, fun replay epoch done older => .inl ?_⟩
      obtain late | ⟨expiry, stored, closed⟩ := closed replay epoch done older
      · exact late
      · exact Nat.le_trans closed (free _ _ stored)

theorem ReplaysShown.invalidate (shown : ReplaysShown reads) {replay epoch : Nat}
    (phase : reads.replay replay = .committed epoch) :
    ReplaysShown { reads with
      cache := JobCache.invalidate reads.clock
      replay := assign reads.replay replay (.invalidated epoch) } := by
  refine ⟨?_, fun read got => absurd got get_invalidate, ?_⟩
  · intro id number found
    obtain committed | invalidated := found
    · obtain ⟨_, absurd⟩ | ⟨_, earlier⟩ := assign_cases committed
      · cases absurd
      · exact shown.numbered id number (.inl earlier)
    · obtain ⟨_, same⟩ | ⟨_, earlier⟩ := assign_cases invalidated
      · cases same
        exact shown.numbered replay epoch (.inl phase)
      · exact shown.numbered id number (.inr earlier)
  · intro id read readAt found
    have before := (shown.caching id read readAt found).1
    exact ⟨before, fun _ _ _ _ => .inr ⟨_, rfl, Nat.add_le_add_right before _⟩⟩

theorem ReplaysShown.commitReplay (shown : ReplaysShown reads) {replay : Nat} (row : Row) :
    ReplaysShown { reads with
      row
      epoch := reads.epoch + 1
      replay := assign reads.replay replay (.committed (reads.epoch + 1)) } := by
  have invalidated : ∀ id number, assign reads.replay replay (.committed (reads.epoch + 1)) id =
      .invalidated number → reads.replay id = .invalidated number := by
    intro id number found
    obtain ⟨_, absurd⟩ | ⟨_, earlier⟩ := assign_cases found
    · cases absurd
    · exact earlier
  refine ⟨?_, fun read got id number done => shown.cached read got id number (invalidated id number done), ?_⟩
  · intro id number found
    obtain committed | done := found
    · obtain ⟨_, same⟩ | ⟨_, earlier⟩ := assign_cases committed
      · cases same
        exact Nat.le_refl _
      · exact Nat.le_succ_of_le (shown.numbered id number (.inl earlier))
    · exact Nat.le_succ_of_le (shown.numbered id number (.inr (invalidated id number done)))
  · intro id read readAt found
    obtain ⟨before, closed⟩ := shown.caching id read readAt found
    exact ⟨before, fun id number done => closed id number (invalidated id number done)⟩

theorem ReplaysShown.step (shown : ReplaysShown reads) (prompt : setsPromptly reads action = true)
    (replays : onReplays action = true) (stepped : JobReads.step action reads = some after) :
    ReplaysShown after := by
  have idle : ∀ {id other read readAt}, assign reads.reader id .answered other = .caching read readAt →
      reads.reader other = .caching read readAt := by
    intro id other read readAt found
    obtain ⟨_, absurd⟩ | ⟨_, earlier⟩ := assign_cases found
    · cases absurd
    · exact earlier
  cases action with
  | pass elapsed =>
      cases stepped
      exact shown.pass elapsed
  | write row =>
      cases stepped
      exact shown.of_same rfl rfl (Nat.le_refl _) rfl fun _ _ _ phase => phase
  | get reader entitled =>
      simp only [JobReads.step] at stepped
      split at stepped
      · cases stepped
        apply shown.read
        intro read readAt same
        split at same <;> cases same
      · contradiction
  | read reader =>
      simp only [JobReads.step] at stepped
      split at stepped
      · cases stepped
        apply shown.read
        intro read readAt same
        cases same
        exact ⟨rfl, rfl⟩
      · contradiction
  | set reader =>
      simp only [JobReads.step] at stepped
      split at stepped
      · rename_i read readAt phase
        cases stepped
        simp only [setsPromptly, phase, decide_eq_true_eq] at prompt
        exact shown.set phase prompt
      · contradiction
  | abandon reader =>
      cases stepped
      exact shown.of_same rfl rfl (Nat.le_refl _) rfl fun _ _ _ phase => idle phase
  | commitReplay replay row =>
      simp only [JobReads.step] at stepped
      split at stepped
      · cases stepped
        exact shown.commitReplay row
      · contradiction
  | invalidate replay =>
      simp only [JobReads.step] at stepped
      split at stepped
      · rename_i epoch phase
        cases stepped
        exact shown.invalidate phase
      · contradiction
  | evict resolution => cases replays
  | commitResolution resolution row =>
      simp only [JobReads.step] at stepped
      split at stepped
      · cases stepped
        exact shown.of_same rfl rfl (Nat.le_succ _) rfl fun _ _ _ phase => phase
      · contradiction
  | rollbackResolution resolution =>
      simp only [JobReads.step] at stepped
      split at stepped
      · cases stepped
        exact shown.of_same rfl rfl (Nat.le_refl _) rfl fun _ _ _ phase => phase
      · cases stepped
        exact shown.of_same rfl rfl (Nat.le_refl _) rfl fun _ _ _ phase => phase
      · contradiction
  | respond resolution =>
      simp only [JobReads.step] at stepped
      split at stepped
      · cases stepped
        exact shown.of_same rfl rfl (Nat.le_refl _) rfl fun _ _ _ phase => phase
      · contradiction

theorem served_of_get {entitled : Bool} {cached : Snapshot Row}
    (served : reads.servedFromCache entitled = some cached) :
    reads.cache.get reads.clock = some cached := by
  unfold servedFromCache at served
  split at served
  · exact served
  · cases served

/-- In every run of readers and replays whose readers set within 30 seconds of
their read, a reader that starts after the invalidation of a replay is served no
row from the cache that was read before the replay committed. -/
theorem replay_never_hidden {row : Row} {steps : List (JobReads Row × Action Row)} {last : JobReads Row}
    (ran : (jobReads row).Run steps last)
    (replays : ∀ taken ∈ steps, onReplays taken.2 = true)
    (prompt : ∀ taken ∈ steps, setsPromptly taken.1 taken.2 = true) :
    ∀ before reader entitled, (before, .get reader entitled) ∈ steps →
      ∀ replay epoch, before.replay replay = .invalidated epoch →
      ∀ cached, before.servedFromCache entitled = some cached → epoch ≤ cached.epoch := by
  have shown : ∀ state ∈ Machine.visited steps last, ReplaysShown state := by
    refine ran.always ?_
      (fun earlier (permitted : onReplays _ = true ∧ setsPromptly _ _ = true) stepped =>
        earlier.step permitted.2 permitted.1 stepped)
      fun taken member => ⟨replays taken member, prompt taken member⟩
    refine ⟨?_, fun _ got => (by cases got), fun _ _ _ phase => (by cases phase)⟩
    intro replay epoch phase
    obtain absurd | absurd := phase <;> cases absurd
  intro before reader entitled taken replay epoch done cached served
  have kept := shown before (List.mem_cons_of_mem _ (List.mem_map_of_mem (f := Prod.fst) taken))
  exact kept.cached cached (served_of_get served) replay epoch done

/-- The last step serves `row` to reader 2, in a state where `done` holds. -/
def lastServes (row : String) (done : JobReads String → Bool) :
    List (JobReads String × Action String) → Bool
  | (before, .get 2 true) :: _ =>
      done before && (before.servedFromCache true).any fun cached => cached.row = row
  | _ => false

theorem exists_served {row : String} {done : JobReads String → Bool}
    {steps : List (JobReads String × Action String)} (serves : lastServes row done steps = true) :
    ∃ before cached, (before, .get 2 true) ∈ steps ∧ done before = true ∧
      before.servedFromCache true = some cached ∧ cached.row = row := by
  unfold lastServes at serves
  split at serves
  · obtain ⟨finished, found⟩ := Bool.and_eq_true_iff.mp serves
    obtain ⟨cached, served, same⟩ := (Option.any_eq_true _ _).mp found
    exact ⟨_, cached, List.mem_cons_self, finished, served, of_decide_eq_true same⟩
  · cases serves

/-- The old row finds the slot closed by the replay; later a reader caches the
new row, and the last one is served it. -/
def replayShown : List (Action String) :=
  [.get 0 true, .read 0, .commitReplay 0 "pending", .invalidate 0, .pass (seconds 29), .set 0,
    .pass (seconds 2), .get 1 true, .read 1, .set 1, .get 2 true]

theorem replay_never_hidden_at_shown : ∃ steps last before cached,
    (jobReads "dead_letter").Run steps last ∧ (before, .get 2 true) ∈ steps ∧
    before.replay 0 = .invalidated 1 ∧ before.servedFromCache true = some cached ∧
    cached.row = "pending" ∧ 1 ≤ cached.epoch := by
  obtain ⟨steps, last, ran, checked⟩ : ∃ steps last, (jobReads "dead_letter").Run steps last ∧
      (steps.all (fun taken => onReplays taken.2) &&
        steps.all (fun taken => setsPromptly taken.1 taken.2) &&
        lastServes "pending" (fun before => before.replay 0 = .invalidated 1) steps) = true :=
    Machine.exists_run replayShown (by decide +kernel)
  simp only [Bool.and_eq_true, List.all_eq_true] at checked
  obtain ⟨⟨replays, prompt⟩, serves⟩ := checked
  obtain ⟨before, cached, taken, done, served, same⟩ := exists_served serves
  have done := of_decide_eq_true done
  exact ⟨steps, last, before, cached, ran, taken, done, served, same,
    replay_never_hidden ran replays prompt before 2 true taken 0 1 done cached served⟩

/-- A set that finds the slot free has a row that no replay or resolution has
replaced since, and no resolution is between its eviction and its commit. -/
def refillsSafely (reads : JobReads Row) : Action Row → Prop
  | .set reader => ∀ read readAt, reads.reader reader = .caching read readAt →
      reads.cache.live reads.clock = none →
      read.epoch = reads.epoch ∧ ∀ resolution, reads.resolution resolution ≠ .evicted
  | _ => True

structure ResolutionsShown (reads : JobReads Row) : Prop where
  evicted : ∀ resolution, reads.resolution resolution = .evicted →
    ∀ read, reads.cache.get reads.clock ≠ some read
  numbered : ∀ resolution epoch, reads.resolution resolution = .committed epoch ∨
    reads.resolution resolution = .responded epoch → epoch ≤ reads.epoch
  cached : ∀ resolution epoch, reads.resolution resolution = .committed epoch ∨
    reads.resolution resolution = .responded epoch →
    ∀ read, reads.cache.get reads.clock = some read → epoch ≤ read.epoch

theorem ResolutionsShown.of_fewer (shown : ResolutionsShown reads) (epoch : reads.epoch ≤ after.epoch)
    (resolution : after.resolution = reads.resolution)
    (fewer : ∀ read, after.cache.get after.clock = some read →
      reads.cache.get reads.clock = some read) : ResolutionsShown after := by
  refine ⟨?_, ?_, ?_⟩
  · intro id phase read got
    rw [resolution] at phase
    exact shown.evicted id phase read (fewer read got)
  · intro id number phase
    rw [resolution] at phase
    exact Nat.le_trans (shown.numbered id number phase) epoch
  · intro id number phase read got
    rw [resolution] at phase
    exact shown.cached id number phase read (fewer read got)

theorem live_of_free {cache : JobCache (Snapshot Row)} {now : Time}
    (free : ∀ value expiry, cache.stored = some (value, expiry) → expiry ≤ now) :
    cache.live now = none := by
  unfold JobCache.live
  cases stored : cache.stored with
  | none => rfl
  | some entry => simp [Nat.not_lt.mpr (free entry.1 entry.2 stored)]

theorem ResolutionsShown.set (shown : ResolutionsShown reads) {reader : Nat} {read : Snapshot Row}
    {readAt : Time} (phase : reads.reader reader = .caching read readAt)
    (safe : refillsSafely reads (.set reader)) :
    ResolutionsShown { reads with
      cache := reads.cache.set reads.clock read, reader := assign reads.reader reader .answered } := by
  obtain kept | ⟨free, filled⟩ := set_cases reads.cache reads.clock read
  · rw [kept]
    exact shown.of_fewer (Nat.le_refl _) rfl fun _ got => got
  · obtain ⟨current, none⟩ := safe read readAt phase (live_of_free free)
    rw [filled]
    refine ⟨fun id evicted => absurd evicted (none id), shown.numbered, ?_⟩
    intro id number settled found got
    cases get_response got
    rw [current]
    exact shown.numbered id number settled

theorem ResolutionsShown.advance (shown : ResolutionsShown reads) {resolution : Nat}
    {phase : ResolvePhase} (unevicted : phase ≠ .evicted)
    (settled : ∀ epoch, phase = .committed epoch ∨ phase = .responded epoch →
      epoch ≤ after.epoch ∧ ∀ read, reads.cache.get reads.clock = some read → epoch ≤ read.epoch)
    (epoch : reads.epoch ≤ after.epoch) (cache : after.cache = reads.cache)
    (clock : after.clock = reads.clock)
    (assigned : after.resolution = assign reads.resolution resolution phase) :
    ResolutionsShown after := by
  have either : ∀ id number, after.resolution id = .committed number ∨
      after.resolution id = .responded number →
      number ≤ after.epoch ∧ ∀ read, reads.cache.get reads.clock = some read → number ≤ read.epoch := by
    intro id number found
    rw [assigned] at found
    by_cases same : id = resolution
    · simp only [assign, same, if_true] at found
      exact settled number found
    · simp only [assign, same, if_false] at found
      exact ⟨Nat.le_trans (shown.numbered id number found) epoch, shown.cached id number found⟩
  refine ⟨?_, fun id number found => (either id number found).1, ?_⟩
  · intro id evicted
    rw [assigned] at evicted
    rw [cache, clock]
    obtain ⟨_, same⟩ | ⟨_, earlier⟩ := assign_cases evicted
    · exact absurd same.symm unevicted
    · exact shown.evicted id earlier
  · intro id number found
    rw [cache, clock]
    exact (either id number found).2

theorem ResolutionsShown.evict (shown : ResolutionsShown reads) {resolution : Nat} :
    ResolutionsShown { reads with
      cache := JobCache.delete
      resolution := assign reads.resolution resolution .evicted } := by
  refine ⟨fun _ _ _ => get_delete, ?_, fun _ _ _ _ got => absurd got get_delete⟩
  intro id number found
  by_cases same : id = resolution
  · simp [assign, same] at found
  · simp only [assign, same, if_false] at found
    exact shown.numbered id number found

theorem ResolutionsShown.step (shown : ResolutionsShown reads) (safe : refillsSafely reads action)
    (stepped : JobReads.step action reads = some after) : ResolutionsShown after := by
  cases action with
  | pass elapsed =>
      cases stepped
      exact shown.of_fewer (Nat.le_refl _) rfl fun _ got => get_earlier (Nat.le_add_right _ _) got
  | set reader =>
      simp only [JobReads.step] at stepped
      split at stepped
      · rename_i read readAt phase
        cases stepped
        exact shown.set phase safe
      · contradiction
  | invalidate replay =>
      simp only [JobReads.step] at stepped
      split at stepped
      · cases stepped
        exact shown.of_fewer (Nat.le_refl _) rfl fun _ got => absurd got get_invalidate
      · contradiction
  | evict resolution =>
      simp only [JobReads.step] at stepped
      split at stepped
      · cases stepped
        exact shown.evict
      · contradiction
  | commitResolution resolution row =>
      simp only [JobReads.step] at stepped
      split at stepped
      · rename_i phase
        cases stepped
        refine shown.advance (by simp) ?_ (Nat.le_succ _) rfl rfl rfl
        intro number same
        obtain same | absurd := same
        · cases same
          exact ⟨Nat.le_refl _, fun read got => absurd got (shown.evicted resolution phase read)⟩
        · cases absurd
      · contradiction
  | rollbackResolution resolution =>
      simp only [JobReads.step] at stepped
      have advanced : ResolutionsShown { reads with
          resolution := assign reads.resolution resolution .rolledBack } :=
        shown.advance (by simp) (fun _ absurd => (by simp at absurd)) (Nat.le_refl _) rfl rfl rfl
      split at stepped
      · cases stepped
        exact advanced
      · cases stepped
        exact advanced
      · contradiction
  | respond resolution =>
      simp only [JobReads.step] at stepped
      split at stepped
      · rename_i epoch phase
        cases stepped
        refine shown.advance (by simp) ?_ (Nat.le_refl _) rfl rfl rfl
        intro number same
        obtain absurd | same := same
        · cases absurd
        · cases same
          exact ⟨shown.numbered resolution epoch (.inl phase), shown.cached resolution epoch (.inl phase)⟩
      · contradiction
  | write row =>
      cases stepped
      exact shown.of_fewer (Nat.le_refl _) rfl fun _ got => got
  | abandon reader =>
      cases stepped
      exact shown.of_fewer (Nat.le_refl _) rfl fun _ got => got
  | get reader entitled =>
      simp only [JobReads.step] at stepped
      split at stepped
      · cases stepped
        exact shown.of_fewer (Nat.le_refl _) rfl fun _ got => got
      · contradiction
  | read reader =>
      simp only [JobReads.step] at stepped
      split at stepped
      · cases stepped
        exact shown.of_fewer (Nat.le_refl _) rfl fun _ got => got
      · contradiction
  | commitReplay replay row =>
      simp only [JobReads.step] at stepped
      split at stepped
      · cases stepped
        exact shown.of_fewer (Nat.le_succ _) rfl fun _ got => got
      · contradiction

/-- In every run whose readers refill the slot safely, a reader that starts after
a resolution has committed and responded is served no row from the cache that
was read before that commit. -/
theorem resolution_never_hidden {row : Row} {steps : List (JobReads Row × Action Row)}
    {last : JobReads Row} (ran : (jobReads row).Run steps last)
    (safe : ∀ taken ∈ steps, refillsSafely taken.1 taken.2) :
    ∀ before reader entitled, (before, .get reader entitled) ∈ steps →
      ∀ resolution epoch, before.resolution resolution = .responded epoch →
      ∀ cached, before.servedFromCache entitled = some cached → epoch ≤ cached.epoch := by
  have shown : ∀ state ∈ Machine.visited steps last, ResolutionsShown state := by
    refine ran.always ?_ (fun earlier permitted stepped => earlier.step permitted stepped) safe
    refine ⟨fun _ phase => (by cases phase), ?_, ?_⟩
    · intro resolution epoch phase
      obtain absurd | absurd := phase <;> cases absurd
    · intro resolution epoch phase
      obtain absurd | absurd := phase <;> cases absurd
  intro before reader entitled taken resolution epoch responded cached served
  have kept := shown before (List.mem_cons_of_mem _ (List.mem_map_of_mem (f := Prod.fst) taken))
  exact kept.cached resolution epoch (.inr responded) cached (served_of_get served)

def resolutionShown : List (Action String) :=
  [.get 0 true, .read 0, .set 0, .evict 0, .commitResolution 0 "completed", .respond 0,
    .get 1 true, .read 1, .set 1, .get 2 true]

theorem resolution_never_hidden_at_shown : ∃ steps last before cached,
    (jobReads "dead_letter").Run steps last ∧ (before, .get 2 true) ∈ steps ∧
    before.resolution 0 = .responded 1 ∧ before.servedFromCache true = some cached ∧
    cached.row = "completed" ∧ 1 ≤ cached.epoch := by
  have ran := Machine.Run.follow .start
    (show (jobReads "dead_letter").follow resolutionShown ([], .initial "dead_letter") = some _ from rfl)
  refine ⟨_, _, _, _, ran, List.mem_cons_self, rfl, rfl, rfl, ?_⟩
  refine resolution_never_hidden ran ?_ _ 2 true List.mem_cons_self 0 1 rfl _ rfl
  intro taken member
  simp only [List.mem_cons, List.not_mem_nil, or_false] at member
  rcases member with rfl | rfl | rfl | rfl | rfl | rfl | rfl | rfl | rfl | rfl
  all_goals try exact trivial
  · intro read readAt phase _
    cases phase
    refine ⟨rfl, fun resolution => ?_⟩
    by_cases first : resolution = 0 <;> simp [assign, JobReads.initial, first]
  · intro read readAt phase _
    cases phase
    exact ⟨rfl, fun _ => by simp [JobReads.initial]⟩

def resolutionHidden : List (Action String) :=
  [.evict 0, .get 0 true, .read 0, .set 0, .commitResolution 0 "completed", .respond 0, .get 2 true]

theorem resolution_hidden_by_refill :
    ¬ ∀ (Row : Type) (row : Row) (steps : List (JobReads Row × Action Row)) (last : JobReads Row),
      (jobReads row).Run steps last →
      ∀ before reader entitled, (before, .get reader entitled) ∈ steps →
        ∀ resolution epoch, before.resolution resolution = .responded epoch →
        ∀ cached, before.servedFromCache entitled = some cached → epoch ≤ cached.epoch := by
  intro never
  obtain ⟨steps, last, ran, checked⟩ : ∃ steps last, (jobReads "dead_letter").Run steps last ∧
      lastServes "dead_letter" (fun before => before.resolution 0 = .responded 1 &&
        (before.servedFromCache true).any fun cached => cached.epoch = 0) steps = true :=
    Machine.exists_run resolutionHidden (by decide +kernel)
  obtain ⟨before, cached, taken, done, served, _⟩ := exists_served checked
  obtain ⟨responded, old⟩ := Bool.and_eq_true_iff.mp done
  have number := never String "dead_letter" steps last ran before 2 true taken 0 1
    (of_decide_eq_true responded) cached served
  rw [served, Option.any_some, decide_eq_true_eq] at old
  rw [old] at number
  cases number

end IncidentPlatform.Properties

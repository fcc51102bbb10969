import IncidentPlatform.Properties.StatusViews
import Mathlib.Data.List.Dedup

namespace IncidentPlatform.Properties

open Concurrency Models Storage Workers

/-! # What the status views count

One projector handles any events of any jobs.  In each scope a view and what was
trimmed from it are together the ids that moved there last.
-/

/-- An event and the time at which it is handled. -/
structure Handled where
  now : Time
  value : LifecycleMessage

def projector (textOrder : String → String → Bool) : Machine ReadModel Handled where
  initial := fun _ => {}
  step := fun handled model => some (model.handleMessage textOrder handled.now handled.value)

/-- The move is not terminal, and the tenant has the job in a terminal view. -/
def held (model : ReadModel) (now : Time) (move : ViewMove) : Bool :=
  move.newStatus ∉ terminalStatuses && terminalStatuses.any fun status =>
    model.has now ⟨.tenant move.tenantId, status⟩ move.jobId

def appliedMove (model : ReadModel) (handled : Handled) : Option ViewMove :=
  (moveOf handled.value).filter fun move => !held model handled.now move

def ViewMove.touches (move : ViewMove) (scope : ViewScope) : Bool :=
  scope = .tenant move.tenantId || scope = .user move.userId

/-- The ids that moved in a scope and where to, newest first. -/
def movesIn (scope : ViewScope) (steps : List (ReadModel × Handled)) : List (String × TrackedStatus) :=
  steps.filterMap fun taken =>
    ((appliedMove taken.1 taken.2).filter fun move => move.touches scope).map fun move =>
      (move.jobId, move.newStatus)

def lastMove (scope : ViewScope) (steps : List (ReadModel × Handled)) (id : String) :
    Option TrackedStatus :=
  (movesIn scope steps).lookup id

/-- The ids whose last move in the scope of the view was to its status. -/
def movedTo (key : StatusKey) (steps : List (ReadModel × Handled)) : List String :=
  ((movesIn key.scope steps).map Prod.fst).dedup.filter fun id =>
    lastMove key.scope steps id = some key.status

def trimmedBy (textOrder : String → String → Bool) (key : StatusKey) (model : ReadModel)
    (handled : Handled) : List String :=
  match appliedMove model handled with
  | some move =>
      if move.touches key.scope ∧ move.newStatus = key.status then
        ((model key).zadd handled.now move.jobId handled.now).overflow textOrder handled.now
      else []
  | none => []

def trimmedFrom (textOrder : String → String → Bool) (key : StatusKey)
    (steps : List (ReadModel × Handled)) : List String :=
  steps.flatMap fun taken => trimmedBy textOrder key taken.1 taken.2

/-- No event names an id after a trim evicted it from a view of a scope of the event. -/
def NamesNoEvicted (textOrder : String → String → Bool) : List (ReadModel × Handled) → Prop
  | [] => True
  | (_, handled) :: earlier =>
      (∀ move, moveOf handled.value = some move → ∀ key, move.touches key.scope →
        move.jobId ∉ trimmedFrom textOrder key earlier) ∧ NamesNoEvicted textOrder earlier

def Unexpired (model : ReadModel) (now : Time) : Prop :=
  ∀ key, ((model key).expiresAt.all fun expiresAt => now < expiresAt) = true ∧
    ((model key).evictedExpiresAt.all fun expiresAt => now < expiresAt) = true

/-- Each id is in one view of a scope, no view is above the window, and the
counts are true. -/
structure CountsTrue (steps : List (ReadModel × Handled)) (model : ReadModel) (now : Time) : Prop where
  one : ∀ scope id first second, model.has now ⟨scope, first⟩ id = true →
    model.has now ⟨scope, second⟩ id = true → first = second
  bounded : ∀ key, ((model key).live now).length ≤ readModelWindow
  counts : ∀ key, (model key).memberCount now = (movedTo key steps).length

section View

variable {textOrder : String → String → Bool} {view : StatusView} {now : Time} {jobId id : String}

def crowded (textOrder : String → String → Bool) (set : SortedSet String Time) : List String :=
  set.lowest textOrder (set.length - readModelWindow)

theorem expire_evicted : (view.expire now).evicted = view.evicted := rfl

theorem expire_evictedExpiresAt : (view.expire now).evictedExpiresAt = view.evictedExpiresAt := rfl

theorem zadd_evicted : (view.zadd now jobId now).evicted = view.evicted := rfl

theorem overflow_zadd (lives : (view.expiresAt.all fun expiresAt => now < expiresAt) = true) :
    (view.zadd now jobId now).overflow textOrder now = crowded textOrder (view.set.add jobId now) := by
  rw [StatusView.overflow, live_zadd, live_of_lives lives, crowded]

theorem project_of_lives (lives : (view.expiresAt.all fun expiresAt => now < expiresAt) = true)
    (counted : (view.evictedExpiresAt.all fun expiresAt => now < expiresAt) = true) :
    (view.project textOrder now jobId now).set =
        (view.set.add jobId now).remove (crowded textOrder (view.set.add jobId now)) ∧
      (view.project textOrder now jobId now).evicted =
        (crowded textOrder (view.set.add jobId now)).length + view.evicted := by
  have added : (view.zadd now jobId now).set = view.set.add jobId now := by
    rw [StatusView.zadd, live_of_lives lives]
  unfold StatusView.project StatusView.trim
  rw [overflow_zadd lives, live_zadd, live_of_lives lives]
  by_cases roomy : crowded textOrder (view.set.add jobId now) = []
  · rw [roomy]
    exact ⟨added.trans (List.filter_eq_self.mpr fun _ _ => rfl).symm, (Nat.zero_add _).symm⟩
  · have full : (crowded textOrder (view.set.add jobId now)).isEmpty = false := by
      simpa [List.isEmpty_iff] using roomy
    have carried : ((view.zadd now jobId now).evictedExpiresAt.all fun expiresAt => now < expiresAt) = true :=
      counted
    simp only [full, carried, Bool.false_eq_true, if_false, if_true, expire_set, expire_evicted,
      zadd_evicted, and_self]

theorem trim_evictedExpiresAt : (view.trim textOrder now).evictedExpiresAt =
    if (view.overflow textOrder now).isEmpty then view.evictedExpiresAt else some (now + readModelTtl) := by
  unfold StatusView.trim
  exact apply_ite StatusView.evictedExpiresAt ..

theorem trim_counted (counted : (view.evictedExpiresAt.all fun expiresAt => now < expiresAt) = true) :
    ((view.trim textOrder now).evictedExpiresAt.all fun expiresAt => now < expiresAt) = true := by
  rw [trim_evictedExpiresAt]
  split
  · exact counted
  · exact lives_until readModelTtl_pos

theorem zrem_of_lives (lives : (view.expiresAt.all fun expiresAt => now < expiresAt) = true) :
    (view.zrem now jobId).set = view.set.remove [jobId] ∧
      (view.zrem now jobId).evicted = view.evicted := by
  rw [StatusView.zrem, live_of_lives lives]
  exact ⟨rfl, rfl⟩

/-- Where the ids of a view are: in its set, or trimmed from it. -/
structure ViewKept (view : StatusView) (trimmed : List String) (moved : String → Prop) : Prop where
  distinct : (view.set.members ++ trimmed).Nodup
  members : ∀ id, id ∈ view.set.members ++ trimmed ↔ moved id
  evicted : view.evicted = trimmed.length
  bounded : view.set.length ≤ readModelWindow

theorem ViewKept.project {trimmed : List String} {moved after : String → Prop}
    (kept : ViewKept view trimmed moved)
    (lives : (view.expiresAt.all fun expiresAt => now < expiresAt) = true)
    (counted : (view.evictedExpiresAt.all fun expiresAt => now < expiresAt) = true)
    (fresh : jobId ∉ trimmed) (moves : ∀ id, after id ↔ id = jobId ∨ moved id) :
    ViewKept (view.project textOrder now jobId now)
      (crowded textOrder (view.set.add jobId now) ++ trimmed) after := by
  obtain ⟨set, evicted⟩ := @project_of_lives textOrder view now jobId lives counted
  obtain ⟨once, trimmedOnce, apart⟩ := List.nodup_append.mp kept.distinct
  have added : (view.set.add jobId now).members.Nodup := SortedSet.nodup_add once
  have among : crowded textOrder (view.set.add jobId now) ⊆ (view.set.add jobId now).members :=
    SortedSet.lowest_subset
  have parts : (((view.set.add jobId now).remove (crowded textOrder (view.set.add jobId now))).members ++
      crowded textOrder (view.set.add jobId now)).Perm (view.set.add jobId now).members :=
    SortedSet.perm_remove added (SortedSet.nodup_lowest added) among
  have whole : ((view.project textOrder now jobId now).set.members ++
      (crowded textOrder (view.set.add jobId now) ++ trimmed)).Perm
        ((view.set.add jobId now).members ++ trimmed) := by
    rw [set, ← List.append_assoc]
    exact parts.append_right trimmed
  have member : ∀ id, id ∈ (view.set.add jobId now).members ↔ id = jobId ∨ id ∈ view.set.members :=
    fun id => SortedSet.mem_members_add
  refine ⟨whole.nodup_iff.mpr ?_, fun id => ?_, ?_, ?_⟩
  · refine List.nodup_append.mpr ⟨added, trimmedOnce, fun left inside right beyond same => ?_⟩
    subst same
    cases (member left).mp inside with
    | inl new => exact fresh (new ▸ beyond)
    | inr old => exact apart left old left beyond rfl
  · rw [whole.mem_iff, List.mem_append, member, moves, ← kept.members, List.mem_append, or_assoc]
  · rw [evicted, kept.evicted, List.length_append]
  · have total := parts.length_eq
    have taken : (crowded textOrder (view.set.add jobId now)).length =
        min ((view.set.add jobId now).length - readModelWindow) (view.set.add jobId now).length :=
      SortedSet.length_lowest
    rw [List.length_append, taken] at total
    simp only [SortedSet.members, List.length_map] at total
    rw [set]
    omega

theorem ViewKept.zrem {trimmed : List String} {moved after : String → Prop}
    (kept : ViewKept view trimmed moved)
    (lives : (view.expiresAt.all fun expiresAt => now < expiresAt) = true)
    (fresh : jobId ∉ trimmed) (moves : ∀ id, after id ↔ id ≠ jobId ∧ moved id) :
    ViewKept (view.zrem now jobId) trimmed after := by
  obtain ⟨set, evicted⟩ := @zrem_of_lives view now jobId lives
  obtain ⟨once, trimmedOnce, apart⟩ := List.nodup_append.mp kept.distinct
  refine ⟨?_, fun id => ?_, evicted.trans kept.evicted, ?_⟩
  · rw [set]
    refine List.nodup_append.mpr ⟨SortedSet.nodup_remove once, trimmedOnce, fun left inside right beyond => ?_⟩
    exact apart left (SortedSet.mem_members_remove.mp inside).1 right beyond
  · rw [set, moves, ← kept.members, List.mem_append, List.mem_append, SortedSet.mem_members_remove,
      List.mem_singleton]
    constructor
    · intro found
      obtain inside | beyond := found
      · exact ⟨inside.2, .inl inside.1⟩
      · exact ⟨fun same => fresh (same ▸ beyond), .inr beyond⟩
    · intro found
      obtain ⟨different, inside | beyond⟩ := found
      · exact .inl ⟨inside, different⟩
      · exact .inr beyond
  · rw [set]
    exact (List.length_filter_le _ _).trans kept.bounded

end View

section Steps

variable {textOrder : String → String → Bool} {model : ReadModel} {handled : Handled} {now : Time}
  {key : StatusKey} {scope : ViewScope} {steps : List (ReadModel × Handled)} {move : ViewMove} {id : String}

theorem handleMessage_applied :
    model.handleMessage textOrder handled.now handled.value =
      match appliedMove model handled with
      | some move => model.move textOrder handled.now move.tenantId move.userId move.jobId move.newStatus
      | none => model := by
  rw [handleMessage_eq, appliedMove]
  cases moveOf handled.value with
  | none => rfl
  | some move =>
      have guard : (move.newStatus ∉ terminalStatuses ∧ terminalStatuses.any (fun status =>
          model.has handled.now ⟨.tenant move.tenantId, status⟩ move.jobId) = true) ↔
            held model handled.now move = true := by
        simp [held]
      by_cases stays : held model handled.now move = true
      · simp only [guard, stays, if_true, Option.filter, Bool.not_true, Bool.false_eq_true, if_false]
      · simp only [guard, stays, Bool.false_eq_true, if_false, Option.filter, Bool.not_false, if_true]

theorem touches_iff : move.touches key.scope = true ↔ inScope move.tenantId move.userId key := by
  simp [ViewMove.touches, inScope]

theorem movesIn_cons (moves : appliedMove model handled = some move) :
    movesIn scope ((model, handled) :: steps) =
      if move.touches scope then (move.jobId, move.newStatus) :: movesIn scope steps else movesIn scope steps := by
  by_cases touches : move.touches scope = true <;> simp [movesIn, moves, Option.filter, touches]

theorem movesIn_cons_none (moves : appliedMove model handled = none) :
    movesIn scope ((model, handled) :: steps) = movesIn scope steps := by
  simp [movesIn, moves]

theorem mem_movedTo : id ∈ movedTo key steps ↔ lastMove key.scope steps id = some key.status := by
  rw [movedTo, List.mem_filter, List.mem_dedup, decide_eq_true_eq]
  constructor
  · exact fun both => both.2
  · intro last
    refine ⟨?_, last⟩
    by_contra absent
    have none : (movesIn key.scope steps).lookup id = none := by
      rw [List.lookup_eq_none_iff]
      intro entry member
      have different : id ≠ entry.1 := fun same => absent (same ▸ List.mem_map_of_mem member)
      simpa using different
    rw [lastMove, none] at last
    contradiction

theorem view_kept {last : ReadModel} (ran : (projector textOrder).Run steps last)
    (unevicted : NamesNoEvicted textOrder steps)
    (unexpired : ∀ taken ∈ steps, Unexpired taken.1 taken.2.now) (key : StatusKey) :
    ViewKept (last key) (trimmedFrom textOrder key steps) fun id =>
      lastMove key.scope steps id = some key.status := by
  induction ran with
  | start => exact ⟨.nil, by simp [trimmedFrom, lastMove, movesIn, projector, SortedSet.members], rfl, Nat.zero_le _⟩
  | @step steps before after handled ran stepped ih =>
      obtain ⟨fresh, unevicted⟩ := unevicted
      have kept := ih unevicted fun taken member => unexpired taken (List.mem_cons_of_mem _ member)
      obtain ⟨lives, counted⟩ := unexpired _ List.mem_cons_self key
      cases stepped
      have trimmed : trimmedFrom textOrder key ((before, handled) :: steps) =
          trimmedBy textOrder key before handled ++ trimmedFrom textOrder key steps := rfl
      rw [handleMessage_applied, trimmed, trimmedBy]
      cases moves : appliedMove before handled with
      | none => simpa [lastMove, movesIn_cons_none moves] using kept
      | some move =>
          have named := fresh move (Option.filter_eq_some_iff.mp moves).1 key
          unfold lastMove at kept ⊢
          simp only [movesIn_cons moves, move_at, ← touches_iff]
          by_cases touches : move.touches key.scope = true
          · by_cases here : move.newStatus = key.status
            · simp only [touches, here, and_self, if_true, overflow_zadd lives]
              refine kept.project lives counted (named touches) fun id => ?_
              by_cases same : id = move.jobId
              · simp [same]
              · have other : (id == move.jobId) = false := by simpa using same
                simp [List.lookup_cons, other, same]
            · simp only [touches, here, Ne.symm here, and_false, if_true, if_false, List.nil_append]
              refine kept.zrem lives (named touches) fun id => ?_
              by_cases same : id = move.jobId
              · simp [same, here]
              · have other : (id == move.jobId) = false := by simpa using same
                simp [List.lookup_cons, other, same]
          · simpa [touches] using kept

/-- The counts of every view are true, however many ids its window has lost. -/
theorem view_counts_true {last : ReadModel} (ran : (projector textOrder).Run steps last)
    (unevicted : NamesNoEvicted textOrder steps)
    (unexpired : ∀ taken ∈ steps, Unexpired taken.1 taken.2.now) (lasting : Unexpired last now) :
    CountsTrue steps last now := by
  have kept := fun key => view_kept ran unevicted unexpired key
  have live : ∀ key, (last key).live now = (last key).set := fun key => live_of_lives (lasting key).1
  have moved : ∀ key id, last.has now key id = true → lastMove key.scope steps id = some key.status := by
    intro key id found
    rw [has_eq_true, live] at found
    exact ((kept key).members id).mp (List.mem_append_left _ found)
  refine ⟨?_, ?_, ?_⟩
  · intro scope id first second one other
    have firstMove := moved ⟨scope, first⟩ id one
    have secondMove := moved ⟨scope, second⟩ id other
    rw [firstMove] at secondMove
    exact Option.some.inj secondMove
  · intro key
    rw [live]
    exact (kept key).bounded
  · intro key
    have same : ((last key).set.members ++ trimmedFrom textOrder key steps).Perm (movedTo key steps) := by
      refine (List.perm_ext_iff_of_nodup (kept key).distinct ((List.nodup_dedup _).filter _)).mpr fun id => ?_
      exact ((kept key).members id).trans mem_movedTo.symm
    rw [StatusView.memberCount, live, (lasting key).2, if_pos rfl, (kept key).evicted, ← same.length_eq,
      List.length_append, SortedSet.members, List.length_map]

def Lasts (deadline : Time) (model : ReadModel) : Prop :=
  ∀ key, ((model key).expiresAt.all fun expiresAt => deadline ≤ expiresAt) = true ∧
    ((model key).evictedExpiresAt.all fun expiresAt => deadline ≤ expiresAt) = true

theorem Lasts.unexpired {deadline : Time} (lasts : Lasts deadline model) (soon : now < deadline) :
    Unexpired model now := by
  have later : ∀ expiry : Option Time, (expiry.all fun expiresAt => deadline ≤ expiresAt) = true →
      (expiry.all fun expiresAt => now < expiresAt) = true := by
    intro expiry kept
    cases expiry with
    | none => rfl
    | some expiresAt =>
        have bound : deadline ≤ expiresAt := by simpa using kept
        simpa using lt_of_lt_of_le soon bound
  exact fun key => ⟨later _ (lasts key).1, later _ (lasts key).2⟩

theorem kept_until {deadline span : Time} (renewed : deadline ≤ now + span) :
    ((some (now + span)).all fun expiresAt => deadline ≤ expiresAt) = true := by
  simpa using renewed

theorem Lasts.handle {deadline : Time} (lasts : Lasts deadline model) (soon : handled.now < deadline)
    (renewed : deadline ≤ handled.now + readModelTtl) :
    Lasts deadline (model.handleMessage textOrder handled.now handled.value) := by
  have unexpired := lasts.unexpired soon
  rw [handleMessage_applied]
  cases appliedMove model handled with
  | none => exact lasts
  | some move =>
      intro key
      obtain ⟨lives, counted⟩ := lasts key
      simp only [move_at]
      split
      · split
        · refine ⟨kept_until renewed, ?_⟩
          rw [StatusView.project, expire_evictedExpiresAt, trim_evictedExpiresAt]
          split
          · exact counted
          · exact kept_until renewed
        · refine ⟨?_, counted⟩
          simp only [StatusView.zrem]
          split
          · rfl
          · have alive := (unexpired key).1
            cases expiry : (model key).expiresAt with
            | none => rfl
            | some expiresAt =>
                rw [expiry] at lives alive
                have later : handled.now < expiresAt := by simpa using alive
                simpa [Option.filter, later] using lives
      · exact ⟨lives, counted⟩

theorem length_handle : ((model.handleMessage textOrder handled.now handled.value) key).set.length ≤
    (model key).set.length + 1 := by
  have lived : ((model key).live handled.now).length ≤ (model key).set.length := by
    unfold StatusView.live
    split
    · exact Nat.le_refl _
    · exact Nat.zero_le _
  rw [handleMessage_applied]
  cases appliedMove model handled with
  | none => exact Nat.le_succ _
  | some move =>
      simp only [move_at]
      split
      · split
        · have added : ((model key).zadd handled.now move.jobId handled.now).set.length ≤
              (model key).set.length + 1 :=
            Nat.succ_le_succ ((List.length_filter_le _ _).trans lived)
          have trimmed : (((model key).zadd handled.now move.jobId handled.now).trim textOrder
              handled.now).set.length ≤ ((model key).zadd handled.now move.jobId handled.now).set.length := by
            rw [trim_set]
            split
            · exact Nat.le_refl _
            · rw [live_of_lives zadd_lives]
              exact List.length_filter_le _ _
          rw [StatusView.project, expire_set]
          exact trimmed.trans added
        · exact (List.length_filter_le _ _).trans (lived.trans (Nat.le_succ _))
      · exact Nat.le_succ _

theorem trimmedBy_roomy
    (lives : ((model key).expiresAt.all fun expiresAt => handled.now < expiresAt) = true)
    (room : (model key).set.length < readModelWindow) : trimmedBy textOrder key model handled = [] := by
  unfold trimmedBy
  split
  · rename_i move _
    have added : ((model key).set.add move.jobId handled.now).length ≤ readModelWindow :=
      (Nat.succ_le_succ (List.length_filter_le _ _)).trans room
    have none : crowded textOrder ((model key).set.add move.jobId handled.now) = [] := by
      rw [← List.length_eq_zero_iff, crowded, SortedSet.length_lowest, Nat.sub_eq_zero_of_le added,
        Nat.zero_min]
    rw [overflow_zadd lives, none, ite_self]
  · rfl

theorem roomy_of_run {last : ReadModel} {deadline : Time} (ran : (projector textOrder).Run steps last)
    (within : ∀ taken ∈ steps, taken.2.now < deadline ∧ deadline ≤ taken.2.now + readModelTtl)
    (room : steps.length ≤ readModelWindow) :
    (Lasts deadline last ∧ ∀ key, (last key).set.length ≤ steps.length ∧ trimmedFrom textOrder key steps = []) ∧
      NamesNoEvicted textOrder steps ∧ ∀ taken ∈ steps, Unexpired taken.1 taken.2.now := by
  induction ran with
  | start => exact ⟨⟨fun _ => ⟨rfl, rfl⟩, fun _ => ⟨Nat.zero_le _, rfl⟩⟩, trivial, by simp⟩
  | @step steps before after handled ran stepped ih =>
      obtain ⟨⟨lasts, small⟩, named, unexpired⟩ := ih (fun taken member =>
        within taken (List.mem_cons_of_mem _ member)) ((Nat.le_succ _).trans room)
      obtain ⟨soon, renewed⟩ := within _ List.mem_cons_self
      have lived := lasts.unexpired soon
      cases stepped
      refine ⟨⟨lasts.handle soon renewed, fun key => ⟨length_handle.trans (Nat.succ_le_succ (small key).1), ?_⟩⟩,
        ⟨fun _ _ key _ => by simp [(small key).2], named⟩, ?_⟩
      · have whole : trimmedFrom textOrder key ((before, handled) :: steps) =
            trimmedBy textOrder key before handled ++ trimmedFrom textOrder key steps := rfl
        have free : (before key).set.length < readModelWindow := lt_of_le_of_lt (small key).1 room
        rw [whole, trimmedBy_roomy (lived key).1 free, (small key).2, List.append_nil]
      · intro taken member
        rcases List.mem_cons.mp member with rfl | older
        · exact lived
        · exact unexpired taken older

end Steps

def eventOf (now : Time) (tenantId userId jobId event : String) (deadLettered : Bool) : Handled :=
  ⟨now, { event := some event, tenantId := some tenantId, jobId := some jobId, userId := some userId, deadLettered }⟩

/-- Four jobs of three users, and the late progress of one that is completed. -/
def teamEvents : List Handled := [
  eventOf 1 "acme" "ada" "import" "job.progress" false, eventOf 2 "acme" "grace" "export" "job.progress" false,
  eventOf 3 "acme" "ada" "import" "job.completed" false, eventOf 3 "acme" "ada" "report" "job.progress" false,
  eventOf 4 "acme" "grace" "export" "job.failed" true, eventOf 5 "acme" "ada" "report" "job.failed" false,
  eventOf 6 "globex" "linus" "audit" "job.progress" false, eventOf 7 "acme" "ada" "import" "job.progress" false]

def tenantView (tenantId : String) (status : TrackedStatus) : StatusKey := ⟨.tenant tenantId, status⟩

def userView (userId : String) (status : TrackedStatus) : StatusKey := ⟨.user userId, status⟩

def teamViews : List StatusKey := [tenantView "acme" .completed, tenantView "acme" .deadLetter,
  tenantView "acme" .failed, tenantView "acme" .running, tenantView "globex" .running,
  userView "ada" .completed, userView "ada" .failed, userView "grace" .deadLetter, userView "grace" .running]

theorem view_counts_true_of_import : ∃ steps last, (projector fun _ _ => true).Run steps last ∧
    (teamViews.map fun key => (last key).memberCount 7) = [1, 1, 1, 0, 1, 1, 1, 1, 0] ∧
    CountsTrue steps last 7 := by
  obtain ⟨steps, last, ran, checked⟩ := @Machine.exists_run _ _ (projector fun _ _ => true) teamEvents
    (fun steps last => decide (
      (∀ taken ∈ steps, taken.2.now < readModelTtl ∧ readModelTtl ≤ taken.2.now + readModelTtl) ∧
      steps.length ≤ readModelWindow ∧
      (teamViews.map fun key => (last key).memberCount 7) = [1, 1, 1, 0, 1, 1, 1, 1, 0])) (by decide +kernel)
  obtain ⟨within, room, counts⟩ := of_decide_eq_true checked
  obtain ⟨⟨lasts, _⟩, named, unexpired⟩ := roomy_of_run ran within room
  exact ⟨steps, last, ran, counts, view_counts_true ran named unexpired (lasts.unexpired (by decide))⟩

end IncidentPlatform.Properties

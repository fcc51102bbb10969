import IncidentPlatform.Mcp.ToolsCall

namespace IncidentPlatform.Mcp

open Concurrency Models Storage

/-! # Reasoning about a request

Between two statements a request is at a stage: what it has staged, what it has
armed, and whether the tool has run.  An act goes from one stage to another, and
its savepoints are back where they were when it ends.
-/

structure RequestStage (Row : Type) where
  rows : List (Stored Row) := []
  armed : List (Uuid × Time) := []
  executed : Bool := false

variable {Row α β : Type} {state : RequestState Row} {marks : List (List (Stored Row))}
  {stage : RequestStage Row}

/-- The request is at the stage, with these savepoints open. -/
structure Open (marks : List (List (Stored Row))) (stage : RequestStage Row) (state : RequestState Row) : Prop where
  session : state.session.Stages marks stage.rows
  armed : state.unreached = false → state.armed = stage.armed
  executed : state.executed = stage.executed
  unlanded : state.landed = false

/-- The act has ended with its savepoints closed, at a stage that the value, or
what was raised, allows. -/
def Ends (marks : List (List (Stored Row))) (good : α → RequestStage Row → Prop)
    (bad : Raised → RequestStage Row → Prop) (after : RequestState Row) : Except Raised α → Prop
  | .ok value => ∃ stage, good value stage ∧ Open marks stage after
  | .error raised => ∃ stage, bad raised stage ∧ Open marks stage after

/-- What an act does from every state at a stage. -/
def Moves (act : RequestAct Row α) (marks : List (List (Stored Row))) (stage : RequestStage Row)
    (good : α → RequestStage Row → Prop) (bad : Raised → RequestStage Row → Prop) : Prop :=
  ∀ state, Open marks stage state → act.Ensures RequestState.react state (Ends marks good bad)

section Rules

variable {act : RequestAct Row α} {rest : α → RequestAct Row β} {middle : α → RequestStage Row → Prop}
  {good : β → RequestStage Row → Prop} {bad : Raised → RequestStage Row → Prop}

theorem Moves.pure {value : β} (held : good value stage) :
    Moves (Pure.pure value : RequestAct Row β) marks stage good bad :=
  fun _ opened => ⟨stage, held, opened⟩

theorem Moves.throw {raised : Raised} (held : bad raised stage) :
    Moves (MonadExcept.throw raised : RequestAct Row β) marks stage good bad :=
  fun _ opened => ⟨stage, held, opened⟩

theorem Moves.bind (first : Moves act marks stage middle bad)
    (next : ∀ value after, middle value after → Moves (rest value) marks after good bad) :
    Moves (act >>= rest) marks stage good bad := by
  intro state opened
  refine (first state opened).bind ?_ fun _ _ raised => raised
  rintro after value ⟨reached, held, opened⟩
  exact next value reached held after opened

theorem Moves.mono {wider : α → RequestStage Row → Prop} {worse : Raised → RequestStage Row → Prop}
    {narrow : Raised → RequestStage Row → Prop} (moves : Moves act marks stage middle narrow)
    (widen : ∀ value stage, middle value stage → wider value stage)
    (worsen : ∀ raised stage, narrow raised stage → worse raised stage) :
    Moves act marks stage wider worse := by
  intro state opened
  apply (moves state opened).mono
  rintro after (raised | value) ⟨reached, held, opened⟩
  · exact ⟨reached, worsen raised reached held, opened⟩
  · exact ⟨reached, widen value reached held, opened⟩

theorem Moves.attempt {good : Except Raised α → RequestStage Row → Prop}
    (moves : Moves act marks stage (fun value => good (.ok value)) fun raised => good (.error raised)) :
    Moves act.attempt marks stage good bad := by
  intro state opened
  apply Act.Ensures.attempt
  apply (moves state opened).mono
  rintro after (raised | value) held <;> exact held

theorem Moves.rescue {handler : Raised → RequestAct Row α} {good : α → RequestStage Row → Prop}
    {narrow : Raised → RequestStage Row → Prop} (tried : Moves act marks stage good narrow)
    (handled : ∀ raised after, narrow raised after → Moves (handler raised) marks after good bad) :
    Moves (act.rescue handler) marks stage good bad := by
  intro state opened
  refine (tried state opened).rescue (fun _ _ held => held) ?_
  rintro after raised ⟨reached, held, opened⟩
  exact handled raised reached held after opened

theorem Moves.ensuring {finalizer : RequestAct Row Unit} {good : α → RequestStage Row → Prop}
    {first : α → RequestStage Row → Prop} {narrow : Raised → RequestStage Row → Prop}
    (tried : Moves act marks stage first narrow)
    (returned : ∀ value after, first value after → Moves finalizer marks after (fun _ => good value) bad)
    (raised : ∀ raised after, narrow raised after → Moves finalizer marks after (fun _ => bad raised) bad) :
    Moves (act.ensuring finalizer) marks stage good bad := by
  intro state opened
  refine (tried state opened).ensuring ?_
  rintro after (error | value) ⟨reached, held, opened⟩
  · apply (raised error reached held after opened).mono
    rintro last (_ | _) ended <;> exact ended
  · apply (returned value reached held after opened).mono
    rintro last (_ | _) ended <;> exact ended

/-- `except Exception` keeps what is no `Exception`. -/
theorem Moves.exceptException {otherwise : RequestAct Row α} {good : α → RequestStage Row → Prop}
    {narrow : Raised → RequestStage Row → Prop} (tried : Moves act marks stage good narrow)
    (handled : ∀ raised after, raised.isException = true → narrow raised after →
      Moves otherwise marks after good bad)
    (passed : ∀ raised after, raised.isException = false → narrow raised after → bad raised after) :
    Moves (exceptException act otherwise) marks stage good bad := by
  refine tried.rescue fun raised after held => ?_
  cases exception : raised.isException with
  | true => exact handled raised after exception held
  | false => exact .throw (passed raised after exception held)

end Rules

section Operations

variable {good : Unit → RequestStage Row → Prop} {bad : Raised → RequestStage Row → Prop}

theorem moves_write {row : Stored Row} (done : good () { stage with rows := stage.rows ++ [row] })
    (raised : ∀ raised, bad raised stage) : Moves (write row) marks stage good bad := by
  intro state opened
  apply Act.ensures_perform.mpr
  rintro (error | _)
  · exact ⟨stage, raised error, opened⟩
  · exact ⟨_, done, { opened with session := opened.session.write row }⟩

theorem moves_await (done : good () stage) (raised : ∀ raised, bad raised stage) :
    Moves (await : RequestAct Row Unit) marks stage good bad := by
  intro state opened
  apply Act.ensures_perform.mpr
  rintro (error | _)
  · exact ⟨stage, raised error, opened⟩
  · exact ⟨stage, done, opened⟩

theorem moves_setExecuted (done : good () { stage with executed := true }) :
    Moves (setExecuted : RequestAct Row Unit) marks stage good bad := by
  intro state opened
  apply Act.ensures_perform.mpr
  intro reply
  exact ⟨_, done, { opened with executed := rfl }⟩

theorem moves_time {good : Time → RequestStage Row → Prop} (done : ∀ now, good now stage) :
    Moves (time : RequestAct Row Time) marks stage good bad := by
  intro state opened
  apply Act.ensures_perform.mpr
  exact fun now => ⟨stage, done now, opened⟩

theorem moves_acquire {key : String} {good : Acquired → RequestStage Row → Prop}
    (answered : ∀ answer, good answer stage)
    (claimed : ∀ record, good (.claim record) { stage with rows := stage.rows ++ [.idempotency record] })
    (raised : ∀ raised, bad raised stage) : Moves (acquire key : RequestAct Row Acquired) marks stage good bad := by
  intro state opened
  apply Act.ensures_perform.mpr
  rintro (error | record | response | _)
  · exact ⟨stage, raised error, opened⟩
  · exact ⟨_, claimed record, { opened with session := opened.session.write (.idempotency record) }⟩
  · exact ⟨stage, answered _, opened⟩
  · exact ⟨stage, answered _, opened⟩

theorem moves_jobForTenant {job tenant : Uuid} {good : Option JobStatus → RequestStage Row → Prop}
    (answered : ∀ answer, good answer stage) (raised : ∀ raised, bad raised stage) :
    Moves (jobForTenant job tenant : RequestAct Row _) marks stage good bad := by
  intro state opened
  apply Act.ensures_perform.mpr
  rintro (error | answer)
  · exact ⟨stage, raised error, opened⟩
  · exact ⟨stage, answered answer, opened⟩

theorem moves_deadLetters {tenant : Uuid} {jobType : Option String} {remediationHint : String} {limit : Nat}
    {good : List Uuid → RequestStage Row → Prop}
    (answered : ∀ answer, good answer stage) (raised : ∀ raised, bad raised stage) :
    Moves (deadLetters tenant jobType remediationHint limit : RequestAct Row _) marks stage good bad := by
  intro state opened
  apply Act.ensures_perform.mpr
  rintro (error | answer)
  · exact ⟨stage, raised error, opened⟩
  · exact ⟨stage, answered answer, opened⟩

theorem moves_resolveLabProbe {value : String} {good : LabProbeRefusal ⊕ LabProbeLabel → RequestStage Row → Prop}
    (answered : ∀ answer, good answer stage) (raised : ∀ raised, bad raised stage) :
    Moves (resolveLabProbe value : RequestAct Row _) marks stage good bad := by
  intro state opened
  apply Act.ensures_perform.mpr
  rintro (error | answer)
  · exact ⟨stage, raised error, opened⟩
  · exact ⟨stage, answered answer, opened⟩

/-- A command that has not reached Redis leaves nothing to say about what is armed. -/
theorem moves_armReplay {job : Uuid} {executeAt : Time} {after : RequestStage Row}
    (arms : after = { stage with
      armed := (job, executeAt) :: stage.armed.filter fun member => member.1 ≠ job })
    (done : good () after) (raised : ∀ raised, bad raised after) :
    Moves (armReplay job executeAt : RequestAct Row Unit) marks stage good bad := by
  subst arms
  intro state opened
  apply Act.ensures_perform.mpr
  have reached : Open marks { stage with
      armed := (job, executeAt) :: stage.armed.filter fun member => member.1 ≠ job }
      { state with armed := (job, executeAt) :: state.armed.filter fun member => member.1 ≠ job } :=
    { opened with armed := fun reached => by rw [opened.armed reached] }
  rintro ⟨_ | _, error | _⟩
  · exact ⟨_, raised error, { opened with armed := nofun }⟩
  · exact ⟨_, done, { opened with armed := nofun }⟩
  · exact ⟨_, raised error, reached⟩
  · exact ⟨_, done, reached⟩

theorem moves_cancelScheduledReplay {job : Uuid} {after : RequestStage Row}
    (cancels : after = { stage with armed := stage.armed.filter fun member => member.1 ≠ job })
    (done : good () after) (raised : ∀ raised, bad raised after) :
    Moves (cancelScheduledReplay job : RequestAct Row Unit) marks stage good bad := by
  subst cancels
  intro state opened
  apply Act.ensures_perform.mpr
  have reached : Open marks { stage with armed := stage.armed.filter fun member => member.1 ≠ job }
      { state with armed := state.armed.filter fun member => member.1 ≠ job } :=
    { opened with armed := fun reached => by rw [opened.armed reached] }
  rintro ⟨_ | _, error | _⟩
  · exact ⟨_, raised error, { opened with armed := nofun }⟩
  · exact ⟨_, done, { opened with armed := nofun }⟩
  · exact ⟨_, raised error, reached⟩
  · exact ⟨_, done, reached⟩

end Operations

section Savepoints

variable {mark : List (Stored Row)}

theorem ensures_savepoint (opened : Open marks stage state) :
    (savepoint : RequestAct Row Unit).Ensures RequestState.react state fun after result =>
      match result with
      | .ok _ => Open (stage.rows :: marks) stage after
      | .error _ => Open marks stage after := by
  apply Act.ensures_perform.mpr
  rintro (error | _)
  · exact opened
  · exact { opened with session := opened.session.savepoint }

theorem ensures_release (opened : Open (mark :: marks) stage state) :
    (release : RequestAct Row Unit).Ensures RequestState.react state fun after result =>
      match result with
      | .ok _ => Open marks stage after
      | .error _ => Open (mark :: marks) stage after := by
  apply Act.ensures_perform.mpr
  rintro (error | _)
  · exact opened
  · exact { opened with session := opened.session.release }

theorem ensures_rollbackTo (opened : Open (mark :: marks) stage state) :
    (rollbackTo : RequestAct Row Unit).Ensures RequestState.react state fun after _ =>
      Open marks { stage with rows := mark } after := by
  apply Act.ensures_perform.mpr
  rintro (error | _)
  · exact { opened with session := opened.session.lose marks mark }
  · exact { opened with session := opened.session.rollbackTo }

/-- The rows of a body that raises are gone, and the session is where it was. -/
theorem Moves.nested {body : RequestAct Row α} {good : α → RequestStage Row → Prop}
    {bad : Raised → RequestStage Row → Prop}
    (inner : Moves body (stage.rows :: marks) stage good fun _ after =>
      ∀ raised, bad raised { after with rows := stage.rows })
    (unreleased : ∀ value after, good value after → ∀ raised, bad raised { after with rows := stage.rows })
    (unopened : ∀ raised, bad raised stage) : Moves (nested body) marks stage good bad := by
  intro state opened
  refine (ensures_savepoint opened).bind ?_ fun after error held => ⟨stage, unopened error, held⟩
  intro after _ opened
  -- The body and the RELEASE, with the savepoint still there where either raises.
  let released : RequestState Row → Except Raised α → Prop := fun after result =>
    match result with
    | .ok value => ∃ stage, good value stage ∧ Open marks stage after
    | .error _ => ∃ reached, (∀ raised, bad raised { reached with rows := stage.rows }) ∧
        Open (stage.rows :: marks) reached after
  have tried : (do
      let value ← body
      release
      Pure.pure value : RequestAct Row α).Ensures RequestState.react after released := by
    refine (inner after opened).bind ?_ fun _ _ raised => raised
    rintro after value ⟨reached, held, opened⟩
    refine (ensures_release opened).bind ?_ ?_
    · exact fun after _ closed => ⟨reached, held, closed⟩
    · exact fun after _ kept => ⟨reached, unreleased value reached held, kept⟩
  refine tried.rescue (fun _ _ held => held) ?_
  rintro after raised ⟨reached, held, opened⟩
  refine (ensures_rollbackTo opened).bind ?_ ?_
  · exact fun after _ back => ⟨_, held raised, back⟩
  · exact fun after error back => ⟨_, held error, back⟩

/-- The rule for an act that goes on after what was raised. -/
theorem Moves.nestedTracking {first second : RequestAct Row Unit} {middle : RequestStage Row → Prop}
    {post : Except (Bool × Raised) Unit → RequestStage Row → Prop}
    (unopened : ∀ raised, post (.error (false, raised)) stage)
    (begun : Moves first (stage.rows :: marks) stage (fun _ => middle) fun _ after =>
      ∀ raised, post (.error (false, raised)) { after with rows := stage.rows })
    (ended : ∀ after, middle after → Moves second (stage.rows :: marks) after
      (fun _ after => post (.ok ()) after ∧ ∀ raised, post (.error (true, raised)) { after with rows := stage.rows })
      fun _ after => ∀ raised, post (.error (true, raised)) { after with rows := stage.rows }) :
    Moves (Mcp.nestedTracking first second) marks stage post fun _ _ => False := by
  intro state opened
  have undone : ∀ (reached : Bool) (raised : Raised) (after : RequestState Row) (last : RequestStage Row),
      (∀ raised, post (.error (reached, raised)) { last with rows := stage.rows }) →
      Open (stage.rows :: marks) last after →
      (do
        match ← rollbackTo.attempt with
        | .ok _ => Pure.pure (.error (reached, raised))
        | .error worse => Pure.pure (.error (reached, worse)) :
          RequestAct Row (Except (Bool × Raised) Unit)).Ensures RequestState.react after
        (Ends marks post fun _ _ => False) := by
    intro reached raised after last held opened
    let tried : RequestState Row → Except Raised (Except Raised Unit) → Prop := fun after result =>
      (∃ inner, result = .ok inner) ∧ Open marks { last with rows := stage.rows } after
    have attempted : rollbackTo.attempt.Ensures RequestState.react after tried :=
      .attempt ((ensures_rollbackTo opened).mono fun _ result opened => ⟨⟨result, rfl⟩, opened⟩)
    refine attempted.bind ?_ fun _ _ ⟨⟨_, absurd⟩, _⟩ => by contradiction
    rintro final (worse | _) ⟨-, opened⟩
    · exact ⟨_, held worse, opened⟩
    · exact ⟨_, held raised, opened⟩
  let opens : RequestState Row → Except Raised (Except Raised Unit) → Prop := fun after result =>
    match result with
    | .ok (.ok _) => Open (stage.rows :: marks) stage after
    | .ok (.error _) => Open marks stage after
    | .error _ => False
  have entered : savepoint.attempt.Ensures RequestState.react state opens := by
    apply Act.Ensures.attempt
    apply (ensures_savepoint opened).mono
    rintro after (_ | _) opened <;> exact opened
  refine entered.bind ?_ fun _ _ absurd => absurd.elim
  rintro after (raised | _) opened
  · exact ⟨stage, unopened raised, opened⟩
  have started : Moves first.attempt (stage.rows :: marks) stage
      (fun result after =>
        match result with
        | .ok _ => middle after
        | .error _ => ∀ raised, post (.error (false, raised)) { after with rows := stage.rows })
      fun _ _ => False := .attempt begun
  refine (started after opened).bind ?_ fun _ _ ⟨_, absurd, _⟩ => absurd.elim
  rintro after (raised | _) ⟨reached, held, opened⟩
  · exact undone false raised after reached held opened
  -- `second` and the RELEASE, with the savepoint still there where either raises.
  let released : RequestState Row → Except Raised (Except Raised Unit) → Prop := fun after result =>
    match result with
    | .ok (.ok _) => ∃ stage, post (.ok ()) stage ∧ Open marks stage after
    | .ok (.error _) => ∃ last, (∀ raised, post (.error (true, raised)) { last with rows := stage.rows }) ∧
        Open (stage.rows :: marks) last after
    | .error _ => False
  have finished : (Act.attempt do second; release).Ensures RequestState.react after released := by
    apply Act.Ensures.attempt
    refine (ended reached held after opened).bind ?_ fun _ _ raised => raised
    rintro after _ ⟨last, ⟨held, unreleased⟩, opened⟩
    apply (ensures_release opened).mono
    rintro after (_ | _) opened
    · exact ⟨last, unreleased, opened⟩
    · exact ⟨last, held, opened⟩
  refine finished.bind ?_ fun _ _ absurd => absurd.elim
  rintro after (raised | _) held
  · obtain ⟨last, held, opened⟩ := held
    exact undone true raised after last held opened
  · exact held

end Savepoints

/-- Rolled back, or committed at a good stage. -/
inductive Over (good : RequestStage Row → Prop) (after : RequestState Row) : Prop where
  | rolledBack (uncommitted : after.session.committed = []) (unlanded : after.landed = false)
  | committed (stage : RequestStage Row) (held : good stage) (rows : after.session.committed = stage.rows)
      (executed : after.executed = stage.executed)
      (armed : after.unreached = false → after.armed = stage.armed) (landed : after.landed = true)

theorem ensures_getDb {endpoint : RequestAct Row α} {good : RequestStage Row → Prop}
    (opened : Open [] stage state) (moves : Moves endpoint [] stage (fun _ => good) fun _ _ => True) :
    (getDb endpoint).Ensures RequestState.react state fun after _ => Over good after := by
  have attempted : Moves endpoint.attempt [] stage
      (fun result after => ∀ value, result = .ok value → good after) fun _ _ => False :=
    .attempt (moves.mono (fun _ _ held _ _ => held) fun _ _ _ _ => nofun)
  refine (attempted state opened).bind ?_ fun _ _ ⟨_, absurd, _⟩ => absurd.elim
  rintro after (raised | value) ⟨reached, held, opened⟩
  · have undone : (rollback : RequestAct Row Unit).Ensures RequestState.react after fun last _ => Over good last := by
      apply Act.ensures_perform.mpr
      exact fun _ => .rolledBack opened.session.uncommitted opened.unlanded
    exact undone.bind (fun _ _ ended => ended) fun _ _ ended => ended
  · have ended : (commit : RequestAct Row Unit).Ensures RequestState.react after fun last _ => Over good last := by
      apply Act.ensures_perform.mpr
      rintro ⟨_ | _, reply⟩
      · exact .rolledBack opened.session.uncommitted opened.unlanded
      · cases lost : after.session.lost with
        | true => exact .rolledBack (opened.session.commit_lost lost) (by simp [RequestState.react, lost])
        | false =>
          exact .committed reached (held value rfl) (opened.session.commit_held lost) opened.executed opened.armed
            (by simp [RequestState.react, lost])
    exact ended.bind (fun _ _ ended => ended) fun _ _ ended => ended

end IncidentPlatform.Mcp

import IncidentPlatform.Mcp.RequestStages

namespace IncidentPlatform.Mcp

open Concurrency Models

/-! # The phases of a tool call

`tools/call` has many exits, and each adds one audit row to the stage that the
handler, or its failure, has left.  What holds of the stages is followed through
them here, once for every such property.
-/

variable {Row α β : Type} {marks : List (List (Stored Row))} {stage : RequestStage Row}
  {fresh failed ran good : RequestStage Row → Prop}

def RequestStage.write (stage : RequestStage Row) (row : Stored Row) : RequestStage Row :=
  { stage with rows := stage.rows ++ [row] }

/-- What holds before the handler, after its failure, after its return, and once
the call has answered. -/
structure Phases (fresh failed ran good : RequestStage Row → Prop) : Prop where
  unfailed : ∀ stage, fresh stage → failed stage
  answered : ∀ stage, failed stage → good stage
  claims : ∀ stage record, fresh stage → fresh (stage.write (.idempotency record))
  keeps : ∀ stage record, good stage → good (stage.write (.idempotency record))
  audits : ∀ stage row, failed stage → good (stage.write (.invocation row))
  tells : ∀ stage row, ran stage → row.outcome = .success → good (stage.write (.invocation row))

/-- What passes the envelope of `handle_tools_call`. -/
def Fatal : Raised → Prop
  | .auditWriteFailed _ | .baseException => True
  | _ => False

/-- However the act ends, it does so at such a stage. -/
def Coherent (good : RequestStage Row → Prop) (act : RequestAct Row α) (marks : List (List (Stored Row)))
    (stage : RequestStage Row) : Prop :=
  Moves act marks stage (fun _ => good) fun _ => good

/-- The act ends at such a stage unless the request fails. -/
def Answers (good : RequestStage Row → Prop) (act : RequestAct Row α) (marks : List (List (Stored Row)))
    (stage : RequestStage Row) : Prop :=
  Moves act marks stage (fun _ => good) fun raised after => Fatal raised ∨ good after

/-- The handler returns at a stage where it has run, and what it leaves when its
savepoint is rolled back is a failure. -/
def Handles (fresh failed ran : RequestStage Row → Prop) (handler : RequestAct Row α) : Prop :=
  ∀ marks stage, fresh stage → Moves handler marks stage
    (fun _ after => ran { after with executed := true } ∧ failed { after with rows := stage.rows })
    fun _ after => failed { after with rows := stage.rows }

theorem fatal_of_not_exception {raised : Raised} (base : raised.isException = false) : Fatal raised := by
  cases raised <;> first
    | exact trivial
    | contradiction

theorem Coherent.answers {act : RequestAct Row α} (coherent : Coherent good act marks stage) :
    Answers good act marks stage :=
  coherent.mono (fun _ _ held => held) fun _ _ held => .inr held

theorem Coherent.pure {value : α} (held : good stage) :
    Coherent good (Pure.pure value : RequestAct Row α) marks stage := Moves.pure held

theorem Coherent.throw {raised : Raised} (held : good stage) :
    Coherent good (MonadExcept.throw raised : RequestAct Row α) marks stage := Moves.throw held

theorem Coherent.bind {first : RequestAct Row α} {rest : α → RequestAct Row β}
    (coherent : Coherent good first marks stage)
    (next : ∀ value after, good after → Coherent good (rest value) marks after) :
    Coherent good (first >>= rest) marks stage :=
  Moves.bind coherent next

theorem coherent_await (held : good stage) : Coherent good (await : RequestAct Row Unit) marks stage :=
  moves_await held fun _ => held

theorem moves_audit (record : InvocationArguments) :
    Moves (audit record) marks stage (fun _ after => after = stage.write (.invocation record.row))
      fun raised after => Fatal raised ∧ after = stage := by
  let recorded : RequestStage Row := stage.write (.invocation record.row)
  let told : Bool → RequestStage Row → Prop := fun wrote after => after = if wrote then recorded else stage
  have added : Moves (nested (write (.invocation record.row))) marks stage (fun _ after => after = recorded)
      fun _ after => after = stage := by
    apply Moves.nested
    · exact moves_write rfl fun _ _ => rfl
    · rintro _ _ rfl _
      rfl
    · exact fun _ => rfl
  have wrote : Moves (do nested (write (.invocation record.row)); pure true) marks stage told
      fun _ after => after = stage :=
    added.bind fun _ _ same => .pure same
  have tried : Moves (exceptException (do nested (write (.invocation record.row)); pure true) (pure false))
      marks stage told fun raised after => Fatal raised ∧ after = stage :=
    wrote.exceptException (fun _ _ _ same => .pure same)
      fun _ _ base same => ⟨fatal_of_not_exception base, same⟩
  refine tried.bind fun wrote after same => ?_
  cases wrote with
  | true => exact .pure same
  | false => exact .throw ⟨trivial, same⟩

section Phases

variable (phases : Phases fresh failed ran good)
include phases

/-- A guarded savepoint whose body adds the row of a claim. -/
theorem Phases.guarded {body : RequestAct Row Unit} {record : Uuid} (held : good stage)
    (inner : Moves body (stage.rows :: marks) stage (fun _ after => after = stage.write (.idempotency record))
      fun _ after => { after with rows := stage.rows } = stage) :
    Coherent good (exceptException (nested body) (pure ())) marks stage := by
  have added : Moves (nested body) marks stage (fun _ after => after = stage.write (.idempotency record))
      fun _ after => after = stage := by
    apply Moves.nested
    · exact inner.mono (fun _ _ same => same) fun _ _ same _ => same
    · rintro _ _ rfl _
      rfl
    · exact fun _ => rfl
  have tried : Coherent good (nested body) marks stage := by
    apply added.mono
    · rintro _ _ rfl
      exact phases.keeps stage record held
    · rintro _ _ rfl
      exact held
  refine Moves.exceptException tried ?_ ?_
  · exact fun _ _ _ held => .pure held
  · exact fun _ _ _ held => held

omit phases in
theorem moves_claimWritten (record : Uuid) (stage : RequestStage Row) :
    Moves (do write (.idempotency record); flush) marks stage
      (fun _ after => after = stage.write (.idempotency record))
      fun _ after => { after with rows := stage.rows } = stage := by
  have wrote : Moves (write (.idempotency record)) marks stage
      (fun _ after => after = stage.write (.idempotency record))
      fun _ after => { after with rows := stage.rows } = stage := moves_write rfl fun _ => rfl
  refine wrote.bind fun _ after same => ?_
  subst same
  exact moves_await rfl fun _ => rfl

theorem Phases.completeClaim (record : Uuid) (held : good stage) :
    Coherent good (completeClaim record) marks stage := by
  have waited : Moves (await : RequestAct Row Unit) (stage.rows :: marks) stage (fun _ after => after = stage)
      fun _ after => { after with rows := stage.rows } = stage := moves_await rfl fun _ => rfl
  have written : Moves (do await; write (.idempotency record); flush) (stage.rows :: marks) stage
      (fun _ after => after = stage.write (.idempotency record))
      fun _ after => { after with rows := stage.rows } = stage := by
    refine waited.bind fun _ after same => ?_
    subst same
    exact moves_claimWritten record after
  exact phases.guarded held written

theorem Phases.releaseClaim (record : Uuid) (held : good stage) :
    Coherent good (releaseClaim record) marks stage :=
  phases.guarded held (moves_claimWritten record stage)

omit phases in
theorem coherent_forClaim {claim : Option Uuid} {act : Uuid → RequestAct Row Unit} (held : good stage)
    (coherent : ∀ record, Coherent good (act record) marks stage) :
    Coherent good (forClaim claim act) marks stage := by
  cases claim with
  | none => exact .pure held
  | some record => exact coherent record

/-- The row of a call whose tool has not run, and the response. -/
theorem Phases.refused (held : failed stage) (record : InvocationArguments) (response : RequestAct Row α)
    (answers : ∀ after, good after → Coherent good response marks after) :
    Coherent good (do audit record; response) marks stage := by
  refine Coherent.bind ((moves_audit record).mono ?_ ?_) fun _ => answers
  · rintro _ _ rfl
    exact phases.audits stage record.row held
  · rintro _ _ ⟨-, rfl⟩
    exact phases.answered _ held

theorem Phases.responded (held : failed stage) (record : InvocationArguments) (response : JsonRpcResponse) :
    Coherent good (do audit record; pure response) marks stage :=
  phases.refused held record (pure response) fun _ held => .pure held

section Call

variable {caller : Caller} {params : ToolCallParams} {label : Option LabProbeLabel} {tool : ToolDefinition Row}
  {input : tool.Input}

theorem Phases.answerSuccess (held : ran stage) (claim : Option Uuid) (output : Json) :
    Answers good (answerSuccess caller params label tool claim output) marks stage := by
  have told : Answers good (audit (invocationOf caller params label tool .success)) marks stage := by
    apply (moves_audit _).mono
    · rintro _ _ rfl
      exact phases.tells stage _ held rfl
    · exact fun _ _ fatal => .inl fatal.1
  refine Moves.bind told fun _ after held => ?_
  apply Coherent.answers
  apply Coherent.bind (coherent_forClaim held fun record => phases.completeClaim record held)
  intro _ after held
  exact .bind (coherent_await held) fun _ _ held => .pure held

theorem Phases.answerFailure (held : failed stage) (raised : Raised) :
    Coherent good (answerFailure caller params label tool raised) marks stage := by
  cases raised with
  | baseException => exact .throw (phases.answered stage held)
  | authenticationError message => exact phases.responded held _ _
  | authorizationError message => exact phases.responded held _ _
  | appError errorCode message => exact phases.responded held _ _
  | auditWriteFailed toolName => exact phases.responded held _ _
  | exception text => exact phases.responded held _ _

/-- The savepoint around the handler: what it does, or a failure. -/
theorem Phases.attempted (held : fresh stage) (handles : Handles fresh failed ran (tool.handler input caller)) :
    Moves (Act.attempt do
        let output ← nested do
          let output ← tool.handler input caller
          flush
          pure output
        setExecuted
        pure output)
      marks stage
      (fun result after =>
        match result with
        | .ok _ => ran after
        | .error _ => failed after)
      fun _ _ => False := by
  let finished : Json → RequestStage Row → Prop := fun _ after =>
    ran { after with executed := true } ∧ failed { after with rows := stage.rows }
  have body : Moves (do let output ← tool.handler input caller; flush; pure output) (stage.rows :: marks) stage
      finished fun _ after => failed { after with rows := stage.rows } := by
    refine (handles _ stage held).bind fun output after held => ?_
    have flushed : Moves (flush : RequestAct Row Unit) (stage.rows :: marks) after (fun _ => finished output)
        fun _ after => failed { after with rows := stage.rows } := moves_await held fun _ => held.2
    exact flushed.bind fun _ _ held => .pure held
  have inSavepoint : Moves (nested do let output ← tool.handler input caller; flush; pure output) marks stage
      finished fun _ => failed := by
    apply Moves.nested
    · exact body.mono (fun _ _ held => held) fun _ _ held _ => held
    · exact fun _ _ held _ => held.2
    · exact fun _ => phases.unfailed stage held
  apply Moves.attempt
  refine inSavepoint.bind fun output after held => ?_
  have marked : Moves (setExecuted : RequestAct Row Unit) marks after (fun _ => ran) fun _ => failed :=
    moves_setExecuted held.1
  exact marked.bind fun _ _ held => .pure held

theorem Phases.execute (held : fresh stage) (handles : Handles fresh failed ran (tool.handler input caller))
    (claim : Option Uuid) : Answers good (execute caller params label tool input claim) marks stage := by
  apply Moves.bind ((phases.attempted held handles).mono (fun _ _ held => held) fun _ _ absurd => absurd.elim)
  rintro (raised | output) after held
  · apply Coherent.answers
    apply Moves.ensuring (phases.answerFailure held raised)
    · exact fun _ after held => coherent_forClaim held fun record => phases.releaseClaim record held
    · exact fun _ after held => coherent_forClaim held fun record => phases.releaseClaim record held
  · exact phases.answerSuccess held claim output

theorem Phases.claimAndExecute (held : fresh stage)
    (handles : Handles fresh failed ran (tool.handler input caller)) :
    Answers good (claimAndExecute caller params label tool input) marks stage := by
  unfold Mcp.claimAndExecute
  split
  · split
    · exact (phases.responded (phases.unfailed stage held) _ _).answers
    · next key _ =>
      have acquired : Moves (acquire key : RequestAct Row Acquired) marks stage (fun _ => fresh)
          fun raised after => Fatal raised ∨ good after :=
        moves_acquire (fun _ => held) (fun record => phases.claims stage record held)
          fun _ => .inr (phases.answered stage (phases.unfailed stage held))
      refine acquired.bind fun answer after held => ?_
      have unfailed := phases.unfailed after held
      cases answer with
      | claim record => exact phases.execute held handles (some record)
      | refused errorCode message => exact (phases.responded unfailed _ _).answers
      | replay response =>
        apply Coherent.answers
        apply phases.refused unfailed
        exact fun after held => .bind (coherent_await held) fun _ _ held => .pure held
  · exact phases.execute held handles none

end Call

section Request

variable {registry : String → Option (ToolDefinition Row)} {caller : Caller}

theorem Phases.dispatchTool (held : fresh stage) {call : ToolCallParams}
    (handles : ∀ tool input, registry call.name = some tool → tool.inputModel call.arguments = .ok input →
      Handles fresh failed ran (tool.handler input caller)) (label : Option LabProbeLabel) :
    Answers good (dispatchTool caller call label registry) marks stage := by
  have unfailed := phases.unfailed stage held
  unfold Mcp.dispatchTool
  split
  · exact (phases.responded unfailed _ _).answers
  · next tool known =>
    unfold callTool
    split
    · exact (phases.responded unfailed _ _).answers
    · split
      · exact (phases.responded unfailed _ _).answers
      · next input valid => exact phases.claimAndExecute held (handles tool input known valid)

theorem Phases.runToolCall (held : fresh stage) {params : Except Json ToolCallParams}
    (handles : ∀ call tool input, params = .ok call → registry call.name = some tool →
      tool.inputModel call.arguments = .ok input → Handles fresh failed ran (tool.handler input caller)) :
    Answers good (runToolCall registry caller params) marks stage := by
  have unfailed := phases.unfailed stage held
  cases params with
  | error errors => exact Coherent.answers (.pure (phases.answered stage unfailed))
  | ok call =>
    have dispatches : ∀ tool input, registry call.name = some tool → tool.inputModel call.arguments = .ok input →
        Handles fresh failed ran (tool.handler input caller) := fun tool input => handles call tool input rfl
    simp only [Mcp.runToolCall]
    split
    · exact phases.dispatchTool held dispatches none
    · next value _ =>
      have resolved : Moves (resolveLabProbe value : RequestAct Row _) marks stage (fun _ => fresh)
          fun raised after => Fatal raised ∨ good after :=
        moves_resolveLabProbe (fun _ => held) fun _ => .inr (phases.answered stage unfailed)
      refine resolved.bind fun answer after held => ?_
      cases answer with
      | inl refusal => exact (phases.responded (phases.unfailed after held) _ _).answers
      | inr label => exact phases.dispatchTool held dispatches (some label)

theorem Phases.handleToolsCall (held : fresh stage) {params : Except Json ToolCallParams}
    (handles : ∀ call tool input, params = .ok call → registry call.name = some tool →
      tool.inputModel call.arguments = .ok input → Handles fresh failed ran (tool.handler input caller)) :
    Moves (handleToolsCall registry caller params) marks stage (fun _ => good) fun _ _ => True := by
  apply Moves.rescue (phases.runToolCall held handles)
  intro raised after held
  cases raised with
  | auditWriteFailed toolName => exact .throw trivial
  | baseException => exact .throw trivial
  | authenticationError message => exact .pure (held.resolve_left id)
  | authorizationError message => exact .pure (held.resolve_left id)
  | appError errorCode message => exact .pure (held.resolve_left id)
  | exception text => exact .pure (held.resolve_left id)

/-- Every request is rolled back, or commits a stage at which its call has answered. -/
theorem Phases.ends (held : fresh {}) {params : Except Json ToolCallParams}
    (handles : ∀ call tool input, params = .ok call → registry call.name = some tool →
      tool.inputModel call.arguments = .ok input → Handles fresh failed ran (tool.handler input caller))
    {acts : List ((operation : RequestOp Row) × RequestReply operation)} {result : Except Raised JsonRpcResponse}
    (yields : (mcpEndpoint registry caller params).run.Yields acts result) : Over good (requestAfter acts) := by
  have opened : @Open Row [] {} {} :=
    ⟨⟨rfl, fun _ => rfl, fun _ => rfl⟩, fun _ => rfl, rfl, rfl⟩
  have waits : ∀ {stage : RequestStage Row} {now : RequestStage Row → Prop}, now stage →
      Moves (await : RequestAct Row Unit) [] stage (fun _ => now) fun _ _ => True :=
    fun held => moves_await held fun _ => trivial
  have endpoint : Moves (do
      await
      let response ← Mcp.handleToolsCall registry caller params
      await
      pure response)
      [] {} (fun _ => good) fun _ _ => True := by
    refine (waits held).bind fun _ after held => ?_
    refine (phases.handleToolsCall held handles).bind fun response after held => ?_
    exact (waits held).bind fun _ _ held => .pure held
  exact (ensures_getDb opened endpoint).yields yields

end Request

end Phases

end IncidentPlatform.Mcp

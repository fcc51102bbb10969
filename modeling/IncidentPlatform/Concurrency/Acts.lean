import IncidentPlatform.Concurrency.Program

namespace IncidentPlatform.Concurrency

/-! # Acts

An act is a program that returns a value or raises.  A state reacts to each
operation and its reply, and `Ensures` is what holds at the end whatever the
operations reply, failures among them.
-/

abbrev Act (Error Op : Type) (Reply : Op → Type) := ExceptT Error (Program Op Reply)

namespace Act

variable {Error Op State : Type} {Reply : Op → Type} {α β : Type}

/-- One operation, with what its reply returns or raises. -/
def perform (operation : Op) (result : Reply operation → Except Error α) : Act Error Op Reply α :=
  Program.call operation fun reply => .done (result reply)

/-- The act, with what it raises as a value. -/
def attempt (act : Act Error Op Reply α) : Act Error Op Reply (Except Error α) :=
  Program.bind act.run fun result => .done (.ok result)

/-- `try` with `except` clauses. -/
def rescue (act : Act Error Op Reply α) (handler : Error → Act Error Op Reply α) : Act Error Op Reply α :=
  Program.bind act.run fun result =>
    match result with
    | .ok value => .done (.ok value)
    | .error raised => (handler raised).run

/-- `try` with a `finally`: what the finalizer raises comes first. -/
def ensuring (act : Act Error Op Reply α) (finalizer : Act Error Op Reply Unit) : Act Error Op Reply α := do
  let result ← act.attempt
  finalizer
  match result with
  | .ok value => pure value
  | .error raised => throw raised

/-- The protocol that forbids nothing and keeps a state. -/
@[reducible] def watching (react : State → (operation : Op) → Reply operation → State) :
    Protocol State Op Reply where
  State := State
  start := id
  allowed := fun _ _ => True
  advance := react

variable {react : State → (operation : Op) → Reply operation → State} {state : State}

/-- Whatever its operations reply, the act ends as `post` says. -/
def Ensures (react : State → (operation : Op) → Reply operation → State) (act : Act Error Op Reply α)
    (state : State) (post : State → Except Error α → Prop) : Prop :=
  act.run.Follows (watching react) state post

section Rules

variable {act : Act Error Op Reply α} {rest : α → Act Error Op Reply β}
  {middle : State → Except Error α → Prop} {post : State → Except Error β → Prop}

theorem ensures_perform {operation : Op} {result : Reply operation → Except Error β} :
    (perform operation result).Ensures react state post ↔
      ∀ reply, post (react state operation reply) (result reply) := by
  simp [Ensures, perform, ExceptT.run]

theorem Ensures.mono (ensures : act.Ensures react state middle) {weaker : State → Except Error α → Prop}
    (weaken : ∀ after result, middle after result → weaker after result) : act.Ensures react state weaker :=
  Program.Follows.mono ensures weaken

/-- The rule of sequence. -/
theorem Ensures.bind (first : act.Ensures react state middle)
    (returned : ∀ after value, middle after (.ok value) → (rest value).Ensures react after post)
    (raised : ∀ after error, middle after (.error error) → post after (.error error)) :
    (act >>= rest).Ensures react state post := by
  refine Program.Follows.bind first fun after result held => ?_
  cases result with
  | ok value => exact returned after value held
  | error error => exact raised after error held

theorem Ensures.attempt {post : State → Except Error (Except Error α) → Prop}
    (ensures : act.Ensures react state fun after result => post after (.ok result)) :
    act.attempt.Ensures react state post :=
  Program.Follows.bind ensures fun _ _ held => held

/-- The rule of `except`. -/
theorem Ensures.rescue {handler : Error → Act Error Op Reply α} {post : State → Except Error α → Prop}
    (tried : act.Ensures react state middle)
    (returned : ∀ after value, middle after (.ok value) → post after (.ok value))
    (handled : ∀ after error, middle after (.error error) → (handler error).Ensures react after post) :
    (act.rescue handler).Ensures react state post := by
  refine Program.Follows.bind tried fun after result held => ?_
  cases result with
  | ok value => exact returned after value held
  | error error => exact handled after error held

/-- The rule of `finally`. -/
theorem Ensures.ensuring {finalizer : Act Error Op Reply Unit} {post : State → Except Error α → Prop}
    (tried : act.Ensures react state middle)
    (finally_ : ∀ after result, middle after result → finalizer.Ensures react after fun last ended =>
      match ended with
      | .ok _ => post last result
      | .error error => post last (.error error)) :
    (act.ensuring finalizer).Ensures react state post := by
  let reified : State → Except Error (Except Error α) → Prop := fun after attempted =>
    ∃ result, attempted = .ok result ∧ middle after result
  have attempted : act.attempt.Ensures react state reified :=
    .attempt (tried.mono fun after result held => ⟨result, rfl, held⟩)
  refine attempted.bind ?_ ?_
  · rintro after value ⟨result, same, held⟩
    cases same
    refine (finally_ after value held).bind ?_ fun _ _ raised => raised
    intro last _ ended
    cases value <;> exact ended
  · rintro after error ⟨_, absurd, _⟩
    contradiction

/-- What is ensured is so in every run. -/
theorem Ensures.yields {post : State → Except Error α → Prop} {result : Except Error α}
    {acts : List ((operation : Op) × Reply operation)} (ensures : act.Ensures react state post)
    (yields : act.run.Yields acts result) :
    post (acts.foldl (fun state act => react state act.1 act.2) state) result := by
  unfold Ensures at ensures
  generalize act.run = program at ensures yields
  induction yields generalizing state with
  | done value => exact ensures
  | call rest ih => exact ih (ensures.2 _)

end Rules

end Act

end IncidentPlatform.Concurrency

import Mathlib.Logic.Function.Basic

namespace IncidentPlatform.Concurrency

/-! # Programs over a shared store

A program is a finite tree of operations on a store it shares with other
programs.  Every operation is one atomic step, and between two of them any
other program may run.  The reply of an operation selects the rest of the
program, so a program says what it does for every reply the store could give.
-/

inductive Program (Op : Type) (Reply : Op → Type) (α : Type) : Type where
  | done (value : α)
  | call (operation : Op) (next : Reply operation → Program Op Reply α)

namespace Program

variable {Op : Type} {Reply : Op → Type} {α β γ : Type}

def bind : Program Op Reply α → (α → Program Op Reply β) → Program Op Reply β
  | .done value, rest => rest value
  | .call operation next, rest => .call operation fun reply => (next reply).bind rest

instance : Monad (Program Op Reply) where
  pure := .done
  bind := .bind

/-- The program that performs one operation and returns its reply. -/
def perform (operation : Op) : Program Op Reply (Reply operation) :=
  .call operation .done

/-- Run `body` once for each item, in order. -/
def forEach : List α → (α → Program Op Reply Unit) → Program Op Reply Unit
  | [], _ => .done ()
  | item :: rest, body => (body item).bind fun _ => forEach rest body

@[simp] theorem pure_eq_done (value : α) :
    (pure value : Program Op Reply α) = .done value := rfl

@[simp] theorem bind_eq_bind (program : Program Op Reply α) (rest : α → Program Op Reply β) :
    (program >>= rest) = program.bind rest := rfl

@[simp] theorem done_bind (value : α) (rest : α → Program Op Reply β) :
    (Program.done value : Program Op Reply α).bind rest = rest value := rfl

@[simp] theorem call_bind (operation : Op) (next : Reply operation → Program Op Reply α)
    (rest : α → Program Op Reply β) :
    (Program.call operation next).bind rest =
      .call operation fun reply => (next reply).bind rest := rfl

@[simp] theorem perform_bind (operation : Op) (rest : Reply operation → Program Op Reply β) :
    (perform operation).bind rest = .call operation rest := rfl

theorem bind_assoc (program : Program Op Reply α) (first : α → Program Op Reply β)
    (second : β → Program Op Reply γ) :
    (program.bind first).bind second = program.bind fun value => (first value).bind second := by
  induction program with
  | done value => rfl
  | call operation next ih =>
      simp only [call_bind]
      congr 1
      funext reply
      exact ih reply

theorem forEach_append (first second : List α) (body : α → Program Op Reply Unit) :
    forEach (first ++ second) body = (forEach first body).bind fun _ => forEach second body := by
  induction first with
  | nil => rfl
  | cons item rest ih => simp only [List.cons_append, forEach, ih, bind_assoc]

theorem forEach_map (items : List α) (rename : α → β) (body : β → Program Op Reply Unit) :
    forEach (items.map rename) body = forEach items fun item => body (rename item) := by
  induction items with
  | nil => rfl
  | cons item rest ih => simp only [List.map_cons, forEach, ih]

/-- What the program returns over a store that answers every operation alike,
however often it is asked. -/
def answered (answer : (operation : Op) → Reply operation) : Program Op Reply α → α
  | .done value => value
  | .call operation next => (next (answer operation)).answered answer

@[simp] theorem answered_done (answer : (operation : Op) → Reply operation) (value : α) :
    (Program.done value).answered answer = value := rfl

@[simp] theorem answered_call (answer : (operation : Op) → Reply operation) (operation : Op)
    (next : Reply operation → Program Op Reply α) :
    (Program.call operation next).answered answer = (next (answer operation)).answered answer := rfl

@[simp] theorem answered_bind (answer : (operation : Op) → Reply operation)
    (program : Program Op Reply α) (rest : α → Program Op Reply β) :
    (program.bind rest).answered answer = (rest (program.answered answer)).answered answer := by
  induction program with
  | done value => rfl
  | call operation next ih => exact ih (answer operation)

/-- Every operation the program can perform is allowed. -/
def Uses (allowed : Op → Prop) : Program Op Reply α → Prop
  | .done _ => True
  | .call operation next => allowed operation ∧ ∀ reply, (next reply).Uses allowed

@[simp] theorem uses_done (allowed : Op → Prop) (value : α) :
    (Program.done value : Program Op Reply α).Uses allowed ↔ True := Iff.rfl

@[simp] theorem uses_call (allowed : Op → Prop) (operation : Op)
    (next : Reply operation → Program Op Reply α) :
    (Program.call operation next).Uses allowed ↔
      allowed operation ∧ ∀ reply, (next reply).Uses allowed := Iff.rfl

theorem Uses.first {allowed : Op → Prop} {operation : Op} {rest : Reply operation → Program Op Reply α}
    (permitted : allowed operation) (next : ∀ reply, (rest reply).Uses allowed) :
    ((Program.call operation .done).bind rest).Uses allowed :=
  ⟨permitted, next⟩

theorem uses_any (program : Program Op Reply α) : program.Uses fun _ => True := by
  induction program with
  | done value => exact trivial
  | call operation next ih => exact ⟨trivial, ih⟩

theorem Uses.mono {allowed wider : Op → Prop} {program : Program Op Reply α}
    (uses : program.Uses allowed) (widen : ∀ operation, allowed operation → wider operation) :
    program.Uses wider := by
  induction program with
  | done value => exact trivial
  | call operation next ih => exact ⟨widen operation uses.1, fun reply => ih reply (uses.2 reply)⟩

theorem Uses.bind {allowed : Op → Prop} {program : Program Op Reply α}
    {rest : α → Program Op Reply β} (first : program.Uses allowed)
    (second : ∀ value, (rest value).Uses allowed) : (program.bind rest).Uses allowed := by
  induction program with
  | done value => exact second value
  | call operation next ih => exact ⟨first.1, fun reply => ih reply (first.2 reply)⟩

theorem Uses.forEach {allowed : Op → Prop} {items : List α} {body : α → Program Op Reply Unit}
    (each : ∀ item, (body item).Uses allowed) : (forEach items body).Uses allowed := by
  induction items with
  | nil => exact trivial
  | cons item rest ih => exact (each item).bind fun _ => ih

/-- The program, given the replies of `acts`, performs exactly these operations
and ends with `value`. -/
inductive Yields : Program Op Reply α → List ((operation : Op) × Reply operation) → α → Prop where
  | done (value : α) : Yields (.done value) [] value
  | call {operation : Op} {next : Reply operation → Program Op Reply α} {reply : Reply operation}
      {acts : List ((operation : Op) × Reply operation)} {value : α}
      (rest : Yields (next reply) acts value) : Yields (.call operation next) (⟨operation, reply⟩ :: acts) value

section Yields

variable {acts : List ((operation : Op) × Reply operation)} {operation : Op}

@[simp] theorem yields_done_iff {value result : α} :
    (Program.done value : Program Op Reply α).Yields acts result ↔ acts = [] ∧ result = value := by
  constructor
  · rintro ⟨⟩
    exact ⟨rfl, rfl⟩
  · rintro ⟨rfl, rfl⟩
    exact .done _

theorem yields_call_iff {next : Reply operation → Program Op Reply α} {result : α} :
    (Program.call operation next).Yields acts result ↔
      ∃ reply rest, acts = ⟨operation, reply⟩ :: rest ∧ (next reply).Yields rest result := by
  constructor
  · rintro (_ | rest)
    exact ⟨_, _, rfl, rest⟩
  · rintro ⟨reply, rest, rfl, yields⟩
    exact .call yields

theorem yields_bind_iff {program : Program Op Reply α} {rest : α → Program Op Reply β} {result : β} :
    (program.bind rest).Yields acts result ↔
      ∃ first second value, acts = first ++ second ∧ program.Yields first value ∧
        (rest value).Yields second result := by
  constructor
  · intro yields
    induction program generalizing acts with
    | done value => exact ⟨[], acts, value, rfl, .done value, yields⟩
    | call operation next ih =>
        obtain ⟨reply, others, rfl, remaining⟩ := yields_call_iff.mp yields
        obtain ⟨first, second, value, rfl, earlier, later⟩ := ih reply remaining
        exact ⟨_ :: first, second, value, rfl, .call earlier, later⟩
  · rintro ⟨first, second, value, rfl, earlier, later⟩
    induction earlier with
    | done value => exact later
    | call rest ih => exact .call (ih later)

theorem Uses.yields {allowed : Op → Prop} {program : Program Op Reply α} {result : α}
    (uses : program.Uses allowed) (yields : program.Yields acts result) : ∀ act ∈ acts, allowed act.1 := by
  induction yields with
  | done value => exact fun _ absurd => by cases absurd
  | call rest ih =>
      intro act member
      rcases List.mem_cons.mp member with rfl | later
      · exact uses.1
      · exact ih (uses.2 _) act later

end Yields

end Program

/-! ## Protocols

A protocol is a discipline on the operations of one program: a typestate that
the replies drive, and the operations allowed in each state.  `Follows` says
that a program keeps to it whatever replies it gets, which is what makes the
protocol hold in every interleaving with other programs.
-/

structure Protocol (Role Op : Type) (Reply : Op → Type) where
  State : Type
  start : Role → State
  allowed : State → Op → Prop
  advance : State → (operation : Op) → Reply operation → State

namespace Program

variable {Role Op : Type} {Reply : Op → Type} {α β : Type}
variable {protocol : Protocol Role Op Reply}

def Follows (protocol : Protocol Role Op Reply) :
    Program Op Reply α → protocol.State → (protocol.State → α → Prop) → Prop
  | .done value, state, post => post state value
  | .call operation next, state, post =>
      protocol.allowed state operation ∧
        ∀ reply, (next reply).Follows protocol (protocol.advance state operation reply) post

@[simp] theorem follows_done (value : α) (state : protocol.State)
    (post : protocol.State → α → Prop) :
    (Program.done value : Program Op Reply α).Follows protocol state post ↔ post state value :=
  Iff.rfl

@[simp] theorem follows_call (operation : Op) (next : Reply operation → Program Op Reply α)
    (state : protocol.State) (post : protocol.State → α → Prop) :
    (Program.call operation next).Follows protocol state post ↔
      protocol.allowed state operation ∧
        ∀ reply, (next reply).Follows protocol (protocol.advance state operation reply) post :=
  Iff.rfl

theorem follows_bind (program : Program Op Reply α) (rest : α → Program Op Reply β)
    (state : protocol.State) (post : protocol.State → β → Prop) :
    (program.bind rest).Follows protocol state post ↔
      program.Follows protocol state fun after value => (rest value).Follows protocol after post := by
  induction program generalizing state with
  | done value => rfl
  | call operation next ih =>
      simp only [call_bind, follows_call]
      exact and_congr_right fun _ => forall_congr' fun reply => ih reply _

theorem Follows.first {operation : Op} {rest : Reply operation → Program Op Reply α}
    {state : protocol.State} {post : protocol.State → α → Prop}
    (permitted : protocol.allowed state operation)
    (next : ∀ reply, (rest reply).Follows protocol (protocol.advance state operation reply) post) :
    ((Program.call operation .done).bind rest).Follows protocol state post :=
  ⟨permitted, next⟩

theorem Follows.mono {program : Program Op Reply α} {state : protocol.State}
    {post weaker : protocol.State → α → Prop}
    (follows : program.Follows protocol state post)
    (weaken : ∀ after value, post after value → weaker after value) :
    program.Follows protocol state weaker := by
  induction program generalizing state with
  | done value => exact weaken state value follows
  | call operation next ih => exact ⟨follows.1, fun reply => ih reply (follows.2 reply)⟩

/-- The rule of sequence: what the first program ends in is where the second starts. -/
theorem Follows.bind {program : Program Op Reply α} {rest : α → Program Op Reply β}
    {state : protocol.State} {middle : protocol.State → α → Prop}
    {post : protocol.State → β → Prop} (first : program.Follows protocol state middle)
    (second : ∀ after value, middle after value → (rest value).Follows protocol after post) :
    (program.bind rest).Follows protocol state post := by
  rw [follows_bind]
  exact first.mono second

/-- The loop rule: a loop follows the protocol when each round restores the
loop invariant. -/
theorem follows_forEach {motive : protocol.State → Prop} {items : List α}
    {body : α → Program Op Reply Unit} {state : protocol.State}
    (entry : motive state)
    (round : ∀ item ∈ items, ∀ state, motive state →
      (body item).Follows protocol state fun after _ => motive after) :
    (forEach items body).Follows protocol state fun after _ => motive after := by
  induction items generalizing state with
  | nil => exact entry
  | cons item rest ih =>
      refine (round item (by simp) state entry).bind fun after _ kept => ?_
      exact ih kept fun next member => round next (by simp [member])

/-- A program whose operations are all allowed in some states, and lead from
those only to those, follows the protocol there. -/
theorem Uses.follows {allowed : Op → Prop} {program : Program Op Reply α}
    {motive : protocol.State → Prop} {state : protocol.State} (uses : program.Uses allowed)
    (entry : motive state)
    (kept : ∀ state operation, motive state → allowed operation →
      protocol.allowed state operation ∧
        ∀ reply, motive (protocol.advance state operation reply)) :
    program.Follows protocol state fun after _ => motive after := by
  induction program generalizing state with
  | done value => exact entry
  | call operation next ih =>
      obtain ⟨permitted, next⟩ := kept state operation entry uses.1
      exact ⟨permitted, fun reply => ih reply (uses.2 reply) (next reply)⟩

end Program

end IncidentPlatform.Concurrency

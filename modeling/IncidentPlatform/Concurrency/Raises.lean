import IncidentPlatform.Concurrency.Program

namespace IncidentPlatform.Concurrency.Program

/-! # Programs that raise

An operation that raises leaves the rest of its program unperformed and hands
over to a handler.  Whether the operation took effect before it raised is a
matter of where the program is cut.
-/

variable {Op : Type} {Reply : Op → Type} {α β : Type}

/-- The program raises after `count` of its operations, or after its last. -/
def raising : Program Op Reply α → (count : Nat) → (handler : Program Op Reply β) → Program Op Reply β
  | .done _, _, handler => handler
  | .call _ _, 0, handler => handler
  | .call operation next, count + 1, handler =>
      .call operation fun reply => (next reply).raising count handler

variable {handler : Program Op Reply β} {program : Program Op Reply α} {count : Nat}

theorem Uses.raising {allowed : Op → Prop} (uses : program.Uses allowed)
    (handles : handler.Uses allowed) : (program.raising count handler).Uses allowed := by
  induction program generalizing count with
  | done value => cases count <;> exact handles
  | call operation next ih =>
      cases count with
      | zero => exact handles
      | succ count => exact ⟨uses.1, fun reply => ih reply (uses.2 reply)⟩

section Follows

variable {Role Coarse : Type} {protocol : Protocol Role Op Reply} {coarse : Protocol Coarse Op Reply}
  {state : protocol.State} {post : protocol.State → α → Prop}

/-- The rule of raising: whatever the program keeps, the handler may start from. -/
theorem Follows.raising {motive : protocol.State → Prop} {after : protocol.State → β → Prop}
    (follows : program.Follows protocol state post) (entry : motive state)
    (kept : ∀ state operation reply, motive state → protocol.allowed state operation →
      motive (protocol.advance state operation reply))
    (handles : ∀ state, motive state → handler.Follows protocol state after) :
    (program.raising count handler).Follows protocol state after := by
  induction program generalizing state count with
  | done value => cases count <;> exact handles state entry
  | call operation next ih =>
      cases count with
      | zero => exact handles state entry
      | succ count =>
          refine ⟨follows.1, fun reply => ?_⟩
          exact ih reply (follows.2 reply) (kept state operation reply entry follows.1)

end Follows

end IncidentPlatform.Concurrency.Program

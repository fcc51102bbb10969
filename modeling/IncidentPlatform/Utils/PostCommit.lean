import Mathlib.Data.List.Basic

namespace IncidentPlatform.Utils

/-! # Post-commit hooks

The queue of `post_commit` in `session.info`, and what a session does with it:
register, roll a savepoint or the transaction back, commit and drain.
-/

variable {Hook : Type}

/-- The part of `session.info` that `post_commit` owns. -/
structure SessionInfo (Hook : Type) where
  /-- `_INFO_KEY`; `none` while the key is absent. -/
  hooks : Option (List Hook) := none
  /-- `_GUARD_KEY`, set when the rollback listener is installed. -/
  guarded : Bool := false

namespace SessionInfo

variable (info : SessionInfo Hook)

def queue : List Hook := info.hooks.getD []

def registerPostCommit (hook : Hook) : SessionInfo Hook where
  hooks := some (info.queue ++ [hook])
  guarded := true

/-- A rollback, of a savepoint or of the transaction: `after_soft_rollback`
reaches `_discard` once the listener is installed. -/
def softRollback : SessionInfo Hook :=
  if info.guarded then { info with hooks := none } else info

/-- The hooks are awaited in order; one that raises is only logged. -/
def runPostCommit : List Hook × SessionInfo Hook :=
  (info.queue, { info with hooks := none })

end SessionInfo

/-- What a session does inside one transaction, with how each savepoint ends. -/
inductive Work (Hook : Type) where
  | done
  | register (hook : Hook) (rest : Work Hook)
  | savepoint (body : Work Hook) (released : Bool) (rest : Work Hook)

namespace Work

def perform : Work Hook → SessionInfo Hook → SessionInfo Hook
  | .done, info => info
  | .register hook rest, info => rest.perform (info.registerPostCommit hook)
  | .savepoint body released rest, info =>
      let inside := body.perform info
      rest.perform (if released then inside else inside.softRollback)

/-- The hooks registered in work that is not rolled back. -/
def kept : Work Hook → List Hook
  | .done => []
  | .register hook rest => hook :: rest.kept
  | .savepoint body released rest => (if released then body.kept else []) ++ rest.kept

/-- Some savepoint, at any depth, is rolled back. -/
def rollsBack : Work Hook → Bool
  | .done => false
  | .register _ rest => rest.rollsBack
  | .savepoint body released rest => !released || body.rollsBack || rest.rollsBack

end Work

/-- One `session.begin()` block and whether it commits. -/
structure Transaction (Hook : Type) where
  work : Work Hook
  commits : Bool

namespace Transaction

variable (transaction : Transaction Hook)

/-- The block and what follows it: the drain, or the rollback. -/
def run (info : SessionInfo Hook) : List Hook × SessionInfo Hook :=
  let performed := transaction.work.perform info
  if transaction.commits then performed.runPostCommit else ([], performed.softRollback)

/-- The hooks whose work is part of the commit. -/
def due : List Hook := if transaction.commits then transaction.work.kept else []

end Transaction

/-- What each of the transactions of one session runs. -/
def runSession : SessionInfo Hook → List (Transaction Hook) → List (List Hook)
  | _, [] => []
  | info, transaction :: rest =>
      (transaction.run info).1 :: runSession (transaction.run info).2 rest

end IncidentPlatform.Utils

import IncidentPlatform.Workers.Dispatcher

namespace IncidentPlatform.Workers

open Concurrency Models Platform

/-! # The dependency resolver -/

def resolveChild (childId : Uuid) : Prog Unit := do
  match ← ask (.job childId) with
  | none => pure ()
  | some child =>
      if child.status ≠ .waiting then pure ()
      else do
        let unmet ← ask (.unmetCount childId)
        if unmet > 0 then pure () else promoteChild childId child

/-- `DependencyResolver.handle_message` for the completion of `parent`. -/
def resolveDependents (parent : Uuid) : Prog Unit := do
  let children ← ask (.childrenOf parent)
  .forEach children resolveChild
  commit

end IncidentPlatform.Workers

import IncidentPlatform.Concurrency.Raises
import IncidentPlatform.Platform.System

namespace IncidentPlatform.Platform

open Concurrency Models Workers Services

/-! # Entry points that raise

Any await of an entry point may raise, before its operation has taken effect or
after.  Leaving a session rolls it back, and `_run_and_release` then enters its
net.
-/

/-- What an escape from the entry point runs into. -/
def Role.net (error : String) : Role → Prog Unit
  | .deliver id | .redeliver id => Workers.forceDeadLetter id error
  | _ => .done ()

inductive Task where
  | completes (role : Role)
  /-- The entry point raises `error` after `awaits` of its operations, and its net
  after `netAwaits`. -/
  | raises (role : Role) (awaits : Nat) (error : String) (netAwaits : Nat)

def Task.role : Task → Role
  | .completes role | .raises role _ _ _ => role

/-- The net of a role, which is itself guarded. -/
def Role.escape (role : Role) (error : String) (netAwaits : Nat) : Prog Unit :=
  rollback.bind fun _ => (role.net error).raising netAwaits rollback

def Task.program (settings : Settings) : Task → Prog Unit
  | .completes role => role.program settings
  | .raises role awaits error netAwaits =>
      (role.program settings).raising awaits (role.escape error netAwaits)

/-- A net runs only under a delivery that has raised. -/
def World.begin (world : World) (task : Task) : Option World :=
  match task.role with
  | .forceDeadLetter _ _ => none
  | role => world.accept role

def escaping (settings : Settings) : System World Task Op Reply Change where
  program := Task.program settings
  accept := fun task world => world.begin task
  execute := World.operate
  environment := fun change world => world.change change

abbrev EscapePool := Pool World Task Op Reply

abbrev EscapeEntry := Entry World Task Op Reply

/-- The pools that runs from a fresh platform reach. -/
def Escapable (settings : Settings) (pool : EscapePool) : Prop :=
  ∃ outside, (escaping settings).Reaches (.initial (.fresh outside)) pool

theorem begin_accepts {world after : World} {task : Task} (begun : world.begin task = some after) :
    world.accept task.role = some after := by
  unfold World.begin at begun
  split at begun
  · contradiction
  · exact begun

end IncidentPlatform.Platform

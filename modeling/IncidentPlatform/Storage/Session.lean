namespace IncidentPlatform.Storage

/-! # A session with savepoints

What one transaction has staged, and what was staged when each of its open
savepoints was set.  A session that has lost its connection commits nothing.
-/

structure Session (Row : Type) where
  committed : List Row := []
  staged : List Row := []
  /-- The open savepoints, innermost first. -/
  marks : List (List Row) := []
  lost : Bool := false

namespace Session

variable {Row : Type} (session : Session Row)

def write (row : Row) : Session Row := { session with staged := session.staged ++ [row] }

def savepoint : Session Row := { session with marks := session.staged :: session.marks }

/-- RELEASE SAVEPOINT. -/
def release : Session Row := { session with marks := session.marks.tail }

/-- ROLLBACK TO SAVEPOINT, which drops it. -/
def rollbackTo : Session Row :=
  { session with staged := session.marks.headD [], marks := session.marks.tail }

/-- The savepoint cannot be reached any more. -/
def lose : Session Row := { session with marks := session.marks.tail, lost := true }

def commit : Session Row :=
  { session with
    committed := if session.lost then session.committed else session.committed ++ session.staged
    staged := []
    marks := [] }

def rollback : Session Row := { session with staged := [], marks := [] }

/-- The session has committed nothing, and unless it is lost it has these rows
staged and these savepoints open. -/
structure Stages (marks : List (List Row)) (rows : List Row) : Prop where
  uncommitted : session.committed = []
  marks : session.lost = false → session.marks = marks
  staged : session.lost = false → session.staged = rows

variable {session} {marks : List (List Row)} {rows mark : List Row}

theorem Stages.write (stages : session.Stages marks rows) (row : Row) :
    (session.write row).Stages marks (rows ++ [row]) :=
  ⟨stages.uncommitted, stages.marks, fun held => by rw [Session.write, stages.staged held]⟩

theorem Stages.savepoint (stages : session.Stages marks rows) :
    session.savepoint.Stages (rows :: marks) rows :=
  ⟨stages.uncommitted, fun held => by rw [Session.savepoint, stages.staged held, stages.marks held], stages.staged⟩

theorem Stages.release (stages : session.Stages (mark :: marks) rows) : session.release.Stages marks rows :=
  ⟨stages.uncommitted, fun held => by rw [Session.release, stages.marks held, List.tail_cons], stages.staged⟩

theorem Stages.rollbackTo (stages : session.Stages (mark :: marks) rows) :
    session.rollbackTo.Stages marks mark := by
  refine ⟨stages.uncommitted, fun held => ?_, fun held => ?_⟩
  · rw [Session.rollbackTo, stages.marks held, List.tail_cons]
  · rw [Session.rollbackTo, stages.marks held, List.headD_cons]

theorem Stages.lose (stages : session.Stages marks rows) (others : List (List Row)) (kept : List Row) :
    session.lose.Stages others kept :=
  ⟨stages.uncommitted, nofun, nofun⟩

/-- A commit publishes what is staged. -/
theorem Stages.commit_held (stages : session.Stages marks rows) (held : session.lost = false) :
    session.commit.committed = rows := by
  simp [Session.commit, held, stages.uncommitted, stages.staged held]

theorem Stages.commit_lost (stages : session.Stages marks rows) (lost : session.lost = true) :
    session.commit.committed = [] := by
  simp [Session.commit, lost, stages.uncommitted]

end Session

end IncidentPlatform.Storage

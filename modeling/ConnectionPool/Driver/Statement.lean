import ConnectionPool.Driver.Identity
import ConnectionPool.Driver.Error

/-!
# Prepared statements

A statement as an engine prepared it, with the place its execution has reached and the values
bound to it. Extra rows may be granted before the rows of the text itself.
-/

namespace ConnectionPool

structure Statement where
  id : StatementId
  owner : ConnectionId
  sql : String
  /-- Rows that the text yields. -/
  rows : Nat
  writes : Bool
  /-- Whether the owner refuses writes. -/
  readOnly : Bool
  /-- Rows granted before those of the text, in each run. -/
  extraRows : Nat
  /-- Extra rows not yet given out in this run. -/
  extraLeft : Nat
  position : Nat
  bindings : List String
  deriving DecidableEq, Repr

/-- The outcome of one step of execution. -/
inductive Advance where
  | row
  | done
  deriving DecidableEq, Repr

namespace Statement

/-- Whether execution has reached the text's own rows and was not reset since. -/
def isRunning (s : Statement) : Bool := 0 < s.position

def bind (s : Statement) (value : String) : Statement :=
  { s with bindings := s.bindings ++ [value] }

def clearBindings (s : Statement) : Statement := { s with bindings := [] }

/-- Back to the start, bindings kept. -/
def reset (s : Statement) : Statement := { s with position := 0, extraLeft := s.extraRows }

/-- Back to the start without bindings: ready to be bound and run again. -/
def rewind (s : Statement) : Statement := s.reset.clearBindings

/-- At the start of a run, with nothing bound. -/
def IsFresh (s : Statement) : Prop :=
  s.position = 0 ∧ s.extraLeft = s.extraRows ∧ s.bindings = []

/-- Rows that this run still yields. -/
def rowsLeft (s : Statement) : Nat := s.extraLeft + (s.rows - s.position)

/-- One step when no fault strikes: an extra row if one is left, then the rows of the text.
A write is refused where the owner is read-only. -/
def advance (s : Statement) : Except DriverError Advance × Statement :=
  if 0 < s.extraLeft then (.ok .row, { s with extraLeft := s.extraLeft - 1 })
  else if s.writes && s.readOnly then (.error .readOnly, s)
  else
    (.ok (if s.position < s.rows then .row else .done), { s with position := s.position + 1 })

theorem rewind_isFresh (s : Statement) : s.rewind.IsFresh := ⟨rfl, rfl, rfl⟩

theorem rowsLeft_advance {s t : Statement} (h : s.advance = (.ok .row, t)) :
    t.rowsLeft + 1 = s.rowsLeft := by
  unfold advance at h
  split at h
  · obtain ⟨-, rfl⟩ := Prod.mk.inj h
    simp only [rowsLeft]
    omega
  · split at h
    · simp at h
    · split at h
      · obtain ⟨-, rfl⟩ := Prod.mk.inj h
        simp only [rowsLeft]
        omega
      · simp at h

end Statement

end ConnectionPool

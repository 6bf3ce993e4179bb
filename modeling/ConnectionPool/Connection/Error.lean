import ConnectionPool.Driver.Error

/-!
# Connection errors

Why a connection refuses an operation.
-/

namespace ConnectionPool

inductive ConnectionError where
  | driver (cause : DriverError)
  | closed
  deriving DecidableEq, Repr

namespace ConnectionError

/-- The text of the error behind this one. -/
def source? : ConnectionError → Option String
  | .driver cause => some cause.message
  | .closed => none

def message : ConnectionError → String
  | .driver cause => s!"driver error: {cause.message}"
  | .closed => "connection is closed"

/-- Whether the same operation might succeed on a fresh connection. -/
def isTransient : ConnectionError → Bool
  | .driver cause => cause.isTransient
  | .closed => true

end ConnectionError

end ConnectionPool

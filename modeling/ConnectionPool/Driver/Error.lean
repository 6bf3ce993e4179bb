/-!
# Driver errors

Why an engine refuses an operation.
-/

namespace ConnectionPool

inductive DriverError where
  | cannotOpen (target message : String)
  | notOpen
  | cannotPrepare (sql message : String)
  | stepFailed (message : String)
  | closeFailed (message : String)
  | readOnly
  deriving DecidableEq, Repr

namespace DriverError

def message : DriverError → String
  | .cannotOpen target message => s!"could not open database '{target}': {message}"
  | .notOpen => "database is not open"
  | .cannotPrepare sql message => s!"failed to prepare '{sql}': {message}"
  | .stepFailed message => s!"statement execution failed: {message}"
  | .closeFailed message => s!"failed to close database: {message}"
  | .readOnly => "attempt to write a read-only database"

/-- Whether the same operation might succeed on a fresh connection. -/
def isTransient : DriverError → Bool
  | .cannotOpen .. => true
  | .notOpen => true
  | _ => false

end DriverError

end ConnectionPool

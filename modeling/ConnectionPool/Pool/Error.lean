import ConnectionPool.Duration

/-!
# Pool errors

Why a pool refuses to be built or to hand out a connection.
-/

namespace ConnectionPool

inductive PoolError where
  | settings (reason : String)
  /-- The factory failed, with the text of its error. -/
  | factory (cause : String)
  | timeout (after : Duration)
  | closed
  /-- The task that waited in the caller's place did not complete. -/
  | task (cause : String)
  deriving DecidableEq, Repr

namespace PoolError

def message : PoolError → String
  | .settings reason => s!"invalid pool configuration: {reason}"
  | .factory cause => s!"failed to create connection: {cause}"
  | .timeout after => s!"timed out after {after.text} waiting for a connection"
  | .closed => "pool is closed"
  | .task cause => s!"acquire task failed: {cause}"

/-- The text of the error behind this one. -/
def source? : PoolError → Option String
  | .factory cause => some cause
  | _ => none

/-- Whether the same call may succeed later. -/
def isRetryable : PoolError → Bool
  | .factory _ => true
  | .timeout _ => true
  | _ => false

end PoolError

end ConnectionPool

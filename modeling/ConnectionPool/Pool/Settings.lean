import ConnectionPool.Pool.Error

/-!
# Pool settings

How many connections a pool makes up front, how many it may hold, and how long a caller waits.
-/

namespace ConnectionPool

structure PoolSettings where
  minConnections : Nat := 0
  maxConnections : Nat := 10
  /-- Without a timeout, callers wait for ever. -/
  connectionTimeout : Option Duration := none
  deriving DecidableEq, Repr, Inhabited

namespace PoolSettings

def validate (s : PoolSettings) : Except PoolError Unit :=
  if s.maxConnections = 0 then
    .error (.settings "max_connections must be greater than zero")
  else if s.maxConnections < s.minConnections then
    .error (.settings
      s!"min_connections ({s.minConnections}) exceeds max_connections ({s.maxConnections})")
  else .ok ()

end PoolSettings

end ConnectionPool

import ConnectionPool.Connection.Basic
import ConnectionPool.Pool.Factory

/-!
# Connecting for a pool

The connector that opens one target through an engine with fixed settings.
-/

namespace ConnectionPool

/-- Opens `target` for a pool. A failure reaches the pool as the text of the connection error. -/
def Connector.toTarget (target : String) (settings : ConnectionSettings) :
    Connector Engine Connection where
  connect e :=
    let (attempt, e) := Connection.connect e target settings
    (attempt.mapReason ConnectionError.message, e)
  destroy := Connection.destroy

end ConnectionPool

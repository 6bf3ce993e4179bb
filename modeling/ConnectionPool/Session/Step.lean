import ConnectionPool.Connection.Basic
import ConnectionPool.Pool.Acquire

/-!
# Steps of a session

What can be asked of a session, and what it replies. Objects go by names; a step that makes an
object is given a name for it.
-/

namespace ConnectionPool

inductive Manner where
  /-- As long as the pool's settings say. -/
  | plain
  | within (timeout : Duration)
  /-- In a task of its own. -/
  | inTask
  deriving DecidableEq, Repr

inductive Step where
  /- The engine -/
  | failOpens (n : Nat)
  | failCloses (n : Nat)
  | failSteps (n : Nat)
  /-- Extra rows for each statement prepared from now on. -/
  | grantRows (n : Nat)
  | createDatabase (target : String)
  /-- Slows the engine down, which changes no reply. -/
  | delay
  /-- The clock goes on. -/
  | pass (nanos : Nat)
  | isFinalized (id : StatementId)
  /- Raw connections -/
  | openRaw (name target : String) (mode : OpenMode)
  | prepareRaw (raw name sql : String)
  | closeRaw (raw : String)
  /- Statements -/
  | advance (statement : String)
  | bind (statement value : String)
  | reset (statement : String)
  | clearBindings (statement : String)
  | rewind (statement : String)
  | finalize (statement : String)
  /- Statement caches -/
  | newCache (name : String) (settings : CacheSettings)
  | takeCached (cache name sql : String) (owner : ConnectionId)
  | storeCached (cache sql statement : String)
  | clearCached (cache : String)
  | reconfigureCached (cache : String) (settings : CacheSettings)
  | isCached (cache sql : String)
  /- Connections -/
  | connect (name target : String) (settings : ConnectionSettings)
  | wrap (raw name : String) (settings : CacheSettings)
  | prepare (connection name sql : String)
  | execute (connection sql : String)
  | configure (connection : String) (settings : CacheSettings)
  | clearCache (connection : String)
  | close (connection : String)
  /- Pools -/
  /-- Without a script there is no factory. -/
  | buildPool (name : String) (settings : PoolSettings) (script : Option (List FactoryCall))
      (target : String) (connections : ConnectionSettings)
  | acquire (pool name : String) (manner : Manner)
  | tryAcquire (pool name : String)
  | closePool (pool : String)
  | clonePool (pool name : String)
  | poolSettings (pool : String)
  /-- One caller per name waits while the steps are carried out. -/
  | wait (pool : String) (names : List String) (manner : Manner) (meanwhile : List Step)
  /-- A caller gives up waiting in a task, and the last handle it waited for is dropped. -/
  | cancel (pool handle : String)
  /- Leases and their aliases -/
  | share (lease name : String)
  | cloneShared (shared name : String)
  | intoShared (lease name : String)
  | exclusive (lease : String)
  | detach (lease name : String)
  /- Any object -/
  | drop (name : String)
  | describe (name : String)
  /-- A step that cannot be understood. -/
  | malformed
  deriving Repr

inductive Refusal where
  /-- There is no such object, or it is of another type. -/
  | noSuch
  | nameInUse
  /-- A statement of the object is still checked out. -/
  | borrowed
  /-- The step would wait without end. -/
  | wouldBlock
  | malformed
  deriving DecidableEq, Repr

inductive Failure where
  | refused (refusal : Refusal)
  | driver (error : DriverError)
  | connection (error : ConnectionError)
  | pool (error : PoolError)
  | aborted (cause : String)
  deriving DecidableEq, Repr

inductive Reply where
  | done
  | flag (value : Bool)
  | count (value : Nat)
  | text (value : String)
  | settings (settings : PoolSettings)
  /-- A connection in a caller's hands, by its identity and what its pool remembers of it. -/
  | leased (id : ConnectionId) (metadata : Metadata)
  /-- The replies to the steps carried out meanwhile, and to each caller that waited. -/
  | waited (meanwhile callers : List Reply)
  | failed (failure : Failure)
  /-- A reply, and what factories noted before it. -/
  | logged (reply : Reply) (log : List (LogEntry Connection))

namespace Reply

def refused (refusal : Refusal) : Reply := .failed (.refused refusal)

def ofDriver {β : Type} (reply : β → Reply) : Except DriverError β → Reply
  | .ok value => reply value
  | .error error => .failed (.driver error)

def ofConnection {β : Type} (reply : β → Reply) : Except ConnectionError β → Reply
  | .ok value => reply value
  | .error error => .failed (.connection error)

/-- A log is told unless it is empty or the reply says nothing. -/
def withLog (reply : Reply) (log : List (LogEntry Connection)) : Reply :=
  match reply, log with
  | .done, _ => .done
  | reply, [] => reply
  | reply, log => .logged reply log

end Reply

end ConnectionPool

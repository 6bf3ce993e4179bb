import ConnectionPool.Session.State

/-!
# Snapshots

What can be seen of the objects of a session from outside.
-/

namespace ConnectionPool

structure StatementView where
  id : StatementId
  owner : ConnectionId
  sql : String
  isRunning : Bool
  bindings : List String
  deriving DecidableEq, Repr

def Statement.view (s : Statement) : StatementView :=
  ⟨s.id, s.owner, s.sql, s.isRunning, s.bindings⟩

/-- A checked-out statement is seen with the text it was asked for by, which is not its own if it
was cached under another. -/
def Checkout.view (k : Checkout) : StatementView := { k.statement.view with sql := k.sql }

structure CacheView where
  settings : CacheSettings
  keys : List String
  stats : StatementCache.Stats
  deriving DecidableEq, Repr

def StatementCache.view (c : StatementCache) : CacheView := ⟨c.settings, c.keys, c.stats⟩

structure ConnectionView where
  id : ConnectionId
  isOpen : Bool
  readOnly : Bool
  lastError : Option String
  cache : CacheView
  deriving DecidableEq, Repr

def Connection.view (c : Connection) : ConnectionView :=
  ⟨c.id, c.isOpen, c.raw.readOnly, c.raw.lastError, c.cache.view⟩

structure PoolView where
  idle : Nat
  created : Nat
  closed : Bool
  status : Status
  metrics : Metrics
  deriving DecidableEq, Repr

def Pool.view {α : Type} (p : Pool α) : PoolView :=
  ⟨p.idle.length, p.created, p.closed, p.status, p.metrics⟩

structure EpisodeView where
  metadata : Metadata
  handles : Nat
  connection : ConnectionView
  deriving DecidableEq, Repr

def Episode.view (e : Episode Connection) : EpisodeView :=
  ⟨e.member.metadata, e.handles, e.member.conn.view⟩

inductive Snapshot where
  | raw (raw : RawConnection)
  | handle (statement : StatementView)
  | statement (statement : StatementView) (cacheable : Bool)
  | cache (cache : CacheView)
  | connection (connection : ConnectionView)
  | pool (pool : PoolView)
  | lease (episode : EpisodeView)
  | shared (episode : EpisodeView)
  deriving DecidableEq, Repr

namespace Session

def snapshot? (s : Session) : Object → Option Snapshot
  | .raw raw => some (.raw raw)
  | .handle statement => some (.handle statement.view)
  | .statement checkout _ => some (.statement checkout.view checkout.cacheable)
  | .cache cache => some (.cache cache.view)
  | .connection c => some (.connection c.view)
  | .pool number => (s.pool? number).map fun p => .pool p.ledger.pool.view
  | .lease pool id => (s.episodeOf? pool id).map fun e => .lease e.view
  | .shared pool id => (s.episodeOf? pool id).map fun e => .shared e.view

/-- Every object by its name, as it can be seen. -/
def snapshots (s : Session) : List (String × Snapshot) :=
  s.objects.filterMap fun (name, object) => (s.snapshot? object).map (name, ·)

end Session

end ConnectionPool

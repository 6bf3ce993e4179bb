import ConnectionPool.Connection.Connector
import ConnectionPool.Pool.Ledger
import ConnectionPool.Session.Step
import ConnectionPool.Session.Table

/-!
# The state of a session

An engine, the objects that a session has made and named, and the pools behind their handles.
Leases and aliases stand for an episode of a pool, checked-out statements for a statement of the
object they were prepared on.
-/

namespace ConnectionPool

inductive Object where
  | raw (raw : RawConnection)
  | handle (statement : Statement)
  /-- A statement checked out of the object named `source`. -/
  | statement (checkout : Checkout) (source : String)
  | cache (cache : StatementCache)
  | connection (connection : Connection)
  /-- A handle to the pool of this number. -/
  | pool (number : Nat)
  /-- A lease on the connection with this number in the pool. -/
  | lease (pool id : Nat)
  | shared (pool id : Nat)
  deriving DecidableEq, Repr

/-- A pool with its episodes, the rest of its factory's script, and how its connections are
opened. -/
structure ManagedPool where
  ledger : Ledger Connection
  script : List FactoryCall
  target : String
  settings : ConnectionSettings
  deriving DecidableEq, Repr

def ManagedPool.connector (p : ManagedPool) : Connector Engine Connection :=
  .toTarget p.target p.settings

structure Session where
  engine : Engine := {}
  objects : List (String × Object) := []
  pools : List (Nat × ManagedPool) := []
  nextPool : Nat := 0
  /-- Pools that callers are waiting on. -/
  awaited : List Nat := []
  /-- What the clock shows. -/
  now : Nat := 0
  deriving DecidableEq, Repr

namespace Session

def object? (s : Session) (name : String) : Option Object := s.objects.lookup name

def inUse (s : Session) (name : String) : Bool := (s.object? name).isSome

def put (s : Session) (name : String) (object : Object) : Session :=
  { s with objects := Table.put name object s.objects }

def remove (s : Session) (name : String) : Session :=
  { s with objects := Table.erase name s.objects }

def pool? (s : Session) (number : Nat) : Option ManagedPool := s.pools.lookup number

def putPool (s : Session) (number : Nat) (pool : ManagedPool) : Session :=
  { s with pools := Table.put number pool s.pools }

def poolNamed? (s : Session) (name : String) : Option (Nat × ManagedPool) :=
  match s.object? name with
  | some (.pool number) => (s.pool? number).map (number, ·)
  | _ => none

def episodeOf? (s : Session) (pool id : Nat) : Option (Episode Connection) :=
  (s.pool? pool).bind (·.ledger.episode? id)

def isBorrowed (s : Session) (name : String) : Bool :=
  s.objects.any fun (_, object) =>
    match object with
    | .statement _ source => source == name
    | _ => false

def connection? (s : Session) (name : String) : Option Connection :=
  match s.object? name with
  | some (.connection c) => some c
  | some (.lease pool id) => (s.episodeOf? pool id).map (·.member.conn)
  | some (.shared pool id) => (s.episodeOf? pool id).map (·.member.conn)
  | _ => none

def setLeased (s : Session) (pool id : Nat) (c : Connection) : Session :=
  match s.pool? pool with
  | some p => s.putPool pool { p with ledger := p.ledger.setConnection id c }
  | none => s

def setConnection (s : Session) (name : String) (c : Connection) : Session :=
  match s.object? name with
  | some (.connection _) => s.put name (.connection c)
  | some (.lease pool id) => s.setLeased pool id c
  | some (.shared pool id) => s.setLeased pool id c
  | _ => s

def raw? (s : Session) (name : String) : Option RawConnection :=
  match s.object? name with
  | some (.raw raw) => some raw
  | _ => (s.connection? name).map (·.raw)

def setRaw (s : Session) (name : String) (raw : RawConnection) : Session :=
  match s.object? name with
  | some (.raw _) => s.put name (.raw raw)
  | _ =>
    match s.connection? name with
    | some c => s.setConnection name { c with raw }
    | none => s

def cache? (s : Session) (name : String) : Option StatementCache :=
  match s.object? name with
  | some (.cache cache) => some cache
  | _ => (s.connection? name).map (·.cache)

def setCache (s : Session) (name : String) (cache : StatementCache) : Session :=
  match s.object? name with
  | some (.cache _) => s.put name (.cache cache)
  | _ =>
    match s.connection? name with
    | some c => s.setConnection name { c with cache }
    | none => s

def statement? (s : Session) (name : String) : Option Statement :=
  match s.object? name with
  | some (.handle statement) => some statement
  | some (.statement checkout _) => some checkout.statement
  | _ => none

def setStatement (s : Session) (name : String) (statement : Statement) : Session :=
  match s.object? name with
  | some (.handle _) => s.put name (.handle statement)
  | some (.statement checkout source) =>
    s.put name (.statement { checkout with statement } source)
  | _ => s

/-- Whether a handle, an episode or a waiting caller keeps a pool alive. -/
def isPoolAlive (s : Session) (number : Nat) : Bool :=
  s.awaited.contains number ||
  (s.objects.any fun (_, object) =>
    match object with
    | .pool n => n == number
    | _ => false) ||
  (s.pool? number).any (!·.ledger.episodes.isEmpty)

/-- Ends a pool that nothing keeps alive, and with it its idle connections. -/
def sweepPool (s : Session) (number : Nat) : Session :=
  if s.isPoolAlive number then s
  else
    match s.pool? number with
    | none => s
    | some p =>
      { s with
        engine := Workplace.destroyAll p.connector p.ledger.pool.idle.reverse s.engine
        pools := Table.erase number s.pools }

def dropHandle (s : Session) (pool id : Nat) : Session :=
  match s.pool? pool with
  | none => s
  | some p =>
    let (left, ledger) := p.ledger.dropHandle id
    let s := s.putPool pool { p with ledger }
    { s with engine := Workplace.destroyAll p.connector left.toList s.engine }.sweepPool pool

def recycle (s : Session) (checkout : Checkout) (source : String) : Session :=
  match s.connection? source with
  | some c =>
    let (c, engine) := c.recycle checkout s.engine
    { s with engine }.setConnection source c
  | none => { s with engine := s.engine.finalize checkout.statement }

def discard (s : Session) : Object → Session
  | .raw _ => s
  | .handle statement => { s with engine := s.engine.finalize statement }
  | .statement checkout source => s.recycle checkout source
  | .cache cache => { s with engine := s.engine.finalizeAll cache.statements }
  | .connection c => { s with engine := c.destroy s.engine }
  | .pool number => s.sweepPool number
  | .lease pool id => s.dropHandle pool id
  | .shared pool id => s.dropHandle pool id

def dropNamed (s : Session) (name : String) : Session :=
  match s.object? name with
  | none => s
  | some object => (s.remove name).discard object

/-- Puts an object under a name. One that came to be there meanwhile is dropped. -/
def replace (s : Session) (name : String) (object : Object) : Session :=
  let before := s.object? name
  let s := s.put name object
  before.elim s s.discard

/-- The names of objects, checked-out statements first. -/
def namesForDrop (s : Session) : List String :=
  let (statements, others) := s.objects.partition fun (_, object) =>
    match object with
    | .statement .. => true
    | _ => false
  (statements ++ others).map Prod.fst

def dropAll (s : Session) : Session := s.namesForDrop.foldl dropNamed s

end Session

end ConnectionPool

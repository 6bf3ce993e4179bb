import ConnectionPool.Session.Statements

/-!
# Pools and leases in a session

A pool is known by its handles; it lives as long as one of them or one of its episodes.
-/

namespace ConnectionPool.Session

/-- What is done with a pool at work, where it is said how connections begin and end and whether
factories may use the pool. -/
abbrev PoolTask (β : Type) :=
  Connector Engine Connection → (reentrant : Bool) → Workplace Engine Connection →
    β × Workplace Engine Connection

/-- Puts a pool to work and takes its books back afterwards; with the answer, what its factory
noted. Factories leave the pool alone while callers wait on any. -/
def work {β : Type} (s : Session) (number : Nat) (p : ManagedPool) (task : PoolTask β) :
    β × List (LogEntry Connection) × Session :=
  let (answer, w) :=
    task p.connector s.awaited.isEmpty ⟨p.ledger.pool, p.script, [], s.engine⟩
  (answer, w.log,
   { s with engine := w.world }.putPool number
     { p with ledger := { p.ledger with pool := w.pool }, script := w.script })

def lend (s : Session) (number : Nat) (name : String) (member : Member Connection) : Session :=
  match s.pool? number with
  | none => s
  | some p =>
    (s.putPool number { p with ledger := p.ledger.start member }).replace name
      (.lease number member.metadata.id)

def receive (s : Session) (number : Nat) (name : String) :
    Acquired Connection → Reply × Session
  | .ok (some member) => (.leased member.conn.id member.metadata, s.lend number name member)
  | .ok none => (.done, s)
  | .refused error => (.failed (.pool error), s)
  | .aborted cause => (.failed (.aborted cause), s)

def receiveWaited (s : Session) (number : Nat) (name : String) :
    Waited Connection → Reply × Session
  | .answered (.ok member) => s.receive number name (.ok (some member))
  | .answered (.refused error) => s.receive number name (.refused error)
  | .answered (.aborted cause) => s.receive number name (.aborted cause)
  | .blocked => s.refuse .wouldBlock

def waitIn (now : Nat) (manner : Manner) : PoolTask (Waited Connection) := fun k reentrant w =>
  match manner with
  | .plain => w.acquire k reentrant now
  | .within timeout => w.acquireWithin k reentrant now (some timeout)
  | .inTask => w.acquireInTask k reentrant now

def buildPool (s : Session) (name : String) (settings : PoolSettings)
    (script : Option (List FactoryCall)) (target : String) (connections : ConnectionSettings) :
    Reply × Session :=
  if s.inUse name then s.refuse .nameInUse
  else
    match Pool.build (.toTarget target connections) settings script s.engine with
    | (.ok (pool, script), engine) =>
      let number := s.nextPool
      let s := { s with engine, nextPool := number + 1 }
      (.done,
       (s.putPool number ⟨{ pool }, script, target, connections⟩).put name (.pool number))
    | (.refused error, engine) => (.failed (.pool error), { s with engine })
    | (.aborted cause, engine) => (.failed (.aborted cause), { s with engine })

def acquire (s : Session) (pool name : String) (manner : Manner) : Reply × Session :=
  if s.inUse name then s.refuse .nameInUse
  else
    match s.poolNamed? pool with
    | none => s.refuse .noSuch
    | some (number, p) =>
      let (answer, log, s) := s.work number p (waitIn s.now manner)
      let (reply, s) := s.receiveWaited number name answer
      (reply.withLog log, s)

def tryAcquire (s : Session) (pool name : String) : Reply × Session :=
  if s.inUse name then s.refuse .nameInUse
  else
    match s.poolNamed? pool with
    | none => s.refuse .noSuch
    | some (number, p) =>
      let (answer, log, s) := s.work number p fun k reentrant w => w.tryAcquire k reentrant
      let (reply, s) := s.receive number name answer
      (reply.withLog log, s)

def closePool (s : Session) (pool : String) : Reply × Session :=
  match s.poolNamed? pool with
  | none => s.refuse .noSuch
  | some (number, p) =>
    let (_, _, s) := s.work number p fun k _ w => ((), w.close k)
    (.done, s)

def clonePool (s : Session) (pool name : String) : Reply × Session :=
  if s.inUse name then s.refuse .nameInUse
  else
    match s.poolNamed? pool with
    | none => s.refuse .noSuch
    | some (number, _) => (.done, s.put name (.pool number))

def poolSettings (s : Session) (pool : String) : Reply × Session :=
  match s.poolNamed? pool with
  | none => s.refuse .noSuch
  | some (_, p) => (.settings p.ledger.pool.settings, s)

/-- Callers that came to a pool at one moment and waited get their answers, one by one. -/
def answerCallers (s : Session) (number arrival : Nat) (manner : Manner) :
    (names : List String) → List Reply × Session
  | [] => ([], s)
  | name :: names =>
    let (reply, s) :=
      match s.pool? number with
      | none => s.refuse .noSuch
      | some p =>
        let (answer, _, s) := s.work number p (waitIn arrival manner)
        s.receiveWaited number name answer
    let (replies, s) := s.answerCallers number arrival manner names
    (reply :: replies, s)

/-- Makes a pool outlive its handles while callers wait on it. -/
def await (s : Session) (number : Nat) : Session := { s with awaited := number :: s.awaited }

def unawait (s : Session) (number : Nat) : Session :=
  { s with awaited := s.awaited.erase number }.sweepPool number

/-- What an abandoned caller gets, it gives back. -/
def abandoned (now : Nat) : PoolTask Unit := fun k reentrant w =>
  match w.acquireInTask k reentrant now with
  | (.answered (.ok member), w) => ((), w.giveBack k member)
  | (_, w) => ((), w)

/-- Drops a handle for whose connection an abandoned caller waits. -/
def giveUp (s : Session) (number : Nat) (handle : String) : Session :=
  let s := (s.await number).dropNamed handle
  match s.pool? number with
  | none => s.unawait number
  | some p =>
    let (_, _, s) := s.work number p (abandoned s.now)
    s.unawait number

def cancel (s : Session) (pool handle : String) : Reply × Session :=
  match s.poolNamed? pool, s.object? handle with
  | some (number, _), some (.lease ..) | some (number, _), some (.shared ..) =>
    if s.isBorrowed handle then s.refuse .borrowed else (.done, s.giveUp number handle)
  | _, _ => s.refuse .noSuch

def addAlias (s : Session) (pool id : Nat) (name : String) : Reply × Session :=
  match s.pool? pool with
  | none => s.refuse .noSuch
  | some p =>
    (.done, (s.putPool pool { p with ledger := p.ledger.addHandle id }).put name (.shared pool id))

def share (s : Session) (lease name : String) : Reply × Session :=
  if s.inUse name then s.refuse .nameInUse
  else
    match s.object? lease with
    | some (.lease pool id) => s.addAlias pool id name
    | _ => s.refuse .noSuch

def cloneShared (s : Session) (shared name : String) : Reply × Session :=
  if s.inUse name then s.refuse .nameInUse
  else
    match s.object? shared with
    | some (.shared pool id) => s.addAlias pool id name
    | _ => s.refuse .noSuch

def intoShared (s : Session) (lease name : String) : Reply × Session :=
  if s.inUse name then s.refuse .nameInUse
  else
    match s.object? lease with
    | some (.lease pool id) =>
      if s.isBorrowed lease then s.refuse .borrowed
      else (.done, (s.remove lease).put name (.shared pool id))
    | _ => s.refuse .noSuch

def exclusive (s : Session) (lease : String) : Reply × Session :=
  match s.object? lease with
  | some (.lease pool id) =>
    if s.isBorrowed lease then s.refuse .borrowed
    else
      match s.episodeOf? pool id with
      | none => s.refuse .noSuch
      | some e => (if e.isExclusive then .text e.member.conn.id.label else .done, s)
  | _ => s.refuse .noSuch

def detach (s : Session) (lease name : String) : Reply × Session :=
  if s.inUse name then s.refuse .nameInUse
  else
    match s.object? lease with
    | some (.lease pool id) =>
      if s.isBorrowed lease then s.refuse .borrowed
      else
        match s.pool? pool with
        | none => s.refuse .noSuch
        | some p =>
          match p.ledger.detach? id with
          | none => (.flag false, s)
          | some (c, ledger) =>
            let s := (s.remove lease).putPool pool { p with ledger }
            (.flag true, (s.sweepPool pool).put name (.connection c))
    | _ => s.refuse .noSuch

end ConnectionPool.Session

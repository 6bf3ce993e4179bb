import ConnectionPool.Session.State

/-!
# Raw connections, statements and caches in a session

Each step looks first at the name it is given for a new object, then for the objects it refers to.
-/

namespace ConnectionPool.Session

def refuse (s : Session) (refusal : Refusal) : Reply × Session := (.refused refusal, s)

/-- The end of a step for whose cache there cannot be room. -/
def overflow (s : Session) : Reply × Session :=
  (.failed (.aborted StatementCache.overflowText), s)

def openRaw (s : Session) (name target : String) (mode : OpenMode) : Reply × Session :=
  if s.inUse name then s.refuse .nameInUse
  else
    match s.engine.connect target mode with
    | (.ok raw, engine) => (.text raw.id.label, { s with engine }.put name (.raw raw))
    | (.error error, engine) => (.failed (.driver error), { s with engine })

def prepareRaw (s : Session) (raw name sql : String) : Reply × Session :=
  if s.inUse name then s.refuse .nameInUse
  else
    match s.raw? raw with
    | none => s.refuse .noSuch
    | some connection =>
      match s.engine.prepare connection sql with
      | (.ok statement, connection, engine) =>
        (.text statement.id.label,
         ({ s with engine }.setRaw raw connection).put name (.handle statement))
      | (.error error, connection, engine) =>
        (.failed (.driver error), { s with engine }.setRaw raw connection)

def closeRaw (s : Session) (raw : String) : Reply × Session :=
  match s.raw? raw with
  | none => s.refuse .noSuch
  | some connection =>
    let (result, connection, engine) := s.engine.close connection
    (.ofDriver (fun () => .done) result, { s with engine }.setRaw raw connection)

def advanceReply : Advance → Reply
  | .row => .text "row"
  | .done => .text "done"

/-- Steps a statement. On a statement checked out of a connection, a failure is one of that
connection. -/
def advance (s : Session) (name : String) : Reply × Session :=
  match s.object? name with
  | some (.handle statement) =>
    let (result, statement, engine) := s.engine.step statement
    (.ofDriver advanceReply result, { s with engine }.put name (.handle statement))
  | some (.statement checkout source) =>
    let (result, statement, engine) := s.engine.step checkout.statement
    (.ofConnection advanceReply (result.mapError .driver),
     { s with engine }.put name (.statement { checkout with statement } source))
  | _ => s.refuse .noSuch

/-- Changes a statement in a way that cannot fail. -/
def changeStatement (s : Session) (name : String) (change : Statement → Statement) :
    Reply × Session :=
  match s.statement? name with
  | none => s.refuse .noSuch
  | some statement => (.done, s.setStatement name (change statement))

/-- Ends a checked-out statement without offering it to the cache. -/
def finalize (s : Session) (name : String) : Reply × Session :=
  match s.object? name with
  | some (.statement checkout source) =>
    (.done, (s.remove name).recycle { checkout with cacheable := false } source)
  | _ => s.refuse .noSuch

def newCache (s : Session) (name : String) (settings : CacheSettings) : Reply × Session :=
  if s.inUse name then s.refuse .nameInUse
  else
    match StatementCache.ofSettings? settings with
    | some cache => (.done, s.put name (.cache cache))
    | none => s.overflow

def takeCached (s : Session) (cache name sql : String) (owner : ConnectionId) :
    Reply × Session :=
  if s.inUse name then s.refuse .nameInUse
  else
    match s.cache? cache with
    | none => s.refuse .noSuch
    | some c =>
      let lookup := c.acquire owner sql
      let s := { s with engine := s.engine.finalizeAll lookup.discarded }
      let s := s.setCache cache lookup.cache
      match lookup.found with
      | some statement => (.text statement.id.label, s.put name (.handle statement))
      | none => (.done, s)

/-- Moves a handle's statement into a cache, under whatever text. -/
def storeCached (s : Session) (cache sql statement : String) : Reply × Session :=
  match s.cache? cache, s.object? statement with
  | some c, some (.handle handle) =>
    let (discarded, c) := c.release sql handle
    let s := (s.remove statement).setCache cache c
    (.done, { s with engine := s.engine.finalizeAll discarded })
  | _, _ => s.refuse .noSuch

def clearCached (s : Session) (cache : String) : Reply × Session :=
  match s.cache? cache with
  | none => s.refuse .noSuch
  | some c =>
    let (discarded, c) := c.clear
    let s := s.setCache cache c
    (.count discarded.length, { s with engine := s.engine.finalizeAll discarded })

def reconfigureCached (s : Session) (cache : String) (settings : CacheSettings) :
    Reply × Session :=
  match s.cache? cache with
  | none => s.refuse .noSuch
  | some c =>
    match c.reconfigure? settings with
    | none => s.overflow
    | some (discarded, c) =>
      let s := s.setCache cache c
      (.done, { s with engine := s.engine.finalizeAll discarded })

def isCached (s : Session) (cache sql : String) : Reply × Session :=
  match s.cache? cache with
  | none => s.refuse .noSuch
  | some c => (.flag (c.contains sql), s)

end ConnectionPool.Session

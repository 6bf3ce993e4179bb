import ConnectionPool.Session.Statements

/-!
# Connections in a session

Connections of their own, and those that leases and aliases stand for.
-/

namespace ConnectionPool.Session

def connect (s : Session) (name target : String) (settings : ConnectionSettings) :
    Reply × Session :=
  if s.inUse name then s.refuse .nameInUse
  else
    match Connection.connect s.engine target settings with
    | (.ok c, engine) => (.text c.id.label, { s with engine }.put name (.connection c))
    | (.refused error, engine) => (.failed (.connection error), { s with engine })
    | (.aborted cause, engine) => (.failed (.aborted cause), { s with engine })

/-- Makes a connection of a raw one, which is gone even if that aborts. -/
def wrap (s : Session) (raw name : String) (settings : CacheSettings) : Reply × Session :=
  if s.inUse name then s.refuse .nameInUse
  else
    match s.object? raw with
    | some (.raw connection) =>
      match Connection.ofRaw? connection settings with
      | some c => (.done, (s.remove raw).put name (.connection c))
      | none => (s.remove raw).overflow
    | _ => s.refuse .noSuch

def prepare (s : Session) (connection name sql : String) : Reply × Session :=
  if s.inUse name then s.refuse .nameInUse
  else
    match s.connection? connection with
    | none => s.refuse .noSuch
    | some c =>
      match c.prepare sql s.engine with
      | (.ok checkout, c, engine) =>
        (.text checkout.statement.id.label,
         ({ s with engine }.setConnection connection c).put name (.statement checkout connection))
      | (.error error, c, engine) =>
        (.failed (.connection error), { s with engine }.setConnection connection c)

def execute (s : Session) (connection sql : String) : Reply × Session :=
  match s.connection? connection with
  | none => s.refuse .noSuch
  | some c =>
    let (result, c, engine) := c.execute sql s.engine
    (.ofConnection .count result, { s with engine }.setConnection connection c)

def configure (s : Session) (connection : String) (settings : CacheSettings) :
    Reply × Session :=
  match s.connection? connection with
  | none => s.refuse .noSuch
  | some c =>
    match c.configureCache? settings s.engine with
    | some (c, engine) => (.done, { s with engine }.setConnection connection c)
    | none => s.overflow

def clearCache (s : Session) (connection : String) : Reply × Session :=
  match s.connection? connection with
  | none => s.refuse .noSuch
  | some c =>
    let (c, engine) := c.clearCache s.engine
    (.done, { s with engine }.setConnection connection c)

def close (s : Session) (connection : String) : Reply × Session :=
  match s.object? connection with
  | some (.connection c) =>
    if s.isBorrowed connection then s.refuse .borrowed
    else
      let (result, engine) := c.close s.engine
      (.ofConnection (fun () => .done) result, { s with engine }.remove connection)
  | _ => s.refuse .noSuch

end ConnectionPool.Session

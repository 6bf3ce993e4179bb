import ConnectionPool.Connection.Basic

/-!
# Scripts

One caller at work on one connection, with any number of statements checked out of it at a time.
The cache of the connection may be cleared or given new settings between any two operations.
-/

namespace ConnectionPool.Script

/-- What a script asks for. A statement is named by its place among those checked out. -/
inductive Operation where
  | prepare (sql : String)
  | step (i : Nat)
  | bind (i : Nat) (value : String)
  | reset (i : Nat)
  | clearBindings (i : Nat)
  | rewind (i : Nat)
  | finalize (i : Nat)
  | drop (i : Nat)
  | execute (sql : String)
  /-- Closes the raw connection behind the back of the connection. -/
  | closeRaw
  deriving DecidableEq, Repr

inductive Upkeep where
  | configure (settings : CacheSettings)
  | clear
  deriving DecidableEq, Repr

inductive Action where
  | operation (o : Operation)
  | upkeep (u : Upkeep)
  deriving DecidableEq, Repr

def Action.operation? : Action → Option Operation
  | operation o => some o
  | upkeep _ => none

def operations (script : List Action) : List Operation := script.filterMap Action.operation?

inductive Reply where
  | prepared (result : Except ConnectionError Unit)
  | stepped (result : Except ConnectionError Advance)
  | executed (result : Except ConnectionError Nat)
  | closed (result : Except DriverError Unit)
  | done
  /-- No statement is checked out at that place. -/
  | missing

/-- What a caller sees of a statement checked out, its number apart. -/
structure Sight where
  sql : String
  owner : ConnectionId
  isRunning : Bool
  bindings : List String
  cacheable : Bool
  deriving DecidableEq, Repr

structure Desk where
  connection : Connection
  engine : Engine
  held : List Checkout

namespace Desk

def clean (c : Connection) (e : Engine) : Desk := ⟨c, e, []⟩

def view (d : Desk) : List Sight :=
  d.held.map fun k =>
    ⟨k.sql, k.statement.owner, k.statement.isRunning, k.statement.bindings, k.cacheable⟩

def prepare (d : Desk) (sql : String) : Reply × Desk :=
  match d.connection.prepare sql d.engine with
  | (.ok k, connection, engine) => (.prepared (.ok ()), ⟨connection, engine, d.held ++ [k]⟩)
  | (.error error, connection, engine) =>
    (.prepared (.error error), ⟨connection, engine, d.held⟩)

def withHeld (d : Desk) (i : Nat) (deal : Checkout → Reply × Desk) : Reply × Desk :=
  match d.held[i]? with
  | none => (.missing, d)
  | some k => deal k

def step (d : Desk) (i : Nat) : Reply × Desk :=
  d.withHeld i fun k =>
    let (result, statement, engine) := d.engine.step k.statement
    (.stepped (result.mapError .driver),
     { d with engine, held := d.held.set i { k with statement } })

def change (d : Desk) (i : Nat) (f : Statement → Statement) : Reply × Desk :=
  d.withHeld i fun k =>
    (.done, { d with held := d.held.set i { k with statement := f k.statement } })

/-- Gives a statement back, to be kept only if `keep` holds. -/
def putBack (d : Desk) (i : Nat) (keep : Bool) : Reply × Desk :=
  d.withHeld i fun k =>
    let (connection, engine) :=
      d.connection.recycle { k with cacheable := keep && k.cacheable } d.engine
    (.done, ⟨connection, engine, d.held.eraseIdx i⟩)

def execute (d : Desk) (sql : String) : Reply × Desk :=
  let (result, connection, engine) := d.connection.execute sql d.engine
  (.executed result, { d with connection, engine })

def closeRaw (d : Desk) : Reply × Desk :=
  let (result, raw, engine) := d.engine.close d.connection.raw
  (.closed result, { d with connection := { d.connection with raw }, engine })

def perform (d : Desk) : Operation → Reply × Desk
  | .prepare sql => d.prepare sql
  | .step i => d.step i
  | .bind i value => d.change i (·.bind value)
  | .reset i => d.change i Statement.reset
  | .clearBindings i => d.change i Statement.clearBindings
  | .rewind i => d.change i Statement.rewind
  | .finalize i => d.putBack i false
  | .drop i => d.putBack i true
  | .execute sql => d.execute sql
  | .closeRaw => d.closeRaw

/-- Settings for which there cannot be room abort and change nothing. -/
def tend (d : Desk) : Upkeep → Desk
  | .configure settings =>
    match d.connection.configureCache? settings d.engine with
    | some (connection, engine) => { d with connection, engine }
    | none => d
  | .clear =>
    let (connection, engine) := d.connection.clearCache d.engine
    { d with connection, engine }

end Desk

/-- Runs a script. Each operation is answered, and the statements checked out are looked at
after it. -/
def run : Desk → List Action → List (Reply × List Sight) × Desk
  | d, [] => ([], d)
  | d, .operation o :: script =>
    let (reply, after) := d.perform o
    let (transcript, last) := run after script
    ((reply, after.view) :: transcript, last)
  | d, .upkeep u :: script => run (d.tend u) script

end ConnectionPool.Script

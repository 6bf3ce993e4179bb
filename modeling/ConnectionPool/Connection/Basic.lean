import ConnectionPool.Attempt
import ConnectionPool.Connection.Error
import ConnectionPool.Connection.StatementCache
import ConnectionPool.Driver.Engine

/-!
# Connections

A raw connection with a statement cache. A schema change starts a new generation: it empties the
cache, and statements checked out in an earlier generation are finalized when they come back.
-/

namespace ConnectionPool

structure Connection where
  raw : RawConnection
  cache : StatementCache
  /-- Schema changes so far. -/
  generation : Nat
  deriving DecidableEq, Repr

/-- A statement in the hands of a caller, and what decides whether it may be kept afterwards. -/
structure Checkout where
  sql : String
  statement : Statement
  cacheable : Bool
  /-- The generation of its connection when it was asked for. -/
  generation : Nat
  deriving DecidableEq, Repr

namespace Connection

/-- Makes a connection of a raw one, if there can be room for its cache. -/
def ofRaw? (raw : RawConnection) (settings : CacheSettings) : Option Connection :=
  (StatementCache.ofSettings? settings).map fun cache => ⟨raw, cache, 0⟩

/-- Opens a connection through an engine. Its cache is made last: if there cannot be room for it,
the attempt aborts and the raw connection stays open with nobody to close it. -/
def connect (e : Engine) (target : String) (settings : ConnectionSettings) :
    Attempt ConnectionError Connection × Engine :=
  match e.connect target settings.openMode with
  | (.error error, e) => (.refused (.driver error), e)
  | (.ok raw, e) =>
    match ofRaw? raw settings.statementCache with
    | some c => (.ok c, e)
    | none => (.aborted StatementCache.overflowText, e)

def id (c : Connection) : ConnectionId := c.raw.id

def isOpen (c : Connection) : Bool := c.raw.isOpen

/-- Starts a new generation, the cache still to be cleared. -/
def nextGeneration (c : Connection) : Connection := { c with generation := c.generation + 1 }

/-- Clears the cache and finalizes what was in it. -/
def clearCache (c : Connection) (e : Engine) : Connection × Engine :=
  let (discarded, cache) := c.cache.clear
  ({ c with cache }, e.finalizeAll discarded)

/-- Gives the cache new settings, if there can be room, and finalizes what was in it. -/
def configureCache? (c : Connection) (settings : CacheSettings) (e : Engine) :
    Option (Connection × Engine) :=
  (c.cache.reconfigure? settings).map fun (discarded, cache) =>
    ({ c with cache }, e.finalizeAll discarded)

/-- Asks the cache for a statement and finalizes what it lets go of. -/
def lookUp (c : Connection) (sql : String) (e : Engine) :
    Option Statement × Connection × Engine :=
  let lookup := c.cache.acquire c.id sql
  (lookup.found, { c with cache := lookup.cache }, e.finalizeAll lookup.discarded)

/-- Has the engine prepare a statement, if the connection is still open. -/
def prepareFresh (c : Connection) (sql : String) (e : Engine) :
    Except ConnectionError Statement × Connection × Engine :=
  if !c.isOpen then (.error .closed, c, e)
  else
    match e.prepare c.raw sql with
    | (.ok s, raw, e) => (.ok s, { c with raw }, e)
    | (.error error, raw, e) => (.error (.driver error), { c with raw }, e)

/-- Prepares a statement that changes the schema. The cache is emptied first, and the statement
will not be kept. It carries the generation it ends. -/
def prepareSchemaChange (c : Connection) (sql : String) (e : Engine) :
    Except ConnectionError Checkout × Connection × Engine :=
  let (d, e) := c.nextGeneration.clearCache e
  match d.prepareFresh sql e with
  | (.ok s, d, e) => (.ok ⟨sql, s, false, c.generation⟩, d, e)
  | (.error error, d, e) => (.error error, d, e)

/-- Prepares any other statement, from the cache if it has one. -/
def prepareCached (c : Connection) (sql : String) (e : Engine) :
    Except ConnectionError Checkout × Connection × Engine :=
  match c.lookUp sql e with
  | (some s, d, e) => (.ok ⟨sql, s, true, c.generation⟩, d, e)
  | (none, d, e) =>
    match d.prepareFresh sql e with
    | (.ok s, d, e) => (.ok ⟨sql, s, true, c.generation⟩, d, e)
    | (.error error, d, e) => (.error error, d, e)

def prepare (c : Connection) (sql : String) (e : Engine) :
    Except ConnectionError Checkout × Connection × Engine :=
  if !c.isOpen then (.error .closed, c, e)
  else if Sql.changesSchema sql then c.prepareSchemaChange sql e
  else c.prepareCached sql e

/-- Whether a returned statement may go back into the cache. -/
def accepts (c : Connection) (k : Checkout) : Bool :=
  k.cacheable && k.generation == c.generation && c.isOpen

/-- Takes a statement back: into the cache if it is accepted, and finalized otherwise. -/
def recycle (c : Connection) (k : Checkout) (e : Engine) : Connection × Engine :=
  if c.accepts k then
    let (discarded, cache) := c.cache.release k.sql k.statement
    ({ c with cache }, e.finalizeAll discarded)
  else (c, e.finalize k.statement)

/-- Prepares a statement, runs it to its end and takes it back; the number of its rows. -/
def execute (c : Connection) (sql : String) (e : Engine) :
    Except ConnectionError Nat × Connection × Engine :=
  match c.prepare sql e with
  | (.error error, c, e) => (.error error, c, e)
  | (.ok k, c, e) =>
    let (result, s, e) := e.run k.statement
    let (c, e) := c.recycle { k with statement := s } e
    (result.mapError .driver, c, e)

/-- Finalizes the cached statements and closes the raw connection if it is open. -/
def shutdown (c : Connection) (e : Engine) :
    Except ConnectionError Unit × Connection × Engine :=
  let (c, e) := c.clearCache e
  if !c.isOpen then (.ok (), c, e)
  else
    let (result, raw, e) := e.close c.raw
    (result.mapError .driver, { c with raw }, e)

/-- What is left of the engine after the end of a connection, whose failure nobody hears of. -/
def destroy (c : Connection) (e : Engine) : Engine := (c.shutdown e).2.2

/-- Closes a connection and ends it; one that failed to close is tried again at its end. -/
def close (c : Connection) (e : Engine) : Except ConnectionError Unit × Engine :=
  let (result, c, e) := c.shutdown e
  (result, c.destroy e)

end Connection

end ConnectionPool

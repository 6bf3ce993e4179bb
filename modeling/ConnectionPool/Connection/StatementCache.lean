import ConnectionPool.Connection.Settings
import ConnectionPool.Driver.Statement
import ConnectionPool.Ratio

/-!
# Statement caches

A bounded map from a statement's text, taken as it stands, to a prepared statement; the entry
stored longest ago makes room first. A cache owns what it holds: a lookup moves a statement out
and a store moves it in, and each operation names the statements it lets go of, which its caller
finalizes. Room for all entries is set aside when a cache takes its settings.
-/

namespace ConnectionPool

structure StatementCache where
  settings : CacheSettings := {}
  /-- The latest stored entry first. -/
  entries : List (String × Statement) := []
  hits : Nat := 0
  misses : Nat := 0
  evictions : Nat := 0
  deriving DecidableEq, Repr

namespace StatementCache

/-- An empty cache, if there can be room for it. -/
def ofSettings? (settings : CacheSettings) : Option StatementCache :=
  if settings.fits then some { settings } else none

/-- What is said when there cannot be room for a cache. -/
def overflowText : String := "Hash table capacity overflow"

def size (c : StatementCache) : Nat := c.entries.length

/-- The texts under which statements are kept, the latest stored first. -/
def keys (c : StatementCache) : List String := c.entries.map Prod.fst

def statements (c : StatementCache) : List Statement := c.entries.map Prod.snd

def get? (c : StatementCache) (sql : String) : Option Statement := c.entries.lookup sql

def contains (c : StatementCache) (sql : String) : Bool := (c.get? sql).isSome

def isActive (c : StatementCache) : Bool := c.settings.isActive

def isFull (c : StatementCache) : Bool := c.settings.capacity ≤ c.size

/-- The cache without the entry under `sql`. -/
def erase (c : StatementCache) (sql : String) : StatementCache :=
  { c with entries := c.entries.eraseP (·.1 == sql) }

/-- The statement a lookup found, those it let go of, and the cache it left. -/
structure Lookup where
  found : Option Statement
  discarded : List Statement
  cache : StatementCache

/-- Moves the statement under `sql` out, rewound, for the connection `owner`. A statement of
another connection is let go of and counts as a miss. An inactive cache counts nothing. -/
def acquire (c : StatementCache) (owner : ConnectionId) (sql : String) : Lookup :=
  if !c.isActive then ⟨none, [], c⟩
  else
    match c.get? sql with
    | none => ⟨none, [], { c with misses := c.misses + 1 }⟩
    | some s =>
      let c := c.erase sql
      if s.owner = owner then ⟨some s.rewind, [], { c with hits := c.hits + 1 }⟩
      else ⟨none, [s.rewind], { c with misses := c.misses + 1 }⟩

/-- Puts an entry in front; a full cache lets go of its last. -/
def push (c : StatementCache) (sql : String) (s : Statement) :
    List Statement × StatementCache :=
  if c.isFull then
    (c.statements.getLast?.toList,
     { c with entries := (sql, s) :: c.entries.dropLast, evictions := c.evictions + 1 })
  else ([], { c with entries := (sql, s) :: c.entries })

/-- Moves a statement in under `sql`. It is let go of instead if the cache is inactive or has
that text already, which then keeps its place. -/
def release (c : StatementCache) (sql : String) (s : Statement) :
    List Statement × StatementCache :=
  if !c.isActive || c.contains sql then ([s], c) else c.push sql s

/-- Lets go of every statement. -/
def clear (c : StatementCache) : List Statement × StatementCache :=
  (c.statements, { c with entries := [] })

/-- Takes new settings and lets go of every statement, if there can be room; the counts go on. -/
def reconfigure? (c : StatementCache) (settings : CacheSettings) :
    Option (List Statement × StatementCache) :=
  if settings.fits then some (c.statements, { c with settings, entries := [] }) else none

/-- What a cache has counted and holds. -/
structure Stats where
  hits : Nat
  misses : Nat
  evictions : Nat
  size : Nat
  capacity : Nat
  deriving DecidableEq, Repr

/-- The part of the lookups that the cache could serve; zero if there were none. -/
def Stats.hitRate (s : Stats) : Float := share 0 s.hits s.misses

def stats (c : StatementCache) : Stats :=
  ⟨c.hits, c.misses, c.evictions, c.size, c.settings.capacity⟩

end StatementCache

end ConnectionPool

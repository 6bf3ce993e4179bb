import ConnectionPool.Driver.OpenMode

/-!
# Connection settings

How a connection is opened and how many of its statements it keeps.
-/

namespace ConnectionPool

/-- Settings of a statement cache. A capacity of zero disables it as well. -/
structure CacheSettings where
  capacity : Nat := 32
  enabled : Bool := true
  deriving DecidableEq, Repr, Inhabited

namespace CacheSettings

/-- A cache that keeps nothing. -/
def disabled : CacheSettings := { enabled := false }

/-- Whether statements are kept at all. -/
def isActive (s : CacheSettings) : Bool := s.enabled && 0 < s.capacity

/-- The most entries that one cache can have room for. A table has a power of two of places and
leaves an eighth of them empty; more than 2^58 places cannot be addressed. -/
def maxCapacity : Nat := 7 * Nat.pow 2 55

/-- Whether room for the capacity can be set aside. A disabled cache needs none. -/
def fits (s : CacheSettings) : Bool := !s.enabled || s.capacity ≤ maxCapacity

end CacheSettings

structure ConnectionSettings where
  openMode : OpenMode := .openOrCreate
  statementCache : CacheSettings := {}
  deriving DecidableEq, Repr, Inhabited

end ConnectionPool

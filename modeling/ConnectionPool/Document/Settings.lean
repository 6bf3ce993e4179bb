import ConnectionPool.Document.Basic
import ConnectionPool.Connection.Settings
import ConnectionPool.Pool.Settings

/-!
# Settings in documents

A record of settings is an object or an array of its fields in their order. Fields that are
missing take their defaults, and keys that are not fields are ignored.
-/

namespace ConnectionPool

namespace Document

/-- The fields of a record by their keys. An array gives them in the order of `keys` and has no
more items than those. -/
def record? (keys : List String) : Document → Option (List (String × Document))
  | .object fields => some fields
  | .array items => if items.length ≤ keys.length then some (keys.zip items) else none
  | _ => none

/-- The value of a field, or the default if the field is missing. -/
def fieldOr? {β : Type} (fields : List (String × Document)) (key : String)
    (read? : Document → Option β) (default : β) : Option β :=
  match fields.lookup key with
  | none => some default
  | some value => read? value

/-- A value or `null`. -/
def nullOr? {β : Type} (read? : Document → Option β) : Document → Option (Option β)
  | .null => some none
  | value => (read? value).map some

def ofOption {β : Type} (write : β → Document) : Option β → Document
  | none => .null
  | some value => write value

end Document

namespace Duration

def keys : List String := ["secs", "nanos"]

/-- A span has both of its fields and no others; its nanoseconds are a number of 32 bits. -/
def ofDocument? (document : Document) : Option Duration := do
  let fields ← document.record? keys
  guard (fields.all fun (key, _) => keys.contains key)
  let seconds ← (fields.lookup "secs").bind Document.count?
  let nanos ← (fields.lookup "nanos").bind (Document.natBelow? UInt32.size)
  ofParts? seconds nanos

def toDocument (d : Duration) : Document :=
  .object [("secs", .ofNat d.seconds), ("nanos", .ofNat d.nanos)]

end Duration

namespace OpenMode

/-- A mode is its name, or an object with that one key and `null`. -/
def ofDocument? : Document → Option OpenMode
  | .string name => ofName? name
  | .object [(name, .null)] => ofName? name
  | _ => none

def toDocument (mode : OpenMode) : Document := .string mode.name

end OpenMode

namespace CacheSettings

def keys : List String := ["capacity", "enabled"]

def ofDocument? (document : Document) : Option CacheSettings := do
  let defaults : CacheSettings := {}
  let fields ← document.record? keys
  let capacity ← Document.fieldOr? fields "capacity" Document.count? defaults.capacity
  let enabled ← Document.fieldOr? fields "enabled" Document.bool? defaults.enabled
  return { capacity, enabled }

def toDocument (s : CacheSettings) : Document :=
  .object [("capacity", .ofNat s.capacity), ("enabled", .bool s.enabled)]

end CacheSettings

namespace ConnectionSettings

def keys : List String := ["open_mode", "statement_cache"]

def ofDocument? (document : Document) : Option ConnectionSettings := do
  let defaults : ConnectionSettings := {}
  let fields ← document.record? keys
  let openMode ← Document.fieldOr? fields "open_mode" OpenMode.ofDocument? defaults.openMode
  let statementCache ←
    Document.fieldOr? fields "statement_cache" CacheSettings.ofDocument? defaults.statementCache
  return { openMode, statementCache }

def toDocument (s : ConnectionSettings) : Document :=
  .object [("open_mode", s.openMode.toDocument),
    ("statement_cache", s.statementCache.toDocument)]

end ConnectionSettings

namespace PoolSettings

def keys : List String := ["min_connections", "max_connections", "connection_timeout"]

def ofDocument? (document : Document) : Option PoolSettings := do
  let defaults : PoolSettings := {}
  let fields ← document.record? keys
  let minConnections ←
    Document.fieldOr? fields "min_connections" Document.count? defaults.minConnections
  let maxConnections ←
    Document.fieldOr? fields "max_connections" Document.count? defaults.maxConnections
  let connectionTimeout ←
    Document.fieldOr? fields "connection_timeout" (Document.nullOr? Duration.ofDocument?)
      defaults.connectionTimeout
  return { minConnections, maxConnections, connectionTimeout }

def toDocument (s : PoolSettings) : Document :=
  .object [("min_connections", .ofNat s.minConnections),
    ("max_connections", .ofNat s.maxConnections),
    ("connection_timeout", .ofOption Duration.toDocument s.connectionTimeout)]

end PoolSettings

end ConnectionPool

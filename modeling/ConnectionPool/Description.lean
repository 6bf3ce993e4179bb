import ConnectionPool.Connection.Basic
import ConnectionPool.Pool.Ledger
import ConnectionPool.Text.Fields
import ConnectionPool.Text.Quoted

/-!
# Descriptions

One-line texts of statements, caches, connections, pools and handles for diagnosis. Moments are
not told apart in them, nor is any text that looks like one.
-/

namespace ConnectionPool

open Text

def Statement.description (s : Statement) : String :=
  recordText "StatementHandle"
    [("id", s.id.description), ("owner", s.owner.description), ("sql", quoted s.sql)]

def Checkout.description (k : Checkout) : String :=
  recordText "Statement"
    [("sql", quoted k.sql), ("id", k.statement.id.description), ("cacheable", toString k.cacheable)]

def StatementCache.description (c : StatementCache) : String :=
  recordText "StatementCache"
    [("len", toString c.size), ("capacity", toString c.settings.capacity)]

def Connection.description (c : Connection) : String :=
  recordText "Connection" [("id", c.id.description), ("cache", c.cache.description)]

def PoolSettings.description (s : PoolSettings) : String :=
  recordText "PoolConfig"
    [("min_connections", toString s.minConnections),
     ("max_connections", toString s.maxConnections),
     ("connection_timeout", optionText (s.connectionTimeout.map Duration.text))]

def Status.description (s : Status) : String :=
  recordText "PoolStatus"
    [("available", toString s.available), ("in_use", toString s.inUse),
     ("total", toString s.total), ("max", toString s.max)]

def Pool.description {α : Type} (p : Pool α) : String :=
  recordText "Pool"
    [("config", p.settings.description), ("status", p.status.description)]

/-- The text that stands for any moment. -/
def momentText : String := "Instant"

/-- A text in which moments with their readings in braces are cut down to `momentText`; `inside`
tells whether it begins within such braces. -/
def blurMoments : (inside : Bool) → List Char → List Char
  | _, [] => []
  | true, c :: rest => blurMoments (c != '\x7d') rest
  | false, 'I' :: 'n' :: 's' :: 't' :: 'a' :: 'n' :: 't' :: ' ' :: '\x7b' :: rest =>
    momentText.toList ++ blurMoments true rest
  | false, c :: rest => c :: blurMoments false rest

def Metadata.description (m : Metadata) : String :=
  recordText "ConnectionMetadata"
    [("id", toString m.id), ("created_at", momentText),
     ("last_checkout", optionText (if m.handedOut then some momentText else none)),
     ("checkouts", toString m.checkouts)]

/-- A lease on a connection. -/
def Episode.leaseDescription (e : Episode Connection) : String :=
  recordText "PooledConnection"
    [("metadata", e.member.metadata.description), ("conn", e.member.conn.description)]

/-- An alias of a lease. -/
def Episode.aliasDescription {α : Type} (e : Episode α) : String :=
  recordText "SharedConnection"
    [("metadata", e.member.metadata.description), ("aliases", toString e.handles)]

end ConnectionPool

import ConnectionPool.Attempt
import ConnectionPool.Pool.Basic

/-!
# Factories

A factory makes the connections of a pool. It is given as a script with an entry for each call:
how the call uses the pool it works for, and how it ends. Past the end of the script, calls just
connect.
-/

namespace ConnectionPool

inductive FactoryUse where
  /-- Note how the pool stands. -/
  | probe
  /-- Ask for a connection without waiting, and give it back. -/
  | reenter
  | close
  deriving DecidableEq, Repr

inductive FactoryEnding where
  | connect
  | fail (cause : String)
  | abort (cause : String)
  deriving DecidableEq, Repr

structure FactoryCall where
  uses : List FactoryUse := []
  ending : FactoryEnding := .connect
  deriving DecidableEq, Repr, Inhabited

/-- How connections begin and end in the world outside a pool. -/
structure Connector (ω α : Type) where
  connect : ω → Attempt String α × ω
  destroy : α → ω → ω

/-- The answer to a caller that does not wait: a connection, or none where all are in use. -/
abbrev Acquired (α : Type) := Attempt PoolError (Option (Member α))

inductive Waited (α : Type) where
  | answered (answer : Attempt PoolError (Member α))
  /-- The caller waits without end. -/
  | blocked

inductive LogEntry (α : Type) where
  | probed (status : Status) (closed : Bool)
  | reentered (answer : Acquired α)

/-- A pool at work: its books, what its factory will do and has noted, and the world outside. -/
structure Workplace (ω α : Type) where
  pool : Pool α
  script : List FactoryCall
  log : List (LogEntry α)
  world : ω

namespace Workplace

variable {ω α : Type}

def note (w : Workplace ω α) (entry : LogEntry α) : Workplace ω α :=
  { w with log := w.log ++ [entry] }

def nextCall (w : Workplace ω α) : FactoryCall × Workplace ω α :=
  match w.script with
  | [] => ({}, w)
  | call :: script => (call, { w with script })

def destroyAll (k : Connector ω α) (members : List (Member α)) (world : ω) : ω :=
  members.foldl (fun world member => k.destroy member.conn world) world

/-- Takes a connection back, or ends it if the pool is closed. -/
def giveBack (k : Connector ω α) (w : Workplace ω α) (member : Member α) : Workplace ω α :=
  let (left, pool) := w.pool.giveBack member
  { w with pool, world := destroyAll k left.toList w.world }

def close (k : Connector ω α) (w : Workplace ω α) : Workplace ω α :=
  let (left, pool) := w.pool.close
  { w with pool, world := destroyAll k left w.world }

end Workplace

end ConnectionPool

import ConnectionPool.Session.Perform
import ConnectionPool.Session.Snapshot

/-!
# Running sessions

A session starts with a fresh engine and no objects. Each step leaves a record of its reply and of
what it changed; in the end every object is dropped.
-/

namespace ConnectionPool

/-- The reply to a step, the objects that are new or look different, the statements that were
finalized, and the engine's counts. -/
structure Record where
  reply : Reply
  changes : List (String × Snapshot)
  finalized : List StatementId
  counters : Counters

namespace Session

/-- The snapshots that are not in `before`. -/
def changesSince (before after : List (String × Snapshot)) : List (String × Snapshot) :=
  after.filter fun (name, snapshot) => before.lookup name != some snapshot

/-- The statements finalized on the way from `before` to `after`, in ascending order. -/
def finalizedSince (before after : Engine) : List StatementId :=
  (after.finalized.take (after.finalized.length - before.finalized.length)).mergeSort
    fun a b => a.number ≤ b.number

def recordOf (before after : Session) (reply : Reply) : Record where
  reply := reply
  changes := changesSince before.snapshots after.snapshots
  finalized := finalizedSince before.engine after.engine
  counters := after.engine.counters

/-- Carries steps out and records each. -/
def records (s : Session) : List Step → List Record × Session
  | [] => ([], s)
  | step :: steps =>
    let (reply, after) := s.perform step
    let (rest, last) := after.records steps
    (recordOf s after reply :: rest, last)

/-- Runs a session from start to end; with the records, the counts after all is dropped. -/
def run (steps : List Step) : List Record × Counters :=
  let (rows, last) := records {} steps
  (rows, last.dropAll.engine.counters)

end Session

end ConnectionPool

import ConnectionPool.Pool.Factory

/-!
# Acquiring connections

The ways to get a connection out of a pool, and the factory calls they lead to. A factory may ask
its own pool for a connection; each level of such calls holds a slot, so they cannot nest deeper
than the slots that were free at the outset.
-/

namespace ConnectionPool.Workplace

variable {ω α : Type}

/-- A factory at work: one call. -/
abbrev Factory (ω α : Type) := Workplace ω α → Attempt String α × Workplace ω α

/-- Runs the factory for a slot that is taken already, and frees the slot unless it succeeds. -/
def create (factory : Factory ω α) (w : Workplace ω α) :
    Attempt PoolError (Member α) × Workplace ω α :=
  let (id, pool) := w.pool.takeId
  match factory { w with pool } with
  | (.ok conn, w) => (.ok ⟨conn, .fresh id⟩, { w with pool := w.pool.countCreated })
  | (.refused cause, w) =>
    (.refused (.factory cause), { w with pool := w.pool.freeSlot.countCreationFailure })
  | (.aborted cause, w) => (.aborted cause, { w with pool := w.pool.freeSlot })

def handOut (w : Workplace ω α) (member : Member α) : Acquired α × Workplace ω α :=
  (.ok (some member.recordCheckout), { w with pool := w.pool.countCheckout })

def refuse (w : Workplace ω α) (error : PoolError) : Acquired α × Workplace ω α :=
  (.refused error, { w with pool := w.pool.countRefusal })

def complete (factory : Factory ω α) (grant : Grant α) (w : Workplace ω α) :
    Acquired α × Workplace ω α :=
  match grant with
  | .reuse member => w.handOut member
  | .create =>
    match w.create factory with
    | (.ok member, w) => w.handOut member
    | (.refused error, w) => (.refused error, w)
    | (.aborted cause, w) => (.aborted cause, w)

/-- Gets a connection without waiting; none if every one is in use. -/
def tryAcquireWith (factory : Factory ω α) (w : Workplace ω α) : Acquired α × Workplace ω α :=
  match w.pool.inspect with
  | .closed => w.refuse .closed
  | .granted grant pool => complete factory grant { w with pool }
  | .full => (.ok none, w)

/-- One use that a factory makes of its pool; the cause if that aborts. -/
def perform (k : Connector ω α) (attempt : Workplace ω α → Acquired α × Workplace ω α)
    (use : FactoryUse) (w : Workplace ω α) : Option String × Workplace ω α :=
  match use with
  | .probe => (none, w.note (.probed w.pool.status w.pool.closed))
  | .reenter =>
    match attempt w with
    | (.aborted cause, w) => (some cause, w)
    | (.ok (some member), w) => (none, (w.note (.reentered (.ok (some member)))).giveBack k member)
    | (answer, w) => (none, w.note (.reentered answer))
  | .close => (none, w.close k)

def performAll (k : Connector ω α) (attempt : Workplace ω α → Acquired α × Workplace ω α) :
    List FactoryUse → Workplace ω α → Option String × Workplace ω α
  | [], w => (none, w)
  | use :: uses, w =>
    match perform k attempt use w with
    | (some cause, w) => (some cause, w)
    | (none, w) => performAll k attempt uses w

/-- How a factory call ends once it is through with its pool. -/
def conclude (k : Connector ω α) (ending : FactoryEnding) (w : Workplace ω α) :
    Attempt String α × Workplace ω α :=
  match ending with
  | .fail cause => (.refused cause, w)
  | .abort cause => (.aborted cause, w)
  | .connect =>
    let (attempt, world) := k.connect w.world
    (attempt, { w with world })

/-- One factory call that may nest further calls up to `depth`, its own included. A factory
that is not `reentrant` has no access to its pool. Calls nested too deep do not come about. -/
def callFactory (k : Connector ω α) (reentrant : Bool) : (depth : Nat) → Factory ω α
  | 0, w => (.aborted "no slot is free", w)
  | depth + 1, w =>
    let (call, w) := w.nextCall
    let uses := if reentrant then call.uses else []
    match performAll k (tryAcquireWith (callFactory k reentrant depth)) uses w with
    | (some cause, w) => (.aborted cause, w)
    | (none, w) => conclude k call.ending w

/-- The factory of a pool: calls nest at most as deep as there are free slots. -/
def factory (k : Connector ω α) (reentrant : Bool) (w : Workplace ω α) : Factory ω α :=
  callFactory k reentrant w.pool.freeSlots

def tryAcquire (k : Connector ω α) (reentrant : Bool) (w : Workplace ω α) :
    Acquired α × Workplace ω α :=
  tryAcquireWith (factory k reentrant w) w

/-- Gets a connection for a caller who comes at the moment `now` and waits for one at most as long
as `timeout`. Nobody else acts while the caller waits, so the second look after the deadline shows
what the first one did. The deadline is fixed before the pool is looked at. -/
def acquireWithin (k : Connector ω α) (reentrant : Bool) (now : Nat) (timeout : Option Duration)
    (w : Workplace ω α) : Waited α × Workplace ω α :=
  if timeout.any (!·.fitsClock now) then
    (.answered (.aborted "overflow when adding duration to instant"), w)
  else
    match w.tryAcquire k reentrant with
    | (.ok (some member), w) => (.answered (.ok member), w)
    | (.refused error, w) => (.answered (.refused error), w)
    | (.aborted cause, w) => (.answered (.aborted cause), w)
    | (.ok none, w) =>
      match timeout with
      | none => (.blocked, w)
      | some after =>
        (.answered (.refused (.timeout after)), { w with pool := w.pool.countRefusal })

def acquire (k : Connector ω α) (reentrant : Bool) (now : Nat) (w : Workplace ω α) :
    Waited α × Workplace ω α :=
  w.acquireWithin k reentrant now w.pool.settings.connectionTimeout

/-- Gets a connection in a task of its own, which turns an abort into an error. -/
def acquireInTask (k : Connector ω α) (reentrant : Bool) (now : Nat) (w : Workplace ω α) :
    Waited α × Workplace ω α :=
  match w.acquire k reentrant now with
  | (.answered (.aborted cause), w) => (.answered (.refused (.task cause)), w)
  | found => found

/-- Makes `n` connections up front. The factory has no access to a pool that is not built. -/
def warmUp (k : Connector ω α) : (n : Nat) → Workplace ω α → Attempt PoolError Unit × Workplace ω α
  | 0, w => (.ok (), w)
  | n + 1, w =>
    let w := { w with pool := w.pool.takeSlot }
    match w.create (callFactory k false 1) with
    | (.ok member, w) => warmUp k n { w with pool := w.pool.addIdle member }
    | (.refused error, w) => (.refused error, w)
    | (.aborted cause, w) => (.aborted cause, w)

end ConnectionPool.Workplace

namespace ConnectionPool

def Pool.empty {α : Type} (settings : PoolSettings) : Pool α := { settings }

/-- Builds a pool with its first connections, if the settings are valid and there is a factory.
If a connection cannot be made, those made before are ended, the first first. -/
def Pool.build {ω α : Type} (k : Connector ω α) (settings : PoolSettings)
    (script : Option (List FactoryCall)) (world : ω) :
    Attempt PoolError (Pool α × List FactoryCall) × ω :=
  match settings.validate with
  | .error error => (.refused error, world)
  | .ok () =>
    match script with
    | none => (.refused (.settings "a connection factory is required"), world)
    | some script =>
      match Workplace.warmUp k settings.minConnections ⟨Pool.empty settings, script, [], world⟩ with
      | (.ok (), w) => (.ok (w.pool, w.script), w.world)
      | (.refused error, w) =>
        (.refused error, Workplace.destroyAll k w.pool.idle.reverse w.world)
      | (.aborted cause, w) =>
        (.aborted cause, Workplace.destroyAll k w.pool.idle.reverse w.world)

end ConnectionPool

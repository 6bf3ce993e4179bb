import ConnectionPool.Pool.Settings
import ConnectionPool.Ratio

/-!
# Pools

The books of a pool: its idle connections, the number of connections it answers for, and its
counts. Each operation here is one that a pool carries out undivided; between two of them other
callers may come in. A slot is counted before its connection is made and taken back if that fails.
-/

namespace ConnectionPool

/-- What a pool remembers of a connection. -/
structure Metadata where
  /-- The number the pool gave it. -/
  id : Nat
  /-- Whether it was ever handed out. -/
  handedOut : Bool
  checkouts : Nat
  deriving DecidableEq, Repr

namespace Metadata

def fresh (id : Nat) : Metadata := ⟨id, false, 0⟩

def recordCheckout (m : Metadata) : Metadata :=
  { m with handedOut := true, checkouts := m.checkouts + 1 }

end Metadata

structure Member (α : Type) where
  conn : α
  metadata : Metadata
  deriving DecidableEq, Repr

def Member.recordCheckout {α : Type} (m : Member α) : Member α :=
  { m with metadata := m.metadata.recordCheckout }

structure Metrics where
  connectionsCreated : Nat := 0
  /-- Connections ended because the pool was closed. -/
  connectionsClosed : Nat := 0
  creationFailures : Nat := 0
  checkoutsSuccessful : Nat := 0
  checkoutsFailed : Nat := 0
  /-- Connections that came back to the idle ones. -/
  returns : Nat := 0
  deriving DecidableEq, Repr

/-- The part of the checkouts that succeeded; one if there were none. -/
def Metrics.successRate (m : Metrics) : Float := share 1 m.checkoutsSuccessful m.checkoutsFailed

structure Status where
  available : Nat
  inUse : Nat
  total : Nat
  max : Nat
  deriving DecidableEq, Repr

namespace Status

/-- Connections in use, in percent of those allowed. -/
def utilization (s : Status) : Float := percentage s.inUse s.max

def isAtCapacity (s : Status) : Bool := s.max ≤ s.total && s.available == 0

end Status

structure Pool (α : Type) where
  settings : PoolSettings
  /-- The latest returned first. -/
  idle : List (Member α) := []
  /-- Connections idle or out, and slots whose connection is being made. -/
  created : Nat := 0
  closed : Bool := false
  /-- The number of the next connection. -/
  nextId : Nat := 1
  metrics : Metrics := {}
  deriving DecidableEq, Repr

/-- What a caller may do after a look at the pool: take an idle connection, or make one in a
slot that is its own from now on. -/
inductive Grant (α : Type) where
  | reuse (member : Member α)
  | create

inductive Inspection (α : Type) where
  | closed
  | granted (grant : Grant α) (after : Pool α)
  | full

namespace Pool

variable {α : Type}

def status (p : Pool α) : Status where
  available := p.idle.length
  inUse := p.created - p.idle.length
  total := p.created
  max := p.settings.maxConnections

/-- Slots that are not taken. -/
def freeSlots (p : Pool α) : Nat := p.settings.maxConnections - p.created

def takeSlot (p : Pool α) : Pool α := { p with created := p.created + 1 }

def freeSlot (p : Pool α) : Pool α := { p with created := p.created - 1 }

/-- Takes the latest returned connection, or else a slot. -/
def reserve? (p : Pool α) : Option (Grant α × Pool α) :=
  match p.idle with
  | member :: idle => some (.reuse member, { p with idle })
  | [] => if p.created < p.settings.maxConnections then some (.create, p.takeSlot) else none

def inspect (p : Pool α) : Inspection α :=
  if p.closed then .closed
  else
    match p.reserve? with
    | some (grant, after) => .granted grant after
    | none => .full

theorem inspect_eq_closed {p : Pool α} : p.inspect = .closed ↔ p.closed = true := by
  cases hc : p.closed
  · cases hr : p.reserve? <;> simp [inspect, hc, hr]
  · simp [inspect, hc]

theorem inspect_eq_full {p : Pool α} :
    p.inspect = .full ↔
      p.closed = false ∧ p.idle = [] ∧ p.settings.maxConnections ≤ p.created := by
  cases hc : p.closed
  · cases hi : p.idle with
    | nil =>
      by_cases h : p.created < p.settings.maxConnections
      · simp [inspect, reserve?, hc, hi, h]
      · simp [inspect, reserve?, hc, hi, h]
        omega
    | cons member rest => simp [inspect, reserve?, hc, hi]
  · simp [inspect, hc]

theorem inspect_eq_reuse {p after : Pool α} {member : Member α}
    (h : p.inspect = .granted (.reuse member) after) :
    p.closed = false ∧ p.idle = member :: after.idle ∧ after = { p with idle := after.idle } := by
  cases hc : p.closed
  · cases hi : p.idle with
    | nil => by_cases hs : p.created < p.settings.maxConnections <;>
        simp [inspect, reserve?, hc, hi, hs] at h
    | cons head rest =>
      simp only [inspect, reserve?, hc, hi, Bool.false_eq_true, if_false, Inspection.granted.injEq,
        Grant.reuse.injEq] at h
      obtain ⟨rfl, rfl⟩ := h
      simp
  · simp [inspect, hc] at h

theorem inspect_of_idle {p : Pool α} {member : Member α} {rest : List (Member α)}
    (hc : p.closed = false) (hi : p.idle = member :: rest) :
    p.inspect = .granted (.reuse member) { p with idle := rest } := by
  simp only [inspect, reserve?, hc, hi, Bool.false_eq_true, if_false]

theorem inspect_eq_create {p after : Pool α} :
    p.inspect = .granted .create after ↔
      p.closed = false ∧ p.idle = [] ∧ p.created < p.settings.maxConnections ∧
        after = p.takeSlot := by
  cases hc : p.closed
  · cases hi : p.idle with
    | nil =>
      by_cases h : p.created < p.settings.maxConnections <;>
        simp [inspect, reserve?, hc, hi, h, eq_comm]
    | cons member rest => simp [inspect, reserve?, hc, hi]
  · simp [inspect, hc]

/-- The number for a connection about to be made, never given again. -/
def takeId (p : Pool α) : Nat × Pool α := (p.nextId, { p with nextId := p.nextId + 1 })

def countCreated (p : Pool α) : Pool α :=
  { p with metrics := { p.metrics with connectionsCreated := p.metrics.connectionsCreated + 1 } }

/-- A creation that failed is a failed checkout as well. -/
def countCreationFailure (p : Pool α) : Pool α :=
  { p with metrics := { p.metrics with
      creationFailures := p.metrics.creationFailures + 1
      checkoutsFailed := p.metrics.checkoutsFailed + 1 } }

def countCheckout (p : Pool α) : Pool α :=
  { p with metrics := { p.metrics with
      checkoutsSuccessful := p.metrics.checkoutsSuccessful + 1 } }

def countRefusal (p : Pool α) : Pool α :=
  { p with metrics := { p.metrics with checkoutsFailed := p.metrics.checkoutsFailed + 1 } }

def countClosed (p : Pool α) (n : Nat) : Pool α :=
  { p with metrics := { p.metrics with connectionsClosed := p.metrics.connectionsClosed + n } }

def countReturn (p : Pool α) : Pool α :=
  { p with metrics := { p.metrics with returns := p.metrics.returns + 1 } }

def addIdle (p : Pool α) (member : Member α) : Pool α := { p with idle := member :: p.idle }

/-- Takes a connection back. A closed pool has no use for it: it gives the slot up and leaves the
connection to the caller. -/
def takeBack (p : Pool α) (member : Member α) : Option (Member α) × Pool α :=
  if p.closed then (some member, p.freeSlot) else (none, p.addIdle member)

theorem takeBack_eq_none {p after : Pool α} {member : Member α} :
    p.takeBack member = (none, after) ↔ p.closed = false ∧ after = p.addIdle member := by
  cases h : p.closed <;> simp [takeBack, h, eq_comm]

theorem takeBack_eq_some {p after : Pool α} {member left : Member α} :
    p.takeBack member = (some left, after) ↔
      p.closed = true ∧ left = member ∧ after = p.freeSlot := by
  cases h : p.closed <;> simp [takeBack, h, eq_comm]

def giveBack (p : Pool α) (member : Member α) : Option (Member α) × Pool α :=
  match p.takeBack member with
  | (some left, p) => (some left, p.countClosed 1)
  | (none, p) => (none, p.countReturn)

/-- Shuts the pool and leaves its idle connections to the caller, the earliest returned first. -/
def shut (p : Pool α) : List (Member α) × Pool α :=
  (p.idle.reverse,
   { p with closed := true, idle := [], created := p.created - p.idle.length })

def close (p : Pool α) : List (Member α) × Pool α :=
  let (left, p) := p.shut
  (left, p.countClosed left.length)

end Pool

end ConnectionPool

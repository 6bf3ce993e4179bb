import ConnectionPool.Proofs.Nesting.Basic

/-!
# Creations that fail

A creation that fails, with an error or by aborting, takes back its own slot and nothing else: all
that remains is what the factory did to the pool itself, and the numbers its calls took.
-/

namespace ConnectionPool

variable {ω α : Type}

/-- How a factory call ends without a connection. -/
inductive Breakdown where
  | refused (cause : String)
  | aborted (cause : String)
  deriving DecidableEq, Repr

namespace Breakdown

def ofCall : Breakdown → Attempt String α
  | refused cause => .refused cause
  | aborted cause => .aborted cause

/-- What the caller hears of it. -/
def answer {β : Type} : Breakdown → Attempt PoolError β
  | refused cause => .refused (.factory cause)
  | aborted cause => .aborted cause

/-- What is counted for it. -/
def count (m : Metrics) : Breakdown → Metrics
  | refused _ => { m with
      creationFailures := m.creationFailures + 1
      checkoutsFailed := m.checkoutsFailed + 1 }
  | aborted _ => m

/-- What the pool makes of its books. -/
def settle (p : Pool α) : Breakdown → Pool α
  | refused _ => p.freeSlot.countCreationFailure
  | aborted _ => p.freeSlot

end Breakdown

/-- The books `after` a creation that failed, had the uses of the pool begun with the books
`before` and `left` it with others: the slot of the creation is free again, and a number is taken
for each of the `calls` of the factory. -/
structure Pool.Restored (b : Breakdown) (calls : Nat) (before left after : Pool α) : Prop where
  idle_eq : after.idle = left.idle
  created_succ : after.created + 1 = left.created
  closed_eq : after.closed = left.closed
  settings_eq : after.settings = before.settings
  nextId_eq : after.nextId = before.nextId + calls
  metrics_eq : after.metrics = b.count left.metrics

namespace Pool

variable {b : Breakdown} {n : Nat} {p left : Pool α}

theorem Course.restored (h : Course n p.takeSlot.takeId.2 left) (hp : p.MustCreate) :
    Restored b (n + 1) p left (b.settle left) := by
  have hcreated := h.held hp
  have hnext : left.nextId = p.nextId + 1 + n := h.nextId_eq
  have hsettings : left.settings = p.settings := h.settings_eq
  have hnumbers : left.nextId = p.nextId + (n + 1) := by omega
  cases b with
  | refused cause => exact ⟨rfl, hcreated, rfl, hsettings, hnumbers, rfl⟩
  | aborted cause => exact ⟨rfl, hcreated, rfl, hsettings, hnumbers, rfl⟩

/-- A pool left open serves the next caller: it has a connection idle or a slot free. -/
theorem Restored.serves {after : Pool α} (hr : Restored b (n + 1) p left after)
    (h : Course n p.takeSlot.takeId.2 left) (hp : p.MustCreate) (ho : after.closed = false) :
    after.idle ≠ [] ∨ after.MustCreate := by
  by_cases hidle : after.idle = []
  · have hroom := h.room hp.room
    have hsettings : left.settings = p.settings := h.settings_eq
    have hcreated := hr.created_succ
    refine .inr ⟨ho, hidle, ?_⟩
    rw [hr.settings_eq, ← hsettings]
    omega
  · exact .inl hidle

end Pool

/-- The same answer to a caller who does not wait. -/
def Attempt.unwaited : Attempt PoolError (Member α) → Acquired α
  | ok member => .ok (some member)
  | refused error => .refused error
  | aborted cause => .aborted cause

namespace Workplace

open Pool

variable {k : Connector ω α} {reentrant : Bool} {w left : Workplace ω α} {n : Nat}
  {used : Option String × Workplace ω α} {b : Breakdown}

/-- What the factory call for the next caller does with its pool: `n` more calls and the state
`used` come of it. -/
def Works (k : Connector ω α) (reentrant : Bool) (w : Workplace ω α) (n : Nat)
    (used : Option String × Workplace ω α) : Prop :=
  Uses k (if reentrant then w.enter.1.uses else []) w.enter.2 n used

/-- Whatever a factory is told to do with its pool, its call comes to an end. -/
theorem exists_works (k : Connector ω α) (reentrant : Bool) (hw : w.pool.MustCreate) :
    ∃ n used, w.Works k reentrant n used ∧
      w.factory k reentrant { w with pool := w.pool.takeSlot.takeId.2 } =
        outcome k w.enter.1.ending used := by
  have hfits : FitsDepth w.pool.freeSlots w.pool := fun _ => Nat.le_refl _
  obtain ⟨depth, hdepth⟩ := hfits.pos hw
  rw [factory, hdepth, callFactory_succ]
  cases reentrant with
  | false => exact ⟨0, (none, w.enter.2), .done, rfl⟩
  | true =>
    obtain ⟨n, hn⟩ := uses_performAll (k := k) w.enter.1.uses ((hdepth ▸ hfits).enter hw)
    exact ⟨n, _, hn, rfl⟩

theorem Works.factory_eq (h : w.Works k reentrant n used) (hw : w.pool.MustCreate) :
    w.factory k reentrant { w with pool := w.pool.takeSlot.takeId.2 } =
      outcome k w.enter.1.ending used := by
  obtain ⟨m, other, hother, hcall⟩ := exists_works k reentrant hw
  obtain ⟨-, rfl⟩ := hother.unique h
  exact hcall

theorem Works.course (h : w.Works k reentrant n used) :
    Course n w.pool.takeSlot.takeId.2 used.2.pool := by
  have hc := Uses.course h
  rwa [pool_enter] at hc

theorem Works.idle (h : w.Works k reentrant n used)
    (hnone : (if reentrant then w.enter.1.uses else []) = []) :
    n = 0 ∧ used.2.pool = w.pool.takeSlot.takeId.2 := by
  rw [Works, hnone] at h
  cases h
  exact ⟨rfl, pool_enter w⟩

/-- Every caller, whenever it comes and whether it would wait or not, gets the same answer. -/
structure Answers (k : Connector ω α) (reentrant : Bool) (w : Workplace ω α)
    (answer : Attempt PoolError (Member α)) (after : Workplace ω α) : Prop where
  tryAcquire_eq : w.tryAcquire k reentrant = (answer.unwaited, after)
  acquireWithin_eq : ∀ (now : Nat) (timeout : Option Duration),
    (∀ limit ∈ timeout, limit.fitsClock now) →
      w.acquireWithin k reentrant now timeout = (.answered answer, after)

theorem answers_of_tryAcquire {answer : Attempt PoolError (Member α)}
    (h : w.tryAcquire k reentrant = (answer.unwaited, left)) :
    w.Answers k reentrant answer left := by
  refine ⟨h, ?_⟩
  intro now timeout hfits
  rw [acquireWithin, Duration.any_overdue_eq_false.mpr hfits, if_neg Bool.false_ne_true, h]
  cases answer <;> rfl

theorem Answers.acquire_eq {answer : Attempt PoolError (Member α)} {after : Workplace ω α}
    (h : w.Answers k reentrant answer after) {now : Nat}
    (hfits : ∀ limit ∈ w.pool.settings.connectionTimeout, limit.fitsClock now) :
    w.acquire k reentrant now = (.answered answer, after) := h.acquireWithin_eq now _ hfits

/-- A deadline that the clock cannot name aborts a caller before the pool is looked at. -/
theorem acquireWithin_overdue {limit : Duration} {now : Nat} (h : limit.fitsClock now = false)
    (w : Workplace ω α) : w.acquireWithin k reentrant now (some limit) =
      (.answered (.aborted "overflow when adding duration to instant"), w) := by
  rw [acquireWithin, Option.any_some, h]
  rfl

/-- Whether the next caller gets a connection, provided that the factory makes one should it be
called. -/
def Serves (k : Connector ω α) (reentrant : Bool) (w : Workplace ω α) : Prop :=
  (∃ member rest after, w.pool.idle = member :: rest ∧
    w.Answers k reentrant (.ok member.recordCheckout) after) ∨
  w.pool.MustCreate ∧ ∀ n used conn left, w.Works k reentrant n used →
    outcome k w.enter.1.ending used = (.ok conn, left) → ∃ after,
      w.Answers k reentrant (.ok (Member.mk conn (.fresh w.pool.nextId)).recordCheckout) after

/-- Whoever comes to an open pool with idle connections gets the first of them, without a factory
call. -/
theorem answers_of_idle {member : Member α} {rest : List (Member α)} (ho : w.pool.closed = false)
    (hi : w.pool.idle = member :: rest) :
    w.Answers k reentrant (.ok member.recordCheckout)
      { w with pool := { w.pool with idle := rest }.countCheckout } := by
  apply answers_of_tryAcquire
  rw [tryAcquire, tryAcquireWith, inspect_of_idle ho hi]
  rfl

theorem serves_of_idle {member : Member α} {rest : List (Member α)} (ho : w.pool.closed = false)
    (hi : w.pool.idle = member :: rest) : w.Serves k reentrant :=
  .inl ⟨member, rest, _, hi, answers_of_idle ho hi⟩

theorem serves_of_mustCreate (hw : w.pool.MustCreate) : w.Serves k reentrant := by
  refine .inr ⟨hw, ?_⟩
  intro n used conn left hworks hmade
  have hcall := hworks.factory_eq hw
  rw [hmade] at hcall
  exact ⟨_, answers_of_tryAcquire (tryAcquireWith_made hw hcall)⟩

theorem answers_closed (hc : w.pool.closed = true) :
    w.Answers k reentrant (.refused .closed) { w with pool := w.pool.countRefusal } := by
  apply answers_of_tryAcquire
  rw [tryAcquire, tryAcquireWith, inspect_eq_closed.mpr hc]
  rfl

/-- What remains of a creation whose factory call broke down and `left` the pool like this. -/
def retreat (b : Breakdown) (left : Workplace ω α) : Workplace ω α :=
  { left with pool := b.settle left.pool }

theorem Works.answers (h : w.Works k reentrant n used) (hw : w.pool.MustCreate)
    (hb : outcome k w.enter.1.ending used = (b.ofCall, left)) :
    w.Answers k reentrant b.answer (left.retreat b) := by
  have hcall := h.factory_eq hw
  rw [hb] at hcall
  apply answers_of_tryAcquire
  cases b with
  | refused cause => exact tryAcquireWith_failed hw hcall
  | aborted cause => exact tryAcquireWith_aborted hw hcall

/-- Where a connection must be made, the factory call comes to an end whatever it does with its
pool. If it breaks down, every caller hears its cause and the pool is as the call left it, less the
one slot that was taken: as before if the call did not use the pool. The next caller is served
again unless the pool was closed meanwhile. -/
theorem failed_creation_traceless (k : Connector ω α) (reentrant : Bool) (w : Workplace ω α)
    (hw : w.pool.MustCreate) :
    (∃ n used, w.Works k reentrant n used) ∧
      ∀ n used b left, w.Works k reentrant n used →
        outcome k w.enter.1.ending used = (Breakdown.ofCall b, left) →
          w.Answers k reentrant b.answer (left.retreat b) ∧
          left.pool = used.2.pool ∧
          Restored b (n + 1) w.pool left.pool (left.retreat b).pool ∧
          ((if reentrant then w.enter.1.uses else []) = [] →
            n = 0 ∧ (left.retreat b).pool.idle = w.pool.idle ∧
              (left.retreat b).pool.created = w.pool.created ∧
              (left.retreat b).pool.closed = w.pool.closed ∧
              (left.retreat b).pool.metrics = b.count w.pool.metrics) ∧
          ((left.retreat b).pool.closed = false → (left.retreat b).Serves k reentrant) ∧
          ((left.retreat b).pool.closed = true →
            ∃ after, (left.retreat b).Answers k reentrant (.refused .closed) after) := by
  refine ⟨?_, ?_⟩
  · obtain ⟨n, used, hworks, -⟩ := exists_works k reentrant hw
    exact ⟨n, used, hworks⟩
  · intro n used b left hworks hb
    have hpool := pool_outcome k w.enter.1.ending used
    rw [hb] at hpool
    have hcourse := hworks.course
    rw [← hpool] at hcourse
    have hrestored : Restored b (n + 1) w.pool left.pool (left.retreat b).pool :=
      hcourse.restored hw
    refine ⟨hworks.answers hw hb, hpool, hrestored, ?_, ?_, ?_⟩
    · intro hnone
      obtain ⟨hn, hsame⟩ := hworks.idle hnone
      rw [← hpool] at hsame
      have hcreated := hrestored.created_succ
      rw [hsame] at hrestored hcreated
      exact ⟨hn, hrestored.idle_eq, Nat.succ.inj hcreated, hrestored.closed_eq,
        hrestored.metrics_eq⟩
    · intro ho
      cases hrestored.serves hcourse hw ho with
      | inl hidle =>
        obtain ⟨member, rest, hi⟩ := List.exists_cons_of_ne_nil hidle
        exact serves_of_idle ho hi
      | inr hmust => exact serves_of_mustCreate hmust
    · intro hc
      exact ⟨_, answers_closed hc⟩

/-- Connections numbered as they are made. -/
private def numbering : Connector Nat Nat where
  connect next := (.ok next, next + 1)
  destroy _ next := next

/-- A pool of two whose factory looks at it, asks it for a connection, closes it and fails. -/
private def breaking : Workplace Nat Nat where
  pool := { settings := { maxConnections := 2 } }
  script := [⟨[.probe, .reenter, .close], .fail "down"⟩]
  log := []
  world := 0

theorem failed_creation_traceless_closing :
    breaking.pool.MustCreate ∧ ∃ left after,
      breaking.Answers numbering true (.refused (.factory "down")) after ∧
      Restored (.refused "down") 2 breaking.pool left after.pool ∧
      left.created = 1 ∧ left.closed = true ∧
      after.Answers numbering true (.refused .closed)
        { after with pool := after.pool.countRefusal } := by
  have hw : breaking.pool.MustCreate := ⟨rfl, rfl, by decide⟩
  have hclosing (v : Workplace Nat Nat) : Uses numbering [.close] v 0 (none, v.close numbering) :=
    .plain (breaking.factory numbering true) nofun .done
  -- The call it leads to finds one slot taken and makes a connection in the other.
  have hnested := Uses.nested (k := numbering) (w := (perform numbering
    (tryAcquireWith (breaking.factory numbering true)) .probe breaking.enter.2).2)
    ⟨rfl, rfl, by decide⟩ .done rfl (hclosing _)
  have hworks : breaking.Works numbering true 1 _ :=
    .plain (breaking.factory numbering true) nofun hnested
  obtain ⟨hanswers, -, hrestored, -, -, -⟩ := (failed_creation_traceless numbering true
    breaking hw).2 _ _ (.refused "down") _ hworks rfl
  exact ⟨hw, _, _, hanswers, hrestored, rfl, rfl, answers_closed rfl⟩

end Workplace

end ConnectionPool

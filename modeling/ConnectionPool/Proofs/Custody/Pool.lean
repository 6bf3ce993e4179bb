import ConnectionPool.Connection.Connector
import ConnectionPool.Proofs.Custody.Charge
import ConnectionPool.Proofs.Trades

/-!
# The charge of pools

A pool keeps what its connections keep. Since all it does is trade connections, the charges of the
pool, of what its caller gets and of the engine add up to the same.
-/

namespace ConnectionPool

def Member.charge (m : Member Connection) : Charge := m.conn.charge

def Member.chargeAll (l : List (Member Connection)) : Charge := (l.map charge).sum

def Pool.charge (p : Pool Connection) : Charge := Member.chargeAll p.idle

/-- The charge of what an attempt came to, if it did. -/
def Attempt.charge {ε β : Type} (weigh : β → Charge) : Attempt ε β → Charge
  | .ok value => weigh value
  | _ => 0

def Member.charge? (m : Option (Member Connection)) : Charge := chargeAll m.toList

namespace Member

@[simp] theorem chargeAll_nil : chargeAll [] = 0 := rfl

@[simp] theorem chargeAll_cons (m : Member Connection) (l : List (Member Connection)) :
    chargeAll (m :: l) = m.charge + chargeAll l := rfl

theorem chargeAll_eq (l : List (Member Connection)) :
    chargeAll l = ((conns l).map Connection.charge).sum := by
  rw [conns, Multiset.map_coe, Multiset.sum_coe, List.map_map]
  rfl

theorem chargeAll_reverse (l : List (Member Connection)) : chargeAll l.reverse = chargeAll l := by
  rw [chargeAll_eq, conns_reverse, ← chargeAll_eq]

@[simp] theorem charge?_none : charge? none = 0 := rfl

@[simp] theorem charge?_some (m : Member Connection) : charge? (some m) = m.charge :=
  add_zero m.charge

end Member

/-- Whether a connector neither loses a statement nor makes one up. -/
structure Connector.Level (k : Connector Engine Connection) : Prop where
  connect : ∀ e, (k.connect e).1.charge Connection.charge + (k.connect e).2.charge = e.charge
  destroy : ∀ c e, (k.destroy c e).charge = c.charge + e.charge

theorem Connector.toTarget_level (target : String) (settings : ConnectionSettings) :
    (Connector.toTarget target settings).Level := by
  refine ⟨?_, Connection.charge_destroy⟩
  intro e
  simp only [Connector.toTarget]
  cases hc : Connection.connect e target settings with
  | mk attempt f =>
    obtain ⟨hcharge, hconn⟩ := Connection.charge_connect hc
    cases attempt with
    | ok c =>
      have hempty : c.charge = 0 := hconn c rfl
      simp only [Attempt.mapReason, Attempt.charge]
      rw [hempty, zero_add, hcharge]
    | refused error => simpa [Attempt.mapReason, Attempt.charge] using hcharge
    | aborted cause => simpa [Attempt.mapReason, Attempt.charge] using hcharge

/-- Trades leave charges level. -/
theorem Connector.Level.trades {k : Connector Engine Connection}
    {x y : Multiset Connection × Engine} (hk : k.Level) (h : k.Trades x y) :
    (y.1.map Connection.charge).sum + y.2.charge =
      (x.1.map Connection.charge).sum + x.2.charge := by
  induction h with
  | refl => rfl
  | tail _ hlast ih =>
    rw [← ih]
    cases hlast with
    | connect held e =>
      have hconnect := hk.connect e
      have hmade : (((k.connect e).1.made).map Connection.charge).sum =
          (k.connect e).1.charge Connection.charge := by
        cases (k.connect e).1 <;> simp [Attempt.made, Attempt.charge]
      rw [Multiset.map_add, Multiset.sum_add, hmade]
      linear_combination hconnect
    | destroy c held e =>
      have hdestroy := hk.destroy c e
      rw [Multiset.map_cons, Multiset.sum_cons]
      linear_combination hdestroy

namespace Workplace

variable {k : Connector Engine Connection} {w v : Workplace Engine Connection}

def charge (w : Workplace Engine Connection) : Charge := w.pool.charge + w.world.charge

theorem Trades.charge {got : Option (Member Connection)} (hk : k.Level)
    (h : Trades k w (Member.conns? got) v) : Member.charge? got + v.charge = w.charge := by
  have hlevel := hk.trades h
  simp only [Multiset.map_add, Multiset.sum_add] at hlevel
  simp only [Workplace.charge, Pool.charge, Member.charge?, Member.chargeAll_eq]
  exact (add_assoc ..).symm.trans hlevel

theorem charge_destroyAll (hk : k.Level) (l : List (Member Connection)) (e : Engine) :
    (destroyAll k l e).charge = Member.chargeAll l + e.charge := by
  have hlevel := hk.trades (trades_destroyAll l 0 e)
  simp only [Multiset.map_zero, Multiset.sum_zero, zero_add, add_zero] at hlevel
  rw [hlevel, Member.chargeAll_eq]

theorem charge_giveBack (hk : k.Level) (w : Workplace Engine Connection) (m : Member Connection) :
    (w.giveBack k m).charge = m.charge + w.charge := by
  have hlevel := hk.trades (trades_giveBack w m)
  simp only [Multiset.map_cons, Multiset.sum_cons] at hlevel
  simp only [charge, Pool.charge, Member.chargeAll_eq]
  exact hlevel.trans (add_assoc ..)

theorem charge_close (hk : k.Level) (w : Workplace Engine Connection) :
    (w.close k).charge = w.charge := by
  have hclose : Member.charge? none + (w.close k).charge = w.charge :=
    Trades.charge hk (trades_close w)
  exact (zero_add _).symm.trans hclose

theorem charge_tryAcquire (hk : k.Level) (reentrant : Bool) (w : Workplace Engine Connection) :
    Member.charge? (w.tryAcquire k reentrant).1.member? + (w.tryAcquire k reentrant).2.charge =
      w.charge := (trades_tryAcquire reentrant w).charge hk

theorem charge_acquireWithin (hk : k.Level) (reentrant : Bool) (now : Nat)
    (timeout : Option Duration) (w : Workplace Engine Connection) :
    Member.charge? (w.acquireWithin k reentrant now timeout).1.member? +
      (w.acquireWithin k reentrant now timeout).2.charge = w.charge :=
  (trades_acquireWithin reentrant now timeout w).charge hk

theorem charge_acquireInTask (hk : k.Level) (reentrant : Bool) (now : Nat)
    (w : Workplace Engine Connection) :
    Member.charge? (w.acquireInTask k reentrant now).1.member? +
      (w.acquireInTask k reentrant now).2.charge = w.charge :=
  (trades_acquireInTask reentrant now w).charge hk

end Workplace

theorem Pool.charge_build {k : Connector Engine Connection} (hk : k.Level)
    (settings : PoolSettings) (script : Option (List FactoryCall)) (e : Engine) :
    (Pool.build k settings script e).1.charge (fun made => made.1.charge) +
      (Pool.build k settings script e).2.charge = e.charge := by
  have hlevel := hk.trades (Pool.trades_build settings script e)
  simp only [Multiset.map_zero, Multiset.sum_zero, zero_add] at hlevel
  rw [← hlevel]
  cases (Pool.build k settings script e).1 <;>
    simp [Attempt.charge, Attempt.made, Pool.charge, Member.chargeAll_eq, Pool.conns]

end ConnectionPool

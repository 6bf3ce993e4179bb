import ConnectionPool.Proofs.Stock
import ConnectionPool.Proofs.Traffic.Sequential
import Mathlib.Algebra.BigOperators.Group.Multiset.Basic
import Mathlib.Logic.Relation

/-!
# Trades

A pool makes its connections and ends them with its connector alone. Whatever it does for a caller,
and its factory for it, comes down to such trades with the world; all other connections stay with
the pool or go to the caller.
-/

namespace ConnectionPool

variable {ω α : Type}

/-- The value that an attempt came to, if it did. -/
def Attempt.made {ε β : Type} : Attempt ε β → Multiset β
  | .ok value => {value}
  | _ => 0

def Waited.member? : Waited α → Option (Member α)
  | .answered (.ok m) => some m
  | _ => none

/-- One trade of a pool with the world. -/
inductive Connector.Trade (k : Connector ω α) : Multiset α × ω → Multiset α × ω → Prop
  | connect (held : Multiset α) (w : ω) :
      k.Trade (held, w) ((k.connect w).1.made + held, (k.connect w).2)
  | destroy (c : α) (held : Multiset α) (w : ω) : k.Trade (c ::ₘ held, w) (held, k.destroy c w)

def Connector.Trades (k : Connector ω α) : Multiset α × ω → Multiset α × ω → Prop :=
  Relation.ReflTransGen k.Trade

namespace Connector.Trades

variable {k : Connector ω α} {x y : Multiset α × ω} {held left got : Multiset α} {w v : ω}

theorem refl (x : Multiset α × ω) : k.Trades x x := Relation.ReflTransGen.refl

theorem trans {z : Multiset α × ω} (h : k.Trades x y) (h' : k.Trades y z) : k.Trades x z :=
  Relation.ReflTransGen.trans h h'

end Connector.Trades

namespace Workplace

variable {k : Connector ω α}

/-- Whether trades lead from one moment of a pool's work to another, at which its caller has
`got` some connections. -/
def Trades (k : Connector ω α) (w : Workplace ω α) (got : Multiset α) (v : Workplace ω α) : Prop :=
  k.Trades (w.pool.conns, w.world) (got + v.pool.conns, v.world)

variable {w v u : Workplace ω α} {got : Multiset α}

theorem Trades.refl (w : Workplace ω α) : Trades k w 0 w := by
  rw [Trades, zero_add]
  exact .refl _

theorem Trades.trans (h : Trades k w 0 v) (h' : Trades k v got u) : Trades k w got u := by
  rw [Trades, zero_add] at h
  exact Connector.Trades.trans h h'

theorem Trades.quiet (hconns : v.pool.conns = w.pool.conns) (hworld : v.world = w.world) :
    Trades k w 0 v := by
  rw [Trades, hconns, hworld, zero_add]
  exact .refl _

theorem trades_destroyAll (l : List (Member α)) (held : Multiset α) (world : ω) :
    k.Trades (Member.conns l + held, world) (held, destroyAll k l world) := by
  induction l generalizing world with
  | nil =>
    rw [Member.conns_nil, zero_add]
    exact .refl _
  | cons m l ih =>
    rw [Member.conns_cons, Multiset.cons_add]
    exact .head (.destroy m.conn _ world) (ih (k.destroy m.conn world))

theorem trades_giveBack (w : Workplace ω α) (m : Member α) :
    k.Trades (m.conn ::ₘ w.pool.conns, w.world)
      ((w.giveBack k m).pool.conns, (w.giveBack k m).world) := by
  have hend := trades_destroyAll (k := k) (w.pool.giveBack m).1.toList
    (w.pool.giveBack m).2.conns w.world
  rw [← w.pool.conns_giveBack m]
  exact hend

theorem trades_close (w : Workplace ω α) : Trades k w 0 (w.close k) := by
  obtain ⟨hleft, hempty⟩ := w.pool.conns_close
  have hend := trades_destroyAll (k := k) w.pool.close.1 w.pool.close.2.conns w.world
  rw [hleft, hempty, add_zero] at hend
  rw [Trades, zero_add]
  exact hend

/-- Whether a factory only trades. -/
def Factory.IsTrading (k : Connector ω α) (factory : Factory ω α) : Prop :=
  ∀ w, Trades k w (factory w).1.made (factory w).2

/-- Whether a way to get a connection only trades. -/
def IsTrading (k : Connector ω α) (attempt : Workplace ω α → Acquired α × Workplace ω α) : Prop :=
  ∀ w, Trades k w (Member.conns? (attempt w).1.member?) (attempt w).2

variable {factory : Factory ω α} {attempt : Workplace ω α → Acquired α × Workplace ω α}

theorem trades_create (hf : Factory.IsTrading k factory) (w : Workplace ω α) :
    Trades k w ((w.create factory).1.made.map Member.conn) (w.create factory).2 := by
  have hcall := hf { w with pool := w.pool.takeId.2 }
  rw [create]
  cases hr : factory { w with pool := w.pool.takeId.2 } with
  | mk attempt after =>
    rw [hr] at hcall
    simp only [hr]
    cases attempt with
    | ok conn => exact hcall
    | refused cause => exact hcall
    | aborted cause => exact hcall

theorem trades_complete (hf : Factory.IsTrading k factory) (grant : Grant α)
    (w : Workplace ω α) :
    k.Trades (grant.conns + w.pool.conns, w.world)
      (Member.conns? (complete factory grant w).1.member? + (complete factory grant w).2.pool.conns,
        (complete factory grant w).2.world) := by
  cases grant with
  | reuse m => exact .refl _
  | create =>
    have hcreate := trades_create hf w
    simp only [complete, Grant.conns, zero_add]
    cases hr : w.create factory with
    | mk attempt after =>
      rw [hr] at hcreate
      cases attempt with
      | ok m => exact hcreate
      | refused error => exact hcreate
      | aborted cause => exact hcreate

theorem tryAcquireWith_isTrading (hf : Factory.IsTrading k factory) :
    IsTrading k (tryAcquireWith factory) := by
  intro w
  rw [tryAcquireWith]
  cases hi : w.pool.inspect with
  | closed => exact .quiet rfl rfl
  | full => exact .refl w
  | granted grant after =>
    have hcomplete := trades_complete hf grant { w with pool := after }
    rw [Pool.conns_inspect hi] at hcomplete
    exact hcomplete

theorem trades_perform (ha : IsTrading k attempt) (use : FactoryUse) (w : Workplace ω α) :
    Trades k w 0 (perform k attempt use w).2 := by
  cases use with
  | probe => exact .quiet rfl rfl
  | close => exact trades_close w
  | reenter =>
    have hw := ha w
    simp only [perform]
    cases hr : attempt w with
    | mk answer after =>
      rw [hr] at hw
      cases answer with
      | ok found =>
        cases found with
        | none => exact hw.trans (.quiet rfl rfl)
        | some m =>
          have hback := trades_giveBack (k := k) (after.note (.reentered (.ok (some m)))) m
          rw [Trades, zero_add]
          exact Connector.Trades.trans hw hback
      | refused error => exact hw.trans (.quiet rfl rfl)
      | aborted cause => exact hw

theorem trades_performAll (ha : IsTrading k attempt) (uses : List FactoryUse)
    (w : Workplace ω α) : Trades k w 0 (performAll k attempt uses w).2 := by
  induction uses generalizing w with
  | nil => exact .refl w
  | cons use uses ih =>
    have hone := trades_perform ha use w
    simp only [performAll]
    cases hr : perform k attempt use w with
    | mk cause after =>
      rw [hr] at hone
      cases cause with
      | some cause => exact hone
      | none => exact hone.trans (ih after)

theorem trades_conclude (ending : FactoryEnding) (w : Workplace ω α) :
    Trades k w (conclude k ending w).1.made (conclude k ending w).2 := by
  cases ending with
  | fail cause => exact .refl w
  | abort cause => exact .refl w
  | connect => exact .single (.connect w.pool.conns w.world)

/-- However deep the calls of a factory nest, they only trade. -/
theorem callFactory_isTrading (reentrant : Bool) (depth : Nat) :
    Factory.IsTrading k (callFactory k reentrant depth) := by
  induction depth with
  | zero =>
    intro w
    exact .refl w
  | succ depth ih =>
    intro w
    have hnext : Trades k w 0 w.nextCall.2 := by
      rw [nextCall]
      split
      · exact .refl w
      · exact .quiet rfl rfl
    have huses := hnext.trans (trades_performAll (tryAcquireWith_isTrading ih)
      (if reentrant then w.nextCall.1.uses else []) w.nextCall.2)
    simp only [callFactory]
    cases hr : performAll k (tryAcquireWith (callFactory k reentrant depth))
        (if reentrant then w.nextCall.1.uses else []) w.nextCall.2 with
    | mk cause after =>
      rw [hr] at huses
      cases cause with
      | some cause => exact huses
      | none => exact huses.trans (trades_conclude w.nextCall.1.ending after)

theorem trades_tryAcquire (reentrant : Bool) (w : Workplace ω α) :
    Trades k w (Member.conns? (w.tryAcquire k reentrant).1.member?) (w.tryAcquire k reentrant).2 :=
  tryAcquireWith_isTrading (callFactory_isTrading reentrant w.pool.freeSlots) w

theorem trades_acquireWithin (reentrant : Bool) (now : Nat) (timeout : Option Duration)
    (w : Workplace ω α) :
    Trades k w (Member.conns? (w.acquireWithin k reentrant now timeout).1.member?)
      (w.acquireWithin k reentrant now timeout).2 := by
  have htry := trades_tryAcquire (k := k) reentrant w
  rw [acquireWithin]
  split
  · exact .refl w
  · cases hr : w.tryAcquire k reentrant with
    | mk answer after =>
      rw [hr] at htry
      cases answer with
      | ok found =>
        cases found with
        | some m => exact htry
        | none =>
          cases timeout with
          | none => exact htry
          | some after => exact htry.trans (.quiet rfl rfl)
      | refused error => exact htry
      | aborted cause => exact htry

theorem acquireInTask_same (k : Connector ω α) (reentrant : Bool) (now : Nat)
    (w : Workplace ω α) :
    (w.acquireInTask k reentrant now).1.member? = (w.acquire k reentrant now).1.member? ∧
      (w.acquireInTask k reentrant now).2 = (w.acquire k reentrant now).2 := by
  rw [acquireInTask]
  split
  · rename_i hr
    rw [hr]
    exact ⟨rfl, rfl⟩
  · exact ⟨rfl, rfl⟩

theorem trades_acquireInTask (reentrant : Bool) (now : Nat) (w : Workplace ω α) :
    Trades k w (Member.conns? (w.acquireInTask k reentrant now).1.member?)
      (w.acquireInTask k reentrant now).2 := by
  obtain ⟨hmember, hafter⟩ := acquireInTask_same k reentrant now w
  rw [hmember, hafter]
  exact trades_acquireWithin reentrant now w.pool.settings.connectionTimeout w

theorem trades_warmUp (n : Nat) (w : Workplace ω α) : Trades k w 0 (warmUp k n w).2 := by
  induction n generalizing w with
  | zero => exact .refl w
  | succ n ih =>
    have hcreate := trades_create (callFactory_isTrading (k := k) false 1)
      { w with pool := w.pool.takeSlot }
    rw [warmUp]
    cases hr : create (callFactory k false 1) { w with pool := w.pool.takeSlot } with
    | mk attempt after =>
      rw [hr] at hcreate
      cases attempt with
      | ok m =>
        have hidle : Trades k w 0 { after with pool := after.pool.addIdle m } := by
          rw [Trades, zero_add]
          exact hcreate
        exact hidle.trans (ih _)
      | refused error => exact hcreate
      | aborted cause => exact hcreate

end Workplace

/-- Building a pool trades, and if that fails, nothing is left of it. -/
theorem Pool.trades_build {k : Connector ω α} (settings : PoolSettings)
    (script : Option (List FactoryCall)) (w : ω) :
    k.Trades (0, w)
      (((Pool.build k settings script w).1.made.map fun made => made.1.conns).sum,
        (Pool.build k settings script w).2) := by
  unfold Pool.build
  split
  · exact .refl _
  · cases script with
    | none => exact .refl _
    | some script =>
      have hwarm := Workplace.trades_warmUp (k := k) settings.minConnections
        ⟨Pool.empty settings, script, [], w⟩
      have hempty : (Pool.empty settings : Pool α).conns = 0 := rfl
      rw [Workplace.Trades, zero_add, hempty] at hwarm
      simp only
      cases hr : Workplace.warmUp k settings.minConnections
          ⟨Pool.empty settings, script, [], w⟩ with
      | mk attempt after =>
        rw [hr] at hwarm
        have hend := Workplace.trades_destroyAll (k := k) after.pool.idle.reverse 0 after.world
        rw [Member.conns_reverse, add_zero] at hend
        cases attempt with
        | ok done => simpa [Attempt.made] using hwarm
        | refused error => exact Connector.Trades.trans hwarm hend
        | aborted cause => exact Connector.Trades.trans hwarm hend

end ConnectionPool

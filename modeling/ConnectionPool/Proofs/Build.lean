import ConnectionPool.Pool.Acquire
import ConnectionPool.Proofs.Ledger

/-!
# Built pools

What is known of a pool that was built and not used yet: it is open, holds the connections that its
settings ask for up front, all of them idle, and gave each a number of its own.
-/

namespace ConnectionPool

variable {ω α : Type}

def Pool.idleIds (p : Pool α) : List Nat := p.idle.map Member.id

/-- A pool that is still warming up, or has done so and was not used since. -/
structure Pool.Warm (p : Pool α) : Prop where
  isOpen : p.closed = false
  created_eq : p.created = p.idle.length
  nodup : p.idleIds.Nodup
  lt_nextId : ∀ id ∈ p.idleIds, id < p.nextId
  metrics_eq : p.metrics = { connectionsCreated := p.idle.length }

theorem Pool.Warm.empty (settings : PoolSettings) : (Pool.empty settings : Pool α).Warm :=
  ⟨rfl, rfl, List.nodup_nil, fun _ h => absurd h List.not_mem_nil, rfl⟩

theorem Pool.Warm.grow {p : Pool α} (h : p.Warm) (conn : α) :
    (p.takeSlot.takeId.2.countCreated.addIdle ⟨conn, .fresh p.nextId⟩).Warm where
  isOpen := h.isOpen
  created_eq := congrArg (· + 1) h.created_eq
  nodup := List.nodup_cons.mpr ⟨fun hm => absurd (h.lt_nextId _ hm) (Nat.lt_irrefl _), h.nodup⟩
  lt_nextId := by
    intro id hid
    obtain rfl | hm := List.mem_cons.mp hid
    · exact Nat.lt_succ_self _
    · exact Nat.lt_succ_of_lt (h.lt_nextId id hm)
  metrics_eq := by
    have hm : p.takeSlot.takeId.2.metrics = { connectionsCreated := p.idle.length } := h.metrics_eq
    rw [addIdle, countCreated, hm]
    rfl

namespace Workplace

theorem callFactory_pool (k : Connector ω α) (depth : Nat) (w : Workplace ω α) :
    (callFactory k false depth w).2.pool = w.pool := by
  cases depth with
  | zero => rfl
  | succ depth =>
    have hn : w.nextCall.2.pool = w.pool := by
      rw [nextCall]
      split <;> rfl
    have hc (ending : FactoryEnding) (w : Workplace ω α) :
        (conclude k ending w).2.pool = w.pool := by cases ending <;> rfl
    simp only [callFactory, Bool.false_eq_true, if_false, performAll, hc, hn]

theorem create_ok {k : Connector ω α} {depth : Nat} {w after : Workplace ω α} {m : Member α}
    (h : w.create (callFactory k false depth) = (.ok m, after)) :
    ∃ conn, m = ⟨conn, .fresh w.pool.nextId⟩ ∧ after.pool = w.pool.takeId.2.countCreated := by
  have hp := callFactory_pool k depth { w with pool := w.pool.takeId.2 }
  simp only [create] at h
  split at h
  · rename_i conn world hf
    obtain ⟨rfl, rfl⟩ := Prod.mk.inj h |>.imp Attempt.ok.inj id
    exact ⟨conn, rfl, by simpa [hf] using congrArg Pool.countCreated hp⟩
  all_goals simp at h

theorem warmUp_ok {k : Connector ω α} {n : Nat} {w after : Workplace ω α} (hw : w.pool.Warm)
    (h : warmUp k n w = (.ok (), after)) :
    after.pool.Warm ∧ after.pool.created = w.pool.created + n ∧
      after.pool.settings = w.pool.settings := by
  induction n generalizing w with
  | zero =>
    obtain rfl : w = after := (Prod.mk.inj h).2
    exact ⟨hw, rfl, rfl⟩
  | succ n ih =>
    simp only [warmUp] at h
    split at h
    · rename_i m made hc
      obtain ⟨conn, rfl, hp⟩ := create_ok hc
      have hg := hw.grow conn
      rw [← hp] at hg
      obtain ⟨hwarm, hcreated, hsettings⟩ := ih hg h
      refine ⟨hwarm, ?_, ?_⟩
      · rw [hcreated, hp]
        simp only [Pool.addIdle, Pool.countCreated, Pool.takeId, Pool.takeSlot]
        omega
      · rw [hsettings, hp]
        rfl
    all_goals simp at h

end Workplace

theorem PoolSettings.validate_ok {settings : PoolSettings} (h : settings.validate = .ok ()) :
    0 < settings.maxConnections ∧ settings.minConnections ≤ settings.maxConnections := by
  unfold validate at h
  split at h
  · simp at h
  · split at h
    · simp at h
    · omega

/-- A pool that is built is warm and holds as many connections as its settings ask for. -/
theorem Pool.build_ok {k : Connector ω α} {settings : PoolSettings}
    {script : Option (List FactoryCall)} {world after : ω} {p : Pool α} {rest : List FactoryCall}
    (h : Pool.build k settings script world = (.ok (p, rest), after)) :
    p.Warm ∧ p.settings = settings ∧ p.created = settings.minConnections ∧
      0 < settings.maxConnections ∧ settings.minConnections ≤ settings.maxConnections := by
  unfold Pool.build at h
  split at h
  · simp at h
  · rename_i hv
    split at h
    · simp at h
    · split at h
      · rename_i w hw
        obtain ⟨hok, rfl⟩ := Prod.mk.inj h
        obtain ⟨rfl, rfl⟩ := Prod.mk.inj (Attempt.ok.inj hok)
        obtain ⟨hwarm, hcreated, hsettings⟩ := Workplace.warmUp_ok (.empty settings) hw
        exact ⟨hwarm, hsettings, by simpa [Pool.empty] using hcreated,
          PoolSettings.validate_ok hv⟩
      all_goals simp at h

/-- A connector whose connections are the numbers in turn. -/
def countingConnector : Connector Nat Nat := ⟨fun n => (.ok n, n + 1), fun _ n => n⟩

/-- The least time that the clock cannot add to any moment. -/
def overlongTimeout : Duration := ⟨UInt64.size / 2, 0, by decide, by decide⟩

theorem fitsClock_overlongTimeout (now : Nat) : overlongTimeout.fitsClock now = false :=
  decide_eq_false (Nat.not_lt.mpr (Nat.le_add_left clockEnd now))

def solePool : Pool Nat where
  settings := { minConnections := 1, maxConnections := 1 }
  idle := [⟨0, .fresh 1⟩]
  created := 1
  nextId := 2
  metrics := { connectionsCreated := 1 }

theorem build_solePool :
    Pool.build countingConnector solePool.settings (some []) 0 = (.ok (solePool, []), 1) := rfl

end ConnectionPool

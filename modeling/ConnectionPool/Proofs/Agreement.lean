import ConnectionPool.Proofs.Build
import ConnectionPool.Proofs.Nesting.Failure
import ConnectionPool.Proofs.Traffic.Sequential

/-!
# Ways to acquire

Callers differ in whether and how long they wait, not in what they find. Where a pool has anything
to say to a caller, every caller hears it and leaves the pool in the same state; where it has not,
those who do not wait leave it as it was and the others go to sleep.
-/

namespace ConnectionPool

variable {ω α : Type}

namespace Pool

/-- A caller finds nothing just if the pool is open and says that it is at capacity. -/
theorem inspect_full_iff_atCapacity {p : Pool α} :
    p.inspect = .full ↔ p.closed = false ∧ p.status.isAtCapacity = true := by
  have hcapacity : p.status.isAtCapacity = true ↔
      p.settings.maxConnections ≤ p.created ∧ p.idle.length = 0 := by
    rw [Status.isAtCapacity, Bool.and_eq_true, decide_eq_true_eq, beq_iff_eq]
    rfl
  rw [inspect_eq_full, hcapacity, List.length_eq_zero_iff, and_comm (a := p.idle = [])]

end Pool

namespace Workplace

variable {k : Connector ω α} {reentrant : Bool} {w : Workplace ω α}

theorem exists_unwaited {answer : Acquired α} (h : answer ≠ .ok none) :
    ∃ waited : Attempt PoolError (Member α), answer = waited.unwaited := by
  cases answer with
  | ok found =>
    cases found with
    | none => exact absurd rfl h
    | some member => exact ⟨.ok member, rfl⟩
  | refused error => exact ⟨.refused error, rfl⟩
  | aborted cause => exact ⟨.aborted cause, rfl⟩

/-- Unless the pool is full there is an answer that every caller gets. -/
theorem answers_of_not_full (k : Connector ω α) (reentrant : Bool) (hw : w.pool.inspect ≠ .full) :
    ∃ answer after, w.Answers k reentrant answer after := by
  have hsome : (w.tryAcquire k reentrant).1 ≠ .ok none := fun hnone =>
    hw (tryAcquireWith_none hnone)
  obtain ⟨answer, hanswer⟩ := exists_unwaited hsome
  exact ⟨answer, _, answers_of_tryAcquire (Prod.ext hanswer rfl)⟩

theorem tryAcquire_full (hw : w.pool.inspect = .full) :
    w.tryAcquire k reentrant = (.ok none, w) := tryAcquireWith_full w hw

theorem acquireWithin_blocked (hw : w.pool.inspect = .full) (now : Nat) :
    w.acquireWithin k reentrant now none = (.blocked, w) := by
  rw [acquireWithin, Option.any_none, if_neg Bool.false_ne_true, tryAcquire_full hw]

theorem Answers.not_blocked {answer : Attempt PoolError (Member α)} {after v : Workplace ω α}
    (h : w.Answers k reentrant answer after) (now : Nat) :
    w.acquireWithin k reentrant now none ≠ (.blocked, v) := by
  rw [h.acquireWithin_eq now none (by simp)]
  simp

end Workplace

/-- What a look at the pool comes to for callers of any patience. -/
structure Pool.Looks (now : Nat) (p : Pool α) : Prop where
  /-- A caller who does not wait leaves a full pool as it is. -/
  declines : p.inspect = .full → ∀ r e after next,
    (Call.looking .none r).Advance now p e after next ↔
      e = .declined r ∧ after = p ∧ next = none
  /-- A caller who may wait goes to sleep there. -/
  parks : p.inspect = .full → ∀ w r, w.waits = true → r ≠ .deadline → ∀ e after next,
    (Call.looking w r).Advance now p e after next ↔
      e = .parked w r ∧ after = p ∧ next = some (.parked w)
  /-- Where the pool is not full, the books after the look and what becomes of the call are the
  same for all, and nobody goes to sleep. -/
  agrees : p.inspect ≠ .full → ∃ after next,
    (next = none ∨ next = some .granted ∨ ∃ m, next = some (.handingOut m)) ∧
      ∀ w r, ∃ e, ∀ e' after' next', (Call.looking w r).Advance now p e' after' next' ↔
        e' = e ∧ after' = after ∧ next' = next

theorem Call.Advance.looking_iff {now : Nat} {p after after' : Pool α} {w : Patience} {r : Prompt}
    {e e' : Event α} {next next' : Option (Call α)}
    (h : (Call.looking w r).Advance now p e after next) :
    (Call.looking w r).Advance now p e' after' next' ↔
      e' = e ∧ after' = after ∧ next' = next := by
  constructor
  · intro h'
    cases h <;> cases h' <;> simp_all [Patience.waits]
  · rintro ⟨rfl, rfl, rfl⟩
    exact h

theorem Pool.looks (now : Nat) (p : Pool α) : p.Looks now where
  declines hi _ _ _ _ := Call.Advance.looking_iff (.decline hi)
  parks hi _ _ hw hr _ _ _ := Call.Advance.looking_iff (.park hi hw hr)
  agrees := by
    intro hfull
    cases hi : p.inspect with
    | closed =>
      exact ⟨_, _, .inl rfl, fun w r => ⟨_, fun _ _ _ => Call.Advance.looking_iff (.refuse hi)⟩⟩
    | full => exact absurd hi hfull
    | granted grant after =>
      cases grant with
      | reuse m =>
        exact ⟨_, _, .inr (.inr ⟨m, rfl⟩), fun w r =>
          ⟨_, fun _ _ _ => Call.Advance.looking_iff (.reuse hi)⟩⟩
      | create =>
        exact ⟨_, _, .inr (.inl rfl), fun w r =>
          ⟨_, fun _ _ _ => Call.Advance.looking_iff (.reserve hi)⟩⟩

namespace Workplace

/-- Whoever would have to wait finds the pool open and at capacity, whoever does not wait finds
nothing in just these states and changes nothing. In any other state all callers get the same answer
and leave the same state behind, whatever the factory does and whatever other callers do
meanwhile, unless a caller is to wait until a moment that the clock cannot name. -/
theorem ways_agree (k : Connector ω α) (reentrant : Bool) (w : Workplace ω α) :
    ((w.tryAcquire k reentrant).1 = .ok none ↔
        w.pool.closed = false ∧ w.pool.status.isAtCapacity = true) ∧
      (∀ now, (∃ v, w.acquireWithin k reentrant now none = (.blocked, v)) ↔
        w.pool.closed = false ∧ w.pool.status.isAtCapacity = true) ∧
      (w.pool.closed = false ∧ w.pool.status.isAtCapacity = true →
        w.tryAcquire k reentrant = (.ok none, w)) ∧
      (¬ (w.pool.closed = false ∧ w.pool.status.isAtCapacity = true) →
        ∃ answer after, w.Answers k reentrant answer after ∧
          ∀ now, (∀ limit ∈ w.pool.settings.connectionTimeout, limit.fitsClock now) →
            w.acquire k reentrant now = (.answered answer, after)) ∧
      (∀ now, ∀ limit ∈ w.pool.settings.connectionTimeout, limit.fitsClock now = false →
        w.acquire k reentrant now =
          (.answered (.aborted "overflow when adding duration to instant"), w)) ∧
      ∀ now, w.pool.Looks now := by
  rw [← Pool.inspect_full_iff_atCapacity]
  refine ⟨⟨tryAcquireWith_none, fun hw => ?_⟩,
    fun now => ⟨fun ⟨v, hblocked⟩ => ?_, fun hw => ?_⟩, tryAcquire_full, fun hw => ?_,
    fun now limit hlimit hlate => ?_, fun now => w.pool.looks now⟩
  · rw [tryAcquire_full hw]
  · by_contra hw
    obtain ⟨answer, after, hanswers⟩ := answers_of_not_full k reentrant hw
    exact hanswers.not_blocked now hblocked
  · exact ⟨w, acquireWithin_blocked hw now⟩
  · obtain ⟨answer, after, hanswers⟩ := answers_of_not_full k reentrant hw
    exact ⟨answer, after, hanswers, fun now => hanswers.acquire_eq⟩
  · rw [acquire, show w.pool.settings.connectionTimeout = some limit from hlimit]
    exact acquireWithin_overdue hlate w

private def unscripted (pool : Pool Nat) : Workplace Nat Nat := ⟨pool, [], [], 0⟩

/-- A pool of one serves its first caller in every way, and has nothing for the second. -/
theorem ways_agree_sole :
    (∃ answer after, (unscripted solePool).Answers countingConnector true answer after) ∧
      (unscripted { solePool with idle := [] }).tryAcquire countingConnector true =
        (.ok none, unscripted { solePool with idle := [] }) := by
  have hroom : ¬ ((unscripted solePool).pool.closed = false ∧
      (unscripted solePool).pool.status.isAtCapacity = true) := by decide
  obtain ⟨answer, after, hanswers, -⟩ :=
    (ways_agree countingConnector true (unscripted solePool)).2.2.2.1 hroom
  have hfull : (unscripted { solePool with idle := [] }).tryAcquire countingConnector true = _ :=
    (ways_agree countingConnector true _).2.2.1 (by decide)
  exact ⟨⟨answer, after, hanswers⟩, hfull⟩

/-- A pool whose callers are to wait for longer than the clock can tell, whenever they come. -/
private def overlong : PoolSettings where
  maxConnections := 2
  connectionTimeout := some overlongTimeout

/-- A caller who does not wait gets a connection where the one who would wait gets none. -/
theorem ways_differ_overlong :
    ∃ p : Pool Nat, Pool.build countingConnector overlong (some []) 0 = (.ok (p, []), 0) ∧
      p.closed = false ∧ p.status.isAtCapacity = false ∧
      ((unscripted p).tryAcquire countingConnector false).1 = .ok (some ⟨0, ⟨1, true, 1⟩⟩) ∧
      ∀ now, (unscripted p).acquire countingConnector false now =
        (.answered (.aborted "overflow when adding duration to instant"), unscripted p) :=
  ⟨_, rfl, rfl, rfl, rfl, fun now =>
    acquireWithin_overdue (fitsClock_overlongTimeout now) (unscripted _)⟩

end Workplace

end ConnectionPool

import ConnectionPool.Proofs.Script.Basic

/-!
# Bare desks

A desk is bare once the numbers of its statements, its last failure, its cache and the counts of
statements prepared and finalized are wiped out. Neither those nor the upkeep of the cache show in
what an engine or a connection does to the rest, except that a cache may answer in the engine's
place.
-/

namespace ConnectionPool

def Statement.unnumbered (s : Statement) : Statement := { s with id := ⟨0⟩ }

def Checkout.unnumbered (k : Checkout) : Checkout :=
  { k with statement := k.statement.unnumbered }

def RawConnection.bare (raw : RawConnection) : RawConnection := { raw with lastError := none }

def Engine.bare (e : Engine) : Engine :=
  { e with
    lastStatement := 0
    counters := { e.counters with prepared := 0, finalized := 0 }
    finalized := [] }

theorem Statement.advance_unnumbered (s : Statement) :
    s.unnumbered.advance = (s.advance.1, s.advance.2.unnumbered) := by
  unfold advance unnumbered
  split
  · rfl
  · split <;> rfl

namespace Engine

@[simp] theorem bare_finalize (e : Engine) (s : Statement) : (e.finalize s).bare = e.bare := rfl

@[simp] theorem bare_finalizeAll (e : Engine) (discarded : List Statement) :
    (e.finalizeAll discarded).bare = e.bare := by
  induction discarded generalizing e with
  | nil => rfl
  | cons s discarded ih =>
    rw [finalizeAll, List.foldl_cons]
    exact (ih (e.finalize s)).trans (bare_finalize e s)

theorem step_bare (e : Engine) (s : Statement) :
    e.bare.step s.unnumbered = ((e.step s).1, (e.step s).2.1.unnumbered, (e.step s).2.2.bare) := by
  unfold step
  rw [Statement.advance_unnumbered]
  by_cases h : 0 < e.faults.steps
  · rw [if_pos h, if_pos (show 0 < e.bare.faults.steps from h)]
    rfl
  · rw [if_neg h, if_neg (show ¬0 < e.bare.faults.steps from h)]

theorem runFrom_bare (rows fuel : Nat) (e : Engine) (s : Statement) :
    runFrom rows fuel e.bare s.unnumbered =
      ((runFrom rows fuel e s).1, (runFrom rows fuel e s).2.1.unnumbered,
       (runFrom rows fuel e s).2.2.bare) := by
  induction fuel generalizing rows e s with
  | zero => rfl
  | succ fuel ih =>
    rw [runFrom, runFrom, step_bare]
    obtain ⟨result, t, after⟩ := e.step s
    cases result with
    | error error => rfl
    | ok advance =>
      cases advance with
      | row => exact ih (rows + 1) after t
      | done => rfl

theorem run_bare (e : Engine) (s : Statement) :
    e.bare.run s.unnumbered = ((e.run s).1, (e.run s).2.1.unnumbered, (e.run s).2.2.bare) :=
  runFrom_bare 0 (s.rowsLeft + 1) e s

theorem bare_prepare (e : Engine) (raw : RawConnection) (sql : String) :
    (e.prepare raw sql).2.1.bare = raw.bare ∧ (e.prepare raw sql).2.2.bare = e.bare := by
  unfold prepare
  split
  · exact ⟨rfl, rfl⟩
  · split <;> exact ⟨rfl, rfl⟩

theorem close_bare (e : Engine) (raw : RawConnection) :
    e.bare.close raw.bare = ((e.close raw).1, (e.close raw).2.1.bare, (e.close raw).2.2.bare) := by
  unfold close
  by_cases h : 0 < e.faults.closes
  · rw [if_pos h, if_pos (show 0 < e.bare.faults.closes from h)]
    rfl
  · rw [if_neg h, if_neg (show ¬0 < e.bare.faults.closes from h)]
    cases ho : raw.isOpen with
    | false => simp [RawConnection.bare, ho]
    | true => simp [RawConnection.bare, Engine.bare, ho]

end Engine

namespace Connection

/-- The connection with a cache that keeps nothing. -/
def bare (c : Connection) : Connection :=
  { c with raw := c.raw.bare, cache := { settings := .disabled } }

theorem bare_clearCache (c : Connection) (e : Engine) :
    (c.clearCache e).1.bare = c.bare ∧ (c.clearCache e).2.bare = e.bare :=
  ⟨rfl, e.bare_finalizeAll c.cache.statements⟩

theorem bare_configureCache {c d : Connection} {e after : Engine} {settings : CacheSettings}
    (h : c.configureCache? settings e = some (d, after)) :
    d.bare = c.bare ∧ after.bare = e.bare := by
  obtain ⟨⟨discarded, cache⟩, -, h⟩ := Option.map_eq_some_iff.mp h
  obtain ⟨rfl, rfl⟩ := Prod.mk.inj h
  exact ⟨rfl, e.bare_finalizeAll discarded⟩

theorem bare_lookUp (c : Connection) (sql : String) (e : Engine) :
    (c.lookUp sql e).2.1.bare = c.bare ∧ (c.lookUp sql e).2.2.bare = e.bare :=
  ⟨rfl, e.bare_finalizeAll _⟩

theorem bare_recycle (c : Connection) (k : Checkout) (e : Engine) :
    (c.recycle k e).1.bare = c.bare ∧ (c.recycle k e).2.bare = e.bare := by
  unfold recycle
  split
  · exact ⟨rfl, e.bare_finalizeAll _⟩
  · exact ⟨rfl, e.bare_finalize k.statement⟩

theorem bare_prepareFresh (c : Connection) (sql : String) (e : Engine) :
    (c.prepareFresh sql e).2.1.bare = c.bare ∧ (c.prepareFresh sql e).2.2.bare = e.bare := by
  obtain ⟨hraw, he⟩ := e.bare_prepare c.raw sql
  unfold prepareFresh
  split
  · exact ⟨rfl, rfl⟩
  · split
    all_goals
      rename_i h
      rw [h] at hraw he
      exact ⟨congrArg (fun raw => { c.bare with raw }) hraw, he⟩

theorem prepareSchemaChange_eq (c : Connection) (sql : String) (e : Engine) :
    c.prepareSchemaChange sql e =
      (((c.nextGeneration.clearCache e).1.prepareFresh sql (c.nextGeneration.clearCache e).2).1.map
        fun s => ⟨sql, s, false, c.generation⟩,
       ((c.nextGeneration.clearCache e).1.prepareFresh sql
        (c.nextGeneration.clearCache e).2).2) := by
  rw [prepareSchemaChange]
  dsimp only
  split <;> (rename_i h; rw [h]; rfl)

theorem prepareCached_hit {c : Connection} {sql : String} {e : Engine} {s : Statement}
    (h : (c.lookUp sql e).1 = some s) :
    c.prepareCached sql e = (.ok ⟨sql, s, true, c.generation⟩, (c.lookUp sql e).2) := by
  rcases hk : c.lookUp sql e with ⟨found, d, f⟩
  rw [hk] at h
  obtain rfl : found = some s := h
  simp only [prepareCached, hk]

theorem prepareCached_miss {c : Connection} {sql : String} {e : Engine}
    (h : (c.lookUp sql e).1 = none) :
    c.prepareCached sql e =
      (((c.lookUp sql e).2.1.prepareFresh sql (c.lookUp sql e).2.2).1.map
        fun s => ⟨sql, s, true, c.generation⟩,
       ((c.lookUp sql e).2.1.prepareFresh sql (c.lookUp sql e).2.2).2) := by
  rcases hk : c.lookUp sql e with ⟨found, d, f⟩
  rw [hk] at h
  obtain rfl : found = none := h
  simp only [prepareCached, hk]
  split <;> (rename_i h; rw [h]; rfl)

theorem bare_prepareSchemaChange (c : Connection) (sql : String) (e : Engine) :
    (c.prepareSchemaChange sql e).2.1.bare = c.nextGeneration.bare ∧
      (c.prepareSchemaChange sql e).2.2.bare = e.bare := by
  obtain ⟨hc, he⟩ := c.nextGeneration.bare_clearCache e
  obtain ⟨hd, hf⟩ := (c.nextGeneration.clearCache e).1.bare_prepareFresh sql
    (c.nextGeneration.clearCache e).2
  rw [prepareSchemaChange_eq]
  exact ⟨hd.trans hc, hf.trans he⟩

theorem bare_prepareCached (c : Connection) (sql : String) (e : Engine) :
    (c.prepareCached sql e).2.1.bare = c.bare ∧ (c.prepareCached sql e).2.2.bare = e.bare := by
  obtain ⟨hc, he⟩ := c.bare_lookUp sql e
  cases h : (c.lookUp sql e).1 with
  | some s =>
    rw [prepareCached_hit h]
    exact ⟨hc, he⟩
  | none =>
    obtain ⟨hd, hf⟩ := (c.lookUp sql e).2.1.bare_prepareFresh sql (c.lookUp sql e).2.2
    rw [prepareCached_miss h]
    exact ⟨hd.trans hc, hf.trans he⟩

/-- A schema change on an open connection leaves its trace in the generation alone. -/
theorem bare_prepare (c : Connection) (sql : String) (e : Engine) :
    (c.prepare sql e).2.1.bare =
        (if c.isOpen && Sql.changesSchema sql then c.nextGeneration.bare else c.bare) ∧
      (c.prepare sql e).2.2.bare = e.bare := by
  rw [prepare]
  cases c.isOpen with
  | false => exact ⟨rfl, rfl⟩
  | true =>
    cases Sql.changesSchema sql with
    | true => exact c.bare_prepareSchemaChange sql e
    | false => exact c.bare_prepareCached sql e

end Connection

end ConnectionPool

import ConnectionPool.Proofs.Script.Execution
import ConnectionPool.Proofs.Script.Transparency

/-!
# Runs cut short

A statement that is given back is rewound before anybody gets it again, so it does not matter where
its run has stopped, nor why. An execution leaves what it would have left if no step could fail.
-/

namespace ConnectionPool

variable {sql : String}

/-- The statement if its owner accepted writes. -/
def Statement.permitted (s : Statement) : Statement := { s with readOnly := false }

/-- The statement with all wiped out that a run changes or that can make it fail. -/
def Statement.still (s : Statement) : Statement := s.rewind.permitted

theorem Statement.still_eq_of_rewind {s t : Statement} (h : s.rewind = t.rewind) :
    s.still = t.still :=
  congrArg permitted h

/-- Only a refused write fails by itself. -/
theorem Statement.advance_permitted {s : Statement} (h : s.readOnly = false) :
    ∃ result t, s.advance = (.ok result, t) ∧ t.readOnly = false := by
  unfold advance
  rw [h, Bool.and_false]
  split
  · exact ⟨_, _, rfl, rfl⟩
  · exact ⟨_, _, rfl, rfl⟩

def Checkout.still (k : Checkout) : Checkout := { k with statement := k.statement.still }

def RawConnection.permitted (raw : RawConnection) : RawConnection := { raw with readOnly := false }

namespace StatementCache

variable {f : Statement → Statement}

def map (f : Statement → Statement) (c : StatementCache) : StatementCache :=
  { c with entries := c.entries.map fun x => (x.1, f x.2) }

theorem get?_map (f : Statement → Statement) (c : StatementCache) (sql : String) :
    (c.map f).get? sql = (c.get? sql).map f := by
  show (c.entries.map _).lookup sql = (c.entries.lookup sql).map f
  induction c.entries with
  | nil => rfl
  | cons x entries ih =>
    rw [List.map_cons, List.lookup_cons, List.lookup_cons, ih]
    split <;> rfl

theorem erase_map (f : Statement → Statement) (c : StatementCache) (sql : String) :
    (c.map f).erase sql = (c.erase sql).map f := by
  simp only [erase, map, List.eraseP_map]
  rfl

theorem statements_map (f : Statement → Statement) (c : StatementCache) :
    (c.map f).statements = c.statements.map f := by
  simp [statements, map]

theorem keys_map (f : Statement → Statement) (c : StatementCache) : (c.map f).keys = c.keys := by
  simp [keys, map]

theorem acquire_map (howner : ∀ s, (f s).owner = s.owner) (hrewind : ∀ s, (f s).rewind = f s.rewind)
    (c : StatementCache) (owner : ConnectionId) (sql : String) :
    (c.map f).acquire owner sql = ⟨(c.acquire owner sql).found.map f,
      (c.acquire owner sql).discarded.map f, (c.acquire owner sql).cache.map f⟩ := by
  have hactive : (c.map f).isActive = c.isActive := rfl
  rw [acquire, acquire, hactive, get?_map, erase_map]
  cases c.isActive with
  | false => rfl
  | true =>
    cases c.get? sql with
    | none => rfl
    | some s =>
      by_cases hs : s.owner = owner
      · simp [howner, hs, hrewind, map]
      · simp [howner, hs, hrewind, map]

theorem release_map (f : Statement → Statement) (c : StatementCache) (sql : String)
    (s : Statement) :
    (c.map f).release sql (f s) = ((c.release sql s).1.map f, (c.release sql s).2.map f) := by
  have hcontains : (c.map f).contains sql = c.contains sql := by simp [contains, get?_map]
  have hactive : (c.map f).isActive = c.isActive := rfl
  have hfull : (c.map f).isFull = c.isFull := by
    rw [isFull, isFull, size, size, map, List.length_map]
  rw [release, release, hcontains, hactive]
  split
  · rfl
  · rw [push, push, hfull, statements_map]
    split
    · rw [List.getLast?_map, Option.toList_map]
      simp [map, List.map_dropLast]
    · rfl

end StatementCache

namespace Engine

variable {e : Engine} {s : Statement}

/-- The engine with no failure of a step still to strike. -/
def unhindered (e : Engine) : Engine := { e with faults := { e.faults with steps := 0 } }

theorem unhindered_finalizeAll {f : Statement → Statement} (hid : ∀ s, (f s).id = s.id)
    (e : Engine) (l : List Statement) :
    e.unhindered.finalizeAll (l.map f) = (e.finalizeAll l).unhindered := by
  induction l generalizing e with
  | nil => rfl
  | cons s l ih =>
    have hs : e.unhindered.finalize (f s) = (e.finalize s).unhindered := by
      rw [finalize, hid]
      rfl
    rw [List.map_cons, finalizeAll_cons, finalizeAll_cons, hs, ih]

theorem unhindered_run (e : Engine) (s : Statement) :
    (e.run s).2.2.unhindered = e.unhindered := by
  apply run_keeps (P := fun _ f => f.unhindered = e.unhindered) _ rfl
  intro t f hf
  rw [← hf, step]
  split <;> rfl

theorem run_ok (he : e.faults.steps = 0) (hs : s.readOnly = false) :
    ∃ rows, (e.run s).1 = .ok rows := by
  have hfrom : ∀ fuel rows s, s.readOnly = false → ∃ n, (runFrom rows fuel e s).1 = .ok n := by
    intro fuel
    induction fuel with
    | zero =>
      intro rows s hs
      exact ⟨rows, rfl⟩
    | succ fuel ih =>
      intro rows s hs
      obtain ⟨result, t, hadvance, ht⟩ := Statement.advance_permitted hs
      have hstep : e.step s = (.ok result, t, e) := by simp [step, he, hadvance]
      rw [runFrom, hstep]
      cases result with
      | row => exact ih (rows + 1) t ht
      | done => exact ⟨rows, rfl⟩
  exact hfrom _ 0 s hs

end Engine

namespace Connection

variable {c d : Connection} {e f : Engine} {k : Checkout}

/-- The connection if it accepted writes. -/
def unhindered (c : Connection) : Connection :=
  { c with raw := c.raw.permitted, cache := c.cache.map Statement.permitted }

def still (c : Connection) : Connection :=
  { c with raw := c.raw.permitted, cache := c.cache.map Statement.still }

theorem still_unhindered (c : Connection) : c.unhindered.still = c.still := by
  simp only [still, unhindered, StatementCache.map, List.map_map]
  rfl

theorem lookUp_still (c : Connection) (sql : String) (e : Engine) :
    c.still.lookUp sql e.unhindered = ((c.lookUp sql e).1.map Statement.still,
      (c.lookUp sql e).2.1.still, (c.lookUp sql e).2.2.unhindered) := by
  have hlookup : c.still.cache.acquire c.still.id sql = _ :=
    StatementCache.acquire_map (f := Statement.still) (fun _ => rfl) (fun _ => rfl) c.cache c.id sql
  rw [lookUp, hlookup, lookUp]
  simp only [Engine.unhindered_finalizeAll (f := Statement.still) fun _ => rfl]
  rfl

theorem clearCache_still (c : Connection) (e : Engine) :
    c.still.clearCache e.unhindered =
      ((c.clearCache e).1.still, (c.clearCache e).2.unhindered) := by
  have hcache : c.still.cache.statements = c.cache.statements.map Statement.still :=
    c.cache.statements_map Statement.still
  simp only [clearCache, StatementCache.clear, hcache,
    Engine.unhindered_finalizeAll (f := Statement.still) fun _ => rfl]
  rfl

theorem prepareFresh_still (c : Connection) (sql : String) (e : Engine) :
    c.still.prepareFresh sql e.unhindered = ((c.prepareFresh sql e).1.map Statement.still,
      (c.prepareFresh sql e).2.1.still, (c.prepareFresh sql e).2.2.unhindered) := by
  have hopen : c.still.isOpen = c.isOpen := rfl
  have hraw : c.still.raw.isOpen = c.raw.isOpen := rfl
  unfold prepareFresh Engine.prepare
  rw [hopen, hraw]
  cases c.isOpen with
  | false => rfl
  | true =>
    cases c.raw.isOpen with
    | false => rfl
    | true => cases Sql.isMalformed sql <;> rfl

theorem prepare_still (c : Connection) (sql : String) (e : Engine) :
    c.still.prepare sql e.unhindered = ((c.prepare sql e).1.map Checkout.still,
      (c.prepare sql e).2.1.still, (c.prepare sql e).2.2.unhindered) := by
  have hmap (result : Except ConnectionError Statement) (cacheable : Bool) :
      (result.map Statement.still).map (fun s => ⟨sql, s, cacheable, c.generation⟩) =
        (result.map fun s => (⟨sql, s, cacheable, c.generation⟩ : Checkout)).map
          Checkout.still := by
    cases result <;> rfl
  have hopen : c.still.isOpen = c.isOpen := rfl
  rw [prepare, prepare, hopen]
  cases c.isOpen with
  | false => rfl
  | true =>
    cases Sql.changesSchema sql with
    | true =>
      have hclear : c.still.nextGeneration.clearCache e.unhindered = _ :=
        c.nextGeneration.clearCache_still e
      simp only [Bool.not_true, Bool.false_eq_true, if_false, if_true]
      rw [prepareSchemaChange_eq, prepareSchemaChange_eq, hclear, prepareFresh_still, ← hmap]
      rfl
    | false =>
      have hlookUp := c.lookUp_still sql e
      simp only [Bool.not_true, Bool.false_eq_true, if_false]
      cases hfound : (c.lookUp sql e).1 with
      | some s =>
        have hstill : (c.still.lookUp sql e.unhindered).1 = some s.still := by
          rw [hlookUp, hfound]
          rfl
        rw [prepareCached_hit hfound, prepareCached_hit hstill, hlookUp]
        rfl
      | none =>
        have hstill : (c.still.lookUp sql e.unhindered).1 = none := by
          rw [hlookUp, hfound]
          rfl
        rw [prepareCached_miss hfound, prepareCached_miss hstill, hlookUp, prepareFresh_still,
          ← hmap]
        rfl

theorem recycle_still (c : Connection) (k : Checkout) (e : Engine) :
    c.still.recycle k.still e.unhindered =
      ((c.recycle k e).1.still, (c.recycle k e).2.unhindered) := by
  have haccepts : c.still.accepts k.still = c.accepts k := rfl
  have hrelease : c.still.cache.release k.still.sql k.still.statement = _ :=
    c.cache.release_map Statement.still k.sql k.statement
  rw [recycle, recycle, haccepts]
  split
  · simp only [hrelease, Engine.unhindered_finalizeAll (f := Statement.still) fun _ => rfl]
    rfl
  · rfl

/-- Where the run of a statement has stopped does not show once it was given back. -/
theorem execute_still (h : c.prepare sql e = (.ok k, d, f)) :
    ((c.execute sql e).2.1.still, (c.execute sql e).2.2.unhindered) =
      d.still.recycle k.still f.unhindered := by
  have hresult : (c.prepare sql e).1 = .ok k := by rw [h]
  have hk : Checkout.still { k with statement := (f.run k.statement).2.1 } = k.still :=
    congrArg (fun s => { k with statement := s })
      (Statement.still_eq_of_rewind (f.run_rewind k.statement))
  rw [execute_prepared hresult, h, ← hk, ← f.unhindered_run k.statement, recycle_still]

theorem faults_prepare (c : Connection) (sql : String) (e : Engine) :
    (c.prepare sql e).2.2.faults = e.faults := by
  have hbare := congrArg Engine.faults (c.bare_prepare sql e).2
  exact hbare

theorem Prepares.permitted (h : Prepares c.unhindered sql e k d f) :
    k.statement.readOnly = false := by
  cases h with
  | change => rfl
  | fresh => rfl
  | hit _ hfound =>
    obtain ⟨t, ht, hs⟩ := StatementCache.found_mem hfound
    obtain ⟨x, -, hx⟩ := List.mem_map.mp ht
    obtain ⟨-, rfl⟩ := Prod.mk.inj hx
    rw [hs]
    rfl

theorem Prepares.isFresh (h : Prepares c sql e k d f) : k.statement.IsFresh := by
  cases h with
  | change => exact ⟨rfl, rfl, rfl⟩
  | fresh => exact ⟨rfl, rfl, rfl⟩
  | hit _ hfound =>
    obtain ⟨t, -, hs⟩ := StatementCache.found_mem hfound
    rw [hs]
    exact t.rewind_isFresh

/-- An execution that has its statement leaves what it leaves where it is bound to succeed. -/
theorem execute_unhindered (hprepared : error? (c.prepare sql e).1 = none) :
    ∃ rows, (c.unhindered.execute sql e.unhindered).1 = .ok rows ∧
      (c.unhindered.execute sql e.unhindered).2.1.still = (c.execute sql e).2.1.still ∧
      (c.unhindered.execute sql e.unhindered).2.2.unhindered =
        (c.execute sql e).2.2.unhindered := by
  have hstill := c.prepare_still sql e
  have hfree := c.unhindered.prepare_still sql e.unhindered
  have hsame : e.unhindered.unhindered = e.unhindered := rfl
  rw [still_unhindered, hsame, hstill] at hfree
  rcases hp : c.prepare sql e with ⟨error | k, d, f⟩
  · simp [hp, error?] at hprepared
  · rcases hq : c.unhindered.prepare sql e.unhindered with ⟨error | l, d', f'⟩
    · simp [hp, hq, Except.map] at hfree
    · simp only [hp, hq, Except.map, Prod.mk.injEq, Except.ok.injEq] at hfree
      obtain ⟨hk, hd, hf⟩ := hfree
      have hafter := execute_still hp
      rw [hk, hd, hf, ← execute_still hq] at hafter
      obtain ⟨hconnection, hengine⟩ := Prod.mk.inj hafter
      have hsteps : f'.faults.steps = 0 := by
        have hfaults := c.unhindered.faults_prepare sql e.unhindered
        rw [hq] at hfaults
        rw [hfaults]
        rfl
      obtain ⟨rows, hrows⟩ := Engine.run_ok hsteps (prepare_ok hq).2.permitted
      refine ⟨rows, ?_, hconnection.symm, hengine.symm⟩
      have hresult : (c.unhindered.prepare sql e.unhindered).1 = .ok l := by rw [hq]
      rw [execute_prepared hresult, hq, hrows]
      rfl

end Connection

end ConnectionPool

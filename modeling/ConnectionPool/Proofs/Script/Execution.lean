import ConnectionPool.Proofs.Cache.Basic
import ConnectionPool.Proofs.Custody.Basic

/-!
# Executions

Which texts a connection can prepare, and what executing one comes to. The statement is run and
given back at once, so whatever becomes of its run, the cache is what a release makes of it.
-/

namespace ConnectionPool

namespace Engine

theorem counters_run (e : Engine) (s : Statement) : (e.run s).2.2.counters = e.counters := by
  apply run_keeps (P := fun _ f => f.counters = e.counters) _ rfl
  intro t f hf
  rw [← hf, step]
  split <;> rfl

theorem counters_finalizeAll (e : Engine) (l : List Statement) :
    (e.finalizeAll l).counters =
      { e.counters with finalized := e.counters.finalized + l.length } := by
  induction l generalizing e with
  | nil => rfl
  | cons s l ih =>
    rw [finalizeAll_cons, ih]
    simp only [finalize, List.length_cons, Nat.add_assoc, Nat.add_comm 1]

end Engine

namespace Connection

variable {c d : Connection} {sql : String} {e f : Engine}

def error? {α : Type} : Except ConnectionError α → Option ConnectionError
  | .ok _ => none
  | .error error => some error

theorem error?_map {α β : Type} (result : Except ConnectionError α) (f : α → β) :
    error? (result.map f) = error? result := by
  cases result <;> rfl

/-- What keeps a connection from preparing a text. One that is open prepares the texts that its
engine can prepare, and those for which it has a statement. -/
def obstacle? (c : Connection) (sql : String) : Option ConnectionError :=
  if !c.isOpen then some .closed
  else if Sql.isMalformed sql &&
      (Sql.changesSchema sql || (c.cache.acquire c.id sql).found.isNone) then
    some (.driver (.cannotPrepare sql "syntax error"))
  else none

theorem obstacle?_eq_none : c.obstacle? sql = none ↔
    c.isOpen = true ∧ (Sql.isMalformed sql = true →
      Sql.changesSchema sql = false ∧ (c.cache.acquire c.id sql).found.isSome = true) := by
  unfold obstacle?
  cases c.isOpen <;> cases Sql.isMalformed sql <;> simp [Option.isSome_iff_ne_none]

theorem prepareFresh_error? (c : Connection) (sql : String) (e : Engine) :
    error? (c.prepareFresh sql e).1 =
      if !c.isOpen then some .closed
      else if Sql.isMalformed sql then some (.driver (.cannotPrepare sql "syntax error"))
      else none := by
  rw [← error?_map _ Statement.unnumbered, prepareFresh_verdict, verdict]
  split
  · rfl
  · split <;> rfl

theorem prepare_error? (c : Connection) (sql : String) (e : Engine) :
    error? (c.prepare sql e).1 = c.obstacle? sql := by
  rw [prepare, obstacle?]
  cases hopen : c.isOpen with
  | false => rfl
  | true =>
    cases hchange : Sql.changesSchema sql with
    | true =>
      have hafter : (c.nextGeneration.clearCache e).1.isOpen = true := hopen
      simp only [Bool.not_true, Bool.false_eq_true, if_false, if_true]
      rw [prepareSchemaChange_eq, error?_map, prepareFresh_error?, hafter]
      simp
    | false =>
      have hafter : (c.lookUp sql e).2.1.isOpen = true := hopen
      simp only [Bool.not_true, Bool.false_eq_true, if_false]
      cases hfound : (c.cache.acquire c.id sql).found with
      | some s =>
        rw [prepareCached_hit (show (c.lookUp sql e).1 = some s from hfound)]
        simp [error?]
      | none =>
        rw [prepareCached_miss (show (c.lookUp sql e).1 = none from hfound), error?_map,
          prepareFresh_error?, hafter]
        simp

theorem eq_of_closed (h : c.prepare sql e = (.error .closed, d, f)) : d = c ∧ f = e := by
  have hobstacle := c.prepare_error? sql e
  rw [h, obstacle?] at hobstacle
  cases hopen : c.isOpen with
  | true =>
    rw [hopen] at hobstacle
    simp only [Bool.not_true, Bool.false_eq_true, if_false] at hobstacle
    split at hobstacle <;> simp [error?] at hobstacle
  | false =>
    have hnothing : c.prepare sql e = (.error .closed, c, e) := by simp [prepare, hopen]
    simp only [h, Prod.mk.injEq, true_and] at hnothing
    exact hnothing

/-- Either no statement could be prepared, or one was, whose run is the answer, and which was then
given back. -/
inductive Executes (c : Connection) (sql : String) (e : Engine) :
    Except ConnectionError Nat × Connection × Engine → Prop
  | refused {error : ConnectionError} {d : Connection} {f : Engine} :
      c.prepare sql e = (.error error, d, f) → Refuses c sql e d f →
      Executes c sql e (.error error, d, f)
  | ran {k : Checkout} {d : Connection} {f : Engine} :
      c.prepare sql e = (.ok k, d, f) → Prepares c sql e k d f →
      Executes c sql e ((f.run k.statement).1.mapError .driver,
        d.recycle { k with statement := (f.run k.statement).2.1 } (f.run k.statement).2.2)

theorem executes (c : Connection) (sql : String) (e : Engine) :
    Executes c sql e (c.execute sql e) := by
  rcases hp : c.prepare sql e with ⟨error | k, d, f⟩
  · have hresult : (c.prepare sql e).1 = .error error := by rw [hp]
    rw [execute_refused hresult, hp]
    exact .refused hp (prepare_error hp)
  · have hresult : (c.prepare sql e).1 = .ok k := by rw [hp]
    rw [execute_prepared hresult, hp]
    exact .ran hp (prepare_ok hp).2

theorem recycle_accepted {k : Checkout} (h : c.accepts k = true) (e : Engine) :
    c.recycle k e = ({ c with cache := (c.cache.release k.sql k.statement).2 },
      e.finalizeAll (c.cache.release k.sql k.statement).1) := if_pos h

theorem isOpen_recycle (c : Connection) (k : Checkout) (e : Engine) :
    (c.recycle k e).1.isOpen = c.isOpen := by
  unfold recycle
  split <;> rfl

theorem Prepares.isOpen {k : Checkout} (h : Prepares c sql e k d f) : d.isOpen = c.isOpen := by
  cases h <;> rfl

theorem Refuses.isOpen (h : Refuses c sql e d f) : d.isOpen = c.isOpen := by
  cases h <;> rfl

theorem isOpen_execute (c : Connection) (sql : String) (e : Engine) :
    (c.execute sql e).2.1.isOpen = c.isOpen := by
  have hexecutes := c.executes sql e
  generalize c.execute sql e = after at hexecutes
  cases hexecutes with
  | refused hp hrefuses => exact hrefuses.isOpen
  | ran hp hprepares => rw [isOpen_recycle, hprepares.isOpen]

open StatementCache

/-- A text that changes the schema is executed with a cache that it has emptied. -/
theorem execute_change (hopen : c.isOpen = true) (hchange : Sql.changesSchema sql = true)
    (e : Engine) :
    (c.execute sql e).2.1.cache = { c.cache with entries := [] } ∧
      (c.execute sql e).2.2.counters.prepared =
        e.counters.prepared + if Sql.isMalformed sql then 0 else 1 := by
  have hobstacle := c.prepare_error? sql e
  simp only [obstacle?, hopen, hchange] at hobstacle
  have hexecutes := c.executes sql e
  generalize c.execute sql e = after at hexecutes
  cases hexecutes with
  | refused hp hrefuses =>
    have hbad : Sql.isMalformed sql = true := by
      by_contra hgood
      simp [hp, error?, hgood] at hobstacle
    cases hrefuses with
    | closed hclosed => simp [hopen] at hclosed
    | change => simp [hbad, withError, clearCache, StatementCache.clear, nextGeneration,
        Engine.counters_finalizeAll]
    | fresh _ hplain => simp [hchange] at hplain
  | ran hp hprepares =>
    have hgood : Sql.isMalformed sql = false := by
      by_contra hbad
      simp [hp, error?, hbad] at hobstacle
    cases hprepares with
    | change =>
      simp [hgood, recycle, accepts, withError, clearCache, StatementCache.clear, nextGeneration,
        Engine.finalize, Engine.counters_run, Engine.issue, Engine.counters_finalizeAll]
    | hit hplain => simp [hchange] at hplain
    | fresh hplain => simp [hchange] at hplain

/-- A statement for any other text is looked up, and goes into the cache afterwards. -/
theorem execute_plain (hplain : Sql.changesSchema sql = false) (hprepares : c.obstacle? sql = none)
    (e : Engine) :
    ∃ s, s.owner = c.id ∧
      (c.execute sql e).2.1.cache = ((c.cache.acquire c.id sql).cache.release sql s).2 ∧
      (c.execute sql e).2.2.counters.prepared =
        e.counters.prepared + if (c.cache.acquire c.id sql).found.isSome then 0 else 1 := by
  have hobstacle := c.prepare_error? sql e
  rw [hprepares] at hobstacle
  have hexecutes := c.executes sql e
  generalize c.execute sql e = after at hexecutes
  cases hexecutes with
  | refused hp => simp [hp, error?] at hobstacle
  | @ran k d f hp hprepares =>
    have hopen := (prepare_ok hp).1
    have howner : (f.run k.statement).2.1.owner = k.statement.owner := by
      have hrewind := congrArg Statement.owner (f.run_rewind k.statement)
      exact hrewind
    refine ⟨(f.run k.statement).2.1, ?_⟩
    rw [howner]
    cases hprepares with
    | change hchange => simp [hplain] at hchange
    | hit _ hfound =>
      have haccepts (s : Statement) :
          (c.afterLookUp sql).accepts ⟨sql, s, true, c.generation⟩ = true :=
        accepts_iff.mpr ⟨rfl, rfl, hopen⟩
      refine ⟨owned_of_found hfound, ?_⟩
      rw [recycle_accepted (haccepts _)]
      simp [hfound, Engine.counters_finalizeAll, Engine.counters_run, afterLookUp]
    | fresh _ hfound hg =>
      have haccepts (s : Statement) :
          ((c.afterLookUp sql).withError none).accepts ⟨sql, s, true, c.generation⟩ = true :=
        accepts_iff.mpr ⟨rfl, rfl, hopen⟩
      refine ⟨rfl, ?_⟩
      rw [recycle_accepted (haccepts _)]
      simp [hfound, hg, Engine.counters_finalizeAll, Engine.counters_run, afterLookUp, withError,
        Engine.issue]

theorem execute_malformed (hopen : c.isOpen = true) (hplain : Sql.changesSchema sql = false)
    (hbad : Sql.isMalformed sql = true) (hfound : (c.cache.acquire c.id sql).found = none)
    (e : Engine) :
    (c.execute sql e).2.1.cache = (c.cache.acquire c.id sql).cache ∧
      (c.execute sql e).2.2.counters.prepared = e.counters.prepared := by
  have hobstacle := c.prepare_error? sql e
  simp only [obstacle?, hopen, hplain, hbad, hfound] at hobstacle
  have hexecutes := c.executes sql e
  generalize c.execute sql e = after at hexecutes
  cases hexecutes with
  | refused hp hrefuses =>
    cases hrefuses with
    | closed hclosed => simp [hopen] at hclosed
    | change _ hchange => simp [hplain] at hchange
    | fresh => simp [afterLookUp, withError, Engine.counters_finalizeAll]
  | ran hp => simp [hp, error?] at hobstacle

end Connection

end ConnectionPool

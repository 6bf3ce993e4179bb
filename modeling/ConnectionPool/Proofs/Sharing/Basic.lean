import ConnectionPool.Proofs.Script.Genuine
import Mathlib.Data.Multiset.AddSub
import Mathlib.Logic.Relation

/-!
# Shared connections

A connection with everything its threads have under way on it. Each access to the generation, each
section under the lock of the cache and each under the lock of the raw connection is a step of its
own, and threads take their steps in any order. Nothing tells one thread from another, so what they
do is a multiset of activities.
-/

namespace ConnectionPool.Sharing

/-- A request for a statement as far as it has come, or a statement checked out. -/
inductive Activity where
  | asking (sql : String)
  /-- Found the connection open. -/
  | admitted (sql : String)
  /-- Has read the generation. -/
  | dated (sql : String) (generation : Nat)
  /-- Has started a new generation and not emptied the cache yet. -/
  | invalidating (sql : String) (generation : Nat)
  /-- Has no statement from the cache and not asked the engine yet. -/
  | compiling (sql : String) (cacheable : Bool) (generation : Nat)
  | holding (k : Checkout)
  | returning (k : Checkout)
  /-- The generation was found to be that of the statement. -/
  | matched (k : Checkout)
  /-- The connection was found open as well. -/
  | storing (k : Checkout)
  /-- The statement is not to be kept, and not finalized yet. -/
  | discarding (k : Checkout)
  deriving DecidableEq, Repr

inductive Event where
  /-- A schema change has started a new generation. -/
  | bumped (sql : String) (generation : Nat)
  /-- A schema change has emptied the cache. -/
  | emptied (sql : String) (generation : Nat)
  /-- A statement came out of the cache. -/
  | found (k : Checkout)
  | quiet
  deriving DecidableEq, Repr

/-- The next step of an activity: what becomes of the connection, of the engine and of the activity
itself. -/
inductive Activity.Advance (c : Connection) (e : Engine) :
    Activity → Event → Connection → Engine → Option Activity → Prop
  | refuse {sql} : c.isOpen = false → Advance c e (.asking sql) .quiet c e none
  | enter {sql} : c.isOpen = true → Advance c e (.asking sql) .quiet c e (some (.admitted sql))
  | date {sql} : Advance c e (.admitted sql) .quiet c e (some (.dated sql c.generation))
  | bump {sql g} : Sql.changesSchema sql = true →
      Advance c e (.dated sql g) (.bumped sql g) c.nextGeneration e (some (.invalidating sql g))
  | empty {sql g} :
      Advance c e (.invalidating sql g) (.emptied sql g) (c.clearCache e).1 (c.clearCache e).2
        (some (.compiling sql false g))
  | find {sql g s d f} : Sql.changesSchema sql = false → c.lookUp sql e = (some s, d, f) →
      Advance c e (.dated sql g) (.found ⟨sql, s, true, g⟩) d f (some (.holding ⟨sql, s, true, g⟩))
  | miss {sql g d f} : Sql.changesSchema sql = false → c.lookUp sql e = (none, d, f) →
      Advance c e (.dated sql g) .quiet d f (some (.compiling sql true g))
  | compile {sql cacheable g s d f} : c.prepareFresh sql e = (.ok s, d, f) →
      Advance c e (.compiling sql cacheable g) .quiet d f (some (.holding ⟨sql, s, cacheable, g⟩))
  | fail {sql cacheable g error d f} : c.prepareFresh sql e = (.error error, d, f) →
      Advance c e (.compiling sql cacheable g) .quiet d f none
  | step {k result s f} : e.step k.statement = (result, s, f) →
      Advance c e (.holding k) .quiet c f (some (.holding { k with statement := s }))
  /-- Binds values or resets the statement. -/
  | change {k s} : s.rewind = k.statement.rewind →
      Advance c e (.holding k) .quiet c e (some (.holding { k with statement := s }))
  /-- Ends the statement for good. -/
  | spend {k} :
      Advance c e (.holding k) .quiet c e (some (.returning { k with cacheable := false }))
  | drop {k} : Advance c e (.holding k) .quiet c e (some (.returning k))
  | agree {k} : k.cacheable = true → k.generation = c.generation →
      Advance c e (.returning k) .quiet c e (some (.matched k))
  | expire {k} : (k.cacheable = true → k.generation ≠ c.generation) →
      Advance c e (.returning k) .quiet c e (some (.discarding k))
  | spare {k} : c.isOpen = true → Advance c e (.matched k) .quiet c e (some (.storing k))
  | forgo {k} : c.isOpen = false → Advance c e (.matched k) .quiet c e (some (.discarding k))
  | store {k left cache} : c.cache.release k.sql k.statement = (left, cache) →
      Advance c e (.storing k) .quiet { c with cache } (e.finalizeAll left) none
  | finalize {k} : Advance c e (.discarding k) .quiet c (e.finalize k.statement) none

structure State where
  connection : Connection
  engine : Engine
  activities : Multiset Activity := 0

namespace State

/-- The state after a step of one activity: what became of it, and the others. -/
def turn (c : Connection) (e : Engine) (next : Option Activity) (others : Multiset Activity) :
    State :=
  ⟨c, e, next.elim others fun a => a ::ₘ others⟩

end State

inductive Step (s : State) : Event → State → Prop
  | ask {sql} : Step s .quiet { s with activities := .asking sql ::ₘ s.activities }
  | advance {a others event c e next} : s.activities = a ::ₘ others →
      a.Advance s.connection s.engine event c e next → Step s event (.turn c e next others)
  | clear {c e} : s.connection.clearCache s.engine = (c, e) →
      Step s .quiet { s with connection := c, engine := e }
  | configure {settings c e} : s.connection.configureCache? settings s.engine = some (c, e) →
      Step s .quiet { s with connection := c, engine := e }
  | closeRaw {result raw e} : s.engine.close s.connection.raw = (result, raw, e) →
      Step s .quiet { s with connection := { s.connection with raw }, engine := e }

/-- One state comes after another, however the threads took their steps. -/
def Reaches : State → State → Prop := Relation.ReflTransGen fun s t => ∃ event, Step s event t

variable {c d : Connection} {e f : Engine} {a next : Activity} {event : Event}
  {others : Multiset Activity} {s t : State}

theorem Reaches.step (h : Step s event t) : Reaches s t := .single ⟨event, h⟩

theorem goesOn_reaches (h : a.Advance c e event d f (some next)) :
    Reaches ⟨c, e, a ::ₘ others⟩ ⟨d, f, next ::ₘ others⟩ := by
  have hs : Step ⟨c, e, a ::ₘ others⟩ event (.turn d f (some next) others) := .advance rfl h
  exact .step hs

theorem ends_reaches (h : a.Advance c e event d f none) :
    Reaches ⟨c, e, a ::ₘ others⟩ ⟨d, f, others⟩ := by
  have hs : Step ⟨c, e, a ::ₘ others⟩ event (.turn d f none others) := .advance rfl h
  exact .step hs

/-- The state after a request that came out like this. -/
def answered {error : Type} (others : Multiset Activity) :
    Except error Checkout × Connection × Engine → State
  | (.ok k, c, e) => ⟨c, e, .holding k ::ₘ others⟩
  | (.error _, c, e) => ⟨c, e, others⟩

theorem compiling_reaches (sql : String) (cacheable : Bool) (g : Nat) :
    Reaches ⟨c, e, .compiling sql cacheable g ::ₘ others⟩
      (answered others <|
        match c.prepareFresh sql e with
        | (.ok s, d, f) => (.ok ⟨sql, s, cacheable, g⟩, d, f)
        | (.error error, d, f) => (.error error, d, f)) := by
  cases h : c.prepareFresh sql e with
  | mk result after =>
    obtain ⟨d, f⟩ := after
    cases result with
    | ok s => exact goesOn_reaches (.compile h)
    | error error => exact ends_reaches (.fail h)

theorem prepare_reaches (c : Connection) (sql : String) (e : Engine) :
    Reaches ⟨c, e, .asking sql ::ₘ others⟩ (answered others (c.prepare sql e)) := by
  unfold Connection.prepare
  cases hopen : c.isOpen with
  | false => exact ends_reaches (.refuse hopen)
  | true =>
    have hdated : Reaches ⟨c, e, .asking sql ::ₘ others⟩
        ⟨c, e, .dated sql c.generation ::ₘ others⟩ :=
      (goesOn_reaches (.enter hopen)).trans (goesOn_reaches .date)
    refine hdated.trans ?_
    cases hchange : Sql.changesSchema sql with
    | true =>
      have hbumped : Reaches ⟨c, e, .dated sql c.generation ::ₘ others⟩
          ⟨c.nextGeneration, e, .invalidating sql c.generation ::ₘ others⟩ :=
        goesOn_reaches (.bump hchange)
      exact (hbumped.trans (goesOn_reaches .empty)).trans
        (compiling_reaches sql false c.generation)
    | false =>
      simp only [Bool.not_true, Bool.false_eq_true, if_false, Connection.prepareCached]
      cases hl : c.lookUp sql e with
      | mk found after =>
        obtain ⟨d, f⟩ := after
        cases found with
        | some s => exact goesOn_reaches (.find hchange hl)
        | none =>
          exact (goesOn_reaches (.miss hchange hl)).trans (compiling_reaches sql true c.generation)

theorem recycle_reaches (c : Connection) (k : Checkout) (e : Engine) :
    Reaches ⟨c, e, .returning k ::ₘ others⟩
      ⟨(c.recycle k e).1, (c.recycle k e).2, others⟩ := by
  have hdiscard : Reaches ⟨c, e, .discarding k ::ₘ others⟩
      ⟨c, e.finalize k.statement, others⟩ := ends_reaches .finalize
  unfold Connection.recycle Connection.accepts
  by_cases hk : k.cacheable = true ∧ k.generation = c.generation
  · obtain ⟨hkeep, hsame⟩ := hk
    have hmatched : Reaches ⟨c, e, .returning k ::ₘ others⟩ ⟨c, e, .matched k ::ₘ others⟩ :=
      goesOn_reaches (.agree hkeep hsame)
    refine hmatched.trans ?_
    cases hopen : c.isOpen with
    | true =>
      simp only [hkeep, hsame, beq_self_eq_true, Bool.and_self, if_true]
      exact (goesOn_reaches (.spare hopen)).trans (ends_reaches (.store rfl))
    | false =>
      simp only [Bool.and_false, Bool.false_eq_true, if_false]
      exact (goesOn_reaches (.forgo hopen)).trans hdiscard
  · have hno : ¬ (k.cacheable && k.generation == c.generation && c.isOpen) = true := by
      intro h
      simp only [Bool.and_eq_true, beq_iff_eq] at h
      exact hk h.1
    rw [if_neg hno]
    have hexpired : Reaches ⟨c, e, .returning k ::ₘ others⟩ ⟨c, e, .discarding k ::ₘ others⟩ :=
      goesOn_reaches (.expire fun hkeep hsame => hk ⟨hkeep, hsame⟩)
    exact hexpired.trans hdiscard

theorem run_reaches (c : Connection) (k : Checkout) (e : Engine) :
    Reaches ⟨c, e, .holding k ::ₘ others⟩
      ⟨c, (e.run k.statement).2.2,
        .holding { k with statement := (e.run k.statement).2.1 } ::ₘ others⟩ := by
  have hkeeps := Engine.run_keeps (e := e) (s := k.statement)
    (P := fun s f => Reaches ⟨c, e, .holding k ::ₘ others⟩
      ⟨c, f, .holding { k with statement := s } ::ₘ others⟩)
  apply hkeeps
  · intro s f h
    exact h.trans (goesOn_reaches (.step rfl))
  · exact .refl

theorem execute_reaches (c : Connection) (sql : String) (e : Engine) :
    Reaches ⟨c, e, .asking sql ::ₘ others⟩
      ⟨(c.execute sql e).2.1, (c.execute sql e).2.2, others⟩ := by
  have hprepared : Reaches ⟨c, e, .asking sql ::ₘ others⟩ _ := prepare_reaches c sql e
  unfold Connection.execute
  cases hp : c.prepare sql e with
  | mk result after =>
    obtain ⟨d, f⟩ := after
    rw [hp] at hprepared
    cases result with
    | error error => exact hprepared
    | ok k =>
      have hrun := hprepared.trans (run_reaches d k f)
      have hdropped := hrun.trans (goesOn_reaches .drop)
      exact hdropped.trans (recycle_reaches d _ _)

end ConnectionPool.Sharing

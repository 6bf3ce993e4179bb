import ConnectionPool.Proofs.Custody.Basic
import ConnectionPool.Proofs.Sharing.Basic

/-!
# Stale statements

Which statements may still come back into the cache of a shared connection: those already on their
way there. A schema change turns away all others, but not those whose generation was compared
before it, nor those that came out of the cache between its two steps.
-/

namespace ConnectionPool.Sharing

variable {c d : Connection} {e f : Engine} {a b : Activity} {event : Event}
  {next : Option Activity} {others : Multiset Activity} {s t : State} {id : StatementId}

/-- What never goes back: generations grow, and a closed connection stays closed. -/
structure Later (c d : Connection) : Prop where
  generation_le : c.generation ≤ d.generation
  isOpen : d.isOpen = true → c.isOpen = true

theorem Later.refl (c : Connection) : Later c c := ⟨Nat.le_refl _, fun ho => ho⟩

namespace Activity

theorem Advance.later (h : a.Advance c e event d f next) : Later c d := by
  cases h with
  | bump => exact ⟨Nat.le_succ _, fun ho => ho⟩
  | find _ hl | miss _ hl =>
    obtain ⟨-, rfl, -⟩ := Connection.lookUp_eq hl
    exact ⟨Nat.le_refl _, fun ho => ho⟩
  | compile hp =>
    obtain ⟨-, -, -, rfl, -⟩ := Connection.prepareFresh_ok hp
    exact ⟨Nat.le_refl _, fun ho => ho⟩
  | fail hp =>
    obtain ⟨⟨message, rfl⟩, -⟩ := Connection.prepareFresh_error hp
    exact ⟨Nat.le_refl _, fun ho => ho⟩
  | _ => exact ⟨Nat.le_refl _, fun ho => ho⟩

/-- The generation this activity has on record. -/
def stamp : Activity → Nat
  | dated _ g | invalidating _ g | compiling _ _ g => g
  | holding k | returning k | matched k | storing k | discarding k => k.generation
  | asking _ | admitted _ => 0

theorem Advance.stamp_le (h : a.Advance c e event d f next) (ha : a.stamp ≤ c.generation) :
    ∀ b ∈ next, b.stamp ≤ d.generation := by
  intro b hb
  have hlater := h.later.generation_le
  cases h with
  | refuse | fail | store | finalize => cases hb
  | enter | date =>
    cases hb
    simp [stamp]
  | _ =>
    cases hb
    exact Nat.le_trans ha hlater

/-- The statement that may still be stored, if all goes on as it stands. -/
def toStore? (c : Connection) : Activity → Option StatementId
  | holding k | returning k => if c.accepts k then some k.statement.id else none
  | matched k => if c.isOpen then some k.statement.id else none
  | storing k => some k.statement.id
  | _ => none

/-- With time an activity may lose its chance to store a statement, but gets none. -/
theorem toStore?_later (h : Later c d) (ha : a.stamp ≤ c.generation)
    (hs : a.toStore? d = some id) : a.toStore? c = some id := by
  have hgen := h.generation_le
  cases a with
  | holding k | returning k =>
    simp only [toStore?, Option.ite_none_right_eq_some, Connection.accepts_iff] at hs ⊢
    obtain ⟨⟨hkeep, hsame, hopen⟩, hid⟩ := hs
    have ha : k.generation ≤ c.generation := ha
    exact ⟨⟨hkeep, by omega, h.isOpen hopen⟩, hid⟩
  | matched k =>
    simp only [toStore?, Option.ite_none_right_eq_some] at hs ⊢
    exact ⟨h.isOpen hs.1, hs.2⟩
  | _ => exact hs

theorem Advance.cached (h : a.Advance c e event d f next) (hid : id ∈ d.cache.ids) :
    id ∈ c.cache.ids ∨ a.toStore? c = some id := by
  cases h with
  | empty => cases hid
  | find _ hl | miss _ hl =>
    obtain ⟨-, rfl, -⟩ := Connection.lookUp_eq hl
    exact .inl (StatementCache.mem_ids_of_acquire hid)
  | compile hp =>
    obtain ⟨-, -, -, rfl, -⟩ := Connection.prepareFresh_ok hp
    exact .inl hid
  | fail hp =>
    obtain ⟨⟨message, rfl⟩, -⟩ := Connection.prepareFresh_error hp
    exact .inl hid
  | @store k left cache hr =>
    have hmem : id ∈ (c.cache.release k.sql k.statement).2.ids := by
      rw [hr]
      exact hid
    cases StatementCache.mem_ids_of_release hmem with
    | inl hnew => exact .inr (congrArg some hnew.symm)
    | inr hold => exact .inl hold
  | _ => exact .inl hid

theorem Advance.toStore (h : a.Advance c e event d f next) (ha : a.stamp ≤ c.generation) :
    ∀ b ∈ next, b.toStore? d = some id →
      id ∈ c.cache.ids ∨ a.toStore? c = some id ∨ e.lastStatement < id.number := by
  intro b hb hs
  cases h with
  | refuse | fail | store | finalize => cases hb
  | enter | date | bump | empty | miss | expire | forgo =>
    cases hb
    cases hs
  | find _ hl =>
    cases hb
    obtain ⟨hfound, rfl, -⟩ := Connection.lookUp_eq hl
    simp only [toStore?, Option.ite_none_right_eq_some, Option.some.injEq] at hs
    rw [← hs.2]
    exact .inl (StatementCache.id_mem_of_found hfound.symm)
  | compile hp =>
    cases hb
    obtain ⟨-, -, rfl, -, -⟩ := Connection.prepareFresh_ok hp
    simp only [toStore?, Option.ite_none_right_eq_some, Option.some.injEq] at hs
    rw [← hs.2]
    exact .inr (.inr (Nat.lt_succ_self _))
  | @step k result u f hr =>
    cases hb
    have hid := Statement.id_eq_of_rewind (Engine.step_eq hr).1
    refine .inr (.inl ?_)
    rw [← hs, toStore?, toStore?, hid]
    rfl
  | @change k u hr =>
    cases hb
    have hid := Statement.id_eq_of_rewind hr
    refine .inr (.inl ?_)
    rw [← hs, toStore?, toStore?, hid]
    rfl
  | spend =>
    cases hb
    simp [toStore?, Connection.accepts_iff] at hs
  | drop =>
    cases hb
    exact .inr (.inl hs)
  | agree hkeep hsame =>
    cases hb
    simp only [toStore?, Option.ite_none_right_eq_some] at hs
    refine .inr (.inl ?_)
    rw [toStore?, if_pos (Connection.accepts_iff.mpr ⟨hkeep, hsame, hs.1⟩)]
    exact hs.2
  | spare hopen =>
    cases hb
    refine .inr (.inl ?_)
    rw [toStore?, if_pos hopen]
    exact hs

theorem Advance.lastStatement_le (h : a.Advance c e event d f next) :
    e.lastStatement ≤ f.lastStatement := by
  cases h with
  | find _ hl | miss _ hl =>
    obtain ⟨-, -, rfl⟩ := Connection.lookUp_eq hl
    exact (e.lastStatement_finalizeAll _).ge
  | compile hp =>
    obtain ⟨-, -, -, -, rfl⟩ := Connection.prepareFresh_ok hp
    exact Nat.le_succ _
  | fail hp =>
    obtain ⟨-, rfl⟩ := Connection.prepareFresh_error hp
    exact Nat.le_refl _
  | step hr =>
    obtain ⟨-, steps, rfl⟩ := Engine.step_eq hr
    exact Nat.le_refl _
  | empty | store => exact (e.lastStatement_finalizeAll _).ge
  | _ => exact Nat.le_refl _

theorem Advance.found {k : Checkout} (h : a.Advance c e (.found k) d f next) :
    k.statement.id ∈ c.cache.ids := by
  cases h with
  | find _ hl =>
    obtain ⟨hfound, -, -⟩ := Connection.lookUp_eq hl
    exact StatementCache.id_mem_of_found hfound.symm

end Activity

namespace State

/-- No activity is ahead of the connection. -/
def Stamped (s : State) : Prop := ∀ a ∈ s.activities, a.stamp ≤ s.connection.generation

/-- Whether a statement is in the cache, or may be stored in it as things stand. -/
def MayCache (s : State) (id : StatementId) : Prop :=
  id ∈ s.connection.cache.ids ∨ ∃ a ∈ s.activities, a.toStore? s.connection = some id

theorem mem_turn {b : Activity} (h : b ∈ (turn c e next others).activities) :
    b ∈ next ∨ b ∈ others := by
  cases next with
  | none => exact .inr h
  | some a =>
    cases Multiset.mem_cons.mp h with
    | inl hb => exact .inl (congrArg some hb.symm)
    | inr hb => exact .inr hb

/-- What a step that is none of the activities' own leaves: nothing new but requests. -/
structure Tended (s t : State) : Prop where
  later : Later s.connection t.connection
  cached : ∀ id ∈ t.connection.cache.ids, id ∈ s.connection.cache.ids
  lastStatement_le : s.engine.lastStatement ≤ t.engine.lastStatement
  activities : ∀ a ∈ t.activities, a ∈ s.activities ∨ ∃ sql, a = .asking sql

end State

open State

theorem Step.cases_activity (h : Step s event t) :
    (∃ a others next, s.activities = a ::ₘ others ∧
      a.Advance s.connection s.engine event t.connection t.engine next ∧
      t.activities = (turn t.connection t.engine next others).activities) ∨
    event = .quiet ∧ s.Tended t := by
  cases h with
  | ask =>
    refine .inr ⟨rfl, .refl _, fun _ hid => hid, Nat.le_refl _, ?_⟩
    intro a ha
    cases Multiset.mem_cons.mp ha with
    | inl hnew => exact .inr ⟨_, hnew⟩
    | inr hold => exact .inl hold
  | advance hc ha => exact .inl ⟨_, _, _, hc, ha, rfl⟩
  | clear hc =>
    cases hc
    exact .inr ⟨rfl, ⟨Nat.le_refl _, fun ho => ho⟩, nofun,
      (Engine.lastStatement_finalizeAll _ _).ge, fun a ha => .inl ha⟩
  | configure hc =>
    obtain ⟨rfl, rfl⟩ := Connection.configureCache?_eq hc
    exact .inr ⟨rfl, ⟨Nat.le_refl _, fun ho => ho⟩, nofun,
      (Engine.lastStatement_finalizeAll _ _).ge, fun a ha => .inl ha⟩
  | closeRaw hc =>
    obtain ⟨⟨isOpen, rfl, hopen⟩, closed, closes, rfl⟩ := Engine.close_eq hc
    exact .inr ⟨rfl, ⟨Nat.le_refl _, hopen⟩, fun _ hid => hid, Nat.le_refl _, fun a ha => .inl ha⟩

theorem Step.later (h : Step s event t) : Later s.connection t.connection := by
  obtain ⟨a, others, next, -, ha, -⟩ | ⟨-, ht⟩ := h.cases_activity
  · exact ha.later
  · exact ht.later

theorem Step.lastStatement_le (h : Step s event t) :
    s.engine.lastStatement ≤ t.engine.lastStatement := by
  obtain ⟨a, others, next, -, ha, -⟩ | ⟨-, ht⟩ := h.cases_activity
  · exact ha.lastStatement_le
  · exact ht.lastStatement_le

theorem Step.bumped_eq {sql : String} {g : Nat} (h : Step s (.bumped sql g) t) :
    ∃ others, s.activities = .dated sql g ::ₘ others ∧
      t = ⟨s.connection.nextGeneration, s.engine, .invalidating sql g ::ₘ others⟩ := by
  cases h with
  | @advance a others event c e next hc ha =>
    cases ha
    exact ⟨others, hc, rfl⟩

theorem Step.emptied_eq {sql : String} {g : Nat} (h : Step s (.emptied sql g) t) :
    ∃ others, s.activities = .invalidating sql g ::ₘ others ∧
      t = ⟨(s.connection.clearCache s.engine).1, (s.connection.clearCache s.engine).2,
        .compiling sql false g ::ₘ others⟩ := by
  cases h with
  | @advance a others event c e next hc ha =>
    cases ha
    exact ⟨others, hc, rfl⟩

theorem Step.emptied {sql : String} {g : Nat} (h : Step s (.emptied sql g) t) :
    t.connection.cache.ids = [] := by
  obtain ⟨others, -, rfl⟩ := h.emptied_eq
  rfl

theorem Step.stamped (h : Step s event t) (hs : s.Stamped) : t.Stamped := by
  have hgen := h.later.generation_le
  intro b hb
  obtain ⟨a, others, next, hc, ha, hacts⟩ | ⟨-, ht⟩ := h.cases_activity
  · rw [Stamped, hc] at hs
    rw [hacts] at hb
    cases mem_turn hb with
    | inl hnext => exact ha.stamp_le (hs a (Multiset.mem_cons_self a others)) b hnext
    | inr hother => exact (hs b (Multiset.mem_cons_of_mem hother)).trans hgen
  · obtain hold | ⟨sql, rfl⟩ := ht.activities b hb
    · exact (hs b hold).trans hgen
    · exact Nat.zero_le _

/-- No step brings an old statement onto the way into the cache. -/
theorem Step.mayCache (h : Step s event t) (hs : s.Stamped) (hid : t.MayCache id) :
    s.MayCache id ∨ s.engine.lastStatement < id.number := by
  have hlater := h.later
  obtain ⟨a, others, next, hc, ha, hacts⟩ | ⟨-, ht⟩ := h.cases_activity
  · have hmem : a ∈ s.activities := hc ▸ Multiset.mem_cons_self a others
    obtain hcached | ⟨b, hb, hstore⟩ := hid
    · cases ha.cached hcached with
      | inl hold => exact .inl (.inl hold)
      | inr hown => exact .inl (.inr ⟨a, hmem, hown⟩)
    · rw [hacts] at hb
      cases mem_turn hb with
      | inl hnext =>
        obtain hold | hown | hnew := ha.toStore (hs a hmem) b hnext hstore
        · exact .inl (.inl hold)
        · exact .inl (.inr ⟨a, hmem, hown⟩)
        · exact .inr hnew
      | inr hother =>
        have hb : b ∈ s.activities := hc ▸ Multiset.mem_cons_of_mem hother
        exact .inl (.inr ⟨b, hb, Activity.toStore?_later hlater (hs b hb) hstore⟩)
  · obtain hcached | ⟨b, hb, hstore⟩ := hid
    · exact .inl (.inl (ht.cached id hcached))
    · obtain hold | ⟨sql, rfl⟩ := ht.activities b hb
      · exact .inl (.inr ⟨b, hold, Activity.toStore?_later hlater (hs b hold) hstore⟩)
      · cases hstore

theorem Reaches.lastStatement_le (h : Reaches s t) :
    s.engine.lastStatement ≤ t.engine.lastStatement := by
  induction h with
  | refl => exact Nat.le_refl _
  | tail _ hs ih =>
    obtain ⟨event, hs⟩ := hs
    exact ih.trans hs.lastStatement_le

theorem Reaches.stamped (h : Reaches s t) (hs : s.Stamped) : t.Stamped := by
  induction h with
  | refl => exact hs
  | tail _ ht ih =>
    obtain ⟨event, ht⟩ := ht
    exact ht.stamped ih

theorem Reaches.mayCache (h : Reaches s t) (hs : s.Stamped) (hid : t.MayCache id) :
    s.MayCache id ∨ s.engine.lastStatement < id.number := by
  induction h with
  | refl => exact .inl hid
  | tail hr ht ih =>
    obtain ⟨event, ht⟩ := ht
    cases ht.mayCache (Reaches.stamped hr hs) hid with
    | inl hold => exact ih hold
    | inr hnew => exact .inr ((Reaches.lastStatement_le hr).trans_lt hnew)

theorem toStore_reaches (hactive : c.cache.isActive = true) (hempty : c.cache.entries = [])
    (ha : a.toStore? c = some id) :
    ∃ d f, Reaches ⟨c, e, a ::ₘ others⟩ ⟨d, f, others⟩ ∧ id ∈ d.cache.ids := by
  have hstore (k : Checkout) : ∃ d f, Reaches ⟨c, e, .storing k ::ₘ others⟩ ⟨d, f, others⟩ ∧
      k.statement.id ∈ d.cache.ids := by
    have hnew : c.cache.contains k.sql = false := by
      rw [StatementCache.contains, StatementCache.get?, hempty]
      rfl
    exact ⟨_, _, ends_reaches (.store rfl), StatementCache.id_mem_release hactive hnew⟩
  have hreturn (k : Checkout) (hk : c.accepts k = true) :
      Reaches ⟨c, e, .returning k ::ₘ others⟩ ⟨c, e, .storing k ::ₘ others⟩ := by
    obtain ⟨hkeep, hsame, hopen⟩ := Connection.accepts_iff.mp hk
    have hmatched : Reaches ⟨c, e, .returning k ::ₘ others⟩ ⟨c, e, .matched k ::ₘ others⟩ :=
      goesOn_reaches (.agree hkeep hsame)
    exact hmatched.trans (goesOn_reaches (.spare hopen))
  cases a with
  | holding k =>
    simp only [Activity.toStore?, Option.ite_none_right_eq_some, Option.some.injEq] at ha
    obtain ⟨hk, rfl⟩ := ha
    obtain ⟨d, f, hr, hid⟩ := hstore k
    have hdropped : Reaches ⟨c, e, .holding k ::ₘ others⟩ ⟨c, e, .returning k ::ₘ others⟩ :=
      goesOn_reaches .drop
    exact ⟨d, f, (hdropped.trans (hreturn k hk)).trans hr, hid⟩
  | returning k =>
    simp only [Activity.toStore?, Option.ite_none_right_eq_some, Option.some.injEq] at ha
    obtain ⟨hk, rfl⟩ := ha
    obtain ⟨d, f, hr, hid⟩ := hstore k
    exact ⟨d, f, (hreturn k hk).trans hr, hid⟩
  | matched k =>
    simp only [Activity.toStore?, Option.ite_none_right_eq_some, Option.some.injEq] at ha
    obtain ⟨hopen, rfl⟩ := ha
    obtain ⟨d, f, hr, hid⟩ := hstore k
    exact ⟨d, f, (goesOn_reaches (.spare hopen)).trans hr, hid⟩
  | storing k =>
    obtain rfl := Option.some.inj ha
    exact hstore k
  | _ => cases ha

/-- Whatever is on its way into the cache can get there: a cache put to use takes it in. -/
theorem reaches_cached (ha : a ∈ s.activities) (hid : a.toStore? s.connection = some id) :
    ∃ t, Reaches s t ∧ id ∈ t.connection.cache.ids := by
  obtain ⟨others, hc⟩ := Multiset.exists_cons_of_mem ha
  obtain ⟨c, e, activities⟩ := s
  obtain rfl : activities = a ::ₘ others := hc
  have hconfigured : c.configureCache? {} e =
      some ({ c with cache := { c.cache with settings := {}, entries := [] } },
        e.finalizeAll c.cache.statements) := rfl
  have hempty : Reaches ⟨c, e, a ::ₘ others⟩ _ := .step (.configure hconfigured)
  have hstore : a.toStore? { c with
      cache := { c.cache with settings := {}, entries := [] } } = some id := hid
  obtain ⟨d, f, hr, hcached⟩ := toStore_reaches rfl rfl hstore
  exact ⟨⟨d, f, others⟩, hempty.trans hr, hcached⟩

/-- A connection that nobody uses yet. -/
def State.opening (c : Connection) (e : Engine) : State := ⟨c, e, 0⟩

/-- Whether a statement is in the cache, or just coming out of it. -/
def State.Shows (s : State) (id : StatementId) : Prop :=
  id ∈ s.connection.cache.ids ∨ ∃ k t, Step s (.found k) t ∧ k.statement.id = id

theorem State.shows_iff : s.Shows id ↔ id ∈ s.connection.cache.ids := by
  constructor
  · rintro (hid | ⟨k, t, hs, rfl⟩)
    · exact hid
    · obtain ⟨a, others, next, -, ha, -⟩ | ⟨hquiet, -⟩ := hs.cases_activity
      · exact ha.found
      · cases hquiet
  · intro hid
    exact .inl hid

theorem stamped_opening (h : Reaches (.opening c e) s) : s.Stamped :=
  h.stamped fun _ ha => absurd ha (Multiset.notMem_zero _)

/-- From an emptied cache on, an old statement is seen there again just if it is on its way. -/
theorem shows_iff_toStore (hs : s.Stamped) (hempty : s.connection.cache.ids = [])
    (hold : id.number ≤ s.engine.lastStatement) :
    (∃ t, Reaches s t ∧ t.Shows id) ↔ ∃ a ∈ s.activities, a.toStore? s.connection = some id := by
  constructor
  · rintro ⟨t, ht, hshows⟩
    obtain (hcached | hstore) | hnew := ht.mayCache hs (.inl (State.shows_iff.mp hshows))
    · rw [hempty] at hcached
      cases hcached
    · exact hstore
    · omega
  · rintro ⟨a, ha, hid⟩
    obtain ⟨t, ht, hcached⟩ := reaches_cached ha hid
    exact ⟨t, ht, .inl hcached⟩

theorem toStore?_nextGeneration (hd : d.generation = c.generation + 1)
    (ha : a.stamp ≤ c.generation) (hquiet : ∀ k, a ≠ .matched k ∧ a ≠ .storing k) :
    a.toStore? d = none := by
  cases a with
  | holding k | returning k =>
    have ha : k.generation ≤ c.generation := ha
    simp only [Activity.toStore?, ite_eq_right_iff, Connection.accepts_iff]
    intro hk
    omega
  | matched k => exact absurd rfl (hquiet k).1
  | storing k => exact absurd rfl (hquiet k).2
  | _ => rfl

/-- A change whose two steps nothing comes between, with no drop halfway, keeps its promise. -/
theorem undisturbed_change {s₀ s₁ s₂ : State} {sql : String} {g : Nat}
    (start : Reaches (.opening c e) s₀)
    (quiet : ∀ a ∈ s₀.activities, ∀ k, a ≠ .matched k ∧ a ≠ .storing k)
    (bump : Step s₀ (.bumped sql g) s₁) (empty : Step s₁ (.emptied sql g) s₂)
    (hold : id.number ≤ s₀.engine.lastStatement) (ht : Reaches s₂ t) : ¬ t.Shows id := by
  have hstamped := stamped_opening start
  have hreach : Reaches s₀ s₂ := (Reaches.step bump).trans (Reaches.step empty)
  intro hshows
  obtain ⟨b, hb, hstore⟩ := (shows_iff_toStore (stamped_opening (start.trans hreach))
    empty.emptied (hold.trans hreach.lastStatement_le)).mp ⟨t, ht, hshows⟩
  obtain ⟨others, hc, rfl⟩ := bump.bumped_eq
  obtain ⟨others', hc', rfl⟩ := empty.emptied_eq
  obtain rfl := (Multiset.cons_inj_right _).mp hc'
  cases Multiset.mem_cons.mp hb with
  | inl hnew =>
    rw [hnew] at hstore
    cases hstore
  | inr hother =>
    have hb : b ∈ s₀.activities := hc ▸ Multiset.mem_cons_of_mem hother
    have hnone := toStore?_nextGeneration (d := (s₀.connection.nextGeneration.clearCache
      s₀.engine).1) rfl (hstamped b hb) (quiet b hb)
    rw [hnone] at hstore
    cases hstore

/-- A statement from before a schema change comes back after it just if it is on its way into the
cache when the change has emptied that: its drop had come past the comparison of generations by
then, or it was looked up under the new generation before its entry was gone. -/
theorem stale_returns_iff {s₀ s₁ s₂ s₃ : State} {sql : String} {g : Nat}
    (start : Reaches (.opening c e) s₀) (bump : Step s₀ (.bumped sql g) s₁)
    (between : Reaches s₁ s₂) (empty : Step s₂ (.emptied sql g) s₃)
    (hold : id.number ≤ s₀.engine.lastStatement) :
    (∃ t, Reaches s₃ t ∧ t.Shows id) ↔
      ∃ a ∈ s₃.activities, a.toStore? s₃.connection = some id := by
  have hreach : Reaches s₀ s₃ := ((Reaches.step bump).trans between).trans (Reaches.step empty)
  exact shows_iff_toStore (stamped_opening (start.trans hreach)) empty.emptied
    (hold.trans hreach.lastStatement_le)

private def opened : Connection := ⟨⟨⟨1⟩, true, false, none⟩, {}, 0⟩

private def driver : Engine := { lastConnection := 1, counters := { opened := 1 } }

/-- The first statement of the connection. -/
private def query : Checkout where
  sql := "SELECT * FROM t;"
  statement := driver.statementFor opened.raw "SELECT * FROM t;"
  cacheable := true
  generation := 0

private def looked : Connection := { opened with cache := { misses := 1 } }

/-- One thread is about to store its statement, another about to change the schema. -/
private def racing : State where
  connection := looked
  engine := driver.issue
  activities := {.dated "DROP TABLE t;" 0, .storing query}

private theorem racing_reached : Reaches (.opening opened driver) racing := by
  have hasked : Reaches (.opening opened driver) ⟨opened, driver, {.asking query.sql}⟩ :=
    .step .ask
  have hprepared : Reaches ⟨opened, driver, {.asking query.sql}⟩
      ⟨looked, driver.issue, {.holding query}⟩ := prepare_reaches opened query.sql driver
  have hdropped : Reaches ⟨looked, driver.issue, {.holding query}⟩
      ⟨looked, driver.issue, {.returning query}⟩ := goesOn_reaches .drop
  have hmatched : Reaches ⟨looked, driver.issue, {.returning query}⟩
      ⟨looked, driver.issue, {.matched query}⟩ := goesOn_reaches (.agree rfl rfl)
  have hspared : Reaches ⟨looked, driver.issue, {.matched query}⟩
      ⟨looked, driver.issue, {.storing query}⟩ := goesOn_reaches (.spare rfl)
  have hchange : Reaches ⟨looked, driver.issue, {.storing query}⟩
      ⟨looked, driver.issue, {.asking "DROP TABLE t;", .storing query}⟩ := .step .ask
  have hentered : Reaches ⟨looked, driver.issue, {.asking "DROP TABLE t;", .storing query}⟩
      ⟨looked, driver.issue, {.admitted "DROP TABLE t;", .storing query}⟩ :=
    goesOn_reaches (.enter rfl)
  have hstored := (((hasked.trans hprepared).trans hdropped).trans hmatched).trans hspared
  exact ((hstored.trans hchange).trans hentered).trans (goesOn_reaches .date)

private def bumped : State where
  connection := looked.nextGeneration
  engine := driver.issue
  activities := {.invalidating "DROP TABLE t;" 0, .storing query}

private def emptied : State where
  connection := looked.nextGeneration
  engine := driver.issue
  activities := {.compiling "DROP TABLE t;" false 0, .storing query}

private theorem racing_bumped : Step racing (.bumped "DROP TABLE t;" 0) bumped := by
  have hstep : Step racing _ (.turn looked.nextGeneration driver.issue
      (some (.invalidating "DROP TABLE t;" 0)) {.storing query}) :=
    .advance rfl (.bump (by decide +kernel))
  exact hstep

private theorem bumped_emptied : Step bumped (.emptied "DROP TABLE t;" 0) emptied := by
  have hstep : Step bumped _ (.turn looked.nextGeneration driver.issue
      (some (.compiling "DROP TABLE t;" false 0)) {.storing query}) :=
    .advance rfl .empty
  exact hstep

theorem stale_returns_iff_racing :
    (∃ t, Reaches emptied t ∧ t.Shows query.statement.id) ∧
      query.statement.id.number ≤ racing.engine.lastStatement := by
  have hold : query.statement.id.number ≤ racing.engine.lastStatement := by decide
  have hback := (stale_returns_iff racing_reached racing_bumped .refl bumped_emptied hold).mpr
    ⟨.storing query, by simp [emptied], rfl⟩
  exact ⟨hback, hold⟩

/-- A drop that found the generations equal before a schema change stores its statement after it.
It is not true that no statement from before a change ever comes back. -/
theorem stale_statement_returns :
    ¬ ∀ (c : Connection) (e : Engine) (s₀ s₁ s₂ s₃ t : State) (sql : String) (g : Nat)
      (id : StatementId), Reaches (.opening c e) s₀ → Step s₀ (.bumped sql g) s₁ →
        Reaches s₁ s₂ → Step s₂ (.emptied sql g) s₃ → Reaches s₃ t →
          id.number ≤ s₀.engine.lastStatement → ¬ t.Shows id := by
  intro hnever
  have hstored : Reaches emptied ⟨{ looked.nextGeneration with
      cache := (looked.cache.release query.sql query.statement).2 }, driver.issue,
      {.compiling "DROP TABLE t;" false 0}⟩ := by
    have hswap : emptied = ⟨looked.nextGeneration, driver.issue,
        .storing query ::ₘ {.compiling "DROP TABLE t;" false 0}⟩ := by
      rw [emptied, State.mk.injEq]
      exact ⟨rfl, rfl, Multiset.cons_swap _ _ _⟩
    rw [hswap]
    exact ends_reaches (.store rfl)
  refine hnever opened driver racing bumped bumped emptied _ "DROP TABLE t;" 0
    query.statement.id racing_reached racing_bumped .refl bumped_emptied hstored (by decide) ?_
  exact .inl (by decide +kernel)

end ConnectionPool.Sharing

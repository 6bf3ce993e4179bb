import ConnectionPool.Proofs.Script.Genuine

/-!
# Statements handed on

What engines, caches and connections do with the statements that pass through them, one lemma for
each way it can go.
-/

namespace ConnectionPool

variable {e f : Engine} {sql : String} {s : Statement} {id : StatementId}

theorem Statement.id_eq_of_rewind {t : Statement} (h : s.rewind = t.rewind) : s.id = t.id := by
  have hid : s.rewind.id = t.rewind.id := congrArg Statement.id h
  exact hid

namespace Engine

variable {raw after : RawConnection}

theorem step_eq {result : Except DriverError Advance} {t : Statement}
    (h : e.step s = (result, t, f)) :
    t.rewind = s.rewind ∧ ∃ steps, f = { e with faults := { e.faults with steps } } := by
  have hrewind := e.step_rewind s
  rw [h] at hrewind
  refine ⟨hrewind, ?_⟩
  unfold step at h
  split at h
  · cases h
    exact ⟨_, rfl⟩
  · cases h
    exact ⟨e.faults.steps, rfl⟩

theorem close_eq {result : Except DriverError Unit} (h : e.close raw = (result, after, f)) :
    (∃ isOpen, after = { raw with isOpen } ∧ (isOpen = true → raw.isOpen = true)) ∧
      ∃ closed closes, f = { e with
        counters := { e.counters with closed }
        faults := { e.faults with closes } } := by
  unfold close at h
  split at h
  · cases h
    exact ⟨⟨raw.isOpen, rfl, fun ho => ho⟩, e.counters.closed, _, rfl⟩
  · split at h
    · cases h
      exact ⟨⟨raw.isOpen, rfl, fun ho => ho⟩, e.counters.closed, e.faults.closes, rfl⟩
    · cases h
      exact ⟨⟨false, rfl, nofun⟩, _, e.faults.closes, rfl⟩

theorem finalizeAll_cons (e : Engine) (s : Statement) (left : List Statement) :
    e.finalizeAll (s :: left) = (e.finalize s).finalizeAll left := rfl

@[simp] theorem lastStatement_finalizeAll (e : Engine) (left : List Statement) :
    (e.finalizeAll left).lastStatement = e.lastStatement := by
  induction left generalizing e with
  | nil => rfl
  | cons s left ih => exact ih (e.finalize s)

/-- The engine once it has given out one more statement. -/
def issue (e : Engine) : Engine :=
  { e with
    lastStatement := e.lastStatement + 1
    counters := { e.counters with prepared := e.counters.prepared + 1 } }

theorem prepare_ok (h : e.prepare raw sql = (.ok s, after, f)) :
    raw.isOpen = true ∧ Sql.isMalformed sql = false ∧ s = e.statementFor raw sql ∧
      after = { raw with lastError := none } ∧ f = e.issue := by
  unfold prepare at h
  split at h
  · cases h
  · rename_i hopen
    split at h
    · cases h
    · rename_i hgood
      cases h
      exact ⟨by simpa using hopen, by simpa using hgood, rfl, rfl, rfl⟩

theorem prepare_error {error : DriverError} (h : e.prepare raw sql = (.error error, after, f)) :
    (∃ message, after = { raw with lastError := message }) ∧ f = e := by
  unfold prepare at h
  split at h
  · cases h
    exact ⟨⟨raw.lastError, rfl⟩, rfl⟩
  · split at h
    · cases h
      exact ⟨⟨_, rfl⟩, rfl⟩
    · cases h

end Engine

namespace Connection

variable {c d : Connection}

theorem prepareFresh_ok (h : c.prepareFresh sql e = (.ok s, d, f)) :
    c.isOpen = true ∧ Sql.isMalformed sql = false ∧ s = e.statementFor c.raw sql ∧
      d = { c with raw := { c.raw with lastError := none } } ∧ f = e.issue := by
  unfold prepareFresh at h
  split at h
  · cases h
  · cases hp : e.prepare c.raw sql with
    | mk result after =>
      obtain ⟨raw, g⟩ := after
      rw [hp] at h
      cases result with
      | error error => cases h
      | ok t =>
        cases h
        obtain ⟨hopen, hgood, hs, rfl, hf⟩ := Engine.prepare_ok hp
        exact ⟨hopen, hgood, hs, rfl, hf⟩

theorem prepareFresh_error {error : ConnectionError}
    (h : c.prepareFresh sql e = (.error error, d, f)) :
    (∃ message, d = { c with raw := { c.raw with lastError := message } }) ∧ f = e := by
  unfold prepareFresh at h
  split at h
  · cases h
    exact ⟨⟨c.raw.lastError, rfl⟩, rfl⟩
  · cases hp : e.prepare c.raw sql with
    | mk result after =>
      obtain ⟨raw, g⟩ := after
      rw [hp] at h
      cases result with
      | ok t => cases h
      | error reason =>
        cases h
        obtain ⟨⟨message, rfl⟩, hf⟩ := Engine.prepare_error hp
        exact ⟨⟨message, rfl⟩, hf⟩

theorem lookUp_eq {found : Option Statement} (h : c.lookUp sql e = (found, d, f)) :
    found = (c.cache.acquire c.id sql).found ∧
      d = { c with cache := (c.cache.acquire c.id sql).cache } ∧
      f = e.finalizeAll (c.cache.acquire c.id sql).discarded := by
  obtain ⟨hfound, hafter⟩ := Prod.mk.inj h
  obtain ⟨hd, hf⟩ := Prod.mk.inj hafter
  exact ⟨hfound.symm, hd.symm, hf.symm⟩

theorem configureCache?_eq {settings : CacheSettings}
    (h : c.configureCache? settings e = some (d, f)) :
    d = { c with cache := { c.cache with settings, entries := [] } } ∧
      f = e.finalizeAll c.cache.statements := by
  obtain ⟨⟨left, cache⟩, hr, hd⟩ := Option.map_eq_some_iff.mp h
  unfold StatementCache.reconfigure? at hr
  split at hr
  · cases hr
    cases hd
    exact ⟨rfl, rfl⟩
  · cases hr

theorem accepts_iff {k : Checkout} : c.accepts k = true ↔
    k.cacheable = true ∧ k.generation = c.generation ∧ c.isOpen = true := by
  simp only [accepts, Bool.and_eq_true, beq_iff_eq, and_assoc]

/-- The connection once its cache was asked for a text. -/
def afterLookUp (c : Connection) (sql : String) : Connection :=
  { c with cache := (c.cache.acquire c.id sql).cache }

/-- The connection with another last error. -/
def withError (c : Connection) (message : Option String) : Connection :=
  { c with raw := { c.raw with lastError := message } }

/-- How a statement is prepared, and what that leaves. -/
inductive Prepares (c : Connection) (sql : String) (e : Engine) :
    Checkout → Connection → Engine → Prop
  | change : Sql.changesSchema sql = true →
      Prepares c sql e
        ⟨sql, (e.finalizeAll c.cache.statements).statementFor c.raw sql, false, c.generation⟩
        ((c.nextGeneration.clearCache e).1.withError none)
        (e.finalizeAll c.cache.statements).issue
  | hit {t : Statement} : Sql.changesSchema sql = false →
      (c.cache.acquire c.id sql).found = some t →
      Prepares c sql e ⟨sql, t, true, c.generation⟩ (c.afterLookUp sql)
        (e.finalizeAll (c.cache.acquire c.id sql).discarded)
  | fresh {g : Engine} : Sql.changesSchema sql = false →
      (c.cache.acquire c.id sql).found = none →
      g = e.finalizeAll (c.cache.acquire c.id sql).discarded →
      Prepares c sql e ⟨sql, g.statementFor c.raw sql, true, c.generation⟩
        ((c.afterLookUp sql).withError none) g.issue

/-- What a statement that could not be prepared leaves. -/
inductive Refuses (c : Connection) (sql : String) (e : Engine) : Connection → Engine → Prop
  | closed : c.isOpen = false → Refuses c sql e c e
  | change (message : Option String) : Sql.changesSchema sql = true →
      Refuses c sql e ((c.nextGeneration.clearCache e).1.withError message)
        (e.finalizeAll c.cache.statements)
  | fresh (message : Option String) : Sql.changesSchema sql = false →
      (c.cache.acquire c.id sql).found = none →
      Refuses c sql e ((c.afterLookUp sql).withError message)
        (e.finalizeAll (c.cache.acquire c.id sql).discarded)

theorem prepareFresh_cases (c : Connection) (sql : String) (e : Engine) :
    (∃ s, c.prepareFresh sql e = (.ok s, c.withError none, e.issue) ∧
      s = e.statementFor c.raw sql) ∨
    ∃ error message, c.prepareFresh sql e = (.error error, c.withError message, e) := by
  cases h : c.prepareFresh sql e with
  | mk result after =>
    obtain ⟨d, f⟩ := after
    cases result with
    | ok s =>
      obtain ⟨-, -, hs, rfl, rfl⟩ := prepareFresh_ok h
      exact .inl ⟨s, rfl, hs⟩
    | error error =>
      obtain ⟨⟨message, rfl⟩, rfl⟩ := prepareFresh_error h
      exact .inr ⟨error, message, rfl⟩

theorem prepare_cases (c : Connection) (sql : String) (e : Engine) :
    (∃ k d f, c.prepare sql e = (.ok k, d, f) ∧ c.isOpen = true ∧ Prepares c sql e k d f) ∨
      ∃ error d f, c.prepare sql e = (.error error, d, f) ∧ Refuses c sql e d f := by
  rw [prepare]
  cases hopen : c.isOpen with
  | false => exact .inr ⟨.closed, c, e, rfl, .closed hopen⟩
  | true =>
    cases hchange : Sql.changesSchema sql with
    | true =>
      have hfresh := prepareFresh_cases (c.nextGeneration.clearCache e).1 sql
        (c.nextGeneration.clearCache e).2
      obtain ⟨s, hp, rfl⟩ | ⟨error, message, hp⟩ := hfresh
      · refine .inl ⟨_, _, _, ?_, rfl, .change hchange⟩
        simp only [prepareSchemaChange, hp]
        rfl
      · refine .inr ⟨error, _, _, ?_, .change message hchange⟩
        simp only [prepareSchemaChange, hp]
        rfl
    | false =>
      cases hfound : (c.cache.acquire c.id sql).found with
      | some s =>
        have hl : c.lookUp sql e = (some s, c.afterLookUp sql, _) := Prod.ext hfound rfl
        refine .inl ⟨_, _, _, ?_, rfl, .hit hchange hfound⟩
        simp only [prepareCached, hl]
        rfl
      | none =>
        have hl : c.lookUp sql e = (none, c.afterLookUp sql, _) := Prod.ext hfound rfl
        have hfresh := prepareFresh_cases (c.afterLookUp sql) sql
          (e.finalizeAll (c.cache.acquire c.id sql).discarded)
        obtain ⟨s, hp, rfl⟩ | ⟨error, message, hp⟩ := hfresh
        · refine .inl ⟨_, _, _, ?_, rfl, .fresh hchange hfound rfl⟩
          simp only [prepareCached, hl, hp]
          rfl
        · refine .inr ⟨error, _, _, ?_, .fresh message hchange hfound⟩
          simp only [prepareCached, hl, hp]
          rfl

theorem prepare_ok {k : Checkout} (h : c.prepare sql e = (.ok k, d, f)) :
    c.isOpen = true ∧ Prepares c sql e k d f := by
  obtain ⟨k', d', f', hp, hopen, hk⟩ | ⟨error, d', f', hp, -⟩ := c.prepare_cases sql e
  · rw [hp] at h
    cases h
    exact ⟨hopen, hk⟩
  · rw [hp] at h
    cases h

theorem prepare_error {error : ConnectionError} (h : c.prepare sql e = (.error error, d, f)) :
    Refuses c sql e d f := by
  obtain ⟨k, d', f', hp, -⟩ | ⟨error', d', f', hp, hr⟩ := c.prepare_cases sql e
  · rw [hp] at h
    cases h
  · rw [hp] at h
    cases h
    exact hr

end Connection

namespace StatementCache

variable {c : StatementCache} {owner : ConnectionId}

/-- The numbers of the statements kept, the latest stored first. -/
def ids (c : StatementCache) : List StatementId := c.statements.map Statement.id

theorem mem_ids : id ∈ c.ids ↔ ∃ x ∈ c.entries, x.2.id = id := by
  simp only [ids, statements, List.map_map, List.mem_map, Function.comp]

theorem mem_ids_of_acquire (h : id ∈ (c.acquire owner sql).cache.ids) : id ∈ c.ids := by
  obtain ⟨x, hx, hid⟩ := mem_ids.mp h
  exact mem_ids.mpr ⟨x, mem_of_mem_acquire hx, hid⟩

theorem id_mem_of_found (h : (c.acquire owner sql).found = some s) : s.id ∈ c.ids := by
  obtain ⟨t, ht, rfl⟩ := found_mem h
  exact mem_ids.mpr ⟨(sql, t), ht, rfl⟩

theorem mem_ids_of_release (h : id ∈ (c.release sql s).2.ids) : id = s.id ∨ id ∈ c.ids := by
  obtain ⟨x, hx, hid⟩ := mem_ids.mp h
  cases mem_of_mem_release hx with
  | inl hnew =>
    rw [hnew] at hid
    exact .inl hid.symm
  | inr hold => exact .inr (mem_ids.mpr ⟨x, hold, hid⟩)

theorem id_mem_release (ha : c.isActive = true) (hc : c.contains sql = false) :
    s.id ∈ (c.release sql s).2.ids := by
  refine mem_ids.mpr ⟨(sql, s), ?_, rfl⟩
  unfold release push
  simp only [ha, hc, Bool.not_true, Bool.or_self, Bool.false_eq_true, if_false]
  split <;> exact List.mem_cons_self

end StatementCache

end ConnectionPool

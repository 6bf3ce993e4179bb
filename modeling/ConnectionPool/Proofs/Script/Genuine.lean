import ConnectionPool.Proofs.Script.Bare

/-!
# Genuine statements

A statement kept or checked out under a text differs from the one that the engine would prepare
for that text in its number and in the state of its run alone, whatever has been done to it. So
one that comes out of the cache, rewound, is as good as new.
-/

namespace ConnectionPool

namespace StatementCache

theorem mem_of_mem_acquire {c : StatementCache} {owner : ConnectionId} {sql : String}
    {x : String × Statement} (h : x ∈ (c.acquire owner sql).cache.entries) : x ∈ c.entries := by
  unfold acquire at h
  split at h
  · exact h
  · split at h
    · exact h
    · split at h <;> exact List.mem_of_mem_eraseP h

theorem found_mem {c : StatementCache} {owner : ConnectionId} {sql : String} {s : Statement}
    (h : (c.acquire owner sql).found = some s) : ∃ t, (sql, t) ∈ c.entries ∧ s = t.rewind := by
  unfold acquire at h
  split at h
  · cases h
  · cases hg : c.get? sql with
    | none =>
      rw [hg] at h
      cases h
    | some t =>
      obtain ⟨before, after, he, -⟩ := List.lookup_eq_some_iff.mp hg
      simp only [hg] at h
      split at h
      · refine ⟨t, ?_, (Option.some.inj h).symm⟩
        rw [he]
        exact List.mem_append_right _ List.mem_cons_self
      · cases h

theorem mem_of_mem_release {c : StatementCache} {sql : String} {s : Statement}
    {x : String × Statement} (h : x ∈ (c.release sql s).2.entries) :
    x = (sql, s) ∨ x ∈ c.entries := by
  unfold release push at h
  split at h
  · exact .inr h
  · split at h
    · exact (List.mem_cons.mp h).imp_right fun hx => List.dropLast_subset _ hx
    · exact List.mem_cons.mp h

end StatementCache

structure Terms where
  owner : ConnectionId
  readOnly : Bool
  extraRows : Nat

def Connection.terms (c : Connection) (e : Engine) : Terms :=
  ⟨c.raw.id, c.raw.readOnly, e.faults.extraRows⟩

namespace Terms

/-- The statement that an engine prepares for a well-formed text, its number apart. -/
def issue (t : Terms) (sql : String) : Statement :=
  (Engine.statementFor { faults := { extraRows := t.extraRows } }
    ⟨t.owner, true, t.readOnly, none⟩ sql).unnumbered

theorem issue_terms (c : Connection) (e : Engine) (sql : String) :
    (c.terms e).issue sql = (e.statementFor c.raw sql).unnumbered := rfl

structure Genuine (t : Terms) (sql : String) (s : Statement) : Prop where
  wellFormed : Sql.isMalformed sql = false
  rewound : s.rewind.unnumbered = t.issue sql

variable {t : Terms} {sql : String} {s : Statement}

theorem Genuine.of_rewind {u : Statement} (h : t.Genuine sql s) (hu : u.rewind = s.rewind) :
    t.Genuine sql u :=
  ⟨h.wellFormed, hu ▸ h.rewound⟩

theorem Genuine.of_issue (hw : Sql.isMalformed sql = false) (hs : s.unnumbered = t.issue sql) :
    t.Genuine sql s :=
  ⟨hw, congrArg Statement.rewind hs⟩

end Terms

namespace Statement

theorem advance_rewind (s : Statement) : s.advance.2.rewind = s.rewind := by
  unfold advance
  split
  · rfl
  · split <;> rfl

end Statement

namespace Engine

theorem step_rewind (e : Engine) (s : Statement) : (e.step s).2.1.rewind = s.rewind := by
  unfold step
  split
  · rfl
  · exact s.advance_rewind

theorem step_extraRows (e : Engine) (s : Statement) :
    (e.step s).2.2.faults.extraRows = e.faults.extraRows := by
  unfold step
  split <;> rfl

theorem run_keeps {P : Statement → Engine → Prop}
    (hstep : ∀ s e, P s e → P (e.step s).2.1 (e.step s).2.2) {e : Engine} {s : Statement}
    (h : P s e) : P (e.run s).2.1 (e.run s).2.2 := by
  have hfrom : ∀ fuel rows e s, P s e →
      P (runFrom rows fuel e s).2.1 (runFrom rows fuel e s).2.2 := by
    intro fuel
    induction fuel with
    | zero =>
      intro rows e s h
      exact h
    | succ fuel ih =>
      intro rows e s h
      have h := hstep s e h
      rw [runFrom]
      rcases hr : e.step s with ⟨result, u, after⟩
      rw [hr] at h
      cases result with
      | error error => exact h
      | ok advance =>
        cases advance with
        | row => exact ih (rows + 1) after u h
        | done => exact h
  exact hfrom _ 0 e s h

theorem run_rewind (e : Engine) (s : Statement) : (e.run s).2.1.rewind = s.rewind :=
  run_keeps (P := fun u _ => u.rewind = s.rewind)
    (fun u f h => (f.step_rewind u).trans h) rfl

theorem run_extraRows (e : Engine) (s : Statement) :
    (e.run s).2.2.faults.extraRows = e.faults.extraRows :=
  run_keeps (P := fun _ f => f.faults.extraRows = e.faults.extraRows)
    (fun u f h => (f.step_extraRows u).trans h) rfl

theorem close_terms (e : Engine) (raw : RawConnection) :
    (e.close raw).2.1.id = raw.id ∧ (e.close raw).2.1.readOnly = raw.readOnly ∧
      (e.close raw).2.2.faults.extraRows = e.faults.extraRows := by
  unfold close
  split
  · exact ⟨rfl, rfl, rfl⟩
  · split <;> exact ⟨rfl, rfl, rfl⟩

end Engine

/-- Whether a connection has its statements on the terms `t` and keeps genuine ones only. -/
structure Connection.Sound (t : Terms) (c : Connection) (e : Engine) : Prop where
  terms : c.terms e = t
  kept : ∀ x ∈ c.cache.entries, t.Genuine x.1 x.2

namespace Connection

variable {t : Terms} {c : Connection} {e : Engine}

theorem Sound.of_bare {d : Connection} {f : Engine} (h : c.Sound t e) (hd : d.bare = c.bare)
    (hf : f.bare = e.bare) (hk : ∀ x ∈ d.cache.entries, t.Genuine x.1 x.2) : d.Sound t f := by
  refine ⟨?_, hk⟩
  rw [← h.terms]
  show d.bare.terms f.bare = c.bare.terms e.bare
  rw [hd, hf]

theorem Sound.clearCache (h : c.Sound t e) : (c.clearCache e).1.Sound t (c.clearCache e).2 := by
  obtain ⟨hc, he⟩ := c.bare_clearCache e
  exact h.of_bare hc he (List.forall_mem_nil _)

theorem Sound.configureCache {d : Connection} {f : Engine} {settings : CacheSettings}
    (h : c.Sound t e) (hd : c.configureCache? settings e = some (d, f)) : d.Sound t f := by
  obtain ⟨hc, he⟩ := bare_configureCache hd
  apply h.of_bare hc he
  obtain ⟨⟨discarded, cache⟩, hr, hd⟩ := Option.map_eq_some_iff.mp hd
  obtain ⟨rfl, -⟩ := Prod.mk.inj hd
  unfold StatementCache.reconfigure? at hr
  split at hr
  · obtain ⟨-, rfl⟩ := Prod.mk.inj (Option.some.inj hr)
    exact List.forall_mem_nil _
  · cases hr

theorem Sound.lookUp (h : c.Sound t e) (sql : String) :
    (c.lookUp sql e).2.1.Sound t (c.lookUp sql e).2.2 := by
  obtain ⟨hc, he⟩ := c.bare_lookUp sql e
  apply h.of_bare hc he
  intro x hx
  exact h.kept x (StatementCache.mem_of_mem_acquire hx)

theorem Sound.prepareFresh (h : c.Sound t e) (sql : String) :
    (c.prepareFresh sql e).2.1.Sound t (c.prepareFresh sql e).2.2 := by
  obtain ⟨hc, he⟩ := c.bare_prepareFresh sql e
  have hcache : (c.prepareFresh sql e).2.1.cache = c.cache := by
    unfold Connection.prepareFresh
    split
    · rfl
    · split <;> rfl
  apply h.of_bare hc he
  intro x hx
  rw [hcache] at hx
  exact h.kept x hx

theorem Sound.prepare (h : c.Sound t e) (sql : String) :
    (c.prepare sql e).2.1.Sound t (c.prepare sql e).2.2 := by
  rw [Connection.prepare]
  cases c.isOpen with
  | false => exact h
  | true =>
    cases Sql.changesSchema sql with
    | true =>
      have hn : c.nextGeneration.Sound t e := ⟨h.terms, h.kept⟩
      show (c.prepareSchemaChange sql e).2.1.Sound t (c.prepareSchemaChange sql e).2.2
      rw [prepareSchemaChange_eq]
      exact hn.clearCache.prepareFresh sql
    | false =>
      show (c.prepareCached sql e).2.1.Sound t (c.prepareCached sql e).2.2
      cases hl : (c.lookUp sql e).1 with
      | some s =>
        rw [prepareCached_hit hl]
        exact h.lookUp sql
      | none =>
        rw [prepareCached_miss hl]
        exact (h.lookUp sql).prepareFresh sql

theorem Sound.recycle {k : Checkout} (h : c.Sound t e) (hk : t.Genuine k.sql k.statement) :
    (c.recycle k e).1.Sound t (c.recycle k e).2 := by
  obtain ⟨hc, he⟩ := c.bare_recycle k e
  apply h.of_bare hc he
  intro x hx
  unfold Connection.recycle at hx
  split at hx
  · obtain rfl | hx := StatementCache.mem_of_mem_release hx
    · exact hk
    · exact h.kept x hx
  · exact h.kept x hx

def verdict (c : Connection) (sql : String) (e : Engine) : Except ConnectionError Statement :=
  if !c.isOpen then .error .closed
  else if Sql.isMalformed sql then .error (.driver (.cannotPrepare sql "syntax error"))
  else .ok (e.statementFor c.raw sql).unnumbered

theorem verdict_congr {d : Connection} {f : Engine} (hc : c.bare = d.bare) (he : e.bare = f.bare)
    (sql : String) : c.verdict sql e = d.verdict sql f := by
  show c.bare.verdict sql e.bare = d.bare.verdict sql f.bare
  rw [hc, he]

theorem verdict_ok {sql : String} {s : Statement} (h : c.verdict sql e = .ok s) :
    Sql.isMalformed sql = false ∧ s = (c.terms e).issue sql := by
  unfold verdict at h
  split at h
  · cases h
  · split at h
    · cases h
    · rename_i hw
      rw [Terms.issue_terms]
      exact ⟨by simpa using hw, (Except.ok.inj h).symm⟩

theorem prepareFresh_verdict (c : Connection) (sql : String) (e : Engine) :
    (c.prepareFresh sql e).1.map Statement.unnumbered = c.verdict sql e := by
  unfold Connection.prepareFresh Engine.prepare verdict
  cases ho : c.isOpen with
  | false => rfl
  | true =>
    have hr : c.raw.isOpen = true := ho
    rw [hr]
    cases Sql.isMalformed sql <;> rfl

theorem Sound.lookUp_verdict {sql : String} {s : Statement} (h : c.Sound t e)
    (ho : c.isOpen = true) (hl : (c.lookUp sql e).1 = some s) :
    c.verdict sql e = .ok s.unnumbered := by
  obtain ⟨u, hu, rfl⟩ := StatementCache.found_mem hl
  obtain ⟨hw, hr⟩ := h.kept _ hu
  rw [verdict, ho, hw, hr, ← h.terms, Terms.issue_terms]
  rfl

private theorem map_unnumbered (result : Except ConnectionError Statement) (sql : String)
    (cacheable : Bool) (generation : Nat) :
    (result.map fun s => (⟨sql, s, cacheable, generation⟩ : Checkout)).map Checkout.unnumbered =
      (result.map Statement.unnumbered).map fun s => ⟨sql, s, cacheable, generation⟩ := by
  cases result <;> rfl

/-- Preparing comes to what the engine would answer, whether or not the cache answers for it. -/
theorem Sound.prepare_verdict (h : c.Sound t e) (sql : String) :
    (c.prepare sql e).1.map Checkout.unnumbered =
      (c.verdict sql e).map fun s => ⟨sql, s, !Sql.changesSchema sql, c.generation⟩ := by
  rw [Connection.prepare]
  cases ho : c.isOpen with
  | false =>
    rw [verdict, ho]
    rfl
  | true =>
    cases Sql.changesSchema sql with
    | true =>
      obtain ⟨hc, he⟩ := c.nextGeneration.bare_clearCache e
      show (c.prepareSchemaChange sql e).1.map Checkout.unnumbered = _
      rw [prepareSchemaChange_eq, map_unnumbered, prepareFresh_verdict, verdict_congr hc he]
      rfl
    | false =>
      show (c.prepareCached sql e).1.map Checkout.unnumbered = _
      cases hl : (c.lookUp sql e).1 with
      | some s =>
        rw [prepareCached_hit hl, h.lookUp_verdict ho hl]
        rfl
      | none =>
        obtain ⟨hc, he⟩ := c.bare_lookUp sql e
        rw [prepareCached_miss hl, map_unnumbered, prepareFresh_verdict, verdict_congr hc he]
        rfl

theorem Sound.prepare_genuine {sql : String} {k : Checkout} (h : c.Sound t e)
    (hk : (c.prepare sql e).1 = .ok k) : t.Genuine k.sql k.statement := by
  have hv := h.prepare_verdict sql
  rw [hk] at hv
  cases hr : c.verdict sql e with
  | error error =>
    rw [hr] at hv
    cases hv
  | ok s =>
    rw [hr] at hv
    obtain ⟨hw, hs⟩ := verdict_ok hr
    have hk : k.unnumbered = ⟨sql, s, !Sql.changesSchema sql, c.generation⟩ := Except.ok.inj hv
    have hsql : k.sql = sql := congrArg Checkout.sql hk
    have hu : k.statement.unnumbered = s := congrArg Checkout.statement hk
    rw [h.terms] at hs
    rw [hsql]
    apply Terms.Genuine.of_issue hw
    rw [hu, hs]

theorem Sound.bare (h : c.Sound t e) : c.bare.Sound t e.bare :=
  h.of_bare rfl rfl (List.forall_mem_nil _)

/-- A connection prepares what it would prepare without its cache. -/
theorem Sound.prepare_bare (h : c.Sound t e) (sql : String) :
    (c.prepare sql e).1.map Checkout.unnumbered =
        (c.bare.prepare sql e.bare).1.map Checkout.unnumbered ∧
      (c.prepare sql e).2.1.bare = (c.bare.prepare sql e.bare).2.1.bare ∧
      (c.prepare sql e).2.2.bare = (c.bare.prepare sql e.bare).2.2.bare := by
  obtain ⟨hc, he⟩ := c.bare_prepare sql e
  obtain ⟨hd, hf⟩ := c.bare.bare_prepare sql e.bare
  refine ⟨?_, hc.trans hd.symm, he.trans hf.symm⟩
  rw [h.prepare_verdict, h.bare.prepare_verdict]
  rfl

theorem execute_refused {sql : String} {error : ConnectionError}
    (h : (c.prepare sql e).1 = .error error) :
    c.execute sql e = (.error error, (c.prepare sql e).2) := by
  rcases hp : c.prepare sql e with ⟨result, d, f⟩
  rw [hp] at h
  obtain rfl : result = .error error := h
  simp only [execute, hp]

theorem execute_prepared {sql : String} {k : Checkout} (h : (c.prepare sql e).1 = .ok k) :
    c.execute sql e =
      (((c.prepare sql e).2.2.run k.statement).1.mapError .driver,
       (c.prepare sql e).2.1.recycle
        { k with statement := ((c.prepare sql e).2.2.run k.statement).2.1 }
        ((c.prepare sql e).2.2.run k.statement).2.2) := by
  rcases hp : c.prepare sql e with ⟨result, d, f⟩
  rw [hp] at h
  obtain rfl : result = .ok k := h
  simp only [execute, hp]

theorem Sound.execute (h : c.Sound t e) (sql : String) :
    (c.execute sql e).2.1.Sound t (c.execute sql e).2.2 := by
  have hp := h.prepare sql
  cases hr : (c.prepare sql e).1 with
  | error error =>
    rw [execute_refused hr]
    exact hp
  | ok k =>
    rw [execute_prepared hr]
    have hk : t.Genuine k.sql ((c.prepare sql e).2.2.run k.statement).2.1 :=
      (h.prepare_genuine hr).of_rewind (Engine.run_rewind _ _)
    have hd : (c.prepare sql e).2.1.Sound t ((c.prepare sql e).2.2.run k.statement).2.2 := by
      refine ⟨?_, hp.kept⟩
      rw [← hp.terms]
      exact congrArg (Terms.mk _ _) (Engine.run_extraRows _ _)
    exact hd.recycle hk

theorem Sound.execute_bare (h : c.Sound t e) (sql : String) :
    (c.execute sql e).1 = (c.bare.execute sql e.bare).1 ∧
      (c.execute sql e).2.1.bare = (c.bare.execute sql e.bare).2.1.bare ∧
      (c.execute sql e).2.2.bare = (c.bare.execute sql e.bare).2.2.bare := by
  obtain ⟨hr, hc, he⟩ := h.prepare_bare sql
  cases hk : (c.prepare sql e).1 with
  | error error =>
    cases hl : (c.bare.prepare sql e.bare).1 with
    | error refusal =>
      rw [hk, hl] at hr
      obtain rfl : error = refusal := Except.error.inj hr
      rw [execute_refused hk, execute_refused hl]
      exact ⟨rfl, hc, he⟩
    | ok l =>
      rw [hk, hl] at hr
      cases hr
  | ok k =>
    cases hl : (c.bare.prepare sql e.bare).1 with
    | error refusal =>
      rw [hk, hl] at hr
      cases hr
    | ok l =>
      rw [hk, hl] at hr
      have hs : k.statement.unnumbered = l.statement.unnumbered :=
        congrArg Checkout.statement (Except.ok.inj hr)
      -- The two statements differ in their numbers alone, so they run alike.
      have hrun := (c.prepare sql e).2.2.run_bare k.statement
      rw [hs, he, Engine.run_bare] at hrun
      obtain ⟨hresult, hrest⟩ := Prod.mk.inj hrun
      obtain ⟨-, hafter⟩ := Prod.mk.inj hrest
      rw [execute_prepared hk, execute_prepared hl, hresult]
      refine ⟨rfl, ?_, ?_⟩
      · rw [(bare_recycle _ _ _).1, (bare_recycle _ _ _).1, hc]
      · rw [(bare_recycle _ _ _).2, (bare_recycle _ _ _).2, hafter]

end Connection

end ConnectionPool

import ConnectionPool.Proofs.Custody.Charge

/-!
# Connections in service

What becomes of an engine, of a connection and of its statements when the connection is used or
ended. A connection in service stays as open as it was and loses no statement; one that is ended
has finalized every statement it keeps before the engine closes it.
-/

namespace ConnectionPool

variable {e f g : Engine} {sql : String} {s t : Statement}

/-- Whether an engine closes `n` connections on its way and opens none, whatever becomes of
statements. -/
structure Engine.Closing (e : Engine) (n : Nat) (f : Engine) : Prop where
  lastConnection : f.lastConnection = e.lastConnection
  opened : f.counters.opened = e.counters.opened
  closed : f.counters.closed = e.counters.closed + n
  closes : f.faults.closes = e.faults.closes
  finalized : e.finalized ⊆ f.finalized
  lastStatement : e.lastStatement ≤ f.lastStatement

/-- Whether an engine neither opens connections nor closes any. -/
abbrev Engine.Calm (e f : Engine) : Prop := e.Closing 0 f

namespace Engine

theorem Closing.refl (e : Engine) : e.Calm e :=
  ⟨rfl, rfl, rfl, rfl, List.Subset.refl _, Nat.le_refl _⟩

theorem Closing.trans {m n : Nat} (h : e.Closing m f) (h' : f.Closing n g) :
    e.Closing (m + n) g where
  lastConnection := h'.lastConnection.trans h.lastConnection
  opened := h'.opened.trans h.opened
  closed := by rw [h'.closed, h.closed, Nat.add_assoc]
  closes := h'.closes.trans h.closes
  finalized := List.Subset.trans h.finalized h'.finalized
  lastStatement := h.lastStatement.trans h'.lastStatement

theorem calm_finalize (e : Engine) (s : Statement) : e.Calm (e.finalize s) :=
  ⟨rfl, rfl, rfl, rfl, List.subset_cons_self _ _, Nat.le_refl _⟩

theorem calm_finalizeAll (e : Engine) (l : List Statement) : e.Calm (e.finalizeAll l) := by
  induction l generalizing e with
  | nil => exact .refl e
  | cons s l ih => exact (e.calm_finalize s).trans (ih (e.finalize s))

theorem mem_finalizeAll (e : Engine) {l : List Statement} (hs : s ∈ l) :
    s.id ∈ (e.finalizeAll l).finalized := by
  induction l generalizing e with
  | nil => cases hs
  | cons t l ih =>
    cases List.mem_cons.mp hs with
    | inl heq =>
      subst heq
      exact ((e.finalize s).calm_finalizeAll l).finalized List.mem_cons_self
    | inr hmem => exact ih (e.finalize t) hmem

theorem calm_issue (e : Engine) : e.Calm e.issue :=
  ⟨rfl, rfl, rfl, rfl, List.Subset.refl _, Nat.le_succ _⟩

theorem calm_step (e : Engine) (s : Statement) : e.Calm (e.step s).2.2 := by
  obtain ⟨steps, hf⟩ : ∃ steps, (e.step s).2.2 = { e with faults := { e.faults with steps } } :=
    (step_eq rfl).2
  rw [hf]
  exact ⟨rfl, rfl, rfl, rfl, List.Subset.refl _, Nat.le_refl _⟩

theorem owner_step (e : Engine) (s : Statement) : (e.step s).2.1.owner = s.owner := by
  have howner := congrArg Statement.owner (e.step_rewind s)
  exact howner

theorem calm_run (e : Engine) (s : Statement) :
    (e.run s).2.1.owner = s.owner ∧ e.Calm (e.run s).2.2 := by
  refine run_keeps (P := fun t f => t.owner = s.owner ∧ e.Calm f) ?_ ⟨rfl, .refl e⟩
  rintro t f ⟨howner, hcalm⟩
  exact ⟨(f.owner_step t).trans howner, hcalm.trans (f.calm_step t)⟩

theorem connect_ok {target : String} {mode : OpenMode} {raw : RawConnection}
    (h : e.connect target mode = (.ok raw, f)) :
    raw.id = ⟨e.lastConnection + 1⟩ ∧ raw.isOpen = true ∧ ∃ databases, f = { e with
      lastConnection := e.lastConnection + 1
      counters := { e.counters with opened := e.counters.opened + 1 }
      databases } := by
  unfold connect at h
  split at h
  · cases h
  · split at h
    · cases h
    · cases h
      exact ⟨rfl, rfl, _, rfl⟩

theorem connect_error {target : String} {mode : OpenMode} {error : DriverError}
    (h : e.connect target mode = (.error error, f)) : e.Calm f := by
  unfold connect at h
  split at h
  · cases h
    exact ⟨rfl, rfl, rfl, rfl, List.Subset.refl _, Nat.le_refl _⟩
  · split at h
    · cases h
      exact ⟨rfl, rfl, rfl, rfl, List.Subset.refl _, Nat.le_refl _⟩
    · cases h

theorem closing_close (he : e.faults.closes = 0) (raw : RawConnection) :
    (e.close raw).2.1 = { raw with isOpen := false } ∧
      e.Closing raw.isOpen.toNat (e.close raw).2.2 := by
  obtain ⟨id, isOpen, readOnly, lastError⟩ := raw
  cases isOpen with
  | false => simpa [close, he] using Closing.refl e
  | true =>
    simp only [close, he]
    exact ⟨rfl, rfl, rfl, rfl, rfl, List.Subset.refl _, Nat.le_refl _⟩

end Engine

/-- Whether a connection in service goes from `c` to `d`, its engine from `e` to `f`, and the
statements checked out of it from `out` to `back`. -/
structure Connection.Serves (c : Connection) (out : List Statement) (e : Engine) (d : Connection)
    (back : List Statement) (f : Engine) : Prop where
  id : d.id = c.id
  isOpen : d.isOpen = c.isOpen
  calm : e.Calm f
  own : (∀ t ∈ c.cache.statements ++ out, t.owner = c.id) →
    ∀ t ∈ d.cache.statements ++ back, t.owner = c.id
  level : d.charge + Statement.chargeAll back + f.charge =
    c.charge + Statement.chargeAll out + e.charge

namespace StatementCache

variable {c : StatementCache}

theorem mem_statements_of_acquire {owner : ConnectionId}
    (h : t ∈ (c.acquire owner sql).cache.statements) : t ∈ c.statements := by
  obtain ⟨x, hx, rfl⟩ := List.mem_map.mp h
  exact List.mem_map_of_mem (mem_of_mem_acquire hx)

theorem owner_of_found {owner owner' : ConnectionId} (hc : ∀ t ∈ c.statements, t.owner = owner')
    (h : (c.acquire owner sql).found = some s) : s.owner = owner' := by
  obtain ⟨t, ht, rfl⟩ := found_mem h
  have hmem : t ∈ c.statements := List.mem_map_of_mem (f := Prod.snd) ht
  exact hc t hmem

theorem mem_statements_of_release (h : t ∈ (c.release sql s).2.statements) :
    t = s ∨ t ∈ c.statements := by
  obtain ⟨x, hx, rfl⟩ := List.mem_map.mp h
  cases mem_of_mem_release hx with
  | inl heq => exact .inl (congrArg Prod.snd heq)
  | inr hmem => exact .inr (List.mem_map_of_mem hmem)

end StatementCache

namespace Connection

variable {c d : Connection} {k : Checkout} {out back more : List Statement}

namespace Serves

theorem trans {b : Connection} (h : Serves c out e d back f) (h' : Serves d back f b more g) :
    Serves c out e b more g where
  id := h'.id.trans h.id
  isOpen := h'.isOpen.trans h.isOpen
  calm := h.calm.trans h'.calm
  own hown t ht := by
    have hback : ∀ t ∈ d.cache.statements ++ back, t.owner = d.id := by
      intro t ht
      exact (h.own hown t ht).trans h.id.symm
    exact (h'.own hback t ht).trans h.id
  level := h'.level.trans h.level

/-- A statement that is kept, checked out or given out meanwhile ends up with the connection, with
a caller, or finalized. -/
theorem accounts {id : StatementId} (h : Serves c out e d back f)
    (hid : id ∈ c.cache.ids ∨ id ∈ out.map Statement.id ∨
      e.lastStatement < id.number ∧ id.number ≤ f.lastStatement) :
    id ∈ d.cache.ids ∨ id ∈ back.map Statement.id ∨ id ∈ f.finalized := by
  have hlevel := congrFun (congrArg Prod.fst h.level) id
  have hmore := h.calm.lastStatement
  simp only [Connection.charge, StatementCache.charge, Statement.chargeAll_eq, Engine.charge,
    Prod.fst_add, Pi.add_apply, Engine.issued] at hlevel
  rw [StatementCache.ids] at hid ⊢
  rw [← List.count_pos_iff, ← List.count_pos_iff (l := out.map _)] at hid
  rw [← List.count_pos_iff, ← List.count_pos_iff (l := back.map _),
    ← List.count_pos_iff (l := f.finalized)]
  split at hlevel <;> split at hlevel <;> omega

end Serves

theorem serves_withError (c : Connection) (message : Option String) (e : Engine) :
    Serves c [] e (c.withError message) [] e where
  id := rfl
  isOpen := rfl
  calm := .refl e
  own hown := hown
  level := rfl

theorem serves_clearCache (c : Connection) (e : Engine) :
    Serves c [] e (c.clearCache e).1 [] (c.clearCache e).2 where
  id := rfl
  isOpen := rfl
  calm := e.calm_finalizeAll _
  own _ t ht := by cases ht
  level := by
    rw [Statement.chargeAll_nil, add_zero, add_zero]
    exact c.charge_clearCache e

theorem serves_configureCache {settings : CacheSettings}
    (h : c.configureCache? settings e = some (d, f)) : Serves c [] e d [] f where
  id := by
    obtain ⟨rfl, -⟩ := configureCache?_eq h
    rfl
  isOpen := by
    obtain ⟨rfl, -⟩ := configureCache?_eq h
    rfl
  calm := by
    obtain ⟨-, rfl⟩ := configureCache?_eq h
    exact e.calm_finalizeAll _
  own _ t ht := by
    obtain ⟨rfl, -⟩ := configureCache?_eq h
    cases ht
  level := by
    rw [Statement.chargeAll_nil, add_zero, add_zero]
    exact charge_configureCache h

theorem serves_prepare (h : c.prepare sql e = (.ok k, d, f)) :
    Serves c [] e d [k.statement] f := by
  have hlevel : d.charge + Statement.chargeAll [k.statement] + f.charge =
      c.charge + Statement.chargeAll [] + e.charge := by
    have hcharge := charge_prepare_ok h
    have hone : Statement.chargeAll [k.statement] = k.charge := add_zero _
    rw [hone, Statement.chargeAll_nil, add_zero, ← hcharge, add_comm d.charge]
  cases (prepare_ok h).2 with
  | change =>
    refine ⟨rfl, rfl, (e.calm_finalizeAll _).trans (Engine.calm_issue _), ?_, hlevel⟩
    intro _ t ht
    obtain rfl := List.mem_singleton.mp ht
    rfl
  | hit hplain hfound =>
    refine ⟨rfl, rfl, e.calm_finalizeAll _, ?_, hlevel⟩
    intro hown t ht
    rw [List.append_nil] at hown
    cases List.mem_append.mp ht with
    | inl hkept => exact hown t (StatementCache.mem_statements_of_acquire hkept)
    | inr hout =>
      obtain rfl := List.mem_singleton.mp hout
      exact StatementCache.owner_of_found hown hfound
  | fresh hplain hfound hg =>
    subst hg
    refine ⟨rfl, rfl, (e.calm_finalizeAll _).trans (Engine.calm_issue _), ?_, hlevel⟩
    intro hown t ht
    rw [List.append_nil] at hown
    cases List.mem_append.mp ht with
    | inl hkept => exact hown t (StatementCache.mem_statements_of_acquire hkept)
    | inr hout =>
      obtain rfl := List.mem_singleton.mp hout
      rfl

theorem serves_prepare_error {error : ConnectionError}
    (h : c.prepare sql e = (.error error, d, f)) : Serves c [] e d [] f := by
  have hlevel : d.charge + Statement.chargeAll [] + f.charge =
      c.charge + Statement.chargeAll [] + e.charge := by
    rw [Statement.chargeAll_nil, add_zero, add_zero]
    exact charge_prepare_error h
  cases prepare_error h with
  | closed => exact ⟨rfl, rfl, .refl e, fun hown => hown, hlevel⟩
  | change =>
    refine ⟨rfl, rfl, e.calm_finalizeAll _, ?_, hlevel⟩
    intro _ t ht
    cases ht
  | fresh message hplain hfound =>
    refine ⟨rfl, rfl, e.calm_finalizeAll _, ?_, hlevel⟩
    intro hown t ht
    rw [List.append_nil] at hown ht
    exact hown t (StatementCache.mem_statements_of_acquire ht)

theorem serves_recycle (c : Connection) (k : Checkout) (e : Engine) :
    Serves c [k.statement] e (c.recycle k e).1 [] (c.recycle k e).2 := by
  have hlevel : (c.recycle k e).1.charge + Statement.chargeAll [] + (c.recycle k e).2.charge =
      c.charge + Statement.chargeAll [k.statement] + e.charge := by
    have hone : Statement.chargeAll [k.statement] = k.charge := add_zero _
    rw [hone, Statement.chargeAll_nil, add_zero, charge_recycle, add_comm k.charge]
  unfold recycle at hlevel ⊢
  split
  · rename_i haccepts
    rw [if_pos haccepts] at hlevel
    refine ⟨rfl, rfl, e.calm_finalizeAll _, ?_, hlevel⟩
    intro hown t ht
    rw [List.append_nil] at ht
    cases StatementCache.mem_statements_of_release ht with
    | inl heq => exact hown t (heq ▸ List.mem_append_right _ List.mem_cons_self)
    | inr hkept => exact hown t (List.mem_append_left _ hkept)
  · rename_i hrefuses
    rw [if_neg hrefuses] at hlevel
    refine ⟨rfl, rfl, e.calm_finalize _, ?_, hlevel⟩
    intro hown t ht
    rw [List.append_nil] at ht
    exact hown t (List.mem_append_left _ ht)

theorem serves_run (c : Connection) (e : Engine) (s : Statement) :
    Serves c [s] e c [(e.run s).2.1] (e.run s).2.2 where
  id := rfl
  isOpen := rfl
  calm := (e.calm_run s).2
  own hown t ht := by
    cases List.mem_append.mp ht with
    | inl hkept => exact hown t (List.mem_append_left _ hkept)
    | inr hout =>
      obtain rfl := List.mem_singleton.mp hout
      exact (e.calm_run s).1.trans (hown s (List.mem_append_right _ List.mem_cons_self))
  level := by
    obtain ⟨hs, he⟩ : (e.run s).2.1.charge = s.charge ∧ (e.run s).2.2.charge = e.charge :=
      Engine.charge_run rfl
    simp only [Statement.chargeAll_cons, hs, he]

theorem serves_execute (c : Connection) (sql : String) (e : Engine) :
    Serves c [] e (c.execute sql e).2.1 [] (c.execute sql e).2.2 := by
  unfold execute
  cases hp : c.prepare sql e with
  | mk result after =>
    obtain ⟨d, f⟩ := after
    cases result with
    | error error => exact serves_prepare_error hp
    | ok k =>
      have hrun := (serves_prepare hp).trans (d.serves_run f k.statement)
      exact hrun.trans (d.serves_recycle { k with statement := (f.run k.statement).2.1 } _)

theorem mem_clearCache (c : Connection) (e : Engine) {id : StatementId} (h : id ∈ c.cache.ids) :
    id ∈ (c.clearCache e).2.finalized := by
  obtain ⟨s, hs, rfl⟩ := List.mem_map.mp h
  exact e.mem_finalizeAll hs

/-- The driver is asked to close a connection after its cache was cleared, if it is open. -/
theorem shutdown_engine (c : Connection) (e : Engine) : (c.shutdown e).2.2 =
    if c.isOpen then ((c.clearCache e).2.close c.raw).2.2 else (c.clearCache e).2 := by
  cases hopen : c.raw.isOpen <;> simp [shutdown, isOpen, clearCache, hopen]

theorem closing_shutdown (he : e.faults.closes = 0) (c : Connection) :
    (c.shutdown e).2.1 = { (c.clearCache e).1 with raw := { c.raw with isOpen := false } } ∧
      (c.clearCache e).2.Closing c.isOpen.toNat (c.shutdown e).2.2 := by
  have hcalm : e.Calm (c.clearCache e).2 := e.calm_finalizeAll _
  have hclose := Engine.closing_close (hcalm.closes.trans he) c.raw
  cases hopen : c.raw.isOpen with
  | false =>
    have hshut : c.shutdown e = (.ok (), (c.clearCache e).1, (c.clearCache e).2) := by
      simp [shutdown, isOpen, clearCache, hopen]
    have hraw : { c.raw with isOpen := false } = c.raw := by rw [← hopen]
    rw [hshut, isOpen, hopen, hraw]
    exact ⟨rfl, .refl _⟩
  | true =>
    rw [hopen] at hclose
    have hshut : (c.shutdown e).2 = ({ (c.clearCache e).1 with
        raw := ((c.clearCache e).2.close c.raw).2.1 }, ((c.clearCache e).2.close c.raw).2.2) := by
      simp [shutdown, isOpen, clearCache, hopen]
    rw [hshut, isOpen, hopen, hclose.1]
    exact ⟨rfl, hclose.2⟩

theorem closing_destroy (he : e.faults.closes = 0) (c : Connection) :
    (c.clearCache e).2.Closing c.isOpen.toNat (c.destroy e) := (closing_shutdown he c).2

theorem close_eq_destroy (he : e.faults.closes = 0) (c : Connection) :
    (c.close e).2 = c.destroy e := by
  have hshut := (closing_shutdown he c).1
  have hafter : (c.close e).2 = (c.shutdown e).2.1.destroy (c.shutdown e).2.2 := rfl
  rw [hafter, hshut]
  rfl

end Connection

end ConnectionPool

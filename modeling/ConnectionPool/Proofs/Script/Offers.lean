import ConnectionPool.Proofs.Script.Holdings
import ConnectionPool.Proofs.Script.Transparency

/-!
# Offers

What may come out of a cache now or later, once the callers have given back what they hold: each
action of a script is followed backwards, to where a statement on offer was prepared.
-/

namespace ConnectionPool

/-- Whether a connection may give out a statement for a text, now or once it gets back what its
callers hold. -/
def Connection.Offers (c : Connection) (held : List Checkout) (sql : String)
    (id : StatementId) : Prop :=
  c.isOpen = true ∧ ((∃ s, (sql, s) ∈ c.cache.entries ∧ s.id = id) ∨
    ∃ k ∈ held, c.accepts k = true ∧ k.sql = sql ∧ k.statement.id = id)

/-- No text that changes the schema is kept or to be kept, and no caller is ahead of the
connection. -/
structure Connection.Tidy (c : Connection) (held : List Checkout) : Prop where
  kept : ∀ x ∈ c.cache.entries, Sql.changesSchema x.1 = false
  keepable : ∀ k ∈ held, k.cacheable = true → Sql.changesSchema k.sql = false
  stamped : ∀ k ∈ held, k.generation ≤ c.generation

namespace Connection

variable {c d : Connection} {e f : Engine} {held held' : List Checkout} {k : Checkout}
  {sql q : String} {id : StatementId} {s : Statement}

theorem Offers.mono (h : d.Offers held' q id) (hgen : d.generation = c.generation)
    (hopen : d.isOpen = true → c.isOpen = true)
    (hcache : ∀ x ∈ d.cache.entries, x ∈ c.cache.entries)
    (hheld : ∀ l ∈ held', ∃ k ∈ held, k.sql = l.sql ∧ k.generation = l.generation ∧
      (l.cacheable = true → k.cacheable = true) ∧ k.statement.id = l.statement.id) :
    c.Offers held q id := by
  obtain ⟨ho, ⟨s, hs, hid⟩ | ⟨l, hl, hk, hsql, hid⟩⟩ := h
  · exact ⟨hopen ho, .inl ⟨s, hcache _ hs, hid⟩⟩
  · obtain ⟨k, hmem, hsame, hstamp, hkeep, hnum⟩ := hheld l hl
    obtain ⟨hl, hg, -⟩ := accepts_iff.mp hk
    have haccepts : c.accepts k = true :=
      accepts_iff.mpr ⟨hkeep hl, hstamp.trans (hg.trans hgen), hopen ho⟩
    exact ⟨hopen ho, .inr ⟨k, hmem, haccepts, hsame.trans hsql, hnum.trans hid⟩⟩

theorem Offers.subset (h : d.Offers held' q id) (hgen : d.generation = c.generation)
    (hopen : d.isOpen = true → c.isOpen = true)
    (hcache : ∀ x ∈ d.cache.entries, x ∈ c.cache.entries) (hheld : ∀ l ∈ held', l ∈ held) :
    c.Offers held q id := by
  apply h.mono hgen hopen hcache
  intro l hl
  exact ⟨l, hheld l hl, rfl, rfl, fun hkeep => hkeep, rfl⟩

/-- After a schema change nothing is offered. -/
theorem not_offers_of_change (ht : c.Tidy held) (hgen : d.generation = c.generation + 1)
    (hcache : d.cache.entries = []) : ¬ d.Offers held q id := by
  rintro ⟨-, ⟨s, hs, -⟩ | ⟨l, hl, hk, -⟩⟩
  · rw [hcache] at hs
    cases hs
  · obtain ⟨-, hg, -⟩ := accepts_iff.mp hk
    have hstamp := ht.stamped l hl
    omega

/-- What is offered after a statement was prepared was offered before, or is that statement. No
offer outlasts a schema change. -/
theorem Prepares.offers (h : Prepares c sql e k d f) (hopen : c.isOpen = true) (ht : c.Tidy held)
    (ho : d.Offers (k :: held) q id) :
    c.Offers held q id ∧ Sql.changesSchema sql = false ∨
      q = sql ∧ e.lastStatement < id.number ∧ k.statement.id = id := by
  -- Either the new statement is offered or what was there before.
  have hsplit : d.Offers held q id ∨ d.accepts k = true ∧ k.sql = q ∧ k.statement.id = id := by
    obtain ⟨hod, hs | ⟨l, hl, hk⟩⟩ := ho
    · exact .inl ⟨hod, .inl hs⟩
    · cases List.mem_cons.mp hl with
      | inl heq => exact .inr (heq ▸ hk)
      | inr hmem => exact .inl ⟨hod, .inr ⟨l, hmem, hk⟩⟩
  cases h with
  | change =>
    obtain hold | ⟨hk, -⟩ := hsplit
    · exact absurd hold (not_offers_of_change ht rfl rfl)
    · cases (accepts_iff.mp hk).1
  | hit hplain hfound =>
    refine .inl ⟨?_, hplain⟩
    obtain hold | ⟨-, rfl, rfl⟩ := hsplit
    · exact hold.subset rfl (fun ho => ho) (fun x => StatementCache.mem_of_mem_acquire)
        fun l hl => hl
    · obtain ⟨t, ht, rfl⟩ := StatementCache.found_mem hfound
      exact ⟨hopen, .inl ⟨t, ht, rfl⟩⟩
  | fresh hplain hfound hg =>
    obtain hold | ⟨-, rfl, rfl⟩ := hsplit
    · refine .inl ⟨?_, hplain⟩
      exact hold.subset rfl (fun ho => ho) (fun x => StatementCache.mem_of_mem_acquire)
        fun l hl => hl
    · refine .inr ⟨rfl, ?_, rfl⟩
      rw [hg]
      simp [Engine.statementFor]

theorem Refuses.offers (h : Refuses c sql e d f) (ht : c.Tidy held) (ho : d.Offers held q id) :
    c.Offers held q id ∧ Sql.changesSchema sql = false := by
  cases h with
  | closed hclosed =>
    have hopen := ho.1
    rw [hclosed] at hopen
    cases hopen
  | change => exact absurd ho (not_offers_of_change ht rfl rfl)
  | fresh message hplain =>
    refine ⟨?_, hplain⟩
    exact ho.subset rfl (fun ho => ho) (fun x => StatementCache.mem_of_mem_acquire)
      fun l hl => hl

/-- A statement that comes back is offered on, if at all, as it was while it was out. -/
theorem offers_recycle (ho : (c.recycle k e).1.Offers held q id) : c.Offers (k :: held) q id := by
  unfold recycle at ho
  split at ho
  · rename_i hk
    obtain ⟨hopen, ⟨s, hs, hid⟩ | ⟨l, hl, hrest⟩⟩ := ho
    · cases StatementCache.mem_of_mem_release hs with
      | inl hnew =>
        obtain ⟨rfl, rfl⟩ := Prod.mk.inj hnew
        exact ⟨hopen, .inr ⟨k, List.mem_cons_self, hk, rfl, hid⟩⟩
      | inr hold => exact ⟨hopen, .inl ⟨s, hold, hid⟩⟩
    · exact ⟨hopen, .inr ⟨l, List.mem_cons_of_mem k hl, hrest⟩⟩
  · exact ho.subset rfl (fun ho => ho) (fun x hx => hx) fun l hl => List.mem_cons_of_mem k hl

theorem Tidy.subset (h : c.Tidy held) (hheld : ∀ l ∈ held', l ∈ held) : c.Tidy held' :=
  ⟨h.kept, fun l hl => h.keepable l (hheld l hl), fun l hl => h.stamped l (hheld l hl)⟩

theorem Tidy.later (h : c.Tidy held) (hgen : c.generation ≤ d.generation)
    (hcache : ∀ x ∈ d.cache.entries, x ∈ c.cache.entries) : d.Tidy held :=
  ⟨fun x hx => h.kept x (hcache x hx), h.keepable, fun l hl => (h.stamped l hl).trans hgen⟩

theorem Tidy.cons (h : c.Tidy held) (hk : k.cacheable = true → Sql.changesSchema k.sql = false)
    (hg : k.generation ≤ c.generation) : c.Tidy (k :: held) :=
  ⟨h.kept, List.forall_mem_cons.mpr ⟨hk, h.keepable⟩, List.forall_mem_cons.mpr ⟨hg, h.stamped⟩⟩

theorem Tidy.afterLookUp (h : c.Tidy held) (sql : String) : (c.afterLookUp sql).Tidy held := by
  have hgen : c.generation ≤ (c.afterLookUp sql).generation := Nat.le_refl _
  apply h.later hgen
  intro x hx
  exact StatementCache.mem_of_mem_acquire hx

theorem Tidy.changed (h : c.Tidy held) (e : Engine) :
    (c.nextGeneration.clearCache e).1.Tidy held := by
  have hgen : c.generation ≤ (c.nextGeneration.clearCache e).1.generation := Nat.le_succ _
  apply h.later hgen
  exact List.forall_mem_nil _

theorem Prepares.tidy (h : Prepares c sql e k d f) (ht : c.Tidy held) : d.Tidy (k :: held) := by
  cases h with
  | change =>
    have hd := ht.changed e
    exact Tidy.cons ⟨hd.kept, hd.keepable, hd.stamped⟩ (fun hk => absurd hk Bool.false_ne_true)
      (Nat.le_succ _)
  | hit hplain => exact (ht.afterLookUp sql).cons (fun _ => hplain) (Nat.le_refl _)
  | fresh hplain =>
    have hd := ht.afterLookUp sql
    exact Tidy.cons ⟨hd.kept, hd.keepable, hd.stamped⟩ (fun _ => hplain) (Nat.le_refl _)

theorem Refuses.tidy (h : Refuses c sql e d f) (ht : c.Tidy held) : d.Tidy held := by
  cases h with
  | closed => exact ht
  | change =>
    have hd := ht.changed e
    exact ⟨hd.kept, hd.keepable, hd.stamped⟩
  | fresh =>
    have hd := ht.afterLookUp sql
    exact ⟨hd.kept, hd.keepable, hd.stamped⟩

theorem Tidy.recycle (h : c.Tidy (k :: held)) (e : Engine) : (c.recycle k e).1.Tidy held := by
  have hrest : c.Tidy held := h.subset fun l hl => List.mem_cons_of_mem k hl
  unfold Connection.recycle
  split
  · rename_i hk
    refine ⟨?_, hrest.keepable, hrest.stamped⟩
    intro x hx
    cases StatementCache.mem_of_mem_release hx with
    | inl hnew =>
      rw [hnew]
      exact h.keepable k List.mem_cons_self (accepts_iff.mp hk).1
    | inr hold => exact h.kept x hold
  · exact hrest

end Connection

namespace Script

variable {d : Desk} {sql q : String} {id : StatementId} {t : Terms}

def Action.asks? : Action → Option String
  | .operation (.prepare sql) => some sql
  | .operation (.execute sql) => some sql
  | _ => none

/-- Whether an action asks for a statement that changes the schema. -/
def Action.changesSchema (a : Action) : Bool := a.asks?.any Sql.changesSchema

namespace Desk

def act (d : Desk) : Action → Desk
  | .operation o => (d.perform o).2
  | .upkeep u => d.tend u

def Offers (d : Desk) (sql : String) (id : StatementId) : Prop :=
  d.connection.Offers d.held sql id

def Tidy (d : Desk) : Prop := d.connection.Tidy d.held

/-- Whether this desk, asked for a text, prepares the statement anew. -/
def Prepares (d : Desk) (sql : String) (id : StatementId) : Prop :=
  d.engine.lastStatement < id.number ∧
    ∃ k c e, d.connection.prepare sql d.engine = (.ok k, c, e) ∧ k.statement.id = id

/-- Where what is offered after an action comes from. -/
def Traced (d : Desk) (a : Action) (sql : String) (id : StatementId) : Prop :=
  d.Offers sql id ∧ a.changesSchema = false ∨ a.asks? = some sql ∧ d.Prepares sql id

theorem prepare_traced (ht : d.Tidy) (ho : (d.prepare sql).2.Offers q id) :
    d.Traced (.operation (.prepare sql)) q id := by
  rw [Desk.prepare] at ho
  cases hp : d.connection.prepare sql d.engine with
  | mk result after =>
    obtain ⟨c, e⟩ := after
    rw [hp] at ho
    cases result with
    | ok k =>
      obtain ⟨hopen, hk⟩ := Connection.prepare_ok hp
      have hback : c.Offers (k :: d.held) q id := by
        apply Connection.Offers.subset ho rfl (fun ho => ho) fun x hx => hx
        intro l hl
        simpa [or_comm] using hl
      obtain hold | ⟨rfl, hnew, hid⟩ := hk.offers hopen ht hback
      · exact .inl hold
      · exact .inr ⟨rfl, hnew, k, c, e, hp, hid⟩
    | error error => exact .inl ((Connection.prepare_error hp).offers ht ho)

theorem execute_traced (ht : d.Tidy) (ho : (d.execute sql).2.Offers q id) :
    d.Traced (.operation (.execute sql)) q id := by
  have ho : (d.connection.execute sql d.engine).2.1.Offers d.held q id := ho
  unfold Connection.execute at ho
  cases hp : d.connection.prepare sql d.engine with
  | mk result after =>
    obtain ⟨c, e⟩ := after
    rw [hp] at ho
    cases result with
    | ok k =>
      obtain ⟨hopen, hk⟩ := Connection.prepare_ok hp
      have hid := Statement.id_eq_of_rewind (e.run_rewind k.statement)
      have hback : c.Offers (k :: d.held) q id := by
        apply (Connection.offers_recycle ho).mono rfl (fun ho => ho) fun x hx => hx
        intro l hl
        cases List.mem_cons.mp hl with
        | inl hnew =>
          rw [hnew]
          exact ⟨k, List.mem_cons_self, rfl, rfl, fun h => h, hid.symm⟩
        | inr hold => exact ⟨l, List.mem_cons_of_mem k hold, rfl, rfl, fun h => h, rfl⟩
      obtain hold | ⟨rfl, hnew, hid⟩ := hk.offers hopen ht hback
      · exact .inl hold
      · exact .inr ⟨rfl, hnew, k, c, e, hp, hid⟩
    | error error => exact .inl ((Connection.prepare_error hp).offers ht ho)

theorem offers_set {c : Connection} {held : List Checkout} {i : Nat} {k : Checkout} {u : Statement}
    (hi : held[i]? = some k) (hu : u.rewind = k.statement.rewind)
    (ho : c.Offers (held.set i { k with statement := u }) q id) : c.Offers held q id := by
  apply ho.mono rfl (fun ho => ho) fun x hx => hx
  intro l hl
  cases List.mem_or_eq_of_mem_set hl with
  | inl hold => exact ⟨l, hold, rfl, rfl, fun h => h, rfl⟩
  | inr hnew =>
    rw [hnew]
    exact ⟨k, List.mem_of_getElem? hi, rfl, rfl, fun h => h, (Statement.id_eq_of_rewind hu).symm⟩

theorem tidy_set {c : Connection} {held : List Checkout} {i : Nat} {k : Checkout} {u : Statement}
    (hi : held[i]? = some k) (ht : c.Tidy held) :
    c.Tidy (held.set i { k with statement := u }) := by
  have hmem := List.mem_of_getElem? hi
  refine ⟨ht.kept, ?_, ?_⟩
  · intro l hl
    cases List.mem_or_eq_of_mem_set hl with
    | inl hold => exact ht.keepable l hold
    | inr hnew => exact hnew ▸ ht.keepable k hmem
  · intro l hl
    cases List.mem_or_eq_of_mem_set hl with
    | inl hold => exact ht.stamped l hold
    | inr hnew => exact hnew ▸ ht.stamped k hmem

/-- Whether a desk is tidy and offers nothing that another does not. -/
def Within (d' d : Desk) : Prop := d'.Tidy ∧ ∀ sql id, d'.Offers sql id → d.Offers sql id

theorem Within.refl (ht : d.Tidy) : d.Within d := ⟨ht, fun _ _ ho => ho⟩

theorem withHeld_within {i : Nat} {deal : Checkout → Reply × Desk} (ht : d.Tidy)
    (hdeal : ∀ k, d.held[i]? = some k → (deal k).2.Within d) : (d.withHeld i deal).2.Within d := by
  rw [Desk.withHeld]
  cases hi : d.held[i]? with
  | none => exact .refl ht
  | some k => exact hdeal k hi

theorem step_within (ht : d.Tidy) (i : Nat) : (d.step i).2.Within d := by
  apply withHeld_within ht
  intro k hi
  have hrewind := d.engine.step_rewind k.statement
  exact ⟨tidy_set hi ht, fun _ _ => offers_set hi hrewind⟩

theorem change_within {f : Statement → Statement} (ht : d.Tidy) (i : Nat)
    (hf : ∀ s, (f s).rewind = s.rewind) : (d.change i f).2.Within d := by
  apply withHeld_within ht
  intro k hi
  exact ⟨tidy_set hi ht, fun _ _ => offers_set hi (hf k.statement)⟩

theorem putBack_within (ht : d.Tidy) (i : Nat) (keep : Bool) : (d.putBack i keep).2.Within d := by
  apply withHeld_within ht
  intro k hi
  have hk := List.mem_of_getElem? hi
  have hkept : (keep && k.cacheable) = true → k.cacheable = true := by
    intro hkeep
    exact ((Bool.and_eq_true _ _).mp hkeep).2
  have hrest : d.connection.Tidy (d.held.eraseIdx i) :=
    Connection.Tidy.subset ht fun l hl => List.mem_of_mem_eraseIdx hl
  have hback : d.connection.Tidy ({ k with cacheable := keep && k.cacheable } ::
      d.held.eraseIdx i) := by
    apply hrest.cons
    · intro hkeep
      exact ht.keepable k hk (hkept hkeep)
    · exact ht.stamped k hk
  refine ⟨hback.recycle d.engine, ?_⟩
  intro sql id ho
  apply (Connection.offers_recycle ho).mono rfl (fun ho => ho) fun x hx => hx
  intro l hl
  cases List.mem_cons.mp hl with
  | inl hnew =>
    rw [hnew]
    exact ⟨k, hk, rfl, rfl, hkept, rfl⟩
  | inr hold => exact ⟨l, List.mem_of_mem_eraseIdx hold, rfl, rfl, fun h => h, rfl⟩

theorem closeRaw_within (ht : d.Tidy) : d.closeRaw.2.Within d := by
  rw [Desk.closeRaw]
  cases hc : d.engine.close d.connection.raw with
  | mk result after =>
    obtain ⟨raw, e⟩ := after
    obtain ⟨⟨isOpen, rfl, hopen⟩, -⟩ := Engine.close_eq hc
    refine ⟨⟨ht.kept, ht.keepable, ht.stamped⟩, ?_⟩
    intro sql id ho
    exact Connection.Offers.subset ho rfl hopen (fun x hx => hx) fun l hl => hl

theorem tend_within (ht : d.Tidy) (u : Upkeep) : (d.tend u).Within d := by
  cases u with
  | configure settings =>
    rw [Desk.tend]
    cases hc : d.connection.configureCache? settings d.engine with
    | none => exact .refl ht
    | some after =>
      obtain ⟨c, e⟩ := after
      obtain ⟨rfl, -⟩ := Connection.configureCache?_eq hc
      refine ⟨⟨List.forall_mem_nil _, ht.keepable, ht.stamped⟩, ?_⟩
      intro sql id ho
      exact Connection.Offers.subset ho rfl (fun ho => ho) (List.forall_mem_nil _) fun l hl => hl
  | clear =>
    refine ⟨⟨List.forall_mem_nil _, ht.keepable, ht.stamped⟩, ?_⟩
    intro sql id ho
    exact Connection.Offers.subset ho rfl (fun ho => ho) (List.forall_mem_nil _) fun l hl => hl

theorem prepare_tidy (ht : d.Tidy) (sql : String) : (d.prepare sql).2.Tidy := by
  rw [Desk.prepare]
  cases hp : d.connection.prepare sql d.engine with
  | mk result after =>
    obtain ⟨c, e⟩ := after
    cases result with
    | ok k =>
      have hk := (Connection.prepare_ok hp).2.tidy ht
      apply hk.subset
      intro l hl
      simpa [or_comm] using hl
    | error error => exact (Connection.prepare_error hp).tidy ht

theorem execute_tidy (ht : d.Tidy) (sql : String) : (d.execute sql).2.Tidy := by
  have htidy : (d.connection.execute sql d.engine).2.1.Tidy d.held := by
    unfold Connection.execute
    cases hp : d.connection.prepare sql d.engine with
    | mk result after =>
      obtain ⟨c, e⟩ := after
      cases result with
      | ok k =>
        have hk := (Connection.prepare_ok hp).2.tidy ht
        have hrun : c.Tidy ({ k with statement := (e.run k.statement).2.1 } :: d.held) :=
          ⟨hk.kept, List.forall_mem_cons.mpr (List.forall_mem_cons.mp hk.keepable),
            List.forall_mem_cons.mpr (List.forall_mem_cons.mp hk.stamped)⟩
        exact hrun.recycle _
      | error error => exact (Connection.prepare_error hp).tidy ht
  exact htidy

/-- What is offered after an action was offered before it and the schema was left alone, or it was
prepared anew by this action. -/
theorem act_keeps (ht : d.Tidy) (a : Action) :
    (d.act a).Tidy ∧ ∀ sql id, (d.act a).Offers sql id → d.Traced a sql id := by
  have hplain {d' : Desk} (ha : a.changesSchema = false) (hk : d'.Within d) :
      d'.Tidy ∧ ∀ sql id, d'.Offers sql id → d.Traced a sql id :=
    ⟨hk.1, fun sql id ho => .inl ⟨hk.2 sql id ho, ha⟩⟩
  cases a with
  | upkeep u => exact hplain rfl (tend_within ht u)
  | operation o =>
    cases o with
    | prepare sql => exact ⟨prepare_tidy ht sql, fun _ _ => prepare_traced ht⟩
    | execute sql => exact ⟨execute_tidy ht sql, fun _ _ => execute_traced ht⟩
    | step i => exact hplain rfl (step_within ht i)
    | bind i value => exact hplain rfl (change_within ht i fun _ => rfl)
    | reset i => exact hplain rfl (change_within ht i fun _ => rfl)
    | clearBindings i => exact hplain rfl (change_within ht i fun _ => rfl)
    | rewind i => exact hplain rfl (change_within ht i fun _ => rfl)
    | finalize i => exact hplain rfl (putBack_within ht i false)
    | drop i => exact hplain rfl (putBack_within ht i true)
    | closeRaw => exact hplain rfl (closeRaw_within ht)

end Desk

end Script

end ConnectionPool

import ConnectionPool.Proofs.Cache.Basic
import ConnectionPool.Proofs.Script.Hits

/-!
# Outdated statements

The cache is emptied when a statement that changes the schema is asked for. The schema changes
when that statement is stepped, which may be later and more than once, and no step touches the
cache. A statement prepared in between is kept across the change. What comes back after a step is
just what was on offer before it: statements newer than every schema change still checked out.
-/

namespace ConnectionPool

variable {sql q : String} {id : StatementId} {s : Statement}

namespace Engine

theorem lastStatement_step (e : Engine) (s : Statement) :
    (e.step s).2.2.lastStatement = e.lastStatement := by
  unfold step
  split <;> rfl

theorem lastStatement_close (e : Engine) (raw : RawConnection) :
    (e.close raw).2.2.lastStatement = e.lastStatement := by
  unfold close
  split
  · rfl
  · split <;> rfl

end Engine

namespace Connection

variable {c d : Connection} {e f : Engine} {k : Checkout}

theorem Prepares.text (h : Prepares c sql e k d f) : k.sql = sql := by
  cases h <;> rfl

theorem lastStatement_prepare (c : Connection) (sql : String) (e : Engine) :
    e.lastStatement ≤ (c.prepare sql e).2.2.lastStatement := by
  obtain ⟨k, d, f, hp, -, hk⟩ | ⟨error, d, f, hp, hr⟩ := c.prepare_cases sql e
  · rw [hp]
    cases hk with
    | change => simp [Engine.issue]
    | hit => simp
    | fresh _ _ hg => simp [hg, Engine.issue]
  · rw [hp]
    cases hr with
    | closed => exact Nat.le_refl _
    | change => simp
    | fresh => simp

theorem lastStatement_recycle (c : Connection) (k : Checkout) (e : Engine) :
    (c.recycle k e).2.lastStatement = e.lastStatement := by
  unfold recycle
  split
  · exact e.lastStatement_finalizeAll _
  · rfl

theorem lastStatement_execute (c : Connection) (sql : String) (e : Engine) :
    e.lastStatement ≤ (c.execute sql e).2.2.lastStatement := by
  have hp := c.lastStatement_prepare sql e
  cases hr : (c.prepare sql e).1 with
  | error error =>
    rw [execute_refused hr]
    exact hp
  | ok k =>
    rw [execute_prepared hr, lastStatement_recycle]
    have hrun := Engine.run_keeps (e := (c.prepare sql e).2.2) (s := k.statement)
      (P := fun _ f => f.lastStatement = (c.prepare sql e).2.2.lastStatement) ?_ rfl
    · exact hp.trans_eq hrun.symm
    · intro s f hf
      exact (f.lastStatement_step s).trans hf

theorem Prepares.wellKept (h : Prepares c sql e k d f) (hc : c.cache.WellKept) :
    d.cache.WellKept := by
  cases h with
  | change => exact .of_empty rfl
  | hit => exact hc.acquire c.id sql
  | fresh => exact hc.acquire c.id sql

theorem Refuses.wellKept (h : Refuses c sql e d f) (hc : c.cache.WellKept) : d.cache.WellKept := by
  cases h with
  | closed => exact hc
  | change => exact .of_empty rfl
  | fresh => exact hc.acquire c.id sql

theorem wellKept_recycle (hc : c.cache.WellKept) (k : Checkout) (e : Engine) :
    (c.recycle k e).1.cache.WellKept := by
  unfold recycle
  split
  · exact hc.release k.sql k.statement
  · exact hc

theorem wellKept_prepare (hc : c.cache.WellKept) (sql : String) (e : Engine) :
    (c.prepare sql e).2.1.cache.WellKept := by
  obtain ⟨k, d, f, hp, -, hk⟩ | ⟨error, d, f, hp, hr⟩ := c.prepare_cases sql e
  · rw [hp]
    exact hk.wellKept hc
  · rw [hp]
    exact hr.wellKept hc

theorem wellKept_execute (hc : c.cache.WellKept) (sql : String) (e : Engine) :
    (c.execute sql e).2.1.cache.WellKept := by
  have hp := wellKept_prepare hc sql e
  cases hr : (c.prepare sql e).1 with
  | error error =>
    rw [execute_refused hr]
    exact hp
  | ok k =>
    rw [execute_prepared hr]
    exact wellKept_recycle hp _ _

end Connection

namespace Script

variable {d : Desk} {i : Nat} {k : Checkout}

namespace Desk

theorem withHeld_keeps {P : Desk → Prop} {deal : Checkout → Reply × Desk} (h : P d)
    (hdeal : ∀ k, d.held[i]? = some k → P (deal k).2) : P (d.withHeld i deal).2 := by
  rw [withHeld]
  cases hi : d.held[i]? with
  | none => exact h
  | some k => exact hdeal k hi

theorem connection_prepare (d : Desk) (sql : String) :
    (d.prepare sql).2.connection = (d.connection.prepare sql d.engine).2.1 := by
  rw [prepare]
  split <;> rename_i heq <;> rw [heq]

theorem act_wellKept (h : d.connection.cache.WellKept) (a : Action) :
    (d.act a).connection.cache.WellKept := by
  -- A caller that only uses what it holds leaves the connection as it is.
  have hwith {i : Nat} {deal : Checkout → Reply × Desk}
      (hdeal : ∀ k, (deal k).2.connection.cache.WellKept) :
      (d.withHeld i deal).2.connection.cache.WellKept :=
    withHeld_keeps (P := fun d => d.connection.cache.WellKept) h fun k _ => hdeal k
  cases a with
  | upkeep u =>
    cases u with
    | configure settings =>
      rw [act, tend]
      cases hc : d.connection.configureCache? settings d.engine with
      | none => exact h
      | some after =>
        obtain ⟨c, e⟩ := after
        obtain ⟨rfl, -⟩ := Connection.configureCache?_eq hc
        exact .of_empty rfl
    | clear => exact .of_empty rfl
  | operation o =>
    cases o with
    | prepare sql =>
      show (d.prepare sql).2.connection.cache.WellKept
      rw [connection_prepare]
      exact Connection.wellKept_prepare h sql d.engine
    | execute sql => exact Connection.wellKept_execute h sql d.engine
    | step i => exact hwith fun _ => h
    | bind i value => exact hwith fun _ => h
    | reset i => exact hwith fun _ => h
    | clearBindings i => exact hwith fun _ => h
    | rewind i => exact hwith fun _ => h
    | finalize i => exact hwith fun _ => Connection.wellKept_recycle h _ _
    | drop i => exact hwith fun _ => Connection.wellKept_recycle h _ _
    | closeRaw =>
      show d.closeRaw.2.connection.cache.WellKept
      rw [closeRaw]
      exact h

/-- Whether a statement is held, whatever became of its run. -/
def Holds (d : Desk) (k : Checkout) : Prop :=
  ∃ l ∈ d.held, l.sql = k.sql ∧ l.statement.id = k.statement.id

theorem Holds.of_mem (hk : k ∈ d.held) : d.Holds k := ⟨k, hk, rfl, rfl⟩

theorem holds_of_set {l : Checkout} {u : Statement} (hi : d.held[i]? = some l)
    (hu : u.rewind = l.statement.rewind) (hk : k ∈ d.held.set i { l with statement := u }) :
    d.Holds k := by
  cases List.mem_or_eq_of_mem_set hk with
  | inl hold => exact .of_mem hold
  | inr hnew =>
    rw [hnew]
    exact ⟨l, List.mem_of_getElem? hi, rfl, (Statement.id_eq_of_rewind hu).symm⟩

theorem holds_of_withHeld {deal : Checkout → Reply × Desk}
    (hdeal : ∀ l, d.held[i]? = some l → ∀ k ∈ (deal l).2.held, d.Holds k)
    (hk : k ∈ (d.withHeld i deal).2.held) : d.Holds k := by
  have hall : ∀ l ∈ (d.withHeld i deal).2.held, d.Holds l :=
    withHeld_keeps (P := fun d' => ∀ k ∈ d'.held, d.Holds k) (fun _ => .of_mem) hdeal
  exact hall k hk

theorem holds_of_step (hk : k ∈ (d.step i).2.held) : d.Holds k :=
  holds_of_withHeld (fun l hi _ => holds_of_set hi (d.engine.step_rewind l.statement)) hk

theorem holds_of_change {f : Statement → Statement} (hk : k ∈ (d.change i f).2.held)
    (hf : ∀ s, (f s).rewind = s.rewind) : d.Holds k :=
  holds_of_withHeld (fun l hi _ => holds_of_set hi (hf l.statement)) hk

theorem holds_of_putBack {keep : Bool} (hk : k ∈ (d.putBack i keep).2.held) : d.Holds k :=
  holds_of_withHeld (fun _ _ _ hl => .of_mem (List.mem_of_mem_eraseIdx hl)) hk

theorem holds_of_act {a : Action} (hk : k ∈ (d.act a).held) :
    d.Holds k ∨ a.asks? = some k.sql := by
  cases a with
  | upkeep u =>
    cases u with
    | configure settings =>
      rw [act, tend] at hk
      split at hk <;> exact .inl (.of_mem hk)
    | clear => exact .inl (.of_mem hk)
  | operation o =>
    cases o with
    | prepare sql =>
      have hk : k ∈ (d.prepare sql).2.held := hk
      rw [prepare] at hk
      split at hk
      · rename_i l c f hp
        cases List.mem_append.mp hk with
        | inl hold => exact .inl (.of_mem hold)
        | inr hnew =>
          rw [List.mem_singleton.mp hnew]
          exact .inr (congrArg some (Connection.prepare_ok hp).2.text.symm)
      · exact .inl (.of_mem hk)
    | execute sql => exact .inl (.of_mem hk)
    | step i => exact .inl (holds_of_step hk)
    | bind i value => exact .inl (holds_of_change hk fun _ => rfl)
    | reset i => exact .inl (holds_of_change hk fun _ => rfl)
    | clearBindings i => exact .inl (holds_of_change hk fun _ => rfl)
    | rewind i => exact .inl (holds_of_change hk fun _ => rfl)
    | finalize i => exact .inl (holds_of_putBack hk)
    | drop i => exact .inl (holds_of_putBack hk)
    | closeRaw =>
      have hk : k ∈ d.closeRaw.2.held := hk
      rw [closeRaw] at hk
      exact .inl (.of_mem hk)

/-- Whether all that is on offer is newer than every schema change still checked out. -/
def Newer (d : Desk) : Prop :=
  ∀ k ∈ d.held, Sql.changesSchema k.sql = true → ∀ sql id, d.Offers sql id →
    k.statement.id.number < id.number

theorem Orderly.le_lastStatement (ho : d.Orderly) (hk : k ∈ d.held) :
    k.statement.id.number ≤ d.engine.lastStatement := by
  have hmem : k.statement.id ∈ d.held.map fun k => k.statement.id := List.mem_map_of_mem hk
  have hcount := List.one_le_count_iff.mpr hmem
  have hid := ho k.statement.id
  rw [ids, List.count_append, Engine.issued] at hid
  split at hid <;> omega

/-- No text that changes the schema is on offer. -/
theorem Tidy.plain (ht : d.Tidy) (ho : d.Offers sql id) : Sql.changesSchema sql = false := by
  obtain ⟨-, ⟨s, hs, -⟩ | ⟨k, hk, haccepts, rfl, -⟩⟩ := ho
  · exact ht.kept _ hs
  · exact ht.keepable k hk (Connection.accepts_iff.mp haccepts).1

theorem Newer.act (h : d.Newer) (ht : d.Tidy) (ho : d.Orderly) (a : Action) : (d.act a).Newer := by
  obtain ⟨htidy, htraced⟩ := act_keeps ht a
  intro k hk hchange sql id hoffers
  have hplain := htidy.plain hoffers
  obtain ⟨l, hl, hsql, hid⟩ | hasks := holds_of_act hk
  · rw [← hid]
    obtain ⟨hold, -⟩ | ⟨-, hnew, -⟩ := htraced sql id hoffers
    · exact h l hl (hsql ▸ hchange) sql id hold
    · exact (ho.le_lastStatement hl).trans_lt hnew
  · -- A change of the schema that has just been asked for leaves nothing on offer.
    obtain ⟨-, ha⟩ | ⟨hsame, -⟩ := htraced sql id hoffers
    · rw [Action.changesSchema, hasks] at ha
      exact absurd hchange (by simpa using ha)
    · rw [hasks] at hsame
      rw [Option.some.inj hsame] at hchange
      exact absurd hchange (by simp [hplain])

/-- Whether a desk, asked for a text, gets a statement out of its cache. -/
def Returns (d : Desk) (sql : String) (id : StatementId) : Prop :=
  ∃ k c f, d.connection.prepare sql d.engine = (.ok k, c, f) ∧ k.statement.id = id ∧
    id ∈ d.connection.cache.ids

variable {t : Terms}

theorem Returns.offers (h : d.Returns sql id) (ho : d.Orderly) : d.Offers sql id := by
  obtain ⟨k, c, f, hp, rfl, hin⟩ := h
  obtain ⟨hopen, hk⟩ := Connection.prepare_ok hp
  obtain ⟨s, hs, hrewound⟩ := StatementCache.found_mem (ho.hit hk hin)
  refine ⟨hopen, .inl ⟨s, hs, ?_⟩⟩
  rw [hrewound]
  rfl

theorem returns_of_mem (ht : d.Tidy) (hs : d.Sound t) (hc : d.connection.cache.WellKept)
    (hopen : d.connection.isOpen = true) (hmem : (sql, s) ∈ d.connection.cache.entries) :
    d.Returns sql s.id := by
  have howner : s.owner = d.connection.id := by
    have hsame : s.owner = t.owner :=
      congrArg Statement.owner (hs.connection.kept _ hmem).rewound
    rw [hsame, ← hs.connection.terms]
    rfl
  have hfound := hc.found hmem howner
  have hin : s.id ∈ d.connection.cache.ids := StatementCache.mem_ids.mpr ⟨_, hmem, rfl⟩
  have hlook : (d.connection.lookUp sql d.engine).1 = some s.rewind := hfound
  refine ⟨⟨sql, s.rewind, true, d.connection.generation⟩,
    (d.connection.lookUp sql d.engine).2.1, (d.connection.lookUp sql d.engine).2.2, ?_, rfl, hin⟩
  rw [Connection.prepare, hopen, ht.kept _ hmem]
  exact Connection.prepareCached_hit hlook

theorem isOpen_putBack (d : Desk) (i : Nat) (keep : Bool) :
    (d.putBack i keep).2.connection.isOpen = d.connection.isOpen := by
  apply withHeld_keeps (P := fun d' => d'.connection.isOpen = d.connection.isOpen) rfl
  intro k _
  have hbare := (d.connection.bare_recycle { k with cacheable := keep && k.cacheable } d.engine).1
  have hopen := congrArg Connection.isOpen hbare
  exact hopen

theorem mem_putBack {j : Nat} (hj : d.held[j]? = some k) (haccepts : d.connection.accepts k = true)
    (hactive : d.connection.cache.isActive = true) (hempty : d.connection.cache.entries = []) :
    (k.sql, k.statement) ∈ (d.putBack j true).2.connection.cache.entries := by
  have habsent : d.connection.cache.contains k.sql = false := by
    simp [StatementCache.contains, StatementCache.get?, hempty]
  rw [putBack, withHeld, hj]
  have hkeep : d.connection.accepts { k with cacheable := true && k.cacheable } = true := haccepts
  show _ ∈ (d.connection.recycle _ d.engine).1.cache.entries
  rw [Connection.recycle, if_pos hkeep]
  show _ ∈ (d.connection.cache.release k.sql k.statement).2.entries
  rw [StatementCache.release, if_neg (by simp [hactive, habsent]), StatementCache.push]
  split <;> exact List.mem_cons_self

theorem lastStatement_act (d : Desk) (a : Action) :
    d.engine.lastStatement ≤ (d.act a).engine.lastStatement := by
  have hwith {i : Nat} {deal : Checkout → Reply × Desk}
      (hdeal : ∀ k, d.engine.lastStatement ≤ (deal k).2.engine.lastStatement) :
      d.engine.lastStatement ≤ (d.withHeld i deal).2.engine.lastStatement :=
    withHeld_keeps (P := fun d' => d.engine.lastStatement ≤ d'.engine.lastStatement)
      (Nat.le_refl _) fun k _ => hdeal k
  have hback (i : Nat) (keep : Bool) :
      d.engine.lastStatement ≤ (d.putBack i keep).2.engine.lastStatement :=
    hwith fun _ => (Connection.lastStatement_recycle _ _ _).ge
  cases a with
  | upkeep u =>
    cases u with
    | configure settings =>
      rw [act, tend]
      cases hc : d.connection.configureCache? settings d.engine with
      | none => exact Nat.le_refl _
      | some after =>
        obtain ⟨c, e⟩ := after
        obtain ⟨-, rfl⟩ := Connection.configureCache?_eq hc
        exact (Engine.lastStatement_finalizeAll _ _).ge
    | clear => exact (Engine.lastStatement_finalizeAll _ _).ge
  | operation o =>
    cases o with
    | prepare sql =>
      have hp := d.connection.lastStatement_prepare sql d.engine
      show _ ≤ (d.prepare sql).2.engine.lastStatement
      rw [prepare]
      split <;> rename_i heq <;> rwa [heq] at hp
    | execute sql => exact d.connection.lastStatement_execute sql d.engine
    | step i =>
      apply hwith
      intro k
      exact (d.engine.lastStatement_step k.statement).ge
    | bind i value => exact hwith fun _ => Nat.le_refl _
    | reset i => exact hwith fun _ => Nat.le_refl _
    | clearBindings i => exact hwith fun _ => Nat.le_refl _
    | rewind i => exact hwith fun _ => Nat.le_refl _
    | finalize i => exact hback i false
    | drop i => exact hback i true
    | closeRaw =>
      exact (d.engine.lastStatement_close d.connection.raw).ge

end Desk

variable {t : Terms}

theorem lastStatement_history {script : List Action} {m : Desk × Action}
    (hm : m ∈ history d script) : d.engine.lastStatement ≤ m.1.engine.lastStatement := by
  induction script generalizing d with
  | nil => cases hm
  | cons a script ih =>
    cases List.mem_cons.mp hm with
    | inl hnow => rw [hnow]
    | inr hlater => exact (d.lastStatement_act a).trans (ih hlater)

theorem final_wellKept (h : d.connection.cache.WellKept) (script : List Action) :
    (final d script).connection.cache.WellKept :=
  final_keeps (P := fun d => d.connection.cache.WellKept) (fun _ a hd => Desk.act_wellKept hd a) h
    script

theorem final_newer (h : d.Newer) (ht : d.Tidy) (ho : d.Orderly) (script : List Action) :
    (final d script).Newer := by
  have hall : (final d script).Newer ∧ (final d script).Tidy ∧ (final d script).Orderly := by
    apply final_keeps (P := fun d => d.Newer ∧ d.Tidy ∧ d.Orderly) _ ⟨h, ht, ho⟩
    intro d a ⟨hd, htd, hod⟩
    exact ⟨hd.act htd hod a, (Desk.act_keeps htd a).1, hod.act a⟩
  exact hall.1

/-- What is on offer comes back, if not at once then when its holder has put it into an emptied
cache. -/
theorem returns_of_offers (ht : d.Tidy) (hs : d.Sound t) (hc : d.connection.cache.WellKept)
    (ho : d.Offers sql id) : ∃ later, (final d later).Returns sql id := by
  obtain ⟨hopen, ⟨s, hmem, rfl⟩ | ⟨k, hk, haccepts, rfl, rfl⟩⟩ := ho
  · exact ⟨[], Desk.returns_of_mem ht hs hc hopen hmem⟩
  · obtain ⟨j, hj⟩ := List.mem_iff_getElem?.mp hk
    let later : List Action := [.upkeep (.configure {}), .operation (.drop j)]
    have hmem : (k.sql, k.statement) ∈ (final d later).connection.cache.entries :=
      Desk.mem_putBack (d := d.tend (.configure {})) hj haccepts rfl rfl
    have hstays : (final d later).connection.isOpen = true := by
      have hsame := (d.tend (.configure {})).isOpen_putBack j true
      exact hsame.trans hopen
    exact ⟨later, Desk.returns_of_mem (final_tidy ht later) (final_sound hs later)
      (final_wellKept hc later) hstays hmem⟩

/-- What comes back later, and has been prepared before, is on offer now. -/
theorem offers_of_returns (ht : d.Tidy) (ho : d.Orderly) {later : List Action}
    (hold : id.number ≤ d.engine.lastStatement) (h : (final d later).Returns sql id) :
    d.Offers sql id := by
  have hoffers := h.offers (final_orderly ho later)
  obtain ⟨hback, -⟩ | hprepared := offers_final ht later hoffers
  · exact hback
  · obtain ⟨before, d', a, after, hpast, -, ⟨hnew, -⟩, -⟩ := hprepared
    have hin : (d', a) ∈ history d later := by
      rw [hpast]
      exact List.mem_append_right _ List.mem_cons_self
    have hlast : d.engine.lastStatement ≤ d'.engine.lastStatement := lastStatement_history hin
    omega

theorem offers_step_iff (ht : d.Tidy) (i : Nat) :
    (d.step i).2.Offers sql id ↔ d.Offers sql id := by
  refine ⟨(Desk.step_within ht i).2 sql id, ?_⟩
  intro ho
  rw [Desk.step, Desk.withHeld]
  cases hi : d.held[i]? with
  | none => exact ho
  | some k =>
    -- With the statement put back as it was, nothing else is offered than was before.
    let l : Checkout := { k with statement := (d.engine.step k.statement).2.1 }
    obtain ⟨hlt, hget⟩ := List.getElem?_eq_some_iff.mp hi
    have hi' : (d.held.set i l)[i]? = some l := by simp [hlt]
    have hback : d.held = (d.held.set i l).set i { l with statement := k.statement } := by
      have hk : { l with statement := k.statement } = k := rfl
      rw [List.set_set, hk, ← hget, List.set_getElem_self]
    have ho : d.connection.Offers d.held sql id := ho
    rw [hback] at ho
    exact Desk.offers_set hi' (d.engine.step_rewind k.statement).symm ho

variable {c : Connection} {e : Engine} {raw : RawConnection} {settings : CacheSettings}

/-- When a statement that changes the schema is stepped, what had been prepared before may still
come out of the cache if and only if it was on offer. It has then been prepared since a change of
the schema was last asked for, after the statement that is stepped. -/
theorem outdated_returns_iff (hc : Connection.ofRaw? raw settings = some c)
    (he : (Desk.clean c e).Orderly) (script : List Action) (hd : d = final (.clean c e) script)
    (hi : d.held[i]? = some k) (hk : Sql.changesSchema k.sql = true)
    (hold : id.number ≤ d.engine.lastStatement) :
    ((∃ later sql, (final (d.step i).2 later).Returns sql id) ↔ ∃ sql, d.Offers sql id) ∧
      ∀ sql, d.Offers sql id → PreparedFor (history (.clean c e) script) sql id ∧
        k.statement.id.number < id.number := by
  have hempty := entries_of_ofRaw hc
  have hclean := clean_tidy hempty e
  have htidy : d.Tidy := hd ▸ final_tidy hclean script
  have hsound : d.Sound (c.terms e) := hd ▸ final_sound (clean_sound hempty e) script
  have horder : d.Orderly := hd ▸ final_orderly he script
  have hkept : d.connection.cache.WellKept := hd ▸ final_wellKept (.of_empty hempty) script
  have hfresh : (Desk.clean c e).Newer := List.forall_mem_nil _
  have hnewer : d.Newer := hd ▸ final_newer hfresh hclean he script
  -- The desk after the step is one that the script reaches with one more action.
  let step : Action := .operation (.step i)
  have hstepped : (d.step i).2 = d.act step := rfl
  refine ⟨⟨?_, ?_⟩, ?_⟩
  · rintro ⟨later, sql, hreturns⟩
    have hlast : id.number ≤ (d.act step).engine.lastStatement :=
      hold.trans (d.lastStatement_act step)
    have hoffers := offers_of_returns (Desk.act_keeps htidy step).1 (horder.act step) hlast hreturns
    exact ⟨sql, (offers_step_iff htidy i).mp hoffers⟩
  · rintro ⟨sql, hoffers⟩
    obtain ⟨later, hreturns⟩ := returns_of_offers (Desk.act_keeps htidy step).1
      (hsound.perform (.step i)) (Desk.act_wellKept hkept step)
      ((offers_step_iff htidy i).mpr hoffers)
    exact ⟨later, sql, hreturns⟩
  · intro sql hoffers
    refine ⟨?_, hnewer k (List.mem_of_getElem? hi) hk sql id hoffers⟩
    obtain ⟨hold, -⟩ | hprepared := offers_final hclean script (hd ▸ hoffers)
    · exact absurd hold (not_offers_clean hempty)
    · exact hprepared

/-- A table is dropped while a query of it is checked out, and the query can come back. -/
theorem outdated_returns_iff_held :
    let c : Connection := ⟨⟨⟨1⟩, true, false, none⟩, { settings := {} }, 0⟩
    let script : List Action :=
      [.operation (.prepare "DROP TABLE t;"), .operation (.prepare "SELECT * FROM t;")]
    let d := final (.clean c {}) script
    (d.step 0).1 = .stepped (.ok .done) ∧ d.Offers "SELECT * FROM t;" ⟨2⟩ ∧
      (∃ later sql, (final (d.step 0).2 later).Returns sql ⟨2⟩) ∧
      PreparedFor (history (.clean c {}) script) "SELECT * FROM t;" ⟨2⟩ := by
  intro c script d
  have hc : Connection.ofRaw? ⟨⟨1⟩, true, false, none⟩ {} = some c := rfl
  have he : (Desk.clean c {}).Orderly := fun id => Nat.zero_le _
  have hoffers : d.Offers "SELECT * FROM t;" ⟨2⟩ :=
    ⟨rfl, .inr ⟨d.held[1], List.getElem_mem _, rfl, rfl, rfl⟩⟩
  have hk : Sql.changesSchema d.held[0].sql = true := by decide +kernel
  have hold : StatementId.number ⟨2⟩ ≤ d.engine.lastStatement := by decide +kernel
  have hreturns := outdated_returns_iff (i := 0) hc he script rfl rfl hk hold
  exact ⟨rfl, hoffers, hreturns.1.mpr ⟨_, hoffers⟩, (hreturns.2 _ hoffers).1⟩

/-- A query checked out while its table is dropped goes into the cache afterwards and comes out
of it. -/
theorem outdated_statement_returns :
    let c : Connection := ⟨⟨⟨1⟩, true, false, none⟩, { settings := {} }, 0⟩
    let d := final (.clean c {})
      [.operation (.prepare "DROP TABLE t;"), .operation (.prepare "SELECT * FROM t;")]
    d.held.map Checkout.sql = ["DROP TABLE t;", "SELECT * FROM t;"] ∧
      Sql.changesSchema "DROP TABLE t;" = true ∧ (d.step 0).1 = .stepped (.ok .done) ∧
      2 ≤ d.engine.lastStatement ∧
      (final (d.step 0).2 [.operation (.drop 1)]).Returns "SELECT * FROM t;" ⟨2⟩ := by
  refine ⟨rfl, by decide +kernel, rfl, by decide +kernel, _, _, _, rfl, rfl, ?_⟩
  decide +kernel

end Script

end ConnectionPool

import ConnectionPool.Proofs.Script.Genuine
import Mathlib.Data.List.InsertIdx

/-!
# Transparency of the statement cache

A script is answered as on a connection that keeps no statements. So neither the settings of the
cache nor any upkeep of it show in what a caller learns.
-/

namespace ConnectionPool.Script

namespace Desk

/-- The desk with the numbers of its statements, its last failure, its cache and the counts of
statements prepared and finalized wiped out. -/
def bare (d : Desk) : Desk :=
  ⟨d.connection.bare, d.engine.bare, d.held.map Checkout.unnumbered⟩

structure Sound (t : Terms) (d : Desk) : Prop where
  connection : d.connection.Sound t d.engine
  held : ∀ k ∈ d.held, t.Genuine k.sql k.statement

theorem view_bare (d : Desk) : d.bare.view = d.view := by
  rw [view, view, bare, List.map_map]
  rfl

theorem bare_eq {c c' : Connection} {e e' : Engine} {held held' : List Checkout}
    (hc : c.bare = c'.bare) (he : e.bare = e'.bare)
    (hh : held.map Checkout.unnumbered = held'.map Checkout.unnumbered) :
    (Desk.mk c e held).bare = (Desk.mk c' e' held').bare := by
  rw [bare, bare, hc, he, hh]

theorem bare_bare (d : Desk) : d.bare.bare = d.bare := by
  show Desk.mk _ _ ((d.held.map _).map _) = _
  rw [List.map_map]
  rfl

variable {t : Terms} {d : Desk}

theorem Sound.withHeld {deal : Checkout → Reply × Desk} (h : d.Sound t) (i : Nat)
    (hdeal : ∀ k, t.Genuine k.sql k.statement → (deal k).2.Sound t) :
    (d.withHeld i deal).2.Sound t := by
  rw [Desk.withHeld]
  cases hi : d.held[i]? with
  | none => exact h
  | some k =>
    apply hdeal
    exact h.held k (List.mem_of_getElem? hi)

theorem Sound.replace {k : Checkout} {s : Statement} (h : d.Sound t) (i : Nat)
    (hk : t.Genuine k.sql k.statement) (hs : s.rewind = k.statement.rewind) :
    ∀ l ∈ d.held.set i { k with statement := s }, t.Genuine l.sql l.statement := by
  intro l hl
  obtain hl | rfl := List.mem_or_eq_of_mem_set hl
  · exact h.held l hl
  · exact hk.of_rewind hs

theorem Sound.step (h : d.Sound t) (i : Nat) : (d.step i).2.Sound t := by
  apply h.withHeld
  intro k hk
  have hterms : d.connection.terms (d.engine.step k.statement).2.2 = t := by
    rw [← h.connection.terms]
    exact congrArg (Terms.mk _ _) (d.engine.step_extraRows k.statement)
  exact ⟨⟨hterms, h.connection.kept⟩, h.replace i hk (d.engine.step_rewind k.statement)⟩

theorem Sound.change {f : Statement → Statement} (h : d.Sound t) (i : Nat)
    (hf : ∀ s, (f s).rewind = s.rewind) : (d.change i f).2.Sound t := by
  apply h.withHeld
  intro k hk
  exact ⟨h.connection, h.replace i hk (hf k.statement)⟩

theorem Sound.putBack (h : d.Sound t) (i : Nat) (keep : Bool) : (d.putBack i keep).2.Sound t := by
  apply h.withHeld
  intro k hk
  refine ⟨h.connection.recycle hk, ?_⟩
  intro l hl
  exact h.held l (List.mem_of_mem_eraseIdx hl)

theorem Sound.prepare (h : d.Sound t) (sql : String) : (d.prepare sql).2.Sound t := by
  have hc := h.connection.prepare sql
  rw [Desk.prepare]
  rcases hp : d.connection.prepare sql d.engine with ⟨error | k, c, e⟩
  · rw [hp] at hc
    exact ⟨hc, h.held⟩
  · rw [hp] at hc
    have hk := h.connection.prepare_genuine (congrArg Prod.fst hp)
    refine ⟨hc, ?_⟩
    intro l hl
    obtain hl | hl := List.mem_append.mp hl
    · exact h.held l hl
    · obtain rfl := List.mem_singleton.mp hl
      exact hk

theorem Sound.closeRaw (h : d.Sound t) : d.closeRaw.2.Sound t := by
  obtain ⟨hid, hro, hx⟩ := d.engine.close_terms d.connection.raw
  have hterms : d.closeRaw.2.connection.terms d.closeRaw.2.engine = t := by
    rw [← h.connection.terms]
    exact Terms.mk.injEq .. ▸ ⟨hid, hro, hx⟩
  exact ⟨⟨hterms, h.connection.kept⟩, h.held⟩

theorem Sound.perform (h : d.Sound t) (o : Operation) : (d.perform o).2.Sound t := by
  cases o with
  | prepare sql => exact h.prepare sql
  | step i => exact h.step i
  | bind i value => exact h.change i fun _ => rfl
  | reset i => exact h.change i fun _ => rfl
  | clearBindings i => exact h.change i fun _ => rfl
  | rewind i => exact h.change i fun _ => rfl
  | finalize i => exact h.putBack i false
  | drop i => exact h.putBack i true
  | execute sql => exact ⟨h.connection.execute sql, h.held⟩
  | closeRaw => exact h.closeRaw

theorem Sound.tend (h : d.Sound t) (u : Upkeep) : (d.tend u).Sound t := by
  cases u with
  | configure settings =>
    rw [Desk.tend]
    cases hc : d.connection.configureCache? settings d.engine with
    | none => exact h
    | some after => exact ⟨h.connection.configureCache hc, h.held⟩
  | clear => exact ⟨h.connection.clearCache, h.held⟩

/-- Whether two answers and the desks behind them differ in what is wiped out of a bare desk
alone. -/
def Alike (r r' : Reply × Desk) : Prop := r.1 = r'.1 ∧ r.2.bare = r'.2.bare

theorem withHeld_bare {deal deal' : Checkout → Reply × Desk} (d : Desk) (i : Nat)
    (h : ∀ k, Alike (deal k) (deal' k.unnumbered)) :
    Alike (d.withHeld i deal) (d.bare.withHeld i deal') := by
  have hi : d.bare.held[i]? = d.held[i]?.map Checkout.unnumbered := List.getElem?_map
  rw [withHeld, withHeld, hi]
  cases d.held[i]? with
  | none => exact ⟨rfl, d.bare_bare.symm⟩
  | some k => exact h k

private theorem map_bare_held (d : Desk) :
    d.bare.held.map Checkout.unnumbered = d.held.map Checkout.unnumbered :=
  congrArg Desk.held d.bare_bare

private theorem map_set_held (d : Desk) (i : Nat) {k k' : Checkout}
    (h : k.unnumbered = k'.unnumbered) :
    (d.held.set i k).map Checkout.unnumbered = (d.bare.held.set i k').map Checkout.unnumbered := by
  rw [List.map_set, List.map_set, map_bare_held, h]

theorem step_bare (d : Desk) (i : Nat) : Alike (d.step i) (d.bare.step i) := by
  apply withHeld_bare
  intro k
  have hs : d.bare.engine.step k.unnumbered.statement = _ := d.engine.step_bare k.statement
  rw [hs]
  exact ⟨rfl, bare_eq rfl rfl (d.map_set_held i rfl)⟩

theorem change_bare {f : Statement → Statement} (d : Desk) (i : Nat)
    (hf : ∀ s, (f s).unnumbered = (f s.unnumbered).unnumbered) :
    Alike (d.change i f) (d.bare.change i f) := by
  apply withHeld_bare
  intro k
  refine ⟨rfl, bare_eq rfl rfl (d.map_set_held i ?_)⟩
  exact congrArg (fun s => { k with statement := s }) (hf k.statement)

theorem putBack_bare (d : Desk) (i : Nat) (keep : Bool) :
    Alike (d.putBack i keep) (d.bare.putBack i keep) := by
  apply withHeld_bare
  intro k
  refine ⟨rfl, bare_eq ?_ ?_ ?_⟩
  · rw [(Connection.bare_recycle _ _ _).1, (Connection.bare_recycle _ _ _).1]
    rfl
  · rw [(Connection.bare_recycle _ _ _).2, (Connection.bare_recycle _ _ _).2]
    rfl
  · rw [← List.eraseIdx_map, ← List.eraseIdx_map, map_bare_held]

theorem closeRaw_bare (d : Desk) : Alike d.closeRaw d.bare.closeRaw := by
  have hc : d.bare.engine.close d.bare.connection.raw = _ :=
    d.engine.close_bare d.connection.raw
  rw [closeRaw, closeRaw, hc]
  exact ⟨rfl, bare_eq rfl rfl d.map_bare_held.symm⟩

theorem Sound.execute_bare (h : d.Sound t) (sql : String) :
    Alike (d.execute sql) (d.bare.execute sql) := by
  obtain ⟨hr, hc, he⟩ := h.connection.execute_bare sql
  exact ⟨congrArg Reply.executed hr, bare_eq hc he d.map_bare_held.symm⟩

theorem Sound.prepare_bare (h : d.Sound t) (sql : String) :
    Alike (d.prepare sql) (d.bare.prepare sql) := by
  obtain ⟨hr, hc, he⟩ := h.connection.prepare_bare sql
  rw [Desk.prepare, Desk.prepare]
  rcases hp : d.connection.prepare sql d.engine with ⟨error | k, c, e⟩ <;>
  rcases hq : d.bare.connection.prepare sql d.bare.engine with ⟨refusal | l, c', e'⟩ <;>
  rw [hp, show d.connection.bare.prepare sql d.engine.bare = _ from hq] at hr hc he
  · obtain rfl : error = refusal := Except.error.inj hr
    exact ⟨rfl, bare_eq hc he d.map_bare_held.symm⟩
  · cases hr
  · cases hr
  · refine ⟨rfl, bare_eq hc he ?_⟩
    rw [List.map_append, List.map_append, map_bare_held]
    exact congrArg (fun k => _ ++ [k]) (Except.ok.inj hr)

/-- A desk answers as it would without its cache. -/
theorem Sound.perform_bare (h : d.Sound t) (o : Operation) :
    Alike (d.perform o) (d.bare.perform o) := by
  cases o with
  | prepare sql => exact h.prepare_bare sql
  | step i => exact d.step_bare i
  | bind i value => exact d.change_bare i fun _ => rfl
  | reset i => exact d.change_bare i fun _ => rfl
  | clearBindings i => exact d.change_bare i fun _ => rfl
  | rewind i => exact d.change_bare i fun _ => rfl
  | finalize i => exact d.putBack_bare i false
  | drop i => exact d.putBack_bare i true
  | execute sql => exact h.execute_bare sql
  | closeRaw => exact d.closeRaw_bare

theorem tend_bare (d : Desk) (u : Upkeep) : (d.tend u).bare = d.bare := by
  cases u with
  | configure settings =>
    rw [tend]
    cases hc : d.connection.configureCache? settings d.engine with
    | none => rfl
    | some after =>
      obtain ⟨hd, he⟩ := Connection.bare_configureCache hc
      exact bare_eq hd he rfl
  | clear =>
    obtain ⟨hd, he⟩ := d.connection.bare_clearCache d.engine
    exact bare_eq hd he rfl

end Desk

variable {t : Terms} {d f : Desk}

theorem run_operation (d : Desk) (o : Operation) (script : List Action) :
    run d (.operation o :: script) =
      (((d.perform o).1, (d.perform o).2.view) :: (run (d.perform o).2 script).1,
       (run (d.perform o).2 script).2) := rfl

/-- A script may be run without its upkeep, and on any desk that differs in what is wiped out of a
bare one alone. -/
theorem Desk.Sound.run_operations (hd : d.Sound t) (hf : f.Sound t) (hb : d.bare = f.bare)
    (script : List Action) :
    (run d script).1 = (run f ((operations script).map .operation)).1 ∧
      (run d script).2.bare = (run f ((operations script).map .operation)).2.bare := by
  induction script generalizing d f with
  | nil => exact ⟨rfl, hb⟩
  | cons action script ih =>
    cases action with
    | upkeep u => exact ih (hd.tend u) hf ((d.tend_bare u).trans hb)
    | operation o =>
      have hp : Desk.Alike (d.perform o) (f.perform o) := by
        obtain ⟨hr, ha⟩ := hd.perform_bare o
        obtain ⟨hr', ha'⟩ := hf.perform_bare o
        rw [hb] at hr ha
        exact ⟨hr.trans hr'.symm, ha.trans ha'.symm⟩
      obtain ⟨hreply, hafter⟩ := hp
      have hview : (d.perform o).2.view = (f.perform o).2.view := by
        rw [← Desk.view_bare, hafter, Desk.view_bare]
      obtain ⟨htranscript, hlast⟩ := ih (hd.perform o) (hf.perform o) hafter
      have hops : (operations (.operation o :: script)).map Action.operation =
          .operation o :: (operations script).map .operation := rfl
      rw [hops, run_operation, run_operation, hreply, hview, htranscript]
      exact ⟨rfl, hlast⟩

theorem connect_ok {e f : Engine} {target : String} {settings : ConnectionSettings}
    {c : Connection} (h : Connection.connect e target settings = (.ok c, f)) :
    ∃ raw, e.connect target settings.openMode = (.ok raw, f) ∧
      c = ⟨raw, { settings := settings.statementCache }, 0⟩ := by
  unfold Connection.connect at h
  split at h
  · cases h
  · rename_i raw after hraw
    unfold Connection.ofRaw? StatementCache.ofSettings? at h
    split at h
    · rename_i c' hc
      obtain ⟨hok, rfl⟩ := Prod.mk.inj h
      obtain rfl := Attempt.ok.inj hok
      obtain ⟨cache, hcache, rfl⟩ := Option.map_eq_some_iff.mp hc
      split at hcache
      · obtain rfl := Option.some.inj hcache
        exact ⟨raw, hraw, rfl⟩
      · cases hcache
    · cases h

theorem connect_clean {e e₁ e₂ : Engine} {target : String} {mode : OpenMode}
    {settings₁ settings₂ : CacheSettings} {c₁ c₂ : Connection}
    (h₁ : Connection.connect e target ⟨mode, settings₁⟩ = (.ok c₁, e₁))
    (h₂ : Connection.connect e target ⟨mode, settings₂⟩ = (.ok c₂, e₂)) :
    (Desk.clean c₁ e₁).Sound (c₁.terms e₁) ∧ (Desk.clean c₂ e₂).Sound (c₁.terms e₁) ∧
      (Desk.clean c₁ e₁).bare = (Desk.clean c₂ e₂).bare := by
  obtain ⟨raw, hr, rfl⟩ := connect_ok h₁
  obtain ⟨raw', hr', rfl⟩ := connect_ok h₂
  obtain ⟨hok, rfl⟩ := Prod.mk.inj (hr.symm.trans hr')
  obtain rfl : raw = raw' := Except.ok.inj hok
  have hsound (settings : CacheSettings) :
      (Desk.clean ⟨raw, { settings }, 0⟩ e₁).Sound
        (Connection.terms ⟨raw, { settings := settings₁ }, 0⟩ e₁) :=
    ⟨⟨rfl, List.forall_mem_nil _⟩, List.forall_mem_nil _⟩
  exact ⟨hsound settings₁, hsound settings₂, rfl⟩

/-- However the cache of a connection is set up, and whatever upkeep it gets between which
operations, a script is answered alike and leaves alike what it worked on. -/
theorem cache_transparent {e e₁ e₂ : Engine} {target : String} {mode : OpenMode}
    {settings₁ settings₂ : CacheSettings} {c₁ c₂ : Connection}
    (h₁ : Connection.connect e target ⟨mode, settings₁⟩ = (.ok c₁, e₁))
    (h₂ : Connection.connect e target ⟨mode, settings₂⟩ = (.ok c₂, e₂))
    {script₁ script₂ : List Action} (h : operations script₁ = operations script₂) :
    (run (.clean c₁ e₁) script₁).1 = (run (.clean c₂ e₂) script₂).1 ∧
      (run (.clean c₁ e₁) script₁).2.bare = (run (.clean c₂ e₂) script₂).2.bare := by
  obtain ⟨hs₁, hs₂, hb⟩ := connect_clean h₁ h₂
  obtain ⟨ht₁, hl₁⟩ := hs₁.run_operations hs₂ hb script₁
  obtain ⟨ht₂, hl₂⟩ := hs₂.run_operations hs₂ rfl script₂
  rw [h] at ht₁ hl₁
  exact ⟨ht₁.trans ht₂.symm, hl₁.trans hl₂.symm⟩

/-- A statement asked for again comes out of the cache of one connection, and is prepared anew for
another whose cache is cleared in between. -/
theorem cache_transparent_hit :
    let asked : List Action := [.operation (.prepare "SELECT ?"), .operation (.bind 0 "x"),
      .operation (.step 0), .operation (.drop 0)]
    let again : List Action := [.operation (.prepare "SELECT ?"), .operation (.step 0)]
    let opened (settings : CacheSettings) : Desk :=
      .clean ⟨⟨⟨1⟩, true, false, none⟩, { settings }, 0⟩
        { lastConnection := 1, counters := { opened := 1 } }
    let kept := run (opened {}) (asked ++ again)
    let cleared := run (opened ⟨1, true⟩) (asked ++ .upkeep .clear :: again)
    kept.1 = cleared.1 ∧ kept.2.connection.cache.hits = 1 ∧
      cleared.2.connection.cache.hits = 0 := by
  intro asked again opened kept cleared
  have hopen : Connection.connect {} ":memory:" ⟨.openOrCreate, {}⟩ =
      (.ok (opened {}).connection, (opened {}).engine) := rfl
  have hopen' : Connection.connect {} ":memory:" ⟨.openOrCreate, ⟨1, true⟩⟩ =
      (.ok (opened ⟨1, true⟩).connection, (opened ⟨1, true⟩).engine) := rfl
  have hops : operations (asked ++ again) = operations (asked ++ .upkeep .clear :: again) := rfl
  exact ⟨(cache_transparent hopen hopen' hops).1, by decide +kernel, by decide +kernel⟩

end ConnectionPool.Script

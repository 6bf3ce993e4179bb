import ConnectionPool.Proofs.Custody.Session

/-!
# Steps with statements, caches and connections

What a session does for its raw connections, handles, caches and connections leaves its charge
level.
-/

namespace ConnectionPool

theorem Engine.charge_prepare_ok {e f : Engine} {raw after : RawConnection} {sql : String}
    {t : Statement} (h : e.prepare raw sql = (.ok t, after, f)) :
    t.charge + f.charge = e.charge := by
  obtain ⟨-, -, rfl, -, rfl⟩ := Engine.prepare_ok h
  exact Engine.charge_issue e raw sql

theorem StatementCache.charge_ofSettings {settings : CacheSettings} {c : StatementCache}
    (h : ofSettings? settings = some c) : c.charge = 0 := by
  unfold ofSettings? at h
  split at h
  · cases h
    rfl
  · cases h

theorem StatementCache.charge_reconfigure {settings : CacheSettings} {c d : StatementCache}
    {left : List Statement} (h : c.reconfigure? settings = some (left, d)) :
    Statement.chargeAll left + d.charge = 0 + c.charge := by
  unfold reconfigure? at h
  split at h
  · cases h
    exact add_comm _ _
  · cases h

namespace Session

variable {s : Session} {x : Charge} {name : String}

theorem cache?_remove {t : Statement} {cache : String} {c : StatementCache}
    (ho : s.object? name = some (.handle t)) (hc : s.cache? cache = some c) :
    (s.remove name).cache? cache = some c := by
  have hne : cache ≠ name := by
    rintro rfl
    simp [cache?, connection?, ho] at hc
  have hkeep : (s.remove name).object? cache = s.object? cache := Table.lookup_erase_ne hne
  have hconn : (s.remove name).connection? cache = s.connection? cache := by
    simp only [connection?, hkeep]
    rfl
  simp only [cache?, hkeep, hconn]
  exact hc

namespace Tallies

theorem sameEngine {e : Engine} (h : s.Tallies x) (he : e.charge = s.engine.charge) :
    { s with engine := e }.Tallies x := by
  apply (h.withEngine e).congr
  linear_combination he

theorem openRaw (h : s.Tallies x) (name target : String) (mode : OpenMode) :
    (s.openRaw name target mode).2.Tallies x := by
  unfold Session.openRaw
  split
  · exact h
  · rename_i hfree
    cases hc : s.engine.connect target mode with
    | mk result e =>
      have hengine := h.sameEngine (Engine.charge_connect hc)
      cases result with
      | ok raw =>
        have hnew := object?_of_inUse hfree
        exact (hengine.put_new hnew (.raw raw)).congr (add_zero x)
      | error error => exact hengine

theorem prepareRaw (h : s.Tallies x) (raw name sql : String) :
    (s.prepareRaw raw name sql).2.Tallies x := by
  unfold Session.prepareRaw
  split
  · exact h
  · rename_i hfree
    cases s.raw? raw with
    | none => exact h
    | some connection =>
      simp only
      cases hp : s.engine.prepare connection sql with
      | mk result after =>
        obtain ⟨c, e⟩ := after
        cases result with
        | ok t =>
          have hcharge := Engine.charge_prepare_ok hp
          have hset := (h.withEngine e).setRaw raw c
          have hnew : { s with engine := e }.object? name = none := object?_of_inUse hfree
          have hput := hset.put_new (object?_setRaw hnew raw c) (.handle t)
          apply hput.congr
          simp only [Object.charge]
          linear_combination hcharge
        | error error =>
          obtain ⟨-, rfl⟩ := Engine.prepare_error hp
          exact h.setRaw raw c

theorem closeRaw (h : s.Tallies x) (raw : String) : (s.closeRaw raw).2.Tallies x := by
  unfold Session.closeRaw
  cases s.raw? raw with
  | none => exact h
  | some connection =>
    have hcharge : (s.engine.close connection).2.2.charge = s.engine.charge :=
      Engine.charge_close rfl
    exact (h.sameEngine hcharge).setRaw raw _

theorem advance (h : s.Tallies x) (name : String) : (s.advance name).2.Tallies x := by
  unfold Session.advance
  split
  · rename_i t ho
    have hstep : (s.engine.step t).2.1.charge = t.charge ∧
        (s.engine.step t).2.2.charge = s.engine.charge := Engine.charge_step rfl
    have hput := (h.sameEngine hstep.2).put_over ho (.handle (s.engine.step t).2.1)
    apply hput.congr
    simp only [Object.charge]
    linear_combination hstep.1
  · rename_i k source ho
    have hstep : (s.engine.step k.statement).2.1.charge = k.statement.charge ∧
        (s.engine.step k.statement).2.2.charge = s.engine.charge := Engine.charge_step rfl
    have hput := (h.sameEngine hstep.2).put_over ho
      (.statement { k with statement := (s.engine.step k.statement).2.1 } source)
    apply hput.congr
    simp only [Object.charge, Checkout.charge]
    linear_combination hstep.1
  · exact h

theorem changeStatement {change : Statement → Statement} (h : s.Tallies x) (name : String)
    (hid : ∀ t, (change t).id = t.id) : (s.changeStatement name change).2.Tallies x := by
  unfold Session.changeStatement
  cases ht : s.statement? name with
  | none => exact h
  | some t => exact h.setStatement ht (hid t)

theorem finalize (h : s.Tallies x) (name : String) : (s.finalize name).2.Tallies x := by
  unfold Session.finalize
  split
  · rename_i k source ho
    have hback := (h.remove ho).recycle { k with cacheable := false } source
    exact hback.congr (sub_add_cancel x k.charge)
  · exact h

theorem newCache (h : s.Tallies x) (name : String) (settings : CacheSettings) :
    (s.newCache name settings).2.Tallies x := by
  unfold Session.newCache
  split
  · exact h
  · rename_i hfree
    cases hc : StatementCache.ofSettings? settings with
    | none => exact h
    | some c =>
      have hempty := StatementCache.charge_ofSettings hc
      apply (h.put_new (object?_of_inUse hfree) (.cache c)).congr
      simp only [Object.charge]
      linear_combination hempty

theorem takeCached (h : s.Tallies x) (cache name sql : String) (owner : ConnectionId) :
    (s.takeCached cache name sql owner).2.Tallies x := by
  unfold Session.takeCached
  split
  · exact h
  · rename_i hfree
    cases hc : s.cache? cache with
    | none => exact h
    | some c =>
      have hlookup := c.charge_acquire owner sql
      have hend := s.engine.charge_finalizeAll (c.acquire owner sql).discarded
      let s' := { s with engine := s.engine.finalizeAll (c.acquire owner sql).discarded }
      have hset := (h.withEngine s'.engine).setCache hc (c.acquire owner sql).cache
      have hfree : s'.object? name = none := object?_of_inUse hfree
      have hnew := object?_setCache hfree hc (c.acquire owner sql).cache
      simp only
      cases hfound : (c.acquire owner sql).found with
      | none =>
        rw [hfound, Option.toList_none, Statement.chargeAll_nil] at hlookup
        apply hset.congr
        linear_combination hlookup + hend
      | some t =>
        rw [hfound, Option.toList_some, Statement.chargeAll_cons,
          Statement.chargeAll_nil] at hlookup
        apply (hset.put_new hnew (.handle t)).congr
        simp only [Object.charge]
        linear_combination hlookup + hend

theorem storeCached (h : s.Tallies x) (cache sql statement : String) :
    (s.storeCached cache sql statement).2.Tallies x := by
  unfold Session.storeCached
  split
  · rename_i c t hc ho
    have hset := (h.remove ho).setCache_finalizeAll (cache?_remove ho hc) (c.charge_release sql t)
    exact hset.congr (sub_add_cancel x t.charge)
  · exact h

theorem clearCached (h : s.Tallies x) (cache : String) : (s.clearCached cache).2.Tallies x := by
  unfold Session.clearCached
  cases hc : s.cache? cache with
  | none => exact h
  | some c =>
    have hcharge : Statement.chargeAll c.clear.1 + c.clear.2.charge = 0 + c.charge := add_comm _ _
    exact (h.setCache_finalizeAll hc hcharge).congr (add_zero x)

theorem reconfigureCached (h : s.Tallies x) (cache : String) (settings : CacheSettings) :
    (s.reconfigureCached cache settings).2.Tallies x := by
  unfold Session.reconfigureCached
  cases hc : s.cache? cache with
  | none => exact h
  | some c =>
    simp only
    cases hr : c.reconfigure? settings with
    | none => exact h
    | some after =>
      have hcharge := StatementCache.charge_reconfigure hr
      exact (h.setCache_finalizeAll hc hcharge).congr (add_zero x)

theorem connect (h : s.Tallies x) (name target : String) (settings : ConnectionSettings) :
    (s.connect name target settings).2.Tallies x := by
  unfold Session.connect
  split
  · exact h
  · rename_i hfree
    cases hc : Connection.connect s.engine target settings with
    | mk attempt e =>
      obtain ⟨hcharge, hconn⟩ := Connection.charge_connect hc
      have hengine := h.sameEngine hcharge
      cases attempt with
      | ok c =>
        have hempty := hconn c rfl
        apply (hengine.put_new (object?_of_inUse hfree) (.connection c)).congr
        simp only [Object.charge]
        linear_combination hempty
      | refused error => exact hengine
      | aborted cause => exact hengine

theorem wrap (h : s.Tallies x) (raw name : String) (settings : CacheSettings) :
    (s.wrap raw name settings).2.Tallies x := by
  unfold Session.wrap
  split
  · exact h
  · rename_i hfree
    split
    · rename_i r ho
      have hremove : (s.remove raw).Tallies x := (h.remove ho).congr (sub_zero x)
      cases hc : Connection.ofRaw? r settings with
      | none => exact hremove
      | some c =>
        have hempty := Connection.charge_ofRaw hc
        have hnew := object?_remove_none (object?_of_inUse hfree) raw
        apply (hremove.put_new hnew (.connection c)).congr
        simp only [Object.charge]
        linear_combination hempty
    · exact h

theorem prepare (h : s.Tallies x) (connection name sql : String) :
    (s.prepare connection name sql).2.Tallies x := by
  unfold Session.prepare
  split
  · exact h
  · rename_i hfree
    cases hc : s.connection? connection with
    | none => exact h
    | some c =>
      simp only
      cases hp : c.prepare sql s.engine with
      | mk result after =>
        obtain ⟨d, e⟩ := after
        have hset := (h.withEngine e).setConnection hc d
        cases result with
        | ok k =>
          have hcharge := Connection.charge_prepare_ok hp
          have hfree : { s with engine := e }.object? name = none := object?_of_inUse hfree
          have hnew := object?_setConnection hfree connection d
          apply (hset.put_new hnew (.statement k connection)).congr
          simp only [Object.charge]
          linear_combination hcharge
        | error error =>
          have hcharge := Connection.charge_prepare_error hp
          apply hset.congr
          linear_combination hcharge

theorem execute (h : s.Tallies x) (connection sql : String) :
    (s.execute connection sql).2.Tallies x := by
  unfold Session.execute
  cases hc : s.connection? connection with
  | none => exact h
  | some c =>
    have hcharge : (c.execute sql s.engine).2.1.charge + (c.execute sql s.engine).2.2.charge =
        c.charge + s.engine.charge := Connection.charge_execute rfl
    apply ((h.withEngine (c.execute sql s.engine).2.2).setConnection hc
      (c.execute sql s.engine).2.1).congr
    linear_combination hcharge

theorem configure (h : s.Tallies x) (connection : String) (settings : CacheSettings) :
    (s.configure connection settings).2.Tallies x := by
  unfold Session.configure
  cases hc : s.connection? connection with
  | none => exact h
  | some c =>
    simp only
    cases hr : c.configureCache? settings s.engine with
    | none => exact h
    | some after =>
      have hcharge := Connection.charge_configureCache hr
      apply ((h.withEngine after.2).setConnection hc after.1).congr
      linear_combination hcharge

theorem clearCache (h : s.Tallies x) (connection : String) :
    (s.clearCache connection).2.Tallies x := by
  unfold Session.clearCache
  cases hc : s.connection? connection with
  | none => exact h
  | some c =>
    have hcharge := c.charge_clearCache s.engine
    apply ((h.withEngine (c.clearCache s.engine).2).setConnection hc
      (c.clearCache s.engine).1).congr
    linear_combination hcharge

theorem close (h : s.Tallies x) (connection : String) : (s.close connection).2.Tallies x := by
  unfold Session.close
  split
  · rename_i c ho
    split
    · exact h
    · have hcharge : (c.close s.engine).2.charge = c.charge + s.engine.charge :=
        Connection.charge_closing rfl
      apply ((h.withEngine (c.close s.engine).2).remove ho).congr
      simp only [Object.charge]
      linear_combination hcharge
  · exact h

end Tallies

end Session

end ConnectionPool

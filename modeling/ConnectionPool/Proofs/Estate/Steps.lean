import ConnectionPool.Proofs.Estate.PoolSettled

/-!
# Careful steps with objects, statements and connections

A raw connection is closed or gets a cache before its name may go, and caches are big enough for
there to be room. With this care, what a session does for its objects leaves it settled.
-/

namespace ConnectionPool.Session

variable {b : Estate} {s : Session} {spare : Multiset Object} {name : String} {o : Object}
  {c : Connection} {k : Checkout} {e : Engine}

/-- Whether a name may go: no statement is checked out of its object, and this is no raw connection
that is open. -/
structure IsDisposable (s : Session) (name : String) : Prop where
  unborrowed : s.isBorrowed name = false
  shut : ∀ raw, s.object? name = some (.raw raw) → raw.isOpen = false

theorem not_mem_of_unborrowed (h : s.isBorrowed name = false) (k : Checkout) :
    .statement k name ∉ s.population := by
  intro hmem
  obtain ⟨at', hm⟩ := mem_population.mp hmem
  have hborrowed : s.isBorrowed name = true := List.any_eq_true.mpr ⟨_, hm, beq_self_eq_true name⟩
  rw [h] at hborrowed
  cases hborrowed

namespace Settled

/-- A statement that is spare is offered back to the connection it was prepared on. -/
theorem recycle {source : String} (h : s.Settled b (.statement k source ::ₘ spare)) :
    (s.recycle k source).Settled b spare := by
  have hsource := h.ordered.resolved k source
    (Multiset.mem_add.mpr (.inr (Multiset.mem_cons_self _ spare)))
  obtain ⟨c, hc, -⟩ := Option.map_eq_some_iff.mp hsource
  have hback := h.serve [k] [] hc (c.serves_recycle k s.engine)
  rw [show Object.lent source [] = 0 from rfl, zero_add] at hback
  rw [Session.recycle, hc]
  exact hback

theorem restate {source : String} (k' : Checkout) (h : s.Settled b (.statement k source ::ₘ spare))
    (hsame : k'.statement = k.statement) : s.Settled b (.statement k' source ::ₘ spare) := by
  refine h.respare ?_ ?_ (h.ordered.respare ?_ ?_ ?_)
  · rw [Multiset.cons_bind, Multiset.cons_bind]
    rfl
  · rw [Multiset.cons_bind, Multiset.cons_bind, Object.out, Object.out, hsame]
  · intro n id
    rw [Object.handlesIn_cons, Object.handlesIn_cons]
    rfl
  · intro n hm
    exact Multiset.mem_cons_of_mem ((Multiset.mem_cons.mp hm).resolve_left (by simp))
  · intro k'' source' hm
    cases Multiset.mem_cons.mp hm with
    | inl heq =>
      cases heq
      rw [hsame]
      exact h.ordered.resolved k source
        (Multiset.mem_add.mpr (.inr (Multiset.mem_cons_self _ spare)))
    | inr hmem =>
      exact h.ordered.resolved k'' source'
        (Multiset.mem_add.mpr (.inr (Multiset.mem_cons_of_mem hmem)))

theorem discard (h : s.Settled b (o ::ₘ spare)) (hshut : ∀ raw, o = .raw raw → raw.isOpen = false) :
    (s.discard o).Settled b spare := by
  cases o with
  | raw raw => exact h.forget (hshut raw rfl)
  | handle t => exact (h.calm (s.engine.calm_finalize t)).drop_plain trivial
  | statement k source => exact h.recycle
  | cache cache => exact (h.calm (s.engine.calm_finalizeAll _)).drop_plain trivial
  | connection c => exact h.destroy
  | pool n => exact h.sweepPool
  | lease n id => exact h.dropHandle rfl
  | shared n id => exact h.dropHandle rfl

theorem dropNamed (h : s.Settled b 0) (hname : s.IsDisposable name) :
    (s.dropNamed name).Settled b 0 := by
  unfold Session.dropNamed
  cases ho : s.object? name with
  | none => exact h
  | some o =>
    refine (h.remove ho ?_).discard ?_
    · rw [add_zero]
      exact not_mem_of_unborrowed hname.unborrowed
    · rintro raw rfl
      exact hname.shut raw ho

theorem replace (h : s.Settled b {o}) (hname : s.IsDisposable name)
    (hno : ∀ k, .statement k name ≠ o) : (s.replace name o).Settled b 0 := by
  rw [← Multiset.cons_zero] at h
  unfold Session.replace
  cases ho : s.object? name with
  | none => exact h.put_new ho
  | some old =>
    refine (h.put_over ho ?_).discard ?_
    · intro k hm
      rw [Multiset.add_cons, add_zero] at hm
      cases Multiset.mem_cons.mp hm with
      | inl heq => exact hno k heq
      | inr hmem => exact not_mem_of_unborrowed hname.unborrowed k hmem
    · rintro raw rfl
      exact hname.shut raw ho

theorem drop (h : s.Settled b 0)
    (hshut : ∀ raw, s.object? name = some (.raw raw) → raw.isOpen = false) :
    (s.drop name).2.Settled b 0 := by
  unfold Session.drop
  split
  · exact h
  · split
    · exact h
    · rename_i hfree
      exact h.dropNamed ⟨by simpa using hfree, hshut⟩

/-- A raw connection, of its own or within another one, changes but keeps its number. -/
theorem setRaw {raw raw' : RawConnection} (h : s.Settled b spare) (hr : s.raw? name = some raw)
    (hid : raw'.id = raw.id)
    (hmoves : ∀ C O (c : Connection), c.raw = raw →
      Estate.Moves ⟨c ::ₘ C, O, s.engine⟩ ⟨{ c with raw := raw' } ::ₘ C, O, e⟩) :
    ({ s with engine := e }.setRaw name raw').Settled b spare := by
  unfold raw? at hr
  split at hr
  · rename_i ho
    obtain rfl := Option.some.inj hr
    have hset : { s with engine := e }.setRaw name raw' =
        { s with engine := e }.put name (.raw raw') := by
      rw [Session.setRaw, show object? { s with engine := e } name = _ from ho]
    rw [hset]
    refine h.put_in_place ho (.raw _ raw') fun C O => ?_
    simp only [Object.connections, Object.out, zero_add, Multiset.singleton_add]
    exact hmoves C O (RawConnection.unwrapped _) rfl
  · rename_i hother
    obtain ⟨c, hc, rfl⟩ := Option.map_eq_some_iff.mp hr
    have hset : { s with engine := e }.setRaw name raw' =
        { s with engine := e }.setConnection name { c with raw := raw' } := by
      have hc' : { s with engine := e }.connection? name = some c := hc
      unfold Session.setRaw
      split
      · rename_i ho
        exact absurd ho (hother _)
      · rw [hc']
    have hzero : Object.lent name [] = 0 := rfl
    rw [hset]
    rw [← zero_add spare, ← hzero] at h ⊢
    refine h.exchange hc hid (List.forall_mem_nil _) fun C O => ?_
    exact hmoves C _ c rfl

theorem moves_withError {C : Multiset Connection} {O : Multiset (StatementId × ConnectionId)}
    {e f : Engine} (c : Connection) (message : Option String) (hcalm : e.Calm f) :
    Estate.Moves ⟨c ::ₘ C, O, e⟩
      ⟨{ c with raw := { c.raw with lastError := message } } ::ₘ C, O, f⟩ := by
  have hserve := Estate.Move.serve C O (c.serves_withError message e) (List.forall_mem_nil _)
  rw [show Statement.tags [] = 0 from rfl, zero_add] at hserve
  exact hserve.moves.trans (Estate.Move.calm _ O hcalm).moves

theorem openRaw (h : s.Settled b 0) (name target : String) (mode : OpenMode) :
    (s.openRaw name target mode).2.Settled b 0 := by
  unfold Session.openRaw
  split
  · exact h
  · rename_i hfree
    cases hc : s.engine.connect target mode with
    | mk result e =>
      cases result with
      | ok raw => exact (h.raw_opened hc).put_new (object?_of_inUse hfree)
      | error error => exact h.calm (Engine.connect_error hc)

theorem prepareRaw (h : s.Settled b 0) (raw name sql : String) :
    (s.prepareRaw raw name sql).2.Settled b 0 := by
  unfold Session.prepareRaw
  split
  · exact h
  · rename_i hfree
    cases hr : s.raw? raw with
    | none => exact h
    | some connection =>
      simp only
      cases hp : s.engine.prepare connection sql with
      | mk result after =>
        obtain ⟨r, e⟩ := after
        cases result with
        | ok t =>
          obtain ⟨-, -, -, rfl, rfl⟩ := Engine.prepare_ok hp
          have hset : ({ s with engine := s.engine.issue }.setRaw raw
              { connection with lastError := none }).Settled b 0 := by
            refine h.setRaw hr rfl fun C O c hc => ?_
            subst hc
            exact moves_withError c none s.engine.calm_issue
          have hnew : { s with engine := s.engine.issue }.object? name = none :=
            object?_of_inUse hfree
          exact (hset.add_plain (o := .handle t) trivial).put_new (object?_setRaw hnew raw _)
        | error error =>
          obtain ⟨⟨message, rfl⟩, rfl⟩ := Engine.prepare_error hp
          refine h.setRaw (e := s.engine) hr rfl fun C O c hc => ?_
          subst hc
          exact moves_withError c message (.refl s.engine)

theorem closeRaw (h : s.Settled b 0) (raw : String) : (s.closeRaw raw).2.Settled b 0 := by
  unfold Session.closeRaw
  cases hr : s.raw? raw with
  | none => exact h
  | some connection =>
    have hcloses : s.engine.faults.closes = 0 := h.sound.closes
    have hid : (s.engine.close connection).2.1.id = connection.id := by
      rw [(Engine.closing_close hcloses connection).1]
    refine h.setRaw hr hid fun C O c hc => ?_
    subst hc
    exact (Estate.Move.closeRaw C O c s.engine).moves

theorem tag_step (e : Engine) (t : Statement) : (e.step t).2.1.tag = t.tag := by
  have hrewind := e.step_rewind t
  have hid := congrArg Statement.id hrewind
  have howner := congrArg Statement.owner hrewind
  exact Prod.ext hid howner

theorem advance (h : s.Settled b 0) (name : String) : (s.advance name).2.Settled b 0 := by
  unfold Session.advance
  split
  · rename_i t ho
    exact h.put_calm ho (.handle t _) rfl rfl (s.engine.calm_step t)
  · rename_i k source ho
    have htag := tag_step s.engine k.statement
    refine h.put_calm ho (.statement source (congrArg Prod.snd htag)) rfl ?_
      (s.engine.calm_step k.statement)
    exact congrArg (fun tag => ({tag} : Multiset _)) htag
  · exact h

theorem changeStatement {change : Statement → Statement} (h : s.Settled b 0) (name : String)
    (htag : ∀ t, (change t).tag = t.tag) : (s.changeStatement name change).2.Settled b 0 := by
  unfold Session.changeStatement
  cases ht : s.statement? name with
  | none => exact h
  | some t =>
    unfold statement? at ht
    split at ht
    · rename_i ho
      simp only [setStatement, ho]
      exact h.put_calm ho (.handle _ _) rfl rfl (.refl s.engine)
    · rename_i k source ho
      obtain rfl := Option.some.inj ht
      simp only [setStatement, ho]
      refine h.put_calm ho (.statement source (congrArg Prod.snd (htag _))) rfl ?_
        (.refl s.engine)
      exact congrArg (fun tag => ({tag} : Multiset _)) (htag _)
    · cases ht

theorem finalize (h : s.Settled b 0) (name : String) : (s.finalize name).2.Settled b 0 := by
  unfold Session.finalize
  split
  · rename_i k source ho
    have hname : s.connection? name = none := by simp [connection?, ho]
    have hremove := h.remove ho (h.ordered.not_source hname)
    exact (hremove.restate { k with cacheable := false } rfl).recycle
  · exact h

theorem newCache (h : s.Settled b 0) (name : String) (settings : CacheSettings) :
    (s.newCache name settings).2.Settled b 0 := by
  unfold Session.newCache
  split
  · exact h
  · rename_i hfree
    cases hc : StatementCache.ofSettings? settings with
    | none => exact h
    | some cache =>
      exact (h.add_plain (o := .cache cache) trivial).put_new (object?_of_inUse hfree)

theorem own_cache {cache : StatementCache} (hc : s.cache? name = some cache)
    (hown : s.connection? name = none) : s.object? name = some (.cache cache) ∧
      ∀ cache', s.setCache name cache' = s.put name (.cache cache') := by
  have ho : s.object? name = some (.cache cache) := by
    obtain ⟨ho, -⟩ | ⟨d, hd, -⟩ := setCache_cases hc cache
    · exact ho
    · rw [hown] at hd
      cases hd
  refine ⟨ho, fun cache' => ?_⟩
  rw [setCache, ho]

theorem takeCached (h : s.Settled b 0) (cache name sql : String) (owner : ConnectionId)
    (hown : s.connection? cache = none) : (s.takeCached cache name sql owner).2.Settled b 0 := by
  unfold Session.takeCached
  split
  · exact h
  · rename_i hfree
    cases hc : s.cache? cache with
    | none => exact h
    | some c =>
      let s' := { s with engine := s.engine.finalizeAll (c.acquire owner sql).discarded }
      obtain ⟨ho, -⟩ := own_cache hc hown
      have hput := (own_cache (s := s') hc hown).2 (c.acquire owner sql).cache
      have hset := h.put_calm ho (.cache c (c.acquire owner sql).cache) rfl rfl
        (s.engine.calm_finalizeAll (c.acquire owner sql).discarded)
      simp only
      rw [hput]
      cases (c.acquire owner sql).found with
      | none => exact hset
      | some t =>
        have hnew : (s.put cache (.cache (c.acquire owner sql).cache)).object? name = none :=
          object?_put_none (object?_of_inUse hfree) ho
        exact (hset.add_plain (o := .handle t) trivial).put_new hnew

theorem storeCached (h : s.Settled b 0) (cache sql statement : String)
    (hown : s.connection? cache = none) : (s.storeCached cache sql statement).2.Settled b 0 := by
  unfold Session.storeCached
  split
  · rename_i c t hc ht
    have hname : s.connection? statement = none := by simp [connection?, ht]
    have hremove := (h.remove ht (h.ordered.not_source hname)).drop_plain trivial
    have hstill : (s.remove statement).object? cache = some (.cache c) := by
      obtain ⟨ho, -⟩ := own_cache hc hown
      have hne : cache ≠ statement := by
        rintro rfl
        rw [ho] at ht
        cases ht
      exact (Table.lookup_erase_ne hne).trans ho
    simp only [setCache, hstill]
    exact hremove.put_calm hstill (.cache c _) rfl rfl (s.engine.calm_finalizeAll _)
  · exact h

theorem clearCached (h : s.Settled b 0) (cache : String) (hown : s.connection? cache = none) :
    (s.clearCached cache).2.Settled b 0 := by
  unfold Session.clearCached
  cases hc : s.cache? cache with
  | none => exact h
  | some c =>
    obtain ⟨ho, hput⟩ := own_cache hc hown
    simp only [hput]
    exact h.put_calm ho (.cache c _) rfl rfl (s.engine.calm_finalizeAll _)

theorem reconfigureCached (h : s.Settled b 0) (cache : String) (settings : CacheSettings)
    (hown : s.connection? cache = none) : (s.reconfigureCached cache settings).2.Settled b 0 := by
  unfold Session.reconfigureCached
  cases hc : s.cache? cache with
  | none => exact h
  | some c =>
    obtain ⟨ho, hput⟩ := own_cache hc hown
    simp only
    cases c.reconfigure? settings with
    | none => exact h
    | some after =>
      simp only [hput]
      exact h.put_calm ho (.cache c _) rfl rfl (s.engine.calm_finalizeAll _)

theorem connect (h : s.Settled b 0) (name target : String) (settings : ConnectionSettings)
    (hfits : settings.statementCache.fits = true) :
    (s.connect name target settings).2.Settled b 0 := by
  unfold Session.connect
  split
  · exact h
  · rename_i hfree
    cases hc : Connection.connect s.engine target settings with
    | mk attempt e =>
      have hmade := h.connection_made hfits hc
      cases attempt with
      | ok c => exact hmade.put_new (object?_of_inUse hfree)
      | refused error => exact hmade
      | aborted cause => exact hmade

theorem wrap (h : s.Settled b 0) (raw name : String) (settings : CacheSettings)
    (hfits : settings.fits = true) : (s.wrap raw name settings).2.Settled b 0 := by
  unfold Session.wrap
  split
  · exact h
  · rename_i hfree
    split
    · rename_i r ho
      have hname : s.connection? raw = none := by simp [connection?, ho]
      have hremove := h.remove ho (h.ordered.not_source hname)
      cases hc : Connection.ofRaw? r settings with
      | none => simp [Connection.ofRaw?, StatementCache.ofSettings?, hfits] at hc
      | some c =>
        exact (hremove.adopt hc).put_new (object?_remove_none (object?_of_inUse hfree) raw)
    · exact h

theorem prepare (h : s.Settled b 0) (connection name sql : String) :
    (s.prepare connection name sql).2.Settled b 0 := by
  unfold Session.prepare
  split
  · exact h
  · rename_i hfree
    cases hc : s.connection? connection with
    | none => exact h
    | some c =>
      simp only
      cases hp : c.prepare sql s.engine with
      | mk result after =>
        obtain ⟨d, e⟩ := after
        cases result with
        | ok k =>
          have hnone : Object.lent connection [] + 0 = 0 := rfl
          rw [← hnone] at h
          have hset := h.serve [] [k] hc (Connection.serves_prepare hp)
          have hnew : { s with engine := e }.object? name = none := object?_of_inUse hfree
          exact hset.put_new (object?_setConnection hnew connection d)
        | error error => exact h.serve_nil hc (Connection.serves_prepare_error hp)

theorem execute (h : s.Settled b 0) (connection sql : String) :
    (s.execute connection sql).2.Settled b 0 := by
  unfold Session.execute
  cases hc : s.connection? connection with
  | none => exact h
  | some c => exact h.serve_nil hc (c.serves_execute sql s.engine)

theorem configure (h : s.Settled b 0) (connection : String) (settings : CacheSettings) :
    (s.configure connection settings).2.Settled b 0 := by
  unfold Session.configure
  cases hc : s.connection? connection with
  | none => exact h
  | some c =>
    simp only
    cases hr : c.configureCache? settings s.engine with
    | none => exact h
    | some after => exact h.serve_nil hc (Connection.serves_configureCache hr)

theorem clearCache (h : s.Settled b 0) (connection : String) :
    (s.clearCache connection).2.Settled b 0 := by
  unfold Session.clearCache
  cases hc : s.connection? connection with
  | none => exact h
  | some c => exact h.serve_nil hc (c.serves_clearCache s.engine)

theorem close (h : s.Settled b 0) (connection : String) :
    (s.close connection).2.Settled b 0 := by
  unfold Session.close
  split
  · rename_i c ho
    split
    · exact h
    · rename_i hfree
      have hcloses : s.engine.faults.closes = 0 := h.sound.closes
      have hunborrowed : s.isBorrowed connection = false := by simpa using hfree
      have hremove := h.remove ho (by
        rw [add_zero]
        exact not_mem_of_unborrowed hunborrowed)
      have hend : (c.close s.engine).2 = c.destroy s.engine := Connection.close_eq_destroy hcloses c
      simp only [hend]
      exact hremove.destroy
  · exact h

end Settled

end ConnectionPool.Session

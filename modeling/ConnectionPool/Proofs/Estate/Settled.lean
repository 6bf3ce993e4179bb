import ConnectionPool.Proofs.Estate.PoolOrder

/-!
# Settled sessions

A session is settled when it is in order and moves have led to its estate from a sound one. What a
session does to its objects and its pools leaves it settled.
-/

namespace ConnectionPool

/-- A connection, in a cache or not. -/
def Object.IsStock : Object → Prop
  | .raw _ => True
  | .connection _ => True
  | _ => False

/-- A statement in a caller's hands, or a cache that belongs to no connection. -/
def Object.IsPlain : Object → Prop
  | .handle _ => True
  | .cache _ => True
  | _ => False

/-- What may take the place of an object that is no connection with a cache and no handle to a
pool or an episode. A statement stays one of the same connection. -/
inductive Object.Becomes : Object → Object → Prop
  | raw (raw raw' : RawConnection) : Becomes (.raw raw) (.raw raw')
  | handle (statement statement' : Statement) : Becomes (.handle statement) (.handle statement')
  | cache (cache cache' : StatementCache) : Becomes (.cache cache) (.cache cache')
  | statement {k k' : Checkout} (source : String) : k'.statement.owner = k.statement.owner →
      Becomes (.statement k source) (.statement k' source)

/-- Statements checked out of the object with a name. -/
def Object.lent (name : String) (l : List Checkout) : Multiset Object :=
  ↑(l.map fun k => Object.statement k name)

namespace Object

variable {name : String} {l : List Checkout} {o : Object}

theorem mem_lent : o ∈ lent name l ↔ ∃ k ∈ l, .statement k name = o := List.mem_map

theorem connections_lent (name : String) (l : List Checkout) :
    (lent name l).bind connections = 0 := by
  refine Multiset.eq_zero_of_forall_notMem fun c hc => ?_
  obtain ⟨o, ho, hmem⟩ := Multiset.mem_bind.mp hc
  obtain ⟨k, -, rfl⟩ := mem_lent.mp ho
  cases hmem

theorem out_lent (name : String) (l : List Checkout) :
    (lent name l).bind out = Statement.tags (l.map Checkout.statement) := by
  induction l with
  | nil => rfl
  | cons k l ih =>
    have hcons : lent name (k :: l) = .statement k name ::ₘ lent name l := rfl
    rw [hcons, Multiset.cons_bind, ih]
    rfl

theorem handlesIn_lent (name : String) (l : List Checkout) (n id : Nat) :
    handlesIn (lent name l) n id = 0 := by
  refine Multiset.sum_eq_zero fun i hi => ?_
  obtain ⟨o, ho, rfl⟩ := Multiset.mem_map.mp hi
  obtain ⟨k, -, rfl⟩ := mem_lent.mp ho
  rfl

end Object

namespace Session

structure Settled (b : Estate) (s : Session) (spare : Multiset Object) : Prop where
  base : b.Sound
  moves : Estate.Moves b (s.estate spare)
  ordered : s.Ordered spare

variable {b : Estate} {s t : Session} {spare left X Y : Multiset Object} {name : String}
  {o old : Object} {n id : Nat} {p q : ManagedPool} {c d : Connection} {e : Engine}

theorem estate_congr (hpop : t.population + left = s.population + spare)
    (hpools : t.pools = s.pools) (hengine : t.engine = s.engine) :
    t.estate left = s.estate spare := by
  simp only [estate, pooled, hpop, hpools, hengine]

theorem stock_zero : ∀ o ∈ (0 : Multiset Object), o.IsStock :=
  fun _ hm => absurd hm (Multiset.notMem_zero _)

theorem stock_raw (raw : RawConnection) : ∀ o ∈ ({.raw raw} : Multiset Object), o.IsStock :=
  fun _ hm => Multiset.mem_singleton.mp hm ▸ trivial

theorem stock_connection (c : Connection) : ∀ o ∈ ({.connection c} : Multiset Object), o.IsStock :=
  fun _ hm => Multiset.mem_singleton.mp hm ▸ trivial

theorem Ordered.put_in_place (h : s.Ordered spare) (ho : s.object? name = some old)
    (hkind : old.Becomes o) : (s.put name o).Ordered spare := by
  have hname : s.connection? name = none := by
    cases hkind <;> simp [connection?, ho]
  have hhandles : ∀ n id, o.handles n id = old.handles n id := by
    cases hkind <;> exact fun n id => rfl
  have hnot : ∀ n, .pool n ≠ old := by
    cases hkind <;> simp
  refine h.recast rfl rfl rfl (Table.nodup_put h.names_nodup) ?_ ?_ ?_
  · intro n id
    rw [population_put_over ho, population_remove ho, Multiset.cons_add, Multiset.cons_add,
      Object.handlesIn_cons, Object.handlesIn_cons, hhandles]
  · intro n hm
    rw [population_remove ho, Multiset.cons_add] at hm
    rw [population_put_over ho, Multiset.cons_add]
    exact Multiset.mem_cons_of_mem ((Multiset.mem_cons.mp hm).resolve_left (hnot n))
  · -- The name is the source of no statement, so each source stands for what it did before.
    intro k source hm
    have hold : ∃ k', .statement k' source ∈ s.population + spare ∧
        k'.statement.owner = k.statement.owner := by
      rw [population_put_over ho, Multiset.cons_add] at hm
      rw [population_remove ho, Multiset.cons_add]
      cases Multiset.mem_cons.mp hm with
      | inr hrest => exact ⟨k, Multiset.mem_cons_of_mem hrest, rfl⟩
      | inl heq =>
        subst heq
        cases hkind with
        | statement _ howner => exact ⟨_, Multiset.mem_cons_self _ _, howner.symm⟩
    obtain ⟨k', hk', howner⟩ := hold
    have hne : source ≠ name := by
      rintro rfl
      exact h.not_source hname k' hk'
    rw [owner?_put_ne hne, h.resolved k' source hk', howner]

theorem out_stock (hX : ∀ o ∈ X, o.IsStock) : X.bind Object.out = 0 := by
  refine Multiset.eq_zero_of_forall_notMem fun tag htag => ?_
  obtain ⟨o, ho, hmem⟩ := Multiset.mem_bind.mp htag
  have hstock := hX o ho
  cases o with
  | raw | connection => cases hmem
  | _ => cases hstock

theorem handlesIn_stock (hX : ∀ o ∈ X, o.IsStock) (n id : Nat) : Object.handlesIn X n id = 0 := by
  refine Multiset.sum_eq_zero fun i hi => ?_
  obtain ⟨o, ho, rfl⟩ := Multiset.mem_map.mp hi
  have hstock := hX o ho
  cases o with
  | raw | connection => rfl
  | _ => cases hstock

namespace Settled

theorem sound (h : s.Settled b spare) : (s.estate spare).Sound := h.base.moves h.moves

theorem leads (h : s.Settled b spare) : b.Leads (s.estate spare) := h.base.leads h.moves

theorem remove (h : s.Settled b spare) (ho : s.object? name = some o)
    (hfree : ∀ k, .statement k name ∉ s.population + spare) :
    (s.remove name).Settled b (o ::ₘ spare) where
  base := h.base
  moves := by
    have hpop : (s.remove name).population + (o ::ₘ spare) = s.population + spare := by
      rw [population_remove ho, Multiset.add_cons, Multiset.cons_add]
    exact (estate_congr hpop rfl rfl).symm ▸ h.moves
  ordered := h.ordered.remove ho hfree

theorem put_new (h : s.Settled b (o ::ₘ spare)) (hnew : s.object? name = none) :
    (s.put name o).Settled b spare where
  base := h.base
  moves := by
    have hpop : (s.put name o).population + spare = s.population + (o ::ₘ spare) := by
      rw [population_put_new hnew, Multiset.add_cons, Multiset.cons_add]
    exact (estate_congr hpop rfl rfl).symm ▸ h.moves
  ordered := h.ordered.put_new hnew

theorem put_over (h : s.Settled b (o ::ₘ spare)) (hold : s.object? name = some old)
    (hfree : ∀ k, .statement k name ∉ s.population + (o ::ₘ spare)) :
    (s.put name o).Settled b (old ::ₘ spare) where
  base := h.base
  moves := by
    have hpop : (s.put name o).population + (old ::ₘ spare) = s.population + (o ::ₘ spare) := by
      rw [population_put_over hold, population_remove hold]
      simp only [Multiset.add_cons, Multiset.cons_add]
      exact Multiset.cons_swap ..
    exact (estate_congr hpop rfl rfl).symm ▸ h.moves
  ordered := h.ordered.put_over hold hfree

theorem respare (h : s.Settled b spare)
    (hconns : left.bind Object.connections = spare.bind Object.connections)
    (hout : left.bind Object.out = spare.bind Object.out)
    (hordered : s.Ordered left) : s.Settled b left where
  base := h.base
  moves := by
    have hsame : s.estate left = s.estate spare := by
      simp only [estate, Multiset.add_bind, hconns, hout]
    exact hsame ▸ h.moves
  ordered := hordered

theorem add (h : s.Settled b spare) (hconns : o.connections = 0) (hout : o.out = 0)
    (hid : o.episode? = none) (hno : ∀ k source, .statement k source ≠ o) :
    s.Settled b (o ::ₘ spare) := by
  refine h.respare ?_ ?_ (h.ordered.respare ?_ ?_ ?_)
  · rw [Multiset.cons_bind, hconns, zero_add]
  · rw [Multiset.cons_bind, hout, zero_add]
  · intro n id
    rw [Object.handlesIn_cons, Object.handles, hid, if_neg (by simp), zero_add]
  · exact fun n hm => Multiset.mem_cons_of_mem hm
  · intro k source hm
    have hmem := (Multiset.mem_cons.mp hm).resolve_left (hno k source)
    exact h.ordered.resolved k source (Multiset.mem_add.mpr (.inr hmem))

theorem add_plain (h : s.Settled b spare) (ho : o.IsPlain) : s.Settled b (o ::ₘ spare) := by
  cases o with
  | handle | cache => exact h.add rfl rfl rfl nofun
  | _ => cases ho

theorem rehandle (o' : Object) (h : s.Settled b (o ::ₘ spare)) (hid : o.episode? = some (n, id))
    (hid' : o'.episode? = some (n, id)) : s.Settled b (o' ::ₘ spare) := by
  obtain ⟨hconns, hout⟩ := Object.hold_of_episode hid
  obtain ⟨hconns', hout'⟩ := Object.hold_of_episode hid'
  refine h.respare ?_ ?_ (h.ordered.respare ?_ ?_ ?_)
  · rw [Multiset.cons_bind, Multiset.cons_bind, hconns, hconns']
  · rw [Multiset.cons_bind, Multiset.cons_bind, hout, hout']
  · intro m j
    rw [Object.handlesIn_cons, Object.handlesIn_cons, Object.handles, Object.handles, hid, hid']
  · intro m hm
    refine Multiset.mem_cons_of_mem ((Multiset.mem_cons.mp hm).resolve_left ?_)
    rintro rfl
    cases hid
  · intro k source hm
    have hne : .statement k source ≠ o' := by
      rintro rfl
      cases hid'
    have hmem := (Multiset.mem_cons.mp hm).resolve_left hne
    exact h.ordered.resolved k source
      (Multiset.mem_add.mpr (.inr (Multiset.mem_cons_of_mem hmem)))

theorem drop_plain (h : s.Settled b (o ::ₘ spare)) (ho : o.IsPlain) : s.Settled b spare := by
  cases o with
  | handle | cache =>
    refine h.respare ?_ ?_ (h.ordered.respare ?_ ?_ ?_)
    · rw [Multiset.cons_bind]
      exact (zero_add _).symm
    · rw [Multiset.cons_bind]
      exact (zero_add _).symm
    · intro n id
      rw [Object.handlesIn_cons]
      exact (zero_add _).symm
    · exact fun n hm => (Multiset.mem_cons.mp hm).resolve_left nofun
    · exact fun k source hm =>
        h.ordered.resolved k source (Multiset.mem_add.mpr (.inr (Multiset.mem_cons_of_mem hm)))
  | _ => cases ho

theorem calm (h : s.Settled b spare) (hcalm : s.engine.Calm e) :
    { s with engine := e }.Settled b spare where
  base := h.base
  moves := h.moves.trans (Estate.Move.calm _ _ hcalm).moves
  ordered := h.ordered.withEngine e

/-- Every statement that is checked out is of a connection that is named or out. -/
theorem lent (h : s.Settled b spare) {tag : StatementId × ConnectionId}
    (htag : tag ∈ (s.estate spare).out) :
    ∃ c ∈ s.population.bind Object.connections + s.pooled, c.id = tag.2 := by
  obtain ⟨source, c, hc, hid⟩ := h.ordered.connection_of_out htag
  have hmem := mem_of_connection? h.ordered.books hc 0
  rw [estate, add_zero] at hmem
  exact ⟨c, hmem, hid⟩

/-- Moves of the estate leave a session settled that is in order afterwards. -/
theorem moved {C C' : Multiset Connection} {O O' : Multiset (StatementId × ConnectionId)}
    (h : s.Settled b spare) (hordered : t.Ordered left)
    (hconns : (s.estate spare).connections = C) (hout : (s.estate spare).out = O)
    (hconns' : (t.estate left).connections = C') (hout' : (t.estate left).out = O')
    (hmoves : Estate.Moves ⟨C, O, s.engine⟩ ⟨C', O', t.engine⟩) : t.Settled b left := by
  subst hconns hout hconns' hout'
  exact ⟨h.base, h.moves.trans hmoves, hordered⟩

/-- Spare connections are traded for others. -/
theorem trade (h : s.Settled b (X + spare)) (hX : ∀ o ∈ X, o.IsStock) (hY : ∀ o ∈ Y, o.IsStock)
    (hmoves : ∀ C O, (∀ t ∈ O, ∃ d ∈ C, d.id = t.2) →
      Estate.Moves ⟨X.bind Object.connections + C, O, s.engine⟩
        ⟨Y.bind Object.connections + C, O, e⟩) :
    { s with engine := e }.Settled b (Y + spare) := by
  have hstock {Z : Multiset Object} {o : Object} (hZ : ∀ o ∈ Z, o.IsStock) (hm : o ∈ Z + spare)
      (hnot : ¬ o.IsStock) : o ∈ spare :=
    (Multiset.mem_add.mp hm).resolve_left fun hmem => hnot (hZ o hmem)
  have hordered : { s with engine := e }.Ordered (Y + spare) := by
    refine (h.ordered.respare ?_ ?_ ?_).withEngine e
    · intro n id
      rw [Object.handlesIn_add, Object.handlesIn_add, handlesIn_stock hX, handlesIn_stock hY]
    · exact fun n hm => Multiset.mem_add.mpr (.inr (hstock hX hm fun hs => hs))
    · intro k source hm
      have hmem := hstock hY hm fun hs => hs
      exact h.ordered.resolved k source
        (Multiset.mem_add.mpr (.inr (Multiset.mem_add.mpr (.inr hmem))))
  have hlent : ∀ t ∈ (s.estate (X + spare)).out, ∃ d ∈ (s.population + spare).bind
      Object.connections + s.pooled, d.id = t.2 := by
    intro t ht
    obtain ⟨c, hc, hid⟩ := h.lent ht
    refine ⟨c, ?_, hid⟩
    simp only [Multiset.add_bind, Multiset.mem_add] at hc ⊢
    exact hc.imp_left .inl
  refine h.moved hordered ?_ rfl ?_ ?_ (hmoves _ _ hlent)
  · simp only [estate, Multiset.add_bind]
    abel
  · simp only [estate, Multiset.add_bind]
    have hsame : { s with engine := e }.population = s.population ∧
        { s with engine := e }.pooled = s.pooled := ⟨rfl, rfl⟩
    rw [hsame.1, hsame.2]
    abel
  · simp only [estate, Multiset.add_bind, out_stock hX, out_stock hY]
    rfl

theorem raw_opened {target : String} {mode : OpenMode} {raw : RawConnection}
    (h : s.Settled b spare) (hc : s.engine.connect target mode = (.ok raw, e)) :
    { s with engine := e }.Settled b (.raw raw ::ₘ spare) := by
  rw [← zero_add spare] at h
  refine h.trade stock_zero (stock_raw raw) ?_
  intro C O _
  rw [Multiset.zero_bind, zero_add, Multiset.singleton_bind, Object.connections,
    Multiset.singleton_add]
  exact (Estate.Move.register C O hc).moves

theorem connection_made {target : String} {settings : ConnectionSettings}
    {attempt : Attempt ConnectionError Connection} (h : s.Settled b spare)
    (hfits : settings.statementCache.fits = true)
    (hc : Connection.connect s.engine target settings = (attempt, e)) :
    { s with engine := e }.Settled b (attempt.made.map Object.connection + spare) := by
  rw [← zero_add spare] at h
  refine h.trade stock_zero ?_ ?_
  · intro o ho
    obtain ⟨c, -, rfl⟩ := Multiset.mem_map.mp ho
    trivial
  · intro C O _
    have hmade : (attempt.made.map Object.connection).bind Object.connections = attempt.made := by
      rw [Multiset.bind_map]
      exact (Multiset.bind_singleton attempt.made id).trans (Multiset.map_id _)
    rw [Multiset.zero_bind, zero_add, hmade]
    exact Estate.moves_connect hfits hc

theorem adopt {raw : RawConnection} {settings : CacheSettings}
    (h : s.Settled b (.raw raw ::ₘ spare)) (hc : Connection.ofRaw? raw settings = some c) :
    s.Settled b (.connection c ::ₘ spare) := by
  rw [← Multiset.singleton_add] at h
  refine h.trade (stock_raw raw) (stock_connection c) (e := s.engine) ?_
  intro C O _
  have hserve := Estate.Move.serve C O (Estate.serves_ofRaw hc s.engine) (List.forall_mem_nil _)
  rw [show Statement.tags [] = 0 from rfl, zero_add] at hserve
  rw [Multiset.singleton_bind, Multiset.singleton_bind]
  exact hserve.moves

theorem destroy (h : s.Settled b (.connection c ::ₘ spare)) :
    { s with engine := c.destroy s.engine }.Settled b spare := by
  rw [← Multiset.singleton_add] at h
  have hend := h.trade (stock_connection c) stock_zero (e := c.destroy s.engine) ?_
  · rwa [zero_add] at hend
  · intro C O hfree
    rw [Multiset.singleton_bind, Multiset.zero_bind, zero_add]
    exact (Estate.Move.shut C O c s.engine hfree).moves

theorem forget {raw : RawConnection} (h : s.Settled b (.raw raw ::ₘ spare))
    (hclosed : raw.isOpen = false) : s.Settled b spare := by
  rw [← Multiset.singleton_add] at h
  have hend := h.trade (stock_raw raw) stock_zero (e := s.engine) ?_
  · rwa [zero_add] at hend
  · intro C O hfree
    have hsame : raw.unwrapped.destroy s.engine = s.engine := by
      simp [RawConnection.unwrapped, Connection.destroy, Connection.shutdown, Connection.clearCache,
        Connection.isOpen, hclosed, StatementCache.clear, StatementCache.statements,
        Engine.finalizeAll]
    have hshut := Estate.Move.shut C O raw.unwrapped s.engine hfree
    rw [hsame] at hshut
    rw [Multiset.singleton_bind, Multiset.zero_bind, zero_add]
    exact hshut.moves

theorem put_in_place (h : s.Settled b spare) (ho : s.object? name = some old)
    (hkind : old.Becomes o)
    (hmoves : ∀ C O, Estate.Moves ⟨old.connections + C, old.out + O, s.engine⟩
      ⟨o.connections + C, o.out + O, e⟩) : ({ s with engine := e }.put name o).Settled b spare := by
  refine h.moved ((h.ordered.put_in_place ho hkind).withEngine e) ?_ ?_ ?_ ?_
    (hmoves ((s.remove name).population.bind Object.connections +
      spare.bind Object.connections + s.pooled)
      ((s.remove name).population.bind Object.out + spare.bind Object.out))
  · simp only [estate, population_remove ho, Multiset.cons_add, Multiset.cons_bind,
      Multiset.add_bind]
    abel
  · simp only [estate, population_remove ho, Multiset.cons_add, Multiset.cons_bind,
      Multiset.add_bind]
  · have hpop : ({ s with engine := e }.put name o).population =
        o ::ₘ (s.remove name).population := population_put_over ho o
    have hpooled : ({ s with engine := e }.put name o).pooled = s.pooled := rfl
    simp only [estate, hpop, hpooled, Multiset.cons_add, Multiset.cons_bind, Multiset.add_bind]
    abel
  · have hpop : ({ s with engine := e }.put name o).population =
        o ::ₘ (s.remove name).population := population_put_over ho o
    simp only [estate, hpop, Multiset.cons_add, Multiset.cons_bind, Multiset.add_bind]

theorem put_calm (h : s.Settled b spare) (ho : s.object? name = some old) (hkind : old.Becomes o)
    (hconns : o.connections = old.connections) (hout : o.out = old.out)
    (hcalm : s.engine.Calm e) : ({ s with engine := e }.put name o).Settled b spare := by
  refine h.put_in_place ho hkind fun C O => ?_
  rw [hconns, hout]
  exact (Estate.Move.calm _ _ hcalm).moves

/-- A connection goes on with statements checked out of it. -/
theorem exchange {ks ks' : List Checkout} (h : s.Settled b (Object.lent name ks + spare))
    (hc : s.connection? name = some c) (hid : d.id = c.id)
    (howner : ∀ k ∈ ks', k.statement.owner = c.id)
    (hmoves : ∀ C O, Estate.Moves
      ⟨c ::ₘ C, Statement.tags (ks.map Checkout.statement) + O, s.engine⟩
      ⟨d ::ₘ C, Statement.tags (ks'.map Checkout.statement) + O, e⟩) :
    ({ s with engine := e }.setConnection name d).Settled b (Object.lent name ks' + spare) := by
  have hordered : s.Ordered (Object.lent name ks' + spare) := by
    refine h.ordered.respare ?_ ?_ ?_
    · intro n id
      rw [Object.handlesIn_add, Object.handlesIn_add, Object.handlesIn_lent,
        Object.handlesIn_lent]
    · intro n hm
      rw [Multiset.mem_add, Object.mem_lent] at hm ⊢
      exact .inr (hm.resolve_left fun ⟨_, _, heq⟩ => nomatch heq)
    · intro k source hm
      cases Multiset.mem_add.mp hm with
      | inl hlent =>
        obtain ⟨k', hk', heq⟩ := Object.mem_lent.mp hlent
        cases heq
        rw [owner?, hc, howner k hk']
        rfl
      | inr hrest =>
        exact h.ordered.resolved k source
          (Multiset.mem_add.mpr (.inr (Multiset.mem_add.mpr (.inr hrest))))
  obtain ⟨C, hC⟩ := estate_setConnection h.ordered.books hc
  refine ⟨h.base, h.moves.trans ?_, (hordered.withEngine e).setConnection hc hid⟩
  have hfrom : s.estate (Object.lent name ks + spare) =
      ⟨c ::ₘ (C + spare.bind Object.connections),
        Statement.tags (ks.map Checkout.statement) + (s.population + spare).bind Object.out,
        s.engine⟩ := by
    refine Estate.ext ?_ ?_ rfl
    · rw [(hC _).1, Multiset.add_bind, Object.connections_lent, zero_add]
    · simp only [estate, Multiset.add_bind, Object.out_lent]
      abel
  have hconns : (Object.lent name ks' + spare).bind Object.connections =
      spare.bind Object.connections := by
    rw [Multiset.add_bind, Object.connections_lent, zero_add]
  have hout : (s.estate (Object.lent name ks' + spare)).out =
      Statement.tags (ks'.map Checkout.statement) + (s.population + spare).bind Object.out := by
    simp only [estate, Multiset.add_bind, Object.out_lent]
    abel
  rw [hfrom, (hC _).2, hconns, hout]
  exact hmoves _ _

theorem serve (ks ks' : List Checkout) (h : s.Settled b (Object.lent name ks + spare))
    (hc : s.connection? name = some c)
    (hserves : c.Serves (ks.map Checkout.statement) s.engine d (ks'.map Checkout.statement) e) :
    ({ s with engine := e }.setConnection name d).Settled b (Object.lent name ks' + spare) := by
  have hout : ∀ t ∈ ks.map Checkout.statement, t.owner = c.id := by
    intro t ht
    obtain ⟨k, hk, rfl⟩ := List.mem_map.mp ht
    have hsource := h.ordered.resolved k name (Multiset.mem_add.mpr (.inr
      (Multiset.mem_add.mpr (.inl (Object.mem_lent.mpr ⟨k, hk, rfl⟩)))))
    rw [owner?, hc] at hsource
    exact (Option.some.inj hsource).symm
  have hown : ∀ t ∈ c.cache.statements, t.owner = c.id :=
    h.sound.own c (mem_of_connection? h.ordered.books hc _)
  refine h.exchange hc hserves.id ?_ fun C O => (Estate.Move.serve C O hserves hout).moves
  intro k hk
  refine hserves.own ?_ k.statement (List.mem_append_right _ (List.mem_map_of_mem hk))
  intro t ht
  exact (List.mem_append.mp ht).elim (hown t) (hout t)

theorem serve_nil (h : s.Settled b spare) (hc : s.connection? name = some c)
    (hserves : c.Serves [] s.engine d [] e) :
    ({ s with engine := e }.setConnection name d).Settled b spare := by
  have hzero : Object.lent name [] = 0 := rfl
  rw [← zero_add spare, ← hzero] at h ⊢
  exact h.serve [] [] hc hserves

end Settled

end Session

end ConnectionPool

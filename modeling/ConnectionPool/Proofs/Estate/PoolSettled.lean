import ConnectionPool.Proofs.Estate.Settled

/-!
# Pools of settled sessions

What pools do with their connections and their handles leaves sessions settled: whatever a pool
makes goes to it or to a caller, and what it lets go of is shut.
-/

namespace ConnectionPool.Session

variable {β : Type} {b : Estate} {s t : Session} {spare left : Multiset Object} {name : String}
  {o : Object} {n id : Nat} {p q : ManagedPool} {c : Connection} {m : Member Connection}
  {S T C : Multiset Connection}

/-- Whether a pool at a task trades its connections and no others, where `found` tells the
connection that an answer comes with. -/
def IsTrading (task : PoolTask β) (found : β → Option (Member Connection)) : Prop :=
  ∀ k reentrant w, Workplace.Trades k w (Member.conns? (found (task k reentrant w).1))
    (task k reentrant w).2

theorem tryAcquire_isTrading :
    IsTrading (fun k reentrant w => w.tryAcquire k reentrant) Acquired.member? :=
  fun _ reentrant w => Workplace.trades_tryAcquire reentrant w

theorem waitIn_isTrading (now : Nat) (manner : Manner) :
    IsTrading (waitIn now manner) Waited.member? := by
  intro k reentrant w
  cases manner with
  | plain => exact Workplace.trades_acquireWithin reentrant now _ w
  | within timeout => exact Workplace.trades_acquireWithin reentrant now _ w
  | inTask => exact Workplace.trades_acquireInTask reentrant now w

theorem close_isTrading : IsTrading (fun k _ w => ((), w.close k)) fun _ => none :=
  fun _ _ w => w.trades_close

theorem abandoned_isTrading (now : Nat) : IsTrading (abandoned now) fun _ => none := by
  intro k reentrant w
  have hacquire := Workplace.trades_acquireInTask (k := k) reentrant now w
  rw [abandoned]
  cases hr : w.acquireInTask k reentrant now with
  | mk answer after =>
    rw [hr] at hacquire
    cases answer with
    | blocked => exact hacquire
    | answered answer =>
      cases answer with
      | ok m =>
        have hback := Workplace.trades_giveBack (k := k) after m
        simp only [Member.conns?_none, Workplace.Trades, zero_add]
        exact Connector.Trades.trans hacquire hback
      | refused error => exact hacquire
      | aborted cause => exact hacquire

/-- The lease on what a pool has got for a caller. -/
def leaseOn (n : Nat) : Option (Member Connection) → Multiset Object
  | some m => {.lease n m.id}
  | none => 0

theorem hold_leaseOn (n : Nat) (found : Option (Member Connection)) :
    (leaseOn n found).bind Object.connections = 0 ∧ (leaseOn n found).bind Object.out = 0 := by
  cases found with
  | none => exact ⟨rfl, rfl⟩
  | some m => exact ⟨Multiset.singleton_bind .., Multiset.singleton_bind ..⟩

theorem Ordered.resumed {task : PoolTask β} {found : β → Option (Member Connection)}
    (h : s.Ordered spare) (hp : s.pool? n = some p) (hfair : Fair task found) :
    (s.resumed n p task (found (s.work n p task).1)).Ordered
      (leaseOn n (found (s.work n p task).1) + spare) := by
  have hbooks := hfair.inOrder p.connector s.awaited.isEmpty
    ⟨p.ledger.pool, p.script, [], s.engine⟩ p.ledger (h.pool_regular hp).inOrder rfl
  unfold Session.resumed
  generalize hr : task p.connector s.awaited.isEmpty
    ⟨p.ledger.pool, p.script, [], s.engine⟩ = r at hbooks
  have hanswer : (s.work n p task).1 = r.1 := congrArg Prod.fst hr
  rw [hanswer]
  have hengine := h.withEngine r.2.world
  cases hf : found r.1 with
  | none =>
    rw [hf] at hbooks
    rw [leaseOn, zero_add]
    exact hengine.keep hp r.2.pool r.2.script hbooks
  | some m =>
    rw [hf] at hbooks
    rw [leaseOn, Multiset.singleton_add]
    exact hengine.start hp r.2.pool r.2.script hbooks

namespace Settled

/-- A pool has traded its connections beside all others, of which are the statements that are
checked out. -/
theorem traded {target : String} {settings : ConnectionSettings} (h : s.Settled b spare)
    (hordered : t.Ordered left) (hfits : settings.statementCache.fits = true)
    (htrades : (Connector.toTarget target settings).Trades (S, s.engine) (T, t.engine))
    (hfrom : (s.estate spare).connections = S + C) (hto : (t.estate left).connections = T + C)
    (hout : (t.estate left).out = (s.estate spare).out)
    (hlent : ∀ tag ∈ (s.estate spare).out, ∃ d ∈ C, d.id = tag.2) : t.Settled b left :=
  h.moved hordered hfrom rfl hto hout (Estate.moves_trades hfits htrades hlent)

theorem lent_beside (h : s.Settled b spare) (hp : s.pool? n = some p)
    {tag : StatementId × ConnectionId} (htag : tag ∈ (s.estate spare).out) :
    ∃ d ∈ s.population.bind Object.connections +
      (Episode.conns p.ledger.episodes + s.pooledBeside n), d.id = tag.2 := by
  obtain ⟨source, c, hc, hid⟩ := h.ordered.connection_of_out htag
  exact ⟨c, mem_beside_of_connection? hp hc, hid⟩

theorem resumed {task : PoolTask β} {found : β → Option (Member Connection)}
    (h : s.Settled b spare) (hp : s.pool? n = some p) (hfair : Fair task found)
    (htrading : IsTrading task found) :
    (s.resumed n p task (found (s.work n p task).1)).Settled b
      (leaseOn n (found (s.work n p task).1) + spare) := by
  have hordered := h.ordered.resumed hp hfair
  have htrades := htrading p.connector s.awaited.isEmpty ⟨p.ledger.pool, p.script, [], s.engine⟩
  unfold Session.resumed at hordered ⊢
  generalize hr : task p.connector s.awaited.isEmpty
    ⟨p.ledger.pool, p.script, [], s.engine⟩ = r at htrades hordered
  have hanswer : (s.work n p task).1 = r.1 := congrArg Prod.fst hr
  rw [hanswer] at hordered ⊢
  obtain ⟨hconns, hout⟩ := hold_leaseOn n (found r.1)
  have hlent : ∀ tag ∈ (s.estate spare).out, ∃ d ∈ s.population.bind Object.connections +
      (Episode.conns p.ledger.episodes + s.pooledBeside n) + spare.bind Object.connections,
        d.id = tag.2 := by
    intro tag htag
    obtain ⟨d, hd, hid⟩ := h.lent_beside hp htag
    exact ⟨d, Multiset.mem_add.mpr (.inl hd), hid⟩
  refine h.traded hordered (h.ordered.pool_regular hp).fits htrades ?_ ?_ ?_ hlent
  · simp only [estate, pooled_eq hp, Ledger.conns, Multiset.add_bind]
    abel
  · have hresume : (p.ledger.resume r.2.pool (found r.1)).conns =
        Member.conns? (found r.1) + r.2.pool.conns + Episode.conns p.ledger.episodes := by
      cases found r.1 with
      | none => exact congrArg (· + _) (zero_add _).symm
      | some m =>
        rw [Ledger.resume, Ledger.conns_start, Member.conns?_some, add_assoc,
          Multiset.singleton_add]
        rfl
    have hafter := connections_putPool (s := { s with engine := r.2.world }) hp { p with
      ledger := p.ledger.resume r.2.pool (found r.1), script := r.2.script }
        (leaseOn n (found r.1) + spare)
    simp only [hresume, Multiset.add_bind, hconns, zero_add] at hafter
    have hpopulation : ({ s with engine := r.2.world } : Session).population = s.population := rfl
    have hbeside : ({ s with engine := r.2.world } : Session).pooledBeside n = s.pooledBeside n :=
      rfl
    rw [hpopulation, hbeside] at hafter
    refine hafter.trans ?_
    abel
  · simp only [estate, Multiset.add_bind, hout, zero_add]
    rfl

theorem sweepPool (h : s.Settled b (.pool n ::ₘ spare)) : (s.sweepPool n).Settled b spare := by
  have hordered := h.ordered.sweepPool
  have hconns : (s.estate (.pool n ::ₘ spare)).connections =
      (s.population + spare).bind Object.connections + s.pooled := by
    simp only [estate, Multiset.add_bind, Multiset.cons_bind]
    rw [show Object.connections (.pool n) = 0 from rfl, zero_add]
  have hout : (s.estate (.pool n ::ₘ spare)).out = (s.population + spare).bind Object.out := by
    simp only [estate, Multiset.add_bind, Multiset.cons_bind]
    rw [show Object.out (.pool n) = 0 from rfl, zero_add]
  unfold Session.sweepPool at hordered ⊢
  split
  · rename_i halive
    rw [if_pos halive] at hordered
    exact h.moved hordered hconns hout rfl rfl (.refl _)
  · rename_i hdead
    rw [if_neg hdead] at hordered
    cases hp : s.pool? n with
    | none =>
      rw [hp] at hordered
      exact h.moved hordered hconns hout rfl rfl (.refl _)
    | some p =>
      rw [hp] at hordered
      have hend := Workplace.trades_destroyAll (k := p.connector) p.ledger.pool.idle.reverse 0
        s.engine
      rw [add_zero, Member.conns_reverse] at hend
      have hepisodes : Episode.conns p.ledger.episodes = 0 := by
        rw [(Ordered.ids_of_not_alive hp hdead).2]
        rfl
      have hbeside (tag : StatementId × ConnectionId)
          (htag : tag ∈ (s.estate (.pool n ::ₘ spare)).out) :
          ∃ d ∈ (s.population + spare).bind Object.connections + s.pooledBeside n,
            d.id = tag.2 := by
        obtain ⟨d, hd, hid⟩ := h.lent_beside hp htag
        refine ⟨d, ?_, hid⟩
        simp only [hepisodes, zero_add, Multiset.add_bind, Multiset.mem_add] at hd ⊢
        exact hd.imp_left .inl
      refine h.traded hordered (h.ordered.pool_regular hp).fits hend ?_ ?_ hout.symm hbeside
      · rw [hconns, pooled_eq hp, Ledger.conns, hepisodes, add_zero]
        exact add_left_comm ..
      · exact (zero_add _).symm

theorem dropHandle (h : s.Settled b (o ::ₘ spare)) (hid : o.episode? = some (n, id)) :
    (s.dropHandle n id).Settled b spare := by
  cases hp : s.pool? n with
  | none =>
    have hcounted := h.ordered.counted n id
    have hpos := Ordered.handlesIn_pos (P := s.population + (o ::ₘ spare))
      (Multiset.mem_add.mpr (.inr (Multiset.mem_cons_self o spare))) hid
    rw [handleCount, hp, Option.elim_none] at hcounted
    omega
  | some p =>
    let t := s.putPool n { p with ledger := (p.ledger.dropHandle id).2 }
    have hordered : t.Ordered (.pool n ::ₘ spare) := h.ordered.dropHandle hid hp
    have hafter (spare : Multiset Object) : (t.estate spare).connections = _ :=
      connections_putPool hp { p with ledger := (p.ledger.dropHandle id).2 } spare
    obtain ⟨hconns, hout⟩ := Object.hold_of_episode hid
    have hend := Workplace.trades_destroyAll (k := p.connector) (p.ledger.dropHandle id).1.toList 0
      s.engine
    rw [add_zero] at hend
    have hsame : (t.estate (.pool n ::ₘ spare)).out = (s.estate (o ::ₘ spare)).out := by
      refine Eq.trans (b := (s.population + (.pool n ::ₘ spare)).bind Object.out) rfl ?_
      simp only [estate, Multiset.add_bind, Multiset.cons_bind, hout]
      rfl
    -- The handle is gone from the ledger before its connection is shut, so no statement is
    -- checked out of that.
    have hlent (tag : StatementId × ConnectionId) (htag : tag ∈ (s.estate (o ::ₘ spare)).out) :
        ∃ d ∈ (s.population + spare).bind Object.connections +
          ((p.ledger.dropHandle id).2.conns + s.pooledBeside n), d.id = tag.2 := by
      rw [← hsame] at htag
      obtain ⟨source, c, hc, hid⟩ := hordered.connection_of_out htag
      have hmem := mem_of_connection? hordered.books hc 0
      rw [hafter, add_zero] at hmem
      refine ⟨c, ?_, hid⟩
      simp only [Multiset.add_bind, Multiset.mem_add] at hmem ⊢
      exact hmem.imp_left .inl
    unfold Session.dropHandle
    rw [hp]
    refine sweepPool (h.traded (hordered.withEngine _) (h.ordered.pool_regular hp).fits hend ?_ ?_
      hsame hlent)
    · have hall : p.ledger.conns = Member.conns (p.ledger.dropHandle id).1.toList +
          (p.ledger.dropHandle id).2.conns := (p.ledger.conns_dropHandle id).symm
      simp only [estate, pooled_eq hp, hall, Multiset.add_bind, Multiset.cons_bind, hconns]
      abel
    · refine (hafter (.pool n ::ₘ spare)).trans ?_
      simp only [Multiset.add_bind, Multiset.cons_bind, Object.connections]
      abel

/-- A pool that could not be built leaves nothing behind. -/
theorem traded_away {target : String} {settings : ConnectionSettings} {e : Engine}
    (h : s.Settled b spare) (hfits : settings.statementCache.fits = true)
    (htrades : (Connector.toTarget target settings).Trades (0, s.engine) (0, e)) :
    { s with engine := e }.Settled b spare :=
  h.traded (h.ordered.withEngine e) hfits htrades (zero_add _).symm (zero_add _).symm rfl
    fun _ htag => h.sound.lent _ htag

theorem addPool {target : String} {settings : ConnectionSettings} {e : Engine}
    {pool : Pool Connection} {script : List FactoryCall} (h : s.Settled b spare)
    (hfits : settings.statementCache.fits = true)
    (htrades : (Connector.toTarget target settings).Trades (0, s.engine) (pool.conns, e))
    (hbooks : Ledger.InOrder { pool }) :
    ({ s with engine := e, nextPool := s.nextPool + 1 }.putPool s.nextPool
      ⟨{ pool }, script, target, settings⟩).Settled b (.pool s.nextPool ::ₘ spare) := by
  have hregular : ManagedPool.Regular ⟨{ pool }, script, target, settings⟩ :=
    ⟨hbooks, List.forall_mem_nil _, hfits⟩
  have hordered := (h.ordered.withEngine e).addPool hregular rfl
  have hnew : s.pools.lookup s.nextPool = none := by
    rw [List.lookup_eq_none_iff]
    intro m hm
    exact bne_iff_ne.mpr (h.ordered.numbered m hm).ne'
  have hpooled : Table.weigh (fun p : ManagedPool => p.ledger.conns)
      (Table.put s.nextPool ⟨{ pool }, script, target, settings⟩ s.pools) =
        pool.conns + s.pooled := by
    have hput := Table.weigh_put (fun p : ManagedPool => p.ledger.conns) s.nextPool
      ⟨{ pool }, script, target, settings⟩ s.pools
    rw [hnew] at hput
    refine ((add_zero _).symm.trans hput).trans ((add_comm ..).trans ?_)
    exact congrArg (· + s.pooled) (add_zero pool.conns)
  refine h.traded hordered hfits htrades (zero_add _).symm ?_ ?_ fun _ htag =>
    h.sound.lent _ htag
  · refine Eq.trans (b := (s.population + (.pool s.nextPool ::ₘ spare)).bind Object.connections +
      (pool.conns + s.pooled)) (congrArg (_ + ·) hpooled) ?_
    simp only [estate, Multiset.add_bind, Multiset.cons_bind, Object.connections]
    abel
  · refine Eq.trans (b := (s.population + (.pool s.nextPool ::ₘ spare)).bind Object.out) rfl ?_
    simp only [estate, Multiset.add_bind, Multiset.cons_bind, Object.out, zero_add]

theorem connection_detached {after : Ledger Connection} (h : s.Settled b (o ::ₘ spare))
    (hid : o.episode? = some (n, id)) (hp : s.pool? n = some p)
    (hd : p.ledger.detach? id = some (c, after)) :
    (s.putPool n { p with ledger := after }).Settled b (.pool n ::ₘ .connection c ::ₘ spare) := by
  obtain ⟨hconns, hout⟩ := Object.hold_of_episode hid
  have hdetached := h.ordered.detach hid hp hd
  have hordered : (s.putPool n { p with ledger := after }).Ordered
      (.pool n ::ₘ .connection c ::ₘ spare) := by
    refine hdetached.respare ?_ ?_ ?_
    · intro m j
      simp only [Object.handlesIn_cons]
      exact congrArg (_ + ·) (zero_add _)
    · intro m hm
      rw [Multiset.cons_swap]
      exact Multiset.mem_cons_of_mem hm
    · intro k source hm
      rw [Multiset.cons_swap] at hm
      have hmem := (Multiset.mem_cons.mp hm).resolve_left nofun
      exact hdetached.resolved k source (Multiset.mem_add.mpr (.inr hmem))
  refine h.moved hordered rfl rfl ?_ ?_ (.refl _)
  · rw [connections_putPool hp]
    simp only [estate, pooled_eq hp, Ledger.conns_detach hd, Multiset.add_bind,
      Multiset.cons_bind, hconns]
    simp only [Object.connections, ← Multiset.singleton_add]
    abel
  · refine Eq.trans (b := (s.population + (.pool n ::ₘ .connection c ::ₘ spare)).bind
      Object.out) rfl ?_
    simp only [estate, Multiset.add_bind, Multiset.cons_bind, hout]
    simp only [Object.out, zero_add]

theorem addHandle (h : s.Settled b spare) (hp : s.pool? n = some p) (hid : id ∈ p.ledger.ids) :
    (s.putPool n { p with ledger := p.ledger.addHandle id }).Settled b
      (.shared n id ::ₘ spare) := by
  refine h.moved (h.ordered.addHandle hp hid) rfl rfl ?_ ?_ (.refl _)
  · rw [connections_putPool hp]
    simp only [estate, pooled_eq hp, Ledger.conns_addHandle, Multiset.add_bind,
      Multiset.cons_bind, Object.connections, zero_add]
  · refine Eq.trans (b := (s.population + (.shared n id ::ₘ spare)).bind Object.out) rfl ?_
    simp only [estate, Multiset.add_bind, Multiset.cons_bind, Object.out, zero_add]

theorem pass (h : s.Settled b spare) (nanos : Nat) :
    { s with now := s.now + nanos }.Settled b spare :=
  ⟨h.base, h.moves, h.ordered.pass nanos⟩

theorem await (h : s.Settled b spare) (n : Nat) : (s.await n).Settled b spare :=
  ⟨h.base, h.moves, h.ordered.await n⟩

theorem unawait (h : s.Settled b spare) (n : Nat) : (s.unawait n).Settled b spare := by
  refine sweepPool (h.moved (h.ordered.endWait n) rfl rfl ?_ ?_ (.refl _))
  · simp only [estate, Multiset.add_bind, Multiset.cons_bind]
    rw [show Object.connections (.pool n) = 0 from rfl, zero_add]
    rfl
  · simp only [estate, Multiset.add_bind, Multiset.cons_bind]
    rw [show Object.out (.pool n) = 0 from rfl, zero_add]
    rfl

end Settled

end ConnectionPool.Session

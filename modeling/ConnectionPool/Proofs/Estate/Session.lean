import ConnectionPool.Proofs.Custody.Session
import ConnectionPool.Proofs.Estate.Basic
import Mathlib.Data.Multiset.Bind

/-!
# Estates of sessions

The objects of a session and the pools behind them hold its connections. Some objects are between
two names at times; a session is looked at together with these spare ones.
-/

namespace ConnectionPool

theorem Table.lookup_of_mem {κ ν : Type} [BEq κ] [LawfulBEq κ] {key : κ} {value : ν}
    {table : List (κ × ν)} (hkeys : (table.map Prod.fst).Nodup) (hx : (key, value) ∈ table) :
    table.lookup key = some value := by
  obtain ⟨front, back, hsplit⟩ := List.append_of_mem hx
  rw [hsplit, List.map_append, List.map_cons] at hkeys
  refine List.lookup_eq_some_iff.mpr ⟨front, back, hsplit, ?_⟩
  intro x hx
  have hne := (List.nodup_append.mp hkeys).2.2 x.1 (List.mem_map_of_mem hx) key List.mem_cons_self
  simpa using Ne.symm hne

def Object.connections : Object → Multiset Connection
  | .raw r => {r.unwrapped}
  | .connection c => {c}
  | _ => 0

def Object.out : Object → Multiset (StatementId × ConnectionId)
  | .statement k _ => {k.statement.tag}
  | _ => 0

/-- The episode that an object is a handle to, by its pool and its connection's number there. -/
def Object.episode? : Object → Option (Nat × Nat)
  | .lease n id => some (n, id)
  | .shared n id => some (n, id)
  | _ => none

/-- How many handles to an episode an object is. -/
def Object.handles (n id : Nat) (o : Object) : Nat := if o.episode? = some (n, id) then 1 else 0

theorem Object.handles_of_episode {n id : Nat} {o : Object} (h : o.episode? = some (n, id))
    (m j : Nat) : o.handles m j = if m = n ∧ j = id then 1 else 0 := by
  rw [handles, h]
  simp [eq_comm]

theorem Object.hold_of_episode {n id : Nat} {o : Object} (h : o.episode? = some (n, id)) :
    o.connections = 0 ∧ o.out = 0 := by
  cases o with
  | lease | shared => exact ⟨rfl, rfl⟩
  | _ => cases h

namespace Session

variable {s : Session} {name : String} {o old : Object} {n id : Nat} {p : ManagedPool}
  {c d : Connection} {spare : Multiset Object}

def population (s : Session) : Multiset Object := ↑(s.objects.map Prod.snd)

theorem population_eq_weigh (s : Session) :
    s.population = Table.weigh (fun o => ({o} : Multiset Object)) s.objects := by
  rw [← Multiset.sum_map_singleton s.population, population, Multiset.map_coe, Multiset.sum_coe,
    List.map_map]
  rfl

theorem mem_population : o ∈ s.population ↔ ∃ name, (name, o) ∈ s.objects := by
  simp [population]

theorem mem_of_object? (h : s.object? name = some o) : o ∈ s.population :=
  mem_population.mpr ⟨name, Table.mem_of_lookup h⟩

theorem population_remove (h : s.object? name = some o) :
    s.population = o ::ₘ (s.remove name).population := by
  have herase := Table.weigh_erase (fun o => ({o} : Multiset Object)) name s.objects
  rw [show s.objects.lookup name = some o from h] at herase
  rw [population_eq_weigh, population_eq_weigh, ← herase, add_comm]
  exact Multiset.singleton_add ..

theorem population_put_new (h : s.object? name = none) (o : Object) :
    (s.put name o).population = o ::ₘ s.population := by
  have hput := Table.weigh_put (fun o => ({o} : Multiset Object)) name o s.objects
  rw [show s.objects.lookup name = none from h] at hput
  rw [population_eq_weigh, population_eq_weigh, ← Multiset.singleton_add]
  exact (add_zero _).symm.trans (hput.trans (add_comm ..))

theorem population_put_over (h : s.object? name = some old) (o : Object) :
    (s.put name o).population = o ::ₘ (s.remove name).population := by
  have hput := Table.weigh_put (fun o => ({o} : Multiset Object)) name o s.objects
  rw [show s.objects.lookup name = some old from h, ← population_eq_weigh, population_remove h,
    ← Multiset.singleton_add] at hput
  rw [population_eq_weigh, ← Multiset.singleton_add]
  refine add_right_cancel (b := {old}) (hput.trans ?_)
  abel

/-- The connections of all pools, idle and out. -/
def pooled (s : Session) : Multiset Connection :=
  Table.weigh (fun p : ManagedPool => p.ledger.conns) s.pools

/-- The connections of all pools but one. -/
def pooledBeside (s : Session) (n : Nat) : Multiset Connection :=
  Table.weigh (fun p : ManagedPool => p.ledger.conns) (Table.erase n s.pools)

theorem pooled_eq (hp : s.pool? n = some p) : s.pooled = p.ledger.conns + s.pooledBeside n := by
  have herase := Table.weigh_erase (fun p : ManagedPool => p.ledger.conns) n s.pools
  rw [show s.pools.lookup n = some p from hp] at herase
  exact herase.symm.trans (add_comm ..)

theorem pooled_putPool (hp : s.pool? n = some p) (q : ManagedPool) :
    (s.putPool n q).pooled = q.ledger.conns + s.pooledBeside n := by
  have hput := Table.weigh_put (fun p : ManagedPool => p.ledger.conns) n q s.pools
  have herase : s.pooled = _ := pooled_eq hp
  rw [pooled] at herase
  rw [show s.pools.lookup n = some p from hp, herase] at hput
  refine add_right_cancel (b := p.ledger.conns) (hput.trans ?_)
  abel

theorem mem_weigh_conns {pools : List (Nat × ManagedPool)} :
    c ∈ Table.weigh (fun p : ManagedPool => p.ledger.conns) pools ↔
      ∃ m ∈ pools, c ∈ m.2.ledger.conns := by
  have hbind : Table.weigh (fun p : ManagedPool => p.ledger.conns) pools =
      (↑pools : Multiset (Nat × ManagedPool)).bind fun m => m.2.ledger.conns :=
    (Multiset.sum_coe _).symm
  rw [hbind, Multiset.mem_bind]
  exact Iff.rfl

theorem mem_pooledBeside {m : Nat} {q : ManagedPool} (hq : s.pool? m = some q) (hne : m ≠ n)
    (hc : c ∈ q.ledger.conns) : c ∈ s.pooledBeside n := by
  have hmem : (m, q) ∈ Table.erase n s.pools :=
    Table.mem_of_lookup ((Table.lookup_erase_ne hne).trans hq)
  exact mem_weigh_conns.mpr ⟨(m, q), hmem, hc⟩

theorem pool?_of_mem (hkeys : (s.pools.map Prod.fst).Nodup) (hm : (n, p) ∈ s.pools) :
    s.pool? n = some p := Table.lookup_of_mem hkeys hm

theorem mem_pools_of_pool? (h : s.pool? n = some p) : (n, p) ∈ s.pools := Table.mem_of_lookup h

def estate (s : Session) (spare : Multiset Object) : Estate where
  connections := (s.population + spare).bind Object.connections + s.pooled
  out := (s.population + spare).bind Object.out
  engine := s.engine

theorem connections_putPool (hp : s.pool? n = some p) (q : ManagedPool)
    (spare : Multiset Object) : ((s.putPool n q).estate spare).connections =
      (s.population + spare).bind Object.connections + (q.ledger.conns + s.pooledBeside n) :=
  congrArg (_ + ·) (pooled_putPool hp q)

/-- The number of the connection that a name stands for. -/
def owner? (s : Session) (name : String) : Option ConnectionId :=
  (s.connection? name).map Connection.id

/-- A name stands for a connection of its own or for one that is out of a pool. -/
theorem connection?_cases (hc : s.connection? name = some c) :
    s.object? name = some (.connection c) ∨
      ∃ o n id e, s.object? name = some o ∧ o.episode? = some (n, id) ∧
        s.episodeOf? n id = some e ∧ e.member.conn = c := by
  unfold connection? at hc
  split at hc
  · rename_i ho
    obtain rfl := Option.some.inj hc
    exact .inl ho
  · rename_i n id ho
    obtain ⟨e, he, rfl⟩ := Option.map_eq_some_iff.mp hc
    exact .inr ⟨_, n, id, e, ho, rfl, he, rfl⟩
  · rename_i n id ho
    obtain ⟨e, he, rfl⟩ := Option.map_eq_some_iff.mp hc
    exact .inr ⟨_, n, id, e, ho, rfl, he, rfl⟩
  · cases hc

theorem connection?_of_episode (ho : s.object? name = some o) (hid : o.episode? = some (n, id)) :
    s.connection? name = (s.episodeOf? n id).map (·.member.conn) := by
  unfold connection?
  rw [ho]
  cases o <;> simp_all [Object.episode?]

theorem setConnection_of_episode (ho : s.object? name = some o) (hid : o.episode? = some (n, id))
    (d : Connection) : s.setConnection name d = s.setLeased n id d := by
  unfold setConnection
  rw [ho]
  cases o <;> simp_all [Object.episode?]

/-- A connection that a name stands for, among all others. -/
theorem estate_setConnection (hbooks : ∀ m ∈ s.pools, m.2.ledger.InOrder)
    (hc : s.connection? name = some c) :
    ∃ C, ∀ spare, (s.estate spare).connections = c ::ₘ (C + spare.bind Object.connections) ∧
      ∀ d e, ({ s with engine := e }.setConnection name d).estate spare =
        ⟨d ::ₘ (C + spare.bind Object.connections), (s.estate spare).out, e⟩ := by
  obtain ho | ⟨o, n, id, e, ho, hid, he, rfl⟩ := connection?_cases hc
  · refine ⟨(s.remove name).population.bind Object.connections + s.pooled, fun spare => ?_⟩
    have hrest : (s.remove name).population.bind Object.connections +
        spare.bind Object.connections + s.pooled =
          (s.remove name).population.bind Object.connections + s.pooled +
            spare.bind Object.connections := by abel
    constructor
    · simp only [estate, population_remove ho, Multiset.cons_add, Multiset.cons_bind,
        Multiset.add_bind, Object.connections, Multiset.singleton_add, hrest]
    · intro d e
      have hset : { s with engine := e }.setConnection name d =
          { s with engine := e }.put name (.connection d) := by
        rw [setConnection, show object? { s with engine := e } name = _ from ho]
      have hpop : ({ s with engine := e }.put name (.connection d)).population =
          .connection d ::ₘ (s.remove name).population := population_put_over ho _
      have hpooled : ({ s with engine := e }.put name (.connection d)).pooled = s.pooled := rfl
      rw [hset]
      simp only [estate, hpop, hpooled, population_remove ho, Multiset.cons_add,
        Multiset.cons_bind, Multiset.add_bind, Object.connections, Object.out,
        Multiset.singleton_add, hrest, zero_add]
      rfl
  · obtain ⟨p, hp, hfound⟩ := Option.bind_eq_some_iff.mp he
    have hnodup := (hbooks (n, p) (mem_pools_of_pool? hp)).ids_nodup
    refine ⟨s.population.bind Object.connections + s.pooledBeside n + (p.ledger.finish id).conns,
      fun spare => ⟨?_, fun d e => ?_⟩⟩
    · simp only [estate, pooled_eq hp, Ledger.conns_finish hfound, Multiset.add_bind,
        ← Multiset.singleton_add]
      abel
    · have hset : { s with engine := e }.setConnection name d =
          { s with engine := e }.putPool n { p with ledger := p.ledger.setConnection id d } := by
        rw [setConnection_of_episode (s := { s with engine := e }) ho hid, setLeased,
          show pool? { s with engine := e } n = _ from hp]
      have hpooled : ({ s with engine := e }.putPool n
          { p with ledger := p.ledger.setConnection id d }).pooled =
            (p.ledger.setConnection id d).conns + s.pooledBeside n := pooled_putPool hp _
      rw [hset, estate, hpooled, Ledger.conns_setConnection hnodup hfound]
      have hrest : (s.population + spare).bind Object.connections +
          (d ::ₘ (p.ledger.finish id).conns + s.pooledBeside n) =
            d ::ₘ (s.population.bind Object.connections + s.pooledBeside n +
              (p.ledger.finish id).conns + spare.bind Object.connections) := by
        simp only [Multiset.add_bind, ← Multiset.singleton_add]
        abel
      exact congrArg (Estate.mk · (s.estate spare).out e) hrest

theorem mem_beside_of_connection? (hp : s.pool? n = some p) (hc : s.connection? name = some c) :
    c ∈ s.population.bind Object.connections +
      (Episode.conns p.ledger.episodes + s.pooledBeside n) := by
  simp only [Multiset.mem_add]
  obtain ho | ⟨o, m, id, e, ho, hid, he, rfl⟩ := connection?_cases hc
  · exact .inl (Multiset.mem_bind.mpr ⟨_, mem_of_object? ho, Multiset.mem_singleton_self c⟩)
  · obtain ⟨q, hq, hfound⟩ := Option.bind_eq_some_iff.mp he
    have hmem : e.member.conn ∈ Episode.conns q.ledger.episodes :=
      List.mem_map_of_mem (f := fun e : Episode Connection => e.member.conn)
        (List.mem_of_find?_eq_some hfound)
    by_cases hm : m = n
    · subst hm
      obtain rfl := Option.some.inj (hp.symm.trans hq)
      exact .inr (.inl hmem)
    · exact .inr (.inr (mem_pooledBeside hq hm (Multiset.mem_add.mpr (.inr hmem))))

theorem mem_of_connection? (hbooks : ∀ m ∈ s.pools, m.2.ledger.InOrder)
    (hc : s.connection? name = some c) (spare : Multiset Object) :
    c ∈ (s.estate spare).connections := by
  obtain ⟨C, hC⟩ := estate_setConnection hbooks hc
  rw [(hC spare).1]
  exact Multiset.mem_cons_self c _

end Session

end ConnectionPool

import ConnectionPool.Proofs.Estate.Run
import Mathlib.Data.Finset.Card
import Mathlib.Order.Interval.Finset.Nat

/-!
# Conservation of connections

In every state of a careful session, the engine's counts tell how many open connections are owned:
none leaks, and none is closed twice or before its statements are finalized. Nothing stays open once
all objects are dropped.
-/

namespace ConnectionPool.Session

variable {b : Estate} {s t u : Session} {name : String} {spare : Multiset Object} {c d : Connection}
  {k : Checkout} {n id : Nat} {e : Engine}

/-- One thing that happens in a careful session: a step, the start or the end of waiting, or the end
of all objects. -/
inductive Proceeds : Session → Session → Prop
  | perform {s : Session} (step : Step) : s.Allows step → Proceeds s (s.perform step).2
  | await (s : Session) (n : Nat) : Proceeds s (s.await n)
  | answer {s : Session} (n arrival : Nat) (manner : Manner) (names : List String) :
      s.YieldsTo n arrival manner names →
      Proceeds s ((s.answerCallers n arrival manner names).2.unawait n)
  | dropAll {s : Session} : (∀ raw, .raw raw ∈ s.population → raw.isOpen = false) →
      Proceeds s s.dropAll

/-- Whether one session may come later than another, or is the same. -/
def Later (s t : Session) : Prop := Relation.ReflTransGen Proceeds s t

theorem Settled.proceeds (h : s.Settled b 0) (hp : Proceeds s t) : t.Settled b 0 := by
  cases hp with
  | perform step hcare => exact h.perform step hcare
  | await n => exact h.await n
  | answer n arrival manner names hnames =>
    exact (h.answerCallers n arrival manner names hnames).unawait n
  | dropAll hshut => exact (h.dropAll hshut).1

theorem Settled.later (h : s.Settled b 0) (hl : s.Later t) : t.Settled b 0 := by
  induction hl with
  | refl => exact h
  | tail _ hlast ih => exact ih.proceeds hlast

theorem Settled.rebase (h : s.Settled b spare) : s.Settled (s.estate spare) spare :=
  ⟨h.sound, .refl _, h.ordered⟩

theorem settled_start : Settled (estate {} 0) {} 0 where
  base := ⟨Multiset.nodup_zero, fun _ hc => absurd hc (Multiset.notMem_zero _), rfl, rfl, rfl,
    fun _ hc => absurd hc (Multiset.notMem_zero _), fun _ ht => absurd ht (Multiset.notMem_zero _)⟩
  moves := .refl _
  ordered := ⟨fun _ _ hm => absurd hm (Multiset.notMem_zero _), fun _ _ => rfl,
    List.forall_mem_nil _, List.forall_mem_nil _, List.nodup_nil, List.nodup_nil,
    List.forall_mem_nil _⟩

theorem Later.performAll {steps : List Step} (h : s.AllowsAll steps) :
    s.Later (s.performAll steps).2 := by
  induction steps generalizing s with
  | nil =>
    rw [Session.performAll]
    exact .refl
  | cons step steps ih =>
    rw [AllowsAll] at h
    rw [Session.performAll]
    exact .head (.perform step h.1) (ih h.2)

/-- The connections that somebody owns: raw ones and others under names, and those of pools, idle or
out. -/
def held (s : Session) : Multiset Connection := s.population.bind Object.connections + s.pooled

/-- Whether somebody owns a connection that is open. -/
def HasOpen (s : Session) (id : ConnectionId) : Prop := ∃ c ∈ s.held, c.id = id ∧ c.isOpen = true

instance (s : Session) (id : ConnectionId) : Decidable (s.HasOpen id) :=
  Multiset.decidableExistsMultiset

theorem estate_zero (s : Session) :
    s.estate 0 = ⟨s.held, s.population.bind Object.out, s.engine⟩ := by
  rw [estate, add_zero]
  rfl

/-- Whether a connection may end now: it has a name of its own, it is idle, or it is out with one
handle. None of its statements is checked out. -/
inductive MayEnd (s : Session) : Connection → Prop
  | named {name : String} {c : Connection} : s.object? name = some (.connection c) →
      s.isBorrowed name = false → MayEnd s c
  | idle {n : Nat} {p : ManagedPool} {m : Member Connection} : s.pool? n = some p →
      m ∈ p.ledger.pool.idle → MayEnd s m.conn
  | leased {name : String} {o : Object} {n id : Nat} {e : Episode Connection} :
      s.object? name = some o → o.episode? = some (n, id) → s.episodeOf? n id = some e →
      e.handles = 1 → s.isBorrowed name = false → MayEnd s e.member.conn

/-- Whether a statement is prepared on a connection that a name stands for, and to what session this
leads. It goes to the caller, or it is run and taken back at once. -/
inductive Prepares (s : Session) (c : Connection) (k : Checkout) : Session → Prop
  | prepare {connection name sql : String} {d : Connection} {e : Engine} :
      s.connection? connection = some c → s.object? name = none →
      c.prepare sql s.engine = (.ok k, d, e) → Prepares s c k (s.prepare connection name sql).2
  | execute {connection sql : String} {d : Connection} {e : Engine} :
      s.connection? connection = some c → c.prepare sql s.engine = (.ok k, d, e) →
      Prepares s c k (s.execute connection sql).2

namespace Settled

theorem held_nodup (h : s.Settled b 0) : (s.held.map Connection.id).Nodup := by
  have hnodup := h.sound.ids_nodup
  rwa [estate_zero] at hnodup

theorem mem_held (h : s.Settled b 0) (hc : s.connection? name = some c) : c ∈ s.held := by
  have hmem := mem_of_connection? h.ordered.books hc 0
  rwa [estate_zero] at hmem

/-- No statement is checked out of a connection without which all statements find theirs. -/
theorem ne_of_beside (h : s.Settled b 0) (ht : t.Ordered spare) (hheld : s.held = c ::ₘ t.held)
    {tag : StatementId × ConnectionId} (htag : tag ∈ (t.estate spare).out) : tag.2 ≠ c.id := by
  intro heq
  obtain ⟨source, d, hd, hid⟩ := ht.connection_of_out htag
  have hmem := mem_of_connection? ht.books hd 0
  have hnodup := h.held_nodup
  rw [hheld, Multiset.map_cons, Multiset.nodup_cons] at hnodup
  rw [estate_zero] at hmem
  exact hnodup.1 (Multiset.mem_map.mpr ⟨d, hmem, hid.trans heq⟩)

theorem unlent (h : s.Settled b 0) (hc : s.MayEnd c) {tag : StatementId × ConnectionId}
    (htag : tag ∈ (s.estate 0).out) : tag.2 ≠ c.id := by
  cases hc with
  | @named name _ ho hfree =>
    have hremove := h.ordered.remove ho (by
      rw [add_zero]
      exact not_mem_of_unborrowed hfree)
    refine h.ne_of_beside hremove ?_ ?_
    · simp only [held, population_remove ho, Multiset.cons_bind, Object.connections,
        Multiset.singleton_add, Multiset.cons_add]
      rfl
    · rw [estate_zero, population_remove ho] at htag
      simp only [Multiset.cons_bind, Object.out, zero_add] at htag
      simp only [estate, Multiset.add_bind, Multiset.cons_bind, Multiset.zero_bind, Object.out,
        add_zero]
      exact htag
  | @idle n p m hp hm =>
    intro heq
    obtain ⟨d, hd, hid⟩ := h.lent_beside hp htag
    have hnodup := h.held_nodup
    have hheld : s.held = Member.conns p.ledger.pool.idle +
        (s.population.bind Object.connections +
          (Episode.conns p.ledger.episodes + s.pooledBeside n)) := by
      rw [held, pooled_eq hp, Ledger.conns, Pool.conns]
      abel
    rw [hheld, Multiset.map_add, Multiset.nodup_add] at hnodup
    have hidle : m.conn ∈ Member.conns p.ledger.pool.idle := List.mem_map_of_mem hm
    exact Multiset.disjoint_left.mp hnodup.2.2 (Multiset.mem_map_of_mem _ hidle)
      (Multiset.mem_map.mpr ⟨d, hd, hid.trans heq⟩)
  | @leased name o n id e ho hid he hone hfree =>
    obtain ⟨p, hp, hfound⟩ := Option.bind_eq_some_iff.mp he
    have hremove := h.ordered.remove ho (by
      rw [add_zero]
      exact not_mem_of_unborrowed hfree)
    obtain ⟨after, hd⟩ : ∃ after, p.ledger.detach? id = some (e.member.conn, after) :=
      ⟨_, Ledger.detach?_eq_some.mpr ⟨e, hfound, hone, rfl, rfl⟩⟩
    have hnothing := Object.hold_of_episode hid
    have hpooled := pooled_putPool (s := s.remove name) hp { p with ledger := after }
    have hbeside : (s.remove name).pooledBeside n = s.pooledBeside n := rfl
    refine h.ne_of_beside (hremove.detach hid hp hd) ?_ ?_
    · rw [held, held, hpooled, hbeside, pooled_eq hp, Ledger.conns_detach hd, population_remove ho,
        Multiset.cons_bind, hnothing.1, zero_add, Multiset.cons_add, Multiset.add_cons]
      rfl
    · rw [estate_zero, population_remove ho] at htag
      simp only [Multiset.cons_bind, hnothing.2, zero_add] at htag
      simp only [estate, Multiset.add_bind, Multiset.cons_bind, Multiset.zero_bind, Object.out,
        add_zero]
      exact htag

theorem mem_setConnection (h : s.Settled b 0) (hc : s.connection? name = some c) (d : Connection)
    (e : Engine) : d ∈ (({ s with engine := e }.setConnection name d).estate 0).connections := by
  obtain ⟨C, hC⟩ := estate_setConnection h.ordered.books hc
  rw [(hC 0).2 d e]
  exact Multiset.mem_cons_self d _

theorem holds_prepared (h : s.Settled b 0) (hp : s.Prepares c k t) :
    (t.estate 0).Holds c.id k.statement.id ∨ k.statement.id ∈ t.engine.finalized := by
  have hown (name : String) (hc : s.connection? name = some c) :
      ∀ t ∈ c.cache.statements ++ [], t.owner = c.id := by
    intro t ht
    rw [List.append_nil] at ht
    exact h.sound.own c (mem_of_connection? h.ordered.books hc 0) t ht
  cases hp with
  | @prepare connection name sql d e hc hnew hp =>
    have howner : k.statement.owner = c.id :=
      (Connection.serves_prepare hp).own (hown connection hc) _
        (List.mem_append_right _ List.mem_cons_self)
    have hfree : s.inUse name = false := by simp [inUse, hnew]
    have hafter : (s.prepare connection name sql).2 =
        ({ s with engine := e }.setConnection connection d).put name (.statement k connection) := by
      simp [Session.prepare, hfree, hc, hp]
    have hnew' := object?_setConnection (s := { s with engine := e }) hnew connection d
    refine .inl (.inl ?_)
    rw [hafter, estate_zero, population_put_new hnew', Multiset.cons_bind, ← howner]
    exact Multiset.mem_add.mpr (.inl (Multiset.mem_singleton_self _))
  | @execute connection sql d f hc hp =>
    have hafter : (s.execute connection sql).2 = { s with
        engine := (c.execute sql s.engine).2.2 }.setConnection connection
          (c.execute sql s.engine).2.1 := by
      simp only [Session.execute, hc]
    have hrun : d.Serves [k.statement] f (c.execute sql s.engine).2.1 []
        (c.execute sql s.engine).2.2 := by
      have hserves := (d.serves_run f k.statement).trans
        (d.serves_recycle { k with statement := (f.run k.statement).2.1 } _)
      simpa only [Connection.execute, hp] using hserves
    have hid : (c.execute sql s.engine).2.1.id = c.id := (c.serves_execute sql s.engine).id
    rw [hafter]
    obtain hkept | hcalled | hfinal := hrun.accounts (.inr (.inl List.mem_cons_self))
    · exact .inl (.inr ⟨_, h.mem_setConnection hc _ _, hid, hkept⟩)
    · cases hcalled
    · refine .inr ?_
      obtain ⟨C, hC⟩ := estate_setConnection h.ordered.books hc
      have hengine : ({ s with engine := (c.execute sql s.engine).2.2 }.setConnection connection
          (c.execute sql s.engine).2.1).engine = (c.execute sql s.engine).2.2 :=
        congrArg Estate.engine ((hC 0).2 _ _)
      rw [hengine]
      exact hfinal

theorem prepares (h : s.Settled b 0) (hp : s.Prepares c k t) : t.Settled b 0 := by
  cases hp with
  | prepare => exact h.prepare _ _ _
  | execute => exact h.execute _ _

/-- What becomes of a statement: it is finalized, checked out, or kept by its connection. -/
theorem holds_later (h : s.Settled b 0) (hp : s.Prepares c k t) (hl : t.Later u) :
    (u.estate 0).Holds c.id k.statement.id ∨ k.statement.id ∈ u.engine.finalized := by
  have hleads := ((h.prepares hp).rebase.later hl).leads
  cases h.holds_prepared hp with
  | inl hholds => exact hleads.holds _ _ hholds
  | inr hfinal => exact .inr (hleads.finalized hfinal)

theorem finalized_of_gone (h : s.Settled b 0) (hp : s.Prepares c k t) (hl : t.Later u)
    (hgone : ∀ d ∈ u.held, d.id ≠ c.id) : k.statement.id ∈ u.engine.finalized := by
  have hu := (h.prepares hp).later hl
  obtain (hout | ⟨d, hd, hid, -⟩) | hfinal := h.holds_later hp hl
  · obtain ⟨source, d, hd, hid⟩ := hu.ordered.connection_of_out hout
    exact absurd hid (hgone d (hu.mem_held hd))
  · rw [estate_zero] at hd
    exact absurd hid (hgone d hd)
  · exact hfinal

theorem finalized_of_mayEnd (h : s.Settled b 0) (hp : s.Prepares c k t) (hl : t.Later u)
    (hd : d ∈ u.held) (hid : d.id = c.id) (hend : u.MayEnd d)
    (he : u.engine.finalized ⊆ e.finalized) :
    k.statement.id ∈ (d.clearCache e).2.finalized := by
  have hu := (h.prepares hp).later hl
  have hsub := (e.calm_finalizeAll d.cache.statements).finalized
  obtain (hout | ⟨d', hd', hid', hkept⟩) | hfinal := h.holds_later hp hl
  · exact absurd hid.symm (hu.unlent hend hout)
  · rw [← hid] at hid'
    have hmem : d ∈ (u.estate 0).connections := by
      rw [estate_zero]
      exact hd
    obtain rfl := hu.sound.eq_of_id hd' hmem hid'
    exact d'.mem_clearCache e hkept
  · exact hsub (he hfinal)

theorem balance (h : s.Settled b 0) :
    s.engine.counters.closed + s.held.countP (fun c => c.isOpen = true) =
      s.engine.counters.opened := by
  have hbalance := h.sound.balance
  have hsum (C : Multiset Connection) :
      (C.map fun c => c.isOpen.toNat).sum = C.countP fun c => c.isOpen = true := by
    induction C using Multiset.induction with
    | empty => rfl
    | cons c C ih =>
      rw [Multiset.map_cons, Multiset.sum_cons, ih]
      cases hopen : c.isOpen with
      | true => rw [Multiset.countP_cons_of_pos C hopen, Bool.toNat_true, add_comm]
      | false => rw [Multiset.countP_cons_of_neg C (by simp [hopen]), Bool.toNat_false, zero_add]
  rw [hsum, estate_zero] at hbalance
  exact hbalance

theorem numbered (h : s.Settled b 0) (hc : c ∈ s.held) :
    c.id.number ∈ Finset.Icc 1 s.engine.counters.opened := by
  have hnumbered := h.sound.numbered c (by
    rw [estate_zero]
    exact hc)
  have hopened := h.sound.opened
  rw [estate_zero] at hnumbered hopened
  rw [hopened]
  exact Finset.mem_Icc.mpr hnumbered

/-- The connections that were closed are those that were opened and are open no more. -/
theorem closed_eq (h : s.Settled b 0) : s.engine.counters.closed =
    ((Finset.Icc 1 s.engine.counters.opened).filter fun i => ¬ s.HasOpen ⟨i⟩).card := by
  have hcount : ((Finset.Icc 1 s.engine.counters.opened).filter fun i => s.HasOpen ⟨i⟩).card =
      s.held.countP fun c => c.isOpen = true := by
    have hids : ((s.held.filter fun c => c.isOpen = true).map Connection.id).Nodup :=
      Multiset.nodup_of_le (Multiset.map_le_map (Multiset.filter_le _ _)) h.held_nodup
    have hnumbers := hids.map (f := ConnectionId.number) fun _ _ heq => congrArg ConnectionId.mk heq
    have hsame : (Finset.Icc 1 s.engine.counters.opened).filter (fun i => s.HasOpen ⟨i⟩) =
        ⟨_, hnumbers⟩ := by
      ext i
      simp only [Finset.mem_filter, Finset.mem_mk, Multiset.mem_map, Multiset.mem_filter]
      constructor
      · rintro ⟨-, c, hc, hid, hopen⟩
        exact ⟨_, ⟨c, ⟨hc, hopen⟩, hid⟩, rfl⟩
      · rintro ⟨_, ⟨c, ⟨hc, hopen⟩, rfl⟩, rfl⟩
        exact ⟨h.numbered hc, c, hc, rfl, hopen⟩
    rw [hsame, Multiset.countP_eq_card_filter]
    simp only [Finset.card_mk, Multiset.card_map]
  have hsplit := Finset.card_filter_add_card_filter_not (s := Finset.Icc 1
    s.engine.counters.opened) fun i => s.HasOpen ⟨i⟩
  rw [hcount, Nat.card_Icc, Nat.add_sub_cancel] at hsplit
  have hbalance := h.balance
  omega

theorem closed_later (h : s.Settled b 0) (hl : s.Later t) {id : ConnectionId}
    (hid : id.number ≤ s.engine.counters.opened) (hclosed : ¬ s.HasOpen id) :
    ¬ t.HasOpen id := by
  rintro ⟨d, hd, rfl, hopen⟩
  have hleads := (h.rebase.later hl).leads
  have hopened := h.sound.opened
  rw [estate_zero, estate_zero] at hleads
  rw [estate_zero] at hopened
  obtain ⟨c, hc, hid', hcopen⟩ := hleads.opened d hd hopen (hopened ▸ hid)
  exact hclosed ⟨c, hc, hid', hcopen⟩

/-- Nothing is left of a session without objects on which nobody waits. -/
theorem nothing_left (h : s.Settled b 0) (hobjects : s.objects = []) (hawaited : s.awaited = []) :
    s.pools = [] ∧ s.engine.counters.closed = s.engine.counters.opened := by
  have hpopulation : s.population = 0 := by
    rw [population, hobjects]
    rfl
  have hpools : s.pools = [] := by
    apply List.eq_nil_iff_forall_not_mem.mpr
    rintro ⟨n, p⟩ hm
    have hp := pool?_of_mem h.ordered.keys_nodup hm
    obtain hwait | hnamed | hout := h.ordered.alive _ hm
    · rw [hawaited] at hwait
      cases hwait
    · rw [hpopulation, add_zero] at hnamed
      exact absurd hnamed (Multiset.notMem_zero _)
    · obtain ⟨id, hid⟩ := List.exists_mem_of_ne_nil _ hout
      have hmanned := (h.ordered.regular _ hm).manned id hid
      have hcounted := h.ordered.counted n id
      rw [hpopulation, handleCount, hp, add_zero, Object.handlesIn_zero] at hcounted
      exact absurd hcounted hmanned.ne'
  have hheld : s.held = 0 := by
    rw [held, hpopulation, pooled, hpools]
    rfl
  have hbalance := h.balance
  rw [hheld, Multiset.countP_zero, add_zero] at hbalance
  exact ⟨hpools, hbalance⟩

end Settled

theorem awaited_sweepPool (s : Session) (n : Nat) : (s.sweepPool n).awaited = s.awaited := by
  unfold sweepPool
  split
  · rfl
  · cases s.pool? n <;> rfl

theorem awaited_setConnection (s : Session) (name : String) (c : Connection) :
    (s.setConnection name c).awaited = s.awaited := by
  have hleased (n id : Nat) : (s.setLeased n id c).awaited = s.awaited := by
    rw [setLeased]
    cases s.pool? n <;> rfl
  unfold setConnection
  split
  · rfl
  · exact hleased ..
  · exact hleased ..
  · rfl

theorem awaited_discard (s : Session) (o : Object) : (s.discard o).awaited = s.awaited := by
  have hdrop (n id : Nat) : (s.dropHandle n id).awaited = s.awaited := by
    rw [dropHandle]
    cases s.pool? n with
    | none => rfl
    | some p => exact awaited_sweepPool _ n
  cases o with
  | statement k source =>
    simp only [discard, recycle]
    split
    · exact awaited_setConnection ..
    · rfl
  | pool n => exact awaited_sweepPool s n
  | lease n id => exact hdrop n id
  | shared n id => exact hdrop n id
  | _ => rfl

theorem awaited_dropAll (s : Session) : s.dropAll.awaited = s.awaited := by
  have hone (s : Session) (name : String) : (s.dropNamed name).awaited = s.awaited := by
    rw [dropNamed]
    cases s.object? name with
    | none => rfl
    | some o => exact awaited_discard _ o
  have hfold (names : List String) (s : Session) :
      (names.foldl dropNamed s).awaited = s.awaited := by
    induction names generalizing s with
    | nil => rfl
    | cons name names ih => exact (ih (s.dropNamed name)).trans (hone s name)
  exact hfold s.namesForDrop s

/-- Whether the connections of a session are accounted for, now and from now on. -/
structure Accounted (s : Session) : Prop where
  /-- What was opened and not closed is open and has an owner. -/
  balance : s.engine.counters.closed + s.held.countP (fun c => c.isOpen = true) =
    s.engine.counters.opened
  held_once : (s.held.map Connection.id).Nodup
  closed_once : s.engine.counters.closed =
    ((Finset.Icc 1 s.engine.counters.opened).filter fun i => ¬ s.HasOpen ⟨i⟩).card
  closed_for_good : ∀ t, s.Later t → ∀ id : ConnectionId,
    id.number ≤ s.engine.counters.opened → ¬ s.HasOpen id → ¬ t.HasOpen id
  /-- Once a connection is gone, every statement that was prepared on it is finalized. Whenever it
  may end, the end finalizes what is left of them before the driver is asked to close it. -/
  finalized_first : ∀ c k t u, s.Prepares c k t → t.Later u →
    ((∀ d ∈ u.held, d.id ≠ c.id) → k.statement.id ∈ u.engine.finalized) ∧
      ∀ d ∈ u.held, d.id = c.id → u.MayEnd d → ∀ e, u.engine.finalized ⊆ e.finalized →
        k.statement.id ∈ (d.clearCache e).2.finalized ∧
          (d.shutdown e).2.2 = if d.isOpen then ((d.clearCache e).2.close d.raw).2.2
            else (d.clearCache e).2
  /-- When all is dropped, nothing is open. -/
  dropped : s.objects = [] → s.awaited = [] →
    s.pools = [] ∧ s.engine.counters.closed = s.engine.counters.opened
  dropAll : s.awaited = [] → (∀ raw, .raw raw ∈ s.population → raw.isOpen = false) →
    s.dropAll.objects = [] ∧
      s.dropAll.engine.counters.closed = s.dropAll.engine.counters.opened

/-- No state of a careful session loses a connection. -/
theorem connections_conserved (h : Later {} s) : s.Accounted := by
  have hs := settled_start.later h
  refine ⟨hs.balance, hs.held_nodup, hs.closed_eq, ?_, ?_, hs.nothing_left, ?_⟩
  · exact fun t hl id hid hclosed => hs.closed_later hl hid hclosed
  · intro c k t u hp hl
    refine ⟨hs.finalized_of_gone hp hl, fun d hd hid hend e he => ?_⟩
    exact ⟨hs.finalized_of_mayEnd hp hl hd hid hend he, d.shutdown_engine e⟩
  · intro hawaited hshut
    obtain ⟨hend, hobjects⟩ := hs.dropAll hshut
    exact ⟨hobjects, (hend.nothing_left hobjects ((awaited_dropAll s).trans hawaited)).2⟩

def isOpenRaw : Object → Bool
  | .raw raw => raw.isOpen
  | _ => false

/-- A lease outlives the last handle to its pool, which was closed; its connection is closed early.
The one that was wrapped is all that is open, until everything is dropped. -/
theorem connections_conserved_closing :
    let steps : List Step := [.openRaw "raw" ":memory:" .openOrCreate, .wrap "raw" "wrapped" {},
      .prepare "wrapped" "query" "SELECT 1",
      .buildPool "pool" { minConnections := 2 } (some []) ":memory:" {},
      .acquire "pool" "lease" .plain, .share "lease" "alias", .closeRaw "alias",
      .closePool "pool", .drop "pool", .execute "wrapped" "SELECT 2"]
    let s := (performAll {} steps).2
    Later {} s ∧ s.engine.counters.opened = 3 ∧
      s.held.countP (fun c => c.isOpen = true) = 1 ∧ s.engine.counters.closed = 2 ∧
      s.dropAll.engine.counters.closed = s.dropAll.engine.counters.opened := by
  intro steps s
  have hdrop {s : Session} {name : String} {n : Nat} (ho : s.object? name = some (.pool n)) :
      s.Allows (.drop name) := by
    intro raw hraw
    rw [ho] at hraw
    cases hraw
  have hcare : AllowsAll {} steps :=
    ⟨trivial, rfl, trivial, rfl, trivial, trivial, trivial, trivial,
      hdrop (n := 0) (by decide +kernel), trivial, trivial⟩
  have hs : Later {} s := .performAll hcare
  have hall := connections_conserved hs
  have hopened : s.engine.counters.opened = 3 := by decide +kernel
  have hopen : s.held.countP (fun c => c.isOpen = true) = 1 := by decide +kernel
  have hbalance := hall.balance
  have hraws : ∀ x ∈ s.objects, isOpenRaw x.2 = false := by decide +kernel
  refine ⟨hs, hopened, hopen, by omega, (hall.dropAll (by decide +kernel) ?_).2⟩
  intro raw hraw
  obtain ⟨name, hx⟩ := mem_population.mp hraw
  exact hraws _ hx

/-- Where there can be no room for its cache, a connection that was opened is lost. -/
theorem connection_lost_for_want_of_room :
    let settings : ConnectionSettings := { statementCache := { capacity := 7 * 2 ^ 55 + 1 } }
    let s := (performAll {} [.connect "connection" ":memory:" settings]).2
    s.Reachable ∧ s.engine.faults.closes = 0 ∧ s.objects = [] ∧ s.awaited = [] ∧
      s.engine.counters.opened = 1 ∧ s.engine.counters.closed = 0 ∧
      s.held.countP (fun c => c.isOpen = true) = 0 :=
  ⟨Reachable.start.performAll _, by decide +kernel⟩

end ConnectionPool.Session

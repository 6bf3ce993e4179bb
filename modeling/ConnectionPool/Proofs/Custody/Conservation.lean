import ConnectionPool.Proofs.Custody.PoolSteps

/-!
# Conservation of statements

Whatever is done in a session, each statement ever prepared is in one place: in a handle, checked
out, in a cache, or finalized. So the engine counts exactly the statements that are still owned.
-/

namespace ConnectionPool

/-- The statements in the hands of an object: one in a handle or checked out, one for each entry
of a cache. -/
def Object.ids : Object → List StatementId
  | .handle t => [t.id]
  | .statement k _ => [k.statement.id]
  | .cache c => c.ids
  | .connection c => c.cache.ids
  | _ => []

/-- The statements in the caches of a pool's connections, idle or out. -/
def ManagedPool.ids (p : ManagedPool) : List StatementId :=
  p.ledger.pool.idle.flatMap (fun m => m.conn.cache.ids) ++
    p.ledger.episodes.flatMap fun e => e.member.conn.cache.ids

/-- The statements that somebody owns, each as often as it is owned. -/
def Session.owned (s : Session) : List StatementId :=
  s.objects.flatMap (fun x => x.2.ids) ++ s.pools.flatMap fun x => x.2.ids

/-- Every statement that an engine ever prepared. -/
def Engine.preparedIds (e : Engine) : List StatementId :=
  (List.range e.lastStatement).map fun n => ⟨n + 1⟩

theorem Engine.nodup_preparedIds (e : Engine) : e.preparedIds.Nodup := by
  apply List.nodup_range.map
  intro m n h
  exact Nat.succ.inj (StatementId.mk.inj h)

theorem Engine.mem_preparedIds (e : Engine) (id : StatementId) :
    id ∈ e.preparedIds ↔ 0 < id.number ∧ id.number ≤ e.lastStatement := by
  rw [preparedIds, List.mem_map]
  constructor
  · rintro ⟨n, hn, rfl⟩
    have hlt := List.mem_range.mp hn
    exact ⟨Nat.succ_pos n, hlt⟩
  · rintro ⟨hpos, hle⟩
    refine ⟨id.number - 1, List.mem_range.mpr (by omega), ?_⟩
    exact congrArg StatementId.mk (Nat.sub_add_cancel hpos)

theorem Engine.issued_eq_one (e : Engine) (id : StatementId) :
    e.issued id = 1 ↔ id ∈ e.preparedIds := by
  rw [mem_preparedIds, issued]
  split <;> simp_all

def Charge.ofIds (l : List StatementId) : Charge := (fun id => (l.count id : ℤ), 0, 0)

namespace Charge

theorem ofIds_append (l l' : List StatementId) : ofIds (l ++ l') = ofIds l + ofIds l' := by
  refine Prod.ext ?_ rfl
  funext id
  simp [ofIds]

theorem ofIds_flatMap {β : Type} (l : List β) (f : β → List StatementId) :
    ofIds (l.flatMap f) = (l.map fun b => ofIds (f b)).sum := by
  induction l with
  | nil => rfl
  | cons b l ih => rw [List.flatMap_cons, ofIds_append, ih, List.map_cons, List.sum_cons]

theorem ofIds_cache (c : StatementCache) : ofIds c.ids = c.charge :=
  (Statement.chargeAll_eq c.statements).symm

theorem ofIds_object (o : Object) : ofIds o.ids = o.charge := by
  have hone (t : Statement) : ofIds [t.id] = t.charge := by
    have hall := Statement.chargeAll_eq [t]
    exact hall.symm.trans (add_zero t.charge)
  cases o with
  | handle t => exact hone t
  | statement k source => exact hone k.statement
  | cache c => exact ofIds_cache c
  | connection c => exact ofIds_cache c.cache
  | _ => rfl

theorem ofIds_pool (p : ManagedPool) : ofIds p.ids = p.charge := by
  have hidle : (p.ledger.pool.idle.map fun m => ofIds m.conn.cache.ids) =
      p.ledger.pool.idle.map Member.charge :=
    List.map_congr_left fun m _ => ofIds_cache m.conn.cache
  have hout : (p.ledger.episodes.map fun e => ofIds e.member.conn.cache.ids) =
      p.ledger.episodes.map Episode.charge :=
    List.map_congr_left fun e _ => ofIds_cache e.member.conn.cache
  rw [ManagedPool.ids, ofIds_append, ofIds_flatMap, ofIds_flatMap, hidle, hout]
  rfl

theorem ofIds_owned (s : Session) : ofIds s.owned + s.engine.charge = s.charge := by
  have hobjects : (s.objects.map fun x => ofIds x.2.ids) = s.objects.map fun x => x.2.charge :=
    List.map_congr_left fun x _ => ofIds_object x.2
  have hpools : (s.pools.map fun x => ofIds x.2.ids) = s.pools.map fun x => x.2.charge :=
    List.map_congr_left fun x _ => ofIds_pool x.2
  rw [Session.owned, ofIds_append, ofIds_flatMap, ofIds_flatMap, hobjects, hpools]
  rfl

end Charge

namespace Session

variable {s : Session} {x : Charge}

namespace Tallies

theorem drop (h : s.Tallies x) (name : String) : (s.drop name).2.Tallies x := by
  unfold Session.drop
  split
  · exact h
  · split
    · exact h
    · exact h.dropNamed name

theorem describe (h : s.Tallies x) (name : String) : (s.describe name).2.Tallies x := by
  unfold Session.describe
  cases s.description? name <;> exact h

theorem setFaults (h : s.Tallies x) (change : Faults → Faults) :
    (s.setFaults change).2.Tallies x :=
  h.sameEngine (Engine.charge_congr rfl rfl rfl rfl)

mutual

/-- No step loses a statement or makes one up. -/
theorem perform {s : Session} (h : s.Tallies x) (step : Step) : (s.perform step).2.Tallies x := by
  cases step with
  | failOpens n | failCloses n | failSteps n | grantRows n =>
    rw [Session.perform]
    exact h.setFaults _
  | createDatabase target =>
    rw [Session.perform]
    exact h.sameEngine (Engine.charge_congr rfl rfl rfl rfl)
  | delay | isFinalized id | malformed =>
    rw [Session.perform]
    exact h
  | pass nanos =>
    rw [Session.perform]
    exact ⟨h.charge, h.inOrder, h.numbered⟩
  | openRaw name target mode =>
    rw [Session.perform]
    exact h.openRaw name target mode
  | prepareRaw raw name sql =>
    rw [Session.perform]
    exact h.prepareRaw raw name sql
  | closeRaw raw =>
    rw [Session.perform]
    exact h.closeRaw raw
  | advance statement =>
    rw [Session.perform]
    exact h.advance statement
  | bind statement value | reset statement | clearBindings statement | rewind statement =>
    rw [Session.perform]
    exact h.changeStatement statement fun _ => rfl
  | finalize statement =>
    rw [Session.perform]
    exact h.finalize statement
  | newCache name settings =>
    rw [Session.perform]
    exact h.newCache name settings
  | takeCached cache name sql owner =>
    rw [Session.perform]
    exact h.takeCached cache name sql owner
  | storeCached cache sql statement =>
    rw [Session.perform]
    exact h.storeCached cache sql statement
  | clearCached cache =>
    rw [Session.perform]
    exact h.clearCached cache
  | reconfigureCached cache settings =>
    rw [Session.perform]
    exact h.reconfigureCached cache settings
  | isCached cache sql =>
    rw [Session.perform, Session.isCached]
    cases s.cache? cache <;> exact h
  | connect name target settings =>
    rw [Session.perform]
    exact h.connect name target settings
  | wrap raw name settings =>
    rw [Session.perform]
    exact h.wrap raw name settings
  | prepare connection name sql =>
    rw [Session.perform]
    exact h.prepare connection name sql
  | execute connection sql =>
    rw [Session.perform]
    exact h.execute connection sql
  | configure connection settings =>
    rw [Session.perform]
    exact h.configure connection settings
  | clearCache connection =>
    rw [Session.perform]
    exact h.clearCache connection
  | close connection =>
    rw [Session.perform]
    exact h.close connection
  | buildPool name settings script target connections =>
    rw [Session.perform]
    exact h.buildPool name settings script target connections
  | acquire pool name manner =>
    rw [Session.perform]
    exact h.acquire pool name manner
  | tryAcquire pool name =>
    rw [Session.perform]
    exact h.tryAcquire pool name
  | closePool pool =>
    rw [Session.perform]
    exact h.closePool pool
  | clonePool pool name =>
    rw [Session.perform]
    exact h.clonePool pool name
  | poolSettings pool =>
    rw [Session.perform]
    exact h.poolSettings pool
  | wait pool names manner meanwhile =>
    rw [Session.perform]
    split
    · exact h
    · cases s.poolNamed? pool with
      | none => exact h
      | some found =>
        have hmeanwhile := (h.await found.1).performAll meanwhile
        exact (hmeanwhile.answerCallers found.1 s.now manner names).unawait found.1
  | cancel pool handle =>
    rw [Session.perform]
    exact h.cancel pool handle
  | share lease name =>
    rw [Session.perform]
    exact h.share lease name
  | cloneShared shared name =>
    rw [Session.perform]
    exact h.cloneShared shared name
  | intoShared lease name =>
    rw [Session.perform]
    exact h.intoShared lease name
  | exclusive lease =>
    rw [Session.perform]
    exact h.exclusive lease
  | detach lease name =>
    rw [Session.perform]
    exact h.detach lease name
  | drop name =>
    rw [Session.perform]
    exact h.drop name
  | describe name =>
    rw [Session.perform]
    exact h.describe name

theorem performAll {s : Session} (h : s.Tallies x) (steps : List Step) :
    (s.performAll steps).2.Tallies x := by
  cases steps with
  | nil =>
    rw [Session.performAll]
    exact h
  | cons step steps =>
    rw [Session.performAll]
    exact (h.perform step).performAll steps

end

/-- Where a session comes to nothing, owners and finalized statements make up for those
prepared. -/
theorem perm_preparedIds (h : s.Tallies 0) :
    (s.owned ++ s.engine.finalized).Perm s.engine.preparedIds := by
  have hcharge := (Charge.ofIds_owned s).trans h.charge
  apply List.perm_iff_count.mpr
  intro id
  have hid := congrFun (congrArg Prod.fst hcharge) id
  simp only [Charge.ofIds, Engine.charge, Prod.fst_add, Pi.add_apply, Prod.fst_zero,
    Pi.zero_apply] at hid
  have hissued : s.engine.preparedIds.count id = s.engine.issued id := by
    rw [s.engine.nodup_preparedIds.count]
    split
    · rename_i hmem
      exact ((s.engine.issued_eq_one id).mpr hmem).symm
    · rename_i hmem
      have hne := mt (s.engine.issued_eq_one id).mp hmem
      have hle : s.engine.issued id ≤ 1 := by
        rw [Engine.issued]
        split <;> omega
      omega
  rw [List.count_append, hissued]
  omega

theorem counters_eq (h : s.Tallies 0) :
    s.engine.counters.finalized = s.engine.finalized.length ∧
      s.engine.counters.prepared = s.engine.preparedIds.length := by
  have hcharge := (Charge.ofIds_owned s).trans h.charge
  have hfinal := congrArg (fun x : Charge => x.2.1) hcharge
  have hprepared := congrArg (fun x : Charge => x.2.2) hcharge
  simp only [Charge.ofIds, Engine.charge, Prod.snd_add, Prod.fst_add, Prod.snd_zero,
    Prod.fst_zero] at hfinal hprepared
  rw [Engine.preparedIds, List.length_map, List.length_range]
  omega

end Tallies

/-- The states of a session: at the start, after each step, also while callers wait, and once all
objects are dropped. -/
inductive Reachable : Session → Prop
  | start : Reachable {}
  | perform {s : Session} (step : Step) : Reachable s → Reachable (s.perform step).2
  | await {s : Session} (n : Nat) : Reachable s → Reachable (s.await n)
  | dropAll {s : Session} : Reachable s → Reachable s.dropAll

theorem Reachable.tallies (h : s.Reachable) : s.Tallies 0 := by
  induction h with
  | start =>
    refine ⟨?_, List.forall_mem_nil _, List.forall_mem_nil _⟩
    have hengine : Engine.charge {} = 0 := by
      refine Prod.ext ?_ rfl
      funext id
      have hissued : Engine.issued {} id = 0 := by
        apply if_neg
        rintro ⟨hpos, hle⟩
        exact absurd hpos (Nat.not_lt.mpr hle)
      simp [Engine.charge, hissued]
    exact (zero_add _).trans hengine
  | perform step _ ih => exact ih.perform step
  | await n _ ih => exact ih.await n
  | dropAll _ ih => exact ih.dropAll

theorem Reachable.performAll (h : s.Reachable) (steps : List Step) :
    (s.performAll steps).2.Reachable := by
  induction steps generalizing s with
  | nil =>
    rw [Session.performAll]
    exact h
  | cons step steps ih =>
    rw [Session.performAll]
    exact ih (h.perform step)

/-- In every state of a session, each statement ever prepared either has exactly one owner or was
finalized, exactly once; nothing else is owned or finalized, and the engine's counts agree. -/
theorem statements_conserved (h : s.Reachable) :
    (∀ id ∈ s.engine.preparedIds,
      s.owned.count id = 1 ∧ id ∉ s.engine.finalized ∨
        id ∉ s.owned ∧ s.engine.finalized.count id = 1) ∧
      (∀ id, id ∈ s.owned ∨ id ∈ s.engine.finalized → id ∈ s.engine.preparedIds) ∧
      s.engine.finalized.Nodup ∧
      s.engine.counters.finalized = s.engine.finalized.length ∧
      s.engine.counters.prepared = s.engine.preparedIds.length ∧
      s.engine.counters.finalized + s.owned.length = s.engine.counters.prepared ∧
      s.engine.counters.liveStatements = s.owned.length := by
  have hperm := h.tallies.perm_preparedIds
  obtain ⟨hfinalized, hprepared⟩ := h.tallies.counters_eq
  have hnodup : (s.owned ++ s.engine.finalized).Nodup :=
    hperm.nodup_iff.mpr s.engine.nodup_preparedIds
  have hlength := hperm.length_eq
  rw [List.length_append] at hlength
  refine ⟨?_, ?_, (List.nodup_append.mp hnodup).2.1, hfinalized, hprepared, ?_, ?_⟩
  · intro id hid
    have hcount := hnodup.count.trans (if_pos (hperm.mem_iff.mpr hid))
    rw [List.count_append] at hcount
    rw [← List.count_eq_zero, ← List.count_eq_zero]
    omega
  · intro id hid
    exact hperm.mem_iff.mp (List.mem_append.mpr hid)
  · omega
  · rw [Counters.liveStatements]
    omega

/-- A handle's statement is evicted by another's, and of two statements prepared on a lease one is
dropped into the cache of its connection. -/
theorem statements_conserved_leased :
    let steps : List Step := [.openRaw "raw" ":memory:" .openOrCreate,
      .prepareRaw "raw" "first" "SELECT 1", .prepareRaw "raw" "second" "SELECT 2",
      .newCache "cache" ⟨1, true⟩, .storeCached "cache" "SELECT 1" "first",
      .storeCached "cache" "foreign" "second", .buildPool "pool" {} (some []) ":memory:" {},
      .acquire "pool" "lease" .plain, .prepare "lease" "kept" "SELECT 3",
      .prepare "lease" "dropped" "SELECT 4", .drop "dropped"]
    let s := (performAll {} steps).2
    s.Reachable ∧ s.owned = [⟨2⟩, ⟨3⟩, ⟨4⟩] ∧ s.engine.finalized = [⟨1⟩] ∧
      s.engine.counters.liveStatements = s.owned.length := by
  intro steps s
  have hs : s.Reachable := Reachable.start.performAll steps
  have hlive := (statements_conserved hs).2.2.2.2.2.2
  exact ⟨hs, by decide +kernel, by decide +kernel, hlive⟩

end Session

end ConnectionPool

import ConnectionPool.Proofs.Estate.Steps

/-!
# Careful steps with pools and leases

With care, what a session has its pools do leaves it settled: a lease, and whatever else is a handle
to a pool, has its place in the ledger of that pool.
-/

namespace ConnectionPool.Session

variable {β : Type} {b : Estate} {s : Session} {name : String} {n id : Nat} {p : ManagedPool}
  {m : Member Connection}

/-- Whether the names that callers wait for may go, each by the time its answer comes. -/
def YieldsTo (s : Session) (number arrival : Nat) (manner : Manner) : List String → Prop
  | [] => True
  | name :: names => s.IsDisposable name ∧
      (s.answerCallers number arrival manner [name]).2.YieldsTo number arrival manner names

theorem IsDisposable.of_not_inUse (h : s.Settled b 0) (hfree : ¬ s.inUse name = true) :
    s.IsDisposable name := by
  have hnone := object?_of_inUse hfree
  refine ⟨?_, ?_⟩
  · by_contra hborrowed
    simp only [isBorrowed, Bool.not_eq_false] at hborrowed
    obtain ⟨⟨at', o⟩, hm, hsource⟩ := List.any_eq_true.mp hborrowed
    cases o with
    | statement k source =>
      obtain rfl : source = name := by simpa using hsource
      have hconn : s.connection? source = none := by simp [connection?, hnone]
      have hmem : .statement k source ∈ s.population + 0 := by
        rw [add_zero]
        exact mem_population.mpr ⟨at', hm⟩
      exact h.ordered.not_source hconn k hmem
    | _ => cases hsource
  · intro raw ho
    rw [hnone] at ho
    cases ho

namespace Settled

theorem work {task : PoolTask β} {found : β → Option (Member Connection)} (h : s.Settled b 0)
    (hp : s.pool? n = some p) (hfair : Fair task found) (htrading : IsTrading task found)
    (hnone : found (s.work n p task).1 = none) : (s.work n p task).2.2.Settled b 0 := by
  have hresumed := h.resumed hp hfair htrading
  rw [hnone] at hresumed
  exact hresumed

theorem lend {task : PoolTask β} {found : β → Option (Member Connection)} (h : s.Settled b 0)
    (hp : s.pool? n = some p) (hfair : Fair task found) (htrading : IsTrading task found)
    (hsome : found (s.work n p task).1 = some m) (hname : s.IsDisposable name) :
    ((s.work n p task).2.2.lend n name m).Settled b 0 := by
  have hresumed := h.resumed hp hfair htrading
  rw [hsome, add_zero, leaseOn] at hresumed
  -- The two changes to the pool are taken for one, as the books are in order after the second.
  unfold Session.lend
  rw [Session.work, pool?_putPool]
  simp only [putPool_putPool]
  exact hresumed.replace ⟨hname.unborrowed, hname.shut⟩ (by simp)

theorem receive {task : PoolTask (Acquired Connection)} (h : s.Settled b 0)
    (hp : s.pool? n = some p) (hfair : Fair task Acquired.member?)
    (htrading : IsTrading task Acquired.member?) (hname : s.IsDisposable name) :
    ((s.work n p task).2.2.receive n name (s.work n p task).1).2.Settled b 0 := by
  cases hr : (s.work n p task).1 with
  | ok found =>
    cases found with
    | none => exact h.work hp hfair htrading (congrArg Acquired.member? hr)
    | some m => exact h.lend hp hfair htrading (congrArg Acquired.member? hr) hname
  | refused error => exact h.work hp hfair htrading (congrArg Acquired.member? hr)
  | aborted cause => exact h.work hp hfair htrading (congrArg Acquired.member? hr)

theorem receiveWaited (h : s.Settled b 0) (hp : s.pool? n = some p) (now : Nat) (manner : Manner)
    (hname : s.IsDisposable name) :
    ((s.work n p (waitIn now manner)).2.2.receiveWaited n name
      (s.work n p (waitIn now manner)).1).2.Settled b 0 := by
  have hfair := waitIn_fair now manner
  have htrading := waitIn_isTrading now manner
  cases hr : (s.work n p (waitIn now manner)).1 with
  | blocked => exact h.work hp hfair htrading (congrArg Waited.member? hr)
  | answered answer =>
    cases answer with
    | ok m => exact h.lend hp hfair htrading (congrArg Waited.member? hr) hname
    | refused error => exact h.work hp hfair htrading (congrArg Waited.member? hr)
    | aborted cause => exact h.work hp hfair htrading (congrArg Waited.member? hr)

theorem buildPool (h : s.Settled b 0) (name : String) (settings : PoolSettings)
    (script : Option (List FactoryCall)) (target : String) (connections : ConnectionSettings)
    (hfits : connections.statementCache.fits = true) :
    (s.buildPool name settings script target connections).2.Settled b 0 := by
  unfold Session.buildPool
  split
  · exact h
  · rename_i hfree
    have htrades := Pool.trades_build (k := .toTarget target connections) settings script s.engine
    cases hb : Pool.build (.toTarget target connections) settings script s.engine with
    | mk attempt e =>
      rw [hb] at htrades
      cases attempt with
      | ok made =>
        obtain ⟨pool, rest⟩ := made
        have hbooks : Ledger.InOrder { pool } := .of_build hb
        simp only [Attempt.made, Multiset.map_singleton, Multiset.sum_singleton] at htrades
        exact (h.addPool hfits htrades hbooks).put_new (object?_of_inUse hfree)
      | refused error => exact h.traded_away hfits htrades
      | aborted cause => exact h.traded_away hfits htrades

theorem acquire (h : s.Settled b 0) (pool name : String) (manner : Manner) :
    (s.acquire pool name manner).2.Settled b 0 := by
  unfold Session.acquire
  split
  · exact h
  · rename_i hfree
    cases hp : s.poolNamed? pool with
    | none => exact h
    | some found =>
      exact h.receiveWaited (pool?_of_poolNamed hp) s.now manner (.of_not_inUse h hfree)

theorem tryAcquire (h : s.Settled b 0) (pool name : String) :
    (s.tryAcquire pool name).2.Settled b 0 := by
  unfold Session.tryAcquire
  split
  · exact h
  · rename_i hfree
    cases hp : s.poolNamed? pool with
    | none => exact h
    | some found =>
      exact h.receive (pool?_of_poolNamed hp) tryAcquire_fair tryAcquire_isTrading
        (.of_not_inUse h hfree)

theorem closePool (h : s.Settled b 0) (pool : String) : (s.closePool pool).2.Settled b 0 := by
  unfold Session.closePool
  cases hp : s.poolNamed? pool with
  | none => exact h
  | some found => exact h.work (pool?_of_poolNamed hp) close_fair close_isTrading rfl

theorem clonePool (h : s.Settled b 0) (pool name : String) :
    (s.clonePool pool name).2.Settled b 0 := by
  unfold Session.clonePool
  split
  · exact h
  · rename_i hfree
    cases hp : s.poolNamed? pool with
    | none => exact h
    | some found => exact 
        (h.add (o := .pool found.1) rfl rfl rfl nofun).put_new (object?_of_inUse hfree)

theorem answerCallers (h : s.Settled b 0) (n arrival : Nat) (manner : Manner)
    (names : List String) (hnames : s.YieldsTo n arrival manner names) :
    (s.answerCallers n arrival manner names).2.Settled b 0 := by
  induction names generalizing s with
  | nil => exact h
  | cons name names ih =>
    have hone : (s.answerCallers n arrival manner [name]).2.Settled b 0 := by
      rw [Session.answerCallers]
      cases hp : s.pool? n with
      | none => exact h
      | some p => exact h.receiveWaited hp arrival manner hnames.1
    exact ih hone hnames.2

theorem giveUp (h : s.Settled b 0) (n : Nat) {handle : String} (hname : s.IsDisposable handle) :
    (s.giveUp n handle).Settled b 0 := by
  have hname' : (s.await n).IsDisposable handle := ⟨hname.unborrowed, hname.shut⟩
  have hdrop := (h.await n).dropNamed hname'
  unfold Session.giveUp
  cases hp : ((s.await n).dropNamed handle).pool? n with
  | none =>
    simp only [hp]
    exact hdrop.unawait n
  | some p =>
    simp only [hp]
    exact (hdrop.work hp (abandoned_fair _) (abandoned_isTrading _) rfl).unawait n

theorem cancel (h : s.Settled b 0) (pool handle : String) :
    (s.cancel pool handle).2.Settled b 0 := by
  have hboth (n : Nat) (hshut : ∀ raw, s.object? handle ≠ some (.raw raw)) : Settled b
      (if s.isBorrowed handle then s.refuse .borrowed else (.done, s.giveUp n handle)).2 0 := by
    split
    · exact h
    · rename_i hfree
      exact h.giveUp n ⟨by simpa using hfree, fun raw ho => absurd ho (hshut raw)⟩
  unfold Session.cancel
  split
  · rename_i ho
    exact hboth _ fun raw hraw => by
      rw [hraw] at ho
      cases ho
  · rename_i ho
    exact hboth _ fun raw hraw => by
      rw [hraw] at ho
      cases ho
  · exact h

theorem addAlias {o : Object} (h : s.Settled b 0) (hname : s.object? name = none) {at' : String}
    (ho : s.object? at' = some o) (hid : o.episode? = some (n, id)) :
    (s.addAlias n id name).2.Settled b 0 := by
  unfold Session.addAlias
  cases hp : s.pool? n with
  | none => exact h
  | some p =>
    have hmem : o ∈ s.population + 0 := by
      rw [add_zero]
      exact mem_of_object? ho
    exact (h.addHandle hp (h.ordered.mem_ids_of_named hp hmem hid)).put_new hname

theorem share (h : s.Settled b 0) (lease name : String) : (s.share lease name).2.Settled b 0 := by
  unfold Session.share
  split
  · exact h
  · rename_i hfree
    split
    · rename_i ho
      exact h.addAlias (object?_of_inUse hfree) ho rfl
    · exact h

theorem cloneShared (h : s.Settled b 0) (shared name : String) :
    (s.cloneShared shared name).2.Settled b 0 := by
  unfold Session.cloneShared
  split
  · exact h
  · rename_i hfree
    split
    · rename_i ho
      exact h.addAlias (object?_of_inUse hfree) ho rfl
    · exact h

theorem intoShared (h : s.Settled b 0) (lease name : String) :
    (s.intoShared lease name).2.Settled b 0 := by
  unfold Session.intoShared
  split
  · exact h
  · rename_i hfree
    split
    · rename_i n id ho
      split
      · exact h
      · rename_i hborrowed
        have hunborrowed : s.isBorrowed lease = false := by simpa using hborrowed
        have hremove := h.remove ho (by
          rw [add_zero]
          exact not_mem_of_unborrowed hunborrowed)
        have hnew := object?_remove_none (object?_of_inUse hfree) lease
        exact (hremove.rehandle (.shared n id) rfl rfl).put_new hnew
    · exact h

theorem exclusive (h : s.Settled b 0) (lease : String) : (s.exclusive lease).2.Settled b 0 := by
  unfold Session.exclusive
  split
  · split
    · exact h
    · split <;> exact h
  · exact h

theorem detach (h : s.Settled b 0) (lease name : String) :
    (s.detach lease name).2.Settled b 0 := by
  unfold Session.detach
  split
  · exact h
  · rename_i hfree
    split
    · rename_i n id ho
      split
      · exact h
      · rename_i hborrowed
        have hunborrowed : s.isBorrowed lease = false := by simpa using hborrowed
        cases hp : s.pool? n with
        | none => exact h
        | some p =>
          simp only
          cases hd : p.ledger.detach? id with
          | none => exact h
          | some after =>
            obtain ⟨c, ledger⟩ := after
            have hremove := h.remove ho (by
              rw [add_zero]
              exact not_mem_of_unborrowed hunborrowed)
            have hsweep := (hremove.connection_detached rfl hp hd).sweepPool
            have hnew : (((s.remove lease).putPool n { p with ledger }).sweepPool n).object? name =
                none := by
              rw [object?, objects_sweepPool]
              exact object?_remove_none (object?_of_inUse hfree) lease
            exact hsweep.put_new hnew
    · exact h

end Settled

end ConnectionPool.Session

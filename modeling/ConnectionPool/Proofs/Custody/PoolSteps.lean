import ConnectionPool.Proofs.Custody.Steps

/-!
# Steps with pools and leases

What a session has its pools do leaves its charge level and their books in order: a connection that
comes out of a pool is in no episode yet.
-/

namespace ConnectionPool

namespace Session

open Ledger (InOrder)

variable {β : Type} {s : Session} {x : Charge} {name : String} {n : Nat} {p : ManagedPool}
  {m : Member Connection}

/-- Whether a task leaves charges level and books in order, where `found` tells the connection
that an answer comes with. -/
structure Fair (task : PoolTask β) (found : β → Option (Member Connection)) : Prop where
  level : ∀ k reentrant w, k.Level →
    Member.charge? (found (task k reentrant w).1) + (task k reentrant w).2.charge = w.charge
  inOrder : ∀ k reentrant w l, InOrder l → w.pool = l.pool →
    (l.resume (task k reentrant w).2.pool (found (task k reentrant w).1)).InOrder

theorem tryAcquire_fair : Fair (fun k reentrant w => w.tryAcquire k reentrant)
    Acquired.member? where
  level _ reentrant w hk := Workplace.charge_tryAcquire hk reentrant w
  inOrder k reentrant _ _ hl hw := hl.tryAcquire k reentrant hw

theorem waitIn_fair (now : Nat) (manner : Manner) : Fair (waitIn now manner) Waited.member? where
  level k reentrant w hk := by
    cases manner with
    | plain => exact Workplace.charge_acquireWithin hk reentrant now _ w
    | within timeout => exact Workplace.charge_acquireWithin hk reentrant now _ w
    | inTask => exact Workplace.charge_acquireInTask hk reentrant now w
  inOrder k reentrant w l hl hw := by
    cases manner with
    | plain => exact hl.acquireWithin k reentrant hw now _
    | within timeout => exact hl.acquireWithin k reentrant hw now _
    | inTask => exact hl.acquireInTask k reentrant hw now

theorem close_fair : Fair (fun k _ w => ((), w.close k)) fun _ => none where
  level _ _ w hk := (zero_add _).trans (Workplace.charge_close hk w)
  inOrder k _ w l hl hw := by
    have hclose := hl.close
    rw [← hw] at hclose
    exact hclose

theorem abandoned_fair (now : Nat) : Fair (abandoned now) fun _ => none where
  level k reentrant w hk := by
    have hacquire := Workplace.charge_acquireInTask hk reentrant now w
    rw [Member.charge?_none, zero_add, abandoned]
    cases hr : w.acquireInTask k reentrant now with
    | mk answer after =>
      rw [hr] at hacquire
      cases answer with
      | blocked => exact (zero_add _).symm.trans hacquire
      | answered answer =>
        cases answer with
        | ok m =>
          have hm : (Waited.answered (.ok m)).member? = some m := rfl
          rw [hm, Member.charge?_some] at hacquire
          exact (Workplace.charge_giveBack hk after m).trans hacquire
        | refused error => exact (zero_add _).symm.trans hacquire
        | aborted cause => exact (zero_add _).symm.trans hacquire
  inOrder k reentrant w l hl hw := by
    have hacquire := hl.acquireInTask k reentrant hw now
    rw [abandoned]
    cases hr : w.acquireInTask k reentrant now with
    | mk answer after =>
      rw [hr] at hacquire
      cases answer with
      | blocked => exact hacquire
      | answered answer =>
        cases answer with
        | ok m => exact InOrder.giveBack hacquire
        | refused error => exact hacquire
        | aborted cause => exact hacquire

theorem pool?_of_poolNamed (h : s.poolNamed? name = some (n, p)) : s.pool? n = some p := by
  unfold poolNamed? at h
  split at h
  · obtain ⟨q, hq, heq⟩ := Option.map_eq_some_iff.mp h
    cases heq
    exact hq
  · cases h

theorem pool?_putPool (s : Session) (n : Nat) (p : ManagedPool) :
    (s.putPool n p).pool? n = some p := Table.lookup_put_self n p s.pools

theorem putPool_putPool (s : Session) (n : Nat) (p q : ManagedPool) :
    (s.putPool n p).putPool n q = s.putPool n q := by
  simp only [putPool, Table.put_put]

theorem objects_sweepPool (s : Session) (n : Nat) : (s.sweepPool n).objects = s.objects := by
  unfold sweepPool
  split
  · rfl
  · cases s.pool? n <;> rfl

/-- The pool that a task leaves, with what it got. -/
def resumed (s : Session) (n : Nat) (p : ManagedPool) (task : PoolTask β)
    (found : Option (Member Connection)) : Session :=
  let w := (task p.connector s.awaited.isEmpty ⟨p.ledger.pool, p.script, [], s.engine⟩).2
  { s with engine := w.world }.putPool n
    { p with ledger := p.ledger.resume w.pool found, script := w.script }

namespace Tallies

theorem resumed {task : PoolTask β} {found : β → Option (Member Connection)} (h : s.Tallies x)
    (hp : s.pool? n = some p) (hfair : Fair task found) :
    (s.resumed n p task (found (s.work n p task).1)).Tallies x := by
  have hlevel := hfair.level p.connector s.awaited.isEmpty
    ⟨p.ledger.pool, p.script, [], s.engine⟩ p.connector_level
  have hbooks := hfair.inOrder p.connector s.awaited.isEmpty
    ⟨p.ledger.pool, p.script, [], s.engine⟩ p.ledger (h.pool_inOrder hp) rfl
  unfold Session.resumed
  generalize hr : task p.connector s.awaited.isEmpty
    ⟨p.ledger.pool, p.script, [], s.engine⟩ = r at hlevel hbooks
  have hanswer : (s.work n p task).1 = r.1 := congrArg Prod.fst hr
  rw [hanswer]
  have hresume := p.ledger.charge_resume r.2.pool (found r.1)
  apply ((h.withEngine r.2.world).putPool hp hbooks).congr
  simp only [Workplace.charge, ManagedPool.charge] at hlevel ⊢
  linear_combination hlevel + hresume

theorem work {task : PoolTask β} {found : β → Option (Member Connection)} (h : s.Tallies x)
    (hp : s.pool? n = some p) (hfair : Fair task found)
    (hnone : found (s.work n p task).1 = none) : (s.work n p task).2.2.Tallies x := by
  have hresumed := h.resumed hp hfair
  rw [hnone] at hresumed
  exact hresumed

theorem lend {task : PoolTask β} {found : β → Option (Member Connection)} (h : s.Tallies x)
    (hp : s.pool? n = some p) (hfair : Fair task found)
    (hsome : found (s.work n p task).1 = some m) (name : String) :
    ((s.work n p task).2.2.lend n name m).Tallies x := by
  have hresumed := h.resumed hp hfair
  rw [hsome] at hresumed
  -- The pool is put back twice: without the connection, and then with its episode. Its books are in
  -- order the second time only, so the two changes are taken for one.
  unfold Session.lend
  rw [Session.work, pool?_putPool]
  simp only [putPool_putPool]
  exact (hresumed.replace name (.lease n m.metadata.id)).congr (add_zero x)

theorem receive (h : s.Tallies x) (hp : s.pool? n = some p) {task : PoolTask (Acquired Connection)}
    (hfair : Fair task Acquired.member?) (name : String) :
    ((s.work n p task).2.2.receive n name (s.work n p task).1).2.Tallies x := by
  cases hr : (s.work n p task).1 with
  | ok found =>
    cases found with
    | none => exact h.work hp hfair (congrArg Acquired.member? hr)
    | some m => exact h.lend hp hfair (congrArg Acquired.member? hr) name
  | refused error => exact h.work hp hfair (congrArg Acquired.member? hr)
  | aborted cause => exact h.work hp hfair (congrArg Acquired.member? hr)

theorem receiveWaited (h : s.Tallies x) (hp : s.pool? n = some p)
    {task : PoolTask (Waited Connection)} (hfair : Fair task Waited.member?) (name : String) :
    ((s.work n p task).2.2.receiveWaited n name (s.work n p task).1).2.Tallies x := by
  cases hr : (s.work n p task).1 with
  | blocked => exact h.work hp hfair (congrArg Waited.member? hr)
  | answered answer =>
    cases answer with
    | ok m => exact h.lend hp hfair (congrArg Waited.member? hr) name
    | refused error => exact h.work hp hfair (congrArg Waited.member? hr)
    | aborted cause => exact h.work hp hfair (congrArg Waited.member? hr)

theorem buildPool (h : s.Tallies x) (name : String) (settings : PoolSettings)
    (script : Option (List FactoryCall)) (target : String) (connections : ConnectionSettings) :
    (s.buildPool name settings script target connections).2.Tallies x := by
  unfold Session.buildPool
  split
  · exact h
  · rename_i hfree
    have hcharge := Pool.charge_build (Connector.toTarget_level target connections) settings script
      s.engine
    cases hb : Pool.build (.toTarget target connections) settings script s.engine with
    | mk attempt e =>
      rw [hb] at hcharge
      have hengine := h.withEngine e
      cases attempt with
      | ok made =>
        obtain ⟨pool, rest⟩ := made
        have hbooks : InOrder { pool } := .of_build hb
        have hadd := hengine.addPool (p := ⟨{ pool }, rest, target, connections⟩) hbooks
        apply (hadd.put_new (object?_of_inUse hfree) (.pool s.nextPool)).congr
        have hpool : ManagedPool.charge ⟨{ pool }, rest, target, connections⟩ = pool.charge :=
          add_zero _
        simp only [Object.charge, Attempt.charge] at hcharge ⊢
        linear_combination hcharge + hpool
      | refused error =>
        apply hengine.congr
        simp only [Attempt.charge] at hcharge
        linear_combination hcharge
      | aborted cause =>
        apply hengine.congr
        simp only [Attempt.charge] at hcharge
        linear_combination hcharge

theorem acquire (h : s.Tallies x) (pool name : String) (manner : Manner) :
    (s.acquire pool name manner).2.Tallies x := by
  unfold Session.acquire
  split
  · exact h
  · cases hp : s.poolNamed? pool with
    | none => exact h
    | some found => exact h.receiveWaited (pool?_of_poolNamed hp) (waitIn_fair s.now manner) name

theorem tryAcquire (h : s.Tallies x) (pool name : String) :
    (s.tryAcquire pool name).2.Tallies x := by
  unfold Session.tryAcquire
  split
  · exact h
  · cases hp : s.poolNamed? pool with
    | none => exact h
    | some found => exact h.receive (pool?_of_poolNamed hp) tryAcquire_fair name

theorem closePool (h : s.Tallies x) (pool : String) : (s.closePool pool).2.Tallies x := by
  unfold Session.closePool
  cases hp : s.poolNamed? pool with
  | none => exact h
  | some found => exact h.work (pool?_of_poolNamed hp) close_fair rfl

theorem clonePool (h : s.Tallies x) (pool name : String) : (s.clonePool pool name).2.Tallies x := by
  unfold Session.clonePool
  split
  · exact h
  · rename_i hfree
    cases hp : s.poolNamed? pool with
    | none => exact h
    | some found =>
      exact (h.put_new (object?_of_inUse hfree) (.pool found.1)).congr (add_zero x)

theorem poolSettings (h : s.Tallies x) (pool : String) : (s.poolSettings pool).2.Tallies x := by
  unfold Session.poolSettings
  cases s.poolNamed? pool with
  | none => exact h
  | some found => exact h

theorem answerCallers (h : s.Tallies x) (n arrival : Nat) (manner : Manner)
    (names : List String) : (s.answerCallers n arrival manner names).2.Tallies x := by
  induction names generalizing s with
  | nil => exact h
  | cons name names ih =>
    rw [Session.answerCallers]
    apply ih
    cases hp : s.pool? n with
    | none => exact h
    | some p => exact h.receiveWaited hp (waitIn_fair arrival manner) name

theorem await (h : s.Tallies x) (n : Nat) : (s.await n).Tallies x :=
  ⟨h.charge, h.inOrder, h.numbered⟩

theorem unawait (h : s.Tallies x) (n : Nat) : (s.unawait n).Tallies x := by
  have hend : { s with awaited := s.awaited.erase n }.Tallies x :=
    ⟨h.charge, h.inOrder, h.numbered⟩
  exact hend.sweepPool n

theorem giveUp (h : s.Tallies x) (n : Nat) (handle : String) :
    (s.giveUp n handle).Tallies x := by
  have hdrop := (h.await n).dropNamed handle
  unfold Session.giveUp
  cases hp : ((s.await n).dropNamed handle).pool? n with
  | none =>
    simp only [hp]
    exact hdrop.unawait n
  | some p =>
    simp only [hp]
    exact (hdrop.work hp (abandoned_fair _) rfl).unawait n

theorem cancel (h : s.Tallies x) (pool handle : String) : (s.cancel pool handle).2.Tallies x := by
  have hboth (n : Nat) : Tallies
      (if s.isBorrowed handle then s.refuse .borrowed else (.done, s.giveUp n handle)).2 x := by
    split
    · exact h
    · exact h.giveUp n handle
  unfold Session.cancel
  split
  · exact hboth _
  · exact hboth _
  · exact h

theorem addAlias (h : s.Tallies x) (n id : Nat) (hfree : s.object? name = none) :
    (s.addAlias n id name).2.Tallies x := by
  unfold Session.addAlias
  cases hp : s.pool? n with
  | none => exact h
  | some p =>
    have hbooks := (h.pool_inOrder hp).addHandle id
    have hput := h.putPool (q := { p with ledger := p.ledger.addHandle id }) hp hbooks
    have hsame := p.ledger.charge_addHandle id
    apply (hput.put_new hfree (.shared n id)).congr
    simp only [Object.charge, ManagedPool.charge]
    linear_combination hsame

theorem share (h : s.Tallies x) (lease name : String) : (s.share lease name).2.Tallies x := by
  unfold Session.share
  split
  · exact h
  · rename_i hfree
    split
    · exact h.addAlias _ _ (object?_of_inUse hfree)
    · exact h

theorem cloneShared (h : s.Tallies x) (shared name : String) :
    (s.cloneShared shared name).2.Tallies x := by
  unfold Session.cloneShared
  split
  · exact h
  · rename_i hfree
    split
    · exact h.addAlias _ _ (object?_of_inUse hfree)
    · exact h

theorem intoShared (h : s.Tallies x) (lease name : String) :
    (s.intoShared lease name).2.Tallies x := by
  unfold Session.intoShared
  split
  · exact h
  · rename_i hfree
    split
    · rename_i n id ho
      split
      · exact h
      · have hnew := object?_remove_none (object?_of_inUse hfree) lease
        apply ((h.remove ho).put_new hnew (.shared n id)).congr
        simp [Object.charge]
    · exact h

theorem exclusive (h : s.Tallies x) (lease : String) : (s.exclusive lease).2.Tallies x := by
  unfold Session.exclusive
  split
  · split
    · exact h
    · split <;> exact h
  · exact h

theorem detach (h : s.Tallies x) (lease name : String) : (s.detach lease name).2.Tallies x := by
  unfold Session.detach
  split
  · exact h
  · rename_i hfree
    split
    · rename_i n id ho
      split
      · exact h
      · cases hp : s.pool? n with
        | none => exact h
        | some p =>
          simp only
          cases hd : p.ledger.detach? id with
          | none => exact h
          | some after =>
            obtain ⟨c, ledger⟩ := after
            have hcharge := Ledger.charge_detach hd
            have hput := (h.remove ho).putPool (q := { p with ledger }) hp
              ((h.pool_inOrder hp).detach hd)
            have hsweep := hput.sweepPool n
            have hnew : (((s.remove lease).putPool n { p with ledger }).sweepPool n).object? name =
                none := by
              rw [object?, objects_sweepPool]
              exact object?_remove_none (object?_of_inUse hfree) lease
            apply (hsweep.put_new hnew (.connection c)).congr
            simp only [Object.charge, ManagedPool.charge]
            linear_combination hcharge
    · exact h

end Tallies

end Session

end ConnectionPool

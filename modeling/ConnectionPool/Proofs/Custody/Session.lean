import ConnectionPool.Proofs.Custody.Ledger
import ConnectionPool.Session.Perform

/-!
# The charge of sessions

The objects of a session and the pools behind them hold its statements between them. Steps that
move a statement from one to another, or have it finalized, leave the charge of the session level.
-/

namespace ConnectionPool

namespace Table

variable {κ ν M : Type} [AddCommMonoid M] {key other : κ} {value : ν} {table : List (κ × ν)}

/-- What the values of a table weigh together. -/
def weigh (weight : ν → M) (table : List (κ × ν)) : M := (table.map fun x => weight x.2).sum

/-- The weight of a value that was looked up, if it was found. -/
def weigh? (weight : ν → M) (found : Option ν) : M := found.elim 0 weight

@[simp] theorem weigh_cons (weight : ν → M) (x : κ × ν) (table : List (κ × ν)) :
    weigh weight (x :: table) = weight x.2 + weigh weight table := rfl

variable [BEq κ]

theorem mem_put {x : κ × ν} (h : x ∈ put key value table) : x = (key, value) ∨ x ∈ table := by
  induction table with
  | nil => exact .inl (List.mem_singleton.mp h)
  | cons y table ih =>
    obtain ⟨k, v⟩ := y
    rw [put] at h
    split at h
    · exact (List.mem_cons.mp h).imp_right (List.mem_cons_of_mem _)
    · cases List.mem_cons.mp h with
      | inl heq => exact .inr (heq ▸ List.mem_cons_self)
      | inr hmem => exact (ih hmem).imp_right (List.mem_cons_of_mem _)

theorem erase_cons_ne {k : κ} (hk : (k == key) = false) (value : ν) (table : List (κ × ν)) :
    erase key ((k, value) :: table) = (k, value) :: erase key table :=
  List.eraseP_cons_of_neg (by simpa using hk)

theorem put_cons_ne {k : κ} (hk : (k == key) = false) (v w : ν) (table : List (κ × ν)) :
    put key w ((k, v) :: table) = (k, v) :: put key w table :=
  if_neg (by simpa using hk)

theorem lookup_erase_none (h : table.lookup other = none) :
    (erase key table).lookup other = none := by
  rw [List.lookup_eq_none_iff] at h ⊢
  intro x hx
  exact h x (List.mem_of_mem_eraseP hx)

variable [LawfulBEq κ]

theorem mem_of_lookup (h : table.lookup key = some value) : (key, value) ∈ table := by
  obtain ⟨front, back, rfl, -⟩ := List.lookup_eq_some_iff.mp h
  exact List.mem_append_right _ List.mem_cons_self

theorem lookup_erase_ne (hne : other ≠ key) :
    (erase key table).lookup other = table.lookup other := by
  induction table with
  | nil => rfl
  | cons x table ih =>
    obtain ⟨k, v⟩ := x
    by_cases hk : k = key
    · subst hk
      have hmiss : (other == k) = false := beq_eq_false_iff_ne.mpr hne
      simp only [erase, List.eraseP_cons, beq_self_eq_true, cond_true, List.lookup_cons, hmiss]
    · rw [erase_cons_ne (beq_eq_false_iff_ne.mpr hk), List.lookup_cons, List.lookup_cons, ih]

theorem lookup_put_none (h : table.lookup other = none) (hne : other ≠ key) :
    (put key value table).lookup other = none := by
  rw [lookup_put_ne hne, h]

theorem put_put (key : κ) (v w : ν) (table : List (κ × ν)) :
    put key w (put key v table) = put key w table := by
  induction table with
  | nil => simp [put]
  | cons x table ih =>
    obtain ⟨k, u⟩ := x
    by_cases hk : (k == key) = true
    · simp [put, hk]
    · simp [put, hk, ih]

theorem weigh_put (weight : ν → M) (key : κ) (value : ν) (table : List (κ × ν)) :
    weigh weight (put key value table) + weigh? weight (table.lookup key) =
      weigh weight table + weight value := by
  induction table with
  | nil => simp [put, weigh, weigh?]
  | cons x table ih =>
    obtain ⟨k, v⟩ := x
    by_cases hk : k = key
    · subst hk
      simp only [put, List.lookup_cons_self, beq_self_eq_true, if_true, weigh_cons, weigh?,
        Option.elim]
      abel
    · have hmiss : (key == k) = false := beq_eq_false_iff_ne.mpr (Ne.symm hk)
      rw [put_cons_ne (beq_eq_false_iff_ne.mpr hk), List.lookup_cons, hmiss, weigh_cons, weigh_cons,
        add_assoc, ih, add_assoc]

theorem weigh_erase (weight : ν → M) (key : κ) (table : List (κ × ν)) :
    weigh weight (erase key table) + weigh? weight (table.lookup key) = weigh weight table := by
  induction table with
  | nil => simp [erase, weigh, weigh?]
  | cons x table ih =>
    obtain ⟨k, v⟩ := x
    by_cases hk : k = key
    · subst hk
      simp only [erase, List.lookup_cons_self, List.eraseP_cons, beq_self_eq_true, cond_true,
        weigh_cons, weigh?, Option.elim]
      abel
    · have hmiss : (key == k) = false := beq_eq_false_iff_ne.mpr (Ne.symm hk)
      rw [erase_cons_ne (beq_eq_false_iff_ne.mpr hk), List.lookup_cons, hmiss, weigh_cons,
        weigh_cons, add_assoc, ih]

end Table

def Object.charge : Object → Charge
  | .handle s => s.charge
  | .statement k _ => k.charge
  | .cache c => c.charge
  | .connection c => c.charge
  | _ => 0

def Object.charge? (found : Option Object) : Charge := Table.weigh? charge found

namespace ManagedPool

def charge (p : ManagedPool) : Charge := p.ledger.charge

theorem connector_level (p : ManagedPool) : p.connector.Level :=
  Connector.toTarget_level p.target p.settings

theorem charge_destroyAll (p : ManagedPool) (left : List (Member Connection)) (e : Engine) :
    (Workplace.destroyAll p.connector left e).charge = Member.chargeAll left + e.charge :=
  Workplace.charge_destroyAll p.connector_level left e

end ManagedPool

namespace Session

variable {s : Session} {x y : Charge} {name sql : String} {n : Nat} {p : ManagedPool}

def charge (s : Session) : Charge :=
  Table.weigh Object.charge s.objects + Table.weigh ManagedPool.charge s.pools + s.engine.charge

/-- Nothing but idle connections is left of a pool that nothing keeps alive. -/
theorem charge_of_not_alive (hp : s.pool? n = some p) (hdead : ¬ s.isPoolAlive n = true) :
    p.charge = Member.chargeAll p.ledger.pool.idle := by
  have hnone : p.ledger.episodes = [] := by
    simp only [isPoolAlive, hp, Option.any_some, Bool.or_eq_true, not_or] at hdead
    simpa using hdead.2
  rw [ManagedPool.charge, Ledger.charge, hnone]
  exact add_zero _

theorem object?_put_none {other : String} {o o' : Object} (h : s.object? other = none)
    (hold : s.object? name = some o) : (s.put name o').object? other = none := by
  apply Table.lookup_put_none h
  rintro rfl
  rw [h] at hold
  cases hold

theorem object?_remove_none {other : String} (h : s.object? other = none) (name : String) :
    (s.remove name).object? other = none := Table.lookup_erase_none h

theorem object?_setLeased {other : String} (h : s.object? other = none) (n id : Nat)
    (c : Connection) : (s.setLeased n id c).object? other = none := by
  rw [setLeased]
  cases s.pool? n with
  | none => exact h
  | some p => exact h

theorem object?_setConnection {other : String} (h : s.object? other = none) (name : String)
    (c : Connection) : (s.setConnection name c).object? other = none := by
  rw [setConnection]
  cases ho : s.object? name with
  | none => exact h
  | some o =>
    cases o with
    | connection d => exact object?_put_none h ho
    | lease n id | shared n id => exact object?_setLeased h n id c
    | _ => exact h

theorem setRaw_cases (s : Session) (name : String) (raw : RawConnection) :
    (∃ r, s.object? name = some (.raw r) ∧ s.setRaw name raw = s.put name (.raw raw)) ∨
    (∃ c, s.connection? name = some c ∧ s.setRaw name raw = s.setConnection name { c with raw }) ∨
    s.setRaw name raw = s := by
  unfold setRaw
  split
  · rename_i r ho
    exact .inl ⟨r, ho, rfl⟩
  · split
    · rename_i c hc
      exact .inr (.inl ⟨c, hc, rfl⟩)
    · exact .inr (.inr rfl)

theorem setCache_cases {c : StatementCache} (hc : s.cache? name = some c) (c' : StatementCache) :
    (s.object? name = some (.cache c) ∧ s.setCache name c' = s.put name (.cache c')) ∨
    ∃ d, s.connection? name = some d ∧ d.cache = c ∧
      s.setCache name c' = s.setConnection name { d with cache := c' } := by
  unfold cache? at hc
  unfold setCache
  split at hc
  · rename_i ho
    obtain rfl := Option.some.inj hc
    exact .inl ⟨ho, rfl⟩
  · rename_i hother
    obtain ⟨d, hd, rfl⟩ := Option.map_eq_some_iff.mp hc
    refine .inr ⟨d, hd, rfl, ?_⟩
    simp only [hd]

theorem object?_setRaw {other : String} (h : s.object? other = none) (name : String)
    (raw : RawConnection) : (s.setRaw name raw).object? other = none := by
  obtain ⟨r, ho, hr⟩ | ⟨c, hc, hr⟩ | hr := s.setRaw_cases name raw
  · rw [hr]
    exact object?_put_none h ho
  · rw [hr]
    exact object?_setConnection h name _
  · rw [hr]
    exact h

theorem object?_setCache {other : String} {c : StatementCache} (h : s.object? other = none)
    (hc : s.cache? name = some c) (c' : StatementCache) :
    (s.setCache name c').object? other = none := by
  obtain ⟨ho, hs⟩ | ⟨d, -, -, hs⟩ := setCache_cases hc c'
  · rw [hs]
    exact object?_put_none h ho
  · rw [hs]
    exact object?_setConnection h name _

theorem object?_of_inUse (h : ¬ s.inUse name = true) : s.object? name = none := by
  simpa [inUse] using h

/-- Whether a session comes to a charge, its pools being numbered and their books in order. -/
structure Tallies (s : Session) (x : Charge) : Prop where
  charge : s.charge = x
  inOrder : ∀ m ∈ s.pools, m.2.ledger.InOrder
  numbered : ∀ m ∈ s.pools, m.1 < s.nextPool

namespace Tallies

theorem congr (h : s.Tallies x) (hx : x = y) : s.Tallies y := hx ▸ h

theorem withEngine (h : s.Tallies x) (e : Engine) :
    { s with engine := e }.Tallies (x + e.charge - s.engine.charge) := by
  refine ⟨?_, h.inOrder, h.numbered⟩
  have hcharge := h.charge
  simp only [Session.charge] at hcharge ⊢
  linear_combination hcharge

theorem put (h : s.Tallies x) (name : String) (o : Object) :
    (s.put name o).Tallies (x + o.charge - Object.charge? (s.object? name)) := by
  refine ⟨?_, h.inOrder, h.numbered⟩
  have hcharge := h.charge
  have hput := Table.weigh_put Object.charge name o s.objects
  simp only [Session.charge, Session.put, object?, Object.charge?] at hcharge hput ⊢
  linear_combination hcharge + hput

theorem put_new (h : s.Tallies x) (hnew : s.object? name = none) (o : Object) :
    (s.put name o).Tallies (x + o.charge) := by
  have hput := h.put name o
  rw [hnew] at hput
  exact hput.congr (sub_zero _)

theorem put_over {o : Object} (h : s.Tallies x) (hold : s.object? name = some o) (o' : Object) :
    (s.put name o').Tallies (x + o'.charge - o.charge) := by
  have hput := h.put name o'
  rw [hold] at hput
  exact hput

theorem remove {o : Object} (h : s.Tallies x) (hold : s.object? name = some o) :
    (s.remove name).Tallies (x - o.charge) := by
  refine ⟨?_, h.inOrder, h.numbered⟩
  have hcharge := h.charge
  have herase := Table.weigh_erase Object.charge name s.objects
  rw [show s.objects.lookup name = some o from hold] at herase
  simp only [Session.charge, Session.remove, Table.weigh?, Option.elim] at hcharge herase ⊢
  linear_combination hcharge + herase

theorem charge_putPool (h : s.Tallies x) (n : Nat) (p : ManagedPool) :
    (s.putPool n p).charge =
      x + p.charge - Table.weigh? ManagedPool.charge (s.pool? n) := by
  have hcharge := h.charge
  have hput := Table.weigh_put ManagedPool.charge n p s.pools
  simp only [Session.charge, Session.putPool, pool?] at hcharge hput ⊢
  linear_combination hcharge + hput

theorem pool_inOrder (h : s.Tallies x) (hp : s.pool? n = some p) : p.ledger.InOrder :=
  h.inOrder (n, p) (Table.mem_of_lookup hp)

theorem putPool {q : ManagedPool} (h : s.Tallies x) (hp : s.pool? n = some p)
    (hq : q.ledger.InOrder) : (s.putPool n q).Tallies (x + q.charge - p.charge) := by
  refine ⟨?_, ?_, ?_⟩
  · rw [h.charge_putPool, hp]
    rfl
  · intro m hm
    cases Table.mem_put hm with
    | inl hnew => exact hnew ▸ hq
    | inr hmem => exact h.inOrder m hmem
  · intro m hm
    cases Table.mem_put hm with
    | inl hnew => exact hnew ▸ h.numbered (n, p) (Table.mem_of_lookup hp)
    | inr hmem => exact h.numbered m hmem

theorem addPool (h : s.Tallies x) (hp : p.ledger.InOrder) :
    ({ s with nextPool := s.nextPool + 1 }.putPool s.nextPool p).Tallies (x + p.charge) := by
  have hnext : { s with nextPool := s.nextPool + 1 }.Tallies x :=
    ⟨h.charge, h.inOrder, fun m hm => Nat.lt_succ_of_lt (h.numbered m hm)⟩
  have hnew : s.pool? s.nextPool = none := by
    cases hfound : s.pool? s.nextPool with
    | none => rfl
    | some q =>
      have hlt := h.numbered (s.nextPool, q) (Table.mem_of_lookup hfound)
      exact absurd hlt (Nat.lt_irrefl _)
  refine ⟨?_, ?_, ?_⟩
  · have hput := hnext.charge_putPool s.nextPool p
    rw [show pool? { s with nextPool := s.nextPool + 1 } s.nextPool = none from hnew] at hput
    exact hput.trans (sub_zero _)
  · intro m hm
    cases Table.mem_put hm with
    | inl hnew => exact hnew ▸ hp
    | inr hmem => exact h.inOrder m hmem
  · intro m hm
    cases Table.mem_put hm with
    | inl hnew => exact hnew ▸ Nat.lt_succ_self _
    | inr hmem => exact hnext.numbered m hmem

theorem setLeased {e : Episode Connection} {id : Nat} (h : s.Tallies x)
    (he : s.episodeOf? n id = some e) (c : Connection) :
    (s.setLeased n id c).Tallies (x + c.charge - e.charge) := by
  obtain ⟨p, hp, hid⟩ := Option.bind_eq_some_iff.mp he
  have hin := h.pool_inOrder hp
  have hset := Ledger.charge_setConnection (c := c) hin.ids_nodup hid
  rw [Session.setLeased, hp]
  apply (h.putPool (q := { p with ledger := p.ledger.setConnection id c }) hp
    (hin.setConnection id c)).congr
  simp only [ManagedPool.charge]
  linear_combination hset

theorem setConnection {c : Connection} (h : s.Tallies x) (hc : s.connection? name = some c)
    (c' : Connection) : (s.setConnection name c').Tallies (x + c'.charge - c.charge) := by
  rw [Session.setConnection]
  rw [connection?] at hc
  cases ho : s.object? name with
  | none =>
    rw [ho] at hc
    cases hc
  | some o =>
    rw [ho] at hc
    cases o with
    | connection d =>
      obtain rfl := Option.some.inj hc
      exact h.put_over ho (.connection c')
    | lease n id | shared n id =>
      obtain ⟨e, he, rfl⟩ := Option.map_eq_some_iff.mp hc
      exact h.setLeased he c'
    | _ => cases hc

theorem setRaw (h : s.Tallies x) (name : String) (raw : RawConnection) :
    (s.setRaw name raw).Tallies x := by
  obtain ⟨r, ho, hr⟩ | ⟨c, hc, hr⟩ | hr := s.setRaw_cases name raw
  · rw [hr]
    exact (h.put_over ho (.raw raw)).congr (add_sub_cancel_right x 0)
  · rw [hr]
    exact (h.setConnection hc { c with raw }).congr (add_sub_cancel_right x c.charge)
  · rw [hr]
    exact h

theorem setCache {c : StatementCache} (h : s.Tallies x) (hc : s.cache? name = some c)
    (c' : StatementCache) : (s.setCache name c').Tallies (x + c'.charge - c.charge) := by
  obtain ⟨ho, hs⟩ | ⟨d, hd, rfl, hs⟩ := setCache_cases hc c'
  · rw [hs]
    exact h.put_over ho (.cache c')
  · rw [hs]
    exact h.setConnection hd { d with cache := c' }

theorem setCache_finalizeAll {c c' : StatementCache} {left : List Statement} (h : s.Tallies x)
    (hc : s.cache? name = some c)
    (hcharge : Statement.chargeAll left + c'.charge = y + c.charge) :
    { s.setCache name c' with
      engine := (s.setCache name c').engine.finalizeAll left }.Tallies (x + y) := by
  apply ((h.setCache hc c').withEngine _).congr
  rw [Engine.charge_finalizeAll]
  linear_combination hcharge

theorem setStatement {t t' : Statement} (h : s.Tallies x) (ht : s.statement? name = some t)
    (hid : t'.id = t.id) : (s.setStatement name t').Tallies x := by
  have hcharge : t'.charge = t.charge := Statement.charge_congr hid
  rw [statement?] at ht
  rw [Session.setStatement]
  cases ho : s.object? name with
  | none =>
    rw [ho] at ht
    cases ht
  | some o =>
    rw [ho] at ht
    cases o with
    | handle u =>
      obtain rfl := Option.some.inj ht
      apply (h.put_over ho (.handle t')).congr
      simp only [Object.charge]
      linear_combination hcharge
    | statement k source =>
      obtain rfl := Option.some.inj ht
      apply (h.put_over ho (.statement { k with statement := t' } source)).congr
      simp only [Object.charge, Checkout.charge]
      linear_combination hcharge
    | _ => cases ht

theorem sweepPool (h : s.Tallies x) (n : Nat) : (s.sweepPool n).Tallies x := by
  unfold Session.sweepPool
  split
  · exact h
  · rename_i hdead
    cases hp : s.pool? n with
    | none => exact h
    | some p =>
      -- All that the pool takes out of the session is its idle connections, which are destroyed.
      have hleft := charge_of_not_alive hp hdead
      have hend := p.charge_destroyAll p.ledger.pool.idle.reverse s.engine
      have herase := Table.weigh_erase ManagedPool.charge n s.pools
      rw [Member.chargeAll_reverse] at hend
      rw [show s.pools.lookup n = some p from hp] at herase
      refine ⟨?_, ?_, ?_⟩
      · have hcharge := h.charge
        simp only [Session.charge, Table.weigh?, Option.elim] at hcharge herase ⊢
        linear_combination hcharge + herase + hend - hleft
      · intro m hm
        exact h.inOrder m (List.mem_of_mem_eraseP hm)
      · intro m hm
        exact h.numbered m (List.mem_of_mem_eraseP hm)

theorem dropHandle (h : s.Tallies x) (n id : Nat) : (s.dropHandle n id).Tallies x := by
  unfold Session.dropHandle
  cases hp : s.pool? n with
  | none => exact h
  | some p =>
    have hdrop := p.ledger.charge_dropHandle id
    have hend := p.charge_destroyAll (p.ledger.dropHandle id).1.toList s.engine
    have hput := h.putPool (q := { p with ledger := (p.ledger.dropHandle id).2 }) hp
      ((h.pool_inOrder hp).dropHandle id)
    have hrest := hput.withEngine
      (Workplace.destroyAll p.connector (p.ledger.dropHandle id).1.toList s.engine)
    apply (hrest.sweepPool n).congr
    simp only [ManagedPool.charge, Member.charge?, Session.putPool] at hdrop ⊢
    linear_combination hdrop + hend

theorem recycle (h : s.Tallies x) (k : Checkout) (source : String) :
    (s.recycle k source).Tallies (x + k.charge) := by
  unfold Session.recycle
  cases hc : s.connection? source with
  | none =>
    apply (h.withEngine (s.engine.finalize k.statement)).congr
    rw [Engine.charge_finalize, Checkout.charge]
    abel
  | some c =>
    have hback := c.charge_recycle k s.engine
    have hset := (h.withEngine (c.recycle k s.engine).2).setConnection hc (c.recycle k s.engine).1
    apply hset.congr
    linear_combination hback

theorem discard (h : s.Tallies x) (o : Object) : (s.discard o).Tallies (x + o.charge) := by
  cases o with
  | raw raw => exact h.congr (add_zero x).symm
  | handle t =>
    apply (h.withEngine (s.engine.finalize t)).congr
    rw [Engine.charge_finalize, Object.charge]
    abel
  | statement k source => exact h.recycle k source
  | cache c =>
    apply (h.withEngine (s.engine.finalizeAll c.statements)).congr
    rw [Engine.charge_finalizeAll, Object.charge, StatementCache.charge]
    abel
  | connection c =>
    apply (h.withEngine (c.destroy s.engine)).congr
    rw [Connection.charge_destroy, Object.charge]
    abel
  | pool n => exact (h.sweepPool n).congr (add_zero x).symm
  | lease n id => exact (h.dropHandle n id).congr (add_zero x).symm
  | shared n id => exact (h.dropHandle n id).congr (add_zero x).symm

theorem dropNamed (h : s.Tallies x) (name : String) : (s.dropNamed name).Tallies x := by
  unfold Session.dropNamed
  cases ho : s.object? name with
  | none => exact h
  | some o => exact ((h.remove ho).discard o).congr (sub_add_cancel x o.charge)

theorem replace (h : s.Tallies x) (name : String) (o : Object) :
    (s.replace name o).Tallies (x + o.charge) := by
  unfold Session.replace
  cases ho : s.object? name with
  | none => exact h.put_new ho o
  | some old => exact ((h.put_over ho o).discard old).congr (sub_add_cancel _ old.charge)

theorem dropAll (h : s.Tallies x) : s.dropAll.Tallies x := by
  have hfold (names : List String) (s : Session) (h : s.Tallies x) :
      (names.foldl Session.dropNamed s).Tallies x := by
    induction names generalizing s with
    | nil => exact h
    | cons name names ih => exact ih (s.dropNamed name) (h.dropNamed name)
  exact hfold s.namesForDrop s h

end Tallies

end Session

end ConnectionPool

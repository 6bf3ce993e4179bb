import ConnectionPool.Proofs.Estate.Order

/-!
# Pools in order

What pools do with their books, and sessions with handles to them, leaves sessions in order.
-/

namespace ConnectionPool.Session

variable {s : Session} {spare left : Multiset Object} {name : String} {o : Object} {n id : Nat}
  {p q : ManagedPool} {c d : Connection}

namespace Ordered

theorem handleCount_putPool (n m id : Nat) (q : ManagedPool) : (s.putPool n q).handleCount m id =
    if m = n then q.ledger.handleCount id else s.handleCount m id := by
  rw [handleCount, handleCount]
  by_cases hm : m = n
  · rw [if_pos hm, hm, pool?_putPool]
    rfl
  · have hother : (s.putPool n q).pool? m = s.pool? m := Table.lookup_put_ne hm q s.pools
    rw [if_neg hm, hother]

/-- A pool changes its books together with the handles that are spare; the names that are handles to
its episodes stand for the same connections as before. -/
theorem putPool (h : s.Ordered spare) (hp : s.pool? n = some p) (hq : q.Regular)
    (hcount : ∀ id, q.ledger.handleCount id + Object.handlesIn spare n id =
      p.ledger.handleCount id + Object.handlesIn left n id)
    (hothers : ∀ m id, m ≠ n → Object.handlesIn left m id = Object.handlesIn spare m id)
    (hnamed : ∀ o ∈ s.population, ∀ id, o.episode? = some (n, id) →
      (q.ledger.episode? id).map (·.member.conn.id) =
        (p.ledger.episode? id).map (·.member.conn.id))
    (hstays : p.ledger.ids ≠ [] → q.ledger.ids ≠ [] ∨ .pool n ∈ left)
    (hpool : ∀ m, .pool m ∈ spare → .pool m ∈ left)
    (hstatement : ∀ k source, .statement k source ∈ left → .statement k source ∈ spare) :
    (s.putPool n q).Ordered left where
  resolved k source hmem := by
    have hold : .statement k source ∈ s.population + spare :=
      Multiset.mem_add.mpr ((Multiset.mem_add.mp hmem).imp_right (hstatement k source))
    rw [← h.resolved k source hold]
    refine owner?_congr rfl fun o m id ho hid => ?_
    by_cases hm : m = n
    · subst hm
      have hsame := hnamed o (mem_of_object? ho) id hid
      simpa only [episodeOf?, pool?_putPool, hp, Option.bind_some] using hsame
    · have hother : (s.putPool n q).pool? m = s.pool? m := Table.lookup_put_ne hm q s.pools
      rw [episodeOf?, hother]
      rfl
  counted m id := by
    have hcounted := h.counted m id
    have hsame : (s.putPool n q).population = s.population := rfl
    rw [handleCount_putPool, hsame, Object.handlesIn_add]
    rw [Object.handlesIn_add] at hcounted
    by_cases hm : m = n
    · subst hm
      have hc := hcount id
      rw [handleCount, hp] at hcounted
      simp only [Option.elim_some] at hcounted
      rw [if_pos rfl]
      omega
    · rw [if_neg hm, hothers m id hm, hcounted]
  alive m hm := by
    have hkept (m : Nat) (hmem : .pool m ∈ s.population + spare) :
        .pool m ∈ s.population + left :=
      Multiset.mem_add.mpr ((Multiset.mem_add.mp hmem).imp_right (hpool m))
    cases Table.mem_put hm with
    | inr hold => exact (h.alive m hold).imp_right fun halive => halive.imp_left (hkept m.1)
    | inl hnew =>
      subst hnew
      obtain hawaited | hmem | hout := h.alive (n, p) (mem_pools_of_pool? hp)
      · exact .inl hawaited
      · exact .inr (.inl (hkept n hmem))
      · cases hstays hout with
        | inl hstill => exact .inr (.inr hstill)
        | inr hspare => exact .inr (.inl (Multiset.mem_add.mpr (.inr hspare)))
  regular m hm := by
    cases Table.mem_put hm with
    | inr hold => exact h.regular m hold
    | inl hnew => exact hnew ▸ hq
  names_nodup := h.names_nodup
  keys_nodup := Table.nodup_put h.keys_nodup
  numbered m hm := by
    cases Table.mem_put hm with
    | inr hold => exact h.numbered m hold
    | inl hnew => exact hnew ▸ h.numbered (n, p) (mem_pools_of_pool? hp)

theorem handlesIn_pos {P : Multiset Object} (ho : o ∈ P) (hid : o.episode? = some (n, id)) :
    0 < Object.handlesIn P n id := by
  obtain ⟨Q, rfl⟩ := Multiset.exists_cons_of_mem ho
  rw [Object.handlesIn_cons, Object.handles, if_pos hid]
  omega

theorem mem_ids_of_named (h : s.Ordered spare) (hp : s.pool? n = some p)
    (ho : o ∈ s.population + spare) (hid : o.episode? = some (n, id)) : id ∈ p.ledger.ids := by
  by_contra hnot
  have hcounted := h.counted n id
  have hpos := handlesIn_pos ho hid
  rw [handleCount, hp, Option.elim_some, Ledger.handleCount_of_not_mem hnot] at hcounted
  omega

theorem keep (h : s.Ordered spare) (hp : s.pool? n = some p) (pool : Pool Connection)
    (script : List FactoryCall) (hin : Ledger.InOrder { p.ledger with pool }) :
    (s.putPool n { p with ledger := { p.ledger with pool }, script }).Ordered spare := by
  have hp' := h.pool_regular hp
  exact h.putPool hp ⟨hin, hp'.manned, hp'.fits⟩ (fun _ => rfl) (fun _ _ _ => rfl)
    (fun _ _ _ _ => rfl) .inl (fun _ hm => hm) fun _ _ hm => hm

theorem gain (h : s.Ordered spare) (hp : s.pool? n = some p) (hq : q.Regular)
    (hid : o.episode? = some (n, id))
    (hcount : ∀ j, q.ledger.handleCount j = o.handles n j + p.ledger.handleCount j)
    (hnamed : ∀ j ∈ p.ledger.ids, (q.ledger.episode? j).map (·.member.conn.id) =
      (p.ledger.episode? j).map (·.member.conn.id))
    (hstays : q.ledger.ids ≠ []) : (s.putPool n q).Ordered (o ::ₘ spare) := by
  refine h.putPool hp hq ?_ ?_ ?_ (fun _ => .inl hstays)
    (fun _ hm => Multiset.mem_cons_of_mem hm) ?_
  · intro j
    rw [hcount, Object.handlesIn_cons]
    omega
  · intro m j hm
    rw [Object.handlesIn_cons, Object.handles_of_episode hid]
    simp [hm]
  · intro o' ho' j hid'
    exact hnamed j (h.mem_ids_of_named hp (Multiset.mem_add.mpr (.inl ho')) hid')
  · intro k source hm
    refine (Multiset.mem_cons.mp hm).resolve_left ?_
    rintro rfl
    cases hid

theorem lose (h : s.Ordered (o ::ₘ spare)) (hp : s.pool? n = some p) (hq : q.Regular)
    (hid : o.episode? = some (n, id))
    (hcount : ∀ j, q.ledger.handleCount j + o.handles n j = p.ledger.handleCount j)
    (hnamed : ∀ o' ∈ s.population, ∀ j, o'.episode? = some (n, j) →
      (q.ledger.episode? j).map (·.member.conn.id) =
        (p.ledger.episode? j).map (·.member.conn.id)) :
    (s.putPool n q).Ordered (.pool n ::ₘ spare) := by
  have hpool (m j : Nat) : Object.handles m j (.pool n) = 0 := rfl
  refine h.putPool hp hq ?_ ?_ hnamed (fun _ => .inr (Multiset.mem_cons_self _ _)) ?_ ?_
  · intro j
    rw [Object.handlesIn_cons, Object.handlesIn_cons, hpool, ← hcount]
    omega
  · intro m j hm
    rw [Object.handlesIn_cons, Object.handlesIn_cons, hpool, Object.handles_of_episode hid]
    simp [hm]
  · intro m hm
    refine Multiset.mem_cons_of_mem ((Multiset.mem_cons.mp hm).resolve_left ?_)
    rintro rfl
    cases hid
  · intro k source hm
    exact Multiset.mem_cons_of_mem ((Multiset.mem_cons.mp hm).resolve_left nofun)

theorem start (h : s.Ordered spare) (hp : s.pool? n = some p) (pool : Pool Connection)
    (script : List FactoryCall) {m : Member Connection}
    (hin : (Ledger.start { p.ledger with pool } m).InOrder) :
    (s.putPool n { p with ledger := Ledger.start { p.ledger with pool } m, script }).Ordered
      (.lease n m.id ::ₘ spare) := by
  have hp' := h.pool_regular hp
  have hfresh : m.id ∉ p.ledger.ids := (List.nodup_cons.mp hin.ids_nodup).1
  have hcount (j : Nat) : (Ledger.start { p.ledger with pool } m).handleCount j =
      if m.id = j then 1 else p.ledger.handleCount j := Ledger.handleCount_start ..
  refine h.gain hp ⟨hin, ?_, hp'.fits⟩ rfl ?_ ?_ (List.cons_ne_nil _ _)
  · intro j hj
    rw [hcount]
    split
    · exact Nat.one_pos
    · rename_i hne
      exact hp'.manned j ((List.mem_cons.mp hj).resolve_left (Ne.symm hne))
  · intro j
    have hlease : (Object.lease n m.id).episode? = some (n, m.id) := rfl
    rw [hcount, Object.handles_of_episode hlease]
    by_cases hj : m.id = j
    · subst hj
      simp [Ledger.handleCount_of_not_mem hfresh]
    · simp [hj, Ne.symm hj]
  · intro j hj
    have hne : j ≠ m.id := fun heq => hfresh (heq ▸ hj)
    rw [Ledger.episode?_start_ne _ hne]
    rfl

theorem owner_update {l : Ledger Connection} {change : Episode Connection → Episode Connection}
    (hid : ∀ e, (change e).id = e.id)
    (hconn : ∀ e, (change e).member.conn.id = e.member.conn.id) (j : Nat) :
    ((l.update id change).episode? j).map (·.member.conn.id) =
      (l.episode? j).map (·.member.conn.id) := by
  rw [Ledger.episode?_update l id change hid]
  split
  · rw [Option.map_map]
    exact congrArg (Option.map · _) (funext hconn)
  · rfl

theorem addHandle (h : s.Ordered spare) (hp : s.pool? n = some p) (hid : id ∈ p.ledger.ids) :
    (s.putPool n { p with ledger := p.ledger.addHandle id }).Ordered (.shared n id ::ₘ spare) := by
  have hp' := h.pool_regular hp
  have hcount := Ledger.handleCount_addHandle hid
  have hids := p.ledger.ids_addHandle id
  refine h.gain hp ⟨hp'.inOrder.addHandle id, ?_, hp'.fits⟩ rfl ?_ ?_ ?_
  · intro j hj
    have hpos := hp'.manned j (hids ▸ hj)
    rw [hcount]
    split <;> omega
  · intro j
    have hshared : (Object.shared n id).episode? = some (n, id) := rfl
    rw [hcount, Object.handles_of_episode hshared]
    by_cases hj : j = id
    · simp [hj, add_comm]
    · simp [hj]
  · exact fun j _ => owner_update (by intro; rfl) (by intro; rfl) j
  · exact hids ▸ List.ne_nil_of_mem hid

/-- The last handle to an episode is gone, and the episode with it. -/
theorem finish (h : s.Ordered (o ::ₘ spare)) (hid : o.episode? = some (n, id))
    (hp : s.pool? n = some p) {e : Episode Connection} (he : p.ledger.episode? id = some e)
    (hlast : e.handles ≤ 1) (pool : Pool Connection)
    (hin : Ledger.InOrder { p.ledger.finish id with pool }) :
    (s.putPool n { p with ledger := { p.ledger.finish id with pool } }).Ordered
      (.pool n ::ₘ spare) := by
  have hp' := h.pool_regular hp
  have hnodup := hp'.inOrder.ids_nodup
  have hids : Ledger.ids { p.ledger.finish id with pool } = p.ledger.ids.erase id :=
    p.ledger.ids_finish id
  have hcount (j : Nat) : Ledger.handleCount { p.ledger.finish id with pool } j =
      if j = id then 0 else p.ledger.handleCount j := Ledger.handleCount_finish hnodup id j
  -- The ledger counts the spare handle, so there is no other one by a name.
  have hcounted := h.counted n id
  rw [handleCount, hp, Option.elim_some, Ledger.handleCount_of_episode he, Multiset.add_cons,
    Object.handlesIn_cons, Object.handlesIn_add, Object.handles_of_episode hid] at hcounted
  simp only [and_self, if_true] at hcounted
  refine h.lose hp ⟨hin, ?_, hp'.fits⟩ hid ?_ ?_
  · intro j hj
    rw [hids] at hj
    obtain ⟨hne, hmem⟩ := hnodup.mem_erase_iff.mp hj
    rw [hcount, if_neg hne]
    exact hp'.manned j hmem
  · intro j
    rw [hcount, Object.handles_of_episode hid]
    by_cases hj : j = id
    · subst hj
      rw [Ledger.handleCount_of_episode he]
      simp only [and_self, if_true]
      omega
    · simp [hj]
  · intro o' ho' j hid'
    by_cases hj : j = id
    · subst hj
      have hpos := handlesIn_pos ho' hid'
      omega
    · exact congrArg (Option.map _) (Ledger.episode?_finish_ne p.ledger hj)

theorem dropHandle (h : s.Ordered (o ::ₘ spare)) (hid : o.episode? = some (n, id))
    (hp : s.pool? n = some p) :
    (s.putPool n { p with ledger := (p.ledger.dropHandle id).2 }).Ordered
      (.pool n ::ₘ spare) := by
  have hp' := h.pool_regular hp
  have hin := hp'.inOrder.dropHandle id
  have hmem := h.mem_ids_of_named hp
    (Multiset.mem_add.mpr (.inr (Multiset.mem_cons_self o spare))) hid
  have hpos := hp'.manned id hmem
  rw [Ledger.dropHandle] at hin ⊢
  cases hg : p.ledger.letGo id with
  | mk left after =>
    rw [hg] at hin
    cases left with
    | some m =>
      obtain ⟨e, he, hlast, rfl, rfl⟩ := Ledger.letGo_eq_some hg
      exact h.finish hid hp he hlast _ hin
    | none =>
      obtain ⟨hmore, hcount⟩ := Ledger.handleCount_letGo hpos hg
      have hids := Ledger.ids_letGo hg
      refine h.lose hp ⟨hin, ?_, hp'.fits⟩ hid ?_ ?_
      · intro j hj
        have hold := hp'.manned j (hids ▸ hj)
        rw [hcount]
        split
        · rename_i heq
          rw [heq]
          omega
        · exact hold
      · intro j
        rw [hcount, Object.handles_of_episode hid]
        by_cases hj : j = id
        · subst hj
          simp only [and_self, if_true]
          omega
        · simp [hj]
      · intro o' _ j _
        obtain ⟨e, he⟩ := Option.isSome_iff_exists.mp ((Ledger.episode?_isSome _ id).mpr hmem)
        obtain ⟨-, rfl⟩ := Ledger.letGo_eq_none he hg
        exact owner_update (by intro; rfl) (by intro; rfl) j

theorem detach {after : Ledger Connection} (h : s.Ordered (o ::ₘ spare))
    (hid : o.episode? = some (n, id)) (hp : s.pool? n = some p)
    (hd : p.ledger.detach? id = some (c, after)) :
    (s.putPool n { p with ledger := after }).Ordered (.pool n ::ₘ spare) := by
  have hin := (h.pool_regular hp).inOrder.detach hd
  obtain ⟨e, he, hlast, rfl, rfl⟩ := Ledger.detach?_eq_some.mp hd
  exact h.finish hid hp he hlast.le _ hin

theorem setConnection (h : s.Ordered spare) (hc : s.connection? name = some c)
    (hid : d.id = c.id) : (s.setConnection name d).Ordered spare := by
  obtain ho | ⟨o, n, id, e, ho, hkey, he, rfl⟩ := connection?_cases hc
  · have hset : s.setConnection name d = s.put name (.connection d) := by
      rw [Session.setConnection, ho]
    rw [hset]
    have hmem (o : Object) (hne : o ≠ .connection c) (hne' : o ≠ .connection d) :
        o ∈ (s.put name (.connection d)).population + spare ↔ o ∈ s.population + spare := by
      simp only [population_put_over ho, population_remove ho, Multiset.mem_add,
        Multiset.mem_cons, hne, hne', false_or]
    refine h.recast rfl rfl rfl (Table.nodup_put h.names_nodup) ?_ ?_ ?_
    · intro n id
      rw [population_put_over ho, population_remove ho, Multiset.cons_add, Multiset.cons_add,
        Object.handlesIn_cons, Object.handlesIn_cons]
      rfl
    · intro n hold
      exact (hmem (.pool n) (by simp) (by simp)).mpr hold
    · intro k source hnew
      rw [← h.resolved k source ((hmem (.statement k source) (by simp) (by simp)).mp hnew)]
      by_cases hsource : source = name
      · subst hsource
        have hput : (s.put source (.connection d)).object? source = some (.connection d) :=
          Table.lookup_put_self ..
        simp [owner?, connection?, ho, hput, hid]
      · exact owner?_put_ne hsource _
  · obtain ⟨p, hp, hfound⟩ := Option.bind_eq_some_iff.mp he
    have hp' := h.pool_regular hp
    have hset : s.setConnection name d =
        s.putPool n { p with ledger := p.ledger.setConnection id d } := by
      rw [setConnection_of_episode ho hkey, setLeased, hp]
    rw [hset]
    have hids := p.ledger.ids_setConnection id d
    refine h.putPool hp ⟨hp'.inOrder.setConnection id d, ?_, hp'.fits⟩ ?_ (fun _ _ _ => rfl) ?_ ?_
      (fun _ hm => hm) fun _ _ hm => hm
    · intro j hj
      rw [Ledger.handleCount_setConnection]
      exact hp'.manned j (hids ▸ hj)
    · intro j
      rw [Ledger.handleCount_setConnection]
    · intro _ _ j _
      rw [Ledger.setConnection, Ledger.episode?_update _ _ _ (by intro; rfl)]
      by_cases hj : j = id
      · subst hj
        rw [if_pos rfl, hfound]
        exact congrArg some hid
      · rw [if_neg hj]
    · exact fun hne => .inl (hids ▸ hne)

theorem addPool (h : s.Ordered spare) (hp : p.Regular) (hnone : p.ledger.ids = []) :
    ({ s with nextPool := s.nextPool + 1 }.putPool s.nextPool p).Ordered
      (.pool s.nextPool ::ₘ spare) := by
  have hnew : s.pool? s.nextPool = none := by
    cases hfound : s.pool? s.nextPool with
    | none => rfl
    | some q => exact absurd (h.numbered _ (mem_pools_of_pool? hfound)) (Nat.lt_irrefl _)
  have hcount (m id : Nat) :
      ({ s with nextPool := s.nextPool + 1 }.putPool s.nextPool p).handleCount m id =
        s.handleCount m id := by
    rw [handleCount_putPool]
    split
    · rename_i hm
      rw [hm, handleCount, hnew, Ledger.handleCount_of_not_mem (by simp [hnone])]
      rfl
    · rfl
  have hpools {m : Nat × ManagedPool}
      (hm : m ∈ ({ s with nextPool := s.nextPool + 1 }.putPool s.nextPool p).pools) :
      m = (s.nextPool, p) ∨ m ∈ s.pools := Table.mem_put hm
  refine ⟨?_, ?_, ?_, ?_, h.names_nodup, Table.nodup_put h.keys_nodup, ?_⟩
  · intro k source hmem
    have hold : .statement k source ∈ s.population + spare := by
      rw [Multiset.add_cons] at hmem
      exact (Multiset.mem_cons.mp hmem).resolve_left (by simp)
    rw [← h.resolved k source hold]
    refine owner?_congr rfl fun o m id ho hid => ?_
    have hne : m ≠ s.nextPool := by
      rintro rfl
      have hpos := handlesIn_pos (Multiset.mem_add.mpr (.inl (mem_of_object? ho))) hid (P :=
        s.population + spare)
      have hcounted := h.counted s.nextPool id
      rw [handleCount, hnew] at hcounted
      exact absurd (hcounted ▸ hpos) (Nat.lt_irrefl _)
    have hother : ({ s with nextPool := s.nextPool + 1 }.putPool s.nextPool p).pool? m =
        s.pool? m := Table.lookup_put_ne hne p s.pools
    rw [episodeOf?, hother]
    rfl
  · intro m id
    rw [hcount, h.counted, Multiset.add_cons, Object.handlesIn_cons]
    exact (zero_add _).symm
  · intro m hm
    cases hpools hm with
    | inl heq =>
      rw [heq]
      exact .inr (.inl (Multiset.mem_add.mpr (.inr (Multiset.mem_cons_self _ _))))
    | inr hold =>
      refine (h.alive m hold).imp_right fun halive => halive.imp_left fun hmem => ?_
      rw [Multiset.add_cons]
      exact Multiset.mem_cons_of_mem hmem
  · intro m hm
    cases hpools hm with
    | inl heq => exact heq ▸ hp
    | inr hold => exact h.regular m hold
  · intro m hm
    cases hpools hm with
    | inl heq => exact heq ▸ Nat.lt_succ_self _
    | inr hold => exact Nat.lt_succ_of_lt (h.numbered m hold)

theorem ids_of_not_alive (hp : s.pool? n = some p) (hdead : ¬ s.isPoolAlive n = true) :
    p.ledger.ids = [] ∧ p.ledger.episodes = [] := by
  have hnone : p.ledger.episodes = [] := by
    simp only [isPoolAlive, hp, Option.any_some, Bool.or_eq_true, not_or] at hdead
    simpa using hdead.2
  exact ⟨by rw [Ledger.ids, hnone]; rfl, hnone⟩

theorem alive_of_isPoolAlive (hp : s.pool? n = some p) (h : s.isPoolAlive n = true) :
    n ∈ s.awaited ∨ .pool n ∈ s.population ∨ p.ledger.ids ≠ [] := by
  simp only [isPoolAlive, hp, Option.any_some, Bool.or_eq_true] at h
  obtain (hawaited | hnamed) | hout := h
  · exact .inl (by simpa using hawaited)
  · obtain ⟨⟨name, o⟩, hmem, ho⟩ := List.any_eq_true.mp hnamed
    refine .inr (.inl (mem_population.mpr ⟨name, ?_⟩))
    cases o with
    | pool m =>
      have hm : m = n := by simpa using ho
      exact hm ▸ hmem
    | _ => cases ho
  · refine .inr (.inr fun hids => ?_)
    rw [Ledger.ids, List.map_eq_nil_iff] at hids
    simp [hids] at hout

/-- A pool with one handle less lives on or is ended. -/
theorem sweepPool (h : s.Ordered (.pool n ::ₘ spare)) : (s.sweepPool n).Ordered spare := by
  have hcounted (m id : Nat) : s.handleCount m id =
      Object.handlesIn (s.population + spare) m id := by
    rw [h.counted, Multiset.add_cons, Object.handlesIn_cons]
    exact zero_add _
  have hmem {o : Object} (ho : o ≠ .pool n) (hm : o ∈ s.population + (.pool n ::ₘ spare)) :
      o ∈ s.population + spare := by
    rw [Multiset.add_cons] at hm
    exact (Multiset.mem_cons.mp hm).resolve_left ho
  have hold {k : Checkout} {source : String} (hm : .statement k source ∈ s.population + spare) :
      s.owner? source = some k.statement.owner := by
    refine h.resolved k source ?_
    rw [Multiset.add_cons]
    exact Multiset.mem_cons_of_mem hm
  have hothers {m : Nat × ManagedPool} (hm : m ∈ s.pools) (hne : m.1 ≠ n) :
      m.1 ∈ s.awaited ∨ .pool m.1 ∈ s.population + spare ∨ m.2.ledger.ids ≠ [] :=
    (h.alive m hm).imp_right fun halive => halive.imp_left (hmem (by simpa using hne))
  unfold Session.sweepPool
  split
  · rename_i halive
    refine ⟨fun k source hm => hold hm, hcounted, ?_, h.regular, h.names_nodup, h.keys_nodup,
      h.numbered⟩
    rintro ⟨m, q⟩ hm
    by_cases hne : m = n
    · subst hne
      have hq := pool?_of_mem h.keys_nodup hm
      exact (alive_of_isPoolAlive hq halive).imp_right fun hkept =>
        hkept.imp_left fun hnamed => Multiset.mem_add.mpr (.inl hnamed)
    · exact hothers hm hne
  · rename_i hdead
    cases hp : s.pool? n with
    | none =>
      refine ⟨fun k source hm => hold hm, hcounted, ?_, h.regular, h.names_nodup, h.keys_nodup,
      h.numbered⟩
      rintro ⟨m, q⟩ hm
      refine hothers hm ?_
      rintro rfl
      rw [pool?_of_mem h.keys_nodup hm] at hp
      cases hp
    | some p =>
      have hnone := (ids_of_not_alive hp hdead).1
      have hsame {m : Nat} (hne : m ≠ n) : (Table.erase n s.pools).lookup m = s.pool? m :=
        Table.lookup_erase_ne hne
      have hgone : (Table.erase n s.pools).lookup n = none := Table.lookup_erase_self h.keys_nodup
      refine ⟨?_, ?_, ?_, ?_, h.names_nodup, ?_, ?_⟩
      · intro k source hm
        rw [← hold hm]
        refine owner?_congr rfl fun o m id ho hid => ?_
        have hne : m ≠ n := by
          rintro rfl
          have hout := h.mem_ids_of_named hp (Multiset.mem_add.mpr (.inl (mem_of_object? ho))) hid
          rw [hnone] at hout
          cases hout
        rw [episodeOf?, pool?, hsame hne]
        rfl
      · intro m id
        refine Eq.trans ?_ (hcounted m id)
        rw [handleCount, handleCount, pool?]
        by_cases hm : m = n
        · subst hm
          rw [hgone, hp, Option.elim_some, Ledger.handleCount_of_not_mem (by simp [hnone])]
          rfl
        · rw [hsame hm]
      · intro m hm
        exact hothers (List.mem_of_mem_eraseP hm) (Table.ne_of_mem_erase h.keys_nodup hm)
      · exact fun m hm => h.regular m (List.mem_of_mem_eraseP hm)
      · exact (List.eraseP_sublist.map _).nodup h.keys_nodup
      · exact fun m hm => h.numbered m (List.mem_of_mem_eraseP hm)

theorem pass (h : s.Ordered spare) (nanos : Nat) :
    { s with now := s.now + nanos }.Ordered spare :=
  ⟨h.resolved, h.counted, h.alive, h.regular, h.names_nodup, h.keys_nodup, h.numbered⟩

theorem await (h : s.Ordered spare) (n : Nat) : (s.await n).Ordered spare where
  resolved := h.resolved
  counted := h.counted
  alive m hm := (h.alive m hm).imp_left fun hawaited => List.mem_cons_of_mem n hawaited
  regular := h.regular
  names_nodup := h.names_nodup
  keys_nodup := h.keys_nodup
  numbered := h.numbered

theorem endWait (h : s.Ordered spare) (n : Nat) :
    { s with awaited := s.awaited.erase n }.Ordered (.pool n ::ₘ spare) where
  resolved k source hm := by
    rw [Multiset.add_cons] at hm
    exact h.resolved k source ((Multiset.mem_cons.mp hm).resolve_left nofun)
  counted m id := by
    rw [Multiset.add_cons, Object.handlesIn_cons]
    exact (h.counted m id).trans (zero_add _).symm
  alive m hm := by
    rw [Multiset.add_cons]
    obtain hawaited | hkept := h.alive m hm
    · by_cases heq : m.1 = n
      · exact .inr (.inl (heq ▸ Multiset.mem_cons_self _ _))
      · exact .inl ((List.mem_erase_of_ne heq).mpr hawaited)
    · exact .inr (hkept.imp_left Multiset.mem_cons_of_mem)
  regular := h.regular
  names_nodup := h.names_nodup
  keys_nodup := h.keys_nodup
  numbered := h.numbered

end Ordered

end ConnectionPool.Session

import ConnectionPool.Proofs.Custody.Conservation
import ConnectionPool.Proofs.Estate.Session

/-!
# Sessions in order

In a session that is in order, every statement that is checked out finds its connection under the
name it was prepared on, the ledgers count the handles that there are, and no pool outlives its
handles and its episodes. Spare objects count as well.
-/

namespace ConnectionPool

/-- Whether the books of a pool agree with its connections, each that is out has a handle, and there
can be room for their caches. -/
structure ManagedPool.Regular (p : ManagedPool) : Prop where
  inOrder : p.ledger.InOrder
  manned : ∀ id ∈ p.ledger.ids, 0 < p.ledger.handleCount id
  fits : p.settings.statementCache.fits = true

/-- How many handles to an episode there are among some objects. -/
def Object.handlesIn (P : Multiset Object) (n id : Nat) : Nat := (P.map (handles n id)).sum

@[simp] theorem Object.handlesIn_zero (n id : Nat) : handlesIn 0 n id = 0 := rfl

@[simp] theorem Object.handlesIn_cons (o : Object) (P : Multiset Object) (n id : Nat) :
    handlesIn (o ::ₘ P) n id = o.handles n id + handlesIn P n id := by
  simp [handlesIn]

@[simp] theorem Object.handlesIn_add (P Q : Multiset Object) (n id : Nat) :
    handlesIn (P + Q) n id = handlesIn P n id + handlesIn Q n id := by
  simp [handlesIn]

namespace Table

variable {κ ν : Type} [BEq κ] [LawfulBEq κ] {key : κ} {value old : ν} {table : List (κ × ν)}

theorem map_fst_put (h : table.lookup key = some old) :
    (put key value table).map Prod.fst = table.map Prod.fst := by
  induction table with
  | nil => cases h
  | cons x table ih =>
    obtain ⟨k, v⟩ := x
    by_cases hk : k = key
    · simp [put, hk]
    · have hmiss : (key == k) = false := beq_eq_false_iff_ne.mpr (Ne.symm hk)
      rw [List.lookup_cons, hmiss] at h
      rw [put_cons_ne (beq_eq_false_iff_ne.mpr hk), List.map_cons, List.map_cons, ih h]

theorem map_fst_put_new (h : table.lookup key = none) :
    (put key value table).map Prod.fst = table.map Prod.fst ++ [key] := by
  induction table with
  | nil => rfl
  | cons x table ih =>
    obtain ⟨k, v⟩ := x
    by_cases hk : k = key
    · simp [hk] at h
    · have hmiss : (key == k) = false := beq_eq_false_iff_ne.mpr (Ne.symm hk)
      rw [List.lookup_cons, hmiss] at h
      rw [put_cons_ne (beq_eq_false_iff_ne.mpr hk), List.map_cons, ih h, List.map_cons]
      rfl

theorem nodup_put (hkeys : (table.map Prod.fst).Nodup) :
    ((put key value table).map Prod.fst).Nodup := by
  cases h : table.lookup key with
  | some old => rwa [map_fst_put h]
  | none =>
    rw [map_fst_put_new h]
    refine List.nodup_append.mpr ⟨hkeys, List.nodup_singleton _, ?_⟩
    intro a ha b hb
    obtain ⟨x, hx, rfl⟩ := List.mem_map.mp ha
    rw [List.mem_singleton.mp hb]
    exact Ne.symm (bne_iff_ne.mp (List.lookup_eq_none_iff.mp h x hx))

theorem ne_of_mem_erase {x : κ × ν} (hkeys : (table.map Prod.fst).Nodup)
    (hx : x ∈ erase key table) : x.1 ≠ key := by
  induction table with
  | nil => cases hx
  | cons y table ih =>
    obtain ⟨k, v⟩ := y
    obtain ⟨hk, hrest⟩ := List.nodup_cons.mp hkeys
    by_cases heq : k = key
    · subst heq
      simp only [erase, List.eraseP_cons, beq_self_eq_true, cond_true] at hx
      have hmem : x.1 ∈ table.map Prod.fst := List.mem_map_of_mem hx
      exact fun hsame => hk (hsame ▸ hmem)
    · rw [erase_cons_ne (beq_eq_false_iff_ne.mpr heq)] at hx
      cases List.mem_cons.mp hx with
      | inl hhead => exact hhead ▸ heq
      | inr htail => exact ih hrest htail

theorem lookup_erase_self (hkeys : (table.map Prod.fst).Nodup) :
    (erase key table).lookup key = none := by
  rw [List.lookup_eq_none_iff]
  intro x hx
  exact bne_iff_ne.mpr (Ne.symm (ne_of_mem_erase hkeys hx))

end Table

namespace Session

/-- How many handles an episode has by the ledger of its pool. -/
def handleCount (s : Session) (n id : Nat) : Nat :=
  (s.pool? n).elim 0 fun p => p.ledger.handleCount id

structure Ordered (s : Session) (spare : Multiset Object) : Prop where
  resolved : ∀ k source, .statement k source ∈ s.population + spare →
    s.owner? source = some k.statement.owner
  counted : ∀ n id, s.handleCount n id = Object.handlesIn (s.population + spare) n id
  alive : ∀ m ∈ s.pools, m.1 ∈ s.awaited ∨ .pool m.1 ∈ s.population + spare ∨
    m.2.ledger.ids ≠ []
  regular : ∀ m ∈ s.pools, m.2.Regular
  names_nodup : (s.objects.map Prod.fst).Nodup
  keys_nodup : (s.pools.map Prod.fst).Nodup
  numbered : ∀ m ∈ s.pools, m.1 < s.nextPool

variable {s t : Session} {spare left : Multiset Object} {name : String} {o old : Object}
  {n id : Nat} {p q : ManagedPool} {c d : Connection}

namespace Ordered

theorem pool_regular (h : s.Ordered spare) (hp : s.pool? n = some p) : p.Regular :=
  h.regular (n, p) (mem_pools_of_pool? hp)

theorem books (h : s.Ordered spare) : ∀ m ∈ s.pools, m.2.ledger.InOrder :=
  fun m hm => (h.regular m hm).inOrder

theorem mem_out {tag : StatementId × ConnectionId} :
    tag ∈ (s.estate spare).out ↔
      ∃ k source, .statement k source ∈ s.population + spare ∧ k.statement.tag = tag := by
  simp only [estate, Multiset.mem_bind]
  constructor
  · rintro ⟨o, ho, hmem⟩
    cases o with
    | statement k source => exact ⟨k, source, ho, (Multiset.mem_singleton.mp hmem).symm⟩
    | _ => cases hmem
  · rintro ⟨k, source, ho, rfl⟩
    exact ⟨_, ho, Multiset.mem_singleton_self _⟩

theorem connection_of_out (h : s.Ordered spare) {tag : StatementId × ConnectionId}
    (htag : tag ∈ (s.estate spare).out) :
    ∃ source c, s.connection? source = some c ∧ c.id = tag.2 := by
  obtain ⟨k, source, ho, rfl⟩ := mem_out.mp htag
  obtain ⟨c, hc, hid⟩ := Option.map_eq_some_iff.mp (h.resolved k source ho)
  exact ⟨source, c, hc, hid⟩

theorem not_source (h : s.Ordered spare) (hname : s.connection? name = none) (k : Checkout) :
    .statement k name ∉ s.population + spare := by
  intro hmem
  have hsource := h.resolved k name hmem
  rw [owner?, hname] at hsource
  cases hsource

/-- Another session with the same pools, in which there are the same handles and every statement
finds its connection. -/
theorem recast (h : s.Ordered spare) (hpools : t.pools = s.pools)
    (hawaited : t.awaited = s.awaited) (hnext : t.nextPool = s.nextPool)
    (hnames : (t.objects.map Prod.fst).Nodup)
    (hhandles : ∀ n id, Object.handlesIn (t.population + left) n id =
      Object.handlesIn (s.population + spare) n id)
    (hpool : ∀ n, .pool n ∈ s.population + spare → .pool n ∈ t.population + left)
    (hstatement : ∀ k source, .statement k source ∈ t.population + left →
      t.owner? source = some k.statement.owner) : t.Ordered left where
  resolved := hstatement
  counted n id := by
    rw [hhandles, ← h.counted, handleCount, handleCount, pool?, hpools, pool?]
  alive m hm := by
    rw [hpools] at hm
    rw [hawaited]
    exact (h.alive m hm).imp_right fun hkept => hkept.imp_left (hpool m.1)
  regular m hm := h.regular m (hpools ▸ hm)
  names_nodup := hnames
  keys_nodup := hpools ▸ h.keys_nodup
  numbered m hm := by
    rw [hnext]
    exact h.numbered m (hpools ▸ hm)

theorem congr (h : s.Ordered spare) (hpop : t.population + left = s.population + spare)
    (hpools : t.pools = s.pools) (hawaited : t.awaited = s.awaited)
    (hnext : t.nextPool = s.nextPool) (hnames : (t.objects.map Prod.fst).Nodup)
    (howner : ∀ k source, .statement k source ∈ s.population + spare →
      t.owner? source = s.owner? source) : t.Ordered left := by
  refine h.recast hpools hawaited hnext hnames (fun _ _ => by rw [hpop])
    (fun _ hmem => hpop ▸ hmem) ?_
  intro k source hmem
  rw [hpop] at hmem
  exact (howner k source hmem).trans (h.resolved k source hmem)

theorem respare (h : s.Ordered spare)
    (hhandles : ∀ n id, Object.handlesIn left n id = Object.handlesIn spare n id)
    (hpool : ∀ n, .pool n ∈ spare → .pool n ∈ left)
    (hstatement : ∀ k source, .statement k source ∈ left →
      s.owner? source = some k.statement.owner) : s.Ordered left := by
  refine h.recast rfl rfl rfl h.names_nodup (fun n id => ?_) (fun n hmem => ?_)
    fun k source hmem => ?_
  · rw [Object.handlesIn_add, Object.handlesIn_add, hhandles]
  · exact Multiset.mem_add.mpr ((Multiset.mem_add.mp hmem).imp_right (hpool n))
  · cases Multiset.mem_add.mp hmem with
    | inl hnamed => exact h.resolved k source (Multiset.mem_add.mpr (.inl hnamed))
    | inr hspare => exact hstatement k source hspare

theorem withEngine (h : s.Ordered spare) (e : Engine) : { s with engine := e }.Ordered spare :=
  h.congr rfl rfl rfl rfl h.names_nodup fun _ _ _ => rfl

/-- The name stands for the same connection where its object is the same and the episode that this
may be a handle to. -/
theorem owner?_congr {source : String} (hobject : t.object? source = s.object? source)
    (hepisode : ∀ o n id, s.object? source = some o → o.episode? = some (n, id) →
      (t.episodeOf? n id).map (·.member.conn.id) = (s.episodeOf? n id).map (·.member.conn.id)) :
    t.owner? source = s.owner? source := by
  cases ho : s.object? source with
  | none =>
    rw [ho] at hobject
    simp [owner?, connection?, ho, hobject]
  | some o =>
    rw [ho] at hobject
    cases hid : o.episode? with
    | none => cases o <;> simp_all [owner?, connection?, Object.episode?]
    | some key =>
      have hsame := hepisode o key.1 key.2 ho hid
      rw [owner?, owner?, connection?_of_episode hobject hid, connection?_of_episode ho hid,
        Option.map_map, Option.map_map]
      exact hsame

theorem owner?_put_ne {source : String} (hne : source ≠ name) (o : Object) :
    (s.put name o).owner? source = s.owner? source :=
  owner?_congr (Table.lookup_put_ne hne o s.objects) fun _ _ _ _ _ => rfl

theorem owner?_remove_ne {source : String} (hne : source ≠ name) :
    (s.remove name).owner? source = s.owner? source :=
  owner?_congr (Table.lookup_erase_ne hne) fun _ _ _ _ _ => rfl

theorem remove (h : s.Ordered spare) (ho : s.object? name = some o)
    (hfree : ∀ k, .statement k name ∉ s.population + spare) :
    (s.remove name).Ordered (o ::ₘ spare) := by
  refine h.congr ?_ rfl rfl rfl ((List.eraseP_sublist.map _).nodup h.names_nodup) ?_
  · rw [population_remove ho, Multiset.add_cons, Multiset.cons_add]
  · intro k source hmem
    apply owner?_remove_ne
    rintro rfl
    exact hfree k hmem

theorem put_new (h : s.Ordered (o ::ₘ spare)) (hnew : s.object? name = none) :
    (s.put name o).Ordered spare := by
  refine h.congr ?_ rfl rfl rfl (Table.nodup_put h.names_nodup) ?_
  · rw [population_put_new hnew, Multiset.add_cons, Multiset.cons_add]
  · intro k source hmem
    apply owner?_put_ne
    rintro rfl
    have hnone : s.connection? source = none := by simp [connection?, hnew]
    exact h.not_source hnone k hmem

theorem put_over (h : s.Ordered (o ::ₘ spare)) (hold : s.object? name = some old)
    (hfree : ∀ k, .statement k name ∉ s.population + (o ::ₘ spare)) :
    (s.put name o).Ordered (old ::ₘ spare) := by
  refine h.congr ?_ rfl rfl rfl (Table.nodup_put h.names_nodup) ?_
  · rw [population_put_over hold, population_remove hold]
    simp only [Multiset.add_cons, Multiset.cons_add]
    exact Multiset.cons_swap ..
  · intro k source hmem
    apply owner?_put_ne
    rintro rfl
    exact hfree k hmem

end Ordered

end Session

end ConnectionPool

import ConnectionPool.Proofs.Agreement
import ConnectionPool.Proofs.Traffic.Closing
import ConnectionPool.Proofs.Traffic.Members
import ConnectionPool.Proofs.WarmUp

/-!
# Metadata

What a pool remembers of a connection stays with it. The number is as good as the connection itself,
the checkouts are those that were made of it, and between a return and the next checkout nobody
touches it.
-/

namespace ConnectionPool

variable {ω α κ : Type}

/-- Whether two entries are about the same connection under the same number. -/
def Member.Matches (ident : α → κ) (b m : Member α) : Prop :=
  b.id = m.id ∧ ident b.conn = ident m.conn

/-- An event after which users have the connections they had, if perhaps in another state. -/
def Event.Keeps (ident : α → κ) (s : Traffic α) : Event α → Prop
  | .used id conn => ∀ x ∈ s.episodes, x.id = id → ident conn = ident x.member.conn
  | _ => True

namespace Traffic

/-- A run in which no user puts another connection in the place of the one it has. -/
inductive Faithful (ident : α → κ) (s : Traffic α) : List (Event α) → Traffic α → Prop
  | refl : Faithful ident s [] s
  | step {events e t u} : Faithful ident s events t → Step t e u → e.Keeps ident t →
      Faithful ident s (e :: events) u

variable {s t u : Traffic α} {e : Event α} {events since before : List (Event α)}
  {m l b c : Member α} {p : Pool α} {ident : α → κ}

theorem Faithful.run (h : Faithful ident s events t) : Run s events t := by
  induction h with
  | refl => exact .refl
  | step _ hs _ ih => exact ih.step hs

theorem Faithful.trans (h : Faithful ident s events t) (h' : Faithful ident t since u) :
    Faithful ident s (since ++ events) u := by
  induction h' with
  | refl => exact h
  | step _ hs hk ih => exact .step ih hs hk

/-- Whatever the pool answers for or ever lent is on the roll, the same connection under the same
number. -/
structure Enrolled (ident : α → κ) (p : Pool α) (events : List (Event α)) (s : Traffic α) :
    Prop where
  members : ∀ m ∈ s.members, ∃ b ∈ roll p events, b.Matches ident m
  leases : ∀ l ∈ events.flatMap Event.leases, ∃ b ∈ roll p events, b.Matches ident l

namespace Enrolled

theorem opening (ident : α → κ) (p : Pool α) : Enrolled ident p [] (opening p) where
  members := by
    intro m hm
    obtain hm | ⟨x, hx, -⟩ | ⟨call, hc, -⟩ := mem_members.mp hm
    · exact ⟨m, hm, rfl, rfl⟩
    · cases hx
    · cases hc
  leases := List.forall_mem_nil _

theorem step (h : Enrolled ident p events s) (hs : Step s e t) (hk : e.Keeps ident s) :
    Enrolled ident p (e :: events) t := by
  have hroll : roll p (e :: events) = e.births ++ roll p events := by
    rw [roll, List.flatMap_cons, List.append_assoc]
    rfl
  have grow {m : Member α} (hm : ∃ b ∈ roll p events, b.Matches ident m) :
      ∃ b ∈ roll p (e :: events), b.Matches ident m := by
    obtain ⟨b, hb, hmatch⟩ := hm
    exact ⟨b, hroll ▸ List.mem_append_right _ hb, hmatch⟩
  constructor
  · intro m hm
    cases hs.origin hm with
    | kept hm => exact grow (h.members m hm)
    | made => exact ⟨m, hroll ▸ List.mem_append_left _ List.mem_cons_self, rfl, rfl⟩
    | lent hl hrecord =>
      subst hrecord
      obtain ⟨b, hb, hid, hident⟩ := h.members _ hl
      exact grow ⟨b, hb, hid, hident⟩
    | @used x conn hx hconn =>
      subst hconn
      obtain ⟨b, hb, hid, hident⟩ := h.members _ (mem_members_of_episode hx)
      exact grow ⟨b, hb, hid, hident.trans (hk x hx rfl).symm⟩
  · intro l hl
    rw [List.flatMap_cons] at hl
    cases List.mem_append.mp hl with
    | inr hold => exact grow (h.leases l hold)
    | inl hnew =>
      cases hs with
      | lend hc =>
        obtain rfl := List.mem_singleton.mp hnew
        exact grow (h.members _ (mem_members_of_call (hc ▸ Multiset.mem_cons_self _ _) rfl))
      | advance _ ha => cases ha <;> cases hnew
      | _ => cases hnew

theorem run (hr : Faithful ident (Traffic.opening p) events s) : Enrolled ident p events s := by
  induction hr with
  | refl => exact .opening ident p
  | step _ hs hk ih => exact ih.step hs hk

end Enrolled

/-- If no number and no connection is on the roll twice, a number tells a connection. -/
theorem matches_iff {members : List (Member α)} (hids : (members.map Member.id).Nodup)
    (hconns : (members.map fun m => ident m.conn).Nodup) (hb : b ∈ members) (hc : c ∈ members)
    (hm : b.Matches ident m) (hl : c.Matches ident l) :
    m.id = l.id ↔ ident m.conn = ident l.conn := by
  rw [← hm.1, ← hm.2, ← hl.1, ← hl.2]
  constructor
  · intro hid
    rw [List.inj_on_of_nodup_map hids hb hc hid]
  · intro hconn
    rw [List.inj_on_of_nodup_map hconns hb hc hconn]

theorem Step.of_made (h : Step s (.made m) t) :
    m.metadata = .fresh m.id ∧ 0 < s.makingCount (· == m.id) := by
  cases h with
  | advance hc ha =>
    cases ha with
    | make =>
      refine ⟨rfl, Multiset.countP_pos.mpr ⟨_, hc ▸ Multiset.mem_cons_self _ _, ?_⟩⟩
      exact beq_self_eq_true _

theorem Step.of_lent (h : Step s (.lent l) t) :
    .handingOut l ∈ s.calls ∧ ⟨l.recordCheckout, 1⟩ ∈ t.episodes := by
  cases h with
  | advance _ ha => cases ha
  | lend hc => exact ⟨hc ▸ Multiset.mem_cons_self _ _, List.mem_cons_self⟩

/-- The metadata of a connection is right about its checkouts. -/
structure Counted (events : List (Event α)) (m : Member α) : Prop where
  checkouts : m.metadata.checkouts = (events.flatMap Event.loans).count m.id
  handedOut : m.metadata.handedOut = true ↔ 0 < m.metadata.checkouts

namespace Counted

theorem cons (h : Counted events m) (hloans : e.loans.count m.id = 0) :
    Counted (e :: events) m where
  checkouts := by rw [List.flatMap_cons, List.count_append, hloans, Nat.zero_add, h.checkouts]
  handedOut := h.handedOut

theorem lend (h : Counted events l) : Counted (.lent l :: events) l.recordCheckout where
  checkouts := by
    have hloans : (Event.lent l).loans.count l.recordCheckout.id = 1 := by
      simp [Event.loans]
    have hcheckouts : l.recordCheckout.metadata.checkouts = l.metadata.checkouts + 1 := rfl
    rw [List.flatMap_cons, List.count_append, hloans, hcheckouts, h.checkouts, Nat.add_comm]
    rfl
  handedOut := by
    have hchecked : l.recordCheckout.metadata.handedOut = true := rfl
    have hpos : 0 < l.recordCheckout.metadata.checkouts := Nat.succ_pos _
    exact ⟨fun _ => hpos, fun _ => hchecked⟩

theorem step (h : ∀ m ∈ s.members, Counted events m) (hb : s.Balanced)
    (hunlent : ∀ id, 0 < s.makingCount (· == id) → id ∉ events.flatMap Event.loans)
    (hs : Step s e t) : ∀ m ∈ t.members, Counted (e :: events) m := by
  intro m hm
  have other {l : Member α} (hl : e = .lent l) (hid : m.id = l.id) : m = l.recordCheckout := by
    subst hl
    exact (hb.step hs).member_inj hm (mem_members_of_episode hs.of_lent.2) hid
  cases hs.origin hm with
  | kept hkept =>
    refine (h m hkept).cons ?_
    cases e with
    | lent l =>
      refine List.count_eq_zero_of_not_mem fun hmem => ?_
      have hid : m.id = l.id := List.mem_singleton.mp hmem
      -- Otherwise the connection would be the one lent, before and after its checkout is noted.
      have hbefore := hb.member_inj hkept (mem_members_of_call hs.of_lent.1 rfl) hid
      have hafter := other rfl hid
      have hchanged : l.metadata.checkouts = l.metadata.checkouts + 1 := by
        conv_lhs => rw [← hbefore, hafter]
        rfl
      omega
    | _ => rfl
  | made =>
    obtain ⟨hfresh, hmaking⟩ := hs.of_made
    refine cons ⟨?_, ?_⟩ rfl
    · rw [List.count_eq_zero_of_not_mem (hunlent m.id hmaking), hfresh]
      rfl
    · rw [hfresh]
      exact ⟨nofun, nofun⟩
  | lent hl hrecord =>
    subst hrecord
    exact (h _ hl).lend
  | @used x conn hx hconn =>
    subst hconn
    have hcounted := h _ (mem_members_of_episode hx)
    exact cons ⟨hcounted.checkouts, hcounted.handedOut⟩ rfl

end Counted

/-- The numbers of connections as they came back, the latest first, and before them those that were
idle from the beginning. -/
def comings (p : Pool α) (events : List (Event α)) : List Nat :=
  events.flatMap Event.returns ++ p.idleIds

theorem Step.idle_order (h : Step s e t) :
    (e.returns = [] ∧ t.pool.idle.Sublist s.pool.idle) ∨
      ∃ m, e = .pooled m ∧ t.pool.idle = m :: s.pool.idle := by
  obtain ⟨call, next, -, ha⟩ | ⟨rfl, ht⟩ | ⟨hq, ht⟩ := h.pool_cases
  · generalize t.pool = after at ha
    cases ha with
    | reuse hi =>
      rw [(Pool.inspect_eq_reuse hi).2.1]
      exact .inl ⟨rfl, List.sublist_cons_self _ _⟩
    | reserve hi =>
      obtain ⟨-, -, -, rfl⟩ := Pool.inspect_eq_create.mp hi
      exact .inl ⟨rfl, .refl _⟩
    | pool ht =>
      obtain ⟨-, rfl⟩ := Pool.takeBack_eq_none.mp ht
      exact .inr ⟨_, rfl, rfl⟩
    | expel ht =>
      obtain ⟨-, -, rfl⟩ := Pool.takeBack_eq_some.mp ht
      exact .inl ⟨rfl, .refl _⟩
    | finish =>
      rw [Errand.settle_idle]
      exact .inl ⟨rfl, .refl _⟩
    | _ => exact .inl ⟨rfl, .refl _⟩
  · rw [ht]
    exact .inl ⟨rfl, List.nil_sublist _⟩
  · rw [ht]
    exact .inl ⟨hq.returns, .refl _⟩

/-- The idle connections stand in the order in which they last came back, the latest first. -/
structure Recent (p : Pool α) (events : List (Event α)) (s : Traffic α) : Prop where
  came : ∀ id ∈ s.pool.idleIds, id ∈ comings p events
  ordered : s.pool.idleIds.Pairwise fun a b =>
    (comings p events).idxOf a < (comings p events).idxOf b

namespace Recent

theorem opening (hw : p.Warm) : Recent p [] (opening p) where
  came := fun _ hid => hid
  ordered := by
    have hcomings : comings p [] = p.idleIds := rfl
    rw [hcomings, List.pairwise_iff_getElem]
    intro i j hi hj hij
    have hidx (k : Nat) (hk : k < p.idleIds.length) : p.idleIds.idxOf p.idleIds[k] = k :=
      hw.nodup.idxOf_getElem k hk
    have hlt : p.idleIds.idxOf p.idleIds[i] < p.idleIds.idxOf p.idleIds[j] := by
      rw [hidx i hi, hidx j hj]
      exact hij
    exact hlt

theorem step (h : Recent p events s) (hb : t.Balanced) (hs : Step s e t) :
    Recent p (e :: events) t := by
  obtain ⟨hnone, hsub⟩ | ⟨m, rfl, hidle⟩ := hs.idle_order
  · have hcomings : comings p (e :: events) = comings p events := by
      rw [comings, List.flatMap_cons, hnone]
      rfl
    have hids : t.pool.idleIds.Sublist s.pool.idleIds := hsub.map _
    refine ⟨fun id hid => ?_, ?_⟩
    · rw [hcomings]
      exact h.came id (hids.subset hid)
    · rw [hcomings]
      exact h.ordered.sublist hids
  · have hcomings : comings p (.pooled m :: events) = m.id :: comings p events := rfl
    have hids : t.pool.idleIds = m.id :: s.pool.idleIds := by
      rw [Pool.idleIds, hidle]
      rfl
    have hnew : m.id ∉ s.pool.idleIds := by
      have hnodup : t.pool.idleIds.Nodup :=
        Multiset.coe_nodup.mp (Multiset.nodup_add.mp hb.nodup).1
      rw [hids] at hnodup
      exact (List.nodup_cons.mp hnodup).1
    -- The numbers of the others come one place later in the list of comings.
    have hlater {id : Nat} (hid : id ∈ s.pool.idleIds) :
        (m.id :: comings p events).idxOf id = (comings p events).idxOf id + 1 :=
      List.idxOf_cons_ne _ fun hsame => hnew (hsame ▸ hid)
    rw [← hcomings] at hlater
    refine ⟨?_, ?_⟩
    · rw [hids, hcomings]
      exact List.forall_mem_cons.mpr
        ⟨List.mem_cons_self, fun id hid => List.mem_cons_of_mem _ (h.came id hid)⟩
    · rw [hids, List.pairwise_cons]
      refine ⟨fun id hid => ?_, ?_⟩
      · rw [hlater hid, hcomings, List.idxOf_cons_self]
        exact Nat.succ_pos _
      · refine List.Pairwise.imp_of_mem ?_ h.ordered
        intro a b ha hb hlt
        rw [hlater ha, hlater hb]
        exact Nat.succ_lt_succ hlt

theorem run (hw : p.Warm) (hb : (Traffic.opening p).Balanced)
    (hr : Run (Traffic.opening p) events s) : Recent p events s := by
  induction hr with
  | refl => exact .opening hw
  | step hr hs ih => exact ih.step (hb.run (hr.step hs)) hs

end Recent

/-- Whether nobody uses this connection: it is on its way back, idle, or on its way out. -/
def Rests (s : Traffic α) (m : Member α) : Prop :=
  .givingBack m ∈ s.calls ∨ m ∈ s.pool.idle ∨ .handingOut m ∈ s.calls

theorem Rests.mem_members (h : s.Rests m) : m ∈ s.members := by
  obtain hback | hidle | hout := h
  · exact mem_members_of_call hback rfl
  · exact mem_members_of_idle hidle
  · exact mem_members_of_call hout rfl

theorem idle_rests {now : Nat} {after : Pool α} {call : Call α}
    {next : Option (Call α)} (h : call.Advance now p e after next) (hm : m ∈ p.idle) :
    m ∈ after.idle ∨ next = some (.handingOut m) := by
  cases h with
  | reuse hi =>
    rw [(Pool.inspect_eq_reuse hi).2.1] at hm
    obtain rfl | hm := List.mem_cons.mp hm
    · exact .inr rfl
    · exact .inl hm
  | reserve hi =>
    obtain ⟨-, -, -, rfl⟩ := Pool.inspect_eq_create.mp hi
    exact .inl hm
  | pool ht =>
    obtain ⟨-, rfl⟩ := Pool.takeBack_eq_none.mp ht
    exact .inl (List.mem_cons_of_mem _ hm)
  | expel ht =>
    obtain ⟨-, -, rfl⟩ := Pool.takeBack_eq_some.mp ht
    exact .inl hm
  | finish =>
    rw [Errand.settle_idle]
    exact .inl hm
  | _ => exact .inl hm

/-- A connection that rests goes on resting as it is, unless it is handed out or leaves for good. -/
theorem Step.rests (hs : Step s e t) (h : s.Rests m) :
    t.Rests m ∨ e = .lent m ∨ m.id ∈ e.departures := by
  obtain hback | hidle | hout := h
  · obtain hstay | ⟨next, ha, -⟩ | ⟨_, hne, -⟩ | hne | hne | hne := hs.call_stays hback
    · exact .inl (.inl hstay)
    · generalize hp : t.pool = after at ha
      cases ha with
      | pool ht =>
        obtain ⟨-, rfl⟩ := Pool.takeBack_eq_none.mp ht
        exact .inl (.inr (.inl (hp ▸ List.mem_cons_self)))
      | expel ht =>
        obtain ⟨-, rfl, -⟩ := Pool.takeBack_eq_some.mp ht
        exact .inr (.inr List.mem_cons_self)
    all_goals cases hne
  · cases hs with
    | advance hc ha =>
      cases idle_rests ha hidle with
      | inl hstay => exact .inl (.inr (.inl hstay))
      | inr hnext => exact .inl (.inr (.inr (mem_turn.mpr (.inl hnext))))
    | close =>
      refine .inr (.inr ?_)
      exact List.mem_map_of_mem (List.mem_reverse.mpr hidle)
    | @drop handle _ ledger _ hl | @dropLast handle _ _ ledger _ hl =>
      have hp : ledger.pool = s.pool := Ledger.pool_of_letGo hl
      exact .inl (.inr (.inl (congrArg Pool.idle hp ▸ hidle)))
    | detach _ hl =>
      obtain ⟨-, -, -, -, rfl⟩ := Ledger.takeOut?_eq_some.mp hl
      exact .inl (.inr (.inl hidle))
    | _ => exact .inl (.inr (.inl hidle))
  · obtain hstay | ⟨hlent, -⟩ := of_handingOut hout hs
    · exact .inl (.inr (.inr hstay))
    · exact .inr (.inl hlent)

theorem Rests.run (h : s.Rests m) (hr : Run s since t)
    (hunlent : m.id ∉ since.flatMap Event.loans) :
    t.Rests m ∨ m.id ∈ since.flatMap Event.departures := by
  induction hr with
  | refl => exact .inl h
  | step _ hs ih =>
    rw [List.flatMap_cons, List.mem_append, not_or] at hunlent
    rw [List.flatMap_cons, List.mem_append]
    cases ih hunlent.2 with
    | inr hgone => exact .inr (.inr hgone)
    | inl hrests =>
      obtain hstill | rfl | hgone := hs.rests hrests
      · exact .inl hstill
      · exact absurd List.mem_cons_self hunlent.1
      · exact .inr (.inl hgone)

/-- What is handed out after a rest is what was given back. -/
theorem Rests.lent (h : s.Rests m) (hb : s.Balanced) (hr : Run s since t)
    (hunlent : m.id ∉ since.flatMap Event.loans) (hs : Step t (.lent l) u) (hid : l.id = m.id) :
    l = m := by
  have hl : l ∈ t.members := mem_members_of_call hs.of_lent.1 rfl
  cases h.run hr hunlent with
  | inl hrests => exact (hb.run hr).member_inj hl hrests.mem_members hid
  | inr hgone =>
    have hdeparted := hb.departed hr l.id
    have hpos := Balanced.population_pos hl
    have hcount : 0 < (since.flatMap Event.departures).countP (· == l.id) :=
      List.count_pos_iff.mpr (hid ▸ hgone)
    split at hdeparted <;> omega

theorem Step.gives_back {handle : Handle} (h : Step s (.dropped handle) t) :
    t.calls = s.calls ∨
      ∃ x ∈ s.episodes, x.id = handle.id ∧ t.calls = .givingBack x.member ::ₘ s.calls := by
  cases h with
  | advance _ ha => cases ha
  | drop => exact .inl rfl
  | dropLast _ hl =>
    obtain ⟨x, hx, -, rfl, -⟩ := Ledger.letGo_eq_some hl
    exact .inr ⟨x, List.mem_of_find?_eq_some hx, Ledger.episode?_id hx, rfl⟩

/-- Whether a connection was in an episode, and known like this, some time on the way to `s`. -/
def WasLeased (ident : α → κ) (p : Pool α) (events : List (Event α)) (s : Traffic α)
    (m : Member α) : Prop :=
  ∃ before since u, events = since ++ before ∧ Faithful ident (opening p) before u ∧
    Faithful ident u since s ∧ ∃ x ∈ u.episodes, x.member = m

theorem WasLeased.on_roll (h : WasLeased ident p events s m) :
    ∃ b ∈ roll p events, b.Matches ident m := by
  obtain ⟨before, since, u, rfl, hbefore, -, x, hx, rfl⟩ := h
  obtain ⟨b, hb, hmatch⟩ := (Enrolled.run hbefore).members _ (mem_members_of_episode hx)
  exact ⟨b, roll_append p since before ▸ List.mem_append_right _ hb, hmatch⟩

/-- What can be relied on about connections and what the pool remembers of them. -/
structure Followed [DecidableEq κ] (ident : α → κ) (p : Pool α) (events : List (Event α))
    (s : Traffic α) : Prop where
  /-- Every connection idle or out has a number of its own, which was given before. -/
  distinct : (s.members.map Member.id).Nodup ∧ ∀ m ∈ s.members, m.id < s.pool.nextId
  /-- No number is given twice, whatever becomes of the factory calls. -/
  once : (events.flatMap Event.numbers ++ p.idleIds).Nodup ∧
    ∀ id ∈ events.flatMap Event.numbers ++ p.idleIds, id < s.pool.nextId
  same_iff : ∀ m l, WasLeased ident p events s m → WasLeased ident p events s l →
    (m.id = l.id ↔ ident m.conn = ident l.conn)
  /-- The checkouts are the leases that were made of the connection itself. -/
  checkouts : ∀ m ∈ s.members, m.metadata.checkouts =
      (events.flatMap Event.leases).countP (fun l => ident l.conn = ident m.conn) ∧
    (m.metadata.handedOut = true ↔ 0 < m.metadata.checkouts)
  recent : Recent p events s
  /-- Whoever looks takes the first of the idle connections and leaves the others as they are. -/
  first : ∀ m rest, s.pool.closed = false → s.pool.idle = m :: rest →
    ∀ now w r e after next, (Call.looking w r).Advance now s.pool e after next ↔
      e = .reused w r m ∧ after = { s.pool with idle := rest } ∧ next = some (.handingOut m)
  /-- The last user leaves the connection to the pool as it is. -/
  returned : ∀ handle t, Step s (.dropped handle) t → t.calls = s.calls ∨
    ∃ x ∈ s.episodes, x.id = handle.id ∧ t.calls = .givingBack x.member ::ₘ s.calls
  /-- And so it stays, up to the lease that is made of it next, unless it leaves the pool. -/
  undisturbed : ∀ before u since m, Run (opening p) before u → Run u since s → u.Rests m →
    m.id ∉ since.flatMap Event.loans →
      (s.Rests m ∨ m.id ∈ since.flatMap Event.departures) ∧
        ∀ l t, Step s (.lent l) t → l.id = m.id → l = m ∧ ⟨m.recordCheckout, 1⟩ ∈ t.episodes

theorem Counted.run {ident : α → κ} (hw : p.Warm) (hfresh : ∀ m ∈ p.idle, m.metadata = .fresh m.id)
    (hb : (opening p).Balanced) (hr : Faithful ident (opening p) events s) :
    ∀ m ∈ s.members, Counted events m := by
  induction hr with
  | refl =>
    intro m hm
    obtain hm | ⟨x, hx, -⟩ | ⟨call, hc, -⟩ := mem_members.mp hm
    · refine ⟨?_, ?_⟩
      · rw [hfresh m hm]
        rfl
      · rw [hfresh m hm]
        exact ⟨nofun, nofun⟩
    · cases hx
    · cases hc
  | @step events e t u hr hs _ ih =>
    refine Counted.step ih (hb.run hr.run) (fun id hmaking hlent => ?_) hs
    obtain ⟨l, hl, rfl⟩ : ∃ l ∈ events.flatMap Event.leases, l.id = id := by
      obtain ⟨e, he, hid⟩ := List.mem_flatMap.mp hlent
      cases e with
      | lent l =>
        exact ⟨l, List.mem_flatMap.mpr ⟨_, he, List.mem_cons_self⟩,
          (List.mem_singleton.mp hid).symm⟩
      | _ => cases hid
    obtain ⟨b, hroll, hid, -⟩ := (Enrolled.run hr).leases l hl
    exact (hr.run.nodup_roll hw).2 l.id hmaking (hid ▸ List.mem_map_of_mem hroll)

/-- Where no number and no connection is on the roll twice, the loans under a number are the leases
of one connection. -/
theorem Enrolled.count_loans [DecidableEq κ] (h : Enrolled ident p events s)
    (hids : ((roll p events).map Member.id).Nodup)
    (hconns : ((roll p events).map fun m => ident m.conn).Nodup) (hm : m ∈ s.members) :
    (events.flatMap Event.loans).count m.id =
      (events.flatMap Event.leases).countP fun l => ident l.conn = ident m.conn := by
  have hloans : events.flatMap Event.loans = (events.flatMap Event.leases).map Member.id := by
    rw [List.map_flatMap]
    congr 1
    funext e
    cases e <;> rfl
  obtain ⟨b, hb, hbm⟩ := h.members m hm
  rw [hloans, List.count, List.countP_map]
  apply List.countP_congr
  intro l hl
  obtain ⟨c, hc, hcl⟩ := h.leases l hl
  rw [Function.comp_apply, beq_iff_eq, decide_eq_true_eq]
  exact matches_iff hids hconns hc hb hcl hbm

section Built

variable [DecidableEq κ] {k : Connector ω α} {settings : PoolSettings}
  {script : Option (List FactoryCall)} {world after : ω} {rest : List FactoryCall}

theorem Followed.of_build
    (hbuild : Pool.build k settings script world = (.ok (p, rest), after))
    (hr : Faithful ident (opening p) events s)
    (hconns : ((roll p events).map fun m => ident m.conn).Nodup) : Followed ident p events s := by
  obtain ⟨hw, -⟩ := Pool.build_ok hbuild
  obtain ⟨-, given, conns, -, -, -, hstocked⟩ := Pool.build_eq_ok hbuild
  have hopen : (opening p).Balanced := .of_build hbuild
  have hbal := hopen.run hr.run
  have henrolled := Enrolled.run hr
  have hids := (hr.run.nodup_roll hw).1
  exact {
    distinct := ⟨hbal.nodup_members, fun m => hbal.lt_nextId⟩
    once := hr.run.nodup_numbers hw
    same_iff := by
      intro m l hm hl
      obtain ⟨b, hb, hbm⟩ := hm.on_roll
      obtain ⟨c, hc, hcl⟩ := hl.on_roll
      exact matches_iff hids hconns hb hc hbm hcl
    checkouts := by
      intro m hm
      have hcounted := Counted.run hw hstocked.fresh hopen hr m hm
      exact ⟨hcounted.checkouts.trans (henrolled.count_loans hids hconns hm), hcounted.handedOut⟩
    recent := .run hw hopen hr.run
    first := by
      intro m others ho hi now w r e after next
      exact Call.Advance.looking_iff (.reuse (Pool.inspect_of_idle ho hi))
    returned := fun handle t => Step.gives_back
    undisturbed := by
      intro before u since m hbefore hsince hrests hunlent
      refine ⟨hrests.run hsince hunlent, fun l t hs hid => ?_⟩
      obtain rfl := hrests.lent (hopen.run hbefore) hsince hunlent hs hid
      exact ⟨rfl, hs.of_lent.2⟩ }

/-- On a pool that was built, whose factory makes no connection twice and whose users do not
exchange the connections they have, all this holds in every state that calls can lead to, and
whoever finds something idle there gets the connection that came back last. -/
theorem metadata_followed
    (hbuild : Pool.build k settings script world = (.ok (p, rest), after))
    (hr : Faithful ident (opening p) events s)
    (hconns : ((roll p events).map fun m => ident m.conn).Nodup) :
    Followed ident p events s ∧
      ∀ (reentrant : Bool) (v : Workplace ω α) (m : Member α) (others : List (Member α)),
        v.pool = s.pool → s.pool.closed = false → s.pool.idle = m :: others →
          (∀ l ∈ others, (comings p events).idxOf m.id < (comings p events).idxOf l.id) ∧
            v.Answers k reentrant (.ok m.recordCheckout)
              { v with pool := { s.pool with idle := others }.countCheckout } := by
  have hfollowed := Followed.of_build hbuild hr hconns
  refine ⟨hfollowed, fun reentrant v m others hv ho hi => ⟨fun l hl => ?_, ?_⟩⟩
  · have hordered := hfollowed.recent.ordered
    rw [Pool.idleIds, hi, List.map_cons, List.pairwise_cons] at hordered
    exact hordered.1 l.id (List.mem_map_of_mem hl)
  · rw [← hv] at ho hi ⊢
    exact Workplace.answers_of_idle ho hi

end Built

/-- A pool of two that makes one connection up front. -/
private def pairPool : Pool Nat where
  settings := { minConnections := 1, maxConnections := 2 }
  idle := [⟨0, .fresh 1⟩]
  created := 1
  nextId := 2
  metrics := { connectionsCreated := 1 }

private theorem build_pairPool :
    Pool.build countingConnector pairPool.settings (some []) 0 = (.ok (pairPool, []), 1) := rfl

/-- The pool with both of its connections lent. -/
private def pairLent : Traffic Nat where
  ledger := ⟨{ pairPool with
      idle := [], created := 2, nextId := 3
      metrics := { connectionsCreated := 2, checkoutsSuccessful := 2 } },
    [⟨⟨1, ⟨2, true, 1⟩⟩, 1⟩, ⟨⟨0, ⟨1, true, 1⟩⟩, 1⟩]⟩
  handles := .lease 2 ::ₘ .lease 1 ::ₘ 0

private theorem faithful_pairLent :
    Faithful (fun conn => conn % 2) (opening pairPool)
      [.lent ⟨1, .fresh 2⟩, .made ⟨1, .fresh 2⟩, .numbered 2, .reserved .none .arrival,
        .arrived .none, .lent ⟨0, .fresh 1⟩, .reused .none .arrival ⟨0, .fresh 1⟩,
        .arrived .none] pairLent := by
  have harrives : Patience.none.StartsAt 0 := trivial
  have harrived : Faithful (fun conn => conn % 2) (opening pairPool) [.arrived .none]
      ⟨⟨pairPool, []⟩, .looking .none .arrival ::ₘ 0, 0, 0⟩ :=
    .step .refl (.arrives harrives) trivial
  have hfirst : Faithful (fun conn => conn % 2) (opening pairPool)
      [.lent ⟨0, .fresh 1⟩, .reused .none .arrival ⟨0, .fresh 1⟩, .arrived .none]
      ⟨⟨{ pairPool with idle := [] }.countCheckout, [⟨⟨0, ⟨1, true, 1⟩⟩, 1⟩]⟩, 0, .lease 1 ::ₘ 0,
        0⟩ := (harrived.step (.goesOn (.reuse rfl)) trivial).step .lends trivial
  have hreserved := (hfirst.step (.arrives harrives) trivial).step (.goesOn (.reserve rfl)) trivial
  have hnumbered := hreserved.step (.goesOn .number) trivial
  exact (hnumbered.step (.goesOn .make) trivial).step .lends trivial

private theorem faithful_pairReturned :
    ∃ s, Faithful (fun conn => conn % 2) pairLent
        [.pooled ⟨2, ⟨1, true, 1⟩⟩, .dropped (.lease 1), .pooled ⟨1, ⟨2, true, 1⟩⟩,
          .dropped (.lease 2), .used 1 2] s ∧
      s.pool.closed = false ∧ s.pool.idle = [⟨2, ⟨1, true, 1⟩⟩, ⟨1, ⟨2, true, 1⟩⟩] := by
  have huse : Step pairLent (.used 1 2)
      ⟨⟨pairLent.pool, [⟨⟨1, ⟨2, true, 1⟩⟩, 1⟩, ⟨⟨2, ⟨1, true, 1⟩⟩, 1⟩]⟩, 0,
        .lease 2 ::ₘ .lease 1 ::ₘ 0, 0⟩ := .use (by decide)
  have hkeeps : Event.Keeps (fun conn => conn % 2) pairLent (.used 1 2) := by
    intro x hx hid
    obtain rfl | hx := List.mem_cons.mp hx
    · cases hid
    · obtain rfl := List.mem_singleton.mp hx
      rfl
  have hused := Faithful.refl.step huse hkeeps
  have hother := (hused.step (.dropsLast rfl) trivial).step (.goesOn (.pool rfl)) trivial
  have hlast := (hother.step (.dropsLast rfl) trivial).step (.goesOn (.pool rfl)) trivial
  exact ⟨_, hlast, rfl, rfl⟩

/-- Two connections are out at once, and the one that comes back last is lent next. -/
theorem metadata_followed_pair :
    ∃ (events : List (Event Nat)) (s : Traffic Nat),
      Followed (fun conn => conn % 2) pairPool events s ∧
        s.pool.idle = [⟨2, ⟨1, true, 1⟩⟩, ⟨1, ⟨2, true, 1⟩⟩] ∧
        (∃ m l, WasLeased (fun conn => conn % 2) pairPool events s m ∧
          WasLeased (fun conn => conn % 2) pairPool events s l ∧
          m.id ≠ l.id ∧ m.conn % 2 ≠ l.conn % 2) ∧
        (comings pairPool events).idxOf 1 < (comings pairPool events).idxOf 2 ∧
        ∀ v : Workplace Nat Nat, v.pool = s.pool →
          ∃ left, v.Answers countingConnector true (.ok ⟨2, ⟨1, true, 2⟩⟩) left := by
  obtain ⟨s, hreturned, ho, hi⟩ := faithful_pairReturned
  obtain ⟨hfollowed, hnext⟩ := metadata_followed build_pairPool
    (faithful_pairLent.trans hreturned) (by decide)
  have hleased (x) (hx : x ∈ pairLent.episodes) :
      WasLeased (fun conn => conn % 2) pairPool _ s x.member :=
    ⟨_, _, _, rfl, faithful_pairLent, hreturned, x, hx, rfl⟩
  have hm := hleased _ List.mem_cons_self
  have hl := hleased _ (List.mem_cons_of_mem _ List.mem_cons_self)
  have hne : ¬ (2 = 1) := by decide
  refine ⟨_, s, hfollowed, hi, ⟨_, _, hm, hl, hne, ?_⟩, ?_, ?_⟩
  · exact fun hsame => hne ((hfollowed.same_iff _ _ hm hl).mpr hsame)
  · exact (hnext true ⟨s.pool, [], [], 0⟩ _ _ rfl ho hi).1 _ List.mem_cons_self
  · intro v hv
    exact ⟨_, (hnext true v _ _ hv ho hi).2⟩

end Traffic

end ConnectionPool

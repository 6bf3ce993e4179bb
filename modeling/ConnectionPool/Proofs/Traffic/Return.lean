import ConnectionPool.Proofs.Traffic.Episode
import ConnectionPool.Proofs.Traffic.Order
import ConnectionPool.Proofs.Traffic.Sequential

/-!
# The end of an episode

Each episode ends once: its connection comes back to the idle ones, or leaves the pool to be
destroyed or to belong to whoever detached it. Until then the connection is nowhere else.
-/

namespace ConnectionPool

variable {ω α : Type}

/-- The numbers of the connections that an errand takes away from the pool. -/
def Errand.members : Errand α → List Nat
  | .surrender m => [m.id]
  | .destroy ms => ms.map Member.id
  | _ => []

namespace Call

/-- The numbers of the connections that a call has yet to destroy or surrender. -/
def burden : Call α → List Nat
  | .signalling errand => errand.members
  | .broadcasting errand => errand.members
  | .finishing errand => errand.members
  | _ => []

theorem burden_wake (call : Call α) : call.wake.burden = call.burden := by cases call <;> rfl

end Call

namespace Event

def departures (e : Event α) : List Nat := e.removals ++ e.evictions

/-- The numbers of the connections destroyed or surrendered. -/
def losses : Event α → List Nat
  | .finished errand => errand.members
  | _ => []

end Event

namespace Call.Advance

variable {now : Nat} {p after : Pool α} {call : Call α} {e : Event α} {next : Option (Call α)}

theorem burden_subset (h : call.Advance now p e after next) :
    ∀ c ∈ next, c.burden ⊆ e.departures := by
  intro c hc
  obtain rfl := hc
  cases h with
  | expel | release => exact List.subset_append_left _ _
  | _ => exact List.nil_subset _

theorem losses_subset (h : call.Advance now p e after next) : e.losses ⊆ call.burden := by
  cases h with
  | finish => exact List.Subset.refl _
  | _ => exact List.nil_subset _

end Call.Advance

namespace Traffic

variable {s t : Traffic α} {e : Event α} {events : List (Event α)}

theorem Run.lent_flow (hr : Run s events t) (p : Nat → Bool) :
    t.lentCount p + (events.flatMap Event.returns).countP p +
        (events.flatMap Event.removals).countP p =
      s.lentCount p + (events.flatMap Event.loans).countP p := by
  induction hr with
  | refl => rfl
  | step _ hs ih =>
    have hf := hs.lent_flow p
    simp only [List.flatMap_cons, List.countP_append]
    omega

/-- A connection that left for good is not there any more, and its number is not given again. -/
theorem Balanced.departed (h : s.Balanced) (hr : Run s events t) (id : Nat) :
    t.population (· == id) + t.makingCount (· == id) +
        (events.flatMap Event.departures).countP (· == id) ≤
      if id < t.pool.nextId then 1 else 0 := by
  induction hr with
  | refl => simpa using h.once id
  | step hr hs ih =>
    have hp := hs.population_flow (· == id)
    have hm := hs.making_flow (· == id)
    simp only [List.flatMap_cons, List.countP_append, Event.departures] at ih ⊢
    have hn := hs.number_flow id
    omega

/-- Only what left the pool for good is destroyed or surrendered. -/
structure Settled (events : List (Event α)) (s : Traffic α) : Prop where
  pending : ∀ call ∈ s.calls, call.burden ⊆ events.flatMap Event.departures
  done : events.flatMap Event.losses ⊆ events.flatMap Event.departures

namespace Settled

theorem opening (p : Pool α) : Settled [] (opening p) :=
  ⟨fun _ hm => absurd hm (Multiset.notMem_zero _), List.nil_subset _⟩

theorem extend (h : Settled events s)
    (hp : ∀ call ∈ t.calls, call.burden ⊆ e.departures ∨ ∃ old ∈ s.calls, call.burden = old.burden)
    (hd : e.losses = [] ∨ ∃ old ∈ s.calls, e.losses ⊆ old.burden) : Settled (e :: events) t := by
  refine ⟨fun call hm => ?_, ?_⟩
  · rw [List.flatMap_cons]
    obtain hnew | ⟨old, ho, hb⟩ := hp call hm
    · exact List.subset_append_of_subset_left _ hnew
    · rw [hb]
      exact List.subset_append_of_subset_right _ (h.pending old ho)
  · rw [List.flatMap_cons, List.flatMap_cons]
    refine List.append_subset.mpr ⟨?_, List.subset_append_of_subset_right _ h.done⟩
    obtain hnone | ⟨old, ho, hb⟩ := hd
    · rw [hnone]
      exact List.nil_subset _
    · exact List.subset_append_of_subset_right _ (List.Subset.trans hb (h.pending old ho))

theorem step (h : Settled events s) (hs : Step s e t) : Settled (e :: events) t := by
  cases hs with
  | @advance call others _ after next hc ha =>
    have hmem : call ∈ s.calls := hc ▸ Multiset.mem_cons_self _ _
    refine h.extend (fun c hm => ?_) (.inr ⟨call, hmem, ha.losses_subset⟩)
    obtain hn | hm := mem_turn.mp hm
    · exact .inl (ha.burden_subset c hn)
    · exact .inr ⟨c, hc ▸ Multiset.mem_cons_of_mem hm, rfl⟩
  | @signal errand others woken hc hw hn =>
    refine h.extend (fun c hm => .inr ?_) (.inl rfl)
    rw [hc]
    obtain rfl | hm := Multiset.mem_cons.mp hm
    · exact ⟨_, Multiset.mem_cons_self _ _, rfl⟩
    · obtain hm | hm := Multiset.mem_add.mp hm
      · exact ⟨c, Multiset.mem_cons_of_mem (Multiset.mem_add.mpr (.inl hm)), rfl⟩
      · obtain ⟨old, ho, rfl⟩ := Multiset.mem_map.mp hm
        exact ⟨old, Multiset.mem_cons_of_mem (Multiset.mem_add.mpr (.inr ho)), old.burden_wake⟩
  | @broadcast errand others hc =>
    refine h.extend (fun c hm => .inr ?_) (.inl rfl)
    rw [hc]
    obtain rfl | hm := Multiset.mem_cons.mp hm
    · exact ⟨_, Multiset.mem_cons_self _ _, rfl⟩
    · obtain ⟨old, ho, rfl⟩ := Multiset.mem_map.mp hm
      exact ⟨old, Multiset.mem_cons_of_mem ho, old.burden_wake⟩
  | close =>
    refine h.extend (fun c hm => ?_) (.inl rfl)
    obtain rfl | hm := Multiset.mem_cons.mp hm
    · exact .inl (List.Subset.refl _)
    · exact .inr ⟨c, hm, rfl⟩
  | arrive | dropLast | detach =>
    refine h.extend (fun c hm => ?_) (.inl rfl)
    obtain rfl | hm := Multiset.mem_cons.mp hm
    · exact .inl (List.nil_subset _)
    · exact .inr ⟨c, hm, rfl⟩
  | lend hc =>
    exact h.extend (fun c hm => .inr ⟨c, hc ▸ Multiset.mem_cons_of_mem hm, rfl⟩) (.inl rfl)
  | _ => exact h.extend (fun c hm => .inr ⟨c, hm, rfl⟩) (.inl rfl)

theorem run (h : Settled [] s) (hr : Run s events t) : Settled events t := by
  induction hr with
  | refl => exact h
  | step _ hs ih => exact ih.step hs

end Settled

/-- No other handle of the episode lives. -/
def IsSole (s : Traffic α) (handle : Handle) : Prop :=
  s.handles.filter (fun other => other.id = handle.id) = {handle}

instance (s : Traffic α) (handle : Handle) : Decidable (s.IsSole handle) :=
  inferInstanceAs (Decidable (_ = _))

theorem isSole_iff {handle : Handle} (hm : handle ∈ s.handles) :
    s.IsSole handle ↔ s.handlesOn handle.id = 1 := by
  rw [IsSole, handlesOn, Multiset.countP_eq_card_filter, Multiset.card_eq_one]
  refine ⟨fun h => ⟨handle, h⟩, ?_⟩
  rintro ⟨other, ho⟩
  have hmem : handle ∈ s.handles.filter fun other => other.id = handle.id :=
    Multiset.mem_filter.mpr ⟨hm, rfl⟩
  rw [ho, Multiset.mem_singleton] at hmem
  rw [ho, hmem]

namespace Tracked

theorem episode (h : s.Tracked) {handle : Handle} (hm : handle ∈ s.handles) :
    ∃ e, s.ledger.episode? handle.id = some e ∧ e.handles = s.handlesOn handle.id := by
  obtain ⟨e, he, hc⟩ := Ledger.episode?_of_handleCount (h.pos hm)
  exact ⟨e, he, hc.trans (h.counted _).symm⟩

theorem isExclusive_iff (h : s.Tracked) {handle : Handle} (hm : handle ∈ s.handles)
    {e : Episode α} (he : s.ledger.episode? handle.id = some e) :
    e.isExclusive ↔ s.IsSole handle := by
  rw [isSole_iff hm, h.counted, Ledger.handleCount_of_episode he, Episode.isExclusive, beq_iff_eq]

theorem takeOut?_isSome (h : s.Tracked) {handle : Handle} (hm : handle ∈ s.handles) :
    (s.ledger.takeOut? handle.id).isSome ↔ s.IsSole handle := by
  obtain ⟨e, he, -⟩ := h.episode hm
  rw [← h.isExclusive_iff hm he, Ledger.takeOut?, he]
  cases hx : e.isExclusive <;> simp [hx]

theorem detach?_isSome (h : s.Tracked) {handle : Handle} (hm : handle ∈ s.handles) :
    (s.ledger.detach? handle.id).isSome ↔ s.IsSole handle := by
  rw [Ledger.detach?, Option.isSome_map, h.takeOut?_isSome hm]

theorem detach_or_keep (h : s.Tracked) {id : Nat} (hm : .lease id ∈ s.handles) :
    ((∃ m t, m.id = id ∧ Step s (.detached m) t) ↔ s.IsSole (.lease id)) ∧
    ((∃ t, Step s (.kept id) t) ↔ ¬ s.IsSole (.lease id)) ∧ ∀ t, Step s (.kept id) t → t = s := by
  have hs := h.takeOut?_isSome hm
  refine ⟨⟨fun ⟨m, t, hid, ht⟩ => ?_, fun hsole => ?_⟩, ⟨fun ⟨t, ht⟩ => ?_, fun hsole => ?_⟩,
    fun t ht => ht.of_kept.1⟩
  · obtain ⟨_, rfl, -, hl, -, -⟩ := ht.of_detached
    obtain rfl : m.metadata.id = id := hid
    exact hs.mp (Option.isSome_of_eq_some hl)
  · obtain ⟨⟨m, ledger⟩, hl⟩ := Option.isSome_iff_exists.mp (hs.mpr hsole)
    obtain ⟨others, hh⟩ := Multiset.exists_cons_of_mem hm
    obtain ⟨e, he, -, rfl, -⟩ := Ledger.takeOut?_eq_some.mp hl
    exact ⟨_, _, Ledger.episode?_id he, .detach hh hl⟩
  · obtain ⟨-, -, hl⟩ := ht.of_kept
    intro hsole
    have hsome := hs.mpr hsole
    simp [Handle.id, hl] at hsome
  · refine ⟨s, .keep hm ?_⟩
    exact Option.not_isSome_iff_eq_none.mp fun hsome => hsole (hs.mp hsome)

theorem of_drop (h : s.Tracked) (hn : s.ledger.ids.Nodup) {handle : Handle}
    (hs : Step s (.dropped handle) t) :
    t.pool = s.pool ∧
      if s.IsSole handle then
        handle.id ∉ t.ledger.ids ∧ ∃ m, m.id = handle.id ∧ t.calls = .givingBack m ::ₘ s.calls
      else handle.id ∈ t.ledger.ids ∧ t.calls = s.calls := by
  obtain ⟨hh, hl, hc, -⟩ := hs.of_dropped
  have hm : handle ∈ s.handles := hh ▸ Multiset.mem_cons_self _ _
  obtain ⟨e, he, -⟩ := h.episode hm
  have hx := h.isExclusive_iff hm he
  have hpos := h.pos hm
  rw [Ledger.handleCount_of_episode he] at hpos
  refine ⟨by rw [pool, hl, Ledger.letGo_pool], ?_⟩
  by_cases hone : e.handles = 1
  · have hgo : s.ledger.letGo handle.id = (some e.member, s.ledger.finish handle.id) := by
      simp [Ledger.letGo, he, hone]
    rw [if_pos (hx.mp (by simp [Episode.isExclusive, hone])), hl, hc, hgo, Ledger.ids_finish]
    exact ⟨hn.not_mem_erase, e.member, Ledger.episode?_id he, rfl⟩
  · have hlt : 1 < e.handles := by omega
    have hgo : (s.ledger.letGo handle.id).1 = none := by simp [Ledger.letGo, he, hlt]
    have hids : t.ledger.ids = s.ledger.ids := by
      rw [hl]
      exact Ledger.ids_letGo (Prod.ext hgo rfl)
    have hnot : ¬ s.IsSole handle := by
      intro hsole
      exact hone (by simpa [Episode.isExclusive] using hx.mpr hsole)
    rw [if_neg hnot, hids, hc, hgo]
    exact ⟨h.mem_ids hm, by simp⟩

end Tracked

theorem exists_drop {handle : Handle} (hm : handle ∈ s.handles) :
    ∃ t, Step s (.dropped handle) t := by
  obtain ⟨others, hh⟩ := Multiset.exists_cons_of_mem hm
  cases hl : s.ledger.letGo handle.id with
  | mk left ledger =>
    cases left with
    | none => exact ⟨_, .drop hh hl⟩
    | some m => exact ⟨_, .dropLast hh hl⟩

/-- A call keeps its place until its own next section. -/
theorem Step.call_stays {call : Call α} (hm : call ∈ s.calls) (hs : Step s e t) :
    call ∈ t.calls ∨ (∃ next, call.Advance s.now s.pool e t.pool next ∧ ∀ c ∈ next, c ∈ t.calls) ∨
      (∃ m, call = .handingOut m ∧ e = .lent m ∧ .lease m.id ∈ t.handles ∧ m.id ∈ t.ledger.ids) ∨
      call.isSignalling ∨ call.isBroadcasting ∨ call.isParked := by
  cases hs with
  | @advance other others _ after next hc ha =>
    rw [hc] at hm
    obtain rfl | hm := Multiset.mem_cons.mp hm
    · exact .inr (.inl ⟨next, ha, fun c hn => mem_turn.mpr (.inl hn)⟩)
    · exact .inl (mem_turn.mpr (.inr hm))
  | lend hc =>
    rw [hc] at hm
    obtain rfl | hm := Multiset.mem_cons.mp hm
    · exact .inr (.inr (.inl ⟨_, rfl, rfl, Multiset.mem_cons_self _ _, List.mem_cons_self⟩))
    · exact .inl hm
  | signal hc hw =>
    rw [hc] at hm
    obtain rfl | hm := Multiset.mem_cons.mp hm
    · exact .inr (.inr (.inr (.inl rfl)))
    · obtain hm | hm := Multiset.mem_add.mp hm
      · exact .inl (Multiset.mem_cons_of_mem (Multiset.mem_add.mpr (.inl hm)))
      · exact .inr (.inr (.inr (.inr (.inr (hw _ hm)))))
  | broadcast hc =>
    rw [hc] at hm
    obtain rfl | hm := Multiset.mem_cons.mp hm
    · exact .inr (.inr (.inr (.inr (.inl rfl))))
    · cases hp : call.isParked with
      | true => exact .inr (.inr (.inr (.inr (.inr rfl))))
      | false =>
        have hw : call.wake = call := by cases call <;> first | rfl | cases hp
        exact .inl (Multiset.mem_cons_of_mem (Multiset.mem_map.mpr ⟨call, hm, hw⟩))
  | arrive | close | dropLast | detach => exact .inl (Multiset.mem_cons_of_mem hm)
  | _ => exact .inl hm

theorem exists_giveBack {m : Member α} (hm : .givingBack m ∈ s.calls) :
    ∃ t, Step s (if s.pool.closed then .expelled m else .pooled m) t := by
  obtain ⟨others, hc⟩ := Multiset.exists_cons_of_mem hm
  cases hclosed : s.pool.closed with
  | true => exact ⟨_, .advance hc (.expel (Pool.takeBack_eq_some.mpr ⟨hclosed, rfl, rfl⟩))⟩
  | false => exact ⟨_, .advance hc (.pool (Pool.takeBack_eq_none.mpr ⟨hclosed, rfl⟩))⟩

theorem exists_surrender {m : Member α} (hm : .detaching m ∈ s.calls) :
    ∃ t, Step s (.released m) t := by
  obtain ⟨others, hc⟩ := Multiset.exists_cons_of_mem hm
  exact ⟨_, .advance hc .release⟩

namespace Balanced

theorem of_giveBack (h : s.Balanced) {m : Member α} (hm : .givingBack m ∈ s.calls)
    (hs : Step s e t) :
    .givingBack m ∈ t.calls ∨
      if s.pool.closed then
        e = .expelled m ∧ t.pool.created + 1 = s.pool.created ∧ t.pool.idle = s.pool.idle ∧
          .finishing (.destroy [m]) ∈ t.calls
      else e = .pooled m ∧ t.pool.created = s.pool.created ∧ t.pool.idle = m :: s.pool.idle := by
  have hcov := (h.covered hs).2
  obtain hstay | ⟨next, ha, hn⟩ | ⟨_, hne, -⟩ | hne | hne | hne := hs.call_stays hm
  · exact .inl hstay
  · right
    generalize hp : t.pool = after at ha hcov
    cases ha with
    | pool ht =>
      obtain ⟨hc, rfl⟩ := Pool.takeBack_eq_none.mp ht
      simp [hc, Pool.addIdle]
    | expel ht =>
      obtain ⟨hc, rfl, rfl⟩ := Pool.takeBack_eq_some.mp ht
      rw [if_pos hc]
      exact ⟨rfl, hcov, rfl, hn _ rfl⟩
  all_goals cases hne

theorem of_surrender (h : s.Balanced) {m : Member α} (hm : .detaching m ∈ s.calls)
    (hs : Step s e t) :
    .detaching m ∈ t.calls ∨
      e = .released m ∧ t.pool.created + 1 = s.pool.created ∧ t.pool.idle = s.pool.idle ∧
        .signalling (.surrender m) ∈ t.calls := by
  have hcov := (h.covered hs).2
  obtain hstay | ⟨next, ha, hn⟩ | ⟨_, hne, -⟩ | hne | hne | hne := hs.call_stays hm
  · exact .inl hstay
  · right
    generalize hp : t.pool = after at ha hcov
    cases ha with
    | release => exact ⟨rfl, hcov, rfl, hn _ rfl⟩
  all_goals cases hne

theorem held (h : s.Balanced) {id : Nat} (hm : id ∈ s.ledger.ids) :
    s.outIds.count id = 1 ∧ id ∉ s.pool.idleIds := by
  obtain ⟨-, hout, hd⟩ := Multiset.nodup_add.mp h.nodup
  have hmem : id ∈ s.outIds := Multiset.mem_add.mpr (.inl hm)
  exact ⟨Multiset.count_eq_one_of_mem hout hmem, fun hi => Multiset.disjoint_left.mp hd hi hmem⟩

theorem notMem_departures (h : s.Balanced) (hr : Run s events t) (ht : t.Balanced) {id : Nat}
    (hm : id ∈ t.ledger.ids) : id ∉ events.flatMap Event.departures := by
  have hd := h.departed hr id
  have hpos : 0 < t.population (· == id) := by
    rw [← count_idle_out, Multiset.count_add, (ht.held hm).1]
    exact Nat.succ_pos _
  have hzero : (events.flatMap Event.departures).countP (· == id) = 0 := by
    split at hd <;> omega
  intro hmem
  exact List.countP_eq_zero.mp hzero id hmem (by simp)

/-- A detachment takes the connection of an episode away with its slot, and nothing else. -/
theorem of_detach? (h : s.Balanced) {id : Nat} {conn : α} {left : Ledger α}
    (hd : s.ledger.detach? id = some (conn, left)) :
    (∃ e, s.ledger.episode? id = some e ∧ conn = e.member.conn) ∧
      left.pool = { s.pool with created := s.pool.created - 1 } ∧
      left.pool.created + 1 = s.pool.created ∧ id ∉ left.ids ∧
      ∀ other ≠ id, left.episode? other = s.ledger.episode? other := by
  obtain ⟨e, he, -, rfl, rfl⟩ := Ledger.detach?_eq_some.mp hd
  have hin : id ∈ s.ledger.ids := (Ledger.episode?_isSome s.ledger id).mp (by rw [he]; rfl)
  have hout : 0 < s.outIds.card := by
    rw [Multiset.card_pos_iff_exists_mem]
    exact ⟨id, Multiset.mem_add.mpr (.inl hin)⟩
  have hcreated := h.created_eq_out
  refine ⟨⟨e, he, rfl⟩, rfl, ?_, ?_, fun other hne => s.ledger.episode?_finish_ne hne⟩
  · change s.pool.created - 1 + 1 = s.pool.created
    omega
  · change id ∉ (s.ledger.finish id).ids
    rw [Ledger.ids_finish]
    exact h.ids_nodup.not_mem_erase

end Balanced

/-- What holders of handles can rely on. -/
structure Orderly (events : List (Event α)) (s : Traffic α) : Prop where
  /-- While a handle lives, its connection is in one episode and nowhere else. -/
  held : ∀ handle ∈ s.handles, handle.id ∈ s.ledger.ids ∧ s.outIds.count handle.id = 1 ∧
    handle.id ∉ s.pool.idleIds
  /-- It was not destroyed or surrendered, nor is it about to be. -/
  alive : ∀ handle ∈ s.handles, handle.id ∉ events.flatMap Event.losses ∧
    ∀ call ∈ s.calls, handle.id ∉ call.burden
  counted : ∀ handle ∈ s.handles, ∃ e, s.ledger.episode? handle.id = some e ∧
    e.handles = s.handlesOn handle.id ∧ (e.isExclusive ↔ s.IsSole handle)
  detach_iff : ∀ handle ∈ s.handles, (s.ledger.detach? handle.id).isSome ↔ s.IsSole handle
  /-- A detachment gives the connection of the episode, frees its slot and changes nothing else. -/
  detached : ∀ handle ∈ s.handles, ∀ conn left,
    s.ledger.detach? handle.id = some (conn, left) →
      (∃ e, s.ledger.episode? handle.id = some e ∧ conn = e.member.conn) ∧
        left.pool = { s.pool with created := s.pool.created - 1 } ∧
        left.pool.created + 1 = s.pool.created ∧ handle.id ∉ left.ids ∧
        ∀ id ≠ handle.id, left.episode? id = s.ledger.episode? id
  /-- It leaves what the sections of a call come to if nothing happens in between. -/
  detach_reaches : ∀ id others conn left, s.handles = .lease id ::ₘ others →
    IsWakeful s.calls → s.ledger.detach? id = some (conn, left) →
      s.Reaches ⟨left, s.calls, others, s.now⟩
  /-- A lease can be detached, or else is kept as it is. -/
  detach_or_keep : ∀ id, .lease id ∈ s.handles →
    ((∃ m t, m.id = id ∧ Step s (.detached m) t) ↔ s.IsSole (.lease id)) ∧
    ((∃ t, Step s (.kept id) t) ↔ ¬ s.IsSole (.lease id)) ∧ ∀ t, Step s (.kept id) t → t = s
  drop : ∀ handle ∈ s.handles, (∃ t, Step s (.dropped handle) t) ∧
    ∀ t, Step s (.dropped handle) t → t.pool = s.pool ∧
      if s.IsSole handle then
        handle.id ∉ t.ledger.ids ∧ ∃ m, m.id = handle.id ∧ t.calls = .givingBack m ::ₘ s.calls
      else handle.id ∈ t.ledger.ids ∧ t.calls = s.calls
  /-- After the last handle, the connection joins the idle ones or is destroyed. -/
  giveBack : ∀ m, .givingBack m ∈ s.calls →
    (∃ t, Step s (if s.pool.closed then .expelled m else .pooled m) t) ∧
    ∀ e t, Step s e t → .givingBack m ∈ t.calls ∨
      if s.pool.closed then
        e = .expelled m ∧ t.pool.created + 1 = s.pool.created ∧ t.pool.idle = s.pool.idle ∧
          .finishing (.destroy [m]) ∈ t.calls
      else e = .pooled m ∧ t.pool.created = s.pool.created ∧ t.pool.idle = m :: s.pool.idle
  /-- After a detachment, the connection belongs to the caller. -/
  surrender : ∀ m, .detaching m ∈ s.calls → (∃ t, Step s (.released m) t) ∧
    ∀ e t, Step s e t → .detaching m ∈ t.calls ∨
      e = .released m ∧ t.pool.created + 1 = s.pool.created ∧ t.pool.idle = s.pool.idle ∧
        .signalling (.surrender m) ∈ t.calls
  /-- Each loan ends once, with a return or a removal, or is not over. -/
  ended : ∀ id, (events.flatMap Event.loans).count id =
      (events.flatMap Event.returns).count id + (events.flatMap Event.removals).count id +
        s.lentCount (· == id) ∧ s.lentCount (· == id) ≤ 1

/-- Holders of handles can rely on all this in every state that calls on a pool that was built can
lead to, and the order in which the handles of an episode go makes no difference to the pool. -/
theorem episodes_orderly {k : Connector ω α} {settings : PoolSettings}
    {script : Option (List FactoryCall)} {world after : ω} {p : Pool α} {rest : List FactoryCall}
    (hb : Pool.build k settings script world = (.ok (p, rest), after))
    (hr : Run (opening p) events s) :
    Orderly events s ∧
      ∀ later later' t t', Run s later t → Run s later' t' →
        List.Forall₂ Event.Like later later' →
          t.ledger = t'.ledger ∧ t.calls = t'.calls ∧ t.now = t'.now := by
  have hopen : (opening p).Balanced := .of_build hb
  have hbal := hopen.run hr
  have htrack := (Tracked.opening p).run hopen hr
  have hsettled := (Settled.opening p).run hr
  have habsent (handle : Handle) (hm : handle ∈ s.handles) :
      handle.id ∉ events.flatMap Event.departures :=
    hopen.notMem_departures hr hbal (htrack.mem_ids hm)
  have horderly : Orderly events s := {
    held := by
      intro handle hm
      exact ⟨htrack.mem_ids hm, hbal.held (htrack.mem_ids hm)⟩
    alive := by
      intro handle hm
      refine ⟨fun hl => habsent handle hm (hsettled.done hl), ?_⟩
      intro call hc hburden
      exact habsent handle hm (hsettled.pending call hc hburden)
    counted := by
      intro handle hm
      obtain ⟨e, he, hc⟩ := htrack.episode hm
      exact ⟨e, he, hc, htrack.isExclusive_iff hm he⟩
    detach_iff := by
      intro handle hm
      exact htrack.detach?_isSome hm
    detached := fun _ _ _ _ => hbal.of_detach?
    detach_reaches := by
      intro id others conn left hh hq hd
      have hreaches : Reaches ⟨s.ledger, s.calls, .lease id ::ₘ others, s.now⟩
          ⟨left, s.calls, others, s.now⟩ := detach?_reaches hq hd
      rwa [← hh] at hreaches
    detach_or_keep := by
      intro id hm
      exact htrack.detach_or_keep hm
    drop := by
      intro handle hm
      exact ⟨exists_drop hm, fun t => htrack.of_drop hbal.ids_nodup⟩
    giveBack := by
      intro m hm
      exact ⟨exists_giveBack hm, fun e t => hbal.of_giveBack hm⟩
    surrender := by
      intro m hm
      exact ⟨exists_surrender hm, fun e t => hbal.of_surrender hm⟩
    ended := by
      intro id
      have hl := hr.lent_flow (· == id)
      have hzero : (opening p).lentCount (· == id) = 0 := rfl
      have hone := hbal.once id
      refine ⟨?_, ?_⟩
      · simp only [List.count]
        omega
      · simp only [population] at hone
        split at hone <;> omega }
  refine ⟨horderly, ?_⟩
  intro later later' t t' hl hl' hlike
  obtain ⟨hledger, hcalls, -, hnow⟩ := (Alike.refl s).run hlike hl hl'
  exact ⟨hledger, hcalls, hnow⟩

theorem episodes_orderly_shared :
    ∃ (events : List (Event Nat)) (s : Traffic Nat),
      Run (opening solePool) events s ∧ s.handles = {.shared 1, .lease 1} ∧ Orderly events s := by
  have hr := run_soleLent.step (.share (Multiset.mem_singleton.mpr rfl))
  exact ⟨_, _, hr, rfl, (episodes_orderly build_solePool hr).1⟩

end Traffic

end ConnectionPool

import ConnectionPool.Proofs.Traffic.Return

/-!
# Members in traffic

The connections that a pool answers for, with what it remembers of them, wherever they are. A step
moves them about; it adds the connection that a factory call has made, notes the checkout of the one
that is handed out, and lets users change the ones they have.
-/

namespace ConnectionPool

variable {ω α κ : Type}

/-- The connection that a call has in its hands. -/
def Call.member? : Call α → Option (Member α)
  | .handingOut m => some m
  | .givingBack m => some m
  | .detaching m => some m
  | _ => none

theorem Call.inHand?_eq (call : Call α) : call.inHand? = call.member?.map Member.id := by
  cases call <;> rfl

theorem Call.member?_wake (call : Call α) : call.wake.member? = call.member? := by
  cases call <;> rfl

namespace Event

/-- A connection that has been made. -/
def births : Event α → List (Member α)
  | .made m => [m]
  | _ => []

/-- A connection of which a lease is made, as it was before. -/
def leases : Event α → List (Member α)
  | .lent m => [m]
  | _ => []

theorem arrivals_eq (e : Event α) : e.arrivals = e.births.map Member.id := by cases e <;> rfl

end Event

/-- What a call has in its hands after a section was in its hands before, was idle, or has just been
made; what is idle was so before or was given back. -/
theorem Call.Advance.hands {now : Nat} {p after : Pool α} {call : Call α} {e : Event α}
    {next : Option (Call α)} (h : call.Advance now p e after next) :
    (∀ m ∈ after.idle, m ∈ p.idle ∨ call.member? = some m) ∧
      ∀ c ∈ next, ∀ m, c.member? = some m → m ∈ p.idle ∨ e = .made m := by
  have kept (m : Member α) (hm : m ∈ p.idle) : m ∈ p.idle ∨ call.member? = some m := .inl hm
  cases h with
  | reuse hi =>
    obtain ⟨-, hidle, -⟩ := Pool.inspect_eq_reuse hi
    rw [hidle]
    refine ⟨fun m hm => .inl (List.mem_cons_of_mem _ hm), ?_⟩
    rintro c ⟨⟩ m ⟨⟩
    exact .inl List.mem_cons_self
  | reserve hi =>
    obtain ⟨-, -, -, rfl⟩ := Pool.inspect_eq_create.mp hi
    refine ⟨kept, ?_⟩
    rintro c ⟨⟩ m ⟨⟩
  | make =>
    refine ⟨kept, ?_⟩
    rintro c ⟨⟩ m ⟨⟩
    exact .inr rfl
  | pool ht =>
    obtain ⟨-, rfl⟩ := Pool.takeBack_eq_none.mp ht
    refine ⟨List.forall_mem_cons.mpr ⟨.inr rfl, kept⟩, ?_⟩
    rintro c ⟨⟩ m ⟨⟩
  | expel ht =>
    obtain ⟨-, -, rfl⟩ := Pool.takeBack_eq_some.mp ht
    refine ⟨kept, ?_⟩
    rintro c ⟨⟩ m ⟨⟩
  | finish =>
    rw [Errand.settle_idle]
    exact ⟨kept, by simp⟩
  | refuse | decline | expire => exact ⟨kept, by simp⟩
  | _ =>
    refine ⟨kept, ?_⟩
    rintro c ⟨⟩ m ⟨⟩

namespace Traffic

variable {s t u : Traffic α} {e : Event α} {events since before : List (Event α)} {m l : Member α}

/-- The connections a pool answers for: idle, in an episode, or in the hands of a call. -/
def members (s : Traffic α) : Multiset (Member α) :=
  (s.pool.idle : Multiset (Member α)) + (s.episodes.map Episode.member : Multiset (Member α)) +
    s.calls.filterMap Call.member?

theorem mem_members : m ∈ s.members ↔ m ∈ s.pool.idle ∨ (∃ x ∈ s.episodes, x.member = m) ∨
    ∃ call ∈ s.calls, call.member? = some m := by
  simp only [members, Multiset.mem_add, Multiset.mem_coe, List.mem_map, Multiset.mem_filterMap,
    or_assoc]

theorem map_id_members (s : Traffic α) : s.members.map Member.id = s.pool.idleIds + s.outIds := by
  have hcalls : (s.calls.filterMap Call.member?).map Member.id =
      s.calls.filterMap Call.inHand? := by
    rw [Multiset.map_filterMap]
    congr 1
    funext call
    exact call.inHand?_eq.symm
  have hout : ((s.episodes.map Episode.member : Multiset (Member α)).map Member.id) =
      (s.ledger.ids : Multiset Nat) := by
    rw [Multiset.map_coe, List.map_map]
    rfl
  rw [members, Multiset.map_add, Multiset.map_add, hcalls, hout, Multiset.map_coe, outIds,
    Multiset.add_assoc]
  rfl

namespace Balanced

theorem nodup_members (h : s.Balanced) : (s.members.map Member.id).Nodup :=
  s.map_id_members ▸ h.nodup

theorem member_inj (h : s.Balanced) (hm : m ∈ s.members) (hl : l ∈ s.members)
    (hid : m.id = l.id) : m = l :=
  Multiset.inj_on_of_nodup_map h.nodup_members m hm l hl hid

theorem population_pos (hm : m ∈ s.members) : 0 < s.population (· == m.id) := by
  rw [← count_idle_out, ← map_id_members]
  exact Multiset.count_pos.mpr (Multiset.mem_map_of_mem _ hm)

theorem lt_nextId (h : s.Balanced) (hm : m ∈ s.members) : m.id < s.pool.nextId := by
  have honce := h.once m.id
  have hpos := population_pos hm
  split at honce
  · assumption
  · omega

end Balanced

theorem Run.number_flow (hr : Run s events t) (id : Nat) :
    (if id < t.pool.nextId then 1 else 0) =
      (if id < s.pool.nextId then 1 else 0) +
        (events.flatMap Event.numbers).countP (· == id) := by
  induction hr with
  | refl => rfl
  | step _ hs ih =>
    have hf := hs.number_flow id
    rw [List.flatMap_cons, List.countP_append]
    omega

theorem Run.making_flow (hr : Run s events t) (p : Nat → Bool) :
    t.makingCount p + (events.flatMap Event.arrivals).countP p +
        (events.flatMap Event.wastes).countP p =
      s.makingCount p + (events.flatMap Event.numbers).countP p := by
  induction hr with
  | refl => rfl
  | step _ hs ih =>
    have hf := hs.making_flow p
    simp only [List.flatMap_cons, List.countP_append]
    omega

/-- All connections there ever were, as they joined the pool: those made since it was built, and
those made before. -/
def roll (p : Pool α) (events : List (Event α)) : List (Member α) :=
  events.flatMap Event.births ++ p.idle

theorem roll_append (p : Pool α) (since before : List (Event α)) :
    roll p (since ++ before) = since.flatMap Event.births ++ roll p before := by
  rw [roll, roll, List.flatMap_append, List.append_assoc]

theorem map_id_roll (p : Pool α) (events : List (Event α)) :
    (roll p events).map Member.id = events.flatMap Event.arrivals ++ p.idleIds := by
  have hbirths : (events.flatMap Event.births).map Member.id = events.flatMap Event.arrivals := by
    rw [List.map_flatMap]
    congr 1
    funext e
    exact e.arrivals_eq.symm
  rw [roll, List.map_append, hbirths]
  rfl

section Opening

variable {p : Pool α}

/-- No number is given twice, nor one that the pool gave while it was built. -/
theorem Run.nodup_numbers (hw : p.Warm) (hr : Run (opening p) events t) :
    (events.flatMap Event.numbers ++ p.idleIds).Nodup ∧
      ∀ id ∈ events.flatMap Event.numbers ++ p.idleIds, id < t.pool.nextId := by
  have hflow (id : Nat) : (if id < t.pool.nextId then 1 else 0) =
      (if id < p.nextId then 1 else 0) + (events.flatMap Event.numbers).count id :=
    hr.number_flow id
  have hidle (id : Nat) : p.idleIds.count id ≤ if id < p.nextId then 1 else 0 := by
    split
    · exact List.nodup_iff_count_le_one.mp hw.nodup id
    · rename_i hid
      rw [List.count_eq_zero_of_not_mem fun hm => hid (hw.lt_nextId id hm)]
  have hall (id : Nat) : (events.flatMap Event.numbers ++ p.idleIds).count id ≤
      if id < t.pool.nextId then 1 else 0 := by
    rw [List.count_append, hflow id]
    have hle := hidle id
    omega
  refine ⟨List.nodup_iff_count_le_one.mpr fun id => ?_, fun id hm => ?_⟩
  · have hle := hall id
    split at hle <;> omega
  · have hle := hall id
    have hpos := List.count_pos_iff.mpr hm
    split at hle
    · assumption
    · omega

/-- Each number on the roll was given once, and not to a connection that is still to be made. -/
theorem Run.nodup_roll (hw : p.Warm) (hr : Run (opening p) events t) :
    ((roll p events).map Member.id).Nodup ∧
      ∀ id, 0 < t.makingCount (· == id) → id ∉ (roll p events).map Member.id := by
  have hnumbers := List.nodup_iff_count_le_one.mp (hr.nodup_numbers hw).1
  have hcount (id : Nat) : ((roll p events).map Member.id).count id +
      t.makingCount (· == id) ≤ 1 := by
    have hflow := hr.making_flow (· == id)
    have hnone : (opening p).makingCount (· == id) = 0 := rfl
    have hone := hnumbers id
    rw [List.count_append, List.count] at hone
    rw [map_id_roll, List.count_append, List.count]
    omega
  refine ⟨List.nodup_iff_count_le_one.mpr fun id => ?_, fun id hmaking hm => ?_⟩
  · have hle := hcount id
    omega
  · have hle := hcount id
    have hpos := List.count_pos_iff.mpr hm
    omega

end Opening

/-- Where a connection that the pool answers for after an event was before it. -/
inductive Origin (s : Traffic α) (m : Member α) : Event α → Prop
  | kept {e : Event α} : m ∈ s.members → Origin s m e
  | made : Origin s m (.made m)
  | lent {l : Member α} : l ∈ s.members → l.recordCheckout = m → Origin s m (.lent l)
  | used {x : Episode α} {conn : α} : x ∈ s.episodes → { x.member with conn } = m →
      Origin s m (.used x.id conn)

theorem mem_members_of_idle (hm : m ∈ s.pool.idle) : m ∈ s.members := mem_members.mpr (.inl hm)

theorem mem_members_of_episode {x : Episode α} (hx : x ∈ s.episodes) : x.member ∈ s.members :=
  mem_members.mpr (.inr (.inl ⟨x, hx, rfl⟩))

theorem mem_members_of_call {call : Call α} (hc : call ∈ s.calls) (hm : call.member? = some m) :
    m ∈ s.members :=
  mem_members.mpr (.inr (.inr ⟨call, hc, hm⟩))

theorem members_subset (hm : m ∈ t.members) (hidle : ∀ m ∈ t.pool.idle, m ∈ s.members)
    (hepisodes : ∀ x ∈ t.episodes, x.member ∈ s.members)
    (hcalls : ∀ call ∈ t.calls, ∀ m, call.member? = some m → m ∈ s.members) :
    m ∈ s.members := by
  obtain hm | ⟨x, hx, rfl⟩ | ⟨call, hc, hcall⟩ := mem_members.mp hm
  · exact hidle m hm
  · exact hepisodes x hx
  · exact hcalls call hc m hcall

theorem Step.origin (h : Step s e t) (hm : m ∈ t.members) : Origin s m e := by
  have hidle : ∀ m ∈ s.pool.idle, m ∈ s.members := fun m => mem_members_of_idle
  have hepisodes : ∀ x ∈ s.episodes, x.member ∈ s.members := fun x => mem_members_of_episode
  have hcalls : ∀ call ∈ s.calls, ∀ m, call.member? = some m → m ∈ s.members :=
    fun call hc m => mem_members_of_call hc
  -- Handles are counted, and the connections in episodes stay the same.
  have relabel (hkept : ∀ x ∈ t.episodes, ∃ old ∈ s.episodes, x.member = old.member) :
      ∀ x ∈ t.episodes, x.member ∈ s.members := by
    intro x hx
    obtain ⟨old, hold, hsame⟩ := hkept x hx
    exact hsame ▸ hepisodes old hold
  -- A call that joins the others, with a connection of theirs in its hands or none.
  have join {call : Call α} (hcall : ∀ m, call.member? = some m → m ∈ s.members) :
      ∀ c ∈ call ::ₘ s.calls, ∀ m, c.member? = some m → m ∈ s.members := by
    intro c hc
    obtain rfl | hc := Multiset.mem_cons.mp hc
    · exact hcall
    · exact hcalls c hc
  cases h with
  | arrive => exact .kept (members_subset hm hidle hepisodes (join fun _ h => nomatch h))
  | @advance call others _ after next hc ha =>
    obtain ⟨hback, hnext⟩ := ha.hands
    have hcall : call ∈ s.calls := hc ▸ Multiset.mem_cons_self _ _
    obtain hm | ⟨x, hx, rfl⟩ | ⟨c, hin, hmember⟩ := mem_members.mp hm
    · cases hback m hm with
      | inl hwas => exact .kept (hidle m hwas)
      | inr hheld => exact .kept (hcalls call hcall m hheld)
    · exact .kept (hepisodes x hx)
    · cases mem_turn.mp hin with
      | inl hnew =>
        obtain hwas | rfl := hnext c hnew m hmember
        · exact .kept (hidle m hwas)
        · exact .made
      | inr hold => exact .kept (hcalls c (hc ▸ Multiset.mem_cons_of_mem hold) m hmember)
  | @lend l others hc =>
    have hl : l ∈ s.members := hcalls _ (hc ▸ Multiset.mem_cons_self _ _) l rfl
    obtain hm | ⟨x, hx, rfl⟩ | ⟨c, hin, hmember⟩ := mem_members.mp hm
    · exact .kept (hidle m hm)
    · obtain rfl | hx := List.mem_cons.mp hx
      · exact .lent hl rfl
      · exact .kept (hepisodes x hx)
    · exact .kept (hcalls c (hc ▸ Multiset.mem_cons_of_mem hin) m hmember)
  | @signal errand others woken hc =>
    refine .kept (members_subset hm hidle hepisodes ?_)
    intro c hin m hmember
    cases mem_turn.mp hin with
    | inl hnew =>
      cases hnew
      cases hmember
    | inr hin =>
      cases Multiset.mem_add.mp hin with
      | inl hold =>
        exact hcalls c (hc ▸ Multiset.mem_cons_of_mem (Multiset.mem_add.mpr (.inl hold))) m hmember
      | inr hwoken =>
        obtain ⟨old, hold, rfl⟩ := Multiset.mem_map.mp hwoken
        rw [Call.member?_wake] at hmember
        exact hcalls old (hc ▸ Multiset.mem_cons_of_mem (Multiset.mem_add.mpr (.inr hold))) m
          hmember
  | @broadcast errand others hc =>
    refine .kept (members_subset hm hidle hepisodes ?_)
    intro c hin m hmember
    cases mem_turn.mp hin with
    | inl hnew =>
      cases hnew
      cases hmember
    | inr hin =>
      obtain ⟨old, hold, rfl⟩ := Multiset.mem_map.mp hin
      rw [Call.member?_wake] at hmember
      exact hcalls old (hc ▸ Multiset.mem_cons_of_mem hold) m hmember
  | close =>
    exact .kept (members_subset hm (List.forall_mem_nil _) hepisodes (join fun _ h => nomatch h))
  | share | clone =>
    have hkept := relabel (Ledger.kept_update Episode.member fun _ => rfl)
    exact .kept (members_subset hm hidle hkept hcalls)
  | @use id conn =>
    obtain hm | ⟨x, hx, rfl⟩ | ⟨c, hin, hmember⟩ := mem_members.mp hm
    · exact .kept (hidle m hm)
    · obtain hx | ⟨old, hold, rfl, rfl⟩ := Ledger.mem_update hx
      · exact .kept (hepisodes x hx)
      · exact .used hold rfl
    · exact .kept (hcalls c hin m hmember)
  | @drop handle _ ledger _ hl =>
    have hp : ledger.pool = s.pool := Ledger.pool_of_letGo hl
    refine .kept (members_subset hm ?_ (relabel (Ledger.member_letGo hl)) hcalls)
    rw [pool, hp]
    exact hidle
  | dropLast _ hl =>
    obtain ⟨x, hx, -, rfl, rfl⟩ := Ledger.letGo_eq_some hl
    have hout := hepisodes x (List.mem_of_find?_eq_some hx)
    refine .kept (members_subset hm hidle ?_ (join fun m hmember => ?_))
    · exact fun y hy => hepisodes y (List.mem_of_mem_eraseP hy)
    · cases hmember
      exact hout
  | detach _ hl =>
    obtain ⟨x, hx, -, rfl, rfl⟩ := Ledger.takeOut?_eq_some.mp hl
    have hout := hepisodes x (List.mem_of_find?_eq_some hx)
    refine .kept (members_subset hm hidle ?_ (join fun m hmember => ?_))
    · exact fun y hy => hepisodes y (List.mem_of_mem_eraseP hy)
    · cases hmember
      exact hout
  | convert | keep | tick => exact .kept (members_subset hm hidle hepisodes hcalls)

end Traffic

end ConnectionPool

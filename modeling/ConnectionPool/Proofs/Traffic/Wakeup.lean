import ConnectionPool.Proofs.Traffic.Slots

/-!
# Wakeups

No caller sleeps while the pool has something for it: whatever is available is matched by signals
still to come and by callers that are up but have not looked yet. Once the pool is closed, callers
sleep only until the broadcast.
-/

namespace ConnectionPool

variable {ω α : Type}

/-- What a pool can grant at once: idle connections and free slots. -/
def Pool.units (p : Pool α) : Nat := p.idle.length + p.freeSlots

theorem Pool.units_freeSlot_le (p : Pool α) : p.freeSlot.units ≤ p.units + 1 := by
  simp only [units, freeSlots, freeSlot]
  omega

theorem Pool.units_of_full {p : Pool α} (h : p.inspect = .full) : p.units = 0 := by
  obtain ⟨-, hi, hm⟩ := inspect_eq_full.mp h
  simp [units, freeSlots, hi]
  omega

namespace Call

attribute [simp] isParked.eq_1 isParked.eq_2 isAwake.eq_1 isAwake.eq_2 isAwake.eq_3
  isSignalling.eq_1 isSignalling.eq_2 isBroadcasting.eq_1 isBroadcasting.eq_2

theorem isParked_wake (call : Call α) : call.wake.isParked = false := by cases call <;> rfl

theorem isBroadcasting_wake (call : Call α) : call.wake.isBroadcasting = call.isBroadcasting := by
  cases call <;> rfl

theorem isAwake_wake {call : Call α} (h : call.isParked) : call.wake.isAwake = true := by
  cases call <;> simp_all [wake]

theorem isSignalling_wake (call : Call α) : call.wake.isSignalling = call.isSignalling := by
  cases call <;> rfl

namespace Advance

variable {now : Nat} {pool after : Pool α} {call : Call α} {e : Event α} {next : Option (Call α)}

theorem no_broadcast (h : call.Advance now pool e after next) :
    next.toList.countP isBroadcasting = [call].countP isBroadcasting := by
  cases h <;> rfl

theorem parked_le (h : call.Advance now pool e after next) (hc : pool.closed = true) :
    next.toList.countP isParked ≤ [call].countP isParked := by
  cases h with
  | park hi =>
    rw [(Pool.inspect_eq_full.mp hi).1] at hc
    contradiction
  | _ => simp

/-- A section of a call on an open pool leaves nothing to grant, or else puts nobody to sleep and
pays for each unit that it adds with a signal and for each unmet wakeup with a unit. -/
theorem wakeup_flow (h : call.Advance now pool e after next) (hc : pool.closed = false) :
    after.units = 0 ∨
      next.toList.countP isParked ≤ [call].countP isParked ∧
        after.units + ([call].countP isSignalling + [call].countP isAwake) ≤
          pool.units + (next.toList.countP isSignalling + next.toList.countP isAwake) := by
  cases h with
  | refuse hi =>
    rw [Pool.inspect_eq_closed.mp hi] at hc
    contradiction
  | decline hi | expire hi | park hi =>
    have hu := Pool.units_of_full hi
    exact .inl hu
  | @reuse w r m after hi =>
    obtain ⟨-, hidle, hp⟩ := Pool.inspect_eq_reuse hi
    have hf : after.freeSlots = pool.freeSlots := by
      rw [hp]
      rfl
    have hu : after.units + 1 = pool.units := by
      rw [Pool.units, Pool.units, hidle, hf, List.length_cons]
      omega
    right
    cases r <;> simp <;> omega
  | @reserve w r after hi =>
    obtain ⟨-, -, hm, rfl⟩ := Pool.inspect_eq_create.mp hi
    have hu : pool.takeSlot.units + 1 = pool.units := by
      simp only [Pool.units, Pool.freeSlots, Pool.takeSlot]
      omega
    right
    cases r <;> simp <;> omega
  | wake | lapse => exact .inr (by simp)
  | number | make => exact .inr (by simp; rfl)
  | fail | abort | release =>
    have hu := pool.units_freeSlot_le
    exact .inr (by simpa using hu)
  | pool ht =>
    obtain ⟨-, rfl⟩ := Pool.takeBack_eq_none.mp ht
    right
    simp [Pool.units, Pool.addIdle, Pool.freeSlots]
    omega
  | expel ht =>
    rw [(Pool.takeBack_eq_some.mp ht).1] at hc
    contradiction
  | finish => exact .inr (by simp [Pool.units, Pool.freeSlots])

end Advance

end Call

namespace Traffic

variable {s t : Traffic α} {e : Event α} {events : List (Event α)}

def parkedCount (s : Traffic α) : Nat := s.calls.countP fun call => call.isParked

/-- Callers that are up and have not looked yet. -/
def awakeCount (s : Traffic α) : Nat := s.calls.countP fun call => call.isAwake

def signalCount (s : Traffic α) : Nat := s.calls.countP fun call => call.isSignalling

def broadcastCount (s : Traffic α) : Nat := s.calls.countP fun call => call.isBroadcasting

/-- Callers asleep will be seen to. -/
structure Attended (s : Traffic α) : Prop where
  of_open : s.pool.closed = false → s.parkedCount = 0 ∨
    s.pool.units ≤ s.signalCount + s.awakeCount
  of_closed : s.pool.closed = true → s.parkedCount = 0 ∨ 0 < s.broadcastCount

namespace Attended

theorem opening (p : Pool α) : (opening p).Attended := ⟨fun _ => .inl rfl, fun _ => .inl rfl⟩

theorem frame (h : s.Attended) (hu : t.pool.units = s.pool.units)
    (hc : t.pool.closed = s.pool.closed) (hp : t.parkedCount = s.parkedCount)
    (ha : t.awakeCount = s.awakeCount) (hs : t.signalCount = s.signalCount)
    (hb : t.broadcastCount = s.broadcastCount) : t.Attended := by
  obtain ⟨hopen, hclosed⟩ := h
  rw [← hc] at hopen hclosed
  rw [← hp, ← hu, ← ha, ← hs] at hopen
  rw [← hp, ← hb] at hclosed
  exact ⟨hopen, hclosed⟩

theorem advance (h : s.Attended) {call : Call α} {others : Multiset (Call α)} {after : Pool α}
    {next : Option (Call α)} (hc : s.calls = call ::ₘ others)
    (ha : call.Advance s.now s.pool e after next) : (s.turn after next others).Attended := by
  have hparked := countP_turn hc after next Call.isParked
  have hawake := countP_turn hc after next Call.isAwake
  have hsignals := countP_turn hc after next Call.isSignalling
  have hbroadcasts := countP_turn hc after next Call.isBroadcasting
  have hb := ha.no_broadcast
  constructor
  · intro hopen
    have ho := h.of_open (ha.books.closed_eq.symm.trans hopen)
    have hf := ha.wakeup_flow (ha.books.closed_eq.symm.trans hopen)
    have hu : (s.turn after next others).pool.units = after.units := rfl
    simp only [parkedCount, awakeCount, signalCount] at *
    omega
  · intro hclosed
    have ho := h.of_closed (ha.books.closed_eq.symm.trans hclosed)
    have hf := ha.parked_le (ha.books.closed_eq.symm.trans hclosed)
    simp only [parkedCount, broadcastCount] at *
    omega

theorem signal (h : s.Attended) {errand : Errand α} {others woken : Multiset (Call α)}
    (hc : s.calls = .signalling errand ::ₘ (others + woken)) (hw : ∀ call ∈ woken, call.isParked)
    (hn : woken = 0 → ∀ call ∈ others, ¬ call.isParked) :
    (s.turn s.pool (some (.finishing errand)) (others + woken.map Call.wake)).Attended := by
  have hasleep : (woken.countP fun call => call.isAwake) = 0 := by
    rw [Multiset.countP_eq_zero]
    intro call hm
    have hp := hw call hm
    cases call <;> simp_all
  have hup : ((woken.map Call.wake).countP fun call => call.isAwake) = woken.card := by
    rw [Multiset.countP_map, Multiset.filter_eq_self.mpr]
    exact fun call hm => Call.isAwake_wake (hw call hm)
  have hnone : ((woken.map Call.wake).countP fun call => call.isParked) = 0 := by
    rw [Multiset.countP_map, Multiset.card_eq_zero, Multiset.filter_eq_nil]
    intro call _
    simp [Call.isParked_wake]
  have hbroadcasts := Call.countP_wake Call.isBroadcasting_wake woken
  have hsignals := Call.countP_wake Call.isSignalling_wake woken
  constructor
  · intro hopen
    have ho := h.of_open hopen
    by_cases hz : woken = 0
    · left
      subst hz
      simpa [parkedCount, turn, Multiset.countP_eq_zero] using hn rfl
    · have hpos := Multiset.card_pos.mpr hz
      simp [parkedCount, awakeCount, signalCount, pool, turn, hc, hasleep, hup, hnone,
        hsignals] at ho ⊢
      omega
  · intro hclosed
    have ho := h.of_closed hclosed
    simp [parkedCount, broadcastCount, turn, hc, hnone, hbroadcasts] at ho ⊢
    omega

theorem broadcast (s : Traffic α) {errand : Errand α} {others : Multiset (Call α)} :
    (s.turn s.pool (some (.finishing errand)) (others.map Call.wake)).Attended := by
  have hnone :
      (s.turn s.pool (some (.finishing errand)) (others.map Call.wake)).parkedCount = 0 := by
    simp [parkedCount, turn, Multiset.countP_map, Call.isParked_wake]
  exact ⟨fun _ => .inl hnone, fun _ => .inl hnone⟩

theorem close (s : Traffic α) {errand : Errand α} :
    (s.turn s.pool.shut.2 (some (.broadcasting errand)) s.calls).Attended := by
  refine ⟨fun hopen => ?_, fun _ => .inr ?_⟩
  · cases hopen
  · simp [broadcastCount, turn]

theorem step (h : s.Attended) (hs : Step s e t) : t.Attended := by
  cases hs with
  | advance hc ha => exact h.advance hc ha
  | signal hc hw hn => exact h.signal hc hw hn
  | broadcast => exact .broadcast s
  | close => exact .close s
  | arrive =>
    exact h.frame rfl rfl (by simp [parkedCount]) (by simp [awakeCount]) (by simp [signalCount])
      (by simp [broadcastCount])
  | lend hc =>
    exact h.frame rfl rfl (by simp [parkedCount, Traffic.lend, hc])
      (by simp [awakeCount, Traffic.lend, hc]) (by simp [signalCount, Traffic.lend, hc])
      (by simp [broadcastCount, Traffic.lend, hc])
  | @drop handle _ ledger _ hl =>
    have hp : ledger.pool = s.pool := Ledger.pool_of_letGo hl
    exact h.frame (congrArg Pool.units hp) (congrArg Pool.closed hp) rfl rfl rfl rfl
  | @dropLast handle _ _ ledger _ hl =>
    have hp : ledger.pool = s.pool := Ledger.pool_of_letGo hl
    exact h.frame (congrArg Pool.units hp) (congrArg Pool.closed hp) (by simp [parkedCount])
      (by simp [awakeCount]) (by simp [signalCount]) (by simp [broadcastCount])
  | detach hh hl =>
    obtain ⟨-, -, -, -, rfl⟩ := Ledger.takeOut?_eq_some.mp hl
    exact h.frame rfl rfl (by simp [parkedCount]) (by simp [awakeCount]) (by simp [signalCount])
      (by simp [broadcastCount])
  | _ => exact h.frame rfl rfl rfl rfl rfl rfl

theorem run (h : s.Attended) (hr : Run s events t) : t.Attended := by
  induction hr with
  | refl => exact h
  | step _ hs ih => exact ih.step hs

/-- Where only callers asleep are left, there is nothing for them: the pool is open, but has no idle
connection and no free slot. -/
theorem stalled (h : s.Attended) (hp : ∀ call ∈ s.calls, call.isParked) (hne : s.calls ≠ 0) :
    s.pool.closed = false ∧ s.pool.units = 0 := by
  have hparked : s.parkedCount = s.calls.card := Multiset.countP_eq_card.mpr hp
  have hpos : 0 < s.parkedCount := hparked ▸ Multiset.card_pos.mpr hne
  have none (q : Call α → Bool) (hq : ∀ call : Call α, call.isParked → q call = false) :
      (s.calls.countP fun call => q call) = 0 := by
    rw [Multiset.countP_eq_zero]
    intro call hm
    simp [hq call (hp call hm)]
  have ha : s.awakeCount = 0 := none _ fun call hc => by cases call <;> simp_all
  have hs : s.signalCount = 0 := none _ fun call hc => by cases call <;> simp_all
  have hb : s.broadcastCount = 0 := none _ fun call hc => by cases call <;> simp_all
  cases hc : s.pool.closed with
  | false =>
    have ho := h.of_open hc
    exact ⟨rfl, by omega⟩
  | true =>
    have ho := h.of_closed hc
    omega

end Attended

/-- Whatever a pool that was built has to grant is matched by signals to come and by callers that
are up, in every state that calls on it can lead to. Callers sleep on a closed pool only until the
broadcast, and if only callers asleep are left there is nothing for them. -/
theorem wakeups_kept {k : Connector ω α} {settings : PoolSettings}
    {script : Option (List FactoryCall)} {world after : ω} {p : Pool α} {rest : List FactoryCall}
    (hb : Pool.build k settings script world = (.ok (p, rest), after))
    (hr : Run (opening p) events s) :
    (s.pool.closed = false → 0 < s.parkedCount →
        s.pool.idle.length + (settings.maxConnections - s.pool.created) ≤
          s.signalCount + s.awakeCount) ∧
      (s.pool.closed = true → 0 < s.parkedCount → 0 < s.broadcastCount) ∧
      ((∀ call ∈ s.calls, call.isParked) → s.calls ≠ 0 →
        s.pool.closed = false ∧ s.pool.idle = [] ∧
          s.pool.created = settings.maxConnections) := by
  obtain ⟨-, hset, -⟩ := Pool.build_ok hb
  have hs : s.pool.settings = settings := hr.settings_eq.trans hset
  have hatt := (Attended.opening p).run hr
  have hbal := (Balanced.of_build hb).run hr
  have hl := hbal.created_le
  have hu : s.pool.units = s.pool.idle.length + (settings.maxConnections - s.pool.created) := by
    rw [Pool.units, Pool.freeSlots, hs]
  rw [hs] at hl
  refine ⟨fun hc hp => ?_, fun hc hp => ?_, fun hp hne => ?_⟩
  · have ho := hatt.of_open hc
    omega
  · have ho := hatt.of_closed hc
    omega
  · obtain ⟨hc, hz⟩ := hatt.stalled hp hne
    refine ⟨hc, List.eq_nil_of_length_eq_zero ?_, ?_⟩ <;> omega

private theorem run_soleReturned :
    Run (opening solePool)
      [.pooled ⟨0, ⟨1, true, 1⟩⟩, .dropped (.lease 1), .parked .endless .arrival,
        .arrived .endless, .lent ⟨0, .fresh 1⟩, .reused .none .arrival ⟨0, .fresh 1⟩,
        .arrived .none]
      ⟨⟨({ solePool with idle := [] }.countCheckout).addIdle ⟨0, ⟨1, true, 1⟩⟩, []⟩,
        .signalling .countReturn ::ₘ .parked .endless ::ₘ 0, 0, 0⟩ := by
  have harrived := run_soleLent.step (.arrives (show Patience.endless.StartsAt 0 from trivial))
  have hparked := harrived.step (.goesOn (.park rfl rfl nofun))
  have hdropped := hparked.step (.dropsLast rfl)
  exact hdropped.step (.goesOn (.pool rfl))

/-- The signal for the sleeping caller is still to come. -/
theorem wakeups_kept_returned :
    ∃ (events : List (Event Nat)) (s : Traffic Nat),
      Run (opening solePool) events s ∧ s.pool.closed = false ∧ 0 < s.parkedCount ∧
      s.pool.idle.length + (solePool.settings.maxConnections - s.pool.created) ≤
        s.signalCount + s.awakeCount :=
  ⟨_, _, run_soleReturned, rfl, Nat.one_pos,
    (wakeups_kept build_solePool run_soleReturned).1 rfl Nat.one_pos⟩

end Traffic

end ConnectionPool

import ConnectionPool.Proofs.Build
import ConnectionPool.Proofs.Traffic.Flow
import Mathlib.Algebra.GroupWithZero.Nat

/-!
# Slots

A pool answers for no more connections than it may hold, and for each of them once. However calls
interleave, its books agree with the connections idle and out and the slots reserved for calls whose
factory has not ended.
-/

namespace ConnectionPool

variable {ω α : Type}

/-- The number of the connection that a call has in its hands. -/
def Call.inHand? : Call α → Option Nat
  | .handingOut m => some m.id
  | .givingBack m => some m.id
  | .detaching m => some m.id
  | _ => none

namespace Traffic

variable {s t : Traffic α} {e : Event α} {events : List (Event α)}

/-- The numbers of the connections out: in an episode or in the hands of a call. -/
def outIds (s : Traffic α) : Multiset Nat := s.ledger.ids + s.calls.filterMap Call.inHand?

private theorem countP_inHand (calls : Multiset (Call α)) (p : Nat → Bool) :
    (calls.filterMap Call.inHand?).countP (fun id => p id) =
      (calls.countP fun call => call.offers p) + calls.countP fun call => call.brings p := by
  induction calls using Multiset.induction_on with
  | empty => rfl
  | cons call calls ih =>
    cases call with
    | handingOut m | givingBack m | detaching m =>
      rw [Multiset.filterMap_cons_some Call.inHand? _ _ (b := m.id) rfl]
      simp [Multiset.countP_cons, ih]
      omega
    | _ =>
      rw [Multiset.filterMap_cons_none _ _ rfl]
      simp [ih]

theorem countP_outIds (s : Traffic α) (p : Nat → Bool) :
    s.outIds.countP (fun id => p id) = s.offeredCount p + s.lentCount p := by
  have hl : Multiset.countP (fun id => p id) (s.ledger.ids : Multiset Nat) =
      s.ledger.ids.countP p := by simp
  rw [outIds, Multiset.countP_add, countP_inHand, hl, offeredCount, lentCount]
  omega

theorem card_outIds (s : Traffic α) :
    s.outIds.card = s.offeredCount (fun _ => true) + s.lentCount (fun _ => true) := by
  rw [← countP_outIds]
  exact (Multiset.countP_eq_card.mpr fun _ _ => rfl).symm

theorem count_idle_out (s : Traffic α) (id : Nat) :
    Multiset.count id (s.pool.idleIds + s.outIds) = s.population (· == id) := by
  have ho : s.outIds.count id = s.outIds.countP (fun i => i == id) :=
    Multiset.countP_congr rfl fun i _ => by rw [beq_iff_eq, eq_comm (a := i)]
  have hi : s.pool.idleIds.count id = s.idleCount (· == id) := by
    rw [Pool.idleIds, List.count, List.countP_map]
    rfl
  rw [Multiset.count_add, Multiset.coe_count, ho, countP_outIds, hi, population]
  omega

/-- The books of a pool agree with what it answers for. -/
structure Balanced (s : Traffic α) : Prop where
  created_eq : s.pool.created = s.population (fun _ => true) + s.reservedCount
  created_le : s.pool.created ≤ s.pool.settings.maxConnections
  /-- Each number was given to one connection, made or in the making. -/
  once : ∀ id, s.population (· == id) + s.makingCount (· == id) ≤
    if id < s.pool.nextId then 1 else 0

namespace Balanced

theorem opening {p : Pool α} (h : p.Warm) (hle : p.created ≤ p.settings.maxConnections) :
    (opening p).Balanced where
  created_eq := by
    rw [Traffic.opening, pool, h.created_eq]
    simp [population, idleCount, offeredCount, lentCount, reservedCount, Ledger.ids]
  created_le := hle
  once := by
    intro id
    have hc : (Traffic.opening p).population (· == id) = p.idleIds.count id := by
      rw [← count_idle_out]
      simp [Traffic.opening, outIds, Ledger.ids]
    have hm : (Traffic.opening p).makingCount (· == id) = 0 := rfl
    rw [hc, hm]
    split
    · exact List.nodup_iff_count_le_one.mp h.nodup id
    · rename_i hid
      rw [List.count_eq_zero_of_not_mem fun hm => hid (h.lt_nextId id hm)]

theorem of_build {k : Connector ω α} {settings : PoolSettings} {script : Option (List FactoryCall)}
    {world after : ω} {p : Pool α} {rest : List FactoryCall}
    (hb : Pool.build k settings script world = (.ok (p, rest), after)) :
    (Traffic.opening p).Balanced := by
  obtain ⟨hwarm, hset, hcreated, -, hle⟩ := Pool.build_ok hb
  exact opening hwarm (by rw [hcreated, hset]; exact hle)

/-- No step gives up more slots than the books have. -/
theorem covered (h : s.Balanced) (hs : Step s e t) :
    e.forfeits ≤ s.pool.created ∧ t.pool.created + e.forfeits = s.pool.created + e.claims := by
  have hp := hs.population_flow fun _ => true
  have hr := hs.reserved_flow
  have hc := h.created_eq
  have hf := hs.created_flow
  have he : e.claims = 0 ∨ e.forfeits = 0 := by cases e <;> first | exact .inl rfl | exact .inr rfl
  simp only [List.countP_true] at hp
  simp only [Event.forfeits] at *
  omega

theorem step (h : s.Balanced) (hs : Step s e t) : t.Balanced where
  created_eq := by
    have hp := hs.population_flow fun _ => true
    have hr := hs.reserved_flow
    have hc := h.created_eq
    have hf := h.covered hs
    simp only [List.countP_true, Event.forfeits] at hp hf
    omega
  created_le := by
    have hf := h.covered hs
    have hl := h.created_le
    have hr := hs.claims_room
    rw [hs.settings_eq]
    omega
  once := by
    intro id
    have hp := hs.population_flow (· == id)
    have hm := hs.making_flow (· == id)
    have ho := h.once id
    have hn := hs.number_flow id
    omega

theorem run (h : s.Balanced) (hr : Run s events t) : t.Balanced := by
  induction hr with
  | refl => exact h
  | step _ hs ih => exact ih.step hs

theorem created_eq_out (h : s.Balanced) :
    s.pool.created = s.pool.idle.length + s.outIds.card + s.reservedCount := by
  have hc := h.created_eq
  rw [card_outIds, hc, population, idleCount, List.countP_true]
  omega

theorem idle_le (h : s.Balanced) : s.pool.idle.length ≤ s.pool.created := by
  have hc := h.created_eq_out
  omega

theorem nodup (h : s.Balanced) : (s.pool.idleIds + s.outIds : Multiset Nat).Nodup := by
  rw [Multiset.nodup_iff_count_le_one]
  intro id
  have ho := h.once id
  rw [count_idle_out]
  split at ho <;> omega

end Balanced

theorem Run.settings_eq (hr : Run s events t) : t.pool.settings = s.pool.settings := by
  induction hr with
  | refl => rfl
  | step _ hs ih => rw [hs.settings_eq, ih]

theorem Run.idle_flow (hr : Run s events t) (p : Nat → Bool) :
    t.idleCount p + (events.flatMap Event.reuses).countP p +
        (events.flatMap Event.evictions).countP p =
      s.idleCount p + (events.flatMap Event.returns).countP p := by
  induction hr with
  | refl => rfl
  | step _ hs ih =>
    have hf := hs.idle_flow p
    simp only [List.flatMap_cons, List.countP_append]
    omega

theorem Balanced.slot_flow (h : s.Balanced) (hr : Run s events t) :
    t.pool.created + (events.map Event.forfeits).sum =
      s.pool.created + (events.map Event.claims).sum := by
  induction hr with
  | refl => rfl
  | step hr hs ih =>
    have hf := ((h.run hr).covered hs).2
    simp only [List.map_cons, List.sum_cons]
    omega

/-- The books of a pool that was built agree with what it answers for, in every state that calls on
it can lead to, and so does its status. None of its counts falls below zero. -/
theorem slots_accounted {k : Connector ω α} {settings : PoolSettings}
    {script : Option (List FactoryCall)} {world after : ω} {p : Pool α} {rest : List FactoryCall}
    (hb : Pool.build k settings script world = (.ok (p, rest), after))
    (hr : Run (opening p) events s) :
    s.pool.created = s.pool.idle.length + s.outIds.card + s.reservedCount ∧
      s.pool.created ≤ settings.maxConnections ∧
      (s.pool.idleIds + s.outIds : Multiset Nat).Nodup ∧
      (∀ e t, Step s e t →
        e.forfeits ≤ s.pool.created ∧ t.pool.created + e.forfeits = s.pool.created + e.claims) ∧
      s.pool.idle.length ≤ s.pool.created ∧
      s.pool.status.available = s.pool.idle.length ∧
      s.pool.status.inUse = s.outIds.card + s.reservedCount ∧
      s.pool.status.total = s.pool.created ∧
      s.pool.status.available + s.pool.status.inUse = s.pool.status.total ∧
      s.pool.status.total ≤ s.pool.status.max ∧ s.pool.status.max = settings.maxConnections := by
  obtain ⟨-, hset, -⟩ := Pool.build_ok hb
  have hbal := (Balanced.of_build hb).run hr
  have hs : s.pool.settings = settings := hr.settings_eq.trans hset
  have hc := hbal.created_eq_out
  have hl := hbal.created_le
  rw [hs] at hl
  refine ⟨hc, hl, hbal.nodup, fun e t => hbal.covered, hbal.idle_le, rfl, ?_, rfl, ?_, ?_, ?_⟩
  · change s.pool.created - s.pool.idle.length = s.outIds.card + s.reservedCount
    omega
  · exact Nat.add_sub_cancel' hbal.idle_le
  · simpa [Pool.status, hs] using hl
  · rw [Pool.status, hs]

theorem run_soleLent :
    Run (opening solePool)
      [.lent ⟨0, .fresh 1⟩, .reused .none .arrival ⟨0, .fresh 1⟩, .arrived .none]
      ⟨⟨{ solePool with idle := [] }.countCheckout, [⟨⟨0, ⟨1, true, 1⟩⟩, 1⟩]⟩, 0, .lease 1 ::ₘ 0,
        0⟩ :=
  .step (.step (.step .refl (.arrive trivial)) (.goesOn (.reuse rfl))) .lends

theorem slots_accounted_lent :
    ∃ (events : List (Event Nat)) (s : Traffic Nat),
      Run (opening solePool) events s ∧ s.handles = {.lease 1} ∧
      s.pool.created = s.pool.idle.length + s.outIds.card + s.reservedCount :=
  ⟨_, _, run_soleLent, rfl, (slots_accounted build_solePool run_soleLent).1⟩

end Traffic

end ConnectionPool

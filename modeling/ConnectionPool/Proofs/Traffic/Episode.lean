import ConnectionPool.Proofs.Traffic.Slots
import Mathlib.Data.Multiset.UnionInter

/-!
# Episodes in traffic

The ledger counts exactly the live handles of each episode, so an episode ends with its last handle
and no connection comes back or goes away under a handle.
-/

namespace ConnectionPool

variable {ω α : Type}

namespace Traffic

variable {s t u : Traffic α} {e : Event α} {events : List (Event α)}

def handlesOn (s : Traffic α) (id : Nat) : Nat := s.handles.countP fun handle => handle.id = id

theorem Balanced.ids_nodup (h : s.Balanced) : s.ledger.ids.Nodup := by
  have ho := (Multiset.nodup_add.mp h.nodup).2.1
  exact (Multiset.nodup_add.mp ho).1

theorem Balanced.notMem_ids_of_handingOut (h : s.Balanced) {m : Member α}
    {others : Multiset (Call α)} (hc : s.calls = .handingOut m ::ₘ others) :
    m.id ∉ s.ledger.ids := by
  have ho := (Multiset.nodup_add.mp h.nodup).2.1
  have hd := (Multiset.nodup_add.mp ho).2.2
  intro hm
  refine Multiset.disjoint_left.mp hd (Multiset.mem_coe.mpr hm) ?_
  rw [hc, Multiset.filterMap_cons_some Call.inHand? _ _ (b := m.id) rfl]
  exact Multiset.mem_cons_self _ _

/-- The ledger has an episode for each connection with live handles, and counts them. -/
structure Tracked (s : Traffic α) : Prop where
  counted : ∀ id, s.handlesOn id = s.ledger.handleCount id
  live : ∀ id ∈ s.ledger.ids, 0 < s.ledger.handleCount id

namespace Tracked

theorem opening (p : Pool α) : (opening p).Tracked :=
  ⟨fun _ => rfl, List.forall_mem_nil _⟩

/-- A step that changes neither handles nor what the ledger counts. -/
theorem frame (h : s.Tracked) (hh : t.handles = s.handles) (hi : t.ledger.ids = s.ledger.ids)
    (hc : ∀ id, t.ledger.handleCount id = s.ledger.handleCount id) : t.Tracked := by
  refine ⟨fun id => ?_, fun id hid => ?_⟩
  · rw [hc, handlesOn, hh]
    exact h.counted id
  · rw [hc]
    exact h.live id (hi ▸ hid)

theorem mem_ids (h : s.Tracked) {handle : Handle} (hm : handle ∈ s.handles) :
    handle.id ∈ s.ledger.ids := by
  have hpos : 0 < s.handlesOn handle.id := Multiset.countP_pos.mpr ⟨handle, hm, rfl⟩
  rw [h.counted] at hpos
  obtain ⟨e, he, -⟩ := Ledger.episode?_of_handleCount hpos
  exact (Ledger.episode?_isSome _ _).mp (Option.isSome_of_eq_some he)

theorem addHandle (h : s.Tracked) (handle : Handle) (hid : handle.id ∈ s.ledger.ids) :
    { s with ledger := s.ledger.addHandle handle.id, handles := handle ::ₘ s.handles }.Tracked := by
  have hc := Ledger.handleCount_addHandle hid
  refine ⟨fun id => ?_, fun id hm => ?_⟩
  · rw [hc, ← h.counted, handlesOn, handlesOn, Multiset.countP_cons]
    split <;> simp_all [eq_comm]
  · rw [Ledger.ids_addHandle] at hm
    have hl := h.live id hm
    rw [hc]
    split <;> omega

theorem pos (h : s.Tracked) {handle : Handle} (hm : handle ∈ s.handles) :
    0 < s.ledger.handleCount handle.id := h.live _ (h.mem_ids hm)

theorem drop (h : s.Tracked) {handle : Handle} {others : Multiset Handle} {ledger : Ledger α}
    (hh : s.handles = handle ::ₘ others) (hl : s.ledger.letGo handle.id = (none, ledger)) :
    { s with ledger, handles := others }.Tracked := by
  have hpos := h.pos (hh ▸ Multiset.mem_cons_self handle others)
  obtain ⟨hlt, hf⟩ := Ledger.handleCount_letGo hpos hl
  refine ⟨fun id => ?_, fun id hm => ?_⟩
  · have hc := h.counted id
    rw [handlesOn, hh, Multiset.countP_cons] at hc
    rw [hf, handlesOn]
    by_cases hid : id = handle.id
    · rw [if_pos hid.symm] at hc
      rw [if_pos hid]
      exact Nat.eq_sub_of_add_eq hc
    · rw [if_neg (Ne.symm hid)] at hc
      rw [if_neg hid]
      exact hc
  · rw [Ledger.ids_letGo hl] at hm
    have hlive := h.live id hm
    rw [hf]
    split
    · rename_i hid
      rw [hid]
      omega
    · exact hlive

theorem finish (h : s.Tracked) (hn : s.ledger.ids.Nodup) {handle : Handle}
    {others : Multiset Handle} (calls : Multiset (Call α)) (hh : s.handles = handle ::ₘ others)
    (hle : s.ledger.handleCount handle.id ≤ 1) :
    { s with ledger := s.ledger.finish handle.id, calls, handles := others }.Tracked := by
  have hf := Ledger.handleCount_finish hn handle.id
  refine ⟨fun id => ?_, fun id hm => ?_⟩
  · have hc := h.counted id
    rw [handlesOn, hh, Multiset.countP_cons] at hc
    rw [hf, handlesOn]
    by_cases hid : id = handle.id
    · rw [if_pos hid.symm] at hc
      rw [if_pos hid]
      have hone : others.countP (fun handle => handle.id = id) + 1 ≤ 1 := hc.le.trans (hid ▸ hle)
      exact Nat.le_zero.mp (Nat.le_of_succ_le_succ hone)
    · rw [if_neg (Ne.symm hid)] at hc
      rw [if_neg hid]
      exact hc
  · rw [Ledger.ids_finish, hn.mem_erase_iff] at hm
    rw [hf, if_neg hm.1]
    exact h.live id hm.2

theorem lend (h : s.Tracked) (hb : s.Balanced) {m : Member α} {others : Multiset (Call α)}
    (hc : s.calls = .handingOut m ::ₘ others) : (s.lend m others).Tracked := by
  have hnone : s.ledger.handleCount m.id = 0 := by
    by_contra hpos
    obtain ⟨e, he, -⟩ := Ledger.episode?_of_handleCount (Nat.pos_of_ne_zero hpos)
    exact hb.notMem_ids_of_handingOut hc
      ((Ledger.episode?_isSome _ _).mp (Option.isSome_of_eq_some he))
  have hs (id : Nat) : (s.lend m others).ledger.handleCount id =
      if m.id = id then 1 else s.ledger.handleCount id := Ledger.handleCount_start _ _ _
  refine ⟨fun id => ?_, fun id hm => ?_⟩
  · have hcount := h.counted id
    have hh : (s.lend m others).handlesOn id =
        s.handlesOn id + if m.id = id then 1 else 0 := Multiset.countP_cons _ _ _
    rw [hs, hh]
    split
    · rename_i hid
      rw [hcount, ← hid, hnone]
    · exact hcount
  · rw [hs]
    split
    · exact Nat.one_pos
    · rename_i hid
      obtain rfl | hm := List.mem_cons.mp hm
      · exact absurd rfl hid
      · exact h.live id hm

theorem step (h : s.Tracked) (hb : s.Balanced) (hs : Step s e t) : t.Tracked := by
  cases hs with
  | lend hc => exact h.lend hb hc
  | @share id hm | @clone id hm =>
    have hid := h.mem_ids hm
    exact h.addHandle (.shared id) hid
  | convert hh =>
    refine ⟨fun id => ?_, h.live⟩
    rw [← h.counted, handlesOn, handlesOn, hh, Multiset.countP_cons, Multiset.countP_cons]
    rfl
  | use =>
    exact h.frame rfl (Ledger.ids_setConnection _ _ _) (Ledger.handleCount_setConnection _ _ _)
  | drop hh hl => exact h.drop hh hl
  | dropLast hh hl =>
    obtain ⟨e, he, hle, -, rfl⟩ := Ledger.letGo_eq_some hl
    exact h.finish hb.ids_nodup _ hh (Ledger.handleCount_of_episode he ▸ hle)
  | detach hh hl =>
    obtain ⟨e, he, hle, -, rfl⟩ := Ledger.takeOut?_eq_some.mp hl
    exact h.finish hb.ids_nodup _ hh (Ledger.handleCount_of_episode he ▸ hle.le)
  | _ => exact h.frame rfl rfl fun _ => rfl

theorem run (h : s.Tracked) (hb : s.Balanced) (hr : Run s events t) : t.Tracked := by
  induction hr with
  | refl => exact h
  | step hr hs ih => exact ih.step (hb.run hr) hs

end Tracked

end Traffic

end ConnectionPool

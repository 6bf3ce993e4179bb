import ConnectionPool.Proofs.Traffic.Basic

/-!
# The order of drops

What a step does to a pool depends on the event only, and a drop does the same whichever handle of
the episode goes. So two runs that agree in all but that leave the pool in the same state.
-/

namespace ConnectionPool

variable {α : Type}

namespace Event

/-- The same event, but for the handle of an episode that is dropped. -/
inductive Like : Event α → Event α → Prop
  | same (e : Event α) : Like e e
  | dropped {handle other : Handle} : handle.id = other.id →
      Like (.dropped handle) (.dropped other)

end Event

/-- The event of a section decides the call, the books after it and what becomes of the call. -/
theorem Call.Advance.unique {now : Nat} {p after after' : Pool α} {call call' : Call α}
    {e : Event α} {next next' : Option (Call α)} (h : call.Advance now p e after next)
    (h' : call'.Advance now p e after' next') : call = call' ∧ after = after' ∧ next = next' := by
  cases h with
  | reuse hi =>
    cases h' with
    | reuse hi' =>
      rw [hi] at hi'
      cases hi'
      exact ⟨rfl, rfl, rfl⟩
  | reserve hi =>
    cases h' with
    | reserve hi' =>
      rw [hi] at hi'
      cases hi'
      exact ⟨rfl, rfl, rfl⟩
  | pool ht =>
    cases h' with
    | pool ht' =>
      rw [ht] at ht'
      cases ht'
      exact ⟨rfl, rfl, rfl⟩
  | expel ht =>
    cases h' with
    | expel ht' =>
      obtain ⟨-, rfl, rfl⟩ := Pool.takeBack_eq_some.mp ht
      obtain ⟨-, rfl, rfl⟩ := Pool.takeBack_eq_some.mp ht'
      exact ⟨rfl, rfl, rfl⟩
  | _ =>
    cases h'
    exact ⟨rfl, rfl, rfl⟩

namespace Traffic

variable {s s' t t' : Traffic α} {e e' : Event α}

/-- The same state but for the kinds of handles. -/
structure Alike (s t : Traffic α) : Prop where
  ledger : s.ledger = t.ledger
  calls : s.calls = t.calls
  handles : s.handles.map Handle.id = t.handles.map Handle.id
  now : s.now = t.now

theorem Step.of_advance {now : Nat} {p after : Pool α} {call : Call α} {next : Option (Call α)}
    (ha : call.Advance now p e after next) (h : Step s e t) :
    ∃ call others after next, s.calls = call ::ₘ others ∧
      call.Advance s.now s.pool e after next ∧ t = s.turn after next others := by
  cases h with
  | advance hc ha => exact ⟨_, _, _, _, hc, ha, rfl⟩
  | _ => cases ha

theorem Step.of_dropped {handle : Handle} (h : Step s (.dropped handle) t) :
    s.handles = handle ::ₘ t.handles ∧ t.ledger = (s.ledger.letGo handle.id).2 ∧
      t.calls = ((s.ledger.letGo handle.id).1.map Call.givingBack).toList + s.calls ∧
      t.now = s.now := by
  cases h with
  | advance _ ha => cases ha
  | drop hh hl =>
    rw [hl]
    exact ⟨hh, rfl, by simp, rfl⟩
  | dropLast hh hl =>
    rw [hl]
    exact ⟨hh, rfl, rfl, rfl⟩

theorem Step.of_detached {m : Member α} (h : Step s (.detached m) t) :
    ∃ id, m.metadata.id = id ∧ s.handles = .lease id ::ₘ t.handles ∧
      s.ledger.takeOut? id = some (m, t.ledger) ∧ t.calls = .detaching m ::ₘ s.calls ∧
      t.now = s.now := by
  cases h with
  | advance _ ha => cases ha
  | detach hh hl =>
    obtain ⟨e, he, -, rfl, -⟩ := Ledger.takeOut?_eq_some.mp hl
    exact ⟨_, Ledger.episode?_id he, hh, hl, rfl, rfl⟩

theorem Step.of_kept {id : Nat} (h : Step s (.kept id) t) :
    t = s ∧ .lease id ∈ s.handles ∧ s.ledger.takeOut? id = none := by
  cases h with
  | advance _ ha => cases ha
  | keep hm hn => exact ⟨rfl, hm, hn⟩

namespace Alike

theorem refl (s : Traffic α) : s.Alike s := ⟨rfl, rfl, rfl, rfl⟩

theorem dropped (h : s.Alike s') {handle handle' : Handle} (hid : handle.id = handle'.id)
    (hs : Step s (.dropped handle) t) (hs' : Step s' (.dropped handle') t') : t.Alike t' := by
  obtain ⟨hh, hl, hc, hn⟩ := hs.of_dropped
  obtain ⟨hh', hl', hc', hn'⟩ := hs'.of_dropped
  refine ⟨?_, ?_, ?_, ?_⟩
  · rw [hl, hl', h.ledger, hid]
  · rw [hc, hc', h.ledger, h.calls, hid]
  · have hm := h.handles
    rw [hh, hh', Multiset.map_cons, Multiset.map_cons, hid] at hm
    exact (Multiset.cons_inj_right _).mp hm
  · rw [hn, hn', h.now]

theorem detached (h : s.Alike s') {m : Member α} (hs : Step s (.detached m) t)
    (hs' : Step s' (.detached m) t') : t.Alike t' := by
  obtain ⟨id, hid, hh, hl, hc, hn⟩ := hs.of_detached
  obtain ⟨id', hid', hh', hl', hc', hn'⟩ := hs'.of_detached
  obtain rfl := hid.symm.trans hid'
  refine ⟨?_, ?_, ?_, ?_⟩
  · rw [h.ledger, hl'] at hl
    exact (Prod.mk.inj (Option.some.inj hl)).2.symm
  · rw [hc, hc', h.calls]
  · have hm := h.handles
    rw [hh, hh', Multiset.map_cons, Multiset.map_cons] at hm
    exact (Multiset.cons_inj_right _).mp hm
  · rw [hn, hn', h.now]

theorem step_same (h : s.Alike s') (hs : Step s e t) (hs' : Step s' e t') : t.Alike t' := by
  obtain ⟨ledger, calls, handles, now⟩ := s
  obtain ⟨_, _, handles', _⟩ := s'
  obtain ⟨rfl, rfl, hh, rfl⟩ := id h
  cases hs with
  | advance hc ha =>
    obtain ⟨call', others', after', next', hc', ha', rfl⟩ := Step.of_advance ha hs'
    obtain ⟨rfl, rfl, rfl⟩ := ha.unique ha'
    obtain rfl := (Multiset.cons_inj_right _).mp (hc.symm.trans hc')
    exact ⟨rfl, rfl, hh, rfl⟩
  | lend hc =>
    cases hs' with
    | advance _ ha => cases ha
    | lend hc' =>
      obtain rfl := (Multiset.cons_inj_right _).mp (hc.symm.trans hc')
      exact ⟨rfl, rfl, by simpa [Traffic.lend] using hh, rfl⟩
  | signal hc hw hn =>
    cases hs' with
    | advance _ ha => cases ha
    | signal hc' hw' hn' =>
      obtain rfl := Multiset.add_left_inj.mp ((Multiset.cons_inj_right _).mp (hc.symm.trans hc'))
      exact ⟨rfl, rfl, hh, rfl⟩
  | broadcast hc =>
    cases hs' with
    | advance _ ha => cases ha
    | broadcast hc' =>
      obtain rfl := (Multiset.cons_inj_right _).mp (hc.symm.trans hc')
      exact ⟨rfl, rfl, hh, rfl⟩
  | convert hm =>
    cases hs' with
    | advance _ ha => cases ha
    | convert hm' =>
      simp only at hm hm'
      subst hm hm'
      exact ⟨rfl, rfl, by simpa using hh, rfl⟩
  | drop hm hl => exact h.dropped rfl (.drop hm hl) hs'
  | dropLast hm hl => exact h.dropped rfl (.dropLast hm hl) hs'
  | detach hm hl => exact h.detached (.detach hm hl) hs'
  | share | clone =>
    cases hs' with
    | advance _ ha => cases ha
    | _ => exact ⟨rfl, rfl, by simpa using hh, rfl⟩
  | _ =>
    cases hs' with
    | advance _ ha => cases ha
    | _ => exact ⟨rfl, rfl, hh, rfl⟩

theorem step (h : s.Alike s') (he : e.Like e') (hs : Step s e t) (hs' : Step s' e' t') :
    t.Alike t' := by
  cases he with
  | same => exact h.step_same hs hs'
  | dropped hid => exact h.dropped hid hs hs'

theorem run {events events' : List (Event α)} (h : s.Alike s')
    (he : List.Forall₂ Event.Like events events') (hr : Run s events t)
    (hr' : Run s' events' t') : t.Alike t' := by
  induction he generalizing t t' with
  | nil =>
    cases hr
    cases hr'
    exact h
  | cons hl _ ih =>
    cases hr with
    | step hr hs =>
      cases hr' with
      | step hr' hs' => exact (ih hr hr').step hl hs hs'

end Alike

end Traffic

end ConnectionPool

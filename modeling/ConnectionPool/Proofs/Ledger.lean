import ConnectionPool.Pool.Ledger

/-!
# Numbers in a ledger

Which connections have an episode, and how many handles the ledger counts on each.
-/

namespace ConnectionPool

variable {α : Type}

def Member.id (m : Member α) : Nat := m.metadata.id

@[simp] theorem Member.id_recordCheckout (m : Member α) : m.recordCheckout.id = m.id := rfl

namespace Ledger

def ids (l : Ledger α) : List Nat := l.episodes.map Episode.id

@[simp] theorem ids_withPool (l : Ledger α) (pool : Pool α) : { l with pool }.ids = l.ids := rfl

@[simp] theorem ids_start (l : Ledger α) (m : Member α) : (l.start m).ids = m.id :: l.ids := rfl

theorem ids_update (l : Ledger α) (id : Nat) (change : Episode α → Episode α)
    (h : ∀ e, (change e).id = e.id) : (l.update id change).ids = l.ids := by
  rw [ids, ids, update, List.map_map]
  apply List.map_congr_left
  intro e _
  by_cases he : e.id = id <;> simp [he, h]

@[simp] theorem ids_addHandle (l : Ledger α) (id : Nat) : (l.addHandle id).ids = l.ids :=
  l.ids_update id _ fun _ => rfl

@[simp] theorem ids_setConnection (l : Ledger α) (id : Nat) (conn : α) :
    (l.setConnection id conn).ids = l.ids :=
  l.ids_update id _ fun _ => rfl

theorem ids_letGo {l after : Ledger α} {id : Nat} (h : l.letGo id = (none, after)) :
    after.ids = l.ids := by
  cases he : l.episode? id with
  | none =>
    obtain rfl : l = after := by simpa [letGo, he] using h
    rfl
  | some e =>
    obtain ⟨-, rfl⟩ := letGo_eq_none he h
    exact l.ids_update id _ fun _ => rfl

theorem mem_update {l : Ledger α} {id : Nat} {change : Episode α → Episode α} {x : Episode α}
    (h : x ∈ (l.update id change).episodes) :
    x ∈ l.episodes ∨ ∃ old ∈ l.episodes, old.id = id ∧ x = change old := by
  obtain ⟨old, hold, rfl⟩ := List.mem_map.mp h
  by_cases hid : old.id = id
  · exact .inr ⟨old, hold, hid, by simp [hid]⟩
  · rw [if_neg (by simpa using hid)]
    exact .inl hold

theorem kept_update {β : Type} {l : Ledger α} {id : Nat} {change : Episode α → Episode α}
    (f : Episode α → β) (hchange : ∀ old, f (change old) = f old) :
    ∀ x ∈ (l.update id change).episodes, ∃ old ∈ l.episodes, f x = f old := by
  intro x hx
  obtain hold | ⟨old, hold, -, rfl⟩ := mem_update hx
  · exact ⟨x, hold, rfl⟩
  · exact ⟨old, hold, hchange old⟩

theorem member_letGo {l after : Ledger α} {id : Nat} (h : l.letGo id = (none, after)) :
    ∀ x ∈ after.episodes, ∃ old ∈ l.episodes, x.member = old.member := by
  cases he : l.episode? id with
  | none =>
    obtain rfl : l = after := by simpa [letGo, he] using h
    exact fun x hx => ⟨x, hx, rfl⟩
  | some episode =>
    obtain ⟨-, rfl⟩ := letGo_eq_none he h
    exact kept_update Episode.member fun _ => rfl

theorem countP_ids_finish {l : Ledger α} {id : Nat} {e : Episode α} (he : l.episode? id = some e)
    (p : Nat → Bool) :
    (l.finish id).ids.countP p + (if p e.member.id then 1 else 0) = l.ids.countP p := by
  rw [ids, ids, List.countP_map, List.countP_map]
  exact countP_finish he fun e => p e.id

def handleCount (l : Ledger α) (id : Nat) : Nat := ((l.episode? id).map Episode.handles).getD 0

theorem handleCount_of_episode {l : Ledger α} {id : Nat} {e : Episode α}
    (he : l.episode? id = some e) : l.handleCount id = e.handles := by
  rw [handleCount, he]
  rfl

theorem episode?_isSome (l : Ledger α) (id : Nat) : (l.episode? id).isSome ↔ id ∈ l.ids := by
  simp [episode?, ids, List.find?_isSome]

theorem episode?_of_handleCount {l : Ledger α} {id : Nat} (h : 0 < l.handleCount id) :
    ∃ e, l.episode? id = some e ∧ e.handles = l.handleCount id := by
  cases he : l.episode? id with
  | none => simp [handleCount, he] at h
  | some e => exact ⟨e, rfl, (handleCount_of_episode he).symm⟩

theorem handleCount_start (l : Ledger α) (m : Member α) (id : Nat) :
    (l.start m).handleCount id = if m.id = id then 1 else l.handleCount id := by
  by_cases h : m.id = id
  · have he : Episode.id ⟨m, 1⟩ = id := h
    simp [handleCount, episode?, start, he, h]
  · have he : Episode.id ⟨m, 1⟩ ≠ id := h
    simp [handleCount, episode?, start, he, h]

theorem episode?_update (l : Ledger α) (id : Nat) (change : Episode α → Episode α)
    (h : ∀ e, (change e).id = e.id) (j : Nat) :
    (l.update id change).episode? j =
      if j = id then (l.episode? j).map change else l.episode? j := by
  have hq : ((fun e : Episode α => e.id == j) ∘ fun e => if e.id == id then change e else e) =
      fun e => e.id == j := by
    funext e
    by_cases he : e.id = id <;> simp [he, h]
  rw [episode?, update, List.find?_map, hq, ← episode?]
  cases he : l.episode? j with
  | none => simp
  | some e =>
    have hid := episode?_id he
    by_cases hj : j = id <;> simp [hid, hj]

theorem handleCount_addHandle {l : Ledger α} {id : Nat} (h : id ∈ l.ids) (j : Nat) :
    (l.addHandle id).handleCount j = if j = id then l.handleCount j + 1 else l.handleCount j := by
  obtain ⟨e, he⟩ := Option.isSome_iff_exists.mp ((l.episode?_isSome id).mpr h)
  rw [handleCount, addHandle, episode?_update l id _ (by intro; rfl)]
  by_cases hj : j = id
  · simp [hj, he, handleCount]
  · simp [hj, handleCount]

@[simp] theorem handleCount_setConnection (l : Ledger α) (id : Nat) (conn : α) (j : Nat) :
    (l.setConnection id conn).handleCount j = l.handleCount j := by
  rw [handleCount, setConnection, episode?_update l id _ (by intro; rfl)]
  split
  · rw [Option.map_map]
    rfl
  · rfl

theorem handleCount_letGo {l after : Ledger α} {id : Nat} (hpos : 0 < l.handleCount id)
    (h : l.letGo id = (none, after)) :
    1 < l.handleCount id ∧
      ∀ j, after.handleCount j = if j = id then l.handleCount j - 1 else l.handleCount j := by
  obtain ⟨e, he, hc⟩ := episode?_of_handleCount hpos
  obtain ⟨hlt, rfl⟩ := letGo_eq_none he h
  refine ⟨hc ▸ hlt, fun j => ?_⟩
  rw [handleCount, episode?_update l id _ (by intro; rfl)]
  by_cases hj : j = id
  · simp [hj, he, handleCount]
  · simp [hj, handleCount]

theorem ids_finish (l : Ledger α) (id : Nat) : (l.finish id).ids = l.ids.erase id := by
  rw [ids, ids, finish, List.erase_eq_eraseP', List.eraseP_map]
  rfl

private theorem find?_eraseP {id j : Nat} (hj : j ≠ id) (es : List (Episode α)) :
    (es.eraseP (·.id == id)).find? (·.id == j) = es.find? (·.id == j) := by
  induction es with
  | nil => rfl
  | cons e es ih =>
    by_cases he : e.id = id
    · simp [he, Ne.symm hj]
    · simp [List.find?_cons, he, ih]

theorem episode?_finish_ne (l : Ledger α) {id j : Nat} (hj : j ≠ id) :
    (l.finish id).episode? j = l.episode? j := find?_eraseP hj l.episodes

theorem episode?_start_ne (l : Ledger α) {m : Member α} {j : Nat} (hj : j ≠ m.id) :
    (l.start m).episode? j = l.episode? j := by
  have hmiss : ¬ Episode.id ⟨m, 1⟩ = j := Ne.symm hj
  simp [episode?, start, hmiss]

theorem handleCount_of_not_mem {l : Ledger α} {id : Nat} (h : id ∉ l.ids) :
    l.handleCount id = 0 := by
  rw [← episode?_isSome, Option.not_isSome_iff_eq_none] at h
  rw [handleCount, h]
  rfl

theorem handleCount_finish {l : Ledger α} (hn : l.ids.Nodup) (id j : Nat) :
    (l.finish id).handleCount j = if j = id then 0 else l.handleCount j := by
  by_cases hj : j = id
  · subst hj
    have hno : (l.finish j).episode? j = none := by
      rw [← Option.not_isSome_iff_eq_none, episode?_isSome, ids_finish]
      exact hn.not_mem_erase
    simp [handleCount, hno]
  · simp [handleCount, episode?, finish, find?_eraseP hj, hj]

end Ledger

end ConnectionPool

import ConnectionPool.Proofs.Custody.Charge
import ConnectionPool.Proofs.Script.Basic

/-!
# The holdings of a desk

A script neither loses a statement nor makes two of one: whatever is prepared is in the cache, in
the hands of the caller, or finalized, and in one of these places only.
-/

namespace ConnectionPool.Script.Desk

variable {d : Desk} {i : Nat} {k : Checkout}

def heldCharge (held : List Checkout) : Charge := (held.map Checkout.charge).sum

def charge (d : Desk) : Charge := d.connection.charge + heldCharge d.held + d.engine.charge

theorem heldCharge_append (held : List Checkout) (k : Checkout) :
    heldCharge (held ++ [k]) = heldCharge held + k.charge := by
  simp [heldCharge]

theorem heldCharge_set {held : List Checkout} {s : Statement} (hi : held[i]? = some k)
    (hs : s.charge = k.statement.charge) :
    heldCharge (held.set i { k with statement := s }) = heldCharge held := by
  have hk : Checkout.charge { k with statement := s } = k.charge := hs
  have hsame : (held.map Checkout.charge)[i]? = some k.charge := by
    rw [List.getElem?_map, hi]
    rfl
  obtain ⟨hlt, hget⟩ := List.getElem?_eq_some_iff.mp hsame
  rw [heldCharge, heldCharge, List.map_set, hk, ← hget, List.set_getElem_self]

theorem heldCharge_eraseIdx {held : List Checkout} (hi : held[i]? = some k) :
    k.charge + heldCharge (held.eraseIdx i) = heldCharge held := by
  obtain ⟨hlt, rfl⟩ := List.getElem?_eq_some_iff.mp hi
  have hperm := (List.getElem_cons_eraseIdx_perm hlt).map Checkout.charge
  have hsum := hperm.sum_eq
  rwa [List.map_cons, List.sum_cons] at hsum

theorem charge_prepare (d : Desk) (sql : String) : (d.prepare sql).2.charge = d.charge := by
  rw [prepare]
  cases hp : d.connection.prepare sql d.engine with
  | mk result after =>
    obtain ⟨c, e⟩ := after
    cases result with
    | ok k =>
      have hcharge := Connection.charge_prepare_ok hp
      simp only [charge, heldCharge_append]
      linear_combination hcharge
    | error error =>
      have hcharge := Connection.charge_prepare_error hp
      simp only [charge]
      linear_combination hcharge

theorem charge_withHeld {deal : Checkout → Reply × Desk}
    (hdeal : ∀ k, d.held[i]? = some k → (deal k).2.charge = d.charge) :
    (d.withHeld i deal).2.charge = d.charge := by
  rw [withHeld]
  cases hi : d.held[i]? with
  | none => rfl
  | some k => exact hdeal k hi

theorem charge_deskStep (d : Desk) (i : Nat) : (d.step i).2.charge = d.charge := by
  apply charge_withHeld
  intro k hi
  have hstep : (d.engine.step k.statement).2.1.charge = k.statement.charge ∧
      (d.engine.step k.statement).2.2.charge = d.engine.charge := Engine.charge_step rfl
  simp only [charge, hstep.2]
  rw [heldCharge_set hi hstep.1]

theorem charge_change {f : Statement → Statement} (d : Desk) (i : Nat)
    (hf : ∀ s, (f s).rewind = s.rewind) : (d.change i f).2.charge = d.charge := by
  apply charge_withHeld
  intro k hi
  have hk : (f k.statement).charge = k.statement.charge :=
    Statement.charge_congr (Statement.id_eq_of_rewind (hf k.statement))
  simp only [charge]
  rw [heldCharge_set hi hk]

theorem charge_putBack (d : Desk) (i : Nat) (keep : Bool) :
    (d.putBack i keep).2.charge = d.charge := by
  apply charge_withHeld
  intro k hi
  have hrecycle := d.connection.charge_recycle { k with cacheable := keep && k.cacheable } d.engine
  have herase := heldCharge_eraseIdx hi
  have hk : Checkout.charge { k with cacheable := keep && k.cacheable } = k.charge := rfl
  rw [hk] at hrecycle
  simp only [charge]
  linear_combination hrecycle + herase

theorem charge_execute (d : Desk) (sql : String) : (d.execute sql).2.charge = d.charge := by
  have hexecute : (d.connection.execute sql d.engine).2.1.charge +
      (d.connection.execute sql d.engine).2.2.charge = d.connection.charge + d.engine.charge :=
    Connection.charge_execute rfl
  simp only [execute, charge]
  linear_combination hexecute

theorem charge_closeRaw (d : Desk) : d.closeRaw.2.charge = d.charge := by
  have hclose : (d.engine.close d.connection.raw).2.2.charge = d.engine.charge :=
    Engine.charge_close rfl
  simp only [closeRaw, charge, hclose]
  rfl

theorem charge_perform (d : Desk) (o : Operation) : (d.perform o).2.charge = d.charge := by
  cases o with
  | prepare sql => exact d.charge_prepare sql
  | step i => exact d.charge_deskStep i
  | bind i value => exact d.charge_change i fun _ => rfl
  | reset i => exact d.charge_change i fun _ => rfl
  | clearBindings i => exact d.charge_change i fun _ => rfl
  | rewind i => exact d.charge_change i fun _ => rfl
  | finalize i => exact d.charge_putBack i false
  | drop i => exact d.charge_putBack i true
  | execute sql => exact d.charge_execute sql
  | closeRaw => exact d.charge_closeRaw

theorem charge_tend (d : Desk) (u : Upkeep) : (d.tend u).charge = d.charge := by
  cases u with
  | configure settings =>
    rw [tend]
    cases hc : d.connection.configureCache? settings d.engine with
    | none => rfl
    | some after =>
      have hcharge := Connection.charge_configureCache hc
      simp only [charge]
      linear_combination hcharge
  | clear =>
    have hcharge := d.connection.charge_clearCache d.engine
    simp only [tend, charge]
    linear_combination hcharge

/-- The numbers of the statements in the cache and in the hands of the caller. -/
def ids (d : Desk) : List StatementId :=
  d.connection.cache.ids ++ d.held.map fun k => k.statement.id

theorem charge_fst (d : Desk) (id : StatementId) :
    d.charge.1 id = d.ids.count id + d.engine.finalized.count id - d.engine.issued id := by
  have hcache : d.connection.charge = Statement.chargeAll d.connection.cache.statements := rfl
  have hheld : heldCharge d.held = Statement.chargeAll (d.held.map Checkout.statement) := by
    rw [heldCharge, Statement.chargeAll, List.map_map]
    rfl
  have hids : d.held.map (fun k => k.statement.id) =
      (d.held.map Checkout.statement).map Statement.id := by
    rw [List.map_map]
    rfl
  rw [charge, hcache, hheld, Statement.chargeAll_eq, Statement.chargeAll_eq, ids, hids,
    List.count_append]
  simp only [Engine.charge, StatementCache.ids, Prod.fst_add, Pi.add_apply]
  omega

/-- Whether each statement given out is in at most one place: in the cache, in the hands of the
caller, or finalized. -/
def Orderly (d : Desk) : Prop :=
  ∀ id, d.ids.count id + d.engine.finalized.count id ≤ d.engine.issued id

theorem orderly_iff : d.Orderly ↔ ∀ id, d.charge.1 id ≤ 0 := by
  constructor
  · intro h id
    have hid := h id
    rw [charge_fst]
    omega
  · intro h id
    have hid := h id
    rw [charge_fst] at hid
    omega

end ConnectionPool.Script.Desk

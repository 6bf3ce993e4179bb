import ConnectionPool.Proofs.Custody.Pool
import ConnectionPool.Proofs.Traffic.Episode

/-!
# The charge of ledgers

A ledger keeps what the connections idle and out keep. One whose books are in order counts each
connection once, so that a change to one episode is a change to one connection.
-/

namespace ConnectionPool

open Traffic

variable {ω α : Type} {l after : Ledger α} {id : Nat} {m : Member α}

namespace Ledger

/-- Whether the books agree with the connections idle and out, no call being in progress. -/
def InOrder (l : Ledger α) : Prop := (Traffic.mk l 0 0 0).Balanced

/-- The ledger once its pool has worked for a caller, who may have got a connection. -/
def resume (l : Ledger α) (pool : Pool α) : Option (Member α) → Ledger α
  | some m => { l with pool }.start m
  | none => { l with pool }

theorem InOrder.ids_nodup (h : l.InOrder) : l.ids.Nodup := Balanced.ids_nodup h

theorem InOrder.balanced (h : l.InOrder) (handles : Multiset Handle) (now : Nat) :
    Balanced ⟨l, 0, handles, now⟩ := ⟨h.created_eq, h.created_le, h.once⟩

/-- Books stay in order until the calls in progress are over. -/
theorem InOrder.of_reaches {s t : Traffic α} (hs : s.Balanced) (hr : s.Reaches t)
    (hc : t.calls = 0) : t.ledger.InOrder := by
  obtain ⟨events, hrun⟩ := hr
  have ht := hs.run hrun
  obtain ⟨ledger, calls, handles, now⟩ := t
  obtain rfl : calls = 0 := hc
  exact ⟨ht.created_eq, ht.created_le, ht.once⟩

theorem isWakeful_zero : IsWakeful (0 : Multiset (Call α)) := by
  intro call hm
  exact absurd hm (Multiset.notMem_zero call)

theorem InOrder.addHandle (h : l.InOrder) (id : Nat) : (l.addHandle id).InOrder := by
  have hs := h.balanced {.lease id} 0
  have hstep : Step ⟨l, 0, {.lease id}, 0⟩ (.shared id) _ :=
    .share (Multiset.mem_singleton_self _)
  exact .of_reaches hs (.step hstep) rfl

theorem InOrder.setConnection (h : l.InOrder) (id : Nat) (conn : α) :
    (l.setConnection id conn).InOrder := by
  have hs := h.balanced {.lease id} 0
  have hstep : Step ⟨l, 0, {.lease id}, 0⟩ (.used id conn) _ :=
    .use (Multiset.mem_singleton_self _)
  exact .of_reaches hs (.step hstep) rfl

theorem InOrder.dropHandle (h : l.InOrder) (id : Nat) : (l.dropHandle id).2.InOrder := by
  have hs := h.balanced (.lease id ::ₘ 0) 0
  have hr : Reaches ⟨l, 0, .lease id ::ₘ 0, 0⟩ ⟨(l.dropHandle id).2, 0, 0, 0⟩ :=
    dropHandle_reaches isWakeful_zero (.lease id)
  exact .of_reaches hs hr rfl

theorem InOrder.detach {conn : α} (h : l.InOrder) (hd : l.detach? id = some (conn, after)) :
    after.InOrder := by
  have hs := h.balanced (.lease id ::ₘ 0) 0
  exact .of_reaches hs (detach?_reaches isWakeful_zero hd) rfl

theorem InOrder.close (h : l.InOrder) : InOrder { l with pool := l.pool.close.2 } :=
  .of_reaches h (close_reaches isWakeful_zero) rfl

theorem InOrder.answered {pool : Pool α} {found : Option (Member α)} (h : l.InOrder)
    (hr : Reaches ⟨l, 0, 0, 0⟩ ((Traffic.mk l 0 0 0).answered pool found)) :
    (l.resume pool found).InOrder := by
  have hc : ((Traffic.mk l 0 0 0).answered pool found).calls = 0 := by cases found <;> rfl
  have hl : ((Traffic.mk l 0 0 0).answered pool found).ledger = l.resume pool found := by
    cases found <;> rfl
  exact hl ▸ .of_reaches h hr hc

variable (k : Connector ω α) (reentrant : Bool) {w : Workplace ω α}

theorem InOrder.tryAcquire (h : l.InOrder) (hw : w.pool = l.pool) :
    (l.resume (w.tryAcquire k reentrant).2.pool (w.tryAcquire k reentrant).1.member?).InOrder :=
  h.answered (Workplace.tryAcquire_reaches k reentrant w isWakeful_zero hw.symm)

/-- A caller who sleeps has left the books as they are. -/
theorem InOrder.acquireWithin (h : l.InOrder) (hw : w.pool = l.pool) (now : Nat)
    (timeout : Option Duration) :
    (l.resume (w.acquireWithin k reentrant now timeout).2.pool
      (w.acquireWithin k reentrant now timeout).1.member?).InOrder := by
  obtain ⟨t, hr, ha⟩ := Workplace.acquireWithin_reaches (s := ⟨l, 0, 0, now⟩) k reentrant timeout w
    isWakeful_zero hw.symm
  have hs := h.balanced 0 now
  cases hanswer : (w.acquireWithin k reentrant now timeout).1 with
  | answered answer =>
    rw [hanswer] at ha
    cases answer with
    | ok m =>
      obtain rfl := ha
      exact .of_reaches hs hr rfl
    | refused error =>
      obtain ⟨_, rfl⟩ := ha
      exact .of_reaches hs hr rfl
    | aborted cause =>
      obtain ⟨_, rfl⟩ := ha
      exact .of_reaches hs hr rfl
  | blocked =>
    -- A parked call has no connection and no slot, so the books are the same without it.
    rw [hanswer] at ha
    obtain rfl := ha
    obtain ⟨events, hrun⟩ := hr
    have ht := hs.run hrun
    exact ⟨ht.created_eq, ht.created_le, ht.once⟩

theorem InOrder.acquireInTask (h : l.InOrder) (hw : w.pool = l.pool) (now : Nat) :
    (l.resume (w.acquireInTask k reentrant now).2.pool
      (w.acquireInTask k reentrant now).1.member?).InOrder := by
  obtain ⟨hmember, hafter⟩ := Workplace.acquireInTask_same k reentrant now w
  rw [hmember, hafter]
  exact h.acquireWithin k reentrant hw now w.pool.settings.connectionTimeout

theorem InOrder.giveBack {pool : Pool α} (hr : (l.resume pool (some m)).InOrder) :
    InOrder { l with pool := (pool.giveBack m).2 } := by
  have hs := hr.balanced (.lease m.metadata.id ::ₘ 0) 0
  exact .of_reaches hs (Workplace.answered_reaches (s := ⟨l, 0, 0, 0⟩) isWakeful_zero pool m) rfl

end Ledger

def Episode.charge (e : Episode Connection) : Charge := e.member.charge

def Episode.chargeAll (l : List (Episode Connection)) : Charge := (l.map charge).sum

namespace Ledger

variable {l after : Ledger Connection} {id : Nat} {e : Episode Connection} {c : Connection}

def charge (l : Ledger Connection) : Charge := l.pool.charge + Episode.chargeAll l.episodes

theorem charge_eq (l : Ledger Connection) : l.charge = (l.conns.map Connection.charge).sum := by
  rw [conns, Multiset.map_add, Multiset.sum_add, charge, Pool.charge, Member.chargeAll_eq]
  refine congrArg (_ + ·) ?_
  rw [Episode.conns, Multiset.map_coe, Multiset.sum_coe, List.map_map]
  rfl

theorem charge_resume (l : Ledger Connection) (pool : Pool Connection)
    (found : Option (Member Connection)) :
    (l.resume pool found).charge + l.pool.charge =
      l.charge + pool.charge + Member.charge? found := by
  cases found with
  | none =>
    simp only [resume, charge, Member.charge?_none]
    abel
  | some m =>
    have hstart : Episode.chargeAll ({ l with pool }.start m).episodes =
        m.charge + Episode.chargeAll l.episodes := rfl
    have hpool : ({ l with pool }.start m).pool = pool := rfl
    simp only [resume, charge, Member.charge?_some, hstart, hpool]
    abel

theorem charge_addHandle (l : Ledger Connection) (id : Nat) :
    (l.addHandle id).charge = l.charge := by
  rw [charge_eq, conns_addHandle, ← charge_eq]

theorem charge_setConnection (hn : l.ids.Nodup) (he : l.episode? id = some e) :
    (l.setConnection id c).charge + e.charge = l.charge + c.charge := by
  rw [charge_eq, charge_eq, conns_setConnection hn he, conns_finish he, Multiset.map_cons,
    Multiset.map_cons, Multiset.sum_cons, Multiset.sum_cons, Episode.charge, Member.charge]
  abel

theorem charge_dropHandle (l : Ledger Connection) (id : Nat) :
    Member.charge? (l.dropHandle id).1 + (l.dropHandle id).2.charge = l.charge := by
  rw [charge_eq, charge_eq l, ← l.conns_dropHandle id, Multiset.map_add, Multiset.sum_add,
    Member.charge?, Member.chargeAll_eq]
  rfl

theorem charge_detach (hd : l.detach? id = some (c, after)) :
    c.charge + after.charge = l.charge := by
  rw [charge_eq, charge_eq, conns_detach hd, Multiset.map_cons, Multiset.sum_cons]

end Ledger

end ConnectionPool

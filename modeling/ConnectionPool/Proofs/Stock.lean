import ConnectionPool.Proofs.Ledger
import Mathlib.Algebra.Order.Group.Multiset

/-!
# Stock

The connections of a pool and of its ledger, idle or out. What the books do with them takes none
away and brings in none, except those that are named.
-/

namespace ConnectionPool

variable {α : Type}

def Member.conns (l : List (Member α)) : Multiset α := ↑(l.map Member.conn)

def Member.conns? (m : Option (Member α)) : Multiset α := conns m.toList

def Pool.conns (p : Pool α) : Multiset α := Member.conns p.idle

def Grant.conns : Grant α → Multiset α
  | .reuse m => {m.conn}
  | .create => 0

def Episode.conns (l : List (Episode α)) : Multiset α := ↑(l.map fun e => e.member.conn)

def Ledger.conns (l : Ledger α) : Multiset α := l.pool.conns + Episode.conns l.episodes

namespace Member

@[simp] theorem conns_nil : conns ([] : List (Member α)) = 0 := rfl

@[simp] theorem conns_cons (m : Member α) (l : List (Member α)) :
    conns (m :: l) = m.conn ::ₘ conns l := rfl

theorem conns_reverse (l : List (Member α)) : conns l.reverse = conns l :=
  Multiset.coe_eq_coe.mpr (l.reverse_perm.map conn)

@[simp] theorem conns?_none : conns? (none : Option (Member α)) = 0 := rfl

@[simp] theorem conns?_some (m : Member α) : conns? (some m) = {m.conn} := rfl

end Member

@[simp] theorem Episode.conns_cons (e : Episode α) (l : List (Episode α)) :
    conns (e :: l) = e.member.conn ::ₘ conns l := rfl

@[simp] theorem Episode.conns_append (l l' : List (Episode α)) :
    conns (l ++ l') = conns l + conns l' := by
  rw [conns, List.map_append, ← Multiset.coe_add]
  rfl

namespace Pool

variable {p after : Pool α}

theorem conns_giveBack (p : Pool α) (m : Member α) :
    Member.conns? (p.giveBack m).1 + (p.giveBack m).2.conns = m.conn ::ₘ p.conns := by
  cases hc : p.closed with
  | true =>
    have hback : p.giveBack m = (some m, p.freeSlot.countClosed 1) := by
      simp [giveBack, takeBack, hc]
    rw [hback, Member.conns?_some, Multiset.singleton_add]
    rfl
  | false =>
    have hback : p.giveBack m = (none, (p.addIdle m).countReturn) := by
      simp [giveBack, takeBack, hc]
    rw [hback, Member.conns?_none, zero_add]
    rfl

theorem conns_close (p : Pool α) : Member.conns p.close.1 = p.conns ∧ p.close.2.conns = 0 :=
  ⟨Member.conns_reverse p.idle, rfl⟩

theorem conns_inspect {grant : Grant α} (h : p.inspect = .granted grant after) :
    grant.conns + after.conns = p.conns := by
  cases grant with
  | reuse m =>
    obtain ⟨-, hidle, -⟩ := inspect_eq_reuse h
    rw [conns, conns, hidle, Member.conns_cons]
    rfl
  | create =>
    obtain ⟨-, -, -, rfl⟩ := inspect_eq_create.mp h
    exact zero_add _

end Pool

namespace Ledger

variable {l after : Ledger α} {id : Nat} {e : Episode α} {m : Member α} {c : α}

theorem conns_start (l : Ledger α) (m : Member α) : (l.start m).conns = m.conn ::ₘ l.conns :=
  Multiset.add_cons m.conn l.pool.conns (Episode.conns l.episodes)

theorem split_of_episode (he : l.episode? id = some e) :
    ∃ front back, l.episodes = front ++ e :: back ∧ e.id = id ∧ ∀ f ∈ front, f.id ≠ id := by
  obtain ⟨hid, front, back, hl, hfront⟩ := List.find?_eq_some_iff_append.mp he
  refine ⟨front, back, hl, by simpa using hid, ?_⟩
  intro f hf
  simpa using hfront f hf

theorem conns_finish (he : l.episode? id = some e) :
    l.conns = e.member.conn ::ₘ (l.finish id).conns := by
  obtain ⟨front, back, hl, hid, hfront⟩ := split_of_episode he
  have hrest : (l.finish id).episodes = front ++ back := by
    rw [finish, hl, List.eraseP_append_right _ (by simpa using hfront)]
    simp [hid]
  have hpool : (l.finish id).pool = l.pool := rfl
  simp only [conns, hrest, hpool, hl, Episode.conns_append, Episode.conns_cons,
    Multiset.add_cons]

theorem conns_update {change : Episode α → Episode α} (l : Ledger α) (id : Nat)
    (hkeep : ∀ e, (change e).member = e.member) : (l.update id change).conns = l.conns := by
  have hsame : (l.update id change).episodes.map (fun e => e.member.conn) =
      l.episodes.map fun e => e.member.conn := by
    rw [update, List.map_map]
    apply List.map_congr_left
    intro e _
    simp only [Function.comp]
    split
    · exact congrArg Member.conn (hkeep e)
    · rfl
  rw [conns, Episode.conns, hsame]
  rfl

theorem conns_addHandle (l : Ledger α) (id : Nat) : (l.addHandle id).conns = l.conns :=
  l.conns_update id fun _ => rfl

theorem conns_setConnection (hn : l.ids.Nodup) (he : l.episode? id = some e) (c : α) :
    (l.setConnection id c).conns = c ::ₘ (l.finish id).conns := by
  obtain ⟨front, back, hl, hid, hfront⟩ := split_of_episode he
  have hback : ∀ f ∈ back, f.id ≠ id := by
    intro f hf hsame
    rw [ids, hl, List.map_append, List.map_cons] at hn
    have hcons := (List.nodup_append.mp hn).2.1
    have hmem := List.mem_map_of_mem (f := Episode.id) hf
    rw [hsame, ← hid] at hmem
    exact (List.nodup_cons.mp hcons).1 hmem
  have hrest : (l.finish id).episodes = front ++ back := by
    rw [finish, hl, List.eraseP_append_right _ (by simpa using hfront)]
    simp [hid]
  -- Only the episode found has the number, so the others are left alone.
  have hkeep (es : List (Episode α)) (hes : ∀ f ∈ es, f.id ≠ id) :
      es.map (fun f => if f.id == id then { f with member := { f.member with conn := c } } else f) =
        es := by
    have hone (f : Episode α) (hf : f ∈ es) : (if f.id == id then
        { f with member := { f.member with conn := c } } else f) = f := by
      simp [hes f hf]
    rw [List.map_congr_left hone, List.map_id']
  have hset : (l.setConnection id c).episodes =
      front ++ { e with member := { e.member with conn := c } } :: back := by
    rw [setConnection, update, hl, List.map_append, List.map_cons, hkeep front hfront,
      hkeep back hback]
    simp [hid]
  have hpool : (l.setConnection id c).pool = l.pool ∧ (l.finish id).pool = l.pool := ⟨rfl, rfl⟩
  simp only [conns, hset, hrest, hpool, Episode.conns_append, Episode.conns_cons,
    Multiset.add_cons]

theorem conns_dropHandle (l : Ledger α) (id : Nat) :
    Member.conns? (l.dropHandle id).1 + (l.dropHandle id).2.conns = l.conns := by
  rw [dropHandle]
  cases hg : l.letGo id with
  | mk left after =>
    cases left with
    | none =>
      have hsame : after.conns = l.conns := by
        cases he : l.episode? id with
        | none =>
          obtain rfl : l = after := by simpa [letGo, he] using hg
          rfl
        | some e =>
          obtain ⟨-, rfl⟩ := letGo_eq_none he hg
          exact l.conns_update id fun _ => rfl
      exact (zero_add _).trans hsame
    | some m =>
      obtain ⟨e, he, -, rfl, rfl⟩ := letGo_eq_some hg
      have hback := l.pool.conns_giveBack e.member
      rw [conns_finish he]
      simp only [conns, ← add_assoc]
      rw [show (l.finish id).pool = l.pool from rfl, hback, Multiset.cons_add]

theorem conns_detach (hd : l.detach? id = some (c, after)) : l.conns = c ::ₘ after.conns := by
  obtain ⟨e, he, -, rfl, rfl⟩ := detach?_eq_some.mp hd
  exact conns_finish he

end Ledger

end ConnectionPool

import ConnectionPool.Pool.Basic

/-!
# Episodes

The time a connection is out is an episode, shared by any number of handles. The last handle to go
gives the connection back; the only handle there is may take it away for good. A ledger is a pool
with its episodes, each under the number of its connection.
-/

namespace ConnectionPool

/-- A connection that is out, and the number of handles on it. -/
structure Episode (α : Type) where
  member : Member α
  handles : Nat
  deriving DecidableEq, Repr

namespace Episode

variable {α : Type}

def id (e : Episode α) : Nat := e.member.metadata.id

/-- Whether its one handle has the connection to itself. -/
def isExclusive (e : Episode α) : Bool := e.handles == 1

end Episode

structure Ledger (α : Type) where
  pool : Pool α
  /-- The episodes that have not ended, the latest first. -/
  episodes : List (Episode α) := []
  deriving DecidableEq, Repr

namespace Ledger

variable {α : Type}

/-- The episode of the connection with this number. -/
def episode? (l : Ledger α) (id : Nat) : Option (Episode α) := l.episodes.find? (·.id == id)

/-- Starts an episode with one handle. -/
def start (l : Ledger α) (member : Member α) : Ledger α :=
  { l with episodes := ⟨member, 1⟩ :: l.episodes }

/-- Applies a change to one episode. -/
def update (l : Ledger α) (id : Nat) (change : Episode α → Episode α) : Ledger α :=
  { l with episodes := l.episodes.map fun e => if e.id == id then change e else e }

def addHandle (l : Ledger α) (id : Nat) : Ledger α :=
  l.update id fun e => { e with handles := e.handles + 1 }

def setConnection (l : Ledger α) (id : Nat) (conn : α) : Ledger α :=
  l.update id fun e => { e with member := { e.member with conn } }

/-- Strikes an episode from the ledger. -/
def finish (l : Ledger α) (id : Nat) : Ledger α :=
  { l with episodes := l.episodes.eraseP (·.id == id) }

theorem episode?_id {l : Ledger α} {id : Nat} {e : Episode α} (he : l.episode? id = some e) :
    e.id = id := by simpa using List.find?_some he

theorem countP_finish {l : Ledger α} {id : Nat} {e : Episode α} (he : l.episode? id = some e)
    (q : Episode α → Bool) :
    (l.finish id).episodes.countP q + (if q e then 1 else 0) = l.episodes.countP q := by
  obtain ⟨hid, front, back, hl, hfront⟩ := List.find?_eq_some_iff_append.mp he
  have hf : (l.finish id).episodes = front ++ back := by
    rw [finish, hl, List.eraseP_append_right _ (by simpa using hfront)]
    simp only [List.eraseP_cons, hid, cond_true]
  rw [hf, hl, List.countP_append, List.countP_append, List.countP_cons]
  omega

/-- Lets go of a handle. The last one ends the episode and leaves its connection to be given
back. -/
def letGo (l : Ledger α) (id : Nat) : Option (Member α) × Ledger α :=
  match l.episode? id with
  | none => (none, l)
  | some e =>
    if 1 < e.handles then (none, l.update id fun e => { e with handles := e.handles - 1 })
    else (some e.member, l.finish id)

@[simp] theorem letGo_pool (l : Ledger α) (id : Nat) : (l.letGo id).2.pool = l.pool := by
  cases he : l.episode? id with
  | none => simp [letGo, he]
  | some e => by_cases hn : 1 < e.handles <;> simp [letGo, he, hn, update, finish]

theorem pool_of_letGo {l after : Ledger α} {id : Nat} {back : Option (Member α)}
    (h : l.letGo id = (back, after)) : after.pool = l.pool := by
  rw [← l.letGo_pool id, h]

theorem letGo_eq_none {l after : Ledger α} {id : Nat} {e : Episode α} (he : l.episode? id = some e)
    (h : l.letGo id = (none, after)) :
    1 < e.handles ∧ after = l.update id fun e => { e with handles := e.handles - 1 } := by
  by_cases hn : 1 < e.handles <;> simp_all [letGo]

theorem letGo_eq_some {l after : Ledger α} {id : Nat} {member : Member α}
    (h : l.letGo id = (some member, after)) :
    ∃ e, l.episode? id = some e ∧ e.handles ≤ 1 ∧ member = e.member ∧ after = l.finish id := by
  cases he : l.episode? id with
  | none => simp [letGo, he] at h
  | some e => by_cases hn : 1 < e.handles <;> simp_all [letGo]

/-- Drops a handle. The last one gives the connection back; a closed pool leaves it to the
caller. -/
def dropHandle (l : Ledger α) (id : Nat) : Option (Member α) × Ledger α :=
  match l.letGo id with
  | (none, l) => (none, l)
  | (some member, l) =>
    let (left, pool) := l.pool.giveBack member
    (left, { l with pool })

/-- Ends the episode of an exclusive handle, whose connection keeps its slot for now. -/
def takeOut? (l : Ledger α) (id : Nat) : Option (Member α × Ledger α) :=
  match l.episode? id with
  | none => none
  | some e => if e.isExclusive then some (e.member, l.finish id) else none

theorem takeOut?_eq_some {l after : Ledger α} {id : Nat} {member : Member α} :
    l.takeOut? id = some (member, after) ↔
      ∃ e, l.episode? id = some e ∧ e.handles = 1 ∧ member = e.member ∧ after = l.finish id := by
  cases he : l.episode? id with
  | none => simp [takeOut?, he]
  | some e =>
    by_cases hn : e.handles = 1
    · simp only [takeOut?, he, Episode.isExclusive, hn, beq_self_eq_true, if_true,
        Option.some.injEq, Prod.mk.injEq, exists_eq_left', true_and]
      exact and_congr eq_comm eq_comm
    · simp [takeOut?, he, Episode.isExclusive, hn]

/-- Takes the connection of an exclusive handle away from the pool, which frees its slot. -/
def detach? (l : Ledger α) (id : Nat) : Option (α × Ledger α) :=
  (l.takeOut? id).map fun (member, l) => (member.conn, { l with pool := l.pool.freeSlot })

theorem detach?_eq_some {l after : Ledger α} {id : Nat} {conn : α} :
    l.detach? id = some (conn, after) ↔
      ∃ e, l.episode? id = some e ∧ e.handles = 1 ∧ conn = e.member.conn ∧
        after = { l.finish id with pool := l.pool.freeSlot } := by
  constructor
  · intro h
    obtain ⟨⟨member, left⟩, ht, hd⟩ := Option.map_eq_some_iff.mp h
    obtain ⟨e, he, hone, rfl, rfl⟩ := takeOut?_eq_some.mp ht
    obtain ⟨rfl, rfl⟩ := Prod.mk.inj hd
    exact ⟨e, he, hone, rfl, rfl⟩
  · rintro ⟨e, he, hone, rfl, rfl⟩
    have ht : l.takeOut? id = some (e.member, l.finish id) :=
      takeOut?_eq_some.mpr ⟨e, he, hone, rfl, rfl⟩
    rw [detach?, ht]
    rfl

end Ledger

end ConnectionPool

import ConnectionPool.Pool.Acquire
import ConnectionPool.Pool.Ledger
import Mathlib.Data.Multiset.Filter

/-!
# Traffic on a pool

A pool with all calls in progress on it and all handles on its connections. Each undivided section
of a call is a step of its own, and so is each signal; calls take their steps in any order. A
factory at work is a call like any other: whatever it asks of its pool are further calls, which come
and go before its own call moves on. A call that its caller has abandoned goes on all the same, and
the handle it gets is dropped.
-/

namespace ConnectionPool

/-- How long a caller is willing to wait, up to which moment if not for ever. -/
inductive Patience where
  | none
  | endless
  | within (timeout : Duration) (deadline : Nat)
  deriving DecidableEq, Repr

namespace Patience

def waits : Patience → Bool
  | .none => false
  | _ => true

/-- Whether a caller who comes at this moment may have this patience. -/
def StartsAt (now : Nat) : Patience → Prop
  | .within timeout deadline => timeout.fitsClock now ∧ deadline = now + timeout.totalNanos
  | _ => True

end Patience

/-- What makes a caller look at the pool. A wakeup is a signal or comes for no reason. -/
inductive Prompt where
  | arrival
  | wakeup
  | deadline
  deriving DecidableEq, Repr

/-- What a call has left to do once the pool's books are in order. -/
inductive Errand (α : Type) where
  | reportFailure (cause : String)
  | abort (cause : String)
  | countReturn
  /-- Leave a detached connection to its new owner. -/
  | surrender (member : Member α)
  | destroy (members : List (Member α))
  deriving DecidableEq, Repr

def Errand.settle {α : Type} (p : Pool α) : Errand α → Pool α
  | .reportFailure _ => p.countCreationFailure
  | .abort _ => p
  | .countReturn => p.countReturn
  | .surrender _ => p
  | .destroy members => p.countClosed members.length

namespace Errand

variable {α : Type} (e : Errand α) (p : Pool α)

@[simp] theorem settle_idle : (e.settle p).idle = p.idle := by cases e <;> rfl

@[simp] theorem settle_created : (e.settle p).created = p.created := by cases e <;> rfl

@[simp] theorem settle_closed : (e.settle p).closed = p.closed := by cases e <;> rfl

@[simp] theorem settle_settings : (e.settle p).settings = p.settings := by cases e <;> rfl

@[simp] theorem settle_nextId : (e.settle p).nextId = p.nextId := by cases e <;> rfl

end Errand

inductive Call (α : Type) where
  /-- About to look at the pool. -/
  | looking (patience : Patience) (prompt : Prompt)
  | parked (patience : Patience)
  /-- Has a slot, but no number yet for its connection. -/
  | granted
  /-- Its factory is at work. -/
  | creating (id : Nat)
  | handingOut (member : Member α)
  /-- The last handle on this connection is gone. -/
  | givingBack (member : Member α)
  /-- This connection was taken from its episode and keeps its slot for now. -/
  | detaching (member : Member α)
  /-- About to wake a parked call. -/
  | signalling (errand : Errand α)
  /-- About to wake all parked calls. -/
  | broadcasting (errand : Errand α)
  | finishing (errand : Errand α)
  deriving DecidableEq, Repr

inductive Handle where
  | lease (id : Nat)
  | shared (id : Nat)
  deriving DecidableEq, Repr

def Handle.id : Handle → Nat
  | .lease id => id
  | .shared id => id

/-- What happens in a step, told so fully that the state before decides the state after. -/
inductive Event (α : Type) where
  | arrived (patience : Patience)
  | refused (patience : Patience) (prompt : Prompt)
  | reused (patience : Patience) (prompt : Prompt) (member : Member α)
  | reserved (patience : Patience) (prompt : Prompt)
  | declined (prompt : Prompt)
  | expired (timeout : Duration) (deadline : Nat)
  | parked (patience : Patience) (prompt : Prompt)
  | woken (patience : Patience)
  | lapsed (timeout : Duration) (deadline : Nat)
  | numbered (id : Nat)
  | made (member : Member α)
  | failed (id : Nat) (cause : String)
  | aborted (id : Nat) (cause : String)
  | lent (member : Member α)
  | pooled (member : Member α)
  | expelled (member : Member α)
  | released (member : Member α)
  | signalled (errand : Errand α) (woken : Multiset (Call α))
  | broadcast (errand : Errand α)
  | finished (errand : Errand α)
  | closed (left : List (Member α))
  | shared (id : Nat)
  | cloned (id : Nat)
  | converted (id : Nat)
  | used (id : Nat) (conn : α)
  | dropped (handle : Handle)
  | detached (member : Member α)
  | kept (id : Nat)
  | ticked

namespace Call

variable {α : Type}

def isParked : Call α → Bool
  | .parked _ => true
  | _ => false

/-- Waited, and has not looked at the pool since. -/
def isAwake : Call α → Bool
  | .looking _ .wakeup => true
  | .looking _ .deadline => true
  | _ => false

def isSignalling : Call α → Bool
  | .signalling _ => true
  | _ => false

def isBroadcasting : Call α → Bool
  | .broadcasting _ => true
  | _ => false

def wake : Call α → Call α
  | .parked patience => .looking patience .wakeup
  | call => call

/-- The next section of a call that leaves all other calls and the episodes alone. It says what
becomes of the books and of the call. -/
inductive Advance (now : Nat) (p : Pool α) : Call α → Event α → Pool α → Option (Call α) → Prop
  | refuse {w r} : p.inspect = .closed →
      Advance now p (.looking w r) (.refused w r) p.countRefusal none
  | reuse {w r m after} : p.inspect = .granted (.reuse m) after →
      Advance now p (.looking w r) (.reused w r m) after (some (.handingOut m))
  | reserve {w r after} : p.inspect = .granted .create after →
      Advance now p (.looking w r) (.reserved w r) after (some .granted)
  | decline {r} : p.inspect = .full →
      Advance now p (.looking .none r) (.declined r) p none
  | expire {d t} : p.inspect = .full →
      Advance now p (.looking (.within d t) .deadline) (.expired d t) p.countRefusal none
  | park {w r} : p.inspect = .full → w.waits → r ≠ .deadline →
      Advance now p (.looking w r) (.parked w r) p (some (.parked w))
  | wake {w} : Advance now p (.parked w) (.woken w) p (some (.looking w .wakeup))
  | lapse {d t} : t ≤ now →
      Advance now p (.parked (.within d t)) (.lapsed d t) p
        (some (.looking (.within d t) .deadline))
  | number :
      Advance now p .granted (.numbered p.takeId.1) p.takeId.2 (some (.creating p.takeId.1))
  | make {id conn} :
      Advance now p (.creating id) (.made ⟨conn, .fresh id⟩) p.countCreated
        (some (.handingOut ⟨conn, .fresh id⟩))
  | fail {id cause} :
      Advance now p (.creating id) (.failed id cause) p.freeSlot
        (some (.signalling (.reportFailure cause)))
  | abort {id cause} :
      Advance now p (.creating id) (.aborted id cause) p.freeSlot
        (some (.signalling (.abort cause)))
  | pool {m after} : p.takeBack m = (none, after) →
      Advance now p (.givingBack m) (.pooled m) after (some (.signalling .countReturn))
  | expel {m left after} : p.takeBack m = (some left, after) →
      Advance now p (.givingBack m) (.expelled left) after (some (.finishing (.destroy [left])))
  | release {m} :
      Advance now p (.detaching m) (.released m) p.freeSlot (some (.signalling (.surrender m)))
  | finish {errand} :
      Advance now p (.finishing errand) (.finished errand) (errand.settle p) none

end Call

structure Traffic (α : Type) where
  ledger : Ledger α
  calls : Multiset (Call α) := 0
  handles : Multiset Handle := 0
  now : Nat := 0

namespace Traffic

variable {α : Type}

abbrev pool (s : Traffic α) : Pool α := s.ledger.pool

abbrev episodes (s : Traffic α) : List (Episode α) := s.ledger.episodes

def opening (p : Pool α) : Traffic α := ⟨⟨p, []⟩, 0, 0, 0⟩

/-- The state after a section of one call: the books, what became of the call, the others. -/
def turn (s : Traffic α) (after : Pool α) (next : Option (Call α)) (others : Multiset (Call α)) :
    Traffic α :=
  { s with
    ledger := { s.ledger with pool := after }
    calls := next.elim others fun call => call ::ₘ others }

def lend (s : Traffic α) (member : Member α) (others : Multiset (Call α)) : Traffic α :=
  { s with
    ledger := { s.ledger with pool := s.pool.countCheckout }.start member.recordCheckout
    calls := others
    handles := .lease member.metadata.id ::ₘ s.handles }

/-- The steps of a pool in use. Of a signal no more is known than that it wakes a parked call if
there is one. -/
inductive Step (s : Traffic α) : Event α → Traffic α → Prop
  | arrive {patience} : patience.StartsAt s.now →
      Step s (.arrived patience) { s with calls := .looking patience .arrival ::ₘ s.calls }
  | advance {call others e after next} : s.calls = call ::ₘ others →
      call.Advance s.now s.pool e after next → Step s e (s.turn after next others)
  | lend {m others} : s.calls = .handingOut m ::ₘ others →
      Step s (.lent m) (s.lend m others)
  | signal {errand others woken} : s.calls = .signalling errand ::ₘ (others + woken) →
      (∀ call ∈ woken, call.isParked) → (woken = 0 → ∀ call ∈ others, ¬ call.isParked) →
      Step s (.signalled errand woken)
        (s.turn s.pool (some (.finishing errand)) (others + woken.map Call.wake))
  | broadcast {errand others} : s.calls = .broadcasting errand ::ₘ others →
      Step s (.broadcast errand) (s.turn s.pool (some (.finishing errand)) (others.map Call.wake))
  | close :
      Step s (.closed s.pool.shut.1)
        (s.turn s.pool.shut.2 (some (.broadcasting (.destroy s.pool.shut.1))) s.calls)
  | share {id} : .lease id ∈ s.handles →
      Step s (.shared id)
        { s with ledger := s.ledger.addHandle id, handles := .shared id ::ₘ s.handles }
  | clone {id} : .shared id ∈ s.handles →
      Step s (.cloned id)
        { s with ledger := s.ledger.addHandle id, handles := .shared id ::ₘ s.handles }
  | convert {id others} : s.handles = .lease id ::ₘ others →
      Step s (.converted id) { s with handles := .shared id ::ₘ others }
  | use {id conn} : id ∈ s.handles.map Handle.id →
      Step s (.used id conn) { s with ledger := s.ledger.setConnection id conn }
  | drop {handle others ledger} : s.handles = handle ::ₘ others →
      s.ledger.letGo handle.id = (none, ledger) →
      Step s (.dropped handle) { s with ledger, handles := others }
  | dropLast {handle others m ledger} : s.handles = handle ::ₘ others →
      s.ledger.letGo handle.id = (some m, ledger) →
      Step s (.dropped handle)
        { s with ledger, calls := .givingBack m ::ₘ s.calls, handles := others }
  | detach {id others m ledger} : s.handles = .lease id ::ₘ others →
      s.ledger.takeOut? id = some (m, ledger) →
      Step s (.detached m)
        { s with ledger, calls := .detaching m ::ₘ s.calls, handles := others }
  | keep {id} : .lease id ∈ s.handles → s.ledger.takeOut? id = none → Step s (.kept id) s
  | tick : Step s .ticked { s with now := s.now + 1 }

/-- What happens from one state to another, the latest first. -/
inductive Run (s : Traffic α) : List (Event α) → Traffic α → Prop
  | refl : Run s [] s
  | step {events e t u} : Run s events t → Step t e u → Run s (e :: events) u

namespace Step

variable {ledger after : Ledger α} {pool : Pool α} {call next : Call α}
  {others : Multiset (Call α)} {handle : Handle} {handles : Multiset Handle} {now : Nat}
  {e : Event α} {m : Member α}

theorem arrives {patience : Patience} (h : patience.StartsAt now) :
    Step ⟨ledger, others, handles, now⟩ (.arrived patience)
      ⟨ledger, .looking patience .arrival ::ₘ others, handles, now⟩ := by
  have hs : Step ⟨ledger, others, handles, now⟩ (.arrived patience) _ := .arrive h
  exact hs

theorem goesOn (h : call.Advance now ledger.pool e pool (some next)) :
    Step ⟨ledger, call ::ₘ others, handles, now⟩ e
      ⟨{ ledger with pool }, next ::ₘ others, handles, now⟩ := by
  have hs : Step ⟨ledger, call ::ₘ others, handles, now⟩ e _ := .advance rfl h
  exact hs

theorem ends (h : call.Advance now ledger.pool e pool none) :
    Step ⟨ledger, call ::ₘ others, handles, now⟩ e
      ⟨{ ledger with pool }, others, handles, now⟩ := by
  have hs : Step ⟨ledger, call ::ₘ others, handles, now⟩ e _ := .advance rfl h
  exact hs

theorem lends :
    Step ⟨ledger, .handingOut m ::ₘ others, handles, now⟩ (.lent m)
      ⟨{ ledger with pool := ledger.pool.countCheckout }.start m.recordCheckout, others,
        .lease m.metadata.id ::ₘ handles, now⟩ := by
  have hs : Step ⟨ledger, .handingOut m ::ₘ others, handles, now⟩ (.lent m) _ := .lend rfl
  exact hs

theorem dropsLast (h : ledger.letGo handle.id = (some m, after)) :
    Step ⟨ledger, others, handle ::ₘ handles, now⟩ (.dropped handle)
      ⟨after, .givingBack m ::ₘ others, handles, now⟩ := by
  have hs : Step ⟨ledger, others, handle ::ₘ handles, now⟩ (.dropped handle) _ := .dropLast rfl h
  exact hs

end Step

end Traffic

end ConnectionPool

import ConnectionPool.Proofs.Traffic.Slots
import Mathlib.Algebra.BigOperators.Group.Multiset.Basic

/-!
# Tallies

Each metric counts events: what a step adds to it is told by the event of that step alone. What
calls in progress have still to do is a weight that events put on them and take off again.
-/

namespace ConnectionPool

variable {ω α : Type}

/-- How an attempt to get a connection ends. -/
inductive Outcome where
  | lease
  /-- No connection is to be had, and the caller does not wait. -/
  | nothing
  | poolClosed
  | timeout
  | factory
  | aborted
  deriving DecidableEq, Repr

namespace Outcome

/-- Whether the caller is told of an error. -/
def isFailure : Outcome → Bool
  | .poolClosed => true
  | .timeout => true
  | .factory => true
  | _ => false

end Outcome

namespace Errand

def outcome? : Errand α → Option Outcome
  | .reportFailure _ => some .factory
  | .abort _ => some .aborted
  | _ => none

def outcomes (errand : Errand α) : Nat := if errand.outcome?.isSome then 1 else 0

/-- Connections to be destroyed. -/
def doomed : Errand α → Nat
  | .destroy members => members.length
  | _ => 0

def returns : Errand α → Nat
  | .countReturn => 1
  | _ => 0

def failures : Errand α → Nat
  | .reportFailure _ => 1
  | _ => 0

end Errand

namespace Event

/-- The errand that begins with an event. -/
def errand? : Event α → Option (Errand α)
  | .failed _ cause => some (.reportFailure cause)
  | .aborted _ cause => some (.abort cause)
  | .pooled _ => some .countReturn
  | .expelled m => some (.destroy [m])
  | .released m => some (.surrender m)
  | .closed left => some (.destroy left)
  | _ => none

/-- The errand that ends with an event. -/
def settled? : Event α → Option (Errand α)
  | .finished errand => some errand
  | _ => none

/-- A measure of errands, taken as they begin. -/
def incurs (measure : Errand α → Nat) (e : Event α) : Nat := (e.errand?.map measure).getD 0

/-- A measure of errands, taken as they end. -/
def settles (measure : Errand α → Nat) (e : Event α) : Nat := (e.settled?.map measure).getD 0

/-- How the attempt ends that has its last section in this event. -/
def outcome? : Event α → Option Outcome
  | .lent _ => some .lease
  | .declined _ => some .nothing
  | .refused _ _ => some .poolClosed
  | .expired _ _ => some .timeout
  | .finished errand => errand.outcome?
  | _ => none

def outcomes (e : Event α) : Nat := if e.outcome?.isSome then 1 else 0

def ends (o : Outcome) (e : Event α) : Nat := if e.outcome? = some o then 1 else 0

/-- What an event adds to each metric. -/
def tally : Event α → Metrics
  | .made _ => { connectionsCreated := 1 }
  | .lent _ => { checkoutsSuccessful := 1 }
  | .refused _ _ => { checkoutsFailed := 1 }
  | .expired _ _ => { checkoutsFailed := 1 }
  | .finished errand =>
    { connectionsClosed := errand.doomed
      creationFailures := errand.failures
      checkoutsFailed := errand.failures
      returns := errand.returns }
  | _ => {}

def attempts : Event α → Nat
  | .arrived _ => 1
  | _ => 0

def detachments : Event α → Nat
  | .detached _ => 1
  | _ => 0

def releases : Event α → Nat
  | .released _ => 1
  | _ => 0

def expulsions : Event α → Nat
  | .expelled _ => 1
  | _ => 0

theorem length_removals (e : Event α) : e.removals.length = e.expulsions + e.releases := by
  cases e <;> rfl

theorem incurs_doomed : incurs (α := α) Errand.doomed =
    fun e => e.expulsions + e.evictions.length := by
  funext e
  cases e <;> simp [incurs, errand?, Errand.doomed, expulsions, evictions]

theorem incurs_returns : incurs (α := α) Errand.returns = fun e => e.returns.length := by
  funext e
  cases e <;> rfl

theorem settles_doomed : settles (α := α) Errand.doomed =
    fun e => e.tally.connectionsClosed := by
  funext e
  cases e <;> rfl

theorem settles_returns : settles (α := α) Errand.returns = fun e => e.tally.returns := by
  funext e
  cases e <;> rfl

theorem tally_connectionsCreated (e : Event α) :
    e.tally.connectionsCreated = e.arrivals.length := by
  cases e <;> rfl

theorem tally_checkoutsSuccessful (e : Event α) :
    e.tally.checkoutsSuccessful = e.loans.length := by
  cases e <;> rfl

theorem tally_creationFailures (e : Event α) : e.tally.creationFailures = e.ends .factory := by
  cases e with
  | finished errand => cases errand <;> rfl
  | _ => rfl

theorem tally_checkoutsFailed (e : Event α) :
    e.tally.checkoutsFailed = e.ends .factory + e.ends .timeout + e.ends .poolClosed := by
  cases e with
  | finished errand => cases errand <;> rfl
  | _ => rfl

/-- The sections that add to a metric. -/
inductive Counts : Event α → Prop
  | made (m : Member α) : Counts (.made m)
  | lent (m : Member α) : Counts (.lent m)
  | failure {e : Event α} {o : Outcome} : e.outcome? = some o → o.isFailure = true → Counts e
  | returned : Counts (.finished .countReturn)
  | destroyed (members : List (Member α)) : Counts (.finished (.destroy members))

/-- Ends an attempt that comes to nothing or is aborted, or a factory call that is. -/
def IsFutile (e : Event α) : Prop :=
  e.outcome? = some .nothing ∨ e.outcome? = some .aborted ∨ ∃ id cause, e = .aborted id cause

theorem IsFutile.not_counts {e : Event α} (h : e.IsFutile) : ¬ e.Counts := by
  intro hc
  cases hc with
  | failure ho hf =>
    obtain hn | hn | ⟨id, cause, rfl⟩ := h
    · rw [hn] at ho
      cases ho
      cases hf
    · rw [hn] at ho
      cases ho
      cases hf
    · cases ho
  | _ => obtain hn | hn | ⟨id, cause, hn⟩ := h <;> cases hn

theorem counts_or_tally_eq (e : Event α) : e.Counts ∨ e.tally = {} := by
  cases e with
  | made m => exact .inl (.made m)
  | lent m => exact .inl (.lent m)
  | refused | expired => exact .inl (.failure rfl rfl)
  | finished errand =>
    cases errand with
    | reportFailure => exact .inl (.failure rfl rfl)
    | countReturn => exact .inl .returned
    | destroy members => exact .inl (.destroyed members)
    | _ => exact .inr rfl
  | _ => exact .inr rfl

/-- Concerns handles or the clock only. -/
def isAside : Event α → Bool
  | .shared _ => true
  | .cloned _ => true
  | .converted _ => true
  | .used _ _ => true
  | .dropped _ => true
  | .kept _ => true
  | .ticked => true
  | _ => false

end Event

namespace Metrics

instance : Add Metrics where
  add m n :=
    { connectionsCreated := m.connectionsCreated + n.connectionsCreated
      connectionsClosed := m.connectionsClosed + n.connectionsClosed
      creationFailures := m.creationFailures + n.creationFailures
      checkoutsSuccessful := m.checkoutsSuccessful + n.checkoutsSuccessful
      checkoutsFailed := m.checkoutsFailed + n.checkoutsFailed
      returns := m.returns + n.returns }

/-- None of the metrics is beyond its counterpart. -/
structure AtMost (m n : Metrics) : Prop where
  connectionsCreated : m.connectionsCreated ≤ n.connectionsCreated
  connectionsClosed : m.connectionsClosed ≤ n.connectionsClosed
  creationFailures : m.creationFailures ≤ n.creationFailures
  checkoutsSuccessful : m.checkoutsSuccessful ≤ n.checkoutsSuccessful
  checkoutsFailed : m.checkoutsFailed ≤ n.checkoutsFailed
  returns : m.returns ≤ n.returns

theorem AtMost.refl (m : Metrics) : m.AtMost m :=
  ⟨Nat.le_refl _, Nat.le_refl _, Nat.le_refl _, Nat.le_refl _, Nat.le_refl _, Nat.le_refl _⟩

theorem AtMost.trans {l m n : Metrics} (h : l.AtMost m) (h' : m.AtMost n) : l.AtMost n where
  connectionsCreated := h.connectionsCreated.trans h'.connectionsCreated
  connectionsClosed := h.connectionsClosed.trans h'.connectionsClosed
  creationFailures := h.creationFailures.trans h'.creationFailures
  checkoutsSuccessful := h.checkoutsSuccessful.trans h'.checkoutsSuccessful
  checkoutsFailed := h.checkoutsFailed.trans h'.checkoutsFailed
  returns := h.returns.trans h'.returns

theorem AtMost.add (m n : Metrics) : m.AtMost (m + n) :=
  ⟨Nat.le_add_right _ _, Nat.le_add_right _ _, Nat.le_add_right _ _, Nat.le_add_right _ _,
    Nat.le_add_right _ _, Nat.le_add_right _ _⟩

end Metrics

theorem Call.Advance.metrics_eq {now : Nat} {pool after : Pool α} {call : Call α} {e : Event α}
    {next : Option (Call α)} (h : call.Advance now pool e after next) :
    after.metrics = pool.metrics + e.tally := by
  cases h with
  | reuse hi =>
    obtain ⟨-, -, hp⟩ := Pool.inspect_eq_reuse hi
    rw [hp]
    rfl
  | reserve hi =>
    obtain ⟨-, -, -, rfl⟩ := Pool.inspect_eq_create.mp hi
    rfl
  | pool ht =>
    obtain ⟨-, rfl⟩ := Pool.takeBack_eq_none.mp ht
    rfl
  | expel ht =>
    obtain ⟨-, -, rfl⟩ := Pool.takeBack_eq_some.mp ht
    rfl
  | @finish errand => cases errand <;> rfl
  | _ => rfl

/-- A number that each event has, summed over a history. -/
def Traffic.sumOf (events : List (Event α)) (f : Event α → Nat) : Nat := (events.map f).sum

theorem Traffic.sumOf_add (events : List (Event α)) (f g : Event α → Nat) :
    sumOf events (fun e => f e + g e) = sumOf events f + sumOf events g :=
  List.sum_map_add

/-- A weight of calls that events put on and take off. -/
structure Call.Weighs (f : Call α → Nat) (gain loss : Event α → Nat) : Prop where
  wake : ∀ call, f call.wake = f call := by
    intro call
    cases call <;> rfl
  arrive : ∀ w, f (.looking w .arrival) + loss (.arrived w) = gain (.arrived w) := by
    intro w
    rfl
  advance : ∀ {now pool call e after next}, call.Advance now pool e after next →
      (next.map f).getD 0 + loss e = f call + gain e := by
    intro now pool call e after next h
    cases h <;> exact Nat.add_comm _ _
  lend : ∀ m, loss (.lent m) = f (.handingOut m) + gain (.lent m) := by
    intro m
    rfl
  signal : ∀ errand woken, f (.finishing errand) + loss (.signalled errand woken) =
      f (.signalling errand) + gain (.signalled errand woken) := by
    intro errand woken
    rfl
  broadcast : ∀ errand, f (.finishing errand) + loss (.broadcast errand) =
      f (.broadcasting errand) + gain (.broadcast errand) := by
    intro errand
    rfl
  close : ∀ left, f (.broadcasting (.destroy left)) + loss (.closed left) =
      gain (.closed left) := by
    intro left
    rfl
  giveBack : ∀ m, f (.givingBack m) = 0 := by
    intro m
    rfl
  detach : ∀ m, f (.detaching m) + loss (.detached m) = gain (.detached m) := by
    intro m
    rfl
  aside : ∀ e, e.isAside = true → loss e = gain e := by
    intro e h
    cases e <;> first | rfl | cases h

namespace Traffic

variable {s t u : Traffic α} {e : Event α} {events : List (Event α)}

/-- What all calls in progress weigh. -/
def weight (s : Traffic α) (f : Call α → Nat) : Nat := (s.calls.map f).sum

theorem weight_turn {f : Call α → Nat} (after : Pool α) (next : Option (Call α))
    (others : Multiset (Call α)) :
    (s.turn after next others).weight f = (next.map f).getD 0 + (others.map f).sum := by
  cases next with
  | none => exact (Nat.zero_add _).symm
  | some call => simp [weight, turn]

theorem Step.weight_flow {f : Call α → Nat} {gain loss : Event α → Nat}
    (hf : Call.Weighs f gain loss) (h : Step s e t) :
    t.weight f + loss e = s.weight f + gain e := by
  have hwake (calls : Multiset (Call α)) : (calls.map Call.wake).map f = calls.map f := by
    rw [Multiset.map_map]
    exact Multiset.map_congr rfl fun call _ => hf.wake call
  cases h with
  | @arrive w =>
    have hw := hf.arrive w
    simp only [weight, Multiset.map_cons, Multiset.sum_cons]
    omega
  | @advance call others _ after next hc ha =>
    have hflow := hf.advance ha
    rw [weight_turn, weight, hc, Multiset.map_cons, Multiset.sum_cons]
    omega
  | @lend m others hc =>
    have hm := hf.lend m
    have hafter : (s.lend m others).weight f = (others.map f).sum := rfl
    rw [hafter, weight, hc, Multiset.map_cons, Multiset.sum_cons]
    omega
  | @signal errand others woken hc =>
    have hsignal := hf.signal errand woken
    rw [weight_turn, weight, hc]
    simp only [Multiset.map_add, hwake, Multiset.map_cons, Multiset.sum_cons, Option.map_some,
      Option.getD_some]
    omega
  | @broadcast errand others hc =>
    have hbroadcast := hf.broadcast errand
    rw [weight_turn, weight, hc]
    simp only [hwake, Multiset.map_cons, Multiset.sum_cons, Option.map_some, Option.getD_some]
    omega
  | close =>
    have hclose := hf.close s.pool.shut.1
    rw [weight_turn, Option.map_some, Option.getD_some, weight]
    omega
  | @dropLast handle _ m _ _ _ =>
    have hm := hf.giveBack m
    have hd := hf.aside (.dropped handle) rfl
    simp only [weight, Multiset.map_cons, Multiset.sum_cons]
    omega
  | @detach _ _ m _ _ _ =>
    have hm := hf.detach m
    simp only [weight, Multiset.map_cons, Multiset.sum_cons]
    omega
  | _ => exact congrArg _ (hf.aside _ rfl)

theorem Run.balance {f : Traffic α → Nat} {gain loss : Event α → Nat} (hr : Run s events t)
    (hstep : ∀ s e t, Step s e t → f t + loss e = f s + gain e) :
    f t + sumOf events loss = f s + sumOf events gain := by
  induction hr with
  | refl => rfl
  | step _ hs ih =>
    have h := hstep _ _ _ hs
    simp only [sumOf, List.map_cons, List.sum_cons] at ih ⊢
    omega

theorem Run.weight_flow {f : Call α → Nat} {gain loss : Event α → Nat}
    (hf : Call.Weighs f gain loss) (hr : Run s events t) :
    t.weight f + sumOf events loss = s.weight f + sumOf events gain :=
  hr.balance fun _ _ _ hs => hs.weight_flow hf

end Traffic

end ConnectionPool

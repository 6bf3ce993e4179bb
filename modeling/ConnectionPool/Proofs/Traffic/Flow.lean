import ConnectionPool.Proofs.Ledger
import ConnectionPool.Proofs.Traffic.Basic

/-!
# Where connections are

A connection of a pool is idle, offered by a call that will hand it out, or lent: in an episode or
in the hands of a call that ends one. Each step moves connections between these places as its event
tells. The laws count the connections whose number is of some kind `p`.
-/

namespace ConnectionPool

variable {α : Type}

namespace Call

variable (p : Nat → Bool)

def offers : Call α → Bool
  | .handingOut m => p m.id
  | _ => false

/-- Has such a connection from an episode that is over. -/
def brings : Call α → Bool
  | .givingBack m => p m.id
  | .detaching m => p m.id
  | _ => false

def makes : Call α → Bool
  | .creating id => p id
  | _ => false

/-- Has a slot without a connection. -/
def isReserved : Call α → Bool
  | .granted => true
  | .creating _ => true
  | _ => false

attribute [simp] offers.eq_1 offers.eq_2 brings.eq_1 brings.eq_2 brings.eq_3 makes.eq_1 makes.eq_2
  isReserved.eq_1 isReserved.eq_2 isReserved.eq_3

theorem countP_wake {q : Call α → Bool} (hq : ∀ call, q call.wake = q call)
    (calls : Multiset (Call α)) :
    (calls.map wake).countP (fun call => q call) = calls.countP (fun call => q call) := by
  rw [Multiset.countP_map, Multiset.countP_eq_card_filter]
  congr 1
  apply Multiset.filter_congr
  intro call _
  rw [hq]

theorem offers_wake (call : Call α) : call.wake.offers p = call.offers p := by cases call <;> rfl

theorem brings_wake (call : Call α) : call.wake.brings p = call.brings p := by cases call <;> rfl

theorem makes_wake (call : Call α) : call.wake.makes p = call.makes p := by cases call <;> rfl

theorem isReserved_wake (call : Call α) : call.wake.isReserved = call.isReserved := by
  cases call <;> rfl

end Call

namespace Event

def reuses : Event α → List Nat
  | .reused _ _ m => [m.id]
  | _ => []

def arrivals : Event α → List Nat
  | .made m => [m.id]
  | _ => []

def loans : Event α → List Nat
  | .lent m => [m.id]
  | _ => []

def returns : Event α → List Nat
  | .pooled m => [m.id]
  | _ => []

/-- The number of a connection that leaves the pool for good at the end of an episode. -/
def removals : Event α → List Nat
  | .expelled m => [m.id]
  | .released m => [m.id]
  | _ => []

/-- The numbers of the idle connections that leave a pool as it is closed. -/
def evictions : Event α → List Nat
  | .closed left => left.map Member.id
  | _ => []

def numbers : Event α → List Nat
  | .numbered id => [id]
  | _ => []

/-- The number of a connection that could not be made. -/
def wastes : Event α → List Nat
  | .failed id _ => [id]
  | .aborted id _ => [id]
  | _ => []

def claims : Event α → Nat
  | .reserved _ _ => 1
  | _ => 0

def forfeits (e : Event α) : Nat := e.removals.length + e.wastes.length + e.evictions.length

/-- Has nothing to do with idle connections, slots and numbers. -/
structure IsQuiet (e : Event α) : Prop where
  reuses : e.reuses = []
  returns : e.returns = []
  removals : e.removals = []
  evictions : e.evictions = []
  wastes : e.wastes = []
  numbers : e.numbers = []
  claims : e.claims = 0

end Event

namespace Traffic

def idleCount (s : Traffic α) (p : Nat → Bool) : Nat := s.pool.idle.countP fun m => p m.id

def offeredCount (s : Traffic α) (p : Nat → Bool) : Nat :=
  s.calls.countP fun call => call.offers p

/-- Connections of a kind that were lent and are not yet back or gone. -/
def lentCount (s : Traffic α) (p : Nat → Bool) : Nat :=
  s.ledger.ids.countP p + s.calls.countP fun call => call.brings p

/-- All connections of a kind that the pool answers for. -/
def population (s : Traffic α) (p : Nat → Bool) : Nat :=
  s.idleCount p + s.offeredCount p + s.lentCount p

def makingCount (s : Traffic α) (p : Nat → Bool) : Nat := s.calls.countP fun call => call.makes p

/-- Slots that are taken without a connection. -/
def reservedCount (s : Traffic α) : Nat := s.calls.countP fun call => call.isReserved

end Traffic

/-- The books after a section, the idle connections aside. -/
structure Call.Books (pool : Pool α) (e : Event α) (after : Pool α) : Prop where
  settings_eq : after.settings = pool.settings
  closed_eq : after.closed = pool.closed
  created_eq : after.created = pool.created + e.claims - (e.removals.length + e.wastes.length)
  numbering : e.numbers = [] ∧ after.nextId = pool.nextId ∨
    e.numbers = [pool.nextId] ∧ after.nextId = pool.nextId + 1

namespace Call.Advance

variable {now : Nat} {pool after : Pool α} {call : Call α} {e : Event α} {next : Option (Call α)}

theorem idle_flow (p : Nat → Bool) (h : call.Advance now pool e after next) :
    (after.idle.countP fun m => p m.id) + e.reuses.countP p =
      (pool.idle.countP fun m => p m.id) + e.returns.countP p := by
  cases h with
  | reuse hi =>
    obtain ⟨-, hp, -⟩ := Pool.inspect_eq_reuse hi
    simp [Event.reuses, Event.returns, hp, List.countP_cons]
  | reserve hi =>
    obtain ⟨-, -, -, rfl⟩ := Pool.inspect_eq_create.mp hi
    rfl
  | pool ht =>
    obtain ⟨-, rfl⟩ := Pool.takeBack_eq_none.mp ht
    simp [Pool.addIdle, Event.reuses, Event.returns, List.countP_cons]
  | expel ht =>
    obtain ⟨-, -, rfl⟩ := Pool.takeBack_eq_some.mp ht
    rfl
  | finish => simp [Event.reuses, Event.returns]
  | _ => rfl

theorem offered_flow (p : Nat → Bool) (h : call.Advance now pool e after next) :
    next.toList.countP (offers p) =
      [call].countP (offers p) + e.arrivals.countP p + e.reuses.countP p := by
  cases h <;> simp [Event.arrivals, Event.reuses, List.countP_cons]

theorem brought_flow (p : Nat → Bool) (h : call.Advance now pool e after next) :
    next.toList.countP (brings p) + e.returns.countP p + e.removals.countP p =
      [call].countP (brings p) := by
  cases h with
  | expel ht =>
    obtain ⟨-, rfl, -⟩ := Pool.takeBack_eq_some.mp ht
    simp [Event.returns, Event.removals, List.countP_cons]
  | _ => simp [Event.returns, Event.removals, List.countP_cons]

theorem reserved_flow (h : call.Advance now pool e after next) :
    next.toList.countP isReserved + e.arrivals.length + e.wastes.length =
      [call].countP isReserved + e.claims := by
  cases h <;> rfl

theorem making_flow (p : Nat → Bool) (h : call.Advance now pool e after next) :
    next.toList.countP (makes p) + e.arrivals.countP p + e.wastes.countP p =
      [call].countP (makes p) + e.numbers.countP p := by
  cases h <;>
    simp [Event.arrivals, Event.wastes, Event.numbers, List.countP_cons, Member.id, Metadata.fresh]

theorem books (h : call.Advance now pool e after next) : Books pool e after := by
  cases h with
  | reuse hi =>
    obtain ⟨-, -, hp⟩ := Pool.inspect_eq_reuse hi
    rw [hp]
    exact ⟨rfl, rfl, rfl, .inl ⟨rfl, rfl⟩⟩
  | reserve hi =>
    obtain ⟨-, -, -, rfl⟩ := Pool.inspect_eq_create.mp hi
    exact ⟨rfl, rfl, rfl, .inl ⟨rfl, rfl⟩⟩
  | number => exact ⟨rfl, rfl, rfl, .inr ⟨rfl, rfl⟩⟩
  | pool ht =>
    obtain ⟨-, rfl⟩ := Pool.takeBack_eq_none.mp ht
    exact ⟨rfl, rfl, rfl, .inl ⟨rfl, rfl⟩⟩
  | expel ht =>
    obtain ⟨-, -, rfl⟩ := Pool.takeBack_eq_some.mp ht
    exact ⟨rfl, rfl, rfl, .inl ⟨rfl, rfl⟩⟩
  | @finish errand =>
    exact ⟨errand.settle_settings pool, errand.settle_closed pool, errand.settle_created pool,
      .inl ⟨rfl, errand.settle_nextId pool⟩⟩
  | _ => exact ⟨rfl, rfl, rfl, .inl ⟨rfl, rfl⟩⟩

theorem claims_room (h : call.Advance now pool e after next) :
    e.claims = 0 ∨ pool.created + e.claims ≤ pool.settings.maxConnections := by
  cases h with
  | reserve hi => exact .inr (Pool.inspect_eq_create.mp hi).2.2.1
  | _ => exact .inl rfl

theorem no_loans (h : call.Advance now pool e after next) : e.loans = [] := by cases h <;> rfl

theorem no_evictions (h : call.Advance now pool e after next) : e.evictions = [] := by
  cases h <;> rfl

end Call.Advance

namespace Traffic

variable {s t : Traffic α} {e : Event α}

theorem mem_turn {after : Pool α} {next : Option (Call α)} {others : Multiset (Call α)}
    {call : Call α} : call ∈ (s.turn after next others).calls ↔ call ∈ next ∨ call ∈ others := by
  cases next <;> simp [turn, eq_comm]

theorem countP_turn {call : Call α} {others : Multiset (Call α)} (hc : s.calls = call ::ₘ others)
    (after : Pool α) (next : Option (Call α)) (q : Call α → Bool) :
    ((s.turn after next others).calls.countP fun call => q call) + [call].countP q =
      (s.calls.countP fun call => q call) + next.toList.countP q := by
  cases next with
  | none =>
    simp [turn, hc, Multiset.countP_cons, List.countP_singleton]
  | some call' =>
    simp only [turn, hc, Option.elim, Option.toList_some, Multiset.countP_cons,
      List.countP_singleton]
    omega

theorem Step.pool_cases (h : Step s e t) :
    (∃ call next, call ∈ s.calls ∧ call.Advance s.now s.pool e t.pool next) ∨
    (e = .closed s.pool.shut.1 ∧ t.pool = s.pool.shut.2) ∨
    (e.IsQuiet ∧ t.pool = { s.pool with metrics := t.pool.metrics }) := by
  have quiet (ht : t.pool = s.pool) : t.pool = { s.pool with metrics := t.pool.metrics } := by
    rw [ht]
  cases h with
  | @advance call others _ after next hc ha =>
    exact .inl ⟨call, next, hc ▸ Multiset.mem_cons_self _ _, ha⟩
  | close => exact .inr (.inl ⟨rfl, rfl⟩)
  | @drop handle _ ledger _ hl | @dropLast handle _ _ ledger _ hl =>
    have hp : ledger.pool = s.pool := Ledger.pool_of_letGo hl
    exact .inr (.inr ⟨⟨rfl, rfl, rfl, rfl, rfl, rfl, rfl⟩, quiet hp⟩)
  | detach hh hl =>
    obtain ⟨-, -, -, -, rfl⟩ := Ledger.takeOut?_eq_some.mp hl
    exact .inr (.inr ⟨⟨rfl, rfl, rfl, rfl, rfl, rfl, rfl⟩, rfl⟩)
  | _ => exact .inr (.inr ⟨⟨rfl, rfl, rfl, rfl, rfl, rfl, rfl⟩, rfl⟩)

theorem Step.idle_flow (p : Nat → Bool) (h : Step s e t) :
    t.idleCount p + e.reuses.countP p + e.evictions.countP p =
      s.idleCount p + e.returns.countP p := by
  obtain ⟨call, next, -, ha⟩ | ⟨rfl, ht⟩ | ⟨hq, ht⟩ := h.pool_cases
  · have hl := ha.idle_flow p
    simpa [idleCount, ha.no_evictions] using hl
  · simp [idleCount, ht, Pool.shut, Event.evictions, Event.reuses, Event.returns,
      Function.comp_def]
  · rw [idleCount, ht, hq.reuses, hq.evictions, hq.returns]
    rfl

theorem Step.offered_flow (p : Nat → Bool) (h : Step s e t) :
    t.offeredCount p + e.loans.countP p =
      s.offeredCount p + e.arrivals.countP p + e.reuses.countP p := by
  cases h with
  | @advance call others _ after next hc ha =>
    have hl := ha.offered_flow p
    have ht := countP_turn hc after next (Call.offers p)
    simp only [offeredCount, ha.no_loans, List.countP_nil]
    omega
  | lend hc =>
    simp [offeredCount, Traffic.lend, hc, Event.loans, Event.arrivals, Event.reuses,
      List.countP_cons, Multiset.countP_cons]
  | signal hc hw _ =>
    simp [offeredCount, turn, hc, Event.loans, Event.arrivals, Event.reuses,
      Call.countP_wake (Call.offers_wake p)]
  | broadcast hc =>
    simp [offeredCount, turn, hc, Event.loans, Event.arrivals, Event.reuses,
      Call.countP_wake (Call.offers_wake p)]
  | _ => simp [offeredCount, turn, Event.loans, Event.arrivals, Event.reuses]

theorem Step.lent_flow (p : Nat → Bool) (h : Step s e t) :
    t.lentCount p + e.returns.countP p + e.removals.countP p =
      s.lentCount p + e.loans.countP p := by
  cases h with
  | @advance call others _ after next hc ha =>
    have hl := ha.brought_flow p
    have ht := countP_turn hc after next (Call.brings p)
    have hi : (s.turn after next others).ledger.ids = s.ledger.ids := rfl
    simp only [lentCount, ha.no_loans, List.countP_nil, hi]
    omega
  | lend hc =>
    simp only [lentCount, Traffic.lend, hc, Event.loans, Event.returns, Event.removals,
      Ledger.ids_start, Ledger.ids_withPool, Member.id_recordCheckout, List.countP_cons,
      List.countP_nil, Multiset.countP_cons, Call.brings.eq_3]
    simp
    omega
  | signal hc hw _ =>
    simp [lentCount, turn, hc, Event.loans, Event.returns, Event.removals,
      Call.countP_wake (Call.brings_wake p)]
  | broadcast hc =>
    simp [lentCount, turn, hc, Event.loans, Event.returns, Event.removals,
      Call.countP_wake (Call.brings_wake p)]
  | @drop handle _ ledger _ hl =>
    simp [lentCount, Ledger.ids_letGo hl, Event.loans, Event.returns, Event.removals]
  | dropLast hh hl =>
    obtain ⟨e, he, -, rfl, rfl⟩ := Ledger.letGo_eq_some hl
    have hf := Ledger.countP_ids_finish he p
    simp only [lentCount, Multiset.countP_cons, Call.brings.eq_1, Event.loans, Event.returns,
      Event.removals, List.countP_nil]
    omega
  | detach hh hl =>
    obtain ⟨e, he, -, rfl, rfl⟩ := Ledger.takeOut?_eq_some.mp hl
    have hf := Ledger.countP_ids_finish he p
    simp only [lentCount, Multiset.countP_cons, Call.brings.eq_2, Event.loans, Event.returns,
      Event.removals, List.countP_nil]
    omega
  | _ => simp [lentCount, turn, Event.loans, Event.returns, Event.removals]

theorem Step.making_flow (p : Nat → Bool) (h : Step s e t) :
    t.makingCount p + e.arrivals.countP p + e.wastes.countP p =
      s.makingCount p + e.numbers.countP p := by
  cases h with
  | @advance call others _ after next hc ha =>
    have hl := ha.making_flow p
    have ht := countP_turn hc after next (Call.makes p)
    simp only [makingCount]
    omega
  | lend hc => simp [makingCount, Traffic.lend, hc, Event.arrivals, Event.wastes, Event.numbers]
  | signal hc hw _ =>
    simp [makingCount, turn, hc, Event.arrivals, Event.wastes, Event.numbers,
      Call.countP_wake (Call.makes_wake p)]
  | broadcast hc =>
    simp [makingCount, turn, hc, Event.arrivals, Event.wastes, Event.numbers,
      Call.countP_wake (Call.makes_wake p)]
  | _ => simp [makingCount, turn, Event.arrivals, Event.wastes, Event.numbers]

theorem Step.reserved_flow (h : Step s e t) :
    t.reservedCount + e.arrivals.length + e.wastes.length = s.reservedCount + e.claims := by
  cases h with
  | @advance call others _ after next hc ha =>
    have hl := ha.reserved_flow
    have ht := countP_turn hc after next Call.isReserved
    simp only [reservedCount]
    omega
  | lend hc => simp [reservedCount, Traffic.lend, hc, Event.arrivals, Event.wastes, Event.claims]
  | signal hc hw _ =>
    simp [reservedCount, turn, hc, Event.arrivals, Event.wastes, Event.claims,
      Call.countP_wake Call.isReserved_wake]
  | broadcast hc =>
    simp [reservedCount, turn, hc, Event.arrivals, Event.wastes, Event.claims,
      Call.countP_wake Call.isReserved_wake]
  | _ => simp [reservedCount, turn, Event.arrivals, Event.wastes, Event.claims]

/-- What a step does to the slots in the books, unless it gives up more than there are. -/
theorem Step.created_flow (h : Step s e t) :
    t.pool.created = s.pool.created + e.claims - e.forfeits := by
  rw [Event.forfeits]
  obtain ⟨call, next, -, ha⟩ | ⟨rfl, ht⟩ | ⟨hq, ht⟩ := h.pool_cases
  · simpa [ha.no_evictions] using ha.books.created_eq
  · simp [ht, Pool.shut, Event.claims, Event.removals, Event.wastes, Event.evictions]
  · rw [ht, hq.claims, hq.removals, hq.wastes, hq.evictions]
    rfl

theorem Step.claims_room (h : Step s e t) :
    e.claims = 0 ∨ s.pool.created + e.claims ≤ s.pool.settings.maxConnections := by
  obtain ⟨call, next, -, ha⟩ | ⟨rfl, -⟩ | ⟨hq, -⟩ := h.pool_cases
  · exact ha.claims_room
  · exact .inl rfl
  · exact .inl hq.claims

theorem Step.numbering (h : Step s e t) :
    e.numbers = [] ∧ t.pool.nextId = s.pool.nextId ∨
      e.numbers = [s.pool.nextId] ∧ t.pool.nextId = s.pool.nextId + 1 := by
  obtain ⟨call, next, -, ha⟩ | ⟨rfl, ht⟩ | ⟨hq, ht⟩ := h.pool_cases
  · exact ha.books.numbering
  · exact .inl ⟨rfl, by rw [ht]; rfl⟩
  · exact .inl ⟨hq.numbers, by rw [ht]⟩

theorem Step.number_flow (id : Nat) (h : Step s e t) :
    (if id < t.pool.nextId then 1 else 0) =
      (if id < s.pool.nextId then 1 else 0) + e.numbers.countP (· == id) := by
  obtain ⟨hn, hi⟩ | ⟨hn, hi⟩ := h.numbering
  · rw [hn, hi]
    rfl
  · rw [hn, hi, List.countP_singleton]
    by_cases hid : s.pool.nextId = id
    · simp [hid]
    · have hlt : id < s.pool.nextId + 1 ↔ id < s.pool.nextId := by omega
      simp [hid, hlt]

theorem Step.settings_eq (h : Step s e t) : t.pool.settings = s.pool.settings := by
  obtain ⟨call, next, -, ha⟩ | ⟨rfl, ht⟩ | ⟨-, ht⟩ := h.pool_cases
  · exact ha.books.settings_eq
  · rw [ht]
    rfl
  · rw [ht]

/-- Connections come by being made and leave at the end of an episode or as the pool is closed. -/
theorem Step.population_flow (p : Nat → Bool) (h : Step s e t) :
    t.population p + e.removals.countP p + e.evictions.countP p =
      s.population p + e.arrivals.countP p := by
  have hi := h.idle_flow p
  have ho := h.offered_flow p
  have hb := h.lent_flow p
  simp only [population]
  omega

end Traffic

end ConnectionPool

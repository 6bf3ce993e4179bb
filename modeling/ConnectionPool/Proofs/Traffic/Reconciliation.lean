import ConnectionPool.Proofs.Traffic.Tally

/-!
# Metrics and history

While calls are in progress the metrics run behind what they stand for, by what these calls have
still to do. With no call in progress they agree with what has become of the connections.
-/

namespace ConnectionPool

variable {ω α : Type}

namespace Call

def errand? : Call α → Option (Errand α)
  | .signalling errand => some errand
  | .broadcasting errand => some errand
  | .finishing errand => some errand
  | _ => none

/-- A measure of the errand that a call still has to settle. -/
def owes (measure : Errand α → Nat) (call : Call α) : Nat := (call.errand?.map measure).getD 0

def detaches : Call α → Nat
  | .detaching _ => 1
  | _ => 0

/-- Whether a call is yet to end with an outcome. -/
def attempts : Call α → Nat
  | .looking _ _ => 1
  | .parked _ => 1
  | .granted => 1
  | .creating _ => 1
  | .handingOut _ => 1
  | call => call.owes Errand.outcomes

theorem weighs_owes (measure : Errand α → Nat) :
    Weighs (owes measure) (Event.incurs measure) (Event.settles measure) := {}

theorem weighs_detaches : Weighs (α := α) detaches Event.detachments Event.releases := {}

/-- Each attempt ends with one outcome. -/
theorem weighs_attempts : Weighs (α := α) attempts Event.attempts Event.outcomes where
  advance := by
    intro now pool call e after next h
    cases h with
    | @finish errand => cases errand <;> rfl
    | _ => rfl

end Call

namespace Traffic

variable {s t : Traffic α} {e : Event α} {events : List (Event α)}

theorem Step.metrics_eq (h : Step s e t) : t.pool.metrics = s.pool.metrics + e.tally := by
  cases h with
  | advance hc ha => exact ha.metrics_eq
  | @drop handle _ ledger _ hl | @dropLast handle _ _ ledger _ hl =>
    have hp : ledger.pool = s.pool := Ledger.pool_of_letGo hl
    exact congrArg Pool.metrics hp
  | detach hh hl =>
    obtain ⟨-, -, -, -, rfl⟩ := Ledger.takeOut?_eq_some.mp hl
    rfl
  | _ => rfl

theorem Step.counts_or_metrics_eq (h : Step s e t) :
    e.Counts ∨ t.pool.metrics = s.pool.metrics := by
  refine e.counts_or_tally_eq.imp_right ?_
  intro he
  rw [h.metrics_eq, he]
  rfl

/-- No metric ever goes back. -/
theorem Run.metrics_atMost (hr : Run s events t) : s.pool.metrics.AtMost t.pool.metrics := by
  induction hr with
  | refl => exact .refl _
  | step _ hs ih =>
    rw [hs.metrics_eq]
    exact ih.trans (.add _ _)

theorem Run.metric_flow {c : Metrics → Nat} (hc : ∀ m n, c (m + n) = c m + c n)
    (hr : Run s events t) :
    c t.pool.metrics = c s.pool.metrics + sumOf events fun e => c e.tally := by
  have hstep (s t : Traffic α) (e : Event α) (hs : Step s e t) :
      c t.pool.metrics + 0 = c s.pool.metrics + c e.tally := by
    rw [hs.metrics_eq]
    exact hc _ _
  have hflow := hr.balance fun s e t => hstep s t e
  simpa [sumOf] using hflow

end Traffic

/-- One for a connection that was never handed out and whose number is not below `first`. -/
def Member.debuts (first : Nat) (m : Member α) : Nat :=
  if m.metadata.handedOut = false ∧ first ≤ m.id then 1 else 0

theorem Member.debuts_eq_zero {first : Nat} {m : Member α} (h : m.metadata.handedOut = true) :
    m.debuts first = 0 := by
  simp [debuts, h]

namespace Event

/-- One for a checkout that is served by a connection made for it. -/
def debuts (first : Nat) : Event α → Nat
  | .lent m => m.debuts first
  | _ => 0

/-- Connections that come to be handed out for the first time. -/
def openings (first : Nat) : Event α → Nat
  | .made m => m.debuts first
  | .reused _ _ m => m.debuts first
  | _ => 0

end Event

namespace Call

def debuts (first : Nat) : Call α → Nat
  | .handingOut m => m.debuts first
  | _ => 0

theorem weighs_debuts (first : Nat) :
    Weighs (α := α) (debuts first) (Event.openings first) (Event.debuts first) := {}

/-- Makes a connection with a number from `first` on, or holds one that has been handed out. -/
def IsDated (first : Nat) : Call α → Prop
  | .creating id => first ≤ id
  | .givingBack m => m.metadata.handedOut = true
  | _ => True

theorem forall_mem_some {first : Nat} {call : Call α} (h : call.IsDated first) :
    ∀ next ∈ some call, next.IsDated first := by
  intro next hm
  obtain rfl := Option.mem_some.mp hm
  exact h

theorem IsDated.wake {first : Nat} {call : Call α} (h : call.IsDated first) :
    call.wake.IsDated first := by
  cases call <;> exact h

end Call

namespace Traffic

variable {s t : Traffic α} {e : Event α} {events : List (Event α)} {first : Nat}

/-- Connections numbered from `first` on have been handed out before they come back. -/
structure Dated (first : Nat) (s : Traffic α) : Prop where
  next : first ≤ s.pool.nextId
  idle : ∀ m ∈ s.pool.idle, m.debuts first = 0
  out : ∀ episode ∈ s.episodes, episode.member.metadata.handedOut = true
  calls : ∀ call ∈ s.calls, call.IsDated first

namespace Dated

theorem opening {p : Pool α} (h : p.Warm) : Dated p.nextId (opening p) where
  next := Nat.le_refl _
  idle := by
    intro m hm
    have hlt := h.lt_nextId m.id (List.mem_map_of_mem hm)
    exact if_neg fun hdebut => Nat.not_le.mpr hlt hdebut.2
  out := List.forall_mem_nil _
  calls := by
    intro call hm
    cases hm

theorem turn (h : s.Dated first) {after : Pool α} {next : Option (Call α)}
    {others : Multiset (Call α)} (hnext : first ≤ after.nextId)
    (hidle : ∀ m ∈ after.idle, m.debuts first = 0) (hcall : ∀ call ∈ next, call.IsDated first)
    (hothers : ∀ call ∈ others, call.IsDated first) : (s.turn after next others).Dated first where
  next := hnext
  idle := hidle
  out := h.out
  calls := by
    intro call hm
    cases mem_turn.mp hm with
    | inl hnew => exact hcall call hnew
    | inr hold => exact hothers call hold

theorem advance (h : s.Dated first) {call : Call α} {others : Multiset (Call α)} {after : Pool α}
    {next : Option (Call α)} (hc : s.calls = call ::ₘ others)
    (ha : call.Advance s.now s.pool e after next) : (s.turn after next others).Dated first := by
  have hcall : call.IsDated first := h.calls call (hc ▸ Multiset.mem_cons_self _ _)
  have hothers : ∀ other ∈ others, other.IsDated first :=
    fun other hm => h.calls other (hc ▸ Multiset.mem_cons_of_mem hm)
  cases ha with
  | reuse hi =>
    obtain ⟨-, hidle, hp⟩ := Pool.inspect_eq_reuse hi
    have hnext : after.nextId = s.pool.nextId := by rw [hp]
    have hrest : ∀ m ∈ after.idle, m.debuts first = 0 :=
      fun m hm => h.idle m (hidle ▸ List.mem_cons_of_mem _ hm)
    exact h.turn (hnext ▸ h.next) hrest (Call.forall_mem_some trivial) hothers
  | reserve hi =>
    obtain ⟨-, -, -, rfl⟩ := Pool.inspect_eq_create.mp hi
    exact h.turn h.next h.idle (Call.forall_mem_some trivial) hothers
  | number => exact h.turn (Nat.le_succ_of_le h.next) h.idle (Call.forall_mem_some h.next) hothers
  | pool ht =>
    obtain ⟨-, rfl⟩ := Pool.takeBack_eq_none.mp ht
    refine h.turn h.next ?_ (Call.forall_mem_some trivial) hothers
    exact List.forall_mem_cons.mpr ⟨Member.debuts_eq_zero hcall, h.idle⟩
  | expel ht =>
    obtain ⟨-, -, rfl⟩ := Pool.takeBack_eq_some.mp ht
    exact h.turn h.next h.idle (Call.forall_mem_some trivial) hothers
  | @finish errand =>
    refine h.turn ?_ ?_ (by simp) hothers
    · rw [errand.settle_nextId]
      exact h.next
    · rw [errand.settle_idle]
      exact h.idle
  | refuse | decline | expire => exact h.turn h.next h.idle (by simp) hothers
  | _ => exact h.turn h.next h.idle (Call.forall_mem_some trivial) hothers

theorem relabel (h : s.Dated first) (hp : t.pool = s.pool) (hc : t.calls = s.calls)
    (he : ∀ episode ∈ t.episodes, ∃ old ∈ s.episodes,
      episode.member.metadata = old.member.metadata) : t.Dated first where
  next := hp ▸ h.next
  idle := hp ▸ h.idle
  out := by
    intro episode hm
    obtain ⟨old, hold, hsame⟩ := he episode hm
    rw [hsame]
    exact h.out old hold
  calls := hc ▸ h.calls

theorem step (h : s.Dated first) (hs : Step s e t) : t.Dated first := by
  have hkept : ∀ episode ∈ s.episodes, ∃ old ∈ s.episodes,
      episode.member.metadata = old.member.metadata := fun episode hm => ⟨episode, hm, rfl⟩
  have hfinish {id : Nat} {episode : Episode α} (he : s.ledger.episode? id = some episode) :
      episode.member.metadata.handedOut = true ∧
        ∀ other ∈ (s.ledger.finish id).episodes, other.member.metadata.handedOut = true :=
    ⟨h.out episode (List.mem_of_find?_eq_some he),
      fun other hm => h.out other (List.mem_of_mem_eraseP hm)⟩
  cases hs with
  | arrive =>
    refine ⟨h.next, h.idle, h.out, ?_⟩
    intro call hm
    cases Multiset.mem_cons.mp hm with
    | inl hnew => exact hnew ▸ trivial
    | inr hold => exact h.calls call hold
  | advance hc ha => exact h.advance hc ha
  | @lend m others hc =>
    refine ⟨h.next, h.idle, List.forall_mem_cons.mpr ⟨rfl, h.out⟩, ?_⟩
    intro call hm
    exact h.calls call (hc ▸ Multiset.mem_cons_of_mem hm)
  | @signal errand others woken hc =>
    refine h.turn h.next h.idle (Call.forall_mem_some trivial) ?_
    intro call hm
    cases Multiset.mem_add.mp hm with
    | inl hold =>
      exact h.calls call (hc ▸ Multiset.mem_cons_of_mem (Multiset.mem_add.mpr (.inl hold)))
    | inr hwoken =>
      obtain ⟨old, hold, rfl⟩ := Multiset.mem_map.mp hwoken
      have hmem : old ∈ s.calls :=
        hc ▸ Multiset.mem_cons_of_mem (Multiset.mem_add.mpr (.inr hold))
      exact (h.calls old hmem).wake
  | @broadcast errand others hc =>
    refine h.turn h.next h.idle (Call.forall_mem_some trivial) ?_
    intro call hm
    obtain ⟨old, hold, rfl⟩ := Multiset.mem_map.mp hm
    exact (h.calls old (hc ▸ Multiset.mem_cons_of_mem hold)).wake
  | close =>
    exact h.turn h.next (List.forall_mem_nil _) (Call.forall_mem_some trivial) h.calls
  | share | clone | use =>
    exact h.relabel rfl rfl (Ledger.kept_update (fun x => x.member.metadata) fun _ => rfl)
  | convert | keep | tick => exact h.relabel rfl rfl hkept
  | @drop handle _ ledger _ hl =>
    have hp : ledger.pool = s.pool := Ledger.pool_of_letGo hl
    refine h.relabel hp rfl fun episode hm => ?_
    obtain ⟨old, hold, hsame⟩ := Ledger.member_letGo hl episode hm
    exact ⟨old, hold, congrArg Member.metadata hsame⟩
  | dropLast _ hl =>
    obtain ⟨episode, he, -, rfl, rfl⟩ := Ledger.letGo_eq_some hl
    obtain ⟨hback, hout⟩ := hfinish he
    refine ⟨h.next, h.idle, hout, ?_⟩
    intro call hm
    cases Multiset.mem_cons.mp hm with
    | inl hnew => exact hnew ▸ hback
    | inr hold => exact h.calls call hold
  | detach _ hl =>
    obtain ⟨episode, he, -, rfl, rfl⟩ := Ledger.takeOut?_eq_some.mp hl
    refine ⟨h.next, h.idle, (hfinish he).2, ?_⟩
    intro call hm
    cases Multiset.mem_cons.mp hm with
    | inl hnew => exact hnew ▸ trivial
    | inr hold => exact h.calls call hold

/-- On a dated pool, the connections that come to be handed out for the first time are those just
made. -/
theorem openings_eq (h : s.Dated first) (hs : Step s e t) :
    e.openings first = e.arrivals.length := by
  cases hs with
  | @advance call _ _ _ _ hc ha =>
    cases ha with
    | @make id =>
      have hid : first ≤ id := h.calls (.creating id) (hc ▸ Multiset.mem_cons_self _ _)
      exact if_pos ⟨rfl, hid⟩
    | reuse hi =>
      obtain ⟨-, hidle, -⟩ := Pool.inspect_eq_reuse hi
      exact h.idle _ (hidle ▸ List.mem_cons_self)
    | _ => rfl
  | _ => rfl

theorem run (h : s.Dated first) (hr : Run s events t) :
    t.Dated first ∧
      sumOf events (Event.openings first) = sumOf events fun e => e.arrivals.length := by
  induction hr with
  | refl => exact ⟨h, rfl⟩
  | step _ hs ih =>
    obtain ⟨hdated, hsum⟩ := ih
    refine ⟨hdated.step hs, ?_⟩
    simp only [sumOf, List.map_cons, List.sum_cons] at hsum ⊢
    rw [hdated.openings_eq hs, hsum]

end Dated

/-- How often an attempt ended in a certain way. -/
def endings (events : List (Event α)) (o : Outcome) : Nat := sumOf events (Event.ends o)

theorem Run.connectionsCreated_eq (hr : Run s events t) :
    t.pool.metrics.connectionsCreated =
      s.pool.metrics.connectionsCreated + sumOf events fun e => e.arrivals.length := by
  have hflow := hr.metric_flow (c := Metrics.connectionsCreated) fun _ _ => rfl
  simpa only [Event.tally_connectionsCreated] using hflow

theorem Run.checkoutsSuccessful_eq (hr : Run s events t) :
    t.pool.metrics.checkoutsSuccessful =
      s.pool.metrics.checkoutsSuccessful + sumOf events fun e => e.loans.length := by
  have hflow := hr.metric_flow (c := Metrics.checkoutsSuccessful) fun _ _ => rfl
  simpa only [Event.tally_checkoutsSuccessful] using hflow

theorem Run.creationFailures_eq (hr : Run s events t) :
    t.pool.metrics.creationFailures =
      s.pool.metrics.creationFailures + endings events .factory := by
  have hflow := hr.metric_flow (c := Metrics.creationFailures) fun _ _ => rfl
  simp only [Event.tally_creationFailures] at hflow
  exact hflow

theorem Run.checkoutsFailed_eq (hr : Run s events t) :
    t.pool.metrics.checkoutsFailed = s.pool.metrics.checkoutsFailed +
      (endings events .factory + endings events .timeout + endings events .poolClosed) := by
  have hflow := hr.metric_flow (c := Metrics.checkoutsFailed) fun _ _ => rfl
  simp only [Event.tally_checkoutsFailed, sumOf_add] at hflow
  exact hflow

theorem Run.connectionsClosed_flow (hr : Run s events t) :
    t.pool.metrics.connectionsClosed + t.weight (Call.owes Errand.doomed) =
      s.pool.metrics.connectionsClosed + s.weight (Call.owes Errand.doomed) +
        (sumOf events Event.expulsions + sumOf events fun e => e.evictions.length) := by
  have hclosed := hr.metric_flow (c := Metrics.connectionsClosed) fun _ _ => rfl
  have howed := hr.weight_flow (Call.weighs_owes Errand.doomed)
  rw [Event.incurs_doomed, Event.settles_doomed, sumOf_add] at howed
  omega

theorem Run.returns_flow (hr : Run s events t) :
    t.pool.metrics.returns + t.weight (Call.owes Errand.returns) =
      s.pool.metrics.returns + s.weight (Call.owes Errand.returns) +
        sumOf events fun e => e.returns.length := by
  have hreturns := hr.metric_flow (c := Metrics.returns) fun _ _ => rfl
  have howed := hr.weight_flow (Call.weighs_owes Errand.returns)
  rw [Event.incurs_returns, Event.settles_returns] at howed
  omega

theorem Run.population_flow (hr : Run s events t) :
    t.population (fun _ => true) + (sumOf events Event.expulsions + sumOf events Event.releases +
        sumOf events fun e => e.evictions.length) =
      s.population (fun _ => true) + sumOf events fun e => e.arrivals.length := by
  rw [← sumOf_add, ← sumOf_add]
  apply hr.balance
  intro s e t hs
  have hflow := hs.population_flow fun _ => true
  simp only [List.countP_true, Event.length_removals] at hflow
  omega

theorem Run.loan_flow (hr : Run s events t) :
    t.lentCount (fun _ => true) + (sumOf events Event.expulsions + sumOf events Event.releases +
        sumOf events fun e => e.returns.length) =
      s.lentCount (fun _ => true) + sumOf events fun e => e.loans.length := by
  rw [← sumOf_add, ← sumOf_add]
  apply hr.balance
  intro s e t hs
  have hflow := hs.lent_flow fun _ => true
  simp only [List.countP_true, Event.length_removals] at hflow
  omega

theorem Run.offered_flow (hr : Run s events t) :
    t.offeredCount (fun _ => true) + (sumOf events fun e => e.loans.length) =
      s.offeredCount (fun _ => true) + ((sumOf events fun e => e.arrivals.length) +
        sumOf events fun e => e.reuses.length) := by
  rw [← sumOf_add]
  apply hr.balance
  intro s e t hs
  have hflow := hs.offered_flow fun _ => true
  simp only [List.countP_true] at hflow
  omega

/-- How the metrics of a pool that came to be as `p`, and on which no call is in progress, agree
with its history and with what has become of its connections. -/
structure Reconciled (p : Pool α) (events : List (Event α)) (s : Traffic α) : Prop where
  created : s.pool.metrics.connectionsCreated =
    s.pool.idle.length + s.episodes.length + s.pool.metrics.connectionsClosed +
      sumOf events Event.detachments
  successful : s.pool.metrics.checkoutsSuccessful =
    s.episodes.length + sumOf events Event.detachments + s.pool.metrics.returns +
      sumOf events Event.expulsions
  failed : s.pool.metrics.checkoutsFailed =
    endings events .factory + endings events .timeout + endings events .poolClosed
  failures : s.pool.metrics.creationFailures = endings events .factory
  /-- Each connection made since then has served the checkout that it was made for. -/
  fresh : s.pool.metrics.connectionsCreated =
    p.settings.minConnections + sumOf events (Event.debuts p.nextId)
  /-- The other checkouts were served from the idle connections. -/
  reused : s.pool.metrics.checkoutsSuccessful =
    sumOf events (Event.debuts p.nextId) + sumOf events fun e => e.reuses.length
  /-- Each attempt has ended in one way. -/
  ended : sumOf events Event.attempts = sumOf events Event.outcomes

theorem Reconciled.of_run {p : Pool α} (hw : p.Warm)
    (hmin : p.created = p.settings.minConnections) (hr : Run (opening p) events s)
    (hq : s.calls = 0) : Reconciled p events s := by
  have hidle : p.idle.length = p.settings.minConnections := hw.created_eq.symm.trans hmin
  -- Nothing is in progress at either end.
  have hweight (f : Call α → Nat) : s.weight f = 0 := by
    rw [weight, hq]
    rfl
  have hopening (f : Call α → Nat) : (opening p).weight f = 0 := rfl
  have hmetrics : (opening p).pool.metrics = { connectionsCreated := p.idle.length } :=
    hw.metrics_eq
  have hoffered : s.offeredCount (fun _ => true) = 0 := by
    rw [offeredCount, hq]
    rfl
  have hlent : s.lentCount (fun _ => true) = s.episodes.length := by
    simp [lentCount, hq, Ledger.ids]
  have hpopulation : (opening p).population (fun _ => true) = p.idle.length := by
    simp [population, idleCount, offeredCount, lentCount, opening, Ledger.ids]
  have hcreated := hr.connectionsCreated_eq
  have hsuccessful := hr.checkoutsSuccessful_eq
  have hfailed := hr.checkoutsFailed_eq
  have hfailures := hr.creationFailures_eq
  have hclosed := hr.connectionsClosed_flow
  have hreturns := hr.returns_flow
  have hdetached := hr.weight_flow Call.weighs_detaches
  have hended := hr.weight_flow Call.weighs_attempts
  have hdebuts := hr.weight_flow (Call.weighs_debuts p.nextId)
  have hopenings := ((Dated.opening hw).run hr).2
  have hflow := hr.population_flow
  have hloans := hr.loan_flow
  have hoffers := hr.offered_flow
  simp only [hmetrics] at hcreated hsuccessful hfailed hfailures hclosed hreturns
  simp only [hweight, hopening] at hclosed hreturns hdetached hended hdebuts
  have hback : (opening p).lentCount (fun _ => true) = 0 := rfl
  have hnone : (opening p).offeredCount (fun _ => true) = 0 := rfl
  have hall : s.population (fun _ => true) = s.pool.idle.length + s.episodes.length := by
    rw [population, hoffered, hlent, idleCount, List.countP_true]
    rfl
  constructor <;> omega

/-- The metrics of a pool that was built agree with its history whenever no call is in progress.
At all times attempts that come to nothing or are aborted leave them alone, and none goes back. -/
theorem metrics_reconciled {k : Connector ω α} {settings : PoolSettings}
    {script : Option (List FactoryCall)} {world after : ω} {p : Pool α} {rest : List FactoryCall}
    (hb : Pool.build k settings script world = (.ok (p, rest), after))
    (hr : Run (opening p) events s) :
    p.settings.minConnections = settings.minConnections ∧
      (s.calls = 0 → Reconciled p events s) ∧
      (∀ e t, Step s e t → e.Counts ∨ t.pool.metrics = s.pool.metrics) ∧
      (∀ e t, Step s e t → e.IsFutile → t.pool.metrics = s.pool.metrics) ∧
      ∀ later t, Run s later t → s.pool.metrics.AtMost t.pool.metrics := by
  obtain ⟨hw, hset, hcreated, -, -⟩ := Pool.build_ok hb
  refine ⟨congrArg PoolSettings.minConnections hset, ?_, fun e t hs => hs.counts_or_metrics_eq,
    ?_, ?_⟩
  · intro hq
    exact .of_run hw (by rw [hcreated, hset]) hr hq
  · intro e t hs he
    exact hs.counts_or_metrics_eq.resolve_left he.not_counts
  · intro later t hl
    exact hl.metrics_atMost

theorem run_soleReplaced :
    Run (opening solePool)
      [.lent ⟨7, .fresh 2⟩, .made ⟨7, .fresh 2⟩, .numbered 2, .reserved .none .arrival,
        .arrived .none, .finished (.surrender ⟨0, ⟨1, true, 1⟩⟩),
        .signalled (.surrender ⟨0, ⟨1, true, 1⟩⟩) 0, .released ⟨0, ⟨1, true, 1⟩⟩,
        .detached ⟨0, ⟨1, true, 1⟩⟩, .lent ⟨0, .fresh 1⟩,
        .reused .none .arrival ⟨0, .fresh 1⟩, .arrived .none]
      ⟨⟨{ solePool with idle := [], nextId := 3,
                        metrics := { connectionsCreated := 2, checkoutsSuccessful := 2 } },
        [⟨⟨7, ⟨2, true, 1⟩⟩, 1⟩]⟩, 0, .lease 2 ::ₘ 0, 0⟩ := by
  let m : Member Nat := ⟨0, ⟨1, true, 1⟩⟩
  let lent : Pool Nat := { solePool with idle := [] }.countCheckout
  have hdetach : Step ⟨⟨lent, [⟨m, 1⟩]⟩, 0, .lease 1 ::ₘ 0, 0⟩ (.detached m)
      ⟨⟨lent, []⟩, .detaching m ::ₘ 0, 0, 0⟩ := .detach rfl rfl
  have hsignal : Step ⟨⟨lent.freeSlot, []⟩, .signalling (.surrender m) ::ₘ 0, 0, 0⟩
      (.signalled (.surrender m) 0)
      ⟨⟨lent.freeSlot, []⟩, .finishing (.surrender m) ::ₘ 0, 0, 0⟩ := by
    have hc : (⟨⟨lent.freeSlot, []⟩, .signalling (.surrender m) ::ₘ 0, 0, 0⟩ : Traffic Nat).calls =
        .signalling (.surrender m) ::ₘ (0 + 0) := rfl
    have hs := Step.signal hc (fun call hm => absurd hm (Multiset.notMem_zero call))
      fun _ call hm => absurd hm (Multiset.notMem_zero call)
    exact hs
  have harrive : Step ⟨⟨lent.freeSlot, []⟩, 0, 0, 0⟩ (.arrived .none)
      ⟨⟨lent.freeSlot, []⟩, .looking .none .arrival ::ₘ 0, 0, 0⟩ := .arrives trivial
  have hmake : Step ⟨⟨lent.freeSlot.takeSlot.takeId.2, []⟩, .creating 2 ::ₘ 0, 0, 0⟩
      (.made ⟨7, .fresh 2⟩)
      ⟨⟨lent.freeSlot.takeSlot.takeId.2.countCreated, []⟩, .handingOut ⟨7, .fresh 2⟩ ::ₘ 0, 0, 0⟩ :=
    .goesOn .make
  have hsurrendered := (((run_soleLent.step hdetach).step (.goesOn .release)).step hsignal).step
    (.ends .finish)
  have hnumbered := ((hsurrendered.step harrive).step (.goesOn (.reserve rfl))).step
    (.goesOn .number)
  exact (hnumbered.step hmake).step .lends

theorem metrics_reconciled_replaced :
    ∃ (events : List (Event Nat)) (s : Traffic Nat),
      Run (opening solePool) events s ∧ s.calls = 0 ∧ Reconciled solePool events s ∧
      s.pool.metrics.connectionsCreated = 2 ∧ sumOf events Event.detachments = 1 ∧
      sumOf events (Event.debuts solePool.nextId) = 1 :=
  ⟨_, _, run_soleReplaced, rfl, (metrics_reconciled build_solePool run_soleReplaced).2.1 rfl, rfl,
    rfl, rfl⟩

end Traffic

end ConnectionPool

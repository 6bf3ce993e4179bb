import ConnectionPool.Proofs.Traffic.Return

/-!
# Closed pools

A pool stays closed. From then on nothing is taken out of it or put back, and no slot is reserved:
what is out and what is still being made runs out, one connection at a time.
-/

namespace ConnectionPool

variable {ω α : Type}

/-- Has a slot for which its factory has not been started. -/
def Call.isGranted : Call α → Bool
  | .granted => true
  | _ => false

attribute [simp] Call.isGranted.eq_1 Call.isGranted.eq_2

theorem Call.isGranted_wake (call : Call α) : call.wake.isGranted = call.isGranted := by
  cases call <;> rfl

namespace Event

/-- Takes nothing out of the pool and puts nothing back. -/
structure IsFinal (e : Event α) : Prop where
  reuses : e.reuses = []
  returns : e.returns = []
  claims : e.claims = 0

end Event

namespace Call.Advance

variable {now : Nat} {pool after : Pool α} {call : Call α} {e : Event α} {next : Option (Call α)}

theorem granted_flow (h : call.Advance now pool e after next) :
    next.toList.countP isGranted + e.numbers.length = [call].countP isGranted + e.claims := by
  cases h <;> rfl

theorem isFinal (h : call.Advance now pool e after next) (hc : pool.closed = true) :
    e.IsFinal := by
  cases h with
  | reuse hi =>
    obtain ⟨hopen, -⟩ := Pool.inspect_eq_reuse hi
    rw [hc] at hopen
    cases hopen
  | reserve hi =>
    obtain ⟨hopen, -⟩ := Pool.inspect_eq_create.mp hi
    rw [hc] at hopen
    cases hopen
  | pool ht =>
    obtain ⟨hopen, -⟩ := Pool.takeBack_eq_none.mp ht
    rw [hc] at hopen
    cases hopen
  | _ => exact ⟨rfl, rfl, rfl⟩

end Call.Advance

namespace Pool

variable {p : Pool α}

theorem shut_shut (hc : p.closed = true) (hi : p.idle = []) : p.shut = ([], p) := by
  obtain ⟨settings, idle, created, closed, nextId, metrics⟩ := p
  obtain rfl : idle = [] := hi
  obtain rfl : closed = true := hc
  rfl

theorem close_shut (hc : p.closed = true) (hi : p.idle = []) : p.close = ([], p) := by
  rw [close, shut_shut hc hi]
  rfl

end Pool

namespace Workplace

variable (k : Connector ω α) (reentrant : Bool) {w : Workplace ω α}

theorem tryAcquire_closed (hc : w.pool.closed = true) :
    w.tryAcquire k reentrant = w.refuse .closed := by
  rw [tryAcquire, tryAcquireWith, Pool.inspect_eq_closed.mpr hc]

theorem acquireWithin_closed (hc : w.pool.closed = true) {now : Nat} {timeout : Option Duration}
    (hfits : ∀ limit ∈ timeout, limit.fitsClock now) :
    w.acquireWithin k reentrant now timeout =
      (.answered (.refused .closed), { w with pool := w.pool.countRefusal }) := by
  rw [acquireWithin, Duration.any_overdue_eq_false.mpr hfits, if_neg Bool.false_ne_true,
    tryAcquire_closed k reentrant hc]
  rfl

/-- Whether nobody gets a connection here, nor has to wait for one. -/
structure Refuses (k : Connector ω α) (reentrant : Bool) (w : Workplace ω α) : Prop where
  atOnce : w.tryAcquire k reentrant = w.refuse .closed
  within : ∀ (now : Nat) (timeout : Option Duration), (∀ limit ∈ timeout, limit.fitsClock now) →
    w.acquireWithin k reentrant now timeout =
      (.answered (.refused .closed), { w with pool := w.pool.countRefusal })
  inTask : ∀ now, (∀ limit ∈ w.pool.settings.connectionTimeout, limit.fitsClock now) →
    w.acquireInTask k reentrant now =
      (.answered (.refused .closed), { w with pool := w.pool.countRefusal })

theorem Refuses.of_closed (hc : w.pool.closed = true) : w.Refuses k reentrant where
  atOnce := tryAcquire_closed k reentrant hc
  within := fun _ _ => acquireWithin_closed k reentrant hc
  inTask := by
    intro now hfits
    have hacquire : w.acquire k reentrant now = _ := acquireWithin_closed k reentrant hc hfits
    rw [acquireInTask, hacquire]

end Workplace

namespace Traffic

variable {s t u : Traffic α} {e : Event α} {events : List (Event α)}

def grantedCount (s : Traffic α) : Nat := s.calls.countP fun call => call.isGranted

theorem Step.granted_flow (h : Step s e t) :
    t.grantedCount + e.numbers.length = s.grantedCount + e.claims := by
  cases h with
  | @advance call others _ after next hc ha =>
    have hl := ha.granted_flow
    have ht := countP_turn hc after next Call.isGranted
    simp only [grantedCount]
    omega
  | lend hc => simp [grantedCount, Traffic.lend, hc, Event.numbers, Event.claims]
  | signal hc hw _ =>
    simp [grantedCount, turn, hc, Event.numbers, Event.claims,
      Call.countP_wake Call.isGranted_wake]
  | broadcast hc =>
    simp [grantedCount, turn, hc, Event.numbers, Event.claims,
      Call.countP_wake Call.isGranted_wake]
  | _ => simp [grantedCount, turn, Event.numbers, Event.claims]

theorem Step.closed_stays (h : Step s e t) (hc : s.pool.closed = true) : t.pool.closed = true := by
  obtain ⟨call, next, -, ha⟩ | ⟨-, ht⟩ | ⟨-, ht⟩ := h.pool_cases
  · rw [ha.books.closed_eq, hc]
  · rw [ht]
    rfl
  · rw [ht]
    exact hc

theorem Step.of_closed {left : List (Member α)} (h : Step s (.closed left) t) :
    left = s.pool.shut.1 ∧ t.pool = s.pool.shut.2 ∧
      t.calls = .broadcasting (.destroy left) ::ₘ s.calls := by
  cases h with
  | advance _ ha => cases ha
  | close => exact ⟨rfl, rfl, rfl⟩

theorem Step.isFinal (h : Step s e t) (hc : s.pool.closed = true) : e.IsFinal := by
  obtain ⟨call, next, -, ha⟩ | ⟨rfl, -⟩ | ⟨hq, -⟩ := h.pool_cases
  · exact ha.isFinal hc
  · exact ⟨rfl, rfl, rfl⟩
  · exact ⟨hq.reuses, hq.returns, hq.claims⟩

theorem Step.idle_stays (h : Step s e t) (hc : s.pool.closed = true) (hi : s.pool.idle = []) :
    t.pool.idle = [] := by
  have hflow := h.idle_flow fun _ => true
  simp only [idleCount, (h.isFinal hc).returns, hi, List.countP_true, List.length_nil] at hflow
  exact List.length_eq_zero_iff.mp (by omega)

theorem Step.created_le (h : Step s e t) (hc : s.pool.closed = true) :
    t.pool.created ≤ s.pool.created := by
  rw [h.created_flow, (h.isFinal hc).claims]
  omega

/-- What has happened on a pool since it was closed. -/
structure Ebbed (s : Traffic α) (since : List (Event α)) (t : Traffic α) : Prop where
  isClosed : t.pool.closed = true
  idle : t.pool.idle = []
  final : ∀ e ∈ since, e.IsFinal
  created_le : t.pool.created ≤ s.pool.created
  /-- The factory has been started for slots that were reserved, and for no others. -/
  started : t.grantedCount + (since.flatMap Event.numbers).length = s.grantedCount
  /-- The slots that were reserved are still so, or their connection has been made or not. -/
  resolved : t.reservedCount + (since.flatMap Event.arrivals).length +
    (since.flatMap Event.wastes).length = s.reservedCount

theorem Ebbed.run (hc : s.pool.closed = true) (hi : s.pool.idle = []) (hr : Run s events t) :
    Ebbed s events t := by
  induction hr with
  | refl => exact ⟨hc, hi, List.forall_mem_nil _, Nat.le_refl _, rfl, rfl⟩
  | step _ hs ih =>
    have hfinal := hs.isFinal ih.isClosed
    have hgranted := hs.granted_flow
    have hreserved := hs.reserved_flow
    have hstarted := ih.started
    have hresolved := ih.resolved
    rw [hfinal.claims] at hgranted hreserved
    exact {
      isClosed := hs.closed_stays ih.isClosed
      idle := hs.idle_stays ih.isClosed ih.idle
      final := List.forall_mem_cons.mpr ⟨hfinal, ih.final⟩
      created_le := (hs.created_le ih.isClosed).trans ih.created_le
      started := by
        simp only [List.flatMap_cons, List.length_append]
        omega
      resolved := by
        simp only [List.flatMap_cons, List.length_append]
        omega }

/-- A call that looks at a closed pool is refused, now or later. -/
theorem of_looking {w : Patience} {r : Prompt} (hm : .looking w r ∈ s.calls)
    (hc : s.pool.closed = true) (hs : Step s e t) :
    .looking w r ∈ t.calls ∨ e = .refused w r ∧ t.pool = s.pool.countRefusal := by
  have hclosed : s.pool.inspect = .closed := Pool.inspect_eq_closed.mpr hc
  obtain hstay | ⟨next, ha, -⟩ | ⟨_, hne, -⟩ | hne | hne | hne := hs.call_stays hm
  · exact .inl hstay
  · right
    generalize t.pool = after at ha
    cases ha with
    | refuse => exact ⟨rfl, rfl⟩
    | reuse hi | reserve hi | decline hi | expire hi | park hi =>
      rw [hclosed] at hi
      cases hi
  all_goals cases hne

theorem exists_refused {w : Patience} {r : Prompt} (hm : .looking w r ∈ s.calls)
    (hc : s.pool.closed = true) : ∃ t, Step s (.refused w r) t := by
  obtain ⟨others, hcalls⟩ := Multiset.exists_cons_of_mem hm
  exact ⟨_, .advance hcalls (.refuse (Pool.inspect_eq_closed.mpr hc))⟩

theorem exists_made {id : Nat} (hm : .creating id ∈ s.calls) (conn : α) :
    ∃ t, Step s (.made ⟨conn, .fresh id⟩) t ∧ .handingOut ⟨conn, .fresh id⟩ ∈ t.calls := by
  obtain ⟨others, hcalls⟩ := Multiset.exists_cons_of_mem hm
  exact ⟨_, .advance hcalls .make, mem_turn.mpr (.inl rfl)⟩

theorem exists_lent {m : Member α} (hm : .handingOut m ∈ s.calls) :
    ∃ t, Step s (.lent m) t := by
  obtain ⟨others, hcalls⟩ := Multiset.exists_cons_of_mem hm
  exact ⟨_, .lend hcalls⟩

theorem of_handingOut {m : Member α} (hm : .handingOut m ∈ s.calls) (hs : Step s e t) :
    .handingOut m ∈ t.calls ∨
      e = .lent m ∧ .lease m.id ∈ t.handles ∧ m.id ∈ t.ledger.ids := by
  obtain hstay | ⟨next, ha, -⟩ | ⟨_, hsame, hlent⟩ | hne | hne | hne := hs.call_stays hm
  · exact .inl hstay
  · cases ha
  · obtain rfl := Call.handingOut.inj hsame
    exact .inr hlent
  all_goals cases hne

theorem of_creating {id : Nat} (hm : .creating id ∈ s.calls) (hs : Step s e t) :
    .creating id ∈ t.calls ∨ (∃ conn, e = .made ⟨conn, .fresh id⟩ ∧
        .handingOut ⟨conn, .fresh id⟩ ∈ t.calls) ∨
      ∃ cause, (e = .failed id cause ∨ e = .aborted id cause) ∧
        t.pool = s.pool.freeSlot := by
  obtain hstay | ⟨next, ha, hn⟩ | ⟨_, hne, -⟩ | hne | hne | hne := hs.call_stays hm
  · exact .inl hstay
  · right
    generalize t.pool = after at ha
    cases ha with
    | make => exact .inl ⟨_, rfl, hn _ rfl⟩
    | fail => exact .inr ⟨_, .inl rfl, rfl⟩
    | abort => exact .inr ⟨_, .inr rfl, rfl⟩
  all_goals cases hne

/-- With no handle left and no call that has a connection or a slot, nothing is out. -/
theorem Tracked.drained (h : s.Tracked) (hh : s.handles = 0)
    (hcalls : ∀ call ∈ s.calls, call.inHand? = none ∧ call.isReserved = false) :
    s.outIds = 0 ∧ s.reservedCount = 0 := by
  have hids : s.ledger.ids = [] := by
    apply List.eq_nil_iff_forall_not_mem.mpr
    intro id hid
    have hpos := h.live id hid
    rw [← h.counted, handlesOn, hh] at hpos
    exact Nat.lt_irrefl 0 hpos
  have hinHand : s.calls.filterMap Call.inHand? = 0 := by
    apply Multiset.eq_zero_of_forall_notMem
    intro id hid
    obtain ⟨call, hcall, hsome⟩ := (Multiset.mem_filterMap _ _).mp hid
    rw [(hcalls call hcall).1] at hsome
    cases hsome
  refine ⟨?_, ?_⟩
  · rw [outIds, hids, hinHand]
    rfl
  · apply Multiset.countP_eq_zero.mpr
    intro call hcall
    simp [(hcalls call hcall).2]

/-- Where a pool stands that was closed in a state `s`, with all that happened since. -/
structure Closed (s : Traffic α) (since : List (Event α)) (t : Traffic α) : Prop
    extends Ebbed s since t where
  created_eq : t.pool.created = t.outIds.card + t.reservedCount
  shrinks : ∀ e u, Step t e u → u.pool.created ≤ t.pool.created
  refused : ∀ w r, .looking w r ∈ t.calls → (∃ u, Step t (.refused w r) u) ∧
    ∀ e u, Step t e u → .looking w r ∈ u.calls ∨ e = .refused w r ∧ u.pool = t.pool.countRefusal
  /-- A connection can still be made for a slot that has been reserved, unless that fails. -/
  made : ∀ id, .creating id ∈ t.calls →
    (∀ conn, ∃ u, Step t (.made ⟨conn, .fresh id⟩) u ∧
      .handingOut ⟨conn, .fresh id⟩ ∈ u.calls) ∧
    ∀ e u, Step t e u → .creating id ∈ u.calls ∨
      (∃ conn, e = .made ⟨conn, .fresh id⟩ ∧ .handingOut ⟨conn, .fresh id⟩ ∈ u.calls) ∨
      ∃ cause, (e = .failed id cause ∨ e = .aborted id cause) ∧ u.pool = t.pool.freeSlot
  /-- A connection that was made is still handed out. -/
  lent : ∀ m, .handingOut m ∈ t.calls → (∃ u, Step t (.lent m) u) ∧
    ∀ e u, Step t e u → .handingOut m ∈ u.calls ∨
      e = .lent m ∧ .lease m.id ∈ u.handles ∧ m.id ∈ u.ledger.ids
  /-- The last handle on a connection to be dropped leaves it to be given back. -/
  drop : ∀ handle ∈ t.handles, (∃ u, Step t (.dropped handle) u) ∧
    ∀ u, Step t (.dropped handle) u → u.pool = t.pool ∧
      if t.IsSole handle then
        handle.id ∉ u.ledger.ids ∧ ∃ m, m.id = handle.id ∧ u.calls = .givingBack m ::ₘ t.calls
      else handle.id ∈ u.ledger.ids ∧ u.calls = t.calls
  /-- A connection that is given back is destroyed. -/
  expelled : ∀ m, .givingBack m ∈ t.calls → (∃ u, Step t (.expelled m) u) ∧
    ∀ e u, Step t e u → .givingBack m ∈ u.calls ∨
      e = .expelled m ∧ u.pool.created + 1 = t.pool.created ∧ .finishing (.destroy [m]) ∈ u.calls
  drained : t.handles = 0 →
    (∀ call ∈ t.calls, call.inHand? = none ∧ call.isReserved = false) → t.pool.created = 0
  /-- Closing it once more changes nothing, neither at once nor when that is done. -/
  again : ∀ left u, Step t (.closed left) u → left = [] ∧ u.pool = t.pool ∧
    u.calls = .broadcasting (.destroy []) ::ₘ t.calls ∧
    ∀ pool : Pool α, (Errand.destroy []).settle pool = pool

theorem Ebbed.closed {since : List (Event α)} (h : Ebbed s since t) (hbal : t.Balanced)
    (htrack : t.Tracked) : Closed s since t where
  toEbbed := h
  created_eq := by
    have hc := hbal.created_eq_out
    rw [h.idle, List.length_nil] at hc
    omega
  shrinks := fun e u hs => hs.created_le h.isClosed
  refused := fun w r hm => ⟨exists_refused hm h.isClosed, fun e u => of_looking hm h.isClosed⟩
  made := fun id hm => ⟨exists_made hm, fun e u => of_creating hm⟩
  lent := fun m hm => ⟨exists_lent hm, fun e u => of_handingOut hm⟩
  drop := fun handle hm => ⟨exists_drop hm, fun u => htrack.of_drop hbal.ids_nodup⟩
  expelled := by
    intro m hm
    have hexists := exists_giveBack hm
    rw [if_pos h.isClosed] at hexists
    refine ⟨hexists, ?_⟩
    intro e u hs
    have hback := hbal.of_giveBack hm hs
    rw [if_pos h.isClosed] at hback
    exact hback.imp_right fun ⟨he, hcreated, _, hcalls⟩ => ⟨he, hcreated, hcalls⟩
  drained := by
    intro hh hcalls
    obtain ⟨hout, hreserved⟩ := htrack.drained hh hcalls
    have hc := hbal.created_eq_out
    rw [h.idle, hout, hreserved] at hc
    exact hc
  again := by
    intro left u hs
    obtain ⟨rfl, hpool, hcalls⟩ := hs.of_closed
    rw [Pool.shut_shut h.isClosed h.idle] at hpool hcalls ⊢
    exact ⟨rfl, hpool, hcalls, fun pool => rfl⟩

/-- What the closing step does: it takes the idle connections out, whose slots become free, and
leaves an errand that destroys them. -/
structure Closes (s : Traffic α) (left : List (Member α)) (t : Traffic α) : Prop where
  left_eq : left = s.pool.idle.reverse
  pool_eq : t.pool = { s.pool with
    closed := true, idle := [], created := s.pool.created - s.pool.idle.length }
  covered : t.pool.created + left.length = s.pool.created
  calls_eq : t.calls = .broadcasting (.destroy left) ::ₘ s.calls
  /-- A close is this step and its errand. -/
  close_eq : s.pool.close = (left, (Errand.destroy left).settle t.pool)
  /-- The two come about in a run if nothing happens in between. -/
  reaches : IsWakeful s.calls →
    s.Reaches { s with ledger := { s.ledger with pool := s.pool.close.2 } }

theorem Balanced.closes (h : s.Balanced) {left : List (Member α)}
    (hs : Step s (.closed left) t) : s.Closes left t := by
  obtain ⟨rfl, hpool, hcalls⟩ := hs.of_closed
  refine ⟨rfl, hpool, ?_, hcalls, by rw [hpool]; rfl, close_reaches⟩
  rw [hpool, Pool.shut, List.length_reverse]
  exact Nat.sub_add_cancel h.idle_le

/-- Closing is final. From the moment a pool that was built is closed, whatever happens on it, it
gives out no idle connection and reserves no slot, and what is out runs out. -/
theorem closing_final {k : Connector ω α} {settings : PoolSettings}
    {script : Option (List FactoryCall)} {world after : ω} {p : Pool α} {rest : List FactoryCall}
    (hb : Pool.build k settings script world = (.ok (p, rest), after))
    {left : List (Member α)} {since : List (Event α)}
    (hr : Run (opening p) events s) (hs : Step s (.closed left) t) (hl : Run t since u) :
    s.Closes left t ∧ Closed t since u ∧ u.pool.close = ([], u.pool) ∧
      ∀ (reentrant : Bool) (w : Workplace ω α), w.pool = u.pool → w.Refuses k reentrant := by
  have hopen : (opening p).Balanced := .of_build hb
  have hbefore := hopen.run hr
  have hbal : t.Balanced := hbefore.step hs
  have htrack : t.Tracked := (Tracked.opening p).run hopen (hr.step hs)
  obtain ⟨-, hpool, -⟩ := hs.of_closed
  have hclosed : t.pool.closed = true := congrArg Pool.closed hpool
  have hidle : t.pool.idle = [] := congrArg Pool.idle hpool
  have hebbed := Ebbed.run hclosed hidle hl
  refine ⟨hbefore.closes hs, hebbed.closed (hbal.run hl) (htrack.run hbal hl),
    Pool.close_shut hebbed.isClosed hebbed.idle, ?_⟩
  intro reentrant w hw
  exact Workplace.Refuses.of_closed k reentrant (hw ▸ hebbed.isClosed)

/-- A lease outlives the closing of its pool, and its connection goes with it. -/
theorem closing_final_lent :
    ∃ (s t u : Traffic Nat) (since : List (Event Nat)),
      Step s (.closed []) t ∧ t.handles = {.lease 1} ∧ t.pool.created = 1 ∧
      Run t since u ∧ u.handles = 0 ∧ u.pool.created = 0 ∧ Closed t since u := by
  let m : Member Nat := ⟨0, ⟨1, true, 1⟩⟩
  let lent : Pool Nat := { solePool with idle := [] }.countCheckout
  let s : Traffic Nat := ⟨⟨lent, [⟨m, 1⟩]⟩, 0, .lease 1 ::ₘ 0, 0⟩
  have hs : Step s (.closed []) _ := .close
  have hdrop : Step ⟨⟨lent.shut.2, [⟨m, 1⟩]⟩, .broadcasting (.destroy []) ::ₘ 0, .lease 1 ::ₘ 0, 0⟩
      (.dropped (.lease 1)) _ := .dropsLast rfl
  have hexpel : Step ⟨⟨lent.shut.2, []⟩, .givingBack m ::ₘ .broadcasting (.destroy []) ::ₘ 0, 0, 0⟩
      (.expelled m) _ := .goesOn (.expel rfl)
  have hrun := (Run.refl.step hdrop).step hexpel
  exact ⟨_, _, _, _, hs, rfl, rfl, hrun, rfl, rfl,
    (closing_final build_solePool run_soleLent hs hrun).2.1⟩

end Traffic

end ConnectionPool

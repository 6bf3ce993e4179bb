import ConnectionPool.Proofs.Agreement
import ConnectionPool.Proofs.Nesting.Calls
import ConnectionPool.Proofs.Traffic.Slots

/-!
# Callers that abort

No caller aborts because of the books of its pool, whatever others do meanwhile: an abort comes from
a factory call, or from a time limit that the clock cannot add to the present moment.
-/

namespace ConnectionPool

variable {ω α : Type}

namespace Event

/-- The answer that a caller ends with. -/
def answer? : Event α → Option (Acquired α)
  | .refused _ _ => some (.refused .closed)
  | .declined _ => some (.ok none)
  | .expired timeout _ => some (.refused (.timeout timeout))
  | .lent member => some (.ok (some member.recordCheckout))
  | .finished (.reportFailure cause) => some (.refused (.factory cause))
  | .finished (.abort cause) => some (.aborted cause)
  | _ => none

/-- Whether a factory call aborts. -/
def isAbort : Event α → Bool
  | .aborted _ _ => true
  | _ => false

end Event

namespace Call

/-- Is of a caller who hears of an abort in the end. -/
def isDoomed : Call α → Bool
  | .signalling (.abort _) => true
  | .broadcasting (.abort _) => true
  | .finishing (.abort _) => true
  | _ => false

theorem isDoomed_wake (call : Call α) : call.wake.isDoomed = call.isDoomed := by cases call <;> rfl

/-- Is of a caller whose connection is still to come, or whose factory call has failed. Only a
deadline makes a caller look for the last time. -/
inductive Acquires : Call α → Prop
  | looking {w r} : (r = .deadline → ∃ d limit, w = .within d limit) → Acquires (.looking w r)
  | parked {w} : Acquires (.parked w)
  | granted : Acquires .granted
  | creating {id} : Acquires (.creating id)
  | handingOut {m} : Acquires (.handingOut m)
  | signalling {cause} : Acquires (.signalling (.reportFailure cause))
  | finishing {cause} : Acquires (.finishing (.reportFailure cause))

/-- A section of a call, whatever it finds, and what becomes of the call. -/
inductive Proceeds : Call α → Event α → Option (Call α) → Prop
  | advance {now p call e after next} : call.Advance now p e after next → Proceeds call e next
  | lend {m} : Proceeds (.handingOut m) (.lent m) none
  | signal {errand woken} :
      Proceeds (.signalling errand) (.signalled errand woken) (some (.finishing errand))

variable {call : Call α} {e : Event α} {next : Option (Call α)}

/-- A section of a caller brings it an answer, which is no abort, or leads on. -/
theorem Proceeds.acquires (h : call.Proceeds e next) (hc : call.Acquires)
    (he : e.isAbort = false) :
    (next = none ∧ ∃ answer, e.answer? = some answer ∧ ∀ cause, answer ≠ .aborted cause) ∨
      (e.answer? = none ∧ ∃ call', next = some call' ∧ call'.Acquires) := by
  cases h with
  | lend => exact .inl ⟨rfl, _, rfl, nofun⟩
  | signal =>
    cases hc
    exact .inr ⟨rfl, _, rfl, .finishing⟩
  | advance ha =>
    cases hc with
    | looking =>
      cases ha with
      | refuse | decline | expire => exact .inl ⟨rfl, _, rfl, nofun⟩
      | reuse => exact .inr ⟨rfl, _, rfl, .handingOut⟩
      | reserve => exact .inr ⟨rfl, _, rfl, .granted⟩
      | park => exact .inr ⟨rfl, _, rfl, .parked⟩
    | parked =>
      cases ha with
      | wake => exact .inr ⟨rfl, _, rfl, .looking nofun⟩
      | lapse => exact .inr ⟨rfl, _, rfl, .looking fun _ => ⟨_, _, rfl⟩⟩
    | granted =>
      cases ha
      exact .inr ⟨rfl, _, rfl, .creating⟩
    | creating =>
      cases ha with
      | make => exact .inr ⟨rfl, _, rfl, .handingOut⟩
      | fail => exact .inr ⟨rfl, _, rfl, .signalling⟩
      | abort => cases he
    | finishing =>
      cases ha
      exact .inl ⟨rfl, _, rfl, nofun⟩
    | _ => cases ha

theorem Advance.spares {now : Nat} {p after : Pool α} (h : call.Advance now p e after next)
    (hc : call.isDoomed = false) (he : e.isAbort = false) :
    (∀ call' ∈ next, call'.isDoomed = false) ∧ ∀ cause, e.answer? ≠ some (.aborted cause) := by
  cases h with
  | abort => cases he
  | @finish errand =>
    refine ⟨nofun, ?_⟩
    cases errand with
    | abort => cases hc
    | _ => exact nofun
  | _ => exact ⟨by simp [isDoomed], nofun⟩

end Call

namespace Traffic

variable {s t : Traffic α} {e : Event α} {events : List (Event α)}

/-- Nobody is to hear of an abort. -/
def Spared (s : Traffic α) : Prop := ∀ call ∈ s.calls, call.isDoomed = false

namespace Spared

variable {others : Multiset (Call α)}

theorem opening (p : Pool α) : (opening p).Spared := fun _ hm => absurd hm (Multiset.notMem_zero _)

theorem cons {call : Call α} (hc : call.isDoomed = false) (h : s.Spared) :
    ∀ call' ∈ call ::ₘ s.calls, call'.isDoomed = false := by
  intro call' hm
  obtain rfl | hm := Multiset.mem_cons.mp hm
  · exact hc
  · exact h call' hm

theorem wake {calls : Multiset (Call α)} (h : ∀ call ∈ calls, call.isDoomed = false) :
    ∀ call ∈ calls.map Call.wake, call.isDoomed = false := by
  intro call hm
  obtain ⟨call', hm', rfl⟩ := Multiset.mem_map.mp hm
  rw [Call.isDoomed_wake]
  exact h call' hm'

/-- A step dooms nobody unless a factory call aborts. -/
theorem step (h : s.Spared) (hs : Step s e t) (he : e.isAbort = false) :
    t.Spared ∧ ∀ cause, e.answer? ≠ some (.aborted cause) := by
  cases hs with
  | @advance call others _ after next hc ha =>
    have hmem {call' : Call α} (hm : call' ∈ call ::ₘ others) : call'.isDoomed = false :=
      h call' (hc ▸ hm)
    obtain ⟨hnext, hanswer⟩ := ha.spares (hmem (Multiset.mem_cons_self _ _)) he
    refine ⟨fun call' hm => ?_, hanswer⟩
    obtain hm | hm := mem_turn.mp hm
    · exact hnext call' hm
    · exact hmem (Multiset.mem_cons_of_mem hm)
  | @signal errand others woken hc hw hn =>
    have hmem {call' : Call α} (hm : call' ∈ .signalling errand ::ₘ (others + woken)) :
        call'.isDoomed = false := h call' (hc ▸ hm)
    refine ⟨fun call' hm => ?_, nofun⟩
    obtain hm | hm := mem_turn.mp hm
    · obtain rfl := Option.mem_some.mp hm
      have hsignalling := hmem (Multiset.mem_cons_self _ _)
      cases errand <;> first | rfl | cases hsignalling
    · obtain hm | hm := Multiset.mem_add.mp hm
      · exact hmem (Multiset.mem_cons_of_mem (Multiset.mem_add.mpr (.inl hm)))
      · exact wake (fun call hm => hmem (Multiset.mem_cons_of_mem
          (Multiset.mem_add.mpr (.inr hm)))) call' hm
  | @broadcast errand others hc =>
    have hmem {call' : Call α} (hm : call' ∈ .broadcasting errand ::ₘ others) :
        call'.isDoomed = false := h call' (hc ▸ hm)
    refine ⟨fun call' hm => ?_, nofun⟩
    obtain hm | hm := mem_turn.mp hm
    · obtain rfl := Option.mem_some.mp hm
      have hbroadcasting := hmem (Multiset.mem_cons_self _ _)
      cases errand <;> first | rfl | cases hbroadcasting
    · exact wake (fun call hm => hmem (Multiset.mem_cons_of_mem hm)) call' hm
  | lend hc =>
    exact ⟨fun call' hm => h call' (hc ▸ Multiset.mem_cons_of_mem hm), nofun⟩
  | arrive | close | dropLast | detach => exact ⟨h.cons rfl, nofun⟩
  | _ => exact ⟨h, nofun⟩

theorem run (h : s.Spared) (hr : Run s events t) (he : ∀ e ∈ events, e.isAbort = false) :
    t.Spared := by
  induction hr with
  | refl => exact h
  | step _ hs ih =>
    obtain ⟨he, hevents⟩ := List.forall_mem_cons.mp he
    exact ((ih hevents).step hs he).1

end Spared

theorem exists_look (now : Nat) (p : Pool α) {w : Patience} {r : Prompt}
    (hr : r = .deadline → ∃ d limit, w = .within d limit) :
    ∃ e after next, (Call.looking w r).Advance now p e after next := by
  cases hi : p.inspect with
  | closed => exact ⟨_, _, _, .refuse hi⟩
  | granted grant after =>
    cases grant with
    | reuse m => exact ⟨_, _, _, .reuse hi⟩
    | create => exact ⟨_, _, _, .reserve hi⟩
  | full =>
    by_cases hlast : r = .deadline
    · obtain ⟨d, limit, rfl⟩ := hr hlast
      rw [hlast]
      exact ⟨_, _, _, .expire hi⟩
    · cases w with
      | none => exact ⟨_, _, _, .decline hi⟩
      | endless => exact ⟨_, _, _, .park hi rfl hlast⟩
      | within d limit => exact ⟨_, _, _, .park hi rfl hlast⟩

/-- A signal can be given at any time: it wakes all who sleep. -/
theorem exists_signal {errand : Errand α} {others : Multiset (Call α)}
    (hc : s.calls = .signalling errand ::ₘ others) :
    ∃ woken t, Step s (.signalled errand woken) t := by
  have hsplit := Multiset.filter_add_not (fun call : Call α => call.isParked = true) others
  rw [Multiset.add_comm] at hsplit
  rw [← hsplit] at hc
  refine ⟨_, _, .signal hc ?_ ?_⟩
  · exact fun call hm => (Multiset.mem_filter.mp hm).2
  · exact fun _ call hm => (Multiset.mem_filter.mp hm).2

/-- A caller that is up has a next section, and so has one that slept past its deadline. -/
theorem exists_section {call : Call α} (hm : call ∈ s.calls) (hc : call.Acquires)
    (hup : ∀ w, call = .parked w → ∃ d limit, w = .within d limit ∧ limit ≤ s.now) :
    ∃ e t next, Step s e t ∧ call.Proceeds e next := by
  obtain ⟨others, hcalls⟩ := Multiset.exists_cons_of_mem hm
  have own {e after next} (ha : call.Advance s.now s.pool e after next) :
      ∃ e t next, Step s e t ∧ call.Proceeds e next :=
    ⟨e, _, next, .advance hcalls ha, .advance ha⟩
  cases hc with
  | looking hr =>
    obtain ⟨e, after, next, ha⟩ := exists_look s.now s.pool hr
    exact own ha
  | parked =>
    obtain ⟨d, limit, rfl, hlimit⟩ := hup _ rfl
    exact own (.lapse hlimit)
  | granted => exact own .number
  | @creating id => exact own (e := .failed id "") .fail
  | handingOut => exact ⟨_, _, _, .lend hcalls, .lend⟩
  | signalling =>
    obtain ⟨woken, t, hs⟩ := exists_signal hcalls
    exact ⟨_, t, _, hs, .signal⟩
  | finishing => exact own .finish

end Traffic

namespace Workplace

variable {k : Connector ω α} {reentrant : Bool} {w : Workplace ω α}

/-- How a caller fares that does not share the pool: it gets an answer, or sleeps without a limit by
a full pool, unless it brings a limit that the clock cannot add to the present moment. -/
structure Fares (k : Connector ω α) (reentrant : Bool) (w : Workplace ω α) (now : Nat)
    (timeout : Option Duration) : Prop where
  answered : (∀ limit ∈ timeout, limit.fitsClock now) →
    (∃ member after,
      w.acquireWithin k reentrant now timeout = (.answered (.ok member), after)) ∨
    (∃ error after,
      w.acquireWithin k reentrant now timeout = (.answered (.refused error), after)) ∨
    timeout = none ∧ w.pool.inspect = .full ∧
      w.acquireWithin k reentrant now timeout = (.blocked, w)
  overdue : ∀ limit ∈ timeout, limit.fitsClock now = false →
    w.acquireWithin k reentrant now timeout =
      (.answered (.aborted "overflow when adding duration to instant"), w)

theorem acquireWithin_expired {limit : Duration} {now : Nat} (hfits : limit.fitsClock now)
    (hw : w.pool.inspect = .full) :
    w.acquireWithin k reentrant now (some limit) =
      (.answered (.refused (.timeout limit)), { w with pool := w.pool.countRefusal }) := by
  rw [acquireWithin, Option.any_some, hfits, Bool.not_true, if_neg Bool.false_ne_true,
    tryAcquire_full hw]

theorem fares (hd : Docile k w.script) (now : Nat) (timeout : Option Duration) :
    w.Fares k reentrant now timeout where
  answered := by
    intro hfits
    by_cases hfull : w.pool.inspect = .full
    · cases timeout with
      | none => exact .inr (.inr ⟨rfl, hfull, acquireWithin_blocked hfull now⟩)
      | some limit => exact .inr (.inl ⟨_, _, acquireWithin_expired (hfits limit rfl) hfull⟩)
    · obtain ⟨answer, after, hanswers⟩ := answers_of_not_full k reentrant hfull
      have hcaller := hanswers.acquireWithin_eq now timeout hfits
      cases answer with
      | ok member => exact .inl ⟨member, after, hcaller⟩
      | refused error => exact .inr (.inl ⟨error, after, hcaller⟩)
      | aborted cause =>
        have htry : (w.tryAcquire k reentrant).1 = .aborted cause :=
          congrArg Prod.fst hanswers.tryAcquire_eq
        exact absurd htry (tryAcquire_ne_aborted hd cause)
  overdue := by
    rintro limit hlimit hlate
    rw [Option.mem_def.mp hlimit]
    exact acquireWithin_overdue hlate w

end Workplace

namespace Traffic

variable {s : Traffic α} {events : List (Event α)}

/-- On a pool that was built, in every state that calls on it can lead to, no count falls below
zero. As long as no factory call aborts, callers are on their way to a lease or an error and to
nothing else, however they interleave. A caller alone aborts just if it brings a limit that the
clock cannot add to the present moment, be it configured or its own, and changes nothing then. -/
theorem aborts_only_overdue {k : Connector ω α} {settings : PoolSettings}
    {script : Option (List FactoryCall)} {world after : ω} {p : Pool α} {rest : List FactoryCall}
    (hb : Pool.build k settings script world = (.ok (p, rest), after))
    (hr : Run (opening p) events s) :
    (∀ e t, Step s e t → e.forfeits ≤ s.pool.created) ∧
      ((∀ e ∈ events, e.isAbort = false) →
        (∀ e t, Step s e t → e.isAbort = false → ∀ cause, e.answer? ≠ some (.aborted cause)) ∧
        ∀ call ∈ s.calls, call.isDoomed = false) ∧
      (∀ w t, Step s (.arrived w) t → Call.looking w .arrival ∈ t.calls ∧
        (Call.looking w .arrival : Call α).Acquires) ∧
      (∀ call ∈ s.calls, call.Acquires →
        (∀ w, call = .parked w → ∃ d limit, w = .within d limit ∧ limit ≤ s.now) →
        ∃ e t next, Step s e t ∧ call.Proceeds e next) ∧
      (∀ (call : Call α) e next, call.Acquires → call.Proceeds e next → e.isAbort = false →
        (next = none ∧ ∃ answer, e.answer? = some answer ∧ ∀ cause, answer ≠ .aborted cause) ∨
          e.answer? = none ∧ ∃ call', next = some call' ∧ call'.Acquires) ∧
      ∀ (reentrant : Bool) (w : Workplace ω α), w.pool = s.pool → Workplace.Docile k w.script →
        ∀ now, (∀ timeout, w.Fares k reentrant now timeout) ∧
          w.acquire k reentrant now =
            w.acquireWithin k reentrant now settings.connectionTimeout := by
  obtain ⟨-, hset, -⟩ := Pool.build_ok hb
  have hbal := (Balanced.of_build hb).run hr
  refine ⟨fun e t hs => (hbal.covered hs).1, fun he => ?_, ?_, fun call hm hc hup =>
    exists_section hm hc hup, fun call e next hc hp he => hp.acquires hc he, ?_⟩
  · have hspared := (Spared.opening p).run hr he
    exact ⟨fun e t hs he => (hspared.step hs he).2, hspared⟩
  · intro w t hs
    cases hs with
    | advance _ ha => cases ha
    | arrive => exact ⟨Multiset.mem_cons_self _ _, .looking nofun⟩
  · intro reentrant w hw hd now
    have hsettings : w.pool.settings = settings := by
      rw [hw, hr.settings_eq]
      exact hset
    exact ⟨Workplace.fares hd now, by rw [Workplace.acquire, hsettings]⟩

/-- The only connection is out: who comes then waits for it or gives up, and a limit beyond the
clock aborts at once. -/
theorem aborts_only_overdue_lent :
    ∃ (s : Traffic Nat) (events : List (Event Nat)), Run (opening solePool) events s ∧
      ∀ (w : Workplace Nat Nat) (now : Nat), w.pool = s.pool → w.script = [] →
        w.Fares countingConnector true now none ∧
          w.acquireWithin countingConnector true now (some overlongTimeout) =
            (.answered (.aborted "overflow when adding duration to instant"), w) := by
  refine ⟨_, _, run_soleLent, ?_⟩
  intro w now hw hscript
  have hd : Workplace.Docile countingConnector w.script := by
    rw [hscript]
    exact ⟨nofun, nofun⟩
  obtain ⟨-, -, -, -, -, halone⟩ := aborts_only_overdue build_solePool run_soleLent
  obtain ⟨hfares, -⟩ := halone true w hw hd now
  exact ⟨hfares none,
    (hfares (some overlongTimeout)).overdue _ rfl (fitsClock_overlongTimeout now)⟩

/-- A limit beyond the clock is not like none: on a pool with all of its slots free the caller who
brings it gets nothing where the one without a limit gets a connection. -/
theorem overlong_unlike_endless :
    ∃ p : Pool Nat,
      Pool.build countingConnector { maxConnections := 2 } (some []) 0 = (.ok (p, []), 0) ∧
      p.closed = false ∧ p.freeSlots = 2 ∧
      ∀ (w : Workplace Nat Nat) (now : Nat), w = ⟨p, [], [], 0⟩ →
        (w.acquireWithin countingConnector false now none).1 =
            .answered (.ok ⟨0, ⟨1, true, 1⟩⟩) ∧
          w.acquireWithin countingConnector false now (some overlongTimeout) =
            (.answered (.aborted "overflow when adding duration to instant"), w) := by
  refine ⟨_, rfl, rfl, rfl, ?_⟩
  rintro w now rfl
  exact ⟨rfl, Workplace.acquireWithin_overdue (fitsClock_overlongTimeout now) _⟩

end Traffic

end ConnectionPool

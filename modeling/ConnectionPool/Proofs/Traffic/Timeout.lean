import ConnectionPool.Proofs.Traffic.Closing
import ConnectionPool.Proofs.Traffic.Sequential

/-!
# Timeouts

A caller with a deadline looks at the pool, goes to sleep if it finds nothing, and looks again when
it is woken or when the deadline has passed, while others act in between. Here one such caller is
followed from its arrival to its answer, with all sections of its own in between.
-/

namespace ConnectionPool

variable {ω α : Type}

/-- Where a caller stands that has no answer yet. -/
inductive Stand where
  | up (prompt : Prompt)
  | asleep
  deriving DecidableEq, Repr

def Stand.call (w : Patience) : Stand → Call α
  | up r => .looking w r
  | asleep => .parked w

/-- A section that a caller without an answer has behind it. -/
structure Section (α : Type) where
  stand : Stand
  now : Nat
  before : Pool α
  event : Event α
  after : Pool α

/-- Whether others wake this call, if it is asleep. -/
def Event.Wakes : Event α → Call α → Prop
  | .signalled _ roused, call => call ∈ roused
  | .broadcast _, _ => True
  | _, _ => False

namespace Traffic

/-- A caller of this patience arrives at `s`. After these events it has no answer yet and stands
like this, with these sections of its own behind it, the latest first. -/
inductive Waits (w : Patience) (s : Traffic α) :
    List (Event α) → List (Section α) → Traffic α → Stand → Prop
  | arrive {t} : Step s (.arrived w) t → Waits w s [.arrived w] [] t (.up .arrival)
  /-- Others act, and the caller stays where it is. -/
  | aside {events sections t c e u} : Waits w s events sections t c → Step t e u →
      c.call w ∈ u.calls → Waits w s (e :: events) sections u c
  | woken {events sections t e u} : Waits w s events sections t .asleep → Step t e u →
      e.Wakes (.parked w) → Waits w s (e :: events) sections u (.up .wakeup)
  | own {events sections t c e c' after others} : Waits w s events sections t c →
      t.calls = c.call w ::ₘ others →
      (c.call w).Advance t.now t.pool e after (some (c'.call w)) →
      Waits w s (e :: events) (⟨c, t.now, t.pool, e, after⟩ :: sections)
        (t.turn after (some (c'.call w)) others) c'

variable {s t u : Traffic α} {e : Event α} {events : List (Event α)}
  {w : Patience} {c c' : Stand} {sections : List (Section α)} {others : Multiset (Call α)}

/-- A section after which the caller has no answer yet leaves the books alone: the caller went to
sleep by a full pool, or it woke up. -/
theorem own_waits {now : Nat} {p after : Pool α}
    (h : (c.call w).Advance now p e after (some (c'.call w))) :
    after = p ∧
      ((∃ r, c = .up r ∧ r ≠ .deadline ∧ p.inspect = .full ∧ c' = .asleep) ∨
        (c = .asleep ∧ c' = .up .wakeup) ∨
        c = .asleep ∧ c' = .up .deadline ∧
          ∃ d limit, w = .within d limit ∧ e = .lapsed d limit ∧ limit ≤ now) := by
  cases c with
  | up r =>
    cases c' with
    | up r' => cases h
    | asleep =>
      cases h with
      | park hi _ hr => exact ⟨rfl, .inl ⟨r, rfl, hr, hi, rfl⟩⟩
  | asleep =>
    cases c' with
    | up r' =>
      cases h with
      | wake => exact ⟨rfl, .inr (.inl ⟨rfl, rfl⟩)⟩
      | lapse hlimit => exact ⟨rfl, .inr (.inr ⟨rfl, rfl, _, _, rfl, rfl, hlimit⟩)⟩
    | asleep => cases h

theorem own_expired {now limit : Nat} {d : Duration} {p after : Pool α}
    {next : Option (Call α)} (h : (c.call w).Advance now p (.expired d limit) after next) :
    w = .within d limit ∧ c = .up .deadline ∧ p.inspect = .full ∧ after = p.countRefusal ∧
      next = none := by
  cases c with
  | up r =>
    generalize hw : (Stand.up r).call w = call at h
    cases h with
    | expire hi =>
      cases hw
      exact ⟨rfl, rfl, hi, rfl, rfl⟩
  | asleep => cases h

/-- A caller who looks where something is to be had takes it, however late it is. -/
theorem own_takes {now : Nat} {r : Prompt} {p after : Pool α} {next : Option (Call α)}
    (h : (Call.looking w r).Advance now p e after next) (ho : p.closed = false)
    (hsome : p.idle ≠ [] ∨ p.created < p.settings.maxConnections) :
    (∃ m, p.idle = m :: after.idle ∧ e = .reused w r m ∧ next = some (.handingOut m)) ∨
      p.idle = [] ∧ e = .reserved w r ∧ next = some .granted := by
  have full (hi : p.inspect = .full) : False := by
    obtain ⟨-, hidle, hmax⟩ := Pool.inspect_eq_full.mp hi
    cases hsome with
    | inl hne => exact hne hidle
    | inr hlt => omega
  cases h with
  | refuse hi =>
    rw [Pool.inspect_eq_closed.mp hi] at ho
    cases ho
  | reuse hi => exact .inl ⟨_, (Pool.inspect_eq_reuse hi).2.1, rfl, rfl⟩
  | reserve hi => exact .inr ⟨(Pool.inspect_eq_create.mp hi).2.1, rfl, rfl⟩
  | decline hi | expire hi | park hi => exact (full hi).elim

theorem exists_last (now : Nat) (p : Pool α) (d : Duration) (limit : Nat) :
    ∃ e after next,
      (Call.looking (.within d limit) .deadline).Advance now p e after next := by
  cases hi : p.inspect with
  | closed => exact ⟨_, _, _, .refuse hi⟩
  | full => exact ⟨_, _, _, .expire hi⟩
  | granted grant after =>
    cases grant with
    | reuse m => exact ⟨_, _, _, .reuse hi⟩
    | create => exact ⟨_, _, _, .reserve hi⟩

theorem Step.now_le (h : Step s e t) : s.now ≤ t.now := by
  cases h with
  | tick => exact Nat.le_succ _
  | _ => exact Nat.le_refl _

theorem Step.of_arrived (h : Step s (.arrived w) t) :
    w.StartsAt s.now ∧ t.calls = .looking w .arrival ::ₘ s.calls := by
  cases h with
  | advance _ ha => cases ha
  | arrive hw => exact ⟨hw, rfl⟩

theorem Step.wakes_mem (hs : Step s e t) (hm : .parked w ∈ s.calls) (hw : e.Wakes (.parked w)) :
    .looking w .wakeup ∈ t.calls := by
  cases hs with
  | advance _ ha => cases ha <;> cases hw
  | signal =>
    exact Multiset.mem_cons_of_mem (Multiset.mem_add.mpr (.inr
      (Multiset.mem_map.mpr ⟨.parked w, hw, rfl⟩)))
  | broadcast hc =>
    rw [hc] at hm
    obtain hne | hm := Multiset.mem_cons.mp hm
    · cases hne
    · exact Multiset.mem_cons_of_mem (Multiset.mem_map.mpr ⟨.parked w, hm, rfl⟩)
  | _ => cases hw

namespace Waits

theorem run (h : Waits w s events sections t c) : Run s events t := by
  induction h with
  | arrive hs => exact .step .refl hs
  | aside _ hs _ ih | woken _ hs _ ih => exact ih.step hs
  | own _ hc ha ih => exact ih.step (.advance hc ha)

theorem startsAt (h : Waits w s events sections t c) : w.StartsAt s.now := by
  induction h with
  | arrive hs => exact hs.of_arrived.1
  | aside _ _ _ ih | woken _ _ _ ih | own _ _ _ ih => exact ih

theorem mem (h : Waits w s events sections t c) : c.call w ∈ t.calls := by
  induction h with
  | arrive hs =>
    rw [hs.of_arrived.2]
    exact Multiset.mem_cons_self _ _
  | aside _ _ hm => exact hm
  | woken _ hs hw ih => exact hs.wakes_mem ih hw
  | own => exact mem_turn.mpr (.inl rfl)

/-- No step loses sight of the caller: it stays where it is, is woken, or takes a section of its
own. -/
theorem next (h : Waits w s events sections t c) (hs : Step t e u) :
    c.call w ∈ u.calls ∨ (c = .asleep ∧ e.Wakes (.parked w)) ∨
      ∃ others after next, t.calls = c.call w ::ₘ others ∧
        (c.call w).Advance t.now t.pool e after next ∧ u = t.turn after next others := by
  have hm := h.mem
  cases hs with
  | @advance call others _ after next hc ha =>
    by_cases hcall : call = c.call w
    · rw [hcall] at hc ha
      exact .inr (.inr ⟨others, after, next, hc, ha, rfl⟩)
    · rw [hc] at hm
      exact .inl (mem_turn.mpr (.inr ((Multiset.mem_cons.mp hm).resolve_left (Ne.symm hcall))))
  | lend hc =>
    rw [hc] at hm
    obtain hne | hm := Multiset.mem_cons.mp hm
    · cases c <;> cases hne
    · exact .inl hm
  | signal hc hw =>
    rw [hc] at hm
    obtain hne | hm := Multiset.mem_cons.mp hm
    · cases c <;> cases hne
    · obtain hm | hm := Multiset.mem_add.mp hm
      · exact .inl (Multiset.mem_cons_of_mem (Multiset.mem_add.mpr (.inl hm)))
      · cases c with
        | up r => cases hw _ hm
        | asleep => exact .inr (.inl ⟨rfl, hm⟩)
  | broadcast hc =>
    rw [hc] at hm
    obtain hne | hm := Multiset.mem_cons.mp hm
    · cases c <;> cases hne
    · cases c with
      | up r => exact .inl (Multiset.mem_cons_of_mem (Multiset.mem_map.mpr ⟨_, hm, rfl⟩))
      | asleep => exact .inr (.inl ⟨rfl, trivial⟩)
  | arrive | close | dropLast | detach => exact .inl (Multiset.mem_cons_of_mem hm)
  | _ => exact .inl hm

/-- Nothing that a caller without an answer has done shows in the books, and it has not yet looked
after its deadline. -/
theorem idle (h : Waits w s events sections t c) :
    ∀ x ∈ sections, x.after = x.before ∧ x.stand ≠ .up .deadline ∧
      ∀ r, x.stand = .up r → x.before.inspect = .full := by
  induction h with
  | arrive => exact List.forall_mem_nil _
  | aside _ _ _ ih | woken _ _ _ ih => exact ih
  | own _ _ ha ih =>
    refine List.forall_mem_cons.mpr ⟨?_, ih⟩
    obtain ⟨hafter, hpark | ⟨rfl, -⟩ | ⟨rfl, -, -⟩⟩ := own_waits ha
    · obtain ⟨r, rfl, hr, hfull, -⟩ := hpark
      exact ⟨hafter, fun hstand => hr (Stand.up.inj hstand), fun _ _ => hfull⟩
    · exact ⟨hafter, nofun, nofun⟩
    · exact ⟨hafter, nofun, nofun⟩

/-- A caller that is up because of its deadline has noticed in its latest section that it has
passed. -/
theorem overdue (h : Waits w s events sections t c) (hc : c = .up .deadline) :
    ∃ x earlier d limit, sections = x :: earlier ∧ x.stand = .asleep ∧
      x.event = .lapsed d limit ∧ w = .within d limit ∧ limit ≤ x.now ∧ x.now ≤ t.now := by
  induction h with
  | arrive => cases hc
  | woken => cases hc
  | aside _ hs _ ih =>
    obtain ⟨x, earlier, d, limit, hx, hstand, hevent, hw, hlimit, hnow⟩ := ih hc
    exact ⟨x, earlier, d, limit, hx, hstand, hevent, hw, hlimit, hnow.trans hs.now_le⟩
  | own _ _ ha =>
    subst hc
    obtain ⟨-, ⟨r, -, -, -, hne⟩ | ⟨-, hne⟩ | ⟨rfl, -, d, limit, hw, he, hlimit⟩⟩ := own_waits ha
    · cases hne
    · cases hne
    · exact ⟨_, _, d, limit, rfl, rfl, he, hw, hlimit, Nat.le_refl _⟩

end Waits

theorem Step.no_evictions (h : Step s e t) (ho : t.pool.closed = false) : e.evictions = [] := by
  obtain ⟨call, next, -, ha⟩ | ⟨-, ht⟩ | ⟨hq, -⟩ := h.pool_cases
  · exact ha.no_evictions
  · rw [ht] at ho
    cases ho
  · exact hq.evictions

theorem Run.no_evictions (hr : Run s events t) (ho : t.pool.closed = false) :
    events.flatMap Event.evictions = [] := by
  induction hr with
  | refl => rfl
  | @step events e v u _ hs ih =>
    have hv : v.pool.closed = false := by
      by_contra hclosed
      rw [hs.closed_stays (Bool.eq_true_of_not_eq_false hclosed)] at ho
      cases ho
    rw [List.flatMap_cons, hs.no_evictions ho, ih hv]
    rfl

/-- A connection was idle or came back, more often than it was taken since. -/
def IdleLeft (s : Traffic α) (since : List (Event α)) : Prop :=
  ∃ id, (since.flatMap Event.reuses).count id <
    s.pool.idleIds.count id + (since.flatMap Event.returns).count id

/-- More slots were free or became so than were reserved since. -/
def SlotLeft (s : Traffic α) (since : List (Event α)) : Prop :=
  (since.map Event.claims).sum < s.pool.freeSlots + (since.map Event.forfeits).sum

theorem IdleLeft.idle (h : s.IdleLeft events) (hr : Run s events t)
    (ho : t.pool.closed = false) : t.pool.idle ≠ [] := by
  obtain ⟨id, hid⟩ := h
  have hflow := hr.idle_flow (· == id)
  have hids : s.pool.idleIds.count id = s.idleCount (· == id) := by
    rw [Pool.idleIds, List.count, List.countP_map]
    rfl
  rw [hr.no_evictions ho, List.countP_nil] at hflow
  intro hnone
  rw [idleCount, hnone, List.countP_nil] at hflow
  rw [hids] at hid
  simp only [List.count] at hid
  omega

theorem SlotLeft.room (h : s.SlotLeft events) (hb : s.Balanced) (hr : Run s events t) :
    t.pool.created < t.pool.settings.maxConnections := by
  have hflow := hb.slot_flow hr
  have hle := hb.created_le
  rw [SlotLeft, Pool.freeSlots] at h
  rw [hr.settings_eq]
  omega

/-- What a caller without an answer can rely on in its next section. -/
structure Waits.Fair (w : Patience) (s : Traffic α) (sections : List (Section α)) (t : Traffic α)
    (c : Stand) (e : Event α) (after : Pool α) (next : Option (Call α)) : Prop where
  /-- A timeout is the caller's own and is over, and its last look found nothing. -/
  expired : ∀ d limit, e = .expired d limit → w = .within d limit ∧
    limit = s.now + d.totalNanos ∧ limit ≤ t.now ∧ c = .up .deadline ∧ t.pool.closed = false ∧
    t.pool.idle = [] ∧ t.pool.created = t.pool.settings.maxConnections ∧ next = none ∧
    after = { t.pool with metrics :=
      { t.pool.metrics with checkoutsFailed := t.pool.metrics.checkoutsFailed + 1 } }
  /-- Before that the caller has changed nothing. -/
  unchanged : ∀ x ∈ sections, x.after = x.before
  /-- The look that comes next after the deadline is the only one: the caller has just noticed that
  its deadline has passed, and will not go to sleep again. -/
  last : c = .up .deadline →
    (∃ x earlier d limit, sections = x :: earlier ∧ x.stand = .asleep ∧
      x.event = .lapsed d limit ∧ w = .within d limit ∧ limit ≤ x.now) ∧
    (∀ x ∈ sections, x.stand ≠ .up .deadline) ∧ ∀ c' : Stand, next ≠ some (c'.call w)
  /-- What others have left is the caller's, even after its deadline. -/
  takes : ∀ r, c = .up r → t.pool.closed = false → ∀ before u since, Run s before u →
    Run u since t → u.IdleLeft since ∨ u.SlotLeft since →
      (∃ m, t.pool.idle = m :: after.idle ∧ e = .reused w r m ∧ next = some (.handingOut m)) ∨
        t.pool.idle = [] ∧ e = .reserved w r ∧ next = some .granted

namespace Waits

theorem own_ends {now : Nat} {p after : Pool α} {e : Event α} {next : Option (Call α)}
    (h : (Call.looking w .deadline).Advance now p e after next) (c' : Stand) :
    next ≠ some (c'.call w) := by
  rintro rfl
  obtain ⟨-, ⟨r, hr, hne, -⟩ | ⟨hasleep, -⟩ | ⟨hasleep, -⟩⟩ := own_waits (c := .up .deadline) h
  · exact hne (Stand.up.inj hr).symm
  · cases hasleep
  · cases hasleep

theorem fair {after : Pool α} {next : Option (Call α)} (h : Waits w s events sections t c)
    (hb : s.Balanced) (ha : (c.call w).Advance t.now t.pool e after next) :
    Fair w s sections t c e after next where
  expired := by
    rintro d limit rfl
    obtain ⟨rfl, hc, hfull, hafter, hnext⟩ := own_expired ha
    obtain ⟨hopen, hidle, hmax⟩ := Pool.inspect_eq_full.mp hfull
    obtain ⟨x, -, d', limit', -, -, -, hw, hlimit, hnow⟩ := h.overdue hc
    cases hw
    have hle := (hb.run h.run).created_le
    exact ⟨rfl, h.startsAt.2, hlimit.trans hnow, hc, hopen, hidle, Nat.le_antisymm hle hmax,
      hnext, hafter⟩
  unchanged := fun x hx => (h.idle x hx).1
  last := by
    rintro rfl
    obtain ⟨x, earlier, d, limit, hx, hstand, hevent, hw, hlimit, -⟩ := h.overdue rfl
    exact ⟨⟨x, earlier, d, limit, hx, hstand, hevent, hw, hlimit⟩, fun y hy => (h.idle y hy).2.1,
      own_ends ha⟩
  takes := by
    rintro r rfl ho before u since hbefore hsince hleft
    apply own_takes ha ho
    cases hleft with
    | inl hidle => exact .inl (hidle.idle hsince ho)
    | inr hslot => exact .inr (hslot.room (hb.run hbefore) hsince)

end Waits

end Traffic

namespace Workplace

variable {k : Connector ω α} {reentrant : Bool} {v after : Workplace ω α} {f : Factory ω α}

theorem tryAcquireWith_ne_timeout (f : Factory ω α) (v : Workplace ω α) (d : Duration) :
    (tryAcquireWith f v).1 ≠ .refused (.timeout d) := by
  rw [tryAcquireWith]
  intro h
  cases hinspect : v.pool.inspect with
  | closed => simp [hinspect, refuse] at h
  | full => simp [hinspect] at h
  | granted grant pool =>
    simp only [hinspect] at h
    cases grant with
    | reuse m => cases h
    | create =>
      simp only [complete, create] at h
      rcases hf : f { v with pool := pool.takeId.2 } with ⟨attempt, left⟩
      rw [hf] at h
      cases attempt <;> cases h

theorem acquireWithin_timeout {now : Nat} {timeout : Option Duration} {d : Duration}
    (h : v.acquireWithin k reentrant now timeout = (.answered (.refused (.timeout d)), after)) :
    timeout = some d ∧ v.pool.inspect = .full ∧
      after = { v with pool := v.pool.countRefusal } := by
  rw [acquireWithin] at h
  split at h
  · cases h
  · cases hr : v.tryAcquire k reentrant with
    | mk answer left =>
      rw [hr] at h
      cases answer with
      | aborted cause => cases h
      | refused error =>
        cases h
        exact absurd (congrArg Prod.fst hr) (tryAcquireWith_ne_timeout _ _ d)
      | ok found =>
        cases found with
        | some m => cases h
        | none =>
          have hfull : v.pool.inspect = .full :=
            tryAcquireWith_none (congrArg Prod.fst hr)
          have hleft : v.tryAcquire k reentrant = (.ok none, v) := tryAcquireWith_full v hfull
          rw [hleft] at hr
          cases hr
          cases timeout with
          | none => cases h
          | some limit =>
            cases h
            exact ⟨rfl, hfull, rfl⟩

end Workplace

namespace Traffic

/-- However other calls interleave with it, a caller times out only after its own deadline and a
last look at an open pool that is full, and nothing changes but that one more failed checkout is
counted. A pool in use by one caller at a time answers alike. -/
theorem timeouts_fair {k : Connector ω α} {settings : PoolSettings}
    {script : Option (List FactoryCall)} {world after : ω} {p : Pool α} {rest : List FactoryCall}
    {before : List (Event α)}
    (hb : Pool.build k settings script world = (.ok (p, rest), after))
    (hr : Run (opening p) before s) (h : Waits w s events sections t c) :
    t.pool.settings = settings ∧
      (∀ e u, Step t e u → c.call w ∈ u.calls ∨ (c = .asleep ∧ e.Wakes (.parked w)) ∨
        ∃ others after next, t.calls = c.call w ::ₘ others ∧
          (c.call w).Advance t.now t.pool e after next ∧ u = t.turn after next others) ∧
      (∀ e after next, (c.call w).Advance t.now t.pool e after next →
        Waits.Fair w s sections t c e after next) ∧
      (c = .up .deadline → ∃ others e after next, t.calls = c.call w ::ₘ others ∧
        (c.call w).Advance t.now t.pool e after next ∧ Step t e (t.turn after next others)) ∧
      ∀ (reentrant : Bool) (v left : Workplace ω α) (now : Nat) (timeout : Option Duration)
        (d : Duration),
        v.acquireWithin k reentrant now timeout = (.answered (.refused (.timeout d)), left) →
          timeout = some d ∧ v.pool.closed = false ∧ v.pool.idle = [] ∧
            v.pool.settings.maxConnections ≤ v.pool.created ∧
            left = { v with pool := { v.pool with metrics :=
              { v.pool.metrics with
                checkoutsFailed := v.pool.metrics.checkoutsFailed + 1 } } } := by
  obtain ⟨-, hset, -⟩ := Pool.build_ok hb
  have hbal := (Balanced.of_build hb).run hr
  refine ⟨?_, fun _ _ => h.next, fun _ _ _ => h.fair hbal, ?_, ?_⟩
  · exact h.run.settings_eq.trans (hr.settings_eq.trans hset)
  · rintro rfl
    obtain ⟨-, -, d, limit, -, -, -, rfl, -, -⟩ := h.overdue rfl
    obtain ⟨others, hc⟩ := Multiset.exists_cons_of_mem h.mem
    obtain ⟨e, after, next, ha⟩ := exists_last t.now t.pool d limit
    exact ⟨others, e, after, next, hc, ha, .advance hc ha⟩
  · intro reentrant v left now timeout d hv
    obtain ⟨htimeout, hfull, hleft⟩ := Workplace.acquireWithin_timeout hv
    obtain ⟨hopen, hidle, hmax⟩ := Pool.inspect_eq_full.mp hfull
    exact ⟨htimeout, hopen, hidle, hmax, hleft⟩

/-- One nanosecond. -/
private def instant : Duration := ⟨0, 1, by decide, by decide⟩

private theorem waits_soleLent :
    ∃ (s : Traffic Nat) (before events : List (Event Nat)) (sections : List (Section Nat))
      (t : Traffic Nat), Run (opening solePool) before s ∧
        Waits (.within instant 1) s events sections t (.up .deadline) ∧
        t.pool.inspect = .full := by
  have only {call : Call Nat} : call ::ₘ 0 = call ::ₘ (0 : Multiset (Call Nat)) := rfl
  have harrive := Waits.arrive (w := .within instant 1)
    (s := ⟨⟨{ solePool with idle := [] }.countCheckout, [⟨⟨0, ⟨1, true, 1⟩⟩, 1⟩]⟩, 0,
      .lease 1 ::ₘ 0, 0⟩) (.arrives (show Patience.StartsAt 0 _ from ⟨by decide, rfl⟩))
  have hpark : Waits _ _ _ _ _ .asleep := harrive.own only (.park rfl rfl nofun)
  have htick := hpark.aside .tick hpark.mem
  have hlapse : Waits _ _ _ _ _ (.up .deadline) := htick.own only (.lapse (Nat.le_refl 1))
  exact ⟨_, _, _, _, _, run_soleLent, hlapse, rfl⟩

theorem timeouts_fair_sole :
    ∃ (s t : Traffic Nat) (sections : List (Section Nat)) (after : Pool Nat),
      Waits.Fair (.within instant 1) s sections t (.up .deadline) (.expired instant 1) after
        none ∧ t.pool.created = solePool.settings.maxConnections := by
  obtain ⟨s, before, events, sections, t, hr, hwaits, hfull⟩ := waits_soleLent
  obtain ⟨hset, -, hfair, -, -⟩ := timeouts_fair build_solePool hr hwaits
  have hexpires := hfair _ _ _ (.expire hfull)
  obtain ⟨-, -, -, -, -, -, hmax, -, -⟩ := hexpires.expired _ _ rfl
  exact ⟨s, t, sections, _, hexpires, hset ▸ hmax⟩

end Traffic

end ConnectionPool

import ConnectionPool.Pool.Acquire
import ConnectionPool.Proofs.Traffic.Basic
import Mathlib.Data.Multiset.MapFold

/-!
# Undisturbed calls

What a pool does for one caller after another is traffic too: each operation is a run in which
nothing else happens. A factory that uses its pool takes part in the run of the call it works for.
-/

namespace ConnectionPool

variable {ω α : Type}

namespace Traffic

variable {s t u : Traffic α} {ledger : Ledger α} {others : Multiset (Call α)}
  {handles : Multiset Handle} {now : Nat} {events events' : List (Event α)}

theorem Run.trans (hr : Run s events t) (hr' : Run t events' u) : Run s (events' ++ events) u := by
  induction hr' with
  | refl => exact hr
  | step _ hs ih => exact .step ih hs

def Reaches (s t : Traffic α) : Prop := ∃ events, Run s events t

namespace Reaches

theorem refl (s : Traffic α) : s.Reaches s := ⟨[], .refl⟩

theorem trans (h : s.Reaches t) (h' : t.Reaches u) : s.Reaches u := by
  obtain ⟨events, hr⟩ := h
  obtain ⟨events', hr'⟩ := h'
  exact ⟨events' ++ events, hr.trans hr'⟩

theorem step {e : Event α} (hs : Step s e t) : s.Reaches t := ⟨[e], .step .refl hs⟩

end Reaches

/-- Nobody is asleep. -/
def IsWakeful (calls : Multiset (Call α)) : Prop := ∀ call ∈ calls, ¬ call.isParked

theorem signalling_reaches (hq : IsWakeful others) (errand : Errand α) :
    Reaches ⟨ledger, .signalling errand ::ₘ others, handles, now⟩
      ⟨{ ledger with pool := errand.settle ledger.pool }, others, handles, now⟩ := by
  have hc : (⟨ledger, .signalling errand ::ₘ others, handles, now⟩ : Traffic α).calls =
      .signalling errand ::ₘ (others + 0) := by rw [Multiset.add_zero]
  have hs := Step.signal hc (by simp) fun _ => hq
  simp only [turn, Multiset.map_zero, Multiset.add_zero, Option.elim] at hs
  exact (Reaches.step hs).trans (.step (.ends .finish))

theorem broadcasting_reaches (hq : IsWakeful others) (errand : Errand α) :
    Reaches ⟨ledger, .broadcasting errand ::ₘ others, handles, now⟩
      ⟨{ ledger with pool := errand.settle ledger.pool }, others, handles, now⟩ := by
  have hc : (⟨ledger, .broadcasting errand ::ₘ others, handles, now⟩ : Traffic α).calls =
      .broadcasting errand ::ₘ others := rfl
  have hw : others.map Call.wake = others := by
    rw [Multiset.map_congr rfl fun call hm => ?_, Multiset.map_id]
    cases call with
    | parked => exact absurd rfl (hq _ hm)
    | _ => rfl
  have hs := Step.broadcast hc
  simp only [turn, hw, Option.elim] at hs
  exact (Reaches.step hs).trans (.step (.ends .finish))

theorem givingBack_reaches (hq : IsWakeful others) (m : Member α) :
    Reaches ⟨ledger, .givingBack m ::ₘ others, handles, now⟩
      ⟨{ ledger with pool := (ledger.pool.giveBack m).2 }, others, handles, now⟩ := by
  cases hc : ledger.pool.closed with
  | false =>
    have ht : ledger.pool.takeBack m = (none, ledger.pool.addIdle m) :=
      Pool.takeBack_eq_none.mpr ⟨hc, rfl⟩
    have hg : (ledger.pool.giveBack m).2 = (ledger.pool.addIdle m).countReturn := by
      rw [Pool.giveBack, ht]
    rw [hg]
    exact (Reaches.step (.goesOn (.pool ht))).trans (signalling_reaches hq .countReturn)
  | true =>
    have ht : ledger.pool.takeBack m = (some m, ledger.pool.freeSlot) :=
      Pool.takeBack_eq_some.mpr ⟨hc, rfl, rfl⟩
    have hg : (ledger.pool.giveBack m).2 = ledger.pool.freeSlot.countClosed 1 := by
      rw [Pool.giveBack, ht]
    rw [hg]
    exact (Reaches.step (.goesOn (.expel ht))).trans (.step (.ends .finish))

theorem dropHandle_reaches (hq : IsWakeful others) (handle : Handle) :
    Reaches ⟨ledger, others, handle ::ₘ handles, now⟩
      ⟨(ledger.dropHandle handle.id).2, others, handles, now⟩ := by
  cases hl : ledger.letGo handle.id with
  | mk left after =>
    cases left with
    | none =>
      have hd : (ledger.dropHandle handle.id).2 = after := by rw [Ledger.dropHandle, hl]
      rw [hd]
      exact .step (.drop rfl hl)
    | some m =>
      have hd : (ledger.dropHandle handle.id).2 =
          { after with pool := (after.pool.giveBack m).2 } := by
        rw [Ledger.dropHandle, hl]
      rw [hd]
      exact (Reaches.step (.dropsLast hl)).trans (givingBack_reaches hq m)

theorem detach?_reaches (hq : IsWakeful others) {id : Nat} {conn : α} {after : Ledger α}
    (h : ledger.detach? id = some (conn, after)) :
    Reaches ⟨ledger, others, .lease id ::ₘ handles, now⟩ ⟨after, others, handles, now⟩ := by
  obtain ⟨⟨m, left⟩, ht, hm⟩ := Option.map_eq_some_iff.mp h
  obtain ⟨-, rfl⟩ := Prod.mk.inj hm
  have hs : Step ⟨ledger, others, .lease id ::ₘ handles, now⟩ (.detached m) _ := .detach rfl ht
  exact ((Reaches.step hs).trans (.step (.goesOn .release))).trans (signalling_reaches hq _)

theorem close_reaches (hq : IsWakeful others) :
    Reaches ⟨ledger, others, handles, now⟩
      ⟨{ ledger with pool := ledger.pool.close.2 }, others, handles, now⟩ := by
  have hs : Step ⟨ledger, others, handles, now⟩ _ _ := .close
  exact (Reaches.step hs).trans (broadcasting_reaches hq _)

def answered (s : Traffic α) (pool : Pool α) : Option (Member α) → Traffic α
  | some m =>
    { s with
      ledger := { s.ledger with pool }.start m
      handles := .lease m.metadata.id ::ₘ s.handles }
  | none => { s with ledger := { s.ledger with pool } }

end Traffic

/-- The connection that a call got. -/
def Acquired.member? : Acquired α → Option (Member α)
  | .ok found => found
  | _ => none

namespace Workplace

open Traffic

/-- Whatever this factory does is traffic on its pool. -/
def Factory.IsTraffic (factory : Factory ω α) : Prop :=
  ∀ (w : Workplace ω α) (s : Traffic α), IsWakeful s.calls → s.pool = w.pool →
    s.Reaches (s.answered (factory w).2.pool none)

variable {factory : Factory ω α} {s : Traffic α} {others : Multiset (Call α)}

def created (others : Multiset (Call α)) : Attempt PoolError (Member α) → Multiset (Call α)
  | .ok m => .handingOut m ::ₘ others
  | _ => others

theorem create_reaches (hf : Factory.IsTraffic factory) (w : Workplace ω α)
    (hq : IsWakeful others) (episodes : List (Episode α)) (handles : Multiset Handle) (now : Nat) :
    Reaches ⟨⟨w.pool, episodes⟩, .granted ::ₘ others, handles, now⟩
      ⟨⟨(w.create factory).2.pool, episodes⟩, created others (w.create factory).1, handles,
        now⟩ := by
  have hnumber : Step ⟨⟨w.pool, episodes⟩, .granted ::ₘ others, handles, now⟩ _
      ⟨⟨w.pool.takeId.2, episodes⟩, .creating w.pool.takeId.1 ::ₘ others, handles, now⟩ :=
    .goesOn .number
  have hq' : IsWakeful (.creating w.pool.takeId.1 ::ₘ others : Multiset (Call α)) := by
    intro call hm
    obtain rfl | hm := Multiset.mem_cons.mp hm
    · exact nofun
    · exact hq call hm
  have hcall := hf { w with pool := w.pool.takeId.2 }
    ⟨⟨w.pool.takeId.2, episodes⟩, .creating w.pool.takeId.1 ::ₘ others, handles, now⟩ hq' rfl
  refine (Reaches.step hnumber).trans (hcall.trans ?_)
  rw [create]
  cases hr : factory { w with pool := w.pool.takeId.2 } with
  | mk attempt after =>
    simp only [hr]
    cases attempt with
    | ok conn => exact .step (.goesOn .make)
    | refused cause =>
      exact (Reaches.step (.goesOn .fail)).trans (signalling_reaches hq (.reportFailure cause))
    | aborted cause =>
      exact (Reaches.step (.goesOn .abort)).trans (signalling_reaches hq (.abort cause))

theorem handOut_reaches (w : Workplace ω α) (m : Member α) (s : Traffic α) (hp : s.pool = w.pool) :
    Reaches { s with calls := .handingOut m ::ₘ s.calls }
      (s.answered (w.handOut m).2.pool (w.handOut m).1.member?) := by
  have hs : Step ⟨s.ledger, .handingOut m ::ₘ s.calls, s.handles, s.now⟩ _ _ := .lends
  rw [handOut, ← hp]
  exact .step hs

/-- A call that found the pool open and not used up ends with a lease or without. -/
theorem tryAcquireWith_granted (hf : Factory.IsTraffic factory) (w : Workplace ω α)
    (hq : IsWakeful s.calls) (hp : s.pool = w.pool) (hfull : w.pool.inspect ≠ .full)
    (patience : Patience) :
    Reaches { s with calls := .looking patience .arrival ::ₘ s.calls }
      (s.answered (tryAcquireWith factory w).2.pool (tryAcquireWith factory w).1.member?) := by
  obtain ⟨⟨pool, episodes⟩, calls, handles, now⟩ := s
  obtain rfl : pool = w.pool := hp
  rw [tryAcquireWith]
  cases hi : w.pool.inspect with
  | full => exact absurd hi hfull
  | closed => exact .step (.ends (.refuse hi))
  | granted grant after =>
    cases grant with
    | reuse m =>
      exact (Reaches.step (.goesOn (.reuse hi))).trans
        (handOut_reaches { w with pool := after } m ⟨⟨after, episodes⟩, calls, handles, now⟩ rfl)
    | create =>
      have hc := create_reaches hf { w with pool := after } hq episodes handles now
      refine (Reaches.step (.goesOn (.reserve hi))).trans (hc.trans ?_)
      simp only [complete]
      cases hr : create factory { w with pool := after } with
      | mk attempt made =>
        cases attempt with
        | ok m => exact handOut_reaches made m ⟨⟨made.pool, episodes⟩, calls, handles, now⟩ rfl
        | refused error => exact .refl _
        | aborted cause => exact .refl _

theorem tryAcquireWith_full (w : Workplace ω α) (hfull : w.pool.inspect = .full) :
    tryAcquireWith factory w = (.ok none, w) := by
  rw [tryAcquireWith, hfull]

theorem tryAcquireWith_none {w : Workplace ω α} (h : (tryAcquireWith factory w).1 = .ok none) :
    w.pool.inspect = .full := by
  rw [tryAcquireWith] at h
  cases hi : w.pool.inspect with
  | full => rfl
  | closed =>
    rw [hi] at h
    cases h
  | granted grant after =>
    simp only [hi] at h
    cases grant with
    | reuse m => cases h
    | create =>
      simp only [complete] at h
      split at h <;> cases h

theorem tryAcquireWith_reaches (hf : Factory.IsTraffic factory) (w : Workplace ω α)
    (hq : IsWakeful s.calls) (hp : s.pool = w.pool) :
    s.Reaches
      (s.answered (tryAcquireWith factory w).2.pool (tryAcquireWith factory w).1.member?) := by
  have harrive : Patience.StartsAt s.now .none := trivial
  refine (Reaches.step (.arrive harrive)).trans ?_
  by_cases hfull : w.pool.inspect = .full
  · rw [tryAcquireWith_full w hfull, ← hp]
    rw [← hp] at hfull
    have hs : Step { s with calls := .looking .none .arrival ::ₘ s.calls } _ _ :=
      .ends (.decline hfull)
    exact .step hs
  · exact tryAcquireWith_granted hf w hq hp hfull .none

theorem answered_reaches (hq : IsWakeful s.calls) (pool : Pool α) (m : Member α) :
    (s.answered pool (some m)).Reaches (s.answered (pool.giveBack m).2 none) := by
  have hl : ({ s.ledger with pool }.start m).letGo m.metadata.id =
      (some m, { s.ledger with pool }) := by
    simp [Ledger.letGo, Ledger.episode?, Ledger.start, Ledger.finish, Episode.id]
  have hs : Step (s.answered pool (some m)) (.dropped (.lease m.metadata.id)) _ := .dropsLast hl
  exact (Reaches.step hs).trans (givingBack_reaches hq m)

variable (k : Connector ω α)

theorem perform_reaches (hf : Factory.IsTraffic factory) (use : FactoryUse) (w : Workplace ω α)
    (hq : IsWakeful s.calls) (hp : s.pool = w.pool) :
    s.Reaches (s.answered (perform k (tryAcquireWith factory) use w).2.pool none) := by
  cases use with
  | probe =>
    rw [perform, note, ← hp]
    exact .refl s
  | close =>
    rw [perform, Workplace.close, ← hp]
    exact close_reaches hq
  | reenter =>
    have ha := tryAcquireWith_reaches hf w hq hp
    simp only [perform]
    cases hr : tryAcquireWith factory w with
    | mk answer after =>
      rw [hr] at ha
      cases answer with
      | ok found =>
        cases found with
        | none => exact ha
        | some m => exact ha.trans (answered_reaches hq after.pool m)
      | refused error => exact ha
      | aborted cause => exact ha

theorem performAll_reaches (hf : Factory.IsTraffic factory) (uses : List FactoryUse)
    (w : Workplace ω α) (hq : IsWakeful s.calls) (hp : s.pool = w.pool) :
    s.Reaches (s.answered (performAll k (tryAcquireWith factory) uses w).2.pool none) := by
  induction uses generalizing w s with
  | nil =>
    rw [performAll, ← hp]
    exact .refl s
  | cons use uses ih =>
    have hu := perform_reaches k hf use w hq hp
    simp only [performAll]
    cases hr : perform k (tryAcquireWith factory) use w with
    | mk cause after =>
      rw [hr] at hu
      cases cause with
      | some cause => exact hu
      | none => exact hu.trans (ih after hq rfl)

/-- However deep the calls of a factory nest, all they do is traffic. -/
theorem callFactory_isTraffic (reentrant : Bool) (depth : Nat) :
    Factory.IsTraffic (callFactory k reentrant depth) := by
  induction depth with
  | zero =>
    intro w s _ hp
    rw [callFactory, ← hp]
    exact .refl s
  | succ depth ih =>
    intro w s hq hp
    have hn : w.nextCall.2.pool = w.pool := by
      rw [nextCall]
      split <;> rfl
    have hc (ending : FactoryEnding) (w : Workplace ω α) :
        (conclude k ending w).2.pool = w.pool := by cases ending <;> rfl
    have hu := performAll_reaches k ih (if reentrant then w.nextCall.1.uses else []) w.nextCall.2 hq
      (hp.trans hn.symm)
    simp only [callFactory]
    cases hr : performAll k (tryAcquireWith (callFactory k reentrant depth))
        (if reentrant then w.nextCall.1.uses else []) w.nextCall.2 with
    | mk cause after =>
      rw [hr] at hu
      cases cause with
      | some cause => exact hu
      | none =>
        simp only [hc]
        exact hu

theorem tryAcquire_reaches (reentrant : Bool) (w : Workplace ω α) (hq : IsWakeful s.calls)
    (hp : s.pool = w.pool) :
    s.Reaches (s.answered (w.tryAcquire k reentrant).2.pool (w.tryAcquire k reentrant).1.member?) :=
  tryAcquireWith_reaches (callFactory_isTraffic k reentrant _) w hq hp

/-- The state after a call that may wait: it has an answer, perhaps at its deadline, or sleeps. -/
def Waited.After (s : Traffic α) (pool : Pool α) : Waited α → Traffic α → Prop
  | .answered (.ok m), t => t = s.answered pool (some m)
  | .answered _, t => ∃ now, t = { s.answered pool none with now }
  | .blocked, t => t = { s.answered pool none with calls := .parked .endless ::ₘ s.calls }

theorem tick_reaches (s : Traffic α) (n : Nat) : s.Reaches { s with now := s.now + n } := by
  induction n with
  | zero => exact .refl s
  | succ n ih => exact ih.trans (.step .tick)

def patience (now : Nat) : Option Duration → Patience
  | none => .endless
  | some timeout => .within timeout (now + timeout.totalNanos)

/-- A caller who finds the pool used up sleeps, up to the deadline if there is one. -/
theorem acquireWithin_full (timeout : Option Duration) (w : Workplace ω α) (reentrant : Bool)
    (hp : s.pool = w.pool) (hfit : timeout.any (!·.fitsClock s.now) = false)
    (hfull : w.pool.inspect = .full) :
    ∃ t, Reaches { s with calls := .looking (patience s.now timeout) .arrival ::ₘ s.calls } t ∧
      Waited.After s (w.acquireWithin k reentrant s.now timeout).2.pool
        (w.acquireWithin k reentrant s.now timeout).1 t := by
  have htry : w.tryAcquire k reentrant = (.ok none, w) := tryAcquireWith_full w hfull
  obtain ⟨⟨pool, episodes⟩, calls, handles, now⟩ := s
  obtain rfl : pool = w.pool := hp
  cases timeout with
  | none =>
    simp only [acquireWithin, hfit, htry]
    exact ⟨_, .step (.goesOn (.park hfull rfl nofun)), rfl⟩
  | some d =>
    simp only [acquireWithin, hfit, htry]
    have hpark : Step ⟨⟨w.pool, episodes⟩,
        .looking (.within d (now + d.totalNanos)) .arrival ::ₘ calls, handles, now⟩ _
        ⟨⟨w.pool, episodes⟩, .parked (.within d (now + d.totalNanos)) ::ₘ calls, handles, now⟩ :=
      .goesOn (.park hfull rfl nofun)
    refine ⟨_, (Reaches.step hpark).trans ((tick_reaches _ d.totalNanos).trans ?_),
      now + d.totalNanos, rfl⟩
    exact (Reaches.step (.goesOn (.lapse (Nat.le_refl _)))).trans (.step (.ends (.expire hfull)))

theorem acquireWithin_reaches (reentrant : Bool) (timeout : Option Duration) (w : Workplace ω α)
    (hq : IsWakeful s.calls) (hp : s.pool = w.pool) :
    ∃ t, s.Reaches t ∧
      Waited.After s (w.acquireWithin k reentrant s.now timeout).2.pool
        (w.acquireWithin k reentrant s.now timeout).1 t := by
  cases hfit : timeout.any (!·.fitsClock s.now) with
  | true =>
    refine ⟨s, .refl s, ?_⟩
    have hw : w.acquireWithin k reentrant s.now timeout =
        (.answered (.aborted "overflow when adding duration to instant"), w) := by
      rw [acquireWithin, if_pos hfit]
    rw [hw, ← hp]
    exact ⟨s.now, rfl⟩
  | false =>
    have harrive : (patience s.now timeout).StartsAt s.now := by
      cases timeout with
      | none => trivial
      | some d => exact ⟨Duration.any_overdue_eq_false.mp hfit d rfl, rfl⟩
    have hs := Reaches.step (.arrive harrive)
    by_cases hfull : w.pool.inspect = .full
    · obtain ⟨t, ht, ha⟩ := acquireWithin_full k timeout w reentrant hp hfit hfull
      exact ⟨t, hs.trans ht, ha⟩
    · have hg := tryAcquireWith_granted (callFactory_isTraffic k reentrant w.pool.freeSlots) w hq hp
        hfull (patience s.now timeout)
      refine ⟨_, hs.trans hg, ?_⟩
      have hnone : (w.tryAcquire k reentrant).1 ≠ .ok none := fun h =>
        hfull (tryAcquireWith_none h)
      simp only [acquireWithin, hfit]
      cases hr : w.tryAcquire k reentrant with
      | mk answer after =>
        rw [hr] at hnone
        have hr' : tryAcquireWith (callFactory k reentrant w.pool.freeSlots) w =
            (answer, after) := hr
        rw [hr']
        cases answer with
        | ok found =>
          cases found with
          | none => exact absurd rfl hnone
          | some m => rfl
        | refused error => exact ⟨s.now, rfl⟩
        | aborted cause => exact ⟨s.now, rfl⟩

end Workplace

end ConnectionPool

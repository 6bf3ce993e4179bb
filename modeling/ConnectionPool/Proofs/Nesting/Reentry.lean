import ConnectionPool.Proofs.Agreement
import ConnectionPool.Proofs.Nesting.Climb
import Mathlib.Data.List.GetD

/-!
# Re-entrant factories

Factories that ask their own pool come to an end within the slots that were free at the outset, and
fill the pool if they never fail.
-/

namespace ConnectionPool

variable {ω α : Type}

theorem Pool.mustCreate_of_room {p : Pool α} (ho : p.closed = false)
    (hroom : p.status.isAtCapacity = false) (hidle : p.idle = []) : p.MustCreate := by
  refine ⟨ho, hidle, ?_⟩
  by_contra hfull
  have hcapacity := inspect_full_iff_atCapacity.mp
    (inspect_eq_full.mpr ⟨ho, hidle, Nat.not_lt.mp hfull⟩)
  exact Bool.false_ne_true (hroom.symm.trans hcapacity.2)

namespace Tower

variable {factory : Nat → Conduct α → Prop} {p : Pool α} {t : Tower α}

theorem reached_idle (ho : p.closed = false) (hidle : p.idle ≠ [])
    (hr : Reaches factory (outset p) t) :
    t = outset p ∨ ∃ q answer made, t = ⟨q, .answered answer, [], made⟩ := by
  induction hr with
  | refl => exact .inl rfl
  | tail _ hs ih =>
    obtain rfl | ⟨q, answer, made, rfl⟩ := ih
    · cases hs with
      | refuse hi => exact absurd (ho.symm.trans (Pool.inspect_eq_closed.mp hi)) nofun
      | decline hi => exact absurd (Pool.inspect_eq_full.mp hi).2.1 hidle
      | reuse => exact .inr ⟨_, _, _, rfl⟩
      | create hi => exact absurd (Pool.inspect_eq_create.mp hi).2.1 hidle
    · cases hs

theorem Ends.reached (h : Ends factory t) {u : Tower α} (hr : Reaches factory t u) :
    Ends factory u := by
  induction hr with
  | refl => exact h
  | tail _ hs ih => exact ih.inv hs

/-- What nested calls on a pool can lead to for a caller who asks it now. -/
structure Bounded (factory : Nat → Conduct α → Prop) (p : Pool α) : Prop where
  ends : ¬ ∃ run : Nat → Tower α, run 0 = outset p ∧ ∀ n, Step factory (run n) (run (n + 1))
  /-- The caller will have an answer, however far its factory calls have come. -/
  answers : (∀ id, ∃ c, factory id c) → ∀ t, Reaches factory (outset p) t →
    ∃ u answer, Reaches factory t u ∧ u.stage = .answered answer
  depth_le : ∀ t, Reaches factory (outset p) t → t.depth ≤ p.freeSlots
  /-- A call nested as deep as that which asks once more is told that there is nothing or that the
  pool is closed. -/
  declines : ∀ q call waiting made u,
    Reaches factory (outset p) ⟨q, .asking, call :: waiting, made⟩ →
    depth ⟨q, .asking, call :: waiting, made⟩ = p.freeSlots →
    Step factory ⟨q, .asking, call :: waiting, made⟩ u →
    u = hear (call :: waiting) made q (.ok none) ∨
      u = hear (call :: waiting) made q.countRefusal (.refused .closed)
  /-- Without failures the pool is full in the end, and all connections made are idle but the
  caller's. -/
  fills : p.MustCreate → ∀ t answer, Climbs factory (outset p) t → t.stage = .answered answer →
    ∃ m, answer = .ok (some m) ∧ t.pool.closed = false ∧
      t.pool.created = p.settings.maxConnections ∧
      ((m :: t.pool.idle).map Member.entry).Perm t.made ∧ t.made.length = p.freeSlots

theorem bounded (factory : Nat → Conduct α → Prop) (ho : p.closed = false)
    (hroom : p.status.isAtCapacity = false) : Bounded factory p where
  ends := (ends_outset factory p).no_run
  answers hf t hr := ((ends_outset factory p).reached hr).exists_answered hf
  depth_le := by
    intro t hr
    by_cases hidle : p.idle = []
    · exact (Counted.reached (Pool.mustCreate_of_room ho hroom hidle) hr).depth_le
    · obtain rfl | ⟨q, answer, made, rfl⟩ := reached_idle ho hidle hr
      · exact Nat.zero_le _
      · exact Nat.zero_le _
  declines := by
    intro q call waiting made u hr hdepth hs
    by_cases hidle : p.idle = []
    · have hp := Pool.mustCreate_of_room ho hroom hidle
      rw [depth_asking] at hdepth
      exact (Counted.reached hp hr).turned_away hp hdepth hs
    · obtain heq | ⟨q', answer, made', heq⟩ := reached_idle ho hidle hr
      · cases heq
      · cases heq
  fills := by
    intro hp t answer hr hanswer
    exact (Filling.climbed hp hr).filled hanswer

end Tower

namespace Workplace

open Tower

variable {k : Connector ω α} {w : Workplace ω α}

/-- As many calls as slots are free are told to ask the pool, to leave it open and to connect,
which works. -/
structure Eager (k : Connector ω α) (w : Workplace ω α) : Prop where
  long : w.pool.freeSlots ≤ w.script.length
  calls : ∀ call ∈ w.script, .reenter ∈ call.uses ∧ .close ∉ call.uses ∧ call.ending = .connect
  connects : ∀ world, ∃ conn, (k.connect world).1 = .ok conn

theorem eager_ofUses {conn : α} (uses : List FactoryUse) (asked : Bool) (hclose : .close ∉ uses)
    (hasks : asked = true ∨ .reenter ∈ uses) : (Conduct.ofUses (.ok conn) uses).Eager asked := by
  induction uses generalizing asked with
  | nil =>
    cases hasks with
    | inl hasked => exact ⟨hasked, conn, rfl⟩
    | inr hm => cases hm
  | cons use uses ih =>
    have hrest : .close ∉ uses := fun hm => hclose (List.mem_cons_of_mem _ hm)
    cases use with
    | close => exact absurd List.mem_cons_self hclose
    | probe =>
      intro status closed
      refine ih asked hrest (hasks.imp_right fun hm => ?_)
      exact (List.mem_cons.mp hm).resolve_left nofun
    | reenter =>
      intro found
      cases found with
      | none => exact ih true hrest (.inl rfl)
      | some m => exact ih true hrest (.inl rfl)

theorem Eager.conducts (h : w.Eager k) (hw : w.pool.MustCreate) (id : Nat) (c : Conduct α)
    (hid : id < w.pool.nextId + w.pool.freeSlots) (hc : w.Conducts k true id c) :
    c.Eager false := by
  obtain ⟨v, rfl⟩ := hc
  have hroom := hw.room
  have hlong := h.long
  have hlt : id - w.pool.nextId < w.script.length := by
    rw [Pool.freeSlots] at hid hlong
    omega
  have hm : w.callOf id ∈ w.script := by
    rw [callOf, List.getD_eq_getElem _ _ hlt]
    exact List.getElem_mem hlt
  obtain ⟨hasks, hclose, hending⟩ := h.calls _ hm
  obtain ⟨conn, hconn⟩ := h.connects v.world
  rw [hending]
  simp only [conclude, hconn]
  exact eager_ofUses _ _ hclose (.inr hasks)

/-- A caller on an open pool that is not at capacity gets an answer, whatever its factory does with
the pool before it ends, and whether the caller would wait or not. Factory calls do not nest deeper
than the slots that were free, and nothing is made beyond that. If none fails and all of them ask,
the pool is full in the end. What a scripted factory leads to is told by one of its towers. -/
theorem reentry_bounded (k : Connector ω α) (reentrant : Bool) (w : Workplace ω α)
    (ho : w.pool.closed = false) (hroom : w.pool.status.isAtCapacity = false) :
    (∀ factory : Nat → Conduct α → Prop, Bounded factory w.pool) ∧
      (∃ answer after made, w.Answers k reentrant answer after ∧
        Reaches (w.Conducts k reentrant) (outset w.pool)
          ⟨after.pool, .answered answer.unwaited, [], made⟩ ∧
        ∀ now, (∀ limit ∈ w.pool.settings.connectionTimeout, limit.fitsClock now) →
          w.acquire k reentrant now = (.answered answer, after)) ∧
      (∀ now, ∀ limit ∈ w.pool.settings.connectionTimeout, limit.fitsClock now = false →
        w.acquire k reentrant now =
          (.answered (.aborted "overflow when adding duration to instant"), w)) ∧
      (w.pool.MustCreate → w.Eager k → ∃ m after made, w.Answers k true (.ok m) after ∧
        Climbs (w.Conducts k true) (outset w.pool)
          ⟨after.pool, .answered (.ok (some m)), [], made⟩ ∧
        after.pool.closed = false ∧ after.pool.created = w.pool.settings.maxConnections ∧
        ((m :: after.pool.idle).map Member.entry).Perm made ∧
        made.length = w.pool.freeSlots) := by
  have hfull : w.pool.inspect ≠ .full := fun hi =>
    Bool.false_ne_true (hroom.symm.trans (Pool.inspect_full_iff_atCapacity.mp hi).2)
  refine ⟨fun factory => bounded factory ho hroom, ?_, ?_, ?_⟩
  · obtain ⟨answer, after, hanswers⟩ := answers_of_not_full k reentrant hfull
    obtain ⟨made, hclimbs⟩ := tryAcquire_climbs k reentrant w
    rw [hanswers.tryAcquire_eq] at hclimbs
    exact ⟨answer, after, made, hanswers, hclimbs, fun now => hanswers.acquire_eq⟩
  · intro now limit hlimit hlate
    rw [acquire, Option.mem_def.mp hlimit]
    exact acquireWithin_overdue hlate w
  · intro hw heager
    obtain ⟨answer, after, hanswers⟩ := answers_of_not_full k true hfull
    obtain ⟨made, hreaches⟩ := tryAcquire_climbs k true w
    rw [hanswers.tryAcquire_eq] at hreaches
    have hclimbs := climbs_of_eager hw (heager.conducts hw) hreaches
    obtain ⟨m, hm, hopen, hcreated, hentries, hmade⟩ := (Filling.climbed hw hclimbs).filled rfl
    obtain rfl : answer = .ok m := by
      cases answer with
      | ok member => exact congrArg Attempt.ok (Option.some.inj (Attempt.ok.inj hm))
      | refused error => cases hm
      | aborted cause => cases hm
    exact ⟨m, after, made, hanswers, hclimbs, hopen, hcreated, hentries, hmade⟩

/-- A pool of three with one connection out, whose factory calls ask it once each. -/
private def asking : Workplace Nat Nat where
  pool := { settings := { maxConnections := 3 }, created := 1, nextId := 2 }
  script := [⟨[.reenter], .connect⟩, ⟨[.reenter], .connect⟩]
  log := []
  world := 1

/-- Both slots are used, and one of the two connections stays idle. -/
theorem reentry_bounded_asking :
    asking.pool.closed = false ∧ asking.pool.status.isAtCapacity = false ∧
      ∃ m after, asking.Answers countingConnector true (.ok m) after ∧
        after.pool.created = 3 ∧ after.pool.idle.length = 1 := by
  have hw : asking.pool.MustCreate := ⟨rfl, rfl, by decide⟩
  have heager : asking.Eager countingConnector :=
    ⟨Nat.le_refl 2, by decide, fun world => ⟨world, rfl⟩⟩
  obtain ⟨-, -, -, hfills⟩ := reentry_bounded countingConnector true asking rfl rfl
  obtain ⟨m, after, made, hanswers, -, -, hcreated, hentries, hmade⟩ := hfills hw heager
  refine ⟨rfl, rfl, m, after, hanswers, hcreated, ?_⟩
  have hlength := hentries.length_eq
  rw [hmade, List.length_map, List.length_cons] at hlength
  exact Nat.succ.inj hlength

end Workplace

end ConnectionPool

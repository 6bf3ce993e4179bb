import ConnectionPool.Proofs.Nesting.Calls
import ConnectionPool.Proofs.Nesting.Filling

/-!
# The towers of a scripted factory

A factory that follows a script conducts itself as its entries say. Whatever becomes of a caller on
its pool, a tower has risen and come down on the way to it.
-/

namespace ConnectionPool

variable {ω α : Type}

namespace Conduct

/-- Drops a lease at once. A nested call that aborts takes its caller along. -/
def afterAnswer (rest : Conduct α) : Acquired α → Conduct α
  | .aborted cause => .finish (.aborted cause)
  | .ok (some _) => .letGo 0 rest
  | _ => rest

/-- The conduct of a call that uses its pool as told. -/
def ofUses (outcome : Attempt String α) : List FactoryUse → Conduct α
  | [] => .finish outcome
  | .probe :: uses => .probe fun _ _ => ofUses outcome uses
  | .close :: uses => .close (ofUses outcome uses)
  | .reenter :: uses => .reenter (afterAnswer (ofUses outcome uses))

end Conduct

namespace Workplace

/-- The entry of the script for the factory call with this number. -/
def callOf (w : Workplace ω α) (id : Nat) : FactoryCall := w.script.getD (id - w.pool.nextId) {}

/-- How the factory may conduct itself in the call with this number: as its entry says, in a world
of which nothing is known. -/
def Conducts (k : Connector ω α) (reentrant : Bool) (w : Workplace ω α) (id : Nat)
    (c : Conduct α) : Prop :=
  ∃ v : Workplace ω α, c = .ofUses (conclude k (w.callOf id).ending v).1
    (if reentrant then (w.callOf id).uses else [])

/-- Each number that was taken since stands for an entry of the script that was. -/
structure Follows (w v : Workplace ω α) : Prop where
  nextId_le : w.pool.nextId ≤ v.pool.nextId
  script_eq : v.script = w.script.drop (v.pool.nextId - w.pool.nextId)

variable {k : Connector ω α} {reentrant : Bool} {w v x : Workplace ω α} {f : Factory ω α} {n : Nat}
  {uses : List FactoryUse} {used : Option String × Workplace ω α}

namespace Follows

theorem refl (w : Workplace ω α) : w.Follows w := by
  refine ⟨Nat.le_refl _, ?_⟩
  rw [Nat.sub_self]
  rfl

theorem takes (h : w.Follows v) (hid : x.pool.nextId = v.pool.nextId + n)
    (hscript : x.script = v.script.drop n) : w.Follows x := by
  have hle := h.nextId_le
  refine ⟨by omega, ?_⟩
  rw [hscript, h.script_eq, List.drop_drop]
  congr 1
  omega

theorem enter (h : w.Follows v) : w.Follows v.enter.2 := by
  rw [enter_eq]
  exact h.takes (n := 1) rfl List.drop_one.symm

theorem plain (h : w.Follows v) {use : FactoryUse} (hv : use = .reenter → ¬ v.pool.MustCreate) :
    w.Follows (perform k (tryAcquireWith f) use v).2 :=
  h.takes (perform_plain hv).2.nextId_eq (script_perform_plain hv)

theorem rejoin (h : w.Follows v) (hv : v.pool.MustCreate) (hu : Uses k uses v.enter.2 n used) :
    w.Follows (v.rejoin k used).2 := by
  refine h.takes (course_rejoin hv hu.course).nextId_eq ?_
  rw [script_rejoin hv, hu.script_eq, enter_eq, ← List.drop_one, List.drop_drop, Nat.add_comm]

theorem callOf_eq (h : w.Follows v) : w.callOf v.pool.nextId = v.enter.1 := by
  rw [enter_eq, h.script_eq, callOf, List.getD_eq_getElem?_getD, List.headD_eq_head?_getD,
    List.head?_drop]

end Follows

open Tower

variable {waiting : List (Waiting α)} {made : List (Nat × α)} {id : Nat} {asked : Bool}
  {factory : Nat → Conduct α → Prop}

/-- How the uses of a call have made it end. -/
def ended (used : Option String × Workplace ω α) (outcome : Attempt String α) : Attempt String α :=
  used.1.elim outcome .aborted

theorem outcome_fst (ending : FactoryEnding) (used : Option String × Workplace ω α) :
    (outcome k ending used).1 = ended used (conclude k ending used.2).1 := by
  obtain ⟨cause, left⟩ := used
  cases cause <;> rfl

theorem asks_plain (hv : ¬ v.pool.MustCreate) :
    Reaches factory ⟨v.pool, .asking, waiting, made⟩
      (hear waiting made (tryAcquireWith f v).2.pool (tryAcquireWith f v).1) := by
  rw [tryAcquireWith]
  cases hi : v.pool.inspect with
  | closed => exact .single (.refuse hi)
  | full => exact .single (.decline hi)
  | granted grant after =>
    cases grant with
    | reuse m => exact .single (.reuse hi)
    | create =>
      obtain ⟨hopen, hidle, hlt, -⟩ := Pool.inspect_eq_create.mp hi
      exact absurd ⟨hopen, hidle, hlt⟩ hv

theorem asks_nested (hv : v.pool.MustCreate)
    (hcall : ∃ c, factory v.pool.nextId c ∧ ∃ asked made',
      Reaches factory
        ⟨v.pool.takeSlot.takeId.2, .working ⟨v.pool.nextId, [], false⟩ c, waiting, made⟩
        ⟨used.2.pool, .working ⟨v.pool.nextId, [], asked⟩
          (.finish (outcome k v.enter.1.ending used).1), waiting, made'⟩) :
    ∃ made', Reaches factory ⟨v.pool, .asking, waiting, made⟩
      (hear waiting made' (tryAcquireWith (fun _ => outcome k v.enter.1.ending used) v).2.pool
        (tryAcquireWith (fun _ => outcome k v.enter.1.ending used) v).1) := by
  obtain ⟨c, hc, asked, made', hworks⟩ := hcall
  have hbegun := hworks.head (Step.create (Pool.mustCreate_iff.mp hv) hc)
  have hpool := pool_outcome k v.enter.1.ending used
  generalize outcome k v.enter.1.ending used = came at hbegun hpool ⊢
  obtain ⟨attempt, left⟩ := came
  rw [← hpool] at hbegun
  cases attempt with
  | ok conn =>
    rw [tryAcquireWith_made (f := fun _ => (.ok conn, left)) hv rfl]
    exact ⟨_, hbegun.tail .make⟩
  | refused cause =>
    rw [tryAcquireWith_failed (f := fun _ => (.refused cause, left)) hv rfl]
    exact ⟨_, hbegun.tail .fail⟩
  | aborted cause =>
    rw [tryAcquireWith_aborted (f := fun _ => (.aborted cause, left)) hv rfl]
    exact ⟨_, hbegun.tail .abort⟩

theorem reenters {attempt : Workplace ω α → Acquired α × Workplace ω α} (outcome : Attempt String α)
    (hasks : ∀ waiting, ∃ made', Reaches factory ⟨v.pool, .asking, waiting, made⟩
      (hear waiting made' (attempt v).2.pool (attempt v).1)) :
    ∃ made', Reaches factory
      ⟨v.pool, .working ⟨id, [], asked⟩ (.ofUses outcome (.reenter :: uses)), waiting, made⟩
      ⟨(perform k attempt .reenter v).2.pool, .working ⟨id, [], true⟩
        ((perform k attempt .reenter v).1.elim (.ofUses outcome uses)
          fun cause => .finish (.aborted cause)), waiting, made'⟩ := by
  obtain ⟨made', hasks⟩ :=
    hasks (⟨⟨id, [], asked⟩, .afterAnswer (.ofUses outcome uses)⟩ :: waiting)
  have hheard := hasks.head .reenter
  refine ⟨made', hheard.trans ?_⟩
  rw [perform_reenter]
  generalize attempt v = came
  obtain ⟨answer, left⟩ := came
  cases answer with
  | refused error => exact .refl
  | aborted cause => exact .refl
  | ok found =>
    cases found with
    | none => exact .refl
    | some m => exact .single (.letGo rfl)

theorem reenters_plain (hv : ¬ v.pool.MustCreate) (outcome : Attempt String α) :
    ∃ made', Reaches factory
      ⟨v.pool, .working ⟨id, [], asked⟩ (.ofUses outcome (.reenter :: uses)), waiting, made⟩
      ⟨(perform k (tryAcquireWith f) .reenter v).2.pool, .working ⟨id, [], true⟩
        ((perform k (tryAcquireWith f) .reenter v).1.elim (.ofUses outcome uses)
          fun cause => .finish (.aborted cause)), waiting, made'⟩ :=
  reenters outcome fun _ => ⟨made, asks_plain hv⟩

/-- A call that a scripted factory is to make may conduct itself so that it ends as told. -/
theorem conducts_call (hv : w.Follows v) (used : Option String × Workplace ω α)
    (hclimbs : ∀ outcome id asked waiting made, ∃ asked' made', Reaches (w.Conducts k reentrant)
      ⟨v.enter.2.pool, .working ⟨id, [], asked⟩
        (.ofUses outcome (if reentrant then v.enter.1.uses else [])), waiting, made⟩
      ⟨used.2.pool, .working ⟨id, [], asked'⟩ (.finish (ended used outcome)), waiting, made'⟩) :
    ∃ c, w.Conducts k reentrant v.pool.nextId c ∧ ∃ asked made', Reaches (w.Conducts k reentrant)
      ⟨v.pool.takeSlot.takeId.2, .working ⟨v.pool.nextId, [], false⟩ c, waiting, made⟩
      ⟨used.2.pool, .working ⟨v.pool.nextId, [], asked⟩
        (.finish (outcome k v.enter.1.ending used).1), waiting, made'⟩ := by
  refine ⟨_, ⟨used.2, rfl⟩, ?_⟩
  rw [hv.callOf_eq, outcome_fst, ← pool_enter]
  exact hclimbs _ _ _ _ _

theorem rejoins (hv : w.Follows v) (hw : v.pool.MustCreate)
    (hclimbs : ∀ outcome id asked waiting made, ∃ asked' made', Reaches (w.Conducts k true)
      ⟨v.enter.2.pool, .working ⟨id, [], asked⟩ (.ofUses outcome v.enter.1.uses), waiting, made⟩
      ⟨used.2.pool, .working ⟨id, [], asked'⟩ (.finish (ended used outcome)), waiting, made'⟩)
    (outcome : Attempt String α) :
    ∃ made', Reaches (w.Conducts k true)
      ⟨v.pool, .working ⟨id, [], asked⟩ (.ofUses outcome (.reenter :: uses)), waiting, made⟩
      ⟨(v.rejoin k used).2.pool, .working ⟨id, [], true⟩
        ((v.rejoin k used).1.elim (.ofUses outcome uses) fun cause => .finish (.aborted cause)),
        waiting, made'⟩ :=
  reenters outcome fun _ => asks_nested hw (conducts_call hv used hclimbs)

/-- What the uses of a call are told to lead to, its tower does. -/
theorem Uses.climbs (h : Uses k uses v n used) (hv : w.Follows v) (outcome : Attempt String α)
    (id : Nat) (asked : Bool) (waiting : List (Waiting α)) (made : List (Nat × α)) :
    ∃ asked' made', Reaches (w.Conducts k true)
      ⟨v.pool, .working ⟨id, [], asked⟩ (.ofUses outcome uses), waiting, made⟩
      ⟨used.2.pool, .working ⟨id, [], asked'⟩ (.finish (ended used outcome)), waiting, made'⟩ := by
  induction h generalizing outcome id asked waiting made with
  | done => exact ⟨asked, made, .refl⟩
  | @plain use uses v n used f hplain _ ih =>
    have hnext := ih (hv.plain hplain)
    cases use with
    | probe =>
      obtain ⟨asked', made', hrest⟩ := hnext outcome id asked waiting made
      exact ⟨asked', made', hrest.head .probe⟩
    | close =>
      obtain ⟨asked', made', hrest⟩ := hnext outcome id asked waiting made
      exact ⟨asked', made', hrest.head .close⟩
    | reenter =>
      obtain ⟨made₁, hasked⟩ := reenters_plain (hplain rfl) outcome
      rw [(perform_plain hplain).1] at hasked
      obtain ⟨asked', made', hrest⟩ := hnext outcome id true waiting made₁
      exact ⟨asked', made', hasked.trans hrest⟩
  | nested hw hinner hr _ ihInner ih =>
    obtain ⟨made₁, hasked⟩ := rejoins hv hw (ihInner hv.enter) outcome
    rw [hr] at hasked
    obtain ⟨asked', made', hrest⟩ := ih (hv.rejoin hw hinner) outcome id true waiting made₁
    exact ⟨asked', made', hasked.trans hrest⟩
  | cut hw _ hr ihInner =>
    obtain ⟨made₁, hasked⟩ := rejoins hv hw (ihInner hv.enter) outcome
    rw [hr] at hasked
    exact ⟨true, made₁, hasked⟩

/-- A caller who does not wait hears what one of the towers of the factory leads to. -/
theorem tryAcquire_climbs (k : Connector ω α) (reentrant : Bool) (w : Workplace ω α) :
    ∃ made, Reaches (w.Conducts k reentrant) (outset w.pool)
      ⟨(w.tryAcquire k reentrant).2.pool, .answered (w.tryAcquire k reentrant).1, [], made⟩ := by
  suffices hasks : ∃ made, Reaches (w.Conducts k reentrant) ⟨w.pool, .asking, [], []⟩
      (hear [] made (w.tryAcquire k reentrant).2.pool (w.tryAcquire k reentrant).1) from hasks
  by_cases hw : w.pool.MustCreate
  · obtain ⟨n, used, hworks, hcall⟩ := exists_works k reentrant hw
    have hsame : w.tryAcquire k reentrant =
        tryAcquireWith (fun _ => outcome k w.enter.1.ending used) w := tryAcquireWith_congr hw hcall
    rw [hsame]
    refine asks_nested hw (conducts_call (.refl w) used ?_)
    intro outcome id asked waiting made
    cases reentrant with
    | true => exact hworks.climbs (Follows.refl w).enter outcome id asked waiting made
    | false =>
      cases hworks
      exact ⟨asked, made, .refl⟩
  · exact ⟨[], asks_plain hw⟩

end Workplace

end ConnectionPool

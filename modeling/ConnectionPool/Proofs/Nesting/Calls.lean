import ConnectionPool.Proofs.Nesting.Failure

/-!
# Calls in their order

Factory calls take the entries of the script in turn, however deep they nest. A factory none of
whose calls aborts by itself does not abort through the uses that it makes of its pool either.
-/

namespace ConnectionPool

variable {ω α : Type}

namespace Workplace

variable {k : Connector ω α} {reentrant : Bool} {w : Workplace ω α} {f : Factory ω α} {n : Nat}
  {uses : List FactoryUse} {used : Option String × Workplace ω α}

theorem enter_eq (w : Workplace ω α) :
    w.enter = (w.script.headD {},
      { w with pool := w.pool.takeSlot.takeId.2, script := w.script.tail }) := by
  obtain ⟨pool, script, log, world⟩ := w
  cases script <;> rfl

theorem script_conclude (k : Connector ω α) (ending : FactoryEnding) (w : Workplace ω α) :
    (conclude k ending w).2.script = w.script := by
  cases ending <;> rfl

theorem script_outcome (k : Connector ω α) (ending : FactoryEnding)
    (used : Option String × Workplace ω α) : (outcome k ending used).2.script = used.2.script := by
  obtain ⟨cause, w⟩ := used
  cases cause with
  | none => exact script_conclude k ending w
  | some cause => rfl

theorem script_perform_plain {use : FactoryUse} (hw : use = .reenter → ¬ w.pool.MustCreate) :
    (perform k (tryAcquireWith f) use w).2.script = w.script := by
  cases use with
  | probe => rfl
  | close => rfl
  | reenter =>
    rw [perform_reenter]
    obtain h | h | ⟨member, after, -, h⟩ := tryAcquireWith_plain (hw rfl)
    · rw [h f]
      rfl
    · rw [h f]
      rfl
    · rw [h f]
      rfl

theorem script_rejoin (hw : w.pool.MustCreate) (used : Option String × Workplace ω α) :
    (w.rejoin k used).2.script = used.2.script := by
  rw [rejoin, perform_reenter, ← script_outcome k w.enter.1.ending used]
  generalize outcome k w.enter.1.ending used = came
  obtain ⟨attempt, left⟩ := came
  cases attempt with
  | ok conn => rw [tryAcquireWith_made (f := fun _ => (.ok conn, left)) hw rfl]; rfl
  | refused cause => rw [tryAcquireWith_failed (f := fun _ => (.refused cause, left)) hw rfl]; rfl
  | aborted cause => rw [tryAcquireWith_aborted (f := fun _ => (.aborted cause, left)) hw rfl]

/-- Uses that lead to `n` factory calls take `n` entries of the script. -/
theorem Uses.script_eq (h : Uses k uses w n used) : used.2.script = w.script.drop n := by
  induction h with
  | done => rfl
  | plain f hplain _ ih => rw [ih, script_perform_plain hplain]
  | @nested _ w m inner n _ hw _ _ _ ihInner ih =>
    rw [ih, script_rejoin hw, ihInner, enter_eq, ← List.drop_one, List.drop_drop, List.drop_drop]
    congr 1
    omega
  | @cut _ w m _ _ hw _ _ ihInner =>
    rw [script_rejoin hw, ihInner, enter_eq, ← List.drop_one, List.drop_drop, Nat.add_comm]

/-- No call of a factory aborts by itself: none is told to, and no connecting does. -/
structure Docile (k : Connector ω α) (script : List FactoryCall) : Prop where
  ending : ∀ call ∈ script, ∀ cause, call.ending ≠ .abort cause
  connect : ∀ world cause, (k.connect world).1 ≠ .aborted cause

theorem Docile.drop {script : List FactoryCall} (h : Docile k script) (n : Nat) :
    Docile k (script.drop n) :=
  ⟨fun call hm => h.ending call (List.mem_of_mem_drop hm), h.connect⟩

theorem Docile.enter (h : Docile k w.script) :
    (∀ cause, w.enter.1.ending ≠ .abort cause) ∧ Docile k w.enter.2.script := by
  rw [enter_eq]
  refine ⟨?_, List.drop_one (l := w.script) ▸ h.drop 1⟩
  intro cause
  cases hs : w.script with
  | nil => exact nofun
  | cons call rest => exact h.ending call (hs ▸ List.mem_cons_self) cause

theorem Docile.outcome {script : List FactoryCall} {ending : FactoryEnding} (h : Docile k script)
    (hending : ∀ cause, ending ≠ .abort cause) (w : Workplace ω α) (cause : String) :
    (outcome k ending (none, w)).1 ≠ .aborted cause := by
  cases ending with
  | connect => exact h.connect w.world cause
  | fail reason => exact nofun
  | abort reason => exact absurd rfl (hending reason)

theorem rejoin_none (hw : w.pool.MustCreate)
    (h : ∀ cause, (outcome k w.enter.1.ending used).1 ≠ .aborted cause) :
    (w.rejoin k used).1 = none := by
  rw [rejoin, perform_reenter]
  generalize outcome k w.enter.1.ending used = came at h ⊢
  obtain ⟨attempt, left⟩ := came
  cases attempt with
  | ok conn => rw [tryAcquireWith_made (f := fun _ => (.ok conn, left)) hw rfl]
  | refused cause => rw [tryAcquireWith_failed (f := fun _ => (.refused cause, left)) hw rfl]
  | aborted cause => exact absurd rfl (h cause)

theorem Uses.uncut (h : Uses k uses w n used) (hd : Docile k w.script) : used.1 = none := by
  induction h with
  | done => rfl
  | plain f hplain _ ih =>
    apply ih
    rwa [script_perform_plain hplain]
  | @nested _ w m inner _ _ hw hinner _ _ _ ih =>
    apply ih
    rw [script_rejoin hw, hinner.script_eq]
    exact hd.enter.2.drop m
  | @cut _ w m inner cause hw hinner hr ihInner =>
    obtain ⟨hending, henter⟩ := hd.enter
    obtain ⟨halt, left⟩ := inner
    obtain rfl : halt = none := ihInner henter
    rw [rejoin_none hw (hd.outcome hending left)] at hr
    cases hr

/-- A caller on a pool with a docile factory gets an answer. -/
theorem tryAcquire_ne_aborted (hd : Docile k w.script) (cause : String) :
    (w.tryAcquire k reentrant).1 ≠ .aborted cause := by
  rw [tryAcquire]
  by_cases hw : w.pool.MustCreate
  · obtain ⟨n, ⟨halt, left⟩, hworks, hcall⟩ := exists_works k reentrant hw
    obtain ⟨hending, henter⟩ := hd.enter
    obtain rfl : halt = none := hworks.uncut henter
    have hcame := hd.outcome hending left cause
    generalize outcome k w.enter.1.ending (none, left) = came at hcall hcame
    obtain ⟨attempt, after⟩ := came
    cases attempt with
    | ok conn =>
      rw [tryAcquireWith_made hw hcall]
      rintro ⟨⟩
    | refused reason =>
      rw [tryAcquireWith_failed hw hcall]
      rintro ⟨⟩
    | aborted reason =>
      rw [tryAcquireWith_aborted hw hcall]
      exact fun h => hcame (congrArg Attempt.aborted (Attempt.aborted.inj h))
  · obtain h | h | ⟨member, after, -, h⟩ := tryAcquireWith_plain hw
    all_goals
      rw [h]
      rintro ⟨⟩

end Workplace

end ConnectionPool

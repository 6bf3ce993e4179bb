import ConnectionPool.Proofs.Custody.Basic
import Mathlib.Algebra.BigOperators.Group.List.Basic
import Mathlib.Algebra.Ring.Pi
import Mathlib.Algebra.Ring.Prod
import Mathlib.Data.Int.Basic
import Mathlib.Tactic.Abel
import Mathlib.Tactic.LinearCombination
import Mathlib.Tactic.SplitIfs

/-!
# The charge of statements

A charge on an engine that falls when it gives out a statement and rises when that is finalized,
and a charge on statements that makes up for it. Whatever engines, caches and connections do with
their statements, the charges add up to the same.
-/

namespace ConnectionPool

/-- For each number how often it was finalized less how often it was given out, with what the
counters count beyond that. -/
abbrev Charge := (StatementId → ℤ) × ℤ × ℤ

/-- How often a number was given out, which is at most once. -/
def Engine.issued (e : Engine) (id : StatementId) : Nat :=
  if 0 < id.number ∧ id.number ≤ e.lastStatement then 1 else 0

def Engine.charge (e : Engine) : Charge :=
  (fun id => e.finalized.count id - e.issued id,
   e.counters.finalized - e.finalized.length, e.counters.prepared - e.lastStatement)

def Statement.charge (s : Statement) : Charge := (Pi.single s.id 1, 0, 0)

def Statement.chargeAll (l : List Statement) : Charge := (l.map charge).sum

def StatementCache.charge (c : StatementCache) : Charge := Statement.chargeAll c.statements

def Connection.charge (c : Connection) : Charge := c.cache.charge

def Checkout.charge (k : Checkout) : Charge := k.statement.charge

variable {e f : Engine} {sql : String} {s t : Statement}

namespace Statement

@[simp] theorem chargeAll_nil : chargeAll [] = 0 := rfl

@[simp] theorem chargeAll_cons (s : Statement) (l : List Statement) :
    chargeAll (s :: l) = s.charge + chargeAll l := rfl

@[simp] theorem chargeAll_append (l m : List Statement) :
    chargeAll (l ++ m) = chargeAll l + chargeAll m := by
  simp [chargeAll]

theorem charge_congr (h : s.id = t.id) : s.charge = t.charge := by
  rw [charge, charge, h]

theorem chargeAll_eq (l : List Statement) :
    chargeAll l = (fun id => ((l.map Statement.id).count id : ℤ), 0, 0) := by
  induction l with
  | nil => rfl
  | cons s l ih =>
    rw [chargeAll_cons, ih, charge]
    refine Prod.ext ?_ rfl
    funext id
    simp only [Prod.fst_add, Pi.add_apply, List.map_cons]
    by_cases h : s.id = id
    · rw [h, List.count_cons_self, Pi.single_eq_same]
      omega
    · rw [List.count_cons_of_ne h, Pi.single_eq_of_ne (Ne.symm h), zero_add]

@[simp] theorem charge_rewind (s : Statement) : s.rewind.charge = s.charge := rfl

end Statement

namespace Engine

theorem issued_of_lastStatement (h : f.lastStatement = e.lastStatement) :
    f.issued = e.issued := by
  funext id
  rw [issued, issued, h]

theorem issued_issue (e : Engine) (id : StatementId) :
    e.issue.issued id = e.issued id + if id.number = e.lastStatement + 1 then 1 else 0 := by
  have hlast : e.issue.lastStatement = e.lastStatement + 1 := rfl
  rw [issued, issued, hlast]
  split_ifs <;> omega

theorem charge_congr (hlast : f.lastStatement = e.lastStatement)
    (hfinal : f.finalized = e.finalized)
    (hcount : f.counters.finalized = e.counters.finalized)
    (hprepared : f.counters.prepared = e.counters.prepared) : f.charge = e.charge := by
  simp only [charge, issued_of_lastStatement hlast, hlast, hfinal, hcount, hprepared]

theorem charge_finalize (e : Engine) (s : Statement) :
    (e.finalize s).charge = e.charge + s.charge := by
  have hissued : (e.finalize s).issued = e.issued := issued_of_lastStatement rfl
  have hfinal : (e.finalize s).finalized = s.id :: e.finalized := rfl
  have hcount : (e.finalize s).counters.finalized = e.counters.finalized + 1 := rfl
  refine Prod.ext ?_ (Prod.ext ?_ ?_)
  · funext id
    simp only [charge, Statement.charge, hissued, hfinal, Prod.fst_add, Pi.add_apply]
    by_cases h : s.id = id
    · rw [h, List.count_cons_self, Pi.single_eq_same]
      omega
    · rw [List.count_cons_of_ne h, Pi.single_eq_of_ne (Ne.symm h), add_zero]
  · simp only [charge, Statement.charge, hfinal, hcount, Prod.snd_add, Prod.fst_add,
      List.length_cons]
    omega
  · simp [charge, Statement.charge, finalize]

theorem charge_finalizeAll (e : Engine) (l : List Statement) :
    (e.finalizeAll l).charge = e.charge + Statement.chargeAll l := by
  induction l generalizing e with
  | nil => simp [finalizeAll]
  | cons s l ih =>
    rw [finalizeAll_cons, ih, charge_finalize, Statement.chargeAll_cons, add_assoc]

theorem charge_issue (e : Engine) (raw : RawConnection) (sql : String) :
    (e.statementFor raw sql).charge + e.issue.charge = e.charge := by
  have hfinal : e.issue.finalized = e.finalized := rfl
  refine Prod.ext ?_ (Prod.ext ?_ ?_)
  · funext id
    simp only [charge, Statement.charge, hfinal, issued_issue, Prod.fst_add, Pi.add_apply]
    by_cases h : id.number = e.lastStatement + 1
    · have hid : id = (e.statementFor raw sql).id := congrArg StatementId.mk h
      rw [← hid, Pi.single_eq_same, if_pos h]
      omega
    · have hid : id ≠ (e.statementFor raw sql).id := fun heq => h (congrArg _ heq)
      rw [Pi.single_eq_of_ne hid, if_neg h]
      omega
  · simp [charge, Statement.charge, issue]
  · simp [charge, Statement.charge, issue]

theorem charge_step {result : Except DriverError Advance} (h : e.step s = (result, t, f)) :
    t.charge = s.charge ∧ f.charge = e.charge := by
  obtain ⟨hrewind, steps, rfl⟩ := step_eq h
  exact ⟨Statement.charge_congr (Statement.id_eq_of_rewind hrewind), charge_congr rfl rfl rfl rfl⟩

theorem charge_run {result : Except DriverError Nat} (h : e.run s = (result, t, f)) :
    t.charge = s.charge ∧ f.charge = e.charge := by
  have hkeeps := run_keeps (e := e) (s := s)
    (P := fun u g => u.charge = s.charge ∧ g.charge = e.charge)
  rw [h] at hkeeps
  refine hkeeps ?_ ⟨rfl, rfl⟩
  intro u g hu
  obtain ⟨hs, he⟩ := charge_step (e := g) (s := u) rfl
  exact ⟨hs.trans hu.1, he.trans hu.2⟩

theorem charge_close {raw after : RawConnection} {result : Except DriverError Unit}
    (h : e.close raw = (result, after, f)) : f.charge = e.charge := by
  obtain ⟨-, closed, closes, rfl⟩ := close_eq h
  exact charge_congr rfl rfl rfl rfl

theorem charge_connect {target : String} {mode : OpenMode}
    {result : Except DriverError RawConnection} (h : e.connect target mode = (result, f)) :
    f.charge = e.charge := by
  unfold connect at h
  split at h
  · cases h
    exact charge_congr rfl rfl rfl rfl
  · split at h
    · cases h
      exact charge_congr rfl rfl rfl rfl
    · cases h
      exact charge_congr rfl rfl rfl rfl

end Engine

namespace StatementCache

variable {c d : StatementCache}

theorem charge_erase (h : c.get? sql = some s) : s.charge + (c.erase sql).charge = c.charge := by
  obtain ⟨settings, entries⟩ := c
  simp only [get?, charge, statements, erase] at h ⊢
  induction entries with
  | nil => cases h
  | cons x entries ih =>
    obtain ⟨key, t⟩ := x
    by_cases hkey : sql = key
    · subst hkey
      rw [List.lookup_cons_self] at h
      obtain rfl := Option.some.inj h
      simp
    · have hother : (sql == key) = false := by simpa using hkey
      have hkeep : ¬ ((key, t).1 == sql) = true := by simpa using Ne.symm hkey
      rw [List.lookup_cons, hother] at h
      have hrest := ih h
      rw [List.eraseP_cons_of_neg (p := fun x : String × Statement => x.1 == sql) hkeep]
      simp only [List.map_cons, Statement.chargeAll_cons]
      linear_combination hrest

/-- A lookup hands out what it finds, lets go of what it discards, and keeps the rest. -/
theorem charge_acquire (c : StatementCache) (owner : ConnectionId) (sql : String) :
    Statement.chargeAll (c.acquire owner sql).found.toList +
      Statement.chargeAll (c.acquire owner sql).discarded + (c.acquire owner sql).cache.charge =
        c.charge := by
  unfold acquire
  split
  · simp
  · split
    · simp [charge, statements]
    · rename_i t ht
      have herase := charge_erase ht
      split
      · rw [← herase]
        simp [charge, statements]
      · rw [← herase]
        simp [charge, statements]

theorem charge_getLast? (l : List Statement) :
    Statement.chargeAll l.getLast?.toList + Statement.chargeAll l.dropLast =
      Statement.chargeAll l := by
  obtain rfl | ⟨before, t, rfl⟩ := l.eq_nil_or_concat'
  · simp
  · simp [add_comm]

theorem charge_push (c : StatementCache) (sql : String) (s : Statement) :
    Statement.chargeAll (c.push sql s).1 + (c.push sql s).2.charge = s.charge + c.charge := by
  unfold push
  split
  · have hlast := charge_getLast? c.statements
    have hrest : (c.entries.dropLast.map Prod.snd) = c.statements.dropLast := List.map_dropLast ..
    simp only [charge, statements, List.map_cons, Statement.chargeAll_cons, hrest] at hlast ⊢
    linear_combination hlast
  · simp [charge, statements]

theorem charge_release (c : StatementCache) (sql : String) (s : Statement) :
    Statement.chargeAll (c.release sql s).1 + (c.release sql s).2.charge =
      s.charge + c.charge := by
  unfold release
  split
  · simp
  · exact charge_push c sql s

end StatementCache

namespace Connection

variable {c d : Connection} {k : Checkout}

theorem charge_withError (c : Connection) (message : Option String) :
    (c.withError message).charge = c.charge := rfl

theorem charge_clearCache (c : Connection) (e : Engine) :
    (c.clearCache e).1.charge + (c.clearCache e).2.charge = c.charge + e.charge := by
  have hall := e.charge_finalizeAll c.cache.statements
  have hempty : (c.clearCache e).1.charge = 0 := rfl
  have hafter : (c.clearCache e).2 = e.finalizeAll c.cache.statements := rfl
  rw [hempty, hafter, hall, zero_add, add_comm]
  rfl

theorem charge_configureCache {settings : CacheSettings}
    (h : c.configureCache? settings e = some (d, f)) :
    d.charge + f.charge = c.charge + e.charge := by
  obtain ⟨rfl, rfl⟩ := configureCache?_eq h
  exact charge_clearCache c e

theorem charge_afterLookUp (c : Connection) (sql : String) (e : Engine) :
    Statement.chargeAll (c.cache.acquire c.id sql).found.toList + (c.afterLookUp sql).charge +
      (e.finalizeAll (c.cache.acquire c.id sql).discarded).charge = c.charge + e.charge := by
  have hlookup : _ = c.charge := c.cache.charge_acquire c.id sql
  have hcache : (c.afterLookUp sql).charge = (c.cache.acquire c.id sql).cache.charge := rfl
  rw [Engine.charge_finalizeAll, hcache]
  linear_combination hlookup

theorem Prepares.charge (h : Prepares c sql e k d f) :
    k.charge + d.charge + f.charge = c.charge + e.charge := by
  cases h with
  | change =>
    have hissue := Engine.charge_issue (e.finalizeAll c.cache.statements) c.raw sql
    have hclear : _ = c.charge + e.charge := c.nextGeneration.charge_clearCache e
    have hafter : (c.nextGeneration.clearCache e).2 = e.finalizeAll c.cache.statements := rfl
    rw [hafter] at hclear
    rw [charge_withError, Checkout.charge]
    linear_combination hissue + hclear
  | hit hplain hfound =>
    have hlookup := c.charge_afterLookUp sql e
    rw [hfound] at hlookup
    rw [← hlookup, Checkout.charge]
    simp
  | @fresh g hplain hfound hg =>
    have hlookup := c.charge_afterLookUp sql e
    have hissue := g.charge_issue c.raw sql
    rw [hfound, ← hg, Option.toList_none, Statement.chargeAll_nil] at hlookup
    rw [charge_withError, Checkout.charge]
    linear_combination hlookup + hissue

theorem Refuses.charge (h : Refuses c sql e d f) : d.charge + f.charge = c.charge + e.charge := by
  cases h with
  | closed => rfl
  | change => exact c.nextGeneration.charge_clearCache e
  | fresh message hplain hfound =>
    have hlookup := c.charge_afterLookUp sql e
    rw [hfound, Option.toList_none, Statement.chargeAll_nil, zero_add] at hlookup
    exact hlookup

theorem charge_prepare_ok (h : c.prepare sql e = (.ok k, d, f)) :
    k.charge + d.charge + f.charge = c.charge + e.charge := (prepare_ok h).2.charge

theorem charge_prepare_error {error : ConnectionError}
    (h : c.prepare sql e = (.error error, d, f)) :
    d.charge + f.charge = c.charge + e.charge := (prepare_error h).charge

theorem charge_recycle (c : Connection) (k : Checkout) (e : Engine) :
    (c.recycle k e).1.charge + (c.recycle k e).2.charge = k.charge + c.charge + e.charge := by
  unfold recycle
  split
  · have hrelease := c.cache.charge_release k.sql k.statement
    have hkeep : c.charge = c.cache.charge := rfl
    rw [hkeep, Checkout.charge, Engine.charge_finalizeAll, charge]
    linear_combination hrelease
  · rw [Engine.charge_finalize, Checkout.charge]
    abel

theorem charge_execute {result : Except ConnectionError Nat}
    (h : c.execute sql e = (result, d, f)) : d.charge + f.charge = c.charge + e.charge := by
  unfold execute at h
  cases hp : c.prepare sql e with
  | mk prepared after =>
    obtain ⟨c', e'⟩ := after
    cases prepared with
    | error error =>
      simp only [hp] at h
      cases h
      exact charge_prepare_error hp
    | ok k =>
      simp only [hp] at h
      obtain ⟨-, hafter⟩ := Prod.mk.inj h
      obtain ⟨rfl, rfl⟩ := Prod.mk.inj hafter
      have hrun : (e'.run k.statement).2.1.charge = k.statement.charge ∧
          (e'.run k.statement).2.2.charge = e'.charge := Engine.charge_run rfl
      rw [charge_recycle, Checkout.charge, hrun.1, hrun.2]
      exact charge_prepare_ok hp

/-- A connection that is shut down keeps nothing, whether or not it could be closed. -/
theorem charge_shutdown {result : Except ConnectionError Unit}
    (h : c.shutdown e = (result, d, f)) : d.charge = 0 ∧ f.charge = c.charge + e.charge := by
  have hclear := c.charge_clearCache e
  have hempty : (c.clearCache e).1.charge = 0 := rfl
  rw [hempty, zero_add] at hclear
  unfold shutdown at h
  simp only at h
  split at h
  · cases h
    exact ⟨hempty, hclear⟩
  · obtain ⟨-, hafter⟩ := Prod.mk.inj h
    obtain ⟨rfl, rfl⟩ := Prod.mk.inj hafter
    refine ⟨hempty, ?_⟩
    rw [← hclear]
    exact Engine.charge_close rfl

theorem charge_destroy (c : Connection) (e : Engine) :
    (c.destroy e).charge = c.charge + e.charge := (charge_shutdown rfl).2

theorem charge_closing {result : Except ConnectionError Unit} (h : c.close e = (result, f)) :
    f.charge = c.charge + e.charge := by
  unfold close at h
  cases hs : c.shutdown e with
  | mk attempt after =>
    obtain ⟨d, g⟩ := after
    simp only [hs] at h
    obtain ⟨-, rfl⟩ := Prod.mk.inj h
    obtain ⟨hd, hg⟩ := charge_shutdown hs
    rw [charge_destroy, hd, hg, zero_add]

theorem charge_ofRaw {raw : RawConnection} {settings : CacheSettings}
    (h : ofRaw? raw settings = some c) : c.charge = 0 := by
  obtain ⟨cache, hcache, rfl⟩ := Option.map_eq_some_iff.mp h
  unfold StatementCache.ofSettings? at hcache
  split at hcache
  · cases hcache
    rfl
  · cases hcache

theorem charge_connect {target : String} {settings : ConnectionSettings}
    {attempt : Attempt ConnectionError Connection} (h : connect e target settings = (attempt, f)) :
    f.charge = e.charge ∧ ∀ c, attempt = .ok c → c.charge = 0 := by
  unfold connect at h
  cases hc : e.connect target settings.openMode with
  | mk result g =>
    have hcharge := Engine.charge_connect hc
    simp only [hc] at h
    cases result with
    | error error =>
      cases h
      exact ⟨hcharge, nofun⟩
    | ok raw =>
      cases ho : ofRaw? raw settings.statementCache with
      | none =>
        simp only [ho] at h
        cases h
        exact ⟨hcharge, nofun⟩
      | some d =>
        simp only [ho] at h
        cases h
        refine ⟨hcharge, ?_⟩
        intro c hc
        obtain rfl := Attempt.ok.inj hc
        exact charge_ofRaw ho

end Connection

end ConnectionPool

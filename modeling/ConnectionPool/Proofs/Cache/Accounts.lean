import ConnectionPool.Driver.Engine
import ConnectionPool.Proofs.Cache.Basic
import Mathlib.Algebra.GroupWithZero.Nat
import Mathlib.Algebra.Order.Group.Nat

/-!
# The accounts of a cache

Every lookup of an active cache is counted, as a hit or as a miss. Every statement that a cache
accepted has left it by a hit, for the sake of a lookup by another connection, by eviction, or with
all others at once, or is still there.
-/

namespace ConnectionPool.StatementCache

variable {c : StatementCache} {owner : ConnectionId} {sql : String} {s : Statement}
  {past : List (StatementCache × Request)}

/-- Lookups that are counted. -/
def asked (c : StatementCache) : Request → Nat
  | .acquire _ _ => if c.isActive then 1 else 0
  | _ => 0

/-- Releases whose statement goes into the cache. -/
def stored (c : StatementCache) : Request → Nat
  | .release sql s => if c.Accepts sql s then 1 else 0
  | _ => 0

/-- Lookups under whose text there is a statement of another connection. -/
def foreign (c : StatementCache) : Request → Nat
  | .acquire owner sql => if (c.get? sql).any (·.owner != owner) then 1 else 0
  | _ => 0

/-- Statements that go all at once: as many as is said when a cache is cleared, and those that
new settings do away with. -/
def dropped (c : StatementCache) : Request → Nat
  | .clear =>
    match (c.serve .clear).response with
    | .count n => n
    | _ => 0
  | .reconfigure settings => (c.serve (.reconfigure settings)).discarded.length
  | _ => 0

def total (weight : StatementCache → Request → Nat) (past : List (StatementCache × Request)) :
    Nat :=
  (past.map fun m => weight m.1 m.2).sum

theorem size_erase (h : c.get? sql = some s) : (c.erase sql).size + 1 = c.size := by
  obtain ⟨before, after, hentries, hbefore⟩ := List.lookup_eq_some_iff.mp h
  have hmem : (sql, s) ∈ c.entries := by simp [hentries]
  have hlength := List.length_eraseP_of_mem (p := fun x => x.1 == sql) hmem (by simp)
  have hpos := List.length_pos_of_mem hmem
  show (c.entries.eraseP _).length + 1 = c.entries.length
  omega

theorem serve_lookups (c : StatementCache) (r : Request) :
    (c.serve r).cache.hits + (c.serve r).cache.misses = c.hits + c.misses + c.asked r := by
  cases r with
  | acquire owner sql =>
    rw [serve, asked]
    have hlookup := c.acquires owner sql
    generalize c.acquire owner sql = lookup at hlookup ⊢
    cases hlookup with
    | idle hidle => simp [hidle]
    | absent hactive => simp [hactive, Nat.add_assoc]
    | own hactive =>
      simp only [erase, hactive, if_true]
      omega
    | foreign hactive =>
      simp only [erase, hactive, if_true]
      omega
  | release sql s =>
    rw [serve]
    have hrelease := c.releases sql s
    generalize c.release sql s = after at hrelease ⊢
    cases hrelease <;> rfl
  | reconfigure settings =>
    cases c.serve_reconfigure settings with
    | inl haborted =>
      rw [haborted]
      rfl
    | inr hdone =>
      rw [hdone]
      rfl
  | clear | contains | size | keys | stats => rfl

/-- What a cache keeps after a request and what has left it by then were there before, or the
request put it in. -/
theorem WellKept.serve_releases (h : c.WellKept) (r : Request) :
    (c.serve r).cache.hits + c.foreign r + (c.serve r).cache.evictions + c.dropped r +
      (c.serve r).cache.size = c.hits + c.evictions + c.size + c.stored r := by
  cases r with
  | acquire owner sql =>
    simp only [StatementCache.serve, foreign, dropped, stored]
    have hlookup := c.acquires owner sql
    generalize c.acquire owner sql = lookup at hlookup ⊢
    cases hlookup with
    | idle hidle => simp [h.get?_eq_none hidle]
    | absent hactive hget => simp [hget, size]
    | own hactive hget howner =>
      have hsize := size_erase hget
      simp only [size, erase] at hsize ⊢
      simp [hget, howner]
      omega
    | foreign hactive hget howner =>
      have hsize := size_erase hget
      simp only [size, erase] at hsize ⊢
      simp [hget, howner]
      omega
  | release sql s =>
    simp only [StatementCache.serve, foreign, dropped, stored, accepts_iff]
    have hrelease := c.releases sql s
    generalize c.release sql s = after at hrelease ⊢
    cases hrelease with
    | refused hreason =>
      have hrefused : ¬ (c.isActive = true ∧ c.contains sql = false) := by
        rintro ⟨hactive, habsent⟩
        simp [hactive, habsent] at hreason
      simp [hrefused]
    | stored hactive habsent =>
      simp [hactive, habsent, size]
      omega
    | evicting hactive habsent hfull hlast =>
      simp [hactive, habsent, size, hlast]
      omega
  | clear =>
    have hcount : c.statements.length = c.size := List.length_map ..
    simp [StatementCache.serve, StatementCache.clear, foreign, dropped, stored, hcount, size]
  | reconfigure settings =>
    have hcount : c.statements.length = c.size := List.length_map ..
    cases c.serve_reconfigure settings with
    | inl haborted => simp [haborted, foreign, dropped, stored]
    | inr hdone =>
      simp [hdone, foreign, dropped, stored, hcount, size]
  | contains | size | keys | stats => rfl

theorem serveAll_lookups (c : StatementCache) (requests : List Request) :
    (c.serveAll requests).hits + (c.serveAll requests).misses =
      c.hits + c.misses + total asked (history c requests) := by
  induction requests generalizing c with
  | nil => simp [serveAll, history, total]
  | cons r requests ih =>
    have hstep := c.serve_lookups r
    have hrest := ih (c.serve r).cache
    simp only [serveAll, history, total, List.map_cons, List.sum_cons] at hrest ⊢
    omega

theorem WellKept.serveAll_releases (h : c.WellKept) (requests : List Request) :
    (c.serveAll requests).hits + total foreign (history c requests) +
      (c.serveAll requests).evictions + total dropped (history c requests) +
      (c.serveAll requests).size =
      c.hits + c.evictions + c.size + total stored (history c requests) := by
  induction requests generalizing c with
  | nil => simp [serveAll, history, total]
  | cons r requests ih =>
    have hstep := h.serve_releases r
    have hrest := ih (h.serve r)
    simp only [serveAll, history, total, List.map_cons, List.sum_cons] at hrest ⊢
    omega

/-- Whether one cache has counted at least as much as another. -/
structure Counts (c d : StatementCache) : Prop where
  hits : c.hits ≤ d.hits
  misses : c.misses ≤ d.misses
  evictions : c.evictions ≤ d.evictions

theorem serve_counts (c : StatementCache) (r : Request) : c.Counts (c.serve r).cache := by
  cases r with
  | acquire owner sql =>
    rw [serve]
    have hlookup := c.acquires owner sql
    generalize c.acquire owner sql = lookup at hlookup ⊢
    cases hlookup <;> constructor <;> simp [erase]
  | release sql s =>
    rw [serve]
    have hrelease := c.releases sql s
    generalize c.release sql s = after at hrelease ⊢
    cases hrelease <;> constructor <;> simp
  | reconfigure settings =>
    cases c.serve_reconfigure settings with
    | inl haborted =>
      rw [haborted]
      exact ⟨Nat.le_refl _, Nat.le_refl _, Nat.le_refl _⟩
    | inr hdone =>
      rw [hdone]
      exact ⟨Nat.le_refl _, Nat.le_refl _, Nat.le_refl _⟩
  | clear | contains | size | keys | stats =>
    exact ⟨Nat.le_refl _, Nat.le_refl _, Nat.le_refl _⟩

theorem serveAll_counts (c : StatementCache) (requests : List Request) :
    c.Counts (c.serveAll requests) := by
  have hstart : c.Counts c := ⟨Nat.le_refl _, Nat.le_refl _, Nat.le_refl _⟩
  apply serveAll_keeps (P := c.Counts) _ hstart
  intro d r h
  have hserve := d.serve_counts r
  exact ⟨h.hits.trans hserve.hits, h.misses.trans hserve.misses,
    h.evictions.trans hserve.evictions⟩

/-- What may be relied on when a cache has been through a history. -/
structure Accounted (past : List (StatementCache × Request)) (c : StatementCache) : Prop where
  lookups : c.hits + c.misses = total asked past
  releases : total stored past =
    c.hits + total foreign past + c.evictions + total dropped past + c.size
  /-- A lookup that finds a statement of another connection lets go of it and is a miss. -/
  discards : ∀ owner sql s, c.get? sql = some s → s.owner ≠ owner →
    c.serve (.acquire owner sql) =
      ⟨.found none, [s.rewind], { c.erase sql with misses := c.misses + 1 }⟩
  owned : ∀ owner sql s, (c.acquire owner sql).found = some s → s.owner = owner
  clears : c.serve .clear = ⟨.count c.size, c.statements, { c with entries := [] }⟩
  reconfigures : ∀ settings, c.serve (.reconfigure settings) = ⟨.aborted, [], c⟩ ∨
    c.serve (.reconfigure settings) = ⟨.done, c.statements, { c with settings, entries := [] }⟩
  counts : ∀ requests, c.Counts (c.serveAll requests)

/-- Whatever a cache has been asked for since it was made, its counters say what became of every
lookup and of every statement it accepted. -/
theorem accounts_balance {settings : CacheSettings} (hc : ofSettings? settings = some c)
    (requests : List Request) : Accounted (history c requests) (c.serveAll requests) := by
  obtain rfl := ofSettings?_eq hc
  have hempty : (⟨settings, [], 0, 0, 0⟩ : StatementCache).WellKept := .of_empty rfl
  have hlookups := serveAll_lookups { settings } requests
  have hreleases := hempty.serveAll_releases requests
  have hkept := serveAll_keeps (fun _ r h => h.serve r) hempty requests
  generalize hlast : serveAll _ requests = d at hlookups hreleases hkept ⊢
  simp only [size, List.length_nil] at hreleases
  constructor
  case lookups => simpa using hlookups
  case releases =>
    simp only [size]
    omega
  case discards =>
    intro owner sql s hget howner
    have hactive : d.isActive = true := by
      by_contra hidle
      simp [hkept.get?_eq_none (by simpa using hidle)] at hget
    simp [StatementCache.serve, StatementCache.acquire, erase, hactive, hget, howner]
  case owned =>
    intro owner sql s hfound
    exact owned_of_found hfound
  case clears => simp [StatementCache.serve, StatementCache.clear, statements, size]
  case reconfigures => exact d.serve_reconfigure
  case counts => exact d.serveAll_counts

/-- Of four statements accepted one was hit, one belonged to another connection, one went when the
cache was disabled, and one is still there; a lookup in between was not counted. -/
theorem accounts_balance_disabled :
    let s (number owner : Nat) : Statement :=
      Engine.statementFor { lastStatement := number } ⟨⟨owner⟩, true, false, none⟩ "SELECT ?"
    let c : StatementCache := { settings := ⟨2, true⟩ }
    let requests : List Request := [.release "a" (s 0 1), .release "b" (s 1 2),
      .acquire ⟨1⟩ "b", .acquire ⟨1⟩ "a", .release "a" (s 0 1), .reconfigure .disabled,
      .acquire ⟨1⟩ "a", .reconfigure ⟨2, true⟩, .release "a" (s 2 1)]
    Accounted (history c requests) (c.serveAll requests) ∧
      total asked (history c requests) = 2 ∧ total stored (history c requests) = 4 ∧
      total foreign (history c requests) = 1 ∧ total dropped (history c requests) = 1 := by
  intro s c requests
  have hc : ofSettings? ⟨2, true⟩ = some c := rfl
  refine ⟨accounts_balance hc requests, ?_, ?_, ?_, ?_⟩ <;> decide +kernel

end ConnectionPool.StatementCache

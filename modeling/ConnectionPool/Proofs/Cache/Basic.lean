import ConnectionPool.Connection.StatementCache
import Mathlib.Data.List.Basic

/-!
# Statement caches at work

What a lookup and a release come to, case by case; runs of requests; and what every request keeps:
no text is kept twice, nothing is kept by an inactive cache, and never more than the capacity.
-/

namespace ConnectionPool.StatementCache

variable {c d : StatementCache} {owner : ConnectionId} {sql : String} {s : Statement}

/-- What a lookup comes to. -/
inductive Acquires (c : StatementCache) (owner : ConnectionId) (sql : String) : Lookup → Prop
  | idle : c.isActive = false → Acquires c owner sql ⟨none, [], c⟩
  | absent : c.isActive = true → c.get? sql = none →
      Acquires c owner sql ⟨none, [], { c with misses := c.misses + 1 }⟩
  | own {s : Statement} : c.isActive = true → c.get? sql = some s → s.owner = owner →
      Acquires c owner sql ⟨some s.rewind, [], { c.erase sql with hits := c.hits + 1 }⟩
  | foreign {s : Statement} : c.isActive = true → c.get? sql = some s → s.owner ≠ owner →
      Acquires c owner sql ⟨none, [s.rewind], { c.erase sql with misses := c.misses + 1 }⟩

theorem acquires (c : StatementCache) (owner : ConnectionId) (sql : String) :
    Acquires c owner sql (c.acquire owner sql) := by
  unfold acquire
  cases hactive : c.isActive with
  | false => exact .idle hactive
  | true =>
    cases hget : c.get? sql with
    | none => exact .absent hactive hget
    | some s =>
      by_cases howner : s.owner = owner
      · simp only [howner, if_true]
        exact .own hactive hget howner
      · simp only [howner, if_false]
        exact .foreign hactive hget howner

theorem settings_acquire (c : StatementCache) (owner : ConnectionId) (sql : String) :
    (c.acquire owner sql).cache.settings = c.settings := by
  have hlookup := c.acquires owner sql
  generalize c.acquire owner sql = lookup at hlookup
  cases hlookup <;> rfl

theorem owned_of_found (h : (c.acquire owner sql).found = some s) : s.owner = owner := by
  have hlookup := c.acquires owner sql
  generalize c.acquire owner sql = lookup at hlookup h
  cases hlookup with
  | own hactive hget howner =>
    rw [← howner, ← Option.some.inj h]
    rfl
  | idle | absent | foreign => cases h

theorem release_refused (h : c.contains sql = true ∨ c.isActive = false) :
    c.release sql s = ([s], c) := by
  cases h with
  | inl hkept => simp [release, hkept]
  | inr hidle => simp [release, hidle]

theorem release_stored (hactive : c.isActive = true) (habsent : c.contains sql = false)
    (hroom : c.isFull = false) :
    c.release sql s = ([], { c with entries := (sql, s) :: c.entries }) := by
  simp [release, push, hactive, habsent, hroom]

theorem release_evicting {kept : List (String × Statement)} {oldest : String × Statement}
    (hactive : c.isActive = true) (habsent : c.contains sql = false) (hfull : c.isFull = true)
    (hlast : c.entries = kept ++ [oldest]) :
    c.release sql s = ([oldest.2],
      { c with entries := (sql, s) :: kept, evictions := c.evictions + 1 }) := by
  simp [release, push, statements, hactive, habsent, hfull, hlast]

/-- What a release comes to. -/
inductive Releases (c : StatementCache) (sql : String) (s : Statement) :
    List Statement × StatementCache → Prop
  | refused : c.contains sql = true ∨ c.isActive = false → Releases c sql s ([s], c)
  | stored : c.isActive = true → c.contains sql = false → c.isFull = false →
      Releases c sql s ([], { c with entries := (sql, s) :: c.entries })
  | evicting {kept : List (String × Statement)} {oldest : String × Statement} :
      c.isActive = true → c.contains sql = false → c.isFull = true →
      c.entries = kept ++ [oldest] →
      Releases c sql s ([oldest.2],
        { c with entries := (sql, s) :: kept, evictions := c.evictions + 1 })

theorem exists_oldest (hactive : c.isActive = true) (hfull : c.isFull = true) :
    ∃ kept oldest, c.entries = kept ++ [oldest] := by
  have hpos : 0 < c.settings.capacity := by
    simp only [isActive, CacheSettings.isActive, Bool.and_eq_true, decide_eq_true_eq] at hactive
    exact hactive.2
  have hsize : c.settings.capacity ≤ c.entries.length := of_decide_eq_true hfull
  cases c.entries.eq_nil_or_concat' with
  | inl hnil =>
    rw [hnil, List.length_nil] at hsize
    omega
  | inr hlast => exact hlast

theorem releases (c : StatementCache) (sql : String) (s : Statement) :
    Releases c sql s (c.release sql s) := by
  cases hactive : c.isActive with
  | false =>
    rw [release_refused (.inr hactive)]
    exact .refused (.inr hactive)
  | true =>
    cases hkept : c.contains sql with
    | true =>
      rw [release_refused (.inl hkept)]
      exact .refused (.inl hkept)
    | false =>
      cases hfull : c.isFull with
      | false =>
        rw [release_stored hactive hkept hfull]
        exact .stored hactive hkept hfull
      | true =>
        obtain ⟨kept, oldest, hlast⟩ := exists_oldest hactive hfull
        rw [release_evicting hactive hkept hfull hlast]
        exact .evicting hactive hkept hfull hlast

theorem settings_release (c : StatementCache) (sql : String) (s : Statement) :
    (c.release sql s).2.settings = c.settings := by
  have hrelease := c.releases sql s
  generalize c.release sql s = after at hrelease
  cases hrelease <;> rfl

/-- A cache with at most one entry for each text, and none at all while it is inactive. -/
structure WellKept (c : StatementCache) : Prop where
  distinct : c.keys.Nodup
  active : c.entries ≠ [] → c.isActive = true

theorem WellKept.of_empty (h : c.entries = []) : c.WellKept := by
  refine ⟨?_, fun hne => absurd h hne⟩
  rw [keys, h]
  exact List.nodup_nil

theorem WellKept.of_sublist (h : c.WellKept) (hsub : d.entries.Sublist c.entries)
    (hset : d.settings = c.settings) : d.WellKept := by
  refine ⟨(hsub.map Prod.fst).nodup h.distinct, ?_⟩
  intro hne
  have hactive := h.active fun hnil => hne (List.sublist_nil.mp (hnil ▸ hsub))
  rwa [isActive, ← hset] at hactive

theorem not_mem_keys_iff : sql ∉ c.keys ↔ c.contains sql = false := by
  simp only [keys, List.mem_map, Prod.exists, contains, get?, Option.isSome_eq_false_iff,
    Option.isNone_iff_eq_none, List.lookup_eq_none_iff, Prod.forall, not_exists]
  grind

theorem mem_keys_iff : sql ∈ c.keys ↔ c.contains sql = true := by
  rw [← not_iff_not, not_mem_keys_iff, Bool.not_eq_true]

theorem contains_of_mem {x : String × Statement} (h : x ∈ c.entries) : c.contains x.1 = true :=
  mem_keys_iff.mp (List.mem_map_of_mem h)

theorem WellKept.cons {kept : List (String × Statement)} (h : c.WellKept)
    (hactive : c.isActive = true) (habsent : c.contains sql = false)
    (hsub : kept.Sublist c.entries) (hset : d.settings = c.settings)
    (hentries : d.entries = (sql, s) :: kept) : d.WellKept := by
  have hout : sql ∉ kept.map Prod.fst := by
    intro hin
    exact not_mem_keys_iff.mpr habsent ((hsub.map Prod.fst).subset hin)
  constructor
  · rw [keys, hentries]
    exact List.nodup_cons.mpr ⟨hout, (hsub.map Prod.fst).nodup h.distinct⟩
  · intro _
    rwa [isActive, hset]

theorem WellKept.acquire (h : c.WellKept) (owner : ConnectionId) (sql : String) :
    (c.acquire owner sql).cache.WellKept := by
  have hlookup := c.acquires owner sql
  generalize c.acquire owner sql = lookup at hlookup ⊢
  cases hlookup with
  | idle => exact h
  | absent => exact h.of_sublist (List.Sublist.refl _) rfl
  | own => exact h.of_sublist List.eraseP_sublist rfl
  | foreign => exact h.of_sublist List.eraseP_sublist rfl

theorem WellKept.release (h : c.WellKept) (sql : String) (s : Statement) :
    (c.release sql s).2.WellKept := by
  have hrelease := c.releases sql s
  generalize c.release sql s = after at hrelease ⊢
  cases hrelease with
  | refused => exact h
  | stored hactive habsent => exact h.cons hactive habsent (List.Sublist.refl _) rfl rfl
  | @evicting kept oldest hactive habsent hfull hlast =>
    have hsub : kept.Sublist c.entries := by
      rw [hlast]
      exact List.sublist_append_left _ _
    exact h.cons hactive habsent hsub rfl rfl

theorem WellKept.get? (h : c.WellKept) (hmem : (sql, s) ∈ c.entries) : c.get? sql = some s := by
  obtain ⟨before, after, hsplit⟩ := List.append_of_mem hmem
  refine List.lookup_eq_some_iff.mpr ⟨before, after, hsplit, ?_⟩
  intro entry hentry
  have hdistinct := h.distinct
  rw [keys, hsplit, List.map_append, List.map_cons] at hdistinct
  have hkey : entry.1 ∈ before.map Prod.fst := List.mem_map_of_mem hentry
  have hne := (List.nodup_append.mp hdistinct).2.2 entry.1 hkey sql List.mem_cons_self
  simpa using hne.symm

/-- Every statement kept for its connection is found under its text. -/
theorem WellKept.found (h : c.WellKept) (hmem : (sql, s) ∈ c.entries) (howner : s.owner = owner) :
    (c.acquire owner sql).found = some s.rewind := by
  have hactive := h.active (List.ne_nil_of_mem hmem)
  unfold StatementCache.acquire
  simp [hactive, h.get? hmem, howner]

theorem WellKept.entries_erase (h : c.WellKept) (sql : String) :
    (c.erase sql).entries = c.entries.filter fun x => x.1 != sql := by
  have hdistinct : (c.entries.map Prod.fst).Nodup := h.distinct
  show c.entries.eraseP _ = _
  generalize c.entries = entries at hdistinct
  induction entries with
  | nil => rfl
  | cons x entries ih =>
    rw [List.map_cons, List.nodup_cons] at hdistinct
    by_cases hx : x.1 = sql
    · have hrest : ∀ y ∈ entries, (y.1 != sql) = true := by
        intro y hy
        have hne : y.1 ≠ sql := fun heq => hdistinct.1 (hx ▸ heq ▸ List.mem_map_of_mem hy)
        simpa using hne
      simp [hx, List.filter_eq_self.mpr hrest]
    · simp [hx, ih hdistinct.2]

theorem WellKept.keys_eq_nil (h : c.WellKept) (hidle : c.isActive = false) : c.keys = [] := by
  by_contra hkeys
  have hactive := h.active fun hnil => hkeys (by simp [keys, hnil])
  simp [hidle] at hactive

theorem WellKept.get?_eq_none (h : c.WellKept) (hidle : c.isActive = false) :
    c.get? sql = none := by
  have hout : sql ∉ c.keys := by simp [h.keys_eq_nil hidle]
  simpa [contains] using not_mem_keys_iff.mp hout

theorem WellKept.entries_acquire (h : c.WellKept) (owner : ConnectionId) (sql : String) :
    (c.acquire owner sql).cache.entries = c.entries.filter fun x => x.1 != sql := by
  have hlookup := c.acquires owner sql
  have habsent (hout : sql ∉ c.keys) : c.entries = c.entries.filter fun x => x.1 != sql := by
    symm
    apply List.filter_eq_self.mpr
    intro x hx
    have hne : x.1 ≠ sql := fun heq => hout (heq ▸ List.mem_map_of_mem hx)
    simpa using hne
  generalize c.acquire owner sql = lookup at hlookup ⊢
  cases hlookup with
  | idle hidle => exact habsent (by simp [h.keys_eq_nil hidle])
  | absent hactive hget => exact habsent (not_mem_keys_iff.mpr (by simp [contains, hget]))
  | own => exact h.entries_erase sql
  | foreign => exact h.entries_erase sql

theorem WellKept.keys_acquire (h : c.WellKept) (owner : ConnectionId) (sql : String) :
    (c.acquire owner sql).cache.keys = c.keys.erase sql := by
  rw [h.distinct.erase_eq_filter, keys, h.entries_acquire, keys, List.filter_map]
  rfl

/-- A cache that does not keep more than it may. -/
def Bounded (c : StatementCache) : Prop := c.size ≤ c.settings.capacity

theorem Bounded.of_sublist (h : c.Bounded) (hsub : d.entries.Sublist c.entries)
    (hset : d.settings = c.settings) : d.Bounded := by
  have hsize : d.size ≤ c.size := hsub.length_le
  rw [Bounded, hset]
  exact Nat.le_trans hsize h

theorem Bounded.acquire (h : c.Bounded) (owner : ConnectionId) (sql : String) :
    (c.acquire owner sql).cache.Bounded := by
  have hlookup := c.acquires owner sql
  generalize c.acquire owner sql = lookup at hlookup ⊢
  cases hlookup with
  | idle => exact h
  | absent => exact h
  | own => exact h.of_sublist List.eraseP_sublist rfl
  | foreign => exact h.of_sublist List.eraseP_sublist rfl

theorem Bounded.release (h : c.Bounded) (sql : String) (s : Statement) :
    (c.release sql s).2.Bounded := by
  have hrelease := c.releases sql s
  generalize c.release sql s = after at hrelease ⊢
  cases hrelease with
  | refused => exact h
  | stored hactive habsent hroom =>
    have hless : c.size < c.settings.capacity := by simpa [isFull] using hroom
    exact hless
  | evicting hactive habsent hfull hlast =>
    have hsize : c.entries.length ≤ c.settings.capacity := h
    rw [hlast, List.length_append] at hsize
    exact hsize

/-- What is asked of a cache. -/
inductive Request where
  | acquire (owner : ConnectionId) (sql : String)
  | release (sql : String) (s : Statement)
  | clear
  | reconfigure (settings : CacheSettings)
  | contains (sql : String)
  | size
  | keys
  | stats

inductive Response where
  | found (s : Option Statement)
  | done
  | count (n : Nat)
  | flag (b : Bool)
  | texts (keys : List String)
  | stats (s : Stats)
  /-- There cannot be room for the settings. -/
  | aborted

/-- What a request comes to; the statements discarded are finalized. -/
structure Outcome where
  response : Response
  discarded : List Statement
  cache : StatementCache

def serve (c : StatementCache) : Request → Outcome
  | .acquire owner sql =>
    let lookup := c.acquire owner sql
    ⟨.found lookup.found, lookup.discarded, lookup.cache⟩
  | .release sql s =>
    let (discarded, d) := c.release sql s
    ⟨.done, discarded, d⟩
  | .clear =>
    let (discarded, d) := c.clear
    ⟨.count discarded.length, discarded, d⟩
  | .reconfigure settings =>
    match c.reconfigure? settings with
    | some (discarded, d) => ⟨.done, discarded, d⟩
    | none => ⟨.aborted, [], c⟩
  | .contains sql => ⟨.flag (c.contains sql), [], c⟩
  | .size => ⟨.count c.size, [], c⟩
  | .keys => ⟨.texts c.keys, [], c⟩
  | .stats => ⟨.stats c.stats, [], c⟩

theorem serve_reconfigure (c : StatementCache) (settings : CacheSettings) :
    c.serve (.reconfigure settings) = ⟨.aborted, [], c⟩ ∨
      c.serve (.reconfigure settings) =
        ⟨.done, c.statements, { c with settings, entries := [] }⟩ := by
  rw [serve, reconfigure?]
  cases settings.fits with
  | false => exact .inl rfl
  | true => exact .inr rfl

def serveAll : StatementCache → List Request → StatementCache
  | c, [] => c
  | c, r :: requests => serveAll (c.serve r).cache requests

/-- The requests of a run, each with the cache that it finds. -/
def history : StatementCache → List Request → List (StatementCache × Request)
  | _, [] => []
  | c, r :: requests => (c, r) :: history (c.serve r).cache requests

theorem serveAll_keeps {P : StatementCache → Prop} (hserve : ∀ c r, P c → P (c.serve r).cache)
    (h : P c) (requests : List Request) : P (c.serveAll requests) := by
  induction requests generalizing c with
  | nil => exact h
  | cons r requests ih => exact ih (hserve c r h)

theorem WellKept.serve (h : c.WellKept) (r : Request) : (c.serve r).cache.WellKept := by
  cases r with
  | acquire owner sql => exact h.acquire owner sql
  | release sql s => exact h.release sql s
  | clear => exact .of_empty rfl
  | reconfigure settings =>
    cases c.serve_reconfigure settings with
    | inl haborted => rwa [haborted]
    | inr hdone =>
      rw [hdone]
      exact .of_empty rfl
  | contains | size | keys | stats => exact h

theorem Bounded.serve (h : c.Bounded) (r : Request) : (c.serve r).cache.Bounded := by
  cases r with
  | acquire owner sql => exact h.acquire owner sql
  | release sql s => exact h.release sql s
  | clear => exact Nat.zero_le _
  | reconfigure settings =>
    cases c.serve_reconfigure settings with
    | inl haborted => rwa [haborted]
    | inr hdone =>
      rw [hdone]
      exact Nat.zero_le _
  | contains | size | keys | stats => exact h

theorem ofSettings?_eq {settings : CacheSettings} (h : ofSettings? settings = some c) :
    c = { settings } := by
  unfold ofSettings? at h
  split at h
  · exact (Option.some.inj h).symm
  · cases h

/-- Whether a release puts its statement into the cache, under a text that was not there. -/
def Accepts (c : StatementCache) (sql : String) (s : Statement) : Prop :=
  c.contains sql = false ∧ (sql, s) ∈ (c.release sql s).2.entries

instance : Decidable (c.Accepts sql s) := inferInstanceAs (Decidable (_ ∧ _))

theorem accepts_iff : c.Accepts sql s ↔ c.isActive = true ∧ c.contains sql = false := by
  rw [Accepts]
  have hrelease := c.releases sql s
  generalize c.release sql s = after at hrelease
  cases hrelease with
  | refused hreason =>
    have hout : c.contains sql = false → (sql, s) ∉ c.entries := by
      intro habsent hin
      simp [contains_of_mem hin] at habsent
    grind
  | stored hactive habsent => simp [hactive, habsent]
  | evicting hactive habsent => simp [hactive, habsent]

theorem WellKept.accepts_found (h : c.WellKept) (hfound : (c.acquire owner sql).found.isSome = true)
    (s : Statement) : (c.acquire owner sql).cache.Accepts sql s := by
  have hkeys := h.keys_acquire owner sql
  have hout : sql ∉ (c.acquire owner sql).cache.keys := by
    rw [hkeys]
    exact h.distinct.not_mem_erase
  refine accepts_iff.mpr ⟨?_, not_mem_keys_iff.mp hout⟩
  have hlookup := c.acquires owner sql
  generalize c.acquire owner sql = lookup at hlookup hfound
  cases hlookup with
  | own hactive => exact hactive
  | idle | absent | foreign => cases hfound

/-- A request takes entries out, or it is an accepted release and puts one in front. -/
theorem serve_entries (c : StatementCache) (r : Request) :
    (c.serve r).cache.entries.Sublist c.entries ∨
      ∃ x kept, r = .release x.1 x.2 ∧ c.Accepts x.1 x.2 ∧ kept.Sublist c.entries ∧
        (c.serve r).cache.entries = x :: kept := by
  cases r with
  | acquire owner sql =>
    left
    rw [serve]
    have hlookup := c.acquires owner sql
    generalize c.acquire owner sql = lookup at hlookup ⊢
    cases hlookup with
    | idle => exact List.Sublist.refl _
    | absent => exact List.Sublist.refl _
    | own => exact List.eraseP_sublist
    | foreign => exact List.eraseP_sublist
  | release sql s =>
    rw [serve]
    have hrelease := c.releases sql s
    generalize c.release sql s = after at hrelease ⊢
    cases hrelease with
    | refused => exact .inl (List.Sublist.refl _)
    | stored hactive habsent =>
      exact .inr ⟨(sql, s), _, rfl, accepts_iff.mpr ⟨hactive, habsent⟩, List.Sublist.refl _, rfl⟩
    | evicting hactive habsent hfull hlast =>
      refine .inr ⟨(sql, s), _, rfl, accepts_iff.mpr ⟨hactive, habsent⟩, ?_, rfl⟩
      rw [hlast]
      exact List.sublist_append_left _ _
  | clear => exact .inl (List.nil_sublist _)
  | reconfigure settings =>
    left
    cases c.serve_reconfigure settings with
    | inl haborted => rw [haborted]
    | inr hdone =>
      rw [hdone]
      exact List.nil_sublist _
  | contains | size | keys | stats => exact .inl (List.Sublist.refl _)

end ConnectionPool.StatementCache

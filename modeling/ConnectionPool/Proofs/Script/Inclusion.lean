import ConnectionPool.Proofs.Estate.Service
import ConnectionPool.Proofs.Script.Execution
import ConnectionPool.Proofs.Script.Outdated

/-!
# Caches of different room

Texts are executed one after another on two connections that differ in the room of their caches.
What the smaller cache keeps is the front of what the larger one keeps, after every call, so the
larger one is never hit less and its engine never prepares more. Told of the texts kept alone, both
caches are one list, the latest text first, of which each sees as much as it has room for.
-/

namespace ConnectionPool

variable {sql : String}

/-- To see less of a list after a text went to its front, less of it need be seen before. -/
theorem take_erase_take (texts : List String) (n : Nat) :
    ((texts.take (n + 1)).erase sql).take n = (texts.erase sql).take n := by
  induction texts generalizing n with
  | nil => simp
  | cons text texts ih =>
    by_cases htext : text = sql
    · simp [htext]
    · rw [List.take_succ_cons, List.erase_cons_tail (by simpa using htext),
        List.erase_cons_tail (by simpa using htext)]
      cases n with
      | zero => simp
      | succ n => rw [List.take_succ_cons, List.take_succ_cons, ih]

namespace StatementCache

variable {c : StatementCache} {owner : ConnectionId} {s : Statement}

theorem hits_release (c : StatementCache) (sql : String) (s : Statement) :
    (c.release sql s).2.hits = c.hits := by
  have hrelease := c.releases sql s
  generalize c.release sql s = after at hrelease
  cases hrelease <;> rfl

theorem WellKept.acquire_own (h : c.WellKept) (hown : ∀ x ∈ c.entries, x.2.owner = owner)
    (sql : String) :
    (c.acquire owner sql).found.isSome = decide (sql ∈ c.keys) ∧
      (c.acquire owner sql).cache.hits = c.hits + if sql ∈ c.keys then 1 else 0 := by
  have hlookup := c.acquires owner sql
  generalize c.acquire owner sql = lookup at hlookup
  cases hlookup with
  | idle hidle => simp [h.keys_eq_nil hidle]
  | absent hactive hget =>
    have hout : sql ∉ c.keys := not_mem_keys_iff.mpr (by simp [contains, hget])
    simp [hout]
  | own hactive hget =>
    have hin : sql ∈ c.keys := mem_keys_iff.mpr (by simp [contains, hget])
    simp [hin]
  | foreign hactive hget hother =>
    obtain ⟨before, after, hentries, -⟩ := List.lookup_eq_some_iff.mp hget
    have hmem : (sql, _) ∈ c.entries := hentries ▸ List.mem_append_right _ List.mem_cons_self
    exact absurd (hown _ hmem) hother

/-- A text put in front leaves as much behind it as there is room for. -/
theorem WellKept.keys_release (h : c.WellKept) (hbounded : c.Bounded)
    (henabled : c.settings.enabled = true) (hout : sql ∉ c.keys) (s : Statement) :
    (c.release sql s).2.keys = (sql :: c.keys).take c.settings.capacity := by
  have habsent := not_mem_keys_iff.mp hout
  have hlength : c.keys.length = c.entries.length := List.length_map ..
  have hsize : c.entries.length ≤ c.settings.capacity := hbounded
  have hrelease := c.releases sql s
  generalize c.release sql s = after at hrelease
  cases hrelease with
  | refused hreason =>
    have hidle : c.isActive = false := by simpa [habsent] using hreason
    have hzero : c.settings.capacity = 0 := by
      simpa [isActive, CacheSettings.isActive, henabled] using hidle
    rw [h.keys_eq_nil hidle, hzero, List.take_zero]
  | stored hactive habsent hroom =>
    have hless : c.entries.length < c.settings.capacity :=
      Nat.lt_of_not_le (of_decide_eq_false hroom)
    rw [List.take_of_length_le (by rw [List.length_cons, hlength]; omega)]
    rfl
  | @evicting kept oldest hactive habsent hfull hlast =>
    have hexact : c.settings.capacity = kept.length + 1 := by
      have hle : c.settings.capacity ≤ c.entries.length := of_decide_eq_true hfull
      rw [hlast, List.length_append, List.length_singleton] at hle hsize
      omega
    simp [keys, hlast, hexact]

end StatementCache

namespace Script

/-- What is asked of a connection by a caller who holds no statement. -/
inductive Errand where
  | execute (sql : String)
  | clear
  deriving DecidableEq, Repr

def Errand.action : Errand → Action
  | execute sql => .operation (.execute sql)
  | clear => .upkeep .clear

/-- How much use a cache was. -/
structure Digest where
  keys : List String
  hits : Nat
  prepared : Nat
  deriving DecidableEq, Repr

namespace Digest

/-- What an errand makes of a cache that has room for `n` texts. -/
def after (n : Nat) (g : Digest) : Errand → Digest
  | .clear => { g with keys := [] }
  | .execute sql =>
    if Sql.changesSchema sql then
      { g with keys := [], prepared := g.prepared + if Sql.isMalformed sql then 0 else 1 }
    else if Sql.isMalformed sql then g
    else
      { keys := (sql :: g.keys.erase sql).take n
        hits := g.hits + if sql ∈ g.keys then 1 else 0
        prepared := g.prepared + if sql ∈ g.keys then 0 else 1 }

/-- Whether one cache, with room for `n` texts, sees as much as that of what another keeps, and
has been of no more use. -/
structure Within (n : Nat) (g h : Digest) : Prop where
  keys : g.keys = h.keys.take n
  hits : g.hits ≤ h.hits
  prepared : h.prepared ≤ g.prepared

theorem Within.after {m n : Nat} {g h : Digest} (hle : m ≤ n) (hw : g.Within m h) (a : Errand) :
    (g.after m a).Within m (h.after n a) := by
  have hhits := hw.hits
  have hprepared := hw.prepared
  cases a with
  | clear => exact ⟨List.take_nil.symm, hhits, hprepared⟩
  | execute sql =>
    have hsub : sql ∈ g.keys → sql ∈ h.keys := by
      rw [hw.keys]
      exact List.mem_of_mem_take
    cases hchange : Sql.changesSchema sql with
    | true =>
      simp only [Digest.after, hchange, if_true]
      exact ⟨List.take_nil.symm, hhits, Nat.add_le_add_right hprepared _⟩
    | false =>
      cases hbad : Sql.isMalformed sql with
      | true => simpa [Digest.after, hchange, hbad] using hw
      | false =>
        simp only [Digest.after, hchange, hbad, Bool.false_eq_true, if_false]
        constructor
        · rw [List.take_take, Nat.min_eq_left hle, hw.keys]
          cases m with
          | zero => simp
          | succ m => rw [List.take_succ_cons, List.take_succ_cons, take_erase_take]
        · by_cases hin : sql ∈ g.keys
          · simpa [hin, hsub hin] using hhits
          · exact Nat.le_add_right_of_le (by simpa [hin] using hhits)
        · by_cases hin : sql ∈ g.keys
          · simpa [hin, hsub hin] using hprepared
          · split <;> simp <;> omega

end Digest

namespace Desk

variable {d : Desk} {t : Terms} {n : Nat}

def digest (d : Desk) : Digest :=
  ⟨d.connection.cache.keys, d.connection.cache.hits, d.engine.counters.prepared⟩

/-- Whether a desk has an open connection whose cache, with room for `n` texts, is in good order
and nobody else's. -/
structure Ready (t : Terms) (n : Nat) (d : Desk) : Prop where
  isOpen : d.connection.isOpen = true
  settings : d.connection.cache.settings = ⟨n, true⟩
  sound : d.Sound t
  wellKept : d.connection.cache.WellKept
  bounded : d.connection.cache.Bounded

theorem Ready.owner (h : d.Ready t n) :
    ∀ x ∈ d.connection.cache.entries, x.2.owner = d.connection.id := by
  intro x hx
  have howner := congrArg Statement.owner (h.sound.connection.kept x hx).rewound
  have hterms := congrArg Terms.owner h.sound.connection.terms
  exact howner.trans hterms.symm

theorem Ready.not_mem_keys (h : d.Ready t n) {sql : String} (hbad : Sql.isMalformed sql = true) :
    sql ∉ d.connection.cache.keys := by
  intro hin
  obtain ⟨x, hx, rfl⟩ := List.mem_map.mp hin
  simp [(h.sound.connection.kept x hx).wellFormed] at hbad

/-- What an execution leaves of the cache is what the digest says. -/
theorem Ready.execute_cache (h : d.Ready t n) (sql : String) :
    let after := d.connection.execute sql d.engine
    after.2.1.cache.settings = ⟨n, true⟩ ∧ after.2.1.cache.Bounded ∧
      (⟨after.2.1.cache.keys, after.2.1.cache.hits, after.2.2.counters.prepared⟩ : Digest) =
        d.digest.after n (.execute sql) := by
  intro after
  have hsettings := h.settings
  have hbounded := h.bounded.acquire d.connection.id sql
  obtain ⟨hfound, hhits⟩ := h.wellKept.acquire_own h.owner sql
  have hkeys := h.wellKept.keys_acquire d.connection.id sql
  simp only [Digest.after]
  by_cases hchange : Sql.changesSchema sql = true
  · obtain ⟨hcache, hprepared⟩ := Connection.execute_change h.isOpen hchange d.engine
    rw [hcache, hprepared]
    simp only [hchange, if_true]
    exact ⟨hsettings, Nat.zero_le _, rfl⟩
  · have hplain : Sql.changesSchema sql = false := by simpa using hchange
    rw [if_neg hchange]
    by_cases hbad : Sql.isMalformed sql = true
    · have hout := h.not_mem_keys hbad
      have hnone : (d.connection.cache.acquire d.connection.id sql).found = none := by
        simpa [hout] using hfound
      obtain ⟨hcache, hprepared⟩ :=
        Connection.execute_malformed h.isOpen hplain hbad hnone d.engine
      rw [hcache, hprepared, hkeys, hhits, if_pos hbad, List.erase_of_not_mem hout, if_neg hout]
      exact ⟨(StatementCache.settings_acquire ..).trans hsettings, hbounded, rfl⟩
    · have hgood : Sql.isMalformed sql = false := by simpa using hbad
      have hprepares : d.connection.obstacle? sql = none := by
        simp [Connection.obstacle?, h.isOpen, hgood]
      obtain ⟨s, -, hcache, hprepared⟩ := Connection.execute_plain hplain hprepares d.engine
      have hset := (StatementCache.settings_acquire _ d.connection.id sql).trans hsettings
      have hout : sql ∉ (d.connection.cache.acquire d.connection.id sql).cache.keys := by
        rw [hkeys]
        exact h.wellKept.distinct.not_mem_erase
      have hfront := (h.wellKept.acquire d.connection.id sql).keys_release hbounded
        (by rw [hset]) hout s
      rw [hcache, hprepared, hfront, StatementCache.hits_release, hkeys, hhits, hfound, hset,
        if_neg hbad]
      simp only [decide_eq_true_eq]
      exact ⟨(StatementCache.settings_release ..).trans hset, hbounded.release sql s, rfl⟩

theorem Ready.act (h : d.Ready t n) (a : Errand) :
    (d.act a.action).Ready t n ∧ (d.act a.action).digest = d.digest.after n a := by
  have hkept := act_wellKept h.wellKept a.action
  cases a with
  | clear =>
    have hcounters := d.engine.counters_finalizeAll d.connection.cache.statements
    have hprepared := congrArg Counters.prepared hcounters
    exact ⟨⟨h.isOpen, h.settings, h.sound.tend .clear, hkept, Nat.zero_le _⟩,
      congrArg (Digest.mk [] _) hprepared⟩
  | execute sql =>
    obtain ⟨hsettings, hbounded, hdigest⟩ := h.execute_cache sql
    have hopen := (d.connection.isOpen_execute sql d.engine).trans h.isOpen
    exact ⟨⟨hopen, hsettings, h.sound.perform (.execute sql), hkept, hbounded⟩, hdigest⟩

end Desk

variable {t : Terms} {n : Nat} {d : Desk}

theorem Desk.Ready.final (h : d.Ready t n) (errands : List Errand) :
    (final d (errands.map Errand.action)).digest = errands.foldl (Digest.after n) d.digest := by
  induction errands generalizing d with
  | nil => rfl
  | cons a errands ih =>
    obtain ⟨hready, hdigest⟩ := h.act a
    rw [List.map_cons, final_cons, List.foldl_cons, ← hdigest]
    exact ih hready

theorem Digest.Within.foldl {m n : Nat} {g h : Digest} (hle : m ≤ n) (hw : g.Within m h)
    (errands : List Errand) :
    (errands.foldl (Digest.after m) g).Within m (errands.foldl (Digest.after n) h) := by
  induction errands generalizing g h with
  | nil => exact hw
  | cons a errands ih => exact ih (hw.after hle a)

theorem ready_of_connect {e f : Engine} {target : String} {mode : OpenMode} {c : Connection}
    (h : Connection.connect e target ⟨mode, ⟨n, true⟩⟩ = (.ok c, f)) :
    (Desk.clean c f).Ready (c.terms f) n ∧
      (Desk.clean c f).digest = ⟨[], 0, e.counters.prepared⟩ := by
  obtain ⟨raw, hraw, rfl⟩ := connect_ok h
  obtain ⟨-, hopen, databases, rfl⟩ := Engine.connect_ok hraw
  exact ⟨⟨hopen, rfl, clean_sound rfl _, .of_empty rfl, Nat.zero_le _⟩, rfl⟩

/-- Of two connections on which the same texts are executed, the one whose cache has more room
keeps all that the other keeps and no less recently used, is hit at least as often, and has its
engine prepare no more. -/
theorem larger_cache_serves {e e₁ e₂ : Engine} {target : String} {mode : OpenMode} {n₁ n₂ : Nat}
    {c₁ c₂ : Connection} (hle : n₁ ≤ n₂)
    (h₁ : Connection.connect e target ⟨mode, ⟨n₁, true⟩⟩ = (.ok c₁, e₁))
    (h₂ : Connection.connect e target ⟨mode, ⟨n₂, true⟩⟩ = (.ok c₂, e₂))
    (errands : List Errand) :
    let d₁ := final (.clean c₁ e₁) (errands.map Errand.action)
    let d₂ := final (.clean c₂ e₂) (errands.map Errand.action)
    d₁.connection.cache.keys <+: d₂.connection.cache.keys ∧
      d₁.connection.cache.hits ≤ d₂.connection.cache.hits ∧
      d₂.engine.counters.prepared ≤ d₁.engine.counters.prepared := by
  intro d₁ d₂
  obtain ⟨hready₁, hstart₁⟩ := ready_of_connect h₁
  obtain ⟨hready₂, hstart₂⟩ := ready_of_connect h₂
  have hstart : (Desk.clean c₁ e₁).digest.Within n₁ (Desk.clean c₂ e₂).digest := by
    rw [hstart₁, hstart₂]
    exact ⟨List.take_nil.symm, Nat.le_refl _, Nat.le_refl _⟩
  have hend : d₁.digest.Within n₁ d₂.digest := by
    rw [hready₁.final, hready₂.final]
    exact hstart.foldl hle errands
  have hkeys : d₁.connection.cache.keys = d₂.connection.cache.keys.take n₁ := hend.keys
  refine ⟨?_, hend.hits, hend.prepared⟩
  rw [hkeys]
  exact List.take_prefix _ _

/-- Two queries in turn, with a text in between that cannot be prepared: a cache with room for one
of them is never hit. -/
theorem larger_cache_serves_two :
    let c (n : Nat) : Connection := ⟨⟨⟨1⟩, true, false, none⟩, { settings := ⟨n, true⟩ }, 0⟩
    let e : Engine := { lastConnection := 1, counters := { opened := 1 } }
    let errands : List Errand :=
      [.execute "SELECT 1;", .execute "SELECT 2;", .execute "INVALID", .execute "SELECT 1;"]
    (final (.clean (c 1) e) (errands.map Errand.action)).connection.cache.keys <+:
        (final (.clean (c 2) e) (errands.map Errand.action)).connection.cache.keys ∧
      (final (.clean (c 1) e) (errands.map Errand.action)).digest = ⟨["SELECT 1;"], 0, 3⟩ ∧
      (final (.clean (c 2) e) (errands.map Errand.action)).digest =
        ⟨["SELECT 1;", "SELECT 2;"], 1, 2⟩ := by
  intro c e errands
  have h₁ : Connection.connect {} ":memory:" ⟨.openOrCreate, ⟨1, true⟩⟩ = (.ok (c 1), e) := rfl
  have h₂ : Connection.connect {} ":memory:" ⟨.openOrCreate, ⟨2, true⟩⟩ = (.ok (c 2), e) := rfl
  have hserves := larger_cache_serves (by decide) h₁ h₂ errands
  exact ⟨hserves.1, by decide +kernel, by decide +kernel⟩

end Script

end ConnectionPool

import ConnectionPool.Driver.Engine
import ConnectionPool.Proofs.Cache.Basic

/-!
# Recency

The entries of a cache stand in the order of the releases that put them in, the latest first. So a
full cache that accepts a statement lets go of the one that was put in before all others.
-/

namespace ConnectionPool.StatementCache

variable {past : List (StatementCache × Request)} {c : StatementCache} {r : Request}
  {x y : String × Statement} {m n : Nat}

/-- Whether the request at place `n` of a history is the release that put an entry in, and its
text has been kept ever since. -/
def PutIn (past : List (StatementCache × Request)) (x : String × Statement) (n : Nat) : Prop :=
  ∃ c, past[n]? = some (c, .release x.1 x.2) ∧ c.Accepts x.1 x.2 ∧
    ∀ later ∈ past.drop (n + 1), later.1.contains x.1 = true

/-- Whether an entry was put in later than another. -/
def Fresher (past : List (StatementCache × Request)) (x y : String × Statement) : Prop :=
  ∀ m n, PutIn past x m → PutIn past y n → n < m

theorem PutIn.lt_length (h : PutIn past x n) : n < past.length := by
  obtain ⟨c, hc, -⟩ := h
  exact (List.getElem?_eq_some_iff.mp hc).1

theorem PutIn.not_lt (hm : PutIn past x m) (hn : PutIn past x n) : ¬ m < n := by
  intro hlt
  obtain ⟨-, -, -, hkept⟩ := hm
  obtain ⟨c, hc, haccepts, -⟩ := hn
  have hlater : (c, Request.release x.1 x.2) ∈ past.drop (m + 1) := by
    apply List.mem_of_getElem? (i := n - (m + 1))
    rw [List.getElem?_drop, ← hc]
    congr 1
    omega
  have hcontains := hkept _ hlater
  simp [haccepts.1] at hcontains

theorem PutIn.unique (hm : PutIn past x m) (hn : PutIn past x n) : m = n := by
  have hle := hm.not_lt hn
  have hge := hn.not_lt hm
  omega

theorem PutIn.later (h : PutIn past x n) (hkept : c.contains x.1 = true) :
    PutIn (past ++ [(c, r)]) x n := by
  have hlt := h.lt_length
  obtain ⟨d, hd, haccepts, hall⟩ := h
  refine ⟨d, ?_, haccepts, ?_⟩
  · rwa [List.getElem?_append_left hlt]
  · rw [List.drop_append_of_le_length hlt]
    intro later hlater
    cases List.mem_append.mp hlater with
    | inl hold => exact hall later hold
    | inr hnew => rwa [List.mem_singleton.mp hnew]

theorem PutIn.earlier (h : PutIn (past ++ [(c, r)]) x n) (hkept : c.contains x.1 = true) :
    PutIn past x n := by
  have hlt := h.lt_length
  obtain ⟨d, hd, haccepts, hall⟩ := h
  by_cases hlast : n = past.length
  · rw [hlast, List.getElem?_concat_length] at hd
    obtain ⟨rfl, -⟩ := Prod.mk.inj (Option.some.inj hd)
    simp [haccepts.1] at hkept
  · have hbefore : n < past.length := by
      rw [List.length_append, List.length_singleton] at hlt
      omega
    rw [List.getElem?_append_left hbefore] at hd
    rw [List.drop_append_of_le_length hbefore] at hall
    exact ⟨d, hd, haccepts, fun later hlater => hall later (List.mem_append_left _ hlater)⟩

theorem PutIn.now (haccepts : c.Accepts x.1 x.2) :
    PutIn (past ++ [(c, .release x.1 x.2)]) x past.length := by
  refine ⟨c, List.getElem?_concat_length, haccepts, ?_⟩
  simp

/-- Whether all that is kept was put in by a release of the past, the first of it last. -/
structure Recent (past : List (StatementCache × Request)) (c : StatementCache) : Prop where
  putIn : ∀ x ∈ c.entries, ∃ n, PutIn past x n
  ordered : c.entries.Pairwise (Fresher past)

theorem Fresher.later (h : Fresher past x y) (hx : x ∈ c.entries) (hy : y ∈ c.entries) :
    Fresher (past ++ [(c, r)]) x y := by
  intro m n hm hn
  exact h m n (hm.earlier (contains_of_mem hx)) (hn.earlier (contains_of_mem hy))

theorem Fresher.now (haccepts : c.Accepts x.1 x.2) (hy : y ∈ c.entries) :
    Fresher (past ++ [(c, .release x.1 x.2)]) x y := by
  intro m n hm hn
  rw [hm.unique (.now haccepts)]
  exact (hn.earlier (contains_of_mem hy)).lt_length

theorem Recent.serve (h : Recent past c) (r : Request) :
    Recent (past ++ [(c, r)]) (c.serve r).cache := by
  have hstays {kept : List (String × Statement)} (hsub : kept.Sublist c.entries) :
      (∀ x ∈ kept, ∃ n, PutIn (past ++ [(c, r)]) x n) ∧
        kept.Pairwise (Fresher (past ++ [(c, r)])) := by
    constructor
    · intro x hx
      obtain ⟨n, hn⟩ := h.putIn x (hsub.subset hx)
      exact ⟨n, hn.later (contains_of_mem (hsub.subset hx))⟩
    · apply (h.ordered.sublist hsub).imp_of_mem
      intro x y hx hy hfresher
      exact hfresher.later (hsub.subset hx) (hsub.subset hy)
  cases c.serve_entries r with
  | inl hsub =>
    obtain ⟨hput, hordered⟩ := hstays hsub
    exact ⟨hput, hordered⟩
  | inr hfront =>
    obtain ⟨x, kept, rfl, haccepts, hsub, hentries⟩ := hfront
    obtain ⟨hput, hordered⟩ := hstays hsub
    constructor
    · rw [hentries]
      exact List.forall_mem_cons.mpr ⟨⟨_, .now haccepts⟩, hput⟩
    · rw [hentries]
      refine List.pairwise_cons.mpr ⟨?_, hordered⟩
      intro y hy
      exact .now haccepts (hsub.subset hy)

theorem Recent.serveAll (h : Recent past c) (requests : List Request) :
    Recent (past ++ history c requests) (c.serveAll requests) := by
  induction requests generalizing past c with
  | nil => simpa [history, StatementCache.serveAll] using h
  | cons r requests ih =>
    simpa [history, StatementCache.serveAll, List.append_assoc] using ih (h.serve r)

theorem recent_of_empty (h : c.entries = []) : Recent [] c := by
  constructor <;> simp [h]

/-- What may be relied on when a cache has been through a history. -/
structure LeastRecentlyUsed (past : List (StatementCache × Request)) (c : StatementCache) :
    Prop where
  distinct : c.keys.Nodup
  counted : c.keys.length = c.size
  bounded : c.size ≤ c.settings.capacity
  inactive : c.isActive = false → c.keys = []
  putIn : ∀ x ∈ c.entries, ∃! n, PutIn past x n
  ordered : c.entries.Pairwise (Fresher past)
  /-- A full cache lets go of the entry put in before all others. -/
  evicts : ∀ sql s, c.isActive = true → c.contains sql = false → c.isFull = true →
    ∃ kept oldest, c.entries = kept ++ [oldest] ∧ (∀ x ∈ kept, Fresher past x oldest) ∧
      c.release sql s = ([oldest.2],
        { c with entries := (sql, s) :: kept, evictions := c.evictions + 1 })
  stores : ∀ sql s, c.isActive = true → c.contains sql = false → c.isFull = false →
    c.release sql s = ([], { c with entries := (sql, s) :: c.entries })
  refuses : ∀ sql s, c.contains sql = true ∨ c.isActive = false → c.release sql s = ([s], c)
  /-- A lookup takes out the entry of its own text, if any. -/
  acquires : ∀ owner sql, (c.acquire owner sql).cache.entries =
    c.entries.filter fun x => x.1 != sql
  looks : ∀ sql, ∀ r ∈ [Request.contains sql, .size, .keys, .stats],
    (c.serve r).cache = c ∧ (c.serve r).discarded = []

theorem Recent.leastRecentlyUsed (h : Recent past c) (hkept : c.WellKept)
    (hbounded : c.Bounded) : LeastRecentlyUsed past c where
  distinct := hkept.distinct
  counted := List.length_map ..
  bounded := hbounded
  inactive := hkept.keys_eq_nil
  putIn x hx := by
    obtain ⟨n, hn⟩ := h.putIn x hx
    exact ⟨n, hn, fun m hm => hm.unique hn⟩
  ordered := h.ordered
  evicts sql s hactive habsent hfull := by
    obtain ⟨kept, oldest, hlast⟩ := exists_oldest hactive hfull
    have hordered := h.ordered
    rw [hlast, List.pairwise_append] at hordered
    refine ⟨kept, oldest, hlast, ?_, release_evicting hactive habsent hfull hlast⟩
    intro x hx
    exact hordered.2.2 x hx oldest List.mem_cons_self
  stores sql s hactive habsent hroom := release_stored hactive habsent hroom
  refuses sql s := release_refused
  acquires := hkept.entries_acquire
  looks sql r hr := by
    simp only [List.mem_cons, List.not_mem_nil, or_false] at hr
    rcases hr with rfl | rfl | rfl | rfl <;> exact ⟨rfl, rfl⟩

/-- Whatever a cache has been asked for since it was made, it is a map that keeps at most its
capacity of statements and lets go of them in the order in which they were put in. -/
theorem least_recently_used {settings : CacheSettings} (hc : ofSettings? settings = some c)
    (requests : List Request) :
    LeastRecentlyUsed (history c requests) (c.serveAll requests) := by
  obtain rfl := ofSettings?_eq hc
  have hrecent := (recent_of_empty (c := { settings }) rfl).serveAll requests
  have hkept := serveAll_keeps (fun _ r h => h.serve r) (WellKept.of_empty (c := { settings }) rfl)
    requests
  have hbounded : (serveAll { settings } requests).Bounded :=
    serveAll_keeps (fun _ r h => h.serve r) (Nat.zero_le _) requests
  exact hrecent.leastRecentlyUsed hkept hbounded

/-- A statement that was hit and came back makes another one the oldest; a duplicate in between
changes nothing. -/
theorem least_recently_used_hit :
    let s (number : Nat) : Statement :=
      Engine.statementFor { lastStatement := number } ⟨⟨1⟩, true, false, none⟩ "SELECT ?"
    let c : StatementCache := { settings := ⟨2, true⟩ }
    let requests : List Request := [.release "a" (s 0), .release "b" (s 1), .acquire ⟨1⟩ "a",
      .release "a" (s 0), .release "b" (s 2)]
    let d := c.serveAll requests
    LeastRecentlyUsed (history c requests) d ∧ d.keys = ["a", "b"] ∧
      PutIn (history c requests) ("a", s 0) 3 ∧ PutIn (history c requests) ("b", s 1) 1 ∧
      (d.release "c" (s 3)).1 = [s 1] := by
  intro s c requests d
  have hc : ofSettings? ⟨2, true⟩ = some c := rfl
  refine ⟨least_recently_used hc requests, by decide +kernel, ⟨_, rfl, ?_⟩, ⟨_, rfl, ?_⟩, ?_⟩ <;>
    decide +kernel

end ConnectionPool.StatementCache

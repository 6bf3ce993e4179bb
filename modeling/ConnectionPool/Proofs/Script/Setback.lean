import ConnectionPool.Proofs.Estate.Service
import ConnectionPool.Proofs.Script.Outdated
import ConnectionPool.Proofs.Script.Stillness

/-!
# Setbacks

What a connection goes through, what others do to its cache, to its raw connection and to the engine
included, and what a failure leaves then. A closed connection is left as it was. A text that cannot
be prepared costs a miss, and the statement of another connection that may be cached under it. An
execution that fails in a step leaves what it would have left had it succeeded.
-/

namespace ConnectionPool.Script

/-- What may happen to a connection on a desk. -/
inductive Deed where
  | act (a : Action)
  /-- Somebody asks the cache directly. -/
  | ask (r : StatementCache.Request)
  /-- Somebody prepares a statement on the raw connection. -/
  | prepareRaw (sql : String)
  /-- Others use the engine, or prepare failures of it. -/
  | others (e : Engine)

variable {sql : String}

namespace Desk

variable {d : Desk}

def ask (d : Desk) (r : StatementCache.Request) : Desk :=
  let outcome := d.connection.cache.serve r
  ⟨{ d.connection with cache := outcome.cache }, d.engine.finalizeAll outcome.discarded, d.held⟩

def prepareRaw (d : Desk) (sql : String) : Desk :=
  let (_, raw, engine) := d.engine.prepare d.connection.raw sql
  ⟨{ d.connection with raw }, engine, d.held⟩

def undergo (d : Desk) : Deed → Desk
  | .act a => d.act a
  | .ask r => d.ask r
  | .prepareRaw sql => d.prepareRaw sql
  | .others e => { d with engine := e }

theorem undergo_wellKept (h : d.connection.cache.WellKept) (deed : Deed) :
    (d.undergo deed).connection.cache.WellKept := by
  cases deed with
  | act a => exact act_wellKept h a
  | ask r => exact h.serve r
  | prepareRaw sql => exact h
  | others e => exact h

/-- Whether all statements kept and checked out belong to the connection. -/
def Owned (d : Desk) : Prop :=
  ∀ s ∈ d.connection.cache.statements ++ d.held.map Checkout.statement, s.owner = d.connection.id

theorem Owned.serves {c : Connection} {e : Engine} {out back : List Statement}
    {held : List Checkout} (h : d.Owned) (hserves : d.connection.Serves out d.engine c back e)
    (hout : out ⊆ d.held.map Checkout.statement)
    (hheld : held.map Checkout.statement ⊆ d.held.map Checkout.statement ++ back) :
    (Desk.mk c e held).Owned := by
  have hbefore : ∀ s ∈ d.connection.cache.statements ++ out, s.owner = d.connection.id := by
    intro s hs
    apply h
    rcases List.mem_append.mp hs with hkept | hgiven
    · exact List.mem_append_left _ hkept
    · exact List.mem_append_right _ (hout hgiven)
  have hafter := hserves.own hbefore
  intro s hs
  rw [hserves.id]
  rcases List.mem_append.mp hs with hkept | hin
  · exact hafter s (List.mem_append_left _ hkept)
  · rcases List.mem_append.mp (hheld hin) with hold | hnew
    · exact h s (List.mem_append_right _ hold)
    · exact hafter s (List.mem_append_right _ hnew)

theorem Owned.prepare (h : d.Owned) (sql : String) : (d.prepare sql).2.Owned := by
  rw [Desk.prepare]
  rcases hp : d.connection.prepare sql d.engine with ⟨error | k, c, e⟩
  · exact h.serves (Connection.serves_prepare_error hp) (List.nil_subset _)
      (List.subset_append_left _ _)
  · apply h.serves (Connection.serves_prepare hp) (List.nil_subset _)
    simp

theorem Owned.replace {k : Checkout} {s : Statement} {i : Nat} (h : d.Owned)
    (hi : d.held[i]? = some k) (hs : s.rewind = k.statement.rewind) (e : Engine) :
    (Desk.mk d.connection e (d.held.set i { k with statement := s })).Owned := by
  intro t ht
  rcases List.mem_append.mp ht with hkept | hin
  · exact h t (List.mem_append_left _ hkept)
  · obtain ⟨l, hl, rfl⟩ := List.mem_map.mp hin
    rcases List.mem_or_eq_of_mem_set hl with hold | rfl
    · exact h _ (List.mem_append_right _ (List.mem_map_of_mem hold))
    · have howner : s.owner = k.statement.owner := by
        have hrewind := congrArg Statement.owner hs
        exact hrewind
      have hmem : k.statement ∈ d.held.map Checkout.statement :=
        List.mem_map_of_mem (List.mem_of_getElem? hi)
      exact howner.trans (h _ (List.mem_append_right _ hmem))

theorem Owned.step (h : d.Owned) (i : Nat) : (d.step i).2.Owned := by
  apply withHeld_keeps (P := Owned) h
  intro k hi
  exact h.replace hi (d.engine.step_rewind k.statement) _

theorem Owned.change {f : Statement → Statement} (h : d.Owned) (i : Nat)
    (hf : ∀ s, (f s).rewind = s.rewind) : (d.change i f).2.Owned := by
  apply withHeld_keeps (P := Owned) h
  intro k hi
  exact h.replace hi (hf k.statement) _

theorem Owned.putBack (h : d.Owned) (i : Nat) (keep : Bool) : (d.putBack i keep).2.Owned := by
  apply withHeld_keeps (P := Owned) h
  intro k hi
  have hmem : k.statement ∈ d.held.map Checkout.statement :=
    List.mem_map_of_mem (List.mem_of_getElem? hi)
  apply h.serves (d.connection.serves_recycle { k with cacheable := keep && k.cacheable } d.engine)
  · simpa using hmem
  · intro s hs
    obtain ⟨l, hl, rfl⟩ := List.mem_map.mp hs
    exact List.mem_append_left _ (List.mem_map_of_mem (List.mem_of_mem_eraseIdx hl))

theorem Owned.perform (h : d.Owned) (o : Operation) : (d.perform o).2.Owned := by
  cases o with
  | prepare sql => exact h.prepare sql
  | step i => exact h.step i
  | bind i value => exact h.change i fun _ => rfl
  | reset i => exact h.change i fun _ => rfl
  | clearBindings i => exact h.change i fun _ => rfl
  | rewind i => exact h.change i fun _ => rfl
  | finalize i => exact h.putBack i false
  | drop i => exact h.putBack i true
  | execute sql =>
    exact h.serves (d.connection.serves_execute sql d.engine) (List.nil_subset _)
      (List.subset_append_left _ _)
  | closeRaw =>
    obtain ⟨hid, -⟩ := d.engine.close_terms d.connection.raw
    intro s hs
    exact (h s hs).trans hid.symm

theorem Owned.tend (h : d.Owned) (u : Upkeep) : (d.tend u).Owned := by
  cases u with
  | configure settings =>
    rw [Desk.tend]
    cases hc : d.connection.configureCache? settings d.engine with
    | none => exact h
    | some after =>
      exact h.serves (Connection.serves_configureCache hc) (List.nil_subset _)
        (List.subset_append_left _ _)
  | clear =>
    exact h.serves (d.connection.serves_clearCache d.engine) (List.nil_subset _)
      (List.subset_append_left _ _)

/-- As long as nobody else puts statements into the cache, they are the connection's own. -/
theorem Owned.undergo (h : d.Owned) {deed : Deed} (hdeed : ∀ r, deed ≠ .ask r) :
    (d.undergo deed).Owned := by
  cases deed with
  | act a =>
    cases a with
    | operation o => exact h.perform o
    | upkeep u => exact h.tend u
  | ask r => exact absurd rfl (hdeed r)
  | prepareRaw sql =>
    have hid := congrArg RawConnection.id (d.engine.bare_prepare d.connection.raw sql).1
    intro s hs
    exact (h s hs).trans hid.symm
  | others e => exact h

/-- What is left where a text could not be prepared. -/
structure Unprepared (d : Desk) (sql : String) (left : Desk) : Prop where
  held : left.held = d.held
  hits : left.connection.cache.hits = d.connection.cache.hits
  evictions : left.connection.cache.evictions = d.connection.cache.evictions
  misses : left.connection.cache.misses ≤ d.connection.cache.misses + 1
  kept : (∀ s, d.connection.cache.get? sql = some s → s.owner = d.connection.id) →
    left.connection.cache.entries = d.connection.cache.entries ∧ left.engine = d.engine
  foreign : ∀ s, d.connection.cache.get? sql = some s → s.owner ≠ d.connection.id →
    left.connection.cache.entries = d.connection.cache.entries.filter (fun x => x.1 != sql) ∧
      left.engine = d.engine.finalize s

/-- The desk if its connection accepted writes and no step were to fail. -/
def unhindered (d : Desk) : Desk :=
  ⟨d.connection.unhindered, d.engine.unhindered, d.held⟩

/-- Whether two desks keep the same statements and have counted the same. -/
structure Agrees (d d' : Desk) : Prop where
  keys : d.connection.cache.keys = d'.connection.cache.keys
  ids : d.connection.cache.ids = d'.connection.cache.ids
  hits : d.connection.cache.hits = d'.connection.cache.hits
  misses : d.connection.cache.misses = d'.connection.cache.misses
  evictions : d.connection.cache.evictions = d'.connection.cache.evictions
  counters : d.engine.counters = d'.engine.counters
  finalized : d.engine.finalized = d'.engine.finalized

theorem Agrees.of_still {d' : Desk} (hc : d.connection.still = d'.connection.still)
    (he : d.engine.unhindered = d'.engine.unhindered) : d.Agrees d' := by
  have hcache : d.connection.cache.map Statement.still = d'.connection.cache.map Statement.still :=
    congrArg Connection.cache hc
  have hids (c : StatementCache) : (c.map Statement.still).ids = c.ids := by
    rw [StatementCache.ids, StatementCache.statements_map, List.map_map]
    rfl
  simp only [Engine.unhindered, Engine.mk.injEq] at he
  constructor
  case keys =>
    rw [← StatementCache.keys_map Statement.still, hcache, StatementCache.keys_map]
  case ids => rw [← hids, hcache, hids]
  case counters => exact he.2.2.1
  case finalized => exact he.2.2.2.2.2
  all_goals
    simp only [StatementCache.map, StatementCache.mk.injEq] at hcache
    simp only [hcache]

/-- What is left where a statement was prepared and run, however its run ended. -/
structure Recovered (d : Desk) (sql : String) (left : Desk) : Prop where
  held : left.held = d.held
  succeeds : ∃ rows, (d.unhindered.execute sql).1 = .executed (.ok rows)
  agrees : left.Agrees (d.unhindered.execute sql).2
  again : ∃ k c e, left.connection.prepare sql left.engine = (.ok k, c, e) ∧ k.statement.IsFresh

/-- What may be relied on when a desk is asked to prepare or to execute and fails. -/
structure FailsSafely (d : Desk) : Prop where
  closed : ∀ sql, ((d.prepare sql).1 = .prepared (.error .closed) → (d.prepare sql).2 = d) ∧
    ((d.execute sql).1 = .executed (.error .closed) → (d.execute sql).2 = d)
  prepare : ∀ sql cause, Sql.changesSchema sql = false →
    (d.prepare sql).1 = .prepared (.error (.driver cause)) → d.Unprepared sql (d.prepare sql).2
  /-- An execution fails because its statement could not be prepared, or in a step. -/
  execute : ∀ sql error, (d.execute sql).1 = .executed (.error error) →
    (d.prepare sql).1 = .prepared (.error error) ∧ (d.execute sql).2 = (d.prepare sql).2 ∨
      (d.prepare sql).1 = .prepared (.ok ()) ∧ d.Recovered sql (d.execute sql).2
  fresh : ∀ sql k c e, d.connection.prepare sql d.engine = (.ok k, c, e) → k.statement.IsFresh

theorem prepare_fst (d : Desk) (sql : String) :
    (d.prepare sql).1 = .prepared ((d.connection.prepare sql d.engine).1.map fun _ => ()) := by
  rw [prepare]
  split <;> rename_i hp <;> rw [hp] <;> rfl

theorem prepare_error {error : ConnectionError}
    (h : (d.prepare sql).1 = .prepared (.error error)) :
    ∃ c e, d.connection.prepare sql d.engine = (.error error, c, e) ∧
      (d.prepare sql).2 = ⟨c, e, d.held⟩ := by
  rcases hp : d.connection.prepare sql d.engine with ⟨cause | k, c, e⟩
  · rw [prepare_fst, hp] at h
    obtain rfl : cause = error := Except.error.inj (Reply.prepared.inj h)
    refine ⟨c, e, rfl, ?_⟩
    rw [prepare, hp]
  · rw [prepare_fst, hp] at h
    simp [Except.map] at h

theorem prepare_closed (h : (d.prepare sql).1 = .prepared (.error .closed)) :
    (d.prepare sql).2 = d := by
  obtain ⟨c, e, hp, hleft⟩ := prepare_error h
  obtain ⟨rfl, rfl⟩ := Connection.eq_of_closed hp
  exact hleft

theorem unprepared_of_driver {cause : DriverError} (hkept : d.connection.cache.WellKept)
    (hplain : Sql.changesSchema sql = false)
    (h : (d.prepare sql).1 = .prepared (.error (.driver cause))) :
    d.Unprepared sql (d.prepare sql).2 := by
  obtain ⟨c, e, hp, hleft⟩ := prepare_error h
  have hobstacle := d.connection.prepare_error? sql d.engine
  rw [hp, Connection.obstacle?] at hobstacle
  rw [hleft]
  cases Connection.prepare_error hp with
  | closed hclosed => simp [Connection.error?, hclosed] at hobstacle
  | change message hchange => simp [hplain] at hchange
  | fresh message _ hfound =>
    simp only [Connection.withError, Connection.afterLookUp]
    have hentries := hkept.entries_acquire d.connection.id sql
    have hlookup := d.connection.cache.acquires d.connection.id sql
    generalize d.connection.cache.acquire d.connection.id sql = lookup at *
    cases hlookup with
    | idle hidle =>
      refine ⟨rfl, rfl, rfl, Nat.le_succ _, fun _ => ⟨rfl, rfl⟩, ?_⟩
      intro s hget
      rw [hkept.get?_eq_none hidle] at hget
      cases hget
    | absent hactive hnone =>
      refine ⟨rfl, rfl, rfl, Nat.le_refl _, fun _ => ⟨rfl, rfl⟩, ?_⟩
      intro s hget
      rw [hnone] at hget
      cases hget
    | own => cases hfound
    | @foreign s hactive hsome hother =>
      refine ⟨rfl, rfl, rfl, Nat.le_refl _, ?_, ?_⟩
      · intro hown
        exact absurd (hown s hsome) hother
      · intro t hget _
        obtain rfl : s = t := Option.some.inj (hsome.symm.trans hget)
        exact ⟨hentries, rfl⟩

/-- Once a statement was prepared for a text and run, another is to be had for it. -/
theorem obstacle?_executed (hkept : d.connection.cache.WellKept)
    (hprepares : d.connection.obstacle? sql = none) :
    (d.execute sql).2.connection.obstacle? sql = none := by
  have hserves := d.connection.serves_execute sql d.engine
  have hafter : (d.connection.execute sql d.engine).2.1.cache.WellKept :=
    act_wellKept hkept (.operation (.execute sql))
  obtain ⟨hopen, hcached⟩ := Connection.obstacle?_eq_none.mp hprepares
  apply Connection.obstacle?_eq_none.mpr
  refine ⟨hserves.isOpen.trans hopen, ?_⟩
  intro hbad
  -- The engine does not prepare this text, so the statement came from the cache, and is back.
  obtain ⟨hplain, hfound⟩ := hcached hbad
  obtain ⟨s, howner, hcache, -⟩ := Connection.execute_plain hplain hprepares d.engine
  have haccepts := hkept.accepts_found hfound s
  have hagain := hafter.found (hcache ▸ haccepts.2) (howner.trans hserves.id.symm)
  exact ⟨hplain, Option.isSome_iff_exists.mpr ⟨_, hagain⟩⟩

theorem recovered_of_prepared (hkept : d.connection.cache.WellKept)
    (hprepares : d.connection.obstacle? sql = none) : d.Recovered sql (d.execute sql).2 := by
  have herror := d.connection.prepare_error? sql d.engine
  rw [hprepares] at herror
  obtain ⟨rows, hok, hconnection, hengine⟩ := Connection.execute_unhindered herror
  constructor
  case held => rfl
  case succeeds => exact ⟨rows, congrArg Reply.executed hok⟩
  case agrees => exact .of_still hconnection.symm hengine.symm
  case again =>
    have hagain := obstacle?_executed hkept hprepares
    rw [← Connection.prepare_error? _ sql (d.execute sql).2.engine] at hagain
    rcases hp : (d.execute sql).2.connection.prepare sql (d.execute sql).2.engine
      with ⟨error | k, c, e⟩
    · simp [hp, Connection.error?] at hagain
    · exact ⟨k, c, e, rfl, (Connection.prepare_ok hp).2.isFresh⟩

/-- An execution that fails could not prepare its statement, or failed in a step. -/
theorem execute_error (hkept : d.connection.cache.WellKept) {error : ConnectionError}
    (h : (d.execute sql).1 = .executed (.error error)) :
    (d.prepare sql).1 = .prepared (.error error) ∧ (d.execute sql).2 = (d.prepare sql).2 ∨
      (d.prepare sql).1 = .prepared (.ok ()) ∧ (∃ cause, error = .driver cause) ∧
        d.Recovered sql (d.execute sql).2 := by
  rcases hp : d.connection.prepare sql d.engine with ⟨refusal | k, c, e⟩
  · left
    have hrefused : (d.connection.prepare sql d.engine).1 = .error refusal := by rw [hp]
    have hexecute := Connection.execute_refused hrefused
    rw [hp] at hexecute
    rw [execute, hexecute] at h ⊢
    obtain rfl : refusal = error := Except.error.inj (Reply.executed.inj h)
    rw [prepare, hp]
    exact ⟨rfl, rfl⟩
  · right
    have hprepares : d.connection.obstacle? sql = none := by
      rw [← d.connection.prepare_error? sql d.engine, hp]
      rfl
    refine ⟨?_, ?_, recovered_of_prepared hkept hprepares⟩
    · rw [prepare_fst, hp]
      rfl
    · have hprepared : (d.connection.prepare sql d.engine).1 = .ok k := by rw [hp]
      rw [execute, Connection.execute_prepared hprepared] at h
      cases hrun : ((d.connection.prepare sql d.engine).2.2.run k.statement).1 with
      | ok rows => simp [hrun, Except.mapError] at h
      | error cause =>
        rw [hrun] at h
        exact ⟨cause, (Except.error.inj (Reply.executed.inj h)).symm⟩

theorem failsSafely (hkept : d.connection.cache.WellKept) : d.FailsSafely where
  closed sql := by
    refine ⟨prepare_closed, ?_⟩
    intro h
    rcases execute_error hkept h with ⟨hprepare, hleft⟩ | ⟨-, ⟨cause, hcause⟩, -⟩
    · rw [hleft, prepare_closed hprepare]
    · cases hcause
  prepare sql cause := unprepared_of_driver hkept
  execute sql error h := by
    rcases execute_error hkept h with hrefused | ⟨hprepared, -, hrecovered⟩
    · exact .inl hrefused
    · exact .inr ⟨hprepared, hrecovered⟩
  fresh sql k c e hp := (Connection.prepare_ok hp).2.isFresh

end Desk

variable {d : Desk} {c : Connection} {raw : RawConnection} {settings : CacheSettings}

theorem undergone_wellKept (h : d.connection.cache.WellKept) (deeds : List Deed) :
    (deeds.foldl Desk.undergo d).connection.cache.WellKept := by
  induction deeds generalizing d with
  | nil => exact h
  | cons deed deeds ih => exact ih (Desk.undergo_wellKept h deed)

theorem undergone_owned (h : d.Owned) {deeds : List Deed} (hdeeds : ∀ r, .ask r ∉ deeds) :
    (deeds.foldl Desk.undergo d).Owned := by
  induction deeds generalizing d with
  | nil => exact h
  | cons deed deeds ih =>
    apply ih (h.undergo _)
    · intro r hr
      exact hdeeds r (List.mem_cons_of_mem _ hr)
    · intro r hr
      exact hdeeds r (hr ▸ List.mem_cons_self)

theorem clean_owned (hc : c.cache.entries = []) (e : Engine) : (Desk.clean c e).Owned := by
  intro s hs
  simp [Desk.clean, StatementCache.statements, hc] at hs

/-- Whatever a connection has gone through, it fails safely; and unless somebody has asked its cache
directly, all that it keeps is its own. -/
theorem fails_safely (hc : Connection.ofRaw? raw settings = some c) (e : Engine)
    (deeds : List Deed) :
    let d := deeds.foldl Desk.undergo (.clean c e)
    d.FailsSafely ∧ ((∀ r, .ask r ∉ deeds) →
      ∀ sql s, d.connection.cache.get? sql = some s → s.owner = d.connection.id) := by
  intro d
  have hempty := entries_of_ofRaw hc
  have hkept : d.connection.cache.WellKept :=
    undergone_wellKept (d := .clean c e) (.of_empty hempty) deeds
  refine ⟨Desk.failsSafely hkept, ?_⟩
  intro hdeeds sql s hget
  have howned : d.Owned := undergone_owned (clean_owned hempty e) hdeeds
  obtain ⟨before, after, hentries, -⟩ := List.lookup_eq_some_iff.mp hget
  have hmem : (sql, s) ∈ d.connection.cache.entries :=
    hentries ▸ List.mem_append_right _ List.mem_cons_self
  exact howned s (List.mem_append_left _ (List.mem_map_of_mem (f := Prod.snd) hmem))

/-- A write that a read-only connection refuses goes into the cache all the same, and drives out
what was there. -/
theorem fails_safely_refused :
    let c : Connection := ⟨⟨⟨1⟩, true, true, none⟩, { settings := ⟨1, true⟩ }, 0⟩
    let deeds : List Deed := [.act (.operation (.execute "SELECT 1;"))]
    let d := deeds.foldl Desk.undergo (.clean c {})
    d.FailsSafely ∧
      (d.execute "DELETE FROM t;").1 = .executed (.error (.driver .readOnly)) ∧
      (d.execute "DELETE FROM t;").2.connection.cache.keys = ["DELETE FROM t;"] ∧
      (d.execute "DELETE FROM t;").2.connection.cache.evictions = 1 := by
  intro c deeds d
  have hc : Connection.ofRaw? ⟨⟨1⟩, true, true, none⟩ ⟨1, true⟩ = some c := rfl
  refine ⟨(fails_safely hc {} deeds).1, rfl, ?_, ?_⟩ <;> decide +kernel

/-- A statement of another connection, cached under a text that cannot be prepared, is gone after
that text was asked for. -/
theorem foreign_statement_goes :
    let c : Connection := ⟨⟨⟨1⟩, true, false, none⟩, { settings := {} }, 0⟩
    let e : Engine := { lastConnection := 2, counters := { opened := 2 } }
    let s := e.statementFor ⟨⟨2⟩, true, false, none⟩ "SELECT 1;"
    let deeds : List Deed := [.others e.issue, .ask (.release "INVALID" s)]
    let d := deeds.foldl Desk.undergo (.clean c e)
    Sql.changesSchema "INVALID" = false ∧
      (d.prepare "INVALID").1 =
        .prepared (.error (.driver (.cannotPrepare "INVALID" "syntax error"))) ∧
      d.connection.cache.keys = ["INVALID"] ∧ d.engine.finalized = [] ∧
      (d.prepare "INVALID").2.connection.cache.keys = [] ∧
      (d.prepare "INVALID").2.engine.finalized = [s.id] := by
  intro c e s deeds d
  refine ⟨by decide +kernel, rfl, ?_, ?_, ?_, ?_⟩ <;> decide +kernel

end ConnectionPool.Script

import ConnectionPool.Connection.Connector
import ConnectionPool.Proofs.Build
import ConnectionPool.Proofs.Estate.Service
import ConnectionPool.Proofs.Nesting.Failure

/-!
# Warming up

A pool makes its first connections one after another, before anybody can use it. Either all of them
are made, or the first call that breaks down ends the building and the connections made before it.
-/

namespace ConnectionPool

variable {ω α : Type}

namespace Connector

/-- How a factory call ends that makes no use of a pool. -/
def finish (k : Connector ω α) (ending : FactoryEnding) (world : ω) : Attempt String α × ω :=
  match ending with
  | .connect => k.connect world
  | .fail cause => (.refused cause, world)
  | .abort cause => (.aborted cause, world)

/-- One factory call: its outcome, the rest of the script and the world it leaves. -/
def call (k : Connector ω α) : List FactoryCall × ω → Attempt String α × List FactoryCall × ω
  | ([], world) => ((k.finish .connect world).1, [], (k.finish .connect world).2)
  | (c :: script, world) => ((k.finish c.ending world).1, script, (k.finish c.ending world).2)

/-- Factory calls one after another, with the outcome of each. -/
inductive Calls (k : Connector ω α) :
    List FactoryCall × ω → List (Attempt String α) → List FactoryCall × ω → Prop
  | none (x) : k.Calls x [] x
  | next {x y z outcome outcomes} : k.call x = (outcome, y) → k.Calls y outcomes z →
      k.Calls x (outcome :: outcomes) z

namespace Calls

variable {k : Connector ω α} {x y z : List FactoryCall × ω}
  {outcomes later : List (Attempt String α)}

theorem of_append (h : k.Calls x (outcomes ++ later) z) :
    ∃ y, k.Calls x outcomes y ∧ k.Calls y later z := by
  induction outcomes generalizing x with
  | nil => exact ⟨x, .none x, h⟩
  | cons outcome outcomes ih =>
    cases h with
    | next hc hrest =>
      obtain ⟨y, hfirst, hlater⟩ := ih hrest
      exact ⟨y, .next hc hfirst, hlater⟩

theorem of_singleton {outcome : Attempt String α} (h : k.Calls x [outcome] z) :
    k.call x = (outcome, z) := by
  cases h with
  | next hc hrest =>
    cases hrest
    exact hc

end Calls

theorem made_or_broken (outcome : Attempt String α) :
    (∃ conn, outcome = .ok conn) ∨ ∃ b : Breakdown, outcome = b.ofCall := by
  cases outcome with
  | ok conn => exact .inl ⟨conn, rfl⟩
  | refused cause => exact .inr ⟨.refused cause, rfl⟩
  | aborted cause => exact .inr ⟨.aborted cause, rfl⟩

/-- Of `n` calls either all make a connection, or a first one breaks down. -/
theorem calls_or_broken (k : Connector ω α) (n : Nat) (x : List FactoryCall × ω) :
    (∃ (conns : List α) (y : _), conns.length = n ∧ k.Calls x (conns.map .ok) y) ∨
      ∃ (conns : List α) (b : Breakdown) (y : _), conns.length < n ∧
        k.Calls x (conns.map .ok ++ [b.ofCall]) y := by
  induction n generalizing x with
  | zero => exact .inl ⟨[], x, rfl, .none x⟩
  | succ n ih =>
    have hcall : k.call x = ((k.call x).1, (k.call x).2) := rfl
    obtain ⟨conn, hmade⟩ | ⟨b, hbroken⟩ := made_or_broken (k.call x).1
    · rw [hmade] at hcall
      obtain ⟨conns, y, hn, hall⟩ | ⟨conns, b, y, hn, hfirst⟩ := ih (k.call x).2
      · exact .inl ⟨conn :: conns, y, congrArg (· + 1) hn, .next hcall hall⟩
      · exact .inr ⟨conn :: conns, b, y, Nat.succ_lt_succ hn, .next hcall hfirst⟩
    · rw [hbroken] at hcall
      exact .inr ⟨[], b, _, Nat.succ_pos n, .next hcall (.none _)⟩

end Connector

namespace Pool

/-- A connection that has just been made joins a pool that nobody uses yet. -/
def stock (p : Pool α) (conn : α) : Pool α :=
  p.takeSlot.takeId.2.countCreated.addIdle ⟨conn, .fresh p.nextId⟩

/-- Where a pool stands that has made these connections, the earliest first, and done nothing
else. -/
structure Stocked (settings : PoolSettings) (conns : List α) (p : Pool α) : Prop where
  settings_eq : p.settings = settings
  isOpen : p.closed = false
  created_eq : p.created = conns.length
  conns_eq : p.idle.map Member.conn = conns.reverse
  fresh : ∀ m ∈ p.idle, m.metadata = .fresh m.id
  /-- Each factory call takes a number. -/
  nextId_eq : p.nextId = conns.length + 1
  metrics_eq : p.metrics = { connectionsCreated := conns.length }

namespace Stocked

variable {settings : PoolSettings} {made conns : List α} {p : Pool α}

theorem empty (settings : PoolSettings) : Stocked settings [] (Pool.empty settings : Pool α) :=
  ⟨rfl, rfl, rfl, rfl, List.forall_mem_nil _, rfl, rfl⟩

theorem stock (h : Stocked settings made p) (conn : α) :
    Stocked settings (made ++ [conn]) (p.stock conn) where
  settings_eq := h.settings_eq
  isOpen := h.isOpen
  created_eq := by
    have hcreated : (p.stock conn).created = p.created + 1 := rfl
    rw [hcreated, h.created_eq, List.length_append, List.length_singleton]
  conns_eq := by
    have hidle : (p.stock conn).idle.map Member.conn = conn :: p.idle.map Member.conn := rfl
    rw [hidle, h.conns_eq, List.reverse_append]
    rfl
  fresh := List.forall_mem_cons.mpr ⟨rfl, h.fresh⟩
  nextId_eq := by
    have hnext : (p.stock conn).nextId = p.nextId + 1 := rfl
    rw [hnext, h.nextId_eq, List.length_append, List.length_singleton]
  metrics_eq := by
    have hmetrics : (p.stock conn).metrics =
        { p.metrics with connectionsCreated := p.metrics.connectionsCreated + 1 } := rfl
    rw [hmetrics, h.metrics_eq, List.length_append, List.length_singleton]

theorem stockAll (h : Stocked settings made p) (conns : List α) :
    Stocked settings (made ++ conns) (conns.foldl Pool.stock p) := by
  induction conns generalizing made p with
  | nil =>
    rw [List.append_nil]
    exact h
  | cons conn conns ih =>
    have hrest := ih (h.stock conn)
    rwa [List.append_assoc] at hrest

theorem idle_length (h : Stocked settings conns p) : p.idle.length = conns.length := by
  have hlength := congrArg List.length h.conns_eq
  rwa [List.length_map, List.length_reverse] at hlength

theorem status_eq (h : Stocked settings conns p) :
    p.status = ⟨conns.length, 0, conns.length, settings.maxConnections⟩ := by
  rw [status, h.idle_length, h.created_eq, h.settings_eq, Nat.sub_self]

end Stocked

end Pool

namespace Workplace

open Pool

variable {k : Connector ω α} {reentrant : Bool} {w : Workplace ω α} {n : Nat} {conn : α}
  {conns : List α} {script : List FactoryCall} {world : ω} {b : Breakdown}

theorem callFactory_eq (k : Connector ω α) (depth : Nat) (w : Workplace ω α) :
    callFactory k false (depth + 1) w =
      ((k.call (w.script, w.world)).1,
       { w with
         script := (k.call (w.script, w.world)).2.1
         world := (k.call (w.script, w.world)).2.2 }) := by
  obtain ⟨pool, script, log, world⟩ := w
  cases script with
  | nil => rfl
  | cons c script =>
    obtain ⟨uses, ending⟩ := c
    cases ending with
    | connect => rfl
    | fail cause => rfl
    | abort cause => rfl

theorem warmUp_made (h : k.call (w.script, w.world) = (.ok conn, script, world)) :
    warmUp k (n + 1) w = warmUp k n ⟨w.pool.stock conn, script, w.log, world⟩ := by
  simp only [warmUp, create, callFactory_eq, h, Pool.takeId]
  rfl

theorem warmUp_broken (h : k.call (w.script, w.world) = (b.ofCall, script, world)) :
    warmUp k (n + 1) w =
      (b.answer, ⟨b.settle w.pool.takeSlot.takeId.2, script, w.log, world⟩) := by
  cases b with
  | refused cause =>
    simp only [Breakdown.ofCall] at h
    simp only [warmUp, create, callFactory_eq, h, Pool.takeId]
    rfl
  | aborted cause =>
    simp only [Breakdown.ofCall] at h
    simp only [warmUp, create, callFactory_eq, h, Pool.takeId]
    rfl

theorem warmUp_calls (h : k.Calls (w.script, w.world) (conns.map .ok) (script, world)) :
    warmUp k (conns.length + n) w =
      warmUp k n ⟨conns.foldl Pool.stock w.pool, script, w.log, world⟩ := by
  induction conns generalizing w with
  | nil =>
    cases h
    rw [List.length_nil, Nat.zero_add]
    rfl
  | cons conn conns ih =>
    cases h with
    | @next _ y _ _ _ hc hrest =>
      obtain ⟨left, later⟩ := y
      have hn : (conn :: conns).length + n = conns.length + n + 1 := Nat.add_right_comm _ _ _
      rw [hn, warmUp_made hc]
      exact ih hrest

/-- Callers who come one after another, none of whom gives back what it got, and the connections
that they hear of. -/
inductive Served (hears : Workplace ω α → Attempt PoolError (Member α) → Workplace ω α → Prop) :
    Workplace ω α → List (Member α) → Workplace ω α → Prop
  | nobody (v : Workplace ω α) : Served hears v [] v
  | next {v v' u : Workplace ω α} {m : Member α} {members : List (Member α)} :
      hears v (.ok m) v' → Served hears v' members u → Served hears v (m :: members) u

/-- What is left of a pool, its factory and the world when callers have taken all that was idle:
no connection was made for them. -/
structure Emptied (w v : Workplace ω α) : Prop where
  idle_nil : v.pool.idle = []
  created_eq : v.pool.created = w.pool.created
  nextId_eq : v.pool.nextId = w.pool.nextId
  created_metric : v.pool.metrics.connectionsCreated = w.pool.metrics.connectionsCreated
  script_eq : v.script = w.script
  log_eq : v.log = w.log
  world_eq : v.world = w.world

/-- Idle connections go out in their order, without a factory call, if each caller who finds one
gets it. -/
theorem served_idle {members : List (Member α)}
    {hears : Workplace ω α → Attempt PoolError (Member α) → Workplace ω α → Prop}
    (hhears : ∀ v : Workplace ω α, v.pool.settings = w.pool.settings → v.pool.closed = false →
      ∀ m rest, v.pool.idle = m :: rest → hears v (.ok m.recordCheckout)
        { v with pool := { v.pool with idle := rest }.countCheckout })
    (ho : w.pool.closed = false) (hi : w.pool.idle = members) :
    ∃ v, Served hears w (members.map Member.recordCheckout) v ∧ w.Emptied v := by
  induction members generalizing w with
  | nil => exact ⟨w, .nobody w, hi, rfl, rfl, rfl, rfl, rfl, rfl⟩
  | cons m members ih =>
    have hfirst := hhears w rfl ho m members hi
    obtain ⟨v, hserved, hempty⟩ :=
      ih (w := { w with pool := { w.pool with idle := members }.countCheckout })
        (fun v hv => hhears v hv) ho rfl
    exact ⟨v, .next hfirst hserved, hempty.idle_nil, hempty.created_eq, hempty.nextId_eq,
      hempty.created_metric, hempty.script_eq, hempty.log_eq, hempty.world_eq⟩

end Workplace

namespace Connector

variable {target : String} {settings : ConnectionSettings} {e f : Engine} {conns : List Connection}
  {script rest : List FactoryCall}

theorem connect_of_call {k : Connector ω α} {world after : ω} {conn : α}
    (h : k.call (script, world) = (.ok conn, rest, after)) :
    k.connect world = (.ok conn, after) := by
  have hfinish {ending : FactoryEnding} (hok : (k.finish ending world).1 = .ok conn) :
      k.finish ending world = k.connect world := by
    cases ending with
    | connect => rfl
    | fail cause => cases hok
    | abort cause => cases hok
  cases script with
  | nil =>
    obtain ⟨hok, hrest⟩ := Prod.mk.inj h
    exact Prod.ext hok (Prod.mk.inj hrest).2
  | cons c script =>
    obtain ⟨hok, hrest⟩ := Prod.mk.inj h
    rw [← hfinish hok]
    exact Prod.ext hok (Prod.mk.inj hrest).2

theorem toTarget_ok {c : Connection} (h : (toTarget target settings).connect e = (.ok c, f)) :
    c.isOpen = true ∧ f.counters.opened = e.counters.opened + 1 := by
  simp only [toTarget, Connection.connect] at h
  cases hc : e.connect target settings.openMode with
  | mk result g =>
    rw [hc] at h
    cases result with
    | error error => cases h
    | ok raw =>
      obtain ⟨-, hopen, databases, rfl⟩ := Engine.connect_ok hc
      simp only [Connection.ofRaw?] at h
      cases hs : StatementCache.ofSettings? settings.statementCache with
      | none =>
        rw [hs] at h
        cases h
      | some cache =>
        rw [hs] at h
        cases h
        exact ⟨hopen, rfl⟩

theorem toTarget_closes (target : String) (settings : ConnectionSettings) (e : Engine) :
    ((toTarget target settings).connect e).2.counters.closed = e.counters.closed ∧
      ((toTarget target settings).connect e).2.faults.closes = e.faults.closes := by
  simp only [toTarget, Connection.connect]
  cases hc : e.connect target settings.openMode with
  | mk result g =>
    cases result with
    | error error =>
      have hcalm := Engine.connect_error hc
      exact ⟨hcalm.closed, hcalm.closes⟩
    | ok raw =>
      obtain ⟨-, -, databases, rfl⟩ := Engine.connect_ok hc
      dsimp only
      split <;> exact ⟨rfl, rfl⟩

theorem call_closes (target : String) (settings : ConnectionSettings)
    (x : List FactoryCall × Engine) :
    ((toTarget target settings).call x).2.2.counters.closed = x.2.counters.closed ∧
      ((toTarget target settings).call x).2.2.faults.closes = x.2.faults.closes := by
  obtain ⟨script, e⟩ := x
  cases script with
  | nil => exact toTarget_closes target settings e
  | cons c script =>
    obtain ⟨uses, ending⟩ := c
    cases ending with
    | connect => exact toTarget_closes target settings e
    | fail cause => exact ⟨rfl, rfl⟩
    | abort cause => exact ⟨rfl, rfl⟩

theorem Calls.closes {outcomes : List (Attempt String Connection)} {x y : List FactoryCall × Engine}
    (h : (toTarget target settings).Calls x outcomes y) :
    y.2.counters.closed = x.2.counters.closed ∧ y.2.faults.closes = x.2.faults.closes := by
  induction h with
  | none => exact ⟨rfl, rfl⟩
  | @next x y z outcome outcomes hc _ ih =>
    have hcall := call_closes target settings x
    rw [hc] at hcall
    exact ⟨ih.1.trans hcall.1, ih.2.trans hcall.2⟩

theorem Calls.opened {x y : List FactoryCall × Engine}
    (h : (toTarget target settings).Calls x (conns.map .ok) y) :
    (∀ c ∈ conns, c.isOpen = true) ∧ y.2.counters.opened = x.2.counters.opened + conns.length := by
  induction conns generalizing x with
  | nil =>
    cases h
    exact ⟨List.forall_mem_nil _, rfl⟩
  | cons c conns ih =>
    cases h with
    | @next _ v _ _ _ hc hrest =>
      obtain ⟨rest, f⟩ := v
      obtain ⟨hopen, hone⟩ := toTarget_ok (connect_of_call hc)
      obtain ⟨hall, hopened⟩ := ih hrest
      refine ⟨List.forall_mem_cons.mpr ⟨hopen, hall⟩, ?_⟩
      rw [hopened, hone, List.length_cons]
      omega

end Connector

theorem Connection.closing_destroyEach {e : Engine} {conns : List Connection}
    (he : e.faults.closes = 0) (hopen : ∀ c ∈ conns, c.isOpen = true) :
    e.Closing conns.length (conns.foldl (fun e c => c.destroy e) e) := by
  induction conns generalizing e with
  | nil => exact .refl e
  | cons c conns ih =>
    obtain ⟨hc, hrest⟩ := List.forall_mem_cons.mp hopen
    have hcalm : e.Calm (c.clearCache e).2 := e.calm_finalizeAll _
    have hone := hcalm.trans (c.closing_destroy he)
    rw [hc] at hone
    have hall := hone.trans (ih (hone.closes.trans he) hrest)
    have hn : 0 + Bool.toNat true + conns.length = (c :: conns).length := by
      simp only [List.length_cons, Bool.toNat_true]
      omega
    rwa [hn] at hall

namespace PoolSettings

/-- Whether a pool with these settings may be built. -/
def IsValid (s : PoolSettings) : Prop :=
  0 < s.maxConnections ∧ s.minConnections ≤ s.maxConnections

theorem validate_cases (s : PoolSettings) :
    s.IsValid ∧ s.validate = .ok () ∨
      ¬ s.IsValid ∧ ∃ reason, s.validate = .error (.settings reason) := by
  unfold validate IsValid
  split
  · exact .inr ⟨by omega, _, rfl⟩
  · split
    · exact .inr ⟨by omega, _, rfl⟩
    · exact .inl ⟨by omega, rfl⟩

theorem validate_of {s : PoolSettings} (h : s.IsValid) : s.validate = .ok () :=
  s.validate_cases.elim And.right fun hno => absurd h hno.1

end PoolSettings

namespace Workplace

theorem foldl_destroy (k : Connector ω α) (members : List (Member α)) (world : ω) :
    destroyAll k members world =
      (members.map Member.conn).foldl (fun world conn => k.destroy conn world) world := by
  rw [destroyAll, List.foldl_map]

end Workplace

namespace Pool

open Workplace

variable {k : Connector ω α} {settings : PoolSettings} {given rest : List FactoryCall}
  {world after : ω} {conns : List α} {b : Breakdown}

theorem build_made (hv : settings.validate = .ok ()) (hn : conns.length = settings.minConnections)
    (h : k.Calls (given, world) (conns.map .ok) (rest, after)) :
    Pool.build k settings (some given) world =
      (.ok (conns.foldl Pool.stock (Pool.empty settings), rest), after) := by
  have hwarm := warmUp_calls (n := 0) (w := ⟨Pool.empty settings, given, [], world⟩) h
  rw [Nat.add_zero, hn] at hwarm
  rw [Pool.build, hv]
  simp only [hwarm, warmUp]

theorem build_broken (hv : settings.validate = .ok ()) (hn : conns.length < settings.minConnections)
    (h : k.Calls (given, world) (conns.map .ok ++ [b.ofCall]) (rest, after)) :
    Pool.build k settings (some given) world =
      (b.answer, conns.foldl (fun world conn => k.destroy conn world) after) := by
  obtain ⟨⟨script, left⟩, hmade, hlast⟩ := h.of_append
  obtain ⟨n, hmin⟩ : ∃ n, settings.minConnections = conns.length + (n + 1) :=
    ⟨settings.minConnections - conns.length - 1, by omega⟩
  have hwarm := warmUp_calls (n := n + 1) (w := ⟨Pool.empty settings, given, [], world⟩) hmade
  rw [warmUp_broken hlast.of_singleton, ← hmin] at hwarm
  have hstocked := (Stocked.empty settings).stockAll conns
  -- The slot of the call that broke down has no connection.
  have hidle : (b.settle (conns.foldl Pool.stock (Pool.empty settings)).takeSlot.takeId.2).idle =
      (conns.foldl Pool.stock (Pool.empty settings)).idle := by cases b <;> rfl
  have hconns : ((b.settle (conns.foldl Pool.stock
      (Pool.empty settings)).takeSlot.takeId.2).idle.reverse).map Member.conn = conns := by
    rw [hidle, List.map_reverse, hstocked.conns_eq, List.nil_append, List.reverse_reverse]
  rw [Pool.build, hv]
  simp only [hwarm]
  cases b with
  | refused cause => simp only [Breakdown.answer, foldl_destroy, hconns]
  | aborted cause => simp only [Breakdown.answer, foldl_destroy, hconns]

theorem build_rejected {reason : String} {script : Option (List FactoryCall)}
    (hv : settings.validate = .error (.settings reason)) :
    Pool.build k settings script world = (.refused (.settings reason), world) := by
  unfold Pool.build
  rw [hv]

theorem build_without (hv : settings.validate = .ok ()) :
    Pool.build k settings none world =
      (.refused (.settings "a connection factory is required"), world) := by
  unfold Pool.build
  rw [hv]

/-- A pool is not built at all, or it is built in full, or the first call to break down ends it. -/
theorem build_cases (k : Connector ω α) (settings : PoolSettings)
    (script : Option (List FactoryCall)) (world : ω) :
    (¬ settings.IsValid ∨ script = none) ∧
        (∃ reason, Pool.build k settings script world = (.refused (.settings reason), world)) ∨
      settings.IsValid ∧ ∃ given, script = some given ∧
        ((∃ (conns : List α) (y : List FactoryCall × ω), conns.length = settings.minConnections ∧
            k.Calls (given, world) (conns.map .ok) y ∧ Pool.build k settings script world =
              (.ok (conns.foldl Pool.stock (Pool.empty settings), y.1), y.2)) ∨
          ∃ (conns : List α) (b : Breakdown) (y : List FactoryCall × ω),
            conns.length < settings.minConnections ∧
            k.Calls (given, world) (conns.map .ok ++ [b.ofCall]) y ∧
            Pool.build k settings script world =
              (b.answer, conns.foldl (fun world conn => k.destroy conn world) y.2)) := by
  obtain ⟨hvalid, hv⟩ | ⟨hinvalid, reason, hv⟩ := settings.validate_cases
  · cases script with
    | none => exact .inl ⟨.inr rfl, _, build_without hv⟩
    | some given =>
      refine .inr ⟨hvalid, given, rfl, ?_⟩
      obtain ⟨conns, y, hn, hall⟩ | ⟨conns, b, y, hn, hfirst⟩ :=
        k.calls_or_broken settings.minConnections (given, world)
      · exact .inl ⟨conns, y, hn, hall, build_made hv hn hall⟩
      · exact .inr ⟨conns, b, y, hn, hfirst, build_broken hv hn hfirst⟩
  · exact .inl ⟨.inl hinvalid, reason, build_rejected hv⟩

theorem build_eq_ok {script : Option (List FactoryCall)} {p : Pool α}
    (h : Pool.build k settings script world = (.ok (p, rest), after)) :
    settings.IsValid ∧ ∃ given conns, script = some given ∧
      conns.length = settings.minConnections ∧
      k.Calls (given, world) (conns.map .ok) (rest, after) ∧ p.Stocked settings conns := by
  obtain ⟨-, reason, hbuild⟩ | ⟨hvalid, given, hgiven, hmade | ⟨conns, b, y, -, -, hbuild⟩⟩ :=
    build_cases k settings script world
  · rw [hbuild] at h
    cases h
  · obtain ⟨conns, y, hn, hcalls, hbuild⟩ := hmade
    rw [hbuild] at h
    cases h
    exact ⟨hvalid, given, conns, hgiven, hn, hcalls, (Stocked.empty settings).stockAll conns⟩
  · rw [hbuild] at h
    cases b <;> cases h

/-- What comes of building a pool. -/
structure Builds (k : Connector ω α) (settings : PoolSettings)
    (script : Option (List FactoryCall)) (world : ω) : Prop where
  succeeds_iff : (∃ p rest after, Pool.build k settings script world = (.ok (p, rest), after)) ↔
    0 < settings.maxConnections ∧ settings.minConnections ≤ settings.maxConnections ∧
      ∃ (given : List FactoryCall) (conns : List α) (y : List FactoryCall × ω),
        script = some given ∧ conns.length = settings.minConnections ∧
        k.Calls (given, world) (conns.map .ok) y
  /-- A pool that is built has made what it was asked for, and nothing else has happened. -/
  stocked : ∀ p rest after, Pool.build k settings script world = (.ok (p, rest), after) →
    ∃ (given : List FactoryCall) (conns : List α), script = some given ∧
      conns.length = settings.minConnections ∧
      k.Calls (given, world) (conns.map .ok) (rest, after) ∧ p.Stocked settings conns ∧
      p.status = ⟨settings.minConnections, 0, settings.minConnections, settings.maxConnections⟩
  /-- The first callers get what was made last, none of them by a factory call. -/
  served : ∀ p rest after, Pool.build k settings script world = (.ok (p, rest), after) →
    ∀ (reentrant : Bool) (w : Workplace ω α), w.pool = p →
      ∃ v, w.Served (Answers k reentrant) (p.idle.map Member.recordCheckout) v ∧ w.Emptied v
  /-- So do those who wait as long as the settings say, each at a moment from which the clock can
  name the deadline. -/
  acquired : ∀ p rest after, Pool.build k settings script world = (.ok (p, rest), after) →
    ∀ (reentrant : Bool) (w : Workplace ω α), w.pool = p →
      ∃ v, w.Served (fun v answer after =>
          ∀ now, (∀ limit ∈ settings.connectionTimeout, limit.fitsClock now) →
            v.acquire k reentrant now = (.answered answer, after))
        (p.idle.map Member.recordCheckout) v ∧ w.Emptied v
  /-- From any other moment they get nothing, whatever is idle. -/
  overdue : ∀ now, ∀ limit ∈ settings.connectionTimeout, limit.fitsClock now = false →
    ∀ p rest after, Pool.build k settings script world = (.ok (p, rest), after) →
    ∀ (reentrant : Bool) (w : Workplace ω α), w.pool = p → w.acquire k reentrant now =
      (.answered (.aborted "overflow when adding duration to instant"), w)
  rejected : ¬ (0 < settings.maxConnections ∧ settings.minConnections ≤ settings.maxConnections) ∨
      script = none →
    ∃ reason, Pool.build k settings script world = (.refused (.settings reason), world)
  /-- The call that breaks down is the last, and what was made before it is ended. -/
  broken : ∀ (given : List FactoryCall) (conns : List α) (b : Breakdown)
      (y : List FactoryCall × ω), script = some given → 0 < settings.maxConnections →
    settings.minConnections ≤ settings.maxConnections → conns.length < settings.minConnections →
    k.Calls (given, world) (conns.map .ok ++ [b.ofCall]) y →
    Pool.build k settings script world =
      (b.answer, conns.foldl (fun world conn => k.destroy conn world) y.2)

theorem builds (k : Connector ω α) (settings : PoolSettings)
    (script : Option (List FactoryCall)) (world : ω) : Builds k settings script world where
  succeeds_iff := by
    constructor
    · rintro ⟨p, rest, after, h⟩
      obtain ⟨⟨hmax, hmin⟩, given, conns, hgiven, hn, hcalls, -⟩ := build_eq_ok h
      exact ⟨hmax, hmin, given, conns, _, hgiven, hn, hcalls⟩
    · rintro ⟨hmax, hmin, given, conns, ⟨rest, after⟩, rfl, hn, hcalls⟩
      exact ⟨_, rest, after, build_made (settings.validate_of ⟨hmax, hmin⟩) hn hcalls⟩
  stocked := by
    intro p rest after h
    obtain ⟨-, given, conns, hgiven, hn, hcalls, hstocked⟩ := build_eq_ok h
    exact ⟨given, conns, hgiven, hn, hcalls, hstocked, hn ▸ hstocked.status_eq⟩
  served := by
    intro p rest after h reentrant w hw
    obtain ⟨-, given, conns, -, -, -, hstocked⟩ := build_eq_ok h
    subst hw
    exact served_idle (fun _ _ ho _ _ hi => answers_of_idle ho hi) hstocked.isOpen rfl
  acquired := by
    intro p rest after h reentrant w hw
    obtain ⟨-, given, conns, -, -, -, hstocked⟩ := build_eq_ok h
    subst hw
    refine served_idle (fun v hv ho m rest hi now hfits => ?_) hstocked.isOpen rfl
    rw [← hstocked.settings_eq, ← hv] at hfits
    exact (answers_of_idle ho hi).acquire_eq hfits
  overdue := by
    intro now limit hlimit hlate p rest after h reentrant w hw
    obtain ⟨-, given, conns, -, -, -, hstocked⟩ := build_eq_ok h
    have htimeout : w.pool.settings.connectionTimeout = some limit := by
      rw [hw, hstocked.settings_eq]
      exact hlimit
    rw [acquire, htimeout]
    exact acquireWithin_overdue hlate w
  rejected := by
    intro hreject
    obtain ⟨-, hbuild⟩ | ⟨hvalid, given, rfl, -⟩ := build_cases k settings script world
    · exact hbuild
    · cases hreject with
      | inl hinvalid => exact absurd hvalid hinvalid
      | inr hnone => cases hnone
  broken := by
    rintro given conns b ⟨rest, after⟩ rfl hmax hmin hn hcalls
    exact build_broken (settings.validate_of ⟨hmax, hmin⟩) hn hcalls

/-- Connections to a target that were opened in vain are all closed, and only after the call that
broke down. -/
theorem build_closes {target : String} {connection : ConnectionSettings} {e : Engine}
    {conns : List Connection} {y : List FactoryCall × Engine} (he : e.faults.closes = 0)
    (h : (Connector.toTarget target connection).Calls (given, e) (conns.map .ok ++ [b.ofCall]) y) :
    (∀ c ∈ conns, c.isOpen = true) ∧ y.2.counters.closed = e.counters.closed ∧
      (∃ x : List FactoryCall × Engine,
        (Connector.toTarget target connection).Calls (given, e) (conns.map .ok) x ∧
          x.2.counters.opened = e.counters.opened + conns.length) ∧
      y.2.Closing conns.length (conns.foldl (fun e c => c.destroy e) y.2) := by
  obtain ⟨x, hmade, -⟩ := h.of_append
  obtain ⟨hopen, hopened⟩ := hmade.opened
  obtain ⟨hclosed, hfaults⟩ := h.closes
  exact ⟨hopen, hclosed, ⟨x, hmade, hopened⟩,
    Connection.closing_destroyEach (hfaults.trans he) hopen⟩

/-- A pool is built in full or not at all, whatever its factory does. Its first callers get what it
made, the latest first, unless they are to wait until a moment that the clock cannot name. The
connections that a pool of one target opened in vain are closed. -/
theorem build_all_or_nothing (ω α : Type) :
    (∀ (k : Connector ω α) (settings : PoolSettings) (script : Option (List FactoryCall))
        (world : ω), Builds k settings script world) ∧
      ∀ (target : String) (connection : ConnectionSettings) (settings : PoolSettings)
        (given : List FactoryCall) (e : Engine) (conns : List Connection) (b : Breakdown)
        (y : List FactoryCall × Engine), e.faults.closes = 0 → 0 < settings.maxConnections →
        settings.minConnections ≤ settings.maxConnections →
        conns.length < settings.minConnections →
        (Connector.toTarget target connection).Calls (given, e) (conns.map .ok ++ [b.ofCall]) y →
        ∃ final,
          Pool.build (Connector.toTarget target connection) settings (some given) e =
            (b.answer, final) ∧
          (∀ c ∈ conns, c.isOpen = true) ∧ y.2.counters.closed = e.counters.closed ∧
          (∃ x : List FactoryCall × Engine,
            (Connector.toTarget target connection).Calls (given, e) (conns.map .ok) x ∧
              x.2.counters.opened = e.counters.opened + conns.length) ∧
          y.2.Closing conns.length final := by
  refine ⟨builds, ?_⟩
  intro target connection settings given e conns b y he hmax hmin hn hcalls
  have hbuild := (builds (Connector.toTarget target connection) settings (some given) e).broken
    given conns b y rfl hmax hmin hn hcalls
  exact ⟨_, hbuild, build_closes he hcalls⟩

/-- Two connections are made and the third call aborts. -/
private def faltering : List FactoryCall := [{}, {}, ⟨[], .abort "down"⟩]

/-- The two connections are closed again. -/
theorem build_all_or_nothing_aborted :
    ∃ final,
      Pool.build (Connector.toTarget ":memory:" {}) { minConnections := 3 } (some faltering) {} =
        (.aborted "down", final) ∧
      final.counters.opened = 2 ∧ final.counters.closed = 2 := by
  have hcalls : (Connector.toTarget ":memory:" {}).Calls (faltering, {}) _ _ :=
    .next rfl (.next rfl (.next rfl (.none _)))
  obtain ⟨final, hbuild, -, hbefore, -, hclosing⟩ := (build_all_or_nothing Nat Nat).2 ":memory:" {}
    { minConnections := 3 } faltering {} [_, _] (.aborted "down") _ rfl (by decide) (by decide)
    (by decide) hcalls
  refine ⟨final, hbuild, hclosing.opened.trans rfl, ?_⟩
  rw [hclosing.closed, hbefore]
  rfl

/-- A pool of one whose callers are to wait for longer than the clock can tell, whenever they
come. -/
private def patient : PoolSettings where
  minConnections := 1
  maxConnections := 1
  connectionTimeout := some overlongTimeout

/-- A pool with one connection idle, and its caller gets none. -/
theorem first_caller_aborted :
    ∃ p : Pool Nat, Pool.build countingConnector patient (some []) 0 = (.ok (p, []), 1) ∧
      p.idle = [⟨0, .fresh 1⟩] ∧ p.closed = false ∧ ∀ w : Workplace Nat Nat, w.pool = p →
        w.tryAcquire countingConnector false =
          (.ok (some ⟨0, ⟨1, true, 1⟩⟩), { w with pool := { p with idle := [] }.countCheckout }) ∧
        ∀ now, w.acquire countingConnector false now =
          (.answered (.aborted "overflow when adding duration to instant"), w) := by
  refine ⟨_, rfl, rfl, rfl, ?_⟩
  rintro ⟨pool, script, log, world⟩ rfl
  exact ⟨rfl, fun now => acquireWithin_overdue (fitsClock_overlongTimeout now) _⟩

end Pool

end ConnectionPool

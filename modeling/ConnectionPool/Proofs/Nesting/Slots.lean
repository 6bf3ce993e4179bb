import ConnectionPool.Proofs.Nesting.Tower
import Mathlib.Data.List.Perm.Basic

/-!
# Slots of nested calls

Each factory call in progress keeps the slot that it took, and what inner calls give up are slots of
their own. So calls nest no deeper than the slots that were free at the outset, and the caller who
asks from there hears that there is nothing for it.
-/

namespace ConnectionPool

variable {α : Type}

/-- One for a factory call at work. -/
def Stage.height : Stage α → Nat
  | .working _ _ => 1
  | _ => 0

/-- The leases that the call on top holds, or that the outermost caller got. -/
def Stage.out : Stage α → List (Member α)
  | .working frame _ => frame.held
  | .answered answer => answer.member?.toList
  | .asking => []

namespace Tower

/-- How many factory calls are in progress. -/
def depth (t : Tower α) : Nat := t.stage.height + t.waiting.length

/-- Leases that are not back. -/
def out (t : Tower α) : List (Member α) :=
  t.stage.out ++ t.waiting.flatMap fun call => call.frame.held

variable {factory : Nat → Conduct α → Prop} {p q : Pool α} {t u : Tower α}
  {waiting : List (Waiting α)} {made : List (Nat × α)} {answer : Acquired α}

theorem pool_hear : (hear waiting made p answer).pool = p := by cases waiting <;> rfl

theorem made_hear : (hear waiting made p answer).made = made := by cases waiting <;> rfl

theorem depth_asking : depth ⟨p, .asking, waiting, made⟩ = waiting.length := Nat.zero_add _

theorem depth_working {frame : Frame α} {c : Conduct α} :
    depth ⟨p, .working frame c, waiting, made⟩ = waiting.length + 1 := Nat.add_comm _ _

theorem depth_hear : (hear waiting made p answer).depth = waiting.length := by
  cases waiting with
  | nil => rfl
  | cons call waiting => exact depth_working

theorem out_hear : (hear waiting made p answer).out =
    answer.member?.toList ++ waiting.flatMap fun call => call.frame.held := by
  cases waiting with
  | nil => rfl
  | cons call waiting => exact List.append_assoc _ _ _

/-- The books of a tower that rose from `p`, where a connection had to be made: as long as the pool
is open, each factory call in progress has a slot of its own, beside the connections that are idle
or out and the slots that were taken before. -/
structure Counted (p : Pool α) (t : Tower α) : Prop where
  settings_eq : t.pool.settings = p.settings
  depth_le : t.depth ≤ p.freeSlots
  claimed : t.pool.closed = false →
    p.created + t.depth + t.out.length + t.pool.idle.length ≤ t.pool.created
  room : t.pool.closed = false → t.pool.created ≤ p.settings.maxConnections

namespace Counted

theorem outset (hp : p.MustCreate) : Counted p (outset p) where
  settings_eq := rfl
  depth_le := Nat.zero_le _
  claimed _ := by
    have hidle : p.idle.length = 0 := congrArg List.length hp.idle_nil
    simp only [Tower.outset, depth, out, Stage.height, Stage.out, List.flatMap_nil,
      List.append_nil, List.length_nil]
    omega
  room _ := Nat.le_of_lt hp.room

theorem hear (hs : q.settings = p.settings) (hd : waiting.length ≤ p.freeSlots)
    (hclaimed : q.closed = false → p.created + waiting.length +
      (answer.member?.toList.length + (waiting.flatMap fun call => call.frame.held).length) +
      q.idle.length ≤ q.created)
    (hroom : q.closed = false → q.created ≤ p.settings.maxConnections) :
    Counted p (hear waiting made q answer) where
  settings_eq := by rwa [pool_hear]
  depth_le := by rwa [depth_hear]
  claimed := by rwa [pool_hear, depth_hear, out_hear, List.length_append]
  room := by rwa [pool_hear]

theorem of_asking (h : Counted p ⟨q, .asking, waiting, made⟩) :
    waiting.length ≤ p.freeSlots ∧ (q.closed = false →
      p.created + waiting.length + (waiting.flatMap fun call => call.frame.held).length +
        q.idle.length ≤ q.created) := by
  have hdepth := h.depth_le
  have hclaimed := h.claimed
  simp only [depth, out, Stage.height, Stage.out, Nat.zero_add, List.nil_append] at hdepth hclaimed
  exact ⟨hdepth, hclaimed⟩

theorem of_working {frame : Frame α} {c : Conduct α}
    (h : Counted p ⟨q, .working frame c, waiting, made⟩) :
    waiting.length + 1 ≤ p.freeSlots ∧ (q.closed = false →
      p.created + waiting.length + 1 + frame.held.length +
        (waiting.flatMap fun call => call.frame.held).length + q.idle.length ≤ q.created) := by
  have hdepth := h.depth_le
  have hclaimed := h.claimed
  simp only [depth, out, Stage.height, Stage.out, List.length_append] at hdepth hclaimed
  refine ⟨by omega, fun ho => ?_⟩
  have hle := hclaimed ho
  omega

theorem goesOn {frame : Frame α} {c c' : Conduct α}
    (h : Counted p ⟨q, .working frame c, waiting, made⟩) :
    Counted p ⟨q, .working frame c', waiting, made⟩ :=
  ⟨h.settings_eq, h.depth_le, h.claimed, h.room⟩

theorem drops {frame frame' : Frame α} {c c' : Conduct α}
    (h : Counted p ⟨q, .working frame c, waiting, made⟩) (m : Member α)
    (hheld : frame.held.length = frame'.held.length + 1) :
    Counted p ⟨(q.giveBack m).2, .working frame' c', waiting, made⟩ where
  settings_eq := (q.settings_giveBack m).trans h.settings_eq
  depth_le := h.depth_le
  claimed := by
    intro hopen
    rw [q.closed_giveBack] at hopen
    have hclaimed := h.of_working.2 hopen
    rw [q.giveBack_of_open hopen]
    simp only [depth, out, Stage.height, Stage.out, Pool.countReturn, Pool.addIdle,
      List.length_append, List.length_cons]
    omega
  room := by
    intro hopen
    rw [q.closed_giveBack] at hopen
    rw [q.giveBack_of_open hopen]
    exact h.room hopen

theorem gives_up {frame : Frame α} {c : Conduct α}
    (h : Counted p ⟨q, .working frame c, waiting, made⟩) (hanswer : answer.member? = none)
    {after : Pool α} (hafter : after = { q.freeSlot with metrics := after.metrics }) :
    Counted p (Tower.hear waiting made after answer) := by
  obtain ⟨hdepth, hclaimed⟩ := h.of_working
  have hroom := h.room
  rw [hafter]
  refine .hear h.settings_eq (by omega) (fun hopen => ?_) (fun hopen => ?_)
  · have hle := hclaimed hopen
    rw [hanswer]
    simp only [Pool.freeSlot, Option.toList_none, List.length_nil]
    omega
  · exact (Nat.sub_le _ _).trans (hroom hopen)

/-- A step keeps the books. A factory call begins with a slot that was free. -/
theorem step (h : Counted p t) (hs : Step factory t u) : Counted p u := by
  cases hs with
  | @refuse q waiting made hi =>
    have hclosed : q.closed = true := Pool.inspect_eq_closed.mp hi
    have hopen (ho : q.countRefusal.closed = false) : False :=
      Bool.false_ne_true (ho.symm.trans hclosed)
    exact .hear h.settings_eq h.of_asking.1 (fun ho => (hopen ho).elim) fun ho => (hopen ho).elim
  | decline =>
    refine .hear h.settings_eq h.of_asking.1 (fun hopen => ?_) h.room
    have hle := h.of_asking.2 hopen
    simp only [Acquired.member?, Option.toList_none, List.length_nil]
    omega
  | @reuse q waiting made m after hi =>
    obtain ⟨hopen, hidle, hafter⟩ := Pool.inspect_eq_reuse hi
    have hle := h.of_asking.2 hopen
    have hidle := congrArg List.length hidle
    have hcreated : after.countCheckout.created = q.created := by rw [hafter]; rfl
    have hsettings : after.countCheckout.settings = q.settings := by rw [hafter]; rfl
    refine .hear (hsettings.trans h.settings_eq) h.of_asking.1 (fun _ => ?_) (fun _ => ?_)
    · simp only [Acquired.member?, Option.toList_some, List.length_cons, List.length_nil]
        at hidle ⊢
      rw [hcreated]
      have hsame : after.countCheckout.idle = after.idle := rfl
      rw [hsame]
      omega
    · rw [hcreated]
      exact h.room hopen
  | @create q waiting made after c hi =>
    obtain ⟨hopen, hidle, hlt, rfl⟩ := Pool.inspect_eq_create.mp hi
    obtain ⟨-, hclaimed⟩ := h.of_asking
    have hle := hclaimed hopen
    have hsettings := h.settings_eq
    rw [show q.settings = p.settings from hsettings] at hlt
    have hcreated : q.takeSlot.takeId.2.created = q.created + 1 := rfl
    have hlength : q.takeSlot.takeId.2.idle = q.idle := rfl
    refine ⟨hsettings, ?_, fun _ => ?_, fun _ => ?_⟩
    · simp only [depth, Stage.height, Pool.freeSlots]
      omega
    · simp only [depth, out, Stage.height, Stage.out, List.nil_append]
      rw [hcreated, hlength]
      omega
    · rw [hcreated]
      omega
  | probe => exact h.goesOn
  | @close q frame next waiting made =>
    have hopen (ho : q.close.2.closed = false) : False := Bool.false_ne_true ho.symm
    exact ⟨h.settings_eq, h.depth_le, fun ho => (hopen ho).elim, fun ho => (hopen ho).elim⟩
  | reenter =>
    obtain ⟨hdepth, hclaimed⟩ := h.of_working
    refine ⟨h.settings_eq, ?_, fun hopen => ?_, h.room⟩
    · simp only [depth, Stage.height, List.length_cons]
      omega
    · have hle := hclaimed hopen
      simp only [depth, out, Stage.height, Stage.out, List.length_cons, List.nil_append,
        List.flatMap_cons, List.length_append]
      omega
  | @letGo q frame i m next waiting made hm =>
    obtain ⟨hlt, -⟩ := List.getElem?_eq_some_iff.mp hm
    have hlength : frame.held.length = (frame.held.eraseIdx i).length + 1 := by
      rw [List.length_eraseIdx_of_lt hlt]
      omega
    exact h.drops m hlength
  | letNothingGo => exact h.goesOn
  | leave => exact h.drops _ rfl
  | make =>
    obtain ⟨hdepth, hclaimed⟩ := h.of_working
    refine .hear h.settings_eq (by omega) (fun hopen => ?_) h.room
    have hle := hclaimed hopen
    simp only [Acquired.member?, Option.toList_some, List.length_singleton, List.length_nil,
      Pool.countCheckout, Pool.countCreated] at hle ⊢
    omega
  | fail => exact h.gives_up rfl rfl
  | abort => exact h.gives_up rfl rfl

theorem reached (hp : p.MustCreate) (hr : Reaches factory (Tower.outset p) t) : Counted p t := by
  induction hr with
  | refl => exact .outset hp
  | tail _ hs ih => exact ih.step hs

/-- Where as many calls are nested as there were free slots, the next is refused or finds nothing,
and leaves the pool to its callers. -/
theorem turned_away (h : Counted p ⟨q, .asking, waiting, made⟩) (hp : p.MustCreate)
    (hfull : waiting.length = p.freeSlots) (hs : Step factory ⟨q, .asking, waiting, made⟩ u) :
    u = Tower.hear waiting made q (.ok none) ∨
      u = Tower.hear waiting made q.countRefusal (.refused .closed) := by
  have hroom := hp.room
  rw [Pool.freeSlots] at hfull
  cases hs with
  | refuse => exact .inr rfl
  | decline => exact .inl rfl
  | reuse hi =>
    obtain ⟨hopen, hidle, -⟩ := Pool.inspect_eq_reuse hi
    have hle := h.of_asking.2 hopen
    have hmax := h.room hopen
    rw [hidle, List.length_cons] at hle
    simp only at hmax
    omega
  | create hi =>
    obtain ⟨hopen, -, hlt, -⟩ := Pool.inspect_eq_create.mp hi
    have hle := h.of_asking.2 hopen
    have hsettings : q.settings = p.settings := h.settings_eq
    rw [hsettings] at hlt
    omega

end Counted

end Tower

end ConnectionPool

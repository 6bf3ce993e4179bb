import ConnectionPool.Proofs.Nesting.Failure
import ConnectionPool.Proofs.Traffic.Sequential
import Mathlib.Logic.Relation

/-!
# Towers of factory calls

A caller asks a pool, the factory call this leads to asks it again, and so on: each of the calls in
progress waits for the answer to the one above it. A factory call does as it pleases with its pool
and goes by what it hears, for as long as it likes, but not for ever. It drops all leases before it
ends.
-/

namespace ConnectionPool

variable {α : Type}

/-- What a factory call does with its pool from now on, and how it ends. -/
inductive Conduct (α : Type) where
  | finish (outcome : Attempt String α)
  | probe (next : Status → Bool → Conduct α)
  | close (next : Conduct α)
  /-- Ask for a connection without waiting. -/
  | reenter (next : Acquired α → Conduct α)
  /-- Drop one of the leases held, if there is one in this place. -/
  | letGo (i : Nat) (next : Conduct α)

/-- A factory call in progress: the number of its connection and the leases that it holds. -/
structure Frame (α : Type) where
  id : Nat
  held : List (Member α)
  hasAsked : Bool

def Frame.hear (frame : Frame α) (answer : Acquired α) : Frame α :=
  { frame with held := answer.member?.toList ++ frame.held, hasAsked := true }

/-- A factory call that has asked its pool, and what it makes of the answer. -/
structure Waiting (α : Type) where
  frame : Frame α
  next : Acquired α → Conduct α

inductive Stage (α : Type) where
  /-- About to look at the pool. -/
  | asking
  | working (frame : Frame α) (conduct : Conduct α)
  /-- The outermost caller has its answer. -/
  | answered (answer : Acquired α)

/-- The books, the call on top, the factory calls that wait below it, the innermost first, and the
connections made so far by their numbers. -/
structure Tower (α : Type) where
  pool : Pool α
  stage : Stage α
  waiting : List (Waiting α)
  made : List (Nat × α)

namespace Tower

/-- A caller who is about to look at the pool. -/
def outset (p : Pool α) : Tower α := ⟨p, .asking, [], []⟩

/-- The call on top is over and the one below hears of it. -/
def hear (waiting : List (Waiting α)) (made : List (Nat × α)) (p : Pool α)
    (answer : Acquired α) : Tower α :=
  match waiting with
  | [] => ⟨p, .answered answer, [], made⟩
  | call :: waiting => ⟨p, .working (call.frame.hear answer) (call.next answer), waiting, made⟩

/-- What comes next, where the factory may conduct itself like this in the call with that number. -/
inductive Step (factory : Nat → Conduct α → Prop) : Tower α → Tower α → Prop
  | refuse {p waiting made} : p.inspect = .closed →
      Step factory ⟨p, .asking, waiting, made⟩
        (hear waiting made p.countRefusal (.refused .closed))
  | decline {p waiting made} : p.inspect = .full →
      Step factory ⟨p, .asking, waiting, made⟩ (hear waiting made p (.ok none))
  | reuse {p waiting made m after} : p.inspect = .granted (.reuse m) after →
      Step factory ⟨p, .asking, waiting, made⟩
        (hear waiting made after.countCheckout (.ok (some m.recordCheckout)))
  | create {p waiting made after c} : p.inspect = .granted .create after →
      factory after.takeId.1 c →
      Step factory ⟨p, .asking, waiting, made⟩
        ⟨after.takeId.2, .working ⟨after.takeId.1, [], false⟩ c, waiting, made⟩
  | probe {p frame next waiting made} :
      Step factory ⟨p, .working frame (.probe next), waiting, made⟩
        ⟨p, .working frame (next p.status p.closed), waiting, made⟩
  | close {p frame next waiting made} :
      Step factory ⟨p, .working frame (.close next), waiting, made⟩
        ⟨p.close.2, .working frame next, waiting, made⟩
  | reenter {p frame next waiting made} :
      Step factory ⟨p, .working frame (.reenter next), waiting, made⟩
        ⟨p, .asking, ⟨frame, next⟩ :: waiting, made⟩
  | letGo {p frame i m next waiting made} : frame.held[i]? = some m →
      Step factory ⟨p, .working frame (.letGo i next), waiting, made⟩
        ⟨(p.giveBack m).2, .working { frame with held := frame.held.eraseIdx i } next, waiting,
          made⟩
  | letNothingGo {p frame i next waiting made} : frame.held[i]? = none →
      Step factory ⟨p, .working frame (.letGo i next), waiting, made⟩
        ⟨p, .working frame next, waiting, made⟩
  | leave {p id m held asked outcome waiting made} :
      Step factory ⟨p, .working ⟨id, m :: held, asked⟩ (.finish outcome), waiting, made⟩
        ⟨(p.giveBack m).2, .working ⟨id, held, asked⟩ (.finish outcome), waiting, made⟩
  | make {p id asked conn waiting made} :
      Step factory ⟨p, .working ⟨id, [], asked⟩ (.finish (.ok conn)), waiting, made⟩
        (hear waiting ((id, conn) :: made) p.countCreated.countCheckout
          (.ok (some (Member.mk conn (.fresh id)).recordCheckout)))
  | fail {p id asked cause waiting made} :
      Step factory ⟨p, .working ⟨id, [], asked⟩ (.finish (.refused cause)), waiting, made⟩
        (hear waiting made p.freeSlot.countCreationFailure (.refused (.factory cause)))
  | abort {p id asked cause waiting made} :
      Step factory ⟨p, .working ⟨id, [], asked⟩ (.finish (.aborted cause)), waiting, made⟩
        (hear waiting made p.freeSlot (.aborted cause))

abbrev Reaches (factory : Nat → Conduct α → Prop) : Tower α → Tower α → Prop :=
  Relation.ReflTransGen (Step factory)

end Tower

namespace Pool

variable {p after : Pool α}

theorem giveBack_of_open (hc : p.closed = false) (m : Member α) :
    (p.giveBack m).2 = (p.addIdle m).countReturn := by
  rw [giveBack, takeBack_eq_none.mpr ⟨hc, rfl⟩]

theorem settings_giveBack (p : Pool α) (m : Member α) :
    (p.giveBack m).2.settings = p.settings := by
  cases hc : p.closed with
  | false => rw [giveBack_of_open hc]; rfl
  | true => rw [giveBack, takeBack_eq_some.mpr ⟨hc, rfl, rfl⟩]; rfl

theorem closed_giveBack (p : Pool α) (m : Member α) : (p.giveBack m).2.closed = p.closed := by
  cases hc : p.closed with
  | false => rw [giveBack_of_open hc]; exact hc
  | true => rw [giveBack, takeBack_eq_some.mpr ⟨hc, rfl, rfl⟩]; exact hc

/-- How many more factory calls can be nested. -/
def room (p : Pool α) : Nat := if p.closed then 0 else p.freeSlots

theorem room_giveBack_le (p : Pool α) (m : Member α) : (p.giveBack m).2.room ≤ p.room := by
  cases hc : p.closed with
  | false =>
    rw [giveBack_of_open hc]
    exact Nat.le_refl _
  | true =>
    rw [room, if_pos ((p.closed_giveBack m).trans hc)]
    exact Nat.zero_le _

theorem room_freeSlot_le (p : Pool α) : p.freeSlot.room ≤ p.room + 1 := by
  have hslots : p.freeSlot.freeSlots ≤ p.freeSlots + 1 := by
    simp only [freeSlot, freeSlots]
    omega
  cases hc : p.closed with
  | false =>
    have hopen : p.freeSlot.closed = false := hc
    simpa only [room, hc, hopen, Bool.false_eq_true, if_false] using hslots
  | true =>
    have hclosed : p.freeSlot.closed = true := hc
    rw [room, if_pos hclosed]
    exact Nat.zero_le _

theorem room_reuse {m : Member α} (h : p.inspect = .granted (.reuse m) after) :
    after.room = p.room := by
  obtain ⟨-, -, hafter⟩ := inspect_eq_reuse h
  rw [hafter]
  rfl

theorem room_create (h : p.inspect = .granted .create after) : after.room + 1 = p.room := by
  obtain ⟨hopen, -, hlt, rfl⟩ := inspect_eq_create.mp h
  simp only [room, takeSlot, freeSlots, hopen, Bool.false_eq_true, if_false]
  omega

end Pool

namespace Tower

variable {factory : Nat → Conduct α → Prop} {p q : Pool α} {t u : Tower α}
  {waiting : List (Waiting α)} {made : List (Nat × α)}

/-- However the factory conducts itself, nothing goes on from here for ever. -/
def Ends (factory : Nat → Conduct α → Prop) (t : Tower α) : Prop :=
  Acc (fun u t => Step factory t u) t

/-- Whatever the calls that wait here hear, it ends, if no more than so much room is left then. -/
def EndsBelow (factory : Nat → Conduct α → Prop) (room : Nat) (waiting : List (Waiting α)) :
    Prop :=
  ∀ made (p : Pool α) answer, p.room ≤ room → Ends factory (hear waiting made p answer)

theorem ends_answered {answer : Acquired α} : Ends factory ⟨p, .answered answer, waiting, made⟩ :=
  .intro _ fun _ h => nomatch h

/-- A call that has nothing left to do drops its leases and ends. A slot it gives up is room for
the calls below it. -/
theorem ends_finish {room id : Nat} {outcome : Attempt String α} {asked : Bool}
    (hw : EndsBelow factory (room + 1) waiting) (held : List (Member α)) (hp : p.room ≤ room) :
    Ends factory ⟨p, .working ⟨id, held, asked⟩ (.finish outcome), waiting, made⟩ := by
  induction held generalizing p with
  | nil =>
    have hfree := p.room_freeSlot_le
    refine .intro _ fun u h => ?_
    cases h with
    | make => exact hw _ _ _ (Nat.le_succ_of_le hp)
    | fail => exact hw _ p.freeSlot.countCreationFailure _ (hfree.trans (Nat.succ_le_succ hp))
    | abort => exact hw _ _ _ (hfree.trans (Nat.succ_le_succ hp))
  | cons m held ih =>
    refine .intro _ fun u h => ?_
    cases h with
    | leave => exact ih ((p.room_giveBack_le m).trans hp)

theorem ends_asking {room : Nat} (hw : EndsBelow factory room waiting)
    (hworking : ∀ less < room, EndsBelow factory (less + 1) waiting →
      ∀ c frame made (p : Pool α), p.room ≤ less →
        Ends factory ⟨p, .working frame c, waiting, made⟩) (hp : p.room ≤ room) :
    Ends factory ⟨p, .asking, waiting, made⟩ := by
  refine .intro _ fun u h => ?_
  cases h with
  | refuse => exact hw _ p.countRefusal _ hp
  | decline => exact hw _ _ _ hp
  | @reuse _ _ _ m after hi => exact hw _ after.countCheckout _ ((Pool.room_reuse hi).trans_le hp)
  | @create _ _ _ after c hi =>
    have hroom := Pool.room_create hi
    refine hworking after.room (by omega) ?_ c _ _ after.takeId.2 (Nat.le_refl _)
    exact fun made p answer hle => hw made p answer (by omega)

/-- A factory call ends whatever it does. The induction is on the room that is left and, within
that, on what the call has still to do. -/
theorem ends_working (room : Nat) (waiting : List (Waiting α))
    (hw : EndsBelow factory (room + 1) waiting) (c : Conduct α) (frame : Frame α)
    (made : List (Nat × α)) (p : Pool α) (hp : p.room ≤ room) :
    Ends factory ⟨p, .working frame c, waiting, made⟩ := by
  induction room using Nat.strongRecOn generalizing waiting c frame made p with
  | ind room ihRoom =>
    induction c generalizing frame made p with
    | finish outcome => exact ends_finish hw frame.held hp
    | probe next ih =>
      refine .intro _ fun u h => ?_
      cases h
      exact ih _ _ _ _ _ hp
    | close next ih =>
      refine .intro _ fun u h => ?_
      cases h
      exact ih _ _ _ (Nat.zero_le room)
    | letGo i next ih =>
      refine .intro _ fun u h => ?_
      cases h with
      | letGo hi => exact ih _ _ _ ((p.room_giveBack_le _).trans hp)
      | letNothingGo => exact ih _ _ _ hp
    | reenter next ih =>
      refine .intro _ fun u h => ?_
      cases h
      have hbelow : EndsBelow factory room (⟨frame, next⟩ :: waiting) :=
        fun made p answer hle => ih answer (frame.hear answer) made p hle
      exact ends_asking hbelow (fun less hless hw => ihRoom less hless _ hw) hp

theorem ends_outset (factory : Nat → Conduct α → Prop) (p : Pool α) :
    Ends factory (outset p) := by
  have hanswered (room : Nat) : EndsBelow factory room [] := fun _ _ _ _ => ends_answered
  exact ends_asking (hanswered p.room) (fun less _ hw => ends_working less [] hw) (Nat.le_refl _)

/-- There is no endless run. -/
theorem Ends.no_run (h : Ends factory t) :
    ¬ ∃ run : Nat → Tower α, run 0 = t ∧ ∀ n, Step factory (run n) (run (n + 1)) := by
  induction h with
  | intro t _ ih =>
    rintro ⟨run, rfl, hrun⟩
    exact ih (run 1) (hrun 0) ⟨fun n => run (n + 1), rfl, fun n => hrun (n + 1)⟩

theorem exists_step (hf : ∀ id, ∃ c, factory id c) (t : Tower α) :
    (∃ answer, t.stage = .answered answer) ∨ ∃ u, Step factory t u := by
  obtain ⟨p, stage, waiting, made⟩ := t
  cases stage with
  | answered answer => exact .inl ⟨answer, rfl⟩
  | asking =>
    right
    cases hi : p.inspect with
    | closed => exact ⟨_, .refuse hi⟩
    | full => exact ⟨_, .decline hi⟩
    | granted grant after =>
      cases grant with
      | reuse m => exact ⟨_, .reuse hi⟩
      | create =>
        obtain ⟨c, hc⟩ := hf after.takeId.1
        exact ⟨_, .create hi hc⟩
  | working frame c =>
    right
    cases c with
    | probe next => exact ⟨_, .probe⟩
    | close next => exact ⟨_, .close⟩
    | reenter next => exact ⟨_, .reenter⟩
    | letGo i next =>
      cases hm : frame.held[i]? with
      | some m => exact ⟨_, .letGo hm⟩
      | none => exact ⟨_, .letNothingGo hm⟩
    | finish outcome =>
      obtain ⟨id, held, asked⟩ := frame
      cases held with
      | cons m held => exact ⟨_, .leave⟩
      | nil =>
        cases outcome with
        | ok conn => exact ⟨_, .make⟩
        | refused cause => exact ⟨_, .fail⟩
        | aborted cause => exact ⟨_, .abort⟩

/-- Every factory that can be called at all lets its outermost caller come to an answer. -/
theorem Ends.exists_answered (h : Ends factory t) (hf : ∀ id, ∃ c, factory id c) :
    ∃ u answer, Reaches factory t u ∧ u.stage = .answered answer := by
  induction h with
  | intro t _ ih =>
    obtain ⟨answer, hanswer⟩ | ⟨u, hu⟩ := exists_step hf t
    · exact ⟨t, answer, .refl, hanswer⟩
    · obtain ⟨v, answer, hv, hanswer⟩ := ih u hu
      exact ⟨v, answer, .head hu hv, hanswer⟩

end Tower

end ConnectionPool

import ConnectionPool.Proofs.Nesting.Slots

/-!
# Pools filled by nested calls

Where each factory call asks its pool before it makes its connection, calls nest until no slot is
free. All connections are made on the way back, and all but the outermost caller's are idle then.
-/

namespace ConnectionPool

variable {α : Type}

/-- A connection by its number. -/
def Member.entry (m : Member α) : Nat × α := (m.metadata.id, m.conn)

def Stage.frames : Stage α → List (Frame α)
  | .working frame _ => [frame]
  | _ => []

namespace Tower

/-- The factory calls in progress, the innermost first. -/
def frames (t : Tower α) : List (Frame α) := t.stage.frames ++ t.waiting.map Waiting.frame

/-- The call on top does not close the pool, and if it ends now, it has asked before and made its
connection. -/
def Smooth (t : Tower α) : Prop :=
  ∀ frame c, t.stage = .working frame c → (∀ next, c ≠ .close next) ∧
    ∀ outcome, c = .finish outcome → frame.hasAsked = true ∧ ∃ conn, outcome = .ok conn

/-- Some steps of calls none of which fails, aborts, closes the pool or does not ask. -/
abbrev Climbs (factory : Nat → Conduct α → Prop) : Tower α → Tower α → Prop :=
  Relation.ReflTransGen fun t u => t.Smooth ∧ Step factory t u

variable {factory : Nat → Conduct α → Prop} {p q : Pool α} {t u : Tower α}
  {waiting : List (Waiting α)} {made : List (Nat × α)} {answer : Acquired α}

/-- A tower that has risen from `p` without failures: all connections made are idle or out, and
there are none before the pool is full. It is full as soon as a call has asked. -/
structure Filling (p : Pool α) (t : Tower α) : Prop where
  isOpen : t.pool.closed = false
  settings_eq : t.pool.settings = p.settings
  created_eq : t.pool.created = p.created + t.depth + t.made.length
  created_le : t.pool.created ≤ p.settings.maxConnections
  entries : ((t.out ++ t.pool.idle).map Member.entry).Perm t.made
  full_of_made : t.made ≠ [] → t.pool.created = p.settings.maxConnections
  full_of_asked : ∀ frame ∈ t.frames, frame.hasAsked = true →
    t.pool.created = p.settings.maxConnections
  outermost : t.stage = .asking → t.waiting = [] → t = outset p
  answered : ∀ answer, t.stage = .answered answer → ∃ m, answer = .ok (some m) ∧ t.waiting = [] ∧
    t.pool.created = p.settings.maxConnections

namespace Filling

theorem outset (hp : p.MustCreate) : Filling p (outset p) where
  isOpen := hp.isOpen
  settings_eq := rfl
  created_eq := rfl
  created_le := Nat.le_of_lt hp.room
  entries := by
    have hidle : (Tower.outset p).pool.idle = [] := hp.idle_nil
    rw [hidle]
    exact .refl _
  full_of_made h := absurd rfl h
  full_of_asked _ hm := absurd hm List.not_mem_nil
  outermost _ _ := rfl
  answered := nofun

theorem hear (hopen : q.closed = false) (hs : q.settings = p.settings)
    (hcreated : q.created = p.created + waiting.length + made.length)
    (hfull : q.created = p.settings.maxConnections)
    (hentries : ((answer.member?.toList ++ (waiting.flatMap fun call => call.frame.held) ++
      q.idle).map Member.entry).Perm made)
    (hanswer : waiting = [] → ∃ m, answer = .ok (some m)) :
    Filling p (Tower.hear waiting made q answer) where
  isOpen := by rwa [pool_hear]
  settings_eq := by rwa [pool_hear]
  created_eq := by rwa [pool_hear, depth_hear, made_hear]
  created_le := by rw [pool_hear, hfull]
  entries := by rwa [pool_hear, out_hear, made_hear]
  full_of_made _ := by rwa [pool_hear]
  full_of_asked _ _ _ := by rwa [pool_hear]
  outermost h := by cases waiting <;> cases h
  answered := by
    intro other h
    cases waiting with
    | nil =>
      obtain ⟨m, rfl⟩ := hanswer rfl
      cases h
      exact ⟨m, rfl, rfl, hfull⟩
    | cons call waiting => cases h

theorem created_asking (h : Filling p ⟨q, .asking, waiting, made⟩) :
    q.created = p.created + waiting.length + made.length := by
  have hcreated := h.created_eq
  rwa [depth_asking] at hcreated

theorem created_working {frame : Frame α} {c : Conduct α}
    (h : Filling p ⟨q, .working frame c, waiting, made⟩) :
    q.created = p.created + (waiting.length + 1) + made.length := by
  have hcreated := h.created_eq
  rwa [depth_working] at hcreated

theorem atWork {frame : Frame α} {c : Conduct α} (hopen : q.closed = false)
    (hs : q.settings = p.settings)
    (hcreated : q.created = p.created + (waiting.length + 1) + made.length)
    (hle : q.created ≤ p.settings.maxConnections)
    (hentries : ((frame.held ++ (waiting.flatMap fun call => call.frame.held) ++
      q.idle).map Member.entry).Perm made)
    (hmade : made ≠ [] → q.created = p.settings.maxConnections)
    (hasked : ∀ frame' ∈ frame :: waiting.map Waiting.frame, frame'.hasAsked = true →
      q.created = p.settings.maxConnections) :
    Filling p ⟨q, .working frame c, waiting, made⟩ where
  isOpen := hopen
  settings_eq := hs
  created_eq := by rwa [depth_working]
  created_le := hle
  entries := hentries
  full_of_made := hmade
  full_of_asked := hasked
  outermost := by rintro ⟨⟩
  answered := by rintro _ ⟨⟩

theorem goesOn {frame : Frame α} {c c' : Conduct α}
    (h : Filling p ⟨q, .working frame c, waiting, made⟩) :
    Filling p ⟨q, .working frame c', waiting, made⟩ :=
  .atWork h.isOpen h.settings_eq h.created_working h.created_le h.entries h.full_of_made
    h.full_of_asked

theorem drops {frame : Frame α} {held : List (Member α)} {c c' : Conduct α} {m : Member α}
    (h : Filling p ⟨q, .working frame c, waiting, made⟩) (hheld : frame.held.Perm (m :: held)) :
    Filling p ⟨(q.giveBack m).2, .working { frame with held } c', waiting, made⟩ := by
  rw [q.giveBack_of_open h.isOpen]
  refine .atWork h.isOpen h.settings_eq h.created_working h.created_le ?_ h.full_of_made ?_
  · let below := waiting.flatMap fun call => call.frame.held
    have hmiddle : (held ++ below ++ m :: q.idle).Perm (m :: (held ++ below ++ q.idle)) :=
      List.perm_middle
    have hback : (m :: held ++ below ++ q.idle).Perm (frame.held ++ below ++ q.idle) :=
      (hheld.symm.append_right below).append_right q.idle
    exact ((hmiddle.trans hback).map Member.entry).trans h.entries
  · intro frame' hm hasked
    obtain rfl | hm := List.mem_cons.mp hm
    · exact h.full_of_asked frame List.mem_cons_self hasked
    · exact h.full_of_asked frame' (List.mem_cons_of_mem _ hm) hasked

theorem full_of_idle (h : Filling p ⟨q, .asking, waiting, made⟩) (hidle : q.idle ≠ []) :
    q.created = p.settings.maxConnections := by
  apply h.full_of_made
  rintro rfl
  have hnone := List.map_eq_nil_iff.mp (List.perm_nil.mp h.entries)
  exact hidle (List.append_eq_nil_iff.mp hnone).2

theorem isMust (h : Filling p ⟨q, .asking, [], made⟩) (hp : p.MustCreate) : q.MustCreate := by
  have hsame := h.outermost rfl rfl
  cases hsame
  exact hp

/-- A step of calls that do not fail brings the tower nearer to a full pool. -/
theorem step (h : Filling p t) (hp : p.MustCreate) (hsmooth : t.Smooth) (hs : Step factory t u) :
    Filling p u := by
  cases hs with
  | refuse hi =>
    exact absurd (h.isOpen.symm.trans (Pool.inspect_eq_closed.mp hi)) Bool.false_ne_true
  | @decline q waiting made hi =>
    obtain ⟨-, -, hmax⟩ := Pool.inspect_eq_full.mp hi
    have hsettings : q.settings = p.settings := h.settings_eq
    have hfull : q.created = p.settings.maxConnections :=
      Nat.le_antisymm h.created_le (hsettings ▸ hmax)
    refine .hear h.isOpen h.settings_eq h.created_asking hfull h.entries ?_
    rintro rfl
    exact absurd (h.isMust hp).room (Nat.not_lt.mpr hmax)
  | @reuse q waiting made m after hi =>
    obtain ⟨-, hidle, hafter⟩ := Pool.inspect_eq_reuse hi
    generalize after.idle = rest at hidle hafter
    subst hafter
    have hne : q.idle ≠ [] := hidle ▸ List.cons_ne_nil m rest
    refine .hear h.isOpen h.settings_eq h.created_asking (h.full_of_idle hne) ?_ ?_
    · let below := waiting.flatMap fun call => call.frame.held
      have hmiddle : (below ++ m :: rest).Perm (m :: (below ++ rest)) := List.perm_middle
      have hentries := h.entries
      simp only [out, Stage.out, List.nil_append, hidle] at hentries
      exact (hmiddle.map Member.entry).symm.trans hentries
    · rintro rfl
      exact absurd (h.isMust hp).idle_nil hne
  | @create q waiting made after c hi =>
    obtain ⟨-, -, hlt, rfl⟩ := Pool.inspect_eq_create.mp hi
    have hsettings : q.settings = p.settings := h.settings_eq
    rw [hsettings] at hlt
    have hcreated := h.created_asking
    refine .atWork h.isOpen hsettings ?_ hlt h.entries ?_ ?_
    · simp only [Pool.takeId, Pool.takeSlot]
      omega
    · exact fun hmade => absurd (h.full_of_made hmade) (Nat.ne_of_lt hlt)
    · intro frame hm hasked
      obtain rfl | hm := List.mem_cons.mp hm
      · cases hasked
      · exact absurd (h.full_of_asked frame hm hasked) (Nat.ne_of_lt hlt)
  | probe => exact h.goesOn
  | close => exact absurd rfl ((hsmooth _ _ rfl).1 _)
  | @reenter q frame next waiting made =>
    refine ⟨h.isOpen, h.settings_eq, ?_, h.created_le, h.entries, h.full_of_made,
      h.full_of_asked, ?_, ?_⟩
    · rw [depth_asking]
      exact h.created_working
    · rintro - ⟨⟩
    · rintro _ ⟨⟩
  | @letGo q frame i m next waiting made hm =>
    obtain ⟨hlt, rfl⟩ := List.getElem?_eq_some_iff.mp hm
    exact h.drops (List.getElem_cons_eraseIdx_perm hlt).symm
  | letNothingGo => exact h.goesOn
  | leave => exact h.drops (.refl _)
  | @make q id asked conn waiting made =>
    obtain ⟨hasked, -⟩ := (hsmooth _ _ rfl).2 _ rfl
    have hfull := h.full_of_asked _ List.mem_cons_self hasked
    have hcreated := h.created_working
    refine .hear h.isOpen h.settings_eq ?_ hfull (h.entries.cons (id, conn)) fun _ => ⟨_, rfl⟩
    simp only [Pool.countCheckout, Pool.countCreated, List.length_cons]
    omega
  | fail =>
    obtain ⟨-, conn, hconn⟩ := (hsmooth _ _ rfl).2 _ rfl
    cases hconn
  | abort =>
    obtain ⟨-, conn, hconn⟩ := (hsmooth _ _ rfl).2 _ rfl
    cases hconn

theorem climbed (hp : p.MustCreate) (hr : Climbs factory (Tower.outset p) t) : Filling p t := by
  induction hr with
  | refl => exact .outset hp
  | tail _ hs ih => exact ih.step hp hs.1 hs.2

/-- When the outermost caller has its answer, the pool is full: as many connections have been made
as slots were free, and all but the caller's are idle. -/
theorem filled (h : Filling p t) (hanswer : t.stage = .answered answer) :
    ∃ m, answer = .ok (some m) ∧ t.pool.closed = false ∧
      t.pool.created = p.settings.maxConnections ∧
      ((m :: t.pool.idle).map Member.entry).Perm t.made ∧ t.made.length = p.freeSlots := by
  obtain ⟨m, rfl, hwaiting, hfull⟩ := h.answered answer hanswer
  obtain ⟨q, stage, waiting, made⟩ := t
  obtain rfl : stage = .answered (.ok (some m)) := hanswer
  obtain rfl : waiting = [] := hwaiting
  refine ⟨m, rfl, h.isOpen, hfull, h.entries, ?_⟩
  have hcreated := h.created_eq
  simp only [depth, Stage.height, List.length_nil] at hcreated hfull
  have hmade : made.length = p.settings.maxConnections - p.created := by omega
  exact hmade

end Filling

end Tower

/-- Asks its pool before it ends unless it has done so, does not close it, and makes its connection,
provided that its pool has not refused it. -/
def Conduct.Eager : Conduct α → Bool → Prop
  | .finish outcome, asked => asked = true ∧ ∃ conn, outcome = .ok conn
  | .probe next, asked => ∀ status closed, (next status closed).Eager asked
  | .close _, _ => False
  | .reenter next, _ => ∀ found, (next (.ok found)).Eager true
  | .letGo _ next, asked => next.Eager asked

namespace Tower

variable {factory : Nat → Conduct α → Prop} {p q : Pool α} {t u : Tower α}
  {waiting : List (Waiting α)} {made : List (Nat × α)} {answer : Acquired α}

/-- All calls in progress are eager, and each took a number. -/
structure Eager (p : Pool α) (t : Tower α) : Prop where
  nextId_eq : t.pool.nextId = p.nextId + t.depth + t.made.length
  working : ∀ frame c, t.stage = .working frame c → c.Eager frame.hasAsked
  below : ∀ call ∈ t.waiting, ∀ found, (call.next (.ok found)).Eager true

theorem Eager.smooth (h : Eager p t) : t.Smooth := by
  intro frame c hc
  have heager := h.working frame c hc
  constructor
  · rintro next rfl
    exact heager
  · rintro outcome rfl
    exact heager

theorem Eager.hear {found : Option (Member α)}
    (hnext : q.nextId = p.nextId + waiting.length + made.length)
    (hw : ∀ call ∈ waiting, ∀ found, (call.next (.ok found)).Eager true) :
    Eager p (Tower.hear waiting made q (.ok found)) where
  nextId_eq := by rwa [pool_hear, depth_hear, made_hear]
  working := by
    intro frame c hc
    cases waiting with
    | nil => cases hc
    | cons call waiting =>
      cases hc
      exact hw call List.mem_cons_self found
  below := by
    intro call hm
    cases waiting with
    | nil => cases hm
    | cons first waiting => exact hw call (List.mem_cons_of_mem _ hm)

theorem Eager.onward {p' : Pool α} {frame frame' : Frame α} {c c' : Conduct α}
    (h : Eager p ⟨q, .working frame c, waiting, made⟩) (hid : p'.nextId = q.nextId)
    (hc : c'.Eager frame'.hasAsked) : Eager p ⟨p', .working frame' c', waiting, made⟩ where
  nextId_eq := hid.trans h.nextId_eq
  working := by
    rintro _ _ ⟨⟩
    exact hc
  below := h.below

/-- Calls that are not refused stay eager, as long as those to come are. -/
theorem Eager.step (h : Eager p t) (hfill : Filling p t)
    (hf : ∀ id c, id < p.nextId + p.freeSlots → factory id c → c.Eager false)
    (hs : Step factory t u) : Eager p u := by
  have hnext := h.nextId_eq
  cases hs with
  | refuse hi =>
    exact absurd (hfill.isOpen.symm.trans (Pool.inspect_eq_closed.mp hi)) Bool.false_ne_true
  | decline =>
    rw [depth_asking] at hnext
    exact .hear hnext h.below
  | reuse hi =>
    obtain ⟨-, -, hafter⟩ := Pool.inspect_eq_reuse hi
    rw [depth_asking] at hnext
    rw [hafter]
    exact .hear hnext h.below
  | @create q waiting made after c hi hc =>
    obtain ⟨-, -, hlt, rfl⟩ := Pool.inspect_eq_create.mp hi
    have hcreated := hfill.created_asking
    have hsettings : q.settings = p.settings := hfill.settings_eq
    rw [hsettings] at hlt
    rw [depth_asking] at hnext
    simp only at hnext
    refine ⟨?_, ?_, h.below⟩
    · rw [depth_working]
      simp only [Pool.takeId, Pool.takeSlot]
      omega
    · rintro _ _ ⟨⟩
      refine hf _ c ?_ hc
      simp only [Pool.takeId, Pool.takeSlot, Pool.freeSlots]
      omega
  | probe =>
    have heager := h.working _ _ rfl
    exact h.onward rfl (heager _ _)
  | close =>
    have heager := h.working _ _ rfl
    exact heager.elim
  | reenter =>
    have heager := h.working _ _ rfl
    refine ⟨?_, ?_, List.forall_mem_cons.mpr ⟨heager, h.below⟩⟩
    · rw [depth_working] at hnext
      rw [depth_asking]
      exact hnext
    · rintro _ _ ⟨⟩
  | letGo =>
    have heager := h.working _ _ rfl
    refine h.onward ?_ heager
    rw [Pool.giveBack_of_open hfill.isOpen]
    rfl
  | letNothingGo =>
    have heager := h.working _ _ rfl
    exact h.onward rfl heager
  | leave =>
    have heager := h.working _ _ rfl
    refine h.onward ?_ heager
    rw [Pool.giveBack_of_open hfill.isOpen]
    rfl
  | make =>
    rw [depth_working] at hnext
    refine .hear ?_ h.below
    simp only [Pool.countCheckout, Pool.countCreated, List.length_cons] at hnext ⊢
    omega
  | fail =>
    obtain ⟨-, conn, hconn⟩ := h.working _ _ rfl
    cases hconn
  | abort =>
    obtain ⟨-, conn, hconn⟩ := h.working _ _ rfl
    cases hconn

/-- Where all calls that may come about are eager, nothing but climbing is to be done. -/
theorem climbs_of_eager (hp : p.MustCreate)
    (hf : ∀ id c, id < p.nextId + p.freeSlots → factory id c → c.Eager false)
    (hr : Reaches factory (outset p) t) : Climbs factory (outset p) t := by
  have hclimbs : Climbs factory (outset p) t ∧ Eager p t := by
    induction hr with
    | refl => exact ⟨.refl, rfl, nofun, nofun⟩
    | tail _ hs ih =>
      obtain ⟨hclimbs, heager⟩ := ih
      exact ⟨hclimbs.tail ⟨heager.smooth, hs⟩,
        heager.step (Filling.climbed hp hclimbs) hf hs⟩
  exact hclimbs.1

end Tower

end ConnectionPool

import ConnectionPool.Pool.Acquire

/-!
# Nested factory calls

What a factory does with its pool before its call ends, however deep the calls nest. Each nested
call begins with a slot of its own and returns before the call that led to it goes on, so the books
it finds and leaves are those of a pool in which that slot is taken.
-/

namespace ConnectionPool

variable {ω α : Type}

/-- Whether a caller who comes now has a connection made: the pool is open and has a free slot but
nothing idle. -/
structure Pool.MustCreate (p : Pool α) : Prop where
  isOpen : p.closed = false
  idle_nil : p.idle = []
  room : p.created < p.settings.maxConnections

theorem Pool.mustCreate_iff {p : Pool α} :
    p.MustCreate ↔ p.inspect = .granted .create p.takeSlot := by
  rw [inspect_eq_create]
  constructor
  · intro h
    exact ⟨h.isOpen, h.idle_nil, h.room, rfl⟩
  · rintro ⟨hopen, hidle, hroom, -⟩
    exact ⟨hopen, hidle, hroom⟩

namespace Workplace

/-- How a factory call comes out when its uses of the pool have ended, unless one of them aborted
it. -/
def outcome (k : Connector ω α) (ending : FactoryEnding) :
    Option String × Workplace ω α → Attempt String α × Workplace ω α
  | (some cause, w) => (.aborted cause, w)
  | (none, w) => conclude k ending w

/-- The factory call of a caller who takes a slot, and the state in which it begins. -/
def enter (w : Workplace ω α) : FactoryCall × Workplace ω α :=
  { w with pool := w.pool.takeSlot.takeId.2 }.nextCall

/-- What becomes of a call that asked its own pool for a connection, if the factory call this led
to had used the pool in the way told. -/
def rejoin (k : Connector ω α) (w : Workplace ω α) (used : Option String × Workplace ω α) :
    Option String × Workplace ω α :=
  perform k (tryAcquireWith fun _ => outcome k w.enter.1.ending used) .reenter w

/-- What the uses of its pool that a factory call makes lead to, and how many factory calls come
about on the way. -/
inductive Uses (k : Connector ω α) :
    List FactoryUse → Workplace ω α → Nat → Option String × Workplace ω α → Prop
  | done {w} : Uses k [] w 0 (none, w)
  /-- A use that the pool serves without its factory. -/
  | plain {use uses w n used} (f) : (use = .reenter → ¬ w.pool.MustCreate) →
      Uses k uses (perform k (tryAcquireWith f) use w).2 n used →
      Uses k (use :: uses) w n used
  | nested {uses w m inner n used} : w.pool.MustCreate →
      Uses k w.enter.1.uses w.enter.2 m inner → (w.rejoin k inner).1 = none →
      Uses k uses (w.rejoin k inner).2 n used →
      Uses k (.reenter :: uses) w (m + 1 + n) used
  /-- A nested call that aborts takes this one with it. -/
  | cut {uses w m inner cause} : w.pool.MustCreate →
      Uses k w.enter.1.uses w.enter.2 m inner → (w.rejoin k inner).1 = some cause →
      Uses k (.reenter :: uses) w (m + 1) (some cause, (w.rejoin k inner).2)

end Workplace

/-- What `n` factory calls and the uses that led to them may have made of the books `p`. Slots that
are neither idle nor taken by them stay as they are. -/
structure Pool.Course (n : Nat) (p q : Pool α) : Prop where
  settings_eq : q.settings = p.settings
  nextId_eq : q.nextId = p.nextId + n
  isOpen : q.closed = false → p.closed = false
  created_le : q.closed = false → p.created ≤ q.created
  room : p.created ≤ p.settings.maxConnections → q.created ≤ q.settings.maxConnections
  covered : ∀ held, p.idle.length + held ≤ p.created → q.idle.length + held ≤ q.created

namespace Pool

variable {m n : Nat} {p q r : Pool α}

theorem Course.of_eq (hs : q.settings = p.settings) (hn : q.nextId = p.nextId)
    (hc : q.closed = p.closed) (hi : q.idle = p.idle) (hd : q.created = p.created) :
    Course 0 p q := by
  refine ⟨hs, hn, fun ho => hc ▸ ho, fun _ => Nat.le_of_eq hd.symm, ?_, ?_⟩
  · rw [hs, hd]
    exact id
  · rw [hi, hd]
    exact fun _ => id

theorem Course.trans (h : Course m p q) (h' : Course n q r) : Course (m + n) p r where
  settings_eq := h'.settings_eq.trans h.settings_eq
  nextId_eq := by rw [h'.nextId_eq, h.nextId_eq, Nat.add_assoc]
  isOpen ho := h.isOpen (h'.isOpen ho)
  created_le ho := Nat.le_trans (h.created_le (h'.isOpen ho)) (h'.created_le ho)
  room hr := h'.room (h.room hr)
  covered held hc := h'.covered held (h.covered held hc)

theorem Course.close (p : Pool α) : Course 0 p p.close.2 where
  settings_eq := rfl
  nextId_eq := rfl
  isOpen := nofun
  created_le := nofun
  room hr := by
    simp only [Pool.close, shut, countClosed]
    omega
  covered held hc := by
    simp only [Pool.close, shut, countClosed, List.length_nil]
    omega

theorem Course.reuse {after : Pool α} {member : Member α}
    (h : p.inspect = .granted (.reuse member) after) :
    Course 0 p (after.countCheckout.giveBack member.recordCheckout).2 := by
  obtain ⟨hopen, hidle, hafter⟩ := inspect_eq_reuse h
  have hback : after.countCheckout.takeBack member.recordCheckout =
      (none, after.countCheckout.addIdle member.recordCheckout) := by
    rw [takeBack_eq_none, hafter]
    exact ⟨hopen, rfl⟩
  rw [giveBack, hback, hafter]
  refine ⟨rfl, rfl, id, fun _ => Nat.le_refl _, id, ?_⟩
  intro held hc
  rw [hidle] at hc
  exact hc

/-- The call that took a slot ends: the slot is given up or its connection joins the idle ones. -/
theorem Course.settle {left : Pool α} (hp : p.MustCreate)
    (h : Course m p.takeSlot.takeId.2 left) (hs : q.settings = left.settings)
    (hn : q.nextId = left.nextId) (hc : q.closed = left.closed)
    (hq : (q.idle.length = left.idle.length ∧ q.created + 1 = left.created) ∨
      (q.idle.length = left.idle.length + 1 ∧ q.created = left.created)) :
    Course (m + 1) p q := by
  have hidle : p.takeSlot.takeId.2.idle.length = 0 := congrArg List.length hp.idle_nil
  have hcreated : p.takeSlot.takeId.2.created = p.created + 1 := rfl
  have hroom := h.room hp.room
  refine ⟨hs.trans h.settings_eq, ?_, fun _ => hp.isOpen, ?_, ?_, ?_⟩
  · have hid : p.takeSlot.takeId.2.nextId = p.nextId + 1 := rfl
    rw [hn, h.nextId_eq, hid]
    omega
  · intro ho
    have hle := h.created_le (hc ▸ ho)
    omega
  · intro _
    rw [hs]
    omega
  · intro held hheld
    have hcov := h.covered (held + 1) (by omega)
    omega

theorem Course.held {left : Pool α} (h : Course m p.takeSlot.takeId.2 left)
    (hp : p.MustCreate) : left.freeSlot.created + 1 = left.created := by
  have hidle : p.takeSlot.takeId.2.idle.length = 0 := congrArg List.length hp.idle_nil
  have hcreated : p.takeSlot.takeId.2.created = p.created + 1 := rfl
  have hcov := h.covered 1 (by omega)
  simp only [freeSlot]
  omega

theorem Course.comeBack {left : Pool α} (hp : p.MustCreate)
    (h : Course m p.takeSlot.takeId.2 left) (member : Member α) :
    Course (m + 1) p (left.countCreated.countCheckout.giveBack member).2 := by
  cases hc : left.countCreated.countCheckout.closed with
  | false =>
    rw [giveBack, takeBack_eq_none.mpr ⟨hc, rfl⟩]
    exact .settle hp h rfl rfl rfl (.inr ⟨rfl, rfl⟩)
  | true =>
    rw [giveBack, takeBack_eq_some.mpr ⟨hc, rfl, rfl⟩]
    exact .settle hp h rfl rfl rfl (.inl ⟨rfl, h.held hp⟩)

end Pool

namespace Workplace

open Pool

variable {k : Connector ω α} {w v : Workplace ω α} {f : Factory ω α}

theorem pool_nextCall (w : Workplace ω α) : w.nextCall.2.pool = w.pool := by
  unfold nextCall
  cases w.script <;> rfl

theorem pool_enter (w : Workplace ω α) : w.enter.2.pool = w.pool.takeSlot.takeId.2 :=
  pool_nextCall _

theorem pool_conclude (k : Connector ω α) (ending : FactoryEnding) (w : Workplace ω α) :
    (conclude k ending w).2.pool = w.pool := by
  cases ending <;> rfl

theorem pool_outcome (k : Connector ω α) (ending : FactoryEnding)
    (used : Option String × Workplace ω α) : (outcome k ending used).2.pool = used.2.pool := by
  obtain ⟨cause, w⟩ := used
  cases cause with
  | none => exact pool_conclude k ending w
  | some cause => rfl

theorem tryAcquireWith_create (hw : w.pool.MustCreate) :
    tryAcquireWith f w = complete f .create { w with pool := w.pool.takeSlot } := by
  rw [tryAcquireWith, mustCreate_iff.mp hw]

/-- A caller who has a connection made asks no more of its factory than this one call. -/
theorem tryAcquireWith_congr {g : Factory ω α} (hw : w.pool.MustCreate)
    (h : f { w with pool := w.pool.takeSlot.takeId.2 } =
      g { w with pool := w.pool.takeSlot.takeId.2 }) :
    tryAcquireWith f w = tryAcquireWith g w := by
  have hc : create f { w with pool := w.pool.takeSlot } =
      create g { w with pool := w.pool.takeSlot } := by
    simp only [create, h]
  rw [tryAcquireWith_create hw, tryAcquireWith_create hw, complete, complete, hc]

theorem tryAcquireWith_made {conn : α} (hw : w.pool.MustCreate)
    (h : f { w with pool := w.pool.takeSlot.takeId.2 } = (.ok conn, v)) :
    tryAcquireWith f w =
      (.ok (some (Member.mk conn (.fresh w.pool.nextId)).recordCheckout),
       { v with pool := v.pool.countCreated.countCheckout }) := by
  rw [tryAcquireWith_create hw]
  simp only [complete, create, Pool.takeId] at h ⊢
  rw [h]
  rfl

theorem tryAcquireWith_failed {cause : String} (hw : w.pool.MustCreate)
    (h : f { w with pool := w.pool.takeSlot.takeId.2 } = (.refused cause, v)) :
    tryAcquireWith f w =
      (.refused (.factory cause), { v with pool := v.pool.freeSlot.countCreationFailure }) := by
  rw [tryAcquireWith_create hw]
  simp only [complete, create, Pool.takeId] at h ⊢
  rw [h]

theorem tryAcquireWith_aborted {cause : String} (hw : w.pool.MustCreate)
    (h : f { w with pool := w.pool.takeSlot.takeId.2 } = (.aborted cause, v)) :
    tryAcquireWith f w = (.aborted cause, { v with pool := v.pool.freeSlot }) := by
  rw [tryAcquireWith_create hw]
  simp only [complete, create, Pool.takeId] at h ⊢
  rw [h]

/-- Without a factory call an attempt comes out alike whatever the factory would do: it is refused,
finds nothing, or gets an idle connection. -/
theorem tryAcquireWith_plain (hw : ¬ w.pool.MustCreate) :
    (∀ f, tryAcquireWith f w = w.refuse .closed) ∨
      (∀ f, tryAcquireWith f w = (.ok none, w)) ∨
      ∃ member after, w.pool.inspect = .granted (.reuse member) after ∧
        ∀ f, tryAcquireWith f w =
          (.ok (some member.recordCheckout), { w with pool := after.countCheckout }) := by
  cases hi : w.pool.inspect with
  | closed => exact .inl fun f => by rw [tryAcquireWith, hi]
  | full => exact .inr (.inl fun f => by rw [tryAcquireWith, hi])
  | granted grant after =>
    cases grant with
    | create =>
      obtain ⟨hopen, hidle, hroom, -⟩ := inspect_eq_create.mp hi
      exact absurd ⟨hopen, hidle, hroom⟩ hw
    | reuse member =>
      refine .inr (.inr ⟨member, after, rfl, ?_⟩)
      intro f
      rw [tryAcquireWith, hi]
      rfl

theorem perform_reenter (k : Connector ω α) (attempt : Workplace ω α → Acquired α × Workplace ω α)
    (w : Workplace ω α) : perform k attempt .reenter w =
      match attempt w with
      | (.aborted cause, w) => (some cause, w)
      | (.ok (some member), w) =>
        (none, (w.note (.reentered (.ok (some member)))).giveBack k member)
      | (answer, w) => (none, w.note (.reentered answer)) := rfl

theorem perform_plain {use : FactoryUse} (hw : use = .reenter → ¬ w.pool.MustCreate) :
    (perform k (tryAcquireWith f) use w).1 = none ∧
      Course 0 w.pool (perform k (tryAcquireWith f) use w).2.pool := by
  cases use with
  | probe => exact ⟨rfl, .of_eq rfl rfl rfl rfl rfl⟩
  | close => exact ⟨rfl, .close w.pool⟩
  | reenter =>
    rw [perform_reenter]
    obtain h | h | ⟨member, after, hi, h⟩ := tryAcquireWith_plain (hw rfl)
    · rw [h f]
      exact ⟨rfl, .of_eq rfl rfl rfl rfl rfl⟩
    · rw [h f]
      exact ⟨rfl, .of_eq rfl rfl rfl rfl rfl⟩
    · rw [h f]
      exact ⟨rfl, .reuse hi⟩

theorem course_rejoin {m : Nat} {used : Option String × Workplace ω α} (hw : w.pool.MustCreate)
    (h : Course m w.enter.2.pool used.2.pool) :
    Course (m + 1) w.pool (w.rejoin k used).2.pool := by
  rw [pool_enter] at h
  have hheld := h.held hw
  have hleft := pool_outcome k w.enter.1.ending used
  rw [rejoin, perform_reenter]
  generalize outcome k w.enter.1.ending used = came at hleft ⊢
  obtain ⟨attempt, left⟩ := came
  rw [← hleft] at h hheld
  cases attempt with
  | ok conn =>
    rw [tryAcquireWith_made (f := fun _ => (.ok conn, left)) hw rfl]
    exact .comeBack hw h _
  | refused cause =>
    rw [tryAcquireWith_failed (f := fun _ => (.refused cause, left)) hw rfl]
    exact .settle hw h rfl rfl rfl (.inl ⟨rfl, hheld⟩)
  | aborted cause =>
    rw [tryAcquireWith_aborted (f := fun _ => (.aborted cause, left)) hw rfl]
    exact .settle hw h rfl rfl rfl (.inl ⟨rfl, hheld⟩)

/-- Uses that lead to `n` factory calls take `n` numbers and give up no slot but their own. -/
theorem Uses.course {uses : List FactoryUse} {n : Nat} {used : Option String × Workplace ω α}
    (h : Uses k uses w n used) : Course n w.pool used.2.pool := by
  induction h with
  | done => exact .of_eq rfl rfl rfl rfl rfl
  | plain f hplain _ ih =>
    have h := (perform_plain hplain).2.trans ih
    rwa [Nat.zero_add] at h
  | nested hw _ _ _ ihInner ih => exact (course_rejoin hw ihInner).trans ih
  | cut hw _ _ ihInner => exact course_rejoin hw ihInner

theorem perform_plain_congr {g : Factory ω α} {use : FactoryUse}
    (hw : use = .reenter → ¬ w.pool.MustCreate) :
    perform k (tryAcquireWith f) use w = perform k (tryAcquireWith g) use w := by
  cases use with
  | probe => rfl
  | close => rfl
  | reenter =>
    rw [perform_reenter, perform_reenter]
    obtain h | h | ⟨member, after, -, h⟩ := tryAcquireWith_plain (hw rfl)
    · rw [h f, h g]
    · rw [h f, h g]
    · rw [h f, h g]

/-- There is one way to tell what the uses of a factory call lead to. -/
theorem Uses.unique {uses : List FactoryUse} {n n' : Nat}
    {used used' : Option String × Workplace ω α} (h : Uses k uses w n used)
    (h' : Uses k uses w n' used') : n' = n ∧ used' = used := by
  induction h generalizing n' used' with
  | done =>
    cases h'
    exact ⟨rfl, rfl⟩
  | plain f hplain _ ih =>
    cases h' with
    | plain other _ h' =>
      rw [perform_plain_congr (g := f) hplain] at h'
      exact ih h'
    | nested hw => exact absurd hw (hplain rfl)
    | cut hw => exact absurd hw (hplain rfl)
  | nested hw _ hr _ ihInner ih =>
    cases h' with
    | plain _ hplain => exact absurd hw (hplain rfl)
    | nested _ hi _ h' =>
      obtain ⟨rfl, rfl⟩ := ihInner hi
      obtain ⟨rfl, rfl⟩ := ih h'
      exact ⟨rfl, rfl⟩
    | cut _ hi hr' =>
      obtain ⟨rfl, rfl⟩ := ihInner hi
      rw [hr] at hr'
      cases hr'
  | cut hw _ hr ihInner =>
    cases h' with
    | plain _ hplain => exact absurd hw (hplain rfl)
    | nested _ hi hr' =>
      obtain ⟨rfl, rfl⟩ := ihInner hi
      rw [hr] at hr'
      cases hr'
    | cut _ hi hr' =>
      obtain ⟨rfl, rfl⟩ := ihInner hi
      rw [hr, Option.some.injEq] at hr'
      rw [hr']
      exact ⟨rfl, rfl⟩

theorem callFactory_succ (k : Connector ω α) (reentrant : Bool) (depth : Nat)
    (w : Workplace ω α) :
    callFactory k reentrant (depth + 1) w =
      outcome k w.nextCall.1.ending
        (performAll k (tryAcquireWith (callFactory k reentrant depth))
          (if reentrant then w.nextCall.1.uses else []) w.nextCall.2) := by
  simp only [callFactory]
  split <;> (rename_i h; rw [h]; rfl)

theorem performAll_cons (k : Connector ω α)
    (attempt : Workplace ω α → Acquired α × Workplace ω α) (use : FactoryUse)
    (uses : List FactoryUse) (w : Workplace ω α) :
    performAll k attempt (use :: uses) w =
      match perform k attempt use w with
      | (some cause, w) => (some cause, w)
      | (none, w) => performAll k attempt uses w := rfl

theorem perform_nested {depth : Nat} (hw : w.pool.MustCreate) :
    perform k (tryAcquireWith (callFactory k true (depth + 1))) .reenter w =
      w.rejoin k (performAll k (tryAcquireWith (callFactory k true depth)) w.enter.1.uses
        w.enter.2) := by
  have hcall := callFactory_succ k true depth { w with pool := w.pool.takeSlot.takeId.2 }
  have hsame := tryAcquireWith_congr (g := fun _ => outcome k w.enter.1.ending
    (performAll k (tryAcquireWith (callFactory k true depth)) w.enter.1.uses w.enter.2)) hw hcall
  rw [rejoin, perform_reenter, perform_reenter, hsame]

/-- Whether calls may nest as deep as the pool has free slots. -/
def FitsDepth (depth : Nat) (p : Pool α) : Prop := p.closed = false → p.freeSlots ≤ depth

theorem FitsDepth.enter {depth : Nat} (h : FitsDepth (depth + 1) w.pool)
    (hw : w.pool.MustCreate) : FitsDepth depth w.enter.2.pool := by
  intro _
  have hle := h hw.isOpen
  rw [pool_enter]
  simp only [freeSlots, takeId, takeSlot] at hle ⊢
  omega

theorem FitsDepth.pos {depth : Nat} (h : FitsDepth depth w.pool) (hw : w.pool.MustCreate) :
    ∃ rest, depth = rest + 1 := by
  have hle := h hw.isOpen
  have hroom := hw.room
  rw [freeSlots] at hle
  exact ⟨depth - 1, by omega⟩

theorem FitsDepth.course {depth n : Nat} {p q : Pool α} (h : FitsDepth depth p)
    (hc : Course n p q) : FitsDepth depth q := by
  intro ho
  have hle := h (hc.isOpen ho)
  have hcreated := hc.created_le ho
  rw [freeSlots, hc.settings_eq]
  rw [freeSlots] at hle
  omega

theorem performAll_plain {use : FactoryUse} {uses : List FactoryUse}
    (hw : use = .reenter → ¬ w.pool.MustCreate) :
    performAll k (tryAcquireWith f) (use :: uses) w =
      performAll k (tryAcquireWith f) uses (perform k (tryAcquireWith f) use w).2 := by
  have hnone := (perform_plain (k := k) (f := f) hw).1
  rw [performAll_cons]
  generalize perform k (tryAcquireWith f) use w = performed at hnone ⊢
  obtain ⟨halt, v⟩ := performed
  rw [show halt = none from hnone]

/-- The uses of a factory call that are carried out are told as they are. No call is kept from
nesting deeper: each takes a slot, and so the depth allowed lasts as long as the slots. -/
theorem uses_performAll {depth : Nat} (uses : List FactoryUse) (h : FitsDepth depth w.pool) :
    ∃ n, Uses k uses w n (performAll k (tryAcquireWith (callFactory k true depth)) uses w) := by
  -- Calls nest within the depth; the calls of one level follow each other.
  induction depth using Nat.strongRecOn generalizing uses w with
  | ind depth ihDepth =>
    induction uses generalizing w with
    | nil => exact ⟨0, .done⟩
    | cons use uses ih =>
      by_cases hnested : use = .reenter ∧ w.pool.MustCreate
      · obtain ⟨rfl, hw⟩ := hnested
        obtain ⟨depth, rfl⟩ := h.pos hw
        obtain ⟨m, hm⟩ := ihDepth depth (Nat.lt_succ_self depth) w.enter.1.uses (h.enter hw)
        have hcourse := course_rejoin (k := k) hw hm.course
        rw [performAll_cons, perform_nested hw]
        cases hr : w.rejoin k _ with
        | mk halt v =>
          rw [hr] at hcourse
          cases halt with
          | none =>
            obtain ⟨n, hn⟩ := ih (h.course hcourse)
            exact ⟨m + 1 + n, .nested hw hm (by rw [hr]) (by rwa [hr])⟩
          | some cause =>
            have hcut : Uses k (.reenter :: uses) w (m + 1) (some cause, (w.rejoin k _).2) :=
              .cut hw hm (by rw [hr])
            rw [hr] at hcut
            exact ⟨m + 1, hcut⟩
      · have hplain : use = .reenter → ¬ w.pool.MustCreate := fun huse hw => hnested ⟨huse, hw⟩
        obtain ⟨n, hn⟩ := ih (h.course (perform_plain hplain).2)
        rw [performAll_plain hplain]
        exact ⟨n, .plain _ hplain hn⟩

end Workplace

end ConnectionPool

import ConnectionPool.Text.Blank
import Mathlib.Data.Char

/-!
# Search patterns

Patterns to be found in a text without regard to case. What counts as the same letter is up to a
folding of characters; of Unicode's simple case folding no more is used than what it does to ASCII
and to blanks.
-/

namespace ConnectionPool.Text

inductive Pattern where
  | textStart
  | textEnd
  /-- One character of a class. -/
  | oneOf (members : Char → Bool)
  | nothing
  | andThen (first second : Pattern)
  | orElse (left right : Pattern)
  /-- Any number of matches one after the other. -/
  | repeated (p : Pattern)

namespace Pattern

/-- Whether a character belongs to a class when case is disregarded. -/
def Admits (fold : Char → Char) (members : Char → Bool) (c : Char) : Prop :=
  ∃ d, members d = true ∧ fold c = fold d

/-- How a pattern matches the part `taken` of a text, between `before` and `after`. -/
inductive Matches (fold : Char → Char) : Pattern → (before taken after : List Char) → Prop
  | textStart {after} : Matches fold .textStart [] [] after
  | textEnd {before} : Matches fold .textEnd before [] []
  | oneOf {members before c after} : Admits fold members c →
      Matches fold (.oneOf members) before [c] after
  | nothing {before after} : Matches fold .nothing before [] after
  | andThen {p q before s t after} : Matches fold p before s (t ++ after) →
      Matches fold q (before ++ s) t after → Matches fold (.andThen p q) before (s ++ t) after
  | left {p q before s after} : Matches fold p before s after →
      Matches fold (.orElse p q) before s after
  | right {p q before s after} : Matches fold q before s after →
      Matches fold (.orElse p q) before s after
  | stop {p before after} : Matches fold (.repeated p) before [] after
  | more {p before s t after} : Matches fold p before s (t ++ after) →
      Matches fold (.repeated p) (before ++ s) t after →
      Matches fold (.repeated p) before (s ++ t) after

/-- Whether a pattern matches anywhere in a text. -/
def IsFoundIn (fold : Char → Char) (p : Pattern) (text : List Char) : Prop :=
  ∃ before taken after, text = before ++ taken ++ after ∧ p.Matches fold before taken after

/-- The characters of a word, one after the other. -/
def literal : List Char → Pattern
  | [] => .nothing
  | c :: word => .andThen (.oneOf (· == c)) (literal word)

def anyOf : List Pattern → Pattern
  | [] => .oneOf fun _ => false
  | p :: ps => .orElse p (anyOf ps)

variable {fold : Char → Char} {p q : Pattern} {before taken after : List Char}

theorem matches_textStart :
    textStart.Matches fold before taken after ↔ before = [] ∧ taken = [] := by
  constructor
  · intro h
    cases h
    exact ⟨rfl, rfl⟩
  · rintro ⟨rfl, rfl⟩
    exact .textStart

theorem matches_textEnd : textEnd.Matches fold before taken after ↔ taken = [] ∧ after = [] := by
  constructor
  · intro h
    cases h
    exact ⟨rfl, rfl⟩
  · rintro ⟨rfl, rfl⟩
    exact .textEnd

theorem matches_oneOf {members : Char → Bool} :
    (oneOf members).Matches fold before taken after ↔ ∃ c, taken = [c] ∧ Admits fold members c := by
  constructor
  · intro h
    cases h with
    | oneOf hc => exact ⟨_, rfl, hc⟩
  · rintro ⟨c, rfl, hc⟩
    exact .oneOf hc

theorem matches_andThen :
    (andThen p q).Matches fold before taken after ↔
      ∃ s t, taken = s ++ t ∧ p.Matches fold before s (t ++ after) ∧
        q.Matches fold (before ++ s) t after := by
  constructor
  · intro h
    cases h with
    | andThen hp hq => exact ⟨_, _, rfl, hp, hq⟩
  · rintro ⟨s, t, rfl, hp, hq⟩
    exact .andThen hp hq

theorem matches_orElse :
    (orElse p q).Matches fold before taken after ↔
      p.Matches fold before taken after ∨ q.Matches fold before taken after := by
  constructor
  · intro h
    cases h with
    | left h => exact .inl h
    | right h => exact .inr h
  · rintro (h | h)
    · exact .left h
    · exact .right h

theorem matches_anyOf {ps : List Pattern} :
    (anyOf ps).Matches fold before taken after ↔ ∃ p ∈ ps, p.Matches fold before taken after := by
  induction ps with
  | nil => simp [anyOf, matches_oneOf, Admits]
  | cons p ps ih => simp [anyOf, matches_orElse, ih]

/-- A repeated class takes any characters of the class. -/
theorem matches_repeated_oneOf {members : Char → Bool} :
    (repeated (oneOf members)).Matches fold before taken after ↔
      ∀ c ∈ taken, Admits fold members c := by
  constructor
  · intro h
    generalize hp : repeated (oneOf members) = p at h
    induction h with
    | stop => exact List.forall_mem_nil _
    | more hfirst _ _ ih =>
      cases hp
      obtain ⟨c, rfl, hc⟩ := matches_oneOf.mp hfirst
      exact List.forall_mem_cons.mpr ⟨hc, ih rfl⟩
    | _ => cases hp
  · intro h
    induction taken generalizing before with
    | nil => exact .stop
    | cons c taken ih =>
      obtain ⟨hc, htaken⟩ := List.forall_mem_cons.mp h
      exact .more (s := [c]) (.oneOf hc) (ih htaken)

theorem matches_literal {word : List Char} :
    (literal word).Matches fold before taken after ↔ taken.map fold = word.map fold := by
  induction word generalizing before taken with
  | nil =>
    rw [List.map_nil, List.map_eq_nil_iff]
    constructor
    · intro h
      cases h
      rfl
    · rintro rfl
      exact .nothing
  | cons c word ih =>
    simp only [literal, matches_andThen, matches_oneOf, ih, Admits, beq_iff_eq, exists_eq_left]
    constructor
    · rintro ⟨_, t, rfl, ⟨d, rfl, hd⟩, ht⟩
      rw [List.map_append, ht, List.map_cons, List.map_nil, hd]
      rfl
    · intro h
      obtain ⟨d, t, rfl, hd, ht⟩ := List.map_eq_cons_iff.mp h
      exact ⟨[d], t, rfl, ⟨d, rfl, hd⟩, ht⟩

end Pattern

def IsAscii (c : Char) : Prop := c.toNat < 128

/-- What is used of Unicode's simple case folding. Two letters beyond ASCII fold into it, and no
other character folds to the same as a blank. -/
structure SimpleFolding (fold : Char → Char) : Prop where
  ascii : ∀ c, IsAscii c → fold c = c.toLower
  beyond : ∀ c, ¬ IsAscii c → IsAscii (fold c) → c = '\u017f' ∨ c = '\u212a'
  long_s : fold '\u017f' = 's'
  kelvin : fold '\u212a' = 'k'
  blank : ∀ c d, isBlank d = true → fold c = fold d → c = d

theorem toNat_toUpper (c : Char) :
    c.toUpper.toNat = if 97 ≤ c.toNat ∧ c.toNat ≤ 122 then c.toNat - 32 else c.toNat := by
  have hrange : ('a'.val ≤ c.val ∧ c.val ≤ 'z'.val) ↔ 97 ≤ c.toNat ∧ c.toNat ≤ 122 := by
    rw [UInt32.le_iff_toNat_le, UInt32.le_iff_toNat_le]
    rfl
  by_cases h : 97 ≤ c.toNat ∧ c.toNat ≤ 122
  · have hc : c.val.toNat = c.toNat := rfl
    have hshift : ('A'.val - 'a'.val).toNat = 4294967264 := rfl
    have hsum : (c.val + ('A'.val - 'a'.val)).toNat = c.toNat - 32 := by
      rw [UInt32.toNat_add, hc, hshift]
      omega
    rw [if_pos h]
    delta Char.toUpper
    rw [dif_pos (hrange.mpr h)]
    exact hsum
  · have hupper : c.toUpper = c := dif_neg (hrange.not.mpr h)
    rw [if_neg h, hupper]

theorem toNat_toLower (c : Char) :
    c.toLower.toNat = if 65 ≤ c.toNat ∧ c.toNat ≤ 90 then c.toNat + 32 else c.toNat := by
  have hrange : ('A'.val ≤ c.val ∧ c.val ≤ 'Z'.val) ↔ 65 ≤ c.toNat ∧ c.toNat ≤ 90 := by
    rw [UInt32.le_iff_toNat_le, UInt32.le_iff_toNat_le]
    rfl
  by_cases h : 65 ≤ c.toNat ∧ c.toNat ≤ 90
  · have hc : c.val.toNat = c.toNat := rfl
    have hshift : ('a'.val - 'A'.val).toNat = 32 := rfl
    have hsum : (c.val + ('a'.val - 'A'.val)).toNat = c.toNat + 32 := by
      rw [UInt32.toNat_add, hc, hshift]
      omega
    rw [if_pos h]
    delta Char.toLower
    rw [dif_pos (hrange.mpr h)]
    exact hsum
  · have hlower : c.toLower = c := dif_neg (hrange.not.mpr h)
    rw [if_neg h, hlower]

theorem toLower_eq_iff {c d : Char} : c.toLower = d.toLower ↔ c.toUpper = d.toUpper := by
  rw [← Char.toNat_inj, ← Char.toNat_inj, toNat_toLower, toNat_toLower, toNat_toUpper,
    toNat_toUpper]
  split_ifs <;> omega

theorem isAscii_toUpper {c : Char} : IsAscii c.toUpper ↔ IsAscii c := by
  simp only [IsAscii, toNat_toUpper]
  split_ifs <;> omega

theorem isAscii_toLower {c : Char} : IsAscii c.toLower ↔ IsAscii c := by
  simp only [IsAscii, toNat_toLower]
  split_ifs <;> omega

theorem isBlank_toUpper (c : Char) : isBlank c.toUpper = isBlank c := by
  rw [Bool.eq_iff_iff]
  simp only [isBlank, toNat_toUpper, Bool.or_eq_true, Bool.and_eq_true, decide_eq_true_eq,
    beq_iff_eq]
  split_ifs <;> omega

theorem toLower_eq_blank {c d : Char} (hd : isBlank d = true) : c.toLower = d ↔ c = d := by
  simp only [isBlank, Bool.or_eq_true, Bool.and_eq_true, decide_eq_true_eq, beq_iff_eq] at hd
  rw [← Char.toNat_inj, ← Char.toNat_inj, toNat_toLower]
  split_ifs <;> omega

namespace SimpleFolding

variable {fold : Char → Char} {c d : Char}

/-- Of the characters that fold to the same as an ASCII letter, only those of `S` and `K` are not
all ASCII. -/
theorem fold_eq_iff (h : SimpleFolding fold) (hd : IsAscii d) (hs : d.toUpper ≠ 'S')
    (hk : d.toUpper ≠ 'K') : fold c = fold d ↔ c.toUpper = d.toUpper := by
  rw [h.ascii d hd, ← toLower_eq_iff]
  by_cases hc : IsAscii c
  · rw [h.ascii c hc]
  · constructor
    · intro heq
      have hascii : IsAscii (fold c) := by
        rw [heq, isAscii_toLower]
        exact hd
      obtain rfl | rfl := h.beyond c hc hascii
      · rw [h.long_s] at heq
        have hletter : ('s' : Char).toLower = d.toLower := heq
        exact absurd (toLower_eq_iff.mp hletter).symm hs
      · rw [h.kelvin] at heq
        have hletter : ('k' : Char).toLower = d.toLower := heq
        exact absurd (toLower_eq_iff.mp hletter).symm hk
    · intro heq
      rw [← isAscii_toLower, heq, isAscii_toLower] at hc
      exact absurd hd hc

theorem map_fold_eq_iff (h : SimpleFolding fold) {text word : List Char}
    (hword : ∀ d ∈ word, IsAscii d ∧ d.toUpper ≠ 'S' ∧ d.toUpper ≠ 'K') :
    text.map fold = word.map fold ↔ text.map Char.toUpper = word.map Char.toUpper := by
  induction word generalizing text with
  | nil => simp
  | cons d word ih =>
    obtain ⟨⟨hascii, hs, hk⟩, hrest⟩ := List.forall_mem_cons.mp hword
    cases text with
    | nil => simp
    | cons c text =>
      simp only [List.map_cons, List.cons.injEq, ih hrest, h.fold_eq_iff hascii hs hk]

end SimpleFolding

end ConnectionPool.Text

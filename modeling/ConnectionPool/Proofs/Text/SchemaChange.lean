import ConnectionPool.Driver.Engine
import ConnectionPool.Proofs.Text.Pattern
import Mathlib.Data.List.TakeWhile

/-!
# Statements that change the schema

Whether a statement changes the schema is decided by its first word. The test accepts just the texts
of one pattern, and the engine, which looks at first words in its own way, can prepare each of them
and takes it for a write.
-/

namespace ConnectionPool

open Text

namespace Sql

/-- Texts that differ at most in the case of ASCII letters. -/
def SameLetters (a b : List Char) : Prop := a.map Char.toUpper = b.map Char.toUpper

/-- A text in three parts: blanks, a keyword of a schema change, and what follows its end. -/
structure OpensSchemaChange (text blanks keyword rest : List Char) : Prop where
  parts : text = blanks ++ keyword ++ rest
  blank : ∀ c ∈ blanks, isBlank c = true
  word : ∃ word ∈ ["ATTACH", "DETACH", "CREATE", "DROP", "ALTER"], SameLetters keyword word.toList
  ended : rest = [] ∨ ∃ c after, rest = c :: after ∧ (isBlank c = true ∨ c = ';' ∨ c = '(')

/-- The pattern of schema changes: blanks at the start, a keyword, and a character that ends it or
the end of the text. -/
def schemaPattern : Pattern :=
  .andThen .textStart (.andThen (.repeated (.oneOf isBlank))
    (.andThen
      (.anyOf (["ATTACH", "DETACH", "CREATE", "DROP", "ALTER"].map fun w => .literal w.toList))
      (.orElse (.oneOf fun c => isBlank c || c == ';' || c == '(') .textEnd)))

theorem afterWord?_eq_some {word text rest : List Char} :
    afterWord? word text = some rest ↔
      ∃ keyword, text = keyword ++ rest ∧ keyword.map Char.toUpper = word := by
  induction word generalizing text with
  | nil => simp [afterWord?, List.map_eq_nil_iff, eq_comm]
  | cons w word ih =>
    cases text with
    | nil => simp [afterWord?]
    | cons c text =>
      by_cases hc : c.toUpper = w
      · rw [afterWord?, if_pos hc, ih]
        constructor
        · rintro ⟨keyword, rfl, rfl⟩
          exact ⟨c :: keyword, rfl, by rw [List.map_cons, hc]⟩
        · rintro ⟨keyword, htext, hword⟩
          obtain ⟨d, keyword, rfl, -, rfl⟩ := List.map_eq_cons_iff.mp hword
          exact ⟨keyword, (List.cons.inj htext).2, rfl⟩
      · rw [afterWord?, if_neg hc]
        constructor
        · nofun
        · rintro ⟨keyword, htext, hword⟩
          obtain ⟨d, keyword, rfl, rfl, -⟩ := List.map_eq_cons_iff.mp hword
          exact absurd (congrArg Char.toUpper (List.cons.inj htext).1) hc

theorem isSome_afterWord? {word text : List Char} :
    beginsWith word text = true ↔
      ∃ keyword rest, text = keyword ++ rest ∧ keyword.map Char.toUpper = word := by
  rw [beginsWith, Option.isSome_iff_exists]
  simp only [afterWord?_eq_some]
  exact exists_comm

theorem endsKeyword_iff {rest : List Char} :
    endsKeyword rest = true ↔
      rest = [] ∨ ∃ c after, rest = c :: after ∧ (isBlank c = true ∨ c = ';' ∨ c = '(') := by
  cases rest with
  | nil => simp [endsKeyword]
  | cons c after => simp [endsKeyword, or_assoc]

theorem schemaWords_letters :
    ∀ word ∈ schemaWords, ∀ c ∈ word.toList,
      c.toNat < 128 ∧ c.toUpper = c ∧ c ≠ 'S' ∧ c ≠ 'K' := by
  have hall : schemaWords.all (fun word => word.toList.all fun c =>
      c.toNat < 128 && c.toUpper == c && c != 'S' && c != 'K') = true := by
    decide +kernel
  simpa [and_assoc] using hall

theorem toUpper_schemaWord {word : String} (h : word ∈ schemaWords) :
    word.toList.map Char.toUpper = word.toList :=
  (List.map_congr_left fun c hc => (schemaWords_letters word h c hc).2.1).trans (List.map_id _)

/-- No keyword begins with a blank, so that the blanks before it are all there are. -/
theorem dropBlanks_append {blanks text : List Char} (h : ∀ c ∈ blanks, isBlank c = true) :
    dropBlanks (blanks ++ text) = dropBlanks text := by
  rw [dropBlanks, List.dropWhile_append_of_pos h, dropBlanks]

theorem dropBlanks_of_word {keyword rest : List Char} {word : String} (h : word ∈ schemaWords)
    (hk : SameLetters keyword word.toList) : dropBlanks (keyword ++ rest) = keyword ++ rest := by
  have hfirst : ∀ word ∈ schemaWords, word.toList.head?.any isBlank = false ∧ word.toList ≠ [] := by
    decide +kernel
  obtain ⟨hhead, hne⟩ := hfirst word h
  rw [SameLetters, toUpper_schemaWord h] at hk
  cases keyword with
  | nil => exact absurd hk.symm hne
  | cons c keyword =>
    rw [← hk, List.map_cons, List.head?_cons, Option.any_some, isBlank_toUpper] at hhead
    rw [dropBlanks, List.cons_append, List.dropWhile_cons_of_neg (by rw [hhead]; decide)]

theorem changesSchema_iff_opens {sql : String} :
    changesSchema sql = true ↔
      ∃ blanks keyword rest, OpensSchemaChange sql.toList blanks keyword rest := by
  rw [changesSchema, List.any_eq_true]
  constructor
  · rintro ⟨word, hword, htest⟩
    split at htest
    · rename_i rest hafter
      obtain ⟨keyword, hbody, hkeyword⟩ := afterWord?_eq_some.mp hafter
      refine ⟨sql.toList.takeWhile isBlank, keyword, rest, ?_, ?_, ⟨word, hword, ?_⟩,
        endsKeyword_iff.mp htest⟩
      · rw [List.append_assoc, ← hbody, body, dropBlanks, List.takeWhile_append_dropWhile]
      · exact fun c hc => List.mem_takeWhile_imp hc
      · rw [SameLetters, toUpper_schemaWord hword, hkeyword]
    · cases htest
  · rintro ⟨blanks, keyword, rest, h⟩
    obtain ⟨word, hword, hkeyword⟩ := h.word
    have hafter : afterWord? word.toList (body sql) = some rest := by
      rw [afterWord?_eq_some]
      refine ⟨keyword, ?_, ?_⟩
      · rw [body, h.parts, List.append_assoc, dropBlanks_append h.blank,
          dropBlanks_of_word hword hkeyword]
      · rw [hkeyword, toUpper_schemaWord hword]
    exact ⟨word, hword, by rw [hafter]; exact endsKeyword_iff.mpr h.ended⟩

/-- Only itself folds to the same as a character that is blank or a sign of ASCII. -/
theorem admits_blank {fold : Char → Char} (hf : SimpleFolding fold) {c : Char} :
    Pattern.Admits fold isBlank c ↔ isBlank c = true := by
  constructor
  · rintro ⟨d, hd, hfold⟩
    exact hf.blank c d hd hfold ▸ hd
  · intro hc
    exact ⟨c, hc, rfl⟩

theorem toUpper_eq_sign {c d : Char} (hd : d = ';' ∨ d = '(') :
    c.toUpper = d.toUpper ↔ c = d := by
  have hcode : d.toNat = 59 ∨ d.toNat = 40 := by
    obtain rfl | rfl := hd
    · exact .inl rfl
    · exact .inr rfl
  rw [← Char.toNat_inj, ← Char.toNat_inj, toNat_toUpper, toNat_toUpper]
  split_ifs <;> omega

theorem fold_eq_sign {fold : Char → Char} (hf : SimpleFolding fold) {c d : Char}
    (hd : d = ';' ∨ d = '(') : fold c = fold d ↔ c = d := by
  have hsign : IsAscii d ∧ d.toUpper ≠ 'S' ∧ d.toUpper ≠ 'K' := by
    obtain rfl | rfl := hd
    · exact ⟨by unfold IsAscii; decide, by decide, by decide⟩
    · exact ⟨by unfold IsAscii; decide, by decide, by decide⟩
  rw [hf.fold_eq_iff hsign.1 hsign.2.1 hsign.2.2, toUpper_eq_sign hd]

theorem admits_end {fold : Char → Char} (hf : SimpleFolding fold) {c : Char} :
    Pattern.Admits fold (fun c => isBlank c || c == ';' || c == '(') c ↔
      isBlank c = true ∨ c = ';' ∨ c = '(' := by
  simp only [Pattern.Admits, Bool.or_eq_true, beq_iff_eq, or_assoc]
  constructor
  · rintro ⟨d, hd | hd, hfold⟩
    · exact .inl (hf.blank c d hd hfold ▸ hd)
    · rw [fold_eq_sign hf hd] at hfold
      exact .inr (hfold ▸ hd)
  · intro hc
    exact ⟨c, hc, rfl⟩

theorem matches_word {fold : Char → Char} (hf : SimpleFolding fold)
    {before keyword after : List Char} :
    (Pattern.anyOf (["ATTACH", "DETACH", "CREATE", "DROP", "ALTER"].map fun w =>
        .literal w.toList)).Matches fold before keyword after ↔
      ∃ word ∈ ["ATTACH", "DETACH", "CREATE", "DROP", "ALTER"],
        SameLetters keyword word.toList := by
  simp only [Pattern.matches_anyOf, List.mem_map, exists_exists_and_eq_and]
  refine exists_congr fun word => and_congr_right fun hword => ?_
  rw [Pattern.matches_literal]
  refine hf.map_fold_eq_iff fun d hd => ?_
  obtain ⟨hascii, hupper, hs, hk⟩ := schemaWords_letters word hword d hd
  exact ⟨hascii, hupper.symm ▸ hs, hupper.symm ▸ hk⟩

/-- What the pattern matches in a text is its first part with the keyword and the character that
ends it. -/
theorem schemaPattern_found {fold : Char → Char} (hf : SimpleFolding fold) {text : List Char} :
    schemaPattern.IsFoundIn fold text ↔
      ∃ blanks keyword rest, OpensSchemaChange text blanks keyword rest := by
  simp only [Pattern.IsFoundIn, schemaPattern, Pattern.matches_andThen, Pattern.matches_textStart,
    Pattern.matches_repeated_oneOf, matches_word hf, Pattern.matches_orElse,
    Pattern.matches_oneOf, Pattern.matches_textEnd, admits_blank hf, admits_end hf]
  constructor
  · rintro ⟨_, _, after, htext, _, _, rfl, ⟨rfl, rfl⟩, blanks, _, rfl, hblanks, keyword, ending,
      rfl, hword, hending⟩
    refine ⟨blanks, keyword, ending ++ after, by simpa using htext, hblanks, hword, ?_⟩
    obtain ⟨c, rfl, hc⟩ | ⟨rfl, rfl⟩ := hending
    · exact .inr ⟨c, after, rfl, hc⟩
    · exact .inl rfl
  · rintro ⟨blanks, keyword, rest, h⟩
    obtain ⟨ending, after, hrest, hending⟩ : ∃ ending after, rest = ending ++ after ∧
        ((∃ c, ending = [c] ∧ (isBlank c = true ∨ c = ';' ∨ c = '(')) ∨
          ending = [] ∧ after = []) := by
      obtain rfl | ⟨c, after, rfl, hc⟩ := h.ended
      · exact ⟨[], [], rfl, .inr ⟨rfl, rfl⟩⟩
      · exact ⟨[c], after, rfl, .inl ⟨c, rfl, hc⟩⟩
    refine ⟨[], blanks ++ (keyword ++ ending), after, ?_, [], _, rfl, ⟨rfl, rfl⟩, blanks, _, rfl,
      h.blank, keyword, ending, rfl, h.word, hending⟩
    rw [h.parts, hrest]
    simp

theorem changesSchema_congr {sql other : String} (h : body other = body sql) :
    changesSchema other = changesSchema sql := by
  rw [changesSchema, changesSchema, h]

namespace OpensSchemaChange

variable {text other blanks keyword rest : List Char}

theorem sameLetters (h : OpensSchemaChange text blanks keyword rest)
    (hsame : SameLetters other text) :
    ∃ blanks keyword rest, OpensSchemaChange other blanks keyword rest := by
  rw [SameLetters, h.parts, List.map_append, List.map_append] at hsame
  obtain ⟨front, rest', rfl, hfront, hrest⟩ := List.map_eq_append_iff.mp hsame
  obtain ⟨blanks', keyword', rfl, hblanks, hkeyword⟩ := List.map_eq_append_iff.mp hfront
  obtain ⟨word, hword, hletters⟩ := h.word
  refine ⟨blanks', keyword', rest', rfl, ?_, ⟨word, hword, hkeyword.trans hletters⟩, ?_⟩
  · intro c hc
    have hmem : c.toUpper ∈ blanks.map Char.toUpper := hblanks ▸ List.mem_map_of_mem hc
    obtain ⟨d, hd, hcase⟩ := List.mem_map.mp hmem
    rw [← isBlank_toUpper, ← hcase, isBlank_toUpper]
    exact h.blank d hd
  · obtain rfl | ⟨d, after, rfl, hd⟩ := h.ended
    · exact .inl (List.map_eq_nil_iff.mp hrest)
    · obtain ⟨c, after', rfl, hcase, -⟩ := List.map_eq_cons_iff.mp hrest
      refine .inr ⟨c, after', rfl, ?_⟩
      obtain hblank | hsign := hd
      · rw [← isBlank_toUpper, hcase, isBlank_toUpper]
        exact .inl hblank
      · exact .inr ((toUpper_eq_sign hsign).mp hcase ▸ hsign)

theorem withRest {c : Char} (h : OpensSchemaChange text blanks keyword (c :: rest))
    (more : List Char) :
    OpensSchemaChange (blanks ++ keyword ++ c :: more) blanks keyword (c :: more) where
  parts := rfl
  blank := h.blank
  word := h.word
  ended := by
    obtain hnil | ⟨d, after, hrest, hd⟩ := h.ended
    · cases hnil
    · exact .inr ⟨c, more, rfl, (List.cons.inj hrest).1 ▸ hd⟩

theorem isAscii (h : OpensSchemaChange text blanks keyword rest) : ∀ c ∈ keyword, IsAscii c := by
  intro c hc
  obtain ⟨word, hword, hletters⟩ := h.word
  rw [SameLetters, toUpper_schemaWord hword] at hletters
  have hmem : c.toUpper ∈ word.toList := hletters ▸ List.mem_map_of_mem hc
  exact isAscii_toUpper.mp (schemaWords_letters word hword _ hmem).1

end OpensSchemaChange

theorem changesSchema_sameLetters {sql other : String} (h : SameLetters other.toList sql.toList) :
    changesSchema other = changesSchema sql := by
  rw [Bool.eq_iff_iff, changesSchema_iff_opens, changesSchema_iff_opens]
  constructor
  · rintro ⟨blanks, keyword, rest, hopens⟩
    exact hopens.sameLetters h.symm
  · rintro ⟨blanks, keyword, rest, hopens⟩
    exact hopens.sameLetters h

theorem not_beginsWith {sql : String} {c : Char} {word : List Char}
    (hs : changesSchema sql = true) (hc : c ≠ 'A' ∧ c ≠ 'C' ∧ c ≠ 'D') :
    beginsWith (c :: word) (body sql) = false := by
  have hfirst : ∀ word ∈ schemaWords, word.toList.head? ∈ ['A', 'C', 'D'].map some := by
    decide +kernel
  rw [changesSchema, List.any_eq_true] at hs
  obtain ⟨keyword, hkeyword, htest⟩ := hs
  obtain ⟨d, hd, hhead⟩ := List.mem_map.mp (hfirst keyword hkeyword)
  split at htest
  · rename_i rest hafter
    obtain ⟨letters, hbody, hletters⟩ := afterWord?_eq_some.mp hafter
    rw [← hletters, List.head?_map, eq_comm, Option.map_eq_some_iff] at hhead
    obtain ⟨first, hfirst, rfl⟩ := hhead
    obtain ⟨others, rfl⟩ := List.head?_eq_some_iff.mp hfirst
    rw [Bool.eq_false_iff, Ne, isSome_afterWord?]
    rintro ⟨other, rest', hother, hcase⟩
    obtain ⟨first', others', rfl, hcase', -⟩ := List.map_eq_cons_iff.mp hcase
    rw [hbody, List.cons_append, List.cons_append, List.cons.injEq] at hother
    rw [hother.1, hcase'] at hd
    simp only [List.mem_cons, List.not_mem_nil, or_false] at hd
    exact hd.elim hc.1 fun hd => hd.elim hc.2.1 hc.2.2
  · cases htest

theorem body_ne_nil {sql : String} (hs : changesSchema sql = true) : body sql ≠ [] := by
  intro hnil
  rw [changesSchema, hnil] at hs
  revert hs
  decide +kernel

theorem isMalformed_eq_false {sql : String} (hs : changesSchema sql = true) :
    isMalformed sql = false := by
  have hword : beginsWith "INVALID".toList (body sql) = false :=
    not_beginsWith hs (c := 'I') (by decide)
  rw [isMalformed, hword, Bool.or_false, List.isEmpty_eq_false_iff]
  exact body_ne_nil hs

theorem isQuery_eq_false {sql : String} (hs : changesSchema sql = true) :
    isQuery sql = false := by
  have hselect : beginsWith "SELECT".toList (body sql) = false :=
    not_beginsWith hs (c := 'S') (by decide)
  have hvalues : beginsWith "VALUES".toList (body sql) = false :=
    not_beginsWith hs (c := 'V') (by decide)
  rw [isQuery, hselect, hvalues, Bool.or_false]

end Sql

namespace Engine

/-- An open connection takes a text for a write that yields no rows: a statement is prepared for it,
and it runs to its end without a row unless the connection refuses writes. -/
def TakesForWrite (e : Engine) (raw : RawConnection) (sql : String) : Prop :=
  ∃ s after, e.prepare raw sql = (.ok s, { raw with lastError := none }, after) ∧
    s.sql = sql ∧ s.rows = 0 ∧ s.writes = true ∧
    (e.faults.steps = 0 → e.faults.extraRows = 0 →
      (after.run s).1 = if raw.readOnly then .error .readOnly else .ok 0)

theorem takesForWrite {sql : String} (hs : Sql.changesSchema sql = true) (e : Engine)
    {raw : RawConnection} (ho : raw.isOpen = true) : e.TakesForWrite raw sql := by
  have hquery := Sql.isQuery_eq_false hs
  obtain ⟨after, hprepare, hfaults⟩ : ∃ after, e.prepare raw sql =
      (.ok (e.statementFor raw sql), { raw with lastError := none }, after) ∧
        after.faults = e.faults := by
    rw [prepare, ho, Sql.isMalformed_eq_false hs]
    exact ⟨_, rfl, rfl⟩
  refine ⟨e.statementFor raw sql, after, hprepare, rfl, ?_, ?_, ?_⟩
  · simp [statementFor, hquery]
  · simp [statementFor, hquery]
  · intro hsteps hextra
    rw [← hfaults] at hsteps
    cases hreadOnly : raw.readOnly <;>
      simp [run, runFrom, step, hsteps, Statement.advance, statementFor, hquery, hextra, hreadOnly]

end Engine

namespace Sql

/-- What is to be known of the test for schema changes on one text. -/
structure SchemaTest (fold : Char → Char) (sql : String) : Prop where
  pattern : changesSchema sql = true ↔ schemaPattern.IsFoundIn fold sql.toList
  grammar : changesSchema sql = true ↔
    ∃ blanks keyword rest, OpensSchemaChange sql.toList blanks keyword rest
  /-- Blanks in front do not matter. -/
  blanks : ∀ more : List Char, (∀ c ∈ more, isBlank c = true) →
    changesSchema (String.ofList more ++ sql) = changesSchema sql
  letters : ∀ other : String, SameLetters other.toList sql.toList →
    changesSchema other = changesSchema sql
  /-- Nor does what follows the end of the keyword. -/
  rest : ∀ blanks keyword c rest, OpensSchemaChange sql.toList blanks keyword (c :: rest) →
    ∀ more, changesSchema (String.ofList (blanks ++ keyword ++ c :: more)) = changesSchema sql
  isAscii : ∀ blanks keyword rest, OpensSchemaChange sql.toList blanks keyword rest →
    ∀ c ∈ keyword, IsAscii c
  taken : changesSchema sql = true → ∀ (e : Engine) (raw : RawConnection), raw.isOpen = true →
    e.TakesForWrite raw sql

/-- A text is taken for a schema change just if it consists of blanks, one of five keywords in
whatever ASCII case, and a blank, a semicolon, an opening bracket or the end of the text. The
pattern accepts the same texts although it folds case over all of Unicode. -/
theorem schema_changes_recognized {fold : Char → Char} (hf : SimpleFolding fold) (sql : String) :
    SchemaTest fold sql where
  pattern := changesSchema_iff_opens.trans (schemaPattern_found hf).symm
  grammar := changesSchema_iff_opens
  blanks := by
    intro more hmore
    apply changesSchema_congr
    rw [body, String.toList_append, String.toList_ofList, dropBlanks_append hmore, body]
  letters := fun _ hsame => changesSchema_sameLetters hsame
  rest := by
    intro blanks keyword c rest hopens more
    have hother := hopens.withRest more
    rw [changesSchema_iff_opens.mpr ⟨_, _, _, hopens⟩, changesSchema_iff_opens]
    rw [← String.toList_ofList (l := blanks ++ keyword ++ c :: more)] at hother
    exact ⟨_, _, _, hother⟩
  isAscii := fun _ _ _ hopens => hopens.isAscii
  taken := fun hs e _ ho => e.takesForWrite hs ho

/-- A folding that takes the long s and the sign of Kelvin for ASCII letters. -/
private def folding (c : Char) : Char :=
  if c = '\u017f' then 's' else if c = '\u212a' then 'k' else c.toLower

private theorem simpleFolding_folding : SimpleFolding folding where
  ascii := by
    intro c hc
    have hs : c ≠ '\u017f' := by
      rintro rfl
      exact absurd hc (by unfold IsAscii; decide)
    have hk : c ≠ '\u212a' := by
      rintro rfl
      exact absurd hc (by unfold IsAscii; decide)
    rw [folding, if_neg hs, if_neg hk]
  beyond := by
    intro c hc hfold
    by_contra hother
    rw [not_or] at hother
    rw [folding, if_neg hother.1, if_neg hother.2, isAscii_toLower] at hfold
    exact hc hfold
  long_s := rfl
  kelvin := rfl
  blank := by
    intro c d hd hfold
    have hd' : folding d = d := by
      rw [folding, if_neg (by rintro rfl; cases hd), if_neg (by rintro rfl; cases hd)]
      exact (toLower_eq_blank hd).mpr rfl
    rw [hd', folding] at hfold
    split_ifs at hfold
    · rw [← hfold] at hd
      cases hd
    · rw [← hfold] at hd
      cases hd
    · exact (toLower_eq_blank hd).mp hfold

/-- An ideographic space and mixed case are fine, another word is not. -/
theorem schema_changes_recognized_spaced :
    SimpleFolding folding ∧ changesSchema "\u3000cReAtE(x)" = true ∧
      schemaPattern.IsFoundIn folding "\u3000cReAtE(x)".toList ∧
      changesSchema "CREATED" = false ∧ ¬ schemaPattern.IsFoundIn folding "CREATED".toList := by
  have hyes : changesSchema "\u3000cReAtE(x)" = true := by decide +kernel
  have hno : changesSchema "CREATED" = false := by decide +kernel
  refine ⟨simpleFolding_folding, hyes, ?_, hno, ?_⟩
  · exact (schema_changes_recognized simpleFolding_folding _).pattern.mp hyes
  · rw [← (schema_changes_recognized simpleFolding_folding "CREATED").pattern, hno]
    exact Bool.false_ne_true

end Sql

end ConnectionPool

import ConnectionPool.Document.Reader
import ConnectionPool.Document.Writer
import Mathlib.Data.List.Nodup
import Mathlib.Data.List.TakeDrop

/-!
# Documents as text

What is written of a document is read as the same document. A reader is shown what it finds at the
start of any text: all of a value is taken, since nothing that can follow a value continues it.
-/

namespace ConnectionPool.Document

/-- No key is written twice. -/
def Distinct (fields : List (String × Document)) : Prop := (fields.map Prod.fst).Nodup

theorem lookup_eq_none {fields : List (String × Document)} {key : String} :
    fields.lookup key = none ↔ key ∉ fields.map Prod.fst := by
  rw [List.lookup_eq_none_iff, List.mem_map, not_exists]
  refine forall_congr' fun field => ?_
  rw [not_and, bne_iff_ne, Ne, eq_comm]

/-- Begins with what may stand behind a value in written text, or is empty. -/
def Closes (rest : List Char) : Prop := ∀ c ∈ rest.head?, c = ',' ∨ c = ']' ∨ c = '\x7d'

theorem skipSpace_of_not {c : Char} (hc : isSpace c = false) (text : List Char) :
    skipSpace (c :: text) = c :: text :=
  List.dropWhile_cons_of_neg (by rw [hc]; exact Bool.false_ne_true)

theorem hexDigit?_digitChar : ∀ n < 16, hexDigit? (Nat.digitChar n) = some n := by decide

theorem readString?_control {c : Char} (hc : c.toNat < 0x20) (text : List Char) :
    readString? ('\\' :: 'u' :: '0' :: '0' :: Nat.digitChar (c.toNat / 16) ::
      Nat.digitChar (c.toNat % 16) :: text) =
        (readString? text).map fun (value, rest) => (c :: value, rest) := by
  have hunit : hexUnit? '0' '0' (Nat.digitChar (c.toNat / 16)) (Nat.digitChar (c.toNat % 16)) =
      some c.toNat := by
    have hzero : hexDigit? '0' = some 0 := rfl
    rw [hexUnit?, hzero, hexDigit?_digitChar _ (by omega), hexDigit?_digitChar _ (by omega)]
    simp only [Option.bind_eq_bind, Option.bind_some, Option.pure_def, Option.some.injEq]
    omega
  have hhigh : isHighSurrogate c.toNat = false := by
    rw [isHighSurrogate, Bool.and_eq_false_iff]
    exact .inl (decide_eq_false (by omega))
  have hlow : isLowSurrogate c.toNat = false := by
    rw [isLowSurrogate, Bool.and_eq_false_iff]
    exact .inl (decide_eq_false (by omega))
  simp only [readString?, hunit, hhigh, hlow, Bool.false_eq_true, if_false, Char.ofNat_toNat]

theorem readString?_escapeChar (c : Char) (text : List Char) :
    readString? (escapeChar c ++ text) =
      (readString? text).map fun (value, rest) => (c :: value, rest) := by
  rw [escapeChar]
  split_ifs with hsign hcontrol
  · obtain rfl | rfl : c = '"' ∨ c = '\\' := by simpa using hsign
    · rfl
    · rfl
  · exact readString?_control hcontrol text
  · have hsign : c ≠ '"' ∧ c ≠ '\\' := by simpa using hsign
    rw [List.singleton_append, readString?, if_neg hcontrol]
    · exact hsign.1
    · exact fun _ _ _ _ _ h => absurd h hsign.2
    · exact fun _ _ h => absurd h hsign.2

theorem readString?_escaped (value rest : List Char) :
    readString? (value.flatMap escapeChar ++ '"' :: rest) = some (value, rest) := by
  induction value with
  | nil => rfl
  | cons c value ih =>
    rw [List.flatMap_cons, List.append_assoc, readString?_escapeChar, ih]
    rfl

theorem toList_stringText (value : String) :
    (stringText value).toList = '"' :: (value.toList.flatMap escapeChar ++ ['"']) := by
  simp [stringText]

theorem le_digitsValue (value : Nat) (digits : List Char) :
    value ≤ digits.foldl (fun value c => value * 10 + digitValue c) value := by
  induction digits generalizing value with
  | nil => exact Nat.le_refl value
  | cons c digits ih =>
    have hrest := ih (value * 10 + digitValue c)
    rw [List.foldl_cons]
    omega

theorem takeLeading_eq (value : Nat) (digits : List Char)
    (h : digits.foldl (fun value c => value * 10 + digitValue c) value < UInt64.size) :
    takeLeading value digits =
      (digits.foldl (fun value c => value * 10 + digitValue c) value, []) := by
  induction digits generalizing value with
  | nil => rfl
  | cons c digits ih =>
    have hle := le_digitsValue (value * 10 + digitValue c) digits
    rw [takeLeading, if_pos (Nat.lt_of_le_of_lt hle h)]
    exact ih _ h

theorem roundDouble_le (n : Nat) : roundDouble n ≤ 2 * n := by
  by_cases hn : n < Nat.pow 2 53
  · rw [roundDouble_of_lt hn]
    omega
  · have hpos : n ≠ 0 := by
      rintro rfl
      exact hn (by decide)
    have hunit : 2 ^ (n.log2 + 1 - 53) ≤ n :=
      Nat.le_trans (Nat.pow_le_pow_right (by decide) (by omega)) (Nat.log2_self_le hpos)
    have hquotient := Nat.div_mul_le_self n (2 ^ (n.log2 + 1 - 53))
    simp only [roundDouble, Nat.pow_eq]
    split_ifs
    · omega
    · rw [Nat.add_mul, Nat.one_mul]
      omega

theorem isDouble_of_lt {n : Nat} (h : n < UInt64.size) : isDouble n 0 = true := by
  have hone : roundDouble (Nat.pow 10 (0 : Int).toNat) = 1 := by decide
  have hinner := roundDouble_le n
  have houter := roundDouble_le (roundDouble n)
  have hpower {k : Nat} (hk : 67 ≤ k) : 4 * UInt64.size < Nat.pow 2 k :=
    Nat.lt_of_lt_of_le (by decide) (Nat.pow_le_pow_right (by decide) hk)
  have hlt : roundDouble (roundDouble n) < 4 * UInt64.size := by omega
  rw [isDouble, hone, Nat.mul_one, Bool.or_eq_true, Bool.and_eq_true, decide_eq_true_iff,
    decide_eq_true_iff]
  generalize hk : 1024 = k
  exact .inr ⟨by decide, Nat.lt_trans hlt (hpower (hk ▸ by decide))⟩

theorem digitsValue_toDigits (n : Nat) : digitsValue (Nat.toDigits 10 n) = n := by
  have hvalue := Nat.ofDigitChars_ten_toDigits (n := n)
  rw [Nat.ofDigitChars_eq_foldl] at hvalue
  simpa only [digitsValue, digitValue, Nat.mul_comm] using hvalue

theorem digitsAreDouble_toDigits {n : Nat} (h : n < UInt64.size) :
    digitsAreDouble (Nat.toDigits 10 n) [] 0 = true := by
  have hvalue := digitsValue_toDigits n
  rw [digitsValue] at hvalue
  have hleading := takeLeading_eq 0 (Nat.toDigits 10 n) (by rwa [hvalue])
  rw [hvalue] at hleading
  rw [digitsAreDouble, hleading]
  exact isDouble_of_lt h

theorem head?_toDigits {n : Nat} (hn : n ≠ 0) : (Nat.toDigits 10 n).head? ≠ some '0' := by
  induction n using Nat.strongRecOn with
  | ind n ih =>
    rw [Nat.toDigits_eq_if (by decide)]
    split_ifs with hlt
    · simpa using hn
    · rw [List.head?_append_of_ne_nil _ Nat.toDigits_ne_nil]
      exact ih (n / 10) (by omega) (by omega)

theorem readWhole?_toDigits (n : Nat) {rest : List Char}
    (h : ∀ c ∈ rest.head?, c.isDigit = false) :
    readWhole? (Nat.toDigits 10 n ++ rest) = some (Nat.toDigits 10 n, rest) := by
  have htake : takeDigits (Nat.toDigits 10 n ++ rest) = (Nat.toDigits 10 n, rest) := by
    have hdigits : ∀ c ∈ Nat.toDigits 10 n, c.isDigit = true :=
      fun c hc => Nat.isDigit_of_mem_toDigits (by decide) (by decide) hc
    rw [takeDigits, List.span_eq_takeWhile_dropWhile, List.takeWhile_append_of_pos hdigits,
      List.dropWhile_append_of_pos hdigits]
    cases rest with
    | nil => simp
    | cons c rest => simp [h c rfl]
  rw [readWhole?, htake]
  split
  · rename_i heq
    exact absurd (Prod.mk.inj heq).1 Nat.toDigits_ne_nil
  · rename_i heq
    have hdigits := (Prod.mk.inj heq).1
    by_cases hn : n = 0
    · rw [hn, Nat.toDigits_zero] at hdigits
      cases hdigits
    · exact absurd (congrArg List.head? hdigits) (head?_toDigits hn)
  · rfl

namespace Closes

variable {rest : List Char}

theorem nil : Closes [] := nofun

theorem cons {c : Char} (hc : c = ',' ∨ c = ']' ∨ c = '\x7d') : Closes (c :: rest) := by
  intro d hd
  rwa [← Option.some.inj hd]

theorem not_digit (h : Closes rest) : ∀ c ∈ rest.head?, c.isDigit = false := by
  intro c hc
  obtain rfl | rfl | rfl := h c hc <;> rfl

theorem readFraction? (h : Closes rest) : readFraction? rest = some ([], rest) := by
  cases rest with
  | nil => rfl
  | cons c rest => obtain rfl | rfl | rfl := h c rfl <;> rfl

theorem readExponent? (h : Closes rest) : readExponent? rest = some ([], rest) := by
  cases rest with
  | nil => rfl
  | cons c rest => obtain rfl | rfl | rfl := h c rfl <;> rfl

theorem skipSpace (h : Closes rest) : skipSpace rest = rest := by
  cases rest with
  | nil => rfl
  | cons c rest => obtain rfl | rfl | rfl := h c rfl <;> rfl

end Closes

theorem readNumber?_toDigits {n : Nat} (hn : n < UInt64.size) {rest : List Char}
    (hr : Closes rest) :
    readNumber? false (Nat.toDigits 10 n ++ rest) = some (.integer n, rest) := by
  have hguard : guard (digitsAreDouble (Nat.toDigits 10 n) (List.drop 1 []) (exponentValue [])) =
      some () := if_pos (digitsAreDouble_toDigits hn)
  rw [readNumber?, readWhole?_toDigits n hr.not_digit, Option.bind_eq_bind, Option.bind_some]
  dsimp only
  rw [hr.readFraction?, Option.bind_some]
  dsimp only
  rw [hr.readExponent?, Option.bind_some]
  dsimp only
  rw [hguard, digitsValue_toDigits]
  rfl

/-- A document that is its own text's: it has no numbers but whole ones of 64 bits without sign, no
key stands in it twice, and it is nested no deeper than so many levels. -/
inductive Plain : Nat → Document → Prop
  | null {depth} : Plain depth .null
  | bool {depth b} : Plain depth (.bool b)
  | number {depth n} : n < UInt64.size → Plain depth (.ofNat n)
  | string {depth value} : Plain depth (.string value)
  | array {depth items} : (∀ item ∈ items, Plain depth item) → Plain (depth + 1) (.array items)
  | object {depth fields} : Distinct fields → (∀ field ∈ fields, Plain depth field.2) →
      Plain (depth + 1) (.object fields)

def chars (v : Document) : List Char := v.text.toList

/-- The characters of a field. -/
def fieldChars (field : String × Document) : List Char :=
  '"' :: (field.1.toList.flatMap escapeChar ++ '"' :: ':' :: field.2.chars)

theorem chars_array (items : List Document) :
    (array items).chars = '[' :: (List.intercalate [','] (items.map chars) ++ [']']) := by
  have htexts : itemTexts items = items.map text := by
    induction items with
    | nil => rfl
    | cons item items ih => rw [itemTexts, ih, List.map_cons]
  have hchars : (fun item : Document => item.text.toList) = chars := rfl
  simp [chars, text, bracketed, htexts, String.toList_intercalate, Function.comp_def, hchars]

theorem chars_object (fields : List (String × Document)) :
    (object fields).chars =
      '\x7b' :: (List.intercalate [','] (fields.map fieldChars) ++ ['\x7d']) := by
  have htexts : (fieldTexts fields).map String.toList = fields.map fieldChars := by
    induction fields with
    | nil => rfl
    | cons field fields ih =>
      obtain ⟨key, value⟩ := field
      simp [fieldTexts, ih, fieldChars, chars, toList_stringText]
  simp [chars, text, bracketed, htexts, String.toList_intercalate]

/-- A document is read from its text at the start of any other. Its text begins with no blank, and
not as an array ends. -/
structure ReadsBack (depth : Nat) (v : Document) : Prop where
  exists_head : ∃ c text, v.chars = c :: text ∧ isSpace c = false ∧ c ≠ ']'
  read : ∀ fuel rest, v.chars.length ≤ fuel → Closes rest →
    readValue? fuel depth (v.chars ++ rest) = some (v, rest)

theorem exists_head_joined {P : Char → Prop} {pieces : List (List Char)} (hne : pieces ≠ [])
    (h : ∀ piece ∈ pieces, ∃ c text, piece = c :: text ∧ P c) :
    ∃ c text, [','].intercalate pieces = c :: text ∧ P c := by
  cases pieces with
  | nil => exact absurd rfl hne
  | cons piece pieces =>
    obtain ⟨c, text, rfl, hc⟩ := h piece List.mem_cons_self
    cases pieces with
    | nil => exact ⟨c, text, List.intercalate_singleton, hc⟩
    | cons next pieces => exact ⟨c, _, List.intercalate_cons_cons, hc⟩

theorem chars_ofNat (n : Nat) : (ofNat n).chars = Nat.toDigits 10 n := by
  have htext : (ofNat n).text = toString n := rfl
  rw [chars, htext, Nat.toString_eq_ofList_toDigits, String.toList_ofList]

theorem exists_toDigits (n : Nat) :
    ∃ c text, Nat.toDigits 10 n = c :: text ∧ c.isDigit = true := by
  cases hn : Nat.toDigits 10 n with
  | nil => exact absurd hn Nat.toDigits_ne_nil
  | cons c text =>
    refine ⟨c, text, rfl, Nat.isDigit_of_mem_toDigits (b := 10) (n := n) (by decide) (by decide) ?_⟩
    rw [hn]
    exact List.mem_cons_self

theorem readValue?_digit {c : Char} (hc : c.isDigit = true) (fuel depth : Nat)
    (text : List Char) :
    readValue? (fuel + 1) depth (c :: text) = readNumber? false (c :: text) := by
  rw [readValue?]
  all_goals
    intro rest h
    cases h
    cases hc

theorem exists_head_items {depth : Nat} {items : List Document} (hne : items ≠ [])
    (h : ∀ item ∈ items, ReadsBack depth item) :
    ∃ c text, [','].intercalate (items.map chars) = c :: text ∧ isSpace c = false ∧ c ≠ ']' := by
  apply exists_head_joined
  · rwa [Ne, List.map_eq_nil_iff]
  · rintro _ hm
    obtain ⟨item, hitem, rfl⟩ := List.mem_map.mp hm
    exact (h item hitem).exists_head

theorem skipSpace_items {depth : Nat} {items : List Document} (hne : items ≠ [])
    (h : ∀ item ∈ items, ReadsBack depth item) (rest : List Char) :
    skipSpace ([','].intercalate (items.map chars) ++ rest) =
      [','].intercalate (items.map chars) ++ rest := by
  obtain ⟨c, text, htext, hc, -⟩ := exists_head_items hne h
  rw [htext]
  exact skipSpace_of_not hc _

/-- The items of an array are read one after the other. Each leaves the fuel that those behind it
need, as its text is not empty. -/
theorem readItems?_joined {depth : Nat} {items : List Document} (hne : items ≠ [])
    (h : ∀ item ∈ items, ReadsBack depth item) (fuel : Nat) (rest : List Char)
    (hf : ([','].intercalate (items.map chars)).length < fuel) :
    readItems? fuel depth ([','].intercalate (items.map chars) ++ ']' :: rest) =
      some (items, rest) := by
  induction items generalizing fuel with
  | nil => exact absurd rfl hne
  | cons item items ih =>
    obtain ⟨fuel, rfl⟩ := Nat.exists_eq_succ_of_ne_zero (Nat.ne_of_gt (Nat.zero_lt_of_lt hf))
    obtain ⟨hitem, hitems⟩ := List.forall_mem_cons.mp h
    cases items with
    | nil =>
      rw [List.map_singleton, List.intercalate_singleton] at hf ⊢
      have hclose : Closes (']' :: rest) := .cons (.inr (.inl rfl))
      rw [readItems?, hitem.read fuel _ (Nat.le_of_lt_succ hf) hclose]
      simp only [hclose.skipSpace]
    | cons next items =>
      have hlater := ih (List.cons_ne_nil next items) hitems
      have hskip := skipSpace_items (List.cons_ne_nil next items) hitems (']' :: rest)
      rw [List.map_cons, List.map_cons, List.intercalate_cons_cons, ← List.map_cons] at hf ⊢
      generalize [','].intercalate ((next :: items).map chars) = joined at hlater hskip hf ⊢
      have hcomma : Closes (',' :: (joined ++ ']' :: rest)) := .cons (.inl rfl)
      simp only [List.length_append, List.length_singleton] at hf
      have hfirst := hitem.read fuel _ (by omega) hcomma
      rw [List.append_assoc, List.append_assoc, List.singleton_append, readItems?, hfirst]
      simp only [hcomma.skipSpace, hskip, hlater fuel (by omega), Option.map_some]

theorem fieldChars_append (field : String × Document) (rest : List Char) :
    fieldChars field ++ rest =
      '"' :: (field.1.toList.flatMap escapeChar ++ '"' :: ':' :: (field.2.chars ++ rest)) := by
  simp [fieldChars]

theorem exists_head_fields {fields : List (String × Document)} (hne : fields ≠ []) :
    ∃ text, [','].intercalate (fields.map fieldChars) = '"' :: text := by
  obtain ⟨c, text, htext, rfl⟩ : ∃ c text, [','].intercalate (fields.map fieldChars) = c :: text ∧
      c = '"' := by
    apply exists_head_joined
    · rwa [Ne, List.map_eq_nil_iff]
    · rintro _ hm
      obtain ⟨field, -, rfl⟩ := List.mem_map.mp hm
      exact ⟨_, _, rfl, rfl⟩
  exact ⟨text, htext⟩

theorem skipSpace_fields {fields : List (String × Document)} (hne : fields ≠ [])
    (rest : List Char) :
    skipSpace ([','].intercalate (fields.map fieldChars) ++ rest) =
      [','].intercalate (fields.map fieldChars) ++ rest := by
  obtain ⟨text, htext⟩ := exists_head_fields hne
  rw [htext]
  exact skipSpace_of_not rfl _

theorem ReadsBack.skipSpace {depth : Nat} {v : Document} (h : ReadsBack depth v)
    (rest : List Char) : skipSpace (v.chars ++ rest) = v.chars ++ rest := by
  obtain ⟨c, text, htext, hc, -⟩ := h.exists_head
  rw [htext]
  exact skipSpace_of_not hc _

theorem length_chars_le {fuel : Nat} {field : String × Document}
    (hf : (fieldChars field).length ≤ fuel) : field.2.chars.length ≤ fuel := by
  simp only [fieldChars, List.length_cons, List.length_append] at hf
  omega

theorem readFields?_last {depth fuel : Nat} {field : String × Document}
    (h : ReadsBack depth field.2) (hf : (fieldChars field).length ≤ fuel) (rest : List Char) :
    readFields? (fuel + 1) depth (fieldChars field ++ '\x7d' :: rest) = some ([field], rest) := by
  have hclose : Closes ('\x7d' :: rest) := .cons (.inr (.inr rfl))
  have hcolon (text : List Char) : skipSpace (':' :: text) = ':' :: text := skipSpace_of_not rfl _
  have hvalue := h.read fuel _ (length_chars_le hf) hclose
  rw [fieldChars_append, readFields?, readString?_escaped]
  simp only [hcolon, h.skipSpace, hvalue, hclose.skipSpace, String.ofList_toList]

theorem readFields?_more {depth fuel : Nat} {field : String × Document}
    (h : ReadsBack depth field.2) (hf : (fieldChars field).length ≤ fuel) (text : List Char) :
    readFields? (fuel + 1) depth (fieldChars field ++ ',' :: text) =
      (readFields? fuel depth (skipSpace text)).map fun (fields, rest) =>
        (addField field.1 field.2 fields, rest) := by
  have hcomma : Closes (',' :: text) := .cons (.inl rfl)
  have hcolon (text : List Char) : skipSpace (':' :: text) = ':' :: text := skipSpace_of_not rfl _
  have hvalue := h.read fuel _ (length_chars_le hf) hcomma
  rw [fieldChars_append, readFields?, readString?_escaped]
  simp only [hcolon, h.skipSpace, hvalue, hcomma.skipSpace, String.ofList_toList]

theorem addField_new {key : String} {value : Document} {later : List (String × Document)}
    (h : key ∉ later.map Prod.fst) : addField key value later = (key, value) :: later := by
  rw [addField, lookup_eq_none.mpr h]
  rfl

theorem readFields?_joined {depth : Nat} {fields : List (String × Document)} (hne : fields ≠ [])
    (hkeys : Distinct fields) (h : ∀ field ∈ fields, ReadsBack depth field.2)
    (fuel : Nat) (rest : List Char)
    (hf : ([','].intercalate (fields.map fieldChars)).length < fuel) :
    readFields? fuel depth ([','].intercalate (fields.map fieldChars) ++ '\x7d' :: rest) =
      some (fields, rest) := by
  induction fields generalizing fuel with
  | nil => exact absurd rfl hne
  | cons field fields ih =>
    obtain ⟨fuel, rfl⟩ := Nat.exists_eq_succ_of_ne_zero (Nat.ne_of_gt (Nat.zero_lt_of_lt hf))
    obtain ⟨hfield, hfields⟩ := List.forall_mem_cons.mp h
    obtain ⟨hkey, hkeys⟩ := List.nodup_cons.mp hkeys
    cases fields with
    | nil =>
      rw [List.map_singleton, List.intercalate_singleton] at hf ⊢
      exact readFields?_last hfield (Nat.le_of_lt_succ hf) rest
    | cons next fields =>
      have hlater := ih (List.cons_ne_nil next fields) hkeys hfields
      have hskip := skipSpace_fields (List.cons_ne_nil next fields) ('\x7d' :: rest)
      rw [List.map_cons, List.map_cons, List.intercalate_cons_cons, ← List.map_cons] at hf ⊢
      generalize [','].intercalate ((next :: fields).map fieldChars) = joined at hlater hskip hf ⊢
      simp only [List.length_append, List.length_singleton] at hf
      rw [List.append_assoc, List.append_assoc, List.singleton_append,
        readFields?_more hfield (show (fieldChars field).length ≤ fuel by omega)]
      simp only [hskip, hlater fuel (by omega), Option.map_some, addField_new hkey]

namespace ReadsBack

variable {depth : Nat}

theorem of_succ {v : Document} {c : Char} {text : List Char} (htext : v.chars = c :: text)
    (hc : isSpace c = false) (hend : c ≠ ']')
    (hread : ∀ fuel rest, text.length ≤ fuel → Closes rest →
      readValue? (fuel + 1) depth (c :: (text ++ rest)) = some (v, rest)) : ReadsBack depth v where
  exists_head := ⟨c, text, htext, hc, hend⟩
  read := by
    intro fuel rest hf hr
    rw [htext] at hf ⊢
    cases fuel with
    | zero => exact absurd hf (Nat.not_succ_le_zero _)
    | succ fuel => exact hread fuel rest (Nat.le_of_succ_le_succ hf) hr

theorem null : ReadsBack depth .null := .of_succ rfl rfl (by decide) fun _ _ _ _ => rfl

theorem bool (b : Bool) : ReadsBack depth (.bool b) := by
  cases b with
  | false => exact .of_succ rfl rfl (by decide) fun _ _ _ _ => rfl
  | true => exact .of_succ rfl rfl (by decide) fun _ _ _ _ => rfl

theorem number {n : Nat} (hn : n < UInt64.size) : ReadsBack depth (.ofNat n) := by
  obtain ⟨c, text, htext, hc⟩ := exists_toDigits n
  refine .of_succ ((chars_ofNat n).trans htext) ?_ ?_ fun fuel rest _ hr => ?_
  · rw [Bool.eq_false_iff]
    intro hspace
    simp only [isSpace, Bool.or_eq_true, beq_iff_eq] at hspace
    obtain ((rfl | rfl) | rfl) | rfl := hspace <;> cases hc
  · rintro rfl
    cases hc
  · rw [readValue?_digit hc, ← List.cons_append, ← htext]
    exact readNumber?_toDigits hn hr

theorem string (value : String) : ReadsBack depth (.string value) := by
  refine .of_succ (toList_stringText value) rfl (by decide) fun fuel rest _ _ => ?_
  rw [List.append_assoc, List.singleton_append, readValue?, readString?_escaped]
  simp only [Option.map_some, String.ofList_toList]

theorem array {items : List Document} (h : ∀ item ∈ items, ReadsBack depth item) :
    ReadsBack (depth + 1) (.array items) := by
  refine .of_succ (chars_array items) rfl (by decide) fun fuel rest hf _ => ?_
  rw [List.append_assoc, List.singleton_append, readValue?]
  by_cases hne : items = []
  · rw [hne]
    rfl
  · obtain ⟨c, text, htext, -, hend⟩ := exists_head_items hne h
    rw [List.length_append, List.length_singleton] at hf
    rw [skipSpace_items hne h]
    split
    · rename_i heq
      rw [htext] at heq
      exact absurd (List.cons.inj heq).1 hend
    · rw [readItems?_joined hne h fuel rest hf]
      rfl

theorem object {fields : List (String × Document)} (hkeys : Distinct fields)
    (h : ∀ field ∈ fields, ReadsBack depth field.2) : ReadsBack (depth + 1) (.object fields) := by
  refine .of_succ (chars_object fields) rfl (by decide) fun fuel rest hf _ => ?_
  rw [List.append_assoc, List.singleton_append, readValue?]
  by_cases hne : fields = []
  · rw [hne]
    rfl
  · obtain ⟨text, htext⟩ := exists_head_fields hne
    rw [List.length_append, List.length_singleton] at hf
    rw [skipSpace_fields hne]
    split
    · rename_i heq
      rw [htext] at heq
      cases heq
    · rw [readFields?_joined hne hkeys h fuel rest hf]
      rfl

end ReadsBack

theorem Plain.pair {depth : Nat} {key key' : String} {v v' : Document} (hne : key ≠ key')
    (hv : Plain depth v) (hv' : Plain depth v') :
    Plain (depth + 1) (.object [(key, v), (key', v')]) := by
  refine .object ?_ (List.forall_mem_cons.mpr ⟨hv, List.forall_mem_singleton.mpr hv'⟩)
  exact List.nodup_cons.mpr ⟨fun hm => hne (List.mem_singleton.mp hm), List.nodup_singleton _⟩

theorem Plain.readsBack {depth : Nat} {v : Document} (h : Plain depth v) : ReadsBack depth v := by
  induction h with
  | null => exact .null
  | bool => exact .bool _
  | number hn => exact .number hn
  | string => exact .string _
  | array _ ih => exact .array ih
  | object hkeys _ ih => exact .object hkeys ih

/-- What is written of a plain document is read as the same document. -/
theorem ofText?_text {v : Document} (h : Plain maxDepth v) : ofText? v.text = some v := by
  obtain ⟨⟨c, text, htext, hc, -⟩, hread⟩ := h.readsBack
  have hskip : skipSpace v.text.toList = v.chars := by
    have hchars : v.text.toList = c :: text := htext
    rw [chars, hchars, skipSpace_of_not hc]
  have hwhole := hread v.chars.length [] (Nat.le_refl _) .nil
  rw [List.append_nil] at hwhole
  rw [ofText?, hskip]
  simp only [hwhole]
  rfl

/-- No object in a document has a key twice. -/
inductive Regular : Document → Prop
  | null : Regular .null
  | bool {b} : Regular (.bool b)
  | integer {n} : Regular (.integer n)
  | decimal {text} : Regular (.decimal text)
  | string {value} : Regular (.string value)
  | array {items} : (∀ item ∈ items, Regular item) → Regular (.array items)
  | object {fields} : Distinct fields → (∀ field ∈ fields, Regular field.2) →
      Regular (.object fields)

/-- No key stands twice among these fields, nor in an object in one of them. -/
def RegularFields (fields : List (String × Document)) : Prop :=
  Distinct fields ∧ ∀ field ∈ fields, Regular field.2

theorem RegularFields.addField {key : String} {value : Document}
    {later : List (String × Document)} (h : RegularFields later) (hv : Regular value) :
    RegularFields (addField key value later) := by
  cases hlookup : later.lookup key with
  | some found =>
    rw [Document.addField, hlookup]
    exact h
  | none =>
    rw [addField_new (lookup_eq_none.mp hlookup)]
    exact ⟨List.nodup_cons.mpr ⟨lookup_eq_none.mp hlookup, h.1⟩, List.forall_mem_cons.mpr ⟨hv, h.2⟩⟩

theorem regular_of_readNumber? {negative : Bool} {text rest : List Char} {v : Document}
    (h : readNumber? negative text = some (v, rest)) : Regular v := by
  rw [readNumber?] at h
  obtain ⟨⟨whole, _⟩, -, h⟩ := Option.bind_eq_some_iff.mp h
  obtain ⟨⟨fraction, _⟩, -, h⟩ := Option.bind_eq_some_iff.mp h
  obtain ⟨⟨exponent, _⟩, -, h⟩ := Option.bind_eq_some_iff.mp h
  obtain ⟨_, -, h⟩ := Option.bind_eq_some_iff.mp h
  dsimp only at h
  split at h
  · cases h
    exact .integer
  · cases h
    exact .decimal

/-- By induction on the fuel: each of the three readers takes parts of the text with less. -/
theorem regular_of_read (fuel : Nat) :
    (∀ depth text v rest, readValue? fuel depth text = some (v, rest) → Regular v) ∧
    (∀ depth text items rest, readItems? fuel depth text = some (items, rest) →
      ∀ item ∈ items, Regular item) ∧
    ∀ depth text fields rest, readFields? fuel depth text = some (fields, rest) →
      RegularFields fields := by
  induction fuel with
  | zero => exact ⟨nofun, nofun, nofun⟩
  | succ fuel ih =>
    obtain ⟨ihValue, ihItems, ihFields⟩ := ih
    refine ⟨?_, ?_, ?_⟩
    · intro depth text v rest h
      rw [readValue?.eq_def] at h
      dsimp only at h
      split at h
      · cases h
        exact .null
      · cases h
        exact .bool
      · cases h
        exact .bool
      · obtain ⟨_, -, heq⟩ := Option.map_eq_some_iff.mp h
        cases heq
        exact .string
      · split at h
        · cases h
        · split at h
          · cases h
            exact .array (List.forall_mem_nil _)
          · obtain ⟨⟨items, _⟩, hitems, heq⟩ := Option.map_eq_some_iff.mp h
            cases heq
            exact .array (ihItems _ _ _ _ hitems)
      · split at h
        · cases h
        · split at h
          · cases h
            exact .object List.nodup_nil (List.forall_mem_nil _)
          · obtain ⟨⟨fields, _⟩, hfields, heq⟩ := Option.map_eq_some_iff.mp h
            cases heq
            obtain ⟨hkeys, hvalues⟩ := ihFields _ _ _ _ hfields
            exact .object hkeys hvalues
      · exact regular_of_readNumber? h
      · exact regular_of_readNumber? h
    · intro depth text items rest h
      rw [readItems?] at h
      split at h
      · cases h
      · rename_i item _ hitem
        have hregular := ihValue _ _ _ _ hitem
        split at h
        · cases h
          exact List.forall_mem_singleton.mpr hregular
        · obtain ⟨⟨later, _⟩, hlater, heq⟩ := Option.map_eq_some_iff.mp h
          cases heq
          exact List.forall_mem_cons.mpr ⟨hregular, ihItems _ _ _ _ hlater⟩
        · cases h
    · intro depth text fields rest h
      rw [readFields?.eq_def] at h
      dsimp only at h
      split at h
      · split at h
        · cases h
        · split at h
          · split at h
            · cases h
            · rename_i value _ hvalue
              have hregular := ihValue _ _ _ _ hvalue
              split at h
              · cases h
                exact ⟨List.nodup_singleton _, List.forall_mem_singleton.mpr hregular⟩
              · obtain ⟨⟨later, _⟩, hlater, heq⟩ := Option.map_eq_some_iff.mp h
                cases heq
                exact (ihFields _ _ _ _ hlater).addField hregular
              · cases h
          · cases h
      · cases h

theorem regular_of_ofText? {text : String} {v : Document} (h : ofText? text = some v) :
    Regular v := by
  rw [ofText?] at h
  split at h
  · rename_i value rest hvalue
    split at h
    · cases h
      exact (regular_of_read _).1 _ _ _ _ hvalue
    · cases h
  · cases h

end ConnectionPool.Document

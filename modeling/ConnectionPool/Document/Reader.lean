import ConnectionPool.Document.Basic
import ConnectionPool.Document.Magnitude

/-!
# Reading documents

Reads JSON text. A later field replaces an earlier one of the same key, nesting ends at 127
levels, numbers end at the largest double, and nothing but blanks may follow the value.
-/

namespace ConnectionPool.Document

/-- The four characters that may stand between the tokens of a document. -/
def isSpace (c : Char) : Bool := c == ' ' || c == '\n' || c == '\t' || c == '\r'

def skipSpace (text : List Char) : List Char := text.dropWhile isSpace

def hexDigit? (c : Char) : Option Nat :=
  if c.isDigit then some (c.toNat - '0'.toNat)
  else if 'a' ≤ c && c ≤ 'f' then some (c.toNat - 'a'.toNat + 10)
  else if 'A' ≤ c && c ≤ 'F' then some (c.toNat - 'A'.toNat + 10)
  else none

/-- Four hexadecimal digits as a 16-bit unit. -/
def hexUnit? (a b c d : Char) : Option Nat := do
  let a ← hexDigit? a
  let b ← hexDigit? b
  let c ← hexDigit? c
  let d ← hexDigit? d
  return ((a * 16 + b) * 16 + c) * 16 + d

def isHighSurrogate (unit : Nat) : Bool := 0xD800 ≤ unit && unit < 0xDC00

def isLowSurrogate (unit : Nat) : Bool := 0xDC00 ≤ unit && unit < 0xE000

def joinSurrogates (high low : Nat) : Char :=
  Char.ofNat (0x10000 + (high - 0xD800) * 0x400 + (low - 0xDC00))

def shortEscape? : Char → Option Char
  | '"' => some '"'
  | '\\' => some '\\'
  | '/' => some '/'
  | 'b' => some '\x08'
  | 'f' => some '\x0c'
  | 'n' => some '\n'
  | 'r' => some '\r'
  | 't' => some '\t'
  | _ => none

/-- The characters up to the closing quote, and what follows it. -/
def readString? : List Char → Option (List Char × List Char)
  | [] => none
  | '"' :: rest => some ([], rest)
  | '\\' :: 'u' :: a :: b :: c :: d :: rest =>
    match hexUnit? a b c d with
    | none => none
    | some unit =>
      if isHighSurrogate unit then
        match rest with
        | '\\' :: 'u' :: e :: f :: g :: h :: rest =>
          match hexUnit? e f g h with
          | none => none
          | some low =>
            if isLowSurrogate low then
              (readString? rest).map fun (text, rest) => (joinSurrogates unit low :: text, rest)
            else none
        | _ => none
      else if isLowSurrogate unit then none
      else (readString? rest).map fun (text, rest) => (Char.ofNat unit :: text, rest)
  | '\\' :: c :: rest =>
    match shortEscape? c with
    | none => none
    | some c => (readString? rest).map fun (text, rest) => (c :: text, rest)
  | c :: rest =>
    if c.toNat < 0x20 then none
    else (readString? rest).map fun (text, rest) => (c :: text, rest)

def takeDigits (text : List Char) : List Char × List Char := text.span Char.isDigit

/-- The whole part of a number: a zero alone, or digits that do not begin with one. -/
def readWhole? (text : List Char) : Option (List Char × List Char) :=
  match takeDigits text with
  | ([], _) => none
  | ('0' :: _ :: _, _) => none
  | found => some found

def readFraction? : List Char → Option (List Char × List Char)
  | '.' :: rest =>
    match takeDigits rest with
    | ([], _) => none
    | (digits, rest) => some ('.' :: digits, rest)
  | text => some ([], text)

def readExponent? : List Char → Option (List Char × List Char)
  | [] => some ([], [])
  | e :: text =>
    if e == 'e' || e == 'E' then
      let (sign, text) :=
        match text with
        | '+' :: text => (['+'], text)
        | '-' :: text => (['-'], text)
        | text => ([], text)
      match takeDigits text with
      | ([], _) => none
      | (digits, rest) => some (e :: sign ++ digits, rest)
    else some ([], e :: text)

def digitsValue (digits : List Char) : Nat :=
  digits.foldl (fun value c => value * 10 + digitValue c) 0

/-- The power of ten that an exponent stands for; none stands for zero. -/
def exponentValue (exponent : List Char) : Int :=
  match exponent.drop 1 with
  | '-' :: digits => -digitsValue digits
  | '+' :: digits => digitsValue digits
  | digits => digitsValue digits

/-- A number after its sign. Negative zero counts as a decimal. -/
def readNumber? (negative : Bool) (text : List Char) : Option (Document × List Char) := do
  let (whole, rest) ← readWhole? text
  let (fraction, rest) ← readFraction? rest
  let (exponent, rest) ← readExponent? rest
  guard (digitsAreDouble whole (fraction.drop 1) (exponentValue exponent))
  if fraction.isEmpty && exponent.isEmpty && !(negative && whole == ['0']) then
    let value : Int := digitsValue whole
    return (.integer (if negative then -value else value), rest)
  else
    let sign := if negative then ['-'] else []
    return (.decimal (String.ofList (sign ++ whole ++ fraction ++ exponent)), rest)

/-- Puts a field before later ones, of which one with the same key prevails. -/
def addField (key : String) (value : Document) (later : List (String × Document)) :
    List (String × Document) :=
  if (later.lookup key).isSome then later else (key, value) :: later

/-- Arrays and objects may be nested this deep. -/
def maxDepth : Nat := 127

mutual

/-- One value at the start of a text that is not blank there. The fuel is the length of the
text that may be read; `depth` is the nesting still allowed. -/
def readValue? : (fuel depth : Nat) → List Char → Option (Document × List Char)
  | 0, _, _ => none
  | fuel + 1, depth, text =>
    match text with
    | 'n' :: 'u' :: 'l' :: 'l' :: rest => some (.null, rest)
    | 't' :: 'r' :: 'u' :: 'e' :: rest => some (.bool true, rest)
    | 'f' :: 'a' :: 'l' :: 's' :: 'e' :: rest => some (.bool false, rest)
    | '"' :: rest =>
      (readString? rest).map fun (text, rest) => (.string (String.ofList text), rest)
    | '[' :: rest =>
      match depth with
      | 0 => none
      | depth + 1 =>
        match skipSpace rest with
        | ']' :: rest => some (.array [], rest)
        | rest => (readItems? fuel depth rest).map fun (items, rest) => (.array items, rest)
    | '\x7b' :: rest =>
      match depth with
      | 0 => none
      | depth + 1 =>
        match skipSpace rest with
        | '\x7d' :: rest => some (.object [], rest)
        | rest => (readFields? fuel depth rest).map fun (fields, rest) => (.object fields, rest)
    | '-' :: rest => readNumber? true rest
    | text => readNumber? false text

def readItems? : (fuel depth : Nat) → List Char → Option (List Document × List Char)
  | 0, _, _ => none
  | fuel + 1, depth, text =>
    match readValue? fuel depth text with
    | none => none
    | some (item, rest) =>
      match skipSpace rest with
      | ']' :: rest => some ([item], rest)
      | ',' :: rest =>
        (readItems? fuel depth (skipSpace rest)).map fun (items, rest) => (item :: items, rest)
      | _ => none

def readFields? : (fuel depth : Nat) → List Char → Option (List (String × Document) × List Char)
  | 0, _, _ => none
  | fuel + 1, depth, text =>
    match text with
    | '"' :: rest =>
      match readString? rest with
      | none => none
      | some (key, rest) =>
        match skipSpace rest with
        | ':' :: rest =>
          match readValue? fuel depth (skipSpace rest) with
          | none => none
          | some (value, rest) =>
            match skipSpace rest with
            | '\x7d' :: rest => some ([(String.ofList key, value)], rest)
            | ',' :: rest =>
              (readFields? fuel depth (skipSpace rest)).map fun (fields, rest) =>
                (addField (String.ofList key) value fields, rest)
            | _ => none
        | _ => none
    | _ => none

end

def ofText? (text : String) : Option Document :=
  let chars := skipSpace text.toList
  match readValue? chars.length maxDepth chars with
  | some (value, rest) => if (skipSpace rest).isEmpty then some value else none
  | none => none

end ConnectionPool.Document

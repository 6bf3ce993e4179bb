import ConnectionPool.Document.Basic

/-!
# Writing documents

Writes JSON text without blanks between the tokens.
-/

namespace ConnectionPool.Document

/-- A character inside a written string; only quotes, backslashes and controls are escaped. -/
def escapeChar (c : Char) : List Char :=
  if c == '"' || c == '\\' then ['\\', c]
  else if c.toNat < 0x20 then
    ['\\', 'u', '0', '0', Nat.digitChar (c.toNat / 16), Nat.digitChar (c.toNat % 16)]
  else [c]

def stringText (value : String) : String :=
  "\"" ++ String.ofList (value.toList.flatMap escapeChar) ++ "\""

/-- Pieces between brackets, with commas between them. -/
def bracketed (opening closing : String) (pieces : List String) : String :=
  opening ++ ",".intercalate pieces ++ closing

mutual

/-- The document as text. -/
def text : Document → String
  | .null => "null"
  | .bool value => if value then "true" else "false"
  | .integer value => toString value
  | .decimal text => text
  | .string value => stringText value
  | .array items => bracketed "[" "]" (itemTexts items)
  | .object fields => bracketed "\x7b" "\x7d" (fieldTexts fields)

def itemTexts : List Document → List String
  | [] => []
  | item :: items => text item :: itemTexts items

def fieldTexts : List (String × Document) → List String
  | [] => []
  | (key, value) :: fields => (stringText key ++ ":" ++ text value) :: fieldTexts fields

end

end ConnectionPool.Document

import ConnectionPool.Text.Blank
import ConnectionPool.Text.Word

/-!
# Kinds of statements

What the engine and the connections need to know of a statement's text. All of it is decided by
the first word; comments and later statements in the same text are not looked at.
-/

namespace ConnectionPool.Sql

open Text

/-- The text from its first character that is not blank. -/
def body (sql : String) : List Char := dropBlanks sql.toList

/-- Texts that no engine can prepare: blank ones, and those that begin with `INVALID`. -/
def isMalformed (sql : String) : Bool :=
  (body sql).isEmpty || beginsWith "INVALID".toList (body sql)

/-- Texts that yield a row and write nothing. -/
def isQuery (sql : String) : Bool :=
  beginsWith "SELECT".toList (body sql) || beginsWith "VALUES".toList (body sql)

/-- The words that open a statement which changes the database schema. -/
def schemaWords : List String := ["ATTACH", "DETACH", "CREATE", "DROP", "ALTER"]

/-- Whether a keyword may end before `rest`. -/
def endsKeyword : (rest : List Char) → Bool
  | [] => true
  | c :: _ => isBlank c || c == ';' || c == '('

/-- Whether a statement changes the database schema: its first word is one of `schemaWords`,
ended by a blank, a semicolon, an opening bracket or the end of the text. -/
def changesSchema (sql : String) : Bool :=
  schemaWords.any fun word =>
    match afterWord? word.toList (body sql) with
    | some rest => endsKeyword rest
    | none => false

end ConnectionPool.Sql

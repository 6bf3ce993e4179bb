import ConnectionPool.Text.Extending
import ConnectionPool.Text.Unprintable

/-!
# Quoted text

Text between double quotes in which every character can be told by its look: quotes, backslashes
and the usual controls have escapes of one letter, other characters that do not show by
themselves are given by their number.
-/

namespace ConnectionPool.Text

/-- A character by its number, in hexadecimal digits between braces. -/
def numbered (c : Char) : List Char :=
  '\\' :: 'u' :: '\x7b' :: (Nat.toDigits 16 c.toNat ++ ['\x7d'])

/-- The characters that stand for `c` between quotes. -/
def quoteChar (c : Char) : List Char :=
  match c with
  | '"' => ['\\', '"']
  | '\\' => ['\\', '\\']
  | '\n' => ['\\', 'n']
  | '\t' => ['\\', 't']
  | '\r' => ['\\', 'r']
  | '\x00' => ['\\', '0']
  | c => if isAttached c || isUnprintable c then numbered c else [c]

def quoted (text : String) : String :=
  "\"" ++ String.ofList (text.toList.flatMap quoteChar) ++ "\""

end ConnectionPool.Text

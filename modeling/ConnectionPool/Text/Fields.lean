/-!
# Records in descriptions

The text of a record is its name and its fields between braces; an optional value is `None`, or
`Some` with the value in brackets.
-/

namespace ConnectionPool.Text

/-- A record by its name and the texts of its fields. -/
def recordText (name : String) (fields : List (String × String)) : String :=
  name ++ " \x7b " ++ ", ".intercalate (fields.map fun (key, value) => key ++ ": " ++ value) ++
    " \x7d"

def optionText : Option String → String
  | none => "None"
  | some text => "Some(" ++ text ++ ")"

end ConnectionPool.Text

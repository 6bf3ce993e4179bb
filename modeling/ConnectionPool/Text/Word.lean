/-!
# Leading words

Words at the start of a text, compared without regard to ASCII case.
-/

namespace ConnectionPool.Text

/-- What follows `word` at the start of a text. The word is given in capitals; characters
outside ASCII have no case here and equal only themselves. -/
def afterWord? : (word text : List Char) → Option (List Char)
  | [], text => some text
  | w :: word, c :: text => if c.toUpper = w then afterWord? word text else none
  | _ :: _, [] => none

/-- Whether a text begins with `word`, in whatever ASCII case. -/
def beginsWith (word text : List Char) : Bool := (afterWord? word text).isSome

end ConnectionPool.Text

/-!
# Documents

The values in which settings are stored and requests are written: JSON, with whole numbers kept
apart from numbers written with a fraction or an exponent.
-/

namespace ConnectionPool

/-- A JSON value. A `decimal` is a number that is not written as a whole number, by its text. -/
inductive Document where
  | null
  | bool (value : Bool)
  | integer (value : Int)
  | decimal (text : String)
  | string (value : String)
  | array (items : List Document)
  | object (fields : List (String × Document))
  deriving Inhabited, Repr

namespace Document

/-- The field of an object under a key. -/
def field? (key : String) : Document → Option Document
  | .object fields => fields.lookup key
  | _ => none

/-- A whole number from 0 up to and not including `bound`. -/
def natBelow? (bound : Nat) : Document → Option Nat
  | .integer (.ofNat n) => if n < bound then some n else none
  | _ => none

/-- A count: a whole number of 64 bits without sign. -/
def count? : Document → Option Nat := natBelow? UInt64.size

def bool? : Document → Option Bool
  | .bool value => some value
  | _ => none

def string? : Document → Option String
  | .string value => some value
  | _ => none

def ofNat (n : Nat) : Document := .integer n

theorem natBelow?_ofNat {n bound : Nat} (h : n < bound) : natBelow? bound (ofNat n) = some n := by
  simp [natBelow?, ofNat, h]

theorem count?_ofNat {n : Nat} (h : n < UInt64.size) : count? (ofNat n) = some n :=
  natBelow?_ofNat h

end Document

end ConnectionPool

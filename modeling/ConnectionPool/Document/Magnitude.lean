/-!
# Magnitudes of numbers

Numbers that are not whole numbers of 64 bits stand for doubles, and one beyond the largest double
is not a number of a document. A double is made of the digits that fit 64 bits and a power of ten:
each is rounded, and so is their product.
-/

namespace ConnectionPool.Document

/-- The value of a decimal digit. -/
def digitValue (c : Char) : Nat := c.toNat - '0'.toNat

/-- Takes digits behind `value` as long as the whole fits 64 bits, and leaves the others. -/
def takeLeading (value : Nat) : List Char → Nat × List Char
  | [] => (value, [])
  | c :: digits =>
    if value * 10 + digitValue c < UInt64.size then takeLeading (value * 10 + digitValue c) digits
    else (value, c :: digits)

/-- The nearest number of at most 53 binary digits, trailing zeros apart; of two equally near the
one whose last digit is even. -/
def roundDouble (n : Nat) : Nat :=
  let unit := Nat.pow 2 (n.log2 + 1 - 53)
  let quotient := n / unit
  let remainder := n % unit
  if 2 * remainder < unit || (2 * remainder == unit && quotient % 2 == 0) then quotient * unit
  else (quotient + 1) * unit

/-- Powers of ten beyond this one are not doubles. -/
def maxPower : Nat := 308

/-- Whether `significand * 10 ^ exponent` is a double. What is too small for one counts as zero. -/
def isDouble (significand : Nat) (exponent : Int) : Bool :=
  significand == 0 ||
    (exponent ≤ maxPower &&
      roundDouble (roundDouble significand * roundDouble (Nat.pow 10 exponent.toNat)) <
        Nat.pow 2 1024)

/-- Whether a number is a double, given the digits before and after its point and the power of
ten it is multiplied by. Digits that do not fit count before the point by their number, and not at
all after it. -/
def digitsAreDouble (whole fraction : List Char) (exponent : Int) : Bool :=
  let (value, dropped) := takeLeading 0 whole
  let (significand, unread) := takeLeading value fraction
  isDouble significand (exponent + dropped.length - (fraction.length - unread.length))

theorem roundDouble_of_lt {n : Nat} (h : n < Nat.pow 2 53) : roundDouble n = n := by
  have hlog : n.log2 + 1 - 53 = 0 := by
    by_cases hn : n = 0
    · subst hn; decide
    · have := (Nat.log2_lt hn).2 h
      omega
  simp [roundDouble, hlog, Nat.mod_one]

end ConnectionPool.Document

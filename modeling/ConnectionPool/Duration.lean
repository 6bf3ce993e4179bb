/-!
# Durations

Time spans of whole seconds and nanoseconds, with the shortest exact text in the largest unit
that leaves a whole part. A moment is the number of nanoseconds that the clock has counted.
-/

namespace ConnectionPool

/-- Nanoseconds in a second. -/
def nanosPerSecond : Nat := 1000000000

/-- A time span below 2^64 seconds, to the nanosecond. -/
structure Duration where
  seconds : Nat
  nanos : Nat
  seconds_lt : seconds < UInt64.size
  nanos_lt : nanos < nanosPerSecond
  deriving DecidableEq, Repr

/-- The first moment that the clock cannot name, in nanoseconds: it counts seconds in 63 bits. -/
def clockEnd : Nat := nanosPerSecond * (UInt64.size / 2)

namespace Duration

/-- Nanoseconds of a second or more carry into the seconds; none if those no longer fit. -/
def ofParts? (seconds nanos : Nat) : Option Duration :=
  if h : seconds + nanos / nanosPerSecond < UInt64.size then
    some ⟨seconds + nanos / nanosPerSecond, nanos % nanosPerSecond, h,
      Nat.mod_lt _ (by decide)⟩
  else
    none

/-- The span in nanoseconds. -/
def totalNanos (d : Duration) : Nat := nanosPerSecond * d.seconds + d.nanos

/-- Whether a clock that shows `now` can name the moment this long from then. -/
def fitsClock (d : Duration) (now : Nat) : Bool := now + d.totalNanos < clockEnd

theorem any_overdue_eq_false {timeout : Option Duration} {now : Nat} :
    timeout.any (!·.fitsClock now) = false ↔ ∀ limit ∈ timeout, limit.fitsClock now := by
  cases timeout with
  | none => simp
  | some limit => simp

/-- The decimals of `part / 10 ^ width`, without trailing zeros. -/
def decimals (width part : Nat) : List Char :=
  let digits := Nat.toDigits 10 part
  let padded := List.replicate (width - digits.length) '0' ++ digits
  (padded.reverse.dropWhile (· == '0')).reverse

/-- The number `whole + part / 10 ^ width` and its unit; a point only before decimals. -/
def quantity (whole width part : Nat) (unit : String) : String :=
  match decimals width part with
  | [] => toString whole ++ unit
  | digits => toString whole ++ "." ++ String.ofList digits ++ unit

/-- The exact text of a span, such as `2.005s`, `1.5ms`, `10µs` or `0ns`. -/
def text (d : Duration) : String :=
  if 0 < d.seconds then quantity d.seconds 9 d.nanos "s"
  else if 1000000 ≤ d.nanos then quantity (d.nanos / 1000000) 6 (d.nanos % 1000000) "ms"
  else if 1000 ≤ d.nanos then quantity (d.nanos / 1000) 3 (d.nanos % 1000) "µs"
  else quantity d.nanos 0 0 "ns"

end Duration

end ConnectionPool

/-!
# Ratios

Ratios of 64-bit counts as floating-point numbers. Each count is rounded to the nearest double,
ties to even, before they are divided.
-/

namespace ConnectionPool

/-- The part that `count` makes up of `count + rest`, or `empty` if both are zero. The sum is
taken in 64 bits. -/
def share (empty : Float) (count rest : Nat) : Float :=
  let total := count.toUInt64 + rest.toUInt64
  if total == 0 then empty else count.toUInt64.toFloat / total.toFloat

/-- `count` in percent of `whole`, or zero of nothing. -/
def percentage (count whole : Nat) : Float :=
  if whole == 0 then 0 else count.toUInt64.toFloat / whole.toUInt64.toFloat * 100

end ConnectionPool

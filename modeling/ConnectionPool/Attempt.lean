/-!
# Attempts

An action may be refused, which its caller deals with, or abort, which ends all that led to it.
-/

namespace ConnectionPool

/-- An action that succeeds, is refused with a reason, or aborts and takes its callers with it. -/
inductive Attempt (ε β : Type) where
  | ok (value : β)
  | refused (reason : ε)
  | aborted (cause : String)
  deriving DecidableEq, Repr

namespace Attempt

/-- The same outcome with another reason for a refusal. -/
def mapReason {ε δ β : Type} (f : ε → δ) : Attempt ε β → Attempt δ β
  | ok value => ok value
  | refused reason => refused (f reason)
  | aborted cause => aborted cause

end Attempt

end ConnectionPool

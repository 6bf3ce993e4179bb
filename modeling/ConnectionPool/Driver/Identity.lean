/-!
# Identities

Numbers that an engine gives to its connections and statements, from 1 on and never twice.
-/

namespace ConnectionPool

structure ConnectionId where
  number : Nat
  deriving DecidableEq, Repr, Inhabited

structure StatementId where
  number : Nat
  deriving DecidableEq, Repr, Inhabited

def ConnectionId.label (id : ConnectionId) : String := s!"conn#{id.number}"

def StatementId.label (id : StatementId) : String := s!"stmt#{id.number}"

def ConnectionId.description (id : ConnectionId) : String := s!"ConnectionId({id.number})"

def StatementId.description (id : StatementId) : String := s!"StatementId({id.number})"

end ConnectionPool

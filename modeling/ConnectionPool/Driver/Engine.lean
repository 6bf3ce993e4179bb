import ConnectionPool.Driver.OpenMode
import ConnectionPool.Driver.Statement
import ConnectionPool.Sql.Kind

/-!
# The in-memory engine

An engine whose databases are names only. It gives out connections and statements, counts what
becomes of them, and fails on request. A statement is finalized by its owner, once; a raw
connection is closed only on request.
-/

namespace ConnectionPool

structure Counters where
  opened : Nat := 0
  openFailures : Nat := 0
  closed : Nat := 0
  prepared : Nat := 0
  finalized : Nat := 0
  deriving DecidableEq, Repr

/-- Statements prepared and not finalized yet. -/
def Counters.liveStatements (c : Counters) : Nat := c.prepared - c.finalized

/-- Failures still to strike, and the rows granted to each statement prepared from now on. -/
structure Faults where
  opens : Nat := 0
  closes : Nat := 0
  steps : Nat := 0
  extraRows : Nat := 0
  deriving DecidableEq, Repr

structure Engine where
  lastConnection : Nat := 0
  lastStatement : Nat := 0
  counters : Counters := {}
  faults : Faults := {}
  databases : List String := []
  /-- Statements finalized, the latest first. -/
  finalized : List StatementId := []
  deriving DecidableEq, Repr

structure RawConnection where
  id : ConnectionId
  isOpen : Bool
  readOnly : Bool
  lastError : Option String
  deriving DecidableEq, Repr

namespace Engine

/-- The database that needs no name of its own and always exists. -/
def memoryTarget : String := ":memory:"

def databaseExists (e : Engine) (target : String) : Bool :=
  target == memoryTarget || e.databases.contains target

def createDatabase (e : Engine) (target : String) : Engine :=
  { e with databases := e.databases.insert target }

def countOpenFailure (e : Engine) : Engine :=
  { e with counters := { e.counters with openFailures := e.counters.openFailures + 1 } }

def rejectOpen (e : Engine) (target message : String) :
    Except DriverError RawConnection × Engine :=
  (.error (.cannotOpen target message), e.countOpenFailure)

/-- A new connection to a database that exists from now on. -/
def register (e : Engine) (target : String) (mode : OpenMode) : RawConnection × Engine :=
  ({ id := ⟨e.lastConnection + 1⟩, isOpen := true, readOnly := !mode.isWritable,
     lastError := none },
   { e with
     lastConnection := e.lastConnection + 1
     counters := { e.counters with opened := e.counters.opened + 1 }
     databases := if target == memoryTarget then e.databases else e.databases.insert target })

/-- Opens a connection. A requested failure strikes before the database is looked for. -/
def connect (e : Engine) (target : String) (mode : OpenMode) :
    Except DriverError RawConnection × Engine :=
  if 0 < e.faults.opens then
    rejectOpen { e with faults := { e.faults with opens := e.faults.opens - 1 } } target
      "injected open failure"
  else if !e.databaseExists target && !mode.mayCreate then
    e.rejectOpen target "database does not exist"
  else
    let (raw, e) := e.register target mode
    (.ok raw, e)

/-- The statement that `raw` gets for a well-formed text. -/
def statementFor (e : Engine) (raw : RawConnection) (sql : String) : Statement where
  id := ⟨e.lastStatement + 1⟩
  owner := raw.id
  sql := sql
  rows := if Sql.isQuery sql then 1 else 0
  writes := !Sql.isQuery sql
  readOnly := raw.readOnly
  extraRows := e.faults.extraRows
  extraLeft := e.faults.extraRows
  position := 0
  bindings := []

/-- Prepares a statement on an open connection, which keeps the message of its last failure. -/
def prepare (e : Engine) (raw : RawConnection) (sql : String) :
    Except DriverError Statement × RawConnection × Engine :=
  if !raw.isOpen then (.error .notOpen, raw, e)
  else if Sql.isMalformed sql then
    (.error (.cannotPrepare sql "syntax error"), { raw with lastError := some "syntax error" }, e)
  else
    (.ok (e.statementFor raw sql), { raw with lastError := none },
     { e with
       lastStatement := e.lastStatement + 1
       counters := { e.counters with prepared := e.counters.prepared + 1 } })

/-- Closes a connection. A requested failure strikes whether or not the connection is open. -/
def close (e : Engine) (raw : RawConnection) :
    Except DriverError Unit × RawConnection × Engine :=
  if 0 < e.faults.closes then
    (.error (.closeFailed "injected close failure"), raw,
     { e with faults := { e.faults with closes := e.faults.closes - 1 } })
  else if !raw.isOpen then (.error .notOpen, raw, e)
  else
    (.ok (), { raw with isOpen := false },
     { e with counters := { e.counters with closed := e.counters.closed + 1 } })

/-- One step of a statement. A requested failure strikes before anything else. -/
def step (e : Engine) (s : Statement) : Except DriverError Advance × Statement × Engine :=
  if 0 < e.faults.steps then
    (.error (.stepFailed "injected step failure"), s,
     { e with faults := { e.faults with steps := e.faults.steps - 1 } })
  else
    let (result, s) := s.advance
    (result, s, e)

/-- Steps a statement until it is done or fails, counting its rows on from `rows`. -/
def runFrom (rows : Nat) : (fuel : Nat) → Engine → Statement →
    Except DriverError Nat × Statement × Engine
  | 0, e, s => (.ok rows, s, e)
  | fuel + 1, e, s =>
    match e.step s with
    | (.ok .row, s, e) => runFrom (rows + 1) fuel e s
    | (.ok .done, s, e) => (.ok rows, s, e)
    | (.error error, s, e) => (.error error, s, e)

/-- Runs a statement to its end, which lies one step after its last row. -/
def run (e : Engine) (s : Statement) : Except DriverError Nat × Statement × Engine :=
  runFrom 0 (s.rowsLeft + 1) e s

theorem rowsLeft_step {e f : Engine} {s t : Statement} (h : e.step s = (.ok .row, t, f)) :
    t.rowsLeft + 1 = s.rowsLeft := by
  unfold step at h
  split at h
  · simp at h
  · obtain ⟨hr, ht⟩ := Prod.mk.inj h
    obtain ⟨rfl, -⟩ := Prod.mk.inj ht
    exact Statement.rowsLeft_advance (Prod.ext hr rfl)

/-- A run ends by itself: it does not matter how many more steps it may take. -/
theorem runFrom_fuel {rows fuel more : Nat} {e : Engine} {s : Statement} (h : s.rowsLeft < fuel)
    (hm : s.rowsLeft < more) : runFrom rows fuel e s = runFrom rows more e s := by
  induction fuel generalizing rows more e s with
  | zero => exact absurd h (Nat.not_lt_zero _)
  | succ fuel ih =>
    obtain ⟨more, rfl⟩ : ∃ n, more = n + 1 := Nat.exists_eq_succ_of_ne_zero (by omega)
    rw [runFrom, runFrom]
    rcases hs : e.step s with ⟨error | _ | _, t, f⟩
    · rfl
    · have ht := rowsLeft_step hs
      exact ih (by omega) (by omega)
    · rfl

def finalize (e : Engine) (s : Statement) : Engine :=
  { e with
    counters := { e.counters with finalized := e.counters.finalized + 1 }
    finalized := s.id :: e.finalized }

def finalizeAll (e : Engine) (statements : List Statement) : Engine :=
  statements.foldl finalize e

def isFinalized (e : Engine) (id : StatementId) : Bool := e.finalized.contains id

end Engine

end ConnectionPool

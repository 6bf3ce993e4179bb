/-!
# Open modes

How an engine treats the database that a connection asks for.
-/

namespace ConnectionPool

/-- What opening may do to a database. -/
inductive OpenMode where
  /-- Reads only; the database must exist. -/
  | readOnly
  /-- The database must exist. -/
  | existing
  /-- A missing database is made. -/
  | openOrCreate
  /-- A fresh database is made in any case. -/
  | alwaysCreate
  deriving DecidableEq, Repr

namespace OpenMode

instance : Inhabited OpenMode := ⟨.openOrCreate⟩

def isWritable (mode : OpenMode) : Bool := mode != .readOnly

def mayCreate (mode : OpenMode) : Bool := mode == .openOrCreate || mode == .alwaysCreate

def all : List OpenMode := [.readOnly, .existing, .openOrCreate, .alwaysCreate]

/-- The name used in settings. -/
def name : OpenMode → String
  | .readOnly => "read_only"
  | .existing => "existing"
  | .openOrCreate => "open_or_create"
  | .alwaysCreate => "always_create"

/-- The name used in descriptions. -/
def title : OpenMode → String
  | .readOnly => "ReadOnly"
  | .existing => "Existing"
  | .openOrCreate => "OpenOrCreate"
  | .alwaysCreate => "AlwaysCreate"

def ofName? (name : String) : Option OpenMode := all.find? (·.name == name)

theorem mem_all (mode : OpenMode) : mode ∈ all := by cases mode <;> decide

theorem ofName?_name (mode : OpenMode) : ofName? mode.name = some mode := by
  cases mode <;> decide +kernel

end OpenMode

end ConnectionPool

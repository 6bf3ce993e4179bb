/-!
# Tables

Association lists in the order in which their keys came in.
-/

namespace ConnectionPool.Table

variable {κ ν : Type} [BEq κ]

/-- Puts a value under a key, in the place of the one there. -/
def put (key : κ) (value : ν) : List (κ × ν) → List (κ × ν)
  | [] => [(key, value)]
  | (k, v) :: table => if k == key then (key, value) :: table else (k, v) :: put key value table

/-- Removes a key and its value. -/
def erase (key : κ) (table : List (κ × ν)) : List (κ × ν) := table.eraseP (·.1 == key)

variable [LawfulBEq κ]

theorem lookup_put_self (key : κ) (value : ν) (table : List (κ × ν)) :
    (put key value table).lookup key = some value := by
  induction table with
  | nil => simp [put]
  | cons entry table ih =>
    obtain ⟨k, v⟩ := entry
    by_cases h : k = key
    · simp [put, h]
    · have h' : ¬ key = k := fun e => h e.symm
      simp [put, h, List.lookup_cons, beq_eq_false_iff_ne.2 h', ih]

theorem lookup_put_ne {key other : κ} (h : other ≠ key) (value : ν) (table : List (κ × ν)) :
    (put key value table).lookup other = table.lookup other := by
  induction table with
  | nil => simp [put, List.lookup_cons, beq_eq_false_iff_ne.2 h]
  | cons entry table ih =>
    obtain ⟨k, v⟩ := entry
    by_cases hk : k = key
    · subst hk
      simp [put, List.lookup_cons, beq_eq_false_iff_ne.2 h]
    · simp [put, hk, List.lookup_cons, ih]

end ConnectionPool.Table

/-!
# Ranges of characters

Sets of characters as ranges of code points in ascending order.
-/

namespace ConnectionPool.Text

/-- Closed ranges of code points, by their first and last. -/
abbrev Ranges := List (Nat × Nat)

namespace Ranges

/-- Whether a code point lies in one of the ranges, which ascend. -/
def contains : Ranges → Nat → Bool
  | [], _ => false
  | (first, last) :: rest, n => if n ≤ last then first ≤ n else contains rest n

/-- Whether the ranges ascend and none begins before `n`. -/
def ascendFrom : Nat → Ranges → Bool
  | _, [] => true
  | n, (first, last) :: rest => n ≤ first && first ≤ last && ascendFrom (last + 1) rest

theorem contains_eq_false {ranges : Ranges} {n m : Nat} (h : ascendFrom n ranges = true)
    (hm : m < n) : contains ranges m = false := by
  cases ranges with
  | nil => rfl
  | cons range rest =>
    simp only [ascendFrom, Bool.and_eq_true, decide_eq_true_eq] at h
    have hlast : m ≤ range.2 := by omega
    have hfirst : ¬ range.1 ≤ m := by omega
    simp [contains, hlast, hfirst]

/-- In ranges that ascend, the search finds what lies in any of them. -/
theorem contains_iff {ranges : Ranges} {n m : Nat} (h : ascendFrom n ranges = true) :
    contains ranges m = true ↔ ∃ range ∈ ranges, range.1 ≤ m ∧ m ≤ range.2 := by
  induction ranges generalizing n with
  | nil => simp [contains]
  | cons range rest ih =>
    simp only [ascendFrom, Bool.and_eq_true, decide_eq_true_eq] at h
    by_cases hm : m ≤ range.2
    · have hrest : ¬ ∃ r ∈ rest, r.1 ≤ m ∧ m ≤ r.2 := by
        rw [← ih h.2, contains_eq_false h.2 (Nat.lt_succ_of_le hm)]
        decide
      simp only [contains, hm, if_true, decide_eq_true_eq, List.mem_cons, exists_eq_or_imp,
        and_true]
      exact ⟨Or.inl, fun found => found.resolve_right hrest⟩
    · simp [contains, hm, ih h.2]

end Ranges

end ConnectionPool.Text

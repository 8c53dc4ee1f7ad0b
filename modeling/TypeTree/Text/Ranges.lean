/-
  Classes of characters given as ranges of code points.

  A class is a list of inclusive ranges, least first.  Membership is a plain search, so a fact
  about a class is a fact about a finite list.
-/

namespace TypeTree.Text

/-- `n` lies in one of the ranges, ends included. -/
def inRanges (ranges : List (Nat × Nat)) (n : Nat) : Bool :=
  ranges.any fun r => decide (r.1 ≤ n) && decide (n ≤ r.2)

theorem inRanges_of_mem {ranges : List (Nat × Nat)} {lo hi n : Nat}
    (hmem : (lo, hi) ∈ ranges) (hlo : lo ≤ n) (hhi : n ≤ hi) : inRanges ranges n = true :=
  List.any_eq_true.mpr ⟨(lo, hi), hmem, by simp [hlo, hhi]⟩

end TypeTree.Text

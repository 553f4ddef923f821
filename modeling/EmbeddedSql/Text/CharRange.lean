/-!
# Sorted ranges of code points

A character class is given as a list of closed ranges of code points in
increasing order. Membership stops at the first range that begins above the
character, so the early rows answer for the early characters.
-/

namespace EmbeddedSql.Text.CharRange

/-- Whether a code point lies in one of the given increasing ranges. -/
def covers : List (Nat × Nat) → Nat → Bool
  | [], _ => false
  | (low, high) :: rest, code =>
    if code < low then false
    else if code ≤ high then true
    else covers rest code

/-- A covered code point lies inside some range of the list. -/
theorem exists_of_covers {ranges : List (Nat × Nat)} {code : Nat}
    (h : covers ranges code = true) :
    ∃ range ∈ ranges, range.1 ≤ code ∧ code ≤ range.2 := by
  induction ranges with
  | nil => simp [covers] at h
  | cons range rest ih =>
    obtain ⟨low, high⟩ := range
    simp only [covers] at h
    split at h
    · simp at h
    · split at h
      · exact ⟨(low, high), by simp, by simp; omega, by simp; omega⟩
      · obtain ⟨r, hr, hb⟩ := ih h
        exact ⟨r, by simp [hr], hb⟩

end EmbeddedSql.Text.CharRange

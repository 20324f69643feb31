import ScoreFilter.Text.Bytes

namespace ScoreFilter.Text

def slice (first last : Nat) (cs : List Char) : List Char :=
  after first (before last cs)

-- A cut at the end of a known beginning is exact, whatever the characters' widths are.
theorem cut_append (left right : List Char) :
    cut (byteLength left) (left ++ right) = (left, right) := by
  induction left with
  | nil =>
    cases right with
    | nil => rfl
    | cons c right =>
      have wide := c.utf8Size_pos
      rw [List.nil_append, cut, if_neg (by simp only [byteLength_nil]; omega)]
  | cons c left ih =>
    rw [List.cons_append, cut, if_pos (by simp only [byteLength_cons]; omega)]
    have remaining : byteLength (c :: left) - c.utf8Size = byteLength left := by
      rw [byteLength_cons, Nat.add_sub_cancel_left]
    rw [remaining, ih]

theorem before_append (left right : List Char) :
    before (byteLength left) (left ++ right) = left := by
  rw [before, cut_append]

theorem before_byteLength (cs : List Char) : before (byteLength cs) cs = cs := by
  simpa using before_append cs []

theorem after_append (left right : List Char) :
    after (byteLength left) (left ++ right) = right := by
  rw [after, cut_append]

theorem clamp_append (left right : List Char) :
    clamp (byteLength left) (left ++ right) = byteLength left := by
  rw [clamp, before_append]

theorem isBoundary_iff {n : Nat} {cs : List Char} :
    IsBoundary n cs ↔ ∃ left right, cs = left ++ right ∧ n = byteLength left := by
  constructor
  · intro exact_
    exact ⟨before n cs, after n cs, (before_append_after n cs).symm, exact_.symm⟩
  · rintro ⟨left, right, rfl, rfl⟩
    exact clamp_append left right

theorem clamp_cons (n : Nat) (c : Char) (cs : List Char) :
    clamp n (c :: cs) = if c.utf8Size ≤ n then c.utf8Size + clamp (n - c.utf8Size) cs else 0 := by
  unfold clamp before
  rw [cut]
  split <;> rfl

theorem clamp_mono {n m : Nat} (less : n ≤ m) (cs : List Char) : clamp n cs ≤ clamp m cs := by
  induction cs generalizing n m with
  | nil => exact Nat.le_refl _
  | cons c cs ih =>
    rw [clamp_cons, clamp_cons]
    by_cases fits : c.utf8Size ≤ n
    · have later : clamp (n - c.utf8Size) cs ≤ clamp (m - c.utf8Size) cs := ih (by omega)
      rw [if_pos fits, if_pos (by omega)]
      omega
    · rw [if_neg fits]
      exact Nat.zero_le _

theorem clamp_le_byteLength (n : Nat) (cs : List Char) : clamp n cs ≤ byteLength cs := by
  have whole := congrArg byteLength (before_append_after n cs)
  rw [byteLength_append] at whole
  rw [clamp]
  omega

theorem slice_append (left middle right : List Char) :
    slice (byteLength left) (byteLength left + byteLength middle) (left ++ (middle ++ right)) =
      middle := by
  have start := before_append (left ++ middle) right
  rw [byteLength_append, List.append_assoc] at start
  rw [slice, start, after_append]

theorem byteLength_pos {cs : List Char} (nonempty : cs ≠ []) : 0 < byteLength cs := by
  cases cs with
  | nil => exact absurd rfl nonempty
  | cons c cs =>
    have wide := c.utf8Size_pos
    rw [byteLength_cons]
    omega

theorem byteLength_blanks (n : Nat) : byteLength (List.replicate n ' ') = n := by
  induction n with
  | zero => rfl
  | succ n ih =>
    rw [List.replicate_succ, byteLength_cons, ih]
    exact Nat.add_comm 1 n

-- Of two beginnings of a text the one that ends first is the beginning of the other.
theorem exists_between {n m : Nat} {cs : List Char} (less : clamp n cs ≤ clamp m cs) :
    ∃ between, before m cs = before n cs ++ between := by
  have same : before m cs ++ after m cs = before n cs ++ after n cs := by
    rw [before_append_after, before_append_after]
  rcases List.append_eq_append_iff.mp same with ⟨more, longer, _⟩ | ⟨between, longer, _⟩
  · have nothing : more = [] := by
      have width := congrArg byteLength longer
      rw [byteLength_append] at width
      have bound : byteLength (before n cs) ≤ byteLength (before m cs) := less
      by_cases empty : more = []
      · exact empty
      · have wide := byteLength_pos empty
        omega
    exact ⟨[], by rw [longer, nothing, List.append_nil, List.append_nil]⟩
  · exact ⟨between, longer⟩

end ScoreFilter.Text

namespace ScoreFilter.Text

def strip? : List Char → List Char → Option (List Char)
  | [], cs => some cs
  | _ :: _, [] => none
  | s :: start, c :: cs => if s = c then strip? start cs else none

def splitPoint? : List Char → Option (List Char × List Char)
  | [] => none
  | c :: cs =>
    if c = '.' then some ([], cs)
    else
      match splitPoint? cs with
      | none => none
      | some (left, right) => some (c :: left, right)

theorem strip?_append {start cs rest : List Char} (h : strip? start cs = some rest) :
    start ++ rest = cs := by
  fun_induction strip? start cs with
  | case1 => simpa using h.symm
  | case2 => cases h
  | case3 start c cs ih => simp [ih h]
  | case4 => cases h

@[simp]
theorem strip?_self_append (start rest : List Char) : strip? start (start ++ rest) = some rest := by
  induction start with
  | nil => rfl
  | cons s start ih => simp [strip?, ih]

theorem splitPoint?_append {cs left right : List Char}
    (found : splitPoint? cs = some (left, right)) : cs = left ++ '.' :: right ∧ '.' ∉ left := by
  induction cs generalizing left with
  | nil => cases found
  | cons c cs ih =>
    rw [splitPoint?] at found
    split at found
    · rename_i point
      cases found
      exact ⟨by rw [point, List.nil_append], List.not_mem_nil⟩
    · rename_i other
      split at found
      · cases found
      · rename_i later
        cases found
        obtain ⟨spelled, solid⟩ := ih later
        exact ⟨by rw [spelled, List.cons_append], by simpa [Ne.symm other] using solid⟩

theorem splitPoint?_self_append {left : List Char} (solid : '.' ∉ left) (right : List Char) :
    splitPoint? (left ++ '.' :: right) = some (left, right) := by
  induction left with
  | nil => rfl
  | cons c left ih =>
    obtain ⟨other, later⟩ := not_or.mp (mt List.mem_cons.mpr solid)
    simp [splitPoint?, ih later, Ne.symm other]

end ScoreFilter.Text

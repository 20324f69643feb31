import ScoreFilter.Proofs.Text.Boundary
import ScoreFilter.Report.Diagnostics

namespace ScoreFilter

theorem Text.exists_parts {first last : Nat} {cs : List Char} (opening : IsBoundary first cs)
    (closing : IsBoundary last cs) (ordered : first ≤ last) :
    ∃ left middle right, cs = left ++ middle ++ right ∧ first = byteLength left ∧
      last = byteLength (left ++ middle) := by
  have early : clamp first cs ≤ clamp last cs := by
    rw [opening, closing]
    exact ordered
  obtain ⟨middle, between⟩ := exists_between early
  refine ⟨before first cs, middle, after last cs, ?_, opening.symm, ?_⟩
  · rw [← between, before_append_after]
  · rw [← between]
    exact closing.symm

namespace Report

variable {left marked right cs : List Char} {start stop : Nat}

theorem render_append_eq_iff {lines more : List Line} :
    render (lines ++ more) = render lines ↔ more = [] := by
  rw [render, render, String.ofList_inj, List.flatMap_append, List.append_right_eq_self,
    List.flatMap_eq_nil_iff]
  constructor
  · intro nothing
    cases more with
    | nil => rfl
    | cons line more => simpa using nothing line (List.mem_cons_self ..)
  · rintro rfl line member
    cases member

theorem underline_parts (parts : cs = left ++ marked ++ right)
    (first : min start (min stop (Text.byteLength cs)) = Text.byteLength left)
    (last : min stop (Text.byteLength cs) = Text.byteLength (left ++ marked)) :
    underline cs start stop =
      [' ' :: ' ' :: cs, ' ' :: ' ' :: (List.replicate left.length ' ' ++
        List.replicate (max 1 marked.length) '^')] := by
  have opening : Text.IsBoundary (Text.byteLength left) cs :=
    Text.isBoundary_iff.mpr ⟨left, marked ++ right, by rw [parts, List.append_assoc], rfl⟩
  have closing : Text.IsBoundary (Text.byteLength (left ++ marked)) cs :=
    Text.isBoundary_iff.mpr ⟨left ++ marked, right, parts, rfl⟩
  have indent : Text.before (Text.byteLength left) cs = left := by
    rw [parts, List.append_assoc, Text.before_append]
  have covered : Text.before (Text.byteLength (left ++ marked)) cs = left ++ marked := by
    rw [parts, Text.before_append]
  have width : (left ++ marked).length - left.length = marked.length := by
    rw [List.length_append, Nat.add_sub_cancel_left]
  unfold underline
  dsimp only
  rw [first, last, if_pos ⟨opening, closing⟩, indent, covered, width]

theorem underline_eq_nil_iff :
    underline cs start stop = [] ↔
      ¬ (Text.IsBoundary (min start (min stop (Text.byteLength cs))) cs ∧
        Text.IsBoundary (min stop (Text.byteLength cs)) cs) := by
  unfold underline
  dsimp only
  split
  · rename_i inside
    simp [inside]
  · rename_i outside
    simp [outside]

-- What stands above the expression. The bytes are shown as the fault names them.
def faultLines (color : Bool) (f : Fault) (length : Nat) : List Line :=
  [header color "Span       Severity Message".toList,
    columns (padRight 10 (span (f.start.getD 0) (f.stop.getD length)))
      (painted color f.severity.inks (padRight 8 f.severity.label.toList)) f.message.toList]

theorem diagnosticsTable_ofFault (color : Bool) (expression : String) (f : Fault) (length : Nat) :
    diagnosticsTable color expression (Diagnostic.ofFault (some f) length) =
      render (faultLines color f length ++
        underline expression.toList (f.start.getD 0) (f.stop.getD length)) := by
  have lines : diagnosticsLines color expression (Diagnostic.ofFault (some f) length) =
      faultLines color f length ++
        (underline expression.toList (f.start.getD 0) (f.stop.getD length) ++ []) := rfl
  rw [diagnosticsTable, lines, List.append_nil]

end Report

-- Whatever bytes a fault names, there is a table: the expression is underlined unless the bytes, as
-- far as the expression goes, begin or end inside of a character. The carets keep below the
-- characters they mark, and where there are none to mark one caret shows the place.
theorem diagnosticsTable_underlined (color : Bool) (expression : String) (f : Fault) :
    let cs := expression.toList
    let n := Text.byteLength cs
    let b := min (f.stop.getD n) n
    let a := min (f.start.getD 0) b
    let table := Report.diagnosticsTable color expression (Diagnostic.ofFault (some f) n)
    let above := Report.faultLines color f n
    (table = Report.render above ↔ ¬ (Text.IsBoundary a cs ∧ Text.IsBoundary b cs)) ∧
      (Text.IsBoundary a cs ∧ Text.IsBoundary b cs →
        ∃ left marked right, cs = left ++ marked ++ right ∧ a = Text.byteLength left ∧
          b = Text.byteLength (left ++ marked) ∧
          left.length + max 1 marked.length ≤ cs.length + 1 ∧
          table = Report.render (above ++ [' ' :: ' ' :: cs,
            ' ' :: ' ' :: (List.replicate left.length ' ' ++
              List.replicate (max 1 marked.length) '^')])) ∧
      (f.start = none → f.stop = none → cs ≠ [] →
        table = Report.render (above ++
          [' ' :: ' ' :: cs, ' ' :: ' ' :: List.replicate cs.length '^'])) := by
  intro cs n b a table above
  have whole : table = Report.render (above ++
      Report.underline cs (f.start.getD 0) (f.stop.getD n)) :=
    Report.diagnosticsTable_ofFault color expression f n
  refine ⟨?_, ?_, ?_⟩
  · rw [whole, Report.render_append_eq_iff]
    exact Report.underline_eq_nil_iff
  · rintro ⟨opening, closing⟩
    obtain ⟨left, marked, right, parts, first, last⟩ :=
      Text.exists_parts opening closing (Nat.min_le_right _ _)
    refine ⟨left, marked, right, parts, first, last, ?_, ?_⟩
    · rw [parts, List.length_append, List.length_append]
      omega
    · rw [whole, Report.underline_parts parts first last]
  · intro unbegun unended nonempty
    have length : max 1 cs.length = cs.length :=
      Nat.max_eq_right (List.length_pos_iff.mpr nonempty)
    have parts : cs = [] ++ cs ++ [] := by simp
    have all : Report.underline cs 0 n =
        [' ' :: ' ' :: cs, ' ' :: ' ' :: List.replicate (max 1 cs.length) '^'] :=
      Report.underline_parts parts (by simp) (by simp [n])
    rw [whole, unbegun, unended, Option.getD_none, Option.getD_none, all, length]

theorem diagnosticsTable_underlined_past_end :
    let cs := "é名".toList
    let n := Text.byteLength cs
    let past : Fault := ⟨"odd", .warning, some 12, some 9⟩
    let bare : Fault := ⟨"odd", .error, none, none⟩
    let table := fun f => Report.diagnosticsTable false "é名" (Diagnostic.ofFault (some f) n)
    ((Text.IsBoundary (min 12 (min 9 n)) cs ∧ Text.IsBoundary (min 9 n) cs) ∧
        ∃ left marked right, cs = left ++ marked ++ right ∧
          min 12 (min 9 n) = Text.byteLength left ∧
          min 9 n = Text.byteLength (left ++ marked) ∧
          left.length + max 1 marked.length ≤ cs.length + 1 ∧
          table past = Report.render (Report.faultLines false past n ++ [' ' :: ' ' :: cs,
            ' ' :: ' ' :: (List.replicate left.length ' ' ++
              List.replicate (max 1 marked.length) '^')])) ∧
      table past = "Span       Severity Message\n12..9      warning  odd\n  é名\n    ^\n" ∧
      ((bare.start = none ∧ bare.stop = none ∧ cs ≠ []) ∧
        table bare = Report.render (Report.faultLines false bare n ++
          [' ' :: ' ' :: cs, ' ' :: ' ' :: List.replicate cs.length '^'])) ∧
      table bare = "Span       Severity Message\n0..5       error    odd\n  é名\n  ^^\n" := by
  intro cs n past bare table
  have inside : Text.IsBoundary (min 12 (min 9 n)) cs ∧ Text.IsBoundary (min 9 n) cs := by
    decide +kernel
  have nonempty : cs ≠ [] := by decide +kernel
  obtain ⟨_, underlined, _⟩ := diagnosticsTable_underlined false "é名" past
  obtain ⟨_, _, every⟩ := diagnosticsTable_underlined false "é名" bare
  exact ⟨⟨inside, underlined inside⟩, by decide +kernel, ⟨⟨rfl, rfl, nonempty⟩,
    every rfl rfl nonempty⟩, by decide +kernel⟩

end ScoreFilter

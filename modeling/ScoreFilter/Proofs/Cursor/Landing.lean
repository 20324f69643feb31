import ScoreFilter.Proofs.Report.Edit

namespace ScoreFilter

namespace Suggestion

variable {s : Suggestion} {input name : String} {start cursor : Nat}

def closing (s : Suggestion) : List Char :=
  if s.call = true ∧ s.insert.toList.getLast? = some ')' then [')'] else []

theorem exists_inner (s : Suggestion) : ∃ inner, s.insert.toList = inner ++ s.closing := by
  unfold closing
  split
  · rename_i closed
    obtain ⟨inner, spelled⟩ := List.getLast?_eq_some_iff.mp closed.2
    exact ⟨inner, spelled⟩
  · exact ⟨_, (List.append_nil _).symm⟩

-- The parts that an input and the text made of it have in common, and where the cursor divides the
-- inserted text.
structure Landing (s : Suggestion) (input : String) (start cursor : Nat) where
  front : List Char
  replaced : List Char
  back : List Char
  inner : List Char
  whole : input.toList = front ++ replaced ++ back
  first : Text.byteLength front =
    Text.clamp (min start (Text.clamp cursor input.toList)) input.toList
  last : Text.byteLength (front ++ replaced) = Text.clamp cursor input.toList
  inserted : s.insert.toList = inner ++ s.closing
  text : (s.applyTo input start cursor).text.toList = front ++ inner ++ (s.closing ++ back)
  cursor : (s.applyTo input start cursor).cursor = Text.byteLength (front ++ inner)

theorem applyTo_cursor (s : Suggestion) (input : String) (start cursor : Nat) :
    (s.applyTo input start cursor).cursor + Text.byteLength s.closing =
      Text.clamp (min start (Text.clamp cursor input.toList)) input.toList +
        Text.byteLength s.insert.toList := by
  unfold applyTo closing Text.clamp
  dsimp only
  by_cases closed : s.call = true ∧ s.insert.toList.getLast? = some ')'
  · obtain ⟨inner, spelled⟩ := List.getLast?_eq_some_iff.mp closed.2
    have one : Text.byteLength [')'] = 1 := rfl
    rw [if_pos closed, if_pos (by simpa using closed), spelled, Text.byteLength_append, one]
    omega
  · rw [if_neg closed, if_neg (by simpa using closed)]
    rfl

theorem exists_landing (s : Suggestion) (input : String) (start cursor : Nat) :
    Nonempty (s.Landing input start cursor) := by
  have early : Text.clamp (min start (Text.clamp cursor input.toList)) input.toList ≤
      Text.clamp cursor input.toList :=
    Nat.le_trans (Text.clamp_le _ _) (Nat.min_le_right _ _)
  obtain ⟨replaced, between⟩ := Text.exists_between early
  obtain ⟨inner, inserted⟩ := s.exists_inner
  have moved := s.applyTo_cursor input start cursor
  refine ⟨Text.before (min start (Text.clamp cursor input.toList)) input.toList, replaced,
    Text.after cursor input.toList, inner, ?_, rfl, ?_, inserted, ?_, ?_⟩
  · rw [← between, Text.before_append_after]
  · rw [← between, Text.clamp]
  · simp [applyTo, inserted]
  · rw [inserted, Text.byteLength_append, Text.clamp] at moved
    rw [Text.byteLength_append]
    omega

theorem closing_calling {kind : SuggestionKind} {info : Option String} (called : s.call = true)
    (insert : s.insert = (calling name kind info).insert) :
    s.closing = [')'] ∧ s.insert.toList = name.toList ++ ['('] ++ [')'] := by
  have spelled : s.insert.toList = name.toList ++ ['('] ++ [')'] := by simp [insert, calling]
  refine ⟨?_, spelled⟩
  rw [closing, if_pos ⟨called, by rw [spelled, List.getLast?_concat]⟩]

theorem spaced_of_call (called : s.call = true) : s.spaced = s := by
  simp [spaced, called]

theorem applyTo_end (s : Suggestion) (plain : s.call = false) (input : String) :
    s.applyTo input (Text.byteLength input.toList) (Text.byteLength input.toList) =
      ⟨String.ofList (input.toList ++ s.insert.toList),
        Text.byteLength (input.toList ++ s.insert.toList)⟩ := by
  have after : Text.after (Text.byteLength input.toList) input.toList = [] := by
    simpa using Text.after_append input.toList []
  simp [applyTo, Text.clamp, Text.before_byteLength, after, plain]

theorem before_applyTo_end (s : Suggestion) (plain : s.call = false) (input : String) :
    let e := s.applyTo input (Text.byteLength input.toList) (Text.byteLength input.toList)
    Text.before e.cursor e.text.toList = input.toList ++ s.insert.toList := by
  rw [s.applyTo_end plain]
  dsimp only
  rw [String.toList_ofList, Text.before_byteLength]

end Suggestion

-- Whatever is accepted, and wherever: the text between the two clamped offsets gives way to the
-- inserted text, and the cursor comes to stand in that text or at its end. A caret is drawn below
-- it, exactly if fewer than 65535 characters stand before it.
theorem applyTo_lands (s : Suggestion) (input : String) (start cursor : Nat) :
    let c := Text.clamp cursor input.toList
    let f := Text.clamp (min start c) input.toList
    let e := s.applyTo input start cursor
    (∃ front replaced back, input.toList = front ++ replaced ++ back ∧
      Text.byteLength front = f ∧ Text.byteLength (front ++ replaced) = c ∧
      e.text.toList = front ++ s.insert.toList ++ back) ∧
    (Text.IsBoundary e.cursor e.text.toList ∧ f ≤ e.cursor ∧
      e.cursor ≤ f + Text.byteLength s.insert.toList) ∧
    (e.cursor + if s.call = true ∧ s.insert.toList.getLast? = some ')' then 1 else 0) =
      f + Text.byteLength s.insert.toList ∧
    (∀ name kind info, s.call = true → s.insert = (Suggestion.calling name kind info).insert →
      ∃ left right, e.text.toList = left ++ '(' :: ')' :: right ∧
        e.cursor = Text.byteLength (left ++ ['('])) ∧
    ∃ left right, e.text.toList = left ++ right ∧ e.cursor = Text.byteLength left ∧
      ∀ color, Report.editTable? color e =
        if left.length < 65535 then
          some (String.ofList (Report.editPicture color e.text.toList left.length))
        else none := by
  intro c f e
  obtain ⟨landing⟩ := s.exists_landing input start cursor
  have moved := s.applyTo_cursor input start cursor
  have placed : e.cursor = f + Text.byteLength landing.inner := by
    have here := landing.cursor
    rw [Text.byteLength_append, landing.first] at here
    exact here
  have divided : e.text.toList = landing.front ++ landing.inner ++ (s.closing ++ landing.back) :=
    landing.text
  refine ⟨⟨landing.front, landing.replaced, landing.back, landing.whole, landing.first,
    landing.last, ?_⟩, ⟨?_, ?_, ?_⟩, ?_, ?_, ?_⟩
  · rw [divided, landing.inserted]
    simp only [List.append_assoc]
  · exact Text.isBoundary_iff.mpr ⟨_, _, divided, landing.cursor⟩
  · rw [placed]
    exact Nat.le_add_right _ _
  · exact Nat.le.intro moved
  · have width : Text.byteLength s.closing =
        if s.call = true ∧ s.insert.toList.getLast? = some ')' then 1 else 0 := by
      unfold Suggestion.closing
      split <;> rfl
    rw [← width]
    exact moved
  · intro name kind info called insert
    obtain ⟨closing, spelled⟩ := Suggestion.closing_calling called insert
    have inner : landing.inner = name.toList ++ ['('] := by
      have twice := landing.inserted
      rw [closing, spelled] at twice
      exact (List.append_cancel_right twice).symm
    refine ⟨landing.front ++ name.toList, landing.back, ?_, ?_⟩
    · rw [divided, closing, inner]
      simp only [List.append_assoc, List.cons_append, List.nil_append]
    · rw [List.append_assoc, ← inner]
      exact landing.cursor
  · refine ⟨_, _, divided, landing.cursor, ?_⟩
    intro color
    rw [Report.editTable?_eq, Report.before_cursor divided landing.cursor]

-- A call with a wide name, spaced in vain. The cursor is inside of a character, and the text to
-- replace would begin behind the end, so nothing is replaced.
theorem applyTo_lands_inside_character :
    let s := (Suggestion.calling "名" .mathFunction none).spaced.spaced
    let e := s.applyTo "aé x" 9 2
    (s.call = true ∧ s.insert = (Suggestion.calling "名" .mathFunction none).insert) ∧
      (∃ left right, e.text.toList = left ++ '(' :: ')' :: right ∧
        e.cursor = Text.byteLength (left ++ ['('])) ∧
      e = ⟨"a名()é x", 5⟩ := by
  intro s e
  have call : s = Suggestion.calling "名" .mathFunction none := by
    rw [show s = _ from Suggestion.spaced_of_call rfl]
    exact Suggestion.spaced_of_call rfl
  have called : s.call = true := by rw [call]; rfl
  have insert : s.insert = (Suggestion.calling "名" .mathFunction none).insert := by rw [call]
  obtain ⟨_, _, _, between, _⟩ := applyTo_lands s "aé x" 9 2
  exact ⟨⟨called, insert⟩, between "名" .mathFunction none called insert, by decide +kernel⟩

theorem applyTo_lands_too_far :
    let s := Suggestion.verbatim "x" .field none
    let blanks := List.replicate 65535 ' '
    let e := s.applyTo (String.ofList blanks) 65535 65535
    e = ⟨String.ofList (blanks ++ ['x']), 65536⟩ ∧ Report.editTable? false e = none := by
  intro s blanks e
  have spelled : (String.ofList blanks).toList = blanks := String.toList_ofList
  have bytes : Text.byteLength blanks = 65535 := Text.byteLength_blanks 65535
  have inserted : s.insert.toList = ['x'] := by simp [s, Suggestion.verbatim]
  have edit := s.applyTo_end rfl (String.ofList blanks)
  have before := s.before_applyTo_end rfl (String.ofList blanks)
  rw [spelled, inserted, Text.byteLength_append, bytes] at edit
  rw [spelled, inserted, bytes] at before
  refine ⟨edit, ?_⟩
  rw [Report.editTable?_eq, show Text.before e.cursor e.text.toList = blanks ++ ['x'] from before,
    List.length_append, List.length_replicate]
  rfl

end ScoreFilter

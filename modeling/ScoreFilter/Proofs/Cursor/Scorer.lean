import ScoreFilter.Proofs.Request

namespace ScoreFilter

-- A member as it is offered: a blank comes behind it, unless it stands alone or ends with one.
def Suggestion.ofMember (f : Field) (label : String) : Suggestion :=
  ⟨label, .member, f.tooltip, 0,
    if f.isBoolean = true ∨ label.toList.getLast? = some ' ' then label else label ++ " ",
    false, .suggested⟩

theorem Suggestion.spacedFor_member (f : Field) (label : String) :
    (verbatim label .member f.tooltip).spacedFor f = ofMember f label := by
  have pushed : label.push ' ' = label ++ " " := by
    rw [← String.toList_inj]
    simp
  unfold spacedFor
  cases boolean : f.isBoolean with
  | true => simp [verbatim, ofMember, boolean]
  | false =>
    by_cases blank : label.toList.getLast? = some ' '
    · simp [spaced, verbatim, ofMember, blank]
    · simp [spaced, verbatim, ofMember, boolean, blank, pushed]

theorem Completion.members_of_solid (catalog : Catalog) {scorer : String}
    (solid : '.' ∉ scorer.toList) :
    (members catalog scorer).map some =
      (catalog.fields.filter (·.scorer? == some scorer)).map fun f =>
        f.memberName?.map (Suggestion.ofMember f) := by
  have rows : (members catalog scorer).map some =
      ((catalog.membersOf scorer).map some).map
        (Option.map fun row : String × Field => Suggestion.ofMember row.2 row.1) := by
    simp only [members, Suggestion.spacedFor_member, List.map_map]
    rfl
  rw [rows, Catalog.membersOf_of_solid solid, List.map_map]
  apply List.map_congr_left
  intro f _
  exact Option.map_map ..

theorem Lookback.name_solid {input : List Char} {cursor k : Nat} {t : Token}
    (found : (Lookback.at .standard input cursor).token? (k + 1) = some t)
    (named : t.kind = .name) : '.' ∉ t.text.toList := by
  obtain ⟨settled, typed, divides⟩ := exists_divides .standard (Text.before cursor input)
  obtain ⟨front, kind, text, back, rfl, rfl⟩ := Piece.mem_place.mp (token?_settled divides found)
  dsimp only at named
  subst named
  obtain ⟨_, reads, _⟩ := Piece.reading_append.mp divides.reading
  have word := Lexeme.isWord_all (reads.isWord rfl (by decide))
  rw [String.toList_ofList]
  intro point
  cases word '.' point

theorem Context.at_point {v : Vocabulary} {catalog : Catalog} {input : String} {cursor : Nat}
    {point scorer : Token}
    (first : (Lookback.at v input.toList cursor).token? 1 = some point) (dot : point.text = ".")
    (second : (Lookback.at v input.toList cursor).token? 2 = some scorer) :
    Context.at v catalog input cursor = .memberAccess scorer.text := by
  simp [Context.at, ofLookback, first, dot, second, afterPoint]

-- Behind a scorer and a point the offer is made of the members of that scorer: the qualified names
-- that the first point divides into the scorer and the member. Taking the scorer and a point off
-- a qualified name finds the same ones, also where one scorer begins like another.
theorem complete_members (catalog : Catalog) (explicit : Bool) (input : String) (cursor : Nat)
    (point scorer : Token)
    (first : (Lookback.at .standard input.toList cursor).token? 1 = some point)
    (dot : point.text = ".")
    (second : (Lookback.at .standard input.toList cursor).token? 2 = some scorer)
    (named : scorer.kind = .name) :
    (∃ options : List Suggestion,
      options.map some =
        (catalog.fields.filter (·.scorer? == some scorer.text)).map (fun f =>
          f.memberName?.map (Suggestion.ofMember f)) ∧
      complete .standard catalog explicit input cursor =
        if options = [] ∧ explicit = false then none
        else some ⟨(Lookback.at .standard input.toList cursor).start
          (Text.clamp cursor input.toList), options⟩) ∧
    ∀ other : String, '.' ∉ other.toList →
      (catalog.membersOf other).map some =
        (catalog.fields.filter (·.scorer? == some other)).map fun f =>
          f.memberName?.map fun label => (label, f) := by
  have solid := Lookback.name_solid second named
  have context : Context.at .standard catalog input cursor = .memberAccess scorer.text :=
    Context.at_point first dot second
  refine ⟨⟨_, Completion.members_of_solid catalog solid, ?_⟩,
    fun other solid => Catalog.membersOf_of_solid solid⟩
  rw [complete_eq_ite, context, Completion.listOf_memberAccess]
  cases explicit with
  | true => simp
  | false => cases Completion.members catalog scorer.text <;> simp [Context.guesses]

def rubricCatalog : Catalog :=
  ⟨[⟨"a", some "judge.tone.high", .numeric, none, some "Tone"⟩,
    ⟨"b", some "judge_b.tone", .numeric, none, none⟩,
    ⟨"c", some "judge.fair ", .other, none, none⟩,
    ⟨"d", some "judge", .numeric, none, none⟩,
    ⟨"e", some ".judge.x", .numeric, none, none⟩,
    ⟨"f", some "judge.", .boolean, none, none⟩], by decide, by decide⟩

def rubricMembers : List Suggestion :=
  [⟨"tone.high", .member, some "Tone", 0, "tone.high ", false, .suggested⟩,
    ⟨"fair ", .member, none, 0, "fair ", false, .suggested⟩,
    ⟨"", .member, none, 0, "", false, .suggested⟩]

theorem complete_members_alike :
    (Lookback.at .standard "not judge.to>1".toList 12).token? 1 = some ⟨.mark, ".", 9, 10⟩ ∧
      (Lookback.at .standard "not judge.to>1".toList 12).token? 2 = some ⟨.name, "judge", 4, 9⟩ ∧
      complete .standard rubricCatalog false "not judge.to>1" 12 = some ⟨10, rubricMembers⟩ := by
  have first : (Lookback.at .standard "not judge.to>1".toList 12).token? 1 =
      some ⟨.mark, ".", 9, 10⟩ := by decide +kernel
  have second : (Lookback.at .standard "not judge.to>1".toList 12).token? 2 =
      some ⟨.name, "judge", 4, 9⟩ := by decide +kernel
  have start : (Lookback.at .standard "not judge.to>1".toList 12).start
      (Text.clamp 12 "not judge.to>1".toList) = 10 := by decide +kernel
  obtain ⟨⟨options, listed, answered⟩, _⟩ := complete_members rubricCatalog false "not judge.to>1"
    12 _ _ first rfl second rfl
  have members : options.map some = rubricMembers.map some := by
    rw [listed]
    decide +kernel
  rw [(List.map_inj_right fun _ _ => Option.some.inj).mp members, start] at answered
  exact ⟨first, second, answered⟩

end ScoreFilter

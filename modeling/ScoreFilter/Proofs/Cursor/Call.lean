import ScoreFilter.Proofs.Cursor.Acceptance
import ScoreFilter.Proofs.Cursor.Landing
import ScoreFilter.Proofs.Request

namespace ScoreFilter

namespace Completion

variable {v : Vocabulary} {catalog : Catalog} {context : Context} {own general : List Suggestion}
  {layout : Layout} {s o : Suggestion}

theorem decorate_of_call (layout : Layout) (called : s.call = true) : decorate layout s = s := by
  unfold decorate
  split
  · exact Suggestion.spaced_of_call called
  · rfl

theorem exists_source (member : s ∈ assemble own general layout) (called : s.call = true) :
    ∃ o, (o ∈ own ∨ o ∈ general) ∧ o.call = true ∧ s.kind = o.kind ∧ s.insert = o.insert := by
  rcases mem_assemble member with first | ⟨o, listed, _, same⟩
  · obtain ⟨o, inside, remaining, _, _, rfl⟩ := mem_promoteAll first
    have plain : o.call = true := by simpa [promote] using called
    exact ⟨o, .inl inside, plain, kind_promote .., by simp [promote, decorate_of_call layout plain]⟩
  · have plain : o.call = true := by
      rw [same] at called
      split at called
      · simpa using called
      · simpa [demote] using called
    refine ⟨o, .inr listed, plain, ?_, ?_⟩ <;> rw [same] <;>
      split <;> simp [demote, decorate_of_call layout plain]

def IsFunction (v : Vocabulary) (s : Suggestion) : Prop :=
  (∃ f ∈ v.mathFunctions, s = .ofMathFunction f) ∨ ∃ f ∈ v.sampleFunctions, s = .ofSampleFunction f

theorem isFunction_general (member : s ∈ generalSuggestions v catalog) (called : s.call = true) :
    IsFunction v s := by
  simp only [generalSuggestions, List.mem_append, List.mem_map] at member
  rcases member with ((⟨k, _, rfl⟩ | ⟨f, listed, rfl⟩) | ⟨f, listed, rfl⟩) | ⟨f, _, rfl⟩
  · cases called
  · exact .inl ⟨f, listed, rfl⟩
  · exact .inr ⟨f, listed, rfl⟩
  · cases called

theorem isFunction_ownOf (member : s ∈ ownOf v catalog context) (called : s.call = true) :
    IsFunction v s := by
  rcases mem_ownOf member with function | ⟨label, kind, info, rfl | ⟨f, rfl⟩⟩
  · exact .inr function
  · cases called
  · rw [Suggestion.call_spacedFor] at called
    cases called

theorem exists_function (member : s ∈ listOf .standard catalog context) (called : s.call = true) :
    ∃ w, s.insert.toList = w ++ ['('] ++ [')'] ∧ Lexeme.isWord w = true ∧
      (Vocabulary.standard.kindOf w = .mathFunction ∧ s.kind = .mathFunction ∨
        Vocabulary.standard.kindOf w = .sampleFunction ∧ s.kind = .sampleFunction) := by
  obtain ⟨o, source, calling, kind, insert⟩ := exists_source member called
  have function : IsFunction .standard o := by
    rcases source with inside | listed
    · exact isFunction_ownOf inside calling
    · exact isFunction_general listed calling
  obtain ⟨_, math, sample⟩ := Vocabulary.standard_worded
  rw [kind, insert]
  rcases function with ⟨f, listed, rfl⟩ | ⟨f, listed, rfl⟩
  · refine ⟨f.name.toList, (Suggestion.closing_calling rfl rfl).2, math f listed, .inl ⟨?_, rfl⟩⟩
    exact Lexeme.kindOf_math_iff.mpr ⟨f, listed, rfl⟩
  · refine ⟨f.name.toList, (Suggestion.closing_calling rfl rfl).2, sample f listed, .inr ⟨?_, rfl⟩⟩
    exact Lexeme.kindOf_sample_iff.mpr ⟨f, listed, rfl⟩

end Completion

variable {catalog : Catalog} {cs w text : List Char} {settled typed : List Piece}
  {input : String} {cursor : Nat} {kind : TokenKind} {s : Suggestion}

def Piece.opening (kind : TokenKind) (w : List Char) : List Piece :=
  [.lexeme kind w, .lexeme .mark ['(']]

theorem Piece.textOf_opening (kind : TokenKind) (w : List Char) :
    textOf (opening kind w) = w ++ ['('] := by
  simp [opening, Piece.text]

-- A word before a parenthesis is a whole word, whatever comes before it, if no word runs into it.
theorem Divides.accept_call (divides : Divides .standard cs settled typed)
    (apart : ∀ t ∈ Token.ofChars .standard cs,
      t.stop = Text.byteLength (Piece.textOf settled) → t.kind.isWord = false)
    (word : Lexeme.isWord w = true) (function : Vocabulary.standard.kindOf w ≠ .keyword) :
    Divides .standard (Piece.textOf settled ++ (w ++ ['(']))
      (settled ++ Piece.opening (Vocabulary.standard.kindOf w) w) [] := by
  have stop : Lexeme.Stops Lexeme.isWordChar ['('] := Lexeme.stops_cons.mpr (by decide)
  have inKind : Vocabulary.standard.kindOf Lexeme.inWord = .keyword :=
    Lexeme.kindOf_keyword_iff.mpr (.inl (by decide))
  have notKind : Vocabulary.standard.kindOf Lexeme.notWord = .keyword :=
    Lexeme.kindOf_keyword_iff.mpr (.inr rfl)
  have before : Piece.Reading settled (w ++ ['(']) := by
    refine divides.reading.before_word ((Lexeme.beginsWord_of_isWord word).append _)
      (divides.loose apart) ?_
    intro _ _ _ _ ahead
    rw [Lexeme.inAhead_word word stop] at ahead
    subst ahead
    exact function inKind
  have inner : Piece.Reading (Piece.opening (Vocabulary.standard.kindOf w) w) [] := by
    refine ⟨.word rfl word stop ?_, .alone (by decide) (by decide) (by decide) _, trivial⟩
    intro negation
    subst negation
    exact absurd notKind function
  refine .idle (Piece.ofText_eq_iff.mpr ⟨?_, Piece.reading_append.mpr ⟨?_, inner⟩⟩) ?_
  · rw [Piece.textOf_append, Piece.textOf_opening]
  · rw [Piece.textOf_opening, List.append_nil]
    exact before
  · intro front kind text last
    rw [Piece.opening, ← List.singleton_append, ← List.append_assoc] at last
    cases (List.append_inj' last rfl).2
    exact .inl rfl

theorem Suggestion.applyTo_call (catalog : Catalog) (called : s.call = true)
    (insert : s.insert.toList = w ++ ['('] ++ [')'])
    (divides : Divides .standard (Text.before cursor input.toList) settled typed)
    (accepted : Divides .standard (Piece.textOf settled ++ (w ++ ['(']))
      (settled ++ Piece.opening kind w) []) :
    (s.applyTo input (Text.byteLength (Piece.textOf settled)) cursor).Behind catalog
      (settled ++ Piece.opening kind w) := by
  have one : ')'.utf8Size = 1 := rfl
  have edit : s.applyTo input (Text.byteLength (Piece.textOf settled)) cursor =
      ⟨String.ofList (Piece.textOf settled ++ (w ++ ['(']) ++
          (')' :: Text.after cursor input.toList)),
        Text.byteLength (Piece.textOf settled ++ (w ++ ['(']))⟩ := by
    simp [applyTo, divides.before_start rfl, called, insert, one, ← Nat.add_assoc]
  have cut := Text.before_append (Piece.textOf settled ++ (w ++ ['(']))
    (')' :: Text.after cursor input.toList)
  rw [← String.toList_ofList (l := _ ++ ')' :: _)] at cut
  rw [edit]
  constructor
  case context => exact context_behind cut accepted
  case cursor => rw [Piece.textOf_append, Piece.textOf_opening]
  case offer? =>
    intro explicit
    exact complete_behind explicit cut accepted

theorem Context.behind_opening (catalog : Catalog) (settled : List Piece) (kind : TokenKind)
    (w : List Char) :
    behind catalog (settled ++ Piece.opening kind w) =
      match kind with
      | .mathFunction => .mathArgument
      | .sampleFunction => .searchArgument
      | _ => .startOfExpression := by
  cases kind <;>
    simp [behind, Piece.opening, Piece.place_append, Piece.place, ofLookback, Lookback.token?,
      Lookback.back, afterParenthesis]

theorem Edit.exists_offer {e : Edit} {context : Context} {asked : Bool}
    (here : e.context .standard catalog = context) (guessed : asked = true ∨ context.guesses = true)
    (other : ∀ scorer, context ≠ .memberAccess scorer) :
    ∃ next, e.offer? .standard catalog asked = some next := by
  have words := Completion.generalSuggestions_standard_ne_nil catalog
  have nonempty : Completion.listOf .standard catalog context ≠ [] := by
    rw [Ne, Completion.listOf_eq_nil_iff words]
    rintro ⟨scorer, same, _⟩
    exact other scorer same
  rw [Edit.context] at here
  rw [Edit.offer?, complete_eq_ite, here, if_pos]
  · exact ⟨_, rfl⟩
  · rcases guessed with rfl | known
    · rfl
    · simp [known, nonempty]

-- Accepting a function opens its argument, whatever is replaced and whatever stands before it,
-- unless it is a word that the name would run into.
theorem accept_function (catalog : Catalog) (explicit : Bool) (input : String) (cursor : Nat)
    (offer : Offer) (s : Suggestion)
    (found : complete .standard catalog explicit input cursor = some offer)
    (member : s ∈ offer.suggestions) (called : s.call = true)
    (apart : ∀ t ∈ Token.ofChars .standard (Text.before cursor input.toList),
      t.stop = offer.start → t.kind.isWord = false) :
    let e := s.applyTo input offer.start cursor
    (s.kind = .mathFunction ∧ e.context .standard catalog = .mathArgument ∨
      s.kind = .sampleFunction ∧ e.context .standard catalog = .searchArgument) ∧
    ∀ asked, (∀ next, e.offer? .standard catalog asked = some next → next.start = e.cursor) ∧
      (asked = true ∨ s.kind = .mathFunction →
        ∃ next, e.offer? .standard catalog asked = some next) := by
  intro e
  rw [Completion.suggestions?_eq_some (complete_eq_some found)] at member
  obtain ⟨w, insert, word, kinded⟩ := Completion.exists_function member called
  obtain ⟨settled, typed, divides⟩ := exists_divides .standard (Text.before cursor input.toList)
  rw [complete_behind explicit rfl divides] at found
  have start := offerBehind_start found
  rw [start] at apart
  have function : Vocabulary.standard.kindOf w ≠ .keyword := by
    rcases kinded with ⟨math, _⟩ | ⟨sample, _⟩
    · simp [math]
    · simp [sample]
  have behind : e.Behind catalog (settled ++ Piece.opening (Vocabulary.standard.kindOf w) w) := by
    rw [show e = s.applyTo input offer.start cursor from rfl, start]
    exact Suggestion.applyTo_call catalog called insert divides
      (divides.accept_call apart word function)
  have starts : ∀ asked next, e.offer? .standard catalog asked = some next →
      next.start = e.cursor := by
    intro asked next offered
    rw [behind.offer?] at offered
    rw [offerBehind_start offered, behind.cursor]
  have context := behind.context.trans (Context.behind_opening ..)
  rcases kinded with ⟨math, kind⟩ | ⟨sample, kind⟩
  · rw [math] at context
    refine ⟨.inl ⟨kind, context⟩, fun asked => ⟨starts asked, ?_⟩⟩
    intro _
    exact Edit.exists_offer context (.inr rfl) nofun
  · rw [sample] at context
    refine ⟨.inr ⟨kind, context⟩, fun asked => ⟨starts asked, ?_⟩⟩
    rintro (requested | math)
    · exact Edit.exists_offer context (.inl requested) nofun
    · rw [kind] at math
      cases math

-- A call in the place of an open quote, behind `not` and a character that begins no token.
def containsCall : Suggestion :=
  .calling "input_contains" .sampleFunction
    (some "Checks if the sample input contains a regular expression")

theorem accept_function_over_quote :
    ∃ offer, complete .standard memberCatalog false "x>1 or not é\"in)" 16 = some offer ∧
      offer.start = 13 ∧ containsCall ∈ offer.suggestions ∧
      (∀ t ∈ Token.ofChars .standard (Text.before 16 "x>1 or not é\"in)".toList),
        t.stop = 13 → t.kind.isWord = false) ∧
      containsCall.applyTo "x>1 or not é\"in)" 13 16 = ⟨"x>1 or not éinput_contains())", 28⟩ ∧
      Context.at .standard memberCatalog "x>1 or not éinput_contains())" 28 = .searchArgument ∧
      ∃ next, complete .standard memberCatalog true "x>1 or not éinput_contains())" 28 = some next ∧
        next.start = 28 := by
  have option : (complete .standard memberCatalog false "x>1 or not é\"in)" 16).map
      (fun offer => (offer.start, offer.find? "input_contains")) =
        some (13, some containsCall) := by decide +kernel
  obtain ⟨offer, found, chosen⟩ := Option.map_eq_some_iff.mp option
  obtain ⟨start, first⟩ := Prod.mk.inj chosen
  have member : containsCall ∈ offer.suggestions := List.mem_of_find?_eq_some first
  have apart : ∀ t ∈ Token.ofChars .standard (Text.before 16 "x>1 or not é\"in)".toList),
      t.stop = 13 → t.kind.isWord = false := by decide +kernel
  have edit : containsCall.applyTo "x>1 or not é\"in)" 13 16 =
      ⟨"x>1 or not éinput_contains())", 28⟩ := by decide +kernel
  have opened := accept_function memberCatalog false "x>1 or not é\"in)" 16 offer containsCall found
    member rfl (start ▸ apart)
  rw [start, edit] at opened
  obtain ⟨⟨other, _⟩ | ⟨_, context⟩, offers⟩ := opened
  · cases other
  · obtain ⟨next, offered⟩ := (offers true).2 (.inl rfl)
    exact ⟨offer, found, start, member, apart, edit, context, next, offered,
      (offers true).1 next offered⟩

end ScoreFilter

import ScoreFilter.Proofs.Token.Reading

namespace ScoreFilter

def Token.shift (n : Nat) (t : Token) : Token :=
  { t with start := n + t.start, stop := n + t.stop }

@[simp]
theorem Token.shift_kind (n : Nat) (t : Token) : (t.shift n).kind = t.kind := rfl

@[simp]
theorem Token.shift_text (n : Nat) (t : Token) : (t.shift n).text = t.text := rfl

def TokenKind.quotes : TokenKind → Nat
  | .quoted => 2
  | .unclosed => 1
  | _ => 0

theorem TokenKind.quotes_of_isWord {kind : TokenKind} (worded : kind.isWord = true) :
    kind.quotes = 0 := by
  cases kind with
  | keyword => rfl
  | mathFunction => rfl
  | sampleFunction => rfl
  | name => rfl
  | _ => cases worded

theorem TokenKind.quotes_even {kind : TokenKind} (closed : kind ≠ .unclosed) :
    kind.quotes % 2 = 0 := by
  cases kind with
  | unclosed => exact absurd rfl closed
  | _ => rfl

theorem Lexeme.Reads.count_quote {kind : TokenKind} {text rest : List Char}
    (reads : Reads kind text rest) : text.count '"' = kind.quotes := by
  cases reads with
  | quoted inside =>
    rw [List.count_cons_self, List.count_append, List.count_eq_zero_of_not_mem inside]
    rfl
  | unclosed inside =>
    rw [List.count_cons_self, List.count_eq_zero_of_not_mem inside]
    rfl
  | number signed digits decimals ended =>
    apply List.count_eq_zero_of_not_mem
    intro member
    have numeral : IsNumber _ := ⟨_, _, _, signed, digits, decimals, rfl⟩
    rcases mem_number numeral member with plus | minus | point | digit
    · cases plus
    · cases minus
    · cases point
    · cases digit
  | phrase spaced ended =>
    apply List.count_eq_zero_of_not_mem
    intro member
    rcases List.mem_append.mp member with negation | later
    · cases List.elem_eq_true_of_mem negation
    · rcases List.mem_append.mp later with space | inside
      · cases spaced.2 _ space
      · cases List.elem_eq_true_of_mem inside
  | word kinded word ended alone =>
    rw [← kinded, TokenKind.quotes_of_isWord (kindOf_isWord _ _)]
    apply List.count_eq_zero_of_not_mem
    intro member
    cases isWord_all word _ member
  | pair listed =>
    have other := (symbol_class (pairing_subset listed)).2.2.1
    simp [TokenKind.quotes, other]
  | angle listed ended =>
    have other := (symbol_class (pairing_subset (angles_subset listed))).2.2.1
    simp [TokenKind.quotes, other]
  | mark listed lone unsigned =>
    have other := (symbol_class (marks_subset listed)).2.2.1
    simp [TokenKind.quotes, other]

namespace Piece

variable {pieces : List Piece} {new : List Char}

theorem place_shift (n offset : Nat) (pieces : List Piece) :
    place (n + offset) pieces = (place offset pieces).map (Token.shift n) := by
  induction pieces generalizing offset with
  | nil => rfl
  | cons p pieces ih =>
    cases p with
    | lexeme kind text => simp [place, Token.shift, ← ih, Nat.add_assoc]
    | gap c => simp [place, ← ih, Nat.add_assoc]

theorem Reading.quotes_even_iff (reading : Reading pieces []) :
    (textOf pieces).count '"' % 2 = 0 ↔ ∀ text, .lexeme .unclosed text ∉ pieces := by
  induction pieces with
  | nil => simp
  | cons p pieces ih =>
    rw [textOf_cons, List.count_append]
    cases p with
    | gap c =>
      have other : c ≠ '"' := by
        intro same
        subst same
        cases reading.1
      simp [Piece.text, other, ih reading.2]
    | lexeme kind text =>
      have counted := reading.1.count_quote
      rw [Piece.text, counted]
      by_cases opened : kind = .unclosed
      · subst opened
        have nothing : textOf pieces = [] := by simpa using reading.1.swallowing.1
        constructor
        · intro even
          rw [nothing] at even
          cases even
        · intro closed
          exact absurd (List.mem_cons_self ..) (closed text)
      · have pairs := TokenKind.quotes_even opened
        have apart : ∀ body, Piece.lexeme .unclosed body ≠ .lexeme kind text := by
          intro body same
          cases same
          exact opened rfl
        simp only [List.mem_cons, apart, false_or, ← ih reading.2]
        omega

-- The last lexeme is `not`, and only white space comes after it.
def AwaitsIn (settled : List Piece) : Prop :=
  ∃ front gaps, settled = front ++ .lexeme .keyword Lexeme.notWord :: gaps ∧
    ∀ c ∈ textOf gaps, Text.isSpace c = true

-- A blank and any text may come behind the pieces if they leave no quote open and no `not` of theirs
-- finds its `in` there.
theorem Reading.before_blank_iff (reading : Reading pieces []) :
    Reading pieces (' ' :: new) ↔
      (∀ text, .lexeme .unclosed text ∉ pieces) ∧ ¬ (AwaitsIn pieces ∧ Lexeme.InAhead new) := by
  have space : ∀ c ∈ [' '], Text.isSpace c = true := by
    intro c member
    rw [List.mem_singleton.mp member]
    rfl
  constructor
  · intro again
    refine ⟨?_, ?_⟩
    · intro text member
      obtain ⟨front, back, rfl⟩ := List.append_of_mem member
      obtain ⟨_, reads, _⟩ := reading_append.mp again
      simpa using reads.swallowing.1
    · rintro ⟨⟨front, gaps, rfl, spaces⟩, ahead⟩
      obtain ⟨_, reads, _⟩ := reading_append.mp again
      have spaced : Lexeme.IsGap (textOf gaps ++ [' ']) := by
        refine ⟨by simp, ?_⟩
        intro c member
        rcases List.mem_append.mp member with inner | last
        · exact spaces c inner
        · exact space c last
      apply reads.not_inFollows
      have following := (Lexeme.inFollows_gap spaced).mpr ahead
      simpa using following
  · rintro ⟨closed, apart⟩
    apply reading.before_text
    · intro front kind text last reads
      subst last
      refine reads.before_blank (Lexeme.stops_cons.mpr rfl) ?_ ?_
      · intro opened
        subst opened
        exact absurd (by simp) (closed text)
      · intro negation following
        subst negation
        obtain ⟨kinded, _⟩ := reads.kindOf (by decide)
        refine apart ⟨⟨front, [], ?_, by simp⟩, (Lexeme.inFollows_cons.mp following).2⟩
        rw [← kinded]
        rfl
    · intro _ _ _ _
      exact Lexeme.stops_cons.mpr rfl
    · intro front gaps parts spaces ahead
      exact apart ⟨⟨front, gaps, parts, spaces⟩, (Lexeme.inAhead_append space).mp ahead⟩

theorem reading_blank_iff {left : List Char} :
    Reading (ofText .standard left) (' ' :: new) ↔
      left.count '"' % 2 = 0 ∧
        ¬ (AwaitsIn (ofText .standard left) ∧ Lexeme.InAhead new) := by
  have reading := reading_ofText left
  rw [reading.before_blank_iff, ← reading.quotes_even_iff, textOf_ofText]

theorem ofText_joined_iff {left right : List Char} :
    ofText .standard (left ++ ' ' :: right) =
        ofText .standard left ++ .gap ' ' :: ofText .standard right ↔
      Reading (ofText .standard left) (' ' :: right) := by
  have rest : textOf (.gap ' ' :: ofText .standard right) = ' ' :: right := by
    rw [textOf_cons, textOf_ofText]
    rfl
  rw [ofText_eq_iff, reading_append, textOf_append, rest, textOf_ofText, List.append_nil]
  constructor
  · exact fun joined => joined.2.1
  · exact fun reading => ⟨rfl, reading, by decide, reading_ofText right⟩

end Piece

variable {p b : String}

def AwaitsIn (p : String) : Prop :=
  ∃ t ∈ (Token.tokenize .standard p).getLast?, t.kind = .keyword ∧ t.text = "not" ∧
    (Text.after t.stop p.toList).all Text.isSpace = true

instance (p : String) : Decidable (AwaitsIn p) :=
  inferInstanceAs (Decidable (∃ t ∈ (Token.tokenize .standard p).getLast?, _))

def LeadsIn (b : String) : Prop :=
  ∃ t ∈ (Token.tokenize .standard b).head?, t.kind = .keyword ∧ t.text = "in" ∧
    (Text.before t.start b.toList).all Text.isSpace = true

instance (b : String) : Decidable (LeadsIn b) :=
  inferInstanceAs (Decidable (∃ t ∈ (Token.tokenize .standard b).head?, _))

theorem awaitsIn_iff : AwaitsIn p ↔ Piece.AwaitsIn (Piece.ofText .standard p.toList) := by
  obtain ⟨spelled, reading⟩ := Piece.ofText_eq_iff.mp (rfl : Piece.ofText .standard p.toList = _)
  rw [AwaitsIn, Token.tokenize, Token.ofChars]
  generalize Piece.ofText .standard p.toList = pieces at spelled reading
  constructor
  · rintro ⟨t, last, kind, text, spaces⟩
    obtain ⟨front, kind', text', back, rfl, rfl⟩ :=
      Piece.mem_place.mp (List.mem_of_mem_getLast? last)
    dsimp only at kind text
    subst kind
    have negation : text' = Lexeme.notWord := by
      simpa [Lexeme.notWord] using congrArg String.toList text
    subst negation
    refine ⟨front, back, rfl, ?_⟩
    rw [← spelled, Nat.zero_add, Piece.after_stop] at spaces
    exact List.all_eq_true.mp spaces
  · rintro ⟨front, gaps, whole, spaces⟩
    subst whole
    obtain ⟨_, _, rest⟩ := Piece.reading_append.mp reading
    refine ⟨⟨.keyword, "not", Text.byteLength (Piece.textOf front),
      Text.byteLength (Piece.textOf front) + Text.byteLength Lexeme.notWord⟩, ?_, rfl, rfl, ?_⟩
    · rw [Piece.place_append, Piece.place, rest.place_spaces spaces, Nat.zero_add]
      simp [Lexeme.notWord]
    · rw [← spelled, Piece.after_stop]
      exact List.all_eq_true.mpr spaces

theorem leadsIn_iff : LeadsIn b ↔ Lexeme.InAhead b.toList := by
  obtain ⟨spelled, reading⟩ := Piece.ofText_eq_iff.mp (rfl : Piece.ofText .standard b.toList = _)
  have ahead := reading.leadsIn_iff fun _ => Lexeme.not_inAhead_nil
  rw [List.append_nil, spelled] at ahead
  rw [ahead, LeadsIn, Token.tokenize, Token.ofChars]
  generalize Piece.ofText .standard b.toList = pieces at spelled reading
  constructor
  · rintro ⟨t, first, kind, text, spaces⟩
    obtain ⟨front, kind', text', back, rfl, rfl⟩ :=
      Piece.mem_place.mp (List.mem_of_mem_head? first)
    dsimp only at kind text
    subst kind
    have word : text' = Lexeme.inWord := by
      simpa [Lexeme.inWord] using congrArg String.toList text
    subst word
    refine ⟨front, back, rfl, ?_⟩
    rw [← spelled, Nat.zero_add, Piece.textOf_append, Text.before_append] at spaces
    exact List.all_eq_true.mp spaces
  · rintro ⟨gaps, back, whole, spaces⟩
    subst whole
    obtain ⟨start, _⟩ := Piece.reading_append.mp reading
    refine ⟨⟨.keyword, "in", Text.byteLength (Piece.textOf gaps),
      Text.byteLength (Piece.textOf gaps) + Text.byteLength Lexeme.inWord⟩, ?_, rfl, rfl, ?_⟩
    · rw [Piece.place_append, Piece.place, start.place_spaces spaces, Nat.zero_add]
      simp [Lexeme.inWord]
    · rw [← spelled, Piece.textOf_append, Text.before_append]
      exact List.all_eq_true.mpr spaces

-- The tokens of two texts with a blank between them are the tokens of the one and then those of the
-- other, exactly when the first text leaves no quote open and no `not` at its end finds an `in` at
-- the beginning of the second.
theorem tokenize_joined (a b : String) :
    Token.tokenize .standard (a ++ " " ++ b) =
        Token.tokenize .standard a ++
          (Token.tokenize .standard b).map (Token.shift (Text.byteLength a.toList + 1)) ↔
      a.toList.count '"' % 2 = 0 ∧ ¬ (AwaitsIn a ∧ LeadsIn b) := by
  have placed : Token.tokenize .standard a ++
      (Token.tokenize .standard b).map (Token.shift (Text.byteLength a.toList + 1)) =
        Piece.place 0 (Piece.ofText .standard a.toList ++
          .gap ' ' :: Piece.ofText .standard b.toList) := by
    rw [Piece.place_append, Piece.textOf_ofText, Piece.place, Nat.zero_add]
    exact congrArg _ (Piece.place_shift _ 0 _).symm
  have whole : (a ++ " " ++ b).toList = a.toList ++ ' ' :: b.toList := by simp
  rw [placed, awaitsIn_iff, leadsIn_iff, ← Piece.reading_blank_iff, ← Piece.ofText_joined_iff,
    Token.tokenize, Token.ofChars, whole]
  constructor
  · intro same
    have told : ∀ cs, ∀ q ∈ Piece.ofText .standard cs, q.Told :=
      fun cs => (Piece.reading_ofText cs).told
    refine Piece.eq_of_told (told _) ?_ (Piece.lexemes_eq_iff.mp (congrArg _ same)) ?_
    · exact List.forall_mem_append.mpr ⟨told _, List.forall_mem_cons.mpr ⟨rfl, told _⟩⟩
    · simp [Piece.text]
  · exact fun same => congrArg (Piece.place 0) same

-- Any white space may come with the two words of the keyword.
example : AwaitsIn "x not\t" ∧ LeadsIn "\u2003in y" ∧ ¬ LeadsIn "inside y" := by decide +kernel

end ScoreFilter

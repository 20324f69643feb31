import ScoreFilter.Proofs.Cursor.Standing
import ScoreFilter.Proofs.Token.Joining

namespace ScoreFilter

variable {p w : String} {settled : List Piece} {catalog : Catalog} {explicit : Bool}

def Idle (p : String) : Prop :=
  ∀ t ∈ (Token.tokenize .standard p).getLast?,
    t.stop < Text.byteLength p.toList ∨ t.text = "(" ∨ t.text = "."

instance (p : String) : Decidable (Idle p) :=
  inferInstanceAs (Decidable (∀ t ∈ (Token.tokenize .standard p).getLast?, _))

theorem Idle.divides (idle : Idle p) :
    Divides .standard p.toList (Piece.ofText .standard p.toList) [] := by
  refine .idle rfl ?_
  intro front kind text whole
  have spelled := (Piece.ofText_eq_iff.mp whole).1
  have last : (Token.tokenize .standard p).getLast? =
      some ⟨kind, String.ofList text, Text.byteLength (Piece.textOf front),
        Text.byteLength (Piece.textOf front) + Text.byteLength text⟩ := by
    simp [Token.tokenize, Token.ofChars, whole, Piece.place_append, Piece.place]
  have length : Text.byteLength p.toList =
      Text.byteLength (Piece.textOf front) + Text.byteLength text := by
    rw [← spelled]
    simp [Piece.text]
  rcases idle _ last with inside | opened | opened
  · dsimp only at inside
    omega
  · exact .inl (by simpa using congrArg String.toList opened)
  · exact .inr (by simpa using congrArg String.toList opened)

-- A word typed behind idle pieces is one more lexeme, whatever it spells, unless it is the `in`
-- that a `not` is waiting for.
theorem Divides.type {cs w : List Char} (divides : Divides .standard cs settled [])
    (word : Lexeme.isWord w = true) (free : ¬ (w = Lexeme.inWord ∧ Piece.AwaitsIn settled)) :
    Divides .standard (cs ++ w) settled [.lexeme (Vocabulary.standard.kindOf w) w] := by
  obtain ⟨spelled, reading⟩ := Piece.ofText_eq_iff.mp divides.whole
  rw [List.append_nil] at spelled reading
  have before : Piece.Reading settled w := by
    refine reading.before_word (Lexeme.beginsWord_of_isWord word) ?_ ?_
    · intro front kind text last
      cases divides with
      | idle whole ended =>
        subst last
        obtain ⟨_, reads, _⟩ := Piece.reading_append.mp reading
        have mark := reads.opening (ended front kind text rfl)
        subst mark
        exact ⟨rfl, by decide⟩
    · intro front gaps awaiting spaces ahead
      have whole : Lexeme.InAhead (w ++ []) := by simpa using ahead
      have same := (Lexeme.inAhead_word word (Lexeme.stops_nil _)).mp whole
      exact free ⟨same, front, gaps, awaiting, spaces⟩
  refine .typing (Piece.ofText_eq_iff.mpr ⟨?_, ?_⟩) ?_
  · rw [Piece.textOf_append, spelled]
    simp [Piece.text]
  · refine Piece.reading_append.mpr ⟨by simpa [Piece.text] using before, ?_⟩
    refine Piece.reading_word word (Lexeme.stops_nil _) ?_
    intro _ following
    obtain ⟨gap, tail, _, same, _⟩ := following
    simp at same
  · intro mark
    rcases mark with rfl | rfl <;> cases word

theorem Divides.type_in {cs : List Char} {front gaps : List Piece}
    (divides : Divides .standard cs (front ++ .lexeme .keyword Lexeme.notWord :: gaps) [])
    (spaces : ∀ c ∈ Piece.textOf gaps, Text.isSpace c = true) :
    Divides .standard (cs ++ Lexeme.inWord) front
      [.lexeme .keyword (Lexeme.notWord ++ (Piece.textOf gaps ++ Lexeme.inWord))] := by
  obtain ⟨spelled, reading⟩ := Piece.ofText_eq_iff.mp divides.whole
  rw [List.append_nil] at spelled reading
  obtain ⟨start, _, rest⟩ := Piece.reading_append.mp reading
  have spaced : Lexeme.IsGap (Piece.textOf gaps) := by
    refine ⟨?_, spaces⟩
    intro empty
    have none := rest.eq_nil empty
    subst none
    cases divides with
    | idle whole ended =>
      rcases ended front .keyword Lexeme.notWord rfl with same | same <;> cases same
  have before : Piece.Reading front (Lexeme.notWord ++ (Piece.textOf gaps ++ Lexeme.inWord)) := by
    refine start.before_word ⟨'n', _, rfl, by decide⟩ ?_ ?_
    · intro front' kind text last
      subst last
      obtain ⟨_, reads, _⟩ := Piece.reading_append.mp start
      exact reads.loose (by decide)
    · intro _ _ _ _ ahead
      cases (Lexeme.inAhead_word (by decide) (Lexeme.stops_of_isGap spaced _)).mp ahead
  refine .typing (Piece.ofText_eq_iff.mpr ⟨?_, ?_⟩) ?_
  · rw [← spelled]
    simp [Piece.text]
  · refine Piece.reading_append.mpr ⟨by simpa [Piece.text] using before, ?_, trivial⟩
    exact .phrase spaced (Lexeme.stops_nil _)
  · intro mark
    rcases mark with same | same <;> cases same

theorem Context.behind_not {front gaps : List Piece} (catalog : Catalog)
    (blank : ∀ offset, Piece.place offset gaps = []) :
    behind catalog (front ++ .lexeme .keyword Lexeme.notWord :: gaps) = .startOfExpression := by
  simp [behind, Piece.place_append, Piece.place, blank, ofLookback, Lookback.token?, Lookback.back,
    Lookback.field?, Lookback.qualifiedName?, Lookback.dottedName?, afterOther, connectors,
    TokenKind.isLiteral, Lexeme.notWord]

theorem offerBehind_ne {front gaps : List Piece} (catalog : Catalog) (explicit : Bool)
    (blank : ∀ offset, Piece.place offset gaps = []) :
    offerBehind .standard catalog explicit front ≠
      offerBehind .standard catalog explicit
        (front ++ .lexeme .keyword Lexeme.notWord :: gaps) := by
  intro same
  rw [offerBehind_beginning explicit (Context.behind_not catalog blank)] at same
  have start := offerBehind_start same
  have wide := Text.byteLength_pos (by decide : Lexeme.notWord ≠ [])
  simp only [Piece.textOf_append, Piece.textOf_cons, Piece.text, Text.byteLength_append] at start
  omega

-- The offer at a place where nothing is being typed stands for every word that is then typed
-- there, and whatever comes after the cursor. Only `in` behind `not` takes it away.
theorem complete_while_typing (catalog : Catalog) (explicit : Bool) (p w s s' : String)
    (idle : Idle p) (word : Lexeme.isWord w.toList = true) :
    (∀ offer,
      complete .standard catalog explicit (p ++ s') (Text.byteLength p.toList) = some offer →
        offer.start = Text.byteLength p.toList) ∧
    (complete .standard catalog explicit (p ++ w ++ s) (Text.byteLength (p ++ w).toList) =
        complete .standard catalog explicit (p ++ s') (Text.byteLength p.toList) ↔
      ¬ (w = "in" ∧ AwaitsIn p)) := by
  have divides := idle.divides
  have left : Text.before (Text.byteLength (p ++ w).toList) (p ++ w ++ s).toList =
      p.toList ++ w.toList := by
    simpa using Text.before_append (p ++ w).toList s.toList
  have right : Text.before (Text.byteLength p.toList) (p ++ s').toList = p.toList := by
    simpa using Text.before_append p.toList s'.toList
  rw [complete_behind explicit right divides, awaitsIn_iff]
  refine ⟨?_, ?_, ?_⟩
  · intro offer found
    rw [offerBehind_start found, (Piece.ofText_eq_iff.mp rfl).1]
  · intro same ⟨keyword, front, gaps, whole, spaces⟩
    subst keyword
    rw [whole] at divides same
    have reading := (Piece.ofText_eq_iff.mp whole).2
    obtain ⟨_, _, rest⟩ := Piece.reading_append.mp reading
    rw [complete_behind explicit left (divides.type_in spaces)] at same
    exact offerBehind_ne catalog explicit (rest.place_spaces spaces) same
  · intro free
    have apart : ¬ (w.toList = Lexeme.inWord ∧
        Piece.AwaitsIn (Piece.ofText .standard p.toList)) := by
      intro ⟨spelled, awaiting⟩
      exact free ⟨String.toList_inj.mp spelled, awaiting⟩
    exact complete_behind explicit left (divides.type word apart)

-- Behind a `not` and a wide space, `inside` is a word like any other and `in` is not.
theorem complete_while_typing_inside :
    Idle "x and not\u2003" ∧ AwaitsIn "x and not\u2003" ∧
      Lexeme.isWord "inside".toList = true ∧ Lexeme.isWord "in".toList = true ∧
      complete .standard .empty false ("x and not\u2003" ++ "inside" ++ "r)")
          (Text.byteLength ("x and not\u2003" ++ "inside").toList) =
        complete .standard .empty false ("x and not\u2003" ++ "é")
          (Text.byteLength "x and not\u2003".toList) ∧
      complete .standard .empty false ("x and not\u2003" ++ "in" ++ "r)")
          (Text.byteLength ("x and not\u2003" ++ "in").toList) ≠
        complete .standard .empty false ("x and not\u2003" ++ "é")
          (Text.byteLength "x and not\u2003".toList) := by
  have idle : Idle "x and not\u2003" := by decide +kernel
  have awaiting : AwaitsIn "x and not\u2003" := by decide +kernel
  have stable := complete_while_typing .empty false "x and not\u2003" "inside" "r)" "é" idle
    (by decide)
  have changed := complete_while_typing .empty false "x and not\u2003" "in" "r)" "é" idle
    (by decide)
  refine ⟨idle, awaiting, by decide, by decide, stable.2.mpr (by decide), ?_⟩
  intro same
  exact changed.2.mp same ⟨rfl, awaiting⟩

end ScoreFilter

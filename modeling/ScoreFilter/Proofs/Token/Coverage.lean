import ScoreFilter.Proofs.Token.Placement

namespace ScoreFilter

theorem Vocabulary.insertByWordCount_perm (k : Keyword) (table : List Keyword) :
    (insertByWordCount k table).Perm (k :: table) := by
  induction table with
  | nil => exact .refl _
  | cons first rest ih =>
    unfold insertByWordCount
    split
    · exact .refl _
    · exact (ih.cons first).trans (.swap k first rest)

theorem Vocabulary.keywordsByWordCount_perm (v : Vocabulary) :
    v.keywordsByWordCount.Perm v.keywords := by
  unfold keywordsByWordCount
  induction v.keywords with
  | nil => exact .refl _
  | cons k rest ih => exact (insertByWordCount_perm k _).trans (ih.cons k)

-- A run over the whole text. Each derivation is finite, so a text that has one is read to its end;
-- a vocabulary with an empty word can leave a text without any.
inductive Scan (v : Vocabulary) : List Char → List Piece → Prop where
  | done : Scan v [] []
  | lexeme {cs : List Char} {s : Lexeme.Split} {pieces : List Piece} (more : cs ≠ [])
      (found : Lexeme.split? v cs = some s) (later : Scan v s.rest pieces) :
      Scan v cs (.lexeme s.kind s.text :: pieces)
  | gap {c : Char} {cs : List Char} {pieces : List Piece}
      (refused : Lexeme.split? v (c :: cs) = none) (later : Scan v cs pieces) :
      Scan v (c :: cs) (.gap c :: pieces)

namespace Lexeme

variable {v : Vocabulary} {c : Char} {cs : List Char} {s : Split}

-- The characters that begin a lexeme under every vocabulary.
def opens (c : Char) : Bool :=
  c == '"' || c.isAlpha || c.isDigit || c == '_' ||
    ['=', '!', '~', '<', '>', '+', '-', '*', '/', '^', '(', ')', ',', '.'].contains c

theorem quoted?_ne_nil (h : quoted? cs = some s) : s.text ≠ [] := by
  unfold quoted? at h
  split at h
  · split at h <;> cases h <;> simp
  · cases h

theorem name?_ne_nil (h : name? cs = some s) : s.text ≠ [] := by
  unfold name? at h
  split at h
  · cases h
  · split at h
    · cases h
      simp
    · cases h

theorem mark?_ne_nil (h : mark? cs = some s) : s.text ≠ [] := by
  unfold mark? at h
  split at h
  · cases h
  · split at h
    · cases h
      simp
    · cases h

theorem relation?_ne_nil (h : relation? cs = some s) : s.text ≠ [] := by
  have every : ∀ r ∈ relations, r ≠ [] := by decide
  exact every _ (relation?_eq_some h).2.1

theorem keyword?_ne_nil (valid : v.WellFormed) (h : keyword? v cs = some s) : s.text ≠ [] := by
  obtain ⟨k, member, _, matched⟩ := keyword?_eq_some h
  have listed : k ∈ v.keywords := v.keywordsByWordCount_perm.mem_iff.mp member
  exact phrase?_ne_nil (valid.1 k listed) (fun w spelled => Text.words_ne_nil spelled) matched

theorem tabled?_ne_nil {kind : TokenKind} {table : List Builtin}
    (named : ∀ f ∈ table, f.name ≠ "") (h : tabled? kind table cs = some s) : s.text ≠ [] := by
  obtain ⟨f, member, _, matched⟩ := tabled?_eq_some h
  refine phrase?_ne_nil (by simp) ?_ matched
  intro w spelled
  rw [List.mem_singleton.mp spelled]
  have name := named f member
  simpa using name

theorem split?_ne_nil (valid : v.WellFormed) (h : split? v cs = some s) : s.text ≠ [] := by
  rcases split?_cases h with h | h | h | h | h | h | h | h
  · exact quoted?_ne_nil h
  · exact number?_ne_nil h
  · exact keyword?_ne_nil valid h
  · exact tabled?_ne_nil valid.2.1 h
  · exact tabled?_ne_nil valid.2.2 h
  · exact name?_ne_nil h
  · exact relation?_ne_nil h
  · exact mark?_ne_nil h

theorem quoted?_isSome (cs : List Char) : quoted? ('"' :: cs) ≠ none := by
  simp only [quoted?]
  split <;> simp

theorem number?_isSome (digit : c.isDigit = true) (cs : List Char) : number? (c :: cs) ≠ none := by
  have unsigned : splitSign (c :: cs) = ([], c :: cs) := by
    have plus : c ≠ '+' := by rintro rfl; cases digit
    have minus : c ≠ '-' := by rintro rfl; cases digit
    simp [splitSign, plus, minus]
  simp [number?, unsigned, digit]

theorem relation?_isSome (angle : c = '<' ∨ c = '>') (cs : List Char) :
    relation? (c :: cs) ≠ none := by
  intro refused
  have each := List.findSome?_eq_none_iff.mp refused [c] (by rcases angle with rfl | rfl <;> decide)
  simp [Text.strip?] at each

theorem opens_eq_false (refused : split? v (c :: cs) = none) : opens c = false := by
  simp only [split?, Option.or_eq_none_iff] at refused
  obtain ⟨⟨⟨⟨⟨⟨⟨quote, number⟩, _⟩, _⟩, _⟩, name⟩, relation⟩, mark⟩ := refused
  have notQuote : c ≠ '"' := by
    rintro rfl
    exact quoted?_isSome cs quote
  have notDigit : c.isDigit = false := by
    cases digit : c.isDigit with
    | false => rfl
    | true => exact absurd number (number?_isSome digit cs)
  have notWord : isWordStart c = false := by simpa [name?] using name
  have notAngle : ¬ (c = '<' ∨ c = '>') := fun angle => relation?_isSome angle cs relation
  have notMark : c ∉ marks := by simpa [mark?] using mark
  simp only [isWordStart, Bool.or_eq_false_iff] at notWord
  simp only [marks, List.mem_cons, List.not_mem_nil, or_false, not_or] at notMark
  simp only [not_or] at notAngle
  simp [opens, notQuote, notDigit, notWord, notAngle, notMark]

end Lexeme

namespace Scan

variable {v : Vocabulary} {cs : List Char} {pieces others : List Piece}

theorem ofText (valid : v.WellFormed) (cs : List Char) : Scan v cs (Piece.ofText v cs) := by
  fun_induction Piece.ofText v cs with
  | case1 cs s found ih =>
    have read := (Lexeme.proper?_eq_some.mp found).1
    have spelled := Lexeme.split?_append read
    have nonempty := (Lexeme.proper?_eq_some.mp found).2
    refine .lexeme ?_ read ih
    rintro rfl
    exact nonempty (List.append_eq_nil_iff.mp spelled).1
  | case2 => exact .done
  | case3 c rest refused ih =>
    refine .gap ?_ ih
    cases read : Lexeme.split? v (c :: rest) with
    | none => rfl
    | some s =>
      have proper := Lexeme.proper?_eq_some.mpr ⟨read, Lexeme.split?_ne_nil valid read⟩
      rw [refused] at proper
      cases proper

theorem unique (one : Scan v cs pieces) (two : Scan v cs others) : pieces = others := by
  induction one generalizing others with
  | done =>
    cases two with
    | done => rfl
    | lexeme more => exact absurd rfl more
  | lexeme more found _ ih =>
    cases two with
    | done => exact absurd rfl more
    | lexeme _ again later =>
      rw [found] at again
      cases again
      rw [ih later]
    | gap refused =>
      rw [found] at refused
      cases refused
  | gap refused _ ih =>
    cases two with
    | lexeme _ found =>
      rw [refused] at found
      cases found
    | gap _ later => rw [ih later]

theorem textOf (run : Scan v cs pieces) : Piece.textOf pieces = cs := by
  induction run with
  | done => rfl
  | lexeme _ found _ ih =>
    rw [Piece.textOf_cons, ih]
    exact Lexeme.split?_append found
  | gap _ _ ih => simp [ih, Piece.text]

theorem lexeme_ne_nil (valid : v.WellFormed) (run : Scan v cs pieces) {kind : TokenKind}
    {text : List Char} (member : .lexeme kind text ∈ pieces) : text ≠ [] := by
  induction run with
  | done => cases member
  | lexeme _ found _ ih =>
    rcases List.mem_cons.mp member with same | later
    · cases same
      exact Lexeme.split?_ne_nil valid found
    · exact ih later
  | gap _ _ ih =>
    rcases List.mem_cons.mp member with same | later
    · cases same
    · exact ih later

theorem gap_opens (run : Scan v cs pieces) {c : Char} (member : .gap c ∈ pieces) :
    Lexeme.opens c = false := by
  induction run with
  | done => cases member
  | lexeme _ _ _ ih =>
    rcases List.mem_cons.mp member with same | later
    · cases same
    · exact ih later
  | gap refused _ ih =>
    rcases List.mem_cons.mp member with same | later
    · cases same
      exact Lexeme.opens_eq_false refused
    · exact ih later

end Scan

-- The tokens are parts of the text, in order and apart, and what lies between them begins none.
structure Tiles (cs : List Char) (tokens : List Token) : Prop where
  nonempty : ∀ t ∈ tokens, t.start < t.stop
  ordered : tokens.Pairwise fun one two => one.start < two.start ∧ one.stop ≤ two.start
  bounded : ∀ t ∈ tokens, Text.IsBoundary t.start cs ∧ Text.IsBoundary t.stop cs ∧
    t.stop ≤ Text.byteLength cs
  spelled : ∀ t ∈ tokens, t.text.toList = Text.slice t.start t.stop cs
  skipped : ∀ left c right, cs = left ++ c :: right →
    (∀ t ∈ tokens, ¬ (t.start ≤ Text.byteLength left ∧ Text.byteLength left < t.stop)) →
    Lexeme.opens c = false

theorem Scan.drop {v : Vocabulary} {cs : List Char} {front back : List Piece}
    (run : Scan v cs (front ++ back)) : Scan v (Piece.textOf back) back := by
  induction front generalizing cs with
  | nil =>
    rw [List.nil_append] at run
    rw [run.textOf]
    exact run
  | cons p front ih =>
    cases run with
    | lexeme _ _ later => exact ih later
    | gap _ later => exact ih later

theorem Scan.found {v : Vocabulary} {cs : List Char} {front back : List Piece} {kind : TokenKind}
    {text : List Char} (run : Scan v cs (front ++ .lexeme kind text :: back)) :
    Lexeme.split? v (text ++ Piece.textOf back) = some ⟨kind, text, Piece.textOf back⟩ := by
  have here := run.drop
  rw [Piece.textOf_cons, Piece.text] at here
  generalize whole : text ++ Piece.textOf back = cs at here
  cases here with
  | lexeme _ found later =>
    rw [later.textOf]
    exact found

theorem Scan.around {v : Vocabulary} {cs : List Char} {front back : List Piece} {kind : TokenKind}
    {text : List Char} (run : Scan v cs (front ++ .lexeme kind text :: back)) :
    cs = Piece.textOf front ++ (text ++ Piece.textOf back) := by
  simpa [Piece.text] using run.textOf.symm

theorem Scan.tiles {v : Vocabulary} {cs : List Char} {pieces : List Piece} (valid : v.WellFormed)
    (run : Scan v cs pieces) : Tiles cs (Piece.place 0 pieces) := by
  have nonempty : ∀ t ∈ Piece.place 0 pieces, t.start < t.stop := by
    intro t member
    obtain ⟨front, kind, text, back, rfl, rfl⟩ := Piece.mem_place.mp member
    have member : Piece.lexeme kind text ∈ front ++ .lexeme kind text :: back := by simp
    have wide := Text.byteLength_pos (run.lexeme_ne_nil valid member)
    dsimp only
    omega
  refine ⟨nonempty, ?_, ?_, ?_, ?_⟩
  · refine (Piece.place_pairwise 0 pieces).imp_of_mem ?_
    intro one two first _ apart
    have wide := nonempty one first
    exact ⟨by omega, apart⟩
  · intro t member
    obtain ⟨front, kind, text, back, rfl, rfl⟩ := Piece.mem_place.mp member
    have placed := run.around
    refine ⟨Text.isBoundary_iff.mpr ⟨_, _, placed, by simp⟩, ?_, ?_⟩
    · refine Text.isBoundary_iff.mpr ⟨Piece.textOf front ++ text, Piece.textOf back, ?_, by simp⟩
      rw [placed, List.append_assoc]
    · rw [placed]
      simp only [Text.byteLength_append]
      omega
  · intro t member
    obtain ⟨front, kind, text, back, rfl, rfl⟩ := Piece.mem_place.mp member
    rw [run.around]
    simp [Text.slice_append]
  · intro left c right split outside
    have whole := run.textOf
    rw [split] at whole
    obtain ⟨front, p, back, inside, rest, rfl, found, rfl⟩ := Piece.textOf_eq_append whole
    cases p with
    | gap d =>
      -- The piece is the character itself.
      obtain ⟨rfl, same⟩ : inside = [] ∧ c = d := by
        cases inside with
        | nil => exact ⟨rfl, (List.cons.inj found).1.symm⟩
        | cons e inside => simp [Piece.text] at found
      subst same
      exact run.gap_opens (by simp)
    | lexeme kind text =>
      have length := congrArg Text.byteLength found
      have wide := c.utf8Size_pos
      simp only [Piece.text, Text.byteLength_append, Text.byteLength_cons] at length
      refine absurd ?_ (outside _ (Piece.mem_place.mpr ⟨front, kind, text, back, rfl, rfl⟩))
      simp only [Text.byteLength_append, Nat.zero_add]
      omega

-- Reading ends for every text, in one way, and the tokens it gives tile the text; with the
-- characters passed over between them they make it up again.
theorem tokenize_tiles (v : Vocabulary) (valid : v.WellFormed) (input : String) :
    ∃ pieces, (∀ others, Scan v input.toList others ↔ others = pieces) ∧
      Token.tokenize v input = Piece.place 0 pieces ∧
      pieces.flatMap Piece.text = input.toList ∧
      (∀ c, .gap c ∈ pieces → Lexeme.opens c = false) ∧
      Tiles input.toList (Token.tokenize v input) := by
  have run := Scan.ofText valid input.toList
  refine ⟨Piece.ofText v input.toList, ?_, rfl, run.textOf, fun c => run.gap_opens, run.tiles valid⟩
  intro others
  constructor
  · exact fun other => other.unique run
  · rintro rfl
    exact run

theorem tokenize_tiles_wide :
    Vocabulary.standard.WellFormed ∧
      Tiles "é≥ not\u2003 in \"名".toList
        (Token.tokenize Vocabulary.standard "é≥ not\u2003 in \"名") := by
  obtain ⟨_, _, _, _, _, tiles⟩ :=
    tokenize_tiles Vocabulary.standard Vocabulary.standard_wellFormed "é≥ not\u2003 in \"名"
  exact ⟨Vocabulary.standard_wellFormed, tiles⟩

end ScoreFilter

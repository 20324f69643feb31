import Mathlib.Data.List.Chain
import ScoreFilter.Proofs.Token.Reading

namespace ScoreFilter

def Token.print (tokens : List Token) : String :=
  String.intercalate " " (tokens.map Token.text)

namespace Piece

variable {pieces : List Piece} {kind : TokenKind} {text : List Char}
  {next : TokenKind × List Char} {later : List (TokenKind × List Char)}

def spaced : List (TokenKind × List Char) → List Piece
  | [] => []
  | [(kind, text)] => [.lexeme kind text]
  | (kind, text) :: rest => .lexeme kind text :: .gap ' ' :: spaced rest

theorem textOf_spaced (parts : List (TokenKind × List Char)) :
    textOf (spaced parts) = List.intercalate [' '] (parts.map Prod.snd) := by
  fun_induction spaced parts with
  | case1 => rfl
  | case2 kind text => simp [Piece.text]
  | case3 kind text rest more ih =>
    obtain ⟨next, rest, rfl⟩ := List.exists_cons_of_ne_nil more
    rw [textOf_cons, textOf_cons, ih]
    simp [Piece.text, List.intercalate_cons_cons]

theorem lexemes_spaced (parts : List (TokenKind × List Char)) : lexemes (spaced parts) = parts := by
  fun_induction spaced parts with
  | case1 => rfl
  | case2 kind text => rfl
  | case3 kind text rest more ih => rw [lexemes, lexemes, ih]

theorem told_spaced {parts : List (TokenKind × List Char)}
    (begun : ∀ part ∈ parts, (Piece.lexeme part.1 part.2).Told) : ∀ p ∈ spaced parts, p.Told := by
  fun_induction spaced parts with
  | case1 => simp
  | case2 kind text => simpa using begun
  | case3 kind text rest more ih =>
    obtain ⟨first, later⟩ := List.forall_mem_cons.mp begun
    exact List.forall_mem_cons.mpr ⟨first, List.forall_mem_cons.mpr ⟨rfl, ih later⟩⟩

theorem mem_lexemes {part : TokenKind × List Char} (member : part ∈ lexemes pieces) :
    .lexeme part.1 part.2 ∈ pieces := by
  induction pieces with
  | nil => cases member
  | cons p pieces ih =>
    cases p with
    | lexeme kind text =>
      rcases List.mem_cons.mp member with rfl | later
      · exact List.mem_cons_self ..
      · exact List.mem_cons_of_mem _ (ih later)
    | gap c => exact List.mem_cons_of_mem _ (ih member)

def Apart (one two : TokenKind × List Char) : Prop :=
  ¬ (one = (.keyword, Lexeme.notWord) ∧ two = (.keyword, Lexeme.inWord))

theorem inAhead_spaced (reading : Reading (spaced (next :: later)) []) :
    Lexeme.InAhead (textOf (spaced (next :: later))) ↔ next = (.keyword, Lexeme.inWord) := by
  obtain ⟨kind, text⟩ := next
  obtain ⟨tail, begun⟩ : ∃ tail, spaced ((kind, text) :: later) = .lexeme kind text :: tail := by
    cases later <;> exact ⟨_, rfl⟩
  have ahead := reading.leadsIn_iff fun _ => Lexeme.not_inAhead_nil
  rw [begun] at reading
  rw [List.append_nil, begun, leadsIn_lexeme reading.1] at ahead
  rw [begun, ahead, Prod.mk.injEq]
  constructor
  · intro same
    subst same
    exact ⟨(reading.1.kindOf (by decide)).1.symm, rfl⟩
  · exact fun same => same.2

theorem reads_spaced_iff {old : List Char} (reads : Lexeme.Reads kind text old)
    (closed : kind ≠ .unclosed) (reading : Reading (spaced (next :: later)) []) :
    Lexeme.Reads kind text (' ' :: textOf (spaced (next :: later))) ↔ Apart (kind, text) next := by
  have ahead := inAhead_spaced reading
  constructor
  · rintro again ⟨negation, word⟩
    cases negation
    exact again.not_inFollows (Lexeme.inFollows_cons.mpr ⟨rfl, ahead.mpr word⟩)
  · intro apart
    refine reads.before_blank (Lexeme.stops_cons.mpr rfl) (fun opened => absurd opened closed) ?_
    intro negation following
    subst negation
    have word := ahead.mp (Lexeme.inFollows_cons.mp following).2
    exact apart ⟨congrArg (·, _) (reads.kindOf (by decide)).1.symm, word⟩

-- The lexemes of a text read the same with one blank between them, unless that makes a `not in`.
theorem Reading.spaced_iff (reading : Reading pieces []) :
    Reading (spaced (lexemes pieces)) [] ↔ (lexemes pieces).IsChain Apart := by
  induction pieces with
  | nil => simp [lexemes, spaced, Reading]
  | cons p pieces ih =>
    cases p with
    | gap c => exact ih reading.2
    | lexeme kind text =>
      obtain ⟨reads, rest⟩ := reading
      rw [lexemes]
      cases more : lexemes pieces with
      | nil =>
        have last : Lexeme.Reads kind text [] := by
          refine reads.before_blank (Lexeme.stops_nil _) (fun _ => rfl) ?_
          rintro - ⟨gap, tail, _, same, _⟩
          simp at same
        exact iff_of_true ⟨last, trivial⟩ (.singleton _)
      | cons next later =>
        have closed : kind ≠ .unclosed := by
          intro opened
          subst opened
          have none := rest.eq_nil (List.append_eq_nil_iff.mp reads.swallowing.1).1
          subst none
          cases more
        have again := ih rest
        rw [more] at again
        have blank : textOf (.gap ' ' :: spaced (next :: later)) ++ [] =
            ' ' :: textOf (spaced (next :: later)) := by
          simp [Piece.text]
        rw [List.isChain_cons_cons, ← again]
        constructor
        · rintro ⟨here, _, inner⟩
          rw [blank] at here
          exact ⟨(reads_spaced_iff reads closed inner).mp here, inner⟩
        · rintro ⟨apart, inner⟩
          refine ⟨?_, rfl, inner⟩
          rw [blank]
          exact (reads_spaced_iff reads closed inner).mpr apart

theorem toList_print (offset : Nat) (pieces : List Piece) :
    (Token.print (place offset pieces)).toList = textOf (spaced (lexemes pieces)) := by
  have texts : (place offset pieces).map Token.text =
      (lexemes pieces).map fun part => String.ofList part.2 := by
    have parts := congrArg (List.map Prod.snd) (map_lexeme_place offset pieces)
    simpa [Token.lexeme, Function.comp_def] using parts
  rw [Token.print, String.toList_intercalate, textOf_spaced, texts]
  simp [Function.comp_def]

theorem isChain_place (offset : Nat) (pieces : List Piece) :
    (((place offset pieces).map Token.lexeme).IsChain fun one two =>
        ¬ (one = (.keyword, "not") ∧ two = (.keyword, "in"))) ↔
      (lexemes pieces).IsChain Apart := by
  have keyword : ∀ (part : TokenKind × List Char) (word : List Char),
      (part.1, String.ofList part.2) = (.keyword, String.ofList word) ↔ part = (.keyword, word) := by
    simp [Prod.ext_iff, String.ofList_inj]
  rw [map_lexeme_place, List.isChain_map]
  apply List.IsChain.iff
  intro one two
  exact not_congr (and_congr (keyword one Lexeme.notWord) (keyword two Lexeme.inWord))

end Piece

-- The tokens of a text, printed with one blank between them, are read again as what they are, unless
-- that puts an `in` right behind a `not` which other characters kept it from.
theorem tokenize_print (input : String) :
    (Token.tokenize .standard (Token.print (Token.tokenize .standard input))).map Token.lexeme =
        (Token.tokenize .standard input).map Token.lexeme ↔
      ((Token.tokenize .standard input).map Token.lexeme).IsChain fun one two =>
        ¬ (one = (.keyword, "not") ∧ two = (.keyword, "in")) := by
  have reading := Piece.reading_ofText input.toList
  have printed := Piece.toList_print 0 (Piece.ofText .standard input.toList)
  rw [Token.tokenize, Token.tokenize, Token.ofChars, Token.ofChars, Piece.isChain_place,
    ← reading.spaced_iff, Piece.lexemes_eq_iff, printed]
  generalize Piece.ofText .standard input.toList = pieces at reading
  constructor
  · intro same
    have again := Piece.reading_ofText (Piece.textOf (Piece.spaced (Piece.lexemes pieces)))
    have told : ∀ p ∈ Piece.spaced (Piece.lexemes pieces), p.Told :=
      Piece.told_spaced fun part member => reading.told _ (Piece.mem_lexemes member)
    rw [Piece.eq_of_told again.told told (by rw [same, Piece.lexemes_spaced]) (by simp)] at again
    exact again
  · intro spaced
    rw [Piece.ofText_eq_iff.mpr ⟨rfl, spaced⟩, Piece.lexemes_spaced]

example : Token.tokenize .standard (Token.print (Token.tokenize .standard "not@in")) =
    [⟨.keyword, "not in", 0, 6⟩] := by
  decide +kernel

end ScoreFilter

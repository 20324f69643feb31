import ScoreFilter.Cursor.Context
import ScoreFilter.Proofs.Token.Reading

namespace ScoreFilter

namespace Piece

variable {pieces later : List Piece} {after : List Char} {kind : TokenKind} {text : List Char}

theorem Reading.length_lexemes_le (reading : Reading pieces after) :
    (lexemes pieces).length ≤ (textOf pieces).length := by
  induction pieces with
  | nil => exact Nat.le_refl _
  | cons p pieces ih =>
    rw [textOf_cons, List.length_append]
    cases p with
    | lexeme kind text =>
      have bound := ih reading.2
      obtain ⟨c, cs, rfl, _⟩ := reading.1.head
      simp only [lexemes, Piece.text, List.length_cons]
      omega
    | gap c =>
      have bound := ih reading.2
      rw [lexemes]
      omega

-- With two lexemes to come, nothing behind them decides whether `in` comes next.
theorem Reading.inAhead_of_two (reading : Reading later []) (two : 2 ≤ (lexemes later).length)
    (more : List Char) :
    Lexeme.InAhead (textOf later ++ more) ↔ Lexeme.InAhead (textOf later ++ []) := by
  have few : ∀ gaps back, later = gaps ++ back → (∀ c ∈ textOf gaps, Text.isSpace c = true) →
      2 ≤ (lexemes back).length := by
    intro gaps back parts spaces
    subst parts
    obtain ⟨inner, _⟩ := reading_append.mp reading
    rw [← length_place 0, place_append, inner.place_spaces spaces, List.nil_append,
      length_place] at two
    exact two
  have lettered : ¬ ∀ c ∈ textOf later, Text.isSpace c = true := by
    intro spaces
    cases few later [] (List.append_nil later).symm spaces
  rw [reading.leadsIn_iff fun spaces => absurd spaces lettered]
  refine reading.inAhead_iff (fun spaces => absurd spaces lettered) ?_
  intro gaps kind text parts spaces
  cases Nat.le_of_succ_le_succ (few gaps _ parts spaces)

theorem Reading.reads_append (reading : Reading later []) (two : 2 ≤ (lexemes later).length)
    (reads : Lexeme.Reads kind text (textOf later ++ [])) (more : List Char) :
    Lexeme.Reads kind text (textOf later ++ more) := by
  have long := Nat.le_trans two reading.length_lexemes_le
  refine reads.shared ?_ ?_ (reading.inAhead_of_two two more).mp
  · intro none
    rw [none] at long
    cases long
  · intro point
    rw [point] at long
    cases Nat.le_of_succ_le_succ long

theorem dropLast_dropLast_cons {t : Token} {tokens : List Token} (two : 2 ≤ tokens.length) :
    (t :: tokens).dropLast.dropLast = t :: tokens.dropLast.dropLast := by
  rcases tokens with _ | ⟨u, _ | ⟨v, tokens⟩⟩
  · cases two
  · cases Nat.le_of_succ_le_succ two
  · rfl

theorem Reading.place_stable (reading : Reading pieces []) (more : List Char) (offset : Nat) :
    (place offset pieces).dropLast.dropLast <+:
      place offset (ofText .standard (textOf pieces ++ more)) := by
  induction pieces generalizing offset with
  | nil => exact List.nil_prefix
  | cons p pieces ih =>
    rw [textOf_cons, List.append_assoc]
    cases p with
    | gap c =>
      rw [Piece.text, List.singleton_append, ofText_gap reading.1]
      exact ih reading.2 _
    | lexeme kind text =>
      by_cases two : 2 ≤ (lexemes pieces).length
      · have several : 2 ≤ (place (offset + Text.byteLength text) pieces).length := by
          rw [length_place]
          exact two
        rw [Piece.text, ofText_lexeme (reading.2.reads_append two reading.1 more), place, place,
          dropLast_dropLast_cons several]
        exact (List.prefix_cons_inj _).mpr (ih reading.2 _)
      · -- These are the last two themselves.
        have none : (place offset (.lexeme kind text :: pieces)).dropLast.dropLast = [] := by
          apply List.eq_nil_of_length_eq_zero
          simp only [List.length_dropLast, length_place, lexemes, List.length_cons]
          omega
        rw [none]
        exact List.nil_prefix

end Piece

namespace Lookback

-- The tokens before the cursor, nearest first, with the one being typed.
def seen (l : Lookback) : List Token :=
  l.current.toList ++ l.earlier

theorem seen_ofTokens (tokens : List Token) (cursor : Nat) :
    (ofTokens tokens cursor).seen = tokens.reverse := by
  unfold ofTokens
  split
  · rename_i none
    rw [none]
    rfl
  · rename_i last earlier nearest
    rw [nearest]
    split <;> rfl

end Lookback

-- The tokens of a text that is cut off at the cursor are, all but the last two, the first tokens of
-- the whole text. So is what the lookback has seen further back than two tokens.
theorem tokenize_cut (input : String) (c : Nat) :
    (Token.ofChars .standard (Text.before c input.toList)).dropLast.dropLast <+:
        Token.tokenize .standard input ∧
      ((Lookback.at .standard input.toList c).seen.drop 2).reverse <+:
        Token.tokenize .standard input := by
  have cut : (Token.ofChars .standard (Text.before c input.toList)).dropLast.dropLast <+:
      Token.tokenize .standard input := by
    have found := (Piece.reading_ofText (Text.before c input.toList)).place_stable
      (Text.after c input.toList) 0
    rw [Piece.textOf_ofText, Text.before_append_after] at found
    exact found
  have back : (Lookback.at .standard input.toList c).seen.drop 2 =
      (Token.ofChars .standard (Text.before c input.toList)).dropLast.dropLast.reverse := by
    rw [Lookback.at, Lookback.seen_ofTokens, ← List.tail_reverse, ← List.tail_reverse,
      ← List.drop_one, ← List.drop_one, List.drop_drop]
  refine ⟨cut, ?_⟩
  rw [back, List.reverse_reverse]
  exact cut

-- Two tokens may be wrong: the point of a number is a token of its own until a digit follows.
example : ¬ (Token.tokenize .standard "1.").dropLast <+: Token.tokenize .standard "1.5" := by
  decide +kernel

end ScoreFilter

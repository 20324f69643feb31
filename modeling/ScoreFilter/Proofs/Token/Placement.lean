import ScoreFilter.Proofs.Text.Boundary
import ScoreFilter.Token.Piece

namespace ScoreFilter

def Token.lexeme (t : Token) : TokenKind × String :=
  (t.kind, t.text)

namespace Piece

variable {pieces others front back : List Piece} {offset : Nat} {t : Token}

def textOf (pieces : List Piece) : List Char :=
  pieces.flatMap text

@[simp]
theorem textOf_nil : textOf [] = [] := rfl

@[simp]
theorem textOf_cons (p : Piece) (pieces : List Piece) :
    textOf (p :: pieces) = p.text ++ textOf pieces := by
  simp [textOf]

@[simp]
theorem textOf_append (front back : List Piece) :
    textOf (front ++ back) = textOf front ++ textOf back := by
  simp [textOf]

@[simp]
theorem textOf_ofText (v : Vocabulary) (cs : List Char) : textOf (ofText v cs) = cs :=
  flatMap_text_ofText v cs

theorem place_append (offset : Nat) (front back : List Piece) :
    place offset (front ++ back) =
      place offset front ++ place (offset + Text.byteLength (textOf front)) back := by
  induction front generalizing offset with
  | nil => simp [place]
  | cons p front ih =>
    cases p with
    | lexeme kind text => simp [place, ih, Piece.text, Nat.add_assoc]
    | gap c => simp [place, ih, Piece.text, Nat.add_assoc]

def lexemes : List Piece → List (TokenKind × List Char)
  | [] => []
  | .lexeme kind text :: rest => (kind, text) :: lexemes rest
  | .gap _ :: rest => lexemes rest

@[simp]
theorem length_place (offset : Nat) (pieces : List Piece) :
    (place offset pieces).length = (lexemes pieces).length := by
  induction pieces generalizing offset with
  | nil => rfl
  | cons p pieces ih =>
    cases p with
    | lexeme kind text => simp [place, lexemes, ih]
    | gap c => simp [place, lexemes, ih]

theorem map_lexeme_place (offset : Nat) (pieces : List Piece) :
    (place offset pieces).map Token.lexeme =
      (lexemes pieces).map fun part => (part.1, String.ofList part.2) := by
  induction pieces generalizing offset with
  | nil => rfl
  | cons p pieces ih =>
    cases p with
    | lexeme kind text => simp [place, lexemes, Token.lexeme, ih]
    | gap c => simp [place, lexemes, ih]

theorem lexemes_eq_iff {offset offset' : Nat} :
    (place offset pieces).map Token.lexeme = (place offset' others).map Token.lexeme ↔
      lexemes pieces = lexemes others := by
  rw [map_lexeme_place, map_lexeme_place]
  apply List.map_inj_right
  intro one two same
  simpa [Prod.ext_iff, String.ofList_inj] using same

-- A token stands for one lexeme, and begins where the pieces before it end.
theorem mem_place : t ∈ place offset pieces ↔
    ∃ front kind text back, pieces = front ++ .lexeme kind text :: back ∧
      t = ⟨kind, String.ofList text, offset + Text.byteLength (textOf front),
        offset + Text.byteLength (textOf front) + Text.byteLength text⟩ := by
  constructor
  · intro member
    induction pieces generalizing offset with
    | nil => cases member
    | cons p pieces ih =>
      cases p with
      | lexeme kind text =>
        rcases List.mem_cons.mp member with same | later
        · exact ⟨[], kind, text, pieces, rfl, by simpa using same⟩
        · obtain ⟨front, kind', text', back, rfl, same⟩ := ih later
          refine ⟨.lexeme kind text :: front, kind', text', back, rfl, ?_⟩
          simpa [Piece.text, Nat.add_assoc] using same
      | gap c =>
        obtain ⟨front, kind', text', back, rfl, same⟩ := ih member
        refine ⟨.gap c :: front, kind', text', back, rfl, ?_⟩
        simpa [Piece.text, Nat.add_assoc] using same
  · rintro ⟨front, kind, text, back, rfl, rfl⟩
    rw [place_append]
    exact List.mem_append_right _ (List.mem_cons_self ..)

theorem after_stop (front back : List Piece) (kind : TokenKind) (text : List Char) :
    Text.after (Text.byteLength (textOf front) + Text.byteLength text)
      (textOf (front ++ .lexeme kind text :: back)) = textOf back := by
  have cut := Text.after_append (textOf front ++ text) (textOf back)
  simpa [Piece.text] using cut

theorem place_start_le (member : t ∈ place offset pieces) : offset ≤ t.start := by
  obtain ⟨front, kind, text, back, _, rfl⟩ := mem_place.mp member
  exact Nat.le_add_right _ _

theorem place_stop_le (member : t ∈ place offset pieces) :
    t.stop ≤ offset + Text.byteLength (textOf pieces) := by
  obtain ⟨front, kind, text, back, rfl, rfl⟩ := mem_place.mp member
  simp only [textOf_append, textOf_cons, Piece.text, Text.byteLength_append]
  omega

theorem place_pairwise (offset : Nat) (pieces : List Piece) :
    (place offset pieces).Pairwise fun one two => one.stop ≤ two.start := by
  induction pieces generalizing offset with
  | nil => exact .nil
  | cons p pieces ih =>
    cases p with
    | lexeme kind text =>
      refine List.pairwise_cons.mpr ⟨?_, ih _⟩
      intro two later
      exact place_start_le later
    | gap c => exact ih _

theorem textOf_eq_append {left right : List Char} {c : Char}
    (same : textOf pieces = left ++ c :: right) :
    ∃ front p back inside rest, pieces = front ++ p :: back ∧
      p.text = inside ++ c :: rest ∧ left = textOf front ++ inside := by
  induction pieces generalizing left with
  | nil => simp at same
  | cons p pieces ih =>
    rw [textOf_cons] at same
    rcases List.append_eq_append_iff.mp same with ⟨more, rfl, later⟩ | ⟨more, here, later⟩
    · obtain ⟨front, q, back, inside, rest, rfl, found, rfl⟩ := ih later
      exact ⟨p :: front, q, back, inside, rest, rfl, found, by simp⟩
    · cases more with
      | nil =>
        have begins : textOf pieces = [] ++ c :: right := later.symm
        obtain ⟨front, q, back, inside, rest, rfl, found, empty⟩ := ih begins
        refine ⟨p :: front, q, back, inside, rest, rfl, found, ?_⟩
        rw [textOf_cons, List.append_assoc, ← empty, List.append_nil, here, List.append_nil]
      | cons d more =>
        obtain ⟨rfl, rfl⟩ := List.cons.inj later
        exact ⟨[], p, pieces, left, more, rfl, here, rfl⟩

end Piece

end ScoreFilter

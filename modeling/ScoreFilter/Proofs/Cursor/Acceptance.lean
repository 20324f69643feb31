import ScoreFilter.Proofs.Cursor.DottedName

namespace ScoreFilter

variable {v : Vocabulary} {catalog : Catalog} {cs : List Char} {settled typed : List Piece}
  {input : String} {cursor : Nat} {f : Field} {parts : List (List Char)}

-- The token before the one being typed does not run into a new word, unless it is a word.
theorem Divides.loose (divides : Divides .standard cs settled typed)
    (apart : ∀ t ∈ Token.ofChars .standard cs,
      t.stop = Text.byteLength (Piece.textOf settled) → t.kind.isWord = false)
    (front : List Piece) (kind : TokenKind) (text : List Char)
    (last : settled = front ++ [.lexeme kind text]) :
    kind.isWord = false ∧ kind ≠ .unclosed := by
  subst last
  constructor
  · refine apart ⟨kind, String.ofList text, Text.byteLength (Piece.textOf front),
      Text.byteLength (Piece.textOf front) + Text.byteLength text⟩ ?_ (by simp [Piece.text])
    rw [Token.ofChars, divides.whole, List.append_assoc]
    exact Piece.mem_place.mpr ⟨front, kind, text, typed, rfl, by simp⟩
  · intro same
    subst same
    exact divides.closed text (by simp)

def memberField : Field :=
  ⟨"safety.score", some "judge.safety", .numeric, none, none⟩

def memberCatalog : Catalog :=
  ⟨[memberField], by decide, by decide⟩

end ScoreFilter

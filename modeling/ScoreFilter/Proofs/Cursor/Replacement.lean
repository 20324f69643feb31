import Mathlib.Order.Bounds.Basic
import ScoreFilter.Proofs.Cursor.Standing

namespace ScoreFilter

variable {v : Vocabulary} {catalog : Catalog} {explicit : Bool} {input : String} {cursor c : Nat}
  {cs : List Char} {settled typed : List Piece} {t : Token} {offer : Offer}

def Text.boundaries (cs : List Char) : Set Nat :=
  {n | ∃ left right, cs = left ++ right ∧ n = byteLength left}

theorem Text.isGreatest_clamp (n : Nat) (cs : List Char) :
    IsGreatest {m ∈ boundaries cs | m ≤ min n (byteLength cs)} (clamp n cs) := by
  constructor
  · exact ⟨⟨_, _, (before_append_after n cs).symm, rfl⟩,
      Nat.le_min.mpr ⟨clamp_le n cs, clamp_le_byteLength n cs⟩⟩
  · rintro m ⟨divided, bound⟩
    have boundary : clamp m cs = m := isBoundary_iff.mpr divided
    rw [← boundary]
    exact clamp_mono (Nat.le_trans bound (Nat.min_le_left ..)) cs

-- The last token of a text, when it reaches to the end and no new word begins right behind it.
def Token.IsOpen (v : Vocabulary) (cs : List Char) (t : Token) : Prop :=
  (Token.ofChars v cs).getLast? = some t ∧ t.stop = Text.byteLength cs ∧ t.text ≠ "(" ∧
    t.text ≠ "."

namespace Lookback

theorem current_atEnd : (atEnd v cs).current = some t ↔ Token.IsOpen v cs t :=
  current_ofTokens

end Lookback

theorem Divides.open_iff (divides : Divides v cs settled typed) :
    Token.IsOpen v cs t ↔ ∃ kind text, typed = [.lexeme kind text] ∧
      t = ⟨kind, String.ofList text, Text.byteLength (Piece.textOf settled),
        Text.byteLength (Piece.textOf settled) + Text.byteLength text⟩ := by
  rw [← Lookback.current_atEnd]
  cases divides with
  | idle whole ended =>
    rw [Lookback.atEnd_idle (.idle whole ended)]
    simp
  | @typing kind text whole more =>
    rw [Lookback.atEnd_typing (.typing whole more)]
    constructor
    · intro same
      exact ⟨kind, text, rfl, (Option.some.inj same).symm⟩
    · rintro ⟨_, _, same, rfl⟩
      cases same
      rfl

theorem Divides.typed_ne_nil (valid : v.WellFormed) (divides : Divides v cs settled typed)
    {kind : TokenKind} {text : List Char} (typing : typed = [.lexeme kind text]) : text ≠ [] := by
  have run := Scan.ofText valid cs
  rw [divides.whole, typing] at run
  have member : Piece.lexeme kind text ∈ settled ++ [.lexeme kind text] := by simp
  exact run.lexeme_ne_nil valid member

-- An offer is for the token that the cursor is at the end of, or for no text at all, and all that
-- stands before it and behind the cursor is kept.
theorem complete_replaces (v : Vocabulary) (valid : v.WellFormed) (catalog : Catalog)
    (explicit : Bool) (input : String) (cursor c : Nat) (offer : Offer)
    (nearest : IsGreatest {n ∈ Text.boundaries input.toList |
      n ≤ min cursor (Text.byteLength input.toList)} c)
    (found : complete v catalog explicit input cursor = some offer) :
    ∃ front typed back, input.toList = front ++ typed ++ back ∧
      offer.start = Text.byteLength front ∧ c = Text.byteLength (front ++ typed) ∧
      (typed ≠ [] ↔ ∃ t, Token.IsOpen v (front ++ typed) t) ∧
      (∀ t, Token.IsOpen v (front ++ typed) t → typed = t.text.toList) ∧
      ∀ s : Suggestion, (s.applyTo input offer.start cursor).text.toList =
        front ++ s.insert.toList ++ back := by
  have clamped := nearest.unique (Text.isGreatest_clamp cursor input.toList)
  obtain ⟨settled, typed, divides⟩ := exists_divides v (Text.before cursor input.toList)
  rw [complete_behind explicit rfl divides] at found
  have start := offerBehind_start found
  have spelled := divides.text
  refine ⟨Piece.textOf settled, Piece.textOf typed, Text.after cursor input.toList,
    divides.input rfl, start, ?_, ?_, ?_, ?_⟩
  · rw [clamped, Text.clamp, ← spelled]
  · rw [← spelled]
    constructor
    · intro typing
      cases divides with
      | idle => exact absurd rfl typing
      | typing pieces more => exact ⟨_, (Divides.typing pieces more).open_iff.mpr ⟨_, _, rfl, rfl⟩⟩
    · rintro ⟨t, ended⟩
      obtain ⟨kind, text, same, _⟩ := divides.open_iff.mp ended
      have nonempty := divides.typed_ne_nil valid same
      simpa [same, Piece.text] using nonempty
  · rw [← spelled]
    intro t ended
    obtain ⟨kind, text, same, rfl⟩ := divides.open_iff.mp ended
    simp [same, Piece.text]
  · intro s
    simp [Suggestion.applyTo, start, divides.before_start rfl]

theorem complete_replaces_inside_character :
    IsGreatest {n ∈ Text.boundaries "x > ac名)".toList |
      n ≤ min 7 (Text.byteLength "x > ac名)".toList)} 6 ∧
      ∃ offer, complete .standard .empty true "x > ac名)" 7 = some offer ∧
        ∃ front typed back, "x > ac名)".toList = front ++ typed ++ back ∧
          offer.start = Text.byteLength front ∧ 6 = Text.byteLength (front ++ typed) ∧
          (typed ≠ [] ↔ ∃ t, Token.IsOpen .standard (front ++ typed) t) ∧
          (∀ t, Token.IsOpen .standard (front ++ typed) t → typed = t.text.toList) ∧
          ∀ s : Suggestion, (s.applyTo "x > ac名)" offer.start 7).text.toList =
            front ++ s.insert.toList ++ back := by
  have nearest : IsGreatest {n ∈ Text.boundaries "x > ac名)".toList |
      n ≤ min 7 (Text.byteLength "x > ac名)".toList)} 6 :=
    Text.isGreatest_clamp 7 "x > ac名)".toList
  have some_offer : (complete .standard .empty true "x > ac名)" 7).isSome = true := by
    decide +kernel
  obtain ⟨offer, found⟩ := Option.isSome_iff_exists.mp some_offer
  exact ⟨nearest, offer, found, complete_replaces .standard Vocabulary.standard_wellFormed .empty
    true "x > ac名)" 7 6 offer nearest found⟩

end ScoreFilter

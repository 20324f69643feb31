import ScoreFilter.Proofs.Cursor.Cascade
import ScoreFilter.Proofs.Cursor.Standing

namespace ScoreFilter

variable {v : Vocabulary} {catalog : Catalog} {cs old new : List Char} {input : String}
  {cursor : Nat} {settled typed middle front gaps : List Piece} {kind : TokenKind}
  {text : List Char} {t : Token} {earlier : List Token}

theorem Suggestion.applyTo_behind (s : Suggestion) (plain : s.call = false)
    (before : Text.before cursor input.toList = cs) (divides : Divides v cs settled typed) :
    s.applyTo input (Text.byteLength (Piece.textOf settled)) cursor =
      ⟨String.ofList (Piece.textOf settled ++ s.insert.toList ++ Text.after cursor input.toList),
        Text.byteLength (Piece.textOf settled ++ s.insert.toList)⟩ := by
  simp [applyTo, divides.before_start before, plain]

theorem Divides.reading (divides : Divides .standard cs settled typed) :
    Piece.Reading settled (Piece.textOf typed) := by
  have reading := (Piece.ofText_eq_iff.mp divides.whole).2
  simpa using (Piece.reading_append.mp reading).1

-- An open quote goes on to the end of the text, so it is never settled.
theorem Divides.closed (divides : Divides .standard cs settled typed) (text : List Char) :
    .lexeme .unclosed text ∉ settled := by
  intro member
  obtain ⟨front, back, rfl⟩ := List.append_of_mem member
  obtain ⟨_, reads, later⟩ := Piece.reading_append.mp divides.reading
  obtain ⟨nothing, _⟩ := reads.swallowing
  obtain ⟨empty, none⟩ := List.append_eq_nil_iff.mp nothing
  have last := later.eq_nil empty
  subst last
  cases divides with
  | idle whole ended => cases reads.opening (ended front .unclosed text rfl)
  | typing whole more =>
    have reading := (Piece.ofText_eq_iff.mp whole).2
    obtain ⟨_, typing, _⟩ := Piece.reading_append.mp reading
    obtain ⟨c, cs, rfl, _⟩ := typing.head
    cases none

namespace Piece

theorem nearest_eq (blank : ∀ offset, place offset gaps = [])
    (nearest : (place 0 (front ++ .lexeme kind text :: gaps)).reverse = t :: earlier) :
    t.kind = kind ∧ t.text = String.ofList text := by
  rw [place_append, place, blank, List.reverse_append, List.reverse_singleton] at nearest
  obtain ⟨rfl, _⟩ := List.cons.inj nearest
  exact ⟨rfl, rfl⟩

-- Whether another text can come behind the pieces is for the nearest token to say.
theorem Reading.behind (reading : Reading settled old)
    (nearest : (place 0 settled).reverse = t :: earlier)
    (next : ∀ rest, Lexeme.Reads t.kind t.text.toList rest →
      Lexeme.Reads t.kind t.text.toList new)
    (point : t.kind = .mark → Lexeme.Stops Char.isDigit new)
    (apart : t.kind = .keyword → ¬ Lexeme.InAhead new) : Reading settled new := by
  apply reading.before_text
  · intro front kind text last reads
    subst last
    obtain ⟨rfl, spelled⟩ := nearest_eq (fun _ => rfl) nearest
    rw [spelled, String.toList_ofList] at next
    exact next _ reads
  · intro front tail parts dot
    subst parts
    obtain ⟨_, rest⟩ := reading_append.mp reading
    cases tail with
    | nil => cases dot
    | cons p tail =>
      cases p with
      | gap c =>
        obtain ⟨rfl, _⟩ := List.cons.inj dot
        cases rest.1
      | lexeme kind text =>
        obtain ⟨c, cs, rfl, _⟩ := rest.1.head
        obtain ⟨rfl, nothing⟩ := List.cons.inj dot
        obtain ⟨rfl, empty⟩ := List.append_eq_nil_iff.mp nothing
        have last := rest.2.eq_nil empty
        subst last
        obtain ⟨same, _⟩ := nearest_eq (fun _ => rfl) nearest
        exact point (same.trans (rest.1.opening (.inr rfl)))
  · intro front gaps parts spaces
    subst parts
    obtain ⟨_, _, rest⟩ := reading_append.mp reading
    exact apart (nearest_eq (rest.place_spaces spaces) nearest).1

end Piece

theorem Divides.nearest_closed (divides : Divides .standard cs settled typed)
    (nearest : (Piece.place 0 settled).reverse = t :: earlier) : t.kind ≠ .unclosed := by
  have member : t ∈ Piece.place 0 settled := by
    rw [← List.mem_reverse, nearest]
    exact List.mem_cons_self ..
  obtain ⟨front, kind, text, back, rfl, rfl⟩ := Piece.mem_place.mp member
  intro same
  dsimp only at same
  subst same
  exact divides.closed text (by simp)

theorem Divides.insert (before : Piece.Reading settled (Piece.textOf middle ++ [' ']))
    (inner : Piece.Reading middle [' ']) :
    Divides .standard (Piece.textOf settled ++ (Piece.textOf middle ++ [' ']))
      (settled ++ (middle ++ [.gap ' '])) [] := by
  refine .idle (Piece.ofText_eq_iff.mpr ⟨by simp [Piece.text], ?_⟩) ?_
  · refine Piece.reading_append.mpr ⟨?_, Piece.reading_append.mpr ⟨?_, by decide, trivial⟩⟩
    · simpa [Piece.text] using before
    · simpa [Piece.text] using inner
  · intro front kind text last
    rw [← List.append_assoc] at last
    cases (List.append_inj' last rfl).2

-- The words that join conditions are keywords, and neither part of `not in`.
theorem Completion.connector_class {name : String} (listed : name ∈ connectors) :
    Lexeme.isWord name.toList = true ∧ Vocabulary.standard.kindOf name.toList = .keyword ∧
      name.toList ≠ Lexeme.notWord ∧ name.toList ≠ Lexeme.inWord ∧ name ∈ Context.connectors := by
  have every : ∀ name ∈ connectors, Lexeme.isWord name.toList = true ∧
      Vocabulary.standard.kindOf name.toList = .keyword ∧ name.toList ≠ Lexeme.notWord ∧
      name.toList ≠ Lexeme.inWord ∧ name ∈ Context.connectors := by decide +kernel
  exact every name listed

theorem Completion.reads_connector {name : String} (listed : name ∈ connectors)
    (ended : Lexeme.Stops Lexeme.isWordChar new) : Lexeme.Reads .keyword name.toList new := by
  obtain ⟨word, keyword, other, _⟩ := connector_class listed
  exact .word keyword word ended fun same => absurd same other

def Edit.context (v : Vocabulary) (catalog : Catalog) (e : Edit) : Context :=
  .at v catalog e.text e.cursor

def Edit.offer? (v : Vocabulary) (catalog : Catalog) (explicit : Bool) (e : Edit) : Option Offer :=
  complete v catalog explicit e.text e.cursor

structure Edit.Behind (catalog : Catalog) (settled : List Piece) (e : Edit) : Prop where
  context : e.context .standard catalog = .behind catalog settled
  cursor : e.cursor = Text.byteLength (Piece.textOf settled)
  offer? : ∀ explicit, e.offer? .standard catalog explicit =
    offerBehind .standard catalog explicit settled

theorem Suggestion.applyTo_spaced {s : Suggestion} (catalog : Catalog) (plain : s.call = false)
    (insert : s.insert.toList = Piece.textOf middle ++ [' '])
    (divides : Divides .standard (Text.before cursor input.toList) settled typed)
    (before : Piece.Reading settled (Piece.textOf middle ++ [' ']))
    (inner : Piece.Reading middle [' ']) :
    (s.applyTo input (Text.byteLength (Piece.textOf settled)) cursor).Behind catalog
      (settled ++ (middle ++ [.gap ' '])) := by
  have accepted := Divides.insert before inner
  have spelled := accepted.text
  have cut := Text.before_append (Piece.textOf settled ++ (Piece.textOf middle ++ [' ']))
    (Text.after cursor input.toList)
  rw [← String.toList_ofList (l := _ ++ Text.after cursor input.toList)] at cut
  rw [s.applyTo_behind plain rfl divides, insert]
  constructor
  case context => exact context_behind cut accepted
  case cursor => rw [spelled, Piece.textOf_nil, List.append_nil]
  case offer? =>
    intro explicit
    exact complete_behind explicit cut accepted

theorem Suggestion.applyTo_lexeme {s : Suggestion} (catalog : Catalog) (plain : s.call = false)
    (insert : s.insert.toList = text ++ [' '])
    (divides : Divides .standard (Text.before cursor input.toList) settled typed)
    (before : Piece.Reading settled (text ++ [' '])) (reads : Lexeme.Reads kind text [' ']) :
    (s.applyTo input (Text.byteLength (Piece.textOf settled)) cursor).Behind catalog
      (settled ++ ([.lexeme kind text] ++ [.gap ' '])) := by
  have spelled : Piece.textOf [.lexeme kind text] = text := by simp [Piece.text]
  rw [← spelled] at insert before
  exact applyTo_spaced catalog plain insert divides before ⟨reads, trivial⟩

namespace Context

theorem behind_tells (catalog : Catalog) (settled : List Piece) :
    (behind catalog settled).Tells catalog (Piece.place 0 settled).reverse :=
  ofLookback_tells catalog _

theorem behind_lexeme (catalog : Catalog) (settled : List Piece)
    (reads : Lexeme.Reads kind text new) (marked : kind ≠ .mark) (named : kind ≠ .name) :
    ∃ t : Token, t.kind = kind ∧ t.text = String.ofList text ∧
      behind catalog (settled ++ ([.lexeme kind text] ++ [.gap ' '])) =
        afterOther ⟨none, t :: (Piece.place 0 settled).reverse⟩ catalog t := by
  have other : ∀ c ∈ ['.', '(', ')'], String.ofList text ≠ String.singleton c := by
    intro c listed same
    have spelled : text = [c] := by simpa using congrArg String.toList same
    subst spelled
    have alone : c ∈ Lexeme.marks ∧ c ∉ Lexeme.pairing ∧ c ∉ Lexeme.signs := by
      simp only [List.mem_cons, List.not_mem_nil, or_false] at listed
      rcases listed with rfl | rfl | rfl <;> decide
    exact marked (reads.kind_alone alone.1 alone.2.1 alone.2.2)
  obtain ⟨t, rfl, spelled, tokens⟩ : ∃ t : Token, t.kind = kind ∧ t.text = String.ofList text ∧
      (Piece.place 0 (settled ++ ([.lexeme kind text] ++ [.gap ' ']))).reverse =
        t :: (Piece.place 0 settled).reverse := by
    refine ⟨⟨kind, String.ofList text, Text.byteLength (Piece.textOf settled),
      Text.byteLength (Piece.textOf settled) + Text.byteLength text⟩, rfl, rfl, ?_⟩
    simp [Piece.place_append, Piece.place]
  rw [← spelled] at other
  refine ⟨t, rfl, spelled, ?_⟩
  rw [behind, tokens]
  exact ofLookback_other (other '.' (by simp)) (other '(' (by simp)) (other ')' (by simp)) named

end Context

end ScoreFilter

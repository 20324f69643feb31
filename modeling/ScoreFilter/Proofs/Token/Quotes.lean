import ScoreFilter.Proofs.Cursor.Insertion
import ScoreFilter.Proofs.Token.Joining

namespace ScoreFilter

namespace Piece

variable {pieces front back : List Piece} {after text : List Char} {offset : Nat} {t : Token}

theorem Reading.unclosed_last (reading : Reading (front ++ .lexeme .unclosed text :: back) after) :
    back = [] ∧ after = [] := by
  obtain ⟨_, reads, later⟩ := reading_append.mp reading
  obtain ⟨nothing, _⟩ := reads.swallowing
  obtain ⟨empty, ended⟩ := List.append_eq_nil_iff.mp nothing
  exact ⟨later.eq_nil empty, ended⟩

theorem Reading.count_head {p : Piece} (reading : Reading (p :: pieces) after) (offset : Nat) :
    p.text.count '"' = 2 * ((place offset [p]).map (·.kind)).count .quoted +
      ((place offset [p]).map (·.kind)).count .unclosed := by
  cases p with
  | gap c =>
    have other : c ≠ '"' := by
      intro same
      subst same
      cases reading.1
    simp [Piece.text, place, other]
  | lexeme kind text =>
    have spelled : text.count '"' = kind.quotes := reading.1.count_quote
    rw [Piece.text, spelled]
    cases kind <;> rfl

theorem Reading.count_quotes (reading : Reading pieces after) (offset : Nat) :
    (textOf pieces).count '"' = 2 * ((place offset pieces).map (·.kind)).count .quoted +
      ((place offset pieces).map (·.kind)).count .unclosed := by
  induction pieces generalizing offset with
  | nil => rfl
  | cons p pieces ih =>
    have parts : Reading ([p] ++ pieces) after := reading
    have later := ih (reading_append.mp parts).2 (offset + Text.byteLength (textOf [p]))
    have split := place_append offset [p] pieces
    rw [List.singleton_append] at split
    rw [textOf_cons, List.count_append, reading.count_head offset, later, split, List.map_append,
      List.count_append, List.count_append]
    omega

theorem Reading.place_unclosed (reading : Reading pieces after)
    (member : t ∈ place offset pieces) (unclosed : t.kind = .unclosed) :
    ∃ earlier, place offset pieces = earlier ++ [t] ∧
      t.stop = offset + Text.byteLength (textOf pieces) ∧
      ∀ u ∈ earlier, u.kind ≠ .unclosed := by
  obtain ⟨front, kind, text, back, rfl, rfl⟩ := mem_place.mp member
  dsimp only at unclosed
  subst unclosed
  obtain ⟨rfl, _⟩ := reading.unclosed_last
  refine ⟨place offset front, by simp [place_append, place], ?_, ?_⟩
  · simp [Piece.text, Nat.add_assoc]
  · intro u earlier open_
    obtain ⟨before, kind, opened, between, rfl, rfl⟩ := mem_place.mp earlier
    dsimp only at open_
    subst open_
    rw [List.append_assoc] at reading
    have nothing := reading.unclosed_last.1
    exact List.cons_ne_nil _ _ (List.append_eq_nil_iff.mp nothing).2

theorem Reading.count_unclosed_le (reading : Reading pieces after) (offset : Nat) :
    ((place offset pieces).map (·.kind)).count .unclosed ≤ 1 := by
  by_cases some_open : ∃ t ∈ place offset pieces, t.kind = .unclosed
  · obtain ⟨t, member, unclosed⟩ := some_open
    obtain ⟨earlier, whole, _, others⟩ := reading.place_unclosed member unclosed
    have none : (earlier.map (·.kind)).count .unclosed = 0 := by
      rw [List.count_eq_zero]
      simpa using others
    have one : [t.kind].count .unclosed ≤ 1 := List.count_le_length
    rw [whole, List.map_append, List.count_append, none, Nat.zero_add]
    exact one
  · rw [List.count_eq_zero.mpr (by simpa using some_open)]
    exact Nat.zero_le 1

theorem Reading.kind_of_quote (reading : Reading pieces after) (member : t ∈ place offset pieces)
    (inside : '"' ∈ t.text.toList) : t.kind = .quoted ∨ t.kind = .unclosed := by
  obtain ⟨front, kind, text, back, rfl, rfl⟩ := mem_place.mp member
  obtain ⟨_, reads, _⟩ := reading_append.mp reading
  have some_quote := List.count_pos_iff.mpr inside
  rw [String.toList_ofList, reads.count_quote] at some_quote
  cases kind with
  | quoted => exact .inl rfl
  | unclosed => exact .inr rfl
  | _ => cases some_quote

end Piece

-- The tokens behind the one being typed are settled, so none of them is a quote left open.
theorem Lookback.token_closed {cs : List Char} {cursor k : Nat} {t : Token}
    (found : (Lookback.at .standard cs cursor).token? (k + 1) = some t) : t.kind ≠ .unclosed := by
  obtain ⟨settled, typed, divides⟩ := exists_divides .standard (Text.before cursor cs)
  obtain ⟨front, kind, text, back, rfl, rfl⟩ := Piece.mem_place.mp (token?_settled divides found)
  intro same
  dsimp only at same
  subst same
  exact divides.closed text (by simp)

-- Quotes pair up from the left: every two of them make a string, and one left over opens a string
-- that runs to the end of the text. No other token holds a quote.
theorem tokenize_quotes (input : String) :
    let quotes := input.toList.count '"'
    let tokens := Token.tokenize .standard input
    (tokens.map (·.kind)).count .quoted = quotes / 2 ∧
      ((∃ t ∈ tokens, t.kind = .unclosed) ↔ quotes % 2 = 1) ∧
      (∀ t ∈ tokens, t.kind = .unclosed → ∃ earlier, tokens = earlier ++ [t] ∧
        t.stop = Text.byteLength input.toList ∧ ∀ u ∈ earlier, u.kind ≠ .unclosed) ∧
      (∀ t ∈ tokens, '"' ∈ t.text.toList → t.kind = .quoted ∨ t.kind = .unclosed) ∧
      ∀ cursor k t, 1 ≤ k → (Lookback.at .standard input.toList cursor).token? k = some t →
        t.kind ≠ .unclosed := by
  intro quotes tokens
  have reading := Piece.reading_ofText input.toList
  have last : ∀ t ∈ tokens, t.kind = .unclosed → ∃ earlier, tokens = earlier ++ [t] ∧
      t.stop = Text.byteLength input.toList ∧ ∀ u ∈ earlier, u.kind ≠ .unclosed := by
    intro t member unclosed
    obtain ⟨earlier, whole, stop, others⟩ := reading.place_unclosed member unclosed
    rw [Piece.textOf_ofText, Nat.zero_add] at stop
    exact ⟨earlier, whole, stop, others⟩
  have counted : quotes = 2 * (tokens.map (·.kind)).count .quoted +
      (tokens.map (·.kind)).count .unclosed := by
    have spelled := reading.count_quotes 0
    rw [Piece.textOf_ofText] at spelled
    exact spelled
  have one : (tokens.map (·.kind)).count .unclosed ≤ 1 := reading.count_unclosed_le 0
  refine ⟨by omega, ?_, last, fun t => reading.kind_of_quote, ?_⟩
  · have present : (∃ t ∈ tokens, t.kind = .unclosed) ↔
        0 < (tokens.map (·.kind)).count .unclosed := by
      rw [List.count_pos_iff, List.mem_map]
    rw [present]
    omega
  · intro cursor k t behind found
    obtain ⟨k, rfl⟩ := Nat.exists_eq_succ_of_ne_zero (Nat.ne_of_gt behind)
    exact Lookback.token_closed found

theorem tokenize_quotes_odd :
    let tokens := Token.tokenize .standard "\"a\nb\"\"名\" \"x + 1"
    (tokens.map (·.kind)).count .quoted = 2 ∧
      (∃ t ∈ tokens, t.kind = .unclosed ∧ t.stop = 17 ∧ tokens.getLast? = some t) ∧
      ∃ t, (Lookback.at .standard "\"a\nb\"\"名\" \"x + 1".toList 11).token? 1 = some t ∧
        t.kind ≠ .unclosed := by
  intro tokens
  obtain ⟨closed, opened, last, _, behind⟩ := tokenize_quotes "\"a\nb\"\"名\" \"x + 1"
  obtain ⟨t, member, unclosed⟩ := opened.mpr (by decide +kernel)
  obtain ⟨earlier, whole, stop, _⟩ := last t member unclosed
  refine ⟨closed, ⟨t, member, unclosed, stop, ?_⟩, ⟨.quoted, "\"名\"", 5, 10⟩, ?_, ?_⟩
  · rw [show tokens = earlier ++ [t] from whole, List.getLast?_concat]
  · decide +kernel
  · exact behind 11 1 ⟨.quoted, "\"名\"", 5, 10⟩ (Nat.le_refl 1) (by decide +kernel)

end ScoreFilter

import ScoreFilter.Proofs.Cursor.Insertion

namespace ScoreFilter

def Vocabulary.reserved (v : Vocabulary) : List (List Char) :=
  v.keywords.flatMap Keyword.words ++ v.mathFunctions.map (·.name.toList) ++
    v.sampleFunctions.map (·.name.toList)

def Lexeme.IsFree (v : Vocabulary) (w : List Char) : Prop :=
  isWord w = true ∧ w ∉ v.reserved

-- A name made of such words with points between them.
def Vocabulary.IsDottedName (v : Vocabulary) (name : String) : Prop :=
  ∃ parts, parts ≠ [] ∧ name.toList = List.intercalate ['.'] parts ∧
    ∀ w ∈ parts, Lexeme.IsFree v w

namespace Lexeme

variable {v : Vocabulary} {w : List Char}

theorem IsFree.kindOf (free : IsFree v w) : v.kindOf w = .name := by
  have outside := free.2
  simp only [Vocabulary.reserved, List.mem_append, List.mem_flatMap, List.mem_map, not_or,
    not_exists, not_and] at outside
  obtain ⟨⟨plain, math⟩, sample⟩ := outside
  refine kindOf_name_iff.mpr ⟨?_, math, sample⟩
  intro k member words
  exact plain k member (by simp [words])

theorem notWord_reserved : notWord ∈ Vocabulary.standard.reserved := by decide +kernel

theorem inWord_reserved : inWord ∈ Vocabulary.standard.reserved := by decide +kernel

theorem IsFree.ne_reserved {word : List Char} (free : IsFree v w) (listed : word ∈ v.reserved) :
    w ≠ word := by
  intro same
  subst same
  exact free.2 listed

end Lexeme

namespace Piece

variable {parts : List (List Char)} {after : List Char}

def chain : List (List Char) → List Piece
  | [] => []
  | [w] => [.lexeme .name w]
  | w :: ws => .lexeme .name w :: .lexeme .mark ['.'] :: chain ws

theorem textOf_chain (parts : List (List Char)) :
    textOf (chain parts) = List.intercalate ['.'] parts := by
  fun_induction chain parts with
  | case1 => rfl
  | case2 w => simp [Piece.text]
  | case3 w ws more ih =>
    obtain ⟨w', ws, rfl⟩ := List.exists_cons_of_ne_nil more
    rw [List.intercalate_cons_cons, ← ih]
    simp [Piece.text]

theorem chain_begins (some_part : parts ≠ []) (ended : Lexeme.Stops Lexeme.isWordChar after) :
    ∃ w ∈ parts, ∃ rest, textOf (chain parts) ++ after = w ++ rest ∧
      Lexeme.Stops Lexeme.isWordChar rest := by
  obtain ⟨w, ws, rfl⟩ := List.exists_cons_of_ne_nil some_part
  refine ⟨w, List.mem_cons_self .., ?_⟩
  cases ws with
  | nil => exact ⟨after, by simp [chain, Piece.text], ended⟩
  | cons w' ws =>
    refine ⟨'.' :: (textOf (chain (w' :: ws)) ++ after), ?_, Lexeme.stops_cons.mpr (by decide)⟩
    simp [chain, Piece.text]

theorem blank_not_mem_chain (words : ∀ w ∈ parts, Lexeme.isWord w = true) :
    ' ' ∉ textOf (chain parts) := by
  have absent : ∀ w ∈ parts, ' ' ∉ w := by
    intro w member blank
    cases Lexeme.isWord_all (words w member) ' ' blank
  fun_induction chain parts with
  | case1 => simp
  | case2 w => simpa [Piece.text] using absent w (List.mem_cons_self ..)
  | case3 w ws more ih =>
    have inner : ∀ u ∈ ws, u ∈ w :: ws := fun u member => List.mem_cons_of_mem w member
    have later := ih (fun u member => words u (inner u member))
      fun u member => absent u (inner u member)
    simpa [Piece.text] using ⟨absent w (List.mem_cons_self ..), later⟩

theorem reading_chain (free : ∀ w ∈ parts, Lexeme.IsFree .standard w)
    (ended : Lexeme.Stops Lexeme.isWordChar after) : Reading (chain parts) after := by
  have reads : ∀ w ∈ parts, ∀ rest, Lexeme.Stops Lexeme.isWordChar rest →
      Lexeme.Reads .name w rest := by
    intro w member rest stop
    refine .word (free w member).kindOf (free w member).1 stop ?_
    intro negation
    exact absurd negation ((free w member).ne_reserved Lexeme.notWord_reserved)
  fun_induction chain parts with
  | case1 => trivial
  | case2 w => exact ⟨reads w (List.mem_cons_self ..) _ ended, trivial⟩
  | case3 w ws more ih =>
    have inner : ∀ u ∈ ws, u ∈ w :: ws := fun u member => List.mem_cons_of_mem w member
    refine ⟨reads w (List.mem_cons_self ..) _ (Lexeme.stops_cons.mpr (by decide)),
      .alone (by decide) (by decide) (by decide) _, ?_⟩
    exact ih (fun u member => free u (inner u member)) fun u member => reads u (inner u member)

-- A dotted name can come behind anything but a word or an open quote.
theorem Reading.before_chain {pieces : List Piece} {old : List Char} (reading : Reading pieces old)
    (loose : ∀ front kind text, pieces = front ++ [.lexeme kind text] →
      kind.isWord = false ∧ kind ≠ .unclosed)
    (some_part : parts ≠ []) (free : ∀ w ∈ parts, Lexeme.IsFree .standard w)
    (ended : Lexeme.Stops Lexeme.isWordChar after) :
    Reading pieces (textOf (chain parts) ++ after) := by
  obtain ⟨w, member, rest, spelled, stop⟩ := chain_begins some_part ended
  have first := free w member
  rw [spelled]
  refine reading.before_word ((Lexeme.beginsWord_of_isWord first.1).append rest) loose ?_
  intro _ _ _ _ ahead
  have same := (Lexeme.inAhead_word first.1 stop).mp ahead
  exact first.ne_reserved Lexeme.inWord_reserved same

-- The name read back from the tokens goes on over the names that stand before it with points.
theorem dottedName?_chain (some_part : parts ≠ []) (offset : Nat) (earlier : List Token) :
    Lookback.dottedName? ((place offset (chain parts)).reverse ++ earlier) =
      some (String.intercalate "."
        ((Lookback.pointed earlier).reverse ++ parts.map String.ofList)) := by
  fun_induction chain parts generalizing offset earlier with
  | case1 => exact absurd rfl some_part
  | case2 w => simp [place, Lookback.dottedName?]
  | case3 w ws more ih =>
    obtain ⟨w', ws, rfl⟩ := List.exists_cons_of_ne_nil more
    simp only [place, List.reverse_cons, List.append_assoc, List.singleton_append]
    rw [ih (by simp)]
    simp [Lookback.pointed]

theorem place_chain (some_part : parts ≠ []) (offset : Nat) :
    ∃ w ∈ parts, ∃ start stop rest,
      (place offset (chain parts)).reverse = ⟨.name, String.ofList w, start, stop⟩ :: rest := by
  fun_induction chain parts generalizing offset with
  | case1 => exact absurd rfl some_part
  | case2 w => exact ⟨w, List.mem_cons_self .., offset, _, [], rfl⟩
  | case3 w ws more ih =>
    obtain ⟨w', ws, rfl⟩ := List.exists_cons_of_ne_nil more
    obtain ⟨u, member, start, stop, rest, last⟩ :=
      ih (by simp) (offset + Text.byteLength w + Text.byteLength ['.'])
    refine ⟨u, List.mem_cons_of_mem w member, start, stop, ?_⟩
    simp only [place, List.reverse_cons, last]
    exact ⟨_, rfl⟩

end Piece

theorem intercalate_parts {name : String} {parts : List (List Char)}
    (spelled : name.toList = List.intercalate ['.'] parts) :
    String.intercalate "." (parts.map String.ofList) = name := by
  rw [← String.toList_inj, String.toList_intercalate, spelled]
  simp [Function.comp_def]

theorem Lookback.pointed_eq_nil {earlier : List Token}
    (closed : ∀ t ∈ earlier.head?, t.text ≠ ".") : pointed earlier = [] := by
  unfold pointed
  split
  · rename_i point part rest
    have other := closed point rfl
    simp [other]
  · rfl

theorem Context.ofLookback_field {catalog : Catalog} {f : Field} {t : Token} {rest : List Token}
    (word : Lexeme.isWord t.text.toList = true)
    (found : (Lookback.dottedName? (t :: rest)).bind catalog.get? = some f) :
    ofLookback ⟨none, t :: rest⟩ catalog = .afterField f := by
  have other : ∀ mark : String, Lexeme.isWord mark.toList = false → t.text ≠ mark := by
    intro mark plain same
    rw [same, plain] at word
    cases word
  exact ofLookback_found rfl (other "." (by decide)) (other "(" (by decide)) (other ")" (by decide))
    found

-- Behind a dotted name and a gap a field is found exactly when the catalog has it under that name,
-- taken together with the names that stand before it with points.
theorem Context.behind_chain {catalog : Catalog} {f : Field} {settled gaps : List Piece}
    {parts : List (List Char)} (some_part : parts ≠ [])
    (words : ∀ w ∈ parts, Lexeme.isWord w = true)
    (blank : ∀ offset, Piece.place offset gaps = []) :
    behind catalog (settled ++ (Piece.chain parts ++ gaps)) = .afterField f ↔
      catalog.get? (String.intercalate "."
        ((Lookback.pointed (Piece.place 0 settled).reverse).reverse ++ parts.map String.ofList)) =
          some f := by
  have told := behind_tells catalog (settled ++ (Piece.chain parts ++ gaps))
  have name := Piece.dottedName?_chain some_part (Text.byteLength (Piece.textOf settled))
    (Piece.place 0 settled).reverse
  obtain ⟨w, inside, start, stop, rest, last⟩ :=
    Piece.place_chain some_part (Text.byteLength (Piece.textOf settled))
  have tokens : (Piece.place 0 (settled ++ (Piece.chain parts ++ gaps))).reverse =
      (Piece.place (Text.byteLength (Piece.textOf settled)) (Piece.chain parts)).reverse ++
        (Piece.place 0 settled).reverse := by
    rw [Piece.place_append, Piece.place_append, blank, List.append_nil, List.reverse_append,
      Nat.zero_add]
  constructor
  · intro context
    rw [context, tokens] at told
    rw [Tells, Lookback.fieldOf?, name] at told
    exact told
  · intro found
    rw [behind, tokens, last]
    rw [last] at name
    refine ofLookback_field ?_ ?_
    · rw [String.toList_ofList]
      exact words w inside
    · exact (congrArg (Option.bind · catalog.get?) name).trans found

end ScoreFilter

import ScoreFilter.Proofs.Token.Grammar

namespace ScoreFilter

theorem Text.splitWords_solid (cs : List Char) :
    ∀ w ∈ (splitWords cs).1 :: (splitWords cs).2, ∀ c ∈ w, isSpace c = false := by
  induction cs with
  | nil => simp [splitWords]
  | cons c cs ih =>
    obtain ⟨first, later⟩ := List.forall_mem_cons.mp ih
    simp only [splitWords]
    split
    · refine List.forall_mem_cons.mpr ⟨by simp, ?_⟩
      split
      · exact later
      · exact List.forall_mem_cons.mpr ⟨first, later⟩
    · rename_i solid
      refine List.forall_mem_cons.mpr ⟨?_, later⟩
      exact List.forall_mem_cons.mpr ⟨by simpa using solid, first⟩

theorem Text.isSpace_of_mem_words {cs w : List Char} (member : w ∈ words cs) {c : Char}
    (inside : c ∈ w) : isSpace c = false := by
  have listed : w ∈ (splitWords cs).1 :: (splitWords cs).2 := by
    simp only [words] at member
    split at member
    · exact List.mem_cons_of_mem _ member
    · exact member
  exact splitWords_solid cs w listed c inside

namespace Vocabulary

variable {order : List Keyword}

theorem insertByWordCount_falling (k : Keyword)
    (falling : order.Pairwise fun one two => two.wordCount ≤ one.wordCount) :
    (insertByWordCount k order).Pairwise fun one two => two.wordCount ≤ one.wordCount := by
  induction order with
  | nil => exact List.pairwise_singleton _ _
  | cons first rest ih =>
    obtain ⟨below, later⟩ := List.pairwise_cons.mp falling
    unfold insertByWordCount
    split
    · rename_i fewer
      refine List.pairwise_cons.mpr ⟨?_, falling⟩
      intro other member
      rcases List.mem_cons.mp member with rfl | inside
      · exact fewer
      · exact Nat.le_trans (below other inside) fewer
    · rename_i more
      refine List.pairwise_cons.mpr ⟨?_, ih later⟩
      intro other member
      rcases List.mem_cons.mp ((insertByWordCount_perm k rest).mem_iff.mp member) with rfl | inside
      · exact Nat.le_of_lt (Nat.lt_of_not_le more)
      · exact below other inside

-- The keyword passes only those with more words, so none of its own word count.
theorem filter_insertByWordCount (k : Keyword) (order : List Keyword) (n : Nat) :
    (insertByWordCount k order).filter (·.wordCount == n) =
      (k :: order).filter (·.wordCount == n) := by
  induction order with
  | nil => rfl
  | cons first rest ih =>
    unfold insertByWordCount
    split
    · rfl
    · rename_i more
      rw [List.filter_cons, ih]
      by_cases here : k.wordCount = n
      · have passed : first.wordCount ≠ n := by omega
        simp [here, passed]
      · simp [here, List.filter_cons]

theorem keywordsByWordCount_falling (v : Vocabulary) :
    v.keywordsByWordCount.Pairwise fun one two => two.wordCount ≤ one.wordCount := by
  unfold keywordsByWordCount
  induction v.keywords with
  | nil => exact .nil
  | cons k rest ih => exact insertByWordCount_falling k ih

theorem keywordsByWordCount_stable (v : Vocabulary) (n : Nat) :
    v.keywordsByWordCount.filter (·.wordCount == n) = v.keywords.filter (·.wordCount == n) := by
  unfold keywordsByWordCount
  induction v.keywords with
  | nil => rfl
  | cons k rest ih =>
    rw [List.foldr_cons, filter_insertByWordCount, List.filter_cons, ih, List.filter_cons]

end Vocabulary

namespace Keyword

variable {k : Keyword} {cs text rest : List Char}

def Spells (k : Keyword) (text : List Char) : Prop :=
  ∃ w ws tail, k.words = w :: ws ∧ Lexeme.Trails ws tail ∧ text = w ++ tail

def Begins (k : Keyword) (cs : List Char) : Prop :=
  ∃ text rest, cs = text ++ rest ∧ k.Spells text ∧ Lexeme.Stops Lexeme.isWordChar rest

-- Among the keywords of the table that the text begins with, the first of those with most words.
structure Chosen (table : List Keyword) (cs : List Char) (k : Keyword) : Prop where
  begins : k.Begins cs
  longest : ∀ other ∈ table, other.Begins cs → other.wordCount ≤ k.wordCount
  first : ∃ before after, table = before ++ k :: after ∧
    ∀ other ∈ before, other.Begins cs → other.wordCount ≠ k.wordCount

theorem Chosen.mem {table : List Keyword} (chosen : k.Chosen table cs) : k ∈ table := by
  obtain ⟨before, after, listed, _⟩ := chosen.first
  simp [listed]

theorem phrase?_eq_some_iff (worded : k.words ≠ []) :
    Lexeme.phrase? k.words cs = some (text, rest) ↔
      k.Spells text ∧ cs = text ++ rest ∧ Lexeme.Stops Lexeme.isWordChar rest := by
  obtain ⟨w, ws, words⟩ := List.exists_cons_of_ne_nil worded
  have bare : ∀ u ∈ ws, u ≠ [] ∧ Lexeme.Stops Text.isSpace u := by
    intro u member
    have listed : u ∈ k.words := by
      rw [words]
      exact List.mem_cons_of_mem w member
    refine ⟨Text.words_ne_nil listed, ?_⟩
    exact fun c first => Text.isSpace_of_mem_words listed (List.mem_of_mem_head? first)
  rw [words, Lexeme.phrase?_eq_some_iff bare]
  constructor
  · rintro ⟨tail, trail, spelled, whole, ended⟩
    exact ⟨⟨w, ws, tail, words, trail, spelled⟩, whole, ended⟩
  · rintro ⟨⟨w', ws', tail, words', trail, spelled⟩, whole, ended⟩
    obtain ⟨rfl, rfl⟩ := List.cons.inj (words.symm.trans words')
    exact ⟨tail, trail, spelled, whole, ended⟩

theorem phrase?_eq_none_iff (worded : k.words ≠ []) :
    Lexeme.phrase? k.words cs = none ↔ ¬ k.Begins cs := by
  constructor
  · rintro refused ⟨text, rest, whole, spelled, ended⟩
    rw [(phrase?_eq_some_iff worded).mpr ⟨spelled, whole, ended⟩] at refused
    cases refused
  · intro absent
    cases found : Lexeme.phrase? k.words cs with
    | none => rfl
    | some parts =>
      obtain ⟨spelled, whole, ended⟩ := (phrase?_eq_some_iff worded).mp found
      exact absurd ⟨_, _, whole, spelled, ended⟩ absent

end Keyword

namespace Lexeme

variable {v : Vocabulary} {cs : List Char} {s : Split}

theorem keyword?_eq_none_iff (valid : v.WellFormed) :
    keyword? v cs = none ↔ ∀ k ∈ v.keywords, ¬ k.Begins cs := by
  rw [keyword?, Option.map_eq_none_iff, List.findSome?_eq_none_iff]
  simp only [v.keywordsByWordCount_perm.mem_iff]
  exact forall₂_congr fun k member => Keyword.phrase?_eq_none_iff (valid.1 k member)

-- Keywords before the one that is found do not match; those behind it have no more words, and those
-- of its own word count stand behind it in the table too.
theorem keyword?_chosen (valid : v.WellFormed) (found : keyword? v cs = some s) :
    ∃ k : Keyword, k.Chosen v.keywords cs ∧ k.Spells s.text ∧ cs = s.text ++ s.rest ∧
      Stops isWordChar s.rest := by
  obtain ⟨⟨text, rest⟩, matched, rfl⟩ := Option.map_eq_some_iff.mp found
  obtain ⟨before, k, after, order, here, refused⟩ := List.findSome?_eq_some_iff.mp matched
  have listed : ∀ other, other ∈ before ++ k :: after ↔ other ∈ v.keywords := by
    intro other
    rw [← order]
    exact v.keywordsByWordCount_perm.mem_iff
  have member : k ∈ v.keywords := (listed k).mp (by simp)
  have absent : ∀ other ∈ before, ¬ other.Begins cs := by
    intro other inside
    have table : other ∈ v.keywords := (listed other).mp (List.mem_append_left _ inside)
    exact (Keyword.phrase?_eq_none_iff (valid.1 other table)).mp (refused other inside)
  obtain ⟨spelled, whole, ended⟩ := (Keyword.phrase?_eq_some_iff (valid.1 k member)).mp here
  refine ⟨k, ⟨⟨text, rest, whole, spelled, ended⟩, ?_, ?_⟩, spelled, whole, ended⟩
  · intro other table begins
    have falling := v.keywordsByWordCount_falling
    rw [order, List.pairwise_append, List.pairwise_cons] at falling
    rcases List.mem_append.mp ((listed other).mpr table) with inside | behind
    · exact absurd begins (absent other inside)
    · rcases List.mem_cons.mp behind with rfl | later
      · exact Nat.le_refl _
      · exact falling.2.1.1 other later
  · have stable := v.keywordsByWordCount_stable k.wordCount
    rw [order, List.filter_append, List.filter_cons_of_pos (by simp)] at stable
    obtain ⟨front, back, table, fronts, backs⟩ := List.filter_eq_append_iff.mp stable.symm
    obtain ⟨passed, rest', table', fewer, _⟩ := List.filter_eq_cons_iff.mp backs
    refine ⟨front ++ passed, rest', by rw [table, table', List.append_assoc], ?_⟩
    intro other inside begins same
    rcases List.mem_append.mp inside with early | between
    · have equal : other ∈ front.filter (·.wordCount == k.wordCount) := by
        simp [List.mem_filter, early, same]
      rw [fronts] at equal
      exact absent other (List.mem_filter.mp equal).1 begins
    · exact absurd (by simpa using same) (fewer other between)

theorem kind_keyword_iff (valid : v.WellFormed) (found : split? v cs = some s) :
    s.kind = .keyword ↔ s.kind.isLiteral = false ∧ ∃ k ∈ v.keywords, k.Begins cs := by
  constructor
  · intro kind
    have read := split?_rule found
    rw [kind] at read
    obtain ⟨k, chosen, _⟩ := keyword?_chosen valid read
    exact ⟨by rw [kind]; rfl, k, chosen.mem, chosen.begins⟩
  · rintro ⟨plain, k, member, begins⟩
    have quote : quoted? cs = none := by
      cases read : quoted? cs with
      | none => rfl
      | some s' =>
        rw [split?_of_quoted? read] at found
        cases found
        rcases quoted?_kind read with kind | kind <;> simp [kind, TokenKind.isLiteral] at plain
    have number : number? cs = none := by
      cases read : number? cs with
      | none => rfl
      | some s' =>
        rw [split?_of_number? read] at found
        cases found
        simp [(number?_eq_some read).1, TokenKind.isLiteral] at plain
    cases read : keyword? v cs with
    | none => exact absurd begins ((keyword?_eq_none_iff valid).mp read k member)
    | some s' =>
      simp only [split?, quote, number, read, Option.none_or, Option.some_or,
        Option.some.injEq] at found
      subst found
      obtain ⟨_, _, kind, _⟩ := keyword?_eq_some read
      exact kind

end Lexeme

theorem Token.split?_after {v : Vocabulary} (valid : v.WellFormed) {input : String} {t : Token}
    (member : t ∈ tokenize v input) :
    Lexeme.split? v (Text.after t.start input.toList) =
      some ⟨t.kind, t.text.toList, Text.after t.stop input.toList⟩ := by
  have run := Scan.ofText valid input.toList
  obtain ⟨front, kind, text, back, pieces, rfl⟩ := Piece.mem_place.mp member
  rw [pieces] at run
  have stop : Text.after (Text.byteLength (Piece.textOf front) + Text.byteLength text)
      input.toList = Piece.textOf back := by
    rw [run.textOf.symm]
    exact Piece.after_stop front back kind text
  dsimp only
  rw [Nat.zero_add, stop, run.around, Text.after_append, String.toList_ofList]
  exact run.found

-- Keywords are tried from those with most words down, in the order of the table among equals. So a
-- keyword is read where one begins, and it is the first of the table among those with most words.
theorem tokenize_keywords (v : Vocabulary) (valid : v.WellFormed) (input : String) :
    (∀ t ∈ Token.tokenize v input,
      (t.kind = .keyword ↔ t.kind.isLiteral = false ∧
        ∃ k ∈ v.keywords, k.Begins (Text.after t.start input.toList)) ∧
      (t.kind = .keyword → ∃ k : Keyword,
        k.Chosen v.keywords (Text.after t.start input.toList) ∧ k.Spells t.text.toList ∧
          Text.after t.start input.toList = t.text.toList ++ Text.after t.stop input.toList ∧
          Lexeme.Stops Lexeme.isWordChar (Text.after t.stop input.toList))) ∧
      v.keywordsByWordCount.Perm v.keywords ∧
      (v.keywordsByWordCount.Pairwise fun one two => two.wordCount ≤ one.wordCount) ∧
      ∀ n, v.keywordsByWordCount.filter (·.wordCount == n) =
        v.keywords.filter (·.wordCount == n) := by
  refine ⟨?_, v.keywordsByWordCount_perm, v.keywordsByWordCount_falling,
    v.keywordsByWordCount_stable⟩
  intro t member
  have found := Token.split?_after valid member
  refine ⟨Lexeme.kind_keyword_iff valid found, ?_⟩
  intro kind
  have read := Lexeme.split?_rule found
  rw [kind] at read
  exact Lexeme.keyword?_chosen valid read

def phraseVocabulary : Vocabulary where
  keywords := [⟨"is", ""⟩, ⟨"is not", ""⟩, ⟨" is  not null", ""⟩, ⟨"≠ =", ""⟩, ⟨"is\tnot", ""⟩]
  mathFunctions := []
  sampleFunctions := []
  comparators := []

-- The longest phrase fails at its last word, and the next one down is read.
theorem tokenize_keywords_shorter :
    phraseVocabulary.WellFormed ∧
      (⟨.keyword, "is\u2003 not", 2, 11⟩ : Token) ∈
        Token.tokenize phraseVocabulary "x is\u2003 not nullable" ∧
      ∃ k : Keyword,
        k.Chosen phraseVocabulary.keywords (Text.after 2 "x is\u2003 not nullable".toList) ∧
          k.Spells "is\u2003 not".toList ∧
          Lexeme.Stops Lexeme.isWordChar (Text.after 11 "x is\u2003 not nullable".toList) := by
  have valid : phraseVocabulary.WellFormed := by decide +kernel
  have member : (⟨.keyword, "is\u2003 not", 2, 11⟩ : Token) ∈
      Token.tokenize phraseVocabulary "x is\u2003 not nullable" := by decide +kernel
  obtain ⟨read, _⟩ := tokenize_keywords phraseVocabulary valid "x is\u2003 not nullable"
  obtain ⟨k, chosen, spelled, _, ended⟩ := (read _ member).2 rfl
  exact ⟨valid, member, k, chosen, spelled, ended⟩

end ScoreFilter

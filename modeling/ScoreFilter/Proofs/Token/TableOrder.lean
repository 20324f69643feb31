import ScoreFilter.Proofs.Token.Keywords

namespace ScoreFilter

namespace Vocabulary

variable {v w : Vocabulary}

-- The tables that the reader asks hold the same entries, each in an order of its own.
structure Shuffles (v w : Vocabulary) : Prop where
  keywords : v.keywords.Perm w.keywords
  mathFunctions : v.mathFunctions.Perm w.mathFunctions
  sampleFunctions : v.sampleFunctions.Perm w.sampleFunctions

theorem Shuffles.symm (same : v.Shuffles w) : w.Shuffles v :=
  ⟨same.keywords.symm, same.mathFunctions.symm, same.sampleFunctions.symm⟩

theorem Worded.shuffled (worded : v.Worded) (same : v.Shuffles w) : w.Worded :=
  ⟨fun k member => worded.1 k (same.keywords.mem_iff.mpr member),
    fun f member => worded.2.1 f (same.mathFunctions.mem_iff.mpr member),
    fun f member => worded.2.2 f (same.sampleFunctions.mem_iff.mpr member)⟩

theorem keywordsByWordCount_eq_self
    (falling : v.keywords.Pairwise fun one two => two.wordCount ≤ one.wordCount) :
    v.keywordsByWordCount = v.keywords := by
  unfold keywordsByWordCount
  generalize v.keywords = order at falling ⊢
  induction order with
  | nil => rfl
  | cons k rest ih =>
    obtain ⟨below, later⟩ := List.pairwise_cons.mp falling
    rw [List.foldr_cons, ih later]
    cases rest with
    | nil => rfl
    | cons first rest => rw [insertByWordCount, if_pos (below first (List.mem_cons_self ..))]

end Vocabulary

namespace Lexeme

variable {ws ws' : List (List Char)} {first first' text text' rest rest' : List Char}

theorem word_unique (word : isWord first = true) (word' : isWord first' = true)
    (trail : Trails ws text) (trail' : Trails ws' text') (ended : Stops isWordChar rest)
    (ended' : Stops isWordChar rest')
    (same : first ++ (text ++ rest) = first' ++ (text' ++ rest')) :
    first = first' ∧ text ++ rest = text' ++ rest' :=
  run_unique (isWord_all word) (stops_trails trail ended) (isWord_all word')
    (stops_trails trail' ended') same

theorem Trails.words_eq (trail : Trails ws text) (trail' : Trails ws' text')
    (words : ∀ u ∈ ws, isWord u = true) (words' : ∀ u ∈ ws', isWord u = true)
    (ended : Stops isWordChar rest) (ended' : Stops isWordChar rest')
    (same : text ++ rest = text' ++ rest') (count : ws.length = ws'.length) : ws = ws' := by
  induction trail generalizing ws' text' with
  | nil =>
    cases trail' with
    | nil => rfl
    | cons => cases count
  | @cons u us gap text spaced later ih =>
    cases trail' with
    | nil => cases count
    | @cons u' us' gap' text' spaced' later' =>
      obtain ⟨word, more⟩ := List.forall_mem_cons.mp words
      obtain ⟨word', more'⟩ := List.forall_mem_cons.mp words'
      have solid : ∀ {u : List Char}, isWord u = true → ∀ tail, Stops Text.isSpace (u ++ tail) :=
        fun word _ => (stops_append (isWord_ne_nil word)).mpr (stops_isSpace_of_isWord word)
      simp only [List.append_assoc] at same
      obtain ⟨_, behind⟩ := run_unique spaced.2 (solid word _) spaced'.2 (solid word' _) same
      obtain ⟨rfl, rest⟩ := word_unique word word' later later' ended ended' behind
      rw [ih later' more more' rest (Nat.succ.inj count)]

end Lexeme

theorem Keyword.words_unique {k k' : Keyword} {cs : List Char}
    (words : ∀ u ∈ k.words, Lexeme.isWord u = true)
    (words' : ∀ u ∈ k'.words, Lexeme.isWord u = true) (begins : k.Begins cs)
    (begins' : k'.Begins cs) (count : k.wordCount = k'.wordCount) : k.words = k'.words := by
  obtain ⟨_, rest, whole, ⟨first, ws, text, spelled, trail, rfl⟩, ended⟩ := begins
  obtain ⟨_, rest', whole', ⟨first', ws', text', spelled', trail', rfl⟩, ended'⟩ := begins'
  rw [wordCount, wordCount, spelled, spelled'] at count
  rw [spelled] at words ⊢
  rw [spelled'] at words' ⊢
  obtain ⟨word, more⟩ := List.forall_mem_cons.mp words
  obtain ⟨word', more'⟩ := List.forall_mem_cons.mp words'
  have same := whole.symm.trans whole'
  rw [List.append_assoc, List.append_assoc] at same
  obtain ⟨rfl, behind⟩ := Lexeme.word_unique word word' trail trail' ended ended' same
  rw [trail.words_eq trail' more more' ended ended' behind (Nat.succ.inj count)]

namespace Lexeme

variable {v w : Vocabulary}

-- Each search finds one of the keywords with most words, and these are all made of the same words.
theorem keyword?_of_shuffled (worded : v.Worded) (same : v.Shuffles w) {cs : List Char} {s : Split}
    (found : keyword? v cs = some s) : keyword? w cs = some s := by
  have worded' := worded.shuffled same
  obtain ⟨k, chosen, spelled, whole, ended⟩ := keyword?_chosen worded.wellFormed found
  have listed : k ∈ w.keywords := same.keywords.mem_iff.mp chosen.mem
  cases found' : keyword? w cs with
  | none =>
    exact absurd chosen.begins ((keyword?_eq_none_iff worded'.wellFormed).mp found' k listed)
  | some s' =>
    obtain ⟨k', chosen', spelled', whole', ended'⟩ := keyword?_chosen worded'.wellFormed found'
    have listed' : k' ∈ v.keywords := same.keywords.mem_iff.mpr chosen'.mem
    have count : k.wordCount = k'.wordCount :=
      Nat.le_antisymm (chosen'.longest k listed chosen.begins)
        (chosen.longest k' listed' chosen'.begins)
    obtain ⟨nonempty, words⟩ := worded.1 k chosen.mem
    obtain ⟨nonempty', words'⟩ := worded.1 k' listed'
    have alike := Keyword.words_unique words words' chosen.begins chosen'.begins count
    have read := (Keyword.phrase?_eq_some_iff nonempty).mpr ⟨spelled, whole, ended⟩
    have read' := (Keyword.phrase?_eq_some_iff nonempty').mpr ⟨spelled', whole', ended'⟩
    rw [alike, read', Option.some.injEq, Prod.mk.injEq] at read
    obtain ⟨_, _, kind, _⟩ := keyword?_eq_some found
    obtain ⟨_, _, kind', _⟩ := keyword?_eq_some found'
    rw [Option.some.injEq, Split.mk.injEq, kind, kind']
    exact ⟨rfl, read⟩

theorem keyword?_shuffled (worded : v.Worded) (same : v.Shuffles w) (cs : List Char) :
    keyword? v cs = keyword? w cs := by
  apply Option.ext
  intro s
  exact ⟨keyword?_of_shuffled worded same, keyword?_of_shuffled (worded.shuffled same) same.symm⟩

theorem split?_shuffled (worded : v.Worded) (same : v.Shuffles w) (c : Char) (cs : List Char) :
    split? v (c :: cs) = split? w (c :: cs) := by
  have worded' := worded.shuffled same
  cases start : isWordStart c with
  | false => rw [split?_other worded start, split?_other worded' start]
  | true =>
    obtain ⟨u, rest, whole, word, ended⟩ := exists_word start cs
    have tabled : ∀ {table table' : List Builtin}, table.Perm table' →
        (∀ f ∈ table, isWord f.name.toList = true) → (∀ f ∈ table', isWord f.name.toList = true) →
        ∀ kind, tabled? kind table (u ++ rest) = tabled? kind table' (u ++ rest) := by
      intro table table' entries spelled spelled' kind
      rw [tabled?_word spelled word ended, tabled?_word spelled' word ended]
      simp only [entries.mem_iff]
    rw [whole]
    simp only [split?, keyword?_shuffled worded same,
      tabled same.mathFunctions worded.2.1 worded'.2.1,
      tabled same.sampleFunctions worded.2.2 worded'.2.2]

end Lexeme

theorem Scan.shuffled {v w : Vocabulary} {cs : List Char} {pieces : List Piece}
    (worded : v.Worded) (same : v.Shuffles w) (run : Scan v cs pieces) : Scan w cs pieces := by
  induction run with
  | done => exact .done
  | @lexeme cs s pieces more found later ih =>
    obtain ⟨c, cs, rfl⟩ := List.exists_cons_of_ne_nil more
    rw [Lexeme.split?_shuffled worded same] at found
    exact .lexeme more found ih
  | @gap c cs pieces refused later ih =>
    rw [Lexeme.split?_shuffled worded same] at refused
    exact .gap refused ih

theorem Token.ofChars_shuffled {v w : Vocabulary} (worded : v.Worded) (same : v.Shuffles w)
    (cs : List Char) : ofChars v cs = ofChars w cs := by
  have run := (Scan.ofText worded.wellFormed cs).shuffled worded same
  rw [ofChars, ofChars, run.unique (Scan.ofText (worded.shuffled same).wellFormed cs)]

-- The order of the tables has no say in the tokens. Nor has the order among keywords of as many
-- words: any in which they may be tried is that of some table, and gives the same tokens.
theorem tokenize_shuffled (v w : Vocabulary) (worded : v.Worded) (same : v.Shuffles w)
    (input : String) :
    Token.tokenize v input = Token.tokenize w input ∧
      ∀ order : List Keyword, order.Perm v.keywords →
        (order.Pairwise fun one two => two.wordCount ≤ one.wordCount) →
        ({ w with keywords := order } : Vocabulary).keywordsByWordCount = order ∧
          Token.tokenize { w with keywords := order } input = Token.tokenize w input := by
  refine ⟨Token.ofChars_shuffled worded same input.toList, ?_⟩
  intro order entries falling
  have tried : w.Shuffles { w with keywords := order } :=
    ⟨same.keywords.symm.trans entries.symm, .refl _, .refl _⟩
  refine ⟨Vocabulary.keywordsByWordCount_eq_self falling, ?_⟩
  exact (Token.ofChars_shuffled (worded.shuffled same) tried input.toList).symm

def branchingVocabulary : Vocabulary where
  keywords := [⟨"is", ""⟩, ⟨"is not", ""⟩, ⟨"is not null", ""⟩, ⟨"not", ""⟩, ⟨"is\tnot", ""⟩,
    ⟨"is null", ""⟩, ⟨"is not in", ""⟩]
  mathFunctions := [⟨"log", .unary, ""⟩, ⟨"log2", .unary, ""⟩, ⟨"is", .unary, ""⟩]
  sampleFunctions := [⟨"is", .searchString, ""⟩, ⟨"log", .searchString, ""⟩]
  comparators := []

def Vocabulary.reversed (v : Vocabulary) : Vocabulary where
  keywords := v.keywords.reverse
  mathFunctions := v.mathFunctions.reverse
  sampleFunctions := v.sampleFunctions.reverse
  comparators := v.comparators

theorem tokenize_shuffled_reversed :
    branchingVocabulary.Worded ∧ branchingVocabulary.Shuffles branchingVocabulary.reversed ∧
      branchingVocabulary.keywordsByWordCount ≠
        branchingVocabulary.reversed.keywordsByWordCount ∧
      Token.tokenize branchingVocabulary "is not inner is\u2003not\nnull log(is)" =
        Token.tokenize branchingVocabulary.reversed "is not inner is\u2003not\nnull log(is)" ∧
      Token.tokenize
          { branchingVocabulary.reversed with keywords := branchingVocabulary.keywordsByWordCount }
          "is not inner is\u2003not\nnull log(is)" =
        Token.tokenize branchingVocabulary.reversed "is not inner is\u2003not\nnull log(is)" := by
  have worded : branchingVocabulary.Worded := by decide +kernel
  have same : branchingVocabulary.Shuffles branchingVocabulary.reversed :=
    ⟨(List.reverse_perm _).symm, (List.reverse_perm _).symm, (List.reverse_perm _).symm⟩
  obtain ⟨tokens, tried⟩ := tokenize_shuffled branchingVocabulary branchingVocabulary.reversed
    worded same "is not inner is\u2003not\nnull log(is)"
  exact ⟨worded, same, by decide +kernel, tokens,
    (tried _ (Vocabulary.keywordsByWordCount_perm _)
      (Vocabulary.keywordsByWordCount_falling _)).2⟩

end ScoreFilter

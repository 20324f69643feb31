import ScoreFilter.Proofs.Token.Grammar

namespace ScoreFilter

theorem Text.words_solid {cs : List Char} (nonempty : cs ≠ [])
    (solid : ∀ c ∈ cs, isSpace c = false) : words cs = [cs] := by
  have whole : splitWords cs = (cs, []) := by
    clear nonempty
    induction cs with
    | nil => rfl
    | cons c cs ih =>
      have later := ih fun d member => solid d (List.mem_cons_of_mem c member)
      simp [splitWords, later, solid c (List.mem_cons_self ..)]
  simp [words, whole, nonempty]

namespace Vocabulary

variable {v : Vocabulary}

-- Every entry of the tables is one word.
def Single (v : Vocabulary) : Prop :=
  (∀ k ∈ v.keywords, Lexeme.isWord k.name.toList = true) ∧
    (∀ f ∈ v.mathFunctions, Lexeme.isWord f.name.toList = true) ∧
    ∀ f ∈ v.sampleFunctions, Lexeme.isWord f.name.toList = true

instance (v : Vocabulary) : Decidable v.Single :=
  inferInstanceAs (Decidable (_ ∧ _ ∧ _))

def lookUp (v : Vocabulary) (name : String) : TokenKind :=
  if name ∈ v.keywords.map (·.name) then .keyword
  else if name ∈ v.mathFunctions.map (·.name) then .mathFunction
  else if name ∈ v.sampleFunctions.map (·.name) then .sampleFunction
  else .name

def recolored (v : Vocabulary) (kind : TokenKind) (text : String) : TokenKind :=
  if kind = .name then v.lookUp text else kind

theorem Single.words (single : v.Single) {k : Keyword} (member : k ∈ v.keywords) :
    k.words = [k.name.toList] := by
  have word := single.1 k member
  exact Text.words_solid (Lexeme.isWord_ne_nil word) fun c inside =>
    Lexeme.isSpace_of_isWordChar (Lexeme.isWord_all word c inside)

theorem Single.worded (single : v.Single) : v.Worded := by
  refine ⟨?_, single.2.1, single.2.2⟩
  intro k member
  rw [single.words member]
  exact ⟨by simp, by simpa using single.1 k member⟩

theorem Single.wellFormed (single : v.Single) : v.WellFormed :=
  single.worded.wellFormed

theorem Single.kindOf (single : v.Single) (w : List Char) :
    v.kindOf w = v.lookUp (String.ofList w) := by
  have keyword : (∃ k ∈ v.keywords, k.words = [w]) ↔
      String.ofList w ∈ v.keywords.map (·.name) := by
    rw [List.mem_map]
    refine exists_congr fun k => and_congr_right fun member => ?_
    rw [single.words member, List.singleton_inj, ← String.toList_inj, String.toList_ofList]
  have function : ∀ table : List Builtin, (∃ f ∈ table, f.name.toList = w) ↔
      String.ofList w ∈ table.map (·.name) := by
    intro table
    rw [List.mem_map]
    refine exists_congr fun f => and_congr_right fun _ => ?_
    rw [← String.toList_inj, String.toList_ofList]
  simp only [Vocabulary.kindOf, lookUp, keyword, function]

theorem single_empty : empty.Single := by
  refine ⟨?_, ?_, ?_⟩ <;> exact fun _ member => nomatch member

end Vocabulary

namespace Lexeme

variable {v : Vocabulary} {c : Char} {cs : List Char} {s : Split}

theorem kind_ne_name (other : isWordStart c = false) (found : split? v (c :: cs) = some s) :
    s.kind ≠ .name := by
  intro named
  have read := split?_rule found
  rw [named] at read
  simp [rule?, name?, other] at read

def Split.recolored (v : Vocabulary) (s : Split) : Split :=
  { s with kind := v.recolored s.kind (String.ofList s.text) }

-- The tables of single words have no say in where a lexeme ends.
theorem split?_recolored (single : v.Single) (c : Char) (cs : List Char) :
    split? v (c :: cs) = (split? .empty (c :: cs)).map (Split.recolored v) := by
  have worded := Vocabulary.single_empty.worded
  cases start : isWordStart c with
  | true =>
    -- An entry that begins the word without being all of it does not end at a word's end.
    obtain ⟨w, rest, whole, word, ended⟩ := exists_word start cs
    rw [whole, split?_word single.worded word ended, split?_word worded word ended, single.kindOf]
    · rfl
    · exact fun _ member => nomatch member
    · intro k member several
      rw [single.words member] at several
      exact absurd several (Nat.lt_irrefl 1)
  | false =>
    -- No entry begins here, and what the fixed rules find is no name.
    rw [split?_other single.worded start, ← split?_other worded start]
    cases found : split? .empty (c :: cs) with
    | none => rfl
    | some s =>
      have kind := kind_ne_name start found
      simp [Split.recolored, Vocabulary.recolored, kind]

end Lexeme

def Piece.recolored (v : Vocabulary) : Piece → Piece
  | .lexeme kind text => .lexeme (v.recolored kind (String.ofList text)) text
  | .gap c => .gap c

def Token.recolored (v : Vocabulary) (t : Token) : Token :=
  { t with kind := v.recolored t.kind t.text }

theorem Scan.recolored {v : Vocabulary} {cs : List Char} {pieces : List Piece}
    (single : v.Single) (run : Scan .empty cs pieces) :
    Scan v cs (pieces.map (Piece.recolored v)) := by
  induction run with
  | done => exact .done
  | @lexeme cs s pieces more found later ih =>
    obtain ⟨c, cs, rfl⟩ := List.exists_cons_of_ne_nil more
    have again := Lexeme.split?_recolored single c cs
    rw [found] at again
    exact .lexeme more again ih
  | @gap c cs pieces refused later ih =>
    have again := Lexeme.split?_recolored single c cs
    rw [refused] at again
    exact .gap again ih

theorem Piece.place_recolored (v : Vocabulary) (offset : Nat) (pieces : List Piece) :
    place offset (pieces.map (recolored v)) = (place offset pieces).map (Token.recolored v) := by
  induction pieces generalizing offset with
  | nil => rfl
  | cons p pieces ih =>
    cases p with
    | lexeme kind text => simp [place, recolored, Token.recolored, ih]
    | gap c => simp [place, recolored, ih]

-- Tables of single words change the kind of some names, and nothing else about the tokens.
theorem tokenize_recolored (v : Vocabulary) (single : v.Single) (input : String) :
    Token.tokenize v input = (Token.tokenize .empty input).map (Token.recolored v) := by
  have plain := Scan.ofText Vocabulary.single_empty.wellFormed input.toList
  have colored := Scan.ofText single.wellFormed input.toList
  rw [Token.tokenize, Token.ofChars, colored.unique (plain.recolored single)]
  exact Piece.place_recolored v 0 _

def nestedVocabulary : Vocabulary where
  keywords := [⟨"lo", ""⟩, ⟨"a", ""⟩]
  mathFunctions := [⟨"log", .unary, ""⟩, ⟨"a", .unary, ""⟩, ⟨"log2", .unary, ""⟩]
  sampleFunctions := [⟨"_", .searchString, ""⟩, ⟨"a", .searchString, ""⟩, ⟨"log", .unary, ""⟩]
  comparators := []

theorem tokenize_recolored_nested :
    nestedVocabulary.Single ∧
      Token.tokenize nestedVocabulary "1log2 lo.log10 _(a) \"log\" éa" =
        (Token.tokenize .empty "1log2 lo.log10 _(a) \"log\" éa").map
          (Token.recolored nestedVocabulary) ∧
      (Token.tokenize nestedVocabulary "1log2 lo.log10 _(a) \"log\" éa").map (·.kind) =
        [.number, .mathFunction, .keyword, .mark, .name, .sampleFunction, .mark, .keyword, .mark,
          .quoted, .keyword] := by
  have single : nestedVocabulary.Single := by decide +kernel
  exact ⟨single, tokenize_recolored nestedVocabulary single "1log2 lo.log10 _(a) \"log\" éa",
    by decide +kernel⟩

end ScoreFilter

import ScoreFilter.Proofs.Token.Grammar

namespace ScoreFilter

def TokenKind.isWord : TokenKind → Bool
  | .keyword | .mathFunction | .sampleFunction | .name => true
  | _ => false

namespace Lexeme

variable {kind : TokenKind} {text rest tail other : List Char} {c : Char}

-- The longest beginning of the text that has the property.
def Longest (P : List Char → Prop) (text rest : List Char) : Prop :=
  P text ∧ text <+: rest ∧ ∀ other, P other → other <+: rest → other.length ≤ text.length

def BeginsWord (rest : List Char) : Prop :=
  ∃ c cs, rest = c :: cs ∧ isWordStart c = true

-- What a lexeme of each kind is, told from the text that begins with it.
structure Conforms (kind : TokenKind) (text rest : List Char) : Prop where
  spelled : text <+: rest
  quoted : kind = .quoted ↔ ∃ body, rest = '"' :: body ∧ '"' ∈ body
  closing : kind = .quoted → ∃ body, '"' ∉ body ∧ text = '"' :: (body ++ ['"'])
  unclosed : kind = .unclosed ↔ ∃ body, rest = '"' :: body ∧ '"' ∉ body
  swallowing : kind = .unclosed → text = rest
  number : kind = .number ↔ Longest IsNumber text rest
  worded : kind.isWord = true ↔ BeginsWord rest
  boundary : BeginsWord rest → ∀ tail, rest = text ++ tail → Stops isWordChar tail
  keyword : kind = .keyword ↔
    (∃ gap, IsGap gap ∧ text = notWord ++ (gap ++ inWord)) ∨
      text ∈ ["and".toList, "or".toList, "in".toList, "mod".toList] ∨
      text = notWord ∧ ∀ tail, rest = text ++ tail → ¬ InFollows tail
  mathFunction : kind = .mathFunction ↔
    ∃ f ∈ Vocabulary.standard.mathFunctions, f.name.toList = text
  sampleFunction : kind = .sampleFunction ↔
    ∃ f ∈ Vocabulary.standard.sampleFunctions, f.name.toList = text
  name : kind = .name ↔ Longest (fun w => isWord w = true) text rest ∧
    (∀ k ∈ Vocabulary.standard.keywords, k.words ≠ [text]) ∧
    (∀ f ∈ Vocabulary.standard.mathFunctions, f.name.toList ≠ text) ∧
    ∀ f ∈ Vocabulary.standard.sampleFunctions, f.name.toList ≠ text
  relation : kind = .relation ↔ Longest (· ∈ relations) text rest
  mark : kind = .mark ↔ (∃ c ∈ marks, text = [c]) ∧ (∀ other ∈ relations, ¬ other <+: rest) ∧
    ∀ other, IsNumber other → ¬ other <+: rest

theorem length_le_of_prefix {p : Char → Bool} (all : ∀ c ∈ other, p c = true)
    (starts : other <+: text ++ tail) (stop : Stops p tail) : other.length ≤ text.length := by
  obtain ⟨more, same⟩ := starts
  rcases List.append_eq_append_iff.mp same with ⟨left, whole, _⟩ | ⟨more', longer, begins⟩
  · rw [whole, List.length_append]
    omega
  · cases more' with
    | nil => simp [longer]
    | cons d more' =>
      rw [begins, List.cons_append, stops_cons] at stop
      have inside := all d (by simp [longer])
      rw [stop] at inside
      cases inside

theorem number_longest {sign whole fraction : List Char} (signed : IsSign sign)
    (digits : IsDigits whole) (decimals : IsFraction fraction) (ended : EndsNumber fraction tail)
    (numeral : IsNumber other) (starts : other <+: sign ++ (whole ++ fraction) ++ tail) :
    other.length ≤ (sign ++ (whole ++ fraction)).length := by
  obtain ⟨sign', whole', fraction', signed', digits', decimals', rfl⟩ := numeral
  obtain ⟨more, same⟩ := starts
  simp only [List.append_assoc] at same
  -- The signs agree, since digits follow both.
  have split := splitSign_sign signed' (stops_sign digits' (fraction' ++ more))
  rw [same, splitSign_sign signed (stops_sign digits (fraction ++ tail))] at split
  obtain ⟨rfl, unsigned⟩ := Prod.mk.inj split
  have stop : Stops Char.isDigit (fraction ++ tail) := by
    rcases decimals with rfl | ⟨ds, _, rfl⟩
    · exact ended.1
    · exact stops_cons.mpr (by decide)
  simp only [List.length_append]
  rcases decimals' with rfl | ⟨ds', run', rfl⟩
  · have shorter := length_le_of_prefix digits'.2 ⟨_, unsigned.symm⟩ stop
    simp only [List.length_nil]
    omega
  · -- A fraction needs the whole part to be the same, and then a point at the same place.
    have point : Stops Char.isDigit ('.' :: ds' ++ more) := stops_cons.mpr (by decide)
    obtain ⟨rfl, fractions⟩ := run_unique digits.2 stop digits'.2 point unsigned
    rcases decimals with rfl | ⟨ds, _, rfl⟩
    · have none := ended.2 rfl (ds' ++ more) fractions
      rw [stops_append run'.1] at none
      obtain ⟨d, ds, rfl⟩ := List.exists_cons_of_ne_nil run'.1
      rw [stops_cons, run'.2 d (List.mem_cons_self ..)] at none
      cases none
    · have inner := (List.cons.inj fractions).2
      have shorter := length_le_of_prefix run'.2 ⟨_, inner.symm⟩ ended.1
      simp only [List.length_cons]
      omega

theorem number?_of_prefix (numeral : IsNumber other) (starts : other <+: rest) :
    ∃ s, number? rest = some s := by
  obtain ⟨sign, whole, fraction, signed, digits, _, rfl⟩ := numeral
  obtain ⟨more, rfl⟩ := starts
  obtain ⟨d, ds, rfl⟩ := List.exists_cons_of_ne_nil digits.1
  have split := splitSign_sign signed (stops_sign digits (fraction ++ more))
  have digit := digits.2 d (List.mem_cons_self ..)
  rw [List.append_assoc, List.append_assoc]
  simp only [number?, split]
  simp [digit]

theorem relation_of_prefix (listed : other ∈ relations) (starts : other <+: rest) :
    ∃ text tail, rest = text ++ tail ∧ Reads .relation text tail := by
  obtain ⟨tail, rfl⟩ := starts
  rcases mem_relations_iff.mp listed with ⟨c, member, rfl⟩ | ⟨c, member, rfl⟩
  · exact ⟨_, tail, rfl, .pair member⟩
  · by_cases equals : ∃ more, tail = '=' :: more
    · obtain ⟨more, rfl⟩ := equals
      exact ⟨[c, '='], more, rfl, .pair (angles_subset member)⟩
    · exact ⟨[c], tail, rfl, .angle member (stops_or_cons fun more same => equals ⟨more, same⟩)⟩

theorem symbol_start {d : Char} {ds : List Char} (listed : d ∈ symbols) (same : d :: ds = c :: cs) :
    ¬ isWordStart c = true := by
  obtain ⟨rfl, _⟩ := List.cons.inj same
  rw [(symbol_class listed).1]
  exact Bool.false_ne_true

theorem Reads.cases_word (reads : Reads kind text rest) (starts : BeginsWord text) :
    Stops isWordChar rest ∧
      ((kind = .keyword ∧ ∃ gap, IsGap gap ∧ text = notWord ++ (gap ++ inWord)) ∨
        (Vocabulary.standard.kindOf text = kind ∧ isWord text = true ∧
          (text = notWord → ¬ InFollows rest))) := by
  obtain ⟨c, cs, first, start⟩ := starts
  cases reads with
  | quoted inside => cases first; cases start
  | unclosed inside => cases first; cases start
  | number signed digits decimals ended =>
    rcases signed with rfl | rfl | rfl
    · obtain ⟨d, ds, rfl⟩ := List.exists_cons_of_ne_nil digits.1
      obtain ⟨rfl, _⟩ := List.cons.inj first
      have digit := digits.2 d (List.mem_cons_self ..)
      rw [isDigit_of_isWordStart start] at digit
      cases digit
    · cases first; cases start
    · cases first; cases start
  | phrase spaced ended => exact ⟨ended, .inl ⟨rfl, _, spaced, rfl⟩⟩
  | word kinded word ended alone => exact ⟨ended, .inr ⟨kinded, word, alone⟩⟩
  | pair listed => exact absurd start (symbol_start (pairing_subset listed) first)
  | angle listed ended =>
    exact absurd start (symbol_start (pairing_subset (angles_subset listed)) first)
  | mark listed lone unsigned => exact absurd start (symbol_start (marks_subset listed) first)

theorem kindOf_isWord (v : Vocabulary) (w : List Char) : (v.kindOf w).isWord = true := by
  unfold Vocabulary.kindOf
  split
  · rfl
  · split
    · rfl
    · split <;> rfl

theorem beginsWord_of_isWord {w : List Char} (word : isWord w = true) : BeginsWord w := by
  cases w with
  | nil => cases word
  | cons c cs =>
    simp only [isWord, Bool.and_eq_true] at word
    exact ⟨c, cs, rfl, word.1⟩

theorem BeginsWord.append (starts : BeginsWord text) (tail : List Char) :
    BeginsWord (text ++ tail) := by
  obtain ⟨c, cs, rfl, start⟩ := starts
  exact ⟨c, cs ++ tail, rfl, start⟩

theorem Reads.isWord_iff (reads : Reads kind text rest) :
    kind.isWord = true ↔ BeginsWord text := by
  constructor
  · intro worded
    cases reads with
    | phrase spaced ended => exact ⟨'n', _, rfl, by decide⟩
    | word kinded word ended alone => exact beginsWord_of_isWord word
    | _ => cases worded
  · intro starts
    obtain ⟨_, ⟨rfl, _⟩ | ⟨kinded, _⟩⟩ := reads.cases_word starts
    · rfl
    · rw [← kinded]
      exact kindOf_isWord _ text

theorem kindOf_ne (other : kind.isWord = false) : Vocabulary.standard.kindOf text ≠ kind := by
  intro same
  have worded := kindOf_isWord .standard text
  rw [same, other] at worded
  cases worded

theorem Reads.closing (reads : Reads .quoted text tail) :
    ∃ body, '"' ∉ body ∧ text = '"' :: (body ++ ['"']) := by
  cases reads with
  | quoted inside => exact ⟨_, inside, rfl⟩
  | word kinded => exact absurd kinded (kindOf_ne rfl)

theorem Reads.swallowing (reads : Reads .unclosed text tail) :
    tail = [] ∧ ∃ body, '"' ∉ body ∧ text = '"' :: body := by
  cases reads with
  | unclosed inside => exact ⟨rfl, _, inside, rfl⟩
  | word kinded => exact absurd kinded (kindOf_ne rfl)

theorem Reads.quoted_iff (reads : Reads kind text tail) :
    kind = .quoted ↔ ∃ body, text ++ tail = '"' :: body ∧ '"' ∈ body := by
  constructor
  · intro same
    subst same
    obtain ⟨body, _, rfl⟩ := reads.closing
    exact ⟨body ++ '"' :: tail, by simp, by simp⟩
  · intro ⟨body, same, later⟩
    obtain ⟨inner, more, rfl, inside⟩ := List.eq_append_cons_of_mem later
    have other : Reads .quoted ('"' :: (inner ++ ['"'])) more := .quoted inside
    exact (reads.unique other (by simpa using same)).1

theorem Reads.unclosed_iff (reads : Reads kind text tail) :
    kind = .unclosed ↔ ∃ body, text ++ tail = '"' :: body ∧ '"' ∉ body := by
  constructor
  · intro same
    subst same
    obtain ⟨rfl, body, inside, rfl⟩ := reads.swallowing
    exact ⟨body, by simp, inside⟩
  · intro ⟨body, same, inside⟩
    exact (reads.unique (.unclosed inside) (by simpa using same)).1

theorem Reads.number_of_prefix (reads : Reads kind text tail) (numeral : IsNumber other)
    (starts : other <+: text ++ tail) : kind = .number := by
  obtain ⟨s, counted⟩ := number?_of_prefix numeral starts
  have found := split?_of_number? (v := .standard) counted
  rw [reads.split?] at found
  cases found
  exact (number?_eq_some counted).1

theorem Reads.number_iff (reads : Reads kind text tail) :
    kind = .number ↔ Longest IsNumber text (text ++ tail) := by
  constructor
  · intro same
    subst same
    cases reads with
    | number signed digits decimals ended =>
      refine ⟨⟨_, _, _, signed, digits, decimals, rfl⟩, List.prefix_append .., ?_⟩
      intro other numeral starts
      exact number_longest signed digits decimals ended numeral starts
    | word kinded => exact absurd kinded (kindOf_ne rfl)
  · intro ⟨numeral, starts, _⟩
    exact reads.number_of_prefix numeral starts

theorem Reads.relation_of_prefix (reads : Reads kind text tail) (listed : other ∈ relations)
    (starts : other <+: text ++ tail) : kind = .relation := by
  obtain ⟨text', tail', same, related⟩ := Lexeme.relation_of_prefix listed starts
  exact (reads.unique related same).1

theorem Reads.relation_iff (reads : Reads kind text tail) :
    kind = .relation ↔ Longest (· ∈ relations) text (text ++ tail) := by
  constructor
  · intro same
    subst same
    have short : ∀ r ∈ relations, r.length ≤ 2 := by decide
    cases reads with
    | @pair c _ listed =>
      refine ⟨mem_relations_iff.mpr (.inl ⟨c, listed, rfl⟩), List.prefix_append .., ?_⟩
      intro other spelled _
      exact short other spelled
    | @angle c _ listed ended =>
      refine ⟨mem_relations_iff.mpr (.inr ⟨c, listed, rfl⟩), List.prefix_append .., ?_⟩
      intro other spelled starts
      rcases mem_relations_iff.mp spelled with ⟨d, _, rfl⟩ | ⟨d, _, rfl⟩
      · obtain ⟨more, same⟩ := starts
        simp only [List.cons_append, List.nil_append, List.cons.injEq] at same
        obtain ⟨_, rfl⟩ := same
        cases stops_cons.mp ended
      · simp
    | word kinded => exact absurd kinded (kindOf_ne rfl)
  · intro ⟨listed, starts, _⟩
    exact reads.relation_of_prefix listed starts

theorem Reads.mark_iff (reads : Reads kind text tail) :
    kind = .mark ↔ (∃ c ∈ marks, text = [c]) ∧ (∀ other ∈ relations, ¬ other <+: text ++ tail) ∧
      ∀ other, IsNumber other → ¬ other <+: text ++ tail := by
  constructor
  · intro same
    subst same
    refine ⟨?_, ?_, ?_⟩
    · cases reads with
      | mark listed lone unsigned => exact ⟨_, listed, rfl⟩
      | word kinded => exact absurd kinded (kindOf_ne rfl)
    · intro other listed starts
      cases reads.relation_of_prefix listed starts
    · intro other numeral starts
      cases reads.number_of_prefix numeral starts
  · intro ⟨⟨c, listed, spelled⟩, unrelated, uncounted⟩
    subst spelled
    have other : Reads .mark [c] tail := by
      refine .mark listed (fun partner => stops_or_cons fun more same => ?_) fun sign => ?_
      · exact unrelated _ (mem_relations_iff.mpr (.inl ⟨c, partner, rfl⟩)) ⟨more, by simp [same]⟩
      · cases tail with
        | nil => exact stops_nil _
        | cons d more =>
          cases digit : d.isDigit with
          | false => exact stops_cons.mpr digit
          | true =>
            have signed : IsSign [c] := by simpa [IsSign, signs] using sign
            have digits : IsDigits [d] := ⟨by simp, by simpa using digit⟩
            have numeral : IsNumber [c, d] := ⟨[c], [d], [], signed, digits, .inl rfl, rfl⟩
            exact absurd ⟨more, rfl⟩ (uncounted [c, d] numeral)
    exact (reads.unique other rfl).1

theorem kindOf_cases (v : Vocabulary) (w : List Char) :
    (v.kindOf w = .keyword ∧ ∃ k ∈ v.keywords, k.words = [w]) ∨
      (¬ ∃ k ∈ v.keywords, k.words = [w]) ∧
      ((v.kindOf w = .mathFunction ∧ ∃ f ∈ v.mathFunctions, f.name.toList = w) ∨
        (¬ ∃ f ∈ v.mathFunctions, f.name.toList = w) ∧
        ((v.kindOf w = .sampleFunction ∧ ∃ f ∈ v.sampleFunctions, f.name.toList = w) ∨
          (¬ ∃ f ∈ v.sampleFunctions, f.name.toList = w) ∧ v.kindOf w = .name)) := by
  unfold Vocabulary.kindOf
  split
  · exact .inl ⟨rfl, ‹_›⟩
  · refine .inr ⟨‹_›, ?_⟩
    split
    · exact .inl ⟨rfl, ‹_›⟩
    · refine .inr ⟨‹_›, ?_⟩
      split
      · exact .inl ⟨rfl, ‹_›⟩
      · exact .inr ⟨‹_›, rfl⟩

theorem kindOf_keyword_iff : Vocabulary.standard.kindOf text = .keyword ↔
    text ∈ ["and".toList, "or".toList, "in".toList, "mod".toList] ∨ text = notWord := by
  have listed : (∃ k ∈ Vocabulary.standard.keywords, k.words = [text]) ↔
      [text] ∈ Vocabulary.standard.keywords.map Keyword.words := List.mem_map.symm
  have table : Vocabulary.standard.keywords.map Keyword.words =
      [["and".toList], ["or".toList], [notWord], [inWord], [notWord, inWord], ["mod".toList]] := rfl
  have spelled : (∃ k ∈ Vocabulary.standard.keywords, k.words = [text]) ↔
      text ∈ ["and".toList, "or".toList, "in".toList, "mod".toList] ∨ text = notWord := by
    rw [listed, table]
    simp only [List.mem_cons, List.not_mem_nil, or_false, List.cons.injEq, and_true]
    grind [inWord]
  rw [← spelled]
  rcases kindOf_cases .standard text with keyword | ⟨plain, later⟩
  · simp [keyword]
  · rcases later with math | ⟨_, sample | name⟩
    · simp [math, plain]
    · simp [sample, plain]
    · simp [name, plain]

-- The tables hold no word twice, so being in one of them decides the kind.
theorem kindOf_math_iff : Vocabulary.standard.kindOf text = .mathFunction ↔
    ∃ f ∈ Vocabulary.standard.mathFunctions, f.name.toList = text := by
  have apart : ∀ f ∈ Vocabulary.standard.mathFunctions,
      ∀ k ∈ Vocabulary.standard.keywords, k.words ≠ [f.name.toList] := by decide +kernel
  constructor
  · intro same
    rcases kindOf_cases .standard text with keyword | ⟨_, math | ⟨_, sample | name⟩⟩
    · simp [same] at keyword
    · exact math.2
    · simp [same] at sample
    · simp [same] at name
  · intro ⟨f, member, named⟩
    rcases kindOf_cases .standard text with ⟨_, k, listed, words⟩ | ⟨_, math | ⟨absent, _⟩⟩
    · rw [← named] at words
      exact absurd words (apart f member k listed)
    · exact math.1
    · exact absurd ⟨f, member, named⟩ absent

theorem kindOf_sample_iff : Vocabulary.standard.kindOf text = .sampleFunction ↔
    ∃ f ∈ Vocabulary.standard.sampleFunctions, f.name.toList = text := by
  have apart : ∀ f ∈ Vocabulary.standard.sampleFunctions,
      (∀ k ∈ Vocabulary.standard.keywords, k.words ≠ [f.name.toList]) ∧
      ∀ g ∈ Vocabulary.standard.mathFunctions, g.name.toList ≠ f.name.toList := by decide +kernel
  constructor
  · intro same
    rcases kindOf_cases .standard text with keyword | ⟨_, math | ⟨_, sample | name⟩⟩
    · simp [same] at keyword
    · simp [same] at math
    · exact sample.2
    · simp [same] at name
  · intro ⟨f, member, named⟩
    rcases kindOf_cases .standard text with
      ⟨_, k, listed, words⟩ | ⟨_, ⟨_, g, listed, same⟩ | ⟨_, sample | ⟨absent, _⟩⟩⟩
    · rw [← named] at words
      exact absurd words ((apart f member).1 k listed)
    · rw [← named] at same
      exact absurd same ((apart f member).2 g listed)
    · exact sample.1
    · exact absurd ⟨f, member, named⟩ absent

theorem kindOf_name_iff {v : Vocabulary} : v.kindOf text = .name ↔
    (∀ k ∈ v.keywords, k.words ≠ [text]) ∧ (∀ f ∈ v.mathFunctions, f.name.toList ≠ text) ∧
      ∀ f ∈ v.sampleFunctions, f.name.toList ≠ text := by
  constructor
  · intro same
    rcases kindOf_cases v text with keyword | ⟨plain, math | ⟨plainMath, sample | ⟨plainSample, _⟩⟩⟩
    · simp [same] at keyword
    · simp [same] at math
    · simp [same] at sample
    · exact ⟨fun k member words => plain ⟨k, member, words⟩,
        fun f member named => plainMath ⟨f, member, named⟩,
        fun f member named => plainSample ⟨f, member, named⟩⟩
  · intro ⟨plain, plainMath, plainSample⟩
    rcases kindOf_cases v text with
      ⟨_, k, member, words⟩ | ⟨_, ⟨_, f, member, named⟩ | ⟨_, ⟨_, f, member, named⟩ | name⟩⟩
    · exact absurd words (plain k member)
    · exact absurd named (plainMath f member)
    · exact absurd named (plainSample f member)
    · exact name.2

theorem isWord_phrase {gap : List Char} (spaced : IsGap gap) :
    isWord (notWord ++ (gap ++ inWord)) = false := by
  rw [Bool.eq_false_iff]
  intro word
  obtain ⟨c, gap, rfl⟩ := List.exists_cons_of_ne_nil spaced.1
  have space := spaced.2 c (List.mem_cons_self ..)
  have inside := isWord_all word c (by simp)
  rw [isWordChar_of_isSpace space] at inside
  cases inside

theorem Reads.kindOf (reads : Reads kind text tail) (word : isWord text = true) :
    Vocabulary.standard.kindOf text = kind ∧ Stops isWordChar tail := by
  obtain ⟨ended, ⟨_, gap, spaced, rfl⟩ | ⟨kinded, _, _⟩⟩ :=
    reads.cases_word (beginsWord_of_isWord word)
  · rw [isWord_phrase spaced] at word
    cases word
  · exact ⟨kinded, ended⟩

theorem Reads.isWord (reads : Reads kind text tail) (worded : kind.isWord = true)
    (single : kind ≠ .keyword) : Lexeme.isWord text = true := by
  obtain ⟨_, ⟨keyword, _⟩ | ⟨_, word, _⟩⟩ := reads.cases_word (reads.isWord_iff.mp worded)
  · exact absurd keyword single
  · exact word

theorem Reads.keyword_iff (reads : Reads kind text tail) :
    kind = .keyword ↔ (∃ gap, IsGap gap ∧ text = notWord ++ (gap ++ inWord)) ∨
      text ∈ ["and".toList, "or".toList, "in".toList, "mod".toList] ∨
      text = notWord ∧ ∀ tail', text ++ tail = text ++ tail' → ¬ InFollows tail' := by
  constructor
  · intro same
    subst same
    obtain ⟨_, ⟨_, phrase⟩ | ⟨kinded, _, alone⟩⟩ := reads.cases_word (reads.isWord_iff.mp rfl)
    · exact .inl phrase
    · rcases kindOf_keyword_iff.mp kinded with listed | negation
      · exact .inr (.inl listed)
      · refine .inr (.inr ⟨negation, ?_⟩)
        intro tail' same
        rw [← List.append_cancel_left same]
        exact alone negation
  · intro spelled
    have starts : BeginsWord text := by
      rcases spelled with ⟨gap, _, rfl⟩ | listed | ⟨rfl, _⟩
      · exact ⟨'n', _, rfl, by decide⟩
      · have every : ∀ w ∈ ["and".toList, "or".toList, "in".toList, "mod".toList],
            Lexeme.isWord w = true := by decide
        exact beginsWord_of_isWord (every text listed)
      · exact ⟨'n', _, rfl, by decide⟩
    obtain ⟨_, ⟨same, _⟩ | ⟨kinded, word, _⟩⟩ := reads.cases_word starts
    · exact same
    · rw [← kinded, kindOf_keyword_iff]
      rcases spelled with ⟨gap, spaced, rfl⟩ | listed | ⟨negation, _⟩
      · rw [isWord_phrase spaced] at word
        cases word
      · exact .inl listed
      · exact .inr negation

theorem Reads.math_iff (reads : Reads kind text tail) : kind = .mathFunction ↔
    ∃ f ∈ Vocabulary.standard.mathFunctions, f.name.toList = text := by
  rw [← kindOf_math_iff]
  constructor
  · intro same
    subst same
    exact (reads.kindOf (reads.isWord rfl (by decide))).1
  · intro tabled
    obtain ⟨f, member, rfl⟩ := kindOf_math_iff.mp tabled
    rw [← (reads.kindOf (Vocabulary.standard_worded.2.1 f member)).1, tabled]

theorem Reads.sample_iff (reads : Reads kind text tail) : kind = .sampleFunction ↔
    ∃ f ∈ Vocabulary.standard.sampleFunctions, f.name.toList = text := by
  rw [← kindOf_sample_iff]
  constructor
  · intro same
    subst same
    exact (reads.kindOf (reads.isWord rfl (by decide))).1
  · intro tabled
    obtain ⟨f, member, rfl⟩ := kindOf_sample_iff.mp tabled
    rw [← (reads.kindOf (Vocabulary.standard_worded.2.2 f member)).1, tabled]

theorem Reads.name_iff (reads : Reads kind text tail) : kind = .name ↔
    Longest (fun w => Lexeme.isWord w = true) text (text ++ tail) ∧
      (∀ k ∈ Vocabulary.standard.keywords, k.words ≠ [text]) ∧
      (∀ f ∈ Vocabulary.standard.mathFunctions, f.name.toList ≠ text) ∧
      ∀ f ∈ Vocabulary.standard.sampleFunctions, f.name.toList ≠ text := by
  rw [← kindOf_name_iff]
  constructor
  · intro same
    subst same
    have word := reads.isWord rfl (by decide)
    obtain ⟨kinded, ended⟩ := reads.kindOf word
    refine ⟨⟨word, List.prefix_append .., ?_⟩, kinded⟩
    intro other word' starts
    exact length_le_of_prefix (isWord_all word') starts ended
  · intro ⟨⟨spelled, _, _⟩, free⟩
    rw [← (reads.kindOf spelled).1, free]

theorem Reads.beginsWord (reads : Reads kind text tail) (starts : BeginsWord (text ++ tail)) :
    BeginsWord text := by
  obtain ⟨c, cs, same, start⟩ := starts
  obtain ⟨d, ds, rfl, _⟩ := reads.head
  obtain ⟨rfl, _⟩ := List.cons.inj same
  exact ⟨d, ds, rfl, start⟩

theorem Reads.conforms (reads : Reads kind text tail) : Conforms kind text (text ++ tail) where
  spelled := List.prefix_append ..
  quoted := reads.quoted_iff
  closing same := by
    subst same
    exact reads.closing
  unclosed := reads.unclosed_iff
  swallowing same := by
    subst same
    rw [reads.swallowing.1, List.append_nil]
  number := reads.number_iff
  worded := by
    rw [reads.isWord_iff]
    constructor
    · exact fun starts => starts.append tail
    · exact reads.beginsWord
  boundary := by
    intro starts tail' whole
    rw [← List.append_cancel_left whole]
    exact (reads.cases_word (reads.beginsWord starts)).1
  keyword := reads.keyword_iff
  mathFunction := reads.math_iff
  sampleFunction := reads.sample_iff
  name := reads.name_iff
  relation := reads.relation_iff
  mark := reads.mark_iff

end Lexeme

-- Every token is of the kind, and goes as far, as the lexical grammar says at its place.
theorem tokenize_conforms (input : String) (t : Token)
    (member : t ∈ Token.tokenize Vocabulary.standard input) :
    Lexeme.Conforms t.kind t.text.toList (Text.after t.start input.toList) := by
  have run := Scan.ofText Vocabulary.standard_wellFormed input.toList
  obtain ⟨front, kind, text, back, pieces, rfl⟩ := Piece.mem_place.mp member
  rw [pieces] at run
  have whole := run.around
  dsimp only
  rw [whole, Nat.zero_add, Text.after_append, String.toList_ofList]
  exact (Lexeme.split?_reads run.found).conforms

-- A keyword of two words between two numbers, with nothing around it.
theorem tokenize_conforms_between :
    (⟨.keyword, "not  in", 4, 11⟩ : Token) ∈ Token.tokenize .standard "x+-5not  in-2" ∧
      Lexeme.Conforms .keyword "not  in".toList (Text.after 4 "x+-5not  in-2".toList) := by
  have member : (⟨.keyword, "not  in", 4, 11⟩ : Token) ∈
      Token.tokenize .standard "x+-5not  in-2" := by decide +kernel
  exact ⟨member, tokenize_conforms "x+-5not  in-2" _ member⟩

end ScoreFilter

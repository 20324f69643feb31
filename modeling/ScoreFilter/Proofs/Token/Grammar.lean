import ScoreFilter.Proofs.Token.Rules

namespace ScoreFilter

namespace Vocabulary

def Worded (v : Vocabulary) : Prop :=
  (∀ k ∈ v.keywords, k.words ≠ [] ∧ ∀ w ∈ k.words, Lexeme.isWord w = true) ∧
    (∀ f ∈ v.mathFunctions, Lexeme.isWord f.name.toList = true) ∧
    ∀ f ∈ v.sampleFunctions, Lexeme.isWord f.name.toList = true

instance (v : Vocabulary) : Decidable v.Worded :=
  inferInstanceAs (Decidable (_ ∧ _ ∧ _))

theorem Worded.wellFormed {v : Vocabulary} (worded : v.Worded) : v.WellFormed := by
  have named : ∀ f : Builtin, Lexeme.isWord f.name.toList = true → f.name ≠ "" := by
    intro f word empty
    rw [empty] at word
    cases word
  exact ⟨fun k member => (worded.1 k member).1, fun f member => named f (worded.2.1 f member),
    fun f member => named f (worded.2.2 f member)⟩

def kindOf (v : Vocabulary) (w : List Char) : TokenKind :=
  if ∃ k ∈ v.keywords, k.words = [w] then .keyword
  else if ∃ f ∈ v.mathFunctions, f.name.toList = w then .mathFunction
  else if ∃ f ∈ v.sampleFunctions, f.name.toList = w then .sampleFunction
  else .name

theorem standard_worded : standard.Worded := by decide +kernel

end Vocabulary

namespace Lexeme

variable {v : Vocabulary} {c : Char} {cs w rest : List Char} {s : Split}

theorem findSome?_eq_ite {α β : Type} {f : α → Option β} {p : α → Prop} [DecidablePred p] {b : β}
    {l : List α} (each : ∀ a ∈ l, f a = if p a then some b else none) :
    l.findSome? f = if ∃ a ∈ l, p a then some b else none := by
  induction l with
  | nil => simp
  | cons a l ih =>
    have tail := ih fun x member => each x (List.mem_cons_of_mem a member)
    rw [List.findSome?_cons, each a (List.mem_cons_self ..), tail]
    by_cases here : p a
    · simp [here]
    · simp [here]

theorem stops_trails {ws : List (List Char)} {tail : List Char} (trail : Trails ws tail)
    (ended : Stops isWordChar rest) : Stops isWordChar (tail ++ rest) := by
  cases trail with
  | nil => exact ended
  | cons spaced later =>
    rw [List.append_assoc]
    exact stops_of_isGap spaced _

-- A phrase can only begin with the whole word that the text begins with.
theorem phrase?_head {first text after : List Char} {ws : List (List Char)}
    (words : ∀ w ∈ first :: ws, isWord w = true) (word : isWord w = true)
    (ended : Stops isWordChar rest)
    (found : phrase? (first :: ws) (w ++ rest) = some (text, after)) :
    first = w := by
  have bare : ∀ u ∈ ws, u ≠ [] ∧ Stops Text.isSpace u := by
    intro u member
    have spelled := words u (List.mem_cons_of_mem _ member)
    exact ⟨isWord_ne_nil spelled, stops_isSpace_of_isWord spelled⟩
  obtain ⟨tail, trail, rfl, same, stop⟩ := (phrase?_eq_some_iff bare).mp found
  rw [List.append_assoc] at same
  have initial := isWord_all (words first (List.mem_cons_self ..))
  exact (run_unique (isWord_all word) ended initial (stops_trails trail stop) same).1.symm

theorem phrase?_word {first : List Char} (spelled : isWord first = true) (word : isWord w = true)
    (ended : Stops isWordChar rest) :
    phrase? [first] (w ++ rest) = if first = w then some (w, rest) else none := by
  have words : ∀ u ∈ [first], isWord u = true := by
    intro u member
    rw [List.mem_singleton.mp member]
    exact spelled
  by_cases same : first = w
  · rw [if_pos same, same]
    exact (phrase?_eq_some_iff (by simp)).mpr ⟨[], .nil, by simp, rfl, ended⟩
  · rw [if_neg same]
    cases found : phrase? [first] (w ++ rest) with
    | none => rfl
    | some pair => exact absurd (phrase?_head words word ended found) same

theorem tabled?_word {table : List Builtin} (spelled : ∀ f ∈ table, isWord f.name.toList = true)
    (word : isWord w = true) (ended : Stops isWordChar rest) (kind : TokenKind) :
    tabled? kind table (w ++ rest) =
      if ∃ f ∈ table, f.name.toList = w then some ⟨kind, w, rest⟩ else none := by
  have each : ∀ f ∈ table, phrase? [f.name.toList] (w ++ rest) =
      if f.name.toList = w then some (w, rest) else none :=
    fun f member => phrase?_word (spelled f member) word ended
  rw [tabled?, findSome?_eq_ite each]
  split <;> rfl

theorem keyword?_word (worded : v.Worded) (word : isWord w = true) (ended : Stops isWordChar rest)
    (alone : ∀ k ∈ v.keywords, 1 < k.words.length → phrase? k.words (w ++ rest) = none) :
    keyword? v (w ++ rest) =
      if ∃ k ∈ v.keywords, k.words = [w] then some ⟨.keyword, w, rest⟩ else none := by
  have table : ∀ k, k ∈ v.keywordsByWordCount ↔ k ∈ v.keywords :=
    fun k => v.keywordsByWordCount_perm.mem_iff
  have each : ∀ k ∈ v.keywordsByWordCount, phrase? k.words (w ++ rest) =
      if k.words = [w] then some (w, rest) else none := by
    intro k member
    obtain ⟨nonempty, spelled⟩ := worded.1 k ((table k).mp member)
    cases words : k.words with
    | nil => exact absurd words nonempty
    | cons first later =>
      cases later with
      | nil =>
        rw [phrase?_word (spelled first (by simp [words])) word ended]
        simp
      | cons second later =>
        have refused := alone k ((table k).mp member) (by simp [words])
        rw [words] at refused
        simp [refused]
  rw [keyword?, findSome?_eq_ite each]
  simp only [table]
  split <;> rfl

theorem quoted?_word (start : isWordStart c = true) : quoted? (c :: cs) = none := by
  apply quoted?_eq_none
  rintro rfl
  cases start

theorem number?_eq_none (digit : c.isDigit = false) (unsigned : (c == '+' || c == '-') = false) :
    number? (c :: cs) = none := by
  simp [number?, splitSign, unsigned, digit]

theorem isDigit_of_isWordStart (start : isWordStart c = true) : c.isDigit = false := by
  rw [Bool.eq_false_iff]
  intro digit
  have range := isDigit_toNat digit
  simp only [isWordStart, Bool.or_eq_true, beq_iff_eq] at start
  rcases start with letter | rfl
  · have other := isAlpha_toNat letter
    omega
  · cases digit

theorem exists_word (start : isWordStart c = true) (cs : List Char) :
    ∃ w rest, c :: cs = w ++ rest ∧ isWord w = true ∧ Stops isWordChar rest := by
  refine ⟨c :: cs.takeWhile isWordChar, cs.dropWhile isWordChar, ?_, ?_, stops_dropWhile _ _⟩
  · rw [List.cons_append, List.takeWhile_append_dropWhile]
  · simp only [isWord, start, Bool.true_and]
    exact List.all_takeWhile

theorem split?_word (worded : v.Worded) (word : isWord w = true) (ended : Stops isWordChar rest)
    (alone : ∀ k ∈ v.keywords, 1 < k.words.length → phrase? k.words (w ++ rest) = none) :
    split? v (w ++ rest) = some ⟨v.kindOf w, w, rest⟩ := by
  have keyword := keyword?_word worded word ended alone
  have math := tabled?_word worded.2.1 word ended .mathFunction
  have sample := tabled?_word worded.2.2 word ended .sampleFunction
  have all := isWord_all word
  cases w with
  | nil => cases word
  | cons c cs =>
    simp only [isWord, Bool.and_eq_true] at word
    have tail : ∀ d ∈ cs, isWordChar d = true :=
      fun d member => all d (List.mem_cons_of_mem c member)
    have quote : quoted? (c :: cs ++ rest) = none := quoted?_word word.1
    have number : number? (c :: cs ++ rest) = none := by
      refine number?_eq_none (isDigit_of_isWordStart word.1) ?_
      cases sign : (c == '+' || c == '-') with
      | false => rfl
      | true =>
        simp only [Bool.or_eq_true, beq_iff_eq] at sign
        rcases sign with rfl | rfl <;> cases word.1
    have name : name? (c :: cs ++ rest) = some ⟨.name, c :: cs, rest⟩ := by
      simp only [List.cons_append, name?, word.1, if_true]
      rw [takeWhile_run tail ended, dropWhile_run tail ended]
    simp only [split?, quote, number, keyword, math, sample, name, Vocabulary.kindOf,
      Option.none_or]
    -- The tables are asked in the order in which the rules are tried.
    split
    · rfl
    · split
      · rfl
      · split <;> rfl

theorem phrase?_other {first : List Char} {ws : List (List Char)}
    (words : ∀ u ∈ first :: ws, isWord u = true) (other : isWordStart c = false) :
    phrase? (first :: ws) (c :: cs) = none := by
  cases first with
  | nil => cases words [] (List.mem_cons_self ..)
  | cons d first =>
    have start := words (d :: first) (List.mem_cons_self ..)
    simp only [isWord, Bool.and_eq_true] at start
    have differ : d ≠ c := by
      rintro rfl
      rw [start.1] at other
      cases other
    simp [phrase?, Text.strip?, differ]

theorem split?_other (worded : v.Worded) (other : isWordStart c = false) :
    split? v (c :: cs) =
      (((quoted? (c :: cs)).or (number? (c :: cs))).or (relation? (c :: cs))).or
        (mark? (c :: cs)) := by
  have keyword : keyword? v (c :: cs) = none := by
    rw [keyword?, Option.map_eq_none_iff, List.findSome?_eq_none_iff]
    intro k member
    have listed := v.keywordsByWordCount_perm.mem_iff.mp member
    obtain ⟨nonempty, spelled⟩ := worded.1 k listed
    cases words : k.words with
    | nil => exact absurd words nonempty
    | cons first later =>
      rw [words] at spelled
      exact phrase?_other spelled other
  have tabled : ∀ kind (table : List Builtin), (∀ f ∈ table, isWord f.name.toList = true) →
      tabled? kind table (c :: cs) = none := by
    intro kind table spelled
    rw [tabled?, Option.map_eq_none_iff, List.findSome?_eq_none_iff]
    intro f member
    exact phrase?_other (by simpa using spelled f member) other
  have name : name? (c :: cs) = none := by simp [name?, other]
  simp only [split?, keyword, tabled _ _ worded.2.1, tabled _ _ worded.2.2, name, Option.or_none]

-- The rest goes on with white space and the whole word `in`.
def InFollows (rest : List Char) : Prop :=
  ∃ gap tail, IsGap gap ∧ rest = gap ++ ('i' :: 'n' :: tail) ∧ Stops isWordChar tail

def notWord : List Char := ['n', 'o', 't']

def inWord : List Char := ['i', 'n']

-- The lexical grammar: a kind, a text of that kind, and what may come after it. The text goes as
-- far as its kind allows, which is what the conditions on the rest say.
inductive Reads : TokenKind → List Char → List Char → Prop where
  | quoted {body rest : List Char} (inside : '"' ∉ body) :
      Reads .quoted ('"' :: (body ++ ['"'])) rest
  | unclosed {body : List Char} (inside : '"' ∉ body) : Reads .unclosed ('"' :: body) []
  | number {sign whole fraction rest : List Char} (signed : IsSign sign) (digits : IsDigits whole)
      (decimals : IsFraction fraction) (ended : EndsNumber fraction rest) :
      Reads .number (sign ++ (whole ++ fraction)) rest
  | phrase {gap rest : List Char} (spaced : IsGap gap) (ended : Stops isWordChar rest) :
      Reads .keyword (notWord ++ (gap ++ inWord)) rest
  | word {kind : TokenKind} {w rest : List Char} (kinded : Vocabulary.standard.kindOf w = kind)
      (word : isWord w = true) (ended : Stops isWordChar rest)
      (alone : w = notWord → ¬ InFollows rest) : Reads kind w rest
  | pair {c : Char} {rest : List Char} (listed : c ∈ pairing) :
      Reads .relation [c, '='] rest
  | angle {c : Char} {rest : List Char} (listed : c ∈ angles) (ended : Stops (· == '=') rest) :
      Reads .relation [c] rest
  | mark {c : Char} {rest : List Char} (listed : c ∈ marks)
      (lone : c ∈ pairing → Stops (· == '=') rest)
      (unsigned : c ∈ signs → Stops Char.isDigit rest) : Reads .mark [c] rest

theorem Reads.alone (listed : c ∈ marks) (single : c ∉ pairing) (unsigned : c ∉ signs)
    (rest : List Char) : Reads .mark [c] rest :=
  .mark listed (fun partner => absurd partner single) fun sign => absurd sign unsigned

theorem standard_several {k : Keyword} (member : k ∈ Vocabulary.standard.keywords)
    (several : 1 < k.words.length) : k.words = [notWord, inWord] := by
  have every : ∀ k ∈ Vocabulary.standard.keywords,
      1 < k.words.length → k.words = [notWord, inWord] := by decide +kernel
  exact every k member several

theorem phrase?_notIn {text after : List Char} :
    phrase? [notWord, inWord] cs = some (text, after) ↔
      ∃ gap, IsGap gap ∧ text = notWord ++ (gap ++ inWord) ∧ cs = text ++ after ∧
        Stops isWordChar after := by
  have bare : ∀ w ∈ [inWord], w ≠ [] ∧ Stops Text.isSpace w := by
    intro w member
    rw [List.mem_singleton.mp member]
    exact ⟨by decide, stops_isSpace_of_isWord (by decide)⟩
  rw [phrase?_eq_some_iff bare]
  constructor
  · rintro ⟨tail, trail, rfl, rfl, ended⟩
    cases trail with
    | cons spaced later =>
      cases later
      exact ⟨_, spaced, by simp, rfl, ended⟩
  · rintro ⟨gap, spaced, rfl, rfl, ended⟩
    refine ⟨gap ++ inWord, ?_, rfl, rfl, ended⟩
    simpa using Trails.cons (w := inWord) spaced .nil

theorem split?_of_quoted? (found : quoted? cs = some s) : split? v cs = some s := by
  simp [split?, found]

theorem split?_of_number? (found : number? cs = some s) : split? v cs = some s := by
  have quote : quoted? cs = none := by
    cases cs with
    | nil => rfl
    | cons c cs =>
      apply quoted?_eq_none
      intro same
      subst same
      rw [number?_eq_none (by decide) (by decide)] at found
      cases found
  simp [split?, quote, found]

theorem keyword?_notIn {text : List Char}
    (found : phrase? [notWord, inWord] cs = some (text, rest)) :
    keyword? .standard cs = some ⟨.keyword, text, rest⟩ := by
  obtain ⟨k, ks, table, words⟩ : ∃ k ks, Vocabulary.standard.keywordsByWordCount = k :: ks ∧
      k.words = [notWord, inWord] := ⟨_, _, rfl, rfl⟩
  simp [keyword?, table, words, found]

theorem number?_sign (listed : c ∈ signs) (stop : Stops Char.isDigit rest) :
    number? (c :: rest) = none := by
  have sign : (c == '+' || c == '-') = true := by simpa [signs] using listed
  simp [number?, splitSign, sign, takeWhile_of_stops stop]

theorem relation?_pair (listed : c ∈ pairing) (rest : List Char) :
    relation? (c :: '=' :: rest) = some ⟨.relation, [c, '='], rest⟩ := by
  simp only [pairing, List.mem_cons, List.not_mem_nil, or_false] at listed
  rcases listed with rfl | rfl | rfl | rfl | rfl <;> simp [relation?, relations, Text.strip?]

theorem relation?_angle (listed : c ∈ angles) (ended : Stops (· == '=') rest) :
    relation? (c :: rest) = some ⟨.relation, [c], rest⟩ := by
  simp only [angles, List.mem_cons, List.not_mem_nil, or_false] at listed
  cases rest with
  | nil => rcases listed with rfl | rfl <;> simp [relation?, relations, Text.strip?]
  | cons d rest =>
    have other : ¬ '=' = d := by
      have := stops_cons.mp ended
      intro same
      subst same
      simp at this
    rcases listed with rfl | rfl <;> simp [relation?, relations, Text.strip?, other]

theorem stops_or_cons (absent : ∀ tail, rest = '=' :: tail → False) : Stops (· == '=') rest := by
  cases rest with
  | nil => exact stops_nil _
  | cons d tail =>
    rw [stops_cons, beq_eq_false_iff_ne]
    intro same
    subst same
    exact absent tail rfl

theorem relation?_eq_none (single : c ∉ angles)
    (lone : c ∈ pairing → Stops (· == '=') rest) : relation? (c :: rest) = none := by
  cases found : relation? (c :: rest) with
  | none => rfl
  | some s =>
    obtain ⟨_, listed, spelled⟩ := relation?_eq_some found
    rcases mem_relations_iff.mp listed with ⟨d, member, same⟩ | ⟨d, member, same⟩
    · rw [same] at spelled
      obtain ⟨rfl, rfl⟩ := List.cons.inj spelled
      have stop := stops_cons.mp (lone member)
      simp at stop
    · rw [same] at spelled
      obtain ⟨rfl, _⟩ := List.cons.inj spelled
      exact absurd member single

-- No other rule has a say where a relation or a mark begins.
theorem split?_fixed (other : isWordStart c = false) (quote : c ≠ '"')
    (number : number? (c :: rest) = none) :
    split? .standard (c :: rest) = (relation? (c :: rest)).or (mark? (c :: rest)) := by
  rw [split?_other Vocabulary.standard_worded other, quoted?_eq_none quote, number]
  rfl

theorem split?_symbol (listed : c ∈ symbols) (unsigned : c ∈ signs → Stops Char.isDigit rest) :
    split? .standard (c :: rest) = (relation? (c :: rest)).or (mark? (c :: rest)) := by
  obtain ⟨other, digit, quote, _⟩ := symbol_class listed
  refine split?_fixed other quote ?_
  by_cases sign : c ∈ signs
  · exact number?_sign sign (unsigned sign)
  · exact number?_eq_none digit (by simpa [signs] using sign)

theorem Reads.split? {kind : TokenKind} {text : List Char} (reads : Reads kind text rest) :
    Lexeme.split? .standard (text ++ rest) = some ⟨kind, text, rest⟩ := by
  cases reads with
  | quoted inside =>
    apply split?_of_quoted?
    simpa using quoted?_closed inside rest
  | unclosed inside =>
    apply split?_of_quoted?
    simpa using quoted?_unclosed inside
  | number signed digits decimals ended =>
    exact split?_of_number? (number?_append_of_isNumber signed digits decimals ended)
  | @phrase gap _ spaced ended =>
    have quote : quoted? (notWord ++ (gap ++ inWord) ++ rest) = none := quoted?_word (by decide)
    have number : number? (notWord ++ (gap ++ inWord) ++ rest) = none :=
      number?_eq_none (by decide) (by decide)
    have found : phrase? [notWord, inWord] (notWord ++ (gap ++ inWord) ++ rest) =
        some (notWord ++ (gap ++ inWord), rest) :=
      phrase?_notIn.mpr ⟨gap, spaced, rfl, rfl, ended⟩
    simp only [Lexeme.split?, quote, number, keyword?_notIn found, Option.none_or, Option.some_or]
  | word kinded word ended alone =>
    subst kinded
    refine split?_word Vocabulary.standard_worded word ended ?_
    intro k member several
    rw [standard_several member several]
    cases found : phrase? [notWord, inWord] (text ++ rest) with
    | none => rfl
    | some pair =>
      -- The word would be `not`, and the rest go on with `in`.
      obtain ⟨gap, spaced, spelled, same, stop⟩ := phrase?_notIn.mp found
      have first : notWord = text := phrase?_head (by decide) word ended found
      subst first
      rw [spelled, List.append_assoc, List.append_assoc] at same
      refine absurd ⟨gap, pair.2, spaced, List.append_cancel_left same, stop⟩ (alone rfl)
  | @pair c _ listed =>
    have unsigned : Stops Char.isDigit ('=' :: rest) := stops_cons.mpr (by decide)
    simp [split?_symbol (pairing_subset listed) fun _ => unsigned, relation?_pair listed rest]
  | @angle c _ listed ended =>
    have symbol := pairing_subset (angles_subset listed)
    have sign := not_sign_of_angle listed
    simp [split?_symbol symbol fun signed => absurd signed sign, relation?_angle listed ended]
  | @mark c _ listed lone unsigned =>
    have single := not_angle_of_mark listed
    have related := relation?_eq_none single lone
    simp [split?_symbol (marks_subset listed) unsigned, related, mark?, listed]

theorem quoted?_reads (found : quoted? cs = some s) : Reads s.kind s.text s.rest := by
  unfold quoted? at found
  split at found
  · rename_i body
    have inside : '"' ∉ body.takeWhile (· != '"') := by
      intro member
      have other := List.all_eq_true.mp List.all_takeWhile _ member
      simp at other
    have whole := List.takeWhile_append_dropWhile (p := (· != '"')) (l := body)
    split at found
    · rename_i none
      cases found
      rw [none, List.append_nil] at whole
      rw [whole] at inside
      exact .unclosed inside
    · rename_i close rest closed
      cases found
      have stop := stops_dropWhile (· != '"') body
      rw [closed, stops_cons] at stop
      have same : close = '"' := by simpa using stop
      subst same
      exact .quoted inside
  · cases found

theorem word_reads (start : isWordStart c = true) (found : split? .standard (c :: cs) = some s) :
    Reads s.kind s.text s.rest := by
  obtain ⟨w, rest, whole, word, ended⟩ := exists_word start cs
  rw [whole] at found
  by_cases phrase : w = notWord ∧ InFollows rest
  · obtain ⟨rfl, gap, tail, spaced, rfl, stop⟩ := phrase
    have read := (Reads.phrase spaced stop).split?
    have same : notWord ++ (gap ++ inWord) ++ tail = notWord ++ (gap ++ 'i' :: 'n' :: tail) := by
      simp [inWord]
    rw [same, found] at read
    cases read
    exact .phrase spaced stop
  · have reads : Reads (Vocabulary.standard.kindOf w) w rest :=
      .word rfl word ended fun first following => phrase ⟨first, following⟩
    have read := reads.split?
    rw [found] at read
    cases read
    exact reads

theorem symbol_reads (other : isWordStart c = false) (quote : c ≠ '"')
    (number : number? (c :: cs) = none) (found : split? .standard (c :: cs) = some s) :
    Reads s.kind s.text s.rest := by
  rw [split?_fixed other quote number] at found
  rcases Option.or_eq_some_iff.mp found with related | ⟨refused, marked⟩
  · obtain ⟨kind, listed, spelled⟩ := relation?_eq_some related
    rcases mem_relations_iff.mp listed with ⟨d, member, same⟩ | ⟨d, member, same⟩
    · rw [kind, same]
      exact .pair member
    · rw [kind, same]
      rw [same, List.singleton_append] at spelled
      obtain ⟨rfl, rest⟩ := List.cons.inj spelled
      refine .angle member (stops_or_cons fun tail equals => ?_)
      -- Before an equality sign the longer relation would have been found.
      rw [← rest, equals, relation?_pair (angles_subset member) tail] at related
      cases related
      cases same
  · by_cases listed : c ∈ marks
    · simp only [mark?, List.contains_iff_mem, listed, if_true, Option.some.injEq] at marked
      subst marked
      refine .mark listed (fun partner => stops_or_cons fun tail equals => ?_) fun sign => ?_
      · dsimp only at equals
        rw [equals, relation?_pair partner tail] at refused
        cases refused
      · have signed : (c == '+' || c == '-') = true := by simpa [signs] using sign
        cases cs with
        | nil => exact stops_nil _
        | cons d cs =>
          cases digit : d.isDigit with
          | false => exact stops_cons.mpr digit
          | true => simp [number?, splitSign, signed, digit] at number
    · simp [mark?, listed] at marked

theorem split?_reads (found : split? .standard cs = some s) : Reads s.kind s.text s.rest := by
  cases cs with
  | nil => cases found
  | cons c cs =>
    by_cases quote : c = '"'
    · subst quote
      cases closed : quoted? ('"' :: cs) with
      | none => exact absurd closed (quoted?_isSome cs)
      | some s' =>
        rw [split?_of_quoted? closed] at found
        cases found
        exact quoted?_reads closed
    · cases counted : number? (c :: cs) with
      | some s' =>
        rw [split?_of_number? counted] at found
        cases found
        obtain ⟨kind, sign, whole, fraction, signed, digits, decimals, ended, spelled⟩ :=
          number?_eq_some counted
        rw [kind, spelled]
        exact .number signed digits decimals ended
      | none =>
        cases start : isWordStart c with
        | true => exact word_reads start found
        | false => exact symbol_reads start quote counted found

theorem split?_eq_some_iff :
    split? .standard cs = some s ↔ cs = s.text ++ s.rest ∧ Reads s.kind s.text s.rest := by
  constructor
  · intro found
    exact ⟨(split?_append found).symm, split?_reads found⟩
  · intro ⟨whole, reads⟩
    rw [whole]
    exact reads.split?

theorem Reads.unique {one two : TokenKind} {text text' after : List Char}
    (first : Reads one text rest) (second : Reads two text' after)
    (same : text ++ rest = text' ++ after) : one = two ∧ text = text' ∧ rest = after := by
  have read := first.split?
  rw [same, second.split?] at read
  cases read
  exact ⟨rfl, rfl, rfl⟩

theorem opens_of_isWordStart (start : isWordStart c = true) : opens c = true := by
  simp only [isWordStart, Bool.or_eq_true] at start
  rcases start with letter | underscore
  · simp [opens, letter]
  · simp [opens, underscore]

theorem Reads.head {kind : TokenKind} {text : List Char} (reads : Reads kind text rest) :
    ∃ c cs, text = c :: cs ∧ opens c = true := by
  cases reads with
  | quoted inside => exact ⟨'"', _, rfl, by decide⟩
  | unclosed inside => exact ⟨'"', _, rfl, by decide⟩
  | number signed digits decimals ended =>
    rcases signed with rfl | rfl | rfl
    · obtain ⟨nonempty, all⟩ := digits
      obtain ⟨d, ds, rfl⟩ := List.exists_cons_of_ne_nil nonempty
      have digit := all d (List.mem_cons_self ..)
      exact ⟨d, _, rfl, by simp [opens, digit]⟩
    · exact ⟨'+', _, rfl, by decide⟩
    · exact ⟨'-', _, rfl, by decide⟩
  | phrase spaced ended => exact ⟨'n', _, rfl, by decide⟩
  | word kinded word ended alone =>
    cases text with
    | nil => cases word
    | cons c cs =>
      simp only [isWord, Bool.and_eq_true] at word
      exact ⟨c, cs, rfl, opens_of_isWordStart word.1⟩
  | pair listed =>
    exact ⟨_, _, rfl, (symbol_class (pairing_subset listed)).2.2.2⟩
  | angle listed ended =>
    exact ⟨_, _, rfl, (symbol_class (pairing_subset (angles_subset listed))).2.2.2⟩
  | mark listed lone unsigned =>
    exact ⟨_, _, rfl, (symbol_class (marks_subset listed)).2.2.2⟩

theorem split?_eq_none_iff : split? .standard (c :: cs) = none ↔ opens c = false := by
  constructor
  · exact opens_eq_false
  · intro closed
    cases found : split? .standard (c :: cs) with
    | none => rfl
    | some s =>
      obtain ⟨d, ds, text, opened⟩ := (split?_reads found).head
      have whole := split?_append found
      rw [text] at whole
      obtain ⟨rfl, _⟩ := List.cons.inj whole
      rw [opened] at closed
      cases closed

end Lexeme

end ScoreFilter

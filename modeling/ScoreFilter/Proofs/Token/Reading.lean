import ScoreFilter.Proofs.Token.Conformance

namespace ScoreFilter

namespace Lexeme

variable {kind : TokenKind} {text rest old new gap : List Char} {c : Char}

-- After white space, or none, the text goes on with the whole word `in`.
def InAhead (rest : List Char) : Prop :=
  ∃ tail, rest.dropWhile Text.isSpace = inWord ++ tail ∧ Stops isWordChar tail

theorem inAhead_append (spaces : ∀ c ∈ gap, Text.isSpace c = true) :
    InAhead (gap ++ rest) ↔ InAhead rest := by
  rw [InAhead, InAhead, List.dropWhile_append_of_pos spaces]

theorem inAhead_of_stops (stop : Stops Text.isSpace rest) :
    InAhead rest ↔ ∃ tail, rest = inWord ++ tail ∧ Stops isWordChar tail := by
  rw [InAhead, dropWhile_of_stops stop]

theorem inAhead_word (word : isWord text = true) (ended : Stops isWordChar rest) :
    InAhead (text ++ rest) ↔ text = inWord := by
  have stop : Stops Text.isSpace (text ++ rest) :=
    (stops_append (isWord_ne_nil word)).mpr (stops_isSpace_of_isWord word)
  rw [inAhead_of_stops stop]
  constructor
  · intro ⟨tail, same, stop⟩
    have all : ∀ c ∈ inWord, isWordChar c = true := isWord_all (by decide)
    exact (run_unique (isWord_all word) ended all stop same).1
  · intro same
    exact ⟨rest, by rw [same], ended⟩

theorem not_inAhead_nil : ¬ InAhead [] := by
  rintro ⟨tail, same, _⟩
  cases same

theorem inFollows_cons :
    InFollows (c :: rest) ↔ Text.isSpace c = true ∧ InAhead rest := by
  constructor
  · intro ⟨gap, tail, spaced, same, ended⟩
    obtain ⟨d, gap, rfl⟩ := List.exists_cons_of_ne_nil spaced.1
    obtain ⟨rfl, rfl⟩ := List.cons.inj same
    have inner : ∀ c ∈ gap, Text.isSpace c = true :=
      fun c member => spaced.2 c (List.mem_cons_of_mem _ member)
    refine ⟨spaced.2 _ (List.mem_cons_self ..), (inAhead_append inner).mpr ?_⟩
    exact (inAhead_of_stops (stops_cons.mpr (by decide))).mpr ⟨tail, rfl, ended⟩
  · intro ⟨space, tail, same, ended⟩
    refine ⟨c :: rest.takeWhile Text.isSpace, tail, ⟨by simp, ?_⟩, ?_, ended⟩
    · intro d member
      rcases List.mem_cons.mp member with first | later
      · rw [first]
        exact space
      · exact List.all_eq_true.mp List.all_takeWhile d later
    · have whole := List.takeWhile_append_dropWhile (p := Text.isSpace) (l := rest)
      rw [same] at whole
      exact congrArg (c :: ·) whole.symm

theorem inFollows_gap (spaced : IsGap gap) : InFollows (gap ++ rest) ↔ InAhead rest := by
  obtain ⟨c, gap, rfl⟩ := List.exists_cons_of_ne_nil spaced.1
  have inner : ∀ d ∈ gap, Text.isSpace d = true :=
    fun d member => spaced.2 d (List.mem_cons_of_mem _ member)
  rw [List.cons_append, inFollows_cons, inAhead_append inner]
  exact and_iff_right (spaced.2 c (List.mem_cons_self ..))

theorem Reads.not_inFollows (reads : Reads kind notWord rest) : ¬ InFollows rest := by
  obtain ⟨_, ⟨_, gap, spaced, phrase⟩ | ⟨_, _, alone⟩⟩ :=
    reads.cases_word ⟨'n', _, rfl, by decide⟩
  · have word : Lexeme.isWord notWord = true := by decide
    rw [phrase, isWord_phrase spaced] at word
    cases word
  · exact alone rfl

-- All that a lexeme looks at is the next character, but for a number before a point and for `not`
-- before white space.
theorem Reads.next (reads : Reads kind text (c :: old))
    (point : c = '.' → Stops Char.isDigit old → Stops Char.isDigit new)
    (space : text = notWord → ¬ InFollows (c :: old) → ¬ InFollows (c :: new)) :
    Reads kind text (c :: new) := by
  cases reads with
  | quoted inside => exact .quoted inside
  | number signed digits decimals ended =>
    refine .number signed digits decimals ⟨ended.1.next new, ?_⟩
    intro whole ds same
    obtain ⟨rfl, rfl⟩ := List.cons.inj same
    exact point rfl (ended.2 whole old rfl)
  | phrase spaced ended => exact .phrase spaced (ended.next new)
  | word kinded word ended alone =>
    refine .word kinded word (ended.next new) ?_
    intro negation
    exact space negation (alone negation)
  | pair listed => exact .pair listed
  | angle listed ended => exact .angle listed (ended.next new)
  | mark listed lone unsigned =>
    refine .mark listed ?_ ?_
    · intro partner
      exact (lone partner).next new
    · intro sign
      exact (unsigned sign).next new

-- Texts that share their beginning, if it is more than a point and leaves no doubt about `in`.
theorem Reads.shared {seen : List Char} (reads : Reads kind text (seen ++ old)) (some_seen : seen ≠ [])
    (more : seen ≠ ['.']) (ahead : InAhead (seen ++ new) → InAhead (seen ++ old)) :
    Reads kind text (seen ++ new) := by
  obtain ⟨c, cs, rfl⟩ := List.exists_cons_of_ne_nil some_seen
  refine reads.next ?_ ?_
  · intro point stop
    have later : cs ≠ [] := by
      intro none
      exact more (by rw [point, none])
    exact (stops_append later).mpr ((stops_append later).mp stop)
  · intro _ alone following
    obtain ⟨space, next⟩ := inFollows_cons.mp following
    have spaces : ∀ d ∈ [c], Text.isSpace d = true := by simpa using space
    have here := ahead ((inAhead_append spaces).mpr next)
    exact alone (inFollows_cons.mpr ⟨space, (inAhead_append spaces).mp here⟩)

theorem BeginsWord.stops_digit (starts : BeginsWord text) : Stops Char.isDigit text := by
  obtain ⟨c, cs, rfl, start⟩ := starts
  exact stops_cons.mpr (isDigit_of_isWordStart start)

theorem Reads.before_word (reads : Reads kind text old) (plain : kind.isWord = false)
    (closed : kind ≠ .unclosed) (starts : BeginsWord new) : Reads kind text new := by
  have digit := starts.stops_digit
  obtain ⟨c, cs, rfl, start⟩ := starts
  have equals : Stops (· == '=') (c :: cs) := by
    apply stops_or_cons
    intro tail same
    obtain ⟨rfl, _⟩ := List.cons.inj same
    cases start
  cases reads with
  | quoted inside => exact .quoted inside
  | unclosed inside => exact absurd rfl closed
  | number signed digits decimals ended =>
    refine .number signed digits decimals ⟨digit, ?_⟩
    intro _ ds same
    obtain ⟨rfl, _⟩ := List.cons.inj same
    cases start
  | phrase spaced ended => cases plain
  | word kinded word ended alone => exact absurd kinded (kindOf_ne plain)
  | pair listed => exact .pair listed
  | angle listed ended => exact .angle listed equals
  | mark listed lone unsigned => exact .mark listed (fun _ => equals) (fun _ => digit)

theorem Reads.loose (reads : Reads kind text (c :: rest)) (inside : isWordChar c = true) :
    kind.isWord = false ∧ kind ≠ .unclosed := by
  constructor
  · rw [Bool.eq_false_iff]
    intro worded
    have ended := (reads.cases_word (reads.isWord_iff.mp worded)).1
    rw [stops_cons, inside] at ended
    cases ended
  · intro same
    subst same
    cases reads.swallowing.1

theorem Reads.kind_alone (reads : Reads kind [c] rest) (listed : c ∈ marks) (single : c ∉ pairing)
    (unsigned : c ∉ signs) : kind = .mark :=
  (reads.unique (.alone listed single unsigned rest) rfl).1

theorem Reads.opening (reads : Reads kind text rest) (opened : text = ['('] ∨ text = ['.']) :
    kind = .mark := by
  rcases opened with rfl | rfl
  · exact reads.kind_alone (by decide) (by decide) (by decide)
  · exact reads.kind_alone (by decide) (by decide) (by decide)

theorem isSpace_of_opens (opened : opens c = true) : Text.isSpace c = false := by
  simp only [opens, Bool.or_eq_true, beq_iff_eq, List.contains_iff_mem] at opened
  rcases opened with (((quote | letter) | digit) | underscore) | symbol
  · rw [quote]
    decide
  · exact isSpace_of_isWordChar (by simp [isWordChar, Char.isAlphanum, letter])
  · exact isSpace_of_isWordChar (by simp [isWordChar, Char.isAlphanum, digit])
  · exact isSpace_of_isWordChar (by simp [isWordChar, underscore])
  · have every : ['=', '!', '~', '<', '>', '+', '-', '*', '/', '^', '(', ')', ',', '.'].all
        (fun c => !Text.isSpace c) = true := by decide
    simpa using List.all_eq_true.mp every c symbol

-- Whether the whole word `in` comes first is for the first lexeme to say, so long as no word goes
-- on behind it.
theorem Reads.inAhead_iff (reads : Reads kind text old)
    (ended : kind.isWord = true → Stops isWordChar rest) :
    InAhead (text ++ rest) ↔ text = inWord := by
  obtain ⟨c, cs, first, opened⟩ := reads.head
  have stop : Stops Text.isSpace (text ++ rest) := by
    rw [first]
    exact stops_cons.mpr (isSpace_of_opens opened)
  rw [inAhead_of_stops stop]
  constructor
  · rintro ⟨tail, same, stop'⟩
    have starts : BeginsWord text := by
      rw [first] at same
      obtain ⟨rfl, _⟩ := List.cons.inj same
      exact ⟨_, cs, first, by decide⟩
    have ended' := ended (reads.isWord_iff.mpr starts)
    obtain ⟨_, ⟨_, gap, _, phrase⟩ | ⟨_, word, _⟩⟩ := reads.cases_word starts
    · rw [phrase] at same
      cases same
    · have all : ∀ c ∈ inWord, isWordChar c = true := isWord_all (by decide)
      exact (run_unique (isWord_all word) ended' all stop' same).1
  · intro same
    subst same
    exact ⟨rest, rfl, ended (reads.isWord_iff.mpr ⟨'i', _, rfl, by decide⟩)⟩

-- Before a blank, or with nothing behind it, a lexeme stays what it is. Only an open quote goes on,
-- and only `not` looks beyond the blank.
theorem Reads.before_blank (reads : Reads kind text rest) (blank : Stops (· != ' ') new)
    (closed : kind = .unclosed → new = []) (apart : text = notWord → ¬ InFollows new) :
    Reads kind text new := by
  have stop : ∀ p : Char → Bool, p ' ' = false → Stops p new := by
    intro p outside c next
    have same : c = ' ' := by simpa using blank c next
    rw [same]
    exact outside
  cases reads with
  | quoted inside => exact .quoted inside
  | unclosed inside =>
    rw [closed rfl]
    exact .unclosed inside
  | number signed digits decimals ended =>
    refine .number signed digits decimals ⟨stop _ rfl, ?_⟩
    intro _ ds point
    rw [point] at blank
    cases stops_cons.mp blank
  | phrase spaced ended => exact .phrase spaced (stop _ rfl)
  | word kinded word ended alone => exact .word kinded word (stop _ rfl) apart
  | pair listed => exact .pair listed
  | angle listed ended => exact .angle listed (stop _ rfl)
  | mark listed lone unsigned => exact .mark listed (fun _ => stop _ rfl) fun _ => stop _ rfl

end Lexeme

namespace Piece

variable {pieces others front back later : List Piece} {after old new : List Char}

-- The pieces are those that the grammar reads in front of `after`.
def Reading : List Piece → List Char → Prop
  | [], _ => True
  | .lexeme kind text :: later, after =>
    Lexeme.Reads kind text (textOf later ++ after) ∧ Reading later after
  | .gap c :: later, after => Lexeme.opens c = false ∧ Reading later after

theorem reading_append :
    Reading (front ++ back) after ↔ Reading front (textOf back ++ after) ∧ Reading back after := by
  induction front with
  | nil => simp [Reading]
  | cons p front ih =>
    cases p with
    | lexeme kind text =>
      simp only [List.cons_append, Reading, ih, textOf_append, List.append_assoc, and_assoc]
    | gap c => simp only [List.cons_append, Reading, ih, and_assoc]

theorem Reading.scan (reading : Reading pieces []) : Scan .standard (textOf pieces) pieces := by
  induction pieces with
  | nil => exact .done
  | cons p pieces ih =>
    cases p with
    | lexeme kind text =>
      obtain ⟨reads, later⟩ := reading
      rw [List.append_nil] at reads
      have more : textOf (.lexeme kind text :: pieces) ≠ [] := by
        obtain ⟨c, cs, rfl, _⟩ := reads.head
        simp [Piece.text]
      exact .lexeme more reads.split? (ih later)
    | gap c => exact .gap (Lexeme.split?_eq_none_iff.mpr reading.1) (ih reading.2)

theorem reading_of_scan {cs : List Char} (run : Scan .standard cs pieces) : Reading pieces [] := by
  induction run with
  | done => trivial
  | lexeme _ found later ih =>
    refine ⟨?_, ih⟩
    rw [List.append_nil, later.textOf]
    exact Lexeme.split?_reads found
  | gap refused _ ih => exact ⟨Lexeme.split?_eq_none_iff.mp refused, ih⟩

theorem ofText_eq_iff {cs : List Char} :
    ofText .standard cs = pieces ↔ textOf pieces = cs ∧ Reading pieces [] := by
  have run := Scan.ofText Vocabulary.standard_wellFormed cs
  constructor
  · intro same
    subst same
    exact ⟨run.textOf, reading_of_scan run⟩
  · intro ⟨spelled, reading⟩
    have other := reading.scan
    rw [spelled] at other
    exact run.unique other

theorem reading_ofText (cs : List Char) : Reading (ofText .standard cs) [] :=
  (ofText_eq_iff.mp rfl).2

theorem ofText_append {cs : List Char} (reading : Reading front cs) :
    ofText .standard (textOf front ++ cs) = front ++ ofText .standard cs := by
  refine ofText_eq_iff.mpr ⟨by simp, reading_append.mpr ⟨?_, reading_ofText cs⟩⟩
  rw [textOf_ofText, List.append_nil]
  exact reading

theorem ofText_lexeme {kind : TokenKind} {text cs : List Char} (reads : Lexeme.Reads kind text cs) :
    ofText .standard (text ++ cs) = .lexeme kind text :: ofText .standard cs := by
  have reading : Reading [.lexeme kind text] cs := ⟨reads, trivial⟩
  have whole := ofText_append reading
  simpa [Piece.text] using whole

theorem ofText_gap {c : Char} (closed : Lexeme.opens c = false) (cs : List Char) :
    ofText .standard (c :: cs) = .gap c :: ofText .standard cs := by
  have reading : Reading [.gap c] cs := ⟨closed, trivial⟩
  exact ofText_append reading

def Told : Piece → Prop
  | .lexeme _ text => ∃ c cs, text = c :: cs ∧ Lexeme.opens c = true
  | .gap c => Lexeme.opens c = false

theorem Reading.told (reading : Reading pieces after) : ∀ p ∈ pieces, p.Told := by
  induction pieces with
  | nil => simp
  | cons p pieces ih =>
    cases p with
    | lexeme kind text => exact List.forall_mem_cons.mpr ⟨reading.1.head, ih reading.2⟩
    | gap c => exact List.forall_mem_cons.mpr ⟨reading.1, ih reading.2⟩

-- A text and its lexemes leave one way to place the gaps.
theorem eq_of_told (told : ∀ p ∈ pieces, p.Told) (told' : ∀ p ∈ others, p.Told)
    (same : lexemes pieces = lexemes others) (spelled : textOf pieces = textOf others) :
    pieces = others := by
  induction pieces generalizing others with
  | nil =>
    cases others with
    | nil => rfl
    | cons q others =>
      cases q with
      | lexeme kind text => cases same
      | gap c => cases spelled
  | cons p pieces ih =>
    obtain ⟨here, rest⟩ := List.forall_mem_cons.mp told
    cases others with
    | nil =>
      cases p with
      | lexeme kind text => cases same
      | gap c => cases spelled
    | cons q others =>
      obtain ⟨here', rest'⟩ := List.forall_mem_cons.mp told'
      cases p with
      | lexeme kind text =>
        cases q with
        | lexeme kind' text' =>
          simp only [lexemes, List.cons.injEq, Prod.mk.injEq] at same
          obtain ⟨⟨rfl, rfl⟩, later⟩ := same
          rw [ih rest rest' later (List.append_cancel_left spelled)]
        | gap c =>
          obtain ⟨d, ds, rfl, opened⟩ := here
          obtain ⟨rfl, _⟩ := List.cons.inj spelled
          rw [Told, opened] at here'
          cases here'
      | gap c =>
        cases q with
        | lexeme kind text =>
          obtain ⟨d, ds, rfl, opened⟩ := here'
          obtain ⟨rfl, _⟩ := List.cons.inj spelled
          rw [Told, opened] at here
          cases here
        | gap d =>
          obtain ⟨rfl, later⟩ := List.cons.inj spelled
          rw [ih rest rest' same later]

theorem Reading.eq_nil (reading : Reading pieces after) (empty : textOf pieces = []) :
    pieces = [] := by
  cases pieces with
  | nil => rfl
  | cons p pieces =>
    cases p with
    | lexeme kind text =>
      obtain ⟨c, cs, rfl, _⟩ := reading.1.head
      cases empty
    | gap c => cases empty

theorem Reading.place_spaces (reading : Reading pieces after)
    (spaces : ∀ c ∈ textOf pieces, Text.isSpace c = true) (offset : Nat) :
    place offset pieces = [] := by
  induction pieces generalizing offset with
  | nil => rfl
  | cons p pieces ih =>
    rw [textOf_cons] at spaces
    cases p with
    | lexeme kind text =>
      obtain ⟨c, cs, rfl, opened⟩ := reading.1.head
      have space := spaces c (by simp [Piece.text])
      rw [Lexeme.isSpace_of_opens opened] at space
      cases space
    | gap c =>
      exact ih reading.2 (fun d member => spaces d (List.mem_append_right _ member)) _

def LeadsIn (pieces : List Piece) : Prop :=
  ∃ gaps back, pieces = gaps ++ .lexeme .keyword Lexeme.inWord :: back ∧
    ∀ c ∈ textOf gaps, Text.isSpace c = true

theorem leadsIn_gap {c : Char} :
    LeadsIn (.gap c :: pieces) ↔ Text.isSpace c = true ∧ LeadsIn pieces := by
  constructor
  · rintro ⟨gaps, back, same, spaces⟩
    cases gaps with
    | nil => cases same
    | cons p gaps =>
      obtain ⟨rfl, rfl⟩ := List.cons.inj same
      refine ⟨spaces c (by simp [Piece.text]), gaps, back, rfl, ?_⟩
      intro d member
      exact spaces d (by simp [member])
  · rintro ⟨space, gaps, back, rfl, spaces⟩
    refine ⟨.gap c :: gaps, back, rfl, ?_⟩
    simpa [Piece.text, space] using spaces

theorem leadsIn_lexeme {kind : TokenKind} {text : List Char} (reads : Lexeme.Reads kind text old) :
    LeadsIn (.lexeme kind text :: pieces) ↔ text = Lexeme.inWord := by
  constructor
  · rintro ⟨gaps, back, same, spaces⟩
    cases gaps with
    | nil =>
      cases same
      rfl
    | cons p gaps =>
      -- A lexeme does not begin with white space.
      obtain ⟨rfl, _⟩ := List.cons.inj same
      obtain ⟨c, cs, rfl, opened⟩ := reads.head
      have space := spaces c (by simp [Piece.text])
      rw [Lexeme.isSpace_of_opens opened] at space
      cases space
  · intro same
    subst same
    have keyword : Vocabulary.standard.kindOf Lexeme.inWord = .keyword :=
      Lexeme.kindOf_keyword_iff.mpr (.inl (by decide))
    obtain ⟨kinded, _⟩ := reads.kindOf (by decide)
    refine ⟨[], pieces, ?_, by simp⟩
    rw [← kinded, keyword]
    rfl

-- Whether `in` comes next is settled by the pieces, unless they are white space or end with the
-- word in question.
theorem Reading.inAhead_iff (reading : Reading pieces old)
    (blank : (∀ c ∈ textOf pieces, Text.isSpace c = true) → ¬ Lexeme.InAhead new)
    (stop : ∀ gaps kind text, pieces = gaps ++ [.lexeme kind text] →
      (∀ c ∈ textOf gaps, Text.isSpace c = true) → kind.isWord = true →
      Lexeme.Stops Lexeme.isWordChar new) :
    Lexeme.InAhead (textOf pieces ++ new) ↔ LeadsIn pieces := by
  induction pieces with
  | nil =>
    constructor
    · intro ahead
      exact absurd ahead (blank (by simp))
    · rintro ⟨gaps, back, same, _⟩
      simp at same
  | cons p pieces ih =>
    rw [textOf_cons, List.append_assoc]
    cases p with
    | gap c =>
      cases space : Text.isSpace c with
      | true =>
        have spaces : ∀ d ∈ Piece.text (.gap c), Text.isSpace d = true := by
          simpa [Piece.text] using space
        rw [Lexeme.inAhead_append spaces, leadsIn_gap, and_iff_right space]
        refine ih reading.2 ?_ ?_
        · intro all
          apply blank
          simpa [Piece.text, space] using all
        · intro gaps kind text same inner
          refine stop (.gap c :: gaps) kind text (congrArg (.gap c :: ·) same) ?_
          simpa [Piece.text, space] using inner
      | false =>
        constructor
        · -- The next character would be an `i`, which is no gap.
          intro ahead
          obtain ⟨tail, same, _⟩ :=
            (Lexeme.inAhead_of_stops (Lexeme.stops_cons.mpr space)).mp ahead
          obtain ⟨rfl, _⟩ := List.cons.inj same
          cases reading.1
        · intro leads
          rw [(leadsIn_gap.mp leads).1] at space
          cases space
    | lexeme kind text =>
      obtain ⟨reads, later⟩ := reading
      rw [leadsIn_lexeme reads, Piece.text]
      apply reads.inAhead_iff
      intro worded
      by_cases last : textOf pieces = []
      · have none := later.eq_nil last
        subst none
        exact stop [] kind text rfl (by simp) worded
      · have ended := (reads.cases_word (reads.isWord_iff.mp worded)).1
        rw [Lexeme.stops_append last] at ended ⊢
        exact ended

theorem Reading.leadsIn_iff (reading : Reading pieces after)
    (blank : (∀ c ∈ textOf pieces, Text.isSpace c = true) → ¬ Lexeme.InAhead after) :
    Lexeme.InAhead (textOf pieces ++ after) ↔ LeadsIn pieces := by
  refine reading.inAhead_iff blank ?_
  intro gaps kind text same _ worded
  subst same
  obtain ⟨_, reads, _⟩ := reading_append.mp reading
  exact (reads.cases_word (reads.isWord_iff.mp worded)).1

-- So little comes before the end that a lexeme in front of it can look beyond.
def Near (tail : List Piece) : Prop :=
  textOf tail = ['.'] ∨ ∀ c ∈ textOf tail, Text.isSpace c = true

theorem Reading.reads_of_far {kind : TokenKind} {text : List Char} (reading : Reading later old)
    (again : Reading later new) (far : ¬ Near later)
    (reads : Lexeme.Reads kind text (textOf later ++ old)) :
    Lexeme.Reads kind text (textOf later ++ new) := by
  refine reads.shared ?_ (fun lone => far (.inl lone)) ?_
  · intro none
    exact far (.inr (by simp [none]))
  · rw [reading.leadsIn_iff fun spaces => absurd (.inr spaces) far,
      again.leadsIn_iff fun spaces => absurd (.inr spaces) far]
    exact id

theorem Reading.exchange (reading : Reading pieces old)
    (near : ∀ front kind text tail, pieces = front ++ .lexeme kind text :: tail → Near tail →
      Lexeme.Reads kind text (textOf tail ++ new)) : Reading pieces new := by
  induction pieces with
  | nil => trivial
  | cons p pieces ih =>
    have later : ∀ front kind text tail, pieces = front ++ .lexeme kind text :: tail →
        Near tail → Lexeme.Reads kind text (textOf tail ++ new) := by
      intro front kind text tail same
      exact near (p :: front) kind text tail (congrArg (p :: ·) same)
    cases p with
    | gap c => exact ⟨reading.1, ih reading.2 later⟩
    | lexeme kind text =>
      have again := ih reading.2 later
      refine ⟨?_, again⟩
      by_cases close : Near pieces
      · exact near [] kind text pieces rfl close
      · exact reading.2.reads_of_far again close reading.1

-- Another text may come behind the pieces if the lexeme that ends there reads the same before it,
-- a number before a point gets no digits from it, and no `not` is waiting for it.
theorem Reading.before_text (reading : Reading pieces old)
    (next : ∀ front kind text, pieces = front ++ [.lexeme kind text] →
      Lexeme.Reads kind text old → Lexeme.Reads kind text new)
    (point : ∀ front tail, pieces = front ++ tail → textOf tail = ['.'] →
      Lexeme.Stops Char.isDigit new)
    (apart : ∀ front gaps, pieces = front ++ .lexeme .keyword Lexeme.notWord :: gaps →
      (∀ c ∈ textOf gaps, Text.isSpace c = true) → ¬ Lexeme.InAhead new) :
    Reading pieces new := by
  apply reading.exchange
  intro front kind text tail same near
  subst same
  obtain ⟨_, reads, after⟩ := reading_append.mp reading
  cases spelled : textOf tail with
  | nil =>
    have last := after.eq_nil spelled
    subst last
    exact next front kind text rfl reads
  | cons c cs =>
    rw [spelled] at reads
    refine reads.next ?_ ?_
    · intro dot _
      subst dot
      rcases near with lone | spaces
      · have ended := point (front ++ [.lexeme kind text]) tail (by simp) lone
        rw [spelled] at lone
        obtain ⟨_, rfl⟩ := List.cons.inj lone
        exact ended
      · cases spaces '.' (by simp [spelled])
    · intro negation _ following
      obtain ⟨space, ahead⟩ := Lexeme.inFollows_cons.mp following
      have spaces : ∀ d ∈ textOf tail, Text.isSpace d = true := by
        rcases near with lone | spaces
        · rw [spelled] at lone
          obtain ⟨rfl, _⟩ := List.cons.inj lone
          cases space
        · exact spaces
      subst negation
      obtain ⟨kinded, _⟩ := reads.kindOf (by decide)
      have inner : ∀ d ∈ cs, Text.isSpace d = true :=
        fun d member => spaces d (by simp [spelled, member])
      refine apart front tail ?_ spaces ((Lexeme.inAhead_append inner).mp ahead)
      rw [← kinded]
      rfl

theorem Reading.before_word (reading : Reading pieces old) (starts : Lexeme.BeginsWord new)
    (loose : ∀ front kind text, pieces = front ++ [.lexeme kind text] →
      kind.isWord = false ∧ kind ≠ .unclosed)
    (apart : ∀ front gaps, pieces = front ++ .lexeme .keyword Lexeme.notWord :: gaps →
      (∀ c ∈ textOf gaps, Text.isSpace c = true) → ¬ Lexeme.InAhead new) :
    Reading pieces new := by
  refine reading.before_text ?_ (fun _ _ _ _ => starts.stops_digit) apart
  intro front kind text last reads
  obtain ⟨plain, closed⟩ := loose front kind text last
  exact reads.before_word plain closed starts

theorem reading_word {w : List Char} (word : Lexeme.isWord w = true)
    (ended : Lexeme.Stops Lexeme.isWordChar after)
    (alone : w = Lexeme.notWord → ¬ Lexeme.InFollows after) :
    Reading [.lexeme (Vocabulary.standard.kindOf w) w] after :=
  ⟨.word rfl word ended alone, trivial⟩

end Piece

end ScoreFilter

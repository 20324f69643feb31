import ScoreFilter.Proofs.Token.Coverage

namespace ScoreFilter.Lexeme

variable {p : Char → Bool} {cs run rest : List Char}

-- No character of the class comes next.
def Stops (p : Char → Bool) (cs : List Char) : Prop :=
  ∀ c ∈ cs.head?, p c = false

theorem stops_nil (p : Char → Bool) : Stops p [] := by
  intro c none
  cases none

theorem stops_cons {c : Char} : Stops p (c :: cs) ↔ p c = false := by
  simp [Stops]

theorem Stops.next {c : Char} (stop : Stops p (c :: cs)) (rest : List Char) : Stops p (c :: rest) :=
  stops_cons.mpr (stops_cons.mp stop)

theorem stops_append (nonempty : cs ≠ []) : Stops p (cs ++ rest) ↔ Stops p cs := by
  cases cs with
  | nil => exact absurd rfl nonempty
  | cons c cs => simp only [List.cons_append, stops_cons]

theorem stops_dropWhile (p : Char → Bool) (cs : List Char) : Stops p (cs.dropWhile p) := by
  induction cs with
  | nil => exact stops_nil p
  | cons c cs ih =>
    cases inside : p c with
    | false => simp [inside, stops_cons]
    | true => simpa [inside] using ih

theorem takeWhile_of_stops (stop : Stops p rest) : rest.takeWhile p = [] := by
  cases rest with
  | nil => rfl
  | cons c rest => simp [stops_cons.mp stop]

theorem dropWhile_of_stops (stop : Stops p rest) : rest.dropWhile p = rest := by
  cases rest with
  | nil => rfl
  | cons c rest => simp [stops_cons.mp stop]

theorem takeWhile_run (all : ∀ c ∈ run, p c = true) (stop : Stops p rest) :
    (run ++ rest).takeWhile p = run := by
  rw [List.takeWhile_append_of_pos all, takeWhile_of_stops stop, List.append_nil]

theorem dropWhile_run (all : ∀ c ∈ run, p c = true) (stop : Stops p rest) :
    (run ++ rest).dropWhile p = rest := by
  rw [List.dropWhile_append_of_pos all, dropWhile_of_stops stop]

theorem run_unique {other rest' : List Char} (all : ∀ c ∈ run, p c = true) (stop : Stops p rest)
    (all' : ∀ c ∈ other, p c = true) (stop' : Stops p rest') (same : run ++ rest = other ++ rest') :
    run = other ∧ rest = rest' := by
  have runs := takeWhile_run all stop
  have rests := dropWhile_run all stop
  rw [same, takeWhile_run all' stop'] at runs
  rw [same, dropWhile_run all' stop'] at rests
  exact ⟨runs.symm, rests.symm⟩

theorem atWordEnd_iff : atWordEnd cs = true ↔ Stops isWordChar cs := by
  cases cs with
  | nil => simp [atWordEnd, stops_nil]
  | cons c cs => simp [atWordEnd, stops_cons]

def isWord : List Char → Bool
  | [] => false
  | c :: cs => isWordStart c && cs.all isWordChar

theorem isWordChar_of_isWordStart {c : Char} (start : isWordStart c = true) :
    isWordChar c = true := by
  simp only [isWordStart, Bool.or_eq_true] at start
  rcases start with letter | underscore
  · simp [isWordChar, Char.isAlphanum, letter]
  · simp [isWordChar, underscore]

theorem isWord_all {w : List Char} (word : isWord w = true) : ∀ c ∈ w, isWordChar c = true := by
  cases w with
  | nil => cases word
  | cons c cs =>
    simp only [isWord, Bool.and_eq_true, List.all_eq_true] at word
    intro d member
    rcases List.mem_cons.mp member with rfl | later
    · exact isWordChar_of_isWordStart word.1
    · exact word.2 d later

theorem isWord_ne_nil {w : List Char} (word : isWord w = true) : w ≠ [] := by
  rintro rfl
  cases word

def IsDigits (ds : List Char) : Prop :=
  ds ≠ [] ∧ ∀ c ∈ ds, c.isDigit = true

def IsSign (cs : List Char) : Prop :=
  cs = [] ∨ cs = ['+'] ∨ cs = ['-']

def IsFraction (cs : List Char) : Prop :=
  cs = [] ∨ ∃ ds, IsDigits ds ∧ cs = '.' :: ds

-- `[+-]?[0-9]+(\.[0-9]+)?`
def IsNumber (text : List Char) : Prop :=
  ∃ sign whole fraction, IsSign sign ∧ IsDigits whole ∧ IsFraction fraction ∧
    text = sign ++ (whole ++ fraction)

theorem mem_number {text : List Char} {c : Char} (numeral : IsNumber text) (member : c ∈ text) :
    c = '+' ∨ c = '-' ∨ c = '.' ∨ c.isDigit = true := by
  obtain ⟨sign, whole, fraction, signed, digits, decimals, rfl⟩ := numeral
  rcases List.mem_append.mp member with first | later
  · rcases signed with rfl | rfl | rfl
    · cases first
    · exact .inl (List.mem_singleton.mp first)
    · exact .inr (.inl (List.mem_singleton.mp first))
  · rcases List.mem_append.mp later with inside | inside
    · exact .inr (.inr (.inr (digits.2 c inside)))
    · rcases decimals with rfl | ⟨ds, run, rfl⟩
      · cases inside
      · rcases List.mem_cons.mp inside with point | digit
        · exact .inr (.inr (.inl point))
        · exact .inr (.inr (.inr (run.2 c digit)))

def EndsNumber (fraction rest : List Char) : Prop :=
  Stops Char.isDigit rest ∧ (fraction = [] → ∀ ds, rest = '.' :: ds → Stops Char.isDigit ds)

def IsGap (gap : List Char) : Prop :=
  gap ≠ [] ∧ ∀ c ∈ gap, Text.isSpace c = true

-- The words in order, each behind white space.
inductive Trails : List (List Char) → List Char → Prop where
  | nil : Trails [] []
  | cons {w : List Char} {ws : List (List Char)} {gap text : List Char} (spaced : IsGap gap)
      (later : Trails ws text) : Trails (w :: ws) (gap ++ (w ++ text))

theorem splitSign_sign {sign : List Char} (signed : IsSign sign)
    (unsigned : Stops (fun c => c == '+' || c == '-') rest) :
    splitSign (sign ++ rest) = (sign, rest) := by
  rcases signed with rfl | rfl | rfl
  · cases rest with
    | nil => rfl
    | cons c rest =>
      have plain := stops_cons.mp unsigned
      simp [splitSign, plain]
  · rfl
  · rfl

theorem splitSign_isSign (cs : List Char) : IsSign (splitSign cs).1 := by
  unfold splitSign
  split
  · exact .inl rfl
  · split
    · rename_i sign
      simpa [IsSign] using sign
    · exact .inl rfl

theorem splitFraction_fraction {fraction : List Char} (decimals : IsFraction fraction)
    (ended : EndsNumber fraction rest) : splitFraction (fraction ++ rest) = (fraction, rest) := by
  rcases decimals with rfl | ⟨ds, ⟨nonempty, digits⟩, rfl⟩
  · cases rest with
    | nil => rfl
    | cons c rest =>
      by_cases point : c = '.'
      · subst point
        have none := takeWhile_of_stops (ended.2 rfl rest rfl)
        simp [splitFraction, none]
      · simp [splitFraction, point]
  · have taken := takeWhile_run digits ended.1
    have dropped := dropWhile_run digits ended.1
    simp [splitFraction, taken, dropped, nonempty]

theorem splitFraction_isFraction (cs : List Char) (stop : Stops Char.isDigit cs) :
    IsFraction (splitFraction cs).1 ∧ EndsNumber (splitFraction cs).1 (splitFraction cs).2 := by
  unfold splitFraction
  split
  · exact ⟨.inl rfl, stops_nil _, by simp⟩
  · rename_i c cs
    split
    · rename_i divided
      simp only [Bool.and_eq_true, beq_iff_eq, Bool.not_eq_true',
        List.isEmpty_eq_false_iff] at divided
      obtain ⟨rfl, nonempty⟩ := divided
      refine ⟨.inr ⟨_, ⟨nonempty, fun d member => ?_⟩, rfl⟩, stops_dropWhile _ _, by simp⟩
      exact List.all_eq_true.mp List.all_takeWhile d member
    · rename_i undivided
      refine ⟨.inl rfl, stop, ?_⟩
      rintro - ds same
      cases same
      cases cs with
      | nil => exact stops_nil _
      | cons d cs =>
        cases digit : d.isDigit with
        | false => exact stops_cons.mpr digit
        | true => simp [digit] at undivided

theorem number?_eq_some {s : Split} (h : number? cs = some s) :
    s.kind = .number ∧ ∃ sign whole fraction, IsSign sign ∧ IsDigits whole ∧ IsFraction fraction ∧
      EndsNumber fraction s.rest ∧ s.text = sign ++ (whole ++ fraction) := by
  unfold number? at h
  dsimp only at h
  split at h
  · cases h
  · rename_i digits
    cases h
    have fraction := splitFraction_isFraction _ (stops_dropWhile Char.isDigit (splitSign cs).2)
    refine ⟨rfl, _, _, _, splitSign_isSign cs, ⟨by simpa using digits, ?_⟩, fraction.1, fraction.2,
      List.append_assoc ..⟩
    intro d member
    exact List.all_eq_true.mp List.all_takeWhile d member

theorem stops_sign {digits : List Char} (run : IsDigits digits) (tail : List Char) :
    Stops (fun c => c == '+' || c == '-') (digits ++ tail) := by
  rw [stops_append run.1]
  intro c first
  have digit := run.2 c (List.mem_of_mem_head? first)
  have plus : c ≠ '+' := by rintro rfl; cases digit
  have minus : c ≠ '-' := by rintro rfl; cases digit
  simp [plus, minus]

theorem number?_append_of_isNumber {sign whole fraction : List Char} (signed : IsSign sign)
    (digits : IsDigits whole) (decimals : IsFraction fraction) (ended : EndsNumber fraction rest) :
    number? (sign ++ (whole ++ fraction) ++ rest) =
      some ⟨.number, sign ++ (whole ++ fraction), rest⟩ := by
  have unsigned := stops_sign digits (fraction ++ rest)
  obtain ⟨nonempty, all⟩ := digits
  have stop : Stops Char.isDigit (fraction ++ rest) := by
    rcases decimals with rfl | ⟨ds, _, rfl⟩
    · exact ended.1
    · exact stops_cons.mpr (by decide)
  have parts : sign ++ (whole ++ fraction) ++ rest = sign ++ (whole ++ (fraction ++ rest)) := by
    simp [List.append_assoc]
  rw [parts]
  simp [number?, splitSign_sign signed unsigned, takeWhile_run all stop, dropWhile_run all stop,
    splitFraction_fraction decimals ended, nonempty, List.append_assoc]

theorem isAlpha_toNat {c : Char} (letter : c.isAlpha = true) :
    (65 ≤ c.toNat ∧ c.toNat ≤ 90) ∨ (97 ≤ c.toNat ∧ c.toNat ≤ 122) := by
  have either : (c.isUpper || c.isLower) = true := letter
  rcases Bool.or_eq_true_iff.mp either with upper | lower
  · exact .inl (of_decide_eq_true upper)
  · have bounds := Bool.and_eq_true_iff.mp lower
    exact .inr ⟨of_decide_eq_true bounds.1, of_decide_eq_true bounds.2⟩

theorem isDigit_toNat {c : Char} (digit : c.isDigit = true) : 48 ≤ c.toNat ∧ c.toNat ≤ 57 := by
  have bounds := Bool.and_eq_true_iff.mp digit
  exact ⟨of_decide_eq_true bounds.1, of_decide_eq_true bounds.2⟩

theorem isWordChar_toNat {c : Char} (inside : isWordChar c = true) :
    (48 ≤ c.toNat ∧ c.toNat ≤ 57) ∨ (65 ≤ c.toNat ∧ c.toNat ≤ 90) ∨ c.toNat = 95 ∨
      (97 ≤ c.toNat ∧ c.toNat ≤ 122) := by
  simp only [isWordChar, Char.isAlphanum, Bool.or_eq_true, beq_iff_eq] at inside
  rcases inside with (letter | digit) | rfl
  · rcases isAlpha_toNat letter with upper | lower
    · exact .inr (.inl upper)
    · exact .inr (.inr (.inr lower))
  · exact .inl (isDigit_toNat digit)
  · exact .inr (.inr (.inl rfl))

theorem isSpace_of_isWordChar {c : Char} (inside : isWordChar c = true) :
    Text.isSpace c = false := by
  have range := isWordChar_toNat inside
  simp only [Text.isSpace, Bool.or_eq_false_iff, Bool.and_eq_false_imp, decide_eq_true_eq,
    decide_eq_false_iff_not, beq_eq_false_iff_ne, ne_eq]
  omega

theorem isWordChar_of_isSpace {c : Char} (space : Text.isSpace c = true) :
    isWordChar c = false := by
  cases inside : isWordChar c with
  | false => rfl
  | true =>
    rw [isSpace_of_isWordChar inside] at space
    cases space

theorem stops_of_isGap {gap : List Char} (spaced : IsGap gap) (rest : List Char) :
    Stops isWordChar (gap ++ rest) := by
  rw [stops_append spaced.1]
  intro c first
  exact isWordChar_of_isSpace (spaced.2 c (List.mem_of_mem_head? first))

theorem stops_isSpace_of_isWord {w : List Char} (word : isWord w = true) :
    Stops Text.isSpace w := by
  intro c first
  exact isSpace_of_isWordChar (isWord_all word c (List.mem_of_mem_head? first))

theorem quoted?_kind {s : Split} (found : quoted? cs = some s) :
    s.kind = .quoted ∨ s.kind = .unclosed := by
  unfold quoted? at found
  split at found
  · split at found
    · cases found
      exact .inr rfl
    · cases found
      exact .inl rfl
  · cases found

theorem name?_kind {s : Split} (found : name? cs = some s) : s.kind = .name := by
  unfold name? at found
  split at found
  · cases found
  · split at found
    · cases found
      rfl
    · cases found

theorem mark?_kind {s : Split} (found : mark? cs = some s) : s.kind = .mark := by
  unfold mark? at found
  split at found
  · cases found
  · split at found
    · cases found
      rfl
    · cases found

-- The rule that reads lexemes of a kind.
def rule? (v : Vocabulary) : TokenKind → List Char → Option Split
  | .quoted | .unclosed => quoted?
  | .number => number?
  | .keyword => keyword? v
  | .mathFunction => tabled? .mathFunction v.mathFunctions
  | .sampleFunction => tabled? .sampleFunction v.sampleFunctions
  | .name => name?
  | .relation => relation?
  | .mark => mark?

theorem split?_rule {v : Vocabulary} {s : Split} (found : split? v cs = some s) :
    rule? v s.kind cs = some s := by
  rcases split?_cases found with read | read | read | read | read | read | read | read
  · rcases quoted?_kind read with kind | kind
    · rw [kind]
      exact read
    · rw [kind]
      exact read
  · rw [(number?_eq_some read).1]
    exact read
  · obtain ⟨_, _, kind, _⟩ := keyword?_eq_some read
    rw [kind]
    exact read
  · obtain ⟨_, _, kind, _⟩ := tabled?_eq_some read
    rw [kind]
    exact read
  · obtain ⟨_, _, kind, _⟩ := tabled?_eq_some read
    rw [kind]
    exact read
  · rw [name?_kind read]
    exact read
  · rw [(relation?_eq_some read).1]
    exact read
  · rw [mark?_kind read]
    exact read

theorem ne_quote {body : List Char} (inside : '"' ∉ body) : ∀ c ∈ body, (c != '"') = true := by
  intro c member
  have other : c ≠ '"' := by rintro rfl; exact inside member
  simpa using other

theorem quoted?_closed {body : List Char} (inside : '"' ∉ body) (rest : List Char) :
    quoted? ('"' :: (body ++ '"' :: rest)) = some ⟨.quoted, '"' :: (body ++ ['"']), rest⟩ := by
  have all := ne_quote inside
  have stop : Stops (· != '"') ('"' :: rest) := stops_cons.mpr (by decide)
  simp only [quoted?, dropWhile_run all stop, takeWhile_run all stop]

theorem quoted?_unclosed {body : List Char} (inside : '"' ∉ body) :
    quoted? ('"' :: body) = some ⟨.unclosed, '"' :: body, []⟩ := by
  have none : body.dropWhile (· != '"') = [] := by
    simpa using dropWhile_run (ne_quote inside) (stops_nil _)
  simp only [quoted?, none]

theorem quoted?_eq_none {c : Char} (other : c ≠ '"') : quoted? (c :: cs) = none := by
  unfold quoted?
  split
  · rename_i same
    exact absurd (List.cons.inj same).1 other
  · rfl

-- The words of a phrase are found again where they were written, and nothing else is taken for
-- them: white space cannot run into a word that does not begin with it.
theorem laterWords?_eq_some_iff {ws : List (List Char)} {text : List Char}
    (bare : ∀ w ∈ ws, w ≠ [] ∧ Stops Text.isSpace w) :
    laterWords? ws cs = some (text, rest) ↔ Trails ws text ∧ cs = text ++ rest := by
  induction ws generalizing cs text rest with
  | nil =>
    simp only [laterWords?, Option.some.injEq, Prod.mk.injEq]
    constructor
    · rintro ⟨rfl, rfl⟩
      exact ⟨.nil, rfl⟩
    · rintro ⟨trail, rfl⟩
      cases trail
      exact ⟨rfl, rfl⟩
  | cons w ws ih =>
    have later := fun v member => bare v (List.mem_cons_of_mem w member)
    constructor
    · intro found
      have whole := laterWords?_append found
      refine ⟨?_, whole.symm⟩
      unfold laterWords? at found
      split at found
      · cases found
      · rename_i spaced
        split at found
        · cases found
        · split at found
          · cases found
          · rename_i tail rest' trailing
            cases found
            refine .cons ⟨by simpa using spaced, ?_⟩ ((ih later).mp trailing).1
            intro c member
            exact List.all_eq_true.mp List.all_takeWhile c member
    · rintro ⟨trail, rfl⟩
      cases trail with
      | @cons _ _ gap tail spaced trailing =>
        obtain ⟨nonempty, plain⟩ := bare w (List.mem_cons_self ..)
        have stop : Stops Text.isSpace (w ++ (tail ++ rest)) := (stops_append nonempty).mpr plain
        have taken := takeWhile_run spaced.2 stop
        have dropped := dropWhile_run spaced.2 stop
        have parts : gap ++ (w ++ tail) ++ rest = gap ++ (w ++ (tail ++ rest)) := by
          simp [List.append_assoc]
        have next : laterWords? ws (tail ++ rest) = some (tail, rest) :=
          (ih later).mpr ⟨trailing, rfl⟩
        simp [laterWords?, parts, taken, dropped, next, spaced.1]

theorem phrase?_eq_some_iff {w : List Char} {ws : List (List Char)} {text : List Char}
    (bare : ∀ w ∈ ws, w ≠ [] ∧ Stops Text.isSpace w) :
    phrase? (w :: ws) cs = some (text, rest) ↔
      ∃ tail, Trails ws tail ∧ text = w ++ tail ∧ cs = text ++ rest ∧ Stops isWordChar rest := by
  constructor
  · intro found
    have whole := phrase?_append found
    unfold phrase? at found
    dsimp only at found
    split at found
    · cases found
    · split at found
      · cases found
      · rename_i tail rest' trailing
        split at found
        · rename_i ended
          cases found
          exact ⟨tail, ((laterWords?_eq_some_iff bare).mp trailing).1, rfl, whole.symm,
            atWordEnd_iff.mp ended⟩
        · cases found
  · rintro ⟨tail, trail, rfl, rfl, ended⟩
    have trailing : laterWords? ws (tail ++ rest) = some (tail, rest) :=
      (laterWords?_eq_some_iff bare).mpr ⟨trail, rfl⟩
    simp [phrase?, List.append_assoc, trailing, atWordEnd_iff.mpr ended]

-- The characters that an equality sign makes a relation of, and those that are one by themselves.
def pairing : List Char := ['=', '!', '<', '>', '~']

def angles : List Char := ['<', '>']

def signs : List Char := ['+', '-']

def symbols : List Char := angles ++ marks

theorem angles_subset : angles ⊆ pairing := by decide

theorem pairing_subset : pairing ⊆ symbols := by decide

theorem marks_subset : marks ⊆ symbols := by decide

theorem symbol_class {c : Char} (listed : c ∈ symbols) :
    isWordStart c = false ∧ c.isDigit = false ∧ c ≠ '"' ∧ opens c = true := by
  have every : symbols.all
      (fun c => !isWordStart c && (!c.isDigit && (c != '"' && opens c))) = true := by decide
  simpa using List.all_eq_true.mp every c listed

theorem not_angle_of_mark {c : Char} (listed : c ∈ marks) : c ∉ angles := by
  have every : marks.all (fun c => !angles.contains c) = true := by decide
  simpa using List.all_eq_true.mp every c listed

theorem not_sign_of_angle {c : Char} (listed : c ∈ angles) : c ∉ signs := by
  have every : angles.all (fun c => !signs.contains c) = true := by decide
  simpa using List.all_eq_true.mp every c listed

theorem mem_relations_iff {r : List Char} :
    r ∈ relations ↔ (∃ c ∈ pairing, r = [c, '=']) ∨ ∃ c ∈ angles, r = [c] := by
  have table : relations = pairing.map (fun c => [c, '=']) ++ angles.map (fun c => [c]) := rfl
  simp only [table, List.mem_append, List.mem_map, eq_comm]

end ScoreFilter.Lexeme

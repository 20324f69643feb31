import ScoreFilter.Proofs.Json.Spelling
import ScoreFilter.Proofs.Toml.Document

namespace ScoreFilter.Json

variable {c : Char} {gap rest : List Char}

theorem skipBlank_append (blank : Blank gap) (cs : List Char) :
    skipBlank (gap ++ cs) = skipBlank cs :=
  List.dropWhile_append_of_pos blank

theorem skipBlank_cons (solid : isBlank c = false) (cs : List Char) :
    skipBlank (c :: cs) = c :: cs := by
  simp [skipBlank, solid]

@[simp]
theorem prepend_ok (c : Char) (text rest : List Char) :
    prepend c (.ok (text, rest)) = .ok (c :: text, rest) := rfl

theorem hex4?_control : ∀ n < 0x20,
    hex4? '0' '0' (Text.lowerHex (n / 16)) (Text.lowerHex (n % 16)) = some n := by
  decide

theorem stringBody_short {e : Char} (short : simpleEscape? e = some c) (rest : List Char) :
    stringBody ('\\' :: e :: rest) = prepend c (stringBody rest) := by
  have simple : e ≠ 'u' := by
    rintro rfl
    cases short
  rw [stringBody]
  · rw [short]
  · simp [simple]

theorem stringBody_escape (c : Char) (rest : List Char) :
    stringBody (escape c ++ rest) = prepend c (stringBody rest) := by
  unfold escape
  -- The seven characters with a short escape.
  iterate 7
    split
    · subst c
      exact stringBody_short rfl rest
  split
  · rename_i control
    have low : c.toNat < 0xD800 := by omega
    simp [stringBody, hex4?_control _ control, low]
  · rename_i quote backslash _ _ _ _ _ solid
    rw [List.singleton_append, stringBody]
    · simp [solid]
    all_goals simp [quote, backslash]

theorem stringBody_flatMap_escape (s rest : List Char) :
    stringBody (s.flatMap escape ++ '"' :: rest) = .ok (s, rest) := by
  induction s with
  | nil => rfl
  | cons c s ih => rw [List.flatMap_cons, List.append_assoc, stringBody_escape, ih, prepend_ok]

theorem quote_append (s rest : List Char) :
    quote s ++ rest = '"' :: (s.flatMap escape ++ '"' :: rest) := by
  simp [quote]

-- What may come behind a value: nothing, a blank, a comma or a closing bracket.
def Ends (rest : List Char) : Prop :=
  ∀ c ∈ rest.head?, c ∈ [' ', '\t', '\n', '\r', ',', ']', '\x7d']

theorem ends_nil : Ends [] := by simp [Ends]

theorem Ends.cons (ends : Ends (c :: rest)) :
    c.isDigit = false ∧ c ≠ '.' ∧ c ≠ 'e' ∧ c ≠ 'E' := by
  have first := ends c rfl
  simp only [List.mem_cons, List.not_mem_nil, or_false] at first
  rcases first with rfl | rfl | rfl | rfl | rfl | rfl | rfl <;> decide

theorem Ends.behind (blank : Blank gap) (ends : Ends rest) : Ends (gap ++ rest) := by
  cases gap with
  | nil => exact ends
  | cons c gap =>
    have first := blank c (List.mem_cons_self ..)
    simp only [isBlank, Bool.or_eq_true, beq_iff_eq] at first
    intro d same
    cases same
    rcases first with ((rfl | rfl) | rfl) | rfl <;> decide

theorem takeWhile_digits (n : Nat) (ends : Ends rest) :
    (Decimal.digits n ++ rest).takeWhile Char.isDigit = Decimal.digits n ∧
      (Decimal.digits n ++ rest).dropWhile Char.isDigit = rest := by
  have all : ∀ d ∈ Decimal.digits n, d.isDigit = true := fun d => Decimal.isDigit_of_mem_digits
  rw [List.takeWhile_append_of_pos all, List.dropWhile_append_of_pos all]
  cases rest with
  | nil => simp
  | cons c rest => simp [ends.cons.1]

theorem whole?_digits (n : Nat) (ends : Ends rest) :
    whole? (Decimal.digits n ++ rest) = some (Decimal.digits n, rest) := by
  have numeral := Toml.isNumeral_digits n
  have found : digits? (Decimal.digits n ++ rest) = some (Decimal.digits n, rest) := by
    obtain ⟨taken, left⟩ := takeWhile_digits n ends
    simp [digits?, taken, left, numeral.nonempty]
  unfold whole?
  rw [found]
  split
  · rename_i none
    cases none
  · rename_i zero
    have same := (Prod.mk.inj (Option.some.inj zero)).1
    exact absurd (numeral.short _ same) (List.cons_ne_nil _ _)
  · rename_i same
    exact same.symm

theorem numberText?_digits (n : Nat) (ends : Ends rest) :
    numberText? (Decimal.digits n ++ rest) =
      some (⟨false, Decimal.digits n, none, none⟩, rest) := by
  have unsigned : minus (Decimal.digits n ++ rest) = (false, Decimal.digits n ++ rest) := by
    obtain ⟨d, more, same, digit, _⟩ := (Toml.isNumeral_digits n).cons
    have positive : d ≠ '-' := Toml.ne_of_isDigit digit (by decide)
    rw [same, List.cons_append, minus]
    simp [positive]
  have whole : fraction? rest = some (none, rest) ∧ exponent? rest = some (none, rest) := by
    cases rest with
    | nil => exact ⟨rfl, rfl⟩
    | cons c rest =>
      obtain ⟨_, point, small, large⟩ := ends.cons
      constructor
      · rw [fraction?]
        simp [point]
      · simp [exponent?, small, large]
  simp [numberText?, unsigned, whole?_digits n ends, whole]

theorem found_digits {n : Nat} (small : n < Nat.pow 2 64) (ends : Ends rest) :
    found (Decimal.digits n ++ rest) = .ok (.int n, rest) := by
  obtain ⟨d, more, same, digit, _⟩ := (Toml.isNumeral_digits n).cons
  have other : d ≠ '"' ∧ d ≠ '[' ∧ d ≠ '\x7b' :=
    ⟨Toml.ne_of_isDigit digit (by decide), Toml.ne_of_isDigit digit (by decide),
      Toml.ne_of_isDigit digit (by decide)⟩
  have number := numberText?_digits n ends
  have exact : NumberText.found? ⟨false, Decimal.digits n, none, none⟩ = some (.int n) := by
    simp [NumberText.found?, Decimal.value_digits, small]
  rw [same, List.cons_append] at number ⊢
  rw [same] at exact
  simp [found, other, digit, number, exact]

end ScoreFilter.Json

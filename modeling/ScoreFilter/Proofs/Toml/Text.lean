import ScoreFilter.Toml.Text

namespace ScoreFilter.Toml

variable {c q : Char} {cs rest text tail : List Char}

@[simp]
theorem prepend_some (c : Char) (text rest : List Char) :
    prepend (some c) (some (text, rest)) = some (c :: text, rest) := rfl

theorem isPlain_of_isControl (solid : isControl c = false) : isPlain c = true := by
  simp only [isControl, Bool.or_eq_false_iff, decide_eq_false_iff_not] at solid
  have printable : 0x20 ≤ c.toNat := by omega
  simp [isPlain, printable, solid.2]

-- The ways in which a character stands in a text between double quotes.
inductive Escape (c : Char) : List Char → Prop where
  | short (e : Char) (listed : e ∈ ['b', 't', 'n', 'f', 'r', '"', '\\'])
      (read : shortEscape? e = some c) : Escape c ['\\', e]
  | hex (a b : Char) (read : codePoint? ['0', '0', a, b] = some c) :
      Escape c ['\\', 'u', '0', '0', a, b]
  | bare (quote : c ≠ '"') (backslash : c ≠ '\\') (solid : isControl c = false) : Escape c [c]

theorem codePoint?_hex : ∀ n < 128,
    codePoint? ['0', '0', Text.upperHex (n / 16), Text.upperHex (n % 16)] = some (Char.ofNat n) := by
  decide

theorem escape_control (control : isControl c = true) :
    Escape c ['\\', 'u', '0', '0', Text.upperHex (c.toNat / 16), Text.upperHex (c.toNat % 16)] := by
  have small : c.toNat < 128 := by
    simp only [isControl, Bool.or_eq_true, decide_eq_true_eq] at control
    omega
  refine .hex _ _ ?_
  rw [codePoint?_hex c.toNat small, Char.ofNat_toNat]

theorem escape_escaped (c : Char) : Escape c (escaped c) := by
  unfold escaped
  split
  · exact .short 'b' (by decide) (by simp [shortEscape?, *])
  split
  · exact .short 't' (by decide) (by simp [shortEscape?, *])
  split
  · exact .short 'n' (by decide) (by simp [shortEscape?, *])
  split
  · exact .short 'f' (by decide) (by simp [shortEscape?, *])
  split
  · exact .short 'r' (by decide) (by simp [shortEscape?, *])
  split
  · exact .short '"' (by decide) (by simp [shortEscape?, *])
  split
  · exact .short '\\' (by decide) (by simp [shortEscape?, *])
  split
  · exact escape_control ‹_›
  · exact .bare ‹_› ‹_› (Bool.eq_false_iff.mpr ‹_›)

theorem Escape.head (escape : Escape c text) :
    ∃ first more, text = first :: more ∧ first ≠ '"' ∧ first ≠ '\n' ∧ first ≠ '\r' := by
  cases escape with
  | short e => exact ⟨'\\', [e], rfl, by decide, by decide, by decide⟩
  | hex a b => exact ⟨'\\', _, rfl, by decide, by decide, by decide⟩
  | bare quote backslash solid =>
    refine ⟨c, [], rfl, quote, ?_, ?_⟩
    · rintro rfl
      cases solid
    · rintro rfl
      cases solid

theorem Escape.basicBody? (escape : Escape c text) (rest : List Char) :
    basicBody? (text ++ rest) = prepend (some c) (basicBody? rest) := by
  cases escape with
  | short e listed read =>
    rw [← read]
    simp only [List.mem_cons, List.not_mem_nil, or_false] at listed
    rcases listed with rfl | rfl | rfl | rfl | rfl | rfl | rfl <;> simp [Toml.basicBody?]
  | hex a b read =>
    rw [← read]
    simp [Toml.basicBody?]
  | bare quote backslash solid =>
    rw [List.singleton_append, Toml.basicBody?]
    · simp [isPlain_of_isControl solid]
    all_goals simp [quote, backslash]

theorem Escape.multiBasicBody? (escape : Escape c text) (rest : List Char) :
    multiBasicBody? .off (text ++ rest) = prepend (some c) (multiBasicBody? .off rest) := by
  cases escape with
  | short e listed read =>
    rw [← read]
    simp only [List.mem_cons, List.not_mem_nil, or_false] at listed
    rcases listed with rfl | rfl | rfl | rfl | rfl | rfl | rfl <;> simp [Toml.multiBasicBody?]
  | hex a b read =>
    rw [← read]
    simp [Toml.multiBasicBody?]
  | bare quote backslash solid =>
    have control : ∀ d, isControl d = true → c ≠ d := by
      rintro d control rfl
      rw [solid] at control
      cases control
    by_cases blank : c = ' '
    · subst blank
      simp [Toml.multiBasicBody?]
    · rw [List.singleton_append, Toml.multiBasicBody?]
      · simp [isPlain_of_isControl solid]
      all_goals simp [quote, backslash, blank, control '\n' rfl, control '\r' rfl, control '\t' rfl]

theorem basicBody?_flatMap_escaped (cs rest : List Char) :
    basicBody? (cs.flatMap escaped ++ '"' :: rest) = some (cs, rest) := by
  induction cs with
  | nil => rfl
  | cons c cs ih =>
    rw [List.flatMap_cons, List.append_assoc, (escape_escaped c).basicBody?, ih, prepend_some]

theorem literalBody?_append (plain : ∀ c ∈ cs, isPlain c = true) (unquoted : '\'' ∉ cs)
    (rest : List Char) : literalBody? (cs ++ '\'' :: rest) = some (cs, rest) := by
  induction cs with
  | nil => rfl
  | cons c cs ih =>
    rw [List.mem_cons, not_or] at unquoted
    have later := ih (fun d member => plain d (List.mem_cons_of_mem c member)) unquoted.2
    rw [List.cons_append, literalBody?, if_pos (plain c (List.mem_cons_self ..)), later,
      prepend_some]
    simpa using Ne.symm unquoted.1

theorem closing_replicate {n : Nat} (few : n ≤ 2) (outside : rest.head? ≠ some q) :
    closing q (List.replicate n q ++ rest) = (List.replicate n q, rest) := by
  match n, few with
  | 0, _ =>
    match rest with
    | [] => rfl
    | [a] => simp_all [closing]
    | a :: b :: rest => simp_all [closing]
  | 1, _ =>
    match rest with
    | [] => simp [closing]
    | a :: rest => simp_all [closing]
  | 2, _ => simp [closing]

theorem multiBasicBody?_quote (single : ∀ more, tail ≠ '"' :: '"' :: more) :
    multiBasicBody? .off ('"' :: tail) = prepend (some '"') (multiBasicBody? .off tail) := by
  rw [multiBasicBody?]
  · rfl
  all_goals simp [single]

theorem multiLiteralBody?_quote (single : ∀ more, tail ≠ '\'' :: '\'' :: more) :
    multiLiteralBody? ('\'' :: tail) = prepend (some '\'') (multiLiteralBody? tail) := by
  rw [multiLiteralBody?]
  · rfl
  all_goals simp [single]

theorem multiBasicText_cons (quotes : Nat) (c : Char) (cs : List Char) :
    (c = '"' ∧ quotes < 2 ∧
        multiBasicText quotes (c :: cs) = '"' :: multiBasicText (quotes + 1) cs) ∨
      (c = '\n' ∧ multiBasicText quotes (c :: cs) = '\n' :: multiBasicText 0 cs) ∨
      ∃ text, Escape c text ∧ multiBasicText quotes (c :: cs) = text ++ multiBasicText 0 cs := by
  rw [multiBasicText]
  split
  · rename_i quote
    split
    · exact .inl ⟨quote, ‹_›, rfl⟩
    · refine .inr (.inr ⟨['\\', '"'], ?_, rfl⟩)
      exact .short '"' (by decide) (by rw [quote]; decide)
  · split
    · exact .inr (.inl ⟨‹_›, rfl⟩)
    · exact .inr (.inr ⟨escaped c, escape_escaped c, rfl⟩)

-- The writer puts no more than two quotes in a row, so that only the last ones of a text can run
-- into the closing three.
theorem multiBasicText_quotes {quotes : Nat} {more : List Char}
    (two : multiBasicText (quotes + 1) cs ++ '"' :: '"' :: '"' :: rest = '"' :: '"' :: more) :
    cs = [] ∨ cs = ['"'] ∧ quotes = 0 := by
  cases cs with
  | nil => exact .inl rfl
  | cons c cs =>
    rcases multiBasicText_cons (quotes + 1) c cs with
      ⟨rfl, few, written⟩ | ⟨rfl, written⟩ | ⟨text, escape, written⟩
    · obtain rfl : quotes = 0 := by omega
      rw [written] at two
      have second := (List.cons.inj two).2
      cases cs with
      | nil => exact .inr ⟨rfl, rfl⟩
      | cons d cs =>
        rcases multiBasicText_cons 2 d cs with
          ⟨_, many, _⟩ | ⟨_, written⟩ | ⟨text, escape, written⟩
        · omega
        · rw [written] at second
          cases second
        · obtain ⟨first, later, rfl, unquoted, _⟩ := escape.head
          rw [written] at second
          exact absurd (List.cons.inj second).1 unquoted
    · rw [written] at two
      cases two
    · obtain ⟨first, later, rfl, unquoted, _⟩ := escape.head
      rw [written] at two
      exact absurd (List.cons.inj two).1 unquoted

theorem multiBasicBody?_multiBasicText (outside : rest.head? ≠ some '"') (quotes : Nat)
    (cs : List Char) :
    multiBasicBody? .off (multiBasicText quotes cs ++ '"' :: '"' :: '"' :: rest) =
      some (cs, rest) := by
  have closed : ∀ n ≤ 2, multiBasicBody? .off
      ('"' :: '"' :: '"' :: (List.replicate n '"' ++ rest)) =
        some (List.replicate n '"', rest) := by
    intro n few
    rw [multiBasicBody?, closing_replicate few outside]
    rfl
  induction cs generalizing quotes with
  | nil => exact closed 0 (by decide)
  | cons c cs ih =>
    rcases multiBasicText_cons quotes c cs with
      ⟨rfl, few, written⟩ | ⟨rfl, written⟩ | ⟨text, escape, written⟩
    · rw [written, List.cons_append]
      by_cases two : ∃ more, multiBasicText (quotes + 1) cs ++ '"' :: '"' :: '"' :: rest =
          '"' :: '"' :: more
      · -- The text ends here, and its last quotes are found behind the closing ones.
        obtain ⟨more, two⟩ := two
        rcases multiBasicText_quotes two with rfl | ⟨rfl, rfl⟩
        · exact closed 1 (by decide)
        · exact closed 2 (by decide)
      · rw [multiBasicBody?_quote (fun more same => two ⟨more, same⟩), ih, prepend_some]
    · rw [written, List.cons_append, multiBasicBody?, if_pos rfl, ih, prepend_some]
    · rw [written, List.append_assoc, escape.multiBasicBody?, ih, prepend_some]

theorem longestRun_le_succ (q : Char) (run : Nat) (cs : List Char) :
    longestRun q run cs ≤ longestRun q (run + 1) cs := by
  induction cs generalizing run with
  | nil => exact Nat.le_refl _
  | cons c cs ih =>
    rw [longestRun, longestRun]
    split
    · have later := ih (run + 1)
      omega
    · exact Nat.le_refl _

theorem longestRun_tail {n : Nat} (few : longestRun q 0 (c :: cs) ≤ n) : longestRun q 0 cs ≤ n := by
  rw [longestRun] at few
  split at few
  · have later := longestRun_le_succ q 0 cs
    omega
  · exact few

theorem longestRun_three (q : Char) (cs : List Char) : 3 ≤ longestRun q 0 (q :: q :: q :: cs) := by
  simp only [longestRun, if_true]
  omega

-- A text without three quotes in a row runs into the closing three with its last ones at most.
theorem quotes_of_longestRun {more : List Char} (few : longestRun '\'' 0 ('\'' :: cs) ≤ 2)
    (two : cs ++ '\'' :: '\'' :: '\'' :: rest = '\'' :: '\'' :: more) :
    cs = [] ∨ cs = ['\''] := by
  match cs, few, two with
  | [], _, _ => exact .inl rfl
  | [a], _, two => exact .inr (by rw [(List.cons.inj two).1])
  | a :: b :: cs, few, two =>
    obtain ⟨rfl, second⟩ := List.cons.inj two
    obtain ⟨rfl, _⟩ := List.cons.inj second
    have many := longestRun_three '\'' cs
    omega

theorem multiLiteralBody?_append (outside : rest.head? ≠ some '\'')
    (plain : ∀ c ∈ cs, isPlain c = true ∨ c = '\n') (few : longestRun '\'' 0 cs ≤ 2) :
    multiLiteralBody? (cs ++ '\'' :: '\'' :: '\'' :: rest) = some (cs, rest) := by
  have closed : ∀ n ≤ 2, multiLiteralBody?
      ('\'' :: '\'' :: '\'' :: (List.replicate n '\'' ++ rest)) =
        some (List.replicate n '\'', rest) := by
    intro n few
    rw [multiLiteralBody?, closing_replicate few outside]
  induction cs with
  | nil => exact closed 0 (by decide)
  | cons c cs ih =>
    have later := ih (fun d member => plain d (List.mem_cons_of_mem c member)) (longestRun_tail few)
    rw [List.cons_append]
    by_cases quote : c = '\''
    · subst quote
      by_cases two : ∃ more, cs ++ '\'' :: '\'' :: '\'' :: rest = '\'' :: '\'' :: more
      · obtain ⟨more, two⟩ := two
        rcases quotes_of_longestRun few two with rfl | rfl
        · exact closed 1 (by decide)
        · exact closed 2 (by decide)
      · rw [multiLiteralBody?_quote (fun more same => two ⟨more, same⟩), later, prepend_some]
    · have here := plain c (List.mem_cons_self ..)
      rw [multiLiteralBody?]
      · simp [here, later]
      · rintro more rfl
        exact absurd here (by decide)
      · simp [quote]

theorem dropBreak_cons (feed : c ≠ '\n') (carriage : c ≠ '\r') (rest : List Char) :
    dropBreak (c :: rest) = c :: rest := by
  rw [dropBreak]
  all_goals simp [feed, carriage]

-- The line break that the writer opens a text of several lines with is passed over, and it never
-- takes one of the text's own for it.
theorem dropBreak_opening (first : '\n' ∉ cs → ∃ c more, tail = c :: more ∧ c ≠ '\n' ∧ c ≠ '\r') :
    dropBreak ((if cs.contains '\n' then ['\n'] else []) ++ tail) = tail := by
  by_cases breaks : '\n' ∈ cs
  · simp [breaks, dropBreak]
  · obtain ⟨c, more, rfl, feed, carriage⟩ := first breaks
    simp [breaks, dropBreak_cons feed carriage]

theorem string?_writeMultiBasic (outside : rest.head? ≠ some '"') (cs : List Char) :
    string? (writeMultiBasic cs ++ rest) = some (cs, rest) := by
  have first : '\n' ∉ cs → ∃ c more,
      multiBasicText 0 cs ++ '"' :: '"' :: '"' :: rest = c :: more ∧ c ≠ '\n' ∧ c ≠ '\r' := by
    intro unbroken
    cases cs with
    | nil => exact ⟨'"', _, rfl, by decide, by decide⟩
    | cons c cs =>
      rcases multiBasicText_cons 0 c cs with
        ⟨_, _, written⟩ | ⟨rfl, _⟩ | ⟨text, escape, written⟩
      · exact ⟨'"', _, by rw [written]; rfl, by decide, by decide⟩
      · simp at unbroken
      · obtain ⟨first, later, rfl, _, feed, carriage⟩ := escape.head
        exact ⟨first, _, by rw [written]; rfl, feed, carriage⟩
  calc string? (writeMultiBasic cs ++ rest)
      = multiBasicBody? .off (dropBreak ((if cs.contains '\n' then ['\n'] else []) ++
          (multiBasicText 0 cs ++ '"' :: '"' :: '"' :: rest))) := by
        simp [writeMultiBasic, opening, string?, List.replicate]
    _ = some (cs, rest) := by
        rw [dropBreak_opening first, multiBasicBody?_multiBasicText outside]

theorem string?_writeMultiLiteral (outside : rest.head? ≠ some '\'')
    (plain : ∀ c ∈ cs, isPlain c = true ∨ c = '\n') (few : longestRun '\'' 0 cs ≤ 2) :
    string? (writeMultiLiteral cs ++ rest) = some (cs, rest) := by
  have first : '\n' ∉ cs → ∃ c more,
      cs ++ '\'' :: '\'' :: '\'' :: rest = c :: more ∧ c ≠ '\n' ∧ c ≠ '\r' := by
    intro unbroken
    cases cs with
    | nil => exact ⟨'\'', _, rfl, by decide, by decide⟩
    | cons c cs =>
      refine ⟨c, _, rfl, ?_, ?_⟩
      · rintro rfl
        simp at unbroken
      · rintro rfl
        exact absurd (plain '\r' (List.mem_cons_self ..)) (by decide)
  calc string? (writeMultiLiteral cs ++ rest)
      = multiLiteralBody? (dropBreak ((if cs.contains '\n' then ['\n'] else []) ++
          (cs ++ '\'' :: '\'' :: '\'' :: rest))) := by
        simp [writeMultiLiteral, opening, string?, List.replicate]
    _ = some (cs, rest) := by
        rw [dropBreak_opening first, multiLiteralBody?_append outside plain few]

theorem string?_writeBasic (outside : rest.head? ≠ some '"') (cs : List Char) :
    string? (writeBasic cs ++ rest) = some (cs, rest) := by
  have single : ∀ more, cs.flatMap escaped ++ '"' :: rest ≠ '"' :: '"' :: more := by
    intro more two
    cases cs with
    | nil =>
      rw [(List.cons.inj two).2] at outside
      exact outside rfl
    | cons c cs =>
      obtain ⟨first, later, written, unquoted, _⟩ := (escape_escaped c).head
      rw [List.flatMap_cons, written] at two
      exact absurd (List.cons.inj two).1 unquoted
  rw [writeBasic, List.cons_append, List.append_assoc, List.singleton_append, string?]
  · exact basicBody?_flatMap_escaped cs rest
  all_goals simp [single]

theorem string?_writeLiteral (nonempty : cs ≠ []) (plain : ∀ c ∈ cs, isPlain c = true)
    (unquoted : '\'' ∉ cs) (rest : List Char) :
    string? (writeLiteral cs ++ rest) = some (cs, rest) := by
  have single : ∀ more, cs ++ '\'' :: rest ≠ '\'' :: '\'' :: more := by
    intro more two
    obtain ⟨c, later, rfl⟩ := List.exists_cons_of_ne_nil nonempty
    rw [(List.cons.inj two).1] at unquoted
    exact unquoted (List.mem_cons_self ..)
  rw [writeLiteral, List.cons_append, List.append_assoc, List.singleton_append, string?]
  · exact literalBody?_append plain unquoted rest
  all_goals simp [single]

theorem isPlain_of_needsEscape (unescaped : needsEscape cs = false) :
    ∀ c ∈ cs, isPlain c = true ∨ c = '\n' := by
  intro c member
  have here := List.any_eq_false.mp unescaped c member
  cases control : isControl c with
  | false => exact .inl (isPlain_of_isControl control)
  | true =>
    by_cases tab : c = '\t'
    · subst tab
      exact .inl rfl
    · right
      simpa [control, tab] using here

theorem string?_writeString (outside : ∀ c ∈ rest.head?, c ≠ '"' ∧ c ≠ '\'') (cs : List Char) :
    string? (writeString cs ++ rest) = some (cs, rest) := by
  have double : rest.head? ≠ some '"' := fun same => (outside '"' same).1 rfl
  have simple : rest.head? ≠ some '\'' := fun same => (outside '\'' same).2 rfl
  simp only [writeString]
  split
  · exact string?_writeBasic double cs
  rename_i escapes
  split
  · rename_i literal
    simp only [Bool.and_eq_true, Bool.not_eq_true', List.contains_eq_mem,
      decide_eq_false_iff_not] at literal
    obtain ⟨⟨unescaped, unquoted⟩, unbroken⟩ := literal
    refine string?_writeLiteral ?_ ?_ unquoted rest
    · rintro rfl
      exact escapes rfl
    · intro c member
      rcases isPlain_of_needsEscape unescaped c member with plain | rfl
      · exact plain
      · exact absurd member unbroken
  split
  · exact string?_writeMultiBasic double cs
  split
  · rename_i literal
    simp only [Bool.and_eq_true, Bool.not_eq_true', decide_eq_true_eq] at literal
    exact string?_writeMultiLiteral simple (isPlain_of_needsEscape literal.1) literal.2
  split
  · exact string?_writeMultiBasic double cs
  · exact string?_writeBasic double cs

theorem writeString_head (cs : List Char) :
    ∃ q more, writeString cs = q :: more ∧ (q = '"' ∨ q = '\'') := by
  have basic : ∃ q more, writeBasic cs = q :: more ∧ (q = '"' ∨ q = '\'') :=
    ⟨'"', _, rfl, .inl rfl⟩
  have literal : ∃ q more, writeLiteral cs = q :: more ∧ (q = '"' ∨ q = '\'') :=
    ⟨'\'', _, rfl, .inr rfl⟩
  have multiBasic : ∃ q more, writeMultiBasic cs = q :: more ∧ (q = '"' ∨ q = '\'') :=
    ⟨'"', _, rfl, .inl rfl⟩
  have multiLiteral : ∃ q more, writeMultiLiteral cs = q :: more ∧ (q = '"' ∨ q = '\'') :=
    ⟨'\'', _, rfl, .inr rfl⟩
  simp only [writeString]
  repeat' split
  all_goals assumption

end ScoreFilter.Toml

import ScoreFilter.Proofs.Toml.Text
import ScoreFilter.Proofs.Token.Rules
import ScoreFilter.Toml.Document

namespace ScoreFilter

namespace Decimal

theorem digits_ne_nil (n : Nat) : digits n ≠ [] := by
  rw [digits]
  split <;> simp

theorem digits_head {n : Nat} (positive : 0 < n) : (digits n).head? ≠ some '0' := by
  fun_induction digits n with
  | case1 n small =>
    have every : ∀ n < 10, 0 < n → digitChar n ≠ '0' := by decide
    simpa using every n small positive
  | case2 n large ih =>
    obtain ⟨d, more, same⟩ := List.exists_cons_of_ne_nil (digits_ne_nil (n / 10))
    have first := ih (by omega)
    rw [same] at first ⊢
    exact first

end Decimal

namespace Toml

variable {key : String} {text rest ds : List Char} {item : Item} {statements : List Statement}

theorem ne_of_isDigit {c d : Char} (digit : c.isDigit = true) (other : d.isDigit = false) :
    c ≠ d := by
  rintro rfl
  rw [digit] at other
  cases other

theorem moreDigits?_all (all : ∀ d ∈ ds, d.isDigit = true) :
    moreDigits? Char.isDigit ds = some (ds, []) := by
  induction ds with
  | nil => rfl
  | cons d ds ih =>
    have digit := all d (List.mem_cons_self ..)
    have later := ih fun e member => all e (List.mem_cons_of_mem d member)
    have solid : d ≠ '_' := ne_of_isDigit digit (by decide)
    rw [moreDigits?]
    · simp [digit, later]
    all_goals simp [solid]

-- Digits as they are written: at least one, and no zero in front of others.
structure IsNumeral (ds : List Char) : Prop where
  nonempty : ds ≠ []
  all : ∀ d ∈ ds, d.isDigit = true
  short : ∀ more, ds = '0' :: more → more = []

theorem isNumeral_digits (n : Nat) : IsNumeral (Decimal.digits n) := by
  refine ⟨Decimal.digits_ne_nil n, fun d => Decimal.isDigit_of_mem_digits, ?_⟩
  intro more same
  by_cases positive : 0 < n
  · have first := Decimal.digits_head positive
    rw [same] at first
    exact absurd rfl first
  · obtain rfl : n = 0 := by omega
    rw [Decimal.digits] at same
    exact (List.cons.inj same).2.symm

theorem IsNumeral.cons (numeral : IsNumeral ds) :
    ∃ d more, ds = d :: more ∧ d.isDigit = true ∧ ∀ e ∈ more, e.isDigit = true := by
  obtain ⟨d, more, rfl⟩ := List.exists_cons_of_ne_nil numeral.nonempty
  exact ⟨d, more, rfl, numeral.all d (List.mem_cons_self ..),
    fun e member => numeral.all e (List.mem_cons_of_mem d member)⟩

theorem IsNumeral.signOf (numeral : IsNumeral ds) : signOf ds = (false, ds) := by
  obtain ⟨d, more, rfl, digit, _⟩ := numeral.cons
  have minus : d ≠ '-' := ne_of_isDigit digit (by decide)
  have plus : d ≠ '+' := ne_of_isDigit digit (by decide)
  rw [Toml.signOf]
  all_goals simp [minus, plus]

theorem IsNumeral.wholePart? (numeral : IsNumeral ds) : wholePart? ds = some (ds, []) := by
  have run : digitRun? Char.isDigit ds = some (ds, []) := by
    obtain ⟨d, more, rfl, digit, later⟩ := numeral.cons
    simp [digitRun?, digit, moreDigits?_all later]
  rw [Toml.wholePart?, run]
  split
  · rename_i d more _ same
    cases same
    cases numeral.short _ rfl
  · rfl

theorem mark?_digits {c : Char} (all : ∀ d ∈ ds, d.isDigit = true) (other : c.isDigit = false) :
    mark? c ds = none := by
  cases ds with
  | nil => rfl
  | cons d ds =>
    have apart : c ≠ d := (ne_of_isDigit (all d (List.mem_cons_self ..)) other).symm
    simp [mark?, apart]

theorem fourDigits?_subset {year : Nat} (found : fourDigits? ds = some (year, rest)) :
    rest ⊆ ds := by
  unfold fourDigits? at found
  split at found
  · rename_i a b c d _
    split at found
    · cases found
      exact List.subset_append_right [a, b, c, d] rest
    · cases found
  · cases found

theorem twoDigits?_subset {low high n : Nat} (found : twoDigits? low high ds = some (n, rest)) :
    rest ⊆ ds := by
  unfold twoDigits? at found
  split at found
  · rename_i a b _
    dsimp only at found
    split at found
    · split at found
      · cases found
        exact List.subset_append_right [a, b] rest
      · cases found
    · cases found
  · cases found

theorem dateTime?_digits (all : ∀ d ∈ ds, d.isDigit = true) : dateTime? ds = none := by
  have date : date? ds = none := by
    cases found : fourDigits? ds with
    | none => simp [date?, found]
    | some row =>
      have undashed : mark? '-' row.2 = none :=
        mark?_digits (fun d member => all d (fourDigits?_subset found member)) (by decide)
      simp [date?, found, undashed]
  have time : time? ds = none := by
    cases found : twoDigits? 0 23 ds with
    | none => simp [time?, found]
    | some row =>
      have undivided : mark? ':' row.2 = none :=
        mark?_digits (fun d member => all d (twoDigits?_subset found member)) (by decide)
      simp [time?, found, undivided]
  rw [dateTime?, date, time]

theorem IsNumeral.ne (numeral : IsNumeral ds) {c : Char} (other : c.isDigit = false)
    (more : List Char) : ds ≠ c :: more := by
  rintro rfl
  exact ne_of_isDigit (numeral.all c (List.mem_cons_self ..)) other rfl

theorem IsNumeral.float? (numeral : IsNumeral ds) : float? ds = none := by
  have finite : finiteFloat? ds = none := by
    simp [finiteFloat?, numeral.signOf, numeral.wholePart?, fractionPart?, exponentPart?]
  simp [Toml.float?, numeral.signOf, numeral.ne, finite]

theorem IsNumeral.int? (numeral : IsNumeral ds) (small : Decimal.value ds < Nat.pow 2 63) :
    int? ds = some (.int (Decimal.value ds)) := by
  have decimal : decimalInt? ds = some (.int (Decimal.value ds)) := by
    have bound : Decimal.value ds < Nat.pow 2 63 := small
    simp [decimalInt?, numeral.signOf, numeral.wholePart?, bound]
  rw [Toml.int?]
  · exact decimal
  all_goals
    rintro more rfl
    cases numeral.short _ rfl

theorem scalar?_digits {n : Nat} (small : n < Nat.pow 2 63) :
    scalar? (Decimal.digits n) = some (.int n) := by
  have numeral := isNumeral_digits n
  have whole := numeral.int? (by rwa [Decimal.value_digits])
  rw [Decimal.value_digits] at whole
  simp [scalar?, numeral.ne, dateTime?_digits numeral.all, numeral.float?, whole]

theorem isScalarChar_digits (n : Nat) : (Decimal.digits n).all isScalarChar = true := by
  rw [List.all_eq_true]
  intro c member
  simp [isScalarChar, Char.isAlphanum, Decimal.isDigit_of_mem_digits member]

theorem value?_scalar {fuel depth : Nat} (nonempty : text ≠ [])
    (plain : ∀ c ∈ text, isScalarChar c = true) (found : scalar? text = some item)
    (rest : List Char) :
    value? (fuel + 1) depth (text ++ '\n' :: rest) = some (item, '\n' :: rest) := by
  have taken : (text ++ '\n' :: rest).takeWhile isScalarChar = text :=
    Lexeme.takeWhile_run plain (Lexeme.stops_cons.mpr rfl)
  have left : (text ++ '\n' :: rest).dropWhile isScalarChar = '\n' :: rest :=
    Lexeme.dropWhile_run plain (Lexeme.stops_cons.mpr rfl)
  have divided : scalarText (text ++ '\n' :: rest) = (text, '\n' :: rest) := by
    simp only [scalarText, taken, left]
    split
    · rename_i blank
      cases blank
    · rfl
  obtain ⟨c, more, rfl⟩ := List.exists_cons_of_ne_nil nonempty
  have other : ∀ d, isScalarChar d = false → c ≠ d := by
    rintro d other rfl
    rw [plain c (List.mem_cons_self ..)] at other
    cases other
  rw [List.cons_append] at divided ⊢
  simp [value?, other '"' rfl, other '\'' rfl, other '[' rfl, other '\x7b' rfl, divided, found]

theorem value?_writeString (fuel depth : Nat) (cs rest : List Char) :
    value? (fuel + 1) depth (writeString cs ++ '\n' :: rest) =
      some (.str (String.ofList cs), '\n' :: rest) := by
  have read : string? (writeString cs ++ '\n' :: rest) = some (cs, '\n' :: rest) :=
    string?_writeString (by simp) cs
  obtain ⟨q, more, written, quote⟩ := writeString_head cs
  rw [written, List.cons_append] at read ⊢
  simp [value?, quote, read]

def IsBare (key : String) : Prop :=
  key.toList ≠ [] ∧ key.toList.all isBareKey = true

theorem IsBare.cons (bare : IsBare key) :
    ∃ c more, key.toList = c :: more ∧ isBareKey c = true ∧ ∀ d, isBareKey d = false → c ≠ d := by
  obtain ⟨c, more, same⟩ := List.exists_cons_of_ne_nil bare.1
  have inside : isBareKey c = true :=
    List.all_eq_true.mp bare.2 c (by rw [same]; exact List.mem_cons_self ..)
  refine ⟨c, more, same, inside, ?_⟩
  rintro d other rfl
  rw [inside] at other
  cases other

theorem IsBare.key? {tail more : List Char} {d : Char} (bare : IsBare key)
    (stop : Lexeme.Stops isBareKey tail) (ended : skipWs tail = d :: more) (single : d ≠ '.') :
    key? (key.toList ++ tail) = some ([], key, d :: more) := by
  have taken := Lexeme.takeWhile_run (List.all_eq_true.mp bare.2) stop
  have left := Lexeme.dropWhile_run (List.all_eq_true.mp bare.2) stop
  have parts : keyParts? (tail.length + 1) tail = some ([], d :: more) := by
    rw [keyParts?, ended]
    split
    · rename_i same
      exact absurd (List.cons.inj same).1 single
    · rfl
  obtain ⟨c, later, same, inside, other⟩ := bare.cons
  have first : simpleKey? (key.toList ++ tail) = some (key, tail) := by
    rw [same, List.cons_append] at taken left ⊢
    rw [simpleKey?]
    simp only [other '"' rfl, other '\'' rfl, inside, taken, left]
    rw [← same, String.ofList_toList]
    rfl
  have solid : skipWs (key.toList ++ tail) = key.toList ++ tail := by
    rw [same]
    simp [skipWs, isWs, other ' ' rfl, other '\t' rfl]
  simp [Toml.key?, solid, first, parts, depthLimit]

-- A line of a document, whatever follows it, and the statement on it, if there is one.
structure Line (text : List Char) (statements : List Statement) : Prop where
  nonempty : text ≠ []
  read : ∀ fuel rest, statements? (fuel + 1) (text ++ rest) =
    (statements? fuel rest).map (statements ++ ·)

theorem Line.blank : Line ['\n'] [] := by
  refine ⟨by decide, ?_⟩
  intro fuel rest
  simp [statements?, skipWs, endOfLine?, skipComment, lineBreak?, isWs]

theorem Line.one {statement : Statement} {c : Char} (solid : isWs c = false)
    (other : c ≠ '#' ∧ c ≠ '\n' ∧ c ≠ '\r')
    (read : ∀ rest, statement? (c :: text ++ rest) = some (statement, rest)) :
    Line (c :: text) [statement] := by
  refine ⟨by simp, ?_⟩
  intro fuel rest
  have here := read rest
  rw [List.cons_append] at here ⊢
  have kept : skipWs (c :: (text ++ rest)) = c :: (text ++ rest) := by simp [skipWs, solid]
  rw [statements?, kept]
  dsimp only
  rw [if_neg (by simp [other]), here, Option.bind_eq_bind, Option.bind_some]
  cases statements? fuel rest <;> rfl

theorem endOfLine?_break (rest : List Char) : endOfLine? ('\n' :: rest) = some rest := rfl

theorem Line.header (bare : IsBare key) :
    Line ('[' :: (key.toList ++ [']', '\n'])) [.header [] key] := by
  apply Line.one (by decide) (by decide)
  intro rest
  have named : key? (key.toList ++ ']' :: '\n' :: rest) = some ([], key, ']' :: '\n' :: rest) :=
    bare.key? (Lexeme.stops_cons.mpr rfl) rfl (by decide)
  have opened : header? (key.toList ++ ']' :: '\n' :: rest) = some (.header [] key, rest) := by
    simp [header?, named, endOfLine?_break]
  obtain ⟨c, more, same, _, other⟩ := bare.cons
  simp only [List.cons_append, List.append_assoc, List.nil_append]
  rw [statement?]
  · exact opened
  · intro later twice
    rw [same] at twice
    exact other '[' rfl (List.cons.inj twice).1

theorem statement?_pair {c : Char} (other : c ≠ '[') (cs : List Char) :
    statement? (c :: cs) = pair? (c :: cs) := by
  rw [statement?]
  all_goals simp [other]

theorem Line.pair (bare : IsBare key) (solid : ∀ rest, skipWs (text ++ rest) = text ++ rest)
    (value : ∀ fuel rest, value? (fuel + 1) 0 (text ++ '\n' :: rest) = some (item, '\n' :: rest)) :
    Line (key.toList ++ (' ' :: '=' :: ' ' :: (text ++ ['\n']))) [.pair [] key item] := by
  obtain ⟨c, more, same, _, other⟩ := bare.cons
  rw [same]
  apply Line.one (by simp [isWs, other ' ' rfl, other '\t' rfl])
    ⟨other '#' rfl, other '\n' rfl, other '\r' rfl⟩
  intro rest
  have named : key? (key.toList ++ ' ' :: '=' :: ' ' :: (text ++ '\n' :: rest)) =
      some ([], key, '=' :: ' ' :: (text ++ '\n' :: rest)) :=
    bare.key? (Lexeme.stops_cons.mpr rfl) rfl (by decide)
  have blank : skipWs (' ' :: (text ++ '\n' :: rest)) = text ++ '\n' :: rest := by
    rw [skipWs, List.dropWhile_cons_of_pos rfl]
    exact solid _
  have paired : pair? (key.toList ++ ' ' :: '=' :: ' ' :: (text ++ '\n' :: rest)) =
      some (.pair [] key item, rest) := by
    simp [pair?, named, blank, value, endOfLine?_break]
  rw [same] at paired
  rw [List.cons_append, statement?_pair (other '[' rfl), ← paired]
  simp

theorem Line.scalar (bare : IsBare key) (nonempty : text ≠ [])
    (plain : text.all isScalarChar = true) (found : scalar? text = some item) :
    Line (key.toList ++ (' ' :: '=' :: ' ' :: (text ++ ['\n']))) [.pair [] key item] := by
  have all := List.all_eq_true.mp plain
  refine Line.pair bare ?_ fun fuel rest => value?_scalar nonempty all found rest
  intro rest
  obtain ⟨c, more, rfl⟩ := List.exists_cons_of_ne_nil nonempty
  have solid : isWs c = false := by
    cases blank : isWs c with
    | false => rfl
    | true =>
      simp only [isWs, Bool.or_eq_true, beq_iff_eq] at blank
      rcases blank with rfl | rfl <;> cases all _ (List.mem_cons_self ..)
  simp [skipWs, solid]

theorem Line.string (bare : IsBare key) (value : String) :
    Line (key.toList ++ (' ' :: '=' :: ' ' :: (writeString value.toList ++ ['\n'])))
      [.pair [] key (.str value)] := by
  refine Line.pair bare ?_ ?_
  · intro rest
    obtain ⟨q, more, written, quote⟩ := writeString_head value.toList
    rw [written]
    rcases quote with rfl | rfl <;> rfl
  · intro fuel rest
    rw [value?_writeString, String.ofList_toList]

theorem statements?_lines {lines : List (List Char × List Statement)}
    (each : ∀ line ∈ lines, Line line.1 line.2) {fuel : Nat} (enough : lines.length < fuel) :
    statements? fuel (lines.flatMap (·.1)) = some (lines.flatMap (·.2)) := by
  induction lines generalizing fuel with
  | nil =>
    obtain ⟨fuel, rfl⟩ := Nat.exists_eq_succ_of_ne_zero (Nat.ne_of_gt enough)
    rfl
  | cons line lines ih =>
    obtain ⟨fuel, rfl⟩ := Nat.exists_eq_succ_of_ne_zero (Nat.ne_of_gt (Nat.zero_lt_of_lt enough))
    have later := ih (fun l member => each l (List.mem_cons_of_mem line member))
      (Nat.lt_of_succ_lt_succ enough)
    rw [List.flatMap_cons, List.flatMap_cons, (each line (List.mem_cons_self ..)).read, later]
    rfl

theorem length_le_lines {lines : List (List Char × List Statement)}
    (each : ∀ line ∈ lines, Line line.1 line.2) :
    lines.length ≤ (lines.flatMap (·.1)).length := by
  induction lines with
  | nil => exact Nat.le_refl _
  | cons line lines ih =>
    have later := ih fun l member => each l (List.mem_cons_of_mem line member)
    have here := List.length_pos_iff.mpr (each line (List.mem_cons_self ..)).nonempty
    rw [List.flatMap_cons, List.length_append, List.length_cons]
    omega

theorem ofDocument?_lines {lines : List (List Char × List Statement)}
    (each : ∀ line ∈ lines, Line line.1 line.2)
    (unmarked : (lines.flatMap (·.1)).head? ≠ some '\uFEFF') :
    ofDocument? (String.ofList (lines.flatMap (·.1))) = build? (lines.flatMap (·.2)) := by
  have kept : dropMark (lines.flatMap (·.1)) = lines.flatMap (·.1) := by
    unfold dropMark
    split
    · rename_i same
      rw [same] at unmarked
      exact absurd rfl unmarked
    · rfl
  have enough := Nat.lt_succ_of_le (length_le_lines each)
  simp only [ofDocument?, String.toList_ofList, kept, statements?_lines each enough,
    Option.bind_some]

end Toml

end ScoreFilter

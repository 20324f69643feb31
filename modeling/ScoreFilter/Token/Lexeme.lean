import ScoreFilter.Text.Space
import ScoreFilter.Text.Strip
import ScoreFilter.Token
import ScoreFilter.Vocabulary

namespace ScoreFilter

namespace Lexeme

structure Split where
  kind : TokenKind
  text : List Char
  rest : List Char
deriving DecidableEq

def isWordStart (c : Char) : Bool :=
  c.isAlpha || c == '_'

def isWordChar (c : Char) : Bool :=
  c.isAlphanum || c == '_'

def atWordEnd : List Char → Bool
  | [] => true
  | c :: _ => !isWordChar c

-- A quote and all up to the next one, or to the end when there is none.
def quoted? : List Char → Option Split
  | '"' :: cs =>
    match cs.dropWhile (· != '"') with
    | [] => some ⟨.unclosed, '"' :: cs, []⟩
    | close :: rest => some ⟨.quoted, '"' :: (cs.takeWhile (· != '"') ++ [close]), rest⟩
  | _ => none

def splitSign : List Char → List Char × List Char
  | [] => ([], [])
  | c :: cs => if c == '+' || c == '-' then ([c], cs) else ([], c :: cs)

-- A point belongs to the number only when a digit follows it.
def splitFraction : List Char → List Char × List Char
  | [] => ([], [])
  | c :: cs =>
    if c == '.' && !(cs.takeWhile Char.isDigit).isEmpty then
      (c :: cs.takeWhile Char.isDigit, cs.dropWhile Char.isDigit)
    else ([], c :: cs)

-- An optional sign, digits, and optionally a point with more digits.
def number? (cs : List Char) : Option Split :=
  let (sign, unsigned) := splitSign cs
  let digits := unsigned.takeWhile Char.isDigit
  if digits.isEmpty then none
  else
    let (fraction, rest) := splitFraction (unsigned.dropWhile Char.isDigit)
    some ⟨.number, sign ++ digits ++ fraction, rest⟩

def laterWords? : List (List Char) → List Char → Option (List Char × List Char)
  | [], cs => some ([], cs)
  | w :: ws, cs =>
    if (cs.takeWhile Text.isSpace).isEmpty then none
    else
      match Text.strip? w (cs.dropWhile Text.isSpace) with
      | none => none
      | some next =>
        match laterWords? ws next with
        | none => none
        | some (text, rest) => some (cs.takeWhile Text.isSpace ++ (w ++ text), rest)

-- The words in order with white space between them, and no word going on after the last.
def phrase? : List (List Char) → List Char → Option (List Char × List Char)
  | [], cs => if atWordEnd cs then some ([], cs) else none
  | w :: ws, cs =>
    match Text.strip? w cs with
    | none => none
    | some next =>
      match laterWords? ws next with
      | none => none
      | some (text, rest) => if atWordEnd rest then some (w ++ text, rest) else none

def keyword? (v : Vocabulary) (cs : List Char) : Option Split :=
  (v.keywordsByWordCount.findSome? fun k => phrase? k.words cs).map fun (text, rest) =>
    ⟨.keyword, text, rest⟩

def tabled? (kind : TokenKind) (table : List Builtin) (cs : List Char) : Option Split :=
  (table.findSome? fun f => phrase? [f.name.toList] cs).map fun (text, rest) =>
    ⟨kind, text, rest⟩

def name? : List Char → Option Split
  | [] => none
  | c :: cs =>
    if isWordStart c then some ⟨.name, c :: cs.takeWhile isWordChar, cs.dropWhile isWordChar⟩
    else none

def relations : List (List Char) :=
  [['=', '='], ['!', '='], ['<', '='], ['>', '='], ['~', '='], ['<'], ['>']]

def relation? (cs : List Char) : Option Split :=
  relations.findSome? fun r => (Text.strip? r cs).map fun rest => ⟨.relation, r, rest⟩

def marks : List Char :=
  ['=', '!', '~', '+', '-', '*', '/', '^', '(', ')', ',', '.']

def mark? : List Char → Option Split
  | [] => none
  | c :: cs => if marks.contains c then some ⟨.mark, [c], cs⟩ else none

def split? (v : Vocabulary) (cs : List Char) : Option Split :=
  quoted? cs
    |>.or (number? cs)
    |>.or (keyword? v cs)
    |>.or (tabled? .mathFunction v.mathFunctions cs)
    |>.or (tabled? .sampleFunction v.sampleFunctions cs)
    |>.or (name? cs)
    |>.or (relation? cs)
    |>.or (mark? cs)

-- A vocabulary with an empty word would have an empty lexeme found at one place for ever.
def proper? (v : Vocabulary) (cs : List Char) : Option Split :=
  (split? v cs).filter fun s => !s.text.isEmpty

theorem quoted?_append {cs : List Char} {s : Split} (h : quoted? cs = some s) :
    s.text ++ s.rest = cs := by
  unfold quoted? at h
  split at h
  · rename_i body
    split at h
    · cases h
      simp
    · rename_i close rest found
      cases h
      have all := List.takeWhile_append_dropWhile (p := (· != '"')) (l := body)
      rw [found] at all
      simp [all]
  · cases h

theorem splitSign_append (cs : List Char) : (splitSign cs).1 ++ (splitSign cs).2 = cs := by
  unfold splitSign
  split
  · rfl
  · split <;> rfl

theorem splitFraction_append (cs : List Char) :
    (splitFraction cs).1 ++ (splitFraction cs).2 = cs := by
  unfold splitFraction
  split
  · rfl
  · split <;> simp

theorem number?_append {cs : List Char} {s : Split} (h : number? cs = some s) :
    s.text ++ s.rest = cs := by
  unfold number? at h
  dsimp only at h
  split at h
  · cases h
  · cases h
    dsimp only
    rw [List.append_assoc, List.append_assoc, splitFraction_append,
      List.takeWhile_append_dropWhile, splitSign_append]

theorem number?_ne_nil {cs : List Char} {s : Split} (h : number? cs = some s) : s.text ≠ [] := by
  unfold number? at h
  dsimp only at h
  split at h
  · cases h
  · rename_i digits
    cases h
    intro none
    apply digits
    simp only [List.append_eq_nil_iff] at none
    simp [none.1.2]

theorem laterWords?_append {ws : List (List Char)} {cs text rest : List Char}
    (h : laterWords? ws cs = some (text, rest)) : text ++ rest = cs := by
  induction ws generalizing cs text rest with
  | nil => cases h; rfl
  | cons w ws ih =>
    unfold laterWords? at h
    split at h
    · cases h
    · split at h
      · cases h
      · rename_i next spelled
        split at h
        · cases h
        · rename_i tail rest' later
          cases h
          rw [List.append_assoc, List.append_assoc, ih later, Text.strip?_append spelled,
            List.takeWhile_append_dropWhile]

theorem phrase?_append {ws : List (List Char)} {cs text rest : List Char}
    (h : phrase? ws cs = some (text, rest)) : text ++ rest = cs := by
  unfold phrase? at h
  split at h
  · split at h
    · cases h
      rfl
    · cases h
  · split at h
    · cases h
    · rename_i next spelled
      split at h
      · cases h
      · rename_i tail rest' later
        split at h
        · cases h
          rw [List.append_assoc, laterWords?_append later, Text.strip?_append spelled]
        · cases h

theorem phrase?_ne_nil {ws : List (List Char)} {cs text rest : List Char} (some_word : ws ≠ [])
    (nonempty : ∀ w ∈ ws, w ≠ []) (h : phrase? ws cs = some (text, rest)) : text ≠ [] := by
  unfold phrase? at h
  split at h
  · exact absurd rfl some_word
  · rename_i w ws
    split at h
    · cases h
    · split at h
      · cases h
      · split at h
        · cases h
          have first := nonempty w (by simp)
          simp [first]
        · cases h

theorem keyword?_eq_some {v : Vocabulary} {cs : List Char} {s : Split} (h : keyword? v cs = some s) :
    ∃ k ∈ v.keywordsByWordCount, s.kind = .keyword ∧ phrase? k.words cs = some (s.text, s.rest) := by
  unfold keyword? at h
  obtain ⟨⟨text, rest⟩, found, same⟩ := Option.map_eq_some_iff.mp h
  subst same
  obtain ⟨k, member, matched⟩ := List.exists_of_findSome?_eq_some found
  exact ⟨k, member, rfl, matched⟩

theorem tabled?_eq_some {kind : TokenKind} {table : List Builtin} {cs : List Char} {s : Split}
    (h : tabled? kind table cs = some s) :
    ∃ f ∈ table, s.kind = kind ∧ phrase? [f.name.toList] cs = some (s.text, s.rest) := by
  unfold tabled? at h
  obtain ⟨⟨text, rest⟩, found, same⟩ := Option.map_eq_some_iff.mp h
  subst same
  obtain ⟨f, member, matched⟩ := List.exists_of_findSome?_eq_some found
  exact ⟨f, member, rfl, matched⟩

theorem name?_append {cs : List Char} {s : Split} (h : name? cs = some s) :
    s.text ++ s.rest = cs := by
  unfold name? at h
  split at h
  · cases h
  · split at h
    · cases h
      simp
    · cases h

theorem relation?_eq_some {cs : List Char} {s : Split} (h : relation? cs = some s) :
    s.kind = .relation ∧ s.text ∈ relations ∧ s.text ++ s.rest = cs := by
  unfold relation? at h
  obtain ⟨r, member, matched⟩ := List.exists_of_findSome?_eq_some h
  obtain ⟨rest, spelled, same⟩ := Option.map_eq_some_iff.mp matched
  subst same
  exact ⟨rfl, member, Text.strip?_append spelled⟩

theorem mark?_append {cs : List Char} {s : Split} (h : mark? cs = some s) :
    s.text ++ s.rest = cs := by
  unfold mark? at h
  split at h
  · cases h
  · split at h
    · cases h
      simp
    · cases h

theorem split?_cases {v : Vocabulary} {cs : List Char} {s : Split} (h : split? v cs = some s) :
    quoted? cs = some s ∨ number? cs = some s ∨ keyword? v cs = some s ∨
      tabled? .mathFunction v.mathFunctions cs = some s ∨
      tabled? .sampleFunction v.sampleFunctions cs = some s ∨ name? cs = some s ∨
      relation? cs = some s ∨ mark? cs = some s := by
  simp only [split?, Option.or_eq_some_iff] at h
  rcases h with ((((((h | ⟨_, h⟩) | ⟨_, h⟩) | ⟨_, h⟩) | ⟨_, h⟩) | ⟨_, h⟩) | ⟨_, h⟩) | ⟨_, h⟩ <;>
    simp [h]

theorem split?_append {v : Vocabulary} {cs : List Char} {s : Split} (h : split? v cs = some s) :
    s.text ++ s.rest = cs := by
  rcases split?_cases h with h | h | h | h | h | h | h | h
  · exact quoted?_append h
  · exact number?_append h
  · obtain ⟨_, _, _, matched⟩ := keyword?_eq_some h
    exact phrase?_append matched
  · obtain ⟨_, _, _, matched⟩ := tabled?_eq_some h
    exact phrase?_append matched
  · obtain ⟨_, _, _, matched⟩ := tabled?_eq_some h
    exact phrase?_append matched
  · exact name?_append h
  · exact (relation?_eq_some h).2.2
  · exact mark?_append h

theorem proper?_eq_some {v : Vocabulary} {cs : List Char} {s : Split} :
    proper? v cs = some s ↔ split? v cs = some s ∧ s.text ≠ [] := by
  simp [proper?, Option.filter_eq_some_iff]

theorem proper?_shorter {v : Vocabulary} {cs : List Char} {s : Split}
    (h : proper? v cs = some s) : s.rest.length < cs.length := by
  obtain ⟨found, nonempty⟩ := proper?_eq_some.mp h
  have := List.length_pos_iff.mpr nonempty
  rw [← split?_append found, List.length_append]
  omega

end Lexeme

end ScoreFilter

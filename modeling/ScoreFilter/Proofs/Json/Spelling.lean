import ScoreFilter.Json
import ScoreFilter.Json.Read

namespace ScoreFilter.Json

def Blank (gap : List Char) : Prop :=
  ∀ c ∈ gap, isBlank c = true

section Listing

variable {α : Type} (spell : α → List Char → Prop) (close : Char)

-- What may come behind an entry: more entries, each behind a comma, and the closing bracket.
inductive Later : List α → List Char → Prop where
  | done {gap : List Char} (blank : Blank gap) : Later [] (gap ++ [close])
  | more {entry : α} {entries : List α} {gap between text tail : List Char} (before : Blank gap)
      (behind : Blank between) (spelled : spell entry text) (later : Later entries tail) :
      Later (entry :: entries) (gap ++ ',' :: (between ++ (text ++ tail)))

inductive Listed : List α → List Char → Prop where
  | none {gap : List Char} (blank : Blank gap) : Listed [] (gap ++ [close])
  | some {entry : α} {entries : List α} {gap text tail : List Char} (blank : Blank gap)
      (spelled : spell entry text) (later : Later spell close entries tail) :
      Listed (entry :: entries) (gap ++ (text ++ tail))

end Listing

inductive Member (spell : Json → List Char → Prop) : String × Json → List Char → Prop where
  | mk {key : String} {value : Json} {gap between text : List Char} (before : Blank gap)
      (behind : Blank between) (spelled : spell value text) :
      Member spell (key, value) (quote key.toList ++ (gap ++ ':' :: (between ++ text)))

-- The texts of a value, with any blanks between the parts.
inductive Spells : Json → List Char → Prop where
  | null : Spells .null ['n', 'u', 'l', 'l']
  | bool (b : Bool) : Spells (.bool b) (boolText b)
  | int (n : Int) : Spells (.int n) (intText n)
  | str (s : String) : Spells (.str s) (quote s.toList)
  | arr {items : List Json} {text : List Char} (listed : Listed Spells ']' items text) :
      Spells (.arr items) ('[' :: text)
  | obj {members : List (String × Json)} {text : List Char}
      (listed : Listed (Member Spells) '\x7d' members text) : Spells (.obj members) ('\x7b' :: text)

theorem blank_nil : Blank [] := by simp [Blank]

theorem blank_space : Blank [' '] := by simp [Blank, isBlank]

theorem blank_newLine (depth : Nat) : Blank (newLine depth) := by
  intro c member
  rcases List.mem_cons.mp member with rfl | later
  · rfl
  · rw [(List.mem_replicate.mp later).2]
    rfl

theorem Member.tight (key : String) {value : Json} {text : List Char}
    (spelled : Spells value text) :
    Member Spells (key, value) (quote key.toList ++ ':' :: text) :=
  .mk blank_nil blank_nil spelled

theorem Member.loose (key : String) {value : Json} {text : List Char}
    (spelled : Spells value text) :
    Member Spells (key, value) (quote key.toList ++ ':' :: ' ' :: text) :=
  .mk blank_nil blank_space spelled

mutual

theorem spells_compact : (value : Json) → Spells value value.compactChars
  | .null => .null
  | .bool b => .bool b
  | .int n => .int n
  | .str s => .str s
  | .arr [] => .arr (.none blank_nil)
  | .arr (item :: rest) => by
    have listed := Listed.some blank_nil (spells_compact item) (later_compactMoreItems rest)
    simpa [compactChars, compactItems] using Spells.arr listed
  | .obj [] => .obj (.none blank_nil)
  | .obj ((key, value) :: rest) => by
    have listed := Listed.some blank_nil (Member.tight key (spells_compact value))
      (later_compactMoreMembers rest)
    simpa [compactChars, compactMembers] using Spells.obj listed

theorem later_compactMoreItems : (items : List Json) →
    Later Spells ']' items (compactMoreItems items ++ [']'])
  | [] => .done blank_nil
  | item :: rest => by
    have later := Later.more blank_nil blank_nil (spells_compact item)
      (later_compactMoreItems rest)
    simpa [compactMoreItems] using later

theorem later_compactMoreMembers : (members : List (String × Json)) →
    Later (Member Spells) '\x7d' members (compactMoreMembers members ++ ['\x7d'])
  | [] => .done blank_nil
  | (key, value) :: rest => by
    have later := Later.more blank_nil blank_nil (Member.tight key (spells_compact value))
      (later_compactMoreMembers rest)
    simpa [compactMoreMembers] using later

end

mutual

theorem spells_pretty (depth : Nat) : (value : Json) → Spells value (value.prettyChars depth)
  | .null => .null
  | .bool b => .bool b
  | .int n => .int n
  | .str s => .str s
  | .arr [] => .arr (.none blank_nil)
  | .arr (item :: rest) => by
    have listed := Listed.some (blank_newLine (depth + 1)) (spells_pretty (depth + 1) item)
      (later_prettyItems depth (depth + 1) rest)
    simpa [prettyChars] using Spells.arr listed
  | .obj [] => .obj (.none blank_nil)
  | .obj ((key, value) :: rest) => by
    have listed := Listed.some (blank_newLine (depth + 1))
      (Member.loose key (spells_pretty (depth + 1) value))
      (later_prettyMembers depth (depth + 1) rest)
    simpa [prettyChars] using Spells.obj listed

theorem later_prettyItems (outer depth : Nat) : (items : List Json) →
    Later Spells ']' items (prettyItems depth items ++ (newLine outer ++ [']']))
  | [] => .done (blank_newLine outer)
  | item :: rest => by
    have later := Later.more blank_nil (blank_newLine depth) (spells_pretty depth item)
      (later_prettyItems outer depth rest)
    simpa [prettyItems] using later

theorem later_prettyMembers (outer depth : Nat) : (members : List (String × Json)) →
    Later (Member Spells) '\x7d' members
      (prettyMembers depth members ++ (newLine outer ++ ['\x7d']))
  | [] => .done (blank_newLine outer)
  | (key, value) :: rest => by
    have later := Later.more blank_nil (blank_newLine depth)
      (Member.loose key (spells_pretty depth value)) (later_prettyMembers outer depth rest)
    simpa [prettyMembers] using later

end

theorem spells_printed {value : Json} {text : String}
    (printed : text ∈ [value.compact, value.pretty]) :
    Spells value text.toList := by
  simp only [List.mem_cons, List.not_mem_nil, or_false] at printed
  rcases printed with rfl | rfl
  · simpa [compact] using spells_compact value
  · simpa [pretty] using spells_pretty 0 value

end ScoreFilter.Json

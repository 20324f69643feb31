import ScoreFilter.Json.Number
import ScoreFilter.Text.Hex
import ScoreFilter.Text.Strip

namespace ScoreFilter.Json

abbrev Reader (α : Type) := List Char → Except Problem (α × List Char)

def isBlank (c : Char) : Bool :=
  c == ' ' || c == '\t' || c == '\n' || c == '\r'

def skipBlank (cs : List Char) : List Char :=
  cs.dropWhile isBlank

def hex4? (a b c d : Char) : Option Nat :=
  Text.radixValue? 16 [a, b, c, d]

def simpleEscape? (c : Char) : Option Char :=
  if c = '"' then some '"'
  else if c = '\\' then some '\\'
  else if c = '/' then some '/'
  else if c = 'b' then some '\x08'
  else if c = 'f' then some '\x0c'
  else if c = 'n' then some '\n'
  else if c = 'r' then some '\r'
  else if c = 't' then some '\t'
  else none

def prepend (c : Char) (r : Except Problem (List Char × List Char)) :
    Except Problem (List Char × List Char) :=
  match r with
  | .ok (text, rest) => .ok (c :: text, rest)
  | .error p => .error p

def stringBody : List Char → Except Problem (List Char × List Char)
  | [] => .error .malformed
  | '"' :: rest => .ok ([], rest)
  | '\\' :: 'u' :: a :: b :: c :: d :: rest =>
    match hex4? a b c d with
    | none => .error .malformed
    | some unit =>
      if unit < 0xD800 || 0xDFFF < unit then prepend (Char.ofNat unit) (stringBody rest)
      else if 0xDC00 ≤ unit then .error .malformed
      else
        -- The first half of a pair; the second has to follow.
        match rest with
        | '\\' :: 'u' :: e :: f :: g :: h :: rest =>
          match hex4? e f g h with
          | none => .error .malformed
          | some second =>
            if 0xDC00 ≤ second && second ≤ 0xDFFF then
              prepend (Char.ofNat (0x10000 + (unit - 0xD800) * 1024 + (second - 0xDC00)))
                (stringBody rest)
            else .error .malformed
        | _ => .error .malformed
  | '\\' :: c :: rest =>
    match simpleEscape? c with
    | none => .error .malformed
    | some c => prepend c (stringBody rest)
  | c :: rest => if c.toNat < 0x20 then .error .malformed else prepend c (stringBody rest)

def boolOf? (cs : List Char) : Option (Bool × List Char) :=
  match Text.strip? ['t', 'r', 'u', 'e'] cs with
  | some rest => some (true, rest)
  | none => (Text.strip? ['f', 'a', 'l', 's', 'e'] cs).map fun rest => (false, rest)

-- What value begins here. A number or a string has to be well-formed to its end, a sequence or
-- a map is known by its first character.
def found : Reader Found := fun cs =>
  match cs with
  | [] => .error .malformed
  | c :: rest =>
    if c = '"' then (stringBody rest).map fun (text, rest) => (.str (String.ofList text), rest)
    else if c = '[' then .ok (.sequence, rest)
    else if c = '\x7b' then .ok (.map, rest)
    else if c = '-' || c.isDigit then
      match numberText? cs with
      | none => .error .malformed
      | some (number, rest) =>
        match number.found? with
        | none => .error .malformed
        | some value => .ok (value, rest)
    else
      match Text.strip? ['n', 'u', 'l', 'l'] cs, boolOf? cs with
      | some rest, _ => .ok (.null, rest)
      | none, some (b, rest) => .ok (.bool b, rest)
      | none, none => .error .malformed

def refuse {α : Type} (wanted : String) (cs : List Char) : Except Problem α :=
  match found cs with
  | .ok (value, _) => .error (.wrongType value wanted)
  | .error p => .error p

def stringFor (wanted : String) : Reader String := fun cs =>
  match skipBlank cs with
  | '"' :: rest => (stringBody rest).map fun (text, rest) => (String.ofList text, rest)
  | cs => refuse wanted cs

def string : Reader String :=
  stringFor "a string"

def index : Reader Nat := fun cs =>
  match found (skipBlank cs) with
  | .error p => .error p
  | .ok (.int n, rest) => if n < 0 then .error (.wrongValue n "usize") else .ok (n.toNat, rest)
  | .ok (other, _) => .error (.wrongType other "usize")

def nullable {α : Type} (read : Reader α) : Reader (Option α) := fun cs =>
  match skipBlank cs with
  | 'n' :: rest =>
    match Text.strip? ['u', 'l', 'l'] rest with
    | some rest => .ok (none, rest)
    | none => .error .malformed
  | cs => (read cs).map fun (value, rest) => (some value, rest)

def expect (c : Char) (cs : List Char) : Except Problem (List Char) :=
  match skipBlank cs with
  | d :: rest => if d = c then .ok rest else .error .malformed
  | [] => .error .malformed

def lookup {α : Type} (words : List (String × α)) (word : String) : Except Problem α :=
  match words.find? (·.1 == word) with
  | some entry => .ok entry.2
  | none => .error (.unknownWord word (words.map (·.1)))

def word {α : Type} (words : List (String × α)) : Reader α := fun cs =>
  match skipBlank cs with
  | '"' :: rest => do
    let (text, rest) ← stringBody rest
    let value ← lookup words (String.ofList text)
    return (value, rest)
  | '\x7b' :: rest => do
    let (text, rest) ← stringFor "variant identifier" rest
    let value ← lookup words text
    let rest ← expect ':' rest
    match found (skipBlank rest) with
    | .error p => .error p
    | .ok (.null, rest) => return (value, ← expect '\x7d' rest)
    | .ok (other, _) => .error (.wrongType other "unit")
  | _ => .error .malformed

-- Behind the opening quote; a value that is passed over may hold half a pair of code units.
def skipString : List Char → Option (List Char)
  | [] => none
  | '"' :: rest => some rest
  | '\\' :: 'u' :: a :: b :: c :: d :: rest =>
    match hex4? a b c d with
    | none => none
    | some _ => skipString rest
  | '\\' :: c :: rest => if (simpleEscape? c).isSome then skipString rest else none
  | c :: rest => if c.toNat < 0x20 then none else skipString rest

mutual

def skipValue (fuel : Nat) (cs : List Char) : Option (List Char) :=
  match fuel with
  | 0 => none
  | fuel + 1 =>
    match skipBlank cs with
    | [] => none
    | c :: rest =>
      if c = '"' then skipString rest
      else if c = '[' then skipItems fuel true rest
      else if c = '\x7b' then skipMembers fuel true rest
      else if c = '-' || c.isDigit then (numberText? (c :: rest)).map (·.2)
      else
        match Text.strip? ['n', 'u', 'l', 'l'] (c :: rest) with
        | some rest => some rest
        | none => (boolOf? (c :: rest)).map (·.2)

def skipItems (fuel : Nat) (first : Bool) (cs : List Char) : Option (List Char) :=
  match fuel with
  | 0 => none
  | fuel + 1 =>
    match skipBlank cs with
    | [] => none
    | c :: rest =>
      if c = ']' then some rest
      else if first then (skipValue fuel (c :: rest)).bind (skipItems fuel false)
      else if c = ',' then
        match skipBlank rest with
        | ']' :: _ => none
        | next => (skipValue fuel next).bind (skipItems fuel false)
      else none

def skipMembers (fuel : Nat) (first : Bool) (cs : List Char) : Option (List Char) :=
  match fuel with
  | 0 => none
  | fuel + 1 =>
    match skipBlank cs with
    | [] => none
    | c :: rest =>
      if c = '\x7d' then some rest
      else
        let next := if first then some (c :: rest) else if c = ',' then some (skipBlank rest) else none
        match next with
        | some ('"' :: rest) =>
          (skipString rest).bind fun rest =>
            match skipBlank rest with
            | ':' :: rest => (skipValue fuel rest).bind (skipMembers fuel false)
            | _ => none
        | _ => none

end

def skip : Reader Unit := fun cs =>
  match skipValue (2 * cs.length + 2) cs with
  | some rest => .ok ((), rest)
  | none => .error .malformed

-- Items up to the closing bracket; `fuel` bounds their number.
def items {α : Type} (read : Reader α) (fuel : Nat) (first : Bool) : Reader (List α) := fun cs =>
  match fuel with
  | 0 => .error .malformed
  | fuel + 1 =>
    match skipBlank cs with
    | [] => .error .malformed
    | c :: rest =>
      if c = ']' then .ok ([], rest)
      else if !first && c ≠ ',' then .error .malformed
      else do
        let next := if first then c :: rest else skipBlank rest
        if next.head? == some ']' then .error .malformed
        let (item, rest) ← read next
        let (later, rest) ← items read fuel false rest
        return (item :: later, rest)

def sequence {α : Type} (read : Reader α) : Reader (List α) := fun cs =>
  match skipBlank cs with
  | '[' :: rest => items read (rest.length + 1) true rest
  | cs => refuse "a sequence" cs

def document {α : Type} (read : Reader α) (text : String) : Except Problem α := do
  let (value, rest) ← read text.toList
  if (skipBlank rest).isEmpty then return value else .error .malformed

end ScoreFilter.Json

import ScoreFilter.Decimal.Digits
import ScoreFilter.Text.Hex

namespace ScoreFilter

inductive Json where
  | null
  | bool (value : Bool)
  | int (value : Int)
  | str (value : String)
  | arr (items : List Json)
  | obj (members : List (String × Json))

namespace Json

-- Only what a JSON string cannot hold as it is.
def escape (c : Char) : List Char :=
  if c = '"' then ['\\', '"']
  else if c = '\\' then ['\\', '\\']
  else if c = '\x08' then ['\\', 'b']
  else if c = '\x0c' then ['\\', 'f']
  else if c = '\n' then ['\\', 'n']
  else if c = '\r' then ['\\', 'r']
  else if c = '\t' then ['\\', 't']
  else if c.toNat < 0x20 then
    ['\\', 'u', '0', '0', Text.lowerHex (c.toNat / 16), Text.lowerHex (c.toNat % 16)]
  else [c]

def quote (s : List Char) : List Char :=
  '"' :: (s.flatMap escape ++ ['"'])

def intText (n : Int) : List Char :=
  if n < 0 then '-' :: Decimal.digits n.natAbs else Decimal.digits n.natAbs

def boolText : Bool → List Char
  | true => ['t', 'r', 'u', 'e']
  | false => ['f', 'a', 'l', 's', 'e']

mutual

def compactChars : Json → List Char
  | .null => ['n', 'u', 'l', 'l']
  | .bool b => boolText b
  | .int n => intText n
  | .str s => quote s.toList
  | .arr items => '[' :: (compactItems items ++ [']'])
  | .obj members => '\x7b' :: (compactMembers members ++ ['\x7d'])

def compactItems : List Json → List Char
  | [] => []
  | item :: rest => compactChars item ++ compactMoreItems rest

def compactMoreItems : List Json → List Char
  | [] => []
  | item :: rest => ',' :: (compactChars item ++ compactMoreItems rest)

def compactMembers : List (String × Json) → List Char
  | [] => []
  | (key, value) :: rest =>
    quote key.toList ++ ':' :: (compactChars value ++ compactMoreMembers rest)

def compactMoreMembers : List (String × Json) → List Char
  | [] => []
  | (key, value) :: rest =>
    ',' :: (quote key.toList ++ ':' :: (compactChars value ++ compactMoreMembers rest))

end

def compact (value : Json) : String :=
  String.ofList value.compactChars

def newLine (depth : Nat) : List Char :=
  '\n' :: List.replicate (2 * depth) ' '

mutual

def prettyChars (depth : Nat) : Json → List Char
  | .null => ['n', 'u', 'l', 'l']
  | .bool b => boolText b
  | .int n => intText n
  | .str s => quote s.toList
  | .arr [] => ['[', ']']
  | .arr (item :: rest) =>
    '[' :: (newLine (depth + 1) ++ prettyChars (depth + 1) item ++ prettyItems (depth + 1) rest ++
      newLine depth ++ [']'])
  | .obj [] => ['\x7b', '\x7d']
  | .obj ((key, value) :: rest) =>
    '\x7b' :: (newLine (depth + 1) ++ quote key.toList ++ [':', ' '] ++
      prettyChars (depth + 1) value ++ prettyMembers (depth + 1) rest ++ newLine depth ++ ['\x7d'])

def prettyItems (depth : Nat) : List Json → List Char
  | [] => []
  | item :: rest =>
    ',' :: (newLine depth ++ prettyChars depth item ++ prettyItems depth rest)

def prettyMembers (depth : Nat) : List (String × Json) → List Char
  | [] => []
  | (key, value) :: rest =>
    ',' :: (newLine depth ++ quote key.toList ++ [':', ' '] ++ prettyChars depth value ++
      prettyMembers depth rest)

end

def pretty (value : Json) : String :=
  String.ofList (value.prettyChars 0)

def optional (key : String) (value : Option Json) : List (String × Json) :=
  match value with
  | none => []
  | some value => [(key, value)]

end Json

end ScoreFilter

import ScoreFilter.Toml.Scalar
import ScoreFilter.Toml.Text

namespace ScoreFilter.Toml

def isWs (c : Char) : Bool :=
  c == ' ' || c == '\t'

def skipWs (cs : List Char) : List Char :=
  cs.dropWhile isWs

def lineBreak? : List Char → Option (List Char)
  | '\n' :: rest => some rest
  | '\r' :: '\n' :: rest => some rest
  | _ => none

def skipComment : List Char → List Char
  | '#' :: cs => cs.dropWhile isPlain
  | cs => cs

def endOfLine? (cs : List Char) : Option (List Char) :=
  match skipComment (skipWs cs) with
  | [] => some []
  | rest => lineBreak? rest

-- How deep arrays and inline tables go, and how many parts a key has, stays below this.
def depthLimit : Nat := 80

def isBareKey (c : Char) : Bool :=
  c.isAlphanum || c == '_' || c == '-'

def simpleKey? (cs : List Char) : Option (String × List Char) :=
  match cs with
  | [] => none
  | c :: _ =>
    if c = '"' || c = '\'' then
      (lineString? cs).map fun (text, rest) => (String.ofList text, rest)
    else if isBareKey c then
      some (String.ofList (cs.takeWhile isBareKey), cs.dropWhile isBareKey)
    else none

def keyParts? (fuel : Nat) (cs : List Char) : Option (List String × List Char) :=
  match fuel with
  | 0 => none
  | fuel + 1 =>
    match skipWs cs with
    | '.' :: rest => do
      let (part, rest) ← simpleKey? (skipWs rest)
      let (parts, rest) ← keyParts? fuel rest
      return (part :: parts, rest)
    | rest => some ([], rest)

def key? (cs : List Char) : Option (List String × String × List Char) := do
  let (first, rest) ← simpleKey? (skipWs cs)
  let (parts, rest) ← keyParts? (rest.length + 1) rest
  let all := first :: parts
  if depthLimit ≤ all.length then none
  else return (all.dropLast, all.getLast?.getD first, rest)

def isScalarChar (c : Char) : Bool :=
  c.isAlphanum || c == '+' || c == '-' || c == '_' || c == '.' || c == ':'

-- A day and the time after a blank are one value.
def scalarText (cs : List Char) : List Char × List Char :=
  let text := cs.takeWhile isScalarChar
  match date? text, cs.dropWhile isScalarChar with
  | some [], ' ' :: c :: rest =>
    if c.isDigit then
      (text ++ ' ' :: (c :: rest).takeWhile isScalarChar, (c :: rest).dropWhile isScalarChar)
    else (text, ' ' :: c :: rest)
  | _, rest => (text, rest)

def skipLines (fuel : Nat) (cs : List Char) : Option (List Char) :=
  match fuel with
  | 0 => none
  | fuel + 1 =>
    match skipWs cs with
    | '#' :: rest => (lineBreak? (skipComment ('#' :: rest))).bind (skipLines fuel)
    | '\n' :: rest => skipLines fuel rest
    | '\r' :: '\n' :: rest => skipLines fuel rest
    | rest => some rest

mutual

def value? (fuel depth : Nat) (cs : List Char) : Option (Item × List Char) :=
  match fuel with
  | 0 => none
  | fuel + 1 =>
    match cs with
    | [] => none
    | c :: rest =>
      if c = '"' || c = '\'' then
        (string? cs).map fun (text, rest) => (.str (String.ofList text), rest)
      else if c = '[' then
        if depthLimit ≤ depth + 1 then none
        else (arrayItems? fuel (depth + 1) rest).map fun (items, rest) => (.array items, rest)
      else if c = '\x7b' then
        if depthLimit ≤ depth + 1 then none
        else
          match skipWs rest with
          | '\x7d' :: rest => some (.inline [], rest)
          | rest =>
            (inlinePairs? fuel (depth + 1) [] rest).map fun (es, rest) => (.inline es, rest)
      else
        let (text, rest) := scalarText cs
        (scalar? text).map fun item => (item, rest)

def arrayItems? (fuel depth : Nat) (cs : List Char) : Option (List Item × List Char) :=
  match fuel with
  | 0 => none
  | fuel + 1 =>
    match skipLines (cs.length + 1) cs with
    | none => none
    | some (']' :: rest) => some ([], rest)
    | some cs =>
      match value? fuel depth cs with
      | none => none
      | some (item, rest) =>
        match skipLines (rest.length + 1) rest with
        | some (',' :: rest) =>
          (arrayItems? fuel depth rest).map fun (items, rest) => (item :: items, rest)
        | some (']' :: rest) => some ([item], rest)
        | _ => none

def inlinePairs? (fuel depth : Nat) (es : Entries) (cs : List Char) :
    Option (Entries × List Char) :=
  match fuel with
  | 0 => none
  | fuel + 1 =>
    match key? cs with
    | some (path, name, '=' :: rest) =>
      match value? fuel depth (skipWs rest) with
      | none => none
      | some (item, rest) =>
        match es.addDotted? path name item, skipWs rest with
        | some es, ',' :: rest => inlinePairs? fuel depth es rest
        | some es, '\x7d' :: rest => some (es, rest)
        | _, _ => none
    | _ => none

end

def header? (cs : List Char) : Option (Statement × List Char) := do
  let (path, name, rest) ← key? cs
  match rest with
  | ']' :: rest => return (.header path name, ← endOfLine? rest)
  | _ => none

def elementHeader? (cs : List Char) : Option (Statement × List Char) := do
  let (path, name, rest) ← key? cs
  match rest with
  | ']' :: ']' :: rest => return (.element path name, ← endOfLine? rest)
  | _ => none

def pair? (cs : List Char) : Option (Statement × List Char) := do
  let (path, name, rest) ← key? cs
  match rest with
  | '=' :: rest =>
    let value := skipWs rest
    let (item, rest) ← value? (2 * value.length + 2) 0 value
    return (.pair path name item, ← endOfLine? rest)
  | _ => none

def statement? : List Char → Option (Statement × List Char)
  | '[' :: '[' :: rest => elementHeader? rest
  | '[' :: rest => header? rest
  | cs => pair? cs

-- The statements of a document; `fuel` bounds the number of lines.
def statements? (fuel : Nat) (cs : List Char) : Option (List Statement) :=
  match fuel with
  | 0 => none
  | fuel + 1 =>
    match skipWs cs with
    | [] => some []
    | c :: rest =>
      if c = '#' || c = '\n' || c = '\r' then
        (endOfLine? (c :: rest)).bind (statements? fuel)
      else do
        let (statement, rest) ← statement? (c :: rest)
        return statement :: (← statements? fuel rest)

-- A byte order mark may stand at the very beginning.
def dropMark : List Char → List Char
  | '﻿' :: cs => cs
  | cs => cs

def ofDocument? (text : String) : Option Entries :=
  let cs := dropMark text.toList
  (statements? (cs.length + 1) cs).bind build?

end ScoreFilter.Toml

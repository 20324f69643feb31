import ScoreFilter.Text.Hex

namespace ScoreFilter.Toml

def isPlain (c : Char) : Bool :=
  c == '\t' || (0x20 ≤ c.toNat && c.toNat ≠ 0x7F)

def codePoint? (ds : List Char) : Option Char := do
  let n ← Text.radixValue? 16 ds
  if n < 0xD800 || (0xDFFF < n && n < 0x110000) then some (Char.ofNat n) else none

def shortEscape? (c : Char) : Option Char :=
  if c = 'b' then some '\x08'
  else if c = 't' then some '\t'
  else if c = 'n' then some '\n'
  else if c = 'f' then some '\x0c'
  else if c = 'r' then some '\r'
  else if c = '"' then some '"'
  else if c = '\\' then some '\\'
  else none

def prepend (c : Option Char) (r : Option (List Char × List Char)) :
    Option (List Char × List Char) :=
  match c, r with
  | some c, some (text, rest) => some (c :: text, rest)
  | _, _ => none

def basicBody? : List Char → Option (List Char × List Char)
  | [] => none
  | '"' :: rest => some ([], rest)
  | '\\' :: 'u' :: a :: b :: c :: d :: rest => prepend (codePoint? [a, b, c, d]) (basicBody? rest)
  | '\\' :: 'U' :: a :: b :: c :: d :: e :: f :: g :: h :: rest =>
    prepend (codePoint? [a, b, c, d, e, f, g, h]) (basicBody? rest)
  | '\\' :: c :: rest => prepend (shortEscape? c) (basicBody? rest)
  | c :: rest => if isPlain c then prepend (some c) (basicBody? rest) else none

def literalBody? : List Char → Option (List Char × List Char)
  | [] => none
  | '\'' :: rest => some ([], rest)
  | c :: rest => if isPlain c then prepend (some c) (literalBody? rest) else none

inductive Trim where
  | off
  -- The line break has still to come.
  | beforeBreak
  -- Blanks and line breaks are passed over.
  | on
deriving DecidableEq

-- Quotes behind the closing three belong to the text, at most two.
def closing (quote : Char) : List Char → List Char × List Char
  | a :: b :: rest =>
    if a = quote then if b = quote then ([a, b], rest) else ([a], b :: rest)
    else ([], a :: b :: rest)
  | [a] => if a = quote then ([a], []) else ([], [a])
  | [] => ([], [])

def multiBasicBody? (trim : Trim) : List Char → Option (List Char × List Char)
  | [] => none
  | '\r' :: '\n' :: rest =>
    if trim = .off then prepend (some '\n') (multiBasicBody? .off rest)
    else multiBasicBody? .on rest
  | '\n' :: rest =>
    if trim = .off then prepend (some '\n') (multiBasicBody? .off rest)
    else multiBasicBody? .on rest
  | ' ' :: rest =>
    if trim = .off then prepend (some ' ') (multiBasicBody? .off rest)
    else multiBasicBody? trim rest
  | '\t' :: rest =>
    if trim = .off then prepend (some '\t') (multiBasicBody? .off rest)
    else multiBasicBody? trim rest
  | '"' :: '"' :: '"' :: rest =>
    if trim = .beforeBreak then none else some (closing '"' rest)
  | '\\' :: 'u' :: a :: b :: c :: d :: rest =>
    if trim = .beforeBreak then none
    else prepend (codePoint? [a, b, c, d]) (multiBasicBody? .off rest)
  | '\\' :: 'U' :: a :: b :: c :: d :: e :: f :: g :: h :: rest =>
    if trim = .beforeBreak then none
    else prepend (codePoint? [a, b, c, d, e, f, g, h]) (multiBasicBody? .off rest)
  | '\\' :: c :: rest =>
    if trim = .beforeBreak then none
    else if c = '\n' then multiBasicBody? .on rest
    else if c = ' ' || c = '\t' || c = '\r' then
      -- A carriage return counts only before its line feed.
      if c = '\r' && rest.head? ≠ some '\n' then none else multiBasicBody? .beforeBreak rest
    else prepend (shortEscape? c) (multiBasicBody? .off rest)
  | c :: rest =>
    if trim = .beforeBreak then none
    else if isPlain c then prepend (some c) (multiBasicBody? .off rest)
    else none

def multiLiteralBody? : List Char → Option (List Char × List Char)
  | [] => none
  | '\r' :: '\n' :: rest => prepend (some '\n') (multiLiteralBody? rest)
  | '\'' :: '\'' :: '\'' :: rest => some (closing '\'' rest)
  | c :: rest =>
    if isPlain c || c = '\n' then prepend (some c) (multiLiteralBody? rest) else none

-- A line break right behind the opening quotes is not part of the text.
def dropBreak : List Char → List Char
  | '\r' :: '\n' :: rest => rest
  | '\n' :: rest => rest
  | cs => cs

def lineString? : List Char → Option (List Char × List Char)
  | '"' :: rest => basicBody? rest
  | '\'' :: rest => literalBody? rest
  | _ => none

def string? : List Char → Option (List Char × List Char)
  | '"' :: '"' :: '"' :: rest => multiBasicBody? .off (dropBreak rest)
  | '\'' :: '\'' :: '\'' :: rest => multiLiteralBody? (dropBreak rest)
  | cs => lineString? cs

def longestRun (q : Char) (run : Nat) : List Char → Nat
  | [] => 0
  | c :: cs => if c = q then max (run + 1) (longestRun q (run + 1) cs) else longestRun q 0 cs

def isControl (c : Char) : Bool :=
  c.toNat < 0x20 || c.toNat = 0x7F

def needsEscape (cs : List Char) : Bool :=
  cs.any fun c => isControl c && c ≠ '\t' && c ≠ '\n'

def escaped (c : Char) : List Char :=
  if c = '\x08' then ['\\', 'b']
  else if c = '\t' then ['\\', 't']
  else if c = '\n' then ['\\', 'n']
  else if c = '\x0c' then ['\\', 'f']
  else if c = '\r' then ['\\', 'r']
  else if c = '"' then ['\\', '"']
  else if c = '\\' then ['\\', '\\']
  else if isControl c then
    ['\\', 'u', '0', '0', Text.upperHex (c.toNat / 16), Text.upperHex (c.toNat % 16)]
  else [c]

def writeBasic (cs : List Char) : List Char :=
  '"' :: (cs.flatMap escaped ++ ['"'])

-- Line breaks stand as they are, and so do up to two quotes in a row.
def multiBasicText (quotes : Nat) : List Char → List Char
  | [] => []
  | c :: cs =>
    if c = '"' then
      if quotes < 2 then '"' :: multiBasicText (quotes + 1) cs
      else '\\' :: '"' :: multiBasicText 0 cs
    else if c = '\n' then '\n' :: multiBasicText 0 cs
    else escaped c ++ multiBasicText 0 cs

def opening (quote : Char) (cs : List Char) : List Char :=
  List.replicate 3 quote ++ if cs.contains '\n' then ['\n'] else []

def writeMultiBasic (cs : List Char) : List Char :=
  opening '"' cs ++ multiBasicText 0 cs ++ List.replicate 3 '"'

def writeLiteral (cs : List Char) : List Char :=
  '\'' :: (cs ++ ['\''])

def writeMultiLiteral (cs : List Char) : List Char :=
  opening '\'' cs ++ cs ++ List.replicate 3 '\''

-- A string in the plainest form that can hold it: double quotes without an escape, single quotes,
-- three of either, and only then escapes.
def writeString (cs : List Char) : List Char :=
  let breaks := cs.contains '\n'
  let control := needsEscape cs
  let backslash := cs.contains '\\'
  if !control && !backslash && !cs.contains '"' && !breaks then writeBasic cs
  else if !control && !cs.contains '\'' && !breaks then writeLiteral cs
  else if !control && !backslash && longestRun '"' 0 cs ≤ 2 then writeMultiBasic cs
  else if !control && longestRun '\'' 0 cs ≤ 2 then writeMultiLiteral cs
  else if breaks then writeMultiBasic cs
  else writeBasic cs

end ScoreFilter.Toml

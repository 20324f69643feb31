import ScoreFilter.Catalog
import ScoreFilter.Token

namespace ScoreFilter

-- The token that the cursor is still at the end of, and those before it, nearest first.
structure Lookback where
  current : Option Token
  earlier : List Token
deriving DecidableEq

namespace Lookback

def opensWord (t : Token) : Bool :=
  t.text == "(" || t.text == "."

def ofTokens (tokens : List Token) (cursor : Nat) : Lookback :=
  match tokens.reverse with
  | [] => ⟨none, []⟩
  | last :: earlier =>
    if last.stop = cursor && !opensWord last then ⟨some last, earlier⟩
    else ⟨none, last :: earlier⟩

-- The `k`-th token back and those before it; the one being typed counts as the zeroth.
def back (l : Lookback) : Nat → List Token
  | 0 => match l.current with
    | none => []
    | some t => t :: l.earlier
  | k + 1 => l.earlier.drop k

def token? (l : Lookback) (k : Nat) : Option Token :=
  (l.back k).head?

def start (l : Lookback) (cursor : Nat) : Nat :=
  match l.current with
  | none => cursor
  | some t => t.start

-- Names that stand before points, nearest first.
def pointed : List Token → List String
  | point :: part :: rest =>
    if point.text = "." ∧ part.kind = .name then part.text :: pointed rest else []
  | _ => []

def dottedName? : List Token → Option String
  | [] => none
  | t :: rest =>
    if t.kind = .name then some (String.intercalate "." (t.text :: pointed rest).reverse)
    else none

def qualifiedName? (l : Lookback) (k : Nat) : Option String :=
  dottedName? (l.back k)

def field? (l : Lookback) (k : Nat) (catalog : Catalog) : Option Field :=
  (l.qualifiedName? k).bind catalog.get?

end Lookback

end ScoreFilter

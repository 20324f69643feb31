import ScoreFilter.Decimal.Binary64
import ScoreFilter.Json.Problem

namespace ScoreFilter.Json

structure NumberText where
  negative : Bool
  whole : List Char
  fraction : Option (List Char)
  -- Sign and digits, absent without a mark for it.
  exponent : Option (Bool × List Char)

def digits? (cs : List Char) : Option (List Char × List Char) :=
  if (cs.takeWhile Char.isDigit).isEmpty then none
  else some (cs.takeWhile Char.isDigit, cs.dropWhile Char.isDigit)

-- No zero in front of other digits.
def whole? (cs : List Char) : Option (List Char × List Char) :=
  match digits? cs with
  | none => none
  | some ('0' :: _ :: _, _) => none
  | some (ds, rest) => some (ds, rest)

def fraction? : List Char → Option (Option (List Char) × List Char)
  | '.' :: cs => (digits? cs).map fun (ds, rest) => (some ds, rest)
  | cs => some (none, cs)

def exponentSign : List Char → Bool × List Char
  | '+' :: cs => (false, cs)
  | '-' :: cs => (true, cs)
  | cs => (false, cs)

def exponent? : List Char → Option (Option (Bool × List Char) × List Char)
  | [] => some (none, [])
  | c :: cs =>
    if c == 'e' || c == 'E' then
      let (negative, unsigned) := exponentSign cs
      (digits? unsigned).map fun (ds, rest) => (some (negative, ds), rest)
    else some (none, c :: cs)

def minus : List Char → Bool × List Char
  | '-' :: cs => (true, cs)
  | cs => (false, cs)

def numberText? (cs : List Char) : Option (NumberText × List Char) := do
  let (negative, unsigned) := minus cs
  let (whole, afterWhole) ← whole? unsigned
  let (fraction, afterFraction) ← fraction? afterWhole
  let (exponent, rest) ← exponent? afterFraction
  some (⟨negative, whole, fraction, exponent⟩, rest)

-- Digits join the significand while it fits 64 bits; the second part counts those left over.
def gather (significand : Nat) : List Char → Nat × Nat
  | [] => (significand, 0)
  | d :: ds =>
    let next := 10 * significand + Decimal.digitValue d
    if next < Nat.pow 2 64 then gather next ds else (significand, ds.length + 1)

def signed (negative : Bool) (x : Decimal.Binary64) : Found :=
  .float (String.ofList (if negative then '-' :: x.text else x.text))

namespace NumberText

def exponentValue (n : NumberText) : Int :=
  match n.exponent with
  | none => 0
  | some (true, ds) => -(Decimal.value ds : Int)
  | some (false, ds) => Decimal.value ds

def float? (n : NumberText) : Option Found :=
  let (whole, skipped) := gather 0 n.whole
  let fraction := n.fraction.getD []
  let (significand, dropped) := gather whole fraction
  let taken := fraction.length - dropped
  (Decimal.Binary64.scaled? significand ((skipped : Int) - taken + n.exponentValue)).map
    (signed n.negative)

def found? (n : NumberText) : Option Found :=
  if n.fraction.isNone && n.exponent.isNone then
    let value := Decimal.value n.whole
    if !n.negative && value < Nat.pow 2 64 then some (.int value)
    else if n.negative && value ≠ 0 && value ≤ Nat.pow 2 63 then some (.int (-value))
    else n.float?
  else n.float?

end NumberText

end ScoreFilter.Json

import ScoreFilter.Decimal.Binary64
import ScoreFilter.Text.Hex
import ScoreFilter.Toml.Item

namespace ScoreFilter.Toml

def isDigitOf (radix : Nat) (c : Char) : Bool :=
  (Text.hexValue? c).any (· < radix)

def moreDigits? (isDigit : Char → Bool) : List Char → Option (List Char × List Char)
  | '_' :: c :: cs =>
    if isDigit c then (moreDigits? isDigit cs).map fun (ds, rest) => (c :: ds, rest) else none
  | ['_'] => none
  | c :: cs =>
    if isDigit c then (moreDigits? isDigit cs).map fun (ds, rest) => (c :: ds, rest)
    else some ([], c :: cs)
  | [] => some ([], [])

def digitRun? (isDigit : Char → Bool) : List Char → Option (List Char × List Char)
  | [] => none
  | c :: cs =>
    if isDigit c then (moreDigits? isDigit cs).map fun (ds, rest) => (c :: ds, rest) else none

def signOf : List Char → Bool × List Char
  | '-' :: cs => (true, cs)
  | '+' :: cs => (false, cs)
  | cs => (false, cs)

def wholePart? (cs : List Char) : Option (List Char × List Char) :=
  match digitRun? Char.isDigit cs with
  | some ('0' :: _ :: _, _) => none
  | other => other

def radixInt? (radix : Nat) (cs : List Char) : Option Item :=
  match digitRun? (isDigitOf radix) cs with
  | some (ds, []) => ((Text.radixValue? radix ds).filter (· < Nat.pow 2 63)).map fun n => .int n
  | _ => none

def decimalInt? (cs : List Char) : Option Item :=
  let (negative, unsigned) := signOf cs
  match wholePart? unsigned with
  | some (ds, []) =>
    let n := Decimal.value ds
    if negative then if n ≤ Nat.pow 2 63 then some (.int (-n)) else none
    else if n < Nat.pow 2 63 then some (.int n) else none
  | _ => none

def int? : List Char → Option Item
  | '0' :: 'x' :: cs => radixInt? 16 cs
  | '0' :: 'o' :: cs => radixInt? 8 cs
  | '0' :: 'b' :: cs => radixInt? 2 cs
  | cs => decimalInt? cs

-- `ds * 10 ^ exponent` is beyond every float. Far from the limit the digits are not looked at.
def overflows (ds : List Char) (exponent : Int) : Bool :=
  let ds := ds.dropWhile (· == '0')
  let magnitude := (ds.length : Int) + exponent
  if ds.isEmpty || magnitude < 300 then false
  else if 310 < magnitude then true
  else
    let n := Decimal.value ds
    if exponent < 0 then (Decimal.Binary64.nearest? n (Nat.pow 10 exponent.natAbs)).isNone
    else (Decimal.Binary64.nearest? (n * Nat.pow 10 exponent.natAbs) 1).isNone

def fractionPart? : List Char → Option (Option (List Char) × List Char)
  | '.' :: cs => (digitRun? Char.isDigit cs).map fun (ds, rest) => (some ds, rest)
  | cs => some (none, cs)

def exponentPart? : List Char → Option (Option Int × List Char)
  | [] => some (none, [])
  | c :: cs =>
    if c == 'e' || c == 'E' then
      let (negative, unsigned) := signOf cs
      (digitRun? Char.isDigit unsigned).map fun (ds, rest) =>
        (some (if negative then -(Decimal.value ds : Int) else Decimal.value ds), rest)
    else some (none, c :: cs)

def finiteFloat? (cs : List Char) : Option Item := do
  let (negative, unsigned) := signOf cs
  let (whole, rest) ← wholePart? unsigned
  let (fraction, rest) ← fractionPart? rest
  let (exponent, rest) ← exponentPart? rest
  let decimals := fraction.getD []
  if !rest.isEmpty || (fraction.isNone && exponent.isNone) then none
  else if !negative && overflows (whole ++ decimals) (exponent.getD 0 - decimals.length) then none
  else some .float

-- A float; one too large is refused unless it is negative.
def float? (cs : List Char) : Option Item :=
  if (signOf cs).2 = ['i', 'n', 'f'] || (signOf cs).2 = ['n', 'a', 'n'] then some .float
  else finiteFloat? cs

def twoDigits? (low high : Nat) : List Char → Option (Nat × List Char)
  | a :: b :: cs =>
    if a.isDigit && b.isDigit then
      let n := Decimal.value [a, b]
      if low ≤ n && n ≤ high then some (n, cs) else none
    else none
  | _ => none

def fourDigits? : List Char → Option (Nat × List Char)
  | a :: b :: c :: d :: cs =>
    if a.isDigit && b.isDigit && c.isDigit && d.isDigit then
      some (Decimal.value [a, b, c, d], cs)
    else none
  | _ => none

def mark? (c : Char) : List Char → Option (List Char)
  | d :: cs => if c = d then some cs else none
  | [] => none

def daysOf (year month : Nat) : Nat :=
  if month = 2 then
    if year % 4 = 0 && (year % 100 ≠ 0 || year % 400 = 0) then 29 else 28
  else if month = 4 || month = 6 || month = 9 || month = 11 then 30
  else 31

def date? (cs : List Char) : Option (List Char) := do
  let (year, cs) ← fourDigits? cs
  let (month, cs) ← twoDigits? 1 12 (← mark? '-' cs)
  let (_, cs) ← twoDigits? 1 (daysOf year month) (← mark? '-' cs)
  return cs

def secondFraction? : List Char → Option (List Char)
  | '.' :: cs =>
    if (cs.takeWhile Char.isDigit).isEmpty then none else some (cs.dropWhile Char.isDigit)
  | cs => some cs

-- A time of the day to the second or finer; a leap second is a second.
def time? (cs : List Char) : Option (List Char) := do
  let (_, cs) ← twoDigits? 0 23 cs
  let (_, cs) ← twoDigits? 0 59 (← mark? ':' cs)
  let (_, cs) ← twoDigits? 0 60 (← mark? ':' cs)
  secondFraction? cs

-- What ends a date-time: nothing, `Z`, or a distance from it.
def isOffset : List Char → Bool
  | [] => true
  | c :: cs =>
    if c == 'Z' || c == 'z' then cs.isEmpty
    else if c == '+' || c == '-' then
      match twoDigits? 0 23 cs with
      | some (_, ':' :: cs) => (twoDigits? 0 59 cs).any fun p => p.2.isEmpty
      | _ => false
    else false

def dateTime? (cs : List Char) : Option Item :=
  match date? cs with
  | some [] => some .dateTime
  | some (c :: rest) =>
    if c == 'T' || c == 't' || c == ' ' then
      match time? rest with
      | some rest => if isOffset rest then some .dateTime else none
      | none => none
    else none
  | none =>
    match time? cs with
    | some [] => some .dateTime
    | _ => none

def scalar? (cs : List Char) : Option Item :=
  if cs = ['t', 'r', 'u', 'e'] then some (.bool true)
  else if cs = ['f', 'a', 'l', 's', 'e'] then some (.bool false)
  else (dateTime? cs).or ((float? cs).or (int? cs))

end ScoreFilter.Toml

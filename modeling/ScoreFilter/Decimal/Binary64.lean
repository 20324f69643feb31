import ScoreFilter.Decimal.Digits

namespace ScoreFilter.Decimal

structure Binary64 where
  mantissa : Nat
  exponent : Int
deriving DecidableEq

namespace Binary64

def zero : Binary64 :=
  ⟨0, -1074⟩

def roundDiv (num den : Nat) : Nat :=
  let q := num / den
  let twice := 2 * (num % den)
  if den < twice || (den == twice && q % 2 == 1) then q + 1 else q

def nearest? (num den : Nat) : Option Binary64 :=
  if num = 0 then some zero
  else
    -- At most one too small: the quotient has 53 or 54 bits.
    let guess : Int := (Nat.log2 num : Int) - (Nat.log2 den : Int) - 53
    let scaled (e : Int) : Nat × Nat :=
      if e < 0 then (num * Nat.pow 2 e.natAbs, den) else (num, den * Nat.pow 2 e.natAbs)
    let fits (e : Int) : Bool := (scaled e).1 / (scaled e).2 < Nat.pow 2 53
    let e := max (-1074) (if fits guess then guess else guess + 1)
    let m := roundDiv (scaled e).1 (scaled e).2
    let result : Binary64 := if m = Nat.pow 2 53 then ⟨Nat.pow 2 52, e + 1⟩ else ⟨m, e⟩
    if 971 < result.exponent then none else some result

def isZero (x : Binary64) : Bool :=
  x.mantissa == 0

def fraction (x : Binary64) : Nat × Nat :=
  if x.exponent < 0 then (x.mantissa, Nat.pow 2 x.exponent.natAbs)
  else (x.mantissa * Nat.pow 2 x.exponent.natAbs, 1)

def mul? (x y : Binary64) : Option Binary64 :=
  nearest? (x.fraction.1 * y.fraction.1) (x.fraction.2 * y.fraction.2)

def div? (x y : Binary64) : Option Binary64 :=
  nearest? (x.fraction.1 * y.fraction.2) (x.fraction.2 * y.fraction.1)

def pow10? (k : Nat) : Option Binary64 :=
  nearest? (Nat.pow 10 k) 1

-- Down by 10^308 at a time while the exponent is out of reach.
def scaleDown? (fuel : Nat) (x : Binary64) (k : Nat) : Option Binary64 :=
  match fuel with
  | 0 => some zero
  | fuel + 1 =>
    if k ≤ 308 then (pow10? k).bind x.div?
    else if x.isZero then some x
    else ((pow10? 308).bind x.div?).bind fun y => scaleDown? fuel y (k - 308)

-- `significand * 10 ^ exponent`, both factors rounded before they are joined.
def scaled? (significand : Nat) (exponent : Int) : Option Binary64 :=
  (nearest? significand 1).bind fun x =>
    if 0 ≤ exponent then
      if exponent ≤ 308 then (pow10? exponent.natAbs).bind x.mul?
      else if x.isZero then some x
      else none
    -- Two steps down leave nothing of the largest number.
    else scaleDown? 4 x exponent.natAbs

def leading (num den : Nat) : Int :=
  if den ≤ num then ((digits (num / den)).length : Int) - 1
  else
    match (List.range 400).find? fun t => den ≤ num * Nat.pow 10 t with
    | some t => -(t : Int)
    | none => -400

def inUnits (num den : Nat) (k : Int) : Nat × Nat :=
  if k < 0 then (num * Nat.pow 10 k.natAbs, den) else (num, den * Nat.pow 10 k.natAbs)

def readsBack (x : Binary64) (d : Nat) (k : Int) : Bool :=
  let text :=
    if k < 0 then nearest? d (Nat.pow 10 k.natAbs) else nearest? (d * Nat.pow 10 k.natAbs) 1
  text.map fraction == some x.fraction

-- Of the two decimals of `n` digits around the number, one that reads back; the nearer first.
def ofLength? (x : Binary64) (n : Nat) : Option (Nat × Int) :=
  let (num, den) := x.fraction
  let k := leading num den - (n : Int) + 1
  let (a, b) := inUnits num den k
  let low := a / b
  let order := if 2 * (a % b) ≤ b then [low, low + 1] else [low + 1, low]
  (order.find? fun d => d ≠ 0 && readsBack x d k).map fun d => (d, k)

def shortest (x : Binary64) : Nat × Int :=
  ((List.range' 1 17).findSome? (ofLength? x)).getD (0, 0)

def trimZeros (fuel d : Nat) (k : Int) : Nat × Int :=
  match fuel with
  | 0 => (d, k)
  | fuel + 1 => if d ≠ 0 && d % 10 == 0 then trimZeros fuel (d / 10) (k + 1) else (d, k)

def exponentText (e : Int) : List Char :=
  (if e < 0 then '-' else '+') :: digits e.natAbs

-- Shortest text: positional with a point from 10^-5 to below 10^16, else with an exponent.
def text (x : Binary64) : List Char :=
  if x.isZero then ['0', '.', '0']
  else
    let (d, k) := x.shortest
    let (d, k) := trimZeros 20 d k
    let ds := digits d
    let point := (ds.length : Int) + k
    if 0 ≤ k ∧ point ≤ 16 then ds ++ List.replicate k.natAbs '0' ++ ['.', '0']
    else if 0 < point ∧ point ≤ 16 then
      ds.take point.natAbs ++ '.' :: ds.drop point.natAbs
    else if -5 < point ∧ point ≤ 0 then
      ['0', '.'] ++ List.replicate point.natAbs '0' ++ ds
    else
      match ds with
      | [] => []
      | [one] => one :: 'e' :: exponentText (point - 1)
      | first :: rest => first :: '.' :: (rest ++ 'e' :: exponentText (point - 1))

end Binary64

end ScoreFilter.Decimal

import ScoreFilter.Json.Read

namespace ScoreFilter.Json

structure Slot (δ : Type) where
  key : String
  required : Bool
  filled : δ → Bool
  read : δ → Reader δ

structure Shape (δ : Type) where
  name : String
  slots : List (Slot δ)

namespace Shape

variable {δ : Type}

def wanted (shape : Shape δ) : String :=
  "struct " ++ shape.name

def wantedLength (shape : Shape δ) : String :=
  shape.wanted ++ " with " ++ toString shape.slots.length ++ " elements"

def missing? (shape : Shape δ) (draft : δ) : Option String :=
  (shape.slots.find? fun s => s.required && !s.filled draft).map (·.key)

-- The value of one key. A known key that comes again is refused before its value is read.
def member (shape : Shape δ) (draft : δ) (key : String) : Reader δ := fun cs =>
  match shape.slots.find? (·.key == key) with
  | none => do
    let rest ← expect ':' cs
    let ((), rest) ← skip rest
    return (draft, rest)
  | some slot =>
    if slot.filled draft then .error (.repeated key)
    else do
      let rest ← expect ':' cs
      slot.read draft rest

def members (shape : Shape δ) (fuel : Nat) (first : Bool) (draft : δ) : Reader δ := fun cs =>
  match fuel with
  | 0 => .error .malformed
  | fuel + 1 =>
    match skipBlank cs with
    | [] => .error .malformed
    | c :: rest =>
      if c = '\x7d' then
        match shape.missing? draft with
        | some key => .error (.missing key)
        | none => .ok (draft, rest)
      else if !first && c ≠ ',' then .error .malformed
      else
        match if first then c :: rest else skipBlank rest with
        | '"' :: rest => do
          let (key, rest) ← stringBody rest
          let (draft, rest) ← shape.member draft (String.ofList key) rest
          members shape fuel false draft rest
        | _ => .error .malformed

def firstRequired? (position : Nat) : List (Slot δ) → Option Nat
  | [] => none
  | slot :: rest => if slot.required then some position else firstRequired? (position + 1) rest

def elements (shape : Shape δ) (position : Nat) (slots : List (Slot δ)) (draft : δ) : Reader δ :=
  fun cs =>
  match slots with
  | [] =>
    match expect ']' cs with
    | .ok rest => .ok (draft, rest)
    | .error p => .error p
  | slot :: later =>
    match skipBlank cs with
    | [] => .error .malformed
    | c :: rest =>
      if c = ']' then
        match firstRequired? position (slot :: later) with
        | some n => .error (.tooShort n shape.wantedLength)
        | none => .ok (draft, rest)
      else if position ≠ 0 && c ≠ ',' then .error .malformed
      else do
        let next := if position = 0 then c :: rest else skipBlank rest
        if next.head? == some ']' then .error .malformed
        let (draft, rest) ← slot.read draft next
        elements shape (position + 1) later draft rest

def read (shape : Shape δ) (empty : δ) : Reader δ := fun cs =>
  match skipBlank cs with
  | '\x7b' :: rest => shape.members (rest.length + 1) true empty rest
  | '[' :: rest => shape.elements 0 shape.slots empty rest
  | cs => refuse shape.wanted cs

end Shape

end ScoreFilter.Json

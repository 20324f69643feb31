namespace ScoreFilter.Toml

inductive Origin where
  | header
  | implied
  | dotted
deriving DecidableEq

-- Of floats and dates only the kind is kept.
inductive Item where
  | str (value : String)
  | int (value : Int)
  | float
  | bool (value : Bool)
  | dateTime
  | array (items : List Item)
  -- A table between braces, which nothing can be added to.
  | inline (entries : List (String × Item))
  | table (origin : Origin) (entries : List (String × Item))
  -- Tables under one name, the last one opened first.
  | tables (last : List (String × Item)) (earlier : List (List (String × Item)))

abbrev Entries := List (String × Item)

inductive Statement where
  | header (path : List String) (name : String)
  | element (path : List String) (name : String)
  | pair (path : List String) (name : String) (value : Item)

namespace Entries

def get? (es : Entries) (key : String) : Option Item :=
  (es.find? (·.1 == key)).map (·.2)

def update? (key : String) (change : Option Item → Option Item) : Entries → Option Entries
  | [] => (change none).map fun item => [(key, item)]
  | (k, item) :: rest =>
    if k = key then (change (some item)).map fun item => (k, item) :: rest
    else (update? key change rest).map ((k, item) :: ·)

-- Changes the table at the end of a path. On the way tables are made as they are needed, and
-- among several tables of one name the last counts. A dotted key does not enter a table that has a
-- header.
def within? (dotted : Bool) (change : Origin → Entries → Option Entries) :
    List String → Origin → Entries → Option Entries
  | [], origin, es => change origin es
  | key :: path, _, es =>
    let fresh := if dotted then Origin.dotted else .implied
    es.update? key fun
      | none => (within? dotted change path fresh []).map (.table fresh)
      | some (.table origin sub) =>
        if dotted && origin = .header then none
        else (within? dotted change path origin sub).map (.table origin)
      | some (.tables last earlier) =>
        (within? dotted change path .header last).map (.tables · earlier)
      | some _ => none

def add? (key : String) (value : Item) (es : Entries) : Option Entries :=
  es.update? key fun
    | none => some value
    | some _ => none

def addDotted? (path : List String) (key : String) (value : Item) (es : Entries) : Option Entries :=
  within? true
    (fun origin es => if path ≠ [] && origin ≠ .dotted then none else es.add? key value)
    path .header es

-- A table that a longer header has only implied can still get its own.
def openTable? (key : String) (es : Entries) : Option Entries :=
  es.update? key fun
    | none => some (.table .header [])
    | some (.table .implied sub) => some (.table .header sub)
    | some _ => none

def openElement? (key : String) (es : Entries) : Option Entries :=
  es.update? key fun
    | none => some (.tables [] [])
    | some (.tables last earlier) => some (.tables [] (last :: earlier))
    | some _ => none

end Entries

structure Build where
  root : Entries
  current : List String

namespace Build

def step? (b : Build) : Statement → Option Build
  | .header path name =>
    (b.root.within? false (fun _ es => es.openTable? name) path .header).map
      (⟨·, path ++ [name]⟩)
  | .element path name =>
    (b.root.within? false (fun _ es => es.openElement? name) path .header).map
      (⟨·, path ++ [name]⟩)
  | .pair path name value =>
    (b.root.within? false (fun _ es => es.addDotted? path name value) b.current .header).map
      (⟨·, b.current⟩)

end Build

def build? (statements : List Statement) : Option Entries :=
  (statements.foldlM Build.step? ⟨[], []⟩).map (·.root)

end ScoreFilter.Toml

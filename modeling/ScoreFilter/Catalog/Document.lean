import ScoreFilter.Catalog
import ScoreFilter.Json
import ScoreFilter.Json.Record

namespace ScoreFilter

def ScoreType.words : List (String × ScoreType) :=
  ScoreType.all.map fun t => (t.label, t)

namespace Field

structure Draft where
  name : Option String := none
  qualifiedName : Option (Option String) := none
  scoreType : Option ScoreType := none
  categories : Option (Option (List String)) := none
  tooltip : Option (Option String) := none

def nameSlot : Json.Slot Draft where
  key := "canonical_name"
  required := true
  filled d := d.name.isSome
  read d cs := (Json.string cs).map fun (s, rest) => ({ d with name := some s }, rest)

def qualifiedNameSlot : Json.Slot Draft where
  key := "qualified_name"
  required := false
  filled d := d.qualifiedName.isSome
  read d cs :=
    (Json.nullable Json.string cs).map fun (s, rest) => ({ d with qualifiedName := some s }, rest)

def scoreTypeSlot : Json.Slot Draft where
  key := "score_type"
  required := true
  filled d := d.scoreType.isSome
  read d cs :=
    (Json.word ScoreType.words cs).map fun (t, rest) => ({ d with scoreType := some t }, rest)

def categoriesSlot : Json.Slot Draft where
  key := "categories"
  required := false
  filled d := d.categories.isSome
  read d cs :=
    (Json.nullable (Json.sequence Json.string) cs).map fun (l, rest) =>
      ({ d with categories := some l }, rest)

def tooltipSlot : Json.Slot Draft where
  key := "tooltip"
  required := false
  filled d := d.tooltip.isSome
  read d cs :=
    (Json.nullable Json.string cs).map fun (s, rest) => ({ d with tooltip := some s }, rest)

def shape : Json.Shape Draft where
  name := "FieldDescriptor"
  slots := [nameSlot, qualifiedNameSlot, scoreTypeSlot, categoriesSlot, tooltipSlot]

def Draft.finish (d : Draft) : Except Json.Problem Field :=
  match d.name, d.scoreType with
  | some name, some scoreType =>
    .ok ⟨name, d.qualifiedName.join, scoreType, d.categories.join, d.tooltip.join⟩
  | none, _ => .error (.missing nameSlot.key)
  | _, none => .error (.missing scoreTypeSlot.key)

def read : Json.Reader Field := fun cs => do
  let (draft, rest) ← shape.read {} cs
  return (← draft.finish, rest)

def toJson (f : Field) : Json :=
  .obj ([("canonical_name", .str f.name)] ++
    Json.optional "qualified_name" (f.qualifiedName.map .str) ++
    [("score_type", .str f.scoreType.label)] ++
    Json.optional "categories" (f.categories.map fun cs => .arr (cs.map .str)) ++
    Json.optional "tooltip" (f.tooltip.map .str))

end Field

namespace Catalog

inductive LoadError where
  | json (problem : Json.Problem)
  | refused (refusal : Refusal)

def LoadError.message : LoadError → String
  | .json problem => "invalid catalog: " ++ problem.message
  | .refused refusal => refusal.message

-- The catalog in a document. The whole document is read before its names are checked.
def ofDocument (text : String) : Except LoadError Catalog :=
  match Json.document (Json.sequence Field.read) text with
  | .error p => .error (.json p)
  | .ok fields =>
    match ofFields fields with
    | .error r => .error (.refused r)
    | .ok catalog => .ok catalog

def toJson (c : Catalog) : Json :=
  .arr (c.fields.map Field.toJson)

def toDocument (c : Catalog) : String :=
  c.toJson.compact

end Catalog

end ScoreFilter

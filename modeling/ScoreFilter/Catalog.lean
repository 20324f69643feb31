import ScoreFilter.Text.Strip

namespace ScoreFilter

inductive ScoreType where
  | boolean
  | categorical
  | numeric
  | passFail
  | other
deriving DecidableEq

def ScoreType.label : ScoreType → String
  | .boolean => "boolean"
  | .categorical => "categorical"
  | .numeric => "numeric"
  | .passFail => "pass-fail"
  | .other => "other"

def ScoreType.all : List ScoreType :=
  [.boolean, .categorical, .numeric, .passFail, .other]

structure Field where
  name : String
  -- `scorer.member`, for a part of a composite score.
  qualifiedName : Option String
  scoreType : ScoreType
  -- The values of a categorical score, each spelled as a literal.
  categories : Option (List String)
  tooltip : Option String
deriving DecidableEq

namespace Field

def parts? (f : Field) : Option (List Char × List Char) :=
  f.qualifiedName.bind fun q => Text.splitPoint? q.toList

def scorer? (f : Field) : Option String :=
  f.parts?.map fun p => String.ofList p.1

def memberName? (f : Field) : Option String :=
  f.parts?.map fun p => String.ofList p.2

-- The field's name behind `scorer.`, when its qualified name begins so.
def memberOf? (f : Field) (scorer : String) : Option String :=
  f.qualifiedName.bind fun q =>
    (Text.strip? scorer.toList q.toList).bind fun rest =>
      (Text.strip? ['.'] rest).map String.ofList

def categories? (f : Field) : Option (List String) :=
  f.categories.filter fun cs => !cs.isEmpty

def isBoolean (f : Field) : Bool :=
  f.scoreType == .boolean

end Field

-- Fields that all have a name, each its own.
structure Catalog where
  fields : List Field
  named : ∀ f ∈ fields, f.name ≠ ""
  distinct : (fields.map (·.name)).Nodup

namespace Catalog

inductive Refusal where
  | emptyName
  | duplicate (name : String)
deriving DecidableEq

def Refusal.message : Refusal → String
  | .emptyName => "field name is empty"
  | .duplicate name => "duplicate field name: " ++ name

def refusal? (seen : List String) : List Field → Option Refusal
  | [] => none
  | f :: rest =>
    if f.name = "" then some .emptyName
    else if f.name ∈ seen then some (.duplicate f.name)
    else refusal? (f.name :: seen) rest

theorem named_of_refusal? {seen : List String} {fields : List Field}
    (accepted : refusal? seen fields = none) : ∀ f ∈ fields, f.name ≠ "" := by
  fun_induction refusal? seen fields with
  | case1 => simp
  | case2 => cases accepted
  | case3 => cases accepted
  | case4 seen f rest named _ ih => simpa [named] using ih accepted

theorem distinct_of_refusal? {seen : List String} {fields : List Field}
    (accepted : refusal? seen fields = none) :
    (fields.map (·.name)).Nodup ∧ ∀ f ∈ fields, f.name ∉ seen := by
  fun_induction refusal? seen fields with
  | case1 => simp
  | case2 => cases accepted
  | case3 => cases accepted
  | case4 seen f rest _ fresh ih =>
    obtain ⟨distinct, unseen⟩ := ih accepted
    refine ⟨List.nodup_cons.mpr ⟨?_, distinct⟩, ?_⟩
    · intro again
      obtain ⟨g, member, same⟩ := List.mem_map.mp again
      exact unseen g member (by simp [same])
    · intro g member
      rcases List.mem_cons.mp member with same | later
      · rw [same]
        exact fresh
      · exact fun old => unseen g later (List.mem_cons_of_mem _ old)

def ofFields (fields : List Field) : Except Refusal Catalog :=
  match accepted : refusal? [] fields with
  | none => .ok ⟨fields, named_of_refusal? accepted, (distinct_of_refusal? accepted).1⟩
  | some r => .error r

def empty : Catalog :=
  ⟨[], by simp, by simp⟩

def get? (c : Catalog) (name : String) : Option Field :=
  c.fields.find? (·.name == name)

def membersOf (c : Catalog) (scorer : String) : List (String × Field) :=
  c.fields.filterMap fun f => (f.memberOf? scorer).map fun member => (member, f)

end Catalog

end ScoreFilter

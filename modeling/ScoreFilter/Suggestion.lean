import ScoreFilter.Catalog
import ScoreFilter.Text.Bytes
import ScoreFilter.Vocabulary

namespace ScoreFilter

inductive SuggestionKind where
  | keyword
  | mathFunction
  | sampleFunction
  | field
  | member
  | relation
  | value
deriving DecidableEq

def SuggestionKind.label : SuggestionKind → String
  | .keyword => "keyword"
  | .mathFunction => "math_function"
  | .sampleFunction => "sample_function"
  | .field => "field"
  | .member => "member"
  | .relation => "relation"
  | .value => "value"

inductive Section where
  | suggested
  | more
deriving DecidableEq

def Section.label : Section → String
  | .suggested => "suggested"
  | .more => "more"

structure Suggestion where
  label : String
  kind : SuggestionKind
  info : Option String
  boost : Int
  insert : String
  -- The text is a call, and the cursor goes between its parentheses.
  call : Bool
  part : Section
deriving DecidableEq

structure Edit where
  text : String
  cursor : Nat
deriving DecidableEq

namespace Suggestion

def verbatim (label : String) (kind : SuggestionKind) (info : Option String) : Suggestion :=
  ⟨label, kind, info, 0, label, false, .suggested⟩

def calling (name : String) (kind : SuggestionKind) (info : Option String) : Suggestion :=
  ⟨name, kind, info, 0, name ++ "()", true, .suggested⟩

def spaced (s : Suggestion) : Suggestion :=
  if !s.call && s.insert.toList.getLast? != some ' ' then { s with insert := s.insert.push ' ' }
  else s

def applyTo (s : Suggestion) (input : String) (start cursor : Nat) : Edit :=
  let cs := input.toList
  let kept := Text.before (min start (Text.clamp cursor cs)) cs
  let stop := Text.byteLength kept + Text.byteLength s.insert.toList
  { text := String.ofList (kept ++ s.insert.toList ++ Text.after cursor cs)
    cursor := if s.call && s.insert.toList.getLast? == some ')' then stop - 1 else stop }

def ofKeyword (k : Keyword) : Suggestion :=
  verbatim k.name .keyword (some k.description)

def ofComparator (c : Comparator) : Suggestion :=
  verbatim c.symbol .relation (some c.description)

def ofMathFunction (f : Builtin) : Suggestion :=
  calling f.name .mathFunction (some f.description)

def ofSampleFunction (f : Builtin) : Suggestion :=
  calling f.name .sampleFunction (some f.description)

def ofField (f : Field) : Suggestion :=
  verbatim f.name .field f.tooltip

-- A boolean field stands alone, another wants a relation next.
def spacedFor (f : Field) (s : Suggestion) : Suggestion :=
  if f.isBoolean then s else s.spaced

end Suggestion

end ScoreFilter

import ScoreFilter.Cursor.Context
import ScoreFilter.Suggestion

namespace ScoreFilter

structure Offer where
  start : Nat
  suggestions : List Suggestion
deriving DecidableEq

namespace Offer

def find? (o : Offer) (label : String) : Option Suggestion :=
  o.suggestions.find? (·.label == label)

end Offer

structure Layout where
  -- Boosts fall in the order given.
  ordered : Bool
  -- Each inserted text ends with a blank.
  spaced : Bool
  general : Bool

namespace Completion

def demotedBoost : Int := -99

def decorate (layout : Layout) (s : Suggestion) : Suggestion :=
  if layout.spaced then s.spaced else s

-- `remaining` counts the suggestion itself and those after it; a boost has 32 bits.
def promote (layout : Layout) (remaining : Nat) (s : Suggestion) : Suggestion :=
  { decorate layout s with
    boost := if layout.ordered then (Int32.ofNat remaining).toInt else s.boost
    part := .suggested }

def promoteAll (layout : Layout) : List Suggestion → List Suggestion
  | [] => []
  | s :: rest => promote layout (rest.length + 1) s :: promoteAll layout rest

def demote (layout : Layout) (s : Suggestion) : Suggestion :=
  { decorate layout s with boost := demotedBoost, part := .more }

-- The context's own suggestions, and below them the general ones with other labels.
def assemble (own general : List Suggestion) (layout : Layout) : List Suggestion :=
  let others := general.filter fun s => !(own.map (·.label)).contains s.label
  promoteAll layout own ++
    if layout.general then others.map (if own.isEmpty then decorate layout else demote layout)
    else []

def generalSuggestions (v : Vocabulary) (catalog : Catalog) : List Suggestion :=
  v.keywords.map .ofKeyword ++ v.mathFunctions.map .ofMathFunction ++
    v.sampleFunctions.map .ofSampleFunction ++ catalog.fields.map .ofField

def operator? (v : Vocabulary) (name : String) : Option Suggestion :=
  match v.keyword? name with
  | some k => some (.ofKeyword k)
  | none => (v.comparator? name).map .ofComparator

def connectors : List String :=
  ["and", "or"]

def numericRelations : List String :=
  ["<", "<=", ">", ">=", "==", "!="]

def equalityRelations : List String :=
  ["==", "!=", "in", "not in"]

def operatorsAfter : ScoreType → List String
  | .passFail | .categorical => equalityRelations
  | .numeric => numericRelations
  | .other => numericRelations ++ ["~="]
  | .boolean => connectors

def beginnings (v : Vocabulary) (catalog : Catalog) : List Suggestion :=
  catalog.fields.map (fun f => (Suggestion.ofField f).spacedFor f) ++
    v.sampleFunctions.map .ofSampleFunction

def members (catalog : Catalog) (scorer : String) : List Suggestion :=
  (catalog.membersOf scorer).map fun (member, f) =>
    (Suggestion.verbatim member .member f.tooltip).spacedFor f

-- A context's own suggestions and their layout; none where nothing can be guessed.
def own? (v : Vocabulary) (catalog : Catalog) : Context → Option (List Suggestion × Layout)
  | .startOfExpression => some (beginnings v catalog, ⟨false, false, true⟩)
  | .memberAccess scorer => some (members catalog scorer, ⟨false, false, false⟩)
  | .mathArgument => some (catalog.fields.map .ofField, ⟨false, false, true⟩)
  | .afterField f =>
    some ((operatorsAfter f.scoreType).filterMap (operator? v), ⟨true, true, true⟩)
  | .categoryValue f =>
    some ((f.categories?.getD []).map fun c => .verbatim c .value none, ⟨true, true, true⟩)
  | .chainComparison => some (catalog.fields.map .ofField, ⟨false, true, true⟩)
  | .afterComparison => some (connectors.filterMap (operator? v), ⟨true, true, true⟩)
  | .searchArgument | .afterGroup | .scalarValue _ | .unknown => none

def suggestions? (v : Vocabulary) (catalog : Catalog) (explicit : Bool) (context : Context) :
    Option (List Suggestion) :=
  match own? v catalog context with
  | some (own, layout) => some (assemble own (generalSuggestions v catalog) layout)
  | none =>
    if explicit then some (assemble [] (generalSuggestions v catalog) ⟨false, false, true⟩)
    else none

end Completion

def complete (v : Vocabulary) (catalog : Catalog) (explicit : Bool) (input : String)
    (cursor : Nat) : Option Offer :=
  let lookback := Lookback.at v input.toList cursor
  match Completion.suggestions? v catalog explicit (.ofLookback lookback catalog) with
  | none => none
  | some suggestions =>
    if suggestions.isEmpty && !explicit then none
    else some ⟨lookback.start (Text.clamp cursor input.toList), suggestions⟩

end ScoreFilter

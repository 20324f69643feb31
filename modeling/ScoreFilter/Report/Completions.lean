import ScoreFilter.Completion
import ScoreFilter.Json
import ScoreFilter.Report.Line

namespace ScoreFilter

def SuggestionKind.inks : SuggestionKind → List Report.Ink
  | .keyword => [.magenta]
  | .mathFunction | .sampleFunction => [.blue]
  | .field | .member => [.cyan]
  | .relation => [.yellow]
  | .value => [.green]

def Suggestion.toJson (s : Suggestion) : Json :=
  .obj ([("label", .str s.label), ("kind", .str s.kind.label)] ++
    Json.optional "info" (s.info.map .str) ++
    [("boost", .int s.boost), ("apply", .str s.insert), ("call", .bool s.call),
      ("section", .str s.part.label)])

def Offer.toJson (o : Offer) : Json :=
  .obj [("from", .int o.start), ("options", .arr (o.suggestions.map Suggestion.toJson))]

namespace Report

def labelWidth : Nat := 24

def kindWidth : Nat := 16

def infoWidth : Nat := 48

def shownLabel (s : Suggestion) : List Char :=
  if s.call then s.label.toList ++ ['(', ')'] else s.label.toList

def suggestionRow (color : Bool) (s : Suggestion) : Line :=
  columns (padRight labelWidth (truncate labelWidth (shownLabel s)))
    (painted color s.kind.inks (padRight kindWidth s.kind.label.toList))
    (truncate infoWidth (s.info.getD "").toList)

def separator (color : Bool) : Line :=
  painted color [.dim] "-- more --".toList

-- The separator stands once, above the first general suggestion.
def suggestionRows (color : Bool) (separated : Bool) : List Suggestion → List Line
  | [] => []
  | s :: rest =>
    if s.part = .more && !separated then
      separator color :: suggestionRow color s :: suggestionRows color true rest
    else suggestionRow color s :: suggestionRows color separated rest

def offerLines (color : Bool) (offer : Option Offer) : List Line :=
  match offer.filter fun o => !o.suggestions.isEmpty with
  | none => ["No completions.".toList]
  | some o =>
    [("Replace from byte ".toList ++ Decimal.digits o.start), [],
      header color (columns (padRight labelWidth "Label".toList)
        (padRight kindWidth "Kind".toList) "Info".toList)] ++
      suggestionRows color false o.suggestions

def offerTable (color : Bool) (offer : Option Offer) : String :=
  render (offerLines color offer)

def offerJson (expression : String) (cursor : Nat) (offer : Option Offer) : Json :=
  .obj ([("expression", .str expression), ("cursor", .int cursor)] ++
    Json.optional "result" (offer.map Offer.toJson))

def column (e : Edit) : Nat :=
  (Text.before e.cursor e.text.toList).length

-- A caret under the character that follows the cursor, unless that is too far to the right.
def caret? (e : Edit) : Option Line :=
  if column e < widthLimit then some (List.replicate (column e) ' ' ++ ['^']) else none

def editLines? (color : Bool) (e : Edit) : Option (List Line) :=
  (caret? e).map fun line => [e.text.toList, painted color [.green] line]

def editTable? (color : Bool) (e : Edit) : Option String :=
  (editLines? color e).map render

def editJson (label : String) (e : Edit) : Json :=
  .obj [("label", .str label), ("expression", .str e.text), ("cursor", .int e.cursor)]

end Report

end ScoreFilter

import ScoreFilter.Diagnostic
import ScoreFilter.Report.Line
import ScoreFilter.Text.Bytes

namespace ScoreFilter

def Severity.inks : Severity → List Report.Ink
  | .error => [.bold, .red]
  | .warning => [.yellow]
  | .info => [.blue]

namespace Report

-- The expression and carets under its bytes from `start` to `stop`, as far as the expression
-- goes; nothing when either falls inside a character.
def underline (expression : List Char) (start stop : Nat) : List Line :=
  let stop := min stop (Text.byteLength expression)
  let start := min start stop
  if Text.IsBoundary start expression ∧ Text.IsBoundary stop expression then
    let indent := (Text.before start expression).length
    let width := (Text.before stop expression).length - indent
    [' ' :: ' ' :: expression,
      ' ' :: ' ' :: (List.replicate indent ' ' ++ List.replicate (max 1 width) '^')]
  else []

def diagnosticLines (color : Bool) (expression : String) (d : Diagnostic) : List Line :=
  columns (padRight 10 (span d.start d.stop))
      (painted color d.severity.inks (padRight 8 d.severity.label.toList)) d.message.toList ::
    underline expression.toList d.start d.stop

def diagnosticsLines (color : Bool) (expression : String) : List Diagnostic → List Line
  | [] => ["No diagnostics.".toList]
  | ds =>
    header color (columns (padRight 10 "Span".toList) (padRight 8 "Severity".toList)
      "Message".toList) :: ds.flatMap (diagnosticLines color expression)

def diagnosticsTable (color : Bool) (expression : String) (ds : List Diagnostic) : String :=
  render (diagnosticsLines color expression ds)

def diagnosticsJson (expression : String) (ds : List Diagnostic) : Json :=
  .obj [("expression", .str expression), ("diagnostics", .arr (ds.map Diagnostic.toJson))]

end Report

end ScoreFilter

import ScoreFilter.Json
import ScoreFilter.Report.Line
import ScoreFilter.Token

namespace ScoreFilter

namespace TokenKind

def inks : TokenKind → List Report.Ink
  | .keyword => [.magenta]
  | .mathFunction | .sampleFunction => [.blue]
  | .quoted | .number => [.green]
  | .unclosed => [.red]
  | .relation => [.yellow]
  | .name => [.cyan]
  | .mark => [.dim]

end TokenKind

def Token.toJson (t : Token) : Json :=
  .obj [("kind", .str t.kind.label), ("text", .str t.text), ("from", .int t.start),
    ("to", .int t.stop)]

namespace Report

def tokenRow (color : Bool) (t : Token) : Line :=
  columns (padRight 10 (span t.start t.stop))
    (painted color t.kind.inks (padRight 20 t.kind.label.toList)) t.text.toList

def tokenLines (color : Bool) : List Token → List Line
  | [] => ["No tokens.".toList]
  | tokens =>
    header color (columns (padRight 10 "Span".toList) (padRight 20 "Kind".toList) "Text".toList) ::
      tokens.map (tokenRow color)

def tokensTable (color : Bool) (tokens : List Token) : String :=
  render (tokenLines color tokens)

def tokensJson (expression : String) (tokens : List Token) : Json :=
  .obj [("expression", .str expression), ("tokens", .arr (tokens.map Token.toJson))]

end Report

end ScoreFilter

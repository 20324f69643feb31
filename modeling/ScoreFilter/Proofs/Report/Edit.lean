import ScoreFilter.Proofs.Text.Boundary
import ScoreFilter.Report.Completions

namespace ScoreFilter.Report

variable {e : Edit} {left right : List Char}

-- An edit in the characters that are printed: its text on a line, and on the next a caret behind as
-- many blanks as there are characters before the cursor.
def editPicture (color : Bool) (text : List Char) (before : Nat) : List Char :=
  let caret := List.replicate before ' ' ++ ['^']
  text ++ '\n' ::
    (if color then "\x1b[32m".toList ++ caret ++ "\x1b[39m".toList else caret) ++ ['\n']

def editRecord (label : String) (e : Edit) : List Char :=
  "\x7b\n  \"label\": ".toList ++ Json.quote label.toList ++
    ",\n  \"expression\": ".toList ++ Json.quote e.text.toList ++
    ",\n  \"cursor\": ".toList ++ Decimal.digits e.cursor ++ "\n\x7d\n".toList

theorem before_cursor (divided : e.text.toList = left ++ right)
    (cursor : e.cursor = Text.byteLength left) : Text.before e.cursor e.text.toList = left := by
  rw [divided, cursor, Text.before_append]

-- The line of the caret is one character wider than what is before it.
theorem editTable?_eq (color : Bool) (e : Edit) : editTable? color e =
    let before := (Text.before e.cursor e.text.toList).length
    if before < 65535 then some (String.ofList (editPicture color e.text.toList before))
    else none := by
  unfold editTable? editLines? caret? column widthLimit
  dsimp only
  split
  · cases color <;> simp [editPicture, render, painted, Ink.paint, sequence, Ink.on, Ink.off]
  · rfl

theorem prettyChars_editJson (label : String) (e : Edit) :
    (editJson label e).prettyChars 0 ++ ['\n'] = editRecord label e := by
  have first : Json.quote "label".toList = "\"label\"".toList := by decide
  have second : Json.quote "expression".toList = "\"expression\"".toList := by decide
  have third : Json.quote "cursor".toList = "\"cursor\"".toList := by decide
  have number : Json.intText e.cursor = Decimal.digits e.cursor := by simp [Json.intText]
  have outer : Json.newLine 0 = ['\n'] := rfl
  have inner : Json.newLine 1 = ['\n', ' ', ' '] := rfl
  unfold editJson editRecord
  simp only [Json.prettyChars, Json.prettyMembers, Nat.zero_add, first, second, third, number,
    outer, inner]
  simp

theorem pretty_editJson (label : String) (e : Edit) :
    (editJson label e).pretty ++ "\n" = String.ofList (editRecord label e) := by
  rw [← prettyChars_editJson, Json.pretty, String.ofList_append]

end ScoreFilter.Report

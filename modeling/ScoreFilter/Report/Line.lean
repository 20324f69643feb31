import ScoreFilter.Decimal.Digits
import ScoreFilter.Report.Ink

namespace ScoreFilter.Report

abbrev Line := List Char

def render (lines : List Line) : String :=
  String.ofList (lines.flatMap (· ++ ['\n']))

-- The greatest width that a text can be brought to when the width is not known beforehand.
def widthLimit : Nat := 65535

def padRight (width : Nat) (text : List Char) : List Char :=
  text ++ List.replicate (width - text.length) ' '

-- A text that is too long loses its end to three points.
def truncate (width : Nat) (text : List Char) : List Char :=
  if width < text.length then text.take (width - 3) ++ ['.', '.', '.'] else text

def span (start stop : Nat) : List Char :=
  Decimal.digits start ++ ['.', '.'] ++ Decimal.digits stop

def columns (first second third : List Char) : Line :=
  first ++ ' ' :: second ++ ' ' :: third

def header (color : Bool) (text : Line) : Line :=
  painted color [.dim] text

end ScoreFilter.Report

namespace ScoreFilter.Report

inductive Ink where
  | bold
  | dim
  | red
  | green
  | yellow
  | blue
  | magenta
  | cyan
deriving DecidableEq

def sequence (parameter : List Char) : List Char :=
  ['\x1b', '['] ++ parameter ++ ['m']

namespace Ink

def on : Ink → List Char
  | .bold => ['1']
  | .dim => ['2']
  | .red => ['3', '1']
  | .green => ['3', '2']
  | .yellow => ['3', '3']
  | .blue => ['3', '4']
  | .magenta => ['3', '5']
  | .cyan => ['3', '6']

def off : Ink → List Char
  | .bold | .dim => ['0']
  | _ => ['3', '9']

def paint (ink : Ink) (text : List Char) : List Char :=
  sequence ink.on ++ text ++ sequence ink.off

end Ink

def painted (color : Bool) (inks : List Ink) (text : List Char) : List Char :=
  if color then inks.foldr Ink.paint text else text

end ScoreFilter.Report

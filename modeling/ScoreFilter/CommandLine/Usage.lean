import ScoreFilter.CommandLine.Arguments

namespace ScoreFilter.CommandLine

def release : String := "0.1.0"

def versionText (place : Place) : String :=
  "-".intercalate place.words ++ " " ++ release ++ "\n"

-- What is said in words that this program does not choose.
structure Wording where
  help : Place → String
  usage : UsageError → String
  script : Shell → String
  crash : String

def Wording.silent : Wording :=
  ⟨fun _ => "", fun _ => "", fun _ => "", ""⟩

end ScoreFilter.CommandLine

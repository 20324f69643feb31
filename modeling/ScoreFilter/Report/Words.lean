import ScoreFilter.Json
import ScoreFilter.Report.Line
import ScoreFilter.Vocabulary

namespace ScoreFilter

def Keyword.toJson (k : Keyword) : Json :=
  .obj [("name", .str k.name), ("description", .str k.description)]

def Builtin.toJson (f : Builtin) : Json :=
  .obj [("name", .str f.name), ("arity", .str f.arity.code), ("description", .str f.description)]

def Comparator.toJson (c : Comparator) : Json :=
  .obj [("symbol", .str c.symbol), ("description", .str c.description)]

def Vocabulary.toJson (v : Vocabulary) : Json :=
  .obj [("keywords", .arr (v.keywords.map Keyword.toJson)),
    ("math_functions", .arr (v.mathFunctions.map Builtin.toJson)),
    ("sample_functions", .arr (v.sampleFunctions.map Builtin.toJson)),
    ("relations", .arr (v.comparators.map Comparator.toJson))]

namespace Report

def title (color : Bool) (text : String) : Line :=
  painted color [.bold] text.toList

def wordRow (word description : String) : Line :=
  ' ' :: ' ' :: (padRight 18 word.toList ++ ' ' :: description.toList)

def functionRow (name arity description : List Char) : Line :=
  ' ' :: ' ' :: columns (padRight 18 name) (padRight 14 arity) description

def functionLines (color : Bool) (fs : List Builtin) : List Line :=
  header color (functionRow "Name".toList "Arity".toList "Description".toList) ::
    fs.map fun f =>
      functionRow (f.name.toList ++ ['(', ')']) f.arity.label.toList f.description.toList

def vocabularyLines (color : Bool) (v : Vocabulary) : List Line :=
  (title color "Keywords" :: v.keywords.map fun k => wordRow k.name k.description) ++
    [] :: title color "Math functions" :: functionLines color v.mathFunctions ++
    [] :: title color "Sample functions" :: functionLines color v.sampleFunctions ++
    [] :: title color "Relations" :: v.comparators.map fun c => wordRow c.symbol c.description

def vocabularyTable (color : Bool) (v : Vocabulary) : String :=
  render (vocabularyLines color v)

end Report

end ScoreFilter

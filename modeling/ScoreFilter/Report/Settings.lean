import ScoreFilter.Report.Line
import ScoreFilter.Settings.File

namespace ScoreFilter.Report

def settingLine (key : String) (value : Option (List Char)) : List Line :=
  match value with
  | none => []
  | some value => [' ' :: ' ' :: (key.toList ++ ':' :: ' ' :: value)]

def settingsLines (color : Bool) (name : String) (present : Bool) (s : Settings) : List Line :=
  [painted color [.bold, .green] "Configuration".toList, [],
    "File: ".toList ++ name.toList, "Exists: ".toList ++ Json.boolText present, []] ++
    if present then
      ["Settings:".toList] ++ settingLine "catalog" (s.catalog.map String.toList) ++
        [[], "[output]".toList] ++ settingLine "color" (s.color.map Json.boolText) ++
        [[], "[completion]".toList] ++ settingLine "explicit" (s.explicit.map Json.boolText)
    else
      ["(No config file exists. Run 'sfilter config set <key> <value>' to create one.)".toList]

def settingsTable (color : Bool) (name : String) (present : Bool) (s : Settings) : String :=
  render (settingsLines color name present s)

def settingsJson (name : String) (present : Bool) (s : Settings) : Json :=
  .obj [("config", s.toJson), ("exists", .bool present), ("path", .str name)]

def assignedJson (name key value : String) : Json :=
  .obj [("key", .str key), ("path", .str name), ("status", .str "success"), ("value", .str value)]

def placeJson (name : String) (present : Bool) : Json :=
  .obj [("exists", .bool present), ("path", .str name)]

end ScoreFilter.Report

import ScoreFilter.Json
import ScoreFilter.Text.Strip
import ScoreFilter.Toml.Document

namespace ScoreFilter

structure Settings where
  version : UInt32
  catalog : Option String
  color : Option Bool
  explicit : Option Bool
deriving DecidableEq

namespace Settings

def currentVersion : UInt32 := 1

def default : Settings :=
  ⟨currentVersion, none, none, none⟩

def migrate (s : Settings) : Settings :=
  { s with version := currentVersion }

inductive Key where
  | catalog
  | color
  | explicit
deriving DecidableEq

def Key.all : List Key :=
  [.catalog, .color, .explicit]

def Key.label : Key → String
  | .catalog => "catalog"
  | .color => "output.color"
  | .explicit => "completion.explicit"

-- The first point parts a group from the name of a setting in it.
def Key.ofLabel? (label : String) : Option Key :=
  match Text.splitPoint? label.toList with
  | none => if label = "catalog" then some .catalog else none
  | some (group, name) =>
    if group = "output".toList && name = "color".toList then some .color
    else if group = "completion".toList && name = "explicit".toList then some .explicit
    else none

inductive Refusal where
  | unknownKey (key : String)
  | notBoolean (value : String)
deriving DecidableEq

def Refusal.message : Refusal → String
  | .unknownKey key =>
    "Unknown config key '" ++ key ++ "'. Valid keys: " ++ ", ".intercalate (Key.all.map Key.label)
  | .notBoolean value =>
    "Invalid boolean value '" ++ value ++ "'. Use true/false, yes/no, 1/0, or on/off"

def trueWords : List String :=
  ["true", "yes", "1", "on"]

def falseWords : List String :=
  ["false", "no", "0", "off"]

-- Letter case does not count. No letter beyond ASCII has one of these words' letters as its small form.
def bool? (value : String) : Option Bool :=
  let word := String.ofList (value.toList.map Char.toLower)
  if trueWords.contains word then some true
  else if falseWords.contains word then some false
  else none

def assignBool (value : String) (change : Bool → Settings) : Except Refusal Settings :=
  match bool? value with
  | some b => .ok (change b)
  | none => .error (.notBoolean value)

def assign (s : Settings) (key value : String) : Except Refusal Settings :=
  match Key.ofLabel? key with
  | none => .error (.unknownKey key)
  | some .catalog => .ok { s with catalog := some value }
  | some .color => assignBool value fun b => { s with color := some b }
  | some .explicit => assignBool value fun b => { s with explicit := some b }

def boolItem? : Option Toml.Item → Option (Option Bool)
  | none => some none
  | some (.bool b) => some (some b)
  | some _ => none

def stringItem? : Option Toml.Item → Option (Option String)
  | none => some none
  | some (.str s) => some (some s)
  | some _ => none

-- A flag in a group of settings. A group may be a table, an array with the flag in front, or a
-- date, which has no flag.
def flag? (key : String) : Option Toml.Item → Option (Option Bool)
  | none | some .dateTime => some none
  | some (.table _ es) => boolItem? (Toml.Entries.get? es key)
  | some (.inline es) => boolItem? (Toml.Entries.get? es key)
  | some (.array (first :: _)) => boolItem? (some first)
  | some _ => none

-- Any version is read, as long as it is a number of 32 bits.
def version? : Option Toml.Item → Option UInt32
  | none => some currentVersion
  | some (.int n) => if 0 ≤ n && n < Int.pow 2 32 then some (UInt32.ofNat n.toNat) else none
  | some _ => none

def ofEntries? (es : Toml.Entries) : Option Settings := do
  let version ← version? (es.get? "version")
  let catalog ← stringItem? (es.get? "catalog")
  let color ← flag? "color" (es.get? "output")
  let explicit ← flag? "explicit" (es.get? "completion")
  return ⟨version, catalog, color, explicit⟩

def ofDocument? (text : String) : Option Settings :=
  (Toml.ofDocument? text).bind ofEntries?

def versionLine (version : UInt32) : List Char :=
  "version = ".toList ++ Decimal.digits version.toNat ++ ['\n']

def catalogLine : Option String → List Char
  | none => []
  | some catalog => "catalog = ".toList ++ Toml.writeString catalog.toList ++ ['\n']

def flagLine (key : String) : Option Bool → List Char
  | none => []
  | some b => key.toList ++ " = ".toList ++ Json.boolText b ++ ['\n']

def toDocument (s : Settings) : String :=
  String.ofList (versionLine s.version ++ catalogLine s.catalog ++
    "\n[output]\n".toList ++ flagLine "color" s.color ++
    "\n[completion]\n".toList ++ flagLine "explicit" s.explicit)

def toJson (s : Settings) : Json :=
  .obj (Json.optional "catalog" (s.catalog.map .str) ++
    [("completion", .obj (Json.optional "explicit" (s.explicit.map .bool))),
      ("output", .obj (Json.optional "color" (s.color.map .bool))),
      ("version", .int s.version.toNat)])

end Settings

end ScoreFilter

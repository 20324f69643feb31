import ScoreFilter.Decimal.Digits

namespace ScoreFilter.CommandLine

inductive Place where
  | program
  | tokenize
  | complete
  | diagnose
  | functions
  | config
  | configShow
  | configSet
  | configPath
  | completions
deriving DecidableEq

inductive Switch where
  | verbose
  | quiet
  | json
  | noColor
  | catalog
  | cursor
  | explicit
  | apply
  | error
  | help
  | version
deriving DecidableEq

namespace Switch

def long : Switch → String
  | .verbose => "verbose"
  | .quiet => "quiet"
  | .json => "json"
  | .noColor => "no-color"
  | .catalog => "catalog"
  | .cursor => "cursor"
  | .explicit => "explicit"
  | .apply => "apply"
  | .error => "error"
  | .help => "help"
  | .version => "version"

def short? : Switch → Option Char
  | .verbose => some 'v'
  | .quiet => some 'q'
  | .explicit => some 'e'
  | .error => some 'e'
  | .help => some 'h'
  | .version => some 'V'
  | _ => none

def takesValue : Switch → Bool
  | .catalog | .cursor | .apply | .error => true
  | _ => false

def common : List Switch :=
  [.verbose, .quiet, .json, .noColor, .catalog, .help, .version]

end Switch

namespace Place

-- Each word that leads on, the short ones beside the long ones.
def children : Place → List (String × Place)
  | .program =>
    [("tokenize", .tokenize), ("t", .tokenize), ("complete", .complete), ("c", .complete),
      ("diagnose", .diagnose), ("d", .diagnose), ("functions", .functions), ("config", .config),
      ("completions", .completions)]
  | .config => [("show", .configShow), ("set", .configSet), ("path", .configPath)]
  | _ => []

def child? (place : Place) (word : String) : Option Place :=
  (place.children.find? (·.1 == word)).map (·.2)

def words : Place → List String
  | .program => ["sfilter"]
  | .tokenize => ["sfilter", "tokenize"]
  | .complete => ["sfilter", "complete"]
  | .diagnose => ["sfilter", "diagnose"]
  | .functions => ["sfilter", "functions"]
  | .config => ["sfilter", "config"]
  | .configShow => ["sfilter", "config", "show"]
  | .configSet => ["sfilter", "config", "set"]
  | .configPath => ["sfilter", "config", "path"]
  | .completions => ["sfilter", "completions"]

def operands : Place → List String
  | .tokenize | .complete | .diagnose => ["EXPRESSION"]
  | .configSet => ["KEY", "VALUE"]
  | .completions => ["SHELL"]
  | _ => []

def ownSwitches : Place → List Switch
  | .complete => [.cursor, .explicit, .apply]
  | .diagnose => [.error]
  | _ => []

def switches (place : Place) : List Switch :=
  place.ownSwitches ++ Switch.common

def long? (place : Place) (name : String) : Option Switch :=
  place.switches.find? (·.long == name)

def short? (place : Place) (letter : Char) : Option Switch :=
  place.switches.find? (·.short? == some letter)

end Place

inductive Shell where
  | bash
  | zsh
  | fish
  | powershell
deriving DecidableEq

def Shell.words : List (String × Shell) :=
  [("bash", .bash), ("zsh", .zsh), ("fish", .fish), ("powershell", .powershell)]

def Shell.ofWord? (word : String) : Option Shell :=
  (Shell.words.find? (·.1 == word)).map (·.2)

end ScoreFilter.CommandLine

import ScoreFilter.Files
import ScoreFilter.Settings

namespace ScoreFilter

structure Environment where
  settingsFile : Option String
  configHome : Option String
  home : Option String
  -- The home directory of the account, for when the surroundings name none.
  account : Option String
  catalog : Option String
deriving DecidableEq

inductive SettingsError where
  | noPlace
  | unreadable (fault : FileError)
  | malformed
  | noDirectory (fault : FileError)
  | unwritable (fault : FileError)
  | refused (refusal : Settings.Refusal)
deriving DecidableEq

def SettingsError.message : SettingsError → String
  | .noPlace => "Could not determine config directory"
  | .unreadable fault => "Failed to read config: " ++ fault.message
  | .malformed => "Failed to parse config: not a settings document"
  | .noDirectory fault => "Failed to create config directory: " ++ fault.message
  | .unwritable fault => "Failed to write config: " ++ fault.message
  | .refused refusal => refusal.message

namespace Environment

def settingsName (e : Environment) : Except SettingsError String :=
  match e.settingsFile, e.configHome, (e.home.filter (· ≠ "")).or e.account with
  | some name, _, _ => .ok name
  | none, some base, _ => .ok (Path.join (Path.join base "sfilter") "config.toml")
  | none, none, some home =>
    .ok (Path.join (Path.join (Path.join home ".config") "sfilter") "config.toml")
  | none, none, none => .error .noPlace

end Environment

namespace Settings

-- Without a file the settings are the default ones; those of a file are brought to the current
-- form.
def loadFrom (files : Files) (name : String) : Except SettingsError Settings :=
  if files.contains name then
    match files.read name with
    | .error fault => .error (.unreadable fault)
    | .ok text =>
      match ofDocument? text with
      | some s => .ok s.migrate
      | none => .error .malformed
  else .ok default

def load (e : Environment) (files : Files) : Except SettingsError Settings :=
  match e.settingsName with
  | .error fault => .error fault
  | .ok name => loadFrom files name

def saveTo (s : Settings) (files : Files) (name : String) : Files × Except SettingsError Unit :=
  match files.makeParents name with
  | (files, some fault) => (files, .error (.noDirectory fault))
  | (files, none) =>
    match files.write name s.toDocument with
    | .error fault => (files, .error (.unwritable fault))
    | .ok files => (files, .ok ())

-- Changes one setting in the file. Nothing is written unless the file could be read and the
-- change makes sense.
def change (files : Files) (name key value : String) : Files × Except SettingsError Unit :=
  match loadFrom files name with
  | .error fault => (files, .error fault)
  | .ok s =>
    match s.assign key value with
    | .error refusal => (files, .error (.refused refusal))
    | .ok s => s.saveTo files name

end Settings

end ScoreFilter

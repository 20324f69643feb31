import ScoreFilter.Catalog.Document
import ScoreFilter.CommandLine.Usage
import ScoreFilter.Report.Completions
import ScoreFilter.Report.Diagnostics
import ScoreFilter.Report.Settings
import ScoreFilter.Report.Tokens
import ScoreFilter.Report.Words
import ScoreFilter.Token.Piece

namespace ScoreFilter.CommandLine

inductive Failure where
  | catalog (error : Catalog.LoadError)
  | settings (error : SettingsError)
  | file (fault : FileError)
  | json (problem : Json.Problem)
  | badCursor (cursor length : Nat)
  | noSuchLabel (label : String)

namespace Failure

def message : Failure → String
  | .catalog error => "catalog error: " ++ error.message
  | .settings error => "configuration error: " ++ error.message
  | .file fault => "I/O error: " ++ fault.message
  | .json problem => "serialization error: " ++ problem.message
  | .badCursor cursor length =>
    "cursor " ++ String.ofList (Decimal.digits cursor) ++
      " is not a character boundary of a " ++ String.ofList (Decimal.digits length) ++
      "-byte expression"
  | .noSuchLabel label => "no completion labelled '" ++ label ++ "' at this position"

def code : Failure → String
  | .catalog _ => "CATALOG_ERROR"
  | .settings _ => "CONFIG_ERROR"
  | .file _ => "IO_ERROR"
  | .json _ => "JSON_ERROR"
  | .badCursor _ _ => "INVALID_CURSOR"
  | .noSuchLabel _ => "UNKNOWN_OPTION"

def exit : Failure → Nat
  | .settings _ => 5
  | .catalog _ => 4
  | .file _ => 3
  | .badCursor _ _ => 2
  | .json _ | .noSuchLabel _ => 1

def toJson (failure : Failure) : Json :=
  .obj [("error", .obj [("code", .str failure.code), ("message", .str failure.message)])]

def text (json : Bool) (failure : Failure) : String :=
  if json then failure.toJson.pretty ++ "\n" else "Error: " ++ failure.message ++ "\n"

end Failure

-- The standard input is missing when it is no text.
structure World where
  environment : Environment
  stdin : Option String
  files : Files
  wording : Wording

-- What goes to the standard output, and what is said beside it. There is no output when it cannot
-- be laid out.
structure Printed where
  output : Option String
  notice : String

structure Outcome where
  exit : Nat
  stdout : String
  stderr : String
  files : Files

def crashExit : Nat := 101

def Printed.outcome (p : Printed) (crash : String) (files : Files) : Outcome :=
  match p.output with
  | some text => ⟨0, text, p.notice, files⟩
  | none => ⟨crashExit, "", p.notice ++ crash, files⟩

theorem Printed.files_outcome (p : Printed) (crash : String) (files : Files) :
    (p.outcome crash files).files = files := by
  unfold outcome
  split <;> rfl

theorem Printed.stdout_of_failed {p : Printed} {crash : String} {files : Files}
    (failed : (p.outcome crash files).exit ≠ 0) : (p.outcome crash files).stdout = "" := by
  unfold outcome at failed ⊢
  split
  · rename_i text output
    rw [output] at failed
    exact absurd rfl failed
  · rfl

def Invocation.shown (i : Invocation) (table : Option String) (json : Json) : Printed :=
  ⟨if i.json then some (json.pretty ++ "\n") else if i.quiet then some "" else table, ""⟩

theorem Invocation.output_shown (i : Invocation) (table : String) (json : Json) :
    (i.shown (some table) json).output =
      some (if i.json then json.pretty ++ "\n" else if i.quiet then "" else table) := by
  unfold shown
  split
  · rfl
  · split <;> rfl

def Invocation.color (i : Invocation) (s : Settings) : Bool :=
  !i.noColor && s.color.getD true

def loadCatalog (files : Files) (name : String) : Except Failure Catalog :=
  match files.read name with
  | .error fault => .error (.file fault)
  | .ok text =>
    match Catalog.ofDocument text with
    | .error error => .error (.catalog error)
    | .ok catalog => .ok catalog

def resolveCatalog (files : Files) (i : Invocation) (s : Settings) : Except Failure Catalog :=
  match i.catalog.or s.catalog with
  | some name => loadCatalog files name
  | none => .ok .empty

structure Completed where
  cursor : Nat
  offer : Option Offer
  edit : Option (String × Edit)

def takeUp (expression : String) (cursor : Nat) (offer : Option Offer) (label : String) :
    Except Failure Edit :=
  match offer.bind fun o => (o.find? label).map fun s => s.applyTo expression o.start cursor with
  | some edit => .ok edit
  | none => .error (.noSuchLabel label)

def completeAt (catalog : Catalog) (expression : String) (cursor : Option Nat) (explicit : Bool)
    (label : Option String) : Except Failure Completed :=
  let length := Text.byteLength expression.toList
  let cursor := cursor.getD length
  if Text.IsBoundary cursor expression.toList then
    let offer := complete .standard catalog explicit expression cursor
    match label with
    | none => .ok ⟨cursor, offer, none⟩
    | some label =>
      match takeUp expression cursor offer label with
      | .error failure => .error failure
      | .ok edit => .ok ⟨cursor, offer, some (label, edit)⟩
  else .error (.badCursor cursor length)

def countNotice (c : Completed) : String :=
  let count := (c.offer.map (·.suggestions.length)).getD 0
  String.ofList (Decimal.digits count) ++ " option(s) at byte " ++
    String.ofList (Decimal.digits c.cursor) ++ "\n"

def Completed.printed (i : Invocation) (color : Bool) (expression : String) (c : Completed) :
    Printed :=
  let shown :=
    match c.edit with
    | some (label, edit) => i.shown (Report.editTable? color edit) (Report.editJson label edit)
    | none =>
      i.shown (some (Report.offerTable color c.offer))
        (Report.offerJson expression c.cursor c.offer)
  { shown with notice := if i.verbose then countNotice c else "" }

def runComplete (w : World) (i : Invocation) (expression : String) (cursor : Option Nat)
    (explicit : Bool) (label : Option String) : Except Failure Printed :=
  match Settings.load w.environment w.files with
  | .error error => .error (.settings error)
  | .ok s =>
    match resolveCatalog w.files i s with
    | .error failure => .error failure
    | .ok catalog =>
      match completeAt catalog expression cursor (explicit || s.explicit.getD false) label with
      | .error failure => .error failure
      | .ok completed => .ok (completed.printed i (i.color s) expression)

def readFault (w : World) : Option String → Except Failure (Option Fault)
  | none => .ok none
  | some name =>
    let content :=
      if name = "-" then
        match w.stdin with
        | some text => .ok text
        | none => .error .notText
      else w.files.read name
    match content with
    | .error fault => .error (.file fault)
    | .ok text =>
      match Fault.ofDocument text with
      | .error problem => .error (.json problem)
      | .ok fault => .ok fault

def runDiagnose (w : World) (i : Invocation) (color : Bool) (expression : String)
    (error : Option String) : Except Failure Printed :=
  match readFault w error with
  | .error failure => .error failure
  | .ok fault =>
    let ds := Diagnostic.ofFault fault (Text.byteLength expression.toList)
    .ok (i.shown (some (Report.diagnosticsTable color expression ds))
      (Report.diagnosticsJson expression ds))

def runConfigShow (w : World) (i : Invocation) : Except Failure Printed :=
  match Settings.load w.environment w.files, w.environment.settingsName with
  | .error error, _ => .error (.settings error)
  | .ok _, .error error => .error (.settings error)
  | .ok s, .ok name =>
    let present := w.files.contains name
    .ok (i.shown (some (Report.settingsTable (i.color s) name present s))
      (Report.settingsJson name present s))

def runConfigPath (w : World) (i : Invocation) : Except Failure Printed :=
  match w.environment.settingsName with
  | .error error => .error (.settings error)
  | .ok name =>
    .ok ⟨some (if i.json then (Report.placeJson name (w.files.contains name)).pretty ++ "\n"
      else name ++ "\n"), ""⟩

def runConfigSet (w : World) (i : Invocation) (key value : String) :
    Files × Except Failure Printed :=
  match w.environment.settingsName with
  | .error error => (w.files, .error (.settings error))
  | .ok name =>
    match Settings.change w.files name key value with
    | (files, .error error) => (files, .error (.settings error))
    | (files, .ok ()) =>
      (files, .ok (i.shown (some ("Set " ++ key ++ " = " ++ value ++ "\n"))
        (Report.assignedJson name key value)))

def banner : String :=
  "sfilter - sample filter expression tools\nUse --help for usage information\n"

-- The files that a command leaves and what it prints. Commands that use the settings for colour
-- alone take the default ones when the file is broken.
def execute (w : World) (i : Invocation) : Files × Except Failure Printed :=
  let color :=
    i.color (match Settings.load w.environment w.files with
      | .ok s => s
      | .error _ => .default)
  match i.command with
  | .none => (w.files, .ok ⟨some (if i.quiet then "" else banner), ""⟩)
  | .tokenize expression =>
    let tokens := Token.tokenize .standard expression
    (w.files, .ok (i.shown (some (Report.tokensTable color tokens))
      (Report.tokensJson expression tokens)))
  | .complete expression cursor explicit label =>
    (w.files, runComplete w i expression cursor explicit label)
  | .diagnose expression error => (w.files, runDiagnose w i color expression error)
  | .functions =>
    (w.files, .ok (i.shown (some (Report.vocabularyTable color .standard))
      Vocabulary.standard.toJson))
  | .configShow => (w.files, runConfigShow w i)
  | .configSet key value => runConfigSet w i key value
  | .configPath => (w.files, runConfigPath w i)
  | .completions shell => (w.files, .ok ⟨some (w.wording.script shell), ""⟩)

-- Runs what has been asked for. A failing command prints nothing on the standard output.
def perform (w : World) (i : Invocation) : Outcome :=
  match execute w i with
  | (files, .ok printed) => printed.outcome w.wording.crash files
  | (files, .error failure) => ⟨failure.exit, "", failure.text i.json, files⟩

def run (w : World) (words : List String) : Outcome :=
  match parse w.environment words with
  | .error (.usage error) => ⟨2, "", w.wording.usage error, w.files⟩
  | .error (.help place) => ⟨0, w.wording.help place, "", w.files⟩
  | .error (.version place) => ⟨0, versionText place, "", w.files⟩
  | .ok i => perform w i

end ScoreFilter.CommandLine

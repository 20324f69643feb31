import ScoreFilter.CommandLine.Run
import ScoreFilter.Proofs.Files.Removal
import ScoreFilter.Proofs.Settings.File

namespace ScoreFilter.CommandLine

variable {w w' : World} {i : Invocation} {name : String} {place : Path}

def Command.needsSettings : Command → Bool
  | .complete .. | .configShow | .configSet .. => true
  | _ => false

def World.without (w : World) (place : Path) : World :=
  { w with files := w.files.remove place }

-- Something is at the place for the settings, and no settings can be read from it.
structure Broken (w : World) (name : String) (place : Path) : Prop where
  named : w.environment.settingsName = .ok name
  located : w.files.locate name = .ok place
  present : (w.files.get? place).isSome = true
  unread : ∀ text, w.files.read name = .ok text → Settings.ofDocument? text = none

-- The command reads a text at the place, or by way of it, as the error of an evaluator.
def Takes (w : World) (i : Invocation) (place : Path) (expression text : String) : Prop :=
  ∃ source, i.command = .diagnose expression (some source) ∧ source ≠ "-" ∧
    place ∈ w.files.passed source ∧ w.files.read source = .ok text

theorem Broken.contains (broken : Broken w name place) : w.files.contains name = true := by
  rw [Files.contains, broken.located]
  exact broken.present

theorem Broken.loadFrom (broken : Broken w name place) :
    ∃ error, Settings.loadFrom w.files name = .error error := by
  cases loaded : Settings.loadFrom w.files name with
  | error error => exact ⟨error, rfl⟩
  | ok s =>
    have none_held := Settings.not_held_iff.mpr ⟨broken.contains, broken.unread⟩
    exact absurd (Settings.loadFrom_ok.mp loaded) (none_held s)

theorem Broken.load (broken : Broken w name place) :
    ∃ error, Settings.load w.environment w.files = .error error := by
  rw [Settings.load, broken.named]
  exact broken.loadFrom

theorem Broken.passed (broken : Broken w name place) : place ∈ w.files.passed name :=
  Files.locate_passed broken.located

theorem Broken.load_without (broken : Broken w name place) (below : ¬ place <+: w.files.directory) :
    Settings.load w.environment (w.files.remove place) = .ok .default := by
  obtain ⟨missing, _⟩ := Files.not_read_remove below broken.passed
  exact Settings.load_ok.mpr ⟨name, broken.named, .absent missing⟩

def World.outputSettings (w : World) : Settings :=
  match Settings.load w.environment w.files with
  | .ok s => s
  | .error _ => .default

theorem Broken.outputSettings (broken : Broken w name place) : w.outputSettings = .default := by
  obtain ⟨error, load⟩ := broken.load
  rw [World.outputSettings, load]

theorem Broken.outputSettings_without (broken : Broken w name place)
    (below : ¬ place <+: w.files.directory) : (w.without place).outputSettings = .default := by
  have load := broken.load_without below
  unfold World.outputSettings World.without
  rw [load]

def Outcome.Alike (o o' : Outcome) : Prop :=
  o.exit = o'.exit ∧ o.stdout = o'.stdout

theorem Printed.outcome_alike (p : Printed) (crash crash' : String) (files files' : Files) :
    (p.outcome crash files).Alike (p.outcome crash' files') := by
  unfold outcome
  split <;> exact ⟨rfl, rfl⟩

theorem perform_alike {i' : Invocation} (same : (execute w i).2 = (execute w' i').2) :
    (perform w i).Alike (perform w' i') := by
  unfold perform
  cases run : execute w i with
  | mk files answer =>
    cases run' : execute w' i' with
    | mk files' answer' =>
      rw [run, run'] at same
      dsimp only at same
      subst same
      cases answer with
      | error failure => exact ⟨rfl, rfl⟩
      | ok printed => exact printed.outcome_alike _ _ _ _

theorem perform_error {files : Files} {failure : Failure}
    (failed : execute w i = (files, .error failure)) :
    perform w i = ⟨failure.exit, "", failure.text i.json, files⟩ := by
  rw [perform, failed]

theorem Broken.execute_needy (broken : Broken w name place)
    (needy : i.command.needsSettings = true) :
    ∃ error, execute w i = (w.files, .error (.settings error)) := by
  obtain ⟨error, load⟩ := broken.load
  obtain ⟨fault, loadFrom⟩ := broken.loadFrom
  unfold execute
  cases command : i.command with
  | complete expression cursor explicit label => exact ⟨error, by simp only [runComplete, load]⟩
  | configShow => exact ⟨error, by simp only [runConfigShow, load]⟩
  | configSet key value =>
    exact ⟨fault, by simp only [runConfigSet, broken.named, Settings.change, loadFrom]⟩
  | _ =>
    rw [command] at needy
    cases needy

theorem files_of_needless (needless : i.command.needsSettings = false) :
    (perform w i).files = w.files := by
  have files : (execute w i).1 = w.files := by
    unfold execute
    cases command : i.command with
    | configSet key value =>
      rw [command] at needless
      cases needless
    | _ => rfl
  unfold perform
  split
  · rename_i run
    rw [run] at files
    exact (Printed.files_outcome _ _ _).trans files
  · rename_i run
    rw [run] at files
    exact files

theorem execute_diagnose {expression : String} {error : Option String}
    (command : i.command = .diagnose expression error) :
    execute w i = (w.files, runDiagnose w i (i.color w.outputSettings) expression error) := by
  unfold execute
  rw [command]
  rfl

theorem diagnose_alike {i' : Invocation} {expression : String} {error error' : Option String}
    (command : i.command = .diagnose expression error)
    (asked : i' = { i with command := .diagnose expression error' })
    (settings : w.outputSettings = w'.outputSettings)
    (read : readFault w error = readFault w' error') : (perform w i).Alike (perform w' i') := by
  subst asked
  apply perform_alike
  rw [execute_diagnose command, execute_diagnose rfl, settings]
  unfold runDiagnose
  rw [read]
  rfl

theorem diagnose_unread {expression source : String} {fault : FileError}
    (command : i.command = .diagnose expression (some source)) (file : source ≠ "-")
    (unread : w.files.read source = .error fault) :
    (perform w i).exit = 3 ∧ (perform w i).stdout = "" := by
  have failed : execute w i = (w.files, .error (.file fault)) := by
    rw [execute_diagnose command, runDiagnose, readFault]
    simp only [if_neg file, unread]
  rw [perform_error failed]
  exact ⟨rfl, rfl⟩

theorem diagnose_without {expression source : String}
    (command : i.command = .diagnose expression (some source)) (file : source ≠ "-")
    (below : ¬ place <+: w.files.directory) (through : place ∈ w.files.passed source) :
    (perform (w.without place) i).exit = 3 ∧ (perform (w.without place) i).stdout = "" := by
  obtain ⟨_, fault, unread⟩ := Files.not_read_remove below through
  exact diagnose_unread command file unread

theorem Broken.diagnose_isolated (broken : Broken w name place)
    (below : ¬ place <+: w.files.directory) {expression : String} {error : Option String}
    (command : i.command = .diagnose expression error)
    (apart : ∀ text, ¬ Takes w i place expression text) :
    (perform w i).Alike (perform (w.without place) i) := by
  have settings : w.outputSettings = (w.without place).outputSettings := by
    rw [broken.outputSettings, broken.outputSettings_without below]
  have asked : i = { i with command := .diagnose expression error } := by rw [← command]
  by_cases elsewhere : readFault w error = readFault (w.without place) error
  · exact diagnose_alike command asked settings elsewhere
  cases error with
  | none => exact absurd rfl elsewhere
  | some source =>
    -- The two runs read a file, and the way to it leads through the place.
    by_cases file : source = "-"
    · subst file
      exact absurd rfl elsewhere
    by_cases through : place ∈ w.files.passed source
    · cases read : w.files.read source with
      | ok text => exact absurd ⟨source, command, file, through, read⟩ (apart text)
      | error fault =>
        have present := diagnose_unread command file read
        have absent := diagnose_without (w := w) command file below through
        exact ⟨present.1.trans absent.1.symm, present.2.trans absent.2.symm⟩
    · refine absurd ?_ elsewhere
      have same := Files.read_remove below through
      unfold readFault World.without
      simp only [if_neg file, same]

-- The text of a broken file, taken for an error, counts as it would from the standard input.
theorem Broken.diagnose_taken (broken : Broken w name place) (below : ¬ place <+: w.files.directory)
    {expression text : String} (taken : Takes w i place expression text) :
    (perform w i).Alike (perform { w.without place with stdin := some text }
      { i with command := .diagnose expression (some "-") }) := by
  obtain ⟨source, command, file, _, read⟩ := taken
  refine diagnose_alike command rfl ?_ ?_
  · rw [broken.outputSettings]
    exact (broken.outputSettings_without below).symm
  · unfold readFault
    simp only [if_neg file, read, if_true]

theorem Broken.path_present (broken : Broken w name place) (command : i.command = .configPath) :
    (perform w i).exit = 0 ∧ (perform w i).stdout =
      if i.json then (Report.placeJson name true).pretty ++ "\n" else name ++ "\n" := by
  simp only [perform, execute, command, runConfigPath, broken.named, broken.contains,
    Printed.outcome, and_self]

theorem Broken.path_absent (broken : Broken w name place) (below : ¬ place <+: w.files.directory)
    (command : i.command = .configPath) :
    (perform (w.without place) i).exit = 0 ∧ (perform (w.without place) i).stdout =
      if i.json then (Report.placeJson name false).pretty ++ "\n" else name ++ "\n" := by
  obtain ⟨missing, _⟩ := Files.not_read_remove below broken.passed
  simp only [perform, execute, command, runConfigPath, World.without, broken.named, missing,
    Printed.outcome, and_self]

theorem Broken.isolated (broken : Broken w name place) (below : ¬ place <+: w.files.directory)
    (needless : i.command.needsSettings = false) (other : i.command ≠ .configPath)
    (apart : ∀ expression text, ¬ Takes w i place expression text) :
    (perform w i).Alike (perform (w.without place) i) := by
  obtain ⟨error, load⟩ := broken.load
  have absent := broken.load_without below
  cases command : i.command with
  | diagnose expression error => exact broken.diagnose_isolated below command (apart expression)
  | configPath => exact absurd command other
  | complete | configShow | configSet =>
    rw [command] at needless
    cases needless
  | tokenize | functions =>
    apply perform_alike
    simp only [execute, command, World.without, load, absent]
  | none | completions =>
    apply perform_alike
    simp only [execute, command, World.without]

-- A broken file of settings stops the commands that need it, which leave it alone. The others show
-- what they show without it, but for two of them: where the settings are kept is told with whether
-- anything is there, and a diagnosis may be asked for of the file itself.
theorem broken_settings_isolated (w : World) (words : List String) (i : Invocation) (name : String)
    (place : Path) (parsed : parse w.environment words = .ok i) (broken : Broken w name place) :
    let present := run w words
    let absent := run (w.without place) words
    present.files = w.files ∧
    (i.command.needsSettings = true → present.exit = 5 ∧ present.stdout = "") ∧
    (i.command.needsSettings = false → ¬ place <+: w.files.directory →
      (∀ expression text, Takes w i place expression text →
        absent.exit = 3 ∧ absent.stdout = "" ∧
          present.Alike (perform { w.without place with stdin := some text }
            { i with command := .diagnose expression (some "-") })) ∧
      ((∀ expression text, ¬ Takes w i place expression text) →
        present.exit = absent.exit ∧
          if i.command = .configPath ∧ i.json = true then
            present.stdout = (Report.placeJson name true).pretty ++ "\n" ∧
              absent.stdout = (Report.placeJson name false).pretty ++ "\n"
          else present.stdout = absent.stdout)) := by
  intro present absent
  have ran : present = perform w i := by
    simp only [present, run, parsed]
  have ran' : absent = perform (w.without place) i := by
    have again : parse (w.without place).environment words = .ok i := parsed
    simp only [absent, run, again]
  rw [ran, ran']
  refine ⟨?_, ?_, ?_⟩
  · cases needs : i.command.needsSettings with
    | false => exact files_of_needless needs
    | true =>
      obtain ⟨error, failed⟩ := broken.execute_needy needs
      rw [perform_error failed]
  · intro needy
    obtain ⟨error, failed⟩ := broken.execute_needy needy
    rw [perform_error failed]
    exact ⟨rfl, rfl⟩
  · intro needless below
    constructor
    · intro expression text taken
      have alike := broken.diagnose_taken below taken
      obtain ⟨source, command, file, through, _⟩ := taken
      obtain ⟨exit, stdout⟩ := diagnose_without (w := w) command file below through
      exact ⟨exit, stdout, alike⟩
    · intro apart
      by_cases told : i.command = .configPath
      · obtain ⟨exit, shown⟩ := broken.path_present told
        obtain ⟨exit', shown'⟩ := broken.path_absent below told
        refine ⟨exit.trans exit'.symm, ?_⟩
        rw [shown, shown']
        cases i.json <;> simp [told]
      · have alike := broken.isolated below needless told apart
        rw [if_neg fun both => told both.1]
        exact alike

def keeping (name text : String) : World :=
  ⟨⟨some name, none, some "home", none, none⟩, some "\x7b\"message\": \"bad\"\x7d",
    ⟨["w"], [(["w", "config.toml"], .text text)]⟩, .silent⟩

theorem broken_keeping {name text : String}
    (located : (keeping name text).files.locate name = .ok ["w", "config.toml"])
    (invalid : Settings.ofDocument? text = none) :
    Broken (keeping name text) name ["w", "config.toml"] := by
  refine ⟨rfl, located, rfl, ?_⟩
  intro content read
  rw [Files.read, located] at read
  cases read
  exact invalid

-- A change is refused, and a diagnosis made as without the file. A diagnosis of the file itself is
-- told apart from others by the place, though the file goes by another name there.
theorem broken_settings_isolated_unversioned :
    let w := keeping "config.toml" "version = \"one\""
    let w' := keeping "/w/config.toml" "null"
    (Broken w "config.toml" ["w", "config.toml"] ∧
      (run w ["config", "set", "catalog", "f.json"]).exit = 5 ∧
      (run w ["config", "set", "catalog", "f.json"]).files = w.files ∧
      (run w ["diagnose", "名 >", "--error", "-"]).exit = 0 ∧
      (run w ["diagnose", "名 >", "--error", "-"]).stdout =
        (run (w.without ["w", "config.toml"]) ["diagnose", "名 >", "--error", "-"]).stdout) ∧
    Broken w' "/w/config.toml" ["w", "config.toml"] ∧
      (run w' ["diagnose", "a", "--error", "config.toml"]).exit = 0 ∧
      (run (w'.without ["w", "config.toml"]) ["diagnose", "a", "--error", "config.toml"]).exit =
        3 := by
  intro w w'
  have broken : Broken w "config.toml" ["w", "config.toml"] :=
    broken_keeping rfl (by decide +kernel)
  have broken' : Broken w' "/w/config.toml" ["w", "config.toml"] :=
    broken_keeping rfl (by decide +kernel)
  have below : ¬ ["w", "config.toml"] <+: ["w"] := by decide
  obtain ⟨files, stops, _⟩ := broken_settings_isolated w ["config", "set", "catalog", "f.json"]
    ⟨false, false, false, false, none, .configSet "catalog" "f.json"⟩ _ _ rfl broken
  obtain ⟨_, _, shows⟩ := broken_settings_isolated w ["diagnose", "名 >", "--error", "-"]
    ⟨false, false, false, false, none, .diagnose "名 >" (some "-")⟩ _ _ rfl broken
  obtain ⟨_, _, shows'⟩ := broken_settings_isolated w' ["diagnose", "a", "--error", "config.toml"]
    ⟨false, false, false, false, none, .diagnose "a" (some "config.toml")⟩ _ _ rfl broken'
  have apart : ∀ expression text, ¬ Takes w
      ⟨false, false, false, false, none, .diagnose "名 >" (some "-")⟩ ["w", "config.toml"]
      expression text := by
    rintro expression text ⟨source, command, file, _⟩
    cases command
    exact file rfl
  have taken : Takes w' ⟨false, false, false, false, none, .diagnose "a" (some "config.toml")⟩
      ["w", "config.toml"] "a" "null" :=
    ⟨"config.toml", rfl, by decide, by decide +kernel, rfl⟩
  exact ⟨⟨broken, (stops rfl).1, files, by decide +kernel, ((shows rfl below).2 apart).2⟩,
    broken', by decide +kernel, ((shows' rfl below).1 "a" "null" taken).1⟩

-- The file of settings is no settings, but an error to diagnose, namely none. It is missed when it
-- is not there.
theorem broken_settings_diagnosed :
    let w := keeping "config.toml" "null"
    let words := ["diagnose", "a", "--error", "config.toml"]
    Broken w "config.toml" ["w", "config.toml"] ∧
      parse w.environment words =
        .ok ⟨false, false, false, false, none, .diagnose "a" (some "config.toml")⟩ ∧
      ((run w words).exit = 0 ∧ (run w words).stdout = "No diagnostics.\n") ∧
      (run (w.without ["w", "config.toml"]) words).exit = 3 ∧
      (run (w.without ["w", "config.toml"]) words).stdout = "" := by
  intro w words
  have broken : Broken w "config.toml" ["w", "config.toml"] :=
    broken_keeping rfl (by decide +kernel)
  have shown : (run w words).exit = 0 ∧ (run w words).stdout = "No diagnostics.\n" := by
    decide +kernel
  have missed : (run (w.without ["w", "config.toml"]) words).exit = 3 ∧
      (run (w.without ["w", "config.toml"]) words).stdout = "" := by
    decide +kernel
  exact ⟨broken, rfl, shown, missed⟩

end ScoreFilter.CommandLine

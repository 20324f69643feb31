import ScoreFilter.Proofs.Files
import ScoreFilter.Proofs.Settings.Document
import ScoreFilter.Settings.File

namespace ScoreFilter

namespace Settings

variable {s s' : Settings} {files files' : Files} {name label value : String} {key : Key}

-- The settings that a file stands for: the default ones without the file, and those that its text
-- spells with it. A file that cannot be read, or spells none, stands for no settings.
inductive Held (files : Files) (name : String) : Settings → Prop where
  | absent (missing : files.contains name = false) : Held files name default
  | present {text : String} {s : Settings} (read : files.read name = .ok text)
      (valid : ofDocument? text = some s) : Held files name s.migrate

theorem loadFrom_ok : loadFrom files name = .ok s ↔ Held files name s := by
  unfold loadFrom
  constructor
  · intro loaded
    split at loaded
    · split at loaded
      · cases loaded
      · rename_i text read
        split at loaded
        · rename_i kept valid
          cases loaded
          exact .present read valid
        · cases loaded
    · rename_i missing
      cases loaded
      exact .absent (Bool.eq_false_iff.mpr missing)
  · intro held
    cases held with
    | absent missing => simp [missing]
    | present read valid => simp [Files.contains_of_read read, read, valid]

theorem Held.current (held : Held files name s) : s.version = currentVersion := by
  cases held <;> rfl

theorem not_held_iff : (∀ s, ¬ Held files name s) ↔
    files.contains name = true ∧ ∀ text, files.read name = .ok text → ofDocument? text = none := by
  constructor
  · intro broken
    constructor
    · rw [← Bool.not_eq_false]
      intro missing
      exact broken _ (.absent missing)
    · intro text read
      cases valid : ofDocument? text with
      | none => rfl
      | some s => exact absurd (.present read valid) (broken s.migrate)
  · rintro ⟨there, unread⟩ s held
    cases held with
    | absent missing =>
      rw [missing] at there
      cases there
    | present read valid =>
      rw [unread _ read] at valid
      cases valid

theorem load_ok {e : Environment} : load e files = .ok s ↔
    ∃ name, e.settingsName = .ok name ∧ Held files name s := by
  unfold load
  cases e.settingsName with
  | error fault => simp
  | ok name => simp [loadFrom_ok]

theorem saveTo_held (writable : files.Writable name) (s : Settings) :
    ∃ files', s.saveTo files name = (files', .ok ()) ∧ files'.Writable name ∧
      Held files' name s.migrate := by
  obtain ⟨made, parents, writes⟩ := writable
  obtain ⟨files', written⟩ := writes s.toDocument
  obtain ⟨_, found⟩ := Files.written_of_write written
  refine ⟨files', ?_, .again parents written, .present found.read (ofDocument?_toDocument s)⟩
  simp [saveTo, parents, written]

theorem Key.ofLabel?_eq_some : Key.ofLabel? label = some key ↔ label = key.label := by
  constructor
  · intro found
    unfold Key.ofLabel? at found
    split at found
    · split at found
      · cases found
        assumption
      · cases found
    · rename_i group setting divided
      have spelled := (Text.splitPoint?_append divided).1
      rw [← String.toList_inj, spelled]
      split at found
      · rename_i color
        simp only [Bool.and_eq_true, decide_eq_true_eq] at color
        cases found
        rw [color.1, color.2]
        rfl
      · split at found
        · rename_i explicit
          simp only [Bool.and_eq_true, decide_eq_true_eq] at explicit
          cases found
          rw [explicit.1, explicit.2]
          rfl
        · cases found
  · rintro rfl
    cases key <;> rfl

theorem Key.label_inj {other : Key} : key.label = other.label ↔ key = other := by
  cases key <;> cases other <;> decide

inductive Value where
  | text (value : String)
  | flag (value : Bool)
deriving DecidableEq

def Key.read? : Key → String → Option Value
  | .catalog, word => some (.text word)
  | .color, word | .explicit, word => (bool? word).map .flag

def value? (s : Settings) : Key → Option Value
  | .catalog => s.catalog.map .text
  | .color => s.color.map .flag
  | .explicit => s.explicit.map .flag

-- A known key and, where the setting is a flag, a word for yes or no.
def Acceptable (label value : String) : Prop :=
  label ∈ Key.all.map Key.label ∧
    (label = Key.color.label ∨ label = Key.explicit.label → (bool? value).isSome = true)

theorem acceptable_iff : Acceptable label value ↔
    ∃ key : Key, label = key.label ∧ (key.read? value).isSome = true := by
  constructor
  · rintro ⟨listed, flag⟩
    obtain ⟨key, _, rfl⟩ := List.mem_map.mp listed
    refine ⟨key, rfl, ?_⟩
    cases key with
    | catalog => rfl
    | color => simpa [Key.read?] using flag (.inl rfl)
    | explicit => simpa [Key.read?] using flag (.inr rfl)
  · rintro ⟨key, rfl, meant⟩
    refine ⟨List.mem_map_of_mem (by cases key <;> decide), ?_⟩
    intro flag
    cases key with
    | catalog => exact absurd flag (by decide)
    | color => simpa [Key.read?] using meant
    | explicit => simpa [Key.read?] using meant

theorem assignBool_ok {change : Bool → Settings} :
    assignBool value change = .ok s ↔ ∃ b, bool? value = some b ∧ s = change b := by
  unfold assignBool
  cases bool? value with
  | none => simp
  | some b => simp [eq_comm]

theorem assign_ok (assigned : s.assign label value = .ok s') :
    ∃ key : Key, label = key.label ∧ (key.read? value).isSome = true ∧
      ∀ other, s'.value? other = if other = key then key.read? value else s.value? other := by
  unfold assign at assigned
  split at assigned
  · cases assigned
  · rename_i known
    cases assigned
    refine ⟨.catalog, Key.ofLabel?_eq_some.mp known, rfl, ?_⟩
    intro other
    cases other <;> rfl
  all_goals
    rename_i known
    obtain ⟨b, meant, rfl⟩ := assignBool_ok.mp assigned
    refine ⟨_, Key.ofLabel?_eq_some.mp known, by simp [Key.read?, meant], ?_⟩
    intro other
    cases other <;> simp [value?, Key.read?, meant]

theorem exists_assign (s : Settings) (acceptable : Acceptable label value) :
    ∃ s', s.assign label value = .ok s' := by
  obtain ⟨key, rfl, meant⟩ := acceptable_iff.mp acceptable
  have known : Key.ofLabel? key.label = some key := Key.ofLabel?_eq_some.mpr rfl
  unfold assign
  rw [known]
  cases key with
  | catalog => exact ⟨_, rfl⟩
  | color | explicit =>
    obtain ⟨b, read⟩ := Option.isSome_iff_exists.mp (by simpa [Key.read?] using meant)
    exact ⟨_, assignBool_ok.mpr ⟨b, read, rfl⟩⟩

theorem change_accepted (writable : files.Writable name) (held : Held files name s)
    (acceptable : Acceptable label value) :
    ∃ files' s', change files name label value = (files', .ok ()) ∧ files'.Writable name ∧
      Held files' name s' ∧ ∃ key : Key, label = key.label ∧
        ∀ other, s'.value? other = if other = key then key.read? value else s.value? other := by
  obtain ⟨s', assigned⟩ := exists_assign s acceptable
  obtain ⟨key, known, _, values⟩ := assign_ok assigned
  obtain ⟨files', saved, again, found⟩ := saveTo_held writable s'
  refine ⟨files', s'.migrate, ?_, again, found, key, known, values⟩
  rw [change, loadFrom_ok.mpr held]
  dsimp only
  rw [assigned]
  exact saved

theorem change_refused (refused : ∀ s, Held files name s → ¬ Acceptable label value) :
    ∃ error, change files name label value = (files, .error error) := by
  unfold change
  cases loaded : loadFrom files name with
  | error fault => exact ⟨fault, rfl⟩
  | ok s =>
    dsimp only
    cases assigned : s.assign label value with
    | error refusal => exact ⟨.refused refusal, rfl⟩
    | ok s' =>
      obtain ⟨key, known, meant, _⟩ := assign_ok assigned
      exact absurd (acceptable_iff.mpr ⟨key, known, meant⟩) (refused s (loadFrom_ok.mp loaded))

end Settings

end ScoreFilter

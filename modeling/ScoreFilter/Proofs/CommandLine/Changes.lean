import ScoreFilter.CommandLine.Run
import ScoreFilter.Proofs.Settings.File

namespace ScoreFilter.CommandLine

open Settings (Held Acceptable Key Value)

structure Change (name : String) where
  environment : Environment
  stdin : Option String
  wording : Wording
  words : List String
  invocation : Invocation
  key : String
  value : String
  placed : environment.settingsName = .ok name
  parsed : parse environment words = .ok invocation
  asked : invocation.command = .configSet key value

variable {name : String} {files files' : Files} {s : Settings} {c : Change name}

namespace Change

def outcome (c : Change name) (files : Files) : Outcome :=
  run ⟨c.environment, c.stdin, files, c.wording⟩ c.words

theorem outcome_ok (changed : Settings.change files name c.key c.value = (files', .ok ())) :
    (c.outcome files).exit = 0 ∧ (c.outcome files).files = files' := by
  simp [outcome, run, c.parsed, perform, execute, c.asked, runConfigSet, c.placed, changed,
    Printed.outcome, Invocation.output_shown]

theorem outcome_error {error : SettingsError}
    (changed : Settings.change files name c.key c.value = (files', .error error)) :
    (c.outcome files).exit = 5 ∧ (c.outcome files).files = files' := by
  simp [outcome, run, c.parsed, perform, execute, c.asked, runConfigSet, c.placed, changed,
    Failure.exit]

theorem outcome_refused (refused : ∀ s, Held files name s → ¬ Acceptable c.key c.value) :
    (c.outcome files).exit = 5 ∧ (c.outcome files).files = files := by
  obtain ⟨error, changed⟩ := Settings.change_refused refused
  exact outcome_error changed

-- A change is made where there are settings and it makes sense; all else ends with the same code
-- and leaves the files alone.
structure AllOrNothing (c : Change name) (files : Files) : Prop where
  succeeds : (c.outcome files).exit = 0 ↔ (∃ s, Held files name s) ∧ Acceptable c.key c.value
  fails : (c.outcome files).exit ≠ 0 → (c.outcome files).exit = 5 ∧ (c.outcome files).files = files

theorem allOrNothing (c : Change name)
    (writable : (∃ s, Held files name s) → files.Writable name) : c.AllOrNothing files := by
  by_cases possible : (∃ s, Held files name s) ∧ Acceptable c.key c.value
  · obtain ⟨⟨s, held⟩, acceptable⟩ := possible
    obtain ⟨_, _, changed, _⟩ := Settings.change_accepted (writable ⟨s, held⟩) held acceptable
    have exit := (outcome_ok changed).1
    exact ⟨iff_of_true exit ⟨⟨s, held⟩, acceptable⟩, fun failed => absurd exit failed⟩
  · have refused := outcome_refused fun s (held : Held files name s) acceptable =>
      possible ⟨⟨s, held⟩, acceptable⟩
    refine ⟨iff_of_false ?_ possible, fun _ => refused⟩
    rw [refused.1]
    decide

end Change

structure Progress (name : String) where
  files : Files
  made : List (Change name)

namespace Progress

def step (p : Progress name) (c : Change name) : Progress name :=
  ⟨(c.outcome p.files).files, if (c.outcome p.files).exit = 0 then p.made ++ [c] else p.made⟩

def after (files : Files) (changes : List (Change name)) : Progress name :=
  changes.foldl step ⟨files, []⟩

end Progress

-- The last change of a setting counts, and without one the value it had.
def valueAfter (s : Settings) (made : List (Change name)) (key : Key) : Option Value :=
  match (made.filter (·.key == key.label)).getLast? with
  | some c => key.read? c.value
  | none => s.value? key

theorem valueAfter_snoc {key : Key} (made : List (Change name)) (named : c.key = key.label)
    (other : Key) : valueAfter s (made ++ [c]) other =
      if other = key then key.read? c.value else valueAfter s made other := by
  by_cases same : other = key
  · subst same
    simp [valueAfter, named]
  · have apart : c.key ≠ other.label := by
      intro equal
      exact same (Settings.Key.label_inj.mp (equal.symm.trans named))
    simp [valueAfter, same, apart]

structure Kept (s : Settings) (p : Progress name) : Prop where
  writable : p.files.Writable name
  held : ∃ now, Held p.files name now ∧ ∀ key, now.value? key = valueAfter s p.made key

theorem Kept.step {p : Progress name} (kept : Kept s p) (c : Change name) :
    Kept s (p.step c) := by
  obtain ⟨now, held, values⟩ := kept.held
  by_cases acceptable : Acceptable c.key c.value
  · obtain ⟨files', s', changed, writable, found, key, named, assigned⟩ :=
      Settings.change_accepted kept.writable held acceptable
    obtain ⟨exit, left⟩ := Change.outcome_ok changed
    unfold Progress.step
    rw [exit, left, if_pos rfl]
    refine ⟨writable, s', found, ?_⟩
    intro other
    rw [assigned, valueAfter_snoc p.made named, values]
  · obtain ⟨exit, left⟩ := Change.outcome_refused fun s (_ : Held p.files name s) => acceptable
    unfold Progress.step
    rw [exit, left, if_neg (by decide)]
    exact ⟨kept.writable, now, held, values⟩

theorem Kept.foldl {p : Progress name} (kept : Kept s p) (changes : List (Change name)) :
    Kept s (changes.foldl Progress.step p) := by
  induction changes generalizing p with
  | nil => exact kept
  | cons c changes ih => exact ih (kept.step c)

theorem Kept.after (writable : files.Writable name) (held : Held files name s)
    (changes : List (Change name)) : Kept s (Progress.after files changes) :=
  Kept.foldl ⟨writable, s, held, fun _ => rfl⟩ changes

theorem Progress.files_foldl_broken {p : Progress name} (broken : ∀ s, ¬ Held p.files name s)
    (changes : List (Change name)) : (changes.foldl step p).files = p.files := by
  induction changes generalizing p with
  | nil => rfl
  | cons c changes ih =>
    have same : (p.step c).files = p.files :=
      (Change.outcome_refused fun s held => absurd held (broken s)).2
    rw [List.foldl_cons, ih (by rwa [same]), same]

theorem Progress.writable_after (writable : (∃ s, Held files name s) → files.Writable name)
    (changes : List (Change name)) (readable : ∃ s, Held (after files changes).files name s) :
    (after files changes).files.Writable name := by
  by_cases initially : ∃ s, Held files name s
  · obtain ⟨s, held⟩ := initially
    exact (Kept.after (writable ⟨s, held⟩) held changes).writable
  · have same : (after files changes).files = files :=
      files_foldl_broken (fun s held => initially ⟨s, held⟩) changes
    rw [same] at readable
    exact absurd readable initially

-- No change is lost and none does damage: each is made in full or not at all, and in the end each
-- setting has the last value it was given.
theorem changes_lose_nothing (files : Files) (changes : List (Change name))
    (writable : (∃ s, Held files name s) → files.Writable name) :
    (∀ front c back, changes = front ++ c :: back →
      c.AllOrNothing (Progress.after files front).files) ∧
      (∀ s, Held files name s → ∃ now,
        Settings.loadFrom (Progress.after files changes).files name = .ok now ∧ now.version = 1 ∧
          ∀ key, now.value? key = valueAfter s (Progress.after files changes).made key) ∧
      ((∀ s, ¬ Held files name s) → (Progress.after files changes).files = files) := by
  refine ⟨?_, ?_, ?_⟩
  · intro front c back _
    exact c.allOrNothing (Progress.writable_after writable front)
  · intro s held
    obtain ⟨now, found, values⟩ := (Kept.after (writable ⟨s, held⟩) held changes).held
    exact ⟨now, Settings.loadFrom_ok.mpr found, found.current, values⟩
  · intro broken
    exact Progress.files_foldl_broken broken changes

-- A file of an older form, and changes to it of which the second names no setting and the last
-- gives none a value.
def plainEnvironment : Environment :=
  ⟨some "c.toml", none, none, none, none⟩

def typedChange (key value : String)
    (parsed : parse plainEnvironment ["config", "set", key, value] =
      .ok ⟨false, false, false, false, none, .configSet key value⟩) : Change "c.toml" :=
  ⟨plainEnvironment, none, .silent, ["config", "set", key, value], _, key, value, rfl, parsed, rfl⟩

def typedChanges : List (Change "c.toml") :=
  [typedChange "output.color" "ON" rfl, typedChange "output.color.x" "no" rfl,
    typedChange "catalog" "a \"b\"\n" rfl, typedChange "output.color" "maybe" rfl]

def oldFile : Files :=
  ⟨["w"], [(["w", "c.toml"], .text "version = 7\ncatalog = 'old'\n")]⟩

theorem changes_lose_nothing_in_old_file :
    Held oldFile "c.toml" ⟨1, some "old", none, none⟩ ∧ oldFile.Writable "c.toml" ∧
      ∃ now, Settings.loadFrom (Progress.after oldFile typedChanges).files "c.toml" = .ok now ∧
        now.version = 1 ∧
        Key.all.map now.value? = [some (.text "a \"b\"\n"), some (.flag true), none] := by
  have writable : oldFile.Writable "c.toml" := ⟨oldFile, by decide, fun content => ⟨_, rfl⟩⟩
  have valid : Settings.ofDocument? "version = 7\ncatalog = 'old'\n" =
      some ⟨7, some "old", none, none⟩ := by
    decide +kernel
  have held : Held oldFile "c.toml" ⟨1, some "old", none, none⟩ := .present rfl valid
  have last : Key.all.map (valueAfter ⟨1, some "old", none, none⟩
      (Progress.after oldFile typedChanges).made) =
      [some (.text "a \"b\"\n"), some (.flag true), none] := by
    decide +kernel
  obtain ⟨now, loaded, version, values⟩ :=
    (changes_lose_nothing oldFile typedChanges fun _ => writable).2.1 _ held
  refine ⟨held, writable, now, loaded, version, ?_⟩
  rw [← last]
  exact List.map_congr_left fun key _ => values key

end ScoreFilter.CommandLine

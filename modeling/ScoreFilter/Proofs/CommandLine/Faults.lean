import ScoreFilter.CommandLine.Run
import ScoreFilter.Proofs.Cursor.Landing
import ScoreFilter.Proofs.Cursor.Replacement
import ScoreFilter.Proofs.Settings.File

namespace ScoreFilter

namespace Offer

variable {offer : Offer} {label : String} {s : Suggestion}

def First (offer : Offer) (label : String) (s : Suggestion) : Prop :=
  ∃ front back, offer.suggestions = front ++ s :: back ∧ s.label = label ∧
    ∀ earlier ∈ front, earlier.label ≠ label

theorem find?_eq_some : offer.find? label = some s ↔ offer.First label s := by
  rw [find?, List.find?_eq_some_iff_append]
  constructor
  · rintro ⟨carries, front, back, divided, none_before⟩
    exact ⟨front, back, divided, by simpa using carries, by simpa using none_before⟩
  · rintro ⟨front, back, divided, carries, none_before⟩
    exact ⟨by simpa using carries, front, back, divided, by simpa using none_before⟩

theorem find?_eq_none : offer.find? label = none ↔ ∀ s ∈ offer.suggestions, s.label ≠ label := by
  simp [find?]

end Offer

namespace CommandLine

-- The faults that can occur, with their exit codes: the first one that does decides.
def Decides : List (Nat × Prop) → Nat → Prop
  | [], exit => exit = 0
  | (code, fault) :: later, exit => fault ∧ exit = code ∨ ¬ fault ∧ Decides later exit

theorem Decides.none_of_zero {faults : List (Nat × Prop)} (coded : ∀ f ∈ faults, f.1 ≠ 0)
    (decided : Decides faults 0) : ∀ f ∈ faults, ¬ f.2 := by
  induction faults with
  | nil => simp
  | cons first later ih =>
    rcases decided with ⟨_, code⟩ | ⟨clear, decided⟩
    · exact absurd code.symm (coded first List.mem_cons_self)
    · intro f member
      rcases List.mem_cons.mp member with rfl | behind
      · exact clear
      · exact ih (fun f member => coded f (List.mem_cons_of_mem _ member)) decided f behind

theorem Decides.code {faults : List (Nat × Prop)} {exit : Nat} (decided : Decides faults exit) :
    exit = 0 ∨ exit ∈ faults.map (·.1) := by
  induction faults with
  | nil => exact .inl decided
  | cons first later ih =>
    rcases decided with ⟨_, rfl⟩ | ⟨_, decided⟩
    · exact .inr List.mem_cons_self
    · exact (ih decided).imp_right (List.mem_cons_of_mem _)

-- A request for completions, as it is typed and as it is understood.
structure Request where
  world : World
  words : List String
  invocation : Invocation
  expression : String
  cursor : Option Nat
  explicit : Bool
  label : Option String
  parsed : parse world.environment words = .ok invocation
  asked : invocation.command = .complete expression cursor explicit label

namespace Request

def outcome (r : Request) : Outcome :=
  run r.world r.words

def position (r : Request) : Nat :=
  r.cursor.getD (Text.byteLength r.expression.toList)

def HasSettings (r : Request) (s : Settings) : Prop :=
  ∃ name, r.world.environment.settingsName = .ok name ∧ Settings.Held r.world.files name s

def catalogName (r : Request) (s : Settings) : Option String :=
  r.invocation.catalog.or s.catalog

inductive HasCatalog (r : Request) (s : Settings) : Catalog → Prop where
  | unnamed (silent : r.catalogName s = none) : HasCatalog r s .empty
  | named {name text : String} {catalog : Catalog} (named : r.catalogName s = some name)
      (read : r.world.files.read name = .ok text) (valid : Catalog.ofDocument text = .ok catalog) :
      HasCatalog r s catalog

structure Ready (r : Request) (s : Settings) (catalog : Catalog) : Prop where
  settled : r.HasSettings s
  cataloged : r.HasCatalog s catalog

def offer? (r : Request) (s : Settings) (catalog : Catalog) : Option Offer :=
  complete .standard catalog (r.explicit || s.explicit.getD false) r.expression r.position

def Offers (r : Request) (s : Settings) (offer : Offer) : Prop :=
  ∃ catalog, r.Ready s catalog ∧ r.offer? s catalog = some offer

def Edits (r : Request) (s : Settings) (label : String) (edit : Edit) : Prop :=
  ∃ offer o, r.Offers s offer ∧ offer.First label o ∧
    edit = o.applyTo r.expression offer.start r.position

def NoSettings (r : Request) : Prop :=
  (∀ name, r.world.environment.settingsName ≠ .ok name) ∨
    ∃ name, r.world.environment.settingsName = .ok name ∧ r.world.files.contains name = true ∧
      ∀ text, r.world.files.read name = .ok text → Settings.ofDocument? text = none

def UnreadableCatalog (r : Request) : Prop :=
  ∃ s name, r.HasSettings s ∧ r.catalogName s = some name ∧
    ∀ text, r.world.files.read name ≠ .ok text

def InvalidCatalog (r : Request) : Prop :=
  ∃ s name text, r.HasSettings s ∧ r.catalogName s = some name ∧
    r.world.files.read name = .ok text ∧ ∀ catalog, Catalog.ofDocument text ≠ .ok catalog

def MisplacedCursor (r : Request) : Prop :=
  r.position ∉ Text.boundaries r.expression.toList

def UnknownLabel (r : Request) : Prop :=
  ∃ label, r.label = some label ∧
    ∀ s offer, r.Offers s offer → ∀ o ∈ offer.suggestions, o.label ≠ label

-- The edit is to be shown in a table, and the caret would stand too far to the right.
def TooWide (r : Request) (edit : Edit) : Prop :=
  r.invocation.json = false ∧ r.invocation.quiet = false ∧
    65535 ≤ (Text.before edit.cursor edit.text.toList).length

-- Nothing is wrong with the request, but what it asks for cannot be shown.
def Unprintable (r : Request) : Prop :=
  ¬ r.MisplacedCursor ∧
    ∃ s label edit, r.label = some label ∧ r.Edits s label edit ∧ r.TooWide edit

def report (r : Request) (s : Settings) (label : String) (edit : Edit) : List Char :=
  if r.invocation.json then Report.editRecord label edit
  else if r.invocation.quiet then []
  else Report.editPicture (r.invocation.color s) edit.text.toList
    (Text.before edit.cursor edit.text.toList).length

structure Shows (r : Request) (s : Settings) (label : String) (edit : Edit) : Prop where
  printed : ¬ r.TooWide edit →
    r.outcome.exit = 0 ∧ r.outcome.stdout = String.ofList (r.report s label edit)
  crashed : r.TooWide edit → r.outcome.exit = 101 ∧ r.outcome.stdout = ""

variable {r : Request} {s s' : Settings} {catalog catalog' : Catalog}

theorem noSettings_iff : r.NoSettings ↔ ∀ s, ¬ r.HasSettings s := by
  unfold NoSettings HasSettings
  cases r.world.environment.settingsName with
  | error fault => simp
  | ok name => simp [← Settings.not_held_iff]

theorem load_ok : Settings.load r.world.environment r.world.files = .ok s ↔ r.HasSettings s :=
  Settings.load_ok

theorem resolveCatalog_ok :
    resolveCatalog r.world.files r.invocation s = .ok catalog ↔ r.HasCatalog s catalog := by
  unfold resolveCatalog
  constructor
  · intro resolved
    split at resolved
    · rename_i name named
      unfold loadCatalog at resolved
      split at resolved
      · cases resolved
      · rename_i text read
        split at resolved
        · cases resolved
        · rename_i found valid
          cases resolved
          exact .named named read valid
    · rename_i silent
      cases resolved
      exact .unnamed silent
  · intro cataloged
    cases cataloged with
    | unnamed silent =>
      rw [catalogName] at silent
      rw [silent]
    | named named read valid =>
      rw [catalogName] at named
      simp only [named, loadCatalog, read, valid]

theorem Ready.unique (first : r.Ready s catalog) (second : r.Ready s' catalog') :
    s = s' ∧ catalog = catalog' := by
  have settings := (load_ok.mpr first.settled).symm.trans (load_ok.mpr second.settled)
  cases settings
  have catalogs := (resolveCatalog_ok.mpr first.cataloged).symm.trans
    (resolveCatalog_ok.mpr second.cataloged)
  cases catalogs
  exact ⟨rfl, rfl⟩

theorem exists_ready (settled : ¬ r.NoSettings) (readable : ¬ r.UnreadableCatalog)
    (valid : ¬ r.InvalidCatalog) : ∃ s catalog, r.Ready s catalog := by
  rw [noSettings_iff] at settled
  simp only [Classical.not_forall, Classical.not_not] at settled
  obtain ⟨s, settled⟩ := settled
  cases named : r.catalogName s with
  | none => exact ⟨s, .empty, settled, .unnamed named⟩
  | some name =>
    cases read : r.world.files.read name with
    | error fault =>
      refine absurd ⟨s, name, settled, named, ?_⟩ readable
      intro text found
      rw [read] at found
      cases found
    | ok text =>
      cases load : Catalog.ofDocument text with
      | error fault =>
        refine absurd ⟨s, name, text, settled, named, read, ?_⟩ valid
        intro catalog found
        rw [load] at found
        cases found
      | ok catalog => exact ⟨s, catalog, settled, .named named read load⟩

def answer (r : Request) : Except Failure Printed :=
  runComplete r.world r.invocation r.expression r.cursor r.explicit r.label

theorem outcome_eq (r : Request) : r.outcome =
    match r.answer with
    | .ok printed => printed.outcome r.world.wording.crash r.world.files
    | .error failure => ⟨failure.exit, "", failure.text r.invocation.json, r.world.files⟩ := by
  have executed : execute r.world r.invocation = (r.world.files, r.answer) := by
    rw [execute, r.asked]
    rfl
  rw [outcome, run, r.parsed]
  dsimp only
  rw [perform, executed]
  cases r.answer <;> rfl

theorem answer_of_noSettings (fault : r.NoSettings) :
    ∃ error, r.answer = .error (.settings error) := by
  unfold answer runComplete
  cases loaded : Settings.load r.world.environment r.world.files with
  | error error => exact ⟨error, rfl⟩
  | ok s => exact absurd (load_ok.mp loaded) (noSettings_iff.mp fault s)

theorem answer_of_loadCatalog {name : String} {failure : Failure} (settled : r.HasSettings s)
    (named : r.catalogName s = some name)
    (failed : loadCatalog r.world.files name = .error failure) : r.answer = .error failure := by
  rw [catalogName] at named
  simp only [answer, runComplete, load_ok.mpr settled, resolveCatalog, named, failed]

theorem answer_of_unreadableCatalog (fault : r.UnreadableCatalog) :
    ∃ fault, r.answer = .error (.file fault) := by
  obtain ⟨s, name, settled, named, unread⟩ := fault
  cases read : r.world.files.read name with
  | error fault => exact ⟨fault, answer_of_loadCatalog settled named (by rw [loadCatalog, read])⟩
  | ok text => exact absurd read (unread text)

theorem answer_of_invalidCatalog (fault : r.InvalidCatalog) :
    ∃ error, r.answer = .error (.catalog error) := by
  obtain ⟨s, name, text, settled, named, read, invalid⟩ := fault
  cases load : Catalog.ofDocument text with
  | error error =>
    exact ⟨error, answer_of_loadCatalog settled named (by simp only [loadCatalog, read, load])⟩
  | ok catalog => exact absurd load (invalid catalog)

theorem answer_eq (ready : r.Ready s catalog) :
    r.answer = (completeAt catalog r.expression r.cursor (r.explicit || s.explicit.getD false)
      r.label).map (Completed.printed r.invocation (r.invocation.color s) r.expression) := by
  simp only [answer, runComplete, load_ok.mpr ready.settled,
    resolveCatalog_ok.mpr ready.cataloged]
  cases completeAt catalog r.expression r.cursor (r.explicit || s.explicit.getD false) r.label <;>
    rfl

theorem misplacedCursor_iff : r.MisplacedCursor ↔
    Text.clamp r.position r.expression.toList ≠ r.position :=
  not_congr Text.isBoundary_iff.symm

theorem boundary_of_placed (placed : ¬ r.MisplacedCursor) :
    Text.IsBoundary r.position r.expression.toList :=
  Text.isBoundary_iff.mpr (Classical.not_not.mp placed)

theorem answer_of_misplacedCursor (ready : r.Ready s catalog) (fault : r.MisplacedCursor) :
    r.answer = .error (.badCursor r.position (Text.byteLength r.expression.toList)) := by
  have outside : ¬ Text.IsBoundary r.position r.expression.toList := misplacedCursor_iff.mp fault
  rw [position] at outside ⊢
  simp only [answer_eq ready, completeAt, if_neg outside, Except.map]

theorem answer_labelled {label : String} (ready : r.Ready s catalog)
    (placed : ¬ r.MisplacedCursor) (asked : r.label = some label) :
    r.answer = (takeUp r.expression r.position (r.offer? s catalog) label).map fun edit =>
      Completed.printed r.invocation (r.invocation.color s) r.expression
        ⟨r.position, r.offer? s catalog, some (label, edit)⟩ := by
  have boundary := boundary_of_placed placed
  rw [position] at boundary
  rw [offer?, position]
  simp only [answer_eq ready, completeAt, if_pos boundary, asked]
  cases takeUp r.expression _ _ label <;> rfl

theorem takeUp_ok {label : String} {edit : Edit} (ready : r.Ready s catalog) :
    takeUp r.expression r.position (r.offer? s catalog) label = .ok edit ↔
      r.Edits s label edit := by
  unfold takeUp
  constructor
  · intro taken
    split at taken
    · rename_i edit' chosen
      cases taken
      obtain ⟨offer, offered, mapped⟩ := Option.bind_eq_some_iff.mp chosen
      obtain ⟨o, first, rfl⟩ := Option.map_eq_some_iff.mp mapped
      exact ⟨offer, o, ⟨catalog, ready, offered⟩, Offer.find?_eq_some.mp first, rfl⟩
    · cases taken
  · rintro ⟨offer, o, ⟨catalog', ready', offered⟩, first, rfl⟩
    obtain ⟨_, rfl⟩ := ready.unique ready'
    simp [offered, Offer.find?_eq_some.mpr first]

theorem takeUp_error {expression label : String} {cursor : Nat} {offer : Option Offer}
    {failure : Failure} (failed : takeUp expression cursor offer label = .error failure) :
    failure = .noSuchLabel label := by
  unfold takeUp at failed
  split at failed
  · cases failed
  · cases failed
    rfl

theorem unknownLabel_iff (ready : r.Ready s catalog) : r.UnknownLabel ↔
    ∃ label, r.label = some label ∧ ∀ edit, ¬ r.Edits s label edit := by
  constructor
  · rintro ⟨label, asked, unknown⟩
    refine ⟨label, asked, ?_⟩
    rintro edit ⟨offer, o, offered, ⟨front, back, divided, carries, _⟩, _⟩
    have listed : o ∈ offer.suggestions := by simp [divided]
    exact unknown s offer offered o listed carries
  · rintro ⟨label, asked, none_fits⟩
    refine ⟨label, asked, ?_⟩
    rintro s' offer ⟨catalog', ready', found⟩
    obtain ⟨rfl, rfl⟩ := ready.unique ready'
    apply Offer.find?_eq_none.mp
    cases chosen : offer.find? label with
    | none => rfl
    | some o =>
      exact absurd ⟨offer, o, ⟨catalog, ready, found⟩, Offer.find?_eq_some.mp chosen, rfl⟩
        (none_fits _)

theorem answer_of_unknownLabel (ready : r.Ready s catalog) (placed : ¬ r.MisplacedCursor)
    (fault : r.UnknownLabel) : ∃ label, r.answer = .error (.noSuchLabel label) := by
  obtain ⟨label, asked, none_fits⟩ := (unknownLabel_iff ready).mp fault
  rw [answer_labelled ready placed asked]
  cases taken : takeUp r.expression r.position (r.offer? s catalog) label with
  | ok edit => exact absurd ((takeUp_ok ready).mp taken) (none_fits edit)
  | error failure =>
    cases takeUp_error taken
    exact ⟨label, rfl⟩

theorem exists_edits {label : String} (ready : r.Ready s catalog) (known : ¬ r.UnknownLabel)
    (asked : r.label = some label) : ∃ edit, r.Edits s label edit := by
  apply Classical.byContradiction
  intro none_fits
  exact known ((unknownLabel_iff ready).mpr ⟨label, asked, not_exists.mp none_fits⟩)

theorem exit_of_error {failure : Failure} (answered : r.answer = .error failure) :
    r.outcome.exit = failure.exit := by
  rw [outcome_eq, answered]

theorem outcome_of_ok {printed : Printed} (answered : r.answer = .ok printed) :
    r.outcome = printed.outcome r.world.wording.crash r.world.files := by
  rw [outcome_eq, answered]

theorem exit_unlabelled (ready : r.Ready s catalog) (placed : ¬ r.MisplacedCursor)
    (silent : r.label = none) : r.outcome.exit = 0 := by
  have boundary := boundary_of_placed placed
  rw [position] at boundary
  rw [outcome_eq, answer_eq ready]
  simp only [completeAt, if_pos boundary, silent, Except.map, Completed.printed, Printed.outcome,
    Invocation.output_shown]

-- Only the table can be too wide.
theorem output_edit (r : Request) (s : Settings) (label : String) (edit : Edit) :
    (¬ r.TooWide edit → (r.invocation.shown (Report.editTable? (r.invocation.color s) edit)
      (Report.editJson label edit)).output = some (String.ofList (r.report s label edit))) ∧
    (r.TooWide edit → (r.invocation.shown (Report.editTable? (r.invocation.color s) edit)
      (Report.editJson label edit)).output = none) := by
  unfold TooWide report Invocation.shown
  rw [Report.editTable?_eq, Report.pretty_editJson]
  cases r.invocation.json with
  | true => simp
  | false =>
    cases r.invocation.quiet with
    | true => simp
    | false =>
      dsimp only
      constructor
      · intro narrow
        have fits : (Text.before edit.cursor edit.text.toList).length < 65535 := by
          simpa using narrow
        simp [fits]
      · rintro ⟨_, _, wide⟩
        simp [Nat.not_lt.mpr wide]

theorem shows_of_edits {label : String} {edit : Edit} (placed : ¬ r.MisplacedCursor)
    (asked : r.label = some label) (edits : r.Edits s label edit) : r.Shows s label edit := by
  obtain ⟨_, _, ⟨catalog, ready, _⟩, _⟩ := id edits
  have answered := answer_labelled ready placed asked
  rw [(takeUp_ok ready).mpr edits, Except.map] at answered
  have ended := outcome_of_ok answered
  obtain ⟨printed, crashed⟩ := r.output_edit s label edit
  constructor
  · intro narrow
    simp only [ended, Completed.printed, Printed.outcome, printed narrow, and_self]
  · intro wide
    simp only [ended, Completed.printed, Printed.outcome, crashed wide, crashExit, and_self]

theorem Unprintable.exit (unprintable : r.Unprintable) : r.outcome.exit = 101 := by
  obtain ⟨placed, s, label, edit, asked, edits, wide⟩ := unprintable
  exact ((shows_of_edits placed asked edits).crashed wide).1

theorem printed_of_edits {label : String} {edit : Edit} (printable : ¬ r.Unprintable)
    (placed : ¬ r.MisplacedCursor) (asked : r.label = some label) (edits : r.Edits s label edit) :
    r.outcome.exit = 0 ∧ r.outcome.stdout = String.ofList (r.report s label edit) := by
  apply (shows_of_edits placed asked edits).printed
  intro wide
  exact printable ⟨placed, s, label, edit, asked, edits, wide⟩

theorem stdout_of_failed (r : Request) (failed : r.outcome.exit ≠ 0) : r.outcome.stdout = "" := by
  rw [outcome_eq] at failed ⊢
  cases answered : r.answer with
  | error failure => rfl
  | ok printed =>
    rw [answered] at failed
    exact Printed.stdout_of_failed failed

theorem outcome_files (r : Request) : r.outcome.files = r.world.files := by
  rw [outcome_eq]
  cases r.answer with
  | error failure => rfl
  | ok printed => exact printed.files_outcome _ _

def faults (r : Request) : List (Nat × Prop) :=
  [(5, r.NoSettings), (3, r.UnreadableCatalog), (4, r.InvalidCatalog), (2, r.MisplacedCursor),
    (1, r.UnknownLabel)]

theorem decides_faults (printable : ¬ r.Unprintable) : Decides r.faults r.outcome.exit := by
  by_cases settings : r.NoSettings
  · obtain ⟨error, answered⟩ := answer_of_noSettings settings
    exact .inl ⟨settings, exit_of_error answered⟩
  refine .inr ⟨settings, ?_⟩
  by_cases unreadable : r.UnreadableCatalog
  · obtain ⟨fault, answered⟩ := answer_of_unreadableCatalog unreadable
    exact .inl ⟨unreadable, exit_of_error answered⟩
  refine .inr ⟨unreadable, ?_⟩
  by_cases invalid : r.InvalidCatalog
  · obtain ⟨error, answered⟩ := answer_of_invalidCatalog invalid
    exact .inl ⟨invalid, exit_of_error answered⟩
  refine .inr ⟨invalid, ?_⟩
  obtain ⟨s, catalog, ready⟩ := exists_ready settings unreadable invalid
  by_cases misplaced : r.MisplacedCursor
  · exact .inl ⟨misplaced, exit_of_error (answer_of_misplacedCursor ready misplaced)⟩
  refine .inr ⟨misplaced, ?_⟩
  by_cases unknown : r.UnknownLabel
  · obtain ⟨label, answered⟩ := answer_of_unknownLabel ready misplaced unknown
    exact .inl ⟨unknown, exit_of_error answered⟩
  refine .inr ⟨unknown, ?_⟩
  cases asked : r.label with
  | none => exact exit_unlabelled ready misplaced asked
  | some label =>
    obtain ⟨edit, edits⟩ := exists_edits ready unknown asked
    exact (printed_of_edits printable misplaced asked edits).1

theorem decides_iff (r : Request) : Decides r.faults r.outcome.exit ↔ ¬ r.Unprintable := by
  refine ⟨?_, decides_faults⟩
  intro decided unprintable
  rw [unprintable.exit] at decided
  exact absurd decided.code (by simp [faults])

-- How a request ends, prints and edits, whatever is wrong with it. The first fault decides, but for
-- an edit that cannot be shown.
theorem complete_first_fault (r : Request) :
    (Decides r.faults r.outcome.exit ↔ ¬ r.Unprintable) ∧
      (r.Unprintable → r.outcome.exit = 101) ∧
      (r.MisplacedCursor ↔ Text.clamp r.position r.expression.toList ≠ r.position) ∧
      (r.outcome.exit ≠ 0 → r.outcome.stdout = "") ∧ r.outcome.files = r.world.files ∧
      ∀ label, r.label = some label → r.outcome.exit = 0 → ∃ s edit, r.Edits s label edit ∧
        r.outcome.stdout = String.ofList (r.report s label edit) := by
  refine ⟨decides_iff r, Unprintable.exit, misplacedCursor_iff, stdout_of_failed r,
    outcome_files r, ?_⟩
  intro label asked succeeded
  have printable : ¬ r.Unprintable := by
    intro unprintable
    rw [unprintable.exit] at succeeded
    cases succeeded
  have decided := decides_faults printable
  rw [succeeded] at decided
  have clear := decided.none_of_zero (by simp [faults])
  simp only [faults, List.forall_mem_cons] at clear
  obtain ⟨settings, unreadable, invalid, misplaced, unknown, _⟩ := clear
  obtain ⟨s, catalog, ready⟩ := exists_ready settings unreadable invalid
  obtain ⟨edit, edits⟩ := exists_edits ready unknown asked
  exact ⟨s, edit, edits, (printed_of_edits printable misplaced asked edits).2⟩

-- A label on offer under the settings of a file, and one that is not, asked for at a place inside
-- a character: the place decides.
def keptWorld : World :=
  ⟨⟨some "c.toml", none, none, none, none⟩, none,
    ⟨["w"], [(["w", "c.toml"], .text "catalog = 'f.json'\n[completion]\nexplicit = true\n"),
      (["w", "f.json"],
        .text "[\x7b\"canonical_name\":\"score\",\"score_type\":\"numeric\"\x7d]")]⟩,
    .silent⟩

def acceptScore : Request :=
  ⟨keptWorld, ["complete", "名 sc", "--apply", "score"],
    ⟨false, false, false, false, none, .complete "名 sc" none false (some "score")⟩, "名 sc", none,
    false, some "score", rfl, rfl⟩

def acceptInside : Request :=
  ⟨keptWorld, ["complete", "名 sc", "--cursor", "1", "--apply", "none"],
    ⟨false, false, false, false, none, .complete "名 sc" (some 1) false (some "none")⟩, "名 sc",
    some 1, false, some "none", rfl, rfl⟩

theorem complete_first_fault_inside :
    (acceptScore.outcome.exit = 0 ∧ ∃ s edit, acceptScore.Edits s "score" edit ∧
      acceptScore.outcome.stdout = String.ofList (acceptScore.report s "score" edit)) ∧
    acceptInside.outcome.exit = 2 ∧ acceptInside.MisplacedCursor ∧
      acceptInside.outcome.stdout = "" := by
  have accepted : acceptScore.outcome.exit = 0 := by decide +kernel
  have inside : acceptInside.outcome.exit = 2 := by decide +kernel
  have moved : Text.clamp acceptInside.position acceptInside.expression.toList ≠
      acceptInside.position := by
    decide +kernel
  obtain ⟨_, _, _, _, _, edited⟩ := complete_first_fault acceptScore
  obtain ⟨_, _, placed, quiet, _⟩ := complete_first_fault acceptInside
  refine ⟨⟨accepted, edited "score" rfl accepted⟩, inside, placed.mpr moved, quiet ?_⟩
  rw [inside]
  decide

def acceptNot (expression : String) : Request :=
  ⟨⟨⟨some "c.toml", none, none, none, none⟩, none, ⟨["w"], []⟩, .silent⟩,
    ["complete", "--apply", "not", "--", expression],
    ⟨false, false, false, false, none, .complete expression none false (some "not")⟩,
    expression, none, false, some "not", rfl, rfl⟩

theorem acceptNot_ready (expression : String) : (acceptNot expression).Ready .default .empty :=
  ⟨⟨"c.toml", rfl, .absent rfl⟩, .unnamed rfl⟩

-- Behind blanks there is an offer that does not depend on their number.
theorem acceptNot_edits (n : Nat) :
    let r := acceptNot (String.ofList (List.replicate n ' '))
    ∃ o : Suggestion, o.call = false ∧
      r.Edits .default "not" (o.applyTo r.expression r.position r.position) := by
  intro r
  have spelled : r.expression.toList = List.replicate n ' ' := String.toList_ofList
  have settled : Piece.textOf (List.replicate n (.gap ' ')) = List.replicate n ' ' := by
    simpa [Piece.textOf] using (Divides.blanks n).text.symm
  have position : r.position = Text.byteLength r.expression.toList := rfl
  have before : Text.before r.position r.expression.toList = List.replicate n ' ' := by
    rw [position, Text.before_byteLength, spelled]
  have offered := (complete_behind false before (Divides.blanks n)).trans
    (offerBehind_beginning false (Context.behind_blanks .empty n))
  rw [settled, ← spelled, ← position] at offered
  have listed : ((Completion.assemble (Completion.beginnings .standard .empty)
      (Completion.generalSuggestions .standard .empty) ⟨false, false, true⟩).find?
        (·.label == "not")).any (fun o => o.call = false) = true := by decide +kernel
  obtain ⟨o, found, plain⟩ := (Option.any_eq_true ..).mp listed
  refine ⟨o, of_decide_eq_true plain, _, o, ⟨.empty, acceptNot_ready _, offered⟩, ?_, rfl⟩
  exact Offer.find?_eq_some.mp found

theorem acceptNot_placed (expression : String) : ¬ (acceptNot expression).MisplacedCursor := by
  rw [misplacedCursor_iff, Classical.not_not]
  show Text.clamp (Text.byteLength expression.toList) expression.toList = _
  rw [Text.clamp, Text.before_byteLength]
  rfl

theorem acceptNot_wide {n : Nat} (long : 65535 ≤ n) {o : Suggestion} (plain : o.call = false) :
    let r := acceptNot (String.ofList (List.replicate n ' '))
    r.TooWide (o.applyTo r.expression r.position r.position) := by
  intro r
  have before : Text.before (o.applyTo r.expression r.position r.position).cursor
      (o.applyTo r.expression r.position r.position).text.toList =
        List.replicate n ' ' ++ o.insert.toList := by
    have spelled : r.expression.toList = List.replicate n ' ' := String.toList_ofList
    rw [← spelled]
    exact o.before_applyTo_end plain r.expression
  refine ⟨rfl, rfl, ?_⟩
  rw [before, List.length_append, List.length_replicate]
  omega

theorem complete_first_fault_too_wide :
    let r := acceptNot (String.ofList (List.replicate 65535 ' '))
    (∃ s edit, r.Edits s "not" edit) ∧ ¬ r.MisplacedCursor ∧ r.outcome.exit = 101 ∧
      r.outcome.stdout = "" ∧ ¬ Decides r.faults r.outcome.exit := by
  intro r
  obtain ⟨o, plain, edits⟩ := acceptNot_edits 65535
  have placed : ¬ r.MisplacedCursor := acceptNot_placed _
  have wide := acceptNot_wide (Nat.le_refl 65535) plain
  have unprintable : r.Unprintable := ⟨placed, _, _, _, rfl, edits, wide⟩
  obtain ⟨exit, stdout⟩ := (shows_of_edits placed rfl edits).crashed wide
  exact ⟨⟨_, _, edits⟩, placed, exit, stdout, fun decided => r.decides_iff.mp decided unprintable⟩

end Request

end CommandLine

end ScoreFilter

import Mathlib.Data.List.Nodup
import ScoreFilter.Proofs.CommandLine.Faults
import ScoreFilter.Proofs.Documents
import ScoreFilter.Proofs.Request

namespace ScoreFilter

def Vocabulary.names (v : Vocabulary) : List String :=
  v.keywords.map (·.name) ++ v.mathFunctions.map (·.name) ++ v.sampleFunctions.map (·.name)

theorem Vocabulary.names_standard_nodup : Vocabulary.standard.names.Nodup := by decide

namespace Catalog

variable {catalog : Catalog}

def Covered (catalog : Catalog) (own : List String) : Prop :=
  ∀ f ∈ catalog.fields, f.name ∈ Vocabulary.standard.names → f.name ∈ own

instance (catalog : Catalog) (own : List String) : Decidable (catalog.Covered own) :=
  inferInstanceAs (Decidable (∀ f ∈ catalog.fields, _))

-- What the fields must not have in common, for all labels to differ in a context.
def TellsApart (catalog : Catalog) : Context → Prop
  | .startOfExpression =>
    ∀ f ∈ catalog.fields, f.name ∉ Vocabulary.standard.sampleFunctions.map (·.name)
  | .memberAccess scorer =>
    ∀ f ∈ catalog.fields, ∀ g ∈ catalog.fields, ∀ label,
      f.qualifiedName = some (scorer ++ "." ++ label) →
        g.qualifiedName = some (scorer ++ "." ++ label) → f = g
  | .mathArgument | .chainComparison => True
  | .afterField f => catalog.Covered (Completion.operatorsAfter f.scoreType)
  | .categoryValue f => (f.categories.getD []).Nodup ∧ catalog.Covered (f.categories.getD [])
  | .afterComparison => catalog.Covered Completion.connectors
  | .searchArgument | .afterGroup | .scalarValue _ | .unknown => catalog.Covered []

-- Fields that cannot be taken for anything else, wherever they are suggested.
structure Unambiguous (catalog : Catalog) : Prop where
  names : ∀ f ∈ catalog.fields, f.name ∉ Vocabulary.standard.names
  qualifiedNames : ∀ f ∈ catalog.fields, ∀ g ∈ catalog.fields, f.qualifiedName ≠ none →
    g.qualifiedName = f.qualifiedName → f = g
  categories : ∀ f ∈ catalog.fields, (f.categories.getD []).Nodup

theorem Unambiguous.covered (clear : catalog.Unambiguous) (own : List String) :
    catalog.Covered own := by
  intro f listed word
  exact absurd word (clear.names f listed)

theorem Unambiguous.tellsApart {tokens : List Token} {context : Context}
    (clear : catalog.Unambiguous) (told : context.Tells catalog tokens) :
    catalog.TellsApart context := by
  cases context with
  | startOfExpression =>
    intro f listed function
    exact clear.names f listed (List.mem_append_right _ function)
  | memberAccess scorer =>
    intro f listed g listed' label first second
    refine clear.qualifiedNames f listed g listed' ?_ (second.trans first.symm)
    simp [first]
  | mathArgument => trivial
  | chainComparison => trivial
  | afterField f => exact clear.covered _
  | categoryValue f =>
    obtain ⟨_, _, _, _, found, _⟩ := told
    exact ⟨clear.categories f (Lookback.fieldOf?_eq_some found).1, clear.covered _⟩
  | afterComparison => exact clear.covered _
  | searchArgument => exact clear.covered _
  | afterGroup => exact clear.covered _
  | scalarValue f => exact clear.covered _
  | unknown => exact clear.covered _

theorem membersOf_nodup (catalog : Catalog) (scorer : String) :
    (catalog.membersOf scorer).Nodup := by
  refine (catalog.distinct.of_map _).filterMap ?_
  intro f g row first second
  obtain ⟨_, _, rfl⟩ := Option.map_eq_some_iff.mp first
  obtain ⟨_, _, same⟩ := Option.map_eq_some_iff.mp second
  exact (congrArg Prod.snd same).symm

end Catalog

namespace Completion

variable {catalog : Catalog} {context : Context} {own : List String}

theorem general_nodup_iff :
    ((generalLabels .standard catalog).filter fun label => !own.contains label).Nodup ↔
      catalog.Covered own := by
  have words := Vocabulary.names_standard_nodup.filter fun label => !own.contains label
  have fields := catalog.distinct.filter fun label => !own.contains label
  have divided : generalLabels .standard catalog =
      Vocabulary.standard.names ++ catalog.fields.map (·.name) := rfl
  rw [divided, List.filter_append, List.nodup_append, and_iff_right words, and_iff_right fields]
  constructor
  · intro apart f listed word
    by_contra uncovered
    have open_label : (!own.contains f.name) = true := by simpa using uncovered
    exact apart f.name (List.mem_filter.mpr ⟨word, open_label⟩) f.name
      (List.mem_filter.mpr ⟨List.mem_map_of_mem listed, open_label⟩) rfl
  · rintro covered label word other field rfl
    obtain ⟨word, open_label⟩ := List.mem_filter.mp word
    obtain ⟨f, listed, rfl⟩ := List.mem_map.mp (List.mem_filter.mp field).1
    have inside := covered f listed word
    simp [inside] at open_label

theorem labels_nodup_iff (own : List Suggestion) {layout : Layout}
    (everything : layout.general = true) :
    ((assemble own (generalSuggestions .standard catalog) layout).map (·.label)).Nodup ↔
      (own.map (·.label)).Nodup ∧ catalog.Covered (own.map (·.label)) := by
  rw [map_label_assemble everything, map_label_generalSuggestions, List.nodup_append,
    general_nodup_iff]
  constructor
  · rintro ⟨distinct, covered, _⟩
    exact ⟨distinct, covered⟩
  · rintro ⟨distinct, covered⟩
    refine ⟨distinct, covered, ?_⟩
    rintro label listed other below rfl
    have outside := (List.mem_filter.mp below).2
    simp [List.mem_map.mp listed] at outside

theorem members_nodup_iff (scorer : String) :
    ((members catalog scorer).map (·.label)).Nodup ↔
      catalog.TellsApart (.memberAccess scorer) := by
  have labels : (members catalog scorer).map (·.label) =
      (catalog.membersOf scorer).map (·.1) := by
    rw [members, List.map_map]
    apply List.map_congr_left
    intro row _
    exact Suggestion.label_spacedFor ..
  rw [labels, List.nodup_map_iff_inj_on (catalog.membersOf_nodup scorer)]
  constructor
  · intro apart f listed g listed' label first second
    have same := apart (label, f) (Catalog.mem_membersOf.mpr ⟨listed, first⟩) (label, g)
      (Catalog.mem_membersOf.mpr ⟨listed', second⟩) rfl
    exact congrArg Prod.snd same
  · rintro apart ⟨label, f⟩ row ⟨other, g⟩ row' same
    dsimp only at same
    subst same
    obtain ⟨listed, first⟩ := Catalog.mem_membersOf.mp row
    obtain ⟨listed', second⟩ := Catalog.mem_membersOf.mp row'
    rw [apart f listed g listed' label first second]

theorem covered_fields (catalog : Catalog) (own : List String) :
    catalog.Covered (catalog.fields.map (·.name) ++ own) := by
  intro f listed _
  exact List.mem_append_left _ (List.mem_map_of_mem listed)

theorem fields_nodup (catalog : Catalog) {layout : Layout} (everything : layout.general = true) :
    ((assemble (catalog.fields.map .ofField) (generalSuggestions .standard catalog) layout).map
      (·.label)).Nodup := by
  have labels : (catalog.fields.map Suggestion.ofField).map (·.label) =
      catalog.fields.map (·.name) := List.map_map ..
  have covered := covered_fields catalog []
  rw [List.append_nil] at covered
  rw [labels_nodup_iff _ everything, labels]
  exact ⟨catalog.distinct, covered⟩

theorem beginnings_nodup_iff {layout : Layout} (everything : layout.general = true) :
    ((assemble (beginnings .standard catalog) (generalSuggestions .standard catalog) layout).map
      (·.label)).Nodup ↔ catalog.TellsApart .startOfExpression := by
  have labels : (beginnings .standard catalog).map (·.label) =
      catalog.fields.map (·.name) ++ Vocabulary.standard.sampleFunctions.map (·.name) := by
    simp only [beginnings, List.map_append, List.map_map]
    congr 1
    apply List.map_congr_left
    intro f _
    exact Suggestion.label_spacedFor ..
  have functions : (Vocabulary.standard.sampleFunctions.map (·.name)).Nodup := by decide
  rw [labels_nodup_iff _ everything, labels, and_iff_left (covered_fields catalog _),
    List.nodup_append, and_iff_right catalog.distinct, and_iff_right functions]
  constructor
  · intro apart f listed function
    exact apart f.name (List.mem_map_of_mem listed) f.name function rfl
  · rintro apart name field other function rfl
    obtain ⟨f, listed, rfl⟩ := List.mem_map.mp field
    exact apart f listed function

theorem silent_nodup_iff (silent : context.guesses = false) :
    ((listOf .standard catalog context).map (·.label)).Nodup ↔ catalog.Covered [] := by
  rw [listOf_silent silent, map_label_generalSuggestions, ← general_nodup_iff]
  simp

theorem listOf_nodup_iff (catalog : Catalog) (context : Context) :
    ((listOf .standard catalog context).map (·.label)).Nodup ↔ catalog.TellsApart context := by
  cases context with
  | startOfExpression => exact beginnings_nodup_iff rfl
  | memberAccess scorer =>
    rw [listOf_memberAccess]
    exact members_nodup_iff scorer
  | mathArgument => exact iff_of_true (fields_nodup catalog rfl) trivial
  | chainComparison => exact iff_of_true (fields_nodup catalog rfl) trivial
  | afterField f =>
    have operators : (operatorsAfter f.scoreType).Nodup := by cases f.scoreType <;> decide
    have labels : (ownOf .standard catalog (.afterField f)).map (·.label) =
        operatorsAfter f.scoreType := map_label_operators f.scoreType
    rw [listOf, labels_nodup_iff _ rfl, labels, and_iff_right operators]
    rfl
  | categoryValue f =>
    have labels : (ownOf .standard catalog (.categoryValue f)).map (·.label) =
        f.categories.getD [] := by
      rw [← f.getD_categories?]
      exact (List.map_map ..).trans (List.map_id _)
    rw [listOf, labels_nodup_iff _ rfl, labels]
    rfl
  | afterComparison =>
    have labels : (ownOf .standard catalog .afterComparison).map (·.label) = connectors :=
      map_label_operators .boolean
    rw [listOf, labels_nodup_iff _ rfl, labels, and_iff_right (by decide : connectors.Nodup)]
    rfl
  | searchArgument => exact silent_nodup_iff rfl
  | afterGroup => exact silent_nodup_iff rfl
  | scalarValue f => exact silent_nodup_iff rfl
  | unknown => exact silent_nodup_iff rfl

end Completion

theorem complete_labels_nodup_iff {catalog : Catalog} {explicit : Bool} {input : String}
    {cursor : Nat} {offer : Offer}
    (found : complete .standard catalog explicit input cursor = some offer) :
    (offer.suggestions.map (·.label)).Nodup ↔
      catalog.TellsApart (.at .standard catalog input cursor) := by
  rw [Completion.suggestions?_eq_some (complete_eq_some found)]
  exact Completion.listOf_nodup_iff catalog _

theorem Offer.find?_label {offer : Offer} {o : Suggestion}
    (apart : (offer.suggestions.map (·.label)).Nodup) (listed : o ∈ offer.suggestions) :
    offer.find? o.label = some o :=
  find?_of_nodup apart listed

theorem CommandLine.Request.shows_of_found {r : Request} {s : Settings} {offer : Offer}
    {label : String} {o : Suggestion} (offered : r.Offers s offer) (placed : ¬ r.MisplacedCursor)
    (asked : r.label = some label) (found : offer.find? label = some o) :
    r.Shows s label (o.applyTo r.expression offer.start r.position) :=
  shows_of_edits placed asked ⟨offer, o, offered, Offer.find?_eq_some.mp found, rfl⟩

-- All labels of an offer differ exactly if the fields do in what counts in its context. Then each
-- suggestion is found by its label, also by a command.
theorem complete_labels (catalog : Catalog) (explicit : Bool) (input : String) (cursor : Nat)
    (offer : Offer) (found : complete .standard catalog explicit input cursor = some offer) :
    ((offer.suggestions.map (·.label)).Nodup ↔
      catalog.TellsApart (.at .standard catalog input cursor)) ∧
    (catalog.Unambiguous → catalog.TellsApart (.at .standard catalog input cursor)) ∧
    (catalog.TellsApart (.at .standard catalog input cursor) → ∀ o ∈ offer.suggestions,
      offer.find? o.label = some o ∧
      ∀ (r : CommandLine.Request) (s : Settings), r.Offers s offer → ¬ r.MisplacedCursor →
        r.label = some o.label →
          r.Shows s o.label (o.applyTo r.expression offer.start r.position)) := by
  have distinct := complete_labels_nodup_iff found
  refine ⟨distinct, fun clear => clear.tellsApart (Context.ofLookback_tells catalog _), ?_⟩
  intro apart o listed
  have own := Offer.find?_label (distinct.mpr apart) listed
  refine ⟨own, ?_⟩
  intro r s offered placed asked
  exact CommandLine.Request.shows_of_found offered placed asked own

-- A field is named like a word, and so is the value that is suggested in the place of both.
def wordyField : Field :=
  ⟨"verdict", none, .categorical, some ["\"A\"", "or"], none⟩

def wordyCatalog : Catalog :=
  ⟨[⟨"or", none, .numeric, none, none⟩, wordyField], by decide, by decide⟩

def acceptValue : CommandLine.Request :=
  ⟨⟨⟨some "c.toml", none, none, none, none⟩, none,
      ⟨["w"], [(["w", "f.json"], .text wordyCatalog.toDocument)]⟩, .silent⟩,
    ["--catalog", "f.json", "complete", "verdict == o", "--apply", "or"],
    ⟨false, false, false, false, some "f.json", .complete "verdict == o" none false (some "or")⟩,
    "verdict == o", none, false, some "or", rfl, rfl⟩

def valueSuggestion : Suggestion :=
  ⟨"or", .value, none, 1, "or ", false, .suggested⟩

def plainCatalog : Catalog :=
  ⟨[⟨"a", some "judge.tone", .numeric, none, none⟩,
    ⟨"b", some "judge_b.tone", .numeric, none, none⟩, wordyField], by decide, by decide⟩

theorem acceptValue_offers {offer : Offer}
    (found : complete .standard wordyCatalog false "verdict == o" 12 = some offer) :
    acceptValue.Offers .default offer := by
  have settled : acceptValue.HasSettings .default := ⟨"c.toml", rfl, .absent rfl⟩
  have read : Catalog.ofDocument wordyCatalog.toDocument = .ok wordyCatalog :=
    wordyCatalog.ofDocument_spelled (Json.spells_printed (List.mem_cons_self ..))
  exact ⟨wordyCatalog, ⟨settled, .named rfl rfl read⟩, found⟩

theorem complete_labels_named_alike :
    (Context.at .standard wordyCatalog "verdict == o" 12 = .categoryValue wordyField ∧
      ∃ offer, complete .standard wordyCatalog false "verdict == o" 12 = some offer ∧
        (offer.suggestions.map (·.label)).Nodup ∧ offer.find? "or" = some valueSuggestion ∧
        acceptValue.outcome.exit = 0 ∧
        acceptValue.outcome.stdout = "verdict == or \n\x1b[32m              ^\x1b[39m\n") ∧
    plainCatalog.Unambiguous ∧
      ∃ offer, complete .standard plainCatalog false "judge." 6 = some offer ∧
        plainCatalog.TellsApart (.at .standard plainCatalog "judge." 6) := by
  have context : Context.at .standard wordyCatalog "verdict == o" 12 =
      .categoryValue wordyField := by decide +kernel
  have apart : wordyCatalog.TellsApart (.at .standard wordyCatalog "verdict == o" 12) := by
    rw [context]
    exact ⟨by decide, by decide⟩
  have some_offer : (complete .standard wordyCatalog false "verdict == o" 12).any
      (fun offer => offer.start = 11 ∧ valueSuggestion ∈ offer.suggestions) = true := by
    decide +kernel
  have placed : ¬ acceptValue.MisplacedCursor := by
    rw [CommandLine.Request.misplacedCursor_iff]
    decide +kernel
  have edit : valueSuggestion.applyTo "verdict == o" 11 12 = ⟨"verdict == or ", 14⟩ := by
    decide +kernel
  have narrow : ¬ acceptValue.TooWide ⟨"verdict == or ", 14⟩ :=
    fun wide => absurd wide.2.2 (by decide +kernel)
  have text : String.ofList (acceptValue.report .default "or" ⟨"verdict == or ", 14⟩) =
      "verdict == or \n\x1b[32m              ^\x1b[39m\n" := by decide +kernel
  have clear : plainCatalog.Unambiguous := ⟨by decide, by decide, by decide⟩
  have some_member : (complete .standard plainCatalog false "judge." 6).isSome = true := by
    decide +kernel
  refine ⟨⟨context, ?_⟩, clear, ?_⟩
  · obtain ⟨offer, found, holds⟩ := (Option.any_eq_true ..).mp some_offer
    obtain ⟨start, listed⟩ := of_decide_eq_true holds
    obtain ⟨distinct, _, reached⟩ :=
      complete_labels wordyCatalog false "verdict == o" 12 offer found
    obtain ⟨own, accepted⟩ := reached apart valueSuggestion listed
    have shows := accepted acceptValue .default (acceptValue_offers found) placed rfl
    have spelled : acceptValue.expression = "verdict == o" := rfl
    have position : acceptValue.position = 12 := rfl
    rw [start, spelled, position, edit] at shows
    obtain ⟨ended, shown⟩ := shows.printed narrow
    exact ⟨offer, found, distinct.mpr apart, own, ended, shown.trans text⟩
  · obtain ⟨offer, found⟩ := Option.isSome_iff_exists.mp some_member
    obtain ⟨_, told, _⟩ := complete_labels plainCatalog false "judge." 6 offer found
    exact ⟨offer, found, told clear⟩

-- Two fields with one qualified name. The first is boolean, so only the second gets a blank.
def toneCatalog : Catalog :=
  ⟨[⟨"a", some "judge.tone", .boolean, none, none⟩,
    ⟨"b", some "judge.tone", .numeric, none, none⟩], by decide, by decide⟩

def toneSuggestion (insert : String) : Suggestion :=
  ⟨"tone", .member, none, 0, insert, false, .suggested⟩

theorem complete_labels_repeated :
    ∃ offer, Catalog.ofFields toneCatalog.fields = .ok toneCatalog ∧
      complete .standard toneCatalog false "judge." 6 = some offer ∧
      offer.suggestions = [toneSuggestion "tone", toneSuggestion "tone "] ∧
      ¬ (offer.suggestions.map (·.label)).Nodup ∧
      ∃ o ∈ offer.suggestions, offer.find? o.label ≠ some o := by
  have found : complete .standard toneCatalog false "judge." 6 =
      some ⟨6, [toneSuggestion "tone", toneSuggestion "tone "]⟩ := by
    decide +kernel
  refine ⟨_, Catalog.ofFields_eq_ok.mpr rfl, found, rfl, by decide, ?_⟩
  exact ⟨toneSuggestion "tone ", by decide, by decide⟩

end ScoreFilter

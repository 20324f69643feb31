import Mathlib.Algebra.Group.Nat.Defs
import ScoreFilter.Proofs.Cursor.Cascade

namespace ScoreFilter

def Context.inComparison : Context → Bool
  | .afterField _ | .categoryValue _ | .afterComparison => true
  | _ => false

namespace Completion

variable {v : Vocabulary} {catalog : Catalog} {context : Context} {explicit : Bool}
  {own general list : List Suggestion} {layout : Layout} {s : Suggestion}

def ownOf (v : Vocabulary) (catalog : Catalog) (context : Context) : List Suggestion :=
  ((own? v catalog context).map (·.1)).getD []

def layoutOf (v : Vocabulary) (catalog : Catalog) (context : Context) : Layout :=
  ((own? v catalog context).map (·.2)).getD ⟨false, false, true⟩

def generalLabels (v : Vocabulary) (catalog : Catalog) : List String :=
  v.keywords.map (·.name) ++ v.mathFunctions.map (·.name) ++ v.sampleFunctions.map (·.name) ++
    catalog.fields.map (·.name)

-- How the suggestions for a context stand to each other and to the general ones.
structure Ranks (v : Vocabulary) (catalog : Catalog) (context : Context)
    (list : List Suggestion) : Prop where
  ownFirst : list.Pairwise fun one two => one.part = .more → two.part = .more
  unrepeated : ∀ one ∈ list, ∀ two ∈ list, one.part = .suggested → two.part = .more →
    two.label ≠ one.label
  below : ∀ one ∈ list, ∀ two ∈ list, one.part = .suggested → two.part = .more →
    two.boost < one.boost
  falling : context.inComparison = true → ownOf v catalog context ≠ [] →
    (list.filter (·.part == .suggested)).Pairwise fun one two => two.boost < one.boost
  counted : (∀ scorer, context ≠ .memberAccess scorer) → ∀ label,
    (list.map (·.label)).count label =
      if 0 < ((ownOf v catalog context).map (·.label)).count label then
        ((ownOf v catalog context).map (·.label)).count label
      else (generalLabels v catalog).count label
  closed : ∀ scorer, context = .memberAccess scorer → list = members catalog scorer

theorem suggestions?_eq_some (found : suggestions? v catalog explicit context = some list) :
    list = assemble (ownOf v catalog context) (generalSuggestions v catalog)
      (layoutOf v catalog context) := by
  unfold suggestions? at found
  split at found
  · rename_i own layout decided
    cases found
    simp [ownOf, layoutOf, decided]
  · rename_i undecided
    split at found
    · cases found
      simp [ownOf, layoutOf, undecided]
    · cases found

theorem layoutOf_ordered (v : Vocabulary) (catalog : Catalog) (context : Context) :
    (layoutOf v catalog context).ordered = context.inComparison := by
  cases context <;> rfl

theorem layoutOf_general (other : ∀ scorer, context ≠ .memberAccess scorer) :
    (layoutOf v catalog context).general = true := by
  cases context with
  | memberAccess scorer => exact absurd rfl (other scorer)
  | _ => rfl

def Fresh (s : Suggestion) : Prop :=
  s.boost = 0 ∧ s.part = .suggested

theorem fresh_spaced (fresh : Fresh s) : Fresh s.spaced := by
  unfold Suggestion.spaced
  split
  · exact fresh
  · exact fresh

theorem fresh_spacedFor (fresh : Fresh s) (f : Field) : Fresh (s.spacedFor f) := by
  unfold Suggestion.spacedFor
  split
  · exact fresh
  · exact fresh_spaced fresh

theorem fresh_generalSuggestions (member : s ∈ generalSuggestions v catalog) : Fresh s := by
  simp only [generalSuggestions, List.mem_append, List.mem_map] at member
  rcases member with ((⟨k, _, rfl⟩ | ⟨f, _, rfl⟩) | ⟨f, _, rfl⟩) | ⟨f, _, rfl⟩ <;> exact ⟨rfl, rfl⟩

theorem fresh_members {scorer : String} (member : s ∈ members catalog scorer) : Fresh s := by
  obtain ⟨⟨label, f⟩, _, rfl⟩ := List.mem_map.mp member
  exact fresh_spacedFor ⟨rfl, rfl⟩ f

theorem mem_ownOf (member : s ∈ ownOf v catalog context) :
    (∃ f ∈ v.sampleFunctions, s = .ofSampleFunction f) ∨
      ∃ label kind info, s = .verbatim label kind info ∨
        ∃ f, s = (Suggestion.verbatim label kind info).spacedFor f := by
  cases context with
  | startOfExpression =>
    rcases List.mem_append.mp member with field | function
    · obtain ⟨f, _, rfl⟩ := List.mem_map.mp field
      exact .inr ⟨_, _, _, .inr ⟨f, rfl⟩⟩
    · obtain ⟨f, listed, rfl⟩ := List.mem_map.mp function
      exact .inl ⟨f, listed, rfl⟩
  | memberAccess scorer =>
    obtain ⟨⟨label, f⟩, _, rfl⟩ := List.mem_map.mp member
    exact .inr ⟨_, _, _, .inr ⟨f, rfl⟩⟩
  | mathArgument =>
    obtain ⟨f, _, rfl⟩ := List.mem_map.mp member
    exact .inr ⟨_, _, _, .inl rfl⟩
  | chainComparison =>
    obtain ⟨f, _, rfl⟩ := List.mem_map.mp member
    exact .inr ⟨_, _, _, .inl rfl⟩
  | categoryValue f =>
    obtain ⟨c, _, rfl⟩ := List.mem_map.mp member
    exact .inr ⟨_, _, _, .inl rfl⟩
  | afterField f =>
    obtain ⟨name, _, found⟩ := List.mem_filterMap.mp member
    obtain ⟨kind, info, same, _⟩ := operator?_eq_some found
    exact .inr ⟨_, _, _, .inl same⟩
  | afterComparison =>
    obtain ⟨name, _, found⟩ := List.mem_filterMap.mp member
    obtain ⟨kind, info, same, _⟩ := operator?_eq_some found
    exact .inr ⟨_, _, _, .inl same⟩
  | searchArgument => cases member
  | afterGroup => cases member
  | scalarValue f => cases member
  | unknown => cases member

theorem fresh_ownOf (member : s ∈ ownOf v catalog context) : Fresh s := by
  rcases mem_ownOf member with ⟨f, _, rfl⟩ | ⟨label, kind, info, rfl | ⟨f, rfl⟩⟩
  · exact ⟨rfl, rfl⟩
  · exact ⟨rfl, rfl⟩
  · exact fresh_spacedFor ⟨rfl, rfl⟩ f

theorem length_ownOf_lt {tokens : List Token} (told : context.Tells catalog tokens)
    (short : ∀ f ∈ catalog.fields, (f.categories.getD []).length < 2 ^ 31)
    (ordered : context.inComparison = true) : (ownOf v catalog context).length < 2 ^ 31 := by
  cases context with
  | afterField f =>
    have few : (operatorsAfter f.scoreType).length ≤ 7 := by cases f.scoreType <;> decide
    have fewer : (ownOf v catalog (.afterField f)).length ≤ (operatorsAfter f.scoreType).length :=
      List.length_filterMap_le ..
    omega
  | afterComparison =>
    have fewer : (ownOf v catalog .afterComparison).length ≤ connectors.length :=
      List.length_filterMap_le ..
    have few : connectors.length = 2 := rfl
    omega
  | categoryValue f =>
    obtain ⟨_, _, _, _, found, _⟩ := told
    have length : (ownOf v catalog (.categoryValue f)).length = (f.categories?.getD []).length :=
      List.length_map ..
    rw [length, f.getD_categories?]
    exact short f (Lookback.fieldOf?_eq_some found).1
  | _ => cases ordered

theorem boost_promote (remaining : Nat) (ordered : layout.ordered = true)
    (short : remaining < 2 ^ 31) (s : Suggestion) :
    (promote layout remaining s).boost = remaining := by
  simp only [promote, ordered, if_true]
  exact Int32.toInt_ofNat_of_lt short

theorem demotedBoost_lt (fresh : ∀ s ∈ own, Fresh s)
    (short : layout.ordered = true → own.length < 2 ^ 31) (member : s ∈ promoteAll layout own) :
    demotedBoost < s.boost := by
  obtain ⟨o, inside, remaining, positive, bounded, rfl⟩ := mem_promoteAll member
  cases ordered : layout.ordered with
  | true =>
    have limit := short ordered
    rw [boost_promote remaining ordered (by omega), demotedBoost]
    omega
  | false =>
    have level : (promote layout remaining o).boost = 0 := by
      simpa [promote, ordered] using (fresh o inside).1
    rw [level]
    decide

theorem promoteAll_falling (ordered : layout.ordered = true) (short : own.length < 2 ^ 31) :
    (promoteAll layout own).Pairwise fun one two => two.boost < one.boost := by
  induction own with
  | nil => exact .nil
  | cons s own ih =>
    rw [List.length_cons] at short
    refine List.pairwise_cons.mpr ⟨?_, ih (by omega)⟩
    intro two later
    obtain ⟨o, _, remaining, _, bounded, rfl⟩ := mem_promoteAll later
    rw [boost_promote remaining ordered (by omega), boost_promote _ ordered short]
    omega

theorem promoteAll_eq_self (ordered : layout.ordered = false) (spaced : layout.spaced = false)
    (fresh : ∀ s ∈ own, Fresh s) : promoteAll layout own = own := by
  induction own with
  | nil => rfl
  | cons s own ih =>
    have part := (fresh s (List.mem_cons_self ..)).2
    rw [promoteAll, ih fun o member => fresh o (List.mem_cons_of_mem s member)]
    cases s
    simp_all [promote, decorate]

theorem assemble_members (catalog : Catalog) (scorer : String) (general : List Suggestion) :
    assemble (members catalog scorer) general ⟨false, false, false⟩ = members catalog scorer := by
  rw [assemble, promoteAll_eq_self rfl rfl fun _ => fresh_members]
  exact List.append_nil _

theorem part_decorate (layout : Layout) (fresh : Fresh s) :
    (decorate layout s).part = .suggested := by
  unfold decorate
  split
  · exact (fresh_spaced fresh).2
  · exact fresh.2

-- What is marked as more stands below suggestions that the context has of its own.
theorem more_of_mem_assemble (fresh : ∀ s ∈ general, Fresh s)
    (member : s ∈ assemble own general layout) (more : s.part = .more) :
    own ≠ [] ∧ s.label ∉ own.map (·.label) ∧ s.boost = demotedBoost := by
  rcases mem_assemble member with first | ⟨g, listed, other, same⟩
  · rw [part_promoteAll first] at more
    cases more
  · cases empty : own.isEmpty with
    | true =>
      simp only [empty, if_true] at same
      rw [same, part_decorate layout (fresh g listed)] at more
      cases more
    | false =>
      simp only [empty] at same
      subst same
      exact ⟨List.isEmpty_eq_false_iff.mp empty, by simpa using other, rfl⟩

theorem assemble_pairwise (fresh : ∀ s ∈ general, Fresh s) :
    (assemble own general layout).Pairwise fun one two => one.part = .more → two.part = .more := by
  refine List.pairwise_append.mpr ⟨?_, ?_, ?_⟩
  · refine List.pairwise_of_forall_mem_list ?_
    intro one first two _ more
    rw [part_promoteAll first] at more
    cases more
  · split
    · refine List.pairwise_of_forall_mem_list ?_
      intro one inside two inside' more
      have whole : one ∈ assemble own general layout := by
        rw [assemble]
        exact List.mem_append_right _ (by simpa [*] using inside)
      have some_own := (more_of_mem_assemble fresh whole more).1
      have empty : own.isEmpty = false := List.isEmpty_eq_false_iff.mpr some_own
      simp only [empty] at inside'
      obtain ⟨g, _, rfl⟩ := List.mem_map.mp inside'
      rfl
    · exact .nil
  · intro one first two _ more
    rw [part_promoteAll first] at more
    cases more

theorem map_label_assemble (everything : layout.general = true) :
    (assemble own general layout).map (·.label) =
      own.map (·.label) ++
        (general.map (·.label)).filter fun label => !(own.map (·.label)).contains label := by
  have lowered : ∀ others : List Suggestion,
      (others.map (if own.isEmpty then decorate layout else demote layout)).map (·.label) =
        others.map (·.label) := by
    intro others
    rw [List.map_map]
    apply List.map_congr_left
    intro s _
    split <;> simp
  rw [assemble, List.map_append, map_label_promoteAll]
  simp only [everything, if_true]
  rw [lowered, List.filter_map]
  rfl

theorem count_label_assemble (everything : layout.general = true) (label : String) :
    ((assemble own general layout).map (·.label)).count label =
      if 0 < (own.map (·.label)).count label then (own.map (·.label)).count label
      else (general.map (·.label)).count label := by
  rw [map_label_assemble everything, List.count_append]
  split
  · rename_i offered
    have listed := List.count_pos_iff.mp offered
    have absent : label ∉ (general.map (·.label)).filter
        fun label => !(own.map (·.label)).contains label := by
      intro member
      have fresh := (List.mem_filter.mp member).2
      simp only [Bool.not_eq_true', List.contains_eq_mem, decide_eq_false_iff_not] at fresh
      exact fresh listed
    rw [List.count_eq_zero.mpr absent, Nat.add_zero]
  · rename_i unoffered
    have absent : label ∉ own.map (·.label) := fun listed =>
      unoffered (List.count_pos_iff.mpr listed)
    rw [List.count_eq_zero.mpr absent, Nat.zero_add, List.count_filter]
    simpa using absent

theorem map_label_generalSuggestions :
    (generalSuggestions v catalog).map (·.label) = generalLabels v catalog := by
  simp only [generalSuggestions, generalLabels, List.map_append, List.map_map]
  rfl

-- The parts of a list of suggestions come from one assembly, whatever the context is.
theorem assemble_ranks {tokens : List Token} (told : context.Tells catalog tokens)
    (short : ∀ f ∈ catalog.fields, (f.categories.getD []).length < 2 ^ 31) :
    Ranks v catalog context (assemble (ownOf v catalog context) (generalSuggestions v catalog)
      (layoutOf v catalog context)) := by
  have general : ∀ s ∈ generalSuggestions v catalog, Fresh s := fun _ => fresh_generalSuggestions
  have own : ∀ s ∈ ownOf v catalog context, Fresh s := fun _ => fresh_ownOf
  have limit : (layoutOf v catalog context).ordered = true →
      (ownOf v catalog context).length < 2 ^ 31 := by
    rw [layoutOf_ordered]
    exact length_ownOf_lt told short
  constructor
  case ownFirst => exact assemble_pairwise general
  case unrepeated =>
    intro one member two member' suggested more same
    obtain ⟨some_own, other, _⟩ := more_of_mem_assemble general member' more
    have first := mem_promoteAll_of_suggested some_own member suggested
    rw [← map_label_promoteAll (layoutOf v catalog context), same] at other
    exact other (List.mem_map_of_mem first)
  case below =>
    intro one member two member' suggested more
    obtain ⟨some_own, _, boost⟩ := more_of_mem_assemble general member' more
    rw [boost]
    exact demotedBoost_lt own limit (mem_promoteAll_of_suggested some_own member suggested)
  case falling =>
    intro compared some_own
    rw [filter_assemble _ _ some_own]
    rw [← layoutOf_ordered v catalog] at compared
    exact promoteAll_falling compared (limit compared)
  case counted =>
    intro other label
    rw [count_label_assemble (layoutOf_general other), map_label_generalSuggestions]
  case closed =>
    intro scorer same
    subst same
    exact assemble_members catalog scorer _

end Completion

theorem complete_eq_some {v : Vocabulary} {catalog : Catalog} {explicit : Bool} {input : String}
    {cursor : Nat} {offer : Offer} (found : complete v catalog explicit input cursor = some offer) :
    Completion.suggestions? v catalog explicit (.at v catalog input cursor) =
      some offer.suggestions := by
  unfold complete at found
  dsimp only at found
  split at found
  · cases found
  · rename_i suggestions decided
    split at found
    · cases found
    · cases found
      exact decided

-- Every offer is ranked, in every context and under every vocabulary.
theorem complete_ranked (v : Vocabulary) (catalog : Catalog) (explicit : Bool) (input : String)
    (cursor : Nat) (offer : Offer)
    (short : ∀ f ∈ catalog.fields, (f.categories.getD []).length < 2 ^ 31)
    (found : complete v catalog explicit input cursor = some offer) :
    Completion.Ranks v catalog (.at v catalog input cursor) offer.suggestions := by
  rw [Completion.suggestions?_eq_some (complete_eq_some found)]
  exact Completion.assemble_ranks (Context.ofLookback_tells catalog _) short

def verdictField : Field :=
  ⟨"verdict", none, .categorical, some ["\"A\"", "or", "verdict", "or"], none⟩

def verdictCatalog : Catalog :=
  ⟨[verdictField], by decide, by decide⟩

theorem complete_ranked_overlapping :
    Context.at .standard verdictCatalog "verdict == o" 12 = .categoryValue verdictField ∧
      (∀ f ∈ verdictCatalog.fields, (f.categories.getD []).length < 2 ^ 31) ∧
      ∃ offer, complete .standard verdictCatalog false "verdict == o" 12 = some offer ∧
        Completion.Ranks .standard verdictCatalog
          (.at .standard verdictCatalog "verdict == o" 12) offer.suggestions := by
  have short : ∀ f ∈ verdictCatalog.fields, (f.categories.getD []).length < 2 ^ 31 := by decide
  have some_offer : (complete .standard verdictCatalog false "verdict == o" 12).isSome = true := by
    decide +kernel
  obtain ⟨offer, found⟩ := Option.isSome_iff_exists.mp some_offer
  exact ⟨by decide +kernel, short, offer, found, complete_ranked .standard verdictCatalog false
    "verdict == o" 12 offer short found⟩

end ScoreFilter

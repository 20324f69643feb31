import ScoreFilter.Proofs.Cursor.Member
import ScoreFilter.Proofs.Ranking

namespace ScoreFilter

variable {v : Vocabulary} {catalog : Catalog} {context : Context} {explicit : Bool}
  {input : String} {cursor : Nat}

-- Where a rule knows what comes next. Elsewhere an offer is made on request only.
def Context.guesses : Context → Bool
  | .searchArgument | .afterGroup | .scalarValue _ | .unknown => false
  | _ => true

def Catalog.HasMember (catalog : Catalog) (scorer : String) : Prop :=
  ∃ f ∈ catalog.fields, ∃ label, f.qualifiedName = some (scorer ++ "." ++ label)

theorem Catalog.membersOf_eq_nil_iff {scorer : String} :
    catalog.membersOf scorer = [] ↔ ¬ catalog.HasMember scorer := by
  rw [List.eq_nil_iff_forall_not_mem]
  constructor
  · rintro none ⟨f, listed, label, qualified⟩
    exact none (label, f) (mem_membersOf.mpr ⟨listed, qualified⟩)
  · rintro absent ⟨label, f⟩ row
    obtain ⟨listed, qualified⟩ := mem_membersOf.mp row
    exact absent ⟨f, listed, label, qualified⟩

namespace Completion

def listOf (v : Vocabulary) (catalog : Catalog) (context : Context) : List Suggestion :=
  assemble (ownOf v catalog context) (generalSuggestions v catalog) (layoutOf v catalog context)

theorem suggestions?_eq_ite (v : Vocabulary) (catalog : Catalog) (explicit : Bool)
    (context : Context) :
    suggestions? v catalog explicit context =
      if context.guesses || explicit then some (listOf v catalog context) else none := by
  cases context <;> cases explicit <;> rfl

theorem assemble_nil {layout : Layout} (everything : layout.general = true)
    (general : List Suggestion) : assemble [] general layout = general.map (decorate layout) := by
  have unfiltered : (general.filter fun s => !([].map Suggestion.label).contains s.label) =
      general := List.filter_eq_self.mpr fun _ _ => rfl
  simp only [assemble, promoteAll, everything, unfiltered, List.isEmpty_nil, if_true,
    List.nil_append]

theorem listOf_silent (silent : context.guesses = false) :
    listOf v catalog context = generalSuggestions v catalog := by
  have bare : assemble [] (generalSuggestions v catalog) ⟨false, false, true⟩ =
      generalSuggestions v catalog := by
    rw [assemble_nil rfl]
    exact List.map_id _
  cases context with
  | searchArgument => exact bare
  | afterGroup => exact bare
  | scalarValue f => exact bare
  | unknown => exact bare
  | _ => cases silent

theorem listOf_memberAccess (v : Vocabulary) (catalog : Catalog) (scorer : String) :
    listOf v catalog (.memberAccess scorer) = members catalog scorer :=
  assemble_members catalog scorer _

theorem assemble_ne_nil_of_general {own general : List Suggestion} {layout : Layout}
    (everything : layout.general = true) (words : general ≠ []) :
    assemble own general layout ≠ [] := by
  by_cases some_own : own = []
  · subst some_own
    rw [assemble_nil everything]
    exact mt List.map_eq_nil_iff.mp words
  · exact assemble_ne_nil some_own general layout

theorem listOf_eq_nil_iff (words : generalSuggestions v catalog ≠ []) :
    listOf v catalog context = [] ↔
      ∃ scorer, context = .memberAccess scorer ∧ ¬ catalog.HasMember scorer := by
  constructor
  · intro empty
    by_cases behind : ∃ scorer, context = .memberAccess scorer
    · obtain ⟨scorer, rfl⟩ := behind
      rw [listOf_memberAccess] at empty
      exact ⟨scorer, rfl, Catalog.membersOf_eq_nil_iff.mp (List.map_eq_nil_iff.mp empty)⟩
    · have everything : (layoutOf v catalog context).general = true :=
        layoutOf_general fun scorer same => behind ⟨scorer, same⟩
      exact absurd empty (assemble_ne_nil_of_general everything words)
  · rintro ⟨scorer, rfl, absent⟩
    rw [listOf_memberAccess]
    exact List.map_eq_nil_iff.mpr (Catalog.membersOf_eq_nil_iff.mpr absent)

theorem generalSuggestions_standard_ne_nil (catalog : Catalog) :
    generalSuggestions .standard catalog ≠ [] := by
  simp [generalSuggestions, Vocabulary.standard]

end Completion

-- What an offer holds does not depend on the request, only whether it is made.
theorem complete_eq_ite (v : Vocabulary) (catalog : Catalog) (explicit : Bool) (input : String)
    (cursor : Nat) :
    complete v catalog explicit input cursor =
      if explicit || ((Context.at v catalog input cursor).guesses &&
          !(Completion.listOf v catalog (.at v catalog input cursor)).isEmpty) then
        some ⟨(Lookback.at v input.toList cursor).start (Text.clamp cursor input.toList),
          Completion.listOf v catalog (.at v catalog input cursor)⟩
      else none := by
  have decided := Completion.suggestions?_eq_ite v catalog explicit (.at v catalog input cursor)
  unfold Context.at at decided ⊢
  simp only [complete, decided]
  cases explicit with
  | true => simp
  | false => cases Context.guesses _ <;> simp

-- A request adds an offer where there was none and changes none that there was. Where no rule
-- knows what comes next it brings the general suggestions as they stand.
theorem complete_on_request (catalog : Catalog) (input : String) (cursor : Nat) :
    ∃ offer, complete .standard catalog true input cursor = some offer ∧
      (∀ unasked, complete .standard catalog false input cursor = some unasked →
        unasked = offer) ∧
      (complete .standard catalog false input cursor = none ↔
        (Context.at .standard catalog input cursor).guesses = false ∨
          ∃ scorer, Context.at .standard catalog input cursor = .memberAccess scorer ∧
            ¬ catalog.HasMember scorer) ∧
      ((Context.at .standard catalog input cursor).guesses = false →
        offer.suggestions = Completion.generalSuggestions .standard catalog ∧
          offer.suggestions.map (·.label) = Completion.generalLabels .standard catalog ∧
          ∀ s ∈ offer.suggestions, s.part = .suggested ∧ s.boost = 0) ∧
      ∀ scorer, Context.at .standard catalog input cursor = .memberAccess scorer →
        ¬ catalog.HasMember scorer → offer.suggestions = [] := by
  have words := Completion.generalSuggestions_standard_ne_nil catalog
  have asked := complete_eq_ite .standard catalog true input cursor
  have unasked := complete_eq_ite .standard catalog false input cursor
  rw [Bool.true_or, if_pos rfl] at asked
  rw [Bool.false_or] at unasked
  refine ⟨_, asked, ?_, ?_, ?_, ?_⟩
  · intro offer found
    rw [unasked] at found
    split at found
    · exact (Option.some.inj found).symm
    · cases found
  · rw [unasked, ← Completion.listOf_eq_nil_iff words]
    simp [Decidable.imp_iff_not_or]
  · intro silent
    have same : Completion.listOf .standard catalog (.at .standard catalog input cursor) =
        Completion.generalSuggestions .standard catalog := Completion.listOf_silent silent
    refine ⟨same, ?_, ?_⟩
    · rw [same, Completion.map_label_generalSuggestions]
    · intro s member
      rw [same] at member
      obtain ⟨boost, part⟩ := Completion.fresh_generalSuggestions member
      exact ⟨part, boost⟩
  · intro scorer behind absent
    exact (Completion.listOf_eq_nil_iff words).mpr ⟨scorer, behind, absent⟩

end ScoreFilter

import ScoreFilter.Proofs.Request

namespace ScoreFilter

variable {v : Vocabulary} {catalog catalog' : Catalog} {context : Context}
  {own own' general general' : List Suggestion} {layout : Layout}

theorem Catalog.get?_reordered (reordered : catalog.fields.Perm catalog'.fields) :
    catalog.get? = catalog'.get? := by
  funext name
  apply Option.ext
  intro f
  rw [get?_eq_some_iff, get?_eq_some_iff, reordered.mem_iff]

-- The rules ask the catalog for fields by their names and for nothing else.
theorem Context.ofLookback_reordered (reordered : catalog.fields.Perm catalog'.fields)
    (l : Lookback) : ofLookback l catalog = ofLookback l catalog' := by
  have field : ∀ k, l.field? k catalog = l.field? k catalog' := by
    intro k
    rw [Lookback.field?, Lookback.field?, Catalog.get?_reordered reordered]
  have other : ∀ t, afterOther l catalog t = afterOther l catalog' t := by
    intro t
    rw [afterOther, afterOther, field]
  simp only [ofLookback, field, other]

namespace Completion

theorem promoteAll_eq_map (level : layout.ordered = false) (own : List Suggestion) :
    promoteAll layout own = own.map (promote layout 0) := by
  induction own with
  | nil => rfl
  | cons s own ih =>
    rw [promoteAll, ih, List.map_cons]
    simp [promote, level]

-- Suggestions may change places as long as their boosts do not tell the places.
theorem promoteAll_perm (perm : own.Perm own') (kept : layout.ordered = true → own = own') :
    (promoteAll layout own).Perm (promoteAll layout own') := by
  cases ordered : layout.ordered with
  | true => rw [kept ordered]
  | false =>
    rw [promoteAll_eq_map ordered, promoteAll_eq_map ordered]
    exact perm.map _

-- Which general suggestions are left out depends on the labels offered, not on their order.
theorem assemble_perm (perm : own.Perm own') (kept : layout.ordered = true → own = own')
    (below : general.Perm general') :
    (assemble own general layout).Perm (assemble own' general' layout) := by
  have labels : ∀ s : Suggestion,
      (own.map (·.label)).contains s.label = (own'.map (·.label)).contains s.label := by
    intro s
    rw [List.contains_eq_mem, List.contains_eq_mem, decide_eq_decide]
    exact (perm.map _).mem_iff
  unfold assemble
  simp only [labels, perm.isEmpty_eq]
  refine (promoteAll_perm perm kept).append ?_
  split
  · exact (below.filter _).map _
  · exact .nil

theorem generalSuggestions_perm (v : Vocabulary)
    (reordered : catalog.fields.Perm catalog'.fields) :
    (generalSuggestions v catalog).Perm (generalSuggestions v catalog') :=
  (reordered.map _).append_left _

theorem members_perm (reordered : catalog.fields.Perm catalog'.fields) (scorer : String) :
    (members catalog scorer).Perm (members catalog' scorer) :=
  (reordered.filterMap _).map _

theorem ownOf_perm (v : Vocabulary) (reordered : catalog.fields.Perm catalog'.fields)
    (context : Context) : (ownOf v catalog context).Perm (ownOf v catalog' context) := by
  cases context with
  | startOfExpression => exact (reordered.map _).append_right _
  | memberAccess scorer => exact members_perm reordered scorer
  | mathArgument => exact reordered.map _
  | chainComparison => exact reordered.map _
  | _ => exact .refl _

theorem ownOf_inComparison (catalog catalog' : Catalog) (ordered : context.inComparison = true) :
    ownOf v catalog context = ownOf v catalog' context := by
  cases context with
  | afterField f => rfl
  | categoryValue f => rfl
  | afterComparison => rfl
  | _ => cases ordered

theorem layoutOf_catalog (v : Vocabulary) (catalog catalog' : Catalog) (context : Context) :
    layoutOf v catalog context = layoutOf v catalog' context := by
  cases context <;> rfl

theorem listOf_perm (v : Vocabulary) (reordered : catalog.fields.Perm catalog'.fields)
    (context : Context) : (listOf v catalog context).Perm (listOf v catalog' context) := by
  rw [listOf, listOf, layoutOf_catalog v catalog' catalog]
  refine assemble_perm (ownOf_perm v reordered context) ?_ (generalSuggestions_perm v reordered)
  rw [layoutOf_ordered]
  exact ownOf_inComparison catalog catalog'

end Completion

def Offer.Reordered (one two : Offer) : Prop :=
  one.start = two.start ∧ one.suggestions.Perm two.suggestions

-- The order of a catalog shows in the order of an offer and in nothing else.
theorem complete_reordered (v : Vocabulary) (catalog catalog' : Catalog)
    (reordered : catalog.fields.Perm catalog'.fields) (explicit : Bool) (input : String)
    (cursor : Nat) :
    Context.at v catalog input cursor = Context.at v catalog' input cursor ∧
      Option.Rel Offer.Reordered (complete v catalog explicit input cursor)
        (complete v catalog' explicit input cursor) := by
  have context : Context.at v catalog input cursor = Context.at v catalog' input cursor :=
    Context.ofLookback_reordered reordered _
  have perm := Completion.listOf_perm v reordered (.at v catalog' input cursor)
  refine ⟨context, ?_⟩
  rw [complete_eq_ite, complete_eq_ite, context, perm.isEmpty_eq]
  split
  · exact .some ⟨rfl, perm⟩
  · exact .none

def panelFields : List Field :=
  [⟨"judge_a", some "judge.tone", .numeric, none, none⟩,
    ⟨"judge_b", some "judge.pass", .boolean, none, some "Passed"⟩,
    ⟨"grade", none, .categorical, some ["\"A\""], none⟩]

def panelCatalog : Catalog :=
  ⟨panelFields, by decide, by decide⟩

def panelCatalogReversed : Catalog :=
  ⟨panelFields.reverse, by decide, by decide⟩

theorem complete_reordered_members :
    panelCatalog.fields.Perm panelCatalogReversed.fields ∧
      Context.at .standard panelCatalog "judge." 6 = .memberAccess "judge" ∧
      complete .standard panelCatalog false "judge." 6 ≠
        complete .standard panelCatalogReversed false "judge." 6 ∧
      Context.at .standard panelCatalog "judge." 6 =
        Context.at .standard panelCatalogReversed "judge." 6 ∧
      Option.Rel Offer.Reordered (complete .standard panelCatalog false "judge." 6)
        (complete .standard panelCatalogReversed false "judge." 6) := by
  have reordered : panelCatalog.fields.Perm panelCatalogReversed.fields :=
    (List.reverse_perm panelFields).symm
  exact ⟨reordered, by decide +kernel, by decide +kernel, complete_reordered .standard panelCatalog
    panelCatalogReversed reordered false "judge." 6⟩

end ScoreFilter

import ScoreFilter.Completion
import ScoreFilter.Proofs.Catalog

namespace ScoreFilter

-- A list without categories counts as none.
theorem Field.getD_categories? (f : Field) : f.categories?.getD [] = f.categories.getD [] := by
  unfold categories?
  cases f.categories with
  | none => rfl
  | some cs => cases cs <;> rfl

theorem Field.isSome_categories? (f : Field) :
    f.categories?.isSome = true ↔ f.categories.getD [] ≠ [] := by
  unfold categories?
  cases f.categories with
  | none => simp
  | some cs => cases cs <;> simp

namespace Suggestion

@[simp]
theorem label_spaced (s : Suggestion) : s.spaced.label = s.label := by
  unfold spaced
  split <;> rfl

@[simp]
theorem label_spacedFor (f : Field) (s : Suggestion) : (s.spacedFor f).label = s.label := by
  unfold spacedFor
  split
  · rfl
  · exact label_spaced s

@[simp]
theorem kind_spaced (s : Suggestion) : s.spaced.kind = s.kind := by
  unfold spaced
  split <;> rfl

@[simp]
theorem kind_spacedFor (f : Field) (s : Suggestion) : (s.spacedFor f).kind = s.kind := by
  unfold spacedFor
  split
  · rfl
  · exact kind_spaced s

@[simp]
theorem call_spaced (s : Suggestion) : s.spaced.call = s.call := by
  unfold spaced
  split <;> rfl

@[simp]
theorem call_spacedFor (f : Field) (s : Suggestion) : (s.spacedFor f).call = s.call := by
  unfold spacedFor
  split
  · rfl
  · exact call_spaced s

end Suggestion

namespace Completion

variable {own general : List Suggestion} {layout : Layout} {label : String} {s : Suggestion}

@[simp]
theorem label_decorate (layout : Layout) (s : Suggestion) :
    (decorate layout s).label = s.label := by
  unfold decorate
  split
  · exact s.label_spaced
  · rfl

@[simp]
theorem call_decorate (layout : Layout) (s : Suggestion) : (decorate layout s).call = s.call := by
  unfold decorate
  split
  · exact s.call_spaced
  · rfl

@[simp]
theorem label_promote (layout : Layout) (remaining : Nat) (s : Suggestion) :
    (promote layout remaining s).label = s.label :=
  label_decorate layout s

@[simp]
theorem kind_promote (layout : Layout) (remaining : Nat) (s : Suggestion) :
    (promote layout remaining s).kind = s.kind := by
  unfold promote decorate
  split
  · exact s.kind_spaced
  · rfl

theorem promote_verbatim {kind : SuggestionKind} {info : Option String} (remaining : Nat)
    (spaced : layout.spaced = true) (bare : label.toList.getLast? ≠ some ' ') :
    (promote layout remaining (.verbatim label kind info)).insert.toList = label.toList ++ [' '] ∧
      (promote layout remaining (.verbatim label kind info)).call = false := by
  simp [promote, decorate, spaced, Suggestion.spaced, Suggestion.verbatim, bare]

-- Where a field that is not boolean is named, the layout need not ask for the blank.
theorem promote_spacedFor {f : Field} {kind : SuggestionKind} {info : Option String}
    (remaining : Nat) (bare : layout.spaced = false) (valued : f.isBoolean = false)
    (solid : ' ' ∉ label.toList) :
    (promote layout remaining ((Suggestion.verbatim label kind info).spacedFor f)).insert.toList =
        label.toList ++ [' '] ∧
      (promote layout remaining ((Suggestion.verbatim label kind info).spacedFor f)).call =
        false := by
  have last : label.toList.getLast? ≠ some ' ' := by
    intro same
    exact solid (List.mem_of_getLast? same)
  simp [promote, decorate, bare, Suggestion.spacedFor, valued, Suggestion.spaced,
    Suggestion.verbatim, last]

@[simp]
theorem label_demote (layout : Layout) (s : Suggestion) : (demote layout s).label = s.label :=
  label_decorate layout s

theorem map_label_promoteAll (layout : Layout) (own : List Suggestion) :
    (promoteAll layout own).map (·.label) = own.map (·.label) := by
  induction own with
  | nil => rfl
  | cons s own ih => simp [promoteAll, ih]

theorem part_promoteAll (member : s ∈ promoteAll layout own) : s.part = .suggested := by
  induction own with
  | nil => cases member
  | cons first own ih =>
    rcases List.mem_cons.mp member with same | later
    · rw [same]
      rfl
    · exact ih later

theorem mem_promoteAll (member : s ∈ promoteAll layout own) :
    ∃ o ∈ own, ∃ remaining, 0 < remaining ∧ remaining ≤ own.length ∧
      s = promote layout remaining o := by
  induction own with
  | nil => cases member
  | cons first own ih =>
    rcases List.mem_cons.mp member with same | later
    · exact ⟨first, List.mem_cons_self .., own.length + 1, by simp, by simp, same⟩
    · obtain ⟨o, inside, remaining, positive, bounded, same⟩ := ih later
      exact ⟨o, List.mem_cons_of_mem _ inside, remaining, positive,
        Nat.le_trans bounded (Nat.le_succ _), same⟩

theorem promote_mem {o : Suggestion} (member : o ∈ own) (layout : Layout) :
    ∃ remaining, promote layout remaining o ∈ promoteAll layout own := by
  induction own with
  | nil => cases member
  | cons first own ih =>
    rcases List.mem_cons.mp member with same | later
    · exact ⟨own.length + 1, by simp [promoteAll, same]⟩
    · obtain ⟨remaining, inside⟩ := ih later
      exact ⟨remaining, List.mem_cons_of_mem _ inside⟩

theorem mem_assemble (member : s ∈ assemble own general layout) :
    s ∈ promoteAll layout own ∨ ∃ g ∈ general, g.label ∉ own.map (·.label) ∧
      s = if own.isEmpty then decorate layout g else demote layout g := by
  rcases List.mem_append.mp member with first | below
  · exact .inl first
  · split at below
    · obtain ⟨g, other, same⟩ := List.mem_map.mp below
      obtain ⟨listed, fresh⟩ := List.mem_filter.mp other
      refine .inr ⟨g, listed, by simpa using fresh, ?_⟩
      rw [← same]
      split <;> rfl
    · cases below

theorem assemble_ne_nil (some_own : own ≠ []) (general : List Suggestion) (layout : Layout) :
    assemble own general layout ≠ [] := by
  obtain ⟨s, rest, rfl⟩ := List.exists_cons_of_ne_nil some_own
  simp [assemble, promoteAll]

theorem filter_assemble (general : List Suggestion) (layout : Layout) (some_own : own ≠ []) :
    (assemble own general layout).filter (·.part == .suggested) = promoteAll layout own := by
  have first : (promoteAll layout own).filter (·.part == .suggested) = promoteAll layout own := by
    rw [List.filter_eq_self]
    intro s member
    simp [part_promoteAll member]
  have below : ∀ others : List Suggestion,
      (others.map (demote layout)).filter (·.part == .suggested) = [] := by
    intro others
    rw [List.filter_eq_nil_iff]
    intro s member
    obtain ⟨t, _, rfl⟩ := List.mem_map.mp member
    simp [demote]
  have empty : own.isEmpty = false := List.isEmpty_eq_false_iff.mpr some_own
  rw [assemble, List.filter_append, first]
  simp only [empty]
  split
  · simp [below]
  · simp

theorem mem_promoteAll_of_suggested (some_own : own ≠ [])
    (member : s ∈ assemble own general layout) (suggested : s.part = .suggested) :
    s ∈ promoteAll layout own := by
  rw [← filter_assemble general layout some_own]
  exact List.mem_filter.mpr ⟨member, by simp [suggested]⟩

theorem mem_promoteAll_of_label (member : s ∈ assemble own general layout)
    (offered : s.label ∈ own.map (·.label)) : s ∈ promoteAll layout own := by
  rcases mem_assemble member with first | ⟨g, _, other, same⟩
  · exact first
  · have labels : s.label = g.label := by
      rw [same]
      split <;> simp
    rw [labels] at offered
    exact absurd offered other

theorem find?_promoteAll (found : own.find? (·.label == label) = some s) (layout : Layout) :
    ∃ remaining, (promoteAll layout own).find? (·.label == label) =
      some (promote layout remaining s) := by
  induction own with
  | nil => cases found
  | cons first own ih =>
    cases here : first.label == label with
    | true =>
      rw [List.find?_cons_of_pos (by simp [here])] at found
      cases found
      exact ⟨own.length + 1, by simp [promoteAll, here]⟩
    | false =>
      rw [List.find?_cons_of_neg (by simp [here])] at found
      obtain ⟨remaining, later⟩ := ih found
      exact ⟨remaining, by simpa [promoteAll, here] using later⟩

theorem find?_assemble (found : own.find? (·.label == label) = some s)
    (general : List Suggestion) (layout : Layout) (start : Nat) :
    ∃ remaining, Offer.find? ⟨start, assemble own general layout⟩ label =
      some (promote layout remaining s) := by
  obtain ⟨remaining, first⟩ := find?_promoteAll found layout
  exact ⟨remaining, by simp [Offer.find?, assemble, List.find?_append, first]⟩

theorem operator?_eq_some {v : Vocabulary} {name : String} (found : operator? v name = some s) :
    ∃ kind info, s = .verbatim name kind info ∧
      (kind = .relation → ∃ c ∈ v.comparators, c.symbol = name) := by
  unfold operator? at found
  split at found
  · rename_i k listed
    cases found
    have named : k.name = name := by simpa using List.find?_some listed
    refine ⟨.keyword, some k.description, by rw [Suggestion.ofKeyword, named], ?_⟩
    intro other
    cases other
  · obtain ⟨c, listed, rfl⟩ := Option.map_eq_some_iff.mp found
    have named : c.symbol = name := by simpa using List.find?_some listed
    refine ⟨.relation, some c.description, by rw [Suggestion.ofComparator, named], ?_⟩
    exact fun _ => ⟨c, List.mem_of_find?_eq_some listed, named⟩

theorem map_label_operators (type : ScoreType) :
    ((operatorsAfter type).filterMap (operator? .standard)).map (·.label) =
      operatorsAfter type := by
  cases type <;> decide +kernel

end Completion

end ScoreFilter

import ScoreFilter.Proofs.Offer

namespace ScoreFilter

namespace Lookback

def fieldOf? (catalog : Catalog) (tokens : List Token) : Option Field :=
  (dottedName? tokens).bind catalog.get?

theorem fieldOf?_eq_some {catalog : Catalog} {tokens : List Token} {f : Field}
    (found : fieldOf? catalog tokens = some f) :
    f ∈ catalog.fields ∧ ∃ t rest, tokens = t :: rest ∧ t.kind = .name := by
  obtain ⟨name, spelled, listed⟩ := Option.bind_eq_some_iff.mp found
  refine ⟨(Catalog.mem_of_get? listed).1, ?_⟩
  cases tokens with
  | nil => cases spelled
  | cons t rest =>
    refine ⟨t, rest, rfl, ?_⟩
    by_cases named : t.kind = .name
    · exact named
    · simp [dottedName?, named] at spelled

end Lookback

namespace Context

variable {catalog : Catalog} {tokens rest : List Token} {t : Token} {f : Field}

-- What a context tells of the tokens before the cursor, nearest first.
def Tells (catalog : Catalog) (tokens : List Token) : Context → Prop
  | .startOfExpression => ∀ t ∈ tokens.head?, t.text ≠ "."
  | .afterField f => Lookback.fieldOf? catalog tokens = some f
  | .categoryValue f => ∃ t rest, tokens = t :: rest ∧ t.kind = .relation ∧
      Lookback.fieldOf? catalog rest = some f ∧ f.categories?.isSome = true
  | .afterComparison => ∃ t u rest, tokens = t :: u :: rest ∧ t.kind.isLiteral = true ∧
      u.kind = .relation
  | _ => True

theorem afterPoint_tells (catalog : Catalog) (tokens : List Token) (scorer : Option Token) :
    Tells catalog tokens (afterPoint scorer) := by
  cases scorer <;> trivial

theorem afterParenthesis_tells (other : t.text ≠ ".") (function : Option Token) :
    Tells catalog (t :: rest) (afterParenthesis function) := by
  unfold afterParenthesis
  split
  · trivial
  · trivial
  · simpa [Tells] using other

theorem afterRelation_tells (related : t.kind = .relation) :
    Tells catalog (t :: rest) (afterRelation (Lookback.fieldOf? catalog rest)) := by
  cases found : Lookback.fieldOf? catalog rest with
  | none => trivial
  | some f =>
    simp only [afterRelation]
    split
    · exact ⟨t, rest, rfl, related, found, ‹_›⟩
    · trivial

theorem afterOther_tells (other : t.text ≠ ".") :
    Tells catalog (t :: rest) (afterOther ⟨none, t :: rest⟩ catalog t) := by
  unfold afterOther
  split
  · exact afterRelation_tells ‹_›
  · split
    · rename_i compared
      cases rest with
      | nil => simp [Lookback.token?, Lookback.back] at compared
      | cons u rest =>
        simp only [Lookback.token?, Lookback.back, List.drop_succ_cons, List.drop_zero,
          List.head?_cons, Option.any_some, Bool.and_eq_true, beq_iff_eq] at compared
        exact ⟨t, u, rest, rfl, compared.1, compared.2⟩
    · split
      · simpa [Tells] using other
      · trivial

-- Every rule is asked here once, so that no later proof has to go through them.
theorem ofLookback_tells (catalog : Catalog) (tokens : List Token) :
    Tells catalog tokens (ofLookback ⟨none, tokens⟩ catalog) := by
  cases tokens with
  | nil => simp [ofLookback, Lookback.token?, Lookback.back, Tells]
  | cons t rest =>
    simp only [ofLookback, Lookback.token?, Lookback.back, List.drop_zero, List.head?_cons]
    split
    · exact afterPoint_tells ..
    · rename_i other
      split
      · exact afterParenthesis_tells other _
      · split
        · trivial
        · split
          · assumption
          · exact afterOther_tells other

theorem ofLookback_found {l : Lookback} (last : l.token? 1 = some t) (point : t.text ≠ ".")
    (opening : t.text ≠ "(") (closing : t.text ≠ ")") (found : l.field? 1 catalog = some f) :
    ofLookback l catalog = .afterField f := by
  simp only [ofLookback, last, point, opening, closing, found, if_false]

theorem ofLookback_other (point : t.text ≠ ".") (opening : t.text ≠ "(") (closing : t.text ≠ ")")
    (named : t.kind ≠ .name) :
    ofLookback ⟨none, t :: rest⟩ catalog = afterOther ⟨none, t :: rest⟩ catalog t := by
  simp [ofLookback, Lookback.token?, Lookback.back, Lookback.field?, Lookback.qualifiedName?,
    Lookback.dottedName?, point, opening, closing, named]

end Context

end ScoreFilter

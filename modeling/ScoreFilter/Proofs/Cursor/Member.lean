import ScoreFilter.Proofs.Cursor.DottedName

namespace ScoreFilter

theorem find?_of_unique {α : Type} {p : α → Bool} {l : List α} {a : α} (member : a ∈ l)
    (holds : p a = true) (unique : ∀ b ∈ l, p b = true → b = a) : l.find? p = some a := by
  cases found : l.find? p with
  | none => exact absurd holds (List.find?_eq_none.mp found a member)
  | some b => rw [unique b (List.mem_of_find?_eq_some found) (List.find?_some found)]

namespace Completion

variable {catalog : Catalog} {f : Field} {scorer label : String}

theorem find?_members (member : f ∈ catalog.fields)
    (qualified : f.qualifiedName = some (scorer ++ "." ++ label))
    (unique : ∀ g ∈ catalog.fields, g.qualifiedName = f.qualifiedName → g = f) :
    (members catalog scorer).find? (·.label == label) =
      some ((Suggestion.verbatim label .member f.tooltip).spacedFor f) := by
  have own := Field.memberOf?_eq_some_iff.mpr qualified
  have found : catalog.fields.find? (fun g => g.memberOf? scorer == some label) = some f := by
    refine find?_of_unique member (by simp [own]) ?_
    intro g listed same
    apply unique g listed
    rw [qualified]
    exact Field.memberOf?_eq_some_iff.mp (by simpa using same)
  have listed : members catalog scorer = catalog.fields.filterMap fun g =>
      (g.memberOf? scorer).map fun member =>
        (Suggestion.verbatim member .member g.tooltip).spacedFor g := by
    rw [members, Catalog.membersOf, List.map_filterMap]
    simp only [Option.map_map]
    rfl
  have labels : (fun g : Field => ((g.memberOf? scorer).map fun member =>
      (Suggestion.verbatim member .member g.tooltip).spacedFor g).any (·.label == label)) =
        fun g => g.memberOf? scorer == some label := by
    funext g
    cases g.memberOf? scorer <;> simp [Suggestion.verbatim]
  rw [listed, List.find?_filterMap, labels, found]
  simp [own]

end Completion

namespace Lookback

variable {point scorer : Token} {earlier : List Token}

theorem pointed_single (dot : point.text = ".") (named : scorer.kind = .name)
    (closed : ∀ t ∈ earlier.head?, t.text ≠ ".") :
    pointed (point :: scorer :: earlier) = [scorer.text] := by
  rw [pointed, if_pos ⟨dot, named⟩, pointed_eq_nil closed]

theorem exists_earlier {l : Lookback} (first : l.token? 1 = some point)
    (second : l.token? 2 = some scorer) :
    ∃ rest, l.earlier = point :: scorer :: rest ∧ l.token? 3 = rest.head? := by
  cases l with
  | mk current earlier =>
    cases earlier with
    | nil => cases first
    | cons t earlier =>
      cases earlier with
      | nil => cases second
      | cons u rest =>
        cases first
        cases second
        exact ⟨rest, rfl, rfl⟩

end Lookback

variable {catalog : Catalog} {f : Field} {m : String} {settled : List Piece}
  {point scorer : Token} {earlier : List Token}

theorem Piece.Reading.loose_point {old : List Char} (reading : Piece.Reading settled old)
    (nearest : (Piece.place 0 settled).reverse = point :: earlier) (dot : point.text = ".")
    (front : List Piece) (kind : TokenKind) (text : List Char)
    (last : settled = front ++ [.lexeme kind text]) :
    kind.isWord = false ∧ kind ≠ .unclosed := by
  subst last
  obtain ⟨_, spelled⟩ := Piece.nearest_eq (fun _ => rfl) nearest
  have single : text = ['.'] := by
    rw [dot] at spelled
    simpa using congrArg String.toList spelled.symm
  obtain ⟨_, reads, _⟩ := Piece.reading_append.mp reading
  rw [reads.opening (.inr single)]
  decide

theorem offerBehind_member (explicit : Bool)
    (context : Context.behind catalog settled = .memberAccess scorer.text)
    (member : f ∈ catalog.fields) (valued : f.isBoolean = false)
    (qualified : f.qualifiedName = some (scorer.text ++ "." ++ m))
    (unique : ∀ g ∈ catalog.fields, g.qualifiedName = f.qualifiedName → g = f)
    (solid : ' ' ∉ m.toList) :
    ∃ offer s, offerBehind .standard catalog explicit settled = some offer ∧
      offer.find? m = some s ∧ s.kind = .member ∧ s.insert.toList = m.toList ++ [' '] ∧
      s.call = false := by
  have own := Completion.find?_members member qualified unique
  have some_own : Completion.members catalog scorer.text ≠ [] := by
    intro none
    rw [none] at own
    cases own
  have decided : Completion.own? .standard catalog (.behind catalog settled) =
      some (Completion.members catalog scorer.text, ⟨false, false, false⟩) := by
    rw [context]
    rfl
  obtain ⟨remaining, found⟩ := Completion.find?_assemble own
    (Completion.generalSuggestions .standard catalog) ⟨false, false, false⟩
    (Text.byteLength (Piece.textOf settled))
  refine ⟨_, _, offerBehind_own some_own decided, found, ?_,
    Completion.promote_spacedFor remaining rfl valued solid⟩
  rw [Completion.kind_promote, Suggestion.kind_spacedFor]
  rfl

-- Behind a member the catalog is asked for the qualified name as if it were a field's own.
theorem Context.behind_member {parts : List (List Char)} {gaps : List Piece}
    (nearest : (Piece.place 0 settled).reverse = point :: scorer :: earlier)
    (dot : point.text = ".") (named : scorer.kind = .name)
    (closed : ∀ t ∈ earlier.head?, t.text ≠ ".") (some_part : parts ≠ [])
    (spelled : m.toList = List.intercalate ['.'] parts)
    (words : ∀ w ∈ parts, Lexeme.isWord w = true)
    (blank : ∀ offset, Piece.place offset gaps = []) :
    behind catalog (settled ++ (Piece.chain parts ++ gaps)) = .afterField f ↔
      catalog.get? (scorer.text ++ "." ++ m) = some f := by
  rw [behind_chain some_part words blank, nearest, Lookback.pointed_single dot named closed,
    List.reverse_singleton, List.singleton_append,
    String.intercalate_cons_of_ne_nil (by simpa using some_part), intercalate_parts spelled]

-- Behind a scorer and a point a field is offered by its qualified name, and looked up again by its
-- own; the two agree exactly when both names are one.
theorem accept_member (catalog : Catalog) (explicit : Bool) (input : String) (cursor : Nat)
    (point scorer : Token)
    (first : (Lookback.at .standard input.toList cursor).token? 1 = some point)
    (dot : point.text = ".")
    (second : (Lookback.at .standard input.toList cursor).token? 2 = some scorer)
    (named : scorer.kind = .name)
    (third : ∀ t ∈ (Lookback.at .standard input.toList cursor).token? 3, t.text ≠ ".")
    (f : Field) (m : String) (member : f ∈ catalog.fields) (valued : f.isBoolean = false)
    (qualified : f.qualifiedName = some (scorer.text ++ "." ++ m))
    (parted : Vocabulary.standard.IsDottedName m)
    (unique : ∀ g ∈ catalog.fields, g.qualifiedName = f.qualifiedName → g = f) :
    ∃ offer s, complete .standard catalog explicit input cursor = some offer ∧
      offer.find? m = some s ∧ s.kind = .member ∧
      ((s.applyTo input offer.start cursor).context .standard catalog = .afterField f ↔
        f.qualifiedName = some f.name) := by
  obtain ⟨settled, typed, divides⟩ := exists_divides .standard (Text.before cursor input.toList)
  have behind := Lookback.earlier_atEnd divides
  obtain ⟨earlier, nearest, last⟩ := Lookback.exists_earlier first second
  replace nearest := behind.symm.trans nearest
  rw [last] at third
  obtain ⟨parts, some_part, spelled, free⟩ := parted
  have words := fun w inside => (free w inside).1
  have solid : ' ' ∉ m.toList := by
    rw [spelled, ← Piece.textOf_chain]
    exact Piece.blank_not_mem_chain words
  have context : Context.behind catalog settled = .memberAccess scorer.text := by
    rw [Context.behind, nearest]
    simp [Context.ofLookback, Lookback.token?, Lookback.back, dot, Context.afterPoint]
  obtain ⟨offer, s, offered, found, kinded, insert, plain⟩ :=
    offerBehind_member explicit context member valued qualified unique solid
  have start := offerBehind_start offered
  refine ⟨offer, s, (complete_behind explicit rfl divides).trans offered, found, kinded, ?_⟩
  -- The new words join the scorer before the point to one dotted name.
  have stop : Lexeme.Stops Lexeme.isWordChar [' '] := Lexeme.stops_cons.mpr (by decide)
  have reading := divides.reading
  rw [spelled, ← Piece.textOf_chain] at insert
  have edit := Suggestion.applyTo_spaced catalog plain insert divides
    (reading.before_chain (reading.loose_point nearest dot) some_part free stop)
    (Piece.reading_chain free stop)
  rw [start, edit.context,
    Context.behind_member nearest dot named third some_part spelled words fun _ => rfl, qualified,
    Option.some.injEq]
  constructor
  · intro resolved
    exact (Catalog.mem_of_get? resolved).2.symm
  · intro same
    rw [same]
    exact catalog.get?_name member

def qualifiedField : Field :=
  ⟨"judge.safety", some "judge.safety", .numeric, none, none⟩

def renamedField : Field :=
  ⟨"tone", some "judge.tone.score", .other, none, none⟩

def judgeCatalog : Catalog :=
  ⟨[qualifiedField, renamedField], by decide, by decide⟩

-- Both members are offered in the place of `to`; only the first is found again.
theorem accept_member_found_again :
    (Lookback.at .standard "not judge.to>1".toList 12).token? 1 = some ⟨.mark, ".", 9, 10⟩ ∧
      (Lookback.at .standard "not judge.to>1".toList 12).token? 2 = some ⟨.name, "judge", 4, 9⟩ ∧
      (∃ offer s, complete .standard judgeCatalog false "not judge.to>1" 12 = some offer ∧
        offer.find? "safety" = some s ∧ s.kind = .member ∧
        (s.applyTo "not judge.to>1" offer.start 12).context .standard judgeCatalog =
          .afterField qualifiedField) ∧
      ∃ offer s, complete .standard judgeCatalog false "not judge.to>1" 12 = some offer ∧
        offer.find? "tone.score" = some s ∧ s.kind = .member ∧
        (s.applyTo "not judge.to>1" offer.start 12).context .standard judgeCatalog ≠
          .afterField renamedField := by
  have first : (Lookback.at .standard "not judge.to>1".toList 12).token? 1 =
      some ⟨.mark, ".", 9, 10⟩ := by decide +kernel
  have second : (Lookback.at .standard "not judge.to>1".toList 12).token? 2 =
      some ⟨.name, "judge", 4, 9⟩ := by decide +kernel
  have third : ∀ t ∈ (Lookback.at .standard "not judge.to>1".toList 12).token? 3,
      t.text ≠ "." := by decide +kernel
  have free : ∀ w ∈ ["safety".toList, "tone".toList, "score".toList],
      Lexeme.isWord w = true ∧ w ∉ Vocabulary.standard.reserved := by decide +kernel
  have unique : ∀ f ∈ judgeCatalog.fields, ∀ g ∈ judgeCatalog.fields,
      g.qualifiedName = f.qualifiedName → g = f := by decide
  have safety : Vocabulary.standard.IsDottedName "safety" :=
    ⟨["safety".toList], by decide, by decide,
      fun w inside => free w (List.mem_cons.mpr (.inl (List.mem_singleton.mp inside)))⟩
  have tone : Vocabulary.standard.IsDottedName "tone.score" :=
    ⟨["tone".toList, "score".toList], by decide, by decide,
      fun w inside => free w (List.mem_cons_of_mem _ inside)⟩
  have inside : qualifiedField ∈ judgeCatalog.fields := by decide
  have other : renamedField ∈ judgeCatalog.fields := by decide
  obtain ⟨offer, s, offered, found, kinded, agrees⟩ := accept_member judgeCatalog false
    "not judge.to>1" 12 _ _ first rfl second rfl third qualifiedField "safety" inside (by decide)
    (by decide) safety (unique _ inside)
  obtain ⟨offer', s', offered', found', kinded', differs⟩ := accept_member judgeCatalog false
    "not judge.to>1" 12 _ _ first rfl second rfl third renamedField "tone.score" other (by decide)
    (by decide) tone (unique _ other)
  exact ⟨first, second, ⟨offer, s, offered, found, kinded, agrees.mpr rfl⟩,
    offer', s', offered', found', kinded', mt differs.mp (by decide)⟩

end ScoreFilter

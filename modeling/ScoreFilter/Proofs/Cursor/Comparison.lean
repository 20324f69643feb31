import ScoreFilter.Proofs.Cursor.Insertion

namespace ScoreFilter

namespace Lexeme

variable {text old new rest : List Char}

def IsLiteral (text : List Char) : Prop :=
  (∃ body, '"' ∉ body ∧ text = '"' :: (body ++ ['"'])) ∨ IsNumber text

theorem Reads.name_before (reads : Reads .name text old) (ended : Stops isWordChar new) :
    Reads .name text new := by
  have word := reads.isWord rfl (by decide)
  obtain ⟨kinded, _⟩ := reads.kindOf word
  refine .word kinded word ended ?_
  intro negation
  rw [kindOf_keyword_iff.mpr (.inr negation)] at kinded
  cases kinded

theorem Reads.relation_before (reads : Reads .relation text old) (ended : Stops (· == '=') new) :
    Reads .relation text new := by
  cases reads with
  | pair listed => exact .pair listed
  | angle listed _ => exact .angle listed ended
  | word kinded => exact absurd kinded (kindOf_ne rfl)

theorem reads_relation (listed : text ∈ relations) (ended : Stops (· == '=') rest) :
    Reads .relation text rest := by
  rcases mem_relations_iff.mp listed with ⟨c, member, rfl⟩ | ⟨c, member, rfl⟩
  · exact .pair member
  · exact .angle member ended

theorem stops_relation (listed : text ∈ relations) (rest : List Char) :
    Stops isWordChar (text ++ rest) := by
  have every : relations.all (fun r => r.head?.any fun c => !isWordChar c) = true := by decide
  have head := List.all_eq_true.mp every text listed
  cases text with
  | nil => cases head
  | cons c cs => exact stops_cons.mpr (by simpa using head)

theorem reads_literal (literal : IsLiteral text) (rest : List Char) :
    ∃ kind : TokenKind, kind.isLiteral = true ∧ Reads kind text (' ' :: rest) := by
  rcases literal with ⟨body, inside, rfl⟩ | ⟨sign, whole, fraction, signed, digits, decimals, rfl⟩
  · exact ⟨.quoted, rfl, .quoted inside⟩
  · refine ⟨.number, rfl, .number signed digits decimals ⟨stops_cons.mpr (by decide), ?_⟩⟩
    intro _ ds point
    cases point

theorem stops_literal (literal : IsLiteral text) (rest : List Char) :
    Stops (· == '=') (text ++ rest) := by
  rcases literal with ⟨body, _, rfl⟩ | ⟨sign, whole, fraction, signed, digits, _, rfl⟩
  · exact stops_cons.mpr (by decide)
  · rcases signed with rfl | rfl | rfl
    · obtain ⟨d, ds, rfl⟩ := List.exists_cons_of_ne_nil digits.1
      have digit := digits.2 d (List.mem_cons_self ..)
      refine stops_cons.mpr (beq_eq_false_iff_ne.mpr ?_)
      intro same
      subst same
      cases digit
    · exact stops_cons.mpr (by decide)
    · exact stops_cons.mpr (by decide)

theorem blank_not_mem_number (numeral : IsNumber text) : ' ' ∉ text := by
  intro blank
  rcases mem_number numeral blank with plus | minus | point | digit
  · cases plus
  · cases minus
  · cases point
  · cases digit

theorem getLast?_literal (literal : IsLiteral text) : text.getLast? ≠ some ' ' := by
  rcases literal with ⟨body, _, rfl⟩ | numeral
  · rw [← List.cons_append, List.getLast?_concat]
    simp
  · intro last
    exact blank_not_mem_number numeral (List.mem_of_getLast? last)

end Lexeme

variable {catalog : Catalog} {explicit : Bool} {input : String} {cursor : Nat} {f : Field}
  {settled typed : List Piece} {s : Suggestion} {w : List Char}

theorem accept_relation
    (divides : Divides .standard (Text.before cursor input.toList) settled typed)
    (context : Context.behind catalog settled = .afterField f) (listed : w ∈ Lexeme.relations)
    (plain : s.call = false) (insert : s.insert.toList = w ++ [' ']) :
    (s.applyTo input (Text.byteLength (Piece.textOf settled)) cursor).context .standard catalog =
      .afterRelation (some f) := by
  have told := Context.behind_tells catalog settled
  rw [context] at told
  obtain ⟨_, t, earlier, nearest, named⟩ := Lookback.fieldOf?_eq_some told
  have before : Piece.Reading settled (w ++ [' ']) := by
    refine divides.reading.behind nearest ?_ ?_ ?_
    · intro rest reads
      rw [named] at reads ⊢
      exact reads.name_before (Lexeme.stops_relation listed _)
    · simp [named]
    · simp [named]
  have reads : Lexeme.Reads .relation w [' '] :=
    Lexeme.reads_relation listed (Lexeme.stops_cons.mpr (by decide))
  obtain ⟨u, kinded, _, behind⟩ :=
    Context.behind_lexeme catalog settled reads (by decide) (by decide)
  rw [(s.applyTo_lexeme catalog plain insert divides before reads).context, behind,
    Context.afterOther, if_pos kinded]
  exact congrArg Context.afterRelation told

theorem accept_literal
    (divides : Divides .standard (Text.before cursor input.toList) settled typed)
    (context : Context.behind catalog settled = .categoryValue f) (literal : Lexeme.IsLiteral w)
    (plain : s.call = false) (insert : s.insert.toList = w ++ [' ']) :
    (s.applyTo input (Text.byteLength (Piece.textOf settled)) cursor).context .standard catalog =
      .afterComparison := by
  have told := Context.behind_tells catalog settled
  rw [context] at told
  obtain ⟨t, earlier, nearest, related, _⟩ := told
  have before : Piece.Reading settled (w ++ [' ']) := by
    refine divides.reading.behind nearest ?_ ?_ ?_
    · intro rest reads
      rw [related] at reads ⊢
      exact reads.relation_before (Lexeme.stops_literal literal _)
    · simp [related]
    · simp [related]
  obtain ⟨kind, valued, reads⟩ := Lexeme.reads_literal literal []
  have marked : kind ≠ .mark := by rintro rfl; cases valued
  have named : kind ≠ .name := by rintro rfl; cases valued
  have unrelated : kind ≠ .relation := by rintro rfl; cases valued
  obtain ⟨u, rfl, _, behind⟩ := Context.behind_lexeme catalog settled reads marked named
  rw [(s.applyTo_lexeme catalog plain insert divides before reads).context, behind, nearest]
  simp [Context.afterOther, unrelated, valued, Lookback.token?, Lookback.back, related]

theorem accept_connector
    (divides : Divides .standard (Text.before cursor input.toList) settled typed)
    (context : Context.behind catalog settled = .afterComparison)
    (connector : String.ofList w ∈ Completion.connectors) (plain : s.call = false)
    (insert : s.insert.toList = w ++ [' ']) :
    ∃ e : Edit, s.applyTo input (Text.byteLength (Piece.textOf settled)) cursor = e ∧
      e.context .standard catalog = .startOfExpression ∧
      ∀ again, ∃ next, e.offer? .standard catalog again = some next ∧ next.start = e.cursor := by
  have told := Context.behind_tells catalog settled
  rw [context] at told
  obtain ⟨t, _, earlier, nearest, valued, _⟩ := told
  obtain ⟨word, _, _, _, listed⟩ := Completion.connector_class connector
  have reads : Lexeme.Reads .keyword (String.ofList w).toList [' '] :=
    Completion.reads_connector connector (Lexeme.stops_cons.mpr (by decide))
  rw [String.toList_ofList] at word reads
  have starts := (Lexeme.beginsWord_of_isWord word).append [' ']
  have before : Piece.Reading settled (w ++ [' ']) := by
    refine divides.reading.behind nearest ?_ (fun _ => starts.stops_digit) ?_
    · intro rest reads
      refine reads.before_word ?_ (divides.nearest_closed nearest) starts
      cases kinded : t.kind <;> simp_all [TokenKind.isLiteral, TokenKind.isWord]
    · intro reserved
      rw [reserved] at valued
      cases valued
  have accepted := s.applyTo_lexeme catalog plain insert divides before reads
  obtain ⟨u, kinded, spelled, behind⟩ :=
    Context.behind_lexeme catalog settled reads (by decide) (by decide)
  have beginning : Context.behind catalog (settled ++ ([.lexeme .keyword w] ++ [.gap ' '])) =
      .startOfExpression := by
    rw [behind]
    simp [Context.afterOther, kinded, spelled, TokenKind.isLiteral, listed]
  refine ⟨_, rfl, accepted.context.trans beginning, ?_⟩
  intro again
  rw [accepted.offer?, offerBehind_beginning again beginning]
  exact ⟨_, rfl, accepted.cursor.symm⟩

namespace Completion

variable {own : List Suggestion} {label : String}

theorem insert_relation {names : List String}
    (member : s ∈ promoteAll ⟨true, true, true⟩ (names.filterMap (operator? .standard)))
    (related : s.kind = .relation) :
    ∃ w ∈ Lexeme.relations, s.insert.toList = w ++ [' '] ∧ s.call = false := by
  have every : ∀ c ∈ Vocabulary.standard.comparators, c.symbol.toList ∈ Lexeme.relations ∧
      c.symbol.toList.getLast? ≠ some ' ' := by decide +kernel
  obtain ⟨o, inside, remaining, _, _, rfl⟩ := mem_promoteAll member
  obtain ⟨name, _, found⟩ := List.mem_filterMap.mp inside
  obtain ⟨kind, info, rfl, symbol⟩ := operator?_eq_some found
  rw [kind_promote] at related
  obtain ⟨c, listed, rfl⟩ := symbol related
  obtain ⟨relation, bare⟩ := every c listed
  exact ⟨_, relation, promote_verbatim remaining rfl bare⟩

theorem insert_label (verbatim : ∀ o ∈ own, ∃ kind info, o = .verbatim o.label kind info)
    (bare : label.toList.getLast? ≠ some ' ') (member : s ∈ promoteAll ⟨true, true, true⟩ own)
    (named : s.label = label) : s.insert.toList = label.toList ++ [' '] ∧ s.call = false := by
  obtain ⟨o, inside, remaining, _, _, rfl⟩ := mem_promoteAll member
  obtain ⟨kind, info, spelled⟩ := verbatim o inside
  rw [label_promote] at named
  rw [spelled, named]
  exact promote_verbatim remaining rfl bare

end Completion

-- Some suggestion of this sort is offered, and each one, once accepted, leads to such a place.
def Leads (catalog : Catalog) (explicit : Bool) (input : String) (cursor : Nat)
    (sort : Suggestion → Prop) (place : Edit → Prop) : Prop :=
  ∃ offer, complete .standard catalog explicit input cursor = some offer ∧
    (∃ s ∈ offer.suggestions, sort s) ∧
    ∀ s ∈ offer.suggestions, sort s → place (s.applyTo input offer.start cursor)

variable {sort : Suggestion → Prop} {place : Edit → Prop} {own : List Suggestion} {layout : Layout}
  {label : String}

theorem leads_own (explicit : Bool)
    (divides : Divides .standard (Text.before cursor input.toList) settled typed)
    (decided : Completion.own? .standard catalog (.behind catalog settled) = some (own, layout))
    (offered : ∃ s ∈ Completion.promoteAll layout own, sort s)
    (marked : ∀ s ∈ Completion.assemble own (Completion.generalSuggestions .standard catalog)
      layout, sort s → s ∈ Completion.promoteAll layout own)
    (each : ∀ s ∈ Completion.promoteAll layout own, sort s →
      place (s.applyTo input (Text.byteLength (Piece.textOf settled)) cursor)) :
    Leads catalog explicit input cursor sort place := by
  obtain ⟨s, member, sorted⟩ := offered
  have some_own : own ≠ [] := by
    rintro rfl
    cases member
  refine ⟨_, (complete_behind explicit rfl divides).trans (offerBehind_own some_own decided),
    ⟨s, List.mem_append_left _ member, sorted⟩, ?_⟩
  intro s member sorted
  exact each s (marked s member sorted) sorted

theorem leads_label (explicit : Bool)
    (divides : Divides .standard (Text.before cursor input.toList) settled typed)
    (decided : Completion.own? .standard catalog (.behind catalog settled) =
      some (own, ⟨true, true, true⟩))
    (verbatim : ∀ o ∈ own, ∃ kind info, o = .verbatim o.label kind info)
    (offered : label ∈ own.map (·.label)) (bare : label.toList.getLast? ≠ some ' ')
    (each : ∀ s : Suggestion, s.call = false → s.insert.toList = label.toList ++ [' '] →
      place (s.applyTo input (Text.byteLength (Piece.textOf settled)) cursor)) :
    Leads catalog explicit input cursor (fun s => s.label = label) place := by
  refine leads_own explicit divides decided ?_ ?_ ?_
  · obtain ⟨o, inside, named⟩ := List.mem_map.mp offered
    obtain ⟨remaining, member⟩ := Completion.promote_mem inside ⟨true, true, true⟩
    exact ⟨_, member, by simpa using named⟩
  · intro s member named
    rw [← named] at offered
    exact Completion.mem_promoteAll_of_label member offered
  · intro s member named
    obtain ⟨insert, plain⟩ := Completion.insert_label verbatim bare member named
    exact each s plain insert

theorem leads_value (explicit : Bool)
    (divides : Divides .standard (Text.before cursor input.toList) settled typed)
    (context : Context.behind catalog settled = .afterField f) (valued : f.isBoolean = false) :
    Leads catalog explicit input cursor (fun s => s.part = .suggested ∧ s.kind = .relation)
      fun e => e.context .standard catalog =
        if f.categories.getD [] = [] then .scalarValue f else .categoryValue f := by
  have related : ∃ o ∈ (Completion.operatorsAfter f.scoreType).filterMap
      (Completion.operator? .standard), o.kind = .relation := by
    cases type : f.scoreType with
    | boolean => simp [Field.isBoolean, type] at valued
    | _ => decide +kernel
  obtain ⟨o, inside, symbol⟩ := related
  refine leads_own explicit divides (by rw [context]; rfl) ?_ ?_ ?_
  · obtain ⟨remaining, member⟩ := Completion.promote_mem inside ⟨true, true, true⟩
    exact ⟨_, member, Completion.part_promoteAll member, by simpa using symbol⟩
  · intro s member sorted
    exact Completion.mem_promoteAll_of_suggested (List.ne_nil_of_mem inside) member sorted.1
  · intro s member sorted
    obtain ⟨w, listed, insert, plain⟩ := Completion.insert_relation member sorted.2
    rw [accept_relation divides context listed plain insert, Context.afterRelation]
    have categorical := f.isSome_categories?
    split <;> simp_all

theorem leads_afterComparison (explicit : Bool)
    (divides : Divides .standard (Text.before cursor input.toList) settled typed)
    (context : Context.behind catalog settled = .categoryValue f) {c : String}
    (member : c ∈ f.categories.getD []) (literal : Lexeme.IsLiteral c.toList) :
    Leads catalog explicit input cursor (fun s => s.label = c)
      fun e => e.context .standard catalog = .afterComparison := by
  rw [← f.getD_categories?] at member
  refine leads_label explicit divides (by rw [context]; rfl) ?_ ?_
    (Lexeme.getLast?_literal literal) ?_
  · intro o inside
    obtain ⟨value, _, rfl⟩ := List.mem_map.mp inside
    exact ⟨.value, none, rfl⟩
  · rw [List.map_map]
    exact List.mem_map.mpr ⟨c, member, rfl⟩
  · intro s plain insert
    exact accept_literal divides context literal plain insert

theorem leads_condition (explicit : Bool)
    (divides : Divides .standard (Text.before cursor input.toList) settled typed)
    (context : Context.behind catalog settled = .afterComparison) {connector : String}
    (listed : connector ∈ Completion.connectors) :
    Leads catalog explicit input cursor (fun s => s.label = connector)
      fun e => e.context .standard catalog = .startOfExpression ∧
        ∀ again, ∃ next, e.offer? .standard catalog again = some next ∧ next.start = e.cursor := by
  have labels : (Completion.connectors.filterMap (Completion.operator? .standard)).map (·.label) =
      Completion.connectors := Completion.map_label_operators .boolean
  have every : ∀ name ∈ Completion.connectors, name.toList.getLast? ≠ some ' ' := by decide
  refine leads_label explicit divides (by rw [context]; rfl) ?_ ?_ (every connector listed) ?_
  · intro o inside
    obtain ⟨name, _, found⟩ := List.mem_filterMap.mp inside
    obtain ⟨kind, info, rfl, _⟩ := Completion.operator?_eq_some found
    exact ⟨kind, info, rfl⟩
  · rw [labels]
    exact listed
  · intro s plain insert
    obtain ⟨e, rfl, beginning, next⟩ :=
      accept_connector divides context (by simpa using listed) plain insert
    exact ⟨beginning, next⟩

-- The steps of a comparison follow on each other: field, relation, value, connector, and then the
-- next condition.
theorem comparison_cycle (catalog : Catalog) (explicit : Bool) (input : String) (cursor : Nat) :
    (∀ f, Context.at .standard catalog input cursor = .afterField f → f.isBoolean = false →
      Leads catalog explicit input cursor (fun s => s.part = .suggested ∧ s.kind = .relation)
        fun e => e.context .standard catalog =
          if f.categories.getD [] = [] then .scalarValue f else .categoryValue f) ∧
    (∀ f, Context.at .standard catalog input cursor = .categoryValue f →
      ∀ c ∈ f.categories.getD [], Lexeme.IsLiteral c.toList →
      Leads catalog explicit input cursor (fun s => s.label = c)
        fun e => e.context .standard catalog = .afterComparison) ∧
    (Context.at .standard catalog input cursor = .afterComparison →
      ∀ connector ∈ ["and", "or"],
      Leads catalog explicit input cursor (fun s => s.label = connector)
        fun e => e.context .standard catalog = .startOfExpression ∧
          ∀ again, ∃ next, e.offer? .standard catalog again = some next ∧
            next.start = e.cursor) := by
  obtain ⟨settled, typed, divides⟩ := exists_divides .standard (Text.before cursor input.toList)
  rw [context_behind rfl divides]
  refine ⟨?_, ?_, ?_⟩
  · intro f context valued
    exact leads_value explicit divides context valued
  · intro f context c member literal
    exact leads_afterComparison explicit divides context member literal
  · intro context connector listed
    exact leads_condition explicit divides context listed

def gradeField : Field :=
  ⟨"grade", none, .categorical, some ["\"A\"", "-1.5"], none⟩

def gradeCatalog : Catalog :=
  ⟨[gradeField], by decide, by decide⟩

-- No blank stands before what is being typed, be it a symbol or a word.
theorem comparison_cycle_unspaced :
    (Context.at .standard gradeCatalog "grade>" 6 = .afterField gradeField ∧
      Leads gradeCatalog false "grade>" 6 (fun s => s.part = .suggested ∧ s.kind = .relation)
        fun e => e.context .standard gradeCatalog = .categoryValue gradeField) ∧
    (Context.at .standard gradeCatalog "grade==x" 8 = .categoryValue gradeField ∧
      Lexeme.IsLiteral "-1.5".toList ∧
      Leads gradeCatalog false "grade==x" 8 (fun s => s.label = "-1.5")
        fun e => e.context .standard gradeCatalog = .afterComparison) ∧
    Context.at .standard gradeCatalog "grade==\"A\"x" 11 = .afterComparison ∧
      Leads gradeCatalog false "grade==\"A\"x" 11 (fun s => s.label = "or")
        fun e => e.context .standard gradeCatalog = .startOfExpression ∧
          ∀ again, ∃ next, e.offer? .standard gradeCatalog again = some next ∧
            next.start = e.cursor := by
  have field : Context.at .standard gradeCatalog "grade>" 6 = .afterField gradeField := by
    decide +kernel
  have value : Context.at .standard gradeCatalog "grade==x" 8 = .categoryValue gradeField := by
    decide +kernel
  have ended : Context.at .standard gradeCatalog "grade==\"A\"x" 11 = .afterComparison := by
    decide +kernel
  have literal : Lexeme.IsLiteral "-1.5".toList := by
    have digits : Lexeme.IsDigits ['1'] ∧ Lexeme.IsDigits ['5'] := by simp [Lexeme.IsDigits]
    exact .inr ⟨['-'], ['1'], ['.', '5'], .inr (.inr rfl), digits.1, .inr ⟨_, digits.2, rfl⟩,
      by decide⟩
  refine ⟨⟨field, ?_⟩, ⟨value, literal, ?_⟩, ended, ?_⟩
  · exact (comparison_cycle gradeCatalog false "grade>" 6).1 gradeField field (by decide)
  · exact (comparison_cycle gradeCatalog false "grade==x" 8).2.1 gradeField value "-1.5"
      (by decide) literal
  · exact (comparison_cycle gradeCatalog false "grade==\"A\"x" 11).2.2 ended "or" (by decide)

end ScoreFilter

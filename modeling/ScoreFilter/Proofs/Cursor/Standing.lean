import ScoreFilter.Proofs.Offer
import ScoreFilter.Proofs.Token.Reading

namespace ScoreFilter

variable {v : Vocabulary} {catalog : Catalog} {cs : List Char} {settled typed : List Piece}

def Lookback.atEnd (v : Vocabulary) (cs : List Char) : Lookback :=
  ofTokens (Token.ofChars v cs) (Text.byteLength cs)

-- How a text divides at its end: the pieces that are settled, and the lexeme still being typed.
inductive Divides (v : Vocabulary) (cs : List Char) : List Piece → List Piece → Prop where
  | idle {settled : List Piece} (whole : Piece.ofText v cs = settled)
      (ended : ∀ front kind text, settled = front ++ [.lexeme kind text] →
        text = ['('] ∨ text = ['.']) : Divides v cs settled []
  | typing {settled : List Piece} {kind : TokenKind} {text : List Char}
      (whole : Piece.ofText v cs = settled ++ [.lexeme kind text])
      (more : ¬ (text = ['('] ∨ text = ['.'])) : Divides v cs settled [.lexeme kind text]

theorem Divides.whole (divides : Divides v cs settled typed) :
    Piece.ofText v cs = settled ++ typed := by
  cases divides with
  | idle whole ended => rw [whole, List.append_nil]
  | typing whole more => exact whole

theorem Divides.text (divides : Divides v cs settled typed) :
    cs = Piece.textOf settled ++ Piece.textOf typed := by
  rw [← Piece.textOf_append, ← divides.whole]
  exact (Piece.flatMap_text_ofText v cs).symm

theorem Divides.input {input : String} {cursor : Nat}
    (before : Text.before cursor input.toList = cs) (divides : Divides v cs settled typed) :
    input.toList = Piece.textOf settled ++ Piece.textOf typed ++ Text.after cursor input.toList := by
  rw [← divides.text, ← before, Text.before_append_after]

theorem Divides.before_start {input : String} {cursor : Nat}
    (before : Text.before cursor input.toList = cs) (divides : Divides v cs settled typed) :
    Text.before (min (Text.byteLength (Piece.textOf settled)) (Text.clamp cursor input.toList))
      input.toList = Piece.textOf settled := by
  have least : min (Text.byteLength (Piece.textOf settled)) (Text.clamp cursor input.toList) =
      Text.byteLength (Piece.textOf settled) := by
    rw [Text.clamp, before, divides.text, Text.byteLength_append]
    omega
  rw [least, divides.input before, List.append_assoc, Text.before_append]

theorem exists_divides (v : Vocabulary) (cs : List Char) :
    ∃ settled typed, Divides v cs settled typed := by
  by_cases ended : ∀ front kind text, Piece.ofText v cs = front ++ [.lexeme kind text] →
      text = ['('] ∨ text = ['.']
  · exact ⟨_, _, .idle rfl ended⟩
  · simp only [Classical.not_forall] at ended
    obtain ⟨front, kind, text, whole, more⟩ := ended
    exact ⟨front, _, .typing whole more⟩

namespace Lookback

-- The token being typed is the last one, when it reaches to the cursor and no new word begins right
-- behind it.
theorem current_ofTokens {tokens : List Token} {cursor : Nat} {t : Token} :
    (ofTokens tokens cursor).current = some t ↔
      tokens.getLast? = some t ∧ t.stop = cursor ∧ t.text ≠ "(" ∧ t.text ≠ "." := by
  rw [ofTokens, ← List.head?_reverse]
  cases tokens.reverse with
  | nil => simp
  | cons last earlier =>
    simp only [List.head?_cons, Option.some.injEq]
    split
    · rename_i ended
      simp only [opensWord, Bool.and_eq_true, decide_eq_true_eq, Bool.not_eq_true',
        Bool.or_eq_false_iff, beq_eq_false_iff_ne] at ended
      constructor
      · intro same
        cases same
        exact ⟨rfl, ended⟩
      · rintro ⟨same, _⟩
        rw [same]
    · rename_i more
      constructor
      · intro none
        cases none
      · rintro ⟨rfl, ended, opening⟩
        refine absurd ?_ more
        simp [opensWord, ended, opening]

theorem opensWord_iff {kind : TokenKind} {text : List Char} {start stop : Nat} :
    opensWord ⟨kind, String.ofList text, start, stop⟩ = true ↔ text = ['('] ∨ text = ['.'] := by
  have spelled : ∀ s : String, String.ofList text = s ↔ text = s.toList := by
    intro s
    constructor
    · intro same
      rw [← same, String.toList_ofList]
    · intro same
      rw [same, String.ofList_toList]
  simp [opensWord, spelled]

theorem atEnd_idle (divides : Divides v cs settled []) :
    atEnd v cs = ⟨none, (Piece.place 0 settled).reverse⟩ := by
  have spelled := divides.text
  cases divides with
  | idle whole ended =>
    rw [atEnd, Token.ofChars, whole, spelled]
    rcases List.eq_nil_or_concat settled with rfl | ⟨front, p, rfl⟩
    · rfl
    · rw [List.concat_eq_append] at ended ⊢
      cases p with
      | gap c =>
        -- The last token ends before the gap.
        have tokens : Piece.place 0 (front ++ [.gap c]) = Piece.place 0 front := by
          simp [Piece.place_append, Piece.place]
        rw [tokens]
        cases reversed : (Piece.place 0 front).reverse with
        | nil => simp [ofTokens, reversed]
        | cons last earlier =>
          have member : last ∈ Piece.place 0 front := by
            rw [← List.mem_reverse, reversed]
            exact List.mem_cons_self ..
          have bounded := Piece.place_stop_le member
          have wide := c.utf8Size_pos
          have apart : last.stop ≠ Text.byteLength (Piece.textOf front) + c.utf8Size := by omega
          simp [ofTokens, reversed, Piece.text, apart]
      | lexeme kind text =>
        have opened : ∀ start stop, opensWord ⟨kind, String.ofList text, start, stop⟩ = true :=
          fun start stop => opensWord_iff.mpr (ended front kind text rfl)
        simp [ofTokens, Piece.place_append, Piece.place, opened]

theorem atEnd_typing {kind : TokenKind} {text : List Char}
    (divides : Divides v cs settled [.lexeme kind text]) :
    atEnd v cs = ⟨some ⟨kind, String.ofList text, Text.byteLength (Piece.textOf settled),
        Text.byteLength (Piece.textOf settled) + Text.byteLength text⟩,
      (Piece.place 0 settled).reverse⟩ := by
  have spelled := divides.text
  cases divides with
  | typing whole more =>
    have closed : ∀ start stop, opensWord ⟨kind, String.ofList text, start, stop⟩ = false :=
      fun start stop => Bool.eq_false_iff.mpr (mt opensWord_iff.mp more)
    rw [atEnd, Token.ofChars, whole, spelled]
    simp [ofTokens, Piece.place_append, Piece.place, Piece.text, closed]

-- The tokens before the one being typed are those of the settled pieces, and an
-- accepted suggestion takes the place of what comes after them.
theorem earlier_atEnd (divides : Divides v cs settled typed) :
    (atEnd v cs).earlier = (Piece.place 0 settled).reverse := by
  cases divides with
  | idle whole ended => rw [atEnd_idle (.idle whole ended)]
  | typing whole more => rw [atEnd_typing (.typing whole more)]

theorem start_atEnd (divides : Divides v cs settled typed) :
    (atEnd v cs).start (Text.byteLength cs) = Text.byteLength (Piece.textOf settled) := by
  have spelled := divides.text
  cases divides with
  | idle whole ended =>
    rw [atEnd_idle (.idle whole ended), start, spelled, Piece.textOf_nil, List.append_nil]
  | typing whole more => rw [atEnd_typing (.typing whole more), start]

theorem token?_settled {input : List Char} {cursor k : Nat} {t : Token}
    (divides : Divides v (Text.before cursor input) settled typed)
    (found : (Lookback.at v input cursor).token? (k + 1) = some t) : t ∈ Piece.place 0 settled := by
  have earlier : (Lookback.at v input cursor).earlier = (Piece.place 0 settled).reverse :=
    earlier_atEnd divides
  have listed : t ∈ (Lookback.at v input cursor).earlier :=
    List.mem_of_mem_drop (List.mem_of_mem_head? found)
  rw [earlier, List.mem_reverse] at listed
  exact listed

end Lookback

-- The token being typed has no part in the context.
theorem Context.ofLookback_eq {l l' : Lookback} (same : l.earlier = l'.earlier)
    (catalog : Catalog) : ofLookback l catalog = ofLookback l' catalog := by
  cases l with
  | mk current earlier =>
    cases same
    rfl

def Context.behind (catalog : Catalog) (settled : List Piece) : Context :=
  ofLookback ⟨none, (Piece.place 0 settled).reverse⟩ catalog

def offerBehind (v : Vocabulary) (catalog : Catalog) (explicit : Bool) (settled : List Piece) :
    Option Offer :=
  match Completion.suggestions? v catalog explicit (.behind catalog settled) with
  | none => none
  | some suggestions =>
    if suggestions.isEmpty && !explicit then none
    else some ⟨Text.byteLength (Piece.textOf settled), suggestions⟩

theorem context_behind {input : String} {cursor : Nat}
    (before : Text.before cursor input.toList = cs) (divides : Divides v cs settled typed) :
    Context.at v catalog input cursor = .behind catalog settled := by
  subst before
  exact Context.ofLookback_eq (Lookback.earlier_atEnd divides) catalog

-- The offer is decided by the settled pieces: neither the lexeme being typed nor the text after
-- the cursor has a say.
theorem complete_behind {input : String} {cursor : Nat} (explicit : Bool)
    (before : Text.before cursor input.toList = cs) (divides : Divides v cs settled typed) :
    complete v catalog explicit input cursor = offerBehind v catalog explicit settled := by
  have context : Context.at v catalog input cursor = .behind catalog settled :=
    context_behind before divides
  have start := Lookback.start_atEnd divides
  subst before
  rw [complete, offerBehind, ← context, ← start]
  rfl

theorem offerBehind_start {explicit : Bool} {offer : Offer}
    (found : offerBehind v catalog explicit settled = some offer) :
    offer.start = Text.byteLength (Piece.textOf settled) := by
  unfold offerBehind at found
  split at found
  · cases found
  · split at found
    · cases found
    · cases found
      rfl

theorem offerBehind_own {explicit : Bool} {own : List Suggestion} {layout : Layout}
    (some_own : own ≠ [])
    (decided : Completion.own? v catalog (.behind catalog settled) = some (own, layout)) :
    offerBehind v catalog explicit settled =
      some ⟨Text.byteLength (Piece.textOf settled),
        Completion.assemble own (Completion.generalSuggestions v catalog) layout⟩ := by
  have nonempty : (Completion.assemble own (Completion.generalSuggestions v catalog)
      layout).isEmpty = false := by
    rw [List.isEmpty_eq_false_iff]
    exact Completion.assemble_ne_nil some_own _ layout
  simp [offerBehind, Completion.suggestions?, decided, nonempty]

theorem offerBehind_beginning (explicit : Bool)
    (context : Context.behind catalog settled = .startOfExpression) :
    offerBehind .standard catalog explicit settled =
      some ⟨Text.byteLength (Piece.textOf settled),
        Completion.assemble (Completion.beginnings .standard catalog)
          (Completion.generalSuggestions .standard catalog) ⟨false, false, true⟩⟩ := by
  have functions : Vocabulary.standard.sampleFunctions ≠ [] := by decide
  apply offerBehind_own
  · simp [Completion.beginnings, functions]
  · rw [context]
    rfl

theorem Divides.blanks (n : Nat) :
    Divides .standard (List.replicate n ' ') (List.replicate n (.gap ' ')) [] := by
  have whole : Piece.ofText .standard (List.replicate n ' ') = List.replicate n (.gap ' ') := by
    induction n with
    | zero => rw [List.replicate_zero, Piece.ofText]; rfl
    | succ n ih =>
      rw [List.replicate_succ, List.replicate_succ, Piece.ofText_gap (by decide), ih]
  refine .idle whole ?_
  intro front kind text ended
  have member : Piece.lexeme kind text ∈ List.replicate n (.gap ' ') := by simp [ended]
  cases List.eq_of_mem_replicate member

theorem Context.behind_blanks (catalog : Catalog) (n : Nat) :
    behind catalog (List.replicate n (.gap ' ')) = .startOfExpression := by
  have empty : ∀ offset, Piece.place offset (List.replicate n (.gap ' ')) = [] := by
    induction n with
    | zero => exact fun _ => rfl
    | succ n ih => exact fun offset => ih _
  rw [behind, empty]
  rfl

end ScoreFilter

import ScoreFilter.Proofs.Cursor.DottedName
import ScoreFilter.Proofs.Token.Joining

namespace ScoreFilter

namespace Lookback

variable {t : Token}

theorem pointed_cut (other : t.kind ≠ .name) (plain : t.text ≠ ".") (n : Nat)
    (tokens earlier : List Token) :
    pointed (tokens.map (Token.shift n) ++ t :: earlier) = pointed tokens := by
  fun_induction pointed tokens with
  | case1 point part rest chained ih => simp [pointed, chained, ih]
  | case2 point part rest ended => simp [pointed, ended]
  | case3 tokens short =>
    rcases tokens with _ | ⟨point, _ | ⟨part, rest⟩⟩
    · exact pointed_eq_nil (by simpa using plain)
    · simp [pointed, other]
    · exact absurd rfl (short point part rest)

theorem dottedName?_cut (other : t.kind ≠ .name) (plain : t.text ≠ ".") (n : Nat)
    (tokens earlier : List Token) :
    dottedName? (tokens.map (Token.shift n) ++ t :: earlier) = dottedName? tokens := by
  cases tokens with
  | nil => simp [dottedName?, other]
  | cons u rest => simp [dottedName?, pointed_cut other plain]

end Lookback

namespace Context

variable {catalog : Catalog} {tokens earlier rest rest' : List Token} {t t' : Token}

-- All that the rules look at: the nearest token, the one before it, and the names that end there.
theorem ofLookback_congr (kind : t.kind = t'.kind) (text : t.text = t'.text)
    (name : Lookback.dottedName? (t :: rest) = Lookback.dottedName? (t' :: rest'))
    (name' : Lookback.dottedName? rest = Lookback.dottedName? rest')
    (point : t.text = "." → afterPoint rest.head? = afterPoint rest'.head?)
    (function : afterParenthesis rest.head? = afterParenthesis rest'.head?)
    (related : rest.head?.any (·.kind == .relation) = rest'.head?.any (·.kind == .relation)) :
    ofLookback ⟨none, t :: rest⟩ catalog = ofLookback ⟨none, t' :: rest'⟩ catalog := by
  have field : Lookback.field? ⟨none, t :: rest⟩ 1 catalog =
      Lookback.field? ⟨none, t' :: rest'⟩ 1 catalog := congrArg (Option.bind · catalog.get?) name
  have field' : Lookback.field? ⟨none, t :: rest⟩ 2 catalog =
      Lookback.field? ⟨none, t' :: rest'⟩ 2 catalog := congrArg (Option.bind · catalog.get?) name'
  have other : afterOther ⟨none, t :: rest⟩ catalog t =
      afterOther ⟨none, t' :: rest'⟩ catalog t' := by
    simp only [afterOther, kind, text, field', Lookback.token?, Lookback.back,
      List.drop_succ_cons, List.drop_zero, related]
  simp only [ofLookback, Lookback.token?, Lookback.back, List.drop_succ_cons, List.drop_zero,
    List.head?_cons, field, other, function]
  rw [text] at point ⊢
  split
  · exact point ‹_›
  · rfl

-- A logical word cuts off all that stands before it: what comes behind it is seen as at the
-- beginning of the text.
theorem ofLookback_connector (keyword : t.kind = .keyword) (listed : t.text ∈ connectors) (n : Nat)
    (first : ∀ u ∈ tokens.getLast?, u.text ≠ ".") :
    ofLookback ⟨none, tokens.map (Token.shift n) ++ t :: earlier⟩ catalog =
      ofLookback ⟨none, tokens⟩ catalog := by
  have named : t.kind ≠ .name := by simp [keyword]
  have other : ∀ mark : String, mark ∉ connectors → t.text ≠ mark := by
    rintro mark absent same
    exact absent (same ▸ listed)
  have plain := other "." (by decide)
  cases tokens with
  | nil =>
    have start : afterOther ⟨none, t :: earlier⟩ catalog t = .startOfExpression := by
      simp [afterOther, keyword, TokenKind.isLiteral, listed]
    rw [List.map_nil, List.nil_append,
      ofLookback_other plain (other "(" (by decide)) (other ")" (by decide)) named, start]
    rfl
  | cons u rest =>
    have name := Lookback.dottedName?_cut named plain n (u :: rest) earlier
    have name' := Lookback.dottedName?_cut named plain n rest earlier
    rw [List.map_cons, List.cons_append] at name ⊢
    cases rest with
    | nil =>
      refine ofLookback_congr rfl rfl name name' ?_ ?_ ?_
      · intro point
        exact absurd point (first u rfl)
      · simp [afterParenthesis, keyword]
      · simp [keyword]
    | cons v rest => exact ofLookback_congr rfl rfl name name' (fun _ => rfl) rfl rfl

end Context

variable {catalog : Catalog} {cs : List Char} {word : String}
  {settled typed front : List Piece} {c : Char}

theorem Divides.behind_gap (reading : Piece.Reading (front ++ [.gap c]) cs)
    (divides : Divides .standard cs settled typed) :
    Divides .standard (Piece.textOf (front ++ [.gap c]) ++ cs) (front ++ [.gap c] ++ settled)
      typed := by
  have whole := Piece.ofText_append reading
  rw [divides.whole] at whole
  cases divides with
  | idle _ ended =>
    rw [List.append_nil] at whole
    refine .idle whole ?_
    intro before kind text last
    rcases List.eq_nil_or_concat settled with rfl | ⟨inner, p, rfl⟩
    · rw [List.append_nil] at last
      cases (List.append_inj' last rfl).2
    · rw [List.concat_eq_append, ← List.append_assoc] at last
      obtain ⟨_, same⟩ := List.append_inj' last rfl
      refine ended inner kind text ?_
      rw [List.concat_eq_append, same]
  | typing _ more =>
    rw [← List.append_assoc] at whole
    exact .typing whole more

def Piece.joint (left : List Char) (word : String) : List Piece :=
  ofText .standard left ++ [.gap ' ', .lexeme .keyword word.toList] ++ [.gap ' ']

theorem Piece.textOf_joint (left : List Char) (word : String) :
    textOf (joint left word) = left ++ ' ' :: (word.toList ++ [' ']) := by
  simp [joint, Piece.text]

theorem Piece.reading_joint {left : List Char} (even : left.count '"' % 2 = 0)
    (connector : word ∈ Completion.connectors) (cs : List Char) :
    Reading (joint left word) cs := by
  have stop : Lexeme.Stops Lexeme.isWordChar (' ' :: cs) := Lexeme.stops_cons.mpr rfl
  have reads := Completion.reads_connector connector stop
  have apart : ¬ Lexeme.InAhead (word.toList ++ ' ' :: cs) := by
    rw [reads.inAhead_iff fun _ => stop]
    exact (Completion.connector_class connector).2.2.2.1
  have before : Reading (ofText .standard left) (' ' :: (word.toList ++ ' ' :: cs)) :=
    reading_blank_iff.mpr ⟨even, fun both => apart both.2⟩
  rw [joint, List.append_assoc]
  refine reading_append.mpr ⟨?_, rfl, ?_, rfl, trivial⟩
  · simpa [Piece.text] using before
  · simpa [Piece.text] using reads

theorem Context.behind_joint (left : List Char) (connector : word ∈ Completion.connectors)
    (first : ∀ t ∈ (Piece.place 0 settled).head?, t.text ≠ ".") :
    behind catalog (Piece.joint left word ++ settled) = behind catalog settled := by
  obtain ⟨t, keyword, spelled, joint⟩ : ∃ t : Token, t.kind = .keyword ∧ t.text = word ∧
      Piece.place 0 (Piece.joint left word) =
        Piece.place 0 (Piece.ofText .standard left) ++ [t] := by
    refine ⟨⟨.keyword, word, Text.byteLength left + 1,
      Text.byteLength left + 1 + Text.byteLength word.toList⟩, rfl, rfl, ?_⟩
    simp [Piece.joint, Piece.place_append, Piece.place, show ' '.utf8Size = 1 from rfl]
  have tokens : Piece.place 0 (Piece.joint left word ++ settled) =
      Piece.place 0 (Piece.ofText .standard left) ++ t ::
        (Piece.place 0 settled).map
          (Token.shift (Text.byteLength (Piece.textOf (Piece.joint left word)))) := by
    rw [Piece.place_append, joint, Nat.zero_add, ← Piece.place_shift, Nat.add_zero,
      List.append_assoc, List.singleton_append]
  have listed : t.text ∈ connectors := by
    rw [spelled]
    exact (Completion.connector_class connector).2.2.2.2
  rw [behind, tokens, List.reverse_append, List.reverse_cons, List.append_assoc,
    List.singleton_append, ← List.map_reverse]
  refine ofLookback_connector keyword listed _ ?_
  rw [List.getLast?_reverse]
  exact first

def Offer.shift (n : Nat) (o : Offer) : Offer :=
  { o with start := n + o.start }

def Edit.atEnd (text : String) : Edit :=
  ⟨text, Text.byteLength text.toList⟩

theorem Edit.context_atEnd {text : String} (divides : Divides .standard text.toList settled typed) :
    (atEnd text).context .standard catalog = .behind catalog settled :=
  context_behind (Text.before_byteLength _) divides

theorem Edit.offer?_atEnd {text : String} (explicit : Bool)
    (divides : Divides .standard text.toList settled typed) :
    (atEnd text).offer? .standard catalog explicit =
      offerBehind .standard catalog explicit settled :=
  complete_behind explicit (Text.before_byteLength _) divides

theorem offerBehind_append (v : Vocabulary) (explicit : Bool)
    (same : Context.behind catalog (front ++ settled) = .behind catalog settled) :
    offerBehind v catalog explicit (front ++ settled) =
      (offerBehind v catalog explicit settled).map
        (Offer.shift (Text.byteLength (Piece.textOf front))) := by
  unfold offerBehind
  rw [same]
  split
  · rfl
  · split
    · rfl
    · simp [Offer.shift]

-- Behind a logical word a condition is completed as if it stood alone.
theorem complete_after_connector (catalog : Catalog) (explicit : Bool) (p k u : String)
    (even : p.toList.count '"' % 2 = 0) (connector : k ∈ ["and", "or"])
    (first : ∀ t ∈ (Token.tokenize .standard u).head?, t.text ≠ ".") :
    (Edit.atEnd (p ++ " " ++ k ++ " " ++ u)).context .standard catalog =
        (Edit.atEnd u).context .standard catalog ∧
      (Edit.atEnd (p ++ " " ++ k ++ " " ++ u)).offer? .standard catalog explicit =
        ((Edit.atEnd u).offer? .standard catalog explicit).map
          (Offer.shift (Text.byteLength p.toList + Text.byteLength k.toList + 2)) := by
  obtain ⟨settled, typed, divides⟩ := exists_divides .standard u.toList
  have spelled := Piece.textOf_joint p.toList k
  have whole : (p ++ " " ++ k ++ " " ++ u).toList =
      Piece.textOf (Piece.joint p.toList k) ++ u.toList := by
    simp [spelled]
  have joined : Divides .standard (p ++ " " ++ k ++ " " ++ u).toList
      (Piece.joint p.toList k ++ settled) typed := by
    rw [whole]
    exact divides.behind_gap (Piece.reading_joint even connector u.toList)
  have length : Text.byteLength (Piece.textOf (Piece.joint p.toList k)) =
      Text.byteLength p.toList + Text.byteLength k.toList + 2 := by
    have blank : ' '.utf8Size = 1 := rfl
    simp only [spelled, Text.byteLength_append, Text.byteLength_cons, Text.byteLength_nil, blank]
    omega
  have same : Context.behind catalog (Piece.joint p.toList k ++ settled) =
      .behind catalog settled := by
    apply Context.behind_joint p.toList connector
    intro t member
    apply first
    rw [Token.tokenize, Token.ofChars, divides.whole, Piece.place_append, List.head?_append,
      Option.mem_def.mp member]
    rfl
  rw [Edit.context_atEnd joined, Edit.context_atEnd divides, Edit.offer?_atEnd explicit joined,
    Edit.offer?_atEnd explicit divides, ← length]
  exact ⟨same, offerBehind_append .standard explicit same⟩

-- Quotes and a dangling `not` before the logical word, an open quote behind it.
theorem complete_after_connector_open_quote :
    "\"a or\" == not".toList.count '"' % 2 = 0 ∧ "or" ∈ ["and", "or"] ∧
      (∀ t ∈ (Token.tokenize .standard "x > \"é").head?, t.text ≠ ".") ∧
      (Edit.atEnd ("\"a or\" == not" ++ " " ++ "or" ++ " " ++ "x > \"é")).context .standard .empty =
        (Edit.atEnd "x > \"é").context .standard .empty ∧
      (Edit.atEnd ("\"a or\" == not" ++ " " ++ "or" ++ " " ++ "x > \"é")).offer? .standard .empty
          false =
        ((Edit.atEnd "x > \"é").offer? .standard .empty false).map
          (Offer.shift (Text.byteLength "\"a or\" == not".toList +
            Text.byteLength "or".toList + 2)) := by
  have even : "\"a or\" == not".toList.count '"' % 2 = 0 := by decide
  have first : ∀ t ∈ (Token.tokenize .standard "x > \"é").head?, t.text ≠ "." := by decide +kernel
  have connector : "or" ∈ ["and", "or"] := by decide
  exact ⟨even, connector, first, complete_after_connector .empty false _ _ _ even connector first⟩

end ScoreFilter

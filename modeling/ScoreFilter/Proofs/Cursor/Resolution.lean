import ScoreFilter.Proofs.Catalog
import ScoreFilter.Proofs.Cursor.Connector
import ScoreFilter.Proofs.Cursor.Truncation

namespace ScoreFilter

namespace Lookback

variable {l : Lookback} {tokens : List Token} {t : Token} {name : String} {cursor k n : Nat}

def Typing (tokens : List Token) (cursor : Nat) : Prop :=
  ∃ t, tokens.getLast? = some t ∧ t.stop = cursor ∧ t.text ≠ "(" ∧ t.text ≠ "."

-- Counted back from the `k`-th token there is a name at every other place, `n` more than the one,
-- and a point between each two.
structure Runs (l : Lookback) (k n : Nat) : Prop where
  named : ∀ i ≤ n, ∃ t ∈ l.token? (k + 2 * i), t.kind = .name
  divided : ∀ i < n, ∃ t ∈ l.token? (k + 2 * i + 1), t.text = "."

structure LongestRun (l : Lookback) (k n : Nat) : Prop where
  runs : l.Runs k n
  longest : ∀ m, l.Runs k m → m ≤ n

def texts (l : Lookback) (k n : Nat) : List String :=
  ((List.range (n + 1)).filterMap fun i => (l.token? (k + 2 * i)).map Token.text).reverse

theorem token?_typing (typing : Typing tokens cursor) (k : Nat) :
    (ofTokens tokens cursor).token? k = tokens.reverse[k]? := by
  obtain ⟨t, last⟩ := typing
  have current := current_ofTokens.mpr last
  rw [← seen_ofTokens tokens cursor]
  cases k with
  | zero => simp [token?, back, seen, current]
  | succ k => simp [token?, back, seen, current]

theorem token?_idle (idle : ¬ Typing tokens cursor) (k : Nat) :
    (ofTokens tokens cursor).token? 0 = none ∧
      (ofTokens tokens cursor).token? (k + 1) = tokens.reverse[k]? := by
  have current : (ofTokens tokens cursor).current = none := by
    cases found : (ofTokens tokens cursor).current with
    | none => rfl
    | some t => exact absurd ⟨t, current_ofTokens.mp found⟩ idle
  rw [← seen_ofTokens tokens cursor]
  simp [token?, back, seen, current]

theorem token?_add (found : l.token? k = some t) (j : Nat) : l.token? (k + j) = (l.back k)[j]? := by
  cases k with
  | succ k => simp [token?, back, Nat.succ_add]
  | zero =>
    cases current : l.current with
    | none => simp [token?, back, current] at found
    | some t =>
      cases j with
      | zero => simp [token?, back, current]
      | succ j => simp [token?, back, current]

theorem le_length_pointed_iff : n ≤ (pointed tokens).length ↔
    ∀ i < n, (∃ t ∈ tokens[2 * i]?, t.text = ".") ∧ ∃ t ∈ tokens[2 * i + 1]?, t.kind = .name := by
  cases n with
  | zero => simp
  | succ n =>
    fun_induction pointed tokens generalizing n with
    | case1 point part rest both ih =>
      rw [List.length_cons, Nat.succ_le_succ_iff, Nat.forall_lt_succ_left]
      cases n with
      | zero => simp [both]
      | succ n => simpa [Nat.mul_add, both] using ih n
    | case2 point part rest other =>
      -- The walk stops, and indeed its first step is not one.
      refine ⟨fun more => absurd more (Nat.not_succ_le_zero n), fun steps => absurd ?_ other⟩
      simpa using steps 0 (Nat.succ_pos n)
    | case3 tokens short =>
      refine ⟨fun more => absurd more (Nat.not_succ_le_zero n), fun steps => ?_⟩
      obtain ⟨_, part, found, _⟩ := steps 0 (Nat.succ_pos n)
      rcases tokens with _ | ⟨point, _ | ⟨part, rest⟩⟩
      · cases found
      · cases found
      · exact absurd rfl (short point part rest)

theorem getElem?_pointed {i : Nat} (inside : i < (pointed tokens).length) :
    (pointed tokens)[i]? = tokens[2 * i + 1]?.map Token.text := by
  fun_induction pointed tokens generalizing i with
  | case1 point part rest both ih =>
    cases i with
    | zero => simp
    | succ i => simpa [Nat.mul_add] using ih (Nat.lt_of_succ_lt_succ inside)
  | case2 => cases inside
  | case3 => cases inside

theorem runs_iff {rest : List Token} (standing : l.back k = t :: rest) :
    l.Runs k n ↔ t.kind = .name ∧ n ≤ (pointed rest).length := by
  have found : l.token? k = some t := by rw [token?, standing, List.head?_cons]
  have place : ∀ j, l.token? (k + j) = (t :: rest)[j]? := by
    intro j
    rw [token?_add found, standing]
  rw [le_length_pointed_iff]
  constructor
  · rintro ⟨named, divided⟩
    refine ⟨by simpa [found] using named 0 (Nat.zero_le n), fun i less => ?_⟩
    have point := divided i less
    have name := named (i + 1) less
    rw [Nat.add_assoc, place] at point
    rw [place] at name
    exact ⟨by simpa using point, by simpa [Nat.mul_add] using name⟩
  · rintro ⟨first, steps⟩
    constructor
    · intro i less
      rw [place]
      cases i with
      | zero => simpa using first
      | succ i => simpa [Nat.mul_add] using (steps i less).2
    · intro i less
      rw [Nat.add_assoc, place]
      simpa using (steps i less).1

theorem texts_eq {rest : List Token} (standing : l.back k = t :: rest) :
    l.texts k (pointed rest).length = (t.text :: pointed rest).reverse := by
  have found : l.token? k = some t := by rw [token?, standing, List.head?_cons]
  have each : (List.range ((pointed rest).length + 1)).map
      (fun i => (l.token? (k + 2 * i)).map Token.text) = (t.text :: pointed rest).map some := by
    apply List.ext_getElem (by simp)
    intro i less less'
    rw [List.getElem_map, List.getElem_map, List.getElem_range, token?_add found, standing]
    cases i with
    | zero => rfl
    | succ i =>
      have inside : i < (pointed rest).length := by simpa using less
      have part := getElem?_pointed inside
      rw [List.getElem?_eq_getElem inside] at part
      simpa [Nat.mul_add] using part.symm
  have kept := congrArg (List.filterMap id) each
  rw [List.filterMap_map, List.filterMap_map] at kept
  rw [texts]
  congr 1
  simpa [Function.comp_def] using kept

-- The walk goes back over the longest run and no further.
theorem qualifiedName?_eq_some_iff : l.qualifiedName? k = some name ↔
    ∃ n, l.LongestRun k n ∧ name = String.intercalate "." (l.texts k n) := by
  rw [qualifiedName?]
  cases standing : l.back k with
  | nil =>
    constructor
    · intro none
      cases none
    · rintro ⟨n, longest, _⟩
      obtain ⟨t, found, _⟩ := longest.runs.named 0 (Nat.zero_le n)
      simp [token?, standing] at found
  | cons t rest =>
    have runs : ∀ {m}, l.Runs k m ↔ t.kind = .name ∧ m ≤ (pointed rest).length :=
      runs_iff standing
    constructor
    · intro spelled
      by_cases named : t.kind = .name
      · refine ⟨(pointed rest).length, ⟨runs.mpr ⟨named, Nat.le_refl _⟩, ?_⟩, ?_⟩
        · exact fun m run => (runs.mp run).2
        · simpa [dottedName?, named, texts_eq standing] using spelled.symm
      · simp [dottedName?, named] at spelled
    · rintro ⟨n, longest, rfl⟩
      obtain ⟨named, less⟩ := runs.mp longest.runs
      have more := longest.longest _ (runs.mpr ⟨named, Nat.le_refl _⟩)
      rw [Nat.le_antisymm less more, texts_eq standing, dottedName?, if_pos named]

theorem qualifiedName?_ne_none_iff :
    l.qualifiedName? k ≠ none ↔ ∃ t, l.token? k = some t ∧ t.kind = .name := by
  rw [qualifiedName?, token?]
  cases l.back k with
  | nil => simp [dottedName?]
  | cons t rest => simp [dottedName?]

theorem field?_eq_some_iff {catalog : Catalog} {f : Field} :
    l.field? k catalog = some f ↔ f ∈ catalog.fields ∧ l.qualifiedName? k = some f.name := by
  rw [field?, Option.bind_eq_some_iff]
  simp only [Catalog.get?_eq_some_iff]
  constructor
  · rintro ⟨name, spelled, listed, rfl⟩
    exact ⟨listed, spelled⟩
  · rintro ⟨listed, spelled⟩
    exact ⟨f.name, spelled, listed, rfl⟩

theorem exists_name {catalog : Catalog} {f : Field} (found : l.field? k catalog = some f) :
    ∃ t, l.token? k = some t ∧ t.kind = .name := by
  apply qualifiedName?_ne_none_iff.mp
  rw [(field?_eq_some_iff.mp found).2]
  exact Option.some_ne_none _

theorem mem_of_token? (found : (ofTokens tokens cursor).token? k = some t) : t ∈ tokens := by
  have listed : ∀ j, tokens.reverse[j]? = some t → t ∈ tokens :=
    fun j there => List.mem_reverse.mp (List.mem_of_getElem? there)
  by_cases typing : Typing tokens cursor
  · rw [token?_typing typing] at found
    exact listed k found
  · cases k with
    | zero =>
      rw [(token?_idle typing 0).1] at found
      cases found
    | succ k =>
      rw [(token?_idle typing k).2] at found
      exact listed k found

end Lookback

theorem Piece.exists_split {v : Vocabulary} {cs : List Char} {kind : TokenKind} {text : List Char}
    (member : .lexeme kind text ∈ ofText v cs) :
    ∃ here rest, Lexeme.split? v here = some ⟨kind, text, rest⟩ := by
  fun_induction ofText v cs with
  | case1 cs s found ih =>
    rcases List.mem_cons.mp member with same | later
    · cases same
      exact ⟨cs, s.rest, (Lexeme.proper?_eq_some.mp found).1⟩
    · exact ih later
  | case2 => cases member
  | case3 c rest refused ih =>
    rcases List.mem_cons.mp member with same | later
    · cases same
    · exact ih later

theorem Lexeme.isWord_name? {cs : List Char} {s : Split} (found : name? cs = some s) :
    isWord s.text = true := by
  unfold name? at found
  split at found
  · cases found
  · split at found
    · rename_i start
      cases found
      simp only [isWord, start, Bool.true_and]
      exact List.all_takeWhile
    · cases found

-- No name and no relation is spelled like a mark that decides a context by itself.
theorem Token.ne_mark {v : Vocabulary} {cs : List Char} {t : Token} (member : t ∈ ofChars v cs)
    (kind : t.kind = .name ∨ t.kind = .relation) :
    t.text ≠ "." ∧ t.text ≠ "(" ∧ t.text ≠ ")" := by
  obtain ⟨front, kind', text, back, pieces, rfl⟩ := Piece.mem_place.mp member
  have lexeme : Piece.lexeme kind' text ∈ Piece.ofText v cs := by simp [pieces]
  obtain ⟨here, rest, found⟩ := Piece.exists_split lexeme
  have read := Lexeme.split?_rule found
  have other : ∀ mark : List Char, Lexeme.isWord mark = false → mark ∉ Lexeme.relations →
      text ≠ mark := by
    rintro mark plain unlisted rfl
    rcases kind with rfl | rfl
    · rw [Lexeme.isWord_name? read] at plain
      cases plain
    · exact unlisted (Lexeme.relation?_eq_some read).2.1
  simp only [ne_eq, ← String.toList_inj, String.toList_ofList]
  exact ⟨other _ (by decide) (by decide), other _ (by decide) (by decide),
    other _ (by decide) (by decide)⟩

namespace Context

variable {catalog : Catalog} {l : Lookback} {t : Token} {f : Field}

theorem afterPoint_field? (scorer : Option Token) : (afterPoint scorer).field? = none := by
  cases scorer <;> rfl

theorem afterParenthesis_field? (function : Option Token) :
    (afterParenthesis function).field? = none := by
  unfold afterParenthesis
  split <;> rfl

theorem afterRelation_field? (field : Option Field) : (afterRelation field).field? = field := by
  cases field with
  | none => rfl
  | some f =>
    simp only [afterRelation]
    split <;> rfl

theorem afterOther_field? (named : (afterOther l catalog t).field? = some f) :
    t.kind = .relation ∧ l.field? 2 catalog = some f ∧
      afterOther l catalog t = afterRelation (some f) := by
  unfold afterOther at named ⊢
  split at named
  · rename_i related
    rw [afterRelation_field?] at named
    exact ⟨related, named, by rw [if_pos related, named]⟩
  · split at named
    · cases named
    · split at named <;> cases named

theorem ofLookback_field? (named : (ofLookback l catalog).field? = some f) :
    (l.field? 1 catalog = some f ∧ ofLookback l catalog = .afterField f) ∨
      ((∃ t, l.token? 1 = some t ∧ t.kind = .relation) ∧ l.field? 2 catalog = some f ∧
        ofLookback l catalog = afterRelation (some f)) := by
  generalize context : ofLookback l catalog = c at named ⊢
  unfold ofLookback at context
  split at context
  · subst context
    cases named
  · rename_i t last
    split at context
    · subst context
      simp [afterPoint_field?] at named
    · split at context
      · subst context
        simp [afterParenthesis_field?] at named
      · split at context
        · subst context
          cases named
        · split at context
          · rename_i f' found
            subst context
            cases named
            exact .inl ⟨found, rfl⟩
          · subst context
            obtain ⟨related, found, same⟩ := afterOther_field? named
            exact .inr ⟨⟨t, last, related⟩, found, same⟩

theorem ofLookback_related (last : l.token? 1 = some t)
    (plain : t.text ≠ "." ∧ t.text ≠ "(" ∧ t.text ≠ ")") (related : t.kind = .relation) :
    ofLookback l catalog = afterRelation (l.field? 2 catalog) := by
  have nameless : l.field? 1 catalog = none := by
    cases found : l.field? 1 catalog with
    | none => rfl
    | some f =>
      obtain ⟨t', last', named⟩ := Lookback.exists_name found
      rw [last, Option.some.injEq] at last'
      rw [← last', related] at named
      cases named
  simp only [ofLookback, last, plain, nameless, afterOther, related, if_false, if_true]

theorem afterRelation_eq_category : afterRelation (some f) = .categoryValue f ↔
    f.categories? ≠ none := by
  cases categories : f.categories? <;> simp [afterRelation, categories]

theorem afterRelation_eq_scalar : afterRelation (some f) = .scalarValue f ↔
    f.categories? = none := by
  cases categories : f.categories? <;> simp [afterRelation, categories]

-- Neither names nor relations are taken for marks by the rules that come first.
def Plain (l : Lookback) : Prop :=
  ∀ t, l.token? 1 = some t → t.kind = .name ∨ t.kind = .relation →
    t.text ≠ "." ∧ t.text ≠ "(" ∧ t.text ≠ ")"

theorem ofLookback_eq_field_iff (plain : Plain l) : ofLookback l catalog = .afterField f ↔
    f ∈ catalog.fields ∧ l.qualifiedName? 1 = some f.name := by
  rw [← Lookback.field?_eq_some_iff]
  constructor
  · intro context
    rcases ofLookback_field? (by rw [context]; rfl) with ⟨found, _⟩ | ⟨_, _, same⟩
    · exact found
    · rw [context] at same
      cases categories : f.categories? <;> simp [afterRelation, categories] at same
  · intro found
    obtain ⟨t, last, named⟩ := Lookback.exists_name found
    obtain ⟨point, opening, closing⟩ := plain t last (.inl named)
    exact ofLookback_found last point opening closing found

theorem ofLookback_eq_value_iff (plain : Plain l) {value : Context} (named : value.field? = some f)
    (other : value ≠ .afterField f) : ofLookback l catalog = value ↔
      f ∈ catalog.fields ∧ l.qualifiedName? 2 = some f.name ∧
        (∃ t, l.token? 1 = some t ∧ t.kind = .relation) ∧ afterRelation (some f) = value := by
  constructor
  · intro context
    rcases ofLookback_field? (by rw [context]; exact named) with ⟨_, same⟩ | ⟨last, found, same⟩
    · exact absurd (context.symm.trans same) other
    · obtain ⟨listed, spelled⟩ := Lookback.field?_eq_some_iff.mp found
      exact ⟨listed, spelled, last, same.symm.trans context⟩
  · rintro ⟨listed, spelled, ⟨t, last, related⟩, rfl⟩
    have found := Lookback.field?_eq_some_iff.mpr ⟨listed, spelled⟩
    rw [ofLookback_related last (plain t last (.inr related)) related, found]

structure Resolves (catalog : Catalog) (l : Lookback) (f : Field) : Prop where
  afterField : ofLookback l catalog = .afterField f ↔
    f ∈ catalog.fields ∧ l.qualifiedName? 1 = some f.name
  categoryValue : ofLookback l catalog = .categoryValue f ↔
    f ∈ catalog.fields ∧ l.qualifiedName? 2 = some f.name ∧
      (∃ t, l.token? 1 = some t ∧ t.kind = .relation) ∧ f.categories? ≠ none
  scalarValue : ofLookback l catalog = .scalarValue f ↔
    f ∈ catalog.fields ∧ l.qualifiedName? 2 = some f.name ∧
      (∃ t, l.token? 1 = some t ∧ t.kind = .relation) ∧ f.categories? = none

theorem Plain.resolves (plain : Plain l) (catalog : Catalog) (f : Field) :
    Resolves catalog l f where
  afterField := ofLookback_eq_field_iff plain
  categoryValue := by
    rw [ofLookback_eq_value_iff plain rfl (by simp), afterRelation_eq_category]
  scalarValue := by
    rw [ofLookback_eq_value_iff plain rfl (by simp), afterRelation_eq_scalar]

end Context

-- A dotted name is there exactly behind a name, and goes back over the longest run of names with
-- points between them. Among the tokens of a text it is what a field is found by, at the last token
-- or before a relation.
theorem Lookback.qualifiedName_resolved (tokens : List Token) (cursor k : Nat) :
    (Typing tokens cursor → (ofTokens tokens cursor).token? k = tokens.reverse[k]?) ∧
      (¬ Typing tokens cursor → (ofTokens tokens cursor).token? 0 = none ∧
        (ofTokens tokens cursor).token? (k + 1) = tokens.reverse[k]?) ∧
      ((ofTokens tokens cursor).qualifiedName? k ≠ none ↔
        ∃ t, (ofTokens tokens cursor).token? k = some t ∧ t.kind = .name) ∧
      (∀ name, (ofTokens tokens cursor).qualifiedName? k = some name ↔
        ∃ n, (ofTokens tokens cursor).LongestRun k n ∧
          name = String.intercalate "." ((ofTokens tokens cursor).texts k n)) ∧
      ∀ v cs, tokens = Token.ofChars v cs → ∀ catalog f,
        Context.Resolves catalog (ofTokens tokens cursor) f := by
  refine ⟨fun typing => token?_typing typing k, fun idle => token?_idle idle k,
    qualifiedName?_ne_none_iff, fun name => qualifiedName?_eq_some_iff, ?_⟩
  rintro v cs rfl catalog f
  have plain : Context.Plain (ofTokens (Token.ofChars v cs) cursor) := by
    intro t last kind
    exact Token.ne_mark (mem_of_token? last) kind
  exact plain.resolves catalog f

-- The walk passes over gaps and stops at the function before the point.
example : (Lookback.at .standard "x and abs.a . b\u2003.c > ".toList 25).qualifiedName? 2 =
    some "a.b.c" := by
  decide +kernel

end ScoreFilter

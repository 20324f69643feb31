import ScoreFilter.Report.Completions
import ScoreFilter.Report.Diagnostics
import ScoreFilter.Report.Tokens
import ScoreFilter.Report.Words

namespace ScoreFilter

namespace Report

variable {text colored plain : List Char}

def afterSequence? : List Char → Option (List Char)
  | '\x1b' :: '[' :: cs =>
    match cs.takeWhile Char.isDigit, cs.dropWhile Char.isDigit with
    | _ :: _, 'm' :: rest => some rest
    | _, _ => none
  | _ => none

theorem afterSequence?_shorter {cs rest : List Char} (found : afterSequence? cs = some rest) :
    rest.length < cs.length := by
  unfold afterSequence? at found
  split at found
  · rename_i body
    split at found
    · rename_i ending
      cases found
      have length := congrArg List.length ending
      have bound := (List.dropWhile_sublist Char.isDigit (l := body)).length_le
      simp only [List.length_cons] at length ⊢
      omega
    · cases found
  · cases found

def erase (cs : List Char) : List Char :=
  match _ : afterSequence? cs with
  | some rest => erase rest
  | none =>
    match cs with
    | [] => []
    | c :: rest => c :: erase rest
termination_by cs.length
decreasing_by
  · exact afterSequence?_shorter ‹_›
  · simp

def unpaint (table : String) : String :=
  String.ofList (erase table.toList)

-- No sequence can begin in the text.
def Plain (text : List Char) : Prop :=
  '\x1b' ∉ text

instance (text : List Char) : Decidable (Plain text) :=
  inferInstanceAs (Decidable (_ ∉ _))

theorem erase_nil : erase [] = [] := by
  rw [erase]
  rfl

theorem erase_cons {c : Char} (other : c ≠ '\x1b') (cs : List Char) :
    erase (c :: cs) = c :: erase cs := by
  have refused : afterSequence? (c :: cs) = none := by
    unfold afterSequence?
    split
    · rename_i same
      exact absurd (List.cons.inj same).1 other
    · rfl
  rw [erase]
  split
  · rename_i found
    rw [refused] at found
    cases found
  · rfl

theorem erase_sequence {parameter : List Char} (nonempty : parameter ≠ [])
    (all : parameter.all Char.isDigit = true) (rest : List Char) :
    erase (sequence parameter ++ rest) = erase rest := by
  have digits := List.all_eq_true.mp all
  have taken : (parameter ++ 'm' :: rest).takeWhile Char.isDigit = parameter := by
    rw [List.takeWhile_append_of_pos digits, List.takeWhile_cons_of_neg (by decide),
      List.append_nil]
  have dropped : (parameter ++ 'm' :: rest).dropWhile Char.isDigit = 'm' :: rest := by
    rw [List.dropWhile_append_of_pos digits, List.dropWhile_cons_of_neg (by decide)]
  have spelled : sequence parameter ++ rest = '\x1b' :: '[' :: (parameter ++ 'm' :: rest) := by
    simp [sequence]
  obtain ⟨d, ds, rfl⟩ := List.exists_cons_of_ne_nil nonempty
  have found : afterSequence? (sequence (d :: ds) ++ rest) = some rest := by
    simp only [spelled, afterSequence?, taken, dropped]
  rw [erase]
  split
  · rename_i found'
    rw [found] at found'
    cases found'
    rfl
  · rename_i refused
    rw [found] at refused
    cases refused

@[simp]
theorem plain_nil : Plain [] := List.not_mem_nil

@[simp]
theorem plain_cons {c : Char} : Plain (c :: text) ↔ c ≠ '\x1b' ∧ Plain text := by
  simp [Plain, eq_comm]

@[simp]
theorem plain_append {left right : List Char} :
    Plain (left ++ right) ↔ Plain left ∧ Plain right := by
  simp [Plain]

theorem plain_replicate {c : Char} (n : Nat) (other : c ≠ '\x1b') :
    Plain (List.replicate n c) := by
  intro member
  exact other (List.mem_replicate.mp member).2.symm

@[simp]
theorem plain_padRight {width : Nat} : Plain (padRight width text) ↔ Plain text := by
  simp [padRight, plain_replicate]

theorem Plain.truncate (free : Plain text) (width : Nat) : Plain (truncate width text) := by
  unfold Report.truncate
  split
  · have front : Plain (text.take (width - 3)) := fun member => free (List.mem_of_mem_take member)
    simp [front]
  · exact free

@[simp]
theorem plain_digits (n : Nat) : Plain (Decimal.digits n) := by
  intro member
  cases Decimal.isDigit_of_mem_digits member

@[simp]
theorem plain_span (start stop : Nat) : Plain (span start stop) := by
  simp [span]

-- Without its sequences the first text is the second, whatever comes behind it.
def Erases (colored plain : List Char) : Prop :=
  ∀ rest, erase (colored ++ rest) = plain ++ erase rest

theorem Erases.append {colored' plain' : List Char} (first : Erases colored plain)
    (second : Erases colored' plain') : Erases (colored ++ colored') (plain ++ plain') := by
  intro rest
  rw [List.append_assoc, first, second, List.append_assoc]

theorem Plain.erases (free : Plain text) : Erases text text := by
  intro rest
  induction text with
  | nil => rfl
  | cons c text ih =>
    obtain ⟨other, later⟩ := plain_cons.mp free
    rw [List.cons_append, erase_cons other, ih later, List.cons_append]

theorem Ink.erases_paint (ink : Ink) (inside : Erases colored plain) :
    Erases (ink.paint colored) plain := by
  have switches : Erases (sequence ink.on) [] ∧ Erases (sequence ink.off) [] := by
    constructor <;> intro rest <;> cases ink <;>
      exact erase_sequence (by decide) (by decide) rest
  have wrapped := (switches.1.append inside).append switches.2
  rwa [List.nil_append, List.append_nil] at wrapped

theorem erases_painted (free : Plain text) (inks : List Ink) :
    Erases (painted true inks text) text := by
  induction inks with
  | nil => exact free.erases
  | cons ink inks ih => exact ink.erases_paint ih

theorem erases_columns {first second third : List Char} (left : Plain first)
    (middle : Plain second) (right : Plain third) (inks : List Ink) :
    Erases (columns first (painted true inks second) third) (columns first second third) := by
  have front : Erases (first ++ [' ']) (first ++ [' ']) := Plain.erases (by simp [left])
  have back : Erases (' ' :: third) (' ' :: third) := Plain.erases (by simp [right])
  have whole := (front.append (erases_painted middle inks)).append back
  simpa [columns] using whole

def Unpaints (colored plain : List Line) : Prop :=
  Erases (colored.flatMap (· ++ ['\n'])) (plain.flatMap (· ++ ['\n']))

namespace Unpaints

variable {line line' : Line} {lines lines' more more' : List Line}

theorem nil : Unpaints [] [] := Plain.erases plain_nil

theorem cons (first : Erases line line') (later : Unpaints lines lines') :
    Unpaints (line :: lines) (line' :: lines') := by
  have ended : Erases ['\n'] ['\n'] := Plain.erases (by decide)
  exact (first.append ended).append later

theorem append (first : Unpaints lines lines') (second : Unpaints more more') :
    Unpaints (lines ++ more) (lines' ++ more') := by
  unfold Unpaints
  rw [List.flatMap_append, List.flatMap_append]
  exact Erases.append first second

theorem flatMap {α : Type} {f g : α → List Line} {l : List α}
    (each : ∀ a ∈ l, Unpaints (f a) (g a)) : Unpaints (l.flatMap f) (l.flatMap g) := by
  induction l with
  | nil => exact nil
  | cons a l ih =>
    have later := ih fun b member => each b (List.mem_cons_of_mem a member)
    exact (each a (List.mem_cons_self ..)).append later

theorem map {α : Type} {f g : α → Line} {l : List α} (each : ∀ a ∈ l, Erases (f a) (g a)) :
    Unpaints (l.map f) (l.map g) := by
  rw [List.map_eq_flatMap, List.map_eq_flatMap]
  exact flatMap fun a member => cons (each a member) nil

theorem same (free : ∀ line ∈ lines, Plain line) : Unpaints lines lines := by
  have each := map fun line member => (free line member).erases
  rwa [List.map_id'] at each

theorem table (unpainted : Unpaints lines lines') : unpaint (render lines) = render lines' := by
  have whole := unpainted []
  rw [List.append_nil, erase_nil, List.append_nil] at whole
  rw [unpaint, render, render, String.toList_ofList, whole]

end Unpaints

theorem unpaints_tokenLines {tokens : List Token} (free : ∀ t ∈ tokens, Plain t.text.toList) :
    Unpaints (tokenLines true tokens) (tokenLines false tokens) := by
  have labels : ∀ kind : TokenKind, Plain kind.label.toList := by
    intro kind
    cases kind <;> decide
  cases tokens with
  | nil => exact .cons (Plain.erases (by decide)) .nil
  | cons t rest =>
    refine .cons (erases_painted (by decide) _) (.map fun t member => ?_)
    exact erases_columns (by simp) (by simp [labels]) (free t member) _

theorem erases_suggestionRow {s : Suggestion} (label : Plain s.label.toList)
    (info : Plain (s.info.getD "").toList) :
    Erases (suggestionRow true s) (suggestionRow false s) := by
  have kind : Plain s.kind.label.toList := by cases s.kind <;> decide
  have shown : Plain (shownLabel s) := by
    unfold shownLabel
    split <;> simp [label]
  exact erases_columns (by simp [shown.truncate]) (by simp [kind]) (info.truncate _) _

theorem unpaints_suggestionRows {list : List Suggestion}
    (free : ∀ s ∈ list, Plain s.label.toList ∧ Plain (s.info.getD "").toList)
    (separated : Bool) :
    Unpaints (suggestionRows true separated list) (suggestionRows false separated list) := by
  induction list generalizing separated with
  | nil => exact .nil
  | cons s list ih =>
    obtain ⟨label, info⟩ := free s (List.mem_cons_self ..)
    have row := erases_suggestionRow label info
    have later := ih fun t member => free t (List.mem_cons_of_mem s member)
    unfold suggestionRows
    split
    · exact .cons (erases_painted (by decide) _) (.cons row (later true))
    · exact .cons row (later separated)

theorem unpaints_offerLines {offer : Option Offer}
    (free : ∀ o ∈ offer, ∀ s ∈ o.suggestions,
      Plain s.label.toList ∧ Plain (s.info.getD "").toList) :
    Unpaints (offerLines true offer) (offerLines false offer) := by
  unfold offerLines
  split
  · exact .cons (Plain.erases (by decide)) .nil
  · rename_i o found
    have member := (Option.filter_eq_some_iff.mp found).1
    have place : Plain ("Replace from byte ".toList ++ Decimal.digits o.start) := by
      rw [plain_append]
      exact ⟨by decide, plain_digits _⟩
    refine .cons place.erases (.cons plain_nil.erases (.cons ?_ ?_))
    · exact erases_painted (by decide) _
    · exact unpaints_suggestionRows (free o member) false

-- Both tables of an edit are there, or neither is.
theorem unpaint_editTable? {e : Edit} (free : Plain e.text.toList) :
    (editTable? true e).map unpaint = editTable? false e := by
  have blanks : Plain (List.replicate (column e) ' ' ++ ['^']) := by
    rw [plain_append]
    exact ⟨plain_replicate _ (by decide), by decide⟩
  have lines := Unpaints.cons free.erases (.cons (erases_painted blanks [.green]) .nil)
  unfold editTable? editLines? caret?
  split
  · exact congrArg some lines.table
  · rfl

theorem plain_underline {cs : List Char} (free : Plain cs) (start stop : Nat) :
    ∀ line ∈ underline cs start stop, Plain line := by
  unfold underline
  dsimp only
  split
  · simp [free, plain_replicate]
  · simp

theorem unpaints_diagnosticsLines {expression : String} {ds : List Diagnostic}
    (free : Plain expression.toList) (messages : ∀ d ∈ ds, Plain d.message.toList) :
    Unpaints (diagnosticsLines true expression ds) (diagnosticsLines false expression ds) := by
  have labels : ∀ severity : Severity, Plain severity.label.toList := by
    intro severity
    cases severity <;> decide
  cases ds with
  | nil => exact .cons (Plain.erases (by decide)) .nil
  | cons d rest =>
    refine .cons (erases_painted (by decide) _) (.flatMap fun d member => ?_)
    refine .cons ?_ (.same (plain_underline free d.start d.stop))
    exact erases_columns (by simp) (by simp [labels]) (messages d member) _

end Report

def Vocabulary.Plain (v : Vocabulary) : Prop :=
  (∀ k ∈ v.keywords, Report.Plain k.name.toList ∧ Report.Plain k.description.toList) ∧
    (∀ f ∈ v.mathFunctions, Report.Plain f.name.toList ∧ Report.Plain f.description.toList) ∧
    (∀ f ∈ v.sampleFunctions, Report.Plain f.name.toList ∧ Report.Plain f.description.toList) ∧
    ∀ c ∈ v.comparators, Report.Plain c.symbol.toList ∧ Report.Plain c.description.toList

instance (v : Vocabulary) : Decidable v.Plain :=
  inferInstanceAs (Decidable (_ ∧ _ ∧ _ ∧ _))

namespace Report

theorem plain_wordRow {word description : String}
    (free : Plain word.toList ∧ Plain description.toList) : Plain (wordRow word description) := by
  simp [wordRow, free]

theorem unpaints_functionLines {fs : List Builtin}
    (free : ∀ f ∈ fs, Plain f.name.toList ∧ Plain f.description.toList) :
    Unpaints (functionLines true fs) (functionLines false fs) := by
  have arities : ∀ arity : Arity, Plain arity.label.toList := by
    intro arity
    cases arity <;> decide
  refine .cons (erases_painted (by decide) _) (.map fun f member => Plain.erases ?_)
  obtain ⟨name, description⟩ := free f member
  simp [functionRow, columns, name, description, arities]

theorem unpaints_vocabularyLines {v : Vocabulary} (free : v.Plain) :
    Unpaints (vocabularyLines true v) (vocabularyLines false v) := by
  obtain ⟨keywords, math, sample, comparators⟩ := free
  have titled : ∀ {text : String} {lines lines' : List Line}, Plain text.toList →
      Unpaints lines lines' → Unpaints (title true text :: lines) (title false text :: lines') :=
    fun free later => .cons (erases_painted free _) later
  have gap : ∀ {lines lines' : List Line}, Unpaints lines lines' →
      Unpaints ([] :: lines) ([] :: lines') := .cons plain_nil.erases
  refine .append (.append (.append (titled (by decide) ?_) (gap (titled (by decide) ?_)))
    (gap (titled (by decide) ?_))) (gap (titled (by decide) ?_))
  · exact .map fun k member => (plain_wordRow (keywords k member)).erases
  · exact unpaints_functionLines math
  · exact unpaints_functionLines sample
  · exact .map fun c member => (plain_wordRow (comparators c member)).erases

end Report

-- Colour adds sequences to a table and changes nothing else, whichever table it is: where no text
-- holds an escape character, taking the sequences out leaves the table without colour.
theorem unpaint_tables :
    (∀ tokens : List Token, (∀ t ∈ tokens, Report.Plain t.text.toList) →
      Report.unpaint (Report.tokensTable true tokens) = Report.tokensTable false tokens) ∧
    (∀ offer : Option Offer,
      (∀ o ∈ offer, ∀ s ∈ o.suggestions,
        Report.Plain s.label.toList ∧ Report.Plain (s.info.getD "").toList) →
      Report.unpaint (Report.offerTable true offer) = Report.offerTable false offer) ∧
    (∀ e : Edit, Report.Plain e.text.toList →
      (Report.editTable? true e).map Report.unpaint = Report.editTable? false e) ∧
    (∀ (expression : String) (ds : List Diagnostic), Report.Plain expression.toList →
      (∀ d ∈ ds, Report.Plain d.message.toList) →
      Report.unpaint (Report.diagnosticsTable true expression ds) =
        Report.diagnosticsTable false expression ds) ∧
    ∀ v : Vocabulary, v.Plain →
      Report.unpaint (Report.vocabularyTable true v) = Report.vocabularyTable false v := by
  refine ⟨?_, ?_, ?_, ?_, ?_⟩
  · exact fun tokens free => (Report.unpaints_tokenLines free).table
  · exact fun offer free => (Report.unpaints_offerLines free).table
  · exact fun e free => Report.unpaint_editTable? free
  · exact fun expression ds free messages =>
      (Report.unpaints_diagnosticsLines free messages).table
  · exact fun v free => (Report.unpaints_vocabularyLines free).table

-- Tokens of every kind, a label too long for its column, the separator, a severity in two inks, and
-- wide characters. Each table differs from the one without colour.
theorem unpaint_tables_of_every_kind :
    let tokens := Token.tokenize .standard "grade not in (\"名\") <= -1 min input_contains \"é"
    let offer : Offer := ⟨2, [
      ⟨"名, much too long for a label", .mathFunction, some "é", 0, "", true, .suggested⟩,
      ⟨"and", .keyword, none, -99, "and ", false, .more⟩]⟩
    let e : Edit := ⟨"é名", 2⟩
    let ds : List Diagnostic := [⟨0, 5, .error, "odd"⟩, ⟨1, 2, .info, "inside of a character"⟩]
    let v : Vocabulary := ⟨[⟨"not in", "é"⟩], [⟨"log", .unary, "名"⟩], [], [⟨"<", "Less than"⟩]⟩
    ((∀ t ∈ tokens, Report.Plain t.text.toList) ∧
      Report.unpaint (Report.tokensTable true tokens) = Report.tokensTable false tokens ∧
      Report.tokensTable true tokens ≠ Report.tokensTable false tokens) ∧
    ((∀ s ∈ offer.suggestions,
        Report.Plain s.label.toList ∧ Report.Plain (s.info.getD "").toList) ∧
      Report.unpaint (Report.offerTable true (some offer)) =
        Report.offerTable false (some offer) ∧
      Report.offerTable true (some offer) ≠ Report.offerTable false (some offer)) ∧
    (Report.Plain e.text.toList ∧
      (Report.editTable? true e).map Report.unpaint = Report.editTable? false e ∧
      Report.editTable? true e ≠ Report.editTable? false e) ∧
    ((∀ d ∈ ds, Report.Plain d.message.toList) ∧
      Report.unpaint (Report.diagnosticsTable true "é名" ds) =
        Report.diagnosticsTable false "é名" ds ∧
      Report.diagnosticsTable true "é名" ds ≠ Report.diagnosticsTable false "é名" ds) ∧
    v.Plain ∧ Report.unpaint (Report.vocabularyTable true v) = Report.vocabularyTable false v ∧
      Report.vocabularyTable true v ≠ Report.vocabularyTable false v := by
  intro tokens offer e ds v
  obtain ⟨tokenTable, offerTable, editTable, diagnosticTable, wordTable⟩ := unpaint_tables
  have texts : ∀ t ∈ tokens, Report.Plain t.text.toList := by decide +kernel
  have options : ∀ s ∈ offer.suggestions,
      Report.Plain s.label.toList ∧ Report.Plain (s.info.getD "").toList := by decide +kernel
  have edited : Report.Plain e.text.toList := by decide +kernel
  have messages : ∀ d ∈ ds, Report.Plain d.message.toList := by decide +kernel
  have words : v.Plain := by decide +kernel
  refine ⟨⟨texts, tokenTable tokens texts, by decide +kernel⟩, ⟨options, ?_, by decide +kernel⟩,
    ⟨edited, editTable e edited, by decide +kernel⟩, ⟨messages, ?_, by decide +kernel⟩,
    words, wordTable v words, by decide +kernel⟩
  · refine offerTable (some offer) ?_
    intro o same
    cases same
    exact options
  · exact diagnosticTable "é名" ds edited messages

end ScoreFilter

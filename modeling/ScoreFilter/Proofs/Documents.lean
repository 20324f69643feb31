import ScoreFilter.Catalog.Document
import ScoreFilter.Diagnostic
import ScoreFilter.Proofs.Catalog
import ScoreFilter.Proofs.Json.Decoding

namespace ScoreFilter

open Json (Decodes Spells decodes_string decodes_word decodes_index)

namespace Field

theorem decodes_name (d : Draft) (s : String) :
    Decodes (nameSlot.read d) (.str s) { d with name := some s } :=
  (decodes_string s).map fun s => ({ d with name := some s } : Draft)

theorem decodes_qualifiedName (d : Draft) (q : String) :
    Decodes (qualifiedNameSlot.read d) (.str q) { d with qualifiedName := some (some q) } :=
  ((decodes_string q).nullable nofun).map fun q => ({ d with qualifiedName := some q } : Draft)

theorem lookup_scoreType (t : ScoreType) : Json.lookup ScoreType.words t.label = .ok t := by
  cases t <;> rfl

theorem decodes_scoreType (d : Draft) (t : ScoreType) :
    Decodes (scoreTypeSlot.read d) (.str t.label) { d with scoreType := some t } :=
  (decodes_word (lookup_scoreType t)).map fun t => ({ d with scoreType := some t } : Draft)

theorem decodes_categories (d : Draft) (cs : List String) :
    Decodes (categoriesSlot.read d) (.arr (cs.map .str)) { d with categories := some (some cs) } :=
  ((Decodes.sequence fun c _ => decodes_string c).nullable nofun).map fun cs =>
    ({ d with categories := some cs } : Draft)

theorem decodes_tooltip (d : Draft) (t : String) :
    Decodes (tooltipSlot.read d) (.str t) { d with tooltip := some (some t) } :=
  ((decodes_string t).nullable nofun).map fun t => ({ d with tooltip := some t } : Draft)

-- What the members of a field's record fill in; an empty list is not an absent one.
def draft (f : Field) : Draft where
  name := some f.name
  qualifiedName := f.qualifiedName.map some
  scoreType := some f.scoreType
  categories := f.categories.map some
  tooltip := f.tooltip.map some

theorem toJson_eq (f : Field) : f.toJson = .obj (("canonical_name", .str f.name) ::
    (Json.optional "qualified_name" (f.qualifiedName.map .str) ++
      ("score_type", .str f.scoreType.label) ::
        (Json.optional "categories" (f.categories.map fun cs => .arr (cs.map .str)) ++
          (Json.optional "tooltip" (f.tooltip.map .str) ++ [])))) := by
  simp [toJson]

theorem decodes_draft (f : Field) : Decodes (shape.read {}) f.toJson f.draft := by
  rw [toJson_eq]
  refine Json.Shape.Takes.decodes ?_
  refine .slot rfl rfl (decodes_name {} f.name) ?_
  refine .optional (fun q => ({ name := some f.name, qualifiedName := q } : Draft)) rfl rfl
    (fun q _ => decodes_qualifiedName _ q) ?_
  refine .slot rfl rfl (decodes_scoreType _ f.scoreType) ?_
  refine .optional (fun cs => ({ f.draft with categories := cs, tooltip := none } : Draft)) rfl rfl
    (fun cs _ => decodes_categories _ cs) ?_
  refine .optional (fun t => ({ f.draft with tooltip := t } : Draft)) rfl rfl
    (fun t _ => decodes_tooltip _ t) ?_
  exact .done rfl

theorem finish_draft (f : Field) : f.draft.finish = .ok f := by
  obtain ⟨name, qualifiedName, scoreType, categories, tooltip⟩ := f
  cases qualifiedName <;> cases categories <;> cases tooltip <;> rfl

theorem decodes_toJson (f : Field) : Decodes read f.toJson f :=
  f.decodes_draft.finish f.finish_draft

end Field

namespace Catalog

theorem ofDocument_spelled (c : Catalog) {text : String} (spelled : Spells c.toJson text.toList) :
    ofDocument text = .ok c := by
  have fields : Decodes (Json.sequence Field.read) c.toJson c.fields :=
    Decodes.sequence fun f _ => f.decodes_toJson
  rw [ofDocument, fields.document spelled]
  simp [ofFields_eq_ok.mpr rfl]

end Catalog

namespace Fault

theorem decodes_message (d : Draft) (s : String) :
    Decodes (messageSlot.read d) (.str s) { d with message := some s } :=
  (decodes_string s).map fun s => ({ d with message := some s } : Draft)

theorem lookup_severity (s : Severity) : Json.lookup Severity.words s.label = .ok s := by
  cases s <;> rfl

theorem decodes_severity (d : Draft) (s : Severity) :
    Decodes (severitySlot.read d) (.str s.label) { d with severity := some s } :=
  (decodes_word (lookup_severity s)).map fun s => ({ d with severity := some s } : Draft)

variable {n : Nat}

theorem decodes_start (d : Draft) (small : n < Nat.pow 2 64) :
    Decodes (startSlot.read d) (.int n) { d with start := some (some n) } :=
  ((decodes_index small).nullable nofun).map fun n => ({ d with start := some n } : Draft)

theorem decodes_stop (d : Draft) (small : n < Nat.pow 2 64) :
    Decodes (stopSlot.read d) (.int n) { d with stop := some (some n) } :=
  ((decodes_index small).nullable nofun).map fun n => ({ d with stop := some n } : Draft)

def draft (f : Fault) : Draft where
  message := some f.message
  severity := some f.severity
  start := f.start.map some
  stop := f.stop.map some

theorem toJson_eq (f : Fault) : f.toJson = .obj (("message", .str f.message) ::
    ("severity", .str f.severity.label) ::
      (Json.optional "from" (f.start.map fun n : Nat => .int n) ++
        (Json.optional "to" (f.stop.map fun n : Nat => .int n) ++ []))) := by
  obtain ⟨message, severity, start, stop⟩ := f
  cases start <;> cases stop <;> rfl

theorem decodes_draft {f : Fault} (start : ∀ n ∈ f.start, n < Nat.pow 2 64)
    (stop : ∀ n ∈ f.stop, n < Nat.pow 2 64) : Decodes (shape.read {}) f.toJson f.draft := by
  rw [toJson_eq]
  refine Json.Shape.Takes.decodes ?_
  refine .slot rfl rfl (decodes_message {} f.message) ?_
  refine .slot rfl rfl (decodes_severity _ f.severity) ?_
  refine .optional (fun n => ({ f.draft with start := n, stop := none } : Draft)) rfl rfl
    (fun n given => decodes_start _ (start n given)) ?_
  refine .optional (fun n => ({ f.draft with stop := n } : Draft)) rfl rfl
    (fun n given => decodes_stop _ (stop n given)) ?_
  exact .done rfl

theorem finish_draft (f : Fault) : f.draft.finish = .ok f := by
  obtain ⟨message, severity, start, stop⟩ := f
  cases start <;> cases stop <;> rfl

theorem decodes_toJson {f : Fault} (start : ∀ n ∈ f.start, n < Nat.pow 2 64)
    (stop : ∀ n ∈ f.stop, n < Nat.pow 2 64) : Decodes read f.toJson f :=
  (decodes_draft start stop).finish f.finish_draft

end Fault

-- Every catalog that its fields make, and every fault, comes back from the document printed of it,
-- on one line or on many: what is absent is left out, and what is empty is not absent.
theorem documents_read_back :
    (∀ c : Catalog, (∀ fields, Catalog.ofFields fields = .ok c ↔ c.fields = fields) ∧
      ∀ text ∈ [c.toDocument, c.toJson.pretty], Catalog.ofDocument text = .ok c) ∧
    ∀ f : Fault, (∀ n ∈ f.start, n < Nat.pow 2 64) → (∀ n ∈ f.stop, n < Nat.pow 2 64) →
      ∀ text ∈ [f.toDocument, f.toJson.pretty],
        Json.document Fault.read text = .ok f ∧ Fault.ofDocument text = .ok (some f) := by
  constructor
  · intro c
    refine ⟨fun fields => Catalog.ofFields_eq_ok, ?_⟩
    intro text printed
    exact c.ofDocument_spelled (Json.spells_printed printed)
  · intro f start stop text printed
    have spelled := Json.spells_printed printed
    have decodes := Fault.decodes_toJson start stop
    exact ⟨decodes.document spelled, (decodes.nullable nofun).document spelled⟩

theorem documents_read_back_limit :
    let f : Fault := ⟨"\"\\\u0001😀", .warning, some 18446744073709551615, none⟩
    (∀ n ∈ f.start, n < Nat.pow 2 64) ∧ (∀ n ∈ f.stop, n < Nat.pow 2 64) ∧
      Json.document Fault.read f.toDocument = .ok f ∧
      Fault.ofDocument f.toDocument = .ok (some f) := by
  intro f
  have start : ∀ n ∈ f.start, n < Nat.pow 2 64 := by decide
  have stop : ∀ n ∈ f.stop, n < Nat.pow 2 64 := by decide
  exact ⟨start, stop, documents_read_back.2 f start stop f.toDocument (List.mem_cons_self ..)⟩

end ScoreFilter

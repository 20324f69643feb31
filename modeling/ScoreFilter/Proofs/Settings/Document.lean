import ScoreFilter.Proofs.Toml.Document
import ScoreFilter.Settings

namespace ScoreFilter.Settings

open Toml (Line Statement IsBare)

def catalogLines : Option String → List (List Char × List Statement)
  | none => []
  | some name => [(catalogLine (some name), [.pair [] "catalog" (.str name)])]

def flagLines (key : String) : Option Bool → List (List Char × List Statement)
  | none => []
  | some b => [(flagLine key (some b), [.pair [] key (.bool b)])]

def groupLines (group key : String) (flag : Option Bool) : List (List Char × List Statement) :=
  (['\n'], []) :: ('[' :: (group.toList ++ [']', '\n']), [.header [] group]) :: flagLines key flag

def lines (s : Settings) : List (List Char × List Statement) :=
  (versionLine s.version, [.pair [] "version" (.int s.version.toNat)]) ::
    (catalogLines s.catalog ++ (groupLines "output" "color" s.color ++
      groupLines "completion" "explicit" s.explicit))

theorem flatMap_catalogLines (catalog : Option String) :
    (catalogLines catalog).flatMap (·.1) = catalogLine catalog := by
  cases catalog with
  | none => rfl
  | some name => exact List.append_nil _

theorem flatMap_groupLines (group key : String) (flag : Option Bool) :
    (groupLines group key flag).flatMap (·.1) =
      '\n' :: '[' :: (group.toList ++ ']' :: '\n' :: flagLine key flag) := by
  cases flag <;> simp [groupLines, flagLines, flagLine]

theorem toDocument_lines (s : Settings) :
    s.toDocument = String.ofList (s.lines.flatMap (·.1)) := by
  have output : "\n[output]\n".toList = '\n' :: '[' :: ("output".toList ++ [']', '\n']) := rfl
  have completion : "\n[completion]\n".toList =
      '\n' :: '[' :: ("completion".toList ++ [']', '\n']) := rfl
  rw [toDocument, output, completion, lines, List.flatMap_cons, List.flatMap_append,
    List.flatMap_append, flatMap_catalogLines, flatMap_groupLines, flatMap_groupLines]
  simp only [List.append_assoc, List.cons_append, List.nil_append]

theorem line_version (version : UInt32) :
    Line (versionLine version) [.pair [] "version" (.int version.toNat)] := by
  have bare : IsBare "version" := by
    constructor <;> decide
  have small : version.toNat < Nat.pow 2 63 := Nat.lt_trans version.toNat_lt (by decide)
  exact Line.scalar bare (Decimal.digits_ne_nil _) (Toml.isScalarChar_digits _)
    (Toml.scalar?_digits small)

theorem line_catalog (name : String) :
    Line (catalogLine (some name)) [.pair [] "catalog" (.str name)] := by
  have bare : IsBare "catalog" := by
    constructor <;> decide
  exact Line.string bare name

theorem line_flag {key : String} (bare : IsBare key) (b : Bool) :
    Line (flagLine key (some b)) [.pair [] key (.bool b)] := by
  have found : Toml.scalar? (Json.boolText b) = some (.bool b) := by
    cases b <;> rfl
  have line := Line.scalar bare (by cases b <;> decide) (by cases b <;> decide) found
  simpa [flagLine] using line

theorem line_group {group key : String} (bare : IsBare group) (bare' : IsBare key)
    (flag : Option Bool) : ∀ line ∈ groupLines group key flag, Line line.1 line.2 := by
  intro line member
  rcases List.mem_cons.mp member with rfl | member
  · exact Line.blank
  rcases List.mem_cons.mp member with rfl | member
  · exact Line.header bare
  cases flag with
  | none => cases member
  | some b =>
    rw [List.mem_singleton.mp member]
    exact line_flag bare' b

theorem line_lines (s : Settings) : ∀ line ∈ s.lines, Line line.1 line.2 := by
  intro line member
  have output : IsBare "output" ∧ IsBare "color" := by
    refine ⟨?_, ?_⟩ <;> constructor <;> decide
  have completion : IsBare "completion" ∧ IsBare "explicit" := by
    refine ⟨?_, ?_⟩ <;> constructor <;> decide
  rcases List.mem_cons.mp member with rfl | member
  · exact line_version s.version
  rcases List.mem_append.mp member with member | member
  · cases given : s.catalog with
    | none =>
      rw [given] at member
      cases member
    | some name =>
      rw [given] at member
      rw [List.mem_singleton.mp member]
      exact line_catalog name
  rcases List.mem_append.mp member with member | member
  · exact line_group output.1 output.2 s.color line member
  · exact line_group completion.1 completion.2 s.explicit line member

theorem version?_toNat (version : UInt32) :
    version? (some (.int version.toNat)) = some version := by
  have bound : (version.toNat : Int) < Int.pow 2 32 := by
    have limit := version.toNat_lt
    change (version.toNat : Int) < 4294967296
    omega
  have fits : (decide (0 ≤ (version.toNat : Int)) && decide ((version.toNat : Int) < Int.pow 2 32)) =
      true := by
    rw [Bool.and_eq_true, decide_eq_true_eq, decide_eq_true_eq]
    exact ⟨Int.natCast_nonneg _, bound⟩
  rw [version?, if_pos fits, Int.toNat_natCast, UInt32.ofNat_toNat]

def entries (s : Settings) : Toml.Entries :=
  ("version", .int s.version.toNat) ::
    ((s.catalog.map fun name => ("catalog", Toml.Item.str name)).toList ++
      [("output", .table .header (s.color.map fun b => ("color", .bool b)).toList),
        ("completion", .table .header (s.explicit.map fun b => ("explicit", .bool b)).toList)])

theorem build?_lines (s : Settings) : Toml.build? (s.lines.flatMap (·.2)) = some s.entries := by
  obtain ⟨version, catalog, color, explicit⟩ := s
  cases catalog <;> cases color <;> cases explicit <;> rfl

theorem ofEntries?_entries (s : Settings) : ofEntries? s.entries = some s := by
  have version : version? (s.entries.get? "version") = some s.version := version?_toNat s.version
  obtain ⟨v, catalog, color, explicit⟩ := s
  rw [ofEntries?, version]
  cases catalog <;> cases color <;> cases explicit <;> rfl

-- What is written can be read back, whatever the catalog is called.
theorem ofDocument?_toDocument (s : Settings) : ofDocument? s.toDocument = some s := by
  have unmarked : (s.lines.flatMap (·.1)).head? ≠ some '\uFEFF' := by
    change some 'v' ≠ some '\uFEFF'
    decide
  rw [ofDocument?, toDocument_lines, Toml.ofDocument?_lines s.line_lines unmarked, build?_lines,
    Option.bind_some, ofEntries?_entries]

end ScoreFilter.Settings

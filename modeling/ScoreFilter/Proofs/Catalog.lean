import ScoreFilter.Catalog

namespace ScoreFilter

theorem filter_of_nodup {α : Type} {key : α → String} {l : List α} {a : α}
    (distinct : (l.map key).Nodup) (member : a ∈ l) : l.filter (key · == key a) = [a] := by
  induction l with
  | nil => cases member
  | cons b l ih =>
    rw [List.map_cons, List.nodup_cons] at distinct
    rcases List.mem_cons.mp member with same | later
    · subst same
      rw [List.filter_cons_of_pos (by simp), List.cons.injEq, List.filter_eq_nil_iff]
      refine ⟨rfl, ?_⟩
      intro b later same
      exact distinct.1 (List.mem_map.mpr ⟨b, later, by simpa using same⟩)
    · have other : key b ≠ key a := by
        intro same
        rw [same] at distinct
        exact distinct.1 (List.mem_map_of_mem later)
      rw [List.filter_cons_of_neg (by simpa using other)]
      exact ih distinct.2 later

theorem find?_of_nodup {α : Type} {key : α → String} {l : List α} {a : α}
    (distinct : (l.map key).Nodup) (member : a ∈ l) : l.find? (key · == key a) = some a := by
  rw [← List.head?_filter, filter_of_nodup distinct member, List.head?_cons]

namespace Field

variable {f : Field} {scorer label : String}

theorem memberOf?_eq_some_iff :
    f.memberOf? scorer = some label ↔ f.qualifiedName = some (scorer ++ "." ++ label) := by
  have spelled : ∀ q : String, q = scorer ++ "." ++ label ↔
      q.toList = scorer.toList ++ ('.' :: label.toList) := by
    intro q
    rw [← String.toList_inj]
    simp
  constructor
  · intro found
    obtain ⟨q, qualified, stripped⟩ := Option.bind_eq_some_iff.mp found
    obtain ⟨rest, first, later⟩ := Option.bind_eq_some_iff.mp stripped
    obtain ⟨tail, point, same⟩ := Option.map_eq_some_iff.mp later
    rw [qualified, Option.some.injEq, spelled, ← Text.strip?_append first,
      ← Text.strip?_append point, ← same, String.toList_ofList]
    rfl
  · intro qualified
    have point : Text.strip? ['.'] ('.' :: label.toList) = some label.toList :=
      Text.strip?_self_append ['.'] label.toList
    rw [memberOf?, qualified, Option.bind_some, (spelled _).mp rfl, Text.strip?_self_append,
      Option.bind_some, point, Option.map_some, String.ofList_toList]

theorem scorer?_memberName?_iff :
    f.scorer? = some scorer ∧ f.memberName? = some label ↔
      f.qualifiedName = some (scorer ++ "." ++ label) ∧ '.' ∉ scorer.toList := by
  constructor
  · rintro ⟨first, second⟩
    obtain ⟨⟨left, right⟩, parts, rfl⟩ := Option.map_eq_some_iff.mp first
    rw [memberName?, parts, Option.map_some, Option.some.injEq] at second
    obtain ⟨q, qualified, divided⟩ := Option.bind_eq_some_iff.mp parts
    obtain ⟨spelled, solid⟩ := Text.splitPoint?_append divided
    rw [String.toList_ofList]
    refine ⟨?_, solid⟩
    rw [qualified, Option.some.injEq, ← String.toList_inj, spelled, ← second]
    simp
  · rintro ⟨qualified, solid⟩
    have parts : f.parts? = some (scorer.toList, label.toList) := by
      rw [parts?, qualified, Option.bind_some, ← Text.splitPoint?_self_append solid]
      simp
    simp [scorer?, memberName?, parts]

theorem memberOf?_of_solid (solid : '.' ∉ scorer.toList) :
    f.memberOf? scorer = if f.scorer? = some scorer then f.memberName? else none := by
  have split : ∀ label, f.memberOf? scorer = some label ↔
      f.scorer? = some scorer ∧ f.memberName? = some label := by
    intro label
    rw [scorer?_memberName?_iff, memberOf?_eq_some_iff, and_iff_left solid]
  by_cases own : f.scorer? = some scorer
  · rw [if_pos own]
    apply Option.ext
    intro label
    rw [split, and_iff_right own]
  · rw [if_neg own, Option.eq_none_iff_forall_ne_some]
    intro label found
    exact own ((split label).mp found).1

theorem exists_memberName? (own : f.scorer? = some scorer) :
    ∃ label, f.memberName? = some label := by
  obtain ⟨parts, divided, _⟩ := Option.map_eq_some_iff.mp own
  exact ⟨String.ofList parts.2, by rw [memberName?, divided, Option.map_some]⟩

end Field

namespace Catalog

variable {catalog : Catalog} {seen : List String} {fields rest : List Field} {f : Field}
  {r : Refusal} {name : String} {i : Nat}

-- The field at place `i` has no name, or one that was seen before it.
def FaultyAt (seen : List String) (fields : List Field) (i : Nat) : Prop :=
  ∃ f ∈ fields[i]?, f.name = "" ∨ f.name ∈ seen ∨ f.name ∈ (fields.take i).map (·.name)

instance (seen : List String) (fields : List Field) (i : Nat) :
    Decidable (FaultyAt seen fields i) :=
  inferInstanceAs (Decidable (∃ f ∈ fields[i]?, _))

theorem faultyAt_zero : FaultyAt seen (f :: rest) 0 ↔ f.name = "" ∨ f.name ∈ seen := by
  simp [FaultyAt]

theorem faultyAt_succ : FaultyAt seen (f :: rest) (i + 1) ↔ FaultyAt (f.name :: seen) rest i := by
  simp only [FaultyAt, List.getElem?_cons_succ, List.take_succ_cons, List.map_cons, List.mem_cons,
    or_left_comm, or_assoc]

def FirstFault (seen : List String) (fields : List Field) (r : Refusal) : Prop :=
  ∃ i f, fields[i]? = some f ∧ FaultyAt seen fields i ∧ (∀ j < i, ¬ FaultyAt seen fields j) ∧
    r = if f.name = "" then .emptyName else .duplicate f.name

theorem firstFault_here (faulty : FaultyAt seen (f :: rest) 0) :
    FirstFault seen (f :: rest) r ↔ r = if f.name = "" then .emptyName else .duplicate f.name := by
  constructor
  · rintro ⟨i, g, found, _, clear, decided⟩
    cases i with
    | zero =>
      cases found
      exact decided
    | succ i => exact absurd faulty (clear 0 (Nat.succ_pos i))
  · intro decided
    exact ⟨0, f, rfl, faulty, fun j less => absurd less (Nat.not_lt_zero j), decided⟩

theorem firstFault_later (clear : ¬ FaultyAt seen (f :: rest) 0) :
    FirstFault seen (f :: rest) r ↔ FirstFault (f.name :: seen) rest r := by
  constructor
  · rintro ⟨i, g, found, faulty, before, decided⟩
    cases i with
    | zero => exact absurd faulty clear
    | succ i =>
      refine ⟨i, g, found, faultyAt_succ.mp faulty, ?_, decided⟩
      intro j less earlier
      exact before (j + 1) (Nat.succ_lt_succ less) (faultyAt_succ.mpr earlier)
  · rintro ⟨i, g, found, faulty, before, decided⟩
    refine ⟨i + 1, g, found, faultyAt_succ.mpr faulty, ?_, decided⟩
    intro j less
    cases j with
    | zero => exact clear
    | succ j =>
      intro earlier
      exact before j (Nat.lt_of_succ_lt_succ less) (faultyAt_succ.mp earlier)

theorem refusal?_eq_some_iff : refusal? seen fields = some r ↔ FirstFault seen fields r := by
  fun_induction refusal? seen fields with
  | case1 => simp [FirstFault]
  | case2 seen f rest nameless =>
    rw [firstFault_here (faultyAt_zero.mpr (.inl nameless)), if_pos nameless, Option.some.injEq,
      eq_comm]
  | case3 seen f rest named old =>
    rw [firstFault_here (faultyAt_zero.mpr (.inr old)), if_neg named, Option.some.injEq, eq_comm]
  | case4 seen f rest named fresh ih =>
    rw [ih, firstFault_later (mt faultyAt_zero.mp (not_or.mpr ⟨named, fresh⟩))]

theorem refusal?_eq_none (named : ∀ f ∈ fields, f.name ≠ "")
    (distinct : (fields.map (·.name)).Nodup) (unseen : ∀ f ∈ fields, f.name ∉ seen) :
    refusal? seen fields = none := by
  induction fields generalizing seen with
  | nil => rfl
  | cons f fields ih =>
    obtain ⟨fresh, later⟩ := List.nodup_cons.mp distinct
    have first := List.mem_cons_self (a := f) (l := fields)
    rw [refusal?, if_neg (named f first), if_neg (unseen f first)]
    refine ih (fun g member => named g (List.mem_cons_of_mem f member)) later ?_
    intro g member old
    rcases List.mem_cons.mp old with same | old
    · exact fresh (List.mem_map.mpr ⟨g, member, same⟩)
    · exact unseen g (List.mem_cons_of_mem f member) old

theorem ofFields_eq_ok {c : Catalog} : ofFields fields = .ok c ↔ c.fields = fields := by
  unfold ofFields
  constructor
  · intro accepted
    split at accepted
    · cases accepted
      rfl
    · cases accepted
  · rintro rfl
    have accepted := refusal?_eq_none c.named c.distinct fun _ _ => List.not_mem_nil
    split
    · rfl
    · rename_i refused
      rw [accepted] at refused
      cases refused

theorem ofFields_eq_error : ofFields fields = .error r ↔ FirstFault [] fields r := by
  rw [← refusal?_eq_some_iff]
  unfold ofFields
  split
  · rename_i accepted
    simp [accepted]
  · rename_i refused
    simp [refused]

-- No two fields share a name, so a name finds its own field.
theorem get?_name (member : f ∈ catalog.fields) : catalog.get? f.name = some f :=
  find?_of_nodup catalog.distinct member

theorem mem_of_get? (found : catalog.get? name = some f) : f ∈ catalog.fields ∧ f.name = name := by
  have named := List.find?_some found
  exact ⟨List.mem_of_find?_eq_some found, by simpa using named⟩

theorem get?_eq_some_iff : catalog.get? name = some f ↔ f ∈ catalog.fields ∧ f.name = name := by
  constructor
  · exact mem_of_get?
  · rintro ⟨listed, rfl⟩
    exact get?_name listed

theorem mem_membersOf {scorer label : String} : (label, f) ∈ catalog.membersOf scorer ↔
    f ∈ catalog.fields ∧ f.qualifiedName = some (scorer ++ "." ++ label) := by
  simp only [membersOf, List.mem_filterMap, Option.map_eq_some_iff, Prod.mk.injEq,
    Field.memberOf?_eq_some_iff]
  constructor
  · rintro ⟨g, listed, label, qualified, rfl, rfl⟩
    exact ⟨listed, qualified⟩
  · rintro ⟨listed, qualified⟩
    exact ⟨f, listed, label, qualified, rfl, rfl⟩

theorem membersOf_of_solid {scorer : String} (solid : '.' ∉ scorer.toList) :
    (catalog.membersOf scorer).map some =
      (catalog.fields.filter (·.scorer? == some scorer)).map fun f =>
        f.memberName?.map fun label => (label, f) := by
  have listed : ∀ f : Field, ((f.memberOf? scorer).map fun label => (label, f)).isSome =
      (f.scorer? == some scorer) := by
    intro f
    rw [Option.isSome_map, Field.memberOf?_of_solid solid]
    split
    · rename_i own
      obtain ⟨label, named⟩ := Field.exists_memberName? own
      simp [own, named]
    · rename_i other
      simpa using other
  rw [membersOf, List.map_filterMap_some_eq_filter_map_isSome, List.filter_map]
  simp only [Function.comp_def, listed]
  apply List.map_congr_left
  intro f member
  have own := (List.mem_filter.mp member).2
  rw [Field.memberOf?_of_solid solid, if_pos (by simpa using own)]

-- A list of fields becomes a catalog if they all have names of their own, and then each name finds
-- its field and no other. Otherwise the first fault decides, whatever comes behind it.
theorem ofFields_decided (fields : List Field) :
    ((∃ c, ofFields fields = .ok c) ↔
      (∀ f ∈ fields, f.name ≠ "") ∧ (fields.map (·.name)).Nodup) ∧
    (∀ r, ofFields fields = .error r ↔
      ∃ i f, fields[i]? = some f ∧ FaultyAt [] fields i ∧ (∀ j < i, ¬ FaultyAt [] fields j) ∧
        r = if f.name = "" then .emptyName else .duplicate f.name) ∧
    ∀ c, ofFields fields = .ok c → c.fields = fields ∧
      ∀ name f, (c.get? name = some f ↔ f ∈ fields ∧ f.name = name) ∧
        (c.get? name = some f → fields.filter (·.name == name) = [f]) := by
  refine ⟨⟨?_, ?_⟩, fun r => ofFields_eq_error, ?_⟩
  · rintro ⟨c, made⟩
    rw [← ofFields_eq_ok.mp made]
    exact ⟨c.named, c.distinct⟩
  · rintro ⟨named, distinct⟩
    exact ⟨⟨fields, named, distinct⟩, ofFields_eq_ok.mpr rfl⟩
  · intro c made
    have kept := ofFields_eq_ok.mp made
    subst kept
    refine ⟨rfl, fun name f => ⟨get?_eq_some_iff, ?_⟩⟩
    intro found
    obtain ⟨listed, rfl⟩ := get?_eq_some_iff.mp found
    exact filter_of_nodup c.distinct listed

def plainFields (names : List String) : List Field :=
  names.map fun name => ⟨name, none, .numeric, none, none⟩

-- A repeated name before a missing one, the two the other way round, and no fault.
theorem ofFields_decided_both_faults :
    (FaultyAt [] (plainFields ["tone", "pass", "tone", "", "pass"]) 2 ∧
      ofFields (plainFields ["tone", "pass", "tone", "", "pass"]) = .error (.duplicate "tone")) ∧
    (FaultyAt [] (plainFields ["tone", "", "tone"]) 1 ∧
      ofFields (plainFields ["tone", "", "tone"]) = .error .emptyName) ∧
    ∃ c, ofFields (plainFields ["tone", "tone "]) = .ok c ∧
      c.get? "tone " = some ⟨"tone ", none, .numeric, none, none⟩ ∧
      (plainFields ["tone", "tone "]).filter (·.name == "tone ") =
        [⟨"tone ", none, .numeric, none, none⟩] := by
  have repeated : FaultyAt [] (plainFields ["tone", "pass", "tone", "", "pass"]) 2 := by decide
  have missing : FaultyAt [] (plainFields ["tone", "", "tone"]) 1 := by decide
  refine ⟨⟨repeated, ?_⟩, ⟨missing, ?_⟩, ?_⟩
  · exact ((ofFields_decided _).2.1 _).mpr ⟨2, _, rfl, repeated, by decide, rfl⟩
  · exact ((ofFields_decided _).2.1 _).mpr ⟨1, _, rfl, missing, by decide, rfl⟩
  · obtain ⟨c, made⟩ := (ofFields_decided (plainFields ["tone", "tone "])).1.mpr
      ⟨by decide, by decide⟩
    obtain ⟨_, lookup⟩ := (ofFields_decided _).2.2 c made
    obtain ⟨found, alone⟩ := lookup "tone " ⟨"tone ", none, .numeric, none, none⟩
    have here := found.mpr ⟨by decide, rfl⟩
    exact ⟨c, made, here, alone here⟩

end Catalog

end ScoreFilter

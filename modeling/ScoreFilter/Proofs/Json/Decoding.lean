import ScoreFilter.Json.Record
import ScoreFilter.Proofs.Json.Scalar

namespace ScoreFilter.Json

variable {α β δ : Type} {read : Reader α} {a : α} {gap text tail rest : List Char} {value : Json}

-- The first character tells a value from a closing bracket, and `null` from every other value.
theorem Spells.head (spelled : Spells value text) :
    ∃ c more, text = c :: more ∧ isBlank c = false ∧ c ≠ ']' ∧ (value ≠ .null → c ≠ 'n') := by
  cases spelled with
  | null => exact ⟨_, _, rfl, rfl, by decide, fun present => absurd rfl present⟩
  | bool b => cases b <;> exact ⟨_, _, rfl, rfl, by decide, fun _ => by decide⟩
  | int n =>
    obtain ⟨d, more, same, digit, _⟩ := (Toml.isNumeral_digits n.natAbs).cons
    have other : ∀ e, e.isDigit = false → d ≠ e := fun e => Toml.ne_of_isDigit digit
    unfold intText
    split
    · exact ⟨_, _, rfl, rfl, by decide, fun _ => by decide⟩
    · refine ⟨d, more, same, ?_, other _ (by decide), fun _ => other _ (by decide)⟩
      simp [isBlank, other]
  | str s => exact ⟨_, _, rfl, rfl, by decide, fun _ => by decide⟩
  | arr => exact ⟨_, _, rfl, rfl, by decide, fun _ => by decide⟩
  | obj => exact ⟨_, _, rfl, rfl, by decide, fun _ => by decide⟩

theorem Spells.skipBlank (spelled : Spells value text) (blank : Blank gap) (rest : List Char) :
    skipBlank (gap ++ (text ++ rest)) = text ++ rest := by
  obtain ⟨c, more, rfl, solid, _⟩ := spelled.head
  rw [skipBlank_append blank, List.cons_append, skipBlank_cons solid]

theorem Later.ends {spell : β → List Char → Prop} {close : Char} {entries : List β}
    (later : Later spell close entries tail) (closing : close ∈ [']', '\x7d']) (rest : List Char) :
    Ends (tail ++ rest) := by
  cases later with
  | done blank =>
    rw [List.append_assoc]
    refine .behind blank ?_
    intro c first
    cases first
    revert closing
    simp +contextual
  | more before =>
    rw [List.append_assoc]
    refine .behind before ?_
    intro c first
    cases first
    decide

theorem Later.length_lt {spell : β → List Char → Prop} {close : Char} {entries : List β}
    (later : Later spell close entries tail) : entries.length < tail.length := by
  induction later with
  | done => simp
  | more before behind spelled later ih =>
    simp only [List.length_append, List.length_cons]
    omega

theorem Listed.length_le {spell : β → List Char → Prop} {close : Char} {entries : List β}
    (listed : Listed spell close entries text) : entries.length ≤ text.length := by
  cases listed with
  | none => simp
  | some blank spelled later =>
    have fewer := later.length_lt
    simp only [List.length_append, List.length_cons]
    omega

-- Every text of the value is read as this result, up to its end.
def Decodes (read : Reader α) (value : Json) (a : α) : Prop :=
  ∀ ⦃gap text rest : List Char⦄, Blank gap → Spells value text → Ends rest →
    read (gap ++ (text ++ rest)) = .ok (a, rest)

theorem Decodes.document (decodes : Decodes read value a) {text : String}
    (spelled : Spells value text.toList) : document read text = .ok a := by
  have whole := decodes blank_nil spelled ends_nil
  rw [List.nil_append, List.append_nil] at whole
  rw [Json.document, whole]
  rfl

theorem decodes_string (s : String) : Decodes string (.str s) s := by
  intro gap text rest blank spelled ends
  rw [string, stringFor, spelled.skipBlank blank]
  cases spelled
  rw [quote_append]
  simp [stringBody_flatMap_escape, Except.map]

theorem decodes_word {words : List (String × α)} {word : String}
    (listed : lookup words word = .ok a) : Decodes (Json.word words) (.str word) a := by
  intro gap text rest blank spelled ends
  rw [Json.word, spelled.skipBlank blank]
  cases spelled
  rw [quote_append]
  simp [stringBody_flatMap_escape, listed, bind, Except.bind, pure, Except.pure]

theorem decodes_index {n : Nat} (small : n < Nat.pow 2 64) : Decodes index (.int n) n := by
  intro gap text rest blank spelled ends
  rw [index, spelled.skipBlank blank]
  cases spelled
  have unsigned : intText n = Decimal.digits n := by simp [intText]
  rw [unsigned, found_digits small ends]
  simp

theorem Decodes.nullable (decodes : Decodes read value a) (present : value ≠ .null) :
    Decodes (nullable read) value (some a) := by
  intro gap text rest blank spelled ends
  have alone := decodes blank_nil spelled ends
  rw [Json.nullable, spelled.skipBlank blank]
  obtain ⟨c, more, rfl, _, _, other⟩ := spelled.head
  split
  · rename_i same
    exact absurd (List.cons.inj same).1 (other present)
  · rw [List.nil_append] at alone
    rw [alone]
    rfl

theorem Decodes.map (decodes : Decodes read value a) (f : α → β) :
    Decodes (fun cs => (read cs).map fun (a, rest) => (f a, rest)) value (f a) := by
  intro gap text rest blank spelled ends
  simp [decodes blank spelled ends, Except.map]

theorem Decodes.finish (decodes : Decodes read value a) {finish : α → Except Problem β} {b : β}
    (finished : finish a = .ok b) :
    Decodes (fun cs => do let (a, rest) ← read cs; return (← finish a, rest)) value b := by
  intro gap text rest blank spelled ends
  simp [decodes blank spelled ends, finished, bind, Except.bind, pure, Except.pure]

section Items

variable {encode : α → Json} {as : List α}

theorem items_close (blank : Blank gap) (first : Bool) (fuel : Nat) (rest : List Char) :
    items read (fuel + 1) first (gap ++ ']' :: rest) = .ok ([], rest) := by
  rw [items, skipBlank_append blank, skipBlank_cons rfl]
  rfl

theorem items_entry (spelled : Spells value text) (taken : read (text ++ tail) = .ok (a, tail))
    {fuel : Nat} (later : items read fuel false tail = .ok (as, rest)) (blank : Blank gap) :
    items read (fuel + 1) true (gap ++ (text ++ tail)) = .ok (a :: as, rest) ∧
      ∀ {before : List Char}, Blank before →
        items read (fuel + 1) false (before ++ ',' :: (gap ++ (text ++ tail))) =
          .ok (a :: as, rest) := by
  have skipped := spelled.skipBlank blank tail
  obtain ⟨c, more, rfl, solid, inside, _⟩ := spelled.head
  simp only [List.cons_append] at taken skipped ⊢
  constructor
  · rw [items, skipped]
    simp [inside, taken, later, bind, Except.bind, pure, Except.pure]
  · intro before behind
    rw [items, skipBlank_append behind, skipBlank_cons rfl]
    simp [skipped, inside, taken, later, bind, Except.bind, pure, Except.pure]

theorem items_later (each : ∀ a ∈ as, Decodes read (encode a) a)
    (later : Later Spells ']' (as.map encode) tail) {fuel : Nat} (enough : as.length < fuel)
    (rest : List Char) : items read fuel false (tail ++ rest) = .ok (as, rest) := by
  induction as generalizing tail fuel with
  | nil =>
    obtain ⟨fuel, rfl⟩ := Nat.exists_eq_add_one_of_ne_zero (Nat.ne_zero_of_lt enough)
    cases later with
    | done blank =>
      rw [List.append_assoc]
      exact items_close blank false fuel rest
  | cons a as ih =>
    obtain ⟨fuel, rfl⟩ := Nat.exists_eq_add_one_of_ne_zero (Nat.ne_zero_of_lt enough)
    cases later with
    | more before behind spelled later =>
      have taken := each a (List.mem_cons_self ..) blank_nil spelled (later.ends (by decide) rest)
      have others := ih (fun b member => each b (List.mem_cons_of_mem a member)) later
        (Nat.lt_of_succ_lt_succ enough)
      simpa using (items_entry spelled taken others behind).2 before

theorem items_listed (each : ∀ a ∈ as, Decodes read (encode a) a)
    (listed : Listed Spells ']' (as.map encode) text) {fuel : Nat} (enough : as.length < fuel)
    (rest : List Char) : items read fuel true (text ++ rest) = .ok (as, rest) := by
  obtain ⟨fuel, rfl⟩ := Nat.exists_eq_add_one_of_ne_zero (Nat.ne_zero_of_lt enough)
  cases as with
  | nil =>
    cases listed with
    | none blank =>
      rw [List.append_assoc]
      exact items_close blank true fuel rest
  | cons a as =>
    cases listed with
    | some blank spelled later =>
      have taken := each a (List.mem_cons_self ..) blank_nil spelled (later.ends (by decide) rest)
      have others := items_later (fun b member => each b (List.mem_cons_of_mem a member)) later
        (Nat.lt_of_succ_lt_succ enough) rest
      simpa using (items_entry spelled taken others blank).1

theorem Decodes.sequence (each : ∀ a ∈ as, Decodes read (encode a) a) :
    Decodes (sequence read) (.arr (as.map encode)) as := by
  intro gap text rest blank spelled ends
  rw [Json.sequence, spelled.skipBlank blank]
  cases spelled with
  | arr listed =>
    rw [List.cons_append]
    refine items_listed each listed ?_ rest
    have few := listed.length_le
    rw [List.length_map] at few
    rw [List.length_append]
    omega

end Items

section Members

variable {shape : Shape δ} {draft next final : δ} {members : List (String × Json)}

theorem expect_append (blank : Blank gap) {c : Char} (solid : isBlank c = false)
    (rest : List Char) : expect c (gap ++ c :: rest) = .ok rest := by
  rw [expect, skipBlank_append blank, skipBlank_cons solid]
  simp

-- Members that fill a draft: each has a slot of its own, empty until then, and none is missing.
inductive Shape.Takes (shape : Shape δ) : δ → List (String × Json) → δ → Prop where
  | done {draft : δ} (complete : shape.missing? draft = none) : Takes shape draft [] draft
  | slot {draft next final : δ} {slot : Slot δ} {key : String} {value : Json}
      {members : List (String × Json)} (known : shape.slots.find? (·.key == key) = some slot)
      (empty : slot.filled draft = false) (decodes : Decodes (slot.read draft) value next)
      (later : Takes shape next members final) : Takes shape draft ((key, value) :: members) final

theorem Shape.members_close (complete : shape.missing? draft = none) (blank : Blank gap)
    (first : Bool) (fuel : Nat) (rest : List Char) :
    shape.members (fuel + 1) first draft (gap ++ '\x7d' :: rest) = .ok (draft, rest) := by
  rw [members, skipBlank_append blank, skipBlank_cons rfl]
  simp [complete]

theorem Shape.members_entry {key : String} {slot : Slot δ}
    (spelled : Member Spells (key, value) text)
    (known : shape.slots.find? (·.key == key) = some slot) (empty : slot.filled draft = false)
    (decodes : Decodes (slot.read draft) value next) (ends : Ends tail) {fuel : Nat}
    (later : shape.members fuel false next tail = .ok (final, rest)) (blank : Blank gap) :
    shape.members (fuel + 1) true draft (gap ++ (text ++ tail)) = .ok (final, rest) ∧
      ∀ {before : List Char}, Blank before →
        shape.members (fuel + 1) false draft (before ++ ',' :: (gap ++ (text ++ tail))) =
          .ok (final, rest) := by
  cases spelled with
  | @mk _ _ front between text colon space spelled =>
    have taken : shape.member draft key (front ++ ':' :: (between ++ (text ++ tail))) =
        .ok (next, tail) := by
      have behind := expect_append (c := ':') colon rfl (between ++ (text ++ tail))
      rw [member, known]
      simp [empty, behind, decodes space spelled ends, bind, Except.bind]
    have opened : gap ++ (quote key.toList ++ (front ++ ':' :: (between ++ text)) ++ tail) =
        gap ++ '"' :: (key.toList.flatMap escape ++
          '"' :: (front ++ ':' :: (between ++ (text ++ tail)))) := by
      simp [quote]
    rw [opened]
    have skipped := skipBlank_append blank ('"' :: (key.toList.flatMap escape ++
          '"' :: (front ++ ':' :: (between ++ (text ++ tail)))))
    rw [skipBlank_cons rfl] at skipped
    constructor
    · rw [members, skipped]
      simp [stringBody_flatMap_escape, taken, later, bind, Except.bind]
    · intro before behind
      rw [members, skipBlank_append behind, skipBlank_cons rfl]
      simp [skipped, stringBody_flatMap_escape, taken, later, bind, Except.bind]

theorem Shape.Takes.later (takes : shape.Takes draft members final)
    (later : Later (Member Spells) '\x7d' members tail) {fuel : Nat}
    (enough : members.length < fuel) (rest : List Char) :
    shape.members fuel false draft (tail ++ rest) = .ok (final, rest) := by
  induction takes generalizing tail fuel with
  | done complete =>
    obtain ⟨fuel, rfl⟩ := Nat.exists_eq_add_one_of_ne_zero (Nat.ne_zero_of_lt enough)
    cases later with
    | done blank =>
      rw [List.append_assoc]
      exact members_close complete blank false fuel rest
  | slot known empty decodes _ ih =>
    obtain ⟨fuel, rfl⟩ := Nat.exists_eq_add_one_of_ne_zero (Nat.ne_zero_of_lt enough)
    cases later with
    | more before behind spelled later =>
      have others := ih later (Nat.lt_of_succ_lt_succ enough)
      simpa using (members_entry spelled known empty decodes (later.ends (by decide) rest) others
        behind).2 before

theorem Shape.Takes.listed (takes : shape.Takes draft members final)
    (listed : Listed (Member Spells) '\x7d' members text) {fuel : Nat}
    (enough : members.length < fuel) (rest : List Char) :
    shape.members fuel true draft (text ++ rest) = .ok (final, rest) := by
  obtain ⟨fuel, rfl⟩ := Nat.exists_eq_add_one_of_ne_zero (Nat.ne_zero_of_lt enough)
  cases takes with
  | done complete =>
    cases listed with
    | none blank =>
      rw [List.append_assoc]
      exact members_close complete blank true fuel rest
  | slot known empty decodes takes =>
    cases listed with
    | some blank spelled later =>
      have others := takes.later later (Nat.lt_of_succ_lt_succ enough) rest
      simpa using (members_entry spelled known empty decodes (later.ends (by decide) rest) others
        blank).1

theorem Shape.Takes.decodes (takes : shape.Takes draft members final) :
    Decodes (shape.read draft) (.obj members) final := by
  intro gap text rest blank spelled ends
  rw [read, spelled.skipBlank blank]
  cases spelled with
  | obj listed =>
    rw [List.cons_append]
    refine takes.listed listed ?_ rest
    have few := listed.length_le
    rw [List.length_append]
    omega

theorem Shape.Takes.optional (fill : Option (Option α) → δ) {slot : Slot δ} {key : String}
    {encode : α → Json} {option : Option α}
    (known : shape.slots.find? (·.key == key) = some slot)
    (empty : slot.filled (fill none) = false)
    (present : ∀ a ∈ option, Decodes (slot.read (fill none)) (encode a) (fill (some (some a))))
    (takes : shape.Takes (fill (option.map some)) members final) :
    shape.Takes (fill none) (Json.optional key (option.map encode) ++ members) final := by
  cases option with
  | none => exact takes
  | some a => exact .slot known empty (present a rfl) takes

end Members

end ScoreFilter.Json

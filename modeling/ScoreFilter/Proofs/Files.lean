import ScoreFilter.Files

namespace ScoreFilter.Files

variable {files files' files'' : Files} {origin path place : Path} {above steps : List String}
  {name content : String}

theorem get_top (top : path <+: files.directory) : files.get? path = some .directory := by
  rw [get?, if_pos top]

theorem get_below (below : ¬ path <+: files.directory) :
    files.get? path = (files.entries.find? (·.1 == path)).map (·.2) := by
  rw [get?, if_neg below]

theorem find?_replaced (entries : List (Path × Entry)) (path other : Path) (entry : Entry) :
    ((entries.map fun old => if old.1 = path then (path, entry) else old).find?
        (·.1 == other)).map (·.2) =
      if other = path then if entries.any (·.1 == path) then some entry else none
      else (entries.find? (·.1 == other)).map (·.2) := by
  induction entries with
  | nil => simp
  | cons first entries ih =>
    by_cases here : first.1 = path
    · by_cases same : other = path
      · simp [here, same]
      · have apart : path ≠ other := fun equal => same equal.symm
        simpa [here, same, apart] using ih
    · have later : (first :: entries).any (·.1 == path) = entries.any (·.1 == path) := by
        rw [List.any_cons, beq_false_of_ne here, Bool.false_or]
      rw [later]
      by_cases found : first.1 = other
      · subst found
        simp [here]
      · simpa [here, found] using ih

theorem get_put (below : ¬ path <+: files.directory) (entry : Entry) (other : Path) :
    (files.put path entry).get? other = if other = path then some entry else files.get? other := by
  by_cases top : other <+: files.directory
  · have apart : other ≠ path := by
      rintro rfl
      exact below top
    have top' : other <+: (files.put path entry).directory := top
    rw [get_top top', get_top top, if_neg apart]
  · have below' : ¬ other <+: (files.put path entry).directory := top
    rw [get_below below', get_below top, put]
    dsimp only
    split
    · rename_i listed
      rw [find?_replaced, if_pos listed]
    · rename_i fresh
      by_cases same : other = path
      · subst same
        have absent : files.entries.find? (·.1 == other) = none := by
          rw [List.find?_eq_none]
          intro row member
          simpa using fun equal => fresh (List.any_eq_true.mpr ⟨row, member, by simpa using equal⟩)
        simp [List.find?_append, absent]
      · have apart : path ≠ other := fun equal => same equal.symm
        simp [List.find?_append, same, apart]

-- The working directory is the same, and every directory stays one.
structure Keeps (files files' : Files) : Prop where
  directory : files'.directory = files.directory
  stays : ∀ path, files.get? path = some .directory → files'.get? path = some .directory

theorem Keeps.refl (files : Files) : files.Keeps files :=
  ⟨rfl, fun _ here => here⟩

theorem Keeps.trans (first : files.Keeps files') (second : files'.Keeps files'') :
    files.Keeps files'' :=
  ⟨second.directory.trans first.directory,
    fun path here => second.stays path (first.stays path here)⟩

theorem Keeps.same_origin (keeps : files.Keeps files') (name : String) :
    files'.origin name = files.origin name := by
  rw [Files.origin, Files.origin, keeps.directory]

theorem not_top (other : files.get? path ≠ some .directory) : ¬ path <+: files.directory :=
  fun top => other (get_top top)

theorem keeps_put (other : files.get? path ≠ some .directory) (entry : Entry) :
    files.Keeps (files.put path entry) := by
  refine ⟨rfl, ?_⟩
  intro place here
  rw [get_put (not_top other)]
  split
  · rename_i same
    rw [same] at here
    exact absurd here other
  · exact here

theorem walk_nil : files.walk [] path = .ok place ↔ path = place := by
  rw [walk, Except.ok.injEq]

theorem walk_step : files.walk (name :: steps) path = .ok place ↔
    files.get? path = some .directory ∧ Text.byteLength name.toList ≤ longestStep ∧
      files.walk steps (path.step name) = .ok place := by
  rw [walk]
  cases files.get? path with
  | none => simp
  | some entry =>
    cases entry with
    | directory =>
      dsimp only
      split
      · rename_i long
        simp
        omega
      · rename_i short
        simp [Nat.le_of_not_lt short]
    | _ => simp

theorem walk_append {later : List String} : files.walk (steps ++ later) path = .ok place ↔
    ∃ middle, files.walk steps path = .ok middle ∧ files.walk later middle = .ok place := by
  induction steps generalizing path with
  | nil => simp [walk_nil]
  | cons name steps ih =>
    simp only [List.cons_append, walk_step, ih]
    grind

-- Where a walk leads does not change as long as the directories on it stay.
theorem walk_keeps (keeps : files.Keeps files') (found : files.walk steps path = .ok place) :
    files'.walk steps path = .ok place := by
  induction steps generalizing path with
  | nil => exact found
  | cons name steps ih =>
    obtain ⟨here, short, later⟩ := walk_step.mp found
    exact walk_step.mpr ⟨keeps.stays path here, short, ih later⟩

def Leads (files : Files) (origin : Path) (steps : List String) : Prop :=
  ∃ place, files.walk (steps ++ ["."]) origin = .ok place

theorem walk_directory : files.walk (steps ++ ["."]) origin = .ok place ↔
    files.walk steps origin = .ok place ∧ files.get? place = some .directory := by
  have dot : Text.byteLength ".".toList ≤ longestStep := by decide
  have stay : ∀ path : Path, path.step "." = path := fun _ => rfl
  rw [walk_append]
  simp only [walk_step, walk_nil, dot, stay, true_and]
  constructor
  · rintro ⟨_, walked, here, rfl⟩
    exact ⟨walked, here⟩
  · rintro ⟨walked, here⟩
    exact ⟨place, walked, here, rfl⟩

theorem leads_below : files.Leads origin (above ++ [name]) ↔
    ∃ place, files.walk above origin = .ok place ∧ files.get? place = some .directory ∧
      Text.byteLength name.toList ≤ longestStep ∧
      files.get? (place.step name) = some .directory := by
  simp only [Leads, walk_directory]
  simp only [walk_append, walk_step, walk_nil]
  constructor
  · rintro ⟨_, ⟨place, walked, here, short, rfl⟩, below⟩
    exact ⟨place, walked, here, short, below⟩
  · rintro ⟨place, walked, here, short, below⟩
    exact ⟨_, ⟨place, walked, here, short, rfl⟩, below⟩

theorem Leads.keeps (leads : files.Leads origin steps) (keeps : files.Keeps files') :
    files'.Leads origin steps := by
  obtain ⟨place, found⟩ := leads
  exact ⟨place, walk_keeps keeps found⟩

theorem step_proper (proper : name ≠ ".") (upward : name ≠ "..") (path : Path) :
    path.step name = path ++ [name] := by
  rw [Path.step, if_neg proper, if_neg upward]

theorem makeDirectory_ok (made : files.makeDirectory origin above name = .ok files') :
    ∃ place, files.walk above origin = .ok place ∧ files.get? place = some .directory ∧
      name ≠ ".." ∧ Text.byteLength name.toList ≤ longestStep ∧
      files.get? (place ++ [name]) = none ∧ files' = files.put (place ++ [name]) .directory := by
  unfold makeDirectory at made
  split at made
  · cases made
  rename_i place found
  obtain ⟨walked, here⟩ := walk_directory.mp found
  split at made
  · cases made
  rename_i downward
  split at made
  · cases made
  rename_i short
  split at made
  · cases made
  rename_i free
  cases made
  refine ⟨place, walked, here, downward, Nat.le_of_not_lt short, ?_, rfl⟩
  simpa using free

theorem ensureDirectory_ok (proper : name ≠ ".")
    (made : files.ensureDirectory origin above name = .ok files') :
    files.Keeps files' ∧ files'.Leads origin (above ++ [name]) := by
  unfold ensureDirectory at made
  split at made
  · split at made
    · rename_i place found
      cases made
      refine ⟨.refl files, place, ?_⟩
      rwa [List.append_assoc]
    · cases made
  · obtain ⟨place, walked, here, downward, short, free, rfl⟩ := makeDirectory_ok made
    have other : files.get? (place ++ [name]) ≠ some .directory := by simp [free]
    have keeps := keeps_put other .directory
    refine ⟨keeps, leads_below.mpr ?_⟩
    refine ⟨place, walk_keeps keeps walked, keeps.stays place here, short, ?_⟩
    rw [step_proper proper downward, get_put (not_top other), if_pos rfl]

theorem ensureDirectory_again (proper : name ≠ ".") (leads : files.Leads origin (above ++ [name])) :
    files.ensureDirectory origin above name = .ok files := by
  obtain ⟨place, walked, here, short, below⟩ := leads_below.mp leads
  have there : files.makeDirectory origin above name = .error .alreadyExists := by
    rw [makeDirectory, walk_directory.mpr ⟨walked, here⟩]
    dsimp only
    by_cases upward : name = ".."
    · rw [if_pos upward]
    · rw [step_proper proper upward] at below
      rw [if_neg upward, if_neg (Nat.not_lt.mpr short), below]
      rfl
  obtain ⟨other, found⟩ := leads
  rw [List.append_assoc, List.singleton_append] at found
  rw [ensureDirectory, there]
  dsimp only
  rw [found]

theorem ensureDirectories_ok (proper : "." ∉ steps)
    (made : files.ensureDirectories origin steps = (files', none)) :
    files.Keeps files' ∧ (steps ≠ [] → files'.Leads origin steps.reverse) := by
  induction steps generalizing files files' with
  | nil =>
    cases made
    exact ⟨.refl files, fun some_steps => absurd rfl some_steps⟩
  | cons name above ih =>
    rw [List.mem_cons, not_or] at proper
    have named : name ≠ "." := Ne.symm proper.1
    unfold ensureDirectories at made
    split at made
    · rename_i built first
      cases made
      obtain ⟨keeps, leads⟩ := ensureDirectory_ok named first
      exact ⟨keeps, fun _ => by rwa [List.reverse_cons]⟩
    · split at made
      · cases made
      · rename_i middle higher
        obtain ⟨kept, _⟩ := ih proper.2 higher
        split at made
        · rename_i built second
          cases made
          obtain ⟨keeps, leads⟩ := ensureDirectory_ok named second
          exact ⟨kept.trans keeps, fun _ => by rwa [List.reverse_cons]⟩
        · cases made
    · cases made

theorem ensureDirectories_again (proper : "." ∉ steps)
    (leads : steps ≠ [] → files.Leads origin steps.reverse) :
    files.ensureDirectories origin steps = (files, none) := by
  cases steps with
  | nil => rfl
  | cons name above =>
    rw [List.mem_cons, not_or] at proper
    have here := leads (by simp)
    rw [List.reverse_cons] at here
    rw [ensureDirectories, ensureDirectory_again (Ne.symm proper.1) here]

theorem makeParents_ok (made : files.makeParents name = (files', none)) :
    files.Keeps files' ∧ ∀ later, files'.Keeps later → later.makeParents name = (later, none) := by
  have proper : "." ∉ ((Path.steps name).filter (· ≠ ".")).reverse.tail := by
    intro member
    have listed := List.mem_reverse.mp (List.mem_of_mem_tail member)
    simpa using (List.mem_filter.mp listed).2
  unfold makeParents at made ⊢
  split at made
  · cases made
  · rename_i short
    obtain ⟨keeps, leads⟩ := ensureDirectories_ok proper made
    refine ⟨keeps, ?_⟩
    intro later kept
    rw [if_neg short, kept.same_origin, keeps.same_origin]
    exact ensureDirectories_again proper fun some_steps => (leads some_steps).keeps kept

theorem contains_of_read (found : files.read name = .ok content) : files.contains name = true := by
  unfold read at found
  split at found
  · cases found
  · rename_i path located
    rw [contains, located]
    dsimp only
    cases here : files.get? path with
    | none => simp [here] at found
    | some entry => rfl

theorem writePath_ok : files.writePath name = .ok path ↔
    nameFault? name = none ∧ name.toList.getLast? ≠ some '/' ∧
      files.walk (Path.steps name) (files.origin name) = .ok path := by
  unfold writePath
  cases nameFault? name with
  | some fault => simp
  | none =>
    by_cases slash : name.toList.getLast? = some '/'
    · simp only [slash, if_true]
      split <;> simp
    · simp [slash]

theorem write_ok : files.write name content = .ok files' ↔
    ∃ path, files.writePath name = .ok path ∧ writeFault? (files.get? path) = none ∧
      files' = files.put path (.text content) := by
  unfold write
  cases files.writePath name with
  | error fault => simp
  | ok path =>
    cases free : writeFault? (files.get? path) with
    | some fault => simp [free]
    | none => simp [free, eq_comm]

structure Written (files : Files) (name content : String) : Prop where
  read : files.read name = .ok content
  again : ∀ other, ∃ files', files.write name other = .ok files'

theorem written_of_write (written : files.write name content = .ok files') :
    files.Keeps files' ∧ files'.Written name content := by
  obtain ⟨path, placed, free, rfl⟩ := write_ok.mp written
  obtain ⟨valid, ended, walked⟩ := writePath_ok.mp placed
  have other : files.get? path ≠ some .directory := by
    intro here
    rw [here] at free
    cases free
  have keeps := keeps_put other (.text content)
  have here : (files.put path (.text content)).get? path = some (.text content) := by
    rw [get_put (not_top other), if_pos rfl]
  have walked' := walk_keeps keeps walked
  rw [← keeps.same_origin] at walked'
  refine ⟨keeps, ?_, ?_⟩
  · rw [read, locate, valid]
    dsimp only
    rw [walked']
    dsimp only
    rw [here]
  · intro text
    have free' : writeFault? ((files.put path (.text content)).get? path) = none := by
      rw [here]
      rfl
    exact ⟨_, write_ok.mpr ⟨path, writePath_ok.mpr ⟨valid, ended, walked'⟩, free', rfl⟩⟩

-- The directories above a file can be made, and the file can be written there.
def Writable (files : Files) (name : String) : Prop :=
  ∃ made, files.makeParents name = (made, none) ∧
    ∀ content, ∃ files', made.write name content = .ok files'

theorem Writable.again {made : Files} (parents : files.makeParents name = (made, none))
    (written : made.write name content = .ok files') : files'.Writable name := by
  obtain ⟨keeps, later⟩ := written_of_write written
  exact ⟨files', (makeParents_ok parents).2 files' keeps, later.again⟩

end ScoreFilter.Files

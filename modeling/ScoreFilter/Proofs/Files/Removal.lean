import ScoreFilter.Proofs.Files

namespace ScoreFilter

namespace Path

variable {path place : Path} {name : String} {steps : List String}

def through (path : Path) : List String → List Path
  | [] => [path]
  | name :: rest => path :: through (path.step name) rest

theorem mem_through (path : Path) (steps : List String) : path ∈ path.through steps := by
  cases steps <;> exact List.mem_cons_self

theorem step_cases (path : Path) (name : String) :
    path.step name <+: path ∨ ∃ last, path.step name = path ++ [last] := by
  unfold step
  split
  · exact .inl (List.prefix_refl path)
  · split
    · exact .inl (List.dropLast_prefix path)
    · exact .inr ⟨name, rfl⟩

-- A step leads below a place only from below it, or to the place itself.
theorem step_below (inside : place <+: path.step name) :
    place <+: path ∨ place = path.step name := by
  rcases step_cases path name with shorter | ⟨last, longer⟩
  · exact .inl (inside.trans shorter)
  · rw [longer] at inside ⊢
    exact (List.prefix_concat_iff.mp inside).symm

-- A way that does not lead through a place does not lead below it.
theorem not_below_of_through (outside : ¬ place <+: path) (around : place ∉ path.through steps) :
    ∀ other ∈ path.through steps, ¬ place <+: other := by
  induction steps generalizing path with
  | nil => simpa [through] using outside
  | cons name steps ih =>
    simp only [through, List.mem_cons, not_or] at around
    refine List.forall_mem_cons.mpr ⟨outside, ih ?_ around.2⟩
    intro inside
    rcases step_below inside with above | here
    · exact outside above
    · rw [here] at around
      exact around.2 (mem_through _ steps)

end Path

namespace Files

variable {files files' : Files} {path place : Path} {name content : String} {steps : List String}

def remove (files : Files) (place : Path) : Files :=
  { files with entries := files.entries.filter fun row => ¬ place <+: row.1 }

theorem get_remove (below : ¬ path <+: files.directory) (place : Path) :
    (files.remove place).get? path = if place <+: path then none else files.get? path := by
  have below' : ¬ path <+: (files.remove place).directory := below
  rw [get_below below', get_below below, remove, List.find?_filter]
  split
  · rename_i gone
    rw [Option.map_eq_none_iff, List.find?_eq_none]
    intro row _ found
    simp only [decide_eq_true_eq, beq_iff_eq] at found
    rw [found.2] at found
    exact found.1 gone
  · rename_i kept
    have same : (fun row : Path × Entry => decide (decide (¬ place <+: row.1) = true ∧
        (row.1 == path) = true)) = fun row => row.1 == path := by
      funext row
      by_cases here : row.1 = path
      · simp [here, kept]
      · simp [here]
    rw [same]

theorem get_remove_self (below : ¬ place <+: files.directory) :
    (files.remove place).get? place = none := by
  rw [get_remove below, if_pos (List.prefix_refl place)]

theorem get_remove_other (outside : ¬ place <+: path) :
    (files.remove place).get? path = files.get? path := by
  by_cases top : path <+: files.directory
  · have top' : path <+: (files.remove place).directory := top
    rw [get_top top', get_top top]
  · rw [get_remove top, if_neg outside]

-- A walk depends on the places it leads through, and ends at one of them.
theorem walk_congr (same : ∀ other ∈ path.through steps, files'.get? other = files.get? other) :
    files'.walk steps path = files.walk steps path := by
  induction steps generalizing path with
  | nil => rfl
  | cons name steps ih =>
    simp only [Path.through, List.forall_mem_cons] at same
    rw [walk, walk, same.1, ih same.2]

theorem walk_through (found : files.walk steps path = .ok place) : place ∈ path.through steps := by
  induction steps generalizing path with
  | nil =>
    rw [walk_nil.mp found]
    exact Path.mem_through place []
  | cons name steps ih => exact List.mem_cons_of_mem _ (ih (walk_step.mp found).2.2)

theorem walk_missing (missing : files.get? place = none) (passed : place ∈ path.through steps)
    {last : Path} (found : files.walk steps path = .ok last) : last = place := by
  induction steps generalizing path with
  | nil =>
    rw [List.mem_singleton.mp passed]
    exact (walk_nil.mp found).symm
  | cons name steps ih =>
    obtain ⟨here, _, later⟩ := walk_step.mp found
    rcases List.mem_cons.mp passed with same | beyond
    · rw [← same, missing] at here
      cases here
    · exact ih beyond later

def passed (files : Files) (name : String) : List Path :=
  (files.origin name).through (Path.steps name)

theorem locate_ok : files.locate name = .ok path ↔
    nameFault? name = none ∧ files.walk (Path.steps name) (files.origin name) = .ok path := by
  unfold locate
  cases nameFault? name <;> simp

theorem locate_passed (located : files.locate name = .ok place) : place ∈ files.passed name :=
  walk_through (locate_ok.mp located).2

-- Nothing is found any more at a name that leads through the place.
theorem not_read_remove (below : ¬ place <+: files.directory)
    (through : place ∈ files.passed name) :
    (files.remove place).contains name = false ∧
      ∃ fault, (files.remove place).read name = .error fault := by
  have missing := get_remove_self below
  cases located : (files.remove place).locate name with
  | error fault => exact ⟨by rw [contains, located], fault, by rw [read, located]⟩
  | ok last =>
    have same := walk_missing missing through (locate_ok.mp located).2
    subst same
    constructor
    · simp [contains, located, missing]
    · exact ⟨.notFound, by simp [read, located, missing]⟩

theorem origin_top (files : Files) (name : String) : files.origin name <+: files.directory := by
  unfold origin
  split
  · exact List.nil_prefix
  · exact List.prefix_refl _

theorem read_remove (below : ¬ place <+: files.directory) (around : place ∉ files.passed name) :
    (files.remove place).read name = files.read name := by
  have outside : ¬ place <+: files.origin name :=
    fun shorter => below (shorter.trans (files.origin_top name))
  have same : ∀ other ∈ files.passed name,
      (files.remove place).get? other = files.get? other :=
    fun other member => get_remove_other (Path.not_below_of_through outside around other member)
  have located : (files.remove place).locate name = files.locate name := by
    have walked := walk_congr same
    rw [locate, locate, ← walked]
    rfl
  rw [read, read, located]
  cases found : files.locate name with
  | error fault => rfl
  | ok path =>
    dsimp only
    rw [same path (locate_passed found)]

end Files

end ScoreFilter

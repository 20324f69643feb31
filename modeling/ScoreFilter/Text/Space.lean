namespace ScoreFilter.Text

-- The characters with the White_Space property.
def isSpace (c : Char) : Bool :=
  let n := c.toNat
  (9 ≤ n && n ≤ 13) || n == 0x20 || n == 0x85 || n == 0xA0 || n == 0x1680 ||
    (0x2000 ≤ n && n ≤ 0x200A) || n == 0x2028 || n == 0x2029 || n == 0x202F || n == 0x205F ||
    n == 0x3000

-- The word that a text opens with, and the words after it.
def splitWords : List Char → List Char × List (List Char)
  | [] => ([], [])
  | c :: cs =>
    let (word, later) := splitWords cs
    if isSpace c then ([], if word.isEmpty then later else word :: later)
    else (c :: word, later)

def words (cs : List Char) : List (List Char) :=
  let (word, later) := splitWords cs
  if word.isEmpty then later else word :: later

theorem splitWords_ne_nil {cs word : List Char} (member : word ∈ (splitWords cs).2) : word ≠ [] := by
  induction cs with
  | nil => simp [splitWords] at member
  | cons c cs ih =>
    unfold splitWords at member
    dsimp only at member
    split at member
    · split at member
      · exact ih member
      · rename_i nonempty
        rcases List.mem_cons.mp member with same | later
        · subst same
          simpa using nonempty
        · exact ih later
    · exact ih member

theorem words_ne_nil {cs word : List Char} (member : word ∈ words cs) : word ≠ [] := by
  unfold words at member
  dsimp only at member
  split at member
  · exact splitWords_ne_nil member
  · rename_i nonempty
    rcases List.mem_cons.mp member with same | later
    · subst same
      simpa using nonempty
    · exact splitWords_ne_nil later

end ScoreFilter.Text

namespace ScoreFilter.Text

def byteLength : List Char → Nat
  | [] => 0
  | c :: cs => c.utf8Size + byteLength cs

-- What stands before and after the last character boundary at or before byte `n`.
def cut : Nat → List Char → List Char × List Char
  | _, [] => ([], [])
  | n, c :: cs =>
    if c.utf8Size ≤ n then
      (c :: (cut (n - c.utf8Size) cs).1, (cut (n - c.utf8Size) cs).2)
    else ([], c :: cs)

def before (n : Nat) (cs : List Char) : List Char :=
  (cut n cs).1

def after (n : Nat) (cs : List Char) : List Char :=
  (cut n cs).2

def clamp (n : Nat) (cs : List Char) : Nat :=
  byteLength (before n cs)

def IsBoundary (n : Nat) (cs : List Char) : Prop :=
  clamp n cs = n

instance (n : Nat) (cs : List Char) : Decidable (IsBoundary n cs) :=
  inferInstanceAs (Decidable (_ = _))

@[simp]
theorem byteLength_nil : byteLength [] = 0 := rfl

@[simp]
theorem byteLength_cons (c : Char) (cs : List Char) :
    byteLength (c :: cs) = c.utf8Size + byteLength cs := rfl

@[simp]
theorem byteLength_append (left right : List Char) :
    byteLength (left ++ right) = byteLength left + byteLength right := by
  induction left with
  | nil => simp
  | cons c cs ih => simp [ih, Nat.add_assoc]

theorem before_append_after (n : Nat) (cs : List Char) : before n cs ++ after n cs = cs := by
  unfold before after
  induction cs generalizing n with
  | nil => rfl
  | cons c cs ih =>
    unfold cut
    split
    · simpa using ih (n - c.utf8Size)
    · rfl

theorem clamp_le (n : Nat) (cs : List Char) : clamp n cs ≤ n := by
  unfold clamp before
  induction cs generalizing n with
  | nil => simp [cut]
  | cons c cs ih =>
    unfold cut
    split
    · have bound := ih (n - c.utf8Size)
      simp only [byteLength_cons]
      omega
    · simp

end ScoreFilter.Text

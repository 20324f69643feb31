namespace ScoreFilter.Decimal

def digitChar (n : Nat) : Char :=
  Char.ofNat (48 + n)

def digitValue (c : Char) : Nat :=
  c.toNat - 48

def digits (n : Nat) : List Char :=
  if n < 10 then [digitChar n] else digits (n / 10) ++ [digitChar (n % 10)]

def value (ds : List Char) : Nat :=
  ds.foldl (fun n d => 10 * n + digitValue d) 0

theorem digitValue_digitChar {n : Nat} (h : n < 10) : digitValue (digitChar n) = n := by
  have every : ∀ n, n < 10 → digitValue (digitChar n) = n := by decide
  exact every n h

theorem isDigit_digitChar {n : Nat} (h : n < 10) : (digitChar n).isDigit = true := by
  have every : ∀ n, n < 10 → (digitChar n).isDigit = true := by decide
  exact every n h

theorem value_digits (n : Nat) : value (digits n) = n := by
  fun_induction digits n with
  | case1 n small => simp [value, digitValue_digitChar small]
  | case2 n large ih =>
    simp only [value, List.foldl_append, List.foldl_cons, List.foldl_nil] at ih ⊢
    rw [ih, digitValue_digitChar (Nat.mod_lt _ (by decide))]
    omega

theorem isDigit_of_mem_digits {n : Nat} {c : Char} (h : c ∈ digits n) : c.isDigit = true := by
  fun_induction digits n with
  | case1 n small => simpa [List.mem_singleton.mp h] using isDigit_digitChar small
  | case2 n large ih =>
    rcases List.mem_append.mp h with h | h
    · exact ih h
    · simpa [List.mem_singleton.mp h] using isDigit_digitChar (Nat.mod_lt n (by decide))

end ScoreFilter.Decimal

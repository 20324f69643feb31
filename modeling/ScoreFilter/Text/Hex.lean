namespace ScoreFilter.Text

def lowerHex (n : Nat) : Char :=
  if n < 10 then Char.ofNat (48 + n) else Char.ofNat (87 + n)

def upperHex (n : Nat) : Char :=
  if n < 10 then Char.ofNat (48 + n) else Char.ofNat (55 + n)

def hexValue? (c : Char) : Option Nat :=
  if c.isDigit then some (c.toNat - 48)
  else if 'a' ≤ c && c ≤ 'f' then some (c.toNat - 87)
  else if 'A' ≤ c && c ≤ 'F' then some (c.toNat - 55)
  else none

def radixValue? (radix : Nat) (ds : List Char) : Option Nat :=
  ds.foldlM (fun n d => ((hexValue? d).filter (· < radix)).map (radix * n + ·)) 0

end ScoreFilter.Text

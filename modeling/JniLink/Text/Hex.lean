/-!
# Hexadecimal digits

A digit's value and its lower and upper case forms, and numbers of a fixed count of digits.
-/

namespace JniLink.Text.Hex

/-- The value of a hexadecimal digit of either case. -/
def digit? (c : Char) : Option Nat :=
  if '0' ≤ c ∧ c ≤ '9' then some (c.toNat - '0'.toNat)
  else if 'a' ≤ c ∧ c ≤ 'f' then some (c.toNat - 'a'.toNat + 10)
  else if 'A' ≤ c ∧ c ≤ 'F' then some (c.toNat - 'A'.toNat + 10)
  else none

/-- The number that the digits write, most significant first; `none` if one of them is no digit. -/
def number? (t : List Char) : Option Nat :=
  t.foldl (fun n c => do return (← n) * 16 + (← digit? c)) (some 0)

/-- No number is read from characters of which one is no digit. -/
theorem number?_eq_none {t : List Char} {c : Char} (hc : c ∈ t) (h : digit? c = none) :
    number? t = none := by
  have hnone (t : List Char) :
      t.foldl (fun n c => do return (← n) * 16 + (← digit? c)) (none : Option Nat) = none := by
    induction t with
    | nil => rfl
    | cons c t ih => exact ih
  obtain ⟨front, back, rfl⟩ := List.append_of_mem hc
  rw [number?, List.foldl_append, List.foldl_cons, h]
  -- the digits before the bad one have been added up to some number or none
  cases List.foldl _ (some 0) front <;> exact hnone back

/-- The lower case digit of a value below 16. -/
def lower (n : Nat) : Char :=
  if n < 10 then Char.ofNat ('0'.toNat + n) else Char.ofNat ('a'.toNat + (n - 10))

/-- The upper case digit of a value below 16. -/
def upper (n : Nat) : Char :=
  if n < 10 then Char.ofNat ('0'.toNat + n) else Char.ofNat ('A'.toNat + (n - 10))

/-- The last four hexadecimal digits of a number. -/
def four (digit : Nat → Char) (n : Nat) : List Char :=
  [digit (n / 4096 % 16), digit (n / 256 % 16), digit (n / 16 % 16), digit (n % 16)]

/-- The hexadecimal digits of a number in lower case, without leading zeros. -/
def digits (n : Nat) : List Char :=
  Nat.toDigits 16 n

end JniLink.Text.Hex

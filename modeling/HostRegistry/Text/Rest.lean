/-!
What is left of a text when something was read off its front: something shorter.
-/

set_option autoImplicit false

namespace HostRegistry.Text

/-- A text shorter than the one it is left of. -/
abbrev Rest (start : List Char) : Type := { r : List Char // r.length < start.length }

/-- A text not longer than the one it is left of. -/
abbrev Remainder (start : List Char) : Type := { r : List Char // r.length ≤ start.length }

/-! ## What is left of longer texts -/

theorem length_le_self (s : List Char) : s.length ≤ s.length := Nat.le_refl _

theorem length_le_cons (c : Char) (r : List Char) : r.length ≤ (c :: r).length := Nat.le_succ _

theorem length_lt_cons (c : Char) (r : List Char) : r.length < (c :: r).length :=
  Nat.lt_succ_self _

namespace Rest

variable {s r : List Char}

theorem length_le (rest : Rest s) : rest.1.length ≤ s.length := Nat.le_of_lt rest.2

theorem length_lt_cons (c : Char) (rest : Rest r) : rest.1.length < (c :: r).length :=
  Nat.lt_succ_of_lt rest.2

theorem length_lt (rest : Rest s) (after : Rest rest.1) : after.1.length < s.length :=
  Nat.lt_trans after.2 rest.2

/-- All but the first character. -/
def tail (c : Char) (r : List Char) : Rest (c :: r) := ⟨r, Text.length_lt_cons c r⟩

/-- What is left of a text is left of it with a character more in front. -/
def behind (c : Char) (rest : Rest r) : Rest (c :: r) := ⟨rest.1, rest.length_lt_cons c⟩

/-- What is left of what is left. -/
def further (rest : Rest s) (after : Rest rest.1) : Rest s := ⟨after.1, rest.length_lt after⟩

/-- What is shorter is not longer. -/
def remainder (rest : Rest s) : Remainder s := ⟨rest.1, rest.length_le⟩

end Rest

namespace Remainder

variable {r : List Char}

theorem length_lt_cons (c : Char) (rest : Remainder r) : rest.1.length < (c :: r).length :=
  Nat.lt_succ_of_le rest.2

/-- The whole text. -/
def all (s : List Char) : Remainder s := ⟨s, length_le_self s⟩

/-- A remainder is shorter than the text with a character more in front. -/
def behind (c : Char) (rest : Remainder r) : Rest (c :: r) := ⟨rest.1, rest.length_lt_cons c⟩

end Remainder

/-- Dropping a leading part leaves nothing longer. -/
theorem length_dropWhile_le (p : Char → Bool) (s : List Char) :
    (s.dropWhile p).length ≤ s.length := by
  induction s with
  | nil => exact Nat.le_refl 0
  | cons c r ih =>
    rw [List.dropWhile_cons]
    split
    next => exact Nat.le_succ_of_le ih
    next => exact Nat.le_refl _

/-- The longest front with a property ends where the property does. -/
theorem takeWhile_append_stop {p : Char → Bool} {front rest : List Char}
    (hfront : ∀ c ∈ front, p c = true) (hstop : ∀ c ∈ rest.head?, p c = false) :
    (front ++ rest).takeWhile p = front ∧ (front ++ rest).dropWhile p = rest := by
  rw [List.takeWhile_append_of_pos hfront, List.dropWhile_append_of_pos hfront]
  cases rest with
  | nil => exact ⟨List.append_nil front, rfl⟩
  | cons c r =>
    have hc : p c = false := hstop c rfl
    rw [List.takeWhile_cons, List.dropWhile_cons, hc]
    exact ⟨List.append_nil front, rfl⟩

/-! ## Digits -/

/-- The value of a hexadecimal digit. -/
def hexDigit? (c : Char) : Option Nat :=
  if '0' ≤ c ∧ c ≤ '9' then some (c.toNat - '0'.toNat)
  else if 'a' ≤ c ∧ c ≤ 'f' then some (c.toNat - 'a'.toNat + 10)
  else if 'A' ≤ c ∧ c ≤ 'F' then some (c.toNat - 'A'.toNat + 10)
  else none

/-- Whether a character is a decimal digit. -/
def isDigit (c : Char) : Bool := '0' ≤ c && c ≤ '9'

/-- The value of a decimal digit. -/
def digitValue (c : Char) : Nat := c.toNat - '0'.toNat

/-- The number that digits of a base are, the leading one first. -/
def ofDigits (base : Nat) (digits : List Nat) : Nat := digits.foldl (fun n d => n * base + d) 0

end HostRegistry.Text
